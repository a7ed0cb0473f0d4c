import Mathlib

/-! Association lists with unique keys as queues: new entries go to the end, entries are shifted
off the front, and any entry can be deleted by its key. -/
namespace Logjam.Library

abbrev KeyedQueue (K V : Type*) := AList (fun _ : K => V)

namespace KeyedQueue

variable {K V : Type*}

def size (q : KeyedQueue K V) : ℕ := q.keys.length

/-- Shift entries off the front while their value satisfies the condition, and count them. -/
def shiftWhile (p : V → Bool) (q : KeyedQueue K V) : ℕ × KeyedQueue K V :=
  ((q.entries.takeWhile fun e => p e.2).length,
    ⟨q.entries.dropWhile fun e => p e.2,q.nodupKeys.sublist (List.dropWhile_sublist _)⟩)

lemma mem_of_mem_shiftWhile {p : V → Bool} {q : KeyedQueue K V} {k : K} (h : k ∈ (shiftWhile p q).2) :
    k ∈ q :=
  ((List.dropWhile_sublist _).map Sigma.fst).subset h

lemma size_shiftWhile (p : V → Bool) (q : KeyedQueue K V) :
    (shiftWhile p q).1+size (shiftWhile p q).2 = size q := by
  have h := congrArg List.length (List.takeWhile_append_dropWhile (p := fun e => p e.2) (l := q.entries))
  rw [List.length_append] at h
  simpa [size,AList.keys,List.keys,shiftWhile] using h

/-- Take the entry off the front. -/
def shift : KeyedQueue K V → Option V × KeyedQueue K V
  | ⟨[],h⟩ => (none,⟨[],h⟩)
  | ⟨e::rest,h⟩ => (some e.2,⟨rest,h.sublist (List.sublist_cons_self e rest)⟩)

/-- The values, from the front. -/
def values (q : KeyedQueue K V) : List V := q.entries.map Sigma.snd

lemma values_shiftWhile (p : V → Bool) (q : KeyedQueue K V) :
    values (shiftWhile p q).2 = (values q).dropWhile p := List.dropWhile_map.symm

/-- Nothing is left to shift exactly if what is to be shifted comes first. -/
lemma forall_dropWhile_iff {α : Type*} {p : α → Bool} {l : List α} :
    (∀ a ∈ l.dropWhile p,p a = false) ↔ l.Pairwise fun a b => p b → p a := by
  induction l with
  | nil => simp
  | cons a l ih =>
    rw [List.pairwise_cons]
    cases ha : p a with
    | true => simpa [List.dropWhile_cons_of_pos ha] using ih
    | false =>
      rw [List.dropWhile_cons_of_neg (by simp [ha]),List.forall_mem_cons]
      constructor
      · rintro ⟨-,hl⟩
        refine ⟨fun b hb hpb => absurd hpb (by simp [hl b hb]),ih.mp fun b hb => ?_⟩
        exact hl b ((List.dropWhile_sublist p).subset hb)
      · rintro ⟨hfirst,-⟩
        exact ⟨ha,fun b hb => by simpa using hfirst b hb⟩

lemma shiftWhile_complete_iff {p : V → Bool} {q : KeyedQueue K V} :
    (∀ v ∈ values (shiftWhile p q).2,p v = false) ↔ (values q).Pairwise fun v w => p w → p v := by
  rw [values_shiftWhile]
  exact forall_dropWhile_iff

/-- The times of the values do not decrease, and none is later than now. -/
structure Chronological {T : Type*} [Preorder T] (time : V → T) (now : T) (q : KeyedQueue K V) : Prop where
  pairwise : (values q).Pairwise fun v w => time v ≤ time w
  le_now : ∀ v ∈ values q,time v ≤ now

section
variable {T : Type*} {time : V → T} {now : T} {q r : KeyedQueue K V}

lemma chronological_empty [Preorder T] : Chronological time now (∅ : KeyedQueue K V) :=
  ⟨List.Pairwise.nil,nofun⟩

lemma Chronological.mono [Preorder T] (h : Chronological time now q) {later : T} (hle : now ≤ later) :
    Chronological time later q :=
  ⟨h.pairwise,fun v hv => (h.le_now v hv).trans hle⟩

lemma Chronological.sublist [Preorder T] (h : Chronological time now q) (hr : (values r).Sublist (values q)) :
    Chronological time now r :=
  ⟨h.pairwise.sublist hr,fun v hv => h.le_now v (hr.subset hv)⟩

lemma Chronological.shiftWhile [Preorder T] (h : Chronological time now q) (p : V → Bool) :
    Chronological time now (shiftWhile p q).2 :=
  h.sublist (values_shiftWhile p q ▸ List.dropWhile_sublist p)

/-- Shifting what is older than a threshold leaves nothing that is. -/
lemma Chronological.shiftWhile_complete [Preorder T] (h : Chronological time now q) {p : V → Bool} {t : T}
    (hp : ∀ v,p v ↔ time v < t) : ∀ v ∈ values (KeyedQueue.shiftWhile p q).2,p v = false := by
  apply shiftWhile_complete_iff.mpr
  refine h.pairwise.imp fun hle hw => ?_
  exact (hp _).mpr (hle.trans_lt ((hp _).mp hw))

end

variable [DecidableEq K]

/-- A key that is present keeps its entry. -/
def pushBack (q : KeyedQueue K V) (k : K) (v : V) : KeyedQueue K V :=
  if h : k ∈ q then q
  else ⟨q.entries ++ [⟨k,v⟩],List.nodupKeys_middle.mpr (by
    rw [List.append_nil]
    exact List.nodupKeys_cons.mpr ⟨h,q.nodupKeys⟩)⟩

lemma entries_pushBack {q : KeyedQueue K V} {k : K} (h : k ∉ q) (v : V) :
    (pushBack q k v).entries = q.entries ++ [⟨k,v⟩] := by
  rw [pushBack,dif_neg h]

lemma keys_pushBack {q : KeyedQueue K V} {k : K} (h : k ∉ q) (v : V) :
    (pushBack q k v).keys = q.keys ++ [k] := by
  rw [pushBack,dif_neg h]
  exact List.map_append

@[simp] lemma mem_pushBack {q : KeyedQueue K V} {k : K} {v : V} {j : K} :
    j ∈ pushBack q k v ↔ j = k ∨ j ∈ q := by
  by_cases h : k ∈ q
  · rw [pushBack,dif_pos h]
    exact ⟨Or.inr,fun hj => hj.elim (fun he => he ▸ h) id⟩
  · rw [AList.mem_keys,keys_pushBack h,List.mem_append,List.mem_singleton,or_comm,AList.mem_keys]

lemma size_pushBack {q : KeyedQueue K V} {k : K} (h : k ∉ q) (v : V) :
    size (pushBack q k v) = size q+1 := by
  rw [size,keys_pushBack h,List.length_append,List.length_singleton,size]

lemma size_erase {q : KeyedQueue K V} {k : K} (h : k ∈ q) : size (q.erase k)+1 = size q := by
  have hpos : 0 < q.keys.length := List.length_pos_of_mem h
  rw [size,size,AList.keys_erase,List.length_erase_of_mem h]
  omega

lemma shift_of_entries {q : KeyedQueue K V} {e : Σ _ : K,V} {rest : List (Σ _ : K,V)}
    (h : q.entries = e::rest) : q.shift = (some e.2,q.erase e.1) := by
  obtain ⟨entries,hnodup⟩ := q
  obtain rfl : entries = e::rest := h
  refine Prod.ext rfl (AList.ext ?_)
  exact (List.kerase_cons_eq rfl).symm

lemma Chronological.erase {T : Type*} [Preorder T] {time : V → T} {now : T} {q : KeyedQueue K V}
    (h : Chronological time now q) (k : K) : Chronological time now (q.erase k) := by
  apply h.sublist
  exact (List.kerase_sublist k q.entries).map Sigma.snd

lemma Chronological.pushBack {T : Type*} [Preorder T] {time : V → T} {now : T} {q : KeyedQueue K V}
    (h : Chronological time now q) (k : K) {v : V} (hv : time v = now) :
    Chronological time now (pushBack q k v) := by
  by_cases hk : k ∈ q
  · rwa [KeyedQueue.pushBack,dif_pos hk]
  have hvalues : values (KeyedQueue.pushBack q k v) = values q ++ [v] := by
    rw [values,entries_pushBack hk,List.map_append]
    rfl
  constructor
  · rw [hvalues,List.pairwise_append]
    refine ⟨h.pairwise,List.pairwise_singleton _ _,fun w hw u hu => ?_⟩
    rw [List.mem_singleton.mp hu,hv]
    exact h.le_now w hw
  · rw [hvalues,List.forall_mem_append]
    refine ⟨h.le_now,fun u hu => ?_⟩
    rw [List.mem_singleton.mp hu,hv]

end KeyedQueue
end Logjam.Library
