import Mathlib

/-! Regular expressions with groups, matched leftmost and greedily. A matcher that backtracks tries the ways to match
at a place in a fixed order and takes the first one; the ways are listed here in that order. Only single symbols are
repeated. -/
namespace Logjam.Library

inductive Regexp (α : Type*)
  | empty
  | sym (p : α → Bool)
  | plus (p : α → Bool)
  | seq (r s : Regexp α)
  | alt (r s : Regexp α)
  | group (i : ℕ) (r : Regexp α)
  | start
  | stop

/-- A way to match: the text, what its groups have matched, and what comes after it. -/
@[ext] structure Way (α : Type*) where
  text : List α
  groups : List (ℕ × List α)
  rest : List α

/-- What a group has matched, which is nothing if it took no part. -/
def Way.submatch {α : Type*} (w : Way α) (i : ℕ) : List α := (w.groups.lookup i).getD []

namespace Regexp
variable {α : Type*}

/-- The ways to match at a place, the preferred ones first. The flag tells the start of the input. -/
def ways : Regexp α → Bool → List α → List (Way α)
  | empty,_,xs => [⟨[],[],xs⟩]
  | sym p,_,xs =>
    match xs with
    | [] => []
    | a::xs => if p a then [⟨[a],[],xs⟩] else []
  | plus p,_,xs =>
    (List.range (xs.takeWhile p).length).reverse.map fun k => ⟨xs.take (k+1),[],xs.drop (k+1)⟩
  | seq r s,first,xs =>
    (r.ways first xs).flatMap fun u => (s.ways (first && u.text.isEmpty) u.rest).map fun v =>
      ⟨u.text ++ v.text,u.groups ++ v.groups,v.rest⟩
  | alt r s,first,xs => r.ways first xs ++ s.ways first xs
  | group i r,first,xs => (r.ways first xs).map fun u => ⟨u.text,(i,u.text)::u.groups,u.rest⟩
  | start,first,xs => if first then [⟨[],[],xs⟩] else []
  | stop,_,xs => if xs.isEmpty then [⟨[],[],[]⟩] else []

attribute [grind =] ways

/-- The first place with a match. -/
def findFrom (r : Regexp α) : Bool → List α → Option (Way α)
  | first,[] => (r.ways first []).head?
  | first,a::xs => (r.ways first (a::xs)).head?.or (r.findFrom false xs)

def find (r : Regexp α) (xs : List α) : Option (Way α) := r.findFrom true xs

/-- One symbol of each class. -/
def classes : List (α → Bool) → Regexp α
  | [] => empty
  | p::ps => seq (sym p) (classes ps)

def literal [DecidableEq α] (text : List α) : Regexp α := classes (text.map fun a b => decide (a = b))

/-- An expression between anchors. -/
def anchored (r : Regexp α) : Regexp α := seq start (seq r stop)

/-- The texts that an expression without anchors matches, with their groups, wherever it is tried. -/
def Describes (r : Regexp α) (L : List α → List (ℕ × List α) → Prop) : Prop :=
  ∀ first xs w,w ∈ r.ways first xs ↔ xs = w.text ++ w.rest ∧ L w.text w.groups

section Describes
variable {r s : Regexp α} {L M : List α → List (ℕ × List α) → Prop}

lemma Describes.congr (h : r.Describes L) (hiff : ∀ text groups,L text groups ↔ M text groups) : r.Describes M := by
  intro first xs w
  rw [h,hiff]

lemma describes_empty : (empty : Regexp α).Describes fun text groups => text = [] ∧ groups = [] := by
  intro first xs w
  simp only [ways,List.mem_singleton,Way.ext_iff]
  constructor
  · rintro ⟨htext,hgroups,hrest⟩
    exact ⟨by rw [htext,hrest,List.nil_append],htext,hgroups⟩
  · rintro ⟨hxs,htext,hgroups⟩
    exact ⟨htext,hgroups,by rw [hxs,htext,List.nil_append]⟩

lemma describes_sym (p : α → Bool) : (sym p).Describes fun text groups => (∃ a,p a = true ∧ text = [a]) ∧ groups = [] := by
  intro first xs w
  cases xs with
  | nil =>
    refine iff_of_false List.not_mem_nil ?_
    rintro ⟨hxs,⟨a,-,htext⟩,-⟩
    rw [htext] at hxs
    exact List.cons_ne_nil _ _ hxs.symm
  | cons a xs =>
    by_cases hp : p a = true
    · simp only [ways,if_pos hp,List.mem_singleton,Way.ext_iff]
      constructor
      · rintro ⟨htext,hgroups,hrest⟩
        exact ⟨by rw [htext,hrest,List.singleton_append],⟨a,hp,htext⟩,hgroups⟩
      · rintro ⟨hxs,⟨b,-,htext⟩,hgroups⟩
        rw [htext] at hxs
        obtain ⟨rfl,hrest⟩ := List.cons.inj hxs
        exact ⟨htext,hgroups,hrest.symm⟩
    · simp only [ways,if_neg hp,List.not_mem_nil,false_iff]
      rintro ⟨hxs,⟨b,hb,htext⟩,-⟩
      rw [htext] at hxs
      obtain ⟨rfl,-⟩ := List.cons.inj hxs
      exact hp hb

lemma describes_plus (p : α → Bool) :
    (plus p).Describes fun text groups => text ≠ [] ∧ (∀ a ∈ text,p a = true) ∧ groups = [] := by
  intro first xs w
  simp only [ways,List.mem_map,List.mem_reverse,List.mem_range]
  constructor
  · rintro ⟨k,hk,rfl⟩
    refine ⟨(List.take_append_drop _ _).symm,?_,?_,rfl⟩
    · rw [Ne,List.take_eq_nil_iff]
      rintro (h | rfl)
      · omega
      · simp at hk
    · have htake : xs.take (k+1) = (xs.takeWhile p).take (k+1) := by
        rw [← List.take_append_of_le_length hk,List.takeWhile_append_dropWhile]
      rw [htake]
      intro a ha
      exact List.mem_takeWhile_imp (List.mem_of_mem_take ha)
  · rintro ⟨hxs,hne,hall,hgroups⟩
    have hpos := List.length_pos_iff.mpr hne
    refine ⟨w.text.length-1,?_,?_⟩
    · rw [hxs,List.takeWhile_append_of_pos hall,List.length_append]
      omega
    · rw [Nat.sub_add_cancel hpos,hxs]
      ext1
      · exact List.take_left
      · exact hgroups.symm
      · exact List.drop_left

lemma mem_ways_seq {first : Bool} {xs : List α} {w : Way α} : w ∈ (seq r s).ways first xs ↔
    ∃ u ∈ r.ways first xs, ∃ v ∈ s.ways (first && u.text.isEmpty) u.rest,
      w = ⟨u.text ++ v.text,u.groups ++ v.groups,v.rest⟩ := by
  simp only [ways,List.mem_flatMap,List.mem_map,eq_comm]

lemma Describes.seq (hr : r.Describes L) (hs : s.Describes M) : (seq r s).Describes fun text groups =>
    ∃ t g t' g',L t g ∧ M t' g' ∧ text = t ++ t' ∧ groups = g ++ g' := by
  intro first xs w
  rw [mem_ways_seq]
  constructor
  · rintro ⟨u,hu,v,hv,rfl⟩
    obtain ⟨hxs,hL⟩ := (hr _ _ _).mp hu
    obtain ⟨hrest,hM⟩ := (hs _ _ _).mp hv
    refine ⟨?_,u.text,u.groups,v.text,v.groups,hL,hM,rfl,rfl⟩
    rw [hxs,hrest,List.append_assoc]
  · rintro ⟨hxs,t,g,t',g',hL,hM,htext,hgroups⟩
    refine ⟨⟨t,g,t' ++ w.rest⟩,(hr _ _ _).mpr ⟨?_,hL⟩,⟨t',g',w.rest⟩,(hs _ _ _).mpr ⟨rfl,hM⟩,Way.ext htext hgroups rfl⟩
    rw [hxs,htext,List.append_assoc]

lemma Describes.alt (hr : r.Describes L) (hs : s.Describes M) :
    (alt r s).Describes fun text groups => L text groups ∨ M text groups := by
  intro first xs w
  rw [ways,List.mem_append,hr,hs,and_or_left]

lemma Describes.group (hr : r.Describes L) (i : ℕ) :
    (group i r).Describes fun text groups => ∃ g,L text g ∧ groups = (i,text)::g := by
  intro first xs w
  simp only [ways,List.mem_map]
  constructor
  · rintro ⟨u,hu,rfl⟩
    obtain ⟨hxs,hL⟩ := (hr _ _ _).mp hu
    exact ⟨hxs,u.groups,hL,rfl⟩
  · rintro ⟨hxs,g,hL,hgroups⟩
    exact ⟨⟨w.text,g,w.rest⟩,(hr _ _ _).mpr ⟨hxs,hL⟩,Way.ext rfl hgroups.symm rfl⟩

lemma describes_classes (ps : List (α → Bool)) :
    (classes ps).Describes fun text groups => List.Forall₂ (fun p a => p a = true) ps text ∧ groups = [] := by
  induction ps with
  | nil => exact describes_empty.congr fun text groups => by rw [List.forall₂_nil_left_iff]
  | cons p ps ih =>
    refine ((describes_sym p).seq ih).congr ?_
    intro text groups
    rw [List.forall₂_cons_left_iff]
    constructor
    · rintro ⟨_,_,t,_,⟨⟨a,hp,rfl⟩,rfl⟩,⟨hall,rfl⟩,rfl,rfl⟩
      exact ⟨⟨a,t,hp,hall,rfl⟩,rfl⟩
    · rintro ⟨⟨a,t,hp,hall,rfl⟩,rfl⟩
      exact ⟨[a],[],t,[],⟨⟨a,hp,rfl⟩,rfl⟩,⟨hall,rfl⟩,rfl,rfl⟩

lemma describes_literal [DecidableEq α] (word : List α) :
    (literal word).Describes fun text groups => text = word ∧ groups = [] := by
  refine (describes_classes _).congr ?_
  intro text groups
  rw [List.forall₂_map_left_iff]
  simp only [decide_eq_true_eq]
  rw [List.forall₂_eq_eq_eq,eq_comm]

/-- A fixed word before the rest. -/
lemma Describes.word [DecidableEq α] (h : r.Describes L) (word : List α) :
    (Regexp.seq (literal word) r).Describes fun text groups => ∃ rest,L rest groups ∧ text = word ++ rest := by
  refine ((describes_literal word).seq h).congr ?_
  intro text groups
  constructor
  · rintro ⟨_,_,rest,_,⟨rfl,rfl⟩,hL,rfl,rfl⟩
    exact ⟨rest,hL,rfl⟩
  · rintro ⟨rest,hL,rfl⟩
    exact ⟨word,[],rest,groups,⟨rfl,rfl⟩,hL,rfl,rfl⟩

/-- A group of repeated symbols and a separator before the rest. -/
lemma Describes.field [DecidableEq α] (h : r.Describes L) (i : ℕ) (p : α → Bool) (separator : List α) :
    (Regexp.seq (Regexp.group i (plus p)) (Regexp.seq (literal separator) r)).Describes fun text groups =>
      ∃ t rest g,t ≠ [] ∧ (∀ a ∈ t,p a = true) ∧ L rest g ∧ text = t ++ (separator ++ rest) ∧ groups = (i,t)::g := by
  refine (((describes_plus p).group i).seq (h.word separator)).congr ?_
  intro text groups
  constructor
  · rintro ⟨t,_,_,g,⟨_,⟨hne,hall,rfl⟩,rfl⟩,⟨rest,hL,rfl⟩,rfl,rfl⟩
    exact ⟨t,rest,g,hne,hall,hL,rfl,rfl⟩
  · rintro ⟨t,rest,g,hne,hall,hL,rfl,rfl⟩
    exact ⟨t,[(i,t)],separator ++ rest,g,⟨[],⟨hne,hall,rfl⟩,rfl⟩,⟨rest,hL,rfl⟩,rfl,rfl⟩

end Describes

section Find
variable {r : Regexp α} {L : List α → List (ℕ × List α) → Prop} {xs : List α} {w : Way α}

lemma mem_ways_start {first : Bool} : w ∈ (start : Regexp α).ways first xs ↔ first = true ∧ w = ⟨[],[],xs⟩ := by
  cases first <;> simp [ways]

lemma mem_ways_stop {first : Bool} : w ∈ (stop : Regexp α).ways first xs ↔ xs = [] ∧ w = ⟨[],[],[]⟩ := by
  cases xs <;> simp [ways]

/-- No match begins before the given place. -/
def Leftmost (L : List α → List (ℕ × List α) → Prop) (before xs : List α) : Prop :=
  ∀ before' text rest groups,xs = before' ++ (text ++ rest) → L text groups → before.length ≤ before'.length

lemma findFrom_sound (h : r.Describes L) {first : Bool} (hfind : r.findFrom first xs = some w) :
    ∃ before,xs = before ++ (w.text ++ w.rest) ∧ L w.text w.groups ∧ Leftmost L before xs := by
  induction xs generalizing first with
  | nil =>
    obtain ⟨hxs,hL⟩ := (h _ _ _).mp (List.mem_of_head? hfind)
    exact ⟨[],hxs,hL,fun _ _ _ _ _ _ => Nat.zero_le _⟩
  | cons a xs ih =>
    rw [findFrom,Option.or_eq_some_iff] at hfind
    obtain hhead | ⟨hnone,hlater⟩ := hfind
    · obtain ⟨hxs,hL⟩ := (h _ _ _).mp (List.mem_of_head? hhead)
      exact ⟨[],hxs,hL,fun _ _ _ _ _ _ => Nat.zero_le _⟩
    · obtain ⟨before,rfl,hL,hleft⟩ := ih hlater
      refine ⟨a::before,rfl,hL,fun before' text rest groups heq hL' => ?_⟩
      cases before' with
      | nil =>
        -- a match at the first place would have been found there
        have hmem : ⟨text,groups,rest⟩ ∈ r.ways first (a::(before ++ (w.text ++ w.rest))) := (h _ _ _).mpr ⟨heq,hL'⟩
        exact absurd (List.head?_eq_none_iff.mp hnone) (List.ne_nil_of_mem hmem)
      | cons b before' =>
        exact Nat.succ_le_succ (hleft before' text rest groups (List.cons.inj heq).2 hL')

/-- What is found is in the input, at the first place with a match. -/
lemma find_sound (h : r.Describes L) (hfind : r.find xs = some w) :
    ∃ before,xs = before ++ (w.text ++ w.rest) ∧ L w.text w.groups ∧ Leftmost L before xs :=
  findFrom_sound h hfind

lemma findFrom_complete (h : r.Describes L) {text : List α} {groups : List (ℕ × List α)} (hL : L text groups)
    (before rest : List α) (first : Bool) : ∃ w,r.findFrom first (before ++ (text ++ rest)) = some w := by
  induction before generalizing first with
  | nil =>
    have hmem : ⟨text,groups,rest⟩ ∈ r.ways first (text ++ rest) := (h _ _ _).mpr ⟨rfl,hL⟩
    obtain ⟨w,hw⟩ := Option.ne_none_iff_exists'.mp (mt List.head?_eq_none_iff.mp (List.ne_nil_of_mem hmem))
    refine ⟨w,?_⟩
    rw [List.nil_append]
    cases hxs : text ++ rest with
    | nil => rw [findFrom,← hxs,hw]
    | cons a xs => rw [findFrom,← hxs,hw,Option.some_or]
  | cons a before ih =>
    obtain ⟨w,hw⟩ := ih false
    rw [List.cons_append,findFrom,hw]
    cases (r.ways first (a::(before ++ (text ++ rest)))).head? with
    | none => exact ⟨w,rfl⟩
    | some v => exact ⟨v,rfl⟩

/-- Something is found if anything matches. -/
lemma find_complete (h : r.Describes L) {text : List α} {groups : List (ℕ × List α)} (hL : L text groups)
    (before rest : List α) : ∃ w,r.find (before ++ (text ++ rest)) = some w :=
  findFrom_complete h hL before rest true

/-- Between anchors all of the input is matched. -/
lemma mem_ways_anchored (h : r.Describes L) :
    w ∈ (anchored r).ways true xs ↔ L xs w.groups ∧ w.text = xs ∧ w.rest = [] := by
  rw [anchored,mem_ways_seq]
  constructor
  · rintro ⟨t,ht,v,hv,rfl⟩
    obtain ⟨-,rfl⟩ := mem_ways_start.mp ht
    obtain ⟨u,hu,e,he,rfl⟩ := mem_ways_seq.mp hv
    obtain ⟨hxs,hL⟩ := (h _ _ _).mp hu
    obtain ⟨hrest,rfl⟩ := mem_ways_stop.mp he
    rw [hrest,List.append_nil] at hxs
    dsimp only at hxs ⊢
    rw [hxs,List.append_nil,List.append_nil,List.nil_append,List.nil_append]
    exact ⟨hL,rfl,rfl⟩
  · rintro ⟨hL,htext,hrest⟩
    have hxs : xs = w.text ++ w.rest := by rw [htext,hrest,List.append_nil]
    refine ⟨⟨[],[],xs⟩,mem_ways_start.mpr ⟨rfl,rfl⟩,w,mem_ways_seq.mpr ?_,rfl⟩
    refine ⟨w,(h _ _ _).mpr ⟨hxs,htext ▸ hL⟩,⟨[],[],[]⟩,mem_ways_stop.mpr ⟨hrest,rfl⟩,?_⟩
    rw [List.append_nil,List.append_nil]
    exact Way.ext rfl rfl hrest

/-- An anchored expression matches at the first place only. -/
lemma find_anchored_eq : (anchored r).find xs = ((anchored r).ways true xs).head? := by
  have hnone : ∀ xs,(anchored r).findFrom false xs = none := by
    intro xs
    induction xs with
    | nil => rfl
    | cons a xs ih =>
      rw [findFrom,ih]
      rfl
  cases xs with
  | nil => rfl
  | cons a xs => rw [find,findFrom,hnone,Option.or_none]

lemma find_anchored_eq_none_iff (h : r.Describes L) : (anchored r).find xs = none ↔ ∀ groups,¬L xs groups := by
  rw [find_anchored_eq,List.head?_eq_none_iff,List.eq_nil_iff_forall_not_mem]
  constructor
  · intro hnone groups hL
    exact hnone ⟨xs,groups,[]⟩ ((mem_ways_anchored h).mpr ⟨hL,rfl,rfl⟩)
  · intro hnone w hw
    exact hnone _ ((mem_ways_anchored h).mp hw).1

/-- If the groups are determined by the input, these are the ones that are found. -/
lemma find_anchored_of_unique (h : r.Describes L) {groups : List (ℕ × List α)} (hL : L xs groups)
    (hunique : ∀ groups',L xs groups' → groups' = groups) : (anchored r).find xs = some ⟨xs,groups,[]⟩ := by
  rw [find_anchored_eq]
  cases hways : (anchored r).ways true xs with
  | nil =>
    have hmem := (mem_ways_anchored h).mpr (show L xs (Way.mk xs groups []).groups ∧ _ ∧ _ from ⟨hL,rfl,rfl⟩)
    rw [hways] at hmem
    exact absurd hmem List.not_mem_nil
  | cons w ws =>
    obtain ⟨hw,htext,hrest⟩ := (mem_ways_anchored h).mp (hways ▸ List.mem_cons_self : w ∈ _)
    rw [List.head?_cons,Option.some_inj]
    exact Way.ext htext (hunique _ hw) hrest

end Find

end Regexp

end Logjam.Library
