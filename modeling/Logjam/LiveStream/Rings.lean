import Logjam.Library.Cyclic
import Logjam.LiveStream.Server

/-! What the rings of the live stream server hold. Reset forgets the values of a ring but leaves them in its array,
and Mean adds up the whole array as long as the ring has not wrapped around. -/
namespace Logjam.LiveStream
open Library.Cyclic

variable {α : Type} {values : List α}

/-- The ring holds the last of the values that have been added since it was empty. -/
structure Ring.Represents (b : Ring α) (values : List α) : Prop where
  size : b.size = min bufSize values.length
  last : values.length = 0 ∧ b.last = -1 ∨ 0 < values.length ∧ b.last = ((values.length-1)%bufSize : ℕ)
  holds : Holds b.buf values

namespace Ring.Represents

variable {b : Ring α}

lemma new (zero : α) : (Ring.new zero).Represents [] := ⟨rfl,.inl ⟨rfl,rfl⟩,holds_nil⟩

lemma reset (b : Ring α) : b.reset.Represents [] := ⟨rfl,.inl ⟨rfl,rfl⟩,holds_nil⟩

lemma next_eq (h : b.Represents values) : b.next = Fin.ofNat bufSize values.length := by
  apply Fin.ext
  change ((b.last+1).tmod bufSize).toNat = values.length%bufSize
  have hlow := b.low
  rw [Int.tmod_eq_emod_of_nonneg (by omega)]
  have hlast := h.last
  unfold bufSize at hlast ⊢
  omega

lemma add (h : b.Represents values) (val : α) : (b.add val).Represents (values ++ [val]) := by
  refine ⟨?_,.inr ⟨by simp,?_⟩,?_⟩
  · have hsize := h.size
    simp only [Ring.add,List.length_append,List.length_singleton]
    split_ifs <;> omega
  · change (b.next : ℤ) = _
    rw [h.next_eq,List.length_append,List.length_singleton,Nat.add_sub_cancel]
    rfl
  · have hholds := h.holds.add val
    rwa [← h.next_eq] at hholds

lemma foldl_add (zero : α) (values : List α) : (values.foldl Ring.add (Ring.new zero)).Represents values := by
  induction values using List.reverseRecOn with
  | nil => exact new zero
  | append_singleton values val ih =>
    rw [List.foldl_concat]
    exact ih.add val

lemma isFull_iff (h : b.Represents values) : b.isFull = true ↔ bufSize ≤ values.length := by
  rw [Ring.isFull,beq_iff_eq,h.size]
  omega

lemma start_eq (h : b.Represents values) :
    b.start = Fin.ofNat bufSize (values.length-min bufSize values.length) := by
  apply Fin.ext
  change (if (b.last-b.size+1).tmod bufSize < 0 then (b.last-b.size+1).tmod bufSize+bufSize
    else (b.last-b.size+1).tmod bufSize).toNat = (values.length-min bufSize values.length)%bufSize
  have hsize := h.size
  have hlast := h.last
  unfold bufSize at hsize hlast ⊢
  rw [hsize]
  -- the remainder has the sign of the dividend, which is negative once the ring has wrapped around
  rcases lt_or_ge (b.last-(min 60 values.length : ℕ)+1) 0 with hneg | hpos
  · have hmod : (b.last-(min 60 values.length : ℕ)+1).tmod (60 : ℕ) = b.last-(min 60 values.length : ℕ)+1 := by
      have hlow := b.low
      rw [← neg_neg (b.last-(min 60 values.length : ℕ)+1),Int.neg_tmod,Int.tmod_eq_of_lt (by omega) (by omega)]
    rw [hmod,if_pos hneg]
    omega
  · rw [Int.tmod_eq_emod_of_nonneg hpos]
    omega

lemma elementsFrom_eq (b : Ring α) (n : ℕ) (p : Fin bufSize) : b.elementsFrom n p = window b.buf n p := by
  induction n generalizing p with
  | zero => rfl
  | succ n ih => rw [Ring.elementsFrom,window,ih]

/-- The last values, the oldest of them first. -/
theorem elements_eq (h : b.Represents values) : b.elements = lastUpTo bufSize values := by
  rw [Ring.elements,elementsFrom_eq,h.size,h.start_eq,h.holds.window_lastUpTo]

end Ring.Represents

/-- The calls of the function that is passed to ForEach, from an index and a position on. -/
def Ring.visitFrom (b : Ring α) (i : ℕ) : ℕ → Fin bufSize → List (ℕ × α)
  | 0,_ => []
  | n+1,p => (i,b.buf p)::b.visitFrom (i+1) n (p+1)

def Ring.forEach (b : Ring α) : List (ℕ × α) := if b.size = 0 then [] else b.visitFrom 0 b.size b.start

lemma visitFrom_eq (b : Ring α) (i n : ℕ) (p : Fin bufSize) :
    b.visitFrom i n p = (b.elementsFrom n p).mapIdx fun j val => (i+j,val) := by
  induction n generalizing i p with
  | zero => rfl
  | succ n ih =>
    rw [Ring.visitFrom,Ring.elementsFrom,List.mapIdx_cons,ih]
    simp only [Nat.add_assoc,Nat.add_comm 1]
    rfl

lemma forEach_eq (b : Ring α) : b.forEach = b.elements.mapIdx Prod.mk := by
  unfold Ring.forEach Ring.elements
  split_ifs with hsize
  · rw [hsize]
    rfl
  · rw [visitFrom_eq]
    simp only [Nat.zero_add]

/-- What is in the places that have not been written since the ring was empty. -/
def Ring.leftover (b : Ring ℚ) (k : ℕ) : ℚ := ∑ i ∈ Finset.Ico k bufSize,b.buf (Fin.ofNat bufSize i)

lemma leftover_of_le (b : Ring ℚ) {k : ℕ} (h : bufSize ≤ k) : b.leftover k = 0 := by
  rw [Ring.leftover,Finset.Ico_eq_empty (by omega),Finset.sum_empty]

/-- Mean adds the leftovers to the values. -/
lemma Ring.Represents.mean_eq {b : Ring ℚ} {values : List ℚ} (h : b.Represents values) :
    b.mean = ((lastUpTo bufSize values).sum+b.leftover values.length)/(lastUpTo bufSize values).length := by
  have hsize : ((lastUpTo bufSize values).length : ℚ) = b.size := by rw [length_lastUpTo,h.size]
  rw [hsize,Ring.mean]
  split_ifs with hzero hshort
  · rw [hzero,Nat.cast_zero,div_zero]
  · rw [h.holds.sum_eq,Ring.leftover]
  · have hfull : bufSize ≤ values.length := by
      have hlast := h.last
      have hsize := h.size
      by_contra hlt
      rw [Nat.mod_eq_of_lt (by omega)] at hlast
      omega
    rw [h.elements_eq,leftover_of_le b hfull,add_zero]

lemma Ring.Represents.mean_of_leftover {b : Ring ℚ} {values : List ℚ} (h : b.Represents values)
    (hzero : b.leftover values.length = 0) : b.mean = average (lastUpTo bufSize values) := by
  rw [h.mean_eq,hzero,add_zero,average]

/-- A ring that has never been reset has zeros in the places that it has not reached yet. -/
structure Ring.Fresh (b : Ring ℚ) (values : List ℚ) : Prop extends b.Represents values where
  clean : ∀ i < bufSize,values.length ≤ i → b.buf (Fin.ofNat bufSize i) = 0

namespace Ring.Fresh

variable {b : Ring ℚ} {values : List ℚ}

lemma new : (Ring.new 0).Fresh [] := ⟨.new 0,fun _ _ _ => rfl⟩

lemma add (h : b.Fresh values) (val : ℚ) : (b.add val).Fresh (values ++ [val]) := by
  refine ⟨h.toRepresents.add val,fun i hi hle => ?_⟩
  rw [List.length_append,List.length_singleton] at hle
  change Function.update b.buf b.next val (Fin.ofNat bufSize i) = 0
  rw [h.next_eq,Function.update_of_ne (ofNat_ne (by omega) (by omega)).symm]
  exact h.clean i hi (by omega)

lemma mean_eq (h : b.Fresh values) : b.mean = average (lastUpTo bufSize values) := by
  refine h.mean_of_leftover (Finset.sum_eq_zero fun i hi => ?_)
  obtain ⟨hle,hlt⟩ := Finset.mem_Ico.mp hi
  exact h.clean i hlt hle

end Ring.Fresh

/-! Histories of a ring. -/

inductive RingOp
  | add (val : ℚ)
  | reset

def RingOp.apply (b : Ring ℚ) : RingOp → Ring ℚ
  | .add val => b.add val
  | .reset => b.reset

/-- The new ring after some operations. -/
def ringAfter (ops : List RingOp) : Ring ℚ := ops.foldl RingOp.apply (Ring.new 0)

/-- The values added since the last reset, or since the creation. -/
def sinceReset (ops : List RingOp) : List ℚ :=
  ops.foldl (fun values op => match op with
    | .add val => values ++ [val]
    | .reset => []) []

theorem ringAfter_represents (ops : List RingOp) : (ringAfter ops).Represents (sinceReset ops) := by
  induction ops using List.reverseRecOn with
  | nil => exact .new 0
  | append_singleton ops op ih =>
    rw [ringAfter,sinceReset,List.foldl_concat,List.foldl_concat]
    cases op with
    | add val => exact ih.add val
    | reset => exact .reset _

/-- The mean is right unless something is left in the array from before the last reset. -/
theorem mean_eq_average_iff (ops : List RingOp) :
    (ringAfter ops).mean = average (lastUpTo bufSize (sinceReset ops)) ↔
      sinceReset ops = [] ∨ bufSize ≤ (sinceReset ops).length ∨ (ringAfter ops).leftover (sinceReset ops).length = 0 := by
  have h := ringAfter_represents ops
  constructor
  · intro hmean
    rcases Nat.eq_zero_or_pos (sinceReset ops).length with hnil | hpos
    · exact .inl (List.length_eq_zero_iff.mp hnil)
    · have hlength : ((lastUpTo bufSize (sinceReset ops)).length : ℚ) ≠ 0 := by
        rw [length_lastUpTo,Nat.cast_ne_zero]
        have hbuf : 0 < bufSize := by decide
        omega
      rw [h.mean_eq,average,div_left_inj' hlength] at hmean
      exact .inr (.inr (add_eq_left.mp hmean))
  · rintro (hnil | hfull | hzero)
    · rw [h.mean_eq,hnil]
      simp [average]
    · exact h.mean_of_leftover (leftover_of_le _ hfull)
    · exact h.mean_of_leftover hzero

/-- A total time of one minute is still counted when the ring has only one value of zero. -/
theorem mean_after_reset :
    sinceReset [.add 0,.add 60,.reset,.add 0] = [0] ∧ (ringAfter [.add 0,.add 60,.reset,.add 0]).mean = 60 ∧
      average (lastUpTo bufSize (sinceReset [.add 0,.add 60,.reset,.add 0])) = 0 := by
  decide +kernel

end Logjam.LiveStream
