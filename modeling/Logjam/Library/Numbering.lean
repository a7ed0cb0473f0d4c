import Mathlib

/-! A 64-bit counter that numbers what is sent. Some of the things it is advanced for are never
sent, and leave holes in the numbers that a receiver sees. -/
namespace Logjam.Library.Numbering

/-- What becomes of the next number: it is not taken, taken for nothing, or sent. -/
inductive Use
  | free
  | silent
  | sent
  deriving DecidableEq

def Use.next (counter : UInt64) : Use → UInt64
  | .free => counter
  | .silent => counter+1
  | .sent => counter+1

def Use.numbers (counter : UInt64) : Use → List UInt64
  | .sent => [counter+1]
  | _ => []

/-- The numbers sent, from one value of the counter on. -/
def sentNumbers : UInt64 → List Use → List UInt64
  | _,[] => []
  | counter,use::rest => use.numbers counter ++ sentNumbers (use.next counter) rest

/-- How many numbers are taken for nothing between what is sent and what is sent next; the count
since the last time is carried along, if there was a last time. -/
def holesAfter : Option ℕ → List Use → List ℕ
  | _,[] => []
  | count,.free::rest => holesAfter count rest
  | count,.silent::rest => holesAfter (count.map (·+1)) rest
  | count,.sent::rest => count.toList ++ holesAfter (some 0) rest

def holes (uses : List Use) : List ℕ := holesAfter none uses

/-- Each number is the successor of the one before. -/
def Consecutive (numbers : List UInt64) : Prop := numbers.IsChain fun a b => b = a+1

instance (numbers : List UInt64) : Decidable (Consecutive numbers) := by
  unfold Consecutive
  infer_instance

lemma ofNat_succ (k : ℕ) : UInt64.ofNat (k+1) = UInt64.ofNat k+1 := UInt64.ofNat_add k 1

lemma add_ofNat_add_one_eq_iff (last : UInt64) (k : ℕ) :
    last+UInt64.ofNat k+1 = last+1 ↔ 2^64 ∣ k := by
  rw [UInt64.add_left_inj,← UInt64.toNat_inj,UInt64.toNat_add,UInt64.toNat_ofNat']
  have hlast := last.toNat_lt
  omega

/-- The invariant of the run: the counter is ahead of the last number by what was taken since. -/
lemma consecutive_cons_iff (last : UInt64) (k : ℕ) (uses : List Use) :
    Consecutive (last::sentNumbers (last+UInt64.ofNat k) uses) ↔
      ∀ hole ∈ holesAfter (some k) uses, 2^64 ∣ hole := by
  induction uses generalizing last k with
  | nil => simp [Consecutive,sentNumbers,holesAfter]
  | cons use uses ih =>
    cases use with
    | free => exact ih last k
    | silent =>
      have h := ih last (k+1)
      rw [ofNat_succ,← UInt64.add_assoc] at h
      exact h
    | sent =>
      have h := ih (last+UInt64.ofNat k+1) 0
      rw [show UInt64.ofNat 0 = 0 from rfl,UInt64.add_zero] at h
      rw [holesAfter,Option.toList_some,List.singleton_append,List.forall_mem_cons,← h,
        ← add_ofNat_add_one_eq_iff last k]
      exact List.isChain_cons_cons

/-- The numbers sent have no holes exactly if nothing takes a number in between; the counter can
only hide a hole by going round. -/
theorem consecutive_sentNumbers_iff (counter : UInt64) (uses : List Use) :
    Consecutive (sentNumbers counter uses) ↔ ∀ hole ∈ holes uses, 2^64 ∣ hole := by
  unfold holes
  induction uses generalizing counter with
  | nil => simp [Consecutive,sentNumbers,holesAfter]
  | cons use uses ih =>
    cases use with
    | free => exact ih counter
    | silent => exact ih (counter+1)
    | sent =>
      have h := consecutive_cons_iff (counter+1) 0 uses
      rwa [show UInt64.ofNat 0 = 0 from rfl,UInt64.add_zero] at h

end Logjam.Library.Numbering
