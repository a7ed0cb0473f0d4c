import Mathlib

/-! Workers that share a state. A task is a list of steps. Tasks wait in a queue; an idle worker takes any
of them, does its steps in any order and is idle again when none is left. A step is performed on the
shared state or given up. Nothing is said about who moves when: what is proved here holds for every
order, and steps that commute leave what one worker would have left. -/
namespace Logjam.Library.WorkerPool

variable {W α σ : Type*}

@[ext] structure Pool (W α σ : Type*) where
  queue : List (List α)
  working : W → Option (List α)
  shared : σ

namespace Pool

/-- Nothing queued, everybody idle. -/
def start (initial : σ) : Pool W α σ := ⟨[],fun _ => none,initial⟩

def push (pool : Pool W α σ) (task : List α) : Pool W α σ := { pool with queue := pool.queue ++ [task] }

/-- Nobody has anything to do. -/
def Drained (pool : Pool W α σ) : Prop := pool.queue = [] ∧ ∀ w,pool.working w = none

/-- The i-th of the steps that a worker has left. -/
def next (pool : Pool W α σ) (w : W) (i : ℕ) : Option α := do (← pool.working w)[i]?

section Moves
variable [DecidableEq W]

/-- An idle worker takes the i-th task of the queue. -/
def take (pool : Pool W α σ) (w : W) (i : ℕ) : Option (Pool W α σ) :=
  match pool.working w,pool.queue[i]? with
  | none,some task =>
    some ⟨pool.queue.eraseIdx i,Function.update pool.working w (some task),pool.shared⟩
  | _,_ => none

/-- The next step of a worker is performed, or given up. -/
def perform (apply : σ → α → σ) (pool : Pool W α σ) (w : W) (i : ℕ) (ok : Bool) : Option (Pool W α σ) :=
  match pool.working w with
  | none => none
  | some steps =>
    match steps[i]? with
    | none => none
    | some a => some ⟨pool.queue,Function.update pool.working w (some (steps.eraseIdx i)),
        if ok then apply pool.shared a else pool.shared⟩

/-- A worker that has nothing left to do is idle again. -/
def finish (pool : Pool W α σ) (w : W) : Option (Pool W α σ) :=
  match pool.working w with
  | some [] => some { pool with working := Function.update pool.working w none }
  | _ => none

variable {apply : σ → α → σ} {pool pool' : Pool W α σ} {w : W} {i : ℕ}

lemma take_eq_some (h : pool.take w i = some pool') :
    ∃ task,pool.working w = none ∧ pool.queue[i]? = some task ∧
      pool' = ⟨pool.queue.eraseIdx i,Function.update pool.working w (some task),pool.shared⟩ := by
  unfold take at h
  split at h
  · rename_i task hidle htask
    exact ⟨task,hidle,htask,(Option.some.inj h).symm⟩
  · cases h

lemma perform_eq_some {ok : Bool} (h : pool.perform apply w i ok = some pool') :
    ∃ steps a,pool.working w = some steps ∧ steps[i]? = some a ∧ pool.next w i = some a ∧
      pool' = ⟨pool.queue,Function.update pool.working w (some (steps.eraseIdx i)),
        if ok then apply pool.shared a else pool.shared⟩ := by
  unfold perform at h
  split at h
  · cases h
  · rename_i steps hworking
    split at h
    · cases h
    · rename_i a ha
      refine ⟨steps,a,hworking,ha,?_,(Option.some.inj h).symm⟩
      simp [next,hworking,ha]

lemma finish_eq_some (h : pool.finish w = some pool') :
    pool.working w = some [] ∧ pool' = { pool with working := Function.update pool.working w none } := by
  unfold finish at h
  split at h
  · rename_i hworking
    exact ⟨hworking,(Option.some.inj h).symm⟩
  · cases h

/-- A worker can perform whatever it may do next. -/
lemma perform_of_next {a : α} (h : pool.next w i = some a) (apply : σ → α → σ) (ok : Bool) :
    ∃ pool',pool.perform apply w i ok = some pool' := by
  simp only [next,Option.bind_eq_bind,Option.bind_eq_some_iff] at h
  obtain ⟨steps,hworking,hstep⟩ := h
  simp [perform,hworking,hstep]

end Moves

/-! What is left to do, and in how many tasks. -/

section Accounts
variable [Fintype W]

def left (o : Option (List α)) : Multiset α := (o.getD [] : List α)

def load : Option (List α) → ℕ
  | none => 0
  | some _ => 1

/-- The steps that are still to be done. -/
def remaining (pool : Pool W α σ) : Multiset α :=
  (pool.queue.flatten : Multiset α)+∑ w,left (pool.working w)

/-- The tasks that are not finished. -/
def tasks (pool : Pool W α σ) : ℕ := pool.queue.length+∑ w,load (pool.working w)

lemma remaining_start (initial : σ) : (start initial : Pool W α σ).remaining = 0 := by
  simp [remaining,start,left]

lemma remaining_push (pool : Pool W α σ) (task : List α) :
    (pool.push task).remaining = pool.remaining+(task : Multiset α) := by
  simp only [remaining,push,List.flatten_append,List.flatten_singleton,← Multiset.coe_add]
  ac_rfl

lemma tasks_start (initial : σ) : (start initial : Pool W α σ).tasks = 0 := by simp [tasks,start,load]

lemma tasks_push (pool : Pool W α σ) (task : List α) : (pool.push task).tasks = pool.tasks+1 := by
  rw [tasks,tasks,push,List.length_append,List.length_singleton]
  ac_rfl

lemma drained_iff_tasks {pool : Pool W α σ} : pool.Drained ↔ pool.tasks = 0 := by
  rw [tasks,Nat.add_eq_zero_iff,List.length_eq_zero_iff,Finset.sum_eq_zero_iff,Drained]
  refine and_congr_right fun _ => forall_congr' fun w => ?_
  cases pool.working w <;> simp [load]

lemma Drained.remaining {pool : Pool W α σ} (h : pool.Drained) : pool.remaining = 0 := by
  rw [Pool.remaining,h.1]
  simp [h.2,left]

variable [DecidableEq W] {apply : σ → α → σ} {pool pool' : Pool W α σ} {w : W} {i : ℕ}

/-- Only the summand of one worker changes. -/
lemma sum_update_add {β M : Type*} [AddCommMonoid M] (g : β → M) (f : W → β) (w : W) (v : β) :
    (∑ x,g (Function.update f w v x))+g (f w) = (∑ x,g (f x))+g v := by
  have hsame : ∀ x ∈ Finset.univ.erase w,g (Function.update f w v x) = g (f x) := by
    intro x hx
    rw [Function.update_of_ne (Finset.ne_of_mem_erase hx)]
  rw [← Finset.add_sum_erase _ _ (Finset.mem_univ w),Finset.sum_congr rfl hsame,Function.update_self,
    ← Finset.add_sum_erase Finset.univ (fun x => g (f x)) (Finset.mem_univ w)]
  ac_rfl

lemma coe_eq_cons_eraseIdx {l : List α} {a : α} (h : l[i]? = some a) :
    (l : Multiset α) = a ::ₘ (l.eraseIdx i : Multiset α) := by
  obtain ⟨hi,rfl⟩ := List.getElem?_eq_some_iff.mp h
  exact Multiset.coe_eq_coe.mpr (List.getElem_cons_eraseIdx_perm hi).symm

lemma flatten_eraseIdx {l : List (List α)} {task : List α} (h : l[i]? = some task) :
    (l.flatten : Multiset α) = ((l.eraseIdx i).flatten : Multiset α)+(task : Multiset α) := by
  obtain ⟨hi,rfl⟩ := List.getElem?_eq_some_iff.mp h
  have hperm := (List.getElem_cons_eraseIdx_perm hi).flatten
  rw [List.flatten_cons] at hperm
  rw [← Multiset.coe_eq_coe.mpr hperm,← Multiset.coe_add,add_comm]

lemma remaining_take (h : pool.take w i = some pool') : pool'.remaining = pool.remaining := by
  obtain ⟨task,hidle,htask,rfl⟩ := take_eq_some h
  have hsum := sum_update_add left pool.working w (some task)
  rw [hidle,show left (none : Option (List α)) = 0 from rfl,add_zero] at hsum
  rw [remaining,remaining,hsum,flatten_eraseIdx htask]
  change _ = _+(task : Multiset α)+_
  ac_rfl

lemma remaining_perform {ok : Bool} (h : pool.perform apply w i ok = some pool') :
    ∃ a,pool.next w i = some a ∧ pool.remaining = a ::ₘ pool'.remaining ∧
      pool'.shared = if ok then apply pool.shared a else pool.shared := by
  obtain ⟨steps,a,hworking,ha,hnext,rfl⟩ := perform_eq_some h
  refine ⟨a,hnext,?_,rfl⟩
  have hsteps : left (some steps) = a ::ₘ left (some (steps.eraseIdx i)) := coe_eq_cons_eraseIdx ha
  have hsum := sum_update_add left pool.working w (some (steps.eraseIdx i))
  rw [hworking,hsteps,Multiset.add_cons,← Multiset.cons_add] at hsum
  rw [remaining,remaining,← add_right_cancel hsum,Multiset.add_cons]

lemma remaining_finish (h : pool.finish w = some pool') :
    pool'.remaining = pool.remaining ∧ pool'.shared = pool.shared := by
  obtain ⟨hworking,rfl⟩ := finish_eq_some h
  refine ⟨?_,rfl⟩
  have hsum := sum_update_add left pool.working w none
  rw [hworking] at hsum
  exact congrArg (_ + ·) (add_right_cancel (b := left none) hsum)

lemma tasks_take (h : pool.take w i = some pool') : pool'.tasks = pool.tasks := by
  obtain ⟨task,hidle,htask,rfl⟩ := take_eq_some h
  obtain ⟨hi,-⟩ := List.getElem?_eq_some_iff.mp htask
  have hsum := sum_update_add load pool.working w (some task)
  rw [hidle] at hsum
  simp only [tasks,List.length_eraseIdx_of_lt hi]
  simp only [load] at hsum ⊢
  omega

lemma tasks_perform {ok : Bool} (h : pool.perform apply w i ok = some pool') : pool'.tasks = pool.tasks := by
  obtain ⟨steps,a,hworking,-,-,rfl⟩ := perform_eq_some h
  have hsum := sum_update_add load pool.working w (some (steps.eraseIdx i))
  rw [hworking] at hsum
  exact congrArg (_ + ·) (add_right_cancel hsum)

lemma tasks_finish (h : pool.finish w = some pool') : pool'.tasks+1 = pool.tasks := by
  obtain ⟨hworking,rfl⟩ := finish_eq_some h
  have hsum := sum_update_add load pool.working w none
  rw [hworking] at hsum
  exact congrArg (pool.queue.length + ·) hsum

end Accounts
end Pool

/-- What has been performed, of what has been done. -/
def performed (trace : List (α × Bool)) : List α := (trace.filter Prod.snd).map Prod.fst

lemma performed_append (trace : List (α × Bool)) (a : α) (ok : Bool) :
    performed (trace ++ [(a,ok)]) = if ok then performed trace ++ [a] else performed trace := by
  cases ok <;> simp [performed]

lemma performed_of_all {trace : List (α × Bool)} (h : ∀ o ∈ trace,o.2 = true) :
    performed trace = trace.map Prod.fst := by
  rw [performed,List.filter_eq_self.mpr h]

section Progress
variable [Fintype W]

/-- What is known at any time: every pushed step has been done or remains, and the shared state is what
the performed steps have made of the initial one. -/
structure Progress (apply : σ → α → σ) (initial : σ) (pushed : List α) (trace : List (α × Bool))
    (pool : Pool W α σ) : Prop where
  conserved : (trace.map Prod.fst : Multiset α)+pool.remaining = pushed
  shared : pool.shared = (performed trace).foldl apply initial

namespace Progress
variable {apply : σ → α → σ} {initial : σ} {pushed : List α} {trace : List (α × Bool)}
  {pool pool' : Pool W α σ}

lemma start : Progress apply initial [] [] (Pool.start initial : Pool W α σ) where
  conserved := by simp [Pool.remaining_start]
  shared := rfl

lemma push (h : Progress apply initial pushed trace pool) (task : List α) :
    Progress apply initial (pushed ++ task) trace (pool.push task) where
  conserved := by rw [Pool.remaining_push,← add_assoc,h.conserved,Multiset.coe_add]
  shared := h.shared

/-- Everything done was pushed. -/
lemma mem_pushed (h : Progress apply initial pushed trace pool) {o : α × Bool} (ho : o ∈ trace) :
    o.1 ∈ pushed := by
  have hmem : o.1 ∈ (trace.map Prod.fst : Multiset α)+pool.remaining :=
    Multiset.mem_add.mpr (.inl (Multiset.mem_coe.mpr (List.mem_map_of_mem ho)))
  rw [h.conserved] at hmem
  exact Multiset.mem_coe.mp hmem

theorem perm_of_drained (h : Progress apply initial pushed trace pool) (hd : pool.Drained) :
    (trace.map Prod.fst).Perm pushed := by
  have hall := h.conserved
  rw [hd.remaining,add_zero] at hall
  exact Multiset.coe_eq_coe.mp hall

/-- When all is done and nothing was given up, commuting steps leave the state that one worker gets from
doing one task after the other. -/
theorem shared_eq_foldl (h : Progress apply initial pushed trace pool) (hd : pool.Drained)
    (hok : ∀ o ∈ trace,o.2 = true)
    (hcomm : ∀ a ∈ pushed,∀ b ∈ pushed,∀ s,apply (apply s a) b = apply (apply s b) a) :
    pool.shared = pushed.foldl apply initial := by
  rw [h.shared,performed_of_all hok]
  have hperm := h.perm_of_drained hd
  refine hperm.foldl_eq' (fun a ha b hb s => ?_) initial
  exact hcomm a (hperm.mem_iff.mp ha) b (hperm.mem_iff.mp hb) s

variable [DecidableEq W] {w : W} {i : ℕ}

lemma take (h : Progress apply initial pushed trace pool) (htake : pool.take w i = some pool') :
    Progress apply initial pushed trace pool' where
  conserved := by rw [Pool.remaining_take htake,h.conserved]
  shared := by
    obtain ⟨task,-,-,rfl⟩ := Pool.take_eq_some htake
    exact h.shared

lemma perform (h : Progress apply initial pushed trace pool) {ok : Bool} {a : α}
    (ha : pool.next w i = some a) (hperform : pool.perform apply w i ok = some pool') :
    Progress apply initial pushed (trace ++ [(a,ok)]) pool' := by
  obtain ⟨b,hb,hremaining,hshared⟩ := Pool.remaining_perform hperform
  obtain rfl : a = b := Option.some.inj (ha.symm.trans hb)
  constructor
  · rw [List.map_append,← Multiset.coe_add,← h.conserved,hremaining,add_assoc]
    rfl
  · rw [hshared,performed_append]
    split
    · rw [List.foldl_append,← h.shared]
      rfl
    · exact h.shared

lemma finish (h : Progress apply initial pushed trace pool) (hfinish : pool.finish w = some pool') :
    Progress apply initial pushed trace pool' where
  conserved := by rw [(Pool.remaining_finish hfinish).1,h.conserved]
  shared := by rw [(Pool.remaining_finish hfinish).2,h.shared]

/-- What a worker does next was pushed. -/
lemma mem_pushed_of_next (h : Progress apply initial pushed trace pool) {a : α}
    (ha : pool.next w i = some a) : a ∈ pushed := by
  obtain ⟨next,hnext⟩ := Pool.perform_of_next ha apply false
  exact (h.perform ha hnext).mem_pushed (o := (a,false)) (by simp)

end Progress
end Progress
end Logjam.Library.WorkerPool
