import Logjam.Exporter.CollectorManager
import Logjam.Importer.Increments

/-! Names of streams and requests are taken apart at their dashes, in C by walking from the last dash, in Go
by splitting and joining. The C functions copy the parts into buffers of their callers. -/
namespace Logjam
open Logjam.Importer (extractAppEnv extractAppEnvRid)
open Logjam.Exporter (parseStreamName)

/-! The last dash. -/

lemma rindex_append_cons {c : UInt8} {after : Bytes} (h : c ∉ after) (before : Bytes) :
    rindex (before ++ c::after) c = some before.length := by
  have hafter : after.reverse.findIdx? (· == c) = none := by
    rw [List.findIdx?_eq_none_iff]
    intro x hx
    exact beq_eq_false_iff_ne.mpr fun hc => h (hc ▸ List.mem_reverse.mp hx)
  have hfind : (before ++ c::after).reverse.findIdx? (· == c) = some after.length := by
    rw [List.reverse_append,List.reverse_cons,List.append_assoc,List.findIdx?_append,hafter]
    simp [List.findIdx?_cons]
  rw [rindex,hfind,Option.map_some]
  simp

lemma rindex_eq_none {c : UInt8} {s : Bytes} (h : c ∉ s) : rindex s c = none := by
  rw [rindex,Option.map_eq_none_iff,List.findIdx?_eq_none_iff]
  intro x hx
  exact beq_eq_false_iff_ne.mpr fun hc => h (hc ▸ List.mem_reverse.mp hx)

/-- There is one last dash. -/
lemma append_cons_inj {c : UInt8} {before after before' after' : Bytes} (h : c ∉ after) (h' : c ∉ after')
    (heq : before ++ c::after = before' ++ c::after') : before = before' ∧ after = after' := by
  have hplace : rindex (before ++ c::after) c = rindex (before' ++ c::after') c := congrArg (rindex · c) heq
  rw [rindex_append_cons h,rindex_append_cons h',Option.some.injEq] at hplace
  obtain ⟨hbefore,hcons⟩ := List.append_inj heq hplace
  exact ⟨hbefore,(List.cons.inj hcons).2⟩

lemma exists_last {c : UInt8} {s : Bytes} (h : c ∈ s) : ∃ before after,s = before ++ c::after ∧ c ∉ after := by
  obtain ⟨after,before,hs,hafter⟩ := List.eq_append_cons_of_mem (List.mem_reverse.mpr h)
  refine ⟨before.reverse,after.reverse,?_,fun hc => hafter (List.mem_reverse.mp hc)⟩
  rw [← List.reverse_reverse s,hs]
  simp

section

variable {n : ℕ} {app env id rest : Bytes}

lemma extractAppEnv_of_notMem {s : Bytes} (h : 45 ∉ s) : extractAppEnv s n = none := by
  rw [extractAppEnv,rindex_eq_none h]

lemma extractAppEnv_append (h : 45 ∉ env) :
    extractAppEnv (app ++ 45::env) n = if app.length ≤ n ∧ env.length ≤ n then some (app,env) else none := by
  rw [extractAppEnv,rindex_append_cons h]
  simp

lemma extractAppEnvRid_of_notMem {s : Bytes} (h : 45 ∉ s) : extractAppEnvRid s n = none := by
  rw [extractAppEnvRid,rindex_eq_none h]

lemma extractAppEnvRid_append (h : 45 ∉ id) :
    extractAppEnvRid (rest ++ 45::id) n =
      if id.length ≤ n then (extractAppEnv rest n).map fun r => (r.1,r.2,id) else none := by
  rw [extractAppEnvRid,rindex_append_cons h]
  simp

end

/-! The functions in Go. -/

structure RequestId where
  app : Bytes
  env : Bytes
  id : Bytes
  deriving DecidableEq

/-- The slices are app, env and id, where the app may have dashes of its own. -/
def parseRequestId (id : Bytes) : Except Bytes RequestId :=
  let slices := id.splitOn 45
  let n := slices.length
  if n < 3 then .error (lit "Wrong request id format: " ++ id)
  else .ok ⟨List.intercalate [45] (slices.take (n-2)),slices.getD (n-2) [],slices.getD (n-1) []⟩

section

variable {s app env id : Bytes}

lemma splitOn_of_notMem (h : 45 ∉ s) : s.splitOn 45 = [s] := List.splitOn_eq_singleton h

lemma splitOn_append (h : 45 ∉ env) : (app ++ 45::env).splitOn 45 = app.splitOn 45 ++ [env] := by
  rw [List.splitOn_append_cons_self,splitOn_of_notMem h]

lemma parseStreamName_append (h : 45 ∉ env) : parseStreamName (app ++ 45::env) = (app,env) := by
  have hlength : ¬(app.splitOn 45 ++ [env]).length < 2 := by
    have hpos := List.length_pos_iff.mpr (List.splitOn_ne_nil 45 app)
    rw [List.length_append,List.length_singleton]
    omega
  unfold parseStreamName
  rw [splitOn_append h]
  dsimp only
  rw [if_neg hlength,List.dropLast_concat,List.intercalate_splitOn]
  simp

/-- A name with less than two dashes is no request id. -/
lemma parseRequestId_error (h : (s.splitOn 45).length < 3) :
    parseRequestId s = .error (lit "Wrong request id format: " ++ s) := if_pos h

lemma parseRequestId_append (henv : 45 ∉ env) (hid : 45 ∉ id) :
    parseRequestId (app ++ 45::env ++ 45::id) = .ok ⟨app,env,id⟩ := by
  have hslices : (app ++ 45::env ++ 45::id).splitOn 45 = app.splitOn 45 ++ [env] ++ [id] := by
    rw [splitOn_append hid,splitOn_append henv]
  have hlength : (app.splitOn 45 ++ [env] ++ [id]).length = (app.splitOn 45).length+2 := by simp
  have hpos := List.length_pos_iff.mpr (List.splitOn_ne_nil 45 app)
  unfold parseRequestId
  rw [hslices]
  dsimp only
  rw [if_neg (by omega),hlength,Nat.add_sub_cancel,show (app.splitOn 45).length+2-1 = (app.splitOn 45).length+1 from rfl,
    List.append_assoc,List.take_left,List.intercalate_splitOn]
  simp

end

/-! Names with enough room for their parts. -/

/-- A name is split at its last dash, or has none. -/
lemma dash_cases (s : Bytes) : 45 ∉ s ∨ ∃ before after,s = before ++ 45::after ∧ 45 ∉ after :=
  (em (45 ∈ s)).symm.imp_right exists_last

section

variable {s app env id : Bytes} {n : ℕ}

lemma extractAppEnv_eq_some_iff (hn : s.length < n) :
    extractAppEnv s n = some (app,env) ↔ app ++ 45::env = s ∧ 45 ∉ env := by
  constructor
  · intro h
    rcases dash_cases s with hs | ⟨before,after,rfl,hafter⟩
    · rw [extractAppEnv_of_notMem hs] at h
      cases h
    · rw [extractAppEnv_append hafter,Option.ite_none_right_eq_some] at h
      obtain ⟨rfl,rfl⟩ := Prod.mk.inj (Option.some.inj h.2)
      exact ⟨rfl,hafter⟩
  · rintro ⟨rfl,henv⟩
    rw [List.length_append,List.length_cons] at hn
    rw [extractAppEnv_append henv,if_pos (by omega)]

lemma extractAppEnvRid_eq_some_iff (hn : s.length < n) :
    extractAppEnvRid s n = some (app,env,id) ↔ app ++ 45::env ++ 45::id = s ∧ 45 ∉ env ∧ 45 ∉ id := by
  rcases dash_cases s with hs | ⟨rest,rid,rfl,hrid⟩
  · rw [extractAppEnvRid_of_notMem hs]
    refine iff_of_false nofun ?_
    rintro ⟨rfl,-,-⟩
    exact hs (List.mem_append_right _ List.mem_cons_self)
  · rw [List.length_append,List.length_cons] at hn
    rw [extractAppEnvRid_append hrid,if_pos (by omega),Option.map_eq_some_iff]
    constructor
    · rintro ⟨⟨app',env'⟩,hparts,heq⟩
      obtain ⟨rfl,henv⟩ := (extractAppEnv_eq_some_iff (by omega)).mp hparts
      obtain ⟨rfl,rfl,rfl⟩ : app' = app ∧ env' = env ∧ rid = id := by simpa using heq
      exact ⟨rfl,henv,hrid⟩
    · rintro ⟨heq,henv,hid⟩
      obtain ⟨rfl,rfl⟩ := append_cons_inj hid hrid heq
      exact ⟨(app,env),(extractAppEnv_eq_some_iff (by omega)).mpr ⟨rfl,henv⟩,rfl⟩

lemma parseRequestId_eq_ok_iff :
    parseRequestId s = .ok ⟨app,env,id⟩ ↔ app ++ 45::env ++ 45::id = s ∧ 45 ∉ env ∧ 45 ∉ id := by
  constructor
  · intro h
    have hshort (hlt : (s.splitOn 45).length < 3) : False := by
      rw [parseRequestId_error hlt] at h
      cases h
    rcases dash_cases s with hs | ⟨rest,rid,rfl,hrid⟩
    · exact (hshort (by rw [splitOn_of_notMem hs]; exact Nat.lt_of_sub_eq_succ rfl)).elim
    · rcases dash_cases rest with hrest | ⟨app',env',rfl,henv⟩
      · refine (hshort ?_).elim
        rw [splitOn_append hrid,splitOn_of_notMem hrest]
        exact Nat.lt_succ_self 2
      · rw [parseRequestId_append henv hrid,Except.ok.injEq,RequestId.mk.injEq] at h
        obtain ⟨rfl,rfl,rfl⟩ := h
        exact ⟨rfl,henv,hrid⟩
  · rintro ⟨rfl,henv,hid⟩
    exact parseRequestId_append henv hid

end

/-- C and Go take names apart in the same way. -/
theorem extractAppEnv_eq_parse {s : Bytes} {n : ℕ} (hn : s.length < n) :
    ((∃ app env,extractAppEnv s n = some (app,env)) ↔ 45 ∈ s) ∧
    (∀ app env,extractAppEnv s n = some (app,env) →
      parseStreamName s = (app,env) ∧ app ++ 45::env = s ∧ 45 ∉ env) ∧
    ((∃ app env id,extractAppEnvRid s n = some (app,env,id)) ↔ ∃ rid,parseRequestId s = .ok rid) ∧
    ∀ app env id,extractAppEnvRid s n = some (app,env,id) →
      parseRequestId s = .ok ⟨app,env,id⟩ ∧ app ++ 45::env ++ 45::id = s ∧ 45 ∉ env ∧ 45 ∉ id := by
  refine ⟨⟨?_,?_⟩,?_,⟨?_,?_⟩,?_⟩
  · rintro ⟨app,env,h⟩
    obtain ⟨rfl,-⟩ := (extractAppEnv_eq_some_iff hn).mp h
    exact List.mem_append_right _ List.mem_cons_self
  · intro h
    obtain ⟨app,env,rfl,henv⟩ := exists_last h
    exact ⟨app,env,(extractAppEnv_eq_some_iff hn).mpr ⟨rfl,henv⟩⟩
  · intro app env h
    obtain ⟨rfl,henv⟩ := (extractAppEnv_eq_some_iff hn).mp h
    exact ⟨parseStreamName_append henv,rfl,henv⟩
  · rintro ⟨app,env,id,h⟩
    exact ⟨⟨app,env,id⟩,parseRequestId_eq_ok_iff.mpr ((extractAppEnvRid_eq_some_iff hn).mp h)⟩
  · rintro ⟨⟨app,env,id⟩,h⟩
    exact ⟨app,env,id,(extractAppEnvRid_eq_some_iff hn).mpr (parseRequestId_eq_ok_iff.mp h)⟩
  · intro app env id h
    have hparts := (extractAppEnvRid_eq_some_iff hn).mp h
    exact ⟨parseRequestId_eq_ok_iff.mpr hparts,hparts⟩

theorem extractAppEnv_eq_parse_sample :
    parseStreamName (lit "a-b-e-r") = (lit "a-b-e",lit "r") ∧
      parseRequestId (lit "a-b-e-r") = .ok ⟨lit "a-b",lit "e",lit "r"⟩ :=
  have hlength : (lit "a-b-e-r").length < 100 := by decide
  ⟨((extractAppEnv_eq_parse hlength).2.1 (lit "a-b-e") (lit "r") (by decide)).1,
    ((extractAppEnv_eq_parse hlength).2.2.2 (lit "a-b") (lit "e") (lit "r") (by decide)).1⟩

/-! The buffers of the callers. -/

/-- The output parameters. -/
inductive Output
  | app
  | env
  | rid
  deriving DecidableEq

structure Write where
  output : Output
  index : ℕ
  byte : UInt8
  deriving DecidableEq

/-- What a call returns, and what it has written by then. -/
structure Extraction where
  returned : Bool
  writes : List Write

/-- A copy loop and the terminator behind it. The counter is tested before it is incremented, so it also is
the place of the next byte. -/
def copyLoop (output : Output) (n : ℕ) : ℕ → Bytes → Extraction
  | i,[] => ⟨true,[⟨output,i,0⟩]⟩
  | i,c::rest =>
    if n ≤ i then ⟨false,[]⟩
    else
      let copied := copyLoop output n (i+1) rest
      { copied with writes := ⟨output,i,c⟩::copied.writes }

def Extraction.andThen (first next : Extraction) : Extraction :=
  if first.returned then { next with writes := first.writes ++ next.writes } else first

def extractAppEnvInto (appEnv : Bytes) (n : ℕ) : Extraction :=
  match rindex appEnv 45 with
  | none => ⟨false,[]⟩
  | some p => (copyLoop .app n 0 (appEnv.take p)).andThen (copyLoop .env n 0 (appEnv.drop (p+1)))

/-- The copy of the string has a size of type int. If the string is too long for that, the search for its
last dash leaves the copy. -/
def extractAppEnvRidInto (s : Bytes) (n : ℕ) : Except Fault Extraction :=
  if toInt32 (s.length+1) ≠ s.length+1 then .error .outOfBounds
  else
    match rindex s 45 with
    | none => .ok ⟨false,[]⟩
    | some p => .ok ((copyLoop .rid n 0 (s.drop (p+1))).andThen (extractAppEnvInto (s.take p) n))

/-- The contents of a buffer after some writes. -/
def stored (writes : List Write) (output : Output) (buffer : ℕ → UInt8) : ℕ → UInt8 :=
  (writes.filter fun w => w.output = output).foldl (fun b w => Function.update b w.index w.byte) buffer

/-- Nothing is written outside of buffers of the given size, and what has been extracted is terminated
in them. -/
structure Respects (n : ℕ) (outputs : List Output) (e : Extraction) : Prop where
  bounds : ∀ w ∈ e.writes,w.index < n
  terminated : e.returned = true → ∀ output ∈ outputs,∀ buffer,∃ i < n,stored e.writes output buffer i = 0

/-- Bytes written one after the other. -/
def placed (output : Output) : ℕ → Bytes → List Write
  | _,[] => []
  | i,c::rest => ⟨output,i,c⟩::placed output (i+1) rest

section

variable {output : Output} {outputs : List Output} {n i : ℕ} {text : Bytes} {next : Extraction}

lemma placed_append (output : Output) (i : ℕ) (a b : Bytes) :
    placed output i (a ++ b) = placed output i a ++ placed output (i+a.length) b := by
  induction a generalizing i with
  | nil => rfl
  | cons c a ih => rw [List.cons_append,placed,placed,ih,List.cons_append,List.length_cons,Nat.add_right_comm,Nat.add_assoc]

lemma output_of_mem_placed {bytes : Bytes} {w : Write} (h : w ∈ placed output i bytes) : w.output = output := by
  induction bytes generalizing i with
  | nil => cases h
  | cons c bytes ih =>
    rcases List.mem_cons.mp h with rfl | h
    · rfl
    · exact ih h

lemma forall_placed_iff {bytes : Bytes} : (∀ w ∈ placed output i bytes,w.index < n) ↔ bytes = [] ∨ i+bytes.length ≤ n := by
  induction bytes generalizing i with
  | nil => simp [placed]
  | cons c bytes ih =>
    rw [placed,List.forall_mem_cons,ih,List.length_cons]
    constructor
    · rintro ⟨hi,rfl | hle⟩
      · exact .inr hi
      · exact .inr (by omega)
    · rintro (h | h)
      · cases h
      · have hi : i < n := by omega
        exact ⟨hi,.inr (by omega)⟩

lemma filter_placed_self (output : Output) (i : ℕ) (bytes : Bytes) :
    (placed output i bytes).filter (fun w => w.output = output) = placed output i bytes :=
  List.filter_eq_self.mpr fun _ hw => decide_eq_true (output_of_mem_placed hw)

lemma filter_placed_of_ne {other : Output} (h : output ≠ other) (i : ℕ) (bytes : Bytes) :
    (placed output i bytes).filter (fun w => w.output = other) = [] :=
  List.filter_eq_nil_iff.mpr fun _ hw => by rw [output_of_mem_placed hw]; simpa using h

/-- A terminated text is terminated in its buffer. -/
lemma stored_placed (output : Output) (text : Bytes) (buffer : ℕ → UInt8) :
    stored (placed output 0 (text ++ [0])) output buffer text.length = 0 := by
  rw [stored,filter_placed_self,placed_append,List.foldl_append,Nat.zero_add]
  exact Function.update_self ..

lemma stored_append (a b : List Write) (output : Output) (buffer : ℕ → UInt8) :
    stored (a ++ b) output buffer = stored b output (stored a output buffer) := by
  rw [stored,List.filter_append,List.foldl_append,stored,stored]

/-- The loop copies the whole text if the counter allows it, and as much as it allows otherwise. -/
lemma copyLoop_eq (output : Output) (hi : i ≤ n) (text : Bytes) :
    copyLoop output n i text = if i+text.length ≤ n then ⟨true,placed output i (text ++ [0])⟩
      else ⟨false,placed output i (text.take (n-i))⟩ := by
  induction text generalizing i with
  | nil => simp [copyLoop,placed,hi]
  | cons c text ih =>
    rw [copyLoop,List.length_cons]
    by_cases hfull : n ≤ i
    · obtain rfl : i = n := by omega
      rw [if_pos hfull,if_neg (by omega),Nat.sub_self]
      rfl
    · have hrest : n-i = (n-(i+1))+1 := by omega
      rw [if_neg hfull,ih (by omega),hrest,List.take_succ_cons]
      by_cases hlength : i+1+text.length ≤ n
      · rw [if_pos hlength,if_pos (by omega)]
        rfl
      · rw [if_neg hlength,if_neg (by omega)]
        rfl

lemma copyLoop_of_le (output : Output) (h : text.length ≤ n) :
    copyLoop output n 0 text = ⟨true,placed output 0 (text ++ [0])⟩ := by
  rw [copyLoop_eq output (Nat.zero_le n),if_pos (by omega)]

lemma copyLoop_of_lt (output : Output) (h : n < text.length) :
    copyLoop output n 0 text = ⟨false,placed output 0 (text.take n)⟩ := by
  rw [copyLoop_eq output (Nat.zero_le n),if_neg (by omega),Nat.sub_zero]

/-- The next part is copied if this one leaves the counter in its limits. -/
lemma copyLoop_andThen (output : Output) (n : ℕ) (text : Bytes) (next : Extraction) :
    (copyLoop output n 0 text).andThen next =
      if text.length ≤ n then ⟨next.returned,placed output 0 (text ++ [0]) ++ next.writes⟩
      else ⟨false,placed output 0 (text.take n)⟩ := by
  split_ifs with hle
  · rw [copyLoop_of_le output hle,Extraction.andThen,if_pos rfl]
  · rw [copyLoop_of_lt output (not_le.mp hle),Extraction.andThen,if_neg Bool.false_ne_true]

/-- Only the terminator may be written behind the buffer. -/
lemma bounds_andThen_iff (output : Output) (n : ℕ) (text : Bytes) (next : Extraction) :
    (∀ w ∈ ((copyLoop output n 0 text).andThen next).writes,w.index < n) ↔
      text.length ≠ n ∧ (text.length < n → ∀ w ∈ next.writes,w.index < n) := by
  rw [copyLoop_andThen]
  split_ifs with hle
  · rw [List.forall_mem_append,forall_placed_iff,List.length_append,List.length_singleton]
    constructor
    · rintro ⟨hnil | hlength,hnext⟩
      · exact absurd (List.append_eq_nil_iff.mp hnil).2 (List.cons_ne_nil _ _)
      · exact ⟨by omega,fun _ => hnext⟩
    · rintro ⟨hne,hnext⟩
      exact ⟨.inr (by omega),hnext (by omega)⟩
  · rw [forall_placed_iff,List.length_take]
    exact iff_of_true (.inr (by omega)) ⟨by omega,fun h => absurd h (by omega)⟩

/-- A text of the size of its buffer is the one that does harm: its terminator is written behind the
buffer. -/
theorem respects_andThen_iff (hnext : ∀ w ∈ next.writes,w.output ≠ output) (houtput : output ∉ outputs) :
    Respects n (output::outputs) ((copyLoop output n 0 text).andThen next) ↔
      text.length ≠ n ∧ (text.length < n → Respects n outputs next) := by
  have hbounds := bounds_andThen_iff output n text next
  rcases lt_trichotomy text.length n with hlt | heq | hgt
  · rw [and_iff_right hlt.ne,imp_iff_right hlt] at hbounds ⊢
    have hnone : next.writes.filter (fun w => w.output = output) = [] :=
      List.filter_eq_nil_iff.mpr fun w hw => by simpa using hnext w hw
    have hother (o : Output) (ho : o ∈ outputs) (buffer : ℕ → UInt8) :
        stored (placed output 0 (text ++ [0]) ++ next.writes) o buffer = stored next.writes o buffer := by
      have hne : output ≠ o := fun h => houtput (h ▸ ho)
      rw [stored,List.filter_append,filter_placed_of_ne hne,List.nil_append,stored]
    rw [copyLoop_andThen,if_pos hlt.le] at hbounds ⊢
    constructor
    · intro h
      refine ⟨hbounds.mp h.bounds,fun hreturned o ho buffer => ?_⟩
      obtain ⟨i,hi,hzero⟩ := h.terminated hreturned o (List.mem_cons_of_mem _ ho) buffer
      exact ⟨i,hi,by rwa [hother o ho] at hzero⟩
    · intro h
      refine ⟨hbounds.mpr h.bounds,fun hreturned => List.forall_mem_cons.mpr ⟨fun buffer => ?_,?_⟩⟩
      · refine ⟨text.length,hlt,?_⟩
        rw [stored_append,stored,hnone]
        exact stored_placed output text buffer
      · intro o ho buffer
        obtain ⟨i,hi,hzero⟩ := h.terminated hreturned o ho buffer
        exact ⟨i,hi,by rwa [hother o ho]⟩
  · exact iff_of_false (fun h => (hbounds.mp h.bounds).1 heq) fun h => h.1 heq
  · refine iff_of_true ⟨hbounds.mpr ⟨hgt.ne',fun h => absurd h (by omega)⟩,?_⟩ ⟨hgt.ne',fun h => absurd h (by omega)⟩
    rw [copyLoop_andThen,if_neg (not_le.mpr hgt)]
    exact nofun

lemma Extraction.andThen_nothing (e : Extraction) : e.andThen ⟨true,[]⟩ = e := by
  unfold Extraction.andThen
  split
  · next h => rw [List.append_nil,← h]
  · rfl

lemma bounds_copyLoop_iff : (∀ w ∈ (copyLoop output n 0 text).writes,w.index < n) ↔ text.length ≠ n := by
  rw [← (copyLoop output n 0 text).andThen_nothing,bounds_andThen_iff]
  exact and_iff_left fun _ => nofun

lemma respects_copyLoop_iff : Respects n [output] (copyLoop output n 0 text) ↔ text.length ≠ n := by
  have hempty : Respects n [] ⟨true,[]⟩ := ⟨nofun,fun _ => nofun⟩
  rw [← (copyLoop output n 0 text).andThen_nothing,respects_andThen_iff (by simp) (by simp)]
  exact and_iff_left fun _ => hempty

lemma output_of_mem_copyLoop {w : Write} (h : w ∈ (copyLoop output n 0 text).writes) : w.output = output := by
  rw [copyLoop_eq output (Nat.zero_le n)] at h
  split_ifs at h
  · exact output_of_mem_placed h
  · exact output_of_mem_placed h

lemma mem_writes_of_andThen {first : Extraction} {w : Write} (h : w ∈ (first.andThen next).writes) :
    w ∈ first.writes ∨ w ∈ next.writes := by
  unfold Extraction.andThen at h
  split_ifs at h
  · exact List.mem_append.mp h
  · exact .inl h

end

section

variable {s app env rest rid : Bytes} {n : ℕ}

lemma extractAppEnvInto_append (h : 45 ∉ env) :
    extractAppEnvInto (app ++ 45::env) n = (copyLoop .app n 0 app).andThen (copyLoop .env n 0 env) := by
  rw [extractAppEnvInto,rindex_append_cons h]
  simp

lemma extractAppEnvInto_of_notMem (h : 45 ∉ s) : extractAppEnvInto s n = ⟨false,[]⟩ := by
  rw [extractAppEnvInto,rindex_eq_none h]

/-- The size of the copy is an int. -/
lemma toInt32_size_iff : toInt32 (s.length+1) = s.length+1 ↔ s.length+1 < 2^31 := by
  refine ⟨fun h => ?_,fun h => by exact_mod_cast toInt32_of_lt h⟩
  unfold toInt32 at h
  split_ifs at h <;> omega

lemma extractAppEnvRidInto_of_notMem (hlength : s.length+1 < 2^31) (h : 45 ∉ s) :
    extractAppEnvRidInto s n = .ok ⟨false,[]⟩ := by
  rw [extractAppEnvRidInto,if_neg (not_not.mpr (toInt32_size_iff.mpr hlength)),rindex_eq_none h]

lemma extractAppEnvRidInto_append (hlength : (rest ++ 45::rid).length+1 < 2^31) (h : 45 ∉ rid) :
    extractAppEnvRidInto (rest ++ 45::rid) n = .ok ((copyLoop .rid n 0 rid).andThen (extractAppEnvInto rest n)) := by
  rw [extractAppEnvRidInto,if_neg (not_not.mpr (toInt32_size_iff.mpr hlength)),rindex_append_cons h]
  simp

lemma output_ne_rid {w : Write} (h : w ∈ (extractAppEnvInto s n).writes) : w.output ≠ .rid := by
  rcases dash_cases s with hs | ⟨app,env,rfl,henv⟩
  · rw [extractAppEnvInto_of_notMem hs] at h
    cases h
  · rw [extractAppEnvInto_append henv] at h
    rcases mem_writes_of_andThen h with h | h
    · rw [output_of_mem_copyLoop h]
      decide
    · rw [output_of_mem_copyLoop h]
      decide

/-- The calls with buffers return true for the same names, and leave the same parts in the buffers. -/
theorem extractAppEnvInto_eq (s : Bytes) (n : ℕ) :
    (extractAppEnvInto s n).returned = (extractAppEnv s n).isSome ∧
      ∀ app env,extractAppEnv s n = some (app,env) →
        (extractAppEnvInto s n).writes = placed .app 0 (app ++ [0]) ++ placed .env 0 (env ++ [0]) := by
  rcases dash_cases s with hs | ⟨app,env,rfl,henv⟩
  · rw [extractAppEnvInto_of_notMem hs,extractAppEnv_of_notMem hs]
    exact ⟨rfl,nofun⟩
  · rw [extractAppEnvInto_append henv,extractAppEnv_append henv,copyLoop_andThen]
    rcases le_or_gt app.length n with happ | happ
    · rw [if_pos happ]
      rcases le_or_gt env.length n with hlength | hlength
      · rw [copyLoop_of_le .env hlength,if_pos ⟨happ,hlength⟩]
        refine ⟨rfl,fun app' env' h => ?_⟩
        obtain ⟨rfl,rfl⟩ := Prod.mk.inj (Option.some.inj h)
        rfl
      · rw [copyLoop_of_lt .env hlength,if_neg (by omega)]
        exact ⟨rfl,nofun⟩
    · rw [if_neg (not_le.mpr happ),if_neg (by omega)]
      exact ⟨rfl,nofun⟩

theorem extractAppEnvRidInto_eq (hlength : s.length+1 < 2^31) (n : ℕ) :
    ∃ e,extractAppEnvRidInto s n = .ok e ∧ e.returned = (extractAppEnvRid s n).isSome ∧
      ∀ app env rid,extractAppEnvRid s n = some (app,env,rid) →
        e.writes = placed .rid 0 (rid ++ [0]) ++ (placed .app 0 (app ++ [0]) ++ placed .env 0 (env ++ [0])) := by
  rcases dash_cases s with hs | ⟨rest,rid,rfl,hrid⟩
  · rw [extractAppEnvRid_of_notMem hs]
    exact ⟨_,extractAppEnvRidInto_of_notMem hlength hs,rfl,nofun⟩
  · refine ⟨_,extractAppEnvRidInto_append hlength hrid,?_⟩
    rw [extractAppEnvRid_append hrid,copyLoop_andThen]
    obtain ⟨hreturned,hwrites⟩ := extractAppEnvInto_eq rest n
    split_ifs
    · refine ⟨hreturned.trans Option.isSome_map.symm,fun app env rid' h => ?_⟩
      obtain ⟨⟨app',env'⟩,hparts,heq⟩ := Option.map_eq_some_iff.mp h
      obtain ⟨rfl,rfl,rfl⟩ : app' = app ∧ env' = env ∧ rid = rid' := by simpa using heq
      rw [hwrites app' env' hparts]
    · exact ⟨rfl,nofun⟩

/-- No part that is copied has the size of its buffer. A part that is longer ends the call before the next
one is copied. -/
def AppEnvFits (s : Bytes) (n : ℕ) : Prop :=
  ∀ app env,s = app ++ 45::env → 45 ∉ env → app.length ≠ n ∧ (app.length < n → env.length ≠ n)

def RidFits (s : Bytes) (n : ℕ) : Prop :=
  ∀ rest rid,s = rest ++ 45::rid → 45 ∉ rid → rid.length ≠ n ∧ (rid.length < n → AppEnvFits rest n)

/-- What holds at every last dash holds at the one there is. -/
lemma forall_dash_iff {P : Bytes → Bytes → Prop} (h : 45 ∉ env) :
    (∀ app' env',app ++ 45::env = app' ++ 45::env' → 45 ∉ env' → P app' env') ↔ P app env := by
  refine ⟨fun hall => hall app env rfl h,fun hP app' env' heq henv' => ?_⟩
  obtain ⟨rfl,rfl⟩ := append_cons_inj h henv' heq
  exact hP

lemma appEnvFits_append (h : 45 ∉ env) :
    AppEnvFits (app ++ 45::env) n ↔ app.length ≠ n ∧ (app.length < n → env.length ≠ n) :=
  forall_dash_iff (P := fun app env => app.length ≠ n ∧ (app.length < n → env.length ≠ n)) h

lemma ridFits_append (h : 45 ∉ rid) :
    RidFits (rest ++ 45::rid) n ↔ rid.length ≠ n ∧ (rid.length < n → AppEnvFits rest n) :=
  forall_dash_iff (P := fun rest rid => rid.length ≠ n ∧ (rid.length < n → AppEnvFits rest n)) h

/-- Without a dash there is nothing to split. -/
lemma appEnvFits_of_notMem (h : 45 ∉ s) : AppEnvFits s n := by
  rintro app env rfl -
  exact absurd (List.mem_append_right _ List.mem_cons_self) h

lemma ridFits_of_notMem (h : 45 ∉ s) : RidFits s n := by
  rintro rest rid rfl -
  exact absurd (List.mem_append_right _ List.mem_cons_self) h

lemma bounds_extractAppEnvInto_iff : (∀ w ∈ (extractAppEnvInto s n).writes,w.index < n) ↔ AppEnvFits s n := by
  rcases dash_cases s with hs | ⟨app,env,rfl,henv⟩
  · rw [extractAppEnvInto_of_notMem hs]
    exact iff_of_true nofun (appEnvFits_of_notMem hs)
  · rw [extractAppEnvInto_append henv,bounds_andThen_iff,bounds_copyLoop_iff,appEnvFits_append henv]

lemma bounds_extractAppEnvRidInto_iff (hlength : s.length+1 < 2^31) {e : Extraction}
    (he : extractAppEnvRidInto s n = .ok e) : (∀ w ∈ e.writes,w.index < n) ↔ RidFits s n := by
  rcases dash_cases s with hs | ⟨rest,rid,rfl,hrid⟩
  · rw [extractAppEnvRidInto_of_notMem hlength hs] at he
    obtain rfl := Except.ok.inj he
    exact iff_of_true nofun (ridFits_of_notMem hs)
  · rw [extractAppEnvRidInto_append hlength hrid] at he
    obtain rfl := Except.ok.inj he
    rw [bounds_andThen_iff,bounds_extractAppEnvInto_iff,ridFits_append hrid]

lemma respects_extractAppEnvInto_iff : Respects n [.app,.env] (extractAppEnvInto s n) ↔ AppEnvFits s n := by
  rcases dash_cases s with hs | ⟨app,env,rfl,henv⟩
  · rw [extractAppEnvInto_of_notMem hs]
    exact iff_of_true ⟨nofun,nofun⟩ (appEnvFits_of_notMem hs)
  · have hnext : ∀ w ∈ (copyLoop .env n 0 env).writes,w.output ≠ .app := by
      intro w hw
      rw [output_of_mem_copyLoop hw]
      decide
    rw [extractAppEnvInto_append henv,respects_andThen_iff hnext (by decide),respects_copyLoop_iff,appEnvFits_append henv]

lemma respects_extractAppEnvRidInto_iff :
    (∃ e,extractAppEnvRidInto s n = .ok e ∧ Respects n [.rid,.app,.env] e) ↔ s.length+1 < 2^31 ∧ RidFits s n := by
  by_cases hlength : s.length+1 < 2^31
  · rw [and_iff_right hlength]
    rcases dash_cases s with hs | ⟨rest,rid,rfl,hrid⟩
    · exact iff_of_true ⟨_,extractAppEnvRidInto_of_notMem hlength hs,nofun,nofun⟩ (ridFits_of_notMem hs)
    · rw [extractAppEnvRidInto_append hlength hrid]
      simp only [Except.ok.injEq,exists_eq_left']
      rw [respects_andThen_iff (fun w hw => output_ne_rid hw) (by decide),respects_extractAppEnvInto_iff,ridFits_append hrid]
  · rw [extractAppEnvRidInto,if_pos (mt toInt32_size_iff.mp hlength)]
    exact iff_of_false (fun ⟨_,h,_⟩ => nomatch h) fun h => hlength h.1

end

/-- The functions stay within buffers of a size unless a part has just this size. -/
theorem extractAppEnv_respects_iff (s : Bytes) (n : ℕ) :
    (Respects n [.app,.env] (extractAppEnvInto s n) ↔ AppEnvFits s n) ∧
      ((∃ e,extractAppEnvRidInto s n = .ok e ∧ Respects n [.rid,.app,.env] e) ↔ s.length+1 < 2^31 ∧ RidFits s n) :=
  ⟨respects_extractAppEnvInto_iff,respects_extractAppEnvRidInto_iff⟩

/-- An application with a name of 256 characters, in a stream name and in a caller id. -/
def longApp : Bytes := List.replicate 256 97

theorem extractAppEnv_overflow :
    ¬Respects 256 [.app,.env] (extractAppEnvInto (longApp ++ lit "-e") 256) ∧
      ¬∃ e,extractAppEnvRidInto (longApp ++ lit "-e-r") 256 = .ok e ∧ Respects 256 [.rid,.app,.env] e := by
  have henv : lit "-e" = 45::lit "e" := by decide
  have hrid : lit "-e-r" = 45::lit "e" ++ 45::lit "r" := by decide
  have hfits : ¬AppEnvFits (longApp ++ 45::lit "e") 256 := by
    rw [appEnvFits_append (by decide),longApp,List.length_replicate]
    exact fun h => h.1 rfl
  refine ⟨fun h => hfits ?_,fun h => hfits ?_⟩
  · rw [henv] at h
    exact respects_extractAppEnvInto_iff.mp h
  · rw [hrid,← List.append_assoc] at h
    obtain ⟨-,hparts⟩ := respects_extractAppEnvRidInto_iff.mp h
    exact ((ridFits_append (by decide)).mp hparts).2 (by decide)

end Logjam
