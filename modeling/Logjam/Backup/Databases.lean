import Logjam.Backup.Names
import Logjam.Library.Ensures
import Logjam.Library.Sorting

/-! The databases that are backed up. Their names come from the server, where other programs may have databases
as well. -/
namespace Logjam.Backup
open Library

/-! The order of both tools. -/

section Order
variable {α : Type} (date : α → CalendarDate) (text : α → Bytes)

/-- The comparison that is passed to sort.Slice: by the date, then by a text. -/
def earlier (a b : α) : Bool :=
  let younger := (date a).before (date b)
  let sameDate := date a == date b
  younger || (sameDate && compare (text a) (text b) == .lt)

def dateOrder : α → α → Ordering := compareLex (fun a b => CalendarDate.order (date a) (date b)) (compareOn text)

instance : Std.TransCmp fun a b => CalendarDate.order (date a) (date b) where
  eq_swap := Std.OrientedCmp.eq_swap
  isLE_trans := Std.TransCmp.isLE_trans

instance : Std.TransCmp (dateOrder date text) := inferInstanceAs (Std.TransCmp (compareLex _ _))

/-- By the date, then by the text. -/
def InOrder (a b : α) : Prop :=
  (date a).before (date b) = true ∨ date a = date b ∧ (compare (text a) (text b)).isLE = true

variable {date text}

lemma order_eq_eq_iff {d d' : CalendarDate} : CalendarDate.order d d' = .eq ↔ d = d' := by
  constructor
  · exact Std.LawfulEqCmp.eq_of_compare
  · rintro rfl
    exact Std.ReflCmp.compare_self

lemma earlier_eq (a b : α) : earlier date text a b = (dateOrder date text a b == .lt) := by
  have hsame : (date a == date b) = (CalendarDate.order (date a) (date b) == .eq) := by
    rw [Bool.eq_iff_iff,beq_iff_eq,beq_iff_eq,order_eq_eq_iff]
  simp only [earlier,CalendarDate.before,dateOrder,compareLex,compareOn,hsame]
  cases CalendarDate.order (date a) (date b) <;> rfl

lemma isLE_dateOrder_iff (a b : α) : (dateOrder date text a b).isLE = true ↔ InOrder date text a b := by
  rw [InOrder,← order_eq_eq_iff,CalendarDate.before,dateOrder,compareLex,compareOn]
  cases CalendarDate.order (date a) (date b) <;> simp

lemma pairwise_earlier (go : SliceSort) (l : List α) : (go.sort (earlier date text) l).Pairwise (InOrder date text) := by
  have hless : earlier date text = fun a b => dateOrder date text a b == .lt := by
    funext a b
    exact earlier_eq a b
  have hsorted : (go.sort (earlier date text) l).Pairwise fun a b => (dateOrder date text a b).isLE = true := by
    rw [hless]
    exact go.pairwise_isLE l
  exact hsorted.imp fun h => (isLE_dateOrder_iff _ _).mp h

end Order

/-! The databases. -/

/-- One round of the loop over the names. -/
def addDatabase (dbs : List DatabaseInfo) (name : Bytes) : Except Fault (List DatabaseInfo) :=
  if name = lit "logjam-global" ∨ (lit "logjam-").isPrefixOf name = false then .ok dbs
  else do
    let info ← parseDatabaseName name
    return dbs ++ info.toList

/-- What is left of getDatabases when the server has answered. -/
def getDatabases (go : SliceSort) (names : List Bytes) : Except Fault (List DatabaseInfo) := do
  let dbs ← names.foldlM addDatabase []
  return go.sort (earlier DatabaseInfo.date DatabaseInfo.streamName) dbs

/-- The form logjam-app-env-YYYY-MM-DD with a date that exists. -/
def IsDatabaseName (name : Bytes) : Prop :=
  ∃ app env d,app ≠ [] ∧ env ≠ [] ∧ 45 ∉ env ∧ name = composed app env (CalendarDate.text d)

/-- Exactly the databases with a proper name. -/
structure Collected (names : List Bytes) (dbs : List DatabaseInfo) : Prop where
  count : ∀ name,IsDatabaseName name → (dbs.map DatabaseInfo.name).count name = names.count name
  proper : ∀ info ∈ dbs,IsDatabaseName info.name
  parsed : ∀ info ∈ dbs,info.name = composed info.app info.env info.date.text ∧
    info.streamName = info.app ++ lit "-" ++ info.env

/-- They are in order. -/
structure Enumerates (names : List Bytes) (dbs : List DatabaseInfo) : Prop extends Collected names dbs where
  sorted : dbs.Pairwise (InOrder DatabaseInfo.date DatabaseInfo.streamName)

/-- The name of the global database, or of one that another program has. -/
def Skipped (name : Bytes) : Prop := name = lit "logjam-global" ∨ (lit "logjam-").isPrefixOf name = false

/-- The expression of parseDatabaseName matches. -/
def Matches (name : Bytes) : Prop := ∃ app env date,NameParts app env date ∧ name = composed app env date

section Databases
variable {names : List Bytes} {name : Bytes} {dbs dbs' : List DatabaseInfo}

lemma IsDatabaseName.not_skipped (h : IsDatabaseName name) : ¬Skipped name := by
  obtain ⟨app,env,d,-,-,-,rfl⟩ := h
  rintro (hglobal | hprefix)
  · have hlength := congrArg List.length hglobal
    simp only [composed,List.length_append,List.length_cons,d.length_text] at hlength
    have hshort : (lit "logjam-global").length = 13 := rfl
    have hlogjam : (lit "logjam-").length = 7 := rfl
    omega
  · rw [composed,List.isPrefixOf_iff_prefix.mpr (List.prefix_append _ _)] at hprefix
    cases hprefix

lemma addDatabase_of_skipped (h : Skipped name) : addDatabase dbs name = .ok dbs := if_pos h

lemma addDatabase_of_not_skipped (h : ¬Skipped name) :
    addDatabase dbs name = parseDatabaseName name >>= fun info => .ok (dbs ++ info.toList) := if_neg h

lemma exists_addDatabase_iff (dbs : List DatabaseInfo) (name : Bytes) :
    (∃ dbs',addDatabase dbs name = .ok dbs') ↔ Skipped name ∨ Matches name := by
  by_cases hskipped : Skipped name
  · exact iff_of_true ⟨dbs,addDatabase_of_skipped hskipped⟩ (.inl hskipped)
  rw [addDatabase_of_not_skipped hskipped,or_iff_right hskipped]
  constructor
  · rintro ⟨dbs',h⟩
    obtain ⟨info,hinfo,-⟩ := bind_eq_ok_iff.mp h
    by_contra hnot
    rw [parseDatabaseName_eq_error_iff.mpr ⟨rfl,hnot⟩] at hinfo
    cases hinfo
  · rintro ⟨app,env,date,hparts,rfl⟩
    exact ⟨_,bind_eq_ok_iff.mpr ⟨_,parseDatabaseName_composed hparts,rfl⟩⟩

/-- A round leaves a name out or appends what it says. -/
lemma addDatabase_cases (h : addDatabase dbs name = .ok dbs') :
    (dbs' = dbs ∧ ¬IsDatabaseName name) ∨ ∃ info : DatabaseInfo,dbs' = dbs ++ [info] ∧ info.name = name ∧
      IsDatabaseName name ∧ name = composed info.app info.env info.date.text ∧
      info.streamName = info.app ++ lit "-" ++ info.env := by
  obtain hskipped | ⟨app,env,date,hparts,rfl⟩ := (exists_addDatabase_iff dbs name).mp ⟨dbs',h⟩
  · rw [addDatabase_of_skipped hskipped] at h
    exact .inl ⟨(Except.ok.inj h).symm,fun hname => hname.not_skipped hskipped⟩
  by_cases hskipped : Skipped (composed app env date)
  · rw [addDatabase_of_skipped hskipped] at h
    exact .inl ⟨(Except.ok.inj h).symm,fun hname => hname.not_skipped hskipped⟩
  rw [addDatabase_of_not_skipped hskipped,parseDatabaseName_composed hparts] at h
  obtain rfl := Except.ok.inj h
  cases hdate : timeParse date with
  | none =>
    refine .inl ⟨List.append_nil dbs,?_⟩
    -- the name could only be split in the same way
    rintro ⟨app',env',d,-,-,hdash,heq⟩
    obtain ⟨-,-,rfl⟩ := composed_inj hparts.no_dash hdash hparts.date d.dateShaped_text heq
    rw [timeParse_eq_some_iff.mpr rfl] at hdate
    cases hdate
  | some d =>
    obtain rfl := timeParse_eq_some_iff.mp hdate
    exact .inr ⟨_,rfl,rfl,⟨app,env,d,hparts.app_ne_nil,hparts.env_ne_nil,hparts.no_dash,rfl⟩,rfl,rfl⟩

lemma Collected.add (h : Collected names dbs) (hadd : addDatabase dbs name = .ok dbs') : Collected (names ++ [name]) dbs' := by
  obtain ⟨rfl,hname⟩ | ⟨info,rfl,rfl,hname,hparsed⟩ := addDatabase_cases hadd
  · refine ⟨?_,h.proper,h.parsed⟩
    intro other hother
    rw [List.count_append,h.count other hother,List.count_singleton,if_neg,Nat.add_zero]
    exact fun heq => hname (eq_of_beq heq ▸ hother)
  · refine ⟨?_,?_,?_⟩
    · intro other hother
      rw [List.map_append,List.count_append,List.count_append,h.count other hother,List.map_singleton]
    · exact List.forall_mem_append.mpr ⟨h.proper,List.forall_mem_singleton.mpr hname⟩
    · exact List.forall_mem_append.mpr ⟨h.parsed,List.forall_mem_singleton.mpr hparsed⟩

/-- What the loop over the names has collected in the end. -/
lemma Collected.addAll (h : Collected names dbs) {more : List Bytes} (hrun : more.foldlM addDatabase dbs = .ok dbs') :
    Collected (names ++ more) dbs' := by
  induction more generalizing names dbs with
  | nil =>
    obtain rfl := Except.ok.inj hrun
    rwa [List.append_nil]
  | cons name more ih =>
    rw [List.foldlM_cons] at hrun
    obtain ⟨next,hadd,hrun⟩ := bind_eq_ok_iff.mp hrun
    rw [List.append_cons]
    exact ih (h.add hadd) hrun

lemma collected_nil : Collected [] [] := ⟨fun _ _ => rfl,fun _ h => absurd h List.not_mem_nil,fun _ h => absurd h List.not_mem_nil⟩

lemma Collected.perm (h : Collected names dbs) (hperm : dbs'.Perm dbs) : Collected names dbs' := by
  refine ⟨?_,fun info hinfo => h.proper info (hperm.mem_iff.mp hinfo),fun info hinfo => h.parsed info (hperm.mem_iff.mp hinfo)⟩
  intro name hname
  rw [(hperm.map DatabaseInfo.name).count_eq,h.count name hname]

end Databases

/-- The databases are enumerated if all names that start like those of logjam are matched by the expression. Any
other one makes the whole run panic. -/
theorem getDatabases_enumerates_iff (go : SliceSort) (names : List Bytes) :
    (∃ dbs,getDatabases go names = .ok dbs ∧ Enumerates names dbs) ↔
      ∀ name ∈ names,name ≠ lit "logjam-global" → (lit "logjam-").isPrefixOf name = true → Matches name := by
  have hrun := exists_foldlM_iff exists_addDatabase_iff names []
  have hcond : (∀ name ∈ names,Skipped name ∨ Matches name) ↔
      ∀ name ∈ names,name ≠ lit "logjam-global" → (lit "logjam-").isPrefixOf name = true → Matches name := by
    refine forall₂_congr fun name _ => ?_
    rw [or_iff_not_imp_left,Skipped,not_or,Bool.not_eq_false,and_imp]
  rw [← hcond,← hrun]
  constructor
  · rintro ⟨dbs,h,-⟩
    obtain ⟨collected,hcollected,-⟩ := bind_eq_ok_iff.mp h
    exact ⟨collected,hcollected⟩
  · rintro ⟨collected,hcollected⟩
    refine ⟨_,bind_eq_ok_iff.mpr ⟨collected,hcollected,rfl⟩,?_,pairwise_earlier go collected⟩
    exact (collected_nil.addAll hcollected).perm (go.perm _ _)

theorem getDatabases_panics : getDatabases .merge [lit "admin",lit "logjam-shop-production-2021-05-05",lit "logjam-test"] =
    .error .outOfBounds := by
  rfl

end Logjam.Backup
