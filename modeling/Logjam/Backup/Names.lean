import Logjam.Backup.Dates
import Logjam.Importer.Parser
import Logjam.Library.Regexp
import Logjam.Util.RequestIds

/-! The names of databases and of their backups. They are composed in C from the parts of a stream and a date, and
taken apart in Go by regular expressions. Strings are matched byte by byte: what separates the parts is ASCII. -/
namespace Logjam.Backup
open Library Logjam.Importer

/-! Names in C. -/

/-- The parts of the key of a stream. -/
structure StreamNames where
  app : Bytes
  env : Bytes
  deriving DecidableEq

/-- Keys with a part of 256 bytes, which is terminated behind its buffer, are taken to be accepted as well. -/
def streamInfoNew (key : Bytes) : Except Fault StreamNames :=
  match extractAppEnv key 256 with
  | none => .error .assertFailed
  | some (app,env) => if app = [] ∨ env = [] then .error .assertFailed else .ok ⟨app,env⟩

/-- The name in indexer_create_all_indexes. -/
def indexerDatabaseName (info : StreamNames) (isoDate : Bytes) : Except Fault Bytes :=
  sprintf 1000 (lit "logjam-" ++ info.app ++ lit "-" ++ info.env ++ lit "-" ++ isoDate)

/-! Names in Go. -/

structure DatabaseInfo where
  app : Bytes
  env : Bytes
  date : CalendarDate
  name : Bytes
  streamName : Bytes
  deriving DecidableEq

/-- The dot matches anything but a newline. -/
def dot (c : UInt8) : Bool := c != 10

def notDash (c : UInt8) : Bool := c != 45

/-- The expression logjam-(.+)-([^-]+)-(date). -/
def namePart : Regexp UInt8 :=
  .seq (.literal (lit "logjam-")) (.seq (.group 1 (.plus dot)) (.seq (.literal [45])
    (.seq (.group 2 (.plus notDash)) (.seq (.literal [45]) (.group 3 (.classes dateClasses))))))

def databaseRegexp : Regexp UInt8 := .anchored namePart

/-- The name of a database and one of the two suffixes. -/
def backupPart : Regexp UInt8 :=
  .seq namePart (.seq (.literal (lit ".")) (.group 4 (.alt (.literal (lit "archive")) (.literal (lit "requests")))))

def backupRegexp : Regexp UInt8 := .anchored backupPart

/-- A name that does not match makes matches[1] panic. A date that does not exist is only logged. -/
def parseDatabaseName (db : Bytes) : Except Fault (Option DatabaseInfo) :=
  match databaseRegexp.find db with
  | none => .error .outOfBounds
  | some m =>
    let app := m.submatch 1
    let env := m.submatch 2
    .ok ((timeParse (m.submatch 3)).map fun date => ⟨app,env,date,db,app ++ lit "-" ++ env⟩)

/-- The name is not filled in. -/
def parseBackupName (file : Bytes) : Option (DatabaseInfo × Bytes) :=
  match backupRegexp.find file with
  | none => none
  | some m =>
    let app := m.submatch 1
    let env := m.submatch 2
    (timeParse (m.submatch 3)).map fun date => (⟨app,env,date,[],app ++ lit "-" ++ env⟩,m.submatch 4)

/-! The parts of a name. -/

structure NameParts (app env date : Bytes) : Prop where
  app_ne_nil : app ≠ []
  no_newline : 10 ∉ app
  env_ne_nil : env ≠ []
  no_dash : 45 ∉ env
  date : DateShaped date

def composed (app env date : Bytes) : Bytes := lit "logjam-" ++ (app ++ 45::(env ++ 45::date))

section Parts
variable {app env date app' env' date' db file kind : Bytes}

/-- There is just one way to take a name apart: the date has ten bytes, and the last dash before it ends the app. -/
lemma composed_inj (henv : 45 ∉ env) (henv' : 45 ∉ env') (hdate : DateShaped date) (hdate' : DateShaped date')
    (heq : composed app env date = composed app' env' date') : app = app' ∧ env = env' ∧ date = date' := by
  have hname := List.append_cancel_left heq
  have hsplit : ∀ a b c : Bytes,a ++ 45::(b ++ 45::c) = (a ++ 45::b) ++ 45::c := by
    intro a b c
    rw [List.append_assoc,List.cons_append]
  rw [hsplit,hsplit] at hname
  have hlength : (45::date).length = (45::date').length := by
    rw [List.length_cons,List.length_cons,hdate.length,hdate'.length]
  obtain ⟨hkey,hcons⟩ := List.append_inj' hname hlength
  obtain ⟨happ,henv⟩ := append_cons_inj henv henv' hkey
  exact ⟨happ,henv,(List.cons.inj hcons).2⟩

lemma NameParts.inj (h : NameParts app env date) (h' : NameParts app' env' date')
    (heq : composed app env date = composed app' env' date') : app = app' ∧ env = env' ∧ date = date' :=
  composed_inj h.no_dash h'.no_dash h.date h'.date heq

lemma describes_namePart : namePart.Describes fun text groups => ∃ app env date,NameParts app env date ∧
    text = composed app env date ∧ groups = [(1,app),(2,env),(3,date)] := by
  have hdate := (Regexp.describes_classes dateClasses).group 3
  refine (((hdate.field 2 notDash [45]).field 1 dot [45]).word (lit "logjam-")).congr ?_
  intro text groups
  constructor
  · rintro ⟨_,⟨app,_,_,happ,hdot,⟨env,date,_,henv,hdash,⟨_,⟨hdate,rfl⟩,rfl⟩,rfl,rfl⟩,rfl,rfl⟩,rfl⟩
    refine ⟨app,env,date,⟨happ,?_,henv,?_,hdate⟩,rfl,rfl⟩
    · exact fun hmem => absurd (hdot 10 hmem) (by decide)
    · exact fun hmem => absurd (hdash 45 hmem) (by decide)
  · rintro ⟨app,env,date,hparts,rfl,rfl⟩
    have hdot : ∀ c ∈ app,dot c = true := fun c hc => bne_iff_ne.mpr fun heq => hparts.no_newline (heq ▸ hc)
    have hdash : ∀ c ∈ env,notDash c = true := fun c hc => bne_iff_ne.mpr fun heq => hparts.no_dash (heq ▸ hc)
    exact ⟨_,⟨app,_,_,hparts.app_ne_nil,hdot,⟨env,date,_,hparts.env_ne_nil,hdash,⟨_,⟨hparts.date,rfl⟩,rfl⟩,rfl,rfl⟩,
      rfl,rfl⟩,rfl⟩

/-- The suffixes of backups, without the dot. -/
def backupKinds : List Bytes := [lit "archive",lit "requests"]

lemma describes_backupPart : backupPart.Describes fun text groups => ∃ app env date kind,NameParts app env date ∧
    kind ∈ backupKinds ∧ text = composed app env date ++ (lit "." ++ kind) ∧
      groups = [(1,app),(2,env),(3,date),(4,kind)] := by
  have hkind := ((Regexp.describes_literal (lit "archive")).alt (Regexp.describes_literal (lit "requests"))).group 4
  refine (describes_namePart.seq (hkind.word (lit "."))).congr ?_
  intro text groups
  constructor
  · rintro ⟨_,_,_,_,⟨app,env,date,hparts,rfl,rfl⟩,⟨kind,⟨_,hkind,rfl⟩,rfl⟩,rfl,rfl⟩
    obtain ⟨rfl,rfl⟩ | ⟨rfl,rfl⟩ := hkind
    · exact ⟨app,env,date,_,hparts,by decide,rfl,rfl⟩
    · exact ⟨app,env,date,_,hparts,by decide,rfl,rfl⟩
  · rintro ⟨app,env,date,kind,hparts,hkind,rfl,rfl⟩
    rw [backupKinds,List.mem_pair] at hkind
    exact ⟨_,_,_,_,⟨app,env,date,hparts,rfl,rfl⟩,⟨kind,⟨[],hkind.imp (⟨·,rfl⟩) (⟨·,rfl⟩),rfl⟩,rfl⟩,rfl,rfl⟩

/-- Names with suffixes are taken apart in one way as well: no suffix is the end of the other one. -/
lemma composed_inj_suffix {kind' : Bytes}
    (hkind : kind ∈ backupKinds) (hkind' : kind' ∈ backupKinds)
    (heq : composed app env date ++ (lit "." ++ kind) = composed app' env' date' ++ (lit "." ++ kind')) :
    composed app env date = composed app' env' date' ∧ kind = kind' := by
  have hends : ∀ k ∈ backupKinds,∀ k' ∈ backupKinds,(lit "." ++ k).getLast? = (lit "." ++ k').getLast? → k = k' := by decide
  have hlast : ∀ (name : Bytes) k,(name ++ (lit "." ++ k)).getLast? = (lit "." ++ k).getLast? := by
    intro name k
    exact List.getLast?_append_of_ne_nil _ (by simp [lit])
  have hsame : kind = kind' := by
    apply hends kind hkind kind' hkind'
    rw [← hlast (composed app env date),← hlast (composed app' env' date'),heq]
  subst hsame
  exact ⟨List.append_cancel_right heq,rfl⟩

lemma databaseRegexp_find (h : NameParts app env date) : databaseRegexp.find (composed app env date) =
    some ⟨composed app env date,[(1,app),(2,env),(3,date)],[]⟩ := by
  refine Regexp.find_anchored_of_unique describes_namePart ⟨app,env,date,h,rfl,rfl⟩ ?_
  rintro _ ⟨app',env',date',h',heq,rfl⟩
  obtain ⟨rfl,rfl,rfl⟩ := h.inj h' heq
  rfl

lemma databaseRegexp_find_eq_none_iff : databaseRegexp.find db = none ↔
    ¬∃ app env date,NameParts app env date ∧ db = composed app env date := by
  rw [databaseRegexp,Regexp.find_anchored_eq_none_iff describes_namePart]
  constructor
  · rintro h ⟨app,env,date,hparts,hdb⟩
    exact h _ ⟨app,env,date,hparts,hdb,rfl⟩
  · rintro h groups ⟨app,env,date,hparts,hdb,-⟩
    exact h ⟨app,env,date,hparts,hdb⟩

lemma backupRegexp_find (h : NameParts app env date) (hkind : kind ∈ backupKinds) :
    backupRegexp.find (composed app env date ++ (lit "." ++ kind)) =
      some ⟨composed app env date ++ (lit "." ++ kind),[(1,app),(2,env),(3,date),(4,kind)],[]⟩ := by
  refine Regexp.find_anchored_of_unique describes_backupPart ⟨app,env,date,kind,h,hkind,rfl,rfl⟩ ?_
  rintro _ ⟨app',env',date',kind',h',hkind',heq,rfl⟩
  obtain ⟨hname,rfl⟩ := composed_inj_suffix hkind hkind' heq
  obtain ⟨rfl,rfl,rfl⟩ := h.inj h' hname
  rfl

lemma parseDatabaseName_composed (h : NameParts app env date) : parseDatabaseName (composed app env date) =
    .ok ((timeParse date).map fun d => ⟨app,env,d,composed app env date,app ++ lit "-" ++ env⟩) := by
  rw [parseDatabaseName,databaseRegexp_find h]
  rfl

/-- Only what does not have the parts of a name makes the function panic. -/
lemma parseDatabaseName_eq_error_iff {fault : Fault} : parseDatabaseName db = .error fault ↔
    fault = .outOfBounds ∧ ¬∃ app env date,NameParts app env date ∧ db = composed app env date := by
  rw [← databaseRegexp_find_eq_none_iff,parseDatabaseName]
  cases hfind : databaseRegexp.find db with
  | none => simp [eq_comm]
  | some m => simp

lemma parseBackupName_composed (h : NameParts app env date) (hkind : kind ∈ backupKinds) :
    parseBackupName (composed app env date ++ (lit "." ++ kind)) =
      (timeParse date).map fun d => (⟨app,env,d,[],app ++ lit "-" ++ env⟩,kind) := by
  rw [parseBackupName,backupRegexp_find h hkind]
  rfl

lemma parseBackupName_eq_some_iff {info : DatabaseInfo} : parseBackupName file = some (info,kind) ↔
    ∃ app env d,NameParts app env (CalendarDate.text d) ∧ kind ∈ backupKinds ∧
      file = composed app env d.text ++ (lit "." ++ kind) ∧ info = ⟨app,env,d,[],app ++ lit "-" ++ env⟩ := by
  constructor
  · intro h
    have hsome : backupRegexp.find file ≠ none := by
      intro hnone
      rw [parseBackupName,hnone] at h
      cases h
    rw [backupRegexp,Ne,Regexp.find_anchored_eq_none_iff describes_backupPart,not_forall_not] at hsome
    obtain ⟨_,app,env,date,kind',hparts,hkind,rfl,-⟩ := hsome
    rw [parseBackupName_composed hparts hkind,Option.map_eq_some_iff] at h
    obtain ⟨d,hd,heq⟩ := h
    obtain ⟨rfl,rfl⟩ := Prod.mk.inj heq
    obtain rfl := timeParse_eq_some_iff.mp hd
    exact ⟨app,env,d,hparts,hkind,rfl,rfl⟩
  · rintro ⟨app,env,d,hparts,hkind,rfl,rfl⟩
    rw [parseBackupName_composed hparts hkind,timeParse_eq_some_iff.mpr rfl]
    rfl

end Parts

/-! Both directions together. -/

section RoundTrip
variable {key : Bytes} {info : StreamNames}

lemma streamInfoNew_eq_ok_iff : streamInfoNew key = .ok info ↔ key = info.app ++ 45::info.env ∧ 45 ∉ info.env ∧
    info.app ≠ [] ∧ info.env ≠ [] ∧ info.app.length ≤ 256 ∧ info.env.length ≤ 256 := by
  unfold streamInfoNew
  constructor
  · intro h
    rcases dash_cases key with hnone | ⟨app,env,rfl,henv⟩
    · rw [extractAppEnv_of_notMem hnone] at h
      cases h
    · rw [extractAppEnv_append henv] at h
      by_cases hlength : app.length ≤ 256 ∧ env.length ≤ 256
      · rw [if_pos hlength] at h
        dsimp only at h
        split_ifs at h with hempty
        obtain rfl := Except.ok.inj h
        obtain ⟨happ,henv'⟩ := not_or.mp hempty
        exact ⟨rfl,henv,happ,henv',hlength⟩
      · rw [if_neg hlength] at h
        cases h
  · rintro ⟨rfl,hdash,happ,henv,hlength⟩
    rw [extractAppEnv_append hdash,if_pos hlength]
    exact if_neg (not_or.mpr ⟨happ,henv⟩)

/-- The name that the parser composes from the key and a date. -/
lemma databaseName_eq (hkey : streamInfoNew key = .ok info) (hnul : 0 ∉ key) (date : CalendarDate) (time : Bytes) :
    databaseName key (date.text ++ time) = composed info.app info.env date.text := by
  obtain ⟨rfl,-⟩ := streamInfoNew_eq_ok_iff.mp hkey
  have hcstr : cstr (info.app ++ 45::info.env) = info.app ++ 45::info.env := by
    rw [cstr,List.takeWhile_eq_self_iff]
    intro c hc
    exact bne_iff_ne.mpr fun heq => hnul (heq ▸ hc)
  rw [databaseName,hcstr,if_pos rfl,List.take_left' date.length_text,composed]
  simp [lit]

end RoundTrip

/-- The parser and the indexer name the database of a stream and a day alike, and the backup tool gets the stream and
the day back from the names of the database and of its backups. -/
theorem names_round_trip {key : Bytes} {info : StreamNames} (hkey : streamInfoNew key = .ok info) (hnul : 0 ∉ key)
    (hnewline : 10 ∉ key) (date : CalendarDate) (time : Bytes) :
    let db := databaseName key (date.text ++ time)
    indexerDatabaseName info date.text = .ok db ∧
      parseDatabaseName db = .ok (some ⟨info.app,info.env,date,db,key⟩) ∧
      ∀ kind ∈ backupKinds,parseBackupName (db ++ (lit "." ++ kind)) = some (⟨info.app,info.env,date,[],key⟩,kind) := by
  intro db
  have hdb : db = composed info.app info.env date.text := databaseName_eq hkey hnul date time
  obtain ⟨hkey,hdash,happ,henv,hlength⟩ := streamInfoNew_eq_ok_iff.mp hkey
  have hparts : NameParts info.app info.env date.text := by
    refine ⟨happ,fun hmem => hnewline ?_,henv,hdash,date.dateShaped_text⟩
    rw [hkey]
    exact List.mem_append_left _ hmem
  have hstream : info.app ++ lit "-" ++ info.env = key := by
    rw [hkey]
    simp [lit]
  refine ⟨?_,?_,?_⟩
  · have htext : lit "logjam-" ++ info.app ++ lit "-" ++ info.env ++ lit "-" ++ date.text = db := by
      rw [hdb,composed]
      simp [lit]
    rw [indexerDatabaseName,htext,sprintf,if_pos]
    have hlogjam : (lit "logjam-").length = 7 := rfl
    rw [hdb,composed]
    simp only [List.length_append,List.length_cons,date.length_text]
    omega
  · rw [hdb,parseDatabaseName_composed hparts,timeParse_eq_some_iff.mpr rfl,hstream]
    rfl
  · intro kind hkind
    rw [hdb,parseBackupName_composed hparts hkind,timeParse_eq_some_iff.mpr rfl,hstream]
    rfl

/-- The fifth of May. -/
def sampleDate : CalendarDate := ⟨2021,5,5,by decide,by decide,by decide,by decide,by decide⟩

/-- A stream whose name looks like that of a database. -/
theorem names_round_trip_dated :
    streamInfoNew (lit "sale-2020-01-01-production") = .ok ⟨lit "sale-2020-01-01",lit "production"⟩ ∧
      (let db := databaseName (lit "sale-2020-01-01-production") (sampleDate.text ++ lit "T10:00:00")
      indexerDatabaseName ⟨lit "sale-2020-01-01",lit "production"⟩ sampleDate.text = .ok db ∧
        parseDatabaseName db = .ok (some ⟨lit "sale-2020-01-01",lit "production",sampleDate,db,
          lit "sale-2020-01-01-production"⟩) ∧
        ∀ kind ∈ backupKinds,parseBackupName (db ++ (lit "." ++ kind)) = some (⟨lit "sale-2020-01-01",
          lit "production",sampleDate,[],lit "sale-2020-01-01-production"⟩,kind)) := by
  have hkey : streamInfoNew (lit "sale-2020-01-01-production") = .ok ⟨lit "sale-2020-01-01",lit "production"⟩ := by rfl
  exact ⟨hkey,names_round_trip hkey (by decide) (by decide) sampleDate (lit "T10:00:00")⟩

end Logjam.Backup
