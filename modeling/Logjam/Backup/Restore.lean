import Logjam.Backup.Databases

/-! Which archives are restored, when none are named on the command line. The files of the backup directory are
selected and sorted by the first text in their names that looks like a date. -/
namespace Logjam.Backup
open Library

structure RestoreOptions where
  /-- The file names that match the glob of the option. -/
  matchesGlob : Bytes → Bool
  excludeRequests : Bool
  fromDate : CalendarDate
  toDate : CalendarDate

/-- The files of the backup directory. Glob puts the directory and a slash in front of their names, or nothing for the
current directory. -/
structure Listing where
  folder : Bytes
  names : List Bytes
  folder_slash : folder = [] ∨ ∃ dir,folder = dir ++ [47]
  nodup : names.Nodup
  named : ∀ name ∈ names,name ≠ [] ∧ 47 ∉ name

def Listing.path (dir : Listing) (name : Bytes) : Bytes := dir.folder ++ name

def Listing.files (dir : Listing) : List Bytes := dir.names.map dir.path

/-- What follows the last slash, after slashes at the end have been removed. -/
def filepathBase (path : Bytes) : Bytes :=
  if path = [] then lit "."
  else
    let base := (path.rdropWhile (· == 47)).rtakeWhile (· != 47)
    if base = [] then lit "/" else base

def trimSuffix (s suffix : Bytes) : Bytes := if suffix.isSuffixOf s then s.take (s.length-suffix.length) else s

/-- The loop over both suffixes. -/
def parseBackupFileName (path : Bytes) : Bytes × Bytes :=
  if trimSuffix path (lit ".archive") ≠ path then (trimSuffix path (lit ".archive"),lit ".archive")
  else if trimSuffix path (lit ".requests") ≠ path then (trimSuffix path (lit ".requests"),lit ".requests")
  else ([],[])

/-- The expression has no anchors. -/
def dateRegexp : Regexp UInt8 := .group 1 (.classes dateClasses)

def parseBackupDate (path : Bytes) : Option CalendarDate :=
  (dateRegexp.find (filepathBase path)).bind fun m => timeParse (m.submatch 1)

structure ArchiveInfo where
  date : CalendarDate
  path : Bytes
  deriving DecidableEq

def extractArchiveInfo (a : Bytes) : Option ArchiveInfo :=
  (parseBackupDate (filepathBase a)).map fun date => ⟨date,a⟩

/-- The archive that is restored in one round of the loop, if any. -/
def restoreArchiveOf (opts : RestoreOptions) (a : ArchiveInfo) : Option Bytes :=
  let name := (parseBackupFileName a.path).1
  let suffix := (parseBackupFileName a.path).2
  if name = [] then none
  else if a.date.before opts.fromDate = true ∨ opts.toDate.before a.date = true then none
  else if opts.excludeRequests = false ∨ suffix = lit ".archive" then some (name ++ suffix)
  else none

/-- The paths of the restored archives. The glob of the options is not used. -/
def restoreFromBackups (go : SliceSort) (opts : RestoreOptions) (files : List Bytes) : List Bytes :=
  (go.sort (earlier ArchiveInfo.date ArchiveInfo.path) (files.filterMap extractArchiveInfo)).filterMap
    (restoreArchiveOf opts)

/-! What should be restored. -/

/-- The date at the end of the name, as the backup tool parses it. -/
def backupDate (path : Bytes) : Option CalendarDate := (parseBackupName (filepathBase path)).map fun parsed => parsed.1.date

/-- A backup that matches the glob, is not excluded and is of a day in the period. -/
def Selected (opts : RestoreOptions) (path : Bytes) : Prop :=
  opts.matchesGlob (filepathBase path) = true ∧ ∃ info kind,parseBackupName (filepathBase path) = some (info,kind) ∧
    (kind = lit "archive" ∨ kind = lit "requests" ∧ opts.excludeRequests = false) ∧
    info.date.before opts.fromDate = false ∧ opts.toDate.before info.date = false

/-- By the dates that are told from the paths, then by the paths. -/
def DateOrder (date : Bytes → Option CalendarDate) (p q : Bytes) : Prop :=
  ∀ d e,date p = some d → date q = some e → InOrder ArchiveInfo.date ArchiveInfo.path ⟨d,p⟩ ⟨e,q⟩

structure RestoresRight (opts : RestoreOptions) (files restored : List Bytes) : Prop where
  nodup : restored.Nodup
  mem_iff : ∀ path,path ∈ restored ↔ path ∈ files ∧ Selected opts path
  sorted : restored.Pairwise (DateOrder backupDate)

/-! What is restored. -/

/-- The date that is used. -/
def firstDate (path : Bytes) : Option CalendarDate := parseBackupDate (filepathBase path)

/-- The tests in the loop. -/
def Kept (opts : RestoreOptions) (path : Bytes) (d : CalendarDate) : Prop :=
  (parseBackupFileName path).1 ≠ [] ∧ d.before opts.fromDate = false ∧ opts.toDate.before d = false ∧
    (opts.excludeRequests = false ∨ (parseBackupFileName path).2 = lit ".archive")

def Restored (opts : RestoreOptions) (path : Bytes) : Prop := ∃ d,firstDate path = some d ∧ Kept opts path d

section Restored
variable {opts : RestoreOptions} {path : Bytes}

lemma trimSuffix_of_append (s suffix : Bytes) : trimSuffix (s ++ suffix) suffix = s := by
  rw [trimSuffix,if_pos (List.isSuffixOf_iff_suffix.mpr ⟨s,rfl⟩),List.length_append,Nat.add_sub_cancel,List.take_left]

lemma trimSuffix_append {s suffix : Bytes} (h : trimSuffix s suffix ≠ s) : trimSuffix s suffix ++ suffix = s := by
  by_cases hsuffix : suffix.isSuffixOf s = true
  · obtain ⟨t,rfl⟩ := List.isSuffixOf_iff_suffix.mp hsuffix
    rw [trimSuffix_of_append]
  · exact absurd (if_neg hsuffix) h

lemma parseBackupFileName_append (h : (parseBackupFileName path).1 ≠ []) :
    (parseBackupFileName path).1 ++ (parseBackupFileName path).2 = path := by
  unfold parseBackupFileName at h ⊢
  split_ifs at h ⊢ with harchive hrequests
  · exact trimSuffix_append harchive
  · exact trimSuffix_append hrequests
  · exact absurd rfl h

lemma restoreArchiveOf_eq_some_iff {a : ArchiveInfo} :
    restoreArchiveOf opts a = some path ↔ path = a.path ∧ Kept opts a.path a.date := by
  unfold restoreArchiveOf Kept
  dsimp only
  by_cases hname : (parseBackupFileName a.path).1 = []
  · simp [hname]
  rw [if_neg hname,parseBackupFileName_append hname]
  by_cases hdate : a.date.before opts.fromDate = true ∨ opts.toDate.before a.date = true
  · rw [if_pos hdate]
    refine iff_of_false nofun ?_
    rintro ⟨-,-,hfrom,hto,-⟩
    rw [hfrom,hto] at hdate
    simp at hdate
  · rw [if_neg hdate]
    obtain ⟨hfrom,hto⟩ := not_or.mp hdate
    rw [Bool.not_eq_true] at hfrom hto
    by_cases hsuffix : opts.excludeRequests = false ∨ (parseBackupFileName a.path).2 = lit ".archive"
    · rw [if_pos hsuffix,Option.some_inj,eq_comm]
      exact ⟨fun h => ⟨h,hname,hfrom,hto,hsuffix⟩,fun h => h.1⟩
    · rw [if_neg hsuffix]
      exact iff_of_false nofun fun h => hsuffix h.2.2.2.2

lemma extractArchiveInfo_eq_some_iff {a : ArchiveInfo} :
    extractArchiveInfo path = some a ↔ firstDate path = some a.date ∧ a.path = path := by
  rw [extractArchiveInfo,Option.map_eq_some_iff]
  constructor
  · rintro ⟨d,hd,rfl⟩
    exact ⟨hd,rfl⟩
  · rintro ⟨hd,rfl⟩
    exact ⟨a.date,hd,rfl⟩

variable (go : SliceSort) (dir : Listing)

/-- The archives before the tests in the loop. -/
def sortedArchives (files : List Bytes) : List ArchiveInfo :=
  go.sort (earlier ArchiveInfo.date ArchiveInfo.path) (files.filterMap extractArchiveInfo)

lemma mem_sortedArchives {files : List Bytes} {a : ArchiveInfo} :
    a ∈ sortedArchives go files ↔ a.path ∈ files ∧ firstDate a.path = some a.date := by
  rw [sortedArchives,(go.perm _ _).mem_iff,List.mem_filterMap]
  constructor
  · rintro ⟨path,hpath,ha⟩
    obtain ⟨hdate,rfl⟩ := extractArchiveInfo_eq_some_iff.mp ha
    exact ⟨hpath,hdate⟩
  · rintro ⟨hpath,hdate⟩
    exact ⟨a.path,hpath,extractArchiveInfo_eq_some_iff.mpr ⟨hdate,rfl⟩⟩

lemma mem_restoreFromBackups {files : List Bytes} :
    path ∈ restoreFromBackups go opts files ↔ path ∈ files ∧ Restored opts path := by
  rw [restoreFromBackups,List.mem_filterMap]
  constructor
  · rintro ⟨a,ha,hpath⟩
    obtain ⟨hmem,hdate⟩ := (mem_sortedArchives go).mp ha
    obtain ⟨rfl,hkept⟩ := restoreArchiveOf_eq_some_iff.mp hpath
    exact ⟨hmem,a.date,hdate,hkept⟩
  · rintro ⟨hmem,d,hdate,hkept⟩
    exact ⟨⟨d,path⟩,(mem_sortedArchives go).mpr ⟨hmem,hdate⟩,restoreArchiveOf_eq_some_iff.mpr ⟨rfl,hkept⟩⟩

/-- What two archives have in common before the tests they have after them. -/
lemma pairwise_restoreFromBackups {R : Bytes → Bytes → Prop} {files : List Bytes}
    (h : (sortedArchives go files).Pairwise fun a b => R a.path b.path) :
    (restoreFromBackups go opts files).Pairwise R := by
  rw [restoreFromBackups,List.pairwise_filterMap]
  refine h.imp ?_
  intro a b hab p hp q hq
  rw [(restoreArchiveOf_eq_some_iff.mp hp).1,(restoreArchiveOf_eq_some_iff.mp hq).1]
  exact hab

lemma nodup_restoreFromBackups : (restoreFromBackups go opts dir.files).Nodup := by
  apply pairwise_restoreFromBackups
  have hsymm : ∀ {a b : ArchiveInfo},a.path ≠ b.path → b.path ≠ a.path := fun h => h.symm
  rw [sortedArchives,(go.perm _ _).pairwise_iff hsymm,List.pairwise_filterMap]
  have hfiles : dir.files.Nodup := dir.nodup.map fun _ _ => List.append_cancel_left
  refine hfiles.imp ?_
  intro p q hne a ha b hb
  rw [(extractArchiveInfo_eq_some_iff.mp ha).2,(extractArchiveInfo_eq_some_iff.mp hb).2]
  exact hne

lemma pairwise_firstDate (files : List Bytes) : (restoreFromBackups go opts files).Pairwise (DateOrder firstDate) := by
  apply pairwise_restoreFromBackups
  refine List.Pairwise.imp_of_mem ?_ (pairwise_earlier go _)
  intro a b ha hb hab d e hd he
  rw [((mem_sortedArchives go).mp ha).2,Option.some_inj] at hd
  rw [((mem_sortedArchives go).mp hb).2,Option.some_inj] at he
  subst hd
  subst he
  exact hab

end Restored

/-! The comparison. -/

section Compare

lemma CalendarDate.before_asymm {d e : CalendarDate} (h : d.before e = true) : e.before d = false := by
  unfold before at h ⊢
  have hswap : order e d = (order d e).swap := Std.OrientedCmp.eq_swap
  rw [hswap,eq_of_beq h]
  rfl

lemma CalendarDate.before_self (d : CalendarDate) : d.before d = false := by
  have hself : order d d = .eq := Std.ReflCmp.compare_self
  rw [before,hself]
  rfl

variable {date : Bytes → Option CalendarDate} {p q : Bytes}

lemma dateOrder_self (p : Bytes) : DateOrder date p p := by
  intro d e hd he
  obtain rfl : d = e := Option.some.inj (hd.symm.trans he)
  have hself : compare p p = .eq := Std.ReflCmp.compare_self
  exact .inr ⟨rfl,by rw [hself]; rfl⟩

/-- Paths with dates are strictly ordered. -/
lemma DateOrder.antisymm (hp : ∃ d,date p = some d) (hq : ∃ d,date q = some d) (h : DateOrder date p q)
    (h' : DateOrder date q p) : p = q := by
  obtain ⟨d,hd⟩ := hp
  obtain ⟨e,he⟩ := hq
  obtain hlt | ⟨heq,hle⟩ := h d e hd he
  · obtain hgt | ⟨heq,-⟩ := h' e d he hd
    · rw [CalendarDate.before_asymm hlt] at hgt
      cases hgt
    · dsimp only at hlt heq
      rw [heq,CalendarDate.before_self] at hlt
      cases hlt
  · obtain hgt | ⟨-,hge⟩ := h' e d he hd
    · dsimp only at hgt heq
      rw [heq,CalendarDate.before_self] at hgt
      cases hgt
    · exact Std.LawfulEqCmp.eq_of_compare (Std.OrientedCmp.isLE_antisymm hle hge)

/-- Two orders of one list agree on its elements. -/
lemma pairwise_iff_of_pairwise {α : Type} {R S : α → α → Prop} {l : List α} (hR : l.Pairwise R) (hS : l.Pairwise S)
    (hantiR : ∀ a ∈ l,∀ b ∈ l,R a b → R b a → a = b) (hantiS : ∀ a ∈ l,∀ b ∈ l,S a b → S b a → a = b)
    {a b : α} (ha : a ∈ l) (hb : b ∈ l) (hne : a ≠ b) : R a b ↔ S a b := by
  have hboth : l.Pairwise fun a b => (R a b ∧ S a b) ∨ (R b a ∧ S b a) := (hR.and hS).imp fun h => .inl h
  have hsymm : Std.Symm fun a b => (R a b ∧ S a b) ∨ (R b a ∧ S b a) := ⟨fun _ _ h => h.symm⟩
  obtain ⟨hr,hs⟩ | ⟨hr,hs⟩ := hboth.forall ha hb hne
  · exact iff_of_true hr hs
  · exact iff_of_false (fun h => hne (hantiR a ha b hb h hr)) fun h => hne (hantiS a ha b hb h hs)

end Compare

lemma Selected.backupDate {opts : RestoreOptions} {path : Bytes} (h : Selected opts path) :
    ∃ d,backupDate path = some d := by
  obtain ⟨-,info,kind,hparsed,-⟩ := h
  exact ⟨info.date,by rw [Backup.backupDate,hparsed]; rfl⟩

lemma restoresRight_of (go : SliceSort) {opts : RestoreOptions} {dir : Listing}
    (hmem : ∀ path ∈ dir.files,Restored opts path ↔ Selected opts path)
    (horder : ∀ p ∈ dir.files,∀ q ∈ dir.files,Selected opts p → Selected opts q →
      DateOrder firstDate p q → DateOrder backupDate p q) :
    RestoresRight opts dir.files (restoreFromBackups go opts dir.files) := by
  have hiff : ∀ path,path ∈ restoreFromBackups go opts dir.files ↔ path ∈ dir.files ∧ Selected opts path := by
    intro path
    rw [mem_restoreFromBackups]
    exact and_congr_right fun hpath => hmem path hpath
  refine ⟨nodup_restoreFromBackups go dir,hiff,?_⟩
  refine List.Pairwise.imp_of_mem ?_ (pairwise_firstDate go dir.files)
  intro p q hp hq hpq
  obtain ⟨hp,hsp⟩ := (hiff p).mp hp
  obtain ⟨hq,hsq⟩ := (hiff q).mp hq
  exact horder p hp q hq hsp hsq hpq

lemma restoresRight_iff_selected (go : SliceSort) (opts : RestoreOptions) (dir : Listing) :
    RestoresRight opts dir.files (restoreFromBackups go opts dir.files) ↔
      (∀ path ∈ dir.files,Restored opts path ↔ Selected opts path) ∧
        ∀ p ∈ dir.files,∀ q ∈ dir.files,Selected opts p → Selected opts q →
          (DateOrder firstDate p q ↔ DateOrder backupDate p q) := by
  constructor
  · intro h
    have hmem : ∀ path ∈ dir.files,Restored opts path ↔ Selected opts path := by
      intro path hpath
      have hiff := (mem_restoreFromBackups go).symm.trans (h.mem_iff path)
      simpa [hpath] using hiff
    refine ⟨hmem,?_⟩
    intro p hp q hq hsp hsq
    by_cases heq : p = q
    · subst heq
      exact iff_of_true (dateOrder_self p) (dateOrder_self p)
    have hfirst : ∀ {path},path ∈ restoreFromBackups go opts dir.files → ∃ d,firstDate path = some d := by
      intro path hpath
      obtain ⟨-,d,hd,-⟩ := (mem_restoreFromBackups go).mp hpath
      exact ⟨d,hd⟩
    have hbackup : ∀ {path},path ∈ restoreFromBackups go opts dir.files → ∃ d,backupDate path = some d := by
      intro path hpath
      exact ((h.mem_iff path).mp hpath).2.backupDate
    exact pairwise_iff_of_pairwise (pairwise_firstDate go dir.files) h.sorted
      (fun a ha b hb => DateOrder.antisymm (hfirst ha) (hfirst hb))
      (fun a ha b hb => DateOrder.antisymm (hbackup ha) (hbackup hb))
      ((h.mem_iff p).mpr ⟨hp,hsp⟩) ((h.mem_iff q).mpr ⟨hq,hsq⟩) heq
  · rintro ⟨hmem,horder⟩
    exact restoresRight_of go hmem fun p hp q hq hsp hsq => (horder p hp q hq hsp hsq).mp

/-! Names. -/

/-- The first text in the name that looks like a date, if it is one. -/
def FirstDate (name : Bytes) (d : CalendarDate) : Prop :=
  ∃ before rest,name = before ++ (d.text ++ rest) ∧
    ∀ before' text rest',name = before' ++ (text ++ rest') → DateShaped text → before.length ≤ before'.length

/-- The name of a backup of a day: logjam-app-env-date and a suffix. -/
def BackupOf (name : Bytes) (d : CalendarDate) : Prop :=
  ∃ app env kind,NameParts app env d.text ∧ kind ∈ backupKinds ∧ name = composed app env d.text ++ (lit "." ++ kind)

/-- The name ends in .archive, or in .requests unless these are excluded. -/
def Suffixed (opts : RestoreOptions) (name : Bytes) : Prop :=
  lit ".archive" <:+ name ∨ lit ".requests" <:+ name ∧ opts.excludeRequests = false

def InPeriod (opts : RestoreOptions) (d : CalendarDate) : Prop :=
  d.before opts.fromDate = false ∧ opts.toDate.before d = false

/-- The files that are to be restored. -/
structure Wanted (opts : RestoreOptions) (name : Bytes) (d : CalendarDate) : Prop where
  glob : opts.matchesGlob name = true
  suffixed : Suffixed opts name
  backup : BackupOf name d
  period : InPeriod opts d

section Names
variable {name : Bytes} {d e : CalendarDate} {opts : RestoreOptions}

lemma describes_dateRegexp : dateRegexp.Describes fun text groups => DateShaped text ∧ groups = [(1,text)] := by
  refine ((Regexp.describes_classes dateClasses).group 1).congr fun text groups => ?_
  constructor
  · rintro ⟨_,⟨hshaped,rfl⟩,rfl⟩
    exact ⟨hshaped,rfl⟩
  · rintro ⟨hshaped,rfl⟩
    exact ⟨[],⟨hshaped,rfl⟩,rfl⟩

/-- The expression finds the first date. -/
lemma parseBackupDate_eq_some_iff : parseBackupDate name = some d ↔ FirstDate (filepathBase name) d := by
  rw [parseBackupDate,Option.bind_eq_some_iff]
  constructor
  · rintro ⟨w,hfind,hdate⟩
    obtain ⟨before,hsplit,⟨-,hgroups⟩,hleft⟩ := Regexp.find_sound describes_dateRegexp hfind
    have htext : w.text = d.text := by
      rw [Way.submatch,hgroups] at hdate
      exact timeParse_eq_some_iff.mp hdate
    refine ⟨before,w.rest,htext ▸ hsplit,fun before' text rest' heq hshaped => ?_⟩
    exact hleft before' text rest' _ heq ⟨hshaped,rfl⟩
  · rintro ⟨before,rest,hsplit,hfirst⟩
    obtain ⟨w,hfind⟩ := Regexp.find_complete describes_dateRegexp ⟨d.dateShaped_text,rfl⟩ before rest
    rw [← hsplit] at hfind
    obtain ⟨before',hsplit',⟨hshaped,hgroups⟩,hleft⟩ := Regexp.find_sound describes_dateRegexp hfind
    -- both are the leftmost one, and all dates are of the same length
    have hplace : before.length = before'.length :=
      Nat.le_antisymm (hfirst _ _ _ hsplit' hshaped) (hleft _ _ _ _ hsplit ⟨d.dateShaped_text,rfl⟩)
    have hrest := (List.append_inj (hsplit.symm.trans hsplit') hplace).2
    have htext : d.text = w.text := (List.append_inj hrest (by rw [d.length_text,hshaped.length])).1
    refine ⟨w,hfind,?_⟩
    rw [Way.submatch,hgroups]
    exact timeParse_eq_some_iff.mpr htext.symm

/-- A file name is the base of its path. -/
lemma filepathBase_append {folder : Bytes} (hfolder : folder = [] ∨ ∃ dir,folder = dir ++ [47]) (hname : name ≠ [])
    (hslash : 47 ∉ name) : filepathBase (folder ++ name) = name := by
  have hall : ∀ c ∈ name,(c != 47) = true := fun c hc => bne_iff_ne.mpr fun heq => hslash (heq ▸ hc)
  have hpath : folder ++ name ≠ [] := List.append_ne_nil_of_right_ne_nil _ hname
  have hdrop : (folder ++ name).rdropWhile (· == 47) = folder ++ name := by
    rw [List.rdropWhile_eq_self_iff]
    intro hne hlast
    rw [List.getLast_append_of_ne_nil _ hname] at hlast
    exact hslash (eq_of_beq hlast ▸ List.getLast_mem hname)
  have htake : (folder ++ name).rtakeWhile (· != 47) = name := by
    have hreverse : (folder ++ name).reverse.takeWhile (· != 47) = name.reverse := by
      rw [List.reverse_append,List.takeWhile_append_of_pos (by simpa using hall)]
      obtain rfl | ⟨dir,rfl⟩ := hfolder
      · simp
      · simp
    rw [List.rtakeWhile,hreverse,List.reverse_reverse]
  rw [filepathBase,if_neg hpath]
  dsimp only
  rw [hdrop,htake,if_neg hname]

lemma not_archive_requests {s : Bytes} (h : lit ".archive" <:+ s) : ¬lit ".requests" <:+ s := by
  rintro ⟨stem,rfl⟩
  obtain ⟨stem',heq⟩ := h
  have hlast := congrArg List.getLast? heq
  rw [List.getLast?_append_of_ne_nil _ (by decide),List.getLast?_append_of_ne_nil _ (by decide)] at hlast
  exact absurd hlast (by decide)

lemma parseBackupFileName_of_append {stem kind : Bytes} (hkind : kind ∈ backupKinds) :
    parseBackupFileName (stem ++ (lit "." ++ kind)) = (stem,lit "." ++ kind) := by
  have hne : ∀ suffix : Bytes,suffix ≠ [] → trimSuffix (stem ++ suffix) suffix ≠ stem ++ suffix := by
    intro suffix hsuffix heq
    rw [trimSuffix_of_append,List.self_eq_append_right] at heq
    exact hsuffix heq
  rw [backupKinds,List.mem_pair] at hkind
  obtain rfl | rfl := hkind
  · rw [parseBackupFileName]
    rw [show lit "." ++ lit "archive" = lit ".archive" by decide,if_pos (hne _ (by decide)),trimSuffix_of_append]
  · have hother : trimSuffix (stem ++ lit ".requests") (lit ".archive") = stem ++ lit ".requests" :=
      if_neg fun h => not_archive_requests (List.isSuffixOf_iff_suffix.mp h) ⟨stem,rfl⟩
    rw [parseBackupFileName]
    rw [show lit "." ++ lit "requests" = lit ".requests" by decide,if_neg (not_not.mpr hother),if_pos (hne _ (by decide)),
      trimSuffix_of_append]

lemma suffixed_iff {stem kind : Bytes} (hkind : kind ∈ backupKinds) : Suffixed opts (stem ++ (lit "." ++ kind)) ↔
    kind = lit "archive" ∨ kind = lit "requests" ∧ opts.excludeRequests = false := by
  rw [backupKinds,List.mem_pair] at hkind
  obtain rfl | rfl := hkind
  · exact iff_of_true (.inl ⟨stem,rfl⟩) (.inl rfl)
  · have hrequests : lit ".requests" <:+ stem ++ (lit "." ++ lit "requests") := ⟨stem,rfl⟩
    have hother : lit "requests" ≠ lit "archive" := by decide
    rw [Suffixed,or_iff_right fun h => not_archive_requests h hrequests,and_iff_right hrequests,or_iff_right hother,
      and_iff_right rfl]

lemma parseBackupFileName_of_not_suffix {path : Bytes} (harchive : ¬lit ".archive" <:+ path)
    (hrequests : ¬lit ".requests" <:+ path) : (parseBackupFileName path).1 = [] := by
  have hkeep {suffix : Bytes} (h : ¬suffix <:+ path) : trimSuffix path suffix = path :=
    if_neg fun hsuffix => h (List.isSuffixOf_iff_suffix.mp hsuffix)
  rw [parseBackupFileName,if_neg (not_not.mpr (hkeep harchive)),if_neg (not_not.mpr (hkeep hrequests))]

/-- For a path with a date in its name the tests on the suffix are those on the name. -/
lemma keptSuffix_iff (folder : Bytes) (hlength : 10 ≤ name.length) :
    ((parseBackupFileName (folder ++ name)).1 ≠ [] ∧
      (opts.excludeRequests = false ∨ (parseBackupFileName (folder ++ name)).2 = lit ".archive")) ↔ Suffixed opts name := by
  have hends (suffix : Bytes) (hshort : suffix.length ≤ 10) : suffix <:+ folder ++ name ↔ suffix <:+ name :=
    ⟨fun h => List.suffix_of_suffix_length_le h (List.suffix_append folder name) (hshort.trans hlength),
      fun h => h.trans (List.suffix_append folder name)⟩
  have hstem {stem kind : Bytes} (hshort : (lit "." ++ kind).length < 10) (heq : stem ++ (lit "." ++ kind) = folder ++ name) :
      stem ≠ [] := by
    rintro rfl
    have hpath := congrArg List.length heq
    have hsum : (folder ++ name).length = folder.length+name.length := List.length_append
    rw [List.nil_append] at hpath
    omega
  rw [Suffixed,← hends (lit ".archive") (by decide),← hends (lit ".requests") (by decide),← Suffixed]
  by_cases hkind : ∃ stem,∃ kind ∈ backupKinds,stem ++ (lit "." ++ kind) = folder ++ name
  · obtain ⟨stem,kind,hkind,heq⟩ := hkind
    have hshort : ∀ kind ∈ backupKinds,(lit "." ++ kind).length < 10 := by decide
    have hsuffix : ∀ kind ∈ backupKinds,(lit "." ++ kind = lit ".archive" ↔ kind = lit "archive") := by decide
    rw [← heq,parseBackupFileName_of_append hkind,suffixed_iff hkind,and_iff_right (hstem (hshort kind hkind) heq)]
    dsimp only
    rw [hsuffix kind hkind]
    rw [backupKinds,List.mem_pair] at hkind
    obtain rfl | rfl := hkind
    · exact iff_of_true (.inr rfl) (.inl rfl)
    · have hother : lit "requests" ≠ lit "archive" := by decide
      rw [or_iff_left hother,or_iff_right hother,and_iff_right rfl]
  · have hnone (kind : Bytes) (hmem : kind ∈ backupKinds) : ¬lit "." ++ kind <:+ folder ++ name := by
      rintro ⟨stem,heq⟩
      exact hkind ⟨stem,kind,hmem,heq⟩
    have harchive : ¬lit ".archive" <:+ folder ++ name := hnone (lit "archive") (by decide)
    have hrequests : ¬lit ".requests" <:+ folder ++ name := hnone (lit "requests") (by decide)
    refine iff_of_false (fun h => h.1 (parseBackupFileName_of_not_suffix harchive hrequests)) ?_
    exact not_or.mpr ⟨harchive,fun h => hrequests h.1⟩

lemma FirstDate.length_le (h : FirstDate name d) : 10 ≤ name.length := by
  obtain ⟨before,rest,rfl,-⟩ := h
  rw [List.length_append,List.length_append,d.length_text]
  omega

end Names

section Files
variable {dir : Listing} {name : Bytes} (hname : name ∈ dir.names) {d : CalendarDate} {opts : RestoreOptions}
include hname

lemma filepathBase_path : filepathBase (dir.path name) = name :=
  filepathBase_append dir.folder_slash (dir.named name hname).1 (dir.named name hname).2

lemma firstDate_path_iff : firstDate (dir.path name) = some d ↔ FirstDate name d := by
  have hbase : filepathBase ([] ++ name) = name :=
    filepathBase_append (.inl rfl) (dir.named name hname).1 (dir.named name hname).2
  rw [List.nil_append] at hbase
  rw [firstDate,filepathBase_path hname,parseBackupDate_eq_some_iff,hbase]

lemma backupDate_path_iff : backupDate (dir.path name) = some d ↔ BackupOf name d := by
  rw [backupDate,filepathBase_path hname,Option.map_eq_some_iff]
  constructor
  · rintro ⟨⟨info,kind⟩,hparsed,hd⟩
    obtain ⟨app,env,d',hparts,hkind,hname,rfl⟩ := parseBackupName_eq_some_iff.mp hparsed
    obtain rfl : d' = d := hd
    exact ⟨app,env,kind,hparts,hkind,hname⟩
  · rintro ⟨app,env,kind,hparts,hkind,hname⟩
    exact ⟨(_,kind),parseBackupName_eq_some_iff.mpr ⟨app,env,d,hparts,hkind,hname,rfl⟩,rfl⟩

lemma restored_path_iff :
    Restored opts (dir.path name) ↔ Suffixed opts name ∧ ∃ e,FirstDate name e ∧ InPeriod opts e := by
  unfold Restored Kept
  simp only [firstDate_path_iff hname]
  constructor
  · rintro ⟨e,he,hstem,hfrom,hto,hsuffix⟩
    exact ⟨(keptSuffix_iff dir.folder he.length_le).mp ⟨hstem,hsuffix⟩,e,he,hfrom,hto⟩
  · rintro ⟨hsuffixed,e,he,hfrom,hto⟩
    obtain ⟨hstem,hsuffix⟩ := (keptSuffix_iff dir.folder he.length_le).mpr hsuffixed
    exact ⟨e,he,hstem,hfrom,hto,hsuffix⟩

lemma selected_path_iff : Selected opts (dir.path name) ↔ ∃ d,Wanted opts name d := by
  rw [Selected,filepathBase_path hname]
  constructor
  · rintro ⟨hglob,info,kind,hparsed,hsuffix,hperiod⟩
    obtain ⟨app,env,d,hparts,hkind,rfl,rfl⟩ := parseBackupName_eq_some_iff.mp hparsed
    exact ⟨d,hglob,(suffixed_iff hkind).mpr hsuffix,⟨app,env,kind,hparts,hkind,rfl⟩,hperiod⟩
  · rintro ⟨d,hglob,hsuffixed,⟨app,env,kind,hparts,hkind,rfl⟩,hperiod⟩
    exact ⟨hglob,_,kind,parseBackupName_eq_some_iff.mpr ⟨app,env,d,hparts,hkind,rfl,rfl⟩,(suffixed_iff hkind).mp hsuffixed,
      hperiod⟩

end Files

/-- The names in a directory that is restored as it should be. -/
structure WellNamed (opts : RestoreOptions) (dir : Listing) : Prop where
  /-- No other file has a day of the period as the first date in its name. -/
  ours : ∀ name ∈ dir.names,Suffixed opts name → ∀ e,FirstDate name e → InPeriod opts e →
    opts.matchesGlob name = true ∧ ∃ d,BackupOf name d
  /-- The first date in the name of a backup is in the period together with the date at its end. -/
  period : ∀ name ∈ dir.names,Suffixed opts name → opts.matchesGlob name = true → ∀ d,BackupOf name d →
    ((∃ e,FirstDate name e ∧ InPeriod opts e) ↔ InPeriod opts d)
  /-- The first dates are in the same order as those at the end. -/
  order : ∀ p ∈ dir.names,∀ q ∈ dir.names,∀ d d' e e',Wanted opts p d → Wanted opts q d' → FirstDate p e → FirstDate q e' →
    (InOrder ArchiveInfo.date ArchiveInfo.path ⟨e,dir.path p⟩ ⟨e',dir.path q⟩ ↔
      InOrder ArchiveInfo.date ArchiveInfo.path ⟨d,dir.path p⟩ ⟨d',dir.path q⟩)

section WellNamed
variable {dir : Listing} {opts : RestoreOptions}

lemma BackupOf.unique {name : Bytes} {d d' : CalendarDate} (hname : name ∈ dir.names) (h : BackupOf name d)
    (h' : BackupOf name d') : d = d' :=
  Option.some.inj (((backupDate_path_iff hname).mpr h).symm.trans ((backupDate_path_iff hname).mpr h'))

lemma restored_iff_selected {name : Bytes} (hname : name ∈ dir.names) :
    (Restored opts (dir.path name) ↔ Selected opts (dir.path name)) ↔
      (Suffixed opts name → ∀ e,FirstDate name e → InPeriod opts e → opts.matchesGlob name = true ∧ ∃ d,BackupOf name d) ∧
      (Suffixed opts name → opts.matchesGlob name = true → ∀ d,BackupOf name d →
        ((∃ e,FirstDate name e ∧ InPeriod opts e) ↔ InPeriod opts d)) := by
  rw [restored_path_iff hname,selected_path_iff hname]
  constructor
  · intro hiff
    refine ⟨fun hsuffixed e he hperiod => ?_,fun hsuffixed hglob d hd => ⟨fun hfirst => ?_,fun hperiod => ?_⟩⟩
    · obtain ⟨d,hwanted⟩ := hiff.mp ⟨hsuffixed,e,he,hperiod⟩
      exact ⟨hwanted.glob,d,hwanted.backup⟩
    · obtain ⟨d',hwanted⟩ := hiff.mp ⟨hsuffixed,hfirst⟩
      exact hd.unique hname hwanted.backup ▸ hwanted.period
    · exact (hiff.mpr ⟨d,hglob,hsuffixed,hd,hperiod⟩).2
  · rintro ⟨hours,hperiod⟩
    constructor
    · rintro ⟨hsuffixed,e,he,hin⟩
      obtain ⟨hglob,d,hd⟩ := hours hsuffixed e he hin
      exact ⟨d,hglob,hsuffixed,hd,(hperiod hsuffixed hglob d hd).mp ⟨e,he,hin⟩⟩
    · rintro ⟨d,hwanted⟩
      exact ⟨hwanted.suffixed,(hperiod hwanted.suffixed hwanted.glob d hwanted.backup).mpr hwanted.period⟩

lemma dateOrder_iff {date : Bytes → Option CalendarDate} {p q : Bytes} {d d' : CalendarDate} (hp : date p = some d)
    (hq : date q = some d') : DateOrder date p q ↔ InOrder ArchiveInfo.date ArchiveInfo.path ⟨d,p⟩ ⟨d',q⟩ := by
  simp [DateOrder,hp,hq]

end WellNamed

/-! Archives that are missed and archives that are restored by mistake. -/

def yearStart : CalendarDate := (CalendarDate.ofNumbers 2021 1 1).get rfl

def yearEnd : CalendarDate := (CalendarDate.ofNumbers 2021 12 31).get rfl

/-- All backups of the year. -/
def yearOptions : RestoreOptions := ⟨fun _ => true,false,yearStart,yearEnd⟩

/-- The glob logjam-cart*. -/
def cartOptions : RestoreOptions := ⟨(lit "logjam-cart").isPrefixOf,false,yearStart,yearEnd⟩

/-- The stream has a date in its name. -/
def datedArchive : Bytes := lit "backups/logjam-sale-2020-01-01-production-2021-05-05.archive"

def shopArchive : Bytes := lit "backups/logjam-shop-production-2021-05-05.archive"

lemma restoreFromBackups_singleton (go : SliceSort) (opts : RestoreOptions) (path : Bytes) :
    restoreFromBackups go opts [path] = ((extractArchiveInfo path).bind (restoreArchiveOf opts)).toList := by
  cases hinfo : extractArchiveInfo path with
  | none =>
    rw [restoreFromBackups,List.filterMap_cons_none hinfo,List.filterMap_nil,List.perm_nil.mp (go.perm _ [])]
    rfl
  | some a =>
    rw [restoreFromBackups,List.filterMap_cons_some hinfo,List.filterMap_nil,List.perm_singleton.mp (go.perm _ [a])]
    cases hrestore : restoreArchiveOf opts a with
    | none => simp [hrestore]
    | some restored => simp [hrestore]

end Logjam.Backup
