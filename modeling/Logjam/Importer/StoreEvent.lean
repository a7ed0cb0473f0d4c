import Logjam.Importer.RequestWriter

/-! Events are stored like requests, but the members of an event are converted twice: before its uuid has been
replaced by an id, and after it. -/
namespace Logjam.Importer
open Logjam.Library

variable {lib : JsonLib} {oid : Bytes} {request : JObject}

/-- The ids of a document are binary. -/
inductive EventField
  | member (val : Bson)
  | uuid (text : Bytes)
  | oid (id : Bytes)

abbrev EventDocument := List (Bytes × EventField)

/-- json_object_to_bson at the end of a document. -/
def appendMembers (document : EventDocument) (request : JObject) : Except Fault EventDocument := do
  let members ← jsonObjectToBson [] request
  return document ++ members.map fun m => (m.1,.member m.2)

/-- The id of an event, and what is left of its members. An id is generated unless the uuid has the size of
one. -/
def extractEventId (lib : JsonLib) (oid : Bytes) (request : JObject) : Except Fault (EventField × JObject) :=
  match request.lookup (lit "uuid") with
  | none => .ok (.oid oid,request)
  | some uuidObj => do
    let uuid ← jsonString lib uuidObj
    return (if uuid.length ≠ 32 then .oid oid else .uuid uuid,request.del (lit "uuid"))

/-- The document that is inserted into the collection. -/
def storeEvent (lib : JsonLib) (oid : Bytes) (request : JObject) : Except Fault EventDocument := do
  let document ← appendMembers [] request
  let (id,request) ← extractEventId lib oid request
  appendMembers (document ++ [(lit "_id",id)]) request

/-! Names. -/

/-- The names are the safe keys of the members, in their order. -/
def NamedAfter (request : JObject) (names : List Bytes) : Prop :=
  List.Forall₂ (fun m name => safeKey m.1 = .ok name) request names

/-- Every kind of value is appended as one entry. -/
lemma jsonKeyToBsonKey_name {b d : BsonDocument} {key : Bytes} {val : Json} (h : jsonKeyToBsonKey b key val = .ok d) :
    ∃ safe v,safeKey key = .ok safe ∧ d = b ++ [(safe,v)] := by
  rw [jsonKeyToBsonKey.eq_def] at h
  obtain ⟨safe,hsafe,h⟩ := bind_eq_ok_iff.mp h
  refine ⟨safe,?_⟩
  cases val with
  | null => exact ⟨_,hsafe,(Except.ok.inj h).symm⟩
  | bool x => exact ⟨_,hsafe,(Except.ok.inj h).symm⟩
  | int n => exact ⟨_,hsafe,(Except.ok.inj h).symm⟩
  | double x => exact ⟨_,hsafe,(Except.ok.inj h).symm⟩
  | str s =>
    obtain ⟨str,-,h⟩ := bind_eq_ok_iff.mp h
    split_ifs at h
    · exact ⟨_,hsafe,(Except.ok.inj h).symm⟩
    · exact ⟨_,hsafe,(Except.ok.inj h).symm⟩
  | arr xs =>
    obtain ⟨sub,-,h⟩ := bind_eq_ok_iff.mp h
    exact ⟨_,hsafe,(Except.ok.inj h).symm⟩
  | obj members =>
    obtain ⟨sub,-,h⟩ := bind_eq_ok_iff.mp h
    exact ⟨_,hsafe,(Except.ok.inj h).symm⟩

lemma jsonObjectToBson_names {b d : BsonDocument} (h : jsonObjectToBson b request = .ok d) :
    ∃ names,NamedAfter request names ∧ d.map (·.1) = b.map (·.1) ++ names := by
  induction request generalizing b with
  | nil =>
    rw [jsonObjectToBson] at h
    obtain rfl := Except.ok.inj h
    exact ⟨[],.nil,(List.append_nil _).symm⟩
  | cons m request ih =>
    rw [jsonObjectToBson.eq_def] at h
    obtain ⟨b',hb',h⟩ := bind_eq_ok_iff.mp h
    obtain ⟨safe,v,hsafe,rfl⟩ := jsonKeyToBsonKey_name hb'
    obtain ⟨names,hnames,hd⟩ := ih h
    refine ⟨safe::names,.cons hsafe hnames,?_⟩
    rw [hd,List.map_append,List.append_assoc]
    rfl

lemma appendMembers_names {document d : EventDocument} (h : appendMembers document request = .ok d) :
    ∃ names,NamedAfter request names ∧ d.map (·.1) = document.map (·.1) ++ names := by
  obtain ⟨members,hmembers,h⟩ := bind_eq_ok_iff.mp h
  obtain ⟨names,hnames,hkeys⟩ := jsonObjectToBson_names hmembers
  refine ⟨names,hnames,?_⟩
  rw [← Except.ok.inj h,List.map_append,List.map_map]
  exact congrArg _ hkeys

lemma extractEventId_request {id : EventField} {rest : JObject} (h : extractEventId lib oid request = .ok (id,rest)) :
    rest = request ∨ rest = request.del (lit "uuid") := by
  unfold extractEventId at h
  split at h
  · exact .inl (Prod.mk.inj (Except.ok.inj h)).2.symm
  · obtain ⟨uuid,-,h⟩ := bind_eq_ok_iff.mp h
    exact .inr (Prod.mk.inj (Except.ok.inj h)).2.symm

/-- All members, the id, and the members other than the uuid once more. -/
theorem storeEvent_names {document : EventDocument} (h : storeEvent lib oid request = .ok document) :
    ∃ names rest again,NamedAfter request names ∧ (∀ m ∈ request,m.1 ≠ lit "uuid" → m ∈ rest) ∧ NamedAfter rest again ∧
      document.map (·.1) = names ++ lit "_id"::again := by
  obtain ⟨first,hfirst,h⟩ := bind_eq_ok_iff.mp h
  obtain ⟨⟨id,rest⟩,hid,h⟩ := bind_eq_ok_iff.mp h
  obtain ⟨names,hnames,hkeys⟩ := appendMembers_names hfirst
  obtain ⟨again,hagain,hkeys'⟩ := appendMembers_names h
  refine ⟨names,rest,again,hnames,fun m hm hne => ?_,hagain,?_⟩
  · rcases extractEventId_request hid with rfl | rfl
    · exact hm
    · exact List.mem_filter.mpr ⟨hm,by simpa using hne⟩
  · rw [hkeys',List.map_append,hkeys,List.append_assoc]
    rfl

/-- One id, at most one entry for any other member, and no uuid. -/
structure FieldsOnce (request : JObject) (document : EventDocument) : Prop where
  id : (document.map (·.1)).count (lit "_id") = 1
  members : ∀ m ∈ request,∀ name,safeKey m.1 = .ok name → name ≠ lit "_id" → (document.map (·.1)).count name ≤ 1
  uuid : lit "uuid" ∉ document.map (·.1)

lemma NamedAfter.exists_mem {names : List Bytes} (h : NamedAfter request names) {m : Bytes × Json} (hm : m ∈ request) :
    ∃ name ∈ names,safeKey m.1 = .ok name := by
  induction h with
  | nil => cases hm
  | cons hname _ ih =>
    rcases List.mem_cons.mp hm with rfl | hm
    · exact ⟨_,List.mem_cons_self,hname⟩
    · obtain ⟨name,hmem,hsafe⟩ := ih hm
      exact ⟨name,List.mem_cons_of_mem _ hmem,hsafe⟩

lemma FieldsOnce.request_eq_nil {document : EventDocument} (h : storeEvent lib oid request = .ok document)
    (honce : FieldsOnce request document) : request = [] := by
  obtain ⟨names,rest,again,hnames,hrest,hagain,hkeys⟩ := storeEvent_names h
  refine List.eq_nil_iff_forall_not_mem.mpr fun m hm => ?_
  obtain ⟨name,hmem,hsafe⟩ := hnames.exists_mem hm
  by_cases huuid : m.1 = lit "uuid"
  · -- the uuid has been converted before it is deleted
    have hname : safeKey (lit "uuid") = .ok (lit "uuid") := by decide +kernel
    rw [huuid,hname] at hsafe
    obtain rfl := Except.ok.inj hsafe
    exact honce.uuid (hkeys ▸ List.mem_append_left _ hmem)
  · obtain ⟨name',hmem',hsafe'⟩ := hagain.exists_mem (hrest m hm huuid)
    obtain rfl : name = name' := Except.ok.inj (hsafe.symm.trans hsafe')
    have hfirst := List.count_pos_iff.mpr hmem
    have hsecond := List.count_pos_iff.mpr hmem'
    have hcount : (document.map (·.1)).count name = names.count name+(lit "_id"::again).count name := by
      rw [hkeys,List.count_append]
    rw [List.count_cons] at hcount
    by_cases hid : name = lit "_id"
    · subst hid
      have := honce.id
      omega
    · have := honce.members m hm name hsafe hid
      omega

theorem storeEvent_fieldsOnce_iff (lib : JsonLib) (oid : Bytes) (request : JObject) :
    (∃ document,storeEvent lib oid request = .ok document ∧ FieldsOnce request document) ↔ request = [] := by
  constructor
  · rintro ⟨document,h,honce⟩
    exact honce.request_eq_nil h
  · rintro rfl
    refine ⟨[(lit "_id",.oid oid)],rfl,?_,?_,?_⟩
    · change [lit "_id"].count (lit "_id") = 1
      decide
    · intro m hm
      cases hm
    · change lit "uuid" ∉ [lit "_id"]
      decide

def deployUuid : Bytes := lit "0123456789abcdef0123456789abcdef"

def deployEvent : JObject := [(lit "uuid",.str deployUuid),(lit "label",.str (lit "deploy"))]

/-- The uuid is stored beside the id, and the label twice. -/
def deployDocument : EventDocument :=
  [(lit "uuid",.member (.utf8 deployUuid)),(lit "label",.member (.utf8 (lit "deploy"))),(lit "_id",.uuid deployUuid),
    (lit "label",.member (.utf8 (lit "deploy")))]

theorem storeEvent_deployEvent :
    storeEvent .blank (lit "generated id") deployEvent = .ok deployDocument ∧ ¬FieldsOnce deployEvent deployDocument := by
  have hclean : CleanMembers deployEvent := by
    simp only [deployEvent,CleanMembers,Clean]
    decide +kernel
  have hrest : CleanMembers (deployEvent.del (lit "uuid")) := hclean.2.2
  have hid : extractEventId .blank (lit "generated id") deployEvent = .ok (.uuid deployUuid,deployEvent.del (lit "uuid")) := rfl
  refine ⟨?_,fun h => h.uuid List.mem_cons_self⟩
  simp only [storeEvent,appendMembers,jsonObjectToBson_eq _ hclean,bind,Except.bind,hid,jsonObjectToBson_eq _ hrest]
  rfl

end Logjam.Importer
