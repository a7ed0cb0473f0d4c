import Logjam.Basic.Bytes
import Logjam.Library.Ensures
import Logjam.Library.KeyedQueue
import Logjam.Library.Memory

/-! The rings of the tracker. A ring is a list of nodes in insertion order, and a hash that finds the
handle of a node by its key. The hash neither copies nor frees keys: it holds pointers to the strings
that belong to the nodes. -/
namespace Logjam.Importer.ZRing
open Logjam.Library

abbrev Addr := ℕ

structure Node (V : Type) where
  key : Addr
  item : V

/-- A ring and the memory it has allocated. The hash maps keys to list handles, the list holds node
pointers under their handles. -/
structure Ring (V : Type) where
  hash : List (Addr × Addr)
  list : KeyedQueue Addr Addr
  strings : Memory Bytes
  nodes : Memory (Node V)

variable {V : Type}

def zringNew : Ring V := ⟨[],∅,∅,∅⟩

/-- The entries with the texts of their keys. Any key of the table may be compared with another one, so
all of them are read. -/
def zhashxKeys (strings : Memory Bytes) (hash : List (Addr × Addr)) : Except Crash (List (Bytes × Addr)) :=
  hash.mapM fun e => do return (← strings.read e.1,e.2)

def zhashxLookup (strings : Memory Bytes) (hash : List (Addr × Addr)) (key : Bytes) : Except Crash (Option Addr) := do
  return (← zhashxKeys strings hash).lookup key

/-- Without a key duplicator the pointer itself is stored. A key that is present is refused. -/
def zhashxInsert (strings : Memory Bytes) (hash : List (Addr × Addr)) (key handle : Addr) :
    Except Crash (Option (List (Addr × Addr))) := do
  match ← zhashxLookup strings hash (← strings.read key) with
  | some _ => return none
  | none => return some (hash ++ [(key,handle)])

def zhashxDelete (strings : Memory Bytes) (hash : List (Addr × Addr)) (key : Bytes) :
    Except Crash (List (Addr × Addr)) := do
  let keys ← zhashxKeys strings hash
  return ((hash.zip keys).filter fun e => key != e.2.1).map Prod.fst

/-- A handle is valid until its node is deleted from the list. -/
def zlistxHandleItem (list : KeyedQueue Addr Addr) (handle : Addr) : Except Crash Addr := deref (list.lookup handle)

def zlistxAddEnd (allocator : Allocator) (list : KeyedQueue Addr Addr) (node : Addr) : Addr × KeyedQueue Addr Addr :=
  (allocator.choose list.keys,list.pushBack (allocator.choose list.keys) node)

def zlistxFirst (list : KeyedQueue Addr Addr) : Option Addr := list.values.head?

/-- Items are not NULL. -/
def zringInsert (allocator : Allocator) (self : Ring V) (key : Bytes) (item : V) : Except Crash (ℕ × Ring V) := do
  match ← zhashxLookup self.strings self.hash key with
  | some _ => return (0,self)
  | none =>
    let (keyPtr,strings) := self.strings.malloc allocator key
    let (node,nodes) := self.nodes.malloc allocator ⟨keyPtr,item⟩
    let (handle,list) := zlistxAddEnd allocator self.list node
    match ← zhashxInsert strings self.hash keyPtr handle with
    | none => throw .failedAssertion
    | some hash => return (1,⟨hash,list,strings,nodes⟩)

def zringLookup (self : Ring V) (key : Bytes) : Except Crash (Option V) := do
  match ← zhashxLookup self.strings self.hash key with
  | none => return none
  | some handle =>
    let node ← self.nodes.read (← zlistxHandleItem self.list handle)
    return some node.item

/-- A string of the caller, or the key of a node. -/
inductive KeyArg
  | caller (text : Bytes)
  | stored (p : Addr)

def KeyArg.text (strings : Memory Bytes) : KeyArg → Except Crash Bytes
  | .caller text => .ok text
  | .stored p => strings.read p

/-- The key is used for the last time before the string of the node is freed. -/
def zringDelete (self : Ring V) (key : KeyArg) : Except Crash (Option V × Ring V) := do
  match ← zhashxLookup self.strings self.hash (← key.text self.strings) with
  | none => return (none,self)
  | some handle =>
    let nodePtr ← zlistxHandleItem self.list handle
    let node ← self.nodes.read nodePtr
    let hash ← zhashxDelete self.strings self.hash (← key.text self.strings)
    let list := self.list.erase handle
    let strings ← self.strings.free node.key
    let nodes ← self.nodes.free nodePtr
    return (some node.item,⟨hash,list,strings,nodes⟩)

def zringShift (self : Ring V) : Except Crash (Option V × Ring V) :=
  match zlistxFirst self.list with
  | none => .ok (none,self)
  | some nodePtr => do
    let node ← self.nodes.read nodePtr
    zringDelete self (.stored node.key)

def zringSize (self : Ring V) : ℕ := self.hash.length

def zringFirst (self : Ring V) : Except Crash (Option V) :=
  match zlistxFirst self.list with
  | none => .ok none
  | some nodePtr => do
    let node ← self.nodes.read nodePtr
    return some node.item

/-- An operation. Memory comes from whatever allocator there is at the time. -/
inductive Op (V : Type)
  | insert (allocator : Allocator) (key : Bytes) (item : V)
  | lookup (key : Bytes)
  | first
  | shift
  | delete (key : Bytes)
  | size

inductive Answer (V : Type)
  | code (rc : ℕ)
  | item (item : Option V)
  | count (n : ℕ)
  deriving DecidableEq

def step (self : Ring V) : Op V → Except Crash (Ring V × Answer V)
  | .insert allocator key item => do
    let (rc,next) ← zringInsert allocator self key item
    return (next,.code rc)
  | .lookup key => do return (self,.item (← zringLookup self key))
  | .first => do return (self,.item (← zringFirst self))
  | .shift => do
    let (item,next) ← zringShift self
    return (next,.item item)
  | .delete key => do
    let (item,next) ← zringDelete self (.caller key)
    return (next,.item item)
  | .size => return (self,.count (zringSize self))

/-- What a ring is for: a map that remembers the order of insertion. -/
def mapStep (q : KeyedQueue Bytes V) : Op V → KeyedQueue Bytes V × Answer V
  | .insert _ key item => (q.pushBack key item,.code (if key ∈ q then 0 else 1))
  | .lookup key => (q,.item (q.lookup key))
  | .first => (q,.item q.values.head?)
  | .shift => (q.shift.2,.item q.shift.1)
  | .delete key => (q.erase key,.item (q.lookup key))
  | .size => (q,.count q.size)

def run (ops : List (Op V)) : Except Crash (Ring V × List (Answer V)) :=
  ops.foldlM (fun r op => do
    let (next,answer) ← step r.1 op
    return (next,r.2 ++ [answer])) (zringNew,[])

def mapRun (ops : List (Op V)) : KeyedQueue Bytes V × List (Answer V) :=
  ops.foldl (fun q op => ((mapStep q.1 op).1,q.2 ++ [(mapStep q.1 op).2])) (∅,[])

/-- Hash and list hold the same keys, and the strings of all keys are alive. -/
structure Consistent (ring : Ring V) : Prop where
  node_of_entry : ∀ e ∈ ring.hash,∃ nodePtr node,ring.list.lookup e.2 = some nodePtr ∧
    ring.nodes.lookup nodePtr = some node ∧ node.key = e.1
  entry_of_node : ∀ handle nodePtr,ring.list.lookup handle = some nodePtr →
    ∃ node,ring.nodes.lookup nodePtr = some node ∧ (node.key,handle) ∈ ring.hash
  key_alive : ∀ e ∈ ring.hash,e.1 ∈ ring.strings

/-! A ring in memory. -/

/-- All that belongs to one entry. -/
structure Cell (V : Type) where
  handle : Addr
  node : Addr
  key : Addr
  text : Bytes
  item : V

structure Represents (ring : Ring V) (q : KeyedQueue Bytes V) (cells : List (Cell V)) : Prop where
  list_eq : ring.list.entries = cells.map fun c => ⟨c.handle,c.node⟩
  queue_eq : q.entries = cells.map fun c => ⟨c.text,c.item⟩
  hash_eq : ring.hash = cells.map fun c => (c.key,c.handle)
  node_eq : ∀ c ∈ cells,ring.nodes.lookup c.node = some ⟨c.key,c.item⟩
  text_eq : ∀ c ∈ cells,ring.strings.lookup c.key = some c.text
  nodup : (cells.map Cell.node).Nodup

def findCell (cells : List (Cell V)) (key : Bytes) : Option (Cell V) := cells.find? fun c => key == c.text

lemma lookup_map_handle (cells : List (Cell V)) (key : Bytes) :
    (cells.map fun c => (c.text,c.handle)).lookup key = (findCell cells key).map Cell.handle := by
  induction cells with
  | nil => rfl
  | cons c cells ih =>
    rw [List.map_cons,List.lookup_cons,findCell,List.find?_cons]
    cases key == c.text with
    | true => rfl
    | false => exact ih

lemma dlookup_map_item (cells : List (Cell V)) (key : Bytes) :
    (cells.map fun c => (⟨c.text,c.item⟩ : Σ _ : Bytes,V)).dlookup key = (findCell cells key).map Cell.item := by
  induction cells with
  | nil => rfl
  | cons c cells ih =>
    rw [List.map_cons,findCell,List.find?_cons]
    by_cases h : key = c.text
    · subst h
      simp
    · rw [beq_false_of_ne h,List.dlookup_cons_ne _ _ h]
      exact ih

lemma kerase_middle {K W : Type*} [DecidableEq K] {k : K} {w : W} {l r : List (Σ _ : K,W)} (h : k ∉ l.keys) :
    (l ++ ⟨k,w⟩::r).kerase k = l ++ r := by
  rw [List.kerase_append_right h]
  exact congrArg (l ++ ·) (List.kerase_cons_eq rfl)

lemma findCell_eq_some {cells : List (Cell V)} {key : Bytes} {c : Cell V} (h : findCell cells key = some c) :
    c ∈ cells ∧ key = c.text := by
  have hkey := List.find?_some h
  exact ⟨List.mem_of_find?_eq_some h,beq_iff_eq.mp hkey⟩

section
variable {ring : Ring V} {q : KeyedQueue Bytes V} {cells : List (Cell V)} (h : Represents ring q cells)
include h

lemma Represents.consistent : Consistent ring where
  node_of_entry e he := by
    rw [h.hash_eq] at he
    obtain ⟨c,hc,rfl⟩ := List.mem_map.mp he
    refine ⟨c.node,_,?_,h.node_eq c hc,rfl⟩
    exact AList.mem_lookup_iff.mpr (h.list_eq ▸ List.mem_map_of_mem hc)
  entry_of_node handle nodePtr hlookup := by
    have hmem := AList.mem_lookup_iff.mp hlookup
    rw [h.list_eq] at hmem
    obtain ⟨c,hc,heq⟩ := List.mem_map.mp hmem
    cases heq
    exact ⟨_,h.node_eq c hc,h.hash_eq ▸ List.mem_map_of_mem hc⟩
  key_alive e he := by
    rw [h.hash_eq] at he
    obtain ⟨c,hc,rfl⟩ := List.mem_map.mp he
    exact AList.lookup_isSome.mp (by rw [h.text_eq c hc]; rfl)

lemma Represents.lookup_eq (key : Bytes) : q.lookup key = (findCell cells key).map Cell.item := by
  rw [AList.lookup,h.queue_eq]
  exact dlookup_map_item cells key

lemma Represents.mem_iff (key : Bytes) : key ∈ q ↔ (findCell cells key).isSome := by
  rw [← AList.lookup_isSome,h.lookup_eq,Option.isSome_map]

lemma Represents.zhashxKeys {strings : Memory Bytes} (hstrings : ∀ c ∈ cells,strings.lookup c.key = some c.text) :
    zhashxKeys strings ring.hash = .ok (cells.map fun c => (c.text,c.handle)) := by
  rw [ZRing.zhashxKeys,mapM_eq_ok_iff,h.hash_eq,List.forall₂_map_left_iff,List.forall₂_map_right_iff]
  refine List.forall₂_same.mpr fun c hc => ?_
  rw [Memory.read_of_lookup (hstrings c hc)]
  rfl

lemma Represents.zhashxLookup {strings : Memory Bytes} (hstrings : ∀ c ∈ cells,strings.lookup c.key = some c.text)
    (key : Bytes) : zhashxLookup strings ring.hash key = .ok ((findCell cells key).map Cell.handle) := by
  rw [ZRing.zhashxLookup,h.zhashxKeys hstrings]
  exact congrArg Except.ok (lookup_map_handle cells key)

lemma Represents.zlistxHandleItem {c : Cell V} (hc : c ∈ cells) :
    zlistxHandleItem ring.list c.handle = .ok c.node := by
  have hlookup : ring.list.lookup c.handle = some c.node :=
    AList.mem_lookup_iff.mpr (h.list_eq ▸ List.mem_map_of_mem hc)
  rw [ZRing.zlistxHandleItem,hlookup]
  rfl

lemma Represents.zlistxFirst : zlistxFirst ring.list = cells.head?.map Cell.node := by
  rw [ZRing.zlistxFirst,KeyedQueue.values,h.list_eq,List.map_map,List.head?_map]
  rfl

/-! Insertion. -/

lemma Represents.zhashxInsert {strings : Memory Bytes} (hstrings : ∀ c ∈ cells,strings.lookup c.key = some c.text)
    {key : Addr} {text : Bytes} (hkey : strings.lookup key = some text) (hfind : findCell cells text = none)
    (handle : Addr) : zhashxInsert strings ring.hash key handle = .ok (some (ring.hash ++ [(key,handle)])) := by
  rw [ZRing.zhashxInsert,Memory.read_of_lookup hkey]
  change ZRing.zhashxLookup strings ring.hash text >>= _ = _
  rw [h.zhashxLookup hstrings,hfind]
  rfl

lemma Represents.append {strings : Memory Bytes} {nodes : Memory (Node V)} {c : Cell V}
    (hstrings : ∀ d ∈ cells ++ [c],strings.lookup d.key = some d.text)
    (hnodes : ∀ d ∈ cells ++ [c],nodes.lookup d.node = some ⟨d.key,d.item⟩)
    (hnode : ∀ d ∈ cells,d.node ≠ c.node) (hhandle : c.handle ∉ ring.list) (htext : c.text ∉ q) :
    Represents ⟨ring.hash ++ [(c.key,c.handle)],ring.list.pushBack c.handle c.node,strings,nodes⟩
      (q.pushBack c.text c.item) (cells ++ [c]) where
  list_eq := by rw [KeyedQueue.entries_pushBack hhandle,h.list_eq,List.map_append,List.map_singleton]
  queue_eq := by rw [KeyedQueue.entries_pushBack htext,h.queue_eq,List.map_append,List.map_singleton]
  hash_eq := by rw [h.hash_eq,List.map_append,List.map_singleton]
  node_eq := hnodes
  text_eq := hstrings
  nodup := by
    rw [List.map_append,List.map_singleton,List.nodup_append]
    refine ⟨h.nodup,List.nodup_singleton _,?_⟩
    simpa using hnode

lemma Represents.insert (allocator : Allocator) (key : Bytes) (item : V) :
    Yields (zringInsert allocator ring key item) fun r =>
      r.1 = (if key ∈ q then 0 else 1) ∧ ∃ cells',Represents r.2 (q.pushBack key item) cells' := by
  rw [zringInsert,h.zhashxLookup h.text_eq]
  cases hfind : findCell cells key with
  | some c =>
    have hmem : key ∈ q := (h.mem_iff key).mpr (by rw [hfind]; rfl)
    refine Yields.ok ⟨(if_pos hmem).symm,cells,?_⟩
    rwa [KeyedQueue.pushBack,dif_pos hmem]
  | none =>
    have hmem : key ∉ q := fun hq => absurd ((h.mem_iff key).mp hq) (by rw [hfind]; exact Bool.false_ne_true)
    have hstrings : ∀ c ∈ cells,(ring.strings.malloc allocator key).2.lookup c.key = some c.text :=
      fun c hc => Memory.lookup_malloc (h.text_eq c hc) key
    have hself := Memory.lookup_malloc_self allocator ring.strings key
    have hinsert := h.zhashxInsert hstrings hself hfind (allocator.choose ring.list.keys)
    change Yields (ZRing.zhashxInsert (ring.strings.malloc allocator key).2 ring.hash
      (ring.strings.malloc allocator key).1 (allocator.choose ring.list.keys) >>= _) _
    rw [hinsert]
    refine Yields.ok ⟨(if_neg hmem).symm,_,h.append (c := ⟨_,_,_,key,item⟩) ?_ ?_ ?_ (allocator.fresh _) hmem⟩
    · exact List.forall_mem_append.mpr ⟨hstrings,List.forall_mem_singleton.mpr hself⟩
    · refine List.forall_mem_append.mpr ⟨fun c hc => Memory.lookup_malloc (h.node_eq c hc) _,?_⟩
      exact List.forall_mem_singleton.mpr (Memory.lookup_malloc_self _ _ _)
    · exact fun c hc => Memory.ne_choose allocator (h.node_eq c hc)

/-! Deletion. -/

lemma Represents.zhashxDelete (key : Bytes) : zhashxDelete ring.strings ring.hash key =
    .ok ((cells.filter fun c => key != c.text).map fun c => (c.key,c.handle)) := by
  rw [ZRing.zhashxDelete,h.zhashxKeys h.text_eq,h.hash_eq]
  change Except.ok _ = _
  rw [List.zip_map',List.filter_map,List.map_map]
  rfl

end

lemma ne_of_nodup_middle {β : Type} {f : Cell V → β} {before after : List (Cell V)} {c : Cell V}
    (h : ((before ++ c::after).map f).Nodup) : ∀ d ∈ before ++ after,f d ≠ f c := by
  rw [List.map_append,List.map_cons,List.nodup_middle,List.nodup_cons,← List.map_append] at h
  intro d hd heq
  exact h.1 (heq ▸ List.mem_map_of_mem hd)

section
variable {ring : Ring V} {q : KeyedQueue Bytes V} {before after : List (Cell V)} {c : Cell V}
  (h : Represents ring q (before ++ c::after))
include h

lemma Represents.handle_ne : ∀ d ∈ before ++ after,d.handle ≠ c.handle := by
  have hkeys : (before ++ c::after).map Cell.handle = ring.list.keys := by
    rw [AList.keys,List.keys,h.list_eq,List.map_map]
    rfl
  exact ne_of_nodup_middle (hkeys ▸ ring.list.keys_nodup)

lemma Represents.text_ne : ∀ d ∈ before ++ after,d.text ≠ c.text := by
  have hkeys : (before ++ c::after).map Cell.text = q.keys := by
    rw [AList.keys,List.keys,h.queue_eq,List.map_map]
    rfl
  exact ne_of_nodup_middle (hkeys ▸ q.keys_nodup)

/-- Two keys that share a string have the same text. -/
lemma Represents.key_ne : ∀ d ∈ before ++ after,d.key ≠ c.key := by
  intro d hd heq
  have hself := h.text_eq c (by simp)
  have hother := h.text_eq d (by simp only [List.mem_append,List.mem_cons] at hd ⊢; tauto)
  rw [heq,hself] at hother
  exact h.text_ne d hd (Option.some.inj hother).symm

lemma Represents.remove : Represents
    ⟨(before ++ after).map fun d => (d.key,d.handle),ring.list.erase c.handle,ring.strings.erase c.key,
      ring.nodes.erase c.node⟩ (q.erase c.text) (before ++ after) := by
  have hsub : ∀ d ∈ before ++ after,d ∈ before ++ c::after := by
    intro d hd
    simp only [List.mem_append,List.mem_cons] at hd ⊢
    tauto
  constructor
  · change ring.list.entries.kerase c.handle = _
    rw [h.list_eq,List.map_append,List.map_cons,List.map_append]
    refine kerase_middle ?_
    simpa [List.keys] using fun d hd => h.handle_ne d (List.mem_append_left _ hd)
  · change q.entries.kerase c.text = _
    rw [h.queue_eq,List.map_append,List.map_cons,List.map_append]
    refine kerase_middle ?_
    simpa [List.keys] using fun d hd => h.text_ne d (List.mem_append_left _ hd)
  · rfl
  · exact fun d hd => Memory.lookup_erase (h.node_eq d (hsub d hd)) (ne_of_nodup_middle h.nodup d hd)
  · exact fun d hd => Memory.lookup_erase (h.text_eq d (hsub d hd)) (h.key_ne d hd)
  · have hnodup := h.nodup
    rw [List.map_append,List.map_cons,List.nodup_middle,List.nodup_cons,← List.map_append] at hnodup
    exact hnodup.2

lemma Represents.filter_ne : (before ++ c::after).filter (fun d => c.text != d.text) = before ++ after := by
  have hkeep : ∀ d ∈ before ++ after,(c.text != d.text) = true := fun d hd => bne_iff_ne.mpr (h.text_ne d hd).symm
  rw [List.forall_mem_append] at hkeep
  rw [List.filter_append,List.filter_cons_of_neg (by simp),List.filter_eq_self.mpr hkeep.1,
    List.filter_eq_self.mpr hkeep.2]

end

section
variable {ring : Ring V} {q : KeyedQueue Bytes V} {cells : List (Cell V)} (h : Represents ring q cells)
include h

lemma Represents.delete {key : KeyArg} {text : Bytes} (hkey : key.text ring.strings = .ok text) :
    Yields (zringDelete ring key) fun r =>
      r.1 = q.lookup text ∧ ∃ cells',Represents r.2 (q.erase text) cells' := by
  rw [zringDelete,hkey]
  change Yields (ZRing.zhashxLookup ring.strings ring.hash text >>= _) _
  rw [h.zhashxLookup h.text_eq,h.lookup_eq]
  cases hfind : findCell cells text with
  | none =>
    have hmem : text ∉ q := fun hq => absurd ((h.mem_iff text).mp hq) (by rw [hfind]; exact Bool.false_ne_true)
    have herase : q.erase text = q := AList.ext (List.kerase_of_notMem_keys hmem)
    rw [herase]
    exact Yields.ok ⟨rfl,cells,h⟩
  | some c =>
    obtain ⟨hc,rfl⟩ := findCell_eq_some hfind
    obtain ⟨before,after,rfl⟩ := List.append_of_mem hc
    change Yields (ZRing.zlistxHandleItem ring.list c.handle >>= _) _
    rw [h.zlistxHandleItem hc]
    change Yields (ring.nodes.read c.node >>= _) _
    rw [Memory.read_of_lookup (h.node_eq c hc)]
    change Yields (ZRing.zhashxDelete ring.strings ring.hash c.text >>= _) _
    rw [h.zhashxDelete,h.filter_ne]
    change Yields (ring.strings.free c.key >>= _) _
    rw [Memory.free_of_lookup (h.text_eq c hc)]
    change Yields (ring.nodes.free c.node >>= _) _
    rw [Memory.free_of_lookup (h.node_eq c hc)]
    exact Yields.ok ⟨rfl,_,h.remove⟩

lemma Represents.lookup (key : Bytes) : zringLookup ring key = .ok (q.lookup key) := by
  rw [zringLookup,h.zhashxLookup h.text_eq,h.lookup_eq]
  cases hfind : findCell cells key with
  | none => rfl
  | some c =>
    obtain ⟨hc,-⟩ := findCell_eq_some hfind
    change ZRing.zlistxHandleItem ring.list c.handle >>= _ = _
    rw [h.zlistxHandleItem hc]
    change ring.nodes.read c.node >>= _ = _
    rw [Memory.read_of_lookup (h.node_eq c hc)]
    rfl

lemma Represents.values_eq : q.values = cells.map Cell.item := by
  rw [KeyedQueue.values,h.queue_eq,List.map_map]
  rfl

lemma Represents.first : zringFirst ring = .ok q.values.head? := by
  rw [zringFirst,h.zlistxFirst,h.values_eq]
  cases cells with
  | nil => rfl
  | cons c cells =>
    change ring.nodes.read c.node >>= _ = _
    rw [Memory.read_of_lookup (h.node_eq c List.mem_cons_self)]
    rfl

lemma Represents.size : zringSize ring = q.size := by
  rw [zringSize,h.hash_eq,KeyedQueue.size,AList.keys,List.keys,h.queue_eq]
  simp

lemma Represents.shift : Yields (zringShift ring) fun r =>
    r.1 = q.shift.1 ∧ ∃ cells',Represents r.2 q.shift.2 cells' := by
  rw [zringShift,h.zlistxFirst]
  cases cells with
  | nil =>
    obtain rfl : q = ∅ := AList.ext h.queue_eq
    exact Yields.ok ⟨rfl,[],h⟩
  | cons c cells =>
    have hfirst : (q.lookup c.text,q.erase c.text) = q.shift := by
      rw [KeyedQueue.shift_of_entries h.queue_eq,h.lookup_eq,findCell,List.find?_cons_of_pos (by simp)]
      rfl
    change Yields (ring.nodes.read c.node >>= _) _
    rw [Memory.read_of_lookup (h.node_eq c List.mem_cons_self),← hfirst]
    exact h.delete (Memory.read_of_lookup (h.text_eq c List.mem_cons_self))

theorem Represents.step (op : Op V) : Yields (step ring op) fun r =>
    r.2 = (mapStep q op).2 ∧ ∃ cells',Represents r.1 (mapStep q op).1 cells' := by
  cases op with
  | insert allocator key item =>
    refine (h.insert allocator key item).bind ?_
    rintro ⟨rc,next⟩ ⟨rfl,hnext⟩
    exact Yields.ok ⟨rfl,hnext⟩
  | lookup key =>
    rw [ZRing.step,h.lookup]
    exact Yields.ok ⟨rfl,cells,h⟩
  | first =>
    rw [ZRing.step,h.first]
    exact Yields.ok ⟨rfl,cells,h⟩
  | shift =>
    refine h.shift.bind ?_
    rintro ⟨item,next⟩ ⟨rfl,hnext⟩
    exact Yields.ok ⟨rfl,hnext⟩
  | delete key =>
    refine (h.delete rfl).bind ?_
    rintro ⟨item,next⟩ ⟨rfl,hnext⟩
    exact Yields.ok ⟨rfl,hnext⟩
  | size => exact Yields.ok ⟨congrArg Answer.count h.size,cells,h⟩

end

lemma represents_new : Represents (zringNew : Ring V) ∅ [] :=
  ⟨rfl,rfl,rfl,nofun,nofun,List.nodup_nil⟩

/-- A ring answers every sequence of operations like the map, and never follows a dangling pointer. -/
theorem run_refines (ops : List (Op V)) : ∃ ring,run ops = .ok (ring,(mapRun ops).2) ∧ Consistent ring ∧
    ∃ cells,Represents ring (mapRun ops).1 cells := by
  have hrun := Yields.foldlM_foldl (R := fun (r : Ring V × List (Answer V)) (q : KeyedQueue Bytes V × List (Answer V)) =>
      r.2 = q.2 ∧ ∃ cells,Represents r.1 q.1 cells)
    (f := fun r op => do
      let (next,answer) ← step r.1 op
      return (next,r.2 ++ [answer]))
    (g := fun q op => ((mapStep q.1 op).1,q.2 ++ [(mapStep q.1 op).2])) ?_ ops
    (a := (zringNew,[])) (c := (∅,[])) ⟨rfl,[],represents_new⟩
  · obtain ⟨⟨ring,answers⟩,hok,rfl,cells,hcells⟩ := hrun
    exact ⟨ring,hok,hcells.consistent,cells,hcells⟩
  · rintro ⟨ring,answers⟩ q ⟨rfl,cells,hcells⟩ op
    refine (hcells.step op).bind ?_
    rintro ⟨next,answer⟩ ⟨rfl,hnext⟩
    exact Yields.ok ⟨rfl,hnext⟩

/-- The script of zring_test. -/
example : (run [.size,.insert .above (lit "cheese_key") 1,.size,.lookup (lit "cheese_key"),.first,
    .insert .above (lit "bread_key") 2,.size,.insert .above (lit "wine_key") 3,.delete (lit "cheese_key"),.first,
    .shift,.size,.lookup (lit "wine_key"),.first]).toOption.map Prod.snd =
    some [.count 0,.code 1,.count 1,.item (some 1),.item (some 1),.code 1,.count 2,.code 1,.item (some 1),
      .item (some 2),.item (some 2),.count 1,.item (some 3),.item (some 3)] := by decide +kernel

end Logjam.Importer.ZRing
