import Logjam.Basic.Bytes
import Logjam.Library.Endian

/-! Dump files of logjam-dump and logjam-replay: the number of frames of a message, then every frame
with its length in front, as objects of type size_t in the memory of a little-endian host. -/
namespace Logjam
open Logjam.Library.Endian

def sizeofSizeT : ℕ := 8

/-- Whether fwrite of one object returns 1, and the file afterwards. An object of size 0 is never
counted as written. -/
def fwrite (data file : Bytes) : Bool × Bytes := (data != [],file ++ data)

/-- The object if fread of one object returns 1, and what is left of the file. A file that is too
short is read to its end. -/
def fread (size : ℕ) (file : Bytes) : Option Bytes × Bytes :=
  if size = 0 then (none,file) else
  if size ≤ file.length then (some (file.take size),file.drop size) else (none,[])

def saveFrames : List Bytes → Bytes → Bool × Bytes
  | [],file => (true,file)
  | frame::rest,file =>
    match fwrite (leBytes sizeofSizeT frame.length) file with
    | (false,file) => (false,file)
    | (true,file) =>
      match fwrite frame file with
      | (false,file) => (false,file)
      | (true,file) => saveFrames rest file

def zmsgSavex (msg : List Bytes) (file : Bytes) : Bool × Bytes :=
  match fwrite (leBytes sizeofSizeT msg.length) file with
  | (false,file) => (false,file)
  | (true,file) => saveFrames msg file

/-- The loop over the frames, for the rounds that are left; there is no message if it is left by
returning NULL. -/
def loadFrames : ℕ → List Bytes → Bytes → Option (List Bytes) × Bytes
  | 0,msg,file => (some msg,file)
  | rounds+1,msg,file =>
    match fread sizeofSizeT file with
    -- the break: what has been read so far is kept
    | (none,file) => (some msg,file)
    | (some size,file) =>
      let frameSize := leValue size
      let (data,file) := fread frameSize file
      if 0 < frameSize ∧ data.isNone then (none,file)
      else loadFrames rounds (msg ++ [data.getD []]) file

/-- Frames are appended to the message that is passed, or to a new one. -/
def zmsgLoadx (self : Option (List Bytes)) (file : Bytes) : Option (List Bytes) × Bytes :=
  let msg := self.getD []
  match fread sizeofSizeT file with
  | (none,file) => (if msg = [] then none else some msg,file)
  | (some count,file) =>
    match loadFrames (leValue count) msg file with
    | (none,file) => (none,file)
    | (some msg,file) => (if msg = [] then none else some msg,file)

/-- Messages written one after the other, as logjam-dump does without looking at return codes;
whether all calls have succeeded. -/
def saveAll : List (List Bytes) → Bytes → Bool × Bytes
  | [],file => (true,file)
  | msg::rest,file =>
    let (ok,file) := zmsgSavex msg file
    let (oks,file) := saveAll rest file
    (ok && oks,file)

/-- What a number of calls return one after the other. -/
def loads : ℕ → Bytes → List (Option (List Bytes))
  | 0,_ => []
  | calls+1,file => (zmsgLoadx none file).1::loads calls (zmsgLoadx none file).2

/-- A message whose sizes are of type size_t. -/
structure Zmsg where
  frames : List Bytes
  count_lt : frames.length < 2^64
  size_lt : ∀ frame ∈ frames, frame.length < 2^64

/-! The layout of the file. -/

def frameRecord (frame : Bytes) : Bytes := leBytes sizeofSizeT frame.length ++ frame

def messageRecord (msg : List Bytes) : Bytes :=
  leBytes sizeofSizeT msg.length ++ msg.flatMap frameRecord

lemma length_frameRecord (frame : Bytes) : (frameRecord frame).length = 8+frame.length := by
  simp [frameRecord,sizeofSizeT]

lemma length_messageRecord (msg : List Bytes) :
    (messageRecord msg).length = 8+(msg.flatMap frameRecord).length := by
  simp [messageRecord,sizeofSizeT]

lemma fwrite_of_ne_nil {data : Bytes} (h : data ≠ []) (file : Bytes) : fwrite data file = (true,file ++ data) := by
  rw [fwrite,bne_iff_ne.mpr h]

lemma fwrite_size (n : ℕ) (file : Bytes) :
    fwrite (leBytes sizeofSizeT n) file = (true,file ++ leBytes sizeofSizeT n) :=
  fwrite_of_ne_nil (List.ne_nil_of_length_pos (by simp [sizeofSizeT])) file

/-- The loop stops at an empty frame. -/
lemma saveFrames_nil_cons (frames : List Bytes) (file : Bytes) :
    saveFrames ([]::frames) file = (false,file ++ leBytes sizeofSizeT 0) := by
  rw [saveFrames,List.length_nil,fwrite_size]
  simp [fwrite]

lemma saveFrames_cons {frame : Bytes} (h : frame ≠ []) (frames : List Bytes) (file : Bytes) :
    saveFrames (frame::frames) file = saveFrames frames (file ++ frameRecord frame) := by
  rw [saveFrames,fwrite_size]
  simp only [fwrite_of_ne_nil h,List.append_assoc,frameRecord]

theorem saveFrames_of_nonempty {frames : List Bytes} (h : [] ∉ frames) (file : Bytes) :
    saveFrames frames file = (true,file ++ frames.flatMap frameRecord) := by
  induction frames generalizing file with
  | nil => simp [saveFrames]
  | cons frame frames ih =>
    have hframe : frame ≠ [] := fun heq => h (heq ▸ List.mem_cons_self)
    have hframes : [] ∉ frames := fun hmem => h (List.mem_cons_of_mem _ hmem)
    rw [saveFrames_cons hframe,ih hframes,List.flatMap_cons,List.append_assoc]

theorem saveFrames_fst (frames : List Bytes) (file : Bytes) :
    (saveFrames frames file).1 = true ↔ [] ∉ frames := by
  induction frames generalizing file with
  | nil => simp [saveFrames]
  | cons frame frames ih =>
    cases frame with
    | nil => simp [saveFrames_nil_cons]
    | cons b frame => simp [saveFrames_cons (List.cons_ne_nil b frame),ih]

lemma zmsgSavex_eq (msg : List Bytes) (file : Bytes) :
    zmsgSavex msg file = saveFrames msg (file ++ leBytes sizeofSizeT msg.length) := by
  rw [zmsgSavex,fwrite_size]

theorem saveAll_fst (msgs : List (List Bytes)) (file : Bytes) :
    (saveAll msgs file).1 = true ↔ ∀ msg ∈ msgs, [] ∉ msg := by
  induction msgs generalizing file with
  | nil => simp [saveAll]
  | cons msg msgs ih => simp [saveAll,zmsgSavex_eq,saveFrames_fst,ih]

theorem saveAll_of_nonempty {msgs : List (List Bytes)} (h : ∀ msg ∈ msgs, [] ∉ msg) (file : Bytes) :
    saveAll msgs file = (true,file ++ msgs.flatMap messageRecord) := by
  induction msgs generalizing file with
  | nil => simp [saveAll]
  | cons msg msgs ih =>
    obtain ⟨hmsg,hmsgs⟩ := List.forall_mem_cons.mp h
    simp [saveAll,zmsgSavex_eq,saveFrames_of_nonempty hmsg,ih hmsgs,messageRecord]

/-! Reading back. -/

lemma fread_append {data : Bytes} {size : ℕ} (h : data.length = size) (hpos : size ≠ 0) (rest : Bytes) :
    fread size (data ++ rest) = (some data,rest) := by
  subst h
  have hle : data.length ≤ (data ++ rest).length := by simp
  rw [fread,if_neg hpos,if_pos hle,List.take_left,List.drop_left]

lemma fread_short {file : Bytes} {size : ℕ} (h : file.length < size) : fread size file = (none,[]) := by
  rw [fread,if_neg (by omega),if_neg (by omega)]

lemma fread_size (n : ℕ) (rest : Bytes) :
    fread sizeofSizeT (leBytes sizeofSizeT n ++ rest) = (some (leBytes sizeofSizeT n),rest) :=
  fread_append (length_leBytes _ _) (by decide) rest

lemma fread_size_take {cut : ℕ} (h : cut < 8) (file : Bytes) :
    fread sizeofSizeT (file.take cut) = (none,[]) :=
  fread_short (lt_of_le_of_lt (List.length_take_le _ _) h)

lemma leValue_size {n : ℕ} (h : n < 2^64) : leValue (leBytes sizeofSizeT n) = n :=
  leValue_leBytes_of_lt h

/-- One round of the loop reads a frame that is there, be it empty or not. -/
lemma loadFrames_record {frame : Bytes} (h : frame.length < 2^64) (rounds : ℕ) (msg : List Bytes)
    (rest : Bytes) :
    loadFrames (rounds+1) msg (frameRecord frame ++ rest) = loadFrames rounds (msg ++ [frame]) rest := by
  rw [frameRecord,List.append_assoc,loadFrames,fread_size]
  dsimp only
  rw [leValue_size h]
  cases frame with
  | nil => simp [fread]
  | cons b frame =>
    rw [fread_append rfl (by simp)]
    simp

theorem loadFrames_records {frames : List Bytes} (h : ∀ frame ∈ frames, frame.length < 2^64)
    (msg : List Bytes) (rest : Bytes) :
    loadFrames frames.length msg (frames.flatMap frameRecord ++ rest) = (some (msg ++ frames),rest) := by
  induction frames generalizing msg with
  | nil => simp [loadFrames]
  | cons frame frames ih =>
    obtain ⟨hframe,hframes⟩ := List.forall_mem_cons.mp h
    rw [List.length_cons,List.flatMap_cons,List.append_assoc,loadFrames_record hframe,ih hframes]
    simp

/-- A complete message is read back; one without frames is read as NULL. -/
theorem zmsgLoadx_record (msg : Zmsg) (rest : Bytes) :
    zmsgLoadx none (messageRecord msg.frames ++ rest) =
      (if msg.frames = [] then none else some msg.frames,rest) := by
  have hframes := loadFrames_records msg.size_lt [] rest
  rw [messageRecord,List.append_assoc,zmsgLoadx,fread_size]
  simp only [leValue_size msg.count_lt,Option.getD_none,hframes,List.nil_append]

lemma zmsgLoadx_nil : zmsgLoadx none [] = (none,[]) := rfl

lemma loads_nil (calls : ℕ) : loads calls [] = List.replicate calls none := by
  induction calls with
  | zero => rfl
  | succ calls ih => rw [loads,zmsgLoadx_nil,ih,List.replicate_succ]

theorem loads_records {msgs : List Zmsg} (h : ∀ msg ∈ msgs, msg.frames ≠ []) (more : ℕ) :
    loads (msgs.length+more) ((msgs.map Zmsg.frames).flatMap messageRecord) =
      (msgs.map Zmsg.frames).map some ++ List.replicate more none := by
  induction msgs with
  | nil => simpa using loads_nil more
  | cons msg msgs ih =>
    obtain ⟨hmsg,hmsgs⟩ := List.forall_mem_cons.mp h
    rw [List.length_cons,Nat.add_right_comm,loads,List.map_cons,List.flatMap_cons,zmsgLoadx_record,
      if_neg hmsg,ih hmsgs]
    rfl

/-- Messages with frames are saved and read back exactly if none of their frames is empty. -/
theorem loads_saveAll_iff {msgs : List Zmsg} (h : ∀ msg ∈ msgs, msg.frames ≠ []) :
    ((saveAll (msgs.map Zmsg.frames) []).1 = true ∧
      ∀ more, loads (msgs.length+more) (saveAll (msgs.map Zmsg.frames) []).2 =
        (msgs.map Zmsg.frames).map some ++ List.replicate more none) ↔
      ∀ msg ∈ msgs, [] ∉ msg.frames := by
  have hmap : (∀ msg ∈ msgs.map Zmsg.frames, [] ∉ msg) ↔ ∀ msg ∈ msgs, [] ∉ msg.frames := by simp
  rw [saveAll_fst,hmap]
  constructor
  · exact fun h => h.1
  · intro hempty
    refine ⟨hempty,fun more => ?_⟩
    rw [saveAll_of_nonempty (hmap.mpr hempty),List.nil_append]
    exact loads_records h more

/-- A message of logjam-dump, with the body given. -/
def dumped (body : Bytes) (h : body.length < 2^64) : Zmsg where
  frames := [lit "app-production",lit "logs",body,lit "meta"]
  count_lt := by norm_num
  size_lt := by simpa [lit] using h

def dumpedTwo : List Zmsg := [dumped (lit "a") (by decide),dumped (lit "b") (by decide)]

theorem loads_dumpedTwo :
    (saveAll (dumpedTwo.map Zmsg.frames) []).1 = true ∧
      ∀ more, loads (dumpedTwo.length+more) (saveAll (dumpedTwo.map Zmsg.frames) []).2 =
        (dumpedTwo.map Zmsg.frames).map some ++ List.replicate more none :=
  (loads_saveAll_iff (by decide)).mpr (by decide)

/-- After an empty body, the number of frames of the next message is read as the length of the meta
frame. -/
theorem loads_emptyBody :
    (saveAll (([dumped [] (by decide),dumped (lit "b") (by decide)]).map Zmsg.frames) []).1 = false ∧
      loads 1 (saveAll (([dumped [] (by decide),dumped (lit "b") (by decide)]).map Zmsg.frames) []).2 =
        [some [lit "app-production",lit "logs",[],[14,0,0,0]]] := by
  decide +kernel

/-! Files that are cut off. -/

/-- What the loop makes of frames that are cut off. -/
def truncated : List Bytes → List Bytes → ℕ → Option (List Bytes)
  | msg,[],_ => some msg
  | msg,frame::frames,cut =>
    if cut < 8 then some msg
    else if cut < 8+frame.length then none
    else truncated (msg ++ [frame]) frames (cut-(8+frame.length))

/-- What is read of a message that is cut off. -/
def cutMessage (msg : List Bytes) (cut : ℕ) : Option (List Bytes) :=
  if cut < 8 then none else (truncated [] msg (cut-8)).filter (· ≠ [])

theorem loadFrames_take {frames : List Bytes} (h : ∀ frame ∈ frames, frame.length < 2^64)
    (msg : List Bytes) {cut : ℕ} (hcut : cut < (frames.flatMap frameRecord).length) :
    loadFrames frames.length msg ((frames.flatMap frameRecord).take cut) = (truncated msg frames cut,[]) := by
  induction frames generalizing msg cut with
  | nil => simp at hcut
  | cons frame frames ih =>
    obtain ⟨hframe,hframes⟩ := List.forall_mem_cons.mp h
    rw [List.flatMap_cons,List.length_append,length_frameRecord] at hcut
    rw [List.length_cons,List.flatMap_cons,List.take_append,length_frameRecord,truncated]
    split_ifs with hlength hdata
    -- the length is cut off
    · have hnone : cut-(8+frame.length) = 0 := by omega
      rw [hnone,List.take_zero,List.append_nil,loadFrames,fread_size_take hlength]
    -- the data is cut off
    · have hnone : cut-(8+frame.length) = 0 := by omega
      have hsize : (leBytes sizeofSizeT frame.length).length = 8 := length_leBytes _ _
      have hrecord : (frameRecord frame).take cut =
          leBytes sizeofSizeT frame.length ++ frame.take (cut-8) := by
        rw [frameRecord,List.take_append,hsize,List.take_of_length_le (by omega)]
      have hshort : (frame.take (cut-8)).length < frame.length := by
        rw [List.length_take]
        omega
      rw [hnone,List.take_zero,List.append_nil,hrecord,loadFrames,fread_size]
      simp only [leValue_size hframe,fread_short hshort]
      rw [if_pos ⟨by omega,rfl⟩]
    -- the frame is there
    · rw [List.take_of_length_le (by rw [length_frameRecord]; omega),loadFrames_record hframe]
      exact ih hframes (msg ++ [frame]) (by omega)

theorem zmsgLoadx_take (msg : Zmsg) {cut : ℕ} (hcut : cut < (messageRecord msg.frames).length) :
    zmsgLoadx none ((messageRecord msg.frames).take cut) = (cutMessage msg.frames cut,[]) := by
  rw [length_messageRecord] at hcut
  unfold cutMessage
  split_ifs with hcount
  · rw [zmsgLoadx,fread_size_take hcount]
    rfl
  · have hsize : (leBytes sizeofSizeT msg.frames.length).length = 8 := length_leBytes _ _
    have hlt : cut-8 < (msg.frames.flatMap frameRecord).length := by omega
    have hframes := loadFrames_take msg.size_lt [] hlt
    rw [messageRecord,List.take_append,hsize,List.take_of_length_le (by omega),zmsgLoadx,fread_size]
    simp only [leValue_size msg.count_lt,Option.getD_none,hframes]
    cases truncated [] msg.frames (cut-8) with
    | none => rfl
    | some m => by_cases hm : m = [] <;> simp [hm,Option.filter]

/-- The messages that are read from a file that is cut off. -/
def survivors : List (List Bytes) → ℕ → List (List Bytes)
  | [],_ => []
  | msg::msgs,cut =>
    if (messageRecord msg).length ≤ cut then
      (if msg = [] then [] else [msg]) ++ survivors msgs (cut-(messageRecord msg).length)
    else (cutMessage msg cut).toList

theorem loads_take (msgs : List Zmsg) (cut : ℕ) {calls : ℕ} (h : msgs.length < calls) :
    (loads calls (((msgs.map Zmsg.frames).flatMap messageRecord).take cut)).filterMap id =
      survivors (msgs.map Zmsg.frames) cut := by
  induction msgs generalizing cut calls with
  | nil =>
    simp [loads_nil,survivors]
  | cons msg msgs ih =>
    obtain ⟨calls,rfl⟩ : ∃ c, calls = c+1 := ⟨calls-1,by omega⟩
    rw [List.length_cons] at h
    rw [List.map_cons,List.flatMap_cons,List.take_append,survivors,loads]
    split_ifs with hcomplete hempty
    · rw [List.take_of_length_le hcomplete,zmsgLoadx_record,if_pos hempty]
      simpa using ih _ (by omega)
    · rw [List.take_of_length_le hcomplete,zmsgLoadx_record,if_neg hempty]
      simpa using ih _ (by omega)
    · have hnone : cut-(messageRecord msg.frames).length = 0 := by omega
      rw [hnone,List.take_zero,List.append_nil,zmsgLoadx_take msg (by omega),loads_nil]
      cases cutMessage msg.frames cut <;> simp

lemma loads_more (calls more : ℕ) (file : Bytes) : loads calls file <+: loads (calls+more) file := by
  induction calls generalizing file with
  | zero => exact List.nil_prefix
  | succ calls ih =>
    rw [Nat.add_right_comm,loads,loads]
    exact (List.prefix_cons_inj _).mpr (ih _)

/-- The cut falls at or within the length of a frame that is not the first one of its message. -/
def CutInLength (msgs : List (List Bytes)) (cut : ℕ) : Prop :=
  ∃ before msg after pre frame post, msgs = before ++ msg::after ∧ msg = pre ++ frame::post ∧ pre ≠ [] ∧
    (before.flatMap messageRecord).length+(8+(pre.flatMap frameRecord).length) ≤ cut ∧
    cut < (before.flatMap messageRecord).length+(8+(pre.flatMap frameRecord).length)+8

/-- A message with frames that is not cut off. -/
def Complete (msgs : List (List Bytes)) (cut : ℕ) : Prop :=
  ∃ before msg after, msgs = before ++ msg::after ∧ msg ≠ [] ∧
    ((before ++ [msg]).flatMap messageRecord).length ≤ cut

/-- A message without frames comes before a message with frames that is not cut off. -/
def FramelessBefore (msgs : List (List Bytes)) (cut : ℕ) : Prop :=
  ∃ before between msg after, msgs = before ++ []::(between ++ msg::after) ∧ msg ≠ [] ∧
    ((before ++ []::(between ++ [msg])).flatMap messageRecord).length ≤ cut

/-- The cut within one message. -/
def CutInFrameLength (msg : List Bytes) (cut : ℕ) : Prop :=
  ∃ pre frame post, msg = pre ++ frame::post ∧ pre ≠ [] ∧
    8+(pre.flatMap frameRecord).length ≤ cut ∧ cut < 8+(pre.flatMap frameRecord).length+8

lemma truncated_eq_some_iff {frames msg d : List Bytes} {cut : ℕ}
    (h : cut < (frames.flatMap frameRecord).length) :
    truncated msg frames cut = some d ↔ ∃ pre frame post, frames = pre ++ frame::post ∧ d = msg ++ pre ∧
      (pre.flatMap frameRecord).length ≤ cut ∧ cut < (pre.flatMap frameRecord).length+8 := by
  induction frames generalizing msg cut with
  | nil => simp at h
  | cons frame frames ih =>
    rw [List.flatMap_cons,List.length_append,length_frameRecord] at h
    rw [truncated]
    -- the frame in whose length the cut falls is this one, or one of the others
    constructor
    · intro htrunc
      split_ifs at htrunc with hlength hdata
      · exact ⟨[],frame,frames,rfl,by simpa using htrunc.symm,by simp,by simpa using hlength⟩
      · obtain ⟨pre,f,post,rfl,rfl,hle,hlt⟩ := (ih (by omega)).mp htrunc
        refine ⟨frame::pre,f,post,rfl,by simp,?_,?_⟩
        · rw [List.flatMap_cons,List.length_append,length_frameRecord]
          omega
        · rw [List.flatMap_cons,List.length_append,length_frameRecord]
          omega
    · rintro ⟨pre,f,post,heq,rfl,hle,hlt⟩
      cases pre with
      | nil =>
        rw [if_pos (by simpa using hlt),List.append_nil]
      | cons g pre =>
        obtain ⟨rfl,rfl⟩ := List.cons.inj heq
        rw [List.flatMap_cons,List.length_append,length_frameRecord] at hle hlt
        rw [if_neg (by omega),if_neg (by omega)]
        exact (ih (by omega)).mpr ⟨pre,f,post,rfl,by simp,by omega,by omega⟩

/-- A message is returned with fewer frames exactly if the cut falls into the length of one. -/
lemma cutMessage_eq_some_iff {msg d : List Bytes} {cut : ℕ} (h : cut < (messageRecord msg).length) :
    cutMessage msg cut = some d ↔ ∃ frame post, msg = d ++ frame::post ∧ d ≠ [] ∧
      8+(d.flatMap frameRecord).length ≤ cut ∧ cut < 8+(d.flatMap frameRecord).length+8 := by
  rw [length_messageRecord] at h
  unfold cutMessage
  split_ifs with hcount
  · constructor
    · exact fun hnone => (nomatch hnone)
    · rintro ⟨_,_,_,_,hle,_⟩
      omega
  · rw [Option.filter_eq_some_iff,truncated_eq_some_iff (by omega)]
    simp only [List.nil_append,decide_eq_true_eq]
    constructor
    · rintro ⟨⟨pre,frame,post,heq,rfl,hle,hlt⟩,hne⟩
      exact ⟨frame,post,heq,hne,by omega,by omega⟩
    · rintro ⟨frame,post,heq,hne,hle,hlt⟩
      exact ⟨⟨d,frame,post,heq,rfl,by omega,by omega⟩,hne⟩

lemma cutMessage_eq_none_iff {msg : List Bytes} {cut : ℕ} (h : cut < (messageRecord msg).length) :
    cutMessage msg cut = none ↔ ¬CutInFrameLength msg cut := by
  rw [Option.eq_none_iff_forall_ne_some]
  constructor
  · rintro hnone ⟨pre,frame,post,heq,hne,hle,hlt⟩
    exact hnone pre ((cutMessage_eq_some_iff h).mpr ⟨frame,post,heq,hne,hle,hlt⟩)
  · intro hcut d hd
    obtain ⟨frame,post,heq,hne,hle,hlt⟩ := (cutMessage_eq_some_iff h).mp hd
    exact hcut ⟨d,frame,post,heq,hne,hle,hlt⟩

/-! One message at the front of the file. -/

section
variable (msg : List Bytes) (msgs : List (List Bytes)) (cut : ℕ)

lemma CutInFrameLength.lt {msg : List Bytes} {cut : ℕ} (h : CutInFrameLength msg cut) :
    cut < (messageRecord msg).length := by
  obtain ⟨pre,frame,post,rfl,_,_,hlt⟩ := h
  rw [length_messageRecord,List.flatMap_append,List.length_append,List.flatMap_cons,List.length_append,
    length_frameRecord]
  omega

lemma length_flatMap_cons : ((msg::msgs).flatMap messageRecord).length =
    (messageRecord msg).length+(msgs.flatMap messageRecord).length := by
  rw [List.flatMap_cons,List.length_append]

lemma cutInLength_cons : CutInLength (msg::msgs) cut ↔ CutInFrameLength msg cut ∨
    (messageRecord msg).length ≤ cut ∧ CutInLength msgs (cut-(messageRecord msg).length) := by
  constructor
  · rintro ⟨before,m,after,pre,frame,post,heq,hm,hne,hle,hlt⟩
    cases before with
    | nil =>
      obtain ⟨rfl,rfl⟩ := List.cons.inj heq
      simp only [List.flatMap_nil,List.length_nil,Nat.zero_add] at hle hlt
      exact .inl ⟨pre,frame,post,hm,hne,hle,hlt⟩
    | cons b before =>
      obtain ⟨rfl,rfl⟩ := List.cons.inj heq
      rw [length_flatMap_cons] at hle hlt
      exact .inr ⟨by omega,before,m,after,pre,frame,post,rfl,hm,hne,by omega,by omega⟩
  · rintro (⟨pre,frame,post,hm,hne,hle,hlt⟩ | ⟨hlen,before,m,after,pre,frame,post,rfl,hm,hne,hle,hlt⟩)
    · exact ⟨[],msg,msgs,pre,frame,post,rfl,hm,hne,by simpa using hle,by simpa using hlt⟩
    · refine ⟨msg::before,m,after,pre,frame,post,rfl,hm,hne,?_,?_⟩
      · rw [length_flatMap_cons]
        omega
      · rw [length_flatMap_cons]
        omega

lemma complete_cons : Complete (msg::msgs) cut ↔ (messageRecord msg).length ≤ cut ∧
    (msg ≠ [] ∨ Complete msgs (cut-(messageRecord msg).length)) := by
  constructor
  · rintro ⟨before,m,after,heq,hne,hle⟩
    cases before with
    | nil =>
      obtain ⟨rfl,rfl⟩ := List.cons.inj heq
      exact ⟨by simpa using hle,.inl hne⟩
    | cons b before =>
      obtain ⟨rfl,rfl⟩ := List.cons.inj heq
      rw [List.cons_append,length_flatMap_cons] at hle
      exact ⟨by omega,.inr ⟨before,m,after,rfl,hne,by omega⟩⟩
  · rintro ⟨hlen,hne | ⟨before,m,after,rfl,hne,hle⟩⟩
    · exact ⟨[],msg,msgs,rfl,hne,by simpa using hlen⟩
    · refine ⟨msg::before,m,after,rfl,hne,?_⟩
      rw [List.cons_append,length_flatMap_cons]
      omega

lemma framelessBefore_cons : FramelessBefore (msg::msgs) cut ↔ (messageRecord msg).length ≤ cut ∧
    (msg = [] ∧ Complete msgs (cut-(messageRecord msg).length) ∨
      FramelessBefore msgs (cut-(messageRecord msg).length)) := by
  constructor
  · rintro ⟨before,between,m,after,heq,hne,hle⟩
    cases before with
    | nil =>
      obtain ⟨rfl,rfl⟩ := List.cons.inj heq
      rw [List.nil_append,length_flatMap_cons] at hle
      exact ⟨by omega,.inl ⟨rfl,between,m,after,rfl,hne,by omega⟩⟩
    | cons b before =>
      obtain ⟨rfl,rfl⟩ := List.cons.inj heq
      rw [List.cons_append,length_flatMap_cons] at hle
      exact ⟨by omega,.inr ⟨before,between,m,after,rfl,hne,by omega⟩⟩
  · rintro ⟨hlen,⟨rfl,between,m,after,rfl,hne,hle⟩ | ⟨before,between,m,after,rfl,hne,hle⟩⟩
    · refine ⟨[],between,m,after,rfl,hne,?_⟩
      rw [List.nil_append,length_flatMap_cons]
      omega
    · refine ⟨msg::before,between,m,after,rfl,hne,?_⟩
      rw [List.cons_append,length_flatMap_cons]
      omega

end

/-- Nothing is read of a message exactly if none is complete and none is cut in a length. -/
lemma survivors_eq_nil_iff (msgs : List (List Bytes)) (cut : ℕ) :
    survivors msgs cut = [] ↔ ¬CutInLength msgs cut ∧ ¬Complete msgs cut := by
  induction msgs generalizing cut with
  | nil => simp [survivors,CutInLength,Complete]
  | cons msg msgs ih =>
    rw [survivors,cutInLength_cons,complete_cons]
    split_ifs with hlen hempty
    · have hcut : ¬CutInFrameLength msg cut := fun h => absurd h.lt (by omega)
      rw [List.nil_append,ih]
      tauto
    · simp [hlen,hempty]
    · rw [Option.toList_eq_nil_iff,cutMessage_eq_none_iff (by omega)]
      simp [hlen]

lemma ne_nil_of_mem_survivors {msgs : List (List Bytes)} {cut : ℕ} {m : List Bytes}
    (h : m ∈ survivors msgs cut) : m ≠ [] := by
  induction msgs generalizing cut with
  | nil => simp [survivors] at h
  | cons msg msgs ih =>
    rw [survivors] at h
    split_ifs at h with hlen hempty
    · exact ih h
    · rcases List.mem_cons.mp h with rfl | h
      · exact hempty
      · exact ih h
    · obtain ⟨_,_,_,hne,_⟩ := (cutMessage_eq_some_iff (by omega)).mp (Option.mem_toList.mp h)
      exact hne

theorem survivors_prefix_iff (msgs : List (List Bytes)) (cut : ℕ) :
    survivors msgs cut <+: msgs ↔ ¬CutInLength msgs cut ∧ ¬FramelessBefore msgs cut := by
  induction msgs generalizing cut with
  | nil => simp [survivors,CutInLength,FramelessBefore]
  | cons msg msgs ih =>
    rw [cutInLength_cons,framelessBefore_cons]
    by_cases hlen : (messageRecord msg).length ≤ cut
    · have hcut : ¬CutInFrameLength msg cut := fun h => absurd h.lt (by omega)
      rw [survivors,if_pos hlen]
      by_cases hempty : msg = []
      -- no message that is read can stand for the one without frames
      · rw [if_pos hempty,List.nil_append]
        have hnil : survivors msgs (cut-(messageRecord msg).length) <+: msg::msgs ↔
            survivors msgs (cut-(messageRecord msg).length) = [] := by
          constructor
          · intro hprefix
            rcases List.prefix_cons_iff.mp hprefix with hnil | ⟨t,ht,_⟩
            · exact hnil
            · exact absurd hempty (ne_nil_of_mem_survivors (ht ▸ List.mem_cons_self))
          · intro hnil
            rw [hnil]
            exact List.nil_prefix
        have hcomplete : FramelessBefore msgs (cut-(messageRecord msg).length) →
            Complete msgs (cut-(messageRecord msg).length) := by
          rintro ⟨before,between,m,after,rfl,hne,hle⟩
          exact ⟨before ++ []::between,m,after,by simp,hne,by simpa using hle⟩
        rw [hnil,survivors_eq_nil_iff]
        tauto
      · rw [if_neg hempty,List.singleton_append,List.prefix_cons_inj,ih]
        simp [hlen,hcut,hempty]
    · rw [survivors,if_neg hlen]
      have hcutMessage : (cutMessage msg cut).toList <+: msg::msgs ↔ cutMessage msg cut = none := by
        cases hd : cutMessage msg cut with
        | none => simp
        | some d =>
          obtain ⟨frame,post,heq,_⟩ := (cutMessage_eq_some_iff (by omega)).mp hd
          have hne : d ≠ msg := by
            intro h
            have hlength := congrArg List.length (h.trans heq)
            simp at hlength
          simp [hne]
      rw [hcutMessage,cutMessage_eq_none_iff (by omega)]
      tauto

/-- The messages read from a file that is cut off are the first ones saved, exactly if the cut is not
in the length of a frame that follows another, and no message without frames is passed over. -/
theorem loads_cut_prefix_iff {msgs : List Zmsg} (h : ∀ msg ∈ msgs, [] ∉ msg.frames) (cut : ℕ) :
    (∀ calls, (loads calls ((saveAll (msgs.map Zmsg.frames) []).2.take cut)).filterMap id <+:
      msgs.map Zmsg.frames) ↔
    ¬CutInLength (msgs.map Zmsg.frames) cut ∧ ¬FramelessBefore (msgs.map Zmsg.frames) cut := by
  rw [saveAll_of_nonempty (by simpa using h),List.nil_append,← survivors_prefix_iff]
  have hall (calls : ℕ) : (loads (calls+(msgs.length+1))
      (((msgs.map Zmsg.frames).flatMap messageRecord).take cut)).filterMap id =
        survivors (msgs.map Zmsg.frames) cut := loads_take msgs cut (by omega)
  constructor
  · intro hprefix
    have hlong := hprefix (0+(msgs.length+1))
    rwa [hall] at hlong
  · intro hprefix calls
    have hmore := (loads_more calls (msgs.length+1)
      (((msgs.map Zmsg.frames).flatMap messageRecord).take cut)).filterMap id
    rw [hall] at hmore
    exact hmore.trans hprefix

/-- The file ends within the data of a frame. -/
theorem loads_dumpedTwo_cut :
    (∀ msg ∈ dumpedTwo, [] ∉ msg.frames) ∧
      ∀ calls, (loads calls ((saveAll (dumpedTwo.map Zmsg.frames) []).2.take 20)).filterMap id <+:
        dumpedTwo.map Zmsg.frames :=
  ⟨by decide,(loads_cut_prefix_iff (by decide) 20).mpr ((survivors_prefix_iff _ _).mp (by decide +kernel))⟩

/-- The file ends after the first frame, which is returned as a message. -/
theorem loads_dumpedTwo_damaged :
    (loads 1 ((saveAll (dumpedTwo.map Zmsg.frames) []).2.take 30)).filterMap id = [[lit "app-production"]] ∧
      ¬[[lit "app-production"]] <+: dumpedTwo.map Zmsg.frames := by
  decide +kernel

end Logjam
