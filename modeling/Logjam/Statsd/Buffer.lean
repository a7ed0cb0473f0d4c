import Logjam.Basic.Decimal
import Logjam.Library.Ensures

/-! The statsd actor of the importer. Updates are collected line by line in a buffer, which is sent as one datagram
when the next line does not fit, and on every tick. -/
namespace Logjam.Statsd
open Library

def bufferSize : ℕ := 4096

/-- The state of the actor without its sockets. -/
structure ServerState where
  updateCount : UInt64
  updateBytes : UInt64
  buffer : Bytes
  bufferUsed : ℤ
  connected : Bool

/-- What is flushed, and whether there is a connection on which it is sent. -/
structure Datagram where
  data : Bytes
  sent : Bool
  deriving DecidableEq

def serverStateNew (connected : Bool) : ServerState := ⟨0,0,List.replicate bufferSize 0,0,connected⟩

/-- Copying to an offset of the buffer. -/
def memcpy (buffer : Bytes) (offset : ℤ) (data : Bytes) : Except Fault Bytes :=
  if 0 ≤ offset ∧ offset+data.length ≤ buffer.length then
    .ok (buffer.take offset.toNat ++ data ++ buffer.drop (offset.toNat+data.length))
  else .error .bufferOverflow

/-- The size of the datagram is passed as an int. -/
def serverFlushBuffer (state : ServerState) : Except Fault (ServerState × Datagram) :=
  if sizeOfInt state.bufferUsed ≤ state.buffer.length then
    .ok ({ state with buffer := List.replicate bufferSize 0, bufferUsed := 0 },
      ⟨state.buffer.take (sizeOfInt state.bufferUsed),state.connected⟩)
  else .error .outOfBounds

/-- The flush before a line that does not fit. The sum with the fill state is one of sizes. -/
def flushIfFull (state : ServerState) (len : ℕ) : Except Fault (ServerState × List Datagram) :=
  if (sizeOfInt state.bufferUsed+len+1)%2^64 > bufferSize then do
    let (state,datagram) ← serverFlushBuffer state
    return (state,[datagram])
  else .ok (state,[])

/-- The new fill state is stored as an int. A string is in memory with its terminator, so its length plus one does
not overflow. -/
def serverAppendToBuffer (state : ServerState) (data : Bytes) : Except Fault (ServerState × List Datagram × Bool) :=
  if data.length+1 > bufferSize then .ok (state,[],false)
  else do
    let (state,flushed) ← flushIfFull state data.length
    let buffer ← memcpy state.buffer state.bufferUsed data
    let used := toInt32 (sizeOfInt state.bufferUsed+data.length)
    let buffer ← memcpy buffer used [10]
    return ({ state with buffer, bufferUsed := used+1 },flushed,true)

/-- An update is the first frame of a message, up to its first NUL. -/
def serverAddUpdate (state : ServerState) (frame : Bytes) : Except Fault (ServerState × List Datagram) := do
  let data := cstr frame
  let (state,flushed,_) ← serverAppendToBuffer state data
  return ({ state with
    updateCount := state.updateCount+1
    updateBytes := state.updateBytes+UInt64.ofNat data.length+1 },flushed)

def statsdServerTick (state : ServerState) : Except Fault (ServerState × List Datagram) := do
  let (state,datagram) ← serverFlushBuffer state
  return ({ state with updateCount := 0, updateBytes := 0 },[datagram])

inductive Event
  | update (frame : Bytes)
  | tick

def step (state : ServerState) : Event → Except Fault (ServerState × List Datagram)
  | .update frame => serverAddUpdate state frame
  | .tick => statsdServerTick state

/-- The state after the events, and what has been flushed. -/
def run (connected : Bool) (events : List Event) : Except Fault (ServerState × List Datagram) :=
  events.foldlM (fun reached event => do
    let (state,flushed) ← step reached.1 event
    return (state,reached.2 ++ flushed)) (serverStateNew connected,[])

/-- The line of an update that is not too long. -/
def Event.lines : Event → List Bytes
  | .update frame => if (cstr frame).length < bufferSize then [cstr frame ++ [10]] else []
  | .tick => []

variable {buffer data : Bytes} {state : ServerState} {lines pending : List Bytes} {flushed : List Datagram}
  {connected : Bool}

/-! One buffer. -/

lemma memcpy_eq {offset : ℕ} (h : offset+data.length ≤ buffer.length) :
    memcpy buffer offset data = .ok (buffer.take offset ++ data ++ buffer.drop (offset+data.length)) :=
  if_pos ⟨by omega,by omega⟩

/-- The buffer starts with the lines that have not been flushed. -/
structure Content (state : ServerState) (pending : List Bytes) : Prop where
  length_buffer : state.buffer.length = bufferSize
  used : state.bufferUsed = pending.flatten.length
  fits : pending.flatten.length ≤ bufferSize
  buffered : state.buffer.take pending.flatten.length = pending.flatten

namespace Content

lemma new (connected : Bool) : Content (serverStateNew connected) [] :=
  ⟨List.length_replicate,rfl,Nat.zero_le _,List.take_zero⟩

lemma sizeOfInt_used (h : Content state pending) : sizeOfInt state.bufferUsed = pending.flatten.length := by
  have hfits := h.fits
  unfold bufferSize at hfits
  rw [h.used,sizeOfInt_of_nonneg (by omega) (by omega),Int.toNat_natCast]

/-- A flush takes all the lines. -/
lemma flush (h : Content state pending) : Yields (serverFlushBuffer state) fun result =>
    Content result.1 [] ∧ result.1.connected = state.connected ∧ result.2 = ⟨pending.flatten,state.connected⟩ := by
  rw [serverFlushBuffer,h.sizeOfInt_used,h.buffered,if_pos (by rw [h.length_buffer]; exact h.fits)]
  exact ⟨_,rfl,⟨List.length_replicate,rfl,Nat.zero_le _,List.take_zero⟩,rfl,rfl⟩

/-- The line and its end are written one after the other. -/
lemma write (h : Content state pending) (hfits : pending.flatten.length+data.length+1 ≤ bufferSize) :
    Yields (memcpy state.buffer state.bufferUsed data >>= fun buffer =>
      memcpy buffer (toInt32 (sizeOfInt state.bufferUsed+data.length)) [10]) fun buffer =>
        Content { state with buffer, bufferUsed := toInt32 (sizeOfInt state.bufferUsed+data.length)+1 }
          (pending ++ [data ++ [10]]) := by
  have hlength := h.length_buffer
  have hused : toInt32 (sizeOfInt state.bufferUsed+data.length) = ((pending.flatten.length+data.length : ℕ) : ℤ) := by
    rw [h.sizeOfInt_used,toInt32_of_lt]
    unfold bufferSize at hfits
    omega
  have hflatten : (pending ++ [data ++ [10]]).flatten = pending.flatten ++ data ++ [10] := by simp
  have hwritten : (pending.flatten ++ data).length = pending.flatten.length+data.length := List.length_append
  rw [hused,h.used,memcpy_eq (by omega),h.buffered]
  change Yields (memcpy _ _ _) _
  rw [memcpy_eq,List.take_left' hwritten]
  · refine ⟨_,rfl,?_,?_,?_,?_⟩
    · simp only [List.length_append,List.length_drop,List.length_singleton]
      omega
    · rw [hflatten,List.length_append,hwritten]
      rfl
    · rw [hflatten,List.length_append,hwritten]
      exact hfits
    · rw [hflatten]
      exact List.take_left
  · simp only [List.length_append,List.length_drop,List.length_singleton]
    omega

end Content

/-! Runs. -/

/-- The lines so far are in the datagrams, in which no line is split, and in the buffer. -/
structure Inv (connected : Bool) (state : ServerState) (flushed : List Datagram) (lines : List Bytes) : Prop where
  split : ∃ (groups : List (List Bytes)) (pending : List Bytes),groups.flatten ++ pending = lines ∧
    flushed.map Datagram.data = groups.map List.flatten ∧ Content state pending
  sizes : ∀ datagram ∈ flushed,datagram.data.length ≤ bufferSize ∧ datagram.sent = connected
  keeps : state.connected = connected

namespace Inv

lemma initial (connected : Bool) : Inv connected (serverStateNew connected) [] [] :=
  ⟨⟨[],[],rfl,rfl,.new connected⟩,fun _ h => absurd h List.not_mem_nil,rfl⟩

/-- The counters do not matter. -/
lemma withCounters (h : Inv connected state flushed lines) (updateCount updateBytes : UInt64) :
    Inv connected { state with updateCount, updateBytes } flushed lines := by
  obtain ⟨⟨groups,pending,hlines,hgroups,hcontent⟩,hsizes,hkeeps⟩ := h
  exact ⟨⟨groups,pending,hlines,hgroups,hcontent.length_buffer,hcontent.used,hcontent.fits,hcontent.buffered⟩,
    hsizes,hkeeps⟩

lemma flush (h : Inv connected state flushed lines) : Yields (serverFlushBuffer state) fun result =>
    Content result.1 [] ∧ Inv connected result.1 (flushed ++ [result.2]) lines := by
  obtain ⟨⟨groups,pending,hlines,hgroups,hcontent⟩,hsizes,hkeeps⟩ := h
  obtain ⟨result,heq,hempty,hsame,hdatagram⟩ := hcontent.flush
  refine ⟨result,heq,hempty,⟨groups ++ [pending],[],?_,?_,hempty⟩,?_,hsame.trans hkeeps⟩
  · rw [List.append_nil,List.flatten_append,List.flatten_singleton,hlines]
  · rw [List.map_append,List.map_append,hgroups,hdatagram]
    rfl
  · rw [List.forall_mem_append,List.forall_mem_singleton,hdatagram]
    exact ⟨hsizes,hcontent.fits,hkeeps⟩

/-- A line that fits comes after the other ones. -/
lemma write (h : Inv connected state flushed lines)
    (hfits : (sizeOfInt state.bufferUsed+data.length+1)%2^64 ≤ bufferSize) (hlength : data.length+1 ≤ bufferSize) :
    Yields (memcpy state.buffer state.bufferUsed data >>= fun buffer =>
      memcpy buffer (toInt32 (sizeOfInt state.bufferUsed+data.length)) [10]) fun buffer =>
        Inv connected { state with buffer, bufferUsed := toInt32 (sizeOfInt state.bufferUsed+data.length)+1 }
          flushed (lines ++ [data ++ [10]]) := by
  obtain ⟨⟨groups,pending,hlines,hgroups,hcontent⟩,hsizes,hkeeps⟩ := h
  have hsum : (pending.flatten.length+data.length+1)%2^64 = pending.flatten.length+data.length+1 := by
    have hpending := hcontent.fits
    unfold bufferSize at hpending hlength
    exact Nat.mod_eq_of_lt (by omega)
  rw [hcontent.sizeOfInt_used,hsum] at hfits
  obtain ⟨buffer,heq,hwritten⟩ := hcontent.write hfits
  refine ⟨buffer,heq,⟨groups,pending ++ [data ++ [10]],?_,hgroups,hwritten⟩,hsizes,hkeeps⟩
  rw [← List.append_assoc,hlines]

/-- Flushing first makes room for every line that is not too long. -/
lemma room (h : Inv connected state flushed lines) (hlength : data.length+1 ≤ bufferSize) :
    Yields (flushIfFull state data.length) fun result =>
      Inv connected result.1 (flushed ++ result.2) lines ∧
      (sizeOfInt result.1.bufferUsed+data.length+1)%2^64 ≤ bufferSize := by
  unfold flushIfFull
  split_ifs with hfull
  · refine h.flush.bind fun result hresult => ⟨_,rfl,hresult.2,?_⟩
    dsimp only
    rw [hresult.1.sizeOfInt_used,Nat.mod_eq_of_lt]
    · simpa using hlength
    · unfold bufferSize at hlength
      simp only [List.flatten_nil,List.length_nil]
      omega
  · refine ⟨_,rfl,?_,not_lt.mp hfull⟩
    rwa [List.append_nil]

lemma append (h : Inv connected state flushed lines) (data : Bytes) :
    Yields (serverAppendToBuffer state data) fun result =>
      Inv connected result.1 (flushed ++ result.2.1)
        (lines ++ if data.length < bufferSize then [data ++ [10]] else []) := by
  unfold serverAppendToBuffer
  by_cases hlength : data.length < bufferSize
  · rw [if_neg (by omega),if_pos hlength]
    refine (h.room hlength).bind fun result hresult => ?_
    obtain ⟨buffer,heq,hnext⟩ := hresult.1.write hresult.2 hlength
    obtain ⟨copied,hcopied,heq⟩ := bind_eq_ok_iff.mp heq
    exact ⟨_,bind_eq_ok_iff.mpr ⟨copied,hcopied,bind_eq_ok_iff.mpr ⟨buffer,heq,rfl⟩⟩,hnext⟩
  · rw [if_pos (by omega),if_neg hlength]
    refine ⟨_,rfl,?_⟩
    dsimp only
    rwa [List.append_nil,List.append_nil]

theorem step (h : Inv connected state flushed lines) (event : Event) :
    Yields (Statsd.step state event) fun result =>
      Inv connected result.1 (flushed ++ result.2) (lines ++ event.lines) := by
  cases event with
  | update frame => exact (h.append (cstr frame)).bind fun result hresult => ⟨_,rfl,hresult.withCounters _ _⟩
  | tick =>
    refine h.flush.bind fun result hresult => ⟨_,rfl,?_⟩
    dsimp only [Event.lines]
    rw [List.append_nil]
    exact hresult.2.withCounters 0 0

end Inv

theorem yields_run (connected : Bool) (events : List Event) :
    Yields (run connected events) fun result => Inv connected result.1 result.2 (events.flatMap Event.lines) := by
  have hrun := Yields.foldlM_foldl (ε := Fault) (R := fun (reached : ServerState × List Datagram) lines =>
      Inv connected reached.1 reached.2 lines)
    (f := fun reached event => do
      let (state,flushed) ← Statsd.step reached.1 event
      return (state,reached.2 ++ flushed))
    (g := fun lines event => lines ++ Event.lines event)
    (fun reached lines h event => (h.step event).bind fun result hresult => ⟨_,rfl,hresult⟩) events
    (a := (serverStateNew connected,[])) (Inv.initial connected)
  rwa [List.foldl_append_eq_append,List.nil_append,← List.flatMap_def] at hrun

/-- Nothing is written outside the buffer. What has been flushed and what is in the buffer are the lines of the
updates that are not too long, in their order, and no line is split. -/
theorem run_exact (connected : Bool) (events : List Event) : Yields (run connected events) fun result =>
    let lines := events.flatMap Event.lines
    let content := result.1.buffer.take result.1.bufferUsed.toNat
    (0 ≤ result.1.bufferUsed ∧ result.1.bufferUsed ≤ bufferSize ∧ result.1.buffer.length = bufferSize) ∧
    (result.2.map Datagram.data).flatten ++ content = lines.flatten ∧
    (∃ (groups : List (List Bytes)) (pending : List Bytes),groups.flatten ++ pending = lines ∧
      result.2.map Datagram.data = groups.map List.flatten ∧ content = pending.flatten) ∧
    ∀ datagram ∈ result.2,datagram.data.length ≤ bufferSize ∧ datagram.sent = connected := by
  obtain ⟨result,heq,⟨groups,pending,hlines,hgroups,hcontent⟩,hsizes,-⟩ := yields_run connected events
  have hbuffered : result.1.buffer.take result.1.bufferUsed.toNat = pending.flatten := by
    rw [hcontent.used,Int.toNat_natCast,hcontent.buffered]
  refine ⟨result,heq,⟨?_,?_,hcontent.length_buffer⟩,?_,⟨groups,pending,hlines,hgroups,hbuffered⟩,hsizes⟩
  · rw [hcontent.used]
    exact Int.natCast_nonneg _
  · rw [hcontent.used]
    exact_mod_cast hcontent.fits
  · rw [hbuffered,hgroups,← hlines,List.flatten_append,List.flatten_flatten]

end Logjam.Statsd
