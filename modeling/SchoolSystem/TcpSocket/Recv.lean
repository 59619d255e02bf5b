import Mathlib.Algebra.Ring.Nat
import SchoolSystem.TcpSocket.Packet
import SchoolSystem.Library.TransitionSystem

/-! `Recv` next to a writer: the reader of a connection samples the size of its stream without
the lock, and reads under it; `RecvThreadProc` writes blocks under it.
-/

namespace SchoolSystem.TcpSocket

/-- `vector<char>::max_size()`, at which `push_back` throws. -/
def maxSize : Nat := 2 ^ 31 - 1

/-- A `CByteStream`; its size is an `int`. -/
structure CByteStream where
  vtBuf : List Byte
  fits : vtBuf.length ≤ maxSize
  deriving DecidableEq

namespace CByteStream

def empty : CByteStream := ⟨[], Nat.zero_le _⟩

def getSize (stream : CByteStream) : Int32 := Int32.ofNat stream.vtBuf.length

/-- One iteration of `Write`. -/
def pushBack (stream : CByteStream) (byte : Byte) : Option CByteStream :=
  if room : stream.vtBuf.length < maxSize then
    some ⟨stream.vtBuf ++ [byte], by rw [List.length_append]; exact room⟩
  else
    none

/-- `Read`: the bytes that it copies, and the stream without them. To copy or to erase a range
that is not in the stream is undefined.
-/
def read (stream : CByteStream) (nSize : Int32) : Option (List Byte × CByteStream) :=
  if 0 ≤ nSize.toInt ∧ nSize.toInt ≤ stream.vtBuf.length then
    some
      (
        stream.vtBuf.take nSize.toInt.toNat,
        ⟨
          stream.vtBuf.drop nSize.toInt.toNat,
          by rw [List.length_drop]; exact Nat.le_trans (Nat.sub_le ..) stream.fits
        ⟩
      )
  else
    none

variable {stream after : CByteStream}

@[simp]
theorem getSize_toInt (stream : CByteStream)
    : stream.getSize.toInt = stream.vtBuf.length := by
  have fits := stream.fits
  exact Int32.toInt_ofNat_of_lt (by simp only [maxSize] at fits; omega)

theorem getSize_eq_zero : stream.getSize = 0 ↔ stream.vtBuf = [] := by
  rw [← Int32.toInt_inj, getSize_toInt, Int32.toInt_zero, Int.natCast_eq_zero,
    List.length_eq_zero_iff]

theorem pushBack_eq_some {byte : Byte} (pushed : stream.pushBack byte = some after)
    : after.vtBuf = stream.vtBuf ++ [byte] := by
  obtain ⟨room, same⟩ := Option.dite_none_right_eq_some.mp pushed
  rw [← Option.some.inj same]

/-- What `Read` copies is the front of the stream, as long as it was asked for. -/
theorem read_eq_some {nSize : Int32} {bytes : List Byte}
    (read : stream.read nSize = some (bytes, after))
    : stream.vtBuf = bytes ++ after.vtBuf ∧ (bytes.length : Int) = nSize.toInt := by
  obtain ⟨inside, same⟩ := Option.ite_none_right_eq_some.mp read
  obtain ⟨rfl, rfl⟩ := Prod.mk.inj (Option.some.inj same)
  refine ⟨(List.take_append_drop ..).symm, ?_⟩
  rw [List.length_take]
  omega

end CByteStream

/-- `min(nStreamSize, nBufLen)`. -/
def readLen (nStreamSize nBufLen : Int32) : Int32 :=
  if nStreamSize < nBufLen then nStreamSize else nBufLen

@[simp]
theorem readLen_toInt (nStreamSize nBufLen : Int32)
    : (readLen nStreamSize nBufLen).toInt = min nStreamSize.toInt nBufLen.toInt := by
  rw [readLen]
  split
  · rename_i less
    have below := Int32.lt_iff_toInt_lt.mp less
    omega
  · rename_i notLess
    have above := mt Int32.lt_iff_toInt_lt.mpr notLess
    omega

theorem readLen_getSize {stream : CByteStream} {nBufLen : Int32}
    (covers : nBufLen.toInt ≤ stream.vtBuf.length)
    : readLen stream.getSize nBufLen = nBufLen := by
  rw [← Int32.toInt_inj, readLen_toInt, CByteStream.getSize_toInt]
  exact Int.min_eq_right covers

/-- Where the reader is: between two calls of `Recv`, in its loop, or after it. -/
inductive RecvCall
  | none
  | waiting (nBufLen : Int32)
  | sized (nBufLen nReadLen : Int32)
  deriving DecidableEq, Repr

/-- The `nBufLen` of the call in progress. -/
def RecvCall.asked : RecvCall → Option Int32
  | .none => Option.none
  | .waiting nBufLen | .sized nBufLen _ => some nBufLen

/-- What the reader asks the stream for is there, from the size check to the read. -/
def RecvCall.Covered (size : Nat) : RecvCall → Prop
  | .none => True
  | .waiting nBufLen => 1 ≤ nBufLen.toInt
  | .sized nBufLen nReadLen =>
      1 ≤ nReadLen.toInt ∧ nReadLen.toInt ≤ nBufLen.toInt ∧ nReadLen.toInt ≤ size

/-- A stream with its reader and its writer. `writing` is what a `Write` in progress has yet to
push, and the writer has the lock as long as that is something. `returned` has the buffer
lengths and the bytes of the calls that returned, and `blocks` what was given to `Write`.
-/
structure StreamUse where
  stream : CByteStream
  recv : RecvCall
  writing : List Byte
  returned : List (Int32 × List Byte)
  blocks : List (List Byte)
  deriving DecidableEq

namespace StreamUse

inductive Event
  | call (nBufLen : Int32)
  | getSize
  | read
  | write (data : List Byte)
  | push
  deriving DecidableEq, Repr

def start : StreamUse where
  stream := .empty
  recv := .none
  writing := []
  returned := []
  blocks := []

/-- A size of zero sends the reader to `Sleep` and back to the check. -/
def checkSize (use : StreamUse) : Option StreamUse :=
  match use.recv with
  | .waiting nBufLen =>
      if use.stream.getSize = 0 then
        some use
      else
        some { use with recv := .sized nBufLen (readLen use.stream.getSize nBufLen) }
  | .none | .sized _ _ => none

def lockedRead (use : StreamUse) : Option StreamUse :=
  match use.recv with
  | .sized nBufLen nReadLen =>
      if use.writing = [] then
        (use.stream.read nReadLen).map (fun (bytes, stream) =>
          {
            use with
            stream
            recv := .none
            returned := use.returned ++ [(nBufLen, bytes)]
          })
      else
        none
  | .none | .waiting _ => none

def pushNext (use : StreamUse) : Option StreamUse :=
  match use.writing with
  | [] => none
  | byte :: rest =>
      (use.stream.pushBack byte).map (fun stream => { use with stream, writing := rest })

def step (use : StreamUse) : Event → Option StreamUse
  | .call nBufLen =>
      if use.recv = .none then
        some { use with recv := .waiting nBufLen }
      else
        none
  | .getSize => use.checkSize
  | .read => use.lockedRead
  | .write data =>
      if use.writing = [] then
        some { use with writing := data, blocks := use.blocks ++ [data] }
      else
        none
  | .push => use.pushNext

/-- What a step leads to, by its event. -/
inductive Move (use : StreamUse) : Event → StreamUse → Prop
  | call (nBufLen : Int32) (free : use.recv = .none)
    : Move use (.call nBufLen) { use with recv := .waiting nBufLen }
  | sleep (nBufLen : Int32) (waiting : use.recv = .waiting nBufLen)
      (empty : use.stream.vtBuf = [])
    : Move use .getSize use
  | size (nBufLen : Int32) (waiting : use.recv = .waiting nBufLen)
      (some : use.stream.vtBuf ≠ [])
    : Move use .getSize
        { use with recv := .sized nBufLen (readLen use.stream.getSize nBufLen) }
  | read (nBufLen nReadLen : Int32) (bytes : List Byte) (stream : CByteStream)
      (sized : use.recv = .sized nBufLen nReadLen) (free : use.writing = [])
      (taken : use.stream.read nReadLen = some (bytes, stream))
    : Move use .read
        {
          use with
          stream
          recv := .none
          returned := use.returned ++ [(nBufLen, bytes)]
        }
  | write (data : List Byte) (free : use.writing = [])
    : Move use (.write data) { use with writing := data, blocks := use.blocks ++ [data] }
  | push (byte : Byte) (rest : List Byte) (stream : CByteStream)
      (writing : use.writing = byte :: rest) (pushed : use.stream.pushBack byte = some stream)
    : Move use .push { use with stream, writing := rest }

/-- Each event has its step, and a size check has two. -/
theorem step_move {use next : StreamUse} {event : Event} (stepped : use.step event = some next)
    : Move use event next := by
  cases event with
  | call nBufLen =>
      obtain ⟨free, same⟩ := Option.ite_none_right_eq_some.mp stepped
      exact Option.some.inj same ▸ .call nBufLen free
  | write data =>
      obtain ⟨free, same⟩ := Option.ite_none_right_eq_some.mp stepped
      exact Option.some.inj same ▸ .write data free
  | getSize =>
      cases recv : use.recv with
      | none | sized => simp [step, checkSize, recv] at stepped
      | waiting nBufLen =>
          simp only [step, checkSize, recv] at stepped
          split at stepped <;> obtain rfl := Option.some.inj stepped
          · exact .sleep nBufLen recv (CByteStream.getSize_eq_zero.mp ‹_›)
          · exact .size nBufLen recv (mt CByteStream.getSize_eq_zero.mpr ‹_›)
  | read =>
      cases recv : use.recv with
      | none | waiting => simp [step, lockedRead, recv] at stepped
      | sized nBufLen nReadLen =>
          simp only [step, lockedRead, recv] at stepped
          obtain ⟨free, moved⟩ := Option.ite_none_right_eq_some.mp stepped
          obtain ⟨⟨bytes, stream⟩, taken, rfl⟩ := Option.map_eq_some_iff.mp moved
          exact .read nBufLen nReadLen bytes stream recv free taken
  | push =>
      cases writing : use.writing with
      | nil => simp [step, pushNext, writing] at stepped
      | cons byte rest =>
          simp only [step, pushNext, writing] at stepped
          obtain ⟨stream, pushed, rfl⟩ := Option.map_eq_some_iff.mp stepped
          exact .push byte rest stream writing pushed

theorem Move.step {use next : StreamUse} {event : Event} (move : Move use event next)
    : use.step event = some next := by
  cases move with
  | call nBufLen free => simp [StreamUse.step, free]
  | sleep nBufLen waiting empty =>
      simp [StreamUse.step, checkSize, waiting, CByteStream.getSize_eq_zero, empty]
  | size nBufLen waiting some =>
      simp [StreamUse.step, checkSize, waiting, CByteStream.getSize_eq_zero, some]
  | read nBufLen nReadLen bytes stream sized free taken =>
      simp [StreamUse.step, lockedRead, sized, free, taken]
  | write data free => simp [StreamUse.step, free]
  | push byte rest stream writing pushed => simp [StreamUse.step, pushNext, writing, pushed]

/-- What calls have returned, what waits in the stream, and what is being pushed to it. -/
def bytes (use : StreamUse) : List Byte :=
  use.returned.flatMap Prod.snd ++ use.stream.vtBuf ++ use.writing

/-- What an event gives to `Write`. -/
def Event.data : Event → List Byte
  | .write data => data
  | .call _ | .getSize | .read | .push => []

/-- No byte is lost, repeated or moved to another place. -/
theorem Move.bytes {use next : StreamUse} {event : Event} (move : Move use event next)
    : next.bytes = use.bytes ++ event.data := by
  cases move with
  | call | sleep | size => exact (List.append_nil _).symm
  | read nBufLen nReadLen bytes stream _ free taken =>
      obtain ⟨split, _⟩ := CByteStream.read_eq_some taken
      simp [StreamUse.bytes, Event.data, split, free]
  | write data free => simp [StreamUse.bytes, Event.data, free]
  | push byte rest stream writing pushed =>
      have longer := CByteStream.pushBack_eq_some pushed
      simp [StreamUse.bytes, Event.data, longer, writing]

/-- A size check finds nothing, or as many bytes as are asked for. -/
def Ample (use : StreamUse) : Prop :=
  ∀ nBufLen,
    use.recv = .waiting nBufLen
    → use.stream.vtBuf ≠ []
    → nBufLen.toInt ≤ use.stream.vtBuf.length

instance (use : StreamUse) : Decidable use.Ample :=
  match recv : use.recv with
  | .waiting nBufLen =>
      decidable_of_iff
        (use.stream.vtBuf ≠ [] → nBufLen.toInt ≤ use.stream.vtBuf.length)
        (by simp [Ample, recv])
  | .none | .sized _ _ => isTrue (by simp [Ample, recv])

/-- Callers give `Recv` room for at least one byte. -/
def Event.Roomy : Event → Prop
  | .call nBufLen => 1 ≤ nBufLen.toInt
  | .getSize | .read | .write _ | .push => True

instance (event : Event) : Decidable event.Roomy :=
  match event with
  | .call nBufLen => inferInstanceAs (Decidable (1 ≤ nBufLen.toInt))
  | .getSize | .read | .write _ | .push => isTrue trivial

/-- Calls returned at least a byte and at most what they had room for, and what they returned,
followed by the stream, is what was written.
-/
structure Fifo (use : StreamUse) : Prop where
  covered : RecvCall.Covered use.stream.vtBuf.length use.recv
  stored
    : ∀ call ∈ use.returned, 1 ≤ call.2.length ∧ call.2.length ≤ call.1.toInt
  order
    : use.returned.flatMap Prod.snd ++ use.stream.vtBuf ++ use.writing = use.blocks.flatten

theorem fifo_start : Fifo start where
  covered := trivial
  stored _ member := absurd member List.not_mem_nil
  order := rfl

section Steps

variable {use next : StreamUse} {nBufLen nReadLen : Int32}

/-- The size that the check samples is not zero, and bounds what is read. -/
theorem Fifo.size (fifo : Fifo use) (waiting : use.recv = .waiting nBufLen)
    (some : use.stream.vtBuf ≠ [])
    : Fifo { use with recv := .sized nBufLen (readLen use.stream.getSize nBufLen) } := by
  have covered := fifo.covered
  rw [waiting] at covered
  refine ⟨?_, fifo.stored, fifo.order⟩
  have positive := List.length_pos_iff.mpr some
  simp only [RecvCall.Covered, readLen_toInt, CByteStream.getSize_toInt] at covered ⊢
  omega

/-- `Read` gets what it asks for and takes it from the front of the stream. -/
theorem Fifo.read (fifo : Fifo use) {bytes : List Byte} {stream : CByteStream}
    (sized : use.recv = .sized nBufLen nReadLen) (free : use.writing = [])
    (taken : use.stream.read nReadLen = some (bytes, stream))
    : Fifo
        {
          use with
          stream
          recv := .none
          returned := use.returned ++ [(nBufLen, bytes)]
        } := by
  have covered := fifo.covered
  rw [sized] at covered
  simp only [RecvCall.Covered] at covered
  obtain ⟨_, length⟩ := CByteStream.read_eq_some taken
  refine ⟨trivial, ?_, ?_⟩
  · intro call member
    rcases List.mem_append.mp member with earlier | now
    · exact fifo.stored call earlier
    · obtain rfl := List.mem_singleton.mp now
      simp only
      omega
  · have kept := (Move.read nBufLen nReadLen bytes stream sized free taken).bytes
    exact (kept.trans (List.append_nil _)).trans fifo.order

/-- A byte goes from the block to the stream. -/
theorem Fifo.push (fifo : Fifo use) {byte : Byte} {rest : List Byte} {stream : CByteStream}
    (writing : use.writing = byte :: rest) (pushed : use.stream.pushBack byte = some stream)
    : Fifo { use with stream, writing := rest } := by
  have longer := CByteStream.pushBack_eq_some pushed
  refine ⟨?_, fifo.stored, ?_⟩
  · have covered := fifo.covered
    cases recv : use.recv with
    | none => trivial
    | waiting nBufLen =>
        rw [recv] at covered
        exact covered
    | sized nBufLen nReadLen =>
        rw [recv] at covered
        simp only [RecvCall.Covered, longer, List.length_append] at covered ⊢
        push_cast
        omega
  · have kept := (Move.push byte rest stream writing pushed).bytes
    exact (kept.trans (List.append_nil _)).trans fifo.order

/-- Every step keeps the order, by the events. -/
theorem Fifo.step {event : Event} (fifo : Fifo use) (roomy : event.Roomy)
    (stepped : use.step event = some next)
    : Fifo next := by
  cases step_move stepped with
  | call nBufLen => exact ⟨roomy, fifo.stored, fifo.order⟩
  | sleep => exact fifo
  | size nBufLen waiting some => exact fifo.size waiting some
  | read nBufLen nReadLen bytes stream sized free taken => exact fifo.read sized free taken
  | write data free =>
      refine ⟨fifo.covered, fifo.stored, (Move.write data free).bytes.trans ?_⟩
      rw [StreamUse.bytes, fifo.order, List.flatten_append, List.flatten_singleton]
      rfl
  | push byte rest stream writing pushed => exact fifo.push writing pushed

end Steps

/-- Whatever the interleaving of the readers of all connections with the writer, each connection
is read in the order in which it was written, and no `Recv` asks for more than there is.
-/
theorem fifo_of_run {Addr : Type} [DecidableEq Addr] {events : List (Addr × Event)}
    {uses : Addr → StreamUse}
    (ran
      : TransitionSystem.run (TransitionSystem.stepAt step) (fun _ => start) events
        = some uses)
    (roomy : ∀ event ∈ events, event.2.Roomy) (addr : Addr)
    : Fifo (uses addr) := by
  have along : TransitionSystem.Along (TransitionSystem.stepAt step)
      (fun _ event => event.2.Roomy) (fun _ => start) events :=
    TransitionSystem.along_of_forall roomy
  exact TransitionSystem.run_invariant_along
    (fun fifo met stepped =>
      TransitionSystem.stepAt_invariant
        (fun kept roomy moved => Fifo.step kept roomy moved) fifo met stepped)
    (fun _ => fifo_start) along ran addr

/-- A block is written in two parts around a size check, and read in two parts. -/
theorem fifo_of_run_split
    : ∃ events uses,
        TransitionSystem.run (TransitionSystem.stepAt step) (fun _ : Nat => start) events
          = some uses
        ∧ (uses 5).returned = [(4, [1]), (1, [2])]
        ∧ Fifo (uses 5) := by
  let events : List (Nat × Event) :=
    [
      (5, .call 4), (5, .getSize), (5, .write [1, 2, 3]), (5, .push), (5, .getSize),
      (5, .push), (5, .push), (5, .read), (5, .call 1), (5, .getSize), (5, .read)
    ]
  obtain ⟨uses, found⟩ := Option.isSome_iff_exists.mp
    (by decide +kernel
      : ((TransitionSystem.run (TransitionSystem.stepAt step) (fun _ : Nat => start)
          events).filter (fun uses => (uses 5).returned = [(4, [1]), (1, [2])])).isSome)
  obtain ⟨ran, returned⟩ := Option.filter_eq_some_iff.mp found
  exact ⟨events, uses, ran, of_decide_eq_true returned, fifo_of_run ran (by decide) 5⟩

/-- The writer's steps. -/
def Event.OfWriter : Event → Prop
  | .write _ | .push => True
  | .call _ | .getSize | .read => False

/-- While only the writer moves, the reader stays and its stream grows. -/
theorem grown_of_run {use later : StreamUse} {events : List Event}
    (writer : ∀ event ∈ events, event.OfWriter)
    (ran : TransitionSystem.run step use events = some later)
    : use.stream.vtBuf <+: later.stream.vtBuf ∧ later.recv = use.recv := by
  induction events generalizing use with
  | nil => exact Option.some.inj ran ▸ ⟨List.prefix_rfl, rfl⟩
  | cons event rest ih =>
      obtain ⟨next, stepped, ranOn⟩ := Option.bind_eq_some_iff.mp ran
      have now := writer event List.mem_cons_self
      obtain ⟨grown, same⟩ :=
        ih (fun later member => writer later (List.mem_cons_of_mem event member)) ranOn
      cases step_move stepped with
      | call | sleep | size | read => exact now.elim
      | write data => exact ⟨grown, same⟩
      | push byte rest stream writing pushed =>
          have longer := CByteStream.pushBack_eq_some pushed
          exact ⟨(longer ▸ List.prefix_append _ [byte]).trans grown, same⟩

end StreamUse

end SchoolSystem.TcpSocket
