import Mathlib.Data.List.Basic
import SchoolSystem.TcpSocket.Recv
import SchoolSystem.TcpSocket.Wire

/-! Messages over the byte stream of a connection: a length, then as many bytes.
The reader is the main loop of `CServer` or `ShowList`. Both call `Recv` twice for a message
and ignore what it returns. `RecvThreadProc` writes the packets to the stream byte by byte, and
`Recv` looks at the size of the stream at any time in between.
-/

namespace SchoolSystem.Exchange

open TcpSocket

/-- The length that goes before a message body. -/
def lengthOf (body : List Byte) : Int32 := Int32.ofNat body.length

/-- The bytes of one message. -/
def frame (body : List Byte) : List Byte := intBytes (lengthOf body) ++ body

/-- The packets of one message: one `Send` for its length and one for its body. -/
def framePackets (body : List Byte) : List (List Byte) :=
  payloads (intBytes (lengthOf body)) ++ payloads body

def sendFrame {Addr Seq : Type} [DecidableEq Addr] [Add Seq] [OfNat Seq 1]
    (socket : CTcpSocket Addr Seq) (addr : Addr) (body : List Byte)
    : CTcpSocket Addr Seq :=
  (socket.send addr (intBytes (lengthOf body))).send addr body

/-- `SendSql` sends the text with its terminating zero byte. -/
def requestBody (sql : List Byte) : List Byte := sql ++ [0]

theorem requestBody_length (sql : List Byte) : (requestBody sql).length = sql.length + 1 := by
  simp [requestBody]

/-- Sending messages one after the other queues their packets in order. -/
theorem foldl_sendFrame {Addr Seq : Type} [DecidableEq Addr] [Add Seq] [OfNat Seq 1]
    (socket : CTcpSocket Addr Seq) (addr : Addr) (bodies : List (List Byte))
    : bodies.foldl (fun socket body => sendFrame socket addr body) socket
      = socket.queuePackets addr (bodies.flatMap framePackets) := by
  induction bodies generalizing socket with
  | nil => rfl
  | cons body rest ih =>
      rw [List.foldl_cons, ih, List.flatMap_cons, framePackets]
      simp only [sendFrame, CTcpSocket.send, CTcpSocket.queuePackets, List.foldl_append]

/-- Which of its two calls of `Recv` the reader is at. -/
inductive Position
  | length
  | body
  deriving DecidableEq, Repr

/-- A connection's bytes between the writer and the reader. `nLen` is the reader's variable,
and `received` holds what its pairs of `Recv` calls returned.
-/
structure Channel where
  inTransit : List (List Byte)
  use : StreamUse
  nLen : Int32
  position : Position
  received : List (Int32 × List Byte)
  deriving DecidableEq

/-- `arrive` begins the `Write` of the next packet, and `push` is a step of it. -/
inductive Event
  | arrive
  | push
  | call
  | getSize
  | read
  deriving DecidableEq, Repr

/-- The `int` after some of its bytes were received into it. -/
def overwrite (old : Int32) (bytes : List Byte) : Int32 :=
  intAt (bytes ++ (intBytes old).drop bytes.length) 0

/-- Readers differ in where they set the length variable to zero before they receive it:
`CServer` does so for every request, `ShowList` only for the first block of a reply.
-/
abbrev Zeroed := Nat → Bool

def Zeroed.mainLoop : Zeroed := fun _ => true

def Zeroed.showList : Zeroed := fun count => count % 2 == 0

/-- The `nBufLen` of the reader's call. The buffers for the body have 4096 bytes, and a negative or
larger length is undefined.
-/
def Channel.asks (channel : Channel) : Option Int32 :=
  match channel.position with
  | .length => some 4
  | .body =>
      if 0 ≤ channel.nLen.toInt ∧ channel.nLen.toInt ≤ 0x1000 then some channel.nLen else none

/-- The reader goes on with what its `Recv` has stored. -/
def Channel.store (zeroed : Zeroed) (channel : Channel) (bytes : List Byte) : Channel :=
  match channel.position with
  | .length =>
      let old := if zeroed channel.received.length then 0 else channel.nLen
      { channel with nLen := overwrite old bytes, position := .body }
  | .body =>
      {
        channel with
        received := channel.received ++ [(channel.nLen, bytes)]
        position := .length
      }

/-- `m_byteStream.Read`, after which `Recv` returns. -/
def Channel.read (zeroed : Zeroed) (channel : Channel) : Option Channel := do
  let use ← channel.use.step .read
  let (_, bytes) ← use.returned.getLast?
  return { channel with use }.store zeroed bytes

def step (zeroed : Zeroed) (channel : Channel) : Event → Option Channel
  | .arrive =>
      match channel.inTransit with
      | [] => none
      | data :: rest =>
          (channel.use.step (.write data)).map
            (fun use => { channel with inTransit := rest, use })
  | .push => (channel.use.step .push).map (fun use => { channel with use })
  | .call => do
      let nBufLen ← channel.asks
      let use ← channel.use.step (.call nBufLen)
      return { channel with use }
  | .getSize => (channel.use.step .getSize).map (fun use => { channel with use })
  | .read => channel.read zeroed

/-- All messages are sent, and nothing has arrived. -/
def start (bodies : List (List Byte)) : Channel where
  inTransit := bodies.flatMap framePackets
  use := .start
  nLen := 0
  position := .length
  received := []

/-- `string(buf)` for a zeroed buffer that the body was received into. -/
def taskSql (body : List Byte) : List Byte := body.takeWhile (fun byte => byte != 0)

/-- The bytes that the reader has before it, in the stream or on their way. -/
def Channel.unread (channel : Channel) : List Byte :=
  channel.use.stream.vtBuf ++ channel.use.writing ++ channel.inTransit.flatten

/-- What a reader with these messages to come has before it: after a length, its body is next. -/
inductive Ahead (rest : List (List Byte)) (nLen : Int32) (unread : List Byte) : Position → Prop
  | length (whole : unread = rest.flatMap frame) : Ahead rest nLen unread .length
  | body (body : List Byte) (more : List (List Byte)) (split : rest = body :: more)
      (announced : nLen = lengthOf body) (whole : unread = body ++ more.flatMap frame)
    : Ahead rest nLen unread .body

/-- The reader got exactly the first messages, has exactly the rest before it, and goes on as
long as there is one; a task gets the text of its request.
-/
structure Exact (zeroed : Zeroed) (bodies : List (List Byte)) (channel : Channel) : Prop where
  isPrefix : channel.received <+: bodies.map (fun body => (lengthOf body, body))
  ahead
    : Ahead (bodies.drop channel.received.length) channel.nLen channel.unread channel.position
  continues
    : channel.received.length < bodies.length
      → channel.use.stream.vtBuf.length < maxSize
      → ∃ event next, step zeroed channel event = some next ∧ next ≠ channel
  tasks
    : ∀ sqls : List (List Byte),
        bodies = sqls.map requestBody
        → (∀ sql ∈ sqls, 0 ∉ sql)
        → channel.received.map (fun message => taskSql message.2) <+: sqls

/-- Whatever the order of arrivals, pushes and the reader's steps, the reader is exact. -/
def Framed (zeroed : Zeroed) (bodies : List (List Byte)) : Prop :=
  ∀ events channel,
    TransitionSystem.run (step zeroed) (start bodies) events = some channel
    → Exact zeroed bodies channel

/-- A size check of the reader finds nothing, or as many bytes as it asks for. -/
def Ample (channel : Channel) : Event → Prop
  | .getSize => channel.use.Ample
  | .arrive | .push | .call | .read => True

instance (channel : Channel) (event : Event) : Decidable (Ample channel event) :=
  match event with
  | .getSize => inferInstanceAs (Decidable channel.use.Ample)
  | .arrive | .push | .call | .read => isTrue trivial

/-- A step that is no look at an empty stream. -/
def LeadsOn (zeroed : Zeroed) (channel : Channel) (event : Event) : Prop :=
  step zeroed channel event ≠ some channel

-----------------------------------------------------------------------------------------
-- Messages and their bytes
-----------------------------------------------------------------------------------------

/-- A body that the protocol allows. -/
def Allowed (body : List Byte) : Prop := 1 ≤ body.length ∧ body.length ≤ 0x1000

instance (body : List Byte) : Decidable (Allowed body) :=
  inferInstanceAs (Decidable (_ ∧ _))

/-- The length that goes before a body that fits the buffer. -/
theorem lengthOf_toInt {body : List Byte} (fits : body.length ≤ 0x1000)
    : (lengthOf body).toInt = body.length :=
  Int32.toInt_ofNat_of_lt (by omega)

/-- The length of a body that the protocol allows is within the buffer. -/
theorem Allowed.inBuffer {body : List Byte} (allowed : Allowed body)
    : 0 ≤ (lengthOf body).toInt ∧ (lengthOf body).toInt ≤ 0x1000 := by
  have length := lengthOf_toInt allowed.2
  have upper := allowed.2
  omega

theorem overwrite_intBytes (old n : Int32) : overwrite old (intBytes n) = n :=
  intAt_intBytes n List.length_nil _

theorem framePackets_flatten (body : List Byte) : (framePackets body).flatten = frame body := by
  rw [framePackets, List.flatten_append, payloads_flatten, payloads_flatten, frame]

theorem flatten_flatMap_framePackets (bodies : List (List Byte))
    : (bodies.flatMap framePackets).flatten = bodies.flatMap frame := by
  induction bodies with
  | nil => rfl
  | cons body rest ih =>
      rw [List.flatMap_cons, List.flatten_append, framePackets_flatten, ih, List.flatMap_cons]

/-- The text of a request survives its terminating zero byte. -/
theorem taskSql_requestBody {sql : List Byte} (text : 0 ∉ sql)
    : taskSql (requestBody sql) = sql := by
  have whole : ∀ byte ∈ sql, (byte != 0) = true := by
    intro byte member
    exact bne_iff_ne.mpr (fun zero => text (zero ▸ member))
  rw [taskSql, requestBody, List.takeWhile_append_of_pos whole]
  simp

section Reading

variable {rest : List (List Byte)} {nLen : Int32} {bytes later : List Byte}

/-- Four bytes at the border of a message are its length, and its body is next. -/
theorem Ahead.read_length (ahead : Ahead rest nLen (bytes ++ later) .length)
    (four : bytes.length = 4) (old : Int32)
    : Ahead rest (overwrite old bytes) later .body := by
  cases ahead with
  | length whole =>
      cases rest with
      | nil =>
          have none := (List.append_eq_nil_iff.mp whole).1
          rw [none] at four
          cases four
      | cons body more =>
          rw [List.flatMap_cons, frame, List.append_assoc] at whole
          obtain ⟨rfl, after⟩ :=
            List.append_inj whole (by rw [four, intBytes_length])
          exact .body body more rfl (overwrite_intBytes old (lengthOf body)) after

/-- As many bytes as a length says are the body, and the next message is before the reader. -/
theorem Ahead.read_body (ahead : Ahead rest nLen (bytes ++ later) .body)
    (allowed : ∀ body ∈ rest, Allowed body) (size : (bytes.length : Int) = nLen.toInt)
    : ∃ more,
        rest = bytes :: more ∧ nLen = lengthOf bytes ∧ Ahead more nLen later .length := by
  cases ahead with
  | body body more split announced whole =>
      have fits := allowed body (split ▸ List.mem_cons_self)
      rw [announced, lengthOf_toInt fits.2] at size
      obtain ⟨rfl, after⟩ := List.append_inj whole (by omega)
      exact ⟨more, split, announced, .length after⟩

end Reading

-----------------------------------------------------------------------------------------
-- Readers whose size checks find as much as they ask for
-----------------------------------------------------------------------------------------

/-- The reader has finished some messages and has the others before it. A `Recv` under way asks for
the whole next field, and one that has sampled the size has found it.
-/
structure Aligned (bodies finished rest : List (List Byte)) (channel : Channel) : Prop where
  split : bodies = finished ++ rest
  received : channel.received = finished.map (fun body => (lengthOf body, body))
  ahead : Ahead rest channel.nLen channel.unread channel.position
  waiting
    : ∀ nBufLen, channel.use.recv = .waiting nBufLen → channel.asks = some nBufLen
  sized
    : ∀ nBufLen nReadLen,
        channel.use.recv = .sized nBufLen nReadLen
        → channel.asks = some nBufLen
          ∧ nReadLen = nBufLen
          ∧ nBufLen.toInt ≤ channel.use.stream.vtBuf.length

/-- The reader has finished some messages of the list. -/
def AtBorder (bodies : List (List Byte)) (channel : Channel) : Prop :=
  ∃ finished rest, Aligned bodies finished rest channel

theorem aligned_start (bodies : List (List Byte)) : Aligned bodies [] bodies (start bodies) where
  split := rfl
  received := rfl
  ahead := .length (by simp [Channel.unread, start, StreamUse.start, CByteStream.empty,
    flatten_flatMap_framePackets])
  waiting := nofun
  sized := nofun

section Steps

variable {bodies finished rest : List (List Byte)} {channel next : Channel} {zeroed : Zeroed}
  {use : StreamUse} {event : Event}

/-- What a step leads to, by its event: it is a step of the stream. -/
inductive Move (zeroed : Zeroed) (channel : Channel) : Event → Channel → Prop
  | arrive (data : List Byte) (rest : List (List Byte)) (use : StreamUse)
      (front : channel.inTransit = data :: rest)
      (moved : StreamUse.Move channel.use (.write data) use)
    : Move zeroed channel .arrive { channel with inTransit := rest, use }
  | push (use : StreamUse) (moved : StreamUse.Move channel.use .push use)
    : Move zeroed channel .push { channel with use }
  | call (nBufLen : Int32) (use : StreamUse) (asks : channel.asks = some nBufLen)
      (moved : StreamUse.Move channel.use (.call nBufLen) use)
    : Move zeroed channel .call { channel with use }
  | getSize (use : StreamUse) (moved : StreamUse.Move channel.use .getSize use)
    : Move zeroed channel .getSize { channel with use }
  | read (use : StreamUse) (nBufLen : Int32) (bytes : List Byte)
      (moved : StreamUse.Move channel.use .read use)
      (last : use.returned.getLast? = some (nBufLen, bytes))
    : Move zeroed channel .read ({ channel with use }.store zeroed bytes)

theorem step_move (stepped : step zeroed channel event = some next)
    : Move zeroed channel event next := by
  cases event with
  | arrive =>
      cases front : channel.inTransit with
      | nil => simp [step, front] at stepped
      | cons data rest =>
          simp only [step, front] at stepped
          obtain ⟨use, moved, rfl⟩ := Option.map_eq_some_iff.mp stepped
          exact .arrive data rest use front (StreamUse.step_move moved)
  | push =>
      obtain ⟨use, moved, rfl⟩ := Option.map_eq_some_iff.mp stepped
      exact .push use (StreamUse.step_move moved)
  | call =>
      obtain ⟨nBufLen, asks, called⟩ := Option.bind_eq_some_iff.mp stepped
      obtain ⟨use, moved, same⟩ := Option.bind_eq_some_iff.mp called
      obtain rfl := Option.some.inj same
      exact .call nBufLen use asks (StreamUse.step_move moved)
  | getSize =>
      obtain ⟨use, moved, rfl⟩ := Option.map_eq_some_iff.mp stepped
      exact .getSize use (StreamUse.step_move moved)
  | read =>
      obtain ⟨use, moved, stored⟩ := Option.bind_eq_some_iff.mp stepped
      obtain ⟨⟨nBufLen, bytes⟩, last, same⟩ := Option.bind_eq_some_iff.mp stored
      obtain rfl := Option.some.inj same
      exact .read use nBufLen bytes (StreamUse.step_move moved) last

theorem Move.step (move : Move zeroed channel event next)
    : Exchange.step zeroed channel event = some next := by
  cases move with
  | arrive data rest use front moved => simp [Exchange.step, front, moved.step]
  | push use moved | getSize use moved => simp [Exchange.step, moved.step]
  | call nBufLen use asks moved => simp [Exchange.step, asks, moved.step]
  | read use nBufLen bytes moved last => simp [Exchange.step, Channel.read, moved.step, last]

/-- A step of the writer that moves bytes on to the stream. -/
theorem Aligned.write (aligned : Aligned bodies finished rest channel)
    (unread : next.unread = channel.unread) (received : next.received = channel.received)
    (nLen : next.nLen = channel.nLen) (position : next.position = channel.position)
    (recv : next.use.recv = channel.use.recv)
    (grown : channel.use.stream.vtBuf.length ≤ next.use.stream.vtBuf.length)
    : Aligned bodies finished rest next := by
  have asks : next.asks = channel.asks := by rw [Channel.asks, nLen, position, Channel.asks]
  constructor
  · exact aligned.split
  · rw [received]
    exact aligned.received
  · rw [unread, nLen, position]
    exact aligned.ahead
  · rw [recv, asks]
    exact aligned.waiting
  · rw [recv, asks]
    intro nBufLen nReadLen sized
    obtain ⟨asked, whole, covered⟩ := aligned.sized nBufLen nReadLen sized
    exact ⟨asked, whole, covered.trans (by exact_mod_cast grown)⟩

/-- A size that is not zero covers the whole next field, so `nReadLen` is what the reader asks
for.
-/
theorem Aligned.size (aligned : Aligned bodies finished rest channel) {nBufLen : Int32}
    (waiting : channel.use.recv = .waiting nBufLen)
    (ample : nBufLen.toInt ≤ channel.use.stream.vtBuf.length)
    : Aligned bodies finished rest
        {
          channel with
          use :=
            {
              channel.use with
              recv := .sized nBufLen (readLen channel.use.stream.getSize nBufLen)
            }
        } where
  split := aligned.split
  received := aligned.received
  ahead := aligned.ahead
  waiting := nofun
  sized := by
    rintro _ _ ⟨⟩
    exact ⟨aligned.waiting nBufLen waiting, readLen_getSize ample, ample⟩

/-- `Recv` returns the whole next field. -/
theorem Aligned.read (aligned : Aligned bodies finished rest channel)
    (allowed : ∀ body ∈ bodies, Allowed body) {nBufLen nReadLen : Int32} {bytes : List Byte}
    {stream : CByteStream} (sized : channel.use.recv = .sized nBufLen nReadLen)
    (taken : channel.use.stream.read nReadLen = some (bytes, stream))
    : AtBorder bodies
        ({
            channel with
            use :=
              {
                channel.use with
                stream
                recv := .none
                returned := channel.use.returned ++ [(nBufLen, bytes)]
              }
          }.store zeroed bytes) := by
  obtain ⟨asks, rfl, _⟩ := aligned.sized nBufLen nReadLen sized
  obtain ⟨split, length⟩ := CByteStream.read_eq_some taken
  have ahead := aligned.ahead
  have whole : channel.unread
      = bytes ++ (stream.vtBuf ++ channel.use.writing ++ channel.inTransit.flatten) := by
    rw [Channel.unread, split]
    simp
  rw [whole] at ahead
  cases position : channel.position with
  | length =>
      rw [position] at ahead
      rw [Channel.asks, position] at asks
      obtain rfl := Option.some.inj asks
      have four : bytes.length = 4 := Int.ofNat.inj length
      refine ⟨finished, rest, ?_⟩
      simp only [Channel.store]
      exact ⟨aligned.split, aligned.received, ahead.read_length four _, nofun, nofun⟩
  | body =>
      rw [position] at ahead
      simp only [Channel.asks, position] at asks
      obtain ⟨_, same⟩ := Option.ite_none_right_eq_some.mp asks
      obtain rfl := Option.some.inj same
      obtain ⟨more, rfl, announced, next⟩ := ahead.read_body
        (fun body member => allowed body (aligned.split ▸ List.mem_append_right _ member)) length
      refine ⟨finished ++ [bytes], more, ?_⟩
      simp only [Channel.store]
      refine ⟨by simp [aligned.split], ?_, next, nofun, nofun⟩
      rw [aligned.received, announced, List.map_append]
      rfl

/-- Every step keeps the reader at the border of a field, by the events. -/
theorem AtBorder.step (border : AtBorder bodies channel)
    (allowed : ∀ body ∈ bodies, Allowed body) (ample : Ample channel event)
    (stepped : step zeroed channel event = some next)
    : AtBorder bodies next := by
  obtain ⟨finished, rest, aligned⟩ := border
  cases step_move stepped with
  | arrive data more use front moved =>
      cases moved with
      | write _ free =>
          refine ⟨finished, rest, aligned.write ?_ rfl rfl rfl rfl (Nat.le_refl _)⟩
          simp [Channel.unread, front, free]
  | push use moved =>
      cases moved with
      | push byte more stream writing pushed =>
          have longer := CByteStream.pushBack_eq_some pushed
          refine ⟨finished, rest, aligned.write ?_ rfl rfl rfl rfl ?_⟩
          · simp [Channel.unread, longer, writing]
          · simp [longer]
  | call nBufLen use asks moved =>
      cases moved with
      | call _ free =>
          refine ⟨finished, rest, aligned.split, aligned.received, aligned.ahead, ?_, nofun⟩
          rintro _ ⟨⟩
          exact asks
  | getSize use moved =>
      cases moved with
      | sleep => exact ⟨finished, rest, aligned⟩
      | size nBufLen waiting some =>
          exact ⟨finished, rest, aligned.size waiting (ample nBufLen waiting some)⟩
  | read use _ bytes moved last =>
      cases moved with
      | read nBufLen nReadLen taken stream sized _ read =>
          rw [List.getLast?_concat] at last
          obtain ⟨rfl, rfl⟩ := Prod.mk.inj (Option.some.inj last)
          exact aligned.read allowed sized read

/-- How far the reader is in a message. -/
def place : Position → RecvCall → Nat
  | .length, .none => 0
  | .length, .waiting _ => 1
  | .length, .sized _ _ => 2
  | .body, .none => 3
  | .body, .waiting _ => 4
  | .body, .sized _ _ => 5

/-- The steps still to come: the packets in transit, the bytes to be pushed, six for each message
and the last call.
-/
def Channel.left (count : Nat) (channel : Channel) : Nat :=
  channel.inTransit.length
  + channel.use.writing.length
  + channel.inTransit.flatten.length
  + (6 * (count - channel.received.length) + 1 - place channel.position channel.use.recv)

theorem Aligned.count (aligned : Aligned bodies finished rest channel)
    : bodies.length - channel.received.length = rest.length := by
  rw [aligned.split, aligned.received, List.length_append, List.length_map]
  omega

/-- A reader that has bytes before it, or has read a length, has a message to finish. -/
theorem Aligned.unfinished (aligned : Aligned bodies finished rest channel)
    (begun : channel.position = .body ∨ channel.use.stream.vtBuf ≠ [])
    : 0 < bodies.length - channel.received.length := by
  have ahead := aligned.ahead
  rw [aligned.count, List.length_pos_iff]
  rintro rfl
  rcases begun with body | bytes
  · rw [body] at ahead
    cases ahead with
    | body _ _ split => cases split
  · cases position : channel.position with
    | length =>
        rw [position] at ahead
        cases ahead with
        | length whole =>
            rw [Channel.unread, List.append_assoc] at whole
            exact bytes (List.append_eq_nil_iff.mp whole).1
    | body =>
        rw [position] at ahead
        cases ahead with
        | body _ _ split => cases split

/-- Every step but a look at an empty stream is one of those still to come. -/
theorem Aligned.left (aligned : Aligned bodies finished rest channel)
    (move : Move zeroed channel event next)
    : next = channel ∨ next.left bodies.length + 1 ≤ channel.left bodies.length := by
  cases move with
  | arrive data more use front moved =>
      cases moved with
      | write _ free =>
          right
          simp only [Channel.left, front, free, List.length_cons, List.flatten_cons,
            List.length_append, List.length_nil]
          omega
  | push use moved =>
      cases moved with
      | push byte more stream writing pushed =>
          right
          simp only [Channel.left, writing, List.length_cons]
          omega
  | call nBufLen use asks moved =>
      cases moved with
      | call _ free =>
          right
          simp only [Channel.left, free]
          cases position : channel.position with
          | length =>
              simp only [place]
              omega
          | body =>
              have unfinished := aligned.unfinished (Or.inl position)
              simp only [place]
              omega
  | getSize use moved =>
      cases moved with
      | sleep => exact Or.inl rfl
      | size nBufLen waiting some =>
          right
          have unfinished := aligned.unfinished (Or.inr some)
          simp only [Channel.left, waiting]
          cases channel.position <;> simp only [place] <;> omega
  | read use _ bytes moved last =>
      cases moved with
      | read nBufLen nReadLen taken stream sized free read =>
          right
          have stored := sized
          cases position : channel.position with
          | length =>
              obtain ⟨asks, rfl, covered⟩ := aligned.sized nBufLen nReadLen sized
              rw [Channel.asks, position] at asks
              obtain rfl := Option.some.inj asks
              have bytes : channel.use.stream.vtBuf ≠ [] := by
                rintro none
                rw [none] at covered
                exact absurd covered (by decide)
              have unfinished := aligned.unfinished (Or.inr bytes)
              simp only [Channel.left, Channel.store, sized, position, place]
              omega
          | body =>
              have unfinished := aligned.unfinished (Or.inl position)
              simp only [Channel.left, Channel.store, sized, position, place, List.length_append,
                List.length_singleton]
              omega

theorem Channel.asks_nonneg {nBufLen : Int32} (asks : channel.asks = some nBufLen)
    : 0 ≤ nBufLen.toInt := by
  rw [Channel.asks] at asks
  split at asks
  · obtain rfl := Option.some.inj asks
    decide
  · obtain ⟨inside, same⟩ := Option.ite_none_right_eq_some.mp asks
    exact Option.some.inj same ▸ inside.1

/-- A length that was read as it was sent is within the buffer. -/
theorem Aligned.asks (aligned : Aligned bodies finished rest channel)
    (allowed : ∀ body ∈ bodies, Allowed body)
    : ∃ nBufLen, channel.asks = some nBufLen := by
  have ahead := aligned.ahead
  cases position : channel.position with
  | length => exact ⟨4, by rw [Channel.asks, position]⟩
  | body =>
      rw [position] at ahead
      cases ahead with
      | body body others split announced =>
          have inside := (allowed body (by simp [aligned.split, split])).inBuffer
          exact ⟨channel.nLen, by simp only [Channel.asks, position, announced, if_pos inside]⟩

/-- Where a message is to come and nothing of it is in the stream, it is in transit. -/
theorem Aligned.in_transit (aligned : Aligned bodies finished rest channel)
    (allowed : ∀ body ∈ bodies, Allowed body)
    (more : channel.received.length < bodies.length)
    (empty : channel.use.stream.vtBuf = []) (written : channel.use.writing = [])
    : ∃ data others, channel.inTransit = data :: others := by
  have ahead := aligned.ahead
  have count := aligned.count
  have unread : channel.unread = channel.inTransit.flatten := by
    rw [Channel.unread, empty, written]
    rfl
  cases transit : channel.inTransit with
  | cons data others => exact ⟨data, others, rfl⟩
  | nil =>
      rw [unread, transit] at ahead
      generalize channel.position = position at ahead
      cases ahead with
      | length whole =>
          cases rest with
          | nil =>
              rw [List.length_nil] at count
              omega
          | cons body others =>
              have length := congrArg List.length whole
              simp only [List.flatMap_cons, frame, List.length_append, intBytes_length,
                List.flatten_nil, List.length_nil] at length
              omega
      | body body others split announced whole =>
          have some := (allowed body (by simp [aligned.split, split])).1
          have none := (List.append_eq_nil_iff.mp whole.symm).1
          rw [none] at some
          cases some

/-- A reader with a message to come can go on: a packet arrives, a byte is pushed, or the reader
has its next step.
-/
theorem Aligned.continues (zeroed : Zeroed) (aligned : Aligned bodies finished rest channel)
    (allowed : ∀ body ∈ bodies, Allowed body)
    (more : channel.received.length < bodies.length)
    (room : channel.use.stream.vtBuf.length < maxSize)
    : ∃ event next, Exchange.step zeroed channel event = some next ∧ next ≠ channel := by
  have goes {event : Event} {next : Channel} (move : Move zeroed channel event next)
      (other : next ≠ channel)
      : ∃ event next, Exchange.step zeroed channel event = some next ∧ next ≠ channel :=
    ⟨event, next, move.step, other⟩
  have ahead := aligned.ahead
  cases writing : channel.use.writing with
  | cons byte later =>
      have pushed : channel.use.stream.pushBack byte
          = some
              ⟨channel.use.stream.vtBuf ++ [byte], by rw [List.length_append]; exact room⟩ :=
        dif_pos room
      refine goes (.push _ (.push byte later _ writing pushed)) (fun same => ?_)
      have shorter := congrArg (fun channel => channel.use.writing) same
      simp [writing] at shorter
  | nil =>
      cases recv : channel.use.recv with
      | none =>
          obtain ⟨nBufLen, asks⟩ := aligned.asks allowed
          refine goes (.call nBufLen _ asks (.call nBufLen recv)) (fun same => ?_)
          have called := congrArg (fun channel => channel.use.recv) same
          rw [recv] at called
          cases called
      | waiting nBufLen =>
          by_cases empty : channel.use.stream.vtBuf = []
          · obtain ⟨data, others, front⟩ := aligned.in_transit allowed more empty writing
            refine goes (.arrive data others _ front (.write data writing)) (fun same => ?_)
            have fewer := congrArg (fun channel => channel.inTransit) same
            simp [front] at fewer
          · refine goes (.getSize _ (.size nBufLen recv empty)) (fun same => ?_)
            have sized := congrArg (fun channel => channel.use.recv) same
            rw [recv] at sized
            cases sized
      | sized nBufLen nReadLen =>
          obtain ⟨asks, rfl, covered⟩ := aligned.sized nBufLen nReadLen recv
          have taken : channel.use.stream.read nReadLen = some (_, _) :=
            if_pos ⟨Channel.asks_nonneg asks, covered⟩
          refine goes
            (.read _ nReadLen _ (.read nReadLen nReadLen _ _ recv writing taken)
              List.getLast?_concat)
            (fun same => ?_)
          have returned := congrArg (fun channel => channel.use.recv) same
          have free (channel : Channel) (bytes : List Byte)
              : (channel.store zeroed bytes).use = channel.use := by
            rw [Channel.store]
            split <;> rfl
          simp [free, recv] at returned

theorem Aligned.exact (zeroed : Zeroed) (aligned : Aligned bodies finished rest channel)
    (allowed : ∀ body ∈ bodies, Allowed body)
    : Exact zeroed bodies channel where
  isPrefix := by
    rw [aligned.received, aligned.split, List.map_append]
    exact List.prefix_append _ _
  ahead := by
    rw [aligned.split, aligned.received, List.length_map, List.drop_left' rfl]
    exact aligned.ahead
  continues := aligned.continues zeroed allowed
  tasks := by
    rintro sqls requests text
    have split := aligned.split
    have same : finished = (sqls.take finished.length).map requestBody := by
      rw [List.map_take, ← requests, split]
      exact (List.take_left' rfl).symm
    have read : finished.map taskSql = sqls.take finished.length := by
      nth_rewrite 1 [same]
      rw [List.map_map]
      refine (List.map_congr_left ?_).trans (List.map_id _)
      intro sql member
      exact taskSql_requestBody (text sql (List.mem_of_mem_take member))
    rw [aligned.received, List.map_map]
    exact (congrArg (· <+: sqls) read).mpr (List.take_prefix _ _)

end Steps

-----------------------------------------------------------------------------------------
-- Whole runs
-----------------------------------------------------------------------------------------

section Runs

open TransitionSystem (run Along)

variable {bodies : List (List Byte)} {channel : Channel} {events : List Event}

/-- In every run in which each size check of the reader finds nothing or as many bytes as are asked
for, the reader is exact, and but for the looks at an empty stream the run has at most a step
for each packet and each byte, six for each message and a last call.
-/
theorem framed_of_ample (zeroed : Zeroed) (allowed : ∀ body ∈ bodies, Allowed body)
    (ample : Along (step zeroed) Ample (start bodies) events)
    (ran : run (step zeroed) (start bodies) events = some channel)
    : Exact zeroed bodies channel
      ∧ (Along (step zeroed) (LeadsOn zeroed) (start bodies) events
        → events.length
          ≤ (bodies.flatMap framePackets).length
            + (bodies.flatMap frame).length
            + 6 * bodies.length
            + 1) := by
  have border : AtBorder bodies (start bodies) := ⟨[], bodies, aligned_start bodies⟩
  constructor
  · obtain ⟨finished, rest, aligned⟩ := TransitionSystem.run_invariant_along
      (fun border ample stepped => AtBorder.step border allowed ample stepped) border ample ran
    exact aligned.exact zeroed allowed
  · intro leads
    have spent {state next : Channel} {event : Event} (border : AtBorder bodies state)
        (met : Ample state event ∧ LeadsOn zeroed state event)
        (stepped : step zeroed state event = some next)
        : AtBorder bodies next
          ∧ next.left bodies.length + 1 ≤ state.left bodies.length + 0 := by
      refine ⟨border.step allowed met.1 stepped, ?_⟩
      obtain ⟨finished, rest, aligned⟩ := border
      rcases aligned.left (step_move stepped) with rfl | less
      · exact absurd stepped met.2
      · exact less
    have shorter := @TransitionSystem.run_length_le_along _ _ _ _ _ _ _ _
      (Channel.left bodies.length) (fun _ => 0) spent border
      (TransitionSystem.along_and ample leads) ran
    have first : (start bodies).left bodies.length
        = (bodies.flatMap framePackets).length
          + (bodies.flatMap frame).length
          + (6 * bodies.length + 1) := by
      rw [← flatten_flatMap_framePackets]
      rfl
    simp only [List.map_const', List.sum_replicate_nat, Nat.mul_zero] at shorter
    omega

/-- A request of three letters comes byte by byte, and the main loop looks at the stream early. -/
def lettersRead : List Event :=
  List.flatten
    [
      [.call, .getSize, .arrive],
      List.replicate 4 .push,
      [.getSize, .arrive],
      List.replicate 4 .push,
      [.read, .call, .getSize, .read]
    ]

theorem framed_lettersRead
    : ∃ channel,
        run (step Zeroed.mainLoop) (start [requestBody [83, 69, 76]]) lettersRead = some channel
        ∧ channel.received = [(4, [83, 69, 76, 0])]
        ∧ Exact Zeroed.mainLoop [requestBody [83, 69, 76]] channel := by
  obtain ⟨channel, reached⟩ := Option.isSome_iff_exists.mp
    (by decide +kernel
      : ((run (step Zeroed.mainLoop) (start [requestBody [83, 69, 76]]) lettersRead).filter
          (fun channel => channel.received = [(4, [83, 69, 76, 0])])).isSome)
  obtain ⟨ran, received⟩ := Option.filter_eq_some_iff.mp reached
  refine ⟨channel, ran, of_decide_eq_true received, ?_⟩
  exact (framed_of_ample Zeroed.mainLoop (by decide) (by decide +kernel) ran).1

/-- A read of fewer bytes than its call asks for is never exact: the rest of the field is still
before the reader.
-/
theorem not_exact_of_short {next : Channel} {nBufLen nReadLen : Int32}
    (zeroed : Zeroed) (allowed : ∀ body ∈ bodies, Allowed body)
    (exact : Exact zeroed bodies channel) (asks : channel.asks = some nBufLen)
    (sized : channel.use.recv = .sized nBufLen nReadLen)
    (short : nReadLen.toInt < nBufLen.toInt)
    (stepped : step zeroed channel .read = some next)
    : ¬ Exact zeroed bodies next := by
  intro after
  cases step_move stepped with
  | read use _ bytes moved last =>
      cases moved with
      | read _ _ taken stream sampled _ read =>
          obtain ⟨rfl, rfl⟩ := RecvCall.sized.inj (sized.symm.trans sampled)
          rw [List.getLast?_concat] at last
          obtain ⟨rfl, rfl⟩ := Prod.mk.inj (Option.some.inj last)
          obtain ⟨split, length⟩ := CByteStream.read_eq_some read
          have before := exact.ahead
          have behind := after.ahead
          have isPrefix := after.isPrefix
          cases position : channel.position with
          | length =>
              simp only [Channel.asks, position] at asks
              obtain rfl := Option.some.inj asks
              simp only [Channel.store, position] at behind
              rw [position] at before
              cases before with
              | length whole =>
                  cases behind with
                  | body body more others announced unread =>
                      have bytes := congrArg List.length whole
                      have fewer := congrArg List.length unread
                      have four : (4 : Int32).toInt = 4 := rfl
                      simp only [others, Channel.unread, split, List.flatMap_cons, frame,
                        List.length_append, intBytes_length] at bytes fewer
                      omega
          | body =>
              simp only [Channel.asks, position] at asks
              obtain ⟨_, same⟩ := Option.ite_none_right_eq_some.mp asks
              obtain rfl := Option.some.inj same
              simp only [Channel.store, position] at isPrefix
              have read := isPrefix.subset (List.mem_append_right _ List.mem_cons_self)
              obtain ⟨body, member, same⟩ := List.mem_map.mp read
              obtain ⟨announced, rfl⟩ := Prod.mk.inj same
              rw [← announced, lengthOf_toInt (allowed _ member).2] at short
              omega

/-- The first request begins with the low byte of its length alone. -/
def lowByteRead : List Event :=
  List.flatten
    [
      [.arrive, .push, .call, .getSize],
      List.replicate 3 .push,
      [.read, .call, .getSize, .read]
    ]

/-- A size check between two pushes cuts a length short, and a request of one letter is read as two
zero bytes.
-/
theorem not_framed_request : ¬ Framed Zeroed.mainLoop [requestBody [83]] := by
  intro framed
  obtain ⟨channel, reached⟩ := Option.isSome_iff_exists.mp
    (by decide +kernel
      : ((run (step Zeroed.mainLoop) (start [requestBody [83]]) lowByteRead).filter
          (fun channel => channel.received = [(2, [0, 0])])).isSome)
  obtain ⟨ran, received⟩ := Option.filter_eq_some_iff.mp reached
  have isPrefix := (framed _ _ ran).isPrefix
  rw [of_decide_eq_true received] at isPrefix
  exact absurd isPrefix (by decide)

end Runs

end SchoolSystem.Exchange
