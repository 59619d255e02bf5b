import SchoolSystem.TcpSocket.Recv
import SchoolSystem.TcpSocket.Streams

/-! Readers on a link: each side calls `Recv` while the other side sends, and `RecvThreadProc`
writes what comes in turn byte by byte. Whatever the network does to datagrams, the bytes are read
in the order of sending, and a reader whose size checks find the whole next packet gets exactly this
packet.
-/

namespace SchoolSystem.Exchange

open TcpSocket

-----------------------------------------------------------------------------------------
-- Readers
-----------------------------------------------------------------------------------------

/-- A connected link and the streams of its sides with their readers. `queued` are the packets that
`RecvThreadProc` has found in turn and has not begun to write; the streams of the link itself hold
all that was found in turn.
-/
structure Session where
  link : Link
  use : Side → StreamUse
  queued : Side → List (List Byte)

namespace Session

/-- `write` begins the `Write` of the next packet, and its pushes are steps of the stream. -/
inductive Event
  | link (event : Link.Event)
  | write (side : Side)
  | stream (side : Side) (event : StreamUse.Event)
  deriving DecidableEq, Repr

/-- Before the first `Recv` of either side. -/
def start (link : Link) : Session where
  link := link
  use := fun _ => .start
  queued := fun _ => []

/-- A datagram arrives where `RecvThreadProc` has written what came before. -/
def arrive (session : Session) (datagram : Datagram) : Option Session :=
  let dst := datagram.dst
  if session.queued dst = [] ∧ (session.use dst).writing = [] then
    (session.link.step (.arrive datagram)).map
      fun link =>
        {
          session with
          link
          queued :=
            Function.update session.queued dst ((session.link.conn dst).writes datagram.packet)
        }
  else
    none

/-- A step of a side's stream or of its reader. -/
def stepStream (session : Session) (side : Side) (event : StreamUse.Event) : Option Session :=
  ((session.use side).step event).map
    fun use => { session with use := Function.update session.use side use }

/-- `RecvThreadProc` locks the stream and begins to push a packet. -/
def write (session : Session) (side : Side) : Option Session :=
  match session.queued side with
  | [] => none
  | data :: rest =>
      ({ session with queued := Function.update session.queued side rest }).stepStream side
        (.write data)

/-- The readers take their bytes by the steps of `Recv`, not by the one of a link. -/
def step (session : Session) : Event → Option Session
  | .link (.connect _) | .link (.recv _ _) => none
  | .link (.arrive datagram) => session.arrive datagram
  | .link event => (session.link.step event).map (fun link => { session with link })
  | .write side => session.write side
  | .stream _ (.write _) => none
  | .stream side event => session.stepStream side event

/-- What the calls of `Recv` that have returned have stored, in their order. -/
def taken (session : Session) (side : Side) : List (List Byte) :=
  (session.use side).returned.map Prod.snd

/-- What a side has found in turn and not read: it waits in the stream, is being pushed or is yet to
be written.
-/
def unread (session : Session) (side : Side) : List Byte :=
  (session.use side).stream.vtBuf ++ (session.use side).writing ++ (session.queued side).flatten

/-- The packets that were sent to a side, by their bytes. -/
def sent (session : Session) (side : Side) : List (List Byte) :=
  (session.link.numbered side.other).map DataPacket.data

/-- How many packets a side has found in turn. -/
def arrived (base : Side → Int) (session : Session) (side : Side) : Nat :=
  ((session.link.conn side).nextRecvSeq - base side.other).toNat

variable {session next : Session} {event : Event} {side : Side} {base : Side → Int}

/-- What a step leads to, by its event. -/
inductive Move (session : Session) : Event → Session → Prop
  | link (event : Link.Event) (link : Link) (unread : ∀ side nBufLen, event ≠ .recv side nBufLen)
      (quiet : ∀ datagram, event ≠ .arrive datagram)
      (moved : session.link.step event = some link)
    : Move session (.link event) { session with link }
  | arrive (datagram : Datagram) (link : Link) (written : session.queued datagram.dst = [])
      (moved : session.link.step (.arrive datagram) = some link)
    : Move session (.link (.arrive datagram))
        {
          session with
          link
          queued :=
            Function.update session.queued datagram.dst
              ((session.link.conn datagram.dst).writes datagram.packet)
        }
  | write (side : Side) (data : List Byte) (rest : List (List Byte)) (use : StreamUse)
      (front : session.queued side = data :: rest)
      (moved : StreamUse.Move (session.use side) (.write data) use)
    : Move session (.write side)
        {
          session with
          use := Function.update session.use side use
          queued := Function.update session.queued side rest
        }
  | stream (side : Side) (event : StreamUse.Event) (use : StreamUse) (keeps : event.data = [])
      (moved : StreamUse.Move (session.use side) event use)
    : Move session (.stream side event)
        { session with use := Function.update session.use side use }

theorem step_move (stepped : session.step event = some next) : Move session event next := by
  cases event with
  | link event =>
      cases event with
      | connect | recv => cases stepped
      | send | transmit | lose =>
          obtain ⟨link, moved, rfl⟩ := Option.map_eq_some_iff.mp stepped
          exact .link _ link nofun nofun moved
      | arrive datagram =>
          obtain ⟨⟨written, _⟩, arrived⟩ := Option.ite_none_right_eq_some.mp stepped
          obtain ⟨link, moved, rfl⟩ := Option.map_eq_some_iff.mp arrived
          exact .arrive datagram link written moved
  | write side =>
      cases front : session.queued side with
      | nil => simp [step, write, front] at stepped
      | cons data rest =>
          simp only [step, write, front] at stepped
          obtain ⟨use, moved, rfl⟩ := Option.map_eq_some_iff.mp stepped
          exact .write side data rest use front (StreamUse.step_move moved)
  | stream side event =>
      cases event with
      | write data => cases stepped
      | call | getSize | read | push =>
          obtain ⟨use, moved, rfl⟩ := Option.map_eq_some_iff.mp stepped
          exact .stream side _ use rfl (StreamUse.step_move moved)

-----------------------------------------------------------------------------------------
-- The bytes of a side
-----------------------------------------------------------------------------------------

/-- What was read and what is yet to be read are all that the side has found in turn. -/
structure Joined (base : Side → Int) (session : Session) : Prop where
  sound : session.link.Sound False base
  bytes
    : ∀ side,
        (session.use side).bytes ++ (session.queued side).flatten = session.link.written side

theorem joined_of_established {link : Link} (established : link.Established)
    : Joined (fun side => (link.conn side).nextSendSeq) (start link) where
  sound := established.sound
  bytes side := by
    obtain ⟨_, _, written⟩ := established.history side
    exact written.symm

/-- A datagram adds to what a side has found in turn what `RecvThreadProc` is about to write. -/
theorem Joined.arrive (joined : Joined base session) {datagram : Datagram} {link : Link}
    (written : session.queued datagram.dst = [])
    (moved : session.link.step (.arrive datagram) = some link) (side : Side)
    : (session.use side).bytes
          ++ (Function.update session.queued datagram.dst
              ((session.link.conn datagram.dst).writes datagram.packet) side).flatten
        = link.written side := by
  obtain ⟨_, arrived⟩ := Link.step_arrive.mp moved
  rcases Link.arrive_cases arrived with ⟨_, rfl⟩ | ⟨_, waiting, _⟩
  · have before := joined.bytes side
    rcases Side.eq_or_other datagram.dst side with same | same
    · rw [same, written, List.flatten_nil, List.append_nil] at before
      rw [same, Function.update_self, Link.written_recvThread, before, Conn.onPacket_writes,
        List.drop_left]
    · have other : side ≠ datagram.dst := by rw [same]; exact Side.other_ne _
      rw [Function.update_of_ne other, before]
      exact (Function.update_of_ne other _ _).symm
  · exact absurd (joined.sound.connected.symm.trans waiting) (by decide)

/-- Every step keeps the bytes together, by the events. -/
theorem Joined.step (joined : Joined base session) (stepped : session.step event = some next)
    : Joined base next := by
  cases step_move stepped with
  | link event link unread quiet moved =>
      refine ⟨joined.sound.step False.elim moved, fun side => ?_⟩
      have same : link.written side = session.link.written side := by
        cases event with
        | arrive datagram => exact absurd rfl (quiet datagram)
        | recv side nBufLen => exact absurd rfl (unread side nBufLen)
        | connect clock =>
            obtain ⟨_, rfl⟩ := Link.step_connect.mp moved
            rfl
        | send other buf =>
            obtain ⟨_, rfl⟩ := Link.step_send.mp moved
            rfl
        | transmit other index clock =>
            rw [(Link.transmits_of_transmit moved).history.2.2]
        | lose datagram =>
            obtain ⟨_, rfl⟩ := Link.step_lose.mp moved
            rfl
      exact (joined.bytes side).trans same.symm
  | arrive datagram link written moved =>
      exact ⟨joined.sound.step False.elim moved, joined.arrive written moved⟩
  | write side data rest use front moved =>
      refine ⟨joined.sound, fun other => ?_⟩
      have before := joined.bytes other
      rcases eq_or_ne other side with rfl | different
      · rw [front, List.flatten_cons, ← List.append_assoc] at before
        simp only [Function.update_self, moved.bytes]
        exact before
      · simp only [Function.update_of_ne different]
        exact before
  | stream side event use keeps moved =>
      refine ⟨joined.sound, fun other => ?_⟩
      rcases eq_or_ne other side with rfl | different
      · simp only [Function.update_self, moved.bytes, keeps, List.append_nil]
        exact joined.bytes other
      · simp only [Function.update_of_ne different]
        exact joined.bytes other

/-- What was read and what is yet to be read begin what the other side has passed to `Send`. -/
theorem Joined.isPrefix (joined : Joined base session) (side : Side)
    : (session.taken side).flatten ++ session.unread side <+: session.link.passed side.other := by
  have written := (joined.sound.inOrder side.other).isPrefix
  rw [Side.other_other, ← joined.bytes side] at written
  simpa [taken, unread, StreamUse.bytes, List.flatMap_def] using written

theorem Joined.taken_prefix (joined : Joined base session) (side : Side)
    : (session.taken side).flatten <+: session.link.passed side.other :=
  (List.prefix_append _ _).trans (joined.isPrefix side)

-----------------------------------------------------------------------------------------
-- Readers in step with the packets
-----------------------------------------------------------------------------------------

section Items

variable {Item : Type} {done items : List (List Item)} {item rest : List Item}

/-- A list goes on with the item at its end. -/
theorem prefix_snoc (begun : done <+: items) (found : items[done.length]? = some item)
    : done ++ [item] <+: items := by
  obtain ⟨more, rfl⟩ := begun
  rw [List.getElem?_append_right (Nat.le_refl _), Nat.sub_self] at found
  obtain ⟨tail, rfl⟩ : ∃ tail, more = item :: tail := by
    cases more with
    | nil => cases found
    | cons head tail => exact ⟨tail, by rw [Option.some.inj found]⟩
  exact ⟨tail, by simp⟩

/-- Where something is left of the items after the first ones, there is a next item. -/
theorem exists_next (begun : done <+: items) (more : done.flatten ++ rest <+: items.flatten)
    (some : rest ≠ [])
    : ∃ item, items[done.length]? = Option.some item := by
  obtain ⟨tail, rfl⟩ := begun
  cases tail with
  | nil =>
      rw [List.append_nil] at more
      exact absurd (List.append_right_eq_self.mp (more.eq_of_length_le (by simp))) some
  | cons head tail => exact ⟨head, by simp⟩

/-- As much as the next item has is the next item. -/
theorem eq_next (begun : done <+: items) (found : items[done.length]? = some item)
    (more : done.flatten ++ rest <+: items.flatten) (size : rest.length = item.length)
    : rest = item := by
  obtain ⟨after, rfl⟩ := prefix_snoc begun found
  rw [List.flatten_append, List.flatten_append, List.flatten_singleton, List.append_assoc] at more
  have next := (List.prefix_append_right_inj _).mp more
  have within := List.prefix_of_prefix_length_le next (List.prefix_append _ _) (Nat.le_of_eq size)
  exact within.eq_of_length size

end Items

/-- A `Recv` that looks at the size asks for as many bytes as the next packet has, if one was sent,
and where it finds bytes, it finds as many.
-/
def Asks (session : Session) : Event → Prop
  | .stream side .getSize =>
      (session.use side).Ample
      ∧ ∀ nBufLen ∈ (session.use side).recv.asked,
          ∀ data ∈ (session.sent side)[(session.taken side).length]?, nBufLen.toInt = data.length
  | .stream _ (.call _) | .stream _ .read | .stream _ (.write _) | .stream _ .push | .link _
  | .write _ => True

instance (session : Session) (event : Event) : Decidable (session.Asks event) :=
  match event with
  | .stream _ .getSize =>
      -- by the two options, and not by all values of `Int32`
      @instDecidableAnd _ _ inferInstance
        (@Option.decidableForallMem _ _ (fun _ => Option.decidableForallMem _) _)
  | .stream _ (.call _) | .stream _ .read | .stream _ (.write _) | .stream _ .push | .link _
  | .write _ => isTrue trivial

/-- Each `Recv` has returned one packet, in the order in which they were sent, and one that has
sampled the size is about to take the next packet as a whole.
-/
structure InStep (base : Side → Int) (session : Session) : Prop extends Joined base session where
  taken : ∀ side, session.taken side <+: session.sent side
  sized
    : ∀ side nBufLen nReadLen,
        (session.use side).recv = .sized nBufLen nReadLen
        → ∃ data,
            (session.sent side)[(session.taken side).length]? = some data
            ∧ nReadLen.toInt = data.length

theorem Joined.passed (joined : Joined base session) (side : Side)
    : session.link.passed side.other = (session.sent side).flatten := by
  have passed := (joined.sound.flow side.other).passed
  rw [sent, ← List.flatMap_def]
  exact passed

theorem inStep_of_established {link : Link} (established : link.Established)
    : InStep (fun side => (link.conn side).nextSendSeq) (start link) where
  toJoined := joined_of_established established
  taken _ := List.nil_prefix
  sized := nofun

/-- A byte in the stream belongs to a packet that was not read. -/
theorem InStep.next_packet (inStep : InStep base session)
    (some : (session.use side).stream.vtBuf ≠ [])
    : ∃ data, (session.sent side)[(session.taken side).length]? = Option.some data := by
  have whole := inStep.isPrefix side
  rw [inStep.passed side] at whole
  refine exists_next (inStep.taken side) whole ?_
  simp [unread, some]

/-- The streams and their readers stay as they are, and packets may be sent. -/
theorem InStep.moved (inStep : InStep base session) (joined : Joined base next)
    (use : next.use = session.use) (sent : ∀ side, session.sent side <+: next.sent side)
    : InStep base next where
  toJoined := joined
  taken side := by
    rw [Session.taken, use]
    exact (inStep.taken side).trans (sent side)
  sized side nBufLen nReadLen := by
    rw [use]
    intro sized
    obtain ⟨data, found, size⟩ := inStep.sized side nBufLen nReadLen sized
    obtain ⟨more, split⟩ := sent side
    have same : next.taken side = session.taken side := by rw [Session.taken, use]; rfl
    have within := (List.getElem?_eq_some_iff.mp found).1
    refine ⟨data, ?_, size⟩
    rw [same, ← split, List.getElem?_append_left within]
    exact found

/-- The stream of one side takes a step that returns nothing to its reader. -/
theorem InStep.goesOn (inStep : InStep base session) {use : StreamUse} {queued}
    (joined
      : Joined base ⟨session.link, Function.update session.use side use, queued⟩)
    (returned : use.returned = (session.use side).returned)
    (sized
      : ∀ nBufLen nReadLen,
          use.recv = .sized nBufLen nReadLen
          → ∃ data,
              (session.sent side)[(session.taken side).length]? = some data
              ∧ nReadLen.toInt = data.length)
    : InStep base ⟨session.link, Function.update session.use side use, queued⟩ := by
  have same (other : Side)
      : (⟨session.link, Function.update session.use side use, queued⟩ : Session).taken other
        = session.taken other := by
    rcases eq_or_ne other side with rfl | different
    · simp [Session.taken, returned]
    · simp [Session.taken, different]
  refine ⟨joined, fun other => same other ▸ inStep.taken other, fun other => ?_⟩
  rw [same other]
  rcases eq_or_ne other side with rfl | different
  · simpa [Session.sent] using sized
  · simpa [Session.sent, different] using inStep.sized other

/-- A `Read` takes the next packet from the stream. -/
theorem InStep.read (inStep : InStep base session) {use : StreamUse}
    (joined
      : Joined base ⟨session.link, Function.update session.use side use, session.queued⟩)
    {nBufLen nReadLen : Int32} {bytes : List Byte}
    (sized : (session.use side).recv = .sized nBufLen nReadLen)
    (length : (bytes.length : Int) = nReadLen.toInt)
    (returned : use.returned = (session.use side).returned ++ [(nBufLen, bytes)])
    (free : use.recv = .none)
    : InStep base ⟨session.link, Function.update session.use side use, session.queued⟩ := by
  obtain ⟨data, found, size⟩ := inStep.sized side nBufLen nReadLen sized
  have more := joined.taken_prefix side
  rw [joined.passed side] at more
  simp only [Session.taken, Function.update_self, returned, List.map_append, List.flatten_append]
    at more
  have same : bytes = data :=
    eq_next (inStep.taken side) found (by simpa [Session.taken, Session.sent] using more)
      (by omega)
  subst same
  refine ⟨joined, fun other => ?_, fun other => ?_⟩
  · rcases eq_or_ne other side with rfl | different
    · have snoc := prefix_snoc (inStep.taken other) found
      simpa [Session.taken, Session.sent, returned] using snoc
    · simpa [Session.taken, Session.sent, different] using inStep.taken other
  · rcases eq_or_ne other side with rfl | different
    · simp [free]
    · simpa [Session.taken, Session.sent, different] using inStep.sized other

/-- Every step keeps the readers in step, as long as they ask for the next packet and find it. -/
theorem InStep.step (inStep : InStep base session) (asks : session.Asks event)
    (stepped : session.step event = some next)
    : InStep base next := by
  have joined := inStep.toJoined.step stepped
  cases step_move stepped with
  | link event link unread quiet moved =>
      refine inStep.moved joined rfl (fun side => ?_)
      exact (inStep.sound.numbered_prefix moved side.other).map DataPacket.data
  | arrive datagram link written moved =>
      refine inStep.moved joined rfl (fun side => ?_)
      exact (inStep.sound.numbered_prefix moved side.other).map DataPacket.data
  | write side data rest use front moved =>
      cases moved with
      | write => exact inStep.goesOn joined rfl (inStep.sized side)
  | stream side event use keeps moved =>
      cases moved with
      | call nBufLen free => exact inStep.goesOn joined rfl nofun
      | sleep | write | push => exact inStep.goesOn joined rfl (inStep.sized side)
      | size nBufLen waiting some =>
          obtain ⟨ample, asked⟩ := asks
          refine inStep.goesOn joined rfl ?_
          rintro _ _ ⟨⟩
          obtain ⟨data, found⟩ := inStep.next_packet some
          refine ⟨data, found, ?_⟩
          rw [readLen_getSize (ample nBufLen waiting some)]
          exact asked nBufLen (by rw [waiting]; rfl) data found
      | read nBufLen nReadLen bytes stream sized free taken =>
          exact inStep.read joined sized (CByteStream.read_eq_some taken).2 rfl rfl

section Runs

variable {link : Link} {events : List Event} {final : Session}

/-- Whatever the readers ask for and find, what they read are the bytes of the first packets, and
what they have not read of these is in the stream, being pushed or yet to be written.
-/
theorem bytes_of_run (established : link.Established)
    (ran : TransitionSystem.run step (start link) events = some final) (side : Side)
    : (final.taken side).flatten ++ final.unread side
      = ((final.sent side).take
          (final.arrived (fun side => (link.conn side).nextSendSeq) side)).flatten := by
  have joined : Joined (fun side => (link.conn side).nextSendSeq) final :=
    TransitionSystem.run_invariant (fun joined stepped => Joined.step joined stepped)
      (joined_of_established established) ran
  have written := (joined.sound.flow side.other).written
  simp only [Link.flow, Side.other_other] at written
  rw [← joined.bytes side, List.flatMap_def, List.map_take] at written
  simpa [taken, unread, sent, arrived, StreamUse.bytes, List.flatMap_def] using written

/-- Over a network that loses, repeats, delays and reorders datagrams, readers that ask for the
size of the next packet, and find as many bytes, take the packets one by one, each as it was sent.
-/
theorem taken_of_run (established : link.Established)
    (asks : TransitionSystem.Along step Asks (start link) events)
    (ran : TransitionSystem.run step (start link) events = some final) (side : Side)
    : final.taken side <+: final.sent side
      ∧ (final.taken side).flatten ++ final.unread side
        = ((final.sent side).take
            (final.arrived (fun side => (link.conn side).nextSendSeq) side)).flatten := by
  have inStep : InStep (fun side => (link.conn side).nextSendSeq) final :=
    TransitionSystem.run_invariant_along
      (fun inStep asks stepped => InStep.step inStep asks stepped)
      (inStep_of_established established) asks ran
  exact ⟨inStep.taken side, bytes_of_run established ran side⟩

/-- The second packet arrives first, and the reader asks for the size of each and looks while the
second one is being pushed.
-/
theorem taken_reordered
    : ∃ final : Session,
        final.taken .server = [[104], [105, 106]]
        ∧ final.taken .server <+: final.sent .server := by
  let link : Link := { Link.new with phase := .connected }
  let reordered : List Event :=
    [
      .link (.send .client [104]),
      .link (.send .client [105, 106]),
      .link (.transmit .client 0 20),
      .link (.transmit .client 1 20),
      .link (.arrive ⟨.server, .data ⟨1, [105, 106]⟩⟩),
      .link (.arrive ⟨.server, .data ⟨0, [104]⟩⟩),
      .stream .server (.call 1),
      .stream .server .getSize,
      .write .server,
      .stream .server .push,
      .write .server,
      .stream .server .push,
      .stream .server .getSize,
      .stream .server .push,
      .stream .server .read,
      .link (.arrive ⟨.server, .data ⟨1, [105, 106]⟩⟩),
      .stream .server (.call 2),
      .stream .server .getSize,
      .stream .server .read
    ]
  have established : link.Established := {
    connected := rfl
    agreed := fun _ => rfl
    recvList := fun _ => rfl
    byteStream := fun _ => rfl
    sendList := fun _ => rfl
    flying := fun _ member => absurd member List.not_mem_nil
    history := fun _ => ⟨rfl, rfl, rfl⟩
  }
  have asks : TransitionSystem.Along step Asks (start link) reordered := by
    decide +kernel
  obtain ⟨final, reached⟩ := Option.isSome_iff_exists.mp
    (by decide +kernel
      : ((TransitionSystem.run step (start link) reordered).filter
          (fun final => final.taken .server = [[104], [105, 106]])).isSome)
  obtain ⟨ran, state⟩ := Option.filter_eq_some_iff.mp reached
  exact ⟨final, of_decide_eq_true state, (taken_of_run established asks ran .server).1⟩

end Runs

end Session

end SchoolSystem.Exchange
