import SchoolSystem.Library.Executions
import SchoolSystem.Library.Reach
import SchoolSystem.TcpSocket.Handshake
import SchoolSystem.TcpSocket.Streams

/-! When a stream can still be completed, and when it is. A packet is lost for good only where
the drain loop does not get to it any more and the sender has dropped it.
-/

namespace SchoolSystem.TcpSocket

open ReorderBuffer (Buffer)
open TransitionSystem (run)

namespace Flow

variable {base : Int} {packet : DataPacket Int} {comes : DataPacket Int → Prop}
  {flow next : Flow}

/-- The packet is pending or in flight, or it is held where the drain loop gets to it. -/
def Available (flow : Flow) (packet : DataPacket Int) : Prop :=
  packet ∈ flow.pending
  ∨ packet ∈ flow.forward
  ∨ packet.seq ∈ flow.receiver.buffer.reach

/-- Every packet that was not yet written is available. -/
def Deliverable (flow : Flow) : Prop :=
  ∀ packet ∈ flow.numbered, flow.receiver.nextRecvSeq ≤ packet.seq → flow.Available packet

/-- A packet that was not yet written and is not available. -/
structure Stuck (flow : Flow) (packet : DataPacket Int) : Prop where
  numbered : packet ∈ flow.numbered
  unwritten : flow.receiver.nextRecvSeq ≤ packet.seq
  unavailable : ¬ flow.Available packet

theorem deliverable_iff : flow.Deliverable ↔ ∀ packet, ¬ flow.Stuck packet := by
  constructor
  · intro deliverable packet stuck
    exact stuck.unavailable (deliverable packet stuck.numbered stuck.unwritten)
  · intro free packet numbered unwritten
    by_contra unavailable
    exact free packet ⟨numbered, unwritten, unavailable⟩

-----------------------------------------------------------------------------------------
-- A packet that is stuck
-----------------------------------------------------------------------------------------

/-- The packet that gives a number in flight to the receiver is the numbered one. -/
theorem Sound.eq_of_forward (sound : flow.Sound base) {arrived : DataPacket Int}
    (numbered : packet ∈ flow.numbered) (flying : arrived ∈ flow.forward)
    (same : arrived.seq = packet.seq)
    : arrived = packet := by
  have lower := (sound.log.bounds numbered).1
  exact sound.log.injective (sound.forward arrived flying (same ▸ lower)) numbered same

/-- What is stuck stays stuck: it comes neither from the sender nor from the network, and no other
number brings the drain loop to it.
-/
theorem Stuck.follows (stuck : flow.Stuck packet) (sound : flow.Sound base)
    (numbered : flow.numbered <+: next.numbered) (follows : Follows comes flow next)
    : next.Stuck packet := by
  obtain ⟨member, unwritten, unavailable⟩ := stuck
  rw [Available, not_or, not_or] at unavailable
  obtain ⟨notPending, notFlying, unreached⟩ := unavailable
  have received
      : next.receiver.buffer.next ≤ packet.seq
        ∧ packet.seq ∉ next.receiver.buffer.reach := by
    rcases follows.receiver with same | ⟨arrived, flying, _, buffer⟩
    · rw [same]
      exact ⟨unwritten, unreached⟩
    · rw [buffer]
      refine Buffer.unreached_arrive unwritten unreached (fun same => ?_)
      exact notFlying (sound.eq_of_forward member flying same ▸ flying)
  refine ⟨numbered.subset member, received.1, ?_⟩
  rintro (pending | flying | reached)
  · rcases follows.pending packet pending with old | fresh
    · exact notPending old
    · have upper := (sound.log.bounds member).2
      omega
  · rcases follows.forward packet flying with old | sent
    · exact notFlying old
    · exact notPending sent
  · exact received.2 reached

/-- What was passed to `Send` by some time is written by a later time exactly when the receiver has
come past all numbers of that time.
-/
theorem Sound.passed_prefix_iff {later : Flow} (sound : flow.Sound base)
    (soundLater : later.Sound base) (extended : flow.numbered <+: later.numbered)
    (nonempty : ∀ packet ∈ flow.numbered, packet.data ≠ [])
    : flow.passed <+: later.written ↔ flow.nextSendSeq ≤ later.receiver.nextRecvSeq := by
  have size := congrArg List.length sound.log.2
  rw [List.length_map, NumberedLog.range_length] at size
  have lower := soundLater.lower
  obtain ⟨more, extended⟩ := extended
  rw [sound.passed, soundLater.written, ← extended]
  constructor
  · intro early
    by_contra behind
    have short : (later.receiver.nextRecvSeq - base).toNat < flow.numbered.length := by omega
    rw [List.take_append_of_le_length (le_of_lt short)] at early
    generalize (later.receiver.nextRecvSeq - base).toNat = count at early short
    have length := early.length_le
    rw [← List.take_append_drop count flow.numbered, List.flatMap_append, List.length_append,
      List.take_append_drop, List.drop_eq_getElem_cons short, List.flatMap_cons,
      List.length_append] at length
    have positive := List.length_pos_iff.mpr
      (nonempty flow.numbered[count] (List.getElem_mem short))
    omega
  · intro past
    rw [List.take_append, List.take_of_length_le (by omega), List.flatMap_append]
    exact List.prefix_append _ _

-----------------------------------------------------------------------------------------
-- A packet that arrives in its turn
-----------------------------------------------------------------------------------------

/-- Nothing was numbered meanwhile, and what was pending or in flight still is. -/
structure Withholds (flow next : Flow) : Prop where
  numbered : next.numbered = flow.numbered
  nextSendSeq : next.nextSendSeq = flow.nextSendSeq
  pending : flow.pending ⊆ next.pending
  forward : flow.forward ⊆ next.forward

theorem Withholds.trans {later : Flow} (first : Withholds flow next)
    (second : Withholds next later)
    : Withholds flow later where
  numbered := second.numbered.trans first.numbered
  nextSendSeq := second.nextSendSeq.trans first.nextSendSeq
  pending := first.pending.trans second.pending
  forward := first.forward.trans second.forward

theorem Deliverable.withholds (deliverable : flow.Deliverable) (withholds : Withholds flow next)
    (same : next.receiver.buffer = flow.receiver.buffer)
    : next.Deliverable := by
  intro packet member unwritten
  rw [withholds.numbered] at member
  have before : flow.receiver.nextRecvSeq ≤ packet.seq :=
    (congrArg Buffer.next same).symm.trans_le unwritten
  rcases deliverable packet member before with pending | flying | reached
  · exact Or.inl (withholds.pending pending)
  · exact Or.inr (Or.inl (withholds.forward flying))
  · exact Or.inr (Or.inr (same ▸ reached))

/-- The packet in turn leaves the others available. -/
theorem Deliverable.arrives (deliverable : flow.Deliverable) (withholds : Withholds flow next)
    (steady : flow.receiver.buffer.Steady)
    (arrived : next.receiver.buffer = flow.receiver.buffer.arrive flow.receiver.buffer.next)
    (forth : flow.receiver.nextRecvSeq ≤ next.receiver.nextRecvSeq)
    : next.Deliverable := by
  intro packet member unwritten
  rw [withholds.numbered] at member
  rcases deliverable packet member (forth.trans unwritten) with pending | flying | reached
  · exact Or.inl (withholds.pending pending)
  · exact Or.inr (Or.inl (withholds.forward flying))
  · rcases Buffer.reached_arrive steady reached with released | still
    · rw [← arrived] at released
      exact absurd unwritten (not_le.mpr released)
    · exact Or.inr (Or.inr (arrived ▸ still))

/-- The packet in turn is not held. -/
theorem Deliverable.next_packet (deliverable : flow.Deliverable) (sound : flow.Sound base)
    (steady : flow.receiver.buffer.Steady)
    (missing : flow.receiver.nextRecvSeq < flow.nextSendSeq)
    : ∃ packet,
        packet.seq = flow.receiver.nextRecvSeq
        ∧ (packet ∈ flow.pending ∨ packet ∈ flow.forward) := by
  obtain ⟨packet, member, number⟩ := sound.log.exists_item sound.lower missing
  refine ⟨packet, number, ?_⟩
  rcases deliverable packet member (le_of_eq number.symm) with pending | flying | reached
  · exact Or.inl pending
  · exact Or.inr flying
  · rw [number] at reached
    exact absurd reached steady.unreached

end Flow

namespace Link

variable {base : Side → Int} {link next : Link} {side : Side}

/-- `SendThreadProc` sends the packet of a node that is due. -/
theorem transmit_due {index : Nat} {clock : Int} {node : SendListNode Side Int}
    (found : (link.socket side).sendList[index]? = some node) (due : node.due clock = true)
    (isSent : node.packet.isSent = true)
    : ∃ next,
        link.transmit side index clock = some next
        ∧ ⟨node.addr, node.packet⟩ ∈ next.net := by
  simp [transmit, CTcpSocket.sendThreadProc, found, SendListNode.transmit, due, isSent]

/-- A pass of `SendThreadProc` withholds nothing. -/
theorem Transmits.withholds (transmits : Transmits side link next) (flow : Side)
    : Flow.Withholds (link.flow flow) (next.flow flow) where
  numbered := congrFun transmits.history.1 flow
  nextSendSeq := by simp only [Link.flow, transmits.conn]
  pending packet member := by simpa [transmits.pending] using member
  forward packet member := transmits.kept member

/-- An arriving `DATA` packet withholds nothing. -/
theorem withholds_data {packet : DataPacket Int} (flow : Side)
    : Flow.Withholds (link.flow flow) ((link.recvThread side (.data packet)).flow flow) where
  numbered := rfl
  nextSendSeq := by
    rcases Side.eq_or_other side flow with rfl | rfl
    · simp [Link.flow, conn_recvThread, Conn.onPacket]
    · simp [Link.flow, conn_recvThread_other]
  pending other member := by
    rcases Side.eq_or_other side flow with rfl | rfl
    · simpa [recvThread, CTcpSocket.recvThreadProc] using member
    · simpa [recvThread] using member
  forward other member := mem_net_recvThread member

/-- The sender can put a pending packet in flight at once. -/
theorem exists_flying {packet : DataPacket Int} (pending : packet ∈ (link.flow side).pending)
    : ∃ index clock next,
        link.transmit side index clock = some next ∧ packet ∈ (next.flow side).forward := by
  obtain ⟨node, member, same⟩ := List.mem_map.mp pending
  obtain ⟨index, found⟩ := List.mem_iff_getElem?.mp member
  obtain ⟨addr, content⟩ := Prod.mk.inj same
  have due : node.due (node.time + 1000) = true := by simp [SendListNode.due]
  obtain ⟨next, sent, flying⟩ := transmit_due found due (by rw [content]; rfl)
  rw [addr, content] at flying
  exact ⟨index, node.time + 1000, next, sent, flying⟩

/-- A side whose stream can go on: every packet of the other one is available. -/
structure Ready (base : Side → Int) (link : Link) (side : Side) : Prop where
  sound : link.Sound False base
  steady : (link.flow side).receiver.buffer.Steady
  deliverable : (link.flow side).Deliverable

/-- The packet in turn moves the counter forth. -/
theorem onData_inTurn {conn : Conn Int} {packet : DataPacket Int}
    (inTurn : packet.seq = conn.nextRecvSeq)
    : conn.nextRecvSeq < (conn.onData packet).nextRecvSeq := by
  rcases conn.onData_cases packet with ⟨_, _, _, less, _⟩ | ⟨ahead, _⟩ | ⟨passed, _⟩
  · exact less
  · omega
  · omega

/-- A connected link takes every `DATA` packet in flight. -/
theorem step_arrive_data {packet : DataPacket Int} (connected : link.phase = .connected)
    : link.step (.arrive ⟨side.other, .data packet⟩) = some next
      ↔ packet ∈ (link.flow side).forward
        ∧ link.recvThread side.other (.data packet) = next := by
  rw [step_arrive, mem_forward]
  refine and_congr_right (fun _ => ?_)
  cases side <;> simp [arrive, connected, Side.other]

theorem receiver_recvThread (link : Link) (side : Side) (packet : DataPacket Int)
    : ((link.recvThread side.other (.data packet)).flow side).receiver
      = (link.flow side).receiver.onData packet := by
  simp only [Link.flow, conn_recvThread]
  rfl

/-- An arrival of the packet in turn brings the receiver forth and leaves the others available. -/
theorem Ready.arrives {packet : DataPacket Int} (ready : Ready base link side)
    (inTurn : packet.seq = (link.flow side).receiver.nextRecvSeq)
    (flying : packet ∈ (link.flow side).forward)
    : ∃ next,
        link.step (.arrive ⟨side.other, .data packet⟩) = some next
        ∧ Ready base next side
        ∧ Flow.Withholds (link.flow side) (next.flow side)
        ∧ (link.flow side).receiver.nextRecvSeq < (next.flow side).receiver.nextRecvSeq := by
  have taken := (step_arrive_data ready.sound.connected).mpr ⟨flying, rfl⟩
  have received := link.receiver_recvThread side packet
  have buffer
      : ((link.recvThread side.other (.data packet)).flow side).receiver.buffer
        = (link.flow side).receiver.buffer.arrive (link.flow side).receiver.buffer.next := by
    rw [received, Conn.onData_buffer, inTurn]
    rfl
  have less := onData_inTurn inTurn
  rw [← received] at less
  refine ⟨_, taken, ⟨ready.sound.step False.elim taken, ?_, ?_⟩, withholds_data side, less⟩
  · rw [buffer]
    exact ready.steady.arrive _
  · exact ready.deliverable.arrives (withholds_data side) ready.steady buffer (le_of_lt less)

/-- Where a packet is missing, the packet in turn can be brought to the receiver. -/
theorem Ready.delivers (ready : Ready base link side)
    (missing : (link.flow side).receiver.nextRecvSeq < (link.flow side).nextSendSeq)
    : ∃ more next,
        run step link more = some next
        ∧ Ready base next side
        ∧ Flow.Withholds (link.flow side) (next.flow side)
        ∧ (link.flow side).receiver.nextRecvSeq < (next.flow side).receiver.nextRecvSeq := by
  obtain ⟨packet, inTurn, pending | flying⟩ :=
    ready.deliverable.next_packet (ready.sound.flow side) ready.steady missing
  · obtain ⟨index, clock, sent, transmitted, flying⟩ := exists_flying pending
    have transmits := transmits_of_transmit transmitted
    have same : (sent.flow side).receiver = (link.flow side).receiver := by
      simp only [Link.flow, transmits.conn]
    have withholds := transmits.withholds side
    have readySent : Ready base sent side := {
      sound := ready.sound.transmit transmits
      steady := same ▸ ready.steady
      deliverable := ready.deliverable.withholds withholds (congrArg Conn.buffer same)
    }
    obtain ⟨next, stepped, readyNext, withholdsNext, less⟩ :=
      readySent.arrives (same ▸ inTurn) flying
    refine ⟨[.transmit side index clock, .arrive ⟨side.other, .data packet⟩], next, ?_, readyNext,
      withholds.trans withholdsNext, same ▸ less⟩
    have first : link.step (.transmit side index clock) = some sent := transmitted
    rw [TransitionSystem.run_cons, first, Option.bind_some, TransitionSystem.run_cons, stepped]
    rfl
  · obtain ⟨next, stepped, readyNext, withholds, less⟩ := ready.arrives inTurn flying
    refine ⟨[.arrive ⟨side.other, .data packet⟩], next, ?_, readyNext, withholds, less⟩
    rw [TransitionSystem.run_cons, stepped]
    rfl

/-- All that was sent can be brought to the receiver, by induction on the number of packets that
are missing.
-/
theorem Ready.completes (ready : Ready base link side)
    : ∃ more final,
        run step link more = some final
        ∧ Ready base final side
        ∧ Flow.Withholds (link.flow side) (final.flow side)
        ∧ (link.flow side).nextSendSeq ≤ (final.flow side).receiver.nextRecvSeq := by
  generalize count : ((link.flow side).nextSendSeq - (link.flow side).receiver.nextRecvSeq).toNat
    = packets
  induction packets using Nat.strong_induction_on generalizing link with | h packets ih
  by_cases missing : (link.flow side).receiver.nextRecvSeq < (link.flow side).nextSendSeq
  · obtain ⟨first, next, ranFirst, readyNext, withholds, less⟩ := ready.delivers missing
    have fewer := withholds.nextSendSeq
    obtain ⟨second, final, ranSecond, readyFinal, withholdsFinal, past⟩ :=
      ih _ (by omega) readyNext rfl
    refine ⟨first ++ second, final, ?_, readyFinal, withholds.trans withholdsFinal, ?_⟩
    · rw [TransitionSystem.run_append, ranFirst, Option.bind_some, ranSecond]
    · rw [← fewer]
      exact past
  · exact ⟨[], link, rfl, ready, ⟨rfl, rfl, subset_refl _, subset_refl _⟩, not_lt.mp missing⟩

/-- What holds of a link all along a run from a completed handshake. -/
structure Streaming (base : Side → Int) (link : Link) : Prop where
  sound : link.Sound False base
  steady : ∀ side, (link.flow side).receiver.buffer.Steady
  nonempty : ∀ side, ∀ packet ∈ link.numbered side, packet.data ≠ []

theorem Established.streaming (established : link.Established)
    : Streaming (fun side => (link.conn side).nextSendSeq) link where
  sound := established.sound
  steady side := by simp [Link.flow, Buffer.Steady, Conn.buffer, established.recvList]
  nonempty side packet member := by
    rw [(established.history side).2.1] at member
    cases member

theorem Streaming.step {event : Event} (streaming : Streaming base link)
    (stepped : link.step event = some next)
    : Streaming base next where
  sound := streaming.sound.step False.elim stepped
  steady side := by
    rcases (streaming.sound.follows stepped side).receiver with same | ⟨packet, _, _, arrived⟩
    · rw [same]
      exact streaming.steady side
    · rw [arrived]
      exact (streaming.steady side).arrive _
  nonempty := step_numbered_nonempty streaming.nonempty stepped

/-- What a stuck packet is stuck for it stays, in every run. -/
theorem stuck_of_run {packet : DataPacket Int} {more : List Event} (streaming : Streaming base link)
    (stuck : (link.flow side).Stuck packet) (ran : run step link more = some next)
    : (next.flow side).Stuck packet := by
  have both : Streaming base next ∧ (next.flow side).Stuck packet := by
    refine @TransitionSystem.run_invariant _ _ step link next more
      (fun link => Streaming base link ∧ (link.flow side).Stuck packet) ?_ ⟨streaming, stuck⟩ ran
    intro link next event ⟨streaming, stuck⟩ stepped
    have sound := streaming.sound
    exact ⟨streaming.step stepped,
      stuck.follows (sound.flow side) (sound.numbered_prefix stepped side)
        (sound.follows stepped side)⟩
  exact both.2

theorem numbered_prefix_of_run {more : List Event} (streaming : Streaming base link)
    (ran : run step link more = some next) (side : Side)
    : link.numbered side <+: next.numbered side := by
  have both : Streaming base next ∧ link.numbered side <+: next.numbered side := by
    refine @TransitionSystem.run_invariant _ _ step link next more
      (fun later => Streaming base later ∧ link.numbered side <+: later.numbered side) ?_
      ⟨streaming, List.prefix_refl _⟩ ran
    intro state later event ⟨streaming, before⟩ stepped
    exact ⟨streaming.step stepped,
      before.trans (streaming.sound.numbered_prefix stepped side)⟩
  exact both.2

/-- In every run from a completed handshake, what a side has passed to `Send` can still be written
as a whole to the other side's stream exactly when each of its packets that was not yet written
is pending, in flight, or held where the drain loop gets to it.
-/
theorem completable_iff_of_run {start : Link} {events : List Event}
    (established : start.Established) (ran : run step start events = some link) (side : Side)
    : (∃ more final,
        run step link more = some final ∧ link.passed side <+: final.written side.other)
      ↔ (link.flow side).Deliverable := by
  have streaming : Streaming (fun side => (start.conn side).nextSendSeq) link :=
    TransitionSystem.run_invariant Streaming.step established.streaming ran
  have written {more : List Event} {final : Link} (ranOn : run step link more = some final)
      : link.passed side <+: final.written side.other
        ↔ (link.flow side).nextSendSeq ≤ (final.flow side).receiver.nextRecvSeq := by
    have streamingFinal : Streaming (fun side => (start.conn side).nextSendSeq) final :=
      TransitionSystem.run_invariant Streaming.step streaming ranOn
    exact (streaming.sound.flow side).passed_prefix_iff (streamingFinal.sound.flow side)
      (numbered_prefix_of_run streaming ranOn side) (streaming.nonempty side)
  constructor
  · rintro ⟨more, final, ranOn, early⟩
    refine Flow.deliverable_iff.mpr (fun packet stuck => ?_)
    have past := (written ranOn).mp early
    have behind := (stuck_of_run streaming stuck ranOn).unwritten
    have upper := ((streaming.sound.flow side).log.bounds stuck.numbered).2
    omega
  · intro deliverable
    have ready : Ready (fun side => (start.conn side).nextSendSeq) link side :=
      ⟨streaming.sound, streaming.steady side, deliverable⟩
    obtain ⟨more, final, ranOn, _, _, past⟩ := ready.completes
    exact ⟨more, final, ranOn, (written ranOn).mpr past⟩

/-- Packet 1 comes twice before packet 0, and packet 3 before packet 2. All four are acknowledged,
so that nothing brings packet 3 to the stream any more.
-/
theorem not_completable_repeated
    : ∃ link,
        run step { new with phase := .connected }
            [
              .send .client [0],
              .send .client [1],
              .send .client [2],
              .send .client [3],
              .transmit .client 1 20,
              .arrive ⟨.server, .data ⟨1, [1]⟩⟩,
              .arrive ⟨.server, .data ⟨1, [1]⟩⟩,
              .transmit .client 0 20,
              .arrive ⟨.server, .data ⟨0, [0]⟩⟩,
              .transmit .client 3 20,
              .arrive ⟨.server, .data ⟨3, [3]⟩⟩,
              .arrive ⟨.client, .ack 3⟩,
              .lose ⟨.server, .data ⟨3, [3]⟩⟩,
              .transmit .client 2 20,
              .arrive ⟨.server, .data ⟨2, [2]⟩⟩
            ]
          = some link
        ∧ ¬ ∃ more final,
              run step link more = some final ∧ link.passed .client <+: final.written .server := by
  obtain ⟨link, filtered⟩ := Option.isSome_iff_exists.mp
    (by decide +kernel
      : ((run step { new with phase := .connected }
          [
            .send .client [0],
            .send .client [1],
            .send .client [2],
            .send .client [3],
            .transmit .client 1 20,
            .arrive ⟨.server, .data ⟨1, [1]⟩⟩,
            .arrive ⟨.server, .data ⟨1, [1]⟩⟩,
            .transmit .client 0 20,
            .arrive ⟨.server, .data ⟨0, [0]⟩⟩,
            .transmit .client 3 20,
            .arrive ⟨.server, .data ⟨3, [3]⟩⟩,
            .arrive ⟨.client, .ack 3⟩,
            .lose ⟨.server, .data ⟨3, [3]⟩⟩,
            .transmit .client 2 20,
            .arrive ⟨.server, .data ⟨2, [2]⟩⟩
          ]).filter
        (fun link =>
          (⟨3, [3]⟩ : DataPacket Int) ∈ link.numbered .client
          ∧ (link.conn .server).nextRecvSeq = 3
          ∧ (Side.server, Packet.data ⟨3, [3]⟩) ∉ (link.socket .client).pendingPackets
          ∧ ⟨.server, .data ⟨3, [3]⟩⟩ ∉ link.net
          ∧ 3 ∉ (link.conn .server).buffer.reach)).isSome)
  obtain ⟨ran, facts⟩ := Option.filter_eq_some_iff.mp filtered
  obtain ⟨numbered, next, notPending, notFlying, unreached⟩ := of_decide_eq_true facts
  have established : Established { new with phase := .connected } := {
    connected := rfl
    agreed := fun _ => rfl
    recvList := fun _ => rfl
    byteStream := fun _ => rfl
    sendList := fun _ => rfl
    flying := fun _ member => absurd member List.not_mem_nil
    history := fun _ => ⟨rfl, rfl, rfl⟩
  }
  refine ⟨link, ran, fun completable => ?_⟩
  have deliverable := (completable_iff_of_run established ran .client).mp completable
  rcases deliverable _ numbered (le_of_eq next) with pending | flying | reached
  · exact notPending pending
  · exact notFlying flying
  · exact unreached reached

-----------------------------------------------------------------------------------------
-- Fair executions
-----------------------------------------------------------------------------------------

/-- No packet arrives at a receiver that holds it. -/
def Unrepeated (side : Side) (link : Link) (event : Event) : Prop :=
  ∀ packet,
    event = .arrive ⟨side.other, .data packet⟩ → packet ∉ (link.conn side.other).recvList

/-- A streaming link whose receiver holds nothing twice. -/
structure Flowing (base : Side → Int) (side : Side) (link : Link) : Prop where
  streaming : Streaming base link
  clear : (link.flow side).receiver.buffer.Clear

theorem Flowing.step {event : Event} (flowing : Flowing base side link)
    (unrepeated : Unrepeated side link event) (stepped : link.step event = some next)
    : Flowing base side next where
  streaming := flowing.streaming.step stepped
  clear := by
    have sound := flowing.streaming.sound
    rcases (sound.follows stepped side).receiver with same | ⟨packet, flying, arrives, buffer⟩
    · rw [same]
      exact flowing.clear
    · rw [buffer]
      refine flowing.clear.arrive (fun held => ?_)
      obtain ⟨other, member, number⟩ := List.mem_map.mp held
      have numbered := (sound.flow side).held other member
      have same := (sound.flow side).eq_of_forward numbered flying number.symm
      exact unrepeated packet arrives (same ▸ member)

/-- The packet in turn of a flowing link is pending. -/
theorem Flowing.pending {packet : DataPacket Int} (flowing : Flowing base side link)
    (numbered : packet ∈ link.numbered side)
    (inTurn : packet.seq = (link.flow side).receiver.nextRecvSeq)
    : packet ∈ (link.flow side).pending := by
  rcases (flowing.streaming.sound.flow side).kept packet numbered with pending | passed | held
  · exact pending
  · omega
  · have ahead := flowing.clear.ahead packet.seq (List.mem_map_of_mem held)
    have next : (link.flow side).receiver.nextRecvSeq < packet.seq := ahead
    omega

section Executions

variable {states : Nat → Link} {events : Nat → Event}

end Executions

end Link

end SchoolSystem.TcpSocket
