import SchoolSystem.TcpSocket.Delivery

/-! What one step of a connected link does to the streams and to the packets on their way. -/

namespace SchoolSystem.TcpSocket

-----------------------------------------------------------------------------------------
-- The packets on their way
-----------------------------------------------------------------------------------------

namespace Flow

variable {base : Int} {data : List (List Byte)} {comes : DataPacket Int → Prop} {flow next : Flow}

/-- What is pending was pending or is new, what is in flight was in flight or pending, and the
receiver's numbers change only where a packet in flight arrives.
-/
structure Follows (comes : DataPacket Int → Prop) (flow next : Flow) : Prop where
  pending
    : ∀ packet ∈ next.pending, packet ∈ flow.pending ∨ flow.nextSendSeq ≤ packet.seq
  forward : ∀ packet ∈ next.forward, packet ∈ flow.forward ∨ packet ∈ flow.pending
  receiver
    : next.receiver.buffer = flow.receiver.buffer
      ∨ ∃ packet ∈ flow.forward,
          comes packet ∧ next.receiver.buffer = flow.receiver.buffer.arrive packet.seq

theorem Carries.follows (carries : Carries base flow next) : Follows comes flow next where
  pending _ member := Or.inl (carries.pending member)
  forward _ member := carries.forward member
  receiver := by
    rw [Conn.buffer, Conn.buffer, carries.nextRecvSeq, carries.recvList]
    exact Or.inl rfl

theorem Sends.follows (sends : Sends data flow next) : Follows comes flow next where
  pending packet member := by
    rw [sends.pending] at member
    refine member.imp_right (fun new => ?_)
    have number : packet.seq ∈ (numberedFrom flow.nextSendSeq data).map DataPacket.seq :=
      List.mem_map_of_mem new
    rw [numberedFrom_seq] at number
    exact (Int.mem_range_iff.mp number).1
  forward _ member := Or.inl (sends.forward member)
  receiver := Or.inl (by rw [sends.receiver])

end Flow

-----------------------------------------------------------------------------------------
-- What a step adds to the streams
-----------------------------------------------------------------------------------------

/-- The `DATA` branch only appends to the stream and only moves the counter forth. -/
theorem Conn.onData_forth (conn : Conn Int) (packet : DataPacket Int)
    : conn.byteStream <+: (conn.onData packet).byteStream
      ∧ conn.nextRecvSeq ≤ (conn.onData packet).nextRecvSeq := by
  rcases conn.onData_cases packet with ⟨_, _, _, less, _, stream⟩ | ⟨_, same⟩ | ⟨_, same⟩
  · exact ⟨stream ▸ List.prefix_append _ _, le_of_lt less⟩
  · rw [same]
    exact ⟨List.prefix_refl _, le_refl _⟩
  · rw [same]
    exact ⟨List.prefix_refl _, le_refl _⟩

/-- What the drain loop passes to `Write`, one packet after the other. -/
def Conn.drainWrites (conn : Conn Int) : List (DataPacket Int) → List (List Byte)
  | [] => []
  | held :: rest =>
      if held.seq = conn.nextRecvSeq then
        held.data :: (conn.deliver held.data).drainWrites rest
      else
        []

/-- What `RecvThreadProc` passes to `Write` for a packet. -/
def Conn.writes (conn : Conn Int) : Packet Int → List (List Byte)
  | .data packet =>
      if packet.seq = conn.nextRecvSeq then
        packet.data :: (conn.deliver packet.data).drainWrites conn.recvList
      else
        []
  | .establish1 _ | .establish2 _ | .ack _ => []

theorem Conn.drain_writes (conn : Conn Int) (held : List (DataPacket Int))
    : (conn.drain held).byteStream = conn.byteStream ++ (conn.drainWrites held).flatten := by
  induction held generalizing conn with
  | nil => exact (List.append_nil _).symm
  | cons head rest ih =>
      rw [drain, drainWrites]
      split
      · rw [ih, deliver_byteStream, List.flatten_cons, List.append_assoc]
      · exact (List.append_nil _).symm

theorem Conn.onPacket_writes (conn : Conn Int) (packet : Packet Int)
    : (conn.onPacket packet).byteStream = conn.byteStream ++ (conn.writes packet).flatten := by
  cases packet with
  | establish1 | establish2 | ack => exact (List.append_nil _).symm
  | data packet =>
      rw [onPacket, onData, writes]
      split
      · rw [drain_writes, deliver_byteStream, List.flatten_cons, List.append_assoc]
      · split <;> exact (List.append_nil _).symm

namespace Link

variable {link next : Link} {side flow : Side} {event : Event}

/-- Between two links nothing was read from a side's stream: it grew by what was written to it. -/
structure Extends (link next : Link) (flow : Side) : Prop where
  numbered : link.numbered flow <+: next.numbered flow
  bytes
    : ∃ bytes,
        next.written flow = link.written flow ++ bytes
        ∧ (next.conn flow).byteStream = (link.conn flow).byteStream ++ bytes
  nextRecvSeq : (link.conn flow).nextRecvSeq ≤ (next.conn flow).nextRecvSeq

theorem extends_of_same (numbered : link.numbered flow <+: next.numbered flow)
    (written : next.written flow = link.written flow)
    (received
      : (next.conn flow).nextRecvSeq = (link.conn flow).nextRecvSeq
        ∧ (next.conn flow).byteStream = (link.conn flow).byteStream)
    : Extends link next flow where
  numbered := numbered
  bytes := ⟨[], by rw [written, List.append_nil], by rw [received.2, List.append_nil]⟩
  nextRecvSeq := le_of_eq received.1.symm

/-- A packet that is no first handshake packet extends the stream of the side that it reaches. -/
theorem extends_recvThread {packet : Packet Int} (data : ∀ seq, packet ≠ .establish1 seq)
    (flow : Side)
    : Extends link (link.recvThread side packet) flow := by
  rcases Side.eq_or_other side flow with rfl | rfl
  · have forth
        : (link.conn flow).byteStream <+: ((link.conn flow).onPacket packet).byteStream
          ∧ (link.conn flow).nextRecvSeq ≤ ((link.conn flow).onPacket packet).nextRecvSeq := by
      cases packet with
      | establish1 seq => exact absurd rfl (data seq)
      | establish2 | ack => exact ⟨List.prefix_refl _, le_refl _⟩
      | data packet => exact (link.conn flow).onData_forth packet
    obtain ⟨bytes, stream⟩ := forth.1
    constructor
    · exact List.prefix_refl _
    · refine ⟨bytes, ?_, ?_⟩
      · rw [written_recvThread, ← stream, List.drop_left]
      · rw [conn_recvThread, ← stream]
    · rw [conn_recvThread]
      exact forth.2
  · refine extends_of_same (List.prefix_refl _) (by simp [recvThread]) ?_
    rw [conn_recvThread_other]
    exact ⟨rfl, rfl⟩

/-- A step that is no `Recv` extends both streams. -/
theorem Sound.extends {base : Side → Int} (sound : Sound False base link)
    (stepped : link.step event = some next) (unread : ∀ side nBufLen, event ≠ .recv side nBufLen)
    (flow : Side)
    : Extends link next flow := by
  cases event with
  | connect clock =>
      have created := (step_connect.mp stepped).1
      rw [sound.connected] at created
      cases created
  | recv side nBufLen => exact absurd rfl (unread side nBufLen)
  | send side buf =>
      obtain ⟨_, rfl⟩ := step_send.mp stepped
      obtain ⟨nextRecvSeq, _, byteStream⟩ := received_send link side flow buf
      refine extends_of_same ?_ rfl ⟨nextRecvSeq, byteStream⟩
      rcases Side.eq_or_other side flow with rfl | rfl <;> simp [Link.send]
  | transmit side index clock =>
      have transmits := transmits_of_transmit stepped
      obtain ⟨numbered, _, written⟩ := transmits.history
      refine extends_of_same ?_ (by rw [written]) (by rw [transmits.conn]; exact ⟨rfl, rfl⟩)
      exact numbered ▸ List.prefix_refl _
  | lose datagram =>
      obtain ⟨_, rfl⟩ := step_lose.mp stepped
      exact extends_of_same (List.prefix_refl _) rfl ⟨rfl, rfl⟩
  | arrive datagram =>
      obtain ⟨flying, arrived⟩ := step_arrive.mp stepped
      rcases arrive_cases arrived with ⟨_, rfl⟩ | ⟨_, waiting, _⟩
      · refine extends_recvThread (fun seq first => ?_) flow
        have permitted := sound.flying datagram flying
        rw [first] at permitted
        exact permitted.1
      · rw [sound.connected] at waiting
        cases waiting

/-- What is numbered stays numbered. -/
theorem Sound.numbered_prefix {base : Side → Int} (sound : Sound False base link)
    (stepped : link.step event = some next) (flow : Side)
    : link.numbered flow <+: next.numbered flow := by
  cases event with
  | recv side nBufLen =>
      obtain ⟨_, rfl⟩ := step_recv.mp stepped
      exact List.prefix_refl _
  | connect | send | transmit | arrive | lose =>
      refine (sound.extends stepped ?_ flow).numbered
      intro side nBufLen reads
      cases reads

-----------------------------------------------------------------------------------------
-- What a step does to the packets on their way
-----------------------------------------------------------------------------------------

theorem follows_recvThread {packet : Packet Int} (flying : ⟨side, packet⟩ ∈ link.net)
    (data : ∀ seq, packet ≠ .establish1 seq) (flow : Side)
    : Flow.Follows (fun arrived => Datagram.mk side packet = ⟨flow.other, .data arrived⟩)
        (link.flow flow) ((link.recvThread side packet).flow flow) where
  pending other member := by
    rcases pending_recvThread member with old | ⟨_, establish2, _⟩
    · exact Or.inl old
    · have packet := congrArg Prod.snd establish2
      cases packet
  forward other member := by
    rcases net_recvThread member with old | ⟨_, ack⟩
    · exact Or.inl old
    · have packet := congrArg Datagram.packet ack
      cases packet
  receiver := by
    rcases Side.eq_or_other side flow with rfl | rfl
    · exact Or.inl (by simp only [Link.flow, conn_recvThread_other])
    · simp only [Link.flow, Side.other_other, conn_recvThread]
      cases packet with
      | establish1 seq => exact absurd rfl (data seq)
      | establish2 | ack => exact Or.inl rfl
      | data arrived =>
          refine Or.inr ⟨arrived, ?_, rfl, Conn.onData_buffer _ _⟩
          simpa using flying

/-- Every step of a connected link moves both flows that way. -/
theorem Sound.follows {base : Side → Int} (sound : Sound False base link)
    (stepped : link.step event = some next) (flow : Side)
    : Flow.Follows (fun packet => event = .arrive ⟨flow.other, .data packet⟩)
        (link.flow flow) (next.flow flow) := by
  cases event with
  | connect clock =>
      have created := (step_connect.mp stepped).1
      rw [sound.connected] at created
      cases created
  | send side buf =>
      obtain ⟨_, rfl⟩ := step_send.mp stepped
      rcases Side.eq_or_other side flow with rfl | rfl
      · exact (flow_send_self link flow buf).follows
      · exact (flow_send_other link side buf 0).follows
  | transmit side index clock =>
      have transmits := transmits_of_transmit stepped
      constructor
      · intro packet member
        exact Or.inl (by simpa [transmits.pending] using member)
      · intro packet member
        rcases transmits.sent _ member with old | ⟨pending, _⟩
        · exact Or.inl old
        · have addr : flow.other = side.other := (sound.queued side _ pending).1
          have same : flow = side := by simpa using congrArg Side.other addr
          exact Or.inr (same ▸ pending)
      · exact Or.inl (by simp only [Link.flow, transmits.conn])
  | recv side nBufLen =>
      obtain ⟨_, rfl⟩ := step_recv.mp stepped
      obtain ⟨_, conn⟩ := link.conn_takeBytes side flow.other nBufLen
      constructor
      · intro packet member
        exact Or.inl (by simpa [pending_takeBytes] using member)
      · exact fun packet member => Or.inl member
      · left
        simp only [Link.flow, conn]
        rfl
  | lose datagram =>
      obtain ⟨_, rfl⟩ := step_lose.mp stepped
      exact
        ⟨fun packet member => Or.inl member,
          fun packet member => Or.inl (List.mem_of_mem_erase member), Or.inl rfl⟩
  | arrive datagram =>
      obtain ⟨flying, arrived⟩ := step_arrive.mp stepped
      rcases arrive_cases arrived with ⟨_, rfl⟩ | ⟨_, waiting, _⟩
      · have moved := follows_recvThread flying (fun seq first => ?_) flow
        · refine ⟨moved.pending, moved.forward, ?_⟩
          rcases moved.receiver with same | ⟨packet, forward, arrived, buffer⟩
          · exact Or.inl same
          · exact Or.inr ⟨packet, forward, congrArg Event.arrive arrived, buffer⟩
        · have permitted := sound.flying datagram flying
          rw [first] at permitted
          exact permitted.1
      · rw [sound.connected] at waiting
        cases waiting

end Link

end SchoolSystem.TcpSocket
