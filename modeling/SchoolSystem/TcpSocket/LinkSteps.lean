import SchoolSystem.TcpSocket.Link

/-! Every step of a connected link keeps both of its flows sound.
Each event moves the flow of one side and carries the other one along.
-/

namespace SchoolSystem.TcpSocket.Link

-----------------------------------------------------------------------------------------
-- Sending, retransmission, loss and reading
-----------------------------------------------------------------------------------------

/-- A flow whose sender, history and receive state stay as they were carries on. -/
theorem carries_of_same {base : Int} {flow next : Flow}
    (nextSendSeq : next.nextSendSeq = flow.nextSendSeq)
    (history
      : next.numbered = flow.numbered
        ∧ next.passed = flow.passed
        ∧ next.written = flow.written)
    (pending : next.pending = flow.pending)
    (forward : next.forward ⊆ flow.forward ∪ flow.pending)
    (acks : ∀ seq ∈ next.acks, seq ∈ flow.acks ∨ seq < base)
    (receiver
      : next.receiver.nextRecvSeq = flow.receiver.nextRecvSeq
        ∧ next.receiver.recvList = flow.receiver.recvList)
    : Flow.Carries base flow next where
  nextSendSeq := nextSendSeq
  numbered := history.1
  passed := history.2.1
  pending := le_of_eq pending
  dropped := fun packet member => Or.inl (by rw [pending]; exact member)
  forward := forward
  acks := acks
  nextRecvSeq := receiver.1
  recvList := receiver.2
  written := history.2.2

theorem flow_send_self (link : Link) (side : Side) (buf : List Byte)
    : Flow.Sends (payloads buf) (link.flow side) ((link.send side buf).flow side) where
  nextSendSeq := by simp [flow, conn, send, CTcpSocket.send]
  numbered := by simp [flow, send]
  passed := by simp [flow, send, payloads_flatten]
  pending := by
    ext packet
    simp [flow, conn, send, CTcpSocket.send, CTcpSocket.queuePackets_pendingPackets]
  forward := by simp [flow, send]
  acks := by simp [flow, send]
  receiver := by simp [flow, conn, send]
  written := by simp [flow, send]

theorem flow_send_other (link : Link) (side : Side) (buf : List Byte) (base : Int)
    : Flow.Carries base (link.flow side.other) ((link.send side buf).flow side.other) := by
  apply carries_of_same
  · simp [flow, conn, send]
  · simp [flow, send]
  · simp [flow, send]
  · exact Set.subset_union_left
  · exact fun seq member => Or.inl member
  · simp [flow, conn, send, CTcpSocket.send]

theorem Sound.send {late : Prop} {base : Side → Int} {link : Link}
    (sound : Sound late base link) (side : Side) (buf : List Byte)
    : Sound late base (link.send side buf) where
  connected := sound.connected
  queued := by
    intro flow entry member
    rcases pending_send member with old | ⟨packet, _, rfl⟩
    · exact sound.queued flow entry old
    · exact ⟨rfl, trivial⟩
  flying := sound.flying
  flow := by
    intro flow
    rcases Side.eq_or_other side flow with rfl | rfl
    · exact (sound.flow flow).sends (flow_send_self link flow buf)
    · exact (sound.flow side.other).carries (flow_send_other link side buf _)

/-- A transmission adds a pending packet to the network. -/
theorem Sound.transmit {late : Prop} {base : Side → Int} {link next : Link}
    (sound : Sound late base link) {side : Side} (transmits : Transmits side link next)
    : Sound late base next := by
  have conns : ∀ flow, next.conn flow = link.conn flow := transmits.conn
  obtain ⟨numbered, passed, written⟩ := transmits.history
  refine ⟨transmits.phase.trans sound.connected, ?_, ?_, ?_⟩
  · intro flow entry member
    exact sound.queued flow entry (by rw [← transmits.pending flow]; exact member)
  · intro datagram member
    rcases transmits.sent datagram member with old | ⟨pending, _⟩
    · exact sound.flying datagram old
    · obtain ⟨addr, permitted⟩ := sound.queued side _ pending
      have dst : datagram.dst = side.other := addr
      rw [dst, Side.other_other]
      exact permitted
  · intro flow
    refine (sound.flow flow).carries (carries_of_same ?_ ⟨?_, ?_, ?_⟩ ?_ ?_ ?_ ?_)
    · simp only [Link.flow, conns]
    · simp only [Link.flow, numbered]
    · simp only [Link.flow, passed]
    · simp only [Link.flow, written]
    · simp only [Link.flow, transmits.pending]
    · intro packet member
      rcases transmits.sent _ member with old | ⟨pending, _⟩
      · exact Or.inl old
      · have addr : flow.other = side.other := (sound.queued side _ pending).1
        have same : flow = side := by simpa using congrArg Side.other addr
        rw [same] at pending ⊢
        exact Or.inr pending
    · intro seq member
      rcases transmits.sent _ member with old | ⟨_, isSent⟩
      · exact Or.inl old
      · cases isSent
    · simp only [Link.flow, conns, and_self]

/-- A lost datagram only leaves fewer in flight. -/
theorem Sound.lose {late : Prop} {base : Side → Int} {link : Link}
    (sound : Sound late base link) (datagram : Datagram)
    : Sound late base { link with net := link.net.erase datagram } where
  connected := sound.connected
  queued := sound.queued
  flying := fun other member => sound.flying other (List.mem_of_mem_erase member)
  flow := by
    intro flow
    refine (sound.flow flow).carries (carries_of_same rfl ⟨rfl, rfl, rfl⟩ rfl ?_ ?_ ⟨rfl, rfl⟩)
    · exact fun packet member => Or.inl (List.mem_of_mem_erase member)
    · exact fun seq member => Or.inl (List.mem_of_mem_erase member)

/-- The reader takes bytes from the stream and leaves the counters alone. -/
theorem Sound.takeBytes {late : Prop} {base : Side → Int} {link : Link}
    (sound : Sound late base link) (side : Side) (nBufLen : Nat)
    : Sound late base (link.takeBytes side nBufLen) := by
  have pending := fun flow => link.pending_takeBytes side flow nBufLen
  refine ⟨sound.connected, ?_, sound.flying, ?_⟩
  · intro flow entry member
    exact sound.queued flow entry (by rw [← pending flow]; exact member)
  · intro flow
    obtain ⟨_, conn⟩ := link.conn_takeBytes side flow nBufLen
    obtain ⟨_, connOther⟩ := link.conn_takeBytes side flow.other nBufLen
    refine (sound.flow flow).carries (carries_of_same ?_ ⟨rfl, rfl, rfl⟩ ?_ ?_ ?_ ?_)
    · simp only [Link.flow, conn]
    · simp only [Link.flow, pending]
    · exact Set.subset_union_left
    · exact fun seq member => Or.inl member
    · simp only [Link.flow, connOther, and_self]

-----------------------------------------------------------------------------------------
-- Arrivals at RecvThreadProc
-----------------------------------------------------------------------------------------

/-- Whatever arrives, the handshake packets that are pending or in flight stay permitted. -/
theorem Sound.recvThread_permitted {late : Prop} {base : Side → Int} {link : Link}
    (sound : Sound late base link) {side : Side} {packet : Packet Int}
    (answered : ∀ seq, packet = .establish1 seq → 0 < base side)
    : (∀ flow, ∀ entry ∈ ((link.recvThread side packet).socket flow).pendingPackets,
        entry.1 = flow.other ∧ Permitted late (base flow) flow entry.2)
      ∧ ∀ datagram ∈ (link.recvThread side packet).net,
          Permitted late (base datagram.dst.other) datagram.dst.other datagram.packet := by
  constructor
  · intro flow entry member
    rcases pending_recvThread member with old | ⟨rfl, rfl, seq, first⟩
    · exact sound.queued flow entry old
    · exact ⟨rfl, answered seq first⟩
  · intro datagram member
    rcases net_recvThread member with old | ⟨_, rfl⟩
    · exact sound.flying datagram old
    · trivial

theorem flow_data_other {link : Link} {side : Side} {packet : DataPacket Int}
    (flying : ⟨side, .data packet⟩ ∈ link.net)
    : Flow.Delivers packet (link.flow side.other)
        ((link.recvThread side (.data packet)).flow side.other) where
  arrived := by simpa using flying
  nextSendSeq := by simp [flow, conn, recvThread]
  numbered := rfl
  passed := rfl
  pending := by simp [flow, recvThread]
  forward := by
    intro other member
    simpa [recvThread, CTcpSocket.recvThreadProc] using member
  acks := by
    intro seq member
    simpa [recvThread, CTcpSocket.recvThreadProc, or_comm] using member
  receiver := by simp [flow, conn, recvThread, CTcpSocket.recvThreadProc]
  written := by simp [flow, conn, recvThread, CTcpSocket.recvThreadProc]

theorem Sound.recvThread_data {late : Prop} {base : Side → Int} {link : Link}
    (sound : Sound late base link) {side : Side} {packet : DataPacket Int}
    (flying : ⟨side, .data packet⟩ ∈ link.net)
    : Sound late base (link.recvThread side (.data packet)) := by
  have other : ∀ number, Packet.data packet = .establish1 number → 0 < base side := by
    intro number first
    cases first
  obtain ⟨queued, permitted⟩ := sound.recvThread_permitted other
  refine ⟨sound.connected, queued, permitted, ?_⟩
  · intro flow
    rcases Side.eq_or_other side flow with rfl | rfl
    · refine (sound.flow flow).carries (carries_of_same ?_ ⟨rfl, rfl, ?_⟩ ?_ ?_ ?_ ?_)
      · simp [Link.flow, conn, recvThread, CTcpSocket.recvThreadProc]
      · simp [Link.flow, recvThread]
      · simp [Link.flow, recvThread, CTcpSocket.recvThreadProc]
      · intro other member
        exact Or.inl (by simpa [recvThread, CTcpSocket.recvThreadProc] using member)
      · intro seq member
        exact Or.inl (by simpa [recvThread, CTcpSocket.recvThreadProc] using member)
      · simp [Link.flow, conn, recvThread]
    · exact (sound.flow side.other).delivers (flow_data_other flying)

/-- An acknowledgement removes a pending packet with its number and nothing else. -/
theorem Sound.recvThread_ack {late : Prop} {base : Side → Int} {link : Link}
    (sound : Sound late base link) {side : Side} {seq : Int}
    (flying : ⟨side, .ack seq⟩ ∈ link.net)
    : Sound late base (link.recvThread side (.ack seq)) := by
  have erased := (link.socket side).onAck_pendingPackets seq
  have other : ∀ number, Packet.ack seq = .establish1 number → 0 < base side := by
    intro number first
    cases first
  obtain ⟨queued, permitted⟩ := sound.recvThread_permitted other
  refine ⟨sound.connected, queued, permitted, ?_⟩
  · intro flow
    refine (sound.flow flow).carries ?_
    rcases Side.eq_or_other side flow with rfl | rfl
    · constructor
      · simp [Link.flow, conn, recvThread, CTcpSocket.recvThreadProc, CTcpSocket.onAck]
      · rfl
      · rfl
      · intro packet member
        simp only [mem_pending, recvThread, CTcpSocket.recvThreadProc, Function.update_self,
          erased] at member
        exact List.mem_of_mem_eraseP member
      · intro packet member
        simp only [mem_pending, mem_acks, recvThread, CTcpSocket.recvThreadProc,
          Function.update_self, erased] at member ⊢
        by_cases same : packet.seq = seq
        · exact Or.inr (by rw [same]; exact flying)
        · exact Or.inl ((List.mem_eraseP_of_neg (by simpa [Packet.seq] using same)).mpr member)
      · intro packet member
        exact Or.inl (by simpa [recvThread, CTcpSocket.recvThreadProc] using member)
      · intro other member
        exact Or.inl (by simpa [recvThread, CTcpSocket.recvThreadProc] using member)
      · simp [Link.flow, conn, recvThread]
      · simp [Link.flow, conn, recvThread]
      · simp [Link.flow, recvThread]
    · apply carries_of_same
      · simp [Link.flow, conn, recvThread]
      · simp [Link.flow, conn, recvThread, CTcpSocket.recvThreadProc, CTcpSocket.onAck]
      · simp [Link.flow, recvThread]
      · intro packet member
        exact Or.inl (by simpa [recvThread, CTcpSocket.recvThreadProc] using member)
      · intro other member
        exact Or.inl (by simpa [recvThread, CTcpSocket.recvThreadProc] using member)
      · simp [Link.flow, conn, recvThread, CTcpSocket.recvThreadProc, CTcpSocket.onAck]

/-- A second handshake packet is acknowledged with a number from before the data. -/
theorem Sound.recvThread_establish2 {late : Prop} {base : Side → Int} {link : Link}
    (sound : Sound late base link) {side : Side} {seq : Int}
    (flying : ⟨side, .establish2 seq⟩ ∈ link.net)
    : Sound late base (link.recvThread side (.establish2 seq)) := by
  have stale : seq < base side.other := sound.flying _ flying
  have other : ∀ number, Packet.establish2 seq = .establish1 number → 0 < base side := by
    intro number first
    cases first
  obtain ⟨queued, permitted⟩ := sound.recvThread_permitted other
  refine ⟨sound.connected, queued, permitted, ?_⟩
  · intro flow
    refine (sound.flow flow).carries (carries_of_same ?_ ⟨rfl, rfl, ?_⟩ ?_ ?_ ?_ ?_)
    · rcases Side.eq_or_other side flow with rfl | rfl <;>
        simp [Link.flow, conn, recvThread, CTcpSocket.recvThreadProc]
    · rcases Side.eq_or_other side flow with rfl | rfl <;>
        simp [Link.flow, conn, recvThread, CTcpSocket.recvThreadProc]
    · rcases Side.eq_or_other side flow with rfl | rfl <;>
        simp [Link.flow, recvThread, CTcpSocket.recvThreadProc]
    · intro packet member
      exact Or.inl (by simpa [recvThread, CTcpSocket.recvThreadProc] using member)
    · intro other member
      rcases List.mem_append.mp member with old | new
      · exact Or.inl old
      · simp only [List.map_cons, List.map_nil, List.mem_singleton, Datagram.mk.injEq,
          Packet.ack.injEq] at new
        exact Or.inr (by rw [new.1, new.2]; exact stale)
    · rcases Side.eq_or_other side flow with rfl | rfl <;>
        simp [Link.flow, conn, recvThread, CTcpSocket.recvThreadProc]

/-- A late first handshake packet that finds the server's counters as it would set them
queues another second handshake packet and changes nothing else.
-/
theorem Sound.recvThread_establish1 {late : Prop} {base : Side → Int} {link : Link}
    (sound : Sound late base link) {seq : Int} (positive : 0 < base .server)
    (sends : (link.conn .server).nextSendSeq = 1)
    (expects : (link.conn .server).nextRecvSeq = seq + 1)
    : Sound late base (link.recvThread .server (.establish1 seq)) := by
  have queues := (link.socket .server).onEstablish1_pendingPackets .client seq
  obtain ⟨queued, permitted⟩ := sound.recvThread_permitted (fun _ _ => positive)
  refine ⟨sound.connected, queued, permitted, ?_⟩
  · intro flow
    have sameSend : ((link.recvThread .server (.establish1 seq)).conn flow).nextSendSeq
        = (link.conn flow).nextSendSeq := by
      cases flow <;>
        simp [conn, recvThread, CTcpSocket.recvThreadProc, CTcpSocket.onEstablish1, Side.other]
      exact sends.symm
    have sameRecv : ((link.recvThread .server (.establish1 seq)).conn flow.other).nextRecvSeq
          = (link.conn flow.other).nextRecvSeq
        ∧ ((link.recvThread .server (.establish1 seq)).conn flow.other).recvList
          = (link.conn flow.other).recvList := by
      cases flow <;>
        simp [conn, recvThread, CTcpSocket.recvThreadProc, CTcpSocket.onEstablish1, Side.other]
      exact expects.symm
    refine (sound.flow flow).carries (carries_of_same sameSend ⟨rfl, rfl, ?_⟩ ?_ ?_ ?_ sameRecv)
    · cases flow <;>
        simp [Link.flow, conn, recvThread, CTcpSocket.recvThreadProc, CTcpSocket.onEstablish1,
          Side.other]
    · ext packet
      cases flow with
      | client => simp [recvThread]
      | server =>
          simp only [mem_pending, recvThread, CTcpSocket.recvThreadProc, Function.update_self,
            Side.other, queues]
          simp
    · intro packet member
      exact Or.inl (by simpa [recvThread, CTcpSocket.recvThreadProc] using member)
    · intro other member
      exact Or.inl (by simpa [recvThread, CTcpSocket.recvThreadProc] using member)

/-- The arrival of a first handshake packet that leaves both counters as they are. -/
def Harmless (link : Link) : Event → Prop
  | .arrive ⟨.server, .establish1 seq⟩ =>
      (link.conn .server).nextSendSeq = 1 ∧ (link.conn .server).nextRecvSeq = seq + 1
  | _ => True

/-- Every step of a connected link keeps both flows sound, by the cases of the step. -/
theorem Sound.step {late : Prop} {base : Side → Int} {link next : Link} {event : Event}
    (sound : Sound late base link)
    (harmless : late → 0 < base .server ∧ Harmless link event)
    (stepped : link.step event = some next)
    : Sound late base next := by
  cases event with
  | connect clock =>
      have created := (step_connect.mp stepped).1
      rw [sound.connected] at created
      cases created
  | send side buf =>
      obtain ⟨_, rfl⟩ := step_send.mp stepped
      exact sound.send side buf
  | transmit side index clock => exact sound.transmit (transmits_of_transmit stepped)
  | recv side nBufLen =>
      obtain ⟨_, rfl⟩ := step_recv.mp stepped
      exact sound.takeBytes side nBufLen
  | lose datagram =>
      obtain ⟨_, rfl⟩ := step_lose.mp stepped
      exact sound.lose datagram
  | arrive datagram =>
      obtain ⟨flying, arrived⟩ := step_arrive.mp stepped
      obtain ⟨side, packet⟩ := datagram
      rcases arrive_cases arrived with ⟨_, rfl⟩ | ⟨_, waiting, _⟩
      · cases packet with
        | data packet => exact sound.recvThread_data flying
        | ack seq => exact sound.recvThread_ack flying
        | establish2 seq => exact sound.recvThread_establish2 flying
        | establish1 seq =>
            obtain ⟨isLate, fromClient, _⟩ := sound.flying _ flying
            cases side with
            | client => cases fromClient
            | server =>
                obtain ⟨positive, sends, expects⟩ := harmless isLate
                exact sound.recvThread_establish1 positive sends expects
      · rw [sound.connected] at waiting
        cases waiting

end SchoolSystem.TcpSocket.Link
