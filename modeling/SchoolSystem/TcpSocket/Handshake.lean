import SchoolSystem.TcpSocket.Delivery

/-! The handshake of a link, and its first packet arriving again.
The client repeats `ESTABLISH_1` until `Connect` reads an answer, so copies may reach the
server at any later time. Its branch sets the counters anew, which harms the connection
unless they still have the values it sets.
-/

namespace SchoolSystem.TcpSocket.Link

-----------------------------------------------------------------------------------------
-- Before Connect returns
-----------------------------------------------------------------------------------------

/-- The server's flow towards a client that will expect `base` once it is connected. -/
def awaited (link : Link) (base : Int) : Flow :=
  { link.flow .server with receiver := { link.conn .client with nextRecvSeq := base } }

/-- What the server may send to a client that is not connected: data, and answers to the
first handshake packet once it has accepted one and expects number 1.
-/
def Answer (base : Int) : Packet Int → Prop
  | .data _ => True
  | .establish2 seq => seq = 0 ∧ base = 1
  | .establish1 _ | .ack _ => False

/-- An answer stays one once the server has accepted the first handshake packet. -/
theorem Answer.accepted {base : Int} {packet : Packet Int} (answer : Answer base packet)
    : Answer 1 packet := by
  cases packet with
  | data packet => trivial
  | establish2 seq => exact ⟨answer.1, rfl⟩
  | establish1 seq => exact answer.elim
  | ack seq => exact answer.elim

theorem Answer.permitted {base : Int} {packet : Packet Int} (answer : Answer base packet)
    : Permitted True 1 .server packet := by
  cases packet with
  | data packet => trivial
  | ack seq => trivial
  | establish1 seq => exact answer.elim
  | establish2 seq =>
      rw [answer.1]
      exact zero_lt_one

/-- `Connect` has not read its first datagram. The server expects `base` from the client:
0 before it accepted the first handshake packet, and 1 afterwards.
-/
structure Connecting (base : Int) (link : Link) : Prop where
  phase : link.phase = .created ∨ link.phase = .waiting
  started : link.phase = .waiting → (link.conn .client).nextSendSeq = 1
  clientQueue
    : ∀ entry ∈ (link.socket .client).pendingPackets, entry = (.server, .establish1 0)
  serverQueue
    : ∀ entry ∈ (link.socket .server).pendingPackets,
        entry.1 = .client ∧ Answer base entry.2
  toServer : ∀ packet, ⟨.server, packet⟩ ∈ link.net → packet = .establish1 0
  toClient : ∀ packet, ⟨.client, packet⟩ ∈ link.net → Answer base packet
  expects : (link.conn .server).nextRecvSeq = base
  serverHeld : (link.conn .server).recvList = []
  clientHeld : (link.conn .client).recvList = []
  history : link.passed .client = [] ∧ link.numbered .client = [] ∧ link.written .server = []
  flow : (link.awaited base).Sound base

theorem Connecting.notConnected {base : Int} {link : Link} (connecting : Connecting base link)
    : link.phase ≠ .connected := by
  rcases connecting.phase with phase | phase <;> rw [phase] <;> decide

theorem connecting_new : Connecting 0 new where
  phase := Or.inl rfl
  started := by simp [new]
  clientQueue := by simp [new, CTcpSocket.new, CTcpSocket.pendingPackets]
  serverQueue := by simp [new, CTcpSocket.new, CTcpSocket.pendingPackets]
  toServer := by simp [new]
  toClient := by simp [new]
  expects := rfl
  serverHeld := rfl
  clientHeld := rfl
  history := ⟨rfl, rfl, rfl⟩
  flow := by
    constructor
    · exact NumberedLog.numbered_nil _ 0
    · rfl
    · simp [awaited, flow, new, CTcpSocket.new, CTcpSocket.pendingPackets]
    · simp [awaited, flow, new]
    · simp [awaited, conn, new, CTcpSocket.new, Conn.new]
    · simp [awaited]
    · simp [awaited, flow, conn, new, CTcpSocket.new, Conn.new]
    · simp [awaited, flow, new]
    · simp [awaited, flow, new]
    · simp [awaited, flow, new]

theorem Connecting.connect {base : Int} {link : Link} (connecting : Connecting base link)
    (clock : Int)
    : Connecting base (link.connect clock) where
  phase := Or.inr rfl
  started := fun _ => by simp [Link.connect, conn, CTcpSocket.connectStart, Side.other]
  clientQueue := by
    intro entry member
    simp only [Link.connect, CTcpSocket.connectStart, CTcpSocket.pendingPackets,
      Function.update_self, List.map_append, List.map_cons, List.map_nil] at member
    rcases List.mem_append.mp member with old | new
    · exact connecting.clientQueue entry old
    · exact List.mem_singleton.mp new
  serverQueue := by
    simpa [Link.connect] using connecting.serverQueue
  toServer := by
    intro packet member
    rcases List.mem_append.mp member with old | new
    · exact connecting.toServer packet old
    · simpa [CTcpSocket.connectStart] using new
  toClient := by
    intro packet member
    rcases List.mem_append.mp member with old | new
    · exact connecting.toClient packet old
    · simp at new
  expects := by simpa [Link.connect, conn] using connecting.expects
  serverHeld := by simpa [Link.connect, conn] using connecting.serverHeld
  clientHeld := by
    simpa [Link.connect, conn, CTcpSocket.connectStart, Side.other] using connecting.clientHeld
  history := connecting.history
  flow := by
    refine connecting.flow.carries (carries_of_same ?_ ⟨rfl, rfl, rfl⟩ ?_ ?_ ?_ ⟨rfl, ?_⟩)
    · simp [awaited, Link.flow, conn, Link.connect]
    · simp [awaited, Link.flow, Link.connect]
    · intro packet member
      refine Or.inl ?_
      simpa [awaited, Link.connect, CTcpSocket.connectStart, Side.other] using member
    · intro seq member
      refine Or.inl ?_
      simpa [awaited, Link.connect, CTcpSocket.connectStart] using member
    · simp [awaited, conn, Link.connect, CTcpSocket.connectStart, Side.other]

theorem Connecting.send {base : Int} {link : Link} (connecting : Connecting base link)
    (buf : List Byte)
    : Connecting base (link.send .server buf) where
  phase := connecting.phase
  started := by simpa [Link.send, conn] using connecting.started
  clientQueue := by simpa [Link.send] using connecting.clientQueue
  serverQueue := by
    intro entry member
    simp only [Link.send, Function.update_self, CTcpSocket.send,
      CTcpSocket.queuePackets_pendingPackets, List.mem_append, List.mem_map] at member
    rcases member with old | ⟨packet, _, rfl⟩
    · exact connecting.serverQueue entry old
    · exact ⟨rfl, trivial⟩
  toServer := connecting.toServer
  toClient := connecting.toClient
  expects := by simpa [Link.send, conn, CTcpSocket.send] using connecting.expects
  serverHeld := by simpa [Link.send, conn, CTcpSocket.send] using connecting.serverHeld
  clientHeld := by simpa [Link.send, conn] using connecting.clientHeld
  history := by simpa [Link.send] using connecting.history
  flow := by
    have same := flow_send_self link .server buf
    have sends : Flow.Sends (payloads buf) (link.awaited base)
        ((link.send .server buf).awaited base) := {
      nextSendSeq := same.nextSendSeq
      numbered := same.numbered
      passed := same.passed
      pending := same.pending
      forward := same.forward
      acks := same.acks
      receiver := by simp [awaited, conn, Link.send]
      written := same.written
    }
    exact connecting.flow.sends sends

theorem Connecting.transmit {base : Int} {link next : Link}
    (connecting : Connecting base link) {side : Side} (transmits : Transmits side link next)
    : Connecting base next := by
  have conns : ∀ flow, next.conn flow = link.conn flow := transmits.conn
  obtain ⟨numbered, passed, written⟩ := transmits.history
  -- the client has only its first handshake packet to send, the server only answers
  have sentOnly : ∀ dst packet, ⟨dst, packet⟩ ∈ next.net
      → ⟨dst, packet⟩ ∈ link.net
        ∨ (dst = .server ∧ packet = .establish1 0)
        ∨ (dst = .client
          ∧ Answer base packet
          ∧ (.client, packet) ∈ (link.socket .server).pendingPackets
          ∧ packet.isSent = true) := by
    intro dst packet member
    rcases transmits.sent _ member with old | ⟨pending, isSent⟩
    · exact Or.inl old
    · cases side with
      | client => exact Or.inr (Or.inl (Prod.mk.inj (connecting.clientQueue _ pending)))
      | server =>
          obtain ⟨addr, answer⟩ := connecting.serverQueue _ pending
          obtain rfl : dst = .client := addr
          exact Or.inr (Or.inr ⟨rfl, answer, pending, isSent⟩)
  have server := conns .server
  have client := conns .client
  constructor
  · simpa only [transmits.phase] using connecting.phase
  · simpa only [transmits.phase, client] using connecting.started
  · simpa only [transmits.pending] using connecting.clientQueue
  · simpa only [transmits.pending] using connecting.serverQueue
  · intro packet member
    rcases sentOnly _ _ member with old | ⟨_, same⟩ | ⟨dst, _⟩
    · exact connecting.toServer packet old
    · exact same
    · cases dst
  · intro packet member
    rcases sentOnly _ _ member with old | ⟨dst, _⟩ | ⟨_, answer, _⟩
    · exact connecting.toClient packet old
    · cases dst
    · exact answer
  · simpa only [server] using connecting.expects
  · simpa only [server] using connecting.serverHeld
  · simpa only [client] using connecting.clientHeld
  · simpa only [numbered, passed, written] using connecting.history
  · refine connecting.flow.carries (carries_of_same ?_ ⟨?_, ?_, ?_⟩ ?_ ?_ ?_ ⟨rfl, ?_⟩)
    · simp only [awaited, Link.flow, server]
    · simp only [awaited, Link.flow, numbered]
    · simp only [awaited, Link.flow, passed]
    · simp only [awaited, Link.flow, written]
    · simp only [awaited, Link.flow, transmits.pending]
    · intro packet member
      rcases sentOnly _ _ member with old | ⟨dst, _⟩ | ⟨_, _, pending, _⟩
      · exact Or.inl old
      · cases dst
      · exact Or.inr pending
    · intro seq member
      rcases sentOnly _ _ member with old | ⟨_, same⟩ | ⟨_, _, _, isSent⟩
      · exact Or.inl old
      · cases same
      · cases isSent
    · simp only [awaited, client]

theorem Connecting.lose {base : Int} {link : Link} (connecting : Connecting base link)
    (datagram : Datagram)
    : Connecting base { link with net := link.net.erase datagram } where
  phase := connecting.phase
  started := connecting.started
  clientQueue := connecting.clientQueue
  serverQueue := connecting.serverQueue
  toServer := fun packet member => connecting.toServer packet (List.mem_of_mem_erase member)
  toClient := fun packet member => connecting.toClient packet (List.mem_of_mem_erase member)
  expects := connecting.expects
  serverHeld := connecting.serverHeld
  clientHeld := connecting.clientHeld
  history := connecting.history
  flow := by
    refine connecting.flow.carries
      (carries_of_same rfl ⟨rfl, rfl, rfl⟩ rfl ?_ ?_ ⟨rfl, rfl⟩)
    · exact fun packet member => Or.inl (List.mem_of_mem_erase member)
    · exact fun seq member => Or.inl (List.mem_of_mem_erase member)

theorem Connecting.takeBytes {base : Int} {link : Link} (connecting : Connecting base link)
    (side : Side) (nBufLen : Nat)
    : Connecting base (link.takeBytes side nBufLen) := by
  obtain ⟨_, server⟩ := link.conn_takeBytes side .server nBufLen
  obtain ⟨_, client⟩ := link.conn_takeBytes side .client nBufLen
  have pending := fun flow => link.pending_takeBytes side flow nBufLen
  constructor
  · exact connecting.phase
  · intro waiting
    simpa only [client] using connecting.started waiting
  · simpa only [pending] using connecting.clientQueue
  · simpa only [pending] using connecting.serverQueue
  · exact connecting.toServer
  · exact connecting.toClient
  · simpa only [server] using connecting.expects
  · simpa only [server] using connecting.serverHeld
  · simpa only [client] using connecting.clientHeld
  · exact connecting.history
  · refine connecting.flow.carries (carries_of_same ?_ ⟨rfl, rfl, rfl⟩ ?_ ?_ ?_ ⟨rfl, ?_⟩)
    · simp only [awaited, Link.flow, server]
    · simp only [awaited, Link.flow, pending]
    · exact Set.subset_union_left
    · exact fun seq member => Or.inl member
    · simp only [awaited, client]

-----------------------------------------------------------------------------------------
-- The first handshake packet at the server
-----------------------------------------------------------------------------------------

/-- The server has neither numbered nor accepted anything for the client. -/
def Untouched (link : Link) : Prop :=
  (link.conn .server).nextSendSeq = 0 ∧ (link.conn .server).nextRecvSeq = 0

/-- The first handshake packet queues an answer and makes the server expect number 1. Its own
flow is sound from number 1 on, if it is so afterwards.
-/
theorem Connecting.establish1 {base : Int} {link : Link} (connecting : Connecting base link)
    (flow : ((link.recvThread .server (.establish1 0)).awaited 1).Sound 1)
    : Connecting 1 (link.recvThread .server (.establish1 0)) := by
  have queued := (link.socket .server).onEstablish1_pendingPackets .client 0
  constructor
  · exact connecting.phase
  · simpa [recvThread, conn] using connecting.started
  · simpa [recvThread] using connecting.clientQueue
  · intro entry member
    simp only [recvThread, CTcpSocket.recvThreadProc, Function.update_self, Side.other,
      queued] at member
    rcases List.mem_append.mp member with old | new
    · obtain ⟨addr, answer⟩ := connecting.serverQueue entry old
      exact ⟨addr, answer.accepted⟩
    · rw [List.mem_singleton.mp new]
      exact ⟨rfl, rfl, rfl⟩
  · simpa [recvThread, CTcpSocket.recvThreadProc] using connecting.toServer
  · intro packet member
    have answer := connecting.toClient packet
      (by simpa [recvThread, CTcpSocket.recvThreadProc] using member)
    exact answer.accepted
  · simp [recvThread, conn, CTcpSocket.recvThreadProc, CTcpSocket.onEstablish1]
  · have held := connecting.serverHeld
    simpa [recvThread, conn, CTcpSocket.recvThreadProc, CTcpSocket.onEstablish1, Side.other]
      using held
  · simpa [recvThread, conn] using connecting.clientHeld
  · have history := connecting.history
    simpa [recvThread, conn, CTcpSocket.recvThreadProc, CTcpSocket.onEstablish1, Side.other]
      using history
  · exact flow

/-- The server accepts the first handshake packet: it will expect number 1, and its own
data will start at number 1.
-/
theorem Connecting.accept {base : Int} {link : Link} (connecting : Connecting base link)
    (untouched : link.Untouched)
    : Connecting 1 (link.recvThread .server (.establish1 0)) := by
  have queued := (link.socket .server).onEstablish1_pendingPackets .client 0
  have zero : base = 0 := connecting.expects.symm.trans untouched.2
  subst zero
  have nothing : link.numbered .server = [] := connecting.flow.log.nil_iff.mpr untouched.1
  have noPending : ∀ packet,
      (Side.client, Packet.data packet) ∉ (link.socket .server).pendingPackets := by
    intro packet member
    have known : packet ∈ link.numbered .server := connecting.flow.pending packet member
    rw [nothing] at known
    exact absurd known List.not_mem_nil
  have passed := connecting.flow.passed
  have written := connecting.flow.written
  apply connecting.establish1
  constructor
  · simpa [awaited, Link.flow, conn, recvThread, CTcpSocket.recvThreadProc,
      CTcpSocket.onEstablish1, nothing, Side.other] using
        NumberedLog.numbered_nil DataPacket.seq 1
  · simpa [awaited, Link.flow, recvThread, nothing] using passed
  · intro packet member
    refine absurd ?_ (noPending packet)
    simpa [awaited, Link.flow, recvThread, CTcpSocket.recvThreadProc, Side.other, queued]
      using member
  · intro packet member lower
    have known : packet ∈ link.numbered .server := by
      apply connecting.flow.forward packet _ (by omega)
      simpa [awaited, recvThread, CTcpSocket.recvThreadProc] using member
    rw [nothing] at known
    exact absurd known List.not_mem_nil
  · intro packet member
    have held := connecting.clientHeld
    have inList : packet ∈ (link.conn .client).recvList := by
      simpa [awaited, conn, recvThread] using member
    rw [held] at inList
    exact absurd inList List.not_mem_nil
  · simp [awaited]
  · simp [awaited, Link.flow, conn, recvThread, CTcpSocket.recvThreadProc,
      CTcpSocket.onEstablish1, Side.other]
  · simpa [awaited, Link.flow, recvThread, nothing] using written
  · intro seq member _
    have known := connecting.toServer (.ack seq)
      (by simpa [awaited, recvThread, CTcpSocket.recvThreadProc] using member)
    cases known
  · simp [awaited, Link.flow, recvThread, nothing]

/-- A copy of the first handshake packet that finds the counters as it would set them only
queues another answer.
-/
theorem Connecting.repeated {base : Int} {link : Link} (connecting : Connecting base link)
    (sends : (link.conn .server).nextSendSeq = 1)
    (expects : (link.conn .server).nextRecvSeq = 1)
    : Connecting base (link.recvThread .server (.establish1 0)) := by
  have queued := (link.socket .server).onEstablish1_pendingPackets .client 0
  have one : base = 1 := connecting.expects.symm.trans expects
  subst one
  apply connecting.establish1
  refine connecting.flow.carries (carries_of_same ?_ ⟨rfl, rfl, ?_⟩ ?_ ?_ ?_ ⟨rfl, ?_⟩)
  · simp only [conn, Side.other] at sends
    simp [awaited, Link.flow, conn, recvThread, CTcpSocket.recvThreadProc,
      CTcpSocket.onEstablish1, Side.other, sends]
  · simp [awaited, Link.flow, recvThread]
  · ext packet
    simp only [awaited, Link.flow, recvThread, CTcpSocket.recvThreadProc,
      Function.update_self, Side.other, queued]
    simp
  · intro packet member
    refine Or.inl ?_
    simpa [awaited, recvThread, CTcpSocket.recvThreadProc] using member
  · intro seq member
    refine Or.inl ?_
    simpa [awaited, recvThread, CTcpSocket.recvThreadProc] using member
  · simp [awaited, conn, recvThread]

/-- An answer to the first handshake packet completes the handshake: both sides agree that
data starts at number 1.
-/
theorem Connecting.finish {link : Link} (connecting : Connecting 1 link)
    (waiting : link.phase = .waiting)
    : Sound True (fun _ => 1) (link.connectRecv (.establish2 0)) where
  connected := rfl
  queued := by
    intro side entry member
    cases side with
    | client =>
        simp [connectRecv, CTcpSocket.connectFinish, CTcpSocket.pendingPackets] at member
    | server =>
        obtain ⟨addr, answer⟩ :=
          connecting.serverQueue entry (by simpa [connectRecv] using member)
        exact ⟨addr, answer.permitted⟩
  flying := by
    intro datagram member
    obtain ⟨dst, packet⟩ := datagram
    rcases List.mem_append.mp member with old | new
    · cases dst with
      | server =>
          rw [connecting.toServer packet old]
          exact ⟨trivial, rfl, zero_add 1⟩
      | client =>
          exact (connecting.toClient packet old).permitted
    · rw [List.mem_singleton.mp new]
      trivial
  flow := by
    intro side
    cases side with
    | client =>
        obtain ⟨passed, numbered, written⟩ := connecting.history
        have expects := connecting.expects
        have held := connecting.serverHeld
        have started := connecting.started waiting
        simp only [conn, Side.other] at expects held started
        constructor
        · simpa [Link.flow, conn, connectRecv, CTcpSocket.connectFinish, Side.other, numbered,
            started] using NumberedLog.numbered_nil DataPacket.seq 1
        · simp [Link.flow, connectRecv, passed, numbered]
        · simp [Link.flow, connectRecv, CTcpSocket.connectFinish, CTcpSocket.pendingPackets]
        · intro packet member _
          have known := connecting.toServer (.data packet)
            (by simpa [connectRecv, CTcpSocket.connectFinish, Side.other] using member)
          cases known
        · simp [Link.flow, conn, connectRecv, Side.other, held]
        · simp [Link.flow, conn, connectRecv, Side.other, expects]
        · simp [Link.flow, conn, connectRecv, CTcpSocket.connectFinish, Side.other, expects,
            started]
        · simp [Link.flow, connectRecv, Side.other, written, numbered]
        · intro seq member _
          have answer := connecting.toClient (.ack seq)
            (by simpa [connectRecv, CTcpSocket.connectFinish] using member)
          exact answer.elim
        · simp [Link.flow, connectRecv, numbered]
    | server =>
        refine connecting.flow.carries (carries_of_same ?_ ⟨rfl, rfl, rfl⟩ ?_ ?_ ?_ ⟨?_, ?_⟩)
        · simp [awaited, Link.flow, conn, connectRecv]
        · simp [awaited, Link.flow, connectRecv]
        · intro packet member
          refine Or.inl ?_
          simpa [awaited, connectRecv, CTcpSocket.connectFinish, Side.other] using member
        · intro seq member
          rcases List.mem_append.mp member with old | new
          · exact Or.inl old
          · have same : seq = 0 := by
              simpa [CTcpSocket.connectFinish, Packet.seq] using new
            exact Or.inr (by omega)
        · simp [awaited, Link.flow, conn, connectRecv, CTcpSocket.connectFinish, Side.other,
            Packet.seq]
        · simp [awaited, Link.flow, conn, connectRecv, CTcpSocket.connectFinish, Side.other]

-----------------------------------------------------------------------------------------
-- Runs from the first packet on
-----------------------------------------------------------------------------------------

/-- A first handshake packet is early when the server has numbered no packet for the client
and has written none from it.
-/
def Early (link : Link) : Event → Prop
  | .arrive ⟨.server, .establish1 _⟩ =>
      link.numbered .server = [] ∧ link.written .server = []
  | _ => True

instance (link : Link) : ∀ event, Decidable (link.Early event)
  | .arrive ⟨.server, .establish1 _⟩ =>
      inferInstanceAs (Decidable (link.numbered .server = [] ∧ link.written .server = []))
  | .arrive ⟨.server, .establish2 _⟩ | .arrive ⟨.server, .data _⟩ | .arrive ⟨.server, .ack _⟩
  | .arrive ⟨.client, _⟩ | .connect _ | .send _ _ | .transmit _ _ _ | .lose _ | .recv _ _ =>
      isTrue trivial

/-- The arrival of a first handshake packet leaves both of the server's counters. -/
def CountersKept (link : Link) (seq : Int) : Prop :=
  let next := link.recvThread .server (.establish1 seq)
  (next.conn .server).nextSendSeq = (link.conn .server).nextSendSeq
  ∧ (next.conn .server).nextRecvSeq = (link.conn .server).nextRecvSeq

theorem countersKept_iff (link : Link) (seq : Int)
    : link.CountersKept seq ↔ Harmless link (.arrive ⟨.server, .establish1 seq⟩) := by
  simp only [CountersKept, Harmless, conn, recvThread, CTcpSocket.recvThreadProc,
    CTcpSocket.onEstablish1, Function.update_self, Side.other, zero_add]
  exact and_congr eq_comm eq_comm

/-- How far a link has come. -/
inductive Progress (link : Link) : Prop
  | connecting (base : Int) (range : base = 0 ∨ base = 1) (connecting : Connecting base link)
  | connected (sound : Sound True (fun _ => 1) link)
  | failed (failed : link.phase = .failed)

theorem connectRecv_numbered (link : Link) (packet : Packet Int)
    : (link.connectRecv packet).numbered = link.numbered := by
  cases packet <;> rfl

/-- Only `Send` numbers packets, and none of them is empty. -/
theorem step_numbered_nonempty {link next : Link} {event : Event}
    (nonempty : ∀ side, ∀ packet ∈ link.numbered side, packet.data ≠ [])
    (stepped : link.step event = some next)
    : ∀ side, ∀ packet ∈ next.numbered side, packet.data ≠ [] := by
  cases event with
  | connect clock =>
      obtain ⟨_, rfl⟩ := step_connect.mp stepped
      exact nonempty
  | send side buf =>
      obtain ⟨_, rfl⟩ := step_send.mp stepped
      intro other packet member
      rcases Side.eq_or_other side other with rfl | rfl
      · simp only [Link.send, Function.update_self] at member
        rcases List.mem_append.mp member with old | new
        · exact nonempty _ packet old
        · have length := (payloads_bounds buf packet.data (numberedFrom_mem new)).1
          exact List.ne_nil_of_length_pos length
      · exact nonempty _ packet (by simpa [Link.send] using member)
  | transmit side index clock =>
      obtain ⟨sent, _, rfl⟩ := Option.map_eq_some_iff.mp stepped
      exact nonempty
  | arrive datagram =>
      rcases arrive_cases (step_arrive.mp stepped).2 with ⟨_, rfl⟩ | ⟨_, _, rfl⟩
      · exact nonempty
      · rw [connectRecv_numbered]
        exact nonempty
  | lose datagram =>
      obtain ⟨_, rfl⟩ := step_lose.mp stepped
      exact nonempty
  | recv side nBufLen =>
      obtain ⟨_, rfl⟩ := step_recv.mp stepped
      exact nonempty

/-- A failed `Connect` is not repeated. -/
theorem step_failed {link next : Link} {event : Event} (failed : link.phase = .failed)
    (stepped : link.step event = some next)
    : next.phase = .failed := by
  cases event with
  | connect clock =>
      have created := (step_connect.mp stepped).1
      rw [failed] at created
      cases created
  | send side buf =>
      obtain ⟨_, rfl⟩ := step_send.mp stepped
      exact failed
  | transmit side index clock =>
      obtain ⟨sent, _, rfl⟩ := Option.map_eq_some_iff.mp stepped
      exact failed
  | arrive datagram =>
      rcases arrive_cases (step_arrive.mp stepped).2 with ⟨_, rfl⟩ | ⟨_, waiting, _⟩
      · exact failed
      · rw [failed] at waiting
        cases waiting
  | lose datagram =>
      obtain ⟨_, rfl⟩ := step_lose.mp stepped
      exact failed
  | recv side nBufLen =>
      obtain ⟨_, rfl⟩ := step_recv.mp stepped
      exact failed

/-- A datagram that arrives while `Connect` waits, by its destination and type. -/
theorem Connecting.arrive {base : Int} {link next : Link} {datagram : Datagram}
    (connecting : Connecting base link) (range : base = 0 ∨ base = 1)
    (early : link.Early (.arrive datagram)) (flying : datagram ∈ link.net)
    (arrived : link.arrive datagram.dst datagram.packet = some next)
    : Progress next := by
  obtain ⟨dst, packet⟩ := datagram
  cases dst with
  | server =>
      have first := connecting.toServer packet flying
      subst first
      obtain rfl := Option.some.inj arrived
      -- nothing is numbered yet, so the server's next number is still `base`
      have sends : (link.conn .server).nextSendSeq = base :=
        connecting.flow.log.nil_iff.mp early.1
      rcases range with rfl | rfl
      · exact .connecting 1 (Or.inr rfl) (connecting.accept ⟨sends, connecting.expects⟩)
      · exact .connecting 1 (Or.inr rfl) (connecting.repeated sends connecting.expects)
  | client =>
      have answer := connecting.toClient packet flying
      rcases arrive_cases arrived with ⟨notYet | connected, _⟩ | ⟨_, waiting, rfl⟩
      · cases notYet
      · exact absurd connected connecting.notConnected
      · cases packet with
        | data packet => exact .failed rfl
        | establish1 seq => exact answer.elim
        | ack seq => exact answer.elim
        | establish2 seq =>
            obtain ⟨rfl, rfl⟩ := answer
            exact .connected (connecting.finish waiting)

/-- At a connected server, a copy of the first handshake packet is early exactly when it
leaves both counters: they have moved past the values it sets with the first packet that the
server numbered or wrote.
-/
theorem Sound.early_iff {link : Link} {seq : Int} (sound : Sound True (fun _ => 1) link)
    (nonempty : ∀ side, ∀ packet ∈ link.numbered side, packet.data ≠ [])
    (flying : ⟨.server, .establish1 seq⟩ ∈ link.net)
    : link.Early (.arrive ⟨.server, .establish1 seq⟩)
      ↔ Harmless link (.arrive ⟨.server, .establish1 seq⟩) := by
  have number : seq + 1 = 1 := (sound.flying _ flying).2.2
  have sends : link.numbered .server = [] ↔ (link.conn .server).nextSendSeq = 1 :=
    (sound.flow .server).log.nil_iff
  have expects : link.written .server = [] ↔ (link.conn .server).nextRecvSeq = seq + 1 := by
    have written := (sound.flow .client).written_nil_iff (nonempty .client)
    rw [number]
    exact written
  exact and_congr sends expects

theorem Progress.step {link next : Link} {event : Event} (progress : Progress link)
    (nonempty : ∀ side, ∀ packet ∈ link.numbered side, packet.data ≠ [])
    (early : link.Early event) (stepped : link.step event = some next)
    : Progress next := by
  cases progress with
  | failed failed => exact .failed (step_failed failed stepped)
  | connected sound =>
      have harmless : Harmless link event := by
        unfold Harmless
        split
        · have flying := (step_arrive.mp stepped).1
          exact (sound.early_iff nonempty flying).mp early
        · trivial
      exact .connected (sound.step (fun _ => ⟨zero_lt_one, harmless⟩) stepped)
  | connecting base range connecting =>
      cases event with
      | connect clock =>
          obtain ⟨_, rfl⟩ := step_connect.mp stepped
          exact .connecting base range (connecting.connect clock)
      | send side buf =>
          obtain ⟨allowed, rfl⟩ := step_send.mp stepped
          rcases allowed with rfl | connected
          · exact .connecting base range (connecting.send buf)
          · exact absurd connected connecting.notConnected
      | transmit side index clock =>
          exact .connecting base range (connecting.transmit (transmits_of_transmit stepped))
      | recv side nBufLen =>
          obtain ⟨_, rfl⟩ := step_recv.mp stepped
          exact .connecting base range (connecting.takeBytes side nBufLen)
      | lose datagram =>
          obtain ⟨_, rfl⟩ := step_lose.mp stepped
          exact .connecting base range (connecting.lose datagram)
      | arrive datagram =>
          obtain ⟨flying, arrived⟩ := step_arrive.mp stepped
          exact connecting.arrive range early flying arrived

-----------------------------------------------------------------------------------------
-- Late copies
-----------------------------------------------------------------------------------------

/-- The bytes of `side` arrive in order and none is lost, and whatever the other side
acknowledged it has delivered or holds.
-/
structure Undisturbed (link : Link) (side : Side) : Prop extends link.InOrder side where
  acknowledged
    : ∀ seq, ⟨side, .ack seq⟩ ∈ link.net
      → seq < (link.conn side.other).nextRecvSeq
        ∨ ∃ packet ∈ (link.conn side.other).recvList, packet.seq = seq

theorem Sound.undisturbed {link : Link} (sound : Sound True (fun _ => 1) link) (side : Side)
    : link.Undisturbed side where
  toInOrder := sound.inOrder side
  acknowledged := by
    intro seq flying
    have lower : 1 ≤ (link.conn side.other).nextRecvSeq := (sound.flow side).lower
    rcases lt_or_ge seq 1 with before | data
    · exact Or.inl (by omega)
    · exact (sound.flow side).acked seq flying data

/-- What every state of a run from the first packet on satisfies, as long as each first
handshake packet is early.
-/
structure Steady (link : Link) : Prop where
  progress : Progress link
  nonempty : ∀ side, ∀ packet ∈ link.numbered side, packet.data ≠ []

theorem steady_new : Steady new where
  progress := .connecting 0 (Or.inl rfl) connecting_new
  nonempty := by simp [new]

theorem Steady.step {link next : Link} {event : Event} (steady : link.Steady)
    (early : link.Early event) (stepped : link.step event = some next)
    : next.Steady where
  progress := steady.progress.step steady.nonempty early stepped
  nonempty := step_numbered_nonempty steady.nonempty stepped

/-- In a run from the first packet on, in which every first handshake packet reaches the
server before it numbered a packet for the client and wrote one from it, both directions
stay undisturbed once `Connect` returned true; and a copy still in flight would leave the
counters exactly when it is early.
-/
theorem undisturbed_of_early {final : Link} {events : List Event}
    (early : TransitionSystem.Along step Early new events)
    (ran : TransitionSystem.run step new events = some final)
    (connected : final.phase = .connected)
    : (∀ seq, ⟨.server, .establish1 seq⟩ ∈ final.net
        → (final.CountersKept seq ↔ final.Early (.arrive ⟨.server, .establish1 seq⟩)))
      ∧ ∀ side, final.Undisturbed side := by
  obtain ⟨progress, nonempty⟩ :=
    TransitionSystem.run_invariant_along Steady.step steady_new early ran
  cases progress with
  | connecting base range connecting => exact absurd connected connecting.notConnected
  | failed failed =>
      rw [failed] at connected
      cases connected
  | connected sound =>
      refine ⟨?_, sound.undisturbed⟩
      intro seq flying
      rw [countersKept_iff, sound.early_iff nonempty flying]

/-- Two copies of the first handshake packet arrive before any data. -/
theorem undisturbed_repeated
    : ∃ final,
        TransitionSystem.run step new
            [
              .connect 20,
              .transmit .client 0 1020,
              .arrive ⟨.server, .establish1 0⟩,
              .transmit .server 0 1040,
              .arrive ⟨.client, .establish2 0⟩,
              .arrive ⟨.server, .establish1 0⟩,
              .send .client [104],
              .transmit .client 0 1060,
              .arrive ⟨.server, .data ⟨1, [104]⟩⟩
            ]
          = some final
        ∧ (∀ seq, ⟨.server, .establish1 seq⟩ ∈ final.net
          → (final.CountersKept seq ↔ final.Early (.arrive ⟨.server, .establish1 seq⟩)))
        ∧ ∀ side, final.Undisturbed side := by
  have ran := Option.eq_some_of_isSome
    (by decide : (TransitionSystem.run step new
      [
        .connect 20,
        .transmit .client 0 1020,
        .arrive ⟨.server, .establish1 0⟩,
        .transmit .server 0 1040,
        .arrive ⟨.client, .establish2 0⟩,
        .arrive ⟨.server, .establish1 0⟩,
        .send .client [104],
        .transmit .client 0 1060,
        .arrive ⟨.server, .data ⟨1, [104]⟩⟩
      ]).isSome)
  exact ⟨_, ran, undisturbed_of_early (by decide) ran rfl⟩

/-- A second copy of the first handshake packet arrives after the client's data: it sets the
counter back, and the data that the client sends again is written once more.
-/
def lateCopy : List Event :=
  [
    .connect 20,
    .transmit .client 0 1020,
    .arrive ⟨.server, .establish1 0⟩,
    .transmit .server 0 1040,
    .arrive ⟨.client, .establish2 0⟩,
    .send .client [104],
    .transmit .client 0 1060,
    .transmit .client 0 2060,
    .arrive ⟨.server, .data ⟨1, [104]⟩⟩,
    .arrive ⟨.server, .establish1 0⟩,
    .arrive ⟨.server, .data ⟨1, [104]⟩⟩
  ]

/-- A late copy does not leave the counters, and delivery does not survive it. -/
theorem undisturbed_not_lateCopy
    : (¬ ∀ events final,
          TransitionSystem.run step new events = some final
          → final.phase = .connected
          → ∀ seq, ⟨.server, .establish1 seq⟩ ∈ final.net → final.CountersKept seq)
      ∧ ¬ ∀ events final,
          TransitionSystem.run step new events = some final
          → final.phase = .connected
          → ∀ side, final.Undisturbed side := by
  constructor
  · intro kept
    have ran := Option.eq_some_of_isSome
      (by decide : (TransitionSystem.run step new (lateCopy.take 9)).isSome)
    have counters := kept _ _ ran rfl 0 (by decide)
    have expects := counters.2
    revert expects
    decide
  · intro undisturbed
    have ran := Option.eq_some_of_isSome
      (by decide : (TransitionSystem.run step new lateCopy).isSome)
    have isPrefix := (undisturbed _ _ ran rfl .client).isPrefix
    revert isPrefix
    decide

end SchoolSystem.TcpSocket.Link
