import SchoolSystem.TcpSocket.Flow

/-! One client and one server over a network that loses, repeats, delays and reorders.
A datagram that arrives stays in flight, so it can arrive again at any later time, and a
datagram that is never delivered is lost.
-/

namespace SchoolSystem.TcpSocket

inductive Side
  | client
  | server
  deriving DecidableEq, Repr

def Side.other : Side → Side
  | .client => .server
  | .server => .client

@[simp]
theorem Side.other_other (side : Side) : side.other.other = side := by cases side <;> rfl

@[simp]
theorem Side.other_ne (side : Side) : side.other ≠ side := by cases side <;> decide

@[simp]
theorem Side.ne_other (side : Side) : side ≠ side.other := (side.other_ne).symm

theorem Side.eq_or_other (side flow : Side) : flow = side ∨ flow = side.other := by
  cases side <;> cases flow <;> decide

-----------------------------------------------------------------------------------------
-- CTcpClient::Connect
-----------------------------------------------------------------------------------------

section Connect

variable {Addr Seq : Type} [DecidableEq Addr] [Add Seq] [OfNat Seq 0] [OfNat Seq 1]

/-- `Connect` up to the start of `SendThreadProc`, with the packet it sends. -/
def CTcpSocket.connectStart (socket : CTcpSocket Addr Seq) (serverAddr : Addr) (clock : Int)
    : CTcpSocket Addr Seq × Packet Seq :=
  (
    {
      connectMap :=
        Function.update socket.connectMap serverAddr
          { socket.connectMap serverAddr with nextSendSeq := 0 + 1 }
      sendList := socket.sendList ++ [⟨clock, serverAddr, .establish1 0⟩]
    },
    .establish1 0
  )

/-- `Connect` after its `recvfrom` returned a packet with this number, with the packet it
sends before it starts `RecvThreadProc`.
-/
def CTcpSocket.connectFinish (socket : CTcpSocket Addr Seq) (serverAddr : Addr) (seq : Seq)
    : CTcpSocket Addr Seq × Packet Seq :=
  (
    {
      connectMap :=
        Function.update socket.connectMap serverAddr
          { socket.connectMap serverAddr with nextRecvSeq := seq + 1 }
      sendList := []
    },
    .ack seq
  )

end Connect

/-- What `RecvThreadProc` makes of the connection to the sender of a packet. -/
def Conn.onPacket (conn : Conn Int) : Packet Int → Conn Int
  | .establish1 seq => { conn with nextSendSeq := 0 + 1, nextRecvSeq := seq + 1 }
  | .data packet => conn.onData packet
  | .establish2 _ | .ack _ => conn

/-- The packets that are answered with an `ACK` of their number. -/
def Packet.isAnswered : Packet Int → Bool
  | .establish2 _ | .data _ => true
  | .establish1 _ | .ack _ => false

/-- How far the client's `Connect` has come. -/
inductive ConnectPhase
  | created
  | waiting
  | connected
  | failed
  deriving DecidableEq, Repr

-----------------------------------------------------------------------------------------
-- The system
-----------------------------------------------------------------------------------------

structure Datagram where
  dst : Side
  packet : Packet Int
  deriving DecidableEq, Repr

/-- The sockets of both sides, the datagrams in flight, and the history of each side: the
bytes it passed to `Send`, the packets it numbered, and the bytes it wrote to its stream.
-/
structure Link where
  socket : Side → CTcpSocket Side Int
  phase : ConnectPhase
  net : List Datagram
  passed : Side → List Byte
  numbered : Side → List (DataPacket Int)
  written : Side → List Byte

namespace Link

/-- Before `Connect` is called, with nothing in flight. -/
def new : Link where
  socket := fun _ => CTcpSocket.new
  phase := .created
  net := []
  passed := fun _ => []
  numbered := fun _ => []
  written := fun _ => []

/-- The connection that a side holds for the other one. -/
def conn (link : Link) (side : Side) : Conn Int :=
  (link.socket side).connectMap side.other

inductive Event
  | connect (clock : Int)
  | send (side : Side) (buf : List Byte)
  | transmit (side : Side) (index : Nat) (clock : Int)
  | arrive (datagram : Datagram)
  | lose (datagram : Datagram)
  | recv (side : Side) (nBufLen : Nat)
  deriving DecidableEq, Repr

def connect (link : Link) (clock : Int) : Link :=
  let (socket, packet) := (link.socket .client).connectStart .server clock
  {
    link with
    socket := Function.update link.socket .client socket
    phase := .waiting
    net := link.net ++ [⟨.server, packet⟩]
  }

def send (link : Link) (side : Side) (buf : List Byte) : Link :=
  {
    link with
    socket := Function.update link.socket side ((link.socket side).send side.other buf)
    passed := Function.update link.passed side (link.passed side ++ buf)
    numbered :=
      Function.update link.numbered side
        (link.numbered side ++ numberedFrom (link.conn side).nextSendSeq (payloads buf))
  }

def transmit (link : Link) (side : Side) (index : Nat) (clock : Int) : Option Link :=
  ((link.socket side).sendThreadProc index clock).map (fun (socket, packets) =>
    {
      link with
      socket := Function.update link.socket side socket
      net := link.net ++ packets.map (fun (dst, packet) => ⟨dst, packet⟩)
    })

/-- `RecvThreadProc` of a side handles one packet. To send the `ACK` and to store the packet is one
step: in between the packet is only in a variable of this thread.
-/
def recvThread (link : Link) (side : Side) (packet : Packet Int) : Link :=
  let (socket, replies) := (link.socket side).recvThreadProc side.other packet
  let stream := (socket.connectMap side.other).byteStream
  {
    link with
    socket := Function.update link.socket side socket
    net := link.net ++ replies.map (Datagram.mk side.other)
    written :=
      Function.update link.written side
        (link.written side ++ stream.drop (link.conn side).byteStream.length)
  }

/-- `Connect` reads its first datagram into a buffer of `sizeof(Packet)` bytes, so that a
longer `DATA` datagram makes `recvfrom` and with it `Connect` fail.
-/
def connectRecv (link : Link) : Packet Int → Link
  | .data _ => { link with phase := .failed }
  | packet =>
      let (socket, reply) := (link.socket .client).connectFinish .server packet.seq
      {
        link with
        socket := Function.update link.socket .client socket
        phase := .connected
        net := link.net ++ [⟨.server, reply⟩]
      }

/-- The client reads datagrams in `Connect` and, once connected, in `RecvThreadProc`. -/
def arrive (link : Link) (side : Side) (packet : Packet Int) : Option Link :=
  match side, link.phase with
  | .server, _ => some (link.recvThread .server packet)
  | .client, .connected => some (link.recvThread .client packet)
  | .client, .waiting => some (link.connectRecv packet)
  | .client, .created => none
  | .client, .failed => none

def takeBytes (link : Link) (side : Side) (nBufLen : Nat) : Link :=
  {
    link with
    socket :=
      Function.update link.socket side
        ((link.socket side).setConn side.other
          {
            link.conn side with
            byteStream := (link.conn side).byteStream.drop nBufLen
          })
  }

/-- `Recv` waits for a byte and takes at most `nBufLen`. -/
def recv (link : Link) (side : Side) (nBufLen : Nat) : Option Link :=
  if (link.conn side).byteStream = [] then none else some (link.takeBytes side nBufLen)

/-- One step. The client sends only after `Connect` returned true. -/
def step (link : Link) : Event → Option Link
  | .connect clock => if link.phase = .created then some (link.connect clock) else none
  | .send side buf =>
      if side = .server ∨ link.phase = .connected then some (link.send side buf) else none
  | .transmit side index clock => link.transmit side index clock
  | .arrive datagram =>
      if datagram ∈ link.net then link.arrive datagram.dst datagram.packet else none
  | .lose datagram =>
      if datagram ∈ link.net then
        some { link with net := link.net.erase datagram }
      else
        none
  | .recv side nBufLen => link.recv side nBufLen

section Steps

variable {link next : Link}

theorem step_connect {clock : Int}
    : link.step (.connect clock) = some next
      ↔ link.phase = .created ∧ link.connect clock = next := by
  simp [step]

theorem step_send {side : Side} {buf : List Byte}
    : link.step (.send side buf) = some next
      ↔ (side = .server ∨ link.phase = .connected) ∧ link.send side buf = next := by
  simp [step]

theorem step_arrive {datagram : Datagram}
    : link.step (.arrive datagram) = some next
      ↔ datagram ∈ link.net ∧ link.arrive datagram.dst datagram.packet = some next := by
  simp [step]

theorem step_lose {datagram : Datagram}
    : link.step (.lose datagram) = some next
      ↔ datagram ∈ link.net ∧ { link with net := link.net.erase datagram } = next := by
  simp [step]

theorem step_recv {side : Side} {nBufLen : Nat}
    : link.step (.recv side nBufLen) = some next
      ↔ (link.conn side).byteStream ≠ [] ∧ link.takeBytes side nBufLen = next := by
  simp [step, recv]

/-- An arrival that is not refused is handled by `RecvThreadProc` or by `Connect`. -/
theorem arrive_cases {side : Side} {packet : Packet Int}
    (arrived : link.arrive side packet = some next)
    : ((side = .server ∨ link.phase = .connected) ∧ link.recvThread side packet = next)
      ∨ (side = .client ∧ link.phase = .waiting ∧ link.connectRecv packet = next) := by
  cases side with
  | server => exact Or.inl ⟨Or.inl rfl, Option.some.inj arrived⟩
  | client =>
      cases phase : link.phase with
      | created => simp [arrive, phase] at arrived
      | waiting => exact Or.inr ⟨rfl, rfl, by simpa [arrive, phase] using arrived⟩
      | connected => exact Or.inl ⟨Or.inr rfl, by simpa [arrive, phase] using arrived⟩
      | failed => simp [arrive, phase] at arrived

-----------------------------------------------------------------------------------------
-- What the steps change
-----------------------------------------------------------------------------------------

/-- All that a pass of `SendThreadProc` does to a link: it puts pending packets in flight. -/
structure Transmits (side : Side) (link next : Link) : Prop where
  connectMap : ∀ flow, (next.socket flow).connectMap = (link.socket flow).connectMap
  pending : ∀ flow, (next.socket flow).pendingPackets = (link.socket flow).pendingPackets
  kept : link.net ⊆ next.net
  sent
    : ∀ datagram ∈ next.net,
        datagram ∈ link.net
        ∨ (datagram.dst, datagram.packet) ∈ (link.socket side).pendingPackets
          ∧ datagram.packet.isSent = true
  phase : next.phase = link.phase
  history
    : next.numbered = link.numbered
      ∧ next.passed = link.passed
      ∧ next.written = link.written

theorem Transmits.conn {side : Side} (transmits : Transmits side link next) (flow : Side)
    : next.conn flow = link.conn flow :=
  congrFun (transmits.connectMap flow) flow.other

theorem transmits_of_transmit {side : Side} {index : Nat} {clock : Int}
    (stepped : link.transmit side index clock = some next)
    : Transmits side link next := by
  obtain ⟨⟨socket, sent⟩, sends, rfl⟩ := Option.map_eq_some_iff.mp stepped
  obtain ⟨sameConns, samePending, fromPending⟩ := CTcpSocket.sendThreadProc_spec sends
  refine ⟨?_, ?_, List.subset_append_left _ _, ?_, rfl, rfl, rfl, rfl⟩
  · intro flow
    rcases Side.eq_or_other side flow with rfl | rfl <;> simp [sameConns]
  · intro flow
    rcases Side.eq_or_other side flow with rfl | rfl <;> simp [samePending]
  · intro datagram member
    rcases List.mem_append.mp member with old | new
    · exact Or.inl old
    · obtain ⟨entry, inSent, rfl⟩ := List.mem_map.mp new
      exact Or.inr (fromPending entry inSent)

variable {side : Side} {packet : Packet Int}

theorem conn_recvThread (link : Link) (side : Side) (packet : Packet Int)
    : (link.recvThread side packet).conn side = (link.conn side).onPacket packet := by
  cases packet <;>
    simp [conn, recvThread, CTcpSocket.recvThreadProc, CTcpSocket.onEstablish1,
      CTcpSocket.onAck, Conn.onPacket]

theorem conn_recvThread_other (link : Link) (side : Side) (packet : Packet Int)
    : (link.recvThread side packet).conn side.other = link.conn side.other := by
  simp [conn, recvThread]

theorem written_recvThread (link : Link) (side : Side) (packet : Packet Int)
    : (link.recvThread side packet).written side
      = link.written side
        ++ ((link.conn side).onPacket packet).byteStream.drop
            (link.conn side).byteStream.length := by
  rw [← conn_recvThread]
  simp [conn, recvThread]

/-- Only a first handshake packet adds to the pending packets. -/
theorem pending_recvThread {flow : Side} {entry : Side × Packet Int}
    (member : entry ∈ ((link.recvThread side packet).socket flow).pendingPackets)
    : entry ∈ (link.socket flow).pendingPackets
      ∨ flow = side ∧ entry = (side.other, .establish2 0) ∧ ∃ seq, packet = .establish1 seq := by
  rcases Side.eq_or_other side flow with rfl | rfl
  · cases packet with
    | establish1 seq =>
        simp only [recvThread, CTcpSocket.recvThreadProc, Function.update_self,
          CTcpSocket.onEstablish1_pendingPackets] at member
        rcases List.mem_append.mp member with old | new
        · exact Or.inl old
        · exact Or.inr ⟨rfl, List.mem_singleton.mp new, seq, rfl⟩
    | establish2 seq => exact Or.inl (by simpa [recvThread, CTcpSocket.recvThreadProc] using member)
    | data packet => exact Or.inl (by simpa [recvThread, CTcpSocket.recvThreadProc] using member)
    | ack seq =>
        simp only [recvThread, CTcpSocket.recvThreadProc, Function.update_self,
          CTcpSocket.onAck_pendingPackets] at member
        exact Or.inl (List.mem_of_mem_eraseP member)
  · exact Or.inl (by simpa [recvThread] using member)

/-- An arrival puts at most its acknowledgement in flight. -/
theorem net_recvThread {datagram : Datagram}
    (member : datagram ∈ (link.recvThread side packet).net)
    : datagram ∈ link.net
      ∨ packet.isAnswered = true ∧ datagram = ⟨side.other, .ack packet.seq⟩ := by
  rcases List.mem_append.mp member with old | new
  · exact Or.inl old
  · right
    cases packet with
    | establish1 | ack => exact absurd new List.not_mem_nil
    | establish2 | data => exact ⟨rfl, List.mem_singleton.mp new⟩

theorem mem_net_recvThread {datagram : Datagram} (old : datagram ∈ link.net)
    : datagram ∈ (link.recvThread side packet).net :=
  List.mem_append_left _ old

theorem pending_send {flow : Side} {buf : List Byte} {entry : Side × Packet Int}
    (member : entry ∈ ((link.send side buf).socket flow).pendingPackets)
    : entry ∈ (link.socket flow).pendingPackets
      ∨ ∃ packet, packet ∈ (link.send side buf).numbered flow
          ∧ entry = (flow.other, .data packet) := by
  rcases Side.eq_or_other side flow with rfl | rfl
  · simp only [send, Function.update_self, CTcpSocket.send,
      CTcpSocket.queuePackets_pendingPackets] at member
    rcases List.mem_append.mp member with old | new
    · exact Or.inl old
    · obtain ⟨packet, numbered, rfl⟩ := List.mem_map.mp new
      refine Or.inr ⟨packet, ?_, rfl⟩
      simp only [send, Function.update_self]
      exact List.mem_append_right _ numbered
  · exact Or.inl (by simpa [send] using member)

theorem numbered_send (link : Link) (side flow : Side) (buf : List Byte)
    : link.numbered flow ⊆ (link.send side buf).numbered flow := by
  rcases Side.eq_or_other side flow with rfl | rfl <;> simp [send]

/-- `Send` leaves the receive state alone. -/
theorem received_send (link : Link) (side flow : Side) (buf : List Byte)
    : ((link.send side buf).conn flow).nextRecvSeq = (link.conn flow).nextRecvSeq
      ∧ ((link.send side buf).conn flow).recvList = (link.conn flow).recvList
      ∧ ((link.send side buf).conn flow).byteStream = (link.conn flow).byteStream := by
  rcases Side.eq_or_other side flow with rfl | rfl <;> simp [send, conn, CTcpSocket.send]

theorem conn_takeBytes (link : Link) (side flow : Side) (nBufLen : Nat)
    : ∃ taken,
        (link.takeBytes side nBufLen).conn flow
        = { link.conn flow with byteStream := (link.conn flow).byteStream.drop taken } := by
  rcases Side.eq_or_other side flow with rfl | rfl
  · exact ⟨nBufLen, by simp [takeBytes, conn]⟩
  · exact ⟨0, by simp [takeBytes, conn]⟩

theorem pending_takeBytes (link : Link) (side flow : Side) (nBufLen : Nat)
    : ((link.takeBytes side nBufLen).socket flow).pendingPackets
      = (link.socket flow).pendingPackets := by
  rcases Side.eq_or_other side flow with rfl | rfl <;> simp [takeBytes]

end Steps

-----------------------------------------------------------------------------------------
-- The two flows of a link
-----------------------------------------------------------------------------------------

/-- The packets of `side` on their way to the other side. -/
def flow (link : Link) (side : Side) : Flow where
  nextSendSeq := (link.conn side).nextSendSeq
  pending := {packet | (side.other, .data packet) ∈ (link.socket side).pendingPackets}
  forward := {packet | ⟨side.other, .data packet⟩ ∈ link.net}
  acks := {seq | ⟨side, .ack seq⟩ ∈ link.net}
  receiver := link.conn side.other
  passed := link.passed side
  numbered := link.numbered side
  written := link.written side.other

@[simp]
theorem mem_pending {link : Link} {side : Side} {packet : DataPacket Int}
    : packet ∈ (link.flow side).pending
      ↔ (side.other, .data packet) ∈ (link.socket side).pendingPackets := Iff.rfl

@[simp]
theorem mem_forward {link : Link} {side : Side} {packet : DataPacket Int}
    : packet ∈ (link.flow side).forward ↔ ⟨side.other, .data packet⟩ ∈ link.net := Iff.rfl

@[simp]
theorem mem_acks {link : Link} {side : Side} {seq : Int}
    : seq ∈ (link.flow side).acks ↔ ⟨side, .ack seq⟩ ∈ link.net := Iff.rfl

/-- The handshake packets that may be around: the client sends the first one, as long as
late copies are considered, with the number before its data, and the second one carries a
number from before the data.
-/
def Permitted (late : Prop) (base : Int) (src : Side) : Packet Int → Prop
  | .establish1 seq => late ∧ src = .client ∧ seq + 1 = base
  | .establish2 seq => seq < base
  | .data _ | .ack _ => True

/-- Both flows of a connected link are sound, and pending packets are for the other side. -/
structure Sound (late : Prop) (base : Side → Int) (link : Link) : Prop where
  connected : link.phase = .connected
  queued
    : ∀ side,
        ∀ entry ∈ (link.socket side).pendingPackets,
          entry.1 = side.other ∧ Permitted late (base side) side entry.2
  flying
    : ∀ datagram ∈ link.net,
        Permitted late (base datagram.dst.other) datagram.dst.other datagram.packet
  flow : ∀ side, (link.flow side).Sound (base side)

end Link

end SchoolSystem.TcpSocket
