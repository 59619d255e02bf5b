import SchoolSystem.Library.TransitionSystem
import SchoolSystem.TcpSocket.Link

/-! A new client socket that connects from an address which the server knows from an earlier
connection: what the server still holds for it, and what is still in flight.
-/

namespace SchoolSystem.TcpSocket

/-- The counters that the `ESTABLISH_1` of a new connection sets. -/
def Conn.Ready (conn : Conn Int) : Prop := conn.nextSendSeq = 1 ∧ conn.nextRecvSeq = 1

namespace Link

variable {link next : Link} {side : Side} {packet : Packet Int}

-----------------------------------------------------------------------------------------
-- After Connect
-----------------------------------------------------------------------------------------

/-- What a side has delivered and holds of the other one was sent on the new connection. -/
structure OnlyNew (link : Link) (side : Side) : Prop where
  delivered
    : ∃ packets ⊆ link.numbered side.other,
        link.written side = packets.flatMap DataPacket.data
  stream : (link.conn side).byteStream <:+ link.written side
  held : (link.conn side).recvList ⊆ link.numbered side.other

/-- A `DATA` packet that is not of the new connection has a number that no side expects. -/
def FromNew (numbered : List (DataPacket Int)) : Packet Int → Prop
  | .data packet => packet ∈ numbered ∨ packet.seq ≤ 0
  | .establish1 seq => seq = 0
  | .establish2 _ | .ack _ => True

theorem FromNew.mono {numbered later : List (DataPacket Int)} (more : numbered ⊆ later)
    (fromNew : FromNew numbered packet)
    : FromNew later packet := by
  cases packet with
  | data packet => exact fromNew.imp_left (fun member => more member)
  | establish1 | establish2 | ack => exact fromNew

/-- A packet is written together with held packets, held back or ignored. -/
theorem onPacket_fromNew {conn : Conn Int} {numbered : List (DataPacket Int)}
    (expects : 1 ≤ conn.nextRecvSeq) (held : conn.recvList ⊆ numbered)
    (fromNew : FromNew numbered packet)
    : 1 ≤ (conn.onPacket packet).nextRecvSeq
      ∧ (conn.onPacket packet).recvList ⊆ numbered
      ∧ ∃ more ⊆ numbered,
          (conn.onPacket packet).byteStream
          = conn.byteStream ++ more.flatMap DataPacket.data := by
  cases packet with
  | establish1 seq =>
      obtain rfl : seq = 0 := fromNew
      exact ⟨le_refl _, held, [], List.nil_subset _, by simp [Conn.onPacket]⟩
  | establish2 | ack => exact ⟨expects, held, [], List.nil_subset _, by simp [Conn.onPacket]⟩
  | data packet =>
      rw [Conn.onPacket]
      rcases conn.onData_cases packet with
        ⟨expected, released, split, less, _, written⟩ | ⟨ahead, same⟩ | ⟨_, same⟩
      · have new : packet ∈ numbered := fromNew.resolve_right (by omega)
        refine ⟨by omega, fun other member => held ?_, packet :: released, ?_, written⟩
        · rw [split]
          exact List.mem_append_right _ member
        · intro other member
          rcases List.mem_cons.mp member with rfl | later
          · exact new
          · exact held (by rw [split]; exact List.mem_append_left _ later)
      · have new : packet ∈ numbered := fromNew.resolve_right (by omega)
        rw [same]
        refine ⟨expects, ?_, [], List.nil_subset _, by simp⟩
        intro other member
        rcases List.mem_cons.mp ((insertPacket_perm _ _).mem_iff.mp member) with rfl | old
        · exact new
        · exact held old
      · rw [same]
        exact ⟨expects, held, [], List.nil_subset _, by simp⟩

/-- A change that writes nothing and takes bytes from the stream at most. -/
theorem OnlyNew.of_suffix (only : link.OnlyNew side)
    (numbered : link.numbered side.other ⊆ next.numbered side.other)
    (written : next.written side = link.written side)
    (stream : (next.conn side).byteStream <:+ (link.conn side).byteStream)
    (held : (next.conn side).recvList = (link.conn side).recvList)
    : next.OnlyNew side := by
  obtain ⟨packets, known, delivered⟩ := only.delivered
  refine ⟨⟨packets, List.Subset.trans known numbered, ?_⟩, ?_, ?_⟩
  · rw [written, delivered]
  · rw [written]
    exact stream.trans only.stream
  · rw [held]
    exact List.Subset.trans only.held numbered

theorem OnlyNew.recvThread (only : link.OnlyNew side)
    (expects : 1 ≤ (link.conn side).nextRecvSeq)
    (fromNew : FromNew (link.numbered side.other) packet)
    : (link.recvThread side packet).OnlyNew side
      ∧ 1 ≤ ((link.recvThread side packet).conn side).nextRecvSeq := by
  obtain ⟨later, held, more, new, stream⟩ := onPacket_fromNew expects only.held fromNew
  obtain ⟨packets, known, delivered⟩ := only.delivered
  have conn := link.conn_recvThread side packet
  have written : (link.recvThread side packet).written side
      = link.written side ++ more.flatMap DataPacket.data := by
    rw [written_recvThread, stream, List.drop_left]
  refine ⟨⟨⟨packets ++ more, ?_, ?_⟩, ?_, ?_⟩, ?_⟩
  · exact List.append_subset.mpr ⟨known, new⟩
  · rw [written, delivered, List.flatMap_append]
  · obtain ⟨front, split⟩ := only.stream
    exact ⟨front, by rw [conn, stream, written, ← split, List.append_assoc]⟩
  · rw [conn]
    exact held
  · rw [conn]
    exact later

/-- `Connect` has returned true, and no old data is left that either side would accept. -/
structure Renewed (link : Link) : Prop where
  connected : link.phase = .connected
  queued
    : ∀ side, ∀ entry ∈ (link.socket side).pendingPackets,
        entry.1 = side.other ∧ FromNew (link.numbered side) entry.2
  flying
    : ∀ datagram ∈ link.net, FromNew (link.numbered datagram.dst.other) datagram.packet
  expects : ∀ side, 1 ≤ (link.conn side).nextRecvSeq
  only : ∀ side, link.OnlyNew side

theorem Renewed.send (renewed : link.Renewed) (side : Side) (buf : List Byte)
    : (link.send side buf).Renewed where
  connected := renewed.connected
  queued := by
    intro flow entry member
    rcases pending_send member with old | ⟨packet, numbered, rfl⟩
    · obtain ⟨addr, fromNew⟩ := renewed.queued flow entry old
      exact ⟨addr, fromNew.mono (link.numbered_send side flow buf)⟩
    · exact ⟨rfl, Or.inl numbered⟩
  flying := fun datagram member =>
    (renewed.flying datagram member).mono (link.numbered_send side _ buf)
  expects := by
    intro flow
    rw [(link.received_send side flow buf).1]
    exact renewed.expects flow
  only := by
    intro flow
    obtain ⟨_, held, stream⟩ := link.received_send side flow buf
    exact (renewed.only flow).of_suffix (link.numbered_send side flow.other buf) rfl
      ⟨[], stream⟩ held

theorem Renewed.transmit (renewed : link.Renewed) (transmits : Transmits side link next)
    : next.Renewed := by
  have conns : ∀ flow, next.conn flow = link.conn flow := transmits.conn
  obtain ⟨numbered, _, written⟩ := transmits.history
  refine ⟨transmits.phase.trans renewed.connected, ?_, ?_, ?_, ?_⟩
  · intro flow entry member
    rw [numbered]
    exact renewed.queued flow entry (by rw [← transmits.pending flow]; exact member)
  · intro datagram member
    rw [numbered]
    rcases transmits.sent datagram member with old | ⟨pending, _⟩
    · exact renewed.flying datagram old
    · obtain ⟨addr, fromNew⟩ := renewed.queued side _ pending
      rw [show datagram.dst = side.other from addr, Side.other_other]
      exact fromNew
  · intro flow
    rw [conns]
    exact renewed.expects flow
  · intro flow
    have stream : (next.conn flow).byteStream = (link.conn flow).byteStream := by rw [conns]
    refine (renewed.only flow).of_suffix ?_ (by rw [written]) ⟨[], stream⟩ (by rw [conns])
    exact fun packet member => by rwa [numbered]

theorem Renewed.recvThread (renewed : link.Renewed) (flying : ⟨side, packet⟩ ∈ link.net)
    : (link.recvThread side packet).Renewed := by
  have fromNew : FromNew (link.numbered side.other) packet := renewed.flying _ flying
  obtain ⟨only, expects⟩ := (renewed.only side).recvThread (renewed.expects side) fromNew
  have other := link.conn_recvThread_other side packet
  refine ⟨renewed.connected, ?_, ?_, ?_, ?_⟩
  · intro flow entry member
    rcases pending_recvThread member with old | ⟨rfl, rfl, _⟩
    · exact renewed.queued flow entry old
    · exact ⟨rfl, trivial⟩
  · intro datagram member
    rcases net_recvThread member with old | ⟨_, rfl⟩
    · exact renewed.flying datagram old
    · trivial
  · intro flow
    rcases Side.eq_or_other side flow with rfl | rfl
    · exact expects
    · rw [other]
      exact renewed.expects side.other
  · intro flow
    rcases Side.eq_or_other side flow with rfl | rfl
    · exact only
    · have written : (link.recvThread side packet).written side.other
          = link.written side.other := by
        simp [Link.recvThread]
      have stream : ((link.recvThread side packet).conn side.other).byteStream
          = (link.conn side.other).byteStream := by
        rw [other]
      exact (renewed.only side.other).of_suffix (List.Subset.refl _) written ⟨[], stream⟩
        (by rw [other])

theorem Renewed.takeBytes (renewed : link.Renewed) (side : Side) (nBufLen : Nat)
    : (link.takeBytes side nBufLen).Renewed := by
  refine ⟨renewed.connected, ?_, renewed.flying, ?_, ?_⟩
  · intro flow entry member
    rw [pending_takeBytes] at member
    exact renewed.queued flow entry member
  · intro flow
    obtain ⟨taken, same⟩ := link.conn_takeBytes side flow nBufLen
    simpa only [same] using renewed.expects flow
  · intro flow
    obtain ⟨taken, same⟩ := link.conn_takeBytes side flow nBufLen
    refine (renewed.only flow).of_suffix (List.Subset.refl _) rfl ?_ (by rw [same])
    simpa only [same] using List.drop_suffix taken _

/-- Nothing that can happen to a renewed connection brings old data back, by event cases. -/
theorem Renewed.step {event : Event} (renewed : link.Renewed)
    (stepped : link.step event = some next)
    : next.Renewed := by
  cases event with
  | connect clock =>
      have created := (step_connect.mp stepped).1
      rw [renewed.connected] at created
      cases created
  | send side buf =>
      obtain ⟨_, rfl⟩ := step_send.mp stepped
      exact renewed.send side buf
  | transmit side index clock => exact renewed.transmit (transmits_of_transmit stepped)
  | arrive datagram =>
      obtain ⟨flying, arrived⟩ := step_arrive.mp stepped
      rcases arrive_cases arrived with ⟨_, rfl⟩ | ⟨_, waiting, _⟩
      · exact renewed.recvThread flying
      · rw [renewed.connected] at waiting
        cases waiting
  | lose datagram =>
      obtain ⟨_, rfl⟩ := step_lose.mp stepped
      refine ⟨renewed.connected, renewed.queued, ?_, renewed.expects, ?_⟩
      · exact fun other member => renewed.flying other (List.mem_of_mem_erase member)
      · exact fun flow => (renewed.only flow).of_suffix (List.Subset.refl _) rfl
          List.suffix_rfl rfl
  | recv side nBufLen =>
      obtain ⟨_, rfl⟩ := step_recv.mp stepped
      exact renewed.takeBytes side nBufLen

-----------------------------------------------------------------------------------------
-- Before Connect
-----------------------------------------------------------------------------------------

/-- `Connect` has not been called, and whatever is left of earlier connections is: all that the
server holds for the client's address, and any datagrams in flight. The histories are those of
the new connection.
-/
structure Leftover (link : Link) : Prop where
  created : link.phase = .created
  newClient : link.socket .client = CTcpSocket.new
  addressed : ∀ entry ∈ (link.socket .server).pendingPackets, entry.1 = .client
  payload : ∀ dst packet, ⟨dst, .data packet⟩ ∈ link.net → packet.data ≠ []
  history : ∀ side, link.passed side = [] ∧ link.numbered side = [] ∧ link.written side = []

/-- Both sides count alike, and the server holds nothing for the client but second handshake
packets.
-/
structure Agreed (link : Link) : Prop where
  clientExpects : (link.conn .client).nextRecvSeq = (link.conn .server).nextSendSeq
  serverExpects : (link.conn .server).nextRecvSeq = (link.conn .client).nextSendSeq
  held : (link.conn .server).recvList = []
  stream : (link.conn .server).byteStream = []
  pending
    : ∀ entry ∈ (link.socket .server).pendingPackets,
        entry.1 = .client → ∃ seq, entry.2 = .establish2 seq

/-- The server does not `Send` to the client. -/
def Quiet (_ : Link) (event : Event) : Prop := ∀ buf, event ≠ .send .server buf

/-- However the datagrams arrive before `Connect` returns true, both sides agree then, and every
later delivery is of the new connection.
-/
def Fresh (start : Link) : Prop :=
  ∀ before, TransitionSystem.ReachesAlong step Quiet start before
    → before.phase = .waiting
    → ∀ event after, before.step event = some after
      → after.phase = .connected
      → after.Agreed
        ∧ ∀ final, TransitionSystem.Reaches step after final → ∀ side, final.OnlyNew side

/-- The packets to each side that do no harm when they arrive in a new connection. The server
acknowledges second handshake packets and `DATA`, and `Connect` takes the number of any packet
but `DATA` for the server's.
-/
def Tolerated (ready : Prop) : Side → Packet Int → Prop
  | .server, .ack _ => True
  | .server, .establish1 seq => seq = 0
  | .server, .establish2 seq => seq = 0 ∧ ready
  | .server, .data packet => packet.seq = 0 ∧ ready
  | .client, .data packet => packet.seq ≤ 0
  | .client, packet => packet.seq = 0 ∧ ready

/-- Nothing is left that a new connection could take for its own. -/
structure Clean (link : Link) : Prop where
  held : (link.conn .server).recvList = []
  stream : (link.conn .server).byteStream = []
  pending
    : ∀ entry ∈ (link.socket .server).pendingPackets,
        entry.2 = .establish2 0 ∧ (link.conn .server).Ready
  flying
    : ∀ datagram ∈ link.net, Tolerated (link.conn .server).Ready datagram.dst datagram.packet

theorem Tolerated.mono {ready later : Prop} (more : ready → later)
    (tolerated : Tolerated ready side packet)
    : Tolerated later side packet := by
  cases side <;> cases packet <;>
    first
    | exact tolerated
    | exact tolerated.imp_right more

theorem Tolerated.fromNew {ready : Prop} {numbered : List (DataPacket Int)}
    (tolerated : Tolerated ready side packet)
    : FromNew numbered packet := by
  cases packet with
  | establish1 seq =>
      cases side with
      | client => exact tolerated.1
      | server => exact tolerated
  | establish2 | ack => trivial
  | data packet =>
      cases side with
      | client => exact Or.inr tolerated
      | server => exact Or.inr (le_of_eq tolerated.1)

/-- A tolerated packet sets the counters as the new connection does, or it leaves the server's
connection alone.
-/
theorem onPacket_tolerated {conn : Conn Int}
    (tolerated : Tolerated conn.Ready .server packet)
    : (packet = .establish1 0
        ∧ conn.onPacket packet = { conn with nextSendSeq := 1, nextRecvSeq := 1 })
      ∨ ((∀ seq, packet ≠ .establish1 seq) ∧ conn.onPacket packet = conn) := by
  cases packet with
  | establish1 seq =>
      obtain rfl : seq = 0 := tolerated
      exact Or.inl ⟨rfl, rfl⟩
  | establish2 | ack => exact Or.inr ⟨by simp, rfl⟩
  | data packet =>
      obtain ⟨zero, _, one⟩ := tolerated
      refine Or.inr ⟨by simp, ?_⟩
      rcases conn.onData_cases packet with ⟨same, _⟩ | ⟨ahead, _⟩ | ⟨_, ignored⟩
      · omega
      · omega
      · exact ignored

/-- `Connect` has not returned true, and nothing is around that it would take for the server's
answer.
-/
structure Preparing (link : Link) : Prop extends link.Clean where
  phase : link.phase ≠ .connected
  counted : link.phase = .waiting → (link.conn .client).nextSendSeq = 1
  client : (link.conn .client).recvList = [] ∧ (link.conn .client).byteStream = []
  clientPending
    : ∀ entry ∈ (link.socket .client).pendingPackets, entry = (.server, .establish1 0)
  serverPending : ∀ entry ∈ (link.socket .server).pendingPackets, entry.1 = .client
  history : ∀ side, link.numbered side = [] ∧ link.written side = []

theorem Leftover.preparing (leftover : link.Leftover) (clean : link.Clean) : link.Preparing where
  toClean := clean
  phase := by rw [leftover.created]; decide
  counted := by rw [leftover.created]; intro waiting; cases waiting
  client := by simp [conn, leftover.newClient, CTcpSocket.new, Conn.new]
  clientPending := by
    simp [leftover.newClient, CTcpSocket.new, CTcpSocket.pendingPackets]
  serverPending := leftover.addressed
  history := fun side => (leftover.history side).2

theorem Preparing.connect (preparing : link.Preparing) (clock : Int)
    : (link.connect clock).Preparing := by
  have same : (link.connect clock).conn .server = link.conn .server := by
    simp [conn, Link.connect]
  constructor
  · constructor
    · simpa only [same] using preparing.held
    · simpa only [same] using preparing.stream
    · rw [same]
      simpa [Link.connect] using preparing.pending
    · intro datagram member
      simp only [same]
      rcases List.mem_append.mp member with old | new
      · exact preparing.flying datagram old
      · rw [List.mem_singleton.mp new]
        exact rfl
  · intro connected
    cases connected
  · intro _
    simp [conn, Link.connect, CTcpSocket.connectStart, Side.other]
  · have client := preparing.client
    simpa [conn, Link.connect, CTcpSocket.connectStart, Side.other] using client
  · intro entry member
    simp only [Link.connect, CTcpSocket.connectStart, Function.update_self,
      CTcpSocket.pendingPackets, List.map_append, List.mem_append] at member
    rcases member with old | new
    · exact preparing.clientPending entry old
    · exact List.mem_singleton.mp new
  · simpa [Link.connect] using preparing.serverPending
  · exact preparing.history

theorem Preparing.transmit (preparing : link.Preparing) (transmits : Transmits side link next)
    : next.Preparing := by
  have conns : ∀ flow, next.conn flow = link.conn flow := transmits.conn
  obtain ⟨numbered, _, written⟩ := transmits.history
  constructor
  · constructor
    · simpa only [conns] using preparing.held
    · simpa only [conns] using preparing.stream
    · simpa only [conns, transmits.pending] using preparing.pending
    · intro datagram member
      simp only [conns]
      rcases transmits.sent datagram member with old | ⟨pending, _⟩
      · exact preparing.flying datagram old
      · cases side with
        | client =>
            obtain ⟨dst, packet⟩ := Prod.mk.inj (preparing.clientPending _ pending)
            rw [dst, packet]
            exact rfl
        | server =>
            have dst : datagram.dst = .client := preparing.serverPending _ pending
            obtain ⟨packet, ready⟩ := preparing.pending _ pending
            rw [dst, show datagram.packet = .establish2 0 from packet]
            exact ⟨rfl, ready⟩
  · simpa only [transmits.phase] using preparing.phase
  · simpa only [transmits.phase, conns] using preparing.counted
  · simpa only [conns] using preparing.client
  · simpa only [transmits.pending] using preparing.clientPending
  · simpa only [transmits.pending] using preparing.serverPending
  · simpa only [numbered, written] using preparing.history

theorem Preparing.recvThread (preparing : link.Preparing)
    (flying : ⟨.server, packet⟩ ∈ link.net)
    : (link.recvThread .server packet).Preparing := by
  have tolerated : Tolerated (link.conn .server).Ready .server packet :=
    preparing.flying _ flying
  have conn := link.conn_recvThread .server packet
  have client : (link.recvThread .server packet).conn .client = link.conn .client :=
    link.conn_recvThread_other .server packet
  obtain ⟨held, stream, ready, first⟩
    : ((link.conn .server).onPacket packet).recvList = []
      ∧ ((link.conn .server).onPacket packet).byteStream = []
      ∧ ((link.conn .server).Ready → ((link.conn .server).onPacket packet).Ready)
      ∧ (∀ seq, packet = .establish1 seq
        → ((link.conn .server).onPacket packet).Ready) := by
    rcases onPacket_tolerated tolerated with ⟨rfl, sets⟩ | ⟨other, same⟩
    · rw [sets]
      exact ⟨preparing.held, preparing.stream, fun _ => ⟨rfl, rfl⟩, fun _ _ => ⟨rfl, rfl⟩⟩
    · rw [same]
      exact ⟨preparing.held, preparing.stream, id, fun seq is => absurd is (other seq)⟩
  constructor
  · constructor
    · simpa only [conn] using held
    · simpa only [conn] using stream
    · intro entry member
      simp only [conn]
      rcases pending_recvThread member with old | ⟨_, rfl, seq, is⟩
      · exact (preparing.pending entry old).imp_right ready
      · exact ⟨rfl, first seq is⟩
    · intro datagram member
      simp only [conn]
      rcases net_recvThread member with old | ⟨answered, rfl⟩
      · exact (preparing.flying datagram old).mono ready
      · cases packet with
        | establish1 | ack => cases answered
        | establish2 | data => exact tolerated.imp_right ready
  · exact preparing.phase
  · intro waiting
    simpa only [client] using preparing.counted waiting
  · simpa only [client] using preparing.client
  · intro entry member
    exact preparing.clientPending entry (by simpa [Link.recvThread] using member)
  · intro entry member
    rcases pending_recvThread member with old | ⟨_, rfl, _⟩
    · exact preparing.serverPending entry old
    · rfl
  · intro flow
    obtain ⟨numbered, written⟩ := preparing.history flow
    refine ⟨numbered, ?_⟩
    cases flow with
    | client => simpa [Link.recvThread] using written
    | server => rw [written_recvThread, written, stream, List.drop_nil, List.nil_append]

-----------------------------------------------------------------------------------------
-- Connect returns true
-----------------------------------------------------------------------------------------

/-- `Connect` takes its answer from any packet but `DATA`. -/
theorem connectRecv_answer (link : Link) (answer : packet.isData = false)
    : link.connectRecv packet
      = {
          link with
          socket :=
            Function.update link.socket .client
              ((link.socket .client).connectFinish .server packet.seq).1
          phase := .connected
          net := link.net ++ [⟨.server, .ack packet.seq⟩]
        } := by
  cases packet with
  | data packet => cases answer
  | establish1 | establish2 | ack => rfl

theorem connectRecv_conn_client (link : Link) (answer : packet.isData = false)
    : (link.connectRecv packet).conn .client
      = { link.conn .client with nextRecvSeq := packet.seq + 1 } := by
  simp [connectRecv_answer link answer, conn, CTcpSocket.connectFinish, Side.other]

theorem connectRecv_conn_server (link : Link) (packet : Packet Int)
    : (link.connectRecv packet).conn .server = link.conn .server := by
  cases packet <;> simp [conn, connectRecv]

theorem connectRecv_pending_server (link : Link) (packet : Packet Int)
    : ((link.connectRecv packet).socket .server).pendingPackets
      = (link.socket .server).pendingPackets := by
  cases packet <;> simp [connectRecv]

theorem Tolerated.answer {ready : Prop} (tolerated : Tolerated ready .client packet)
    (answer : packet.isData = false)
    : packet.seq = 0 ∧ ready := by
  cases packet with
  | data packet => cases answer
  | establish1 | establish2 | ack => exact tolerated

theorem Preparing.agreed (preparing : link.Preparing) (waiting : link.phase = .waiting)
    (flying : ⟨.client, packet⟩ ∈ link.net) (answer : packet.isData = false)
    : (link.connectRecv packet).Agreed := by
  obtain ⟨zero, sends, expects⟩ := (preparing.flying _ flying).answer answer
  have client := link.connectRecv_conn_client answer
  have server := link.connectRecv_conn_server packet
  constructor
  · rw [client, server, sends, zero]
    rfl
  · rw [client, server, expects, preparing.counted waiting]
  · rw [server]
    exact preparing.held
  · rw [server]
    exact preparing.stream
  · rw [connectRecv_pending_server]
    intro entry member _
    exact ⟨0, (preparing.pending entry member).1⟩

theorem Preparing.renewed (preparing : link.Preparing)
    (flying : ⟨.client, packet⟩ ∈ link.net) (answer : packet.isData = false)
    : (link.connectRecv packet).Renewed := by
  obtain ⟨zero, _, expects⟩ := (preparing.flying _ flying).answer answer
  have client := link.connectRecv_conn_client answer
  have server := link.connectRecv_conn_server packet
  have history : (link.connectRecv packet).numbered = link.numbered
      ∧ (link.connectRecv packet).written = link.written := by
    rw [link.connectRecv_answer answer]
    exact ⟨rfl, rfl⟩
  refine ⟨by rw [link.connectRecv_answer answer], ?_, ?_, ?_, ?_⟩
  · intro side entry member
    cases side with
    | client =>
        rw [link.connectRecv_answer answer] at member
        simp [CTcpSocket.connectFinish, CTcpSocket.pendingPackets] at member
    | server =>
        rw [connectRecv_pending_server] at member
        rw [(preparing.pending entry member).1]
        exact ⟨preparing.serverPending entry member, trivial⟩
  · intro datagram member
    rw [link.connectRecv_answer answer] at member
    rcases List.mem_append.mp member with old | new
    · exact (preparing.flying datagram old).fromNew
    · rw [List.mem_singleton.mp new]
      trivial
  · intro side
    cases side with
    | client =>
        rw [client, zero]
        exact le_refl _
    | server =>
        rw [server, expects]
  · intro side
    obtain ⟨_, written⟩ := preparing.history side
    obtain ⟨held, stream⟩ : ((link.connectRecv packet).conn side).recvList = []
        ∧ ((link.connectRecv packet).conn side).byteStream = [] := by
      cases side with
      | client =>
          rw [client]
          exact preparing.client
      | server =>
          rw [server]
          exact ⟨preparing.held, preparing.stream⟩
    refine ⟨⟨[], List.nil_subset _, ?_⟩, ?_, ?_⟩
    · rw [history.2, written, List.flatMap_nil]
    · rw [stream]
      exact List.nil_suffix
    · rw [held]
      exact List.nil_subset _

/-- Before `Connect` returns, nothing harmful comes up; and it returns with both sides agreed. By
event cases.
-/
theorem Preparing.step {event : Event} (preparing : link.Preparing) (quiet : link.Quiet event)
    (stepped : link.step event = some next)
    : next.Preparing
      ∨ link.phase = .waiting ∧ next.phase = .connected ∧ next.Agreed ∧ next.Renewed := by
  cases event with
  | connect clock =>
      obtain ⟨_, rfl⟩ := step_connect.mp stepped
      exact Or.inl (preparing.connect clock)
  | send side buf =>
      obtain ⟨sends, rfl⟩ := step_send.mp stepped
      rcases sends with rfl | connected
      · exact absurd rfl (quiet buf)
      · exact absurd connected preparing.phase
  | transmit side index clock =>
      exact Or.inl (preparing.transmit (transmits_of_transmit stepped))
  | arrive datagram =>
      obtain ⟨flying, arrived⟩ := step_arrive.mp stepped
      obtain ⟨dst, packet⟩ := datagram
      rcases arrive_cases arrived with ⟨rfl | connected, rfl⟩ | ⟨rfl, waiting, rfl⟩
      · exact Or.inl (preparing.recvThread flying)
      · exact absurd connected preparing.phase
      · cases answer : packet.isData with
        | false =>
            have renewed := preparing.renewed flying answer
            exact Or.inr
              ⟨waiting, renewed.connected, preparing.agreed waiting flying answer, renewed⟩
        | true =>
            cases packet with
            | data packet =>
                exact Or.inl
                  { preparing with
                    phase := by simp [connectRecv]
                    counted := by simp [connectRecv] }
            | establish1 | establish2 | ack => cases answer
  | lose datagram =>
      obtain ⟨_, rfl⟩ := step_lose.mp stepped
      refine Or.inl { preparing with flying := ?_ }
      exact fun other member => preparing.flying other (List.mem_of_mem_erase member)
  | recv side nBufLen =>
      have some := (step_recv.mp stepped).1
      cases side with
      | client => exact absurd preparing.client.2 some
      | server => exact absurd preparing.stream some

/-- A new connection is agreed and fresh where nothing harmful is left. -/
theorem Clean.fresh {start : Link} (clean : start.Clean) (leftover : start.Leftover)
    : start.Fresh := by
  intro before reached waiting event after stepped connected
  have kept : ∀ {state next : Link} {event : Event},
      state.Preparing ∨ state.Renewed → Quiet state event → state.step event = some next
      → next.Preparing ∨ next.Renewed := by
    rintro state next event (preparing | renewed) quiet moved
    · exact (preparing.step quiet moved).imp_right (fun finished => finished.2.2.2)
    · exact Or.inr (renewed.step moved)
  have invariant := reached.invariant kept (Or.inl (leftover.preparing clean))
  have preparing : before.Preparing := by
    refine invariant.resolve_right (fun renewed => ?_)
    rw [renewed.connected] at waiting
    cases waiting
  have quiet : before.Quiet event := by
    rintro buf rfl
    obtain ⟨_, rfl⟩ := step_send.mp stepped
    rw [show (before.send .server buf).phase = before.phase from rfl, waiting] at connected
    cases connected
  rcases preparing.step quiet stepped with still | ⟨_, _, agreed, renewed⟩
  · exact absurd connected still.phase
  · refine ⟨agreed, fun final later side => ?_⟩
    exact (later.invariant (fun renewed moved => renewed.step moved) renewed).only side

end Link

end SchoolSystem.TcpSocket
