import SchoolSystem.TcpSocket.Reconnect

/-! Which leftovers of earlier connections spoil a new one.
Each of them is reached by a run of its own: the server's answer can arrive before or after the
`ESTABLISH_1` that sets the counters.
-/

namespace SchoolSystem.TcpSocket

open TransitionSystem (Reaches ReachesAlong)

-----------------------------------------------------------------------------------------
-- Runs up to the answer that Connect reads
-----------------------------------------------------------------------------------------

/-- A `DATA` packet that leaves no trace in the stream and in the list was ignored. -/
theorem Conn.onData_eq_self {conn : Conn Int} {packet : DataPacket Int}
    (some : packet.data ≠ []) (stream : (conn.onData packet).byteStream = [])
    (held : (conn.onData packet).recvList = [])
    : packet.seq < conn.nextRecvSeq ∧ conn.onData packet = conn := by
  rcases conn.onData_cases packet with ⟨_, released, _, _, _, written⟩ | ⟨_, same⟩ | ignored
  · rw [stream] at written
    simp [some] at written
  · have kept : packet ∈ (conn.onData packet).recvList := by
      rw [same]
      exact (insertPacket_perm packet conn.recvList).mem_iff.mpr List.mem_cons_self
    rw [held] at kept
    cases kept
  · exact ignored

namespace Link

variable {start link next : Link} {side : Side} {packet : Packet Int}

/-- `SendThreadProc` can put each pending packet in flight. -/
theorem exists_transmit {dst : Side}
    (pending : (dst, packet) ∈ (link.socket side).pendingPackets) (sent : packet.isSent = true)
    : ∃ index clock next,
        link.transmit side index clock = some next ∧ ⟨dst, packet⟩ ∈ next.net := by
  obtain ⟨node, member, same⟩ := List.mem_map.mp pending
  obtain ⟨rfl, rfl⟩ := Prod.mk.inj same
  obtain ⟨index, inside, found⟩ := List.mem_iff_getElem.mp member
  have due : node.due (node.time + 1000) = true := by simp [SendListNode.due]
  have transmitted : node.transmit (node.time + 1000)
      = ({ node with time := node.time + 1000 }, [node.packet]) := by
    rw [SendListNode.transmit, if_pos due, if_pos sent]
  refine ⟨index, node.time + 1000, ?_⟩
  simp [transmit, CTcpSocket.sendThreadProc, List.getElem?_eq_getElem inside, found,
    transmitted]

/-- `Connect` is waiting for its answer, and the server has sent nothing of its own. -/
structure Waits (start link : Link) : Prop where
  reached : ReachesAlong step Quiet start link
  waiting : link.phase = .waiting
  counted : (link.conn .client).nextSendSeq = 1
  fresh : (link.conn .client).recvList = [] ∧ (link.conn .client).byteStream = []
  history : ∀ side, link.numbered side = []

theorem Leftover.waits (leftover : start.Leftover) : Waits start (start.connect 0) := by
  refine ⟨?_, rfl, ?_, ?_, fun side => (leftover.history side).2.1⟩
  · refine ReachesAlong.refl.snoc (.connect 0) ?_ ?_
    · intro buf same
      cases same
    · exact step_connect.mpr ⟨leftover.created, rfl⟩
  · simp [conn, connect, CTcpSocket.connectStart, Side.other]
  · simp [conn, connect, CTcpSocket.connectStart, Side.other, leftover.newClient,
      CTcpSocket.new, Conn.new]

theorem Waits.recvThread (waits : Waits start link) (flying : ⟨.server, packet⟩ ∈ link.net)
    : Waits start (link.recvThread .server packet) := by
  have client : (link.recvThread .server packet).conn .client = link.conn .client :=
    link.conn_recvThread_other .server packet
  refine ⟨?_, waits.waiting, ?_, ?_, waits.history⟩
  · refine waits.reached.snoc (.arrive ⟨.server, packet⟩) ?_ ?_
    · intro buf same
      cases same
    · exact step_arrive.mpr ⟨flying, rfl⟩
  · rw [client]
    exact waits.counted
  · rw [client]
    exact waits.fresh

/-- A pending packet can come to the client without anything else changing. -/
theorem Waits.transmit (waits : Waits start link)
    (pending : (.client, packet) ∈ (link.socket .server).pendingPackets)
    (sent : packet.isSent = true)
    : ∃ next,
        Waits start next
        ∧ Transmits .server link next
        ∧ ⟨.client, packet⟩ ∈ next.net := by
  obtain ⟨index, clock, next, stepped, flying⟩ := exists_transmit pending sent
  have transmits := transmits_of_transmit stepped
  have client : next.conn .client = link.conn .client := transmits.conn .client
  refine ⟨next, ⟨?_, ?_, ?_, ?_, ?_⟩, transmits, flying⟩
  · refine waits.reached.snoc (.transmit .server index clock) ?_ stepped
    intro buf same
    cases same
  · rw [transmits.phase]
    exact waits.waiting
  · rw [client]
    exact waits.counted
  · rw [client]
    exact waits.fresh
  · rw [transmits.history.1]
    exact waits.history

-----------------------------------------------------------------------------------------
-- What Connect reads in a fresh connection
-----------------------------------------------------------------------------------------

/-- `Connect` takes any packet but `DATA` for the server's answer, so that its number must be the
one from before the server's next, and the server must hold nothing.
-/
theorem Fresh.reads (fresh : start.Fresh) (waits : Waits start link)
    (flying : ⟨.client, packet⟩ ∈ link.net) (answer : packet.isData = false)
    : packet.seq + 1 = (link.conn .server).nextSendSeq
      ∧ (link.conn .server).nextRecvSeq = 1
      ∧ (link.conn .server).recvList = []
      ∧ (link.conn .server).byteStream = []
      ∧ ∀ entry ∈ (link.socket .server).pendingPackets,
          entry.1 = .client → ∃ seq, entry.2 = .establish2 seq := by
  have arrived : link.arrive .client packet = some (link.connectRecv packet) := by
    simp [arrive, waits.waiting]
  have stepped := step_arrive.mpr ⟨flying, arrived⟩
  have connected : (link.connectRecv packet).phase = .connected := by
    rw [link.connectRecv_answer answer]
  obtain ⟨agreed, _⟩ := fresh link waits.reached waits.waiting _ _ stepped connected
  have client := link.connectRecv_conn_client answer
  have server := link.connectRecv_conn_server packet
  obtain ⟨expects, serverExpects, held, stream, pending⟩ := agreed
  rw [client, server] at expects
  rw [client, server] at serverExpects
  rw [server] at held
  rw [server] at stream
  rw [connectRecv_pending_server] at pending
  exact ⟨expects, serverExpects.trans waits.counted, held, stream, pending⟩

/-- The server acknowledges a packet, and `Connect` reads the acknowledgement. -/
theorem Fresh.answers (fresh : start.Fresh) (waits : Waits start link)
    (flying : ⟨.server, packet⟩ ∈ link.net) (answered : packet.isAnswered = true)
    (payload : ∀ data, packet = .data data → data.data ≠ [])
    : packet.seq + 1 = (link.conn .server).nextSendSeq
      ∧ (link.conn .server).nextRecvSeq = 1 := by
  have ack : (⟨.client, .ack packet.seq⟩ : Datagram) ∈ (link.recvThread .server packet).net := by
    cases packet with
    | establish1 | ack => cases answered
    | establish2 | data => exact List.mem_append_right _ List.mem_cons_self
  have read := fresh.reads (waits.recvThread flying) ack rfl
  rw [conn_recvThread] at read
  obtain ⟨expects, serverExpects, held, stream, _⟩ := read
  have same : (link.conn .server).onPacket packet = link.conn .server := by
    cases packet with
    | establish1 | ack => cases answered
    | establish2 => rfl
    | data data => exact (Conn.onData_eq_self (payload data rfl) stream held).2
  rw [same] at expects
  rw [same] at serverExpects
  exact ⟨expects, serverExpects⟩

/-- A `DATA` packet that arrives after `Connect` must be ignored. -/
theorem Fresh.ignores {data : DataPacket Int} (fresh : start.Fresh) (waits : Waits start link)
    (answer : ⟨.client, .establish2 0⟩ ∈ link.net) (flying : ⟨.client, .data data⟩ ∈ link.net)
    (payload : data.data ≠ [])
    : data.seq ≤ 0 := by
  have arrived : link.arrive .client (.establish2 0)
      = some (link.connectRecv (.establish2 0)) := by
    simp [arrive, waits.waiting]
  have stepped := step_arrive.mpr ⟨answer, arrived⟩
  have later : (link.connectRecv (.establish2 0)).step (.arrive ⟨.client, .data data⟩)
      = some ((link.connectRecv (.establish2 0)).recvThread .client (.data data)) :=
    step_arrive.mpr ⟨List.mem_append_left _ flying, rfl⟩
  obtain ⟨_, only⟩ := fresh link waits.reached waits.waiting _ _ stepped rfl
  obtain ⟨⟨packets, known, delivered⟩, stream, held⟩ := only _ (Reaches.single later) .client
  have numbered : ((link.connectRecv (.establish2 0)).recvThread .client
      (.data data)).numbered Side.client.other = [] := waits.history .server
  rw [numbered] at known
  rw [numbered, conn_recvThread] at held
  rw [delivered, List.eq_nil_of_subset_nil known, conn_recvThread] at stream
  have none := List.eq_nil_of_suffix_nil stream
  obtain ⟨below, _⟩ := Conn.onData_eq_self payload none (List.eq_nil_of_subset_nil held)
  rw [link.connectRecv_conn_client rfl] at below
  exact Int.lt_add_one_iff.mp below

-----------------------------------------------------------------------------------------
-- The leftovers that spoil a new connection
-----------------------------------------------------------------------------------------

/-- The packets whose number can come to `Connect` as the server's answer. -/
def Offered (link : Link) (packet : Packet Int) : Prop :=
  (⟨.client, packet⟩ ∈ link.net ∧ packet.isData = false)
  ∨ (⟨.server, packet⟩ ∈ link.net ∧ packet.isAnswered = true)
  ∨ ((.client, packet) ∈ (link.socket .server).pendingPackets
    ∧ packet.isSent = true
    ∧ packet.isData = false)

theorem Offered.mono (offered : link.Offered packet) (net : link.net ⊆ next.net)
    (pending
      : (link.socket .server).pendingPackets ⊆ (next.socket .server).pendingPackets)
    : next.Offered packet := by
  rcases offered with ⟨flying, answer⟩ | ⟨flying, answered⟩ | ⟨queued, more⟩
  · exact Or.inl ⟨net flying, answer⟩
  · exact Or.inr (Or.inl ⟨net flying, answered⟩)
  · exact Or.inr (Or.inr ⟨pending queued, more⟩)

theorem Fresh.offers (fresh : start.Fresh) (waits : Waits start link)
    (offered : link.Offered packet) (payload : ∀ data, packet = .data data → data.data ≠ [])
    : packet.seq + 1 = (link.conn .server).nextSendSeq
      ∧ (link.conn .server).nextRecvSeq = 1 := by
  rcases offered with ⟨flying, answer⟩ | ⟨flying, answered⟩ | ⟨queued, sent, answer⟩
  · obtain ⟨expects, serverExpects, _⟩ := fresh.reads waits flying answer
    exact ⟨expects, serverExpects⟩
  · exact fresh.answers waits flying answered payload
  · obtain ⟨next, later, transmits, flying⟩ := waits.transmit queued sent
    obtain ⟨expects, serverExpects, _⟩ := fresh.reads later flying answer
    have same : next.conn .server = link.conn .server := transmits.conn .server
    rw [same] at expects
    rw [same] at serverExpects
    exact ⟨expects, serverExpects⟩

/-- The server handles the new `ESTABLISH_1` and its answer is on the way, next to all that was
there before.
-/
structure Handshaken (start link : Link) : Prop extends Waits start link where
  server
    : link.conn .server = { start.conn .server with nextSendSeq := 1, nextRecvSeq := 1 }
  pending : (start.socket .server).pendingPackets ⊆ (link.socket .server).pendingPackets
  net : start.net ⊆ link.net
  answer : ⟨.client, .establish2 0⟩ ∈ link.net

theorem Leftover.handshake (leftover : start.Leftover) : ∃ link, Handshaken start link := by
  have first : (⟨.server, .establish1 0⟩ : Datagram) ∈ (start.connect 0).net :=
    List.mem_append_right _ List.mem_cons_self
  have queued : ((start.connect 0).recvThread .server (.establish1 0)).socket .server
      = (start.socket .server).onEstablish1 .client 0 := by
    simp [recvThread, connect, CTcpSocket.recvThreadProc, Side.other]
  have pending := (start.socket .server).onEstablish1_pendingPackets .client 0
  have last
      : (.client, .establish2 0)
        ∈ (((start.connect 0).recvThread .server (.establish1 0)).socket
            .server).pendingPackets := by
    rw [queued, pending]
    exact List.mem_append_right _ List.mem_cons_self
  obtain ⟨link, waits, transmits, answer⟩ :=
    (leftover.waits.recvThread first).transmit last rfl
  refine ⟨link, waits, ?_, ?_, ?_, answer⟩
  · rw [conn, transmits.connectMap, queued]
    simp [CTcpSocket.onEstablish1, conn, Side.other]
  · rw [transmits.pending, queued, pending]
    exact List.subset_append_left _ _
  · intro datagram member
    exact transmits.kept (mem_net_recvThread (List.mem_append_left _ member))

/-- An offered packet is read before the counters are set and after it. -/
theorem Fresh.ready (fresh : start.Fresh) (leftover : start.Leftover)
    (offered : start.Offered packet) (payload : ∀ data, packet = .data data → data.data ≠ [])
    : packet.seq = 0 ∧ (start.conn .server).Ready := by
  obtain ⟨link, handshaken⟩ := leftover.handshake
  have early : (start.connect 0).Offered packet := by
    refine offered.mono (List.subset_append_left _ _) ?_
    simp [connect]
  have late : link.Offered packet := offered.mono handshaken.net handshaken.pending
  obtain ⟨sends, expects⟩ := fresh.offers leftover.waits early payload
  obtain ⟨set, _⟩ := fresh.offers handshaken.toWaits late payload
  have same : (start.connect 0).conn .server = start.conn .server := by simp [conn, connect]
  rw [same] at sends
  rw [same] at expects
  rw [handshaken.server] at set
  have zero : packet.seq = 0 := by simpa using set
  rw [zero] at sends
  exact ⟨zero, sends.symm, expects⟩

/-- Whatever is left, a new connection is agreed and delivers only its own bytes exactly when
nothing is left that it could take for its own.
-/
theorem fresh_iff (leftover : start.Leftover) : start.Fresh ↔ start.Clean := by
  refine ⟨fun fresh => ?_, fun clean => clean.fresh leftover⟩
  obtain ⟨link, handshaken⟩ := leftover.handshake
  obtain ⟨_, _, held, stream, pending⟩ := fresh.reads handshaken.toWaits handshaken.answer rfl
  rw [handshaken.server] at held stream
  refine ⟨held, stream, ?_, ?_⟩
  · rintro ⟨dst, packet⟩ member
    obtain rfl : dst = .client := leftover.addressed _ member
    obtain ⟨seq, rfl⟩ := pending _ (handshaken.pending member) rfl
    obtain ⟨rfl, ready⟩ := fresh.ready leftover (Or.inr (Or.inr ⟨member, rfl, rfl⟩))
      (fun _ same => nomatch same)
    exact ⟨rfl, ready⟩
  · rintro ⟨dst, packet⟩ member
    have payload : ∀ data, packet = .data data → data.data ≠ [] := by
      rintro data rfl
      exact leftover.payload dst data member
    cases dst with
    | client =>
        cases packet with
        | data data =>
            exact fresh.ignores handshaken.toWaits handshaken.answer (handshaken.net member)
              (payload data rfl)
        | establish1 | establish2 | ack =>
            exact fresh.ready leftover (Or.inl ⟨member, rfl⟩) payload
    | server =>
        cases packet with
        | ack seq => trivial
        | establish1 seq =>
            have flying := handshaken.net member
            have read := fresh.reads (handshaken.toWaits.recvThread flying)
              (mem_net_recvThread handshaken.answer) rfl
            rw [conn_recvThread] at read
            have one : seq + 1 = 1 := read.2.1
            exact show seq = 0 by omega
        | establish2 | data =>
            exact fresh.ready leftover (Or.inr (Or.inl ⟨member, rfl⟩)) payload

/-- Before `Connect`, with this connection to the client at the server and these datagrams. -/
def leftBy (conn : Conn Int) (net : List Datagram) : Link :=
  {
    new with
    socket :=
      Function.update new.socket .server
        { CTcpSocket.new with connectMap := Function.update (fun _ => Conn.new) .client conn }
    net := net
  }

theorem leftover_leftBy (conn : Conn Int) {net : List Datagram}
    (payload : ∀ dst packet, ⟨dst, .data packet⟩ ∈ net → packet.data ≠ [])
    : (leftBy conn net).Leftover where
  created := rfl
  newClient := by simp [leftBy, new]
  addressed := by simp [leftBy, CTcpSocket.new, CTcpSocket.pendingPackets]
  payload := payload
  history := fun _ => ⟨rfl, rfl, rfl⟩

/-- The counters of the earlier connection, a late `ACK` of its data and a copy of its first
packet do no harm.
-/
theorem fresh_lateAck
    : (leftBy { (Conn.new : Conn Int) with nextSendSeq := 4, nextRecvSeq := 9 }
        [⟨.server, .ack 3⟩, ⟨.server, .establish1 0⟩]).Fresh := by
  refine (fresh_iff (leftover_leftBy _ ?_)).mpr ⟨rfl, rfl, ?_, ?_⟩
  · simp
  · simp [leftBy, CTcpSocket.new, CTcpSocket.pendingPackets]
  · simp [leftBy, Tolerated]

/-- A byte of the earlier connection that was never read stays in the stream. -/
theorem fresh_not_always : ¬ ∀ start : Link, start.Leftover → start.Fresh := by
  intro always
  have leftover : (leftBy { (Conn.new : Conn Int) with byteStream := [7] } []).Leftover :=
    leftover_leftBy _ (by simp)
  obtain ⟨link, handshaken⟩ := leftover.handshake
  obtain ⟨_, _, _, stream, _⟩ :=
    (always _ leftover).reads handshaken.toWaits handshaken.answer rfl
  rw [handshaken.server] at stream
  cases stream

end Link

end SchoolSystem.TcpSocket
