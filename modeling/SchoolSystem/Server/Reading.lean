import SchoolSystem.Server.Moves

/-! What the main loop reads of a client's stream while the receive thread writes to it, and
whatever the other threads and the other clients do.
-/

namespace SchoolSystem.Server

open TcpSocket

variable {Addr Seq : Type} [DecidableEq Addr]

omit [DecidableEq Addr] in
/-- The stream that is about to be read, with the size that was sampled. -/
def MainLoop.reading : MainLoop Addr → Option (Addr × Nat)
  | .readLen turn nReadLen => some (turn.key, nReadLen)
  | .readBuf turn nReadLen => some (turn.key, nReadLen.toNat)
  | .select | .found _ | .recvLen _ | .recvBuf _ _ | .addTask _ _ | .adding => none

/-- The `Write` of a packet of this client has begun, and the packet is yet to be counted. -/
def RecvThread.uncounted (addr : Addr) : RecvThread Addr → Nat
  | .push other _ _ => if other = addr then 1 else 0
  | .lock other drained | .test other drained | .store other drained | .unlock other drained =>
      if other = addr ∧ drained = false then 1 else 0
  | .recvfrom | .write _ _ _ | .drain _ => 0

/-- The bytes that a `Write` to this client's stream has still to push. -/
def RecvThread.unwritten (addr : Addr) : RecvThread Addr → List Byte
  | .push other data _ => if other = addr then data else []
  | .recvfrom | .write _ _ _ | .lock _ _ | .test _ _ | .store _ _ | .unlock _ _ | .drain _ => []

namespace Service

/-- The bytes that an event reads of a client's stream. -/
def bytesRead (addr : Addr) (service : Service Addr Seq) : Event Addr Seq → List Byte
  | .mainLoop =>
      match service.mainLoop.reading with
      | some (other, nReadLen) =>
          if other = addr then (service.conn addr).byteStream.take nReadLen else []
      | none => []
  | .arrive _ _ | .recvThread | .select _ | .addTask | .thread _ | .query _ _ | .execute _
  | .transmit _ _ => []

/-- The bytes that wait in a client's stream or are being pushed to it. -/
def incoming (service : Service Addr Seq) (addr : Addr) : List Byte :=
  (service.conn addr).byteStream ++ service.recvThread.unwritten addr

/-- Only the receive thread writes to streams. -/
def Event.receives : Event Addr Seq → Bool
  | .arrive _ _ | .recvThread => true
  | .select _ | .mainLoop | .addTask | .thread _ | .query _ _ | .execute _ | .transmit _ _ => false

/-- Of all that arrives from this client, a `DATA` packet is one of these, and none is an
`ESTABLISH_1`.
-/
def OnlySends (addr : Addr) (base : Int) (packets : List (List Byte)) : Event Addr Int → Prop
  | .arrive fromAddr (.data packet) => fromAddr = addr → packet ∈ numberedFrom base packets
  | .arrive fromAddr (.establish1 _) => fromAddr ≠ addr
  | .arrive _ (.establish2 _) | .arrive _ (.ack _) | .recvThread | .select _ | .mainLoop
  | .addTask | .thread _ | .query _ _ | .execute _ | .transmit _ _ => True

instance (addr : Addr) (base : Int) (packets : List (List Byte)) (event : Event Addr Int)
    : Decidable (OnlySends addr base packets event) :=
  match event with
  | .arrive _ (.data _) => inferInstanceAs (Decidable (_ → _))
  | .arrive _ (.establish1 _) => inferInstanceAs (Decidable (_ ≠ _))
  | .arrive _ (.establish2 _) | .arrive _ (.ack _) | .recvThread | .select _ | .mainLoop
  | .addTask | .thread _ | .query _ _ | .execute _ | .transmit _ _ =>
      inferInstanceAs (Decidable True)

/-- The first `count` packets of the client have been written to its stream, or the last of them is
being written: they are counted, but for the one at hand, what is held is one of its packets, and
what is to be written is the next.
-/
structure Expects (addr : Addr) (base : Int) (packets : List (List Byte)) (count : Nat)
    (service : Service Addr Int) : Prop where
  counted
    : (service.conn addr).nextRecvSeq + service.recvThread.uncounted addr = base + count
  held : (service.conn addr).recvList ⊆ numberedFrom base packets
  writing
    : ∀ data drained,
        service.recvThread = .write addr data drained → packets[count]? = some data

/-- An event begins to write the next packet to the client's stream, or it reads from it at
most.
-/
inductive Flows (addr : Addr) (packets : List (List Byte)) (count : Nat)
    (service : Service Addr Int) (event : Event Addr Int) (next : Service Addr Int)
    : Nat → Prop
  | writes (data : List Byte) (inTurn : packets[count]? = some data)
      (moves : event = .recvThread)
      (incoming : next.incoming addr = service.incoming addr ++ data)
    : Flows addr packets count service event next (count + 1)
  | reads
      (incoming
        : service.bytesRead addr event ++ next.incoming addr = service.incoming addr)
    : Flows addr packets count service event next count

variable {service next : Service Addr Seq} {addr : Addr}

-----------------------------------------------------------------------------------------
-- The threads that write to no stream
-----------------------------------------------------------------------------------------

theorem read_byteStream (service : Service Addr Seq) (addr : Addr) (nReadLen : Nat)
    : ((service.read addr nReadLen).conn addr).byteStream
      = (service.conn addr).byteStream.drop nReadLen := by
  rw [Service.read, setConn_conn]

/-- `Read` takes the bytes from the front of the stream. -/
theorem take_read {nReadLen : Nat} (reading : service.mainLoop.reading = some (addr, nReadLen))
    (other : Addr)
    : service.bytesRead other .mainLoop ++ ((service.read addr nReadLen).conn other).byteStream
      = (service.conn other).byteStream := by
  simp only [bytesRead, reading]
  by_cases same : addr = other
  · subst same
    rw [if_pos rfl, read_byteStream]
    exact List.take_append_drop nReadLen (service.conn addr).byteStream
  · rw [if_neg same, Service.read, setConn_ne (Ne.symm same)]
    rfl

/-- What a thread that receives nothing leaves as it is. -/
structure Received (addr : Addr) (service : Service Addr Seq) (event : Event Addr Seq)
    (next : Service Addr Seq) : Prop where
  recvThread : next.recvThread = service.recvThread
  nextRecvSeq : (next.conn addr).nextRecvSeq = (service.conn addr).nextRecvSeq
  recvList : (next.conn addr).recvList = (service.conn addr).recvList
  stream
    : service.bytesRead addr event ++ (next.conn addr).byteStream
      = (service.conn addr).byteStream

theorem Received.incoming {event : Event Addr Seq} (received : Received addr service event next)
    : service.bytesRead addr event ++ next.incoming addr = service.incoming addr := by
  rw [Service.incoming, received.recvThread, ← List.append_assoc, received.stream]
  rfl

/-- An assignment to a connection that leaves the counter and the list. -/
theorem Received.assigned {other : Addr} {conn : Conn Seq} {event : Event Addr Seq}
    (socket : next.socket = service.socket.setConn other conn)
    (recvThread : next.recvThread = service.recvThread)
    (nextRecvSeq : conn.nextRecvSeq = (service.conn other).nextRecvSeq)
    (recvList : conn.recvList = (service.conn other).recvList)
    (stream
      : service.bytesRead addr event ++ ((service.setConn other conn).conn addr).byteStream
        = (service.conn addr).byteStream)
    : Received addr service event next := by
  have conns : next.conn addr = (service.setConn other conn).conn addr :=
    congrArg (fun socket : CTcpSocket Addr Seq => socket.connectMap addr) socket
  constructor
  · exact recvThread
  · rw [conns]
    exact setConn_field Conn.nextRecvSeq nextRecvSeq addr
  · rw [conns]
    exact setConn_recvList recvList addr
  · rw [conns]
    exact stream

theorem Received.status {other : Addr} {status : Status} {event : Event Addr Seq}
    (socket
      : next.socket
        = service.socket.setConn other { service.conn other with status := status })
    (recvThread : next.recvThread = service.recvThread)
    (none : service.bytesRead addr event = [])
    : Received addr service event next := by
  let stored : Conn Seq := { service.conn other with status := status }
  have stream : stored.byteStream = (service.conn other).byteStream := rfl
  refine .assigned socket recvThread rfl rfl ?_
  rw [none]
  exact setConn_byteStream stream addr

theorem mainLoopStep_received (stepped : service.mainLoopStep = some next) (addr : Addr)
    : Received addr service .mainLoop next := by
  cases mainLoopStep_move stepped with
  | take other position => exact .status rfl rfl (by rw [bytesRead, position]; rfl)
  | readLen turn nReadLen nLen position free =>
      exact .assigned rfl rfl rfl rfl (take_read (by rw [position]; rfl) addr)
  | readBuf turn nReadLen sql position free =>
      exact .assigned rfl rfl rfl rfl (take_read (by rw [position]; rfl) addr)
  | recvLen _ _ position | recvBuf _ _ _ position | addTask _ _ _ position | added position =>
      refine ⟨rfl, rfl, rfl, ?_⟩
      rw [bytesRead, position]
      rfl

section Steps

variable [Add Seq] [OfNat Seq 0] [OfNat Seq 1] [DecidableEq Seq] [LT Seq] [DecidableLT Seq]
  {event : Event Addr Seq}

theorem step_received (quiet : event.receives = false) (stepped : service.step event = some next)
    (addr : Addr)
    : Received addr service event next := by
  cases event with
  | arrive | recvThread => cases quiet
  | select other =>
      rcases select_move stepped with rfl | ⟨_, _, rfl⟩
      · exact ⟨rfl, rfl, rfl, rfl⟩
      · exact ⟨rfl, rfl, rfl, rfl⟩
  | mainLoop => exact mainLoopStep_received stepped addr
  | addTask | thread =>
      obtain ⟨pool, _, rfl⟩ := Option.map_eq_some_iff.mp stepped
      exact ⟨rfl, rfl, rfl, rfl⟩
  | query index outcome =>
      obtain ⟨_, _, _, _, rfl⟩ := query_move stepped
      exact ⟨rfl, rfl, rfl, rfl⟩
  | execute index =>
      cases executeStep_move stepped with
      | send task buf rest =>
          have conn := service.socket.queuePackets_conn task.turn.key addr (payloads buf)
          have nextRecvSeq := congrArg Conn.nextRecvSeq conn
          have recvList := congrArg Conn.recvList conn
          have stream := congrArg Conn.byteStream conn
          exact ⟨rfl, nextRecvSeq, recvList, stream⟩
      | store task status => exact .status rfl rfl rfl
      | sent | lock | getSize | unlock | returned => exact ⟨rfl, rfl, rfl, rfl⟩
  | transmit index clock =>
      obtain ⟨⟨socket, sent⟩, iteration, rfl⟩ := Option.map_eq_some_iff.mp stepped
      have conn := sendThreadProc_conn iteration addr
      exact
        ⟨rfl, congrArg Conn.nextRecvSeq conn, congrArg Conn.recvList conn,
          congrArg Conn.byteStream conn⟩

end Steps

-----------------------------------------------------------------------------------------
-- What a size check has found
-----------------------------------------------------------------------------------------

section Sizes

/-- A step of the receive thread takes no bytes from a stream. -/
theorem recvThreadStep_length [Add Seq] [OfNat Seq 1] [DecidableEq Seq]
    (stepped : service.recvThreadStep = some next) (other : Addr)
    : (service.conn other).byteStream.length ≤ (next.conn other).byteStream.length := by
  cases recvThreadStep_move stepped with
  | push addr byte rest drained =>
      by_cases same : other = addr
      · subst same
        have stream := push_byteStream service other [byte]
        change _ ≤ ((service.push other [byte]).conn other).byteStream.length
        rw [stream, List.length_append]
        exact Nat.le_add_right _ _
      · change _ ≤ ((service.push addr [byte]).conn other).byteStream.length
        rw [push_ne same]
  | written addr drained counted position stream =>
      exact Nat.le_of_eq (congrArg List.length (setConn_byteStream stream other)).symm
  | store addr drained =>
      let stored : Conn Seq := { service.conn addr with status := .hasData }
      have stream : stored.byteStream = (service.conn addr).byteStream := rfl
      exact Nat.le_of_eq (congrArg List.length (setConn_byteStream stream other)).symm
  | unlock addr drained moved position stream =>
      exact Nat.le_of_eq (congrArg List.length (setConn_byteStream stream other)).symm
  | write | lock | noData | someData | next | drained => exact Nat.le_refl _

variable [Add Seq] [OfNat Seq 0] [OfNat Seq 1] [DecidableEq Seq] [LT Seq] [DecidableLT Seq]
  {event : Event Addr Seq}

/-- A datagram that arrives is not in a stream yet. -/
theorem arrive_byteStream {packet : Packet Seq}
    (stepped : service.arrive addr packet = some next) (other : Addr)
    : (next.conn other).byteStream = (service.conn other).byteStream := by
  cases (arrive_move stepped).2 with
  | write | ignore => rfl
  | hold packet =>
      let held : Conn Seq :=
        {
          service.conn addr with
          recvList := insertPacket packet (service.conn addr).recvList
        }
      have stream : held.byteStream = (service.conn addr).byteStream := rfl
      exact setConn_byteStream stream other
  | handle packet handled => exact (handle_conn handled other).1

/-- Only the main loop takes bytes from a stream, so that what it has sampled stays there. -/
theorem step_length (other : event ≠ .mainLoop) (stepped : service.step event = some next)
    (addr : Addr)
    : (service.conn addr).byteStream.length ≤ (next.conn addr).byteStream.length := by
  cases event with
  | mainLoop => exact absurd rfl other
  | arrive fromAddr packet =>
      exact Nat.le_of_eq (congrArg List.length (arrive_byteStream stepped addr)).symm
  | recvThread => exact recvThreadStep_length stepped addr
  | select | addTask | thread | query | execute | transmit =>
      have stream := (step_received rfl stepped addr).stream
      exact Nat.le_of_eq (congrArg List.length stream).symm

end Sizes

-----------------------------------------------------------------------------------------
-- What the receive thread writes
-----------------------------------------------------------------------------------------

section Writing

/-- A packet of the log is known by its number, by induction on the payloads. -/
theorem numberedFrom_inTurn {base : Int} {packets : List (List Byte)} {packet : DataPacket Int}
    {count : Nat} (member : packet ∈ numberedFrom base packets)
    (number : packet.seq = base + count)
    : packets[count]? = some packet.data := by
  induction packets generalizing base count with
  | nil => cases member
  | cons head rest ih =>
      rcases List.mem_cons.mp member with rfl | later
      · obtain rfl : count = 0 := by simpa using number
        rfl
      · have inside : packet.seq ∈ (numberedFrom (base + 1) rest).map DataPacket.seq :=
          List.mem_map_of_mem later
        rw [numberedFrom_seq, Int.mem_range_iff] at inside
        obtain ⟨before, rfl⟩ : ∃ before, count = before + 1 := ⟨count - 1, by omega⟩
        rw [List.getElem?_cons_succ]
        exact ih later (by push_cast at number; omega)

variable {service next : Service Addr Int} {base : Int} {packets : List (List Byte)} {count : Nat}
  {event : Event Addr Int}

theorem Expects.same (expects : Expects addr base packets count service)
    (nextRecvSeq : (next.conn addr).nextRecvSeq = (service.conn addr).nextRecvSeq)
    (recvList : (next.conn addr).recvList = (service.conn addr).recvList)
    (uncounted : next.recvThread.uncounted addr = service.recvThread.uncounted addr)
    (writing
      : ∀ data drained,
          next.recvThread = .write addr data drained → packets[count]? = some data)
    : Expects addr base packets count next where
  counted := by rw [nextRecvSeq, uncounted]; exact expects.counted
  held := by rw [recvList]; exact expects.held
  writing := writing

/-- Another client's packet is no matter of this one. -/
theorem Expects.elsewhere (expects : Expects addr base packets count service)
    (conn : next.conn addr = service.conn addr)
    (uncounted : next.recvThread.uncounted addr = service.recvThread.uncounted addr)
    (unwritten : next.recvThread.unwritten addr = service.recvThread.unwritten addr)
    (writing : ∀ data drained, next.recvThread ≠ .write addr data drained)
    : Expects addr base packets count next
      ∧ Flows addr packets count service .recvThread next count := by
  have incoming : next.incoming addr = service.incoming addr := by
    rw [Service.incoming, conn, unwritten, Service.incoming]
  refine ⟨expects.same (by rw [conn]) (by rw [conn]) uncounted ?_, .reads incoming⟩
  intro data drained position
  exact absurd position (writing data drained)

/-- A packet in turn is counted with the begin of its `Write`. -/
theorem Expects.write (expects : Expects addr base packets count service) {data : List Byte}
    {drained : Bool} (position : service.recvThread = .write addr data drained)
    : ∃ later,
        Expects addr base packets later { service with recvThread := .push addr data drained }
        ∧ Flows addr packets count service .recvThread
            { service with recvThread := .push addr data drained } later := by
  have counted := expects.counted
  have inTurn := expects.writing data drained position
  rw [position] at counted
  refine ⟨count + 1, ⟨?_, expects.held, by rintro _ _ ⟨⟩⟩, .writes data inTurn rfl ?_⟩
  · simp [conn, RecvThread.uncounted] at counted ⊢
    omega
  · simp [Service.incoming, conn, RecvThread.unwritten, position]

/-- A byte that is pushed was on its way before. -/
theorem Expects.push (expects : Expects addr base packets count service) {byte : Byte}
    {rest : List Byte} {drained : Bool}
    (position : service.recvThread = .push addr (byte :: rest) drained)
    : Expects addr base packets count
          { service.push addr [byte] with recvThread := .push addr rest drained }
      ∧ Flows addr packets count service .recvThread
          { service.push addr [byte] with recvThread := .push addr rest drained } count := by
  have pushed := service.push_conn addr [byte]
  refine ⟨expects.same ?_ ?_ ?_ (by rintro _ _ ⟨⟩), .reads ?_⟩
  · change ((service.push addr [byte]).conn addr).nextRecvSeq = _
    rw [pushed]
  · change ((service.push addr [byte]).conn addr).recvList = _
    rw [pushed]
  · rw [position]
    rfl
  · have stream := push_byteStream service addr [byte]
    change ((service.push addr [byte]).conn addr).byteStream ++ _ = _
    rw [stream, Service.incoming, position]
    simp [RecvThread.unwritten]

/-- Where a packet that was written is counted, or is taken from the list, the stream stays. -/
theorem Expects.counts (expects : Expects addr base packets count service) {moved : Conn Int}
    (nextRecvSeq
      : moved.nextRecvSeq + next.recvThread.uncounted addr
        = (service.conn addr).nextRecvSeq + service.recvThread.uncounted addr)
    (recvList : moved.recvList ⊆ (service.conn addr).recvList)
    (stream : moved.byteStream = (service.conn addr).byteStream)
    (conn : next.conn addr = moved)
    (before : service.recvThread.unwritten addr = [])
    (after : next.recvThread.unwritten addr = [])
    (writing : ∀ data drained, next.recvThread ≠ .write addr data drained)
    : Expects addr base packets count next
      ∧ Flows addr packets count service .recvThread next count := by
  refine ⟨⟨?_, ?_, ?_⟩, .reads ?_⟩
  · rw [conn, nextRecvSeq]
    exact expects.counted
  · rw [conn]
    exact List.Subset.trans recvList expects.held
  · intro data drained position
    exact absurd position (writing data drained)
  · rw [Service.incoming, Service.incoming, conn, before, after, stream]
    rfl

theorem Expects.recvThread (expects : Expects addr base packets count service)
    (stepped : service.recvThreadStep = some next)
    : ∃ later,
        Expects addr base packets later next
        ∧ Flows addr packets count service .recvThread next later := by
  have counted := expects.counted
  cases recvThreadStep_move stepped with
  | write other data drained position =>
      rcases eq_or_ne other addr with rfl | different
      · exact expects.write position
      · refine ⟨count, expects.elsewhere rfl ?_ ?_ (by rintro _ _ ⟨⟩)⟩
        · simp [RecvThread.uncounted, position, different]
        · simp [RecvThread.unwritten, position, different]
  | push other byte rest drained position =>
      rcases eq_or_ne other addr with rfl | different
      · exact ⟨count, expects.push position⟩
      · refine ⟨count, expects.elsewhere (push_ne different.symm _) ?_ ?_ (by rintro _ _ ⟨⟩)⟩
        · simp [RecvThread.uncounted, position, different]
        · simp [RecvThread.unwritten, position, different]
  | written other drained moved position stream status counts =>
      rcases eq_or_ne other addr with rfl | different
      · refine ⟨count, expects.counts ?_ ?_ stream (setConn_conn ..) ?_ rfl (by rintro _ _ ⟨⟩)⟩
        · cases drained <;> simp [RecvThread.uncounted, position, counts]
        · cases drained <;> simp [counts]
        · simp [RecvThread.unwritten, position]
      · refine ⟨count, expects.elsewhere (setConn_ne different.symm _) ?_ ?_ (by rintro _ _ ⟨⟩)⟩
        · simp [RecvThread.uncounted, position, different]
        · simp [RecvThread.unwritten, position, different]
  | lock _ _ position | noData _ _ position | someData _ _ position =>
      refine ⟨count, expects.elsewhere rfl ?_ ?_ (by rintro _ _ ⟨⟩)⟩
      · rw [position]
        rfl
      · rw [position]
        rfl
  | store other drained position =>
      let stored : Conn Int := { service.conn other with status := .hasData }
      have stream : stored.byteStream = (service.conn other).byteStream := rfl
      have recvList : stored.recvList = (service.conn other).recvList := rfl
      have nextRecvSeq : stored.nextRecvSeq = (service.conn other).nextRecvSeq := rfl
      refine ⟨count, expects.same ?_ ?_ ?_ (by rintro _ _ ⟨⟩), .reads ?_⟩
      · exact setConn_field Conn.nextRecvSeq nextRecvSeq addr
      · exact setConn_recvList recvList addr
      · rw [position]
        rfl
      · have written : service.recvThread.unwritten addr = [] := by rw [position]; rfl
        rw [Service.incoming, Service.incoming, written]
        exact congrArg (· ++ []) (setConn_byteStream stream addr)
  | unlock other drained moved position stream status moves =>
      rcases eq_or_ne other addr with rfl | different
      · refine ⟨count, expects.counts ?_ ?_ stream (setConn_conn ..) ?_ rfl (by rintro _ _ ⟨⟩)⟩
        · cases drained <;> simp [RecvThread.uncounted, position, moves]
        · cases drained with
          | true => simpa [moves] using (List.tail_sublist _).subset
          | false => simp [moves]
        · rw [position]
          rfl
      · refine ⟨count, expects.elsewhere (setConn_ne different.symm _) ?_ ?_ (by rintro _ _ ⟨⟩)⟩
        · simp [RecvThread.uncounted, position, different]
        · rw [position]
          rfl
  | next other packet position rest list inTurn =>
      have none : service.recvThread.uncounted addr = 0 := by rw [position]; rfl
      have written : service.recvThread.unwritten addr = [] := by rw [position]; rfl
      have incoming : service.incoming addr = (service.conn addr).byteStream ++ [] :=
        congrArg (_ ++ ·) written
      refine ⟨count, expects.same rfl rfl none.symm ?_, .reads incoming.symm⟩
      rintro _ _ ⟨⟩
      rw [none] at counted
      have member : packet ∈ (service.conn addr).recvList := list ▸ List.mem_cons_self
      exact numberedFrom_inTurn (expects.held member) (inTurn.trans (by simpa using counted))
  | drained other position =>
      refine ⟨count, expects.elsewhere rfl ?_ ?_ (by rintro _ _ ⟨⟩)⟩
      · rw [position]
        rfl
      · rw [position]
        rfl

theorem Expects.arrive {fromAddr : Addr} {packet : Packet Int}
    (expects : Expects addr base packets count service)
    (sent : OnlySends addr base packets (.arrive fromAddr packet))
    (stepped : service.arrive fromAddr packet = some next)
    : Expects addr base packets count next
      ∧ (next.conn addr).byteStream = (service.conn addr).byteStream := by
  have counted := expects.counted
  have position := (arrive_move stepped).1
  have none : service.recvThread.uncounted addr = 0 := by rw [position]; rfl
  rw [none] at counted
  cases packet with
  | data packet =>
      by_cases inTurn : packet.seq = (service.conn fromAddr).nextRecvSeq
      · have writes : service.arrive fromAddr (.data packet)
            = some { service with recvThread := .write fromAddr packet.data false } := by
          simp [Service.arrive, position, inTurn]
        obtain rfl := Option.some.inj (writes.symm.trans stepped)
        refine ⟨expects.same rfl rfl none.symm ?_, rfl⟩
        rintro _ _ ⟨⟩
        exact numberedFrom_inTurn (sent rfl) (inTurn.trans (by simpa using counted))
      · by_cases ahead : (service.conn fromAddr).nextRecvSeq < packet.seq
        · let held : Conn Int :=
            {
              service.conn fromAddr with
              recvList := insertPacket packet (service.conn fromAddr).recvList
            }
          have holds : service.arrive fromAddr (.data packet)
              = some (service.setConn fromAddr held) := by
            simp [Service.arrive, position, inTurn, ahead, held]
          obtain rfl := Option.some.inj (holds.symm.trans stepped)
          have stream : held.byteStream = (service.conn fromAddr).byteStream := rfl
          have nextRecvSeq : held.nextRecvSeq = (service.conn fromAddr).nextRecvSeq := rfl
          refine ⟨⟨?_, ?_, ?_⟩, setConn_byteStream stream addr⟩
          · rw [setConn_field Conn.nextRecvSeq nextRecvSeq addr]
            exact expects.counted
          · by_cases same : addr = fromAddr
            · subst same
              rw [setConn_conn]
              intro other member
              rcases List.mem_cons.mp ((insertPacket_perm packet _).subset member) with rfl | old
              · exact sent rfl
              · exact expects.held old
            · rw [setConn_ne same]
              exact expects.held
          · exact expects.writing
        · have ignores : service.arrive fromAddr (.data packet) = some service := by
            simp [Service.arrive, position, inTurn, ahead]
          obtain rfl := Option.some.inj (ignores.symm.trans stepped)
          exact ⟨expects, rfl⟩
  | establish1 seq =>
      have handles : service.arrive fromAddr (.establish1 seq)
          = some { service with socket := service.socket.onEstablish1 fromAddr seq } := by
        simp [Service.arrive, position, CTcpSocket.recvThreadProc]
      obtain rfl := Option.some.inj (handles.symm.trans stepped)
      have conn : (service.socket.onEstablish1 fromAddr seq).connectMap addr
          = service.conn addr := by
        simp [CTcpSocket.onEstablish1, conn, Ne.symm sent]
      refine ⟨expects.same ?_ ?_ rfl expects.writing, ?_⟩
      · exact congrArg Conn.nextRecvSeq conn
      · exact congrArg Conn.recvList conn
      · exact congrArg Conn.byteStream conn
  | establish2 seq | ack seq =>
      simp only [Service.arrive, position, Option.some.injEq] at stepped
      subst stepped
      exact ⟨expects.same rfl rfl none.symm (by rintro _ _ ⟨⟩), rfl⟩

/-- A packet arrives between two writes. -/
theorem arrive_unwritten {fromAddr : Addr} {packet : Packet Int}
    (stepped : service.arrive fromAddr packet = some next)
    : service.recvThread.unwritten addr = [] ∧ next.recvThread.unwritten addr = [] := by
  obtain ⟨position, move⟩ := arrive_move stepped
  have none : service.recvThread.unwritten addr = [] := by rw [position]; rfl
  cases move with
  | write | handle => exact ⟨none, rfl⟩
  | hold | ignore => exact ⟨none, none⟩

/-- An event begins to write the client's next packet at most, and its stream gives what it has. -/
theorem Expects.step (expects : Expects addr base packets count service)
    (sent : OnlySends addr base packets event) (stepped : service.step event = some next)
    : ∃ later,
        Expects addr base packets later next
        ∧ Flows addr packets count service event next later := by
  have quiet (received : Received addr service event next)
      : ∃ later,
          Expects addr base packets later next
          ∧ Flows addr packets count service event next later := by
    have uncounted := congrArg (RecvThread.uncounted addr) received.recvThread
    refine ⟨count, expects.same received.nextRecvSeq received.recvList uncounted ?_,
      .reads received.incoming⟩
    intro data drained position
    exact expects.writing data drained (received.recvThread ▸ position)
  cases event with
  | arrive fromAddr packet =>
      obtain ⟨still, stream⟩ := expects.arrive sent stepped
      obtain ⟨before, after⟩ := arrive_unwritten stepped
      have incoming : next.incoming addr = service.incoming addr := by
        rw [Service.incoming, Service.incoming, before, after, stream]
      exact ⟨count, still, .reads incoming⟩
  | recvThread => exact expects.recvThread stepped
  | select | mainLoop | addTask | thread | query | execute | transmit =>
      exact quiet (step_received rfl stepped addr)

/-- Before its first packet a client has sent nothing. -/
theorem expects_new (processors : Nat) (addr : Addr) : Expects addr 0 [] 0 (new processors) where
  counted := rfl
  held := List.nil_subset _
  writing := by rintro _ _ ⟨⟩

/-- The first packet of a client that has sent nothing says where its numbers begin. -/
theorem Expects.connect {number : Int} (expects : Expects addr base [] count service)
    (stepped : service.arrive addr (.establish1 number) = some next)
    (packets : List (List Byte))
    : Expects addr (number + 1) packets 0 next
      ∧ (next.conn addr).byteStream = (service.conn addr).byteStream := by
  have position := (arrive_move stepped).1
  have handles : service.arrive addr (.establish1 number)
      = some { service with socket := service.socket.onEstablish1 addr number } := by
    simp [Service.arrive, position, CTcpSocket.recvThreadProc]
  obtain rfl := Option.some.inj (handles.symm.trans stepped)
  have none : (service.conn addr).recvList = [] := List.subset_nil.mp expects.held
  refine ⟨⟨?_, ?_, ?_⟩, ?_⟩
  · rw [position]
    simp [CTcpSocket.onEstablish1, conn, RecvThread.uncounted]
  · have list : ((service.socket.onEstablish1 addr number).connectMap addr).recvList
        = (service.conn addr).recvList := by
      simp [CTcpSocket.onEstablish1, conn]
    exact fun packet member => absurd ((list.trans none) ▸ member) List.not_mem_nil
  · intro data drained writes
    exact absurd (position.symm.trans writes) (by rintro ⟨⟩)
  · simp [CTcpSocket.onEstablish1, conn]

end Writing

-----------------------------------------------------------------------------------------
-- The bytes of a client
-----------------------------------------------------------------------------------------

section Runs

open TransitionSystem (run trace Along)

variable {service next : Service Addr Int} {base number : Int} {packets : List (List Byte)}
  {event : Event Addr Int} {read : List Byte}

/-- All that was read of a client's stream is what its first packets hold, but for what waits in
the stream or is being pushed to it.
-/
def ReadsInOrder (addr : Addr) (base : Int) (packets : List (List Byte)) (read : List Byte)
    (service : Service Addr Int) : Prop :=
  ∃ count,
    Expects addr base packets count service
    ∧ count ≤ packets.length
    ∧ read ++ service.incoming addr = (packets.take count).flatten

theorem ReadsInOrder.step (inOrder : ReadsInOrder addr base packets read service)
    (sent : OnlySends addr base packets event) (stepped : service.step event = some next)
    : ReadsInOrder addr base packets (read ++ service.bytesRead addr event) next := by
  obtain ⟨count, expects, le, whole⟩ := inOrder
  obtain ⟨later, still, flows⟩ := expects.step sent stepped
  refine ⟨later, still, ?_⟩
  cases flows with
  | writes data inTurn moves stream =>
      obtain ⟨inside, _⟩ := List.getElem?_eq_some_iff.mp inTurn
      refine ⟨inside, ?_⟩
      have none : service.bytesRead addr event = [] := by rw [moves]; rfl
      rw [none, List.append_nil, stream, ← List.append_assoc, whole, List.take_add_one, inTurn]
      simp
  | reads stream => exact ⟨le, by rw [List.append_assoc, stream, whole]⟩

/-- What holds of a server from its start on, of a client's first packet and of what it sends then,
holds in every run in which the client connects once. `script` says what it sends.
-/
theorem trace_connected {Script Out : Type*} {packets : Script → List (List Byte)}
    {nothing script : Script} {outs : Service Addr Int → Event Addr Int → List Out}
    {guard : Service Addr Int → Event Addr Int → Prop}
    {good : Int → Script → List Out → Service Addr Int → Prop} {processors : Nat}
    {before after : List (Event Addr Int)}
    (begun : good 0 nothing [] (new processors))
    (kept
      : ∀ {base script sofar service event next},
          good base script sofar service
          → OnlySends addr base (packets script) event
          → guard service event
          → service.step event = some next
          → good base script (sofar ++ outs service event) next)
    (connects
      : ∀ {base sofar service next},
          good base nothing sofar service
          → service.arrive addr (.establish1 number) = some next
          → good (number + 1) script
              (sofar ++ outs service (.arrive addr (.establish1 number))) next)
    (silent : ∀ packet, .arrive addr packet ∉ before)
    (sent : ∀ event ∈ after, OnlySends addr (number + 1) (packets script) event)
    (met
      : Along step guard (new processors) (before ++ .arrive addr (.establish1 number) :: after))
    (ran
      : run step (new processors) (before ++ .arrive addr (.establish1 number) :: after)
        = some service)
    : good (number + 1) script
        (trace step outs (new processors)
          (before ++ .arrive addr (.establish1 number) :: after))
        service := by
  rw [TransitionSystem.run_append] at ran
  obtain ⟨quiet, first, rest⟩ := Option.bind_eq_some_iff.mp ran
  obtain ⟨connected, arrives, later⟩ := Option.bind_eq_some_iff.mp rest
  obtain ⟨metBefore, metLater⟩ := (TransitionSystem.along_append _).mp met
  have none : ∀ event ∈ before, OnlySends addr 0 (packets nothing) event := by
    intro event member
    cases event with
    | arrive fromAddr packet =>
        have other : fromAddr ≠ addr := fun same => silent packet (same ▸ member)
        cases packet with
        | data packet => exact fun same => absurd same other
        | establish1 seq => exact other
        | establish2 | ack => trivial
    | recvThread | select | mainLoop | addTask | thread | query | execute | transmit => trivial
  have along {service : Service Addr Int} {base : Int} {packets : List (List Byte)}
      {events : List (Event Addr Int)} (sent : ∀ event ∈ events, OnlySends addr base packets event)
      (met : Along step guard service events)
      : Along step
          (fun service event => OnlySends addr base packets event ∧ guard service event)
          service events :=
    TransitionSystem.along_and (TransitionSystem.along_of_forall sent) met
  have unconnected := TransitionSystem.trace_invariant_along
    (fun sofar met stepped => kept sofar met.1 met.2 stepped) begun (along none metBefore) first
  have atOnce := connects unconnected arrives
  have final := TransitionSystem.trace_invariant_along
    (fun sofar met stepped => kept sofar met.1 met.2 stepped) atOnce
    (along sent ((metLater quiet first).2 connected arrives)) later
  rw [TransitionSystem.trace_append first]
  simp only [List.nil_append, List.append_assoc] at final
  have whole : trace step outs quiet (.arrive addr (.establish1 number) :: after)
      = outs quiet (.arrive addr (.establish1 number)) ++ trace step outs connected after := by
    simp only [trace, arrives]
  rw [whole]
  exact final

/-- All the bytes that the main loop reads of a client's stream. -/
def readFrom (addr : Addr) (service : Service Addr Int) (events : List (Event Addr Int))
    : List Byte :=
  trace step (bytesRead addr) service events

/-- What the main loop has read of a client's stream, what waits in the stream and the bytes that a
`Write` has still to push are what the client's first packets hold, one after the other and each of
them once, in every interleaving of the threads and whatever other clients send. `count` is what
`m_nNextRecvSeq` says, and one more from the begin of a packet's `Write` until it is counted.
-/
theorem reads_of_run {processors : Nat} {before after : List (Event Addr Int)}
    (silent : ∀ packet, .arrive addr packet ∉ before)
    (sent : ∀ event ∈ after, OnlySends addr (number + 1) packets event)
    (ran
      : run step (new processors) (before ++ .arrive addr (.establish1 number) :: after)
        = some service)
    : ∃ count,
        count ≤ packets.length
        ∧ (service.conn addr).nextRecvSeq + service.recvThread.uncounted addr
          = number + 1 + count
        ∧ readFrom addr (new processors) (before ++ .arrive addr (.establish1 number) :: after)
            ++ (service.conn addr).byteStream ++ service.recvThread.unwritten addr
          = (packets.take count).flatten := by
  have inOrder := @trace_connected _ _ addr service number _ _ id [] packets (bytesRead addr)
    (fun _ _ => True) (ReadsInOrder addr) processors before after
    ⟨0, expects_new processors addr, Nat.le_refl 0, rfl⟩
    (fun sofar sent _ stepped => sofar.step sent stepped) ?_ silent sent
    (TransitionSystem.along_of_forall (fun _ _ => trivial)) ran
  · obtain ⟨count, expects, le, whole⟩ := inOrder
    refine ⟨count, le, expects.counted, ?_⟩
    rw [List.append_assoc]
    exact whole
  · rintro base sofar service next ⟨count, expects, le, whole⟩ arrives
    obtain ⟨connected, stream⟩ := expects.connect arrives packets
    obtain ⟨before, after⟩ := @arrive_unwritten _ _ addr service next _ _ arrives
    refine ⟨0, connected, Nat.zero_le _, ?_⟩
    rw [Service.incoming, before] at whole
    rw [Service.incoming, after, stream]
    simpa [bytesRead] using whole

/-- The client's second packet comes before its first one, and the main loop has sampled the size of
the stream between the two pushes of the second one.
-/
def readTurned : List (Event Nat Int) :=
  List.flatten
    [
      [.arrive 7 (.data ⟨2, [6, 9]⟩), .arrive 7 (.data ⟨1, [5]⟩)],
      List.replicate 10 .recvThread,
      [.select 7, .mainLoop, .mainLoop],
      List.replicate 2 .recvThread,
      [.mainLoop]
    ]

theorem reads_readTurned
    : ∃ service : Service Nat Int,
        run step (new 1) ([] ++ .arrive 7 (.establish1 0) :: readTurned) = some service
        ∧ readFrom 7 (new 1) ([] ++ .arrive 7 (.establish1 0) :: readTurned) = [5, 6]
        ∧ (service.conn 7).byteStream = [9]
        ∧ ∃ count : Nat,
            count ≤ 2
            ∧ (service.conn 7).nextRecvSeq + service.recvThread.uncounted 7 = 0 + 1 + count
            ∧ readFrom 7 (new 1) ([] ++ .arrive 7 (.establish1 0) :: readTurned)
                ++ (service.conn 7).byteStream ++ service.recvThread.unwritten 7
              = ([[5], [6, 9]].take count).flatten := by
  obtain ⟨service, reached⟩ := Option.isSome_iff_exists.mp
    (by decide +kernel
      : ((run step (new 1) ([] ++ .arrive 7 (.establish1 0) :: readTurned)).filter
          (fun service => (service.conn 7).byteStream = [9])).isSome)
  obtain ⟨ran, stream⟩ := Option.filter_eq_some_iff.mp reached
  have sent : ∀ event ∈ readTurned, OnlySends 7 (0 + 1) [[5], [6, 9]] event := by
    decide +kernel
  refine ⟨service, ran, by decide +kernel, of_decide_eq_true stream, ?_⟩
  exact reads_of_run (by simp) sent ran

end Runs

end Service

end SchoolSystem.Server
