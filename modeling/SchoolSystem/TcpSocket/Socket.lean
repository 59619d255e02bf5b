import SchoolSystem.Library.TransitionSystem
import SchoolSystem.TcpSocket.Reassembly

/-! The operations of `CTcpSocket` on its connections and its list of pending packets:
`Send`, one node of a `SendThreadProc` pass, and `RecvThreadProc` for one packet.
-/

namespace SchoolSystem.TcpSocket

variable {Addr Seq : Type} [DecidableEq Addr] [Add Seq] [OfNat Seq 0] [OfNat Seq 1]

/-- The payloads `Send` cuts from its buffer: `count` full ones, then `rest` bytes if
there are any.
-/
def cutPayloads (count rest : Nat) (buf : List Byte) : List (List Byte) :=
  match count with
  | 0 => if rest ≠ 0 then [buf.take rest] else []
  | count + 1 => buf.take dataLen :: cutPayloads count rest (buf.drop dataLen)

def payloads (buf : List Byte) : List (List Byte) :=
  cutPayloads (buf.length / dataLen) (buf.length % dataLen) buf

/-- Numbers one payload with `m_nNextSendSeq++` and appends it to `m_sendList`. -/
def CTcpSocket.queuePacket (socket : CTcpSocket Addr Seq) (addr : Addr) (data : List Byte)
    : CTcpSocket Addr Seq :=
  let conn := socket.connectMap addr
  {
    connectMap :=
      Function.update socket.connectMap addr
        { conn with nextSendSeq := conn.nextSendSeq + 1 }
    sendList := socket.sendList ++ [⟨0, addr, .data ⟨conn.nextSendSeq, data⟩⟩]
  }

def CTcpSocket.queuePackets (socket : CTcpSocket Addr Seq) (addr : Addr)
    (data : List (List Byte))
    : CTcpSocket Addr Seq :=
  data.foldl (fun socket payload => socket.queuePacket addr payload) socket

/-- `Send`: the whole loop runs under `m_sendListLock`. -/
def CTcpSocket.send (socket : CTcpSocket Addr Seq) (addr : Addr) (buf : List Byte)
    : CTcpSocket Addr Seq :=
  socket.queuePackets addr (payloads buf)

-----------------------------------------------------------------------------------------
-- SendThreadProc
-----------------------------------------------------------------------------------------

/-- A node is due when it was never sent or was last sent 1000 ticks ago. -/
def SendListNode.due (node : SendListNode Addr Seq) (clock : Int) : Bool :=
  node.time == 0 || 1000 ≤ clock - node.time

/-- The packet types that the `switch` of `SendThreadProc` sends. -/
def Packet.isSent : Packet Seq → Bool
  | .establish1 _ | .establish2 _ | .data _ => true
  | .ack _ => false

/-- The loop body of `SendThreadProc` for one node, with the datagrams it sends. The body calls
`clock()` twice, for its test and for the new time; one value stands for both.
-/
def SendListNode.transmit (node : SendListNode Addr Seq) (clock : Int)
    : SendListNode Addr Seq × List (Packet Seq) :=
  if node.due clock then
    ({ node with time := clock }, if node.packet.isSent then [node.packet] else [])
  else
    (node, [])

/-- One iteration of `SendThreadProc`, for the node at `index`. -/
def CTcpSocket.sendThreadProc (socket : CTcpSocket Addr Seq) (index : Nat) (clock : Int)
    : Option (CTcpSocket Addr Seq × List (Addr × Packet Seq)) :=
  socket.sendList[index]?.map (fun node =>
    let (sent, packets) := node.transmit clock
    (
      { socket with sendList := socket.sendList.set index sent },
      packets.map (fun packet => (node.addr, packet))
    ))

-----------------------------------------------------------------------------------------
-- RecvThreadProc
-----------------------------------------------------------------------------------------

/-- The `ESTABLISH_1` branch: it sets the counters anew and queues the second handshake
packet.
-/
def CTcpSocket.onEstablish1 (socket : CTcpSocket Addr Seq) (fromAddr : Addr) (seq : Seq)
    : CTcpSocket Addr Seq :=
  let conn := socket.connectMap fromAddr
  {
    connectMap :=
      Function.update socket.connectMap fromAddr
        { conn with nextSendSeq := 0 + 1, nextRecvSeq := seq + 1 }
    sendList := socket.sendList ++ [⟨0, fromAddr, .establish2 0⟩]
  }

variable [DecidableEq Seq]

/-- The `ACK` branch: it erases the first pending node with that number. -/
def CTcpSocket.onAck (socket : CTcpSocket Addr Seq) (seq : Seq) : CTcpSocket Addr Seq :=
  {
    socket with
    sendList := socket.sendList.eraseP (fun node => node.packet.seq == seq)
  }

variable [LT Seq] [DecidableLT Seq]

/-- `RecvThreadProc` for one packet, with the packets it sends back to `fromAddr`. The source sends
the `ACK` of a `DATA` packet first and stores the packet then.
-/
def CTcpSocket.recvThreadProc (socket : CTcpSocket Addr Seq) (fromAddr : Addr)
    : Packet Seq → CTcpSocket Addr Seq × List (Packet Seq)
  | .establish1 seq => (socket.onEstablish1 fromAddr seq, [])
  | .establish2 seq => (socket, [.ack seq])
  | .data packet =>
      (
        socket.setConn fromAddr ((socket.connectMap fromAddr).onData packet),
        [.ack packet.seq]
      )
  | .ack seq => (socket.onAck seq, [])

theorem cutPayloads_flatten (count rest : Nat) (buf : List Byte)
    (size : buf.length = dataLen * count + rest)
    : (cutPayloads count rest buf).flatten = buf := by
  induction count generalizing buf with
  | zero =>
      have all : buf.length = rest := by simpa using size
      cases buf with
      | nil => simp [cutPayloads]
      | cons byte more =>
          simp [cutPayloads, ← all]
  | succ count ih =>
      have tail : (buf.drop dataLen).length = dataLen * count + rest := by
        rw [List.length_drop, size, Nat.mul_succ]
        omega
      rw [cutPayloads, List.flatten_cons, ih (buf.drop dataLen) tail, List.take_append_drop]

/-- The payloads concatenate to the buffer. -/
theorem payloads_flatten (buf : List Byte) : (payloads buf).flatten = buf :=
  cutPayloads_flatten _ _ buf (Nat.div_add_mod buf.length dataLen).symm

theorem cutPayloads_bounds (count rest : Nat) (buf : List Byte)
    (size : buf.length = dataLen * count + rest) (small : rest < dataLen)
    : ∀ data ∈ cutPayloads count rest buf, 1 ≤ data.length ∧ data.length ≤ dataLen := by
  induction count generalizing buf with
  | zero =>
      intro data member
      by_cases none : rest = 0
      · simp [cutPayloads, none] at member
      · have same : data = buf.take rest := by simpa [cutPayloads, none] using member
        have length : buf.length = rest := by simpa using size
        rw [same, List.length_take, length]
        omega
  | succ count ih =>
      intro data member
      have large : dataLen ≤ buf.length := by rw [size, Nat.mul_succ]; omega
      rcases List.mem_cons.mp member with rfl | later
      · rw [List.length_take, Nat.min_eq_left large]
        exact ⟨by decide, le_refl _⟩
      · refine ih (buf.drop dataLen) ?_ data later
        rw [List.length_drop, size, Nat.mul_succ]
        omega

/-- Every payload has between 1 and `DATA_LEN` bytes. -/
theorem payloads_bounds (buf : List Byte)
    : ∀ data ∈ payloads buf, 1 ≤ data.length ∧ data.length ≤ dataLen :=
  cutPayloads_bounds _ _ buf (Nat.div_add_mod buf.length dataLen).symm
    (Nat.mod_lt _ (by decide))

-----------------------------------------------------------------------------------------
-- Effects on the counters and the pending packets
-----------------------------------------------------------------------------------------

/-- The `DATA` packets for these payloads, numbered from `start` on. -/
def numberedFrom (start : Seq) : List (List Byte) → List (DataPacket Seq)
  | [] => []
  | data :: rest => ⟨start, data⟩ :: numberedFrom (start + 1) rest

/-- The pending packets with their addresses, without the times of `SendThreadProc`. -/
def CTcpSocket.pendingPackets (socket : CTcpSocket Addr Seq) : List (Addr × Packet Seq) :=
  socket.sendList.map (fun node => (node.addr, node.packet))

omit [DecidableEq Addr] [OfNat Seq 0] [DecidableEq Seq] [LT Seq] [DecidableLT Seq]

theorem numberedFrom_data (start : Seq) (data : List (List Byte))
    : (numberedFrom start data).flatMap DataPacket.data = data.flatten := by
  induction data generalizing start with
  | nil => rfl
  | cons head rest ih => simp [numberedFrom, ih]

theorem numberedFrom_mem {start : Seq} {data : List (List Byte)} {packet : DataPacket Seq}
    (member : packet ∈ numberedFrom start data)
    : packet.data ∈ data := by
  induction data generalizing start with
  | nil => cases member
  | cons head rest ih =>
      rcases List.mem_cons.mp member with rfl | later
      · exact List.mem_cons_self
      · exact List.mem_cons_of_mem _ (ih later)

theorem numberedFrom_seq (start : Int) (data : List (List Byte))
    : (numberedFrom start data).map DataPacket.seq
      = Int.range start (start + data.length) := by
  induction data generalizing start with
  | nil => simp [numberedFrom, ReorderBuffer.range_self]
  | cons head rest ih =>
      have shift : start + ((head :: rest).length : Int) = start + 1 + rest.length := by
        simp only [List.length_cons, Nat.cast_succ]
        omega
      rw [shift, ReorderBuffer.range_cons (by omega), numberedFrom, List.map_cons, ih]

omit [Add Seq] [OfNat Seq 1] in
@[simp]
theorem CTcpSocket.setConn_pendingPackets [DecidableEq Addr] (socket : CTcpSocket Addr Seq)
    (addr : Addr) (conn : Conn Seq)
    : (socket.setConn addr conn).pendingPackets = socket.pendingPackets := rfl

variable [DecidableEq Addr]

/-- `Send` appends its packets to the pending ones, by induction on the payloads. -/
theorem CTcpSocket.queuePackets_pendingPackets (socket : CTcpSocket Addr Seq) (addr : Addr)
    (data : List (List Byte))
    : (socket.queuePackets addr data).pendingPackets
      = socket.pendingPackets
        ++ (numberedFrom (socket.connectMap addr).nextSendSeq data).map
            (fun packet => (addr, .data packet)) := by
  induction data generalizing socket with
  | nil => simp [queuePackets, numberedFrom]
  | cons head rest ih =>
      have tail := ih (socket.queuePacket addr head)
      simpa [queuePackets, queuePacket, numberedFrom, pendingPackets] using tail

/-- `Send` moves the send counter only, of whichever connection. -/
theorem CTcpSocket.queuePackets_conn (socket : CTcpSocket Addr Seq) (addr other : Addr)
    (data : List (List Byte))
    : (socket.queuePackets addr data).connectMap other
      = {
          socket.connectMap other with
          nextSendSeq := ((socket.queuePackets addr data).connectMap other).nextSendSeq
        } := by
  induction data generalizing socket with
  | nil => rfl
  | cons head rest ih =>
      have tail := ih (socket.queuePacket addr head)
      simp only [queuePackets, List.foldl_cons] at tail ⊢
      by_cases same : other = addr
      · subst same
        rw [tail]
        simp [queuePacket]
      · rw [tail]
        simp [queuePacket, same]

@[simp]
theorem CTcpSocket.queuePackets_connectMap_self (socket : CTcpSocket Addr Int)
    (addr : Addr) (data : List (List Byte))
    : (socket.queuePackets addr data).connectMap addr
      = {
          socket.connectMap addr with
          nextSendSeq := (socket.connectMap addr).nextSendSeq + data.length
        } := by
  induction data generalizing socket with
  | nil => simp [queuePackets]
  | cons head rest ih =>
      have tail := ih (socket.queuePacket addr head)
      simp only [queuePackets, List.foldl_cons] at tail ⊢
      rw [tail]
      simp [queuePacket, Int.add_assoc, Int.add_comm]

omit [DecidableEq Addr] [Add Seq] [OfNat Seq 1] in
/-- A transmission changes the time of a node and sends its packet to its address. -/
theorem SendListNode.transmit_spec (node : SendListNode Addr Seq) (clock : Int)
    : (node.transmit clock).1.addr = node.addr
      ∧ (node.transmit clock).1.packet = node.packet
      ∧ ∀ packet ∈ (node.transmit clock).2,
          packet = node.packet ∧ packet.isSent = true := by
  unfold transmit
  split
  · refine ⟨rfl, rfl, ?_⟩
    intro packet member
    split at member
    · rename_i sent
      rw [List.mem_singleton.mp member]
      exact ⟨rfl, sent⟩
    · exact absurd member List.not_mem_nil
  · exact ⟨rfl, rfl, fun _ member => absurd member List.not_mem_nil⟩

omit [DecidableEq Addr] [Add Seq] [OfNat Seq 1] in
/-- A step of `SendThreadProc` sends pending packets only and keeps all of them pending. -/
theorem CTcpSocket.sendThreadProc_spec {socket next : CTcpSocket Addr Seq} {index : Nat}
    {clock : Int} {sent : List (Addr × Packet Seq)}
    (h : socket.sendThreadProc index clock = some (next, sent))
    : next.connectMap = socket.connectMap
      ∧ next.pendingPackets = socket.pendingPackets
      ∧ ∀ datagram ∈ sent,
          datagram ∈ socket.pendingPackets ∧ datagram.2.isSent = true := by
  obtain ⟨node, found, result⟩ := Option.map_eq_some_iff.mp h
  obtain ⟨inside, atIndex⟩ := List.getElem?_eq_some_iff.mp found
  obtain ⟨addr, packet, packets⟩ := node.transmit_spec clock
  cases transmitted : node.transmit clock with
  | mk sentNode sentPackets =>
      rw [transmitted] at addr packet packets result
      obtain ⟨rfl, rfl⟩ := Prod.mk.inj result
      refine ⟨rfl, ?_, ?_⟩
      · have bound
            : index < (socket.sendList.map (fun node => (node.addr, node.packet))).length := by
          simpa using inside
        have entry : (sentNode.addr, sentNode.packet)
            = (socket.sendList.map (fun node => (node.addr, node.packet)))[index] := by
          simp only [List.getElem_map, atIndex]
          exact Prod.ext addr packet
        simp only [pendingPackets, List.map_set, entry, List.set_getElem_self]
      · intro datagram member
        obtain ⟨sentPacket, inPackets, rfl⟩ := List.mem_map.mp member
        obtain ⟨same, isSent⟩ := packets sentPacket inPackets
        refine ⟨?_, isSent⟩
        rw [same]
        exact List.mem_map.mpr ⟨node, List.mem_of_getElem? found, rfl⟩

omit [DecidableEq Addr] [Add Seq] [OfNat Seq 1] in
theorem CTcpSocket.onAck_pendingPackets [DecidableEq Seq] (socket : CTcpSocket Addr Seq)
    (seq : Seq)
    : (socket.onAck seq).pendingPackets
      = socket.pendingPackets.eraseP (fun entry => entry.2.seq == seq) := by
  simp only [onAck, pendingPackets, List.eraseP_map]
  rfl

theorem CTcpSocket.onEstablish1_pendingPackets [OfNat Seq 0] (socket : CTcpSocket Addr Seq)
    (fromAddr : Addr) (seq : Seq)
    : (socket.onEstablish1 fromAddr seq).pendingPackets
      = socket.pendingPackets ++ [(fromAddr, .establish2 0)] := by
  simp [onEstablish1, pendingPackets]

end SchoolSystem.TcpSocket
