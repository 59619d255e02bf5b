import SchoolSystem.Library.WrappingCounter
import SchoolSystem.TcpSocket.Isolation

/-! The socket with the 32-bit counters of the source and the one with unbounded counters. They
are the same machine as long as no counter passes the largest number.
-/

namespace SchoolSystem.TcpSocket

-----------------------------------------------------------------------------------------
-- Other sequence numbers
-----------------------------------------------------------------------------------------

section Map

variable {Addr Seq Other : Type} (read : Seq → Other)

def DataPacket.map (packet : DataPacket Seq) : DataPacket Other := ⟨read packet.seq, packet.data⟩

def Packet.map : Packet Seq → Packet Other
  | .establish1 seq => .establish1 (read seq)
  | .establish2 seq => .establish2 (read seq)
  | .data packet => .data (packet.map read)
  | .ack seq => .ack (read seq)

def SendListNode.map (node : SendListNode Addr Seq) : SendListNode Addr Other :=
  ⟨node.time, node.addr, node.packet.map read⟩

def Conn.map (conn : Conn Seq) : Conn Other where
  nextSendSeq := read conn.nextSendSeq
  nextRecvSeq := read conn.nextRecvSeq
  recvList := conn.recvList.map (DataPacket.map read)
  byteStream := conn.byteStream
  status := conn.status

def CTcpSocket.map (socket : CTcpSocket Addr Seq) : CTcpSocket Addr Other where
  connectMap addr := (socket.connectMap addr).map read
  sendList := socket.sendList.map (SendListNode.map read)

def CTcpSocket.Event.map : CTcpSocket.Event Addr Seq → CTcpSocket.Event Addr Other
  | .send addr buf => .send addr buf
  | .transmit index clock => .transmit index clock
  | .arrive fromAddr packet => .arrive fromAddr (packet.map read)

theorem Packet.map_seq (packet : Packet Seq) : (packet.map read).seq = read packet.seq := by
  cases packet <;> rfl

theorem Packet.map_isSent (packet : Packet Seq) : (packet.map read).isSent = packet.isSent := by
  cases packet <;> rfl

theorem CTcpSocket.map_setConn [DecidableEq Addr] (socket : CTcpSocket Addr Seq) (addr : Addr)
    (conn : Conn Seq)
    : (socket.setConn addr conn).map read = (socket.map read).setConn addr (conn.map read) := by
  simp only [setConn, CTcpSocket.map, mk.injEq, and_true]
  funext other
  by_cases same : other = addr
  · subst same
    simp
  · simp [same]

variable {read}

/-- A node is sent by its time and type, whatever its number. -/
theorem SendListNode.map_transmit (node : SendListNode Addr Seq) (clock : Int)
    : (node.map read).transmit clock
      = ((node.transmit clock).1.map read, (node.transmit clock).2.map (Packet.map read)) := by
  have due : (node.map read).due clock = node.due clock := rfl
  have isSent : (node.map read).packet.isSent = node.packet.isSent :=
    Packet.map_isSent read node.packet
  simp only [transmit, due, isSent]
  split
  · split <;> rfl
  · rfl

theorem CTcpSocket.map_sendThreadProc (socket : CTcpSocket Addr Seq) (index : Nat) (clock : Int)
    : (socket.map read).sendThreadProc index clock
      = (socket.sendThreadProc index clock).map
          (fun (socket, sent) =>
            (socket.map read, sent.map (fun (addr, packet) => (addr, packet.map read)))) := by
  simp only [sendThreadProc, CTcpSocket.map, List.getElem?_map, Option.map_map]
  congr 1
  funext node
  simp only [Function.comp_apply, SendListNode.map_transmit, List.map_map, List.map_set]
  rfl

end Map

-----------------------------------------------------------------------------------------
-- 32-bit counters
-----------------------------------------------------------------------------------------

section Unbounded

variable {Addr : Type}

abbrev DataPacket.unbounded (packet : DataPacket Int32) : DataPacket Int := packet.map Int32.toInt

abbrev Packet.unbounded (packet : Packet Int32) : Packet Int := packet.map Int32.toInt

abbrev Conn.unbounded (conn : Conn Int32) : Conn Int := conn.map Int32.toInt

abbrev CTcpSocket.unbounded (socket : CTcpSocket Addr Int32) : CTcpSocket Addr Int :=
  socket.map Int32.toInt

abbrev CTcpSocket.Event.unbounded (event : CTcpSocket.Event Addr Int32)
    : CTcpSocket.Event Addr Int :=
  event.map Int32.toInt

open WrappingCounter

theorem insertPacket_unbounded (packet : DataPacket Int32) (held : List (DataPacket Int32))
    : (insertPacket packet held).map DataPacket.unbounded
      = insertPacket packet.unbounded (held.map DataPacket.unbounded) := by
  induction held with
  | nil => rfl
  | cons head rest ih =>
      have less : packet.seq < head.seq ↔ packet.unbounded.seq < head.unbounded.seq :=
        Int32.lt_iff_toInt_lt
      simp only [insertPacket, List.map_cons, less]
      split
      · rfl
      · rw [List.map_cons, ih]

theorem Conn.deliver_unbounded {conn : Conn Int32} (data : List Byte)
    (fits : conn.nextRecvSeq.toInt + 1 < 2 ^ 31)
    : (conn.deliver data).unbounded = conn.unbounded.deliver data := by
  have moved : (conn.nextRecvSeq + 1).toInt = conn.nextRecvSeq.toInt + 1 := toInt_add_one fits
  simp only [unbounded, Conn.map, deliver, write, moved]

/-- The drain loop counts as with unbounded counters, up to the largest number, by induction on
the held packets.
-/
theorem Conn.drain_unbounded {conn : Conn Int32} {held : List (DataPacket Int32)}
    (fits : (conn.unbounded.drain (held.map DataPacket.unbounded)).nextRecvSeq < 2 ^ 31)
    : (conn.drain held).unbounded = conn.unbounded.drain (held.map DataPacket.unbounded) := by
  induction held generalizing conn with
  | nil => rfl
  | cons head rest ih =>
      have same : head.seq = conn.nextRecvSeq
          ↔ head.unbounded.seq = conn.unbounded.nextRecvSeq :=
        Int32.toInt_inj.symm
      simp only [drain, List.map_cons, same] at fits ⊢
      split
      · rename_i inTurn
        rw [if_pos inTurn] at fits
        obtain ⟨_, _, forth, _⟩ :=
          (conn.unbounded.deliver head.unbounded.data).drain_released
            (rest.map DataPacket.unbounded)
        have next : conn.nextRecvSeq.toInt + 1 < 2 ^ 31 := forth.trans_lt fits
        have delivered := Conn.deliver_unbounded head.unbounded.data next
        rw [← delivered] at fits ⊢
        exact ih fits
      · rfl

/-- So does the `DATA` branch. -/
theorem Conn.onData_unbounded {conn : Conn Int32} {packet : DataPacket Int32}
    (fits : (conn.unbounded.onData packet.unbounded).nextRecvSeq < 2 ^ 31)
    : (conn.onData packet).unbounded = conn.unbounded.onData packet.unbounded := by
  have same : packet.seq = conn.nextRecvSeq
      ↔ packet.unbounded.seq = conn.unbounded.nextRecvSeq :=
    Int32.toInt_inj.symm
  have less : conn.nextRecvSeq < packet.seq
      ↔ conn.unbounded.nextRecvSeq < packet.unbounded.seq :=
    Int32.lt_iff_toInt_lt
  simp only [onData, same, less] at fits ⊢
  split
  · rename_i inTurn
    rw [if_pos inTurn] at fits
    obtain ⟨_, _, forth, _⟩ :=
      (conn.unbounded.deliver packet.unbounded.data).drain_released conn.unbounded.recvList
    have next : conn.nextRecvSeq.toInt + 1 < 2 ^ 31 := forth.trans_lt fits
    have delivered := Conn.deliver_unbounded packet.unbounded.data next
    rw [← delivered] at fits ⊢
    exact Conn.drain_unbounded fits
  · split
    · simp only [unbounded, Conn.map, insertPacket_unbounded]
    · rfl

variable [DecidableEq Addr]

/-- `Send` numbers as with unbounded counters, up to the largest number, by induction on the
payloads.
-/
theorem CTcpSocket.queuePackets_unbounded {socket : CTcpSocket Addr Int32} {addr : Addr}
    {data : List (List Byte)}
    (fits : (socket.connectMap addr).nextSendSeq.toInt + data.length < 2 ^ 31)
    : (socket.queuePackets addr data).unbounded = socket.unbounded.queuePackets addr data := by
  induction data generalizing socket with
  | nil => rfl
  | cons head rest ih =>
      have size : ((head :: rest).length : Int) = rest.length + 1 := by simp
      have moved : ((socket.connectMap addr).nextSendSeq + 1).toInt
          = (socket.connectMap addr).nextSendSeq.toInt + 1 :=
        toInt_add_one (by omega)
      have queued : (socket.queuePacket addr head).unbounded
          = socket.unbounded.queuePacket addr head := by
        have set := socket.map_setConn Int32.toInt addr
          { socket.connectMap addr with nextSendSeq := (socket.connectMap addr).nextSendSeq + 1 }
        have conns := congrArg CTcpSocket.connectMap set
        simp only [unbounded, CTcpSocket.map, queuePacket, mk.injEq]
        refine ⟨?_, by simp [SendListNode.map, Packet.map, DataPacket.map, Conn.map]⟩
        refine Eq.trans conns ?_
        simp only [setConn, Conn.map, moved]
        rfl
      have later := @ih (socket.queuePacket addr head)
        (by simp only [queuePacket, Function.update_self, moved]; omega)
      rw [queued] at later
      exact later

omit [DecidableEq Addr] in
theorem CTcpSocket.onAck_unbounded (socket : CTcpSocket Addr Int32) (seq : Int32)
    : (socket.onAck seq).unbounded = socket.unbounded.onAck seq.toInt := by
  have same (node : SendListNode Addr Int32)
      : ((node.map Int32.toInt).packet.seq == seq.toInt) = (node.packet.seq == seq) := by
    rw [Bool.eq_iff_iff, beq_iff_eq, beq_iff_eq, ← Int32.toInt_inj]
    exact Eq.congr_left (Packet.map_seq Int32.toInt node.packet)
  simp only [onAck, unbounded, CTcpSocket.map, List.eraseP_map, mk.injEq, true_and]
  congr 2
  funext node
  exact (same node).symm

theorem CTcpSocket.onEstablish1_unbounded {socket : CTcpSocket Addr Int32} (addr : Addr)
    {seq : Int32} (fits : seq.toInt + 1 < 2 ^ 31)
    : (socket.onEstablish1 addr seq).unbounded = socket.unbounded.onEstablish1 addr seq.toInt := by
  have set := socket.map_setConn Int32.toInt addr
    { socket.connectMap addr with nextSendSeq := 0 + 1, nextRecvSeq := seq + 1 }
  have conns := congrArg CTcpSocket.connectMap set
  simp only [unbounded, CTcpSocket.map, onEstablish1, mk.injEq]
  refine ⟨conns.trans ?_, by simp [SendListNode.map, Packet.map]⟩
  simp only [setConn, Conn.map, toInt_add_one fits]
  rfl

-----------------------------------------------------------------------------------------
-- Steps
-----------------------------------------------------------------------------------------

namespace CTcpSocket

/-- The step brings no counter past the largest number. -/
def Fits (socket : CTcpSocket Addr Int32) : Event Addr Int32 → Prop
  | .send addr buf =>
      (socket.connectMap addr).nextSendSeq.toInt + (payloads buf).length < 2 ^ 31
  | .arrive _ (.establish1 seq) => seq.toInt + 1 < 2 ^ 31
  | .arrive fromAddr (.data packet) =>
      ((socket.connectMap fromAddr).unbounded.onData packet.unbounded).nextRecvSeq < 2 ^ 31
  | .arrive _ (.establish2 _) | .arrive _ (.ack _) | .transmit _ _ => True

instance (socket : CTcpSocket Addr Int32) (event : Event Addr Int32)
    : Decidable (socket.Fits event) :=
  match event with
  | .send _ _ => inferInstanceAs (Decidable (_ < _))
  | .arrive _ (.establish1 _) => inferInstanceAs (Decidable (_ < _))
  | .arrive _ (.data _) => inferInstanceAs (Decidable (_ < _))
  | .arrive _ (.establish2 _) | .arrive _ (.ack _) | .transmit _ _ => isTrue trivial

theorem step_unbounded_of_fits {socket : CTcpSocket Addr Int32} {event : Event Addr Int32}
    (fits : socket.Fits event)
    : (socket.step event).map unbounded = socket.unbounded.step event.unbounded := by
  cases event with
  | send addr buf => exact congrArg some (queuePackets_unbounded fits)
  | transmit index clock =>
      simp only [step, Event.unbounded, Event.map, unbounded, map_sendThreadProc, Option.map_map]
      rfl
  | arrive fromAddr packet =>
      cases packet with
      | establish1 seq => exact congrArg some (onEstablish1_unbounded fromAddr fits)
      | establish2 seq => rfl
      | ack seq => exact congrArg some (socket.onAck_unbounded seq)
      | data packet =>
          have set := socket.map_setConn Int32.toInt fromAddr
            ((socket.connectMap fromAddr).onData packet)
          have received := Conn.onData_unbounded fits
          refine congrArg some (set.trans ?_)
          exact congrArg (socket.unbounded.setConn fromAddr) received

/-- A step is one of the socket with unbounded counters exactly when no counter passes the largest
number: no 32-bit counter reads as more.
-/
theorem step_unbounded_iff (socket : CTcpSocket Addr Int32) (event : Event Addr Int32)
    : (socket.step event).map unbounded = socket.unbounded.step event.unbounded
      ↔ socket.Fits event := by
  refine ⟨fun mapped => ?_, step_unbounded_of_fits⟩
  cases event with
  | transmit index clock => trivial
  | send addr buf =>
      have same := congrFun (congrArg connectMap (Option.some.inj mapped)) addr
      have sent := socket.unbounded.queuePackets_connectMap_self addr (payloads buf)
      have counter := congrArg Conn.nextSendSeq (same.trans sent)
      have small := ((socket.send addr buf).connectMap addr).nextSendSeq.toInt_lt
      exact counter.symm.trans_lt small
  | arrive fromAddr packet =>
      have same := congrFun (congrArg connectMap (Option.some.inj mapped)) fromAddr
      cases packet with
      | establish2 | ack => trivial
      | establish1 seq =>
          have set : ((socket.unbounded.onEstablish1 fromAddr seq.toInt).connectMap
              fromAddr).nextRecvSeq = seq.toInt + 1 := by
            simp [onEstablish1]
          have counter := (congrArg Conn.nextRecvSeq same).trans set
          have small :=
            ((socket.onEstablish1 fromAddr seq).connectMap fromAddr).nextRecvSeq.toInt_lt
          exact counter.symm.trans_lt small
      | data packet =>
          have set := socket.unbounded.setConn_connectMap_self fromAddr
            ((socket.connectMap fromAddr).unbounded.onData packet.unbounded)
          have counter := congrArg Conn.nextRecvSeq (same.trans set)
          have small := ((socket.setConn fromAddr
            ((socket.connectMap fromAddr).onData packet)).connectMap fromAddr).nextRecvSeq.toInt_lt
          exact counter.symm.trans_lt small

/-- With the 32-bit counters of the source a socket goes the way of the one with unbounded counters,
for any number of peers and whatever arrives, exactly as long as no counter passes the largest
number.
-/
theorem unbounded_iff_fits (socket : CTcpSocket Addr Int32) (events : List (Event Addr Int32))
    : (∀ done,
        done <+: events
        → (TransitionSystem.run step socket done).map unbounded
          = TransitionSystem.run step socket.unbounded (done.map Event.unbounded))
      ↔ TransitionSystem.Along step Fits socket events :=
  TransitionSystem.run_map_iff_along step_unbounded_iff

end CTcpSocket

end Unbounded

end SchoolSystem.TcpSocket
