import Mathlib.Order.Basic
import SchoolSystem.Library.LittleEndian
import SchoolSystem.TcpSocket.Isolation

/-! The datagrams themselves: what the senders put on the wire, and what `RecvThreadProc`
makes of the bytes it receives.
It receives into a zeroed `DataPacket` and never looks at the number of bytes received.
-/

namespace SchoolSystem.TcpSocket

/-- `PackageType`. -/
inductive PackageType
  | establish1
  | establish2
  | data
  | ack
  deriving DecidableEq, Repr

def PackageType.value : PackageType → Int32
  | .establish1 => 0
  | .establish2 => 1
  | .data => 2
  | .ack => 3

def Packet.packageType {Seq : Type} : Packet Seq → PackageType
  | .establish1 _ => .establish1
  | .establish2 _ => .establish2
  | .data _ => .data
  | .ack _ => .ack

/-- An `int` in memory. -/
def intBytes (n : Int32) : List Byte :=
  LittleEndian.encode 4 n.toUInt32.toNat

/-- The `int` at an offset of an object in memory. -/
def intAt (image : List Byte) (offset : Nat) : Int32 :=
  (UInt32.ofNat (LittleEndian.decode ((image.drop offset).take 4))).toInt32

/-- The bytes that `sendto` gets: `sizeof(Packet)` of them, or `DataPacket::Size()`. -/
def Packet.wire (packet : Packet Int32) : List Byte :=
  intBytes packet.packageType.value
  ++ (intBytes packet.seq
    ++ match packet with
      | .data packet => intBytes (Int32.ofNat packet.data.length) ++ packet.data
      | .establish1 _ | .establish2 _ | .ack _ => [])

/-- `Send` gives a `DATA` packet between 1 and `DATA_LEN` bytes. -/
def Packet.Sendable {Seq : Type} : Packet Seq → Prop
  | .data packet => 1 ≤ packet.data.length ∧ packet.data.length ≤ dataLen
  | .establish1 _ | .establish2 _ | .ack _ => True

/-- `sizeof(DataPacket)`. -/
def sizeofDataPacket : Nat := 12 + dataLen

/-- What `recvfrom` can return into a `DataPacket`. -/
structure UdpDatagram where
  bytes : List Byte
  fits : bytes.length ≤ sizeofDataPacket

namespace UdpDatagram

/-- The memory of the zeroed `DataPacket` after the bytes were received into it. -/
def image (datagram : UdpDatagram) : List Byte :=
  datagram.bytes ++ List.replicate (sizeofDataPacket - datagram.bytes.length) 0

def type (datagram : UdpDatagram) : Int32 := intAt datagram.image 0

def seq (datagram : UdpDatagram) : Int32 := intAt datagram.image 4

def len (datagram : UdpDatagram) : Int32 := intAt datagram.image 8

/-- What `m_byteStream.Write(m_data, m_nLen)` takes: nothing for a negative `m_nLen`, and the
memory `beyond` the packet for one larger than `DATA_LEN`.
-/
def data (datagram : UdpDatagram) (beyond : Nat → Byte) : List Byte :=
  let nLen := datagram.len.toInt.toNat
  (datagram.image.drop 12 ++ (List.range (nLen - dataLen)).map beyond).take nLen

/-- The branch that `RecvThreadProc` takes, or none of them. -/
def packet (datagram : UdpDatagram) (beyond : Nat → Byte) : Option (Packet Int32) :=
  if datagram.type = PackageType.establish1.value then
    some (.establish1 datagram.seq)
  else if datagram.type = PackageType.establish2.value then
    some (.establish2 datagram.seq)
  else if datagram.type = PackageType.data.value then
    some (.data ⟨datagram.seq, datagram.data beyond⟩)
  else if datagram.type = PackageType.ack.value then
    some (.ack datagram.seq)
  else
    none

/-- The wire image of a packet that a sender can produce. -/
def WellFormed (datagram : UdpDatagram) : Prop :=
  ∃ packet : Packet Int32, packet.Sendable ∧ datagram.bytes = packet.wire

end UdpDatagram

variable {Addr : Type} [DecidableEq Addr]

/-- `RecvThreadProc` for one datagram. -/
def CTcpSocket.recvBytes (socket : CTcpSocket Addr Int32) (fromAddr : Addr)
    (datagram : UdpDatagram) (beyond : Nat → Byte)
    : CTcpSocket Addr Int32 × List (Packet Int32) :=
  match datagram.packet beyond with
  | some packet => socket.recvThreadProc fromAddr packet
  | none => (socket, [])

-----------------------------------------------------------------------------------------
-- Round trip
-----------------------------------------------------------------------------------------

@[simp]
theorem intBytes_length (n : Int32) : (intBytes n).length = 4 :=
  LittleEndian.encode_length 4 _

/-- A control packet is `sizeof(Packet)` bytes long, and a `DATA` packet `Size()` bytes. -/
theorem Packet.wire_length (packet : Packet Int32)
    : packet.wire.length
      = match packet with
        | .data packet => 12 + packet.data.length
        | .establish1 _ | .establish2 _ | .ack _ => 8 := by
  cases packet with
  | data packet => simp [wire, ← Nat.add_assoc]
  | establish1 seq => simp [wire]
  | establish2 seq => simp [wire]
  | ack seq => simp [wire]

/-- No well-formed datagram is shorter than a `DATA` packet with one byte, except for the
control packets.
-/
theorem UdpDatagram.WellFormed.length {datagram : UdpDatagram}
    (wellFormed : datagram.WellFormed)
    : datagram.bytes.length = 8 ∨ 13 ≤ datagram.bytes.length := by
  obtain ⟨packet, sendable, wire⟩ := wellFormed
  rw [wire, packet.wire_length]
  cases packet with
  | data packet =>
      have one : 1 ≤ packet.data.length := sendable.1
      exact Or.inr (Nat.add_le_add_left one 12)
  | establish1 seq => exact Or.inl rfl
  | establish2 seq => exact Or.inl rfl
  | ack seq => exact Or.inl rfl

/-- An `int` is read back from where it was written. -/
theorem intAt_intBytes (n : Int32) {before : List Byte} {offset : Nat}
    (place : before.length = offset) (after : List Byte)
    : intAt (before ++ (intBytes n ++ after)) offset = n := by
  have field : ((before ++ (intBytes n ++ after)).drop offset).take 4 = intBytes n := by
    rw [List.drop_left' place, List.take_left' (intBytes_length n)]
  rw [intAt, field, intBytes, LittleEndian.decode_encode 4 n.toUInt32.toNat_lt]
  simp

/-- The memory after a packet's wire image was received, by its fields. -/
theorem UdpDatagram.fields {datagram : UdpDatagram} {packet : Packet Int32}
    (wire : datagram.bytes = packet.wire)
    : datagram.type = packet.packageType.value ∧ datagram.seq = packet.seq := by
  constructor
  · simp only [type, image, wire, Packet.wire, List.append_assoc]
    exact intAt_intBytes _ (List.length_nil) _
  · simp only [seq, image, wire, Packet.wire, List.append_assoc]
    exact intAt_intBytes _ (intBytes_length _) _

/-- Of a well-formed `DATA` packet exactly its payload is written. -/
theorem UdpDatagram.data_wire {datagram : UdpDatagram} {packet : DataPacket Int32}
    (sendable : (Packet.data packet).Sendable)
    (wire : datagram.bytes = (Packet.data packet).wire) (beyond : Nat → Byte)
    : datagram.data beyond = packet.data := by
  have small : packet.data.length ≤ 1024 := sendable.2
  have image : datagram.image
      = (intBytes PackageType.data.value ++ intBytes packet.seq)
        ++ (intBytes (Int32.ofNat packet.data.length)
          ++ (packet.data
            ++ List.replicate (sizeofDataPacket - datagram.bytes.length) 0)) := by
    rw [UdpDatagram.image]
    nth_rewrite 1 [wire]
    simp only [Packet.wire, Packet.packageType, Packet.seq, List.append_assoc]
  have len : datagram.len.toInt.toNat = packet.data.length := by
    rw [UdpDatagram.len, image, intAt_intBytes _ (by simp), Int32.toInt_ofNat_of_lt (by omega)]
    exact Int.toNat_natCast _
  have payload : datagram.image.drop 12
      = packet.data ++ List.replicate (sizeofDataPacket - datagram.bytes.length) 0 := by
    rw [image, ← List.append_assoc]
    exact List.drop_left' (by simp)
  simp only [UdpDatagram.data, len, payload, List.append_assoc]
  exact List.take_left' rfl

/-- Every packet that a sender can produce is received as itself. -/
theorem UdpDatagram.packet_wire {datagram : UdpDatagram} {packet : Packet Int32}
    (sendable : packet.Sendable) (wire : datagram.bytes = packet.wire) (beyond : Nat → Byte)
    : datagram.packet beyond = some packet := by
  obtain ⟨type, seq⟩ := datagram.fields wire
  cases packet with
  | establish1 number => simp [UdpDatagram.packet, type, seq, Packet.packageType, Packet.seq]
  | establish2 number =>
      simp [UdpDatagram.packet, type, seq, Packet.packageType, Packet.seq,
        PackageType.value]
  | ack number =>
      simp [UdpDatagram.packet, type, seq, Packet.packageType, Packet.seq,
        PackageType.value]
  | data packet =>
      have payload := datagram.data_wire sendable wire beyond
      simp [UdpDatagram.packet, type, seq, payload, Packet.packageType, Packet.seq,
        PackageType.value]

-----------------------------------------------------------------------------------------
-- Packets that change nothing
-----------------------------------------------------------------------------------------

section Drain

variable {Seq : Type} [Add Seq] [OfNat Seq 1] [DecidableEq Seq]

/-- Draining leaves the connection as it is or takes packets from the list, by cases on the
first held packet.
-/
theorem Conn.drain_cases (conn : Conn Seq) (held : List (DataPacket Seq))
    : conn.drain held = { conn with recvList := held }
      ∨ (conn.drain held).recvList.length < held.length := by
  induction held generalizing conn with
  | nil => exact Or.inl rfl
  | cons head rest ih =>
      rw [drain]
      split
      · refine Or.inr ?_
        rcases ih (conn.deliver head.data) with same | fewer
        · rw [same]
          exact Nat.lt_succ_self rest.length
        · exact fewer.trans (Nat.lt_succ_self rest.length)
      · exact Or.inl rfl

end Drain

/-- A `DATA` packet leaves the connection only when its number has passed. -/
theorem Conn.onData_eq_iff (conn : Conn Int32) (packet : DataPacket Int32)
    : conn.onData packet = conn ↔ packet.seq < conn.nextRecvSeq := by
  by_cases inTurn : packet.seq = conn.nextRecvSeq
  · refine iff_of_false ?_ (by rw [inTurn]; exact Int32.lt_irrefl)
    intro unchanged
    rw [onData, if_pos inTurn] at unchanged
    rcases (conn.deliver packet.data).drain_cases conn.recvList with same | fewer
    · rw [same] at unchanged
      have next : conn.nextRecvSeq + 1 = conn.nextRecvSeq :=
        congrArg Conn.nextRecvSeq unchanged
      simp at next
    · rw [unchanged] at fewer
      exact absurd fewer (Nat.lt_irrefl _)
  · by_cases ahead : conn.nextRecvSeq < packet.seq
    · refine iff_of_false ?_ (Int32.lt_asymm ahead)
      intro unchanged
      rw [onData, if_neg inTurn, if_pos ahead] at unchanged
      have held : insertPacket packet conn.recvList = conn.recvList :=
        congrArg Conn.recvList unchanged
      have longer := (insertPacket_perm packet conn.recvList).length_eq
      rw [held, List.length_cons] at longer
      exact absurd longer (Nat.ne_of_lt (Nat.lt_succ_self _))
    · have passed : packet.seq < conn.nextRecvSeq :=
        (Int32.lt_or_eq_of_le (Int32.not_lt.mp ahead)).resolve_right inTurn
      refine iff_of_true ?_ passed
      rw [onData, if_neg inTurn, if_neg ahead]

namespace CTcpSocket

/-- No connection and no pending packet differs. -/
def SameState (socket next : CTcpSocket Addr Int32) : Prop :=
  next.connectMap = socket.connectMap ∧ next.sendList = socket.sendList

/-- The packets that leave the state as it is. -/
def Ignores (socket : CTcpSocket Addr Int32) (fromAddr : Addr) (type seq : Int32) : Prop :=
  (type ≠ PackageType.establish1.value
    ∧ type ≠ PackageType.data.value
    ∧ type ≠ PackageType.ack.value)
  ∨ (type = PackageType.data.value ∧ seq < (socket.connectMap fromAddr).nextRecvSeq)
  ∨ (type = PackageType.ack.value ∧ ∀ node ∈ socket.sendList, node.packet.seq ≠ seq)

theorem sameState_data_iff (socket : CTcpSocket Addr Int32) (fromAddr : Addr)
    (packet : DataPacket Int32)
    : socket.SameState (socket.recvThreadProc fromAddr (.data packet)).1
      ↔ packet.seq < (socket.connectMap fromAddr).nextRecvSeq := by
  rw [← Conn.onData_eq_iff]
  constructor
  · intro same
    have conn := congrFun same.1 fromAddr
    simpa [recvThreadProc] using conn
  · intro same
    refine ⟨?_, rfl⟩
    simp [recvThreadProc, setConn, same]

omit [DecidableEq Addr] in
theorem sameState_ack_iff (socket : CTcpSocket Addr Int32) (seq : Int32)
    : socket.SameState (socket.onAck seq)
      ↔ ∀ node ∈ socket.sendList, node.packet.seq ≠ seq := by
  rcases socket.onAck_cases seq with
    ⟨none, same⟩ | ⟨node, before, after, found, number, split, removed⟩
  · refine iff_of_true (by rw [same]; exact ⟨rfl, rfl⟩) ?_
    intro node member equal
    have differs := List.find?_eq_none.mp none node member
    simp [equal] at differs
  · refine iff_of_false ?_ (fun all => all node (by rw [split]; simp) number)
    intro same
    have length := congrArg List.length (same.2.symm.trans removed)
    rw [split] at length
    simp at length

/-- What `RecvThreadProc` ignores, by the branch that a datagram takes. -/
theorem sameState_recvBytes_iff (socket : CTcpSocket Addr Int32) (fromAddr : Addr)
    (datagram : UdpDatagram) (beyond : Nat → Byte)
    : socket.SameState (socket.recvBytes fromAddr datagram beyond).1
      ↔ socket.Ignores fromAddr datagram.type datagram.seq := by
  unfold recvBytes UdpDatagram.packet Ignores
  by_cases establish1 : datagram.type = PackageType.establish1.value
  · rw [if_pos establish1, establish1]
    refine iff_of_false ?_ (by simp [PackageType.value])
    intro same
    have length := congrArg List.length same.2
    simp [recvThreadProc, onEstablish1] at length
  · rw [if_neg establish1]
    by_cases establish2 : datagram.type = PackageType.establish2.value
    · rw [if_pos establish2, establish2]
      exact iff_of_true ⟨rfl, rfl⟩ (Or.inl (by decide))
    · rw [if_neg establish2]
      by_cases data : datagram.type = PackageType.data.value
      · rw [if_pos data, data]
        have only := socket.sameState_data_iff fromAddr ⟨datagram.seq, datagram.data beyond⟩
        simpa [PackageType.value] using only
      · rw [if_neg data]
        by_cases ack : datagram.type = PackageType.ack.value
        · rw [if_pos ack, ack]
          simpa [PackageType.value, recvThreadProc] using socket.sameState_ack_iff datagram.seq
        · rw [if_neg ack]
          exact iff_of_true ⟨rfl, rfl⟩ (Or.inl ⟨establish1, data, ack⟩)

-----------------------------------------------------------------------------------------
-- What the receiver accepts
-----------------------------------------------------------------------------------------

/-- A datagram that no sender can produce changes nothing, and of a `DATA` packet exactly its
payload is received.
-/
structure AcceptsOnly (socket : CTcpSocket Addr Int32) (fromAddr : Addr)
    (datagram : UdpDatagram) (beyond : Nat → Byte)
    : Prop where
  refused
    : ¬ datagram.WellFormed
      → socket.SameState (socket.recvBytes fromAddr datagram beyond).1
  payload
    : ∀ packet : DataPacket Int32,
        (Packet.data packet).Sendable
        → datagram.bytes = (Packet.data packet).wire
        → (socket.recvBytes fromAddr datagram beyond).1.connectMap fromAddr
          = (socket.connectMap fromAddr).onData packet

/-- The receiver accepts exactly what the senders can produce, except where a malformed
datagram happens to be one that it ignores.
-/
theorem acceptsOnly_iff (socket : CTcpSocket Addr Int32) (fromAddr : Addr)
    (datagram : UdpDatagram) (beyond : Nat → Byte)
    : socket.AcceptsOnly fromAddr datagram beyond
      ↔ datagram.WellFormed ∨ socket.Ignores fromAddr datagram.type datagram.seq := by
  rw [← socket.sameState_recvBytes_iff fromAddr datagram beyond]
  constructor
  · intro accepts
    by_cases wellFormed : datagram.WellFormed
    · exact Or.inl wellFormed
    · exact Or.inr (accepts.refused wellFormed)
  · intro known
    refine ⟨fun malformed => known.resolve_left malformed, ?_⟩
    intro packet sendable wire
    simp [recvBytes, datagram.packet_wire sendable wire beyond, recvThreadProc]

instance (socket : CTcpSocket Addr Int32) (fromAddr : Addr) (type seq : Int32)
    : Decidable (socket.Ignores fromAddr type seq) :=
  inferInstanceAs (Decidable (_ ∨ _ ∨ _))

/-- An empty datagram is a handshake packet, and a bare `DATA` header that announces three
bytes writes three.
-/
theorem acceptsOnly_not_always
    : ¬ (CTcpSocket.new : CTcpSocket Nat Int32).AcceptsOnly 1 ⟨[], by decide⟩ (fun _ => 0)
      ∧ ¬ (CTcpSocket.new : CTcpSocket Nat Int32).AcceptsOnly 1
          ⟨[2, 0, 0, 0, 0, 0, 0, 0, 3, 0, 0, 0], by decide⟩ (fun _ => 0) := by
  constructor
  · intro accepts
    have changes : ¬ (CTcpSocket.new : CTcpSocket Nat Int32).Ignores 1
        (UdpDatagram.mk [] (by decide)).type (UdpDatagram.mk [] (by decide)).seq := by
      decide
    refine changes ((sameState_recvBytes_iff _ _ _ _).mp (accepts.refused ?_))
    intro wellFormed
    have length := wellFormed.length
    revert length
    decide
  · intro accepts
    have changes : ¬ (CTcpSocket.new : CTcpSocket Nat Int32).Ignores 1
        (UdpDatagram.mk [2, 0, 0, 0, 0, 0, 0, 0, 3, 0, 0, 0] (by decide)).type
        (UdpDatagram.mk [2, 0, 0, 0, 0, 0, 0, 0, 3, 0, 0, 0] (by decide)).seq := by
      decide
    refine changes ((sameState_recvBytes_iff _ _ _ _).mp (accepts.refused ?_))
    intro wellFormed
    have length := wellFormed.length
    revert length
    decide

end CTcpSocket

end SchoolSystem.TcpSocket
