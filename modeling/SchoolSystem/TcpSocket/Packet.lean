import Mathlib.Data.List.Basic
import Mathlib.Logic.Function.Basic

/-! The data model of `CTcpSocket`: packets, pending nodes and connections.
Sequence numbers are a type parameter: the counters are read both as unbounded integers
and as the 32-bit `int` of the source.
-/

namespace SchoolSystem.TcpSocket

abbrev Byte := UInt8

/-- `DATA_LEN`, the largest number of bytes one packet carries. -/
def dataLen : Nat := 1024

/-- A `DataPacket` of type `DATA`; `m_nLen` is the length of `data`. -/
structure DataPacket (Seq : Type) where
  seq : Seq
  data : List Byte
  deriving DecidableEq, Repr

/-- What is sent over the socket, by `PackageType`. -/
inductive Packet (Seq : Type)
  | establish1 (seq : Seq)
  | establish2 (seq : Seq)
  | data (packet : DataPacket Seq)
  | ack (seq : Seq)
  deriving DecidableEq, Repr

/-- `m_nSeq`, which every packet type has. -/
def Packet.seq {Seq : Type} : Packet Seq → Seq
  | .establish1 seq | .establish2 seq | .ack seq => seq
  | .data packet => packet.seq

def Packet.isData {Seq : Type} : Packet Seq → Bool
  | .data _ => true
  | .establish1 _ | .establish2 _ | .ack _ => false

/-- A node of `m_sendList`. A `time` of zero marks a node that was never sent. -/
structure SendListNode (Addr Seq : Type) where
  time : Int
  addr : Addr
  packet : Packet Seq
  deriving DecidableEq, Repr

/-- `m_nStatus`: 0 there is no data, 1 there is data, 2 the data is being received. -/
inductive Status
  | noData
  | hasData
  | receiving
  deriving DecidableEq, Repr

/-- The state of one connection. -/
structure Conn (Seq : Type) where
  nextSendSeq : Seq
  nextRecvSeq : Seq
  recvList : List (DataPacket Seq)
  byteStream : List Byte
  status : Status
  deriving DecidableEq, Repr

/-- `Conn()`, which `m_connectMap[addr]` uses for an address without an entry. -/
def Conn.new {Seq : Type} [OfNat Seq 0] : Conn Seq :=
  { nextSendSeq := 0, nextRecvSeq := 0, recvList := [], byteStream := [], status := .noData }

/-- A `CTcpSocket`: its connections by address, and the packets not yet acknowledged. -/
structure CTcpSocket (Addr Seq : Type) where
  connectMap : Addr → Conn Seq
  sendList : List (SendListNode Addr Seq)

/-- A socket before its first packet. -/
def CTcpSocket.new {Addr Seq : Type} [OfNat Seq 0] : CTcpSocket Addr Seq :=
  { connectMap := fun _ => Conn.new, sendList := [] }

variable {Addr Seq : Type} [DecidableEq Addr]

/-- Assigns through the reference `Conn& conn = m_connectMap[addr]`. -/
def CTcpSocket.setConn (socket : CTcpSocket Addr Seq) (addr : Addr) (conn : Conn Seq)
    : CTcpSocket Addr Seq :=
  { socket with connectMap := Function.update socket.connectMap addr conn }

@[simp]
theorem CTcpSocket.setConn_connectMap_self (socket : CTcpSocket Addr Seq) (addr : Addr)
    (conn : Conn Seq)
    : (socket.setConn addr conn).connectMap addr = conn := by
  simp [setConn]

@[simp]
theorem CTcpSocket.setConn_connectMap_ne (socket : CTcpSocket Addr Seq) {addr other : Addr}
    (conn : Conn Seq) (ne : other ≠ addr)
    : (socket.setConn addr conn).connectMap other = socket.connectMap other := by
  simp [setConn, ne]

@[simp]
theorem CTcpSocket.setConn_sendList (socket : CTcpSocket Addr Seq) (addr : Addr)
    (conn : Conn Seq)
    : (socket.setConn addr conn).sendList = socket.sendList := rfl

end SchoolSystem.TcpSocket
