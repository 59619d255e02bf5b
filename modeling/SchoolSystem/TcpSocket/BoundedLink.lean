import SchoolSystem.TcpSocket.Counters
import SchoolSystem.TcpSocket.Delivery

/-! The link with the 32-bit counters of the source. Until a side has numbered its packets up to the
largest number, the link goes the way of the one with unbounded counters.
-/

namespace SchoolSystem.TcpSocket

@[ext]
structure BoundedDatagram where
  dst : Side
  packet : Packet Int32
  deriving DecidableEq, Repr

/-- As `Link`, with the counters and numbers of the source. -/
structure BoundedLink where
  socket : Side → CTcpSocket Side Int32
  phase : ConnectPhase
  net : List BoundedDatagram
  passed : Side → List Byte
  numbered : Side → List (DataPacket Int32)
  written : Side → List Byte

namespace BoundedLink

def new : BoundedLink where
  socket := fun _ => CTcpSocket.new
  phase := .created
  net := []
  passed := fun _ => []
  numbered := fun _ => []
  written := fun _ => []

def conn (link : BoundedLink) (side : Side) : Conn Int32 :=
  (link.socket side).connectMap side.other

inductive Event
  | connect (clock : Int)
  | send (side : Side) (buf : List Byte)
  | transmit (side : Side) (index : Nat) (clock : Int)
  | arrive (datagram : BoundedDatagram)
  | lose (datagram : BoundedDatagram)
  | recv (side : Side) (nBufLen : Nat)
  deriving DecidableEq, Repr

def connect (link : BoundedLink) (clock : Int) : BoundedLink :=
  let (socket, packet) := (link.socket .client).connectStart .server clock
  {
    link with
    socket := Function.update link.socket .client socket
    phase := .waiting
    net := link.net ++ [⟨.server, packet⟩]
  }

def send (link : BoundedLink) (side : Side) (buf : List Byte) : BoundedLink :=
  {
    link with
    socket := Function.update link.socket side ((link.socket side).send side.other buf)
    passed := Function.update link.passed side (link.passed side ++ buf)
    numbered :=
      Function.update link.numbered side
        (link.numbered side ++ numberedFrom (link.conn side).nextSendSeq (payloads buf))
  }

def transmit (link : BoundedLink) (side : Side) (index : Nat) (clock : Int)
    : Option BoundedLink :=
  ((link.socket side).sendThreadProc index clock).map (fun (socket, packets) =>
    {
      link with
      socket := Function.update link.socket side socket
      net := link.net ++ packets.map (fun (dst, packet) => ⟨dst, packet⟩)
    })

def recvThread (link : BoundedLink) (side : Side) (packet : Packet Int32) : BoundedLink :=
  let (socket, replies) := (link.socket side).recvThreadProc side.other packet
  let stream := (socket.connectMap side.other).byteStream
  {
    link with
    socket := Function.update link.socket side socket
    net := link.net ++ replies.map (BoundedDatagram.mk side.other)
    written :=
      Function.update link.written side
        (link.written side ++ stream.drop (link.conn side).byteStream.length)
  }

def connectRecv (link : BoundedLink) : Packet Int32 → BoundedLink
  | .data _ => { link with phase := .failed }
  | packet =>
      let (socket, reply) := (link.socket .client).connectFinish .server packet.seq
      {
        link with
        socket := Function.update link.socket .client socket
        phase := .connected
        net := link.net ++ [⟨.server, reply⟩]
      }

def arrive (link : BoundedLink) (side : Side) (packet : Packet Int32) : Option BoundedLink :=
  match side, link.phase with
  | .server, _ => some (link.recvThread .server packet)
  | .client, .connected => some (link.recvThread .client packet)
  | .client, .waiting => some (link.connectRecv packet)
  | .client, .created => none
  | .client, .failed => none

def takeBytes (link : BoundedLink) (side : Side) (nBufLen : Nat) : BoundedLink :=
  {
    link with
    socket :=
      Function.update link.socket side
        ((link.socket side).setConn side.other
          {
            link.conn side with
            byteStream := (link.conn side).byteStream.drop nBufLen
          })
  }

def step (link : BoundedLink) : Event → Option BoundedLink
  | .connect clock => if link.phase = .created then some (link.connect clock) else none
  | .send side buf =>
      if side = .server ∨ link.phase = .connected then some (link.send side buf) else none
  | .transmit side index clock => link.transmit side index clock
  | .arrive datagram =>
      if datagram ∈ link.net then link.arrive datagram.dst datagram.packet else none
  | .lose datagram =>
      if datagram ∈ link.net then
        some { link with net := link.net.erase datagram }
      else
        none
  | .recv side nBufLen =>
      if (link.conn side).byteStream = [] then none else some (link.takeBytes side nBufLen)

-----------------------------------------------------------------------------------------
-- The same link with unbounded counters
-----------------------------------------------------------------------------------------

end BoundedLink

def BoundedDatagram.unbounded (datagram : BoundedDatagram) : Datagram :=
  ⟨datagram.dst, datagram.packet.unbounded⟩

namespace BoundedLink

def unbounded (link : BoundedLink) : Link where
  socket side := (link.socket side).unbounded
  phase := link.phase
  net := link.net.map BoundedDatagram.unbounded
  passed := link.passed
  numbered side := (link.numbered side).map DataPacket.unbounded
  written := link.written

def Event.unbounded : Event → Link.Event
  | .connect clock => .connect clock
  | .send side buf => .send side buf
  | .transmit side index clock => .transmit side index clock
  | .arrive datagram => .arrive datagram.unbounded
  | .lose datagram => .lose datagram.unbounded
  | .recv side nBufLen => .recv side nBufLen

/-- A `Send` brings `m_nNextSendSeq` to the largest number at most, so that the last packet has the
number before it.
-/
def Fits (link : BoundedLink) : Event → Prop
  | .send side buf => (link.conn side).nextSendSeq.toInt + (payloads buf).length < 2 ^ 31
  | .connect _ | .transmit _ _ _ | .arrive _ | .lose _ | .recv _ _ => True

instance (link : BoundedLink) (event : Event) : Decidable (link.Fits event) :=
  match event with
  | .send _ _ => inferInstanceAs (Decidable (_ < _))
  | .connect _ | .transmit _ _ _ | .arrive _ | .lose _ | .recv _ _ => isTrue trivial

variable {link next : BoundedLink} {event : Event} {side : Side}

/-- The handshake is complete and nothing was sent since. -/
def Established (link : BoundedLink) : Prop := link.unbounded.Established

end BoundedLink

end SchoolSystem.TcpSocket
