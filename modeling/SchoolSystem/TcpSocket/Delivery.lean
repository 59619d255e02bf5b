import SchoolSystem.TcpSocket.LinkSteps

/-! In-order delivery without loss on a link whose handshake is complete. -/

namespace SchoolSystem.TcpSocket.Link

/-- The bytes of `side` reach the other side's stream in order and cut at packets, and no
packet that `Send` numbered is lost.
-/
structure InOrder (link : Link) (side : Side) : Prop where
  isPrefix : link.written side.other <+: link.passed side
  boundary
    : ∃ count,
        link.written side.other
        = ((link.numbered side).take count).flatMap DataPacket.data
  kept
    : ∀ packet ∈ link.numbered side,
        (∃ node ∈ (link.socket side).sendList, node.packet = .data packet)
        ∨ packet.seq < (link.conn side.other).nextRecvSeq
        ∨ packet ∈ (link.conn side.other).recvList

theorem Sound.inOrder {late : Prop} {base : Side → Int} {link : Link}
    (sound : Sound late base link) (side : Side)
    : link.InOrder side where
  isPrefix := (sound.flow side).inOrder.1
  boundary := (sound.flow side).inOrder.2
  kept := by
    intro packet member
    rcases (sound.flow side).kept packet member with pending | received
    · obtain ⟨node, inList, same⟩ := List.mem_map.mp pending
      exact Or.inl ⟨node, inList, congrArg Prod.snd same⟩
    · exact Or.inr received

/-- A datagram from before the data: its number is one that the counters have passed. -/
def Stale (link : Link) (datagram : Datagram) : Prop :=
  match datagram.packet with
  | .establish1 _ => False
  | .establish2 seq => seq < (link.conn datagram.dst.other).nextSendSeq
  | .data packet => packet.seq < (link.conn datagram.dst.other).nextSendSeq
  | .ack seq => seq < (link.conn datagram.dst).nextSendSeq

/-- The handshake is complete and nothing was sent since: the counters agree, the lists and
streams are empty, and only stale datagrams are in flight.
-/
structure Established (link : Link) : Prop where
  connected : link.phase = .connected
  agreed : ∀ side, (link.conn side.other).nextRecvSeq = (link.conn side).nextSendSeq
  recvList : ∀ side, (link.conn side).recvList = []
  byteStream : ∀ side, (link.conn side).byteStream = []
  sendList : ∀ side, (link.socket side).sendList = []
  flying : ∀ datagram ∈ link.net, link.Stale datagram
  history
    : ∀ side, link.passed side = [] ∧ link.numbered side = [] ∧ link.written side = []

theorem Established.sound {link : Link} (established : link.Established)
    : Sound False (fun side => (link.conn side).nextSendSeq) link where
  connected := established.connected
  queued := by simp [CTcpSocket.pendingPackets, established.sendList]
  flying := by
    intro datagram member
    have stale := established.flying datagram member
    obtain ⟨dst, packet⟩ := datagram
    cases packet with
    | establish1 seq => exact stale.elim
    | establish2 seq => exact stale
    | data packet => trivial
    | ack seq => trivial
  flow := by
    intro side
    have agreed := established.agreed side
    obtain ⟨passed, numbered, _⟩ := established.history side
    obtain ⟨_, _, written⟩ := established.history side.other
    constructor
    · simpa [Link.flow, numbered] using
        NumberedLog.numbered_nil DataPacket.seq (link.conn side).nextSendSeq
    · simp [Link.flow, passed, numbered]
    · simp [Link.flow, CTcpSocket.pendingPackets, established.sendList]
    · intro packet member lower
      have stale : packet.seq < (link.conn side.other.other).nextSendSeq :=
        established.flying _ member
      rw [Side.other_other] at stale
      omega
    · simp [Link.flow, established.recvList]
    · simp [Link.flow, agreed]
    · simp [Link.flow, agreed]
    · simp [Link.flow, written, numbered]
    · intro seq member lower
      have stale : seq < (link.conn side).nextSendSeq := established.flying _ member
      omega
    · simp [Link.flow, numbered]

end SchoolSystem.TcpSocket.Link
