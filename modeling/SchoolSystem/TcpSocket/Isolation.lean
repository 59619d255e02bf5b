import SchoolSystem.TcpSocket.Socket

/-! Clients of one server socket, which share its list of pending packets.
Every connection numbers its packets from 0 on, and the `ACK` branch looks a packet up by its
number alone.
-/

namespace SchoolSystem.TcpSocket.CTcpSocket

/-- What happens to a server's socket: datagrams may arrive from any address, at any time and
any number of times.
-/
inductive Event (Addr Seq : Type)
  | send (addr : Addr) (buf : List Byte)
  | transmit (index : Nat) (clock : Int)
  | arrive (fromAddr : Addr) (packet : Packet Seq)
  deriving DecidableEq, Repr

variable {Addr Seq : Type} [DecidableEq Addr] [Add Seq] [OfNat Seq 0] [OfNat Seq 1]
  [DecidableEq Seq] [LT Seq] [DecidableLT Seq]

def step (socket : CTcpSocket Addr Seq) : Event Addr Seq → Option (CTcpSocket Addr Seq)
  | .send addr buf => some (socket.send addr buf)
  | .transmit index clock => (socket.sendThreadProc index clock).map Prod.fst
  | .arrive fromAddr packet => some (socket.recvThreadProc fromAddr packet).1

/-- The nodes that wait for an acknowledgement from this address. -/
def nodesFor (socket : CTcpSocket Addr Seq) (addr : Addr) : List (SendListNode Addr Seq) :=
  socket.sendList.filter (fun node => node.addr == addr)

/-- A step removes a pending packet only for an `ACK` of its number from its own address, and
a datagram touches nothing of any address but its source.
-/
structure Isolated (socket : CTcpSocket Addr Seq) (event : Event Addr Seq) : Prop where
  removed
    : ∀ next, socket.step event = some next
      → ∀ addr packet,
          next.pendingPackets.count (addr, packet)
            < socket.pendingPackets.count (addr, packet)
          → event = .arrive addr (.ack packet.seq)
  untouched
    : ∀ next, socket.step event = some next
      → ∀ fromAddr packet,
          event = .arrive fromAddr packet
          → ∀ addr, addr ≠ fromAddr
            → next.connectMap addr = socket.connectMap addr
              ∧ next.nodesFor addr = socket.nodesFor addr

/-- The first pending packet with the acknowledged number, if there is one, was sent to the
address that the `ACK` comes from.
-/
def OwnAck (socket : CTcpSocket Addr Seq) : Event Addr Seq → Prop
  | .arrive fromAddr (.ack seq) =>
      ∀ node,
        socket.sendList.find? (fun node => node.packet.seq == seq) = some node
        → node.addr = fromAddr
  | _ => True

-----------------------------------------------------------------------------------------
-- What each event does to the pending packets
-----------------------------------------------------------------------------------------

section Acknowledgement

omit [DecidableEq Addr] [Add Seq] [OfNat Seq 0] [OfNat Seq 1] [LT Seq] [DecidableLT Seq]

/-- An acknowledgement removes nothing, or the first node with its number. -/
theorem onAck_cases (socket : CTcpSocket Addr Seq) (seq : Seq)
    : (socket.sendList.find? (fun node => node.packet.seq == seq) = none
        ∧ socket.onAck seq = socket)
      ∨ ∃ node before after,
          socket.sendList.find? (fun node => node.packet.seq == seq) = some node
          ∧ node.packet.seq = seq
          ∧ socket.sendList = before ++ node :: after
          ∧ (socket.onAck seq).sendList = before ++ after := by
  cases found : socket.sendList.find? (fun node => node.packet.seq == seq) with
  | none =>
      have none : ∀ node ∈ socket.sendList, ¬ (node.packet.seq == seq) = true :=
        fun node member => List.find?_eq_none.mp found node member
      have kept : (socket.onAck seq).sendList = socket.sendList :=
        List.eraseP_of_forall_not none
      exact Or.inl ⟨rfl, congrArg (CTcpSocket.mk socket.connectMap) kept⟩
  | some node =>
      obtain ⟨same, before, after, split, earlier⟩ := List.find?_eq_some_iff_append.mp found
      refine Or.inr ⟨node, before, after, rfl, beq_iff_eq.mp same, split, ?_⟩
      have none : ∀ node ∈ before, ¬ (node.packet.seq == seq) = true := by
        intro other member
        simpa using earlier other member
      simp only [onAck, split]
      rw [List.eraseP_append_right _ none, List.eraseP_cons]
      simp [same]

end Acknowledgement

/-- Only an `ACK` takes a pending packet from the list. -/
theorem step_pendingPackets {socket next : CTcpSocket Addr Seq} {event : Event Addr Seq}
    (other : ∀ fromAddr seq, event ≠ .arrive fromAddr (.ack seq))
    (stepped : socket.step event = some next)
    : ∃ more, next.pendingPackets = socket.pendingPackets ++ more := by
  cases event with
  | send addr buf =>
      obtain rfl := Option.some.inj stepped
      exact ⟨_, socket.queuePackets_pendingPackets addr (payloads buf)⟩
  | transmit index clock =>
      obtain ⟨result, sent, rfl⟩ := Option.map_eq_some_iff.mp stepped
      exact ⟨[], by rw [List.append_nil, (sendThreadProc_spec sent).2.1]⟩
  | arrive fromAddr packet =>
      obtain rfl := Option.some.inj stepped
      cases packet with
      | establish1 seq => exact ⟨_, socket.onEstablish1_pendingPackets fromAddr seq⟩
      | establish2 seq => exact ⟨[], (List.append_nil _).symm⟩
      | data packet => exact ⟨[], (List.append_nil _).symm⟩
      | ack seq => exact absurd rfl (other fromAddr seq)

/-- An arriving packet other than an `ACK` touches its source's connection and nodes only, by
the cases of the packet type.
-/
theorem recvThreadProc_untouched (socket : CTcpSocket Addr Seq) {fromAddr addr : Addr}
    {packet : Packet Seq} (ne : addr ≠ fromAddr) (other : ∀ seq, packet ≠ .ack seq)
    : (socket.recvThreadProc fromAddr packet).1.connectMap addr = socket.connectMap addr
      ∧ (socket.recvThreadProc fromAddr packet).1.nodesFor addr = socket.nodesFor addr := by
  cases packet with
  | establish1 seq =>
      have differs : (fromAddr == addr) = false := beq_false_of_ne ne.symm
      simp [recvThreadProc, onEstablish1, nodesFor, ne, differs]
  | establish2 seq => exact ⟨rfl, rfl⟩
  | data packet => exact ⟨socket.setConn_connectMap_ne _ ne, rfl⟩
  | ack seq => exact absurd rfl (other seq)

/-- Acknowledging a node of the source takes one of its packets and touches no other
address.
-/
theorem isolated_ack {socket : CTcpSocket Addr Seq} {fromAddr : Addr} {seq : Seq}
    (own : socket.OwnAck (.arrive fromAddr (.ack seq)))
    : socket.Isolated (.arrive fromAddr (.ack seq)) := by
  rcases socket.onAck_cases seq with
    ⟨_, same⟩ | ⟨node, before, after, found, number, split, removed⟩
  · constructor
    · intro next stepped addr packet fewer
      obtain rfl := Option.some.inj stepped
      simp only [recvThreadProc, same, lt_irrefl] at fewer
    · intro next stepped _ _ _ addr _
      obtain rfl := Option.some.inj stepped
      simp only [recvThreadProc, same, and_self]
  · have address : node.addr = fromAddr := own node found
    constructor
    · intro next stepped addr packet fewer
      obtain rfl := Option.some.inj stepped
      by_cases taken : (node.addr, node.packet) = (addr, packet)
      · obtain ⟨rfl, rfl⟩ := Prod.mk.inj taken
        rw [address, number]
      · simp [recvThreadProc, pendingPackets, removed, split, taken] at fewer
    · intro next stepped source packet same addr ne
      obtain rfl := Option.some.inj stepped
      obtain ⟨rfl, _⟩ := Event.arrive.inj same
      have differs : (node.addr == addr) = false := by
        rw [address]
        exact beq_false_of_ne ne.symm
      refine ⟨rfl, ?_⟩
      simp [recvThreadProc, nodesFor, removed, split, differs]

/-- A step is isolated exactly when an `ACK` it handles finds a packet of its own source. -/
theorem isolated_iff (socket : CTcpSocket Addr Seq) (event : Event Addr Seq)
    : socket.Isolated event ↔ socket.OwnAck event := by
  constructor
  · intro isolated
    unfold OwnAck
    split
    · rename_i fromAddr seq
      intro node found
      obtain ⟨same, before, after, split, _⟩ := List.find?_eq_some_iff_append.mp found
      rcases socket.onAck_cases seq with
        ⟨none, _⟩ | ⟨taken, front, back, again, _, cut, removed⟩
      · rw [none] at found
        cases found
      · obtain rfl := Option.some.inj (again.symm.trans found)
        have fewer
            : (socket.recvThreadProc fromAddr (.ack seq)).1.pendingPackets.count
                  (taken.addr, taken.packet)
                < socket.pendingPackets.count (taken.addr, taken.packet) := by
          simp [recvThreadProc, pendingPackets, removed, cut]
        exact (Event.arrive.inj (isolated.removed _ rfl _ _ fewer)).1.symm
    · trivial
  · intro own
    by_cases ack : ∃ fromAddr seq, event = .arrive fromAddr (.ack seq)
    · obtain ⟨fromAddr, seq, rfl⟩ := ack
      exact isolated_ack own
    · push Not at ack
      constructor
      · intro next stepped addr packet fewer
        obtain ⟨more, appended⟩ := step_pendingPackets ack stepped
        rw [appended, List.count_append] at fewer
        omega
      · rintro next stepped fromAddr packet rfl addr ne
        obtain rfl := Option.some.inj stepped
        exact socket.recvThreadProc_untouched ne
          (fun seq same => ack fromAddr seq (by rw [same]))

/-- Along every run, connections are isolated from each other exactly when every `ACK` that
arrives finds first, among the packets with its number, one sent to its own source.
-/
theorem isolated_along_iff (socket : CTcpSocket Addr Seq) (events : List (Event Addr Seq))
    : TransitionSystem.Along step Isolated socket events
      ↔ TransitionSystem.Along step OwnAck socket events :=
  TransitionSystem.along_congr isolated_iff

/-- Two clients connect, and only the second one receives its handshake packet: its
acknowledgement removes the packet that is pending for the first one.
-/
theorem isolated_not_always
    : ¬ ∀ events : List (Event Nat Int),
        TransitionSystem.Along step Isolated (CTcpSocket.new : CTcpSocket Nat Int) events := by
  intro isolated
  have along := isolated
    [
      .arrive 1 (.establish1 0),
      .arrive 2 (.establish1 0),
      .transmit 0 20,
      .transmit 1 20,
      .arrive 2 (.ack 0)
    ]
  have last := ((((along.2 _ rfl).2 _ rfl).2 _ rfl).2 _ rfl).1
  have source := last.removed _ rfl 1 (.establish2 0) (by decide)
  cases source

end SchoolSystem.TcpSocket.CTcpSocket
