import Mathlib.Algebra.Order.BigOperators.Group.List
import SchoolSystem.Library.KeyedList
import SchoolSystem.TcpSocket.Isolation

/-! How often `SendThreadProc` sends: a pending packet goes out when it is queued and then at most
once in 1000 ticks, whatever the number of passes.
-/

namespace SchoolSystem.TcpSocket

variable {Addr Seq : Type}

/-- The most times that a node can still be sent up to a clock. -/
def SendListNode.left (now : Int) (node : SendListNode Addr Seq) : Nat :=
  if node.time = 0 then (now / 1000).toNat + 1 else (now / 1000 - node.time / 1000).toNat

namespace CTcpSocket

/-- The times that the wanted packets that are pending can still be sent up to a clock. -/
def left (wanted : Addr × Packet Seq → Bool) (now : Int) (socket : CTcpSocket Addr Seq) : Nat :=
  (socket.sendList.map
    (fun node => if wanted (node.addr, node.packet) then node.left now else 0)).sum

/-- The datagrams that `SendThreadProc` sends with an event. -/
def sends (socket : CTcpSocket Addr Seq) : Event Addr Seq → List (Addr × Packet Seq)
  | .transmit index clock =>
      match socket.sendThreadProc index clock with
      | some (_, sent) => sent
      | none => []
  | .send _ _ | .arrive _ _ => []

/-- The clock of an iteration of `SendThreadProc` has started, and has come to `now` at most. -/
def Ticks (now : Int) (_ : CTcpSocket Addr Seq) : Event Addr Seq → Prop
  | .transmit _ clock => 0 < clock ∧ clock ≤ now
  | .send _ _ | .arrive _ _ => True

instance decidableTicks (now : Int) (socket : CTcpSocket Addr Seq) (event : Event Addr Seq)
    : Decidable (Ticks now socket event) :=
  match event with
  | .transmit _ clock => inferInstanceAs (Decidable (0 < clock ∧ clock ≤ now))
  | .send _ _ | .arrive _ _ => isTrue trivial

/-- The packets that an event appends to `m_sendList`. -/
def queues [Add Seq] [OfNat Seq 0] [OfNat Seq 1] (socket : CTcpSocket Addr Seq)
    : Event Addr Seq → List (Addr × Packet Seq)
  | .send addr buf =>
      (numberedFrom (socket.connectMap addr).nextSendSeq (payloads buf)).map
        (fun packet => (addr, .data packet))
  | .arrive fromAddr (.establish1 _) => [(fromAddr, .establish2 0)]
  | .arrive _ (.establish2 _) | .arrive _ (.data _) | .arrive _ (.ack _) | .transmit _ _ => []

variable {socket next : CTcpSocket Addr Seq} {wanted : Addr × Packet Seq → Bool} {now clock : Int}
  {index : Nat}

-----------------------------------------------------------------------------------------
-- One node
-----------------------------------------------------------------------------------------

/-- A node that is sent can be sent once less. -/
theorem left_due {node : SendListNode Addr Seq} (due : node.due clock = true) (started : 0 < clock)
    (upTo : clock ≤ now)
    : ({ node with time := clock } : SendListNode Addr Seq).left now + 1 ≤ node.left now := by
  have started' : clock ≠ 0 := Ne.symm (Int.ne_of_lt started)
  simp only [SendListNode.left, if_neg started']
  simp only [SendListNode.due, Bool.or_eq_true, beq_iff_eq, decide_eq_true_eq] at due
  split
  · omega
  · rcases due with never | since
    · exact absurd never ‹_›
    · omega

/-- An iteration sends what it takes from what is left of its node. -/
theorem transmit_left (node : SendListNode Addr Seq) (started : 0 < clock) (upTo : clock ≤ now)
    : (node.transmit clock).2.length + (node.transmit clock).1.left now ≤ node.left now := by
  rw [SendListNode.transmit]
  split
  · rename_i due
    have less := left_due due started upTo
    split <;> simp only [List.length_singleton, List.length_nil] <;> omega
  · exact Nat.le_of_eq (Nat.zero_add _)

-----------------------------------------------------------------------------------------
-- One step
-----------------------------------------------------------------------------------------

/-- Nodes that were never sent can be sent once at once and then every 1000 ticks, by induction on
the nodes.
-/
theorem left_fresh (more : List (Addr × Packet Seq))
    : ((more.map (fun entry => (⟨0, entry.1, entry.2⟩ : SendListNode Addr Seq))).map
        (fun node => if wanted (node.addr, node.packet) then node.left now else 0)).sum
      = ((now / 1000).toNat + 1) * more.countP wanted := by
  induction more with
  | nil => rfl
  | cons entry rest ih =>
      rw [List.map_cons, List.map_cons, List.sum_cons, ih, List.countP_cons, Nat.mul_add]
      by_cases one : wanted entry <;> simp [one, SendListNode.left, Nat.add_comm]

theorem left_of_append {more : List (Addr × Packet Seq)}
    (sendList
      : next.sendList = socket.sendList ++ more.map (fun entry => ⟨0, entry.1, entry.2⟩))
    : next.left wanted now
      = socket.left wanted now + ((now / 1000).toNat + 1) * more.countP wanted := by
  rw [left, left, sendList, List.map_append, List.sum_append, left_fresh]

section Queueing

variable [DecidableEq Addr] [Add Seq] [OfNat Seq 1]

/-- `Send` queues nodes that were never sent, by induction on the payloads. -/
theorem queuePackets_sendList (socket : CTcpSocket Addr Seq) (addr : Addr)
    (data : List (List Byte))
    : (socket.queuePackets addr data).sendList
      = socket.sendList
        ++ ((numberedFrom (socket.connectMap addr).nextSendSeq data).map
            (fun packet => (addr, Packet.data packet))).map
            (fun entry => ⟨0, entry.1, entry.2⟩) := by
  induction data generalizing socket with
  | nil => simp [queuePackets, numberedFrom]
  | cons head rest ih =>
      have tail := ih (socket.queuePacket addr head)
      simpa [queuePackets, queuePacket, numberedFrom] using tail

end Queueing

/-- An iteration takes what it sends from what is left of its node. -/
theorem sendThreadProc_left {sent : List (Addr × Packet Seq)}
    (iteration : socket.sendThreadProc index clock = some (next, sent)) (started : 0 < clock)
    (upTo : clock ≤ now)
    : sent.countP wanted + next.left wanted now ≤ socket.left wanted now := by
  obtain ⟨node, found, result⟩ := Option.map_eq_some_iff.mp iteration
  obtain ⟨before, after, whole, _, set⟩ := KeyedList.split_at found
  obtain ⟨addr, packet, packets⟩ := node.transmit_spec clock
  have less := transmit_left node started upTo
  cases transmitted : node.transmit clock with
  | mk sentNode sentPackets =>
      rw [transmitted] at addr packet packets less result
      obtain ⟨rfl, rfl⟩ := Prod.mk.inj result
      dsimp only at addr packet packets less
      simp only [left]
      rw [set sentNode, whole]
      simp only [List.map_append, List.map_cons, List.sum_append, List.sum_cons, addr, packet]
      by_cases one : wanted (node.addr, node.packet)
      · have all := (sentPackets.map (fun packet => (node.addr, packet))).countP_le_length
          (p := wanted)
        rw [List.length_map] at all
        simp only [one, if_true]
        omega
      · have none : (sentPackets.map (fun packet => (node.addr, packet))).countP wanted = 0 := by
          refine List.countP_eq_zero.mpr (fun datagram member => ?_)
          obtain ⟨sentPacket, inside, rfl⟩ := List.mem_map.mp member
          rwa [(packets sentPacket inside).1]
        simp [one, none]

variable [DecidableEq Addr] [Add Seq] [OfNat Seq 0] [OfNat Seq 1] [DecidableEq Seq] [LT Seq]
  [DecidableLT Seq] {event : Event Addr Seq}

/-- What a step sends is paid for by the packets that it queues and by what was left. -/
theorem step_left (ticks : socket.Ticks now event) (stepped : socket.step event = some next)
    : (socket.sends event).countP wanted + next.left wanted now
      ≤ socket.left wanted now
        + ((now / 1000).toNat + 1) * (socket.queues event).countP wanted := by
  cases event with
  | send addr buf =>
      obtain rfl := Option.some.inj stepped
      have queued := socket.queuePackets_sendList addr (payloads buf)
      have more := @left_of_append _ _ socket (socket.send addr buf) wanted now _ queued
      simp [sends, queues, more]
  | transmit index clock =>
      obtain ⟨⟨after, sent⟩, iteration, rfl⟩ := Option.map_eq_some_iff.mp stepped
      have less := @sendThreadProc_left _ _ _ _ wanted now _ _ _ iteration ticks.1 ticks.2
      simpa [sends, queues, iteration] using less
  | arrive fromAddr packet =>
      obtain rfl := Option.some.inj stepped
      cases packet with
      | establish1 seq =>
          have queued : (socket.onEstablish1 fromAddr seq).sendList
              = socket.sendList
                ++ [(fromAddr, Packet.establish2 0)].map
                  (fun entry => ⟨0, entry.1, entry.2⟩) := rfl
          rw [recvThreadProc, left_of_append queued]
          simp [sends, queues]
      | establish2 seq => simp [sends, queues, recvThreadProc]
      | data packet => simp [sends, queues, recvThreadProc, left]
      | ack seq =>
          have fewer : (socket.onAck seq).left wanted now ≤ socket.left wanted now :=
            List.Sublist.sum_le_sum (List.eraseP_sublist.map _) (fun _ _ => Nat.zero_le _)
          simpa [sends, queues, recvThreadProc] using fewer

-----------------------------------------------------------------------------------------
-- Whole runs
-----------------------------------------------------------------------------------------

variable {events : List (Event Addr Seq)}

/-- Whichever packets one looks at: up to a clock, `SendThreadProc` sends at most one datagram for
each time that they were queued, and one more for every 1000 ticks of the clock.
-/
theorem sent_le_of_run (wanted : Addr × Packet Seq → Bool)
    (ticks : TransitionSystem.Along step (Ticks now) new events)
    (ran : TransitionSystem.run step new events = some socket)
    : (TransitionSystem.trace step sends new events).countP wanted
      ≤ ((now / 1000).toNat + 1)
        * (TransitionSystem.trace step queues new events).countP wanted := by
  have paid {state after : CTcpSocket Addr Seq} {event : Event Addr Seq}
      (ticks : state.Ticks now event) (stepped : state.step event = some after)
      : (state.sends event).countP wanted + after.left wanted now
        ≤ state.left wanted now
          + ((now / 1000).toNat + 1) * (state.queues event).countP wanted :=
    step_left ticks stepped
  have whole := TransitionSystem.countP_trace_le_along paid ticks ran
  have empty : (new : CTcpSocket Addr Seq).left wanted now = 0 := rfl
  rw [empty, Nat.zero_add] at whole
  exact Nat.le_of_add_right_le whole

/-- One byte is sent at once, not again after half a second, and again after a second. -/
theorem sent_oneByte
    : let events : List (Event Nat Int) :=
        [.send 7 [65], .transmit 0 1, .transmit 0 500, .transmit 0 1001]
      (TransitionSystem.trace step sends new events).countP (fun _ => true) = 2
      ∧ (TransitionSystem.trace step sends new events).countP (fun _ => true)
        ≤ 2 * (TransitionSystem.trace step queues new events).countP (fun _ => true) := by
  intro events
  obtain ⟨socket, ran⟩ := Option.isSome_iff_exists.mp
    (by decide +kernel
      : (TransitionSystem.run step (new : CTcpSocket Nat Int) events).isSome)
  have ticks : TransitionSystem.Along step (Ticks 1001) new events := by decide +kernel
  exact ⟨by decide +kernel, sent_le_of_run (fun _ => true) ticks ran⟩

end CTcpSocket

end SchoolSystem.TcpSocket
