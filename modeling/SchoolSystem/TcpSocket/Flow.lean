import Mathlib.Data.Set.Insert
import SchoolSystem.Library.NumberedLog
import SchoolSystem.TcpSocket.Socket

/-! One direction of a link: the packets of a sender on their way to one receiver.
The flow keeps what matters for delivery: which packets are pending, in flight, held or
written, and which acknowledgements are on their way back.
-/

namespace SchoolSystem.TcpSocket

open NumberedLog (Numbered)

/-- A sender's packets towards one receiver. `passed`, `numbered` and `written` are the
history of the flow: the bytes given to `Send`, the packets it made of them, and the bytes
that `RecvThreadProc` wrote.
-/
structure Flow where
  nextSendSeq : Int
  pending : Set (DataPacket Int)
  forward : Set (DataPacket Int)
  acks : Set Int
  receiver : Conn Int
  passed : List Byte
  numbered : List (DataPacket Int)
  written : List Byte

namespace Flow

/-- The receiver has delivered the packet or holds it. -/
def Received (conn : Conn Int) (packet : DataPacket Int) : Prop :=
  packet.seq < conn.nextRecvSeq ∨ packet ∈ conn.recvList

/-- A packet is pending, delivered or held: it is not lost. -/
def Kept (flow : Flow) (packet : DataPacket Int) : Prop :=
  packet ∈ flow.pending ∨ Received flow.receiver packet

/-- The packets numbered from `base` on are in order and none is lost. Datagrams with a
smaller number may still arrive from before the flow began.
-/
structure Sound (base : Int) (flow : Flow) : Prop where
  log : Numbered DataPacket.seq base flow.nextSendSeq flow.numbered
  passed : flow.passed = flow.numbered.flatMap DataPacket.data
  pending : ∀ packet ∈ flow.pending, packet ∈ flow.numbered
  forward : ∀ packet ∈ flow.forward, base ≤ packet.seq → packet ∈ flow.numbered
  held : ∀ packet ∈ flow.receiver.recvList, packet ∈ flow.numbered
  lower : base ≤ flow.receiver.nextRecvSeq
  upper : flow.receiver.nextRecvSeq ≤ flow.nextSendSeq
  written
    : flow.written
      = (flow.numbered.take (flow.receiver.nextRecvSeq - base).toNat).flatMap
          DataPacket.data
  acked
    : ∀ seq ∈ flow.acks,
        base ≤ seq
        → seq < flow.receiver.nextRecvSeq
          ∨ ∃ packet ∈ flow.receiver.recvList, packet.seq = seq
  kept : ∀ packet ∈ flow.numbered, flow.Kept packet

/-- What reaches the stream is a prefix of what was sent, cut at a packet boundary. -/
def InOrder (flow : Flow) : Prop :=
  flow.written <+: flow.passed
  ∧ ∃ count, flow.written = (flow.numbered.take count).flatMap DataPacket.data

theorem Sound.inOrder {base : Int} {flow : Flow} (sound : flow.Sound base)
    : flow.InOrder := by
  refine ⟨?_, _, sound.written⟩
  rw [sound.passed, sound.written]
  refine ⟨(flow.numbered.drop (flow.receiver.nextRecvSeq - base).toNat).flatMap
    DataPacket.data, ?_⟩
  rw [← List.flatMap_append, List.take_append_drop]

/-- Nothing is written exactly when the receiver still expects the first packet. -/
theorem Sound.written_nil_iff {base : Int} {flow : Flow} (sound : flow.Sound base)
    (nonempty : ∀ packet ∈ flow.numbered, packet.data ≠ [])
    : flow.written = [] ↔ flow.receiver.nextRecvSeq = base := by
  have size := congrArg List.length sound.log.2
  rw [List.length_map, NumberedLog.range_length] at size
  have lower := sound.lower
  have upper := sound.upper
  rw [sound.written]
  constructor
  · intro none
    by_contra moved
    have positive : 0 < (flow.receiver.nextRecvSeq - base).toNat := by omega
    cases numbered : flow.numbered with
    | nil =>
        rw [numbered, List.length_nil] at size
        omega
    | cons first rest =>
        have member : first ∈ flow.numbered.take (flow.receiver.nextRecvSeq - base).toNat := by
          rw [numbered, List.take_cons positive]
          exact List.mem_cons_self
        have empty := List.flatMap_eq_nil_iff.mp none first member
        exact nonempty first (by rw [numbered]; exact List.mem_cons_self) empty
  · intro same
    simp [same]

-----------------------------------------------------------------------------------------
-- The moves of a flow
-----------------------------------------------------------------------------------------

/-- `Send` numbers payloads and makes them pending. -/
structure Sends (data : List (List Byte)) (flow next : Flow) : Prop where
  nextSendSeq : next.nextSendSeq = flow.nextSendSeq + data.length
  numbered : next.numbered = flow.numbered ++ numberedFrom flow.nextSendSeq data
  passed : next.passed = flow.passed ++ data.flatten
  pending
    : next.pending = flow.pending ∪ {packet | packet ∈ numberedFrom flow.nextSendSeq data}
  forward : next.forward ⊆ flow.forward
  acks : next.acks ⊆ flow.acks
  receiver : next.receiver = flow.receiver
  written : next.written = flow.written

/-- Pending packets are sent again, datagrams are lost, acknowledged packets are dropped
from the pending ones, or the reader takes bytes; the receive state stays.
-/
structure Carries (base : Int) (flow next : Flow) : Prop where
  nextSendSeq : next.nextSendSeq = flow.nextSendSeq
  numbered : next.numbered = flow.numbered
  passed : next.passed = flow.passed
  pending : next.pending ⊆ flow.pending
  dropped : ∀ packet ∈ flow.pending, packet ∈ next.pending ∨ packet.seq ∈ flow.acks
  forward : next.forward ⊆ flow.forward ∪ flow.pending
  acks : ∀ seq ∈ next.acks, seq ∈ flow.acks ∨ seq < base
  nextRecvSeq : next.receiver.nextRecvSeq = flow.receiver.nextRecvSeq
  recvList : next.receiver.recvList = flow.receiver.recvList
  written : next.written = flow.written

/-- A `DATA` packet in flight reaches the receiver, which acknowledges it. -/
structure Delivers (packet : DataPacket Int) (flow next : Flow) : Prop where
  arrived : packet ∈ flow.forward
  nextSendSeq : next.nextSendSeq = flow.nextSendSeq
  numbered : next.numbered = flow.numbered
  passed : next.passed = flow.passed
  pending : next.pending = flow.pending
  forward : next.forward ⊆ flow.forward
  acks : next.acks ⊆ insert packet.seq flow.acks
  receiver : next.receiver = flow.receiver.onData packet
  written
    : next.written
      = flow.written
        ++ next.receiver.byteStream.drop flow.receiver.byteStream.length

/-- Sending keeps a flow sound: the new packets continue the numbering and are pending. -/
theorem Sound.sends {base : Int} {data : List (List Byte)} {flow next : Flow}
    (sound : flow.Sound base) (sends : Sends data flow next)
    : next.Sound base := by
  have fresh : Numbered DataPacket.seq flow.nextSendSeq (flow.nextSendSeq + data.length)
      (numberedFrom flow.nextSendSeq data) :=
    ⟨by omega, numberedFrom_seq flow.nextSendSeq data⟩
  have old : (flow.receiver.nextRecvSeq - base).toNat ≤ flow.numbered.length := by
    have size := congrArg List.length sound.log.2
    rw [List.length_map, NumberedLog.range_length] at size
    have upper := sound.upper
    omega
  constructor
  · rw [sends.nextSendSeq, sends.numbered]
    exact sound.log.append fresh
  · rw [sends.passed, sends.numbered, sound.passed, List.flatMap_append, numberedFrom_data]
  · intro packet member
    rw [sends.pending] at member
    rw [sends.numbered]
    rcases member with earlier | new
    · exact List.mem_append_left _ (sound.pending packet earlier)
    · exact List.mem_append_right _ new
  · intro packet member lower
    rw [sends.numbered]
    exact List.mem_append_left _ (sound.forward packet (sends.forward member) lower)
  · intro packet member
    rw [sends.receiver] at member
    rw [sends.numbered]
    exact List.mem_append_left _ (sound.held packet member)
  · rw [sends.receiver]
    exact sound.lower
  · rw [sends.receiver, sends.nextSendSeq]
    have upper := sound.upper
    omega
  · rw [sends.written, sends.numbered, sends.receiver, List.take_append_of_le_length old]
    exact sound.written
  · intro seq member lower
    rw [sends.receiver]
    exact sound.acked seq (sends.acks member) lower
  · intro packet member
    rw [sends.numbered] at member
    rcases List.mem_append.mp member with earlier | new
    · rcases sound.kept packet earlier with pending | received
      · exact Or.inl (by rw [sends.pending]; exact Or.inl pending)
      · exact Or.inr (by rw [sends.receiver]; exact received)
    · exact Or.inl (by rw [sends.pending]; exact Or.inr new)

/-- A pending packet leaves the sender only after its number was acknowledged, and an
acknowledged packet was delivered or is held.
-/
theorem Sound.carries {base : Int} {flow next : Flow} (sound : flow.Sound base)
    (carries : Carries base flow next)
    : next.Sound base := by
  constructor
  · rw [carries.nextSendSeq, carries.numbered]
    exact sound.log
  · rw [carries.passed, carries.numbered]
    exact sound.passed
  · intro packet member
    rw [carries.numbered]
    exact sound.pending packet (carries.pending member)
  · intro packet member lower
    rw [carries.numbered]
    rcases carries.forward member with earlier | again
    · exact sound.forward packet earlier lower
    · exact sound.pending packet again
  · rw [carries.recvList, carries.numbered]
    exact sound.held
  · rw [carries.nextRecvSeq]
    exact sound.lower
  · rw [carries.nextRecvSeq, carries.nextSendSeq]
    exact sound.upper
  · rw [carries.written, carries.numbered, carries.nextRecvSeq]
    exact sound.written
  · intro seq member lower
    rw [carries.nextRecvSeq, carries.recvList]
    rcases carries.acks seq member with earlier | stale
    · exact sound.acked seq earlier lower
    · omega
  · intro packet member
    rw [carries.numbered] at member
    simp only [Kept, Received, carries.nextRecvSeq, carries.recvList]
    rcases sound.kept packet member with pending | received
    · rcases carries.dropped packet pending with still | acked
      · exact Or.inl still
      · rcases sound.acked _ acked (sound.log.bounds member).1 with passed | ⟨held, inList, same⟩
        · exact Or.inr (Or.inl passed)
        · have eq := sound.log.injective (sound.held held inList) member same
          exact Or.inr (Or.inr (eq ▸ inList))
    · exact Or.inr received

/-- A delivery that keeps the history, the bounds and every received packet is sound. -/
theorem Sound.of_received {base : Int} {packet : DataPacket Int} {flow next : Flow}
    (sound : flow.Sound base) (delivers : Delivers packet flow next)
    (held : ∀ part ∈ next.receiver.recvList, part ∈ flow.numbered)
    (forth : flow.receiver.nextRecvSeq ≤ next.receiver.nextRecvSeq)
    (upper : next.receiver.nextRecvSeq ≤ flow.nextSendSeq)
    (written
      : next.written
        = (flow.numbered.take (next.receiver.nextRecvSeq - base).toNat).flatMap
            DataPacket.data)
    (arrived : Received next.receiver packet)
    (received : ∀ part, Received flow.receiver part → Received next.receiver part)
    : next.Sound base := by
  constructor
  · rw [delivers.nextSendSeq, delivers.numbered]
    exact sound.log
  · rw [delivers.passed, delivers.numbered]
    exact sound.passed
  · rw [delivers.pending, delivers.numbered]
    exact sound.pending
  · rw [delivers.numbered]
    exact fun part member => sound.forward part (delivers.forward member)
  · rw [delivers.numbered]
    exact held
  · exact sound.lower.trans forth
  · rw [delivers.nextSendSeq]
    exact upper
  · rw [delivers.numbered]
    exact written
  · intro seq member bound
    rcases delivers.acks member with rfl | earlier
    · exact arrived.imp_right (fun inList => ⟨packet, inList, rfl⟩)
    · rcases sound.acked seq earlier bound with before | ⟨part, inList, rfl⟩
      · exact Or.inl (before.trans_le forth)
      · exact (received part (Or.inr inList)).imp_right (fun still => ⟨part, still, rfl⟩)
  · intro part member
    rw [delivers.numbered] at member
    simp only [Kept, delivers.pending]
    exact (sound.kept part member).imp_right (received part)

/-- A packet in turn is written together with the held packets that follow it. -/
theorem Sound.delivers_next {base : Int} {packet : DataPacket Int} {flow next : Flow}
    {released : List (DataPacket Int)} (sound : flow.Sound base)
    (delivers : Delivers packet flow next) (inTurn : packet.seq = flow.receiver.nextRecvSeq)
    (split : flow.receiver.recvList = released ++ next.receiver.recvList)
    (less : flow.receiver.nextRecvSeq < next.receiver.nextRecvSeq)
    (numbers
      : (packet :: released).map DataPacket.seq
        = Int.range flow.receiver.nextRecvSeq next.receiver.nextRecvSeq)
    (stream
      : next.receiver.byteStream
        = flow.receiver.byteStream ++ (packet :: released).flatMap DataPacket.data)
    : next.Sound base := by
  have lower := sound.lower
  have block : ∀ part ∈ packet :: released, part ∈ flow.numbered := by
    intro part member
    rcases List.mem_cons.mp member with rfl | out
    · exact sound.forward part delivers.arrived (by omega)
    · exact sound.held part (by rw [split]; exact List.mem_append_left _ out)
  have passed : ∀ part ∈ packet :: released, part.seq < next.receiver.nextRecvSeq := by
    intro part member
    have number : part.seq ∈ (packet :: released).map DataPacket.seq :=
      List.mem_map_of_mem member
    rw [numbers] at number
    exact (Int.mem_range_iff.mp number).2
  have upper : next.receiver.nextRecvSeq ≤ flow.nextSendSeq := by
    have last : next.receiver.nextRecvSeq - 1 ∈ (packet :: released).map DataPacket.seq := by
      rw [numbers]
      exact Int.mem_range_iff.mpr ⟨by omega, by omega⟩
    obtain ⟨part, member, number⟩ := List.mem_map.mp last
    have bounds := sound.log.bounds (block part member)
    omega
  apply sound.of_received delivers
  · intro part member
    exact sound.held part (by rw [split]; exact List.mem_append_right _ member)
  · exact le_of_lt less
  · exact upper
  · rw [delivers.written, stream, List.drop_left, sound.written, ← List.flatMap_append,
      sound.log.take_append_block sound.lower (le_of_lt less) upper block numbers]
  · exact Or.inl (passed packet (by simp))
  · rintro part (before | inList)
    · exact Or.inl (before.trans less)
    · rw [split] at inList
      rcases List.mem_append.mp inList with out | remains
      · exact Or.inl (passed part (List.mem_cons_of_mem _ out))
      · exact Or.inr remains

/-- A packet ahead of its turn is held. -/
theorem Sound.delivers_ahead {base : Int} {packet : DataPacket Int} {flow next : Flow}
    (sound : flow.Sound base) (delivers : Delivers packet flow next)
    (ahead : flow.receiver.nextRecvSeq < packet.seq)
    (same
      : next.receiver
        = {
            flow.receiver with
            recvList := insertPacket packet flow.receiver.recvList
          })
    : next.Sound base := by
  have lower := sound.lower
  have heldNow : ∀ part, part ∈ next.receiver.recvList
      ↔ part = packet ∨ part ∈ flow.receiver.recvList := by
    intro part
    rw [same]
    exact (insertPacket_perm packet flow.receiver.recvList).mem_iff.trans List.mem_cons
  have sameNext : next.receiver.nextRecvSeq = flow.receiver.nextRecvSeq := by rw [same]
  have sameStream : next.receiver.byteStream = flow.receiver.byteStream := by rw [same]
  apply sound.of_received delivers
  · intro part member
    rcases (heldNow part).mp member with rfl | earlier
    · exact sound.forward part delivers.arrived (by omega)
    · exact sound.held part earlier
  · exact le_of_eq sameNext.symm
  · rw [sameNext]
    exact sound.upper
  · rw [delivers.written, sameStream, List.drop_length, List.append_nil, sameNext]
    exact sound.written
  · exact Or.inr ((heldNow packet).mpr (Or.inl rfl))
  · rintro part (before | inList)
    · exact Or.inl (by rw [sameNext]; exact before)
    · exact Or.inr ((heldNow part).mpr (Or.inr inList))

/-- A packet whose number has passed is acknowledged again and otherwise ignored. -/
theorem Sound.delivers_again {base : Int} {packet : DataPacket Int} {flow next : Flow}
    (sound : flow.Sound base) (delivers : Delivers packet flow next)
    (passed : packet.seq < flow.receiver.nextRecvSeq)
    (same : next.receiver = flow.receiver)
    : next.Sound base := by
  apply sound.of_received delivers
  · rw [same]
    exact sound.held
  · rw [same]
  · rw [same]
    exact sound.upper
  · rw [delivers.written, same, List.drop_length, List.append_nil]
    exact sound.written
  · exact Or.inl (by rw [same]; exact passed)
  · rw [same]
    exact fun _ received => received

/-- Every arrival of a `DATA` packet keeps a flow sound, by the cases of the branch. -/
theorem Sound.delivers {base : Int} {packet : DataPacket Int} {flow next : Flow}
    (sound : flow.Sound base) (delivers : Delivers packet flow next)
    : next.Sound base := by
  rcases flow.receiver.onData_cases packet with
    ⟨inTurn, released, split, less, numbers, stream⟩ | ⟨ahead, same⟩ | ⟨passed, same⟩
  · rw [← delivers.receiver] at split less numbers stream
    exact sound.delivers_next delivers inTurn split less numbers stream
  · exact sound.delivers_ahead delivers ahead (delivers.receiver.trans same)
  · exact sound.delivers_again delivers passed (delivers.receiver.trans same)

end Flow

end SchoolSystem.TcpSocket
