import SchoolSystem.Library.ReorderBuffer
import SchoolSystem.TcpSocket.Packet

/-! The `DATA` branch of `RecvThreadProc`: writing, holding back and draining packets.
On unbounded sequence numbers it refines the reorder buffer of consecutive numbers.
-/

namespace SchoolSystem.TcpSocket

open ReorderBuffer (Buffer Shadowed)

variable {Seq : Type}

/-- The status update after a write: 0 becomes 1, and 1 and 2 stay. -/
def Status.afterWrite : Status → Status
  | .noData => .hasData
  | status => status

/-- `m_byteStream.Write` followed by the status update. -/
def Conn.write (conn : Conn Seq) (data : List Byte) : Conn Seq :=
  {
    conn with
    byteStream := conn.byteStream ++ data
    status := conn.status.afterWrite
  }

/-- The insertion loop: before the first held packet with a larger number. -/
def insertPacket [LT Seq] [DecidableLT Seq] (packet : DataPacket Seq)
    : List (DataPacket Seq) → List (DataPacket Seq)
  | [] => [packet]
  | held :: rest =>
      if packet.seq < held.seq then
        packet :: held :: rest
      else
        held :: insertPacket packet rest

variable [Add Seq] [OfNat Seq 1] [DecidableEq Seq]

/-- A packet in turn: its data is written and `m_nNextRecvSeq` moves on. -/
def Conn.deliver (conn : Conn Seq) (data : List Byte) : Conn Seq :=
  { conn.write data with nextRecvSeq := conn.nextRecvSeq + 1 }

/-- The drain loop over `m_recvList`: it writes and erases packets from the head and breaks
at the first one that is not the next.
-/
def Conn.drain (conn : Conn Seq) : List (DataPacket Seq) → Conn Seq
  | [] => { conn with recvList := [] }
  | held :: rest =>
      if held.seq = conn.nextRecvSeq then
        (conn.deliver held.data).drain rest
      else
        { conn with recvList := held :: rest }

variable [LT Seq] [DecidableLT Seq]

/-- The `DATA` branch after its acknowledgement is sent. -/
def Conn.onData (conn : Conn Seq) (packet : DataPacket Seq) : Conn Seq :=
  if packet.seq = conn.nextRecvSeq then
    (conn.deliver packet.data).drain conn.recvList
  else if conn.nextRecvSeq < packet.seq then
    { conn with recvList := insertPacket packet conn.recvList }
  else
    conn

section Deliver

omit [DecidableEq Seq] [LT Seq] [DecidableLT Seq]

@[simp]
theorem Conn.deliver_nextRecvSeq (conn : Conn Seq) (data : List Byte)
    : (conn.deliver data).nextRecvSeq = conn.nextRecvSeq + 1 := rfl

@[simp]
theorem Conn.deliver_nextSendSeq (conn : Conn Seq) (data : List Byte)
    : (conn.deliver data).nextSendSeq = conn.nextSendSeq := rfl

@[simp]
theorem Conn.deliver_byteStream (conn : Conn Seq) (data : List Byte)
    : (conn.deliver data).byteStream = conn.byteStream ++ data := rfl

end Deliver

omit [Add Seq] [OfNat Seq 1] [DecidableEq Seq] in
theorem insertPacket_perm (packet : DataPacket Seq) (held : List (DataPacket Seq))
    : (insertPacket packet held).Perm (packet :: held) := by
  induction held with
  | nil => exact .rfl
  | cons head rest ih =>
      rw [insertPacket]
      split
      · exact .rfl
      · exact (ih.cons head).trans (List.Perm.swap packet head rest)

omit [LT Seq] [DecidableLT Seq] in
/-- Draining writes no send counter, by induction on the held packets. -/
@[simp]
theorem Conn.drain_nextSendSeq (conn : Conn Seq) (held : List (DataPacket Seq))
    : (conn.drain held).nextSendSeq = conn.nextSendSeq := by
  induction held generalizing conn with
  | nil => rfl
  | cons head rest ih =>
      rw [drain]
      split
      · rw [ih, deliver_nextSendSeq]
      · rfl

@[simp]
theorem Conn.onData_nextSendSeq (conn : Conn Seq) (packet : DataPacket Seq)
    : (conn.onData packet).nextSendSeq = conn.nextSendSeq := by
  rw [onData]
  split
  · rw [drain_nextSendSeq, deliver_nextSendSeq]
  · split <;> rfl

-----------------------------------------------------------------------------------------
-- Refinement of the reorder buffer
-----------------------------------------------------------------------------------------

/-- The numbers in a connection's receive state. -/
def Conn.buffer (conn : Conn Int) : Buffer :=
  ⟨conn.nextRecvSeq, conn.recvList.map DataPacket.seq⟩

theorem insertPacket_map (packet : DataPacket Int) (held : List (DataPacket Int))
    : (insertPacket packet held).map DataPacket.seq
      = ReorderBuffer.insert packet.seq (held.map DataPacket.seq) := by
  induction held with
  | nil => rfl
  | cons head rest ih =>
      simp only [insertPacket, ReorderBuffer.insert, List.map_cons]
      split
      · rfl
      · rw [List.map_cons, ih]

theorem Conn.drain_buffer (conn : Conn Int) (held : List (DataPacket Int))
    : (conn.drain held).buffer
      = ReorderBuffer.drain conn.nextRecvSeq (held.map DataPacket.seq) := by
  induction held generalizing conn with
  | nil => rfl
  | cons head rest ih =>
      simp only [drain, ReorderBuffer.drain, List.map_cons]
      split
      · exact ih _
      · rfl

/-- One `DATA` packet acts on the numbers as one arrival at the reorder buffer. -/
theorem Conn.onData_buffer (conn : Conn Int) (packet : DataPacket Int)
    : (conn.onData packet).buffer = conn.buffer.arrive packet.seq := by
  by_cases same : packet.seq = conn.nextRecvSeq
  · have expected : packet.seq = conn.buffer.next := same
    rw [onData, if_pos same, Buffer.arrive, if_pos expected, drain_buffer,
      deliver_nextRecvSeq, same]
    rfl
  · have unexpected : packet.seq ≠ conn.buffer.next := same
    rw [onData, if_neg same, Buffer.arrive, if_neg unexpected]
    by_cases above : conn.nextRecvSeq < packet.seq
    · have later : conn.buffer.next < packet.seq := above
      rw [if_pos above, if_pos later]
      exact congrArg (Buffer.mk conn.nextRecvSeq) (insertPacket_map packet conn.recvList)
    · have passed : ¬ conn.buffer.next < packet.seq := above
      rw [if_neg above, if_neg passed]

/-- The drain loop splits the held packets into a released block with consecutive numbers,
which it writes in order, and the rest, which it keeps. By induction on the held packets.
-/
theorem Conn.drain_released (conn : Conn Int) (held : List (DataPacket Int))
    : ∃ released,
        held = released ++ (conn.drain held).recvList
        ∧ conn.nextRecvSeq ≤ (conn.drain held).nextRecvSeq
        ∧ released.map DataPacket.seq
          = Int.range conn.nextRecvSeq (conn.drain held).nextRecvSeq
        ∧ (conn.drain held).byteStream
          = conn.byteStream ++ released.flatMap DataPacket.data := by
  induction held generalizing conn with
  | nil => exact ⟨[], by simp [drain, ReorderBuffer.range_self]⟩
  | cons head rest ih =>
      rw [drain]
      split
      · rename_i same
        obtain ⟨released, split, le, numbers, stream⟩ := ih (conn.deliver head.data)
        rw [deliver_nextRecvSeq] at le numbers
        rw [deliver_byteStream] at stream
        refine ⟨head :: released, ?_, by omega, ?_, ?_⟩
        · rw [List.cons_append, ← split]
        · rw [List.map_cons, same, numbers, ← ReorderBuffer.range_cons (by omega)]
        · rw [List.flatMap_cons, ← List.append_assoc]
          exact stream
      · exact ⟨[], by simp [ReorderBuffer.range_self]⟩

/-- All that an arriving `DATA` packet can do: it is written together with the held packets
that follow it, it is held back, or it is ignored because its number has passed.
-/
theorem Conn.onData_cases (conn : Conn Int) (packet : DataPacket Int)
    : (packet.seq = conn.nextRecvSeq
        ∧ ∃ released,
            conn.recvList = released ++ (conn.onData packet).recvList
            ∧ conn.nextRecvSeq < (conn.onData packet).nextRecvSeq
            ∧ (packet :: released).map DataPacket.seq
              = Int.range conn.nextRecvSeq (conn.onData packet).nextRecvSeq
            ∧ (conn.onData packet).byteStream
              = conn.byteStream ++ (packet :: released).flatMap DataPacket.data)
      ∨ (conn.nextRecvSeq < packet.seq
        ∧ conn.onData packet
          = { conn with recvList := insertPacket packet conn.recvList })
      ∨ (packet.seq < conn.nextRecvSeq ∧ conn.onData packet = conn) := by
  rcases lt_trichotomy packet.seq conn.nextRecvSeq with below | same | above
  · refine Or.inr (Or.inr ⟨below, ?_⟩)
    rw [onData, if_neg (ne_of_lt below), if_neg (not_lt_of_gt below)]
  · refine Or.inl ⟨same, ?_⟩
    rw [onData, if_pos same]
    obtain ⟨released, split, le, numbers, stream⟩ :=
      drain_released (conn.deliver packet.data) conn.recvList
    rw [deliver_nextRecvSeq] at le numbers
    rw [deliver_byteStream] at stream
    refine ⟨released, split, by omega, ?_, ?_⟩
    · rw [List.map_cons, same, numbers, ← ReorderBuffer.range_cons (by omega)]
    · rw [List.flatMap_cons, ← List.append_assoc]
      exact stream
  · refine Or.inr (Or.inl ⟨above, ?_⟩)
    rw [onData, if_neg (ne_of_gt above), if_pos above]

-----------------------------------------------------------------------------------------
-- Arrivals of numbered packets
-----------------------------------------------------------------------------------------

/-- The connection after the `DATA` packets with these numbers; packet `n` always carries
`payload n`, however often it is sent.
-/
def Conn.receive (payload : Int → List Byte) (conn : Conn Int) (arrivals : List Int)
    : Conn Int :=
  arrivals.foldl (fun conn n => conn.onData ⟨n, payload n⟩) conn

theorem Conn.receive_concat (payload : Int → List Byte) (conn : Conn Int)
    (arrivals : List Int) (n : Int)
    : conn.receive payload (arrivals ++ [n])
      = (conn.receive payload arrivals).onData ⟨n, payload n⟩ := by
  rw [receive, List.foldl_append]
  rfl

/-- Held packets carry their payload, and the stream is the payload of every number that
was passed since `base`.
-/
structure Conn.Carries (payload : Int → List Byte) (base : Int) (stream : List Byte)
    (conn : Conn Int)
    : Prop where
  lower : base ≤ conn.nextRecvSeq
  held : ∀ packet ∈ conn.recvList, packet.data = payload packet.seq
  written
    : conn.byteStream = stream ++ (Int.range base conn.nextRecvSeq).flatMap payload

theorem Conn.Carries.onData {payload : Int → List Byte} {base : Int} {stream : List Byte}
    {conn : Conn Int} (carries : conn.Carries payload base stream) (n : Int)
    : (conn.onData ⟨n, payload n⟩).Carries payload base stream := by
  rcases conn.onData_cases ⟨n, payload n⟩ with
    ⟨_, released, split, less, numbers, written⟩ | ⟨_, same⟩ | ⟨_, same⟩
  · have releasedHeld : ∀ packet ∈ (⟨n, payload n⟩ : DataPacket Int) :: released,
        packet.data = payload packet.seq := by
      intro packet member
      rcases List.mem_cons.mp member with rfl | later
      · rfl
      · exact carries.held packet (by rw [split]; exact List.mem_append_left _ later)
    refine ⟨by have lower := carries.lower; omega, ?_, ?_⟩
    · intro packet member
      exact carries.held packet (by rw [split]; exact List.mem_append_right _ member)
    · have data : ((⟨n, payload n⟩ : DataPacket Int) :: released).flatMap DataPacket.data
          = (Int.range conn.nextRecvSeq (conn.onData ⟨n, payload n⟩).nextRecvSeq).flatMap
              payload := by
        rw [← numbers, List.flatMap_map]
        exact List.flatMap_congr releasedHeld
      rw [written, carries.written, data, List.append_assoc, ← List.flatMap_append,
        ← ReorderBuffer.range_append carries.lower (le_of_lt less)]
  · rw [same]
    refine ⟨carries.lower, ?_, carries.written⟩
    intro packet member
    rcases List.mem_cons.mp ((insertPacket_perm _ _).mem_iff.mp member) with rfl | old
    · rfl
    · exact carries.held packet old
  · rw [same]
    exact carries

/-- The receive state after any arrivals: its numbers are the reorder buffer's, and its
stream holds the payloads up to the next expected number. By induction from the last
arrival.
-/
theorem Conn.receive_spec (payload : Int → List Byte) {base : Int} {conn : Conn Int}
    (start : conn.nextRecvSeq = base) (empty : conn.recvList = []) (arrivals : List Int)
    : (conn.receive payload arrivals).buffer = ReorderBuffer.receive base arrivals
      ∧ (conn.receive payload arrivals).Carries payload base conn.byteStream := by
  induction arrivals using List.reverseRecOn with
  | nil =>
      refine ⟨?_, ?_⟩
      · simp [receive, ReorderBuffer.receive, buffer, start, empty]
      · exact ⟨by simp [receive, start], by simp [receive, empty],
          by simp [receive, start, ReorderBuffer.range_self]⟩
  | append_singleton arrivals n ih =>
      rw [receive_concat, ReorderBuffer.receive_concat, ← ih.1]
      exact ⟨onData_buffer _ _, ih.2.onData n⟩

/-- The receiver is level with what has arrived: its next number is the least one that
never arrived, all earlier payloads are in the stream, and it holds no packet with that
number.
-/
structure Conn.Level (payload : Int → List Byte) (base : Int) (stream : List Byte)
    (arrived : List Int) (conn : Conn Int)
    : Prop where
  frontier : IsLeast {n | base ≤ n ∧ n ∉ arrived} conn.nextRecvSeq
  written
    : conn.byteStream = stream ++ (Int.range base conn.nextRecvSeq).flatMap payload
  unheld : ∀ packet ∈ conn.recvList, packet.seq ≠ conn.nextRecvSeq

/-- After every arrival the receiver is level with what has arrived by then. -/
def Conn.StaysLevel (payload : Int → List Byte) (base : Int) (conn : Conn Int)
    (arrivals : List Int)
    : Prop :=
  ∀ before, before <+: arrivals
    → (conn.receive payload before).Level payload base conn.byteStream before

/-- The receiver is level after every arrival exactly when no packet that came twice ahead
of a gap shadows a later one.
-/
theorem Conn.receive_level_iff (payload : Int → List Byte) (base : Int) (conn : Conn Int)
    (start : conn.nextRecvSeq = base) (empty : conn.recvList = []) (arrivals : List Int)
    : conn.StaysLevel payload base arrivals ↔ ¬ Shadowed base arrivals := by
  rw [← ReorderBuffer.least_prefixes_iff]
  constructor
  · intro level before isPrefix
    have numbers := (receive_spec payload start empty before).1
    rw [← numbers]
    exact (level before isPrefix).frontier
  · intro least before isPrefix
    obtain ⟨numbers, carries⟩ := receive_spec payload start empty before
    have clear := (ReorderBuffer.least_prefixes_iff base before).mp
      (fun first firstPrefix => least first (firstPrefix.trans isPrefix))
    have tracks := ReorderBuffer.tracks_of_not_shadowed clear
    rw [← numbers] at tracks
    refine ⟨tracks.least, carries.written, ?_⟩
    intro packet member same
    have held : (conn.receive payload before).nextRecvSeq
        ∈ (conn.receive payload before).recvList.map DataPacket.seq :=
      List.mem_map.mpr ⟨packet, member, same⟩
    have counted := tracks.counts (conn.receive payload before).nextRecvSeq
    have none := tracks.next_count
    have positive := List.count_pos_iff.mpr held
    simp only [buffer] at counted none
    omega

/-- A packet that comes twice ahead of its gap does no harm while nothing later is held. -/
theorem Conn.receive_level_repeated
    : (Conn.new : Conn Int).StaysLevel (fun n => [n.toNat.toUInt8]) 0 [1, 1, 0] :=
  (receive_level_iff (fun n => [n.toNat.toUInt8]) 0 Conn.new rfl rfl [1, 1, 0]).mpr
    (by decide)

/-- Number 1 comes twice before number 0, and number 3 before number 2: the second copy of
1 stays at the head of the list and packet 3 is never written.
-/
theorem Conn.receive_not_level
    : ¬ (Conn.new : Conn Int).StaysLevel (fun n => [n.toNat.toUInt8]) 0
        [1, 1, 0, 3, 2] := by
  intro level
  have unheld := (level _ List.prefix_rfl).unheld ⟨3, [3]⟩ (by decide)
  exact unheld (by decide)

end SchoolSystem.TcpSocket
