import SchoolSystem.TcpSocket.Socket

/-! Numbered `DATA` packets that arrive once each: what a connection holds after every
arrival, and that it ends in one state whatever the order was.
-/

namespace SchoolSystem.TcpSocket

variable {Seq : Type} [Add Seq] [OfNat Seq 1] [DecidableEq Seq] [LT Seq] [DecidableLT Seq]

/-- The connection after these `DATA` packets, in the order in which they arrive. -/
def Conn.onArrivals (conn : Conn Seq) (arrivals : List (DataPacket Seq)) : Conn Seq :=
  arrivals.foldl Conn.onData conn

/-- The first numbers from `base` on, `length` of them, have all arrived. -/
def HasRun (base : Int) (arrived : List (DataPacket Int)) (length : Nat) : Prop :=
  ∀ i, i < length → base + i ∈ arrived.map DataPacket.seq

/-- What a connection that was `start` holds when `length` is the longest run of packets
that has arrived: the run is written, and every other arrived packet is held in order.
-/
structure Conn.Reordered (start : Conn Int) (payloads : List (List Byte))
    (arrived : List (DataPacket Int)) (length : Nat) (conn : Conn Int)
    : Prop where
  longest : IsGreatest {length | HasRun start.nextRecvSeq arrived length} length
  written : conn.byteStream = start.byteStream ++ (payloads.take length).flatten
  next : conn.nextRecvSeq = start.nextRecvSeq + length
  held
    : ∀ packet,
        packet ∈ conn.recvList
        ↔ packet ∈ arrived ∧ ¬ packet.seq < start.nextRecvSeq + length
  ascending : conn.recvList.Pairwise (fun left right => left.seq < right.seq)

/-- The connection when all packets have been written. -/
def Conn.delivered (conn : Conn Int) (payloads : List (List Byte)) : Conn Int :=
  {
    conn with
    nextRecvSeq := conn.nextRecvSeq + payloads.length
    byteStream := conn.byteStream ++ payloads.flatten
    recvList := []
    status := if payloads = [] then conn.status else conn.status.afterWrite
  }

-----------------------------------------------------------------------------------------
-- The status after arrivals
-----------------------------------------------------------------------------------------

@[simp]
theorem Status.afterWrite_afterWrite (status : Status)
    : status.afterWrite.afterWrite = status.afterWrite := by
  cases status <;> rfl

omit [LT Seq] [DecidableLT Seq] in
/-- Draining after a write leaves the status that write has set. -/
theorem Conn.drain_status {conn : Conn Seq} (set : conn.status.afterWrite = conn.status)
    (held : List (DataPacket Seq))
    : (conn.drain held).status = conn.status := by
  induction held generalizing conn with
  | nil => rfl
  | cons head rest ih =>
      have same : (conn.deliver head.data).status = conn.status := set
      rw [drain]
      split
      · rw [← same] at set
        exact (ih set).trans same
      · rfl

theorem Conn.onData_status (conn : Conn Seq) (packet : DataPacket Seq)
    : (conn.onData packet).status
      = if packet.seq = conn.nextRecvSeq then conn.status.afterWrite else conn.status := by
  rw [onData]
  split
  · have written : (conn.deliver packet.data).status = conn.status.afterWrite := rfl
    exact (drain_status (by rw [written, Status.afterWrite_afterWrite]) _).trans written
  · split <;> rfl

/-- The status is untouched until the first packet is written. -/
def Conn.StatusSince (start conn : Conn Int) : Prop :=
  (conn.nextRecvSeq = start.nextRecvSeq ∧ conn.status = start.status)
  ∨ (start.nextRecvSeq < conn.nextRecvSeq ∧ conn.status = start.status.afterWrite)

theorem Conn.StatusSince.onData {start conn : Conn Int} (since : start.StatusSince conn)
    (packet : DataPacket Int)
    : start.StatusSince (conn.onData packet) := by
  have status := conn.onData_status packet
  rcases conn.onData_cases packet with
    ⟨same, _, _, less, _⟩ | ⟨above, held⟩ | ⟨_, ignored⟩
  · rw [if_pos same] at status
    right
    rcases since with ⟨next, before⟩ | ⟨next, before⟩
    · exact ⟨by omega, by rw [status, before]⟩
    · exact ⟨by omega, by rw [status, before, Status.afterWrite_afterWrite]⟩
  · rw [held]
    exact since
  · rw [ignored]
    exact since

/-- What no arrival changes, and what follows the next number, by induction on the
arrivals.
-/
theorem Conn.onArrivals_frame {start conn : Conn Int} (since : start.StatusSince conn)
    (sendSeq : conn.nextSendSeq = start.nextSendSeq) (arrivals : List (DataPacket Int))
    : start.StatusSince (conn.onArrivals arrivals)
      ∧ (conn.onArrivals arrivals).nextSendSeq = start.nextSendSeq := by
  induction arrivals generalizing conn with
  | nil => exact ⟨since, sendSeq⟩
  | cons packet rest ih =>
      exact ih (since.onData packet) ((conn.onData_nextSendSeq packet).trans sendSeq)

-----------------------------------------------------------------------------------------
-- Packets as numbers with payloads
-----------------------------------------------------------------------------------------

/-- The payload of number `n` when the payloads are numbered from `base` on. -/
def payloadFrom (base : Int) (payloads : List (List Byte)) (n : Int) : List Byte :=
  payloads.getD (n - base).toNat []

theorem numberedFrom_payload {base : Int} {payloads : List (List Byte)}
    {packet : DataPacket Int} (member : packet ∈ numberedFrom base payloads)
    : packet.data = payloadFrom base payloads packet.seq := by
  induction payloads generalizing base with
  | nil => cases member
  | cons head rest ih =>
      rcases List.mem_cons.mp member with rfl | later
      · simp [payloadFrom]
      · have inside : packet.seq ∈ (numberedFrom (base + 1) rest).map DataPacket.seq :=
          List.mem_map.mpr ⟨packet, later, rfl⟩
        rw [numberedFrom_seq, Int.mem_range_iff] at inside
        have index : (packet.seq - base).toNat = (packet.seq - (base + 1)).toNat + 1 := by
          omega
        rw [ih later, payloadFrom, payloadFrom, index, List.getD_cons_succ]

/-- The payloads of a run are the first ones, by induction on the payloads. -/
theorem range_flatMap_payloadFrom {base : Int} {payloads : List (List Byte)} {length : Nat}
    (le : length ≤ payloads.length)
    : (Int.range base (base + length)).flatMap (payloadFrom base payloads)
      = (payloads.take length).flatten := by
  induction payloads generalizing base length with
  | nil =>
      have none : length = 0 := by simpa using le
      simp [none, ReorderBuffer.range_self]
  | cons head rest ih =>
      cases length with
      | zero => simp [ReorderBuffer.range_self]
      | succ length =>
          have shift : base + ((length + 1 : Nat) : Int) = base + 1 + length := by
            rw [Nat.cast_succ]
            omega
          have tail : (Int.range (base + 1) (base + 1 + length)).flatMap
                (payloadFrom base (head :: rest))
              = (Int.range (base + 1) (base + 1 + length)).flatMap
                (payloadFrom (base + 1) rest) := by
            refine List.flatMap_congr (fun n member => ?_)
            have bounds := Int.mem_range_iff.mp member
            have index : (n - base).toNat = (n - (base + 1)).toNat + 1 := by omega
            rw [payloadFrom, payloadFrom, index, List.getD_cons_succ]
          rw [shift, ReorderBuffer.range_cons (by omega), List.flatMap_cons, tail,
            ih (by simpa using le), List.take_succ_cons, List.flatten_cons]
          simp [payloadFrom]

/-- Packets that carry the payload of their number arrive as numbers. -/
theorem Conn.onArrivals_eq_receive {payload : Int → List Byte}
    {arrivals : List (DataPacket Int)}
    (carried : ∀ packet ∈ arrivals, packet.data = payload packet.seq) (conn : Conn Int)
    : conn.onArrivals arrivals = conn.receive payload (arrivals.map DataPacket.seq) := by
  induction arrivals generalizing conn with
  | nil => rfl
  | cons packet rest ih =>
      have same : packet = ⟨packet.seq, payload packet.seq⟩ := by
        rw [← carried packet List.mem_cons_self]
      have tail := ih (fun later member => carried later (List.mem_cons_of_mem _ member))
        (conn.onData packet)
      rw [onArrivals, List.foldl_cons, ← onArrivals, tail, List.map_cons, receive, receive,
        List.foldl_cons, ← same]

-----------------------------------------------------------------------------------------
-- Every order of arrival
-----------------------------------------------------------------------------------------

/-- The frontier of the numbers is the end of the longest run. -/
theorem isGreatest_hasRun {base next : Int} {arrived : List (DataPacket Int)}
    (least : IsLeast {n | base ≤ n ∧ n ∉ arrived.map DataPacket.seq} next)
    : IsGreatest {length | HasRun base arrived length} (next - base).toNat := by
  have lower := least.1.1
  constructor
  · intro i less
    by_contra absent
    have above := least.2 ⟨by omega, absent⟩
    omega
  · intro length run
    by_contra more
    have member := run (next - base).toNat (not_le.mp more)
    rw [Int.toNat_of_nonneg (by omega), add_sub_cancel] at member
    exact least.1.2 member

/-- After any arrivals, each of them a different one of the numbered packets, the longest
run is written and the other packets are held in order.
-/
theorem Conn.onArrivals_reordered {conn : Conn Int} (empty : conn.recvList = [])
    {payloads : List (List Byte)} {arrived : List (DataPacket Int)}
    (numbered : arrived.Subperm (numberedFrom conn.nextRecvSeq payloads))
    : ∃ length, length ≤ payloads.length
        ∧ conn.Reordered payloads arrived length (conn.onArrivals arrived) := by
  have inRange : (arrived.map DataPacket.seq).Subperm
      (Int.range conn.nextRecvSeq (conn.nextRecvSeq + payloads.length)) := by
    rw [← numberedFrom_seq]
    obtain ⟨same, perm, sublist⟩ := numbered
    exact ⟨same.map DataPacket.seq, perm.map _, sublist.map _⟩
  have once : (arrived.map DataPacket.seq).Nodup := by
    obtain ⟨same, perm, sublist⟩ := inRange
    exact perm.nodup_iff.mp ((ReorderBuffer.range_nodup _ _).sublist sublist)
  have carried : ∀ packet ∈ arrived,
      packet.data = payloadFrom conn.nextRecvSeq payloads packet.seq :=
    fun packet member => numberedFrom_payload (numbered.subset member)
  obtain ⟨buffer, carries⟩ := receive_spec (payloadFrom conn.nextRecvSeq payloads) rfl empty
    (arrived.map DataPacket.seq)
  have tracks :=
    ReorderBuffer.tracks_of_not_shadowed
      (@ReorderBuffer.not_shadowed_of_nodup conn.nextRecvSeq _ once)
  rw [← buffer] at tracks
  rw [← conn.onArrivals_eq_receive carried] at tracks carries
  generalize conn.onArrivals arrived = after at tracks carries
  have lower : conn.nextRecvSeq ≤ after.nextRecvSeq := carries.lower
  have upper : after.nextRecvSeq ≤ conn.nextRecvSeq + payloads.length := by
    refine tracks.least.2 ⟨by omega, fun member => ?_⟩
    have bounds := Int.mem_range_iff.mp (inRange.subset member)
    omega
  have run : conn.nextRecvSeq + ((after.nextRecvSeq - conn.nextRecvSeq).toNat : Int)
      = after.nextRecvSeq := by
    omega
  have mem_held := tracks.mem_held_iff once
  refine ⟨(after.nextRecvSeq - conn.nextRecvSeq).toNat, by omega, ?_⟩
  constructor
  · exact isGreatest_hasRun tracks.least
  · have writtenRun := @range_flatMap_payloadFrom conn.nextRecvSeq payloads
      (after.nextRecvSeq - conn.nextRecvSeq).toNat (by omega)
    rw [run] at writtenRun
    rw [carries.written, writtenRun]
  · exact run.symm
  · intro packet
    rw [run, not_lt]
    constructor
    · intro held
      obtain ⟨came, above⟩ := (mem_held packet.seq).mp (List.mem_map_of_mem held)
      obtain ⟨other, member, same⟩ := List.mem_map.mp came
      have data := carried other member
      rw [same, ← carries.held packet held] at data
      have eq : other = packet := by
        cases other
        cases packet
        simp_all
      exact ⟨eq ▸ member, above⟩
    · rintro ⟨member, above⟩
      obtain ⟨other, held, same⟩ :=
        List.mem_map.mp ((mem_held packet.seq).mpr ⟨List.mem_map_of_mem member, above⟩)
      have data := carries.held other held
      rw [same, ← carried packet member] at data
      have eq : other = packet := by
        cases other
        cases packet
        simp_all
      exact eq ▸ held
  · exact List.pairwise_map.mp (tracks.held_strict once)

/-- Every order of arrival: after each arrival the longest run is written and the other
packets are held in order, and at the end the connection is the one that has delivered all
payloads.
-/
theorem Conn.onArrivals_any_order (conn : Conn Int) (empty : conn.recvList = [])
    (payloads : List (List Byte)) (arrivals : List (DataPacket Int))
    (perm : arrivals.Perm (numberedFrom conn.nextRecvSeq payloads))
    : (∀ before, before <+: arrivals
        → ∃ length, conn.Reordered payloads before length (conn.onArrivals before))
      ∧ conn.onArrivals arrivals = conn.delivered payloads := by
  constructor
  · intro before isPrefix
    obtain ⟨length, _, reordered⟩ :=
      onArrivals_reordered empty (isPrefix.sublist.subperm.trans perm.subperm)
    exact ⟨length, reordered⟩
  · obtain ⟨length, le, reordered⟩ := onArrivals_reordered empty perm.subperm
    have unchanged : conn.StatusSince conn := Or.inl ⟨rfl, rfl⟩
    obtain ⟨since, sendSeq⟩ := onArrivals_frame unchanged rfl arrivals
    have numbers : ∀ n, n ∈ arrivals.map DataPacket.seq
        ↔ conn.nextRecvSeq ≤ n ∧ n < conn.nextRecvSeq + payloads.length := by
      intro n
      rw [(perm.map DataPacket.seq).mem_iff, numberedFrom_seq, Int.mem_range_iff]
    have whole : length = payloads.length := by
      refine le_antisymm le (reordered.longest.2 (fun i less => ?_))
      exact (numbers _).mpr ⟨by omega, by omega⟩
    subst whole
    have drained : (conn.onArrivals arrivals).recvList = [] := by
      refine List.eq_nil_iff_forall_not_mem.mpr (fun packet member => ?_)
      obtain ⟨arrived, passed⟩ := (reordered.held packet).mp member
      exact passed ((numbers _).mp (List.mem_map_of_mem arrived)).2
    have written := reordered.written
    have next := reordered.next
    rw [List.take_length] at written
    have status : (conn.onArrivals arrivals).status
        = if payloads = [] then conn.status else conn.status.afterWrite := by
      rcases since with ⟨same, status⟩ | ⟨less, status⟩
      · have noPayload : payloads.length = 0 := by omega
        rw [if_pos (List.length_eq_zero_iff.mp noPayload), status]
      · have somePayload : payloads ≠ [] := by
          rintro rfl
          rw [List.length_nil] at next
          omega
        rw [if_neg somePayload, status]
    generalize conn.onArrivals arrivals = after at *
    cases after
    simp_all [delivered]

/-- Three packets from number 7 on, of which the middle one comes last. -/
theorem Conn.onArrivals_any_order_from_seven
    : ({ (Conn.new : Conn Int) with nextRecvSeq := 7 } : Conn Int).onArrivals
          [⟨9, [3]⟩, ⟨7, [1]⟩, ⟨8, []⟩]
        = { (Conn.new : Conn Int) with
            nextRecvSeq := 10, byteStream := [1, 3], status := .hasData } :=
  (onArrivals_any_order { (Conn.new : Conn Int) with nextRecvSeq := 7 } rfl [[1], [], [3]]
    [⟨9, [3]⟩, ⟨7, [1]⟩, ⟨8, []⟩] (by decide)).2

end SchoolSystem.TcpSocket
