import SchoolSystem.Library.WrappingCounter
import SchoolSystem.TcpSocket.Isolation

/-! The `DATA` branch with the counters of the source, which have 32 bits and wrap around.
The branch compares them as signed numbers.
-/

namespace SchoolSystem.TcpSocket

open WrappingCounter

/-- Number `seq` is `count` packets ahead of `next`, counted around the end of the range. -/
def Ahead (next seq : Int32) (count : Nat) : Prop :=
  1 ≤ count ∧ count < 2 ^ 31 ∧ seq = next + Int32.ofNat count

/-- The `DATA` branch keeps a packet that is `count` ahead, between the held packets less far
ahead and those further ahead, and drops none of them.
-/
def Conn.Keeps (conn : Conn Int32) (packet : DataPacket Int32) (count : Nat) : Prop :=
  ∃ before after,
    conn.recvList = before ++ after
    ∧ conn.onData packet = { conn with recvList := before ++ packet :: after }
    ∧ (∀ held ∈ before, ∀ other, Ahead conn.nextRecvSeq held.seq other → other ≤ count)
    ∧ ∀ held ∈ after, ∀ other, Ahead conn.nextRecvSeq held.seq other → count ≤ other

/-- Neither the packet nor a held one further ahead lies past the largest number. -/
def Conn.Unwrapped (conn : Conn Int32) (count : Nat) : Prop :=
  conn.nextRecvSeq.toInt + count < 2 ^ 31
  ∧ ∀ held ∈ conn.recvList,
      ∀ other, Ahead conn.nextRecvSeq held.seq other → count < other
      → conn.nextRecvSeq.toInt + other < 2 ^ 31

/-- Held packets are in the order of their numbers, as signed numbers. -/
def Conn.Sorted (conn : Conn Int32) : Prop :=
  (conn.recvList.map (fun held => held.seq.toInt)).Pairwise (· ≤ ·)

theorem insertPacket_map_toInt (packet : DataPacket Int32) (held : List (DataPacket Int32))
    : (insertPacket packet held).map (fun held => held.seq.toInt)
      = ReorderBuffer.insert packet.seq.toInt (held.map (fun held => held.seq.toInt)) := by
  induction held with
  | nil => rfl
  | cons head rest ih =>
      simp only [insertPacket, ReorderBuffer.insert, List.map_cons, Int32.lt_iff_toInt_lt]
      split
      · rfl
      · rw [List.map_cons, ih]

/-- The packet stands behind the held packets up to its number and before the larger ones. -/
theorem insertPacket_split (packet : DataPacket Int32) {held : List (DataPacket Int32)}
    (sorted : (held.map (fun held => held.seq.toInt)).Pairwise (· ≤ ·))
    : ∃ before after,
        held = before ++ after
        ∧ insertPacket packet held = before ++ packet :: after
        ∧ (∀ other ∈ before, other.seq.toInt ≤ packet.seq.toInt)
        ∧ ∀ other ∈ after, packet.seq.toInt < other.seq.toInt := by
  induction held with
  | nil => exact ⟨[], [], rfl, rfl, by simp, by simp⟩
  | cons head rest ih =>
      obtain ⟨below, tail⟩ := List.pairwise_cons.mp sorted
      rw [insertPacket]
      by_cases less : packet.seq < head.seq
      · have first := Int32.lt_iff_toInt_lt.mp less
        refine ⟨[], head :: rest, rfl, if_pos less, by simp, ?_⟩
        intro other member
        rcases List.mem_cons.mp member with rfl | later
        · exact first
        · exact lt_of_lt_of_le first (below _ (List.mem_map_of_mem later))
      · have first : head.seq.toInt ≤ packet.seq.toInt :=
          not_lt.mp (mt Int32.lt_iff_toInt_lt.mpr less)
        obtain ⟨before, after, split, inserted, low, high⟩ := ih tail
        refine ⟨head :: before, after, by rw [split]; rfl, ?_, ?_, high⟩
        · rw [if_neg less, inserted]
          rfl
        · intro other member
          rcases List.mem_cons.mp member with rfl | later
          · exact first
          · exact low other later

section Ahead

variable {conn : Conn Int32} {packet : DataPacket Int32} {count : Nat}

/-- A packet ahead is held exactly when the counter does not wrap before it; else it is dropped,
though it was acknowledged.
-/
theorem Conn.onData_ahead (ahead : Ahead conn.nextRecvSeq packet.seq count)
    : conn.onData packet
      = if conn.nextRecvSeq.toInt + count < 2 ^ 31 then
          { conn with recvList := insertPacket packet conn.recvList }
        else
          conn := by
  obtain ⟨some, small, same⟩ := ahead
  have later := lt_add_ofNat_iff conn.nextRecvSeq some small
  rw [← same] at later
  have different : packet.seq ≠ conn.nextRecvSeq := by
    intro equal
    have moved := congrArg Int32.toInt (same.symm.trans equal)
    by_cases inside : conn.nextRecvSeq.toInt + count < 2 ^ 31
    · rw [toInt_add_ofNat inside] at moved
      omega
    · rw [toInt_add_ofNat_wrapped small (by omega)] at moved
      omega
  rw [onData, if_neg different]
  by_cases inside : conn.nextRecvSeq.toInt + count < 2 ^ 31
  · rw [if_pos (later.mpr inside), if_pos inside]
  · rw [if_neg (mt later.mp inside), if_neg inside]

theorem Ahead.toInt_lt {next seq : Int32} (ahead : Ahead next seq count)
    (past : ¬ next.toInt + count < 2 ^ 31)
    : seq.toInt < next.toInt := by
  rw [ahead.2.2, toInt_add_ofNat_wrapped ahead.2.1 (by omega)]
  have small := ahead.2.1
  omega

theorem Ahead.toInt_eq {next seq : Int32} (ahead : Ahead next seq count)
    (inside : next.toInt + count < 2 ^ 31)
    : seq.toInt = next.toInt + count := by
  rw [ahead.2.2]
  exact toInt_add_ofNat inside

/-- A packet that is kept in its place does not wrap, and no held one further ahead does: it would
stand before the packet.
-/
theorem Conn.Keeps.unwrapped (sorted : conn.Sorted)
    (ahead : Ahead conn.nextRecvSeq packet.seq count) (keeps : conn.Keeps packet count)
    : conn.Unwrapped count := by
  obtain ⟨before, after, split, kept, near, far⟩ := keeps
  have handled := Conn.onData_ahead ahead
  by_cases inside : conn.nextRecvSeq.toInt + count < 2 ^ 31
  · rw [if_pos inside, kept] at handled
    have inserted : before ++ packet :: after = insertPacket packet conn.recvList :=
      congrArg Conn.recvList handled
    have stillSorted := ReorderBuffer.insert_sorted (n := packet.seq.toInt) sorted
    rw [← insertPacket_map_toInt, ← inserted, List.map_append, List.map_cons] at stillSorted
    refine ⟨inside, fun held member other aheadOther further => ?_⟩
    by_contra past
    rw [split] at member
    rcases List.mem_append.mp member with early | late
    · have le := near held early other aheadOther
      omega
    · have tail := (List.pairwise_append.mp stillSorted).2.1
      have le := (List.pairwise_cons.mp tail).1 _ (List.mem_map_of_mem late)
      have wrapped := aheadOther.toInt_lt past
      have here := ahead.toInt_eq inside
      omega
  · rw [if_neg inside, kept] at handled
    have same : before ++ packet :: after = conn.recvList := congrArg Conn.recvList handled
    have length := congrArg List.length (same.trans split)
    simp at length

theorem Conn.Unwrapped.keeps (sorted : conn.Sorted)
    (ahead : Ahead conn.nextRecvSeq packet.seq count) (unwrapped : conn.Unwrapped count)
    : conn.Keeps packet count := by
  obtain ⟨inside, further⟩ := unwrapped
  obtain ⟨before, after, split, inserted, low, high⟩ := insertPacket_split packet sorted
  have here := ahead.toInt_eq inside
  refine ⟨before, after, split, ?_, ?_, ?_⟩
  · rw [Conn.onData_ahead ahead, if_pos inside, inserted]
  · intro held early other aheadOther
    by_contra more
    have member : held ∈ conn.recvList := by
      rw [split]
      exact List.mem_append_left _ early
    have there := aheadOther.toInt_eq (further held member other aheadOther (by omega))
    have le := low held early
    omega
  · intro held late other aheadOther
    by_contra less
    have there := aheadOther.toInt_eq (by omega)
    have lt := high held late
    omega

end Ahead

-----------------------------------------------------------------------------------------
-- Every state of a socket
-----------------------------------------------------------------------------------------

/-- Draining leaves the end of the list, by induction on the held packets. -/
theorem Conn.drain_recvList_suffix (conn : Conn Int32) (held : List (DataPacket Int32))
    : (conn.drain held).recvList <:+ held := by
  induction held generalizing conn with
  | nil => exact ⟨[], rfl⟩
  | cons head rest ih =>
      rw [drain]
      split
      · exact (ih (conn.deliver head.data)).trans (List.suffix_cons head rest)
      · exact ⟨[], rfl⟩

/-- The `DATA` branch keeps the order, by its branches. -/
theorem Conn.Sorted.onData {conn : Conn Int32} (sorted : conn.Sorted)
    (packet : DataPacket Int32)
    : (conn.onData packet).Sorted := by
  rw [Conn.onData]
  split
  · have suffix := drain_recvList_suffix (conn.deliver packet.data) conn.recvList
    exact sorted.sublist (suffix.sublist.map _)
  · split
    · simp only [Sorted, insertPacket_map_toInt]
      exact ReorderBuffer.insert_sorted sorted
    · exact sorted

variable {Addr : Type} [DecidableEq Addr]

/-- Every step of a socket keeps all of its lists in order, by the events and packet types. -/
theorem CTcpSocket.step_sorted {socket next : CTcpSocket Addr Int32}
    {event : CTcpSocket.Event Addr Int32}
    (sorted : ∀ addr, (socket.connectMap addr).Sorted) (stepped : socket.step event = some next)
    (addr : Addr)
    : (next.connectMap addr).Sorted := by
  cases event with
  | send target buf =>
      obtain rfl := Option.some.inj stepped
      rw [send, queuePackets_conn]
      exact sorted addr
  | transmit index clock =>
      obtain ⟨result, sent, rfl⟩ := Option.map_eq_some_iff.mp stepped
      rw [(sendThreadProc_spec sent).1]
      exact sorted addr
  | arrive fromAddr packet =>
      obtain rfl := Option.some.inj stepped
      cases packet with
      | establish1 seq =>
          have list : ((socket.onEstablish1 fromAddr seq).connectMap addr).recvList
              = (socket.connectMap addr).recvList := by
            by_cases same : addr = fromAddr
            · subst same
              simp [onEstablish1]
            · simp [onEstablish1, same]
          simp only [recvThreadProc, Conn.Sorted, list]
          exact sorted addr
      | establish2 seq => exact sorted addr
      | ack seq => exact sorted addr
      | data packet =>
          by_cases same : addr = fromAddr
          · subst same
            simpa [recvThreadProc] using (sorted addr).onData packet
          · simpa [recvThreadProc, same] using sorted addr

/-- In every state of a socket, whatever was sent and whatever arrived: the `DATA` branch keeps a
packet that is ahead, in its place among the held ones, exactly when neither it nor a held packet
further ahead lies past the largest number.
-/
theorem CTcpSocket.keeps_iff_unwrapped {events : List (CTcpSocket.Event Addr Int32)}
    {socket : CTcpSocket Addr Int32}
    (ran : TransitionSystem.run CTcpSocket.step CTcpSocket.new events = some socket)
    (addr : Addr) {packet : DataPacket Int32} {count : Nat}
    (ahead : Ahead (socket.connectMap addr).nextRecvSeq packet.seq count)
    : (socket.connectMap addr).Keeps packet count
      ↔ (socket.connectMap addr).Unwrapped count := by
  have initial : ∀ addr, ((new : CTcpSocket Addr Int32).connectMap addr).Sorted :=
    fun _ => List.Pairwise.nil
  have sorted : ∀ addr, (socket.connectMap addr).Sorted :=
    TransitionSystem.run_invariant (fun sorted stepped => step_sorted sorted stepped) initial ran
  exact ⟨Conn.Keeps.unwrapped (sorted addr) ahead, Conn.Unwrapped.keeps (sorted addr) ahead⟩

/-- Number 6 comes while 8 is held and 5 is next. -/
theorem CTcpSocket.keeps_reordered
    : ∃ (events : List (CTcpSocket.Event Nat Int32)) (socket : CTcpSocket Nat Int32),
        TransitionSystem.run CTcpSocket.step CTcpSocket.new events = some socket
        ∧ (socket.connectMap 7).recvList = [⟨8, [3]⟩]
        ∧ (socket.connectMap 7).Keeps ⟨6, [1]⟩ 1 := by
  let events : List (CTcpSocket.Event Nat Int32) :=
    [.arrive 7 (.establish1 4), .arrive 7 (.data ⟨8, [3]⟩)]
  obtain ⟨socket, ran⟩ : ∃ socket,
      TransitionSystem.run CTcpSocket.step CTcpSocket.new events = some socket := ⟨_, rfl⟩
  obtain rfl := Option.some.inj ran
  refine ⟨events, _, ran, rfl, ?_⟩
  refine (keeps_iff_unwrapped ran 7 ⟨by decide, by decide, by decide⟩).mpr ⟨by decide, ?_⟩
  intro held member other ahead further
  obtain rfl := List.mem_singleton.mp member
  by_contra past
  exact absurd (ahead.toInt_lt past) (by decide)

/-- After the largest number, the next packet but one is acknowledged and dropped. -/
theorem CTcpSocket.not_keeps_wrapped
    : ¬ ∀ (events : List (CTcpSocket.Event Nat Int32)) (socket : CTcpSocket Nat Int32),
          TransitionSystem.run CTcpSocket.step CTcpSocket.new events = some socket
          → ∀ addr packet count,
            Ahead (socket.connectMap addr).nextRecvSeq packet.seq count
            → (socket.connectMap addr).Keeps packet count := by
  intro keeps
  obtain ⟨before, after, split, kept, _⟩ :=
    keeps [.arrive 7 (.establish1 2147483646)] _ rfl 7 ⟨-2147483648, [1]⟩ 1
      ⟨by decide, by decide, by decide⟩
  have dropped : [] = before ++ ⟨-2147483648, [1]⟩ :: after := congrArg Conn.recvList kept
  simp at dropped

end SchoolSystem.TcpSocket
