import SchoolSystem.Library.WrappingCounter
import SchoolSystem.TcpSocket.Socket

/-! Threads in `Send` at the same time, step by step: the call, `Lock`, one packet after the
other and `UnLock`. In between `SendThreadProc` sends and `RecvThreadProc` receives.
-/

namespace SchoolSystem.TcpSocket

open scoped List

/-- A thread in `Send`: before `Lock`, or in the loop, with `count` full packets and `rest` more
bytes to cut from `pBuf`.
-/
inductive Sending (Addr : Type)
  | idle
  | called (addr : Addr) (buf : List Byte)
  | pushing (addr : Addr) (count rest : Nat) (pBuf : List Byte)
  deriving DecidableEq, Repr

/-- The bytes of a `DATA` packet; the other packets have none. -/
def Packet.payload {Seq : Type} : Packet Seq → List Byte
  | .data packet => packet.data
  | .establish1 _ | .establish2 _ | .ack _ => []

/-- A socket with the threads that send over it. `calls` are the calls in the order in which they
took `m_sendListLock`, and `appended` is what their pushes have added to `m_sendList`.
-/
structure Senders (Addr Seq : Type) where
  socket : CTcpSocket Addr Seq
  sendListLock : Option Nat
  threads : Nat → Sending Addr
  calls : List (Addr × List Byte)
  appended : List (Addr × Packet Seq)

namespace Senders

inductive Event (Addr Seq : Type)
  | call (thread : Nat) (addr : Addr) (buf : List Byte)
  | lock (thread : Nat)
  | push (thread : Nat)
  | unLock (thread : Nat)
  | transmit (index : Nat) (clock : Int)
  | arrive (fromAddr : Addr) (packet : Packet Seq)
  deriving DecidableEq, Repr

variable {Addr Seq : Type} [DecidableEq Addr] [Add Seq] [OfNat Seq 1]

/-- No thread has called `Send` yet. -/
def start (socket : CTcpSocket Addr Seq) : Senders Addr Seq where
  socket := socket
  sendListLock := none
  threads := fun _ => .idle
  calls := []
  appended := []

/-- What one list of pending packets has at its end that the one before it had not. -/
def grownBy (before after : CTcpSocket Addr Seq) : List (Addr × Packet Seq) :=
  after.pendingPackets.drop before.pendingPackets.length

/-- One `push_back` of `Send`, after which the thread goes on at `later`. What it has appended is
read off `m_sendList`.
-/
def pushPacket (senders : Senders Addr Seq) (thread : Nat) (addr : Addr)
    (data : List Byte) (later : Sending Addr)
    : Senders Addr Seq :=
  let socket := senders.socket.queuePacket addr data
  {
    senders with
    socket
    threads := Function.update senders.threads thread later
    appended := senders.appended ++ grownBy senders.socket socket
  }

/-- The loop of `Send` and the packet for the rest after it. -/
def push (senders : Senders Addr Seq) (thread : Nat) : Option (Senders Addr Seq) :=
  match senders.threads thread with
  | .pushing addr (count + 1) rest pBuf =>
      some
        (senders.pushPacket thread addr (pBuf.take dataLen)
          (.pushing addr count rest (pBuf.drop dataLen)))
  | .pushing addr 0 rest pBuf =>
      if rest ≠ 0 then
        some (senders.pushPacket thread addr (pBuf.take rest) (.pushing addr 0 0 pBuf))
      else
        none
  | .idle | .called _ _ => none

/-- `SendThreadProc` and the `ACK` and `ESTABLISH_1` branches use the list under its lock; the
other branches do not touch it.
-/
def step [OfNat Seq 0] [DecidableEq Seq] [LT Seq] [DecidableLT Seq]
    (senders : Senders Addr Seq)
    : Event Addr Seq → Option (Senders Addr Seq)
  | .call thread addr buf =>
      if senders.threads thread = .idle then
        some
          {
            senders with
            threads := Function.update senders.threads thread (.called addr buf)
          }
      else
        none
  | .lock thread =>
      match senders.threads thread with
      | .called addr buf =>
          if senders.sendListLock = none then
            some
              {
                senders with
                sendListLock := some thread
                threads :=
                  Function.update senders.threads thread
                    (.pushing addr (buf.length / dataLen) (buf.length % dataLen) buf)
                calls := senders.calls ++ [(addr, buf)]
              }
          else
            none
      | .idle | .pushing _ _ _ _ => none
  | .push thread => senders.push thread
  | .unLock thread =>
      match senders.threads thread with
      | .pushing _ 0 0 _ =>
          some
            {
              senders with
              sendListLock := none
              threads := Function.update senders.threads thread .idle
            }
      | .idle | .called _ _ | .pushing _ _ _ _ => none
  | .transmit index clock =>
      if senders.sendListLock = none then
        (senders.socket.sendThreadProc index clock).map
          (fun result => { senders with socket := result.1 })
      else
        none
  | .arrive fromAddr packet =>
      if packet.isData ∨ senders.sendListLock = none then
        some { senders with socket := (senders.socket.recvThreadProc fromAddr packet).1 }
      else
        none

/-- The items recorded for one address, in order. -/
def itemsFor {Item : Type} (addr : Addr) (items : List (Addr × Item)) : List Item :=
  items.filterMap (fun item => if item.1 = addr then some item.2 else none)

/-- The payloads that the call in progress has yet to push for this address. -/
def unsent (senders : Senders Addr Seq) (addr : Addr) : List (List Byte) :=
  match senders.sendListLock with
  | none => []
  | some thread =>
      match senders.threads thread with
      | .pushing target count rest pBuf => if target = addr then cutPayloads count rest pBuf else []
      | .idle | .called _ _ => []

/-- `ceil(nLen / DATA_LEN)`. -/
def packetCount (buf : List Byte) : Nat := (buf.length + (dataLen - 1)) / dataLen

-----------------------------------------------------------------------------------------
-- What the calls have pushed so far
-----------------------------------------------------------------------------------------

/-- The packets of each address are numbered from its first counter on, and with those unsent
they are the packets of its calls. The list holds what it had at first and what was appended,
without the packets that were acknowledged.
-/
structure Packetised (initial : CTcpSocket Addr Seq) (senders : Senders Addr Seq) : Prop where
  alone
    : ∀ thread addr count rest pBuf,
        senders.threads thread = .pushing addr count rest pBuf
        → senders.sendListLock = some thread
  pending : senders.socket.pendingPackets <+ initial.pendingPackets ++ senders.appended
  numbered
    : ∀ addr,
        itemsFor addr senders.appended
        = (numberedFrom (initial.connectMap addr).nextSendSeq
            ((itemsFor addr senders.appended).map Packet.payload)).map Packet.data
  counter
    : ∀ addr,
        (senders.socket.connectMap addr).nextSendSeq
        = (fun seq => seq + 1)^[(itemsFor addr senders.appended).length]
            (initial.connectMap addr).nextSendSeq
  payloads
    : ∀ addr,
        (itemsFor addr senders.appended).map Packet.payload ++ senders.unsent addr
        = (itemsFor addr senders.calls).flatMap payloads

theorem packetised_start (socket : CTcpSocket Addr Seq) : Packetised socket (start socket) where
  alone _ _ _ _ _ place := nomatch place
  pending := List.sublist_append_left ..
  numbered _ := rfl
  counter _ := rfl
  payloads _ := rfl

section Items

omit [Add Seq] [OfNat Seq 1]

variable {Item : Type} {addr other : Addr}

@[simp]
theorem itemsFor_concat_self (items : List (Addr × Item)) (item : Item)
    : itemsFor addr (items ++ [(addr, item)]) = itemsFor addr items ++ [item] := by
  simp [itemsFor]

@[simp]
theorem itemsFor_concat_ne (items : List (Addr × Item)) (item : Item) (ne : addr ≠ other)
    : itemsFor other (items ++ [(addr, item)]) = itemsFor other items := by
  simp [itemsFor, ne]

end Items

section Numbers

omit [DecidableEq Addr]

/-- One more payload takes the number after those before it, by induction on these. -/
theorem numberedFrom_concat (start : Seq) (data : List (List Byte)) (last : List Byte)
    : numberedFrom start (data ++ [last])
      = numberedFrom start data ++ [⟨(fun seq => seq + 1)^[data.length] start, last⟩] := by
  induction data generalizing start with
  | nil => rfl
  | cons head rest ih =>
      rw [List.cons_append, numberedFrom, ih (start + 1), List.length_cons,
        Function.iterate_succ_apply]
      rfl

end Numbers

-----------------------------------------------------------------------------------------
-- Steps
-----------------------------------------------------------------------------------------

section Steps

variable {initial : CTcpSocket Addr Seq} {senders next : Senders Addr Seq} {thread : Nat}
  {addr : Addr}

omit [Add Seq] [OfNat Seq 1] in
theorem unsent_of_free (free : senders.sendListLock = none) : senders.unsent addr = [] := by
  rw [unsent, free]

omit [Add Seq] [OfNat Seq 1] in
theorem unsent_of_pushing {target : Addr} {count rest : Nat} {pBuf : List Byte}
    (held : senders.sendListLock = some thread)
    (place : senders.threads thread = .pushing target count rest pBuf)
    : senders.unsent addr = if target = addr then cutPayloads count rest pBuf else [] := by
  rw [unsent, held]
  simp only [place]

/-- No packet but `ESTABLISH_1` adds a packet to the list. -/
theorem recvThreadProc_pendingPackets [OfNat Seq 0] [DecidableEq Seq] [LT Seq]
    [DecidableLT Seq] (socket : CTcpSocket Addr Seq) (fromAddr : Addr) {packet : Packet Seq}
    (other : ∀ seq, packet ≠ .establish1 seq)
    : (socket.recvThreadProc fromAddr packet).1.pendingPackets <+ socket.pendingPackets := by
  cases packet with
  | establish1 seq => exact absurd rfl (other seq)
  | establish2 | data => exact List.Sublist.refl _
  | ack seq =>
      simp only [CTcpSocket.recvThreadProc, CTcpSocket.onAck_pendingPackets]
      exact List.eraseP_sublist

/-- No packet but `ESTABLISH_1` sets a send counter. -/
theorem recvThreadProc_nextSendSeq [OfNat Seq 0] [DecidableEq Seq] [LT Seq] [DecidableLT Seq]
    (socket : CTcpSocket Addr Seq) (fromAddr : Addr)
    {packet : Packet Seq} (other : ∀ seq, packet ≠ .establish1 seq)
    : ((socket.recvThreadProc fromAddr packet).1.connectMap addr).nextSendSeq
      = (socket.connectMap addr).nextSendSeq := by
  cases packet with
  | establish1 seq => exact absurd rfl (other seq)
  | establish2 seq => rfl
  | ack seq => rfl
  | data packet =>
      by_cases same : addr = fromAddr
      · subst same
        simp [CTcpSocket.recvThreadProc]
      · simp [CTcpSocket.recvThreadProc, same]

/-- Steps that leave the counters and what is pushed alone, and add no packet to the list. -/
theorem Packetised.socket (packetised : Packetised initial senders)
    (socket : CTcpSocket Addr Seq)
    (same
      : ∀ addr,
          (socket.connectMap addr).nextSendSeq
          = (senders.socket.connectMap addr).nextSendSeq)
    (fewer : socket.pendingPackets <+ senders.socket.pendingPackets)
    : Packetised initial { senders with socket } where
  alone := packetised.alone
  pending := fewer.trans packetised.pending
  numbered := packetised.numbered
  counter addr := (same addr).trans (packetised.counter addr)
  payloads := packetised.payloads

/-- A call begins; no thread that pushes is moved. -/
theorem Packetised.call (packetised : Packetised initial senders) (buf : List Byte)
    (idle : senders.threads thread = .idle)
    : Packetised initial
        {
          senders with
          threads := Function.update senders.threads thread (.called addr buf)
        } where
  alone other target count rest pBuf place := by
    by_cases same : other = thread
    · subst same
      simp [Function.update_self] at place
    · simp only [Function.update_of_ne same] at place
      exact packetised.alone other target count rest pBuf place
  pending := packetised.pending
  numbered := packetised.numbered
  counter := packetised.counter
  payloads target := by
    refine Eq.trans ?_ (packetised.payloads target)
    congr 1
    simp only [unsent]
    cases senders.sendListLock with
    | none => rfl
    | some holder =>
        by_cases same : holder = thread
        · subst same
          simp only [Function.update_self, idle]
        · simp only [Function.update_of_ne same]

/-- The thread that takes the lock has all of its packets before it. -/
theorem Packetised.lock {buf : List Byte} (packetised : Packetised initial senders)
    (free : senders.sendListLock = none)
    : Packetised initial
        {
          senders with
          sendListLock := some thread
          threads :=
            Function.update senders.threads thread
              (.pushing addr (buf.length / dataLen) (buf.length % dataLen) buf)
          calls := senders.calls ++ [(addr, buf)]
        } where
  alone other target count rest pBuf place := by
    by_cases same : other = thread
    · rw [same]
    · simp only [Function.update_of_ne same] at place
      have held := packetised.alone other target count rest pBuf place
      rw [free] at held
      cases held
  pending := packetised.pending
  numbered := packetised.numbered
  counter := packetised.counter
  payloads target := by
    have before := packetised.payloads target
    rw [unsent_of_free free, List.append_nil] at before
    rw [before, unsent_of_pushing rfl (Function.update_self ..)]
    by_cases same : addr = target
    · subst same
      rw [if_pos rfl, itemsFor_concat_self, List.flatMap_append]
      simp [TcpSocket.payloads]
    · rw [if_neg same, itemsFor_concat_ne _ _ same, List.append_nil]

omit [DecidableEq Addr] [Add Seq] [OfNat Seq 1] in
theorem grownBy_of_append {before after : CTcpSocket Addr Seq}
    {entries : List (Addr × Packet Seq)}
    (grown : after.pendingPackets = before.pendingPackets ++ entries)
    : grownBy before after = entries := by
  rw [grownBy, grown, List.drop_left]

/-- `push_back` adds one node to the end of the list: a `DATA` packet with the next number. -/
theorem queuePacket_pendingPackets (socket : CTcpSocket Addr Seq) (addr : Addr)
    (data : List Byte)
    : (socket.queuePacket addr data).pendingPackets
      = socket.pendingPackets
        ++ [(addr, .data ⟨(socket.connectMap addr).nextSendSeq, data⟩)] := by
  simp [CTcpSocket.queuePacket, CTcpSocket.pendingPackets]

/-- What a push has appended is the packet that it has put into the list. -/
theorem pushPacket_appended (senders : Senders Addr Seq) (thread : Nat) (addr : Addr)
    (data : List Byte) (later : Sending Addr)
    : (senders.pushPacket thread addr data later).appended
      = senders.appended
        ++ [(addr, .data ⟨(senders.socket.connectMap addr).nextSendSeq, data⟩)] :=
  congrArg (senders.appended ++ ·)
    (grownBy_of_append (queuePacket_pendingPackets senders.socket addr data))

/-- A packet goes from those unsent to those pushed. -/
theorem Packetised.pushPacket {data : List Byte} {count rest fewer left : Nat}
    {pBuf more : List Byte} (packetised : Packetised initial senders)
    (place : senders.threads thread = .pushing addr count rest pBuf)
    (cut : cutPayloads count rest pBuf = data :: cutPayloads fewer left more)
    : Packetised initial
        (senders.pushPacket thread addr data (.pushing addr fewer left more)) where
  alone other target count rest pBuf placed := by
    have held := packetised.alone thread addr _ _ _ place
    by_cases same : other = thread
    · rw [same]
      exact held
    · simp only [Senders.pushPacket, Function.update_of_ne same] at placed
      exact packetised.alone other target count rest pBuf placed
  pending := by
    rw [pushPacket_appended, ← List.append_assoc]
    have grown := queuePacket_pendingPackets senders.socket addr data
    change (senders.socket.queuePacket addr data).pendingPackets <+ _
    rw [grown]
    exact packetised.pending.append_right _
  numbered target := by
    have before := packetised.numbered target
    rw [pushPacket_appended]
    by_cases same : addr = target
    · subst same
      rw [itemsFor_concat_self, List.map_append, List.map_singleton, numberedFrom_concat,
        List.map_append, ← before, List.length_map, ← packetised.counter addr]
      rfl
    · rw [itemsFor_concat_ne _ _ same]
      exact before
  counter target := by
    have before := packetised.counter target
    rw [pushPacket_appended]
    simp only [Senders.pushPacket, CTcpSocket.queuePacket]
    by_cases same : addr = target
    · subst same
      rw [itemsFor_concat_self, List.length_append, List.length_singleton,
        Function.iterate_succ_apply', ← before, Function.update_self]
    · rw [itemsFor_concat_ne _ _ same, Function.update_of_ne (Ne.symm same)]
      exact before
  payloads target := by
    have held := packetised.alone thread addr _ _ _ place
    have before := packetised.payloads target
    rw [unsent_of_pushing held place] at before
    have now
        : (senders.pushPacket thread addr data (.pushing addr fewer left more)).unsent target
          = if addr = target then cutPayloads fewer left more else [] :=
      unsent_of_pushing held (Function.update_self ..)
    rw [now, pushPacket_appended]
    simp only [Senders.pushPacket]
    by_cases same : addr = target
    · subst same
      rw [if_pos rfl, cut] at before
      rw [if_pos rfl, itemsFor_concat_self, ← before]
      simp [Packet.payload]
    · rw [if_neg same] at before ⊢
      rw [itemsFor_concat_ne _ _ same]
      exact before

/-- The thread that has pushed its last packet releases the lock. -/
theorem Packetised.unLock {pBuf : List Byte} (packetised : Packetised initial senders)
    (place : senders.threads thread = .pushing addr 0 0 pBuf)
    : Packetised initial
        {
          senders with
          sendListLock := none
          threads := Function.update senders.threads thread .idle
        } where
  alone other target count rest pBuf placed := by
    have held := packetised.alone thread addr _ _ _ place
    by_cases same : other = thread
    · subst same
      simp [Function.update_self] at placed
    · simp only [Function.update_of_ne same] at placed
      have holds := packetised.alone other target count rest pBuf placed
      rw [held] at holds
      exact absurd (Option.some.inj holds).symm same
  pending := packetised.pending
  numbered := packetised.numbered
  counter := packetised.counter
  payloads target := by
    have held := packetised.alone thread addr _ _ _ place
    have before := packetised.payloads target
    rw [unsent_of_pushing held place] at before
    rw [unsent_of_free rfl]
    simpa [cutPayloads] using before

/-- Every step but the arrival of an `ESTABLISH_1`, by the events. -/
theorem Packetised.step [OfNat Seq 0] [DecidableEq Seq] [LT Seq] [DecidableLT Seq]
    {event : Event Addr Seq} (packetised : Packetised initial senders)
    (other : ∀ fromAddr seq, event ≠ .arrive fromAddr (.establish1 seq))
    (stepped : senders.step event = some next)
    : Packetised initial next := by
  cases event with
  | call thread addr buf =>
      obtain ⟨idle, same⟩ := Option.ite_none_right_eq_some.mp stepped
      obtain rfl := Option.some.inj same
      exact packetised.call buf idle
  | lock thread =>
      simp only [Senders.step] at stepped
      cases place : senders.threads thread with
      | called addr buf =>
          simp only [place] at stepped
          obtain ⟨free, same⟩ := Option.ite_none_right_eq_some.mp stepped
          obtain rfl := Option.some.inj same
          exact packetised.lock free
      | idle => simp [place] at stepped
      | pushing addr count rest pBuf => simp [place] at stepped
  | push thread =>
      simp only [Senders.step, push] at stepped
      cases place : senders.threads thread with
      | pushing addr count rest pBuf =>
          cases count with
          | succ count =>
              simp only [place] at stepped
              obtain rfl := Option.some.inj stepped
              exact packetised.pushPacket place rfl
          | zero =>
              simp only [place] at stepped
              obtain ⟨some, same⟩ := Option.ite_none_right_eq_some.mp stepped
              obtain rfl := Option.some.inj same
              exact packetised.pushPacket place (by simp [cutPayloads, some])
      | idle => simp [place] at stepped
      | called addr buf => simp [place] at stepped
  | unLock thread =>
      simp only [Senders.step] at stepped
      split at stepped
      · rename_i addr pBuf place
        obtain rfl := Option.some.inj stepped
        exact packetised.unLock place
      all_goals cases stepped
  | transmit index clock =>
      obtain ⟨_, sent⟩ := Option.ite_none_right_eq_some.mp stepped
      obtain ⟨result, transmitted, rfl⟩ := Option.map_eq_some_iff.mp sent
      obtain ⟨same, pending, _⟩ := CTcpSocket.sendThreadProc_spec transmitted
      exact packetised.socket result.1 (fun addr => by rw [same]) (by rw [pending])
  | arrive fromAddr packet =>
      obtain ⟨_, same⟩ := Option.ite_none_right_eq_some.mp stepped
      obtain rfl := Option.some.inj same
      have notFirst : ∀ seq, packet ≠ .establish1 seq := by
        rintro seq rfl
        exact other fromAddr seq rfl
      exact packetised.socket _
        (fun addr => recvThreadProc_nextSendSeq senders.socket fromAddr notFirst)
        (recvThreadProc_pendingPackets senders.socket fromAddr notFirst)

end Steps

-----------------------------------------------------------------------------------------
-- Packetisation is exact
-----------------------------------------------------------------------------------------

/-- What the calls of `Send` for one address have appended to `m_sendList`, from the value that
the counter of its connection had at first. Each push puts one node at the end of the list, and
the list holds what it had at first and these nodes, but for those that were acknowledged.
-/
structure Exact (initial : CTcpSocket Addr Int32) (senders : Senders Addr Int32) (addr : Addr)
    : Prop where
  pushes
    : ∀ thread next,
        senders.step (.push thread) = some next
        → ∃ node,
            next.socket.sendList = senders.socket.sendList ++ [node]
            ∧ next.appended = senders.appended ++ [(node.addr, node.packet)]
  pending : senders.socket.pendingPackets <+ initial.pendingPackets ++ senders.appended
  consecutive
    : (itemsFor addr senders.appended).map Packet.seq
      = (List.range (itemsFor addr senders.appended).length).map
          (fun index => (initial.connectMap addr).nextSendSeq + Int32.ofNat index)
  bounds
    : ∀ packet ∈ itemsFor addr senders.appended,
        packet.isData = true ∧ 1 ≤ packet.payload.length ∧ packet.payload.length ≤ dataLen
  data
    : (itemsFor addr senders.appended).flatMap Packet.payload
        ++ (senders.unsent addr).flatten
      = (itemsFor addr senders.calls).flatten
  count
    : (itemsFor addr senders.appended).length + (senders.unsent addr).length
      = ((itemsFor addr senders.calls).map packetCount).sum
  counter
    : (senders.socket.connectMap addr).nextSendSeq
      = (initial.connectMap addr).nextSendSeq
        + Int32.ofNat (itemsFor addr senders.appended).length
  unwrapped
    : (initial.connectMap addr).nextSendSeq.toInt + (itemsFor addr senders.appended).length
        < 2 ^ 31
      → (senders.socket.connectMap addr).nextSendSeq.toInt
        = (initial.connectMap addr).nextSendSeq.toInt
          + (itemsFor addr senders.appended).length
  finished : senders.sendListLock = none → senders.unsent addr = []

/-- A push of a thread is one `push_back`. -/
theorem push_eq_some {senders next : Senders Addr Seq} {thread : Nat}
    (pushed : senders.push thread = some next)
    : ∃ addr data later, next = senders.pushPacket thread addr data later := by
  rw [push] at pushed
  split at pushed
  · exact ⟨_, _, _, (Option.some.inj pushed).symm⟩
  · obtain ⟨_, same⟩ := Option.ite_none_right_eq_some.mp pushed
    exact ⟨_, _, _, (Option.some.inj same).symm⟩
  all_goals cases pushed

theorem cutPayloads_length (count rest : Nat) (buf : List Byte)
    : (cutPayloads count rest buf).length = count + if rest = 0 then 0 else 1 := by
  induction count generalizing buf with
  | zero => by_cases none : rest = 0 <;> simp [cutPayloads, none]
  | succ count ih =>
      rw [cutPayloads, List.length_cons, ih]
      omega

theorem payloads_length (buf : List Byte) : (payloads buf).length = packetCount buf := by
  rw [payloads, cutPayloads_length, packetCount]
  by_cases whole : buf.length % dataLen = 0
  · rw [if_pos whole]
    simp only [dataLen] at whole ⊢
    omega
  · rw [if_neg whole]
    simp only [dataLen] at whole ⊢
    omega

/-- The payloads of all calls are their buffers, by induction on the calls. -/
theorem flatMap_payloads_flatten (bufs : List (List Byte))
    : (bufs.flatMap payloads).flatten = bufs.flatten := by
  induction bufs with
  | nil => rfl
  | cons buf rest ih =>
      rw [List.flatMap_cons, List.flatten_append, payloads_flatten, ih, List.flatten_cons]

theorem numberedFrom_map_seq (first : Int32) (data : List (List Byte))
    : (numberedFrom first data).map DataPacket.seq
      = (List.range data.length).map (fun index => first + Int32.ofNat index) := by
  induction data using List.reverseRecOn with
  | nil => rfl
  | append_singleton data last ih =>
      rw [numberedFrom_concat, List.map_append, ih, List.length_append, List.length_singleton,
        List.range_succ, List.map_append, WrappingCounter.iterate_add_one]
      rfl

theorem Packetised.exact {initial : CTcpSocket Addr Int32} {senders : Senders Addr Int32}
    (packetised : Packetised initial senders) (addr : Addr)
    : Exact initial senders addr := by
  have payloads := packetised.payloads addr
  have counter := packetised.counter addr
  rw [WrappingCounter.iterate_add_one] at counter
  constructor
  · intro thread next pushed
    obtain ⟨target, data, later, rfl⟩ := push_eq_some pushed
    exact ⟨_, rfl, pushPacket_appended senders thread target data later⟩
  · exact packetised.pending
  · have numbers := congrArg (List.map Packet.seq) (packetised.numbered addr)
    rw [List.map_map] at numbers
    exact numbers.trans ((numberedFrom_map_seq _ _).trans (by rw [List.length_map]))
  · intro packet member
    have inPayloads
        : packet.payload ∈ (itemsFor addr senders.calls).flatMap TcpSocket.payloads := by
      rw [← payloads]
      exact List.mem_append_left _ (List.mem_map_of_mem member)
    obtain ⟨buf, _, cut⟩ := List.mem_flatMap.mp inPayloads
    refine ⟨?_, payloads_bounds buf packet.payload cut⟩
    rw [packetised.numbered addr] at member
    obtain ⟨numbered, _, rfl⟩ := List.mem_map.mp member
    rfl
  · have joined := congrArg List.flatten payloads
    rw [List.flatten_append, ← List.flatMap_def, flatMap_payloads_flatten] at joined
    exact joined
  · have sizes := congrArg List.length payloads
    rw [List.length_append, List.length_map, List.length_flatMap] at sizes
    rw [sizes]
    exact congrArg List.sum (List.map_congr_left (fun buf _ => payloads_length buf))
  · exact counter
  · intro inside
    rw [counter]
    exact WrappingCounter.toInt_add_ofNat inside
  · exact fun free => unsent_of_free free

/-- However many threads send, and to whichever addresses: in every state that they reach without
an `ESTABLISH_1` the packets of each address are exact, in the order in which the calls for
it took the lock.
-/
theorem exact_of_run {socket : CTcpSocket Addr Int32} {events : List (Event Addr Int32)}
    {senders : Senders Addr Int32}
    (ran : TransitionSystem.run step (start socket) events = some senders)
    (other : ∀ fromAddr seq, .arrive fromAddr (.establish1 seq) ∉ events) (addr : Addr)
    : Exact socket senders addr := by
  have along : TransitionSystem.Along step
      (fun _ event => ∀ fromAddr seq, event ≠ .arrive fromAddr (.establish1 seq))
      (start socket) events :=
    TransitionSystem.along_of_forall
      (fun event member fromAddr seq same => other fromAddr seq (same ▸ member))
  have packetised := TransitionSystem.run_invariant_along
    (fun packetised notFirst stepped => Packetised.step packetised notFirst stepped)
    (packetised_start socket) along ran
  exact packetised.exact addr

/-- Two threads send to one address and a third one to another; the second call takes the lock
before the first one.
-/
theorem exact_of_run_threads
    : ∃ events senders,
        TransitionSystem.run step (start (CTcpSocket.new : CTcpSocket Nat Int32)) events
          = some senders
        ∧ itemsFor 7 senders.calls = [[3], [1, 2]]
        ∧ Exact CTcpSocket.new senders 7 := by
  let events : List (Event Nat Int32) :=
    [
      .call 0 7 [1, 2], .call 1 7 [3], .call 2 8 [], .lock 1, .push 1, .unLock 1,
      .transmit 0 20, .lock 2, .unLock 2, .arrive 7 (.ack 0), .lock 0, .push 0, .unLock 0
    ]
  obtain ⟨senders, found⟩ := Option.isSome_iff_exists.mp
    (by decide +kernel
      : ((TransitionSystem.run step (start (CTcpSocket.new : CTcpSocket Nat Int32))
          events).filter (fun senders => itemsFor 7 senders.calls = [[3], [1, 2]])).isSome)
  obtain ⟨ran, calls⟩ := Option.filter_eq_some_iff.mp found
  exact ⟨events, senders, ran, of_decide_eq_true calls, exact_of_run ran (by simp [events]) 7⟩

end Senders

end SchoolSystem.TcpSocket
