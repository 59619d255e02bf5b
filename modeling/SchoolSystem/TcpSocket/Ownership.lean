import SchoolSystem.Library.OwnedHeap
import SchoolSystem.TcpSocket.Isolation

/-! The packets of a socket on the heap. `m_sendList` and every `m_recvList` hold pointers, which
the threads follow and delete; doing so to a packet that does not exist is undefined. `sendto` and
`recvfrom` succeed, and the packet that `RecvThreadProc` has for the next `recvfrom` is left out.
-/

namespace SchoolSystem.TcpSocket

open OwnedHeap (Heap Owned)

open scoped List

/-- A packet on the heap. The `m_nType` of a packet that was received may be none of the four types
that the `switch` of `RecvThreadProc` knows.
-/
inductive HeapPacket (Seq : Type)
  | known (packet : Packet Seq)
  | unknown (seq : Seq)
  deriving DecidableEq, Repr

/-- A node of `m_sendList`, with the address of its packet. -/
structure HeapNode (Addr : Type) where
  time : Int
  addr : Addr
  packet : Nat
  deriving DecidableEq, Repr

/-- A `Conn`, whose `m_recvList` holds the addresses of packets. -/
structure HeapConn (Seq : Type) where
  nextSendSeq : Seq
  nextRecvSeq : Seq
  recvList : List Nat
  byteStream : List Byte
  status : Status
  deriving DecidableEq, Repr

/-- A `CTcpSocket` with its packets on the heap. `leaked` is kept for the proofs: the packets that
`RecvThreadProc` has received and lost.
-/
structure HeapSocket (Addr Seq : Type) where
  heap : Heap (HeapPacket Seq)
  connectMap : Addr → HeapConn Seq
  sendList : List (HeapNode Addr)
  leaked : List (Nat × HeapPacket Seq)

variable {Addr Seq : Type} [DecidableEq Addr] [Add Seq] [OfNat Seq 0] [OfNat Seq 1]

def HeapConn.new : HeapConn Seq :=
  { nextSendSeq := 0, nextRecvSeq := 0, recvList := [], byteStream := [], status := .noData }

/-- The data is written, the status updated, and the counter moved. -/
def HeapConn.deliver (conn : HeapConn Seq) (data : List Byte) : HeapConn Seq :=
  {
    conn with
    nextRecvSeq := conn.nextRecvSeq + 1
    byteStream := conn.byteStream ++ data
    status := conn.status.afterWrite
  }

/-- Follows a pointer of type `DataPacket*`. -/
def readData (heap : Heap (HeapPacket Seq)) (pointer : Nat) : Option (DataPacket Seq) :=
  match heap.read pointer with
  | some (.known (.data packet)) => some packet
  | some (.known (.establish1 _)) | some (.known (.establish2 _)) | some (.known (.ack _))
  | some (.unknown _) | none => none

/-- Follows a pointer of type `Packet*` of `m_sendList`. -/
def readPacket (heap : Heap (HeapPacket Seq)) (pointer : Nat) : Option (Packet Seq) :=
  match heap.read pointer with
  | some (.known packet) => some packet
  | some (.unknown _) | none => none

namespace HeapSocket

def new : HeapSocket Addr Seq where
  heap := .empty
  connectMap := fun _ => .new
  sendList := []
  leaked := []

def setConn (socket : HeapSocket Addr Seq) (addr : Addr) (conn : HeapConn Seq)
    : HeapSocket Addr Seq :=
  { socket with connectMap := Function.update socket.connectMap addr conn }

/-- `new DataPacket`, whose address `m_sendList` takes. -/
def queuePacket (socket : HeapSocket Addr Seq) (addr : Addr) (data : List Byte)
    : HeapSocket Addr Seq :=
  let conn := socket.connectMap addr
  let (heap, packet) := socket.heap.alloc (.known (.data ⟨conn.nextSendSeq, data⟩))
  {
    socket.setConn addr { conn with nextSendSeq := conn.nextSendSeq + 1 } with
    heap
    sendList := socket.sendList ++ [⟨0, addr, packet⟩]
  }

def send (socket : HeapSocket Addr Seq) (addr : Addr) (buf : List Byte) : HeapSocket Addr Seq :=
  (payloads buf).foldl (fun socket data => socket.queuePacket addr data) socket

/-- One iteration of `SendThreadProc`, which follows the pointer of a node that is due, with the
datagrams it sends.
-/
def sendThreadProc (socket : HeapSocket Addr Seq) (index : Nat) (clock : Int)
    : Option (HeapSocket Addr Seq × List (Addr × Packet Seq)) := do
  let node ← socket.sendList[index]?
  if node.time == 0 || 1000 ≤ clock - node.time then
    let packet ← readPacket socket.heap node.packet
    let sent := if packet.isSent then [(node.addr, packet)] else []
    some
      (
        { socket with sendList := socket.sendList.set index { node with time := clock } },
        sent
      )
  else
    some (socket, [])

variable [DecidableEq Seq]

/-- The drain loop: the packet at the head is written, deleted and erased while it is the next. -/
def drain (heap : Heap (HeapPacket Seq)) (conn : HeapConn Seq)
    : List Nat → Option (Heap (HeapPacket Seq) × HeapConn Seq)
  | [] => some (heap, { conn with recvList := [] })
  | held :: rest => do
      let packet ← readData heap held
      if packet.seq = conn.nextRecvSeq then
        let freed ← heap.free held
        drain freed (conn.deliver packet.data) rest
      else
        some (heap, { conn with recvList := held :: rest })

/-- The loop of the `ACK` branch: the first packet with the number is deleted and erased. -/
def eraseAcked (heap : Heap (HeapPacket Seq)) (seq : Seq)
    : List (HeapNode Addr) → Option (Heap (HeapPacket Seq) × List (HeapNode Addr))
  | [] => some (heap, [])
  | node :: rest => do
      let packet ← readPacket heap node.packet
      if packet.seq = seq then
        let freed ← heap.free node.packet
        some (freed, rest)
      else
        let (freed, kept) ← eraseAcked heap seq rest
        some (freed, node :: kept)

variable [LT Seq] [DecidableLT Seq]

/-- The insertion loop, which follows the pointers of the held packets. -/
def insert (heap : Heap (HeapPacket Seq)) (seq : Seq) (pointer : Nat) : List Nat → Option (List Nat)
  | [] => some [pointer]
  | held :: rest => do
      let packet ← readData heap held
      if seq < packet.seq then
        some (pointer :: held :: rest)
      else
        let inserted ← insert heap seq pointer rest
        some (held :: inserted)

/-- `RecvThreadProc` for one packet, which it has received into a packet of its own. It deletes none
of a type that it does not know.
-/
def recvThreadProc (socket : HeapSocket Addr Seq) (fromAddr : Addr) (packet : HeapPacket Seq)
    : Option (HeapSocket Addr Seq) := do
  let conn := socket.connectMap fromAddr
  let (heap, pointer) := socket.heap.alloc packet
  match packet with
  | .known (.establish1 seq) =>
      let (heap, reply) := heap.alloc (.known (.establish2 0))
      let freed ← heap.free pointer
      some
        {
          socket.setConn fromAddr { conn with nextSendSeq := 0 + 1, nextRecvSeq := seq + 1 } with
          heap := freed
          sendList := socket.sendList ++ [⟨0, fromAddr, reply⟩]
        }
  | .known (.establish2 _) =>
      let freed ← heap.free pointer
      some { socket with heap := freed }
  | .known (.data packet) =>
      if packet.seq = conn.nextRecvSeq then
        let freed ← heap.free pointer
        let (drained, moved) ← drain freed (conn.deliver packet.data) conn.recvList
        some { socket.setConn fromAddr moved with heap := drained }
      else if conn.nextRecvSeq < packet.seq then
        let inserted ← insert heap packet.seq pointer conn.recvList
        some { socket.setConn fromAddr { conn with recvList := inserted } with heap }
      else
        some { socket with heap, leaked := (pointer, .known (.data packet)) :: socket.leaked }
  | .known (.ack seq) =>
      let (erased, kept) ← eraseAcked heap seq socket.sendList
      let freed ← erased.free pointer
      some { socket with heap := freed, sendList := kept }
  | .unknown seq => some { socket with heap, leaked := (pointer, .unknown seq) :: socket.leaked }

/-- What happens to a socket, with the packets of unknown types. -/
inductive Event (Addr Seq : Type)
  | known (event : CTcpSocket.Event Addr Seq)
  | arriveUnknown (fromAddr : Addr) (seq : Seq)
  deriving DecidableEq, Repr

def step (socket : HeapSocket Addr Seq) : Event Addr Seq → Option (HeapSocket Addr Seq)
  | .known (.send addr buf) => some (socket.send addr buf)
  | .known (.transmit index clock) => (socket.sendThreadProc index clock).map Prod.fst
  | .known (.arrive fromAddr packet) => socket.recvThreadProc fromAddr (.known packet)
  | .arriveUnknown fromAddr seq => socket.recvThreadProc fromAddr (.unknown seq)

end HeapSocket

-----------------------------------------------------------------------------------------
-- Where the packets of a socket lie
-----------------------------------------------------------------------------------------

omit [DecidableEq Addr] [Add Seq] [OfNat Seq 0] [OfNat Seq 1] in
theorem readData_of_owned {heap : Heap (HeapPacket Seq)} {owned : List (Nat × HeapPacket Seq)}
    {pointer : Nat} {packet : DataPacket Seq} (holds : Owned heap owned)
    (member : (pointer, .known (.data packet)) ∈ owned)
    : readData heap pointer = some packet := by
  rw [readData, holds.read member]

omit [DecidableEq Addr] [Add Seq] [OfNat Seq 0] [OfNat Seq 1] in
theorem readPacket_of_owned {heap : Heap (HeapPacket Seq)} {owned : List (Nat × HeapPacket Seq)}
    {pointer : Nat} {packet : Packet Seq} (holds : Owned heap owned)
    (member : (pointer, .known packet) ∈ owned)
    : readPacket heap pointer = some packet := by
  rw [readPacket, holds.read member]

/-- The connection with the addresses of its held packets. -/
def Conn.onHeap (conn : Conn Seq) (pointers : List Nat) : HeapConn Seq :=
  {
    nextSendSeq := conn.nextSendSeq
    nextRecvSeq := conn.nextRecvSeq
    recvList := pointers
    byteStream := conn.byteStream
    status := conn.status
  }

/-- The node with the address of its packet. -/
def SendListNode.onHeap (entry : Nat × SendListNode Addr Seq) : HeapNode Addr :=
  ⟨entry.2.time, entry.2.addr, entry.1⟩

/-- The packets of a list of nodes, by their addresses. -/
def pendingCells (pending : List (Nat × SendListNode Addr Seq)) : List (Nat × HeapPacket Seq) :=
  pending.map (fun (pointer, node) => (pointer, .known node.packet))

def heldCells (held : List (Nat × DataPacket Seq)) : List (Nat × HeapPacket Seq) :=
  held.map (fun (pointer, packet) => (pointer, .known (.data packet)))

/-- The packets of a socket with the addresses at which they lie, and the addresses that have a
connection.
-/
structure Layout (Addr Seq : Type) where
  pending : List (Nat × SendListNode Addr Seq)
  held : Addr → List (Nat × DataPacket Seq)
  peers : List Addr

/-- The packets that the lists of the socket own. -/
def Layout.cells (layout : Layout Addr Seq) : List (Nat × HeapPacket Seq) :=
  pendingCells layout.pending ++ layout.peers.flatMap (fun addr => heldCells (layout.held addr))

/-- The socket on the heap is the given one, and every packet that exists is in exactly one of its
lists, and there once, or is lost.
-/
structure Represents (layout : Layout Addr Seq) (socket : HeapSocket Addr Seq)
    (value : CTcpSocket Addr Seq)
    : Prop where
  sendList : socket.sendList = layout.pending.map SendListNode.onHeap
  pending : value.sendList = layout.pending.map Prod.snd
  conns
    : ∀ addr,
        socket.connectMap addr = (value.connectMap addr).onHeap ((layout.held addr).map Prod.fst)
  held : ∀ addr, (value.connectMap addr).recvList = (layout.held addr).map Prod.snd
  distinct : layout.peers.Nodup
  unused : ∀ addr, addr ∉ layout.peers → layout.held addr = []
  owned : Owned socket.heap (layout.cells ++ socket.leaked)

-----------------------------------------------------------------------------------------
-- The loops over pointers
-----------------------------------------------------------------------------------------

section Loops

variable [DecidableEq Seq]

omit [DecidableEq Addr] [OfNat Seq 0] in
/-- The drain loop deletes each packet that it writes, by induction on the held packets. -/
theorem drain_onHeap {heap : Heap (HeapPacket Seq)} {conn : Conn Seq}
    {held : List (Nat × DataPacket Seq)} {others : List (Nat × HeapPacket Seq)}
    (holds : Owned heap (heldCells held ++ others)) (pointers : List Nat)
    : ∃ drained kept,
        HeapSocket.drain heap (conn.onHeap pointers) (held.map Prod.fst)
          = some (drained, (conn.drain (held.map Prod.snd)).onHeap (kept.map Prod.fst))
        ∧ (conn.drain (held.map Prod.snd)).recvList = kept.map Prod.snd
        ∧ Owned drained (heldCells kept ++ others) := by
  induction held generalizing heap conn pointers with
  | nil => exact ⟨heap, [], rfl, rfl, holds⟩
  | cons entry rest ih =>
      obtain ⟨pointer, packet⟩ := entry
      have found : readData heap pointer = some packet :=
        readData_of_owned holds List.mem_cons_self
      by_cases inTurn : packet.seq = conn.nextRecvSeq
      · have inTurnOnHeap : packet.seq = (conn.onHeap pointers).nextRecvSeq := inTurn
        obtain ⟨freed, deleted, holdsFreed⟩ := holds.free
        obtain ⟨drained, kept, ran, same, owned⟩ :=
          @ih freed (conn.deliver packet.data) holdsFreed pointers
        refine ⟨drained, kept, ?_, ?_, ?_⟩
        · simp only [List.map_cons, HeapSocket.drain, found, Option.bind_eq_bind,
            Option.bind_some]
          rw [if_pos inTurnOnHeap, deleted, Option.bind_some, Conn.drain, if_pos inTurn]
          exact ran
        · rw [List.map_cons, Conn.drain, if_pos inTurn]
          exact same
        · exact owned
      · have aheadOnHeap : ¬ packet.seq = (conn.onHeap pointers).nextRecvSeq := inTurn
        refine ⟨heap, (pointer, packet) :: rest, ?_, ?_, holds⟩
        · simp only [List.map_cons, HeapSocket.drain, found, Option.bind_eq_bind,
            Option.bind_some]
          rw [if_neg aheadOnHeap, Conn.drain, if_neg inTurn]
          rfl
        · rw [List.map_cons, Conn.drain, if_neg inTurn]

omit [DecidableEq Addr] [Add Seq] [OfNat Seq 0] [OfNat Seq 1] in
/-- The loop of the `ACK` branch deletes the packet of the node that it erases, by induction on the
nodes.
-/
theorem eraseAcked_onHeap {heap : Heap (HeapPacket Seq)} {seq : Seq}
    {pending : List (Nat × SendListNode Addr Seq)} {others : List (Nat × HeapPacket Seq)}
    (holds : Owned heap (pendingCells pending ++ others))
    : ∃ erased kept,
        HeapSocket.eraseAcked heap seq (pending.map SendListNode.onHeap)
          = some (erased, kept.map SendListNode.onHeap)
        ∧ (pending.map Prod.snd).eraseP (fun node => node.packet.seq == seq)
          = kept.map Prod.snd
        ∧ Owned erased (pendingCells kept ++ others) := by
  induction pending generalizing others with
  | nil => exact ⟨heap, [], rfl, rfl, holds⟩
  | cons entry rest ih =>
      obtain ⟨pointer, node⟩ := entry
      have found : readPacket heap pointer = some node.packet :=
        readPacket_of_owned holds List.mem_cons_self
      by_cases acked : node.packet.seq = seq
      · obtain ⟨freed, deleted, holdsFreed⟩ := holds.free
        refine ⟨freed, rest, ?_, ?_, holdsFreed⟩
        · simp [HeapSocket.eraseAcked, SendListNode.onHeap, found, acked, deleted]
        · rw [List.map_cons, List.eraseP_cons_of_pos (by simpa using acked)]
      · have moved : Owned heap (pendingCells rest ++ ((pointer, .known node.packet) :: others)) :=
          holds.perm List.perm_middle.symm
        obtain ⟨erased, kept, ran, same, owned⟩ := ih moved
        refine ⟨erased, (pointer, node) :: kept, ?_, ?_, owned.perm List.perm_middle⟩
        · simp [HeapSocket.eraseAcked, SendListNode.onHeap, found, acked, ran]
        · rw [List.map_cons, List.eraseP_cons_of_neg (by simpa using acked), same]
          rfl

variable [LT Seq] [DecidableLT Seq]

omit [DecidableEq Addr] [Add Seq] [OfNat Seq 0] [OfNat Seq 1] [DecidableEq Seq] in
/-- The insertion loop finds the place of the packet, by induction on the held packets. -/
theorem insert_onHeap {heap : Heap (HeapPacket Seq)} {held : List (Nat × DataPacket Seq)}
    {owned : List (Nat × HeapPacket Seq)} (holds : Owned heap owned)
    (inside : heldCells held ⊆ owned) (pointer : Nat) (packet : DataPacket Seq)
    : ∃ inserted,
        HeapSocket.insert heap packet.seq pointer (held.map Prod.fst)
          = some (inserted.map Prod.fst)
        ∧ insertPacket packet (held.map Prod.snd) = inserted.map Prod.snd
        ∧ inserted ~ (pointer, packet) :: held := by
  induction held with
  | nil => exact ⟨[(pointer, packet)], rfl, rfl, .rfl⟩
  | cons entry rest ih =>
      obtain ⟨first, head⟩ := entry
      obtain ⟨member, tail⟩ := List.cons_subset.mp inside
      have found : readData heap first = some head := readData_of_owned holds member
      by_cases less : packet.seq < head.seq
      · refine ⟨(pointer, packet) :: (first, head) :: rest, ?_, ?_, .rfl⟩
        · simp [HeapSocket.insert, found, less]
        · simp [insertPacket, less]
      · obtain ⟨inserted, ran, same, perm⟩ := ih tail
        refine ⟨(first, head) :: inserted, ?_, ?_, ?_⟩
        · simp [HeapSocket.insert, found, less, ran]
        · simp [insertPacket, less, same]
        · exact (perm.cons _).trans (List.Perm.swap _ _ _)

end Loops

-----------------------------------------------------------------------------------------
-- Steps
-----------------------------------------------------------------------------------------

section Steps

variable {layout : Layout Addr Seq} {socket : HeapSocket Addr Seq} {value : CTcpSocket Addr Seq}

omit [DecidableEq Addr] [Add Seq] [OfNat Seq 1] in
theorem represents_new
    : Represents ⟨[], fun _ => [], []⟩ (HeapSocket.new : HeapSocket Addr Seq) CTcpSocket.new where
  sendList := rfl
  pending := rfl
  conns _ := rfl
  held _ := rfl
  distinct := List.nodup_nil
  unused _ _ := rfl
  owned := OwnedHeap.owned_empty

omit [Add Seq] [OfNat Seq 0] [OfNat Seq 1] in
/-- The map has an entry for every address that is used. -/
theorem Represents.touch (represents : Represents layout socket value) (addr : Addr)
    : ∃ peers, addr ∈ peers ∧ Represents { layout with peers } socket value := by
  by_cases member : addr ∈ layout.peers
  · exact ⟨layout.peers, member, represents⟩
  · refine ⟨addr :: layout.peers, List.mem_cons_self, ?_⟩
    have none := represents.unused addr member
    exact
      {
        represents with
        distinct := List.nodup_cons.mpr ⟨member, represents.distinct⟩
        unused := fun other absent =>
          represents.unused other (fun inside => absent (List.mem_cons_of_mem _ inside))
        owned := by
          have same : layout.cells
              = ({ layout with peers := addr :: layout.peers } : Layout Addr Seq).cells := by
            simp [Layout.cells, none, heldCells]
          exact same ▸ represents.owned
      }

omit [Add Seq] [OfNat Seq 0] [OfNat Seq 1] in
/-- The packets that one peer's list owns, and the others. -/
theorem Represents.split (represents : Represents layout socket value) {addr : Addr}
    (member : addr ∈ layout.peers)
    : ∃ others, ∀ held,
        ({ layout with held := Function.update layout.held addr held } : Layout Addr Seq).cells
          ++ socket.leaked
        ~ heldCells held ++ others := by
  obtain ⟨rest, perm⟩ := OwnedHeap.flatMap_update_perm represents.distinct member
    (fun addr => heldCells (layout.held addr))
  refine ⟨rest ++ (pendingCells layout.pending ++ socket.leaked), fun held => ?_⟩
  have updated
      : (fun other => heldCells (Function.update layout.held addr held other))
        = Function.update (fun other => heldCells (layout.held other)) addr (heldCells held) := by
    funext other
    exact Function.apply_update (fun _ => heldCells) layout.held addr held other
  simp only [Layout.cells, updated]
  calc
    pendingCells layout.pending
        ++ layout.peers.flatMap
            (Function.update (fun other => heldCells (layout.held other)) addr (heldCells held))
        ++ socket.leaked
      ~ pendingCells layout.pending ++ (heldCells held ++ rest) ++ socket.leaked :=
        ((perm (heldCells held)).append_left _).append_right _
    _ ~ heldCells held ++ (rest ++ (pendingCells layout.pending ++ socket.leaked)) := by
        rw [List.append_assoc]
        refine (List.perm_append_comm_assoc _ _ _).trans ?_
        rw [List.append_assoc]

omit [OfNat Seq 0] in
theorem Represents.queuePacket (represents : Represents layout socket value) (addr : Addr)
    (data : List Byte)
    : ∃ layout, Represents layout (socket.queuePacket addr data) (value.queuePacket addr data) := by
  let packet : Packet Seq := .data ⟨(value.connectMap addr).nextSendSeq, data⟩
  let entry : Nat × SendListNode Addr Seq := (socket.heap.next, ⟨0, addr, packet⟩)
  have sends : (socket.connectMap addr).nextSendSeq = (value.connectMap addr).nextSendSeq :=
    congrArg HeapConn.nextSendSeq (represents.conns addr)
  refine ⟨{ layout with pending := layout.pending ++ [entry] }, ?_, ?_, ?_, ?_,
    represents.distinct, represents.unused, ?_⟩
  · rw [List.map_append, ← represents.sendList]
    rfl
  · rw [List.map_append, ← represents.pending]
    simp [CTcpSocket.queuePacket, entry, packet]
  · intro other
    by_cases same : other = addr
    · subst same
      have conn := represents.conns other
      simp [HeapSocket.queuePacket, HeapSocket.setConn, CTcpSocket.queuePacket, conn, Conn.onHeap]
    · simpa [HeapSocket.queuePacket, HeapSocket.setConn, CTcpSocket.queuePacket, same] using
        represents.conns other
  · intro other
    by_cases same : other = addr
    · subst same
      simpa [CTcpSocket.queuePacket] using represents.held other
    · simpa [CTcpSocket.queuePacket, same] using represents.held other
  · have allocated :=
      represents.owned.alloc (.known (.data ⟨(socket.connectMap addr).nextSendSeq, data⟩))
    refine allocated.perm ?_
    rw [sends]
    simp only [Layout.cells, pendingCells, List.map_append, List.append_assoc, List.map_cons,
      List.map_nil, List.singleton_append]
    exact List.perm_middle.symm

omit [OfNat Seq 0] in
/-- `Send` allocates the packets that it pushes, by induction on the payloads. -/
theorem Represents.queuePackets (represents : Represents layout socket value) (addr : Addr)
    (data : List (List Byte))
    : ∃ layout,
        Represents layout (data.foldl (fun socket data => socket.queuePacket addr data) socket)
          (value.queuePackets addr data) := by
  induction data generalizing layout socket value with
  | nil => exact ⟨layout, represents⟩
  | cons head rest ih =>
      obtain ⟨queued, representsQueued⟩ := represents.queuePacket addr head
      exact ih representsQueued

omit [DecidableEq Addr] [Add Seq] [OfNat Seq 0] [OfNat Seq 1] in
/-- The packets stay where they are when a node's time changes. -/
theorem pendingCells_set {pending : List (Nat × SendListNode Addr Seq)} {index pointer : Nat}
    {node sent : SendListNode Addr Seq} (found : pending[index]? = some (pointer, node))
    (same : sent.packet = node.packet)
    : pendingCells (pending.set index (pointer, sent)) = pendingCells pending := by
  have here : (pendingCells pending)[index]? = some (pointer, .known sent.packet) := by
    rw [pendingCells, List.getElem?_map, found, same]
    rfl
  obtain ⟨inside, entry⟩ := List.getElem?_eq_some_iff.mp here
  calc
    pendingCells (pending.set index (pointer, sent))
      = (pendingCells pending).set index (pointer, .known sent.packet) := List.map_set
    _ = pendingCells pending := by rw [← entry, List.set_getElem_self]

omit [Add Seq] [OfNat Seq 0] [OfNat Seq 1] [DecidableEq Addr] in
/-- `SendThreadProc` finds the packet of each node. -/
theorem Represents.sendThreadProc (represents : Represents layout socket value) {index : Nat}
    {clock : Int} {nextValue : CTcpSocket Addr Seq} {sent : List (Addr × Packet Seq)}
    (sends : value.sendThreadProc index clock = some (nextValue, sent))
    : ∃ layout next,
        socket.sendThreadProc index clock = some (next, sent)
        ∧ Represents layout next nextValue
        ∧ next.leaked = socket.leaked := by
  obtain ⟨first, foundValue, result⟩ := Option.map_eq_some_iff.mp sends
  have foundEntry := foundValue
  rw [represents.pending, List.getElem?_map] at foundEntry
  obtain ⟨⟨pointer, node⟩, found, entry⟩ := Option.map_eq_some_iff.mp foundEntry
  obtain rfl : node = first := entry
  have onHeap : socket.sendList[index]? = some ⟨node.time, node.addr, pointer⟩ := by
    rw [represents.sendList, List.getElem?_map, found]
    rfl
  have member : (pointer, .known node.packet) ∈ pendingCells layout.pending :=
    List.mem_map.mpr ⟨_, List.mem_of_getElem? found, rfl⟩
  have read :=
    readPacket_of_owned represents.owned (List.mem_append_left _ (List.mem_append_left _ member))
  by_cases due : node.due clock = true
  · have dueOnHeap : (node.time == 0 || 1000 ≤ clock - node.time) = true := due
    have transmits : node.transmit clock
        = ({ node with time := clock }, if node.packet.isSent then [node.packet] else []) :=
      if_pos due
    rw [transmits] at result
    obtain ⟨rfl, rfl⟩ := Prod.mk.inj result
    let pending := layout.pending.set index (pointer, { node with time := clock })
    let sendList := socket.sendList.set index ⟨clock, node.addr, pointer⟩
    refine ⟨{ layout with pending }, { socket with sendList }, ?_, ?_, rfl⟩
    · simp only [HeapSocket.sendThreadProc, onHeap, Option.bind_eq_bind, Option.bind_some,
        dueOnHeap, if_true, read]
      split <;> rfl
    · exact
        {
          represents with
          sendList := by
            rw [List.map_set, ← represents.sendList]
            rfl
          pending := by rw [List.map_set, ← represents.pending]
          owned := by
            have cells : pendingCells pending = pendingCells layout.pending :=
              pendingCells_set found rfl
            rw [Layout.cells, cells]
            exact represents.owned
        }
  · have restsOnHeap : ¬ (node.time == 0 || 1000 ≤ clock - node.time) = true := due
    have transmits : node.transmit clock = (node, []) := if_neg due
    rw [transmits] at result
    obtain ⟨rfl, rfl⟩ := Prod.mk.inj result
    refine ⟨layout, socket, ?_, ?_, rfl⟩
    · simp only [HeapSocket.sendThreadProc, onHeap, Option.bind_eq_bind, Option.bind_some,
        restsOnHeap]
      rfl
    · have same : value.sendList.set index node = value.sendList := by
        obtain ⟨inside, entry⟩ := List.getElem?_eq_some_iff.mp foundValue
        rw [← entry, List.set_getElem_self]
      rw [same]
      exact represents

omit [Add Seq] [OfNat Seq 0] [OfNat Seq 1] in
/-- The connection of one peer changes together with the packets that it holds. -/
theorem Represents.setConn (represents : Represents layout socket value) {addr : Addr}
    (member : addr ∈ layout.peers) {others : List (Nat × HeapPacket Seq)}
    (split
      : ∀ held,
          ({ layout with held := Function.update layout.held addr held } : Layout Addr Seq).cells
            ++ socket.leaked
          ~ heldCells held ++ others)
    {conn : Conn Seq} {held : List (Nat × DataPacket Seq)} {heap : Heap (HeapPacket Seq)}
    (recvList : conn.recvList = held.map Prod.snd) (owned : Owned heap (heldCells held ++ others))
    : Represents { layout with held := Function.update layout.held addr held }
        { socket.setConn addr (conn.onHeap (held.map Prod.fst)) with heap }
        (value.setConn addr conn) where
  sendList := represents.sendList
  pending := represents.pending
  conns other := by
    by_cases same : other = addr
    · subst same
      simp [HeapSocket.setConn]
    · simpa [HeapSocket.setConn, same] using represents.conns other
  held other := by
    by_cases same : other = addr
    · subst same
      simp [recvList]
    · simpa [same] using represents.held other
  distinct := represents.distinct
  unused other absent := by
    have different : other ≠ addr := fun same => absent (same ▸ member)
    simpa [different] using represents.unused other absent
  owned := owned.perm (split held).symm

omit [Add Seq] [OfNat Seq 0] [OfNat Seq 1] [DecidableEq Addr] in
/-- What was received is deleted. -/
theorem Represents.freed (represents : Represents layout socket value) (packet : HeapPacket Seq)
    : ∃ heap,
        (socket.heap.alloc packet).1.free (socket.heap.alloc packet).2 = some heap
        ∧ Represents layout { socket with heap } value := by
  obtain ⟨heap, deleted, owned⟩ := (represents.owned.alloc packet).free
  exact ⟨heap, deleted, { represents with owned }⟩

section Receiving

variable [DecidableEq Seq] [LT Seq] [DecidableLT Seq]

/-- The handshake branch allocates its answer and deletes what it has received. -/
theorem Represents.onEstablish1 (represents : Represents layout socket value) (fromAddr : Addr)
    (seq : Seq)
    : ∃ layout next,
        socket.recvThreadProc fromAddr (.known (.establish1 seq)) = some next
        ∧ Represents layout next (value.onEstablish1 fromAddr seq)
        ∧ next.leaked = socket.leaked := by
  let received := socket.heap.alloc (.known (.establish1 seq))
  let reply := received.1.alloc (.known (.establish2 0))
  have allocated :=
    (represents.owned.alloc (.known (.establish1 seq))).alloc (.known (.establish2 0))
  obtain ⟨heap, deleted, owned⟩ := (allocated.perm (List.Perm.swap _ _ _)).free
  have conns := represents.conns fromAddr
  let pending := layout.pending ++ [(reply.2, ⟨0, fromAddr, .establish2 0⟩)]
  let conn : HeapConn Seq :=
    { socket.connectMap fromAddr with nextSendSeq := 0 + 1, nextRecvSeq := seq + 1 }
  let sendList := socket.sendList ++ [⟨0, fromAddr, reply.2⟩]
  refine
    ⟨{ layout with pending }, { socket.setConn fromAddr conn with heap, sendList }, ?_, ?_, rfl⟩
  · simp only [HeapSocket.recvThreadProc, Option.bind_eq_bind]
    rw [deleted, Option.bind_some]
  · refine ⟨?_, ?_, ?_, ?_, represents.distinct, represents.unused, ?_⟩
    · rw [List.map_append, ← represents.sendList]
      rfl
    · rw [List.map_append, ← represents.pending]
      rfl
    · intro other
      by_cases same : other = fromAddr
      · subst same
        simp [HeapSocket.setConn, CTcpSocket.onEstablish1, conn, conns, Conn.onHeap]
      · simpa [HeapSocket.setConn, CTcpSocket.onEstablish1, same] using represents.conns other
    · intro other
      by_cases same : other = fromAddr
      · subst same
        simpa [CTcpSocket.onEstablish1] using represents.held other
      · simpa [CTcpSocket.onEstablish1, same] using represents.held other
    · refine owned.perm ?_
      simp only [Layout.cells, pendingCells, pending, List.map_append, List.append_assoc,
        List.map_cons, List.map_nil, List.singleton_append]
      exact List.perm_middle.symm

/-- The `ACK` branch deletes the acknowledged packet and what it has received. -/
theorem Represents.onAck (represents : Represents layout socket value) (fromAddr : Addr)
    (seq : Seq)
    : ∃ layout next,
        socket.recvThreadProc fromAddr (.known (.ack seq)) = some next
        ∧ Represents layout next (value.onAck seq)
        ∧ next.leaked = socket.leaked := by
  have allocated := represents.owned.alloc (.known (.ack seq))
  let others := layout.peers.flatMap (fun addr => heldCells (layout.held addr)) ++ socket.leaked
  have moved : Owned (socket.heap.alloc (.known (.ack seq))).1
      (pendingCells layout.pending
        ++ (((socket.heap.alloc (.known (.ack seq))).2, .known (.ack seq)) :: others)) := by
    refine allocated.perm (List.Perm.trans ?_ List.perm_middle.symm)
    rw [Layout.cells, List.append_assoc]
  obtain ⟨erased, kept, ran, same, owned⟩ := eraseAcked_onHeap moved
  obtain ⟨heap, deleted, ownedFreed⟩ := (owned.perm List.perm_middle).free
  refine ⟨{ layout with pending := kept },
    { socket with heap, sendList := kept.map SendListNode.onHeap }, ?_, ?_, rfl⟩
  · rw [← represents.sendList] at ran
    simp only [HeapSocket.recvThreadProc, Option.bind_eq_bind]
    rw [ran, Option.bind_some, deleted, Option.bind_some]
  · exact
      {
        represents with
        sendList := rfl
        pending := by rw [← same, ← represents.pending]; rfl
        owned := by
          rw [Layout.cells, List.append_assoc]
          exact ownedFreed
      }

/-- The `DATA` branch loses exactly the packet whose number has passed. -/
theorem Represents.onData (represents : Represents layout socket value) (fromAddr : Addr)
    (packet : DataPacket Seq)
    : ∃ layout next,
        socket.recvThreadProc fromAddr (.known (.data packet)) = some next
        ∧ Represents layout next
            (value.setConn fromAddr ((value.connectMap fromAddr).onData packet))
        ∧ next.leaked.length
          = socket.leaked.length
            + if packet.seq ≠ (value.connectMap fromAddr).nextRecvSeq
                  ∧ ¬ (value.connectMap fromAddr).nextRecvSeq < packet.seq then
                1
              else
                0 := by
  obtain ⟨peers, member, represents⟩ := represents.touch fromAddr
  obtain ⟨others, split⟩ := represents.split member
  have conns := represents.conns fromAddr
  have next : (socket.connectMap fromAddr).nextRecvSeq = (value.connectMap fromAddr).nextRecvSeq :=
    congrArg HeapConn.nextRecvSeq conns
  have recvList : (socket.connectMap fromAddr).recvList = (layout.held fromAddr).map Prod.fst :=
    congrArg HeapConn.recvList conns
  have held := represents.held fromAddr
  by_cases inTurn : packet.seq = (value.connectMap fromAddr).nextRecvSeq
  · have inTurnOnHeap : packet.seq = (socket.connectMap fromAddr).nextRecvSeq :=
      inTurn.trans next.symm
    obtain ⟨heap, deleted, freed⟩ := represents.freed (.known (.data packet))
    have owned : Owned heap (heldCells (layout.held fromAddr) ++ others) :=
      freed.owned.perm (by simpa using split (layout.held fromAddr))
    obtain ⟨drained, kept, ran, same, ownedDrained⟩ :=
      @drain_onHeap _ _ _ _ heap ((value.connectMap fromAddr).deliver packet.data) _ _ owned
        ((layout.held fromAddr).map Prod.fst)
    have result : (value.connectMap fromAddr).onData packet
        = ((value.connectMap fromAddr).deliver packet.data).drain
            ((layout.held fromAddr).map Prod.snd) := by
      rw [Conn.onData, if_pos inTurn, held]
    have delivered : (socket.connectMap fromAddr).deliver packet.data
        = ((value.connectMap fromAddr).deliver packet.data).onHeap
            ((layout.held fromAddr).map Prod.fst) := by
      rw [conns]
      rfl
    rw [result]
    refine ⟨_, _, ?_, represents.setConn member split same ownedDrained, ?_⟩
    · simp only [HeapSocket.recvThreadProc, Option.bind_eq_bind]
      rw [if_pos inTurnOnHeap, deleted, Option.bind_some, delivered, recvList, ran,
        Option.bind_some]
    · simp [HeapSocket.setConn, inTurn]
  · have otherOnHeap : ¬ packet.seq = (socket.connectMap fromAddr).nextRecvSeq :=
      fun same => inTurn (same.trans next)
    have allocated := represents.owned.alloc (.known (.data packet))
    by_cases ahead : (value.connectMap fromAddr).nextRecvSeq < packet.seq
    · have aheadOnHeap : (socket.connectMap fromAddr).nextRecvSeq < packet.seq := next ▸ ahead
      have perm := split (layout.held fromAddr)
      simp only [Function.update_eq_self] at perm
      have inside : heldCells (layout.held fromAddr)
          ⊆ ((socket.heap.alloc (.known (.data packet))).2, .known (.data packet))
            :: ((⟨layout.pending, layout.held, peers⟩ : Layout Addr Seq).cells ++ socket.leaked) :=
        fun entry found =>
          List.mem_cons_of_mem _ (perm.mem_iff.mpr (List.mem_append_left _ found))
      obtain ⟨inserted, ran, same, moved⟩ :=
        insert_onHeap allocated inside (socket.heap.alloc (.known (.data packet))).2 packet
      have result : (value.connectMap fromAddr).onData packet
          = { value.connectMap fromAddr with recvList := inserted.map Prod.snd } := by
        rw [Conn.onData, if_neg inTurn, if_pos ahead, held, same]
      have owned : Owned (socket.heap.alloc (.known (.data packet))).1
          (heldCells inserted ++ others) := by
        have cells : heldCells inserted
            ~ ((socket.heap.alloc (.known (.data packet))).2, .known (.data packet))
              :: heldCells (layout.held fromAddr) :=
          moved.map _
        exact allocated.perm ((perm.cons _).trans (cells.symm.append_right others))
      rw [result]
      refine ⟨_, _, ?_, represents.setConn member split rfl owned, ?_⟩
      · simp only [HeapSocket.recvThreadProc, Option.bind_eq_bind]
        rw [if_neg otherOnHeap, if_pos aheadOnHeap, recvList, ran, Option.bind_some, conns]
        rfl
      · simp [HeapSocket.setConn, ahead]
    · have passedOnHeap : ¬ (socket.connectMap fromAddr).nextRecvSeq < packet.seq := next ▸ ahead
      have result : value.setConn fromAddr ((value.connectMap fromAddr).onData packet) = value := by
        rw [Conn.onData, if_neg inTurn, if_neg ahead]
        exact congrArg (CTcpSocket.mk · value.sendList) (Function.update_eq_self _ _)
      rw [result]
      let received := socket.heap.alloc (.known (.data packet))
      let heap := received.1
      let leaked := (received.2, .known (.data packet)) :: socket.leaked
      refine ⟨⟨layout.pending, layout.held, peers⟩, { socket with heap, leaked }, ?_, ?_, ?_⟩
      · simp only [HeapSocket.recvThreadProc, Option.bind_eq_bind]
        rw [if_neg otherOnHeap, if_neg passedOnHeap]
      · exact { represents with owned := allocated.perm List.perm_middle.symm }
      · simp [leaked, inTurn, ahead]

/-- The packet of this event is received and lost: its number has passed, or its type is none that
the `switch` knows.
-/
def CTcpSocket.loses (socket : CTcpSocket Addr Seq) : HeapSocket.Event Addr Seq → Bool
  | .known (.arrive fromAddr (.data packet)) =>
      packet.seq ≠ (socket.connectMap fromAddr).nextRecvSeq
      ∧ ¬ (socket.connectMap fromAddr).nextRecvSeq < packet.seq
  | .known (.arrive _ (.establish1 _)) | .known (.arrive _ (.establish2 _))
  | .known (.arrive _ (.ack _)) | .known (.send _ _) | .known (.transmit _ _) => false
  | .arriveUnknown _ _ => true

/-- The steps of a socket, which a packet of an unknown type does not change. -/
def CTcpSocket.stepKnown (socket : CTcpSocket Addr Seq)
    : HeapSocket.Event Addr Seq → Option (CTcpSocket Addr Seq)
  | .known event => socket.step event
  | .arriveUnknown _ _ => some socket

/-- How many packets a run of the socket loses. -/
def CTcpSocket.losses (socket : CTcpSocket Addr Seq) : List (HeapSocket.Event Addr Seq) → Nat
  | [] => 0
  | event :: rest =>
      (socket.loses event).toNat
      + match socket.stepKnown event with
        | some next => next.losses rest
        | none => 0

/-- A packet of an unknown type is received and lost. -/
theorem Represents.onUnknown (represents : Represents layout socket value) (fromAddr : Addr)
    (seq : Seq)
    : ∃ next,
        socket.recvThreadProc fromAddr (.unknown seq) = some next
        ∧ Represents layout next value
        ∧ next.leaked.length = socket.leaked.length + 1 := by
  let received := socket.heap.alloc (.unknown seq)
  let heap := received.1
  let leaked := (received.2, .unknown seq) :: socket.leaked
  have allocated := represents.owned.alloc (.unknown seq)
  exact ⟨{ socket with heap, leaked }, rfl,
    { represents with owned := allocated.perm List.perm_middle.symm }, rfl⟩

/-- Every step of a socket is one of the socket on the heap, by the cases of the step. -/
theorem Represents.step (represents : Represents layout socket value)
    {event : HeapSocket.Event Addr Seq} {nextValue : CTcpSocket Addr Seq}
    (stepped : value.stepKnown event = some nextValue)
    : ∃ layout next,
        socket.step event = some next
        ∧ Represents layout next nextValue
        ∧ next.leaked.length = socket.leaked.length + (value.loses event).toNat := by
  cases event with
  | arriveUnknown fromAddr seq =>
      obtain rfl := Option.some.inj stepped
      exact ⟨layout, represents.onUnknown fromAddr seq⟩
  | known event =>
      cases event with
      | send addr buf =>
          obtain rfl := Option.some.inj stepped
          obtain ⟨layout, queued⟩ := represents.queuePackets addr (payloads buf)
          have same (data : List (List Byte))
              : (data.foldl (fun socket data => socket.queuePacket addr data) socket).leaked
                = socket.leaked := by
            induction data using List.reverseRecOn with
            | nil => rfl
            | append_singleton data last ih => rw [List.foldl_append]; exact ih
          exact ⟨layout, _, rfl, queued, congrArg List.length (same _)⟩
      | transmit index clock =>
          obtain ⟨⟨sentValue, sent⟩, sends, rfl⟩ := Option.map_eq_some_iff.mp stepped
          obtain ⟨layout, next, ran, later, same⟩ := represents.sendThreadProc sends
          exact
            ⟨layout, next, by rw [HeapSocket.step, ran]; rfl, later, congrArg List.length same⟩
      | arrive fromAddr packet =>
          obtain rfl := Option.some.inj stepped
          cases packet with
          | establish1 seq =>
              obtain ⟨layout, next, ran, later, same⟩ := represents.onEstablish1 fromAddr seq
              exact ⟨layout, next, ran, later, congrArg List.length same⟩
          | establish2 seq =>
              obtain ⟨heap, deleted, freed⟩ := represents.freed (.known (.establish2 seq))
              refine ⟨layout, { socket with heap }, ?_, freed, rfl⟩
              simp only [HeapSocket.step, HeapSocket.recvThreadProc, Option.bind_eq_bind]
              rw [deleted, Option.bind_some]
          | ack seq =>
              obtain ⟨layout, next, ran, later, same⟩ := represents.onAck fromAddr seq
              exact ⟨layout, next, ran, later, congrArg List.length same⟩
          | data packet =>
              obtain ⟨layout, next, ran, later, length⟩ := represents.onData fromAddr packet
              refine ⟨layout, next, ran, later, length.trans ?_⟩
              simp only [CTcpSocket.loses]
              split <;> simp_all

/-- So is every run, by induction on its events. -/
theorem Represents.run (represents : Represents layout socket value)
    {events : List (HeapSocket.Event Addr Seq)} {finalValue : CTcpSocket Addr Seq}
    (ran : TransitionSystem.run CTcpSocket.stepKnown value events = some finalValue)
    : ∃ layout final,
        TransitionSystem.run HeapSocket.step socket events = some final
        ∧ Represents layout final finalValue
        ∧ final.leaked.length = socket.leaked.length + value.losses events := by
  induction events generalizing layout socket value with
  | nil =>
      obtain rfl := Option.some.inj ran
      exact ⟨layout, socket, rfl, represents, rfl⟩
  | cons event rest ih =>
      obtain ⟨middle, stepped, later⟩ := Option.bind_eq_some_iff.mp ran
      obtain ⟨layout, next, moved, representsNext, length⟩ := represents.step stepped
      obtain ⟨layout, final, ranOn, representsFinal, lengthFinal⟩ := ih representsNext later
      refine ⟨layout, final, ?_, representsFinal, ?_⟩
      · rw [TransitionSystem.run_cons, moved]
        exact ranOn
      · rw [lengthFinal, length, CTcpSocket.losses, stepped, Nat.add_assoc]

/-- In every run of a socket, with any peers and whatever arrives: no thread follows or deletes a
pointer to a packet that does not exist, and every packet that exists is in exactly one list, and
there once, or was received when its number had passed or with a type that the `switch` does not
know. Each of these stays for good.
-/
theorem owned_of_run {events : List (HeapSocket.Event Addr Seq)} {value : CTcpSocket Addr Seq}
    (ran : TransitionSystem.run CTcpSocket.stepKnown CTcpSocket.new events = some value)
    : ∃ layout socket,
        TransitionSystem.run HeapSocket.step HeapSocket.new events = some socket
        ∧ Represents layout socket value
        ∧ socket.leaked.length = CTcpSocket.new.losses events := by
  obtain ⟨layout, socket, ranOnHeap, represents, length⟩ := represents_new.run ran
  exact ⟨layout, socket, ranOnHeap, represents, length.trans (Nat.zero_add _)⟩

/-- A packet comes ahead of its turn, then the one before it, then a copy of that one and a packet
of no type.
-/
def reordered : List (HeapSocket.Event Nat Int) :=
  [
    .known (.arrive 7 (.establish1 0)),
    .known (.arrive 7 (.data ⟨2, [105]⟩)),
    .known (.arrive 7 (.data ⟨1, [104]⟩)),
    .known (.arrive 7 (.data ⟨1, [104]⟩)),
    .arriveUnknown 7 3
  ]

theorem owned_reordered
    : ∃ layout socket value,
        TransitionSystem.run HeapSocket.step HeapSocket.new reordered = some socket
        ∧ Represents layout socket value
        ∧ socket.leaked.length = 2 := by
  obtain ⟨layout, socket, ran, represents, length⟩ :=
    @owned_of_run Nat Int _ _ _ _ _ _ _ reordered _ rfl
  exact ⟨layout, socket, _, ran, represents, length.trans (by decide +kernel)⟩

end Receiving

end Steps

end SchoolSystem.TcpSocket
