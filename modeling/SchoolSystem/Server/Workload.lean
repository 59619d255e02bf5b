import Mathlib.Algebra.Order.BigOperators.Group.Finset
import SchoolSystem.Server.Standstill

/-! How much the server has to do: a datagram makes its threads take a number of steps that is
linear in its length, and no thread turns round and round.
-/

namespace SchoolSystem.Server

open TcpSocket
open TransitionSystem (run Along)

open scoped List

variable {Addr Seq : Type} [DecidableEq Addr]

-----------------------------------------------------------------------------------------
-- How many steps are left
-----------------------------------------------------------------------------------------

/-- The steps that write a packet, and at most 37 for each byte that was pushed: a request of one
byte is read, passed to the pool and executed in as many.
-/
def packetWork (packet : DataPacket Seq) : Nat := 7 + 38 * packet.data.length

/-- The steps up to the next `recvfrom`, with those that the bytes to write will lead to. -/
def RecvThread.work : RecvThread Addr → Nat
  | .recvfrom => 0
  | .drain _ => 1
  | .unlock _ _ => 2
  | .store _ _ => 3
  | .test _ _ => 4
  | .lock _ _ => 5
  | .push _ data _ => 6 + 38 * data.length
  | .write _ data _ => 7 + 38 * data.length

/-- The client whose first held packet is being written. -/
def RecvThread.draining : RecvThread Addr → Option Addr
  | .write addr _ true | .push addr _ true | .lock addr true | .test addr true
  | .store addr true | .unlock addr true => some addr
  | .recvfrom | .write _ _ false | .push _ _ false | .lock _ false | .test _ false
  | .store _ false | .unlock _ false | .drain _ => none

/-- The client whose packet is being written. -/
def RecvThread.source : RecvThread Addr → Option Addr
  | .write addr _ _ | .push addr _ _ => some addr
  | .recvfrom | .lock _ _ | .test _ _ | .store _ _ | .unlock _ _ | .drain _ => none

/-- The steps up to the read of the next length, with those of the request that is passed on. -/
def MainLoop.work : MainLoop Addr → Nat
  | .readLen _ _ => 0
  | .recvLen _ => 1
  | .found _ => 2
  | .select => 3
  | .adding => 4
  | .addTask _ _ => 34
  | .readBuf _ _ => 35
  | .recvBuf _ _ => 36

/-- The steps of `Execute`: a reply has at most four buffers. -/
def Execute.work : Execute → Nat
  | .returned => 0
  | .unlock => 1
  | .store _ => 2
  | .getSize => 3
  | .lock => 4
  | .send bufs => 5 + bufs.length
  | .query => 10

def taskWork (tasks : List (SqlTask Addr)) : Nat :=
  (tasks.map (fun task => task.execute.work)).sum

/-- The steps of the pool outside `Execute`. -/
def ThreadPool.budget {Task : Type} (pool : ThreadPool Task) : Nat :=
  pool.work + pool.curThreads + 2 * pool.taskQueue.length

namespace Service

/-- The held packets that are not being written yet. -/
def held (service : Service Addr Seq) (addr : Addr) : List (DataPacket Seq) :=
  if service.recvThread.draining = some addr then
    (service.conn addr).recvList.tail
  else
    (service.conn addr).recvList

/-- The steps that a client's bytes and held packets will lead to. -/
def clientWork (service : Service Addr Seq) (addr : Addr) : Nat :=
  37 * (service.conn addr).byteStream.length + ((service.held addr).map packetWork).sum

def work (clients : Finset Addr) (service : Service Addr Seq) : Nat :=
  service.recvThread.work
    + service.mainLoop.work
    + service.pool.budget
    + taskWork service.pool.tasks
    + ∑ addr ∈ clients, service.clientWork addr

/-- What an event may add to what is left to do, and the event itself where it is not a step of the
server's own: a datagram, a pass of `SendThreadProc`, a look of `Select` at a status.
-/
def Event.cost : Event Addr Seq → Nat
  | .arrive _ (.data packet) => 1 + packetWork packet
  | .arrive _ (.establish1 _) | .arrive _ (.establish2 _) | .arrive _ (.ack _) => 1
  | .select _ | .transmit _ _ => 1
  | .recvThread | .mainLoop | .addTask | .thread _ | .query _ _ | .execute _ => 0

/-- The clients that have sent a datagram. -/
def senders (events : List (Event Addr Seq)) : Finset Addr :=
  (events.filterMap
    (fun event =>
      match event with
      | .arrive fromAddr _ => some fromAddr
      | .recvThread | .select _ | .mainLoop | .addTask | .thread _ | .query _ _ | .execute _
      | .transmit _ _ => none)).toFinset

/-- Bytes come from the clients only, and a length is read where there is at least one byte. -/
structure Supplied (clients : Finset Addr) (service : Service Addr Seq) : Prop where
  empty
    : ∀ addr, addr ∉ clients
      → (service.conn addr).byteStream = [] ∧ (service.conn addr).recvList = []
  writing : ∀ addr, service.recvThread.source = some addr → addr ∈ clients
  reading
    : ∀ turn nReadLen,
        service.mainLoop = .readLen turn nReadLen
        → 0 < nReadLen ∧ nReadLen ≤ (service.conn turn.key).byteStream.length

variable {service next : Service Addr Seq} {clients : Finset Addr} {task : SqlTask Addr}
  {addr : Addr} {index : Nat}

-----------------------------------------------------------------------------------------
-- The parts of the sum
-----------------------------------------------------------------------------------------

/-- A change at one client changes the sum by the change at that client. -/
theorem sum_change {before after : Addr → Nat} (member : addr ∈ clients)
    (same : ∀ other, other ≠ addr → after other = before other)
    : ∑ other ∈ clients, after other + before addr
      = ∑ other ∈ clients, before other + after addr := by
  have rest : ∑ other ∈ clients.erase addr, after other
      = ∑ other ∈ clients.erase addr, before other :=
    Finset.sum_congr rfl (fun other present => same other (Finset.ne_of_mem_erase present))
  rw [← Finset.add_sum_erase clients after member, ← Finset.add_sum_erase clients before member,
    rest]
  omega

omit [DecidableEq Addr] in
theorem taskWork_perm {tasks others : List (SqlTask Addr)} (perm : tasks ~ others)
    : taskWork tasks = taskWork others :=
  (perm.map _).sum_eq

omit [DecidableEq Addr] in
theorem taskWork_cons (task : SqlTask Addr) (tasks : List (SqlTask Addr))
    : taskWork (task :: tasks) = task.execute.work + taskWork tasks := by
  simp [taskWork]

theorem held_same (draining : next.recvThread.draining = service.recvThread.draining)
    (list : (next.conn addr).recvList = (service.conn addr).recvList)
    : next.held addr = service.held addr := by
  rw [held, held, draining, list]

/-- A client whose stream and held packets stay leads to as many steps as before. -/
theorem clientWork_same (stream : (next.conn addr).byteStream = (service.conn addr).byteStream)
    (held : next.held addr = service.held addr)
    : next.clientWork addr = service.clientWork addr := by
  rw [clientWork, clientWork, stream, held]

-----------------------------------------------------------------------------------------
-- The receive thread
-----------------------------------------------------------------------------------------

/-- The receive thread spends steps of its own, or bytes that the clients are credited with. -/
theorem work_recvThread (mainLoop : next.mainLoop = service.mainLoop)
    (pool : next.pool = service.pool)
    (less
      : next.recvThread.work + ∑ addr ∈ clients, next.clientWork addr + 1
        ≤ service.recvThread.work + ∑ addr ∈ clients, service.clientWork addr)
    : next.work clients + 1 ≤ service.work clients := by
  simp only [work, mainLoop, pool]
  omega

theorem work_recvThread_quiet (mainLoop : next.mainLoop = service.mainLoop)
    (pool : next.pool = service.pool) (less : next.recvThread.work < service.recvThread.work)
    (stream : ∀ addr, (next.conn addr).byteStream = (service.conn addr).byteStream)
    (held : ∀ addr, next.held addr = service.held addr)
    : next.work clients + 1 ≤ service.work clients := by
  refine work_recvThread mainLoop pool ?_
  rw [Finset.sum_congr rfl (fun addr _ => clientWork_same (stream addr) (held addr))]
  omega

section Receiving

variable [Add Seq] [OfNat Seq 1] [DecidableEq Seq]

omit [Add Seq] [OfNat Seq 1] [DecidableEq Seq] in
theorem push_work {byte : Byte} {rest : List Byte} {drained : Bool} (member : addr ∈ clients)
    (position : service.recvThread = .push addr (byte :: rest) drained)
    : work clients { service.push addr [byte] with recvThread := .push addr rest drained } + 1
      ≤ service.work clients := by
  refine work_recvThread rfl rfl ?_
  let after : Service Addr Seq :=
    { service.push addr [byte] with recvThread := .push addr rest drained }
  have held : ∀ other, after.held other = service.held other := by
    intro other
    refine held_same ?_ ?_
    · rw [position]
      cases drained <;> rfl
    · refine setConn_recvList ?_ other
      rfl
  have others : ∀ other, other ≠ addr → after.clientWork other = service.clientWork other :=
    fun other different =>
      clientWork_same (congrArg Conn.byteStream (push_ne different [byte])) (held other)
  have grown : after.clientWork addr = service.clientWork addr + 37 := by
    have stream : (after.conn addr).byteStream = (service.conn addr).byteStream ++ [byte] :=
      push_byteStream service addr [byte]
    rw [clientWork, clientWork, held, stream, List.length_append, List.length_singleton]
    omega
  have changed := sum_change member others
  have moved : after.recvThread.work = 6 + 38 * rest.length := rfl
  have spent : service.recvThread.work = 6 + 38 * (rest.length + 1) := by rw [position]; rfl
  change after.recvThread.work + ∑ other ∈ clients, after.clientWork other + 1 ≤ _
  omega

omit [Add Seq] [OfNat Seq 1] [DecidableEq Seq] in
/-- A packet is held for a client only. -/
theorem Supplied.mem_of_held (supplied : Supplied clients service) {packet : DataPacket Seq}
    {rest : List (DataPacket Seq)} (list : (service.conn addr).recvList = packet :: rest)
    : addr ∈ clients := by
  by_contra outside
  have none := (supplied.empty addr outside).2
  rw [list] at none
  cases none

omit [DecidableEq Seq] in
theorem written_work {drained : Bool} {counted : Conn Seq}
    (position : service.recvThread = .push addr [] drained)
    (stream : counted.byteStream = (service.conn addr).byteStream)
    (counts
      : counted
        = if drained then
            { service.conn addr with nextRecvSeq := (service.conn addr).nextRecvSeq + 1 }
          else
            service.conn addr)
    : work clients { service.setConn addr counted with recvThread := .lock addr drained } + 1
      ≤ service.work clients := by
  have list : counted.recvList = (service.conn addr).recvList := by
    rw [counts]
    split <;> rfl
  refine work_recvThread_quiet rfl rfl (by rw [position]; exact Nat.lt_succ_self 5)
    (setConn_byteStream stream) (fun other => held_same ?_ (setConn_recvList list other))
  rw [position]
  cases drained <;> rfl

omit [DecidableEq Seq] in
theorem unlock_work {drained : Bool} {moved : Conn Seq}
    (position : service.recvThread = .unlock addr drained)
    (stream : moved.byteStream = (service.conn addr).byteStream)
    (moves
      : moved
        = if drained then
            { service.conn addr with recvList := (service.conn addr).recvList.tail }
          else
            { service.conn addr with nextRecvSeq := (service.conn addr).nextRecvSeq + 1 })
    : work clients
          { (service.setConn addr moved).setStatusLock addr false with recvThread := .drain addr }
        + 1
      ≤ service.work clients := by
  refine work_recvThread_quiet rfl rfl (by rw [position]; exact Nat.lt_succ_self 1)
    (setConn_byteStream stream) (fun other => ?_)
  by_cases same : other = addr
  · subst same
    cases drained <;>
      simp [Service.held, position, RecvThread.draining, conn, setConn, setStatusLock, moves]
  · cases drained <;>
      simp [Service.held, position, RecvThread.draining, conn, setConn, setStatusLock, same,
        Ne.symm same]

omit [Add Seq] [OfNat Seq 1] [DecidableEq Seq] in
/-- The next held packet is taken from what is held. -/
theorem next_work {packet : DataPacket Seq} {rest : List (DataPacket Seq)} (member : addr ∈ clients)
    (position : service.recvThread = .drain addr)
    (list : (service.conn addr).recvList = packet :: rest)
    : work clients { service with recvThread := .write addr packet.data true } + 1
      ≤ service.work clients := by
  refine work_recvThread rfl rfl ?_
  let after : Service Addr Seq := { service with recvThread := .write addr packet.data true }
  have others : ∀ other, other ≠ addr → after.clientWork other = service.clientWork other := by
    intro other different
    refine clientWork_same rfl ?_
    rw [held, held, position]
    simp [after, RecvThread.draining, Ne.symm different, conn]
  have shrunk : after.clientWork addr + packetWork packet = service.clientWork addr := by
    have now : after.held addr = rest := by
      simp [held, after, RecvThread.draining, conn] at list ⊢
      rw [list]
      rfl
    have before : service.held addr = packet :: rest := by
      rw [held, position]
      exact list
    have stream : (after.conn addr).byteStream = (service.conn addr).byteStream := rfl
    rw [clientWork, clientWork, now, before, stream, List.map_cons, List.sum_cons]
    omega
  have changed := sum_change member others
  have moved : after.recvThread.work = packetWork packet := rfl
  have spent : service.recvThread.work = 1 := by rw [position]; rfl
  change after.recvThread.work + ∑ other ∈ clients, after.clientWork other + 1 ≤ _
  omega

theorem recvThreadStep_work (supplied : Supplied clients service)
    (stepped : service.recvThreadStep = some next)
    : next.work clients + 1 ≤ service.work clients := by
  cases recvThreadStep_move stepped with
  | write addr data drained position =>
      refine work_recvThread_quiet rfl rfl ?_ (fun _ => rfl) (fun other => held_same ?_ rfl)
      · rw [position]
        simp only [RecvThread.work]
        omega
      · rw [position]
        cases drained <;> rfl
  | push addr byte rest drained position =>
      exact push_work (supplied.writing addr (by rw [position]; rfl)) position
  | written addr drained counted position stream _ counts =>
      exact written_work position stream counts
  | lock addr drained position | noData addr drained position | someData addr drained position =>
      refine work_recvThread_quiet rfl rfl (by rw [position]; simp [RecvThread.work])
        (fun _ => rfl) (fun other => held_same ?_ rfl)
      rw [position]
      cases drained <;> rfl
  | store addr drained position =>
      let stored : Conn Seq := { service.conn addr with status := .hasData }
      have list : stored.recvList = (service.conn addr).recvList := rfl
      refine work_recvThread_quiet rfl rfl (by rw [position]; exact Nat.lt_succ_self 2)
        (setConn_byteStream rfl) (fun other => held_same ?_ (setConn_recvList list other))
      rw [position]
      cases drained <;> rfl
  | unlock addr drained moved position stream _ moves => exact unlock_work position stream moves
  | next addr packet position rest list =>
      exact next_work (supplied.mem_of_held list) position list
  | drained addr position =>
      refine work_recvThread_quiet rfl rfl (by rw [position]; exact Nat.zero_lt_one)
        (fun _ => rfl) (fun other => held_same ?_ rfl)
      rw [position]
      rfl

end Receiving

/-- A packet that arrives in turn or ahead of it is paid for by the datagram. -/
theorem arrive_work [Add Seq] [OfNat Seq 0] [OfNat Seq 1] [DecidableEq Seq] [LT Seq]
    [DecidableLT Seq] {packet : Packet Seq} (member : addr ∈ clients)
    (stepped : service.arrive addr packet = some next)
    : next.work clients + 1 ≤ service.work clients + Event.cost (.arrive addr packet) := by
  obtain ⟨position, _⟩ := arrive_move stepped
  have none : service.recvThread.draining = Option.none := by
    rw [position]
    rfl
  have spent : service.recvThread.work = 0 := by
    rw [position]
    rfl
  have kept {after : Service Addr Seq} (recvThread : after.recvThread = .recvfrom)
      (mainLoop : after.mainLoop = service.mainLoop) (pool : after.pool = service.pool)
      (same
        : ∀ other,
            (after.conn other).byteStream = (service.conn other).byteStream
            ∧ (after.conn other).recvList = (service.conn other).recvList)
      : after.work clients = service.work clients := by
    have held : ∀ other, after.held other = service.held other := by
      intro other
      refine held_same ?_ (same other).2
      rw [recvThread, position]
    simp only [work, mainLoop, pool, recvThread, position,
      Finset.sum_congr rfl (fun other _ => clientWork_same (same other).1 (held other))]
  cases packet with
  | data packet =>
      simp only [Service.arrive, position] at stepped
      split at stepped
      · obtain rfl := Option.some.inj stepped
        let after : Service Addr Seq :=
          { service with recvThread := .write addr packet.data false }
        have sum : ∑ other ∈ clients, after.clientWork other
            = ∑ other ∈ clients, service.clientWork other :=
          Finset.sum_congr rfl (fun _ _ => clientWork_same rfl (held_same none.symm rfl))
        have moved : after.recvThread.work = packetWork packet := rfl
        have same : after.mainLoop.work + after.pool.budget + taskWork after.pool.tasks
            = service.mainLoop.work + service.pool.budget + taskWork service.pool.tasks := rfl
        change after.work clients + 1 ≤ _
        rw [work, work, Event.cost]
        omega
      · split at stepped <;> obtain rfl := Option.some.inj stepped
        · let after : Service Addr Seq :=
            service.setConn addr
              {
                service.conn addr with
                recvList := insertPacket packet (service.conn addr).recvList
              }
          have others : ∀ other, other ≠ addr → after.clientWork other = service.clientWork other :=
            fun other different =>
              have same : after.conn other = service.conn other := setConn_ne different _
              clientWork_same (congrArg Conn.byteStream same)
                (held_same rfl (congrArg Conn.recvList same))
          have now : after.conn addr
              = {
                  service.conn addr with
                  recvList := insertPacket packet (service.conn addr).recvList
                } :=
            setConn_conn _ _ _
          have grown : after.clientWork addr = service.clientWork addr + packetWork packet := by
            have listed : after.held addr = insertPacket packet (service.conn addr).recvList := by
              rw [held, now]
              exact if_neg (by rw [show after.recvThread = service.recvThread from rfl, none]; simp)
            have before : service.held addr = (service.conn addr).recvList :=
              if_neg (by rw [none]; simp)
            have inserted := insertPacket_perm packet (service.conn addr).recvList
            have sum := (inserted.map packetWork).sum_eq
            rw [List.map_cons, List.sum_cons] at sum
            have stream : (after.conn addr).byteStream = (service.conn addr).byteStream := by
              rw [now]
            rw [clientWork, clientWork, listed, before, stream, sum]
            omega
          have changed := sum_change member others
          have same : after.recvThread.work + after.mainLoop.work + after.pool.budget
                + taskWork after.pool.tasks
              = service.recvThread.work + service.mainLoop.work + service.pool.budget
                + taskWork service.pool.tasks := rfl
          change after.work clients + 1 ≤ _
          rw [work, work, Event.cost]
          omega
        · exact Nat.add_le_add_left (Nat.le_add_right 1 _) _
  | establish1 seq | establish2 seq | ack seq =>
      simp only [Service.arrive, position, Option.some.injEq] at stepped
      subst stepped
      exact Nat.le_of_eq (congrArg (· + 1) (kept rfl rfl rfl (handle_conn rfl)))

-----------------------------------------------------------------------------------------
-- The main loop and the pool
-----------------------------------------------------------------------------------------

/-- A step that writes nothing and reads nothing. -/
theorem work_quiet (recvThread : next.recvThread = service.recvThread)
    (socket
      : ∀ addr,
          (next.conn addr).byteStream = (service.conn addr).byteStream
          ∧ (next.conn addr).recvList = (service.conn addr).recvList)
    (less
      : next.mainLoop.work + next.pool.budget + taskWork next.pool.tasks + 1
        ≤ service.mainLoop.work + service.pool.budget + taskWork service.pool.tasks)
    : next.work clients + 1 ≤ service.work clients := by
  have held : ∀ addr, next.held addr = service.held addr :=
    fun addr => held_same (by rw [recvThread]) (socket addr).2
  rw [work, work, recvThread,
    Finset.sum_congr rfl (fun addr _ => clientWork_same (socket addr).1 (held addr))]
  omega

/-- `Read` takes bytes from a client's stream. -/
theorem read_clientWork (service : Service Addr Seq) (addr : Addr) (nReadLen : Nat) (other : Addr)
    : (service.read addr nReadLen).clientWork other
      = if other = addr then
          37 * ((service.conn addr).byteStream.length - nReadLen)
            + ((service.held addr).map packetWork).sum
        else
          service.clientWork other := by
  have held : (service.read addr nReadLen).held other = service.held other := by
    refine held_same rfl (setConn_recvList ?_ other)
    rfl
  split
  · next same =>
      subst same
      have stream : ((service.read other nReadLen).conn other).byteStream
          = (service.conn other).byteStream.drop nReadLen := by
        rw [Service.read, setConn_conn]
      rw [clientWork, held, stream, List.length_drop]
  · next different =>
      exact clientWork_same (congrArg Conn.byteStream (setConn_ne different _)) held

theorem read_sum_le (service : Service Addr Seq) (addr : Addr) (nReadLen : Nat)
    : ∑ other ∈ clients, (service.read addr nReadLen).clientWork other
      ≤ ∑ other ∈ clients, service.clientWork other := by
  refine Finset.sum_le_sum (fun other _ => ?_)
  rw [read_clientWork]
  split
  · next same =>
      subst same
      rw [clientWork]
      omega
  · exact Nat.le_refl _

theorem read_work (service : Service Addr Seq) (addr : Addr) (nReadLen : Nat)
    (mainLoop : MainLoop Addr)
    : work clients { service.read addr nReadLen with mainLoop := mainLoop }
      = service.recvThread.work
        + mainLoop.work
        + service.pool.budget
        + taskWork service.pool.tasks
        + ∑ other ∈ clients, (service.read addr nReadLen).clientWork other := rfl

/-- The length of a request has at least one byte, which pays for the request. -/
theorem mainLoopStep_work (supplied : Supplied clients service)
    (stepped : service.mainLoopStep = some next)
    : next.work clients + 1 ≤ service.work clients := by
  cases mainLoopStep_move stepped with
  | take addr position =>
      let taken : Conn Seq := { service.conn addr with status := .receiving }
      have list : taken.recvList = (service.conn addr).recvList := rfl
      have stream : taken.byteStream = (service.conn addr).byteStream := rfl
      refine work_quiet rfl
        (fun other => ⟨setConn_byteStream stream other, setConn_recvList list other⟩) ?_
      simp only [position, MainLoop.work, setConn]
      omega
  | recvLen turn nReadLen position =>
      refine work_quiet rfl (fun _ => ⟨rfl, rfl⟩) ?_
      simp only [position, MainLoop.work]
      omega
  | readLen turn nReadLen nLen position =>
      obtain ⟨some, fits⟩ := supplied.reading turn nReadLen position
      have member : turn.key ∈ clients := by
        by_contra outside
        rw [(supplied.empty turn.key outside).1] at fits
        exact absurd fits (Nat.not_le_of_gt some)
      have others : ∀ other, other ≠ turn.key →
          (service.read turn.key nReadLen).clientWork other = service.clientWork other := by
        intro other different
        rw [read_clientWork, if_neg different]
      have changed := sum_change member others
      rw [read_clientWork, if_pos rfl] at changed
      have before : service.clientWork turn.key
          = 37 * (service.conn turn.key).byteStream.length
            + ((service.held turn.key).map packetWork).sum := rfl
      rw [read_work, work, position, MainLoop.work, MainLoop.work]
      omega
  | recvBuf turn nLen nReadLen position =>
      refine work_quiet rfl (fun _ => ⟨rfl, rfl⟩) ?_
      simp only [position, MainLoop.work]
      omega
  | readBuf turn nReadLen sql position =>
      have less := @read_sum_le _ _ _ clients service turn.key nReadLen.toNat
      rw [read_work, work, position, MainLoop.work, MainLoop.work]
      omega
  | addTask turn sql pool position called =>
      refine work_quiet rfl (fun _ => ⟨rfl, rfl⟩) ?_
      obtain ⟨more, threads, queue⟩ := ThreadPool.call_work called
      have budget : pool.budget = service.pool.budget + 19 := by
        rw [ThreadPool.budget, ThreadPool.budget, more, threads, queue]
        omega
      simp only [position, MainLoop.work, ThreadPool.call_tasks called, taskWork_cons, Execute.work,
        budget]
      omega
  | added position =>
      refine work_quiet rfl (fun _ => ⟨rfl, rfl⟩) ?_
      simp only [position, MainLoop.work]
      omega

omit [DecidableEq Addr] in
/-- A task that is passed on or dropped is no more work than before. -/
theorem addTaskStep_budget {pool after : ThreadPool (SqlTask Addr)}
    (stepped : pool.addTaskStep = some after)
    : after.budget + taskWork after.tasks + 1 ≤ pool.budget + taskWork pool.tasks := by
  have less := ThreadPool.addTaskStep_work stepped
  have tasks : taskWork after.tasks ≤ taskWork pool.tasks := by
    rcases ThreadPool.addTaskStep_tasks stepped with perm | ⟨task, _, _, dropped⟩
    · exact Nat.le_of_eq (taskWork_perm perm)
    · rw [dropped, taskWork_cons]
      exact Nat.le_add_left _ _
  simp only [ThreadPool.budget] at less ⊢
  omega

omit [DecidableEq Addr] in
theorem threadStep_budget {pool after : ThreadPool (SqlTask Addr)}
    (stepped : pool.threadStep index = some after)
    : after.budget + taskWork after.tasks + 1 ≤ pool.budget + taskWork pool.tasks := by
  obtain ⟨less, threads, queue⟩ := ThreadPool.threadStep_work stepped
  have tasks := taskWork_perm (ThreadPool.threadStep_tasks stepped)
  simp only [ThreadPool.budget, threads] at less ⊢
  omega

omit [DecidableEq Addr] in
theorem executed_budget {pool after : ThreadPool (SqlTask Addr)}
    (executed : pool.executed index = some after)
    : after.budget + taskWork after.tasks + 1 ≤ pool.budget + taskWork pool.tasks := by
  obtain ⟨less, threads, queue⟩ := ThreadPool.executed_work executed
  obtain ⟨task, _, perm⟩ := ThreadPool.executed_tasks executed
  have tasks := taskWork_perm perm
  rw [taskWork_cons] at tasks
  simp only [ThreadPool.budget, threads, queue] at less ⊢
  omega

-----------------------------------------------------------------------------------------
-- The tasks
-----------------------------------------------------------------------------------------

/-- A reply has one buffer, or the two blocks of a result set with their lengths. -/
theorem execute_length {outcome : Exchange.Outcome} {bufs : List (List Byte)}
    (sent : Exchange.execute outcome = some bufs)
    : bufs.length ≤ 4 := by
  cases outcome with
  | failed | done affectedRows =>
      obtain rfl := Option.some.inj sent
      exact Nat.le_of_ble_eq_true rfl
  | resultSet names rows =>
      obtain ⟨header, first, sent⟩ := Option.bind_eq_some_iff.mp sent
      obtain ⟨values, _, sent⟩ := Option.bind_eq_some_iff.mp sent
      obtain ⟨data, second, sent⟩ := Option.bind_eq_some_iff.mp sent
      have block {bytes : List Byte} {sends : List (List Byte)}
          (fits : Exchange.sendBlock bytes = some sends)
          : sends.length = 2 := by
        rw [Exchange.sendBlock, Option.ite_none_right_eq_some] at fits
        rw [← Option.some.inj fits.2]
        rfl
      rw [← Option.some.inj sent, List.length_append, block first, block second]

/-- A task goes on: the pool outside `Execute` has as much to do as before. -/
theorem setTask_work (executing : service.pool.executing index = some task)
    {later : SqlTask Addr} (recvThread : next.recvThread = service.recvThread)
    (mainLoop : next.mainLoop = service.mainLoop)
    (pool : next.pool = service.pool.setThread index (.execute later))
    (socket
      : ∀ addr,
          (next.conn addr).byteStream = (service.conn addr).byteStream
          ∧ (next.conn addr).recvList = (service.conn addr).recvList)
    (less : later.execute.work < task.execute.work)
    : next.work clients + 1 ≤ service.work clients := by
  have found := ThreadPool.executing_eq_some.mp executing
  have budget : next.pool.budget = service.pool.budget := by
    have exchanged := @ThreadPool.work_setThread _ _ _ _ (.execute later) found
    simp only [ThreadProc.work, ThreadPool.setThread] at exchanged
    simp only [pool, ThreadPool.budget, ThreadPool.work, ThreadPool.setThread]
    omega
  have tasks := taskWork_perm (ThreadPool.setThread_tasks service.pool (.execute later) found)
  simp only [ThreadProc.tasks, List.singleton_append, taskWork_cons] at tasks
  refine work_quiet recvThread socket ?_
  rw [mainLoop, budget, pool]
  omega

theorem query_work {outcome : Exchange.Outcome}
    (stepped : service.query index outcome = some next)
    : next.work clients + 1 ≤ service.work clients := by
  obtain ⟨task, _, executing, execute, _⟩ := query_move stepped
  simp only [Service.query, executing, execute] at stepped
  obtain ⟨bufs, sent, rfl⟩ := Option.map_eq_some_iff.mp stepped
  have few := execute_length sent
  refine setTask_work executing rfl rfl rfl (fun _ => ⟨rfl, rfl⟩) ?_
  simp only [execute, Execute.work]
  omega

theorem executeStep_work [Add Seq] [OfNat Seq 1] (stepped : service.executeStep index = some next)
    : next.work clients + 1 ≤ service.work clients := by
  cases executeStep_move stepped with
  | send task buf rest executing execute =>
      refine setTask_work executing rfl rfl rfl (fun addr => ?_) ?_
      · have sent := service.socket.queuePackets_conn task.turn.key addr (payloads buf)
        have stream := congrArg Conn.byteStream sent
        have list := congrArg Conn.recvList sent
        exact ⟨stream, list⟩
      · simp only [execute, Execute.work, List.length_cons]
        omega
  | sent task executing execute | lock task executing execute
  | getSize task status executing execute | unlock task executing execute =>
      refine setTask_work executing rfl rfl rfl (fun _ => ⟨rfl, rfl⟩) ?_
      simp [execute, Execute.work]
  | store task status executing execute =>
      let stored : Conn Seq := { service.conn task.turn.key with status := status }
      have stream : stored.byteStream = (service.conn task.turn.key).byteStream := rfl
      have list : stored.recvList = (service.conn task.turn.key).recvList := rfl
      refine setTask_work executing rfl rfl rfl
        (fun addr => ⟨setConn_byteStream stream addr, setConn_recvList list addr⟩) ?_
      simp [execute, Execute.work]
  | returned task pool executing execute executed =>
      have less := executed_budget executed
      refine work_quiet rfl (fun _ => ⟨rfl, rfl⟩) ?_
      simp only
      omega

-----------------------------------------------------------------------------------------
-- Every step
-----------------------------------------------------------------------------------------

/-- The datagrams come from the clients. -/
def FromClients (clients : Finset Addr) (_ : Service Addr Seq) (event : Event Addr Seq) : Prop :=
  ∀ fromAddr packet, event = .arrive fromAddr packet → fromAddr ∈ clients

omit [DecidableEq Addr] in
theorem Supplied.quiet (supplied : Supplied clients service)
    (socket
      : ∀ addr,
          (next.conn addr).byteStream = (service.conn addr).byteStream
          ∧ (next.conn addr).recvList = (service.conn addr).recvList)
    (writing
      : ∀ addr,
          next.recvThread.source = some addr
          → service.recvThread.source = some addr ∨ addr ∈ clients)
    (reading
      : ∀ turn nReadLen,
          next.mainLoop = .readLen turn nReadLen
          → service.mainLoop = .readLen turn nReadLen
            ∨ 0 < nReadLen ∧ nReadLen ≤ (service.conn turn.key).byteStream.length)
    : Supplied clients next := by
  constructor
  · intro addr outside
    rw [(socket addr).1, (socket addr).2]
    exact supplied.empty addr outside
  · intro addr position
    rcases writing addr position with before | now
    · exact supplied.writing addr before
    · exact now
  · intro turn nReadLen position
    rw [(socket turn.key).1]
    rcases reading turn nReadLen position with before | now
    · exact supplied.reading turn nReadLen before
    · exact now

/-- A step of the receive thread at one connection, which takes no bytes from its stream. -/
theorem Supplied.setConn (supplied : Supplied clients service) {conn : Conn Seq}
    {statusLock : Addr → Bool} {position : RecvThread Addr}
    (empty : addr ∉ clients → conn.byteStream = [] ∧ conn.recvList = [])
    (stream : (service.conn addr).byteStream.length ≤ conn.byteStream.length)
    (writing : ∀ place, position.source = some place → place ∈ clients)
    : Supplied clients
        { service.setConn addr conn with statusLock, recvThread := position } := by
  constructor
  · intro other outside
    change ((service.setConn addr conn).conn other).byteStream = []
      ∧ ((service.setConn addr conn).conn other).recvList = []
    by_cases same : other = addr
    · subst same
      rw [setConn_conn]
      exact empty outside
    · rw [setConn_ne same]
      exact supplied.empty other outside
  · exact writing
  · intro turn nReadLen reading
    obtain ⟨some, fits⟩ := supplied.reading turn nReadLen reading
    refine ⟨some, ?_⟩
    change nReadLen ≤ ((service.setConn addr conn).conn turn.key).byteStream.length
    by_cases same : turn.key = addr
    · subst same
      rw [setConn_conn]
      exact fits.trans stream
    · rwa [setConn_ne same]

theorem Supplied.recvThread [Add Seq] [OfNat Seq 1] [DecidableEq Seq]
    (supplied : Supplied clients service) (stepped : service.recvThreadStep = some next)
    : Supplied clients next := by
  have moves {position : RecvThread Addr} {statusLock : Addr → Bool}
      (elsewhere : ∀ addr, position.source = some addr → addr ∈ clients)
      : Supplied clients { service with statusLock, recvThread := position } :=
    supplied.quiet (fun _ => ⟨rfl, rfl⟩) (fun addr write => Or.inr (elsewhere addr write))
      (fun _ _ reading => Or.inl reading)
  have none {position : RecvThread Addr} (same : position.source = none) (addr : Addr)
      (write : position.source = some addr)
      : addr ∈ clients :=
    absurd (same.symm.trans write) (Option.some_ne_none addr).symm
  cases recvThreadStep_move stepped with
  | write addr data drained position =>
      have member := supplied.writing addr (by rw [position]; rfl)
      exact moves (fun other write => Option.some.inj write ▸ member)
  | push addr byte rest drained position =>
      have member := supplied.writing addr (by rw [position]; rfl)
      refine supplied.setConn (fun outside => absurd member outside) ?_
        (fun other write => Option.some.inj write ▸ member)
      simp
  | written addr drained counted position stream =>
      have member := supplied.writing addr (by rw [position]; rfl)
      exact supplied.setConn (fun outside => absurd member outside)
        (Nat.le_of_eq (congrArg List.length stream).symm) (none rfl)
  | lock | noData | someData | drained => exact moves (none rfl)
  | store addr drained =>
      exact supplied.setConn (fun outside => supplied.empty addr outside) (Nat.le_refl _)
        (none rfl)
  | unlock addr drained moved position stream _ moves =>
      refine supplied.setConn (fun outside => ?_)
        (Nat.le_of_eq (congrArg List.length stream).symm) (none rfl)
      obtain ⟨empty, list⟩ := supplied.empty addr outside
      cases drained <;> simp [moves, empty, list]
  | next addr packet position rest list =>
      have member := supplied.mem_of_held list
      exact moves (fun other write => Option.some.inj write ▸ member)

theorem Supplied.arrive [Add Seq] [OfNat Seq 0] [OfNat Seq 1] [DecidableEq Seq] [LT Seq]
    [DecidableLT Seq] (supplied : Supplied clients service) {packet : Packet Seq}
    (member : addr ∈ clients) (stepped : service.arrive addr packet = some next)
    : Supplied clients next := by
  obtain ⟨position, move⟩ := arrive_move stepped
  cases move with
  | write data =>
      exact supplied.quiet (fun _ => ⟨rfl, rfl⟩)
        (fun other write => Or.inr (Option.some.inj write ▸ member))
        (fun _ _ reading => Or.inl reading)
  | hold packet =>
      exact supplied.setConn (fun outside => absurd member outside) (Nat.le_refl _)
        supplied.writing
  | ignore => exact supplied
  | handle packet other =>
      exact supplied.quiet (handle_conn other) nofun
        (fun _ _ reading => Or.inl reading)

theorem Supplied.read (supplied : Supplied clients service) {nReadLen : Nat}
    {mainLoop : MainLoop Addr} (moves : ∀ turn some, mainLoop ≠ .readLen turn some)
    : Supplied clients { service.read addr nReadLen with mainLoop := mainLoop } := by
  constructor
  · intro other outside
    obtain ⟨stream, list⟩ := supplied.empty other outside
    change ((service.read addr nReadLen).conn other).byteStream = []
      ∧ ((service.read addr nReadLen).conn other).recvList = []
    by_cases same : other = addr
    · subst same
      rw [Service.read, setConn_conn]
      exact ⟨by simp [stream], list⟩
    · rw [Service.read, setConn_ne same]
      exact ⟨stream, list⟩
  · exact supplied.writing
  · intro turn some reading
    exact absurd reading (moves turn some)

/-- The main loop reads a length where it has seen a byte. -/
theorem Supplied.mainLoop (supplied : Supplied clients service)
    (stepped : service.mainLoopStep = some next)
    : Supplied clients next := by
  have moves {mainLoop : MainLoop Addr} {pool : ThreadPool (SqlTask Addr)}
      (reading
        : ∀ turn nReadLen,
            mainLoop = .readLen turn nReadLen
            → 0 < nReadLen ∧ nReadLen ≤ (service.conn turn.key).byteStream.length)
      : Supplied clients { service with mainLoop, pool } :=
    supplied.quiet (fun _ => ⟨rfl, rfl⟩) (fun _ write => Or.inl write)
      (fun turn nReadLen position => Or.inr (reading turn nReadLen position))
  cases mainLoopStep_move stepped with
  | take addr =>
      let taken : Conn Seq := { service.conn addr with status := .receiving }
      have stream : taken.byteStream = (service.conn addr).byteStream := rfl
      have list : taken.recvList = (service.conn addr).recvList := rfl
      exact supplied.quiet
        (fun other => ⟨setConn_byteStream stream other, setConn_recvList list other⟩)
        (fun _ write => Or.inl write) (by rintro _ _ ⟨⟩)
  | recvLen turn nReadLen position some size =>
      refine moves (fun other sampled reading => ?_)
      cases reading
      have length := List.length_pos_iff.mpr some
      rw [size]
      exact ⟨by omega, Nat.min_le_left _ _⟩
  | readLen | readBuf => exact supplied.read (by rintro _ _ ⟨⟩)
  | recvBuf | addTask | added => exact moves (by rintro _ _ ⟨⟩)

section Runs

variable [Add Seq] [OfNat Seq 0] [OfNat Seq 1] [DecidableEq Seq] [LT Seq] [DecidableLT Seq]
  {event : Event Addr Seq}

theorem Supplied.step (supplied : Supplied clients service)
    (sent : FromClients clients service event) (stepped : service.step event = some next)
    : Supplied clients next := by
  have same {pool : ThreadPool (SqlTask Addr)} : Supplied clients { service with pool } :=
    supplied.quiet (fun _ => ⟨rfl, rfl⟩) (fun _ write => Or.inl write)
      (fun _ _ reading => Or.inl reading)
  cases event with
  | arrive fromAddr packet => exact supplied.arrive (sent fromAddr packet rfl) stepped
  | recvThread => exact supplied.recvThread stepped
  | select addr =>
      rcases select_move stepped with rfl | ⟨_, _, rfl⟩
      · exact supplied
      · exact supplied.quiet (fun _ => ⟨rfl, rfl⟩) (fun _ write => Or.inl write)
          (by rintro _ _ ⟨⟩)
  | mainLoop => exact supplied.mainLoop stepped
  | addTask | thread =>
      obtain ⟨pool, _, rfl⟩ := Option.map_eq_some_iff.mp stepped
      exact same
  | query index outcome =>
      obtain ⟨_, _, _, _, rfl⟩ := query_move stepped
      exact same
  | execute index =>
      cases executeStep_move stepped with
      | send task buf rest =>
          refine supplied.quiet (fun addr => ?_) (fun _ write => Or.inl write)
            (fun _ _ reading => Or.inl reading)
          have sent := service.socket.queuePackets_conn task.turn.key addr (payloads buf)
          have stream := congrArg Conn.byteStream sent
          have list := congrArg Conn.recvList sent
          exact ⟨stream, list⟩
      | store task status =>
          let stored : Conn Seq := { service.conn task.turn.key with status := status }
          have stream : stored.byteStream = (service.conn task.turn.key).byteStream := rfl
          have list : stored.recvList = (service.conn task.turn.key).recvList := rfl
          exact supplied.quiet
            (fun addr => ⟨setConn_byteStream stream addr, setConn_recvList list addr⟩)
            (fun _ write => Or.inl write) (fun _ _ reading => Or.inl reading)
      | sent | lock | getSize | unlock | returned =>
          exact supplied.quiet (fun _ => ⟨rfl, rfl⟩) (fun _ write => Or.inl write)
            (fun _ _ reading => Or.inl reading)
  | transmit index clock =>
      obtain ⟨⟨socket, sent⟩, iteration, rfl⟩ := Option.map_eq_some_iff.mp stepped
      have conns := sendThreadProc_conn iteration
      exact supplied.quiet
        (fun addr => ⟨congrArg Conn.byteStream (conns addr), congrArg Conn.recvList (conns addr)⟩)
        (fun _ write => Or.inl write) (fun _ _ reading => Or.inl reading)

/-- Every step spends one of what is left to do, up to what its event may add. -/
theorem step_work (supplied : Supplied clients service)
    (sent : FromClients clients service event) (stepped : service.step event = some next)
    : next.work clients + 1 ≤ service.work clients + event.cost := by
  cases event with
  | arrive fromAddr packet => exact arrive_work (sent fromAddr packet rfl) stepped
  | recvThread => exact recvThreadStep_work supplied stepped
  | select addr =>
      rcases select_move stepped with rfl | ⟨position, _, rfl⟩
      · exact Nat.le_refl _
      · have less : { service with mainLoop := .found addr }.work clients + 1
            ≤ service.work clients := by
          refine work_quiet rfl (fun _ => ⟨rfl, rfl⟩) ?_
          simp only [position, MainLoop.work]
          omega
        exact Nat.le_add_right_of_le less
  | mainLoop => exact mainLoopStep_work supplied stepped
  | addTask =>
      obtain ⟨pool, moved, rfl⟩ := Option.map_eq_some_iff.mp stepped
      have less := addTaskStep_budget moved
      refine work_quiet rfl (fun _ => ⟨rfl, rfl⟩) ?_
      simp only
      omega
  | thread index =>
      obtain ⟨pool, moved, rfl⟩ := Option.map_eq_some_iff.mp stepped
      have less := threadStep_budget moved
      refine work_quiet rfl (fun _ => ⟨rfl, rfl⟩) ?_
      simp only
      omega
  | query index outcome => exact query_work stepped
  | execute index => exact executeStep_work stepped
  | transmit index clock =>
      obtain ⟨⟨socket, sent⟩, iteration, rfl⟩ := Option.map_eq_some_iff.mp stepped
      have conns := sendThreadProc_conn iteration
      have same : ∀ addr, { service with socket := socket }.clientWork addr
          = service.clientWork addr :=
        fun addr =>
          clientWork_same (congrArg Conn.byteStream (conns addr))
            (held_same rfl (congrArg Conn.recvList (conns addr)))
      simp only [work, Finset.sum_congr rfl (fun addr _ => same addr), Event.cost]
      exact Nat.le_refl _

omit [DecidableEq Addr] [Add Seq] [OfNat Seq 0] [OfNat Seq 1] [DecidableEq Seq] [LT Seq]
  [DecidableLT Seq] in
/-- A step of the server's own is no datagram. -/
theorem fromClients_of_moves (moves : service.Moves event)
    : FromClients clients service event := by
  intro fromAddr packet arrives
  subst arrives
  cases moves

/-- A step of the server's own leaves less to do. -/
theorem moves_work (supplied : Supplied clients service) (moves : service.Moves event)
    (stepped : service.step event = some next)
    : next.work clients < service.work clients := by
  cases event with
  | arrive | transmit => cases moves
  | select addr =>
      have status : (service.conn addr).status = .hasData := moves
      have selected : service.select addr = some next := stepped
      cases position : service.mainLoop with
      | select =>
          simp only [Service.select, position, status, if_true, Option.some.injEq] at selected
          subst selected
          refine work_quiet rfl (fun _ => ⟨rfl, rfl⟩) ?_
          simp only [position, MainLoop.work]
          omega
      | found | recvLen | readLen | recvBuf | readBuf | addTask | adding =>
          simp [Service.select, position] at selected
  | recvThread | mainLoop | addTask | thread | query | execute =>
      exact step_work supplied (fromClients_of_moves moves) stepped

omit [DecidableEq Addr] [Add Seq] [OfNat Seq 1] [DecidableEq Seq] [LT Seq] [DecidableLT Seq] in
theorem supplied_new (processors : Nat)
    : Supplied clients (new processors : Service Addr Seq) where
  empty _ _ := ⟨rfl, rfl⟩
  writing := nofun
  reading := nofun

omit [Add Seq] [OfNat Seq 0] [OfNat Seq 1] [DecidableEq Seq] [LT Seq] [DecidableLT Seq] in
theorem mem_senders {events : List (Event Addr Seq)} {packet : Packet Seq}
    (member : .arrive addr packet ∈ events)
    : addr ∈ senders events :=
  List.mem_toFinset.mpr (List.mem_filterMap.mpr ⟨_, member, rfl⟩)

variable {processors : Nat} {events : List (Event Addr Seq)}

theorem fromClients_senders
    : Along step (FromClients (senders events)) (new processors) events := by
  refine TransitionSystem.along_of_forall (fun event member fromAddr packet arrives => ?_)
  exact mem_senders (arrives ▸ member)

/-- From every reachable state the server's own steps lead to one in which no thread can go on; it
is a standstill unless `AddTask` has refused a task.
-/
theorem rest_of_run (some : 0 < processors)
    (ran : run step (new processors) events = Option.some service)
    : ∃ more final,
        Along step Moves service more
        ∧ run step service more = Option.some final
        ∧ final.AtRest
        ∧ (Along step HasRoom (new processors) (events ++ more) → Standstill final) := by
  have supplied : Supplied (senders events) service :=
    TransitionSystem.run_invariant_along
      (fun supplied sent stepped => Supplied.step supplied sent stepped)
      (supplied_new processors) fromClients_senders ran
  have fewer {state after : Service Addr Seq} {event : Event Addr Seq}
      (supplied : Supplied (senders events) state) (moves : state.Moves event)
      (stepped : state.step event = Option.some after)
      : Supplied (senders events) after
        ∧ after.work (senders events) < state.work (senders events) := by
    exact ⟨supplied.step (fromClients_of_moves moves) stepped, moves_work supplied moves stepped⟩
  obtain ⟨more, final, along, later, ended⟩ := TransitionSystem.exists_rest_along fewer supplied
  have rest : final.AtRest := ended
  refine ⟨more, final, along, later, rest, fun room => ?_⟩
  have whole : run step (new processors) (events ++ more) = Option.some final := by
    rw [TransitionSystem.run_append, ran]
    exact later
  have manned := TransitionSystem.run_invariant Manned.step (manned_new some) whole
  have owned := TransitionSystem.run_invariant Owned.step (owned_new processors) whole
  obtain ⟨awake, attending⟩ := attending_of_run room whole
  exact rest.standstill manned owned awake attending

/-- The task of the first request is about to be pushed into the queue. -/
theorem rest_oneRequest
    : ∃ service final : Service Nat Int, ∃ more,
        run step (new 1) (oneRequest.take 31) = some service
        ∧ service.pool.tasks ≠ []
        ∧ run step service more = some final
        ∧ final.AtRest := by
  obtain ⟨service, reached⟩ := Option.isSome_iff_exists.mp
    (by decide +kernel
      : ((run step (new 1 : Service Nat Int) (oneRequest.take 31)).filter
          (fun service => service.pool.tasks ≠ [])).isSome)
  obtain ⟨ran, state⟩ := Option.filter_eq_some_iff.mp reached
  obtain ⟨more, final, _, later, rest, _⟩ := rest_of_run Nat.zero_lt_one ran
  exact ⟨service, final, more, ran, of_decide_eq_true state, later, rest⟩

end Runs

end Service

end SchoolSystem.Server
