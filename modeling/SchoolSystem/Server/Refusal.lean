import SchoolSystem.Server.WakeUp

/-! Clients with status 2, and who will give them another one: the request in progress, unless
`AddTask` refuses its task.
-/

namespace SchoolSystem.Server

open TcpSocket
open TransitionSystem (run Along along_iff Reaches)

open scoped List

variable {Addr Seq : Type} [DecidableEq Addr]

/-- The task for which `AddTask` releases the semaphore next. -/
def AddTask.releasing {Task : Type} : AddTask Task → Option Task
  | .releaseSemaphore task => some task
  | .returned | .enter _ | .push _ | .leave | .checkIdle | .checkCur | .createThread => none

namespace Service

/-- A client with status 2 has its request read, passed to the pool, queued or executed, with
`UnSelect` to come.
-/
def Attended (service : Service Addr Seq) : Prop :=
  ∀ addr, (service.conn addr).status = .receiving → ∃ turn ∈ service.inProgress, turn.key = addr

/-- The semaphore has room for the task that `AddTask` is about to accept. -/
def HasRoom (service : Service Addr Seq) (event : Event Addr Seq) : Prop :=
  event = .addTask
  → service.pool.addTask.releasing.isSome
  → service.pool.semaphore < service.pool.semaphoreMax

instance [DecidableEq Seq] (service : Service Addr Seq) (event : Event Addr Seq)
    : Decidable (service.HasRoom event) :=
  inferInstanceAs (Decidable (_ → _))

/-- No `UnSelect` stores status 2. -/
structure Attending (service : Service Addr Seq) : Prop where
  attended : service.Attended
  storing
    : ∀ index task,
        service.pool.executing index = some task → task.execute ≠ .store .receiving

variable {service next : Service Addr Seq} {task : SqlTask Addr} {index : Nat}

omit [DecidableEq Addr] in
/-- A step that gives no client status 2 and ends no request. -/
theorem Attending.quiet (attending : Attending service)
    (status
      : ∀ addr,
          (next.conn addr).status = .receiving → (service.conn addr).status = .receiving)
    (inProgress : service.inProgress ⊆ next.inProgress)
    (storing
      : ∀ other found,
          next.pool.executing other = some found
          → found.execute = .store .receiving
          → service.pool.executing other = some found)
    : Attending next := by
  constructor
  · intro addr receiving
    obtain ⟨turn, member, key⟩ := attending.attended addr (status addr receiving)
    exact ⟨turn, inProgress member, key⟩
  · intro other found executes store
    exact attending.storing other found (storing other found executes store) store

/-- The receive thread stores status 1 only. -/
theorem recvThreadStep_status [Add Seq] [OfNat Seq 1] [DecidableEq Seq]
    (stepped : service.recvThreadStep = some next) (addr : Addr)
    : (next.conn addr).status = (service.conn addr).status
      ∨ (next.conn addr).status = .hasData := by
  cases recvThreadStep_move stepped with
  | push => exact Or.inl (push_status ..)
  | written _ _ _ _ _ status | unlock _ _ _ _ _ status =>
      exact Or.inl (setConn_status status addr)
  | store stores =>
      by_cases same : addr = stores
      · subst same
        exact Or.inr (congrArg Conn.status (setConn_conn service addr _))
      · exact Or.inl (congrArg Conn.status (setConn_ne same _))
  | write | lock | noData | someData | next | drained => exact Or.inl rfl

theorem Attending.recvThread [Add Seq] [OfNat Seq 1] [DecidableEq Seq]
    (attending : Attending service) (stepped : service.recvThreadStep = some next)
    : Attending next := by
  have same : next.pool = service.pool ∧ next.mainLoop = service.mainLoop := by
    cases recvThreadStep_move stepped <;> exact ⟨rfl, rfl⟩
  refine attending.quiet ?_ ?_ ?_
  · intro addr receiving
    rcases recvThreadStep_status stepped addr with kept | stored
    · exact kept.symm.trans receiving
    · exact absurd (stored.symm.trans receiving) (by decide)
  · exact (inProgress_same (by rw [same.2]) same.1).symm.subset
  · intro other found executes _
    rwa [same.1] at executes

omit [DecidableEq Addr] in
theorem inProgress_perm {pool : ThreadPool (SqlTask Addr)} (tasks : pool.tasks ~ service.pool.tasks)
    : { service with pool := pool }.inProgress ~ service.inProgress :=
  ((tasks.filter _).map _).append_left _

/-- `UnSelect` stores a status other than 2 for the client of its own request. -/
theorem Attending.selectStore (attending : Attending service)
    (executing : service.pool.executing index = some task) {status : Status}
    (position : task.execute = .store status)
    : Attending
        ((service.setConn task.turn.key
            { service.conn task.turn.key with status := status }).setTask index
          { task with execute := .unlock }) := by
  have progress : task.inProgress = true := by rw [SqlTask.inProgress, position]
  have ended
      : task.turn
            :: ((service.setConn task.turn.key
                { service.conn task.turn.key with status := status }).setTask index
              { task with execute := .unlock }).inProgress
          ~ service.inProgress :=
    inProgress_ended executing rfl rfl progress rfl
  constructor
  · intro addr receiving
    have other : addr ≠ task.turn.key := by
      rintro rfl
      obtain rfl : status = .receiving := by
        simpa [Service.conn, setConn, setTask] using receiving
      exact attending.storing index task executing position
    have before : (service.conn addr).status = .receiving := by
      simpa [Service.conn, setConn, setTask, other] using receiving
    obtain ⟨turn, member, key⟩ := attending.attended addr before
    rcases List.mem_cons.mp (ended.symm.subset member) with rfl | later
    · exact absurd key.symm other
    · exact ⟨turn, later, key⟩
  · intro other found executes store
    rcases ThreadPool.executing_setThread executes with ⟨_, now⟩ | ⟨_, before⟩
    · cases now
      cases store
    · exact attending.storing other found before store

omit [DecidableEq Addr] in
/-- A step of `Execute` that stores no status. -/
theorem Attending.executeQuiet (attending : Attending service)
    (executing : service.pool.executing index = some task)
    {socket : CTcpSocket Addr Seq} {queued : List (Turns.Turn Addr × Packet Seq)}
    {statusLock : Addr → Bool}
    (status : ∀ addr, (socket.connectMap addr).status = (service.conn addr).status)
    {execute : Execute}
    (kept : ({ task with execute } : SqlTask Addr).inProgress = task.inProgress)
    (other : execute ≠ .store .receiving)
    : Attending
        (setTask { service with socket, queued, statusLock } index { task with execute }) := by
  refine attending.quiet ?_ ?_ ?_
  · intro addr receiving
    exact (status addr).symm.trans receiving
  · have same
        : (setTask { service with socket, queued, statusLock } index
            { task with execute }).inProgress
          ~ service.inProgress :=
      inProgress_kept executing rfl rfl rfl kept
    exact same.symm.subset
  · intro place found executes store
    rcases ThreadPool.executing_setThread executes with ⟨_, now⟩ | ⟨_, before⟩
    · cases now
      exact absurd store other
    · exact before

theorem Attending.execute [Add Seq] [OfNat Seq 1] (attending : Attending service)
    (stepped : service.executeStep index = some next)
    : Attending next := by
  cases executeStep_move stepped with
  | send task buf rest executing execute =>
      apply attending.executeQuiet executing (send_status task.turn buf)
        (by simp [SqlTask.inProgress, execute])
      intro store
      cases store
  | sent _ executing execute | lock _ executing execute | unlock _ executing execute =>
      apply attending.executeQuiet executing (fun _ => rfl)
        (by simp [SqlTask.inProgress, execute])
      intro store
      cases store
  | getSize task status executing execute size =>
      apply attending.executeQuiet executing (fun _ => rfl)
        (by simp [SqlTask.inProgress, execute])
      intro store
      rcases size with ⟨_, rfl⟩ | ⟨_, rfl⟩
      · cases store
      · cases store
  | store task status executing execute => exact attending.selectStore executing execute
  | returned task pool executing execute executed =>
      obtain ⟨ended, same, tasks⟩ := ThreadPool.executed_tasks executed
      obtain rfl := Option.some.inj (same.symm.trans executing)
      refine attending.quiet (fun _ receiving => receiving) ?_
        (fun other found executes _ =>
          (ThreadPool.executed_waiting executed).2 other found executes)
      have finished : ended.inProgress = false := by rw [SqlTask.inProgress, execute]
      have turns : taskTurns service.pool.tasks ~ taskTurns pool.tasks := by
        have all := (tasks.filter SqlTask.inProgress).map SqlTask.turn
        rwa [List.filter_cons_of_neg (by simp [finished])] at all
      exact (turns.append_left _).subset

omit [DecidableEq Addr] in
theorem Attending.query (attending : Attending service) {outcome : Exchange.Outcome}
    (stepped : service.query index outcome = some next)
    : Attending next := by
  obtain ⟨task, bufs, executing, execute, rfl⟩ := query_move stepped
  exact attending.executeQuiet executing (fun _ => rfl)
    (by simp [SqlTask.inProgress, execute]) nofun

omit [DecidableEq Addr] in
/-- A step of the pool that drops no task. -/
theorem Attending.pool (attending : Attending service)
    (fresh : ∀ task ∈ service.pool.waiting, task.execute = .query)
    {pool : ThreadPool (SqlTask Addr)} (tasks : pool.tasks ~ service.pool.tasks)
    (begins
      : ∀ other found,
          pool.executing other = some found
          → service.pool.executing other = some found ∨ found ∈ service.pool.waiting)
    : Attending { service with pool := pool } := by
  refine attending.quiet (fun _ receiving => receiving) (inProgress_perm tasks).symm.subset ?_
  intro other found executes store
  rcases begins other found executes with before | waited
  · exact before
  · rw [fresh found waited] at store
    cases store

theorem Attending.mainLoop (attending : Attending service)
    (stepped : service.mainLoopStep = some next)
    : Attending next := by
  have moves : ∀ {moved : MainLoop Addr}, moved.turns = service.mainLoop.turns
      → Attending { service with mainLoop := moved } := by
    intro moved turns
    have same : inProgress { service with mainLoop := moved } ~ service.inProgress :=
      inProgress_same turns rfl
    exact attending.quiet (fun _ receiving => receiving) same.symm.subset (fun _ _ same _ => same)
  have reads : ∀ {moved : MainLoop Addr} (addr : Addr) (nReadLen : Nat),
      moved.turns = service.mainLoop.turns
      → Attending { service.read addr nReadLen with mainLoop := moved } := by
    intro moved addr nReadLen turns
    have status : ∀ other,
        ((service.read addr nReadLen).conn other).status = (service.conn other).status :=
      setConn_status rfl
    have same : inProgress { service.read addr nReadLen with mainLoop := moved }
        ~ service.inProgress :=
      inProgress_same turns rfl
    exact attending.quiet (fun other receiving => (status other).symm.trans receiving)
      same.symm.subset (fun _ _ same _ => same)
  cases mainLoopStep_move stepped with
  | take addr position =>
      constructor
      · intro other receiving
        by_cases same : other = addr
        · exact ⟨⟨service.selected, addr⟩, List.mem_cons_self, same.symm⟩
        · have before : (service.conn other).status = .receiving := by
            simpa [Service.conn, setConn, same] using receiving
          obtain ⟨turn, member, key⟩ := attending.attended other before
          rw [inProgress, position] at member
          exact ⟨turn, List.mem_cons_of_mem _ member, key⟩
      · exact attending.storing
  | recvLen _ _ position | recvBuf _ _ _ position | added position =>
      exact moves (by rw [position]; rfl)
  | readLen _ _ _ position | readBuf _ _ _ position =>
      exact reads _ _ (by rw [position]; rfl)
  | addTask turn sql pool position called =>
      refine attending.quiet (fun _ receiving => receiving) ?_
        (fun other found executes _ =>
          ((ThreadPool.call_waiting called).2 other).symm.trans executes)
      intro other member
      rw [inProgress, position] at member
      rw [inProgress, ThreadPool.call_tasks called]
      exact member

omit [DecidableEq Addr] in
theorem Attending.select (attending : Attending service) {addr : Addr}
    (stepped : service.select addr = some next)
    : Attending next := by
  rcases select_move stepped with rfl | ⟨position, _, rfl⟩
  · exact attending
  · have same : inProgress { service with mainLoop := .found addr } ~ service.inProgress :=
      inProgress_same (by rw [position]; rfl) rfl
    exact attending.quiet (fun _ receiving => receiving) same.symm.subset
      (fun _ _ same _ => same)

section Runs

variable [Add Seq] [OfNat Seq 0] [OfNat Seq 1] [DecidableEq Seq] [LT Seq] [DecidableLT Seq]
  {event : Event Addr Seq}

theorem Attending.step (attending : Attending service) (awake : Awake service)
    (room : service.HasRoom event) (stepped : service.step event = some next)
    : Attending next := by
  cases event with
  | arrive fromAddr packet =>
      obtain ⟨_, pool, mainLoop, kept, _, _⟩ := arrive_frame stepped
      refine attending.quiet ?_ ?_ ?_
      · intro addr receiving
        exact (kept addr).2.symm.trans receiving
      · exact (inProgress_same (by rw [mainLoop]) pool).symm.subset
      · intro other found executes _
        rwa [pool] at executes
  | recvThread => exact attending.recvThread stepped
  | select addr => exact attending.select stepped
  | mainLoop => exact attending.mainLoop stepped
  | addTask =>
      obtain ⟨pool, moved, rfl⟩ := Option.map_eq_some_iff.mp stepped
      obtain ⟨_, begins⟩ := ThreadPool.addTaskStep_waiting moved
      rcases ThreadPool.addTaskStep_tasks moved with tasks | ⟨task, position, full, _⟩
      · exact attending.pool awake.fresh tasks
          (fun other found executes => Or.inl (begins other found executes))
      · exact absurd (room rfl (by rw [position]; rfl)) full
  | thread index =>
      obtain ⟨pool, moved, rfl⟩ := Option.map_eq_some_iff.mp stepped
      exact attending.pool awake.fresh (ThreadPool.threadStep_tasks moved)
        (ThreadPool.threadStep_waiting moved).2
  | query index outcome => exact attending.query stepped
  | execute index => exact attending.execute stepped
  | transmit index clock =>
      obtain ⟨⟨socket, datagrams⟩, sent, rfl⟩ := Option.map_eq_some_iff.mp stepped
      refine attending.quiet ?_ (List.Subset.refl _) (fun _ _ same _ => same)
      intro addr receiving
      exact (congrArg Conn.status (sendThreadProc_conn sent addr)).symm.trans receiving

omit [DecidableEq Addr] [Add Seq] [OfNat Seq 1] [DecidableEq Seq] [LT Seq] [DecidableLT Seq] in
theorem attending_new (processors : Nat) : Attending (new processors : Service Addr Seq) := by
  constructor
  · intro addr receiving
    cases receiving
  · intro index task executing
    cases executing

/-- When the semaphore has no room, `AddTask` drops the task: its client keeps status 2, and
no request of that client is in progress any more.
-/
theorem not_attended_of_full (owned : Owned service) (awake : Awake service)
    (full : ¬ service.HasRoom event)
    : ∃ next, service.step event = some next ∧ ¬ next.Attended := by
  obtain ⟨rfl, releases⟩ := Classical.not_imp.mp full
  obtain ⟨releasing, noRoom⟩ := Classical.not_imp.mp releases
  cases position : service.pool.addTask with
  | returned | enter _ | push _ | leave | checkIdle | checkCur | createThread =>
      rw [position] at releasing
      cases releasing
  | releaseSemaphore task =>
      have dropped : service.pool.addTaskStep = some { service.pool with addTask := .leave } := by
        simp [ThreadPool.addTaskStep, position, noRoom]
      refine ⟨{ service with pool := { service.pool with addTask := .leave } }, ?_, ?_⟩
      · rw [Service.step, dropped]
        rfl
      · have waits : task ∈ service.pool.waiting := by
          rw [ThreadPool.waiting, position]
          exact List.mem_cons_self
        have progress : task.inProgress = true := by
          rw [SqlTask.inProgress, awake.fresh task waits]
        have tasks : service.pool.tasks
            = task :: ThreadPool.tasks { service.pool with addTask := .leave } := by
          simp [ThreadPool.tasks, position, AddTask.tasks]
        have turns : service.inProgress
            ~ task.turn
              :: inProgress { service with pool := { service.pool with addTask := .leave } } := by
          rw [inProgress, tasks, taskTurns, List.filter_cons_of_pos progress]
          exact List.perm_middle
        intro attended
        obtain ⟨turn, member, key⟩ := attended task.turn.key
          (owned.receiving task.turn (turns.symm.subset List.mem_cons_self))
        have alone := (turns.map Turns.Turn.key).nodup_iff.mp owned.orderly.alone
        exact (List.nodup_cons.mp alone).1 (List.mem_map.mpr ⟨turn, member, key⟩)

/-- No client is abandoned in any state of a run exactly when the semaphore has room for every
task of the run.
-/
theorem attended_iff (processors : Nat) (events : List (Event Addr Seq))
    : (∀ before final,
          before <+: events → run step (new processors) before = some final → final.Attended)
      ↔ Along step HasRoom (new processors) events := by
  constructor
  · intro attended
    refine along_iff.mpr (fun done event rest state split ran => ?_)
    by_contra full
    have owned := TransitionSystem.run_invariant Owned.step (owned_new processors) ran
    have awake := TransitionSystem.run_invariant Awake.step (awake_new processors) ran
    obtain ⟨next, stepped, abandoned⟩ := not_attended_of_full owned awake full
    refine abandoned (attended (done ++ [event]) next ?_ ?_)
    · rw [split]
      exact ⟨rest, by simp⟩
    · rw [TransitionSystem.run_append, ran]
      simpa using stepped
  · rintro room before final ⟨rest, rfl⟩ ran
    have preserved : ∀ {state after : Service Addr Seq} {event : Event Addr Seq},
        Awake state ∧ Attending state → state.HasRoom event → state.step event = some after
        → Awake after ∧ Attending after := by
      rintro state after event ⟨awake, attending⟩ room stepped
      exact ⟨awake.step stepped, attending.step awake room stepped⟩
    have roomBefore : Along step HasRoom (new processors) before := by
      refine along_iff.mpr (fun done event more state split reached => ?_)
      exact along_iff.mp room done event (more ++ rest) state (by rw [split]; simp) reached
    obtain ⟨_, attending⟩ := TransitionSystem.run_invariant_along preserved
      ⟨awake_new processors, attending_new processors⟩ roomBefore ran
    exact attending.attended

end Runs

-----------------------------------------------------------------------------------------
-- More clients than the semaphore has room for
-----------------------------------------------------------------------------------------

/-- The requests of clients 0 to `n - 1` are queued, and no thread of the pool has moved. -/
structure Calm (n : Nat) (service : Service Nat Int) : Prop where
  recvThread : service.recvThread = .recvfrom
  mainLoop : service.mainLoop = .select
  unlocked : ∀ addr, service.statusLock addr = false
  unseen : ∀ addr, n ≤ addr → service.conn addr = Conn.new
  addTask : service.pool.addTask = .returned
  csHeld : service.pool.csHeld = false
  idleThreads : service.pool.idleThreads = 0
  semaphore : service.pool.semaphore = n
  semaphoreMax : service.pool.semaphoreMax = 1000

theorem calm_new : Calm 0 (new 1) := by
  constructor <;> first | rfl | exact fun _ => rfl | exact fun _ _ => rfl

/-- The task of client `n`, whose text is empty. -/
def emptyTask (service : Service Nat Int) (n : Nat) : SqlTask Nat :=
  ⟨⟨service.selected, n⟩, Exchange.taskSql [0], .query⟩

/-- A packet in turn is handled without another thread's step in between. -/
theorem run_inTurn {service : Service Nat Int} {addr : Nat} {packet : DataPacket Int}
    (position : service.recvThread = .recvfrom) (free : service.statusLock addr = false)
    (inTurn : packet.seq = (service.conn addr).nextRecvSeq)
    (nothing : (service.conn addr).recvList = [])
    : ∃ events,
        run step service events
        = some (service.setConn addr ((service.conn addr).deliver packet.data)) := by
  obtain ⟨count, ran⟩ := run_recvThreadProc packet position free
  refine ⟨_, ran.trans ?_⟩
  have handled : (service.conn addr).onData packet
      = (service.conn addr).deliver packet.data := by
    have held : ((service.conn addr).deliver packet.data).recvList = [] := nothing
    rw [Conn.onData, if_pos inTurn, nothing, Conn.drain, ← held]
  rw [CTcpSocket.recvThreadProc, ← handled]
  rfl

/-- `Select` and the first `Recv`, for a client whose stream has the length 1. -/
theorem run_selectLength {service : Service Nat Int} {addr : Nat}
    (unwritten : service.recvThread = .recvfrom) (selecting : service.mainLoop = .select)
    (status : (service.conn addr).status = .hasData)
    (bytes : (service.conn addr).byteStream = [1, 0, 0, 0])
    : run step service [.select addr, .mainLoop, .mainLoop, .mainLoop]
      = some
          {
            service.setConn addr
              { service.conn addr with status := .receiving, byteStream := [] } with
            mainLoop := .recvBuf ⟨service.selected, addr⟩ 1
            selected := service.selected + 1
          } := by
  have length : Exchange.overwrite 0 [1, 0, 0, 0] = 1 := by decide
  rw [Service.conn] at status bytes
  simp [Service.step, Service.select, mainLoopStep, selecting, status, bytes, Service.read,
    Service.conn, setConn, CTcpSocket.setConn, length, unwritten, RecvThread.writing]

/-- The second `Recv` and the call of `AddTask`, for a body of one byte. -/
theorem run_body {service : Service Nat Int} {turn : Turns.Turn Nat}
    (unwritten : service.recvThread = .recvfrom) (reading : service.mainLoop = .recvBuf turn 1)
    (bytes : (service.conn turn.key).byteStream = [0])
    (returned : service.pool.addTask = .returned)
    : run step service [.mainLoop, .mainLoop, .mainLoop]
      = some
          {
            service.setConn turn.key { service.conn turn.key with byteStream := [] } with
            mainLoop := .adding
            pool :=
              { service.pool with addTask := .enter ⟨turn, Exchange.taskSql [0], .query⟩ }
          } := by
  rw [Service.conn] at bytes
  simp [Service.step, mainLoopStep, reading, bytes, Service.read, Service.conn, setConn,
    CTcpSocket.setConn, Terminated, ThreadPool.call, returned, unwritten, RecvThread.writing]

/-- Client `n` connects and its request is read: `AddTask` is called. -/
theorem Calm.request {n : Nat} {service : Service Nat Int} (calm : Calm n service)
    : ∃ final,
        Reaches step service final
        ∧ final.recvThread = .recvfrom
        ∧ final.mainLoop = .adding
        ∧ (∀ addr, final.statusLock addr = false)
        ∧ (∀ addr, n < addr → final.conn addr = Conn.new)
        ∧ final.pool = { service.pool with addTask := .enter (service.emptyTask n) } := by
  let connected : Service Nat Int := { service with socket := service.socket.onEstablish1 n 0 }
  have connects : step service (.arrive n (.establish1 0)) = some connected := by
    simp [Service.step, Service.arrive, calm.recvThread, connected, CTcpSocket.recvThreadProc]
  have fresh : connected.conn n
      = { (Conn.new : Conn Int) with nextSendSeq := 1, nextRecvSeq := 1 } := by
    have unseen : service.socket.connectMap n = Conn.new := calm.unseen n (le_refl n)
    simp [connected, Service.conn, CTcpSocket.onEstablish1, unseen]
  let hasLength := connected.setConn n ((connected.conn n).deliver [1, 0, 0, 0])
  have length : Reaches step connected hasLength :=
    @run_inTurn connected n ⟨1, [1, 0, 0, 0]⟩ calm.recvThread (calm.unlocked n)
      (by rw [fresh]) (by rw [fresh]; rfl)
  have lengthConn : hasLength.conn n
      = {
          (Conn.new : Conn Int) with
          nextSendSeq := 1
          nextRecvSeq := 2
          byteStream := [1, 0, 0, 0]
          status := .hasData
        } :=
    (setConn_conn _ _ _).trans (by rw [fresh]; rfl)
  let reading : Service Nat Int :=
    {
      hasLength.setConn n { hasLength.conn n with status := .receiving, byteStream := [] } with
      mainLoop := .recvBuf ⟨service.selected, n⟩ 1
      selected := service.selected + 1
    }
  have selects : Reaches step hasLength reading :=
    ⟨_, run_selectLength calm.recvThread calm.mainLoop (by rw [lengthConn]) (by rw [lengthConn])⟩
  have readingConn : reading.conn n
      = {
          (Conn.new : Conn Int) with
          nextSendSeq := 1
          nextRecvSeq := 2
          status := .receiving
        } :=
    (setConn_conn _ _ _).trans (by rw [lengthConn]; rfl)
  let hasBody := reading.setConn n ((reading.conn n).deliver [0])
  have body : Reaches step reading hasBody :=
    @run_inTurn reading n ⟨2, [0]⟩ calm.recvThread (calm.unlocked n)
      (by rw [readingConn]) (by rw [readingConn]; rfl)
  have bodyStream : (hasBody.conn n).byteStream = [0] :=
    (congrArg Conn.byteStream (setConn_conn _ _ _)).trans (by rw [readingConn]; rfl)
  refine ⟨_, ((((Reaches.single connects).trans length).trans selects).trans body).trans
    ⟨_, run_body calm.recvThread rfl bodyStream calm.addTask⟩, calm.recvThread, rfl,
    calm.unlocked, ?_, rfl⟩
  intro addr later
  have other : addr ≠ n := Nat.ne_of_gt later
  have unseen : service.socket.connectMap addr = Conn.new := calm.unseen addr (le_of_lt later)
  simp [Service.conn, setConn, CTcpSocket.setConn, hasBody, reading, hasLength, connected,
    CTcpSocket.onEstablish1, other, unseen]

/-- `AddTask` accepts a task: it is queued, and a thread is created for the first one. -/
theorem run_addTask {service : Service Nat Int} {task : SqlTask Nat}
    (mainLoop : service.mainLoop = .adding) (entering : service.pool.addTask = .enter task)
    (csHeld : service.pool.csHeld = false) (idleThreads : service.pool.idleThreads = 0)
    (room : service.pool.semaphore < service.pool.semaphoreMax)
    : ∃ pool : ThreadPool (SqlTask Nat),
        Reaches step service { service with mainLoop := .select, pool }
        ∧ pool.addTask = .returned
        ∧ pool.csHeld = false
        ∧ pool.idleThreads = 0
        ∧ pool.semaphore = service.pool.semaphore + 1
        ∧ pool.semaphoreMax = service.pool.semaphoreMax := by
  by_cases more : service.pool.curThreads < service.pool.maxThreads
  · let created : ThreadPool (SqlTask Nat) :=
      {
        service.pool with
        csHeld := false
        semaphore := service.pool.semaphore + 1
        taskQueue := service.pool.taskQueue ++ [task]
        threadHandles :=
          service.pool.threadHandles.set service.pool.curThreads
            (some service.pool.threads.length)
        curThreads := service.pool.curThreads + 1
        threads := service.pool.threads ++ [.increment]
        addTask := .returned
      }
    refine ⟨created, ⟨List.replicate 7 .addTask ++ [.mainLoop], ?_⟩, rfl, rfl, idleThreads, rfl,
      rfl⟩
    simp [List.replicate, Service.step, ThreadPool.addTaskStep, mainLoopStep, entering, csHeld,
      idleThreads, room, more, mainLoop, created]
  · let queued : ThreadPool (SqlTask Nat) :=
      {
        service.pool with
        csHeld := false
        semaphore := service.pool.semaphore + 1
        taskQueue := service.pool.taskQueue ++ [task]
        addTask := .returned
      }
    refine ⟨queued, ⟨List.replicate 6 .addTask ++ [.mainLoop], ?_⟩, rfl, rfl, idleThreads, rfl,
      rfl⟩
    simp [List.replicate, Service.step, ThreadPool.addTaskStep, mainLoopStep, entering, csHeld,
      idleThreads, room, more, mainLoop, queued]

theorem Calm.queue {n : Nat} {service : Service Nat Int} (calm : Calm n service)
    (room : n < 1000)
    : ∃ final, Reaches step service final ∧ Calm (n + 1) final := by
  obtain ⟨called, reached, recvThread, mainLoop, unlocked, unseen, pool⟩ := calm.request
  obtain ⟨after, queued, addTask, csHeld, idleThreads, semaphore, semaphoreMax⟩ :=
    run_addTask mainLoop (by rw [pool]) (by rw [pool]; exact calm.csHeld)
      (by rw [pool]; exact calm.idleThreads)
      (by rw [pool]; rw [calm.semaphore, calm.semaphoreMax]; exact room)
  refine ⟨_, reached.trans queued, recvThread, rfl, unlocked, ?_, addTask, csHeld, idleThreads,
    ?_, ?_⟩
  · exact fun addr le => unseen addr le
  · rw [semaphore, pool, calm.semaphore]
  · rw [semaphoreMax, pool, calm.semaphoreMax]

/-- As many clients as the semaphore has room for have their requests queued. -/
theorem reaches_calm {n : Nat} (room : n ≤ 1000)
    : ∃ final, Reaches step (new 1 : Service Nat Int) final ∧ Calm n final := by
  induction n with
  | zero => exact ⟨new 1, ⟨[], rfl⟩, calm_new⟩
  | succ n ih =>
      obtain ⟨queued, reached, calm⟩ := ih (Nat.le_of_succ_le room)
      obtain ⟨final, more, calmer⟩ := calm.queue room
      exact ⟨final, reached.trans more, calmer⟩

/-- With one processor and 1001 clients, the last one's task is refused: it keeps status 2
without a request in progress.
-/
theorem attended_not_always
    : ∃ events, ∃ final : Service Nat Int,
        run step (new 1) events = some final ∧ ¬ final.Attended := by
  obtain ⟨queued, first, calm⟩ := reaches_calm (le_refl 1000)
  obtain ⟨called, second, _, _, _, _, pool⟩ := calm.request
  let entered : Service Nat Int :=
    {
      called with
      pool :=
        {
          queued.pool with
          csHeld := true
          addTask := .releaseSemaphore (queued.emptyTask 1000)
        }
    }
  have third : step called .addTask = some entered := by
    simp [Service.step, ThreadPool.addTaskStep, pool, calm.csHeld, entered]
  obtain ⟨events, ran⟩ := (first.trans second).trans (Reaches.single third)
  have full : ¬ entered.HasRoom .addTask := by
    intro room
    have less : queued.pool.semaphore < queued.pool.semaphoreMax := room rfl rfl
    rw [calm.semaphore, calm.semaphoreMax] at less
    exact absurd less (lt_irrefl 1000)
  obtain ⟨final, refused, abandoned⟩ := not_attended_of_full
    (TransitionSystem.run_invariant Owned.step (owned_new 1) ran)
    (TransitionSystem.run_invariant Awake.step (awake_new 1) ran) full
  refine ⟨events ++ [.addTask], final, ?_, abandoned⟩
  rw [TransitionSystem.run_append, ran]
  simpa using refused

end Service

end SchoolSystem.Server
