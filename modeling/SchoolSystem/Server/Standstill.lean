import SchoolSystem.Server.Progress
import SchoolSystem.Server.Refusal

/-! Where the server comes to a standstill: no thread waits for a lock that nobody releases, or for
a task that nobody brings, and the main loop waits for bytes only.
-/

namespace SchoolSystem.Server

open TcpSocket
open TransitionSystem (run Along)

variable {Task Addr Seq : Type} [DecidableEq Addr]

-----------------------------------------------------------------------------------------
-- The pool of the server
-----------------------------------------------------------------------------------------

namespace ThreadPool

variable {pool next : ThreadPool Task} {task other : Task} {index place : Nat}

/-- A pool whose destructor is not called. A task that is accepted has a thread, or `AddTask` is
about to create the first one.
-/
structure Staffed (pool : ThreadPool Task) : Prop where
  agrees : pool.Agrees 0
  accounted : pool.Accounted
  idle : pool.IdleCounted
  attended : pool.Attended
  room : 0 < pool.maxThreads
  stays : pool.exitEvent = false
  serves : ∀ thread ∈ pool.threads, thread ≠ .returned
  staffed
    : pool.threads = []
      → pool.taskQueue ++ pool.addTask.pushing ≠ []
      → pool.addTask.unmatched = 1

theorem staffed_new {processors : Nat} (some : 0 < processors)
    : (new processors : ThreadPool Task).Staffed where
  agrees := by simpa [newWith] using @agrees_newWith Task processors 0
  accounted := by simpa [newWith] using @accounted_newWith Task processors 0
  idle := rfl
  attended := nofun
  room := some
  stays := rfl
  serves := nofun
  staffed _ queued := absurd rfl queued

theorem Staffed.call (staffed : pool.Staffed) (called : pool.call task = some next)
    : next.Staffed := by
  have agrees := staffed.agrees.call called
  have accounted := staffed.accounted.call called
  have attended := staffed.attended.call called
  have ⟨_, _, idle, _, room, stays, serves, comes⟩ := staffed
  obtain ⟨returned, rfl⟩ := call_eq_some called
  refine ⟨agrees, accounted, idle, attended, room, stays, serves, fun none queued => ?_⟩
  rw [returned] at comes
  exact absurd (comes none queued) nofun

/-- Without a thread the first task that is accepted brings one about. -/
theorem Staffed.addTaskStep (staffed : pool.Staffed) (stepped : pool.addTaskStep = some next)
    : next.Staffed := by
  have agrees := staffed.agrees.addTaskStep stepped
  have accounted := staffed.accounted.addTaskStep stepped
  have idle := staffed.idle.addTaskStep stepped
  have attended := staffed.attended.addTaskStep stepped
  have ⟨_, created, counted, _, room, stays, serves, comes⟩ := staffed
  cases addTaskStep_move stepped with
  | enter task position free =>
      refine ⟨agrees, accounted, idle, attended, room, stays, serves, fun none queued => ?_⟩
      rw [position] at comes
      exact absurd (comes none queued) nofun
  | someIdle position some =>
      refine ⟨agrees, accounted, idle, attended, room, stays, serves, fun none _ => ?_⟩
      rw [IdleCounted, show pool.threads = [] from none] at counted
      exact absurd counted some
  | full position full =>
      refine ⟨agrees, accounted, idle, attended, room, stays, serves, fun none _ => ?_⟩
      have zero := created.created
      rw [show pool.threads = [] from none] at zero
      exact absurd (zero ▸ room) full
  | createThread position =>
      refine ⟨agrees, accounted, idle, attended, room, stays, ?_, fun none => ?_⟩
      · intro thread present returned
        rcases List.mem_append.mp present with old | new
        · exact serves thread old returned
        · cases returned ▸ List.mem_singleton.mp new
      · simp at none
  | accept task position | drop task position | push task position | leave position
  | noneIdle position | room position =>
      exact ⟨agrees, accounted, idle, attended, room, stays, serves, fun _ _ => rfl⟩

/-- A thread that goes on is there for the tasks, and it does not return. -/
theorem Staffed.goesOn (staffed : pool.Staffed) {old thread : ThreadProc Task}
    {moved : ThreadPool Task} (found : pool.threads[index]? = some old)
    (threads : moved.threads = pool.threads)
    (agrees : (moved.setThread index thread).Agrees 0)
    (idle : (moved.setThread index thread).IdleCounted)
    (attended : (moved.setThread index thread).Attended)
    (same
      : moved.curThreads = pool.curThreads
        ∧ moved.threadHandles = pool.threadHandles
        ∧ moved.maxThreads = pool.maxThreads
        ∧ moved.exitEvent = pool.exitEvent
        ∧ moved.addTask = pool.addTask)
    (goes : thread ≠ .returned)
    : (moved.setThread index thread).Staffed := by
  obtain ⟨curThreads, threadHandles, maxThreads, exitEvent, addTask⟩ := same
  have accounted : moved.Accounted := by
    have ⟨created, stored, limit, creates, sized⟩ := staffed.accounted
    constructor
    · rw [curThreads, threads, created]
    · rw [curThreads, threadHandles, stored]
    · rwa [curThreads, maxThreads]
    · rwa [addTask, curThreads, maxThreads]
    · rwa [maxThreads, threadHandles]
  refine ⟨agrees, accounted.setThread, idle, attended, ?_, ?_, ?_, ?_⟩
  · exact maxThreads ▸ staffed.room
  · exact exitEvent.trans staffed.stays
  · intro other present
    rcases List.mem_or_eq_of_mem_set present with before | rfl
    · exact staffed.serves other (threads ▸ before)
    · exact goes
  · intro none
    have empty : pool.threads = [] := by
      rw [← threads, ← List.length_eq_zero_iff]
      simpa [setThread] using congrArg List.length none
    rw [empty] at found
    cases found

theorem Staffed.threadStep (staffed : pool.Staffed) (stepped : pool.threadStep index = some next)
    : next.Staffed := by
  have agrees := staffed.agrees.threadStep stepped
  have idle := staffed.idle.threadStep stepped
  have attended := staffed.attended.threadStep stepped
  cases threadStep_move stepped with
  | exit found exits => exact absurd (staffed.stays.symm.trans exits) nofun
  | increment found | wake found | decrement found | enter found | front _ _ found
  | leave _ found =>
      exact staffed.goesOn found rfl agrees idle attended ⟨rfl, rfl, rfl, rfl, rfl⟩ nofun

theorem Staffed.executed (staffed : pool.Staffed) (executed : pool.executed index = some next)
    : next.Staffed := by
  have agrees := staffed.agrees.executed executed
  have idle := staffed.idle.executed executed
  have attended := staffed.attended.executed executed
  obtain ⟨task, found, rfl⟩ := executed_eq_some executed
  exact staffed.goesOn found rfl agrees idle attended ⟨rfl, rfl, rfl, rfl, rfl⟩ nofun

/-- A thread that is executing a task goes on with it. -/
theorem Staffed.setTask (staffed : pool.Staffed) (executing : pool.executing index = some task)
    (later : Task)
    : (pool.setThread index (.execute later)).Staffed := by
  have found := executing_eq_some.mp executing
  refine staffed.goesOn found rfl ?_ ?_ ?_ ⟨rfl, rfl, rfl, rfl, rfl⟩ nofun
  · exact
      ⟨lock_setThread staffed.agrees.lock found nofun rfl rfl rfl,
        counted_setThread staffed.agrees found rfl rfl rfl⟩
  · exact staffed.idle.goesOn found rfl rfl
  · exact staffed.attended.goesOn found nofun rfl rfl rfl

-----------------------------------------------------------------------------------------
-- The tasks that execute
-----------------------------------------------------------------------------------------

theorem executing_setThread_ne {thread : ThreadProc Task} (different : place ≠ index)
    : (pool.setThread index thread).executing place = pool.executing place := by
  simp [executing, setThread, List.getElem?_set_ne (Ne.symm different)]

/-- A task that executes goes on when `AddTask` does. -/
theorem addTaskStep_keeps (stepped : pool.addTaskStep = some next)
    (executing : pool.executing place = some other)
    : next.executing place = some other := by
  cases addTaskStep_move stepped with
  | createThread position =>
      rw [executing_eq_some] at executing ⊢
      rw [List.getElem?_append_left (List.getElem?_eq_some_iff.mp executing).1]
      exact executing
  | enter | accept | drop | push | leave | someIdle | noneIdle | full | room => exact executing

/-- A task that executes goes on when another thread does. -/
theorem threadStep_keeps (stepped : pool.threadStep index = some next)
    (executing : pool.executing place = some other)
    : next.executing place = some other := by
  have different : place ≠ index := by
    rintro rfl
    simp [threadStep, executing_eq_some.mp executing] at stepped
  cases threadStep_move stepped <;> exact (executing_setThread_ne different).trans executing

end ThreadPool

namespace Service

variable {service next : Service Addr Seq} {task : SqlTask Addr} {index : Nat}

-----------------------------------------------------------------------------------------
-- The holders of the status locks
-----------------------------------------------------------------------------------------

/-- The pool has a thread for its tasks, and a status lock that is taken has a holder. -/
structure Manned (service : Service Addr Seq) : Prop where
  pool : service.pool.Staffed
  locks : Locks.Attended service.statusLock service.holds

omit [DecidableEq Addr] in
/-- A step that touches neither the locks nor the pool. -/
theorem Manned.frame (manned : Manned service) (pool : next.pool = service.pool)
    (statusLock : next.statusLock = service.statusLock)
    (inside : next.recvThread.inside = service.recvThread.inside)
    : Manned next := by
  constructor
  · rw [pool]
    exact manned.pool
  · rw [statusLock]
    refine manned.locks.mono ?_
    rintro (_ | other) addr held
    · exact inside.trans held
    · rwa [holds, pool]

omit [DecidableEq Addr] in
/-- A step of the pool that ends no task which holds a lock. -/
theorem Manned.works (manned : Manned service) {pool : ThreadPool (SqlTask Addr)}
    {mainLoop : MainLoop Addr} (staffed : pool.Staffed)
    (keeps
      : ∀ other found,
          service.pool.executing other = some found
          → found.execute.inside = true
          → pool.executing other = some found)
    : Manned { service with pool, mainLoop } := by
  refine ⟨staffed, manned.locks.mono ?_⟩
  rintro (_ | other) addr held
  · exact held
  · obtain ⟨found, executes, inside, key⟩ := held
    exact ⟨found, keeps other found executes inside, inside, key⟩

theorem Manned.recvThread [Add Seq] [OfNat Seq 1] [DecidableEq Seq] (manned : Manned service)
    (stepped : service.recvThreadStep = some next)
    : Manned next := by
  cases recvThreadStep_move stepped with
  | lock addr drained position free =>
      refine ⟨manned.pool, @Locks.Attended.acquire _ _ _ _ _ Holder.recvThread _ _ manned.locks
        rfl ?_⟩
      rintro (_ | other) place held
      · rw [holds, position] at held
        cases held
      · exact held
  | unlock addr drained moved position =>
      refine ⟨manned.pool, manned.locks.release ?_⟩
      rintro (_ | other) place different held
      · rw [holds, position] at held
        exact absurd (Option.some.inj held).symm different
      · exact held
  | write addr data drained position | push addr byte rest drained position
  | written addr drained counted position | noData addr drained position
  | someData addr drained position | store addr drained position | next addr held position
  | drained addr position =>
      exact manned.frame rfl rfl (by rw [position]; rfl)

omit [DecidableEq Addr] in
/-- A task that goes on keeps the lock that it holds, and the others keep theirs. -/
theorem holds_setTask {execute : Execute} {holder : Holder} {addr : Addr}
    (held : service.holds holder addr) (executing : service.pool.executing index = some task)
    (inside : task.execute.inside = true → addr = task.turn.key → execute.inside = true)
    (recvThread : next.recvThread = service.recvThread)
    (pool : next.pool = service.pool.setThread index (.execute { task with execute }))
    : next.holds holder addr := by
  cases holder with
  | recvThread =>
      rw [holds, recvThread]
      exact held
  | thread other =>
      obtain ⟨found, executes, holding, key⟩ := held
      by_cases same : other = index
      · subst same
        obtain rfl := Option.some.inj (executing.symm.trans executes)
        refine ⟨{ task with execute }, ?_, inside holding key.symm, key⟩
        have within := (List.getElem?_eq_some_iff.mp (ThreadPool.executing_eq_some.mp executing)).1
        rw [pool, ThreadPool.executing_eq_some, ThreadPool.setThread,
          List.getElem?_set_self within]
      · refine ⟨found, ?_, holding, key⟩
        rw [pool, ThreadPool.executing_setThread_ne same]
        exact executes

omit [DecidableEq Addr] in
/-- A step of `Execute` that takes and releases no lock. -/
theorem Manned.setTask (manned : Manned service)
    (executing : service.pool.executing index = some task) {socket : CTcpSocket Addr Seq}
    {queued : List (Turns.Turn Addr × Packet Seq)} {execute : Execute}
    (inside : task.execute.inside = true → execute.inside = true)
    : Manned (Service.setTask { service with socket, queued } index { task with execute }) := by
  refine ⟨manned.pool.setTask executing _, manned.locks.mono (fun holder addr held => ?_)⟩
  exact holds_setTask held executing (fun holding _ => inside holding) rfl rfl

theorem Manned.execute [Add Seq] [OfNat Seq 1] (manned : Manned service)
    (stepped : service.executeStep index = some next)
    : Manned next := by
  cases executeStep_move stepped with
  | send task buf rest executing execute | sent task executing execute
  | getSize task status executing execute | store task status executing execute =>
      exact manned.setTask executing (by rw [execute]; simp [Execute.inside])
  | lock task executing execute free =>
      have outside : ¬ task.execute.inside = true := by
        rw [execute]
        exact nofun
      have within := (List.getElem?_eq_some_iff.mp (ThreadPool.executing_eq_some.mp executing)).1
      refine ⟨manned.pool.setTask executing _, @Locks.Attended.acquire _ _ _ _ _
        (Holder.thread index) _ _ manned.locks ⟨{ task with execute := .getSize }, ?_, rfl, rfl⟩
        ?_⟩
      · exact ThreadPool.executing_eq_some.mpr (List.getElem?_set_self within)
      · intro holder addr held
        exact holds_setTask held executing (fun holding _ => absurd holding outside) rfl rfl
  | unlock task executing execute =>
      refine ⟨manned.pool.setTask executing _, manned.locks.release ?_⟩
      intro holder addr different held
      exact holds_setTask held executing (fun _ same => absurd same different) rfl rfl
  | returned task pool executing execute executed =>
      refine manned.works (manned.pool.executed executed) (fun other found executes inside => ?_)
      have different : other ≠ index := by
        rintro rfl
        obtain rfl := Option.some.inj (executing.symm.trans executes)
        rw [execute] at inside
        cases inside
      obtain ⟨_, _, rfl⟩ := ThreadPool.executed_eq_some executed
      exact (ThreadPool.executing_setThread_ne different).trans executes

theorem Manned.mainLoop (manned : Manned service) (stepped : service.mainLoopStep = some next)
    : Manned next := by
  cases mainLoopStep_move stepped with
  | addTask turn sql pool position called =>
      refine manned.works (manned.pool.call called) (fun other found executes _ => ?_)
      exact ((ThreadPool.call_waiting called).2 other).trans executes
  | take | recvLen | readLen | recvBuf | readBuf | added => exact manned.frame rfl rfl rfl

section Steps

variable [Add Seq] [OfNat Seq 0] [OfNat Seq 1] [DecidableEq Seq] [LT Seq] [DecidableLT Seq]
  {event : Event Addr Seq}

theorem Manned.step (manned : Manned service) (stepped : service.step event = some next)
    : Manned next := by
  cases event with
  | arrive fromAddr packet =>
      obtain ⟨statusLock, pool, _, _, position, moves⟩ := arrive_frame stepped
      refine manned.frame pool statusLock ?_
      rcases moves with same | ⟨data, write⟩
      · rw [same, position]
      · rw [write, position]
        rfl
  | recvThread => exact manned.recvThread stepped
  | select addr =>
      rcases select_move stepped with rfl | ⟨_, _, rfl⟩
      · exact manned
      · exact manned.frame rfl rfl rfl
  | mainLoop => exact manned.mainLoop stepped
  | addTask =>
      obtain ⟨pool, moved, rfl⟩ := Option.map_eq_some_iff.mp stepped
      exact manned.works (manned.pool.addTaskStep moved)
        (fun _ _ executes _ => ThreadPool.addTaskStep_keeps moved executes)
  | thread index =>
      obtain ⟨pool, moved, rfl⟩ := Option.map_eq_some_iff.mp stepped
      exact manned.works (manned.pool.threadStep moved)
        (fun _ _ executes _ => ThreadPool.threadStep_keeps moved executes)
  | query index outcome =>
      obtain ⟨task, bufs, executing, execute, rfl⟩ := query_move stepped
      exact manned.setTask executing (by rw [execute]; exact nofun)
  | execute index => exact manned.execute stepped
  | transmit index clock =>
      obtain ⟨sent, _, rfl⟩ := Option.map_eq_some_iff.mp stepped
      exact manned.frame rfl rfl rfl

omit [DecidableEq Addr] [Add Seq] [OfNat Seq 1] [DecidableEq Seq] [LT Seq] [DecidableLT Seq] in
theorem manned_new {processors : Nat} (some : 0 < processors)
    : Manned (new processors : Service Addr Seq) where
  pool := ThreadPool.staffed_new some
  locks := nofun

end Steps

-----------------------------------------------------------------------------------------
-- Where nothing goes on
-----------------------------------------------------------------------------------------

/-- The client for whose bytes the main loop waits in `Recv`. -/
def awaited (service : Service Addr Seq) : Option Addr :=
  match service.mainLoop with
  | .recvLen turn | .recvBuf turn _ => some turn.key
  | .select | .found _ | .readLen _ _ | .readBuf _ _ | .addTask _ _ | .adding => none

/-- The steps of the server's threads but `SendThreadProc`, which sends again what is pending for
ever; `Select` goes on only when it comes to a client with status 1.
-/
def Moves (service : Service Addr Seq) : Event Addr Seq → Prop
  | .recvThread | .mainLoop | .addTask | .thread _ | .query _ _ | .execute _ => True
  | .select addr => (service.conn addr).status = .hasData
  | .arrive _ _ | .transmit _ _ => False

/-- Why the main loop does not go on: there is no client to serve, or the one that it serves has
sent no more, or its request cannot be read into `buf`.
-/
inductive Halted (service : Service Addr Seq) : Prop
  | select (position : service.mainLoop = .select)
      (served : ∀ addr, (service.conn addr).status = .noData)
  | recv (addr : Addr) (position : service.awaited = some addr)
      (empty : (service.conn addr).byteStream = [])
  | undefined (turn : Turns.Turn Addr) (nReadLen : Int)
      (position : service.mainLoop = .readBuf turn nReadLen)
      (undefined
        : ¬ (0 ≤ nReadLen
            ∧ nReadLen ≤ 0x1000
            ∧ Terminated ((service.conn turn.key).byteStream.take nReadLen.toNat)))

/-- Every thread waits for something from outside: the receive thread for a datagram, the pool for
a task, the main loop for bytes. Status 2 is that of the client whose request is being read.
-/
structure Standstill (service : Service Addr Seq) : Prop where
  recvThread : service.recvThread = .recvfrom
  unlocked : ∀ addr, service.statusLock addr = false
  csHeld : service.pool.csHeld = false
  returned : service.pool.addTask = .returned
  threads : ∀ thread ∈ service.pool.threads, thread = .wait
  taskQueue : service.pool.taskQueue = []
  semaphore : service.pool.semaphore = 0
  receiving
    : ∀ addr,
        (service.conn addr).status = .receiving
        ↔ ∃ turn ∈ service.mainLoop.turns, turn.key = addr
  silent
    : ∀ addr, (service.conn addr).status = .noData → (service.conn addr).byteStream = []
  mainLoop : Halted service

section Rest

variable [Add Seq] [OfNat Seq 0] [OfNat Seq 1] [DecidableEq Seq] [LT Seq] [DecidableLT Seq]

/-- No thread can take a step that leads on. -/
def AtRest (service : Service Addr Seq) : Prop :=
  ∀ event, service.Moves event → service.step event = none

/-- Whoever holds a status lock can take its next step. -/
theorem AtRest.unlocked (rest : service.AtRest) (manned : Manned service) (addr : Addr)
    : service.statusLock addr = false := by
  by_contra locked
  obtain ⟨holder, held⟩ := manned.locks addr (by simpa using locked)
  cases holder with
  | recvThread =>
      have stuck : service.recvThreadStep = none := rest .recvThread trivial
      rw [holds] at held
      cases position : service.recvThread with
      | test place drained =>
          cases status : (service.conn place).status <;>
            simp [recvThreadStep, position, status] at stuck
      | store | unlock => simp [recvThreadStep, position] at stuck
      | recvfrom | write | push | lock | drain =>
          rw [position] at held
          cases held
  | thread index =>
      obtain ⟨task, executing, inside, key⟩ := held
      have stuck : service.executeStep index = none := rest (.execute index) trivial
      cases execute : task.execute with
      | getSize | store | unlock => simp [executeStep, executing, execute] at stuck
      | query | send | lock | returned =>
          rw [execute] at inside
          cases inside

theorem AtRest.recvfrom (rest : service.AtRest) (free : ∀ addr, service.statusLock addr = false)
    : service.recvThread = .recvfrom := by
  have stuck : service.recvThreadStep = none := rest .recvThread trivial
  cases position : service.recvThread with
  | recvfrom => rfl
  | lock addr drained => simp [recvThreadStep, position, free addr] at stuck
  | test addr drained =>
      cases status : (service.conn addr).status <;>
        simp [recvThreadStep, position, status] at stuck
  | drain addr =>
      cases held : (service.conn addr).recvList with
      | nil => simp [recvThreadStep, position, held] at stuck
      | cons packet rest =>
          simp only [recvThreadStep, position, held] at stuck
          split at stuck <;> cases stuck
  | push addr data drained => cases data <;> simp [recvThreadStep, position] at stuck
  | write | store | unlock => simp [recvThreadStep, position] at stuck

/-- A task that executes can go on: the database answers, and the status lock is free. -/
theorem AtRest.executing (rest : service.AtRest)
    (free : ∀ addr, service.statusLock addr = false) (index : Nat)
    : service.pool.executing index = none := by
  cases executing : service.pool.executing index with
  | none => rfl
  | some task =>
      have stuck : service.executeStep index = none := rest (.execute index) trivial
      have answers : service.query index .failed = none := rest (.query index .failed) trivial
      cases execute : task.execute with
      | query => simp [Service.query, executing, execute, Exchange.execute] at answers
      | send bufs => cases bufs <;> simp [executeStep, executing, execute] at stuck
      | lock => simp [executeStep, executing, execute, free] at stuck
      | returned => simp [executeStep, executing, execute, ThreadPool.executed] at stuck
      | getSize | store | unlock => simp [executeStep, executing, execute] at stuck

theorem AtRest.rests (rest : service.AtRest) (free : ∀ addr, service.statusLock addr = false)
    : service.pool.Rests := by
  refine ⟨?_, fun index => ⟨?_, ?_⟩⟩
  · simpa [Service.step] using rest .addTask trivial
  · simpa [Service.step] using rest (.thread index) trivial
  · simp [ThreadPool.executed, rest.executing free index]

/-- Once `AddTask` has returned, the main loop waits for bytes, or its request is undefined. -/
theorem AtRest.halted (rest : service.AtRest) (recvfrom : service.recvThread = .recvfrom)
    (returned : service.pool.addTask = .returned)
    (attended : ∀ addr, (service.conn addr).status = .receiving → service.mainLoop ≠ .select)
    : Halted service := by
  have stuck : service.mainLoopStep = none := rest .mainLoop trivial
  cases position : service.mainLoop with
  | select =>
      refine .select position (fun addr => ?_)
      cases status : (service.conn addr).status with
      | noData => rfl
      | receiving => exact absurd position (attended addr status)
      | hasData =>
          have selects : service.select addr = none := rest (.select addr) status
          simp [Service.select, position, status] at selects
  | recvLen turn =>
      refine .recv turn.key (by rw [awaited, position]) ?_
      simpa [mainLoopStep, position] using stuck
  | recvBuf turn nLen =>
      refine .recv turn.key (by rw [awaited, position]) ?_
      simpa [mainLoopStep, position] using stuck
  | readBuf turn nReadLen =>
      refine .undefined turn nReadLen position (fun fits => ?_)
      simp [mainLoopStep, position, recvfrom, RecvThread.writing, fits] at stuck
  | found | readLen => simp [mainLoopStep, position, recvfrom, RecvThread.writing] at stuck
  | addTask turn sql => simp [mainLoopStep, position, ThreadPool.call, returned] at stuck
  | adding => simp [mainLoopStep, position, returned] at stuck

theorem AtRest.standstill (rest : service.AtRest) (manned : Manned service)
    (owned : Owned service) (awake : Awake service) (attending : Attending service)
    : Standstill service := by
  have free := rest.unlocked manned
  have ⟨agrees, _, _, attended, _, _, serves, staffed⟩ := manned.pool
  obtain ⟨csHeld, returned, waits, empty, unsignalled⟩ :=
    (rest.rests free).idle agrees attended serves
      (fun none queued => staffed none (List.append_ne_nil_of_left_ne_nil queued _))
  have idle : service.pool.tasks = [] := by
    have nothing : service.pool.threads.flatMap ThreadProc.tasks = [] := by
      refine List.flatMap_eq_nil_iff.mpr (fun thread present => ?_)
      rw [waits thread present]
      rfl
    rw [ThreadPool.tasks, returned, empty, nothing]
    rfl
  have progress : service.inProgress = service.mainLoop.turns := by
    rw [inProgress, idle]
    exact List.append_nil _
  have receiving : ∀ addr,
      (service.conn addr).status = .receiving
      ↔ ∃ turn ∈ service.mainLoop.turns, turn.key = addr := by
    intro addr
    constructor
    · intro status
      exact progress ▸ attending.attended addr status
    · rintro ⟨turn, reading, rfl⟩
      exact owned.receiving turn (progress ▸ reading)
  have position := rest.recvfrom free
  refine ⟨position, free, csHeld, returned, waits, empty, unsignalled, receiving, ?_, ?_⟩
  · intro addr noData
    by_contra bytes
    rcases awake.awake addr bytes with data | update
    · exact data noData
    · rw [position] at update
      cases update
  · refine rest.halted position returned (fun addr status select => ?_)
    obtain ⟨turn, reading, _⟩ := (receiving addr).mp status
    rw [select] at reading
    cases reading

/-- As long as the semaphore has room for every task, no client is abandoned. -/
theorem attending_of_run {processors : Nat} {events : List (Event Addr Seq)}
    (room : Along step HasRoom (new processors) events)
    (ran : run step (new processors) events = some service)
    : Awake service ∧ Attending service := by
  have preserved : ∀ {state after : Service Addr Seq} {event : Event Addr Seq},
      Awake state ∧ Attending state → state.HasRoom event → state.step event = some after
      → Awake after ∧ Attending after := by
    rintro state after event ⟨awake, attending⟩ room stepped
    exact ⟨awake.step stepped, attending.step awake room stepped⟩
  have kept := TransitionSystem.run_invariant_along preserved
    ⟨awake_new processors, attending_new processors⟩ room ran
  exact kept

/-- In a reachable state in which no thread can go on, every thread waits for something from
outside: no interleaving ends in a deadlock on a lock or on the semaphore, no accepted task is
left over, and no client waits unless the main loop waits for the bytes of another one.
-/
theorem standstill_of_run {processors : Nat} {events : List (Event Addr Seq)}
    (some : 0 < processors) (room : Along step HasRoom (new processors) events)
    (ran : run step (new processors) events = Option.some service)
    (rest : service.AtRest)
    : Standstill service := by
  have manned := TransitionSystem.run_invariant Manned.step (manned_new some) ran
  have owned := TransitionSystem.run_invariant Owned.step (owned_new processors) ran
  obtain ⟨awake, attending⟩ := attending_of_run room ran
  exact rest.standstill manned owned awake attending

/-- Client 7 has sent the length of its request and client 8 a whole packet. -/
def halfRequest : List (Event Nat Int) :=
  List.flatten
    [
      [.arrive 7 (.establish1 0), .arrive 7 (.data ⟨1, [2, 0, 0, 0]⟩)],
      List.replicate 11 .recvThread,
      [.select 7, .mainLoop, .mainLoop, .mainLoop],
      [.arrive 8 (.establish1 0), .arrive 8 (.data ⟨1, [2, 0, 0, 0]⟩)],
      List.replicate 11 .recvThread
    ]

/-- The server waits for the body of client 7's request, and client 8 waits behind it. -/
theorem standstill_halfRequest
    : ∃ final : Service Nat Int,
        run step (new 1) halfRequest = some final
        ∧ final.awaited = some 7
        ∧ (final.conn 8).status = .hasData
        ∧ Standstill final := by
  obtain ⟨final, reached⟩ := Option.isSome_iff_exists.mp
    (by decide +kernel
      : ((run step (new 1) halfRequest).filter
          (fun final =>
            final.recvThread = .recvfrom
            ∧ final.mainLoop = .recvBuf ⟨0, 7⟩ 2
            ∧ final.pool = .new 1
            ∧ (final.conn 7).byteStream = []
            ∧ (final.conn 8).status = .hasData)).isSome)
  obtain ⟨ran, state⟩ := Option.filter_eq_some_iff.mp reached
  obtain ⟨recvThread, mainLoop, pool, empty, waits⟩ := of_decide_eq_true state
  have rest : final.AtRest := by
    intro event moves
    cases event with
    | arrive | transmit => cases moves
    | recvThread => simp [Service.step, recvThreadStep, recvThread]
    | select addr => simp [Service.step, Service.select, mainLoop]
    | mainLoop => simp [Service.step, mainLoopStep, mainLoop, empty]
    | addTask => simp [Service.step, ThreadPool.addTaskStep, pool, ThreadPool.new]
    | thread index => simp [Service.step, ThreadPool.threadStep, pool, ThreadPool.new]
    | query index outcome =>
        simp [Service.step, Service.query, ThreadPool.executing, pool, ThreadPool.new]
    | execute index =>
        simp [Service.step, executeStep, ThreadPool.executing, pool, ThreadPool.new]
  refine ⟨final, ran, by rw [awaited, mainLoop], waits, ?_⟩
  exact standstill_of_run Nat.zero_lt_one (by decide +kernel) ran rest

end Rest

end Service

end SchoolSystem.Server
