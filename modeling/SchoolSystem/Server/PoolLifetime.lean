import SchoolSystem.Library.Locks
import SchoolSystem.Library.TransitionSystem
import SchoolSystem.Server.ThreadPool

/-! `CThreadPool` from its constructor to the end of its destructor: the semaphore counts what is
queued, and every accepted task is executed or aborted.
-/

namespace SchoolSystem.Server

open scoped List

variable {Task : Type}

-----------------------------------------------------------------------------------------
-- The critical section, the semaphore and the threads of a pool
-----------------------------------------------------------------------------------------

/-- Whether the owner holds `m_cs`. -/
def AddTask.inside : AddTask Task → Bool
  | .releaseSemaphore _ | .push _ | .leave => true
  | .returned | .enter _ | .checkIdle | .checkCur | .createThread => false

/-- The task that the semaphore counts already and the queue does not hold yet. -/
def AddTask.pushing : AddTask Task → List Task
  | .push task => [task]
  | .returned | .enter _ | .releaseSemaphore _ | .leave | .checkIdle | .checkCur
  | .createThread => []

/-- Whether a thread holds `m_cs`. -/
def ThreadProc.inside : ThreadProc Task → Bool
  | .front | .leave _ => true
  | .increment | .wait | .decrement | .enter | .execute _ | .returned => false

/-- Whether a thread has passed the wait and not popped its task yet. -/
def ThreadProc.woken : ThreadProc Task → Bool
  | .decrement | .enter | .front => true
  | .increment | .wait | .leave _ | .execute _ | .returned => false

namespace ThreadPool

variable {pool next moved : ThreadPool Task} {task : Task} {index taken : Nat}
  {old thread : ThreadProc Task}

/-- Who is inside `m_cs`: the owner, or a thread by its number. -/
def Holds (pool : ThreadPool Task) : Option Nat → Unit → Prop
  | none, _ => pool.addTask.inside = true
  | some index, _ => ∃ thread, pool.threads[index]? = some thread ∧ thread.inside = true

/-- The semaphore and the queue agree, up to the threads and the task between the two, and to
the tasks that were taken without a wait.
-/
structure Agrees (pool : ThreadPool Task) (taken : Nat) : Prop where
  lock : Locks.Exclusive (fun _ => pool.csHeld) pool.Holds
  counted
    : pool.taskQueue.length + pool.addTask.pushing.length + taken
      = pool.semaphore + pool.threads.countP ThreadProc.woken

/-- The handles of all threads are stored, each at an index of its own. -/
structure Accounted (pool : ThreadPool Task) : Prop where
  created : pool.curThreads = pool.threads.length
  stored : pool.threadHandles.take pool.curThreads = (List.range pool.curThreads).map some
  limit : pool.curThreads ≤ pool.maxThreads
  creates : pool.addTask = .createThread → pool.curThreads < pool.maxThreads
  sized : pool.maxThreads ≤ pool.threadHandles.length

theorem setThread_countP (counts : ThreadProc Task → Bool)
    (found : pool.threads[index]? = some old)
    : (pool.setThread index thread).threads.countP counts + (if counts old then 1 else 0)
      = pool.threads.countP counts + (if counts thread then 1 else 0) := by
  obtain ⟨inside, rfl⟩ := List.getElem?_eq_some_iff.mp found
  have changed := @List.countP_set _ counts pool.threads index thread inside
  have positive : counts pool.threads[index] = true → 0 < pool.threads.countP counts :=
    fun counted => List.countP_pos_iff.mpr ⟨_, List.getElem_mem inside, counted⟩
  rw [setThread, changed]
  split <;> grind

theorem holds_setThread {party : Option Nat} {key : Unit}
    (holds : (pool.setThread index thread).Holds party key)
    : (party = some index ∧ thread.inside = true)
      ∨ (party ≠ some index ∧ pool.Holds party key) := by
  cases party with
  | none => exact Or.inr ⟨nofun, holds⟩
  | some other =>
      obtain ⟨holder, found, inside⟩ := holds
      by_cases same : other = index
      · subst same
        rw [setThread, List.getElem?_set] at found
        grind
      · refine Or.inr ⟨by simpa using same, holder, ?_, inside⟩
        rwa [setThread, List.getElem?_set_ne (Ne.symm same)] at found

/-- Whoever sets a lock of one key sets all of it. -/
theorem update_unit (locked : Unit → Bool) (held : Bool)
    : Function.update locked () held = fun _ => held := by
  funext key
  simp [Function.update]

theorem lock_acquire (party : Option Nat)
    (lock : Locks.Exclusive (fun _ => pool.csHeld) pool.Holds) (free : pool.csHeld = false)
    (only : ∀ other, next.Holds other () → pool.Holds other () ∨ other = party)
    : Locks.Exclusive (fun _ => true) next.Holds := by
  have acquired :=
    @Locks.Exclusive.acquire _ _ _ _ next.Holds party () _ lock free
      (fun other _ holds => (only other holds).imp_right (fun same => ⟨same, rfl⟩))
  rwa [update_unit] at acquired

theorem lock_release (party : Option Nat)
    (lock : Locks.Exclusive (fun _ => pool.csHeld) pool.Holds) (held : pool.Holds party ())
    (fewer : ∀ other, next.Holds other () → pool.Holds other () ∧ other ≠ party)
    : Locks.Exclusive (fun _ => false) next.Holds := by
  have released :=
    @Locks.Exclusive.release _ _ _ _ next.Holds party () _ lock held
      (fun other _ holds => ⟨(fewer other holds).1, fun same => (fewer other holds).2 same.1⟩)
  rwa [update_unit] at released

/-- A thread that stays inside or outside keeps the lock as it is. -/
theorem lock_setThread (lock : Locks.Exclusive (fun _ => pool.csHeld) pool.Holds)
    (found : pool.threads[index]? = some old) (stays : thread.inside = true → old.inside = true)
    (threads : moved.threads = pool.threads) (addTask : moved.addTask = pool.addTask)
    (csHeld : moved.csHeld = pool.csHeld)
    : Locks.Exclusive (fun _ => (moved.setThread index thread).csHeld)
        (moved.setThread index thread).Holds := by
  have same : moved.Holds = pool.Holds := by
    funext party key
    cases party with
    | none => simp only [Holds, addTask]
    | some other => simp only [Holds, threads]
  rw [setThread, csHeld]
  refine lock.mono (fun party key holds => ?_)
  rcases holds_setThread holds with ⟨rfl, inside⟩ | ⟨_, before⟩
  · exact ⟨old, found, stays inside⟩
  · rwa [same] at before

/-- What a thread takes from the semaphore or the queue moves it past the wait or the pop. -/
theorem counted_setThread (agrees : pool.Agrees taken) (found : pool.threads[index]? = some old)
    (threads : moved.threads = pool.threads) (addTask : moved.addTask = pool.addTask)
    (balance
      : moved.taskQueue.length + pool.semaphore + (if old.woken then 1 else 0)
        = pool.taskQueue.length + moved.semaphore + (if thread.woken then 1 else 0))
    : (moved.setThread index thread).taskQueue.length
        + (moved.setThread index thread).addTask.pushing.length
        + taken
      = (moved.setThread index thread).semaphore
        + (moved.setThread index thread).threads.countP ThreadProc.woken := by
  have counted := agrees.counted
  have count := @setThread_countP _ moved index old thread ThreadProc.woken (threads ▸ found)
  simp only [setThread, threads, addTask] at count ⊢
  omega

-----------------------------------------------------------------------------------------
-- What the steps preserve
-----------------------------------------------------------------------------------------

/-- A position of `AddTask` that is not inside leaves the lock to the threads. -/
theorem Agrees.moves (agrees : pool.Agrees taken) (addTask : AddTask Task)
    (stays : addTask.inside = true → pool.addTask.inside = true)
    : Locks.Exclusive (fun _ => pool.csHeld) ({ pool with addTask := addTask }).Holds := by
  refine agrees.lock.mono (fun party key holds => ?_)
  cases party with
  | none => exact stays holds
  | some index => exact holds

theorem Agrees.call (agrees : pool.Agrees taken) (called : pool.call task = some next)
    : next.Agrees taken := by
  obtain ⟨position, rfl⟩ := call_eq_some called
  refine ⟨agrees.moves (.enter task) nofun, ?_⟩
  have counted := agrees.counted
  simpa [position, AddTask.pushing] using counted

theorem Agrees.addTaskStep (agrees : pool.Agrees taken) (stepped : pool.addTaskStep = some next)
    : next.Agrees taken := by
  have counted := agrees.counted
  cases addTaskStep_move stepped with
  | enter task position free =>
      refine ⟨lock_acquire none agrees.lock free ?_, ?_⟩
      · intro other holds
        cases other with
        | none => exact Or.inr rfl
        | some index => exact Or.inl holds
      · simpa [position, AddTask.pushing] using counted
  | accept task position room =>
      refine ⟨agrees.moves (.push task) (fun _ => by rw [position]; rfl), ?_⟩
      simp only [position, AddTask.pushing, List.length_nil, List.length_singleton] at counted ⊢
      omega
  | drop task position full =>
      refine ⟨agrees.moves .leave (fun _ => by rw [position]; rfl), ?_⟩
      simpa [position, AddTask.pushing] using counted
  | push task position =>
      refine ⟨agrees.moves .leave (fun _ => by rw [position]; rfl), ?_⟩
      simpa [position, AddTask.pushing] using counted
  | leave position =>
      refine ⟨lock_release none agrees.lock (by rw [Holds, position]; rfl) ?_, ?_⟩
      · intro other holds
        cases other with
        | none => cases holds
        | some index => exact ⟨holds, nofun⟩
      · simpa [position, AddTask.pushing] using counted
  | someIdle position | full position =>
      refine ⟨agrees.moves .returned nofun, ?_⟩
      simpa [position, AddTask.pushing] using counted
  | noneIdle position =>
      refine ⟨agrees.moves .checkCur nofun, ?_⟩
      simpa [position, AddTask.pushing] using counted
  | room position =>
      refine ⟨agrees.moves .createThread nofun, ?_⟩
      simpa [position, AddTask.pushing] using counted
  | createThread position =>
      constructor
      · refine agrees.lock.mono (fun party key holds => ?_)
        cases party with
        | none => cases holds
        | some index =>
            obtain ⟨thread, found, inside⟩ := holds
            refine ⟨thread, ?_, inside⟩
            rw [List.getElem?_append] at found
            split at found
            · exact found
            · obtain rfl := List.mem_singleton.mp (List.mem_of_getElem? found)
              cases inside
      · simpa [position, AddTask.pushing, ThreadProc.woken] using counted

theorem Agrees.threadStep (agrees : pool.Agrees taken) (stepped : pool.threadStep index = some next)
    : next.Agrees taken := by
  cases threadStep_move stepped with
  | increment found | exit found | decrement found =>
      exact
        ⟨lock_setThread agrees.lock found nofun rfl rfl rfl,
          counted_setThread agrees found rfl rfl rfl⟩
  | wake found stays signalled =>
      refine
        ⟨lock_setThread agrees.lock found nofun rfl rfl rfl,
          counted_setThread agrees found rfl rfl ?_⟩
      simp only [ThreadProc.woken, Bool.false_eq_true, if_false, if_true]
      omega
  | front task rest found queued =>
      refine
        ⟨lock_setThread agrees.lock found (fun _ => rfl) rfl rfl rfl,
          counted_setThread agrees found rfl rfl ?_⟩
      simp only [ThreadProc.woken, queued, List.length_cons, Bool.false_eq_true, if_false, if_true]
      omega
  | enter found free =>
      refine
        ⟨lock_acquire (some index) agrees.lock free (fun other holds => ?_),
          counted_setThread agrees found rfl rfl rfl⟩
      rcases holds_setThread holds with ⟨same, _⟩ | ⟨_, before⟩
      · exact Or.inr same
      · exact Or.inl before
  | leave task found =>
      refine
        ⟨lock_release (some index) agrees.lock ⟨_, found, rfl⟩ (fun other holds => ?_),
          counted_setThread agrees found rfl rfl rfl⟩
      rcases holds_setThread holds with ⟨_, impossible⟩ | ⟨different, before⟩
      · cases impossible
      · exact ⟨before, different⟩

theorem Agrees.executed (agrees : pool.Agrees taken) (executed : pool.executed index = some next)
    : next.Agrees taken := by
  obtain ⟨task, found, rfl⟩ := executed_eq_some executed
  exact
    ⟨lock_setThread agrees.lock found nofun rfl rfl rfl,
      counted_setThread agrees found rfl rfl rfl⟩

theorem pushing_eq_nil (outside : ¬ pool.Holds none ()) : pool.addTask.pushing = [] := by
  cases position : pool.addTask with
  | push task => exact absurd (by rw [Holds, position]; rfl) outside
  | returned | enter | releaseSemaphore | leave | checkIdle | checkCur | createThread => rfl

/-- A task that a woken thread comes for is in the queue. -/
theorem Agrees.queued (agrees : pool.Agrees 0) (front : pool.threads[index]? = some .front)
    : pool.taskQueue ≠ [] := by
  have outside : ¬ pool.Holds none () := by
    intro holds
    have both := agrees.lock.alone none (some index) () holds ⟨_, front, rfl⟩
    cases both
  have woken : 0 < pool.threads.countP ThreadProc.woken :=
    List.countP_pos_iff.mpr ⟨_, List.mem_of_getElem? front, rfl⟩
  have counted := agrees.counted
  intro empty
  rw [pushing_eq_nil outside, empty] at counted
  simp only [List.length_nil] at counted
  omega

theorem Agrees.free (agrees : pool.Agrees taken) (free : pool.csHeld = false)
    : pool.taskQueue.length + taken
      = pool.semaphore + pool.threads.countP ThreadProc.woken := by
  have outside : ¬ pool.Holds none () := by
    intro holds
    have held := agrees.lock.marked none () holds
    rw [free] at held
    cases held
  simpa [pushing_eq_nil outside] using agrees.counted

theorem Accounted.call (accounted : pool.Accounted) (called : pool.call task = some next)
    : next.Accounted := by
  obtain ⟨_, rfl⟩ := call_eq_some called
  exact { accounted with creates := nofun }

theorem Accounted.addTaskStep (accounted : pool.Accounted)
    (stepped : pool.addTaskStep = some next)
    : next.Accounted := by
  cases addTaskStep_move stepped with
  | room position room => exact { accounted with creates := fun _ => room }
  | createThread position =>
      have less := accounted.creates position
      have inside : pool.curThreads < pool.threadHandles.length :=
        Nat.lt_of_lt_of_le less accounted.sized
      constructor
      · simp [accounted.created]
      · have stored := accounted.stored
        rw [List.take_succ_eq_append_getElem (by simpa using inside), List.range_succ]
        simpa [List.take_set_of_le, accounted.created] using stored
      · exact less
      · nofun
      · simpa using accounted.sized
  | enter | accept | drop | push | leave | someIdle | noneIdle | full =>
      exact { accounted with creates := nofun }

theorem Accounted.setThread (accounted : pool.Accounted)
    : (pool.setThread index thread).Accounted :=
  { accounted with created := by simp [ThreadPool.setThread, accounted.created] }

theorem Accounted.threadStep (accounted : pool.Accounted)
    (stepped : pool.threadStep index = some next)
    : next.Accounted := by
  cases threadStep_move stepped with
  | increment | exit | wake | decrement | enter | front | leave =>
      exact Accounted.setThread { accounted with }

theorem Accounted.executed (accounted : pool.Accounted)
    (executed : pool.executed index = some next)
    : next.Accounted := by
  obtain ⟨_, _, rfl⟩ := executed_eq_some executed
  exact accounted.setThread

theorem agrees_newWith (processors nMaxThreads : Nat)
    : (newWith processors nMaxThreads : ThreadPool Task).Agrees 0 := by
  have lock {pool : ThreadPool Task} (addTask : pool.addTask = .returned)
      (threads : pool.threads = [])
      : Locks.Exclusive (fun _ => pool.csHeld) pool.Holds := by
    refine Locks.exclusive_of_none (fun party key holds => ?_)
    cases party with
    | none =>
        rw [Holds, addTask] at holds
        cases holds
    | some index =>
        obtain ⟨thread, found, _⟩ := holds
        simp [threads] at found
  rw [newWith]
  split <;> exact ⟨lock rfl rfl, rfl⟩

theorem accounted_newWith (processors nMaxThreads : Nat)
    : (newWith processors nMaxThreads : ThreadPool Task).Accounted := by
  rw [newWith]
  split
  · refine ⟨rfl, rfl, Nat.zero_le _, nofun, ?_⟩
    simpa [new] using (‹_ ∧ _› : 1 ≤ nMaxThreads ∧ nMaxThreads ≤ processors).2
  · exact ⟨rfl, rfl, Nat.zero_le _, nofun, by simp [new]⟩

end ThreadPool

-----------------------------------------------------------------------------------------
-- The destructor
-----------------------------------------------------------------------------------------

/-- Where the owner is in `~CThreadPool`. -/
inductive Destructor (Task : Type)
  | notCalled
  | setEvent
  | waitForThreads
  | closeHandles (index : Nat)
  | front
  | abort (task : Task)
  | returned
  deriving DecidableEq, Repr

def maximumWaitObjects : Nat := 64

namespace ThreadPool

/-- `WaitForMultipleObjects` over `m_pThreadHandles` fails, and so returns at once. -/
def waitFails (pool : ThreadPool Task) : Prop :=
  pool.curThreads = 0
    ∨ maximumWaitObjects < pool.curThreads
    ∨ none ∈ pool.threadHandles.take pool.curThreads
    ∨ ¬ (pool.threadHandles.take pool.curThreads).Nodup

instance (pool : ThreadPool Task) : Decidable pool.waitFails :=
  inferInstanceAs (Decidable (_ ∨ _ ∨ _ ∨ _))

/-- The threads of `m_pThreadHandles` have all returned. -/
def threadsReturned (pool : ThreadPool Task) : Bool :=
  (pool.threadHandles.take pool.curThreads).all
    fun handle =>
      match handle.bind (fun index => pool.threads[index]?) with
      | some .returned => true
      | none | some .increment | some .wait | some .decrement | some .enter | some .front
      | some (.leave _) | some (.execute _) => false

/-- The task that the next step of `AddTask` makes the semaphore accept. -/
def accepts (pool : ThreadPool Task) : List Task :=
  match pool.addTask with
  | .releaseSemaphore task => if pool.semaphore < pool.semaphoreMax then [task] else []
  | .returned | .enter _ | .push _ | .leave | .checkIdle | .checkCur | .createThread => []

/-- The task that the next step of a thread pops. -/
def pops (pool : ThreadPool Task) (index : Nat) : List Task :=
  match pool.threads[index]? with
  | some .front => pool.taskQueue.take 1
  | none | some .increment | some .wait | some .decrement | some .enter | some (.leave _)
  | some (.execute _) | some .returned => []

end ThreadPool

/-- A pool with its destructor. `accepted` are the tasks that the semaphore had room for and
`left` those that were popped, each in their order; `executed` and `aborted` are those whose
`Execute` or `Abort` has returned.
-/
structure PoolLifetime (Task : Type) where
  pool : ThreadPool Task
  destructor : Destructor Task
  closedHandles : List (Option Nat)
  accepted : List Task
  left : List Task
  executed : List Task
  aborted : List Task
  deriving DecidableEq, Repr

inductive PoolEvent (Task : Type)
  | addTask (task : Task)
  | addTaskStep
  | threadStep (index : Nat)
  | executed (index : Nat)
  | destructor
  deriving DecidableEq, Repr

namespace PoolLifetime

/-- The pool that a constructor builds. -/
def start (processors nMaxThreads : Nat) : PoolLifetime Task where
  pool := .newWith processors nMaxThreads
  destructor := .notCalled
  closedHandles := []
  accepted := []
  left := []
  executed := []
  aborted := []

/-- The next step of `~CThreadPool`, which the owner calls when no `AddTask` is going on. -/
def destructorStep (life : PoolLifetime Task) : Option (PoolLifetime Task) :=
  match life.destructor with
  | .notCalled =>
      match life.pool.addTask with
      | .returned => some { life with destructor := .setEvent }
      | .enter _ | .releaseSemaphore _ | .push _ | .leave | .checkIdle | .checkCur
      | .createThread => none
  | .setEvent => some { life with pool.exitEvent := true, destructor := .waitForThreads }
  | .waitForThreads =>
      if life.pool.waitFails ∨ life.pool.threadsReturned = true then
        some { life with destructor := .closeHandles 0 }
      else
        none
  | .closeHandles index =>
      if index < life.pool.curThreads then
        some
          {
            life with
            closedHandles := life.closedHandles ++ [life.pool.threadHandles[index]?.join]
            destructor := .closeHandles (index + 1)
          }
      else
        some { life with destructor := .front }
  | .front =>
      match life.pool.taskQueue with
      | [] => some { life with destructor := .returned }
      | task :: rest =>
          some
            {
              life with
              pool.taskQueue := rest
              left := life.left ++ [task]
              destructor := .abort task
            }
  | .abort task => some { life with aborted := life.aborted ++ [task], destructor := .front }
  | .returned => none

/-- The owner calls `AddTask` before the destructor only. -/
def step (life : PoolLifetime Task) : PoolEvent Task → Option (PoolLifetime Task)
  | .addTask task =>
      match life.destructor with
      | .notCalled => (life.pool.call task).map (fun pool => { life with pool })
      | .setEvent | .waitForThreads | .closeHandles _ | .front | .abort _ | .returned => none
  | .addTaskStep =>
      life.pool.addTaskStep.map
        (fun pool => { life with pool, accepted := life.accepted ++ life.pool.accepts })
  | .threadStep index =>
      (life.pool.threadStep index).map
        (fun pool => { life with pool, left := life.left ++ life.pool.pops index })
  | .executed index =>
      (life.pool.executed index).map
        (fun pool =>
          { life with pool, executed := life.executed ++ (life.pool.executing index).toList })
  | .destructor => life.destructorStep

end PoolLifetime

-----------------------------------------------------------------------------------------
-- What becomes of the tasks
-----------------------------------------------------------------------------------------

/-- The task that the destructor has popped and not aborted yet. -/
def Destructor.tasks : Destructor Task → List Task
  | .abort task => [task]
  | .notCalled | .setEvent | .waitForThreads | .closeHandles _ | .front | .returned => []

/-- Whether the destructor has waited for the threads. -/
def Destructor.joined : Destructor Task → Bool
  | .closeHandles _ | .front | .abort _ | .returned => true
  | .notCalled | .setEvent | .waitForThreads => false

namespace ThreadPool

variable {pool next : ThreadPool Task} {index : Nat}

theorem addTaskStep_maxThreads (stepped : pool.addTaskStep = some next)
    : next.maxThreads = pool.maxThreads := by
  cases addTaskStep_move stepped <;> rfl

theorem threadStep_maxThreads (stepped : pool.threadStep index = some next)
    : next.maxThreads = pool.maxThreads := by
  cases threadStep_move stepped <;> rfl

/-- Only the owner moves in `AddTask`. -/
theorem threadStep_addTask (stepped : pool.threadStep index = some next)
    : next.addTask = pool.addTask := by
  cases threadStep_move stepped <;> rfl

/-- A thread that moves has not returned. -/
theorem threadStep_going (stepped : pool.threadStep index = some next)
    : ∃ thread ∈ pool.threads, thread ≠ .returned := by
  cases threadStep_move stepped with
  | increment found | exit found | wake found | decrement found | enter found
  | front _ _ found | leave _ found =>
      exact ⟨_, List.mem_of_getElem? found, nofun⟩

theorem addTaskStep_order (stepped : pool.addTaskStep = some next)
    : pool.taskQueue ++ pool.addTask.pushing ++ pool.accepts
      = next.taskQueue ++ next.addTask.pushing := by
  cases addTaskStep_move stepped with
  | accept task position room => simp [position, accepts, AddTask.pushing, room]
  | drop task position full => simp [position, accepts, AddTask.pushing, full]
  | enter task position | push task position | leave position | someIdle position
  | noneIdle position | full position | room position | createThread position =>
      simp [position, accepts, AddTask.pushing]

/-- Only a thread of the pool has a task that was popped. -/
theorem addTaskStep_fate (stepped : pool.addTaskStep = some next)
    : next.threads.flatMap ThreadProc.tasks = pool.threads.flatMap ThreadProc.tasks := by
  cases addTaskStep_move stepped with
  | createThread => simp [ThreadProc.tasks]
  | enter | accept | drop | push | leave | someIdle | noneIdle | full | room => rfl

theorem threadStep_order (stepped : pool.threadStep index = some next)
    : pool.taskQueue = pool.pops index ++ next.taskQueue := by
  cases threadStep_move stepped with
  | front task rest found queued => simp [pops, found, queued, setThread]
  | increment found | exit found | wake found | decrement found | enter found
  | leave _ found => simp [pops, found, setThread]

/-- A thread has the tasks that it popped until it has executed them. -/
theorem threadStep_fate (stepped : pool.threadStep index = some next)
    : next.threads.flatMap ThreadProc.tasks
      ~ pool.pops index ++ pool.threads.flatMap ThreadProc.tasks := by
  cases threadStep_move stepped with
  | increment found | exit found | wake found | decrement found | enter found =>
      rw [pops, found]
      exact flatMap_setThread ThreadProc.tasks found
  | front task rest found queued =>
      rw [pops, found, queued]
      exact flatMap_setThread ThreadProc.tasks found
  | leave task found =>
      rw [pops, found]
      have moved := @flatMap_setThread _ pool index ThreadProc.tasks _ (.execute task) found
      exact List.Perm.cons_inv moved

theorem executed_fate (executed : pool.executed index = some next)
    : pool.threads.flatMap ThreadProc.tasks
      ~ (pool.executing index).toList ++ next.threads.flatMap ThreadProc.tasks := by
  obtain ⟨task, found, rfl⟩ := executed_eq_some executed
  rw [executing_eq_some.mpr found]
  have moved := @flatMap_setThread _ pool index ThreadProc.tasks _ .increment found
  exact moved.symm

/-- The wait of the destructor does not fail, unless there is no thread to wait for. -/
theorem Accounted.waits (accounted : pool.Accounted) (few : pool.maxThreads ≤ maximumWaitObjects)
    (fails : pool.waitFails)
    : pool.threads = [] := by
  have limit := accounted.limit
  have stored := accounted.stored
  rcases fails with none | many | null | double
  · exact List.length_eq_zero_iff.mp (accounted.created ▸ none)
  · omega
  · rw [stored] at null
    simp at null
  · rw [stored] at double
    have distinct : ((List.range pool.curThreads).map some).Nodup :=
      List.Pairwise.map some (fun _ _ different same => different (Option.some.inj same))
        List.nodup_range
    exact absurd distinct double

/-- The wait of the destructor covers every thread, as long as one call can wait for them all. -/
theorem Accounted.joined (accounted : pool.Accounted) (few : pool.maxThreads ≤ maximumWaitObjects)
    (waited : pool.waitFails ∨ pool.threadsReturned = true)
    : ∀ thread ∈ pool.threads, thread = .returned := by
  rcases waited with fails | returned
  · simp [accounted.waits few fails]
  · intro thread present
    obtain ⟨index, inside, rfl⟩ := List.getElem_of_mem present
    rw [threadsReturned, accounted.stored, List.all_eq_true] at returned
    have handle := returned (some index) (by simpa [accounted.created] using inside)
    rw [Option.bind_some, List.getElem?_eq_getElem inside] at handle
    cases position : pool.threads[index] <;> simp [position] at handle
    rfl

end ThreadPool

namespace PoolLifetime

variable {life after : PoolLifetime Task} {event : PoolEvent Task}

/-- The tasks that the destructor has taken from the queue. -/
def drained (life : PoolLifetime Task) : List Task := life.aborted ++ life.destructor.tasks

/-- The pool is sound, and every task that the semaphore accepted is queued, or with the thread
or the destructor that took it, or executed or aborted.
-/
structure Kept (life : PoolLifetime Task) : Prop where
  agrees : life.pool.Agrees life.drained.length
  accounted : life.pool.Accounted
  few : life.pool.maxThreads ≤ maximumWaitObjects
  order : life.accepted = life.left ++ (life.pool.taskQueue ++ life.pool.addTask.pushing)
  fate
    : life.left
      ~ life.pool.threads.flatMap ThreadProc.tasks ++ (life.executed ++ life.drained)
  quiet : life.destructor ≠ .notCalled → life.pool.addTask = .returned
  waiting : life.destructor.joined = false → life.drained = []
  joined : life.destructor.joined = true → ∀ thread ∈ life.pool.threads, thread = .returned
  empty : life.destructor = .returned → life.pool.taskQueue = []

theorem kept_start {processors nMaxThreads : Nat}
    (few
      : (ThreadPool.newWith processors nMaxThreads : ThreadPool Task).maxThreads
        ≤ maximumWaitObjects)
    : (start processors nMaxThreads : PoolLifetime Task).Kept where
  agrees := ThreadPool.agrees_newWith processors nMaxThreads
  accounted := ThreadPool.accounted_newWith processors nMaxThreads
  few := few
  order := by
    rw [start, ThreadPool.newWith]
    split <;> rfl
  fate := by
    rw [start, ThreadPool.newWith]
    split <;> exact .refl []
  quiet := fun called => absurd rfl called
  waiting := fun _ => rfl
  joined := nofun
  empty := nofun

/-- The destructor moves on with the pool and the tasks as they are. -/
theorem Kept.proceeds (kept : life.Kept) {destructor : Destructor Task}
    {handles : List (Option Nat)} (called : life.destructor ≠ .notCalled)
    (tasks : life.destructor.tasks = [] ∧ destructor.tasks = [])
    (waited
      : life.destructor.joined = true ∨ ∀ thread ∈ life.pool.threads, thread = .returned)
    (joined : destructor.joined = true)
    (empty : destructor = .returned → life.pool.taskQueue = [])
    : ({ life with destructor := destructor, closedHandles := handles }).Kept := by
  have same
      : ({ life with destructor := destructor, closedHandles := handles }).drained
        = life.drained := by
    rw [drained, drained, tasks.1, tasks.2]
  exact
    {
      kept with
      agrees := same ▸ kept.agrees
      fate := same ▸ kept.fate
      quiet := fun _ => kept.quiet called
      waiting := fun waiting => by simp [joined] at waiting
      joined := fun _ => waited.elim kept.joined id
      empty := empty
    }

/-- Before the wait for the threads the destructor only sets the event. -/
theorem Kept.begins (kept : life.Kept) {destructor : Destructor Task} {exitEvent : Bool}
    (before : life.destructor.joined = false) (returned : life.pool.addTask = .returned)
    (tasks : destructor.tasks = []) (waiting : destructor.joined = false)
    : ({ life with pool.exitEvent := exitEvent, destructor := destructor }).Kept := by
  have none : life.drained = [] := kept.waiting before
  have same
      : ({ life with pool.exitEvent := exitEvent, destructor := destructor }).drained
        = life.drained := by
    rw [none, drained, tasks, (List.append_eq_nil_iff.mp none).1]
    rfl
  exact
    {
      kept with
      agrees := same ▸ { kept.agrees with }
      accounted := { kept.accounted with }
      fate := same ▸ kept.fate
      quiet := fun _ => returned
      waiting := fun _ => same.trans none
      joined := fun joined => by simp [waiting] at joined
      empty := fun end_ => by
        rw [show destructor = .returned from end_] at waiting
        cases waiting
    }

theorem Kept.destructorStep (kept : life.Kept) (stepped : life.destructorStep = some after)
    : after.Kept := by
  cases position : life.destructor with
  | notCalled =>
      simp only [PoolLifetime.destructorStep, position] at stepped
      cases returned : life.pool.addTask <;> simp [returned] at stepped
      subst stepped
      exact kept.begins (position ▸ rfl) returned rfl rfl
  | setEvent =>
      simp only [PoolLifetime.destructorStep, position, Option.some.injEq] at stepped
      subst stepped
      exact kept.begins (position ▸ rfl) (kept.quiet (position ▸ nofun)) rfl rfl
  | waitForThreads =>
      simp only [PoolLifetime.destructorStep, position] at stepped
      split at stepped <;> cases stepped
      have returned := kept.accounted.joined kept.few ‹_›
      exact kept.proceeds (position ▸ nofun) ⟨position ▸ rfl, rfl⟩ (Or.inr returned) rfl nofun
  | closeHandles index =>
      simp only [PoolLifetime.destructorStep, position] at stepped
      split at stepped <;> cases stepped <;>
        exact
          kept.proceeds (position ▸ nofun) ⟨position ▸ rfl, rfl⟩ (Or.inl (position ▸ rfl)) rfl nofun
  | front =>
      simp only [PoolLifetime.destructorStep, position] at stepped
      cases queued : life.pool.taskQueue with
      | nil =>
          simp only [queued, Option.some.injEq] at stepped
          subst stepped
          exact
            kept.proceeds (position ▸ nofun) ⟨position ▸ rfl, rfl⟩ (Or.inl (position ▸ rfl)) rfl
              (fun _ => queued)
      | cons task rest =>
          simp only [queued, Option.some.injEq] at stepped
          subst stepped
          have counted := kept.agrees.counted
          have fate := kept.fate.append_right [task]
          constructor
          · refine ⟨kept.agrees.lock, ?_⟩
            simp only [drained, position, queued, Destructor.tasks, List.length_append,
              List.length_cons, List.length_nil] at counted ⊢
            omega
          · exact { kept.accounted with }
          · exact kept.few
          · simp [kept.order, queued]
          · simpa [drained, position, Destructor.tasks] using fate
          · exact fun _ => kept.quiet (position ▸ nofun)
          · nofun
          · exact fun _ => kept.joined (position ▸ rfl)
          · nofun
  | abort task =>
      simp only [PoolLifetime.destructorStep, position, Option.some.injEq] at stepped
      subst stepped
      have same
          : ({ life with aborted := life.aborted ++ [task], destructor := .front }).drained
            = life.drained := by
        simp [drained, position, Destructor.tasks]
      exact
        {
          kept with
          agrees := same ▸ kept.agrees
          fate := same ▸ kept.fate
          quiet := fun _ => kept.quiet (position ▸ nofun)
          waiting := nofun
          joined := fun _ => kept.joined (position ▸ rfl)
          empty := nofun
        }
  | returned => simp [PoolLifetime.destructorStep, position] at stepped

/-- The pool moves on before the destructor has waited for the threads. -/
theorem Kept.works (kept : life.Kept) {pool : ThreadPool Task} {accepted left executed : List Task}
    (waiting : life.destructor.joined = false) (agrees : pool.Agrees life.drained.length)
    (accounted : pool.Accounted) (maxThreads : pool.maxThreads = life.pool.maxThreads)
    (order : accepted = left ++ (pool.taskQueue ++ pool.addTask.pushing))
    (fate : left ~ pool.threads.flatMap ThreadProc.tasks ++ (executed ++ life.drained))
    (quiet : life.destructor ≠ .notCalled → pool.addTask = .returned)
    : ({ life with pool, accepted, left, executed }).Kept where
  agrees := agrees
  accounted := accounted
  few := maxThreads ▸ kept.few
  order := order
  fate := fate
  quiet := quiet
  waiting := kept.waiting
  joined := fun joined => absurd (waiting.symm.trans joined) nofun
  empty := fun returned => by
    rw [show life.destructor = .returned from returned] at waiting
    cases waiting

theorem Kept.step (kept : life.Kept) (stepped : life.step event = some after) : after.Kept := by
  have order := kept.order
  have fate := kept.fate
  cases event with
  | destructor => exact kept.destructorStep stepped
  | addTask task =>
      simp only [PoolLifetime.step] at stepped
      split at stepped
      case h_1 position =>
        obtain ⟨pool, called, rfl⟩ := Option.map_eq_some_iff.mp stepped
        have agrees := kept.agrees.call called
        have accounted := kept.accounted.call called
        obtain ⟨returned, rfl⟩ := ThreadPool.call_eq_some called
        refine kept.works (position ▸ rfl) agrees accounted rfl ?_ fate
          (fun begun => absurd position begun)
        simpa [returned, AddTask.pushing] using order
      all_goals cases stepped
  | addTaskStep =>
      obtain ⟨pool, moved, rfl⟩ := Option.map_eq_some_iff.mp stepped
      have position : life.destructor = .notCalled := by
        by_contra begun
        simp [ThreadPool.addTaskStep, kept.quiet begun] at moved
      refine kept.works (position ▸ rfl) (kept.agrees.addTaskStep moved)
        (kept.accounted.addTaskStep moved) (ThreadPool.addTaskStep_maxThreads moved) ?_ ?_
        (fun begun => absurd position begun)
      · rw [order, ← ThreadPool.addTaskStep_order moved]
        simp
      · rwa [ThreadPool.addTaskStep_fate moved]
  | threadStep index =>
      obtain ⟨pool, moved, rfl⟩ := Option.map_eq_some_iff.mp stepped
      have waiting : life.destructor.joined = false := by
        by_contra joined
        obtain ⟨thread, present, going⟩ := ThreadPool.threadStep_going moved
        exact going (kept.joined (by simpa using joined) thread present)
      have addTask := ThreadPool.threadStep_addTask moved
      refine kept.works waiting (kept.agrees.threadStep moved) (kept.accounted.threadStep moved)
        (ThreadPool.threadStep_maxThreads moved) ?_ ?_
        (fun begun => addTask.trans (kept.quiet begun))
      · rw [order, ThreadPool.threadStep_order moved, addTask]
        simp
      · calc
          life.left ++ life.pool.pops index
              ~ life.pool.pops index ++ life.left := List.perm_append_comm
          _ ~ life.pool.pops index
                ++ (life.pool.threads.flatMap ThreadProc.tasks
                  ++ (life.executed ++ life.drained)) := fate.append_left _
          _ = (life.pool.pops index ++ life.pool.threads.flatMap ThreadProc.tasks)
                ++ (life.executed ++ life.drained) := (List.append_assoc _ _ _).symm
          _ ~ pool.threads.flatMap ThreadProc.tasks ++ (life.executed ++ life.drained) :=
            (ThreadPool.threadStep_fate moved).symm.append_right _
  | executed index =>
      obtain ⟨pool, ended, rfl⟩ := Option.map_eq_some_iff.mp stepped
      have now := ThreadPool.executed_fate ended
      have agrees := kept.agrees.executed ended
      have accounted := kept.accounted.executed ended
      obtain ⟨task, found, rfl⟩ := ThreadPool.executed_eq_some ended
      have waiting : life.destructor.joined = false := by
        by_contra joined
        have returned := kept.joined (by simpa using joined) _ (List.mem_of_getElem? found)
        cases returned
      refine kept.works waiting agrees accounted rfl order ?_ kept.quiet
      rw [ThreadPool.executing_eq_some.mpr found] at now ⊢
      calc
        life.left
            ~ life.pool.threads.flatMap ThreadProc.tasks ++ (life.executed ++ life.drained) := fate
        _ ~ task :: ((life.pool.setThread index .increment).threads.flatMap ThreadProc.tasks
              ++ (life.executed ++ life.drained)) := now.append_right _
        _ ~ (life.pool.setThread index .increment).threads.flatMap ThreadProc.tasks
              ++ (task :: (life.executed ++ life.drained)) := List.perm_middle.symm
        _ ~ (life.pool.setThread index .increment).threads.flatMap ThreadProc.tasks
              ++ (life.executed ++ (task :: life.drained)) :=
          List.perm_middle.symm.append_left _
        _ = (life.pool.setThread index .increment).threads.flatMap ThreadProc.tasks
              ++ (life.executed ++ [task] ++ life.drained) := by simp

theorem kept_of_run {processors nMaxThreads : Nat} {events : List (PoolEvent Task)}
    (few
      : (ThreadPool.newWith processors nMaxThreads : ThreadPool Task).maxThreads
        ≤ maximumWaitObjects)
    (ran : TransitionSystem.run step (start processors nMaxThreads) events = some life)
    : life.Kept :=
  TransitionSystem.run_invariant (fun kept stepped => Kept.step kept stepped) (kept_start few) ran

/-- Tasks are popped in the order in which they were accepted, and no thread finds the queue
empty, because the queue holds what the semaphore and the woken threads count. Only the destructor
takes tasks without a wait, once the threads have returned; at its end every accepted task has been
executed or aborted, as often as it was accepted.
-/
theorem handled_of_run {processors nMaxThreads : Nat} {events : List (PoolEvent Task)}
    (few
      : (ThreadPool.newWith processors nMaxThreads : ThreadPool Task).maxThreads
        ≤ maximumWaitObjects)
    (ran : TransitionSystem.run step (start processors nMaxThreads) events = some life)
    : (life.pool.csHeld = false
        → life.pool.taskQueue.length + life.drained.length
          = life.pool.semaphore + life.pool.threads.countP ThreadProc.woken)
      ∧ (life.destructor.joined = false → life.drained = [])
      ∧ (∀ index : Nat, life.pool.threads[index]? = some .front → life.pool.taskQueue ≠ [])
      ∧ life.left <+: life.accepted
      ∧ (life.destructor = .returned
        → life.accepted ~ life.executed ++ life.aborted
          ∧ (life.accepted.Nodup → (life.executed ++ life.aborted).Nodup)) := by
  have kept := kept_of_run few ran
  refine ⟨kept.agrees.free, kept.waiting, ?_, ?_, ?_⟩
  · intro index front
    have waiting : life.destructor.joined = false := by
      by_contra joined
      have returned := kept.joined (by simpa using joined) _ (List.mem_of_getElem? front)
      cases returned
    have agrees := kept.agrees
    rw [kept.waiting waiting] at agrees
    exact agrees.queued front
  · rw [kept.order]
    exact List.prefix_append _ _
  · intro returned
    have none : life.pool.addTask = .returned := kept.quiet (returned ▸ nofun)
    have ended : life.pool.threads.flatMap ThreadProc.tasks = [] := by
      refine List.flatMap_eq_nil_iff.mpr (fun thread present => ?_)
      rw [kept.joined (returned ▸ rfl) thread present]
      rfl
    have all : life.accepted = life.left := by
      rw [kept.order, kept.empty returned, none]
      simp [AddTask.pushing]
    have fate : life.accepted ~ life.executed ++ life.aborted := by
      rw [all]
      simpa [ended, drained, returned, Destructor.tasks] using kept.fate
    exact ⟨fate, fate.nodup⟩

/-- One thread executes the first task, and the second comes too late for it. -/
theorem handled_lateTask
    : ∃ life : PoolLifetime Nat,
        life.destructor = .returned
        ∧ life.executed = [1]
        ∧ life.aborted = [2]
        ∧ life.accepted ~ life.executed ++ life.aborted := by
  let lateTask : List (PoolEvent Nat) :=
    List.flatten
      [
        [.addTask 1],
        List.replicate 7 .addTaskStep,
        List.replicate 6 (.threadStep 0),
        [.executed 0, .addTask 2],
        List.replicate 6 .addTaskStep,
        List.replicate 2 .destructor,
        List.replicate 2 (.threadStep 0),
        List.replicate 6 .destructor
      ]
  obtain ⟨life, ended⟩ := Option.isSome_iff_exists.mp
    (by decide +kernel
      : ((TransitionSystem.run step (start 1 1) lateTask).filter
          (fun life =>
            life.destructor = .returned ∧ life.executed = [1] ∧ life.aborted = [2])).isSome)
  obtain ⟨ran, state⟩ := Option.filter_eq_some_iff.mp ended
  obtain ⟨returned, executed, aborted⟩ := of_decide_eq_true state
  have handled := handled_of_run (by decide) ran
  exact ⟨life, returned, executed, aborted, (handled.2.2.2.2 returned).1⟩

/-- The destructor pops a task that the semaphore goes on counting. -/
theorem semaphore_exceeds_queue
    : ¬ ∀ (processors nMaxThreads : Nat) (events : List (PoolEvent Nat)) (life : PoolLifetime Nat),
          (ThreadPool.newWith processors nMaxThreads : ThreadPool Nat).maxThreads
            ≤ maximumWaitObjects
          → TransitionSystem.run step (start processors nMaxThreads) events = some life
          → life.pool.csHeld = false
          → life.pool.taskQueue.length
            = life.pool.semaphore + life.pool.threads.countP ThreadProc.woken := by
  intro agrees
  let popped : List (PoolEvent Nat) :=
    List.flatten
      [
        [.addTask 1],
        List.replicate 7 .addTaskStep,
        List.replicate 2 .destructor,
        List.replicate 2 (.threadStep 0),
        List.replicate 4 .destructor
      ]
  obtain ⟨life, reached⟩ := Option.isSome_iff_exists.mp
    (by decide +kernel
      : ((TransitionSystem.run step (start 1 1) popped).filter
          (fun life =>
            life.pool.csHeld = false
            ∧ life.pool.taskQueue.length
              ≠ life.pool.semaphore + life.pool.threads.countP ThreadProc.woken)).isSome)
  obtain ⟨ran, state⟩ := Option.filter_eq_some_iff.mp reached
  obtain ⟨free, differs⟩ := of_decide_eq_true state
  exact differs (agrees 1 1 popped life (by decide) ran free)

end PoolLifetime

end SchoolSystem.Server
