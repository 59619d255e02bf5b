import Mathlib.Data.List.Basic

/-! `CThreadPool`: `AddTask` of the thread that owns the pool, and `ThreadProc` of the threads
that it creates, one access to what they share at a time.
-/

namespace SchoolSystem.Server

/-- Where the owner is in `AddTask`. -/
inductive AddTask (Task : Type)
  | returned
  | enter (task : Task)
  | releaseSemaphore (task : Task)
  | push (task : Task)
  | leave
  | checkIdle
  | checkCur
  | createThread
  deriving DecidableEq, Repr

/-- Where a thread of the pool is in `ThreadProc`. -/
inductive ThreadProc (Task : Type)
  | increment
  | wait
  | decrement
  | enter
  | front
  | leave (task : Task)
  | execute (task : Task)
  | returned
  deriving DecidableEq, Repr

/-- `exitEvent` and `semaphore` are the two objects of `m_hSem`. The threads are numbered in
the order in which they are created, and a handle is the number of its thread.
-/
structure ThreadPool (Task : Type) where
  maxThreads : Nat
  curThreads : Nat
  idleThreads : UInt32
  threadHandles : List (Option Nat)
  taskQueue : List Task
  exitEvent : Bool
  semaphore : Nat
  semaphoreMax : Nat
  csHeld : Bool
  addTask : AddTask Task
  threads : List (ThreadProc Task)
  deriving DecidableEq, Repr

namespace ThreadPool

variable {Task : Type}

/-- `CThreadPool()`, by `dwNumberOfProcessors`. -/
def new (processors : Nat) : ThreadPool Task where
  maxThreads := processors
  curThreads := 0
  idleThreads := 0
  threadHandles := List.replicate processors none
  taskQueue := []
  exitEvent := false
  semaphore := 0
  semaphoreMax := processors * 1000
  csHeld := false
  addTask := .returned
  threads := []

/-- `CThreadPool(nMaxThreads)`. -/
def newWith (processors nMaxThreads : Nat) : ThreadPool Task :=
  if 1 ≤ nMaxThreads ∧ nMaxThreads ≤ processors then
    { new processors with maxThreads := nMaxThreads }
  else
    new processors

/-- Calls `AddTask`. -/
def call (pool : ThreadPool Task) (task : Task) : Option (ThreadPool Task) :=
  match pool.addTask with
  | .returned => some { pool with addTask := .enter task }
  | .enter _ | .releaseSemaphore _ | .push _ | .leave | .checkIdle | .checkCur
  | .createThread => none

/-- The next step of `AddTask`. A task that the semaphore has no room for is not pushed. -/
def addTaskStep (pool : ThreadPool Task) : Option (ThreadPool Task) :=
  match pool.addTask with
  | .returned => none
  | .enter task =>
      if pool.csHeld then
        none
      else
        some { pool with csHeld := true, addTask := .releaseSemaphore task }
  | .releaseSemaphore task =>
      if pool.semaphore < pool.semaphoreMax then
        some { pool with semaphore := pool.semaphore + 1, addTask := .push task }
      else
        some { pool with addTask := .leave }
  | .push task => some { pool with taskQueue := pool.taskQueue ++ [task], addTask := .leave }
  | .leave => some { pool with csHeld := false, addTask := .checkIdle }
  | .checkIdle =>
      some { pool with addTask := if pool.idleThreads = 0 then .checkCur else .returned }
  | .checkCur =>
      some
        {
          pool with
          addTask := if pool.curThreads < pool.maxThreads then .createThread else .returned
        }
  | .createThread =>
      some
        {
          pool with
          threadHandles := pool.threadHandles.set pool.curThreads (some pool.threads.length)
          curThreads := pool.curThreads + 1
          threads := pool.threads ++ [.increment]
          addTask := .returned
        }

def setThread (pool : ThreadPool Task) (index : Nat) (thread : ThreadProc Task)
    : ThreadPool Task :=
  { pool with threads := pool.threads.set index thread }

/-- The next step of a thread outside `Execute`. `WaitForMultipleObjects` takes the exit event
first, and `front` of an empty queue is undefined.
-/
def threadStep (pool : ThreadPool Task) (index : Nat) : Option (ThreadPool Task) :=
  match pool.threads[index]? with
  | none | some .returned | some (.execute _) => none
  | some .increment =>
      some (setThread { pool with idleThreads := pool.idleThreads + 1 } index .wait)
  | some .wait =>
      if pool.exitEvent then
        some (pool.setThread index .returned)
      else if 0 < pool.semaphore then
        some (setThread { pool with semaphore := pool.semaphore - 1 } index .decrement)
      else
        none
  | some .decrement =>
      some (setThread { pool with idleThreads := pool.idleThreads - 1 } index .enter)
  | some .enter =>
      if pool.csHeld then
        none
      else
        some (setThread { pool with csHeld := true } index .front)
  | some .front =>
      match pool.taskQueue with
      | [] => none
      | task :: rest => some (setThread { pool with taskQueue := rest } index (.leave task))
  | some (.leave task) =>
      some (setThread { pool with csHeld := false } index (.execute task))

/-- The task that a thread is executing. -/
def executing (pool : ThreadPool Task) (index : Nat) : Option Task :=
  match pool.threads[index]? with
  | some (.execute task) => some task
  | some .increment | some .wait | some .decrement | some .enter | some .front
  | some (.leave _) | some .returned | none => none

/-- `Execute` has returned: the task is deleted, and the loop starts again. -/
def executed (pool : ThreadPool Task) (index : Nat) : Option (ThreadPool Task) :=
  (pool.executing index).map (fun _ => pool.setThread index .increment)

-----------------------------------------------------------------------------------------
-- What a step does
-----------------------------------------------------------------------------------------

/-- What a step of `AddTask` leads to, by the position it is taken at. -/
inductive AddTaskMove (pool : ThreadPool Task) : ThreadPool Task → Prop
  | enter (task : Task) (position : pool.addTask = .enter task) (free : pool.csHeld = false)
    : AddTaskMove pool { pool with csHeld := true, addTask := .releaseSemaphore task }
  | accept (task : Task) (position : pool.addTask = .releaseSemaphore task)
      (room : pool.semaphore < pool.semaphoreMax)
    : AddTaskMove pool { pool with semaphore := pool.semaphore + 1, addTask := .push task }
  | drop (task : Task) (position : pool.addTask = .releaseSemaphore task)
      (full : ¬ pool.semaphore < pool.semaphoreMax)
    : AddTaskMove pool { pool with addTask := .leave }
  | push (task : Task) (position : pool.addTask = .push task)
    : AddTaskMove pool { pool with taskQueue := pool.taskQueue ++ [task], addTask := .leave }
  | leave (position : pool.addTask = .leave)
    : AddTaskMove pool { pool with csHeld := false, addTask := .checkIdle }
  | someIdle (position : pool.addTask = .checkIdle) (idle : pool.idleThreads ≠ 0)
    : AddTaskMove pool { pool with addTask := .returned }
  | noneIdle (position : pool.addTask = .checkIdle) (idle : pool.idleThreads = 0)
    : AddTaskMove pool { pool with addTask := .checkCur }
  | full (position : pool.addTask = .checkCur) (full : ¬ pool.curThreads < pool.maxThreads)
    : AddTaskMove pool { pool with addTask := .returned }
  | room (position : pool.addTask = .checkCur) (room : pool.curThreads < pool.maxThreads)
    : AddTaskMove pool { pool with addTask := .createThread }
  | createThread (position : pool.addTask = .createThread)
    : AddTaskMove pool
        {
          pool with
          threadHandles := pool.threadHandles.set pool.curThreads (some pool.threads.length)
          curThreads := pool.curThreads + 1
          threads := pool.threads ++ [.increment]
          addTask := .returned
        }

/-- What a step of a thread outside `Execute` leads to, by the position it is taken at. -/
inductive ThreadMove (pool : ThreadPool Task) (index : Nat) : ThreadPool Task → Prop
  | increment (found : pool.threads[index]? = some .increment)
    : ThreadMove pool index
        (setThread { pool with idleThreads := pool.idleThreads + 1 } index .wait)
  | exit (found : pool.threads[index]? = some .wait) (exits : pool.exitEvent = true)
    : ThreadMove pool index (pool.setThread index .returned)
  | wake (found : pool.threads[index]? = some .wait) (stays : pool.exitEvent = false)
      (signalled : 0 < pool.semaphore)
    : ThreadMove pool index
        (setThread { pool with semaphore := pool.semaphore - 1 } index .decrement)
  | decrement (found : pool.threads[index]? = some .decrement)
    : ThreadMove pool index
        (setThread { pool with idleThreads := pool.idleThreads - 1 } index .enter)
  | enter (found : pool.threads[index]? = some .enter) (free : pool.csHeld = false)
    : ThreadMove pool index (setThread { pool with csHeld := true } index .front)
  | front (task : Task) (rest : List Task) (found : pool.threads[index]? = some .front)
      (queued : pool.taskQueue = task :: rest)
    : ThreadMove pool index (setThread { pool with taskQueue := rest } index (.leave task))
  | leave (task : Task) (found : pool.threads[index]? = some (.leave task))
    : ThreadMove pool index (setThread { pool with csHeld := false } index (.execute task))

variable {pool next : ThreadPool Task} {task : Task} {index : Nat}

theorem call_eq_some (called : pool.call task = some next)
    : pool.addTask = .returned ∧ next = { pool with addTask := .enter task } := by
  cases position : pool.addTask <;> simp [call, position] at called
  exact ⟨rfl, called.symm⟩

/-- Each position of `AddTask` has its step, and a check has one for each answer. -/
theorem addTaskStep_move (stepped : pool.addTaskStep = some next) : AddTaskMove pool next := by
  cases position : pool.addTask with
  | returned => simp [addTaskStep, position] at stepped
  | enter task =>
      simp only [addTaskStep, position, Option.ite_none_left_eq_some, Option.some.injEq,
        Bool.not_eq_true] at stepped
      obtain ⟨free, rfl⟩ := stepped
      exact .enter task position free
  | releaseSemaphore task =>
      simp only [addTaskStep, position] at stepped
      split at stepped <;> obtain rfl := Option.some.inj stepped
      · exact .accept task position ‹_›
      · exact .drop task position ‹_›
  | push task =>
      obtain rfl := Option.some.inj (by simpa only [addTaskStep, position] using stepped)
      exact .push task position
  | leave =>
      obtain rfl := Option.some.inj (by simpa only [addTaskStep, position] using stepped)
      exact .leave position
  | checkIdle =>
      obtain rfl := Option.some.inj (by simpa only [addTaskStep, position] using stepped)
      split
      · exact .noneIdle position ‹_›
      · exact .someIdle position ‹_›
  | checkCur =>
      obtain rfl := Option.some.inj (by simpa only [addTaskStep, position] using stepped)
      split
      · exact .room position ‹_›
      · exact .full position ‹_›
  | createThread =>
      obtain rfl := Option.some.inj (by simpa only [addTaskStep, position] using stepped)
      exact .createThread position

/-- Each position of a thread outside `Execute` has its step, and the wait has two. -/
theorem threadStep_move (stepped : pool.threadStep index = some next)
    : ThreadMove pool index next := by
  cases found : pool.threads[index]? with
  | none => simp [threadStep, found] at stepped
  | some thread =>
      cases thread with
      | returned | execute => simp [threadStep, found] at stepped
      | increment =>
          obtain rfl := Option.some.inj (by simpa only [threadStep, found] using stepped)
          exact .increment found
      | wait =>
          simp only [threadStep, found] at stepped
          split at stepped
          · obtain rfl := Option.some.inj stepped
            exact .exit found ‹_›
          · split at stepped <;> cases stepped
            exact .wake found (Bool.not_eq_true _ ▸ ‹¬ pool.exitEvent = true›) ‹_›
      | decrement =>
          obtain rfl := Option.some.inj (by simpa only [threadStep, found] using stepped)
          exact .decrement found
      | enter =>
          simp only [threadStep, found, Option.ite_none_left_eq_some, Option.some.injEq,
            Bool.not_eq_true] at stepped
          obtain ⟨free, rfl⟩ := stepped
          exact .enter found free
      | front =>
          simp only [threadStep, found] at stepped
          split at stepped
          · cases stepped
          · obtain rfl := Option.some.inj stepped
            exact .front _ _ found ‹_›
      | leave task =>
          obtain rfl := Option.some.inj (by simpa only [threadStep, found] using stepped)
          exact .leave task found

theorem executing_eq_some
    : pool.executing index = some task ↔ pool.threads[index]? = some (.execute task) := by
  cases found : pool.threads[index]? with
  | none => simp [executing, found]
  | some thread => cases thread <;> simp [executing, found]

theorem executed_eq_some (executed : pool.executed index = some next)
    : ∃ task,
        pool.threads[index]? = some (.execute task)
        ∧ next = pool.setThread index .increment := by
  obtain ⟨task, executing, rfl⟩ := Option.map_eq_some_iff.mp executed
  exact ⟨task, executing_eq_some.mp executing, rfl⟩

end ThreadPool

-----------------------------------------------------------------------------------------
-- The tasks of a pool
-----------------------------------------------------------------------------------------

def AddTask.tasks {Task : Type} : AddTask Task → List Task
  | .enter task | .releaseSemaphore task | .push task => [task]
  | .returned | .leave | .checkIdle | .checkCur | .createThread => []

/-- The task of a thread that has taken it from the queue and not begun to execute it. -/
def ThreadProc.taken {Task : Type} : ThreadProc Task → List Task
  | .leave task => [task]
  | .increment | .wait | .decrement | .enter | .front | .execute _ | .returned => []

def ThreadProc.tasks {Task : Type} : ThreadProc Task → List Task
  | .leave task | .execute task => [task]
  | .increment | .wait | .decrement | .enter | .front | .returned => []

namespace ThreadPool

open scoped List

variable {Task : Type} {pool next : ThreadPool Task} {task : Task} {index : Nat}

/-- The tasks that were passed to `AddTask` and are neither dropped nor deleted. -/
def tasks (pool : ThreadPool Task) : List Task :=
  pool.addTask.tasks ++ (pool.taskQueue ++ pool.threads.flatMap ThreadProc.tasks)

/-- A thread that goes on exchanges what it has for what it has then. -/
theorem flatMap_setThread (tasks : ThreadProc Task → List Task) {old thread : ThreadProc Task}
    (found : pool.threads[index]? = some old)
    : tasks old ++ (pool.setThread index thread).threads.flatMap tasks
      ~ tasks thread ++ pool.threads.flatMap tasks := by
  obtain ⟨inside, rfl⟩ := List.getElem?_eq_some_iff.mp found
  obtain ⟨before, after, split, _, changed⟩ := @List.exists_of_set _ _ thread _ inside
  generalize pool.threads[index] = old at split
  rw [setThread, changed, split]
  simp only [List.flatMap_append, List.flatMap_cons]
  calc
    tasks old ++ (before.flatMap tasks ++ (tasks thread ++ after.flatMap tasks))
        ~ before.flatMap tasks ++ (tasks old ++ (tasks thread ++ after.flatMap tasks)) :=
      List.perm_append_comm_assoc _ _ _
    _ ~ before.flatMap tasks ++ (tasks thread ++ (tasks old ++ after.flatMap tasks)) :=
      (List.perm_append_comm_assoc _ _ _).append_left _
    _ ~ tasks thread ++ (before.flatMap tasks ++ (tasks old ++ after.flatMap tasks)) :=
      List.perm_append_comm_assoc _ _ _

/-- A thread that goes on exchanges no task but its own. -/
theorem setThread_tasks (pool : ThreadPool Task) {old : ThreadProc Task}
    (thread : ThreadProc Task) (found : pool.threads[index]? = some old)
    : old.tasks ++ (pool.setThread index thread).tasks ~ thread.tasks ++ pool.tasks := by
  let others := pool.addTask.tasks ++ pool.taskQueue
  have now : pool.tasks = others ++ pool.threads.flatMap ThreadProc.tasks := by
    simp [tasks, others]
  have later
      : (pool.setThread index thread).tasks
        = others ++ (pool.setThread index thread).threads.flatMap ThreadProc.tasks := by
    simp [tasks, setThread, others]
  rw [now, later]
  calc
    old.tasks ++ (others ++ (pool.setThread index thread).threads.flatMap ThreadProc.tasks)
        ~ others ++ (old.tasks ++ (pool.setThread index thread).threads.flatMap ThreadProc.tasks) :=
      List.perm_append_comm_assoc _ _ _
    _ ~ others ++ (thread.tasks ++ pool.threads.flatMap ThreadProc.tasks) :=
      (flatMap_setThread ThreadProc.tasks found).append_left _
    _ ~ thread.tasks ++ (others ++ pool.threads.flatMap ThreadProc.tasks) :=
      List.perm_append_comm_assoc _ _ _

theorem call_tasks (called : pool.call task = some next)
    : next.tasks = task :: pool.tasks := by
  obtain ⟨position, rfl⟩ := call_eq_some called
  simp [tasks, AddTask.tasks, position]

/-- `AddTask` keeps its task, or drops it at the limit of the semaphore. -/
theorem addTaskStep_tasks (stepped : pool.addTaskStep = some next)
    : next.tasks ~ pool.tasks
      ∨ ∃ task,
          pool.addTask = .releaseSemaphore task
          ∧ ¬ pool.semaphore < pool.semaphoreMax
          ∧ pool.tasks = task :: next.tasks := by
  cases addTaskStep_move stepped with
  | drop task position full =>
      right
      exact ⟨task, position, full, by simp [tasks, position, AddTask.tasks]⟩
  | push task position =>
      left
      simp only [tasks, position, AddTask.tasks, List.nil_append, List.append_assoc]
      exact List.perm_append_comm_assoc _ _ _
  | createThread position =>
      left
      simp [tasks, position, AddTask.tasks, ThreadProc.tasks]
  | enter task position | accept task position | leave position | someIdle position
  | noneIdle position | full position | room position =>
      left
      simp [tasks, position, AddTask.tasks]

/-- A thread outside `Execute` may take a task from the queue. -/
theorem threadStep_tasks (stepped : pool.threadStep index = some next)
    : next.tasks ~ pool.tasks := by
  cases threadStep_move stepped with
  | increment found => exact setThread_tasks { pool with idleThreads := _ } _ found
  | exit found => exact setThread_tasks pool _ found
  | wake found => exact setThread_tasks { pool with semaphore := _ } _ found
  | decrement found => exact setThread_tasks { pool with idleThreads := _ } _ found
  | enter found => exact setThread_tasks { pool with csHeld := _ } _ found
  | front task rest found queued =>
      apply (setThread_tasks { pool with taskQueue := rest } _ found).trans
      simp only [tasks, queued, ThreadProc.tasks, List.cons_append, List.nil_append]
      exact List.perm_middle.symm
  | leave task found =>
      apply List.Perm.cons_inv
      exact setThread_tasks { pool with csHeld := _ } _ found

theorem executing_mem (executing : pool.executing index = some task)
    : task ∈ pool.tasks := by
  apply List.mem_append_right
  apply List.mem_append_right
  have found := List.mem_of_getElem? (executing_eq_some.mp executing)
  exact List.mem_flatMap.mpr ⟨_, found, List.mem_singleton_self task⟩

theorem executed_tasks (executed : pool.executed index = some next)
    : ∃ task, pool.executing index = some task ∧ pool.tasks ~ task :: next.tasks := by
  obtain ⟨task, found, rfl⟩ := executed_eq_some executed
  exact ⟨task, executing_eq_some.mpr found, (setThread_tasks pool .increment found).symm⟩

-----------------------------------------------------------------------------------------
-- Waiting and executing tasks
-----------------------------------------------------------------------------------------

/-- The tasks that were passed to `AddTask` and do not execute yet. -/
def waiting (pool : ThreadPool Task) : List Task :=
  pool.addTask.tasks ++ (pool.taskQueue ++ pool.threads.flatMap ThreadProc.taken)

theorem executing_setThread {thread : ThreadProc Task} {other : Nat} {found : Task}
    (executing : (pool.setThread index thread).executing other = some found)
    : (other = index ∧ thread = .execute found)
      ∨ (other ≠ index ∧ pool.executing other = some found) := by
  rw [executing_eq_some] at executing ⊢
  by_cases same : other = index
  · rw [setThread, List.getElem?_set] at executing
    grind
  · right
    rw [setThread, List.getElem?_set_ne (Ne.symm same)] at executing
    exact ⟨same, executing⟩

/-- A thread that does not take a task adds none to the waiting ones. -/
theorem waiting_setThread {thread : ThreadProc Task} (none : thread.taken = [])
    : (pool.setThread index thread).waiting ⊆ pool.waiting := by
  intro task member
  simp only [waiting, setThread, List.mem_append, List.mem_flatMap] at member ⊢
  rcases member with adding | queued | ⟨taker, present, taken⟩
  · exact Or.inl adding
  · exact Or.inr (Or.inl queued)
  · rcases List.mem_or_eq_of_mem_set present with old | rfl
    · exact Or.inr (Or.inr ⟨taker, old, taken⟩)
    · rw [none] at taken
      cases taken

theorem call_waiting (called : pool.call task = some next)
    : next.waiting ⊆ task :: pool.waiting
      ∧ ∀ other, next.executing other = pool.executing other := by
  obtain ⟨position, rfl⟩ := call_eq_some called
  refine ⟨?_, fun _ => rfl⟩
  simp [waiting, position, AddTask.tasks]

theorem addTaskStep_waiting (stepped : pool.addTaskStep = some next)
    : next.waiting ⊆ pool.waiting
      ∧ ∀ other found, next.executing other = some found → pool.executing other = some found := by
  cases addTaskStep_move stepped with
  | push task position =>
      refine ⟨fun other member => ?_, fun _ _ same => same⟩
      simp only [waiting, position, AddTask.tasks, List.mem_append] at member ⊢
      tauto
  | createThread position =>
      refine ⟨by simp [waiting, position, AddTask.tasks, ThreadProc.taken], ?_⟩
      intro other found executing
      rw [executing_eq_some] at executing ⊢
      rw [List.getElem?_append] at executing
      split at executing
      · exact executing
      · have impossible := List.mem_of_getElem? executing
        simp at impossible
  | drop task position | enter task position | accept task position | leave position
  | someIdle position | noneIdle position | full position | room position =>
      exact ⟨by simp [waiting, position, AddTask.tasks], fun _ _ same => same⟩

/-- A thread that goes on without taking a task, beside changes of the counters. -/
theorem waiting_goesOn {moved : ThreadPool Task} {thread : ThreadProc Task}
    (addTask : moved.addTask = pool.addTask) (taskQueue : moved.taskQueue = pool.taskQueue)
    (threads : moved.threads = pool.threads) (none : thread.taken = [])
    (begins : ∀ task, thread = .execute task → task ∈ pool.waiting)
    : (moved.setThread index thread).waiting ⊆ pool.waiting
      ∧ ∀ other found,
          (moved.setThread index thread).executing other = some found
          → pool.executing other = some found ∨ found ∈ pool.waiting := by
  have waiting : moved.waiting = pool.waiting := by
    rw [ThreadPool.waiting, ThreadPool.waiting, addTask, taskQueue, threads]
  refine ⟨waiting ▸ waiting_setThread none, fun other found executing => ?_⟩
  rcases executing_setThread executing with ⟨_, execute⟩ | ⟨_, before⟩
  · exact Or.inr (begins found execute)
  · left
    rwa [ThreadPool.executing, threads] at before

/-- A task begins to execute only after it has waited. -/
theorem threadStep_waiting (stepped : pool.threadStep index = some next)
    : next.waiting ⊆ pool.waiting
      ∧ ∀ other found,
          next.executing other = some found
          → pool.executing other = some found ∨ found ∈ pool.waiting := by
  cases threadStep_move stepped with
  | increment | exit | wake | decrement | enter => exact waiting_goesOn rfl rfl rfl rfl nofun
  | leave task found =>
      refine waiting_goesOn rfl rfl rfl rfl ?_
      rintro _ ⟨⟩
      have taken : task ∈ pool.threads.flatMap ThreadProc.taken :=
        List.mem_flatMap.mpr ⟨_, List.mem_of_getElem? found, List.mem_singleton_self task⟩
      exact List.mem_append_right _ (List.mem_append_right _ taken)
  | front task rest found queued =>
      constructor
      · intro other member
        simp only [waiting, setThread, List.mem_append, List.mem_flatMap, queued,
          List.mem_cons] at member ⊢
        rcases member with adding | later | ⟨taker, present, taken⟩
        · exact Or.inl adding
        · exact Or.inr (Or.inl (Or.inr later))
        · rcases List.mem_or_eq_of_mem_set present with old | rfl
          · exact Or.inr (Or.inr ⟨taker, old, taken⟩)
          · exact Or.inr (Or.inl (Or.inl (List.mem_singleton.mp taken)))
      · intro other begun executing
        rcases executing_setThread executing with ⟨_, impossible⟩ | ⟨_, before⟩
        · cases impossible
        · exact Or.inl before

theorem executed_waiting (executed : pool.executed index = some next)
    : next.waiting ⊆ pool.waiting
      ∧ ∀ other found, next.executing other = some found → pool.executing other = some found := by
  obtain ⟨task, _, rfl⟩ := executed_eq_some executed
  refine ⟨waiting_setThread rfl, fun other found executing => ?_⟩
  rcases executing_setThread executing with ⟨_, impossible⟩ | ⟨_, before⟩
  · cases impossible
  · exact before

end ThreadPool

end SchoolSystem.Server
