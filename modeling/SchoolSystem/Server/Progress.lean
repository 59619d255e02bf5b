import Mathlib.Algebra.BigOperators.Ring.List
import Mathlib.Algebra.Ring.Nat
import SchoolSystem.Server.ThreadAccounting
import SchoolSystem.Server.ThreadUse

/-! What `CThreadPool` gets done: its steps run out, and where they have, no accepted task is left
over. The destructor always comes to its end.
-/

namespace SchoolSystem.Server

open scoped List

variable {Task : Type}

-----------------------------------------------------------------------------------------
-- How many steps are left
-----------------------------------------------------------------------------------------

/-- A step that the pool takes by itself, not a call of its owner. -/
def PoolEvent.works : PoolEvent Task → Bool
  | .addTaskStep | .threadStep _ | .executed _ => true
  | .addTask _ | .destructor => false

/-- How many calls of `AddTask` an event is. -/
def PoolEvent.calls : PoolEvent Task → Nat
  | .addTask _ => 1
  | .addTaskStep | .threadStep _ | .executed _ | .destructor => 0

/-- The steps that are left in `AddTask`, with those of the thread and the task that come of it. -/
def AddTask.work : AddTask Task → Nat
  | .returned => 0
  | .createThread => 4
  | .checkCur => 5
  | .checkIdle => 6
  | .leave => 7
  | .push _ => 10
  | .releaseSemaphore _ => 18
  | .enter _ => 19

/-- The steps of a thread up to its return, without another task. -/
def ThreadProc.work : ThreadProc Task → Nat
  | .returned => 0
  | .wait => 1
  | .increment => 2
  | .execute _ => 3
  | .leave _ => 4
  | .front => 5
  | .enter => 6
  | .decrement => 7

/-- The steps of the destructor, by the number of threads and the length of the queue. -/
def Destructor.work (curThreads queued : Nat) : Destructor Task → Nat
  | .notCalled => curThreads + 2 * queued + 5
  | .setEvent => curThreads + 2 * queued + 4
  | .waitForThreads => curThreads + 2 * queued + 3
  | .closeHandles index => curThreads - index + 2 * queued + 2
  | .abort _ => 2 * queued + 2
  | .front => 2 * queued + 1
  | .returned => 0

namespace ThreadPool

variable {pool next moved : ThreadPool Task} {task : Task} {index : Nat}
  {old thread : ThreadProc Task}

/-- Each task that the semaphore counts takes a thread through seven more steps. -/
def work (pool : ThreadPool Task) : Nat :=
  pool.addTask.work + 7 * pool.semaphore + (pool.threads.map ThreadProc.work).sum

/-- A thread that goes on exchanges the steps that it has left. -/
theorem work_setThread (found : pool.threads[index]? = some old)
    : old.work + ((pool.setThread index thread).threads.map ThreadProc.work).sum
      = thread.work + (pool.threads.map ThreadProc.work).sum := by
  obtain ⟨inside, rfl⟩ := List.getElem?_eq_some_iff.mp found
  obtain ⟨before, after, split, _, changed⟩ := @List.exists_of_set _ _ thread _ inside
  generalize pool.threads[index] = old at split
  rw [setThread, changed, split]
  simp only [List.map_append, List.map_cons, List.sum_append, List.sum_cons]
  omega

theorem call_work (called : pool.call task = some next)
    : next.work = pool.work + 19
      ∧ next.curThreads = pool.curThreads
      ∧ next.taskQueue = pool.taskQueue := by
  obtain ⟨position, rfl⟩ := call_eq_some called
  refine ⟨?_, rfl, rfl⟩
  simp only [work, position, AddTask.work]
  omega

/-- `AddTask` comes closer to its end, even if it adds a task or a thread. -/
theorem addTaskStep_work (stepped : pool.addTaskStep = some next)
    : next.work + next.curThreads + 2 * next.taskQueue.length
      < pool.work + pool.curThreads + 2 * pool.taskQueue.length := by
  cases addTaskStep_move stepped with
  | createThread position =>
      simp only [work, position, AddTask.work, List.map_append, List.map_cons, List.map_nil,
        List.sum_append, List.sum_cons, List.sum_nil, ThreadProc.work]
      omega
  | enter task position | accept task position | drop task position | push task position
  | leave position | someIdle position | noneIdle position | full position | room position =>
      simp only [work, position, AddTask.work, List.length_append, List.length_singleton]
      omega

/-- The owner's counters grow in `AddTask` only. -/
theorem addTaskStep_counters (stepped : pool.addTaskStep = some next)
    : pool.curThreads ≤ next.curThreads ∧ pool.taskQueue.length ≤ next.taskQueue.length := by
  cases addTaskStep_move stepped <;> simp

/-- A thread that goes on uses up steps of its own, or a task that the semaphore counts. -/
theorem work_goesOn (found : pool.threads[index]? = some old)
    (threads : moved.threads = pool.threads) (addTask : moved.addTask = pool.addTask)
    (less : thread.work + 7 * moved.semaphore < old.work + 7 * pool.semaphore)
    : (moved.setThread index thread).work < pool.work := by
  have exchanged := @work_setThread _ moved index old thread (threads ▸ found)
  simp only [threads] at exchanged
  simp only [work, setThread, addTask] at exchanged ⊢
  omega

theorem threadStep_work (stepped : pool.threadStep index = some next)
    : next.work < pool.work
      ∧ next.curThreads = pool.curThreads
      ∧ next.taskQueue.length ≤ pool.taskQueue.length := by
  cases threadStep_move stepped with
  | wake found stays signalled =>
      refine ⟨work_goesOn found rfl rfl ?_, rfl, Nat.le_refl _⟩
      simp only [ThreadProc.work]
      omega
  | front task rest found queued =>
      have shorter : rest.length ≤ pool.taskQueue.length := by simp [queued]
      exact ⟨work_goesOn found rfl rfl (by simp [ThreadProc.work]), rfl, shorter⟩
  | increment found | exit found | decrement found | enter found | leave _ found =>
      exact ⟨work_goesOn found rfl rfl (by simp [ThreadProc.work]), rfl, Nat.le_refl _⟩

theorem executed_work (executed : pool.executed index = some next)
    : next.work < pool.work
      ∧ next.curThreads = pool.curThreads
      ∧ next.taskQueue = pool.taskQueue := by
  obtain ⟨task, found, rfl⟩ := executed_eq_some executed
  exact ⟨work_goesOn found rfl rfl (by simp [ThreadProc.work]), rfl, rfl⟩

end ThreadPool

namespace Destructor

variable {destructor : Destructor Task} {curThreads queued : Nat}

/-- A thread less or a task less in the queue is not more work for the destructor. -/
theorem work_mono {more longer : Nat} (threads : curThreads ≤ more) (queue : queued ≤ longer)
    : destructor.work more longer + curThreads + 2 * queued
      ≤ destructor.work curThreads queued + more + 2 * longer := by
  cases destructor <;> simp only [work] <;> omega

theorem work_le (fewer : Nat) (queue : fewer ≤ queued)
    : destructor.work curThreads fewer ≤ destructor.work curThreads queued := by
  cases destructor <;> simp only [work] <;> omega

end Destructor

namespace PoolLifetime

variable {life after : PoolLifetime Task} {event : PoolEvent Task}

/-- The steps that are left before the pool comes to rest, destructor included. -/
def work (life : PoolLifetime Task) : Nat :=
  life.pool.work + life.destructor.work life.pool.curThreads life.pool.taskQueue.length

/-- What a step of the destructor leads to, by the position it is taken at. -/
inductive DestructorMove (life : PoolLifetime Task) : PoolLifetime Task → Prop
  | call (position : life.destructor = .notCalled) (returned : life.pool.addTask = .returned)
    : DestructorMove life { life with destructor := .setEvent }
  | setEvent (position : life.destructor = .setEvent)
    : DestructorMove life { life with pool.exitEvent := true, destructor := .waitForThreads }
  | join (position : life.destructor = .waitForThreads)
      (waited : life.pool.waitFails ∨ life.pool.threadsReturned = true)
    : DestructorMove life { life with destructor := .closeHandles 0 }
  | closeHandle (index : Nat) (position : life.destructor = .closeHandles index)
      (inside : index < life.pool.curThreads)
    : DestructorMove life
        {
          life with
          closedHandles := life.closedHandles ++ [life.pool.threadHandles[index]?.join]
          destructor := .closeHandles (index + 1)
        }
  | closed (index : Nat) (position : life.destructor = .closeHandles index)
      (outside : ¬ index < life.pool.curThreads)
    : DestructorMove life { life with destructor := .front }
  | empty (position : life.destructor = .front) (empty : life.pool.taskQueue = [])
    : DestructorMove life { life with destructor := .returned }
  | pop (task : Task) (rest : List Task) (position : life.destructor = .front)
      (queued : life.pool.taskQueue = task :: rest)
    : DestructorMove life
        {
          life with
          pool.taskQueue := rest
          left := life.left ++ [task]
          destructor := .abort task
        }
  | abort (task : Task) (position : life.destructor = .abort task)
    : DestructorMove life { life with aborted := life.aborted ++ [task], destructor := .front }

/-- Each position of the destructor has its step, and a check has one for each answer. -/
theorem destructorStep_move (stepped : life.destructorStep = some after)
    : DestructorMove life after := by
  cases position : life.destructor with
  | notCalled =>
      simp only [destructorStep, position] at stepped
      cases returned : life.pool.addTask <;> simp [returned] at stepped
      exact stepped ▸ .call position returned
  | setEvent =>
      simp only [destructorStep, position, Option.some.injEq] at stepped
      exact stepped ▸ .setEvent position
  | waitForThreads =>
      simp only [destructorStep, position] at stepped
      split at stepped <;> cases stepped
      exact .join position ‹_›
  | closeHandles index =>
      simp only [destructorStep, position] at stepped
      split at stepped <;> cases stepped
      · exact .closeHandle index position ‹_›
      · exact .closed index position ‹_›
  | front =>
      simp only [destructorStep, position] at stepped
      cases queued : life.pool.taskQueue <;> simp only [queued, Option.some.injEq] at stepped
      · exact stepped ▸ .empty position queued
      · exact stepped ▸ .pop _ _ position queued
  | abort task =>
      simp only [destructorStep, position, Option.some.injEq] at stepped
      exact stepped ▸ .abort task position
  | returned => simp [destructorStep, position] at stepped

/-- Every step of the destructor is one less, also when it aborts a task. -/
theorem destructorStep_work (stepped : life.destructorStep = some after)
    : after.work < life.work := by
  cases destructorStep_move stepped with
  | closeHandle _ position | closed _ position =>
      simp only [work, position, Destructor.work]
      omega
  | pop _ _ position queued =>
      simp only [work, position, queued, Destructor.work, ThreadPool.work, List.length_cons]
      omega
  | call position | setEvent position | join position | empty position | abort _ position =>
      simp [work, position, Destructor.work, ThreadPool.work]

/-- Every step is one less, but for the call of `AddTask`, which is worth twenty. -/
theorem step_work (stepped : life.step event = some after)
    : after.work + 1 ≤ life.work + 20 * event.calls := by
  cases event with
  | destructor => exact destructorStep_work stepped
  | addTask task =>
      simp only [step] at stepped
      split at stepped
      case h_1 position =>
        obtain ⟨pool, called, rfl⟩ := Option.map_eq_some_iff.mp stepped
        obtain ⟨more, curThreads, taskQueue⟩ := ThreadPool.call_work called
        simp only [work, more, curThreads, taskQueue, PoolEvent.calls]
        omega
      all_goals cases stepped
  | addTaskStep =>
      obtain ⟨pool, moved, rfl⟩ := Option.map_eq_some_iff.mp stepped
      have less := ThreadPool.addTaskStep_work moved
      obtain ⟨threads, queue⟩ := ThreadPool.addTaskStep_counters moved
      have rest := @Destructor.work_mono _ life.destructor _ _ _ _ threads queue
      simp only [work, PoolEvent.calls]
      omega
  | threadStep index =>
      obtain ⟨pool, moved, rfl⟩ := Option.map_eq_some_iff.mp stepped
      obtain ⟨less, curThreads, queue⟩ := ThreadPool.threadStep_work moved
      have rest := @Destructor.work_le _ life.destructor life.pool.curThreads _ _ queue
      simp only [work, curThreads, PoolEvent.calls]
      omega
  | executed index =>
      obtain ⟨pool, ended, rfl⟩ := Option.map_eq_some_iff.mp stepped
      obtain ⟨less, curThreads, queue⟩ := ThreadPool.executed_work ended
      simp only [work, curThreads, queue, PoolEvent.calls]
      omega

end PoolLifetime

-----------------------------------------------------------------------------------------
-- Where the steps have run out
-----------------------------------------------------------------------------------------

namespace ThreadPool

variable {pool next moved : ThreadPool Task} {task : Task} {index : Nat}
  {old thread : ThreadProc Task}

/-- `m_cs` is held by somebody who will leave it. -/
def Attended (pool : ThreadPool Task) : Prop :=
  pool.csHeld = true → ∃ party, pool.Holds party ()

/-- Neither `AddTask` nor a thread can go on. -/
def Rests (pool : ThreadPool Task) : Prop :=
  pool.addTaskStep = none
  ∧ ∀ index, pool.threadStep index = none ∧ pool.executed index = none

/-- Whoever holds `m_cs` while a thread goes on holds it afterwards, unless the thread leaves. -/
theorem holds_goesOn {party : Option Nat} (holds : pool.Holds party ())
    (found : pool.threads[index]? = some old) (stays : old.inside = true → thread.inside = true)
    (threads : moved.threads = pool.threads) (addTask : moved.addTask = pool.addTask)
    : (moved.setThread index thread).Holds party () := by
  cases party with
  | none =>
      rw [Holds] at holds ⊢
      rwa [← addTask] at holds
  | some other =>
      obtain ⟨holder, present, inside⟩ := holds
      by_cases same : other = index
      · subst same
        obtain rfl := Option.some.inj (found.symm.trans present)
        have within := (List.getElem?_eq_some_iff.mp found).1
        refine ⟨thread, ?_, stays inside⟩
        rw [setThread, threads, List.getElem?_set_self within]
      · refine ⟨holder, ?_, inside⟩
        rwa [setThread, threads, List.getElem?_set_ne (Ne.symm same)]

theorem Attended.goesOn (attended : pool.Attended) (found : pool.threads[index]? = some old)
    (stays : old.inside = true → thread.inside = true) (threads : moved.threads = pool.threads)
    (addTask : moved.addTask = pool.addTask) (csHeld : moved.csHeld = pool.csHeld)
    : (moved.setThread index thread).Attended := by
  intro held
  obtain ⟨party, holds⟩ := attended (csHeld ▸ held)
  exact ⟨party, holds_goesOn holds found stays threads addTask⟩

/-- The owner moves on with the lock as it is. -/
theorem Attended.moves (attended : pool.Attended)
    (stays : pool.addTask.inside = true → next.addTask.inside = true)
    (threads
      : ∀ (index : Nat) thread,
          pool.threads[index]? = some thread → next.threads[index]? = some thread)
    (csHeld : next.csHeld = pool.csHeld)
    : next.Attended := by
  intro held
  obtain ⟨party, holds⟩ := attended (csHeld ▸ held)
  cases party with
  | none => exact ⟨none, stays holds⟩
  | some index =>
      obtain ⟨thread, found, inside⟩ := holds
      exact ⟨some index, thread, threads index thread found, inside⟩

theorem Attended.call (attended : pool.Attended) (called : pool.call task = some next)
    : next.Attended := by
  obtain ⟨position, rfl⟩ := call_eq_some called
  refine attended.moves (fun inside => ?_) (fun _ _ found => found) rfl
  rw [position] at inside
  cases inside

theorem Attended.addTaskStep (attended : pool.Attended) (stepped : pool.addTaskStep = some next)
    : next.Attended := by
  cases addTaskStep_move stepped with
  | enter task position free => exact fun _ => ⟨none, rfl⟩
  | leave position =>
      intro held
      cases held
  | accept task position | drop task position | push task position =>
      exact attended.moves (fun _ => rfl) (fun _ _ found => found) rfl
  | someIdle position | noneIdle position | full position | room position =>
      refine attended.moves (fun inside => ?_) (fun _ _ found => found) rfl
      rw [position] at inside
      cases inside
  | createThread position =>
      refine attended.moves (fun inside => ?_) (fun index thread found => ?_) rfl
      · rw [position] at inside
        cases inside
      · exact List.getElem?_append_left (List.getElem?_eq_some_iff.mp found).1 ▸ found

theorem Attended.threadStep (attended : pool.Attended) (stepped : pool.threadStep index = some next)
    : next.Attended := by
  cases threadStep_move stepped with
  | increment found | exit found | wake found | decrement found =>
      exact attended.goesOn found nofun rfl rfl rfl
  | front task rest found => exact attended.goesOn found (fun _ => rfl) rfl rfl rfl
  | enter found free =>
      intro _
      have within := (List.getElem?_eq_some_iff.mp found).1
      refine ⟨some index, .front, ?_, rfl⟩
      rw [setThread, List.getElem?_set_self within]
  | leave task found =>
      intro held
      cases held

theorem Attended.executed (attended : pool.Attended) (executed : pool.executed index = some next)
    : next.Attended := by
  obtain ⟨task, found, rfl⟩ := executed_eq_some executed
  exact attended.goesOn found nofun rfl rfl rfl

/-- Without the event no thread returns. -/
theorem threadStep_serves (stepped : pool.threadStep index = some next)
    : next.threads.length = pool.threads.length
      ∧ (pool.exitEvent = false
        → (∀ thread ∈ pool.threads, thread ≠ .returned)
        → ∀ thread ∈ next.threads, thread ≠ .returned) := by
  refine ⟨?_, fun stays serves thread present => ?_⟩
  · cases threadStep_move stepped <;> simp [setThread]
  · cases threadStep_move stepped with
    | exit found exits =>
        rw [stays] at exits
        cases exits
    | increment | wake | decrement | enter | front | leave =>
        rcases List.mem_or_eq_of_mem_set present with old | rfl
        · exact serves thread old
        · intro returned
          cases returned

/-- Where nothing goes on nobody is inside `m_cs`. -/
theorem Rests.free (rests : pool.Rests) (agrees : pool.Agrees 0) (attended : pool.Attended)
    : pool.csHeld = false := by
  by_contra held
  obtain ⟨party, holds⟩ := attended (by simpa using held)
  cases party with
  | none =>
      have stuck := rests.1
      cases position : pool.addTask <;> simp [Holds, position, AddTask.inside] at holds
        <;> simp [addTaskStep, position] at stuck
      split at stuck <;> cases stuck
  | some index =>
      obtain ⟨thread, found, inside⟩ := holds
      have stuck := (rests.2 index).1
      cases thread <;> simp only [ThreadProc.inside, Bool.false_eq_true] at inside
      case leave => simp [threadStep, found] at stuck
      case front =>
        obtain ⟨task, rest, queued⟩ := List.exists_cons_of_ne_nil (agrees.queued found)
        simp [threadStep, found, queued] at stuck

/-- Where nothing goes on `AddTask` has returned. -/
theorem Rests.returned (rests : pool.Rests) (free : pool.csHeld = false)
    : pool.addTask = .returned := by
  have stuck := rests.1
  cases position : pool.addTask <;> simp [addTaskStep, position, free] at stuck
  · rfl
  · split at stuck <;> cases stuck

/-- Where nothing goes on each thread has returned, or waits for a task that does not come. -/
theorem Rests.waits (rests : pool.Rests) (agrees : pool.Agrees 0) (free : pool.csHeld = false)
    (present : thread ∈ pool.threads)
    : thread = .returned
      ∨ (thread = .wait ∧ pool.exitEvent = false ∧ pool.semaphore = 0) := by
  obtain ⟨index, found⟩ := List.mem_iff_getElem?.mp present
  obtain ⟨stuck, executing⟩ := rests.2 index
  cases thread with
  | returned => exact Or.inl rfl
  | wait =>
      right
      simp only [threadStep, found] at stuck
      split at stuck
      · cases stuck
      · split at stuck <;> cases stuck
        exact ⟨rfl, Bool.not_eq_true _ ▸ ‹¬ pool.exitEvent = true›, by omega⟩
  | increment | decrement | leave => simp [threadStep, found] at stuck
  | enter => simp [threadStep, found, free] at stuck
  | execute task =>
      rw [ThreadPool.executed, executing_eq_some.mpr found] at executing
      cases executing
  | front =>
      obtain ⟨task, rest, queued⟩ := List.exists_cons_of_ne_nil (agrees.queued found)
      simp [threadStep, found, queued] at stuck

/-- Where nothing goes on and no thread has returned, the pool has nothing left to do: without a
thread there is no task, and with one the semaphore would wake it.
-/
theorem Rests.idle (rests : pool.Rests) (agrees : pool.Agrees 0) (attended : pool.Attended)
    (serves : ∀ thread ∈ pool.threads, thread ≠ .returned)
    (staffed : pool.threads = [] → pool.taskQueue ≠ [] → pool.addTask.unmatched = 1)
    : pool.csHeld = false
      ∧ pool.addTask = .returned
      ∧ (∀ thread ∈ pool.threads, thread = .wait)
      ∧ pool.taskQueue = []
      ∧ pool.semaphore = 0 := by
  have free := rests.free agrees attended
  have returned := rests.returned free
  have waits : ∀ thread ∈ pool.threads, thread = .wait ∧ pool.semaphore = 0 := by
    intro thread present
    rcases rests.waits agrees free present with gone | ⟨waits, _, empty⟩
    · exact absurd gone (serves thread present)
    · exact ⟨waits, empty⟩
  have woken : pool.threads.countP ThreadProc.woken = 0 := by
    refine List.countP_eq_zero.mpr (fun thread present => ?_)
    rw [(waits thread present).1]
    exact Bool.false_ne_true
  have counted := agrees.counted
  simp only [returned, woken, AddTask.pushing, List.length_nil, Nat.add_zero] at counted
  have empty : pool.taskQueue = [] := by
    cases created : pool.threads with
    | nil =>
        by_contra queued
        rw [returned] at staffed
        exact absurd (staffed created queued) Nat.zero_ne_one
    | cons thread rest =>
        have none := (waits thread (created ▸ List.mem_cons_self)).2
        exact List.length_eq_zero_iff.mp (counted.trans none)
  refine ⟨free, returned, fun thread present => (waits thread present).1, empty, ?_⟩
  rw [← counted, empty, List.length_nil]

end ThreadPool

namespace PoolLifetime

variable {life after : PoolLifetime Task} {event : PoolEvent Task}

/-- Somebody is there for whatever is left to do: for the lock, for the tasks and, once the event
is set, for nothing but the exit.
-/
structure Manned (life : PoolLifetime Task) : Prop where
  kept : life.Kept
  idle : life.pool.IdleCounted
  attended : life.pool.Attended
  room : 0 < life.pool.maxThreads
  staffed : life.pool.threads = [] → life.accepted ≠ [] → life.pool.addTask.unmatched = 1
  serves : life.pool.exitEvent = false → ∀ thread ∈ life.pool.threads, thread ≠ .returned
  exits
    : life.pool.exitEvent = true ↔ life.destructor ≠ .notCalled ∧ life.destructor ≠ .setEvent

theorem manned_start {processors nMaxThreads : Nat} (some : 0 < processors)
    (few
      : (ThreadPool.newWith processors nMaxThreads : ThreadPool Task).maxThreads
        ≤ maximumWaitObjects)
    : (start processors nMaxThreads : PoolLifetime Task).Manned where
  kept := kept_start few
  idle := ThreadPool.idleCounted_newWith processors nMaxThreads
  attended held := by
    rw [start, ThreadPool.newWith] at held
    split at held <;> cases held
  room := by
    rw [start, ThreadPool.newWith]
    split
    · exact (‹_ ∧ _› : 1 ≤ nMaxThreads ∧ nMaxThreads ≤ processors).1
    · exact some
  staffed _ accepted := absurd rfl accepted
  serves _ thread present := by
    rw [start, ThreadPool.newWith] at present
    split at present <;> cases present
  exits := by
    rw [start, ThreadPool.newWith]
    split <;> simp [ThreadPool.new]

theorem Manned.destructorStep (manned : life.Manned) (stepped : life.destructorStep = some after)
    : after.Manned := by
  have kept := manned.kept.destructorStep stepped
  have ⟨_, idle, attended, room, staffed, serves, exits⟩ := manned
  cases destructorStep_move stepped with
  | setEvent position =>
      exact ⟨kept, idle, attended, room, staffed, nofun, by simp⟩
  | call position | join position | closeHandle _ position | closed _ position | empty position
  | pop _ _ position | abort _ position =>
      refine ⟨kept, idle, attended, room, staffed, serves, ?_⟩
      simpa [position] using exits

/-- Without a thread the first task that is accepted brings one about. -/
theorem Manned.addTaskStep (manned : life.Manned) {pool : ThreadPool Task}
    (stepped : life.pool.addTaskStep = some pool)
    : pool.threads = [] → life.accepted ++ life.pool.accepts ≠ [] → pool.addTask.unmatched = 1 := by
  have staffed := manned.staffed
  cases ThreadPool.addTaskStep_move stepped with
  | enter task position =>
      intro none accepted
      rw [position] at staffed
      simp only [ThreadPool.accepts, position, List.append_nil] at accepted
      cases staffed none accepted
  | someIdle position idle =>
      intro none
      have counted := manned.idle
      rw [ThreadPool.IdleCounted, none] at counted
      exact absurd counted idle
  | full position full =>
      intro none
      have created := manned.kept.accounted.created
      rw [none] at created
      exact absurd (created ▸ manned.room) full
  | createThread position =>
      intro none
      simp at none
  | accept task position | drop task position | push task position | leave position
  | noneIdle position | room position =>
      exact fun _ _ => rfl

/-- A thread that goes on leaves the owner and its tasks alone, and returns for the event only. -/
theorem Manned.threadGoesOn (manned : life.Manned) {pool : ThreadPool Task}
    {left executed : List Task} (kept : ({ life with pool, left, executed }).Kept)
    (idle : pool.IdleCounted) (attended : pool.Attended)
    (length : pool.threads.length = life.pool.threads.length)
    (same
      : pool.addTask = life.pool.addTask
        ∧ pool.maxThreads = life.pool.maxThreads
        ∧ pool.exitEvent = life.pool.exitEvent)
    (serves : life.pool.exitEvent = false → ∀ thread ∈ pool.threads, thread ≠ .returned)
    : ({ life with pool, left, executed }).Manned where
  kept := kept
  idle := idle
  attended := attended
  room := same.2.1 ▸ manned.room
  staffed none := by
    have empty : life.pool.threads = [] := by
      rw [← List.length_eq_zero_iff, ← length, show pool.threads = [] from none, List.length_nil]
    exact same.1 ▸ manned.staffed empty
  serves := same.2.2 ▸ serves
  exits := same.2.2 ▸ manned.exits

theorem Manned.step (manned : life.Manned) (stepped : life.step event = some after)
    : after.Manned := by
  have kept := manned.kept.step stepped
  have ⟨_, idle, attended, room, staffed, serves, exits⟩ := manned
  cases event with
  | destructor => exact manned.destructorStep stepped
  | addTask task =>
      simp only [PoolLifetime.step] at stepped
      split at stepped
      case h_1 position =>
        obtain ⟨pool, called, rfl⟩ := Option.map_eq_some_iff.mp stepped
        have attended := attended.call called
        obtain ⟨returned, rfl⟩ := ThreadPool.call_eq_some called
        refine ⟨kept, idle, attended, room, fun none accepted => ?_, serves, exits⟩
        rw [returned] at staffed
        cases staffed none accepted
      all_goals cases stepped
  | addTaskStep =>
      obtain ⟨pool, moved, rfl⟩ := Option.map_eq_some_iff.mp stepped
      have same := ThreadPool.addTaskStep_exitEvent moved
      refine
        ⟨kept, idle.addTaskStep moved, attended.addTaskStep moved,
          ThreadPool.addTaskStep_maxThreads moved ▸ room, manned.addTaskStep moved, ?_,
          same ▸ exits⟩
      intro stays thread present
      have before := serves (same ▸ stays)
      cases ThreadPool.addTaskStep_move moved with
      | createThread =>
          rcases List.mem_append.mp present with old | new
          · exact before thread old
          · intro returned
            cases returned ▸ List.mem_singleton.mp new
      | enter | accept | drop | push | leave | someIdle | noneIdle | full | room =>
          exact before thread present
  | threadStep index =>
      obtain ⟨pool, moved, rfl⟩ := Option.map_eq_some_iff.mp stepped
      obtain ⟨length, stays⟩ := ThreadPool.threadStep_serves moved
      exact
        manned.threadGoesOn kept (idle.threadStep moved) (attended.threadStep moved) length
          ⟨ThreadPool.threadStep_addTask moved, ThreadPool.threadStep_maxThreads moved,
            ThreadPool.threadStep_exitEvent moved⟩
          (fun unset => stays unset (serves unset))
  | executed index =>
      obtain ⟨pool, ended, rfl⟩ := Option.map_eq_some_iff.mp stepped
      have idle := idle.executed ended
      have attended := attended.executed ended
      obtain ⟨task, found, rfl⟩ := ThreadPool.executed_eq_some ended
      refine manned.threadGoesOn kept idle attended (by simp [ThreadPool.setThread])
        ⟨rfl, rfl, rfl⟩ (fun unset thread present => ?_)
      rcases List.mem_or_eq_of_mem_set present with old | rfl
      · exact serves unset thread old
      · intro returned
        cases returned

variable {processors nMaxThreads : Nat} {events : List (PoolEvent Task)}

theorem manned_of_run (some : 0 < processors)
    (few
      : (ThreadPool.newWith processors nMaxThreads : ThreadPool Task).maxThreads
        ≤ maximumWaitObjects)
    (ran : TransitionSystem.run step (start processors nMaxThreads) events = Option.some life)
    : life.Manned :=
  TransitionSystem.run_invariant (fun manned stepped => Manned.step manned stepped)
    (manned_start some few) ran

/-- Where the pool has come to rest before its destructor is called, its threads wait and the tasks
that it accepted have been executed.
-/
theorem Manned.executed_all (manned : life.Manned) (rests : life.pool.Rests)
    (unset : life.pool.exitEvent = false)
    : life.pool.addTask = .returned
      ∧ (∀ thread ∈ life.pool.threads, thread = .wait)
      ∧ life.pool.taskQueue = []
      ∧ life.pool.semaphore = 0
      ∧ life.accepted ~ life.executed := by
  have ⟨kept, _, attended, _, staffed, serves, exits⟩ := manned
  have waiting : life.destructor.joined = false := by
    by_contra joined
    have set := exits.mpr (by cases position : life.destructor <;> simp_all [Destructor.joined])
    simp [unset] at set
  have none := kept.waiting waiting
  have agrees : life.pool.Agrees 0 := by
    have agrees := kept.agrees
    rwa [none] at agrees
  have comes : life.pool.threads = []
      → life.pool.taskQueue ≠ [] → life.pool.addTask.unmatched = 1 := by
    intro created queued
    refine staffed created (fun accepted => ?_)
    have order := kept.order
    simp [accepted, queued] at order
  obtain ⟨_, returned, waits, empty, unsignalled⟩ :=
    rests.idle agrees attended (serves unset) comes
  have idle : life.pool.threads.flatMap ThreadProc.tasks = [] := by
    refine List.flatMap_eq_nil_iff.mpr (fun thread present => ?_)
    rw [waits thread present]
    rfl
  refine ⟨returned, waits, empty, unsignalled, ?_⟩
  have order := kept.order
  have fate := kept.fate
  rw [idle, none] at fate
  rw [order, returned, empty]
  simpa [AddTask.pushing] using fate

/-- The wait of the destructor ends where every thread has returned. -/
theorem threadsReturned_of_all {pool : ThreadPool Task} (accounted : pool.Accounted)
    (all : ∀ thread ∈ pool.threads, thread = .returned)
    : pool.threadsReturned = true := by
  rw [ThreadPool.threadsReturned, accounted.stored, List.all_eq_true]
  intro handle stored
  obtain ⟨index, inside, rfl⟩ := List.mem_map.mp stored
  rw [List.mem_range, accounted.created] at inside
  rw [Option.bind_some, List.getElem?_eq_getElem inside, all _ (List.getElem_mem inside)]

/-- Neither the wait for the threads nor anything after it keeps the destructor for ever. -/
theorem Manned.destructor_returned (manned : life.Manned) (rests : life.pool.Rests)
    (stuck : life.destructorStep = none)
    : life.destructor = .returned := by
  have ⟨kept, _, attended, _, _, _, exits⟩ := manned
  have agrees (waiting : life.destructor.joined = false) : life.pool.Agrees 0 := by
    have agrees := kept.agrees
    rwa [kept.waiting waiting] at agrees
  cases position : life.destructor with
  | returned => rfl
  | notCalled =>
      have free := rests.free (agrees (position ▸ rfl)) attended
      simp [PoolLifetime.destructorStep, position, rests.returned free] at stuck
  | waitForThreads =>
      have agrees := agrees (position ▸ rfl)
      have set : life.pool.exitEvent = true := exits.mpr (by simp [position])
      have all : ∀ thread ∈ life.pool.threads, thread = .returned := by
        intro thread present
        rcases rests.waits agrees (rests.free agrees attended) present with gone | ⟨_, unset, _⟩
        · exact gone
        · rw [set] at unset
          cases unset
      simp [PoolLifetime.destructorStep, position, threadsReturned_of_all kept.accounted all]
        at stuck
  | closeHandles index =>
      simp only [PoolLifetime.destructorStep, position] at stuck
      split at stuck <;> cases stuck
  | front =>
      simp only [PoolLifetime.destructorStep, position] at stuck
      split at stuck <;> cases stuck
  | setEvent | abort => simp [PoolLifetime.destructorStep, position] at stuck

-----------------------------------------------------------------------------------------
-- What every run comes to
-----------------------------------------------------------------------------------------

/-- What is accepted stays accepted. -/
theorem step_accepted (stepped : life.step event = some after)
    : life.accepted <+: after.accepted := by
  cases event with
  | destructor =>
      cases destructorStep_move stepped <;> exact List.prefix_refl _
  | addTask task =>
      simp only [step] at stepped
      split at stepped
      case h_1 =>
        obtain ⟨pool, _, rfl⟩ := Option.map_eq_some_iff.mp stepped
        exact List.prefix_refl _
      all_goals cases stepped
  | addTaskStep =>
      obtain ⟨pool, _, rfl⟩ := Option.map_eq_some_iff.mp stepped
      exact List.prefix_append _ _
  | threadStep | executed =>
      obtain ⟨pool, _, rfl⟩ := Option.map_eq_some_iff.mp stepped
      exact List.prefix_refl _

/-- The pool by itself does not call the destructor, and takes steps until it rests. -/
theorem step_destructor (works : event.works = true) (stepped : life.step event = some after)
    : after.destructor = life.destructor := by
  cases event with
  | addTask | destructor => cases works
  | addTaskStep | threadStep | executed =>
      obtain ⟨pool, _, rfl⟩ := Option.map_eq_some_iff.mp stepped
      rfl

theorem rests_iff
    : life.pool.Rests ↔ ∀ event : PoolEvent Task, event.works = true → life.step event = none := by
  constructor
  · rintro ⟨adding, threads⟩ event works
    cases event with
    | addTask | destructor => cases works
    | addTaskStep => simp [step, adding]
    | threadStep index => simp [step, (threads index).1]
    | executed index => simp [step, (threads index).2]
  · intro stuck
    refine ⟨?_, fun index => ⟨?_, ?_⟩⟩
    · simpa [step] using stuck .addTaskStep rfl
    · simpa [step] using stuck (.threadStep index) rfl
    · simpa [step] using stuck (.executed index) rfl

theorem start_work : (start processors nMaxThreads : PoolLifetime Task).work = 5 := by
  rw [start, ThreadPool.newWith]
  split <;> rfl

theorem calls_of_works (works : event.works = true) : event.calls = 0 := by
  cases event with
  | addTask | destructor => cases works
  | addTaskStep | threadStep | executed => rfl

/-- A step without a call of `AddTask` leaves less to do. -/
theorem work_lt (uncalled : event.calls = 0) (stepped : life.step event = some after)
    : after.work < life.work := by
  have spent := step_work stepped
  rw [uncalled] at spent
  omega

theorem run_accepted (ran : TransitionSystem.run step life events = some after)
    : life.accepted <+: after.accepted :=
  @TransitionSystem.run_invariant _ _ _ _ _ _ (fun later => life.accepted <+: later.accepted)
    (fun sofar stepped => sofar.trans (step_accepted stepped)) (List.prefix_refl _) ran

/-- A run takes at most twenty steps for each call of `AddTask` and five more, its destructor
included: no thread spins, and none is woken for nothing again and again.
-/
theorem length_le_of_run
    (ran : TransitionSystem.run step (start processors nMaxThreads) events = some life)
    : events.length + life.work ≤ 20 * (events.map PoolEvent.calls).sum + 5 := by
  have bound := TransitionSystem.run_length_le_supplied step_work ran
  rw [start_work, List.sum_map_mul_left] at bound
  omega

/-- The owner is in its only call of `AddTask`. -/
theorem length_le_oneCall
    : ∃ life : PoolLifetime Nat,
        life.pool.addTask = .checkIdle
        ∧ [PoolEvent.addTask 1, .addTaskStep, .addTaskStep, .addTaskStep, .addTaskStep].length
            + life.work
          ≤ 20 * 1 + 5 := by
  obtain ⟨life, reached⟩ := Option.isSome_iff_exists.mp
    (by decide +kernel
      : ((TransitionSystem.run step (start 1 1)
            [.addTask 1, .addTaskStep, .addTaskStep, .addTaskStep, .addTaskStep]).filter
          (fun life => life.pool.addTask = .checkIdle)).isSome)
  obtain ⟨ran, state⟩ := Option.filter_eq_some_iff.mp reached
  exact ⟨life, of_decide_eq_true state, length_le_of_run ran⟩

/-- Before the destructor is called the pool comes to rest by itself, and at rest every task that
it has ever accepted is executed.
-/
theorem completes_of_run (some : 0 < processors)
    (few
      : (ThreadPool.newWith processors nMaxThreads : ThreadPool Task).maxThreads
        ≤ maximumWaitObjects)
    (ran : TransitionSystem.run step (start processors nMaxThreads) events = Option.some life)
    (notCalled : life.destructor = .notCalled)
    : ((∀ event : PoolEvent Task, event.works = true → life.step event = none)
        → life.pool.addTask = .returned
          ∧ (∀ thread ∈ life.pool.threads, thread = .wait)
          ∧ life.pool.taskQueue = []
          ∧ life.pool.semaphore = 0
          ∧ life.accepted ~ life.executed)
      ∧ ∃ more final,
          (∀ event ∈ more, event.works = true)
          ∧ TransitionSystem.run step life more = Option.some final
          ∧ (∀ event : PoolEvent Task, event.works = true → final.step event = none)
          ∧ life.accepted <+: final.accepted
          ∧ final.accepted ~ final.executed := by
  have atRest {state : PoolLifetime Task} (manned : state.Manned)
      (uncalled : state.destructor = .notCalled)
      (stuck : ∀ event : PoolEvent Task, event.works = true → state.step event = none) :=
    manned.executed_all (rests_iff.mpr stuck)
      (Bool.eq_false_iff.mpr (fun set => (manned.exits.mp set).1 uncalled))
  have manned := manned_of_run some few ran
  refine ⟨atRest manned notCalled, ?_⟩
  obtain ⟨more, final, works, ranOn, stuck⟩ :=
    TransitionSystem.exists_rest
      (fun works stepped => work_lt (calls_of_works works) stepped) life
  have after : final.Manned :=
    TransitionSystem.run_invariant (fun manned stepped => Manned.step manned stepped) manned ranOn
  have uncalled : final.destructor = .notCalled :=
    @TransitionSystem.run_invariant_along _ _ _ _ _ _ (fun state => state.destructor = .notCalled)
      _ (fun sofar works stepped => (step_destructor works stepped).trans sofar) notCalled
      (TransitionSystem.along_of_forall works) ranOn
  obtain ⟨_, _, _, _, all⟩ := atRest after uncalled stuck
  exact ⟨more, final, works, ranOn, stuck, run_accepted ranOn, all⟩

/-- The second task waits while the only thread executes the first one. -/
theorem completes_oneThread
    : ∃ life : PoolLifetime Nat,
        life.accepted = [1, 2]
        ∧ life.executed = []
        ∧ ∃ more final,
            TransitionSystem.run step life more = some final
            ∧ [1, 2] <+: final.accepted
            ∧ final.accepted ~ final.executed := by
  let oneThread : List (PoolEvent Nat) :=
    List.flatten
      [
        [.addTask 1],
        List.replicate 7 .addTaskStep,
        List.replicate 6 (.threadStep 0),
        [.addTask 2],
        List.replicate 6 .addTaskStep
      ]
  obtain ⟨life, reached⟩ := Option.isSome_iff_exists.mp
    (by decide +kernel
      : ((TransitionSystem.run step (start 1 1) oneThread).filter
          (fun life =>
            life.destructor = .notCalled
            ∧ life.accepted = [1, 2]
            ∧ life.executed = [])).isSome)
  obtain ⟨ran, state⟩ := Option.filter_eq_some_iff.mp reached
  obtain ⟨notCalled, accepted, executed⟩ := of_decide_eq_true state
  have completes := completes_of_run (by decide) (by decide) ran notCalled
  obtain ⟨more, final, _, ranOn, _, kept, all⟩ := completes.2
  exact ⟨life, accepted, executed, more, final, ranOn, accepted ▸ kept, all⟩

/-- The destructor returns: a run in which it has not can be continued without another call of
`AddTask`, and every such continuation comes to its end.
-/
theorem returned_of_run (some : 0 < processors)
    (few
      : (ThreadPool.newWith processors nMaxThreads : ThreadPool Task).maxThreads
        ≤ maximumWaitObjects)
    (ran : TransitionSystem.run step (start processors nMaxThreads) events = Option.some life)
    : (life.destructor ≠ .returned
        → ∃ event : PoolEvent Task, event.calls = 0 ∧ life.step event ≠ none)
      ∧ (∀ more final,
          (∀ event ∈ more, event.calls = 0)
          → TransitionSystem.run step life more = Option.some final
          → more.length ≤ life.work)
      ∧ ∃ more final,
          (∀ event ∈ more, event.calls = 0)
          ∧ TransitionSystem.run step life more = Option.some final
          ∧ final.destructor = .returned := by
  have atRest {state : PoolLifetime Task} (manned : state.Manned)
      (stuck : ∀ event : PoolEvent Task, event.calls = 0 → state.step event = none)
      : state.destructor = .returned :=
    manned.destructor_returned
      (rests_iff.mpr (fun event works => stuck event (calls_of_works works)))
      (stuck .destructor rfl)
  have manned := manned_of_run some few ran
  refine ⟨fun going => ?_, fun more final uncalled ranOn => ?_, ?_⟩
  · by_contra stuck
    push Not at stuck
    exact going (atRest manned stuck)
  · have bound := TransitionSystem.run_length_le_supplied step_work ranOn
    have none : (more.map (fun event => 20 * event.calls)).sum = 0 := by
      refine List.sum_eq_zero (fun supplied among => ?_)
      obtain ⟨event, member, rfl⟩ := List.mem_map.mp among
      rw [uncalled event member, Nat.mul_zero]
    omega
  · obtain ⟨more, final, uncalled, ranOn, stuck⟩ :=
      TransitionSystem.exists_rest (fun uncalled stepped => work_lt uncalled stepped) life
    have after : final.Manned :=
      TransitionSystem.run_invariant (fun manned stepped => Manned.step manned stepped) manned ranOn
    exact ⟨more, final, uncalled, ranOn, atRest after stuck⟩

/-- The owner goes away while its only thread has not even begun. -/
theorem returned_unbegun
    : ∃ life : PoolLifetime Nat,
        life.pool.threads = [.increment]
        ∧ life.destructor = .setEvent
        ∧ ∃ more final,
            (∀ event ∈ more, event.calls = 0)
            ∧ TransitionSystem.run step life more = some final
            ∧ final.destructor = .returned := by
  let unbegun : List (PoolEvent Nat) :=
    .addTask 1 :: List.replicate 7 .addTaskStep ++ [.destructor]
  obtain ⟨life, reached⟩ := Option.isSome_iff_exists.mp
    (by decide +kernel
      : ((TransitionSystem.run step (start 1 1) unbegun).filter
          (fun life =>
            life.pool.threads = [.increment] ∧ life.destructor = .setEvent)).isSome)
  obtain ⟨ran, state⟩ := Option.filter_eq_some_iff.mp reached
  obtain ⟨threads, destructor⟩ := of_decide_eq_true state
  have returns := returned_of_run (by decide) (by decide) ran
  exact ⟨life, threads, destructor, returns.2.2⟩

end PoolLifetime

end SchoolSystem.Server
