import SchoolSystem.Server.ThreadAccounting

/-! Whether `CThreadPool` uses the threads that it may create. `AddTask` looks for an idle thread
in a counter that still counts the threads that tasks before this one have claimed.
-/

namespace SchoolSystem.Server

open TransitionSystem (Along)

variable {Task : Type}

/-- Whether a thread starts up or waits, and no task has claimed it. -/
def ThreadProc.unclaimed : ThreadProc Task → Bool
  | .increment | .wait => true
  | .decrement | .enter | .front | .leave _ | .execute _ | .returned => false

/-- Whether a thread goes on and has no task. -/
def ThreadProc.free : ThreadProc Task → Bool
  | .increment | .wait | .decrement | .enter | .front => true
  | .leave _ | .execute _ | .returned => false

/-- Whether a thread starts up, waits, or is woken and still counted by `m_nIdleThreads`. -/
def ThreadProc.idling : ThreadProc Task → Bool
  | .increment | .wait | .decrement => true
  | .enter | .front | .leave _ | .execute _ | .returned => false

/-- How many tasks the semaphore counts before `AddTask` has looked for their threads. -/
def AddTask.unmatched : AddTask Task → Nat
  | .push _ | .leave | .checkIdle | .checkCur | .createThread => 1
  | .returned | .enter _ | .releaseSemaphore _ => 0

namespace ThreadPool

/-- The pool as long as its destructor is not called. -/
def step (pool : ThreadPool Task) : PoolEvent Task → Option (ThreadPool Task)
  | .addTask task => pool.call task
  | .addTaskStep => pool.addTaskStep
  | .threadStep index => pool.threadStep index
  | .executed index => pool.executed index
  | .destructor => none

end ThreadPool

namespace ThreadPool

/-- Every queued task has a thread that comes for it, or no thread may be created. -/
def Used (pool : ThreadPool Task) : Prop :=
  pool.curThreads = pool.maxThreads
    ∨ pool.taskQueue.length ≤ pool.threads.countP ThreadProc.free

/-- A call of `AddTask` finds fewer queued tasks than threads that go on and have none, or no thread
that it could take for idle, or no thread may be created.
-/
def Prepared (pool : ThreadPool Task) : Prop :=
  pool.curThreads = pool.maxThreads
    ∨ pool.taskQueue.length < pool.threads.countP ThreadProc.free
    ∨ pool.threads.countP ThreadProc.idling = 0

instance (pool : ThreadPool Task) : Decidable pool.Prepared :=
  inferInstanceAs (Decidable (_ ∨ _ ∨ _))

/-- `AddTask` is called where the pool is prepared for a task. -/
def CallsPrepared (pool : ThreadPool Task) : PoolEvent Task → Prop
  | .addTask _ => pool.Prepared
  | .addTaskStep | .threadStep _ | .executed _ | .destructor => True

instance (pool : ThreadPool Task) (event : PoolEvent Task) : Decidable (pool.CallsPrepared event) :=
  match event with
  | .addTask _ => inferInstanceAs (Decidable pool.Prepared)
  | .addTaskStep | .threadStep _ | .executed _ | .destructor => isTrue trivial

variable {pool next moved : ThreadPool Task} {event : PoolEvent Task} {index : Nat}
  {old thread : ThreadProc Task}

/-- A thread that goes on and has no task is unclaimed, or woken. -/
theorem free_countP (threads : List (ThreadProc Task))
    : threads.countP ThreadProc.free
      = threads.countP ThreadProc.unclaimed + threads.countP ThreadProc.woken := by
  induction threads with
  | nil => rfl
  | cons thread rest ih =>
      simp only [List.countP_cons, ih]
      cases thread <;> simp [ThreadProc.free, ThreadProc.unclaimed, ThreadProc.woken] <;> omega

/-- An unclaimed thread is idling. -/
theorem unclaimed_countP (threads : List (ThreadProc Task))
    : threads.countP ThreadProc.unclaimed ≤ threads.countP ThreadProc.idling := by
  refine List.countP_mono_left (fun thread _ unclaimed => ?_)
  cases thread <;> first | rfl | cases unclaimed

/-- An idling thread goes on and has no task. -/
theorem idling_countP (threads : List (ThreadProc Task))
    : threads.countP ThreadProc.idling ≤ threads.countP ThreadProc.free := by
  refine List.countP_mono_left (fun thread _ idling => ?_)
  cases thread <;> first | rfl | cases idling

/-- As long as no thread has returned, one that is counted is idling. -/
theorem idle_countP {threads : List (ThreadProc Task)} (running : .returned ∉ threads)
    : threads.countP ThreadProc.idle ≤ threads.countP ThreadProc.idling := by
  refine List.countP_mono_left (fun thread member idle => ?_)
  cases thread with
  | returned => exact absurd member running
  | wait | decrement => rfl
  | increment | enter | front | leave | execute => cases idle

/-- How many tasks the semaphore may count at each position of `AddTask`, by the numbers of
unclaimed and of idling threads. Up to the test of `m_nIdleThreads` there is a thread left for the
new task, or none that the test could count.
-/
def Serves (semaphore unclaimed idling : Nat) : AddTask Task → Prop
  | .returned => semaphore ≤ unclaimed
  | .enter _ | .releaseSemaphore _ => semaphore < unclaimed ∨ semaphore = 0 ∧ idling = 0
  | .push _ | .leave | .checkIdle => semaphore ≤ unclaimed ∨ semaphore ≤ 1 ∧ idling = 0
  | .checkCur | .createThread => semaphore ≤ unclaimed + 1

/-- The semaphore counts no more tasks than the threads can serve, as long as a thread may be
created.
-/
def Claimed (pool : ThreadPool Task) : Prop :=
  pool.curThreads = pool.maxThreads
    ∨ Serves pool.semaphore (pool.threads.countP ThreadProc.unclaimed)
        (pool.threads.countP ThreadProc.idling) pool.addTask

/-- Threads that go on leave each position of `AddTask` served: they take no more from the semaphore
than they are claimed for, and where none was idling they take nothing.
-/
theorem serves_mono {semaphore unclaimed idling less more later : Nat}
    {position : AddTask Task} (serves : Serves semaphore unclaimed idling position)
    (slack : less + unclaimed ≤ semaphore + more)
    (none : idling = 0 → less ≤ semaphore ∧ (later = 0 ∨ unclaimed < more))
    : Serves less more later position := by
  cases position <;> simp only [Serves] at serves ⊢ <;> omega

structure Matched (pool : ThreadPool Task) : Prop where
  agrees : pool.Agrees 0
  accounted : pool.Accounted
  counted : pool.IdleCounted
  stays : pool.exitEvent = false
  running : .returned ∉ pool.threads
  claimed : pool.Claimed

theorem matched_newWith (processors nMaxThreads : Nat)
    : (newWith processors nMaxThreads : ThreadPool Task).Matched where
  agrees := agrees_newWith processors nMaxThreads
  accounted := accounted_newWith processors nMaxThreads
  counted := idleCounted_newWith processors nMaxThreads
  stays := by
    rw [newWith]
    split <;> rfl
  running := by
    rw [newWith]
    split <;> exact List.not_mem_nil
  claimed := by
    rw [newWith]
    split <;> exact Or.inr (Nat.le_refl 0)

theorem addTaskStep_exitEvent (stepped : pool.addTaskStep = some next)
    : next.exitEvent = pool.exitEvent := by
  cases addTaskStep_move stepped <;> rfl

theorem threadStep_exitEvent (stepped : pool.threadStep index = some next)
    : next.exitEvent = pool.exitEvent := by
  cases threadStep_move stepped <;> rfl

/-- Where no thread is idling, the test of `m_nIdleThreads` finds none. -/
theorem Matched.none_idle (matched : pool.Matched)
    (none : pool.threads.countP ThreadProc.idling = 0)
    : pool.idleThreads = 0 := by
  have count := idle_countP matched.running
  rw [none, Nat.le_zero] at count
  rw [show pool.idleThreads = _ from matched.counted, count]
  rfl

theorem addTaskStep_running (running : .returned ∉ pool.threads)
    (stepped : pool.addTaskStep = some next)
    : .returned ∉ next.threads := by
  cases addTaskStep_move stepped with
  | createThread => simpa using running
  | enter | accept | drop | push | leave | someIdle | noneIdle | full | room => exact running

theorem setThread_running (running : .returned ∉ pool.threads) (goesOn : thread ≠ .returned)
    : .returned ∉ (pool.setThread index thread).threads := by
  intro gone
  rcases List.mem_or_eq_of_mem_set gone with before | now
  · exact running before
  · exact goesOn now.symm

theorem threadStep_running (running : .returned ∉ pool.threads) (stays : pool.exitEvent = false)
    (stepped : pool.threadStep index = some next)
    : .returned ∉ next.threads := by
  cases threadStep_move stepped with
  | exit found exits =>
      rw [stays] at exits
      cases exits
  | increment | wake | decrement | enter | front | leave =>
      exact setThread_running running (by rintro ⟨⟩)

theorem Matched.addTaskStep (matched : pool.Matched) (stepped : pool.addTaskStep = some next)
    : next.Matched := by
  refine
    ⟨matched.agrees.addTaskStep stepped, matched.accounted.addTaskStep stepped,
      matched.counted.addTaskStep stepped,
      (addTaskStep_exitEvent stepped).trans matched.stays,
      addTaskStep_running matched.running stepped, ?_⟩
  have claimed := matched.claimed
  cases addTaskStep_move stepped with
  | enter task position | push task position | leave position | room position =>
      rw [Claimed, position] at claimed
      exact claimed
  | accept task position | drop task position | noneIdle position =>
      simp only [Claimed, position, Serves] at claimed ⊢
      omega
  | someIdle position idle =>
      -- the test has counted a thread, so there was one left for the task
      simp only [Claimed, position, Serves] at claimed ⊢
      refine claimed.imp_right (fun serves => serves.resolve_right (fun none => ?_))
      exact idle (matched.none_idle none.2)
  | full position full =>
      exact Or.inl (Nat.le_antisymm matched.accounted.limit (Nat.le_of_not_lt full))
  | createThread position =>
      have room := matched.accounted.creates position
      simp only [Claimed, position, Serves, List.countP_append, List.countP_singleton,
        ThreadProc.unclaimed, if_true] at claimed ⊢
      omega

/-- A call that finds the pool prepared begins with a thread for its task, or with none idling. -/
theorem Matched.call {task : Task} (matched : pool.Matched) (prepared : pool.Prepared)
    (called : pool.call task = some next)
    : next.Matched := by
  refine
    ⟨matched.agrees.call called, matched.accounted.call called, ?_, ?_, ?_, ?_⟩
  all_goals obtain ⟨position, rfl⟩ := call_eq_some called
  · exact matched.counted
  · exact matched.stays
  · exact matched.running
  · have counted := matched.agrees.counted
    have claimed := matched.claimed
    have free := free_countP pool.threads
    have unclaimed := unclaimed_countP pool.threads
    simp only [position, AddTask.pushing, List.length_nil] at counted
    simp only [Claimed, position, Serves, Prepared] at claimed prepared ⊢
    omega

/-- A thread that goes on takes from the semaphore at most what it is claimed for, and nothing where
no thread was idling.
-/
theorem Claimed.goesOn (claimed : pool.Claimed) (found : pool.threads[index]? = some old)
    (threads : moved.threads = pool.threads)
    (owner
      : moved.curThreads = pool.curThreads
        ∧ moved.maxThreads = pool.maxThreads
        ∧ moved.addTask = pool.addTask)
    (balance
      : moved.semaphore + (if old.unclaimed then 1 else 0)
        ≤ pool.semaphore + (if thread.unclaimed then 1 else 0))
    (busy
      : old.idling = false
        → moved.semaphore = pool.semaphore
          ∧ (thread.idling = false ∨ old.unclaimed = false ∧ thread.unclaimed = true))
    : (moved.setThread index thread).Claimed := by
  have unclaimed :=
    @setThread_countP _ moved index old thread ThreadProc.unclaimed (threads ▸ found)
  have idling := @setThread_countP _ moved index old thread ThreadProc.idling (threads ▸ found)
  obtain ⟨curThreads, maxThreads, addTask⟩ := owner
  rw [threads] at unclaimed idling
  refine claimed.imp (fun all => curThreads.trans (all.trans maxThreads.symm)) (fun serves => ?_)
  have kept : (moved.setThread index thread).addTask = pool.addTask := addTask
  rw [kept]
  refine serves_mono serves ?_ (fun none => ?_)
  · have semaphore : (moved.setThread index thread).semaphore = moved.semaphore := rfl
    omega
  · have notIdling : old.idling = false := by
      have absent := List.countP_eq_zero.mp none old (List.mem_of_getElem? found)
      simpa using absent
    obtain ⟨same, goes⟩ := busy notIdling
    refine ⟨Nat.le_of_eq same, goes.imp (fun still => ?_) (fun begins => ?_)⟩
    · simp only [notIdling, still, none] at idling
      simpa using idling
    · simp only [begins.1, begins.2] at unclaimed
      simp at unclaimed
      omega

theorem Claimed.threadStep (claimed : pool.Claimed) (stays : pool.exitEvent = false)
    (stepped : pool.threadStep index = some next)
    : next.Claimed := by
  cases threadStep_move stepped with
  | exit found exits =>
      rw [stays] at exits
      cases exits
  | wake found _ signalled =>
      refine claimed.goesOn found rfl ⟨rfl, rfl, rfl⟩ ?_ nofun
      simp only [ThreadProc.unclaimed, Bool.false_eq_true, if_false, if_true]
      omega
  | increment found | decrement found =>
      exact claimed.goesOn found rfl ⟨rfl, rfl, rfl⟩ (Nat.le_refl _) nofun
  | enter found | front _ _ found | leave _ found =>
      exact claimed.goesOn found rfl ⟨rfl, rfl, rfl⟩ (Nat.le_refl _)
        (fun _ => ⟨rfl, Or.inl rfl⟩)

theorem Matched.step (matched : pool.Matched) (prepared : pool.CallsPrepared event)
    (stepped : pool.step event = some next)
    : next.Matched := by
  have ⟨agrees, accounted, counted, stays, running, claimed⟩ := matched
  cases event with
  | destructor => cases stepped
  | addTaskStep => exact matched.addTaskStep stepped
  | addTask task => exact matched.call prepared stepped
  | threadStep index =>
      exact
        ⟨agrees.threadStep stepped, accounted.threadStep stepped, counted.threadStep stepped,
          (threadStep_exitEvent stepped).trans stays, threadStep_running running stays stepped,
          claimed.threadStep stays stepped⟩
  | executed index =>
      refine
        ⟨agrees.executed stepped, accounted.executed stepped, counted.executed stepped, ?_, ?_, ?_⟩
      all_goals obtain ⟨task, found, rfl⟩ := executed_eq_some stepped
      · exact stays
      · exact setThread_running running (by rintro ⟨⟩)
      · exact claimed.goesOn found rfl ⟨rfl, rfl, rfl⟩ (Nat.le_succ _)
          (fun _ => ⟨rfl, Or.inr ⟨rfl, rfl⟩⟩)

/-- Outside `AddTask` the queue and the semaphore differ by the woken threads. -/
theorem used_iff (agrees : pool.Agrees 0) (returned : pool.addTask = .returned)
    : pool.Used
      ↔ pool.curThreads = pool.maxThreads
        ∨ pool.semaphore ≤ pool.threads.countP ThreadProc.unclaimed := by
  have counted := agrees.counted
  have free := free_countP pool.threads
  simp only [returned, AddTask.pushing, List.length_nil] at counted
  refine or_congr Iff.rfl ?_
  omega

/-- The state in which `AddTask` returns uses the threads. -/
def ReturnsUsed (pool : ThreadPool Task) (event : PoolEvent Task) : Prop :=
  event = .addTaskStep
  → ∀ next, pool.step event = some next → next.addTask = .returned → next.Used

theorem Matched.returnsUsed (matched : pool.Matched) : pool.ReturnsUsed event := by
  rintro rfl next stepped returned
  have later := matched.addTaskStep stepped
  have claimed := later.claimed
  rw [Claimed, returned] at claimed
  exact (used_iff later.agrees returned).mpr claimed

theorem returnsUsed_along {events : List (PoolEvent Task)} (matched : pool.Matched)
    (prepared : Along step CallsPrepared pool events)
    : Along step ReturnsUsed pool events :=
  TransitionSystem.along_of_invariant
    (fun matched prepared stepped => Matched.step matched prepared stepped)
    (fun matched _ => Matched.returnsUsed matched) matched prepared

/-- In a run that calls `AddTask` only where the pool is prepared for a task, the pool uses its
threads whenever `AddTask` returns.
-/
theorem used_of_run (processors nMaxThreads : Nat) (events : List (PoolEvent Task))
    (prepared : Along step CallsPrepared (newWith processors nMaxThreads) events)
    : Along step ReturnsUsed (newWith processors nMaxThreads) events :=
  returnsUsed_along (matched_newWith processors nMaxThreads) prepared

/-- The second task comes while the first one is still queued, and its thread is not counted. -/
theorem used_secondThread
    : Along step ReturnsUsed (newWith 2 2 : ThreadPool Nat)
        (List.flatten
          [
            [.addTask 1],
            List.replicate 7 .addTaskStep,
            [.threadStep 0, .threadStep 0, .threadStep 0, .addTask 2],
            List.replicate 7 .addTaskStep
          ]) :=
  used_of_run 2 2 _ (by decide +kernel)

/-- A pool without queued tasks is prepared for one. -/
theorem prepared_of_empty (empty : pool.taskQueue = []) : pool.Prepared := by
  have idling := idling_countP pool.threads
  rcases Nat.eq_zero_or_pos (pool.threads.countP ThreadProc.free) with none | some
  · exact Or.inr (Or.inr (Nat.eq_zero_of_le_zero (none ▸ idling)))
  · exact Or.inr (Or.inl (empty ▸ some))

/-- In particular, a producer that adds a task only while none is queued uses the threads. -/
theorem used_of_empty (processors nMaxThreads : Nat) (events : List (PoolEvent Task))
    (empty
      : Along step (fun pool event => ∀ task, event = .addTask task → pool.taskQueue = [])
          (newWith processors nMaxThreads) events)
    : Along step ReturnsUsed (newWith processors nMaxThreads) events := by
  have prepared : ∀ {pool : ThreadPool Task} {event : PoolEvent Task},
      True → (∀ task, event = .addTask task → pool.taskQueue = []) → pool.CallsPrepared event := by
    intro pool event _ empty
    cases event with
    | addTask task => exact prepared_of_empty (empty task rfl)
    | addTaskStep | threadStep | executed | destructor => trivial
  exact returnsUsed_along (matched_newWith processors nMaxThreads)
    (TransitionSystem.along_of_invariant (fun _ _ _ => trivial) prepared trivial empty)

/-- Where a call does not find the pool prepared while `m_nIdleThreads` is not zero and `m_cs` is
free, it returns without another thread's step, and its task has no thread.
-/
theorem not_used_of_unprepared {task : Task} (position : pool.addTask = .returned)
    (unprepared : ¬ pool.Prepared) (idle : pool.idleThreads ≠ 0) (free : pool.csHeld = false)
    (room : pool.semaphore < pool.semaphoreMax)
    : ¬ Along step ReturnsUsed pool (.addTask task :: List.replicate 5 .addTaskStep) := by
  intro uses
  simp only [Prepared, not_or, not_lt] at unprepared
  obtain ⟨few, queued, _⟩ := unprepared
  simp [Along, List.replicate, step, call, position, addTaskStep, free, room, idle, ReturnsUsed,
    Used, few] at uses
  omega

/-- The second task comes while the first one has not woken the only thread, which is still counted
idle.
-/
theorem not_used_burst
    : ¬ ∀ (processors nMaxThreads : Nat) (events : List (PoolEvent Nat)),
          Along step ReturnsUsed (newWith processors nMaxThreads) events := by
  intro uses
  let burst : List (PoolEvent Nat) :=
    .addTask 1 :: (List.replicate 7 .addTaskStep ++ [.threadStep 0])
  obtain ⟨before, reached⟩ := Option.isSome_iff_exists.mp
    (by decide +kernel
      : ((TransitionSystem.run step (newWith 2 2) burst).filter
          (fun before =>
            before.addTask = .returned
            ∧ ¬ before.Prepared
            ∧ before.idleThreads ≠ 0
            ∧ before.csHeld = false
            ∧ before.semaphore < before.semaphoreMax)).isSome)
  obtain ⟨ran, state⟩ := Option.filter_eq_some_iff.mp reached
  obtain ⟨position, unprepared, idle, free, room⟩ := of_decide_eq_true state
  have along := uses 2 2 (burst ++ .addTask 2 :: List.replicate 5 .addTaskStep)
  exact not_used_of_unprepared position unprepared idle free room
    (((TransitionSystem.along_append _).mp along).2 before ran)

end ThreadPool

end SchoolSystem.Server
