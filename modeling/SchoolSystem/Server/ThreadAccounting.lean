import SchoolSystem.Server.PoolLifetime

/-! The threads that `CThreadPool` creates, counts and closes. The statement that creates a thread
is taken apart, and every order of its parts settles into the step of `AddTask` that it is.
-/

namespace SchoolSystem.Server

variable {Task : Type}

-----------------------------------------------------------------------------------------
-- The creation of a thread
-----------------------------------------------------------------------------------------

/-- `m_pThreadHandles[m_nCurThreads++] = CreateThread(...)` on its way: the handle once the thread
is created, and the index once `m_nCurThreads` is incremented.
-/
structure ThreadCreation where
  handle : Option Nat
  index : Option Nat
  deriving DecidableEq, Repr

def ThreadCreation.none : ThreadCreation where
  handle := Option.none
  index := Option.none

structure PoolThreads (Task : Type) where
  life : PoolLifetime Task
  creation : ThreadCreation
  deriving DecidableEq, Repr

/-- The compiler chooses which of the two operands comes first. -/
inductive PoolThreadsEvent (Task : Type)
  | createThread
  | countThread
  | storeHandle
  | step (event : PoolEvent Task)
  deriving DecidableEq, Repr

/-- Whether `AddTask` is at the statement that creates a thread. -/
def AddTask.creates : AddTask Task → Bool
  | .createThread => true
  | .returned | .enter _ | .releaseSemaphore _ | .push _ | .leave | .checkIdle | .checkCur => false

/-- Whether an event is the statement that creates a thread, as one step. -/
def PoolLifetime.creates (life : PoolLifetime Task) : PoolEvent Task → Bool
  | .addTaskStep => life.pool.addTask.creates
  | .addTask _ | .threadStep _ | .executed _ | .destructor => false

namespace PoolThreads

def start (processors nMaxThreads : Nat) : PoolThreads Task where
  life := .start processors nMaxThreads
  creation := .none

/-- The created thread runs at once, counted or not. -/
def step (state : PoolThreads Task) : PoolThreadsEvent Task → Option (PoolThreads Task)
  | .createThread =>
      if state.life.pool.addTask.creates ∧ state.creation.handle = none then
        some
          {
            state with
            life.pool.threads := state.life.pool.threads ++ [.increment]
            creation.handle := some state.life.pool.threads.length
          }
      else
        none
  | .countThread =>
      if state.life.pool.addTask.creates ∧ state.creation.index = none then
        some
          {
            state with
            life.pool.curThreads := state.life.pool.curThreads + 1
            creation.index := some state.life.pool.curThreads
          }
      else
        none
  | .storeHandle =>
      match state.creation with
      | ⟨some handle, some index⟩ =>
          some
            {
              state with
              life.pool.threadHandles := state.life.pool.threadHandles.set index (some handle)
              life.pool.addTask := .returned
              creation := .none
            }
      | ⟨none, _⟩ | ⟨some _, none⟩ => none
  | .step event =>
      if state.life.creates event then
        none
      else
        (state.life.step event).map (fun life => { state with life })

end PoolThreads

-----------------------------------------------------------------------------------------
-- The step of `AddTask` that the parts add up to
-----------------------------------------------------------------------------------------

/-- The life with other values for what the statement writes. -/
def PoolLifetime.owned (life : PoolLifetime Task) (curThreads : Nat)
    (threadHandles : List (Option Nat)) (addTask : AddTask Task)
    : PoolLifetime Task :=
  {
    life with
    pool.curThreads := curThreads
    pool.threadHandles := threadHandles
    pool.addTask := addTask
  }

namespace PoolThreads

/-- The index of `m_pThreadHandles` that the next handle goes to. -/
def place (state : PoolThreads Task) : Nat :=
  state.creation.index.getD state.life.pool.curThreads

/-- The statement is undone until the thread exists, and then complete. -/
def settled (state : PoolThreads Task) : PoolLifetime Task :=
  match state.creation.handle with
  | none =>
      state.life.owned state.place state.life.pool.threadHandles state.life.pool.addTask
  | some handle =>
      state.life.owned (state.place + 1)
        (state.life.pool.threadHandles.set state.place (some handle)) .returned

end PoolThreads

/-- A step that a thread takes. -/
def PoolEvent.ofThread : PoolEvent Task → Bool
  | .threadStep _ | .executed _ => true
  | .addTask _ | .addTaskStep | .destructor => false

namespace PoolLifetime

variable {life after : PoolLifetime Task} {event : PoolEvent Task}

/-- A thread writes nothing that the statement writes. -/
theorem step_ofThread_keeps (thread : event.ofThread = true)
    (stepped : life.step event = some after)
    : after.pool.curThreads = life.pool.curThreads
      ∧ after.pool.threadHandles = life.pool.threadHandles
      ∧ after.pool.addTask = life.pool.addTask
      ∧ after.destructor = life.destructor := by
  cases event with
  | addTask | addTaskStep | destructor => cases thread
  | threadStep index =>
      obtain ⟨pool, moved, rfl⟩ := Option.map_eq_some_iff.mp stepped
      cases ThreadPool.threadStep_move moved <;> exact ⟨rfl, rfl, rfl, rfl⟩
  | executed index =>
      obtain ⟨pool, ended, rfl⟩ := Option.map_eq_some_iff.mp stepped
      obtain ⟨task, found, rfl⟩ := ThreadPool.executed_eq_some ended
      exact ⟨rfl, rfl, rfl, rfl⟩

/-- Only the statement changes what it writes, but for the position in `AddTask`. -/
theorem step_keeps (other : life.creates event = false) (stepped : life.step event = some after)
    : after.pool.curThreads = life.pool.curThreads
      ∧ after.pool.threadHandles = life.pool.threadHandles := by
  cases event with
  | threadStep | executed =>
      obtain ⟨counted, stored, _⟩ := step_ofThread_keeps rfl stepped
      exact ⟨counted, stored⟩
  | addTask task =>
      simp only [step] at stepped
      split at stepped
      case h_1 =>
        obtain ⟨pool, called, rfl⟩ := Option.map_eq_some_iff.mp stepped
        obtain ⟨_, rfl⟩ := ThreadPool.call_eq_some called
        exact ⟨rfl, rfl⟩
      all_goals cases stepped
  | addTaskStep =>
      obtain ⟨pool, moved, rfl⟩ := Option.map_eq_some_iff.mp stepped
      cases ThreadPool.addTaskStep_move moved with
      | createThread position => simp [creates, position, AddTask.creates] at other
      | enter | accept | drop | push | leave | someIdle | noneIdle | full | room =>
          exact ⟨rfl, rfl⟩
  | destructor =>
      simp only [step, destructorStep] at stepped
      split at stepped
      all_goals grind

/-- A thread reads nothing that the statement writes. -/
theorem step_ofThread_owned {curThreads : Nat} {threadHandles : List (Option Nat)}
    {addTask : AddTask Task} (thread : event.ofThread = true)
    (stepped : life.step event = some after)
    : (life.owned curThreads threadHandles addTask).step event
      = some (after.owned curThreads threadHandles addTask) := by
  cases event with
  | addTask | addTaskStep | destructor => cases thread
  | threadStep index =>
      obtain ⟨pool, moved, rfl⟩ := Option.map_eq_some_iff.mp stepped
      cases ThreadPool.threadStep_move moved with
      | increment found | decrement found | leave _ found =>
          simp [step, owned, ThreadPool.threadStep, ThreadPool.pops, ThreadPool.setThread, found]
      | exit found exits =>
          simp [step, owned, ThreadPool.threadStep, ThreadPool.pops, ThreadPool.setThread, found,
            exits]
      | wake found stays signalled =>
          simp [step, owned, ThreadPool.threadStep, ThreadPool.pops, ThreadPool.setThread, found,
            stays, signalled]
      | enter found free =>
          simp [step, owned, ThreadPool.threadStep, ThreadPool.pops, ThreadPool.setThread, found,
            free]
      | front task rest found queued =>
          simp [step, owned, ThreadPool.threadStep, ThreadPool.pops, ThreadPool.setThread, found,
            queued]
  | executed index =>
      obtain ⟨pool, ended, rfl⟩ := Option.map_eq_some_iff.mp stepped
      obtain ⟨task, found, rfl⟩ := ThreadPool.executed_eq_some ended
      have executing := ThreadPool.executing_eq_some.mpr found
      have same
          : (life.owned curThreads threadHandles addTask).pool.executing index = some task :=
        executing
      simp only [step, ThreadPool.executed, executing, same, Option.map_some]
      rfl

end PoolLifetime

namespace PoolThreads

variable {state next : PoolThreads Task} {event : PoolThreadsEvent Task}

/-- What the statement that creates a thread relies on while it is on its way. -/
structure Creating (state : PoolThreads Task) : Prop where
  begun
    : state.creation ≠ .none
      → state.life.pool.addTask = .createThread ∧ state.life.destructor = .notCalled
  counted : ∀ index, state.creation.index = some index → state.life.pool.curThreads = index + 1
  fresh
    : ∀ index handle,
        state.place ≤ index → state.life.pool.threadHandles[index]? = some handle
        → handle = none

theorem settled_of_none (none : state.creation = .none) : state.settled = state.life := by
  rw [settled, none]
  simp only [ThreadCreation.none, place, none, Option.getD_none, PoolLifetime.owned]

theorem creates_eq_true {addTask : AddTask Task} (creates : addTask.creates = true)
    : addTask = .createThread := by
  cases addTask with
  | createThread => rfl
  | returned | enter | releaseSemaphore | push | leave | checkIdle | checkCur => cases creates

/-- The statement is reached before the destructor is called only. -/
theorem Creating.notCalled (creating : state.Creating) (kept : state.settled.Kept)
    (position : state.life.pool.addTask = .createThread)
    : state.life.destructor = .notCalled := by
  by_cases none : state.creation = .none
  · rw [settled_of_none none] at kept
    by_contra begun
    have returned := kept.quiet begun
    rw [position] at returned
    cases returned
  · exact (creating.begun none).2

theorem createThread_settled (creating : state.Creating) (kept : state.settled.Kept)
    (stepped : state.step .createThread = some next)
    : next.Creating ∧ TransitionSystem.Reaches PoolLifetime.step state.settled next.settled := by
  obtain ⟨life, handle, index⟩ := state
  simp only [step] at stepped
  split at stepped <;> cases stepped
  obtain ⟨creates, rfl⟩ := ‹_ ∧ _›
  have position : life.pool.addTask = .createThread := creates_eq_true creates
  refine
    ⟨⟨fun _ => ⟨position, creating.notCalled kept position⟩, creating.counted, creating.fresh⟩,
      ?_⟩
  have coarse
      : PoolLifetime.step (settled ⟨life, none, index⟩) .addTaskStep
        = some
            (settled
              {
                life := { life with pool.threads := life.pool.threads ++ [.increment] }
                creation := ⟨some life.pool.threads.length, index⟩
              }) := by
    simp [settled, place, PoolLifetime.owned, PoolLifetime.step, ThreadPool.addTaskStep,
      ThreadPool.accepts, position]
  exact .single coarse

theorem countThread_settled (creating : state.Creating) (kept : state.settled.Kept)
    (stepped : state.step .countThread = some next)
    : next.Creating ∧ next.settled = state.settled := by
  obtain ⟨life, handle, index⟩ := state
  simp only [step] at stepped
  split at stepped <;> cases stepped
  obtain ⟨creates, rfl⟩ := ‹_ ∧ _›
  have position := creates_eq_true creates
  refine ⟨⟨fun _ => ⟨position, creating.notCalled kept position⟩, ?_, creating.fresh⟩, ?_⟩
  · rintro index ⟨⟩
    rfl
  · cases handle <;> rfl

theorem storeHandle_settled (creating : state.Creating)
    (stepped : state.step .storeHandle = some next)
    : next.Creating ∧ next.settled = state.settled := by
  obtain ⟨life, handle, index⟩ := state
  cases handle with
  | none => cases stepped
  | some handle =>
      cases index with
      | none => cases stepped
      | some index =>
          cases stepped
          have counted : life.pool.curThreads = index + 1 := creating.counted index rfl
          refine ⟨⟨nofun, nofun, ?_⟩, ?_⟩
          · intro later stored after found
            have beyond : index < later := by
              have place : life.pool.curThreads ≤ later := after
              omega
            refine creating.fresh later stored (Nat.le_of_lt beyond) ?_
            rwa [List.getElem?_set_ne (Nat.ne_of_lt beyond)] at found
          · rw [settled_of_none rfl]
            simp [settled, place, PoolLifetime.owned, counted]

/-- Without the statement every step is one of the pool with `AddTask` in one piece. -/
theorem step_settled_of_none {event : PoolEvent Task} (creating : state.Creating)
    (none : state.creation = .none) (stepped : state.step (.step event) = some next)
    : next.Creating ∧ PoolLifetime.step state.settled event = some next.settled := by
  simp only [step] at stepped
  split at stepped
  · cases stepped
  · obtain ⟨life, moved, rfl⟩ := Option.map_eq_some_iff.mp stepped
    have other : state.life.creates event = false := eq_false_of_ne_true ‹_›
    obtain ⟨counted, stored⟩ := PoolLifetime.step_keeps other moved
    refine ⟨⟨fun begun => absurd none begun, fun index found => ?_, ?_⟩, ?_⟩
    · rw [none] at found
      cases found
    · intro index handle after found
      refine creating.fresh index handle ?_ (stored ▸ found)
      rw [place, none] at after ⊢
      exact counted ▸ after
    · rw [settled_of_none none, @settled_of_none _ { state with life := life } none]
      exact moved

/-- During the statement only the threads go on. -/
theorem step_settled_of_begun {event : PoolEvent Task} (creating : state.Creating)
    (begun : state.creation ≠ .none) (stepped : state.step (.step event) = some next)
    : next.Creating ∧ PoolLifetime.step state.settled event = some next.settled := by
  obtain ⟨position, notCalled⟩ := creating.begun begun
  simp only [step] at stepped
  split at stepped
  · cases stepped
  · obtain ⟨life, moved, rfl⟩ := Option.map_eq_some_iff.mp stepped
    have thread : event.ofThread = true := by
      cases event with
      | threadStep | executed => rfl
      | addTask => simp [PoolLifetime.step, notCalled, ThreadPool.call, position] at moved
      | addTaskStep => simp [PoolLifetime.creates, position, AddTask.creates] at *
      | destructor =>
          simp [PoolLifetime.step, PoolLifetime.destructorStep, notCalled, position] at moved
    obtain ⟨counted, stored, addTask, destructor⟩ := PoolLifetime.step_ofThread_keeps thread moved
    have same : @place Task { state with life := life } = state.place := by
      rw [place, place, counted]
    constructor
    · constructor
      · exact fun _ => ⟨addTask.trans position, destructor.trans notCalled⟩
      · exact fun index found => counted.trans (creating.counted index found)
      · exact fun index handle after found =>
          creating.fresh index handle (same ▸ after) (stored ▸ found)
    · cases created : state.creation.handle with
      | none =>
          simp only [settled, created, same, stored, addTask]
          exact PoolLifetime.step_ofThread_owned thread moved
      | some handle =>
          simp only [settled, created, same, stored]
          exact PoolLifetime.step_ofThread_owned thread moved

theorem step_settled (creating : state.Creating) (kept : state.settled.Kept)
    (stepped : state.step event = some next)
    : next.Creating ∧ TransitionSystem.Reaches PoolLifetime.step state.settled next.settled := by
  cases event with
  | createThread => exact createThread_settled creating kept stepped
  | countThread =>
      obtain ⟨holds, same⟩ := countThread_settled creating kept stepped
      exact ⟨holds, same ▸ .refl⟩
  | storeHandle =>
      obtain ⟨holds, same⟩ := storeHandle_settled creating stepped
      exact ⟨holds, same ▸ .refl⟩
  | step event =>
      by_cases none : state.creation = .none
      · obtain ⟨holds, coarse⟩ := step_settled_of_none creating none stepped
        exact ⟨holds, .single coarse⟩
      · obtain ⟨holds, coarse⟩ := step_settled_of_begun creating none stepped
        exact ⟨holds, .single coarse⟩

end PoolThreads

-----------------------------------------------------------------------------------------
-- The counter of idle threads and the handles that are closed
-----------------------------------------------------------------------------------------

/-- Whether a thread has executed the increment and not the decrement that follows it. -/
def ThreadProc.idle : ThreadProc Task → Bool
  | .wait | .decrement | .returned => true
  | .increment | .enter | .front | .leave _ | .execute _ => false

/-- How many handles the destructor has closed, of a number of threads. -/
def Destructor.closed (threads : Nat) : Destructor Task → Nat
  | .notCalled | .setEvent | .waitForThreads => 0
  | .closeHandles index => index
  | .front | .abort _ | .returned => threads

namespace ThreadPool

variable {pool next moved : ThreadPool Task} {index : Nat} {old thread : ThreadProc Task}

/-- The counter, as far as it does not wrap. -/
def IdleCounted (pool : ThreadPool Task) : Prop :=
  pool.idleThreads = UInt32.ofNat (pool.threads.countP ThreadProc.idle)

/-- A thread that goes on changes the counter by what it is counted before and after. -/
theorem IdleCounted.goesOn (counted : pool.IdleCounted) (found : pool.threads[index]? = some old)
    (threads : moved.threads = pool.threads)
    (balance
      : moved.idleThreads + UInt32.ofNat (if old.idle then 1 else 0)
        = pool.idleThreads + UInt32.ofNat (if thread.idle then 1 else 0))
    : (moved.setThread index thread).IdleCounted := by
  have count := @setThread_countP _ moved index old thread ThreadProc.idle (threads ▸ found)
  have now : pool.idleThreads = UInt32.ofNat (pool.threads.countP ThreadProc.idle) := counted
  have sum := congrArg UInt32.ofNat count
  rw [UInt32.ofNat_add, UInt32.ofNat_add, threads, ← now, ← balance] at sum
  exact (UInt32.add_left_inj _).mp sum.symm

theorem IdleCounted.addTaskStep (counted : pool.IdleCounted)
    (stepped : pool.addTaskStep = some next)
    : next.IdleCounted := by
  cases addTaskStep_move stepped with
  | createThread => simpa [IdleCounted, ThreadProc.idle] using counted
  | enter | accept | drop | push | leave | someIdle | noneIdle | full | room => exact counted

theorem IdleCounted.threadStep (counted : pool.IdleCounted)
    (stepped : pool.threadStep index = some next)
    : next.IdleCounted := by
  cases threadStep_move stepped with
  | increment found | exit found | wake found | decrement found | enter found | front _ _ found
  | leave _ found =>
      exact counted.goesOn found rfl (by simp [ThreadProc.idle])

theorem IdleCounted.executed (counted : pool.IdleCounted)
    (executed : pool.executed index = some next)
    : next.IdleCounted := by
  obtain ⟨task, found, rfl⟩ := executed_eq_some executed
  exact counted.goesOn found rfl rfl

/-- As many threads as one wait can cover do not make the counter wrap. -/
theorem IdleCounted.exact (counted : pool.IdleCounted)
    (few : pool.threads.length ≤ maximumWaitObjects)
    : pool.idleThreads.toNat = pool.threads.countP ThreadProc.idle := by
  have counts := @List.countP_le_length _ ThreadProc.idle pool.threads
  rw [maximumWaitObjects] at few
  rw [show pool.idleThreads = _ from counted, UInt32.toNat_ofNat', Nat.mod_eq_of_lt (by omega)]

theorem idleCounted_newWith (processors nMaxThreads : Nat)
    : (newWith processors nMaxThreads : ThreadPool Task).IdleCounted := by
  rw [newWith]
  split <;> rfl

end ThreadPool

namespace PoolLifetime

variable {life after : PoolLifetime Task} {event : PoolEvent Task}

/-- The counter counts, and the closed handles are those of the first threads. -/
structure Counted (life : PoolLifetime Task) : Prop where
  idle : life.pool.IdleCounted
  within : life.destructor.closed life.pool.curThreads ≤ life.pool.curThreads
  closed
    : life.closedHandles = (List.range (life.destructor.closed life.pool.curThreads)).map some

theorem counted_start (processors nMaxThreads : Nat)
    : (start processors nMaxThreads : PoolLifetime Task).Counted where
  idle := ThreadPool.idleCounted_newWith processors nMaxThreads
  within := Nat.zero_le _
  closed := rfl

/-- The destructor closes the handles one by one, and each is that of the thread of its index. -/
theorem Counted.destructorStep (counted : life.Counted) (kept : life.Kept)
    (stepped : life.destructorStep = some after)
    : after.Counted := by
  have ⟨idle, within, closed⟩ := counted
  cases position : life.destructor with
  | notCalled =>
      rw [position] at closed
      simp only [PoolLifetime.destructorStep, position] at stepped
      cases returned : life.pool.addTask <;> simp [returned] at stepped
      subst stepped
      exact ⟨idle, Nat.zero_le _, closed⟩
  | setEvent =>
      rw [position] at closed
      simp only [PoolLifetime.destructorStep, position, Option.some.injEq] at stepped
      subst stepped
      exact ⟨idle, Nat.zero_le _, closed⟩
  | waitForThreads =>
      rw [position] at closed
      simp only [PoolLifetime.destructorStep, position] at stepped
      split at stepped <;> cases stepped
      exact ⟨idle, Nat.zero_le _, closed⟩
  | closeHandles index =>
      rw [position] at within closed
      simp only [PoolLifetime.destructorStep, position] at stepped
      split at stepped <;> cases stepped
      · have inside : index < life.pool.curThreads := ‹_›
        have stored := congrArg (fun handles => handles[index]?) kept.accounted.stored
        simp only [List.getElem?_take_of_lt inside, List.getElem?_map,
          List.getElem?_range inside, Option.map_some] at stored
        refine ⟨idle, inside, ?_⟩
        simp [closed, Destructor.closed, stored, List.range_succ]
      · have all : index = life.pool.curThreads := Nat.le_antisymm within (Nat.le_of_not_lt ‹_›)
        exact ⟨idle, Nat.le_refl _, all ▸ closed⟩
  | front =>
      rw [position] at closed
      simp only [PoolLifetime.destructorStep, position] at stepped
      split at stepped <;> cases stepped <;> exact ⟨idle, Nat.le_refl _, closed⟩
  | abort task =>
      rw [position] at closed
      simp only [PoolLifetime.destructorStep, position, Option.some.injEq] at stepped
      subst stepped
      exact ⟨idle, Nat.le_refl _, closed⟩
  | returned => simp [PoolLifetime.destructorStep, position] at stepped

/-- Before the destructor is called no handle is closed. -/
theorem Counted.works (counted : life.Counted) {pool : ThreadPool Task}
    {accepted left executed : List Task} (idle : pool.IdleCounted)
    (owner : life.destructor = .notCalled ∨ pool.curThreads = life.pool.curThreads)
    : ({ life with pool, accepted, left, executed }).Counted := by
  have ⟨_, within, closed⟩ := counted
  rcases owner with notCalled | same
  · rw [notCalled] at closed
    refine ⟨idle, ?_, ?_⟩ <;> simp only [notCalled]
    · exact Nat.zero_le _
    · exact closed
  · rw [← same] at within closed
    exact ⟨idle, within, closed⟩

theorem Counted.step (counted : life.Counted) (kept : life.Kept)
    (stepped : life.step event = some after)
    : after.Counted := by
  cases event with
  | destructor => exact counted.destructorStep kept stepped
  | addTask task =>
      simp only [PoolLifetime.step] at stepped
      split at stepped
      case h_1 position =>
        obtain ⟨pool, called, rfl⟩ := Option.map_eq_some_iff.mp stepped
        obtain ⟨_, rfl⟩ := ThreadPool.call_eq_some called
        exact counted.works counted.idle (Or.inl position)
      all_goals cases stepped
  | addTaskStep =>
      obtain ⟨pool, moved, rfl⟩ := Option.map_eq_some_iff.mp stepped
      have notCalled : life.destructor = .notCalled := by
        by_contra begun
        simp [ThreadPool.addTaskStep, kept.quiet begun] at moved
      exact counted.works (counted.idle.addTaskStep moved) (Or.inl notCalled)
  | threadStep index =>
      obtain ⟨same, _⟩ := step_ofThread_keeps rfl stepped
      obtain ⟨pool, moved, rfl⟩ := Option.map_eq_some_iff.mp stepped
      exact counted.works (counted.idle.threadStep moved) (Or.inr same)
  | executed index =>
      obtain ⟨same, _⟩ := step_ofThread_keeps rfl stepped
      obtain ⟨pool, ended, rfl⟩ := Option.map_eq_some_iff.mp stepped
      exact counted.works (counted.idle.executed ended) (Or.inr same)

end PoolLifetime

-----------------------------------------------------------------------------------------
-- The accounting in every state
-----------------------------------------------------------------------------------------

namespace PoolThreads

variable {state : PoolThreads Task}

/-- The handles lie side by side, each at the index of its thread, and the next index is free. The
counter of idle threads is exact, and may count a thread that `m_nCurThreads` does not count yet.
The destructor waits for all threads and closes their handles in turn.
-/
structure Sound (state : PoolThreads Task) : Prop where
  limit : state.life.pool.curThreads ≤ state.life.pool.maxThreads
  sized : state.life.pool.maxThreads ≤ state.life.pool.threadHandles.length
  stored
    : state.life.pool.threadHandles.take state.place = (List.range state.place).map some
  fresh
    : ∀ index,
        state.creation.index = some index → state.life.pool.threadHandles[index]? = some none
  idle : state.life.pool.idleThreads.toNat = state.life.pool.threads.countP ThreadProc.idle
  positive
    : ∀ index : Nat,
        state.life.pool.threads[index]? = some .decrement
        → 0 < state.life.pool.idleThreads.toNat
  most
    : state.life.pool.idleThreads.toNat
      ≤ state.life.pool.curThreads + state.creation.handle.toList.length
  waits
    : state.life.destructor ≠ .notCalled
      → state.life.pool.threadHandles.take state.life.pool.curThreads
          = (List.range state.life.pool.threads.length).map some
        ∧ (state.life.pool.waitFails → state.life.pool.threads = [])
  joined
    : state.life.destructor.joined = true
      → ∀ thread ∈ state.life.pool.threads, thread = .returned
  closed
    : state.life.closedHandles
      = (List.range (state.life.destructor.closed state.life.pool.threads.length)).map some

theorem creating_start (processors nMaxThreads : Nat)
    : (start processors nMaxThreads : PoolThreads Task).Creating where
  begun := fun begun => absurd rfl begun
  counted := nofun
  fresh := by
    intro index handle _ found
    simp only [start, PoolLifetime.start, ThreadPool.newWith] at found
    split at found <;> exact (List.eq_of_mem_replicate (List.mem_of_getElem? found))

/-- The pool with the statement taken apart settles into a state of the pool without. -/
theorem settled_of_run {processors nMaxThreads : Nat} {events : List (PoolThreadsEvent Task)}
    (few
      : (ThreadPool.newWith processors nMaxThreads : ThreadPool Task).maxThreads
        ≤ maximumWaitObjects)
    (ran : TransitionSystem.run step (start processors nMaxThreads) events = some state)
    : state.Creating
      ∧ TransitionSystem.Reaches PoolLifetime.step (.start processors nMaxThreads)
          state.settled := by
  have matched {now after : PoolThreads Task} {event : PoolThreadsEvent Task}
      (sofar : now.Creating ∧ now.settled.Kept) (stepped : now.step event = some after)
      : (after.Creating ∧ after.settled.Kept)
        ∧ TransitionSystem.Reaches PoolLifetime.step now.settled after.settled := by
    obtain ⟨creating, reached⟩ := step_settled sofar.1 sofar.2 stepped
    have kept : after.settled.Kept := reached.invariant PoolLifetime.Kept.step sofar.2
    exact ⟨⟨creating, kept⟩, reached⟩
  have initial : (start processors nMaxThreads : PoolThreads Task).Creating := creating_start _ _
  obtain ⟨⟨creating, _⟩, reached⟩ :=
    TransitionSystem.Reaches.simulates matched ⟨initial, PoolLifetime.kept_start few⟩ ran
  exact ⟨creating, reached⟩

theorem settled_eq_owned (state : PoolThreads Task)
    : ∃ threadHandles addTask,
        state.settled
          = state.life.owned (state.place + state.creation.handle.toList.length) threadHandles
              addTask
        ∧ threadHandles.length = state.life.pool.threadHandles.length
        ∧ threadHandles.take state.place = state.life.pool.threadHandles.take state.place := by
  rw [settled]
  cases state.creation.handle with
  | none => exact ⟨_, _, rfl, rfl, rfl⟩
  | some handle =>
      exact ⟨_, _, rfl, List.length_set, List.take_set_of_le (Nat.le_refl _)⟩

theorem Creating.place_le (creating : state.Creating)
    : state.place ≤ state.life.pool.curThreads := by
  rw [place]
  cases found : state.creation.index with
  | none => exact Nat.le_refl _
  | some index =>
      rw [creating.counted index found]
      exact Nat.le_succ index

/-- The counter is incremented only where `AddTask` has found room. -/
theorem limit_of_settled (creating : state.Creating) (accounted : state.settled.pool.Accounted)
    : state.life.pool.curThreads ≤ state.life.pool.maxThreads := by
  obtain ⟨life, handle, index⟩ := state
  have limit := accounted.limit
  cases index with
  | none =>
      cases handle with
      | none => exact limit
      | some handle => exact Nat.le_of_succ_le limit
  | some index =>
      have counted : life.pool.curThreads = index + 1 := creating.counted index rfl
      cases handle with
      | none =>
          obtain ⟨position, _⟩ := creating.begun nofun
          have less : index < life.pool.maxThreads := accounted.creates position
          exact Nat.le_trans (Nat.le_of_eq counted) less
      | some handle =>
          have less : index + 1 ≤ life.pool.maxThreads := limit
          exact Nat.le_trans (Nat.le_of_eq counted) less

/-- The destructor is called after the statement, and finds the handles of all threads. -/
theorem waits_of_settled (creating : state.Creating) (kept : state.settled.Kept)
    (called : state.life.destructor ≠ .notCalled)
    : state.life.pool.threadHandles.take state.life.pool.curThreads
        = (List.range state.life.pool.threads.length).map some
      ∧ (state.life.pool.waitFails → state.life.pool.threads = []) := by
  have none : state.creation = .none := by
    by_contra going
    exact called (creating.begun going).2
  rw [settled_of_none none] at kept
  exact ⟨kept.accounted.created ▸ kept.accounted.stored, kept.accounted.waits kept.few⟩

theorem Sound.of_settled (creating : state.Creating) (kept : state.settled.Kept)
    (counted : state.settled.Counted)
    : state.Sound := by
  have limit := limit_of_settled creating kept.accounted
  have waits := waits_of_settled creating kept
  obtain ⟨threadHandles, addTask, settled, length, begins⟩ := settled_eq_owned state
  rw [settled] at kept counted
  have few : state.life.pool.maxThreads ≤ maximumWaitObjects := kept.few
  have created
      : state.place + state.creation.handle.toList.length = state.life.pool.threads.length :=
    kept.accounted.created
  have most : state.life.pool.threads.length ≤ state.life.pool.maxThreads :=
    created ▸ kept.accounted.limit
  have sized : state.life.pool.maxThreads ≤ state.life.pool.threadHandles.length :=
    length ▸ kept.accounted.sized
  have idle
      : state.life.pool.idleThreads.toNat = state.life.pool.threads.countP ThreadProc.idle :=
    counted.idle.exact (Nat.le_trans most few)
  constructor
  case limit => exact limit
  case sized => exact sized
  case idle => exact idle
  case stored =>
    have stored
        : threadHandles.take (state.place + state.creation.handle.toList.length)
          = (List.range (state.place + state.creation.handle.toList.length)).map some :=
      kept.accounted.stored
    have first := congrArg (List.take state.place) stored
    rw [List.take_take, ← List.map_take, List.take_range, Nat.min_eq_left (Nat.le_add_right _ _),
      begins] at first
    exact first
  case fresh =>
    intro index found
    have place : state.place = index := by rw [PoolThreads.place, found, Option.getD_some]
    have inside : index < state.life.pool.threadHandles.length := by
      have counted := creating.counted index found
      omega
    rw [List.getElem?_eq_getElem inside,
      creating.fresh index _ (Nat.le_of_eq place) (List.getElem?_eq_getElem inside)]
  case positive =>
    intro index found
    rw [idle]
    exact List.countP_pos_iff.mpr ⟨_, List.mem_of_getElem? found, rfl⟩
  case most =>
    have counts := @List.countP_le_length _ ThreadProc.idle state.life.pool.threads
    have place : state.place ≤ state.life.pool.curThreads := creating.place_le
    omega
  case waits => exact waits
  case joined => exact kept.joined
  case closed => exact created ▸ counted.closed

/-- The accounting is sound in every state that a run reaches. -/
theorem sound_of_run {processors nMaxThreads : Nat} {events : List (PoolThreadsEvent Task)}
    (few
      : (ThreadPool.newWith processors nMaxThreads : ThreadPool Task).maxThreads
        ≤ maximumWaitObjects)
    (ran : TransitionSystem.run step (start processors nMaxThreads) events = some state)
    : state.Sound := by
  obtain ⟨creating, reached⟩ := settled_of_run few ran
  have both {life after : PoolLifetime Task} {event : PoolEvent Task}
      (sofar : life.Kept ∧ life.Counted) (stepped : life.step event = some after)
      : after.Kept ∧ after.Counted :=
    ⟨sofar.1.step stepped, sofar.2.step sofar.1 stepped⟩
  have settled : state.settled.Kept ∧ state.settled.Counted :=
    @TransitionSystem.Reaches.invariant _ _ _ _ _ (fun life => life.Kept ∧ life.Counted) both
      ⟨PoolLifetime.kept_start few, PoolLifetime.counted_start _ _⟩ reached
  exact .of_settled creating settled.1 settled.2

/-- The created thread waits before `m_nCurThreads` counts it. -/
theorem sound_uncounted
    : ∃ state : PoolThreads Nat,
        state.life.pool.idleThreads = 1 ∧ state.life.pool.curThreads = 0 ∧ state.Sound := by
  let uncounted : List (PoolThreadsEvent Nat) :=
    List.flatten
      [
        [.step (.addTask 1)],
        List.replicate 6 (.step .addTaskStep),
        [.createThread, .step (.threadStep 0)]
      ]
  obtain ⟨state, reached⟩ := Option.isSome_iff_exists.mp
    (by decide +kernel
      : ((TransitionSystem.run step (start 2 1) uncounted).filter
          (fun state =>
            state.life.pool.idleThreads = 1 ∧ state.life.pool.curThreads = 0)).isSome)
  obtain ⟨ran, counters⟩ := Option.filter_eq_some_iff.mp reached
  obtain ⟨idle, cur⟩ := of_decide_eq_true counters
  exact ⟨state, idle, cur, sound_of_run (by decide) ran⟩

end PoolThreads

end SchoolSystem.Server
