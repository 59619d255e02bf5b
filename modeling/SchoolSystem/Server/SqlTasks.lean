import Mathlib.Data.Fintype.Basic
import SchoolSystem.Exchange.Reply

/-! Tasks that share one database connection.
A `MYSQL` handle holds the state of one statement. A task uses it in several calls, and
nothing keeps the calls of different tasks apart.
-/

namespace SchoolSystem.Server

open TcpSocket (Byte)
open Dialog (Text)
open Exchange (Outcome execute sendResByteAry)

/-- Whether a result of the handle is still to be read: it is there for `mysql_use_result`,
or its rows are being fetched.
-/
inductive Reading
  | ready
  | getResult (names : List (List Byte)) (rows : List (List (Option (List Byte))))
  | useResult (rows : List (List (Option (List Byte))))
  deriving DecidableEq, Repr

structure Handle where
  reading : Reading
  affectedRows : Nat
  deriving DecidableEq, Repr

/-- `mysql_affected_rows` for a statement that failed or whose result is not stored:
`(my_ulonglong)-1`.
-/
def noAffectedRows : Nat := 2 ^ 64 - 1

/-- The handle after a statement with this outcome. -/
def Handle.after : Outcome → Handle
  | .failed => ⟨.ready, noAffectedRows⟩
  | .done affectedRows => ⟨.ready, affectedRows⟩
  | .resultSet names rows => ⟨.getResult names rows, noAffectedRows⟩

/-- `mysql_use_result`, with the names of the result set unless it returns NULL. -/
def Handle.useResult (handle : Handle) : Handle × Option (List (List Byte)) :=
  match handle.reading with
  | .getResult names rows => ({ handle with reading := .useResult rows }, some names)
  | .ready | .useResult _ => (handle, none)

/-- `mysql_fetch_row`: after the last row it returns NULL, and the result is read. -/
def Handle.fetchRow (handle : Handle) : Handle × Option (List (Option (List Byte))) :=
  match handle.reading with
  | .useResult (row :: rows) => ({ handle with reading := .useResult rows }, some row)
  | .useResult [] => ({ handle with reading := .ready }, none)
  | .ready | .getResult _ _ => (handle, none)

/-- What a task queues for its client, by the buffers it passes to `Send`, or nothing where
`SendResByteAry` is undefined.
-/
abbrev Sends := Option (List (List Byte))

/-- Where a task is in `Execute`. -/
inductive Phase
  | queued
  | queried
  | used (names : Option (List (List Byte)))
  | fetching (names : List (List Byte)) (rows : List (List (Option (List Byte))))
  | finished (reply : Sends)
  deriving DecidableEq, Repr

/-- Between a task's `mysql_query` and its last call. -/
def Phase.Active : Phase → Prop
  | .queued | .finished _ => False
  | .queried | .used _ | .fetching _ _ => True

instance : DecidablePred Phase.Active
  | .queued => isFalse not_false
  | .queried => isTrue trivial
  | .used _ => isTrue trivial
  | .fetching _ _ => isTrue trivial
  | .finished _ => isFalse not_false

variable {Database Task : Type} [DecidableEq Task]

/-- The database, the handle of the one `CMysql`, and the tasks. -/
structure Tasks (Database Task : Type) where
  database : Database
  handle : Handle
  phase : Task → Phase

/-- Each event is one call of a task to libmysql. -/
inductive Event (Task : Type)
  | query (task : Task)
  | useResult (task : Task)
  | affectedRows (task : Task)
  | fetchRow (task : Task)
  deriving DecidableEq, Repr

namespace Tasks

def new (database : Database) : Tasks Database Task where
  database := database
  handle := ⟨.ready, 0⟩
  phase := fun _ => .queued

def setPhase (tasks : Tasks Database Task) (task : Task) (phase : Phase) : Tasks Database Task :=
  { tasks with phase := Function.update tasks.phase task phase }

variable (exec : Database → Text → Database × Outcome) (sql : Task → Text)

/-- `mysql_query`: it fails while a result of the handle is still to be read. A task whose
query failed has no result set, and queues -1.
-/
def query (tasks : Tasks Database Task) (task : Task) : Tasks Database Task :=
  match tasks.handle.reading with
  | .ready =>
      let (database, outcome) := exec tasks.database (sql task)
      let next := { tasks with database := database, handle := Handle.after outcome }
      match outcome with
      | .failed => next.setPhase task (.finished (execute .failed))
      | .done _ | .resultSet _ _ => next.setPhase task .queried
  | .getResult _ _ | .useResult _ => tasks.setPhase task (.finished (execute .failed))

/-- One call: `mysql_query`, `mysql_use_result` and `mysql_affected_rows` in `CMysql::Query`,
then `mysql_fetch_row` in `SendResByteAry` if there is a result set.
-/
def step (tasks : Tasks Database Task) : Event Task → Option (Tasks Database Task)
  | .query task =>
      match tasks.phase task with
      | .queued => some (tasks.query exec sql task)
      | .queried | .used _ | .fetching _ _ | .finished _ => none
  | .useResult task =>
      match tasks.phase task with
      | .queried =>
          let (handle, names) := tasks.handle.useResult
          some ({ tasks with handle := handle }.setPhase task (.used names))
      | .queued | .used _ | .fetching _ _ | .finished _ => none
  | .affectedRows task =>
      match tasks.phase task with
      | .used none =>
          some (tasks.setPhase task (.finished (execute (.done tasks.handle.affectedRows))))
      | .used (some names) => some (tasks.setPhase task (.fetching names []))
      | .queued | .queried | .fetching _ _ | .finished _ => none
  | .fetchRow task =>
      match tasks.phase task with
      | .fetching names rows =>
          let (handle, row) := tasks.handle.fetchRow
          let next := { tasks with handle := handle }
          match row with
          | some row => some (next.setPhase task (.fetching names (rows ++ [row])))
          | none => some (next.setPhase task (.finished (sendResByteAry names rows)))
      | .queued | .queried | .used _ | .finished _ => none

-----------------------------------------------------------------------------------------
-- Serial execution
-----------------------------------------------------------------------------------------

/-- The replies when the tasks execute one after the other. -/
def serialReplies (database : Database) : List Task → List (Task × Sends)
  | [] => []
  | task :: rest =>
      let (next, outcome) := exec database (sql task)
      (task, execute outcome) :: serialReplies next rest

def serialDatabase (database : Database) (order : List Task) : Database :=
  order.foldl (fun database task => (exec database (sql task)).1) database

/-- The tasks that have begun are those of one serial execution, which leaves the database as
it is, and every reply is the one that its task has there.
-/
structure SerialIn (database : Database) (order : List Task) (tasks : Tasks Database Task)
    : Prop where
  nodup : order.Nodup
  begun : ∀ task, task ∈ order ↔ tasks.phase task ≠ .queued
  left : tasks.database = serialDatabase exec sql database order
  replies
    : ∀ task reply,
        tasks.phase task = .finished reply
        → (task, reply) ∈ serialReplies exec sql database order

def Serial (database : Database) (tasks : Tasks Database Task) : Prop :=
  ∃ order, SerialIn exec sql database order tasks

/-- A task calls `mysql_query` only while no other one is between its `mysql_query` and its
last call.
-/
def Alone (tasks : Tasks Database Task) : Event Task → Prop
  | .query task => ∀ other, other ≠ task → ¬ (tasks.phase other).Active
  | .useResult _ | .affectedRows _ | .fetchRow _ => True

instance [Fintype Task] (tasks : Tasks Database Task) (event : Event Task)
    : Decidable (Alone tasks event) :=
  match event with
  | .query task =>
      inferInstanceAs (Decidable (∀ other, other ≠ task → ¬ (tasks.phase other).Active))
  | .useResult _ => isTrue trivial
  | .affectedRows _ => isTrue trivial
  | .fetchRow _ => isTrue trivial

-----------------------------------------------------------------------------------------
-- Tasks that do not overlap
-----------------------------------------------------------------------------------------

variable {exec sql}

omit [DecidableEq Task] in
theorem serialReplies_concat (database : Database) (order : List Task) (task : Task)
    : serialReplies exec sql database (order ++ [task])
      = serialReplies exec sql database order
        ++ [(task, execute (exec (serialDatabase exec sql database order) (sql task)).2)] := by
  induction order generalizing database with
  | nil => rfl
  | cons head rest ih =>
      simp only [List.cons_append, serialReplies, ih]
      rfl

omit [DecidableEq Task] in
theorem mem_serialReplies_concat (database : Database) (order : List Task) (task : Task)
    : (task, execute (exec (serialDatabase exec sql database order) (sql task)).2)
      ∈ serialReplies exec sql database (order ++ [task]) := by
  rw [serialReplies_concat]
  exact List.mem_append_right _ (List.mem_singleton_self _)

omit [DecidableEq Task] in
theorem serialDatabase_concat (database : Database) (order : List Task) (task : Task)
    : serialDatabase exec sql database (order ++ [task])
      = (exec (serialDatabase exec sql database order) (sql task)).1 := by
  rw [serialDatabase, List.foldl_append]
  rfl

/-- How the handle, and what a task has read so far, come from its statement's outcome. -/
def Reads (handle : Handle) (outcome : Outcome) : Phase → Prop
  | .queried => handle = Handle.after outcome ∧ outcome ≠ .failed
  | .used none => ∃ affectedRows, outcome = .done affectedRows ∧ handle = Handle.after outcome
  | .used (some names) =>
      ∃ rows, outcome = .resultSet names rows ∧ handle.reading = .useResult rows
  | .fetching names read =>
      ∃ rows, outcome = .resultSet names (read ++ rows) ∧ handle.reading = .useResult rows
  | .queued | .finished _ => False

theorem Reads.active {handle : Handle} {outcome : Outcome} {phase : Phase}
    (reads : Reads handle outcome phase)
    : phase.Active := by
  cases phase with
  | queued => exact reads
  | finished reply => exact reads
  | queried => trivial
  | used names => trivial
  | fetching names rows => trivial

variable (exec sql) in
/-- At most the last task of the serial execution is still at work, with the handle to
itself.
-/
inductive Last (database : Database) (order : List Task) (tasks : Tasks Database Task) : Prop
  | idle (ready : tasks.handle.reading = .ready) (others : ∀ task, ¬ (tasks.phase task).Active)
  | active (task : Task) (before : List Task) (split : order = before ++ [task])
    (reads
      : Reads tasks.handle (exec (serialDatabase exec sql database before) (sql task)).2
          (tasks.phase task))
    (others : ∀ other, other ≠ task → ¬ (tasks.phase other).Active)

@[simp]
theorem setPhase_self (tasks : Tasks Database Task) (task : Task) (phase : Phase)
    : (tasks.setPhase task phase).phase task = phase := by
  simp [setPhase]

theorem setPhase_other (tasks : Tasks Database Task) {task other : Task} (ne : other ≠ task)
    (phase : Phase)
    : (tasks.setPhase task phase).phase other = tasks.phase other := by
  simp [setPhase, ne]

section Steps

variable {database : Database} {order before : List Task} {tasks : Tasks Database Task}
  {task : Task} {phase : Phase}

omit [DecidableEq Task] in
/-- A task that can query alone finds the handle ready. -/
theorem Last.ready (last : Last exec sql database order tasks)
    (queued : tasks.phase task = .queued)
    (alone : ∀ other, other ≠ task → ¬ (tasks.phase other).Active)
    : tasks.handle.reading = .ready := by
  cases last with
  | idle ready _ => exact ready
  | active worker before split reads _ =>
      by_cases same : worker = task
      · rw [same, queued] at reads
        exact False.elim reads
      · exact False.elim (alone worker same reads.active)

omit [DecidableEq Task] in
/-- Only the last task is at work. -/
theorem Last.acting (last : Last exec sql database order tasks)
    (active : (tasks.phase task).Active)
    : ∃ before,
        order = before ++ [task]
        ∧ Reads tasks.handle (exec (serialDatabase exec sql database before) (sql task)).2
            (tasks.phase task)
        ∧ ∀ other, other ≠ task → ¬ (tasks.phase other).Active := by
  cases last with
  | idle _ others => exact False.elim (others task active)
  | active worker before split reads others =>
      by_cases same : task = worker
      · subst same
        exact ⟨before, split, reads, others⟩
      · exact False.elim (others task same active)

/-- A task's query puts it at the end of the serial execution. -/
theorem SerialIn.begin (serial : SerialIn exec sql database order tasks)
    (queued : tasks.phase task = .queued) (begun : phase ≠ .queued) (handle : Handle)
    (reply
      : ∀ reply,
          phase = .finished reply → reply = execute (exec tasks.database (sql task)).2)
    : SerialIn exec sql database (order ++ [task])
        (setPhase
          { tasks with database := (exec tasks.database (sql task)).1, handle := handle }
          task phase) := by
  have new : task ∉ order := fun member => (serial.begun task).mp member queued
  constructor
  · exact List.nodup_append.mpr ⟨serial.nodup, List.nodup_singleton task, by grind⟩
  · intro other
    by_cases same : other = task
    · subst same
      simp [begun]
    · rw [setPhase_other _ same]
      simp [same, serial.begun other]
  · rw [serialDatabase_concat, ← serial.left]
    rfl
  · intro other sends finished
    by_cases same : other = task
    · subst same
      rw [setPhase_self] at finished
      rw [reply sends finished, serial.left]
      exact mem_serialReplies_concat database order other
    · rw [setPhase_other _ same] at finished
      rw [serialReplies_concat]
      exact List.mem_append_left _ (serial.replies other sends finished)

/-- A later call leaves the serial execution as it is. -/
theorem SerialIn.advance (serial : SerialIn exec sql database (before ++ [task]) tasks)
    (begun : phase ≠ .queued) (handle : Handle)
    (reply
      : ∀ reply,
          phase = .finished reply
          → reply = execute (exec (serialDatabase exec sql database before) (sql task)).2)
    : SerialIn exec sql database (before ++ [task])
        (setPhase { tasks with handle := handle } task phase) := by
  have member : task ∈ before ++ [task] := List.mem_append_right _ (List.mem_singleton_self _)
  constructor
  · exact serial.nodup
  · intro other
    by_cases same : other = task
    · subst same
      simp [begun]
    · rw [setPhase_other _ same]
      exact serial.begun other
  · exact serial.left
  · intro other sends finished
    by_cases same : other = task
    · subst same
      rw [setPhase_self] at finished
      rw [reply sends finished]
      exact mem_serialReplies_concat database before other
    · rw [setPhase_other _ same] at finished
      exact serial.replies other sends finished

/-- The last task goes on reading. -/
theorem Last.keep {next : Tasks Database Task}
    (others : ∀ other, other ≠ task → ¬ (next.phase other).Active)
    (reads
      : Reads next.handle (exec (serialDatabase exec sql database before) (sql task)).2 phase)
    : Last exec sql database (before ++ [task]) (next.setPhase task phase) := by
  apply Last.active task before rfl
  · rw [setPhase_self]
    exact reads
  · intro other ne
    rw [setPhase_other _ ne]
    exact others other ne

/-- The last task has queued its reply. -/
theorem Last.finish {next : Tasks Database Task} (ready : next.handle.reading = .ready)
    (others : ∀ other, other ≠ task → ¬ (next.phase other).Active) (reply : Sends)
    : Last exec sql database order (next.setPhase task (.finished reply)) := by
  apply Last.idle
  · exact ready
  · intro other
    by_cases same : other = task
    · subst same
      rw [setPhase_self]
      exact not_false
    · rw [setPhase_other _ same]
      exact others other same

end Steps

/-- What holds at each step of a run of tasks that do not overlap. -/
def Serving (exec : Database → Text → Database × Outcome) (sql : Task → Text)
    (database : Database) (tasks : Tasks Database Task) : Prop :=
  ∃ order, SerialIn exec sql database order tasks ∧ Last exec sql database order tasks

/-- `mysql_query` with the handle ready. -/
theorem query_ready {tasks : Tasks Database Task} (ready : tasks.handle.reading = .ready)
    (task : Task)
    : tasks.query exec sql task
      = setPhase
          { tasks with
            database := (exec tasks.database (sql task)).1
            handle := Handle.after (exec tasks.database (sql task)).2 }
          task
          (if (exec tasks.database (sql task)).2 = .failed then .finished (execute .failed)
            else .queried) := by
  cases outcome : (exec tasks.database (sql task)).2 <;>
    simp [Tasks.query, ready, outcome]

theorem Serving.query {database : Database} {tasks : Tasks Database Task} {task : Task}
    (serving : Serving exec sql database tasks) (queued : tasks.phase task = .queued)
    (alone : ∀ other, other ≠ task → ¬ (tasks.phase other).Active)
    : Serving exec sql database (tasks.query exec sql task) := by
  obtain ⟨order, serial, last⟩ := serving
  rw [query_ready (last.ready queued alone)]
  refine ⟨order ++ [task], ?_⟩
  by_cases failed : (exec tasks.database (sql task)).2 = .failed
  · rw [if_pos failed]
    constructor
    · apply serial.begin queued (by simp)
      rintro reply ⟨⟩
      rw [failed]
    · apply Last.finish
      · simp only [failed]
        rfl
      · exact alone
  · rw [if_neg failed]
    constructor
    · exact serial.begin queued (by simp) _ (by simp)
    · apply Last.keep
      · exact alone
      · rw [← serial.left]
        exact ⟨rfl, failed⟩

section Calls

variable {database : Database} {before : List Task} {tasks next : Tasks Database Task}
  {task : Task} {handle : Handle}

/-- A call after which the task is still at work. -/
theorem Serving.proceed {phase : Phase}
    (serial : SerialIn exec sql database (before ++ [task]) tasks)
    (others : ∀ other, other ≠ task → ¬ (tasks.phase other).Active)
    (reads
      : Reads handle (exec (serialDatabase exec sql database before) (sql task)).2 phase)
    : Serving exec sql database (setPhase { tasks with handle := handle } task phase) := by
  refine ⟨before ++ [task], ?_, ?_⟩
  · apply serial.advance
    · rintro rfl
      exact reads
    · rintro reply rfl
      exact False.elim reads
  · exact Last.keep others reads

/-- The call after which the task queues its reply. -/
theorem Serving.reply {reply : Sends}
    (serial : SerialIn exec sql database (before ++ [task]) tasks)
    (others : ∀ other, other ≠ task → ¬ (tasks.phase other).Active)
    (ready : handle.reading = .ready)
    (same : reply = execute (exec (serialDatabase exec sql database before) (sql task)).2)
    : Serving exec sql database
        (setPhase { tasks with handle := handle } task (.finished reply)) := by
  refine ⟨before ++ [task], ?_, ?_⟩
  · apply serial.advance
    · simp
    · rintro _ ⟨⟩
      exact same
  · apply Last.finish
    · exact ready
    · exact others

theorem Serving.useResult (serving : Serving exec sql database tasks)
    (stepped : step exec sql tasks (.useResult task) = some next)
    : Serving exec sql database next := by
  obtain ⟨order, serial, last⟩ := serving
  cases phase : tasks.phase task with
  | queried =>
      obtain ⟨before, rfl, reads, others⟩ := last.acting (by rw [phase]; trivial)
      rw [phase] at reads
      obtain ⟨left, done⟩ := reads
      simp only [step, phase, Option.some.injEq] at stepped
      subst stepped
      apply Serving.proceed serial others
      cases outcome : (exec (serialDatabase exec sql database before) (sql task)).2 with
      | failed => exact False.elim (done outcome)
      | done affectedRows =>
          rw [left, outcome]
          exact ⟨affectedRows, rfl, rfl⟩
      | resultSet names rows =>
          rw [left, outcome]
          exact ⟨rows, rfl, rfl⟩
  | queued | used _ | fetching _ _ | finished _ => simp [step, phase] at stepped

theorem Serving.affectedRows (serving : Serving exec sql database tasks)
    (stepped : step exec sql tasks (.affectedRows task) = some next)
    : Serving exec sql database next := by
  obtain ⟨order, serial, last⟩ := serving
  cases phase : tasks.phase task with
  | used names =>
      obtain ⟨before, rfl, reads, others⟩ := last.acting (by rw [phase]; trivial)
      rw [phase] at reads
      cases names with
      | none =>
          obtain ⟨affectedRows, outcome, left⟩ := reads
          simp only [step, phase, Option.some.injEq] at stepped
          subst stepped
          apply Serving.reply serial others
          · rw [left, outcome]
            rfl
          · rw [left, outcome]
            rfl
      | some names =>
          obtain ⟨rows, outcome, reading⟩ := reads
          simp only [step, phase, Option.some.injEq] at stepped
          subst stepped
          apply Serving.proceed serial others
          exact ⟨rows, outcome, reading⟩
  | queued | queried | fetching _ _ | finished _ => simp [step, phase] at stepped

theorem Serving.fetchRow (serving : Serving exec sql database tasks)
    (stepped : step exec sql tasks (.fetchRow task) = some next)
    : Serving exec sql database next := by
  obtain ⟨order, serial, last⟩ := serving
  cases phase : tasks.phase task with
  | fetching names read =>
      obtain ⟨before, rfl, reads, others⟩ := last.acting (by rw [phase]; trivial)
      rw [phase] at reads
      obtain ⟨rows, outcome, reading⟩ := reads
      cases rows with
      | nil =>
          simp only [step, phase, Handle.fetchRow, reading, Option.some.injEq] at stepped
          subst stepped
          apply Serving.reply serial others rfl
          rw [outcome, List.append_nil]
          rfl
      | cons row rows =>
          simp only [step, phase, Handle.fetchRow, reading, Option.some.injEq] at stepped
          subst stepped
          apply Serving.proceed serial others
          refine ⟨rows, ?_, rfl⟩
          rw [outcome, List.append_assoc]
          rfl
  | queued | queried | used _ | finished _ => simp [step, phase] at stepped

end Calls

omit [DecidableEq Task] in
/-- The first calls find the handle as `mysql_init` leaves it. -/
theorem serving_new (database : Database)
    : Serving exec sql database (new database : Tasks Database Task) := by
  refine ⟨[], ?_, ?_⟩
  · constructor
    · exact List.nodup_nil
    · simp [new]
    · rfl
    · rintro task reply ⟨⟩
  · apply Last.idle
    · rfl
    · exact fun _ => not_false

theorem Serving.step {database : Database} {tasks next : Tasks Database Task}
    {event : Event Task} (serving : Serving exec sql database tasks)
    (alone : Alone tasks event) (stepped : Tasks.step exec sql tasks event = some next)
    : Serving exec sql database next := by
  cases event with
  | query task =>
      cases phase : tasks.phase task with
      | queued =>
          simp only [Tasks.step, phase, Option.some.injEq] at stepped
          subst stepped
          exact serving.query phase alone
      | queried | used _ | fetching _ _ | finished _ => simp [Tasks.step, phase] at stepped
  | useResult task => exact serving.useResult stepped
  | affectedRows task => exact serving.affectedRows stepped
  | fetchRow task => exact serving.fetchRow stepped

variable (exec sql) in
/-- Tasks whose calls do not overlap reply as in a serial execution, at every point of a run.
-/
theorem serial_of_alone (database : Database) (events : List (Event Task))
    {final : Tasks Database Task}
    (along : TransitionSystem.Along (step exec sql) Alone (new database) events)
    (ran : TransitionSystem.run (step exec sql) (new database) events = some final)
    : Serial exec sql database final := by
  obtain ⟨order, serial, _⟩ := TransitionSystem.run_invariant_along
    Serving.step (serving_new database) along ran
  exact ⟨order, serial⟩

omit [DecidableEq Task] in
/-- In a serial execution each reply is the one for the task's own statement. -/
theorem outcome_of_mem_serialReplies {database : Database} {order : List Task} {task : Task}
    {reply : Sends} (member : (task, reply) ∈ serialReplies exec sql database order)
    : ∃ before,
        reply = execute (exec (serialDatabase exec sql database before) (sql task)).2 := by
  induction order generalizing database with
  | nil => cases member
  | cons head rest ih =>
      rcases List.mem_cons.mp member with same | later
      · obtain ⟨rfl, rfl⟩ := Prod.mk.inj same
        exact ⟨[], rfl⟩
      · obtain ⟨before, same⟩ := ih later
        exact ⟨head :: before, same⟩

/-- An empty `t_student`, and a `t_class` that takes one more row. -/
def noStudents (_ : Unit) (sql : Text) : Unit × Outcome :=
  if sql = (Dialog.tabSql .student).toList then
    ((), .resultSet [[115, 116, 117, 95, 105, 100]] [])
  else
    ((), .done 1)

/-- One client inserts a class, another one selects the tab of the students. -/
def insertOrSelect : Bool → Text
  | false => Exchange.Request.sql (.call (.insert (.clazz ⟨['1'], ['A']⟩)))
  | true => Exchange.Request.sql (.tabChange .student)

/-- The second client waits for the first one's reply. -/
def oneByOne : List (Event Bool) :=
  [.query false, .useResult false, .affectedRows false,
    .query true, .useResult true, .affectedRows true, .fetchRow true]

theorem serial_oneByOne
    : ∃ final,
        TransitionSystem.run (step noStudents insertOrSelect) (new ()) oneByOne = some final
        ∧ Serial noStudents insertOrSelect () final := by
  obtain ⟨final, ran⟩ := Option.isSome_iff_exists.mp
    (by decide +kernel
      : (TransitionSystem.run (step noStudents insertOrSelect) (new ()) oneByOne).isSome)
  exact ⟨final, ran, serial_of_alone _ _ () oneByOne (by decide +kernel) ran⟩

/-- The second client queries before the first one's task asks for its result. -/
def overlapping : List (Event Bool) :=
  [.query false, .query true, .useResult false, .affectedRows false, .fetchRow false]

theorem serial_not_always
    : ¬ ∀ (events : List (Event Bool)) (final : Tasks Unit Bool),
        TransitionSystem.run (step noStudents insertOrSelect) (new ()) events = some final
        → Serial noStudents insertOrSelect () final := by
  intro always
  obtain ⟨final, ran, finished⟩ := Option.map_eq_some_iff.mp
    (by decide +kernel
      : (TransitionSystem.run (step noStudents insertOrSelect) (new ()) overlapping).map
          (fun tasks => tasks.phase false)
        = some (.finished (execute (noStudents () (insertOrSelect true)).2)))
  obtain ⟨order, serial⟩ := always overlapping final ran
  -- the insert replies with the rows of the other client's statement
  obtain ⟨before, same⟩ := outcome_of_mem_serialReplies (serial.replies false _ finished)
  have equal : execute (noStudents () (insertOrSelect true)).2
      = execute (noStudents () (insertOrSelect false)).2 := same
  exact absurd equal (by decide +kernel)

end Tasks

end SchoolSystem.Server
