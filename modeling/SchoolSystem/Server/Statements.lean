import SchoolSystem.Exchange.Framing
import SchoolSystem.Server.Reading
import SchoolSystem.Server.Standstill

/-! The statements of one client on the running server: the main loop reads the client's messages
one after the other as long as each of its size checks finds the whole field, and what the pool
executes follows what was read.
-/

namespace SchoolSystem.Server

open TcpSocket
open Exchange (Ahead Position)
open TransitionSystem (run trace Along)

open scoped List

variable {Addr Seq : Type} [DecidableEq Addr]

/-- The main loop is in a `Recv` of this client after its first size check, or after the first
`Recv`.
-/
def MainLoop.inside (addr : Addr) : MainLoop Addr → Bool
  | .readLen turn _ | .recvBuf turn _ | .readBuf turn _ => turn.key = addr
  | .select | .found _ | .recvLen _ | .addTask _ _ | .adding => false

/-- Which field of a client's messages the main loop is at. -/
def MainLoop.position (addr : Addr) : MainLoop Addr → Position
  | .recvBuf turn _ | .readBuf turn _ => if turn.key = addr then .body else .length
  | .select | .found _ | .recvLen _ | .readLen _ _ | .addTask _ _ | .adding => .length

/-- The `nBufLen` of this client's `Recv` whose size check is next. -/
def MainLoop.asks (addr : Addr) : MainLoop Addr → Option Int
  | .recvLen turn => if turn.key = addr then some 4 else none
  | .recvBuf turn nLen => if turn.key = addr then some nLen.toInt else none
  | .select | .found _ | .readLen _ _ | .readBuf _ _ | .addTask _ _ | .adding => none

theorem MainLoop.position_outside {addr : Addr} {mainLoop : MainLoop Addr}
    (outside : mainLoop.inside addr = false)
    : mainLoop.position addr = .length := by
  cases mainLoop with
  | recvBuf | readBuf => exact if_neg (of_decide_eq_false outside)
  | select | found | recvLen | readLen | addTask | adding => rfl

/-- The text of a client that the main loop is about to pass to `AddTask`. -/
def MainLoop.text (addr : Addr) : MainLoop Addr → List (List Byte)
  | .addTask turn sql => if turn.key = addr then [sql] else []
  | .select | .found _ | .recvLen _ | .readLen _ _ | .recvBuf _ _ | .readBuf _ _ | .adding => []

/-- A task of this client whose query is still to come. -/
def SqlTask.asks (addr : Addr) (task : SqlTask Addr) : Bool :=
  decide (task.turn.key = addr ∧ task.execute = .query)

/-- The texts of a client's tasks whose queries are still to come. -/
def asked (addr : Addr) (tasks : List (SqlTask Addr)) : List (List Byte) :=
  (tasks.filter (SqlTask.asks addr)).map SqlTask.sql

namespace Service

/-- The texts of a client that have been read and not been executed. -/
def unexecuted (service : Service Addr Seq) (addr : Addr) : List (List Byte) :=
  service.mainLoop.text addr ++ asked addr service.pool.tasks

/-- The text of a client that an event reads. -/
def textRead (addr : Addr) (service : Service Addr Seq) : Event Addr Seq → List (List Byte)
  | .mainLoop =>
      match service.mainLoop with
      | .readBuf turn nReadLen =>
          if turn.key = addr then
            [Exchange.taskSql ((service.conn addr).byteStream.take nReadLen.toNat)]
          else
            []
      | .select | .found _ | .recvLen _ | .readLen _ _ | .recvBuf _ _ | .addTask _ _
      | .adding => []
  | .arrive _ _ | .recvThread | .select _ | .addTask | .thread _ | .query _ _ | .execute _
  | .transmit _ _ => []

/-- The text of a client that an event executes. -/
def executes (addr : Addr) (service : Service Addr Seq) : Event Addr Seq → List (List Byte)
  | .query index _ =>
      match service.pool.executing index with
      | some task => asked addr [task]
      | none => []
  | .arrive _ _ | .recvThread | .select _ | .mainLoop | .addTask | .thread _ | .execute _
  | .transmit _ _ => []

variable {service next : Service Addr Seq} {addr : Addr} {task : SqlTask Addr} {index : Nat}

-----------------------------------------------------------------------------------------
-- From reading to executing
-----------------------------------------------------------------------------------------

theorem asked_perm {tasks others : List (SqlTask Addr)} (perm : tasks ~ others)
    : asked addr tasks ~ asked addr others :=
  (perm.filter _).map _

theorem asked_append (tasks more : List (SqlTask Addr))
    : asked addr (tasks ++ more) = asked addr tasks ++ asked addr more := by
  simp [asked]

/-- What is asked is in progress. -/
theorem unexecuted_length (service : Service Addr Seq) (addr : Addr)
    : (service.unexecuted addr).length ≤ service.requests addr := by
  have text : (service.mainLoop.text addr).length
      ≤ (service.mainLoop.turns.map Turns.Turn.key).count addr := by
    cases service.mainLoop with
    | addTask turn sql =>
        by_cases same : turn.key = addr <;> simp [MainLoop.text, MainLoop.turns, same]
    | select | found | recvLen | readLen | recvBuf | readBuf | adding => exact Nat.zero_le _
  have tasks (tasks : List (SqlTask Addr))
      : (asked addr tasks).length ≤ ((taskTurns tasks).map Turns.Turn.key).count addr := by
    induction tasks with
    | nil => exact Nat.zero_le _
    | cons task rest ih =>
        have split := @taskTurns_append Addr [task] rest
        have splitAsked := @asked_append Addr _ addr [task] rest
        rw [List.singleton_append] at split splitAsked
        have one : (asked addr [task]).length
            ≤ ((taskTurns [task]).map Turns.Turn.key).count addr := by
          by_cases asks : task.turn.key = addr ∧ task.execute = .query
          · simp [asked, SqlTask.asks, taskTurns, SqlTask.inProgress, asks]
          · simp [asked, SqlTask.asks, asks]
        rw [split, splitAsked, List.length_append, List.map_append, List.count_append]
        omega
  rw [unexecuted, requests, inProgress, List.length_append, List.map_append, List.count_append]
  exact Nat.add_le_add text (tasks service.pool.tasks)

/-- A task that goes on exchanges what it asks for what it asks then. -/
theorem asked_setTask (executing : service.pool.executing index = some task)
    (new : SqlTask Addr)
    : asked addr [task] ++ asked addr (service.setTask index new).pool.tasks
      ~ asked addr [new] ++ asked addr service.pool.tasks := by
  rw [← asked_append, ← asked_append]
  exact asked_perm
    (service.pool.setThread_tasks (.execute new) (ThreadPool.executing_eq_some.mp executing))

/-- What an event reads is yet to be executed, and what it executes was. -/
def Accounts (addr : Addr) (service : Service Addr Seq) (event : Event Addr Seq)
    (next : Service Addr Seq)
    : Prop :=
  service.executes addr event ++ next.unexecuted addr
  ~ service.unexecuted addr ++ service.textRead addr event

theorem Accounts.still {event : Event Addr Seq} (mainLoop : next.mainLoop = service.mainLoop)
    (tasks : asked addr next.pool.tasks ~ asked addr service.pool.tasks)
    (executes : service.executes addr event = []) (read : service.textRead addr event = [])
    : Accounts addr service event next := by
  rw [Accounts, executes, read, List.append_nil, List.nil_append, unexecuted, unexecuted, mainLoop]
  exact tasks.append_left _

/-- The main loop passes on what it reads. -/
theorem mainLoopStep_accounts (stepped : service.mainLoopStep = some next)
    : Accounts addr service .mainLoop next := by
  cases mainLoopStep_move stepped with
  | readBuf turn nReadLen sql position _ _ text =>
      by_cases same : turn.key = addr
      · subst same
        simpa [Accounts, executes, unexecuted, textRead, position, MainLoop.text, Service.read,
          setConn, text] using (@List.perm_append_comm _ [_] (asked turn.key _))
      · simp [Accounts, executes, unexecuted, textRead, position, MainLoop.text, Service.read,
          setConn, same]
  | take _ position | recvLen _ _ position | readLen _ _ _ position | recvBuf _ _ _ position
  | added position =>
      have read : service.textRead addr .mainLoop = [] := by simp only [textRead, position]
      rw [Accounts, read, executes, unexecuted, unexecuted, position]
      simp [MainLoop.text, Service.read, setConn]
  | addTask turn sql pool position called =>
      have read : service.textRead addr .mainLoop = [] := by simp only [textRead, position]
      have tasks := ThreadPool.call_tasks called
      rw [Accounts, read, executes, unexecuted, unexecuted, position, tasks]
      by_cases same : turn.key = addr <;> simp [MainLoop.text, asked, SqlTask.asks, same]

theorem query_accounts {outcome : Exchange.Outcome}
    (stepped : service.query index outcome = some next)
    : Accounts addr service (.query index outcome) next := by
  obtain ⟨task, bufs, executing, execute, rfl⟩ := query_move stepped
  have exchanged := @asked_setTask _ _ _ service addr task index executing
    { task with execute := .send bufs }
  have done : asked addr [{ task with execute := .send bufs }] = [] := by
    simp [asked, SqlTask.asks]
  rw [done, List.nil_append] at exchanged
  rw [Accounts, unexecuted, unexecuted, textRead, List.append_nil]
  simp only [executes, executing]
  exact (List.perm_append_comm_assoc _ _ _).trans (exchanged.append_left _)

/-- After its query a task asks for nothing more. -/
theorem executeStep_accounts [Add Seq] [OfNat Seq 1]
    (stepped : service.executeStep index = some next)
    : Accounts addr service (.execute index) next := by
  have goesOn {service : Service Addr Seq} {task : SqlTask Addr} {execute : Execute}
      (executing : service.pool.executing index = some task) (asked : task.execute ≠ .query)
      (asks : execute ≠ .query)
      : Server.asked addr (service.setTask index { task with execute := execute }).pool.tasks
        ~ Server.asked addr service.pool.tasks := by
    have exchanged := @asked_setTask _ _ _ service addr task index executing
      { task with execute := execute }
    have before : Server.asked addr [task] = [] := by simp [Server.asked, SqlTask.asks, asked]
    have after : Server.asked addr [{ task with execute := execute }] = [] := by
      simp [Server.asked, SqlTask.asks, asks]
    rwa [before, after] at exchanged
  cases executeStep_move stepped with
  | send task buf rest executing execute | sent task executing execute
  | getSize task status executing execute | lock task executing execute
  | store task status executing execute | unlock task executing execute =>
      exact .still rfl (goesOn executing (by rw [execute]; simp) (by simp)) rfl rfl
  | returned task pool executing execute executed =>
      obtain ⟨ended, same, tasks⟩ := ThreadPool.executed_tasks executed
      obtain rfl := Option.some.inj (same.symm.trans executing)
      have none : asked addr [ended] = [] := by simp [asked, SqlTask.asks, execute]
      have split := @asked_perm _ _ addr _ _ tasks
      rw [← List.singleton_append, asked_append, none] at split
      exact .still rfl split.symm rfl rfl

section Steps

variable [Add Seq] [OfNat Seq 0] [OfNat Seq 1] [DecidableEq Seq] [LT Seq] [DecidableLT Seq]
  {event : Event Addr Seq}

/-- No text is lost or invented on its way to the database, unless `AddTask` refuses its task. -/
theorem step_accounts (room : service.HasRoom event) (stepped : service.step event = some next)
    : Accounts addr service event next := by
  cases event with
  | arrive fromAddr packet =>
      cases (arrive_move stepped).2 with
      | write | hold | ignore | handle => exact .still rfl (List.Perm.refl _) rfl rfl
  | recvThread =>
      cases recvThreadStep_move stepped with
      | write | push | written | lock | noData | someData | store | unlock | next | drained =>
          exact .still rfl (List.Perm.refl _) rfl rfl
  | select other =>
      rcases select_move stepped with rfl | ⟨position, _, rfl⟩
      · exact .still rfl (List.Perm.refl _) rfl rfl
      · rw [Accounts, unexecuted, unexecuted, position]
        exact List.Perm.of_eq (List.append_nil _).symm
  | mainLoop => exact mainLoopStep_accounts stepped
  | addTask =>
      obtain ⟨pool, moved, rfl⟩ := Option.map_eq_some_iff.mp stepped
      rcases ThreadPool.addTaskStep_tasks moved with kept | ⟨task, position, full, _⟩
      · exact .still rfl (asked_perm kept) rfl rfl
      · exact absurd (room rfl (by rw [position]; rfl)) full
  | thread index =>
      obtain ⟨pool, moved, rfl⟩ := Option.map_eq_some_iff.mp stepped
      exact .still rfl (asked_perm (ThreadPool.threadStep_tasks moved)) rfl rfl
  | query index outcome => exact query_accounts stepped
  | execute index => exact executeStep_accounts stepped
  | transmit index clock =>
      obtain ⟨⟨socket, sent⟩, _, rfl⟩ := Option.map_eq_some_iff.mp stepped
      exact .still rfl (List.Perm.refl _) rfl rfl

/-- A client has one text on its way at most, so that texts are executed in the order in which they
are read.
-/
theorem executes_of_owned (owned : Owned service) (later : Owned next)
    (room : service.HasRoom event) (stepped : service.step event = some next)
    : service.executes addr event ++ next.unexecuted addr
      = service.unexecuted addr ++ service.textRead addr event := by
  have accounts := @step_accounts _ _ _ service next addr _ _ _ _ _ _ event room stepped
  have one (service : Service Addr Seq) (owned : Owned service)
      : (service.unexecuted addr).length ≤ 1 :=
    (unexecuted_length service addr).trans (owned.orderly.count_le addr)
  have short : (service.executes addr event ++ next.unexecuted addr).length ≤ 1 := by
    cases event with
    | query index outcome =>
        rw [accounts.length_eq, textRead, List.append_nil]
        exact one service owned
    | arrive | recvThread | select | mainLoop | addTask | thread | execute | transmit =>
        rw [executes, List.nil_append]
        exact one next later
  match whole : service.executes addr event ++ next.unexecuted addr, short with
  | [], _ =>
      rw [Accounts, whole] at accounts
      exact (List.nil_perm.mp accounts).symm
  | [text], _ =>
      rw [Accounts, whole] at accounts
      exact List.singleton_perm.mp accounts

end Steps

-----------------------------------------------------------------------------------------
-- Reading the messages of a client
-----------------------------------------------------------------------------------------

section Reading

variable {service next : Service Addr Int} {rest : List (List Byte)} {nLen : Int32}
  {later : List Byte} {event : Event Addr Int}

/-- The size that the main loop samples of this client's stream covers what it asks for. -/
def Ample (addr : Addr) (service : Service Addr Int) (event : Event Addr Int) : Prop :=
  event = .mainLoop
  → ∀ nBufLen ∈ service.mainLoop.asks addr, nBufLen ≤ (service.conn addr).byteStream.length

instance (addr : Addr) (service : Service Addr Int) (event : Event Addr Int)
    : Decidable (Ample addr service event) :=
  inferInstanceAs (Decidable (_ → _))

/-- The main loop has these messages of the client before it: between two calls of `Recv` whole
ones, or first the body whose length it has read. `later` is what the receive thread has not begun
to write. A size that was sampled is that of the field, which is in the stream.
-/
structure Reads (addr : Addr) (rest : List (List Byte)) (nLen : Int32) (later : List Byte)
    (service : Service Addr Int) : Prop where
  ahead : Ahead rest nLen (service.incoming addr ++ later) (service.mainLoop.position addr)
  length
    : ∀ turn nReadLen,
        service.mainLoop = .readLen turn nReadLen
        → turn.key = addr
        → nReadLen = 4 ∧ 4 ≤ (service.conn addr).byteStream.length
  announced
    : ∀ turn announced,
        service.mainLoop = .recvBuf turn announced → turn.key = addr → announced = nLen
  body
    : ∀ turn nReadLen,
        service.mainLoop = .readBuf turn nReadLen
        → turn.key = addr
        → nReadLen = nLen.toInt ∧ nLen.toInt ≤ (service.conn addr).byteStream.length

theorem reads_new (processors : Nat) (addr : Addr) : Reads addr [] 0 [] (new processors) where
  ahead := .length rfl
  length := nofun
  announced := nofun
  body := nofun

/-- The main loop stays where it is, and the stream gives nothing. -/
theorem Reads.still {unwritten : List Byte} (reads : Reads addr rest nLen later service)
    (mainLoop : next.mainLoop = service.mainLoop)
    (unread : next.incoming addr ++ unwritten = service.incoming addr ++ later)
    (grown : (service.conn addr).byteStream.length ≤ (next.conn addr).byteStream.length)
    : Reads addr rest nLen unwritten next := by
  constructor
  · rw [unread, mainLoop]
    exact reads.ahead
  · rw [mainLoop]
    intro turn nReadLen position own
    obtain ⟨size, covered⟩ := reads.length turn nReadLen position own
    exact ⟨size, covered.trans grown⟩
  · rw [mainLoop]
    exact reads.announced
  · rw [mainLoop]
    intro turn nReadLen position own
    obtain ⟨size, covered⟩ := reads.body turn nReadLen position own
    exact ⟨size, covered.trans (by exact_mod_cast grown)⟩

/-- The main loop has the client's whole messages before it, and goes on outside of them. -/
theorem Reads.outside (ahead : Ahead rest nLen (next.incoming addr ++ later) .length)
    (outside : next.mainLoop.inside addr = false)
    : Reads addr rest nLen later next := by
  have away {turn : Turns.Turn Addr} {mainLoop : MainLoop Addr}
      (inside : mainLoop.inside addr = decide (turn.key = addr))
      (position : next.mainLoop = mainLoop)
      : turn.key ≠ addr := by
    rw [position, inside] at outside
    exact of_decide_eq_false outside
  constructor
  · rwa [MainLoop.position_outside outside]
  · exact fun turn nReadLen position own => absurd own (away rfl position)
  · exact fun turn nLen position own => absurd own (away rfl position)
  · exact fun turn nReadLen position own => absurd own (away rfl position)

/-- What a step of the main loop reads of a client: nothing, or the text of its next message. -/
def Gives (addr : Addr) (rest : List (List Byte)) (later : List Byte)
    (service next : Service Addr Int) : Prop :=
  ∃ finished after nLen,
    rest = finished ++ after
    ∧ service.textRead addr .mainLoop = finished.map Exchange.taskSql
    ∧ Reads addr after nLen later next

/-- The size of the stream covers the length. -/
theorem Reads.recvLen (reads : Reads addr rest nLen later service) {turn : Turns.Turn Addr}
    {nReadLen : Nat} (position : service.mainLoop = .recvLen turn)
    (covered : 4 ≤ (service.conn addr).byteStream.length)
    (size : nReadLen = min (service.conn addr).byteStream.length 4)
    : Gives addr rest later service { service with mainLoop := .readLen turn nReadLen } := by
  have ahead := reads.ahead
  rw [position] at ahead
  refine ⟨[], rest, nLen, rfl, by rw [textRead, position]; rfl, ahead, ?_, ?_, ?_⟩
  · rintro _ _ ⟨⟩ _
    exact ⟨size.trans (Nat.min_eq_right covered), covered⟩
  · rintro _ _ ⟨⟩
  · rintro _ _ ⟨⟩

/-- The length is read as a whole, and its body is next. -/
theorem Reads.readLen (reads : Reads addr rest nLen later service) {turn : Turns.Turn Addr}
    {nReadLen : Nat} (own : turn.key = addr) (position : service.mainLoop = .readLen turn nReadLen)
    (goesOn
      : next.mainLoop
        = .recvBuf turn (Exchange.overwrite 0 ((service.conn addr).byteStream.take nReadLen)))
    (received
      : service.bytesRead addr .mainLoop ++ next.incoming addr = service.incoming addr)
    : Gives addr rest later service next := by
  subst own
  obtain ⟨rfl, covered⟩ := reads.length turn nReadLen position rfl
  have ahead := reads.ahead
  have read : service.bytesRead turn.key .mainLoop
      = (service.conn turn.key).byteStream.take 4 := by
    simp [bytesRead, position, MainLoop.reading]
  rw [position, MainLoop.position, ← received, List.append_assoc, read] at ahead
  have four : ((service.conn turn.key).byteStream.take 4).length = 4 :=
    List.length_take_of_le covered
  let nLen := Exchange.overwrite 0 ((service.conn turn.key).byteStream.take 4)
  refine ⟨[], rest, nLen, rfl, by rw [textRead, position]; rfl, ?_, ?_, ?_, ?_⟩
  · rw [goesOn, MainLoop.position, if_pos rfl]
    exact ahead.read_length four 0
  · rw [goesOn]
    rintro _ _ ⟨⟩
  · rw [goesOn]
    rintro _ _ ⟨⟩ _
    rfl
  · rw [goesOn]
    rintro _ _ ⟨⟩

/-- The size of the stream covers the body. -/
theorem Reads.recvBuf (reads : Reads addr rest nLen later service) {turn : Turns.Turn Addr}
    {announced : Int32} {nReadLen : Int} (own : turn.key = addr)
    (position : service.mainLoop = .recvBuf turn announced)
    (covered : announced.toInt ≤ (service.conn addr).byteStream.length)
    (size : nReadLen = min ((service.conn addr).byteStream.length : Int) announced.toInt)
    : Gives addr rest later service { service with mainLoop := .readBuf turn nReadLen } := by
  obtain rfl := reads.announced turn announced position own
  have ahead := reads.ahead
  rw [position] at ahead
  refine ⟨[], rest, announced, rfl, by rw [textRead, position]; rfl, ahead, ?_, ?_, ?_⟩
  · rintro _ _ ⟨⟩
  · rintro _ _ ⟨⟩
  · rintro _ _ ⟨⟩ _
    exact ⟨size.trans (min_eq_right covered), covered⟩

/-- The body is read as a whole, and the next message is before the main loop. -/
theorem Reads.readBuf (reads : Reads addr rest nLen later service) {turn : Turns.Turn Addr}
    {nReadLen : Int} (allowed : ∀ body ∈ rest, Exchange.Allowed body) (own : turn.key = addr)
    (position : service.mainLoop = .readBuf turn nReadLen) (positive : 0 ≤ nReadLen)
    (outside : next.mainLoop.inside addr = false)
    (received
      : service.bytesRead addr .mainLoop ++ next.incoming addr = service.incoming addr)
    : Gives addr rest later service next := by
  subst own
  obtain ⟨rfl, covered⟩ := reads.body turn nReadLen position rfl
  have ahead := reads.ahead
  have read : service.bytesRead turn.key .mainLoop
      = (service.conn turn.key).byteStream.take nLen.toInt.toNat := by
    simp [bytesRead, position, MainLoop.reading]
  rw [position, MainLoop.position, if_pos rfl, ← received, List.append_assoc, read] at ahead
  have size : (((service.conn turn.key).byteStream.take nLen.toInt.toNat).length : Int)
      = nLen.toInt := by
    rw [List.length_take_of_le (by omega)]
    omega
  obtain ⟨more, split, _, after⟩ := ahead.read_body allowed size
  refine ⟨[_], more, nLen, split, ?_, Reads.outside after outside⟩
  simp only [textRead, position, if_pos, List.map_cons, List.map_nil]

/-- A message, or its length, is not read in part. -/
theorem Reads.mainLoop (reads : Reads addr rest nLen later service)
    (allowed : ∀ body ∈ rest, Exchange.Allowed body) (ample : Ample addr service .mainLoop)
    (stepped : service.mainLoopStep = some next)
    : Gives addr rest later service next := by
  have received := (mainLoopStep_received stepped addr).incoming
  have stays (before : service.mainLoop.inside addr = false)
      (text : service.textRead addr .mainLoop = [])
      (none : service.bytesRead addr .mainLoop = [])
      (after : next.mainLoop.inside addr = false)
      : Gives addr rest later service next := by
    have ahead := reads.ahead
    rw [none, List.nil_append] at received
    rw [MainLoop.position_outside before, ← received] at ahead
    exact ⟨[], rest, nLen, rfl, text, Reads.outside ahead after⟩
  cases mainLoopStep_move stepped with
  | take _ position | addTask _ _ _ position | added position =>
      exact stays (by rw [position]; rfl) (by rw [textRead, position])
        (by rw [bytesRead, position]; rfl) rfl
  | recvLen turn nReadLen position some size =>
      by_cases own : turn.key = addr
      · refine reads.recvLen position ?_ (own ▸ size)
        exact Int.ofNat_le.mp (ample rfl 4 (by rw [position]; exact if_pos own))
      · exact stays (by rw [position]; rfl) (by rw [textRead, position])
          (by rw [bytesRead, position]; rfl) (decide_eq_false own)
  | readLen turn nReadLen announced position free length =>
      by_cases own : turn.key = addr
      · refine reads.readLen own position ?_ received
        rw [length, own]
      · refine stays ?_ (by rw [textRead, position]) ?_ (decide_eq_false own)
        · rw [position]
          exact decide_eq_false own
        · rw [bytesRead, position]
          exact if_neg own
  | recvBuf turn announced nReadLen position some size =>
      by_cases own : turn.key = addr
      · refine reads.recvBuf own position ?_ (own ▸ size)
        exact ample rfl announced.toInt (by rw [position]; exact if_pos own)
      · exact stays (by rw [position]; exact decide_eq_false own) (by rw [textRead, position])
          (by rw [bytesRead, position]; rfl) (decide_eq_false own)
  | readBuf turn nReadLen sql position free inside =>
      by_cases own : turn.key = addr
      · exact reads.readBuf allowed own position inside.1 rfl received
      · refine stays ?_ ?_ ?_ rfl
        · rw [position]
          exact decide_eq_false own
        · simp only [textRead, position, if_neg own]
        · rw [bytesRead, position]
          exact if_neg own

end Reading

-----------------------------------------------------------------------------------------
-- Whole runs
-----------------------------------------------------------------------------------------

section Runs

variable {service next : Service Addr Int} {base number : Int} {count : Nat} {nLen : Int32}
  {bodies finished rest executed : List (List Byte)} {event : Event Addr Int}

/-- The packets of a client that sends these messages. -/
def messagePackets (bodies : List (List Byte)) : List (List Byte) :=
  bodies.flatMap Exchange.framePackets

/-- The main loop has read the first messages of the client, and their texts are executed or about
to be.
-/
structure Serves (addr : Addr) (base : Int) (finished rest : List (List Byte))
    (executed : List (List Byte)) (count : Nat) (nLen : Int32) (service : Service Addr Int)
    : Prop where
  expects : Expects addr base (messagePackets (finished ++ rest)) count service
  reads
    : Reads addr rest nLen ((messagePackets (finished ++ rest)).drop count).flatten service
  texts : finished.map Exchange.taskSql = executed ++ service.unexecuted addr

/-- The server is somewhere in the messages of a client. -/
def Serving (addr : Addr) (base : Int) (bodies executed : List (List Byte))
    (service : Service Addr Int)
    : Prop :=
  ∃ finished rest count nLen,
    bodies = finished ++ rest ∧ Serves addr base finished rest executed count nLen service

/-- No other thread moves the main loop, but for `Select`. -/
theorem step_mainLoop (other : event ≠ .mainLoop) (stepped : service.step event = some next)
    : next.mainLoop = service.mainLoop
      ∨ service.mainLoop = .select ∧ ∃ addr, next.mainLoop = .found addr := by
  cases event with
  | mainLoop => exact absurd rfl other
  | arrive fromAddr packet =>
      left
      cases (arrive_move stepped).2 <;> rfl
  | recvThread =>
      left
      cases recvThreadStep_move stepped <;> rfl
  | select addr =>
      rcases select_move stepped with rfl | ⟨position, _, rfl⟩
      · exact Or.inl rfl
      · exact Or.inr ⟨position, addr, rfl⟩
  | addTask | thread | transmit =>
      obtain ⟨_, _, rfl⟩ := Option.map_eq_some_iff.mp stepped
      exact Or.inl rfl
  | query index outcome =>
      obtain ⟨_, _, _, _, rfl⟩ := query_move stepped
      exact Or.inl rfl
  | execute index =>
      left
      cases executeStep_move stepped <;> rfl

/-- Bytes move from the packets to the stream, and only the main loop takes them from there. -/
theorem Flows.unread {packets : List (List Byte)} {later : Nat} (other : event ≠ .mainLoop)
    (flows : Flows addr packets count service event next later)
    : next.incoming addr ++ (packets.drop later).flatten
      = service.incoming addr ++ (packets.drop count).flatten := by
  cases flows with
  | writes data inTurn _ incoming =>
      obtain ⟨inside, rfl⟩ := List.getElem?_eq_some_iff.mp inTurn
      rw [incoming, List.drop_eq_getElem_cons inside, List.flatten_cons, List.append_assoc]
  | reads incoming =>
      have none : service.bytesRead addr event = [] := by
        cases event <;> first | rfl | exact absurd rfl other
      rw [none, List.nil_append] at incoming
      rw [incoming]

theorem Serves.step (serves : Serves addr base finished rest executed count nLen service)
    (allowed : ∀ body ∈ finished ++ rest, Exchange.Allowed body) (owned : Owned service)
    (sent : OnlySends addr base (messagePackets (finished ++ rest)) event)
    (room : service.HasRoom event) (ample : Ample addr service event)
    (stepped : service.step event = some next)
    : Serving addr base (finished ++ rest) (executed ++ service.executes addr event) next := by
  obtain ⟨later, still, flows⟩ := serves.expects.step sent stepped
  have accounted := @executes_of_owned _ _ _ service next addr _ _ _ _ _ _ event owned
    (owned.step stepped) room stepped
  by_cases moves : event = .mainLoop
  · subst moves
    have reading := serves.reads.mainLoop
      (fun body member => allowed body (List.mem_append_right finished member)) ample stepped
    obtain ⟨read, after, nLen, rfl, text, reads⟩ := reading
    have same : later = count := by
      cases flows with
      | writes _ _ other => cases other
      | reads => rfl
    subst same
    rw [← List.append_assoc] at still reads ⊢
    refine ⟨finished ++ read, after, later, nLen, rfl, still, reads, ?_⟩
    rw [List.map_append, serves.texts, ← text, List.append_assoc, List.append_assoc, accounted]
  · have none : service.textRead addr event = [] := by
      cases event <;> first | rfl | exact absurd rfl moves
    rw [none, List.append_nil] at accounted
    have unread := flows.unread moves
    refine ⟨finished, rest, later, nLen, rfl, still, ?_, ?_⟩
    · rcases step_mainLoop moves stepped with same | ⟨position, other, found⟩
      · exact serves.reads.still same unread (step_length moves stepped addr)
      · have ahead := serves.reads.ahead
        rw [position, ← unread] at ahead
        exact Reads.outside ahead (by rw [found]; rfl)
    · rw [serves.texts, List.append_assoc, accounted]

/-- A server that has received nothing of a client. -/
theorem serving_new (processors : Nat) (addr : Addr)
    : Serving addr 0 [] [] (new processors) :=
  ⟨[], [], 0, 0, rfl, expects_new processors addr, reads_new processors addr, rfl⟩

/-- A main loop that has no message before it is outside of the client's messages. -/
theorem Reads.none (reads : Reads addr [] nLen [] service)
    : service.incoming addr = [] ∧ service.mainLoop.inside addr = false := by
  have ahead := reads.ahead
  have stream (incoming : service.incoming addr = []) : (service.conn addr).byteStream = [] :=
    (List.append_eq_nil_iff.mp incoming).1
  have outside (position : service.mainLoop.position addr = .length)
      : service.incoming addr = [] := by
    rw [position] at ahead
    cases ahead with
    | length whole => exact (List.append_eq_nil_iff.mp whole).1
  have body (position : service.mainLoop.position addr = .body) : False := by
    rw [position] at ahead
    cases ahead with
    | body _ _ split => cases split
  cases position : service.mainLoop with
  | select | found | recvLen | addTask | adding =>
      exact ⟨outside (by rw [position]; rfl), rfl⟩
  | readLen turn nReadLen =>
      have empty := outside (by rw [position]; rfl)
      refine ⟨empty, decide_eq_false (fun own => ?_)⟩
      have covered := (reads.length turn nReadLen position own).2
      rw [stream empty] at covered
      simp at covered
  | recvBuf turn | readBuf turn =>
      by_cases own : turn.key = addr
      · exact absurd (by rw [position]; exact if_pos own) body
      · exact ⟨outside (by rw [position]; exact if_neg own), decide_eq_false own⟩

/-- A client that has sent nothing connects. -/
theorem Serving.connect (serving : Serving addr base [] executed service)
    (arrives : service.arrive addr (.establish1 number) = some next)
    (bodies : List (List Byte))
    : Serving addr (number + 1) bodies executed next := by
  obtain ⟨finished, rest, count, nLen, split, serves⟩ := serving
  obtain ⟨rfl, rfl⟩ := List.append_eq_nil_iff.mp split.symm
  obtain ⟨mainLoop, pool⟩ : next.mainLoop = service.mainLoop ∧ next.pool = service.pool := by
    cases (arrive_move arrives).2 <;> exact ⟨rfl, rfl⟩
  obtain ⟨connected, stream⟩ := serves.expects.connect arrives (messagePackets bodies)
  obtain ⟨before, after⟩ := @arrive_unwritten _ _ addr service next _ _ arrives
  have reads : Reads addr [] nLen [] service := by simpa [messagePackets] using serves.reads
  obtain ⟨empty, outside⟩ := reads.none
  have none : next.incoming addr = [] := by
    rw [Service.incoming, before] at empty
    rw [Service.incoming, after, stream]
    exact empty
  refine ⟨[], bodies, 0, nLen, rfl, connected, Reads.outside ?_ (mainLoop ▸ outside), ?_⟩
  · rw [none]
    exact .length (Exchange.flatten_flatMap_framePackets bodies)
  · rw [Service.unexecuted, mainLoop, pool]
    exact serves.texts

/-- All the texts of a client that the tasks execute. -/
def executedFrom (addr : Addr) (service : Service Addr Int) (events : List (Event Addr Int))
    : List (List Byte) :=
  trace step (Service.executes addr) service events

/-- The server serves a client that connects once and sends these messages. -/
theorem serving_of_run {processors : Nat} {before after : List (Event Addr Int)}
    (allowed : ∀ body ∈ bodies, Exchange.Allowed body)
    (silent : ∀ packet, .arrive addr packet ∉ before)
    (sent : ∀ event ∈ after, OnlySends addr (number + 1) (messagePackets bodies) event)
    (room
      : Along step HasRoom (new processors)
          (before ++ .arrive addr (.establish1 number) :: after))
    (ample
      : Along step (Ample addr) (new processors)
          (before ++ .arrive addr (.establish1 number) :: after))
    (ran
      : run step (new processors) (before ++ .arrive addr (.establish1 number) :: after)
        = some service)
    : Serving addr (number + 1) bodies
        (executedFrom addr (new processors)
          (before ++ .arrive addr (.establish1 number) :: after))
        service := by
  let good (base : Int) (bodies executed : List (List Byte)) (service : Service Addr Int) : Prop :=
    (∀ body ∈ bodies, Exchange.Allowed body)
    ∧ Owned service
    ∧ Serving addr base bodies executed service
  have begun : good 0 [] [] (new processors) :=
    ⟨nofun, owned_new processors, serving_new processors addr⟩
  have served := @trace_connected _ _ addr service number _ _ messagePackets [] bodies
    (Service.executes addr) (fun service event => HasRoom service event ∧ Ample addr service event)
    good processors before after begun ?_ ?_ silent sent
    (TransitionSystem.along_and room ample) ran
  · exact served.2.2
  · rintro base bodies executed service event next ⟨allowed, owned, serving⟩ sent ⟨room, ample⟩
      stepped
    obtain ⟨finished, rest, count, nLen, rfl, serves⟩ := serving
    exact ⟨allowed, owned.step stepped, serves.step allowed owned sent room ample stepped⟩
  · rintro base executed service next ⟨_, owned, serving⟩ arrives
    refine ⟨allowed, owned.arrive arrives, ?_⟩
    rw [Service.executes, List.append_nil]
    exact serving.connect arrives bodies

/-- `SendSql` sends the whole of each of these texts, and `string(buf)` gives it back. -/
def Sendable (sqls : List (List Byte)) : Prop :=
  ∀ sql ∈ sqls, 0 ∉ sql ∧ sql.length < 0x1000

instance (sqls : List (List Byte)) : Decidable (Sendable sqls) :=
  inferInstanceAs (Decidable (∀ sql ∈ sqls, _))

/-- A text with its zero byte fits into the buffer. -/
theorem Sendable.allowed {sqls : List (List Byte)} (sendable : Sendable sqls)
    : ∀ body ∈ sqls.map Exchange.requestBody, Exchange.Allowed body := by
  intro body member
  obtain ⟨sql, sent, rfl⟩ := List.mem_map.mp member
  have short := (sendable sql sent).2
  constructor <;> rw [Exchange.requestBody_length] <;> omega

/-- The packets of `SendSql` for these texts, one after the other. -/
def sqlPackets (sqls : List (List Byte)) : List (List Byte) :=
  messagePackets (sqls.map Exchange.requestBody)

variable {sqls : List (List Byte)} {processors : Nat} {before after : List (Event Addr Int)}

/-- What the task gets of each of these messages is its text. -/
theorem Sendable.texts (sendable : Sendable sqls)
    : (sqls.map Exchange.requestBody).map Exchange.taskSql = sqls := by
  rw [List.map_map]
  refine (List.map_congr_left fun sql member => ?_).trans (List.map_id sqls)
  exact Exchange.taskSql_requestBody (sendable sql member).1

/-- Every text that a client sends is executed at most once and after those that it sent before, and
what was executed and the one text that may be on its way are all that the server has read of the
client, in every interleaving of the server's threads in which no size check finds a part of a
length or of a text, whatever the order in which the client's packets arrive and how often, and
whatever other clients send.
-/
theorem executed_of_run (sendable : Sendable sqls) (silent : ∀ packet, .arrive addr packet ∉ before)
    (sent : ∀ event ∈ after, OnlySends addr (number + 1) (sqlPackets sqls) event)
    (room
      : Along step HasRoom (new processors)
          (before ++ .arrive addr (.establish1 number) :: after))
    (ample
      : Along step (Ample addr) (new processors)
          (before ++ .arrive addr (.establish1 number) :: after))
    (ran
      : run step (new processors) (before ++ .arrive addr (.establish1 number) :: after)
        = some service)
    : executedFrom addr (new processors) (before ++ .arrive addr (.establish1 number) :: after)
          ++ service.unexecuted addr
        <+: sqls
      ∧ (service.unexecuted addr).length ≤ 1 := by
  have serving := serving_of_run sendable.allowed silent sent room ample ran
  obtain ⟨finished, rest, count, nLen, split, serves⟩ := serving
  have owned := TransitionSystem.run_invariant Owned.step (owned_new processors) ran
  have one := (unexecuted_length service addr).trans (owned.orderly.count_le addr)
  refine ⟨⟨rest.map Exchange.taskSql, ?_⟩, one⟩
  rw [← serves.texts, ← List.map_append, ← split]
  exact sendable.texts

/-- Clients 0 and 1 send their texts at the same time, client 0's packets come out of order and one
of them twice, and the main loop takes the clients by turns and looks for a length while the text is
being pushed.
-/
def twoTexts : List (Event (Fin 2) Int) :=
  List.flatten
    [
      [.arrive 0 (.data ⟨2, [65, 0]⟩), .arrive 0 (.data ⟨1, [2, 0, 0, 0]⟩)],
      List.replicate 13 .recvThread,
      [.select 0, .mainLoop, .mainLoop],
      List.replicate 6 .recvThread,
      [.mainLoop, .arrive 1 (.data ⟨6, [2, 0, 0, 0]⟩)],
      List.replicate 11 .recvThread,
      [.mainLoop, .mainLoop, .mainLoop, .arrive 1 (.data ⟨7, [67, 0]⟩)],
      List.replicate 8 .recvThread,
      List.replicate 7 .addTask,
      [.mainLoop, .arrive 0 (.data ⟨4, [66, 0]⟩), .arrive 0 (.data ⟨3, [2, 0, 0, 0]⟩)],
      List.replicate 18 .recvThread,
      [.arrive 0 (.data ⟨2, [65, 0]⟩)],
      List.replicate 6 (.thread 0),
      [.query 0 (.done 1)],
      List.replicate 7 (.execute 0),
      [.thread 0, .select 1],
      List.replicate 6 .mainLoop,
      List.replicate 5 .addTask,
      [.mainLoop],
      List.replicate 5 (.thread 0),
      [.query 0 (.done 1)],
      List.replicate 7 (.execute 0),
      [.thread 0, .select 0],
      List.replicate 6 .mainLoop,
      List.replicate 5 .addTask,
      [.mainLoop],
      List.replicate 5 (.thread 0),
      [.query 0 (.done 1)],
      List.replicate 7 (.execute 0),
      [.thread 0]
    ]

/-- The second text of client 0 has been read and waits in the pool. -/
theorem executed_twoTexts
    : ∃ service : Service (Fin 2) Int,
        run step (new 1)
            ([.arrive 1 (.establish1 5)] ++ .arrive 0 (.establish1 0) :: twoTexts.take 130)
          = some service
        ∧ service.unexecuted 0 = [[66]]
        ∧ executedFrom 0 (new 1)
              ([.arrive 1 (.establish1 5)] ++ .arrive 0 (.establish1 0) :: twoTexts.take 130)
            ++ service.unexecuted 0
          <+: [[65], [66]] := by
  obtain ⟨service, reached⟩ := Option.isSome_iff_exists.mp
    (by decide +kernel
      : ((run step (new 1)
            ([.arrive 1 (.establish1 5)]
            ++ .arrive 0 (.establish1 0) :: twoTexts.take 130)).filter
          (fun service => service.unexecuted 0 = [[66]])).isSome)
  obtain ⟨ran, waits⟩ := Option.filter_eq_some_iff.mp reached
  have sent : ∀ event ∈ twoTexts.take 130,
      OnlySends 0 (0 + 1) (sqlPackets [[65], [66]]) event := by
    decide +kernel
  have executed := executed_of_run (by decide +kernel) (by simp) sent (by decide +kernel)
    (by decide +kernel) ran
  exact ⟨service, ran, of_decide_eq_true waits, executed.1⟩

/-- Where nothing is before the reader, no message is to come. -/
theorem none_ahead (ahead : Ahead rest nLen [] .length) : rest = [] := by
  cases ahead with
  | length whole =>
      cases rest with
      | nil => rfl
      | cons body more =>
          have length := intBytes_length (Exchange.lengthOf body)
          rw [List.flatMap_cons, Exchange.frame, List.append_assoc] at whole
          rw [(List.append_eq_nil_iff.mp whole.symm).1] at length
          cases length

/-- A request of this client that has been received can be read. -/
theorem Reads.not_halted (reads : Reads addr rest nLen [] service)
    (texts : ∀ body ∈ rest, Exchange.Allowed body ∧ 0 ∈ body)
    (halted : Halted service) (own : ∀ turn ∈ service.mainLoop.turns, turn.key = addr)
    (silent
      : (service.conn addr).status = .noData → (service.conn addr).byteStream = [])
    (written : service.recvThread.unwritten addr = [])
    : rest = [] := by
  have ahead := reads.ahead
  rw [List.append_nil, Service.incoming, written, List.append_nil] at ahead
  cases halted with
  | select position served =>
      rw [position, silent (served addr)] at ahead
      exact none_ahead ahead
  | recv other awaits empty =>
      cases position : service.mainLoop with
      | recvLen turn =>
          rw [awaited, position] at awaits
          obtain rfl := Option.some.inj awaits
          obtain rfl := own turn (by rw [position]; exact List.mem_singleton_self turn)
          rw [position, empty] at ahead
          exact none_ahead ahead
      | recvBuf turn nLen =>
          rw [awaited, position] at awaits
          obtain rfl := Option.some.inj awaits
          obtain rfl := own turn (by rw [position]; exact List.mem_singleton_self turn)
          rw [position, MainLoop.position, if_pos rfl, empty] at ahead
          cases ahead with
          | body body more split announced whole =>
              obtain ⟨none, _⟩ := List.append_eq_nil_iff.mp whole.symm
              have some := (texts body (split ▸ List.mem_cons_self)).1.1
              rw [none] at some
              cases some
      | select | found | readLen | readBuf | addTask | adding =>
          simp [awaited, position] at awaits
  | undefined turn nReadLen position undefined =>
      obtain rfl := own turn (by rw [position]; exact List.mem_singleton_self turn)
      obtain ⟨rfl, covered⟩ := reads.body turn nReadLen position rfl
      rw [position, MainLoop.position, if_pos rfl] at ahead
      cases ahead with
      | body body more split announced whole =>
          obtain ⟨allowed, ends⟩ := texts body (split ▸ List.mem_cons_self)
          obtain ⟨positive, fits⟩ := allowed.inBuffer
          have length := Exchange.lengthOf_toInt allowed.2
          rw [← announced] at positive fits length
          have taken : (service.conn turn.key).byteStream.take nLen.toInt.toNat = body := by
            rw [whole, length, Int.toNat_natCast, List.take_left]
          exact absurd ⟨positive, fits, Or.inr (taken ▸ ends)⟩ undefined

/-- A main loop that waits for bytes or for clients has passed on what it has read. -/
theorem Halted.text_eq_nil (halted : Halted service) (addr : Addr)
    : service.mainLoop.text addr = [] := by
  cases halted with
  | select position => rw [position]; rfl
  | recv other awaits =>
      cases position : service.mainLoop with
      | addTask => simp [awaited, position] at awaits
      | select | found | recvLen | readLen | recvBuf | readBuf | adding => rfl
  | undefined turn nReadLen position => rw [position]; rfl

/-- A server at rest, whose main loop is not at the request of another client, has executed every
text of a client whose packets it has all received: once, and in the order in which the client sent
them, when no size check found a part of a length or of a text.
-/
theorem executed_all_of_rest (some : 0 < processors) (sendable : Sendable sqls)
    (silent : ∀ packet, .arrive addr packet ∉ before)
    (sent : ∀ event ∈ after, OnlySends addr (number + 1) (sqlPackets sqls) event)
    (room
      : Along step HasRoom (new processors)
          (before ++ .arrive addr (.establish1 number) :: after))
    (ample
      : Along step (Ample addr) (new processors)
          (before ++ .arrive addr (.establish1 number) :: after))
    (ran
      : run step (new processors) (before ++ .arrive addr (.establish1 number) :: after)
        = Option.some service)
    (rest : service.AtRest) (own : ∀ turn ∈ service.mainLoop.turns, turn.key = addr)
    (received : (service.conn addr).nextRecvSeq = number + 1 + (sqlPackets sqls).length)
    : executedFrom addr (new processors) (before ++ .arrive addr (.establish1 number) :: after)
      = sqls := by
  have serving := serving_of_run sendable.allowed silent sent room ample ran
  obtain ⟨finished, left, count, nLen, split, serves⟩ := serving
  have standstill := standstill_of_run some room ran rest
  have counted := serves.expects.counted
  rw [standstill.recvThread, received] at counted
  have all : (messagePackets (finished ++ left)).length ≤ count := by
    have same : (sqlPackets sqls).length = count := by simpa [RecvThread.uncounted] using counted
    rw [← split]
    exact Nat.le_of_eq same
  have reads := serves.reads
  rw [List.drop_eq_nil_of_le all, List.flatten_nil] at reads
  have written : service.recvThread.unwritten addr = [] := by rw [standstill.recvThread]; rfl
  have texts : ∀ body ∈ left, Exchange.Allowed body ∧ 0 ∈ body := by
    intro body member
    have sentBody : body ∈ sqls.map Exchange.requestBody :=
      split ▸ List.mem_append_right finished member
    refine ⟨sendable.allowed body sentBody, ?_⟩
    obtain ⟨sql, _, rfl⟩ := List.mem_map.mp sentBody
    exact List.mem_append_right sql List.mem_cons_self
  obtain rfl := reads.not_halted texts standstill.mainLoop own (standstill.silent addr) written
  have none : service.unexecuted addr = [] := by
    have tasks : service.pool.tasks = [] := by
      rw [ThreadPool.tasks, standstill.returned, standstill.taskQueue]
      refine List.flatMap_eq_nil_iff.mpr (fun thread member => ?_)
      rw [standstill.threads thread member]
      rfl
    rw [unexecuted, standstill.mainLoop.text_eq_nil, tasks]
    rfl
  have whole := serves.texts
  rw [none, List.append_nil] at whole
  rw [← whole, ← List.append_nil finished, ← split]
  exact sendable.texts

theorem executed_all_twoTexts
    : ∃ service : Service (Fin 2) Int,
        run step (new 1) ([.arrive 1 (.establish1 5)] ++ .arrive 0 (.establish1 0) :: twoTexts)
          = some service
        ∧ executedFrom 0 (new 1)
            ([.arrive 1 (.establish1 5)] ++ .arrive 0 (.establish1 0) :: twoTexts)
          = [[65], [66]] := by
  obtain ⟨service, reached⟩ := Option.isSome_iff_exists.mp
    (by decide +kernel
      : ((run step (new 1 : Service (Fin 2) Int)
            ([.arrive 1 (.establish1 5)] ++ .arrive 0 (.establish1 0) :: twoTexts)).filter
          (fun service : Service (Fin 2) Int =>
            service.recvThread = .recvfrom
            ∧ service.mainLoop = .select
            ∧ (∀ addr, (service.conn addr).status = .noData)
            ∧ (service.conn 0).nextRecvSeq = 0 + 1 + (sqlPackets [[65], [66]]).length
            ∧ service.pool.addTask = .returned
            ∧ service.pool.threads = [.wait]
            ∧ service.pool.semaphore = 0
            ∧ service.pool.exitEvent = false)).isSome)
  obtain ⟨ran, state⟩ := Option.filter_eq_some_iff.mp reached
  obtain ⟨recvThread, mainLoop, served, received, addTask, threads, semaphore, exitEvent⟩ :=
    of_decide_eq_true state
  have waits (index : Nat) (thread : ThreadProc (SqlTask (Fin 2)))
      (found : service.pool.threads[index]? = some thread)
      : thread = .wait := by
    rw [threads] at found
    exact List.mem_singleton.mp (List.mem_of_getElem? found)
  have idle (index : Nat) : service.pool.executing index = none := by
    cases executing : service.pool.executing index with
    | none => rfl
    | some task => cases waits index _ (ThreadPool.executing_eq_some.mp executing)
  have rest : service.AtRest := by
    intro event moves
    cases event with
    | arrive | transmit => cases moves
    | recvThread => simp [Service.step, recvThreadStep, recvThread]
    | select addr => exact absurd ((served addr).symm.trans moves) (by decide)
    | mainLoop => simp [Service.step, mainLoopStep, mainLoop]
    | addTask => simp [Service.step, ThreadPool.addTaskStep, addTask]
    | thread index =>
        cases found : service.pool.threads[index]? with
        | none => simp [Service.step, ThreadPool.threadStep, found]
        | some thread =>
            obtain rfl := waits index thread found
            simp [Service.step, ThreadPool.threadStep, found, semaphore, exitEvent]
    | query index outcome => simp [Service.step, Service.query, idle]
    | execute index => simp [Service.step, executeStep, idle]
  have sent : ∀ event ∈ twoTexts, OnlySends 0 (0 + 1) (sqlPackets [[65], [66]]) event := by
    decide +kernel
  refine ⟨service, ran, ?_⟩
  exact executed_all_of_rest Nat.zero_lt_one (by decide +kernel) (by simp) sent
    (by decide +kernel) (by decide +kernel) ran rest (by rw [mainLoop]; rintro _ ⟨⟩) received

end Runs

end Service

end SchoolSystem.Server
