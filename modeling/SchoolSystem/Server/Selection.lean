import SchoolSystem.Server.WakeUp

/-! The connections that `Select` hands out, and whether they have data: the status says so
unless the receive thread updates it after the data has been read.
-/

namespace SchoolSystem.Server

open TcpSocket
open TransitionSystem (Along)

variable {Addr Seq : Type} [DecidableEq Addr]

/-- The client that `Select` is returning, or for which the main loop waits in the first
`Recv`.
-/
def MainLoop.handedOut : MainLoop Addr → Option Addr
  | .found addr => some addr
  | .recvLen turn => some turn.key
  | .select | .readLen _ _ | .recvBuf _ _ | .readBuf _ _ | .addTask _ _ | .adding => none

/-- The connection whose status the receive thread looks at next. -/
def RecvThread.testing : RecvThread Addr → Option Addr
  | .test addr _ => some addr
  | .recvfrom | .write _ _ _ | .push _ _ _ | .lock _ _ | .store _ _ | .unlock _ _ | .drain _ =>
      none

namespace Service

/-- A connection that is handed out has data. -/
def HandsOutData (service : Service Addr Seq) : Prop :=
  ∀ addr, service.mainLoop.handedOut = some addr → (service.conn addr).byteStream ≠ []

/-- When the receive thread finds status 0, the data that it has written is still there. -/
def FindsData (service : Service Addr Seq) (event : Event Addr Seq) : Prop :=
  event = .recvThread
  → ∀ addr ∈ service.recvThread.testing,
      (service.conn addr).status = .noData → (service.conn addr).byteStream ≠ []

instance [DecidableEq Seq] (service : Service Addr Seq) (event : Event Addr Seq)
    : Decidable (service.FindsData event) :=
  inferInstanceAs (Decidable (_ → _))

/-- Status 1 is stored, and kept, only with data in the stream. -/
structure Filled (service : Service Addr Seq) : Prop where
  hasData
    : ∀ addr, (service.conn addr).status = .hasData → (service.conn addr).byteStream ≠ []
  updating
    : ∀ addr drained,
        service.recvThread = .store addr drained → (service.conn addr).byteStream ≠ []
  storing
    : ∀ index task,
        service.pool.executing index = some task
        → task.execute = .store .hasData
        → (service.conn task.turn.key).byteStream ≠ []
  reading
    : ∀ turn, service.mainLoop = .recvLen turn → (service.conn turn.key).byteStream ≠ []

variable {service next : Service Addr Seq} {task : SqlTask Addr} {index : Nat}

omit [DecidableEq Addr] in
/-- A step that stores no status 1 and reads from no stream. -/
theorem Filled.quiet (filled : Filled service)
    (stream
      : ∀ addr, (service.conn addr).byteStream ≠ [] → (next.conn addr).byteStream ≠ [])
    (status
      : ∀ addr, (next.conn addr).status = .hasData → (service.conn addr).status = .hasData)
    (updating
      : ∀ addr drained,
          next.recvThread = .store addr drained → service.recvThread = .store addr drained)
    (storing
      : ∀ other found,
          next.pool.executing other = some found
          → found.execute = .store .hasData
          → service.pool.executing other = some found)
    (reading
      : ∀ turn, next.mainLoop = .recvLen turn → service.mainLoop = .recvLen turn)
    : Filled next where
  hasData addr stored := stream addr (filled.hasData addr (status addr stored))
  updating addr drained position :=
    stream addr (filled.updating addr drained (updating addr drained position))
  storing other found executes store :=
    stream _ (filled.storing other found (storing other found executes store) store)
  reading turn position := stream _ (filled.reading turn (reading turn position))

theorem Filled.recvThread [Add Seq] [OfNat Seq 1] [DecidableEq Seq] (filled : Filled service)
    (finds : service.FindsData .recvThread) (stepped : service.recvThreadStep = some next)
    : Filled next := by
  cases recvThreadStep_move stepped with
  | push addr byte rest drained position =>
      refine filled.quiet ?_ ?_ nofun (fun _ _ same _ => same) (fun _ same => same)
      · intro other some
        by_cases same : other = addr
        · subst same
          exact fun empty =>
            List.append_ne_nil_of_left_ne_nil some [byte]
              ((push_byteStream service other [byte]).symm.trans empty)
        · exact fun empty =>
            some ((congrArg Conn.byteStream (push_ne same [byte])).symm.trans empty)
      · exact fun other stored => (push_status service addr [byte] other).symm.trans stored
  | written addr drained counted position stream status =>
      refine filled.quiet ?_ ?_ nofun (fun _ _ same _ => same) (fun _ same => same)
      · exact fun other some empty => some ((setConn_byteStream stream other).symm.trans empty)
      · exact fun other stored => (setConn_status status other).symm.trans stored
  | noData addr drained position noData =>
      refine ⟨filled.hasData, ?_, filled.storing, filled.reading⟩
      rintro _ _ ⟨⟩
      rw [FindsData, position] at finds
      exact finds rfl addr rfl noData
  | store addr drained position =>
      have streams : ∀ other,
          ((service.setConn addr { service.conn addr with status := .hasData }).conn
            other).byteStream
          = (service.conn other).byteStream :=
        setConn_byteStream rfl
      constructor
      · intro other stored
        by_cases same : other = addr
        · subst same
          exact fun empty =>
            filled.updating other drained position ((streams other).symm.trans empty)
        · have kept : (service.conn other).status = .hasData := by
            simpa [Service.conn, setConn, same] using stored
          exact fun empty => filled.hasData other kept ((streams other).symm.trans empty)
      · intro other drained store
        cases store
      · intro other found executes store empty
        exact filled.storing other found executes store ((streams _).symm.trans empty)
      · intro turn reads empty
        exact filled.reading turn reads ((streams _).symm.trans empty)
  | unlock addr drained moved position stream status =>
      refine filled.quiet ?_ ?_ ?_ (fun _ _ same _ => same) (fun _ same => same)
      · exact fun other some empty => some ((setConn_byteStream stream other).symm.trans empty)
      · exact fun other stored => (setConn_status status other).symm.trans stored
      · intro other drained store
        cases store
  | write | lock | someData | next | drained =>
      refine filled.quiet (fun _ some => some) (fun _ same => same) ?_
        (fun _ _ same _ => same) (fun _ same => same)
      intro other drained store
      cases store

omit [DecidableEq Addr] in
/-- A step of `Execute` that stores no status. An `UnSelect` that decides on status 1 finds
data in the stream.
-/
theorem Filled.executeQuiet (filled : Filled service)
    {socket : CTcpSocket Addr Seq} {queued : List (Turns.Turn Addr × Packet Seq)}
    {statusLock : Addr → Bool}
    (same
      : ∀ addr,
          (socket.connectMap addr).byteStream = (service.conn addr).byteStream
          ∧ (socket.connectMap addr).status = (service.conn addr).status)
    {execute : Execute}
    (some : execute = .store .hasData → (service.conn task.turn.key).byteStream ≠ [])
    : Filled
        (setTask { service with socket, queued, statusLock } index { task with execute }) := by
  constructor
  · intro addr stored empty
    exact filled.hasData addr ((same addr).2.symm.trans stored) ((same addr).1.symm.trans empty)
  · intro addr drained position empty
    exact filled.updating addr drained position ((same addr).1.symm.trans empty)
  · intro other found executes store empty
    rcases ThreadPool.executing_setThread executes with ⟨_, now⟩ | ⟨_, before⟩
    · cases now
      exact some store ((same _).1.symm.trans empty)
    · exact filled.storing other found before store ((same _).1.symm.trans empty)
  · intro turn reads empty
    exact filled.reading turn reads ((same _).1.symm.trans empty)

/-- `UnSelect` stores status 1 only for a stream that has data, and no one else reads from it
while its request is in progress.
-/
theorem Filled.selectStore (filled : Filled service)
    (executing : service.pool.executing index = some task) {status : Status}
    (position : task.execute = .store status)
    : Filled
        ((service.setConn task.turn.key
            { service.conn task.turn.key with status := status }).setTask index
          { task with execute := .unlock }) := by
  have streams : ∀ addr,
      ((service.setConn task.turn.key
        { service.conn task.turn.key with status := status }).conn addr).byteStream
      = (service.conn addr).byteStream :=
    setConn_byteStream rfl
  constructor
  · intro addr stored empty
    by_cases same : addr = task.turn.key
    · subst same
      obtain rfl : status = .hasData := by simpa [Service.conn, setConn, setTask] using stored
      exact filled.storing index task executing position ((streams _).symm.trans empty)
    · have kept : (service.conn addr).status = .hasData := by
        simpa [Service.conn, setConn, setTask, same] using stored
      exact filled.hasData addr kept ((streams _).symm.trans empty)
  · intro addr drained store empty
    exact filled.updating addr drained store ((streams _).symm.trans empty)
  · intro other found executes store empty
    rcases ThreadPool.executing_setThread executes with ⟨_, now⟩ | ⟨_, before⟩
    · cases now
      cases store
    · exact filled.storing other found before store ((streams _).symm.trans empty)
  · intro turn reads empty
    exact filled.reading turn reads ((streams _).symm.trans empty)

theorem Filled.execute [Add Seq] [OfNat Seq 1] (filled : Filled service)
    (stepped : service.executeStep index = some next)
    : Filled next := by
  cases executeStep_move stepped with
  | send task buf rest executing execute =>
      refine filled.executeQuiet ?_ ?_
      · intro addr
        rw [CTcpSocket.send, CTcpSocket.queuePackets_conn]
        exact ⟨rfl, rfl⟩
      · intro store
        cases store
  | sent | lock | unlock =>
      apply filled.executeQuiet (fun _ => ⟨rfl, rfl⟩)
      intro store
      cases store
  | getSize task status executing execute size =>
      refine filled.executeQuiet (fun _ => ⟨rfl, rfl⟩) ?_
      rintro ⟨⟩
      rcases size with ⟨_, noData⟩ | ⟨some, _⟩
      · cases noData
      · exact some
  | store task status executing execute => exact filled.selectStore executing execute
  | returned task pool executing execute executed =>
      exact filled.quiet (fun _ some => some) (fun _ same => same) (fun _ _ same => same)
        (fun other found executes _ =>
          (ThreadPool.executed_waiting executed).2 other found executes)
        (fun _ same => same)

omit [DecidableEq Addr] in
theorem Filled.query (filled : Filled service) {outcome : Exchange.Outcome}
    (stepped : service.query index outcome = some next)
    : Filled next := by
  obtain ⟨task, bufs, executing, execute, rfl⟩ := query_move stepped
  exact filled.executeQuiet (fun _ => ⟨rfl, rfl⟩) nofun

omit [DecidableEq Addr] in
/-- A step of the pool that lets no task execute that did not wait. -/
theorem Filled.pool (filled : Filled service)
    (fresh : ∀ task ∈ service.pool.waiting, task.execute = .query)
    {pool : ThreadPool (SqlTask Addr)}
    (begins
      : ∀ other found,
          pool.executing other = some found
          → service.pool.executing other = some found ∨ found ∈ service.pool.waiting)
    : Filled { service with pool := pool } := by
  refine filled.quiet (fun _ some => some) (fun _ same => same) (fun _ _ same => same) ?_
    (fun _ same => same)
  intro other found executes store
  rcases begins other found executes with before | waited
  · exact before
  · rw [fresh found waited] at store
    cases store

/-- The main loop reads the request of a client with status 2: no one is about to store
status 1 for it.
-/
theorem Filled.read (filled : Filled service) (owned : Owned service) {turn : Turns.Turn Addr}
    (reading : service.mainLoop.turns = [turn]) {nReadLen : Nat} {mainLoop : MainLoop Addr}
    (goesOn : ∀ other, mainLoop ≠ .recvLen other)
    : Filled { service.read turn.key nReadLen with mainLoop := mainLoop } := by
  have inProgress : service.inProgress = turn :: taskTurns service.pool.tasks := by
    rw [inProgress, reading]
    rfl
  have receiving := owned.receiving turn (by rw [inProgress]; exact List.mem_cons_self)
  have streams : ∀ addr, addr ≠ turn.key
      → (service.read turn.key nReadLen).conn addr = service.conn addr :=
    fun addr other => setConn_ne other _
  have status : ∀ addr,
      ((service.read turn.key nReadLen).conn addr).status = (service.conn addr).status :=
    setConn_status rfl
  constructor
  · intro addr stored
    have hasData := (status addr).symm.trans stored
    have other : addr ≠ turn.key := by
      rintro rfl
      exact absurd (receiving.symm.trans hasData) (by decide)
    exact fun empty => filled.hasData addr hasData
      ((congrArg Conn.byteStream (streams addr other)).symm.trans empty)
  · intro addr drained store
    have other : addr ≠ turn.key := by
      rintro rfl
      exact absurd (receiving.symm.trans (owned.storing _ drained store)) (by decide)
    exact fun empty => filled.updating addr drained store
      ((congrArg Conn.byteStream (streams addr other)).symm.trans empty)
  · intro index task executing store
    have progress : task.inProgress = true := by rw [SqlTask.inProgress, store]
    have other : task.turn.key ≠ turn.key := by
      intro same
      have alone := owned.orderly.alone
      rw [inProgress, List.map_cons] at alone
      refine (List.nodup_cons.mp alone).1 (List.mem_map.mpr ⟨task.turn, ?_, same⟩)
      exact List.mem_map_of_mem
        (List.mem_filter.mpr ⟨ThreadPool.executing_mem executing, progress⟩)
    exact fun empty => filled.storing index task executing store
      ((congrArg Conn.byteStream (streams _ other)).symm.trans empty)
  · intro other position
    exact absurd position (goesOn other)

theorem Filled.mainLoop (filled : Filled service) (owned : Owned service)
    (stepped : service.mainLoopStep = some next)
    : Filled next := by
  cases mainLoopStep_move stepped with
  | take addr position =>
      have some := filled.hasData addr (owned.found addr position)
      have streams : ∀ other,
          ((service.setConn addr { service.conn addr with status := .receiving }).conn
            other).byteStream
          = (service.conn other).byteStream :=
        setConn_byteStream rfl
      constructor
      · intro other stored empty
        have kept : (service.conn other).status = .hasData := by
          by_cases same : other = addr
          · subst same
            simp [Service.conn, setConn] at stored
          · simpa [Service.conn, setConn, same] using stored
        exact filled.hasData other kept ((streams other).symm.trans empty)
      · intro other drained store empty
        exact filled.updating other drained store ((streams other).symm.trans empty)
      · intro other found executes store empty
        exact filled.storing other found executes store ((streams _).symm.trans empty)
      · rintro _ ⟨⟩ empty
        exact some ((streams addr).symm.trans empty)
  | recvLen | recvBuf | added =>
      refine filled.quiet (fun _ some => some) (fun _ same => same) (fun _ _ same => same)
        (fun _ _ same _ => same) ?_
      intro turn reads
      cases reads
  | readLen _ _ _ position | readBuf _ _ _ position =>
      apply filled.read owned (by rw [position]; rfl)
      intro turn reads
      cases reads
  | addTask turn sql pool position called =>
      refine filled.quiet (fun _ some => some) (fun _ same => same) (fun _ _ same => same)
        (fun other found executes _ =>
          ((ThreadPool.call_waiting called).2 other).symm.trans executes)
        ?_
      intro turn reads
      cases reads

omit [DecidableEq Addr] in
theorem Filled.select (filled : Filled service) {addr : Addr}
    (stepped : service.select addr = some next)
    : Filled next := by
  rcases select_move stepped with rfl | ⟨_, _, rfl⟩
  · exact filled
  · exact filled.quiet (fun _ some => some) (fun _ same => same) (fun _ _ same => same)
      (fun _ _ same _ => same) nofun

section Runs

variable [Add Seq] [OfNat Seq 0] [OfNat Seq 1] [DecidableEq Seq] [LT Seq] [DecidableLT Seq]
  {event : Event Addr Seq}

theorem Filled.arrive (filled : Filled service) {fromAddr : Addr} {packet : Packet Seq}
    (stepped : service.arrive fromAddr packet = some next)
    : Filled next := by
  obtain ⟨_, pool, mainLoop, kept, _, moves⟩ := arrive_frame stepped
  refine filled.quiet ?_ ?_ ?_ ?_ ?_
  · intro addr some
    rwa [(kept addr).1]
  · intro addr stored
    rwa [← (kept addr).2]
  · intro addr drained store
    rcases moves with same | ⟨data, write⟩
    · rw [same] at store
      cases store
    · rw [write] at store
      cases store
  · intro other found executes _
    rwa [pool] at executes
  · intro turn reads
    rwa [mainLoop] at reads

theorem Filled.step (filled : Filled service) (owned : Owned service) (awake : Awake service)
    (finds : service.FindsData event) (stepped : service.step event = some next)
    : Filled next := by
  cases event with
  | arrive fromAddr packet => exact filled.arrive stepped
  | recvThread => exact filled.recvThread finds stepped
  | select addr => exact filled.select stepped
  | mainLoop => exact filled.mainLoop owned stepped
  | addTask =>
      obtain ⟨pool, moved, rfl⟩ := Option.map_eq_some_iff.mp stepped
      obtain ⟨_, begins⟩ := ThreadPool.addTaskStep_waiting moved
      exact filled.pool awake.fresh (fun other found executes =>
        Or.inl (begins other found executes))
  | thread index =>
      obtain ⟨pool, moved, rfl⟩ := Option.map_eq_some_iff.mp stepped
      exact filled.pool awake.fresh (ThreadPool.threadStep_waiting moved).2
  | query index outcome => exact filled.query stepped
  | execute index => exact filled.execute stepped
  | transmit index clock =>
      obtain ⟨⟨socket, datagrams⟩, sent, rfl⟩ := Option.map_eq_some_iff.mp stepped
      have same := sendThreadProc_conn sent
      refine filled.quiet (fun addr some => ?_) (fun addr stored => ?_) (fun _ _ same => same)
        (fun _ _ same _ => same) (fun _ same => same)
      · rwa [Service.conn, same addr]
      · rwa [← same addr]

omit [DecidableEq Addr] [Add Seq] [OfNat Seq 1] [DecidableEq Seq] [LT Seq] [DecidableLT Seq] in
theorem filled_new (processors : Nat) : Filled (new processors : Service Addr Seq) := by
  constructor
  · nofun
  · nofun
  · intro index task executing
    cases executing
  · nofun

omit [DecidableEq Addr] [Add Seq] [OfNat Seq 0] [OfNat Seq 1] [DecidableEq Seq] [LT Seq]
  [DecidableLT Seq] in
theorem Filled.handsOutData (filled : Filled service) (owned : Owned service)
    : HandsOutData service := by
  intro addr handedOut
  cases position : service.mainLoop with
  | found other =>
      rw [position] at handedOut
      obtain rfl := Option.some.inj handedOut
      exact filled.hasData other (owned.found other position)
  | recvLen turn =>
      rw [position] at handedOut
      obtain rfl := Option.some.inj handedOut
      exact filled.reading turn position
  | select | readLen _ _ | recvBuf _ _ | readBuf _ _ | addTask _ _ | adding =>
      rw [position] at handedOut
      cases handedOut

/-- In every run in which the data that was written is still there whenever the receive thread
finds status 0, `Select` hands out connections with data only.
-/
theorem handsOutData_of_run (processors : Nat) (events : List (Event Addr Seq))
    (finds : Along step FindsData (new processors) events) {final : Service Addr Seq}
    (ran : TransitionSystem.run step (new processors) events = some final)
    : HandsOutData final := by
  have preserved : ∀ {state after : Service Addr Seq} {event : Event Addr Seq},
      Owned state ∧ Awake state ∧ Filled state → state.FindsData event
      → state.step event = some after → Owned after ∧ Awake after ∧ Filled after := by
    rintro state after event ⟨owned, awake, filled⟩ found stepped
    exact ⟨owned.step stepped, awake.step stepped, filled.step owned awake found stepped⟩
  obtain ⟨owned, _, filled⟩ := TransitionSystem.run_invariant_along preserved
    ⟨owned_new processors, awake_new processors, filled_new processors⟩ finds ran
  exact filled.handsOutData owned

/-- The first request, up to the moment when `Select` returns its client. -/
theorem handsOutData_oneRequest
    : ∃ final : Service Nat Int,
        TransitionSystem.run step (new 1) (oneRequest.take 14) = some final
        ∧ HandsOutData final := by
  obtain ⟨final, ran⟩ := Option.isSome_iff_exists.mp
    (by decide +kernel
      : (TransitionSystem.run step (new 1 : Service Nat Int) (oneRequest.take 14)).isSome)
  exact ⟨final, ran, handsOutData_of_run 1 (oneRequest.take 14) (by decide +kernel) ran⟩

/-- Wherever the receive thread finds status 0 and the data gone while the main loop is in
`Select`, the client is handed out without data.
-/
theorem not_handsOutData_of_empty {addr : Addr} {drained : Bool}
    (position : service.recvThread = .test addr drained)
    (status : (service.conn addr).status = .noData)
    (empty : (service.conn addr).byteStream = []) (selecting : service.mainLoop = .select)
    : ∃ final,
        TransitionSystem.run step service [.recvThread, .recvThread, .select addr] = some final
        ∧ ¬ HandsOutData final := by
  have tested : service.step .recvThread
      = some { service with recvThread := .store addr drained } := by
    simp [Service.step, recvThreadStep, position, status]
  refine
    ⟨
      {
        service.setConn addr { service.conn addr with status := .hasData } with
        recvThread := .unlock addr drained
        mainLoop := .found addr
      },
      ?_,
      fun handsOut => handsOut addr rfl (by simpa [Service.conn, setConn] using empty)
    ⟩
  rw [TransitionSystem.run_cons, tested]
  simp [Service.step, recvThreadStep, Service.select, selecting, Service.conn, setConn]

/-- The request is read, executed and replied to before the receive thread updates the status
for its second packet.
-/
def lateUpdate : List (Event Nat Int) :=
  List.flatten
    [
      oneRequest.take 17,
      [.arrive 7 (.data ⟨2, [65, 0]⟩)],
      List.replicate 4 .recvThread,
      oneRequest.drop 26,
      List.replicate 3 .recvThread,
      [.select 7]
    ]

def emptyHanded : Option (Service Nat Int) :=
  (TransitionSystem.run step (new 1) lateUpdate).filter
    (fun final => final.mainLoop = .found 7 ∧ (final.conn 7).byteStream = [])

/-- The client is handed out again, without data. -/
theorem handsOutData_not_always
    : ∃ final : Service Nat Int,
        TransitionSystem.run step (new 1) lateUpdate = some final ∧ ¬ HandsOutData final := by
  obtain ⟨final, found⟩ := Option.isSome_iff_exists.mp (by decide +kernel : emptyHanded.isSome)
  obtain ⟨ran, state⟩ := Option.filter_eq_some_iff.mp found
  obtain ⟨handedOut, empty⟩ := of_decide_eq_true state
  exact ⟨final, ran, fun handsOut => handsOut 7 (by rw [handedOut]; rfl) empty⟩

end Runs

end Service

end SchoolSystem.Server
