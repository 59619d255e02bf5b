import SchoolSystem.Library.Locks
import SchoolSystem.Server.Requests

/-! The status of a connection with bytes in its stream: `RecvThreadProc` updates it after it
has written them, and `UnSelect` after it has looked at the size.
-/

namespace SchoolSystem.Server

open TcpSocket
open Locks (Exclusive)

variable {Addr Seq : Type} [DecidableEq Addr]

/-- The connection that the receive thread has written to and whose status it has not updated
yet.
-/
def RecvThread.updating : RecvThread Addr → Option Addr
  | .lock addr _ | .test addr _ | .store addr _ => some addr
  | .recvfrom | .write _ _ _ | .push _ _ _ | .unlock _ _ | .drain _ => none

/-- The connection that the receive thread is writing to, or has written to without taking the
status lock yet.
-/
def RecvThread.ahead : RecvThread Addr → Option Addr
  | .push addr _ _ | .lock addr _ => some addr
  | .recvfrom | .write _ _ _ | .test _ _ | .store _ _ | .unlock _ _ | .drain _ => none

/-- The connection for which the receive thread has a status update to come. -/
def RecvThread.owing : RecvThread Addr → Option Addr
  | .push addr _ _ | .lock addr _ | .test addr _ | .store addr _ => some addr
  | .recvfrom | .write _ _ _ | .unlock _ _ | .drain _ => none

omit [DecidableEq Addr] in
theorem RecvThread.owing_eq_some {position : RecvThread Addr} {addr : Addr}
    : position.owing = some addr
      ↔ position.writing = some addr ∨ position.updating = some addr := by
  cases position <;> simp [owing, writing, updating]

omit [DecidableEq Addr] in
theorem RecvThread.owing_of_ahead {position : RecvThread Addr} {addr : Addr}
    (ahead : position.ahead = some addr)
    : position.owing = some addr := by
  cases position <;> first | exact ahead | cases ahead

/-- The connection whose `m_statusLock` the receive thread holds. -/
def RecvThread.inside : RecvThread Addr → Option Addr
  | .test addr _ | .store addr _ | .unlock addr _ => some addr
  | .recvfrom | .write _ _ _ | .push _ _ _ | .lock _ _ | .drain _ => none

/-- Between `Lock` and `UnLock` of `UnSelect`. -/
def Execute.inside : Execute → Bool
  | .getSize | .store _ | .unlock => true
  | .query | .send _ | .lock | .returned => false

/-- Who may hold a status lock. -/
inductive Holder
  | recvThread
  | thread (index : Nat)
  deriving DecidableEq, Repr

namespace Service

def holds (service : Service Addr Seq) : Holder → Addr → Prop
  | .recvThread, addr => service.recvThread.inside = some addr
  | .thread index, addr =>
      ∃ task,
        service.pool.executing index = some task
        ∧ task.execute.inside = true
        ∧ task.turn.key = addr

/-- A connection with bytes has status 1 or 2, or the receive thread will update it. An `UnSelect`
that will store 0 has seen an empty stream, and the receive thread cannot have looked at the status
since.
-/
structure Awake (service : Service Addr Seq) : Prop where
  locks : Exclusive service.statusLock service.holds
  fresh : ∀ task ∈ service.pool.waiting, task.execute = .query
  empties
    : ∀ index task,
        service.pool.executing index = some task
        → task.execute = .store .noData
        → (service.conn task.turn.key).byteStream = []
          ∨ service.recvThread.ahead = some task.turn.key
  awake
    : ∀ addr,
        (service.conn addr).byteStream ≠ []
        → (service.conn addr).status ≠ .noData ∨ service.recvThread.owing = some addr

variable {service next : Service Addr Seq} {task : SqlTask Addr} {index : Nat}

omit [DecidableEq Addr] in
/-- A step that takes and releases no status lock, and stores no status 0. -/
theorem Awake.quiet (awake : Awake service) (statusLock : next.statusLock = service.statusLock)
    (holds : ∀ holder addr, next.holds holder addr → service.holds holder addr)
    (waiting : ∀ task ∈ next.pool.waiting, task.execute = .query)
    (stream
      : ∀ addr, (next.conn addr).byteStream ≠ [] → (service.conn addr).byteStream ≠ [])
    (status
      : ∀ addr, (next.conn addr).status = .noData → (service.conn addr).status = .noData)
    (owing
      : ∀ addr,
          service.recvThread.owing = some addr
          → next.recvThread.owing = some addr ∨ (next.conn addr).status ≠ .noData)
    (ahead
      : ∀ addr,
          service.recvThread.ahead = some addr → next.recvThread.ahead = some addr)
    (storing
      : ∀ index task,
          next.pool.executing index = some task
          → task.execute = .store .noData
          → service.pool.executing index = some task
            ∨ (next.conn task.turn.key).byteStream = [])
    : Awake next := by
  constructor
  · rw [statusLock]
    exact awake.locks.mono holds
  · exact waiting
  · intro index task executing store
    rcases storing index task executing store with before | now
    · rcases awake.empties index task before store with empty | written
      · left
        by_contra some
        exact stream _ some empty
      · exact Or.inr (ahead _ written)
    · exact Or.inl now
  · intro addr some
    rcases awake.awake addr (stream addr some) with data | update
    · exact Or.inl (fun none => data (status addr none))
    · exact (owing addr update).symm

omit [DecidableEq Addr] in
/-- A step of the receive thread that pushes nothing and leaves the locks alone. -/
theorem Awake.recvThread_quiet (awake : Awake service)
    {position : RecvThread Addr} {socket : CTcpSocket Addr Seq}
    (inside : position.inside = service.recvThread.inside)
    (ahead : ∀ addr, service.recvThread.ahead = some addr → position.ahead = some addr)
    (stream : ∀ addr, (socket.connectMap addr).byteStream = (service.conn addr).byteStream)
    (status
      : ∀ addr,
          (socket.connectMap addr).status = .noData → (service.conn addr).status = .noData)
    (owing
      : ∀ addr,
          service.recvThread.owing = some addr
          → position.owing = some addr ∨ (socket.connectMap addr).status ≠ .noData)
    : Awake { service with socket, recvThread := position } := by
  refine awake.quiet rfl ?_ awake.fresh ?_ status owing ahead ?_
  · rintro (_ | index) addr held
    · exact inside.symm.trans held
    · exact held
  · intro addr some
    rwa [← stream addr]
  · intro index task executing _
    exact Or.inl executing

/-- A byte is pushed, and the update of its connection is to come. -/
theorem Awake.push (awake : Awake service) {addr : Addr} {byte : Byte} {rest : List Byte}
    {drained : Bool} (position : service.recvThread = .push addr (byte :: rest) drained)
    : Awake { service.push addr [byte] with recvThread := .push addr rest drained } := by
  have kept {other : Addr} (ne : other ≠ addr)
      : ((service.push addr [byte]).conn other).byteStream = (service.conn other).byteStream :=
    congrArg Conn.byteStream (push_ne ne [byte])
  constructor
  · refine awake.locks.mono ?_
    rintro (_ | index) other held
    · cases held
    · exact held
  · exact awake.fresh
  · intro index task executing store
    by_cases same : task.turn.key = addr
    · exact Or.inr (congrArg Option.some same.symm)
    · rcases awake.empties index task executing store with empty | written
      · exact Or.inl ((kept same).trans empty)
      · rw [position] at written
        exact absurd (Option.some.inj written).symm same
  · intro other some
    by_cases same : other = addr
    · exact Or.inr (congrArg Option.some same.symm)
    · rcases awake.awake other (fun empty => some ((kept same).trans empty)) with data | update
      · exact Or.inl (fun none => data ((push_status service addr _ other).symm.trans none))
      · rw [position] at update
        exact absurd (Option.some.inj update).symm same

/-- The receive thread takes a status lock: no `UnSelect` of that client is under way. -/
theorem Awake.lock (awake : Awake service) {addr : Addr} {drained : Bool}
    (position : service.recvThread = .lock addr drained)
    (free : service.statusLock addr = false)
    : Awake { service.setStatusLock addr true with recvThread := .test addr drained } := by
  constructor
  · refine @Exclusive.acquire _ _ _ _ _ Holder.recvThread _ _ awake.locks free ?_
    rintro (_ | index) other held
    · exact Or.inr ⟨rfl, (Option.some.inj held).symm⟩
    · exact Or.inl held
  · exact awake.fresh
  · intro index task executing store
    have held : service.holds (.thread index) task.turn.key :=
      ⟨task, executing, by rw [store]; rfl, rfl⟩
    rcases awake.empties index task executing store with empty | written
    · exact Or.inl empty
    · have marked := awake.locks.marked _ _ held
      rw [position] at written
      rw [← Option.some.inj written, free] at marked
      cases marked
  · intro other some
    rcases awake.awake other some with data | update
    · exact Or.inl data
    · rw [position] at update
      exact Or.inr update

theorem Awake.unlock (awake : Awake service) {addr : Addr} {drained : Bool} {moved : Conn Seq}
    (position : service.recvThread = .unlock addr drained)
    (stream : moved.byteStream = (service.conn addr).byteStream)
    (status : moved.status = (service.conn addr).status)
    : Awake
        { (service.setConn addr moved).setStatusLock addr false with
          recvThread := .drain addr } := by
  have streams : ∀ other,
      ((service.setConn addr moved).conn other).byteStream
      = (service.conn other).byteStream :=
    setConn_byteStream stream
  constructor
  · have held : service.holds .recvThread addr := by
      rw [holds, position]
      rfl
    refine awake.locks.release held ?_
    rintro (_ | index) other held
    · cases held
    · exact ⟨held, fun same => nomatch same.1⟩
  · exact awake.fresh
  · intro index task executing store
    rcases awake.empties index task executing store with empty | written
    · exact Or.inl ((streams _).trans empty)
    · rw [position] at written
      cases written
  · intro other some
    rcases awake.awake other (fun empty => some ((streams other).trans empty)) with
      data | update
    · exact Or.inl (fun none => data ((setConn_status status other).symm.trans none))
    · rw [position] at update
      cases update

theorem Awake.recvThread [Add Seq] [OfNat Seq 1] [DecidableEq Seq] (awake : Awake service)
    (stepped : service.recvThreadStep = some next)
    : Awake next := by
  cases recvThreadStep_move stepped with
  | push addr byte rest drained position => exact awake.push position
  | lock addr drained position free => exact awake.lock position free
  | written addr drained counted position stream status =>
      refine awake.recvThread_quiet (by rw [position]; rfl) ?_ (setConn_byteStream stream) ?_ ?_
      · intro other written
        rwa [position] at written
      · exact fun other none => (setConn_status status other).symm.trans none
      · intro other update
        rw [position] at update
        exact Or.inl update
  | noData addr drained position noData =>
      refine awake.recvThread_quiet (by rw [position]; rfl) ?_ (fun _ => rfl)
        (fun _ none => none) ?_
      · intro other written
        rw [position] at written
        cases written
      · intro other update
        rw [position] at update
        exact Or.inl update
  | someData addr drained position someData =>
      refine awake.recvThread_quiet (by rw [position]; rfl) ?_ (fun _ => rfl)
        (fun _ none => none) ?_
      · intro other written
        rw [position] at written
        cases written
      · intro other update
        rw [position] at update
        obtain rfl := Option.some.inj update
        exact Or.inr someData
  | store addr drained position =>
      refine awake.recvThread_quiet (by rw [position]; rfl) ?_ (setConn_byteStream rfl) ?_ ?_
      · intro other written
        rw [position] at written
        cases written
      · intro other none
        by_cases same : other = addr
        · subst same
          simp [setConn] at none
        · simpa [Service.conn, setConn, same] using none
      · intro other update
        rw [position] at update
        obtain rfl := Option.some.inj update
        simp [setConn]
  | unlock addr drained moved position stream status => exact awake.unlock position stream status
  | write addr _ _ position | next addr _ position | drained addr position =>
      refine awake.recvThread_quiet (by rw [position]; rfl) ?_ (fun _ => rfl)
        (fun _ none => none) ?_
      · intro other written
        rw [position] at written
        cases written
      · intro other update
        rw [position] at update
        cases update

omit [DecidableEq Addr] in
/-- A step of `Execute` that takes and releases no status lock, and stores no status. An
`UnSelect` that decides on status 0 finds the stream empty.
-/
theorem Awake.executeQuiet (awake : Awake service)
    (executing : service.pool.executing index = some task)
    {socket : CTcpSocket Addr Seq} {queued : List (Turns.Turn Addr × Packet Seq)}
    (same
      : ∀ addr,
          (socket.connectMap addr).byteStream = (service.conn addr).byteStream
          ∧ (socket.connectMap addr).status = (service.conn addr).status)
    {execute : Execute} (inside : execute.inside = task.execute.inside)
    (empty : execute = .store .noData → (service.conn task.turn.key).byteStream = [])
    : Awake (setTask { service with socket, queued } index { task with execute }) := by
  refine awake.quiet rfl ?_ ?_ ?_ ?_ (fun _ update => Or.inl update) (fun _ written => written) ?_
  · rintro (_ | other) addr held
    · exact held
    · obtain ⟨found, executes, holding, key⟩ := held
      rcases ThreadPool.executing_setThread executes with ⟨rfl, now⟩ | ⟨_, before⟩
      · cases now
        exact ⟨task, executing, inside.symm.trans holding, key⟩
      · exact ⟨found, before, holding, key⟩
  · exact fun other member => awake.fresh other (ThreadPool.waiting_setThread rfl member)
  · intro addr some
    rwa [← (same addr).1]
  · intro addr none
    rwa [← (same addr).2]
  · intro other found executes store
    rcases ThreadPool.executing_setThread executes with ⟨rfl, now⟩ | ⟨_, before⟩
    · cases now
      exact Or.inr ((same _).1.trans (empty store))
    · exact Or.inl before

theorem Awake.selectLock (awake : Awake service)
    (executing : service.pool.executing index = some task)
    (free : service.statusLock task.turn.key = false)
    : Awake
        ((service.setStatusLock task.turn.key true).setTask index
          { task with execute := .getSize }) := by
  have taken : ∀ {other : Nat} {found : SqlTask Addr},
      ((service.setStatusLock task.turn.key true).setTask index
        { task with execute := .getSize }).pool.executing other = some found
      → (other = index ∧ found = { task with execute := .getSize })
        ∨ service.pool.executing other = some found := by
    intro other found executes
    rcases ThreadPool.executing_setThread executes with ⟨same, now⟩ | ⟨_, before⟩
    · cases now
      exact Or.inl ⟨same, rfl⟩
    · exact Or.inr before
  constructor
  · refine @Exclusive.acquire _ _ _ _ _ (Holder.thread index) _ _ awake.locks free ?_
    rintro (_ | other) addr held
    · exact Or.inl held
    · obtain ⟨found, executes, holding, key⟩ := held
      rcases taken executes with ⟨rfl, rfl⟩ | before
      · exact Or.inr ⟨rfl, key.symm⟩
      · exact Or.inl ⟨found, before, holding, key⟩
  · exact fun other member => awake.fresh other (ThreadPool.waiting_setThread rfl member)
  · intro other found executes store
    rcases taken executes with ⟨rfl, rfl⟩ | before
    · cases store
    · exact awake.empties other found before store
  · exact awake.awake

/-- `UnSelect` stores a status: when it is 0, the stream was empty under the lock. -/
theorem Awake.selectStore (awake : Awake service)
    (executing : service.pool.executing index = some task) {status : Status}
    (position : task.execute = .store status)
    : Awake
        ((service.setConn task.turn.key
            { service.conn task.turn.key with status := status }).setTask index
          { task with execute := .unlock }) := by
  have streams : ∀ addr,
      ((service.setConn task.turn.key
        { service.conn task.turn.key with status := status }).conn addr).byteStream
      = (service.conn addr).byteStream :=
    setConn_byteStream rfl
  constructor
  · refine awake.locks.mono ?_
    rintro (_ | other) addr held
    · exact held
    · obtain ⟨found, executes, holding, key⟩ := held
      rcases ThreadPool.executing_setThread executes with ⟨rfl, now⟩ | ⟨_, before⟩
      · cases now
        exact ⟨task, executing, by rw [position]; rfl, key⟩
      · exact ⟨found, before, holding, key⟩
  · exact fun other member => awake.fresh other (ThreadPool.waiting_setThread rfl member)
  · intro other found executes store
    rcases ThreadPool.executing_setThread executes with ⟨rfl, now⟩ | ⟨_, before⟩
    · cases now
      cases store
    · rcases awake.empties other found before store with empty | written
      · exact Or.inl ((streams _).trans empty)
      · exact Or.inr written
  · intro addr some
    have filled : (service.conn addr).byteStream ≠ [] :=
      fun empty => some ((streams addr).trans empty)
    by_cases same : addr = task.turn.key
    · subst same
      cases stored : status with
      | noData =>
          rw [stored] at position
          rcases awake.empties index task executing position with empty | written
          · exact absurd empty filled
          · exact Or.inr (RecvThread.owing_of_ahead written)
      | hasData | receiving => simp [Service.conn, setConn, setTask]
    · have kept : (service.setConn task.turn.key
            { service.conn task.turn.key with status := status }).conn addr
          = service.conn addr :=
        setConn_ne same _
      rcases awake.awake addr filled with data | update
      · left
        change ((service.setConn _ _).conn addr).status ≠ _
        rwa [kept]
      · exact Or.inr update

theorem Awake.selectUnlock (awake : Awake service)
    (executing : service.pool.executing index = some task)
    (position : task.execute = .unlock)
    : Awake
        ((service.setStatusLock task.turn.key false).setTask index
          { task with execute := .returned }) := by
  constructor
  · have held : service.holds (.thread index) task.turn.key :=
      ⟨task, executing, by rw [position]; rfl, rfl⟩
    refine awake.locks.release held ?_
    rintro (_ | other) addr holding
    · exact ⟨holding, fun same => nomatch same.1⟩
    · obtain ⟨found, executes, inside, key⟩ := holding
      rcases ThreadPool.executing_setThread executes with ⟨_, now⟩ | ⟨different, before⟩
      · cases now
        cases inside
      · exact ⟨⟨found, before, inside, key⟩, fun same => different (Holder.thread.inj same.1)⟩
  · exact fun other member => awake.fresh other (ThreadPool.waiting_setThread rfl member)
  · intro other found executes store
    rcases ThreadPool.executing_setThread executes with ⟨_, now⟩ | ⟨_, before⟩
    · cases now
      cases store
    · exact awake.empties other found before store
  · exact awake.awake

omit [DecidableEq Addr] in
/-- A step of the pool that lets no task execute that did not wait. -/
theorem Awake.pool (awake : Awake service) {pool : ThreadPool (SqlTask Addr)}
    (waiting : pool.waiting ⊆ service.pool.waiting)
    (begins
      : ∀ other found,
          pool.executing other = some found
          → service.pool.executing other = some found ∨ found ∈ service.pool.waiting)
    : Awake { service with pool := pool } := by
  refine awake.quiet rfl ?_ (fun other member => awake.fresh other (waiting member))
    (fun _ some => some) (fun _ none => none) (fun _ update => Or.inl update)
    (fun _ written => written) ?_
  · rintro (_ | other) addr held
    · exact held
    · obtain ⟨found, executes, inside, key⟩ := held
      rcases begins other found executes with before | waited
      · exact ⟨found, before, inside, key⟩
      · rw [awake.fresh found waited] at inside
        cases inside
  · intro other found executes store
    rcases begins other found executes with before | waited
    · exact Or.inl before
    · rw [awake.fresh found waited] at store
      cases store

theorem Awake.execute [Add Seq] [OfNat Seq 1] (awake : Awake service)
    (stepped : service.executeStep index = some next)
    : Awake next := by
  cases executeStep_move stepped with
  | send task buf rest executing execute =>
      refine awake.executeQuiet executing ?_ (by rw [execute]; rfl) ?_
      · intro addr
        rw [CTcpSocket.send, CTcpSocket.queuePackets_conn]
        exact ⟨rfl, rfl⟩
      · intro store
        cases store
  | sent task executing execute =>
      apply awake.executeQuiet executing (fun _ => ⟨rfl, rfl⟩) (by rw [execute]; rfl)
      intro store
      cases store
  | lock task executing execute free => exact awake.selectLock executing free
  | getSize task status executing execute size =>
      refine awake.executeQuiet executing (fun _ => ⟨rfl, rfl⟩) (by rw [execute]; rfl) ?_
      rintro ⟨⟩
      rcases size with ⟨empty, _⟩ | ⟨_, hasData⟩
      · exact empty
      · cases hasData
  | store task status executing execute => exact awake.selectStore executing execute
  | unlock task executing execute => exact awake.selectUnlock executing execute
  | returned task pool executing execute executed =>
      obtain ⟨waiting, begins⟩ := ThreadPool.executed_waiting executed
      exact awake.pool waiting (fun other found executes => Or.inl (begins other found executes))

omit [DecidableEq Addr] in
theorem Awake.query (awake : Awake service) {outcome : Exchange.Outcome}
    (stepped : service.query index outcome = some next)
    : Awake next := by
  obtain ⟨task, bufs, executing, execute, rfl⟩ := query_move stepped
  exact awake.executeQuiet executing (fun _ => ⟨rfl, rfl⟩) (by rw [execute]; rfl) nofun

omit [DecidableEq Addr] in
/-- A step that touches neither the locks nor the pool nor the receive thread. -/
theorem Awake.frame (awake : Awake service) (statusLock : next.statusLock = service.statusLock)
    (pool : next.pool = service.pool) (recvThread : next.recvThread = service.recvThread)
    (stream
      : ∀ addr, (next.conn addr).byteStream ≠ [] → (service.conn addr).byteStream ≠ [])
    (status
      : ∀ addr, (next.conn addr).status = .noData → (service.conn addr).status = .noData)
    : Awake next := by
  refine awake.quiet statusLock ?_ ?_ stream status ?_ ?_ ?_
  · rintro (_ | other) addr held
    · rwa [holds, recvThread] at held
    · rwa [holds, pool] at held
  · rw [pool]
    exact awake.fresh
  · intro addr update
    rw [recvThread]
    exact Or.inl update
  · intro addr written
    rwa [recvThread]
  · intro other found executes _
    rw [pool] at executes
    exact Or.inl executes

theorem Awake.read (awake : Awake service) {addr : Addr} {nReadLen : Nat}
    {mainLoop : MainLoop Addr}
    : Awake { service.read addr nReadLen with mainLoop := mainLoop } := by
  have status : ∀ other,
      ((service.read addr nReadLen).conn other).status = (service.conn other).status :=
    setConn_status rfl
  refine awake.frame rfl rfl rfl ?_ (fun other none => (status other).symm.trans none)
  intro other some empty
  refine some ?_
  by_cases same : other = addr
  · subst same
    change (service.socket.connectMap other).byteStream = [] at empty
    simp [Service.conn, Service.read, setConn, empty]
  · exact (congrArg Conn.byteStream (setConn_ne same _)).trans empty

theorem Awake.mainLoop (awake : Awake service) (stepped : service.mainLoopStep = some next)
    : Awake next := by
  cases mainLoopStep_move stepped with
  | take addr position =>
      have streams : ∀ other,
          ((service.setConn addr { service.conn addr with status := .receiving }).conn
            other).byteStream
          = (service.conn other).byteStream :=
        setConn_byteStream rfl
      refine awake.frame rfl rfl rfl ?_ ?_
      · exact fun other some empty => some ((streams other).trans empty)
      · intro other none
        by_cases same : other = addr
        · subst same
          simp [Service.conn, setConn] at none
        · simpa [Service.conn, setConn, same] using none
  | recvLen | recvBuf | added =>
      exact awake.frame rfl rfl rfl (fun _ some => some) (fun _ none => none)
  | readLen | readBuf => exact awake.read
  | addTask turn sql pool position called =>
      obtain ⟨waiting, executing⟩ := ThreadPool.call_waiting called
      refine awake.quiet rfl ?_ ?_ (fun _ some => some) (fun _ none => none)
        (fun _ update => Or.inl update) (fun _ written => written) ?_
      · rintro (_ | other) addr held
        · exact held
        · rwa [holds, executing] at held
      · intro other member
        rcases List.mem_cons.mp (waiting member) with rfl | before
        · rfl
        · exact awake.fresh other before
      · intro other found executes _
        exact Or.inl ((executing other).symm.trans executes)

/-- A datagram that arrives changes no stream and no status. -/
theorem arrive_frame [Add Seq] [OfNat Seq 0] [OfNat Seq 1] [DecidableEq Seq] [LT Seq]
    [DecidableLT Seq] {fromAddr : Addr} {packet : Packet Seq}
    (stepped : service.arrive fromAddr packet = some next)
    : next.statusLock = service.statusLock
      ∧ next.pool = service.pool
      ∧ next.mainLoop = service.mainLoop
      ∧ (∀ addr,
          (next.conn addr).byteStream = (service.conn addr).byteStream
          ∧ (next.conn addr).status = (service.conn addr).status)
      ∧ service.recvThread = .recvfrom
      ∧ (next.recvThread = .recvfrom
        ∨ ∃ data, next.recvThread = .write fromAddr data false) := by
  have kept : ∀ {conn : Conn Seq},
      conn.byteStream = (service.conn fromAddr).byteStream
      → conn.status = (service.conn fromAddr).status
      → ∀ addr,
          ((service.setConn fromAddr conn).conn addr).byteStream
            = (service.conn addr).byteStream
          ∧ ((service.setConn fromAddr conn).conn addr).status = (service.conn addr).status :=
    fun stream status addr => ⟨setConn_byteStream stream addr, setConn_status status addr⟩
  obtain ⟨position, move⟩ := arrive_move stepped
  cases move with
  | write data => exact ⟨rfl, rfl, rfl, fun _ => ⟨rfl, rfl⟩, position, Or.inr ⟨data, rfl⟩⟩
  | hold packet => exact ⟨rfl, rfl, rfl, kept rfl rfl, position, Or.inl position⟩
  | ignore => exact ⟨rfl, rfl, rfl, fun _ => ⟨rfl, rfl⟩, position, Or.inl position⟩
  | handle packet other =>
      refine ⟨rfl, rfl, rfl, ?_, position, Or.inl rfl⟩
      cases packet with
      | establish1 seq => exact kept rfl rfl
      | establish2 | ack => exact fun _ => ⟨rfl, rfl⟩
      | data => cases other

theorem Awake.arrive [Add Seq] [OfNat Seq 0] [OfNat Seq 1] [DecidableEq Seq] [LT Seq]
    [DecidableLT Seq] (awake : Awake service) {fromAddr : Addr} {packet : Packet Seq}
    (stepped : service.arrive fromAddr packet = some next)
    : Awake next := by
  obtain ⟨statusLock, pool, _, kept, position, moves⟩ := arrive_frame stepped
  refine awake.quiet statusLock ?_ (by rw [pool]; exact awake.fresh) ?_ ?_ ?_ ?_ ?_
  · rintro (_ | other) addr held
    · rcases moves with same | ⟨data, write⟩
      · rw [holds, same] at held
        cases held
      · rw [holds, write] at held
        cases held
    · rwa [holds, pool] at held
  · intro addr some
    rwa [← (kept addr).1]
  · intro addr none
    rwa [← (kept addr).2]
  · intro addr update
    rw [position] at update
    cases update
  · intro addr written
    rw [position] at written
    cases written
  · intro other found executes _
    rw [pool] at executes
    exact Or.inl executes

omit [DecidableEq Addr] in
theorem Awake.select (awake : Awake service) {addr : Addr}
    (stepped : service.select addr = some next)
    : Awake next := by
  rcases select_move stepped with rfl | ⟨_, _, rfl⟩
  · exact awake
  · exact awake.frame rfl rfl rfl (fun _ some => some) (fun _ none => none)

section Runs

variable [Add Seq] [OfNat Seq 0] [OfNat Seq 1] [DecidableEq Seq] [LT Seq] [DecidableLT Seq]
  {event : Event Addr Seq}

theorem Awake.step (awake : Awake service) (stepped : service.step event = some next)
    : Awake next := by
  cases event with
  | arrive fromAddr packet => exact awake.arrive stepped
  | recvThread => exact awake.recvThread stepped
  | select addr => exact awake.select stepped
  | mainLoop => exact awake.mainLoop stepped
  | addTask =>
      obtain ⟨pool, moved, rfl⟩ := Option.map_eq_some_iff.mp stepped
      obtain ⟨waiting, begins⟩ := ThreadPool.addTaskStep_waiting moved
      exact awake.pool waiting (fun other found executes => Or.inl (begins other found executes))
  | thread index =>
      obtain ⟨pool, moved, rfl⟩ := Option.map_eq_some_iff.mp stepped
      obtain ⟨waiting, begins⟩ := ThreadPool.threadStep_waiting moved
      exact awake.pool waiting begins
  | query index outcome => exact awake.query stepped
  | execute index => exact awake.execute stepped
  | transmit index clock =>
      obtain ⟨⟨socket, datagrams⟩, sent, rfl⟩ := Option.map_eq_some_iff.mp stepped
      have same := sendThreadProc_conn sent
      refine awake.frame rfl rfl rfl (fun addr some => ?_) (fun addr none => ?_)
      · rwa [← same addr]
      · rwa [← same addr]

omit [DecidableEq Addr] [Add Seq] [OfNat Seq 1] [DecidableEq Seq] [LT Seq] [DecidableLT Seq] in
theorem awake_new (processors : Nat) : Awake (new processors : Service Addr Seq) := by
  constructor
  · refine Locks.exclusive_of_none ?_
    rintro (_ | index) addr held
    · cases held
    · obtain ⟨task, executing, _⟩ := held
      cases executing
  · intro task waits
    cases waits
  · intro index task executing
    cases executing
  · intro addr some
    exact absurd rfl some

/-- No wake-up is lost: in every state that any interleaving reaches, a connection with bytes
in its stream has status 1 or 2, or the receive thread is in a `Write` to it, or has written to it
and has its status still to update.
-/
theorem awake_of_run (processors : Nat) (events : List (Event Addr Seq))
    {final : Service Addr Seq}
    (ran : TransitionSystem.run step (new processors) events = some final) (addr : Addr)
    (bytes : (final.conn addr).byteStream ≠ [])
    : (final.conn addr).status = .hasData
      ∨ (final.conn addr).status = .receiving
      ∨ final.recvThread.writing = some addr
      ∨ final.recvThread.updating = some addr := by
  have awake := TransitionSystem.run_invariant Awake.step (awake_new processors) ran
  rcases awake.awake addr bytes with data | update
  · cases status : (final.conn addr).status with
    | noData => exact absurd status data
    | hasData => exact Or.inl rfl
    | receiving => exact Or.inr (Or.inl rfl)
  · exact Or.inr (Or.inr (RecvThread.owing_eq_some.mp update))

/-- The bytes of the next request come while `UnSelect` has seen an empty stream. -/
def lateWrite : List (Event Nat Int) :=
  oneRequest.dropLast.dropLast.dropLast
    ++ [.arrive 7 (.data ⟨3, [2]⟩), .recvThread, .recvThread, .recvThread, .execute 0]

/-- Status 0 and a byte in the stream, in the state after that. -/
def sleeping : Option (Service Nat Int) :=
  (TransitionSystem.run step (new 1) lateWrite).filter
    (fun final =>
      (final.conn 7).byteStream = [2] ∧ (final.conn 7).status = .noData)

theorem awake_lateWrite
    : ∃ final : Service Nat Int,
        TransitionSystem.run step (new 1) lateWrite = some final
        ∧ (final.conn 7).status = .noData
        ∧ ((final.conn 7).status = .hasData
          ∨ (final.conn 7).status = .receiving
          ∨ final.recvThread.writing = some 7
          ∨ final.recvThread.updating = some 7) := by
  obtain ⟨final, found⟩ := Option.isSome_iff_exists.mp (by decide +kernel : sleeping.isSome)
  obtain ⟨ran, state⟩ := Option.filter_eq_some_iff.mp found
  obtain ⟨bytes, status⟩ := of_decide_eq_true state
  exact ⟨final, ran, status, awake_of_run 1 lateWrite ran 7 (by rw [bytes]; simp)⟩

end Runs

end Service

end SchoolSystem.Server
