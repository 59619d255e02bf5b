import SchoolSystem.Server.Moves

/-! Requests in progress: from the moment `Select` stores status 2 for a client to the moment
`UnSelect` stores the next one.
-/

namespace SchoolSystem.Server

open TcpSocket
open Turns (Turn Orderly)

open scoped List

variable {Addr Seq : Type} [DecidableEq Addr]

/-- The request that the main loop is reading, or passes to `AddTask`. -/
def MainLoop.turns : MainLoop Addr → List (Turn Addr)
  | .recvLen turn | .readLen turn _ | .recvBuf turn _ | .readBuf turn _ | .addTask turn _ =>
      [turn]
  | .select | .found _ | .adding => []

/-- `UnSelect` has not stored the next status yet. -/
def SqlTask.inProgress (task : SqlTask Addr) : Bool :=
  match task.execute with
  | .query | .send _ | .lock | .getSize | .store _ => true
  | .unlock | .returned => false

def taskTurns (tasks : List (SqlTask Addr)) : List (Turn Addr) :=
  (tasks.filter SqlTask.inProgress).map SqlTask.turn

omit [DecidableEq Addr] in
theorem taskTurns_append (tasks more : List (SqlTask Addr))
    : taskTurns (tasks ++ more) = taskTurns tasks ++ taskTurns more := by
  simp [taskTurns]

namespace Service

/-- The requests that are being read by the main loop, queued in the pool or executing. -/
def inProgress (service : Service Addr Seq) : List (Turn Addr) :=
  service.mainLoop.turns ++ taskTurns service.pool.tasks

/-- How many requests of a client are in progress. -/
def requests (service : Service Addr Seq) (addr : Addr) : Nat :=
  (service.inProgress.map Turn.key).count addr

/-- The `DATA` packets that are pending, with their addresses. -/
def pendingData (service : Service Addr Seq) : List (Addr × Packet Seq) :=
  service.socket.pendingPackets.filter (fun entry => entry.2.isData)

/-- The numbers of the requests that a client's packets reply to, in the order in which they
were queued.
-/
def repliedTo (service : Service Addr Seq) (addr : Addr) : List Nat :=
  (service.queued.filter (fun sent => sent.1.key == addr)).map (fun sent => sent.1.number)

/-- One request of a client at a time, and its replies one after the other: the packets are
queued in the order of the requests, and the pending ones are some of them in that order.
-/
structure OneAtATime (service : Service Addr Seq) : Prop where
  atMostOne : ∀ addr, service.requests addr ≤ 1
  onlyReceiving : ∀ addr, (service.conn addr).status ≠ .receiving → service.requests addr = 0
  inOrder : ∀ addr, (service.repliedTo addr).Pairwise (· ≤ ·)
  pending
    : service.pendingData <+ service.queued.map (fun (turn, packet) => (turn.key, packet))

-----------------------------------------------------------------------------------------
-- Who owns a status
-----------------------------------------------------------------------------------------

/-- A status belongs to the receive thread while it is 0, to the main loop while it is 1, and
to the request in progress while it is 2.
-/
structure Owned (service : Service Addr Seq) : Prop where
  orderly
    : Orderly service.selected service.inProgress (service.queued.map Prod.fst)
  receiving : ∀ turn ∈ service.inProgress, (service.conn turn.key).status = .receiving
  found : ∀ addr, service.mainLoop = .found addr → (service.conn addr).status = .hasData
  storing
    : ∀ addr drained,
        service.recvThread = .store addr drained → (service.conn addr).status = .noData

variable {service next : Service Addr Seq} {task : SqlTask Addr} {index : Nat}

omit [DecidableEq Addr] in
/-- The main loop goes on with its request, and the pool with its tasks. -/
theorem inProgress_same (turns : next.mainLoop.turns = service.mainLoop.turns)
    (pool : next.pool = service.pool)
    : next.inProgress ~ service.inProgress := by
  rw [inProgress, inProgress, turns, pool]

omit [DecidableEq Addr] in
/-- A step that stores no status and queues nothing; it may drop a request. -/
theorem Owned.quiet (owned : Owned service)
    (status : ∀ addr, (next.conn addr).status = (service.conn addr).status)
    (selected : next.selected = service.selected) (queued : next.queued = service.queued)
    (inProgress : next.inProgress <+~ service.inProgress)
    (found
      : ∀ addr, next.mainLoop = .found addr → (service.conn addr).status = .hasData)
    (storing
      : ∀ addr drained,
          next.recvThread = .store addr drained → (service.conn addr).status = .noData)
    : Owned next := by
  constructor
  · rw [selected, queued]
    exact owned.orderly.subperm inProgress
  · intro turn member
    rw [status]
    exact owned.receiving turn (inProgress.subset member)
  · intro addr position
    rw [status]
    exact found addr position
  · intro addr drained position
    rw [status]
    exact storing addr drained position

omit [DecidableEq Addr] in
/-- A step that stores the status of a client without a request in progress. -/
theorem Owned.stores (owned : Owned service) (addr : Addr)
    (status : ∀ other, other ≠ addr → (next.conn other).status = (service.conn other).status)
    (selected : next.selected = service.selected) (queued : next.queued = service.queued)
    (inProgress : next.inProgress <+~ service.inProgress)
    (free : ∀ turn ∈ next.inProgress, turn.key ≠ addr)
    (found
      : ∀ other,
          next.mainLoop = .found other
          → other ≠ addr ∧ (service.conn other).status = .hasData)
    (storing
      : ∀ other drained,
          next.recvThread = .store other drained
          → other ≠ addr ∧ (service.conn other).status = .noData)
    : Owned next := by
  constructor
  · rw [selected, queued]
    exact owned.orderly.subperm inProgress
  · intro turn member
    rw [status turn.key (free turn member)]
    exact owned.receiving turn (inProgress.subset member)
  · intro other position
    obtain ⟨ne, hasData⟩ := found other position
    rw [status other ne]
    exact hasData
  · intro other drained position
    obtain ⟨ne, noData⟩ := storing other drained position
    rw [status other ne]
    exact noData

theorem Owned.recvThread [Add Seq] [OfNat Seq 1] [DecidableEq Seq] (owned : Owned service)
    (stepped : service.recvThreadStep = some next)
    : Owned next := by
  cases recvThreadStep_move stepped with
  | push addr byte rest drained position =>
      exact owned.quiet (setConn_status rfl) rfl rfl (List.Subperm.refl _) owned.found nofun
  | written addr drained counted position stream status =>
      exact owned.quiet (setConn_status status) rfl rfl (List.Subperm.refl _) owned.found nofun
  | noData addr drained position noData =>
      refine owned.quiet (fun _ => rfl) rfl rfl (List.Subperm.refl _) owned.found ?_
      rintro _ _ ⟨⟩
      exact noData
  | store addr drained position =>
      have noData := owned.storing addr drained position
      refine owned.stores addr ?_ rfl rfl (List.Subperm.refl _) ?_ ?_ nofun
      · intro other ne
        exact congrArg Conn.status (setConn_ne ne _)
      · rintro turn member rfl
        exact absurd ((owned.receiving turn member).symm.trans noData) (by decide)
      · intro other search
        refine ⟨?_, owned.found other search⟩
        rintro rfl
        exact absurd ((owned.found other search).symm.trans noData) (by decide)
  | unlock addr drained moved position stream status =>
      exact owned.quiet (setConn_status status) rfl rfl (List.Subperm.refl _) owned.found nofun
  | write | lock | someData | next | drained =>
      exact owned.quiet (fun _ => rfl) rfl rfl (List.Subperm.refl _) owned.found nofun

theorem Owned.arrive [Add Seq] [OfNat Seq 0] [OfNat Seq 1] [DecidableEq Seq] [LT Seq]
    [DecidableLT Seq] (owned : Owned service) {fromAddr : Addr} {packet : Packet Seq}
    (stepped : service.arrive fromAddr packet = some next)
    : Owned next := by
  obtain ⟨_, move⟩ := arrive_move stepped
  cases move with
  | write data =>
      exact owned.quiet (fun _ => rfl) rfl rfl (List.Subperm.refl _) owned.found nofun
  | hold packet =>
      exact owned.quiet (setConn_status rfl) rfl rfl (List.Subperm.refl _) owned.found
        owned.storing
  | ignore => exact owned
  | handle packet other =>
      refine owned.quiet ?_ rfl rfl (List.Subperm.refl _) owned.found nofun
      cases packet with
      | establish1 seq => exact setConn_status rfl
      | establish2 | ack => exact fun _ => rfl
      | data => cases other

omit [DecidableEq Addr] in
theorem Owned.select (owned : Owned service) {addr : Addr}
    (stepped : service.select addr = some next)
    : Owned next := by
  rcases select_move stepped with rfl | ⟨position, hasData, rfl⟩
  · exact owned
  · refine owned.quiet (fun _ => rfl) rfl rfl ?_ ?_ owned.storing
    · exact List.Perm.subperm (inProgress_same (by rw [position]; rfl) rfl)
    · rintro _ ⟨⟩
      exact hasData

theorem Owned.mainLoop (owned : Owned service) (stepped : service.mainLoopStep = some next)
    : Owned next := by
  cases mainLoopStep_move stepped with
  | take addr position =>
      have hasData := owned.found addr position
      have none : ∀ turn ∈ service.inProgress, turn.key ≠ addr := by
        rintro turn member rfl
        exact absurd ((owned.receiving turn member).symm.trans hasData) (by decide)
      have more : inProgress
            {
              service.setConn addr { service.conn addr with status := .receiving } with
              mainLoop := .recvLen ⟨service.selected, addr⟩
              selected := service.selected + 1
            }
          = ⟨service.selected, addr⟩ :: service.inProgress := by
        simp [inProgress, MainLoop.turns, position, setConn]
      constructor
      · rw [more]
        apply owned.orderly.take
        intro member
        obtain ⟨turn, taken, same⟩ := List.mem_map.mp member
        exact none turn taken same
      · intro turn member
        rw [more] at member
        rcases List.mem_cons.mp member with rfl | earlier
        · simp [Service.conn, setConn]
        · exact (congrArg Conn.status (setConn_ne (none turn earlier) _)).trans
            (owned.receiving turn earlier)
      · rintro _ ⟨⟩
      · intro other drained store
        have noData := owned.storing other drained store
        have ne : other ≠ addr := by
          rintro rfl
          exact absurd (hasData.symm.trans noData) (by decide)
        exact (congrArg Conn.status (setConn_ne ne _)).trans noData
  | recvLen _ _ position | recvBuf _ _ _ position | added position =>
      refine owned.quiet (fun _ => rfl) rfl rfl ?_ ?_ owned.storing
      · exact List.Perm.subperm (inProgress_same (by rw [position]; rfl) rfl)
      · intro addr found
        cases found
  | readLen _ _ _ position | readBuf _ _ _ position =>
      refine owned.quiet (setConn_status rfl) rfl rfl ?_ ?_ owned.storing
      · exact List.Perm.subperm (inProgress_same (by rw [position]; rfl) rfl)
      · intro addr found
        cases found
  | addTask turn sql pool position called =>
      refine owned.quiet (fun _ => rfl) rfl rfl ?_ ?_ owned.storing
      · apply List.Perm.subperm
        rw [inProgress, inProgress, ThreadPool.call_tasks called, position]
        exact List.Perm.refl _
      · intro addr found
        cases found

omit [DecidableEq Addr] in
theorem inProgress_tasks {pool : ThreadPool (SqlTask Addr)}
    (tasks : pool.tasks <+~ service.pool.tasks)
    : { service with pool := pool }.inProgress <+~ service.inProgress := by
  apply (List.subperm_append_left _).mpr
  obtain ⟨kept, perm, sublist⟩ := tasks
  exact ⟨taskTurns kept, (perm.filter _).map _, (sublist.filter _).map _⟩

omit [DecidableEq Addr] in
theorem Owned.pool (owned : Owned service) {pool : ThreadPool (SqlTask Addr)}
    (tasks : pool.tasks <+~ service.pool.tasks)
    : Owned { service with pool := pool } :=
  owned.quiet (fun _ => rfl) rfl rfl (inProgress_tasks tasks) owned.found owned.storing

omit [DecidableEq Addr] in
theorem Owned.addTask (owned : Owned service) {pool : ThreadPool (SqlTask Addr)}
    (stepped : service.pool.addTaskStep = some pool)
    : Owned { service with pool := pool } := by
  apply owned.pool
  rcases ThreadPool.addTaskStep_tasks stepped with kept | ⟨task, _, _, dropped⟩
  · exact kept.subperm
  · rw [dropped]
    exact (List.sublist_cons_self task pool.tasks).subperm

omit [DecidableEq Addr] in
/-- A step of `Execute` exchanges the request of its own task only. -/
theorem inProgress_executing (executing : service.pool.executing index = some task)
    {new : SqlTask Addr} (pool : next.pool = service.pool.setThread index (.execute new))
    (mainLoop : next.mainLoop = service.mainLoop)
    : taskTurns [task] ++ next.inProgress ~ taskTurns [new] ++ service.inProgress := by
  have tasks := service.pool.setThread_tasks (.execute new)
    (ThreadPool.executing_eq_some.mp executing)
  have turns
      : taskTurns [task] ++ taskTurns next.pool.tasks
        ~ taskTurns [new] ++ taskTurns service.pool.tasks := by
    rw [pool, ← taskTurns_append, ← taskTurns_append]
    exact (tasks.filter SqlTask.inProgress).map SqlTask.turn
  rw [inProgress, mainLoop]
  calc
    taskTurns [task] ++ (service.mainLoop.turns ++ taskTurns next.pool.tasks)
        ~ service.mainLoop.turns ++ (taskTurns [task] ++ taskTurns next.pool.tasks) :=
      List.perm_append_comm_assoc _ _ _
    _ ~ service.mainLoop.turns ++ (taskTurns [new] ++ taskTurns service.pool.tasks) :=
      turns.append_left _
    _ ~ taskTurns [new] ++ service.inProgress := List.perm_append_comm_assoc _ _ _

omit [DecidableEq Addr] in
/-- A task keeps its request until its `UnSelect` stores a status. -/
theorem inProgress_kept (executing : service.pool.executing index = some task)
    {new : SqlTask Addr} (pool : next.pool = service.pool.setThread index (.execute new))
    (mainLoop : next.mainLoop = service.mainLoop) (turn : new.turn = task.turn)
    (kept : new.inProgress = task.inProgress)
    : next.inProgress ~ service.inProgress := by
  have turns := inProgress_executing executing pool mainLoop
  have same : taskTurns [new] = taskTurns [task] := by
    cases progress : task.inProgress <;> simp [taskTurns, turn, kept, progress]
  rw [same] at turns
  exact (List.perm_append_left_iff _).mp turns

omit [DecidableEq Addr] in
theorem inProgress_ended (executing : service.pool.executing index = some task)
    {new : SqlTask Addr} (pool : next.pool = service.pool.setThread index (.execute new))
    (mainLoop : next.mainLoop = service.mainLoop) (progress : task.inProgress = true)
    (ended : new.inProgress = false)
    : task.turn :: next.inProgress ~ service.inProgress := by
  have turns := inProgress_executing executing pool mainLoop
  have one : taskTurns [task] = [task.turn] := by simp [taskTurns, progress]
  have none : taskTurns [new] = [] := by simp [taskTurns, ended]
  rwa [one, none] at turns

omit [DecidableEq Addr] in
theorem turn_mem (executing : service.pool.executing index = some task)
    (progress : task.inProgress = true)
    : task.turn ∈ service.inProgress := by
  apply List.mem_append_right
  apply List.mem_map_of_mem
  exact List.mem_filter.mpr ⟨ThreadPool.executing_mem executing, progress⟩

omit [DecidableEq Addr] in
theorem Owned.query (owned : Owned service) {outcome : Exchange.Outcome}
    (stepped : service.query index outcome = some next)
    : Owned next := by
  obtain ⟨task, bufs, executing, execute, rfl⟩ := query_move stepped
  refine owned.quiet (fun _ => rfl) rfl rfl ?_ owned.found owned.storing
  refine List.Perm.subperm (inProgress_kept executing rfl rfl rfl ?_)
  rw [SqlTask.inProgress, SqlTask.inProgress, execute]

theorem send_status [Add Seq] [OfNat Seq 1] (turn : Turn Addr) (buf : List Byte)
    (addr : Addr)
    : ((service.send turn buf).conn addr).status = (service.conn addr).status := by
  rw [Service.conn, Service.send, CTcpSocket.send, CTcpSocket.queuePackets_conn]
  rfl

/-- A task in progress queues packets. -/
theorem Owned.send [Add Seq] [OfNat Seq 1] (owned : Owned service) {turn : Turn Addr}
    (member : turn ∈ service.inProgress) (buf : List Byte)
    : Owned (service.send turn buf) := by
  constructor
  · have record : (service.send turn buf).queued.map Prod.fst
        = service.queued.map Prod.fst
          ++ List.replicate (service.packets turn.key buf).length turn := by
      simp [Service.send, Function.comp_def]
    rw [record]
    exact owned.orderly.add member _
  · intro other taken
    rw [send_status]
    exact owned.receiving other taken
  · intro addr position
    rw [send_status]
    exact owned.found addr position
  · intro addr drained position
    rw [send_status]
    exact owned.storing addr drained position

omit [DecidableEq Addr] in
/-- `UnSelect` stores a status, and the request is over. -/
theorem Owned.unselect (owned : Owned service) {turn : Turn Addr}
    (ended : turn :: next.inProgress ~ service.inProgress)
    (status
      : ∀ other, other ≠ turn.key → (next.conn other).status = (service.conn other).status)
    (selected : next.selected = service.selected) (queued : next.queued = service.queued)
    (mainLoop : next.mainLoop = service.mainLoop)
    (recvThread : next.recvThread = service.recvThread)
    : Owned next := by
  have receiving := owned.receiving turn (ended.subset List.mem_cons_self)
  refine owned.stores turn.key status selected queued ?_ ?_ ?_ ?_
  · exact (List.sublist_cons_self turn next.inProgress).subperm.trans ended.subperm
  · intro other member same
    have keys := (ended.map Turn.key).nodup_iff.mpr owned.orderly.alone
    have new := (List.nodup_cons.mp keys).1
    exact new (List.mem_map.mpr ⟨other, member, same⟩)
  · intro other position
    rw [mainLoop] at position
    have hasData := owned.found other position
    refine ⟨?_, hasData⟩
    rintro rfl
    exact absurd (receiving.symm.trans hasData) (by decide)
  · intro other drained position
    rw [recvThread] at position
    have noData := owned.storing other drained position
    refine ⟨?_, noData⟩
    rintro rfl
    exact absurd (receiving.symm.trans noData) (by decide)

theorem Owned.execute [Add Seq] [OfNat Seq 1] (owned : Owned service)
    (stepped : service.executeStep index = some next)
    : Owned next := by
  cases executeStep_move stepped with
  | send task buf rest executing execute =>
      have progress : task.inProgress = true := by rw [SqlTask.inProgress, execute]
      have sent := owned.send (turn_mem executing progress) buf
      refine sent.quiet (fun _ => rfl) rfl rfl ?_ sent.found sent.storing
      exact List.Perm.subperm (inProgress_kept executing rfl rfl rfl progress.symm)
  | sent _ executing execute | lock _ executing execute _ | getSize _ _ executing execute _
  | unlock _ executing execute =>
      refine owned.quiet (fun _ => rfl) rfl rfl ?_ owned.found owned.storing
      refine List.Perm.subperm (inProgress_kept executing rfl rfl rfl ?_)
      rw [SqlTask.inProgress, SqlTask.inProgress, execute]
  | store task status executing execute =>
      have progress : task.inProgress = true := by rw [SqlTask.inProgress, execute]
      refine owned.unselect (inProgress_ended executing rfl rfl progress rfl) ?_ rfl rfl rfl rfl
      intro other ne
      exact congrArg Conn.status (setConn_ne ne _)
  | returned task pool executing execute executed =>
      obtain ⟨_, _, tasks⟩ := ThreadPool.executed_tasks executed
      apply owned.pool
      exact (List.sublist_cons_self _ _).subperm.trans tasks.symm.subperm

-----------------------------------------------------------------------------------------
-- The packets of the replies
-----------------------------------------------------------------------------------------

/-- The pending packets of replies are packets that the tasks queued, in the same order. -/
def Traced (service : Service Addr Seq) : Prop :=
  service.pendingData <+ service.queued.map (fun (turn, packet) => (turn.key, packet))

omit [DecidableEq Addr] in
theorem Traced.quiet (traced : Traced service)
    (sendList : next.socket.sendList = service.socket.sendList)
    (queued : next.queued = service.queued)
    : Traced next := by
  rw [Traced, pendingData, CTcpSocket.pendingPackets, sendList, queued]
  exact traced

theorem recvThreadStep_queued [Add Seq] [OfNat Seq 1] [DecidableEq Seq]
    (stepped : service.recvThreadStep = some next)
    : next.socket.sendList = service.socket.sendList ∧ next.queued = service.queued := by
  cases recvThreadStep_move stepped <;> exact ⟨rfl, rfl⟩

theorem mainLoopStep_queued (stepped : service.mainLoopStep = some next)
    : next.socket.sendList = service.socket.sendList ∧ next.queued = service.queued := by
  cases mainLoopStep_move stepped <;> exact ⟨rfl, rfl⟩

theorem Traced.arrive [Add Seq] [OfNat Seq 0] [OfNat Seq 1] [DecidableEq Seq] [LT Seq]
    [DecidableLT Seq] (traced : Traced service) {fromAddr : Addr} {packet : Packet Seq}
    (stepped : service.arrive fromAddr packet = some next)
    : Traced next := by
  obtain ⟨_, move⟩ := arrive_move stepped
  cases move with
  | write | hold | ignore => exact traced
  | handle packet other =>
      cases packet with
      | establish1 seq =>
          simpa [Traced, pendingData, CTcpSocket.recvThreadProc,
            CTcpSocket.onEstablish1_pendingPackets, Packet.isData] using traced
      | establish2 seq => exact traced
      | ack seq =>
          simp only [Traced, pendingData, CTcpSocket.recvThreadProc,
            CTcpSocket.onAck_pendingPackets]
          exact (List.eraseP_sublist.filter _).trans traced
      | data packet => cases other

theorem Traced.send [Add Seq] [OfNat Seq 1] (traced : Traced service) (turn : Turn Addr)
    (buf : List Byte)
    : Traced (service.send turn buf) := by
  simp only [Traced, pendingData, Service.send, CTcpSocket.send,
    CTcpSocket.queuePackets_pendingPackets, List.filter_append, List.map_append]
  apply traced.append
  have packets : (service.packets turn.key buf).map (fun packet => (turn.key, packet))
      = (numberedFrom (service.conn turn.key).nextSendSeq (payloads buf)).map
          (fun packet => (turn.key, .data packet)) := by
    simp [Service.packets, Function.comp_def]
  rw [List.map_map, Function.comp_def, packets]
  exact List.filter_sublist

theorem Traced.execute [Add Seq] [OfNat Seq 1] (traced : Traced service)
    (stepped : service.executeStep index = some next)
    : Traced next := by
  cases executeStep_move stepped with
  | send task buf rest => exact traced.send task.turn buf
  | sent | lock | getSize | store | unlock | returned => exact traced

-----------------------------------------------------------------------------------------
-- Whole runs
-----------------------------------------------------------------------------------------

section Runs

variable [Add Seq] [OfNat Seq 0] [OfNat Seq 1] [DecidableEq Seq] [LT Seq] [DecidableLT Seq]
  {event : Event Addr Seq}

theorem Owned.step (owned : Owned service) (stepped : service.step event = some next)
    : Owned next := by
  cases event with
  | arrive fromAddr packet => exact owned.arrive stepped
  | recvThread => exact owned.recvThread stepped
  | select addr => exact owned.select stepped
  | mainLoop => exact owned.mainLoop stepped
  | addTask =>
      obtain ⟨pool, moved, rfl⟩ := Option.map_eq_some_iff.mp stepped
      exact owned.addTask moved
  | thread index =>
      obtain ⟨pool, moved, rfl⟩ := Option.map_eq_some_iff.mp stepped
      exact owned.pool (ThreadPool.threadStep_tasks moved).subperm
  | query index outcome => exact owned.query stepped
  | execute index => exact owned.execute stepped
  | transmit index clock =>
      obtain ⟨⟨socket, datagrams⟩, sent, rfl⟩ := Option.map_eq_some_iff.mp stepped
      refine owned.quiet ?_ rfl rfl (List.Subperm.refl _) owned.found owned.storing
      exact fun addr => congrArg Conn.status (sendThreadProc_conn sent addr)

theorem Traced.step (traced : Traced service) (stepped : service.step event = some next)
    : Traced next := by
  cases event with
  | arrive fromAddr packet => exact traced.arrive stepped
  | recvThread =>
      obtain ⟨sendList, queued⟩ := recvThreadStep_queued stepped
      exact traced.quiet sendList queued
  | select addr =>
      rcases select_move stepped with rfl | ⟨_, _, rfl⟩ <;> exact traced
  | mainLoop =>
      obtain ⟨sendList, queued⟩ := mainLoopStep_queued stepped
      exact traced.quiet sendList queued
  | addTask =>
      obtain ⟨pool, _, rfl⟩ := Option.map_eq_some_iff.mp stepped
      exact traced
  | thread index =>
      obtain ⟨pool, _, rfl⟩ := Option.map_eq_some_iff.mp stepped
      exact traced
  | query index outcome =>
      obtain ⟨_, _, _, _, rfl⟩ := query_move stepped
      exact traced
  | execute index => exact traced.execute stepped
  | transmit index clock =>
      obtain ⟨⟨socket, datagrams⟩, sent, rfl⟩ := Option.map_eq_some_iff.mp stepped
      simp only [Traced, pendingData, (CTcpSocket.sendThreadProc_spec sent).2.1]
      exact traced

omit [DecidableEq Addr] [Add Seq] [OfNat Seq 1] [DecidableEq Seq] [LT Seq] [DecidableLT Seq] in
theorem inProgress_new (processors : Nat)
    : (new processors : Service Addr Seq).inProgress = [] := by
  simp [inProgress, new, MainLoop.turns, taskTurns, ThreadPool.tasks, ThreadPool.new,
    AddTask.tasks]

omit [DecidableEq Addr] [Add Seq] [OfNat Seq 1] [DecidableEq Seq] [LT Seq] [DecidableLT Seq] in
theorem owned_new (processors : Nat) : Owned (new processors : Service Addr Seq) := by
  constructor
  · rw [inProgress_new]
    exact Turns.orderly_nil
  · intro turn member
    rw [inProgress_new] at member
    cases member
  · rintro addr ⟨⟩
  · rintro addr drained ⟨⟩

omit [DecidableEq Addr] [Add Seq] [OfNat Seq 1] [DecidableEq Seq] [LT Seq] [DecidableLT Seq] in
theorem traced_new (processors : Nat) : Traced (new processors : Service Addr Seq) :=
  List.Sublist.refl []

omit [Add Seq] [OfNat Seq 0] [OfNat Seq 1] [DecidableEq Seq] [LT Seq] [DecidableLT Seq] in
/-- What the owners of the statuses keep to is one request of a client at a time. -/
theorem Owned.oneAtATime (owned : Owned service) (traced : Traced service)
    : OneAtATime service := by
  constructor
  · exact owned.orderly.count_le
  · intro addr other
    apply List.count_eq_zero.mpr
    intro member
    obtain ⟨turn, taken, rfl⟩ := List.mem_map.mp member
    exact other (owned.receiving turn taken)
  · intro addr
    apply List.pairwise_map.mpr
    have sorted := List.pairwise_map.mp owned.orderly.sorted
    apply List.Pairwise.imp_of_mem _ (sorted.filter _)
    intro past later first second ordered
    have firstKey := (List.mem_filter.mp first).2
    have secondKey := (List.mem_filter.mp second).2
    exact ordered ((beq_iff_eq.mp firstKey).trans (beq_iff_eq.mp secondKey).symm)
  · exact traced

/-- In every run of the server, for any number of clients and any arrivals, each client has at
most one request in progress, and its replies are queued one after the other.
-/
theorem oneAtATime_of_run (processors : Nat) (events : List (Event Addr Seq))
    {final : Service Addr Seq}
    (ran : TransitionSystem.run step (new processors) events = some final)
    : OneAtATime final := by
  have owned := TransitionSystem.run_invariant Owned.step (owned_new processors) ran
  have traced := TransitionSystem.run_invariant Traced.step (traced_new processors) ran
  exact owned.oneAtATime traced

/-- A client connects, and its request comes in two packets and is executed. -/
def oneRequest : List (Event Nat Int) :=
  List.flatten
    [
      [.arrive 7 (.establish1 0), .arrive 7 (.data ⟨1, [2, 0, 0, 0]⟩)],
      List.replicate 11 .recvThread,
      [.select 7, .mainLoop, .mainLoop, .mainLoop, .arrive 7 (.data ⟨2, [65, 0]⟩)],
      List.replicate 8 .recvThread,
      List.replicate 3 .mainLoop,
      List.replicate 7 .addTask,
      [.mainLoop],
      List.replicate 6 (.thread 0),
      [.query 0 (.done 1)],
      List.replicate 7 (.execute 0)
    ]

theorem oneAtATime_oneRequest
    : ∃ final : Service Nat Int,
        TransitionSystem.run step (new 1) oneRequest = some final ∧ OneAtATime final := by
  obtain ⟨final, ran⟩ := Option.isSome_iff_exists.mp
    (by decide +kernel
      : (TransitionSystem.run step (new 1 : Service Nat Int) oneRequest).isSome)
  exact ⟨final, ran, oneAtATime_of_run 1 oneRequest ran⟩

end Runs

end Service

end SchoolSystem.Server
