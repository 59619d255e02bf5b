import SchoolSystem.Server.Service

/-! What one step of each thread of the server leads to, by the position that it is taken at.
The invariants of the server go through these cases and not through the step functions.
-/

namespace SchoolSystem.Server.Service

open TcpSocket

variable {Addr Seq : Type} [DecidableEq Addr] {service next : Service Addr Seq} {addr : Addr}

-----------------------------------------------------------------------------------------
-- Assignments to one connection
-----------------------------------------------------------------------------------------

theorem setConn_conn (service : Service Addr Seq) (addr : Addr) (conn : Conn Seq)
    : (service.setConn addr conn).conn addr = conn :=
  CTcpSocket.setConn_connectMap_self service.socket addr conn

theorem setConn_ne {other : Addr} (ne : other ≠ addr) (conn : Conn Seq)
    : (service.setConn addr conn).conn other = service.conn other := by
  simp [Service.conn, Service.setConn, ne]

/-- What an assignment leaves as it was, it leaves so for every client. -/
theorem setConn_field {Field : Type*} (field : Conn Seq → Field) {conn : Conn Seq}
    (same : field conn = field (service.conn addr)) (other : Addr)
    : field ((service.setConn addr conn).conn other) = field (service.conn other) := by
  by_cases equal : other = addr
  · subst equal
    rwa [setConn_conn]
  · rw [setConn_ne equal]

theorem setConn_status {conn : Conn Seq} (same : conn.status = (service.conn addr).status)
    (other : Addr)
    : ((service.setConn addr conn).conn other).status = (service.conn other).status :=
  setConn_field Conn.status same other

theorem setConn_byteStream {conn : Conn Seq}
    (same : conn.byteStream = (service.conn addr).byteStream) (other : Addr)
    : ((service.setConn addr conn).conn other).byteStream = (service.conn other).byteStream :=
  setConn_field Conn.byteStream same other

theorem setConn_recvList {conn : Conn Seq} (same : conn.recvList = (service.conn addr).recvList)
    (other : Addr)
    : ((service.setConn addr conn).conn other).recvList = (service.conn other).recvList :=
  setConn_field Conn.recvList same other

theorem push_status (service : Service Addr Seq) (addr : Addr) (bytes : List Byte) (other : Addr)
    : ((service.push addr bytes).conn other).status = (service.conn other).status := by
  refine setConn_status ?_ other
  rfl

theorem push_conn (service : Service Addr Seq) (addr : Addr) (bytes : List Byte)
    : (service.push addr bytes).conn addr
      = {
          service.conn addr with
          byteStream := (service.conn addr).byteStream ++ bytes
        } :=
  setConn_conn service addr _

theorem push_byteStream (service : Service Addr Seq) (addr : Addr) (bytes : List Byte)
    : ((service.push addr bytes).conn addr).byteStream
      = (service.conn addr).byteStream ++ bytes :=
  congrArg Conn.byteStream (push_conn service addr bytes)

theorem push_ne {other : Addr} (ne : other ≠ addr) (bytes : List Byte)
    : (service.push addr bytes).conn other = service.conn other :=
  setConn_ne ne _

omit [DecidableEq Addr] in
/-- `SendThreadProc` changes no connection. -/
theorem sendThreadProc_conn {index : Nat} {clock : Int} {socket : CTcpSocket Addr Seq}
    {sent : List (Addr × Packet Seq)}
    (iteration : service.socket.sendThreadProc index clock = some (socket, sent)) (addr : Addr)
    : socket.connectMap addr = service.conn addr :=
  congrFun (CTcpSocket.sendThreadProc_spec iteration).1 addr

-----------------------------------------------------------------------------------------
-- The receive thread
-----------------------------------------------------------------------------------------

section Receiving

variable [Add Seq] [OfNat Seq 0] [OfNat Seq 1] [DecidableEq Seq] [LT Seq] [DecidableLT Seq]

/-- A packet that is no `DATA` changes no stream and no list. -/
theorem handle_conn {packet : Packet Seq} (handled : packet.isData = false) (other : Addr)
    : ((service.socket.recvThreadProc addr packet).1.connectMap other).byteStream
        = (service.conn other).byteStream
      ∧ ((service.socket.recvThreadProc addr packet).1.connectMap other).recvList
        = (service.conn other).recvList := by
  cases packet with
  | data packet => cases handled
  | establish1 seq =>
      by_cases same : other = addr
      · subst same
        simp [Service.conn, CTcpSocket.recvThreadProc, CTcpSocket.onEstablish1]
      · simp [Service.conn, CTcpSocket.recvThreadProc, CTcpSocket.onEstablish1, same]
  | establish2 seq | ack seq => exact ⟨rfl, rfl⟩

/-- What a datagram leads to: it is in turn, ahead of it or late, or it is no `DATA`. -/
inductive ArriveMove (service : Service Addr Seq) (fromAddr : Addr) : Service Addr Seq → Prop
  | write (data : List Byte)
    : ArriveMove service fromAddr { service with recvThread := .write fromAddr data false }
  | hold (packet : DataPacket Seq)
    : ArriveMove service fromAddr
        (service.setConn fromAddr
          {
            service.conn fromAddr with
            recvList := insertPacket packet (service.conn fromAddr).recvList
          })
  | ignore : ArriveMove service fromAddr service
  | handle (packet : Packet Seq) (other : packet.isData = false)
    : ArriveMove service fromAddr
        {
          service with
          socket := (service.socket.recvThreadProc fromAddr packet).1
          recvThread := .recvfrom
        }

/-- A datagram is received by a thread in `recvfrom` only. -/
theorem arrive_move {fromAddr : Addr} {packet : Packet Seq}
    (stepped : service.arrive fromAddr packet = some next)
    : service.recvThread = .recvfrom ∧ ArriveMove service fromAddr next := by
  cases position : service.recvThread with
  | recvfrom =>
      refine ⟨rfl, ?_⟩
      cases packet with
      | data packet =>
          simp only [Service.arrive, position] at stepped
          split at stepped
          · obtain rfl := Option.some.inj stepped
            exact .write packet.data
          · split at stepped <;> obtain rfl := Option.some.inj stepped
            · exact .hold packet
            · exact .ignore
      | establish1 seq | establish2 seq | ack seq =>
          simp only [Service.arrive, position, Option.some.injEq] at stepped
          subst stepped
          exact .handle _ rfl
  | write _ _ _ | push _ _ _ | lock _ _ | test _ _ | store _ _ | unlock _ _ | drain _ =>
      simp [Service.arrive, position] at stepped

end Receiving

/-- What a step in the `DATA` branch leads to. -/
inductive RecvThreadMove [Add Seq] [OfNat Seq 1] (service : Service Addr Seq)
    : Service Addr Seq → Prop
  | write (addr : Addr) (data : List Byte) (drained : Bool)
      (position : service.recvThread = .write addr data drained)
    : RecvThreadMove service { service with recvThread := .push addr data drained }
  | push (addr : Addr) (byte : Byte) (rest : List Byte) (drained : Bool)
      (position : service.recvThread = .push addr (byte :: rest) drained)
    : RecvThreadMove service
        { service.push addr [byte] with recvThread := .push addr rest drained }
  | written (addr : Addr) (drained : Bool) (counted : Conn Seq)
      (position : service.recvThread = .push addr [] drained)
      (stream : counted.byteStream = (service.conn addr).byteStream)
      (status : counted.status = (service.conn addr).status)
      (counts
        : counted
          = if drained then
              { service.conn addr with nextRecvSeq := (service.conn addr).nextRecvSeq + 1 }
            else
              service.conn addr)
    : RecvThreadMove service
        { service.setConn addr counted with recvThread := .lock addr drained }
  | lock (addr : Addr) (drained : Bool) (position : service.recvThread = .lock addr drained)
      (free : service.statusLock addr = false)
    : RecvThreadMove service
        { service.setStatusLock addr true with recvThread := .test addr drained }
  | noData (addr : Addr) (drained : Bool) (position : service.recvThread = .test addr drained)
      (noData : (service.conn addr).status = .noData)
    : RecvThreadMove service { service with recvThread := .store addr drained }
  | someData (addr : Addr) (drained : Bool)
      (position : service.recvThread = .test addr drained)
      (someData : (service.conn addr).status ≠ .noData)
    : RecvThreadMove service { service with recvThread := .unlock addr drained }
  | store (addr : Addr) (drained : Bool) (position : service.recvThread = .store addr drained)
    : RecvThreadMove service
        {
          service.setConn addr { service.conn addr with status := .hasData } with
          recvThread := .unlock addr drained
        }
  | unlock (addr : Addr) (drained : Bool) (moved : Conn Seq)
      (position : service.recvThread = .unlock addr drained)
      (stream : moved.byteStream = (service.conn addr).byteStream)
      (status : moved.status = (service.conn addr).status)
      (moves
        : moved
          = if drained then
              { service.conn addr with recvList := (service.conn addr).recvList.tail }
            else
              { service.conn addr with nextRecvSeq := (service.conn addr).nextRecvSeq + 1 })
    : RecvThreadMove service
        { (service.setConn addr moved).setStatusLock addr false with recvThread := .drain addr }
  | next (addr : Addr) (held : DataPacket Seq) (position : service.recvThread = .drain addr)
      (rest : List (DataPacket Seq)) (list : (service.conn addr).recvList = held :: rest)
      (inTurn : held.seq = (service.conn addr).nextRecvSeq)
    : RecvThreadMove service { service with recvThread := .write addr held.data true }
  | drained (addr : Addr) (position : service.recvThread = .drain addr)
      (ends
        : ∀ held rest,
            (service.conn addr).recvList = held :: rest
            → held.seq ≠ (service.conn addr).nextRecvSeq)
    : RecvThreadMove service { service with recvThread := .recvfrom }

theorem recvThreadStep_move [Add Seq] [OfNat Seq 1] [DecidableEq Seq]
    (stepped : service.recvThreadStep = some next)
    : RecvThreadMove service next := by
  cases position : service.recvThread with
  | recvfrom => simp [recvThreadStep, position] at stepped
  | write addr data drained =>
      simp only [recvThreadStep, position, Option.some.injEq] at stepped
      subst stepped
      exact .write addr data drained position
  | push addr data drained =>
      cases data with
      | nil =>
          simp only [recvThreadStep, position, Option.some.injEq] at stepped
          subst stepped
          refine .written addr drained _ position ?_ ?_ rfl <;> split <;> rfl
      | cons byte rest =>
          simp only [recvThreadStep, position, Option.some.injEq] at stepped
          subst stepped
          exact .push addr byte rest drained position
  | lock addr drained =>
      simp only [recvThreadStep, position, Option.ite_none_left_eq_some, Option.some.injEq]
        at stepped
      obtain ⟨free, rfl⟩ := stepped
      exact .lock addr drained position (Bool.eq_false_iff.mpr free)
  | test addr drained =>
      cases status : (service.conn addr).status with
      | noData =>
          simp only [recvThreadStep, position, status, Option.some.injEq] at stepped
          subst stepped
          exact .noData addr drained position status
      | hasData | receiving =>
          simp only [recvThreadStep, position, status, Option.some.injEq] at stepped
          subst stepped
          exact .someData addr drained position (by rw [status]; decide)
  | store addr drained =>
      simp only [recvThreadStep, position, Option.some.injEq] at stepped
      subst stepped
      exact .store addr drained position
  | unlock addr drained =>
      simp only [recvThreadStep, position, Option.some.injEq] at stepped
      subst stepped
      refine .unlock addr drained _ position ?_ ?_ rfl <;> split <;> rfl
  | drain addr =>
      cases held : (service.conn addr).recvList with
      | nil =>
          simp only [recvThreadStep, position, held, Option.some.injEq] at stepped
          subst stepped
          refine .drained addr position (fun packet rest list => ?_)
          cases held.symm.trans list
      | cons packet rest =>
          simp only [recvThreadStep, position, held] at stepped
          split at stepped <;> obtain rfl := Option.some.inj stepped
          · exact .next addr packet position rest held ‹_›
          · refine .drained addr position (fun other more list => ?_)
            obtain ⟨rfl, rfl⟩ := List.cons.inj (held.symm.trans list)
            assumption

-----------------------------------------------------------------------------------------
-- The main loop
-----------------------------------------------------------------------------------------

omit [DecidableEq Addr] in
/-- `Select` stays where it is until it comes to a client with status 1. -/
theorem select_move (stepped : service.select addr = some next)
    : next = service
      ∨ service.mainLoop = .select
        ∧ (service.conn addr).status = .hasData
        ∧ next = { service with mainLoop := .found addr } := by
  cases position : service.mainLoop with
  | select =>
      simp only [Service.select, position] at stepped
      split at stepped <;> obtain rfl := Option.some.inj stepped
      · exact Or.inr ⟨rfl, ‹_›, rfl⟩
      · exact Or.inl rfl
  | found _ | recvLen _ | readLen _ _ | recvBuf _ _ | readBuf _ _ | addTask _ _ | adding =>
      simp [Service.select, position] at stepped

/-- What a step of the main loop after `Select` leads to. -/
inductive MainLoopMove (service : Service Addr Seq) : Service Addr Seq → Prop
  | take (addr : Addr) (position : service.mainLoop = .found addr)
    : MainLoopMove service
        {
          service.setConn addr { service.conn addr with status := .receiving } with
          mainLoop := .recvLen ⟨service.selected, addr⟩
          selected := service.selected + 1
        }
  | recvLen (turn : Turns.Turn Addr) (nReadLen : Nat)
      (position : service.mainLoop = .recvLen turn)
      (some : (service.conn turn.key).byteStream ≠ [])
      (size : nReadLen = min (service.conn turn.key).byteStream.length 4)
    : MainLoopMove service { service with mainLoop := .readLen turn nReadLen }
  | readLen (turn : Turns.Turn Addr) (nReadLen : Nat) (nLen : Int32)
      (position : service.mainLoop = .readLen turn nReadLen)
      (free : service.recvThread.writing ≠ some turn.key)
      (length
        : nLen = Exchange.overwrite 0 ((service.conn turn.key).byteStream.take nReadLen))
    : MainLoopMove service
        { service.read turn.key nReadLen with mainLoop := .recvBuf turn nLen }
  | recvBuf (turn : Turns.Turn Addr) (nLen : Int32) (nReadLen : Int)
      (position : service.mainLoop = .recvBuf turn nLen)
      (some : (service.conn turn.key).byteStream ≠ [])
      (size : nReadLen = min ((service.conn turn.key).byteStream.length : Int) nLen.toInt)
    : MainLoopMove service { service with mainLoop := .readBuf turn nReadLen }
  | readBuf (turn : Turns.Turn Addr) (nReadLen : Int) (sql : List Byte)
      (position : service.mainLoop = .readBuf turn nReadLen)
      (free : service.recvThread.writing ≠ some turn.key)
      (inside : 0 ≤ nReadLen ∧ nReadLen ≤ 0x1000)
      (text
        : sql = Exchange.taskSql ((service.conn turn.key).byteStream.take nReadLen.toNat))
    : MainLoopMove service
        { service.read turn.key nReadLen.toNat with mainLoop := .addTask turn sql }
  | addTask (turn : Turns.Turn Addr) (sql : List Byte) (pool : ThreadPool (SqlTask Addr))
      (position : service.mainLoop = .addTask turn sql)
      (called : service.pool.call ⟨turn, sql, .query⟩ = some pool)
    : MainLoopMove service { service with pool := pool, mainLoop := .adding }
  | added (position : service.mainLoop = .adding)
    : MainLoopMove service { service with mainLoop := .select }

theorem mainLoopStep_move (stepped : service.mainLoopStep = some next)
    : MainLoopMove service next := by
  cases position : service.mainLoop with
  | select => simp [mainLoopStep, position] at stepped
  | found addr =>
      simp only [mainLoopStep, position, Option.some.injEq] at stepped
      subst stepped
      exact .take addr position
  | recvLen turn =>
      simp only [mainLoopStep, position, Option.ite_none_left_eq_some, Option.some.injEq]
        at stepped
      obtain ⟨some, rfl⟩ := stepped
      exact .recvLen turn _ position some rfl
  | readLen turn nReadLen =>
      simp only [mainLoopStep, position, Option.ite_none_left_eq_some, Option.some.injEq]
        at stepped
      obtain ⟨free, rfl⟩ := stepped
      exact .readLen turn nReadLen _ position free rfl
  | recvBuf turn nLen =>
      simp only [mainLoopStep, position, Option.ite_none_left_eq_some, Option.some.injEq]
        at stepped
      obtain ⟨some, rfl⟩ := stepped
      exact .recvBuf turn nLen _ position some rfl
  | readBuf turn nReadLen =>
      simp only [mainLoopStep, position, Option.ite_none_left_eq_some,
        Option.ite_none_right_eq_some, Option.some.injEq] at stepped
      obtain ⟨free, ⟨nonneg, inside, _⟩, rfl⟩ := stepped
      exact .readBuf turn nReadLen _ position free ⟨nonneg, inside⟩ rfl
  | addTask turn sql =>
      simp only [mainLoopStep, position] at stepped
      obtain ⟨pool, called, rfl⟩ := Option.map_eq_some_iff.mp stepped
      exact .addTask turn sql pool position called
  | adding =>
      simp only [mainLoopStep, position] at stepped
      cases returned : service.pool.addTask <;> simp only [returned] at stepped <;>
        cases stepped
      exact .added position

-----------------------------------------------------------------------------------------
-- The tasks
-----------------------------------------------------------------------------------------

section Executing

variable {index : Nat} {task : SqlTask Addr}

omit [DecidableEq Addr] in
theorem query_move {outcome : Exchange.Outcome}
    (stepped : service.query index outcome = some next)
    : ∃ task bufs,
        service.pool.executing index = some task
        ∧ task.execute = .query
        ∧ next = service.setTask index { task with execute := .send bufs } := by
  cases executing : service.pool.executing index with
  | none => simp [Service.query, executing] at stepped
  | some task =>
      cases execute : task.execute with
      | query =>
          simp only [Service.query, executing, execute] at stepped
          obtain ⟨bufs, _, rfl⟩ := Option.map_eq_some_iff.mp stepped
          exact ⟨task, bufs, rfl, execute, rfl⟩
      | send _ | lock | getSize | store _ | unlock | returned =>
          simp [Service.query, executing, execute] at stepped

/-- What a step of `Execute` after its query leads to. -/
inductive ExecuteMove [Add Seq] [OfNat Seq 1] (service : Service Addr Seq) (index : Nat)
    : Service Addr Seq → Prop
  | send (task : SqlTask Addr) (buf : List Byte) (rest : List (List Byte))
      (executing : service.pool.executing index = some task)
      (execute : task.execute = .send (buf :: rest))
    : ExecuteMove service index
        ((service.send task.turn buf).setTask index { task with execute := .send rest })
  | sent (task : SqlTask Addr) (executing : service.pool.executing index = some task)
      (execute : task.execute = .send [])
    : ExecuteMove service index (service.setTask index { task with execute := .lock })
  | lock (task : SqlTask Addr) (executing : service.pool.executing index = some task)
      (execute : task.execute = .lock) (free : service.statusLock task.turn.key = false)
    : ExecuteMove service index
        ((service.setStatusLock task.turn.key true).setTask index
          { task with execute := .getSize })
  | getSize (task : SqlTask Addr) (status : Status)
      (executing : service.pool.executing index = some task)
      (execute : task.execute = .getSize)
      (size
        : (service.conn task.turn.key).byteStream = [] ∧ status = .noData
          ∨ (service.conn task.turn.key).byteStream ≠ [] ∧ status = .hasData)
    : ExecuteMove service index (service.setTask index { task with execute := .store status })
  | store (task : SqlTask Addr) (status : Status)
      (executing : service.pool.executing index = some task)
      (execute : task.execute = .store status)
    : ExecuteMove service index
        ((service.setConn task.turn.key
            { service.conn task.turn.key with status := status }).setTask index
          { task with execute := .unlock })
  | unlock (task : SqlTask Addr) (executing : service.pool.executing index = some task)
      (execute : task.execute = .unlock)
    : ExecuteMove service index
        ((service.setStatusLock task.turn.key false).setTask index
          { task with execute := .returned })
  | returned (task : SqlTask Addr) (pool : ThreadPool (SqlTask Addr))
      (executing : service.pool.executing index = some task)
      (execute : task.execute = .returned)
      (executed : service.pool.executed index = some pool)
    : ExecuteMove service index { service with pool := pool }

theorem executeStep_move [Add Seq] [OfNat Seq 1]
    (stepped : service.executeStep index = some next)
    : ExecuteMove service index next := by
  cases executing : service.pool.executing index with
  | none => simp [executeStep, executing] at stepped
  | some task =>
      cases execute : task.execute with
      | query => simp [executeStep, executing, execute] at stepped
      | send bufs =>
          cases bufs with
          | nil =>
              simp only [executeStep, executing, execute, Option.some.injEq] at stepped
              subst stepped
              exact .sent task executing execute
          | cons buf rest =>
              simp only [executeStep, executing, execute, Option.some.injEq] at stepped
              subst stepped
              exact .send task buf rest executing execute
      | lock =>
          simp only [executeStep, executing, execute, Option.ite_none_left_eq_some,
            Option.some.injEq] at stepped
          obtain ⟨free, rfl⟩ := stepped
          exact .lock task executing execute (Bool.eq_false_iff.mpr free)
      | getSize =>
          simp only [executeStep, executing, execute, Option.some.injEq] at stepped
          subst stepped
          refine .getSize task _ executing execute ?_
          split
          · exact Or.inr ⟨‹_›, rfl⟩
          · exact Or.inl ⟨not_not.mp ‹_›, rfl⟩
      | store status =>
          simp only [executeStep, executing, execute, Option.some.injEq] at stepped
          subst stepped
          exact .store task status executing execute
      | unlock =>
          simp only [executeStep, executing, execute, Option.some.injEq] at stepped
          subst stepped
          exact .unlock task executing execute
      | returned =>
          simp only [executeStep, executing, execute] at stepped
          obtain ⟨pool, executed, rfl⟩ := Option.map_eq_some_iff.mp stepped
          exact .returned task pool executing execute executed

end Executing

end SchoolSystem.Server.Service
