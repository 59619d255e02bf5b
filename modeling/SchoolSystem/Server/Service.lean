import SchoolSystem.Exchange.Reply
import SchoolSystem.Library.Turns
import SchoolSystem.Server.ThreadPool
import SchoolSystem.TcpSocket.Socket

/-! The running server: its receive thread, its main loop, the threads of its pool and
`SendThreadProc`, interleaved one access to what they share at a time. `RecvThreadProc` writes a
packet's bytes one by one, and the size checks of `Recv` and `UnSelect` do not take the lock under
which it does.

`m_sendListLock` is left out: a whole `Send`, an iteration of `SendThreadProc` and the branches of
`RecvThreadProc` without data are one step each. So are its error exits: `sendto` and `recvfrom`
succeed.
-/

namespace SchoolSystem.Server

open TcpSocket
open Exchange (Outcome)
open Turns (Turn)

/-- `RecvThreadProc`, from `recvfrom` on: the `Write` of a packet's data, with the bytes that are
left to push, the status update under `m_statusLock`, and the drain loop. `drained` tells the writes
of that loop from the first one.
-/
inductive RecvThread (Addr : Type)
  | recvfrom
  | write (addr : Addr) (data : List Byte) (drained : Bool)
  | push (addr : Addr) (data : List Byte) (drained : Bool)
  | lock (addr : Addr) (drained : Bool)
  | test (addr : Addr) (drained : Bool)
  | store (addr : Addr) (drained : Bool)
  | unlock (addr : Addr) (drained : Bool)
  | drain (addr : Addr)
  deriving DecidableEq, Repr

/-- The connection whose `m_byteStreamLock` the receive thread holds. -/
def RecvThread.writing {Addr : Type} : RecvThread Addr → Option Addr
  | .push addr _ _ => some addr
  | .recvfrom | .write _ _ _ | .lock _ _ | .test _ _ | .store _ _ | .unlock _ _ | .drain _ =>
      none

/-- `CSqlTask::Execute`: the query, the calls of `Send` that are left, and `UnSelect`. -/
inductive Execute
  | query
  | send (bufs : List (List Byte))
  | lock
  | getSize
  | store (status : Status)
  | unlock
  | returned
  deriving DecidableEq, Repr

/-- A `CSqlTask`, with the number of its request: requests are numbered as `Select` returns
their clients. The key of its turn is `m_addr`.
-/
structure SqlTask (Addr : Type) where
  turn : Turn Addr
  sql : List Byte
  execute : Execute
  deriving DecidableEq, Repr

/-- The main loop: `Select`, which looks at one status at a time, two calls of `Recv`, each of
them before and after it has sampled the size of the stream, and `AddTask`.
-/
inductive MainLoop (Addr : Type)
  | select
  | found (addr : Addr)
  | recvLen (turn : Turn Addr)
  | readLen (turn : Turn Addr) (nReadLen : Nat)
  | recvBuf (turn : Turn Addr) (nLen : Int32)
  | readBuf (turn : Turn Addr) (nReadLen : Int)
  | addTask (turn : Turn Addr) (sql : List Byte)
  | adding
  deriving DecidableEq, Repr

/-- `statusLock` has the state of each connection's `m_statusLock`. `selected` and `queued` are
kept for the proofs: the number of requests so far, and every packet that a task queued, with
the request that it replies to.
-/
structure Service (Addr Seq : Type) where
  socket : CTcpSocket Addr Seq
  statusLock : Addr → Bool
  recvThread : RecvThread Addr
  mainLoop : MainLoop Addr
  pool : ThreadPool (SqlTask Addr)
  selected : Nat
  queued : List (Turn Addr × Packet Seq)

namespace Service

/-- `recvThread`, `mainLoop`, `addTask`, `thread` and `execute` are the next step of the
thread that they name.
-/
inductive Event (Addr Seq : Type)
  | arrive (fromAddr : Addr) (packet : Packet Seq)
  | recvThread
  | select (addr : Addr)
  | mainLoop
  | addTask
  | thread (index : Nat)
  | query (index : Nat) (outcome : Outcome)
  | execute (index : Nat)
  | transmit (index : Nat) (clock : Int)
  deriving DecidableEq, Repr

variable {Addr Seq : Type} [DecidableEq Addr]

section Parts

variable [OfNat Seq 0]

/-- A server before its first packet, by `dwNumberOfProcessors`. -/
def new (processors : Nat) : Service Addr Seq where
  socket := .new
  statusLock := fun _ => false
  recvThread := .recvfrom
  mainLoop := .select
  pool := .new processors
  selected := 0
  queued := []

end Parts

def conn (service : Service Addr Seq) (addr : Addr) : Conn Seq :=
  service.socket.connectMap addr

def setConn (service : Service Addr Seq) (addr : Addr) (conn : Conn Seq)
    : Service Addr Seq :=
  { service with socket := service.socket.setConn addr conn }

def setStatusLock (service : Service Addr Seq) (addr : Addr) (held : Bool)
    : Service Addr Seq :=
  { service with statusLock := Function.update service.statusLock addr held }

-----------------------------------------------------------------------------------------
-- The receive thread
-----------------------------------------------------------------------------------------

section Receiving

variable [Add Seq] [OfNat Seq 0] [OfNat Seq 1] [DecidableEq Seq] [LT Seq] [DecidableLT Seq]

/-- A datagram is received. Its acknowledgement is not of interest here. -/
def arrive (service : Service Addr Seq) (fromAddr : Addr) (packet : Packet Seq)
    : Option (Service Addr Seq) :=
  match service.recvThread with
  | .recvfrom =>
      match packet with
      | .data packet =>
          let conn := service.conn fromAddr
          if packet.seq = conn.nextRecvSeq then
            some { service with recvThread := .write fromAddr packet.data false }
          else if conn.nextRecvSeq < packet.seq then
            some
              (service.setConn fromAddr
                { conn with recvList := insertPacket packet conn.recvList })
          else
            some service
      | .establish1 _ | .establish2 _ | .ack _ =>
          some { service with socket := (service.socket.recvThreadProc fromAddr packet).1 }
  | .write _ _ _ | .push _ _ _ | .lock _ _ | .test _ _ | .store _ _ | .unlock _ _ | .drain _ =>
      none

end Receiving

section Threads

variable [Add Seq] [OfNat Seq 1]

/-- `push_back` of some bytes, one after the other. -/
def push (service : Service Addr Seq) (addr : Addr) (bytes : List Byte) : Service Addr Seq :=
  let conn := service.conn addr
  service.setConn addr { conn with byteStream := conn.byteStream ++ bytes }

/-- The next step in the `DATA` branch. The counter and the list are the receive thread's own,
and move with the unlocking next to them.
-/
def recvThreadStep [DecidableEq Seq] (service : Service Addr Seq)
    : Option (Service Addr Seq) :=
  match service.recvThread with
  | .recvfrom => none
  | .write addr data drained => some { service with recvThread := .push addr data drained }
  | .push addr (byte :: rest) drained =>
      some { service.push addr [byte] with recvThread := .push addr rest drained }
  | .push addr [] drained =>
      let conn := service.conn addr
      let counted := if drained then { conn with nextRecvSeq := conn.nextRecvSeq + 1 } else conn
      some { service.setConn addr counted with recvThread := .lock addr drained }
  | .lock addr drained =>
      if service.statusLock addr then
        none
      else
        some { service.setStatusLock addr true with recvThread := .test addr drained }
  | .test addr drained =>
      match (service.conn addr).status with
      | .noData => some { service with recvThread := .store addr drained }
      | .hasData | .receiving => some { service with recvThread := .unlock addr drained }
  | .store addr drained =>
      some
        {
          service.setConn addr { service.conn addr with status := .hasData } with
          recvThread := .unlock addr drained
        }
  | .unlock addr drained =>
      let conn := service.conn addr
      let moved :=
        if drained then
          { conn with recvList := conn.recvList.tail }
        else
          { conn with nextRecvSeq := conn.nextRecvSeq + 1 }
      some
        { (service.setConn addr moved).setStatusLock addr false with recvThread := .drain addr }
  | .drain addr =>
      match (service.conn addr).recvList with
      | [] => some { service with recvThread := .recvfrom }
      | held :: _ =>
          if held.seq = (service.conn addr).nextRecvSeq then
            some { service with recvThread := .write addr held.data true }
          else
            some { service with recvThread := .recvfrom }

-----------------------------------------------------------------------------------------
-- The main loop
-----------------------------------------------------------------------------------------

/-- The loop of `Select` comes to an address, in whatever order the map has them. -/
def select (service : Service Addr Seq) (addr : Addr) : Option (Service Addr Seq) :=
  match service.mainLoop with
  | .select =>
      if (service.conn addr).status = .hasData then
        some { service with mainLoop := .found addr }
      else
        some service
  | .found _ | .recvLen _ | .readLen _ _ | .recvBuf _ _ | .readBuf _ _ | .addTask _ _
  | .adding => none

/-- `m_byteStream.Read`, which waits for the stream's lock. -/
def read (service : Service Addr Seq) (addr : Addr) (nReadLen : Nat) : Service Addr Seq :=
  let conn := service.conn addr
  service.setConn addr { conn with byteStream := conn.byteStream.drop nReadLen }

/-- `buf` can be read as a string: it holds a zero byte after the bytes that were received. -/
def Terminated (bytes : List Byte) : Prop := bytes.length < 0x1000 ∨ 0 ∈ bytes

instance (bytes : List Byte) : Decidable (Terminated bytes) :=
  inferInstanceAs (Decidable (_ ∨ _))

/-- The next step of the main loop. `Recv` looks at an empty stream again every 20 ms, which is no
step here: it waits for a first byte. A length that is negative, a body that does not fit into `buf`
and a full `buf` without a zero byte are undefined.
-/
def mainLoopStep (service : Service Addr Seq) : Option (Service Addr Seq) :=
  match service.mainLoop with
  | .select => none
  | .found addr =>
      some
        {
          service.setConn addr { service.conn addr with status := .receiving } with
          mainLoop := .recvLen ⟨service.selected, addr⟩
          selected := service.selected + 1
        }
  | .recvLen turn =>
      let stream := (service.conn turn.key).byteStream
      if stream = [] then
        none
      else
        some { service with mainLoop := .readLen turn (min stream.length 4) }
  | .readLen turn nReadLen =>
      let bytes := (service.conn turn.key).byteStream.take nReadLen
      if service.recvThread.writing = some turn.key then
        none
      else
        some
          {
            service.read turn.key nReadLen with
            mainLoop := .recvBuf turn (Exchange.overwrite 0 bytes)
          }
  | .recvBuf turn nLen =>
      let stream := (service.conn turn.key).byteStream
      if stream = [] then
        none
      else
        some { service with mainLoop := .readBuf turn (min stream.length nLen.toInt) }
  | .readBuf turn nReadLen =>
      let bytes := (service.conn turn.key).byteStream.take nReadLen.toNat
      if service.recvThread.writing = some turn.key then
        none
      else if 0 ≤ nReadLen ∧ nReadLen ≤ 0x1000 ∧ Terminated bytes then
        some
          {
            service.read turn.key nReadLen.toNat with
            mainLoop := .addTask turn (Exchange.taskSql bytes)
          }
      else
        none
  | .addTask turn sql =>
      (service.pool.call ⟨turn, sql, .query⟩).map
        (fun pool => { service with pool := pool, mainLoop := .adding })
  | .adding =>
      match service.pool.addTask with
      | .returned => some { service with mainLoop := .select }
      | .enter _ | .releaseSemaphore _ | .push _ | .leave | .checkIdle | .checkCur
      | .createThread => none

-----------------------------------------------------------------------------------------
-- The tasks
-----------------------------------------------------------------------------------------

def setTask (service : Service Addr Seq) (index : Nat) (task : SqlTask Addr)
    : Service Addr Seq :=
  { service with pool := service.pool.setThread index (.execute task) }

/-- `CMysql::Query`, whatever its outcome, and what `Execute` will send. -/
def query (service : Service Addr Seq) (index : Nat) (outcome : Outcome)
    : Option (Service Addr Seq) :=
  match service.pool.executing index with
  | none => none
  | some task =>
      match task.execute with
      | .query =>
          (Exchange.execute outcome).map
            (fun bufs => service.setTask index { task with execute := .send bufs })
      | .send _ | .lock | .getSize | .store _ | .unlock | .returned => none

/-- The packets that `Send` queues. -/
def packets (service : Service Addr Seq) (addr : Addr) (buf : List Byte)
    : List (Packet Seq) :=
  (numberedFrom (service.conn addr).nextSendSeq (payloads buf)).map Packet.data

/-- `Send` of a task, under `m_sendListLock`. -/
def send (service : Service Addr Seq) (turn : Turn Addr) (buf : List Byte)
    : Service Addr Seq :=
  {
    service with
    socket := service.socket.send turn.key buf
    queued :=
      service.queued ++ (service.packets turn.key buf).map (fun packet => (turn, packet))
  }

/-- The next step of `Execute` after its query; `UnSelect` begins with `lock`. -/
def executeStep (service : Service Addr Seq) (index : Nat) : Option (Service Addr Seq) :=
  match service.pool.executing index with
  | none => none
  | some task =>
      let addr := task.turn.key
      match task.execute with
      | .query => none
      | .send (buf :: rest) =>
          some ((service.send task.turn buf).setTask index { task with execute := .send rest })
      | .send [] => some (service.setTask index { task with execute := .lock })
      | .lock =>
          if service.statusLock addr then
            none
          else
            some
              ((service.setStatusLock addr true).setTask index
                { task with execute := .getSize })
      | .getSize =>
          let status := if (service.conn addr).byteStream ≠ [] then .hasData else .noData
          some (service.setTask index { task with execute := .store status })
      | .store status =>
          some
            ((service.setConn addr { service.conn addr with status := status }).setTask index
              { task with execute := .unlock })
      | .unlock =>
          some
            ((service.setStatusLock addr false).setTask index { task with execute := .returned })
      | .returned =>
          (service.pool.executed index).map (fun pool => { service with pool := pool })

end Threads

/-- One step of one thread. -/
def step [Add Seq] [OfNat Seq 0] [OfNat Seq 1] [DecidableEq Seq] [LT Seq] [DecidableLT Seq]
    (service : Service Addr Seq)
    : Event Addr Seq → Option (Service Addr Seq)
  | .arrive fromAddr packet => service.arrive fromAddr packet
  | .recvThread => service.recvThreadStep
  | .select addr => service.select addr
  | .mainLoop => service.mainLoopStep
  | .addTask =>
      service.pool.addTaskStep.map (fun pool => { service with pool := pool })
  | .thread index =>
      (service.pool.threadStep index).map (fun pool => { service with pool := pool })
  | .query index outcome => service.query index outcome
  | .execute index => service.executeStep index
  | .transmit index clock =>
      (service.socket.sendThreadProc index clock).map
        (fun sent => { service with socket := sent.1 })

-----------------------------------------------------------------------------------------
-- The receive thread on its own
-----------------------------------------------------------------------------------------

section Undisturbed

variable [Add Seq] [OfNat Seq 0] [OfNat Seq 1] [DecidableEq Seq] [LT Seq] [DecidableLT Seq]
  {service : Service Addr Seq} {addr : Addr}

open TransitionSystem (run run_append)

theorem run_replicate_append {event : Event Addr Seq} {middle : Service Addr Seq}
    {first second : Nat}
    (ran : run step service (List.replicate first event) = some middle)
    : run step service (List.replicate (first + second) event)
      = run step middle (List.replicate second event) := by
  rw [List.replicate_add, run_append, ran]
  rfl

omit [Add Seq] [OfNat Seq 0] [OfNat Seq 1] [DecidableEq Seq] [LT Seq] [DecidableLT Seq] in
theorem setConn_self (service : Service Addr Seq) (addr : Addr)
    : service.setConn addr (service.conn addr) = service := by
  simp [setConn, conn, CTcpSocket.setConn]

/-- The loop of `Write`, by induction on the bytes. -/
theorem run_push (service : Service Addr Seq) {data : List Byte} {drained : Bool}
    (position : service.recvThread = .push addr data drained)
    : run step service (List.replicate data.length .recvThread)
      = some { service.push addr data with recvThread := .push addr [] drained } := by
  induction data generalizing service with
  | nil =>
      have same : service.push addr [] = service := by
        simp [push, conn, setConn, CTcpSocket.setConn]
      rw [same, ← position]
      rfl
  | cons byte rest ih =>
      have first : step service .recvThread
          = some { service.push addr [byte] with recvThread := .push addr rest drained } := by
        simp only [step, recvThreadStep, position]
      have later := @ih { service.push addr [byte] with recvThread := .push addr rest drained } rfl
      rw [List.length_cons, List.replicate_succ, TransitionSystem.run_cons, first,
        Option.bind_some, later]
      simp [push, setConn, conn, CTcpSocket.setConn]

/-- A write with its status update, up to the drain loop. -/
theorem run_write (service : Service Addr Seq) {data : List Byte} {drained : Bool}
    (position : service.recvThread = .write addr data drained)
    (free : service.statusLock addr = false)
    : ∃ count,
        run step service (List.replicate count .recvThread)
        = some
            {
              service.setConn addr
                (if drained then
                  {
                    (service.conn addr).deliver data with
                    recvList := (service.conn addr).recvList.tail
                  }
                else
                  (service.conn addr).deliver data) with
              recvThread := .drain addr
            } := by
  have unlocked : Function.update service.statusLock addr false = service.statusLock := by
    rw [← free, Function.update_eq_self]
  have begun : run step service (List.replicate 1 .recvThread)
      = some { service with recvThread := .push addr data drained } := by
    simp [List.replicate, step, recvThreadStep, position]
  have pushed := @run_push _ _ _ _ _ _ _ _ _ addr
    { service with recvThread := .push addr data drained } data drained rfl
  cases status : (service.socket.connectMap addr).status with
  | noData =>
      refine ⟨1 + (data.length + 5), ?_⟩
      rw [run_replicate_append begun, run_replicate_append pushed]
      cases drained <;>
        simp [List.replicate, step, recvThreadStep, push, free, setConn, setStatusLock, conn,
          CTcpSocket.setConn, unlocked, Conn.deliver, Conn.write, Status.afterWrite, status]
  | hasData | receiving =>
      refine ⟨1 + (data.length + 4), ?_⟩
      rw [run_replicate_append begun, run_replicate_append pushed]
      cases drained <;>
        simp [List.replicate, step, recvThreadStep, push, free, setConn, setStatusLock, conn,
          CTcpSocket.setConn, unlocked, Conn.deliver, Conn.write, Status.afterWrite, status]

omit [OfNat Seq 0] [LT Seq] [DecidableLT Seq] in
/-- `drain` leaves the packets that it is given, whatever the list was before. -/
theorem drain_recvList (conn : Conn Seq) (list held : List (DataPacket Seq))
    : { conn with recvList := list }.drain held = conn.drain held := by
  induction held generalizing conn with
  | nil => rfl
  | cons packet rest ih =>
      by_cases next : packet.seq = conn.nextRecvSeq
      · have more := ih (conn.deliver packet.data)
        simpa [Conn.drain, next, Conn.deliver, Conn.write] using more
      · simp [Conn.drain, next]

/-- The drain loop does what `drain` does at once, by induction on the held packets. -/
theorem run_drain (service : Service Addr Seq) {held : List (DataPacket Seq)}
    (list : (service.conn addr).recvList = held) (position : service.recvThread = .drain addr)
    (free : service.statusLock addr = false)
    : ∃ count,
        run step service (List.replicate count .recvThread)
        = some
            {
              service.setConn addr ((service.conn addr).drain held) with
              recvThread := .recvfrom
            } := by
  induction held generalizing service with
  | nil =>
      have same : (service.conn addr).drain [] = service.conn addr := by
        rw [Conn.drain, ← list]
      refine ⟨1, ?_⟩
      rw [same, setConn_self]
      simp [List.replicate, step, recvThreadStep, position, list]
  | cons packet rest ih =>
      by_cases next : packet.seq = (service.conn addr).nextRecvSeq
      · have first : run step service (List.replicate 1 .recvThread)
            = some { service with recvThread := .write addr packet.data true } := by
          simp [List.replicate, step, recvThreadStep, position, list, next]
        obtain ⟨written, second⟩ :=
          run_write { service with recvThread := .write addr packet.data true } rfl free
        obtain ⟨drained, third⟩ := ih
          {
            service.setConn addr
              { (service.conn addr).deliver packet.data with recvList := rest } with
            recvThread := .drain addr
          }
          (by simp [conn, setConn]) rfl free
        refine ⟨1 + (written + drained), ?_⟩
        rw [run_replicate_append first, run_replicate_append second]
        have tail : (service.socket.connectMap addr).recvList.tail = rest :=
          congrArg List.tail list
        have whole : (service.conn addr).drain (packet :: rest)
            = ((service.conn addr).deliver packet.data).drain rest := by
          rw [Conn.drain, if_pos next]
        rw [whole, ← drain_recvList _ rest]
        simpa [conn, setConn, CTcpSocket.setConn, tail] using third
      · have same : (service.conn addr).drain (packet :: rest) = service.conn addr := by
          rw [Conn.drain, if_neg next, ← list]
        refine ⟨1, ?_⟩
        rw [same, setConn_self]
        simp [List.replicate, step, recvThreadStep, position, list, next]

/-- Without another thread's step in between, the receive thread handles a `DATA` packet as
`recvThreadProc` does.
-/
theorem run_recvThreadProc (packet : DataPacket Seq) (position : service.recvThread = .recvfrom)
    (free : service.statusLock addr = false)
    : ∃ count,
        run step service (.arrive addr (.data packet) :: List.replicate count .recvThread)
        = some
            { service with socket := (service.socket.recvThreadProc addr (.data packet)).1 } := by
  by_cases next : packet.seq = (service.socket.connectMap addr).nextRecvSeq
  · obtain ⟨written, first⟩ :=
      run_write { service with recvThread := .write addr packet.data false } rfl free
    have list
        : ((service.setConn addr ((service.conn addr).deliver packet.data)).conn addr).recvList
          = (service.conn addr).recvList := by
      simp [conn, setConn, Conn.deliver, Conn.write]
    obtain ⟨drained, second⟩ := run_drain
      {
        service.setConn addr ((service.conn addr).deliver packet.data) with
        recvThread := .drain addr
      }
      list rfl free
    refine ⟨written + drained, ?_⟩
    have arrived : step service (.arrive addr (.data packet))
        = some { service with recvThread := .write addr packet.data false } := by
      simp [step, arrive, position, conn, next]
    rw [TransitionSystem.run_cons, arrived, Option.bind_some, run_replicate_append first]
    simpa [conn, setConn, CTcpSocket.setConn, CTcpSocket.recvThreadProc, Conn.onData, next,
      position] using second
  · refine ⟨0, ?_⟩
    by_cases ahead : (service.socket.connectMap addr).nextRecvSeq < packet.seq
    · simp [step, arrive, position, conn, next, ahead, setConn, CTcpSocket.recvThreadProc,
        Conn.onData]
    · have same : (service.socket.connectMap addr).onData packet
          = service.socket.connectMap addr := by
        simp [Conn.onData, next, ahead]
      have kept : service.socket.setConn addr (service.socket.connectMap addr)
          = service.socket := by
        simp [CTcpSocket.setConn]
      have arrived : step service (.arrive addr (.data packet)) = some service := by
        simp [step, arrive, position, conn, next, ahead]
      simp [arrived, CTcpSocket.recvThreadProc, same, kept]

end Undisturbed

end Service

end SchoolSystem.Server
