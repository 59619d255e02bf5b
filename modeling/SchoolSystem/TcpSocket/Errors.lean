import SchoolSystem.TcpSocket.Socket

/-! The two threads of a `CTcpSocket` step by step, with `m_sendListLock` and with calls that
return `SOCKET_ERROR`. Both threads return at the first such call.
-/

namespace SchoolSystem.TcpSocket.Errors

open TransitionSystem

/-- `SendThreadProc`: before `Lock`, in the loop over the list, or ended. -/
inductive SendThread
  | lock
  | node (index : Nat)
  | returned
  deriving DecidableEq, Repr

/-- `RecvThreadProc`: at `recvfrom`, in the `switch`, at the push of the `ESTABLISH_1`
branch, or ended.
-/
inductive RecvThread (Addr Seq : Type)
  | recvfrom
  | handle (fromAddr : Addr) (packet : Packet Seq)
  | pushEstablish2 (fromAddr : Addr)
  | returned
  deriving DecidableEq, Repr

inductive Thread
  | send
  | recv
  deriving DecidableEq, Repr

/-- A socket with its threads. Only `SendThreadProc` keeps the lock from one step to the next:
`Send` and `RecvThreadProc` take it and release it in one step.
-/
structure Threads (Addr Seq : Type) where
  socket : CTcpSocket Addr Seq
  sendListLock : Option Thread
  sendThread : SendThread
  recvThread : RecvThread Addr Seq

/-- `failed` tells that the call a step makes, if it makes one, returns `SOCKET_ERROR`. -/
inductive Event (Addr Seq : Type)
  | send (addr : Addr) (buf : List Byte)
  | sendThread (clock : Int) (failed : Bool)
  | recvfrom (fromAddr : Addr) (packet : Packet Seq)
  | recvfromError (fromAddr : Addr)
  | recvThread (failed : Bool)
  deriving DecidableEq, Repr

variable {Addr Seq : Type} [DecidableEq Addr] [Add Seq] [OfNat Seq 0] [OfNat Seq 1]
  [DecidableEq Seq] [LT Seq] [DecidableLT Seq]

/-- Both threads before their first step. -/
def Threads.start (socket : CTcpSocket Addr Seq) : Threads Addr Seq :=
  { socket, sendListLock := none, sendThread := .lock, recvThread := .recvfrom }

def Threads.ended (threads : Threads Addr Seq) : Thread → Bool
  | .send => threads.sendThread = .returned
  | .recv => threads.recvThread = .returned

/-- The counters that the `ESTABLISH_1` branch sets before it takes the lock. -/
def resetConn (socket : CTcpSocket Addr Seq) (fromAddr : Addr) (seq : Seq)
    : CTcpSocket Addr Seq :=
  socket.setConn fromAddr
    { socket.connectMap fromAddr with nextSendSeq := 0 + 1, nextRecvSeq := seq + 1 }

def pushEstablish2 (socket : CTcpSocket Addr Seq) (fromAddr : Addr) : CTcpSocket Addr Seq :=
  { socket with sendList := socket.sendList ++ [⟨0, fromAddr, .establish2 0⟩] }

/-- One step of `SendThreadProc`. An error leaves the loop without `UnLock`. -/
def Threads.sendThreadStep (threads : Threads Addr Seq) (clock : Int) (failed : Bool)
    : Option (Threads Addr Seq) :=
  match threads.sendThread with
  | .lock =>
      if threads.sendListLock = none then
        some { threads with sendListLock := some .send, sendThread := .node 0 }
      else
        none
  | .node index =>
      match threads.socket.sendThreadProc index clock with
      | none => some { threads with sendListLock := none, sendThread := .lock }
      | some (socket, sent) =>
          if failed ∧ sent ≠ [] then
            some { threads with sendThread := .returned }
          else
            some { threads with socket, sendThread := .node (index + 1) }
  | .returned => none

/-- One step of `RecvThreadProc` after `recvfrom`. -/
def Threads.recvThreadStep (threads : Threads Addr Seq) (failed : Bool)
    : Option (Threads Addr Seq) :=
  match threads.recvThread with
  | .recvfrom | .returned => none
  | .handle fromAddr (.establish1 seq) =>
      some
        {
          threads with
          socket := resetConn threads.socket fromAddr seq
          recvThread := .pushEstablish2 fromAddr
        }
  | .pushEstablish2 fromAddr =>
      if threads.sendListLock = none then
        some
          {
            threads with
            socket := pushEstablish2 threads.socket fromAddr
            recvThread := .recvfrom
          }
      else
        none
  | .handle fromAddr (.ack seq) =>
      if threads.sendListLock = none then
        some
          {
            threads with
            socket := (threads.socket.recvThreadProc fromAddr (.ack seq)).1
            recvThread := .recvfrom
          }
      else
        none
  | .handle fromAddr packet =>
      if failed then
        some { threads with recvThread := .returned }
      else
        some
          {
            threads with
            socket := (threads.socket.recvThreadProc fromAddr packet).1
            recvThread := .recvfrom
          }

def step (threads : Threads Addr Seq) : Event Addr Seq → Option (Threads Addr Seq)
  | .send addr buf =>
      if threads.sendListLock = none then
        some { threads with socket := threads.socket.send addr buf }
      else
        none
  | .sendThread clock failed => threads.sendThreadStep clock failed
  | .recvfrom fromAddr packet =>
      if threads.recvThread = .recvfrom then
        some { threads with recvThread := .handle fromAddr packet }
      else
        none
  | .recvfromError _ =>
      if threads.recvThread = .recvfrom then
        some { threads with recvThread := .returned }
      else
        none
  | .recvThread failed => threads.recvThreadStep failed

/-- The peer of the call that returns `SOCKET_ERROR` in this step, if there is one. -/
def Threads.error (threads : Threads Addr Seq) : Event Addr Seq → Option Addr
  | .sendThread clock true =>
      match threads.sendThread with
      | .node index =>
          (threads.socket.sendThreadProc index clock).bind
            (fun (_, sent) => sent.head?.map Prod.fst)
      | .lock | .returned => none
  | .recvfromError fromAddr =>
      if threads.recvThread = .recvfrom then some fromAddr else none
  | .recvThread true =>
      match threads.recvThread with
      | .handle fromAddr (.establish2 _) | .handle fromAddr (.data _) => some fromAddr
      | _ => none
  | .send _ _ | .sendThread _ false | .recvfrom _ _ | .recvThread false => none

/-- The lock is not left behind by a thread that has ended, and both threads still run. -/
structure Threads.Going (threads : Threads Addr Seq) : Prop where
  lock : ∀ thread, threads.sendListLock = some thread → threads.ended thread = false
  goesOn : ∀ thread, threads.ended thread = false

/-- No other peer's connection or pending nodes differ. -/
structure Unharmed (failed : Addr) (before after : Threads Addr Seq) : Prop where
  conns
    : ∀ peer, peer ≠ failed
      → after.socket.connectMap peer = before.socket.connectMap peer
  nodes
    : ∀ peer, peer ≠ failed
      → after.socket.sendList.filter (fun node => node.addr = peer)
        = before.socket.sendList.filter (fun node => node.addr = peer)

/-- Every call of a run that returns `SOCKET_ERROR` harms no other peer, and both threads go
on in every state after it.
-/
def ErrorsContained (start : Threads Addr Seq) (events : List (Event Addr Seq)) : Prop :=
  ∀ done event rest before after peer,
    events = done ++ event :: rest
    → run step start done = some before
    → step before event = some after
    → before.error event = some peer
    → Unharmed peer before after
      ∧ ∀ more later, more <+: rest → run step after more = some later → later.Going

/-- No call of a run returns `SOCKET_ERROR`. -/
def NoError (start : Threads Addr Seq) (events : List (Event Addr Seq)) : Prop :=
  Along step (fun threads event => threads.error event = none) start events

-----------------------------------------------------------------------------------------
-- What an error does
-----------------------------------------------------------------------------------------

/-- What a step of `SendThreadProc` can do. -/
inductive SendMove (threads : Threads Addr Seq) (clock : Int) (failed : Bool)
    : Threads Addr Seq → Prop
  | lock (position : threads.sendThread = .lock) (free : threads.sendListLock = none)
    : SendMove threads clock failed
        { threads with sendListLock := some .send, sendThread := .node 0 }
  | unlock (index : Nat) (position : threads.sendThread = .node index)
    (finished : threads.socket.sendThreadProc index clock = none)
    : SendMove threads clock failed { threads with sendListLock := none, sendThread := .lock }
  | error (index : Nat) (position : threads.sendThread = .node index)
    (socket : CTcpSocket Addr Seq) (sent : List (Addr × Packet Seq))
    (iteration : threads.socket.sendThreadProc index clock = some (socket, sent))
    (fails : failed = true ∧ sent ≠ [])
    : SendMove threads clock failed { threads with sendThread := .returned }
  | node (index : Nat) (position : threads.sendThread = .node index)
    (socket : CTcpSocket Addr Seq) (sent : List (Addr × Packet Seq))
    (iteration : threads.socket.sendThreadProc index clock = some (socket, sent))
    (sends : ¬ (failed = true ∧ sent ≠ []))
    : SendMove threads clock failed { threads with socket, sendThread := .node (index + 1) }

omit [DecidableEq Addr] [Add Seq] [OfNat Seq 0] [OfNat Seq 1] [DecidableEq Seq] [LT Seq]
  [DecidableLT Seq] in
theorem sendThreadStep_move {threads next : Threads Addr Seq} {clock : Int} {failed : Bool}
    (stepped : threads.sendThreadStep clock failed = some next)
    : SendMove threads clock failed next := by
  cases position : threads.sendThread with
  | lock =>
      simp only [Threads.sendThreadStep, position, Option.ite_none_right_eq_some] at stepped
      obtain ⟨free, same⟩ := stepped
      exact Option.some.inj same ▸ .lock position free
  | returned => simp [Threads.sendThreadStep, position] at stepped
  | node index =>
      cases iteration : threads.socket.sendThreadProc index clock with
      | none =>
          simp only [Threads.sendThreadStep, position, iteration] at stepped
          exact Option.some.inj stepped ▸ .unlock index position iteration
      | some result =>
          simp only [Threads.sendThreadStep, position, iteration] at stepped
          split at stepped
          · rename_i fails
            exact Option.some.inj stepped ▸ .error index position _ _ iteration fails
          · rename_i sends
            exact Option.some.inj stepped ▸ .node index position _ _ iteration sends

omit [Add Seq] [OfNat Seq 0] [OfNat Seq 1] [LT Seq] [DecidableLT Seq] in
/-- A step of `SendThreadProc` makes no error exactly when it does not fail to send. -/
theorem error_sendThread {threads : Threads Addr Seq} {index : Nat} {clock : Int}
    {failed : Bool} (position : threads.sendThread = .node index)
    {socket : CTcpSocket Addr Seq} {sent : List (Addr × Packet Seq)}
    (iteration : threads.socket.sendThreadProc index clock = some (socket, sent))
    : threads.error (.sendThread clock failed) = none ↔ ¬ (failed = true ∧ sent ≠ []) := by
  cases failed <;> cases sent <;> simp [Threads.error, position, iteration]

/-- A call that returns `SOCKET_ERROR` ends its thread, and changes nothing else. -/
theorem step_of_error {threads : Threads Addr Seq} {event : Event Addr Seq} {peer : Addr}
    (error : threads.error event = some peer)
    : ∃ after thread,
        step threads event = some after
        ∧ after.ended thread = true
        ∧ after.socket = threads.socket
        ∧ after.sendListLock = threads.sendListLock := by
  cases event with
  | send addr buf => cases error
  | recvfrom fromAddr packet => cases error
  | recvfromError fromAddr =>
      have waiting : threads.recvThread = .recvfrom := by
        by_contra other
        simp [Threads.error, other] at error
      exact ⟨{ threads with recvThread := .returned }, .recv, by simp [step, waiting],
        by simp [Threads.ended], rfl, rfl⟩
  | sendThread clock failed =>
      cases position : threads.sendThread with
      | lock => cases failed <;> simp [Threads.error, position] at error
      | returned => cases failed <;> simp [Threads.error, position] at error
      | node index =>
          cases iteration : threads.socket.sendThreadProc index clock with
          | none => cases failed <;> simp [Threads.error, position, iteration] at error
          | some result =>
              have fails : failed = true ∧ result.2 ≠ [] := by
                by_contra succeeds
                rw [(error_sendThread position iteration).mpr succeeds] at error
                cases error
              exact ⟨{ threads with sendThread := .returned }, .send,
                by simp [step, Threads.sendThreadStep, position, iteration, fails],
                by simp [Threads.ended], rfl, rfl⟩
  | recvThread failed =>
      cases failed with
      | false => cases error
      | true =>
          refine ⟨{ threads with recvThread := .returned }, .recv, ?_,
            by simp [Threads.ended], rfl, rfl⟩
          cases position : threads.recvThread with
          | recvfrom => simp [Threads.error, position] at error
          | pushEstablish2 fromAddr => simp [Threads.error, position] at error
          | returned => simp [Threads.error, position] at error
          | handle fromAddr packet =>
              cases packet with
              | establish1 seq => simp [Threads.error, position] at error
              | ack seq => simp [Threads.error, position] at error
              | establish2 seq => simp [step, Threads.recvThreadStep, position]
              | data packet => simp [step, Threads.recvThreadStep, position]

/-- Without an error no thread ends. -/
theorem Threads.Going.step {threads next : Threads Addr Seq} {event : Event Addr Seq}
    (going : threads.Going) (noError : threads.error event = none)
    (stepped : step threads event = some next)
    : next.Going := by
  have sending : threads.sendThread ≠ .returned := by
    simpa [Threads.ended] using going.goesOn .send
  have receiving : threads.recvThread ≠ .returned := by
    simpa [Threads.ended] using going.goesOn .recv
  have kept : next.sendThread ≠ .returned ∧ next.recvThread ≠ .returned := by
    cases event with
    | send addr buf => grind [Errors.step]
    | recvfrom fromAddr packet => grind [Errors.step]
    | recvfromError fromAddr => grind [Errors.step, Threads.error]
    | sendThread clock failed =>
        cases sendThreadStep_move stepped with
        | lock | unlock | node => exact ⟨by simp, receiving⟩
        | error index position socket sent iteration fails =>
            exact absurd fails ((error_sendThread position iteration).mp noError)
    | recvThread failed =>
        cases position : threads.recvThread with
        | handle fromAddr packet =>
            cases packet <;> cases failed <;>
              grind [Errors.step, Threads.recvThreadStep, Threads.error]
        | recvfrom | pushEstablish2 | returned =>
            grind [Errors.step, Threads.recvThreadStep]
  have goesOn : ∀ thread, next.ended thread = false := by
    rintro (_ | _)
    · simpa [Threads.ended] using kept.1
    · simpa [Threads.ended] using kept.2
  exact ⟨fun thread _ => goesOn thread, goesOn⟩

/-- An error harms no peer's data. -/
theorem unharmed_of_error {before after : Threads Addr Seq} {event : Event Addr Seq}
    {peer : Addr} (error : before.error event = some peer)
    (stepped : step before event = some after)
    : Unharmed peer before after := by
  obtain ⟨same, _, steppedTo, _, socket, _⟩ := step_of_error error
  obtain rfl : after = same := Option.some.inj (stepped.symm.trans steppedTo)
  exact ⟨fun other _ => by rw [socket], fun other _ => by rw [socket]⟩

/-- Errors are contained in a run exactly when it has none: at every error, whichever call
and peer it is, the thread that made the call has ended.
-/
theorem errorsContained_iff (start : Threads Addr Seq) (events : List (Event Addr Seq))
    : ErrorsContained start events ↔ NoError start events := by
  rw [NoError, along_iff]
  constructor
  · intro contained done event rest before split ran
    cases error : before.error event with
    | none => rfl
    | some peer =>
        obtain ⟨after, thread, stepped, ended, _⟩ := step_of_error error
        obtain ⟨_, going⟩ := contained done event rest before after peer split ran stepped error
        have goesOn := (going [] after List.nil_prefix rfl).goesOn thread
        rw [ended] at goesOn
        cases goesOn
  · intro noError done event rest before after peer split ran _ error
    rw [noError done event rest before split ran] at error
    cases error

/-- Without errors both threads go on in every state of a run. -/
theorem going_of_noError {start later : Threads Addr Seq} (going : start.Going)
    {events : List (Event Addr Seq)} (noError : NoError start events)
    (ran : run step start events = some later)
    : later.Going :=
  run_invariant_along (fun going noError stepped => going.step noError stepped) going noError
    ran

-----------------------------------------------------------------------------------------
-- What follows an error, and what does not
-----------------------------------------------------------------------------------------

/-- `SendThreadProc` holds the lock exactly while it is in its loop, or has left it by an
error.
-/
def Threads.LockKept (threads : Threads Addr Seq) : Prop :=
  threads.sendListLock = if threads.sendThread = .lock then none else some .send

theorem Threads.LockKept.step {threads next : Threads Addr Seq} {event : Event Addr Seq}
    (kept : threads.LockKept) (stepped : step threads event = some next)
    : next.LockKept := by
  unfold LockKept at *
  cases event with
  | send addr buf => grind [Errors.step]
  | recvfrom fromAddr packet => grind [Errors.step]
  | recvfromError fromAddr => grind [Errors.step]
  | sendThread clock failed =>
      cases sendThreadStep_move stepped with
      | lock | unlock => simp
      | error index position | node index position => simpa [position] using kept
  | recvThread failed => grind [Errors.step, Threads.recvThreadStep]

/-- What is pending, and that the thread that holds the lock has ended. -/
structure Threads.Stuck (sendList : List (SendListNode Addr Seq))
    (threads : Threads Addr Seq)
    : Prop where
  ended : threads.sendThread = .returned
  held : threads.sendListLock = some .send
  pending : threads.socket.sendList = sendList

/-- With the lock left behind, nothing is queued, acknowledged or sent again. -/
theorem Threads.Stuck.step {sendList : List (SendListNode Addr Seq)}
    {threads next : Threads Addr Seq} {event : Event Addr Seq}
    (stuck : threads.Stuck sendList) (stepped : step threads event = some next)
    : next.Stuck sendList := by
  obtain ⟨ended, held, pending⟩ := stuck
  cases event with
  | send addr buf => simp [Errors.step, held] at stepped
  | sendThread clock failed => simp [Errors.step, Threads.sendThreadStep, ended] at stepped
  | recvfrom fromAddr packet =>
      constructor <;> grind [Errors.step]
  | recvfromError fromAddr =>
      constructor <;> grind [Errors.step]
  | recvThread failed =>
      cases position : threads.recvThread with
      | recvfrom | returned => simp [Errors.step, Threads.recvThreadStep, position] at stepped
      | pushEstablish2 fromAddr =>
          simp [Errors.step, Threads.recvThreadStep, position, held] at stepped
      | handle fromAddr packet =>
          cases packet <;> constructor <;>
            grind [Errors.step, Threads.recvThreadStep, resetConn, CTcpSocket.recvThreadProc,
              CTcpSocket.setConn]

/-- After an error of `SendThreadProc`, to whichever peer, every pending packet of every
peer stays as it is for ever: no step of any later run sends, queues or removes one.
-/
theorem stuck_of_sendto_error {socket : CTcpSocket Addr Seq}
    {done more : List (Event Addr Seq)} {before after later : Threads Addr Seq} {clock : Int}
    {peer : Addr} (ran : run step (Threads.start socket) done = some before)
    (error : before.error (.sendThread clock true) = some peer)
    (stepped : step before (.sendThread clock true) = some after)
    (ranOn : run step after more = some later)
    : later.Stuck before.socket.sendList := by
  have kept : before.LockKept := by
    refine run_invariant (fun kept stepped => kept.step stepped) ?_ ran
    simp [Threads.LockKept, Threads.start]
  have stuck : after.Stuck before.socket.sendList := by
    cases sendThreadStep_move stepped with
    | lock position free => simp [Threads.error, position] at error
    | unlock index position finished => simp [Threads.error, position, finished] at error
    | error index position socket sent iteration fails =>
        have held : before.sendListLock = some .send := by
          simpa [Threads.LockKept, position] using kept
        exact ⟨rfl, held, rfl⟩
    | node index position socket sent iteration sends =>
        rw [(error_sendThread position iteration).mpr sends] at error
        cases error
  exact run_invariant (fun stuck stepped => stuck.step stepped) stuck ranOn

/-- The receive state of every connection, and that the thread that receives has ended. -/
structure Threads.Deaf (connectMap : Addr → Conn Seq) (threads : Threads Addr Seq)
    : Prop where
  ended : threads.recvThread = .returned
  kept
    : ∀ peer,
        threads.socket.connectMap peer
        = {
            connectMap peer with
            nextSendSeq := (threads.socket.connectMap peer).nextSendSeq
          }

/-- Without `RecvThreadProc`, no connection receives anything again. -/
theorem Threads.Deaf.step {connectMap : Addr → Conn Seq} {threads next : Threads Addr Seq}
    {event : Event Addr Seq} (deaf : threads.Deaf connectMap)
    (stepped : step threads event = some next)
    : next.Deaf connectMap := by
  obtain ⟨ended, kept⟩ := deaf
  cases event with
  | recvfrom fromAddr packet => simp [Errors.step, ended] at stepped
  | recvfromError fromAddr => simp [Errors.step, ended] at stepped
  | recvThread failed => simp [Errors.step, Threads.recvThreadStep, ended] at stepped
  | send addr buf =>
      refine ⟨by grind [Errors.step], fun peer => ?_⟩
      have sent := threads.socket.queuePackets_conn addr peer (payloads buf)
      rw [kept peer] at sent
      grind [Errors.step, CTcpSocket.send]
  | sendThread clock failed =>
      have same : next.socket.connectMap = threads.socket.connectMap
          ∧ next.recvThread = threads.recvThread := by
        cases sendThreadStep_move stepped with
        | lock | unlock | error => exact ⟨rfl, rfl⟩
        | node index position socket sent iteration =>
            exact ⟨(CTcpSocket.sendThreadProc_spec iteration).1, rfl⟩
      refine ⟨same.2.trans ended, fun peer => ?_⟩
      rw [same.1]
      exact kept peer

/-- After an error of `RecvThreadProc`, whoever sent the datagram, no connection of any peer
receives anything in any later run.
-/
theorem deaf_of_recv_error {before after later : Threads Addr Seq} {event : Event Addr Seq}
    (receives : (∃ fromAddr, event = .recvfromError fromAddr) ∨ event = .recvThread true)
    {peer : Addr} (error : before.error event = some peer)
    (stepped : step before event = some after) {more : List (Event Addr Seq)}
    (ranOn : run step after more = some later)
    : later.Deaf before.socket.connectMap := by
  have deaf : after.Deaf before.socket.connectMap := by
    obtain ⟨same, thread, steppedTo, _, socket, _⟩ := step_of_error error
    obtain rfl : after = same := Option.some.inj (stepped.symm.trans steppedTo)
    refine ⟨?_, fun peer => by rw [socket]⟩
    rcases receives with ⟨fromAddr, rfl⟩ | rfl
    · grind [step]
    · cases position : before.recvThread with
      | recvfrom | returned | pushEstablish2 => simp [Threads.error, position] at error
      | handle fromAddr packet =>
          cases packet <;> grind [step, Threads.recvThreadStep, Threads.error]
  exact run_invariant (fun deaf stepped => deaf.step stepped) deaf ranOn

/-- Without errors `SendThreadProc` gets through its list and releases the lock, by
induction on the nodes that it has before it.
-/
theorem pass_completes (clock : Int) {threads : Threads Addr Seq} {index : Nat}
    (position : threads.sendThread = .node index)
    : ∃ steps later,
        run step threads (List.replicate steps (.sendThread clock false)) = some later
        ∧ later.sendListLock = none
        ∧ later.sendThread = .lock
        ∧ later.socket.pendingPackets = threads.socket.pendingPackets := by
  induction remaining : threads.socket.sendList.length - index generalizing threads index with
  | zero =>
      have outside : threads.socket.sendThreadProc index clock = none := by
        rw [CTcpSocket.sendThreadProc, List.getElem?_eq_none (by omega), Option.map_none]
      refine ⟨1, { threads with sendListLock := none, sendThread := .lock }, ?_, rfl, rfl, rfl⟩
      simp [step, Threads.sendThreadStep, position, outside]
  | succ remaining ih =>
      have inside : index < threads.socket.sendList.length := by omega
      cases iteration : threads.socket.sendThreadProc index clock with
      | none => simp [CTcpSocket.sendThreadProc, inside] at iteration
      | some result =>
          obtain ⟨socket, sent⟩ := result
          have pending := (CTcpSocket.sendThreadProc_spec iteration).2.1
          have length : socket.sendList.length = threads.socket.sendList.length := by
            simpa [CTcpSocket.pendingPackets] using congrArg List.length pending
          obtain ⟨steps, later, ran, lock, position', pending'⟩ :=
            @ih { threads with socket, sendThread := .node (index + 1) } (index + 1) rfl
              (by dsimp only; omega)
          refine ⟨steps + 1, later, ?_, lock, position', pending'.trans pending⟩
          simpa [List.replicate_succ, step, Threads.sendThreadStep, position, iteration] using ran

/-- Packets for two peers, of which the first becomes unreachable. -/
def queued : List (Event Nat Int) := [.send 1 [65], .send 2 [66], .sendThread 5 false]

/-- The error at the first peer's node is not contained: the thread that ends there still
holds the lock.
-/
theorem errorsContained_not_always
    : ¬ ErrorsContained (Threads.start (CTcpSocket.new : CTcpSocket Nat Int))
        (queued ++ [.sendThread 5 true]) := by
  intro contained
  obtain ⟨_, going⟩ := contained queued (.sendThread 5 true) [] _ _ 1 rfl rfl rfl rfl
  exact absurd ((going [] _ List.prefix_rfl rfl).lock .send rfl) (by decide)

end SchoolSystem.TcpSocket.Errors
