import SchoolSystem.TcpSocket.Errors
import SchoolSystem.TcpSocket.Link

/-! `CTcpClient::Connect` call by call, with the `SendThreadProc` threads that it starts. The first
handshake packet lies on the stack of `Connect`, and `m_sendList` points to it.
-/

namespace SchoolSystem.TcpSocket

open Errors (SendThread)

/-- A node of `m_sendList`, with the call of `Connect` whose `sendPkg` it points to, if it does not
point to a packet that `Send` has allocated.
-/
structure PendingNode (Addr Seq : Type) extends SendListNode Addr Seq where
  frame : Option Nat
  deriving DecidableEq, Repr

/-- Where `Connect` is, with the number that it has read. -/
inductive Connect (Seq : Type)
  | notCalled
  | socket
  | sendto
  | pushBack
  | createSendThread
  | recvfrom
  | lock (seq : Seq)
  | clear (seq : Seq)
  | unlock (seq : Seq)
  | sendAck (seq : Seq)
  | createRecvThread
  | returned (connected : Bool)
  deriving DecidableEq, Repr

/-- Who holds `m_sendListLock`. -/
inductive SendListOwner
  | connect
  | sendThread (index : Nat)
  deriving DecidableEq, Repr

/-- A `CTcpClient` up to the call of `Connect` that starts `RecvThreadProc`. -/
structure CTcpClient (Addr Seq : Type) where
  serverAddr : Addr
  connectMap : Addr → Conn Seq
  sendList : List (PendingNode Addr Seq)
  sendListLock : Option SendListOwner
  calls : Nat
  connect : Connect Seq
  sendThreads : List SendThread

/-- `failed` tells that the call a step makes, if it makes one, returns an error. -/
inductive ClientEvent (Addr Seq : Type)
  | call (serverAddr : Addr)
  | connect (clock : Int) (failed : Bool)
  | answer (seq : Seq)
  | send (addr : Addr) (buf : List Byte)
  | sendThread (index : Nat) (clock : Int) (failed : Bool)
  deriving DecidableEq, Repr

/-- Whether the stack of `Connect` exists. -/
def Connect.running {Seq : Type} : Connect Seq → Bool
  | .notCalled | .returned _ => false
  | .socket | .sendto | .pushBack | .createSendThread | .recvfrom | .lock _ | .clear _
  | .unlock _ | .sendAck _ | .createRecvThread => true

namespace CTcpClient

variable {Addr Seq : Type} [DecidableEq Addr] [Add Seq] [OfNat Seq 0] [OfNat Seq 1]

def new (serverAddr : Addr) : CTcpClient Addr Seq where
  serverAddr := serverAddr
  connectMap := fun _ => Conn.new
  sendList := []
  sendListLock := none
  calls := 0
  connect := .notCalled
  sendThreads := []

/-- Assigns through the reference `Conn& conn = m_connectMap[m_serverAddr]`. -/
def setConn (client : CTcpClient Addr Seq) (conn : Conn Seq) : CTcpClient Addr Seq :=
  { client with connectMap := Function.update client.connectMap client.serverAddr conn }

def conn (client : CTcpClient Addr Seq) : Conn Seq := client.connectMap client.serverAddr

/-- Calls `Connect`, for the first time or after a call that has returned `false`. -/
def call (client : CTcpClient Addr Seq) (serverAddr : Addr) : Option (CTcpClient Addr Seq) :=
  let called : CTcpClient Addr Seq :=
    { client with serverAddr, calls := client.calls + 1, connect := .socket }
  match client.connect with
  | .notCalled | .returned false => some (called.setConn { called.conn with nextSendSeq := 0 })
  | .returned true | .socket | .sendto | .pushBack | .createSendThread | .recvfrom | .lock _
  | .clear _ | .unlock _ | .sendAck _ | .createRecvThread => none

/-- The next step of `Connect`, which pushes its node without taking the lock. -/
def connectStep (client : CTcpClient Addr Seq) (clock : Int) (failed : Bool)
    : Option (CTcpClient Addr Seq) :=
  match client.connect with
  | .notCalled | .returned _ => none
  | .socket =>
      some { client with connect := if failed then .returned false else .sendto }
  | .sendto =>
      let numbered :=
        client.setConn { client.conn with nextSendSeq := client.conn.nextSendSeq + 1 }
      some { numbered with connect := if failed then .returned false else .pushBack }
  | .pushBack =>
      some
        {
          client with
          sendList :=
            client.sendList
            ++ [
              {
                time := clock
                addr := client.serverAddr
                packet := .establish1 0
                frame := some client.calls
              }
            ]
          connect := .createSendThread
        }
  | .createSendThread =>
      some { client with sendThreads := client.sendThreads ++ [.lock], connect := .recvfrom }
  | .recvfrom => if failed then some { client with connect := .returned false } else none
  | .lock seq =>
      if client.sendListLock = none then
        some { client with sendListLock := some .connect, connect := .clear seq }
      else
        none
  | .clear seq => some { client with sendList := [], connect := .unlock seq }
  | .unlock seq => some { client with sendListLock := none, connect := .sendAck seq }
  | .sendAck _ =>
      some { client with connect := if failed then .returned false else .createRecvThread }
  | .createRecvThread => some { client with connect := .returned true }

/-- `recvfrom` returns a packet with this number. -/
def answer (client : CTcpClient Addr Seq) (seq : Seq) : Option (CTcpClient Addr Seq) :=
  match client.connect with
  | .recvfrom =>
      let read : CTcpClient Addr Seq := { client with connect := .lock seq }
      some (read.setConn { client.conn with nextRecvSeq := seq + 1 })
  | .notCalled | .socket | .sendto | .pushBack | .createSendThread | .lock _ | .clear _
  | .unlock _ | .sendAck _ | .createRecvThread | .returned _ => none

/-- `Send`, of the thread that calls `Connect` too. -/
def send (client : CTcpClient Addr Seq) (addr : Addr) (buf : List Byte)
    : Option (CTcpClient Addr Seq) :=
  if client.connect.running = false ∧ client.sendListLock = none then
    let queued :=
      CTcpSocket.send { connectMap := client.connectMap, sendList := [] } addr buf
    some
      {
        client with
        connectMap := queued.connectMap
        sendList :=
          client.sendList ++ queued.sendList.map (fun node => { node with frame := none })
      }
  else
    none

/-- What a node points to exists. -/
def Alive (client : CTcpClient Addr Seq) (node : PendingNode Addr Seq) : Prop :=
  ∀ call, node.frame = some call → call = client.calls ∧ client.connect.running = true

instance (client : CTcpClient Addr Seq) (node : PendingNode Addr Seq)
    : Decidable (client.Alive node) :=
  decidable_of_iff
    (node.frame.all (fun call => call = client.calls && client.connect.running) = true)
    (by cases frame : node.frame <;> simp [Alive, frame])

/-- The node whose packet the next step of a `SendThreadProc` reads. -/
def dereferences (client : CTcpClient Addr Seq) (index : Nat) (clock : Int)
    : Option (PendingNode Addr Seq) :=
  match client.sendThreads[index]? with
  | some (.node position) =>
      client.sendList[position]?.filter (fun node => node.due clock)
  | none | some .lock | some .returned => none

/-- The next step of a `SendThreadProc`. Reading a packet that does not exist is undefined. -/
def sendThreadStep (client : CTcpClient Addr Seq) (index : Nat) (clock : Int) (failed : Bool)
    : Option (CTcpClient Addr Seq) :=
  match client.sendThreads[index]? with
  | none | some .returned => none
  | some .lock =>
      if client.sendListLock = none then
        some
          {
            client with
            sendListLock := some (.sendThread index)
            sendThreads := client.sendThreads.set index (.node 0)
          }
      else
        none
  | some (.node position) =>
      match client.sendList[position]? with
      | none =>
          some
            {
              client with
              sendListLock := none
              sendThreads := client.sendThreads.set index .lock
            }
      | some node =>
          if node.due clock = true ∧ ¬ client.Alive node then
            none
          else
            let (sent, packets) := node.transmit clock
            if failed ∧ packets ≠ [] then
              some { client with sendThreads := client.sendThreads.set index .returned }
            else
              some
                {
                  client with
                  sendList := client.sendList.set position { node with toSendListNode := sent }
                  sendThreads := client.sendThreads.set index (.node (position + 1))
                }

def step (client : CTcpClient Addr Seq)
    : ClientEvent Addr Seq → Option (CTcpClient Addr Seq)
  | .call serverAddr => client.call serverAddr
  | .connect clock failed => client.connectStep clock failed
  | .answer seq => client.answer seq
  | .send addr buf => client.send addr buf
  | .sendThread index clock failed => client.sendThreadStep index clock failed

-----------------------------------------------------------------------------------------
-- What a failed Connect leaves behind
-----------------------------------------------------------------------------------------

/-- A `Connect` that returns `false` leaves an empty list, and no `SendThreadProc` reads a packet
that does not exist.
-/
def LeavesNothing (client : CTcpClient Addr Seq) : ClientEvent Addr Seq → Prop
  | .connect clock failed =>
      ∀ after,
        client.connectStep clock failed = some after
        → after.connect = .returned false
        → after.sendList = []
  | .sendThread index clock _ =>
      ∀ node, client.dereferences index clock = some node → client.Alive node
  | .call _ | .answer _ | .send _ _ => True

/-- `Connect` does not fail at `recvfrom`, and before its `push_back` only with an empty list. -/
def Answered (client : CTcpClient Addr Seq) : ClientEvent Addr Seq → Prop
  | .connect _ true =>
      match client.connect with
      | .recvfrom => False
      | .socket | .sendto => client.sendList = []
      | .notCalled | .pushBack | .createSendThread | .lock _ | .clear _ | .unlock _ | .sendAck _
      | .createRecvThread | .returned _ => True
  | .connect _ false | .call _ | .answer _ | .send _ _ | .sendThread _ _ _ => True

variable {client next : CTcpClient Addr Seq} {event : ClientEvent Addr Seq}

def frames (client : CTcpClient Addr Seq) : List (Option Nat) :=
  client.sendList.map PendingNode.frame

/-- Only the call of `Connect` that is on its way has a node of its own, and only from its
`push_back` to its `clear`.
-/
def FramesAt (calls : Nat) (frames : List (Option Nat)) : Connect Seq → Prop
  | .createSendThread | .recvfrom | .lock _ | .clear _ =>
      frames ≠ [] ∧ ∀ frame ∈ frames, frame = none ∨ frame = some calls
  | .unlock _ | .sendAck _ | .createRecvThread => frames = []
  | .notCalled | .socket | .sendto | .pushBack | .returned _ => ∀ frame ∈ frames, frame = none

def Framed (client : CTcpClient Addr Seq) : Prop :=
  FramesAt client.calls client.frames client.connect

omit [DecidableEq Addr] [Add Seq] [OfNat Seq 1] in
theorem framed_new (serverAddr : Addr) : (new serverAddr : CTcpClient Addr Seq).Framed := nofun

omit [DecidableEq Addr] [Add Seq] [OfNat Seq 0] [OfNat Seq 1] in
/-- The call that has nodes of its own is running. -/
theorem Framed.alive (framed : client.Framed) {node : PendingNode Addr Seq}
    (pending : node ∈ client.sendList)
    : client.Alive node := by
  intro call frame
  have member : some call ∈ client.frames := frame ▸ List.mem_map_of_mem pending
  cases position : client.connect with
  | createSendThread | recvfrom | lock | clear =>
      rw [Framed, position] at framed
      exact ⟨by simpa using framed.2 _ member, rfl⟩
  | unlock | sendAck | createRecvThread =>
      rw [Framed, position] at framed
      rw [show client.frames = [] from framed] at member
      cases member
  | notCalled | socket | sendto | pushBack | returned =>
      rw [Framed, position] at framed
      exact absurd (framed _ member) nofun

omit [DecidableEq Addr] [Add Seq] [OfNat Seq 0] [OfNat Seq 1] in
/-- A `SendThreadProc` changes the time of a node only. -/
theorem sendThreadStep_keeps {index : Nat} {clock : Int} {failed : Bool}
    (stepped : client.sendThreadStep index clock failed = some next)
    : next.connect = client.connect ∧ next.calls = client.calls ∧ next.frames = client.frames := by
  simp only [sendThreadStep] at stepped
  split at stepped
  · cases stepped
  · cases stepped
  · split at stepped <;> cases stepped
    exact ⟨rfl, rfl, rfl⟩
  · split at stepped
    · cases stepped
      exact ⟨rfl, rfl, rfl⟩
    · rename_i index _ _ node found
      split at stepped
      · cases stepped
      · split at stepped
        · cases stepped
          exact ⟨rfl, rfl, rfl⟩
        · cases stepped
          refine ⟨rfl, rfl, ?_⟩
          have frame : client.frames[index]? = some node.frame := by
            rw [frames, List.getElem?_map, found, Option.map_some]
          obtain ⟨inside, same⟩ := List.getElem?_eq_some_iff.mp frame
          rw [frames, List.map_set]
          exact same ▸ List.set_getElem_self inside

omit [Add Seq] [OfNat Seq 0] [OfNat Seq 1] in
/-- An empty list is in order wherever `Connect` returns. -/
theorem framesAt_of_eq_nil {calls : Nat} {frames : List (Option Nat)} {connected : Bool}
    (none : frames = [])
    : FramesAt calls frames (.returned connected : Connect Seq) := by
  subst none
  nofun

omit [DecidableEq Addr] [Add Seq] [OfNat Seq 0] [OfNat Seq 1] in
/-- Outside `Connect` every node points to a packet that `Send` has allocated. -/
theorem framed_iff_of_outside (outside : client.connect.running = false)
    : client.Framed ↔ ∀ frame ∈ client.frames, frame = none := by
  rw [Framed]
  cases position : client.connect with
  | notCalled | returned => exact Iff.rfl
  | socket | sendto | pushBack | createSendThread | recvfrom | lock | clear | unlock | sendAck
  | createRecvThread =>
      rw [position] at outside
      cases outside

/-- The steps of `Connect`, by the position they are taken at. -/
theorem Framed.connectStep {clock : Int} {failed : Bool} (framed : client.Framed)
    (answered : client.Answered (.connect clock failed))
    (stepped : client.connectStep clock failed = some next)
    : next.Framed := by
  cases position : client.connect with
  | notCalled | returned => simp [CTcpClient.connectStep, position] at stepped
  | socket | sendto =>
      rw [Framed, position] at framed
      simp only [CTcpClient.connectStep, position, Option.some.injEq] at stepped
      subst stepped
      cases failed <;> exact framed
  | pushBack =>
      rw [Framed, position] at framed
      simp only [CTcpClient.connectStep, position, Option.some.injEq] at stepped
      subst stepped
      have queued (frame : Option Nat) (member : frame ∈ client.frames ++ [some client.calls])
          : frame = none ∨ frame = some client.calls :=
        (List.mem_append.mp member).imp (framed frame) List.mem_singleton.mp
      simpa [Framed, FramesAt, frames] using queued
  | createSendThread =>
      rw [Framed, position] at framed
      simp only [CTcpClient.connectStep, position, Option.some.injEq] at stepped
      subst stepped
      exact framed
  | recvfrom =>
      cases failed with
      | false => simp [CTcpClient.connectStep, position] at stepped
      | true => simp [Answered, position] at answered
  | lock seq =>
      rw [Framed, position] at framed
      simp only [CTcpClient.connectStep, position] at stepped
      split at stepped <;> cases stepped
      exact framed
  | clear seq =>
      simp only [CTcpClient.connectStep, position, Option.some.injEq] at stepped
      subst stepped
      exact List.map_nil
  | unlock seq =>
      rw [Framed, position] at framed
      simp only [CTcpClient.connectStep, position, Option.some.injEq] at stepped
      subst stepped
      exact framed
  | sendAck seq =>
      rw [Framed, position] at framed
      simp only [CTcpClient.connectStep, position, Option.some.injEq] at stepped
      subst stepped
      have none : client.frames = [] := framed
      cases failed with
      | false => exact none
      | true => exact framesAt_of_eq_nil none
  | createRecvThread =>
      rw [Framed, position] at framed
      simp only [CTcpClient.connectStep, position, Option.some.injEq] at stepped
      subst stepped
      exact framesAt_of_eq_nil framed

theorem Framed.step (framed : client.Framed) (answered : client.Answered event)
    (stepped : client.step event = some next)
    : next.Framed := by
  cases event with
  | connect clock failed => exact framed.connectStep answered stepped
  | sendThread index clock failed =>
      obtain ⟨connect, calls, frames⟩ := sendThreadStep_keeps stepped
      rwa [Framed, connect, calls, frames]
  | call serverAddr =>
      simp only [CTcpClient.step, call] at stepped
      split at stepped
      case h_1 position | h_2 position =>
        cases stepped
        rw [Framed, position] at framed
        exact framed
      all_goals cases stepped
  | answer seq =>
      simp only [CTcpClient.step, answer] at stepped
      split at stepped
      case h_1 position =>
        cases stepped
        rw [Framed, position] at framed
        exact framed
      all_goals cases stepped
  | send addr buf =>
      simp only [CTcpClient.step, send] at stepped
      split at stepped <;> cases stepped
      obtain ⟨outside, _⟩ := ‹_ ∧ _›
      refine (framed_iff_of_outside ?_).mpr (fun frame member => ?_)
      · exact outside
      rw [frames, List.map_append, List.map_map, List.mem_append] at member
      rcases member with old | new
      · exact (framed_iff_of_outside outside).mp framed frame old
      · obtain ⟨_, _, rfl⟩ := List.mem_map.mp new
        rfl

omit [DecidableEq Addr] [Add Seq] [OfNat Seq 0] [OfNat Seq 1] in
/-- A node that a `SendThreadProc` reads is in the list. -/
theorem dereferences_mem {index : Nat} {clock : Int} {node : PendingNode Addr Seq}
    (found : client.dereferences index clock = some node)
    : node ∈ client.sendList := by
  simp only [dereferences] at found
  split at found
  · exact List.mem_of_getElem? (Option.filter_eq_some_iff.mp found).1
  · cases found
  · cases found
  · cases found

/-- `Connect` finds its own node in the list until it clears it, and nothing after that. -/
theorem Framed.leavesNothing_iff (framed : client.Framed)
    : client.LeavesNothing event ↔ client.Answered event := by
  have empty : client.frames = [] ↔ client.sendList = [] := List.map_eq_nil_iff
  cases event with
  | call | answer | send => exact Iff.rfl
  | sendThread index clock failed =>
      exact ⟨fun _ => trivial, fun _ node found => framed.alive (dereferences_mem found)⟩
  | connect clock failed =>
      rw [Framed] at framed
      cases position : client.connect with
      | notCalled | pushBack | createSendThread | clear | unlock | createRecvThread | returned =>
          cases failed <;> simp [LeavesNothing, Answered, CTcpClient.connectStep, position]
      | lock seq =>
          cases failed <;>
            simp +contextual [LeavesNothing, Answered, CTcpClient.connectStep, position]
      | socket | sendto =>
          cases failed <;> simp [LeavesNothing, Answered, CTcpClient.connectStep, position, setConn]
      | recvfrom =>
          rw [position] at framed
          have pending : client.sendList ≠ [] := fun none => framed.1 (empty.mpr none)
          cases failed <;> simp [LeavesNothing, Answered, CTcpClient.connectStep, position, pending]
      | sendAck seq =>
          rw [position] at framed
          have none : client.sendList = [] := empty.mp framed
          cases failed <;> simp [LeavesNothing, Answered, CTcpClient.connectStep, position, none]

/-- In a run failed calls of `Connect` leave nothing behind exactly when none of them fails at
`recvfrom`, and those that fail before it find an empty list.
-/
theorem leavesNothing_iff_answered (serverAddr : Addr) (events : List (ClientEvent Addr Seq))
    : TransitionSystem.Along step LeavesNothing (new serverAddr) events
      ↔ TransitionSystem.Along step Answered (new serverAddr) events :=
  TransitionSystem.along_congr_of_invariant Framed.leavesNothing_iff
    (fun framed leaves stepped => framed.step (framed.leavesNothing_iff.mp leaves) stepped)
    (framed_new serverAddr)

/-- `recvfrom` fails, as it does where no server listens, and a second later `SendThreadProc` reads
the packet of a call that has returned.
-/
theorem not_leavesNothing_refused
    : ¬ ∀ (serverAddr : Nat) (events : List (ClientEvent Nat Int)),
          TransitionSystem.Along step LeavesNothing (new serverAddr) events := by
  intro leaves
  let refused : List (ClientEvent Nat Int) :=
    List.flatten
      [
        [.call 7],
        List.replicate 4 (.connect 1 false),
        [.connect 2 true, .sendThread 0 5 false]
      ]
  obtain ⟨client, reached⟩ := Option.isSome_iff_exists.mp
    (by decide +kernel
      : ((TransitionSystem.run step (new 7) refused).filter
          (fun client =>
            (client.dereferences 0 1001).any (fun node => ¬ client.Alive node))).isSome)
  obtain ⟨ran, reads⟩ := Option.filter_eq_some_iff.mp reached
  obtain ⟨node, found, dead⟩ := (Option.any_eq_true _ _).mp reads
  have along := leaves 7 (refused ++ [.sendThread 0 1001 false])
  have met := ((TransitionSystem.along_append _).mp along).2 client ran
  exact of_decide_eq_true dead (met.1 node found)

end CTcpClient

end SchoolSystem.TcpSocket
