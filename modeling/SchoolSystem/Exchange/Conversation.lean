import SchoolSystem.Exchange.Reply
import SchoolSystem.Exchange.Session

/-! The handlers of a dialog and the server's work for this client, at the two ends of a link.
Every handler gets the reply to its own statement, and every statement is executed once, as long as
no size check of a `Recv` finds a part of what is asked for.
-/

namespace SchoolSystem.Exchange

open TcpSocket

-----------------------------------------------------------------------------------------
-- The two ends
-----------------------------------------------------------------------------------------

/-- A text that a handler passes to `SendSql`, and whether it calls `ShowList` for the reply. -/
structure Statement where
  sql : List Byte
  showsList : Bool
  deriving DecidableEq, Repr

/-- Where the dialog is: between two handlers, between the two `Send`s of `SendSql`, or in the
`Recv`s after them, with what these have stored.
-/
inductive Handler
  | returned
  | sendText (statement : Statement)
  | recvReply (statement : Statement) (got : List (List Byte))
  deriving DecidableEq, Repr

/-- Where the server is with one client: in the first or the second `Recv` of the main loop, before
`Execute` of the task, or in it with the buffers that are still to be sent. It takes the client's
next request after `UnSelect` only.
-/
inductive Serving
  | recvLength
  | recvText (nLen : Int32)
  | task (sql : List Byte)
  | sendReply (rest : List (List Byte))
  deriving DecidableEq, Repr

/-- The `int` that the next `Recv` of a handler asks for, unless the handler returns. `ShowList`
sets `nBytes` to zero once, and returns where the second length is zero.
-/
def Statement.asks (statement : Statement) (got : List (List Byte)) : Option Int32 :=
  match statement.showsList, got with
  | _, [] => some 4
  | true, [nBytes] => some (overwrite 0 nBytes)
  | true, [_, _] => some 4
  | true, [nBytes, _, more] =>
      let count := overwrite (overwrite 0 nBytes) more
      if count = 0 then none else some count
  | false, _ :: _ => none
  | true, _ :: _ :: _ :: _ :: _ => none

/-- A length that is within the buffer of 4096 bytes; another one is undefined. -/
def bufLen (nLen : Int32) : Option Int32 :=
  if 0 ≤ nLen.toInt ∧ nLen.toInt ≤ 0x1000 then some nLen else none

/-- The `nBufLen` of a handler's next `Recv`. -/
def Handler.asks : Handler → Option Int32
  | .recvReply statement got => (statement.asks got).bind bufLen
  | .returned | .sendText _ => none

/-- The `nBufLen` of the main loop's next `Recv`. -/
def Serving.asks : Serving → Option Int32
  | .recvLength => some 4
  | .recvText nLen => bufLen nLen
  | .task _ | .sendReply _ => none

/-- Both ends of a link, with the database. `executed` are the texts that tasks have passed to
`mysql_query`, with their outcomes, and `answered` the statements whose handlers have returned, with
what these have received.
-/
structure Conversation (Database : Type) where
  session : Session
  database : Database
  handler : Handler
  serving : Serving
  executed : List (List Byte × Outcome)
  answered : List (Statement × List (List Byte))

namespace Conversation

variable {Database : Type}

/-- `net` moves the datagrams and writes what comes in turn, and `others` changes the database for
the other clients.
-/
inductive Event (Database : Type)
  | net (event : Session.Event)
  | sendLength (statement : Statement)
  | sendText
  | handlerCall
  | handlerSize
  | handlerRead
  | handlerReturn
  | serverCall
  | serverSize
  | serverRead
  | execute
  | sendReply
  | unSelect
  | others (database : Database)

def start (link : Link) (database : Database) : Conversation Database where
  session := .start link
  database := database
  handler := .returned
  serving := .recvLength
  executed := []
  answered := []

variable (mysql : Database → List Byte → Outcome × Database)

/-- Threads and network: `SendThreadProc`, `RecvThreadProc` and the datagrams between them. -/
def net (conversation : Conversation Database) (event : Session.Event)
    : Option (Conversation Database) :=
  match event with
  | .link (.transmit _ _ _) | .link (.arrive _) | .link (.lose _) | .write _ | .stream _ .push =>
      (conversation.session.step event).map (fun session => { conversation with session })
  | .link (.connect _) | .link (.send _ _) | .link (.recv _ _) | .stream _ (.call _)
  | .stream _ .getSize | .stream _ .read | .stream _ (.write _) => none

/-- A handler calls `SendSql`, which sends the length of its text. -/
def sendLength (conversation : Conversation Database) (statement : Statement)
    : Option (Conversation Database) :=
  match conversation.handler with
  | .returned =>
      (conversation.session.step
          (.link (.send .client (intBytes (lengthOf (requestBody statement.sql)))))).map
        (fun session => { conversation with session, handler := .sendText statement })
  | .sendText _ | .recvReply _ _ => none

def sendText (conversation : Conversation Database) : Option (Conversation Database) :=
  match conversation.handler with
  | .sendText statement =>
      (conversation.session.step (.link (.send .client (requestBody statement.sql)))).map
        (fun session => { conversation with session, handler := .recvReply statement [] })
  | .returned | .recvReply _ _ => none

/-- The handler calls its next `Recv`. -/
def handlerCall (conversation : Conversation Database) : Option (Conversation Database) := do
  let nBufLen ← conversation.handler.asks
  let session ← conversation.session.step (.stream .client (.call nBufLen))
  return { conversation with session }

/-- The handler's `Recv` looks at the size of the stream. -/
def handlerSize (conversation : Conversation Database) : Option (Conversation Database) :=
  (conversation.session.step (.stream .client .getSize)).map
    (fun session => { conversation with session })

/-- The handler's `Recv` stores what it has read, and returns. -/
def handlerRead (conversation : Conversation Database) : Option (Conversation Database) :=
  match conversation.handler with
  | .recvReply statement got => do
      let session ← conversation.session.step (.stream .client .read)
      let data ← (session.taken .client).getLast?
      return { conversation with session, handler := .recvReply statement (got ++ [data]) }
  | .returned | .sendText _ => none

/-- A handler that has nothing more to receive returns. -/
def handlerReturn (conversation : Conversation Database) : Option (Conversation Database) :=
  match conversation.handler with
  | .recvReply statement got =>
      match statement.asks got with
      | none =>
          some
            {
              conversation with
              handler := .returned
              answered := conversation.answered ++ [(statement, got)]
            }
      | some _ => none
  | .returned | .sendText _ => none

/-- The main loop calls its next `Recv`. -/
def serverCall (conversation : Conversation Database) : Option (Conversation Database) := do
  let nBufLen ← conversation.serving.asks
  let session ← conversation.session.step (.stream .server (.call nBufLen))
  return { conversation with session }

/-- The main loop's `Recv` looks at the size of the stream. -/
def serverSize (conversation : Conversation Database) : Option (Conversation Database) :=
  (conversation.session.step (.stream .server .getSize)).map
    (fun session => { conversation with session })

/-- The main loop's `Recv` stores what it has read; after the second one it adds a task. -/
def serverRead (conversation : Conversation Database) : Option (Conversation Database) :=
  match conversation.serving with
  | .recvLength => do
      let session ← conversation.session.step (.stream .server .read)
      let data ← (session.taken .server).getLast?
      return { conversation with session, serving := .recvText (overwrite 0 data) }
  | .recvText _ => do
      let session ← conversation.session.step (.stream .server .read)
      let data ← (session.taken .server).getLast?
      return { conversation with session, serving := .task (taskSql data) }
  | .task _ | .sendReply _ => none

/-- `Execute` passes the text to the database. What it would send for a result set that does not fit
its buffer, or has a NULL cell, is undefined.
-/
def executeTask (conversation : Conversation Database) : Option (Conversation Database) :=
  match conversation.serving with
  | .task sql =>
      let (outcome, database) := mysql conversation.database sql
      (execute outcome).map
        fun sends =>
          {
            conversation with
            database := database
            serving := .sendReply sends
            executed := conversation.executed ++ [(sql, outcome)]
          }
  | .recvLength | .recvText _ | .sendReply _ => none

/-- `Execute` sends the next buffer of the reply. -/
def sendReply (conversation : Conversation Database) : Option (Conversation Database) :=
  match conversation.serving with
  | .sendReply (block :: rest) =>
      (conversation.session.step (.link (.send .server block))).map
        (fun session => { conversation with session, serving := .sendReply rest })
  | .recvLength | .recvText _ | .task _ | .sendReply [] => none

def unSelect (conversation : Conversation Database) : Option (Conversation Database) :=
  match conversation.serving with
  | .sendReply [] => some { conversation with serving := .recvLength }
  | .recvLength | .recvText _ | .task _ | .sendReply (_ :: _) => none

def step (conversation : Conversation Database) : Event Database → Option (Conversation Database)
  | .net event => conversation.net event
  | .sendLength statement => conversation.sendLength statement
  | .sendText => conversation.sendText
  | .handlerCall => conversation.handlerCall
  | .handlerSize => conversation.handlerSize
  | .handlerRead => conversation.handlerRead
  | .handlerReturn => conversation.handlerReturn
  | .serverCall => conversation.serverCall
  | .serverSize => conversation.serverSize
  | .serverRead => conversation.serverRead
  | .execute => conversation.executeTask mysql
  | .sendReply => conversation.sendReply
  | .unSelect => conversation.unSelect
  | .others database => some { conversation with database }

end Conversation

-----------------------------------------------------------------------------------------
-- Requests and replies
-----------------------------------------------------------------------------------------

/-- The buffers of a reply that a handler receives: an empty one is not sent. -/
def Outcome.buffers (outcome : Outcome) : List (List Byte) :=
  ((execute outcome).getD []).filter (fun block => !block.isEmpty)

/-- A text without a zero byte that fits the buffer of `CServer` with its terminator. -/
def Statement.Fits (statement : Statement) : Prop :=
  statement.sql.length + 1 ≤ 0x1000 ∧ 0 ∉ statement.sql

/-- An outcome of the shape that a handler expects, with at least one column if it is a result set.
-/
def Outcome.Suits (showsList : Bool) : Outcome → Prop
  | .failed | .done _ => showsList = false
  | .resultSet names _ => showsList = true ∧ names ≠ []

instance (statement : Statement) : Decidable statement.Fits :=
  inferInstanceAs (Decidable (_ ∧ _))

instance decidableSuits (showsList : Bool)
    : ∀ outcome : Outcome, Decidable (outcome.Suits showsList)
  | .failed | .done _ => inferInstanceAs (Decidable (showsList = false))
  | .resultSet _ _ => inferInstanceAs (Decidable (_ ∧ _))

/-- The request of a text as `SendSql` sends it. -/
def request (sql : List Byte) : List Byte := frame (requestBody sql)

theorem request_eq (sql : List Byte)
    : request sql = intBytes (lengthOf (requestBody sql)) ++ requestBody sql := rfl

theorem intBytes_ne_nil (n : Int32) : intBytes n ≠ [] :=
  List.ne_nil_of_length_pos (by rw [intBytes_length]; decide)

theorem intBytes_injective {n other : Int32} (same : intBytes n = intBytes other) : n = other := by
  rw [← overwrite_intBytes 0 n, same, overwrite_intBytes]

theorem request_ne_nil (sql : List Byte) : request sql ≠ [] :=
  List.append_ne_nil_of_left_ne_nil (intBytes_ne_nil _) _

theorem Statement.Fits.body {statement : Statement} (fits : statement.Fits)
    : Allowed (requestBody statement.sql) := by
  have short := fits.1
  constructor <;> rw [requestBody_length] <;> omega

/-- A text is known from the length and the body that begin a request. -/
theorem sql_of_request {statement : Statement} {sql more : List Byte} (fits : statement.Fits)
    (length
      : intBytes (lengthOf (requestBody sql)) = intBytes (lengthOf (requestBody statement.sql)))
    (text : requestBody sql ++ more = requestBody statement.sql)
    : sql = statement.sql := by
  have sizes := congrArg List.length text
  rw [List.length_append] at sizes
  have within : (requestBody sql).length ≤ 0x1000 := by
    have := fits.body.2
    omega
  have lengths := congrArg Int32.toInt (intBytes_injective length)
  rw [lengthOf_toInt within, lengthOf_toInt fits.body.2] at lengths
  obtain ⟨whole, _⟩ := List.append_inj (text.trans (List.append_nil _).symm) (by omega)
  exact List.append_cancel_right whole

/-- What a reply puts into the stream. -/
theorem buffers_flatten {outcome : Outcome} {sends : List (List Byte)}
    (sent : execute outcome = some sends)
    : outcome.buffers.flatten = sends.flatten := by
  rw [Outcome.buffers, sent, Option.getD_some, List.flatten_filter_not_isEmpty]

theorem buffers_int {outcome : Outcome} (suits : outcome.Suits false)
    : outcome.buffers = [intBytes outcome.nRet] := by
  cases outcome with
  | failed | done => simp [Outcome.buffers, execute, intBytes_ne_nil]
  | resultSet =>
      have impossible := suits.1
      cases impossible

theorem flatMap_cString_ne_nil_of {texts : List (List Byte)} (some : texts ≠ [])
    : texts.flatMap cString ≠ [] := by
  obtain ⟨head, rest, rfl⟩ := List.exists_cons_of_ne_nil some
  simp [cString]

/-- The reply of a result set: the header with its length, the length of the rows, and the rows
if there are any.
-/
theorem buffers_blocks {outcome : Outcome} {sends : List (List Byte)}
    (suits : outcome.Suits true) (sent : execute outcome = some sends)
    : ∃ header data : List Byte,
        header ≠ []
        ∧ header.length ≤ 0x1000
        ∧ data.length ≤ 0x1000
        ∧ outcome.buffers
          = [intBytes (lengthOf header), header, intBytes (lengthOf data)]
            ++ [data].filter (fun block => !block.isEmpty) := by
  cases outcome with
  | failed | done => cases suits
  | resultSet names rows =>
      obtain ⟨headerFits, values, found, dataFits, rfl⟩ := sendResByteAry_eq_some.mp sent
      have header := flatMap_cString_ne_nil_of suits.2
      refine ⟨_, _, header, headerFits, dataFits, ?_⟩
      rw [Outcome.buffers, sent, Option.getD_some]
      simp [List.filter_cons, intBytes_ne_nil, header]

theorem bufLen_lengthOf {block : List Byte} (fits : block.length ≤ 0x1000)
    : bufLen (lengthOf block) = some (lengthOf block) := by
  have length := lengthOf_toInt fits
  rw [bufLen, length, if_pos (by omega)]

theorem bufLen_eq_some {nLen nBufLen : Int32} (sized : bufLen nLen = some nBufLen)
    : nBufLen = nLen :=
  (Option.some.inj (Option.ite_none_right_eq_some.mp sized).2).symm

/-- A handler asks for each buffer of its reply in turn, and returns after the last one. -/
theorem asks_next {statement : Statement} {outcome : Outcome} {sends got : List (List Byte)}
    (suits : outcome.Suits statement.showsList) (sent : execute outcome = some sends)
    (begun : got <+: outcome.buffers)
    : (∃ data nLen,
        outcome.buffers[got.length]? = some data
        ∧ (Handler.recvReply statement got).asks = some nLen
        ∧ nLen.toInt = data.length)
      ∨ (got = outcome.buffers ∧ statement.asks got = none) := by
  have four (n : Int32) : (4 : Int32).toInt = (intBytes n).length := by
    rw [intBytes_length]
    rfl
  cases shows : statement.showsList with
  | false =>
      rw [shows] at suits
      rw [buffers_int suits] at begun ⊢
      rcases List.prefix_cons_iff.mp begun with rfl | ⟨more, rfl, none⟩
      · exact Or.inl ⟨_, 4, rfl, by simp [Handler.asks, Statement.asks, bufLen], four _⟩
      · obtain rfl := List.prefix_nil.mp none
        exact Or.inr ⟨rfl, by simp [Statement.asks, shows]⟩
  | true =>
      rw [shows] at suits
      obtain ⟨header, data, some, headerFits, dataFits, buffers⟩ := buffers_blocks suits sent
      rw [buffers] at begun ⊢
      rcases List.prefix_cons_iff.mp begun with rfl | ⟨more, rfl, second⟩
      · exact Or.inl ⟨_, 4, rfl, by simp [Handler.asks, Statement.asks, bufLen], four _⟩
      rcases List.prefix_cons_iff.mp second with rfl | ⟨more, rfl, third⟩
      · refine Or.inl ⟨_, lengthOf header, rfl, ?_, lengthOf_toInt headerFits⟩
        simp [Handler.asks, Statement.asks, shows, overwrite_intBytes, bufLen_lengthOf headerFits]
      rcases List.prefix_cons_iff.mp third with rfl | ⟨more, rfl, fourth⟩
      · exact Or.inl ⟨_, 4, rfl, by simp [Handler.asks, Statement.asks, shows, bufLen], four _⟩
      cases data with
      | nil =>
          obtain rfl := List.prefix_nil.mp fourth
          exact Or.inr ⟨rfl, by simp [Statement.asks, shows, overwrite_intBytes, lengthOf]⟩
      | cons byte rest =>
          have notZero := lengthOf_ne_zero dataFits (List.cons_ne_nil byte rest)
          rcases List.prefix_cons_iff.mp fourth with rfl | ⟨more, rfl, none⟩
          · refine Or.inl ⟨_, lengthOf (byte :: rest), rfl, ?_, lengthOf_toInt dataFits⟩
            simp [Handler.asks, Statement.asks, shows, overwrite_intBytes, notZero,
              bufLen_lengthOf dataFits]
          · obtain rfl := List.prefix_nil.mp none
            exact Or.inr ⟨rfl, by simp [Statement.asks, shows]⟩

-----------------------------------------------------------------------------------------
-- Calls of `Recv` that find all that they ask for
-----------------------------------------------------------------------------------------

/-- The call in progress is the one that is due, and the size that it has sampled covers all that it
asks for.
-/
def Whole (asks : Option Int32) : RecvCall → Prop
  | .none => True
  | .waiting nBufLen => asks = some nBufLen
  | .sized nBufLen nReadLen => asks = some nBufLen ∧ nReadLen = nBufLen

theorem Whole.free {recv : RecvCall} (whole : Whole none recv) : recv = .none := by
  cases recv with
  | none => rfl
  | waiting nBufLen => cases whole
  | sized nBufLen nReadLen => cases whole.1

theorem Whole.step {use next : StreamUse} {event : StreamUse.Event} {asks : Option Int32}
    (whole : Whole asks use.recv) (moved : StreamUse.Move use event next)
    (called : ∀ nBufLen, event = .call nBufLen → asks = some nBufLen)
    (ample : event = .getSize → use.Ample)
    : Whole asks next.recv := by
  cases moved with
  | call nBufLen => exact called nBufLen rfl
  | sleep | write | push => exact whole
  | size nBufLen waiting some =>
      rw [waiting] at whole
      exact ⟨whole, readLen_getSize (ample rfl nBufLen waiting some)⟩
  | read => trivial

namespace Session

variable {session next : Session} {event : Event} {side : Side}

/-- A step that is no `Send` and none of a reader. -/
structure Still (session next : Session) : Prop where
  passed : next.link.passed = session.link.passed
  taken : next.taken = session.taken
  recv : ∀ side, (next.use side).recv = (session.use side).recv

theorem still_of_link {event : Link.Event} (unsent : ∀ side buf, event ≠ .send side buf)
    (stepped : session.step (.link event) = some next)
    : Still session next := by
  have passed {link : Link} (moved : session.link.step event = some link)
      : link.passed = session.link.passed := by
    cases event with
    | connect clock => cases stepped
    | recv side nBufLen => cases stepped
    | send side buf => exact absurd rfl (unsent side buf)
    | transmit side index clock => exact (Link.transmits_of_transmit moved).history.2.1
    | lose datagram =>
        obtain ⟨_, rfl⟩ := Link.step_lose.mp moved
        rfl
    | arrive datagram =>
        obtain ⟨_, arrived⟩ := Link.step_arrive.mp moved
        rcases Link.arrive_cases arrived with ⟨_, rfl⟩ | ⟨_, _, rfl⟩
        · rfl
        · cases datagram.packet <;> rfl
  cases step_move stepped with
  | link _ link _ _ moved => exact ⟨passed moved, rfl, fun _ => rfl⟩
  | arrive datagram link _ moved => exact ⟨passed moved, rfl, fun _ => rfl⟩

theorem step_stream {event : StreamUse.Event}
    (stepped : session.step (.stream side event) = some next)
    : ∃ use,
        StreamUse.Move (session.use side) event use
        ∧ next = { session with use := Function.update session.use side use } := by
  cases step_move stepped with
  | stream _ _ use _ moved => exact ⟨use, moved, rfl⟩

theorem taken_update {use : StreamUse} (queued : Side → List (List Byte))
    (returned : use.returned = (session.use side).returned)
    : (⟨session.link, Function.update session.use side use, queued⟩ : Session).taken
      = session.taken := by
  funext other
  rcases eq_or_ne other side with rfl | different
  · simp [taken, returned]
  · simp [taken, different]

theorem still_update {use : StreamUse} (queued : Side → List (List Byte))
    (returned : use.returned = (session.use side).returned)
    (recv : use.recv = (session.use side).recv)
    : Still session ⟨session.link, Function.update session.use side use, queued⟩ where
  passed := rfl
  taken := taken_update queued returned
  recv other := by
    rcases eq_or_ne other side with rfl | different
    · simp [recv]
    · simp [different]

theorem still_of_write (stepped : session.step (.write side) = some next)
    : Still session next := by
  cases step_move stepped with
  | write _ data rest use front moved =>
      cases moved with
      | write => exact still_update _ rfl rfl

theorem still_of_push (stepped : session.step (.stream side .push) = some next)
    : Still session next := by
  obtain ⟨use, moved, rfl⟩ := step_stream stepped
  cases moved with
  | push => exact still_update _ rfl rfl

theorem step_send {buf : List Byte} (stepped : session.step (.link (.send side buf)) = some next)
    : next.link.passed
        = Function.update session.link.passed side (session.link.passed side ++ buf)
      ∧ next.use = session.use := by
  obtain ⟨link, moved, rfl⟩ := Option.map_eq_some_iff.mp stepped
  obtain ⟨_, rfl⟩ := Link.step_send.mp moved
  exact ⟨rfl, rfl⟩

end Session

-----------------------------------------------------------------------------------------
-- Handlers and tasks in turn
-----------------------------------------------------------------------------------------

/-- What a handler has sent of its request. -/
def Handler.sent : Handler → List Byte
  | .returned => []
  | .sendText statement => intBytes (lengthOf (requestBody statement.sql))
  | .recvReply statement _ => request statement.sql

/-- What a handler has received of its reply. -/
def Handler.got : Handler → List (List Byte)
  | .returned | .sendText _ => []
  | .recvReply _ got => got

def Handler.statement : Handler → Option Statement
  | .returned => none
  | .sendText statement | .recvReply statement _ => some statement

/-- What the server has read of a request that it has not executed. -/
def Serving.taken : Serving → List Byte
  | .recvLength | .sendReply _ => []
  | .recvText nLen => intBytes nLen
  | .task sql => request sql

/-- The buffers of a reply that are still to be sent. -/
def Serving.rest : Serving → List (List Byte)
  | .recvLength | .recvText _ | .task _ => []
  | .sendReply rest => rest

theorem Handler.sent_prefix {handler : Handler} {statement : Statement}
    (asking : handler.statement = some statement)
    : handler.sent <+: request statement.sql := by
  cases handler with
  | returned => cases asking
  | sendText other =>
      obtain rfl := Option.some.inj asking
      exact List.prefix_append _ _
  | recvReply other got =>
      obtain rfl := Option.some.inj asking
      exact List.prefix_rfl

namespace Conversation

variable {Database : Type}

/-- The `nBufLen` of the next `Recv` of a side. -/
def asks (conversation : Conversation Database) : Side → Option Int32
  | .client => conversation.handler.asks
  | .server => conversation.serving.asks

/-- A handler has received the whole reply to its own text, and nothing else. -/
structure Answers (answer : Statement × List (List Byte)) (task : List Byte × Outcome) : Prop where
  sql : answer.1.sql = task.1
  got : answer.2 = task.2.buffers
  suits : task.2.Suits answer.1.showsList

/-- Every executed text is that of a handler which has returned with the reply, but for the last
one, whose handler may still receive.
-/
inductive Turn (handler : Handler) (answered : List (Statement × List (List Byte)))
    (executed : List (List Byte × Outcome))
    : Prop
  | even (all : List.Forall₂ Answers answered executed) (none : handler.got = [])
  | ahead (statement : Statement) (got : List (List Byte)) (outcome : Outcome)
      (sends : List (List Byte)) (matched : List (List Byte × Outcome))
      (last : executed = matched ++ [(statement.sql, outcome)])
      (all : List.Forall₂ Answers answered matched)
      (position : handler = .recvReply statement got)
      (suits : outcome.Suits statement.showsList) (sent : execute outcome = some sends)
      (begun : got <+: outcome.buffers)

/-- The bytes in both directions are those of the requests and replies, in turn. -/
structure InTurn (base : Side → Int) (conversation : Conversation Database) : Prop where
  joined : conversation.session.Joined base
  asked
    : conversation.session.link.passed .client
      = conversation.answered.flatMap (fun answer => request answer.1.sql)
        ++ conversation.handler.sent
  read
    : (conversation.session.taken .server).flatten
      = conversation.executed.flatMap (fun task => request task.1) ++ conversation.serving.taken
  replied
    : conversation.session.link.passed .server ++ conversation.serving.rest.flatten
      = conversation.executed.flatMap (fun task => task.2.buffers.flatten)
  got
    : (conversation.session.taken .client).flatten
      = conversation.answered.flatMap (fun answer => answer.2.flatten)
        ++ conversation.handler.got.flatten
  turn : Turn conversation.handler conversation.answered conversation.executed
  fits : ∀ statement, conversation.handler.statement = some statement → statement.Fits
  recv : ∀ side, Whole (conversation.asks side) (conversation.session.use side).recv

variable {base : Side → Int} {conversation next : Conversation Database}

theorem answers_bytes {answered : List (Statement × List (List Byte))}
    {executed : List (List Byte × Outcome)} (all : List.Forall₂ Answers answered executed)
    : executed.flatMap (fun task => request task.1)
        = answered.flatMap (fun answer => request answer.1.sql)
      ∧ executed.flatMap (fun task => task.2.buffers.flatten)
        = answered.flatMap (fun answer => answer.2.flatten) := by
  induction all with
  | nil => exact ⟨rfl, rfl⟩
  | cons answers _ ih =>
      simp only [List.flatMap_cons, ih.1, ih.2, answers.sql, answers.got, and_self]

/-- What the server has read and not executed belongs to the handler that goes on. -/
theorem InTurn.server_next (inTurn : InTurn base conversation) {data : List Byte}
    (begun
      : (conversation.session.taken .server).flatten ++ data
        <+: conversation.session.link.passed .client)
    (some : conversation.serving.taken ++ data ≠ [])
    : ∃ statement,
        conversation.handler.statement = Option.some statement
        ∧ List.Forall₂ Answers conversation.answered conversation.executed
        ∧ conversation.handler.got = []
        ∧ conversation.serving.taken ++ data <+: conversation.handler.sent := by
  rw [inTurn.read, inTurn.asked, List.append_assoc] at begun
  cases inTurn.turn with
  | even all none =>
      rw [(answers_bytes all).1] at begun
      have within := (List.prefix_append_right_inj _).mp begun
      cases handler : conversation.handler with
      | returned =>
          rw [handler] at within
          exact absurd (List.prefix_nil.mp within) some
      | sendText statement => exact ⟨statement, rfl, all, rfl, handler ▸ within⟩
      | recvReply statement got => exact ⟨statement, rfl, all, handler ▸ none, handler ▸ within⟩
  | ahead statement got outcome sends matched last all position =>
      rw [last, List.flatMap_append, (answers_bytes all).1, position, List.append_assoc] at begun
      have within : request statement.sql ++ (conversation.serving.taken ++ data)
          <+: request statement.sql ++ [] := by
        simpa [Handler.sent] using (List.prefix_append_right_inj _).mp begun
      exact absurd (List.prefix_nil.mp ((List.prefix_append_right_inj _).mp within)) some

/-- A handler receives the reply of the last task only. -/
theorem InTurn.handler_next (inTurn : InTurn base conversation) {data : List Byte}
    {statement : Statement} {got : List (List Byte)} {nBufLen : Int32}
    (position : conversation.handler = .recvReply statement got)
    (begun
      : (conversation.session.taken .client).flatten ++ data
        <+: conversation.session.link.passed .server)
    (asks : conversation.handler.asks = some nBufLen)
    (size : (data.length : Int) = nBufLen.toInt)
    : ∃ outcome sends matched,
        conversation.executed = matched ++ [(statement.sql, outcome)]
        ∧ List.Forall₂ Answers conversation.answered matched
        ∧ outcome.Suits statement.showsList
        ∧ execute outcome = some sends
        ∧ got ++ [data] <+: outcome.buffers := by
  have whole := begun.trans (List.prefix_append _ conversation.serving.rest.flatten)
  rw [inTurn.replied, inTurn.got, List.append_assoc] at whole
  cases inTurn.turn with
  | even all none =>
      rw [(answers_bytes all).2, none] at whole
      have within : data <+: [] := by
        simpa using (List.prefix_append_right_inj _).mp
          (whole.trans (List.prefix_append _ []))
      rw [position] at none asks
      rw [show got = [] from none] at asks
      obtain rfl : 4 = nBufLen := by simpa [Handler.asks, Statement.asks, bufLen] using asks
      rw [List.prefix_nil.mp within] at size
      cases size
  | ahead other more outcome sends matched last all handler suits sent started =>
      obtain ⟨rfl, rfl⟩ := Handler.recvReply.inj (handler.symm.trans position)
      refine ⟨outcome, sends, matched, last, all, suits, sent, ?_⟩
      rw [last, List.flatMap_append, (answers_bytes all).2, position] at whole
      have within : more.flatten ++ data <+: outcome.buffers.flatten := by
        simpa [Handler.got] using (List.prefix_append_right_inj _).mp whole
      rcases asks_next suits sent started with ⟨item, nLen, found, asked, length⟩ | ⟨_, none⟩
      · rw [position, asked] at asks
        obtain rfl := Option.some.inj asks
        obtain rfl := Session.eq_next started found within (by omega)
        exact Session.prefix_snoc started found
      · rw [position, Handler.asks, none] at asks
        cases asks

-----------------------------------------------------------------------------------------
-- What each step keeps
-----------------------------------------------------------------------------------------

/-- A step that neither sends nor reads changes nothing that is in turn. -/
theorem InTurn.moves (inTurn : InTurn base conversation) {session : Session}
    (joined : session.Joined base)
    (passed : session.link.passed = conversation.session.link.passed)
    (taken : session.taken = conversation.session.taken)
    (recv : ∀ side, Whole (conversation.asks side) (session.use side).recv)
    : InTurn base { conversation with session } where
  joined := joined
  asked := passed ▸ inTurn.asked
  read := taken ▸ inTurn.read
  replied := passed ▸ inTurn.replied
  got := taken ▸ inTurn.got
  turn := inTurn.turn
  fits := inTurn.fits
  recv := recv

theorem InTurn.still (inTurn : InTurn base conversation) {session : Session}
    {event : Session.Event} (stepped : conversation.session.step event = some session)
    (still : conversation.session.Still session)
    : InTurn base { conversation with session } :=
  inTurn.moves (inTurn.joined.step stepped) still.passed still.taken
    (fun side => still.recv side ▸ inTurn.recv side)

theorem InTurn.net (inTurn : InTurn base conversation) {event : Session.Event}
    (moved : conversation.net event = some next)
    : InTurn base next := by
  cases event with
  | link event =>
      cases event with
      | connect | send | recv => cases moved
      | transmit | arrive | lose =>
          obtain ⟨session, stepped, rfl⟩ := Option.map_eq_some_iff.mp moved
          refine inTurn.still stepped (Session.still_of_link ?_ stepped)
          intro side buf send
          cases send
  | write side =>
      obtain ⟨session, stepped, rfl⟩ := Option.map_eq_some_iff.mp moved
      exact inTurn.still stepped (Session.still_of_write stepped)
  | stream side event =>
      cases event with
      | call | getSize | read | write => cases moved
      | push =>
          obtain ⟨session, stepped, rfl⟩ := Option.map_eq_some_iff.mp moved
          exact inTurn.still stepped (Session.still_of_push stepped)

/-- A call of `Recv`, or its look at the size. -/
theorem InTurn.receives (inTurn : InTurn base conversation) {session : Session} {side : Side}
    {event : StreamUse.Event}
    (stepped : conversation.session.step (.stream side event) = some session)
    (unread : event ≠ .read)
    (called : ∀ nBufLen, event = .call nBufLen → conversation.asks side = some nBufLen)
    (ample : event = .getSize → (conversation.session.use side).Ample)
    : InTurn base { conversation with session } := by
  have joined := inTurn.joined.step stepped
  obtain ⟨use, moved, rfl⟩ := Session.step_stream stepped
  have returned : use.returned = (conversation.session.use side).returned := by
    cases moved with
    | read => exact absurd rfl unread
    | call | sleep | size | write | push => rfl
  refine inTurn.moves joined rfl (Session.taken_update _ returned) (fun other => ?_)
  rcases eq_or_ne other side with rfl | different
  · simp only [Function.update_self]
    exact (inTurn.recv other).step moved called ample
  · simp only [Function.update_of_ne different]
    exact inTurn.recv other

theorem InTurn.handlerCall (inTurn : InTurn base conversation)
    (called : conversation.handlerCall = some next)
    : InTurn base next := by
  obtain ⟨nBufLen, asks, rest⟩ := Option.bind_eq_some_iff.mp called
  obtain ⟨session, stepped, moved⟩ := Option.bind_eq_some_iff.mp rest
  obtain rfl := Option.some.inj moved
  refine inTurn.receives stepped nofun ?_ nofun
  rintro _ ⟨⟩
  exact asks

theorem InTurn.serverCall (inTurn : InTurn base conversation)
    (called : conversation.serverCall = some next)
    : InTurn base next := by
  obtain ⟨nBufLen, asks, rest⟩ := Option.bind_eq_some_iff.mp called
  obtain ⟨session, stepped, moved⟩ := Option.bind_eq_some_iff.mp rest
  obtain rfl := Option.some.inj moved
  refine inTurn.receives stepped nofun ?_ nofun
  rintro _ ⟨⟩
  exact asks

/-- The handler goes on in `SendSql`. -/
theorem InTurn.sends (inTurn : InTurn base conversation) {session : Session} {handler : Handler}
    {buf : List Byte}
    (stepped : conversation.session.step (.link (.send .client buf)) = some session)
    (sent : handler.sent = conversation.handler.sent ++ buf)
    (none : conversation.handler.got = [] ∧ handler.got = [])
    (even : ∀ statement got, conversation.handler ≠ .recvReply statement got)
    (fits : ∀ statement, handler.statement = some statement → statement.Fits)
    : InTurn base { conversation with session, handler } := by
  obtain ⟨passed, use⟩ := Session.step_send stepped
  have taken : session.taken = conversation.session.taken := by
    funext side
    rw [Session.taken, use]
    rfl
  have idle : conversation.asks .client = Option.none := by
    cases position : conversation.handler with
    | returned | sendText => rw [asks, position]; rfl
    | recvReply statement got => exact absurd position (even statement got)
  constructor
  · exact inTurn.joined.step stepped
  · simp only [passed, Function.update_self, sent, inTurn.asked, List.append_assoc]
  · exact taken ▸ inTurn.read
  · have replied := inTurn.replied
    simpa [passed] using replied
  · rw [none.2]
    have got := inTurn.got
    rw [none.1] at got
    exact taken ▸ got
  · cases inTurn.turn with
    | even all _ => exact .even all none.2
    | ahead statement got _ _ _ _ _ position => exact absurd position (even statement got)
  · exact fits
  · intro side
    rw [use]
    cases side with
    | server => exact inTurn.recv .server
    | client =>
        have free := inTurn.recv .client
        rw [idle] at free
        rw [free.free]
        trivial

theorem InTurn.sendLength (inTurn : InTurn base conversation) {statement : Statement}
    (fits : statement.Fits) (sent : conversation.sendLength statement = some next)
    : InTurn base next := by
  cases position : conversation.handler with
  | sendText | recvReply => simp [Conversation.sendLength, position] at sent
  | returned =>
      simp only [Conversation.sendLength, position] at sent
      obtain ⟨session, stepped, rfl⟩ := Option.map_eq_some_iff.mp sent
      refine inTurn.sends stepped ?_ ?_ ?_ ?_
      · rw [position]
        rfl
      · rw [position]
        exact ⟨rfl, rfl⟩
      · rw [position]
        exact nofun
      · rintro other ⟨⟩
        exact fits

theorem InTurn.sendText (inTurn : InTurn base conversation)
    (sent : conversation.sendText = some next)
    : InTurn base next := by
  cases position : conversation.handler with
  | returned | recvReply => simp [Conversation.sendText, position] at sent
  | sendText statement =>
      simp only [Conversation.sendText, position] at sent
      obtain ⟨session, stepped, rfl⟩ := Option.map_eq_some_iff.mp sent
      refine inTurn.sends stepped ?_ ?_ ?_ ?_
      · rw [position]
        rfl
      · rw [position]
        exact ⟨rfl, rfl⟩
      · rw [position]
        exact nofun
      · rintro other ⟨⟩
        exact inTurn.fits statement (by rw [position]; rfl)

/-- A `Read` takes as many bytes as were asked for, and they were sent next. -/
structure Took (base : Side → Int) (conversation : Conversation Database) (side : Side)
    (data : List Byte) (session : Session) : Prop where
  joined : session.Joined base
  link : session.link = conversation.session.link
  taken
    : session.taken
      = Function.update conversation.session.taken side (conversation.session.taken side ++ [data])
  recv
    : ∀ other,
        (session.use other).recv
        = if other = side then .none else (conversation.session.use other).recv
  asked
    : ∃ nBufLen, conversation.asks side = some nBufLen ∧ (data.length : Int) = nBufLen.toInt

theorem InTurn.took (inTurn : InTurn base conversation) {session : Session} {side : Side}
    {data : List Byte} (stepped : conversation.session.step (.stream side .read) = some session)
    (last : (session.taken side).getLast? = some data)
    : Took base conversation side data session := by
  have joined := inTurn.joined.step stepped
  obtain ⟨use, moved, rfl⟩ := Session.step_stream stepped
  cases moved with
  | read nBufLen nReadLen bytes stream sized free taken =>
      have whole := inTurn.recv side
      rw [sized] at whole
      obtain ⟨asks, rfl⟩ := whole
      obtain rfl : bytes = data := by simpa [Session.taken] using last
      refine ⟨joined, rfl, ?_, ?_, nReadLen, asks, (CByteStream.read_eq_some taken).2⟩
      · funext other
        rcases eq_or_ne other side with rfl | different
        · simp [Session.taken]
        · simp [Session.taken, different]
      · intro other
        rcases eq_or_ne other side with rfl | different
        · simp
        · simp [different]

theorem Took.begun {side : Side} {data : List Byte} {session : Session}
    (took : Took base conversation side data session)
    : (conversation.session.taken side).flatten ++ data
      <+: conversation.session.link.passed side.other := by
  have begun := took.joined.taken_prefix side
  rw [took.link, took.taken, Function.update_self, List.flatten_append, List.flatten_singleton]
    at begun
  exact begun

theorem InTurn.handlerRead (inTurn : InTurn base conversation)
    (read : conversation.handlerRead = some next)
    : InTurn base next := by
  cases position : conversation.handler with
  | returned | sendText => simp [Conversation.handlerRead, position] at read
  | recvReply statement got =>
      simp only [Conversation.handlerRead, position, Option.bind_eq_bind] at read
      obtain ⟨session, stepped, rest⟩ := Option.bind_eq_some_iff.mp read
      obtain ⟨data, last, moved⟩ := Option.bind_eq_some_iff.mp rest
      obtain rfl := Option.some.inj moved
      have took := inTurn.took stepped last
      obtain ⟨nBufLen, asks, size⟩ := took.asked
      obtain ⟨outcome, sends, matched, executed, all, suits, sent, begun⟩ :=
        inTurn.handler_next position took.begun asks size
      have asked := inTurn.asked
      have before := inTurn.got
      rw [position] at asked before
      constructor
      · exact took.joined
      · rw [took.link]
        exact asked
      · rw [took.taken, Function.update_of_ne (by decide)]
        exact inTurn.read
      · rw [took.link]
        exact inTurn.replied
      · rw [took.taken, Function.update_self, List.flatten_append, before]
        simp [Handler.got]
      · exact .ahead statement _ outcome sends matched executed all rfl suits sent begun
      · rintro other ⟨⟩
        exact inTurn.fits statement (by rw [position]; rfl)
      · intro side
        rw [took.recv side]
        cases side with
        | client => exact trivial
        | server => exact inTurn.recv .server

/-- A handler returns with the reply of the task that was executed for it. -/
theorem InTurn.handlerReturn (inTurn : InTurn base conversation)
    (returned : conversation.handlerReturn = some next)
    : InTurn base next := by
  cases position : conversation.handler with
  | returned | sendText => simp [Conversation.handlerReturn, position] at returned
  | recvReply statement got =>
      simp only [Conversation.handlerReturn, position] at returned
      cases asks : statement.asks got with
      | some => simp [asks] at returned
      | none =>
          simp only [asks, Option.some.injEq] at returned
          subst returned
          have asked := inTurn.asked
          have received := inTurn.got
          have recv := inTurn.recv
          rw [position] at asked received
          cases inTurn.turn with
          | even all none =>
              rw [position] at none
              rw [show got = [] from none] at asks
              simp [Statement.asks] at asks
          | ahead other more outcome sends matched last all handler suits sent begun =>
              obtain ⟨rfl, rfl⟩ := Handler.recvReply.inj (handler.symm.trans position)
              have whole : more = outcome.buffers := by
                rcases asks_next suits sent begun with ⟨_, _, _, going, _⟩ | ⟨whole, _⟩
                · rw [Handler.asks, asks] at going
                  cases going
                · exact whole
              constructor
              · exact inTurn.joined
              · simpa [Handler.sent] using asked
              · exact inTurn.read
              · exact inTurn.replied
              · simpa [Handler.got] using received
              · refine .even ?_ rfl
                rw [last]
                exact List.rel_append all (List.Forall₂.cons ⟨rfl, whole, suits⟩ .nil)
              · exact nofun
              · intro side
                cases side with
                | server => exact inTurn.recv .server
                | client =>
                    have free := inTurn.recv .client
                    rw [Conversation.asks, position, Handler.asks, asks] at free
                    exact free

/-- The main loop goes on with what it has read. -/
theorem InTurn.serverTook (inTurn : InTurn base conversation) {session : Session}
    {serving : Serving} {data : List Byte} (took : Took base conversation .server data session)
    (rest : serving.rest = [] ∧ conversation.serving.rest = [])
    (grown : serving.taken = conversation.serving.taken ++ data)
    : InTurn base { conversation with session, serving } := by
  have replied := inTurn.replied
  rw [rest.2] at replied
  constructor
  · exact took.joined
  · rw [took.link]
    exact inTurn.asked
  · rw [took.taken, Function.update_self, List.flatten_append, inTurn.read, grown]
    simp
  · rw [rest.1, took.link]
    exact replied
  · rw [took.taken, Function.update_of_ne (by decide)]
    exact inTurn.got
  · exact inTurn.turn
  · exact inTurn.fits
  · intro side
    rw [took.recv side]
    cases side with
    | client => exact inTurn.recv .client
    | server => exact trivial

/-- The first four bytes of a request are its length. -/
theorem InTurn.serverLength (inTurn : InTurn base conversation) {session : Session}
    {data : List Byte} (position : conversation.serving = .recvLength)
    (took : Took base conversation .server data session)
    : InTurn base { conversation with session, serving := .recvText (overwrite 0 data) } := by
  obtain ⟨nBufLen, asks, size⟩ := took.asked
  obtain rfl : 4 = nBufLen := by simpa [Conversation.asks, position, Serving.asks] using asks
  have four : data.length = 4 := by
    have asked : (data.length : Int) = 4 := size
    omega
  have some : conversation.serving.taken ++ data ≠ [] := by
    intro none
    rw [(List.append_eq_nil_iff.mp none).2] at four
    cases four
  obtain ⟨statement, asking, _, _, within⟩ := inTurn.server_next took.begun some
  have begun := within.trans (Handler.sent_prefix asking)
  rw [position] at begun
  obtain rfl : data = intBytes (lengthOf (requestBody statement.sql)) :=
    (List.prefix_of_prefix_length_le begun (List.prefix_append _ _)
      (by simp [Serving.taken, four, intBytes_length])).eq_of_length
      (by simp [four, intBytes_length, Serving.taken])
  refine inTurn.serverTook took ⟨rfl, by rw [position]; rfl⟩ ?_
  rw [position, Serving.taken, overwrite_intBytes]
  rfl

/-- As many bytes as the length says are the text. -/
theorem InTurn.serverText (inTurn : InTurn base conversation) {session : Session}
    {data : List Byte} {nLen : Int32} (position : conversation.serving = .recvText nLen)
    (took : Took base conversation .server data session)
    : InTurn base { conversation with session, serving := .task (taskSql data) } := by
  obtain ⟨nBufLen, asks, size⟩ := took.asked
  rw [Conversation.asks, position] at asks
  obtain rfl := bufLen_eq_some asks
  have some : conversation.serving.taken ++ data ≠ [] := by
    rw [position]
    exact List.append_ne_nil_of_left_ne_nil (intBytes_ne_nil _) _
  obtain ⟨statement, asking, _, _, within⟩ := inTurn.server_next took.begun some
  have fits := inTurn.fits statement asking
  have begun := within.trans (Handler.sent_prefix asking)
  rw [position, Serving.taken, request_eq] at begun
  obtain ⟨more, split⟩ := begun
  rw [List.append_assoc] at split
  obtain ⟨length, text⟩ := List.append_inj split (by rw [intBytes_length, intBytes_length])
  obtain rfl := intBytes_injective length
  rw [lengthOf_toInt fits.body.2] at size
  obtain ⟨rfl, _⟩ := List.append_inj (text.trans (List.append_nil _).symm) (by omega)
  refine inTurn.serverTook took ⟨rfl, by rw [position]; rfl⟩ ?_
  rw [position, taskSql_requestBody fits.2]
  rfl

/-- The main loop reads the request of the handler that goes on, first its length. -/
theorem InTurn.serverRead (inTurn : InTurn base conversation)
    (read : conversation.serverRead = some next)
    : InTurn base next := by
  cases position : conversation.serving with
  | task | sendReply => simp [Conversation.serverRead, position] at read
  | recvLength =>
      simp only [Conversation.serverRead, position, Option.bind_eq_bind] at read
      obtain ⟨session, stepped, rest⟩ := Option.bind_eq_some_iff.mp read
      obtain ⟨data, last, moved⟩ := Option.bind_eq_some_iff.mp rest
      obtain rfl := Option.some.inj moved
      exact inTurn.serverLength position (inTurn.took stepped last)
  | recvText nLen =>
      simp only [Conversation.serverRead, position, Option.bind_eq_bind] at read
      obtain ⟨session, stepped, rest⟩ := Option.bind_eq_some_iff.mp read
      obtain ⟨data, last, moved⟩ := Option.bind_eq_some_iff.mp rest
      obtain rfl := Option.some.inj moved
      exact inTurn.serverText position (inTurn.took stepped last)

variable {mysql : Database → List Byte → Outcome × Database}

/-- The task that is executed is the one of the handler that waits for its reply. -/
theorem InTurn.executeTask (inTurn : InTurn base conversation)
    (suits
      : ∀ statement got sql,
          conversation.handler = .recvReply statement got
          → conversation.serving = .task sql
          → (mysql conversation.database sql).1.Suits statement.showsList)
    (executed : conversation.executeTask mysql = some next)
    : InTurn base next := by
  cases position : conversation.serving with
  | recvLength | recvText | sendReply => simp [Conversation.executeTask, position] at executed
  | task sql =>
      simp only [Conversation.executeTask, position] at executed
      obtain ⟨sends, sent, rfl⟩ := Option.map_eq_some_iff.mp executed
      have begun := inTurn.joined.taken_prefix .server
      rw [← List.append_nil (conversation.session.taken .server).flatten] at begun
      have some : conversation.serving.taken ++ [] ≠ [] := by
        rw [position, List.append_nil]
        exact request_ne_nil sql
      obtain ⟨statement, asking, all, none, within⟩ := inTurn.server_next begun some
      have fits := inTurn.fits statement asking
      rw [position, List.append_nil, Serving.taken] at within
      obtain ⟨got, handler, same⟩ : ∃ got,
          conversation.handler = .recvReply statement got ∧ sql = statement.sql := by
        cases handler : conversation.handler with
        | returned =>
            rw [handler] at asking
            cases asking
        | sendText other =>
            rw [handler] at within
            have shorter := within.length_le
            simp [Handler.sent, request_eq, intBytes_length, requestBody_length] at shorter
        | recvReply other got =>
            rw [handler] at asking within
            obtain rfl := Option.some.inj asking
            refine ⟨got, rfl, ?_⟩
            obtain ⟨more, split⟩ := within
            simp only [Handler.sent, request_eq, List.append_assoc] at split
            obtain ⟨length, text⟩ :=
              List.append_inj split (by rw [intBytes_length, intBytes_length])
            exact sql_of_request fits length text
      subst same
      have read := inTurn.read
      have replied := inTurn.replied
      rw [position] at read replied
      constructor
      · exact inTurn.joined
      · exact inTurn.asked
      · simpa [Serving.taken] using read
      · simp only [Serving.rest, List.flatten_nil, List.append_nil] at replied
        simp [Serving.rest, replied, buffers_flatten sent]
      · exact inTurn.got
      · refine .ahead statement got _ sends _ rfl all handler
          (suits statement got _ handler position) sent ?_
        rw [handler] at none
        rw [show got = [] from none]
        exact List.nil_prefix
      · exact inTurn.fits
      · intro side
        cases side with
        | client => exact inTurn.recv .client
        | server =>
            have free := inTurn.recv .server
            rw [Conversation.asks, position] at free
            exact free

theorem InTurn.sendReply (inTurn : InTurn base conversation)
    (sent : conversation.sendReply = some next)
    : InTurn base next := by
  cases position : conversation.serving with
  | recvLength | recvText | task => simp [Conversation.sendReply, position] at sent
  | sendReply sends =>
      cases sends with
      | nil => simp [Conversation.sendReply, position] at sent
      | cons block rest =>
          simp only [Conversation.sendReply, position] at sent
          obtain ⟨session, stepped, rfl⟩ := Option.map_eq_some_iff.mp sent
          obtain ⟨passed, use⟩ := Session.step_send stepped
          have taken : session.taken = conversation.session.taken := by
            funext side
            rw [Session.taken, use]
            rfl
          have read := inTurn.read
          have replied := inTurn.replied
          rw [position] at read replied
          constructor
          · exact inTurn.joined.step stepped
          · have asked := inTurn.asked
            simpa [passed] using asked
          · exact taken ▸ read
          · rw [← replied]
            simp [passed, Serving.rest]
          · exact taken ▸ inTurn.got
          · exact inTurn.turn
          · exact inTurn.fits
          · intro side
            rw [use]
            cases side with
            | client => exact inTurn.recv .client
            | server =>
                have free := inTurn.recv .server
                rw [Conversation.asks, position] at free
                exact free

theorem InTurn.unSelect (inTurn : InTurn base conversation)
    (unselected : conversation.unSelect = some next)
    : InTurn base next := by
  cases position : conversation.serving with
  | recvLength | recvText | task => simp [Conversation.unSelect, position] at unselected
  | sendReply sends =>
      cases sends with
      | cons => simp [Conversation.unSelect, position] at unselected
      | nil =>
          simp only [Conversation.unSelect, position, Option.some.injEq] at unselected
          subst unselected
          have read := inTurn.read
          have replied := inTurn.replied
          have free := inTurn.recv .server
          rw [position] at read replied
          rw [Conversation.asks, position] at free
          refine { inTurn with read, replied, recv := fun side => ?_ }
          cases side with
          | client => exact inTurn.recv .client
          | server =>
              have idle : (conversation.session.use .server).recv = .none := free.free
              rw [idle]
              trivial

/-- A handler's text fits the server's buffer, the reply to it has the shape that the handler
expects, and no size check finds a part of what a `Recv` asks for.
-/
def Brief (mysql : Database → List Byte → Outcome × Database)
    (conversation : Conversation Database)
    : Event Database → Prop
  | .sendLength statement => statement.Fits
  | .execute =>
      ∀ statement got sql,
        conversation.handler = .recvReply statement got
        → conversation.serving = .task sql
        → (mysql conversation.database sql).1.Suits statement.showsList
  | .handlerSize => (conversation.session.use .client).Ample
  | .serverSize => (conversation.session.use .server).Ample
  | .net _ | .sendText | .handlerCall | .handlerRead | .handlerReturn | .serverCall | .serverRead
  | .sendReply | .unSelect | .others _ => True

instance (mysql : Database → List Byte → Outcome × Database)
    (conversation : Conversation Database) (event : Event Database)
    : Decidable (Brief mysql conversation event) :=
  match event with
  | .sendLength statement => inferInstanceAs (Decidable statement.Fits)
  | .execute =>
      match handler : conversation.handler, serving : conversation.serving with
      | .recvReply statement _, .task sql =>
          decidable_of_iff ((mysql conversation.database sql).1.Suits statement.showsList)
            (by simp [Brief, handler, serving])
      | .returned, _ | .sendText _, _ => isTrue (by simp [Brief, handler])
      | .recvReply _ _, .recvLength | .recvReply _ _, .recvText _
      | .recvReply _ _, .sendReply _ => isTrue (by simp [Brief, serving])
  | .handlerSize => inferInstanceAs (Decidable (conversation.session.use .client).Ample)
  | .serverSize => inferInstanceAs (Decidable (conversation.session.use .server).Ample)
  | .net _ | .sendText | .handlerCall | .handlerRead | .handlerReturn | .serverCall | .serverRead
  | .sendReply | .unSelect | .others _ => isTrue trivial

theorem InTurn.step {event : Event Database} (inTurn : InTurn base conversation)
    (brief : Brief mysql conversation event)
    (stepped : conversation.step mysql event = some next)
    : InTurn base next := by
  cases event with
  | net event => exact inTurn.net stepped
  | sendLength statement => exact inTurn.sendLength brief stepped
  | sendText => exact inTurn.sendText stepped
  | handlerCall => exact inTurn.handlerCall stepped
  | handlerSize =>
      obtain ⟨session, sized, rfl⟩ := Option.map_eq_some_iff.mp stepped
      exact inTurn.receives sized nofun nofun (fun _ => brief)
  | handlerRead => exact inTurn.handlerRead stepped
  | handlerReturn => exact inTurn.handlerReturn stepped
  | serverCall => exact inTurn.serverCall stepped
  | serverSize =>
      obtain ⟨session, sized, rfl⟩ := Option.map_eq_some_iff.mp stepped
      exact inTurn.receives sized nofun nofun (fun _ => brief)
  | serverRead => exact inTurn.serverRead stepped
  | execute => exact inTurn.executeTask brief stepped
  | sendReply => exact inTurn.sendReply stepped
  | unSelect => exact inTurn.unSelect stepped
  | others database =>
      obtain rfl := Option.some.inj stepped
      exact { inTurn with }

end Conversation

end SchoolSystem.Exchange
