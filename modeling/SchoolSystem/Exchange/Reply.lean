import SchoolSystem.Dialog.Sql
import SchoolSystem.Exchange.Framing

/-! Replies: what a task queues for a statement's outcome, and what the handler that sent the
statement reads before it returns.
The reply does not say what it is: the server goes by the outcome, the client by the handler.
-/

namespace SchoolSystem.Exchange

open TcpSocket Dialog

-----------------------------------------------------------------------------------------
-- The server's side
-----------------------------------------------------------------------------------------

/-- How a statement ends in the database: `mysql_query` fails, `mysql_use_result` has no
result set, or it has one. A cell that is NULL is `none`.
-/
inductive Outcome
  | failed
  | done (affectedRows : Nat)
  | resultSet (names : List (List Byte)) (rows : List (List (Option (List Byte))))
  deriving DecidableEq, Repr

/-- What `memcpy` of `strlen + 1` bytes copies. -/
def cString (bytes : List Byte) : List Byte := bytes.takeWhile (fun byte => byte != 0) ++ [0]

/-- The cells of all rows, one after the other, unless one of them is NULL. -/
def cells (rows : List (List (Option (List Byte)))) : Option (List (List Byte)) :=
  rows.flatten.mapM id

/-- The length of a block and the block, which has to fit into the buffer. -/
def sendBlock (block : List Byte) : Option (List (List Byte)) :=
  if block.length ≤ 0x1000 then some [intBytes (lengthOf block), block] else none

/-- `SendResByteAry`, by the buffers it passes to `Send`: the block of the names and the block
of the cells. It reads through a null pointer for a NULL cell and writes past its buffer for a
block of more than 4096 bytes.
-/
def sendResByteAry (names : List (List Byte)) (rows : List (List (Option (List Byte))))
    : Option (List (List Byte)) := do
  let header ← sendBlock (names.flatMap cString)
  let values ← cells rows
  let data ← sendBlock (values.flatMap cString)
  return header ++ data

/-- The result of `CMysql::Query` when it has no result set. -/
def Outcome.nRet : Outcome → Int32
  | .failed => -1
  | .done affectedRows => Int32.ofNat affectedRows
  | .resultSet _ _ => 0

/-- `CSqlTask::Execute`, by the buffers it passes to `Send`. -/
def execute : Outcome → Option (List (List Byte))
  | .resultSet names rows => sendResByteAry names rows
  | outcome => some [intBytes outcome.nRet]

-----------------------------------------------------------------------------------------
-- The client's side
-----------------------------------------------------------------------------------------

/-- `Recv` of `nBufLen` bytes when it delivers all of them. It waits for ever for bytes that
are not there, and also for the first byte when it is to deliver none.
-/
def recv (nBufLen : Nat) (stream : List Byte) : Option (List Byte × List Byte) :=
  if stream ≠ [] ∧ nBufLen ≤ stream.length then
    some (stream.take nBufLen, stream.drop nBufLen)
  else
    none

/-- `Recv` of an `int`. -/
def recvInt (stream : List Byte) : Option (Int32 × List Byte) :=
  (recv 4 stream).map (fun (bytes, rest) => (intAt bytes 0, rest))

/-- `Recv` into the buffer of `ShowList`; a negative or larger length is undefined. -/
def recvBlock (nBytes : Int32) (stream : List Byte) : Option (List Byte × List Byte) :=
  if 0 ≤ nBytes.toInt ∧ nBytes.toInt ≤ 0x1000 then recv nBytes.toInt.toNat stream else none

/-- `ShowList`, with the bytes that it leaves in the stream. -/
def showList (stream : List Byte) : Option (List Byte) := do
  let (nBytes, stream) ← recvInt stream
  let (_, stream) ← recvBlock nBytes stream
  let (nBytes, stream) ← recvInt stream
  if nBytes = 0 then
    return stream
  let (_, stream) ← recvBlock nBytes stream
  return stream

/-- The handlers that send a statement. -/
inductive Request
  | initDialog
  | tabChange (tab : Tab)
  | call (call : Call)
  | unionSelect

def Request.sql : Request → Text
  | .initDialog => (tabSql .student).toList
  | .tabChange tab => (tabSql tab).toList
  | .call sent => sent.sql
  | .unionSelect => unionSql.toList

/-- The handlers that call `ShowList`; the others receive one `int`. -/
def Request.showsList : Request → Bool
  | .initDialog | .tabChange _ | .unionSelect | .call (.search _) => true
  | .call (.insert _) | .call (.delete _ _ _) | .call (.update _ _) => false

/-- What a handler receives after `SendSql`, with the bytes that it leaves in the stream. -/
def Request.receive (request : Request) (stream : List Byte) : Option (List Byte) :=
  if request.showsList then showList stream else (recvInt stream).map Prod.snd

/-- The handler reads exactly the bytes that the task queues, and returns. -/
def Agrees (request : Request) (outcome : Outcome) : Prop :=
  ∃ sends, execute outcome = some sends ∧ request.receive sends.flatten = some []

/-- A result set that `SendResByteAry` can write: no cell is NULL, and both blocks fit. -/
def Outcome.Encodable : Outcome → Prop
  | .failed | .done _ => False
  | .resultSet names rows =>
      (names.flatMap cString).length ≤ 0x1000
      ∧ ∃ values, cells rows = some values ∧ (values.flatMap cString).length ≤ 0x1000

/-- The outcome has the shape that the handler expects. -/
def Outcome.Fits (request : Request) : Outcome → Prop
  | .failed | .done _ => request.showsList = false
  | .resultSet names rows => request.showsList = true ∧ (resultSet names rows).Encodable

theorem recvInt_intBytes (n : Int32) (rest : List Byte)
    : recvInt (intBytes n ++ rest) = some (n, rest) := by
  have size := intBytes_length n
  have some : intBytes n ++ rest ≠ [] := List.append_ne_nil_of_left_ne_nil
    (List.ne_nil_of_length_pos (by omega)) rest
  have field : intAt (intBytes n) 0 = n := by
    have read := intAt_intBytes n List.length_nil []
    simpa using read
  simp [recvInt, recv, some, List.take_left' size, List.drop_left' size, field]

theorem lengthOf_ne_zero {block : List Byte} (fits : block.length ≤ 0x1000)
    (some : block ≠ [])
    : lengthOf block ≠ 0 := by
  intro zero
  have length := lengthOf_toInt fits
  rw [zero, Int32.toInt_zero] at length
  exact some (List.length_eq_zero_iff.mp (Int.natCast_eq_zero.mp length.symm))

/-- A block of a reply is read as it was sent, unless it is empty with nothing after it. -/
theorem recvBlock_lengthOf {block : List Byte} (fits : block.length ≤ 0x1000)
    {rest : List Byte} (some : block ++ rest ≠ [])
    : recvBlock (lengthOf block) (block ++ rest) = Option.some (block, rest) := by
  simp [recvBlock, lengthOf_toInt fits, fits, recv, some]

theorem recvBlock_nil (nBytes : Int32) : recvBlock nBytes [] = none := by
  simp [recvBlock, recv]

/-- `ShowList` reads the two blocks of a result set and nothing else. -/
theorem showList_blocks {header data : List Byte} (headerFits : header.length ≤ 0x1000)
    (dataFits : data.length ≤ 0x1000)
    : showList (frame header ++ frame data) = some [] := by
  have some : header ++ (intBytes (lengthOf data) ++ data) ≠ [] :=
    List.ne_nil_of_length_pos (by simp [intBytes_length])
  cases data with
  | nil =>
      have zero : lengthOf [] = 0 := rfl
      rw [zero, List.append_nil] at some
      have block := recvBlock_lengthOf headerFits some
      have count := recvInt_intBytes 0 []
      rw [List.append_nil] at count
      simp [showList, frame, recvInt_intBytes, zero, block, count]
  | cons byte more =>
      have notZero := lengthOf_ne_zero dataFits (List.cons_ne_nil byte more)
      have block := recvBlock_lengthOf headerFits some
      have last := @recvBlock_lengthOf (byte :: more) dataFits [] (by simp)
      rw [List.append_nil] at last
      simp [showList, frame, recvInt_intBytes, block, notZero, last]

theorem sendBlock_eq_some {block : List Byte} {sends : List (List Byte)}
    : sendBlock block = some sends
      ↔ block.length ≤ 0x1000 ∧ [intBytes (lengthOf block), block] = sends := by
  simp [sendBlock]

/-- What `SendResByteAry` queues, if it can write the result set. -/
theorem sendResByteAry_eq_some {names : List (List Byte)}
    {rows : List (List (Option (List Byte)))} {sends : List (List Byte)}
    : sendResByteAry names rows = some sends
      ↔ (names.flatMap cString).length ≤ 0x1000
        ∧ ∃ values,
            cells rows = some values
            ∧ (values.flatMap cString).length ≤ 0x1000
            ∧ sends
              = [
                intBytes (lengthOf (names.flatMap cString)),
                names.flatMap cString,
                intBytes (lengthOf (values.flatMap cString)),
                values.flatMap cString
              ] := by
  constructor
  · intro sent
    obtain ⟨header, sentHeader, sentRest⟩ := Option.bind_eq_some_iff.mp sent
    obtain ⟨headerFits, rfl⟩ := sendBlock_eq_some.mp sentHeader
    obtain ⟨values, found, sentBlock⟩ := Option.bind_eq_some_iff.mp sentRest
    obtain ⟨data, sentData, last⟩ := Option.bind_eq_some_iff.mp sentBlock
    obtain ⟨dataFits, rfl⟩ := sendBlock_eq_some.mp sentData
    exact ⟨headerFits, values, found, dataFits, (Option.some.inj last).symm⟩
  · rintro ⟨headerFits, values, found, dataFits, rfl⟩
    have header := sendBlock_eq_some.mpr ⟨headerFits, rfl⟩
    have data := sendBlock_eq_some.mpr ⟨dataFits, rfl⟩
    simp only [sendResByteAry, header, found, data, Option.bind_eq_bind, Option.bind_some]
    rfl

/-- An `int` as the whole reply: it is what the handlers without `ShowList` read. -/
theorem receive_intBytes (request : Request) (n : Int32)
    : request.receive (intBytes n) = some [] ↔ request.showsList = false := by
  have count := recvInt_intBytes n []
  rw [List.append_nil] at count
  cases shows : request.showsList with
  | false => simp [Request.receive, shows, count]
  | true => simp [Request.receive, shows, showList, count, recvBlock_nil]

/-- Two blocks as the whole reply: they are what `ShowList` reads. -/
theorem receive_blocks (request : Request) {header data : List Byte}
    (headerFits : header.length ≤ 0x1000) (dataFits : data.length ≤ 0x1000)
    : request.receive (frame header ++ frame data) = some [] ↔ request.showsList = true := by
  cases shows : request.showsList with
  | true => simp [Request.receive, shows, showList_blocks headerFits dataFits]
  | false =>
      have rest : header ++ frame data ≠ [] :=
        List.ne_nil_of_length_pos (by simp [frame, intBytes_length])
      have read : recvInt (frame header ++ frame data)
          = some (lengthOf header, header ++ frame data) := by
        rw [frame, List.append_assoc]
        exact recvInt_intBytes _ _
      simp only [Request.receive, shows, Bool.false_eq_true, if_false, read, Option.map_some,
        Option.some.injEq, iff_false]
      exact rest

/-- Both sides agree on the reply exactly when the outcome has the shape that the handler
expects: a result set that can be written for `ShowList`, and no result set otherwise.
-/
theorem agrees_iff (request : Request) (outcome : Outcome)
    : Agrees request outcome ↔ outcome.Fits request := by
  cases outcome with
  | failed =>
      simpa [Agrees, execute, Outcome.Fits] using receive_intBytes request Outcome.failed.nRet
  | done affectedRows =>
      simpa [Agrees, execute, Outcome.Fits]
        using receive_intBytes request (Outcome.done affectedRows).nRet
  | resultSet names rows =>
      simp only [Agrees, execute, Outcome.Fits, Outcome.Encodable]
      constructor
      · rintro ⟨sends, sent, received⟩
        obtain ⟨headerFits, values, found, dataFits, rfl⟩ := sendResByteAry_eq_some.mp sent
        have blocks := receive_blocks request headerFits dataFits
        have shows := blocks.mp (by simpa [frame] using received)
        exact ⟨shows, headerFits, values, found, dataFits⟩
      · rintro ⟨shows, headerFits, values, found, dataFits⟩
        refine ⟨_, sendResByteAry_eq_some.mpr ⟨headerFits, values, found, dataFits, rfl⟩, ?_⟩
        have received := (receive_blocks request headerFits dataFits).mpr shows
        simpa [frame] using received

/-- For every database, a handler and the server agree on the reply to the text that the
handler builds exactly when the text's outcome has the shape that the handler expects.
-/
theorem agrees_sql_iff (mysql : Text → Outcome) (request : Request)
    : Agrees request (mysql request.sql) ↔ (mysql request.sql).Fits request :=
  agrees_iff request (mysql request.sql)

/-- A database that refuses texts whose literals do not end, and has no rows. -/
def emptyDatabase (sql : Text) : Outcome :=
  match QuotedLiteral.lex sql with
  | none => .failed
  | some _ => .resultSet [[105, 100]] []

/-- A search for a class name with a quote fails in the database, and `ShowList` waits. -/
theorem agrees_not_always
    : ¬ ∀ request : Request, Agrees request (emptyDatabase request.sql) := by
  intro always
  have fits := (agrees_iff _ _).mp (always (.call (.search (.clazz ⟨[], ['a', '\'', 'b']⟩))))
  have failed : emptyDatabase (Request.call (.search (.clazz ⟨[], ['a', '\'', 'b']⟩))).sql
      = .failed := by
    decide
  rw [failed] at fits
  cases fits

end SchoolSystem.Exchange
