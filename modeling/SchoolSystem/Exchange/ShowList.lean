import Mathlib.Data.List.InsertIdx
import Mathlib.Data.List.TakeWhile
import SchoolSystem.Exchange.Reply

/-! What `ShowList` makes of a result set: the columns and rows that its two loops read out
of the blocks `SendResByteAry` writes.
-/

namespace SchoolSystem.Exchange

open TcpSocket

/-- The contents of `m_list`. -/
structure CListCtrl (Heading Cell : Type) where
  columns : List Heading
  rows : List (List Cell)
  deriving DecidableEq, Repr

section ListCtrl

variable {Heading Cell : Type}

/-- `DeleteAllItems`, and `DeleteColumn` until there is none. -/
def CListCtrl.clear (_ : CListCtrl Heading Cell) : CListCtrl Heading Cell :=
  { columns := [], rows := [] }

def CListCtrl.insertColumn (list : CListCtrl Heading Cell) (nCol : Nat) (heading : Heading)
    : CListCtrl Heading Cell :=
  { list with columns := list.columns.insertIdx nCol heading }

/-- `InsertItem` without a text: every cell of the row is empty. -/
def CListCtrl.insertItem (list : CListCtrl Heading Cell) (nRow : Nat) (empty : Cell)
    : CListCtrl Heading Cell :=
  {
    list with
    rows := list.rows.insertIdx nRow (List.replicate list.columns.length empty)
  }

def CListCtrl.setItemText (list : CListCtrl Heading Cell) (nRow nCol : Nat) (text : Cell)
    : CListCtrl Heading Cell :=
  { list with rows := list.rows.modify nRow (fun row => row.set nCol text) }

end ListCtrl

-----------------------------------------------------------------------------------------
-- The loops of ShowList
-----------------------------------------------------------------------------------------

variable {Heading : Type}

/-- The string at position `p` of a buffer. Without a terminator in the buffer, `strlen`
reads past its end.
-/
def cStringAt (buf : List Byte) (p : Nat) : Option (List Byte) :=
  let bytes := (buf.drop p).takeWhile (fun byte => byte != 0)
  if p + bytes.length < buf.length then some bytes else none

/-- `strlen` stays in the buffer exactly when there is a zero byte from `p` on. -/
theorem exists_cStringAt_iff (buf : List Byte) (p : Nat)
    : (∃ text, cStringAt buf p = some text) ↔ 0 ∈ buf.drop p := by
  have size : (buf.drop p).length = buf.length - p := List.length_drop
  simp only [cStringAt]
  constructor
  · rintro ⟨text, found⟩
    by_contra absent
    have all : (buf.drop p).takeWhile (fun byte => byte != 0) = buf.drop p :=
      List.takeWhile_eq_self_iff.mpr
        (fun byte member => bne_iff_ne.mpr (fun zero => absent (zero ▸ member)))
    obtain ⟨inside, _⟩ := Option.ite_none_right_eq_some.mp found
    rw [all] at inside
    omega
  · intro zero
    have shorter : ((buf.drop p).takeWhile (fun byte => byte != 0)).length
        < (buf.drop p).length := by
      by_contra whole
      have all : (buf.drop p).takeWhile (fun byte => byte != 0) = buf.drop p :=
        (List.takeWhile_prefix _).eq_of_length_le (by omega)
      have nonzero := List.takeWhile_eq_self_iff.mp all 0 zero
      simp at nonzero
    exact ⟨_, if_pos (by omega)⟩

/-- The loop that inserts the columns, from position `p` on. -/
def CListCtrl.insertColumns (fieldMap : List Byte → Heading) (buf : List Byte) (nBytes : Nat)
    (list : CListCtrl Heading (List Byte)) (p nCol : Nat)
    : Option (CListCtrl Heading (List Byte) × Nat) :=
  if p < nBytes then
    match cStringAt buf p with
    | none => none
    | some name =>
        (list.insertColumn nCol (fieldMap name)).insertColumns fieldMap buf nBytes
          (p + (name.length + 1)) (nCol + 1)
  else
    some (list, nCol)
  termination_by nBytes - p

/-- The inner loop over the columns of one row, with `left` of them to go. -/
def CListCtrl.setItemTexts (buf : List Byte) (nRow : Nat)
    (list : CListCtrl Heading (List Byte))
    : (left i p : Nat) → Option (CListCtrl Heading (List Byte) × Nat)
  | 0, _, p => some (list, p)
  | left + 1, i, p =>
      match cStringAt buf p with
      | none => none
      | some text =>
          (list.setItemText nRow i text).setItemTexts buf nRow left (i + 1)
            (p + (text.length + 1))

/-- The loop that inserts the rows, from position `p` on. Without a column it never ends. -/
def CListCtrl.insertRows (buf : List Byte) (nBytes nCol : Nat)
    (list : CListCtrl Heading (List Byte)) (p nRow : Nat)
    : Option (CListCtrl Heading (List Byte)) :=
  if p < nBytes then
    match (list.insertItem nRow []).setItemTexts buf nRow nCol 0 p with
    | none => none
    | some (filled, next) =>
        if p < next then
          filled.insertRows buf nBytes nCol next (nRow + 1)
        else
          none
  else
    some list
  termination_by nBytes - p

/-- `Recv` into a buffer: the bytes behind the received ones stay as they were. -/
def recvInto (buf received : List Byte) : List Byte := received ++ buf.drop received.length

theorem lengthOf_toNat {block : List Byte} (fits : block.length ≤ 0x1000)
    : (lengthOf block).toInt.toNat = block.length := by
  rw [lengthOf_toInt fits, Int.toNat_natCast]

/-- `ShowList`: the list it shows, and the bytes that it leaves in the stream. -/
def CListCtrl.showList (fieldMap : List Byte → Heading) (list : CListCtrl Heading (List Byte))
    (stream : List Byte)
    : Option (CListCtrl Heading (List Byte) × List Byte) := do
  let (nBytes, stream) ← recvInt stream
  let (header, stream) ← recvBlock nBytes stream
  let pBuf := recvInto (List.replicate 0x1000 0) header
  let (list, nCol) ← list.clear.insertColumns fieldMap pBuf nBytes.toInt.toNat 0 0
  let (nBytes, stream) ← recvInt stream
  if nBytes = 0 then
    return (list, stream)
  let (data, stream) ← recvBlock nBytes stream
  let pBuf := recvInto pBuf data
  let list ← list.insertRows pBuf nBytes.toInt.toNat nCol 0 0
  return (list, stream)

/-- `ShowList` runs its loops on the two blocks that it receives, and leaves what follows
them.
-/
theorem CListCtrl.showList_received (fieldMap : List Byte → Heading)
    (list : CListCtrl Heading (List Byte)) {header data : List Byte}
    (headerFits : header.length ≤ 0x1000) (dataFits : data.length ≤ 0x1000)
    (rest : List Byte)
    : list.showList fieldMap (frame header ++ (frame data ++ rest))
      = (list.clear.insertColumns fieldMap (recvInto (List.replicate 0x1000 0) header)
            header.length 0 0).bind
          (fun shown =>
            if data.length = 0 then
              some (shown.1, rest)
            else
              (shown.1.insertRows (recvInto (recvInto (List.replicate 0x1000 0) header) data)
                  data.length shown.2 0 0).map
                (fun filled => (filled, rest))) := by
  have headerRead := recvBlock_lengthOf headerFits
    (List.append_ne_nil_of_right_ne_nil header
      (List.append_ne_nil_of_left_ne_nil
        (List.ne_nil_of_length_pos (by simp [frame, intBytes_length])) rest)
      : header ++ (frame data ++ rest) ≠ [])
  have headerInt := recvInt_intBytes (lengthOf header) (header ++ (frame data ++ rest))
  have dataInt := recvInt_intBytes (lengthOf data) (data ++ rest)
  simp only [frame, List.append_assoc] at headerRead headerInt ⊢
  simp only [showList, headerInt, headerRead, dataInt, Option.bind_eq_bind, Option.bind_some,
    lengthOf_toNat headerFits, lengthOf_toNat dataFits]
  congr 1
  funext shown
  by_cases empty : data = []
  · simp [empty, lengthOf]
  · have dataRead := recvBlock_lengthOf dataFits (List.append_ne_nil_of_left_ne_nil empty rest)
    simp only [if_neg (lengthOf_ne_zero dataFits empty), dataRead, Option.bind_some,
      if_neg (mt List.length_eq_zero_iff.mp empty)]
    cases shown.1.insertRows (recvInto (recvInto (List.replicate 0x1000 0) header) data)
      data.length shown.2 0 0 with
    | none => rfl
    | some filled => rfl

/-- The bytes that `ShowList` leaves are those that it leaves whatever it shows. -/
theorem CListCtrl.showList_stream {fieldMap : List Byte → Heading}
    {list shown : CListCtrl Heading (List Byte)} {stream rest : List Byte}
    (h : list.showList fieldMap stream = some (shown, rest))
    : Exchange.showList stream = some rest := by
  obtain ⟨⟨nBytes, afterLength⟩, length, h⟩ := Option.bind_eq_some_iff.mp h
  obtain ⟨⟨header, afterHeader⟩, block, h⟩ := Option.bind_eq_some_iff.mp h
  obtain ⟨⟨columns, nCol⟩, _, h⟩ := Option.bind_eq_some_iff.mp h
  obtain ⟨⟨nBytes, afterSecond⟩, second, h⟩ := Option.bind_eq_some_iff.mp h
  simp only [Exchange.showList, length, block, second, Option.bind_eq_bind, Option.bind_some]
  dsimp only at h
  split at h
  · rename_i zero
    rw [if_pos zero]
    exact congrArg some (Prod.mk.inj (Option.some.inj h)).2
  · rename_i notZero
    obtain ⟨⟨data, last⟩, dataBlock, h⟩ := Option.bind_eq_some_iff.mp h
    obtain ⟨filled, _, h⟩ := Option.bind_eq_some_iff.mp h
    rw [if_neg notZero, dataBlock]
    exact congrArg some (Prod.mk.inj (Option.some.inj h)).2

/-- `m_fieldMap`, the display name of every field. -/
def fieldNames : List (String × String) :=
  [
    ("stu_id", "学生ID"),
    ("stu_name", "学生姓名"),
    ("class_id", "班级ID"),
    ("class_name", "班级名"),
    ("course_id", "课程ID"),
    ("course_name", "课程名"),
    ("score", "成绩")
  ]

def asciiBytes (text : String) : List Byte := text.toList.map (fun char => char.toNat.toUInt8)

/-- `m_fieldMap[p]`, which is empty for an unknown name. -/
def fieldMap (name : List Byte) : String :=
  match fieldNames.find? (fun entry => asciiBytes entry.1 == name) with
  | none => ""
  | some entry => entry.2

-----------------------------------------------------------------------------------------
-- The loops read back what was written
-----------------------------------------------------------------------------------------

/-- A string without a zero byte. -/
def NulFree (bytes : List Byte) : Prop := 0 ∉ bytes

instance (bytes : List Byte) : Decidable (NulFree bytes) :=
  inferInstanceAs (Decidable (0 ∉ bytes))

theorem NulFree.ne_zero {bytes : List Byte} (nulFree : NulFree bytes)
    : ∀ byte ∈ bytes, (byte != 0) = true :=
  fun _ member => bne_iff_ne.mpr (fun zero => nulFree (zero ▸ member))

theorem cString_of_nulFree {bytes : List Byte} (nulFree : NulFree bytes)
    : cString bytes = bytes ++ [0] := by
  rw [cString, List.takeWhile_eq_self_iff.mpr nulFree.ne_zero]

/-- A string is read back from where it was written, whatever follows it. -/
theorem cStringAt_cString {bytes : List Byte} (nulFree : NulFree bytes)
    (before after : List Byte)
    : cStringAt (before ++ cString bytes ++ after) before.length = some bytes := by
  have read : (bytes ++ 0 :: after).takeWhile (fun byte => byte != 0) = bytes := by
    have stop : (0 :: after : List Byte).takeWhile (fun byte => byte != 0) = [] := rfl
    rw [List.takeWhile_append_of_pos nulFree.ne_zero, stop, List.append_nil]
  rw [cString_of_nulFree nulFree]
  simp [cStringAt, read]

/-- The column loop inserts one column for each name, by induction on the names. -/
theorem CListCtrl.insertColumns_names (fieldMap : List Byte → Heading)
    {names : List (List Byte)} (nulFree : ∀ name ∈ names, NulFree name)
    (before after : List Byte) (list : CListCtrl Heading (List Byte))
    : list.insertColumns fieldMap (before ++ names.flatMap cString ++ after)
          (before.length + (names.flatMap cString).length) before.length list.columns.length
      = some
          (
            { list with columns := list.columns ++ names.map fieldMap },
            list.columns.length + names.length
          ) := by
  induction names generalizing before list with
  | nil =>
      rw [insertColumns]
      simp
  | cons name rest ih =>
      have free := nulFree name List.mem_cons_self
      have read := cStringAt_cString free before (rest.flatMap cString ++ after)
      have size : (cString name).length = name.length + 1 := by
        simp [cString_of_nulFree free]
      have tail := ih (fun later member => nulFree later (List.mem_cons_of_mem _ member))
        (before ++ cString name) (list.insertColumn list.columns.length (fieldMap name))
      simp only [insertColumn, List.insertIdx_length_self, List.length_append,
        List.length_singleton, size, List.append_assoc] at tail
      rw [insertColumns]
      simp only [List.flatMap_cons, List.length_append, size, List.append_assoc] at read ⊢
      rw [if_pos (by omega), read]
      simp only [insertColumn, List.insertIdx_length_self]
      rw [← Nat.add_assoc, tail]
      simp [Nat.add_assoc, Nat.add_comm 1]

/-- The inner loop fills the rest of the last row, by induction on the cells to come. -/
theorem CListCtrl.setItemTexts_cells {rest : List (List Byte)}
    (nulFree : ∀ cell ∈ rest, NulFree cell) (before after : List Byte)
    (columns : List Heading) (rows : List (List (List Byte))) (filled : List (List Byte))
    : (CListCtrl.mk columns
            (rows ++ [filled ++ List.replicate rest.length []])).setItemTexts
          (before ++ rest.flatMap cString ++ after) rows.length rest.length filled.length
          before.length
      = some
          (
            ⟨columns, rows ++ [filled ++ rest]⟩,
            before.length + (rest.flatMap cString).length
          ) := by
  induction rest generalizing before filled with
  | nil => simp [setItemTexts]
  | cons cell rest ih =>
      have free := nulFree cell List.mem_cons_self
      have read := cStringAt_cString free before (rest.flatMap cString ++ after)
      have size : (cString cell).length = cell.length + 1 := by
        simp [cString_of_nulFree free]
      have tail := ih (fun later member => nulFree later (List.mem_cons_of_mem _ member))
        (before ++ cString cell) (filled ++ [cell])
      have set : (CListCtrl.mk columns
            (rows ++ [filled ++ List.replicate (rest.length + 1) []])).setItemText rows.length
              filled.length cell
          = ⟨columns, rows ++ [filled ++ [cell] ++ List.replicate rest.length []]⟩ := by
        simp [setItemText, List.modify_eq_take_drop, List.replicate_succ]
      simp only [List.length_append, List.length_singleton, size, List.append_assoc] at tail
      simp only [List.flatMap_cons, List.length_append, List.length_cons, size,
        List.append_assoc] at read set ⊢
      rw [setItemTexts, read]
      simp only [set]
      rw [tail]
      simp [Nat.add_assoc]

/-- The outer loop inserts one row for each row of the result, by induction on the rows:
each of them has as many cells as there are columns, and at least one.
-/
theorem CListCtrl.insertRows_rows {nCol : Nat} (some : 0 < nCol)
    {rest : List (List (List Byte))} (wide : ∀ row ∈ rest, row.length = nCol)
    (nulFree : ∀ row ∈ rest, ∀ cell ∈ row, NulFree cell) (before after : List Byte)
    {columns : List Heading} (width : columns.length = nCol)
    (rows : List (List (List Byte)))
    : (CListCtrl.mk columns rows).insertRows
          (before ++ rest.flatten.flatMap cString ++ after)
          (before.length + (rest.flatten.flatMap cString).length) nCol before.length
          rows.length
      = Option.some ⟨columns, rows ++ rest⟩ := by
  induction rest generalizing before rows with
  | nil =>
      rw [insertRows]
      simp
  | cons row rest ih =>
      have long := wide row List.mem_cons_self
      have tail := ih (fun later member => wide later (List.mem_cons_of_mem _ member))
        (fun later member => nulFree later (List.mem_cons_of_mem _ member))
        (before ++ row.flatMap cString) (rows ++ [row])
      have fill := setItemTexts_cells (nulFree row List.mem_cons_self) before
        (rest.flatten.flatMap cString ++ after) columns rows []
      have nonempty : 0 < (row.flatMap cString).length := by
        cases row with
        | nil => simp at long; omega
        | cons cell more => simp [cString]
      have insert : (CListCtrl.mk columns rows).insertItem rows.length ([] : List Byte)
          = ⟨columns, rows ++ [List.replicate row.length []]⟩ := by
        simp [insertItem, width, long]
      simp only [List.nil_append, List.length_nil, List.append_assoc] at fill
      simp only [List.length_append, List.length_singleton, List.append_assoc] at tail
      rw [insertRows]
      simp only [List.flatten_cons, List.flatMap_append, List.length_append,
        List.append_assoc, insert]
      rw [if_pos (by omega), ← long, fill]
      simp only
      rw [if_pos (by omega), long, ← Nat.add_assoc, tail]
      simp

/-- Rows as wide as the columns are encoded to nothing only when there are none. -/
theorem flatMap_cString_ne_nil {nCol : Nat} (some : 0 < nCol) {rows : List (List (List Byte))}
    (wide : ∀ row ∈ rows, row.length = nCol) (any : rows ≠ [])
    : rows.flatten.flatMap cString ≠ [] := by
  cases rows with
  | nil => exact absurd rfl any
  | cons row rest =>
      have long := wide row List.mem_cons_self
      cases row with
      | nil => simp at long; omega
      | cons cell more => simp [cString]

theorem cells_of_some (rows : List (List (List Byte)))
    : cells (rows.map (fun row => row.map some)) = some rows.flatten := by
  have flat : (rows.map (fun row => row.map some)).flatten = rows.flatten.map some := by
    rw [List.map_flatten]
  rw [cells, flat]
  induction rows.flatten with
  | nil => rfl
  | cons value more ih => simp [ih]

/-- `ShowList` after the blocks of a result set. -/
theorem CListCtrl.showList_frames (fieldMap : List Byte → Heading)
    (list : CListCtrl Heading (List Byte)) {names : List (List Byte)}
    (column : names ≠ []) {rows : List (List (List Byte))}
    (wide : ∀ row ∈ rows, row.length = names.length)
    (namesFree : ∀ name ∈ names, NulFree name)
    (cellsFree : ∀ row ∈ rows, ∀ cell ∈ row, NulFree cell)
    (headerFits : (names.flatMap cString).length ≤ 0x1000)
    (dataFits : (rows.flatten.flatMap cString).length ≤ 0x1000) (rest : List Byte)
    : list.showList fieldMap
          (frame (names.flatMap cString) ++ (frame (rows.flatten.flatMap cString) ++ rest))
      = some (⟨names.map fieldMap, rows⟩, rest) := by
  have width : 0 < names.length := List.length_pos_iff.mpr column
  generalize header : names.flatMap cString = headerBlock at headerFits
  generalize data : rows.flatten.flatMap cString = dataBlock at dataFits
  have columns := insertColumns_names fieldMap namesFree []
    ((List.replicate 0x1000 0).drop headerBlock.length) list.clear
  simp only [header, clear, List.nil_append, List.length_nil, Nat.zero_add] at columns
  rw [list.showList_received fieldMap headerFits dataFits]
  simp only [clear, recvInto, columns, Option.bind_some]
  by_cases any : rows = []
  · have empty : dataBlock = [] := by rw [← data, any]; rfl
    simp [any, empty]
  · have filled : dataBlock ≠ [] := data ▸ flatMap_cString_ne_nil width wide any
    have rowsRead := insertRows_rows width wide cellsFree []
      ((headerBlock ++ (List.replicate 0x1000 0).drop headerBlock.length).drop
        dataBlock.length)
      (List.length_map fieldMap : (names.map fieldMap).length = names.length) []
    simp only [data, List.nil_append, List.length_nil, Nat.zero_add] at rowsRead
    rw [if_neg (mt List.length_eq_zero_iff.mp filled), rowsRead]
    rfl

/-- Decoding undoes encoding: of what `SendResByteAry` queues for a result set, `ShowList`
makes a column for each name, in order, with the heading `m_fieldMap` has for it, and the
rows of the result, cell by cell. It reads the two blocks exactly.
-/
theorem CListCtrl.showList_sendResByteAry (fieldMap : List Byte → Heading)
    (list : CListCtrl Heading (List Byte)) (names : List (List Byte)) (column : names ≠ [])
    (rows : List (List (List Byte))) (wide : ∀ row ∈ rows, row.length = names.length)
    (namesFree : ∀ name ∈ names, NulFree name)
    (cellsFree : ∀ row ∈ rows, ∀ cell ∈ row, NulFree cell)
    (headerFits : (names.flatMap cString).length ≤ 0x1000)
    (dataFits : (rows.flatten.flatMap cString).length ≤ 0x1000) (rest : List Byte)
    : ∃ sends,
        sendResByteAry names (rows.map (fun row => row.map some)) = some sends
        ∧ list.showList fieldMap (sends.flatten ++ rest)
          = some (⟨names.map fieldMap, rows⟩, rest)
        ∧ (rows = [] → sends.flatten = frame (names.flatMap cString) ++ intBytes 0) := by
  refine ⟨_, sendResByteAry_eq_some.mpr
    ⟨headerFits, rows.flatten, cells_of_some rows, dataFits, rfl⟩, ?_, ?_⟩
  · have shown := list.showList_frames fieldMap column wide namesFree cellsFree headerFits
      dataFits rest
    simpa [frame] using shown
  · rintro rfl
    simp [frame, lengthOf]

/-- Two rows with empty cells. -/
theorem CListCtrl.showList_emptyCells
    : ∃ sends,
        sendResByteAry [asciiBytes "class_id", asciiBytes "class_name"]
            [[some [49], some []], [some [], some [50, 51]]]
          = some sends
        ∧ (CListCtrl.mk ["成绩"] [[[57]]]).showList fieldMap (sends.flatten ++ [7])
          = some (⟨["班级ID", "班级名"], [[[49], []], [[], [50, 51]]]⟩, [7]) := by
  obtain ⟨sends, sent, shown, _⟩ :=
    showList_sendResByteAry fieldMap ⟨["成绩"], [[[57]]]⟩
      [asciiBytes "class_id", asciiBytes "class_name"] (by decide)
      [[[49], []], [[], [50, 51]]] (by decide) (by decide) (by decide) (by decide) (by decide)
      [7]
  exact ⟨sends, sent, shown⟩

end SchoolSystem.Exchange
