import Mathlib.Computability.StateTransition
import SchoolSystem.Exchange.ShowList

/-! The two loops of `ShowList` on any two blocks, one iteration after the other: whether they
end, and whether they stay in the buffer.
-/

namespace SchoolSystem.Exchange

open TcpSocket StateTransition

/-- What `Recv` can put into `pBuf`. -/
structure Block where
  bytes : List Byte
  fits : bytes.length ≤ 0x1000

/-- The header and the rows that `ShowList` receives. -/
structure Blocks where
  header : Block
  data : Block

/-- Where the loops are: at the test of the first one, at the test of the second one, at the test
of its inner loop, after `return`, or past the end of the buffer.
-/
inductive Loops (Heading : Type)
  | columns (list : CListCtrl Heading (List Byte)) (p nCol : Nat)
  | rows (list : CListCtrl Heading (List Byte)) (nCol p nRow : Nat)
  | cells (list : CListCtrl Heading (List Byte)) (nCol i p nRow : Nat)
  | returned (list : CListCtrl Heading (List Byte))
  | overrun

namespace Blocks

variable {Heading : Type}

/-- `pBuf` while the columns are read. -/
def headerBuf (blocks : Blocks) : List Byte :=
  recvInto (List.replicate 0x1000 0) blocks.header.bytes

/-- `pBuf` while the rows are read: behind the rows, the header is still there. -/
def dataBuf (blocks : Blocks) : List Byte := recvInto blocks.headerBuf blocks.data.bytes

/-- After the first loop, `ShowList` returns for a second block of no bytes. -/
def afterColumns (blocks : Blocks) (list : CListCtrl Heading (List Byte)) (nCol : Nat)
    : Loops Heading :=
  if blocks.data.bytes.length = 0 then .returned list else .rows list nCol 0 0

def step (fieldMap : List Byte → Heading) (blocks : Blocks)
    : Loops Heading → Option (Loops Heading)
  | .columns list p nCol =>
      if p < blocks.header.bytes.length then
        match cStringAt blocks.headerBuf p with
        | none => some .overrun
        | some name =>
            some
              (.columns (list.insertColumn nCol (fieldMap name)) (p + (name.length + 1))
                (nCol + 1))
      else
        some (blocks.afterColumns list nCol)
  | .rows list nCol p nRow =>
      if p < blocks.data.bytes.length then
        some (.cells (list.insertItem nRow []) nCol 0 p nRow)
      else
        some (.returned list)
  | .cells list nCol i p nRow =>
      if i < nCol then
        match cStringAt blocks.dataBuf p with
        | none => some .overrun
        | some text =>
            some
              (.cells (list.setItemText nRow i text) nCol (i + 1) (p + (text.length + 1)) nRow)
      else
        some (.rows list nCol p (nRow + 1))
  | .returned _ | .overrun => none

/-- Both loops, as functions of the blocks. -/
def loops (fieldMap : List Byte → Heading) (blocks : Blocks)
    (list : CListCtrl Heading (List Byte))
    : Option (CListCtrl Heading (List Byte)) := do
  let (list, nCol) ←
    list.insertColumns fieldMap blocks.headerBuf blocks.header.bytes.length 0 0
  if blocks.data.bytes.length = 0 then
    return list
  list.insertRows blocks.dataBuf blocks.data.bytes.length nCol 0 0

/-- Both loops end, and none of their reads is past the buffer. -/
structure Safe (fieldMap : List Byte → Heading) (blocks : Blocks)
    (list : CListCtrl Heading (List Byte))
    : Prop where
  terminates : (eval (blocks.step fieldMap) (.columns list 0 0)).Dom
  inBounds : ¬ Reaches (blocks.step fieldMap) (.columns list 0 0) .overrun

/-- `ShowList` runs the loops on the two blocks that it receives, and leaves what follows them. -/
theorem showList_eq_loops (fieldMap : List Byte → Heading) (blocks : Blocks)
    (list : CListCtrl Heading (List Byte)) (rest : List Byte)
    : list.showList fieldMap
          (frame blocks.header.bytes ++ (frame blocks.data.bytes ++ rest))
      = (blocks.loops fieldMap list.clear).map (fun shown => (shown, rest)) := by
  rw [list.showList_received fieldMap blocks.header.fits blocks.data.fits, loops]
  simp only [Option.bind_eq_bind, Option.map_bind, headerBuf, dataBuf]
  congr 1
  funext shown
  by_cases empty : blocks.data.bytes.length = 0
  · simp only [if_pos empty]
    rfl
  · simp only [if_neg empty]
    rfl

-----------------------------------------------------------------------------------------
-- The steps follow the functions
-----------------------------------------------------------------------------------------

section Steps

variable {fieldMap : List Byte → Heading} {blocks : Blocks}
  {list : CListCtrl Heading (List Byte)}

/-- The first loop, by the recursion of `insertColumns`. -/
theorem reaches_columns (p nCol : Nat)
    : Reaches (blocks.step fieldMap) (.columns list p nCol)
        (match
          list.insertColumns fieldMap blocks.headerBuf blocks.header.bytes.length p nCol
        with
        | none => .overrun
        | some (shown, count) => blocks.afterColumns shown count) := by
  fun_induction CListCtrl.insertColumns fieldMap blocks.headerBuf
    blocks.header.bytes.length list p nCol with
  | case1 list p nCol before none =>
      exact Relation.ReflTransGen.single (by simp [step, before, none])
  | case2 list p nCol before name found ih =>
      exact Relation.ReflTransGen.head (by simp [step, before, found]) ih
  | case3 list p nCol after =>
      exact Relation.ReflTransGen.single (by simp [step, after])

/-- The inner loop, by induction on the columns that are left. -/
theorem reaches_cells (left i p nRow : Nat)
    : Reaches (blocks.step fieldMap) (.cells list (i + left) i p nRow)
        (match list.setItemTexts blocks.dataBuf nRow left i p with
        | none => .overrun
        | some (filled, next) => .rows filled (i + left) next (nRow + 1)) := by
  induction left generalizing list i p with
  | zero => exact Relation.ReflTransGen.single (by simp [step, CListCtrl.setItemTexts])
  | succ left ih =>
      rw [CListCtrl.setItemTexts]
      cases found : cStringAt blocks.dataBuf p with
      | none => exact Relation.ReflTransGen.single (by simp [step, found])
      | some text =>
          have later := @ih (list.setItemText nRow i text) (i + 1) (p + (text.length + 1))
          have count : i + 1 + left = i + (left + 1) := by omega
          rw [count] at later
          exact Relation.ReflTransGen.head (by simp [step, found]) later

/-- A row moves `p` by at least a byte for each of its columns. -/
theorem setItemTexts_next {buf : List Byte} {nRow left i p next : Nat}
    {filled : CListCtrl Heading (List Byte)}
    (set : list.setItemTexts buf nRow left i p = some (filled, next))
    : p + left ≤ next := by
  induction left generalizing list i p with
  | zero =>
      obtain ⟨_, rfl⟩ := Prod.mk.inj (Option.some.inj set)
      exact Nat.le_refl _
  | succ left ih =>
      rw [CListCtrl.setItemTexts] at set
      cases found : cStringAt buf p with
      | none => simp [found] at set
      | some text =>
          simp only [found] at set
          have later := ih set
          omega

/-- The second loop when there is a column, by the recursion of `insertRows`. -/
theorem reaches_rows {nCol : Nat} (column : 0 < nCol) (p nRow : Nat)
    : Reaches (blocks.step fieldMap) (.rows list nCol p nRow)
        (match list.insertRows blocks.dataBuf blocks.data.bytes.length nCol p nRow with
        | none => .overrun
        | some shown => .returned shown) := by
  have enter (list : CListCtrl Heading (List Byte)) (p nRow : Nat)
      (before : p < blocks.data.bytes.length)
      : Reaches (blocks.step fieldMap) (.rows list nCol p nRow)
          (match (list.insertItem nRow []).setItemTexts blocks.dataBuf nRow nCol 0 p with
          | none => .overrun
          | some (filled, next) => .rows filled nCol next (nRow + 1)) := by
    have cells := @reaches_cells _ fieldMap blocks (list.insertItem nRow []) nCol 0 p nRow
    simp only [Nat.zero_add] at cells
    exact Relation.ReflTransGen.head (by simp [step, before]) cells
  fun_induction CListCtrl.insertRows blocks.dataBuf blocks.data.bytes.length nCol list p nRow with
  | case1 list p nRow before none =>
      have row := enter list p nRow before
      rw [none] at row
      exact row
  | case2 list p nRow before filled next set more ih =>
      have row := enter list p nRow before
      rw [set] at row
      exact row.trans ih
  | case3 list p nRow before filled next set stuck =>
      have later := setItemTexts_next set
      omega
  | case4 list p nRow after =>
      exact Relation.ReflTransGen.single (by simp [step, after])

/-- Without a column, the second loop inserts one row after the other for ever. -/
theorem rows_without_column {p nRow : Nat} {later : Loops Heading}
    (before : p < blocks.data.bytes.length)
    (reached : Reaches (blocks.step fieldMap) (.rows list 0 p nRow) later)
    : ∃ shown row, later = .rows shown 0 p row ∨ later = .cells shown 0 0 p row := by
  induction reached with
  | refl => exact ⟨list, nRow, Or.inl rfl⟩
  | tail _ stepped ih =>
      obtain ⟨shown, row, rfl | rfl⟩ := ih
      · simp only [step, if_pos before, Option.mem_def, Option.some.injEq] at stepped
        exact ⟨_, row, Or.inr stepped.symm⟩
      · simp only [step, Nat.lt_irrefl, if_false, Option.mem_def, Option.some.injEq] at stepped
        exact ⟨shown, row + 1, Or.inl stepped.symm⟩

/-- `insertRows` gives nothing without a column either. -/
theorem insertRows_without_column {buf : List Byte} {nBytes p nRow : Nat} (before : p < nBytes)
    : list.insertRows buf nBytes 0 p nRow = none := by
  rw [CListCtrl.insertRows, if_pos before]
  simp [CListCtrl.setItemTexts]

/-- Where `ShowList` returns, it was safe: its end is reached once only. -/
theorem safe_of_returned {shown : CListCtrl Heading (List Byte)}
    (reached : Reaches (blocks.step fieldMap) (.columns list 0 0) (.returned shown))
    : blocks.Safe fieldMap list := by
  have returned : .returned shown ∈ eval (blocks.step fieldMap) (.columns list 0 0) :=
    mem_eval.mpr ⟨reached, rfl⟩
  refine ⟨Part.dom_iff_mem.mpr ⟨_, returned⟩, fun overrun => ?_⟩
  have other : .overrun ∈ eval (blocks.step fieldMap) (.columns list 0 0) :=
    mem_eval.mpr ⟨overrun, rfl⟩
  cases Part.mem_unique returned other

theorem not_safe_without_column {shown : CListCtrl Heading (List Byte)}
    (some : 0 < blocks.data.bytes.length)
    (reached : Reaches (blocks.step fieldMap) (.columns list 0 0) (.rows shown 0 0 0))
    : ¬ blocks.Safe fieldMap list := by
  intro safe
  obtain ⟨last, ended⟩ := Part.dom_iff_mem.mp safe.terminates
  rw [reaches_eval reached] at ended
  obtain ⟨later, halted⟩ := mem_eval.mp ended
  obtain ⟨filled, row, rfl | rfl⟩ := rows_without_column some later
  · simp [step, some] at halted
  · simp [step] at halted

/-- The loops are safe exactly when the functions give a list. -/
theorem safe_iff_loops : blocks.Safe fieldMap list ↔ (blocks.loops fieldMap list).isSome := by
  have columns := @reaches_columns _ fieldMap blocks list 0 0
  rw [loops]
  cases inserted : list.insertColumns fieldMap blocks.headerBuf blocks.header.bytes.length 0 0 with
  | none =>
      rw [inserted] at columns
      exact iff_of_false (fun safe => safe.inBounds columns) (by simp)
  | some result =>
      obtain ⟨shown, nCol⟩ := result
      rw [inserted] at columns
      by_cases empty : blocks.data.bytes.length = 0
      · simp only [afterColumns, if_pos empty] at columns
        exact iff_of_true (safe_of_returned columns) (by simp [empty])
      · simp only [afterColumns, if_neg empty] at columns
        simp only [Option.bind_eq_bind, Option.bind_some, if_neg empty]
        rcases Nat.eq_zero_or_pos nCol with rfl | column
        · have some : 0 < blocks.data.bytes.length := Nat.pos_of_ne_zero empty
          refine iff_of_false (not_safe_without_column some columns) ?_
          simp [insertRows_without_column some]
        · have rows := columns.trans (reaches_rows column 0 0)
          cases filled : shown.insertRows blocks.dataBuf blocks.data.bytes.length nCol 0 0 with
          | none =>
              rw [filled] at rows
              exact iff_of_false (fun safe => safe.inBounds rows) (by simp)
          | some last =>
              rw [filled] at rows
              exact iff_of_true (safe_of_returned rows) rfl

end Steps

end Blocks

-----------------------------------------------------------------------------------------
-- Counting strings
-----------------------------------------------------------------------------------------

/-- The number of strings that begin in a block: at its first byte, and behind every zero byte but
a last one.
-/
def stringCount (block : List Byte) : Nat :=
  if block = [] then 0 else block.dropLast.count 0 + 1

section Strings

variable {buf block rest text : List Byte} {p : Nat}

/-- A string takes its bytes and one zero byte from the buffer. -/
theorem drop_of_cStringAt (found : cStringAt buf p = some text)
    : 0 ∉ text ∧ buf.drop p = text ++ 0 :: buf.drop (p + (text.length + 1)) := by
  obtain ⟨inside, same⟩ := Option.ite_none_right_eq_some.mp found
  have taken := Option.some.inj same
  have split := List.takeWhile_append_dropWhile (p := fun byte => byte != 0) (l := buf.drop p)
  have size : (buf.drop p).length = buf.length - p := List.length_drop
  have ends := List.head?_dropWhile_not (fun byte : Byte => byte != 0) (buf.drop p)
  rw [taken] at inside split
  have nonzero : 0 ∉ text := by
    intro zero
    rw [← taken] at zero
    have stop := List.mem_takeWhile_imp zero
    simp at stop
  refine ⟨nonzero, ?_⟩
  cases more : (buf.drop p).dropWhile (fun byte => byte != 0) with
  | nil =>
      rw [more, List.append_nil] at split
      rw [split] at inside
      omega
  | cons byte after =>
      rw [more] at split ends
      have zero : byte = 0 := by simpa using ends
      have shift : (buf.drop p).drop (text.length + 1) = buf.drop (p + (text.length + 1)) :=
        List.drop_drop
      rw [← split, ← List.singleton_append, ← List.append_assoc,
        List.drop_left' (by simp)] at shift
      rw [← split, ← shift, zero]

/-- One string fewer begins behind the string at `p`. -/
theorem stringCount_drop (found : cStringAt (block ++ rest) p = some text)
    (before : p < block.length)
    : stringCount (block.drop p) = stringCount (block.drop (p + (text.length + 1))) + 1 := by
  obtain ⟨nonzero, split⟩ := drop_of_cStringAt found
  have none : text.count 0 = 0 := List.count_eq_zero.mpr nonzero
  have some : block.drop p ≠ [] := List.ne_nil_of_length_pos (by rw [List.length_drop]; omega)
  rw [List.drop_append_of_le_length (Nat.le_of_lt before), ← List.singleton_append,
    ← List.append_assoc] at split
  rcases List.append_eq_append_iff.mp split with ⟨left, whole, _⟩ | ⟨left, whole, _⟩
  · have short : (block.drop p).length ≤ text.length + 1 := by
      have sizes := congrArg List.length whole
      simp at sizes
      simp
      omega
    have last : block.drop (p + (text.length + 1)) = [] := by
      apply List.drop_of_length_le
      rw [List.length_drop] at short
      omega
    have prior : (block.drop p).dropLast <+: text := by
      rcases List.prefix_concat_iff.mp ⟨left, whole.symm⟩ with all | part
      · exact ⟨[], by rw [all, List.dropLast_concat, List.append_nil]⟩
      · exact (List.dropLast_prefix _).trans part
    have noZero : (block.drop p).dropLast.count 0 = 0 :=
      List.count_eq_zero.mpr (fun zero => nonzero (prior.subset zero))
    simp [stringCount, some, last, noZero]
  · have later : block.drop (p + (text.length + 1)) = left := by
      have shift : (block.drop p).drop (text.length + 1) = block.drop (p + (text.length + 1)) :=
        List.drop_drop
      rw [← shift, whole, List.drop_left' (by simp)]
    rw [later, whole]
    cases left with
    | nil => simp [stringCount, none]
    | cons byte more => simp [stringCount, none]

theorem count_zero_drop (found : cStringAt buf p = some text)
    : (buf.drop p).count 0 = (buf.drop (p + (text.length + 1))).count 0 + 1 := by
  obtain ⟨nonzero, split⟩ := drop_of_cStringAt found
  rw [split, List.count_append, List.count_eq_zero.mpr nonzero, List.count_cons_self]
  omega

theorem stringCount_pos (before : p < block.length) : 0 < stringCount (block.drop p) := by
  have some : block.drop p ≠ [] := List.ne_nil_of_length_pos (by rw [List.length_drop]; omega)
  simp [stringCount, some]

theorem stringCount_done (after : ¬ p < block.length) : stringCount (block.drop p) = 0 := by
  rw [List.drop_of_length_le (by omega)]
  rfl

/-- The column loop needs a zero byte for each string of its block, by its recursion. -/
theorem insertColumns_cases {Heading : Type} (fieldMap : List Byte → Heading)
    (list : CListCtrl Heading (List Byte)) (p nCol : Nat)
    : (stringCount (block.drop p) ≤ ((block ++ rest).drop p).count 0
        ∧ ∃ shown,
            list.insertColumns fieldMap (block ++ rest) block.length p nCol
            = some (shown, nCol + stringCount (block.drop p)))
      ∨ (((block ++ rest).drop p).count 0 < stringCount (block.drop p)
        ∧ list.insertColumns fieldMap (block ++ rest) block.length p nCol = none) := by
  fun_induction CListCtrl.insertColumns fieldMap (block ++ rest) block.length list p nCol with
  | case1 list p nCol before none =>
      have absent := mt (exists_cStringAt_iff (block ++ rest) p).mpr (by simp [none])
      have some := stringCount_pos before
      exact Or.inr ⟨by rw [List.count_eq_zero.mpr absent]; exact some, rfl⟩
  | case2 list p nCol before name found ih =>
      have fewer := stringCount_drop found before
      have zeros := count_zero_drop found
      rcases ih with ⟨enough, shown, inserted⟩ | ⟨missing, nothing⟩
      · refine Or.inl ⟨by omega, shown, ?_⟩
        rw [inserted]
        congr 2
        omega
      · exact Or.inr ⟨by omega, nothing⟩
  | case3 list p nCol after =>
      rw [stringCount_done after]
      exact Or.inl ⟨Nat.zero_le _, list, rfl⟩

/-- A row needs a zero byte for each of its columns, by induction on these. -/
theorem setItemTexts_cases {Heading : Type} (list : CListCtrl Heading (List Byte))
    (nRow left i p : Nat)
    : (left ≤ ((block ++ rest).drop p).count 0
        ∧ ∃ filled next,
            list.setItemTexts (block ++ rest) nRow left i p = some (filled, next)
            ∧ ((block ++ rest).drop next).count 0 + left = ((block ++ rest).drop p).count 0
            ∧ stringCount (block.drop next) = stringCount (block.drop p) - left)
      ∨ (((block ++ rest).drop p).count 0 < left
        ∧ list.setItemTexts (block ++ rest) nRow left i p = none) := by
  induction left generalizing list i p with
  | zero => exact Or.inl ⟨Nat.zero_le _, list, p, rfl, rfl, rfl⟩
  | succ left ih =>
      rw [CListCtrl.setItemTexts]
      cases found : cStringAt (block ++ rest) p with
      | none =>
          have absent := mt (exists_cStringAt_iff (block ++ rest) p).mpr (by simp [found])
          refine Or.inr ⟨?_, rfl⟩
          rw [List.count_eq_zero.mpr absent]
          exact Nat.succ_pos left
      | some text =>
          have zeros := count_zero_drop found
          have fewer : stringCount (block.drop (p + (text.length + 1)))
              = stringCount (block.drop p) - 1 := by
            by_cases before : p < block.length
            · have drop := stringCount_drop found before
              omega
            · rw [stringCount_done before, stringCount_done (by omega)]
          rcases ih (list.setItemText nRow i text) (i + 1) (p + (text.length + 1)) with
            ⟨enough, filled, next, set, left, strings⟩ | ⟨missing, nothing⟩
          · exact Or.inl ⟨by omega, filled, next, set, by omega, by omega⟩
          · exact Or.inr ⟨by omega, nothing⟩

end Strings

/-- The rows that a number of strings begins to fill. -/
def rowCount (strings nCol : Nat) : Nat := (strings + (nCol - 1)) / nCol

theorem rowCount_step {strings nCol : Nat} (column : 0 < nCol) (some : 0 < strings)
    : rowCount strings nCol = rowCount (strings - nCol) nCol + 1 := by
  rw [rowCount, rowCount, ← Nat.add_div_right _ column]
  by_cases full : nCol ≤ strings
  · congr 1
    omega
  · have last : strings - nCol = 0 := by omega
    have rest : (nCol - 1) / nCol = 0 := Nat.div_eq_of_lt (by omega)
    rw [last, Nat.zero_add, Nat.add_div_right _ column, rest]
    exact Nat.div_eq_of_lt_le (by omega) (by omega)

/-- The row loop needs a zero byte for each cell of the rows that it begins, by its recursion. -/
theorem insertRows_isSome_iff {Heading : Type} {block rest : List Byte} {nCol : Nat}
    (column : 0 < nCol) (list : CListCtrl Heading (List Byte)) (p nRow : Nat)
    : (list.insertRows (block ++ rest) block.length nCol p nRow).isSome
      ↔ nCol * rowCount (stringCount (block.drop p)) nCol
        ≤ ((block ++ rest).drop p).count 0 := by
  fun_induction CListCtrl.insertRows (block ++ rest) block.length nCol list p nRow with
  | case1 list p nRow before none =>
      rcases setItemTexts_cases (list.insertItem nRow []) nRow nCol 0 p with
        ⟨_, filled, next, set, _⟩ | ⟨missing, _⟩
      · rw [none] at set
        cases set
      · have first := rowCount_step column (stringCount_pos before)
        rw [first, Nat.mul_succ]
        exact iff_of_false (by simp) (by omega)
  | case2 list p nRow before filled next set more ih =>
      rcases setItemTexts_cases (list.insertItem nRow []) nRow nCol 0 p with
        ⟨_, otherFilled, otherNext, same, zeros, strings⟩ | ⟨_, nothing⟩
      · obtain ⟨rfl, rfl⟩ := Prod.mk.inj (Option.some.inj (set.symm.trans same))
        rw [ih, strings, rowCount_step column (stringCount_pos before), Nat.mul_succ]
        omega
      · rw [set] at nothing
        cases nothing
  | case3 list p nRow before filled next set stuck =>
      have later := Blocks.setItemTexts_next set
      omega
  | case4 list p nRow after =>
      have none : (nCol - 1) / nCol = 0 := Nat.div_eq_of_lt (by omega)
      rw [stringCount_done after, rowCount, Nat.zero_add, none, Nat.mul_zero]
      exact iff_of_true rfl (Nat.zero_le _)

namespace Blocks

/-- The header's last string ends in the buffer, and so do the strings of every row that the second
block begins, of which there are as many as the header has strings.
-/
structure Parses (blocks : Blocks) : Prop where
  header
    : blocks.header.bytes.length < 0x1000 ∨ blocks.header.bytes.getLast? = some 0
  rows
    : blocks.data.bytes = []
      ∨ (blocks.header.bytes ≠ []
        ∧ stringCount blocks.header.bytes
            * rowCount (stringCount blocks.data.bytes) (stringCount blocks.header.bytes)
          ≤ blocks.dataBuf.count 0)

/-- A string of the header that does not end in the block ends in the zeroed rest of the buffer,
if there is any.
-/
theorem header_strings_iff (blocks : Blocks)
    : stringCount blocks.header.bytes ≤ blocks.headerBuf.count 0
      ↔ blocks.header.bytes.length < 0x1000 ∨ blocks.header.bytes.getLast? = some 0 := by
  have fits := blocks.header.fits
  have zeros : blocks.headerBuf.count 0
      = blocks.header.bytes.count 0 + (0x1000 - blocks.header.bytes.length) := by
    simp only [headerBuf, recvInto, List.count_append, List.drop_replicate,
      List.count_replicate_self]
  rcases List.eq_nil_or_concat blocks.header.bytes with none | ⟨init, last, split⟩
  · simp [none, stringCount]
  · rw [zeros]
    rw [split, List.concat_eq_append] at fits ⊢
    by_cases zero : last = 0
    · simp [stringCount, zero]
    · simp only [stringCount, List.dropLast_concat, List.count_append, List.length_append,
        List.length_singleton] at fits ⊢
      simp [zero]
      omega

variable {Heading : Type} {fieldMap : List Byte → Heading} {blocks : Blocks}
  {list : CListCtrl Heading (List Byte)}

/-- For every two blocks, both loops end without reading past the buffer exactly when the header
gives a column and each string that they read ends in the buffer.
-/
theorem safe_iff_parses (fieldMap : List Byte → Heading) (blocks : Blocks)
    (list : CListCtrl Heading (List Byte))
    : blocks.Safe fieldMap list ↔ blocks.Parses := by
  have parsed := @insertColumns_cases blocks.header.bytes
    ((List.replicate 0x1000 0).drop blocks.header.bytes.length) _ fieldMap list 0 0
  have buf : blocks.header.bytes ++ (List.replicate 0x1000 0).drop blocks.header.bytes.length
      = blocks.headerBuf := rfl
  rw [List.drop_zero, List.drop_zero, Nat.zero_add, buf] at parsed
  rw [safe_iff_loops, loops]
  rcases parsed with ⟨enough, shown, inserted⟩ | ⟨missing, nothing⟩
  · have header := blocks.header_strings_iff.mp enough
    rw [inserted]
    simp only [Option.bind_eq_bind, Option.bind_some]
    by_cases empty : blocks.data.bytes = []
    · rw [if_pos (by rw [empty]; rfl)]
      exact iff_of_true rfl ⟨header, Or.inl empty⟩
    · have length := List.length_pos_iff.mpr empty
      rw [if_neg (by omega)]
      by_cases none : blocks.header.bytes = []
      · have noColumn : stringCount blocks.header.bytes = 0 := by rw [none]; rfl
        rw [noColumn, insertRows_without_column length]
        refine iff_of_false (by simp) (fun parses => ?_)
        rcases parses.rows with nothing | ⟨some, _⟩
        · exact empty nothing
        · exact some none
      · have column : 0 < stringCount blocks.header.bytes := by simp [stringCount, none]
        have rows := @insertRows_isSome_iff _ blocks.data.bytes
          (blocks.headerBuf.drop blocks.data.bytes.length) _ column shown 0 0
        have dataBuf : blocks.data.bytes ++ blocks.headerBuf.drop blocks.data.bytes.length
            = blocks.dataBuf := rfl
        rw [List.drop_zero, List.drop_zero, dataBuf] at rows
        rw [rows]
        constructor
        · exact fun ends => ⟨header, Or.inr ⟨none, ends⟩⟩
        · intro parses
          rcases parses.rows with nothing | ⟨_, ends⟩
          · exact absurd nothing empty
          · exact ends
  · rw [nothing]
    refine iff_of_false (by simp) (fun parses => ?_)
    have enough := blocks.header_strings_iff.mpr parses.header
    omega

/-- A header without a name, and one row byte: the loop over the rows never ends. -/
theorem not_safe_without_names
    : ¬ ∀ (fieldMap : List Byte → String) (blocks : Blocks)
          (list : CListCtrl String (List Byte)),
        blocks.Safe fieldMap list := by
  intro safe
  let blocks : Blocks := ⟨⟨[], by decide⟩, ⟨[0], by decide⟩⟩
  let list : CListCtrl String (List Byte) := ⟨[], []⟩
  have reached : Reaches (blocks.step Exchange.fieldMap) (.columns list 0 0) (.rows list 0 0 0) :=
    Relation.ReflTransGen.single rfl
  exact not_safe_without_column (by decide) reached (safe Exchange.fieldMap blocks list)

end Blocks

end SchoolSystem.Exchange
