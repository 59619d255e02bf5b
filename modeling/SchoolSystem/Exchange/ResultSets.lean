import Mathlib.Algebra.Order.BigOperators.Group.List
import SchoolSystem.Dialog.Database
import SchoolSystem.Exchange.ShowList
import SchoolSystem.Library.Joins

/-! The result sets that the schema of `CreateTables` admits for the client's `SELECT` statements,
and which of them `SendResByteAry` sends as a whole.
-/

namespace SchoolSystem.Exchange

open TcpSocket Dialog
open scoped List

-----------------------------------------------------------------------------------------
-- The schema
-----------------------------------------------------------------------------------------

/-- The number of characters in the connection's character set `gbk`. -/
def gbkLength : List Byte → Nat
  | [] => 0
  | [_] => 1
  | lead :: trail :: rest =>
      if lead < 0x81 then gbkLength (trail :: rest) + 1 else gbkLength rest + 1

/-- A value of a `varchar(64)` column. -/
structure Varchar64 where
  bytes : List Byte
  short : gbkLength bytes ≤ 64

/-- The text that the database makes of a `float`. -/
structure FloatText where
  bytes : List Byte
  digits : ∀ byte ∈ bytes, byte ∈ asciiBytes "+-.0123456789e"

structure ClassRow where
  classId : Varchar64
  className : Varchar64

structure StudentRow where
  stuId : Varchar64
  stuName : Varchar64
  classId : Varchar64

structure CourseRow where
  courseId : Varchar64
  courseName : Varchar64

/-- `score` may be NULL. -/
structure SelectRow where
  stuId : Varchar64
  courseId : Varchar64
  score : Option FloatText

/-- The four tables with their primary and foreign keys, for a collation that tells which values
are equal.
-/
structure School (equal : Varchar64 → Varchar64 → Bool) where
  tClass : List ClassRow
  tStudent : List StudentRow
  tCourse : List CourseRow
  tSelect : List SelectRow
  classKey : tClass.Pairwise (fun row other => equal row.classId other.classId = false)
  studentKey : tStudent.Pairwise (fun row other => equal row.stuId other.stuId = false)
  courseKey : tCourse.Pairwise (fun row other => equal row.courseId other.courseId = false)
  selectKey
    : tSelect.Pairwise
        (fun row other =>
          (equal row.stuId other.stuId && equal row.courseId other.courseId) = false)
  fkClassId : ∀ row ∈ tStudent, ∃ parent ∈ tClass, equal row.classId parent.classId = true
  fkCourseId : ∀ row ∈ tSelect, ∃ parent ∈ tCourse, equal row.courseId parent.courseId = true
  fkStuId : ∀ row ∈ tSelect, ∃ parent ∈ tStudent, equal row.stuId parent.stuId = true

-----------------------------------------------------------------------------------------
-- The result sets
-----------------------------------------------------------------------------------------

/-- A `MYSQL_ROW`: a cell that is NULL is `none`. -/
abbrev ResultRow := List (Option (List Byte))

def ClassRow.cells (row : ClassRow) : ResultRow :=
  [some row.classId.bytes, some row.className.bytes]

def StudentRow.cells (row : StudentRow) : ResultRow :=
  [some row.stuId.bytes, some row.stuName.bytes, some row.classId.bytes]

def CourseRow.cells (row : CourseRow) : ResultRow :=
  [some row.courseId.bytes, some row.courseName.bytes]

def SelectRow.cells (row : SelectRow) : ResultRow :=
  [some row.stuId.bytes, some row.courseId.bytes, row.score.map FloatText.bytes]

variable {equal : Varchar64 → Varchar64 → Bool}

namespace School

/-- `SELECT *` from the table of a tab. -/
def table (school : School equal) : Tab → List ResultRow
  | .student => school.tStudent.map StudentRow.cells
  | .course => school.tCourse.map CourseRow.cells
  | .clazz => school.tClass.map ClassRow.cells
  | .select => school.tSelect.map SelectRow.cells

/-- The subquery `A`: the students with their classes. -/
def unionStudents (school : School equal) : List (StudentRow × Option ClassRow) :=
  Joins.leftOuter school.tStudent school.tClass
    (fun row parent => equal row.classId parent.classId)

/-- The subquery `B`: the selected courses with their names. -/
def unionCourses (school : School equal) : List (SelectRow × Option CourseRow) :=
  Joins.leftOuter school.tSelect school.tCourse
    (fun row parent => equal row.courseId parent.courseId)

/-- The rows of the query of `OnBnClickedButtonUnionSelect`. -/
def union (school : School equal) : List ResultRow :=
  (Joins.inner school.unionStudents school.unionCourses
      (fun a b => equal a.1.stuId b.1.stuId)).map
    fun (a, b) =>
      a.1.cells
      ++ [
        a.2.map (fun clazz => clazz.className.bytes),
        some b.1.courseId.bytes,
        b.2.map (fun course => course.courseName.bytes),
        b.1.score.map FloatText.bytes
      ]

end School

def unionColumns : List String :=
  ["stu_id", "stu_name", "class_id", "class_name", "course_id", "course_name", "score"]

/-- The result sets of the handlers that call `ShowList`. The database chooses the order of the
rows, and a search keeps the rows that meet its conditions.
-/
inductive Selects (school : School equal)
    : Request → List (List Byte) → List ResultRow → Prop
  | initDialog {rows} (order : rows ~ school.table .student)
    : Selects school .initDialog (Tab.student.columns.map asciiBytes) rows
  | tabChange (tab) {rows} (order : rows ~ school.table tab)
    : Selects school (.tabChange tab) (tab.columns.map asciiBytes) rows
  | search (dlg) (meets : ResultRow → Bool) {rows}
      (order : rows ~ (school.table dlg.tab).filter meets)
    : Selects school (.call (.search dlg)) (dlg.tab.columns.map asciiBytes) rows
  | unionSelect {rows} (order : rows ~ school.union)
    : Selects school .unionSelect (unionColumns.map asciiBytes) rows

/-- A string with its terminator. -/
def terminated (bytes : List Byte) : List Byte := bytes ++ [0]

/-- `SendResByteAry` stays in its buffer, reads no null pointer, and sends all of the names and all
of the cells.
-/
def SendsAll (names : List (List Byte)) (rows : List ResultRow) : Prop :=
  ∃ values : List (List Byte),
    rows.flatten = values.map some
    ∧ sendResByteAry names rows
      = some
          [
            intBytes (lengthOf (names.flatMap terminated)),
            names.flatMap terminated,
            intBytes (lengthOf (values.flatMap terminated)),
            values.flatMap terminated
          ]

/-- What a cell takes in the buffer. -/
def cellSize : Option (List Byte) → Nat
  | none => 0
  | some bytes => bytes.length + 1

def scoreName : List Byte := asciiBytes "score"

/-- No score is NULL, no cell holds a zero byte, and the cells fit into the buffer. -/
structure Writable (names : List (List Byte)) (rows : List ResultRow) : Prop where
  scores : ∀ row ∈ rows, row[names.idxOf scoreName]? ≠ some none
  nulFree : ∀ row ∈ rows, ∀ cell ∈ row, ∀ bytes ∈ cell, NulFree bytes
  fits : (rows.flatten.map cellSize).sum ≤ 0x1000

-----------------------------------------------------------------------------------------
-- Where a cell can be NULL
-----------------------------------------------------------------------------------------

variable {school : School equal} {request : Request} {names : List (List Byte)}
  {rows : List ResultRow} {row : ResultRow}

namespace School

theorem table_null {tab : Tab} (present : row ∈ school.table tab) (null : none ∈ row)
    : row[(tab.columns.map asciiBytes).idxOf scoreName]? = some none := by
  cases tab with
  | student =>
      obtain ⟨found, _, rfl⟩ := List.mem_map.mp present
      simp [StudentRow.cells] at null
  | course =>
      obtain ⟨found, _, rfl⟩ := List.mem_map.mp present
      simp [CourseRow.cells] at null
  | clazz =>
      obtain ⟨found, _, rfl⟩ := List.mem_map.mp present
      simp [ClassRow.cells] at null
  | select =>
      obtain ⟨found, _, rfl⟩ := List.mem_map.mp present
      have score : found.score = none := by simpa [SelectRow.cells] using null
      have index : (Tab.select.columns.map asciiBytes).idxOf scoreName = 2 := by decide
      simp [SelectRow.cells, score, index]

/-- Every student has a class and every selection a course, so that the left joins add no NULL. -/
theorem union_null (present : row ∈ school.union) (null : none ∈ row)
    : row[(unionColumns.map asciiBytes).idxOf scoreName]? = some none := by
  obtain ⟨⟨a, b⟩, joined, rfl⟩ := List.mem_map.mp present
  obtain ⟨fromA, fromB, _⟩ := Joins.mem_inner.mp joined
  rw [unionStudents, Joins.leftOuter_eq_map_inner school.fkClassId] at fromA
  rw [unionCourses, Joins.leftOuter_eq_map_inner school.fkCourseId] at fromB
  obtain ⟨⟨student, clazz⟩, _, rfl⟩ := List.mem_map.mp fromA
  obtain ⟨⟨select, course⟩, _, rfl⟩ := List.mem_map.mp fromB
  have score : select.score = none := by simpa [StudentRow.cells] using null
  have index : (unionColumns.map asciiBytes).idxOf scoreName = 6 := by decide
  simp [StudentRow.cells, score, index]

end School

/-- Only a score can be NULL. -/
theorem Selects.null (selects : Selects school request names rows) (present : row ∈ rows)
    (null : none ∈ row)
    : row[names.idxOf scoreName]? = some none := by
  cases selects with
  | initDialog order => exact School.table_null (order.mem_iff.mp present) null
  | tabChange tab order => exact School.table_null (order.mem_iff.mp present) null
  | search dlg meets order =>
      exact School.table_null (List.mem_of_mem_filter (order.mem_iff.mp present)) null
  | unionSelect order => exact School.union_null (order.mem_iff.mp present) null

/-- The names have no zero byte, and fit into the buffer. -/
theorem Selects.header (selects : Selects school request names rows)
    : names.flatMap cString = names.flatMap terminated
      ∧ (names.flatMap terminated).length ≤ 0x1000 := by
  have ofTab (tab : Tab)
      : (tab.columns.map asciiBytes).flatMap cString
          = (tab.columns.map asciiBytes).flatMap terminated
        ∧ ((tab.columns.map asciiBytes).flatMap terminated).length ≤ 0x1000 := by
    cases tab <;> decide
  cases selects with
  | initDialog => exact ofTab .student
  | tabChange tab => exact ofTab tab
  | search dlg => exact ofTab dlg.tab
  | unionSelect => decide

-----------------------------------------------------------------------------------------
-- What is sent
-----------------------------------------------------------------------------------------

/-- A zero byte in a cell cuts it off. -/
theorem cString_eq_iff {bytes : List Byte} : cString bytes = terminated bytes ↔ NulFree bytes := by
  rw [cString, terminated, List.append_left_inj, List.takeWhile_eq_self_iff]
  exact ⟨fun nonzero zero => by simpa using nonzero 0 zero, NulFree.ne_zero⟩

theorem cString_length_le (bytes : List Byte)
    : (cString bytes).length ≤ (terminated bytes).length := by
  have shorter : (bytes.takeWhile (fun byte => byte != 0)).length ≤ bytes.length :=
    (List.takeWhile_prefix _).length_le
  simpa [cString, terminated] using shorter

theorem flatMap_cString_length_le (values : List (List Byte))
    : (values.flatMap cString).length ≤ (values.flatMap terminated).length := by
  induction values with
  | nil => exact Nat.le_refl 0
  | cons bytes rest ih =>
      have first := cString_length_le bytes
      simp only [List.flatMap_cons, List.length_append]
      omega

/-- Cells that are cut off make the block shorter, by induction on the cells. -/
theorem flatMap_cString_eq_iff {values : List (List Byte)}
    : values.flatMap cString = values.flatMap terminated ↔ ∀ bytes ∈ values, NulFree bytes := by
  induction values with
  | nil => simp
  | cons bytes rest ih =>
      rw [List.flatMap_cons, List.flatMap_cons, List.forall_mem_cons, ← cString_eq_iff, ← ih]
      constructor
      · intro same
        have lengths := congrArg List.length same
        have first := cString_length_le bytes
        have later := flatMap_cString_length_le rest
        simp only [List.length_append] at lengths
        exact List.append_inj same (by omega)
      · intro ⟨first, later⟩
        rw [first, later]

theorem cells_eq_some {values : List (List Byte)}
    : cells rows = some values ↔ rows.flatten = values.map some := by
  rw [cells]
  induction rows.flatten generalizing values with
  | nil => cases values <;> simp
  | cons cell rest ih =>
      cases cell with
      | none => cases values <;> simp
      | some bytes =>
          cases values with
          | nil => simp [Option.bind_eq_some_iff]
          | cons value more => simp [Option.bind_eq_some_iff, ih, and_comm]

/-- Without NULL the cells are the strings of a list. -/
theorem exists_map_some {values : List (Option (List Byte))} (present : none ∉ values)
    : ∃ bytes : List (List Byte), values = bytes.map some := by
  induction values with
  | nil => exact ⟨[], rfl⟩
  | cons cell rest ih =>
      obtain ⟨bytes, rfl⟩ := ih (fun null => present (List.mem_cons_of_mem cell null))
      cases cell with
      | none => exact absurd List.mem_cons_self present
      | some value => exact ⟨value :: bytes, rfl⟩

theorem cellSize_sum {values : List (List Byte)} (flat : rows.flatten = values.map some)
    : (rows.flatten.map cellSize).sum = (values.flatMap terminated).length := by
  rw [flat, List.map_map, List.length_flatMap]
  congr 1
  exact List.map_congr_left (fun bytes _ => by simp [cellSize, terminated])

theorem SendsAll.writable (sends : SendsAll names rows) : Writable names rows := by
  obtain ⟨values, flat, sent⟩ := sends
  obtain ⟨_, found, flatFound, dataFits, same⟩ := sendResByteAry_eq_some.mp sent
  obtain rfl : found = values := by
    have maps := (cells_eq_some.mp flatFound).symm.trans flat
    exact List.map_injective_iff.mpr (Option.some_injective _) maps
  have data : found.flatMap terminated = found.flatMap cString := by
    simp only [List.cons.injEq] at same
    exact same.2.2.2.1
  have member {row : ResultRow} {cell : Option (List Byte)} (present : row ∈ rows)
      (inside : cell ∈ row)
      : cell ∈ found.map some :=
    flat ▸ List.mem_flatten.mpr ⟨row, present, inside⟩
  constructor
  · intro row present score
    simpa using member present (List.mem_of_getElem? score)
  · rintro row present _ inside bytes ⟨⟩
    have among : bytes ∈ found := by simpa using member present inside
    exact flatMap_cString_eq_iff.mp data.symm bytes among
  · rw [cellSize_sum flat, data]
    exact dataFits

/-- `SendResByteAry` sends a result set as a whole exactly when no score in it is NULL, no cell
holds a zero byte, and all cells fit into the buffer.
-/
theorem Selects.sendsAll_iff (selects : Selects school request names rows)
    : SendsAll names rows ↔ Writable names rows := by
  refine ⟨SendsAll.writable, fun writable => ?_⟩
  obtain ⟨header, headerFits⟩ := selects.header
  have present : none ∉ rows.flatten := by
    intro null
    obtain ⟨row, present, inside⟩ := List.mem_flatten.mp null
    exact writable.scores row present (selects.null present inside)
  obtain ⟨values, flat⟩ := exists_map_some present
  have nulFree (bytes : List Byte) (among : bytes ∈ values) : NulFree bytes := by
    have cell : some bytes ∈ rows.flatten := flat ▸ List.mem_map_of_mem among
    obtain ⟨row, present, inside⟩ := List.mem_flatten.mp cell
    exact writable.nulFree row present _ inside bytes rfl
  have data := flatMap_cString_eq_iff.mpr nulFree
  have dataFits := writable.fits
  rw [cellSize_sum flat] at dataFits
  refine ⟨values, flat, sendResByteAry_eq_some.mpr ?_⟩
  rw [header]
  exact ⟨headerFits, values, cells_eq_some.mpr flat, data ▸ dataFits, by rw [data]⟩

/-- One student with a class and one selected course with its score. -/
theorem sendsAll_unionSelect
    : SendsAll (unionColumns.map asciiBytes)
        [[some [49], some [65], some [50], some [66], some [51], some [67], some [57, 48]]] := by
  let school : School (fun value other => value.bytes == other.bytes) :=
    {
      tClass := [⟨⟨[50], by decide⟩, ⟨[66], by decide⟩⟩]
      tStudent := [⟨⟨[49], by decide⟩, ⟨[65], by decide⟩, ⟨[50], by decide⟩⟩]
      tCourse := [⟨⟨[51], by decide⟩, ⟨[67], by decide⟩⟩]
      tSelect := [⟨⟨[49], by decide⟩, ⟨[51], by decide⟩, some ⟨[57, 48], by decide +kernel⟩⟩]
      classKey := by decide
      studentKey := by decide
      courseKey := by decide
      selectKey := by decide
      fkClassId := by decide
      fkCourseId := by decide
      fkStuId := by decide
    }
  have selects : Selects school .unionSelect (unionColumns.map asciiBytes) school.union :=
    .unionSelect .rfl
  exact selects.sendsAll_iff.mpr ⟨by decide, by decide, by decide⟩

/-- Thirty-two classes whose names are sixty-four characters of two bytes. -/
theorem not_sendsAll_longNames
    : ¬ ∀ (school : School (fun value other => value.bytes == other.bytes)) request names rows,
          Selects school request names rows → SendsAll names rows := by
  intro sends
  let longName : Varchar64 := ⟨List.replicate 128 0xB0, by decide +kernel⟩
  let school : School (fun value other => value.bytes == other.bytes) :=
    {
      tClass :=
        (List.range 32).map
          (fun index => ⟨⟨[UInt8.ofNat (65 + index)], by simp [gbkLength]⟩, longName⟩)
      tStudent := []
      tCourse := []
      tSelect := []
      classKey := by decide +kernel
      studentKey := .nil
      courseKey := .nil
      selectKey := .nil
      fkClassId := nofun
      fkCourseId := nofun
      fkStuId := nofun
    }
  have fits := (sends school (.tabChange .clazz) _ _ (.tabChange .clazz .rfl)).writable.fits
  have size : ((school.table .clazz).flatten.map cellSize).sum = 4192 := by decide +kernel
  rw [size] at fits
  exact absurd fits (by decide)

end SchoolSystem.Exchange
