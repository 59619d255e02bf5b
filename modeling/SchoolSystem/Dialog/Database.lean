import Mathlib.Logic.Function.Basic
import SchoolSystem.Dialog.Quoting

/-! The tables that `CServer::CreateTables` creates, and the statements by which the handlers of
the dialog change them.
-/

namespace SchoolSystem.Dialog

open QuotedLiteral (Safe Statement lex)

abbrev Row := List Text

def Tab.table : Tab → String
  | .student => "t_student"
  | .course => "t_course"
  | .clazz => "t_class"
  | .select => "t_select"

def Tab.columns : Tab → List String
  | .student => ["stu_id", "stu_name", "class_id"]
  | .course => ["course_id", "course_name"]
  | .clazz => ["class_id", "class_name"]
  | .select => ["stu_id", "course_id", "score"]

def Tab.primaryKey : Tab → List String
  | .student => ["stu_id"]
  | .course => ["course_id"]
  | .clazz => ["class_id"]
  | .select => ["stu_id", "course_id"]

/-- `FOREIGN KEY(column) REFERENCES table(key)`. -/
structure ForeignKey where
  column : String
  table : Tab
  key : String

def Tab.foreignKeys : Tab → List ForeignKey
  | .student => [⟨"class_id", .clazz, "class_id"⟩]
  | .course | .clazz => []
  | .select => [⟨"course_id", .course, "course_id"⟩, ⟨"stu_id", .student, "stu_id"⟩]

/-- The value of a column in a row of the tab's table. -/
def Tab.value (tab : Tab) (row : Row) (column : String) : Text :=
  row.getD (tab.columns.idxOf column) []

def Tab.key (tab : Tab) (row : Row) : List Text := tab.primaryKey.map (tab.value row)

/-- The constraints of `CreateTables`. -/
structure Conforms (tables : Tab → List Row) : Prop where
  width : ∀ tab, ∀ row ∈ tables tab, row.length = tab.columns.length
  keys : ∀ tab, ((tables tab).map tab.key).Nodup
  references
    : ∀ tab, ∀ foreign ∈ tab.foreignKeys, ∀ row ∈ tables tab,
        tab.value row foreign.column
        ∈ (tables foreign.table).map
          (fun parent => foreign.table.value parent foreign.key)

instance decidableForallTab {holds : Tab → Prop} [∀ tab, Decidable (holds tab)]
    : Decidable (∀ tab, holds tab) :=
  decidable_of_iff (holds .student ∧ holds .course ∧ holds .clazz ∧ holds .select)
    ⟨fun all tab => by cases tab <;> simp [all], fun all => ⟨all _, all _, all _, all _⟩⟩

instance (tables : Tab → List Row) : Decidable (Conforms tables) :=
  decidable_of_iff
    ((∀ tab, ∀ row ∈ tables tab, row.length = tab.columns.length)
      ∧ (∀ tab, ((tables tab).map tab.key).Nodup)
      ∧ ∀ tab, ∀ foreign ∈ tab.foreignKeys, ∀ row ∈ tables tab,
          tab.value row foreign.column
          ∈ (tables foreign.table).map
            (fun parent => foreign.table.value parent foreign.key))
    ⟨fun all => ⟨all.1, all.2.1, all.2.2⟩, fun all => ⟨all.width, all.keys, all.references⟩⟩

structure Database where
  tables : Tab → List Row
  conforms : Conforms tables

-----------------------------------------------------------------------------------------
-- Statements that change a table
-----------------------------------------------------------------------------------------

/-- `INSERT` of a row for all columns, `DELETE`, and `UPDATE`, the last two with the values that
their conditions ask for.
-/
inductive Dml
  | insert (tab : Tab) (row : Row)
  | delete (tab : Tab) (conditions : List (String × Text))
  | update (tab : Tab) (changes conditions : List (String × Text))

def Dml.tab : Dml → Tab
  | .insert tab _ | .delete tab _ | .update tab _ _ => tab

def Dml.conditions : Dml → List (String × Text)
  | .insert _ _ => []
  | .delete _ conditions | .update _ _ conditions => conditions

def Tab.meets (tab : Tab) (conditions : List (String × Text)) (row : Row) : Bool :=
  conditions.all (fun condition => tab.value row condition.1 == condition.2)

def Tab.change (tab : Tab) (changes : List (String × Text)) (row : Row) : Row :=
  changes.foldl (fun row change => row.set (tab.columns.idxOf change.1) change.2) row

/-- The rows of its table after a statement. -/
def Dml.apply : Dml → List Row → List Row
  | .insert _ row, rows => rows ++ [row]
  | .delete tab conditions, rows => rows.filter (fun row => !tab.meets conditions row)
  | .update tab changes conditions, rows =>
      rows.map (fun row => if tab.meets conditions row then tab.change changes row else row)

/-- `mysql_affected_rows`: an `UPDATE` counts the rows that it makes different. -/
def Dml.affected : Dml → List Row → Nat
  | .insert _ _, _ => 1
  | .delete tab conditions, rows => rows.countP (tab.meets conditions)
  | .update tab changes conditions, rows =>
      rows.countP (fun row => tab.meets conditions row && tab.change changes row != row)

/-- The reply to a statement, which changes nothing when it violates a constraint. Values are kept
and compared as they are given, also a score, whose column is a `FLOAT`.
-/
def Database.execute (db : Database) (dml : Dml) : Database × Int32 :=
  let tables := Function.update db.tables dml.tab (dml.apply (db.tables dml.tab))
  if conforms : Conforms tables then
    (⟨tables, conforms⟩, Int32.ofNat (dml.affected (db.tables dml.tab)))
  else
    (db, -1)

/-- What is written before each value of an `INSERT`, and behind the last. -/
def insertPieces (tab : Tab) : List Text × Text :=
  let columns := tab.columns.map String.toList
  let first :=
    "INSERT INTO ".toList ++ tab.table.toList ++ " (".toList
    ++ List.intercalate ", ".toList columns ++ ") VALUES (".toList
  (first :: columns.tail.map (fun _ => ", ".toList), ")".toList)

def conditionPieces (before between after : String) (columns : List String) : List Text :=
  match columns with
  | [] => []
  | first :: rest =>
      (before ++ first ++ after).toList
      :: rest.map (fun column => (between ++ column ++ after).toList)

/-- The statement with its values as literals. -/
def Dml.statement : Dml → Statement
  | .insert tab row => ⟨(insertPieces tab).1.zip row, (insertPieces tab).2⟩
  | .delete tab conditions =>
      ⟨(conditionPieces ("DELETE FROM " ++ tab.table ++ " WHERE ") " AND " " = "
          (conditions.map Prod.fst)).zip (conditions.map Prod.snd), []⟩
  | .update tab changes conditions =>
      ⟨(conditionPieces ("UPDATE " ++ tab.table ++ " SET ") ", " " = " (changes.map Prod.fst)
            ++ conditionPieces " WHERE (" ") and (" " = " (conditions.map Prod.fst)).zip
          (changes.map Prod.snd ++ conditions.map Prod.snd), ");".toList⟩

-----------------------------------------------------------------------------------------
-- The statements of the handlers
-----------------------------------------------------------------------------------------

/-- The strings of a dialog, in the order of the columns. -/
def Dlg.cells : Dlg → Row
  | .student dlg => [dlg.strStuId, dlg.strStuName, dlg.strClassId]
  | .course dlg => [dlg.strCourseId, dlg.strCourseName]
  | .clazz dlg => [dlg.strClassId, dlg.strClassName]
  | .select dlg => [dlg.strStuId, dlg.strCourseId, dlg.strScore]

/-- The statement that a handler of the dialog sends, if it changes a table. -/
def Call.dml : Call → Option Dml
  | .insert dlg => some (.insert dlg.tab dlg.cells)
  | .delete strId strCourseId .select =>
      some (.delete .select [("stu_id", strId), ("course_id", strCourseId)])
  | .delete strId _ .student => some (.delete .student [("stu_id", strId)])
  | .delete strId _ .course => some (.delete .course [("course_id", strId)])
  | .delete strId _ .clazz => some (.delete .clazz [("class_id", strId)])
  | .update strId (.student dlg) =>
      some
        (.update .student
          [("stu_id", dlg.strStuId), ("stu_name", dlg.strStuName), ("class_id", dlg.strClassId)]
          [("stu_id", strId)])
  | .update strId (.course dlg) =>
      some
        (.update .course
          [("course_id", dlg.strCourseId), ("course_name", dlg.strCourseName)]
          [("course_id", strId)])
  | .update strId (.clazz dlg) =>
      some
        (.update .clazz [("class_id", dlg.strClassId), ("class_name", dlg.strClassName)]
          [("class_id", strId)])
  | .update _ (.select dlg) =>
      some
        (.update .select [("score", dlg.strScore)]
          [("stu_id", dlg.strStuId), ("course_id", dlg.strCourseId)])
  | .search _ => none

/-- The text that a handler sends is the text of its statement. -/
theorem Call.dml_statement {call : Call} {dml : Dml} (sent : call.dml = some dml)
    : dml.statement = call.source.statement := by
  have piecewise : ∀ (template : String) (pieces : List Text) (final : Text) (args : List Text),
      holes template.toList = (pieces, final)
      → (⟨pieces.zip args, final⟩ : Statement)
        = (Source.format template args).statement := by
    intro template pieces final args cut
    rw [Source.statement, formatStatement, cut]
  cases call with
  | search dlg => cases sent
  | insert dlg =>
      cases Option.some.inj sent
      cases dlg <;> refine piecewise _ _ _ _ ?_ <;> dsimp only [Dlg.tab] <;> decide +kernel
  | delete strId strCourseId tab =>
      cases tab <;> cases Option.some.inj sent <;> refine piecewise _ _ _ _ ?_
        <;> simp only [List.map_cons, List.map_nil]
        <;> decide +kernel
  | update strId dlg =>
      cases dlg <;> cases Option.some.inj sent <;> refine piecewise _ _ _ _ ?_
        <;> simp only [List.map_cons, List.map_nil]
        <;> decide +kernel

/-- A server that reads the text of a handler whose strings are safe reads its statement. -/
theorem Call.lex_of_safe {call : Call} (safe : ∀ arg ∈ call.source.args, Safe arg)
    : lex call.sql = some call.source.statement.tokens := by
  rw [Call.sql, Source.sql_eq_render call.checked]
  exact Statement.lex_render (Source.statement_wellFormed call.checked)
    ((Source.statement_safe_iff call.checked).mpr safe)

/-- So it does when the statement changes a table. -/
theorem Call.lex_dml {call : Call} {dml : Dml} (sent : call.dml = some dml)
    (safe : ∀ arg ∈ call.source.args, Safe arg)
    : lex call.sql = some dml.statement.tokens := by
  rw [Call.dml_statement sent, Call.lex_of_safe safe]

end SchoolSystem.Dialog
