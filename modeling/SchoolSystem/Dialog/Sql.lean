import SchoolSystem.Library.QuotedLiteral

/-! The SQL texts that the handlers of `CSchoolSystemDlg` build from what the user entered
and from the cells of the list.
-/

namespace SchoolSystem.Dialog

open QuotedLiteral (Statement Safe lex)

abbrev Text := List Char

structure CStudentDlg where
  strStuId : Text
  strStuName : Text
  strClassId : Text

structure CCourseDlg where
  strCourseId : Text
  strCourseName : Text

structure CClassDlg where
  strClassId : Text
  strClassName : Text

structure CSelectDlg where
  strStuId : Text
  strCourseId : Text
  strScore : Text

/-- The tabs, in the order of `m_nCurTabSel`. -/
inductive Tab
  | student
  | course
  | clazz
  | select
  deriving DecidableEq, Repr

/-- The dialog that a handler shows on each tab, with what was entered. -/
inductive Dlg
  | student (dlg : CStudentDlg)
  | course (dlg : CCourseDlg)
  | clazz (dlg : CClassDlg)
  | select (dlg : CSelectDlg)

def Dlg.tab : Dlg → Tab
  | .student _ => .student
  | .course _ => .course
  | .clazz _ => .clazz
  | .select _ => .select

/-- How a text is built: `Format` with its arguments, or a text to which a condition is added
for every field that is not empty.
-/
inductive Source
  | format (template : String) (args : List Text)
  | search (text : String) (conditions : List (String × Text))

def insertSource : Dlg → Source
  | .student dlg =>
      .format "INSERT INTO t_student (stu_id, stu_name, class_id) VALUES ('%s', '%s', '%s')"
        [dlg.strStuId, dlg.strStuName, dlg.strClassId]
  | .course dlg =>
      .format "INSERT INTO t_course (course_id, course_name) VALUES ('%s', '%s')"
        [dlg.strCourseId, dlg.strCourseName]
  | .clazz dlg =>
      .format "INSERT INTO t_class (class_id, class_name) VALUES ('%s', '%s')"
        [dlg.strClassId, dlg.strClassName]
  | .select dlg =>
      .format "INSERT INTO t_select (stu_id, course_id, score) VALUES ('%s', '%s', '%s')"
        [dlg.strStuId, dlg.strCourseId, dlg.strScore]

/-- `strId` and `strCourseId` are the first two cells of the selected row. -/
def deleteSource (strId strCourseId : Text) : Tab → Source
  | .student => .format "DELETE FROM t_student WHERE stu_id = '%s'" [strId]
  | .course => .format "DELETE FROM t_course WHERE course_id = '%s'" [strId]
  | .clazz => .format "DELETE FROM t_class WHERE class_id = '%s'" [strId]
  | .select =>
      .format "DELETE FROM t_select WHERE stu_id = '%s' AND course_id = '%s'"
        [strId, strCourseId]

/-- `strId` is the first cell of the selected row. -/
def updateSource (strId : Text) : Dlg → Source
  | .student dlg =>
      .format
        "UPDATE t_student SET stu_id = '%s', stu_name = '%s', class_id = '%s' WHERE (stu_id = '%s');"
        [dlg.strStuId, dlg.strStuName, dlg.strClassId, strId]
  | .course dlg =>
      .format
        "UPDATE t_course SET course_id = '%s', course_name = '%s' WHERE (course_id = '%s');"
        [dlg.strCourseId, dlg.strCourseName, strId]
  | .clazz dlg =>
      .format
        "UPDATE t_class SET class_id = '%s', class_name = '%s' WHERE (class_id = '%s');"
        [dlg.strClassId, dlg.strClassName, strId]
  | .select dlg =>
      .format
        "UPDATE t_select SET score = '%s' WHERE (stu_id = '%s') and (course_id = '%s');"
        [dlg.strScore, dlg.strStuId, dlg.strCourseId]

def selectSource : Dlg → Source
  | .student dlg =>
      .search "SELECT * FROM t_student WHERE true"
        [("stu_id", dlg.strStuId), ("stu_name", dlg.strStuName),
          ("class_id", dlg.strClassId)]
  | .course dlg =>
      .search "SELECT * FROM t_course WHERE true"
        [("course_id", dlg.strCourseId), ("course_name", dlg.strCourseName)]
  | .clazz dlg =>
      .search "SELECT * FROM t_class WHERE true"
        [("class_id", dlg.strClassId), ("class_name", dlg.strClassName)]
  | .select dlg =>
      .search "SELECT * FROM t_select WHERE true"
        [("stu_id", dlg.strStuId), ("course_id", dlg.strCourseId), ("score", dlg.strScore)]

/-- The handlers that put strings into their text. -/
inductive Handler
  | insert (tab : Tab)
  | delete (tab : Tab)
  | update (tab : Tab)
  | search (tab : Tab)
  deriving DecidableEq, Repr

/-- A handler that runs, with its strings. -/
inductive Call
  | insert (dlg : Dlg)
  | delete (strId strCourseId : Text) (tab : Tab)
  | update (strId : Text) (dlg : Dlg)
  | search (dlg : Dlg)

def Call.handler : Call → Handler
  | .insert dlg => .insert dlg.tab
  | .delete _ _ tab => .delete tab
  | .update _ dlg => .update dlg.tab
  | .search dlg => .search dlg.tab

def Call.source : Call → Source
  | .insert dlg => insertSource dlg
  | .delete strId strCourseId tab => deleteSource strId strCourseId tab
  | .update strId dlg => updateSource strId dlg
  | .search dlg => selectSource dlg

/-- `CString::Format` with `%s` as the only conversion. -/
def format : Text → List Text → Text
  | '%' :: 's' :: rest, arg :: args => arg ++ format rest args
  | char :: rest, args => char :: format rest args
  | [], _ => []

/-- `sql += " AND field = '" + value + "'"`, unless the value is empty. -/
def addCondition (sql : Text) (condition : String × Text) : Text :=
  if condition.2.isEmpty then
    sql
  else
    sql
    ++ (" AND ".toList ++ condition.1.toList ++ " = '".toList ++ condition.2 ++ "'".toList)

def Source.sql : Source → Text
  | .format template args => Dialog.format template.toList args
  | .search text conditions => conditions.foldl addCondition text.toList

/-- The text that a handler passes to `SendSql`. -/
def Call.sql (call : Call) : Text := call.source.sql

/-- The text of `OnTcnSelchangeTab`, and of `OnInitDialog` for the first tab. -/
def tabSql : Tab → String
  | .student => "SELECT * FROM t_student"
  | .course => "SELECT * FROM t_course"
  | .clazz => "SELECT * FROM t_class"
  | .select => "SELECT * FROM t_select"

def unionSql : String :=
  "select A.*, B.course_id, B.course_name, B.score from (select t_student.*, t_class.class_name from t_student left join t_class on t_student.class_id = t_class.class_id) as A "
  ++ "inner join(select t_select.stu_id, t_select.course_id, t_course.course_name, t_select.score from t_select left join t_course on t_select.course_id = t_course.course_id) as B "
  ++ "on A.stu_id = B.stu_id;"

-----------------------------------------------------------------------------------------
-- Statements
-----------------------------------------------------------------------------------------

/-- Cuts a template at each `%s` between quotes: the pieces before them, and the end. -/
def holes : Text → List Text × Text
  | '\'' :: '%' :: 's' :: '\'' :: rest =>
      let (pieces, final) := holes rest
      ([] :: pieces, final)
  | char :: rest =>
      match holes rest with
      | ([], final) => ([], char :: final)
      | (piece :: pieces, final) => ((char :: piece) :: pieces, final)
  | [] => ([], [])

/-- A template has this many holes, and its pieces hold neither a quote nor another
conversion.
-/
def Quoted (template : Text) (count : Nat) : Prop :=
  let (pieces, final) := holes template
  pieces.length = count
  ∧ (∀ piece ∈ pieces, piece ≠ [] ∧ '\'' ∉ piece ∧ '%' ∉ piece)
  ∧ '\'' ∉ final
  ∧ '%' ∉ final

instance (template : Text) (count : Nat) : Decidable (Quoted template count) :=
  inferInstanceAs (Decidable (_ ∧ _ ∧ _ ∧ _))

def formatStatement (template : Text) (args : List Text) : Statement where
  parts := (holes template).1.zip args
  final := (holes template).2

/-- A text and a condition for each field. -/
def searchStatement (text : Text) : List (String × Text) → Statement
  | [] => ⟨[], text⟩
  | (field, value) :: rest =>
      let later := searchStatement [] rest
      ⟨(text ++ (" AND ".toList ++ field.toList ++ " = ".toList), value) :: later.parts,
        later.final⟩

def filled (conditions : List (String × Text)) : List (String × Text) :=
  conditions.filter (fun condition => !condition.2.isEmpty)

/-- The statement that a handler means, with one literal for every string it puts into it. -/
def Source.statement : Source → Statement
  | .format template args => formatStatement template.toList args
  | .search text conditions => searchStatement text.toList (filled conditions)

/-- The statement with one literal for each of the handler's strings, also for the fields that
a search leaves out because they are empty.
-/
def Source.fullStatement : Source → Statement
  | .format template args => formatStatement template.toList args
  | .search text conditions => searchStatement text.toList conditions

/-- The strings of a handler. -/
def Source.args : Source → List Text
  | .format _ args => args
  | .search _ conditions => conditions.map Prod.snd

/-- A search leaves no field out. -/
def Source.Complete : Source → Prop
  | .format _ _ => True
  | .search _ conditions => ∀ condition ∈ conditions, condition.2 ≠ []

end SchoolSystem.Dialog
