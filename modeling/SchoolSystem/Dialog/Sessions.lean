import SchoolSystem.Dialog.Mirror

/-! Whole sessions of the only client: it changes tabs, searches and edits what a search has left in
the list, and the list goes on showing rows of the table. The union query, whose rows belong to no
table, is left out. The database keeps and compares values as they are given, and every result fits
the blocks in which it is sent.
-/

namespace SchoolSystem.Exchange

/-- The list with more rows below those that are shown. -/
def CListCtrl.beside {Heading Cell : Type} (list : CListCtrl Heading Cell)
    (hidden : List (List Cell))
    : CListCtrl Heading Cell :=
  { list with rows := list.rows ++ hidden }

end SchoolSystem.Exchange

namespace SchoolSystem.Dialog

open scoped List
open Exchange (CListCtrl)
open QuotedLiteral (Safe lex)

/-- What a search asks for: the fields that are filled in. -/
def Source.conditions : Source → List (String × Text)
  | .format _ _ => []
  | .search _ conditions => filled conditions

/-- The row is one that `OnBnClickedButtonSelect` asks for. -/
def Dlg.asksFor (entered : Dlg) (row : Row) : Bool :=
  entered.tab.meets (selectSource entered).conditions row

/-- What the user does; dialogs were confirmed. The database chooses the order of the rows that it
sends.
-/
inductive SessionEvent
  | selchangeTab (curSel : Tab) (rows : List Row)
  | search (entered : Dlg) (rows : List Row)
  | edit (edit : Edit)

/-- `hidden` is kept for the proofs: the rows of the current tab's table that the last query left
out.
-/
structure Session where
  dlg : CSchoolSystemDlg
  db : Database
  hidden : List Row

namespace CSchoolSystemDlg

def beside (dlg : CSchoolSystemDlg) (hidden : List Row) : CSchoolSystemDlg :=
  { dlg with list := dlg.list.beside hidden }

end CSchoolSystemDlg

namespace Session

/-- After `OnInitDialog`. -/
def start (dlg : CSchoolSystemDlg) (db : Database) (rows : List Row) : Option Session :=
  if rows ~ db.tables .student then
    (dlg.onInitDialog (some rows)).map (fun dlg => ⟨dlg, db, []⟩)
  else
    none

def step (session : Session) : SessionEvent → Option Session
  | .selchangeTab curSel rows =>
      if rows ~ session.db.tables curSel then
        (session.dlg.onTcnSelchangeTab curSel (some rows)).map
          (fun dlg => { session with dlg, hidden := [] })
      else
        none
  | .search entered rows =>
      let table := session.db.tables entered.tab
      if rows ~ table.filter entered.asksFor then
        (session.dlg.onBnClickedButtonSelect (some rows) (some entered)).map
          (fun dlg =>
            { session with dlg, hidden := table.filter (fun row => !entered.asksFor row) })
      else
        none
  | .edit edit =>
      (session.dlg.handle session.db edit).map
        (fun (dlg, db, _) => { session with dlg, db })

/-- The shown rows and those that the last query left out are the rows of the table. -/
def ShowsAll (session : Session) : Prop :=
  (session.dlg.beside session.hidden).Shows session.db

/-- What the handler sends, if there are strings of the user or of the list in it. -/
def sent (session : Session) : SessionEvent → Option Call
  | .selchangeTab _ _ => none
  | .search entered _ => some (.search entered)
  | .edit edit => some (session.dlg.call edit)

/-- No string that is sent has a quote, nor a backslash but in `\%` and `\_`. -/
def SafeStrings (session : Session) (event : SessionEvent) : Prop :=
  ∀ call, session.sent event = some call → ∀ arg ∈ call.source.args, Safe arg

/-- The server reads from the text the statement whose effect the step has. -/
def ReadAsMeant (session : Session) (event : SessionEvent) : Prop :=
  ∀ call,
    session.sent event = some call
    → lex call.sql = some call.source.statement.tokens
      ∧ ∀ dml, call.dml = some dml → lex call.sql = some dml.statement.tokens

/-- A choice of a course that is changed is the selected one, or nothing changes. -/
def Aims (session : Session) : SessionEvent → Prop
  | .edit edit =>
      (session.dlg.handle session.db edit).isSome → session.dlg.Aims session.db edit
  | .selchangeTab _ _ | .search _ _ => True

end Session

-----------------------------------------------------------------------------------------
-- The handlers and the rows that are not shown
-----------------------------------------------------------------------------------------

section Beside

variable {list : CListCtrl String Text} {nItem nSubItem : Nat} {hidden : List Row}

theorem getItemText_beside (inside : nItem < list.rows.length)
    : (list.beside hidden).getItemText nItem nSubItem = list.getItemText nItem nSubItem := by
  have same : (list.rows ++ hidden).getD nItem [] = list.rows.getD nItem [] := by
    rw [List.getD_eq_getElem?_getD, List.getD_eq_getElem?_getD,
      List.getElem?_append_left inside]
  exact congrArg (fun row : Row => row.getD nSubItem []) same

theorem setItemText_beside (inside : nItem < list.rows.length) (text : Text)
    : (list.beside hidden).setItemText nItem nSubItem text
      = (list.setItemText nItem nSubItem text).beside hidden := by
  have found := List.getElem?_eq_getElem inside
  simp only [CListCtrl.setItemText, CListCtrl.beside, List.modify_eq_set_getElem?,
    List.getElem?_append_left inside, found, Option.map_eq_map, Option.map_some,
    Option.getD_some, List.set_append_left nItem _ inside]

/-- Texts are written into a shown row only, by induction on the texts. -/
theorem setRowTexts_beside (inside : nItem < list.rows.length) (texts : List Text)
    : (list.beside hidden).setRowTexts nItem nSubItem texts
      = (list.setRowTexts nItem nSubItem texts).beside hidden := by
  induction texts generalizing list nSubItem with
  | nil => rfl
  | cons text rest ih =>
      have still : nItem < (list.setItemText nItem nSubItem text).rows.length := by
        rwa [CListCtrl.setItemText, List.length_modify]
      rw [CListCtrl.setRowTexts, setItemText_beside inside, ih still, CListCtrl.setRowTexts]

end Beside

namespace CSchoolSystemDlg

variable {dlg after : CSchoolSystemDlg} {db : Database} {edit : Edit} {nCurSelRow : Nat}
  {hidden : List Row}

theorem insertRow_beside (dlg : CSchoolSystemDlg) (cells : Row)
    : (dlg.beside hidden).insertRow cells = (dlg.insertRow cells).beside hidden := by
  have shown : 0 < (dlg.list.insertItem 0 []).rows.length := by
    simp [CListCtrl.insertItem]
  have inserted : (dlg.list.beside hidden).insertItem 0 []
      = (dlg.list.insertItem 0 []).beside hidden := by
    simp [CListCtrl.insertItem, CListCtrl.beside]
  rw [insertRow, beside, inserted, setRowTexts_beside shown]
  rfl

theorem deleteRow_beside (inside : nCurSelRow < dlg.list.rows.length)
    : (dlg.beside hidden).deleteRow nCurSelRow = (dlg.deleteRow nCurSelRow).beside hidden := by
  simp only [deleteRow, beside, CListCtrl.deleteItem, CListCtrl.beside,
    List.eraseIdx_append_of_lt_length inside]

theorem updateRow_beside (inside : nCurSelRow < dlg.list.rows.length) (entered : Dlg)
    : (dlg.beside hidden).updateRow nCurSelRow entered
      = (dlg.updateRow nCurSelRow entered).beside hidden := by
  cases entered with
  | student | course | clazz =>
      simp only [updateRow, beside, setRowTexts_beside inside]
  | select entered =>
      simp only [updateRow, beside, setItemText_beside inside]

/-- The edit is of a shown row, if it is of one. -/
def Inside (dlg : CSchoolSystemDlg) : Edit → Prop
  | .insert _ => True
  | .delete nCurSelRow | .update nCurSelRow _ => nCurSelRow < dlg.list.rows.length

theorem inside_of_onReply {nSuccess : Int32} (replied : dlg.onReply nSuccess edit = some after)
    : dlg.Inside edit := by
  cases edit with
  | insert entered => trivial
  | delete nCurSelRow => exact (Option.ite_none_right_eq_some.mp replied).1
  | update nCurSelRow entered => exact (Option.ite_none_right_eq_some.mp replied).1.1

theorem call_beside (inside : dlg.Inside edit) : (dlg.beside hidden).call edit = dlg.call edit := by
  cases edit with
  | insert entered => rfl
  | delete nCurSelRow =>
      simp only [call, deleteCall, beside, getItemText_beside inside]
  | update nCurSelRow entered =>
      simp only [call, updateCall, beside, getItemText_beside inside]

theorem onReply_beside {nSuccess : Int32} (replied : dlg.onReply nSuccess edit = some after)
    : (dlg.beside hidden).onReply nSuccess edit = some (after.beside hidden) := by
  cases edit with
  | insert entered =>
      obtain ⟨same, edited⟩ := Option.ite_none_right_eq_some.mp replied
      obtain rfl := Option.some.inj edited
      refine (if_pos same).trans (congrArg some ?_)
      rw [apply_ite (fun dlg => beside dlg hidden), insertRow_beside]
  | delete nCurSelRow =>
      obtain ⟨inside, edited⟩ := Option.ite_none_right_eq_some.mp replied
      obtain rfl := Option.some.inj edited
      have below : nCurSelRow < (dlg.beside hidden).list.rows.length := by
        simp only [beside, CListCtrl.beside, List.length_append]
        omega
      refine (if_pos below).trans (congrArg some ?_)
      rw [apply_ite (fun dlg => beside dlg hidden), deleteRow_beside inside]
  | update nCurSelRow entered =>
      obtain ⟨⟨inside, same⟩, edited⟩ := Option.ite_none_right_eq_some.mp replied
      obtain rfl := Option.some.inj edited
      have below : nCurSelRow < (dlg.beside hidden).list.rows.length := by
        simp only [beside, CListCtrl.beside, List.length_append]
        omega
      refine (if_pos ⟨below, same⟩).trans (congrArg some ?_)
      rw [apply_ite (fun dlg => beside dlg hidden), updateRow_beside inside]

/-- A handler neither sees nor changes a row that is not shown. -/
theorem handle_beside {result : Database × Int32}
    (handled : dlg.handle db edit = some (after, result))
    : (dlg.beside hidden).handle db edit = some (after.beside hidden, result) := by
  obtain ⟨dml, sent, _⟩ := Option.bind_eq_some_iff.mp handled
  obtain ⟨replied, executed⟩ := handle_eq_some sent handled
  simp only at replied executed
  have call := @call_beside dlg edit hidden (inside_of_onReply replied)
  simp only [handle, call, sent, Option.bind_eq_bind, Option.bind_some,
    onReply_beside replied, executed]
  rfl

theorem aims_beside (inside : dlg.Inside edit)
    : (dlg.beside hidden).Aims db edit ↔ dlg.Aims db edit := by
  cases edit with
  | insert | delete => exact Iff.rfl
  | update nCurSelRow entered =>
      cases entered with
      | student | course | clazz => exact Iff.rfl
      | select entered => simp only [Aims, beside, getItemText_beside inside]

-----------------------------------------------------------------------------------------
-- One edit
-----------------------------------------------------------------------------------------

/-- A new score violates no constraint. -/
theorem execute_score_ne (db : Database) (score : Text) {wanted : List Text}
    (each : wanted.length = Tab.select.primaryKey.length)
    : (db.execute
          (.update .select [("score", score)] (Tab.select.primaryKey.zip wanted))).2 ≠ -1 := by
  have conforms := conforms_score db score (Tab.select.primaryKey.zip wanted)
  have few := affected_update_le_one db .select each [("score", score)]
  rw [Database.execute, dif_pos conforms]
  generalize count : Dml.affected _ _ = affected at few
  simp only [Dml.tab, count]
  rcases Nat.le_one_iff_eq_zero_or_eq_one.mp few with rfl | rfl <;> decide

/-- A list that shows the table goes on doing so exactly when the edit aims at the selected row. -/
theorem shows_handle_iff (shows : dlg.Shows db) {result : Database × Int32}
    (handled : dlg.handle db edit = some (after, result))
    : after.Shows result.1 ↔ dlg.Aims db edit := by
  obtain ⟨dml, sent, _⟩ := Option.bind_eq_some_iff.mp handled
  obtain ⟨replied, executed⟩ := handle_eq_some sent handled
  dsimp only at replied executed
  subst executed
  cases edit with
  | insert entered =>
      obtain ⟨same, edited⟩ := Option.ite_none_right_eq_some.mp replied
      obtain rfl := Option.some.inj edited
      obtain rfl := Option.some.inj sent
      exact iff_of_true (mirrors_insert shows same).1 trivial
  | delete nCurSelRow =>
      obtain ⟨inside, edited⟩ := Option.ite_none_right_eq_some.mp replied
      obtain rfl := Option.some.inj edited
      exact iff_of_true (mirrors_delete shows (List.getElem?_eq_getElem inside) sent).1 trivial
  | update nCurSelRow entered =>
      obtain ⟨⟨inside, same⟩, edited⟩ := Option.ite_none_right_eq_some.mp replied
      obtain rfl := Option.some.inj edited
      have found := List.getElem?_eq_getElem inside
      cases entered with
      | student | course | clazz =>
          have other : dlg.nCurTabSel ≠ .select := by
            rw [← same]
            exact Tab.noConfusion
          exact iff_of_true (mirrors_update shows same other found sent).1 trivial
      | select entered =>
          have mirrored := mirrors_updateSelect_iff shows entered same.symm found sent
          obtain rfl := Option.some.inj sent
          have success := @execute_score_ne db entered.strScore
            [entered.strStuId, entered.strCourseId] rfl
          rw [← mirrored]
          exact ⟨fun shown => ⟨shown, fun failed => absurd failed success⟩, And.left⟩

end CSchoolSystemDlg

-----------------------------------------------------------------------------------------
-- Whole sessions
-----------------------------------------------------------------------------------------

namespace Session

variable {session next : Session} {event : SessionEvent}

/-- A query splits the rows of its table into those that are shown and those that it left out. -/
theorem showsAll_query {db : Database} {rows hidden : List Row} {tab : Tab}
    (split : rows ++ hidden ~ db.tables tab)
    : ShowsAll ⟨⟨tab, ⟨tab.columns.map heading, rows⟩⟩, db, hidden⟩ :=
  ⟨rfl, split⟩

theorem showsAll_step (shows : session.ShowsAll) (stepped : session.step event = some next)
    : next.ShowsAll ↔ session.Aims event := by
  cases event with
  | selchangeTab curSel rows =>
      obtain ⟨order, stepped⟩ := Option.ite_none_right_eq_some.mp stepped
      obtain rfl := Option.some.inj stepped
      exact iff_of_true (showsAll_query (by simpa using order)) trivial
  | search entered rows =>
      obtain ⟨order, stepped⟩ := Option.ite_none_right_eq_some.mp stepped
      obtain ⟨dlg, shown, rfl⟩ := Option.map_eq_some_iff.mp stepped
      obtain ⟨same, shown⟩ := Option.ite_none_right_eq_some.mp shown
      obtain rfl := Option.some.inj shown
      refine iff_of_true (showsAll_query ?_) trivial
      rw [← same]
      exact (order.append_right _).trans (List.filter_append_perm _ _)
  | edit edit =>
      obtain ⟨⟨after, result⟩, handled, rfl⟩ := Option.map_eq_some_iff.mp stepped
      obtain ⟨dml, sent, _⟩ := Option.bind_eq_some_iff.mp handled
      have inside :=
        CSchoolSystemDlg.inside_of_onReply (CSchoolSystemDlg.handle_eq_some sent handled).1
      have whole := @CSchoolSystemDlg.handle_beside _ _ _ _ session.hidden _ handled
      have aims : session.Aims (.edit edit) ↔ session.dlg.Aims session.db edit := by
        rw [Aims, handled]
        exact ⟨fun all => all rfl, fun now _ => now⟩
      rw [aims, ← CSchoolSystemDlg.aims_beside inside]
      exact CSchoolSystemDlg.shows_handle_iff shows whole

theorem showsAll_start {dlg : CSchoolSystemDlg} {db : Database} {rows : List Row}
    (started : start dlg db rows = some session)
    : session.ShowsAll := by
  obtain ⟨order, started⟩ := Option.ite_none_right_eq_some.mp started
  obtain rfl := Option.some.inj started
  exact showsAll_query (by simpa using order)

theorem readAsMeant_of_safe (safe : session.SafeStrings event) : session.ReadAsMeant event :=
  fun call sent =>
    ⟨Call.lex_of_safe (safe call sent), fun _ meant => Call.lex_dml meant (safe call sent)⟩

/-- From `OnInitDialog` on, whatever the only client does with strings that are safe, the server
reads the statements that the handlers mean, and the list shows rows of the current tab's table and
all but those that its last query left out, exactly when every choice of a course that is changed is
the selected one, or nothing changes in either.
-/
theorem showsAll_iff_along {dlg : CSchoolSystemDlg} {db : Database} {rows : List Row}
    (started : start dlg db rows = some session) {events : List SessionEvent}
    (safe : TransitionSystem.Along step SafeStrings session events)
    : TransitionSystem.Along step ReadAsMeant session events
      ∧ ((∀ done final,
          done <+: events
          → TransitionSystem.run step session done = some final
          → final.ShowsAll)
        ↔ TransitionSystem.Along step Aims session events) := by
  refine ⟨?_, ?_⟩
  · exact @TransitionSystem.along_of_invariant _ _ step session events SafeStrings ReadAsMeant
      (fun _ => True) (fun _ _ _ => trivial) (fun _ safe => readAsMeant_of_safe safe) trivial safe
  · apply TransitionSystem.reached_iff_along
    · exact fun shows stepped => showsAll_step shows stepped
    · intro session event refused
      cases event with
      | selchangeTab | search => trivial
      | edit edit =>
          intro handled
          rw [Option.map_eq_none_iff.mp refused] at handled
          cases handled
    · exact showsAll_start started

/-- The user looks for a student, finds none and inserts it. -/
def searchAndInsert : List SessionEvent :=
  [
    .search (.student ⟨"2".toList, [], []⟩) [],
    .edit (.insert (.student ⟨"2".toList, "Z".toList, "9".toList⟩))
  ]

theorem showsAll_searchAndInsert
    : ∃ session final,
        start ⟨.course, ⟨[], []⟩⟩ CSchoolSystemDlg.oneChoice
            (CSchoolSystemDlg.oneChoice.tables .student)
          = some session
        ∧ TransitionSystem.run step session searchAndInsert = some final
        ∧ final.hidden.length = 1
        ∧ final.ShowsAll := by
  obtain ⟨session, reached⟩ := Option.isSome_iff_exists.mp
    (by decide +kernel
      : ((start ⟨.course, ⟨[], []⟩⟩ CSchoolSystemDlg.oneChoice
            (CSchoolSystemDlg.oneChoice.tables .student)).filter
          (fun session =>
            ((TransitionSystem.run step session searchAndInsert).filter
              (fun final => final.hidden.length = 1)).isSome)).isSome)
  obtain ⟨started, more⟩ := Option.filter_eq_some_iff.mp reached
  obtain ⟨final, ended⟩ := Option.isSome_iff_exists.mp more
  obtain ⟨ran, left⟩ := Option.filter_eq_some_iff.mp ended
  have safe : TransitionSystem.Along step SafeStrings session searchAndInsert := by
    refine ⟨?_, fun _ _ => ⟨?_, fun _ _ => trivial⟩⟩
    · rintro _ ⟨⟩
      simp only [Call.source, selectSource, Source.args, List.map_cons, List.map_nil,
        List.forall_mem_cons]
      exact ⟨.of_plain (by simp), .nil, .nil, List.forall_mem_nil _⟩
    · rintro _ ⟨⟩
      simp only [CSchoolSystemDlg.call, Call.source, insertSource, Source.args,
        List.forall_mem_cons]
      exact ⟨.of_plain (by simp), .of_plain (by simp), .of_plain (by simp),
        List.forall_mem_nil _⟩
  have along : TransitionSystem.Along step Aims session searchAndInsert :=
    ⟨trivial, fun _ _ => ⟨fun _ => trivial, fun _ _ => trivial⟩⟩
  refine ⟨session, final, started, ran, of_decide_eq_true left, ?_⟩
  exact (showsAll_iff_along started safe).2.mpr along _ final List.prefix_rfl ran

end Session

end SchoolSystem.Dialog
