import SchoolSystem.Dialog.Database
import SchoolSystem.Exchange.ShowList
import SchoolSystem.Library.TransitionSystem

/-! The handlers of `CSchoolSystemDlg` on the current tab and the list: what a user's action sends
to the server, and what the list shows after the reply.
-/

namespace SchoolSystem.Exchange

namespace CListCtrl

variable {Heading : Type}

/-- `GetItemText`, which is empty for a cell that is not there. -/
def getItemText (list : CListCtrl Heading Dialog.Text) (nItem nSubItem : Nat) : Dialog.Text :=
  (list.rows.getD nItem []).getD nSubItem []

def deleteItem (list : CListCtrl Heading Dialog.Text) (nItem : Nat)
    : CListCtrl Heading Dialog.Text :=
  { list with rows := list.rows.eraseIdx nItem }

/-- `SetItemText` for each of the texts, from a column on. -/
def setRowTexts (list : CListCtrl Heading Dialog.Text) (nItem nSubItem : Nat)
    : List Dialog.Text → CListCtrl Heading Dialog.Text
  | [] => list
  | text :: rest => (list.setItemText nItem nSubItem text).setRowTexts nItem (nSubItem + 1) rest

end CListCtrl

end SchoolSystem.Exchange

namespace SchoolSystem.Dialog

open Exchange (CListCtrl NulFree asciiBytes cString fieldMap frame)
open TcpSocket (Byte)

/-- The display name of a column. -/
def heading (column : String) : String := fieldMap (asciiBytes column)

/-- The columns of the result of `OnBnClickedButtonUnionSelect`: `A.*`, then three of `B`. -/
def unionColumns : List String :=
  Tab.student.columns ++ ["class_name"] ++ ["course_id", "course_name", "score"]

structure CSchoolSystemDlg where
  nCurTabSel : Tab
  list : CListCtrl String Text
  deriving DecidableEq, Repr

namespace CSchoolSystemDlg

/-- `ShowList` after a query for these columns. The reply to a query that failed has no result
set, and `ShowList` waits for one forever.
-/
def showList (dlg : CSchoolSystemDlg) (columns : List String)
    : (reply : Option (List Row)) → Option CSchoolSystemDlg
  | none => none
  | some rows => some { dlg with list := ⟨columns.map heading, rows⟩ }

def onInitDialog (dlg : CSchoolSystemDlg) (reply : Option (List Row)) : Option CSchoolSystemDlg :=
  showList { dlg with nCurTabSel := .student } Tab.student.columns reply

/-- The user has selected a tab. -/
def onTcnSelchangeTab (dlg : CSchoolSystemDlg) (curSel : Tab) (reply : Option (List Row))
    : Option CSchoolSystemDlg :=
  showList { dlg with nCurTabSel := curSel } curSel.columns reply

def insertRow (dlg : CSchoolSystemDlg) (cells : Row) : CSchoolSystemDlg :=
  { dlg with list := (dlg.list.insertItem 0 []).setRowTexts 0 0 cells }

/-- What the user entered in the dialog of the current tab, unless it was cancelled. -/
def onBnClickedButtonInsert (dlg : CSchoolSystemDlg) (nSuccess : Int32)
    : (entered : Option Dlg) → Option CSchoolSystemDlg
  | none => some dlg
  | some entered =>
      if entered.tab = dlg.nCurTabSel then
        some (if nSuccess ≠ -1 then dlg.insertRow entered.cells else dlg)
      else
        none

/-- The text that `OnBnClickedButtonDelete` builds for a row. -/
def deleteCall (dlg : CSchoolSystemDlg) (nCurSelRow : Nat) : Call :=
  .delete (dlg.list.getItemText nCurSelRow 0) (dlg.list.getItemText nCurSelRow 1) dlg.nCurTabSel

def deleteRow (dlg : CSchoolSystemDlg) (nCurSelRow : Nat) : CSchoolSystemDlg :=
  { dlg with list := dlg.list.deleteItem nCurSelRow }

/-- The selected row is one of the list, or there is none. -/
def onBnClickedButtonDelete (dlg : CSchoolSystemDlg) (nSuccess : Int32)
    : (nCurSelRow : Option Nat) → Option CSchoolSystemDlg
  | none => some dlg
  | some nCurSelRow =>
      if nCurSelRow < dlg.list.rows.length then
        some (if nSuccess ≠ -1 then dlg.deleteRow nCurSelRow else dlg)
      else
        none

/-- The dialog as `OnBnClickedButtonUpdate` opens it. -/
def updateDlg (dlg : CSchoolSystemDlg) (nCurSelRow : Nat) : Dlg :=
  let cell := dlg.list.getItemText nCurSelRow
  match dlg.nCurTabSel with
  | .student => .student ⟨cell 0, cell 1, cell 2⟩
  | .course => .course ⟨cell 0, cell 1⟩
  | .clazz => .clazz ⟨cell 0, cell 1⟩
  | .select => .select ⟨cell 0, cell 1, cell 2⟩

def updateCall (dlg : CSchoolSystemDlg) (nCurSelRow : Nat) (entered : Dlg) : Call :=
  .update (dlg.list.getItemText nCurSelRow 0) entered

/-- A choice of a course keeps the cells of its key. -/
def updateRow (dlg : CSchoolSystemDlg) (nCurSelRow : Nat) (entered : Dlg) : CSchoolSystemDlg :=
  {
    dlg with
    list :=
      match entered with
      | .select entered => dlg.list.setItemText nCurSelRow 2 entered.strScore
      | .student _ | .course _ | .clazz _ => dlg.list.setRowTexts nCurSelRow 0 entered.cells
  }

def onBnClickedButtonUpdate (dlg : CSchoolSystemDlg) (nSuccess : Int32) (entered : Option Dlg)
    : (nCurSelRow : Option Nat) → Option CSchoolSystemDlg
  | none => some dlg
  | some nCurSelRow =>
      match entered with
      | none => some dlg
      | some entered =>
          if nCurSelRow < dlg.list.rows.length ∧ entered.tab = dlg.nCurTabSel then
            some (if nSuccess ≠ -1 then dlg.updateRow nCurSelRow entered else dlg)
          else
            none

/-- A search on the current tab, unless its dialog was cancelled. -/
def onBnClickedButtonSelect (dlg : CSchoolSystemDlg) (reply : Option (List Row))
    : (entered : Option Dlg) → Option CSchoolSystemDlg
  | none => some dlg
  | some entered =>
      if entered.tab = dlg.nCurTabSel then
        dlg.showList dlg.nCurTabSel.columns reply
      else
        none

def onBnClickedButtonUnionSelect (dlg : CSchoolSystemDlg) (reply : Option (List Row))
    : Option CSchoolSystemDlg :=
  dlg.showList unionColumns reply

end CSchoolSystemDlg

/-- What happens to the dialog: a message of Windows, what the user does in it, and the reply of
the server.
-/
inductive DlgEvent
  | initDialog (reply : Option (List Row))
  | selchangeTab (curSel : Tab) (reply : Option (List Row))
  | insert (entered : Option Dlg) (nSuccess : Int32)
  | delete (nCurSelRow : Option Nat) (nSuccess : Int32)
  | update (nCurSelRow : Option Nat) (entered : Option Dlg) (nSuccess : Int32)
  | select (entered : Option Dlg) (reply : Option (List Row))
  | unionSelect (reply : Option (List Row))

namespace CSchoolSystemDlg

def step (dlg : CSchoolSystemDlg) : DlgEvent → Option CSchoolSystemDlg
  | .initDialog reply => dlg.onInitDialog reply
  | .selchangeTab curSel reply => dlg.onTcnSelchangeTab curSel reply
  | .insert entered nSuccess => dlg.onBnClickedButtonInsert nSuccess entered
  | .delete nCurSelRow nSuccess => dlg.onBnClickedButtonDelete nSuccess nCurSelRow
  | .update nCurSelRow entered nSuccess =>
      dlg.onBnClickedButtonUpdate nSuccess entered nCurSelRow
  | .select entered reply => dlg.onBnClickedButtonSelect reply entered
  | .unionSelect reply => dlg.onBnClickedButtonUnionSelect reply

-----------------------------------------------------------------------------------------
-- The list and the current tab
-----------------------------------------------------------------------------------------

/-- The leading columns of the list are those of the current tab's table. -/
def Matches (dlg : CSchoolSystemDlg) : Prop :=
  dlg.nCurTabSel.columns.map heading <+: dlg.list.columns

/-- The cell of a row in the column of this name. -/
def cellOf (dlg : CSchoolSystemDlg) (nItem : Nat) (column : String) : Text :=
  dlg.list.getItemText nItem (dlg.list.columns.idxOf (heading column))

/-- The primary key of the current tab's table, with the selected row's values. -/
def keyOf (dlg : CSchoolSystemDlg) (nItem : Nat) : List (String × Text) :=
  dlg.nCurTabSel.primaryKey.map (fun column => (column, dlg.cellOf nItem column))

/-- The cells that a `WHERE` clause names are those of the selected row's key: always in a
`DELETE`, and in an `UPDATE` as its dialog opens, of which a choice of a course keeps the key
only if the user does.
-/
def KeyCells (dlg : CSchoolSystemDlg) : Prop :=
  ∀ nItem,
    (dlg.deleteCall nItem).dml.map Dml.conditions = some (dlg.keyOf nItem)
    ∧ (dlg.updateCall nItem (dlg.updateDlg nItem)).dml.map Dml.conditions
      = some (dlg.keyOf nItem)
    ∧ ∀ entered : Dlg,
        entered.tab = dlg.nCurTabSel
        → dlg.nCurTabSel ≠ .select
        → (dlg.updateCall nItem entered).dml.map Dml.conditions = some (dlg.keyOf nItem)

/-- The display names of a table's columns are found where the columns are. -/
theorem headings_distinct (tab : Tab) : (tab.columns.map heading).Nodup := by
  cases tab <;> decide +kernel

/-- The columns that a query of the dialog asks for. -/
def Queried (columns : List String) : Prop :=
  columns = unionColumns ∨ ∃ tab : Tab, columns = tab.columns

theorem Queried.names {columns : List String} (queried : Queried columns)
    : columns ≠ []
      ∧ (∀ name ∈ columns.map asciiBytes, NulFree name)
      ∧ ((columns.map asciiBytes).flatMap cString).length ≤ 0x1000 := by
  rcases queried with rfl | ⟨tab, rfl⟩
  · decide +kernel
  · cases tab <;> decide +kernel

/-- A string of the database, byte by byte. -/
def textOf (bytes : List Byte) : Text := bytes.map (fun byte => Char.ofNat byte.toNat)

/-- What the two loops of `ShowList` make of the bytes of a result set is what the dialog shows
for its rows.
-/
theorem showList_frames (dlg : CSchoolSystemDlg) (list : CListCtrl String (List Byte))
    {columns : List String} (queried : Queried columns) {rows : List (List (List Byte))}
    (wide : ∀ row ∈ rows, row.length = columns.length)
    (cellsFree : ∀ row ∈ rows, ∀ cell ∈ row, NulFree cell)
    (dataFits : (rows.flatten.flatMap cString).length ≤ 0x1000) (rest : List Byte)
    : ∃ shown,
        list.showList fieldMap
            (frame ((columns.map asciiBytes).flatMap cString)
              ++ (frame (rows.flatten.flatMap cString) ++ rest))
          = some (shown, rest)
        ∧ dlg.showList columns (some (rows.map (fun row => row.map textOf)))
          = some
              {
                dlg with
                list := ⟨shown.columns, shown.rows.map (fun row => row.map textOf)⟩
              } := by
  obtain ⟨nonempty, namesFree, headerFits⟩ := queried.names
  have shown := list.showList_frames fieldMap (by simpa using nonempty) (by simpa using wide)
    namesFree cellsFree headerFits dataFits rest
  exact ⟨_, shown, by simp [CSchoolSystemDlg.showList, heading]⟩

/-- The list has the columns of a table in front, so each is found at its own place. -/
theorem Matches.cellOf {dlg : CSchoolSystemDlg} (matching : dlg.Matches) (nItem nSubItem : Nat)
    (inside : nSubItem < dlg.nCurTabSel.columns.length)
    : dlg.cellOf nItem dlg.nCurTabSel.columns[nSubItem] = dlg.list.getItemText nItem nSubItem := by
  obtain ⟨rest, columns⟩ := matching
  have headed : nSubItem < (dlg.nCurTabSel.columns.map heading).length := by simpa using inside
  have present : heading dlg.nCurTabSel.columns[nSubItem] ∈ dlg.nCurTabSel.columns.map heading :=
    List.mem_map_of_mem (List.getElem_mem inside)
  have place := (headings_distinct dlg.nCurTabSel).idxOf_getElem nSubItem headed
  rw [List.getElem_map] at place
  rw [CSchoolSystemDlg.cellOf, ← columns, List.idxOf_append_of_mem present, place]

theorem Matches.keyCells {dlg : CSchoolSystemDlg} (matching : dlg.Matches) : dlg.KeyCells := by
  intro nItem
  have cell := matching.cellOf nItem
  obtain ⟨tab, list⟩ := dlg
  cases tab with
  | student | course | clazz =>
      have first := cell 0 (by simp [Tab.columns])
      refine ⟨?_, ?_, fun entered same _ => ?_⟩
      · exact congrArg (fun text => some [(_, text)]) first.symm
      · exact congrArg (fun text => some [(_, text)]) first.symm
      · cases entered <;> cases same
        exact congrArg (fun text => some [(_, text)]) first.symm
  | select =>
      have first := cell 0 (by simp [Tab.columns])
      have second := cell 1 (by simp [Tab.columns])
      have both := congrArg₂ (fun one other => some [("stu_id", one), ("course_id", other)])
        first.symm second.symm
      exact ⟨both, both, fun _ _ other => absurd rfl other⟩

-----------------------------------------------------------------------------------------
-- Every run
-----------------------------------------------------------------------------------------

/-- `UnionSelect`, when the server answers it, is used on the first tab. -/
def UnionOnStudents (dlg : CSchoolSystemDlg) (event : DlgEvent) : Prop :=
  ∀ rows, event = .unionSelect (some rows) → dlg.nCurTabSel = .student

theorem setRowTexts_columns {list : CListCtrl String Text} {nItem nSubItem : Nat}
    {texts : List Text}
    : (list.setRowTexts nItem nSubItem texts).columns = list.columns := by
  induction texts generalizing list nSubItem with
  | nil => rfl
  | cons text rest ih => exact ih

theorem Matches.of_same {dlg after : CSchoolSystemDlg} (matching : dlg.Matches)
    (tab : after.nCurTabSel = dlg.nCurTabSel) (columns : after.list.columns = dlg.list.columns)
    : after.Matches := by
  rw [Matches, tab, columns]
  exact matching

/-- `ShowList` leaves a matching list when the query was for the table's columns in front. -/
theorem showList_matches {dlg after : CSchoolSystemDlg} {columns : List String}
    {reply : Option (List Row)} (shown : dlg.showList columns reply = some after)
    : after.Matches ↔ dlg.nCurTabSel.columns.map heading <+: columns.map heading := by
  cases reply with
  | none => cases shown
  | some rows =>
      cases shown
      exact Iff.rfl

/-- The columns of the union begin with those of the students, and of no other table. -/
theorem unionColumns_iff {tab : Tab}
    : tab.columns.map heading <+: unionColumns.map heading ↔ tab = .student := by
  cases tab <;> decide +kernel

theorem Matches.step {dlg after : CSchoolSystemDlg} {event : DlgEvent}
    (matching : dlg.Matches) (stepped : dlg.step event = some after)
    : after.Matches ↔ dlg.UnionOnStudents event := by
  have kept : ∀ {event : DlgEvent}, (∀ reply, event ≠ .unionSelect reply)
      → after.Matches → (after.Matches ↔ dlg.UnionOnStudents event) :=
    fun other matched => ⟨fun _ rows same => absurd same (other _), fun _ => matched⟩
  cases event with
  | initDialog reply => exact kept nofun ((showList_matches stepped).mpr List.prefix_rfl)
  | selchangeTab curSel reply =>
      exact kept nofun ((showList_matches stepped).mpr List.prefix_rfl)
  | insert entered nSuccess =>
      refine kept nofun ?_
      cases entered with
      | none => exact Option.some.inj stepped ▸ matching
      | some entered =>
          obtain ⟨_, same⟩ := Option.ite_none_right_eq_some.mp stepped
          obtain rfl := Option.some.inj same
          split
          · exact matching.of_same rfl setRowTexts_columns
          · exact matching
  | delete nCurSelRow nSuccess =>
      refine kept nofun ?_
      cases nCurSelRow with
      | none => exact Option.some.inj stepped ▸ matching
      | some nCurSelRow =>
          obtain ⟨_, same⟩ := Option.ite_none_right_eq_some.mp stepped
          obtain rfl := Option.some.inj same
          split
          · exact matching.of_same rfl rfl
          · exact matching
  | update nCurSelRow entered nSuccess =>
      refine kept nofun ?_
      cases nCurSelRow with
      | none => exact Option.some.inj stepped ▸ matching
      | some nCurSelRow =>
          cases entered with
          | none => exact Option.some.inj stepped ▸ matching
          | some entered =>
              obtain ⟨_, same⟩ := Option.ite_none_right_eq_some.mp stepped
              obtain rfl := Option.some.inj same
              split
              · refine matching.of_same rfl ?_
                cases entered with
                | student | course | clazz => exact setRowTexts_columns
                | select => rfl
              · exact matching
  | select entered reply =>
      refine kept nofun ?_
      cases entered with
      | none => exact Option.some.inj stepped ▸ matching
      | some entered =>
          obtain ⟨_, shown⟩ := Option.ite_none_right_eq_some.mp stepped
          exact (showList_matches shown).mpr List.prefix_rfl
  | unionSelect reply =>
      rw [showList_matches stepped, unionColumns_iff]
      refine ⟨fun student _ _ => student, fun guard => ?_⟩
      cases reply with
      | none => cases stepped
      | some rows => exact guard rows rfl

/-- From its initialisation on, every state that the dialog reaches has the columns of the current
tab in front of its list, and a key of that tab's table in its conditions, exactly when
`UnionSelect` is used on the first tab only.
-/
theorem matches_iff_along {dlg start : CSchoolSystemDlg} {reply : Option (List Row)}
    (initialised : dlg.onInitDialog reply = some start) (events : List DlgEvent)
    : (∀ done final,
        done <+: events
        → TransitionSystem.run step start done = some final
        → final.Matches ∧ final.KeyCells)
      ↔ TransitionSystem.Along step UnionOnStudents start events := by
  have matching : start.Matches := (showList_matches initialised).mpr List.prefix_rfl
  apply TransitionSystem.reached_iff_along
  · intro state event next good stepped
    refine ⟨fun after => (good.1.step stepped).mp after.1, fun guard => ?_⟩
    have matched := (good.1.step stepped).mpr guard
    exact ⟨matched, matched.keyCells⟩
  · rintro state event refused rows rfl
    cases refused
  · exact ⟨matching, matching.keyCells⟩

/-- A union on the first tab keeps the key of the students in front. -/
theorem matches_unionOnStudents
    : ∃ start final : CSchoolSystemDlg,
        onInitDialog ⟨.course, ⟨[], []⟩⟩ (some [["1".toList, "A".toList, "9".toList]]) = some start
        ∧ start.step (.unionSelect (some [])) = some final
        ∧ final.Matches := by
  refine ⟨_, _, rfl, rfl, ?_⟩
  have all := @matches_iff_along ⟨.course, ⟨[], []⟩⟩ _ (some [["1".toList, "A".toList, "9".toList]])
    rfl [.unionSelect (some [])]
  exact (all.mpr ⟨fun _ _ => rfl, fun _ _ => trivial⟩ [.unionSelect (some [])] _ List.prefix_rfl
    rfl).1

/-- A union on the tab of the courses, with one row, whose student would be deleted as a course. -/
theorem matches_not_always
    : ¬ ∀ (dlg start final : CSchoolSystemDlg) (reply : Option (List Row))
          (events : List DlgEvent),
          dlg.onInitDialog reply = some start
          → TransitionSystem.run step start events = some final
          → final.Matches ∧ final.KeyCells := by
  intro all
  have matched := (all ⟨.student, ⟨[], []⟩⟩ _ _ (some [])
    [.selchangeTab .course (some []),
      .unionSelect
        (some
          [["1", "A", "9", "B", "5", "C", "90"].map String.toList])]
    rfl rfl).1
  exact absurd (unionColumns_iff.mp matched) (by decide)

end CSchoolSystemDlg

end SchoolSystem.Dialog
