import SchoolSystem.Dialog.Handlers
import SchoolSystem.Library.KeyedList

/-! What an edit of the list does to the rows that are shown, next to what its statement does to
the table that they were read from.
-/

namespace SchoolSystem.Dialog

open scoped List
open Exchange (CListCtrl)
open KeyedList (changeKey)

/-- What the user does to the current tab: the dialogs were confirmed, and the row is selected. -/
inductive Edit
  | insert (entered : Dlg)
  | delete (nCurSelRow : Nat)
  | update (nCurSelRow : Nat) (entered : Dlg)

namespace CSchoolSystemDlg

def call (dlg : CSchoolSystemDlg) : Edit → Call
  | .insert entered => .insert entered
  | .delete nCurSelRow => dlg.deleteCall nCurSelRow
  | .update nCurSelRow entered => dlg.updateCall nCurSelRow entered

/-- The rest of the handler, with the reply of the server. -/
def onReply (dlg : CSchoolSystemDlg) (nSuccess : Int32) : Edit → Option CSchoolSystemDlg
  | .insert entered => dlg.onBnClickedButtonInsert nSuccess (some entered)
  | .delete nCurSelRow => dlg.onBnClickedButtonDelete nSuccess (some nCurSelRow)
  | .update nCurSelRow entered =>
      dlg.onBnClickedButtonUpdate nSuccess (some entered) (some nCurSelRow)

/-- A handler of the only client, from the statement that it sends to its return. -/
def handle (dlg : CSchoolSystemDlg) (db : Database) (edit : Edit)
    : Option (CSchoolSystemDlg × Database × Int32) := do
  let dml ← (dlg.call edit).dml
  let (db, nSuccess) := db.execute dml
  let dlg ← dlg.onReply nSuccess edit
  return (dlg, db, nSuccess)

/-- The list shows all rows of the current tab's table. -/
structure Shows (dlg : CSchoolSystemDlg) (db : Database) : Prop where
  columns : dlg.list.columns = dlg.nCurTabSel.columns.map heading
  rows : dlg.list.rows ~ db.tables dlg.nCurTabSel

/-- The list goes on showing the table, and a failed statement leaves both as they were. -/
def Mirrors (dlg : CSchoolSystemDlg) (db : Database)
    : CSchoolSystemDlg × Database × Int32 → Prop
  | (after, dbAfter, nSuccess) =>
      after.Shows dbAfter ∧ (nSuccess = -1 → after = dlg ∧ dbAfter = db)

/-- A choice of a course is looked up by what its dialog says, and shown in the selected row: its
keys are those of that row, or else nothing changes in either row.
-/
def Aims (dlg : CSchoolSystemDlg) (db : Database) : Edit → Prop
  | .update nCurSelRow (.select entered) =>
      [entered.strStuId, entered.strCourseId]
        = [dlg.list.getItemText nCurSelRow 0, dlg.list.getItemText nCurSelRow 1]
      ∨ entered.strScore = dlg.list.getItemText nCurSelRow 2
        ∧ ∀ row ∈ db.tables .select,
            Tab.select.key row = [entered.strStuId, entered.strCourseId]
            → Tab.select.value row "score" = entered.strScore
  | .insert _ | .delete _ | .update _ (.student _) | .update _ (.course _)
  | .update _ (.clazz _) => True

end CSchoolSystemDlg

-----------------------------------------------------------------------------------------
-- Conditions on a key
-----------------------------------------------------------------------------------------

/-- Conditions on columns compare the values in them, by induction on the columns. -/
theorem Tab.meets_zip (tab : Tab) (row : Row) {columns : List String} {wanted : List Text}
    (each : wanted.length = columns.length)
    : tab.meets (columns.zip wanted) row = true ↔ columns.map (tab.value row) = wanted := by
  induction columns generalizing wanted with
  | nil =>
      cases wanted with
      | nil => exact ⟨fun _ => rfl, fun _ => rfl⟩
      | cons text rest => cases each
  | cons column columns ih =>
      cases wanted with
      | nil => cases each
      | cons text rest =>
          have tail := ih (Nat.succ.inj each)
          simp only [meets, List.zip_cons_cons, List.all_cons, Bool.and_eq_true, beq_iff_eq,
            List.map_cons, List.cons.injEq] at tail ⊢
          rw [tail]

theorem Tab.meets_key (tab : Tab) (row : Row) {wanted : List Text}
    (each : wanted.length = tab.primaryKey.length)
    : tab.meets (tab.primaryKey.zip wanted) row = true ↔ tab.key row = wanted :=
  tab.meets_zip row each

theorem Tab.key_length (tab : Tab) (row : Row) : (tab.key row).length = tab.primaryKey.length :=
  List.length_map _

/-- A change of all columns leaves nothing of a row. -/
theorem Tab.change_columns (tab : Tab) {row cells : Row}
    (rowWidth : row.length = tab.columns.length) (cellsWidth : cells.length = tab.columns.length)
    : tab.change (tab.columns.zip cells) row = cells := by
  cases tab with
  | student | select =>
      obtain ⟨a, b, c, rfl⟩ := List.length_eq_three.mp rowWidth
      obtain ⟨x, y, z, rfl⟩ := List.length_eq_three.mp cellsWidth
      rfl
  | course | clazz =>
      obtain ⟨a, b, rfl⟩ := List.length_eq_two.mp rowWidth
      obtain ⟨x, y, rfl⟩ := List.length_eq_two.mp cellsWidth
      rfl

namespace CSchoolSystemDlg

variable {dlg : CSchoolSystemDlg} {db : Database} {row : Row} {nCurSelRow : Nat}

theorem getItemText_of_found (found : dlg.list.rows[nCurSelRow]? = some row) (nSubItem : Nat)
    : dlg.list.getItemText nCurSelRow nSubItem = row.getD nSubItem [] := by
  have whole : dlg.list.rows.getD nCurSelRow [] = row := by
    rw [List.getD_eq_getElem?_getD, found, Option.getD_some]
  rw [CListCtrl.getItemText, whole]

/-- A `DELETE` asks for the key of the selected row. -/
theorem deleteCall_dml (found : dlg.list.rows[nCurSelRow]? = some row)
    : (dlg.deleteCall nCurSelRow).dml
      = some
          (.delete dlg.nCurTabSel
            (dlg.nCurTabSel.primaryKey.zip (dlg.nCurTabSel.key row))) := by
  rw [deleteCall, getItemText_of_found found, getItemText_of_found found]
  cases dlg.nCurTabSel with
  | student | course | clazz | select => rfl

/-- An `UPDATE` of another table than the choices asks for the key of the selected row. -/
theorem updateCall_dml {entered : Dlg} (same : entered.tab = dlg.nCurTabSel)
    (other : dlg.nCurTabSel ≠ .select) (found : dlg.list.rows[nCurSelRow]? = some row)
    : (dlg.updateCall nCurSelRow entered).dml
      = some
          (.update dlg.nCurTabSel (dlg.nCurTabSel.columns.zip entered.cells)
            (dlg.nCurTabSel.primaryKey.zip (dlg.nCurTabSel.key row))) := by
  rw [updateCall, getItemText_of_found found]
  cases entered with
  | student | course | clazz =>
      rw [← same]
      rfl
  | select => exact absurd same.symm other

-----------------------------------------------------------------------------------------
-- The rows of the list
-----------------------------------------------------------------------------------------

/-- The texts are written into a row from one of its cells on, by induction on the texts. -/
theorem setRowTexts_rows {list : CListCtrl String Text} {before old texts : Row}
    (found : list.rows[nCurSelRow]? = some (before ++ old)) (width : old.length = texts.length)
    : (list.setRowTexts nCurSelRow before.length texts).rows
      = list.rows.set nCurSelRow (before ++ texts) := by
  induction texts generalizing list before old with
  | nil =>
      obtain rfl := List.length_eq_zero_iff.mp width
      obtain ⟨inside, same⟩ := List.getElem?_eq_some_iff.mp found
      rw [← same, List.set_getElem_self inside]
      rfl
  | cons text rest ih =>
      cases old with
      | nil => cases width
      | cons head tail =>
          have set
              : (list.setItemText nCurSelRow before.length text).rows
                = list.rows.set nCurSelRow (before ++ text :: tail) := by
            rw [CListCtrl.setItemText, List.modify_eq_set_getElem?, found]
            simp
          have inside := (List.getElem?_eq_some_iff.mp found).1
          have now
              : (list.setItemText nCurSelRow before.length text).rows[nCurSelRow]?
                = some ((before ++ [text]) ++ tail) := by
            rw [set, List.getElem?_set_self inside, List.append_assoc, List.singleton_append]
          have later := ih now (Nat.succ.inj width)
          rw [List.length_append, List.length_singleton, set, List.set_set] at later
          rw [CListCtrl.setRowTexts, later, List.append_assoc, List.singleton_append]

theorem insertRow_rows {cells : Row} (width : cells.length = dlg.list.columns.length)
    : (dlg.insertRow cells).list.rows = cells :: dlg.list.rows := by
  have found
      : (dlg.list.insertItem 0 []).rows[0]?
        = some ([] ++ List.replicate dlg.list.columns.length []) := by
    simp [CListCtrl.insertItem]
  have written := @setRowTexts_rows 0 _ [] _ cells found (by simp [width])
  rw [insertRow]
  simpa [CListCtrl.insertItem] using written

theorem updateRow_rows {entered : Dlg} (same : entered.tab = dlg.nCurTabSel)
    (other : dlg.nCurTabSel ≠ .select) (found : dlg.list.rows[nCurSelRow]? = some row)
    (width : row.length = entered.cells.length)
    : (dlg.updateRow nCurSelRow entered).list.rows
      = dlg.list.rows.set nCurSelRow entered.cells := by
  have written := @setRowTexts_rows nCurSelRow dlg.list [] row entered.cells found width
  cases entered with
  | student | course | clazz => exact written
  | select => exact absurd same.symm other

-----------------------------------------------------------------------------------------
-- The list and the table
-----------------------------------------------------------------------------------------

/-- The tables with the rows of one of them after a statement. -/
abbrev tablesAfter (db : Database) (dml : Dml) : Tab → List Row :=
  Function.update db.tables dml.tab (dml.apply (db.tables dml.tab))

/-- A statement that changes one row at most is mirrored when the edited list has the rows that it
leaves, unless they violate a constraint.
-/
theorem mirrors_execute_iff (shows : dlg.Shows db) (dml : Dml) (edited : CSchoolSystemDlg)
    (tab : dml.tab = dlg.nCurTabSel) (few : dml.affected (db.tables dml.tab) ≤ 1)
    (sameTab : edited.nCurTabSel = dlg.nCurTabSel)
    (sameColumns : edited.list.columns = dlg.list.columns)
    : dlg.Mirrors db (if (db.execute dml).2 ≠ -1 then edited else dlg, db.execute dml)
      ↔ (Conforms (tablesAfter db dml)
          → edited.list.rows ~ dml.apply (db.tables dml.tab)) := by
  by_cases conforms : Conforms (tablesAfter db dml)
  · have executed
        : db.execute dml
          = (⟨_, conforms⟩, Int32.ofNat (dml.affected (db.tables dml.tab))) := by
      rw [Database.execute]
      exact dif_pos conforms
    have success : Int32.ofNat (dml.affected (db.tables dml.tab)) ≠ -1 := by
      generalize dml.affected (db.tables dml.tab) = count at few
      rcases Nat.le_one_iff_eq_zero_or_eq_one.mp few with rfl | rfl <;> decide
    rw [executed, if_pos success]
    have table
        : (Database.mk _ conforms).tables edited.nCurTabSel
          = dml.apply (db.tables dml.tab) := by
      rw [sameTab, ← tab]
      exact Function.update_self _ _ _
    constructor
    · intro mirrored _
      have rows := mirrored.1.rows
      rwa [table] at rows
    · intro rows
      refine ⟨⟨?_, ?_⟩, fun failed => absurd failed success⟩
      · rw [sameColumns, sameTab]
        exact shows.columns
      · rw [table]
        exact rows conforms
  · have executed : db.execute dml = (db, -1) := by
      rw [Database.execute]
      exact dif_neg conforms
    rw [executed]
    exact ⟨fun _ accepted => absurd accepted conforms, fun _ => ⟨shows, fun _ => ⟨rfl, rfl⟩⟩⟩

theorem handle_eq_some {edit : Edit} {dml : Dml}
    {result : CSchoolSystemDlg × Database × Int32} (sent : (dlg.call edit).dml = some dml)
    (handled : dlg.handle db edit = some result)
    : dlg.onReply (db.execute dml).2 edit = some result.1 ∧ result.2 = db.execute dml := by
  simp only [handle, sent, Option.bind_eq_bind, Option.bind_some] at handled
  obtain ⟨after, replied, same⟩ := Option.bind_eq_some_iff.mp handled
  cases Option.some.inj same
  exact ⟨replied, rfl⟩

/-- At most one row has a key, so a statement on a key affects one row at most. -/
theorem countP_meets_le_one (db : Database) (tab : Tab) {wanted : List Text}
    (each : wanted.length = tab.primaryKey.length)
    : (db.tables tab).countP (tab.meets (tab.primaryKey.zip wanted)) ≤ 1 := by
  have few := KeyedList.countP_key_le_one (db.conforms.keys tab) wanted
  refine Nat.le_trans (List.countP_mono_left (fun row _ met => ?_)) few
  exact decide_eq_true ((tab.meets_key row each).mp met)

theorem affected_update_le_one (db : Database) (tab : Tab) {wanted : List Text}
    (each : wanted.length = tab.primaryKey.length) (changes : List (String × Text))
    : (Dml.update tab changes (tab.primaryKey.zip wanted)).affected (db.tables tab) ≤ 1 := by
  refine Nat.le_trans (List.countP_mono_left (fun row _ met => ?_))
    (countP_meets_le_one db tab each)
  exact (Bool.and_eq_true_iff.mp met).1

/-- An `UPDATE` on a key changes the rows with that key. -/
theorem apply_update {tab : Tab} {changes : List (String × Text)} {wanted : List Text}
    (each : wanted.length = tab.primaryKey.length) (rows : List Row)
    : (Dml.update tab changes (tab.primaryKey.zip wanted)).apply rows
      = rows.map (changeKey tab.key wanted (tab.change changes)) := by
  refine List.map_congr_left (fun row _ => ?_)
  simp only [tab.meets_key row each, changeKey]

/-- A score is no part of a key. -/
theorem score_value (row : Row) (score : Text) {column : String}
    (part : column ∈ Tab.select.primaryKey)
    : Tab.select.value (Tab.select.change [("score", score)] row) column
      = Tab.select.value row column := by
  have place : Tab.select.columns.idxOf column ≠ 2 := by
    revert column
    decide
  rw [Tab.value, Tab.value, List.getD_eq_getElem?_getD, List.getD_eq_getElem?_getD]
  have cell : (row.set 2 score)[Tab.select.columns.idxOf column]?
      = row[Tab.select.columns.idxOf column]? := List.getElem?_set_ne (Ne.symm place)
  exact congrArg (fun cell => cell.getD []) cell

theorem score_key (row : Row) (score : Text)
    : Tab.select.key (Tab.select.change [("score", score)] row) = Tab.select.key row :=
  List.map_congr_left (fun _ part => score_value row score part)

/-- A score is part of no key and refers to no table, so changing it violates no constraint. -/
theorem conforms_score (db : Database) (score : Text) (conditions : List (String × Text))
    : Conforms (tablesAfter db (.update .select [("score", score)] conditions)) := by
  let changed (row : Row) : Row :=
    if Tab.select.meets conditions row then Tab.select.change [("score", score)] row else row
  have table
      : tablesAfter db (.update .select [("score", score)] conditions) .select
        = (db.tables .select).map changed :=
    Function.update_self _ _ _
  have others
      : ∀ tab ≠ .select,
          tablesAfter db (.update .select [("score", score)] conditions) tab
          = db.tables tab :=
    fun tab other => Function.update_of_ne other _ _
  have value
      : ∀ row, ∀ column ∈ Tab.select.primaryKey,
          Tab.select.value (changed row) column = Tab.select.value row column := by
    intro row column part
    simp only [changed]
    split
    · exact score_value row score part
    · rfl
  constructor
  · intro tab row member
    by_cases select : tab = .select
    · subst select
      rw [table] at member
      obtain ⟨old, present, rfl⟩ := List.mem_map.mp member
      have width := db.conforms.width .select old present
      simp only [changed]
      split
      · simpa [Tab.change] using width
      · exact width
    · rw [others tab select] at member
      exact db.conforms.width tab row member
  · intro tab
    by_cases select : tab = .select
    · subst select
      have keys : ((db.tables .select).map changed).map Tab.select.key
          = (db.tables .select).map Tab.select.key := by
        rw [List.map_map]
        exact List.map_congr_left (fun row _ => List.map_congr_left (value row))
      rw [table, keys]
      exact db.conforms.keys .select
    · rw [others tab select]
      exact db.conforms.keys tab
  · intro tab foreign refers row member
    have parent : foreign.table ≠ .select := by
      cases tab <;> simp [Tab.foreignKeys] at refers
      · simp [refers]
      · rcases refers with rfl | rfl <;> simp
    rw [others foreign.table parent]
    by_cases select : tab = .select
    · subst select
      rw [table] at member
      obtain ⟨old, present, rfl⟩ := List.mem_map.mp member
      have part : foreign.column ∈ Tab.select.primaryKey := by
        simp only [Tab.foreignKeys, List.mem_cons, List.not_mem_nil, or_false] at refers
        rcases refers with rfl | rfl <;> simp [Tab.primaryKey]
      rw [value old foreign.column part]
      exact db.conforms.references .select foreign refers old present
    · rw [others tab select] at member
      exact db.conforms.references tab foreign refers row member

/-- The selected row is a row of the table. -/
theorem Shows.stored (shows : dlg.Shows db) (found : dlg.list.rows[nCurSelRow]? = some row)
    : row ∈ db.tables dlg.nCurTabSel ∧ row.length = dlg.nCurTabSel.columns.length := by
  have present := shows.rows.subset (List.mem_of_getElem? found)
  exact ⟨present, db.conforms.width _ row present⟩

theorem cells_length (entered : Dlg) : entered.cells.length = entered.tab.columns.length := by
  cases entered <;> rfl

theorem mirrors_insert (shows : dlg.Shows db) {entered : Dlg} (same : entered.tab = dlg.nCurTabSel)
    : dlg.Mirrors db
        (
          if (db.execute (.insert entered.tab entered.cells)).2 ≠ -1 then
            dlg.insertRow entered.cells
          else
            dlg,
          db.execute (.insert entered.tab entered.cells)
        ) := by
  refine (mirrors_execute_iff shows (.insert entered.tab entered.cells)
    (dlg.insertRow entered.cells) same (Nat.le_refl 1) rfl setRowTexts_columns).mpr (fun _ => ?_)
  have width : entered.cells.length = dlg.list.columns.length := by
    rw [cells_length, same, shows.columns, List.length_map]
  rw [insertRow_rows width, Dml.apply]
  calc
    entered.cells :: dlg.list.rows
        ~ dlg.list.rows ++ [entered.cells] := List.perm_append_singleton _ _ |>.symm
    _ ~ db.tables entered.tab ++ [entered.cells] := (same ▸ shows.rows).append_right _

theorem mirrors_delete (shows : dlg.Shows db) (found : dlg.list.rows[nCurSelRow]? = some row)
    {dml : Dml} (sent : (dlg.deleteCall nCurSelRow).dml = some dml)
    : dlg.Mirrors db
        (
          if (db.execute dml).2 ≠ -1 then dlg.deleteRow nCurSelRow else dlg,
          db.execute dml
        ) := by
  rw [deleteCall_dml found, Option.some.injEq] at sent
  subst sent
  have each := dlg.nCurTabSel.key_length row
  have few := countP_meets_le_one db dlg.nCurTabSel each
  refine (mirrors_execute_iff shows (.delete dlg.nCurTabSel _) (dlg.deleteRow nCurSelRow) rfl few
    rfl rfl).mpr (fun _ => ?_)
  have erased := KeyedList.eraseIdx_perm (db.conforms.keys dlg.nCurTabSel) shows.rows found
  refine erased.trans (.of_eq (List.filter_congr (fun other _ => ?_)))
  have met := dlg.nCurTabSel.meets_key other each
  grind

theorem mirrors_update (shows : dlg.Shows db) {entered : Dlg} (same : entered.tab = dlg.nCurTabSel)
    (other : dlg.nCurTabSel ≠ .select) (found : dlg.list.rows[nCurSelRow]? = some row) {dml : Dml}
    (sent : (dlg.updateCall nCurSelRow entered).dml = some dml)
    : dlg.Mirrors db
        (
          if (db.execute dml).2 ≠ -1 then dlg.updateRow nCurSelRow entered else dlg,
          db.execute dml
        ) := by
  rw [updateCall_dml same other found, Option.some.injEq] at sent
  subst sent
  have each := dlg.nCurTabSel.key_length row
  have few := affected_update_le_one db dlg.nCurTabSel each
    (dlg.nCurTabSel.columns.zip entered.cells)
  have cellsWidth : entered.cells.length = dlg.nCurTabSel.columns.length :=
    same ▸ cells_length entered
  have rowWidth := (shows.stored found).2
  have rows := updateRow_rows same other found (rowWidth.trans cellsWidth.symm)
  have columns : (dlg.updateRow nCurSelRow entered).list.columns = dlg.list.columns := by
    cases entered with
    | student | course | clazz => exact setRowTexts_columns
    | select => rfl
  refine (mirrors_execute_iff shows (.update dlg.nCurTabSel _ _)
    (dlg.updateRow nCurSelRow entered) rfl few rfl columns).mpr (fun _ => ?_)
  let change := dlg.nCurTabSel.change (dlg.nCurTabSel.columns.zip entered.cells)
  have changed
      : dlg.list.rows.set nCurSelRow (change row)
        ~ (db.tables dlg.nCurTabSel).map
          (changeKey dlg.nCurTabSel.key (dlg.nCurTabSel.key row) change) :=
    KeyedList.set_perm (db.conforms.keys dlg.nCurTabSel) shows.rows found
  rw [rows, apply_update each]
  rwa [show change row = entered.cells from
    dlg.nCurTabSel.change_columns rowWidth cellsWidth] at changed

/-- A choice of a course is changed by the key in its dialog, and shown in the selected row. -/
theorem mirrors_updateSelect_iff (shows : dlg.Shows db) (entered : CSelectDlg)
    (select : dlg.nCurTabSel = .select) (found : dlg.list.rows[nCurSelRow]? = some row) {dml : Dml}
    (sent : (dlg.updateCall nCurSelRow (.select entered)).dml = some dml)
    : dlg.Mirrors db
          (
            if (db.execute dml).2 ≠ -1 then
              dlg.updateRow nCurSelRow (.select entered)
            else
              dlg,
            db.execute dml
          )
        ↔ dlg.Aims db (.update nCurSelRow (.select entered)) := by
  let wanted := [entered.strStuId, entered.strCourseId]
  let changes := [("score", entered.strScore)]
  obtain rfl : dml = .update .select changes (Tab.select.primaryKey.zip wanted) :=
    (Option.some.inj sent).symm
  have few := @affected_update_le_one db .select wanted rfl changes
  have shown := shows.rows
  have width := (shows.stored found).2
  rw [select] at shown width
  have mirrored := @KeyedList.set_perm_iff _ _ Tab.select.key _ _ row nCurSelRow _
    (Tab.select.change changes) wanted (db.conforms.keys .select) shown found
    (fun other _ => score_key other entered.strScore)
  have rows
      : (dlg.updateRow nCurSelRow (.select entered)).list.rows
        = dlg.list.rows.set nCurSelRow (Tab.select.change changes row) := by
    simp only [updateRow, CListCtrl.setItemText]
    rw [List.modify_eq_set_getElem?, found]
    rfl
  have still
      : ∀ other : Row, other.length = 3
        → (Tab.select.change changes other = other
          ↔ Tab.select.value other "score" = entered.strScore) := by
    intro other three
    obtain ⟨stuId, courseId, score, rfl⟩ := List.length_eq_three.mp three
    have set : Tab.select.change changes [stuId, courseId, score]
        = [stuId, courseId, entered.strScore] := rfl
    have value : Tab.select.value [stuId, courseId, score] "score" = score := rfl
    rw [set, value]
    simp [eq_comm]
  have conforms := conforms_score db entered.strScore (Tab.select.primaryKey.zip wanted)
  rw [mirrors_execute_iff shows (.update .select changes (Tab.select.primaryKey.zip wanted))
    (dlg.updateRow nCurSelRow (.select entered)) select.symm few rfl rfl, rows, apply_update rfl]
  refine Iff.trans ⟨fun all => all conforms, fun all _ => all⟩ (mirrored.trans (or_congr ?_ ?_))
  · rw [getItemText_of_found found, getItemText_of_found found]
    exact Iff.rfl
  · refine and_congr ?_ (forall₂_congr (fun other member => forall_congr' (fun _ => ?_)))
    · rw [still row width, getItemText_of_found found]
      exact eq_comm
    · exact still other (db.conforms.width .select other member)

/-- The handlers repeat in the list what their statements do in the table: always for an insertion,
a deletion and a change of students, courses and classes, and for a change of a choice exactly when
it aims at the selected row.
-/
theorem mirrors_iff (shows : dlg.Shows db) {edit : Edit}
    {result : CSchoolSystemDlg × Database × Int32} (handled : dlg.handle db edit = some result)
    : dlg.Mirrors db result ↔ dlg.Aims db edit := by
  obtain ⟨dml, sent, _⟩ := Option.bind_eq_some_iff.mp handled
  obtain ⟨replied, executed⟩ := handle_eq_some sent handled
  obtain ⟨after, dbAfter⟩ := result
  dsimp only at replied executed
  subst executed
  cases edit with
  | insert entered =>
      obtain ⟨same, edited⟩ := Option.ite_none_right_eq_some.mp replied
      obtain rfl := Option.some.inj edited
      obtain rfl := Option.some.inj sent
      exact iff_of_true (mirrors_insert shows same) trivial
  | delete nCurSelRow =>
      obtain ⟨inside, edited⟩ := Option.ite_none_right_eq_some.mp replied
      obtain rfl := Option.some.inj edited
      have found := List.getElem?_eq_getElem inside
      exact iff_of_true (mirrors_delete shows found sent) trivial
  | update nCurSelRow entered =>
      obtain ⟨⟨inside, same⟩, edited⟩ := Option.ite_none_right_eq_some.mp replied
      obtain rfl := Option.some.inj edited
      have found := List.getElem?_eq_getElem inside
      cases entered with
      | student | course | clazz =>
          have other : dlg.nCurTabSel ≠ .select := same ▸ nofun
          exact iff_of_true (mirrors_update shows same other found sent) trivial
      | select entered => exact mirrors_updateSelect_iff shows entered same.symm found sent

/-- One student of one class, who chose one course. -/
def oneChoiceTables : Tab → List Row
  | .student => [["1", "A", "9"].map String.toList]
  | .course => [["5", "C"].map String.toList]
  | .clazz => [["9", "B"].map String.toList]
  | .select => [["1", "5", "90"].map String.toList]

def oneChoice : Database := ⟨oneChoiceTables, by decide +kernel⟩

/-- The dialog on the tab of the choices. -/
def choices (db : Database) : CSchoolSystemDlg :=
  ⟨.select, ⟨Tab.select.columns.map heading, db.tables .select⟩⟩

theorem choices_shows (db : Database) : (choices db).Shows db := ⟨rfl, .refl _⟩

theorem handle_updateSelect (entered : CSelectDlg) (select : dlg.nCurTabSel = .select)
    (inside : nCurSelRow < dlg.list.rows.length) {dml : Dml}
    (sent : (dlg.updateCall nCurSelRow (.select entered)).dml = some dml)
    : dlg.handle db (.update nCurSelRow (.select entered))
      = some
          (
            if (db.execute dml).2 ≠ -1 then
              dlg.updateRow nCurSelRow (.select entered)
            else
              dlg,
            db.execute dml
          ) := by
  have valid : nCurSelRow < dlg.list.rows.length ∧ (Dlg.select entered).tab = dlg.nCurTabSel :=
    ⟨inside, select.symm⟩
  simp only [handle, call, sent, Option.bind_eq_bind, Option.bind_some, onReply,
    onBnClickedButtonUpdate, if_pos valid]
  rfl

/-- A new score for the selected choice. -/
theorem mirrors_newScore
    : ∃ result,
        (choices oneChoice).handle oneChoice
            (.update 0 (.select ⟨"1".toList, "5".toList, "95".toList⟩))
          = some result
        ∧ (choices oneChoice).Mirrors oneChoice result := by
  have handled := @handle_updateSelect (choices oneChoice) oneChoice 0
    ⟨"1".toList, "5".toList, "95".toList⟩ rfl (by decide) _ rfl
  have aims := (mirrors_iff (choices_shows oneChoice) handled).mpr (Or.inl (by decide +kernel))
  exact ⟨_, handled, aims⟩

/-- A new score for a choice that nobody made: no row of the table changes, and the selected row of
the list does.
-/
theorem mirrors_not_always
    : ¬ ∀ (dlg : CSchoolSystemDlg) (db : Database) (edit : Edit)
          (result : CSchoolSystemDlg × Database × Int32),
          dlg.Shows db
          → dlg.handle db edit = some result
          → dlg.Mirrors db result := by
  intro all
  let entered : CSelectDlg := ⟨"2".toList, "5".toList, "95".toList⟩
  have mirrored := all _ _ _ _ (choices_shows oneChoice)
    (@handle_updateSelect (choices oneChoice) oneChoice 0 entered rfl (by decide) _ rfl)
  have aims := (mirrors_updateSelect_iff (choices_shows oneChoice) entered rfl rfl rfl).mp mirrored
  rcases aims with keys | ⟨score, _⟩
  · exact absurd keys (by decide +kernel)
  · exact absurd score (by decide +kernel)

end CSchoolSystemDlg

end SchoolSystem.Dialog
