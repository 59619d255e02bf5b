import SchoolSystem.Dialog.Sql

/-! User strings in the SQL texts: when each of them is read back as the literal it was put
between quotes for.
-/

namespace SchoolSystem.Dialog

open QuotedLiteral (Statement Safe lex lex_size)

theorem format_of_ne {char : Char} (ne : char ≠ '%') (rest : Text) (args : List Text)
    : format (char :: rest) args = char :: format rest args := by
  rw [format]
  rintro _ _ _ _ same _
  exact ne same

/-- Formatting fills the holes of a template, by induction on its characters. -/
theorem format_eq_render (template : Text) (args : List Text)
    (free : (∀ piece ∈ (holes template).1, '%' ∉ piece) ∧ '%' ∉ (holes template).2)
    (count : args.length = (holes template).1.length)
    : format template args = (formatStatement template args).render := by
  induction template using holes.induct generalizing args with
  | case1 rest pieces final cut ih =>
      have whole : holes ('\'' :: '%' :: 's' :: '\'' :: rest) = ([] :: pieces, final) := by
        simp [holes, cut]
      cases args with
      | nil => simp [whole] at count
      | cons arg args =>
          rw [whole] at free count
          have tail := ih args
            (by rw [cut]; exact ⟨fun piece member => free.1 piece (by simp [member]), free.2⟩)
            (by simpa [cut] using count)
          rw [format_of_ne (by decide), format, format_of_ne (by decide), tail]
          simp [formatStatement, Statement.render, whole, cut]
  | case2 char rest other final cut ih =>
      have whole : holes (char :: rest) = ([], char :: final) := by
        rw [holes, cut]
        exact other
      rw [whole] at free count
      obtain ⟨head, last⟩ := not_or.mp (mt List.mem_cons.mpr free.2)
      have tail := ih args (by rw [cut]; exact ⟨by simp, last⟩) (by simpa [cut] using count)
      rw [format_of_ne (Ne.symm head), tail]
      simp [formatStatement, Statement.render, whole, cut]
  | case3 char rest other piece pieces final cut ih =>
      have whole : holes (char :: rest) = ((char :: piece) :: pieces, final) := by
        rw [holes, cut]
        exact other
      rw [whole] at free count
      obtain ⟨head, inPiece⟩ :=
        not_or.mp (mt List.mem_cons.mpr (free.1 (char :: piece) List.mem_cons_self))
      have pieceFree : ∀ other ∈ piece :: pieces, '%' ∉ other := by
        intro other member
        rcases List.mem_cons.mp member with rfl | later
        · exact inPiece
        · exact free.1 other (List.mem_cons_of_mem _ later)
      have tail := ih args (by rw [cut]; exact ⟨pieceFree, free.2⟩) (by simpa [cut] using count)
      rw [format_of_ne (Ne.symm head), tail]
      cases args with
      | nil => simp at count
      | cons arg args => simp [formatStatement, Statement.render, whole, cut]
  | case4 => simp [format, formatStatement, Statement.render, holes]

theorem formatStatement_wellFormed {template : Text} {count : Nat}
    (quoted : Quoted template count) (args : List Text)
    : (formatStatement template args).WellFormed := by
  obtain ⟨_, pieces, final, _⟩ := quoted
  refine ⟨?_, final⟩
  intro part member
  obtain ⟨nonempty, unquoted, _⟩ := pieces part.1 (List.of_mem_zip member).1
  exact ⟨nonempty, unquoted⟩

/-- Adding conditions to a text renders the statement with the filled fields, by induction on
the conditions.
-/
theorem foldl_addCondition (done text : Text) (conditions : List (String × Text))
    : conditions.foldl addCondition (done ++ text)
      = done ++ (searchStatement text (filled conditions)).render := by
  induction conditions generalizing done text with
  | nil => simp [searchStatement, filled, Statement.render]
  | cons condition rest ih =>
      obtain ⟨field, value⟩ := condition
      rw [List.foldl_cons]
      cases empty : value.isEmpty with
      | true =>
          have left : filled ((field, value) :: rest) = filled rest := by
            simp [filled, empty]
          have same : addCondition (done ++ text) (field, value) = done ++ text := by
            simp [addCondition, empty]
          rw [same, left]
          exact ih done text
      | false =>
          have kept : filled ((field, value) :: rest) = (field, value) :: filled rest := by
            simp [filled, empty]
          have added : addCondition (done ++ text) (field, value)
              = (done ++ text
                ++ (" AND ".toList ++ field.toList ++ " = ".toList)
                ++ ('\'' :: value ++ ['\'']))
                ++ [] := by
            simp [addCondition, empty]
          rw [added, ih, kept]
          simp [searchStatement, Statement.render]

theorem searchStatement_values (text : Text) (conditions : List (String × Text))
    : (searchStatement text conditions).parts.map Prod.snd = conditions.map Prod.snd := by
  induction conditions generalizing text with
  | nil => rfl
  | cons condition rest ih => simp [searchStatement, ih]

/-- Field names and texts without quotes give a well-formed statement. -/
theorem searchStatement_wellFormed {text : Text} {conditions : List (String × Text)}
    (textFree : '\'' ∉ text) (fieldFree : ∀ condition ∈ conditions, '\'' ∉ condition.1.toList)
    : (searchStatement text conditions).WellFormed := by
  induction conditions generalizing text with
  | nil => exact ⟨by simp [searchStatement], textFree⟩
  | cons condition rest ih =>
      obtain ⟨later, final⟩ := @ih [] (by simp)
        (fun other member => fieldFree other (List.mem_cons_of_mem _ member))
      refine ⟨?_, final⟩
      intro part member
      rcases List.mem_cons.mp member with rfl | inRest
      · have field := fieldFree condition List.mem_cons_self
        exact ⟨by simp, by simp [textFree, field]⟩
      · exact later part inRest

/-- The characters of one condition. -/
def conditionLength (condition : String × Text) : Nat :=
  condition.1.toList.length + condition.2.length + 10

theorem searchStatement_length (text : Text) (conditions : List (String × Text))
    : (searchStatement text conditions).render.length
      = text.length + (conditions.map conditionLength).sum := by
  induction conditions generalizing text with
  | nil => simp [searchStatement, Statement.render]
  | cons condition rest ih =>
      have tail := ih []
      have andLength : " AND ".toList.length = 5 := rfl
      have isLength : " = ".toList.length = 3 := rfl
      simp only [searchStatement, Statement.render, List.flatMap_cons, List.length_append,
        List.length_cons, List.length_nil, andLength, isLength, List.map_cons, List.sum_cons,
        conditionLength] at tail ⊢
      omega

/-- Leaving a field out makes the text shorter, by induction on the conditions. -/
theorem filled_shorter (conditions : List (String × Text))
    : ((filled conditions).map conditionLength).sum ≤ (conditions.map conditionLength).sum
      ∧ ((conditions.map conditionLength).sum ≤ ((filled conditions).map conditionLength).sum
        → ∀ condition ∈ conditions, condition.2 ≠ []) := by
  induction conditions with
  | nil => simp [filled]
  | cons condition rest ih =>
      obtain ⟨le, complete⟩ := ih
      cases empty : condition.2.isEmpty with
      | true =>
          have left : filled (condition :: rest) = filled rest := by simp [filled, empty]
          have positive : 1 ≤ conditionLength condition := by
            unfold conditionLength
            omega
          rw [left, List.map_cons, List.sum_cons]
          exact ⟨by omega, fun less => by omega⟩
      | false =>
          have kept : filled (condition :: rest) = condition :: filled rest := by
            simp [filled, empty]
          rw [kept, List.map_cons, List.map_cons, List.sum_cons, List.sum_cons]
          refine ⟨by omega, fun less => ?_⟩
          intro other member
          rcases List.mem_cons.mp member with rfl | later
          · simpa using empty
          · exact complete (by omega) other later

-----------------------------------------------------------------------------------------
-- All handlers
-----------------------------------------------------------------------------------------

/-- What holds of the fixed parts of a handler's text. -/
def Source.Checked : Source → Prop
  | .format template args => Quoted template.toList args.length
  | .search text conditions =>
      '\'' ∉ text.toList ∧ ∀ condition ∈ conditions, '\'' ∉ condition.1.toList

/-- The fixed parts of every handler are as they should be, by cases on the handler. -/
theorem Call.checked (call : Call) : call.source.Checked := by
  cases call with
  | insert dlg =>
      cases dlg with
      | student dlg =>
          show Quoted _ 3
          decide +kernel
      | course dlg =>
          show Quoted _ 2
          decide +kernel
      | clazz dlg =>
          show Quoted _ 2
          decide +kernel
      | select dlg =>
          show Quoted _ 3
          decide +kernel
  | delete strId strCourseId tab =>
      cases tab with
      | student =>
          show Quoted _ 1
          decide +kernel
      | course =>
          show Quoted _ 1
          decide +kernel
      | clazz =>
          show Quoted _ 1
          decide +kernel
      | select =>
          show Quoted _ 2
          decide +kernel
  | update strId dlg =>
      cases dlg with
      | student dlg =>
          show Quoted _ 4
          decide +kernel
      | course dlg =>
          show Quoted _ 3
          decide +kernel
      | clazz dlg =>
          show Quoted _ 3
          decide +kernel
      | select dlg =>
          show Quoted _ 3
          decide +kernel
  | search dlg =>
      cases dlg with
      | student dlg => exact ⟨by decide, by simp⟩
      | course dlg => exact ⟨by decide, by simp⟩
      | clazz dlg => exact ⟨by decide, by simp⟩
      | select dlg => exact ⟨by decide, by simp⟩

section Source

variable {source : Source}

theorem Source.sql_eq_render (checked : source.Checked)
    : source.sql = source.statement.render := by
  cases source with
  | format template args =>
      obtain ⟨count, pieces, _, final⟩ := checked
      exact format_eq_render template.toList args
        ⟨fun piece member => (pieces piece member).2.2, final⟩ count.symm
  | search text conditions =>
      exact foldl_addCondition [] text.toList conditions

theorem Source.statement_wellFormed (checked : source.Checked)
    : source.statement.WellFormed := by
  cases source with
  | format template args => exact formatStatement_wellFormed checked args
  | search text conditions =>
      obtain ⟨textFree, fieldFree⟩ := checked
      exact searchStatement_wellFormed textFree
        (fun condition member => fieldFree condition (List.mem_of_mem_filter member))

/-- The values of the statement are the handler's strings, without empty ones in a search. -/
theorem Source.statement_safe_iff (checked : source.Checked)
    : (∀ part ∈ source.statement.parts, Safe part.2) ↔ ∀ arg ∈ source.args, Safe arg := by
  have values : (∀ part ∈ source.statement.parts, Safe part.2)
      ↔ ∀ value ∈ source.statement.parts.map Prod.snd, Safe value := by
    simp only [List.mem_map, forall_exists_index, and_imp, forall_apply_eq_imp_iff₂]
  rw [values]
  cases source with
  | format template args =>
      have same : ((holes template.toList).1.zip args).map Prod.snd = args :=
        List.map_snd_zip (Nat.le_of_eq checked.1.symm)
      simp only [statement, formatStatement, same, Source.args]
  | search text conditions =>
      simp only [statement, searchStatement_values, Source.args]
      constructor
      · intro safe arg member
        obtain ⟨condition, inConditions, rfl⟩ := List.mem_map.mp member
        cases empty : condition.2.isEmpty with
        | true =>
            rw [List.isEmpty_iff.mp empty]
            exact .nil
        | false =>
            refine safe condition.2 (List.mem_map_of_mem (List.mem_filter.mpr ⟨inConditions, ?_⟩))
            rw [empty]
            rfl
      · intro safe value member
        obtain ⟨condition, inFilled, rfl⟩ := List.mem_map.mp member
        exact safe condition.2 (List.mem_map_of_mem (List.mem_of_mem_filter inFilled))

/-- A text as long as the full statement leaves no field out. -/
theorem Source.complete_of_length (checked : source.Checked)
    (length : source.fullStatement.render.length ≤ source.sql.length)
    : source.Complete := by
  rw [sql_eq_render checked] at length
  cases source with
  | format template args => trivial
  | search text conditions =>
      simp only [fullStatement, statement, searchStatement_length] at length
      exact (filled_shorter conditions).2 (by omega)

theorem Source.fullStatement_of_complete (complete : source.Complete)
    : source.fullStatement = source.statement := by
  cases source with
  | format template args => rfl
  | search text conditions =>
      have all : filled conditions = conditions := by
        refine List.filter_eq_self.mpr ?_
        intro condition member
        have nonempty := complete condition member
        simpa using nonempty
      simp only [fullStatement, statement, all]

end Source

/-- A handler's text is read with one literal for every string that it puts into it, and with
these strings as the values, exactly when all of its strings are safe. With one literal for
every string of the handler it is read exactly when, moreover, a search leaves no field out.
-/
theorem Call.lex_sql_iff (call : Call)
    : (lex call.sql = some call.source.statement.tokens
        ↔ ∀ arg ∈ call.source.args, Safe arg)
      ∧ (lex call.sql = some call.source.fullStatement.tokens
        ↔ (∀ arg ∈ call.source.args, Safe arg) ∧ call.source.Complete) := by
  have checked := call.checked
  have meant : lex call.sql = some call.source.statement.tokens
      ↔ ∀ arg ∈ call.source.args, Safe arg := by
    rw [← Source.statement_safe_iff checked,
      ← Statement.lex_render_iff (Source.statement_wellFormed checked),
      ← Source.sql_eq_render checked, Call.sql]
  refine ⟨meant, ?_⟩
  constructor
  · intro lexed
    have size := (lex_size lexed).1
    rw [Statement.size_tokens] at size
    have complete := Source.complete_of_length checked size
    rw [Source.fullStatement_of_complete complete] at lexed
    exact ⟨meant.mp lexed, complete⟩
  · rintro ⟨safe, complete⟩
    rw [Source.fullStatement_of_complete complete]
    exact meant.mpr safe

/-- What the strings of a handler do not change: its template, or its text and its fields. -/
def Source.fixed : Source → String ⊕ String × List String
  | .format template _ => .inl template
  | .search text conditions => .inr (text, conditions.map Prod.fst)

theorem searchStatement_pieces {left right : List (String × Text)} (text : Text)
    (same : left.map Prod.fst = right.map Prod.fst)
    : (searchStatement text left).parts.map Prod.fst
        = (searchStatement text right).parts.map Prod.fst
      ∧ (searchStatement text left).final = (searchStatement text right).final := by
  induction left generalizing right text with
  | nil =>
      cases right with
      | nil => exact ⟨rfl, rfl⟩
      | cons other rest => cases same
  | cons condition rest ih =>
      cases right with
      | nil => cases same
      | cons other more =>
          obtain ⟨field, later⟩ := List.cons.inj same
          obtain ⟨pieces, final⟩ := ih [] later
          have name : condition.1 = other.1 := field
          exact ⟨by simp [searchStatement, name, pieces], final⟩

theorem Source.pieces_eq {left right : Source} (leftChecked : left.Checked)
    (rightChecked : right.Checked) (same : left.fixed = right.fixed)
    : left.fullStatement.parts.map Prod.fst = right.fullStatement.parts.map Prod.fst
      ∧ left.fullStatement.final = right.fullStatement.final := by
  cases left with
  | format template args =>
      cases right with
      | search text conditions => cases same
      | format other others =>
          obtain rfl := Sum.inl.inj same
          have pieces : ∀ args : List Text, Quoted template.toList args.length
              → ((holes template.toList).1.zip args).map Prod.fst
                = (holes template.toList).1 :=
            fun args quoted => List.map_fst_zip (Nat.le_of_eq quoted.1)
          refine ⟨?_, rfl⟩
          simp only [fullStatement, formatStatement, pieces args leftChecked,
            pieces others rightChecked]
  | search text conditions =>
      cases right with
      | format template args => cases same
      | search other others =>
          obtain ⟨rfl, fields⟩ := Prod.mk.inj (Sum.inr.inj same)
          exact searchStatement_pieces text.toList fields

theorem Call.fixed_eq {left right : Call} (same : left.handler = right.handler)
    : left.source.fixed = right.source.fixed := by
  cases left with
  | insert dlg =>
      cases right with
      | insert other =>
          cases dlg <;> cases other <;> first | rfl | simp [handler, Dlg.tab] at same
      | delete _ _ _ => cases same
      | update _ _ => cases same
      | search _ => cases same
  | delete strId strCourseId tab =>
      cases right with
      | delete otherId otherCourseId other =>
          obtain rfl := Handler.delete.inj same
          cases tab <;> rfl
      | insert _ => cases same
      | update _ _ => cases same
      | search _ => cases same
  | update strId dlg =>
      cases right with
      | update otherId other =>
          cases dlg <;> cases other <;> first | rfl | simp [handler, Dlg.tab] at same
      | insert _ => cases same
      | delete _ _ _ => cases same
      | search _ => cases same
  | search dlg =>
      cases right with
      | search other =>
          cases dlg <;> cases other <;> first | rfl | simp [handler, Dlg.tab] at same
      | insert _ => cases same
      | delete _ _ _ => cases same
      | update _ _ => cases same

/-- Two calls of one handler mean the same statement but for the values. -/
theorem Call.pieces_eq {left right : Call} (same : left.handler = right.handler)
    : left.source.fullStatement.parts.map Prod.fst
        = right.source.fullStatement.parts.map Prod.fst
      ∧ left.source.fullStatement.final = right.source.fullStatement.final :=
  Source.pieces_eq left.checked right.checked (Call.fixed_eq same)

/-- A quote in a class name ends the literal that the name was meant to be. -/
theorem lex_sql_not_always
    : ¬ ∀ call : Call, lex call.sql = some call.source.fullStatement.tokens := by
  intro always
  have quoted := always (.insert (.clazz ⟨['1'], ['a', '\'', 'b']⟩))
  revert quoted
  decide

end SchoolSystem.Dialog
