import Mathlib.Data.List.Nodup
import Mathlib.Data.List.Perm.Basic

/-! Lists of rows that differ in their keys, and a shown copy of such a list in another order:
what an edit of one shown row means for the rows with a given key.
-/

namespace KeyedList

open scoped List

variable {Row Key : Type*} {key : Row → Key} {stored shown : List Row} {row : Row} {index : Nat}

/-- Rows of a keyed list are told apart by their keys. -/
theorem eq_of_key {other : Row} (distinct : (stored.map key).Nodup) (present : row ∈ stored)
    (alsoPresent : other ∈ stored) (same : key row = key other)
    : row = other :=
  List.inj_on_of_nodup_map distinct present alsoPresent same

/-- An order of the rows keeps their keys apart. -/
theorem distinct_of_perm (distinct : (stored.map key).Nodup) (same : shown ~ stored)
    : (shown.map key).Nodup :=
  (same.map key).nodup_iff.mpr distinct

/-- The list around the row at an index. -/
theorem split_at (found : shown[index]? = some row)
    : ∃ before after,
        shown = before ++ row :: after
        ∧ shown.eraseIdx index = before ++ after
        ∧ ∀ new, shown.set index new = before ++ new :: after := by
  obtain ⟨inside, rfl⟩ := List.getElem?_eq_some_iff.mp found
  refine ⟨shown.take index, shown.drop (index + 1), ?_, ?_, fun new => ?_⟩
  · rw [List.getElem_cons_drop, List.take_append_drop]
  · exact List.eraseIdx_eq_take_drop_succ shown index
  · rw [List.set_eq_take_append_cons_drop, if_pos inside]

/-- The other rows have other keys. -/
theorem others_ne {before after : List Row} (distinct : ((before ++ row :: after).map key).Nodup)
    : ∀ other ∈ before ++ after, key other ≠ key row := by
  have moved : (row :: (before ++ after)).map key ~ (before ++ row :: after).map key :=
    List.perm_middle.symm.map key
  have apart := (List.nodup_cons.mp (moved.nodup_iff.mpr distinct)).1
  exact fun other member same => apart (List.mem_map.mpr ⟨other, member, same⟩)

variable [DecidableEq Key]

/-- At most one row has a given key. -/
theorem countP_key_le_one (distinct : (stored.map key).Nodup) (wanted : Key)
    : stored.countP (fun row => key row = wanted) ≤ 1 := by
  have counted : stored.countP (fun row => key row = wanted) = (stored.map key).count wanted := by
    rw [List.count, List.countP_map]
    exact List.countP_congr (fun row _ => by simp)
  rw [counted]
  exact List.nodup_iff_count_le_one.mp distinct wanted

/-- Erasing a shown row takes the row with its key away. -/
theorem eraseIdx_perm (distinct : (stored.map key).Nodup) (same : shown ~ stored)
    (found : shown[index]? = some row)
    : shown.eraseIdx index ~ stored.filter (fun other => key other ≠ key row) := by
  obtain ⟨before, after, rfl, erased, _⟩ := split_at found
  have others := others_ne (distinct_of_perm distinct same)
  have kept
      : (before ++ row :: after).filter (fun other => key other ≠ key row)
        = before ++ after := by
    have all : (before ++ after).filter (fun other => key other ≠ key row) = before ++ after :=
      List.filter_eq_self.mpr (fun other member => by simpa using others other member)
    rw [List.filter_append] at all ⊢
    rw [List.filter_cons_of_neg (by simp)]
    exact all
  rw [erased, ← kept]
  exact same.filter _

/-- Changes the rows with a key. -/
def changeKey (key : Row → Key) (wanted : Key) (change : Row → Row) (row : Row) : Row :=
  if key row = wanted then change row else row

variable {change : Row → Row} {wanted : Key}

theorem changeKey_self : changeKey key (key row) change row = change row := by simp [changeKey]

theorem changeKey_of_ne (different : key row ≠ wanted) : changeKey key wanted change row = row := by
  simp [changeKey, different]

/-- A change that leaves all rows with its key alone changes none. -/
theorem map_changeKey_eq_self
    (still : ∀ other ∈ stored, key other = wanted → change other = other)
    : stored.map (changeKey key wanted change) = stored := by
  have all : ∀ other ∈ stored, changeKey key wanted change other = id other := by
    intro other member
    by_cases same : key other = wanted
    · subst same
      exact changeKey_self.trans (still other member rfl)
    · exact changeKey_of_ne same
  rw [List.map_congr_left all, List.map_id]

/-- Changing a shown row changes the row with its key. -/
theorem set_perm (distinct : (stored.map key).Nodup) (same : shown ~ stored)
    (found : shown[index]? = some row)
    : shown.set index (change row) ~ stored.map (changeKey key (key row) change) := by
  obtain ⟨before, after, rfl, _, set⟩ := split_at found
  have others := others_ne (distinct_of_perm distinct same)
  have kept : (before ++ after).map (changeKey key (key row) change) = before ++ after :=
    map_changeKey_eq_self (fun other member equal => absurd equal (others other member))
  have changed
      : (before ++ row :: after).map (changeKey key (key row) change)
        = before ++ change row :: after := by
    rw [List.map_append] at kept ⊢
    obtain ⟨front, back⟩ := List.append_inj kept (List.length_map _)
    rw [front, List.map_cons, back, changeKey_self]
  rw [set, ← changed]
  exact same.map _

/-- A shown row is changed together with the row that has the wanted key, by a change that keeps
keys: the two agree when that is the key of the shown row, and otherwise only when the change leaves
both rows as they are.
-/
theorem set_perm_iff (distinct : (stored.map key).Nodup) (same : shown ~ stored)
    (found : shown[index]? = some row) (keeps : ∀ other ∈ stored, key (change other) = key other)
    : shown.set index (change row) ~ stored.map (changeKey key wanted change)
      ↔ wanted = key row
        ∨ change row = row ∧ ∀ other ∈ stored, key other = wanted → change other = other := by
  have present : row ∈ stored := same.subset (List.mem_of_getElem? found)
  constructor
  · intro mirrored
    by_cases own : wanted = key row
    · exact Or.inl own
    have distinctAfter : ((stored.map (changeKey key wanted change)).map key).Nodup := by
      have keys
          : (stored.map (changeKey key wanted change)).map key = stored.map key := by
        rw [List.map_map]
        refine List.map_congr_left (fun other member => ?_)
        by_cases chosen : key other = wanted
        · rw [Function.comp_apply, ← chosen, changeKey_self, keeps other member]
        · rw [Function.comp_apply, changeKey_of_ne chosen]
      rwa [keys]
    -- The stored row with the key of the shown one has not changed.
    have unchanged : row ∈ stored.map (changeKey key wanted change) :=
      List.mem_map.mpr ⟨row, present, changeKey_of_ne (Ne.symm own)⟩
    have set : change row ∈ stored.map (changeKey key wanted change) := by
      obtain ⟨inside, _⟩ := List.getElem?_eq_some_iff.mp found
      exact mirrored.subset (List.mem_set inside _)
    have fixed : change row = row := eq_of_key distinctAfter set unchanged (keeps row present)
    refine Or.inr ⟨fixed, fun other member chosen => ?_⟩
    have untouched : shown.set index (change row) = shown := by
      rw [fixed]
      obtain ⟨inside, rfl⟩ := List.getElem?_eq_some_iff.mp found
      exact List.set_getElem_self inside
    have back : change other ∈ stored := by
      have changed : change other ∈ stored.map (changeKey key wanted change) :=
        List.mem_map.mpr ⟨other, member, by rw [← chosen, changeKey_self]⟩
      rw [untouched] at mirrored
      exact same.subset (mirrored.symm.subset changed)
    exact eq_of_key distinct back member (keeps other member)
  · rintro (rfl | ⟨fixed, still⟩)
    · exact set_perm distinct same found
    · obtain ⟨inside, rfl⟩ := List.getElem?_eq_some_iff.mp found
      rw [fixed, List.set_getElem_self inside, map_changeKey_eq_self still]
      exact same

end KeyedList
