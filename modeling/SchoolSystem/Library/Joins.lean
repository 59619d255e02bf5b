import Mathlib.Data.List.Basic

/-! Joins of tables that are lists of rows, by a condition on the pairs. -/

namespace Joins

variable {Left Right : Type*} (rows : List Left) (others : List Right)
  (condition : Left → Right → Bool)

/-- The pairs that meet the condition. -/
def inner : List (Left × Right) :=
  rows.flatMap (fun row => (others.filter (condition row)).map (fun other => (row, other)))

/-- The pairs that meet the condition, and each row that meets it with none, alone. -/
def leftOuter : List (Left × Option Right) :=
  rows.flatMap
    fun row =>
      match others.filter (condition row) with
      | [] => [(row, none)]
      | found => found.map (fun other => (row, some other))

variable {rows others condition}

theorem mem_inner {pair : Left × Right}
    : pair ∈ inner rows others condition
      ↔ pair.1 ∈ rows ∧ pair.2 ∈ others ∧ condition pair.1 pair.2 = true := by
  obtain ⟨row, other⟩ := pair
  simp only [inner, List.mem_flatMap, List.mem_map, List.mem_filter, Prod.mk.injEq]
  constructor
  · rintro ⟨_, present, _, ⟨found, met⟩, rfl, rfl⟩
    exact ⟨present, found, met⟩
  · rintro ⟨present, found, met⟩
    exact ⟨row, present, other, ⟨found, met⟩, rfl, rfl⟩

/-- A left join adds nothing where every row meets the condition with some other row. -/
theorem leftOuter_eq_map_inner
    (matched : ∀ row ∈ rows, ∃ other ∈ others, condition row other = true)
    : leftOuter rows others condition
      = (inner rows others condition).map (fun pair => (pair.1, some pair.2)) := by
  rw [leftOuter, inner, List.map_flatMap]
  refine List.flatMap_congr (fun row present => ?_)
  obtain ⟨other, found, met⟩ := matched row present
  cases kept : others.filter (condition row) with
  | nil => simp [List.filter_eq_nil_iff.mp kept other found] at met
  | cons first rest => simp

end Joins
