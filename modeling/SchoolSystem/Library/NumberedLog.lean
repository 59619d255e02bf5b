import SchoolSystem.Library.ReorderBuffer

/-! Logs whose items carry consecutive numbers.
An item of such a log is known by its number, so a block of items with consecutive numbers
is a segment of the log.
-/

namespace NumberedLog

variable {Item : Type*} {number : Item → Int} {base top : Int} {log : List Item}

/-- The items of the log are numbered from `base` up to but excluding `top`, in order. -/
def Numbered (number : Item → Int) (base top : Int) (log : List Item) : Prop :=
  base ≤ top ∧ log.map number = Int.range base top

theorem range_length (low high : Int) : (Int.range low high).length = (high - low).toNat := by
  simp [Int.range]

theorem numbered_nil (number : Item → Int) (base : Int) : Numbered number base base [] :=
  ⟨le_refl base, by simp [ReorderBuffer.range_self]⟩

/-- Appending items that continue the numbering. -/
theorem Numbered.append {next : Int} {more : List Item} (numbered : Numbered number base top log)
    (continues : Numbered number top next more)
    : Numbered number base next (log ++ more) := by
  refine ⟨numbered.1.trans continues.1, ?_⟩
  rw [List.map_append, numbered.2, continues.2,
    ← ReorderBuffer.range_append numbered.1 continues.1]

theorem Numbered.bounds (numbered : Numbered number base top log) {item : Item}
    (member : item ∈ log)
    : base ≤ number item ∧ number item < top := by
  apply Int.mem_range_iff.mp
  rw [← numbered.2]
  exact List.mem_map_of_mem member

/-- Nothing is numbered exactly when the top is still the base. -/
theorem Numbered.nil_iff (numbered : Numbered number base top log)
    : log = [] ↔ top = base := by
  have size := congrArg List.length numbered.2
  simp only [List.length_map, range_length] at size
  have le := numbered.1
  constructor
  · rintro rfl
    simp only [List.length_nil] at size
    omega
  · rintro rfl
    exact List.length_eq_zero_iff.mp (by omega)

theorem Numbered.exists_item (numbered : Numbered number base top log) {n : Int}
    (lower : base ≤ n) (upper : n < top)
    : ∃ item ∈ log, number item = n := by
  have inRange : n ∈ log.map number := by
    rw [numbered.2]
    exact Int.mem_range_iff.mpr ⟨lower, upper⟩
  exact List.mem_map.mp inRange

theorem Numbered.injective (numbered : Numbered number base top log) {left right : Item}
    (leftMember : left ∈ log) (rightMember : right ∈ log)
    (same : number left = number right)
    : left = right := by
  have nodup : (log.map number).Nodup := by
    rw [numbered.2]
    exact ReorderBuffer.range_nodup base top
  exact List.inj_on_of_nodup_map nodup leftMember rightMember same

/-- Lists of log items with the same numbers are the same list, by parallel induction. -/
theorem Numbered.eq_of_numbers (numbered : Numbered number base top log)
    {left right : List Item} (leftSubset : left ⊆ log) (rightSubset : right ⊆ log)
    (same : left.map number = right.map number)
    : left = right := by
  induction left generalizing right with
  | nil => exact (List.map_eq_nil_iff.mp same.symm).symm
  | cons head rest ih =>
      cases right with
      | nil => simp at same
      | cons other more =>
          obtain ⟨first, later⟩ := List.cons.inj same
          have heads := numbered.injective (leftSubset (by simp)) (rightSubset (by simp)) first
          rw [heads, ih (List.subset_of_cons_subset leftSubset)
            (List.subset_of_cons_subset rightSubset) later]

/-- The first items of the log, up to a number. -/
theorem Numbered.take_numbers (numbered : Numbered number base top log) {n : Int}
    (lower : base ≤ n) (upper : n ≤ top)
    : (log.take (n - base).toNat).map number = Int.range base n := by
  rw [List.map_take, numbered.2, ReorderBuffer.range_append lower upper]
  exact List.take_left' (range_length base n)

/-- A block of log items with consecutive numbers extends the prefix that ends where the
block begins.
-/
theorem Numbered.take_append_block (numbered : Numbered number base top log)
    {low high : Int} {block : List Item} (lower : base ≤ low) (le : low ≤ high)
    (upper : high ≤ top) (subset : block ⊆ log)
    (numbers : block.map number = Int.range low high)
    : log.take (low - base).toNat ++ block = log.take (high - base).toNat := by
  apply numbered.eq_of_numbers
  · exact List.append_subset.mpr ⟨List.take_subset _ _, subset⟩
  · exact List.take_subset _ _
  · rw [List.map_append, numbered.take_numbers lower (le.trans upper), numbers,
      numbered.take_numbers (lower.trans le) upper,
      ← ReorderBuffer.range_append lower le]

end NumberedLog
