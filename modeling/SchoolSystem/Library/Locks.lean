import Mathlib.Logic.Function.Basic

/-! Locks, one for each key, as flags that are set while a party holds them. -/

namespace Locks

variable {Party Key : Type*}

/-- A lock that is held is marked, and no two parties hold it. -/
structure Exclusive (locked : Key → Bool) (holds : Party → Key → Prop) : Prop where
  marked : ∀ party key, holds party key → locked key = true
  alone : ∀ left right key, holds left key → holds right key → left = right

variable {locked : Key → Bool} {holds later : Party → Key → Prop} {party : Party} {key : Key}

theorem exclusive_of_none (none : ∀ party key, ¬ holds party key)
    : Exclusive locked holds where
  marked party key held := absurd held (none party key)
  alone left _ key held := absurd held (none left key)

theorem Exclusive.mono (exclusive : Exclusive locked holds)
    (fewer : ∀ party key, later party key → holds party key)
    : Exclusive locked later where
  marked party key held := exclusive.marked party key (fewer party key held)
  alone left right key first second :=
    exclusive.alone left right key (fewer left key first) (fewer right key second)

/-- A lock that is marked is held by a party, so that somebody can release it. -/
def Attended (locked : Key → Bool) (holds : Party → Key → Prop) : Prop :=
  ∀ key, locked key = true → ∃ party, holds party key

theorem Attended.mono (attended : Attended locked holds)
    (kept : ∀ party key, holds party key → later party key)
    : Attended locked later := by
  intro key marked
  obtain ⟨party, held⟩ := attended key marked
  exact ⟨party, kept party key held⟩

variable [DecidableEq Key]

/-- A party takes a lock that is free. -/
theorem Exclusive.acquire (exclusive : Exclusive locked holds) (free : locked key = false)
    (only : ∀ other place, later other place → holds other place ∨ other = party ∧ place = key)
    : Exclusive (Function.update locked key true) later := by
  have nobody : ∀ other, ¬ holds other key := by
    intro other held
    rw [exclusive.marked other key held] at free
    cases free
  constructor
  · intro other place held
    by_cases same : place = key
    · rw [same, Function.update_self]
    · rcases only other place held with before | ⟨_, now⟩
      · rw [Function.update_of_ne same]
        exact exclusive.marked other place before
      · exact absurd now same
  · intro left right place first second
    rcases only left place first with before | ⟨rfl, rfl⟩
    · rcases only right place second with alsoBefore | ⟨_, rfl⟩
      · exact exclusive.alone left right place before alsoBefore
      · exact absurd before (nobody left)
    · rcases only right place second with before | ⟨rfl, _⟩
      · exact absurd before (nobody right)
      · rfl

/-- The party that holds a lock releases it. -/
theorem Exclusive.release (exclusive : Exclusive locked holds) (held : holds party key)
    (fewer : ∀ other place, later other place → holds other place ∧ ¬ (other = party ∧ place = key))
    : Exclusive (Function.update locked key false) later := by
  constructor
  · intro other place holding
    obtain ⟨before, different⟩ := fewer other place holding
    by_cases same : place = key
    · subst same
      exact absurd ⟨exclusive.alone other party place before held, rfl⟩ different
    · rw [Function.update_of_ne same]
      exact exclusive.marked other place before
  · intro left right place first second
    exact exclusive.alone left right place (fewer left place first).1 (fewer right place second).1

/-- The party that takes a lock holds it. -/
theorem Attended.acquire (attended : Attended locked holds) (held : later party key)
    (kept : ∀ other place, holds other place → later other place)
    : Attended (Function.update locked key true) later := by
  intro place marked
  by_cases same : place = key
  · exact ⟨party, same ▸ held⟩
  · rw [Function.update_of_ne same] at marked
    obtain ⟨other, holding⟩ := attended place marked
    exact ⟨other, kept other place holding⟩

/-- The locks other than the released one keep their holders. -/
theorem Attended.release (attended : Attended locked holds)
    (kept : ∀ other place, place ≠ key → holds other place → later other place)
    : Attended (Function.update locked key false) later := by
  intro place marked
  by_cases same : place = key
  · rw [same, Function.update_self] at marked
    cases marked
  · rw [Function.update_of_ne same] at marked
    obtain ⟨other, holding⟩ := attended place marked
    exact ⟨other, kept other place same holding⟩

end Locks
