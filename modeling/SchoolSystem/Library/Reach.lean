import SchoolSystem.Library.ReorderBuffer

/-! What a reorder buffer can still release. Behind a held number that has passed, or that is held
twice, nothing is ever released again.
-/

namespace ReorderBuffer

variable {next n m : Int} {held : List Int} {buffer : Buffer}

/-- The held numbers that are released once the missing ones come. -/
def reach (next : Int) : List Int → List Int
  | [] => []
  | head :: rest => if next ≤ head then head :: reach (head + 1) rest else []

def Buffer.reach (buffer : Buffer) : List Int := ReorderBuffer.reach buffer.next buffer.held

/-- The buffer does not hold the next number at its head. -/
def Buffer.Steady (buffer : Buffer) : Prop := buffer.held.head? ≠ some buffer.next

/-- The held numbers are ascending and all of them are ahead. -/
structure Buffer.Clear (buffer : Buffer) : Prop where
  sorted : buffer.held.Pairwise (· < ·)
  ahead : ∀ n ∈ buffer.held, buffer.next < n

-----------------------------------------------------------------------------------------
-- The reach of a list
-----------------------------------------------------------------------------------------

theorem le_of_mem_reach (reached : m ∈ reach next held) : next ≤ m := by
  induction held generalizing next with
  | nil => cases reached
  | cons head rest ih =>
      rw [reach] at reached
      split at reached
      · rcases List.mem_cons.mp reached with rfl | later
        · assumption
        · have after := ih later
          omega
      · cases reached

/-- A larger next number reaches no more. -/
theorem reach_mono {more : Int} (le : next ≤ more) (reached : m ∈ reach more held)
    : m ∈ reach next held := by
  cases held with
  | nil => exact reached
  | cons head rest =>
      rw [reach] at reached ⊢
      split at reached
      · rw [if_pos (by omega)]
        exact reached
      · cases reached

/-- A number that comes is reached at most itself, by induction on the held numbers. -/
theorem mem_reach_insert (reached : m ∈ reach next (insert n held))
    : m = n ∨ m ∈ reach next held := by
  induction held generalizing next with
  | nil =>
      rw [insert, reach] at reached
      split at reached
      · exact Or.inl (List.mem_singleton.mp reached)
      · cases reached
  | cons head rest ih =>
      rw [insert] at reached
      split at reached
      · rw [reach] at reached
        split at reached
        · rcases List.mem_cons.mp reached with same | later
          · exact Or.inl same
          · exact Or.inr (reach_mono (by omega) later)
        · cases reached
      · rw [reach] at reached ⊢
        split at reached
        · rw [if_pos ‹_›]
          rcases List.mem_cons.mp reached with same | later
          · exact Or.inr (same ▸ List.mem_cons_self)
          · exact (ih later).imp_right (List.mem_cons_of_mem _)
        · cases reached

/-- Draining leaves in reach what it does not release, by induction on the held numbers. -/
theorem mem_reach_drain (reached : m ∈ reach next held)
    : m < (drain next held).next ∨ m ∈ (drain next held).reach := by
  induction held generalizing next with
  | nil => cases reached
  | cons head rest ih =>
      rw [drain]
      split
      · rename_i same
        rw [reach, if_pos (le_of_eq same.symm)] at reached
        rcases List.mem_cons.mp reached with rfl | later
        · have forth := (drain_spec (next + 1) rest).1
          exact Or.inl (by omega)
        · rw [same] at later
          exact ih later
      · exact Or.inr reached

theorem reach_of_drain (reached : m ∈ (drain next held).reach) : m ∈ reach next held := by
  induction held generalizing next with
  | nil => cases reached
  | cons head rest ih =>
      rw [drain] at reached
      split at reached
      · rename_i same
        have before := ih reached
        rw [reach, if_pos (le_of_eq same.symm), same]
        exact List.mem_cons_of_mem _ before
      · exact reached

/-- Draining stops at a number that it does not reach, by induction on the held numbers. -/
theorem drain_le (le : next ≤ m) (unreached : m ∉ reach next held)
    : (drain next held).next ≤ m := by
  induction held generalizing next with
  | nil => exact le
  | cons head rest ih =>
      rw [drain]
      split
      · rename_i same
        rw [reach, if_pos (le_of_eq same.symm), same, List.mem_cons, not_or] at unreached
        obtain ⟨different, later⟩ := unreached
        exact ih (by omega) later
      · exact le

-----------------------------------------------------------------------------------------
-- Arrivals
-----------------------------------------------------------------------------------------

/-- A number that is out of reach stays out of reach, until it comes itself. -/
theorem Buffer.unreached_arrive (le : buffer.next ≤ m) (unreached : m ∉ buffer.reach)
    (other : n ≠ m)
    : (buffer.arrive n).next ≤ m ∧ m ∉ (buffer.arrive n).reach := by
  rw [arrive]
  split
  · rename_i same
    have later : m ∉ ReorderBuffer.reach (n + 1) buffer.held :=
      fun reached => unreached (reach_mono (by omega) reached)
    exact ⟨drain_le (by omega) later, fun reached => later (reach_of_drain reached)⟩
  · split
    · refine ⟨le, fun reached => ?_⟩
      rcases mem_reach_insert reached with same | before
      · exact other same.symm
      · exact unreached before
    · exact ⟨le, unreached⟩

/-- A number that is in reach is released or stays in reach when the next number comes. -/
theorem Buffer.reached_arrive (steady : buffer.Steady) (reached : m ∈ buffer.reach)
    : m < (buffer.arrive buffer.next).next ∨ m ∈ (buffer.arrive buffer.next).reach := by
  rw [arrive, if_pos rfl]
  refine mem_reach_drain ?_
  obtain ⟨next, held⟩ := buffer
  cases held with
  | nil => cases reached
  | cons head rest =>
      have different : head ≠ next := fun same => steady (congrArg some same)
      simp only [Buffer.reach, ReorderBuffer.reach] at reached ⊢
      split at reached
      · rw [if_pos (by omega)]
        exact reached
      · cases reached

/-- The next number itself is not in reach: it would be at the head. -/
theorem Buffer.Steady.unreached (steady : buffer.Steady) : buffer.next ∉ buffer.reach := by
  obtain ⟨next, held⟩ := buffer
  intro reached
  cases held with
  | nil => cases reached
  | cons head rest =>
      simp only [Buffer.reach, ReorderBuffer.reach] at reached
      split at reached
      · rcases List.mem_cons.mp reached with atHead | later
        · exact steady (congrArg some atHead.symm)
        · have after := le_of_mem_reach later
          omega
      · cases reached

theorem insert_head (n : Int) (held : List Int)
    : (insert n held).head? = some n ∨ (insert n held).head? = held.head? := by
  cases held with
  | nil => exact Or.inl rfl
  | cons head rest =>
      rw [insert]
      split
      · exact Or.inl rfl
      · exact Or.inr rfl

theorem Buffer.Steady.arrive (steady : buffer.Steady) (n : Int) : (buffer.arrive n).Steady := by
  rw [Buffer.arrive]
  split
  · exact (drain_spec (n + 1) buffer.held).2.2
  · split
    · rename_i different _
      intro atHead
      rcases insert_head n buffer.held with new | old
      · exact different (Option.some.inj (new.symm.trans atHead))
      · exact steady (old.symm.trans atHead)
    · exact steady

-----------------------------------------------------------------------------------------
-- Buffers that hold nothing twice
-----------------------------------------------------------------------------------------

/-- Draining an ascending list leaves numbers ahead only, by induction on the list. -/
theorem clear_drain (sorted : held.Pairwise (· < ·)) (ahead : ∀ n ∈ held, next ≤ n)
    : (drain next held).Clear := by
  induction held generalizing next with
  | nil => exact ⟨List.Pairwise.nil, List.forall_mem_nil _⟩
  | cons head rest ih =>
      obtain ⟨below, tail⟩ := List.pairwise_cons.mp sorted
      rw [drain]
      split
      · rename_i same
        exact ih tail (fun n member => same ▸ below n member)
      · have first := ahead head List.mem_cons_self
        refine ⟨sorted, fun n member => ?_⟩
        rcases List.mem_cons.mp member with rfl | later
        · show next < n
          omega
        · have greater := below n later
          show next < n
          omega

/-- A number that is not held leaves nothing held twice. -/
theorem Buffer.Clear.arrive (clear : buffer.Clear) (fresh : n ∉ buffer.held)
    : (buffer.arrive n).Clear := by
  rw [Buffer.arrive]
  split
  · rename_i same
    exact clear_drain clear.sorted (fun m member => same ▸ clear.ahead m member)
  · split
    · rename_i above
      have ascending : (insert n buffer.held).Pairwise (· ≤ ·) :=
        insert_sorted (clear.sorted.imp le_of_lt)
      have distinct : (insert n buffer.held).Nodup := by
        rw [(insert_perm n buffer.held).nodup_iff]
        exact List.nodup_cons.mpr ⟨fresh, clear.sorted.imp ne_of_lt⟩
      refine ⟨(ascending.and distinct).imp (fun both => lt_of_le_of_ne both.1 both.2), ?_⟩
      intro m member
      rcases List.mem_cons.mp ((insert_perm n buffer.held).mem_iff.mp member) with rfl | old
      · exact above
      · exact clear.ahead m old
    · exact clear

end ReorderBuffer
