import Mathlib.Data.Int.Range
import Mathlib.Data.List.Count
import Mathlib.Data.List.Induction
import Mathlib.Data.List.Nodup
import Mathlib.Order.Bounds.Basic
import Mathlib.Tactic.Linarith

/-! A reorder buffer over consecutive numbers, and when it keeps up with its arrivals.
Arrivals may come in any order and any number of times. The buffer is a sorted list that
is drained from its head only, so an entry that is held twice can shadow later entries.
-/

namespace ReorderBuffer

/-- Every number from `base` up to but excluding `bound` has been seen. -/
def Complete (base : Int) (seen : List Int) (bound : Int) : Prop :=
  ∀ n, base ≤ n → n < bound → n ∈ seen

instance (base : Int) (seen : List Int) (bound : Int)
    : Decidable (Complete base seen bound) :=
  inferInstanceAs (Decidable (∀ n, base ≤ n → n < bound → n ∈ seen))

/-- The arrivals that come while a smaller number is still missing. -/
def earlyFrom (base : Int) (seen : List Int) : List Int → List Int
  | [] => []
  | n :: rest =>
      if Complete base seen n then
        earlyFrom base (seen ++ [n]) rest
      else
        n :: earlyFrom base (seen ++ [n]) rest

def early (base : Int) (arrivals : List Int) : List Int := earlyFrom base [] arrivals

/-- A number came early twice, a larger one came early too, and the arrivals have since
become complete past the larger one.
-/
def Shadowed (base : Int) (arrivals : List Int) : Prop :=
  ∃ double ∈ early base arrivals, ∃ later ∈ early base arrivals,
    double < later
    ∧ 2 ≤ (early base arrivals).count double
    ∧ Complete base arrivals (later + 1)

instance (base : Int) (arrivals : List Int) : Decidable (Shadowed base arrivals) :=
  inferInstanceAs (Decidable (∃ double ∈ early base arrivals, _))

theorem Complete.mono {base bound : Int} {seen more : List Int}
    (complete : Complete base seen bound) (subset : seen ⊆ more)
    : Complete base more bound :=
  fun n lower upper => subset (complete n lower upper)

theorem earlyFrom_append (base : Int) (seen left right : List Int)
    : earlyFrom base seen (left ++ right)
      = earlyFrom base seen left ++ earlyFrom base (seen ++ left) right := by
  induction left generalizing seen with
  | nil => simp [earlyFrom]
  | cons n rest ih =>
      have tail := ih (seen ++ [n])
      rw [List.append_assoc, List.singleton_append] at tail
      simp only [List.cons_append, earlyFrom, tail]
      split <;> rfl

/-- One more arrival is early exactly when a smaller number is missing before it. -/
theorem early_concat (base : Int) (arrivals : List Int) (n : Int)
    : early base (arrivals ++ [n])
      = early base arrivals ++ if Complete base arrivals n then [] else [n] := by
  rw [early, earlyFrom_append, List.nil_append]
  rfl

theorem early_subset_concat (base : Int) (arrivals : List Int) (n : Int)
    : early base arrivals ⊆ early base (arrivals ++ [n]) := by
  rw [early_concat]
  exact List.subset_append_left _ _

/-- Early arrivals are arrivals, by induction from the last one. -/
theorem early_sublist (base : Int) (arrivals : List Int)
    : (early base arrivals).Sublist arrivals := by
  induction arrivals using List.reverseRecOn with
  | nil => exact List.Sublist.refl _
  | append_singleton arrivals n ih =>
      rw [early_concat]
      refine ih.append ?_
      split
      · exact List.nil_sublist _
      · exact List.Sublist.refl _

theorem early_subset (base : Int) (arrivals : List Int)
    : early base arrivals ⊆ arrivals :=
  (early_sublist base arrivals).subset

/-- An arrival that was not early closed the numbers up to itself, by induction from the
last arrival.
-/
theorem mem_early_or_complete {base : Int} {arrivals : List Int} {n : Int}
    (arrived : n ∈ arrivals)
    : n ∈ early base arrivals ∨ Complete base arrivals (n + 1) := by
  induction arrivals using List.reverseRecOn with
  | nil => exact absurd arrived List.not_mem_nil
  | append_singleton arrivals last ih =>
      rcases List.mem_append.mp arrived with before | now
      · rcases ih before with early | complete
        · exact Or.inl (early_subset_concat base arrivals last early)
        · exact Or.inr (complete.mono (List.subset_append_left _ _))
      · have same : n = last := List.mem_singleton.mp now
        subst same
        by_cases complete : Complete base arrivals n
        · refine Or.inr (fun m lower upper => ?_)
          rcases lt_or_eq_of_le (Int.lt_add_one_iff.mp upper) with below | rfl
          · exact List.mem_append_left _ (complete m lower below)
          · simp
        · left
          rw [early_concat, if_neg complete]
          simp

/-- The frontier of the arrivals, the least number from `base` on that has not come,
bounds the complete prefixes.
-/
theorem complete_iff_le {base frontier bound : Int} {arrivals : List Int}
    (least : IsLeast {n | base ≤ n ∧ n ∉ arrivals} frontier)
    : Complete base arrivals bound ↔ bound ≤ frontier := by
  constructor
  · intro complete
    by_contra above
    exact least.1.2 (complete frontier least.1.1 (not_le.mp above))
  · intro le n lower upper
    by_contra absent
    exact absurd (least.2 ⟨lower, absent⟩) (not_le.mpr (lt_of_lt_of_le upper le))

/-- The frontier after one more arrival: it moves only when it arrives itself. -/
theorem frontier_concat_of_ne {base frontier n : Int} {arrivals : List Int}
    (least : IsLeast {m | base ≤ m ∧ m ∉ arrivals} frontier) (ne : n ≠ frontier)
    : IsLeast {m | base ≤ m ∧ m ∉ arrivals ++ [n]} frontier := by
  refine ⟨⟨least.1.1, ?_⟩, ?_⟩
  · simp [least.1.2, Ne.symm ne]
  · intro m ⟨lower, absent⟩
    exact least.2 ⟨lower, fun member => absent (List.mem_append_left _ member)⟩

-----------------------------------------------------------------------------------------
-- The buffer
-----------------------------------------------------------------------------------------

/-- The next expected number, and the larger numbers held back in ascending order. -/
structure Buffer where
  next : Int
  held : List Int
  deriving DecidableEq, Repr

/-- Inserts before the first larger number. -/
def insert (n : Int) : List Int → List Int
  | [] => [n]
  | head :: rest => if n < head then n :: head :: rest else head :: insert n rest

/-- Releases held numbers from the head while they continue the sequence. -/
def drain (next : Int) : List Int → Buffer
  | [] => ⟨next, []⟩
  | head :: rest => if head = next then drain (next + 1) rest else ⟨next, head :: rest⟩

/-- An expected number is released with its followers, a larger one is held, and a
smaller one is ignored.
-/
def Buffer.arrive (buffer : Buffer) (n : Int) : Buffer :=
  if n = buffer.next then
    drain (n + 1) buffer.held
  else if buffer.next < n then
    { buffer with held := insert n buffer.held }
  else
    buffer

theorem insert_perm (n : Int) (held : List Int) : (insert n held).Perm (n :: held) := by
  induction held with
  | nil => exact .rfl
  | cons head rest ih =>
      rw [insert]
      split
      · exact .rfl
      · exact (ih.cons head).trans (List.Perm.swap n head rest)

theorem insert_sorted {n : Int} {held : List Int} (sorted : held.Pairwise (· ≤ ·))
    : (insert n held).Pairwise (· ≤ ·) := by
  induction held with
  | nil => simp [insert]
  | cons head rest ih =>
      obtain ⟨below, tail⟩ := List.pairwise_cons.mp sorted
      rw [insert]
      split
      · rename_i less
        refine List.pairwise_cons.mpr ⟨?_, sorted⟩
        intro m member
        rcases List.mem_cons.mp member with rfl | later
        · exact le_of_lt less
        · exact (le_of_lt less).trans (below m later)
      · rename_i notLess
        refine List.pairwise_cons.mpr ⟨?_, ih tail⟩
        intro m member
        rcases List.mem_cons.mp ((insert_perm n rest).mem_iff.mp member) with rfl | old
        · exact not_lt.mp notLess
        · exact below m old

theorem range_cons {low high : Int} (less : low < high)
    : Int.range low high = low :: Int.range (low + 1) high := by
  have size : (high - low).toNat = (high - (low + 1)).toNat + 1 := by omega
  simp only [Int.range, size, List.range_succ_eq_map, List.map_cons, List.map_map]
  congr 1
  · simp
  · apply List.map_congr_left
    intro i _
    simp only [Function.comp_apply, Nat.cast_succ]
    omega

theorem range_self (low : Int) : Int.range low low = [] := by
  simp [Int.range]

theorem range_append {low middle high : Int} (le : low ≤ middle) (le' : middle ≤ high)
    : Int.range low high = Int.range low middle ++ Int.range middle high := by
  obtain ⟨steps, rfl⟩ := Int.le.dest le
  induction steps generalizing low with
  | zero => simp [range_self]
  | succ steps ih =>
      have shift : low + ((steps + 1 : Nat) : Int) = low + 1 + (steps : Int) := by omega
      rw [shift] at le' ⊢
      rw [range_cons (by omega : low < high), range_cons (by omega : low < low + 1 + steps),
        ih (by omega) le', List.cons_append]

theorem range_nodup (low high : Int) : (Int.range low high).Nodup := by
  refine List.Nodup.map (fun i j same => ?_) List.nodup_range
  exact Int.ofNat.inj (Int.add_left_cancel same)

/-- Draining releases a block of consecutive numbers from the head of the held list and
stops at a head that does not continue the sequence, by induction on the list.
-/
theorem drain_spec (next : Int) (held : List Int)
    : next ≤ (drain next held).next
      ∧ held = Int.range next (drain next held).next ++ (drain next held).held
      ∧ (drain next held).held.head? ≠ some (drain next held).next := by
  induction held generalizing next with
  | nil => simp [drain, range_self]
  | cons head rest ih =>
      rw [drain]
      split
      · rename_i same
        subst same
        obtain ⟨le, split, stops⟩ := ih (head + 1)
        refine ⟨by omega, ?_, stops⟩
        rw [range_cons (by omega), List.cons_append, ← split]
      · rename_i differs
        simpa [range_self] using differs

-----------------------------------------------------------------------------------------
-- The buffer keeps up exactly while no held number shadows another
-----------------------------------------------------------------------------------------

/-- The buffer is at the frontier of its arrivals. Each early arrival is held once, less the
one copy that is released when the frontier passes it.
-/
structure Tracks (base : Int) (arrivals : List Int) (buffer : Buffer) : Prop where
  least : IsLeast {n | base ≤ n ∧ n ∉ arrivals} buffer.next
  sorted : buffer.held.Pairwise (· ≤ ·)
  counts
    : ∀ n,
        buffer.held.count n
        = (early base arrivals).count n - if n < buffer.next then 1 else 0

/-- Before any arrival the frontier is the base. -/
theorem tracks_nil (base : Int) : Tracks base [] ⟨base, []⟩ where
  least := ⟨⟨le_refl base, List.not_mem_nil⟩, fun _ member => member.1⟩
  sorted := List.Pairwise.nil
  counts := by simp [early, earlyFrom]

/-- The frontier itself never came, so it never came early. -/
theorem Tracks.next_count {base : Int} {arrivals : List Int} {buffer : Buffer}
    (tracks : Tracks base arrivals buffer)
    : (early base arrivals).count buffer.next = 0 :=
  List.count_eq_zero.mpr (fun member => tracks.least.1.2 (early_subset base arrivals member))

/-- An early arrival of number `n`, counted above or below the frontier. -/
theorem Tracks.early_concat_eq {base : Int} {arrivals : List Int} {buffer : Buffer}
    (tracks : Tracks base arrivals buffer) (n : Int)
    : early base (arrivals ++ [n])
      = early base arrivals ++ if n ≤ buffer.next then [] else [n] := by
  simp only [early_concat, complete_iff_le tracks.least]

/-- How often a number is held is how often it is in the released block plus how often it
remains.
-/
theorem count_drain (next : Int) (held : List Int) (n : Int)
    : held.count n
      = (if next ≤ n ∧ n < (drain next held).next then 1 else 0)
        + (drain next held).held.count n := by
  obtain ⟨_, split, _⟩ := drain_spec next held
  have block : (Int.range next (drain next held).next).count n
      = if next ≤ n ∧ n < (drain next held).next then 1 else 0 := by
    rw [(range_nodup _ _).count]
    simp only [Int.mem_range_iff]
  calc
    held.count n
      = (Int.range next (drain next held).next ++ (drain next held).held).count n := by
        rw [← split]
    _ = _ := by rw [List.count_append, block]

/-- A number that remains although it was counted twice lies below the new frontier only
when it came early twice.
-/
theorem Tracks.double_of_remaining {base : Int} {arrivals : List Int} {buffer : Buffer}
    (tracks : Tracks base arrivals buffer) {n : Int}
    (remains : n ∈ (drain (buffer.next + 1) buffer.held).held)
    (below : n < (drain (buffer.next + 1) buffer.held).next)
    : 2 ≤ (early base arrivals).count n := by
  have held := count_drain (buffer.next + 1) buffer.held n
  have positive : 0 < (drain (buffer.next + 1) buffer.held).held.count n :=
    List.count_pos_iff.mpr remains
  have counted := tracks.counts n
  by_cases same : n = buffer.next
  · rw [same] at counted held positive
    have none := tracks.next_count
    omega
  · by_cases stale : n < buffer.next
    · simp only [stale, if_true] at counted
      omega
    · have inside : buffer.next + 1 ≤ n ∧ n < (drain (buffer.next + 1) buffer.held).next :=
        ⟨by omega, below⟩
      simp only [inside, and_self, if_true] at held
      simp only [stale, if_false] at counted
      omega

/-- A number above the frontier that has arrived is held. -/
theorem Tracks.held_of_arrived {base : Int} {arrivals : List Int} {buffer : Buffer}
    (tracks : Tracks base arrivals buffer) {n : Int} (above : buffer.next < n)
    (arrived : n ∈ arrivals)
    : n ∈ early base arrivals ∧ n ∈ buffer.held := by
  have cameEarly : n ∈ early base arrivals := by
    rcases mem_early_or_complete arrived with early | complete
    · exact early
    · have le := (complete_iff_le tracks.least).mp complete
      omega
  refine ⟨cameEarly, List.count_pos_iff.mp ?_⟩
  have counted := tracks.counts n
  have positive := List.count_pos_iff.mpr cameEarly
  simp only [not_lt_of_gt above, if_false] at counted
  omega

/-- What the drain releases had arrived early. -/
theorem Tracks.arrived_of_released {base : Int} {arrivals : List Int} {buffer : Buffer}
    (tracks : Tracks base arrivals buffer) {n : Int} (above : buffer.next < n)
    (below : n < (drain (buffer.next + 1) buffer.held).next)
    : n ∈ early base arrivals := by
  have held := count_drain (buffer.next + 1) buffer.held n
  have inside : buffer.next + 1 ≤ n ∧ n < (drain (buffer.next + 1) buffer.held).next :=
    ⟨by omega, below⟩
  have counted := tracks.counts n
  simp only [inside, and_self, if_true] at held
  exact List.count_pos_iff.mp (by omega)

/-- When the expected number arrives, every number below the drained position has come. -/
theorem Tracks.complete_drain {base : Int} {arrivals : List Int} {buffer : Buffer}
    (tracks : Tracks base arrivals buffer)
    : Complete base (arrivals ++ [buffer.next])
        (drain (buffer.next + 1) buffer.held).next := by
  intro n lower upper
  rcases lt_trichotomy n buffer.next with before | rfl | above
  · exact List.mem_append_left _
      ((complete_iff_le tracks.least).mpr (le_refl _) n lower before)
  · simp
  · exact List.mem_append_left _
      (early_subset base arrivals (tracks.arrived_of_released above upper))

/-- If the drained position had already come, the head that stopped the drain would be a
smaller number held twice: that is a shadowed history.
-/
theorem Tracks.drained_absent {base : Int} {arrivals : List Int} {buffer : Buffer}
    (tracks : Tracks base arrivals buffer)
    (clear : ¬ Shadowed base (arrivals ++ [buffer.next]))
    : (drain (buffer.next + 1) buffer.held).next ∉ arrivals ++ [buffer.next] := by
  obtain ⟨le, split, stops⟩ := drain_spec (buffer.next + 1) buffer.held
  have complete := tracks.complete_drain
  have sameEarly := tracks.early_concat_eq buffer.next
  rw [if_pos (le_refl buffer.next), List.append_nil] at sameEarly
  generalize stopped : drain (buffer.next + 1) buffer.held = after at *
  obtain ⟨frontier, remaining⟩ := after
  dsimp only at *
  intro member
  have arrived : frontier ∈ arrivals := by
    rcases List.mem_append.mp member with old | new
    · exact old
    · have same := List.mem_singleton.mp new
      omega
  obtain ⟨cameEarly, held⟩ := tracks.held_of_arrived (by omega) arrived
  have remains : frontier ∈ remaining := by
    rw [split] at held
    rcases List.mem_append.mp held with released | remains
    · have bounds := Int.mem_range_iff.mp released
      omega
    · exact remains
  cases remaining with
  | nil => exact absurd remains List.not_mem_nil
  | cons head rest =>
      have headNe : head ≠ frontier := fun same => stops (by simp [same])
      have sorted : (head :: rest).Pairwise (· ≤ ·) := by
        have both := tracks.sorted
        rw [split] at both
        exact (List.pairwise_append.mp both).2.1
      have headLt : head < frontier := by
        rcases List.mem_cons.mp remains with same | later
        · exact absurd same.symm headNe
        · exact lt_of_le_of_ne ((List.pairwise_cons.mp sorted).1 frontier later) headNe
      have twice : 2 ≤ (early base arrivals).count head := by
        apply tracks.double_of_remaining <;> simp [stopped, headLt]
      refine clear ⟨head, ?_, frontier, ?_, headLt, ?_, ?_⟩
      · rw [sameEarly]
        exact List.count_pos_iff.mp (by omega)
      · rw [sameEarly]
        exact cameEarly
      · rw [sameEarly]
        exact twice
      · intro n lower upper
        rcases lt_or_eq_of_le (Int.lt_add_one_iff.mp upper) with below | rfl
        · exact complete n lower below
        · exact member

/-- The expected number releases its followers and leaves the buffer at the frontier. -/
theorem Tracks.release {base : Int} {arrivals : List Int} {buffer : Buffer}
    (tracks : Tracks base arrivals buffer)
    (clear : ¬ Shadowed base (arrivals ++ [buffer.next]))
    : Tracks base (arrivals ++ [buffer.next]) (drain (buffer.next + 1) buffer.held) := by
  obtain ⟨le, split, _⟩ := drain_spec (buffer.next + 1) buffer.held
  refine ⟨⟨⟨?_, tracks.drained_absent clear⟩, ?_⟩, ?_, ?_⟩
  · have lower := tracks.least.1.1
    omega
  · intro n ⟨lower, absent⟩
    by_contra above
    exact absent (tracks.complete_drain n lower (not_le.mp above))
  · have both := tracks.sorted
    rw [split] at both
    exact (List.pairwise_append.mp both).2.1
  · intro n
    have held := count_drain (buffer.next + 1) buffer.held n
    have counted := tracks.counts n
    have none := tracks.next_count
    rw [tracks.early_concat_eq, if_pos (le_refl _), List.append_nil]
    by_cases same : n = buffer.next
    · rw [same] at counted held ⊢
      omega
    · split_ifs at held counted ⊢ <;> omega

/-- Every arrival keeps the buffer at the frontier while the history is not shadowed. -/
theorem Tracks.arrive {base : Int} {arrivals : List Int} {buffer : Buffer}
    (tracks : Tracks base arrivals buffer) {n : Int}
    (clear : ¬ Shadowed base (arrivals ++ [n]))
    : Tracks base (arrivals ++ [n]) (buffer.arrive n) := by
  unfold Buffer.arrive
  split
  · rename_i same
    subst same
    exact tracks.release clear
  · rename_i ne
    have least := frontier_concat_of_ne tracks.least ne
    have grown := tracks.early_concat_eq n
    split
    · rename_i above
      refine ⟨least, insert_sorted tracks.sorted, ?_⟩
      intro m
      rw [grown, if_neg (not_le.mpr above), (insert_perm n buffer.held).count_eq m,
        List.count_append, List.count_cons, List.count_singleton, tracks.counts m]
      by_cases same : m = n
      · subst same
        simp [not_lt_of_gt above]
      · simp [Ne.symm same]
    · rename_i notAbove
      refine ⟨least, tracks.sorted, ?_⟩
      intro m
      rw [grown, if_pos (not_lt.mp notAbove), List.append_nil]
      exact tracks.counts m

/-- A buffer that stays at the frontier through one more arrival saw no shadowing there:
the doubled number would remain behind the released one in a sorted list.
-/
theorem Tracks.not_shadowed {base : Int} {arrivals : List Int} {buffer : Buffer}
    (tracks : Tracks base arrivals buffer) {n : Int} (clear : ¬ Shadowed base arrivals)
    (least : IsLeast {m | base ≤ m ∧ m ∉ arrivals ++ [n]} (buffer.arrive n).next)
    : ¬ Shadowed base (arrivals ++ [n]) := by
  rintro ⟨double, doubleEarly, later, laterEarly, less, twice, complete⟩
  have grown := tracks.early_concat_eq n
  by_cases same : n = buffer.next
  · subst same
    rw [if_pos (le_refl _), List.append_nil] at grown
    rw [grown] at doubleEarly laterEarly twice
    have passed := (complete_iff_le least).mp complete
    rw [Buffer.arrive, if_pos rfl] at passed
    obtain ⟨_, split, _⟩ := drain_spec (buffer.next + 1) buffer.held
    have laterAbove : buffer.next < later := by
      by_contra notAbove
      have ne : later ≠ buffer.next := fun same =>
        tracks.least.1.2 (same ▸ early_subset base arrivals laterEarly)
      refine clear ⟨double, doubleEarly, later, laterEarly, less, twice, ?_⟩
      exact (complete_iff_le tracks.least).mpr (by omega)
    have released
        : later ∈ Int.range (buffer.next + 1) (drain (buffer.next + 1) buffer.held).next :=
      Int.mem_range_iff.mpr ⟨by omega, by omega⟩
    have remains : double ∈ (drain (buffer.next + 1) buffer.held).held := by
      have held := count_drain (buffer.next + 1) buffer.held double
      have counted := tracks.counts double
      apply List.count_pos_iff.mp
      split_ifs at held counted <;> omega
    have sorted := tracks.sorted
    rw [split] at sorted
    have order := (List.pairwise_append.mp sorted).2.2 later released double remains
    omega
  · have passed := (complete_iff_le (frontier_concat_of_ne tracks.least same)).mp complete
    have laterOld : later ∈ early base arrivals := by
      rw [grown] at laterEarly
      rcases List.mem_append.mp laterEarly with old | new
      · exact old
      · split_ifs at new with le
        · exact absurd new List.not_mem_nil
        · have eq := List.mem_singleton.mp new
          omega
    have countOld : (early base (arrivals ++ [n])).count double
        = (early base arrivals).count double := by
      rw [grown]
      split_ifs with le
      · rw [List.append_nil]
      · rw [List.count_append, List.count_singleton, beq_false_of_ne (by omega)]
        rfl
    rw [countOld] at twice
    refine clear ⟨double, List.count_pos_iff.mp (by omega), later, laterOld, less, twice, ?_⟩
    exact (complete_iff_le tracks.least).mpr passed

/-- The buffer after the arrivals, starting empty at the base. -/
def receive (base : Int) (arrivals : List Int) : Buffer :=
  arrivals.foldl Buffer.arrive ⟨base, []⟩

theorem receive_concat (base : Int) (arrivals : List Int) (n : Int)
    : receive base (arrivals ++ [n]) = (receive base arrivals).arrive n := by
  rw [receive, List.foldl_append]
  rfl

theorem Shadowed.concat {base : Int} {arrivals : List Int}
    (shadowed : Shadowed base arrivals) (n : Int)
    : Shadowed base (arrivals ++ [n]) := by
  obtain ⟨double, doubleEarly, later, laterEarly, less, twice, complete⟩ := shadowed
  have subset := early_subset_concat base arrivals n
  refine ⟨double, subset doubleEarly, later, subset laterEarly, less, ?_,
    complete.mono (List.subset_append_left _ _)⟩
  rw [early_concat, List.count_append]
  exact le_add_right twice

/-- Without shadowing the buffer is at the frontier, by induction from the last arrival. -/
theorem tracks_of_not_shadowed {base : Int} {arrivals : List Int}
    (clear : ¬ Shadowed base arrivals)
    : Tracks base arrivals (receive base arrivals) := by
  induction arrivals using List.reverseRecOn with
  | nil => exact tracks_nil base
  | append_singleton arrivals n ih =>
      rw [receive_concat]
      exact (ih (fun shadowed => clear (shadowed.concat n))).arrive clear

/-- The buffer is at the frontier after every prefix exactly when the history is not
shadowed.
-/
theorem least_prefixes_iff (base : Int) (arrivals : List Int)
    : (∀ before, before <+: arrivals
        → IsLeast {n | base ≤ n ∧ n ∉ before} (receive base before).next)
      ↔ ¬ Shadowed base arrivals := by
  constructor
  · induction arrivals using List.reverseRecOn with
    | nil =>
        rintro - ⟨double, member, _⟩
        exact absurd member List.not_mem_nil
    | append_singleton arrivals n ih =>
        intro least
        have clear := ih (fun before isPrefix =>
          least before (isPrefix.trans (List.prefix_append _ _)))
        apply (tracks_of_not_shadowed clear).not_shadowed clear
        rw [← receive_concat]
        exact least _ List.prefix_rfl
  · rintro clear before ⟨after, rfl⟩
    refine (tracks_of_not_shadowed ?_).least
    intro shadowed
    induction after using List.reverseRecOn with
    | nil => exact clear (by rwa [List.append_nil])
    | append_singleton after n ih =>
        exact ih (fun more => clear (by rw [← List.append_assoc]; exact more.concat n))

/-- Numbers that come once each shadow nothing. -/
theorem not_shadowed_of_nodup {base : Int} {arrivals : List Int} (once : arrivals.Nodup)
    : ¬ Shadowed base arrivals := by
  rintro ⟨double, _, _, _, _, twice, _⟩
  have atMost := List.nodup_iff_count_le_one.mp (once.sublist (early_sublist base arrivals))
  have single := atMost double
  omega

/-- Of numbers that come once each, the buffer holds those above the frontier. -/
theorem Tracks.mem_held_iff {base : Int} {arrivals : List Int} {buffer : Buffer}
    (tracks : Tracks base arrivals buffer) (once : arrivals.Nodup) (n : Int)
    : n ∈ buffer.held ↔ n ∈ arrivals ∧ buffer.next ≤ n := by
  have counted := tracks.counts n
  have single := List.nodup_iff_count_le_one.mp (once.sublist (early_sublist base arrivals)) n
  constructor
  · intro held
    have positive := List.count_pos_iff.mpr held
    have cameEarly : n ∈ early base arrivals := List.count_pos_iff.mp (by omega)
    refine ⟨early_subset base arrivals cameEarly, ?_⟩
    by_contra below
    rw [if_pos (not_le.mp below)] at counted
    omega
  · rintro ⟨arrived, le⟩
    have ne : buffer.next ≠ n := fun same => tracks.least.1.2 (same ▸ arrived)
    exact (tracks.held_of_arrived (lt_of_le_of_ne le ne) arrived).2

/-- Of numbers that come once each, the held ones ascend strictly. -/
theorem Tracks.held_strict {base : Int} {arrivals : List Int} {buffer : Buffer}
    (tracks : Tracks base arrivals buffer) (once : arrivals.Nodup)
    : buffer.held.Pairwise (· < ·) := by
  have distinct : buffer.held.Nodup := by
    refine List.nodup_iff_count_le_one.mpr (fun n => ?_)
    have counted := tracks.counts n
    have single :=
      List.nodup_iff_count_le_one.mp (once.sublist (early_sublist base arrivals)) n
    omega
  exact tracks.sorted.imp₂ (fun _ _ le ne => lt_of_le_of_ne le ne) distinct

end ReorderBuffer
