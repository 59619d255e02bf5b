import Mathlib.Data.List.Count
import Mathlib.Data.List.Nodup

/-! Turns: a key is taken for one turn at a time, and what is recorded belongs to a turn that
is still taken. Then the records of a key stand in the order of its turns.
-/

namespace Turns

open scoped List

variable {Key : Type*}

structure Turn (Key : Type*) where
  number : Nat
  key : Key
  deriving DecidableEq, Repr

/-- Turns are numbered in the order in which they are taken; `next` is the next number, and
`record` has the turn of each record, the oldest one first.
-/
structure Orderly (next : Nat) (taken record : List (Turn Key)) : Prop where
  alone : (taken.map Turn.key).Nodup
  takenBelow : ∀ turn ∈ taken, turn.number < next
  recordBelow : ∀ past ∈ record, past.number < next
  latest
    : ∀ turn ∈ taken, ∀ past ∈ record, past.key = turn.key → past.number ≤ turn.number
  sorted
    : record.Pairwise (fun past later => past.key = later.key → past.number ≤ later.number)

variable {next : Nat} {taken record : List (Turn Key)}

theorem orderly_nil : Orderly next ([] : List (Turn Key)) [] := by
  constructor <;> simp

/-- Turns end in any order. -/
theorem Orderly.subperm {fewer : List (Turn Key)} (orderly : Orderly next taken record)
    (subperm : fewer <+~ taken)
    : Orderly next fewer record := by
  obtain ⟨kept, perm, sublist⟩ := subperm
  constructor
  · apply (perm.map Turn.key).nodup_iff.mp
    exact orderly.alone.sublist (sublist.map Turn.key)
  · intro turn member
    exact orderly.takenBelow turn (sublist.subset (perm.mem_iff.mpr member))
  · exact orderly.recordBelow
  · intro turn member
    exact orderly.latest turn (sublist.subset (perm.mem_iff.mpr member))
  · exact orderly.sorted

/-- A key that is free is taken. -/
theorem Orderly.take {key : Key} (orderly : Orderly next taken record)
    (free : key ∉ taken.map Turn.key)
    : Orderly (next + 1) (⟨next, key⟩ :: taken) record := by
  constructor
  · exact List.nodup_cons.mpr ⟨free, orderly.alone⟩
  · intro turn member
    rcases List.mem_cons.mp member with rfl | earlier
    · exact Nat.lt_succ_self next
    · exact Nat.lt_succ_of_lt (orderly.takenBelow turn earlier)
  · intro past member
    exact Nat.lt_succ_of_lt (orderly.recordBelow past member)
  · intro turn member past recorded same
    rcases List.mem_cons.mp member with rfl | earlier
    · exact Nat.le_of_lt (orderly.recordBelow past recorded)
    · exact orderly.latest turn earlier past recorded same
  · exact orderly.sorted

/-- Two turns of one key are the same turn. -/
theorem Orderly.eq_of_key {left right : Turn Key} (orderly : Orderly next taken record)
    (first : left ∈ taken) (second : right ∈ taken) (same : left.key = right.key)
    : left = right :=
  List.inj_on_of_nodup_map orderly.alone first second same

/-- A turn that is taken records something. -/
theorem Orderly.add {turn : Turn Key} (orderly : Orderly next taken record)
    (member : turn ∈ taken) (count : Nat)
    : Orderly next taken (record ++ List.replicate count turn) := by
  constructor
  · exact orderly.alone
  · exact orderly.takenBelow
  · intro past recorded
    rcases List.mem_append.mp recorded with earlier | new
    · exact orderly.recordBelow past earlier
    · rw [List.eq_of_mem_replicate new]
      exact orderly.takenBelow turn member
  · intro other taking past recorded same
    rcases List.mem_append.mp recorded with earlier | new
    · exact orderly.latest other taking past earlier same
    · obtain rfl := List.eq_of_mem_replicate new
      exact Nat.le_of_eq (congrArg Turn.number (orderly.eq_of_key member taking same))
  · apply List.pairwise_append.mpr
    refine ⟨orderly.sorted, ?_, ?_⟩
    · exact List.pairwise_replicate.mpr (Or.inr (fun _ => Nat.le_refl _))
    · intro past recorded later new same
      obtain rfl := List.eq_of_mem_replicate new
      exact orderly.latest later member past recorded same

theorem Orderly.count_le [DecidableEq Key] (orderly : Orderly next taken record) (key : Key)
    : (taken.map Turn.key).count key ≤ 1 :=
  List.nodup_iff_count_le_one.mp orderly.alone key

end Turns
