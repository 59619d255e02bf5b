import Mathlib.Algebra.Ring.Int.Defs
import Mathlib.Algebra.Ring.Nat
import Mathlib.Logic.Function.Iterate
import Mathlib.Order.Basic

/-! 32-bit counters that wrap around. -/

namespace WrappingCounter

/-- Counting `count` times adds `count`, by induction on it. -/
theorem iterate_add_one (counter : Int32) (count : Nat)
    : (fun value => value + 1)^[count] counter = counter + Int32.ofNat count := by
  induction count with
  | zero => exact (Int32.add_zero counter).symm
  | succ count ih =>
      rw [Function.iterate_succ_apply', ih, Int32.add_assoc, Int32.ofNat_add]
      rfl

/-- Without a wrap, the counter moves by what is added. -/
theorem toInt_add_ofNat {counter : Int32} {count : Nat}
    (inside : counter.toInt + count < 2 ^ 31)
    : (counter + Int32.ofNat count).toInt = counter.toInt + count := by
  have lower := counter.le_toInt
  rw [Int32.toInt_add, Int32.toInt_ofNat', Int.add_bmod_bmod]
  exact Int.bmod_eq_of_le (by simp only [Int32.size]; omega) (by simp only [Int32.size]; omega)

theorem toInt_add_one {counter : Int32} (inside : counter.toInt + 1 < 2 ^ 31)
    : (counter + 1).toInt = counter.toInt + 1 :=
  @toInt_add_ofNat counter 1 inside

/-- Past the largest number, the counter goes on from the smallest one. -/
theorem toInt_add_ofNat_wrapped {counter : Int32} {count : Nat} (small : count < 2 ^ 31)
    (past : 2 ^ 31 ≤ counter.toInt + count)
    : (counter + Int32.ofNat count).toInt = counter.toInt + count - 2 ^ 32 := by
  have lower := counter.le_toInt
  have upper := counter.toInt_lt
  rw [Int32.toInt_add, Int32.toInt_ofNat_of_lt small, ← Int.sub_bmod_right]
  exact Int.bmod_eq_of_le (by omega) (by omega)

/-- A number ahead of the counter is larger, as long as the counter does not wrap before it. -/
theorem lt_add_ofNat_iff (counter : Int32) {count : Nat} (some : 1 ≤ count)
    (small : count < 2 ^ 31)
    : counter < counter + Int32.ofNat count ↔ counter.toInt + count < 2 ^ 31 := by
  rw [Int32.lt_iff_toInt_lt]
  by_cases inside : counter.toInt + count < 2 ^ 31
  · rw [toInt_add_ofNat inside]
    omega
  · rw [toInt_add_ofNat_wrapped small (by omega)]
    omega

end WrappingCounter
