import Mathlib.Algebra.Ring.Nat
import Mathlib.Data.List.Basic

/-! Natural numbers as little-endian byte strings of a fixed width. -/

namespace LittleEndian

def encode : Nat → Nat → List UInt8
  | 0, _ => []
  | width + 1, value => UInt8.ofNat value :: encode width (value / 256)

def decode : List UInt8 → Nat
  | [] => 0
  | byte :: rest => byte.toNat + 256 * decode rest

@[simp]
theorem encode_length (width value : Nat) : (encode width value).length = width := by
  induction width generalizing value with
  | zero => rfl
  | succ width ih => rw [encode, List.length_cons, ih]

/-- Decoding inverts encoding for values that fit, by induction on the width. -/
theorem decode_encode (width : Nat) {value : Nat} (fits : value < 256 ^ width)
    : decode (encode width value) = value := by
  induction width generalizing value with
  | zero =>
      have zero : value = 0 := by simpa using fits
      rw [zero, encode, decode]
  | succ width ih =>
      have quotient : value / 256 < 256 ^ width := by
        rw [Nat.pow_succ] at fits
        exact Nat.div_lt_of_lt_mul (by omega)
      have low : (UInt8.ofNat value).toNat = value % 256 := by simp
      rw [encode, decode, ih quotient, low]
      exact Nat.mod_add_div value 256

end LittleEndian
