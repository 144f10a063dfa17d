import Mathlib.Algebra.Order.Ring.Nat
import Mathlib.Data.List.Basic
import Mathlib.Data.List.Induction
import Mathlib.Tactic.Ring

/-! Big-endian numbers as the byte strings network formats carry. -/
namespace DshProxy

abbrev Bytes := List UInt8

namespace ByteOrder

/-- `from_be_bytes`: the number a byte string spells, most significant first. -/
def ofBe (bytes : Bytes) : Nat := bytes.foldl (fun value byte => value * 256 + byte.toNat) 0

/-- `to_be_bytes`: the low `width` bytes of a number, most significant first.
A number too large for the width loses its high part, as an `as` cast does. -/
def toBe : Nat → Nat → Bytes
  | 0, _ => []
  | width + 1, value => toBe width (value / 256) ++ [UInt8.ofNat (value % 256)]

@[simp] theorem toBe_length (width value : Nat) : (toBe width value).length = width := by
  induction width generalizing value with
  | zero => rfl
  | succ width ih => simp [toBe, ih]

/-- A number that fits its width is read back exactly. -/
theorem ofBe_toBe (width value : Nat) (fits : value < 256 ^ width) :
    ofBe (toBe width value) = value := by
  induction width generalizing value with
  | zero =>
    have zero : value = 0 := by simpa using fits
    simp [toBe, ofBe, zero]
  | succ width ih =>
    have high : value / 256 < 256 ^ width := by
      rw [pow_succ] at fits
      exact Nat.div_lt_of_lt_mul (by rwa [Nat.mul_comm])
    have inner := ih (value / 256) high
    simp only [ofBe] at inner
    simp only [toBe, ofBe, List.foldl_append, inner, List.foldl_cons, List.foldl_nil,
      UInt8.toNat_ofNat']
    omega

/-- And so is a byte string that spells a number. -/
theorem toBe_ofBe (bytes : Bytes) : toBe bytes.length (ofBe bytes) = bytes := by
  induction bytes using List.reverseRecOn with
  | nil => rfl
  | append_singleton front byte ih =>
    have value : ofBe (front ++ [byte]) = ofBe front * 256 + byte.toNat := by
      simp [ofBe]
    have low := byte.toNat_lt
    have high : (ofBe front * 256 + byte.toNat) / 256 = ofBe front := by omega
    rw [List.length_append, List.length_singleton, toBe, value, high, ih]
    congr 2
    apply UInt8.toNat_inj.mp
    rw [UInt8.toNat_ofNat']
    omega

end ByteOrder
end DshProxy
