import Mathlib.Algebra.Order.Ring.Nat
import Mathlib.Tactic.Ring

/-!
# Numbers as byte strings, highest byte first
-/

def bigEndian : Nat → Nat → List UInt8
  | 0, _ => []
  | width + 1, value => .ofNat (value / 256 ^ width) :: bigEndian width value

def ofBigEndian : List UInt8 → Nat
  | [] => 0
  | byte :: bytes => byte.toNat * 256 ^ bytes.length + ofBigEndian bytes

@[simp] theorem length_bigEndian (width value : Nat) : (bigEndian width value).length = width := by
  induction width with
  | zero => rfl
  | succ width ih => simp [bigEndian, ih]

theorem ofBigEndian_append (left right : List UInt8) :
    ofBigEndian (left ++ right) = ofBigEndian left * 256 ^ right.length + ofBigEndian right := by
  induction left with
  | nil => simp [ofBigEndian]
  | cons byte left ih =>
    simp only [List.cons_append, ofBigEndian, ih, List.length_append, pow_add]
    ring

theorem ofBigEndian_lt (bytes : List UInt8) : ofBigEndian bytes < 256 ^ bytes.length := by
  induction bytes with
  | nil => decide
  | cons byte bytes ih =>
    have small := byte.toNat_lt
    calc ofBigEndian (byte :: bytes)
        < byte.toNat * 256 ^ bytes.length + 256 ^ bytes.length := by
          simp only [ofBigEndian]
          omega
      _ = (byte.toNat + 1) * 256 ^ bytes.length := by ring
      _ ≤ 256 * 256 ^ bytes.length := Nat.mul_le_mul_right _ small
      _ = 256 ^ (byte :: bytes).length := by rw [List.length_cons, pow_succ']

theorem ofBigEndian_bigEndian (width value : Nat) :
    ofBigEndian (bigEndian width value) = value % 256 ^ width := by
  induction width with
  | zero => simp [bigEndian, ofBigEndian, Nat.mod_one]
  | succ width ih =>
    simp only [bigEndian, ofBigEndian, length_bigEndian, ih, UInt8.toNat_ofNat']
    rw [pow_succ 256 width, Nat.mod_mul, Nat.add_comm, Nat.mul_comm]

theorem ofBigEndian_injective {left right : List UInt8} (lengths : left.length = right.length)
    (same : ofBigEndian left = ofBigEndian right) : left = right := by
  induction left generalizing right with
  | nil => exact (List.length_eq_zero_iff.mp lengths.symm).symm
  | cons byte left ih =>
    cases right with
    | nil => cases lengths
    | cons other right =>
      have tails : left.length = right.length := Nat.succ.inj lengths
      have leftBound := ofBigEndian_lt left
      have rightBound := ofBigEndian_lt right
      simp only [ofBigEndian, tails] at same leftBound
      have heads : byte.toNat = other.toNat := by
        have quotients := congrArg (· / 256 ^ right.length) same
        have positive : 0 < 256 ^ right.length := Nat.pow_pos (by decide)
        simpa only [Nat.mul_comm _ (256 ^ right.length), Nat.mul_add_div positive,
          Nat.div_eq_of_lt leftBound, Nat.div_eq_of_lt rightBound, Nat.add_zero] using quotients
      rw [heads] at same
      rw [UInt8.toNat_inj.mp heads, ih tails (Nat.add_left_cancel same)]

theorem bigEndian_ofBigEndian {width : Nat} {bytes : List UInt8} (isLength : bytes.length = width) :
    bigEndian width (ofBigEndian bytes) = bytes := by
  apply ofBigEndian_injective
  · rw [length_bigEndian, isLength]
  · rw [ofBigEndian_bigEndian, ← isLength, Nat.mod_eq_of_lt (ofBigEndian_lt bytes)]

theorem bigEndian_injective {width left right : Nat} (leftBound : left < 256 ^ width)
    (rightBound : right < 256 ^ width) (same : bigEndian width left = bigEndian width right) :
    left = right := by
  have numbers := congrArg ofBigEndian same
  rwa [ofBigEndian_bigEndian, ofBigEndian_bigEndian, Nat.mod_eq_of_lt leftBound,
    Nat.mod_eq_of_lt rightBound] at numbers
