import Mathlib.Algebra.Group.Int.Defs
import Mathlib.Algebra.Group.Nat.Defs
import Mathlib.Tactic.Common

/-!
# Machinery/Numeral — printed numbers

A number printed in a base up to sixteen, to a minimum width, or with a sign.  Digits are read from
the left, each multiplying what was read before it by the base, so the zeros a short numeral is
padded with read as nothing: a printed number reads as itself whatever the width, and two numbers
with one numeral are equal.
-/

namespace Machinery

namespace Numeral

variable {b k n w : ℕ} {l l' : List Char} {z : ℤ}

/-! ## Reading -/

/-- What a digit stands for, in a base up to sixteen. -/
def digitValue (c : Char) : ℕ :=
  if c.toNat < 'a'.toNat then c.toNat - '0'.toNat else c.toNat - 'a'.toNat + 10

/-- What a numeral in base `b` stands for, read after `n`. -/
def value (b n : ℕ) (l : List Char) : ℕ := l.foldl (fun n c => b * n + digitValue c) n

theorem digitValue_digitChar : ∀ {d : ℕ}, d < 16 → digitValue d.digitChar = d := by decide

theorem value_append : value b n (l ++ l') = value b (value b n l) l' := List.foldl_append

/-- Leading zeros read as nothing. -/
theorem value_replicate (b k : ℕ) : value b 0 (List.replicate k '0') = 0 := by
  induction k with
  | zero => rfl
  | succ k ih => rw [List.replicate_succ', value_append, ih]; rfl

/-- **A printed number reads as itself.** -/
theorem value_toDigits (hb : 1 < b) (hb' : b ≤ 16) (n : ℕ) : value b 0 (b.toDigits n) = n := by
  induction n using Nat.base_induction b hb with
  | single n hn =>
    rw [Nat.toDigits_of_lt_base hn]
    show b * 0 + digitValue n.digitChar = n
    rw [digitValue_digitChar (Nat.lt_of_lt_of_le hn hb'), Nat.mul_zero, Nat.zero_add]
  | digit n d hd hn ih =>
    rw [← Nat.toDigits_append_toDigits hb hn hd, value_append, ih, Nat.toDigits_of_lt_base hd]
    show b * n + digitValue d.digitChar = b * n + d
    rw [digitValue_digitChar (Nat.lt_of_lt_of_le hd hb')]

/-! ## Minimum width -/

/-- A number printed in base `b` with at least `w` digits. -/
def printWidth (w b n : ℕ) : List Char := (b.toDigits n).leftpad w '0'

theorem value_printWidth (hb : 1 < b) (hb' : b ≤ 16) (w n : ℕ) :
    value b 0 (printWidth w b n) = n := by
  rw [printWidth, List.leftpad, value_append, value_replicate, value_toDigits hb hb']

/-- **Different numbers print differently**, padded or not. -/
theorem printWidth_injective (hb : 1 < b) (hb' : b ≤ 16) (w : ℕ) :
    Function.Injective (printWidth w b) := by
  intro m n h
  rw [← value_printWidth hb hb' w m, h, value_printWidth hb hb']

/-- How many characters a number takes. -/
theorem length_printWidth_le_iff (hb : 1 < b) (hk : 0 < k) :
    (printWidth w b n).length ≤ k ↔ w ≤ k ∧ n < b ^ k := by
  rw [printWidth, List.length_leftpad, Nat.max_le, Nat.length_toDigits_le_iff hb hk]

/-! ## Signs -/

/-- An integer printed in decimal, with a minus sign where it has one. -/
def printInt (z : ℤ) : List Char :=
  if z < 0 then '-' :: Nat.toDigits 10 z.natAbs else Nat.toDigits 10 z.natAbs

/-- It is what `toString` prints. -/
theorem printInt_eq_toList (z : ℤ) : printInt z = (toString z).toList := by
  rw [Int.toString_eq_repr, Int.repr_eq_if, printInt]
  split
  · next hneg =>
    rw [if_neg (Int.not_le.mpr hneg), String.toList_append, Nat.toList_repr,
      show (-z).toNat = z.natAbs by omega]
    rfl
  · next hneg =>
    rw [if_pos (Int.not_lt.mp hneg), Nat.toList_repr, show z.toNat = z.natAbs by omega]

/-- **The sign takes a place**: `k + 1` characters hold one digit less of a negative integer. -/
theorem length_printInt_le_iff (hk : 0 < k) :
    (printInt z).length ≤ k + 1 ↔ -10 ^ k < z ∧ z < 10 ^ (k + 1) := by
  have hpow : ∀ j : ℕ, ((10 ^ j : ℕ) : ℤ) = 10 ^ j := fun j => by push_cast; rfl
  have hmono : 10 ^ k ≤ 10 ^ (k + 1) := Nat.pow_le_pow_right (by decide) (Nat.le_succ k)
  rw [printInt, ← hpow k, ← hpow (k + 1)]
  split
  · next hneg =>
    rw [List.length_cons, Nat.succ_le_succ_iff, Nat.length_toDigits_le_iff (by decide) hk]
    omega
  · next hneg =>
    rw [Nat.length_toDigits_le_iff (by decide) (Nat.succ_pos k)]
    omega

end Numeral

end Machinery
