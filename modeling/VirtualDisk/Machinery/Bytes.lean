import Mathlib.Data.Nat.Notation
import Mathlib.Tactic.Common

/-!
# Machinery/Bytes — memory as a function, and copies between ranges of it

A memory, a buffer or a file's content is a function from addresses to bytes.  Every copy of the
programs verified here moves a *range*: `overwrite` replaces the bytes of one range and leaves the
rest, and `window` reads a range from its start.
-/

namespace Machinery

/-- The content of a memory, a buffer or a file. -/
abbrev Bytes := ℕ → UInt8

namespace Bytes

variable {f g src : Bytes} {off len k : ℕ}

/-- The bytes from `off` on, read from address `0`. -/
def window (f : Bytes) (off : ℕ) : Bytes := fun k => f (off + k)

/-- Copy the first `len` bytes of `src` to the addresses from `off` on. -/
def overwrite (f : Bytes) (off len : ℕ) (src : Bytes) : Bytes := fun k =>
  if off ≤ k ∧ k < off + len then src (k - off) else f k

@[simp] theorem window_apply : window f off k = f (off + k) := rfl

/-- Inside the range, the copied bytes. -/
theorem overwrite_add (h : k < len) : overwrite f off len src (off + k) = src k := by
  simp [overwrite, h]

/-- Outside the range, nothing changes. -/
theorem overwrite_of_lt (h : k < off) : overwrite f off len src k = f k := by
  simp [overwrite, Nat.not_le.mpr h]

theorem overwrite_of_le (h : off + len ≤ k) : overwrite f off len src k = f k := by
  simp [overwrite, Nat.not_lt.mpr h]

/-- A copy to the start of a buffer, read back. -/
theorem overwrite_zero (h : k < len) : overwrite f 0 len src k = src k := by
  have h' : overwrite f 0 len src (0 + k) = src k := overwrite_add h
  rwa [Nat.zero_add] at h'

/-- Two buffers agree on their first `n` bytes. -/
def Agree (n : ℕ) (f g : Bytes) : Prop := ∀ k < n, f k = g k

theorem Agree.refl (n : ℕ) (f : Bytes) : Agree n f f := fun _ _ => rfl

theorem Agree.symm {n : ℕ} (h : Agree n f g) : Agree n g f := fun k hk => (h k hk).symm

theorem Agree.trans {n : ℕ} {e : Bytes} (h : Agree n f g) (h' : Agree n g e) : Agree n f e :=
  fun k hk => (h k hk).trans (h' k hk)

/-- **A copy depends on the bytes it copies only.** -/
theorem overwrite_congr {src' : Bytes} (h : Agree len src src') :
    overwrite f off len src = overwrite f off len src' := by
  funext k
  by_cases hk : off ≤ k ∧ k < off + len
  · simpa [overwrite, hk] using h (k - off) (by omega)
  · simp [overwrite, hk]

/-- The buffer holds what was copied to its start. -/
theorem agree_overwrite_zero : Agree len (overwrite f 0 len src) src :=
  fun _ hk => overwrite_zero hk

end Bytes

end Machinery
