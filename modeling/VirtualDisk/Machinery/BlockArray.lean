import VirtualDisk.Machinery.Bytes

/-!
# Machinery/BlockArray — a flat array of blocks, and the writes made to it

The content of an array is that of the writes made to it, one after the other.  What a read finds in
a block is the data of the latest write to that block, or what the array held at first: the two
descriptions agree (`agree_latest`).  A history of writes has the latest one first.
-/

namespace Machinery

open Bytes

/-- A write of so many blocks, from the block `start` on. -/
structure BlockWrite where
  start : ℕ
  blocks : ℕ
  data : Bytes

namespace BlockWrite

variable {size start blocks n : ℕ} {init buffer : Bytes} {w : BlockWrite} {ws : List BlockWrite}

/-- The write covers the block. -/
def covers (n : ℕ) (w : BlockWrite) : Bool := w.start ≤ n && n < w.start + w.blocks

/-- **The array after the writes**, its blocks of `size` bytes each. -/
def contents (size : ℕ) (init : Bytes) : List BlockWrite → Bytes
  | [] => init
  | w :: ws => (contents size init ws).overwrite (w.start * size) (w.blocks * size) w.data

/-- **What the block `n` holds**: the data of the latest write that covers it, else the initial
data. -/
def latest (size : ℕ) (init : Bytes) (ws : List BlockWrite) (n : ℕ) : Bytes :=
  match ws.find? (covers n) with
  | some w => w.data.window ((n - w.start) * size)
  | none => init.window (n * size)

@[simp] theorem contents_nil : contents size init [] = init := rfl

@[simp] theorem contents_cons : contents size init (w :: ws) =
    (contents size init ws).overwrite (w.start * size) (w.blocks * size) w.data := rfl

theorem latest_of_covers (h : w.covers n = true) :
    latest size init (w :: ws) n = w.data.window ((n - w.start) * size) := by
  simp [latest, h]

theorem latest_of_not_covers (h : w.covers n = false) :
    latest size init (w :: ws) n = latest size init ws n := by
  simp [latest, h]

/-- A byte of a block among `blocks` ones, counted from the first of them. -/
theorem offset_lt {k : ℕ} (hn : n < blocks) (hk : k < size) : n * size + k < blocks * size :=
  calc n * size + k < n * size + size := Nat.add_lt_add_left hk _
    _ = (n + 1) * size := (Nat.succ_mul n size).symm
    _ ≤ blocks * size := Nat.mul_le_mul_right size hn

/-- **A block holds what was written to it last.** -/
theorem contents_agree_latest (init : Bytes) (ws : List BlockWrite) (n : ℕ) :
    Agree size ((contents size init ws).window (n * size)) (latest size init ws n) := by
  induction ws with
  | nil => exact Agree.refl _ _
  | cons w ws ih =>
    intro k hk
    rw [window_apply, contents_cons]
    by_cases h : w.start ≤ n ∧ n < w.start + w.blocks
    · obtain ⟨j, rfl⟩ := Nat.exists_eq_add_of_le h.1
      have hj : j * size + k < w.blocks * size := offset_lt (by omega) hk
      rw [latest_of_covers (by simpa [covers] using h), window_apply, Nat.add_mul, Nat.add_assoc,
        overwrite_add hj, Nat.add_sub_cancel_left]
    · rw [latest_of_not_covers (by simpa [covers] using h), ← ih k hk, window_apply]
      rcases Nat.lt_or_ge n w.start with hlt | hge
      · exact overwrite_of_lt (offset_lt hlt hk)
      · have hle : w.start + w.blocks ≤ n := by omega
        refine overwrite_of_le ?_
        calc w.start * size + w.blocks * size = (w.start + w.blocks) * size :=
              (Nat.add_mul ..).symm
          _ ≤ n * size := Nat.mul_le_mul_right size hle
          _ ≤ n * size + k := Nat.le_add_right _ _

/-- **A read returns the latest data of each of its blocks.** -/
theorem agree_latest
    (h : Agree (blocks * size) buffer ((contents size init ws).window (start * size)))
    (hle : start ≤ n) (hlt : n < start + blocks) :
    Agree size (buffer.window ((n - start) * size)) (latest size init ws n) := by
  obtain ⟨j, rfl⟩ := Nat.exists_eq_add_of_le hle
  intro k hk
  have hj : j * size + k < blocks * size := offset_lt (by omega) hk
  rw [← contents_agree_latest init ws _ k hk, Nat.add_sub_cancel_left, window_apply, h _ hj]
  simp only [window_apply, Nat.add_mul, Nat.add_assoc]

end BlockWrite

end Machinery
