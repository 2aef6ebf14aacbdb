import Mathlib.Data.List.Perm.Basic
import Mathlib.Data.List.Nodup

/-!
# Machinery/Ledger — items that are in one place each

A *ledger* says what lies in each of a family of places.  It is **exclusive** when no item lies in
two places or twice in one; it stays **within** a set of items when only these lie anywhere, and it
**accounts** for the set when all of them do.  An operation of a program is then one of four
entries: it keeps every place up to order, it moves one item, it brings in a new one, or it lets
one go.
-/

namespace Machinery

variable {κ ι : Type*} {c c' : κ → List ι} {A A' : ι → Prop} {k k' j : κ} {i x : ι}

/-- No item lies in two places, or twice in one. -/
structure Exclusive (c : κ → List ι) : Prop where
  nodup : ∀ k, (c k).Nodup
  unique : ∀ {k k' i}, i ∈ c k → i ∈ c k' → k = k'

/-- An exclusive ledger of items among `A`. -/
structure Within (A : ι → Prop) (c : κ → List ι) : Prop extends Exclusive c where
  within : ∀ k i, i ∈ c k → A i

/-- An exclusive ledger of exactly the items `A`. -/
structure Accounts (A : ι → Prop) (c : κ → List ι) : Prop extends Exclusive c where
  covers : ∀ i, A i ↔ ∃ k, i ∈ c k

/-! ## Entries -/

section Entries

variable [DecidableEq κ]

/-- The item `i` is brought to the place `k`. -/
def receive (c : κ → List ι) (k : κ) (i : ι) : κ → List ι := fun j =>
  if j = k then i :: c j else c j

variable [DecidableEq ι]

/-- The item `i` leaves the place `k`. -/
def release (c : κ → List ι) (k : κ) (i : ι) : κ → List ι := fun j =>
  if j = k then (c j).erase i else c j

/-- The item `i` goes from the place `k` to the place `k'`. -/
def transfer (c : κ → List ι) (k k' : κ) (i : ι) : κ → List ι := receive (release c k i) k' i

end Entries

namespace Exclusive

/-- Empty places. -/
theorem empty (h : ∀ k, c k = []) : Exclusive c where
  nodup k := by rw [h k]; exact List.nodup_nil
  unique hi _ := by rw [h] at hi; exact absurd hi List.not_mem_nil

/-- **The frame entry**: the places hold what they held, in any order. -/
theorem frame (h : Exclusive c) (hperm : ∀ k, (c' k).Perm (c k)) : Exclusive c' where
  nodup k := (hperm k).nodup_iff.mpr (h.nodup k)
  unique hi hi' := h.unique ((hperm _).mem_iff.mp hi) ((hperm _).mem_iff.mp hi')

/-- An item that is in one place is in no other. -/
theorem notMem (h : Exclusive c) (hi : i ∈ c k) (hne : k' ≠ k) : i ∉ c k' :=
  fun hi' => hne (h.unique hi' hi)

variable [DecidableEq κ]

/-- Where the items are after a receipt. -/
theorem mem_receive : x ∈ receive c k i j ↔ (x = i ∧ j = k) ∨ x ∈ c j := by
  unfold receive
  split <;> simp_all

/-- **The receipt entry**: an item that was nowhere is put in a place. -/
theorem receive (h : Exclusive c) (hi : ∀ j, i ∉ c j) : Exclusive (receive c k i) where
  nodup j := by
    unfold Machinery.receive
    split
    · exact List.nodup_cons.mpr ⟨hi j, h.nodup j⟩
    · exact h.nodup j
  unique hx hx' := by
    rcases mem_receive.mp hx with ⟨rfl, rfl⟩ | hold
    · rcases mem_receive.mp hx' with ⟨-, rfl⟩ | hold'
      · rfl
      · exact absurd hold' (hi _)
    · rcases mem_receive.mp hx' with ⟨rfl, -⟩ | hold'
      · exact absurd hold (hi _)
      · exact h.unique hold hold'

variable [DecidableEq ι]

/-- Where the items are after a release. -/
theorem mem_release (h : Exclusive c) (hi : i ∈ c k) :
    x ∈ release c k i j ↔ x ≠ i ∧ x ∈ c j := by
  unfold release
  split
  · exact (h.nodup j).mem_erase_iff
  · next hj => exact ⟨fun hx => ⟨fun hxi => h.notMem hi hj (hxi ▸ hx), hx⟩, And.right⟩

/-- **The release entry**: one item leaves the ledger. -/
theorem release (h : Exclusive c) (hi : i ∈ c k) : Exclusive (release c k i) where
  nodup j := by
    unfold Machinery.release
    split
    · exact (h.nodup j).erase i
    · exact h.nodup j
  unique hx hx' := h.unique ((h.mem_release hi).mp hx).2 ((h.mem_release hi).mp hx').2

/-- Where the items are after a transfer. -/
theorem mem_transfer (h : Exclusive c) (hi : i ∈ c k) :
    x ∈ transfer c k k' i j ↔ (x = i ∧ j = k') ∨ (x ≠ i ∧ x ∈ c j) := by
  rw [transfer, mem_receive, h.mem_release hi]

/-- **The transfer entry**: one item goes from one place to another. -/
theorem transfer (h : Exclusive c) (hi : i ∈ c k) : Exclusive (transfer c k k' i) :=
  (h.release hi).receive fun _ hj => ((h.mem_release hi).mp hj).1 rfl

end Exclusive

/-! ## Ledgers within a set -/

namespace Within

/-- Empty places. -/
theorem empty (h : ∀ k, c k = []) : Within A c where
  toExclusive := .empty h
  within k i hi := by rw [h] at hi; exact absurd hi List.not_mem_nil

/-- The frame entry. -/
theorem frame (h : Within A c) (hA : ∀ i, A i → A' i) (hperm : ∀ k, (c' k).Perm (c k)) :
    Within A' c' where
  toExclusive := h.toExclusive.frame hperm
  within k i hi := hA i (h.within k i ((hperm k).mem_iff.mp hi))

variable [DecidableEq κ]

/-- The receipt entry, of an item not in the set. -/
theorem receive (h : Within A c) (hi : ¬ A i) (k : κ) :
    Within (fun x => x = i ∨ A x) (receive c k i) where
  toExclusive := h.toExclusive.receive fun j hj => hi (h.within j i hj)
  within j x hx := (Exclusive.mem_receive.mp hx).imp And.left (h.within j x)

variable [DecidableEq ι]

/-- The release entry. -/
theorem release (h : Within A c) (hi : i ∈ c k) : Within A (release c k i) where
  toExclusive := h.toExclusive.release hi
  within j x hx := h.within j x ((h.toExclusive.mem_release hi).mp hx).2

/-- The transfer entry. -/
theorem transfer (h : Within A c) (hi : i ∈ c k) (k' : κ) : Within A (transfer c k k' i) where
  toExclusive := h.toExclusive.transfer hi
  within j x hx := by
    rcases (h.toExclusive.mem_transfer hi).mp hx with ⟨rfl, -⟩ | ⟨-, hx⟩
    · exact h.within k x hi
    · exact h.within j x hx

end Within

/-! ## Completeness -/

namespace Accounts

/-- An empty ledger accounts for nothing. -/
theorem empty (h : ∀ k, c k = []) (hA : ∀ i, ¬ A i) : Accounts A c where
  toExclusive := .empty h
  covers i := by
    refine ⟨fun hi => absurd hi (hA i), ?_⟩
    rintro ⟨k, hk⟩
    rw [h k] at hk
    exact absurd hk List.not_mem_nil

/-- The frame entry. -/
theorem frame (h : Accounts A c) (hA : ∀ i, A' i ↔ A i) (hperm : ∀ k, (c' k).Perm (c k)) :
    Accounts A' c' where
  toExclusive := h.toExclusive.frame hperm
  covers i := by
    rw [hA, h.covers i]
    exact exists_congr fun k => (hperm k).mem_iff.symm

variable [DecidableEq κ]

/-- The receipt entry, of an item not accounted for. -/
theorem receive (h : Accounts A c) (hi : ¬ A i) (k : κ) :
    Accounts (fun x => x = i ∨ A x) (receive c k i) where
  toExclusive := h.toExclusive.receive fun j hj => hi ((h.covers i).mpr ⟨j, hj⟩)
  covers x := by
    simp only [Exclusive.mem_receive, h.covers x, exists_or]
    exact or_congr_left ⟨fun hx => ⟨k, hx, rfl⟩, fun ⟨_, hx, _⟩ => hx⟩

/-- The release entry: the item is no longer accounted for. -/
theorem release [DecidableEq ι] (h : Accounts A c) (hi : i ∈ c k) :
    Accounts (fun x => x ≠ i ∧ A x) (release c k i) where
  toExclusive := h.toExclusive.release hi
  covers x := by
    simp only [h.toExclusive.mem_release hi, h.covers x, exists_and_left]

/-- The transfer entry. -/
theorem transfer [DecidableEq ι] (h : Accounts A c) (hi : i ∈ c k) (k' : κ) :
    Accounts A (transfer c k k' i) where
  toExclusive := h.toExclusive.transfer hi
  covers x := by
    simp only [h.toExclusive.mem_transfer hi, h.covers x]
    rcases eq_or_ne x i with rfl | hx
    · exact iff_of_true ⟨k, hi⟩ ⟨k', .inl ⟨rfl, rfl⟩⟩
    · simp [hx]

end Accounts

end Machinery
