import Mathlib.Data.Set.Card

/-!
# Machinery/Tally — how many threads are somewhere

`Tally S n` says that the set `S` has `n` elements, a finite number.  When one thread moves, only
its own membership changes, and the count changes by what that thread contributes before and after.
-/

namespace Machinery

variable {τ : Type*} {S S' : Set τ} {t : τ} {n m : ℤ}

/-- **The set is finite and has `n` elements.** -/
structure Tally (S : Set τ) (n : ℤ) : Prop where
  finite : S.Finite
  card : (S.ncard : ℤ) = n

namespace Tally

/-- Nothing is counted as zero. -/
theorem empty (h : ∀ x, x ∉ S) : Tally S 0 := by
  obtain rfl : S = ∅ := Set.eq_empty_of_forall_notMem h
  exact ⟨Set.finite_empty, by simp⟩

/-- A count is not negative. -/
theorem nonneg (h : Tally S n) : 0 ≤ n := h.card ▸ Int.natCast_nonneg _

/-- What is counted as zero is empty. -/
theorem notMem (h : Tally S 0) (x : τ) : x ∉ S := by
  have hcard : S.ncard = 0 := by exact_mod_cast h.card
  rw [(Set.ncard_eq_zero h.finite).mp hcard]
  exact Set.notMem_empty x

/-- The same elements, the same count. -/
theorem congr (h : Tally S n) (hS : ∀ x, x ∈ S' ↔ x ∈ S) : Tally S' n := by
  obtain rfl : S' = S := Set.ext hS
  exact h

/-- One more element. -/
theorem join (h : Tally S n) (ht : t ∉ S) (hS : ∀ x, x ∈ S' ↔ x = t ∨ x ∈ S) :
    Tally S' (n + 1) := by
  obtain rfl : S' = insert t S := Set.ext hS
  refine ⟨h.finite.insert t, ?_⟩
  rw [Set.ncard_insert_of_notMem ht h.finite, ← h.card]
  push_cast
  rfl

/-- One element less. -/
theorem part (h : Tally S n) (ht : t ∈ S) (hS : ∀ x, x ∈ S' ↔ x ≠ t ∧ x ∈ S) :
    Tally S' (n - 1) := by
  obtain rfl : S' = S \ {t} := Set.ext fun x => by rw [hS]; simp [and_comm]
  refine ⟨h.finite.sdiff, ?_⟩
  have hcard := Set.ncard_sdiff_singleton_add_one ht h.finite
  rw [← h.card]
  omega

/-- **One thread moves**: the count changes by what it contributes before and after. -/
theorem move [Decidable (t ∈ S)] [Decidable (t ∈ S')] (h : Tally S n)
    (others : ∀ x, x ≠ t → (x ∈ S' ↔ x ∈ S))
    (hm : m = n + (if t ∈ S' then 1 else 0) - (if t ∈ S then 1 else 0)) : Tally S' m := by
  subst hm
  by_cases ht : t ∈ S <;> by_cases ht' : t ∈ S'
  · have hS : ∀ x, x ∈ S' ↔ x ∈ S := by
      intro x
      rcases eq_or_ne x t with rfl | hx
      · exact iff_of_true ht' ht
      · exact others x hx
    simpa [ht, ht'] using h.congr hS
  · have hS : ∀ x, x ∈ S' ↔ x ≠ t ∧ x ∈ S := by
      intro x
      rcases eq_or_ne x t with rfl | hx
      · simp [ht']
      · simp [others x hx, hx]
    simpa [ht, ht'] using h.part ht hS
  · have hS : ∀ x, x ∈ S' ↔ x = t ∨ x ∈ S := by
      intro x
      rcases eq_or_ne x t with rfl | hx
      · simp [ht']
      · simp [others x hx, hx]
    simpa [ht, ht'] using h.join ht hS
  · have hS : ∀ x, x ∈ S' ↔ x ∈ S := by
      intro x
      rcases eq_or_ne x t with rfl | hx
      · exact iff_of_false ht' ht
      · exact others x hx
    simpa [ht, ht'] using h.congr hS

end Tally

end Machinery
