import Mathlib.Data.List.Basic
import Mathlib.Logic.Function.Basic

/-!
# Machinery/Imports — functions loaded by name and called through pointers

A program loads pointers to the functions of a library and calls them later.  Each row of the
loading table names the pointer that is loaded and the pointer that is tested for it; a NULL there
ends the loading.  A sequence of calls goes as far as the first pointer that is NULL, so a sequence
calls no missing function exactly when none of its functions is missing.
-/

namespace Machinery

/-- The pointers to a library's functions: which of them are set. -/
abbrev Pointers (φ : Type*) := φ → Bool

namespace Pointers

variable {φ : Type*} {exports : φ → Bool} {k : Pointers φ} {table : List (φ × φ)} {f g tested : φ}
  {fs : List φ}

/-! ## Loading -/

section Loading

variable [DecidableEq φ]

/-- Load the pointers of a table: the row `(f, tested)` loads `f` and tests `tested`. -/
def load (exports : φ → Bool) : List (φ × φ) → Pointers φ → Pointers φ × Bool
  | [], k => (k, true)
  | (f, tested) :: table, k =>
    if Function.update k f (exports f) tested then
      load exports table (Function.update k f (exports f))
    else (Function.update k f (exports f), false)

/-- Loading goes on when the pointer tested is set. -/
theorem load_cons (h : (load exports ((f, tested) :: table) k).2 = true) :
    Function.update k f (exports f) tested = true ∧
      load exports ((f, tested) :: table) k =
        load exports table (Function.update k f (exports f)) := by
  rw [load] at h ⊢
  split at h
  · next ht => exact ⟨ht, if_pos ht⟩
  · cases h

/-- **What was loaded is set when the library has it.** -/
theorem load_apply (h : (load exports table k).2 = true) (g : φ) :
    (load exports table k).1 g = if g ∈ table.map Prod.fst then exports g else k g := by
  induction table generalizing k with
  | nil => rfl
  | cons row table ih =>
    obtain ⟨f, tested⟩ := row
    obtain ⟨-, heq⟩ := load_cons h
    rw [heq] at h ⊢
    simp only [ih h, List.map_cons]
    by_cases hmem : g ∈ table.map Prod.fst
    · rw [if_pos hmem, if_pos (List.mem_cons_of_mem _ hmem)]
    · rw [if_neg hmem]
      by_cases hg : g = f
      · subst hg
        rw [if_pos List.mem_cons_self, Function.update_self]
      · rw [if_neg (by simpa [hg] using hmem), Function.update_of_ne hg]

/-- **A function whose own pointer was tested is in the library.** -/
theorem exports_of_load (h : (load exports table k).2 = true) (hf : (f, f) ∈ table) :
    exports f = true := by
  induction table generalizing k with
  | nil => cases hf
  | cons row table ih =>
    obtain ⟨g, tested⟩ := row
    obtain ⟨htest, heq⟩ := load_cons h
    rw [heq] at h
    rcases List.mem_cons.mp hf with hrow | hf
    · cases hrow
      rwa [Function.update_self] at htest
    · exact ih h hf

end Loading

/-! ## Calls -/

/-- The calls made of a sequence: the one through a NULL pointer is the last. -/
def made (k : Pointers φ) : List φ → List φ
  | [] => []
  | f :: fs => if k f then f :: made k fs else [f]

/-- Where no function is missing, all calls are made. -/
theorem made_of_forall (h : ∀ f ∈ fs, k f = true) : k.made fs = fs := by
  induction fs with
  | nil => rfl
  | cons f fs ih =>
    rw [made, if_pos (h f List.mem_cons_self), ih fun g hg => h g (List.mem_cons_of_mem _ hg)]

/-- **No call goes through a NULL pointer exactly when** no function of the sequence is missing. -/
theorem forall_made_iff : (∀ f ∈ k.made fs, k f = true) ↔ ∀ f ∈ fs, k f = true := by
  induction fs with
  | nil => rfl
  | cons f fs ih =>
    rw [made]
    by_cases hf : k f = true
    · rw [if_pos hf, List.forall_mem_cons, List.forall_mem_cons, ih]
    · rw [if_neg hf]
      exact ⟨fun h => absurd (h f (List.mem_singleton_self f)) hf,
        fun h => absurd (h f List.mem_cons_self) hf⟩

end Pointers

end Machinery
