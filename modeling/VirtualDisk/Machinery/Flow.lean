import Mathlib.Logic.Basic
import Mathlib.Tactic.Common

/-!
# Machinery/Flow — tokens that move from stage to stage

Work for several owners passes through the stages of a system, at most one piece for each owner at a
time.  A stage holds a *token* `(p, i)`, the piece `i` of the owner `p`, or none.  `Flow live tok`
says that every token is live and that an owner has one token at most; a step leaves tokens where
they are, drops some, passes one on, or makes one for an owner that has none.
-/

namespace Machinery

variable {κ π ι : Type*}

/-- **Every token is live, and no owner has two.** -/
structure Flow (live : π → ι → Prop) (tok : κ → Option (π × ι)) : Prop where
  live : ∀ k p i, tok k = some (p, i) → live p i
  single : ∀ k k' p i j, tok k = some (p, i) → tok k' = some (p, j) → k = k'

namespace Flow

variable {live live' : π → ι → Prop} {tok tok' : κ → Option (π × ι)} {p : π} {i : ι}

/-- **Tokens come from where tokens were**, no two from one stage. -/
theorem relocate (h : Flow live tok) (src : κ → κ → Prop)
    (hsrc : ∀ k, tok' k ≠ none → ∃ k₀, tok' k = tok k₀ ∧ src k k₀)
    (hinj : ∀ k k' k₀, tok' k ≠ none → tok' k' ≠ none → src k k₀ → src k' k₀ → k = k') :
    Flow live tok' := by
  have hne : ∀ {k p i}, tok' k = some (p, i) → tok' k ≠ none := by
    intro k p i hk
    rw [hk]
    exact Option.some_ne_none _
  refine ⟨?_, ?_⟩
  · intro k p i hk
    obtain ⟨k₀, hk₀, -⟩ := hsrc k (hne hk)
    exact h.live k₀ p i (hk₀.symm.trans hk)
  · intro k k' p i j hk hk'
    obtain ⟨k₀, hk₀, hs⟩ := hsrc k (hne hk)
    obtain ⟨k₁, hk₁, hs'⟩ := hsrc k' (hne hk')
    obtain rfl := h.single k₀ k₁ p i j (hk₀.symm.trans hk) (hk₁.symm.trans hk')
    exact hinj k k' k₀ (hne hk) (hne hk') hs hs'

/-- Tokens stay where they are, or are dropped. -/
theorem frame (h : Flow live tok) (htok : ∀ k, tok' k ≠ none → tok' k = tok k) :
    Flow live tok' := by
  refine h.relocate (fun k k₀ => k = k₀) (fun k hk => ⟨k, htok k hk, rfl⟩) ?_
  rintro k k' k₀ - - rfl rfl
  rfl

/-- **A token passes** from `k₀` to `k₁`. -/
theorem pass (h : Flow live tok) (k₀ k₁ : κ) (h₀ : tok' k₀ = none) (h₁ : tok' k₁ = tok k₀)
    (htok : ∀ k, k ≠ k₁ → tok' k ≠ none → tok' k = tok k) : Flow live tok' := by
  refine h.relocate (fun k k' => (k = k₁ ∧ k' = k₀) ∨ (k ≠ k₁ ∧ k' = k)) ?_ ?_
  · intro k hk
    by_cases hk₁ : k = k₁
    · subst hk₁
      exact ⟨k₀, h₁, .inl ⟨rfl, rfl⟩⟩
    · exact ⟨k, htok k hk₁ hk, .inr ⟨hk₁, rfl⟩⟩
  · rintro k k' x hk hk' (⟨rfl, rfl⟩ | ⟨-, rfl⟩) (⟨rfl, hx⟩ | ⟨-, hx⟩)
    · rfl
    · exact absurd (hx ▸ h₀) hk'
    · exact absurd (hx ▸ h₀) hk
    · exact hx

/-- **A token is made** for an owner that has none. -/
theorem start (h : Flow live tok) (k₀ : κ) (h₀ : tok' k₀ = some (p, i))
    (htok : ∀ k, k ≠ k₀ → tok' k ≠ none → tok' k = tok k) (hnone : ∀ k j, tok k ≠ some (p, j))
    (hp : live' p i)
    (hother : ∀ q j, q ≠ p → live q j → live' q j) : Flow live' tok' := by
  have hkeep : ∀ k q j, k ≠ k₀ → tok' k = some (q, j) → tok k = some (q, j) ∧ q ≠ p := by
    intro k q j hk hq
    rw [htok k hk (hq ▸ Option.some_ne_none _)] at hq
    refine ⟨hq, ?_⟩
    rintro rfl
    exact hnone k j hq
  refine ⟨?_, ?_⟩
  · intro k q j hq
    by_cases hk : k = k₀
    · subst hk
      cases h₀.symm.trans hq
      exact hp
    · obtain ⟨hq, hne⟩ := hkeep k q j hk hq
      exact hother q j hne (h.live k q j hq)
  · intro k k' q j j' hk hk'
    by_cases h₁ : k = k₀
    · subst h₁
      cases h₀.symm.trans hk
      by_cases h₂ : k' = k
      · exact h₂.symm
      · exact absurd rfl (hkeep k' _ j' h₂ hk').2
    · obtain ⟨hk, hne⟩ := hkeep k q j h₁ hk
      by_cases h₂ : k' = k₀
      · subst h₂
        cases h₀.symm.trans hk'
        exact absurd rfl hne
      · exact h.single k k' q j j' hk (hkeep k' q j' h₂ hk').1

/-- The tokens there are stay live. -/
theorem mono (h : Flow live tok) (hl : ∀ k p i, tok k = some (p, i) → live p i → live' p i) :
    Flow live' tok :=
  ⟨fun k p i hk => hl k p i hk (h.live k p i hk), h.single⟩

end Flow

end Machinery
