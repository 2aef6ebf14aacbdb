import VirtualDisk.Machinery.Progress

/-!
# Machinery/Refinement — a system with finer steps

A system refines another along a map of the states when each of its steps is one of the other's, or
leaves the image where it is and lowers a measure.  What the other one's runs come to, its own runs
come to as well: they end where the other's do, and where nothing of it is enabled, nothing of the
other is.
-/

namespace Machinery

namespace Lts

variable {σ σ' α α' : Type*} {T : Lts σ α} {U : Lts σ' α'} {C : σ → α → Prop} {D : σ' → α' → Prop}
  {f : σ → σ'} {I : σ → Prop} {μ : σ → ℕ} {s s' : σ} {n : ℕ}

/-- **The steps of `T` that meet `C` refine those of `U` that meet `D`**, from states that meet
`I`. -/
structure Refines (T : Lts σ α) (C : σ → α → Prop) (U : Lts σ' α') (D : σ' → α' → Prop) (f : σ → σ')
    (I : σ → Prop) (μ : σ → ℕ) : Prop where
  keeps : ∀ s a s', I s → C s a → T.step s a = some s' → I s'
  simulates : ∀ s a s', I s → C s a → T.step s a = some s' →
    (f s' = f s ∧ μ s' < μ s) ∨ ∃ a', D (f s) a' ∧ U.step (f s) a' = some (f s')
  enables : ∀ s a' u, I s → D (f s) a' → U.step (f s) a' = some u →
    ∃ a s', C s a ∧ T.step s a = some s'

namespace Refines

variable (R : T.Refines C U D f I μ)
include R

/-- What is reached is reached in the other system, too. -/
theorem reach (h0 : f T.init = U.init) (hi : I T.init) (h : T.Reach C s) :
    I s ∧ U.Reach D (f s) := by
  induction h with
  | init => exact ⟨hi, h0 ▸ .init⟩
  | step _ hc hs ih =>
    refine ⟨R.keeps _ _ _ ih.1 hc hs, ?_⟩
    rcases R.simulates _ _ _ ih.1 hc hs with ⟨heq, -⟩ | ⟨a', hd, hu⟩
    · exact heq ▸ ih.2
    · exact .step ih.2 hd hu

/-- A run is one of the other system's. -/
theorem run (h : T.Run C s n s') (hi : I s) : ∃ m, U.Run D (f s) m (f s') := by
  induction h with
  | refl s => exact ⟨0, .refl _⟩
  | step hc hs _ ih =>
    obtain ⟨m, hm⟩ := ih (R.keeps _ _ _ hi hc hs)
    rcases R.simulates _ _ _ hi hc hs with ⟨heq, -⟩ | ⟨a', hd, hu⟩
    · exact ⟨m, heq ▸ hm⟩
    · exact ⟨m + 1, .step hd hu hm⟩

/-- **The runs come to an end**, if the other system's do. -/
theorem ends (h : U.Ends D (f s)) (hi : I s) : T.Ends C s := by
  generalize hu : f s = u at h
  induction h generalizing s with
  | intro u _ outer =>
    -- between two steps of the other system, by the measure
    induction hm : μ s using Nat.strong_induction_on generalizing s with
    | _ m inner =>
      refine ⟨s, fun s' ⟨a, hc, hs⟩ => ?_⟩
      have hi' := R.keeps s a s' hi hc hs
      rcases R.simulates s a s' hi hc hs with ⟨heq, hlt⟩ | ⟨a', hd, hstep⟩
      · exact inner (μ s') (hm ▸ hlt) hi' (heq.trans hu) rfl
      · exact outer (f s') ⟨a', hu ▸ hd, hu ▸ hstep⟩ hi' rfl

/-- **Where nothing is enabled**, nothing of the other system is. -/
theorem atRest (h : T.AtRest C s) (hi : I s) : U.AtRest D (f s) := by
  intro a' hd
  by_contra hne
  obtain ⟨u, hu⟩ := Option.ne_none_iff_exists'.mp hne
  obtain ⟨a, s', hc, hs⟩ := R.enables s a' u hi hd hu
  rw [h a hc] at hs
  cases hs

end Refines

end Lts

end Machinery
