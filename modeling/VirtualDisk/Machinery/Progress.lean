import Mathlib.Algebra.BigOperators.Group.Finset.Basic
import Mathlib.Algebra.Order.BigOperators.Group.Finset
import VirtualDisk.Machinery.Transition

/-!
# Machinery/Progress — runs that come to an end

A class `C` of steps *winds down* when every step of it, from a state that meets an invariant,
lowers a measure.  Then a run of such steps is no longer than the measure at its start, whatever
the order of the steps, and it can be continued until no step of the class is enabled.

Where no one measure is lowered by every step, `ends_of_phases` takes two: a step lowers the outer
one, or leaves it and lowers the inner one, which is chosen anew in each phase.

In a system of threads a measure is a sum over the threads; `sum_update` and `sum_move` are the
rules for one that moves.
-/

namespace Machinery

namespace Lts

variable {σ α : Type*} {T : Lts σ α} {C : σ → α → Prop} {I : σ → Prop} {μ : σ → ℕ} {s s' : σ} {n : ℕ}

/-- **A run of `n` steps**, all of which meet `C`. -/
inductive Run (T : Lts σ α) (C : σ → α → Prop) : σ → ℕ → σ → Prop
  | refl (s : σ) : Run T C s 0 s
  | step {s s' s'' : σ} {a : α} {n : ℕ} (hc : C s a) (hs : T.step s a = some s')
      (h : Run T C s' n s'') : Run T C s (n + 1) s''

/-- No step that meets `C` is enabled. -/
def AtRest (T : Lts σ α) (C : σ → α → Prop) (s : σ) : Prop := ∀ a, C s a → T.step s a = none

/-- **Every run of steps that meet `C` comes to an end.** -/
def Ends (T : Lts σ α) (C : σ → α → Prop) (s : σ) : Prop :=
  Acc (fun s' s => ∃ a, C s a ∧ T.step s a = some s') s

/-- A run keeps what its steps keep. -/
theorem Run.keeps (h : T.Run C s n s')
    (hkeep : ∀ s a s', I s → C s a → T.step s a = some s' → I s') (hi : I s) : I s' := by
  induction h with
  | refl => exact hi
  | step hc hs _ ih => exact ih (hkeep _ _ _ hi hc hs)

/-- Fewer steps come to an end, too. -/
theorem Ends.mono {C' : σ → α → Prop} (hC : ∀ s a, C' s a → C s a) (h : T.Ends C s) :
    T.Ends C' s := by
  refine Subrelation.accessible (fun {s' s} hs => ?_) h
  obtain ⟨a, hc, hs⟩ := hs
  exact ⟨a, hC s a hc, hs⟩

/-- A run that comes to an end does so from each of its states. -/
theorem Ends.of_run (h : T.Ends C s) (hrun : T.Run C s n s') : T.Ends C s' := by
  induction hrun with
  | refl => exact h
  | step hc hs _ ih => exact ih (h.inv ⟨_, hc, hs⟩)

/-- **At the end no further step is enabled.** -/
theorem Ends.exists_atRest (h : T.Ends C s) : ∃ n s', T.Run C s n s' ∧ T.AtRest C s' := by
  induction h with
  | intro s _ ih =>
    by_cases hrest : T.AtRest C s
    · exact ⟨0, s, .refl s, hrest⟩
    · obtain ⟨a, hc, hs⟩ := by simpa only [AtRest, not_forall] using hrest
      obtain ⟨s₁, hs⟩ := Option.ne_none_iff_exists'.mp hs
      obtain ⟨n, s', hrun, hrest⟩ := ih s₁ ⟨a, hc, hs⟩
      exact ⟨n + 1, s', .step hc hs hrun, hrest⟩

/-! ## Two measures -/

/-- **The rule of phases**: a step lowers `ν`, or leaves it and lowers the measure of the phase,
which goes on.  Every state that meets the invariant is in some phase. -/
theorem ends_of_phases {κ : Type*} (ν : σ → ℕ) (J : κ → σ → Prop) (μ : κ → σ → ℕ)
    (hphase : ∀ s, I s → ∃ k, J k s)
    (hkeep : ∀ s a s', I s → C s a → T.step s a = some s' → I s')
    (hlower : ∀ k s a s', I s → J k s → C s a → T.step s a = some s' →
      ν s' < ν s ∨ (ν s' ≤ ν s ∧ J k s' ∧ μ k s' < μ k s)) (hi : I s) : T.Ends C s := by
  induction hn : ν s using Nat.strong_induction_on generalizing s with
  | _ n outer =>
    obtain ⟨k, hk⟩ := hphase s hi
    -- inside the phase, by its own measure
    have inner : ∀ m s, I s → J k s → ν s ≤ n → μ k s = m → T.Ends C s := by
      intro m
      induction m using Nat.strong_induction_on with
      | _ m inner =>
        intro s hi hk hle hm
        refine ⟨s, fun s' ⟨a, hc, hs⟩ => ?_⟩
        have hi' := hkeep s a s' hi hc hs
        rcases hlower k s a s' hi hk hc hs with hlt | ⟨hle', hk', hlt⟩
        · exact outer (ν s') (Nat.lt_of_lt_of_le hlt hle) hi' rfl
        · exact inner (μ k s') (hm ▸ hlt) s' hi' hk' (Nat.le_trans hle' hle) rfl
    exact inner (μ k s) s hi hk (Nat.le_of_eq hn) rfl

/-! ## One measure -/

/-- **The steps that meet `C` wind the system down**: they keep `I`, and lower `μ`. -/
structure WindsDown (T : Lts σ α) (C : σ → α → Prop) (I : σ → Prop) (μ : σ → ℕ) : Prop where
  keeps : ∀ s a s', I s → C s a → T.step s a = some s' → I s'
  lowers : ∀ s a s', I s → C s a → T.step s a = some s' → μ s' < μ s

/-- They come to an end. -/
theorem WindsDown.ends (w : T.WindsDown C I μ) (hi : I s) : T.Ends C s :=
  ends_of_phases μ (fun (_ : Unit) _ => True) (fun _ => μ) (fun _ _ => ⟨(), trivial⟩) w.keeps
    (fun _ s a s' hi _ hc hs => .inl (w.lowers s a s' hi hc hs)) hi

end Lts

/-! ## Sums over threads -/

section Threads

variable {τ π : Type*} [DecidableEq τ] {ts : Finset τ} {t : τ}

/-- **One term of a sum changes.** -/
theorem sum_update (f f' : τ → ℕ) (ht : t ∈ ts) (others : ∀ t₂, t₂ ≠ t → f' t₂ = f t₂) :
    ∑ t₂ ∈ ts, f' t₂ + f t = ∑ t₂ ∈ ts, f t₂ + f' t := by
  have hrest : ∑ t₂ ∈ ts.erase t, f' t₂ = ∑ t₂ ∈ ts.erase t, f t₂ :=
    Finset.sum_congr rfl fun t₂ ht₂ => others t₂ (Finset.ne_of_mem_erase ht₂)
  have hsum := Finset.add_sum_erase ts f ht
  have hsum' := Finset.add_sum_erase ts f' ht
  omega

/-- One term of a sum grows by a constant at most. -/
theorem sum_le_add (f f' : τ → ℕ) {c : ℕ} (others : ∀ t₂, t₂ ≠ t → f' t₂ ≤ f t₂)
    (own : f' t ≤ f t + c) : ∑ t₂ ∈ ts, f' t₂ ≤ ∑ t₂ ∈ ts, f t₂ + c := by
  have hrest : ∑ t₂ ∈ ts.erase t, f' t₂ ≤ ∑ t₂ ∈ ts.erase t, f t₂ :=
    Finset.sum_le_sum fun t₂ ht₂ => others t₂ (Finset.ne_of_mem_erase ht₂)
  by_cases ht : t ∈ ts
  · rw [← Finset.add_sum_erase ts f ht, ← Finset.add_sum_erase ts f' ht]
    omega
  · rw [Finset.erase_eq_of_notMem ht] at hrest
    omega

variable {w w' : π → ℕ} {calls : τ → π}

/-- **One thread moves**, and the others' share does not grow. -/
theorem sum_move (pc : π) (ht : t ∈ ts) (others : ∀ t₂, t₂ ≠ t → w' (calls t₂) ≤ w (calls t₂)) :
    ∑ t₂ ∈ ts, w' (Function.update calls t pc t₂) + w (calls t) ≤
      ∑ t₂ ∈ ts, w (calls t₂) + w' pc := by
  rw [← Finset.add_sum_erase ts _ ht, ← Finset.add_sum_erase ts (fun t₂ => w (calls t₂)) ht,
    Function.update_self]
  have hle : ∑ t₂ ∈ ts.erase t, w' (Function.update calls t pc t₂) ≤
      ∑ t₂ ∈ ts.erase t, w (calls t₂) := by
    refine Finset.sum_le_sum fun t₂ ht₂ => ?_
    have hne := Finset.ne_of_mem_erase ht₂
    rw [Function.update_of_ne hne]
    exact others t₂ hne
  omega

end Threads

end Machinery
