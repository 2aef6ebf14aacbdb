import Mathlib.Logic.Function.Basic

/-!
# Machinery/Transition — labelled transition systems and their runs

A system is an initial state with a partial step function on labels, so a run is a list of labels
and can be executed (`Lts.exec`).  Safety is stated over `Lts.Reach C`, the states reached by runs
*all of whose steps meet* `C`: with `C` trivial these are all reachable states, and a law that needs
a condition on the steps carries it there.

The state of a system of threads is a shared part and one local state per thread; a step moves one
thread, and `forall_update` is the rule that keeps an assertion about every thread.  The shared part
has tables of records, of which a step writes one: `frame_update` is the rule for the fields that it
does not write.
-/

namespace Machinery

/-- A **labelled transition system**: `step s a = none` when the label `a` is not enabled. -/
structure Lts (σ α : Type*) where
  init : σ
  step : σ → α → Option σ

namespace Lts

variable {σ α : Type*} {T : Lts σ α} {C C' : σ → α → Prop} {s s' : σ}

/-- The states reached by runs all of whose steps meet `C`. -/
inductive Reach (T : Lts σ α) (C : σ → α → Prop) : σ → Prop
  | init : Reach T C T.init
  | step {s s' : σ} {a : α} : Reach T C s → C s a → T.step s a = some s' → Reach T C s'

/-- The states reached by any run. -/
abbrev Reachable (T : Lts σ α) : σ → Prop := T.Reach fun _ _ => True

/-- **The condition rule.**  A condition may be replaced by one that the steps of the runs meet
anyway; what is known of the runs under the new condition may be used to show that they do. -/
theorem Reach.mono (hC : ∀ s a, T.Reach C s → T.Reach C' s → C s a → C' s a) (h : T.Reach C s) :
    T.Reach C' s := by
  induction h with
  | init => exact .init
  | step hr hc hs ih => exact .step ih (hC _ _ hr ih hc) hs

/-- **The projection rule.**  When every step of a system makes at most one step of a component, and
that one meets `D`, the component's state is reached by a run of its own that meets `D`. -/
theorem Reach.image {σ' α' : Type*} {U : Lts σ' α'} {D : σ' → α' → Prop} (f : σ → σ')
    (h0 : f T.init = U.init)
    (hstep : ∀ s a s', T.Reach C s → C s a → T.step s a = some s' →
      f s' = f s ∨ ∃ a', D (f s) a' ∧ U.step (f s) a' = some (f s'))
    (h : T.Reach C s) : U.Reach D (f s) := by
  induction h with
  | init => exact h0 ▸ .init
  | step hr hc hs ih =>
    rcases hstep _ _ _ hr hc hs with heq | ⟨a', hd, hu⟩
    · exact heq ▸ ih
    · exact .step ih hd hu

theorem Reach.reachable (h : T.Reach C s) : T.Reachable s := h.mono fun _ _ _ _ _ => trivial

/-- **The invariant rule.**  What holds initially and is kept by every step that meets `C`, from a
state already known to be reached, holds of every state reached. -/
theorem Reach.invariant {I : σ → Prop} (h0 : I T.init)
    (hstep : ∀ s a s', T.Reach C s → I s → C s a → T.step s a = some s' → I s')
    (h : T.Reach C s) : I s := by
  induction h with
  | init => exact h0
  | step hr hc hs ih => exact hstep _ _ _ hr ih hc hs

/-- Execute a list of labels, each of which passes the test `c`. -/
def exec (T : Lts σ α) (c : σ → α → Bool) : List α → σ → Option σ
  | [], s => some s
  | a :: as, s => if c s a then (T.step s a).bind (exec T c as) else none

variable {c : σ → α → Bool}

/-- A run goes on from where its first step leads. -/
theorem exec_cons {a : α} (as : List α) (ha : c s a = true) (hs : T.step s a = some s') :
    T.exec c (a :: as) s = T.exec c as s' := by
  simp [exec, ha, hs]

/-- …and from where its first part leads. -/
theorem exec_append {as bs : List α} (hs : T.exec c as s = some s') :
    T.exec c (as ++ bs) s = T.exec c bs s' := by
  induction as generalizing s with
  | nil => rw [Option.some.inj hs, List.nil_append]
  | cons a as ih =>
    unfold Lts.exec at hs
    split at hs
    · next ha =>
      obtain ⟨s₁, h₁, h₂⟩ := Option.bind_eq_some_iff.mp hs
      rw [List.cons_append, exec_cons _ ha h₁, ih h₂]
    · cases hs

/-- **An executed run reaches its last state.** -/
theorem Reach.exec (hc : ∀ s a, c s a = true → C s a) (as : List α) (h : T.Reach C s)
    (he : T.exec c as s = some s') : T.Reach C s' := by
  induction as generalizing s with
  | nil => exact Option.some.inj he ▸ h
  | cons a as ih =>
    unfold Lts.exec at he
    split at he
    · next hca =>
      obtain ⟨s₁, h₁, h₂⟩ := Option.bind_eq_some_iff.mp he
      exact ih (.step h (hc _ _ hca) h₁) h₂
    · cases he

/-- A run executed from the initial state, inspected at its end: the form in which a closed run is
evaluated. -/
theorem exists_reach (hc : ∀ s a, c s a = true → C s a) (as : List α) (P : σ → Prop)
    [DecidablePred P] (h : (T.exec c as T.init).any (fun s => P s) = true) :
    ∃ s, T.Reach C s ∧ P s := by
  cases he : T.exec c as T.init with
  | none => rw [he] at h; exact absurd h (by simp)
  | some s =>
    rw [he] at h
    exact ⟨s, .exec hc as .init he, by simpa using h⟩

/-- The same without a condition on the steps. -/
theorem exists_reachable (as : List α) (P : σ → Prop) [DecidablePred P]
    (h : (T.exec (fun _ _ => true) as T.init).any (fun s => P s) = true) :
    ∃ s, T.Reachable s ∧ P s :=
  exists_reach (fun _ _ _ => trivial) as P h

end Lts

/-! ## One record is written -/

section Records

variable {ι ρ α : Type*} [DecidableEq ι] {table : ι → ρ} {i j : ι} {record : ρ} {x : α}

/-- **The frame rule.**  A field that the write of a record leaves alone is the same throughout the
table. -/
theorem frame_update {φ : Type*} (field : ρ → φ) (h : field record = field (table i)) :
    field (Function.update table i record j) = field (table j) := by
  rw [Function.apply_update fun _ => field, h, Function.update_eq_self i fun k => field (table k)]

/-- …and so are the elements of a list. -/
theorem mem_frame_update (field : ρ → List α) (h : field record = field (table i)) :
    x ∈ field (Function.update table i record j) ↔ x ∈ field (table j) := by
  rw [frame_update field h]

end Records

/-! ## One thread moves -/

section Threads

variable {τ π : Type*} [DecidableEq τ]

/-- **The thread rule.**  When thread `t` moves to the local state `pc`, an assertion about every
thread holds after the move if `pc` meets it and every other thread does. -/
theorem forall_update {L : τ → π → Prop} {calls : τ → π} {t : τ} {pc : π} (own : L t pc)
    (others : ∀ t₂, t₂ ≠ t → L t₂ (calls t₂)) : ∀ t₂, L t₂ (Function.update calls t pc t₂) := by
  intro t₂
  rcases eq_or_ne t₂ t with rfl | hne
  · rwa [Function.update_self]
  · rw [Function.update_of_ne hne]
    exact others t₂ hne

end Threads

end Machinery
