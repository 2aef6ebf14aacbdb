import Mathlib.Data.List.Basic

/-!
# Machinery/Script — routines that call out, and the protocols they are bound to

A `Script` is a routine seen by its calls: it returns, or makes a call and goes on with the answer,
whatever that is.  A `Protocol` says which answers a call can get and which calls are allowed, by a
state that the calls change; a run of a script ends with a result, or with a call that is not
allowed.

`all_iff` turns an assertion about all runs into one that is computed from the script, call by call,
and `all_bind` computes it for a routine made of two.
-/

namespace Machinery

variable {ε : Type} {ρ : ε → Type} {α β σ : Type}

/-- **A routine that calls out**: `call e k` makes the call `e` and goes on with its answer. -/
inductive Script (ε : Type) (ρ : ε → Type) (α : Type)
  | ret (a : α)
  | call (e : ε) (k : ρ e → Script ε ρ α)

/-- The calls of a run with their answers, in order. -/
abbrev Calls (ε : Type) (ρ : ε → Type) := List (Σ e, ρ e)

namespace Script

/-- One routine, and then another. -/
def bind : Script ε ρ α → (α → Script ε ρ β) → Script ε ρ β
  | .ret a, f => f a
  | .call e k, f => .call e fun r => (k r).bind f

instance : Monad (Script ε ρ) where
  pure := .ret
  bind := bind

/-- A single call. -/
@[simp] def perform (e : ε) : Script ε ρ (ρ e) := .call e .ret

@[simp] theorem pure_eq (a : α) : (pure a : Script ε ρ α) = .ret a := rfl

@[simp] theorem ret_bind (a : α) (f : α → Script ε ρ β) : (.ret a : Script ε ρ α) >>= f = f a := rfl

@[simp] theorem call_bind (e : ε) (k : ρ e → Script ε ρ α) (f : α → Script ε ρ β) :
    .call e k >>= f = .call e fun r => k r >>= f := rfl

end Script

/-- **A protocol**: the answers a call can get in a state, and the state it leads to, if it is
allowed. -/
structure Protocol (ε : Type) (ρ : ε → Type) (σ : Type) where
  answers : σ → (e : ε) → ρ e → Prop
  step : σ → (e : ε) → ρ e → Option σ

namespace Protocol

/-- **A run of a script**, with its calls: it ends with a result, or at a call that is not
allowed. -/
inductive Run (P : Protocol ε ρ σ) : Script ε ρ α → σ → Calls ε ρ → Option (α × σ) → Prop
  | ret (a : α) (s : σ) : Run P (.ret a) s [] (some (a, s))
  | call {e s s' r k tr o} (hr : P.answers s e r) (hs : P.step s e r = some s')
      (h : Run P (k r) s' tr o) :
      Run P (.call e k) s (⟨e, r⟩ :: tr) o
  | breach {e s r k} (hr : P.answers s e r) (hs : P.step s e r = none) :
      Run P (.call e k) s [⟨e, r⟩] none

/-- **Every run meets `φ`**, computed from the script. -/
def All (P : Protocol ε ρ σ) : Script ε ρ α → (Calls ε ρ → Option (α × σ) → Prop) → σ → Prop
  | .ret a, φ, s => φ [] (some (a, s))
  | .call e k, φ, s => ∀ r, P.answers s e r → (P.step s e r).elim (φ [⟨e, r⟩] none) fun s' =>
    All P (k r) (fun tr o => φ (⟨e, r⟩ :: tr) o) s'

variable {P : Protocol ε ρ σ} {p : Script ε ρ α} {f : α → Script ε ρ β} {s : σ}

/-- **An assertion about all runs is computed.** -/
theorem all_iff {φ : Calls ε ρ → Option (α × σ) → Prop} :
    P.All p φ s ↔ ∀ tr o, P.Run p s tr o → φ tr o := by
  induction p generalizing s φ with
  | ret a =>
    constructor
    · rintro h tr o (_ | _)
      exact h
    · exact fun h => h _ _ (.ret a s)
  | call e k ih =>
    constructor
    · rintro h tr o (_ | ⟨hr, hs, hrun⟩ | ⟨hr, hs⟩)
      · have h := h _ hr
        rw [hs] at h
        exact ih _ |>.mp h _ _ hrun
      · have h := h _ hr
        rwa [hs] at h
    · intro h r hr
      cases hs : P.step s e r with
      | none => exact h _ _ (.breach hr hs)
      | some s' => exact (ih r).mpr fun tr o hrun => h _ _ (.call hr hs hrun)

@[simp] theorem all_ret {a : α} {φ : Calls ε ρ → Option (α × σ) → Prop} :
    P.All (.ret a) φ s ↔ φ [] (some (a, s)) := Iff.rfl

/-- A routine with a test. -/
@[simp] theorem all_ite {c : Prop} [Decidable c] {q : Script ε ρ α}
    {φ : Calls ε ρ → Option (α × σ) → Prop} :
    P.All (if c then p else q) φ s ↔ if c then P.All p φ s else P.All q φ s := by
  split <;> rfl

/-! ## Calls that read the state -/

/-- **A protocol in which some calls read the state**, and the others may be answered in any way. -/
def ofReads (reads : σ → (e : ε) → Option (ρ e)) (step : σ → (e : ε) → ρ e → Option σ) :
    Protocol ε ρ σ where
  answers s e r := ∀ v, reads s e = some v → r = v
  step := step

section Reads

variable {reads : σ → (e : ε) → Option (ρ e)} {step : σ → (e : ε) → ρ e → Option σ} {e : ε}

theorem answers_free {r : ρ e} (h : reads s e = none) : (ofReads reads step).answers s e r :=
  fun _ hv => absurd (h.symm.trans hv) (Option.some_ne_none _).symm

theorem answers_read {v : ρ e} (h : reads s e = some v) : (ofReads reads step).answers s e v :=
  fun _ hv => Option.some.inj (h.symm.trans hv)

variable {k : ρ e → Script ε ρ α} {φ : Calls ε ρ → Option (α × σ) → Prop}

/-- **The rule of a call** that may be answered in any way. -/
theorem all_call (h : reads s e = none) :
    (ofReads reads step).All (.call e k) φ s ↔ ∀ r, (step s e r).elim (φ [⟨e, r⟩] none) fun s' =>
      (ofReads reads step).All (k r) (fun tr o => φ (⟨e, r⟩ :: tr) o) s' :=
  forall_congr' fun _ => ⟨fun hall => hall (answers_free h), fun hall _ => hall⟩

/-- **The rule of a read.** -/
theorem all_read {r : ρ e} (h : reads s e = some r) :
    (ofReads reads step).All (.call e k) φ s ↔ (step s e r).elim (φ [⟨e, r⟩] none) fun s' =>
      (ofReads reads step).All (k r) (fun tr o => φ (⟨e, r⟩ :: tr) o) s' := by
  constructor
  · exact fun hall => hall r (answers_read h)
  · intro hall r' hr
    obtain rfl : r' = r := hr r h
    exact hall

end Reads

/-! ## Two routines -/

/-- What is known of the runs of a routine may be weakened. -/
theorem All.mono {φ ψ : Calls ε ρ → Option (α × σ) → Prop} (h : P.All p φ s)
    (hφ : ∀ tr o, φ tr o → ψ tr o) : P.All p ψ s :=
  all_iff.mpr fun tr o hrun => hφ tr o (all_iff.mp h tr o hrun)

/-- **The rule of composition**: the runs of two routines, one after the other. -/
theorem all_bind {φ : Calls ε ρ → Option (β × σ) → Prop} :
    P.All (p >>= f) φ s ↔ P.All p (fun tr o => o.elim (φ tr none) fun r =>
      P.All (f r.1) (fun tr' o' => φ (tr ++ tr') o') r.2) s := by
  induction p generalizing s φ with
  | ret a => rfl
  | call e k ih =>
    simp only [Script.call_bind, All]
    refine forall_congr' fun r => imp_congr_right fun _ => ?_
    cases P.step s e r with
    | none => rfl
    | some s' => exact ih r

end Protocol

end Machinery
