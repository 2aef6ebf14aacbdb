import Mathlib.Data.List.Nodup

/-!
# Machinery/Trace — a trace and what each of its events follows

A trace has its latest event first.  It is *justified* when every event of it stands in a given
relation to the events before it: a reply to the request it answers, a completion to what it
completes.
-/

namespace Machinery

variable {ε ι : Type*} {R : ε → List ε → Prop} {e : ε} {newer older es : List ε}

/-- **Every event of the trace is justified by those before it.** -/
inductive Justified (R : ε → List ε → Prop) : List ε → Prop
  | nil : Justified R []
  | cons {e : ε} {es : List ε} (h : R e es) (hs : Justified R es) : Justified R (e :: es)

namespace Justified

/-- What came before any event is justified, too. -/
theorem suffix (h : Justified R (newer ++ es)) : Justified R es := by
  induction newer with
  | nil => exact h
  | cons e' newer ih =>
    cases h with
    | cons _ hs => exact ih hs

/-- An event of a justified trace stands in the relation to the events before it. -/
theorem of_append (h : Justified R (newer ++ e :: older)) : R e older := by
  cases h.suffix with
  | cons hr _ => exact hr

/-- **An event of a justified trace stands in the relation to events of the trace.** -/
theorem of_mem (h : Justified R es) (he : e ∈ es) : ∃ older, older ⊆ es ∧ R e older := by
  obtain ⟨newer, older, rfl⟩ := List.append_of_mem he
  exact ⟨older, fun x hx => List.mem_append_right _ (List.mem_cons_of_mem _ hx), h.of_append⟩

/-- **What the relation allows once happens once.** -/
theorem nodup {f : ε → Option ι} (hf : ∀ e es i, R e es → f e = some i → i ∉ es.filterMap f)
    (h : Justified R es) : (es.filterMap f).Nodup := by
  induction h with
  | nil => exact List.nodup_nil
  | @cons e es hr _ ih =>
    cases he : f e with
    | none => rwa [List.filterMap_cons_none he]
    | some i =>
      rw [List.filterMap_cons_some he]
      exact List.nodup_cons.mpr ⟨hf e es i hr he, ih⟩

end Justified

/-- **Two events that happen once happen in one order.** -/
theorem not_sublist_swap {x y : ε} (hn : es.Nodup) (hxy : [x, y].Sublist es) :
    ¬ [y, x].Sublist es := by
  induction es with
  | nil => cases hxy
  | cons e es ih =>
    obtain ⟨he, hn⟩ := List.nodup_cons.mp hn
    intro hyx
    cases hxy with
    | cons _ hxy =>
      cases hyx with
      | cons _ hyx => exact ih hn hxy hyx
      | cons_cons _ _ => exact he (hxy.subset (List.mem_cons_of_mem _ List.mem_cons_self))
    | cons_cons _ hy =>
      cases hyx with
      | cons _ hyx => exact he (hyx.subset (List.mem_cons_of_mem _ List.mem_cons_self))
      | cons_cons _ _ => exact he (hy.subset List.mem_cons_self)

end Machinery
