import Mathlib.Data.List.Nodup
import Mathlib.Data.List.Perm.Subperm
import Mathlib.Logic.Function.Iterate

/-!
# Machinery/Path — following links

A cyclic list is a successor function `f` on entries, one of which, `z`, is its head.
`Path f z x l` says that from `x` the links lead through `l`, and then to the head: a traversal
standing at `x` still has `l` to visit.  A path is determined by its start, so nothing on it comes
twice.

The lemmas on two successor functions are about what happens to a traversal under way when the list
changes: entries are put in or taken out elsewhere, and an entry that links to itself is never left.
-/

namespace Machinery

variable {ν : Type*} {f g : ν → ν} {x y z p : ν} {l l' : List ν}

/-- **From `x` the links lead through `l` to the head.** -/
inductive Path (f : ν → ν) (z : ν) : ν → List ν → Prop
  | stop {x : ν} (h : f x = z) : Path f z x []
  | next {x : ν} {l : List ν} (h : f x ≠ z) (hp : Path f z (f x) l) : Path f z x (f x :: l)

namespace Path

/-- A link put before a path. -/
theorem cons (h : f x = y) (hy : y ≠ z) (hp : Path f z y l) : Path f z x (y :: l) := by
  subst h
  exact .next hy hp

/-- Two entries with one successor have one path. -/
theorem congr (h : Path f z x l) (hxy : f x = f y) : Path f z y l := by
  cases h with
  | stop h => exact .stop (hxy ▸ h)
  | next hne hp => exact hxy ▸ .next (hxy ▸ hne) (hxy ▸ hp)

/-- **A path is determined by its start.** -/
theorem unique (h : Path f z x l) (h' : Path f z x l') : l = l' := by
  induction h generalizing l' with
  | stop h =>
    cases h' with
    | stop => rfl
    | next hne => exact absurd h hne
  | next hne _ ih =>
    cases h' with
    | stop h => exact absurd h hne
    | next _ hp => rw [ih hp]

theorem uncons (h : Path f z x (y :: l)) : f x = y ∧ Path f z y l := by
  cases h with
  | next _ hp => exact ⟨rfl, hp⟩

/-- Successor functions with one path agree along it. -/
theorem eqOn (h : Path f z x l) (h' : Path g z x l) (hy : y ∈ x :: l) : f y = g y := by
  induction h with
  | @stop x hf =>
    obtain rfl := List.mem_singleton.mp hy
    cases h' with
    | stop hg => exact hf.trans hg.symm
  | next _ _ ih =>
    obtain ⟨hx, hp'⟩ := h'.uncons
    rcases List.mem_cons.mp hy with rfl | hy
    · exact hx.symm
    · exact ih hp' hy

/-- The head is not on a path. -/
theorem ne_of_mem (h : Path f z x l) (hy : y ∈ l) : y ≠ z := by
  induction h with
  | stop => cases hy
  | next hne _ ih =>
    rcases List.mem_cons.mp hy with rfl | hy
    · exact hne
    · exact ih hy

/-- What is left of a path at an entry on it. -/
theorem of_mem (h : Path f z x l) (hy : y ∈ l) : ∃ l', Path f z y l' ∧ l'.length < l.length := by
  induction h with
  | stop => cases hy
  | @next x l _ hp ih =>
    rcases List.mem_cons.mp hy with rfl | hy
    · exact ⟨l, hp, Nat.lt_succ_self _⟩
    · obtain ⟨l', hp', hlt⟩ := ih hy
      exact ⟨l', hp', Nat.lt_succ_of_lt hlt⟩

/-- **Nothing comes twice on a path.** -/
theorem nodup (h : Path f z x l) : (x :: l).Nodup := by
  have hself : ∀ {x l}, Path f z x l → x ∉ l := by
    intro x l h hx
    obtain ⟨l', hp, hlt⟩ := h.of_mem hx
    exact Nat.lt_irrefl _ (h.unique hp ▸ hlt)
  induction h with
  | stop => exact List.nodup_singleton _
  | next hne hp ih => exact List.nodup_cons.mpr ⟨hself (.next hne hp), ih⟩

/-- What the links lead to from the start is on the path, unless the head comes first. -/
theorem mem_of_iterate (h : Path f z x l) {n : ℕ} (hn : ∀ m ≤ n, f^[m] x ≠ z) :
    f^[n] x ∈ x :: l := by
  induction n generalizing x l with
  | zero => exact List.mem_cons_self
  | succ n ih =>
    cases h with
    | stop h => exact absurd h (hn 1 (Nat.le_add_left _ _))
    | next hne hp =>
      exact List.mem_cons_of_mem _ (ih hp fun m hm => hn (m + 1) (Nat.succ_le_succ hm))

/-- …and the links lead to everything on it. -/
theorem iterate_of_mem (h : Path f z x l) (hy : y ∈ x :: l) (hx : x ≠ z) :
    ∃ n, f^[n] x = y ∧ ∀ m ≤ n, f^[m] x ≠ z := by
  induction h with
  | @stop x _ =>
    obtain rfl := List.mem_singleton.mp hy
    exact ⟨0, rfl, fun m hm => Nat.le_zero.mp hm ▸ hx⟩
  | @next x l hne _ ih =>
    rcases List.mem_cons.mp hy with rfl | hy
    · exact ⟨0, rfl, fun m hm => Nat.le_zero.mp hm ▸ hx⟩
    · obtain ⟨n, hn, hm⟩ := ih hy hne
      refine ⟨n + 1, hn, fun m hle => ?_⟩
      cases m with
      | zero => exact hx
      | succ m => exact hm m (Nat.le_of_succ_le_succ hle)

/-! ## A list that changes -/

/-- A path whose own links stay as they are is still a path. -/
theorem of_eqOn (h : Path f z x l) (hg : ∀ y ∈ x :: l, g y = f y) : Path g z x l := by
  induction h with
  | stop h => exact .stop ((hg _ List.mem_cons_self).trans h)
  | @next x l hne _ ih =>
    exact cons (hg x List.mem_cons_self) hne (ih fun y hy => hg y (List.mem_cons_of_mem _ hy))

/-- **An entry is taken out**: links to it come to lead to its successor, and its own stays. -/
theorem skip (h : Path f z x l) (hz : p ≠ z) (hp : g p = f p)
    (hg : ∀ y, g y = f y ∨ (f y = p ∧ g y = f p)) : ∃ l', l'.Sublist l ∧ Path g z x l' := by
  induction h with
  | @stop x h =>
    rcases hg x with hx | ⟨hx, -⟩
    · exact ⟨[], List.Sublist.refl _, .stop (hx.trans h)⟩
    · exact absurd (hx.symm.trans h) hz
  | @next x l hne _ ih =>
    obtain ⟨l', hsub, hp'⟩ := ih
    rcases hg x with hx | ⟨hx, hx'⟩
    · exact ⟨f x :: l', hsub.cons_cons _, cons hx hne hp'⟩
    · exact ⟨l', hsub.cons _, (hx ▸ hp').congr (hp.trans hx'.symm)⟩

/-- **An entry is put in at the end**: links to the head come to lead to it. -/
theorem append (h : Path f z x l) (hz : p ≠ z) (hp : g p = z)
    (hg : ∀ y, g y = f y ∨ (f y = z ∧ g y = p)) : ∃ l', (∀ y ∈ l', y ∈ l ∨ y = p) ∧
      Path g z x l' := by
  induction h with
  | @stop x h =>
    rcases hg x with hx | ⟨-, hx⟩
    · exact ⟨[], fun _ hy => .inl hy, .stop (hx.trans h)⟩
    · exact ⟨[p], fun y hy => .inr (List.mem_singleton.mp hy), cons hx hz (.stop hp)⟩
  | @next x l hne _ ih =>
    obtain ⟨l', hmem, hp'⟩ := ih
    rcases hg x with hx | ⟨hx, -⟩
    · refine ⟨f x :: l', ?_, cons hx hne hp'⟩
      rintro y (_ | ⟨_, hy⟩)
      · exact .inl List.mem_cons_self
      · exact (hmem y hy).imp (List.mem_cons_of_mem _) id
    · exact absurd hx hne

/-- No path leads on from an entry that links to itself. -/
theorem ne_self (h : Path f z x l) (hx : x ≠ z) : f x ≠ x := by
  intro hself
  cases h with
  | stop h => exact hx (hself.symm.trans h)
  | next _ hp =>
    have hd := (Path.next (hself.symm ▸ hx) hp).nodup
    rw [hself] at hd
    exact (List.nodup_cons.mp hd).1 List.mem_cons_self

/-- **A traversal that has an entry before it that comes to link to itself never ends.** -/
theorem not_of_self (h : Path f z x l) (hx : x ≠ z) (hg : ∀ y ∈ x :: l, g y = f y ∨ g y = y)
    (hy : y ∈ x :: l) (hself : g y = y) : ¬ Path g z x l' := by
  induction h generalizing l' with
  | stop =>
    intro h'
    obtain rfl := List.mem_singleton.mp hy
    exact h'.ne_self hx hself
  | @next x l hne _ ih =>
    intro h'
    rcases List.mem_cons.mp hy with rfl | hyl
    · exact h'.ne_self hx hself
    · have hgx : g x = f x := (hg x List.mem_cons_self).resolve_right (h'.ne_self hx)
      cases h' with
      | stop h => exact hne (hgx.symm.trans h)
      | next _ hp =>
        exact ih hne (fun y hy => hg y (List.mem_cons_of_mem _ hy)) hyl (hgx ▸ hp)

/-- …and it is longer by that entry at most. -/
theorem exists_append_length_le (h : Path f z x l) (hz : p ≠ z) (hp : g p = z)
    (hg : ∀ y, g y = f y ∨ (f y = z ∧ g y = p)) :
    ∃ l', Path g z x l' ∧ l'.length ≤ l.length + 1 := by
  obtain ⟨l', hmem, hp'⟩ := h.append hz hp hg
  have hsub : l' ⊆ p :: l := fun y hy =>
    (hmem y hy).elim (List.mem_cons_of_mem _) fun h => h ▸ List.mem_cons_self
  exact ⟨l', hp', (List.subperm_of_subset (List.nodup_cons.mp hp'.nodup).2 hsub).length_le⟩

end Path

/-! ## Walking along the links -/

section Walk

variable [DecidableEq ν]

/-- The entries the links lead through from `x`, as far as the head, `n` of them at most. -/
def walk (f : ν → ν) (z : ν) : ℕ → ν → List ν
  | 0, _ => []
  | n + 1, x => if f x = z then [] else f x :: walk f z n (f x)

/-- **A walk goes the whole path** when it is given as many steps. -/
theorem Path.walk_eq (h : Path f z x l) {n : ℕ} (hn : l.length ≤ n) : walk f z n x = l := by
  induction h generalizing n with
  | stop hz =>
    cases n with
    | zero => rfl
    | succ n => exact if_pos hz
  | @next x l hne _ ih =>
    obtain ⟨n, rfl⟩ := Nat.exists_eq_succ_of_ne_zero (Nat.ne_zero_of_lt hn)
    rw [walk, if_neg hne, ih (Nat.le_of_succ_le_succ hn)]

end Walk

/-! ## What is left of the way -/

open Classical in
/-- How many entries are still to be visited, where the links lead to the head at all. -/
noncomputable def rest (f : ν → ν) (z x : ν) : ℕ :=
  if h : ∃ l, Path f z x l then h.choose.length else 0

theorem Path.rest_eq (h : Path f z x l) : rest f z x = l.length := by
  have hex : ∃ l, Path f z x l := ⟨l, h⟩
  rw [rest, dif_pos hex, hex.choose_spec.unique h]

/-- A traversal that goes on has one entry less before it. -/
theorem Path.rest_next (h : Path f z x l) (hne : f x ≠ z) : rest f z x = rest f z (f x) + 1 := by
  cases h with
  | stop h => exact absurd h hne
  | next _ hp => rw [hp.rest_eq, (hp.next hne).rest_eq, List.length_cons]

end Machinery
