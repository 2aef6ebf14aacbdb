import Mathlib.Data.List.Nodup
import Mathlib.Logic.Function.Basic
import VirtualDisk.Machinery.Path

/-!
# Machinery/Ring — doubly linked lists that close on their head

Every entry has a link forward and a link backward, and so has the head.  `Ring k z l` says that the
links lead from the head `z` through `l` and back, in either direction.  An entry is put in before
the head by writing four links and taken out by writing two, and the ring goes through the list it
should.
-/

namespace Machinery

variable {ν : Type*}

/-! ## Paths of the changed links -/

namespace Path

variable {f g : ν → ν} {x y z p : ν} {l l₁ l₂ : List ν}

/-- What a path leads through from an entry on it. -/
theorem tail (h : Path f z x (l₁ ++ y :: l₂)) : Path f z y l₂ := by
  induction l₁ generalizing x with
  | nil => exact h.uncons.2
  | cons a l₁ ih => exact ih h.uncons.2

/-- Each entry on a path is the successor of one before it. -/
theorem exists_pred (h : Path f z x l) (hy : y ∈ l) : ∃ a ∈ x :: l, f a = y := by
  induction h with
  | stop => cases hy
  | @next x l _ _ ih =>
    rcases List.mem_cons.mp hy with rfl | hy
    · exact ⟨x, List.mem_cons_self, rfl⟩
    · obtain ⟨a, ha, hfa⟩ := ih hy
      exact ⟨a, List.mem_cons_of_mem _ ha, hfa⟩

/-- …and the last one leads to the head. -/
theorem exists_last (h : Path f z x l) : ∃ a ∈ x :: l, f a = z := by
  induction h with
  | @stop x hz => exact ⟨x, List.mem_cons_self, hz⟩
  | next _ _ ih =>
    obtain ⟨a, ha, hfa⟩ := ih
    exact ⟨a, List.mem_cons_of_mem _ ha, hfa⟩

/-- Every link of a path leads to the next entry or to the head. -/
theorem apply_mem (h : Path f z x l) (hy : y ∈ x :: l) : f y = z ∨ f y ∈ l := by
  induction h with
  | stop hz =>
    obtain rfl := List.mem_singleton.mp hy
    exact .inl hz
  | next _ _ ih =>
    rcases List.mem_cons.mp hy with rfl | hy
    · exact .inr List.mem_cons_self
    · exact (ih hy).imp id (List.mem_cons_of_mem _)

variable [DecidableEq ν]

/-- **The links that lead to `p` come to lead past it.** -/
theorem erase (h : Path f z x l) (hz : p ≠ z) (hp : g p = f p)
    (hg : ∀ y ∈ x :: l, g y = if f y = p then f p else f y) : Path g z x (l.erase p) := by
  induction h with
  | @stop x hx =>
    refine .stop ?_
    rw [hg x List.mem_cons_self, hx, if_neg (Ne.symm hz)]
  | @next x l hne hp' ih =>
    have htail := ih fun y hy => hg y (List.mem_cons_of_mem _ hy)
    have hx := hg x List.mem_cons_self
    by_cases hxp : f x = p
    · rw [if_pos hxp] at hx
      rw [hxp, List.erase_cons_head]
      have hnot : p ∉ l := hxp ▸ (List.nodup_cons.mp hp'.nodup).1
      rw [List.erase_of_not_mem hnot, hxp] at htail
      exact htail.congr (hp.trans hx.symm)
    · rw [if_neg hxp] at hx
      rw [List.erase_cons_tail (by simpa using hxp)]
      exact cons hx hne htail

/-- **The link that leads to the head comes to lead to `p`**, and that of `p` to the head. -/
theorem concat (h : Path f z x l) (hz : p ≠ z) (hp : g p = z)
    (hg : ∀ y ∈ x :: l, g y = if f y = z then p else f y) : Path g z x (l ++ [p]) := by
  induction h with
  | @stop x hx =>
    refine cons ?_ hz (.stop hp)
    rw [hg x List.mem_cons_self, if_pos hx]
  | @next x l hne _ ih =>
    refine cons ?_ hne (ih fun y hy => hg y (List.mem_cons_of_mem _ hy))
    rw [hg x List.mem_cons_self, if_neg hne]

end Path

/-! ## Rings -/

/-- The links of all entries. -/
structure ListLinks (ν : Type*) where
  flink : ν → ν
  blink : ν → ν

namespace ListLinks

variable {k : ListLinks ν} {x y z : ν} {l l₁ l₂ : List ν}

/-- **The links lead from the head through `l` and back.** -/
structure Ring (k : ListLinks ν) (z : ν) (l : List ν) : Prop where
  forward : Path k.flink z z l
  backward : ∀ x ∈ z :: l, k.blink (k.flink x) = x

/-- A head that is linked to itself. -/
theorem ring_nil (hf : k.flink z = z) (hb : k.blink z = z) : Ring k z [] where
  forward := .stop hf
  backward x hx := by
    obtain rfl := List.mem_singleton.mp hx
    rw [hf, hb]

namespace Ring

variable (h : Ring k z l)
include h

theorem nodup : (z :: l).Nodup := h.forward.nodup

/-- The link backward from an entry. -/
theorem blink_eq_iff (hx : x ∈ z :: l) (hy : y ∈ l) : x = k.blink y ↔ k.flink x = y := by
  obtain ⟨a, ha, rfl⟩ := h.forward.exists_pred hy
  rw [h.backward a ha]
  exact ⟨fun hxa => hxa ▸ rfl, fun hf => by rw [← h.backward x hx, hf, h.backward a ha]⟩

/-- The link backward from the head. -/
theorem blink_head_eq_iff (hx : x ∈ z :: l) : x = k.blink z ↔ k.flink x = z := by
  obtain ⟨a, ha, hfa⟩ := h.forward.exists_last
  have hb : k.blink z = a := by rw [← hfa, h.backward a ha]
  rw [hb]
  exact ⟨fun hxa => hxa ▸ hfa, fun hf => by rw [← h.backward x hx, hf, hb]⟩

theorem blink_head_mem : k.blink z ∈ z :: l := by
  obtain ⟨a, ha, hfa⟩ := h.forward.exists_last
  have hb : k.blink z = a := by rw [← hfa, h.backward a ha]
  exact hb ▸ ha

/-- The link backward from an entry leads to the one before it. -/
theorem blink_mem (hy : y ∈ l) : k.blink y ∈ z :: l := by
  obtain ⟨a, ha, rfl⟩ := h.forward.exists_pred hy
  exact (h.backward a ha).symm ▸ ha

/-- …and not to the entry itself. -/
theorem blink_ne (hy : y ∈ l) : y ≠ k.blink y := by
  intro heq
  have hself := (h.blink_eq_iff (List.mem_cons_of_mem _ hy) hy).mp heq
  obtain ⟨l₁, l₂, rfl⟩ := List.append_of_mem hy
  have hyz : y ≠ z := h.forward.ne_of_mem hy
  exact h.forward.tail.ne_self hyz hself

end Ring

/-- An entry is linked to itself, forward and backward. -/
def Lone (k : ListLinks ν) (y : ν) : Prop := k.flink y = y ∧ k.blink y = y

instance [DecidableEq ν] (k : ListLinks ν) (y : ν) : Decidable (k.Lone y) :=
  inferInstanceAs (Decidable (_ ∧ _))

variable [DecidableEq ν]

/-- An entry is put in before the head. -/
def insertTail (k : ListLinks ν) (z y : ν) : ListLinks ν where
  flink := Function.update (Function.update k.flink y z) (k.blink z) y
  blink := Function.update (Function.update k.blink y (k.blink z)) z y

/-- An entry is taken out. -/
def removeEntry (k : ListLinks ν) (y : ν) : ListLinks ν where
  flink := Function.update k.flink (k.blink y) (k.flink y)
  blink := Function.update k.blink (k.flink y) (k.blink y)

/-- An entry is linked to itself, as a head is at first. -/
def selfLink (k : ListLinks ν) (y : ν) : ListLinks ν where
  flink := Function.update k.flink y y
  blink := Function.update k.blink y y

/-! ## What the operations leave alone -/

/-- An entry put in writes the link forward of the last entry and its own. -/
theorem Ring.insertTail_flink (h : Ring k z l) (hx : x ∉ z :: l) (hxy : x ≠ y) :
    (k.insertTail z y).flink x = k.flink x := by
  have hlast : x ≠ k.blink z := fun heq => hx (heq ▸ h.blink_head_mem)
  simp only [ListLinks.insertTail, Function.update_of_ne hlast, Function.update_of_ne hxy]

/-- An entry taken out writes the link forward of the one before it. -/
theorem Ring.removeEntry_flink (h : Ring k z l) (hy : y ∈ l) (hx : x ∉ z :: l) :
    (k.removeEntry y).flink x = k.flink x := by
  have hpred : x ≠ k.blink y := fun heq => hx (heq ▸ h.blink_mem hy)
  simp only [ListLinks.removeEntry, Function.update_of_ne hpred]

/-- …and keeps its own. -/
theorem Ring.removeEntry_flink_self (h : Ring k z l) (hy : y ∈ l) :
    (k.removeEntry y).flink y = k.flink y := by
  simp only [ListLinks.removeEntry, Function.update_of_ne (h.blink_ne hy)]

/-- **Taking out an entry that is linked to itself changes nothing.** -/
theorem removeEntry_of_lone (h : k.Lone y) : k.removeEntry y = k := by
  obtain ⟨hf, hb⟩ := h
  have hflink : Function.update k.flink (k.blink y) (k.flink y) = k.flink := by
    rw [hb]
    exact Function.update_eq_self y _
  have hblink : Function.update k.blink (k.flink y) (k.blink y) = k.blink := by
    rw [hf]
    exact Function.update_eq_self y _
  rw [ListLinks.removeEntry, hflink, hblink]

/-! ## The operations on a ring -/

/-- Links of an entry that is not on the ring. -/
theorem Ring.selfLink (h : Ring k z l) (hy : y ∉ z :: l) : Ring (k.selfLink y) z l := by
  have hflink : ∀ x ∈ z :: l, (k.selfLink y).flink x = k.flink x := fun x hx => by
    have hxy : x ≠ y := fun heq => hy (heq ▸ hx)
    simp only [ListLinks.selfLink, Function.update_of_ne hxy]
  refine ⟨h.forward.of_eqOn hflink, fun x hx => ?_⟩
  have hne : k.flink x ≠ y := by
    intro heq
    rcases h.forward.apply_mem hx with hz | hl
    · exact hy (heq ▸ hz ▸ List.mem_cons_self)
    · exact hy (heq ▸ List.mem_cons_of_mem _ hl)
  rw [hflink x hx]
  simp only [ListLinks.selfLink, Function.update_of_ne hne]
  exact h.backward x hx

/-- **An entry put in comes last.** -/
theorem Ring.insertTail (h : Ring k z l) (hy : y ∉ z :: l) :
    Ring (k.insertTail z y) z (l ++ [y]) := by
  have hyz : y ≠ z := List.ne_of_not_mem_cons hy
  have hylast : y ≠ k.blink z := fun heq => hy (heq ▸ h.blink_head_mem)
  have hflink : ∀ x ∈ z :: l, (k.insertTail z y).flink x =
      if k.flink x = z then y else k.flink x := by
    intro x hx
    have hxy : x ≠ y := fun heq => hy (heq ▸ hx)
    simp only [ListLinks.insertTail, Function.update_apply, h.blink_head_eq_iff hx, if_neg hxy]
  have hself : (k.insertTail z y).flink y = z := by
    simp only [ListLinks.insertTail, Function.update_apply, if_neg hylast, if_true]
  refine ⟨h.forward.concat hyz hself hflink, fun x hmem => ?_⟩
  have hcases : x ∈ z :: l ∨ x = y := by simpa [or_assoc] using hmem
  rcases hcases with hx | rfl
  · rw [hflink x hx]
    by_cases hxz : k.flink x = z
    · rw [if_pos hxz, (h.blink_head_eq_iff hx).mpr hxz]
      simp only [ListLinks.insertTail, Function.update_of_ne hyz, Function.update_self]
    · have hne : k.flink x ≠ y := by
        rintro rfl
        exact hy (List.mem_cons_of_mem _ ((h.forward.apply_mem hx).resolve_left hxz))
      rw [if_neg hxz]
      simp only [ListLinks.insertTail, Function.update_of_ne hxz, Function.update_of_ne hne]
      exact h.backward x hx
  · rw [hself]
    exact Function.update_self ..

/-- **An entry taken out leaves the others as they are.** -/
theorem Ring.removeEntry (h : Ring k z l) (hy : y ∈ l) : Ring (k.removeEntry y) z (l.erase y) := by
  obtain ⟨hz, hn⟩ := List.nodup_cons.mp h.nodup
  have hyz : y ≠ z := fun heq => hz (heq ▸ hy)
  have hflink : ∀ x ∈ z :: l, (k.removeEntry y).flink x =
      if k.flink x = y then k.flink y else k.flink x := by
    intro x hx
    simp only [ListLinks.removeEntry, Function.update_apply, h.blink_eq_iff hx hy]
  have hself : (k.removeEntry y).flink y = k.flink y := by
    rw [hflink y (List.mem_cons_of_mem _ hy)]
    exact ite_self _
  refine ⟨h.forward.erase hyz hself hflink, fun x hx => ?_⟩
  have hxy : x ≠ y := by
    rcases List.mem_cons.mp hx with rfl | hx
    · exact Ne.symm hyz
    · exact fun heq => hn.not_mem_erase (heq ▸ hx)
  have hxl : x ∈ z :: l := by
    rcases List.mem_cons.mp hx with rfl | hx
    · exact List.mem_cons_self
    · exact List.mem_cons_of_mem _ (List.mem_of_mem_erase hx)
  rw [hflink x hxl]
  by_cases hf : k.flink x = y
  · rw [if_pos hf, (h.blink_eq_iff hxl hy).mpr hf]
    exact Function.update_self ..
  · have hne : k.flink x ≠ k.flink y := fun heq => hxy (by
      rw [← h.backward x hxl, heq, h.backward y (List.mem_cons_of_mem _ hy)])
    rw [if_neg hf]
    simp only [ListLinks.removeEntry, Function.update_of_ne hne]
    exact h.backward x hxl

end ListLinks

end Machinery
