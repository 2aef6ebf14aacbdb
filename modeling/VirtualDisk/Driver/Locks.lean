import VirtualDisk.Driver.Links

/-!
# Driver/Locks — the PDO lock, and what is known inside its sections

A start routine holds the PDO lock from its test of `CurrentIrp` to the start of the packet, across
operations on both queues.  So a disk's `CurrentIrp` is NULL when a packet is started on it.
-/

namespace VirtualDisk

open Machinery

variable {t : Tid} {a : Action} {b b' : Bus} {pc pc' : Pc} {p q : PdoId}

namespace Pc

/-- The PDO whose lock a thread holds. -/
def locked : Pc → Option PdoId
  | .startRequest p _ | .startInsert p _ | .startSetup p _ _ => some p
  | .nextRequest p _ | .nextIrp p _ _ | .nextSetup p _ _ _ | .nextPutBack p _ _ => some p
  | _ => none

/-- The PDO whose `CurrentIrp` a thread found to be NULL, under a lock it still holds. -/
def tested : Pc → Option PdoId
  | .startInsert _ _ => none
  | pc => pc.locked

theorem locked_of_tested (h : pc.tested = some p) : pc.locked = some p := by
  cases pc <;> first | exact h | cases h

@[simp] theorem locked_nextReturn (k : NextCaller) : (nextReturn k).locked = none := by
  cases k <;> rfl

@[simp] theorem tested_nextReturn (k : NextCaller) : (nextReturn k).tested = none := by
  cases k <;> rfl

@[simp] theorem locked_destroyReturn (k : DestroyCaller) : (destroyReturn k).locked = none := by
  cases k <;> rfl

@[simp] theorem tested_destroyReturn (k : DestroyCaller) : (destroyReturn k).tested = none := by
  cases k <;> rfl

theorem mem_mentions_of_locked (h : pc.locked = some p) : p ∈ pc.mentions := by
  cases pc <;> cases h <;> exact List.mem_cons_self

end Pc

namespace Moves

/-- **The PDO lock** is taken when it is free, and given up by the thread that has it. -/
theorem pdoLock (m : Moves t b a pc b' pc') (hp : p < b.pdoCount) :
    (b'.pdos p).pdoLock = (b.pdos p).pdoLock ∨
    ((b.pdos p).pdoLock = none ∧ (b'.pdos p).pdoLock = some t) ∨ pc.locked = some p := by
  have hne : p ≠ b.pdoCount := Nat.ne_of_lt hp
  cases m
  all_goals first
    | exact .inl rfl
    | exact .inl (frame_update PdoDeviceData.pdoLock rfl)
    | skip
  all_goals simp [Function.update_apply, hne]
  all_goals split <;> simp_all [Pc.locked]

/-- A thread inside a section took the lock, or kept it. -/
theorem locked (m : Moves t b a pc b' pc') (hp : pc'.locked = some p) :
    (b'.pdos p).pdoLock = some t ∨
    (pc.locked = some p ∧ (b'.pdos p).pdoLock = (b.pdos p).pdoLock) := by
  cases m
  all_goals try rw [Pc.locked_nextReturn] at hp
  all_goals try rw [Pc.locked_destroyReturn] at hp
  all_goals cases hp
  all_goals simp [Pc.locked]

/-- **`CurrentIrp`** is set by a start routine that found it NULL; every other change clears it. -/
theorem currentIrp (m : Moves t b a pc b' pc') (hp : p < b.pdoCount) :
    (b'.pdos p).currentIrp = (b.pdos p).currentIrp ∨ (b'.pdos p).currentIrp = none ∨
    pc.tested = some p := by
  have hne : p ≠ b.pdoCount := Nat.ne_of_lt hp
  cases m
  all_goals first
    | exact .inl rfl
    | exact .inl (frame_update PdoDeviceData.currentIrp rfl)
    | skip
  all_goals simp [Function.update_apply, hne]
  all_goals split <;> simp_all [Pc.tested, Pc.locked]

/-- A thread that found `CurrentIrp` NULL left it so. -/
theorem tested (m : Moves t b a pc b' pc') (hp : pc'.tested = some p) :
    (b'.pdos p).currentIrp = none ∨
    (pc.tested = some p ∧ (b'.pdos p).currentIrp = (b.pdos p).currentIrp) := by
  cases m
  all_goals try rw [Pc.tested_nextReturn] at hp
  all_goals try rw [Pc.tested_destroyReturn] at hp
  all_goals cases hp
  all_goals simp_all [Pc.tested, Pc.locked]

end Moves

/-- What a thread inside a section of the PDO lock can rely on. -/
structure Driver.Locked (s : Driver) : Prop where
  held : ∀ t p, (s.calls t).locked = some p → (s.bus.pdos p).pdoLock = some t
  tested : ∀ t p, (s.calls t).tested = some p → (s.bus.pdos p).currentIrp = none

namespace Driver

variable {s s' : Driver}

/-- **The sections of one PDO exclude each other.** -/
theorem Locked.unique (h : s.Locked) {t₂ : Tid} (ht : (s.calls t).locked = some p)
    (ht₂ : (s.calls t₂).locked = some p) : t = t₂ :=
  Option.some.inj ((h.held t p ht).symm.trans (h.held t₂ p ht₂))

/-- **A move of a thread keeps the other threads' sections.** -/
theorem Locked.move (h : s.Locked) (hl : s.Linked) (m : Moves t s.bus a (s.calls t) b' pc') :
    (s.put t (b', pc')).Locked where
  held := by
    refine forall_update (L := fun t (pc : Pc) => ∀ p, pc.locked = some p →
      (b'.pdos p).pdoLock = some t) ?_ ?_
    · intro p hp
      rcases m.locked hp with hlock | ⟨hpc, hlock⟩
      · exact hlock
      · exact hlock.trans (h.held t p hpc)
    · intro t₂ hne p hp
      have hheld := h.held t₂ p hp
      have hlt := (hl.mentions t₂ p (Pc.mem_mentions_of_locked hp)).1
      rcases m.pdoLock hlt with hlock | ⟨hfree, -⟩ | hpc
      · exact hlock.trans hheld
      · rw [hheld] at hfree
        cases hfree
      · exact absurd (h.unique hp hpc) hne
  tested := by
    refine forall_update (L := fun _ (pc : Pc) => ∀ p, pc.tested = some p →
      (b'.pdos p).currentIrp = none) ?_ ?_
    · intro p hp
      rcases m.tested hp with hcur | ⟨hpc, hcur⟩
      · exact hcur
      · exact hcur.trans (h.tested t p hpc)
    · intro t₂ hne p hp
      have hlocked := Pc.locked_of_tested hp
      have hlt := (hl.mentions t₂ p (Pc.mem_mentions_of_locked hlocked)).1
      rcases m.currentIrp hlt with hcur | hcur | hpc
      · exact hcur.trans (h.tested t₂ p hp)
      · exact hcur
      · exact absurd (h.unique hlocked (Pc.locked_of_tested hpc)) hne

/-- The sections are kept by every step. -/
theorem Locked.step (h : s.Locked) (hl : s.Linked) (hs : s.step a = some s') : s'.Locked := by
  rcases step_moves hs with ⟨t, b', pc', m, rfl⟩ | ⟨m, f, -, rfl⟩ | ⟨e, -, -, rfl⟩
  · exact h.move hl m
  · exact ⟨h.1, h.2⟩
  · exact ⟨h.1, h.2⟩

/-- No thread is inside the driver. -/
theorem Locked.init : lts.init.Locked := by
  constructor
  · intro t p hp
    cases hp
  · intro t p hp
    cases hp

variable {C : Driver → Action → Prop}

/-- **In every state reached, `CurrentIrp` is NULL where a packet is about to be started.** -/
theorem locked (h : lts.Reach C s) : s.Locked :=
  h.invariant Locked.init fun _ _ _ hr hi _ hs => hi.step (linked hr) hs

end Driver

end VirtualDisk
