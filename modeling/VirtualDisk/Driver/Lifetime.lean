import VirtualDisk.Driver.Conservation

/-!
# Driver/Lifetime — a reply and the disk it found

`Bus_ProcessReply` looks its disk up under the FDO's mutex and goes on to use it without; the
removal of a PDO does not wait for it.  What protects a reply is only that the disk it found was on
the list, so a destruction that reaches `Bus_DestroyPdo`'s unmapping while no reply uses the disk
meets none later, as long as no PDO comes back to the list.
-/

namespace VirtualDisk

open Machinery

variable {t : Tid} {a : Action} {b b' : Bus} {pc pc' : Pc} {p q : PdoId}

namespace Pc

/-- The PDO on which the next step of a `Bus_ProcessReply` works. -/
def replyUses : Pc → Option PdoId
  | .replyTake p _ | .replyComplete p _ | .replyRelease p => some p
  | .nextPacket p .reply | .nextRequest p .reply | .nextIrp p _ .reply => some p
  | .nextSetup p _ _ .reply | .nextPutBack p _ .reply => some p
  | _ => none

/-- The PDO that a thread has unmapped and not yet deleted. -/
def unmapped : Pc → Option PdoId
  | .destroySignal p _ | .destroyDelete p _ => some p
  | _ => none

@[simp] theorem replyUses_nextReturn (k : NextCaller) : (nextReturn k).replyUses = none := by
  cases k <;> rfl

@[simp] theorem replyUses_destroyReturn (k : DestroyCaller) :
    (destroyReturn k).replyUses = none := by
  cases k <;> rfl

@[simp] theorem unmapped_nextReturn (k : NextCaller) : (nextReturn k).unmapped = none := by
  cases k <;> rfl

@[simp] theorem unmapped_destroyReturn (k : DestroyCaller) :
    (destroyReturn k).unmapped = none := by
  cases k <;> rfl

theorem mem_mentions_of_replyUses (h : pc.replyUses = some p) : p ∈ pc.mentions := by
  unfold replyUses at h
  split at h <;> cases h <;> exact List.mem_cons_self

theorem destroying_of_unmapped (h : pc.unmapped = some p) : pc.destroying = some p := by
  cases pc <;> first | exact h | cases h

theorem mem_mentions_of_unmapped (h : pc.unmapped = some p) : p ∈ pc.mentions :=
  mem_mentions_of_destroying (destroying_of_unmapped h)

end Pc

namespace Moves

/-- A buffer is unmapped by `Bus_DestroyPdo`. -/
theorem mapped (m : Moves t b a pc b' pc') (hp : p < b.pdoCount) :
    (b'.pdos p).mapped = (b.pdos p).mapped ∨
    ((b'.pdos p).mapped = false ∧ (∃ ok, a = .step t ok) ∧ ∃ k, pc = .destroyUnmap p k) := by
  have hne : p ≠ b.pdoCount := Nat.ne_of_lt hp
  cases m
  all_goals first
    | exact .inl rfl
    | exact .inl (frame_update PdoDeviceData.mapped rfl)
    | skip
  all_goals simp [Function.update_apply, hne]
  all_goals split <;> simp_all

/-- A PDO is deleted by a thread that has unmapped it. -/
theorem deleted (m : Moves t b a pc b' pc') (hnew : b.pdos b.pdoCount = {}) :
    (b'.pdos p).deleted = (b.pdos p).deleted ∨ pc.unmapped = some p := by
  cases m
  all_goals first
    | exact .inl rfl
    | exact .inl (frame_update PdoDeviceData.deleted rfl)
    | skip
  all_goals simp [Function.update_apply]
  all_goals split <;> simp_all [Pc.unmapped, Bus.newPdo]

/-- A thread comes to use a PDO for a reply by finding it on the list. -/
theorem replyUses (m : Moves t b a pc b' pc') (hp : pc'.replyUses = some p) :
    pc.replyUses = some p ∨ p ∈ b.fdo.listOfPDOs := by
  cases m
  case replyFind h =>
    cases hp
    exact .inr (List.mem_of_find?_eq_some h)
  all_goals try rw [Pc.replyUses_nextReturn] at hp
  all_goals try rw [Pc.replyUses_destroyReturn] at hp
  all_goals first
    | exact .inl hp
    | cases hp
    | (rename NextCaller => k; cases k <;> exact .inl hp)

/-- A thread comes to have unmapped a PDO by unmapping it. -/
theorem unmapped (m : Moves t b a pc b' pc') (hp : pc'.unmapped = some p) :
    pc.unmapped = some p ∨ (b'.pdos p).mapped = false := by
  cases m
  case destroyUnmap =>
    cases hp
    exact .inr (by simp)
  all_goals try rw [Pc.unmapped_nextReturn] at hp
  all_goals try rw [Pc.unmapped_destroyReturn] at hp
  all_goals first | exact .inl hp | cases hp

end Moves

namespace Driver

variable {s s' : Driver}

/-- **No unmapping under a reply**: when `Bus_DestroyPdo` unmaps a PDO's buffer, no
`Bus_ProcessReply` is at work on that PDO. -/
def UnmapsUnused (s : Driver) : Action → Prop
  | .step t _ => ∀ p k, s.calls t = .destroyUnmap p k → ∀ t₂, (s.calls t₂).replyUses ≠ some p
  | _ => True

/-- **A reply uses a live PDO**: wherever the next step of a `Bus_ProcessReply` works on the PDO it
found, the buffer is still mapped and the PDO not deleted. -/
def RepliesAlive (s : Driver) : Prop :=
  ∀ t p, (s.calls t).replyUses = some p →
    (s.bus.pdos p).mapped = true ∧ (s.bus.pdos p).deleted = false

/-- What a destruction has done to a PDO, and to whom it matters. -/
structure Lifetimes (s : Driver) : Prop where
  used : ∀ t p, (s.calls t).replyUses = some p → (s.bus.pdos p).mapped = true
  unmapped : ∀ t p, (s.calls t).unmapped = some p → (s.bus.pdos p).mapped = false
  deleted : ∀ p, (s.bus.pdos p).deleted = true → (s.bus.pdos p).mapped = false

/-- **A move that meets the condition keeps the lifetimes.** -/
theorem Lifetimes.move (h : s.Lifetimes) (hl : s.Linked) (hC : s.UnmapsUnused a)
    (m : Moves t s.bus a (s.calls t) b' pc') : (s.put t (b', pc')).Lifetimes := by
  have hfalse : ∀ {p}, s.bus.Known p → (s.bus.pdos p).mapped = false →
      (b'.pdos p).mapped = false := by
    intro p hp hm
    rcases m.mapped hp.1 with heq | ⟨hf, -⟩
    · exact heq.trans hm
    · exact hf
  refine ⟨?_, ?_, ?_⟩
  · have hused : ∀ t₂ p, (s.calls t₂).replyUses = some p → (b'.pdos p).mapped = true := by
      intro t₂ p hp
      have hk := hl.mentions t₂ p (Pc.mem_mentions_of_replyUses hp)
      rcases m.mapped hk.1 with heq | ⟨-, ⟨ok, rfl⟩, k, hpc⟩
      · exact heq.trans (h.used t₂ p hp)
      · exact absurd hp (hC p k hpc t₂)
    refine forall_update (L := fun _ (pc : Pc) => ∀ p, pc.replyUses = some p →
      (b'.pdos p).mapped = true) (fun p hp => ?_) fun t₂ _ => hused t₂
    rcases m.replyUses hp with hp | hp
    · exact hused t p hp
    · -- a PDO on the list is not being unmapped
      rcases m.mapped (hl.known hp).1 with heq | ⟨-, -, k, hpc⟩
      · exact heq.trans (hl.intact p hp).mapped
      · exact absurd hp (hl.destroying t p (by rw [hpc]; rfl))
  · refine forall_update (L := fun _ (pc : Pc) => ∀ p, pc.unmapped = some p →
      (b'.pdos p).mapped = false) (fun p hp => ?_) fun t₂ _ p hp => ?_
    · rcases m.unmapped hp with hp | hp
      · exact hfalse (hl.mentions t p (Pc.mem_mentions_of_unmapped hp)) (h.unmapped t p hp)
      · exact hp
    · exact hfalse (hl.mentions t₂ p (Pc.mem_mentions_of_unmapped hp)) (h.unmapped t₂ p hp)
  · intro p hp
    rcases m.deleted (p := p) (hl.new _ (Nat.le_refl _)) with heq | hpc
    · have hdel : (s.bus.pdos p).deleted = true := heq ▸ hp
      rcases Nat.lt_or_ge p s.bus.pdoCount with hlt | hge
      · rcases m.mapped hlt with heq | ⟨hf, -⟩
        · exact heq.trans (h.deleted p hdel)
        · exact hf
      · rw [hl.new p hge] at hdel
        cases hdel
    · exact hfalse (hl.mentions t p (Pc.mem_mentions_of_unmapped hpc)) (h.unmapped t p hpc)

/-- The lifetimes are kept by every step that meets the condition. -/
theorem lifetimes (h : lts.Reach UnmapsUnused s) : s.Lifetimes := by
  refine h.invariant (I := Lifetimes) ?_ fun s a s' hr hi hC hs => ?_
  · refine ⟨fun t p hp => ?_, fun t p hp => ?_, fun p hp => ?_⟩
    · cases hp
    · cases hp
    · cases hp
  · rcases step_moves hs with ⟨t, b', pc', m, rfl⟩ | ⟨m, f, -, rfl⟩ | ⟨e, -, -, rfl⟩
    · exact hi.move (linked hr) hC m
    · exact ⟨hi.1, hi.2, hi.3⟩
    · exact ⟨hi.1, hi.2, hi.3⟩

/-- On the list as it is in `Driver.Step` a reply never uses a destroyed PDO. -/
theorem Lifetimes.repliesAlive (h : s.Lifetimes) : s.RepliesAlive := by
  intro t p hp
  have hm := h.used t p hp
  refine ⟨hm, ?_⟩
  by_contra hd
  rw [h.deleted p (by simpa using hd)] at hm
  cases hm

end Driver

end VirtualDisk
