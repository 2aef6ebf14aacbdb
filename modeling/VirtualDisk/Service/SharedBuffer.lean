import VirtualDisk.Service.Retirement

/-!
# Service/SharedBuffer — the memory that both processes use

A processor allocates `m_Buffer` and frees it when it is deleted; the driver keeps it mapped from
`Bus_InitializePdo` to `Bus_DestroyPdo`.  Nothing in the driver holds the service back: what does is
that `Bus_DestroyPdo` unmaps the buffer before it sets `RemoveEvent`, and that a processor in the
map is deleted by the thread that has waited for that event.
-/

namespace VirtualDisk

open Machinery

variable {t : Tid} {a : Action} {b b' : Bus} {pc pc' : Pc} {p q : PdoId}

namespace Moves

/-- A removal is signalled by the thread that has unmapped the buffer. -/
theorem signalled_by (m : Moves t b a pc b' pc') (hp : p < b.pdoCount) :
    (b'.pdos p).signalled = (b.pdos p).signalled ∨ pc.unmapped = some p := by
  have hne : p ≠ b.pdoCount := Nat.ne_of_lt hp
  cases m
  case destroySignal q k =>
    rcases eq_or_ne p q with rfl | hpq
    · exact .inr rfl
    · exact .inl (by simp [hpq])
  all_goals first
    | exact .inl rfl
    | exact .inl (frame_update PdoDeviceData.signalled rfl)
    | (left; simp [Function.update_apply, hne]; try (split <;> simp_all))

/-- A thread that is about to signal a removal does so. -/
theorem signals_next {k : DestroyCaller} (m : Moves t b a (.destroySignal p k) b' pc') :
    (b'.pdos p).signalled = true := by
  cases m
  simp

/-- A thread that unmaps a buffer is about to signal the removal. -/
theorem unmaps {k : DestroyCaller} (m : Moves t b a (.destroyUnmap p k) b' pc') :
    pc' = .destroySignal p k := by
  cases m
  rfl

end Moves

namespace Driver

variable {s : Driver} {C : Driver → Action → Prop}

/-- A thread has unmapped the PDO's buffer and not set its event. -/
def Signalling (s : Driver) (p : PdoId) : Prop := ∃ t k, s.calls t = .destroySignal p k

/-- **The order of a destruction**: the buffer is unmapped, then the removal is signalled. -/
structure Unmapping (s : Driver) : Prop where
  unmapped : ∀ t p, (s.calls t).unmapped = some p → (s.bus.pdos p).mapped = false
  before : ∀ p < s.bus.pdoCount, (s.bus.pdos p).signalled = true → (s.bus.pdos p).mapped = false
  after : ∀ p < s.bus.pdoCount, (s.bus.pdos p).mapped = false →
    (s.bus.pdos p).signalled = true ∨ s.Signalling p

/-- A PDO has its buffer mapped when it is created, and no removal signalled. -/
theorem new_of_creates (m : Moves t b a pc b' pc') (hp : p < b'.pdoCount)
    (hnew : ¬ p < b.pdoCount) :
    (b'.pdos p).mapped = true ∧ (b'.pdos p).signalled = false := by
  obtain ⟨-, dd, -, -, -, hdd⟩ := m.creates hp (Nat.not_lt.mp hnew)
  rw [hdd]
  exact ⟨rfl, rfl⟩

/-- A buffer that is unmapped stays so. -/
theorem mapped_false (m : Moves t b a pc b' pc') (hp : p < b.pdoCount)
    (hm : (b.pdos p).mapped = false) : (b'.pdos p).mapped = false := by
  rcases m.mapped hp with heq | ⟨hf, -⟩
  · exact heq.trans hm
  · exact hf

/-- A removal waits for its signal, or is signalled. -/
theorem Signalling.move (h : s.Signalling p)
    (m : Moves t s.bus a (s.calls t) b' pc') :
    (b'.pdos p).signalled = true ∨ (s.put t (b', pc')).Signalling p := by
  obtain ⟨t₂, k, hk⟩ := h
  rcases eq_or_ne t₂ t with rfl | hne
  · exact .inl (hk ▸ m).signals_next
  · exact .inr ⟨t₂, k, by rw [put_calls_of_ne s hne, hk]⟩

/-- **A move of a thread keeps the order.** -/
theorem Unmapping.move (h : s.Unmapping) (hl : s.Linked)
    (m : Moves t s.bus a (s.calls t) b' pc') : (s.put t (b', pc')).Unmapping := by
  have hstay : ∀ t₂ p, (s.calls t₂).unmapped = some p → (b'.pdos p).mapped = false :=
    fun t₂ p hp => mapped_false m (hl.mentions t₂ p (Pc.mem_mentions_of_unmapped hp)).1
      (h.unmapped t₂ p hp)
  refine ⟨?_, fun p hp hs => ?_, fun p hp hm => ?_⟩
  · exact forall_update (L := fun _ (pc : Pc) => ∀ p, pc.unmapped = some p →
      (b'.pdos p).mapped = false) (fun p hp => (m.unmapped hp).elim (hstay t p) id)
      fun t₂ _ => hstay t₂
  · by_cases hlt : p < s.bus.pdoCount
    · rcases m.signalled_by hlt with heq | hpc
      · exact mapped_false m hlt (h.before p hlt (heq.symm.trans hs))
      · exact hstay t p hpc
    · rw [put_bus, (new_of_creates m hp hlt).2] at hs
      cases hs
  · by_cases hlt : p < s.bus.pdoCount
    · rcases m.mapped hlt with heq | ⟨-, -, k, hpc⟩
      · rcases h.after p hlt (heq.symm.trans hm) with hs | hsig
        · exact .inl ((m.signalled hlt).elim (fun heq => heq.trans hs) id)
        · exact hsig.move m
      · exact .inr ⟨t, k, by rw [put_calls_self]; exact (hpc ▸ m).unmaps⟩
    · rw [put_bus, (new_of_creates m hp hlt).1] at hm
      cases hm

/-- Every destruction keeps to the order. -/
theorem unmapping (h : lts.Reach C s) : s.Unmapping := by
  refine h.invariant (I := Unmapping) ?_ fun s a s' hr hi _ hs => ?_
  · refine ⟨fun t p hp => ?_, fun p hp => ?_, fun p hp => ?_⟩
    · cases hp
    · cases hp
    · cases hp
  · rcases step_moves hs with ⟨t, b', pc', m, rfl⟩ | ⟨m, f, -, rfl⟩ | ⟨e, -, -, rfl⟩
    · exact hi.move (linked hr) m
    · exact ⟨hi.1, hi.2, hi.3⟩
    · exact ⟨hi.1, hi.2, hi.3⟩

/-- A thread about to signal a removal can go on. -/
theorem Signalling.exists_step (h : s.Signalling p) :
    ∃ t s', s.step (.step t true) = some s' := by
  obtain ⟨t, k, hk⟩ := h
  exact ⟨t, _, by rw [step, hk]; rfl⟩

end Driver

namespace System

variable {s : System} {files : FileId → File} {pr : ProcId}

/-- **Who has the driver's mapping is alive.** -/
theorem alive_of_mapped (h : (lts files).Reachable s) (hp : p < s.driver.bus.pdoCount)
    (hm : (s.driver.bus.pdos p).mapped = true) :
    (s.service.procs (s.driver.bus.pdos p).buffer).alive = true := by
  have hr := registry h
  have hsig : (s.driver.bus.pdos p).signalled = false := by
    by_contra hsig
    rw [Bool.not_eq_false] at hsig
    rw [(Driver.unmapping (driver_reachable h)).before p hp hsig] at hm
    cases hm
  exact (hr.mapped _ _ (hr.live p hp hsig)).2.1

/-- **Who is alive when nothing goes on has the driver's mapping.** -/
theorem mapped_of_alive (h : (lts files).Reachable s)
    (hrest : (lts files).AtRest (fun _ x => x.settles) s)
    (hlive : ∀ t irp, t.external = false → s.driver.calls t ≠ .crash irp)
    (halive : (s.service.procs pr).alive = true) :
    ∃ p < s.driver.bus.pdoCount, (s.driver.bus.pdos p).mapped = true ∧
      (s.driver.bus.pdos p).buffer = pr := by
  rcases (registry h).alive pr halive with hin | ⟨k, hk⟩
  · obtain ⟨p, hp, hsig, rfl⟩ := pdo_of_settled h hrest hin hlive
    refine ⟨p, hp, ?_, rfl⟩
    by_contra hm
    rw [Bool.not_eq_true] at hm
    rcases (Driver.unmapping (driver_reachable h)).after p hp hm with hs | hs
    · rw [hsig] at hs
      cases hs
    · obtain ⟨t, d', hd⟩ := hs.exists_step
      have hnone : s.step (.driver (.step t true)) = none := hrest (.driver (.step t true)) rfl
      rw [driver_step hd] at hnone
      cases hnone
  · rw [idle_of_settled h hrest fun irp => hlive _ irp rfl] at hk
    cases hk

end System

namespace ListSystem

variable {s : ListSystem} {files : FileId → File}

/-- **The driver maps the memory of the living.**  In every state of an undisturbed run a buffer
that the driver has mapped is that of a processor that was not deleted, and no other PDO has it; and
where no thread inside the driver, no disk thread and no RPC worker has a step left, and none of the
service's threads was lost in the driver, the processors that were not deleted are those with a
mapped buffer. -/
theorem mapped_living (h : (lts files).Reach Undisturbed s) :
    (∀ p < s.listed.bus.pdoCount, (s.listed.bus.pdos p).mapped = true →
      (s.service.procs (s.listed.bus.pdos p).buffer).alive = true ∧
      ∀ q < s.listed.bus.pdoCount, (s.listed.bus.pdos q).mapped = true →
        (s.listed.bus.pdos q).buffer = (s.listed.bus.pdos p).buffer → q = p) ∧
    ((lts files).AtRest (fun _ a => a.settles) s →
      (∀ t irp, t.external = false → s.listed.calls t ≠ .crash irp) → ∀ pr,
        (s.service.procs pr).alive = true ↔ ∃ p < s.listed.bus.pdoCount,
          (s.listed.bus.pdos p).mapped = true ∧ (s.listed.bus.pdos p).buffer = pr) := by
  have hr := reach_undisturbed h
  refine ⟨fun p hp hm => ⟨System.alive_of_mapped hr hp hm, fun q hq _ heq => ?_⟩,
    fun hrest hlive pr => ⟨System.mapped_of_alive hr ((quiet h).atRest hrest) hlive, ?_⟩⟩
  · exact (System.registry hr).injective q hq p hp heq
  · rintro ⟨p, hp, hm, rfl⟩
    exact System.alive_of_mapped hr hp hm

/-- The second disk's buffer is mapped, the first one's is not. -/
theorem mapped_living_cycled : (cycled.listed.bus.pdos 0).mapped = false ∧
    (cycled.listed.bus.pdos 1).mapped = true ∧ ∀ pr,
    (cycled.service.procs pr).alive = true ↔ ∃ p < cycled.listed.bus.pdoCount,
      (cycled.listed.bus.pdos p).mapped = true ∧ (cycled.listed.bus.pdos p).buffer = pr :=
  ⟨by rfl, by rfl, (mapped_living cycled_reach).2 cycled_atRest fun _ _ => cycled_live⟩

end ListSystem

end VirtualDisk
