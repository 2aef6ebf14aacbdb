import VirtualDisk.Driver.Deletion

/-!
# Driver/Rendezvous — the cleanup and the removal of the last disk

`Bus_FDO_Cleanup` resets its event, asks for the removal of every disk and waits; the removal that
finds the counter at zero sets the event.  No lock is common to the test, the reset and the wait.
What carries the rendezvous past the reset is that the counter is exact, and that the event is set,
or about to be, only when the list is empty for good.
-/

namespace VirtualDisk

open Machinery

variable {t t₂ : Tid} {a : Action} {b b' : Bus} {pc pc' : Pc} {p q : PdoId}

namespace Pc

/-- A `Bus_FDO_Cleanup` that has reset its event. -/
def settling : Pc → Bool
  | .cleanupRemoveAll | .cleanupWait => true
  | _ => false

/-- A `Bus_FDO_Cleanup` that waits for its event. -/
def waiting : Pc → Bool
  | .cleanupWait => true
  | _ => false

/-- A PDO's removal that is past the unlinking. -/
def signalling : Pc → Bool
  | .destroyTake _ k | .destroyComplete _ _ k | .destroyDrain _ k | .destroyDrained _ _ k => k = .pdo
  | .destroyUnmap _ k | .destroySignal _ k | .destroyDelete _ k => k = .pdo
  | .pdoRemoved | .pdoSignal => true
  | _ => false

/-- A PDO's removal that is going to set the cleanup's event, while no one else moves the
counter. -/
def signals (b : Bus) : Pc → Bool
  | .pdoUnlink _ => b.fdo.numPDOs = 1
  | .pdoSignal => true
  | pc => pc.signalling && b.fdo.numPDOs = 0

@[simp] theorem settling_nextReturn (k : NextCaller) : (nextReturn k).settling = false := by
  cases k <;> rfl

@[simp] theorem settling_destroyReturn (k : DestroyCaller) :
    (destroyReturn k).settling = false := by
  cases k <;> rfl

theorem eq_cleanupWait (h : pc.waiting = true) : pc = .cleanupWait := by
  cases pc <;> cases h
  rfl

theorem settling_of_waiting (h : pc.waiting = true) : pc.settling = true := by
  rw [eq_cleanupWait h]
  rfl

theorem signals_of_signalling (h : pc.signalling = true) (hn : b.fdo.numPDOs = 0) :
    pc.signals b = true := by
  cases pc <;> first | (cases h; done) | simp_all [signals, signalling]

theorem signalling_of_signals (h : pc.signals b = true) (hn : b.fdo.numPDOs = 0) :
    pc.signalling = true := by
  cases pc <;> simp_all [signals, signalling]

end Pc

namespace Moves

/-- A cleanup goes past its reset by resetting the event. -/
theorem settling (m : Moves t b a pc b' pc') (h : pc'.settling = true) :
    pc.settling = true ∨
    (pc = .cleanupReset ∧ b' = b.setFdo fun f => { f with cleanupReadyEvent := false }) := by
  cases m
  case cleanupReset => exact .inr ⟨rfl, rfl⟩
  all_goals first
    | exact .inl rfl
    | cases h
    | (rw [Pc.settling_nextReturn] at h; cases h)
    | (rw [Pc.settling_destroyReturn] at h; cases h)

/-- The event is set by a removal. -/
theorem event_set (m : Moves t b a pc b' pc') (h : b'.fdo.cleanupReadyEvent = true) :
    b.fdo.cleanupReadyEvent = true ∨ pc = .pdoSignal := by
  cases m
  case pdoSignal => exact .inr rfl
  case cleanupReset => cases h
  all_goals exact .inl h

/-- The event is reset by a cleanup. -/
theorem event_reset (m : Moves t b a pc b' pc') (h : b'.fdo.cleanupReadyEvent = false) :
    b.fdo.cleanupReadyEvent = false ∨ (pc = .cleanupReset ∧ ∃ ok, a = .step t ok) := by
  cases m
  case pdoSignal => cases h
  case cleanupReset => exact .inr ⟨rfl, _, rfl⟩
  all_goals exact .inl h

/-- A removal comes to set the event when it finds the counter at zero. -/
theorem enters_signal (m : Moves t b a pc b' pc') (h : pc' = .pdoSignal) :
    b.fdo.numPDOs = 0 ∧ b' = b := by
  cases m
  case pdoRemovedLast hn => exact ⟨hn, rfl⟩
  all_goals first
    | cases h
    | (rename NextCaller => k; cases k <;> cases h)
    | (rename DestroyCaller => k; cases k <;> cases h)

/-- **A removal past the unlinking goes on to set the event**, unless it finds a PDO counted. -/
theorem signalling (m : Moves t b a pc b' pc') (h : pc.signalling = true) :
    pc'.signalling = true ∨ b'.fdo.cleanupReadyEvent = true ∨ b.fdo.numPDOs ≠ 0 := by
  cases m
  case destroyDelete p k =>
    obtain rfl : k = .pdo := by simpa [Pc.signalling] using h
    exact .inl rfl
  case pdoRemoved hn => exact .inr (.inr hn)
  case pdoSignal => exact .inr (.inl rfl)
  all_goals first
    | exact .inl h
    | exact .inl rfl
    | cases h

end Moves

namespace Driver

variable {s s' : Driver} {C : Driver → Action → Prop}

/-- **A cleanup may reset the event**: the FDO is not being removed, its counter is exact, no
removal is about to set the event for an earlier disk, and someone is left to set it. -/
structure MayReset (s : Driver) : Prop where
  fdo : s.bus.fdo.devicePnPState ≠ .deleted
  count : s.bus.fdo.numPDOs = s.bus.fdo.listOfPDOs.length
  earlier : ∀ t, s.calls t = .pdoSignal → s.bus.fdo.listOfPDOs = []
  left : s.bus.fdo.listOfPDOs = [] →
    (∃ t, (s.calls t).signals s.bus = true) ∨ ∃ t p, s.calls t = .addInsert p

/-- **The conditions of the rendezvous.**  A cleanup resets the event where it may.  While one is
past its reset, the FDO's handlers find no disk to take off the list, and no disk is put on it when
the event is set or about to be. -/
def KeepsRendezvous (s : Driver) : Action → Prop
  | .step t _ =>
    (s.calls t = .cleanupReset → s.MayReset) ∧
    ((s.calls t = .fdoOrphan ∨ s.calls t = .fdoLoop) → s.bus.fdo.listOfPDOs ≠ [] →
      ∀ t₂, (s.calls t₂).settling = false) ∧
    (∀ p, s.calls t = .addInsert p →
      (s.bus.fdo.cleanupReadyEvent = true ∨ ∃ t₁, s.calls t₁ = .pdoSignal) →
      ∀ t₂, (s.calls t₂).settling = false)
  | _ => True

/-- What holds while a cleanup is past its reset. -/
structure Settled (s : Driver) : Prop where
  count : s.bus.fdo.numPDOs = s.bus.fdo.listOfPDOs.length
  unlinking : ∀ t p, (s.calls t).unlinks = some p → p ∈ s.bus.fdo.listOfPDOs
  destroying : ∀ t p, (s.calls t).destroying = some p → (s.bus.pdos p).devicePnPState = .deleted
  gone : ∀ p, p < s.bus.pdoCount → (s.bus.pdos p).deleted = true →
    (s.bus.pdos p).devicePnPState = .deleted
  quiet : (s.bus.fdo.cleanupReadyEvent = true ∨ ∃ t, s.calls t = .pdoSignal) →
    s.bus.fdo.listOfPDOs = []
  left : s.bus.fdo.cleanupReadyEvent = false → s.bus.fdo.listOfPDOs = [] →
    (∃ t, (s.calls t).signalling = true) ∨ ∃ t p, s.calls t = .addInsert p

/-- Someone is left to set the event, whatever the thread that resets it does. -/
theorem MayReset.left_other (h : s.MayReset) (ht : s.calls t = .cleanupReset)
    (hl : s.bus.fdo.listOfPDOs = []) :
    (∃ t₂, t₂ ≠ t ∧ (s.calls t₂).signalling = true) ∨
    ∃ t₂ p, t₂ ≠ t ∧ s.calls t₂ = .addInsert p := by
  have hn : s.bus.fdo.numPDOs = 0 := by rw [h.count, hl]; rfl
  have hne : ∀ t₂, s.calls t₂ ≠ .cleanupReset → t₂ ≠ t := by
    rintro t₂ h₂ rfl
    exact h₂ ht
  rcases h.left hl with ⟨t₂, ht₂⟩ | ⟨t₂, p, ht₂⟩
  · have hsig := Pc.signalling_of_signals ht₂ hn
    refine .inl ⟨t₂, hne t₂ fun heq => ?_, hsig⟩
    rw [heq] at hsig
    cases hsig
  · exact .inr ⟨t₂, p, hne t₂ (by rw [ht₂]; exact nofun), ht₂⟩

/-- **A reset settles the state.** -/
theorem MayReset.settled (h : s.MayReset) (hl : s.Linked) (hr : s.Removing)
    (ht : s.calls t = .cleanupReset) :
    (s.put t (s.bus.setFdo fun f => { f with cleanupReadyEvent := false },
      .cleanupRemoveAll)).Settled where
  count := h.count
  unlinking := forall_update (L := fun _ (pc : Pc) => ∀ p, pc.unlinks = some p →
    p ∈ s.bus.fdo.listOfPDOs) nofun fun _ _ _ ht₂ => hr.mem_of_unlinks hl h.fdo h.count ht₂
  destroying := forall_update (L := fun _ (pc : Pc) => ∀ p, pc.destroying = some p →
    (s.bus.pdos p).devicePnPState = .deleted) nofun fun t₂ _ => hr.destroying h.fdo t₂
  gone := hr.gone h.fdo
  quiet := by
    rintro (he | ⟨t₂, ht₂⟩)
    · cases he
    · rcases eq_or_ne t₂ t with rfl | hne
      · rw [put_calls_self] at ht₂
        cases ht₂
      · rw [put_calls_of_ne s hne] at ht₂
        exact h.earlier t₂ ht₂
  left _ hlist := by
    rcases h.left_other ht hlist with ⟨t₂, hne, ht₂⟩ | ⟨t₂, p, hne, ht₂⟩
    · exact .inl ⟨t₂, by rwa [put_calls_of_ne s hne]⟩
    · exact .inr ⟨t₂, p, by rwa [put_calls_of_ne s hne]⟩

/-- While a cleanup is past its reset, a step takes PDOs off the list in the PDO's
own removal only. -/
theorem KeepsRendezvous.list (hC : s.KeepsRendezvous a) (m : Moves t s.bus a (s.calls t) b' pc')
    (hset : (s.calls t₂).settling = true) :
    (b'.fdo.numPDOs = s.bus.fdo.numPDOs ∧ b'.fdo.listOfPDOs = s.bus.fdo.listOfPDOs) ∨
    (∃ p, s.calls t = .addInsert p ∧ b'.fdo.numPDOs = s.bus.fdo.numPDOs + 1 ∧
      b'.fdo.listOfPDOs = s.bus.fdo.listOfPDOs ++ [p]) ∨
    (∃ p, s.calls t = .pdoUnlink p ∧ pc' = .destroyTake p .pdo ∧
      b'.fdo.numPDOs = s.bus.fdo.numPDOs - 1 ∧
      b'.fdo.listOfPDOs = s.bus.fdo.listOfPDOs.erase p) := by
  have hempty : s.calls t = .fdoOrphan ∨ s.calls t = .fdoLoop → s.bus.fdo.listOfPDOs = [] := by
    intro hpc
    by_contra hne
    obtain ⟨ok, rfl⟩ := m.isStep (by rcases hpc with hpc | hpc <;> rw [hpc] <;> rfl)
    exact absurd ((hC.2.1 hpc hne t₂).symm.trans hset) (by simp)
  rcases m.numPDOs with hsame | hadd | ⟨p, hpc | ⟨hpc, hmem⟩, hn, hlist⟩ |
    ⟨hn, ⟨hpc, hlist⟩ | ⟨p, hp, hpc, -⟩⟩
  · exact .inl hsame
  · exact .inr (.inl hadd)
  · refine .inr (.inr ⟨p, hpc, ?_, hn, hlist⟩)
    rw [hpc] at m
    cases m
    rfl
  · rw [hempty (.inr hpc)] at hmem
    cases hmem
  · exact .inl ⟨hn, hlist.trans (hempty (.inl hpc)).symm⟩
  · rw [hempty (.inr hpc)] at hp
    cases hp

/-- **A move that meets the conditions keeps the state settled.** -/
theorem Settled.move (h : s.Settled) (hl : s.Linked) (ho : s.Orphans) (hr : s.Removing)
    (hC : s.KeepsRendezvous a) (m : Moves t s.bus a (s.calls t) b' pc')
    (hset : (s.calls t₂).settling = true) : (s.put t (b', pc')).Settled where
  count := by
    show b'.fdo.numPDOs = b'.fdo.listOfPDOs.length
    rcases hC.list m hset with ⟨hn, hlist⟩ | ⟨p, -, hn, hlist⟩ | ⟨p, hpc, -, hn, hlist⟩
    · rw [hn, hlist, h.count]
    · rw [hn, hlist, h.count, List.length_append, List.length_singleton]
    · rw [hn, hlist, h.count, List.length_erase_of_mem (h.unlinking t p (by rw [hpc]; rfl))]
  unlinking := by
    refine forall_update (L := fun _ (pc : Pc) => ∀ p, pc.unlinks = some p →
      p ∈ b'.fdo.listOfPDOs) ?_ ?_
    · intro p hp
      obtain ⟨hpc, hstate, hf, hfdo, -⟩ := m.enters_unlink hp
      have hk : s.bus.Known p := hl.mentions t p (by simp [hpc, Pc.mentions])
      rw [hfdo]
      by_contra hmem
      refine hf (ho.orphan p hk hmem ?_ fun t₁ ht₁ => hstate (h.destroying t₁ p ht₁)).1
      by_contra hdel
      exact hstate (h.gone p hk.1 (by simpa using hdel))
    · intro t₁ hne p ht₁
      have hmem := h.unlinking t₁ p ht₁
      rcases hC.list m hset with ⟨-, hlist⟩ | ⟨q, -, -, hlist⟩ | ⟨q, hpc, -, -, hlist⟩
      · exact hlist ▸ hmem
      · exact hlist ▸ List.mem_append_left _ hmem
      · rw [hlist]
        refine (List.mem_erase_of_ne ?_).mpr hmem
        rintro rfl
        exact hne (hr.alone t₁ t p ht₁ (by rw [hpc]; rfl))
  destroying := by
    refine forall_update (L := fun _ (pc : Pc) => ∀ p, pc.destroying = some p →
      (b'.pdos p).devicePnPState = .deleted) ?_ fun t₁ _ p ht₁ =>
        (m.ages (hl.mentions t₁ p (Pc.mem_mentions_of_destroying ht₁)).1).state
          (h.destroying t₁ p ht₁)
    intro p hp
    rcases m.removing hp with (hpc | hpc) | hpc | ⟨hpc, hmem⟩
    · exact (m.ages (hl.mentions t p (Pc.mem_mentions_of_unlinks hpc)).1).state
        (hr.unlinking t p hpc)
    · exact (m.ages (hl.mentions t p (Pc.mem_mentions_of_destroying hpc)).1).state
        (h.destroying t p hpc)
    · exact hpc
    · obtain ⟨ok, rfl⟩ := m.isStep (by rw [hpc]; rfl)
      exact absurd ((hC.2.1 (.inr hpc) (List.ne_nil_of_mem hmem) t₂).symm.trans hset) (by simp)
  gone p hlt hdel := by
    rcases Nat.lt_or_ge p s.bus.pdoCount with hold | hge
    · rcases m.deletes (hl.new _ le_rfl) hdel with hdel | hpc
      · exact (m.ages hold).state (h.gone p hold hdel)
      · exact (m.ages hold).state (h.destroying t p hpc)
    · obtain ⟨-, dd, -, -, -, hdd⟩ := m.creates hlt hge
      have hdel : (b'.pdos p).deleted = true := hdel
      rw [hdd] at hdel
      cases hdel
  quiet hq := by
    show b'.fdo.listOfPDOs = []
    -- the event was set, or about to be, before; or the removal has just found the counter at zero
    have hold : s.bus.fdo.listOfPDOs = [] ∧
        ((s.bus.fdo.cleanupReadyEvent = true ∨ ∃ t₁, s.calls t₁ = .pdoSignal) ∨ b' = s.bus) := by
      have hbefore := fun hq => And.intro (h.quiet hq) (Or.inl (b := b' = s.bus) hq)
      rcases hq with he | ⟨t₁, ht₁⟩
      · exact hbefore ((m.event_set he).imp_right fun hpc => ⟨t, hpc⟩)
      · rcases eq_or_ne t₁ t with rfl | hne
        · obtain ⟨hn, heq⟩ := m.enters_signal (by simpa using ht₁)
          exact ⟨List.length_eq_zero_iff.mp (h.count.symm.trans hn), .inr heq⟩
        · rw [put_calls_of_ne s hne] at ht₁
          exact hbefore (.inr ⟨t₁, ht₁⟩)
    obtain ⟨hnil, hq | rfl⟩ := hold
    · rcases hC.list m hset with ⟨-, hlist⟩ | ⟨p, hpc, -, -⟩ | ⟨p, -, -, -, hlist⟩
      · rw [hlist, hnil]
      · obtain ⟨ok, rfl⟩ := m.isStep (by rw [hpc]; rfl)
        exact absurd ((hC.2.2 p hpc hq t₂).symm.trans hset) (by simp)
      · rw [hlist, hnil, List.erase_nil]
    · exact hnil
  left he hnil := by
    have hnil : b'.fdo.listOfPDOs = [] := hnil
    -- another thread that is left to set the event is left so
    have hother : ((∃ t₁, t₁ ≠ t ∧ (s.calls t₁).signalling = true) ∨
        ∃ t₁ p, t₁ ≠ t ∧ s.calls t₁ = .addInsert p) →
        (∃ t₁, ((s.put t (b', pc')).calls t₁).signalling = true) ∨
        ∃ t₁ p, (s.put t (b', pc')).calls t₁ = .addInsert p := by
      rintro (⟨t₁, hne, ht₁⟩ | ⟨t₁, p, hne, ht₁⟩)
      · exact .inl ⟨t₁, by rwa [put_calls_of_ne s hne]⟩
      · exact .inr ⟨t₁, p, by rwa [put_calls_of_ne s hne]⟩
    rcases hC.list m hset with ⟨-, hlist⟩ | ⟨p, -, -, hlist⟩ | ⟨p, -, hpc', -, -⟩
    · have hnil₀ : s.bus.fdo.listOfPDOs = [] := hlist.symm.trans hnil
      rcases m.event_reset he with hreset | ⟨hpc, ok, rfl⟩
      · rcases h.left hreset hnil₀ with ⟨t₁, ht₁⟩ | ⟨t₁, p, ht₁⟩
        · rcases eq_or_ne t₁ t with rfl | hne
          · rcases m.signalling ht₁ with hpc' | hset | hn
            · exact .inl ⟨t₁, by rwa [put_calls_self]⟩
            · exact absurd (hset.symm.trans he) (by simp)
            · exact absurd (by rw [h.count, hnil₀]; rfl) hn
          · exact hother (.inl ⟨t₁, hne, ht₁⟩)
        · refine hother (.inr ⟨t₁, p, ?_, ht₁⟩)
          rintro rfl
          rw [ht₁] at m
          cases m with
          | addInsert => simp at hnil
      · exact hother ((hC.1 hpc).left_other hpc hnil₀)
    · rw [hlist] at hnil
      simp at hnil
    · exact .inl ⟨t, by rw [put_calls_self, hpc']; rfl⟩

/-- The state is settled while a cleanup is past its reset, in every run that meets the
conditions. -/
theorem settled (h : lts.Reach KeepsRendezvous s) (ht : (s.calls t).settling = true) :
    s.Settled := by
  refine h.invariant (I := fun s => ∀ t, (s.calls t).settling = true → s.Settled) (fun t ht => ?_)
    (fun s a s' hr hi hC hs => ?_) t ht
  · cases ht
  · rcases step_moves hs with ⟨t, b', pc', m, rfl⟩ | ⟨m, f, -, rfl⟩ | ⟨e, -, -, rfl⟩
    · have hl := linked hr
      have hkeep := fun t₂ ht₂ => (hi t₂ ht₂).move hl (orphans hr) (removing hr) hC m ht₂
      intro t₂ ht₂
      rcases eq_or_ne t₂ t with rfl | hne
      · rw [put_calls_self] at ht₂
        rcases m.settling ht₂ with ht₂ | ⟨hpc, -⟩
        · exact hkeep _ ht₂
        · obtain ⟨ok, rfl⟩ := m.isStep (by rw [hpc]; rfl)
          have hready := (hC.1 hpc).settled hl (removing hr) hpc
          rw [hpc] at m
          cases m
          exact hready
      · rw [put_calls_of_ne s hne] at ht₂
        exact hkeep _ ht₂
    · exact fun t ht => ⟨(hi t ht).1, (hi t ht).2, (hi t ht).3, (hi t ht).4, (hi t ht).5,
        (hi t ht).6⟩
    · exact fun t ht => ⟨(hi t ht).1, (hi t ht).2, (hi t ht).3, (hi t ht).4, (hi t ht).5,
        (hi t ht).6⟩

/-! ## The rendezvous -/

/-- **The rendezvous**: no cleanup is let past its wait while a PDO is on the list, and none waits
for an event that no removal is going to set, every PDO being destroyed. -/
structure Rendezvous (s : Driver) : Prop where
  passes : ∀ t, (s.calls t).waiting = true → s.bus.fdo.cleanupReadyEvent = true →
    s.bus.fdo.listOfPDOs = []
  waits : ∀ t, (s.calls t).waiting = true → s.bus.fdo.cleanupReadyEvent = false →
    (∀ p, p < s.bus.pdoCount → (s.bus.pdos p).deleted = true) →
    ∃ t₂, (s.calls t₂).signals s.bus = true

/-- **The cleanup and the last removal meet**, in every run that meets the conditions. -/
theorem rendezvous (h : lts.Reach KeepsRendezvous s) : s.Rendezvous where
  passes t ht he := (settled h (Pc.settling_of_waiting ht)).quiet (.inl he)
  waits t ht he hall := by
    have hset := settled h (Pc.settling_of_waiting ht)
    have hnil : s.bus.fdo.listOfPDOs = [] := by
      refine List.eq_nil_iff_forall_not_mem.mpr fun p hp => ?_
      have hdel := ((linked h).intact p hp).deleted
      exact absurd (hdel.symm.trans (hall p ((linked h).known hp).1)) (by simp)
    rcases hset.left he hnil with ⟨t₂, ht₂⟩ | ⟨t₂, p, ht₂⟩
    · exact ⟨t₂, Pc.signals_of_signalling ht₂ (by rw [hset.count, hnil]; rfl)⟩
    · obtain ⟨hlt, dd, hdd⟩ := (linked h).adding t₂ p ht₂
      have hdel := hall p hlt
      rw [hdd] at hdel
      cases hdel

/-- A disk that is ejected and reported missing, ready for its REMOVE_DEVICE. -/
def missingRun : List Action :=
  routine (.sys 0) (.addDisk (smallDisk 1 0)) 3 ++ routine (.sys 0) (.pdoPnp 0 .eject) 1 ++
    routine (.sys 0) (.queryRelations none) 2

/-- A test for the conditions, on runs of two threads. -/
def meets (s : Driver) (a : Action) : Bool :=
  a.onlyBy [.sys 0, .sys 1] && match a with
  | .step t _ => match s.calls t with
    | .cleanupReset =>
      s.bus.fdo.devicePnPState ≠ .deleted && s.bus.fdo.numPDOs = s.bus.fdo.listOfPDOs.length &&
        s.bus.fdo.listOfPDOs ≠ [] && [Tid.sys 0, .sys 1].all fun t => !(s.calls t).signalling
    | .fdoOrphan | .fdoLoop => false
    | .addInsert _ => [Tid.sys 0, .sys 1].all fun t => !(s.calls t).settling
    | _ => true
  | _ => true

/-- **A run that passes the test meets the conditions.** -/
theorem keepsRendezvous_of_meets (h : lts.Reach C s) (hC : ∀ s a, C s a → meets s a = true)
    (ha : meets s a = true) : s.KeepsRendezvous a := by
  have hidle : ∀ (f : Pc → Bool), f .idle = false →
      ([Tid.sys 0, .sys 1].all fun t => !f (s.calls t)) = true → ∀ t, f (s.calls t) = false := by
    intro f hf hall t
    by_cases hmem : t ∈ [Tid.sys 0, .sys 1]
    · simpa using List.all_eq_true.mp hall t hmem
    · rw [idle_of_onlyBy h (fun s a ha => (Bool.and_eq_true_iff.mp (hC s a ha)).1) t hmem, hf]
  cases a with
  | step t ok =>
    obtain ⟨-, ha⟩ := Bool.and_eq_true_iff.mp ha
    refine ⟨fun hpc => ?_, ?_, fun p hpc _ => ?_⟩
    · simp only [hpc, Bool.and_eq_true, decide_eq_true_eq] at ha
      obtain ⟨⟨⟨hd, hn⟩, hlist⟩, hsig⟩ := ha
      refine ⟨hd, hn, fun t₁ ht₁ => ?_, fun hnil => absurd hnil hlist⟩
      have := hidle Pc.signalling rfl hsig t₁
      rw [ht₁] at this
      cases this
    · rintro (hpc | hpc) <;> simp [hpc] at ha
    · simp only [hpc] at ha
      exact hidle Pc.settling rfl ha
  | _ => trivial

/-- A cleanup that is woken by the removal of the last disk. -/
theorem rendezvous_woken :
    ∃ s, lts.Reach KeepsRendezvous s ∧
      ((s.calls (.sys 1)).waiting = true ∧ s.bus.fdo.cleanupReadyEvent = true) ∧
      s.Rendezvous := by
  obtain ⟨s, hs, hlast⟩ := lts.exists_reach (C := fun s a => meets s a = true) (c := meets)
    (fun _ _ ha => ha)
    (missingRun ++ .call (.sys 1) (.cleanup 0) :: steps (.sys 1) 5 ++
      routine (.sys 0) (.pdoRemove 0) 9)
    (fun s => (s.calls (.sys 1)).waiting = true ∧ s.bus.fdo.cleanupReadyEvent = true)
    (by decide +kernel)
  have hkeep : lts.Reach KeepsRendezvous s :=
    hs.mono fun s a hr _ ha => keepsRendezvous_of_meets hr (fun _ _ h => h) ha
  exact ⟨s, hkeep, hlast, rendezvous hkeep⟩

/-- **A wake-up is lost**: the last disk's removal sets the event between the cleanup's test of
the counter and its reset, and the cleanup waits for a signal that does not come again. -/
theorem not_rendezvous : ¬ ∀ s, lts.Reachable s → s.Rendezvous := by
  intro h
  obtain ⟨s, hs, hwait, he, hcount, hdel, h₀, h₁⟩ := lts.exists_reach
    (C := fun _ a => a.onlyBy [.sys 0, .sys 1] = true)
    (c := fun _ a => a.onlyBy [.sys 0, .sys 1]) (fun _ _ h => h)
    (missingRun ++ .call (.sys 1) (.cleanup 0) :: steps (.sys 1) 3 ++
      routine (.sys 0) (.pdoRemove 0) 9 ++ steps (.sys 1) 2)
    (fun s => (s.calls (.sys 1)).waiting = true ∧ s.bus.fdo.cleanupReadyEvent = false ∧
      s.bus.pdoCount = 1 ∧ (s.bus.pdos 0).deleted = true ∧
      (s.calls (.sys 0)).signals s.bus = false ∧ (s.calls (.sys 1)).signals s.bus = false)
    (by decide +kernel)
  have hall : ∀ p, p < s.bus.pdoCount → (s.bus.pdos p).deleted = true := by
    intro p hp
    rw [hcount] at hp
    rwa [Nat.lt_one_iff.mp hp]
  obtain ⟨t, ht⟩ := (h s hs.reachable).waits _ hwait he hall
  by_cases hmem : t ∈ [Tid.sys 0, .sys 1]
  · rcases List.mem_cons.mp hmem with rfl | hmem
    · exact absurd (h₀.symm.trans ht) (by simp)
    · rw [List.mem_singleton.mp hmem] at ht
      exact absurd (h₁.symm.trans ht) (by simp)
  · rw [idle_of_onlyBy hs (fun _ _ h => h) t hmem] at ht
    cases ht

end Driver

end VirtualDisk
