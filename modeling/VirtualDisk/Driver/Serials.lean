import VirtualDisk.Driver.Ownership

/-!
# Driver/Serials — serial numbers on the bus

`Bus_AddDisk` searches the list for its serial number in one critical section and
`Bus_InitializePdo` puts the new PDO on the list in another.  In between the number is *claimed*.
-/

namespace VirtualDisk

open Machinery

variable {t : Tid} {a : Action} {b b' : Bus} {pc pc' : Pc} {p q : PdoId} {handle : ULONG}

/-- A PDO that the search of `Bus_AddDisk` does not pass over. -/
def Bus.Live (b : Bus) (p : PdoId) : Prop :=
  p ∈ b.fdo.listOfPDOs ∧ (b.pdos p).devicePnPState ≠ .surpriseRemovePending

instance (b : Bus) (p : PdoId) : Decidable (b.Live p) := by unfold Bus.Live; infer_instance

/-- The serial number a thread's ADD_DISK request is going to put on the list: its search is past,
the insertion is to come. -/
def Pc.claims (b : Bus) : Pc → Option ULONG
  | .addCreate dd => some dd.handle
  | .addInsert p => some (b.pdos p).serialNo
  | _ => none

/-- The PDO whose PnP state the step sets to something else than `SurpriseRemovePending`. -/
def Pc.revives (b : Bus) : Pc → Option PdoId
  | .pdoPnp p m =>
    if (m.states (b.pdos p)).1 = .surpriseRemovePending then none else some p
  | .pdoRemove p => if (b.pdos p).reportedMissing || (b.pdos p).present then some p else none
  | _ => none

@[simp] theorem Pc.claims_nextReturn (k : NextCaller) : (nextReturn k).claims b = none := by
  cases k <;> rfl

@[simp] theorem Pc.claims_destroyReturn (k : DestroyCaller) :
    (destroyReturn k).claims b = none := by
  cases k <;> rfl

theorem Bus.not_unique (h : b.Live p) : b.unique (b.pdos p).serialNo = false := by
  simp only [unique, List.all_eq_false]
  exact ⟨p, h.1, by simp [h.2]⟩

namespace Moves

/-- A surprise-removed PDO stays so, unless the step moves its state. -/
theorem surpriseRemoved (m : Moves t b a pc b' pc') (hp : p < b.pdoCount)
    (hs : (b.pdos p).devicePnPState = .surpriseRemovePending)
    (hs' : (b'.pdos p).devicePnPState ≠ .surpriseRemovePending) : pc.revives b = some p := by
  have hne : p ≠ b.pdoCount := Nat.ne_of_lt hp
  cases m
  case pdoPnp q m _ =>
    rcases eq_or_ne p q with rfl | hpq
    · simpa [Pc.revives] using hs'
    · exact absurd hs (by simpa [hpq] using hs')
  case pdoRemoveOrphan q _ hr _ =>
    rcases eq_or_ne p q with rfl | hpq
    · simp [Pc.revives, hr]
    · exact absurd hs (by simpa [hpq] using hs')
  case pdoRemoveMissing q _ hr _ =>
    rcases eq_or_ne p q with rfl | hpq
    · simp [Pc.revives, hr]
    · exact absurd hs (by simpa [hpq] using hs')
  case pdoRemovePresent q _ _ hpr =>
    rcases eq_or_ne p q with rfl | hpq
    · simp [Pc.revives, hpr]
    · exact absurd hs (by simpa [hpq] using hs')
  all_goals refine absurd hs' (not_not.mpr ?_)
  all_goals simp [Function.update_apply, hne, hs]
  all_goals try split
  all_goals simp_all

/-- **A PDO becomes live** by its insertion, or when its state is moved. -/
theorem live (m : Moves t b a pc b' pc') (hp : p ∈ b.fdo.listOfPDOs → p < b.pdoCount)
    (h : b'.Live p) :
    b.Live p ∨ pc = .addInsert p ∨
    (p ∈ b.fdo.listOfPDOs ∧ (b.pdos p).devicePnPState = .surpriseRemovePending ∧
      pc.revives b = some p) := by
  rcases m.mem_listOfPDOs h.1 with hmem | hpc
  · by_cases hs : (b.pdos p).devicePnPState = .surpriseRemovePending
    · exact .inr (.inr ⟨hmem, hs, m.surpriseRemoved (hp hmem) hs h.2⟩)
    · exact .inl ⟨hmem, hs⟩
  · exact .inr (.inl hpc)

/-- **A number is claimed** by a search that did not find it, and stays claimed when the PDO is
created. -/
theorem claims (m : Moves t b a pc b' pc') (h : pc'.claims b' = some handle) :
    (∃ dd, pc = .addCreate dd ∧ dd.handle = handle) ∨ (b' = b ∧ b.unique handle = true) := by
  cases m
  case addUnique hu =>
    obtain rfl := Option.some.inj h
    exact .inr ⟨rfl, hu⟩
  case addCreate dd => exact .inl ⟨dd, rfl, by simpa [Pc.claims, Bus.newPdo] using h⟩
  all_goals first
    | cases h
    | (rw [Pc.claims_nextReturn] at h; cases h)
    | (rw [Pc.claims_destroyReturn] at h; cases h)

end Moves

namespace Driver

variable {s s' : Driver} {C : Driver → Action → Prop}

/-- **Serial numbers are unique** among the PDOs that were not surprise-removed. -/
def UniqueSerials (s : Driver) : Prop :=
  ∀ p q, s.bus.Live p → s.bus.Live q → (s.bus.pdos p).serialNo = (s.bus.pdos q).serialNo → p = q

/-- Another PDO has the serial number of this one, or a thread is about to give it to a new one. -/
def Taken (s : Driver) (p : PdoId) : Prop :=
  (∃ q, q ≠ p ∧ s.bus.Live q ∧ (s.bus.pdos q).serialNo = (s.bus.pdos p).serialNo) ∨
  ∃ t, (s.calls t).claims s.bus = some (s.bus.pdos p).serialNo

/-- **No number is given twice**: a PDO is put on the list while no other request has claimed its
number, and no PDO on the list leaves the state `SurpriseRemovePending` while its number is taken
again. -/
def GivesOnce (s : Driver) : Action → Prop
  | .step t _ =>
    (∀ p, s.calls t = .addInsert p → ∀ t₂, t₂ ≠ t →
      (s.calls t₂).claims s.bus ≠ some (s.bus.pdos p).serialNo) ∧
    (∀ p ∈ s.bus.fdo.listOfPDOs, (s.bus.pdos p).devicePnPState = .surpriseRemovePending →
      (s.calls t).revives s.bus = some p → ¬ s.Taken p)
  | _ => True

/-- The serial numbers, on the list and claimed. -/
structure Serials (s : Driver) : Prop where
  unique : s.UniqueSerials
  claimed : ∀ t handle, (s.calls t).claims s.bus = some handle →
    ∀ p, s.bus.Live p → (s.bus.pdos p).serialNo ≠ handle

/-- A PDO on the list was created. -/
theorem Linked.lt (h : s.Linked) (hp : s.bus.Live p) : p < s.bus.pdoCount := (h.known hp.1).1

/-- What another thread has claimed stays claimed, under the same number. -/
theorem claims_other (hl : s.Linked) (m : Moves t s.bus a (s.calls t) b' pc') (t₂ : Tid) :
    (s.calls t₂).claims b' = (s.calls t₂).claims s.bus := by
  cases hpc : s.calls t₂
  case addInsert p => exact congrArg some (m.identity (hl.adding t₂ p hpc).1).1
  all_goals rfl

/-- **A move that gives no number twice keeps them unique.** -/
theorem Serials.move (h : s.Serials) (hl : s.Linked) (hC : s.GivesOnce a)
    (m : Moves t s.bus a (s.calls t) b' pc') : (s.put t (b', pc')).Serials := by
  have hlive : ∀ p, b'.Live p → _ := fun p hp => m.live (fun hmem => (hl.known hmem).1) hp
  -- the number of a PDO that is, or comes, on the list
  have hserial : ∀ p, b'.Live p → (b'.pdos p).serialNo = (s.bus.pdos p).serialNo := by
    intro p hp
    rcases hlive p hp with hold | hpc | ⟨hmem, -, -⟩
    · exact (m.identity (hl.lt hold)).1
    · exact (m.identity (hl.adding t p hpc).1).1
    · exact (m.identity (hl.known hmem).1).1
  have hstep : ∀ p, (s.calls t = .addInsert p ∨ (s.calls t).revives s.bus = some p) →
      ∃ ok, a = .step t ok := by
    rintro p (hpc | hpc) <;> cases hcalls : s.calls t <;> rw [hcalls] at m hpc <;>
      first
      | (cases hpc; done)
      | (cases m <;> exact ⟨_, rfl⟩)
  refine ⟨?_, ?_⟩
  · -- two live PDOs: at most one of them is new, and the other has another number
    have hnew : ∀ p q, b'.Live p → b'.Live q → ¬ s.bus.Live p → p ≠ q →
        (s.bus.pdos p).serialNo ≠ (s.bus.pdos q).serialNo := by
      intro p q hp hq hpold hne heq
      rcases hlive p hp with hold | hpc | ⟨hmem, hs, hrev⟩
      · exact hpold hold
      · rcases hlive q hq with hqold | hqc | ⟨-, -, hrev⟩
        · exact h.claimed t _ (by rw [hpc]; rfl) q hqold heq.symm
        · rw [hpc] at hqc
          exact hne (Pc.addInsert.inj hqc)
        · rw [hpc] at hrev
          cases hrev
      · obtain ⟨ok, rfl⟩ := hstep p (.inr hrev)
        rcases hlive q hq with hqold | hqc | ⟨-, -, hrev'⟩
        · exact hC.2 p hmem hs hrev (.inl ⟨q, hne.symm, hqold, heq.symm⟩)
        · rw [hqc] at hrev
          cases hrev
        · exact hne (Option.some.inj (hrev.symm.trans hrev'))
    intro p q (hp : b'.Live p) (hq : b'.Live q) heq
    have heq : (s.bus.pdos p).serialNo = (s.bus.pdos q).serialNo :=
      (hserial p hp).symm.trans (Eq.trans heq (hserial q hq))
    by_contra hne
    by_cases hpold : s.bus.Live p
    · by_cases hqold : s.bus.Live q
      · exact hne (h.unique p q hpold hqold heq)
      · exact hnew q p hq hp hqold (Ne.symm hne) heq.symm
    · exact hnew p q hp hq hpold hne heq
  · refine forall_update (L := fun _ (pc : Pc) => ∀ handle, pc.claims b' = some handle →
      ∀ p, b'.Live p → (b'.pdos p).serialNo ≠ handle) ?_ ?_
    · intro handle hclaim p hp
      rw [hserial p hp]
      rcases m.claims hclaim with ⟨dd, hpc, rfl⟩ | ⟨rfl, hu⟩
      · rcases hlive p hp with hold | hpc' | ⟨-, -, hrev⟩
        · exact h.claimed t _ (by rw [hpc]; rfl) p hold
        · rw [hpc] at hpc'
          cases hpc'
        · rw [hpc] at hrev
          cases hrev
      · rintro rfl
        rw [Bus.not_unique hp] at hu
        cases hu
    · intro t₂ hne handle hclaim p hp
      rw [claims_other hl m] at hclaim
      rw [hserial p hp]
      rintro rfl
      rcases hlive p hp with hold | hpc | ⟨hmem, hs, hrev⟩
      · exact h.claimed t₂ _ hclaim p hold rfl
      · obtain ⟨ok, rfl⟩ := hstep p (.inl hpc)
        exact hC.1 p hpc t₂ hne hclaim
      · obtain ⟨ok, rfl⟩ := hstep p (.inr hrev)
        exact hC.2 p hmem hs hrev (.inr ⟨t₂, hclaim⟩)

/-- The serial numbers in every run that gives none twice. -/
theorem serials (h : lts.Reach GivesOnce s) : s.Serials := by
  refine h.invariant (I := Serials) ?_ fun s a s' hr hi hC hs => ?_
  · refine ⟨fun p q hp => ?_, fun t handle ht => ?_⟩
    · exact absurd hp.1 List.not_mem_nil
    · cases ht
  · rcases step_moves hs with ⟨t, b', pc', m, rfl⟩ | ⟨m, f, -, rfl⟩ | ⟨e, -, -, rfl⟩
    · exact hi.move (linked hr) hC m
    · exact ⟨hi.1, hi.2⟩
    · exact ⟨hi.1, hi.2⟩

/-- **Serial numbers are unique on the bus**, in every run that gives none twice. -/
theorem unique_serials (h : lts.Reach GivesOnce s) : s.UniqueSerials := (serials h).unique

/-- A disk that was surprise-removed and added again under its number, both PDOs on the list. -/
theorem unique_serials_readded :
    ∃ s, lts.Reach GivesOnce s ∧
      (s.bus.fdo.listOfPDOs = [0, 1] ∧ (s.bus.pdos 0).serialNo = (s.bus.pdos 1).serialNo) ∧
      s.UniqueSerials := by
  obtain ⟨s, hs, hlist⟩ := lts.exists_reach
    (C := fun s a => a.onlyBy [.sys 0] = true ∧ (s.calls (.sys 0)).revives s.bus = none)
    (c := fun s a => a.onlyBy [.sys 0] && (s.calls (.sys 0)).revives s.bus = none)
    (by simp)
    (routine (.sys 0) (.addDisk (smallDisk 1 0)) 3 ++
      routine (.sys 0) (.pdoPnp 0 .surpriseRemoval) 1 ++
      routine (.sys 0) (.addDisk (smallDisk 1 1)) 3)
    (fun s => s.bus.fdo.listOfPDOs = [0, 1] ∧
      (s.bus.pdos 0).serialNo = (s.bus.pdos 1).serialNo)
    (by decide +kernel)
  have honce : lts.Reach GivesOnce s := by
    refine hs.mono fun s a hr _ ha => ?_
    cases a with
    | step t ok =>
      obtain rfl : t = .sys 0 := by simpa [Action.onlyBy, Action.thread] using ha.1
      refine ⟨fun p _ t₂ hne => ?_, fun p _ _ hrev => ?_⟩
      · rw [idle_of_onlyBy hr (fun _ _ h => h.1) t₂ (by simpa using hne)]
        intro ht₂
        cases ht₂
      · rw [ha.2] at hrev
        cases hrev
    | _ => trivial
  exact ⟨s, honce, hlist, unique_serials honce⟩

/-- **Two ADD_DISK requests with one handle both succeed**: each has searched the list before the
other's PDO is on it. -/
theorem not_unique_serials : ¬ ∀ s, lts.Reachable s → s.UniqueSerials := by
  intro h
  obtain ⟨s, hs, hp, hq, heq⟩ := lts.exists_reachable
    (.call (.sys 0) (.addDisk (smallDisk 1 0)) :: steps (.sys 0) 1 ++
      .call (.sys 1) (.addDisk (smallDisk 1 1)) :: steps (.sys 1) 1 ++
      steps (.sys 0) 2 ++ steps (.sys 1) 2)
    (fun s => s.bus.Live 0 ∧ s.bus.Live 1 ∧ (s.bus.pdos 0).serialNo = (s.bus.pdos 1).serialNo)
    (by decide +kernel)
  exact absurd (h s hs 0 1 hp hq heq) (by decide)

end Driver

end VirtualDisk
