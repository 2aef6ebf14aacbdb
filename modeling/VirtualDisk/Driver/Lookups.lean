import VirtualDisk.Driver.Deletion
import VirtualDisk.Driver.Serials

/-!
# Driver/Lookups — the searches by handle

`Bus_AddDisk` passes over a surprise-removed PDO, `Bus_ProcessReply` and `Bus_RemoveDisk` do not.
Between handlers the two searches run undisturbed, so where they end is decided by the list alone.
-/

namespace VirtualDisk

open Machinery

variable {t t₂ : Tid} {a : Action} {b b' : Bus} {pc pc' : Pc} {p q : PdoId}

/-! ## Between handlers -/

/-- The thread's ADD_DISK request passed the test of the FDO's state. -/
def Pc.inAddDisk : Pc → Bool
  | .addUnique _ | .addCreate _ | .addInsert _ => true
  | _ => false

@[simp] theorem Pc.inAddDisk_nextReturn (k : NextCaller) : (nextReturn k).inAddDisk = false := by
  cases k <;> rfl

@[simp] theorem Pc.inAddDisk_destroyReturn (k : DestroyCaller) :
    (destroyReturn k).inAddDisk = false := by
  cases k <;> rfl

theorem Pc.rest_of_inAddDisk (h : pc.inAddDisk = true) : pc.rest = false := by
  cases pc <;> first | rfl | cases h

theorem Pc.rest_of_inFdoRemove (h : pc.inFdoRemove = true) : pc.rest = false := by
  cases pc <;> first | rfl | cases h

theorem Pc.rest_of_locked (h : pc.locked = some p) : pc.rest = false := by
  cases pc <;> first | rfl | cases h

namespace Moves

/-- A section of the PDO lock ends with its release. -/
theorem unlocks (m : Moves t b a pc b' pc') (h : pc.locked = some p) :
    (b'.pdos p).pdoLock = none ∨ pc'.locked = some p := by
  cases m
  all_goals first
    | exact .inr h
    | cases h
  all_goals simp

/-- A free PDO lock is taken by a thread that enters a section of it. -/
theorem takes (m : Moves t b a pc b' pc') (hp : p < b.pdoCount) (h : (b.pdos p).pdoLock = none)
    (h' : (b'.pdos p).pdoLock = some t₂) : t₂ = t ∧ pc'.locked = some p := by
  have hne : p ≠ b.pdoCount := Nat.ne_of_lt hp
  cases m
  all_goals simp [Function.update_apply, hne, h] at h'
  all_goals try split at h'
  all_goals simp_all [Pc.locked]

/-- The mutex is held to the end of the FDO's REMOVE_DEVICE. -/
theorem unlocksMutex (m : Moves t b a pc b' pc') (h : pc.inFdoRemove = true) :
    b'.fdo.mutex = none ∨ pc'.inFdoRemove = true := by
  cases m
  case fdoLoopEnd => exact .inl rfl
  case destroyDelete => exact .inr (by rwa [Pc.inFdoRemove_destroyReturn])
  all_goals first
    | exact .inr h
    | exact .inr rfl
    | cases h

/-- The mutex stays taken only where the FDO's REMOVE_DEVICE takes it. -/
theorem mutex (m : Moves t b a pc b' pc') (h : b'.fdo.mutex = some t₂) :
    b.fdo.mutex = some t₂ ∨ (t₂ = t ∧ pc'.inFdoRemove = true) := by
  cases m
  case fdoLock => exact .inr ⟨(Option.some.inj h).symm, rfl⟩
  case fdoLoopEnd => cases h
  all_goals exact .inl h

/-- An ADD_DISK request passes the test of the FDO's state once. -/
theorem enters_add (m : Moves t b a pc b' pc') (h : pc'.inAddDisk = true) :
    pc.inAddDisk = true ∨ b'.fdo.devicePnPState ≠ .deleted := by
  cases m
  case callAddDisk hd => exact .inr hd
  all_goals first
    | exact .inl h
    | cases h
    | (rw [Pc.inAddDisk_nextReturn] at h; cases h)
    | (rw [Pc.inAddDisk_destroyReturn] at h; cases h)

/-- The FDO is deleted by its REMOVE_DEVICE. -/
theorem deletesFdo (m : Moves t b a pc b' pc') (h : b'.fdo.devicePnPState = .deleted) :
    b.fdo.devicePnPState = .deleted ∨ (pc = .fdoRemove ∧ pc' = .fdoLock) := by
  cases m
  case fdoRemove => exact .inr ⟨rfl, rfl⟩
  case fdoSurprise => cases h
  all_goals exact .inl h

/-- The FDO's REMOVE_DEVICE empties the list before it ends. -/
theorem empties (m : Moves t b a pc b' pc') (h : pc.inFdoRemove = true)
    (h' : pc'.inFdoRemove = false) : b'.fdo.listOfPDOs = [] := by
  cases m
  case fdoLoopEnd hl => exact hl
  case destroyDelete =>
    rw [Pc.inFdoRemove_destroyReturn] at h'
    exact absurd (h.symm.trans h') (by simp)
  all_goals first
    | (cases h; done)
    | cases h'
    | exact absurd (h.symm.trans h') (by simp)

end Moves

/-! ## What a search finds -/

namespace Bus

/-- The PDOs on the list before this one. -/
def before (b : Bus) (p : PdoId) : List PdoId := b.fdo.listOfPDOs.takeWhile (· ≠ p)

/-- A search finds an element when none before it passes the test. -/
theorem find?_eq_some_iff {l : List PdoId} {f : PdoId → Bool} (hp : p ∈ l) (hf : f p = true) :
    l.find? f = some p ↔ ∀ q ∈ l.takeWhile (· ≠ p), f q = false := by
  induction l with
  | nil => cases hp
  | cons q l ih =>
    rcases eq_or_ne q p with rfl | hne
    · simp [hf]
    · have hp : p ∈ l := (List.mem_cons.mp hp).resolve_left (Ne.symm hne)
      cases hq : f q
      · simp [hq, hne, ih hp]
      · simp [hq, hne]

/-- **The search by serial number** finds the PDO when no other one of that number is before it. -/
theorem findPdo_eq_some (hp : p ∈ b.fdo.listOfPDOs) :
    b.findPdo (b.pdos p).serialNo = some p ↔
      ∀ q ∈ b.before p, (b.pdos q).serialNo ≠ (b.pdos p).serialNo := by
  rw [findPdo, find?_eq_some_iff hp (by simp)]
  simp [before]

/-- The search by the serial number of a PDO on the list finds one. -/
theorem exists_findPdo (hp : p ∈ b.fdo.listOfPDOs) :
    ∃ q, b.findPdo (b.pdos p).serialNo = some q :=
  Option.isSome_iff_exists.mp (List.find?_isSome.mpr ⟨p, hp, by simp⟩)

end Bus

/-! ## The locks between handlers -/

namespace Driver

variable {s s' : Driver} {C : Driver → Action → Prop}

/-- A lock that is taken is held by a thread inside a section of it. -/
structure Holding (s : Driver) : Prop where
  pdo : ∀ p t, p < s.bus.pdoCount → (s.bus.pdos p).pdoLock = some t → (s.calls t).locked = some p
  mutex : ∀ t, s.bus.fdo.mutex = some t → (s.calls t).inFdoRemove = true

/-- A move keeps the holders. -/
theorem Holding.move (h : s.Holding) (hl : s.Linked) (hk : s.Locked)
    (m : Moves t s.bus a (s.calls t) b' pc') : (s.put t (b', pc')).Holding where
  pdo p t₂ hlt hp := by
    have hp : (b'.pdos p).pdoLock = some t₂ := hp
    rcases Nat.lt_or_ge p s.bus.pdoCount with hold | hge
    · rcases m.pdoLock hold with heq | ⟨hfree, -⟩ | hpc
      · have ht₂ := h.pdo p t₂ hold (heq ▸ hp)
        rcases eq_or_ne t₂ t with rfl | hne
        · rw [put_calls_self]
          exact (m.unlocks ht₂).resolve_left fun hnone => by cases hnone.symm.trans hp
        · rwa [put_calls_of_ne s hne]
      · obtain ⟨rfl, hpc'⟩ := m.takes hold hfree hp
        rwa [put_calls_self]
      · rcases m.unlocks hpc with hnone | hpc'
        · rw [hnone] at hp
          cases hp
        · have hheld := (hk.move hl m).held t p (by rwa [put_calls_self])
          obtain rfl : t = t₂ := Option.some.inj (hheld.symm.trans hp)
          rwa [put_calls_self]
    · obtain ⟨-, dd, -, -, -, hdd⟩ := m.creates hlt hge
      rw [hdd] at hp
      cases hp
  mutex t₂ hm := by
    rcases m.mutex hm with hold | ⟨rfl, hpc'⟩
    · have ht₂ := h.mutex t₂ hold
      rcases eq_or_ne t₂ t with rfl | hne
      · rw [put_calls_self]
        exact (m.unlocksMutex ht₂).resolve_left fun hnone => by cases hnone.symm.trans hm
      · rwa [put_calls_of_ne s hne]
    · rwa [put_calls_self]

/-- The locks are held from inside their sections, in every state reached. -/
theorem holding (h : lts.Reach C s) : s.Holding := by
  refine h.invariant (I := Holding) ?_ fun s a s' hr hi hC hs => ?_
  · refine ⟨fun p t hlt => ?_, fun t ht => ?_⟩
    · exact absurd hlt (Nat.not_lt_zero p)
    · cases ht
  · rcases step_moves hs with ⟨t, b', pc', m, rfl⟩ | ⟨m, f, -, rfl⟩ | ⟨e, -, -, rfl⟩
    · exact hi.move (linked hr) (locked hr) m
    · exact ⟨hi.1, hi.2⟩
    · exact ⟨hi.1, hi.2⟩

/-- One handler is under way at most, and the FDO's REMOVE_DEVICE leaves an empty list for good. -/
structure Emptied (s : Driver) : Prop where
  alone : s.OneHandler
  adding : s.bus.fdo.devicePnPState = .deleted → ∀ t, (s.calls t).inAddDisk = false
  emptied : s.bus.fdo.devicePnPState = .deleted → (∀ t, (s.calls t).inFdoRemove = false) →
    s.bus.fdo.listOfPDOs = []

/-- A move that begins no handler beside another keeps the list empty. -/
theorem Emptied.move (h : s.Emptied) (hseq : s.Sequential a)
    (m : Moves t s.bus a (s.calls t) b' pc') : (s.put t (b', pc')).Emptied where
  alone := h.alone.move hseq m
  adding hd := by
    have hd : b'.fdo.devicePnPState = .deleted := hd
    refine forall_update (L := fun _ (pc : Pc) => pc.inAddDisk = false) ?_ fun t₂ hne => ?_
    · by_contra hpc'
      rcases m.enters_add (by simpa using hpc') with hpc | hnot
      · rcases m.deletesFdo hd with hold | ⟨heq, -⟩
        · exact absurd ((h.adding hold t).symm.trans hpc) (by simp)
        · rw [heq] at hpc
          cases hpc
      · exact hnot hd
    · rcases m.deletesFdo hd with hold | ⟨heq, heq'⟩
      · exact h.adding hold t₂
      · by_contra hadding
        have hrest := Pc.rest_of_inAddDisk (by simpa using hadding)
        have := (h.alone.others hseq m hne hrest).2
        rw [heq'] at this
        cases this
  emptied hd hnone := by
    have hpc' : pc'.inFdoRemove = false := by simpa using hnone t
    rcases m.deletesFdo hd with hold | ⟨-, heq'⟩
    · by_cases hpc : (s.calls t).inFdoRemove = true
      · exact m.empties hpc hpc'
      · have hlist : s.bus.fdo.listOfPDOs = [] := by
          refine h.emptied hold fun t₂ => ?_
          rcases eq_or_ne t₂ t with rfl | hne
          · simpa using hpc
          · have := hnone t₂
            rwa [put_calls_of_ne s hne] at this
        refine List.eq_nil_iff_forall_not_mem.mpr fun p hp => ?_
        rcases m.mem_listOfPDOs hp with hmem | heq
        · rw [hlist] at hmem
          cases hmem
        · have := h.adding hold t
          rw [heq] at this
          cases this
    · rw [heq'] at hpc'
      cases hpc'

/-- The list is empty once the FDO's REMOVE_DEVICE has ended, in every run of one handler after
another. -/
theorem emptied (h : lts.Reach Sequential s) : s.Emptied := by
  refine h.invariant (I := Emptied) ?_ fun s a s' hr hi hC hs => ?_
  · refine ⟨fun t t' ht => ?_, fun hd => ?_, fun hd => ?_⟩
    · cases ht
    · cases hd
    · cases hd
  · rcases step_moves hs with ⟨t, b', pc', m, rfl⟩ | ⟨m, f, -, rfl⟩ | ⟨e, -, -, rfl⟩
    · exact hi.move hC m
    · exact ⟨hi.1, hi.2, hi.3⟩
    · exact ⟨hi.1, hi.2, hi.3⟩

/-! ## The two searches -/

/-- The reply is taken for the PDO's current IRP, which is completed. -/
def AnswersReply (s : Driver) (t : Tid) (p : PdoId) : Prop :=
  ∀ (rep : Tagged BusenumReply) (i : IrpId), rep.val.handle = (s.bus.pdos p).serialNo →
    (s.bus.pdos p).currentIrp = some i →
    ∃ s', lts.exec (fun _ _ => true) (.call t (.sendReply rep) :: steps t 3) s = some s' ∧
      s'.bus = (s.bus.acceptReply p i rep).log (.complete i)

/-- `Bus_RemoveDisk` requests the eject of the PDO. -/
def RequestsEject (s : Driver) (t : Tid) (p : PdoId) : Prop :=
  ∃ s', lts.exec (fun _ _ => true)
      (.call t (.removeDisk (s.bus.pdos p).serialNo) :: steps t 1) s = some s' ∧
    s'.bus = s.bus.resetRemoveEvent p

/-- Nothing disturbs a search: no lock is held, and the FDO is not deleted while its list holds a
PDO. -/
structure Undisturbed (s : Driver) : Prop where
  mutex : s.bus.fdo.mutex = none
  pdoLock : ∀ p ∈ s.bus.fdo.listOfPDOs, (s.bus.pdos p).pdoLock = none
  counted : ∀ p ∈ s.bus.fdo.listOfPDOs,
    s.bus.fdo.devicePnPState ≠ .deleted ∧ s.bus.fdo.numPDOs ≠ 0

/-- **Between handlers a search is undisturbed.** -/
theorem undisturbed (h : lts.Reach Sequential s) (hrest : ∀ t, (s.calls t).rest = true) :
    s.Undisturbed where
  mutex := by
    by_contra hm
    obtain ⟨t, ht⟩ := Option.ne_none_iff_exists'.mp hm
    have := Pc.rest_of_inFdoRemove ((holding h).mutex t ht)
    exact absurd ((hrest t).symm.trans this) (by simp)
  pdoLock p hp := by
    by_contra hm
    obtain ⟨t, ht⟩ := Option.ne_none_iff_exists'.mp hm
    have := Pc.rest_of_locked ((holding h).pdo p t ((linked h).known hp).1 ht)
    exact absurd ((hrest t).symm.trans this) (by simp)
  counted p hp := by
    have hd : s.bus.fdo.devicePnPState ≠ .deleted := by
      intro hd
      have hnil := (emptied h).emptied hd fun t => by
        by_contra ht
        have := Pc.rest_of_inFdoRemove (by simpa using ht)
        exact absurd ((hrest t).symm.trans this) (by simp)
      rw [hnil] at hp
      cases hp
    refine ⟨hd, fun hn => ?_⟩
    have hle := (removing h).length_le (linked h) hd
    rw [hn] at hle
    rw [List.length_eq_zero_iff.mp (Nat.le_zero.mp hle)] at hp
    cases hp

/-- The search of `Bus_RemoveDisk`, run undisturbed. -/
theorem exec_removeDisk (h : s.Undisturbed) (ht : s.calls t = .idle)
    (hp : p ∈ s.bus.fdo.listOfPDOs) (hq : s.bus.findPdo (s.bus.pdos p).serialNo = some q) :
    lts.exec (fun _ _ => true) (.call t (.removeDisk (s.bus.pdos p).serialNo) :: steps t 1) s =
      some ((s.put t (s.bus, .removeDisk (s.bus.pdos p).serialNo)).put t
        (s.bus.resetRemoveEvent q, .ret statusSuccess)) := by
  obtain ⟨hd, hn⟩ := h.counted p hp
  simp [Lts.exec, lts, step, ht, Bus.enter, Bus.dispatch, hd, steps, Pc.step, Bus.removeDiskStep,
    h.mutex, hn, hq]

/-- The search of `Bus_ProcessReply` and the reply's PDOLock section, run undisturbed. -/
theorem exec_sendReply {rep : Tagged BusenumReply} {i : IrpId} (h : s.Undisturbed)
    (ht : s.calls t = .idle) (hp : p ∈ s.bus.fdo.listOfPDOs)
    (hq : s.bus.findPdo rep.val.handle = some p) (hi : (s.bus.pdos p).currentIrp = some i) :
    ∃ s', lts.exec (fun _ _ => true) (.call t (.sendReply rep) :: steps t 3) s = some s' ∧
      s'.bus = (s.bus.acceptReply p i rep).log (.complete i) := by
  obtain ⟨hd, hn⟩ := h.counted p hp
  simp [Lts.exec, lts, step, ht, Bus.enter, Bus.dispatch, hd, steps, Pc.step, Bus.replyFindStep,
    h.mutex, hn, hq, Bus.replyTakeStep, h.pdoLock p hp, hi]

/-- **The searches agree on the live disk** exactly when no PDO before it on the list has its
serial number. -/
theorem lookups_agree (h : lts.Reach Sequential s) (hrest : ∀ t, (s.calls t).rest = true)
    (ht : s.calls t = .idle) (hp : s.bus.Live p) :
    (s.AnswersReply t p ∧ s.RequestsEject t p) ↔
      ∀ q ∈ s.bus.before p, (s.bus.pdos q).serialNo ≠ (s.bus.pdos p).serialNo := by
  have hu := undisturbed h hrest
  rw [← Bus.findPdo_eq_some hp.1]
  constructor
  · rintro ⟨-, s', hs', hbus⟩
    obtain ⟨q, hq⟩ := Bus.exists_findPdo hp.1
    rw [exec_removeDisk hu ht hp.1 hq] at hs'
    obtain rfl := Option.some.inj hs'
    have htrace := congrArg Bus.trace hbus
    obtain ⟨rfl, -⟩ : q = p ∧ _ := by simpa using htrace
    exact hq
  · intro hfind
    refine ⟨fun rep i hrep hi => ?_, _, exec_removeDisk hu ht hp.1 hfind, rfl⟩
    exact exec_sendReply hu ht hp.1 (hrep ▸ hfind) hi

/-- A disk is surprise-removed, another is added under this number, and an IRP becomes current on
it. -/
def secondStarted (handle : ULONG) : List Action :=
  routine (.sys 0) (.addDisk (smallDisk 1 0)) 3 ++
    routine (.sys 0) (.pdoPnp 0 .surpriseRemoval) 1 ++
    routine (.sys 0) (.addDisk (smallDisk handle 1)) 3 ++
    routine (.sys 0) (.getRequest 0 0) 12 ++ routine (.sys 0) (.scsi 1 0 readSrb) 8

/-- The second disk is found under a number of its own. -/
theorem lookups_agree_second :
    ∃ s, lts.Reach Sequential s ∧ (s.bus.Live 1 ∧ (s.bus.pdos 1).currentIrp = some 0) ∧
      s.AnswersReply .run 1 ∧ s.RequestsEject .run 1 := by
  obtain ⟨s, hs, hlast, hlive, hcur, hbefore⟩ := lts.exists_reach
    (C := fun s a => solo (.sys 0) s a = true) (c := solo (.sys 0)) (fun _ _ ha => ha)
    (secondStarted 2)
    (fun s => (s.calls (.sys 0)).rest = true ∧ s.bus.Live 1 ∧
      (s.bus.pdos 1).currentIrp = some 0 ∧
      ∀ q ∈ s.bus.before 1, (s.bus.pdos q).serialNo ≠ (s.bus.pdos 1).serialNo)
    (by decide +kernel)
  have hseq : lts.Reach Sequential s :=
    hs.mono fun s a hr _ ha => sequential_of_solo hr (fun _ _ h => h) ha
  have hrun : s.calls .run = .idle :=
    idle_of_onlyBy hs (fun _ _ h => (Bool.and_eq_true_iff.mp h).1) .run (by decide)
  exact ⟨s, hseq, ⟨hlive, hcur⟩,
    (lookups_agree hseq (fun t => rest_of_solo hs (fun _ _ h => h) hlast) hrun hlive).mpr hbefore⟩

/-- **A reply for the new disk goes to the surprise-removed one**, which has no current IRP. -/
theorem not_lookups_agree : ¬ ∀ s t p, lts.Reach Sequential s → (∀ t, (s.calls t).rest = true) →
    s.calls t = .idle → s.bus.Live p → s.AnswersReply t p ∧ s.RequestsEject t p := by
  intro h
  obtain ⟨s, hs, hlast, hlive, hcur, hserial, hvanish⟩ := lts.exists_reach
    (C := fun s a => solo (.sys 0) s a = true) (c := solo (.sys 0)) (fun _ _ ha => ha)
    (secondStarted 1)
    (fun s => (s.calls (.sys 0)).rest = true ∧ s.bus.Live 1 ∧
      (s.bus.pdos 1).currentIrp = some 0 ∧ (s.bus.pdos 1).serialNo = 1 ∧
      (lts.exec (fun _ _ => true) (.call .run (.sendReply startedReply) :: steps .run 3) s).isNone)
    (by decide +kernel)
  have hseq : lts.Reach Sequential s :=
    hs.mono fun s a hr _ ha => sequential_of_solo hr (fun _ _ h => h) ha
  have hrun : s.calls .run = .idle :=
    idle_of_onlyBy hs (fun _ _ h => (Bool.and_eq_true_iff.mp h).1) .run (by decide)
  obtain ⟨s', hs', -⟩ := (h s .run 1 hseq (fun t => rest_of_solo hs (fun _ _ h => h) hlast) hrun
    hlive).1 startedReply 0 hserial.symm hcur
  rw [hs'] at hvanish
  cases hvanish

end Driver

end VirtualDisk
