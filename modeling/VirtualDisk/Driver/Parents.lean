import VirtualDisk.Driver.Balance

/-!
# Driver/Parents — the parent pointer of a disk

A disk's routines reach the bus device through `ParentFdo`.  The FDO's handlers clear the pointer of
a child they leave behind, and the FDO's REMOVE_DEVICE deletes the object it points to.  Where no
child is left behind and the bus device goes last, every use of the pointer finds the bus device.
-/

namespace VirtualDisk

open Machinery

variable {t : Tid} {a : Action} {b b' : Bus} {pc pc' : Pc} {p q : PdoId}
variable {f f' : FdoDevice} {fr fr' : Frame} {d : DeviceId} {ok : Bool} {act : DispatchAction}

namespace Pc

/-- The disk whose parent the thread is about to use, or holds in a local variable. -/
def usesParent : Pc → Option PdoId
  | .startPacket p _ | .startRequest p _ | .startSetup p _ _ => some p
  | .nextPacket p _ | .nextRequest p _ | .nextIrp p _ _ | .nextSetup p _ _ _ => some p
  | .nextPutBack p _ _ => some p
  | .queryCaps p _ | .pdoUnlink p => some p
  | _ => none

/-- A disk's REMOVE_DEVICE, after the destruction: `fdoData` is read. -/
def afterRemoval : Pc → Bool
  | .pdoRemoved | .pdoSignal => true
  | _ => false

/-- The destruction of an orphan, after which `fdoData` is read unassigned. -/
def orphaned : Pc → Bool
  | .destroyTake _ .orphan | .destroyComplete _ _ .orphan | .destroyDrain _ .orphan => true
  | .destroyDrained _ _ .orphan | .destroyUnmap _ .orphan | .destroySignal _ .orphan => true
  | .destroyDelete _ .orphan => true
  | _ => false

/-- A disk's REMOVE_DEVICE is under way. -/
def removing : Pc → Bool
  | .pdoRemove _ | .pdoUnlink _ | .pdoRemoved | .pdoSignal => true
  | .destroyTake _ k | .destroyComplete _ _ k | .destroyDrain _ k | .destroyDrained _ _ k => k ≠ .fdo
  | .destroyUnmap _ k | .destroySignal _ k | .destroyDelete _ k => k ≠ .fdo
  | _ => false

/-- `Bus_AddDisk` is under way. -/
def creating : Pc → Bool
  | .addUnique _ | .addCreate _ | .addInsert _ => true
  | _ => false

end Pc

namespace Dispatch

/-- **The parent pointer is valid wherever it is used**: it denotes the bus device, which is not
deleted, and no routine has found it to be NULL or unassigned. -/
structure ParentsValid (s : Dispatch) : Prop where
  uses : ∀ t p, (s.calls t).usesParent = some p → (s.bus.pdos p).deleted = false →
    (s.bus.pdos p).parentFdo = some .fdo ∧ s.device.deleted = false
  removed : ∀ t, (s.calls t).afterRemoval = true → s.device.deleted = false
  valid : ∀ t i, s.calls t ≠ .crash i

/-- **No child is left behind, and the bus device goes last**: the FDO's handlers make no orphan,
and its object is deleted when all disks are, with no REMOVE_DEVICE of a disk under way. -/
def keepsParents (s : Dispatch) : DispatchAction → Prop
  | .driver a => s.driver.NoOrphaning a
  | .step t _ => match s.frames t with
    | .delete => (∀ p, p < s.bus.pdoCount → (s.bus.pdos p).deleted = true) ∧
      ∀ t₂, (s.calls t₂).removing = false
    | _ => True
  | .send _ _ => True

end Dispatch

/-! ## What one step does -/

namespace Moves

/-- A parent pointer is cleared when an orphan is made. -/
theorem parentFdo (m : Moves t b a pc b' pc') (hlt : p < b.pdoCount)
    (hempty : pc = .fdoOrphan → b.fdo.listOfPDOs = [])
    (hhead : pc = .fdoLoop → ∀ q ∈ b.fdo.listOfPDOs.head?,
      (b.pdos q).devicePnPState ≠ .surpriseRemovePending) :
    (b'.pdos p).parentFdo = (b.pdos p).parentFdo := by
  have hne : p ≠ b.pdoCount := Nat.ne_of_lt hlt
  cases m
  all_goals first
    | rfl
    | exact frame_update PdoDeviceData.parentFdo rfl
    | skip
  all_goals simp [Function.update_apply, hne]
  all_goals split <;> simp_all

/-- A routine finds a parent pointer NULL or unassigned: of a disk that has none, or after the
destruction of an orphan. -/
theorem crash {i : Option IrpId} (m : Moves t b a pc b' pc') (h : pc' = .crash i) :
    pc.orphaned = true ∨ ∃ p ∈ pc.mentions, (b.pdos p).parentFdo = none := by
  cases m
  case startPacketCrash p _ _ _ hf => exact .inr ⟨p, List.mem_cons_self, hf⟩
  case nextPacketCrash p _ _ _ hf => exact .inr ⟨p, List.mem_cons_self, hf⟩
  case queryCapsCrash p _ hf => exact .inr ⟨p, List.mem_cons_self, hf⟩
  case destroyDelete p k =>
    cases k
    case orphan => exact .inl rfl
    all_goals cases h
  all_goals first
    | cases h
    | (rename NextCaller => k; cases k <;> cases h)

/-- An orphan's destruction begins with the REMOVE_DEVICE of a disk that has no parent. -/
theorem orphaned (m : Moves t b a pc b' pc') (h : pc'.orphaned = true) :
    pc.orphaned = true ∨ ∃ p ∈ pc.mentions, (b.pdos p).parentFdo = none := by
  cases m
  case pdoRemoveOrphan p _ _ hf => exact .inr ⟨p, List.mem_cons_self, hf⟩
  all_goals first
    | exact .inl h
    | cases h
    | (rename NextCaller => k; cases k <;> cases h)
    | (rename DestroyCaller => k; cases k <;> first | exact .inl rfl | cases h)

/-- A disk's REMOVE_DEVICE is sent to a disk that is not deleted. -/
theorem sends_removal (m : Moves t b a pc b' pc') (h : pc'.removing = true) :
    pc.removing = true ∨ ∃ p, p < b.pdoCount ∧ (b.pdos p).deleted = false := by
  cases m
  case callPdoRemove p hp =>
    exact .inr ⟨p, (Bus.known_of_exposed hp).1, by simpa using (Bool.and_eq_true_iff.mp hp).2⟩
  all_goals first
    | exact .inl h
    | cases h
    | exact .inl rfl
    | (rename NextCaller => k; cases k <;> cases h)
    | (rename DestroyCaller => k; cases k <;> first | exact .inl rfl | cases h)

/-- `Bus_AddDisk` is entered by its IOCTL. -/
theorem creating (m : Moves t b a pc b' pc') (h : pc'.creating = true) :
    pc.creating = true ∨ ∃ dd, a = .call t (.addDisk dd) := by
  cases m
  case callAddDisk dd _ => exact .inr ⟨dd, rfl⟩
  all_goals first
    | exact .inl rfl
    | cases h
    | (rename NextCaller => k; cases k <;> cases h)
    | (rename DestroyCaller => k; cases k <;> cases h)

end Moves

namespace Pc

theorem orphaned_of_entry (h : pc.entry = true) : pc.orphaned = false := by
  cases pc <;> first | rfl | cases h

theorem removing_of_entry (h : pc.entry = true) : pc.removing = false := by
  cases pc <;> first | rfl | cases h

theorem mem_mentions_of_usesParent (h : pc.usesParent = some p) : p ∈ pc.mentions := by
  cases pc <;> cases h <;> exact List.mem_cons_self

theorem removing_of_afterRemoval (h : pc.afterRemoval = true) : pc.removing = true := by
  cases pc <;> first | rfl | cases h

end Pc

namespace Turns

/-- `Bus_AddDisk` begins with the bus device's remove lock held. -/
theorem creating (m : Turns t b f act pc fr b' f' pc' fr') (h : fr.apart = true → pc = .idle)
    (hpc : pc'.creating = true) : fr'.holds .fdo = true := by
  have hidle : fr.apart = true → pc.creating = false := fun hap => by rw [h hap]; rfl
  cases m
  case begins =>
    rename IoRequest.device _ = _ => hd
    simp [Frame.holds, hd]
  all_goals first
    | cases hpc
    | exact absurd (hpc.symm.trans (hidle rfl)) (by simp)

/-- The bus device's remove lock is acquired while it is not removed. -/
theorem holds_fdo (m : Turns t b f act pc fr b' f' pc' fr') (h : fr'.holds .fdo = true) :
    fr.holds .fdo = true ∨ f.removed = false := by
  cases m
  case acquireFdo hr => exact .inr hr
  case acquirePdo hd => simp [Frame.holds, hd] at h
  case send => simp at h
  all_goals first
    | exact .inl h
    | cases h

/-- A removal is for good, and comes before the wait and the deletion. -/
theorem removed (m : Turns t b f act pc fr b' f' pc' fr')
    (h : f.removed = true ∨ fr' = .wait ∨ fr' = .delete ∨ f'.deleted = true)
    (hf : fr = .wait ∨ fr = .delete ∨ f.deleted = true → f.removed = true) :
    f'.removed = true := by
  cases m
  case send =>
    refine h.elim id fun h => hf (.inr (.inr ?_))
    rcases h with h | h | h
    · unfold IoRequest.start at h
      split at h <;> cases h
    · unfold IoRequest.start at h
      split at h <;> cases h
    · exact h
  all_goals simp_all
  all_goals exact h.elim id hf

/-- The bus device is deleted by its own step, and the wait for it ends with the lock free. -/
theorem deletes (m : Turns t b f act pc fr b' f' pc' fr') :
    (f'.deleted = true → f.deleted = true ∨ (fr = .delete ∧ ∃ ok, act = .step t ok)) ∧
    (fr' = .delete → f.removeLock = 0 ∧ fr = .wait) := by
  cases m
  case send =>
    refine ⟨.inl, fun h => ?_⟩
    unfold IoRequest.start at h
    split at h <;> cases h
  all_goals simp_all

end Turns

namespace Dispatch

variable {s s' : Dispatch}

/-- Every disk has its parent; a disk is created with the bus device's remove lock held; and once
the bus device is about to be deleted nobody holds that lock, or will. -/
structure Parented (s : Dispatch) : Prop where
  parent : ∀ p, p < s.bus.pdoCount → (s.bus.pdos p).parentFdo = some .fdo
  orphaned : ∀ t, (s.calls t).orphaned = false
  crash : ∀ t i, s.calls t ≠ .crash i
  creating : ∀ t, (s.calls t).creating = true → (s.frames t).holds .fdo = true
  tally : ∃ n, Tally (s.holders .fdo) n ∧ n ≤ s.device.removeLock
  removed : (∃ t, s.frames t = .wait) ∨ (∃ t, s.frames t = .delete) ∨ s.device.deleted = true →
    s.device.removed = true
  sealed : (∃ t, s.frames t = .delete) ∨ s.device.deleted = true →
    ∀ t, (s.frames t).holds .fdo = false
  closed : s.device.deleted = true →
    (∀ p, p < s.bus.pdoCount → (s.bus.pdos p).deleted = true) ∧
      ∀ t, (s.calls t).removing = false

/-- **A move inside the driver keeps the parents.** -/
theorem Parented.move {a₀ : Action} (h : s.Parented) (hf : s.Framed) (ha : s.admits a₀ = true)
    (hno : s.driver.NoOrphaning a₀) (m : Moves t s.bus a₀ (s.calls t) b' pc') :
    (s.move t (b', pc')).Parented := by
  have hnone : ∀ p ∈ (s.calls t).mentions, (s.bus.pdos p).parentFdo ≠ none := by
    intro p hp
    rw [h.parent p (hf.linked.mentions t p hp).1]
    exact Option.some_ne_none _
  have hfdo : (s.calls t = .fdoOrphan → s.bus.fdo.listOfPDOs = []) ∧
      (s.calls t = .fdoLoop → ∀ q ∈ s.bus.fdo.listOfPDOs.head?,
        (s.bus.pdos q).devicePnPState ≠ .surpriseRemovePending) := by
    constructor
    · intro hpc
      obtain ⟨ok, rfl⟩ := m.isStep (by rw [hpc]; rfl)
      exact hno.1 hpc
    · intro hpc
      obtain ⟨ok, rfl⟩ := m.isStep (by rw [hpc]; rfl)
      exact hno.2 hpc
  refine ⟨?_, ?_, ?_, ?_, h.tally, h.removed, h.sealed, fun hdel => ?_⟩
  · intro p hlt
    by_cases hold : p < s.bus.pdoCount
    · exact (m.parentFdo hold hfdo.1 hfdo.2).trans (h.parent p hold)
    · obtain ⟨-, dd, -, -, -, hdd⟩ := m.creates hlt (Nat.not_lt.mp hold)
      rw [move_bus, hdd]
      rfl
  · refine forall_update (L := fun _ (pc : Pc) => pc.orphaned = false) ?_ fun t₂ _ => h.orphaned t₂
    by_contra hpc
    rcases m.orphaned (by simpa using hpc) with hpc | ⟨p, hp, hnull⟩
    · exact absurd (h.orphaned t) (by simp [hpc])
    · exact hnone p hp hnull
  · refine forall_update (L := fun _ (pc : Pc) => ∀ i, pc ≠ .crash i) ?_ fun t₂ _ => h.crash t₂
    intro i hpc
    rcases m.crash hpc with hpc | ⟨p, hp, hnull⟩
    · exact absurd (h.orphaned t) (by simp [hpc])
    · exact hnone p hp hnull
  · refine forall_update (L := fun t (pc : Pc) => pc.creating = true →
      (s.frames t).holds .fdo = true) ?_ fun t₂ _ => h.creating t₂
    intro hpc
    rcases m.creating hpc with hpc | ⟨dd, rfl⟩
    · exact h.creating t hpc
    · cases ha
  · obtain ⟨hall, hrem⟩ := h.closed hdel
    -- no disk is created any more: that would take the bus device's remove lock
    have hcount : b'.pdoCount = s.bus.pdoCount := by
      rcases m.pdoCount with hc | ⟨-, hpc⟩
      · exact hc
      · have hpc' : pc'.creating = true := by rw [hpc]; rfl
        rcases m.creating hpc' with hcr | ⟨dd, rfl⟩
        · exact absurd (h.creating t hcr) (by simp [h.sealed (.inr hdel) t])
        · cases ha
    refine ⟨fun p hlt => ?_, ?_⟩
    · have hlt : p < s.bus.pdoCount := hcount ▸ hlt
      exact (m.ages hlt).deleted (hall p hlt)
    · refine forall_update (L := fun _ (pc : Pc) => pc.removing = false) ?_ fun t₂ _ => hrem t₂
      by_contra hpc
      rcases m.sends_removal (by simpa using hpc) with hpc | ⟨p, hlt, hnd⟩
      · exact absurd (hrem t) (by simp [hpc])
      · exact absurd (hnd.symm.trans (hall p hlt)) (by simp)

/-- **A turn in a dispatch routine keeps the parents.** -/
theorem Parented.turn (h : s.Parented) (hf : s.Framed) (hk : s.keepsParents act)
    (m : Turns t s.bus s.device act (s.calls t) (s.frames t) b' f' pc' fr') :
    (s.put t (b', f', pc', fr')).Parented := by
  classical
  have hwas : s.frames t = .wait ∨ s.frames t = .delete ∨ s.device.deleted = true →
      s.device.removed = true := by
    rintro (ht | ht | hdel)
    · exact h.removed (.inl ⟨t, ht⟩)
    · exact h.removed (.inr (.inl ⟨t, ht⟩))
    · exact h.removed (.inr (.inr hdel))
  -- when the wait for the lock ends, nobody holds it
  have hfree : s.device.removeLock = 0 → ∀ t₂, (s.frames t₂).holds .fdo = false := by
    intro hzero t₂
    obtain ⟨n, hn, hle⟩ := h.tally
    obtain rfl : n = 0 := le_antisymm (hzero ▸ hle) hn.nonneg
    simpa [holders] using hn.notMem t₂
  have hsealed : (∃ t₂, (s.put t (b', f', pc', fr')).frames t₂ = .delete) ∨ f'.deleted = true →
      s.device.removed = true ∧ ∀ t₂, (s.frames t₂).holds .fdo = false := by
    rintro (⟨t₂, ht₂⟩ | hdel)
    · rcases eq_or_ne t₂ t with rfl | hne
      · rw [put_frames_self] at ht₂
        obtain ⟨hzero, hwait⟩ := m.deletes.2 ht₂
        exact ⟨h.removed (.inl ⟨_, hwait⟩), hfree hzero⟩
      · rw [put_frames_of_ne s hne] at ht₂
        exact ⟨h.removed (.inr (.inl ⟨t₂, ht₂⟩)), h.sealed (.inl ⟨t₂, ht₂⟩)⟩
    · rcases m.deletes.1 hdel with hdel | ⟨hfr, -⟩
      · exact ⟨h.removed (.inr (.inr hdel)), h.sealed (.inr hdel)⟩
      · exact ⟨h.removed (.inr (.inl ⟨t, hfr⟩)), h.sealed (.inl ⟨t, hfr⟩)⟩
  have hremoving : (s.calls t).removing = false → pc'.removing = false := by
    intro hpc
    rcases m.pc_or_entry with heq | he
    · exact heq ▸ hpc
    · exact Pc.removing_of_entry he
  refine ⟨?_, ?_, ?_, ?_, ?_, ?_, ?_, fun hdel => ?_⟩
  · intro p hlt
    rw [put_bus, m.aside.parentFdo]
    exact h.parent p (m.aside.pdoCount ▸ hlt)
  · refine forall_update (L := fun _ (pc : Pc) => pc.orphaned = false) ?_ fun t₂ _ => h.orphaned t₂
    rcases m.pc_or_entry with heq | he
    · exact heq ▸ h.orphaned t
    · exact Pc.orphaned_of_entry he
  · refine forall_update (L := fun _ (pc : Pc) => ∀ i, pc ≠ .crash i) ?_ fun t₂ _ => h.crash t₂
    rintro i rfl
    rcases m.pc_or_entry with heq | he
    · exact h.crash t i heq.symm
    · cases he
  · intro t₂ hpc
    rcases eq_or_ne t₂ t with rfl | hne
    · rw [put_calls_self] at hpc
      rw [put_frames_self]
      exact m.creating (hf.idle t₂) hpc
    · rw [put_calls_of_ne s hne] at hpc
      rw [put_frames_of_ne s hne]
      exact h.creating t₂ hpc
  · obtain ⟨n, hn, hle⟩ := h.tally
    refine ⟨_, hn.move (t := t) (fun t₂ hne => ?_) rfl, ?_⟩
    · simp [holders, put_frames_of_ne s hne]
    · have hge := m.removeLock_ge
      by_cases hh : (s.frames t).holds .fdo = true <;> simp [holders, hh] at hge ⊢ <;> omega
  · rintro (⟨t₂, ht₂⟩ | ⟨t₂, ht₂⟩ | hdel)
    · rcases eq_or_ne t₂ t with rfl | hne
      · rw [put_frames_self] at ht₂
        exact m.removed (.inr (.inl ht₂)) hwas
      · rw [put_frames_of_ne s hne] at ht₂
        exact m.removed (.inl (h.removed (.inl ⟨t₂, ht₂⟩))) hwas
    · exact m.removed (.inl (hsealed (.inl ⟨t₂, ht₂⟩)).1) hwas
    · exact m.removed (.inr (.inr (.inr hdel))) hwas
  · intro hs
    obtain ⟨hremoved, hnone⟩ := hsealed hs
    refine forall_update (L := fun _ (fr : Frame) => fr.holds .fdo = false) ?_ fun t₂ _ => hnone t₂
    by_contra hfr
    rcases m.holds_fdo (by simpa using hfr) with hfr | hfr
    · exact absurd (hnone t) (by simp [hfr])
    · exact absurd (hremoved.symm.trans hfr) (by simp)
  · obtain ⟨hall, hrem⟩ : (∀ p, p < s.bus.pdoCount → (s.bus.pdos p).deleted = true) ∧
        ∀ t₂, (s.calls t₂).removing = false := by
      rcases m.deletes.1 hdel with hdel | ⟨hfr, ok, rfl⟩
      · exact h.closed hdel
      · simpa [keepsParents, hfr] using hk
    refine ⟨fun p hlt => ?_, ?_⟩
    · rw [put_bus, m.aside.deleted]
      exact hall p (m.aside.pdoCount ▸ hlt)
    · exact forall_update (L := fun _ (pc : Pc) => pc.removing = false) (hremoving (hrem t))
        fun t₂ _ => hrem t₂

/-- The parents are kept by every run that leaves no child behind and deletes the bus device
last. -/
theorem parented (h : lts.Reach keepsParents s) : s.Parented := by
  refine h.invariant (I := Parented) ?_ fun s a s' hr hi hk hs => ?_
  · refine ⟨fun p hp => absurd hp (Nat.not_lt_zero p), fun _ => rfl, fun t i hi => ?_,
      fun t ht => ?_, ⟨0, .empty fun t ht => ?_, le_rfl⟩, ?_, ?_, fun hd => ?_⟩
    · cases hi
    · cases ht
    · cases ht
    · rintro (⟨t, ht⟩ | ⟨t, ht⟩ | hd)
      · cases ht
      · cases ht
      · cases hd
    · exact fun _ _ => rfl
    · cases hd
  · rcases step_cases hs with ⟨a₀, t, b', pc', rfl, ha, m, rfl⟩ | ⟨t, b', f', pc', fr', m, rfl⟩ |
      ⟨x, g, rfl⟩ | ⟨e, rfl⟩
    · exact hi.move (framed hr) ha hk m
    · exact hi.turn (framed hr) hk m
    · exact ⟨hi.1, hi.2, hi.3, hi.4, hi.5, hi.6, hi.7, hi.8⟩
    · exact ⟨hi.1, hi.2, hi.3, hi.4, hi.5, hi.6, hi.7, hi.8⟩

/-- **The parent pointer is valid wherever it is used**, in every run that leaves no child behind
and deletes the bus device last. -/
theorem parents_valid (h : lts.Reach keepsParents s) : s.ParentsValid where
  uses t p ht hd := by
    have hlt := ((framed h).linked.mentions t p (Pc.mem_mentions_of_usesParent ht)).1
    refine ⟨(parented h).parent p hlt, ?_⟩
    by_contra hdel
    have := ((parented h).closed (by simpa using hdel)).1 p hlt
    exact absurd (hd.symm.trans this) (by simp)
  removed t ht := by
    by_contra hdel
    have := ((parented h).closed (by simpa using hdel)).2 t
    exact absurd ((Pc.removing_of_afterRemoval ht).symm.trans this) (by simp)
  valid := (parented h).crash

/-- The condition, as a test of a step of the thread `t₀` when no other thread acts. -/
def keepsParentsBy (t₀ : Tid) (s : Dispatch) (a : DispatchAction) : Bool :=
  a.onlyBy [t₀] && match a with
    | .driver (.step _ _) => match s.calls t₀ with
      | .fdoOrphan => s.bus.fdo.listOfPDOs = []
      | .fdoLoop => s.bus.fdo.listOfPDOs.head?.all fun q =>
        (s.bus.pdos q).devicePnPState ≠ .surpriseRemovePending
      | _ => true
    | .step _ _ => match s.frames t₀ with
      | .delete => (List.range s.bus.pdoCount).all fun p => (s.bus.pdos p).deleted
      | _ => true
    | _ => true

theorem keepsParents_of_by {C : Dispatch → DispatchAction → Prop} {t₀ : Tid} (h : lts.Reach C s)
    (hC : ∀ s a, C s a → keepsParentsBy t₀ s a = true) (hk : keepsParentsBy t₀ s act = true) :
    s.keepsParents act := by
  have honly : ∀ s a, keepsParentsBy t₀ s a = true → a.onlyBy [t₀] = true :=
    fun s a ha => (Bool.and_eq_true_iff.mp ha).1
  have hothers : ∀ t, t ≠ t₀ → s.calls t = .idle := fun t ht =>
    (idle_of_onlyBy h (fun s a ha => honly s a (hC s a ha)) t (by simpa using ht)).1
  cases act with
  | driver a =>
    cases a with
    | step t ok =>
      obtain rfl : t = t₀ := by
        simpa [DispatchAction.onlyBy, Action.onlyBy, Action.thread] using honly _ _ hk
      constructor
      · intro hpc
        simpa [keepsParentsBy, show s.calls t = .fdoOrphan from hpc, DispatchAction.onlyBy,
          Action.onlyBy, Action.thread] using hk
      · intro hpc q hq
        have hk := (Bool.and_eq_true_iff.mp hk).2
        simp only [show s.calls t = .fdoLoop from hpc] at hk
        simpa [show s.bus.fdo.listOfPDOs.head? = some q from hq] using hk
    | _ => trivial
  | send t j => trivial
  | step t ok =>
    obtain rfl : t = t₀ := by simpa [DispatchAction.onlyBy] using honly _ _ hk
    show match s.frames t with
      | .delete => (∀ p, p < s.bus.pdoCount → (s.bus.pdos p).deleted = true) ∧
        ∀ t₂, (s.calls t₂).removing = false
      | _ => True
    split
    · next hfr =>
      refine ⟨?_, fun t₂ => ?_⟩
      · simpa [keepsParentsBy, hfr, DispatchAction.onlyBy] using hk
      · rcases eq_or_ne t₂ t with rfl | hne
        · rw [(framed h).idle t₂ (by rw [hfr]; rfl)]
          rfl
        · rw [hothers t₂ hne]
          rfl
    · trivial

/-- A disk is added; the bus device is removed and deleted, and the disk with it. -/
theorem parents_valid_removed :
    ∃ s, lts.Reach keepsParents s ∧
      (s.device.deleted = true ∧ s.bus.pdoCount = 1 ∧ (s.bus.pdos 0).deleted = true) ∧
        s.ParentsValid := by
  obtain ⟨s, hs, hlast⟩ := lts.exists_reach
    (C := fun s a => keepsParentsBy (.sys 0) s a = true) (c := keepsParentsBy (.sys 0))
    (fun _ _ ha => ha)
    (request (.sys 0) (.fdoIoctl (.addDisk (smallDisk 1 0))) 3 ++
      request (.sys 0) (.fdoPnp .removeDevice) 8 ++ [.step (.sys 0) true])
    (fun s => s.device.deleted = true ∧ s.bus.pdoCount = 1 ∧ (s.bus.pdos 0).deleted = true)
    (by decide +kernel)
  have hkeeps : lts.Reach keepsParents s :=
    hs.mono fun _ _ hr _ ha => keepsParents_of_by hr (fun _ _ h => h) ha
  exact ⟨s, hkeeps, hlast, parents_valid hkeeps⟩

/-- **A disk whose parent was surprise-removed has no parent to start a packet with.** -/
theorem not_parents_valid : ¬ ∀ s, lts.Reachable s → s.ParentsValid := by
  intro h
  obtain ⟨s, hs, huse, hd, hnull⟩ := lts.exists_reachable
    (request (.sys 0) (.fdoIoctl (.addDisk (smallDisk 1 0))) 3 ++
      request (.sys 0) (.fdoPnp .surpriseRemoval) 1 ++
      [.driver (.call (.sys 0) (.scsi 0 0 readSrb)), .driver (.step (.sys 0) true),
        .driver (.step (.sys 0) true)])
    (fun s => (s.calls (.sys 0)).usesParent = some 0 ∧ (s.bus.pdos 0).deleted = false ∧
      (s.bus.pdos 0).parentFdo = none)
    (by decide +kernel)
  have hvalid := ((h s hs).uses _ _ huse hd).1
  rw [hnull] at hvalid
  cases hvalid

end Dispatch

end VirtualDisk
