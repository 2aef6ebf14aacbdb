import VirtualDisk.Machinery.Tally
import VirtualDisk.Driver.Dispatch

/-!
# Driver/Balance — who holds a remove lock

Every acquisition of a device's remove lock belongs to a dispatch routine that has not released it
yet, or to a disk's `CurrentIrp`.  The routine that takes `CurrentIrp` away takes its acquisition
over.  The count is this number unless a routine leaves by an exit without a release, or releases
what it has not acquired.
-/

namespace VirtualDisk

open Machinery

variable {t : Tid} {a : Action} {b b' : Bus} {pc pc' : Pc} {p q : PdoId}
variable {f f' : FdoDevice} {fr fr' : Frame} {d : DeviceId} {ok : Bool}

/-! ## The holders -/

/-- The thread is to release the disk's remove lock: between the acquisition and the release of
`Bus_Scsi`, or with the acquisition of a `CurrentIrp` it took. -/
def Pc.holds (p : PdoId) : Pc → Bool
  | .startPacket q _ | .startRequest q _ | .startInsert q _ | .startSetup q _ _ => p = q
  | .startFail q _ | .startComplete q _ _ => p = q
  | .scsiEnd q _ status | .scsiRelease q status => p = q && status ≠ statusNoSuchDevice
  | .replyComplete q _ | .replyRelease q | .destroyComplete q _ _ => p = q
  | _ => false

/-- `Bus_Scsi` is at its end without having acquired the lock. -/
def Pc.unmatched : Pc → Bool
  | .scsiEnd _ _ status | .scsiRelease _ status => status = statusNoSuchDevice
  | _ => false

/-- The dispatch routine is between its acquisition and its release. -/
def Frame.holds (d : DeviceId) : Frame → Bool
  | .body j | .inner j => j.device = d
  | .release d' => d' = d
  | _ => false

namespace Pc

theorem mem_mentions_of_holds (h : pc.holds p = true) : p ∈ pc.mentions := by
  cases pc <;> simp_all [holds, mentions]

@[simp] theorem holds_nextReturn (k : NextCaller) : (nextReturn k).holds p = false := by
  cases k <;> rfl

@[simp] theorem holds_of_entry (h : pc.entry = true) : pc.holds p = false := by
  cases pc <;> first | rfl | cases h

theorem unmatched_of_entry (h : pc.entry = true) : pc.unmatched = false := by
  cases pc <;> first | rfl | cases h

@[simp] theorem holds_destroyReturn (k : DestroyCaller) : (destroyReturn k).holds p = false := by
  cases k <;> rfl

end Pc

@[simp] theorem IoRequest.holds_start (j : IoRequest) : j.start.holds d = false := by
  unfold start
  split <;> rfl

namespace Bus

/-- The acquisition of a `CurrentIrp`. -/
def outstanding (b : Bus) : DeviceId → ℤ
  | .fdo => 0
  | .pdo p => if (b.pdos p).currentIrp = none then 0 else 1

/-- How often a device's remove lock is held. -/
def removeLock (b : Bus) (f : FdoDevice) : DeviceId → ℤ
  | .fdo => f.removeLock
  | .pdo p => (b.pdos p).removeLock

@[simp] theorem removeLock_acquireRemoveLock (b : Bus) (f : FdoDevice) (p : PdoId) :
    (b.acquireRemoveLock p).removeLock f d =
      b.removeLock f d + if d = .pdo p then 1 else 0 := by
  cases d with
  | fdo => simp [removeLock]
  | pdo q => rcases eq_or_ne q p with rfl | hne <;> simp [removeLock, *]

@[simp] theorem removeLock_releaseRemoveLock (b : Bus) (f : FdoDevice) (p : PdoId) :
    (b.releaseRemoveLock p).removeLock f d =
      b.removeLock f d - if d = .pdo p then 1 else 0 := by
  cases d with
  | fdo => simp [removeLock]
  | pdo q => rcases eq_or_ne q p with rfl | hne <;> simp [removeLock, *]

end Bus

/-- The exits and the state tests that leave the lock behind, or release it twice, are not taken. -/
def Frame.keeps (ok : Bool) (b : Bus) : Frame → Bool
  | .body (.createClose d) => !b.gone d
  | .body (.fdoPnp (.queryDeviceRelations old)) => ok || (old.isSome && b.fdo.numPDOs = 0)
  | .test (.scsi p _) => (b.pdos p).devicePnPState ≠ .deleted
  | _ => true

/-- `Bus_Scsi` is at its end without having acquired the lock. -/
def Frame.unmatched : Frame → Bool
  | .scsiEnd _ => true
  | _ => false

namespace Dispatch

/-- **The dispatch routines that hold a device's remove lock.** -/
def holders (s : Dispatch) : DeviceId → Set Tid
  | .fdo => {t | (s.frames t).holds .fdo = true}
  | .pdo p => {t | (s.frames t).holds (.pdo p) = true ∨ (s.calls t).holds p = true}

/-- No routine has crashed, which would have stopped the system. -/
def Running (s : Dispatch) : Prop := ∀ t i, s.calls t ≠ .crash i

/-- **The remove locks are in balance.**  A device without a holder and without a `CurrentIrp` has
its lock free, and the FDO's removal is not held up. -/
structure Balanced (s : Dispatch) : Prop where
  finite : ∀ d, (s.holders d).Finite
  count : ∀ d, s.bus.removeLock s.device d = (s.holders d).ncard + s.bus.outstanding d
  free : ∀ d, s.holders d = ∅ → s.bus.outstanding d = 0 → s.bus.removeLock s.device d = 0
  wait : ∀ t ok, s.frames t = .wait → s.holders .fdo = ∅ → (s.step (.step t ok)).isSome

/-- **No exit leaves the lock behind, and none releases it twice**: `Bus_CreateClose` finds its
device in place, the allocation of a BusRelations query succeeds, and `Bus_Scsi` finds its disk not
deleted. -/
def keepsBalance (s : Dispatch) : DispatchAction → Bool
  | .step t ok => (s.frames t).keeps ok s.bus
  | .driver (.step t _) => match s.calls t with
    | .busScsi p _ => (s.bus.pdos p).devicePnPState ≠ .deleted
    | _ => true
  | _ => true

end Dispatch

/-! ## What one step does to a count -/

namespace Moves

/-- `Bus_Scsi` comes to its end without the lock when it finds the disk deleted. -/
theorem unmatched (m : Moves t b a pc b' pc') (h : pc'.unmatched = true) :
    pc.unmatched = true ∨ ∃ p i, pc = .busScsi p i ∧ (b.pdos p).devicePnPState = .deleted := by
  cases m
  case busScsiDeleted p i hd => exact .inr ⟨p, i, rfl, hd⟩
  all_goals first
    | exact .inl h
    | cases h
    | (rename NextCaller => k; cases k <;> cases h)
    | (rename DestroyCaller => k; cases k <;> cases h)

/-- **A move changes a disk's count by what its thread comes to hold, and by the acquisition of
`CurrentIrp`.** -/
theorem removeLock (m : Moves t b a pc b' pc') (hlt : p < b.pdoCount)
    (htest : pc.tested = some p → (b.pdos p).currentIrp = none) (hun : pc.unmatched = false)
    (hrun : ∀ i, pc' ≠ .crash i) :
    (b'.pdos p).removeLock - b'.outstanding (.pdo p) =
      (b.pdos p).removeLock - b.outstanding (.pdo p) + (if pc'.holds p = true then 1 else 0)
        - (if pc.holds p = true then 1 else 0) := by
  have hne : p ≠ b.pdoCount := Nat.ne_of_lt hlt
  have hpending : statusPending ≠ statusNoSuchDevice := by decide
  have hdelete : statusDeletePending ≠ statusNoSuchDevice := by decide
  have hkeep : (b'.pdos p).removeLock = (b.pdos p).removeLock →
      (b'.pdos p).currentIrp = (b.pdos p).currentIrp → pc'.holds p = pc.holds p →
      (b'.pdos p).removeLock - b'.outstanding (.pdo p) =
        (b.pdos p).removeLock - b.outstanding (.pdo p) + (if pc'.holds p = true then 1 else 0)
          - (if pc.holds p = true then 1 else 0) := by
    intro hlock hcurrent hholds
    simp only [Bus.outstanding, hlock, hcurrent, hholds]
    omega
  cases m
  case startPacketCrash i _ _ _ => exact absurd rfl (hrun (some i))
  all_goals first
    | exact hkeep rfl rfl rfl
    | exact hkeep (frame_update PdoDeviceData.removeLock rfl)
        (frame_update PdoDeviceData.currentIrp rfl) rfl
    | skip
  all_goals clear hkeep
  all_goals try simp only [Pc.holds_nextReturn, Pc.holds_destroyReturn]
  all_goals simp only [Bus.outstanding, Pc.holds]
  all_goals simp [Function.update_apply, hne]
  all_goals try split
  all_goals simp_all [Pc.unmatched, Pc.tested, Pc.locked]
  all_goals omega

end Moves

namespace Turns

variable {a : DispatchAction}

theorem unmatched (m : Turns t b f a pc fr b' f' pc' fr')
    (hk : ∀ ok, a = .step t ok → fr.keeps ok b = true) : fr'.unmatched = false := by
  cases m
  case testScsi ok _ _ hd =>
    have hk := hk ok rfl
    simp [Frame.keeps, hd] at hk
  case send =>
    unfold IoRequest.start
    split <;> rfl
  all_goals rfl

/-- The place of a thread in the driver holds nothing before a turn and after it, or does not
change. -/
theorem holds_pc (m : Turns t b f a pc fr b' f' pc' fr') (h : fr.apart = true → pc = .idle) :
    pc.holds p = false ∧ pc'.holds p = false := by
  have hidle : fr.apart = true → pc.holds p = false := fun hap => by rw [h hap]; rfl
  cases m
  case begins =>
    rename Pc.entry _ = true => he
    exact ⟨hidle rfl, Pc.holds_of_entry he⟩
  case acquireFdo => exact ⟨hidle rfl, hidle rfl⟩
  all_goals first
    | exact ⟨rfl, rfl⟩
    | exact ⟨hidle rfl, rfl⟩
    | exact ⟨hidle rfl, hidle rfl⟩

/-- A crashed routine takes no turn. -/
theorem pc_ne_crash {i : Option IrpId} (m : Turns t b f a pc fr b' f' pc' fr')
    (h : fr.apart = true → pc = .idle) : pc ≠ .crash i := by
  rintro rfl
  cases m <;> cases h rfl

/-- **A turn changes a device's count by what its thread comes to hold.** -/
theorem removeLock (m : Turns t b f a pc fr b' f' pc' fr')
    (hk : ∀ ok, a = .step t ok → fr.keeps ok b = true) (hun : fr.unmatched = false) :
    b'.removeLock f' d = b.removeLock f d + (if fr'.holds d = true then 1 else 0)
        - (if fr.holds d = true then 1 else 0) := by
  cases m
  case send hp =>
    rw [IoRequest.holds_start]
    cases d <;> simp [Frame.holds, Bus.removeLock, hp]
  case acquirePdo hd => simp [Frame.holds, hd, eq_comm]
  case acquireFdo hd hr => cases d <;> simp [Frame.holds, Bus.removeLock, hd]
  case createGone d hg => simp_all [Frame.keeps]
  case relationsFailed hn => simp_all [Frame.keeps]
  case answered hl _ => cases d <;> simp_all [Frame.holds, Bus.removeLock]
  case begins => cases d <;> simp_all [Frame.holds, Bus.removeLock]
  case removes => cases d <;> simp [Frame.holds, Bus.removeLock, IoRequest.device]
  case releaseFdo => cases d <;> simp [Frame.holds, Bus.removeLock]
  case releasePdo => simp [Frame.holds, eq_comm]
  case scsiEnd => cases hun
  case delete => cases d <;> simp [Frame.holds, Bus.removeLock]
  all_goals simp [Frame.holds]

/-- A turn counts no less than what its thread comes to hold of the bus device. -/
theorem removeLock_ge (m : Turns t b f a pc fr b' f' pc' fr') :
    f.removeLock + (if fr'.holds .fdo = true then 1 else 0)
      - (if fr.holds .fdo = true then 1 else 0) ≤ f'.removeLock := by
  cases m
  case send => rw [IoRequest.holds_start]; simp [Frame.holds]
  case createGone d _ => cases d <;> simp [Frame.holds, IoRequest.device]
  case relationsFailed => simp [Frame.holds, IoRequest.device]
  case removes => simp [Frame.holds, IoRequest.device]
  all_goals simp_all [Frame.holds]

end Turns

/-- A disk that is only being created has its lock free, and is not known. -/
theorem Driver.Linked.fresh_pdo {s : Driver} (h : s.Linked)
    (m : Moves t s.bus a (s.calls t) b' pc') (hlt : ¬ p < s.bus.pdoCount) :
    (b'.pdos p).removeLock - b'.outstanding (.pdo p) =
      (s.bus.pdos p).removeLock - s.bus.outstanding (.pdo p) ∧ ¬ b'.Known p := by
  have hnew := h.new p (Nat.not_lt.mp hlt)
  rcases Nat.lt_or_ge p b'.pdoCount with hlt' | hge
  · obtain ⟨-, dd, -, -, -, hdd⟩ := m.creates hlt' (Nat.not_lt.mp hlt)
    refine ⟨by simp [Bus.outstanding, hnew, hdd, Bus.newPdo], fun hk => ?_⟩
    have hi := hk.2
    rw [hdd] at hi
    cases hi
  · have hnew' : b'.pdos p = {} := (h.move m).new p hge
    exact ⟨by simp [Bus.outstanding, hnew, hnew'], fun hk => absurd hk.1 (Nat.not_lt.mpr hge)⟩

namespace Dispatch

variable {s s' : Dispatch} {act : DispatchAction}

/-- The counts, as long as the system runs, and no routine about to release what it has not
acquired. -/
structure Tallied (s : Dispatch) : Prop where
  tally : s.Running → ∀ d, Tally (s.holders d) (s.bus.removeLock s.device d - s.bus.outstanding d)
  frames : ∀ t, (s.frames t).unmatched = false
  calls : ∀ t, (s.calls t).unmatched = false

/-- A thread that moves inside the driver works for the bus device, if it is in a frame. -/
theorem Framed.not_holds_frame {a₀ : Action} (h : s.Framed) (ha : s.admits a₀ = true)
    (m : Moves t s.bus a₀ (s.calls t) b' pc') (p : PdoId) :
    (s.frames t).holds (.pdo p) = false := by
  have hap := h.not_apart ha m
  cases hfr : s.frames t with
  | inner j => simp [Frame.holds, h.inner t j hfr]
  | _ => first | rfl | (rw [hfr] at hap; cases hap)

/-- A disk that is not known has no holder. -/
theorem Framed.not_holds (h : s.Framed) (hp : ¬ s.bus.Known p) (t : Tid) :
    (s.calls t).holds p = false := by
  by_contra hh
  exact hp (h.linked.mentions t p (Pc.mem_mentions_of_holds (by simpa using hh)))

/-- **A move inside the driver keeps the counts.** -/
theorem Tallied.move {a₀ : Action} (h : s.Tallied) (hf : s.Framed) (ha : s.admits a₀ = true)
    (hk : s.keepsBalance (.driver a₀) = true) (m : Moves t s.bus a₀ (s.calls t) b' pc') :
    (s.move t (b', pc')).Tallied := by
  classical
  refine ⟨fun hrun' d => ?_, h.frames, ?_⟩
  · have hrun : s.Running := by
      intro t₂ i ht₂
      rcases eq_or_ne t₂ t with rfl | hne
      · rw [ht₂] at m
        cases m
      · exact hrun' t₂ i ((move_calls_of_ne s hne _).trans ht₂)
    have hpc' : ∀ i, pc' ≠ .crash i := by
      intro i hpc'
      exact hrun' t i ((move_calls_self ..).trans hpc')
    cases d with
    | fdo => exact h.tally hrun .fdo
    | pdo p =>
      have hothers : ∀ t₂, t₂ ≠ t →
          (t₂ ∈ (s.move t (b', pc')).holders (.pdo p) ↔ t₂ ∈ s.holders (.pdo p)) := by
        intro t₂ hne
        simp [holders, move_calls_of_ne s hne]
      have hfr := hf.not_holds_frame ha m p
      by_cases hlt : p < s.bus.pdoCount
      · refine (h.tally hrun (.pdo p)).move hothers ?_
        have hm := m.removeLock hlt (hf.locked.tested t p) (h.calls t) hpc'
        simpa [holders, hfr, Bus.removeLock] using hm
      · -- a disk that does not exist, or is being created, has no holder
        obtain ⟨hcount, hunknown⟩ := hf.linked.fresh_pdo m hlt
        have hpc := hf.not_holds (fun hk => hlt hk.1) t
        have hnot : pc'.holds p = false := by
          by_contra hh
          refine hunknown ((hf.linked.move m).mentions t p ?_)
          rw [Driver.put_calls_self]
          exact Pc.mem_mentions_of_holds (by simpa using hh)
        refine (h.tally hrun (.pdo p)).move hothers ?_
        simpa [holders, hfr, hpc, hnot, Bus.removeLock] using hcount
  · refine forall_update (L := fun _ (pc : Pc) => pc.unmatched = false) ?_ fun t₂ _ => h.calls t₂
    by_contra hun
    rcases m.unmatched (by simpa using hun) with hpc | ⟨p, i, hpc, hd⟩
    · exact absurd (h.calls t) (by simp [hpc])
    · rw [hpc] at m
      cases m <;> simp_all [keepsBalance]

/-- **A turn in a dispatch routine keeps the counts.** -/
theorem Tallied.turn (h : s.Tallied) (hf : s.Framed) (hk : s.keepsBalance act = true)
    (m : Turns t s.bus s.device act (s.calls t) (s.frames t) b' f' pc' fr') :
    (s.put t (b', f', pc', fr')).Tallied := by
  classical
  have hkeeps : ∀ ok, act = .step t ok → (s.frames t).keeps ok s.bus = true := by
    rintro ok rfl
    exact hk
  refine ⟨fun hrun' d => ?_, ?_, ?_⟩
  · have hrun : s.Running := by
      intro t₂ i ht₂
      rcases eq_or_ne t₂ t with rfl | hne
      · exact m.pc_ne_crash (hf.idle t₂) ht₂
      · exact hrun' t₂ i ((put_calls_of_ne s hne _).trans ht₂)
    have hothers : ∀ t₂, t₂ ≠ t → (t₂ ∈ (s.put t (b', f', pc', fr')).holders d ↔
        t₂ ∈ s.holders d) := by
      intro t₂ hne
      cases d <;> simp [holders, put_calls_of_ne s hne, put_frames_of_ne s hne]
    refine (h.tally hrun d).move hothers ?_
    have hm := m.removeLock (d := d) hkeeps (h.frames t)
    cases d with
    | fdo =>
      by_cases hh : (s.frames t).holds .fdo = true <;> simp [holders, Bus.outstanding, hm, hh]
    | pdo p =>
      obtain ⟨hpc, hpc'⟩ := m.holds_pc (p := p) (hf.idle t)
      have hcur := m.aside.currentIrp p
      simp [holders, hpc, hpc', Bus.outstanding, hcur, hm]
      omega
  · exact forall_update (L := fun _ (fr : Frame) => fr.unmatched = false) (m.unmatched hkeeps)
      fun t₂ _ => h.frames t₂
  · refine forall_update (L := fun _ (pc : Pc) => pc.unmatched = false) ?_ fun t₂ _ => h.calls t₂
    rcases m.pc_or_entry with hpc | hpc
    · exact hpc ▸ h.calls t
    · exact Pc.unmatched_of_entry hpc

/-- The counts are kept by every run that takes none of the exits. -/
theorem tallied (h : lts.Reach (fun s a => s.keepsBalance a = true) s) : s.Tallied := by
  refine h.invariant (I := Tallied) ?_ fun s a s' hr hi hk hs => ?_
  · refine ⟨fun _ d => ?_, fun _ => rfl, fun _ => rfl⟩
    cases d
    · exact .empty fun t ht => by cases ht
    · exact .empty fun t ht => by rcases ht with ht | ht <;> cases ht
  · rcases step_cases hs with ⟨a₀, t, b', pc', rfl, ha, m, rfl⟩ | ⟨t, b', f', pc', fr', m, rfl⟩ |
      ⟨x, g, rfl⟩ | ⟨e, rfl⟩
    · exact hi.move (framed hr) ha hk m
    · exact hi.turn (framed hr) hk m
    · exact ⟨hi.1, hi.2, hi.3⟩
    · exact ⟨hi.1, hi.2, hi.3⟩

/-- **The remove locks are in balance** in every run that takes none of the exits that leave a lock
behind or release it twice. -/
theorem remove_locks_balanced (h : lts.Reach (fun s a => s.keepsBalance a = true) s)
    (hrun : s.Running) :
    s.Balanced := by
  have htally := (tallied h).tally hrun
  have hcount : ∀ d, s.bus.removeLock s.device d = (s.holders d).ncard + s.bus.outstanding d :=
    fun d => by rw [(htally d).card]; omega
  have hfree : ∀ d, s.holders d = ∅ → s.bus.outstanding d = 0 →
      s.bus.removeLock s.device d = 0 := by
    intro d hd ho
    rw [hcount, hd, ho]
    simp
  refine ⟨fun d => (htally d).finite, hcount, hfree, ?_⟩
  intro t ok ht hd
  have hzero : s.device.removeLock = 0 := hfree .fdo hd rfl
  simp [step, ht, Frame.step, hzero]

/-- The system runs when only one thread acts, and that one is at rest. -/
theorem running_of_onlyBy {C : Dispatch → DispatchAction → Prop} {t₀ : Tid} (h : lts.Reach C s)
    (hC : ∀ s a, C s a → a.onlyBy [t₀] = true) (hrest : (s.calls t₀).rest = true) :
    s.Running := by
  intro t i ht
  rcases eq_or_ne t t₀ with rfl | hne
  · rw [ht] at hrest
    cases hrest
  · rw [(idle_of_onlyBy h hC t (by simpa using hne)).1] at ht
    cases ht

/-- A disk is added, and an IRP becomes current on it. -/
theorem remove_locks_balanced_current :
    ∃ s, lts.Reach (fun s a => s.keepsBalance a = true) s ∧
      ((s.bus.pdos 0).currentIrp = some 0 ∧ (s.bus.pdos 0).removeLock = 1) ∧ s.Balanced := by
  obtain ⟨s, hs, hlast, hcur⟩ := lts.exists_reach
    (C := fun s a => s.keepsBalance a = true ∧ a.onlyBy [.sys 0] = true)
    (c := fun s a => s.keepsBalance a && a.onlyBy [.sys 0])
    (fun _ _ ha => Bool.and_eq_true_iff.mp ha)
    (request (.sys 0) (.fdoIoctl (.addDisk (smallDisk 1 0))) 3 ++
      request (.sys 0) (.fdoIoctl (.getRequest 0 0)) 6 ++ direct (.sys 0) (.scsi 0 0 readSrb) 8)
    (fun s => (s.calls (.sys 0)).rest = true ∧ (s.bus.pdos 0).currentIrp = some 0 ∧
      (s.bus.pdos 0).removeLock = 1)
    (by decide +kernel)
  have hkeeps : lts.Reach (fun s a => s.keepsBalance a = true) s :=
    hs.mono fun _ _ _ _ ha => ha.1
  have hrun := running_of_onlyBy hs (fun _ _ ha => ha.2) hlast
  exact ⟨s, hkeeps, hcur, remove_locks_balanced hkeeps hrun⟩

/-- **A BusRelations query keeps the lock when its allocation fails**: the count stays at one, with
no routine left to release it. -/
theorem not_remove_locks_balanced : ¬ ∀ s, lts.Reachable s → s.Running → s.Balanced := by
  intro h
  obtain ⟨s, hs, hlast, hfr, hlock⟩ := lts.exists_reach
    (C := fun _ a => a.onlyBy [.sys 0] = true) (c := fun _ a => a.onlyBy [.sys 0])
    (fun _ _ ha => ha)
    [.send (.sys 0) (.fdoPnp (.queryDeviceRelations none)), .step (.sys 0) true,
      .step (.sys 0) true, .step (.sys 0) false]
    (fun s => (s.calls (.sys 0)).rest = true ∧ (s.frames (.sys 0)).holds .fdo = false ∧
      s.device.removeLock = 1)
    (by decide +kernel)
  have hrun := running_of_onlyBy hs (fun _ _ ha => ha) hlast
  have hnone : s.holders .fdo = ∅ := by
    refine Set.eq_empty_of_forall_notMem fun t ht => ?_
    have ht : (s.frames t).holds .fdo = true := ht
    rcases eq_or_ne t (.sys 0) with rfl | hne
    · exact absurd (ht.symm.trans hfr) (by simp)
    · rw [(idle_of_onlyBy hs (fun _ _ ha => ha) t (by simpa using hne)).2] at ht
      cases ht
  have hfree := (h s hs.reachable hrun).free .fdo hnone rfl
  exact absurd (hlock.symm.trans hfree) (by decide)

end Dispatch

end VirtualDisk
