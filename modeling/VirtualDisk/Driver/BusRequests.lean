import VirtualDisk.Driver.BusLife
import VirtualDisk.Machinery.Progress

/-!
# Driver/BusRequests — the PnP requests to the bus device, in three views

The routines of `Driver.Step` have what a request to the bus does under its locks, the dispatch
routines have the remove lock around that, and `Driver.BusLife` has what the bus device owns.  Here
they are compared: a dispatch routine does to the shared state what the routine of the driver does,
and leaves the remove lock, the device object and its PnP state as the script does.
-/

namespace VirtualDisk

open Machinery

variable {t : Tid} {ok : Bool} {b b' : Bus} {f f' : FdoDevice} {pc pc' : Pc} {fr fr' : Frame}
  {j : IoRequest} {m : FdoMinor}

/-! ## The routines of the driver -/

/-- The routine of the driver that does the work of a request. -/
def IoRequest.routine : IoRequest → Option Pc
  | .fdoIoctl (.addDisk dd) => some (.addUnique dd)
  | .fdoIoctl (.removeDisk handle) => some (.removeDisk handle)
  | .fdoIoctl (.getRequest r _) => some (.getInsert r)
  | .fdoIoctl (.sendReply rep) => some (.replyFind rep)
  | .fdoPnp .surpriseRemoval => some .fdoSurprise
  | .fdoPnp .removeDevice => some .fdoRemove
  | .fdoPnp (.queryDeviceRelations old) => some (.queryRelations old)
  | _ => none

/-- **The work of a dispatch routine is that of the driver's routine**: it goes there, or has made
its first step, or all of it. -/
theorem IoRequest.body_routine (t : Tid) (hd : b.fdo.devicePnPState ≠ .deleted)
    (hj : j.routine = some pc) (h : j.body ok b = some (b', pc', fr')) :
    (b', pc') = (b, pc) ∨ pc.step t ok b = some (b', pc') ∨
      ∃ status, pc' = .idle ∧ pc.step t ok b = some (b', .ret status) := by
  cases j with
  | fdoIoctl q =>
    cases q with
    | getRequest r file =>
      cases hj
      obtain ⟨rfl, rfl, rfl⟩ := by simpa [body] using h
      exact .inr (.inl (if_neg hd))
    | invalid => cases hj
    | _ =>
      cases hj
      obtain ⟨rfl, rfl, rfl⟩ := by simpa [body] using h
      exact .inl rfl
  | fdoPnp m =>
    cases m with
    | surpriseRemoval | removeDevice =>
      cases hj
      obtain ⟨rfl, rfl, rfl⟩ := by simpa [body] using h
      exact .inr (.inl (if_neg hd))
    | queryDeviceRelations old =>
      cases hj
      refine .inr (.inr ?_)
      simp only [body, Bus.queryBusRelations] at h
      by_cases hm : b.fdo.mutex = none
      · by_cases hn : old.isSome ∧ b.fdo.numPDOs = 0
        · obtain ⟨rfl, rfl, -⟩ := by simpa [hm, hn] using h
          exact ⟨statusSuccess, rfl, by simp [Pc.step, Bus.queryRelationsStep, hm, hn]⟩
        · cases ok
          · obtain ⟨rfl, rfl, -⟩ := by simpa [hm, hn] using h
            exact ⟨statusInsufficientResources, rfl,
              by simp [Pc.step, Bus.queryRelationsStep, hm, hn]⟩
          · obtain ⟨rfl, rfl, -⟩ := by simpa [hm, hn] using h
            exact ⟨statusSuccess, rfl, by simp [Pc.step, Bus.queryRelationsStep, hm, hn]⟩
      · simp [hm] at h
    | _ => cases hj
  | _ => cases hj

/-! ## The dispatch routine -/

/-- The driver's routines for SURPRISE_REMOVAL and REMOVE_DEVICE begin here. -/
def Pc.begins : Pc → Bool
  | .fdoSurprise | .fdoRemove => true
  | _ => false

namespace Moves

/-- Only these change the PnP state of the bus… -/
theorem busView (m : Moves t b (.step t ok) pc b' pc') (h : pc.begins = false) (f : FdoDevice) :
    b'.fdo.busView f = b.fdo.busView f := by
  cases m
  case fdoSurprise | fdoRemove => cases h
  all_goals rfl

/-- …and no routine goes there. -/
theorem not_begins (m : Moves t b (.step t ok) pc b' pc') : pc'.begins = false := by
  cases m <;> first
    | rfl
    | (rename NextCaller => k; cases k <;> rfl)
    | (rename DestroyCaller => k; cases k <;> rfl)

end Moves

namespace Dispatch

variable {s s' : Dispatch} {v : BusView} {a : DispatchAction} {n : ℕ}

/-- The view of the bus device. -/
def view (s : Dispatch) : BusView := s.bus.fdo.busView s.device

/-- The thread makes a step. -/
def By (t : Tid) (_ : Dispatch) (a : DispatchAction) : Prop :=
  ∃ ok, a = .step t ok ∨ a = .driver (.step t ok)

/-- **How far a request has come**, by what the bus device was before. -/
def Stage (t : Tid) (m : FdoMinor) (v : BusView) (s : Dispatch) : Prop := match s.frames t with
  | .test j | .acquire j => j = .fdoPnp m ∧ s.view = v
  | .body j => j = .fdoPnp m ∧ s.view = v.held
  | .inner j => j = .fdoPnp m ∧ (m = .surpriseRemoval ∨ m = .removeDevice) ∧
      (s.calls t).begins = false ∧ s.view = v.held.apply m true
  | .release d => d = .fdo ∧ m ≠ .removeDevice ∧ ∃ ok, s.view = v.held.apply m ok
  | .wait => m = .removeDevice ∧
      s.view = { v.apply m true with device := { v.device with removed := true } }
  | .delete => m = .removeDevice ∧ v.device.removeLock = 0 ∧
      s.view = { v.apply m true with device := { v.device with removed := true } }
  | .outside => s.calls t = .idle ∧ v.Leaves m s.view
  | .scsiEnd _ => False

/-- The driver's part leaves the view alone. -/
theorem Stage.driver (h : Stage t m v s) (hf : s.Framed)
    (hs : s.step (.driver (.step t ok)) = some s') :
    Stage t m v s' := by
  rcases step_cases hs with ⟨a₀, t₂, b', pc', heq, -, mv, rfl⟩ | ⟨_, _, _, _, _, mv, -⟩ |
    ⟨x, g, rfl⟩ |
    ⟨e, rfl⟩
  · obtain rfl : Action.step t ok = a₀ := by simpa using heq
    obtain rfl : t = t₂ := by simpa [Action.thread] using mv.thread
    have hidle : s.calls t ≠ .idle := fun hidle => by
      rw [hidle] at mv
      cases mv
    unfold Stage at *
    rw [move_frames, move_calls_self]
    cases hfr : s.frames t with
    | inner j =>
      rw [hfr] at h
      obtain ⟨rfl, hm, hpc, hv⟩ := h
      exact ⟨rfl, hm, mv.not_begins, (mv.busView hpc s.device).trans hv⟩
    | outside =>
      rw [hfr] at h
      exact absurd h.1 hidle
    | _ => exact absurd (hf.idle t (by rw [hfr]; rfl)) hidle
  · cases mv
  · exact h
  · exact h

/-- **So does the work of the dispatch routine**, the PnP state aside. -/
theorem stage_body {r : Bus × Pc × Frame} (hv : s.view = v.held)
    (hr : (IoRequest.fdoPnp m).body ok s.bus = some r) :
    Stage t m v (s.put t (r.1, s.device, r.2.1, r.2.2)) := by
  have happly : ∀ ok, (m.apply ok s.bus.fdo).busView s.device = v.held.apply m ok := fun ok => by
    rw [FdoMinor.apply_busView]
    exact congrArg (fun v => v.apply m ok) hv
  obtain ⟨b', pc', fr'⟩ := r
  unfold Stage
  rw [put_frames_self, put_calls_self]
  cases m with
  | surpriseRemoval | removeDevice =>
    obtain ⟨rfl, rfl, rfl⟩ := by simpa [IoRequest.body] using hr
    exact ⟨rfl, by simp, rfl, happly true⟩
  | queryDeviceRelations old =>
    simp only [IoRequest.body, Bus.queryBusRelations] at hr
    by_cases hm : s.bus.fdo.mutex = none
    · by_cases hn : old.isSome ∧ s.bus.fdo.numPDOs = 0
      · obtain ⟨rfl, rfl, rfl⟩ := by simpa [hm, hn] using hr
        exact ⟨rfl, by simp, ok, hv⟩
      · cases ok
        · obtain ⟨rfl, rfl, rfl⟩ := by simpa [hm, hn] using hr
          exact ⟨rfl, hv ▸ .failed old⟩
        · obtain ⟨rfl, rfl, rfl⟩ := by simpa [hm, hn] using hr
          exact ⟨rfl, by simp, true, hv⟩
    · simp [hm] at hr
  | _ =>
    obtain ⟨rfl, rfl, rfl⟩ := by simpa [IoRequest.body] using hr
    exact ⟨rfl, by simp, ok, happly ok⟩

/-- The remove lock is given up, once. -/
theorem view_released (hv : s.view = v.held.apply m ok) :
    s.bus.fdo.busView { s.device with removeLock := s.device.removeLock - 1 } = v.apply m ok := by
  have hdevice : s.device = v.held.device := congrArg BusView.device hv
  have hview : s.bus.fdo.busView { s.device with removeLock := s.device.removeLock - 1 } =
      { s.view with device := { s.device with removeLock := s.device.removeLock - 1 } } := rfl
  rw [hview, hv, hdevice]
  simp [BusView.held, BusView.apply]

/-- **A step brings the request further.** -/
theorem Stage.step (h : Stage t m v s) (hf : s.Framed) (hd : v.devicePnPState ≠ .deleted)
    (hr : v.device.removed = false) (ha : By t s a) (hs : s.step a = some s') : Stage t m v s' := by
  obtain ⟨ok, rfl | rfl⟩ := ha
  swap
  · exact h.driver hf hs
  obtain ⟨⟨b', f', pc', fr'⟩, hstep, rfl⟩ := Option.map_eq_some_iff.mp hs
  unfold Stage at h
  unfold Stage
  rw [put_frames_self, put_calls_self]
  cases hfr : s.frames t with
  | outside =>
    rw [hfr] at hstep
    cases hstep
  | test j =>
    rw [hfr] at h hstep
    obtain ⟨rfl, hv⟩ := h
    obtain ⟨rfl, rfl, rfl, rfl⟩ := by simpa [Frame.step] using hstep
    have hstate : s.bus.fdo.devicePnPState ≠ .deleted := by
      rwa [show s.bus.fdo.devicePnPState = v.devicePnPState from congrArg BusView.devicePnPState hv]
    rw [show IoRequest.test s.bus (.fdoPnp m) = .acquire (.fdoPnp m) from if_neg hstate]
    exact ⟨rfl, hv⟩
  | acquire j =>
    rw [hfr] at h hstep
    obtain ⟨rfl, hv⟩ := h
    obtain ⟨rfl, rfl, rfl, rfl⟩ := by simpa [Frame.step] using hstep
    have hremoved : s.device.removed = false := (congrArg (fun v => v.device.removed) hv).trans hr
    have hacquire : IoRequest.acquire ok s.bus s.device (.fdoPnp m) =
        (s.bus, { s.device with removeLock := s.device.removeLock + 1 }, .body (.fdoPnp m)) := by
      simp [IoRequest.acquire, IoRequest.device, hremoved]
    rw [hacquire]
    exact ⟨rfl, hv ▸ rfl⟩
  | body j =>
    rw [hfr] at h hstep
    obtain ⟨rfl, hv⟩ := h
    obtain ⟨r, hbody, heq⟩ := Option.map_eq_some_iff.mp hstep
    cases heq
    have hstage := stage_body (t := t) hv hbody
    unfold Stage at hstage
    rwa [put_frames_self, put_calls_self] at hstage
  | inner j =>
    rw [hfr] at h hstep
    obtain ⟨rfl, hm, -, hv⟩ := h
    cases hpc : s.calls t with
    | ret status =>
      rw [hpc] at hstep
      rcases hm with rfl | rfl <;> obtain ⟨rfl, rfl, rfl, rfl⟩ := by simpa [Frame.step] using hstep
      · exact ⟨rfl, by simp, true, hv⟩
      · exact ⟨rfl, congrArg (fun v => { v with device := { v.device with removed := true } })
          (view_released hv)⟩
    | _ =>
      rw [hpc] at hstep
      cases hstep
  | release d =>
    rw [hfr] at h hstep
    obtain ⟨rfl, hm, ok, hv⟩ := h
    obtain ⟨rfl, rfl, rfl, rfl⟩ := by simpa [Frame.step] using hstep
    refine ⟨hf.idle t (by rw [hfr]; rfl), ?_⟩
    show v.Leaves m (s.bus.fdo.busView { s.device with removeLock := s.device.removeLock - 1 })
    rw [view_released hv]
    exact .passed ok hm
  | wait =>
    rw [hfr] at h hstep
    obtain ⟨rfl, hv⟩ := h
    have hlock : s.device.removeLock = v.device.removeLock :=
      congrArg (fun v => v.device.removeLock) hv
    by_cases hl : s.device.removeLock = 0
    · obtain ⟨rfl, rfl, rfl, rfl⟩ := by simpa [Frame.step, hl] using hstep
      exact ⟨rfl, hlock.symm.trans hl, hv⟩
    · simp [Frame.step, hl] at hstep
  | delete =>
    rw [hfr] at h hstep
    obtain ⟨rfl, hl, hv⟩ := h
    obtain ⟨rfl, rfl, rfl, rfl⟩ := by simpa [Frame.step] using hstep
    refine ⟨hf.idle t (by rw [hfr]; rfl), ?_⟩
    have hview : s.bus.fdo.busView { s.device with deleted := true } = _ :=
      congrArg (fun v => { v with device := { v.device with deleted := true } }) hv
    show v.Leaves .removeDevice (s.bus.fdo.busView { s.device with deleted := true })
    rw [hview]
    exact .removed hl
  | scsiEnd p =>
    rw [hfr] at h
    cases h

/-- **What a request leaves that is served by a thread**, once it is through, or waits for a remove
lock that is not given up. -/
theorem served_leaves {C : Dispatch → DispatchAction → Prop} (h : lts.Reach C s)
    (hfr : s.frames t = .test (.fdoPnp m)) (hd : s.bus.fdo.devicePnPState ≠ .deleted)
    (hr : s.device.removed = false) (hrun : lts.Run (By t) s n s')
    (hend : s'.frames t = .outside ∨ s'.frames t = .wait ∧ s'.device.removeLock ≠ 0) :
    s.view.Leaves m s'.view := by
  have hstage : Stage t m s.view s := by
    unfold Stage
    rw [hfr]
    exact ⟨rfl, rfl⟩
  have hkeep := hrun.keeps (I := fun s₁ => s₁.Framed ∧ Stage t m s.view s₁)
    (fun s₁ a s₂ hi ha hs => ⟨hi.1.step hs, hi.2.step hi.1 hd hr ha hs⟩) ⟨framed h, hstage⟩
  have hlast := hkeep.2
  unfold Stage at hlast
  rcases hend with hout | ⟨hwait, hlock⟩
  · rw [hout] at hlast
    exact hlast.2
  · rw [hwait] at hlast
    obtain ⟨rfl, hv⟩ := hlast
    have hl : s'.device.removeLock = s.device.removeLock :=
      congrArg (fun v => v.device.removeLock) hv
    exact hv ▸ .waits (hl ▸ hlock)

end Dispatch

/-! ## The script -/

/-- **What a request leaves by the script** of `Bus_FDO_PnP`. -/
theorem BusLife.busFdoPnP_leaves {u : BusLife.BusDevice} {n : ℕ} (h : BusLife.Serving n u)
    (hstart : m = .startDevice → u.interface = true)
    {tr : Calls BusLife.FdoCall BusLife.FdoCall.Answer} {o : Option (Unit × BusLife.BusDevice)}
    (hrun : BusLife.BusDevice.protocol.Run (BusLife.busFdoPnP m) u tr o) :
    ∃ u', o = some ((), u') ∧ u.view.Leaves m u'.view := by
  obtain ⟨u', -, ho, -, hv, -⟩ := Protocol.all_iff.mp (BusLife.fdoPnP_served m h hstart) tr o hrun
  exact ⟨u', ho, hv⟩

/-- **REMOVE_DEVICE is one**: a dispatch routine and the script leave the bus device alike, deleted,
or waiting for a remove lock that is not given up. -/
theorem removed_alike {C : Dispatch → DispatchAction → Prop} {s s' : Dispatch} {n k : ℕ}
    {u : BusLife.BusDevice} (h : Dispatch.lts.Reach C s)
    (hfr : s.frames t = .test (.fdoPnp .removeDevice)) (hd : s.bus.fdo.devicePnPState ≠ .deleted)
    (hr : s.device.removed = false) (hrun : Dispatch.lts.Run (Dispatch.By t) s n s')
    (hend : s'.frames t = .outside ∨ s'.frames t = .wait ∧ s'.device.removeLock ≠ 0)
    (hu : BusLife.Serving k u) (hview : u.view = s.view)
    {tr : Calls BusLife.FdoCall BusLife.FdoCall.Answer} {o : Option (Unit × BusLife.BusDevice)}
    (hscript : BusLife.BusDevice.protocol.Run (BusLife.busFdoPnP .removeDevice) u tr o) :
    ∃ u', o = some ((), u') ∧ u'.view = s'.view := by
  obtain ⟨u', ho, hleaves⟩ := BusLife.busFdoPnP_leaves hu (fun h => by cases h) hscript
  rw [hview] at hleaves
  exact ⟨u', ho, hleaves.unique (Dispatch.served_leaves h hfr hd hr hrun hend)⟩

end VirtualDisk
