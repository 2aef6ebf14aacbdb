import VirtualDisk.Driver.Progress
import VirtualDisk.Driver.Balance

/-!
# Driver/Waiting — no dispatch routine is stuck behind a lock

`Driver.Progress` follows the waits of the routines inside the driver.  Around them are the dispatch
routines: two of them take a lock themselves, and the FDO's REMOVE_DEVICE waits in
`IoReleaseRemoveLockAndWait` until nobody holds the FDO's remove lock.  A holder of that lock is in
a routine that ends; where there is none, it was left behind.
-/

namespace VirtualDisk

open Machinery

variable {t : Tid} {a : Action} {b b' : Bus} {f : FdoDevice} {pc pc' : Pc} {fr : Frame} {p : PdoId}
  {ok : Bool}

/-- The thread works for a dispatch routine: it is in none of `Bus_FDO_Cleanup`'s places, and not
outside the driver. -/
def Pc.works : Pc → Bool
  | .idle | .cleanup _ | .cleanupDrain _ | .cleanupDrained _ _ | .cleanupTest | .cleanupReset
  | .cleanupRemoveAll | .cleanupWait => false
  | _ => true

theorem Pc.works_nextReturn (k : NextCaller) : (nextReturn k).works = true := by cases k <;> rfl

theorem Pc.works_destroyReturn (k : DestroyCaller) : (destroyReturn k).works = true := by
  cases k <;> rfl

theorem Pc.works_of_entry (h : pc.entry = true) (hi : pc ≠ .idle) : pc.works = true := by
  cases pc <;> first | rfl | exact absurd rfl hi | cases h

/-- It does so until it returns. -/
theorem Moves.works (m : Moves t b a pc b' pc') (h : pc.works = true) :
    pc'.works = true ∨ a = .leave t := by
  cases m
  all_goals first
    | exact .inl rfl
    | exact .inr rfl
    | exact .inl (Pc.works_nextReturn _)
    | exact .inl (Pc.works_destroyReturn _)
    | cases h

/-- A dispatch routine goes on in a routine that works for it. -/
theorem Turns.works {act : DispatchAction} {f' : FdoDevice} {fr' : Frame} {j : IoRequest}
    (m : Turns t b f act pc fr b' f' pc' fr') (hj : fr' = .inner j) : pc'.works = true := by
  cases m
  case begins =>
    rename Pc.entry _ = true => he
    rename _ ≠ Pc.idle => hi
    exact Pc.works_of_entry he hi
  case send =>
    unfold IoRequest.start at hj
    split at hj <;> cases hj
  all_goals cases hj

/-- What the next step of a dispatch routine waits for, the FDO's remove lock aside. -/
def Frame.awaits : Frame → Option Wait
  | .body (.fdoPnp (.queryDeviceRelations _)) => some .mutex
  | .body (.scsi _ .other) => none
  | .body (.scsi p _) => some (.pdoLock p)
  | _ => none

/-- **A dispatch routine makes its next step as soon as its wait is over.** -/
theorem Frame.exists_step (ok : Bool) (h : fr.apart = true) (hwait : fr = .wait → f.removeLock = 0)
    (hw : ∀ w, fr.awaits = some w → b.Grants w) : ∃ r, fr.step ok b f pc = some r := by
  rw [← Option.isSome_iff_exists]
  cases fr with
  | outside | inner => cases h
  | wait => simp [step, hwait rfl]
  | release d => cases d <;> rfl
  | body j =>
    cases j with
    | scsi p g =>
      cases g
      case other => rfl
      all_goals
        have hfree : (b.pdos p).pdoLock = none := hw _ rfl
        simp [step, IoRequest.body, Bus.executeSrb, hfree]
    | fdoIoctl q => cases q <;> rfl
    | fdoPnp m =>
      cases m
      case queryDeviceRelations old =>
        have hfree : b.fdo.mutex = none := hw _ rfl
        simp only [step, IoRequest.body, if_neg (not_not.mpr hfree), Option.isSome_map]
        split <;> rfl
      all_goals rfl
    | _ => rfl
  | _ => rfl

namespace Dispatch

variable {s s' : Dispatch} {C : Dispatch → DispatchAction → Prop}

/-! ## The waits -/

/-- The thread is inside a dispatch routine, or in one of the driver. -/
def inside (s : Dispatch) (t : Tid) : Bool :=
  match s.frames t with
  | .outside => (s.calls t).inside
  | _ => true

/-- What a thread's next step waits for, the FDO's remove lock aside. -/
def awaits (s : Dispatch) (t : Tid) : Option Wait :=
  if (s.frames t).apart then (s.frames t).awaits else (s.calls t).awaits

/-- A thread waits for a lock that another one holds. -/
inductive WaitsFor (s : Dispatch) (t t' : Tid) : Prop
  | mutex (h : s.awaits t = some .mutex) (hm : s.bus.fdo.mutex = some t')
  | pdoLock {p : PdoId} (h : s.awaits t = some (.pdoLock p)) (hl : (s.bus.pdos p).pdoLock = some t')
  | removeLock (h : s.frames t = .wait) (hl : s.device.removeLock ≠ 0) (hm : t' ∈ s.holders .fdo)

/-- The thread makes its next step, whatever the outcome of the call in it. -/
def CanGo (s : Dispatch) (t : Tid) : Prop :=
  ∀ ok, ∃ a s', (a = .driver (.step t ok) ∨ a = .step t ok) ∧ s.step a = some s'

/-- The thread has crashed, which would have stopped the system. -/
def Lost (s : Dispatch) (t : Tid) : Prop := ∃ i, s.calls t = .crash i

/-- The waits lead from the thread to one that can go on, or was lost. -/
def Leads (s : Dispatch) (t : Tid) : Prop :=
  ∃ t', Relation.ReflTransGen s.WaitsFor t t' ∧ (s.CanGo t' ∨ s.Lost t')

/-- `Bus_FDO_Cleanup` waits for the last disk to go. -/
def AwaitsRemoval (s : Dispatch) (t : Tid) : Prop :=
  s.calls t = .cleanupWait ∧ s.bus.fdo.cleanupReadyEvent = false

/-- `IoReleaseRemoveLockAndWait` waits for a lock that no dispatch routine holds. -/
def AwaitsNobody (s : Dispatch) (t : Tid) : Prop :=
  s.frames t = .wait ∧ s.device.removeLock ≠ 0 ∧ s.holders .fdo = ∅

/-! ## The invariant -/

/-- What the dispatch routines rely on not to be stuck. -/
structure Waiting (s : Dispatch) : Prop where
  framed : s.Framed
  held : s.driver.Held
  works : ∀ t j, s.frames t = .inner j → (s.calls t).works = true

theorem Waiting.init : lts.init.Waiting := ⟨Framed.init, Driver.Held.init, fun _ _ h => by cases h⟩

/-- A turn is taken outside the sections. -/
theorem Framed.not_locked {act : DispatchAction} {b' : Bus} {f' : FdoDevice} {pc' : Pc}
    {fr' : Frame}
    (h : s.Framed) (m : Turns t s.bus s.device act (s.calls t) (s.frames t) b' f' pc' fr') :
    (s.calls t).locked = none ∧ (s.calls t).holdsMutex = false := by
  have hpc : s.calls t = .idle ∨ ∃ status, s.calls t = .ret status := by
    by_cases hap : (s.frames t).apart = true
    · exact .inl (h.idle t hap)
    · generalize s.calls t = pc at m ⊢
      generalize s.frames t = fr at m hap
      cases m <;> first | exact .inl rfl | exact .inr ⟨_, rfl⟩ | exact absurd rfl hap
  rcases hpc with hpc | ⟨status, hpc⟩ <;> rw [hpc] <;> exact ⟨rfl, rfl⟩

/-- **The locks are kept by every step.** -/
theorem Waiting.step {act : DispatchAction} (h : s.Waiting) (hs : s.step act = some s') :
    s'.Waiting := by
  have hframed := h.framed.step hs
  rcases step_cases hs with ⟨a₀, t, b', pc', rfl, ha, m, rfl⟩ | ⟨t, b', f', pc', fr', m, rfl⟩ |
    ⟨x, g, rfl⟩ | ⟨e, rfl⟩
  · refine ⟨hframed, h.held.move m, fun t₂ j hj => ?_⟩
    rcases eq_or_ne t₂ t with rfl | hne
    · rw [move_calls_self]
      refine (m.works (h.works t₂ j hj)).resolve_right ?_
      rintro rfl
      have hj : s.frames t₂ = .inner j := hj
      simp [admits, hj] at ha
    · rw [move_calls_of_ne s hne]
      exact h.works t₂ j hj
  · obtain ⟨hlocked, hloop⟩ := h.framed.not_locked m
    refine ⟨hframed, ⟨fun p t₂ hp => ?_, fun t₂ hm => ?_⟩, fun t₂ j hj => ?_⟩
    · have hsection := h.held.pdoLock p t₂ ((m.aside.pdoLock p).symm.trans hp)
      have hne : t₂ ≠ t := by
        rintro rfl
        cases hlocked.symm.trans hsection
      exact (congrArg Pc.locked (put_calls_of_ne s hne _)).trans hsection
    · have hsection := h.held.mutex t₂ (m.aside.mutex.symm.trans hm)
      have hne : t₂ ≠ t := by
        rintro rfl
        cases hloop.symm.trans hsection
      exact (congrArg Pc.holdsMutex (put_calls_of_ne s hne _)).trans hsection
    · rcases eq_or_ne t₂ t with rfl | hne
      · rw [put_frames_self] at hj
        rw [put_calls_self]
        exact m.works hj
      · rw [put_frames_of_ne s hne] at hj
        rw [put_calls_of_ne s hne]
        exact h.works t₂ j hj
  · exact ⟨hframed, ⟨h.held.1, h.held.2⟩, h.works⟩
  · exact ⟨hframed, ⟨h.held.1, h.held.2⟩, h.works⟩

theorem waiting (h : lts.Reach C s) : s.Waiting :=
  h.invariant Waiting.init fun _ _ _ _ hi _ hs => hi.step hs

/-! ## Where the waits lead -/

/-- A thread goes on behind its dispatch routine as it does in the driver. -/
theorem canGo_of_driver (hgo : s.driver.CanGo t) : s.CanGo t := by
  intro ok
  obtain ⟨d, hd⟩ := hgo ok
  exact ⟨.driver (.step t ok), { s with driver := d }, .inl rfl, by simp [step, admits, hd]⟩

/-- A wait for a thread leads where its waits do. -/
theorem Leads.of_waitsFor {t' : Tid} (hw : s.WaitsFor t t') (hl : s.Leads t') : s.Leads t := by
  obtain ⟨t₂, hwait, hgo⟩ := hl
  exact ⟨t₂, hwait.head hw, hgo⟩

namespace Waiting

variable (h : s.Waiting)
include h

/-- A thread inside a routine of the driver is not apart from it. -/
theorem apart_of_inside (hin : (s.calls t).inside = true) : (s.frames t).apart = false := by
  by_contra hap
  rw [h.framed.idle t (by simpa using hap)] at hin
  cases hin

/-- The waits of the driver's routines are waits here. -/
theorem waitsFor_of_driver {t t' : Tid} (hw : s.driver.WaitsFor t t') : s.WaitsFor t t' := by
  have hawaits : ∀ {w}, (s.calls t).awaits = some w → s.awaits t = some w := by
    intro w hw
    have hin : (s.calls t).inside = true := by
      cases hpc : s.calls t <;> rw [hpc] at hw <;> first | rfl | cases hw
    rw [awaits, h.apart_of_inside hin]
    exact hw
  rcases hw with ⟨hw, hm⟩ | ⟨p, hw, hl⟩
  · exact .mutex (hawaits hw) hm
  · exact .pdoLock (hawaits hw) hl

/-- **The waits of a thread inside the driver lead on**, unless it is in `Bus_FDO_Cleanup`. -/
theorem leads_of_inside (hin : (s.calls t).inside = true) (hc : s.calls t ≠ .cleanupWait) :
    s.Leads t := by
  obtain ⟨t', hwait, hgo⟩ := (h.held.canGo hin).resolve_left fun hw => hc hw.1
  exact ⟨t', Relation.ReflTransGen.mono (fun _ _ => h.waitsFor_of_driver) _ _ hwait,
    .inl (canGo_of_driver hgo)⟩

/-- The waits of the holder of a PDO lock lead on… -/
theorem leads_of_locked (hl : (s.calls t).locked = some p) : s.Leads t :=
  h.leads_of_inside (Pc.awaits_of_locked hl).1 fun hpc => by rw [hpc] at hl; cases hl

/-- …and so do those of the holder of the mutex. -/
theorem leads_of_holdsMutex (hm : (s.calls t).holdsMutex = true) : s.Leads t :=
  h.leads_of_inside (Pc.awaits_of_holdsMutex hm).1 fun hpc => by rw [hpc] at hm; cases hm

/-- **The waits of a dispatch routine lead on**, unless it waits for the remove lock. -/
theorem leads_of_apart (hap : (s.frames t).apart = true)
    (hwait : s.frames t = .wait → s.device.removeLock = 0) : s.Leads t := by
  have hawaits : s.awaits t = (s.frames t).awaits := if_pos hap
  have hgo : (∀ w, (s.frames t).awaits = some w → s.bus.Grants w) → s.Leads t := by
    intro hw
    refine ⟨t, .refl, .inl fun ok => ?_⟩
    obtain ⟨r, hr⟩ : ∃ r, (s.frames t).step ok s.bus s.device (s.calls t) = some r :=
      Frame.exists_step ok hap hwait hw
    exact ⟨.step t ok, s.put t r, .inr rfl, by simp [Dispatch.step, hr]⟩
  cases hw : (s.frames t).awaits with
  | none => exact hgo fun w hw' => by rw [hw] at hw'; cases hw'
  | some w =>
    have hgo' : s.bus.Grants w → s.Leads t := fun hg => hgo fun w' hw' => by
      rw [hw] at hw'
      exact Option.some.inj hw' ▸ hg
    cases w with
    | mutex =>
      cases hm : s.bus.fdo.mutex with
      | none => exact hgo' hm
      | some t' =>
        exact .of_waitsFor (.mutex (hawaits.trans hw) hm)
          (h.leads_of_holdsMutex (h.held.mutex t' hm))
    | pdoLock p =>
      cases hl : (s.bus.pdos p).pdoLock with
      | none => exact hgo' hl
      | some t' =>
        exact .of_waitsFor (.pdoLock (hawaits.trans hw) hl)
          (h.leads_of_locked (h.held.pdoLock p t' hl))
    | cleanupReady =>
      unfold Frame.awaits at hw
      split at hw <;> cases hw

/-- **The waits of a holder of the FDO's remove lock lead on.** -/
theorem leads_of_holder (hm : t ∈ s.holders .fdo) : s.Leads t := by
  have hm : (s.frames t).holds .fdo = true := hm
  by_cases hap : (s.frames t).apart = true
  · exact h.leads_of_apart hap fun hw => by rw [hw] at hm; cases hm
  · cases hfr : s.frames t with
    | inner j =>
      have hworks := h.works t j hfr
      by_cases hin : (s.calls t).inside = true
      · exact h.leads_of_inside hin fun hpc => by rw [hpc] at hworks; cases hworks
      · cases hpc : s.calls t
        case ret status =>
          refine ⟨t, .refl, .inl fun ok => ?_⟩
          have hstep : ∃ s', s.step (.step t ok) = some s' := by
            simp [Dispatch.step, hfr, hpc, Frame.step]
          obtain ⟨s', hs⟩ := hstep
          exact ⟨.step t ok, s', .inr rfl, hs⟩
        case crash i => exact ⟨t, .refl, .inr ⟨i, hpc⟩⟩
        all_goals
          rw [hpc] at hworks hin
          first | exact absurd rfl hin | cases hworks
    | outside =>
      rw [hfr] at hm
      cases hm
    | _ =>
      rw [hfr] at hap
      exact absurd rfl hap

/-- **From every thread inside the waits lead on**, unless it waits for a removal or for nobody. -/
theorem leads (hin : s.inside t = true) : s.AwaitsRemoval t ∨ s.AwaitsNobody t ∨ s.Leads t := by
  by_cases hap : (s.frames t).apart = true
  · refine .inr ?_
    by_cases hwait : s.frames t = .wait ∧ s.device.removeLock ≠ 0
    · obtain ⟨hfr, hl⟩ := hwait
      rcases Set.eq_empty_or_nonempty (s.holders .fdo) with hnone | ⟨t', ht'⟩
      · exact .inl ⟨hfr, hl, hnone⟩
      · exact .inr (.of_waitsFor (.removeLock hfr hl ht') (h.leads_of_holder ht'))
    · exact .inr (h.leads_of_apart hap fun hfr => not_not.mp fun hl => hwait ⟨hfr, hl⟩)
  · cases hfr : s.frames t with
    | inner j =>
      have hm : t ∈ s.holders .fdo := by
        show (s.frames t).holds .fdo = true
        rw [hfr]
        exact decide_eq_true (h.framed.inner t j hfr)
      exact .inr (.inr (h.leads_of_holder hm))
    | outside =>
      rw [inside, hfr] at hin
      by_cases hc : s.calls t = .cleanupWait
      · cases he : s.bus.fdo.cleanupReadyEvent with
        | false => exact .inl ⟨hc, he⟩
        | true =>
          refine .inr (.inr ⟨t, .refl, .inl (canGo_of_driver ?_)⟩)
          refine Driver.canGo_of_grants hin fun w hw => ?_
          rw [show s.driver.calls t = .cleanupWait from hc] at hw
          exact Option.some.inj hw ▸ he
      · exact .inr (.inr (h.leads_of_inside hin hc))
    | _ =>
      rw [hfr] at hap
      exact absurd rfl hap

end Waiting

/-- **No deadlock**, in any reachable state: from every thread inside a routine the waits for the
FDO's mutex, the PDO locks and the FDO's remove lock lead to one that can go on, or was lost; unless
the thread waits in `Bus_FDO_Cleanup` for `CleanupReadyEvent`, or in `IoReleaseRemoveLockAndWait`
for a lock that was left behind. -/
theorem no_deadlock (h : lts.Reachable s) (hin : s.inside t = true) :
    s.AwaitsRemoval t ∨ s.AwaitsNobody t ∨ s.Leads t := (waiting h).leads hin

/-- A lock is left behind only by an exit without a release: without one, nobody waits for it. -/
theorem not_awaitsNobody (h : lts.Reach (fun s a => s.keepsBalance a = true) s) (hrun : s.Running) :
    ¬ s.AwaitsNobody t := fun ⟨_, hl, hnone⟩ =>
  hl ((remove_locks_balanced h hrun).free .fdo hnone rfl)

/-- The thread is in `IoReleaseRemoveLockAndWait`. -/
def waits : Frame → Bool
  | .wait => true
  | _ => false

/-- The FDO's REMOVE_DEVICE waits for a routine that has yet to release the remove lock. -/
theorem exists_waiting : ∃ s, lts.Reachable s ∧ s.inside (.sys 1) = true ∧
    s.WaitsFor (.sys 1) (.sys 2) := by
  obtain ⟨s, hs, hin, hfr, hl, hm⟩ := lts.exists_reachable
    ([.send (.sys 2) (.power .fdo), .step (.sys 2) true, .step (.sys 2) true,
      .send (.sys 1) (.fdoPnp .removeDevice), .step (.sys 1) true, .step (.sys 1) true,
      .step (.sys 1) true] ++ (steps (.sys 1) 2).map .driver ++ [.step (.sys 1) true])
    (fun s => s.inside (.sys 1) = true ∧ waits (s.frames (.sys 1)) = true ∧
      s.device.removeLock ≠ 0 ∧ (s.frames (.sys 2)).holds .fdo = true)
    (by decide +kernel)
  refine ⟨s, hs, hin, .removeLock ?_ hl hm⟩
  cases hf : s.frames (.sys 1) <;> rw [hf] at hfr <;> first | rfl | cases hfr

/-- Its wait leads to that routine, which can go on. -/
theorem no_deadlock_while_waiting : ∃ s, lts.Reachable s ∧ s.WaitsFor (.sys 1) (.sys 2) ∧
    (s.AwaitsRemoval (.sys 1) ∨ s.AwaitsNobody (.sys 1) ∨ s.Leads (.sys 1)) := by
  obtain ⟨s, hs, hin, hw⟩ := exists_waiting
  exact ⟨s, hs, hw, no_deadlock hs hin⟩

end Dispatch

end VirtualDisk
