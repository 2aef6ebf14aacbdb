import VirtualDisk.Driver.Requests
import VirtualDisk.Service.Serves

/-!
# Service/Calls — the service's calls of the driver, and how they end

`CDiskServer::Run` asks for requests and the disk threads reply; nobody else enters these routines.
As long as no GET_REQUEST IRP is cancelled and the service keeps its handle open, the wait in
`GetRequest` ends with a request: `Run` does not look at its result.
-/

namespace VirtualDisk

open Machinery

variable {t : Tid} {a : Action} {b b' : Bus} {pc pc' : Pc} {p : PdoId} {r : RqId}
variable {d d' : Driver} {v v' : Service}

/-! ## Who is in which routine -/

/-- The reply a thread carries to the current IRP it is for. -/
def Pc.carries : Pc → Option (Tagged BusenumReply)
  | .replyFind rep | .replyTake _ rep => some rep
  | _ => none

@[simp] theorem Pc.carries_nextReturn (k : NextCaller) : (nextReturn k).carries = none := by
  cases k <;> rfl

@[simp] theorem Pc.carries_destroyReturn (k : DestroyCaller) :
    (destroyReturn k).carries = none := by
  cases k <;> rfl

namespace Moves

/-- A thread carries the reply it was called with. -/
theorem carries {rep : Tagged BusenumReply} (m : Moves t b a pc b' pc')
    (hpc : pc'.carries = some rep) :
    (a = .call t (.sendReply rep) ∧ pc' = .replyFind rep) ∨
    (pc = .replyFind rep ∧ ∃ p, b.findPdo rep.val.handle = some p ∧ pc' = .replyTake p rep ∧
      b' = b) := by
  cases m
  case callSendReply =>
    cases hpc
    exact .inl ⟨rfl, rfl⟩
  case replyFind p _ h =>
    cases hpc
    exact .inr ⟨rfl, p, h, rfl, rfl⟩
  all_goals first
    | cases hpc
    | (rw [Pc.carries_nextReturn] at hpc; cases hpc)
    | (rw [Pc.carries_destroyReturn] at hpc; cases hpc)

/-- A thread that takes a reply carries none any more. -/
theorem of_replyTake {rep : Tagged BusenumReply} (m : Moves t b a pc b' pc')
    (hpc : pc = .replyTake p rep) : pc' ≠ .idle ∧ pc'.carries = none := by
  subst hpc
  cases m <;> exact ⟨nofun, rfl⟩

/-- A thread is called from outside the driver. -/
theorem calls {c : Call} (m : Moves t b (.call t c) pc b' pc') : pc = .idle := by
  cases m <;> rfl

/-- A thread gets outside the driver by leaving it. -/
theorem leaves (m : Moves t b a pc b' pc') (hpc : pc' = .idle) : a = .leave t := by
  cases m
  all_goals first
    | rfl
    | cases hpc
    | (rename NextCaller => k; cases k <;> cases hpc)
    | (rename DestroyCaller => k; cases k <;> cases hpc)

/-- A thread is about to queue the GET_REQUEST IRP it was called with. -/
theorem getInsert_of (m : Moves t b a pc b' pc') (hpc : pc' = .getInsert r) :
    (b.requests r).arrived = false ∧ ∃ file, a = .call t (.getRequest r file) := by
  cases m
  case callGetRequest x file hr =>
    cases hpc
    exact ⟨hr, file, rfl⟩
  all_goals first
    | cases hpc
    | (rename NextCaller => k; cases k <;> cases hpc)
    | (rename DestroyCaller => k; cases k <;> cases hpc)

end Moves

namespace System

/-- **The service's calls under way.** -/
structure Calling (d : Driver) (v : Service) : Prop where
  getInsert : ∀ t r, d.calls t = .getInsert r → t = .run ∧ v.run = .issuing r
  carries : ∀ t rep, (d.calls t).carries = some rep →
    ∃ pr, t = .disk pr ∧ (v.procs pr).pc = .replying
  new : ∀ pr, v.procCount ≤ pr → (v.procs pr).pc = .exited

/-- A step of the service keeps its calls. -/
theorem Calling.serve {x : SysAction} {act : Option Action} (h : Calling d v)
    (m : Serves d v x act v') : Calling d v' := by
  refine ⟨?_, ?_, ?_⟩
  · intro t r ht
    obtain ⟨rfl, hrun⟩ := h.getInsert t r ht
    refine ⟨rfl, ?_⟩
    by_cases hx : x = .run
    · subst hx
      cases m with
      | issued hr hret | refused hr hret => cases ht.symm.trans hret
      | issue hr | got hr | gotNone hr | findNone hr | find hr | post hr | setEvent hr =>
        cases hr.symm.trans hrun
    · exact (m.run_of_ne hx).1.trans hrun
  · intro t rep hrep
    obtain ⟨pr, rfl, hpc⟩ := h.carries t rep hrep
    refine ⟨pr, rfl, ?_⟩
    cases m.proc pr with
    | keep hk =>
      obtain ⟨_, _, hk⟩ := hk
      rw [hk]
      exact hpc
    | create hpr => cases (h.new pr (Nat.le_of_eq hpr.symm)).symm.trans hpc
    | post _ _ _ hk | setEvent _ _ _ hk =>
      rw [hk]
      exact hpc
    | wake _ hw | removed _ hw | execute _ _ hw | executeNone _ hw | reply _ hw | final _ hw =>
      cases hw.symm.trans hpc
    | replied _ _ hret =>
      obtain ⟨status, hret⟩ := hret
      rw [hret] at hrep
      cases hrep

  · intro pr hle
    have hpc := h.new pr (Nat.le_trans m.procCount_le hle)
    cases m.proc pr with
    | keep hk =>
      obtain ⟨_, _, hk⟩ := hk
      rw [hk]
      exact hpc
    | create hpr hcount => exact absurd (hpr ▸ hcount ▸ hle) (Nat.not_succ_le_self _)
    | post _ _ _ hk | setEvent _ _ _ hk =>
      rw [hk]
      exact hpc
    | wake _ hw | removed _ hw | execute _ _ hw | executeNone _ hw | reply _ hw | final _ hw
    | replied _ hw =>
      cases hw.symm.trans hpc

/-- A move of a thread keeps the service's calls. -/
theorem Calling.move (h : Calling d v) (m : Moves t d.bus a (d.calls t) b' pc') (ha : Makes v a) :
    Calling (d.put t (b', pc')) v := by
  refine ⟨?_, ?_, h.new⟩
  · refine forall_update (L := fun t (pc : Pc) => ∀ r, pc = .getInsert r →
      t = .run ∧ v.run = .issuing r) ?_ fun t₂ _ => h.getInsert t₂
    intro r hpc
    obtain ⟨-, file, rfl⟩ := m.getInsert_of hpc
    cases t with
    | run =>
      obtain ⟨r', hrun, hc⟩ := ha
      cases hc
      exact ⟨rfl, hrun⟩
    | sys n => cases ha
    | disk pr => cases ha.2
    | rpc k => rcases ha with ⟨_, _, hc⟩ | ⟨_, _, hc⟩ <;> cases hc
  · refine forall_update (L := fun t (pc : Pc) => ∀ rep, pc.carries = some rep →
      ∃ pr, t = .disk pr ∧ (v.procs pr).pc = .replying) ?_ fun t₂ _ => h.carries t₂
    intro rep hpc
    rcases m.carries hpc with ⟨rfl, -⟩ | ⟨hpc, -⟩
    · cases t with
      | disk pr => exact ⟨pr, rfl, ha.1⟩
      | sys n => cases ha
      | run =>
        obtain ⟨_, _, hc⟩ := ha
        cases hc
      | rpc k => rcases ha with ⟨_, _, hc⟩ | ⟨_, _, hc⟩ <;> cases hc
    · exact h.carries t rep (by rw [hpc]; rfl)

variable {s : System} {files : FileId → File} {C : System → SysAction → Prop}

/-- **The service's calls are where its threads are**, in every state reached. -/
theorem calling (h : (lts files).Reach C s) : Calling s.driver s.service := by
  refine invariant ?_ (fun _ _ _ _ _ _ _ hi m _ => hi.serve m) ?_ h
  · refine ⟨?_, ?_, fun _ _ => rfl⟩
    · rintro t r ⟨⟩
    · rintro t rep ⟨⟩
  · intro s a act v' d' _ _ hv m hd
    rcases Driver.step_moves hd with ⟨t, b', pc', hm, rfl⟩ | ⟨x, f, -, rfl⟩ | ⟨e, -, -, rfl⟩
    · exact hv.move hm m.makes
    · exact ⟨hv.1, hv.2, hv.3⟩
    · exact ⟨hv.1, hv.2, hv.3⟩

end System

/-! ## The wait for a request -/

/-- A thread is withdrawing GET_REQUEST IRPs: one that is cancelled, or all of a closed handle. -/
def Pc.withdraws : Pc → Bool
  | .cleanup _ | .cleanupDrain _ | .cleanupDrained _ _ | .csqCancelRequest _ => true
  | _ => false

@[simp] theorem Pc.withdraws_nextReturn (k : NextCaller) : (nextReturn k).withdraws = false := by
  cases k <;> rfl

@[simp] theorem Pc.withdraws_destroyReturn (k : DestroyCaller) :
    (destroyReturn k).withdraws = false := by
  cases k <;> rfl

/-- An action that withdraws no GET_REQUEST IRP. -/
def Action.keepsRequests : Action → Bool
  | .cancelRequest _ _ | .call _ (.cleanup _) => false
  | _ => true

namespace Moves

/-- A thread withdraws requests when it is called to. -/
theorem withdraws (m : Moves t b a pc b' pc') (ha : a.keepsRequests = true)
    (hpc : pc'.withdraws = true) : pc.withdraws = true := by
  cases m
  all_goals first
    | rfl
    | (cases ha; done)
    | cases hpc
    | (rw [Pc.withdraws_nextReturn] at hpc; cases hpc)
    | (rw [Pc.withdraws_destroyReturn] at hpc; cases hpc)

/-- A GET_REQUEST IRP is cancelled from outside. -/
theorem cancel_of_keepsRequests (m : Moves t b a pc b' pc') (ha : a.keepsRequests = true) :
    (b'.requests r).cancel = (b.requests r).cancel := by
  cases m
  all_goals first
    | (cases ha; done)
    | rfl
    | (simp [Function.update_apply]; done)
    | skip
  all_goals simp [Function.update_apply]
  all_goals split <;> simp_all

/-- **A GET_REQUEST IRP fails** when it is withdrawn, or when the bus is gone as it comes in. -/
theorem request_status (m : Moves t b a pc b' pc') (hpc : pc.withdraws = false)
    (hc : (b.requests r).cancel = false) :
    (b'.requests r).status = (b.requests r).status ∨ (b'.requests r).status = statusSuccess ∨
    (pc = .getInsert r ∧ pc' = .ret statusNoSuchDevice) := by
  cases m
  case getInsertDeleted x _ =>
    by_cases hr : r = x
    · subst hr
      exact .inr (.inr ⟨rfl, rfl⟩)
    · exact .inl (by simp [hr])
  all_goals try exact .inl rfl
  all_goals try cases hpc
  all_goals simp [Function.update_apply]
  all_goals split <;> simp_all

end Moves

namespace System

/-- No GET_REQUEST is withdrawn in this step. -/
def KeepsRequests (_ : System) : SysAction → Prop
  | .driver a => a.keepsRequests = true
  | _ => True

/-- **The GET_REQUEST IRPs of a service that is left to run**: none is cancelled, and none that the
Run loop waits for has failed. -/
structure Waits (d : Driver) (v : Service) : Prop where
  cancel : ∀ r, (d.bus.requests r).cancel = false
  withdraws : ∀ t, (d.calls t).withdraws = false
  fresh : ∀ r, (d.bus.requests r).arrived = false → (d.bus.requests r).status = statusSuccess
  issuing : ∀ r, v.run = .issuing r → (d.bus.requests r).status = statusSuccess ∨
    d.calls .run = .ret statusNoSuchDevice
  waiting : ∀ r, v.run = .waiting r → (d.bus.requests r).status = statusSuccess

/-- The service withdraws none itself. -/
theorem keepsRequests_of_serves {s : System} {x : SysAction} (hC : KeepsRequests s x)
    (m : Serves d v x (some a) v') : a.keepsRequests = true := by
  cases m with
  | driver => exact hC
  | _ => rfl

/-- A step of the service keeps its GET_REQUEST IRPs. -/
theorem Waits.serve {x : SysAction} {act : Option Action} (h : Waits d v)
    (m : Serves d v x act v') (hd : perform d act = some d') : Waits d v' := by
  refine { h with issuing := ?_, waiting := ?_ }
  · intro r hr
    by_cases hx : x = .run
    · subst hx
      cases m with
      | issue hrun =>
        cases hr
        exact .inl (h.fresh _ (Bool.eq_false_iff.mpr (not_arrived_of_call hd)))
      | issued | refused | got | gotNone | findNone | find | post | setEvent => cases hr
    · exact h.issuing r ((m.run_of_ne hx).1.symm.trans hr)
  · intro r hr
    by_cases hx : x = .run
    · subst hx
      cases m with
      | issued hrun hret =>
        cases hr
        refine (h.issuing r hrun).resolve_right fun hno => ?_
        have hst := Pc.ret.inj (hret.symm.trans hno)
        exact absurd hst (by decide)
      | issue | refused | got | gotNone | findNone | find | post | setEvent => cases hr
    · exact h.waiting r ((m.run_of_ne hx).1.symm.trans hr)

/-- A move of a thread keeps the service's GET_REQUEST IRPs. -/
theorem Waits.move (h : Waits d v) (hc : Calling d v) (ho : d.RqOwned)
    (m : Moves t d.bus a (d.calls t) b' pc') (hm : Makes v a) (ha : a.keepsRequests = true) :
    Waits (d.put t (b', pc')) v := by
  have hstatus := fun r => m.request_status (r := r) (h.withdraws t) (h.cancel r)
  refine ⟨?_, ?_, ?_, ?_, ?_⟩
  · exact fun r => (m.cancel_of_keepsRequests ha).trans (h.cancel r)
  · refine forall_update (L := fun _ (pc : Pc) => pc.withdraws = false) ?_
      fun t₂ _ => h.withdraws t₂
    by_contra hpc
    rw [Bool.not_eq_false] at hpc
    cases (h.withdraws t).symm.trans (m.withdraws ha hpc)
  · intro r hr
    have hold : (d.bus.requests r).arrived = false := by
      by_contra hne
      rw [Bool.not_eq_false] at hne
      cases hr.symm.trans (m.request_arrived hne)
    rcases hstatus r with heq | hs | ⟨hpc, -⟩
    · exact heq.trans (h.fresh r hold)
    · exact hs
    · have hmem : r ∈ d.holdsRq (.hand t) := by simp [Driver.holdsRq, hpc, Pc.rqHand]
      cases hold.symm.trans (ho.ledger.within _ _ hmem)
  · intro r hr
    rcases hstatus r with heq | hs | ⟨hpc, hpc'⟩
    · rcases h.issuing r hr with hs | hret
      · exact .inl (heq.trans hs)
      · by_cases ht : t = .run
        · subst ht
          rw [hret] at m
          cases m
          rcases hm with ⟨r', hr'⟩ | hr'
          · cases hr.symm.trans hr'
          · cases hr.symm.trans hr'
        · exact .inr ((Driver.put_calls_of_ne d (Ne.symm ht) _).trans hret)
    · exact .inl hs
    · obtain ⟨rfl, -⟩ := hc.getInsert t r hpc
      exact .inr ((Driver.put_calls_self ..).trans hpc')
  · intro r hr
    rcases hstatus r with heq | hs | ⟨hpc, -⟩
    · exact heq.trans (h.waiting r hr)
    · exact hs
    · cases hr.symm.trans (hc.getInsert t r hpc).2

/-- **A wait of the Run loop never fails**, in every run in which no GET_REQUEST is withdrawn. -/
theorem waits (h : (lts files).Reach KeepsRequests s) : Waits s.driver s.service := by
  refine invariant ?_ (fun _ _ _ _ _ _ _ hi m hd => hi.serve m hd) ?_ h
  · refine ⟨fun _ => rfl, fun _ => rfl, fun _ _ => rfl, ?_, ?_⟩
    · rintro r ⟨⟩
    · rintro r ⟨⟩
  · intro s a act v' d' hr hC hv m hd
    have hcall := (calling hr).serve m
    have hrq := Driver.rqOwned (driver_reachable hr)
    have ha := keepsRequests_of_serves hC m
    rcases Driver.step_moves hd with ⟨t, b', pc', hm, rfl⟩ | ⟨x, f, -, rfl⟩ | ⟨e, -, -, rfl⟩
    · exact hv.move hcall hrq hm m.makes ha
    · exact ⟨hv.1, hv.2, hv.3, hv.4, hv.5⟩
    · exact ⟨hv.1, hv.2, hv.3, hv.4, hv.5⟩

end System

end VirtualDisk
