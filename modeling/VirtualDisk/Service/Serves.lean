import VirtualDisk.Service.Server

/-!
# Service/Serves — what a step of the system can do, said once

`Serves d v a act v'` relates the service before and after one action of the system, with the action
it makes in the driver, one constructor for each branch of each thread.  `System.step_serves`
inverts the step function into it.
-/

namespace VirtualDisk

open Machinery

/-- **One action `a` of the system**: the service goes from `v` to `v'`, and the driver, in the
state `d`, makes the action `act`. -/
inductive Serves (d : Driver) (v : Service) : SysAction → Option Action → Service → Prop
  | driver {a} (h : a.external = true) : Serves d v (.driver a) (some a) v
  -- CDiskServer::Run
  | issue (h : v.run = .issue) :
      Serves d v .run (some (.call .run (.getRequest v.rqCount 0)))
        { v.setRun (.issuing v.rqCount) with rqCount := v.rqCount + 1 }
  | issued {r} (h : v.run = .issuing r) (hret : d.calls .run = .ret statusPending) :
      Serves d v .run (some (.leave .run)) (v.setRun (.waiting r))
  | refused {r status} (h : v.run = .issuing r) (hret : d.calls .run = .ret status)
      (hs : status ≠ statusPending) : Serves d v .run (some (.leave .run)) (v.setRun .stopped)
  | got {r} (h : v.run = .waiting r) (hc : (d.bus.requests r).completed = true)
      (hs : (d.bus.requests r).status = statusSuccess) :
      Serves d v .run none
        { v.setRun .find with req := (d.bus.requests r).systemBuffer.getD v.req }
  | gotNone {r} (h : v.run = .waiting r) (hc : (d.bus.requests r).completed = true)
      (hs : (d.bus.requests r).status ≠ statusSuccess) : Serves d v .run none (v.setRun .find)
  | findNone (h : v.run = .find) (hm : v.diskMap v.req.val.handle = none) :
      Serves d v .run none (v.setRun .issue)
  | find {pr} (h : v.run = .find) (hm : v.diskMap v.req.val.handle = some pr) :
      Serves d v .run none (v.setRun (.post pr))
  | post {pr} (h : v.run = .post pr) :
      Serves d v .run none ((v.setProc pr fun x => { x with mReq := v.req }).setRun (.setEvent pr))
  | setEvent {pr} (h : v.run = .setEvent pr) :
      Serves d v .run none ((v.setProc pr fun x => { x with hEvent := true }).setRun .issue)
  -- CDiskProcessor::threadProc
  | wake {pr out} (h : (v.procs pr).pc = .wait) (ha : (v.procs pr).alive = true)
      (he : (v.procs pr).hEvent = true) :
      Serves d v (.disk pr out) none
        (v.setProc pr fun x => { x with hEvent := false, pc := .exec })
  | removed {pr out} (h : (v.procs pr).pc = .wait) (ha : (v.procs pr).alive = true)
      (he : (v.procs pr).hEvent = false) (hr : d.bus.events pr = true) :
      Serves d v (.disk pr out) (some (.userWait pr)) (v.setProc pr fun x => { x with pc := .final })
  | execute {pr out} (h : (v.procs pr).pc = .exec)
      (hc : (v.procs pr).mReq.val.code = scsiopRead.toUInt32 ∨
        (v.procs pr).mReq.val.code = scsiopWrite.toUInt32) :
      Serves d v (.disk pr out)
        (some (.userWrite pr (out.perform (v.procs pr).mReq.val (v.procs pr).geometry
          (d.bus.memory pr) (v.files (v.procs pr).file)).2.1))
        (v.executed pr
          (out.perform (v.procs pr).mReq.val (v.procs pr).geometry (d.bus.memory pr)
            (v.files (v.procs pr).file)).1
          (out.perform (v.procs pr).mReq.val (v.procs pr).geometry (d.bus.memory pr)
            (v.files (v.procs pr).file)).2.2)
  | executeNone {pr out} (h : (v.procs pr).pc = .exec)
      (hc : ¬ ((v.procs pr).mReq.val.code = scsiopRead.toUInt32 ∨
        (v.procs pr).mReq.val.code = scsiopWrite.toUInt32)) :
      Serves d v (.disk pr out) none (v.setProc pr fun x => { x with pc := .reply })
  | reply {pr out} (h : (v.procs pr).pc = .reply) :
      Serves d v (.disk pr out)
        (some (.call (.disk pr) (.sendReply (Service.reply (v.procs pr)))))
        (v.setProc pr fun x => { x with pc := .replying })
  | replied {pr out status} (h : (v.procs pr).pc = .replying)
      (hret : d.calls (.disk pr) = .ret status) :
      Serves d v (.disk pr out) (some (.leave (.disk pr)))
        (v.setProc pr fun x => { x with pc := .wait })
  | final {pr out} (h : (v.procs pr).pc = .final) :
      Serves d v (.disk pr out) none
        ((v.removeDisk (v.procs pr).diskId).setProc pr fun x => { x with pc := .exited })
  -- RPC workers
  | rpcAdd {k diskId file g} (h : v.rpcs k = .idle) :
      Serves d v (.rpcCall k (.addDisk diskId file g)) none (v.setRpc k (.create diskId file g))
  | rpcRemove {k diskId} (h : v.rpcs k = .idle) :
      Serves d v (.rpcCall k (.removeDisk diskId)) none (v.setRpc k (.unregister diskId))
  | createFailed {k diskId file g} (h : v.rpcs k = .create diskId file g) :
      Serves d v (.rpc k false) none (v.setRpc k (.done false))
  | create {k diskId file g} (h : v.rpcs k = .create diskId file g) :
      Serves d v (.rpc k true) none
        ((v.createProc diskId file g).setRpc k (.insert v.procCount))
  | insert {k ok pr} (h : v.rpcs k = .insert pr)
      (hm : v.diskMap (v.procs pr).diskId = none) :
      Serves d v (.rpc k ok) none
        ((v.setMap (v.procs pr).diskId (some pr)).setRpc k (.register pr))
  | insertTaken {k ok pr pr₂} (h : v.rpcs k = .insert pr)
      (hm : v.diskMap (v.procs pr).diskId = some pr₂) :
      Serves d v (.rpc k ok) none (v.setRpc k (.duplicate pr))
  | duplicate {k ok pr} (h : v.rpcs k = .duplicate pr) :
      Serves d v (.rpc k ok) none ((v.deleteProc pr).setRpc k (.done false))
  | register {k ok pr} (h : v.rpcs k = .register pr) :
      Serves d v (.rpc k ok)
        (some (.call (.rpc k) (.addDisk
          (registerWithDriver (v.procs pr).diskId (v.procs pr).geometry pr pr))))
        (v.setRpc k (.registering pr))
  | registered {k ok pr status} (h : v.rpcs k = .registering pr)
      (hret : d.calls (.rpc k) = .ret status) (hs : ntSuccess status = true) :
      Serves d v (.rpc k ok) (some (.leave (.rpc k)))
        ((v.setProc pr fun x => { x with registered := true }).setRpc k (.done true))
  | registerFailed {k ok pr status} (h : v.rpcs k = .registering pr)
      (hret : d.calls (.rpc k) = .ret status) (hs : ntSuccess status = false) :
      Serves d v (.rpc k ok) (some (.leave (.rpc k))) (v.setRpc k (.undo pr))
  | undo {k ok pr} (h : v.rpcs k = .undo pr) :
      Serves d v (.rpc k ok) none
        ((v.removeDisk (v.procs pr).diskId).setRpc k (.done false))
  | unregister {k ok diskId} (h : v.rpcs k = .unregister diskId) :
      Serves d v (.rpc k ok) (some (.call (.rpc k) (.removeDisk diskId)))
        (v.setRpc k .unregistering)
  | unregistered {k ok status} (h : v.rpcs k = .unregistering)
      (hret : d.calls (.rpc k) = .ret status) :
      Serves d v (.rpc k ok) (some (.leave (.rpc k))) (v.setRpc k (.done true))
  | rpcDone {k ok result} (h : v.rpcs k = .done result) :
      Serves d v (.rpc k ok) none (v.setRpc k .idle)

/-! ## What the service makes in the driver -/

/-- **The actions the service makes**, by where its threads are once they have made them, and those
it has no part in. -/
def Makes (v : Service) : Action → Prop
  | .call .run c => ∃ r, v.run = .issuing r ∧ c = .getRequest r 0
  | .call (.disk pr) c =>
    (v.procs pr).pc = .replying ∧ c = .sendReply (Service.reply (v.procs pr))
  | .call (.rpc k) c =>
    (∃ pr, v.rpcs k = .registering pr ∧
      c = .addDisk (registerWithDriver (v.procs pr).diskId (v.procs pr).geometry pr pr)) ∨
    (v.rpcs k = .unregistering ∧ ∃ handle, c = .removeDisk handle)
  | .call (.sys _) c => c.external = true
  | .leave .run => (∃ r, v.run = .waiting r) ∨ v.run = .stopped
  | .leave (.disk pr) => (v.procs pr).pc = .wait
  | .leave (.rpc k) => (∃ ok, v.rpcs k = .done ok) ∨ ∃ pr, v.rpcs k = .undo pr
  | .userWrite m _ => (v.procs m).pc = .reply
  | .userWait e => (v.procs e).pc = .final
  | .cancelIrp (.sys _) _ | .cancelRequest (.sys _) _ => True
  | .cancelIrp _ _ | .cancelRequest _ _ => False
  | .step _ _ | .leave (.sys _) => True

variable {d d' : Driver} {v v' : Service} {act : Option Action}

/-- **A step of the service is one of these.** -/
theorem Service.step_serves {a : SysAction} (h : v.step d a = some (act, v')) :
    Serves d v a act v' := by
  cases a with
  | driver a =>
    simp only [Service.step] at h
    split at h
    · next ha =>
      cases h
      exact .driver ha
    · cases h
  | run =>
    simp only [Service.step, runStep] at h
    split at h
    · next hr =>
      cases h
      exact .issue hr
    · next r hr =>
      split at h
      · next status hret =>
        by_cases hs : status = statusPending
        · subst hs
          cases h
          exact .issued hr hret
        · rw [if_neg hs] at h
          cases h
          exact .refused hr hret hs
      · cases h
    · next r hr =>
      split at h
      · next hc =>
        by_cases hs : (d.bus.requests r).status = statusSuccess
        · rw [if_pos hs] at h
          cases h
          exact .got hr hc hs
        · rw [if_neg hs] at h
          cases h
          exact .gotNone hr hc hs
      · cases h
    · next hr =>
      cases hm : v.diskMap v.req.val.handle with
      | none =>
        rw [hm] at h
        cases h
        exact .findNone hr hm
      | some pr =>
        rw [hm] at h
        cases h
        exact .find hr hm
    · next pr hr =>
      cases h
      exact .post hr
    · next pr hr =>
      cases h
      exact .setEvent hr
    · cases h
  | disk pr out =>
    simp only [Service.step, diskStep] at h
    split at h
    · next hpc =>
      split at h
      · cases h
      · next ha =>
        rw [not_not] at ha
        split at h
        · next he =>
          cases h
          exact .wake hpc ha he
        · next he =>
          rw [Bool.not_eq_true] at he
          split at h
          · next hr =>
            cases h
            exact .removed hpc ha he hr
          · cases h
    · next hpc =>
      split at h
      · next hc =>
        cases h
        exact .execute hpc hc
      · next hc =>
        cases h
        exact .executeNone hpc hc
    · next hpc =>
      cases h
      exact .reply hpc
    · next hpc =>
      split at h
      · next status hret =>
        cases h
        exact .replied hpc hret
      · cases h
    · next hpc =>
      cases h
      exact .final hpc
    · cases h
  | rpcCall k c =>
    simp only [Service.step] at h
    split at h
    · next hk =>
      cases c with
      | addDisk diskId file g =>
        cases h
        exact .rpcAdd hk
      | removeDisk diskId =>
        cases h
        exact .rpcRemove hk
    · cases h
  | rpc k ok =>
    simp only [Service.step, rpcStep] at h
    split at h
    · cases h
    · next diskId file g hk =>
      cases ok with
      | true =>
        cases h
        exact .create hk
      | false =>
        cases h
        exact .createFailed hk
    · next pr hk =>
      split at h
      · next hm =>
        cases h
        exact .insert hk hm
      · next pr₂ hm =>
        cases h
        exact .insertTaken hk hm
    · next pr hk =>
      cases h
      exact .duplicate hk
    · next pr hk =>
      cases h
      exact .register hk
    · next pr hk =>
      split at h
      · next status hret =>
        by_cases hs : ntSuccess status = true
        · rw [if_pos hs] at h
          cases h
          exact .registered hk hret hs
        · rw [if_neg hs] at h
          cases h
          exact .registerFailed hk hret (Bool.not_eq_true _ ▸ hs)
      · cases h
    · next pr hk =>
      cases h
      exact .undo hk
    · next diskId hk =>
      cases h
      exact .unregister hk
    · next hk =>
      split at h
      · next status hret =>
        cases h
        exact .unregistered hk hret
      · cases h
    · next result hk =>
      cases h
      exact .rpcDone hk

/-- **The service makes no other actions.** -/
theorem Serves.makes {a : SysAction} {act : Action} (h : Serves d v a (some act) v') :
    Makes v' act := by
  cases h with
  | driver ha =>
    cases act with
    | call t c => cases t <;> first | exact ha | cases ha
    | leave t | cancelIrp t _ | cancelRequest t _ => cases t <;> first | exact trivial | cases ha
    | userWrite | userWait => cases ha
    | step => trivial
  | issue => exact ⟨_, rfl, rfl⟩
  | issued => exact .inl ⟨_, rfl⟩
  | refused => exact .inr rfl
  | reply => simp [Makes, Service.reply]
  | register => exact .inl ⟨_, by simp, rfl⟩
  | unregister => exact .inr ⟨by simp, _, rfl⟩
  | registered | unregistered => exact .inl ⟨true, by simp⟩
  | registerFailed => exact .inr ⟨_, by simp; rfl⟩
  | removed | execute | replied => simp [Makes]

/-! ## What happens to one processor -/

/-- **What a step does to the processor `pr`**: its thread moves on, the Run loop posts a request to
it or wakes it, it is created, or at most its life and its registration change. -/
inductive ProcStep (d : Driver) (v : Service) (a : SysAction) (act : Option Action) (v' : Service)
    (pr : ProcId) : Prop
  | keep (h : ∃ alive registered, v'.procs pr = { v.procs pr with alive, registered })
  | create (hpr : pr = v.procCount) (hcount : v'.procCount = v.procCount + 1)
      (h : ∃ diskId file g, (∃ k, v.rpcs k = .create diskId file g ∧ a = .rpc k true) ∧
        v'.procs pr = { diskId, file, geometry := g, pc := .wait, alive := true })
  | post (ha : a = .run) (hrun : v.run = .post pr) (hrun' : v'.run = .setEvent pr)
      (h : v'.procs pr = { v.procs pr with mReq := v.req })
  | setEvent (ha : a = .run) (hrun : v.run = .setEvent pr) (hrun' : v'.run = .issue)
      (h : v'.procs pr = { v.procs pr with hEvent := true })
  | wake (ha : ∃ out, a = .disk pr out) (hpc : (v.procs pr).pc = .wait)
      (he : (v.procs pr).hEvent = true)
      (h : v'.procs pr = { v.procs pr with hEvent := false, pc := .exec })
  | removed (ha : ∃ out, a = .disk pr out) (hpc : (v.procs pr).pc = .wait)
      (he : (v.procs pr).hEvent = false)
      (h : v'.procs pr = { v.procs pr with pc := .final })
  | execute (out : IoOutcome) (ha : a = .disk pr out) (hpc : (v.procs pr).pc = .exec)
      (h : ∃ result f, v' = v.executed pr result f)
  | executeNone (ha : ∃ out, a = .disk pr out) (hpc : (v.procs pr).pc = .exec)
      (hc : ¬ ((v.procs pr).mReq.val.code = scsiopRead.toUInt32 ∨
        (v.procs pr).mReq.val.code = scsiopWrite.toUInt32))
      (h : v'.procs pr = { v.procs pr with pc := .reply })
  | reply (ha : ∃ out, a = .disk pr out) (hpc : (v.procs pr).pc = .reply)
      (hact : act = some (.call (.disk pr) (.sendReply (Service.reply (v.procs pr)))))
      (h : v'.procs pr = { v.procs pr with pc := .replying })
  | replied (ha : ∃ out, a = .disk pr out) (hpc : (v.procs pr).pc = .replying)
      (hret : ∃ status, d.calls (.disk pr) = .ret status)
      (h : v'.procs pr = { v.procs pr with pc := .wait })
  | final (ha : ∃ out, a = .disk pr out) (hpc : (v.procs pr).pc = .final)
      (h : ∃ alive, v'.procs pr = { v.procs pr with alive, pc := .exited })

/-- A processor that a step leaves alone. -/
theorem ProcStep.same {a : SysAction} {pr : ProcId} (h : v'.procs pr = v.procs pr) :
    ProcStep d v a act v' pr := .keep ⟨_, _, h⟩

/-- What a step does to one processor, the others being left alone. -/
theorem ProcStep.of_only {a : SysAction} (pr' : ProcId) (h : ProcStep d v a act v' pr')
    (hne : ∀ pr, pr ≠ pr' → v'.procs pr = v.procs pr) (pr : ProcId) :
    ProcStep d v a act v' pr := by
  by_cases hpr : pr = pr'
  · exact hpr ▸ h
  · exact .same (hne pr hpr)

/-- **Every step does one of these to every processor.** -/
theorem Serves.proc {a : SysAction} (m : Serves d v a act v') (pr : ProcId) :
    ProcStep d v a act v' pr := by
  have hne : ∀ {pr' f} pr, pr ≠ pr' → (v.setProc pr' f).procs pr = v.procs pr := by
    intro pr' f pr hpr
    rw [Service.setProc_procs, Function.update_of_ne hpr]
  have hself : ∀ {pr f}, (v.setProc pr f).procs pr = f (v.procs pr) := by
    intro pr f
    rw [Service.setProc_procs, Function.update_self]
  cases m with
  | driver | issue | issued | refused | got | gotNone | findNone | find => exact .same rfl
  | rpcAdd | rpcRemove | createFailed | insert | insertTaken => exact .same rfl
  | register | registerFailed | unregister | unregistered | rpcDone => exact .same rfl
  | @post pr' hrun =>
    exact .of_only _ (.post rfl hrun rfl (by simp)) (fun pr hpr => by simp [hpr]) pr
  | @setEvent pr' hrun =>
    exact .of_only _ (.setEvent rfl hrun rfl (by simp)) (fun pr hpr => by simp [hpr]) pr
  | @wake pr' out hpc _ he => exact .of_only _ (.wake ⟨out, rfl⟩ hpc he hself) hne pr
  | @removed pr' out hpc _ he => exact .of_only _ (.removed ⟨out, rfl⟩ hpc he hself) hne pr
  | @execute pr' out hpc hc =>
    refine .of_only _ (.execute out rfl hpc ⟨_, _, rfl⟩) (fun pr hpr => ?_) pr
    rw [Service.executed_procs, Function.update_of_ne hpr]
  | @executeNone pr' out hpc hc => exact .of_only _ (.executeNone ⟨out, rfl⟩ hpc hc hself) hne pr
  | @reply pr' out hpc => exact .of_only _ (.reply ⟨out, rfl⟩ hpc rfl hself) hne pr
  | @replied pr' out status hpc hret =>
    exact .of_only _ (.replied ⟨out, rfl⟩ hpc ⟨status, hret⟩ hself) hne pr
  | @final pr' out hpc =>
    obtain ⟨alive, hal⟩ := v.removeDisk_procs (v.procs pr').diskId pr
    by_cases hpr : pr = pr'
    · subst hpr
      refine .final ⟨out, rfl⟩ hpc ⟨alive, ?_⟩
      rw [Service.setProc_procs, Function.update_self, hal]
    · refine .keep ⟨alive, (v.procs pr).registered, ?_⟩
      rw [Service.setProc_procs, Function.update_of_ne hpr, hal]
  | @create k diskId file g hk =>
    refine .of_only _ (.create rfl rfl ⟨diskId, file, g, ⟨k, hk, rfl⟩, ?_⟩) (fun pr hpr => ?_) pr
    · exact Function.update_self ..
    · exact Function.update_of_ne hpr ..
  | @duplicate k ok pr' _ =>
    refine .of_only pr' (.keep ⟨false, (v.procs pr').registered, ?_⟩) (fun pr hpr => ?_) pr
    · simp
    · simp [hpr]
  | @registered k ok pr' status _ _ _ =>
    refine .of_only pr' (.keep ⟨(v.procs pr').alive, true, ?_⟩) (fun pr hpr => ?_) pr
    · simp
    · simp [hpr]
  | @undo k ok pr' _ =>
    obtain ⟨alive, hal⟩ := v.removeDisk_procs (v.procs pr').diskId pr
    exact .keep ⟨alive, _, hal⟩

/-- **A step of the Run loop** hands a processor the request, sets its event, or does neither. -/
theorem Serves.proc_run (m : Serves d v .run act v') (pr : ProcId) :
    (∃ alive registered, v'.procs pr = { v.procs pr with alive, registered }) ∨
    (v.run = .post pr ∧ v'.procs pr = { v.procs pr with mReq := v.req }) ∨
    v.run = .setEvent pr ∧ v'.procs pr = { v.procs pr with hEvent := true } := by
  cases m.proc pr with
  | keep h => exact .inl h
  | post _ hrun _ h => exact .inr (.inl ⟨hrun, h⟩)
  | setEvent _ hrun _ h => exact .inr (.inr ⟨hrun, h⟩)
  | create _ _ h =>
    obtain ⟨_, _, _, ⟨_, _, ha⟩, _⟩ := h
    cases ha
  | execute _ ha => cases ha
  | wake ha | removed ha | executeNone ha | reply ha | replied ha | final ha =>
    obtain ⟨_, ha⟩ := ha
    cases ha

/-- Processors are only created. -/
theorem Serves.procCount_le {a : SysAction} (m : Serves d v a act v') :
    v.procCount ≤ v'.procCount := by
  cases m with
  | final | undo => simp
  | create => exact Nat.le_succ _
  | _ => exact Nat.le_refl _

/-- The Run loop goes on in its own steps. -/
theorem Serves.run_of_ne {a : SysAction} (m : Serves d v a act v') (ha : a ≠ .run) :
    v'.run = v.run ∧ v'.req = v.req ∧ v'.rqCount = v.rqCount := by
  cases m with
  | final | undo => simp
  | _ => first | exact ⟨rfl, rfl, rfl⟩ | exact absurd rfl ha

namespace System

variable {s s' : System} {a : SysAction} {files : FileId → File}

/-- **A step of the system**: one of the service's, with the driver performing its action. -/
theorem step_serves (h : s.step a = some s') :
    ∃ act, Serves s.driver s.service a act s'.service ∧ perform s.driver act = some s'.driver := by
  obtain ⟨⟨act, v'⟩, hv, hd⟩ := Option.bind_eq_some_iff.mp h
  obtain ⟨d', hd', rfl⟩ := Option.map_eq_some_iff.mp hd
  exact ⟨act, Service.step_serves hv, hd'⟩

/-- A call of the service is made from outside the driver. -/
theorem idle_of_call {t : Tid} {c : Call} (hd : perform d (some (.call t c)) = some d') :
    d.calls t = .idle := by
  simp only [perform, Driver.step] at hd
  split at hd
  · assumption
  · cases hd

/-- A GET_REQUEST IRP is sent once. -/
theorem not_arrived_of_call {t : Tid} {r : RqId} {file : FileObject}
    (hd : perform d (some (.call t (.getRequest r file))) = some d') :
    ¬ (d.bus.requests r).arrived := by
  simp only [perform, Driver.step] at hd
  split at hd
  · simp only [Bus.enter] at hd
    split at hd
    · assumption
    · cases hd
  · cases hd

/-- **The driver of a system is the driver**: it is reached by a run of its own, whose steps are
those the service and its environment make there. -/
theorem driver_reach {C : System → SysAction → Prop} {D : Driver → Action → Prop}
    (hD : ∀ s a act v', (lts files).Reach C s → C s a →
      Serves s.driver s.service a (some act) v' → D s.driver act)
    (h : (lts files).Reach C s) : Driver.lts.Reach D s.driver := by
  refine h.image System.driver rfl fun s a s' hr hC hs => ?_
  obtain ⟨act, hv, hd⟩ := step_serves hs
  cases act with
  | none => exact .inl (Option.some.inj hd).symm
  | some a' => exact .inr ⟨a', hD s a a' s'.service hr hC hv, hd⟩

/-- The driver of a system, whatever its steps. -/
theorem driver_reachable {C : System → SysAction → Prop} (h : (lts files).Reach C s) :
    Driver.lts.Reachable s.driver := driver_reach (fun _ _ _ _ _ _ _ => trivial) h

/-- **The invariant rule of the system.**  A step is made in two parts, first the service's and then
the driver's, so an assertion about the two is an invariant if each part keeps it. -/
theorem invariant {C : System → SysAction → Prop} {I : Driver → Service → Prop}
    (h0 : I {} { files := files })
    (hserve : ∀ s a act v' d', (lts files).Reach C s → C s a → I s.driver s.service →
      Serves s.driver s.service a act v' → perform s.driver act = some d' → I s.driver v')
    (hact : ∀ s a act v' d', (lts files).Reach C s → C s a → I s.driver v' →
      Serves s.driver s.service a (some act) v' → s.driver.step act = some d' → I d' v')
    (h : (lts files).Reach C s) : I s.driver s.service := by
  refine h.invariant (I := fun s => I s.driver s.service) h0 fun s a s' hr hi hC hs => ?_
  obtain ⟨act, m, hd⟩ := step_serves hs
  have hv := hserve s a act s'.service s'.driver hr hC hi m hd
  cases act with
  | none => exact Option.some.inj hd ▸ hv
  | some a' => exact hact s a a' s'.service s'.driver hr hC hv m hd

end System

end VirtualDisk
