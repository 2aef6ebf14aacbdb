import VirtualDisk.Driver.Custody
import VirtualDisk.Service.Contents

/-!
# Service/Turns — whose turn it is

A thread of the service is inside the driver exactly while its own code waits there for a call to
return.  So where every call has returned, a thread that is not at one of its waits has a step, and
in a faultless run those are three: the Run loop's for its request, a disk thread's for its event,
and an RPC worker's for a call.
-/

namespace VirtualDisk

open Machinery

variable {t : Tid} {a : Action} {b b' : Bus} {pc pc' : Pc} {p : PdoId} {i : IrpId} {r : RqId}
variable {d d' : Driver} {v v' : Service} {pr : ProcId} {x : SysAction} {act : Option Action}

/-! ## The threads inside a call -/

/-- A thread of the system itself. -/
def Tid.external : Tid → Bool
  | .sys _ => true
  | _ => false

/-- The Run loop is inside `GetRequest`, before its wait. -/
def RunPc.calls : RunPc → Bool
  | .issuing _ => true
  | _ => false

/-- An RPC worker is inside the IOCTL that adds or removes its disk. -/
def RpcPc.calls : RpcPc → Bool
  | .registering _ | .unregistering => true
  | _ => false

/-- **The thread has called the driver**, and its call has not come back. -/
def Service.inside (v : Service) : Tid → Bool
  | .sys _ => false
  | .run => v.run.calls
  | .disk pr => (v.procs pr).pc = .replying
  | .rpc k => (v.rpcs k).calls

namespace Moves

/-- A thread enters a routine, leaves it, or is inside one before its step and after it. -/
theorem turns (m : Moves t b a pc b' pc') :
    ((∃ c, a = .call t c) ∧ pc' ≠ .idle) ∨ (a = .leave t ∧ pc' = .idle) ∨
    ((∃ ok, a = .step t ok) ∧ pc ≠ .idle ∧ pc' ≠ .idle) ∨
    (∃ i, a = .cancelIrp t i) ∨ ∃ r, a = .cancelRequest t r := by
  have hpc' : a ≠ .leave t → pc' ≠ .idle := fun ha hpc => ha (m.leaves hpc)
  cases a with
  | call t' c =>
    obtain rfl := Option.some.inj m.thread
    exact .inl ⟨⟨c, rfl⟩, hpc' Action.noConfusion⟩
  | step t' ok =>
    obtain rfl := Option.some.inj m.thread
    refine .inr (.inr (.inl ⟨⟨ok, rfl⟩, ?_, hpc' Action.noConfusion⟩))
    rintro rfl
    cases m
  | leave t' =>
    obtain rfl := Option.some.inj m.thread
    cases m
    exact .inr (.inl ⟨rfl, rfl⟩)
  | cancelIrp t' i =>
    obtain rfl := Option.some.inj m.thread
    exact .inr (.inr (.inr (.inl ⟨i, rfl⟩)))
  | cancelRequest t' r =>
    obtain rfl := Option.some.inj m.thread
    exact .inr (.inr (.inr (.inr ⟨r, rfl⟩)))
  | userWrite | userWait => cases m.thread

/-- A GET_REQUEST IRP comes in with a call. -/
theorem request_comes (m : Moves t b a pc b' pc') (hr : (b'.requests r).arrived = true) :
    (b.requests r).arrived = true ∨ ∃ file, a = .call t (.getRequest r file) := by
  cases m
  case callGetRequest x file _ =>
    by_cases hrx : r = x
    · exact .inr ⟨file, hrx ▸ rfl⟩
    · exact .inl (by simpa [hrx] using hr)
  all_goals
    left
    first
    | exact hr
    | (simp [Function.update_apply] at hr
       first | exact hr | (split at hr <;> simp_all))

/-- …and then it is known. -/
theorem request_sent {t' : Tid} {file : FileObject}
    (m : Moves t b (.call t' (.getRequest r file)) pc b' pc') :
    (b'.requests r).arrived = true := by
  cases m
  simp

end Moves

namespace Service

/-- The Run loop moves. -/
theorem inside_setRun {pc : RunPc} (h : t ≠ .run ∨ pc.calls = v.run.calls) :
    (v.setRun pc).inside t = v.inside t := by
  cases t with
  | run => exact h.resolve_left fun hne => hne rfl
  | _ => rfl

/-- An RPC worker moves. -/
theorem inside_setRpc {k : ℕ} {pc : RpcPc} (h : t ≠ .rpc k ∨ pc.calls = (v.rpcs k).calls) :
    (v.setRpc k pc).inside t = v.inside t := by
  cases t with
  | rpc k' =>
    rcases eq_or_ne k' k with rfl | hne
    · simpa [inside] using h
    · simp [inside, hne]
  | _ => rfl

/-- A processor changes. -/
theorem inside_setProc {f : CDiskProcessor → CDiskProcessor} (h : t ≠ .disk pr ∨
    ((f (v.procs pr)).pc = .replying ↔ (v.procs pr).pc = .replying)) :
    (v.setProc pr f).inside t = v.inside t := by
  cases t with
  | disk pr' =>
    rcases eq_or_ne pr' pr with rfl | hne
    · have h := h.resolve_left fun hne => hne rfl
      simp [inside, h]
    · simp [inside, hne]
  | _ => rfl

@[simp] theorem inside_deleteProc : (v.deleteProc pr).inside t = v.inside t :=
  inside_setProc (.inr Iff.rfl)

@[simp] theorem inside_setMap {diskId : ULONG} {o : Option ProcId} :
    (v.setMap diskId o).inside t = v.inside t := by cases t <;> rfl

@[simp] theorem inside_removeDisk (diskId : ULONG) :
    (v.removeDisk diskId).inside t = v.inside t := by
  unfold removeDisk
  split <;> simp

/-- A new processor's thread is outside. -/
theorem inside_createProc {diskId : ULONG} {file : FileId} {g : Geometry}
    (h : (v.procs v.procCount).pc ≠ .replying) :
    (v.createProc diskId file g).inside t = v.inside t := by
  cases t with
  | disk pr' =>
    rcases eq_or_ne pr' v.procCount with rfl | hne
    · simp [inside, h]
    · simp [inside, hne]
  | _ => rfl

end Service

namespace System

/-- **A step of the service** takes a thread into a call, out of one, or leaves it where it is. -/
theorem Calling.inside (h : Calling d v) (m : Serves d v x act v') (ht : t.external = false) :
    (v'.inside t = v.inside t ∧ (∀ c, act ≠ some (.call t c)) ∧ act ≠ some (.leave t)) ∨
    (∃ c, act = some (.call t c) ∧ v'.inside t = true) ∨
    (act = some (.leave t) ∧ v'.inside t = false) := by
  -- no call is made, and none comes back
  have hstay : ∀ {w : Service}, w.inside t = v.inside t →
      (w.inside t = v.inside t ∧ (∀ c, (none : Option Action) ≠ some (.call t c)) ∧
        (none : Option Action) ≠ some (.leave t)) := fun hw => ⟨hw, by simp, by simp⟩
  -- another thread makes one, or comes back from one
  have hcall : ∀ {t' c} {w : Service}, t ≠ t' → w.inside t = v.inside t →
      (w.inside t = v.inside t ∧ (∀ c', some (Action.call t' c) ≠ some (.call t c')) ∧
        some (Action.call t' c) ≠ some (.leave t)) := by
    intro t' c w hne hw
    refine ⟨hw, ?_, by simp⟩
    rintro c' ⟨⟩
    exact hne rfl
  have hleave : ∀ {t'} {w : Service}, t ≠ t' → w.inside t = v.inside t →
      (w.inside t = v.inside t ∧ (∀ c', some (Action.leave t') ≠ some (.call t c')) ∧
        some (Action.leave t') ≠ some (.leave t)) := by
    intro t' w hne hw
    refine ⟨hw, by simp, ?_⟩
    rintro ⟨⟩
    exact hne rfl
  cases m with
  | driver hext =>
    refine .inl ⟨rfl, ?_, ?_⟩
    · rintro c ⟨⟩
      cases t <;> simp_all [Action.external, Tid.external]
    · rintro ⟨⟩
      cases t <;> simp_all [Action.external, Tid.external]
  -- CDiskServer::Run
  | issue hrun =>
    by_cases htr : t = .run
    · subst htr
      exact .inr (.inl ⟨_, rfl, rfl⟩)
    · refine .inl (hcall htr ?_)
      cases t <;> first | rfl | exact absurd rfl htr
  | issued hrun | refused hrun =>
    by_cases htr : t = .run
    · subst htr
      exact .inr (.inr ⟨rfl, rfl⟩)
    · exact .inl (hleave htr (Service.inside_setRun (.inl htr)))
  | got hrun =>
    refine .inl (hstay ?_)
    cases t <;> simp [Service.inside, hrun, RunPc.calls]
  | gotNone hrun | findNone hrun =>
    exact .inl (hstay (Service.inside_setRun (.inr (by rw [hrun]; rfl))))
  | find hrun => exact .inl (hstay (Service.inside_setRun (.inr (by rw [hrun]; rfl))))
  | post hrun | setEvent hrun =>
    exact .inl (hstay ((Service.inside_setRun (.inr (by simp [hrun, RunPc.calls]))).trans
      (Service.inside_setProc (.inr Iff.rfl))))
  -- CDiskProcessor::threadProc
  | wake hpc | executeNone hpc =>
    exact .inl (hstay (Service.inside_setProc (.inr (by simp [hpc]))))
  | @final pr' _ hpc =>
    refine .inl (hstay ((Service.inside_setProc (.inr ?_)).trans (Service.inside_removeDisk _)))
    obtain ⟨alive, hal⟩ := v.removeDisk_procs (v.procs pr').diskId pr'
    simp [hal, hpc]
  | removed hpc =>
    exact .inl ⟨Service.inside_setProc (.inr (by simp [hpc])), by simp, by simp⟩
  | @execute pr' _ hpc =>
    refine .inl ⟨?_, by simp, by simp⟩
    cases t with
    | disk pr =>
      rcases eq_or_ne pr pr' with rfl | hne
      · simp [Service.inside, hpc]
      · simp [Service.inside, hne]
    | _ => rfl
  | @reply pr' _ hpc =>
    by_cases htr : t = .disk pr'
    · subst htr
      exact .inr (.inl ⟨_, rfl, by simp [Service.inside]⟩)
    · exact .inl (hcall htr (Service.inside_setProc (.inl htr)))
  | @replied pr' _ _ hpc =>
    by_cases htr : t = .disk pr'
    · subst htr
      exact .inr (.inr ⟨rfl, by simp [Service.inside]⟩)
    · exact .inl (hleave htr (Service.inside_setProc (.inl htr)))
  -- RPC workers
  | rpcAdd hk | rpcRemove hk | createFailed hk | rpcDone hk | insertTaken hk =>
    exact .inl (hstay (Service.inside_setRpc (.inr (by rw [hk]; rfl))))
  | create hk =>
    have hnew := h.new _ (Nat.le_refl v.procCount)
    refine .inl (hstay ((Service.inside_setRpc (.inr ?_)).trans (Service.inside_createProc ?_)))
    · simp [hk, RpcPc.calls]
    · rw [hnew]
      exact ProcPc.noConfusion
  | insert hk | duplicate hk | undo hk =>
    exact .inl (hstay ((Service.inside_setRpc (.inr (by simp [hk, RpcPc.calls]))).trans (by simp)))
  | @register k | @unregister k =>
    by_cases htr : t = .rpc k
    · subst htr
      exact .inr (.inl ⟨_, rfl, by simp [Service.inside, RpcPc.calls]⟩)
    · exact .inl (hcall htr (Service.inside_setRpc (.inl htr)))
  | @registered k =>
    by_cases htr : t = .rpc k
    · subst htr
      exact .inr (.inr ⟨rfl, by simp [Service.inside, RpcPc.calls]⟩)
    · exact .inl (hleave htr ((Service.inside_setRpc (.inl htr)).trans
        (Service.inside_setProc (.inr Iff.rfl))))
  | @registerFailed k | @unregistered k =>
    by_cases htr : t = .rpc k
    · subst htr
      exact .inr (.inr ⟨rfl, by simp [Service.inside, RpcPc.calls]⟩)
    · exact .inl (hleave htr (Service.inside_setRpc (.inl htr)))

/-- **The service's threads and the driver agree on who is inside a call**, and on the requests that
were sent. -/
structure Synced (d : Driver) (v : Service) : Prop where
  inside : ∀ t, t.external = false → (d.calls t = .idle ↔ v.inside t = false)
  fresh : ∀ r, v.rqCount ≤ r → (d.bus.requests r).arrived = false
  asked : ∀ r, v.run = .issuing r ∨ v.run = .waiting r → (d.bus.requests r).arrived = true

/-- A step that takes no thread in or out keeps them in agreement. -/
theorem Synced.serve (h : Synced d v) (hc : Calling d v) (m : Serves d v x act v')
    (hno : ∀ t, (∀ c, act ≠ some (.call t c)) ∧ act ≠ some (.leave t)) : Synced d v' := by
  refine ⟨fun t ht => ?_, ?_, ?_⟩
  · rcases hc.inside m ht with ⟨heq, -⟩ | ⟨c, hcall, -⟩ | ⟨hleave, -⟩
    · rw [heq]
      exact h.inside t ht
    · exact absurd hcall ((hno t).1 c)
    · exact absurd hleave (hno t).2
  · intro r hr
    refine h.fresh r (Nat.le_trans ?_ hr)
    cases m <;> simp
  · intro r hr
    by_cases hx : x = .run
    · subst hx
      cases m with
      | issue => exact absurd rfl ((hno .run).1 _)
      | issued | refused => exact absurd rfl (hno .run).2
      | got | gotNone | findNone | find | post | setEvent => rcases hr with hr | hr <;> cases hr
    · exact h.asked r ((m.run_of_ne hx).1 ▸ hr)

variable {s s' : System} {files : FileId → File} {C : System → SysAction → Prop}

/-- The thread that makes an action goes in or out with it. -/
theorem Synced.inside_step (h : Synced d v) (hc : Calling d v) (m : Serves d v x (some a) v')
    (hm : Moves t d.bus a (d.calls t) b' pc') {t₂ : Tid} (ht : t₂.external = false) :
    (d.put t (b', pc')).calls t₂ = .idle ↔ v'.inside t₂ = false := by
  have hin := hc.inside m ht
  rcases eq_or_ne t₂ t with rfl | hne
  · rw [Driver.put_calls_self]
    rcases hm.turns with ⟨⟨c, rfl⟩, hpc⟩ | ⟨rfl, rfl⟩ | ⟨⟨ok, rfl⟩, hpc, hpc'⟩ | ⟨i, rfl⟩ | ⟨r, rfl⟩
    · rcases hin with ⟨-, hno, -⟩ | ⟨_, -, hin⟩ | ⟨ha, -⟩
      · exact absurd rfl (hno c)
      · exact iff_of_false hpc (by simp [hin])
      · cases ha
    · rcases hin with ⟨-, -, hno⟩ | ⟨_, ha, -⟩ | ⟨-, hin⟩
      · exact absurd rfl hno
      · cases ha
      · exact iff_of_true rfl hin
    · rcases hin with ⟨heq, -⟩ | ⟨_, ha, -⟩ | ⟨ha, -⟩
      · rw [heq]
        exact iff_of_false hpc' fun hout => hpc ((h.inside t₂ ht).mpr hout)
      · cases ha
      · cases ha
    · have hmakes := m.makes
      cases t₂ <;> first | (cases ht; done) | exact hmakes.elim
    · have hmakes := m.makes
      cases t₂ <;> first | (cases ht; done) | exact hmakes.elim
  · rw [Driver.put_calls_of_ne d hne]
    rcases hin with ⟨heq, -⟩ | ⟨c, ha, -⟩ | ⟨ha, -⟩
    · rw [heq]
      exact h.inside t₂ ht
    · cases ha
      exact absurd (Option.some.inj hm.thread) hne
    · cases ha
      exact absurd (Option.some.inj hm.thread) hne

/-- A step with an action keeps them in agreement. -/
theorem Synced.step (h : Synced d v) (hc : Calling d v) (m : Serves d v x (some a) v')
    (hd : d.step a = some d') : Synced d' v' := by
  have hcount : v.rqCount ≤ v'.rqCount := by cases m <;> simp
  rcases Driver.step_moves hd with ⟨t, b', pc', hm, rfl⟩ | ⟨n, f, rfl, rfl⟩ | ⟨e, rfl, -, rfl⟩
  · refine ⟨fun t₂ ht => h.inside_step hc m hm ht, ?_, ?_⟩
    · intro r hr
      by_contra harr
      rcases hm.request_comes (Bool.not_eq_false _ ▸ harr) with hold | ⟨file, rfl⟩
      · rw [h.fresh r (Nat.le_trans hcount hr)] at hold
        cases hold
      · cases m with
        | driver hext => cases t <;> cases hext
        | issue => exact absurd hr (Nat.not_succ_le_self _)
    · intro r hr
      by_cases hx : x = .run
      · subst hx
        cases m with
        | issue =>
          rcases hr with hr | hr <;> cases hr
          exact hm.request_sent
        | issued hrun =>
          rcases hr with hr | hr <;> cases hr
          exact hm.request_arrived (h.asked r (.inl hrun))
        | refused => rcases hr with hr | hr <;> cases hr
      · exact hm.request_arrived (h.asked r ((m.run_of_ne hx).1 ▸ hr))
  · have hv := h.serve hc m fun t => ⟨by simp, by simp⟩
    exact ⟨hv.1, hv.2, hv.3⟩
  · have hv := h.serve hc m fun t => ⟨by simp, by simp⟩
    exact ⟨hv.1, hv.2, hv.3⟩

/-- **They agree in every state reached.** -/
theorem synced (h : (lts files).Reach C s) : Synced s.driver s.service := by
  refine h.invariant (I := fun s => Synced s.driver s.service) ⟨?_, ?_, ?_⟩ ?_
  · intro t ht
    cases t <;> first | (cases ht; done) | exact iff_of_true rfl rfl
  · exact fun _ _ => rfl
  · rintro r (hr | hr) <;> cases hr
  · intro s x s' hr hi _ hs
    obtain ⟨act, m, hd⟩ := step_serves hs
    cases act with
    | none =>
      rw [← Option.some.inj hd]
      exact hi.serve (calling hr) m fun t => ⟨by simp, by simp⟩
    | some a => exact hi.step (calling hr) m hd

/-! ## Whose turn it is -/

/-- The service makes a step when the driver makes its action. -/
theorem exists_step (hv : v.step d x = some (act, v')) (hd : ∃ d', perform d act = some d') :
    ∃ s', (⟨d, v⟩ : System).step x = some s' := by
  obtain ⟨d', hd⟩ := hd
  exact ⟨⟨d', v'⟩, by rw [System.step, hv, Option.bind_some, hd, Option.map_some]⟩

/-- …or when there is none to make. -/
theorem exists_plain_step (hv : v.step d x = some (none, v')) :
    ∃ s', (⟨d, v⟩ : System).step x = some s' := exists_step hv ⟨d, rfl⟩

/-- A thread outside the driver can call it. -/
theorem exists_call {c : Call} (hidle : d.calls t = .idle) (hc : ∃ y, d.bus.enter c = some y) :
    ∃ d', perform d (some (.call t c)) = some d' := by
  obtain ⟨y, hc⟩ := hc
  exact ⟨d.put t y, by simp [perform, Driver.step, hidle, hc]⟩

/-- A thread whose call has returned can leave. -/
theorem exists_leave {status : NTSTATUS} (hret : d.calls t = .ret status) :
    ∃ d', perform d (some (.leave t)) = some d' :=
  ⟨d.put t (d.bus, .idle), by simp [perform, Driver.step, hret]⟩

/-- The owner of a buffer can write to it. -/
theorem exists_write {m : BufferId} {f : Bytes} :
    ∃ d', perform d (some (.userWrite m f)) = some d' := ⟨_, rfl⟩

section Turns

variable (h : Synced d v)

include h

/-- A thread of the service that has called nothing can. -/
theorem Synced.idle (ht : t.external = false) (hout : v.inside t = false) : d.calls t = .idle :=
  (h.inside t ht).mpr hout

/-- A call of the service that is not in a routine any more has returned. -/
theorem Synced.returned (hout : (d.calls t).outside = true) (ht : t.external = false)
    (hin : v.inside t = true) : ∃ status, d.calls t = .ret status := by
  have hne : d.calls t ≠ .idle := fun hidle => by
    rw [(h.inside t ht).mp hidle] at hin
    cases hin
  cases hpc : d.calls t <;> rw [hpc] at hne hout <;> first
    | exact absurd rfl hne
    | exact ⟨_, rfl⟩
    | cases hout

/-- **The Run loop has a step**, unless it waits for its request, or was refused. -/
theorem Synced.run_turn (hout : (d.calls .run).outside = true) :
    (∃ s', (⟨d, v⟩ : System).step .run = some s') ∨ v.run = .stopped ∨
      ∃ r, v.run = .waiting r ∧ (d.bus.requests r).completed = false := by
  cases hrun : v.run with
  | issue =>
    have hidle := h.idle (t := .run) rfl (by rw [Service.inside, hrun]; rfl)
    have hnew := h.fresh v.rqCount (Nat.le_refl _)
    refine .inl (exists_step (by rw [Service.step, Service.runStep, hrun]) (exists_call hidle ?_))
    simp [Bus.enter, hnew]
  | issuing r =>
    obtain ⟨status, hret⟩ := h.returned hout (t := .run) rfl (by rw [Service.inside, hrun]; rfl)
    exact .inl (exists_step (by rw [Service.step, Service.runStep, hrun]; rw [hret])
      (exists_leave hret))
  | waiting r =>
    cases hc : (d.bus.requests r).completed with
    | true =>
      exact .inl (exists_plain_step (by
        rw [Service.step, Service.runStep, hrun]
        exact if_pos hc))
    | false => exact .inr (.inr ⟨r, rfl, hc⟩)
  | find | post | setEvent =>
    exact .inl (exists_plain_step (by rw [Service.step, Service.runStep, hrun]))
  | stopped => exact .inr (.inl rfl)

/-- **A disk thread has a step**, unless it waits for its event, or is gone. -/
theorem Synced.disk_turn (hout : (d.calls (.disk pr)).outside = true) :
    (∃ s', (⟨d, v⟩ : System).step (.disk pr .complete) = some s') ∨
    (v.procs pr).pc = .exited ∨ ((v.procs pr).pc = .wait ∧
      ((v.procs pr).alive = true → (v.procs pr).hEvent = false)) := by
  cases hpc : (v.procs pr).pc with
  | wait =>
    by_cases hw : (v.procs pr).alive = true → (v.procs pr).hEvent = false
    · exact .inr (.inr ⟨rfl, hw⟩)
    · obtain ⟨ha, he⟩ : (v.procs pr).alive = true ∧ (v.procs pr).hEvent = true := by simpa using hw
      exact .inl (exists_plain_step (by
        rw [Service.step, Service.diskStep, hpc]
        exact (if_neg (not_not.mpr ha)).trans (if_pos he)))
  | exec =>
    by_cases hc : (v.procs pr).mReq.val.code = scsiopRead.toUInt32 ∨
        (v.procs pr).mReq.val.code = scsiopWrite.toUInt32
    · exact .inl (exists_step (by
        rw [Service.step, Service.diskStep, hpc]
        exact if_pos hc) exists_write)
    · exact .inl (exists_plain_step (by
        rw [Service.step, Service.diskStep, hpc]
        exact if_neg hc))
  | reply =>
    have hidle := h.idle (t := .disk pr) rfl (by simp [Service.inside, hpc])
    refine .inl (exists_step (by rw [Service.step, Service.diskStep, hpc]) (exists_call hidle ?_))
    exact ⟨_, rfl⟩
  | replying =>
    obtain ⟨status, hret⟩ := h.returned hout (t := .disk pr) rfl (by simp [Service.inside, hpc])
    exact .inl (exists_step (by rw [Service.step, Service.diskStep, hpc]; rw [hret])
      (exists_leave hret))
  | final => exact .inl (exists_plain_step (by rw [Service.step, Service.diskStep, hpc]))
  | exited => exact .inr (.inl rfl)

/-- **An RPC worker has a step**, unless it waits for a call. -/
theorem Synced.rpc_turn {k : ℕ} (hout : (d.calls (.rpc k)).outside = true) :
    (∃ s', (⟨d, v⟩ : System).step (.rpc k true) = some s') ∨ v.rpcs k = .idle := by
  cases hk : v.rpcs k with
  | idle => exact .inr rfl
  | create =>
    exact .inl (exists_plain_step (by
      rw [Service.step, Service.rpcStep, hk]
      exact if_pos rfl))
  | duplicate | undo | done =>
    exact .inl (exists_plain_step (by rw [Service.step, Service.rpcStep, hk]))
  | insert pr =>
    cases hm : v.diskMap (v.procs pr).diskId with
    | none | some =>
      exact .inl (exists_plain_step (by
        rw [Service.step, Service.rpcStep, hk]
        dsimp only
        rw [hm]))
  | register pr =>
    have hidle := h.idle (t := .rpc k) rfl (by rw [Service.inside, hk]; rfl)
    refine .inl (exists_step (by rw [Service.step, Service.rpcStep, hk]) (exists_call hidle ?_))
    exact ⟨_, rfl⟩
  | registering pr =>
    obtain ⟨status, hret⟩ := h.returned hout (t := .rpc k) rfl (by rw [Service.inside, hk]; rfl)
    exact .inl (exists_step (by rw [Service.step, Service.rpcStep, hk]; rw [hret])
      (exists_leave hret))
  | unregister diskId =>
    have hidle := h.idle (t := .rpc k) rfl (by rw [Service.inside, hk]; rfl)
    refine .inl (exists_step (by rw [Service.step, Service.rpcStep, hk]) (exists_call hidle ?_))
    exact ⟨_, rfl⟩
  | unregistering =>
    obtain ⟨status, hret⟩ := h.returned hout (t := .rpc k) rfl (by rw [Service.inside, hk]; rfl)
    exact .inl (exists_step (by rw [Service.step, Service.rpcStep, hk]; rw [hret])
      (exists_leave hret))

end Turns

end System

end VirtualDisk
