import Mathlib.Algebra.BigOperators.Intervals
import VirtualDisk.Driver.Quiescence
import VirtualDisk.Driver.Wakeup
import VirtualDisk.Service.Turns
import VirtualDisk.Service.Refinement

/-!
# Service/Liveness — every request is answered

In a faultless run in which no disk misses its wake-up, the driver and the service come to rest when
no call comes in any more, whatever the order of their steps; and then every READ and every WRITE
that was sent is completed.

The measure has two levels.  A step of the service lowers the outer one: what it does is paid for by
a request that was handed out, or by a call.  A step inside the driver lowers the outer one when it
hands a request out, and otherwise what is left for the driver's routines to do, which starts anew
with each call.
-/

namespace VirtualDisk

open Machinery

variable {t : Tid} {a : Action} {b b' : Bus} {pc pc' : Pc} {p : PdoId} {i : IrpId} {r : RqId}
variable {d d' : Driver} {v v' : Service} {pr : ProcId} {x : SysAction} {act : Option Action}

/-! ## What the service has still to do -/

namespace Bus

/-- The IRPs that were sent, with their disks. -/
def arrivals (b : Bus) : Finset (PdoId × IrpId) :=
  (b.trace.filterMap fun
    | .arrive p i => some (p, i)
    | _ => none).toFinset

/-- **How many requests are still to be handed out.** -/
def undelivered (b : Bus) : ℕ := (b.arrivals.filter fun x => x.2 ∉ b.handedOut x.1).card

theorem mem_arrivals : (p, i) ∈ b.arrivals ↔ .arrive p i ∈ b.trace := by
  simp only [arrivals, List.mem_toFinset, List.mem_filterMap]
  constructor
  · rintro ⟨e, he, heq⟩
    cases e <;> cases heq
    exact he
  · exact fun h => ⟨_, h, rfl⟩

end Bus

namespace Moves

/-- An IRP comes in with a call. -/
theorem undelivered_le (m : Moves t b a pc b' pc') (hnew : b.pdos b.pdoCount = {})
    (ha : ∀ p i srb, a ≠ .call t (.scsi p i srb)) : b'.undelivered ≤ b.undelivered := by
  refine Finset.card_le_card fun x hx => ?_
  obtain ⟨p, i⟩ := x
  simp only [Finset.mem_filter, Bus.mem_arrivals] at hx ⊢
  obtain ⟨harr, hnot⟩ := hx
  refine ⟨?_, fun hmem => hnot ?_⟩
  · rcases m.of_arrive harr with hold | ⟨srb, hcall, -⟩
    · exact hold
    · exact absurd hcall (ha p i srb)
  · rcases (m.exchange hnew).handedOut (p := p) with ⟨heq, -⟩ | ⟨j, heq, -⟩
    · exact heq ▸ hmem
    · exact heq ▸ List.mem_cons_of_mem _ hmem

end Moves

/-- **A request that is handed out was to be handed out.** -/
theorem Bus.undelivered_startIrp (h : Justified Event.Follows (b.startIrp p r i).trace) :
    (b.startIrp p r i).undelivered < b.undelivered := by
  have hcopies : ∀ q, (b.startIrp p r i).handedOut q =
      if p = q then i :: b.handedOut q else b.handedOut q := by
    intro q
    simp only [handedOut, startIrp_trace]
    split <;> split <;> simp [Event.handedTo, List.filterMap_cons, *]
  have harrivals : (b.startIrp p r i).arrivals = b.arrivals := by
    ext ⟨q, j⟩
    simp only [mem_arrivals, startIrp_trace]
    split <;> simp
  have hnot : .arrive p i ∈ b.trace ∧ i ∉ b.handedOut p := by
    simp only [startIrp_trace] at h
    obtain ⟨harr, hi⟩ := Justified.of_append (show Justified _ ([] ++ _ :: _) from h)
    split at harr <;> split at hi <;>
      simp_all [handedOut, Event.handedTo, List.filterMap_cons]
  refine Finset.card_lt_card ⟨fun x hx => ?_, fun hsub => ?_⟩
  · simp only [harrivals, Finset.mem_filter, hcopies] at hx ⊢
    refine ⟨hx.1, fun hmem => hx.2 ?_⟩
    split
    · exact List.mem_cons_of_mem _ hmem
    · exact hmem
  · have hmem := hsub (Finset.mem_filter.mpr ⟨mem_arrivals.mpr hnot.1, hnot.2⟩)
    simp [hcopies] at hmem

/-- The steps left of a round of the Run loop, to its wait. -/
def RunPc.work : RunPc → ℕ
  | .issue => 2
  | .issuing _ => 1
  | .waiting _ | .stopped => 0
  | .find => 9
  | .post _ => 8
  | .setEvent _ => 7

/-- The GET_REQUEST IRP the Run loop waits for. -/
def RunPc.request : RunPc → Option RqId
  | .issuing r | .waiting r => some r
  | _ => none

/-- The steps left of a round of a disk thread. -/
def ProcPc.work : ProcPc → ℕ
  | .wait => 2
  | .exec => 5
  | .reply => 4
  | .replying => 3
  | .final => 1
  | .exited => 0

/-- The steps left of an RPC, and of the thread it creates. -/
def RpcPc.work : RpcPc → ℕ
  | .create _ _ _ => 8
  | .insert _ => 5
  | .register _ => 4
  | .registering _ | .unregister _ => 3
  | .undo _ | .duplicate _ | .unregistering => 2
  | .done _ => 1
  | .idle => 0

/-- What a disk thread has still to do: with its event set, another round. -/
def CDiskProcessor.work (x : CDiskProcessor) : ℕ := x.pc.work + if x.hEvent then 4 else 0

namespace Service

/-- What the Run loop has still to do: with its request filled, it is to be posted. -/
def runWork (v : Service) (b : Bus) : ℕ :=
  v.run.work +
    if (v.run.request.bind fun r => (b.requests r).systemBuffer).isSome then 10 else 0

/-- What the disk threads have still to do. -/
def procWork (v : Service) : ℕ := ∑ pr ∈ Finset.range v.procCount, (v.procs pr).work

/-- What these RPC workers have still to do. -/
def rpcWork (v : Service) (ks : Finset ℕ) : ℕ := ∑ k ∈ ks, (v.rpcs k).work

variable {ks : Finset ℕ} {k : ℕ}

theorem procWork_congr (hc : v'.procCount = v.procCount)
    (h : ∀ pr, (v'.procs pr).pc = (v.procs pr).pc ∧
      (v'.procs pr).hEvent = (v.procs pr).hEvent) : v'.procWork = v.procWork := by
  unfold procWork
  rw [hc]
  exact Finset.sum_congr rfl fun pr _ => by rw [CDiskProcessor.work, (h pr).1, (h pr).2]; rfl

/-- One disk thread goes on. -/
theorem procWork_setProc {f : CDiskProcessor → CDiskProcessor} (hpr : pr < v.procCount)
    (h : (f (v.procs pr)).work < (v.procs pr).work) : (v.setProc pr f).procWork < v.procWork := by
  refine Finset.sum_lt_sum (fun pr₂ _ => ?_) ⟨pr, Finset.mem_range.mpr hpr, ?_⟩
  · by_cases hne : pr₂ = pr
    · subst hne
      simpa using Nat.le_of_lt h
    · simp [hne]
  · simpa using h

/-- A thread is created at its wait. -/
theorem procWork_createProc (diskId : ULONG) (file : FileId) (g : Geometry) :
    (v.createProc diskId file g).procWork = v.procWork + 2 := by
  rw [procWork, createProc_procCount, Finset.sum_range_succ]
  congr 1
  · refine Finset.sum_congr rfl fun pr hpr => ?_
    rw [createProc_procs, Function.update_of_ne (Nat.ne_of_lt (Finset.mem_range.mp hpr))]
  · simp [CDiskProcessor.work, ProcPc.work]

/-- An RPC worker goes on. -/
theorem rpcWork_setRpc (pc : RpcPc) (hk : k ∈ ks) :
    (v.setRpc k pc).rpcWork ks + (v.rpcs k).work = v.rpcWork ks + pc.work := by
  have hsum := sum_update (fun k => (v.rpcs k).work) (fun k₂ => ((v.setRpc k pc).rpcs k₂).work) hk
    fun k₂ hne => by simp [hne]
  simpa [rpcWork] using hsum

end Service

/-- Steps of the system that bring no call in: those of the threads inside the driver, and of the
service's own. -/
def SysAction.onward : SysAction → Bool
  | .driver (.step _ _) | .run | .disk _ _ | .rpc _ _ => true
  | _ => false

/-! ## The service's own steps -/

namespace System

variable {ks : Finset ℕ} {k : ℕ}

/-- **A step of the Run loop**: a request that came back pays for the event. -/
theorem work_run (m : Serves d v .run act v') (hw : Waits d v) (hf : d.Fills) (ha : Asking d v)
    (hnew : (d.bus.requests v.rqCount).systemBuffer = none) :
    v'.runWork d.bus + v'.procWork < v.runWork d.bus + v.procWork := by
  -- only a step that moves a request on to a processor is about one
  have hown : v'.procWork = v.procWork → v'.runWork d.bus < v.runWork d.bus →
      v'.runWork d.bus + v'.procWork < v.runWork d.bus + v.procWork := fun hp hr => by omega
  cases m with
  | issue h =>
    refine hown rfl ?_
    simp [Service.runWork, h, RunPc.work, RunPc.request, hnew]
  | issued h =>
    refine hown rfl ?_
    simp [Service.runWork, h, RunPc.work, RunPc.request]
  | refused h hret hs => exact absurd (ha.pending hret) hs
  | @got r h hc hs =>
    have hfull := Option.isSome_iff_ne_none.mpr (hf.succeeded r hc hs)
    refine hown rfl ?_
    simp [Service.runWork, h, RunPc.work, RunPc.request, hfull]
  | gotNone h hc hs => exact absurd (hw.waiting _ h) hs
  | findNone h | find h =>
    refine hown rfl ?_
    simp [Service.runWork, h, RunPc.work, RunPc.request]
  | @post pr h =>
    have hp : ((v.setProc pr fun x => { x with mReq := v.req }).setRun (.setEvent pr)).procWork =
        v.procWork := by
      refine Service.procWork_congr rfl fun pr₂ => ?_
      by_cases hne : pr₂ = pr <;> simp [hne]
    refine hown hp ?_
    simp [Service.runWork, h, RunPc.work, RunPc.request]
  | @setEvent pr h =>
    have hp : ((v.setProc pr fun x => { x with hEvent := true }).setRun .issue).procWork ≤
        v.procWork + 4 := by
      refine sum_le_add (t := pr) _ _ (fun pr₂ hne => ?_) ?_
      · simp [hne]
      · simp [CDiskProcessor.work]
    simp [Service.runWork, h, RunPc.work, RunPc.request]
    omega

/-- **A step of a disk thread.** -/
theorem work_disk {out : IoOutcome} (m : Serves d v (.disk pr out) act v') (hc : Calling d v) :
    v'.procWork < v.procWork ∧ v'.run = v.run ∧ v'.rpcs = v.rpcs := by
  have hlt : (v.procs pr).pc ≠ .exited → pr < v.procCount := fun hpc => by
    by_contra hle
    exact hpc (hc.new pr (Nat.not_lt.mp hle))
  cases m with
  | wake h _ he =>
    refine ⟨Service.procWork_setProc (hlt (by rw [h]; decide)) ?_, rfl, rfl⟩
    simp [CDiskProcessor.work, h, he, ProcPc.work]
  | removed h | executeNone h | reply h | replied h =>
    refine ⟨Service.procWork_setProc (hlt (by rw [h]; decide)) ?_, rfl, rfl⟩
    simp [CDiskProcessor.work, h, ProcPc.work]
  | execute h =>
    refine ⟨?_, rfl, rfl⟩
    refine Finset.sum_lt_sum (fun pr₂ _ => ?_)
      ⟨pr, Finset.mem_range.mpr (hlt (by rw [h]; decide)), ?_⟩
    · by_cases hne : pr₂ = pr
      · subst hne
        simp [CDiskProcessor.work, h, ProcPc.work]
      · simp [hne]
    · simp [CDiskProcessor.work, h, ProcPc.work]
  | final h =>
    refine ⟨?_, by simp, by simp⟩
    have hsame : (v.removeDisk (v.procs pr).diskId).procWork = v.procWork := by
      refine Service.procWork_congr (by simp) fun pr₂ => ?_
      obtain ⟨alive, heq⟩ := v.removeDisk_procs (v.procs pr).diskId pr₂
      rw [heq]
      exact ⟨rfl, rfl⟩
    rw [← hsame]
    refine Service.procWork_setProc (by simpa using hlt (by rw [h]; decide)) ?_
    obtain ⟨alive, heq⟩ := v.removeDisk_procs (v.procs pr).diskId pr
    simp [CDiskProcessor.work, heq, h, ProcPc.work]

/-- **A step of an RPC worker**: the thread it creates is paid for. -/
theorem work_rpc {ok : Bool} (m : Serves d v (.rpc k ok) act v') (hn : ∀ k ∉ ks, v.rpcs k = .idle) :
    v'.rpcWork ks + v'.procWork < v.rpcWork ks + v.procWork ∧ v'.run = v.run := by
  have hk : 0 < (v.rpcs k).work → k ∈ ks := fun hlt => by
    by_contra hk
    rw [hn k hk] at hlt
    exact absurd hlt (Nat.lt_irrefl 0)
  -- the worker alone goes on
  have hown : ∀ {w : Service} {pc : RpcPc}, w.rpcs = v.rpcs → w.run = v.run →
      w.procWork = v.procWork → pc.work < (v.rpcs k).work →
      (w.setRpc k pc).rpcWork ks + (w.setRpc k pc).procWork < v.rpcWork ks + v.procWork ∧
        (w.setRpc k pc).run = v.run := by
    intro w pc hw hrun hp hlt
    have hsum := Service.rpcWork_setRpc (v := w) pc (hk (Nat.zero_lt_of_lt hlt))
    have hsame : w.rpcWork ks = v.rpcWork ks := by rw [Service.rpcWork, hw]; rfl
    have hproc : (w.setRpc k pc).procWork = w.procWork := rfl
    rw [hw, hsame] at hsum
    exact ⟨by omega, hrun⟩
  cases m with
  | createFailed h | insertTaken h | register h | registerFailed h | unregister h | unregistered h
  | rpcDone h | insert h =>
    refine hown rfl rfl rfl ?_
    rw [h]
    exact Nat.le_of_ble_eq_true rfl
  | @create _ diskId file g h =>
    have hsum := Service.rpcWork_setRpc (v := v) (.insert v.procCount)
      (hk (by rw [h]; exact Nat.le_of_ble_eq_true rfl))
    rw [h] at hsum
    have hproc := Service.procWork_createProc (v := v) diskId file g
    refine ⟨?_, rfl⟩
    show (v.setRpc k (.insert v.procCount)).rpcWork ks + (v.createProc diskId file g).procWork < _
    simp only [RpcPc.work] at hsum
    omega
  | @duplicate _ _ pr' h =>
    refine hown rfl rfl (Service.procWork_congr rfl fun pr => ?_) ?_
    · by_cases hne : pr = pr' <;> simp [hne]
    · rw [h]
      exact Nat.le_of_ble_eq_true rfl
  | @registered _ _ pr' _ h =>
    refine hown rfl rfl (Service.procWork_congr rfl fun pr => ?_) ?_
    · by_cases hne : pr = pr' <;> simp [hne]
    · rw [h]
      exact Nat.le_of_ble_eq_true rfl
  | undo h =>
    refine hown (by simp) (by simp) (Service.procWork_congr (by simp) fun pr => ?_) ?_
    · obtain ⟨alive, heq⟩ := v.removeDisk_procs _ pr
      rw [heq]
      exact ⟨rfl, rfl⟩
    · rw [h]
      exact Nat.le_of_ble_eq_true rfl

variable {s s' : System} {files : FileId → File}

/-- **What the service has still to do**, in the requests that are to be handed out, too. -/
def work (ks : Finset ℕ) (s : System) : ℕ :=
  11 * s.driver.bus.undelivered + s.service.runWork s.driver.bus + s.service.procWork +
    s.service.rpcWork ks

/-- The service's own steps make no routine go on, and bring no READ or WRITE in. -/
theorem not_step_of_serves (m : Serves d v x (some a) v') (hx : ∀ a, x ≠ .driver a) :
    (∀ t ok, a ≠ .step t ok) ∧ ∀ t p i srb, a ≠ .call t (.scsi p i srb) := by
  cases m
  case driver => exact absurd rfl (hx _)
  all_goals exact ⟨by simp, by simp⟩

/-- **What the service's steps do in the driver** is no work. -/
theorem work_perform (hl : d.Linked) (m : Serves d v x act v') (hx : ∀ a, x ≠ .driver a)
    (hd : perform d act = some d') : d'.bus.undelivered ≤ d.bus.undelivered ∧
      ∀ r, (d'.bus.requests r).systemBuffer = (d.bus.requests r).systemBuffer := by
  cases act with
  | none =>
    obtain rfl := Option.some.inj hd
    exact ⟨Nat.le_refl _, fun _ => rfl⟩
  | some a =>
    obtain ⟨hstep, hcall⟩ := not_step_of_serves m hx
    rcases Driver.step_moves hd with ⟨t, b', pc', hm, rfl⟩ | ⟨n, f, -, rfl⟩ | ⟨e, -, -, rfl⟩
    · refine ⟨hm.undelivered_le (hl.new _ (Nat.le_refl _)) (hcall t), fun r => ?_⟩
      rcases hm.systemBuffer (r := r) with heq | ⟨p, i, -, ha, -⟩
      · exact heq
      · exact absurd ha (hstep t true)
    · exact ⟨Nat.le_refl _, fun _ => rfl⟩
    · exact ⟨Nat.le_refl _, fun _ => rfl⟩

/-- **Every step of the service leaves less to do.** -/
theorem work_serve {ks : Finset ℕ} (h : (lts files).Reach Faultless s)
    (hn : ∀ k ∉ ks, s.service.rpcs k = .idle) (hx : ∀ a, x ≠ .driver a) (hon : x.onward = true)
    (hs : s.step x = some s') : work ks s' < work ks s := by
  obtain ⟨act, m, hd⟩ := step_serves hs
  have hdr := driver_reachable h
  have hlinked := Driver.linked hdr
  obtain ⟨hund, hbuf⟩ := work_perform hlinked m hx hd
  have hrun : s'.service.runWork s'.driver.bus = s'.service.runWork s.driver.bus := by
    simp only [Service.runWork, hbuf]
  have hkeep : s'.service.run = s.service.run →
      s'.service.runWork s.driver.bus = s.service.runWork s.driver.bus := fun heq => by
    simp only [Service.runWork, heq]
  unfold work
  rw [hrun]
  cases x with
  | driver a => exact absurd rfl (hx a)
  | rpcCall => cases hon
  | run =>
    have hnew : (s.driver.bus.requests s.service.rqCount).systemBuffer = none := by
      by_contra hfull
      have hf : _ ∈ s.driver.holdsRq .filled := ((Driver.rqOwned hdr).filled _).mp hfull
      have harr := (Driver.rqOwned hdr).ledger.within _ _ hf
      rw [(synced h).fresh _ (Nat.le_refl _)] at harr
      cases harr
    have hwaits := waits ((orderly_of_faultless h).mono fun _ _ _ _ hC => hC.keepsRequests)
    have hlt := work_run m hwaits (Driver.fills hdr) (asking h) hnew
    have hrpcs : s'.service.rpcWork ks = s.service.rpcWork ks := by
      obtain ⟨d', v'⟩ := s'
      cases m <;> rfl
    omega
  | disk pr out =>
    obtain ⟨hlt, hrun', hrpcs⟩ := work_disk m (calling h)
    have hrpcs : s'.service.rpcWork ks = s.service.rpcWork ks := by rw [Service.rpcWork, hrpcs]; rfl
    have hkeep := hkeep hrun'
    omega
  | rpc k ok =>
    obtain ⟨hlt, hrun'⟩ := work_rpc m hn
    have hkeep := hkeep hrun'
    omega

/-- A step of a thread in the driver is that thread's. -/
theorem driver_of_step (hs : s.step (.driver a) = some s') :
    s.driver.step a = some s'.driver ∧ s'.service = s.service := by
  obtain ⟨act, m, hd⟩ := step_serves hs
  obtain ⟨d', v'⟩ := s'
  cases m
  exact ⟨hd, rfl⟩

/-- **A step inside the driver leaves no more to do**: the request it hands out pays for what the
service has to do with it. -/
theorem work_move {ks : Finset ℕ} {ok : Bool} (h : (lts files).Reach Faultless s)
    (hC : Faultless s (.driver (.step t ok))) (hs : s.step (.driver (.step t ok)) = some s') :
    work ks s' ≤ work ks s := by
  obtain ⟨hd, hv⟩ := driver_of_step hs
  have hreach : (lts files).Reach Faultless s' := .step h hC hs
  have hdr := driver_reachable h
  unfold work
  rw [hv]
  rcases Driver.step_moves hd with ⟨t', b', pc', hm, heq⟩ | ⟨_, _, hc, -⟩ | ⟨_, hc, -⟩
  case inr.inl => cases hc
  case inr.inr => cases hc
  have hfollows := (Driver.inOrder (driver_regular hreach)).follows
  rw [heq] at hfollows ⊢
  by_cases hbuf : ∀ r, (b'.requests r).systemBuffer = (s.driver.bus.requests r).systemBuffer
  · have hund := hm.undelivered_le ((Driver.linked hdr).new _ (Nat.le_refl _))
      fun _ _ _ => Action.noConfusion
    have hrun : s.service.runWork b' = s.service.runWork s.driver.bus := by
      simp only [Service.runWork, hbuf]
    show 11 * b'.undelivered + s.service.runWork b' + _ + _ ≤ _
    omega
  · obtain ⟨r, hr⟩ := not_forall.mp hbuf
    obtain ⟨p, i, -, -, -, rfl⟩ := (hm.systemBuffer (r := r)).resolve_left hr
    have hund := Bus.undelivered_startIrp hfollows
    have hrun : s.service.runWork (s.driver.bus.startIrp p r i) ≤
        s.service.runWork s.driver.bus + 10 := by
      unfold Service.runWork
      split <;> omega
    show 11 * (s.driver.bus.startIrp p r i).undelivered +
      s.service.runWork (s.driver.bus.startIrp p r i) + _ + _ ≤ _
    omega

/-! ## The steps come to an end -/

/-- A step of a faultless run that brings no call in. -/
def Onward (s : System) (x : SysAction) : Prop := Faultless s x ∧ x.onward = true

/-- A regular step takes nothing from under a loop. -/
theorem sparesCursors_of_regular (h : d.InService) : d.SparesCursors a := by
  rintro _ _ _ - - ⟨t, -, hrem⟩
  have hpc := h.pc t
  cases hc : d.calls t <;> rw [hc] at hpc hrem <;> first
    | (cases hpc; done)
    | (rcases hrem with hrem | hrem <;> cases hrem)

/-- At every moment finitely many RPC workers are at work. -/
theorem exists_rpcs_idle {C : System → SysAction → Prop} (h : (lts files).Reach C s) :
    ∃ ks : Finset ℕ, ∀ k ∉ ks, s.service.rpcs k = .idle := by
  refine invariant (I := fun _ v => ∃ ks : Finset ℕ, ∀ k ∉ ks, v.rpcs k = .idle)
    ⟨∅, fun _ _ => rfl⟩ ?_ (fun _ _ _ _ _ _ _ hi _ _ => hi) h
  rintro s x act v' d' - - ⟨ks, hks⟩ m -
  have hset : ∀ (w : Service) k pc, w.rpcs = s.service.rpcs →
      ∃ ks : Finset ℕ, ∀ k' ∉ ks, (w.setRpc k pc).rpcs k' = .idle := by
    intro w k pc hw
    refine ⟨insert k ks, fun k' hk' => ?_⟩
    obtain ⟨hne, hk'⟩ := not_or.mp (Finset.mem_insert.not.mp hk')
    simp only [Service.setRpc_rpcs, Function.update_of_ne hne, hw]
    exact hks k' hk'
  cases m
  all_goals first
    | exact ⟨ks, hks⟩
    | exact hset _ _ _ rfl
    | exact hset _ _ _ (by simp)
    | exact ⟨ks, by simpa using hks⟩

/-- A worker that is idle stays so when no RPC comes in. -/
theorem rpcs_idle_of_onward {k : ℕ} (m : Serves d v x act v') (hon : x.onward = true)
    (hk : v.rpcs k = .idle) : v'.rpcs k = .idle := by
  have hset : ∀ (w : Service) k' pc, w.rpcs = v.rpcs → v.rpcs k' ≠ .idle →
      (w.setRpc k' pc).rpcs k = .idle := by
    intro w k' pc hw hne
    have hkk : k ≠ k' := fun heq => hne (heq ▸ hk)
    simp only [Service.setRpc_rpcs, Function.update_of_ne hkk, hw]
    exact hk
  cases m
  case rpcAdd | rpcRemove => cases hon
  case createFailed h | create h | insert h _ | insertTaken h _ | duplicate h | register h |
      registered h _ _ | registerFailed h _ _ | unregister h | unregistered h _ | rpcDone h =>
    refine hset _ _ _ rfl ?_
    rw [h]
    exact RpcPc.noConfusion
  case undo h =>
    refine hset _ _ _ (by simp) ?_
    rw [h]
    exact RpcPc.noConfusion
  all_goals first
    | exact hk
    | simpa using hk

/-- **The steps come to an end** in every order, when no call comes in. -/
theorem ends_onward (h : (lts files).Reach Faultless s) : (lts files).Ends Onward s := by
  obtain ⟨ks, hks⟩ := exists_rpcs_idle h
  have hpc : ∀ {a}, (∀ t ok, a ≠ .step t ok) → (SysAction.driver a).onward = false := by
    intro a ha
    cases a <;> first | rfl | exact absurd rfl (ha _ _)
  refine Lts.ends_of_phases (I := fun s => (lts files).Reach Faultless s ∧
      ∀ k ∉ ks, s.service.rpcs k = .idle) (work ks) (fun ts s => s.driver.Ending ts)
    (fun ts s => Driver.todo ts s.driver) ?_ ?_ ?_ ⟨h, hks⟩
  · rintro s ⟨hr, -⟩
    have hreg := driver_regular hr
    obtain ⟨ts, hidle⟩ := Driver.exists_idle hreg
    have hspare : Driver.lts.Reach Driver.SparesCursors s.driver :=
      hreg.mono fun _ _ hr _ _ => sparesCursors_of_regular (Driver.inService hr)
    exact ⟨ts, Driver.linked hreg, Driver.held hreg, Driver.traversing hspare, hidle⟩
  · rintro s x s' ⟨hr, hn⟩ ⟨hC, hon⟩ hs
    refine ⟨.step hr hC hs, fun k hk => ?_⟩
    obtain ⟨act, m, -⟩ := step_serves hs
    exact rpcs_idle_of_onward m hon (hn k hk)
  · rintro ts s x s' ⟨hr, hn⟩ hend ⟨hC, hon⟩ hs
    by_cases hx : ∀ a, x ≠ .driver a
    · exact .inl (work_serve hr hn hx hon hs)
    · push Not at hx
      obtain ⟨a, rfl⟩ := hx
      obtain ⟨t, ok, rfl⟩ : ∃ t ok, a = .step t ok := by
        by_contra hno
        push Not at hno
        rw [hpc hno] at hon
        cases hon
      have hd := (driver_of_step (show s.step (.driver (.step t ok)) = some s' from hs)).1
      have hw : s.driver.Winding (.step t ok) :=
        ⟨⟨t, ok, rfl⟩, sparesCursors_of_regular (Driver.inService (driver_regular hr))⟩
      exact .inr ⟨work_move hr hC hs, hend.step hw hd, hend.lowers hw hd⟩

/-! ## At rest -/

/-- No disk misses its wake-up in this step. -/
def Wakes (s : System) : SysAction → Prop
  | .driver a => s.driver.NoMissedWakeup a
  | _ => True

/-- The Run loop is not refused. -/
theorem not_stopped (h : (lts files).Reach Faultless s) : s.service.run ≠ .stopped := by
  refine invariant (I := fun _ v => v.run ≠ .stopped) RunPc.noConfusion ?_
    (fun _ _ _ _ _ _ _ hi _ _ => hi) h
  intro s x act v' d' hr _ hi m _
  by_cases hx : x = .run
  · subst hx
    cases m with
    | refused _ hret hs => exact absurd ((asking hr).pending hret) hs
    | _ => exact RunPc.noConfusion
  · exact (m.run_of_ne hx).1 ▸ hi

/-- No disk's removal is signalled. -/
theorem events_eq_false (h : (lts files).Reach Faultless s) (pr : ProcId) :
    s.driver.bus.events pr = false := by
  by_contra he
  obtain ⟨p, -, -, hs⟩ := (registry h).events pr (Bool.not_eq_false _ ▸ he)
  have hreg := driver_regular h
  have hd := (Driver.drained hreg).signalled p hs
  rw [(Driver.inOrder hreg).drained p] at hd
  cases hd

/-- **No disk thread goes**, in a faultless run. -/
theorem staying (h : (lts files).Reach Faultless s) : ∀ pr < s.service.procCount,
    (s.service.procs pr).pc ≠ .final ∧ (s.service.procs pr).pc ≠ .exited := by
  refine invariant (I := fun _ v => ∀ pr < v.procCount,
    (v.procs pr).pc ≠ .final ∧ (v.procs pr).pc ≠ .exited) ?_ ?_
    (fun _ _ _ _ _ _ _ hi _ _ => hi) h
  · intro pr hpr
    cases hpr
  intro s x act v' d' hr _ hi m _ pr hpr
  by_cases hold : pr < s.service.procCount
  · obtain ⟨hf, he⟩ := hi pr hold
    cases m.proc pr with
    | keep hk =>
      obtain ⟨_, _, hk⟩ := hk
      rw [hk]
      exact ⟨hf, he⟩
    | create _ _ hk =>
      obtain ⟨_, _, _, -, hk⟩ := hk
      rw [hk]
      exact ⟨ProcPc.noConfusion, ProcPc.noConfusion⟩
    | post _ _ _ hk | setEvent _ _ _ hk =>
      rw [hk]
      exact ⟨hf, he⟩
    | removed ha hpc hev =>
      obtain ⟨out, rfl⟩ := ha
      cases m with
      | removed _ _ _ hset =>
        rw [events_eq_false hr pr] at hset
        cases hset
      | wake _ _ hset => cases hev.symm.trans hset
      | execute h | executeNone h | reply h | replied h | final h => cases hpc.symm.trans h
    | wake _ _ _ hk | executeNone _ _ _ hk | reply _ _ _ hk | replied _ _ _ hk =>
      rw [hk]
      exact ⟨ProcPc.noConfusion, ProcPc.noConfusion⟩
    | execute _ _ _ hk =>
      obtain ⟨_, _, rfl⟩ := hk
      simp
    | final _ hpc => exact absurd hpc hf
  · cases m
    case create =>
      obtain rfl : pr = s.service.procCount :=
        Nat.le_antisymm (Nat.lt_succ_iff.mp hpr) (Nat.not_lt.mp hold)
      simp
    all_goals exact absurd (by simpa using hpr) hold

section AtRest

variable (h : (lts files).Reach Faultless s)
  (hrest : (lts files).AtRest (fun s x => Onward s x ∧ Wakes s x) s)

include h hrest

/-- Where nothing goes on, no thread is inside the driver: the locks do not deadlock, and a thread
that holds a request tentatively can go on. -/
theorem outside_of_atRest (t : Tid) : (s.driver.calls t).outside = true := by
  have hreg := driver_regular h
  have hpcs := (Driver.inService hreg).pc
  have hheld := Driver.held hreg
  have hgo : ∀ t, s.driver.CanGo t → ¬ s.driver.NoMissedWakeup (.step t true) := by
    intro t hgo hw
    obtain ⟨d', hd⟩ := hgo true
    have hC : Faultless s (.driver (.step t true)) :=
      ⟨by simp [Driver.Regular, Pc.allows, Action.thread], fun _ _ _ _ => Action.noConfusion⟩
    have hnone : s.step (.driver (.step t true)) = none := hrest _ ⟨⟨hC, rfl⟩, hw⟩
    have hs : s.step (.driver (.step t true)) = some ⟨d', s.service⟩ := by
      simp [System.step, Service.step, Action.external, perform, hd]
    rw [hs] at hnone
    cases hnone
  by_contra hout
  have hin : (s.driver.calls t).inside = true := by
    have hpc := hpcs t
    cases hc : s.driver.calls t <;> rw [hc] at hpc hout <;> first
      | rfl
      | exact absurd rfl hout
      | cases hpc
  rcases hheld.canGo hin with ⟨hwait, -⟩ | ⟨t', -, hcan⟩
  · have hpc := hpcs t
    rw [hwait] at hpc
    cases hpc
  · refine hgo t' hcan fun p _ _ t₂ => ?_
    by_contra htent
    obtain ⟨hin₂, hfree⟩ : (s.driver.calls t₂).inside = true ∧ (s.driver.calls t₂).awaits = none := by
      cases hc : s.driver.calls t₂ <;> rw [hc] at htent <;> first
        | exact ⟨rfl, rfl⟩
        | exact absurd rfl htent
    refine hgo t₂ (Driver.canGo_of_awaits hin₂ hfree) fun q hseeks => ?_
    rcases hseeks with ⟨i, hc⟩ | ⟨k, hc, -⟩
    all_goals
      rw [hc] at htent
      exact absurd rfl htent

/-- …so the Run loop waits for its request, which is on the queue. -/
theorem waiting_of_atRest : ∃ r, s.service.run = .waiting r ∧
    r ∈ s.driver.bus.fdo.requestQueue ∧ (s.driver.bus.requests r).systemBuffer = none := by
  have hout := outside_of_atRest h hrest
  have hdr := driver_reachable h
  rcases (synced h).run_turn (hout .run) with ⟨s', hs⟩ | hstop | ⟨r, hrun, hc⟩
  · have hnone : s.step .run = none := hrest _ ⟨⟨trivial, rfl⟩, trivial⟩
    rw [show s.step .run = some s' from hs] at hnone
    cases hnone
  · exact absurd hstop (not_stopped h)
  · refine ⟨r, hrun, ?_⟩
    have hq : r ∈ s.driver.bus.fdo.requestQueue := by
      have hpend : s.driver.bus.Pending r := ⟨(synced h).asked r (.inr hrun), hc⟩
      obtain ⟨k, hk⟩ := ((Driver.rqCustody hdr).ledger.covers r).mp hpend
      cases k with
      | queue => exact hk
      | hand t =>
        have hk : r ∈ (s.driver.calls t).custody := hk
        have ht := hout t
        cases hcall : s.driver.calls t <;> rw [hcall] at hk ht <;> first
          | (cases hk; done)
          | cases ht
    refine ⟨hq, ?_⟩
    by_contra hfull
    exact (not_filled (Driver.rqOwned hdr) hfull).2 hq

/-- …and no disk has a current IRP: its request would be on its way. -/
theorem currentIrp_of_atRest (p : PdoId) : (s.driver.bus.pdos p).currentIrp = none := by
  by_contra hcur
  obtain ⟨i, hcur⟩ := Option.ne_none_iff_exists'.mp hcur
  have hout := outside_of_atRest h hrest
  have hc := coherent h
  obtain ⟨k, hk⟩ := carried h p i hcur
  have hwait : ∀ pr, (s.service.procs pr).pc = .exited ∨ ((s.service.procs pr).pc = .wait ∧
      ((s.service.procs pr).alive = true → (s.service.procs pr).hEvent = false)) := by
    intro pr
    refine ((synced h).disk_turn (hout (.disk pr))).resolve_left ?_
    rintro ⟨s', hs⟩
    have hnone : s.step (.disk pr .complete) = none := hrest _ ⟨⟨rfl, rfl⟩, trivial⟩
    rw [show s.step (.disk pr .complete) = some s' from hs] at hnone
    cases hnone
  cases k with
  | run =>
    obtain ⟨r, hrun, -, hempty⟩ := waiting_of_atRest h hrest
    simp [token, hrun, hempty] at hk
  | disk pr => rcases hwait pr with hpc | ⟨hpc, -⟩ <;> simp [token, hpc] at hk
  | posted pr =>
    have hbuf := hc.tokens.own pr (.posted pr) p i (.inl rfl) hk
    have hp := (hc.tokens.flow.live _ p i hk).1
    have hlt : pr < s.service.procCount := hbuf ▸ (hc.registry.owner p hp).1
    have hstay := (staying h pr hlt).2
    have halive := (hc.registry.exits pr ⟨p, hp, hbuf⟩).resolve_right hstay
    have hev := ((hwait pr).resolve_left hstay).2 halive
    simp [token, hev] at hk

end AtRest

/-- Where nothing goes on, the service waits for its next request, no RPC is under way, and every
IRP that was sent to a disk is completed. -/
def Answered (s : System) : Prop :=
  (∃ r, s.service.run = .waiting r) ∧ (∀ k, s.service.rpcs k = .idle) ∧
    ∀ i, (s.driver.bus.irps i).arrived = true → i ∈ s.driver.bus.completed

/-- **Where nothing goes on, every READ and every WRITE is answered**, in a faultless run in which
no disk misses its wake-up. -/
theorem answered_of_atRest (h : (lts files).Reach (fun s x => Faultless s x ∧ Wakes s x) s)
    (hrest : (lts files).AtRest (fun s x => Onward s x ∧ Wakes s x) s) : s.Answered := by
  have hfaultless : ∀ {s}, (lts files).Reach (fun s x => Faultless s x ∧ Wakes s x) s →
      (lts files).Reach Faultless s := fun h => h.mono fun _ _ _ _ hC => hC.1
  have hf := hfaultless h
  obtain ⟨r, hwait, hq, -⟩ := waiting_of_atRest hf hrest
  have hout := outside_of_atRest hf hrest
  refine ⟨⟨r, hwait⟩, fun k => ((synced hf).rpc_turn (hout (.rpc k))).resolve_left ?_, fun i hi => ?_⟩
  · rintro ⟨s₁, hs⟩
    have hnone : s.step (.rpc k true) = none := hrest _ ⟨⟨trivial, rfl⟩, trivial⟩
    rw [show s.step (.rpc k true) = some s₁ from hs] at hnone
    cases hnone
  have hc := coherent hf
  have hdriver : Driver.lts.Reach (fun d a => d.Regular a = true ∧ d.NoMissedWakeup a)
      s.driver := by
    refine driver_reach (fun s x a v' hr hC m => ⟨regular_of_serves (hfaultless hr) hC.1 m, ?_⟩) h
    cases m with
    | driver => exact hC.2
    | _ => trivial
  have hstranded := Driver.not_stranded hdriver fun t => by
    have ht := hout t
    cases hcall : s.driver.calls t <;> rw [hcall] at ht <;> first | rfl | cases ht
  obtain ⟨k, hk⟩ := hc.sent.covered i hi
  cases k with
  | done => exact hk
  | hand t =>
    have hk : i ∈ (s.driver.calls t).hand := hk
    have ht := hout t
    cases hcall : s.driver.calls t <;> rw [hcall] at hk ht <;> first
      | (cases hk; done)
      | cases ht
  | current p =>
    have hk : (s.driver.bus.pdos p).currentIrp = some i := Option.mem_toList.mp hk
    rw [currentIrp_of_atRest hf hrest p] at hk
    cases hk
  | queue p =>
    have hk : i ∈ (s.driver.bus.pdos p).irpQueue := hk
    have hknown := (hc.sized p i (hc.sent.queued p i hk)).1
    have hlist := (Driver.inService (driver_regular hf)).linked p hknown
    exact absurd ⟨List.ne_nil_of_mem hq, p, hlist, currentIrp_of_atRest hf hrest p,
      List.ne_nil_of_mem hk⟩ hstranded

/-- Whether no packet looks for a request in vain in this step. -/
def wakes (s : System) : SysAction → Bool
  | .driver (.step t _) => match s.driver.calls t with
    | .startRequest _ _ => !s.driver.bus.fdo.requestQueue.isEmpty
    | .nextRequest p _ =>
      !s.driver.bus.fdo.requestQueue.isEmpty || (s.driver.bus.pdos p).irpQueue.isEmpty
    | _ => true
  | _ => true

theorem wakes_sound (h : wakes s x = true) : Wakes s x := by
  cases x with
  | driver a =>
    cases a with
    | step t ok =>
      intro p hseeks hq
      rcases hseeks with ⟨i, hc⟩ | ⟨k, hc, hp⟩ <;> simp [wakes, hc, hq] at h
      exact absurd h hp
    | _ => trivial
  | _ => trivial

end System

/-! ## With the links and the look-up as they are -/

namespace ListSystem

variable {s : ListSystem} {files : FileId → File}

/-- A step of a run in which nothing is written under a search of the map, that meets this
condition. -/
def Alone (C : System → SysAction → Prop) (s : ListSystem) (a : ListSysAction) : Prop :=
  Plain C s a ∧ s.SearchesAlone a

/-- A faultless step that misses no wake-up. -/
def Steady (s : System) (x : SysAction) : Prop := s.Faultless x ∧ s.Wakes x

/-- …and brings no call in. -/
def Closing (s : System) (x : SysAction) : Prop := s.Onward x ∧ s.Wakes x

/-- No PDO is taken off the list in a faultless run. -/
theorem unlinksOnce_of_faultless (h : (System.lts files).Reach System.Faultless s.system)
    (x : SysAction) : s.UnlinksOnce (.plain x) := by
  cases x with
  | driver a =>
    cases a with
    | step t ok =>
      intro p hpc
      have hreg := (Driver.inService (System.driver_regular h)).pc t
      rw [show s.system.driver.calls t = .pdoUnlink p from hpc] at hreg
      cases hreg
    | _ => trivial
  | _ => trivial

/-- Such steps refine those of the system. -/
theorem refines_of_faultless {D E : System → SysAction → Prop} (hrun : ∀ σ, D σ .run)
    (hD : ∀ σ x, D σ x → E σ x) (hE : ∀ σ x, E σ x → σ.Faultless x) :
    (lts files).Refines (Alone D) (System.lts files) D system
      (fun s => s.Quiet ∧ (System.lts files).Reach E s.system)
      fun s => if s.search = none then 1 else 0 :=
  refines hrun (fun _ _ _ hr hd hs => .step hr (hD _ _ hd) hs)
    fun _ x hr _ => unlinksOnce_of_faultless (hr.mono fun _ _ _ _ he => hE _ _ he) x

/-- **Every READ and every WRITE is answered.**  In a faultless run in which no disk misses its
wake-up and the map is not written under a search of the Run loop, the steps of the driver's and the
service's threads come to an end whenever no call comes in, in every order; and at the end the
service waits for its next request, no RPC is under way, and every IRP that was sent to a disk is
completed. -/
theorem all_answered (h : (lts files).Reach (Alone Steady) s) :
    (lts files).Ends (Alone System.Onward) s ∧
    ∀ n s', (lts files).Run (Alone Closing) s n s' →
      (∃ m s'', (lts files).Run (Alone Closing) s' m s'' ∧ (lts files).AtRest (Alone Closing) s'') ∧
      ((lts files).AtRest (Alone Closing) s' → s'.system.Answered) := by
  have hsteady : ∀ {D}, (∀ σ, D σ .run) → (∀ σ x, D σ x → Steady σ x) →
      (lts files).Refines (Alone D) (System.lts files) D system
        (fun s => s.Quiet ∧ (System.lts files).Reach Steady s.system)
        fun s => if s.search = none then 1 else 0 := fun hrun hD =>
    refines_of_faultless hrun hD fun _ _ hx => hx.1
  obtain ⟨hi, hr⟩ := (hsteady (fun _ => ⟨trivial, trivial⟩) fun _ _ hx => hx).reach rfl
    ⟨.init, .init⟩ h
  have hfaultless := hr.mono fun _ _ _ _ hx => hx.1
  have hends : (lts files).Ends (Alone System.Onward) s :=
    (refines_of_faultless (E := System.Faultless) (fun _ => ⟨trivial, rfl⟩) (fun _ _ hx => hx.1)
      fun _ _ hx => hx).ends (System.ends_onward hfaultless) ⟨hi.1, hfaultless⟩
  refine ⟨hends, fun n s' hrun => ⟨?_, fun hrest => ?_⟩⟩
  · refine ((hends.mono fun s a ha => ⟨?_, ha.2⟩).of_run hrun).exists_atRest
    cases a with
    | plain x => exact ha.1.1
    | lost => trivial
  · have R := hsteady (D := Closing) (fun _ => ⟨⟨trivial, rfl⟩, trivial⟩)
      fun _ _ hx => ⟨hx.1.1, hx.2⟩
    have hi' := hrun.keeps R.keeps hi
    exact System.answered_of_atRest hi'.2 (R.atRest hrest hi')

/-- The condition of such a run, as a test. -/
def alone (s : ListSystem) (a : ListSysAction) : Bool :=
  s.undisturbed a && match a with
    | .plain x => s.system.faultless x && s.system.wakes x
    | .lost _ => true

theorem alone_sound (s : ListSystem) (a : ListSysAction) (h : s.alone a = true) :
    Alone Steady s a := by
  obtain ⟨hu, hp⟩ := Bool.and_eq_true_iff.mp h
  refine ⟨?_, (s.undisturbed_sound a hu).2⟩
  cases a with
  | plain x =>
    obtain ⟨hf, hw⟩ := Bool.and_eq_true_iff.mp hp
    exact ⟨System.faultless_sound _ x hf, System.wakes_sound hw⟩
  | lost => trivial

/-- A system whose files have eight blocks. -/
abbrev blockLts : Lts ListSystem ListSysAction := lts fun _ => ⟨4096, fun _ => 0⟩

/-- A READ that was handed out will be answered. -/
theorem all_answered_read : ∃ s, blockLts.Reach (Alone Steady) s ∧
    (s.listed.bus.pdos 0).currentIrp = some 1 ∧ blockLts.Ends (Alone System.Onward) s ∧
    ∀ n s', blockLts.Run (Alone Closing) s n s' →
      (∃ m s'', blockLts.Run (Alone Closing) s' m s'' ∧ blockLts.AtRest (Alone Closing) s'') ∧
      (blockLts.AtRest (Alone Closing) s' → s'.system.Answered) := by
  obtain ⟨s, hs, hcur⟩ := blockLts.exists_reach
    (C := Alone Steady) (c := alone)
    alone_sound
    (plainRun (System.addRun 0 0 ++ System.getRun ++ System.readRun 0 1))
    (fun s => (s.listed.bus.pdos 0).currentIrp = some 1) (by decide +kernel)
  exact ⟨s, hs, hcur, all_answered hs⟩

end ListSystem

end VirtualDisk
