import VirtualDisk.Service.Uses

/-!
# Service/Shutdown — the plugins at the service's end

`CDiskServer::Terminate` releases the plugins while the disk threads go on, and with them the
storages the plugins created.  A storage's methods are then called after its plugin is gone, unless
nothing of the plugin's was in use when it was released.
-/

namespace VirtualDisk

open Machinery

/-- A plugin, by its entry of `m_pluginMap`. -/
abbrev PluginId := ℕ

/-- Where `ServiceMain` is: in `Run`, in `Terminate` (with these plugins still to be released, about
to close its handles, or in `CloseHandle (hFile)`), or past it. -/
inductive MainPc
  | run
  | release (left : List PluginId)
  | close
  | closing
  | done
  deriving DecidableEq

/-- **The service with what its end deals in**: `TerminationEvent`, whether RPCs are listened for
and whether the driver's handle is open, the plugins of `m_pluginMap`, those that were released,
and the plugin that created each processor's storage. -/
structure Shutdown where
  system : System
  main : MainPc := .run
  terminationEvent : Bool := false
  listening : Bool := true
  hFile : Bool := true
  pluginMap : List PluginId
  released : PluginId → Bool := fun _ => false
  creator : ProcId → Option PluginId := fun _ => none

/-- What can happen: the stop request, a step of `ServiceMain`'s thread that is not `Run`'s, or a
step of the system; `q` is the plugin that `CreateDiskStorage` finds, if the step calls it. -/
inductive ShutdownAction
  | stop
  | main
  | system (a : SysAction) (q : PluginId)

/-! ## The storages -/

namespace Service

/-- The step creates a processor, with its storage. -/
def creates (v : Service) : SysAction → Bool
  | .rpc k true => match v.rpcs k with
    | .create _ _ _ => true
    | _ => false
  | _ => false

/-- **The processor whose storage a step calls**: `ReadBlocks` or `WriteBlocks` in its thread,
`Release` in its destructor. -/
def storageCall (v : Service) : SysAction → Option ProcId
  | .disk pr out =>
    if (v.procs pr).pc = .exec ∧ ((v.procs pr).mReq.val.code = scsiopRead.toUInt32 ∨
      (v.procs pr).mReq.val.code = scsiopWrite.toUInt32) then some pr
    else v.removes (.disk pr out)
  | .rpc k ok => match v.rpcs k with
    | .duplicate pr => some pr
    | _ => v.removes (.rpc k ok)
  | _ => none

/-- What a thread makes of a call into the driver through a handle that was closed:
the call fails. -/
def refused (v : Service) : SysAction → Option Service
  | .run => match v.run with
    | .issue => some (v.setRun .stopped)
    | _ => none
  | .disk pr _ => match (v.procs pr).pc with
    | .reply => some (v.setProc pr fun x => { x with pc := .wait })
    | _ => none
  | .rpc k _ => match v.rpcs k with
    | .register pr => some (v.setRpc k (.undo pr))
    | .unregister _ => some (v.setRpc k (.done true))
    | _ => none
  | _ => none

end Service

/-- The step calls an RPC. -/
def SysAction.calls : SysAction → Bool
  | .rpcCall _ _ => true
  | _ => false

namespace Shutdown

/-! ## The steps -/

/-- A step of the system, its calls into the driver failing once the handle is closed. -/
def systemStep (s : Shutdown) (a : SysAction) : Option System :=
  if s.hFile then s.system.step a
  else match s.system.service.refused a with
    | some v => some ⟨s.system.driver, v⟩
    | none => s.system.step a

/-- A step of `ServiceMain`'s thread: `GetRequest` finds its wait ended by `TerminationEvent` alone;
once `Run` has returned, `Terminate` stops the RPC server, releases the plugins one by one, empties
the map and closes the handles.  The bus device is exclusive, so that `hFile` is its last handle:
the thread goes through `Bus_Cleanup`, and `CloseHandle` returns when that does. -/
def mainStep (s : Shutdown) : Option Shutdown :=
  match s.main with
  | .run => match s.system.service.run with
    | .waiting r =>
      if s.terminationEvent ∧ ¬ (s.system.driver.bus.requests r).completed then
        some { s with
          system := ⟨s.system.driver, s.system.service.setRun .stopped⟩
          terminationEvent := false }
      else none
    | .stopped => some { s with listening := false, main := .release s.pluginMap }
    | _ => none
  | .release (q :: left) =>
    some { s with released := Function.update s.released q true, main := .release left }
  | .release [] => some { s with pluginMap := [], main := .close }
  | .close => (s.system.driver.step (.call .run (.cleanup 0))).map fun d =>
    { s with system := ⟨d, s.system.service⟩, hFile := false, main := .closing }
  | .closing => (s.system.driver.step (.leave .run)).map fun d =>
    { s with system := ⟨d, s.system.service⟩, main := .done }
  | .done => none

/-- **One step.** -/
def step (s : Shutdown) : ShutdownAction → Option Shutdown
  | .stop => some { s with terminationEvent := true }
  | .main => s.mainStep
  | .system a q =>
    if a.calls = true ∧ s.listening = false then none
    else if s.system.service.creates a then
      if q ∈ s.pluginMap then
        (s.systemStep a).map fun system =>
          { s with
            system := system
            creator := Function.update s.creator s.system.service.procCount (some q) }
      else none
    else (s.systemStep a).map fun system => { s with system := system }

/-- **The service from its start to its end**, with these files and plugins. -/
def lts (files : FileId → File) (plugins : List PluginId) : Lts Shutdown ShutdownAction :=
  ⟨{ system := { service := { files := files } }, pluginMap := plugins }, step⟩

end Shutdown

/-! ## What a step can do, said once -/

/-- **One call into the driver that fails**: the service goes from `v` to `v'`. -/
inductive Refuses (v : Service) : SysAction → Service → Prop
  | issue (h : v.run = .issue) : Refuses v .run (v.setRun .stopped)
  | reply {pr out} (h : (v.procs pr).pc = .reply) :
      Refuses v (.disk pr out) (v.setProc pr fun x => { x with pc := .wait })
  | register {k ok pr} (h : v.rpcs k = .register pr) :
      Refuses v (.rpc k ok) (v.setRpc k (.undo pr))
  | unregister {k ok diskId} (h : v.rpcs k = .unregister diskId) :
      Refuses v (.rpc k ok) (v.setRpc k (.done true))

theorem Service.refuses {v v' : Service} {a : SysAction} (h : v.refused a = some v') :
    Refuses v a v' := by
  cases a with
  | driver | rpcCall => cases h
  | run =>
    simp only [refused] at h
    split at h
    · next hr =>
      cases h
      exact .issue hr
    · cases h
  | disk pr out =>
    simp only [refused] at h
    split at h
    · next hpc =>
      cases h
      exact .reply hpc
    · cases h
  | rpc k ok =>
    simp only [refused] at h
    split at h
    · next pr hk =>
      cases h
      exact .register hk
    · next diskId hk =>
      cases h
      exact .unregister hk
    · cases h

/-- A call that fails leaves the registries in agreement. -/
theorem System.Registry.refuses {d : Driver} {v v' : Service} {a : SysAction}
    (h : System.Registry d v) (m : Refuses v a v') : System.Registry d v' := by
  cases m with
  | issue => exact h.frame rfl rfl rfl fun _ => System.Kept.refl _
  | reply hpc =>
    exact h.setProc _ _ ⟨rfl, rfl, rfl, rfl, nofun, fun hx => by cases hpc.symm.trans hx⟩
  | @register k ok pr hk =>
    have hw := h.working k
    rw [hk] at hw
    refine h.setRpc hw (.inr (by rw [hk]; rfl)) fun pr' hpr => ?_
    rw [hk] at hpr
    cases hpr
  | @unregister k ok diskId hk =>
    have hw := h.working k
    rw [hk] at hw
    refine h.setRpc hw (.inl rfl) fun pr' hpr => ?_
    rw [hk] at hpr
    cases hpr

/-- **One step of the system**, the driver's handle open or closed. -/
inductive Goes (s : System) (a : SysAction) : System → Prop
  | serves {act s'} (m : Serves s.driver s.service a act s'.service)
      (hd : System.perform s.driver act = some s'.driver) : Goes s a s'
  | refuses {v} (m : Refuses s.service a v) : Goes s a ⟨s.driver, v⟩

namespace Shutdown

/-- **One step**: the state goes from `s` to `s'`. -/
inductive Steps (s : Shutdown) : ShutdownAction → Shutdown → Prop
  | stop : Steps s .stop { s with terminationEvent := true }
  | terminated {r} (hm : s.main = .run) (hr : s.system.service.run = .waiting r) :
      Steps s .main { s with
        system := ⟨s.system.driver, s.system.service.setRun .stopped⟩
        terminationEvent := false }
  | returned (hm : s.main = .run) (hr : s.system.service.run = .stopped) :
      Steps s .main { s with listening := false, main := .release s.pluginMap }
  | release {q left} (hm : s.main = .release (q :: left)) :
      Steps s .main
        { s with released := Function.update s.released q true, main := .release left }
  | erase (hm : s.main = .release []) : Steps s .main { s with pluginMap := [], main := .close }
  | close {d} (hm : s.main = .close)
      (hd : s.system.driver.step (.call .run (.cleanup 0)) = some d) :
      Steps s .main
        { s with system := ⟨d, s.system.service⟩, hFile := false, main := .closing }
  | closed {d} (hm : s.main = .closing) (hd : s.system.driver.step (.leave .run) = some d) :
      Steps s .main { s with system := ⟨d, s.system.service⟩, main := .done }
  | create {a q system} (hc : s.system.service.creates a = true) (hq : q ∈ s.pluginMap)
      (m : Goes s.system a system) :
      Steps s (.system a q)
        { s with
          system := system
          creator := Function.update s.creator s.system.service.procCount (some q) }
  | system {a q system} (hc : s.system.service.creates a = false) (m : Goes s.system a system) :
      Steps s (.system a q) { s with system := system }

variable {s s' : Shutdown} {a : SysAction} {x : ShutdownAction} {system : System}

theorem goes_of_systemStep (h : s.systemStep a = some system) : Goes s.system a system := by
  have hserves : s.system.step a = some system → Goes s.system a system := by
    intro hs
    obtain ⟨act, m, hd⟩ := System.step_serves hs
    exact .serves m hd
  unfold systemStep at h
  split at h
  · exact hserves h
  · split at h
    · next v hv =>
      cases h
      exact .refuses (Service.refuses hv)
    · exact hserves h

/-- **A step is one of these.** -/
theorem steps_of_step (h : s.step x = some s') : Steps s x s' := by
  cases x with
  | stop =>
    cases h
    exact .stop
  | main =>
    simp only [step, mainStep] at h
    split at h
    · next hm =>
      split at h
      · next r hr =>
        split at h
        · cases h
          exact .terminated hm hr
        · cases h
      · next hr =>
        cases h
        exact .returned hm hr
      · cases h
    · next q left hm =>
      cases h
      exact .release hm
    · next hm =>
      cases h
      exact .erase hm
    · next hm =>
      obtain ⟨d, hd, rfl⟩ := Option.map_eq_some_iff.mp h
      exact .close hm hd
    · next hm =>
      obtain ⟨d, hd, rfl⟩ := Option.map_eq_some_iff.mp h
      exact .closed hm hd
    · cases h
  | system a q =>
    simp only [step] at h
    split at h
    · cases h
    split at h
    · next hc =>
      split at h
      · next hq =>
        obtain ⟨system, hs, rfl⟩ := Option.map_eq_some_iff.mp h
        exact .create hc hq (goes_of_systemStep hs)
      · cases h
    · next hc =>
      obtain ⟨system, hs, rfl⟩ := Option.map_eq_some_iff.mp h
      exact .system (by simpa using hc) (goes_of_systemStep hs)

/-! ## The registries, to the end -/

variable {files : FileId → File} {plugins : List PluginId} {C : Shutdown → ShutdownAction → Prop}

/-- The driver is the driver. -/
theorem driver_reachable (h : (lts files plugins).Reach C s) :
    Driver.lts.Reachable s.system.driver := by
  refine h.image (U := Driver.lts) (fun s => s.system.driver) rfl fun s x s' hr hC hs => ?_
  cases steps_of_step hs with
  | create hc hq m | system hc m =>
    cases m with
    | @serves act _ m hd =>
      cases act with
      | none => exact .inl (Option.some.inj hd).symm
      | some a' => exact .inr ⟨a', trivial, hd⟩
    | refuses => exact .inl rfl
  | close _ hd => exact .inr ⟨.call .run (.cleanup 0), trivial, hd⟩
  | closed _ hd => exact .inr ⟨.leave .run, trivial, hd⟩
  | _ => exact .inl rfl

/-- **The registries agree to the service's end**, although its last calls into the driver fail. -/
theorem registry (h : (lts files plugins).Reach C s) :
    System.Registry s.system.driver s.system.service := by
  refine h.invariant (I := fun s => System.Registry s.system.driver s.system.service)
    System.Registry.init fun s x s' hr hi _ hs => ?_
  have hgoes : ∀ {a system}, Goes s.system a system →
      System.Registry system.driver system.service := by
    intro a system m
    cases m with
    | @serves act _ m hd =>
      have hv := hi.serve m hd
      cases act with
      | none => exact Option.some.inj hd ▸ hv
      | some a' =>
        exact hv.act (Driver.linked (driver_reachable hr)) hd (System.registers_of_makes m.makes)
    | refuses m => exact hi.refuses m
  have hlinked := Driver.linked (driver_reachable hr)
  cases steps_of_step hs with
  | create hc hq m | system hc m => exact hgoes m
  | terminated => exact hi.frame rfl rfl rfl fun _ => System.Kept.refl _
  | close _ hd | closed _ hd =>
    exact hi.act hlinked hd ⟨fun k hk => (by cases hk), fun t dd ha => (by cases ha)⟩
  | _ => exact hi

/-! ## The storages outlive no plugin -/

/-- **No storage's method is called after its plugin was released**, by whichever
step comes next. -/
def PluginsOutlive (s : Shutdown) : Prop :=
  ∀ a q s', s.step (.system a q) = some s' → ∀ pr, s.system.service.storageCall a = some pr →
    ∀ q', s.creator pr = some q' → s.released q' = false

/-- The processor has a storage, or its thread is about to execute a request on it. -/
def InUse (v : Service) (pr : ProcId) : Prop :=
  (v.procs pr).alive = true ∨ (v.procs pr).pc = .exec

/-- **A step that leaves the plugins to the storages in use**: a plugin is released when none of the
processors whose storages it created is in use, and creates none when it was released. -/
def ReleasesIdle (s : Shutdown) : ShutdownAction → Prop
  | .main => ∀ q left, s.main = .release (q :: left) → ∀ pr, s.creator pr = some q →
    ¬ InUse s.system.service pr
  | .system a q => s.system.service.creates a = true → s.released q = false
  | .stop => True

end Shutdown

/-- A processor comes into use when it is created; one that is in use stays so at most. -/
theorem Serves.inUse {d : Driver} {v v' : Service} {a : SysAction} {act : Option Action}
    {pr : ProcId} (m : Serves d v a act v') (h : Shutdown.InUse v' pr) :
    Shutdown.InUse v pr ∨ (v.creates a = true ∧ pr = v.procCount) := by
  have hset : ∀ {pr₂} {x : CDiskProcessor}, ((Function.update v.procs pr₂ x pr).alive = true ∨
      (Function.update v.procs pr₂ x pr).pc = .exec) →
      (x.alive = true → (v.procs pr₂).alive = true) →
      (x.pc = .exec → (v.procs pr₂).alive = true ∨ (v.procs pr₂).pc = .exec) →
      Shutdown.InUse v pr := by
    intro pr₂ x hx ha hpc
    by_cases hpr : pr = pr₂
    · subst hpr
      rw [Function.update_self] at hx
      exact hx.elim (fun hx => .inl (ha hx)) hpc
    · rwa [Function.update_of_ne hpr] at hx
  have hremove : ∀ {diskId}, Shutdown.InUse (v.removeDisk diskId) pr → Shutdown.InUse v pr := by
    intro diskId hx
    rw [Shutdown.InUse, Service.removeDisk_alive] at hx
    obtain ⟨alive, hal⟩ := v.removeDisk_procs diskId pr
    rw [hal] at hx
    split at hx
    · exact .inr (hx.resolve_left nofun)
    · exact hx
  cases m with
  | post | setEvent | registered => exact .inl (hset h id .inr)
  | wake _ ha => exact .inl (hset h id fun _ => .inl ha)
  | removed hpc ha => exact .inl (hset h id fun _ => .inl ha)
  | executeNone hpc | execute hpc => exact .inl (hset h id fun _ => .inr hpc)
  | reply | replied => exact .inl (hset h id nofun)
  | @final pr₂ out hpc =>
    refine .inl (hremove (?_ : Shutdown.InUse (v.removeDisk (v.procs pr₂).diskId) pr))
    by_cases hpr : pr = pr₂
    · subst hpr
      exact .inl (by simpa [Shutdown.InUse] using h)
    · simpa [Shutdown.InUse, hpr] using h
  | undo => exact .inl (hremove h)
  | @create k diskId file g hk =>
    by_cases hpr : pr = v.procCount
    · exact .inr ⟨by simp [Service.creates, hk], hpr⟩
    · exact .inl (by simpa [Shutdown.InUse, hpr] using h)
  | duplicate => exact .inl (hset h nofun .inr)
  | _ => exact .inl h

/-- A call that fails brings no processor into use. -/
theorem Refuses.inUse {v v' : Service} {a : SysAction} {pr : ProcId} (m : Refuses v a v')
    (h : Shutdown.InUse v' pr) : Shutdown.InUse v pr := by
  cases m with
  | @reply pr₂ out hpc =>
    by_cases hpr : pr = pr₂
    · subst hpr
      exact .inl (by simpa [Shutdown.InUse] using h)
    · simpa [Shutdown.InUse, hpr] using h
  | _ => exact h

/-- **A storage's methods are called while it is in use.** -/
theorem System.Registry.inUse_of_storageCall {d : Driver} {v : Service} {a : SysAction}
    {pr : ProcId} (h : System.Registry d v) (hc : v.storageCall a = some pr) :
    Shutdown.InUse v pr := by
  have hremoves : v.removes a = some pr → Shutdown.InUse v pr := by
    intro hr
    cases a with
    | driver | run | rpcCall => cases hr
    | disk pr₂ out =>
      simp only [Service.removes] at hr
      split at hr
      · exact .inl (h.mapped _ _ hr).2.1
      · cases hr
    | rpc k ok =>
      simp only [Service.removes] at hr
      split at hr
      · exact .inl (h.mapped _ _ hr).2.1
      · cases hr
  cases a with
  | driver | run | rpcCall => cases hc
  | disk pr₂ out =>
    simp only [Service.storageCall] at hc
    split at hc
    · next hpc =>
      cases hc
      exact .inr hpc.1
    · exact hremoves hc
  | rpc k ok =>
    simp only [Service.storageCall] at hc
    split at hc
    · next pr₂ hk =>
      cases hc
      have hw := h.working k
      rw [hk] at hw
      exact .inl hw.2.2.1
    · exact hremoves hc

namespace Shutdown

variable {s : Shutdown} {files : FileId → File} {plugins : List PluginId}

/-- What a plugin that was released had created is not in use. -/
def Retired (s : Shutdown) : Prop :=
  ∀ pr q, s.creator pr = some q → s.released q = true → ¬ InUse s.system.service pr

/-- One step of the system keeps it so. -/
theorem Retired.goes {a : SysAction} {system : System} (h : s.Retired) (m : Goes s.system a system)
    {pr : ProcId} {q : PluginId} (hq : s.creator pr = some q) (hr : s.released q = true)
    (hpr : s.system.service.creates a = true → pr ≠ s.system.service.procCount) :
    ¬ InUse system.service pr := by
  intro hu
  cases m with
  | serves m =>
    rcases m.inUse hu with hu | ⟨hc, heq⟩
    · exact h pr q hq hr hu
    · exact hpr hc heq
  | refuses m => exact h pr q hq hr (m.inUse hu)

/-- **The storages of released plugins stay out of use**, in every run that releases the plugins
when theirs are. -/
theorem retired (h : (lts files plugins).Reach ReleasesIdle s) : s.Retired := by
  refine h.invariant (I := Retired) (fun pr q hq => by cases hq) fun s x s' _ hi hC hs => ?_
  cases steps_of_step hs with
  | stop | erase | close | closed | returned => exact hi
  | terminated => exact hi
  | @release q left hm =>
    intro pr q' hq hr
    by_cases heq : q' = q
    · subst heq
      exact hC q' left hm pr hq
    · exact hi pr q' hq (by simpa [heq] using hr)
  | @create a q system hc hq m =>
    intro pr q' hq' hr
    by_cases hpr : pr = s.system.service.procCount
    · have heq : q = q' := by simpa [hpr] using hq'
      subst heq
      rw [hC hc] at hr
      cases hr
    · have hold : s.creator pr = some q' := by simpa [hpr] using hq'
      exact hi.goes m hold hr fun _ => hpr
  | @system a q system hc m =>
    intro pr q' hq hr
    exact hi.goes m hq hr fun hc' => absurd (hc.symm.trans hc') (by simp)

/-- **Plugins outlive their storages** in every run that releases a plugin when none of its storages
is in use. -/
theorem plugins_outlive (h : (lts files plugins).Reach ReleasesIdle s) : s.PluginsOutlive := by
  intro a q s' _ pr hcall q' hq'
  by_contra hr
  exact retired h pr q' hq' (by simpa using hr) ((registry h).inUse_of_storageCall hcall)

theorem creates_eq {v : Service} {a : SysAction} (h : v.creates a = true) :
    ∃ k diskId file g, a = .rpc k true ∧ v.rpcs k = .create diskId file g := by
  unfold Service.creates at h
  split at h
  · next k =>
    split at h
    · next diskId file g hk => exact ⟨k, diskId, file, g, rfl, hk⟩
    · cases h
  · cases h

/-- A step that creates a processor counts it. -/
theorem procCount_lt {a : SysAction} {system : System} (m : Goes s.system a system)
    (hc : s.system.service.creates a = true) :
    s.system.service.procCount < system.service.procCount := by
  obtain ⟨k, diskId, file, g, rfl, hk⟩ := creates_eq hc
  cases m with
  | serves m =>
    generalize system.service = v' at m ⊢
    cases m with
    | create => exact Nat.lt_succ_self _
    | insert hk' | insertTaken hk' | duplicate hk' | register hk' | registered hk'
    | registerFailed hk' | undo hk' | unregister hk' | unregistered hk' | rpcDone hk' =>
      cases hk.symm.trans hk'
  | refuses m =>
    cases m with
    | register hk' | unregister hk' => cases hk.symm.trans hk'

theorem procCount_le {a : SysAction} {system : System} (m : Goes s.system a system) :
    s.system.service.procCount ≤ system.service.procCount := by
  cases m with
  | serves m => exact m.procCount_le
  | refuses m => cases m <;> exact Nat.le_refl _

/-- The processors whose storages have a creator were created. -/
theorem creator_lt {C : Shutdown → ShutdownAction → Prop} (h : (lts files plugins).Reach C s) :
    ∀ pr q, s.creator pr = some q → pr < s.system.service.procCount := by
  refine h.invariant (I := fun s => ∀ pr q, s.creator pr = some q →
    pr < s.system.service.procCount) (fun pr q hq => by cases hq) fun s x s' _ hi _ hs => ?_
  intro pr q hq
  cases steps_of_step hs with
  | create hc _ m =>
    by_cases hpr : pr = s.system.service.procCount
    · exact hpr ▸ procCount_lt m hc
    · exact Nat.lt_of_lt_of_le (hi pr q (by simpa [hpr] using hq)) (procCount_le m)
  | system _ m => exact Nat.lt_of_lt_of_le (hi pr q hq) (procCount_le m)
  | _ => exact hi pr q hq

/-- The condition, as a test of a step. -/
def releasesIdle (s : Shutdown) : ShutdownAction → Bool
  | .main => match s.main with
    | .release (q :: _) => (List.range s.system.service.procCount).all fun pr =>
      s.creator pr ≠ some q ∨
        ((s.system.service.procs pr).alive = false ∧ (s.system.service.procs pr).pc ≠ .exec)
    | _ => true
  | .system a q => !s.system.service.creates a || !s.released q
  | .stop => true

theorem releasesIdle_sound {C : Shutdown → ShutdownAction → Prop} {x : ShutdownAction}
    (h : (lts files plugins).Reach C s) (hx : releasesIdle s x = true) : ReleasesIdle s x := by
  cases x with
  | stop => trivial
  | main =>
    intro q left hm pr hq hu
    simp only [releasesIdle, hm, List.all_eq_true, List.mem_range, decide_eq_true_eq] at hx
    rcases hx pr (creator_lt h pr q hq) with hne | ⟨ha, hpc⟩
    · exact hne hq
    · rcases hu with hu | hu
      · exact absurd (ha.symm.trans hu) (by simp)
      · exact hpc hu
  | system a q =>
    intro hc
    simpa [releasesIdle, hc] using hx

/-- The service with one plugin, its files of eight blocks. -/
abbrev pluginLts : Lts Shutdown ShutdownAction := lts (fun _ => ⟨4096, fun _ => 0⟩) [0]

/-- The system's steps, with the plugin at hand. -/
def ofSystem (as : List SysAction) : List ShutdownAction := as.map (.system · 0)

/-- The Run loop waits for a request, after so many steps in the driver; the stop request ends the
wait, and `Terminate` makes its first steps. -/
def terminateRun (n m : ℕ) : List ShutdownAction :=
  ofSystem ([.run] ++ (steps .run n).map .driver ++ [.run]) ++ .stop :: List.replicate m .main

/-- The service ends after its disk was removed. -/
theorem plugins_outlive_removed : ∃ s, pluginLts.Reach ReleasesIdle s ∧
    (s.main = .done ∧ s.released 0 = true ∧ s.creator 0 = some 0) ∧ s.PluginsOutlive := by
  obtain ⟨s, hs, hp⟩ := pluginLts.exists_reach (C := fun s x => releasesIdle s x = true)
    (c := releasesIdle) (fun _ _ hx => hx)
    (ofSystem (System.addRun 0 0 ++ System.getRun ++ System.readRun 0 0 ++ [.run] ++
      System.removeRun 0 0 ++ [.run]) ++ terminateRun 2 5 ++
      ofSystem ((steps .run 5).map .driver) ++ [.main])
    (fun s => s.main = .done ∧ s.released 0 = true ∧ s.creator 0 = some 0) (by decide +kernel)
  have hidle : pluginLts.Reach ReleasesIdle s := hs.mono fun _ _ hr _ hx => releasesIdle_sound hr hx
  exact ⟨s, hidle, hp, plugins_outlive hidle⟩

/-- **The service ends while a disk has a READ to execute**: the storage is read after its plugin
was released. -/
theorem not_plugins_outlive : ¬ ∀ s, pluginLts.Reachable s → s.PluginsOutlive := by
  intro h
  obtain ⟨s, hs, hstep, hcall, hcreator, hreleased⟩ := pluginLts.exists_reachable
    (ofSystem (System.addRun 0 0 ++ System.getRun ++ System.readRun 0 0 ++
      List.replicate 4 .run ++ [.disk 0 .complete]) ++ terminateRun 4 3)
    (fun s => (s.step (.system (.disk 0 .complete) 0)).isSome ∧
      s.system.service.storageCall (.disk 0 .complete) = some 0 ∧ s.creator 0 = some 0 ∧
      s.released 0 = true) (by decide +kernel)
  obtain ⟨s', hs'⟩ := Option.isSome_iff_exists.mp hstep
  have hfalse := h s hs _ _ s' hs' 0 hcall 0 hcreator
  rw [hreleased] at hfalse
  cases hfalse

end Shutdown

end VirtualDisk
