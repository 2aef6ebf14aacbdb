import VirtualDisk.Service.Correspondence

/-!
# Service/Uses — the Run loop and the processors it found

`CDiskServer::Run` finds a processor under no lock and calls `ProcessRequest` on it afterwards,
while the processor's own thread may delete it.  The processor is alive for as long as the Run loop
uses it if no removal takes it from the map in between, and only then.
-/

namespace VirtualDisk

open Machinery

/-- The processor that a step removes, and deletes: `RemoveDiskFinal`, called by a disk thread, and
`AddDisk` after a failed registration call `CDiskContainer::RemoveDisk`. -/
def Service.removes (v : Service) : SysAction → Option ProcId
  | .disk pr _ => if (v.procs pr).pc = .final then v.diskMap (v.procs pr).diskId else none
  | .rpc k _ => match v.rpcs k with
    | .undo pr => v.diskMap (v.procs pr).diskId
    | _ => none
  | _ => none

variable {d : Driver} {v v' : Service} {act : Option Action} {a : SysAction} {pr : ProcId}

/-! ## What ends the life of a processor -/

/-- `CDiskContainer::RemoveDisk` deletes what it finds under the id. -/
theorem Service.removeDisk_alive (diskId : ULONG) : ((v.removeDisk diskId).procs pr).alive =
    if v.diskMap diskId = some pr then false else (v.procs pr).alive := by
  unfold Service.removeDisk
  cases hm : v.diskMap diskId with
  | none => simp
  | some pr₂ =>
    by_cases hpr : pr = pr₂
    · subst hpr
      simp
    · simp [hpr, Ne.symm hpr]

/-- **A processor that a step removes is gone** after it. -/
theorem Serves.dead (m : Serves d v a act v') (hr : v.removes a = some pr) :
    (v'.procs pr).alive = false := by
  cases m with
  | wake h | removed h | execute h | executeNone h | reply h | replied h =>
    simp [Service.removes, h] at hr
  | @final pr₂ out h =>
    simp only [Service.removes, h, if_true] at hr
    have hdead : ((v.removeDisk (v.procs pr₂).diskId).procs pr).alive = false := by
      rw [Service.removeDisk_alive, if_pos hr]
    by_cases hpr : pr = pr₂
    · subst hpr
      simpa using hdead
    · simpa [hpr] using hdead
  | @undo k ok pr₂ h =>
    simp only [Service.removes, h] at hr
    simp [Service.removeDisk_alive, hr]
  | createFailed h | create h | insert h | insertTaken h | duplicate h | register h | registered h
  | registerFailed h | unregister h | unregistered h | rpcDone h =>
    simp [Service.removes, h] at hr
  | _ => cases hr

/-- **Every other processor lives on**, but for one that is deleted because its id was taken. -/
theorem Serves.lives (m : Serves d v a act v') (ha : (v.procs pr).alive = true)
    (hr : v.removes a ≠ some pr) (hd : ∀ k, (v.rpcs k).holds ≠ some pr)
    (hcount : pr < v.procCount) : (v'.procs pr).alive = true := by
  have hset : ∀ {pr₂} {x : CDiskProcessor}, x.alive = (v.procs pr₂).alive →
      (Function.update v.procs pr₂ x pr).alive = true := by
    intro pr₂ x hx
    by_cases hpr : pr = pr₂
    · subst hpr
      rw [Function.update_self, hx, ha]
    · rw [Function.update_of_ne hpr, ha]
  cases m with
  | post | setEvent | wake | removed | executeNone | reply | replied | registered => exact hset rfl
  | @execute pr₂ out h hc =>
    by_cases hpr : pr = pr₂
    · subst hpr
      simp [ha]
    · simp [hpr, ha]
  | @final pr₂ out h =>
    simp only [Service.removes, h, if_true] at hr
    by_cases hpr : pr = pr₂
    · subst hpr
      simp [Service.removeDisk_alive, hr, ha]
    · simp [hpr, Service.removeDisk_alive, hr, ha]
  | @undo k ok pr₂ h =>
    simp only [Service.removes, h] at hr
    simp [Service.removeDisk_alive, hr, ha]
  | create => simp [hcount.ne, ha]
  | @duplicate k ok pr₂ h =>
    have hpr : pr ≠ pr₂ := by
      rintro rfl
      exact hd k (by rw [h]; rfl)
    simp [hpr, ha]
  | _ => exact ha

/-- The Run loop uses what it found in the map. -/
theorem Serves.hands (m : Serves d v a act v') (hu : v'.run.hands = some pr) :
    v.run.hands = some pr ∨ (a = .run ∧ v.run = .find ∧ v.diskMap v.req.val.handle = some pr) := by
  cases m with
  | issue | issued | refused | got | gotNone | findNone | setEvent => cases hu
  | find h hm =>
    cases hu
    exact .inr ⟨rfl, h, hm⟩
  | post h =>
    rw [h]
    exact .inl hu
  | final | undo => exact .inl (by simpa using hu)
  | _ => exact .inl hu

/-- A processor that a worker comes to hold outside the map is a new one. -/
theorem Serves.holds {k : ℕ} (m : Serves d v a act v') (hk : (v'.rpcs k).holds = some pr) :
    (v.rpcs k).holds = some pr ∨ pr = v.procCount := by
  have hset : ∀ {k₂ w}, (w.holds = none ∨ w.holds = (v.rpcs k₂).holds) →
      (Function.update v.rpcs k₂ w k).holds = some pr → (v.rpcs k).holds = some pr := by
    intro k₂ w hw hh
    by_cases hkk : k = k₂
    · subst hkk
      rw [Function.update_self] at hh
      rcases hw with hw | hw
      · rw [hw] at hh
        cases hh
      · exact hw ▸ hh
    · rwa [Function.update_of_ne hkk] at hh
  cases m with
  | rpcAdd | rpcRemove | createFailed | insert | duplicate | register | registered | registerFailed
  | unregister | unregistered | rpcDone => exact .inl (hset (.inl rfl) hk)
  | undo =>
    rw [Service.setRpc_rpcs, Service.removeDisk_rpcs] at hk
    exact .inl (hset (.inl rfl) hk)
  | insertTaken h => exact .inl (hset (.inr (by rw [h]; rfl)) hk)
  | @create k₂ diskId file g h =>
    by_cases hkk : k = k₂
    · subst hkk
      rw [Service.setRpc_rpcs, Function.update_self] at hk
      exact .inr (Option.some.inj hk).symm
    · rw [Service.setRpc_rpcs, Function.update_of_ne hkk] at hk
      exact .inl hk
  | final => exact .inl (by simpa using hk)
  | _ => exact .inl hk

namespace System

variable {s : System} {files : FileId → File}

/-- **`ProcessRequest` is called on a live processor**, which lives to the end of the call. -/
def RunUsesLive (s : System) : Prop :=
  ∀ pr, s.service.run.hands = some pr → (s.service.procs pr).alive = true

/-- A step that does not remove the processor the Run loop uses. -/
def SparesRun (s : System) (a : SysAction) : Prop :=
  ∀ pr, s.service.run.hands = some pr → s.service.removes a ≠ some pr

/-- What the Run loop uses is alive, and no worker holds it outside the map. -/
structure Spared (v : Service) : Prop where
  alive : ∀ pr, v.run.hands = some pr → (v.procs pr).alive = true
  mapped : ∀ pr, v.run.hands = some pr → ∀ k, (v.rpcs k).holds ≠ some pr

/-- A processor in the map is held by no worker outside it. -/
theorem Registry.not_holds {handle : ULONG} (h : Registry d v) (hm : v.diskMap handle = some pr)
    (k : ℕ) : (v.rpcs k).holds ≠ some pr := by
  intro hk
  have hw := h.working k
  generalize v.rpcs k = w at hk hw
  cases w <;> cases hk <;> exact hw.2.2.2.2 _ hm

/-- A processor that lives was created. -/
theorem Registry.lt_of_alive (h : Registry d v) (ha : (v.procs pr).alive = true) :
    pr < v.procCount := by
  rcases h.alive pr ha with hin | ⟨k, hk⟩
  · exact (h.mapped _ _ hin).1
  · exact h.adding_lt (RpcPc.adding_of_holds hk)

/-- One step that spares the Run loop keeps what it uses. -/
theorem Spared.serve (h : Spared v) (hr : Registry d v)
    (hs : ∀ pr, v.run.hands = some pr → v.removes a ≠ some pr) (m : Serves d v a act v') :
    Spared v' := by
  have hold : ∀ pr, v.run.hands = some pr → (v'.procs pr).alive = true ∧
      ∀ k, (v'.rpcs k).holds ≠ some pr := by
    intro pr hu
    have hlt := hr.lt_of_alive (h.alive pr hu)
    refine ⟨m.lives (h.alive pr hu) (hs pr hu) (h.mapped pr hu) hlt, fun k hk => ?_⟩
    rcases m.holds hk with hk | rfl
    · exact h.mapped pr hu k hk
    · exact Nat.lt_irrefl _ hlt
  have hfound : ∀ pr, a = .run → v.diskMap v.req.val.handle = some pr →
      (v'.procs pr).alive = true ∧ ∀ k, (v'.rpcs k).holds ≠ some pr := by
    rintro pr rfl hm
    obtain ⟨hlt, ha, -⟩ := hr.mapped _ _ hm
    refine ⟨m.lives ha nofun (hr.not_holds hm) hlt, fun k hk => ?_⟩
    rcases m.holds hk with hk | rfl
    · exact hr.not_holds hm k hk
    · exact Nat.lt_irrefl _ hlt
  have hnew : ∀ pr, v'.run.hands = some pr → (v'.procs pr).alive = true ∧
      ∀ k, (v'.rpcs k).holds ≠ some pr := by
    intro pr hu
    rcases m.hands hu with hu | ⟨ha, -, hm⟩
    · exact hold pr hu
    · exact hfound pr ha hm
  exact ⟨fun pr hu => (hnew pr hu).1, fun pr hu => (hnew pr hu).2⟩

/-- What the Run loop uses is spared, in every run of steps that spare it. -/
theorem spared (h : (lts files).Reach SparesRun s) : Spared s.service := by
  refine invariant (I := fun _ v => Spared v) ⟨nofun, nofun⟩ ?_ (fun _ _ _ _ _ _ _ hv _ _ => hv) h
  exact fun s a act v' d' hr hC hi m _ => hi.serve (registry hr) hC m

/-- **The Run loop uses live processors** in every run of steps that spare what it found, and a
step that does not spare it leaves it with a deleted one. -/
theorem run_uses_live (h : (lts files).Reach SparesRun s) : s.RunUsesLive ∧
    ∀ a s', s.step a = some s' → (s'.RunUsesLive ↔ s.SparesRun a) := by
  refine ⟨(spared h).alive, fun a s' hs => ⟨fun hlive pr hu hr => ?_, fun ha => ?_⟩⟩
  · obtain ⟨act, m, -⟩ := step_serves hs
    have hrun : a ≠ .run := by
      rintro rfl
      cases hr
    have halive := hlive pr ((m.run_of_ne hrun).1 ▸ hu)
    rw [m.dead hr] at halive
    cases halive
  · exact (spared (.step h ha hs)).alive

/-- The condition, as a test of a step. -/
def sparesRun (s : System) (a : SysAction) : Bool :=
  s.service.run.hands.isNone || s.service.removes a != s.service.run.hands

theorem sparesRun_sound {a : SysAction} (h : sparesRun s a = true) : SparesRun s a := by
  intro pr hu hr
  simp [sparesRun, hu, hr] at h

/-- A disk is removed before the lookup of its request, and the lookup finds the new disk with its
id. -/
theorem run_uses_live_readded : ∃ s, blockLts.Reach SparesRun s ∧
    (s.service.run = .post 1 ∧ (s.service.procs 0).alive = false) ∧ s.RunUsesLive := by
  obtain ⟨s, hs, hp⟩ := blockLts.exists_reach (C := SparesRun) (c := sparesRun)
    (fun _ _ => sparesRun_sound)
    (addRun 0 0 ++ getRun ++ readRun 0 0 ++ [.run] ++ removeRun 0 0 ++ addRun 1 1 ++ [.run])
    (fun s => s.service.run = .post 1 ∧ (s.service.procs 0).alive = false) (by decide +kernel)
  exact ⟨s, hs, hp, (run_uses_live hs).1⟩

/-- **A disk is removed after the lookup**: `ProcessRequest` is called on the deleted processor. -/
theorem not_run_uses_live : ¬ ∀ s, blockLts.Reachable s → s.RunUsesLive := by
  intro h
  obtain ⟨s, hs, hrun, hdead⟩ := blockLts.exists_reachable
    (addRun 0 0 ++ getRun ++ readRun 0 0 ++ [.run, .run] ++ removeRun 0 0)
    (fun s => s.service.run = .post 0 ∧ (s.service.procs 0).alive = false) (by decide +kernel)
  have halive := h s hs 0 (by rw [hrun]; rfl)
  rw [hdead] at halive
  cases halive

end System

end VirtualDisk
