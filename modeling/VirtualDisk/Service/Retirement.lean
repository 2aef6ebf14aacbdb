import VirtualDisk.Driver.Progress
import VirtualDisk.Machinery.Progress
import VirtualDisk.Service.Registration
import VirtualDisk.Service.Turns

/-!
# Service/Retirement — the map follows the disks

A disk leaves `m_diskMap` after its PDO has signalled the removal, by a step of its own thread; it
enters before its PDO exists.  So the map holds more than the disks the driver has, as long as one
is coming or going.  When the threads that bring it in and take it out have run out of steps, it
holds these disks and no others, unless a thread of the service is lost inside the driver.
-/

namespace VirtualDisk

open Machinery

variable {t : Tid} {a : Action} {b b' : Bus} {pc pc' : Pc} {p : PdoId}
variable {d d' : Driver} {v v' : Service} {pr : ProcId} {k : ℕ} {x : SysAction}
variable {o : Option Action}

/-- A thread is in `Bus_FDO_Cleanup`. -/
def Pc.cleaning : Pc → Bool
  | .cleanup _ | .cleanupDrain _ | .cleanupDrained _ _ | .cleanupTest | .cleanupReset
  | .cleanupRemoveAll | .cleanupWait => true
  | _ => false

namespace Moves

/-- A thread cleans up because it was called to. -/
theorem cleaning (m : Moves t b a pc b' pc') (hpc : pc'.cleaning = true) :
    pc.cleaning = true ∨ ∃ file, a = .call t (.cleanup file) := by
  cases m
  case callCleanup file => exact .inr ⟨file, rfl⟩
  all_goals first
    | exact .inl rfl
    | cases hpc
    | (rename NextCaller => k; cases k <;> cases hpc)
    | (rename DestroyCaller => k; cases k <;> cases hpc)

/-- A removal is signalled with its event. -/
theorem signals (m : Moves t b a pc b' pc') (hp : p < b.pdoCount)
    (hs : (b'.pdos p).signalled = true) :
    (b.pdos p).signalled = true ∨ b'.events (b.pdos p).removeEvent = true := by
  have hne : p ≠ b.pdoCount := Nat.ne_of_lt hp
  cases m
  case destroySignal q k =>
    rcases eq_or_ne p q with rfl | hpq
    · exact .inr (by simp)
    · exact .inl (by simpa [hpq] using hs)
  all_goals
    left
    first
    | exact hs
    | (simp [Function.update_apply, hne] at hs
       first | exact hs | (split at hs <;> simp_all))

/-- **An event stays set**: what clears it finds it set, and says so. -/
theorem event_kept {e : EventId} (m : Moves t b a pc b' pc') (he : b.events e = true) :
    b'.events e = true ∨ ∃ q, .resetEvent q true ∈ b'.trace := by
  cases m
  case removeDisk q _ _ =>
    rcases eq_or_ne (b.pdos q).removeEvent e with rfl | hne
    · exact .inr ⟨q, by simp [Bus.resetRemoveEvent, he]⟩
    · exact .inl (by simpa [Ne.symm hne] using he)
  case destroySignal q _ => exact .inl (by simp [Function.update_apply, he])
  all_goals exact .inl he

end Moves

/-- Steps that take a disk on its way further: those of the threads inside the driver, of the disk
threads and of the RPC workers. -/
def SysAction.settles : SysAction → Bool
  | .driver (.step _ _) | .disk _ _ | .rpc _ _ => true
  | _ => false

namespace System

variable {s s' : System} {files : FileId → File} {C : System → SysAction → Prop}

/-! ## What a step of the service does to a disk that goes -/

/-- `RemoveDisk` brings nobody to life. -/
theorem alive_of_removeDisk {diskId : ULONG}
    (h : ((v.removeDisk diskId).procs pr).alive = true) : (v.procs pr).alive = true := by
  unfold Service.removeDisk at h
  split at h
  · exact h
  · next pr' _ =>
    rcases eq_or_ne pr pr' with rfl | hne
    · simp at h
    · simpa [hne] using h

/-- A processor is alive from its creation on. -/
theorem alive_of_serves (m : Serves d v x o v') (h : (v'.procs pr).alive = true) :
    (v.procs pr).alive = true ∨ (v'.procs pr).pc = .wait := by
  cases m with
  | create =>
    rcases eq_or_ne pr v.procCount with rfl | hne
    · exact .inr (by simp)
    · exact .inl (by simpa [hne] using h)
  | undo => exact .inl (alive_of_removeDisk h)
  | @final pr' =>
    left
    rcases eq_or_ne pr pr' with rfl | hne
    · exact alive_of_removeDisk (by simpa using h)
    · exact alive_of_removeDisk (by simpa [hne] using h)
  | wake | removed | execute | executeNone | reply | replied | post | setEvent | registered
  | duplicate =>
    simp only [Service.setProc_procs, Service.setRun_procs, Service.setRpc_procs,
      Service.executed_procs, Service.deleteProc_procs, Function.update_apply] at h
    split at h <;> simp_all
  | _ => exact .inl h

/-- **A thread that ends takes its processor with it.** -/
theorem exited_of_serves (hr : Registry d v) (m : Serves d v x o v')
    (h : (v'.procs pr).pc = .exited) :
    (v.procs pr).pc = .exited ∨ (v'.procs pr).alive = false := by
  cases m.proc pr with
  | keep heq =>
    obtain ⟨_, _, heq⟩ := heq
    rw [heq] at h
    exact .inl h
  | create _ _ heq =>
    obtain ⟨_, _, _, -, heq⟩ := heq
    rw [heq] at h
    cases h
  | post _ _ _ heq | setEvent _ _ _ heq =>
    rw [heq] at h
    exact .inl h
  | execute _ _ _ heq =>
    obtain ⟨_, _, rfl⟩ := heq
    simp at h
  | wake _ _ _ heq | removed _ _ _ heq | executeNone _ _ _ heq | reply _ _ _ heq
  | replied _ _ _ heq =>
    rw [heq] at h
    cases h
  | final ha hpc =>
    obtain ⟨out, rfl⟩ := ha
    cases m with
    | final =>
      right
      rw [removeDisk_eq (hr.final pr hpc).1]
      simp
    | wake h' | removed h' | execute h' | executeNone h' | reply h' | replied h' =>
      rw [hpc] at h'
      cases h'

/-- A thread that was told to end ends. -/
theorem ending_of_serves (m : Serves d v x o v') (hlt : pr < v.procCount)
    (h : (v.procs pr).pc = .final ∨ (v.procs pr).pc = .exited) :
    (v'.procs pr).pc = .final ∨ (v'.procs pr).pc = .exited := by
  cases m.proc pr with
  | create hpr => exact absurd hpr (Nat.ne_of_lt hlt)
  | keep heq =>
    obtain ⟨_, _, heq⟩ := heq
    rwa [heq]
  | post _ _ _ heq | setEvent _ _ _ heq => rwa [heq]
  | final _ _ heq =>
    obtain ⟨_, heq⟩ := heq
    rw [heq]
    exact .inr rfl
  | removed _ _ _ heq =>
    rw [heq]
    exact .inl rfl
  | wake _ hpc | execute _ _ hpc | executeNone _ hpc | reply _ hpc | replied _ hpc =>
    rw [hpc] at h
    rcases h with h | h <;> cases h

/-- `RemoveDisk` puts nobody in the map. -/
theorem inMap_of_removeDisk {diskId : ULONG} (h : InMap (v.removeDisk diskId) pr) :
    InMap v pr := by
  obtain ⟨alive, hal⟩ := v.removeDisk_procs diskId pr
  rw [InMap, hal] at h
  change (v.removeDisk diskId).diskMap (v.procs pr).diskId = some pr at h
  unfold Service.removeDisk at h
  split at h
  · exact h
  · rcases eq_or_ne (v.procs pr).diskId diskId with heq | hne
    · simp [heq] at h
    · simpa [InMap, hne] using h

/-- **A processor enters the map by the RPC that adds it.** -/
theorem inMap_of_serves (hr : Registry d v) (m : Serves d v x o v') (h : InMap v' pr) :
    InMap v pr ∨ ∃ k, (v'.rpcs k).adding = some pr := by
  cases m with
  | create =>
    rcases eq_or_ne pr v.procCount with rfl | hne
    · simp only [InMap, Service.setRpc_diskMap, Service.createProc_diskMap] at h
      exact absurd (hr.mapped _ _ h).1 (Nat.lt_irrefl _)
    · exact .inl (by simpa [InMap, hne] using h)
  | @insert k _ pr' _ _ =>
    rcases eq_or_ne pr pr' with rfl | hne
    · exact .inr ⟨k, by simp [RpcPc.adding]⟩
    · refine .inl ?_
      simp only [InMap, Service.setRpc_diskMap, Service.setMap_diskMap, Service.setRpc_procs,
        Service.setMap_procs, Function.update_apply] at h
      split at h
      · exact absurd (Option.some.inj h).symm hne
      · exact h
  | undo => exact .inl (inMap_of_removeDisk h)
  | @final pr' =>
    left
    rcases eq_or_ne pr pr' with rfl | hne
    · exact inMap_of_removeDisk (by simpa [InMap] using h)
    · exact inMap_of_removeDisk (by simpa [InMap, hne] using h)
  | wake | removed | execute | executeNone | reply | replied | post | setEvent | registered
  | duplicate =>
    -- a processor changes, but not its id
    simp only [InMap, Service.setProc_procs, Service.setProc_diskMap, Service.setRun_procs,
      Service.setRun_diskMap, Service.setRpc_procs, Service.setRpc_diskMap, Service.executed_procs,
      Service.executed_diskMap, Service.deleteProc_procs, Service.deleteProc_diskMap,
      Function.update_apply] at h
    left
    split at h
    · next heq =>
      subst heq
      exact h
    · exact h
  | _ => exact .inl h

/-- **An RPC worker lets its processor go** when it has its PDO, or is out of the map. -/
theorem adding_of_serves (hr : Registry d v) (m : Serves d v x o v')
    (hk : (v.rpcs k).adding = some pr) :
    (v'.rpcs k).adding = some pr ∨ HasPdo d.bus pr ∨ ¬ InMap v' pr := by
  -- a step of the worker `k'`
  have hstep : ∀ {k' : ℕ} {w w' : RpcPc}, v.rpcs k' = w → v'.rpcs = Function.update v.rpcs k' w' →
      (k = k' → w.adding = some pr →
        w'.adding = some pr ∨ HasPdo d.bus pr ∨ ¬ InMap v' pr) →
      (v'.rpcs k).adding = some pr ∨ HasPdo d.bus pr ∨ ¬ InMap v' pr := by
    intro k' w w' hw heq hself
    rcases eq_or_ne k k' with rfl | hne
    · rw [heq, Function.update_self]
      exact hself rfl (hw ▸ hk)
    · rw [heq, Function.update_of_ne hne]
      exact .inl hk
  cases m with
  | rpcAdd h | rpcRemove h | createFailed h | create h | unregister h | unregistered h | rpcDone h =>
    exact hstep h rfl fun _ hw => by cases hw
  | insert h | insertTaken h | register h | registerFailed h =>
    exact hstep h rfl fun _ hw => .inl hw
  | duplicate h =>
    refine hstep h rfl fun heq hw => .inr (.inr fun hin => ?_)
    obtain rfl := Option.some.inj hw
    have hworking := hr.working k
    rw [heq, h] at hworking
    exact hworking.2.2.2.2 _ hin
  | registered h hret hs =>
    refine hstep h rfl fun heq hw => .inr (.inl ?_)
    obtain rfl := Option.some.inj hw
    have hworking := hr.working k
    rw [heq, h, hret] at hworking
    exact hworking.1 hs
  | @undo k' _ pr' h =>
    have hrpcs : ((v.removeDisk (v.procs pr').diskId).setRpc k' (.done false)).rpcs =
        Function.update v.rpcs k' (.done false) := by simp
    refine hstep h hrpcs fun heq hw => .inr (.inr fun hin => ?_)
    obtain rfl := Option.some.inj hw
    have hworking := hr.working k
    rw [heq, h] at hworking
    have hin : InMap (v.removeDisk (v.procs pr').diskId) pr' := hin
    rw [InMap, removeDisk_eq hworking.2.2] at hin
    simp at hin
  | final => exact .inl (by simpa using hk)
  | _ => exact .inl hk

/-! ## The invariant -/

/-- **A disk on its way**: one that goes has been notified or is gone, and one in the map has its
PDO or is about to get it. -/
structure Retiring (d : Driver) (v : Service) : Prop where
  notified : ∀ p < d.bus.pdoCount, (d.bus.pdos p).signalled = true →
    d.bus.events (d.bus.pdos p).buffer = true ∨
    (v.procs (d.bus.pdos p).buffer).pc = .final ∨ (v.procs (d.bus.pdos p).buffer).pc = .exited
  gone : ∀ pr, (v.procs pr).pc = .exited → (v.procs pr).alive = false
  owned : ∀ pr, InMap v pr → HasPdo d.bus pr ∨ ∃ k, (v.rpcs k).adding = some pr
  cleaners : ∀ t, (d.calls t).cleaning = true → t.external = true


/-- Nothing is on its way at the start. -/
theorem Retiring.init {files : FileId → File} : Retiring {} { files := files } := by
  refine ⟨?_, fun _ _ => rfl, ?_, ?_⟩
  · intro p hp
    cases hp
  · intro pr hin
    cases hin
  · intro t ht
    cases ht

/-- **A step of the service keeps it**: who was told to end ends, and who ends leaves the map. -/
theorem Retiring.serve (h : Retiring d v) (hr : Registry d v) (m : Serves d v x o v') :
    Retiring d v' := by
  refine ⟨fun p hp hs => ?_, fun pr hpc => ?_, fun pr hin => ?_, h.cleaners⟩
  · exact (h.notified p hp hs).imp_right (ending_of_serves m (hr.owner p hp).1)
  · rcases exited_of_serves hr m hpc with hold | hgone
    · by_contra halive
      rw [Bool.not_eq_false] at halive
      rcases alive_of_serves m halive with hx | hwait
      · rw [h.gone pr hold] at hx
        cases hx
      · rw [hpc] at hwait
        cases hwait
    · exact hgone
  · rcases inMap_of_serves hr m hin with hold | hadd
    · rcases h.owned pr hold with hpdo | ⟨k, hk⟩
      · exact .inl hpdo
      · rcases adding_of_serves hr m hk with hk' | hpdo | hout
        · exact .inr ⟨k, hk'⟩
        · exact .inl hpdo
        · exact absurd hin hout
    · exact .inr hadd

/-- **A step of the driver keeps it**: a removal is signalled with its event, and an event is
consumed by the thread that ends. -/
theorem Retiring.act (h : Retiring d v) (hr : Registry d v) (hr' : Registry d' v)
    (hs : d.step a = some d') (ha : Makes v a) : Retiring d' v := by
  rcases Driver.step_moves hs with ⟨t, b', pc', m, rfl⟩ | ⟨e, f, -, rfl⟩ | ⟨e, rfl, -, rfl⟩
  · refine ⟨fun p hp hsig => ?_, h.gone, fun pr hin => ?_, ?_⟩
    · by_cases hlt : p < d.bus.pdoCount
      · have hbuf := (m.identity hlt).2.2.2.1
        have hev := (hr.owner p hlt).2.1
        rw [Driver.put_bus, hbuf]
        have hset : d.bus.events (d.bus.pdos p).buffer = true → b'.events (d.bus.pdos p).buffer =
            true := fun he => (m.event_kept he).resolve_right fun ⟨q, hq⟩ => by
          cases hr'.resets q true hq
        rcases m.signals hlt hsig with hold | hset'
        · exact (h.notified p hlt hold).imp_left hset
        · exact .inl (hev ▸ hset')
      · obtain ⟨k, pr, -, -, -, -, -, -, hdd⟩ := hr.creates m hp (Nat.not_lt.mp hlt)
        rw [Driver.put_bus, hdd] at hsig
        cases hsig
    · exact (h.owned pr hin).imp_left (HasPdo.mono m)
    · refine forall_update (L := fun t (pc : Pc) => pc.cleaning = true → t.external = true) ?_
        fun t₂ _ => h.cleaners t₂
      intro hpc
      rcases m.cleaning hpc with hold | ⟨file, rfl⟩
      · exact h.cleaners t hold
      · cases t with
        | sys n => rfl
        | run =>
          obtain ⟨r, -, hc⟩ := ha
          cases hc
        | disk pr => cases ha.2
        | rpc k =>
          rcases ha with ⟨pr, -, hc⟩ | ⟨-, handle, hc⟩ <;> cases hc
  · exact ⟨h.1, h.2, h.3, h.4⟩
  · refine ⟨fun p hp hsig => ?_, h.gone, h.owned, h.cleaners⟩
    by_cases hpe : (d.bus.pdos p).buffer = e
    · exact .inr (.inl (hpe ▸ ha))
    · exact (h.notified p hp hsig).imp_left fun he => by simpa [hpe] using he

/-- **Every disk that goes has been told so, in every state reached.** -/
theorem retiring (h : (lts files).Reach C s) : Retiring s.driver s.service := by
  refine (invariant (I := fun d v => Retiring d v ∧ Registry d v) ⟨.init, .init⟩ ?_ ?_ h).1
  · rintro s a act v' d' - - ⟨hi, hr⟩ m hd
    exact ⟨hi.serve hr m, hr.serve m hd⟩
  · rintro s a act v' d' hreach - ⟨hi, hr⟩ m hd
    have hr' := hr.act (Driver.linked (driver_reachable hreach)) hd (registers_of_makes m.makes)
    exact ⟨hi.act hr hr' hd m.makes, hr'⟩

/-! ## At rest -/

/-- A disk thread at its wait sees that its disk was removed. -/
theorem exists_removed (hwait : (v.procs pr).pc = .wait) (halive : (v.procs pr).alive = true)
    (hev : (v.procs pr).hEvent = false) (hset : d.bus.events pr = true) :
    ∃ s', (⟨d, v⟩ : System).step (.disk pr .complete) = some s' := by
  have hv : v.step d (.disk pr .complete) =
      some (some (.userWait pr), v.setProc pr fun x => { x with pc := .final }) := by
    rw [Service.step, Service.diskStep, hwait]
    simp [halive, hev, hset]
  exact exists_step hv ⟨_, by rw [perform, Driver.step, if_pos hset]⟩

/-- A step inside the driver is one of the system. -/
theorem driver_step {ok : Bool} (hd : s.driver.step (.step t ok) = some d') :
    s.step (.driver (.step t ok)) = some ⟨d', s.service⟩ := by
  simp [System.step, Service.step, Action.external, perform, hd]

/-- Where no thread can go on in the driver, none of the service's is inside, unless it is lost
there. -/
theorem outside_of_stuck (h : (lts files).Reach C s) (hstuck : ∀ t, ¬ s.driver.CanGo t)
    (ht : t.external = false) (hlive : ∀ irp, s.driver.calls t ≠ .crash irp) :
    (s.driver.calls t).outside = true := by
  by_contra hout
  have hin : (s.driver.calls t).inside = true := by
    cases hc : s.driver.calls t <;> rw [hc] at hout hlive <;> first
      | rfl
      | exact absurd rfl hout
      | exact absurd rfl (hlive _)
  rcases (Driver.held (driver_reachable h)).canGo hin with ⟨hwait, -⟩ | ⟨t', -, hgo⟩
  · have hclean := (retiring h).cleaners t (by rw [hwait]; rfl)
    rw [ht] at hclean
    cases hclean
  · exact hstuck t' hgo

section AtRest

variable (h : (lts files).Reach C s) (hrest : (lts files).AtRest (fun _ x => x.settles) s)

include h hrest

/-- Where nothing goes on, no thread of the service is inside the driver, unless it is lost there.
-/
theorem outside_of_settled (ht : t.external = false)
    (hlive : ∀ irp, s.driver.calls t ≠ .crash irp) : (s.driver.calls t).outside = true := by
  refine outside_of_stuck h (fun t' hgo => ?_) ht hlive
  obtain ⟨d', hd⟩ := hgo true
  have hnone : s.step (.driver (.step t' true)) = none := hrest (.driver (.step t' true)) rfl
  rw [driver_step hd] at hnone
  cases hnone

/-- …so no RPC is under way. -/
theorem idle_of_settled (hlive : ∀ irp, s.driver.calls (.rpc k) ≠ .crash irp) :
    s.service.rpcs k = .idle := by
  have hout := outside_of_settled h hrest (t := .rpc k) rfl hlive
  refine ((synced h).rpc_turn hout).resolve_left ?_
  rintro ⟨s', hs⟩
  have hnone : s.step (.rpc k true) = none := hrest (.rpc k true) rfl
  rw [show s.step (.rpc k true) = some s' from hs] at hnone
  cases hnone

/-- …and a disk whose removal was signalled is gone. -/
theorem gone_of_settled (hp : p < s.driver.bus.pdoCount)
    (hsig : (s.driver.bus.pdos p).signalled = true)
    (hlive : ∀ irp, s.driver.calls (.disk (s.driver.bus.pdos p).buffer) ≠ .crash irp) :
    (s.service.procs (s.driver.bus.pdos p).buffer).alive = false := by
  generalize hpr : (s.driver.bus.pdos p).buffer = pr at hlive
  have hnotified := (retiring h).notified p hp hsig
  rw [hpr] at hnotified
  have hout := outside_of_settled h hrest (t := .disk pr) rfl hlive
  have hstop : s.step (.disk pr .complete) = none := hrest (.disk pr .complete) rfl
  have hnone : ∀ s', s.step (.disk pr .complete) ≠ some s' := fun s' hs => by
    rw [hs] at hstop
    cases hstop
  rcases (synced h).disk_turn hout with ⟨s', hs⟩ | hexit | ⟨hwait, hev⟩
  · exact absurd hs (hnone s')
  · exact (retiring h).gone pr hexit
  · by_contra halive
    rw [Bool.not_eq_false] at halive
    have hset : s.driver.bus.events pr = true := by
      refine hnotified.resolve_right ?_
      rw [hwait]
      rintro (hx | hx) <;> cases hx
    obtain ⟨s', hs⟩ := exists_removed hwait halive (hev halive) hset
    exact hnone s' hs

/-- …and one in the map has a PDO that no removal was signalled for. -/
theorem pdo_of_settled (hin : InMap s.service pr)
    (hlive : ∀ t irp, t.external = false → s.driver.calls t ≠ .crash irp) :
    ∃ p < s.driver.bus.pdoCount, (s.driver.bus.pdos p).signalled = false ∧
      (s.driver.bus.pdos p).buffer = pr := by
  have halive := ((registry h).mapped _ _ hin).2.1
  rcases (retiring h).owned pr hin with ⟨p, hp, rfl⟩ | ⟨k, hk⟩
  · refine ⟨p, hp, ?_, rfl⟩
    by_contra hsig
    rw [Bool.not_eq_false] at hsig
    rw [gone_of_settled h hrest hp hsig fun irp => hlive _ irp rfl] at halive
    cases halive
  · rw [idle_of_settled h hrest fun irp => hlive _ irp rfl] at hk
    cases hk

end AtRest

/-- **The map follows the disks where nothing goes on** inside the driver, in a disk thread or in an
RPC worker, and no thread of the service was lost in the driver. -/
theorem map_of_settled (h : (lts files).Reachable s)
    (hrest : (lts files).AtRest (fun _ x => x.settles) s)
    (hlive : ∀ t irp, t.external = false → s.driver.calls t ≠ .crash irp) (diskId : ULONG)
    (pr : ProcId) :
    s.service.diskMap diskId = some pr ↔ ∃ p < s.driver.bus.pdoCount,
      (s.driver.bus.pdos p).signalled = false ∧ (s.driver.bus.pdos p).serialNo = diskId ∧
        (s.driver.bus.pdos p).buffer = pr := by
  have hr := registry h
  constructor
  · intro hm
    have hid := (hr.mapped _ _ hm).2.2
    have hin : InMap s.service pr := by rw [InMap, hid, hm]
    obtain ⟨p, hp, hsig, rfl⟩ := pdo_of_settled h hrest hin hlive
    exact ⟨p, hp, hsig, by rw [(hr.owner p hp).2.2, hid], rfl⟩
  · rintro ⟨p, hp, hsig, rfl, rfl⟩
    rw [(hr.owner p hp).2.2]
    exact hr.live p hp hsig

/-- A disk is added, removed, and added again. -/
def cycleRun : List SysAction :=
  addRun 0 0 ++ .rpc 0 true ::
    (routine (.sys 0) (.pdoPnp 0 .eject) 1 ++ routine (.sys 0) (.queryRelations none) 2 ++
      routine (.sys 0) (.pdoRemove 0) 9).map .driver ++ List.replicate 2 (.disk 0 .complete) ++
    addRun 0 0 ++ [.rpc 0 true]

end System

/-! ## With the links and the look-up as they are -/

/-- A step of a thread inside the driver, of a disk thread or of an RPC worker. -/
def ListSysAction.settles : ListSysAction → Bool
  | .plain x => x.settles
  | .lost _ => false

namespace ListSystem

variable {s : ListSystem} {files : FileId → File}

/-- Where none of these is enabled, none of the system is. -/
theorem Quiet.atRest (h : s.Quiet) (hrest : (lts files).AtRest (fun _ a => a.settles) s) :
    (System.lts files).AtRest (fun _ x => x.settles) s.system := by
  intro x hx
  by_contra hne
  obtain ⟨σ, hσ⟩ := Option.ne_none_iff_exists'.mp hne
  obtain ⟨s', hs⟩ := h.enabled hσ
  rw [show s.step (.plain x) = none from hrest (.plain x) hx] at hs
  cases hs

/-- **Service and driver agree on the disks when nothing goes on.**  In every state of an
undisturbed run in which no thread inside the driver, no disk thread and no RPC worker has a step
left, and no RPC worker and no disk thread was lost in the driver, `m_diskMap` has for every id
exactly the processor of the PDO with that id whose removal has not been signalled. -/
theorem map_follows_disks (h : (lts files).Reach Undisturbed s)
    (hrest : (lts files).AtRest (fun _ a => a.settles) s)
    (hlive : ∀ t irp, t.external = false → s.listed.calls t ≠ .crash irp) (diskId : ULONG)
    (pr : ProcId) :
    s.service.diskMap diskId = some pr ↔ ∃ p < s.listed.bus.pdoCount,
      (s.listed.bus.pdos p).signalled = false ∧ (s.listed.bus.pdos p).serialNo = diskId ∧
        (s.listed.bus.pdos p).buffer = pr :=
  System.map_of_settled (reach_undisturbed h) ((quiet h).atRest hrest) hlive diskId pr

/-- The state after a disk was added, removed and added again. -/
def cycled : ListSystem :=
  (emptyLts.exec undisturbed (plainRun System.cycleRun) emptyLts.init).getD emptyLts.init

theorem cycled_reach : emptyLts.Reach Undisturbed cycled :=
  .exec undisturbed_sound (plainRun System.cycleRun) .init rfl

theorem cycled_atRest : emptyLts.AtRest (fun _ a => a.settles) cycled := by
  intro a ha
  cases a with
  | lost => cases ha
  | plain x =>
    cases x with
    | driver a =>
      cases a with
      | step t ok =>
        cases t with
        | sys n => cases n <;> rfl
        | rpc k => cases k <;> rfl
        | run | disk => rfl
      | _ => cases ha
    | disk pr out => rcases pr with _ | _ | pr <;> rfl
    | rpc k ok => cases k <;> rfl
    | _ => cases ha

/-- No thread was lost in it. -/
theorem cycled_live {t : Tid} {irp : Option IrpId} (ht : t.external = false) :
    cycled.listed.calls t ≠ .crash irp := by
  cases t with
  | sys n => cases ht
  | run | disk => exact Pc.noConfusion
  | rpc k => cases k <;> exact Pc.noConfusion

/-- The second disk has taken the place of the first. -/
theorem map_follows_disks_cycled : cycled.service.diskMap 1 = some 1 ∧
    ∀ diskId pr, cycled.service.diskMap diskId = some pr ↔ ∃ p < cycled.listed.bus.pdoCount,
      (cycled.listed.bus.pdos p).signalled = false ∧
        (cycled.listed.bus.pdos p).serialNo = diskId ∧
        (cycled.listed.bus.pdos p).buffer = pr :=
  ⟨by rfl, map_follows_disks cycled_reach cycled_atRest fun _ _ => cycled_live⟩

end ListSystem

end VirtualDisk
