import VirtualDisk.Driver.Requests
import VirtualDisk.Service.ListServer

/-!
# Service/Agreement — the service and the driver agree on which disks exist

The main result about the two registries: while a PDO is not destroyed its processor is in the map,
under the PDO's serial number and no other processor can be found there.  A request names its disk
by that number, so the Run loop finds the processor of the PDO that made it, when nobody writes the
map under its search.
-/

namespace VirtualDisk

open Machinery

/-- The Run loop's request changes when its GET_REQUEST IRP comes back. -/
theorem Serves.req {d : Driver} {v v' : Service} {x : SysAction} {act : Option Action}
    (m : Serves d v x act v') : v'.req = v.req ∨
    ∃ r, v.run = .waiting r ∧ (d.bus.requests r).completed = true ∧
      (d.bus.requests r).status = statusSuccess ∧
      v'.req = (d.bus.requests r).systemBuffer.getD v.req := by
  cases m with
  | got h hc hs => exact .inr ⟨_, h, hc, hs, rfl⟩
  | final | undo => exact .inl (by simp)
  | _ => exact .inl rfl

namespace System

variable {s s' : System} {files : FileId → File} {C : System → SysAction → Prop}

/-- **The Run loop's request is genuine.** -/
theorem req_genuine (h : (lts files).Reach C s) : s.driver.bus.Genuine s.service.req := by
  refine invariant (I := fun d v => d.bus.Genuine v.req) ?_ ?_ ?_ h
  · rintro p i ⟨⟩
  · intro s a act v' d' hr _ hi m _
    rcases m.req with heq | ⟨r, -, -, -, heq⟩
    · exact heq ▸ hi
    · rw [heq]
      cases hq : (s.driver.bus.requests r).systemBuffer with
      | none => exact hi
      | some q => exact Driver.genuine (driver_reachable hr) r q hq
  · exact fun _ _ _ _ _ _ _ hv _ hd => Driver.genuine_step hd hv

/-! ## The agreement -/

/-- **Both processes know the same disks.** -/
structure Agreed (s : System) : Prop where
  /-- A PDO that is not destroyed has its processor in the map, under its serial number. -/
  own : ∀ p < s.driver.bus.pdoCount, (s.driver.bus.pdos p).signalled = false → ∃ pr,
    s.service.diskMap (s.driver.bus.pdos p).serialNo = some pr ∧
    (s.service.procs pr).alive = true ∧
    (s.service.procs pr).diskId = (s.driver.bus.pdos p).serialNo ∧
    (s.driver.bus.pdos p).buffer = pr ∧ (s.driver.bus.pdos p).removeEvent = pr
  /-- PDOs that are not destroyed have different serial numbers. -/
  unique : ∀ p < s.driver.bus.pdoCount, ∀ q < s.driver.bus.pdoCount,
    (s.driver.bus.pdos p).signalled = false → (s.driver.bus.pdos q).signalled = false →
    (s.driver.bus.pdos p).serialNo = (s.driver.bus.pdos q).serialNo → p = q
  /-- A processor that was registered has a PDO, and is in the map until that is destroyed. -/
  leaves : ∀ pr, (s.service.procs pr).registered = true → ∃ p < s.driver.bus.pdoCount,
    (s.driver.bus.pdos p).buffer = pr ∧
    ((s.driver.bus.pdos p).signalled = false →
      s.service.diskMap (s.service.procs pr).diskId = some pr)
  /-- `Bus_RemoveDisk` never reset a removal event that was signalled. -/
  resets : ∀ p signalled, .resetEvent p signalled ∈ s.driver.bus.trace → signalled = false

section

variable (h : (lts files).Reach C s)
include h

/-- A PDO that is not destroyed has its own processor in the map. -/
theorem own_of_live {p : PdoId} (hp : p < s.driver.bus.pdoCount)
    (hs : (s.driver.bus.pdos p).signalled = false) :
    s.service.diskMap (s.driver.bus.pdos p).serialNo = some (s.driver.bus.pdos p).buffer := by
  rw [((registry h).owner p hp).2.2]
  exact (registry h).live p hp hs

/-- **Both processes know the same disks** where the list is a list. -/
theorem agree : s.Agreed := by
  have hr := registry h
  refine ⟨?_, ?_, ?_, hr.resets⟩
  · intro p hp hs
    have hm := own_of_live h hp hs
    obtain ⟨-, ha, hd⟩ := hr.mapped _ _ hm
    exact ⟨_, hm, ha, hd, rfl, (hr.owner p hp).2.1⟩
  · intro p hp q hq hsp hsq heq
    have hpq := (own_of_live h hp hsp).symm.trans (heq ▸ own_of_live h hq hsq)
    exact hr.injective p hp q hq (Option.some.inj hpq)
  · intro pr hreg
    obtain ⟨p, hp, rfl⟩ := hr.registered pr hreg
    exact ⟨p, hp, rfl, hr.live p hp⟩

/-- The request of a PDO that is not destroyed has its processor in the map. -/
theorem own_of_request {p : PdoId} {i : IrpId} (hq : s.service.req.origin = some (p, i))
    (hs : (s.driver.bus.pdos p).signalled = false) :
    s.service.diskMap s.service.req.val.handle = some (s.driver.bus.pdos p).buffer := by
  obtain ⟨hp, -, hval⟩ := req_genuine h p i hq
  rw [show s.service.req.val.handle = (s.driver.bus.pdos p).serialNo by rw [hval]; rfl]
  exact own_of_live h hp hs

end

/-- An RPC worker adds a disk with the id 1, kept in the file `f`. -/
def addRun (k : ℕ) (f : FileId) : List SysAction :=
  .rpcCall k (.addDisk 1 f ⟨8, 512⟩) :: List.replicate 3 (.rpc k true) ++
    (steps (.rpc k) 3).map .driver ++ [.rpc k true]

/-- The Run loop sends a GET_REQUEST, with one idle disk on the bus, and waits. -/
def getRun : List SysAction := .run :: (steps .run 7).map .driver ++ [.run]

/-- A READ is sent to a disk, with a GET_REQUEST waiting. -/
def readRun (p : PdoId) (i : IrpId) : List SysAction :=
  (routine (.sys 0) (.scsi p i readSrb) 8).map .driver

/-- A system whose files are empty. -/
abbrev emptyLts : Lts System SysAction := lts fun _ => ⟨0, fun _ => 0⟩

end System

/-! ## With the look-up as it is -/

namespace ListSystem

variable {s s' : ListSystem} {a : ListSysAction} {p : PdoId} {i : IrpId} {files : FileId → File}

/-- **Both processes know the same disks**, and the Run loop finds them. -/
structure Agreed (s : ListSystem) : Prop extends s.system.Agreed where
  /-- The request of a PDO that is not destroyed leads the Run loop to the PDO's own processor. -/
  lookup : ∀ p i, s.service.run = .find → s.service.req.origin = some (p, i) →
    (s.listed.bus.pdos p).signalled = false →
    (∃ s', s.step (.plain .run) = some s') ∧ ∀ a s', s.step a = some s' →
      s'.service.run = .find ∨ s'.service.run = .post (s.listed.bus.pdos p).buffer

/-- **The Run loop finds the PDO's own processor**, when it goes on from its search. -/
theorem Quiet.find (h : s.Quiet) (hr : (System.lts files).Reachable s.system)
    (hrun : s.service.run = .find) (hq : s.service.req.origin = some (p, i))
    (hsig : (s.listed.bus.pdos p).signalled = false) (hs : s.step a = some s') :
    s'.service.run = .find ∨ s'.service.run = .post (s.listed.bus.pdos p).buffer := by
  have hm : s.service.diskMap s.service.req.val.handle = some (s.listed.bus.pdos p).buffer :=
    System.own_of_request hr hq hsig
  cases a with
  | lost result =>
    simp only [ListSystem.step] at hs
    split at hs
    · next hse => exact absurd hse h.search
    · cases hs
  | plain x =>
    have hserve : ∀ s₁, s.serve x = some s₁ →
        s₁.service.run = .find ∨ s₁.service.run = .post (s.listed.bus.pdos p).buffer := by
      intro s₁ hs₁
      obtain ⟨⟨act, v'⟩, hv, hd⟩ := Option.bind_eq_some_iff.mp hs₁
      obtain ⟨d, -, rfl⟩ := Option.map_eq_some_iff.mp hd
      have m := Service.step_serves hv
      by_cases hx : x = .run
      · subst hx
        cases m with
        | find _ hm' => exact .inr (by rw [Option.some.inj (hm'.symm.trans hm)]; rfl)
        | findNone _ hm' => cases hm'.symm.trans hm
        | issue h' | issued h' | refused h' | got h' | gotNone h' | post h' | setEvent h' =>
          cases hrun.symm.trans h'
      · exact .inl ((m.run_of_ne hx).1.trans hrun)
    simp only [ListSystem.step] at hs
    split at hs
    · split at hs
      · cases hs
        exact .inl hrun
      · obtain ⟨s₁, hs₁, rfl⟩ := Option.map_eq_some_iff.mp hs
        exact hserve s₁ hs₁
      · cases hs
    · obtain ⟨s₁, hs₁, rfl⟩ := Option.map_eq_some_iff.mp hs
      exact hserve s₁ hs₁

/-- **The service and the driver agree on which disks exist**, in every run that takes no PDO off
the list twice and writes nothing under a search of the map. -/
theorem agreed (h : (lts files).Reach Undisturbed s) : s.Agreed := by
  have hr := reach_undisturbed h
  refine ⟨System.agree hr, fun p i hrun hq hsig => ⟨?_, fun a s' => (quiet h).find hr hrun hq hsig⟩⟩
  have hstep : ∃ σ, s.system.step .run = some σ := by
    simp [System.step, Service.step, Service.runStep, system, hrun, System.perform]
  obtain ⟨σ, hσ⟩ := hstep
  exact (quiet h).enabled hσ

/-- A system whose files are empty. -/
abbrev emptyLts : Lts ListSystem ListSysAction := lts fun _ => ⟨0, fun _ => 0⟩

/-- A run of the system, none of whose searches is lost. -/
def plainRun (xs : List SysAction) : List ListSysAction := xs.map .plain

/-- A disk is added, a READ is sent to it, and the Run loop goes into its look-up. -/
def lookupRun : List SysAction :=
  System.addRun 0 0 ++ System.getRun ++ System.readRun 0 0 ++ [.run, .run]

/-- The request of a disk that was just added is being looked up. -/
theorem agreed_lookup : ∃ s, emptyLts.Reach Undisturbed s ∧ s.Agreed ∧ s.service.run = .find ∧
    s.search = some false ∧ s.service.req.origin = some (0, 0) ∧
    (s.listed.bus.pdos 0).signalled = false ∧ (s.service.procs 0).registered = true := by
  obtain ⟨s, hs, hp⟩ := emptyLts.exists_reach undisturbed_sound (plainRun lookupRun)
    (fun s => s.service.run = .find ∧ s.search = some false ∧
      s.service.req.origin = some (0, 0) ∧ (s.listed.bus.pdos 0).signalled = false ∧
      (s.service.procs 0).registered = true)
    (by decide +kernel)
  exact ⟨s, hs, agreed hs, hp⟩

/-- A second RPC worker puts a processor for the id 2 into the map. -/
def insertRun : List SysAction :=
  [.rpcCall 1 (.addDisk 2 1 ⟨8, 512⟩), .rpc 1 true, .rpc 1 true]

/-- A second disk enters the map while the Run loop looks up the first. -/
theorem exists_lost : ∃ s, emptyLts.Reachable s ∧ s.service.run = .find ∧ s.search = some true ∧
    s.service.req.origin = some (0, 0) ∧ (s.listed.bus.pdos 0).signalled = false :=
  emptyLts.exists_reachable (plainRun (lookupRun ++ insertRun))
    (fun s => s.service.run = .find ∧ s.search = some true ∧
      s.service.req.origin = some (0, 0) ∧ (s.listed.bus.pdos 0).signalled = false)
    (by decide +kernel)

/-- Two disks are added, and the first one reported missing.  A REMOVE_DISK for the second one gets
past the test of `Deleted` and the first one's REMOVE_DEVICE past that of `ParentFdo`; then the FDO
is removed, and both go on. -/
def relistRun : List SysAction :=
  System.addRun 0 0 ++ insertRun ++ [.rpc 1 true] ++ (steps (.rpc 1) 3).map .driver ++
    [.rpc 1 true, .rpc 1 true] ++
    (routine (.sys 0) (.pdoPnp 0 .eject) 1 ++ routine (.sys 0) (.queryRelations none) 2).map
      .driver ++
    [.rpcCall 1 (.removeDisk 2), .rpc 1 true] ++
    (.call (.sys 2) (.pdoRemove 0) :: steps (.sys 2) 1 ++ routine (.sys 0) .fdoRemove 15 ++
      steps (.sys 2) 1 ++ steps (.rpc 1) 1).map .driver

/-- A signal is erased. -/
def erases : Event → Bool
  | .resetEvent _ signalled => signalled
  | _ => false

/-- The REMOVE_DISK finds the second disk, which the second RemoveEntryList on the first has put
back, and resets its event. -/
theorem exists_signal_erased : ∃ s, emptyLts.Reachable s ∧
    ∃ p, .resetEvent p true ∈ s.listed.bus.trace := by
  obtain ⟨s, hs, hany⟩ := emptyLts.exists_reachable (plainRun relistRun)
    (fun s => s.listed.bus.trace.any erases = true) (by decide +kernel)
  obtain ⟨e, he, herases⟩ := List.any_eq_true.mp hany
  refine ⟨s, hs, ?_⟩
  cases e with
  | resetEvent p signalled => exact ⟨p, herases ▸ he⟩
  | _ => cases herases

/-- **The two do not always agree**: the Run loop may miss a disk that is there, and a removal's
signal may be erased. -/
theorem not_agreed :
    (∃ s, emptyLts.Reachable s ∧ s.search = some true ∧ ¬ s.Agreed) ∧
    ∃ s, emptyLts.Reachable s ∧ (∃ p, .resetEvent p true ∈ s.listed.bus.trace) ∧ ¬ s.Agreed := by
  constructor
  · obtain ⟨s, hs, hrun, hse, hq, hsig⟩ := exists_lost
    refine ⟨s, hs, hse, fun h => ?_⟩
    have hlost : s.step (.lost none) = some { s with
        service := s.service.setRun .issue
        search := none } := by rw [step, hse]
    rcases (h.lookup 0 0 hrun hq hsig).2 _ _ hlost with hf | hf <;> cases hf
  · obtain ⟨s, hs, p, htrace⟩ := exists_signal_erased
    exact ⟨s, hs, ⟨p, htrace⟩, fun h => absurd (h.resets p true htrace) (by decide)⟩

end ListSystem

end VirtualDisk
