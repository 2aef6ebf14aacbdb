import VirtualDisk.Machinery.Refinement
import VirtualDisk.Driver.ListEntries
import VirtualDisk.Service.Registration

/-!
# Service/ListServer — the system with its links and its unlocked look-up

Two things are one step in `Service.Server` that are not in the two processes.  The driver's list is
a ring of links (`Driver.ListEntries`).  And `CDiskServer::Run` looks its disk up in `m_diskMap`
without `m_cs`, so a worker that writes the map meanwhile pulls it from under the search, which may
then give anything.

Where no PDO is taken off its list twice and the map is not written under a search, the system is
the one of `Service.Server`, whose look-up begins a step earlier.
-/

namespace VirtualDisk

open Machinery

/-- The step writes `m_diskMap`: a processor is inserted, or one that is there is erased. -/
def Service.writesMap (v : Service) : SysAction → Bool
  | .disk pr _ => (v.procs pr).pc = .final && (v.diskMap (v.procs pr).diskId).isSome
  | .rpc k _ => match v.rpcs k with
    | .insert pr => (v.diskMap (v.procs pr).diskId).isNone
    | .undo pr => (v.diskMap (v.procs pr).diskId).isSome
    | _ => false
  | _ => false

/-- The driver on its links, and the service.  `search` is there while the Run loop is in
`FindDisk`, and says whether the map was written since it went in. -/
structure ListSystem where
  listed : ListDriver := {}
  service : Service
  search : Option Bool := none

/-- What can happen: a step of the system, or the end of a search that the map was written under,
with this result. -/
inductive ListSysAction
  | plain (a : SysAction)
  | lost (result : Option ProcId)

namespace ListSystem

/-- The driver after an action, if there is one. -/
def perform (d : ListDriver) : Option Action → Option ListDriver
  | none => some d
  | some a => d.step a

/-- A step of the service, with the action it makes in the driver. -/
def serve (s : ListSystem) (a : SysAction) : Option ListSystem :=
  (s.service.step s.listed.driver a).bind fun r => (perform s.listed r.1).map fun d =>
    { s with listed := d, service := r.2 }

/-- The Run loop is about to call `FindDisk`, or is in it. -/
def looksUp (s : ListSystem) : SysAction → Bool
  | .run => s.service.run = .find
  | _ => false

/-- **One step of the system.** -/
def step (s : ListSystem) : ListSysAction → Option ListSystem
  | .plain a =>
    if s.looksUp a then
      match s.search with
      | none => some { s with search := some false }
      | some false => (s.serve a).map fun s => { s with search := none }
      | some true => none
    else
      (s.serve a).map fun s' => { s' with search := s.search.map (· || s.service.writesMap a) }
  | .lost result => match s.search with
    | some true => some { s with
        service := s.service.setRun (match result with | none => .issue | some pr => .post pr)
        search := none }
    | _ => none

/-- **The system**, started with these files. -/
def lts (files : FileId → File) : Lts ListSystem ListSysAction :=
  ⟨{ service := { files := files } }, step⟩

/-! ## The conditions -/

/-- No PDO is taken off the driver's list twice. -/
def UnlinksOnce (s : ListSystem) : ListSysAction → Prop
  | .plain (.driver a) => s.listed.UnlinksOnce a
  | _ => True

/-- **Nothing is written under a search** of the Run loop. -/
def SearchesAlone (s : ListSystem) : ListSysAction → Prop
  | .plain a => s.search ≠ none → s.service.writesMap a = false
  | .lost _ => True

/-- Both conditions. -/
def Undisturbed (s : ListSystem) (a : ListSysAction) : Prop := s.UnlinksOnce a ∧ s.SearchesAlone a

/-- The conditions, as a test. -/
def undisturbed (s : ListSystem) : ListSysAction → Bool
  | .plain a => (s.search.isNone || !s.service.writesMap a) && match a with
    | .driver a => s.listed.unlinksOnce a
    | _ => true
  | .lost _ => true

variable {s s' : ListSystem} {a : ListSysAction} {x : SysAction} {files : FileId → File}
  {C : System → SysAction → Prop}

theorem undisturbed_sound (s : ListSystem) (a : ListSysAction) (h : s.undisturbed a = true) :
    s.Undisturbed a := by
  cases a with
  | lost => exact ⟨trivial, trivial⟩
  | plain x =>
    obtain ⟨hw, hu⟩ := Bool.and_eq_true_iff.mp h
    refine ⟨?_, fun hne => ?_⟩
    · cases x with
      | driver a => exact s.listed.unlinksOnce_sound a hu
      | _ => trivial
    · rw [Bool.or_eq_true, Option.isNone_iff_eq_none, Bool.not_eq_true'] at hw
      exact hw.resolve_left hne

/-- The system without its links and with its look-up in one step. -/
def system (s : ListSystem) : System := ⟨s.listed.driver, s.service⟩

/-- A condition on the steps of the system. -/
def Plain (C : System → SysAction → Prop) (s : ListSystem) : ListSysAction → Prop
  | .plain x => C s.system x
  | .lost _ => True

/-! ## The invariant of the undisturbed runs -/

/-- **What an undisturbed run keeps to.** -/
structure Quiet (s : ListSystem) : Prop where
  listed : ListDriver.lts.Reach ListDriver.UnlinksOnce s.listed
  search : s.search ≠ some true
  run : s.search ≠ none → s.service.run = .find

theorem Quiet.init : (lts files).init.Quiet := ⟨.init, nofun, fun h => absurd rfl h⟩

namespace Quiet

variable (h : s.Quiet)
include h

/-- The links form a ring. -/
theorem ringed : s.listed.bus.Ringed ∧ Driver.lts.Reach Driver.UnlinksOnce s.listed.driver := by
  obtain ⟨hr, hd⟩ := ListDriver.reach_driver (C := fun _ _ => True)
    (h.listed.mono fun _ _ _ _ hu => ⟨trivial, hu⟩)
  exact ⟨hr, hd.mono fun _ _ _ _ hc => hc.2⟩

/-- A step of the driver on the links is one of the driver. -/
theorem step_driver {a : Action} (hu : s.listed.UnlinksOnce a) :
    (s.listed.step a).map ListDriver.driver = s.listed.driver.step a := by
  obtain ⟨hr, hd⟩ := h.ringed
  exact (ListDriver.step_driver hr (Driver.linked hd) (Driver.owing (fun _ _ h => h) hd) hu).1

end Quiet

/-- The service's own actions take no PDO off the list. -/
theorem unlinksOnce_of_serves {act : Action} {v' : Service}
    (m : Serves s.listed.driver s.service x (some act) v') (hu : s.UnlinksOnce (.plain x)) :
    s.listed.UnlinksOnce act := by
  cases m with
  | driver => exact hu
  | _ => trivial

/-- A search goes on while nothing is written under it. -/
theorem search_eq (hu : s.SearchesAlone (.plain x)) :
    s.search.map (· || s.service.writesMap x) = s.search := by
  cases hse : s.search with
  | none => rfl
  | some w => rw [hu (by rw [hse]; exact Option.some_ne_none _), Option.map_some, Bool.or_false]

namespace Quiet

variable (h : s.Quiet)
include h

/-- **A step of the service with its action in the driver** is one of the system. -/
theorem serve (hu : s.UnlinksOnce (.plain x)) :
    (s.serve x).map system = s.system.step x ∧
      ∀ s' ∈ s.serve x, ListDriver.lts.Reach ListDriver.UnlinksOnce s'.listed := by
  have hsys : s.system.step x = (s.service.step s.listed.driver x).bind fun r =>
      (System.perform s.listed.driver r.1).map fun d => ⟨d, r.2⟩ := rfl
  rw [hsys, ListSystem.serve]
  cases hv : s.service.step s.listed.driver x with
  | none => exact ⟨rfl, fun s' hs => by cases hs⟩
  | some r =>
    obtain ⟨act, v'⟩ := r
    have m := Service.step_serves hv
    simp only [Option.bind_some]
    cases act with
    | none => exact ⟨rfl, fun s' hs => by cases hs; exact h.listed⟩
    | some act =>
      have hact := unlinksOnce_of_serves m hu
      simp only [perform, System.perform, ← h.step_driver hact, Option.map_map]
      refine ⟨rfl, fun s' hs => ?_⟩
      obtain ⟨d, hd, rfl⟩ := Option.map_eq_some_iff.mp hs
      exact .step h.listed hact hd

/-- **A step of an undisturbed run**: the Run loop goes into its look-up, or the step is one of the
system. -/
theorem step (hu : s.Undisturbed a) (hs : s.step a = some s') :
    s'.Quiet ∧ ((s'.system = s.system ∧ s.search = none ∧ s'.search ≠ none) ∨
      ∃ x, a = .plain x ∧ s.system.step x = some s'.system) := by
  cases a with
  | lost result =>
    simp only [ListSystem.step] at hs
    split at hs
    · next hse => exact absurd hse h.search
    · cases hs
  | plain x =>
    obtain ⟨heq, hreach⟩ := h.serve hu.1
    simp only [ListSystem.step] at hs
    split at hs
    · next hlook =>
      split at hs
      · next hse =>
        cases hs
        refine ⟨⟨h.listed, nofun, fun _ => ?_⟩, .inl ⟨rfl, hse, nofun⟩⟩
        cases x <;> simp_all [looksUp]
      · obtain ⟨s₁, hs₁, rfl⟩ := Option.map_eq_some_iff.mp hs
        rw [hs₁] at heq
        exact ⟨⟨hreach s₁ hs₁, nofun, fun hne => absurd rfl hne⟩, .inr ⟨x, rfl, heq.symm⟩⟩
      · cases hs
    · next hlook =>
      obtain ⟨s₁, hs₁, rfl⟩ := Option.map_eq_some_iff.mp hs
      rw [hs₁] at heq
      refine ⟨⟨hreach s₁ hs₁, ?_, fun hne => ?_⟩, .inr ⟨x, rfl, heq.symm⟩⟩
      · show s.search.map _ ≠ _
        rw [search_eq hu.2]
        exact h.search
      · rw [search_eq hu.2] at hne
        have hrun := h.run hne
        obtain ⟨act, m, -⟩ := System.step_serves heq.symm
        have hx : x ≠ .run := by
          rintro rfl
          exact hlook (decide_eq_true hrun)
        exact (m.run_of_ne hx).1.trans hrun

/-- **A step of the system is enabled here too**, or the beginning of its look-up is. -/
theorem enabled {σ : System} (hs : s.system.step x = some σ) :
    ∃ s', s.step (.plain x) = some s' := by
  have hserve : (s.serve x).isSome := by
    rw [show s.system.step x = (s.service.step s.listed.driver x).bind fun r =>
      (System.perform s.listed.driver r.1).map fun d => ⟨d, r.2⟩ from rfl] at hs
    obtain ⟨⟨act, v'⟩, hv, hd⟩ := Option.bind_eq_some_iff.mp hs
    obtain ⟨d, hd, -⟩ := Option.map_eq_some_iff.mp hd
    rw [ListSystem.serve, hv, Option.bind_some, Option.isSome_map]
    cases act with
    | none => rfl
    | some act =>
      obtain ⟨hr, hreach⟩ := h.ringed
      have hsome := ListDriver.isSome_step (a := act) hr (Driver.linked hreach)
        (Driver.owing (fun _ _ h => h) hreach)
      rw [show s.listed.driver.step act = some d from hd] at hsome
      exact hsome
  obtain ⟨s₁, hs₁⟩ := Option.isSome_iff_exists.mp hserve
  simp only [ListSystem.step, hs₁, Option.map_some]
  split
  · split
    · exact ⟨_, rfl⟩
    · exact ⟨_, rfl⟩
    · next hse => exact absurd hse h.search
  · exact ⟨_, rfl⟩

/-- A search can be gone on with. -/
theorem enabled_run (hse : s.search ≠ none) : ∃ s', s.step (.plain .run) = some s' := by
  have hstep : ∃ σ, s.system.step .run = some σ := by
    simp [System.step, Service.step, Service.runStep, system, h.run hse, System.perform]
  obtain ⟨σ, hσ⟩ := hstep
  exact h.enabled hσ

end Quiet

/-- An undisturbed run keeps to it. -/
theorem quiet (h : (lts files).Reach Undisturbed s) : s.Quiet :=
  h.invariant .init fun _ _ _ _ hi hC hs => (hi.step hC hs).1

/-- **The system with its links is the system**, in every undisturbed run. -/
theorem reach_system (h : (lts files).Reach (fun s a => s.Undisturbed a ∧ Plain C s a) s) :
    (System.lts files).Reach C s.system := by
  refine h.image system rfl fun s a s' hr hC hs => ?_
  rcases ((quiet (hr.mono fun _ _ _ _ hc => hc.1)).step hC.1 hs).2 with ⟨heq, -⟩ | ⟨x, rfl, hstep⟩
  · exact .inl heq
  · exact .inr ⟨x, hC.2, hstep⟩

/-- The system of an undisturbed run. -/
theorem reach_undisturbed (h : (lts files).Reach Undisturbed s) :
    (System.lts files).Reachable s.system :=
  reach_system (h.mono fun _ a _ _ hc => ⟨hc, by cases a <;> trivial⟩)

/-- **The steps refine those of the system**, where these take no PDO off twice, leave the Run loop
free to go on, and nothing is written under its search. -/
theorem refines {D : System → SysAction → Prop} {J : System → Prop}
    (hrun : ∀ σ, D σ .run) (hkeep : ∀ σ x σ', J σ → D σ x → σ.step x = some σ' → J σ')
    (hunlink : ∀ (s : ListSystem) x, J s.system → D s.system x → s.UnlinksOnce (.plain x)) :
    (lts files).Refines (fun s a => Plain D s a ∧ s.SearchesAlone a) (System.lts files) D system
      (fun s => s.Quiet ∧ J s.system) fun s => if s.search = none then 1 else 0 := by
  have hstep : ∀ {s a s'}, s.Quiet ∧ J s.system → Plain D s a ∧ s.SearchesAlone a →
      s.step a = some s' → s'.Quiet ∧ ((s'.system = s.system ∧ s.search = none ∧ s'.search ≠ none) ∨
        ∃ x, D s.system x ∧ s.system.step x = some s'.system) := by
    intro s a s' hi hc hs
    have hu : s.UnlinksOnce a := by
      cases a with
      | plain x => exact hunlink s x hi.2 hc.1
      | lost => trivial
    obtain ⟨hquiet, hcase⟩ := hi.1.step ⟨hu, hc.2⟩ hs
    refine ⟨hquiet, hcase.imp_right ?_⟩
    rintro ⟨x, rfl, hx⟩
    exact ⟨x, hc.1, hx⟩
  refine ⟨fun s a s' hi hc hs => ?_, fun s a s' hi hc hs => ?_, fun s x u hi hx hs => ?_⟩
  · obtain ⟨hquiet, ⟨heq, -⟩ | ⟨x, hd, hx⟩⟩ := hstep hi hc hs
    · exact ⟨hquiet, heq ▸ hi.2⟩
    · exact ⟨hquiet, hkeep _ x _ hi.2 hd hx⟩
  · refine (hstep hi hc hs).2.imp_left ?_
    rintro ⟨heq, hnone, hne⟩
    exact ⟨heq, by rw [if_pos hnone, if_neg hne]; exact Nat.one_pos⟩
  · by_cases hse : s.search = none
    · obtain ⟨s', hs'⟩ := hi.1.enabled hs
      exact ⟨.plain x, s', ⟨hx, fun hne => absurd hse hne⟩, hs'⟩
    · obtain ⟨s', hs'⟩ := hi.1.enabled_run hse
      exact ⟨.plain .run, s', ⟨hrun _, fun _ => rfl⟩, hs'⟩

end ListSystem

end VirtualDisk
