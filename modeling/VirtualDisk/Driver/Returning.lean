import VirtualDisk.Driver.Quiescence
import VirtualDisk.Driver.Unlinking
import VirtualDisk.Driver.Waiting

/-!
# Driver/Returning — every dispatch routine returns

When no request is sent any more, the dispatch routines come to their ends: a step of a dispatch
routine brings its thread nearer to its end, and between two of these the routines of the driver
wind down (`Driver.Quiescence`).  What stays inside waits for a disk to go, or for a remove lock
that was left behind.
-/

namespace VirtualDisk

open Machinery

variable {t : Tid} {p : PdoId} {ok : Bool} {b b' : Bus} {f f' : FdoDevice} {pc pc' : Pc}
  {fr fr' : Frame} {e : Entry} {ps : List PdoId}

/-- The steps of a dispatch routine to its end. -/
def Frame.rank : Frame → ℕ
  | .outside => 0
  | .release _ | .scsiEnd _ | .delete => 1
  | .wait => 2
  | .inner _ => 3
  | .body _ => 4
  | .acquire _ => 5
  | .test _ => 6

/-- **Every step of a dispatch routine brings it nearer to its end.** -/
theorem Turns.rank (m : Turns t b f (.step t ok) pc fr b' f' pc' fr') : fr'.rank < fr.rank := by
  cases m <;> exact Nat.le_of_ble_eq_true rfl

/-- A loop keeps its way when a dispatch routine makes a step. -/
theorem Bus.Passes.aside (h : b.Passes e) (ha : Aside ps b b') : b'.Passes e := by
  obtain ⟨l, hp, hs⟩ := h
  refine ⟨l, Bus.flink_congr ha.listOfPDOs ha.flink ▸ hp, fun q hq => ⟨?_, ?_, ?_⟩⟩
  · exact ha.pdoCount ▸ (hs q hq).lt
  · exact (ha.deleted q).trans (hs q hq).deleted
  · exact fun hn => (hs q hq).parentFdo ((ha.parentFdo q).symm.trans hn)

namespace Pc

/-- An entry is at the start of the loop, if in it at all… -/
theorem cursor_of_entry (h : pc.entry = true) : pc.cursor ≠ some (.pdo p) := by
  intro hc
  cases pc
  case getLoop e =>
    obtain rfl := Option.some.inj hc
    cases h
  all_goals first | cases hc | cases h

/-- …and starts no packet. -/
theorem placed_of_entry (h : pc.entry = true) : pc.Placed := by
  cases pc
  case nextPacket => cases h
  all_goals exact trivial

end Pc

namespace Driver

variable {s : Driver}

/-- **Every loop keeps its way** when a dispatch routine makes a step. -/
theorem Traversing.aside (h : s.Traversing) (ha : Aside ps s.bus b')
    (hpc : pc' = s.calls t ∨ pc'.entry = true) : (s.put t (b', pc')).Traversing := by
  constructor
  · intro t₂ p hc
    rcases put_or_entry hpc b' t₂ with heq | hentry
    · exact (h.passes t₂ p (heq ▸ hc)).aside ha
    · exact absurd hc (Pc.cursor_of_entry hentry)
  · intro t₂
    rcases put_or_entry hpc b' t₂ with heq | hentry
    · exact heq ▸ h.placed t₂
    · exact Pc.placed_of_entry hentry

end Driver

namespace Dispatch

variable {s s' : Dispatch} {a : DispatchAction} {ts : Finset Tid} {n : ℕ}

/-! ## The steps -/

/-- A step of the driver behind its dispatch routines. -/
theorem step_driver {a : Action} (h : s.step (.driver a) = some s') :
    ∃ d, s.driver.step a = some d ∧ s' = { s with driver := d } := by
  simp only [step] at h
  split at h
  · obtain ⟨d, hd, rfl⟩ := Option.map_eq_some_iff.mp h
    exact ⟨d, hd, rfl⟩
  · cases h

/-- What a step inside the driver has to keep to: it takes nothing from under a loop, and no PDO off
the list twice. -/
def Spares (s : Dispatch) : DispatchAction → Prop
  | .driver a => s.driver.SparesCursors a ∧ s.driver.UnlinksOnce a
  | _ => True

/-- A thread makes its next step, which keeps to that. -/
def Winding (s : Dispatch) : DispatchAction → Prop
  | .driver (.step t ok) => s.Spares (.driver (.step t ok))
  | .step _ _ => True
  | _ => False

/-- Every loop keeps its way. -/
theorem traversing_step (hf : s.Framed) (h : s.driver.Traversing) (hspare : s.Spares a)
    (hs : s.step a = some s') : s'.driver.Traversing := by
  cases a with
  | driver a =>
    obtain ⟨d, hd, rfl⟩ := step_driver hs
    exact h.step hf.linked hspare.1 hd
  | _ =>
    rcases step_cases hs with ⟨_, _, _, _, hc, -⟩ | ⟨t, b', f', pc', fr', m, rfl⟩ | ⟨x, g, rfl⟩ |
      ⟨e, rfl⟩
    · cases hc
    · exact h.aside m.aside m.pc_or_entry
    · exact ⟨fun t p hc => (h.passes t p hc).of_eq (Bus.flink_congr rfl fun _ => rfl) rfl rfl,
        h.placed⟩
    · exact ⟨fun t p hc => (h.passes t p hc).of_eq (Bus.flink_congr rfl fun _ => rfl) rfl rfl,
        h.placed⟩

theorem traversing (h : lts.Reach Spares s) : s.driver.Traversing :=
  h.invariant (I := fun s => s.driver.Traversing) Driver.Traversing.init
    fun _ _ _ hr hi hspare hs => traversing_step (framed hr) hi hspare hs

/-- At every moment finitely many threads are inside. -/
theorem exists_idle {C : Dispatch → DispatchAction → Prop} (h : lts.Reach C s) :
    ∃ ts : Finset Tid, ∀ t ∉ ts, s.calls t = .idle ∧ s.frames t = .outside := by
  refine h.invariant
    (I := fun s => ∃ ts : Finset Tid, ∀ t ∉ ts, s.calls t = .idle ∧ s.frames t = .outside)
    ⟨∅, fun _ _ => ⟨rfl, rfl⟩⟩ ?_
  rintro s a s' - ⟨ts, hts⟩ - hs
  rcases step_cases hs with ⟨_, t, b', pc', -, -, -, rfl⟩ | ⟨t, b', f', pc', fr', -, rfl⟩ |
    ⟨x, g, rfl⟩ | ⟨e, rfl⟩
  · refine ⟨insert t ts, fun t₂ ht₂ => ?_⟩
    obtain ⟨hne, ht₂⟩ := not_or.mp (Finset.mem_insert.not.mp ht₂)
    exact ⟨(move_calls_of_ne s hne _).trans (hts t₂ ht₂).1, (hts t₂ ht₂).2⟩
  · refine ⟨insert t ts, fun t₂ ht₂ => ?_⟩
    obtain ⟨hne, ht₂⟩ := not_or.mp (Finset.mem_insert.not.mp ht₂)
    exact ⟨(put_calls_of_ne s hne _).trans (hts t₂ ht₂).1,
      (put_frames_of_ne s hne _).trans (hts t₂ ht₂).2⟩
  · exact ⟨ts, hts⟩
  · exact ⟨ts, hts⟩

/-! ## The end -/

/-- What the routines rely on to come to their ends; no thread but these is inside one. -/
structure Ending (ts : Finset Tid) (s : Dispatch) : Prop where
  waiting : s.Waiting
  traversing : s.driver.Traversing
  idle : ∀ t ∉ ts, s.calls t = .idle ∧ s.frames t = .outside

/-- So do the driver's. -/
theorem Ending.driver (h : s.Ending ts) : s.driver.Ending ts :=
  ⟨h.waiting.framed.linked, h.waiting.held, h.traversing, fun t ht => (h.idle t ht).1⟩

/-- The steps that are left to the dispatch routines. -/
def frameSteps (ts : Finset Tid) (s : Dispatch) : ℕ := ∑ t ∈ ts, (s.frames t).rank

/-- A thread that takes a turn is inside. -/
theorem Ending.mem (h : s.Ending ts)
    (m : Turns t s.bus s.device (.step t ok) (s.calls t) (s.frames t) b' f' pc' fr') : t ∈ ts := by
  by_contra ht
  have hlt := m.rank
  rw [(h.idle t ht).2] at hlt
  cases hlt

theorem Ending.step (h : s.Ending ts) (hw : s.Winding a) (hs : s.step a = some s') :
    s'.Ending ts := by
  have hspare : s.Spares a := by
    cases a with
    | driver a =>
      cases a with
      | step t ok => exact hw
      | _ => cases hw
    | _ => trivial
  refine ⟨h.waiting.step hs, traversing_step h.waiting.framed h.traversing hspare hs, ?_⟩
  cases a with
  | driver a =>
    cases a with
    | step t ok =>
      obtain ⟨d, hd, rfl⟩ := step_driver hs
      exact fun t₂ ht₂ => ⟨(h.driver.step ⟨⟨t, ok, rfl⟩, hw.1⟩ hd).idle t₂ ht₂, (h.idle t₂ ht₂).2⟩
    | _ => cases hw
  | step t ok =>
    obtain ⟨⟨b', f', pc', fr'⟩, hr, rfl⟩ := Option.map_eq_some_iff.mp hs
    have ht := h.mem (Frame.step_turns hr)
    intro t₂ ht₂
    have hne : t₂ ≠ t := by
      rintro rfl
      exact ht₂ ht
    rw [put_calls_of_ne s hne, put_frames_of_ne s hne]
    exact h.idle t₂ ht₂
  | send t j => cases hw

/-- **Every step leaves less to do**, to the dispatch routines, or inside the driver. -/
theorem Ending.lowers (h : s.Ending ts) (hw : s.Winding a) (hs : s.step a = some s') :
    s'.frameSteps ts < s.frameSteps ts ∨ (s'.frameSteps ts ≤ s.frameSteps ts ∧
      Driver.todo ts s'.driver < Driver.todo ts s.driver) := by
  cases a with
  | driver a =>
    cases a with
    | step t ok =>
      obtain ⟨d, hd, rfl⟩ := step_driver hs
      exact .inr ⟨Nat.le_refl _, h.driver.lowers ⟨⟨t, ok, rfl⟩, hw.1⟩ hd⟩
    | _ => cases hw
  | step t ok =>
    obtain ⟨⟨b', f', pc', fr'⟩, hr, rfl⟩ := Option.map_eq_some_iff.mp hs
    have m := Frame.step_turns (t := t) hr
    have hlt := m.rank
    have hsum := sum_update (fun t => (s.frames t).rank)
      (fun t₂ => ((s.put t (b', f', pc', fr')).frames t₂).rank) (h.mem m)
      fun t₂ hne => congrArg Frame.rank (put_frames_of_ne s hne _)
    simp only [put_frames_self] at hsum
    refine .inl ?_
    unfold frameSteps
    omega
  | send t j => cases hw

/-- A run of such steps comes to an end. -/
theorem Ending.ends (h : s.Ending ts) : lts.Ends Winding s :=
  Lts.ends_of_phases (frameSteps ts) (fun (_ : Unit) _ => True) (fun _ s => Driver.todo ts s.driver)
    (fun _ _ => ⟨(), trivial⟩) (fun _ _ _ h hw hs => h.step hw hs)
    (fun _ _ _ _ h _ hw hs => (h.lowers hw hs).imp_right fun hle => ⟨hle.1, trivial, hle.2⟩) h

/-! ## What stays inside -/

/-- The thread is about to take a PDO off the list for a second time. -/
def Stale (s : Dispatch) (t : Tid) : Prop :=
  ∃ p, s.calls t = .pdoUnlink p ∧ p ∉ s.bus.fdo.listOfPDOs ∧ (s.bus.pdos p).flink ≠ .pdo p

/-- A step that takes no PDO off the list does so only once. -/
theorem unlinksOnce_of_ne (h : ∀ p, s.calls t ≠ .pdoUnlink p) :
    s.driver.UnlinksOnce (.step t ok) := fun p hpc => absurd hpc (h p)

/-- **Where a loop stands, some step winds down**: the loop's own, or one of the section that the
loop waits for. -/
theorem Waiting.exists_winding (h : s.Waiting) (hc : (s.calls t).cursor = some e) :
    ∃ a s', s.Winding a ∧ s.step a = some s' := by
  have hsteps : ∀ {t'}, s.driver.CanGo t' → (∀ p, s.calls t' ≠ .pdoUnlink p) →
      s.driver.SparesCursors (.step t' true) → ∃ a s', s.Winding a ∧ s.step a = some s' := by
    intro t' hgo hne hspare
    obtain ⟨d, hd⟩ := hgo true
    exact ⟨.driver (.step t' true), { s with driver := d }, ⟨hspare, unlinksOnce_of_ne hne⟩,
      by simp [Dispatch.step, admits, hd]⟩
  have hown := @hsteps t
  have hne : ∀ p, s.calls t ≠ .pdoUnlink p := fun p hpc => by rw [hpc] at hc; cases hc
  have hspare := Driver.sparesCursors_of_cursor (a := .step t true) rfl hc
  rcases Pc.awaits_of_cursor hc with ⟨hin, hw | ⟨p, hw⟩⟩
  · exact hown (Driver.canGo_of_awaits hin hw) hne hspare
  · rcases h.held.pdoLock_or hin hw with hgo | ⟨t', hwait, hgo⟩
    · exact hown hgo hne hspare
    · rcases hwait with ⟨hm, -⟩ | ⟨q, -, hl⟩
      · rw [hw] at hm
        cases hm
      · have hlocked := h.held.pdoLock q t' hl
        exact hsteps hgo (fun p hpc => by
            rw [show s.driver.calls t' = .pdoUnlink p from hpc] at hlocked
            cases hlocked)
          (Driver.sparesCursors_of_locked hlocked)

/-- Where no step winds down, a thread can go on only by taking a PDO off the list again. -/
theorem Waiting.stale (h : s.Waiting) (hrest : lts.AtRest Winding s) (hgo : s.CanGo t) :
    s.Stale t := by
  have hnone : ∀ a s', s.Winding a → s.step a = some s' → False := fun a s' hw hs => by
    cases (hrest a hw).symm.trans hs
  obtain ⟨a, s', rfl | rfl, hs⟩ := hgo true
  · by_contra hstale
    have hu : s.driver.UnlinksOnce (.step t true) := fun p hpc => by
      by_contra hp
      exact hstale ⟨p, hpc, not_or.mp hp⟩
    by_cases hspare : s.driver.SparesCursors (.step t true)
    · exact hnone (.driver (.step t true)) s' ⟨hspare, hu⟩ hs
    · obtain ⟨t₁, p, q, hc, -, -⟩ : ∃ t₁ p q, (s.calls t₁).cursor = some (.pdo p) ∧
          s.bus.Ahead p q ∧ s.driver.removes (.step t true) q := by
        simpa only [Driver.SparesCursors, not_forall, exists_prop, not_not] using hspare
      obtain ⟨a, s', hw, hs⟩ := h.exists_winding hc
      exact hnone a s' hw hs
  · exact (hnone (.step t true) s' trivial hs).elim

/-- The thread waits for one that was lost, or that is about to take a PDO off the list again. -/
def Behind (s : Dispatch) (t : Tid) : Prop :=
  ∃ t', Relation.ReflTransGen s.WaitsFor t t' ∧ (s.Lost t' ∨ s.Stale t')

/-- The step takes no PDO off the list, and is one of the thread `.sys 0`. -/
def onlyFirst (s : Dispatch) : DispatchAction → Bool
  | .driver (.step t _) => t = .sys 0 && (s.calls t).unlinks.isNone
  | a => a.onlyBy [.sys 0]

theorem onlyBy_of_onlyFirst (h : s.onlyFirst a = true) : a.onlyBy [.sys 0] = true := by
  unfold onlyFirst at h
  split at h
  · simpa [DispatchAction.onlyBy, Action.onlyBy, Action.thread] using (Bool.and_eq_true_iff.mp h).1
  · exact h

/-- A thread that acts alone spares its own loop. -/
theorem spares_of_onlyFirst (h : lts.Reach (fun s a => s.onlyFirst a = true) s)
    (ha : s.onlyFirst a = true) : s.Spares a := by
  cases a with
  | driver a =>
    have hby := onlyBy_of_onlyFirst ha
    refine ⟨fun t p q hcur _ hrem => ?_, ?_⟩
    · obtain rfl : t = .sys 0 := by
        by_contra hne
        have hidle := (idle_of_onlyBy h (fun _ _ => onlyBy_of_onlyFirst) t (by simpa using hne)).1
        rw [show s.driver.calls t = .idle from hidle] at hcur
        cases hcur
      obtain ⟨t', ht', hrem⟩ := hrem
      obtain rfl : t' = .sys 0 := by
        simpa [DispatchAction.onlyBy, Action.onlyBy, ht'] using hby
      exact hrem.elim (Bus.not_orphans_of_cursor hcur) (Pc.deletes_of_cursor hcur)
    · cases a with
      | step t ok =>
        intro p hpc
        have hnone := (Bool.and_eq_true_iff.mp ha).2
        rw [show s.calls t = .pdoUnlink p from hpc] at hnone
        cases hnone
      | _ => trivial
  | _ => trivial

end Dispatch

end VirtualDisk
