import VirtualDisk.Driver.ListEntries
import VirtualDisk.Driver.Ownership

/-!
# Driver/ListUses — replies and loops on the links

Two parts of the driver use a PDO without the FDO's mutex: `Bus_ProcessReply`, once it has found its
disk, and the loop of IOCTL_BUSENUM_GET_REQUEST.  Where no PDO is taken off the list twice, both are
as `Driver.Lifetime` and `Driver.Traversal` have them.
-/

namespace VirtualDisk

open Machinery

/-! ## Replies -/

namespace ListDriver

variable {s : ListDriver} {t : Tid}

/-- **A destroyed PDO is never used by a reply**, in every run that unmaps no buffer under a reply
and takes no PDO off the list twice. -/
theorem replies_alive (h : lts.Reach (fun s a => s.driver.UnmapsUnused a ∧ s.UnlinksOnce a) s) :
    s.driver.RepliesAlive :=
  (Driver.lifetimes ((reach_driver h).2.mono fun _ _ _ _ hc => hc.1)).repliesAlive

/-- The step is none of a destruction, nor of the FDO's removal. -/
def removesNothing (s : ListDriver) (a : Action) : Bool :=
  a.thread.all fun t => (s.calls t).destroying.isNone && match s.calls t with
    | .fdoOrphan | .fdoLoop => false
    | _ => true

theorem removesNothing_sound {a : Action} (h : s.removesNothing a = true) (ht : a.thread = some t) :
    (s.calls t).destroying = none ∧ s.calls t ≠ .fdoOrphan ∧ s.calls t ≠ .fdoLoop := by
  rw [removesNothing, ht, Option.all_some, Bool.and_eq_true, Option.isNone_iff_eq_none] at h
  exact ⟨h.1, fun hpc => by simp [hpc] at h, fun hpc => by simp [hpc] at h⟩

theorem unmapsUnused_of_removesNothing {a : Action} (h : s.removesNothing a = true) :
    s.driver.UnmapsUnused a := by
  cases a with
  | step t ok =>
    intro p k hpc t₂ _
    have hnone := (removesNothing_sound h rfl).1
    rw [show s.calls t = .destroyUnmap p k from hpc] at hnone
    cases hnone
  | _ => trivial

/-- A reply that has just found its disk. -/
theorem replies_alive_found : ∃ s, lts.Reach
      (fun s a => s.driver.UnmapsUnused a ∧ s.UnlinksOnce a) s ∧
    (s.calls (.sys 1)).replyUses = some 0 ∧ s.driver.RepliesAlive := by
  obtain ⟨s, hs, huse⟩ := lts.exists_reach
    (C := fun s a => s.driver.UnmapsUnused a ∧ s.UnlinksOnce a)
    (c := fun s a => s.removesNothing a && s.unlinksOnce a)
    (fun s a h => ⟨unmapsUnused_of_removesNothing (Bool.and_eq_true_iff.mp h).1,
      unlinksOnce_sound s a (Bool.and_eq_true_iff.mp h).2⟩)
    (startedRun ++ .call (.sys 1) (.sendReply startedReply) :: steps (.sys 1) 1)
    (fun s => (s.calls (.sys 1)).replyUses = some 0) (by decide +kernel)
  exact ⟨s, hs, huse, replies_alive hs⟩

/-- **A reply uses a destroyed PDO**: it finds the disk before the PDO is taken off the list, and
the removal waits for no one. -/
theorem exists_reply_late : ∃ s, lts.Reachable s ∧ (s.calls (.sys 1)).replyUses = some 0 ∧
    (s.bus.pdos 0).deleted = true :=
  lts.exists_reachable
    (startedRun ++ routine (.sys 0) (.pdoPnp 0 .eject) 1 ++
      routine (.sys 0) (.queryRelations none) 2 ++
      .call (.sys 1) (.sendReply startedReply) :: steps (.sys 1) 1 ++
      .call (.sys 0) (.pdoRemove 0) :: steps (.sys 0) 8)
    (fun s => (s.calls (.sys 1)).replyUses = some 0 ∧ (s.bus.pdos 0).deleted = true)
    (by decide +kernel)

/-- **A reply finds a destroyed PDO**: the FDO's REMOVE_DEVICE has destroyed the disk and the next
one, and the disk's own takes it off a second time, which puts the next one back. -/
theorem exists_reply_back : ∃ s, lts.Reachable s ∧ (s.calls (.sys 1)).replyUses = some 1 ∧
    (s.bus.pdos 1).deleted = true :=
  lts.exists_reachable
    (routine (.sys 0) (.addDisk (smallDisk 1 0)) 3 ++
      routine (.sys 0) (.addDisk (smallDisk 2 1)) 3 ++
      routine (.sys 0) (.pdoPnp 0 .eject) 1 ++ routine (.sys 0) (.queryRelations none) 2 ++
      .call (.sys 1) (.sendReply ⟨{ startedReply.val with handle := 2 }, none⟩) ::
      .call (.sys 2) (.pdoRemove 0) :: steps (.sys 2) 1 ++
      routine (.sys 0) .fdoRemove 15 ++ steps (.sys 2) 1 ++ steps (.sys 1) 1)
    (fun s => (s.calls (.sys 1)).replyUses = some 1 ∧ (s.bus.pdos 1).deleted = true)
    (by decide +kernel)

theorem not_replies_alive :
    (∃ s, lts.Reachable s ∧ (s.calls (.sys 1)).replyUses = some 0 ∧ ¬ s.driver.RepliesAlive) ∧
    ∃ s, lts.Reachable s ∧ (s.calls (.sys 1)).replyUses = some 1 ∧ ¬ s.driver.RepliesAlive := by
  constructor
  · obtain ⟨s, hs, huse, hdel⟩ := exists_reply_late
    refine ⟨s, hs, huse, fun h => ?_⟩
    have hfalse : (s.bus.pdos 0).deleted = false := (h _ _ huse).2
    rw [hdel] at hfalse
    cases hfalse
  · obtain ⟨s, hs, huse, hdel⟩ := exists_reply_back
    refine ⟨s, hs, huse, fun h => ?_⟩
    have hfalse : (s.bus.pdos 1).deleted = false := (h _ _ huse).2
    rw [hdel] at hfalse
    cases hfalse

end ListDriver

/-! ## The loop -/

/-- The entry whose link a thread's next step reads. -/
def Pc.reads : Pc → Option Entry
  | .getLoop e => some e
  | _ => none

theorem Pc.eq_of_reads {pc : Pc} {e : Entry} (h : pc.reads = some e) : pc = .getLoop e := by
  unfold reads at h
  split at h
  · rw [Option.some.inj h]
  · cases h

/-- **The PDO `q` is `p` or ahead of it** on the links, before the head. -/
def ListBus.Ahead (b : ListBus) (p q : PdoId) : Prop :=
  ∃ n, b.links.flink^[n] (.pdo p) = .pdo q ∧ ∀ m ≤ n, b.links.flink^[m] (.pdo p) ≠ .head

namespace ListDriver

variable {s s' : ListDriver} {t : Tid} {a : Action} {p : PdoId} {n : ℕ}

/-- **No PDO at which a loop stands, or to which the links lead from there, is orphaned or
deleted.** -/
def SparesCursors (s : ListDriver) (a : Action) : Prop :=
  ∀ t p q, (s.calls t).cursor = some (.pdo p) → s.bus.Ahead p q → ¬ s.driver.removes a q

/-- **The traversal is sound**: from where a loop stands the links lead to the head, through PDOs
that are not deleted, and there are no more of them than there are PDOs. -/
def TraversalSound (s : ListDriver) : Prop :=
  ∀ t e, (s.calls t).cursor = some e → ∃ l, Path s.bus.links.flink .head e l ∧
    (∀ p, .pdo p ∈ e :: l → (s.bus.pdos p).deleted = false) ∧
    e.remaining l ≤ s.bus.existing

/-- What a step has to keep to: it takes nothing from under a loop, and no PDO off the list
twice. -/
def SparesLoops (s : ListDriver) (a : Action) : Prop := s.SparesCursors a ∧ s.UnlinksOnce a

/-- **A run of the loop while nothing changes the links**, with the number of PDOs whose link it
reads. -/
inductive Loops (t : Tid) : ListDriver → ℕ → ListDriver → Prop
  | refl (s : ListDriver) : Loops t s 0 s
  | read {s s' s'' : ListDriver} {n : ℕ} {p : PdoId} {ok : Bool}
      (hpc : s.calls t = .getLoop (.pdo p)) (hs : s.step (.step t ok) = some s')
      (h : Loops t s' n s'') : Loops t s (n + 1) s''
  | other {s s' s'' : ListDriver} {a : Action} {n : ℕ} (hc : (s.calls t).cursor ≠ none)
      (ha : ∀ p ok, s.calls t = .getLoop (.pdo p) → a ≠ .step t ok) (hspare : s.SparesLoops a)
      (hs : s.step a = some s') (hf : s'.bus.links.flink = s.bus.links.flink)
      (h : Loops t s' n s'') : Loops t s n s''

/-- **The traversal ends**: left alone, a loop reads no more links than there are PDOs, fewer while
it stands at a PDO, and it leaves at the head. -/
def TraversalEnds (s : ListDriver) : Prop :=
  ∀ t e n s', (s.calls t).cursor = some e → Loops t s n s' → n ≤ s.bus.existing ∧
    (∀ p, (s'.calls t).cursor = some (.pdo p) → n < s.bus.existing) ∧
    ((s'.calls t).cursor = none → s'.calls t = .ret statusPending)

/-- Where the links form a ring, a step spares the loops by the list. -/
theorem sparesCursors_iff (hr : s.bus.Ringed) :
    s.SparesCursors a ↔ s.driver.SparesCursors a := by
  simp only [SparesCursors, ListBus.Ahead, hr.flink_eq]
  rfl

theorem traversalSound_iff (hr : s.bus.Ringed) : s.TraversalSound ↔ s.driver.TraversalSound := by
  simp only [TraversalSound, hr.flink_eq]
  rfl

/-- A run that spares the loops, on the list. -/
theorem reach_spares (h : lts.Reach SparesLoops s) :
    s.bus.Ringed ∧ Driver.lts.Reach (fun d a => d.SparesCursors a ∧ d.UnlinksOnce a) s.driver := by
  refine reach_driver (h.mono fun s a hr _ hc => ⟨?_, hc.2⟩)
  have hring := (reach_driver (C := fun _ _ => True) (hr.mono fun _ _ _ _ h => ⟨trivial, h.2⟩)).1
  exact (sparesCursors_iff hring).mp hc.1

/-- **A loop on the links is one on the list.** -/
theorem Loops.driver (h : Loops t s n s') (hr : lts.Reach SparesLoops s) :
    Driver.Loops t s.driver n s'.driver := by
  induction h with
  | refl => exact .refl _
  | @read s s₁ s₂ n p ok hpc hs h ih =>
    obtain ⟨hring, hd⟩ := reach_spares hr
    have hspare : s.driver.SparesCursors (.step t ok) :=
      Driver.sparesCursors_of_cursor (t := t) rfl (by rw [show s.driver.calls t = _ from hpc]; rfl)
    have hu : s.UnlinksOnce (.step t ok) := fun q hq => by rw [hpc] at hq; cases hq
    have hstep := (step_of_reach hring hd hu hs).1
    exact .read hpc hstep (ih (.step hr ⟨(sparesCursors_iff hring).mpr hspare, hu⟩ hs))
  | @other s s₁ s₂ a n hc ha hspare hs hf h ih =>
    obtain ⟨hring, hd⟩ := reach_spares hr
    have hr₁ := Lts.Reach.step hr hspare hs
    refine .other hc ha ((sparesCursors_iff hring).mp hspare.1)
      (step_of_reach hring hd hspare.2 hs).1 ?_ (ih hr₁)
    have hf₁ := (reach_spares hr₁).1.flink_eq
    rw [hf, hring.flink_eq] at hf₁
    exact hf₁.symm

/-- **The traversal of the list**: it is sound and ends in every run that takes nothing from under a
loop and no PDO off the list twice; a step that takes something from under a loop breaks it. -/
theorem traversal_iff (h : lts.Reach SparesLoops s) :
    s.TraversalSound ∧ s.TraversalEnds ∧ ∀ a s', s.UnlinksOnce a → s.step a = some s' →
      (s'.TraversalSound ↔ s.SparesCursors a) := by
  obtain ⟨hring, hd⟩ := reach_spares h
  have hd' := hd.mono fun _ _ _ _ hc => hc.1
  obtain ⟨hl, htr⟩ := And.intro (Driver.linked hd) (Driver.traversing hd')
  refine ⟨(traversalSound_iff hring).mpr (htr.sound hl), ?_, fun a s' hu hs => ?_⟩
  · intro t e n s' he hloop
    exact htr.ends hl t e n s'.driver he (hloop.driver h)
  · obtain ⟨hstep, hring'⟩ := step_of_reach hring hd hu hs
    rw [traversalSound_iff hring', sparesCursors_iff hring]
    exact ⟨(htr.sound hl).spares hl hstep,
      fun hspare => (htr.step hl hspare hstep).sound (hl.step hstep)⟩

theorem sparesCursors_of_removesNothing (h : s.removesNothing a = true) : s.SparesCursors a := by
  rintro _ _ q - - ⟨t, ht, hrem⟩
  obtain ⟨hnone, horphan, hloop⟩ := removesNothing_sound h ht
  change s.bus.orphans (s.calls t) q ∨ (s.calls t).deletes = some q at hrem
  rcases hrem with ho | hd
  · cases hpc : s.calls t
    case fdoOrphan => exact horphan hpc
    case fdoLoop => exact hloop hpc
    all_goals
      rw [hpc] at ho
      exact ho
  · cases hpc : s.calls t
    case destroyDelete =>
      rw [hpc] at hnone
      cases hnone
    all_goals
      rw [hpc] at hd
      cases hd

/-- A loop under way at the only disk: the links from there lead to the head. -/
theorem traversal_sound_under_way : ∃ s, lts.Reach SparesLoops s ∧
    (s.calls (.sys 0)).cursor = some (.pdo 0) ∧ s.TraversalSound ∧ s.TraversalEnds := by
  obtain ⟨s, hs, hc⟩ := lts.exists_reach (C := SparesLoops)
    (c := fun s a => s.removesNothing a && s.unlinksOnce a)
    (fun s a h => ⟨sparesCursors_of_removesNothing (Bool.and_eq_true_iff.mp h).1,
      unlinksOnce_sound s a (Bool.and_eq_true_iff.mp h).2⟩)
    (routine (.sys 0) (.addDisk (smallDisk 7 1)) 3 ++
      .call (.sys 0) (.getRequest 0 0) :: steps (.sys 0) 2)
    (fun s => (s.calls (.sys 0)).cursor = some (.pdo 0)) (by decide +kernel)
  obtain ⟨hsound, hends, -⟩ := traversal_iff hs
  exact ⟨s, hs, hc, hsound, hends⟩

/-- **A loop at a PDO whose link leads to itself never leaves it**, as long as that PDO has a
current IRP. -/
theorem Loops.of_self (hpc : (s.calls t).reads = some (.pdo p))
    (hself : s.bus.links.flink (.pdo p) = .pdo p) (hirp : (s.bus.pdos p).currentIrp ≠ none)
    (hfree : (s.bus.pdos p).pdoLock = none) (n : ℕ) : Loops t s n s := by
  have hpc := Pc.eq_of_reads hpc
  -- one turn: the link is read, and `BusStartNextPacket` finds the current IRP
  let s₁ : ListDriver := ⟨s.bus, Function.update s.calls t (.nextPacket p (.getRequest p))⟩
  have hpc₁ : s₁.calls t = .nextPacket p (.getRequest p) := Function.update_self ..
  have hread : s.step (.step t true) = some s₁ := by
    simp [step, hpc, ListBus.step, ListBus.getLoopStep, hself, s₁]
  have hback : Function.update s₁.calls t (.getLoop (.pdo p)) = s.calls := by
    rw [Function.update_idem, ← hpc, Function.update_eq_self]
  have hnext : s₁.step (.step t true) = some s := by
    have hstep : s₁.bus.step t true (s₁.calls t) = some (s.bus, .getLoop (.pdo p)) := by
      simp [ListBus.step, ListBus.searches, Pc.step, Bus.nextPacketStep, hfree, hirp,
        Pc.nextReturn, ListBus.lift, s₁]
    simp [step, hstep, hback]
  have hnothing : s₁.removesNothing (.step t true) = true := by
    simp [removesNothing, Action.thread, hpc₁, Pc.destroying]
  induction n with
  | zero => exact .refl s
  | succ n ih =>
    refine .read hpc hread (.other (a := .step t true) ?_ (fun q ok hq => ?_)
      ⟨sparesCursors_of_removesNothing hnothing, fun q hq => ?_⟩ hnext rfl ih)
    · rw [hpc₁]
      exact Option.some_ne_none _
    · rw [hpc₁] at hq
      cases hq
    · rw [hpc₁] at hq
      cases hq

/-- The bus is surprise-removed while a loop is about to read the link of its disk, which has a
current IRP. -/
theorem exists_self_link : ∃ s, lts.Reachable s ∧ (s.calls (.sys 1)).reads = some (.pdo 0) ∧
    s.bus.links.flink (.pdo 0) = .pdo 0 ∧ (s.bus.pdos 0).currentIrp = some 0 ∧
    (s.bus.pdos 0).pdoLock = none ∧ s.bus.existing = 1 :=
  lts.exists_reachable
    (startedRun ++ .call (.sys 1) (.getRequest 1 0) :: steps (.sys 1) 3 ++
      routine (.sys 0) .fdoSurpriseRemoval 2)
    (fun s => (s.calls (.sys 1)).reads = some (.pdo 0) ∧
      s.bus.links.flink (.pdo 0) = .pdo 0 ∧ (s.bus.pdos 0).currentIrp = some 0 ∧
      (s.bus.pdos 0).pdoLock = none ∧ s.bus.existing = 1)
    (by decide +kernel)

/-- The disk is removed and deleted while a loop stands at it. -/
theorem exists_deleted_cursor : ∃ s, lts.Reachable s ∧
    (s.calls (.sys 1)).cursor = some (.pdo 0) ∧ (s.bus.pdos 0).deleted = true :=
  lts.exists_reachable
    (routine (.sys 0) (.addDisk (smallDisk 7 1)) 3 ++
      .call (.sys 1) (.getRequest 0 0) :: steps (.sys 1) 2 ++
      routine (.sys 0) (.pdoPnp 0 .eject) 1 ++ routine (.sys 0) (.queryRelations none) 2 ++
      routine (.sys 0) (.pdoRemove 0) 9)
    (fun s => (s.calls (.sys 1)).cursor = some (.pdo 0) ∧ (s.bus.pdos 0).deleted = true)
    (by decide +kernel)

/-- A loop is about to read the link of the head when a disk is taken off the list a second time:
the head leads to a deleted disk. -/
theorem exists_deleted_first : ∃ s, lts.Reachable s ∧
    (s.calls (.sys 1)).cursor = some .head ∧ s.bus.links.flink .head = .pdo 1 ∧
    (s.bus.pdos 1).deleted = true :=
  lts.exists_reachable
    (routine (.sys 0) (.addDisk (smallDisk 1 0)) 3 ++
      routine (.sys 0) (.addDisk (smallDisk 2 1)) 3 ++
      routine (.sys 0) (.pdoPnp 0 .eject) 1 ++ routine (.sys 0) (.queryRelations none) 2 ++
      .call (.sys 1) (.getRequest 0 0) :: steps (.sys 1) 1 ++
      .call (.sys 2) (.pdoRemove 0) :: steps (.sys 2) 1 ++
      routine (.sys 0) .fdoRemove 15 ++ steps (.sys 2) 1)
    (fun s => (s.calls (.sys 1)).cursor = some .head ∧ s.bus.links.flink .head = .pdo 1 ∧
      (s.bus.pdos 1).deleted = true)
    (by decide +kernel)

/-- **The traversal of the list need not end**, and may read the link of a deleted PDO. -/
theorem not_traversalSound :
    (∃ s, lts.Reachable s ∧ s.bus.links.flink (.pdo 0) = .pdo 0 ∧ ¬ s.TraversalSound ∧
      ¬ s.TraversalEnds) ∧
    (∃ s, lts.Reachable s ∧ (s.bus.pdos 0).deleted = true ∧ ¬ s.TraversalSound) ∧
    ∃ s, lts.Reachable s ∧ s.bus.links.flink .head = .pdo 1 ∧ ¬ s.TraversalSound := by
  refine ⟨?_, ?_, ?_⟩
  · obtain ⟨s, hs, hread, hself, hirp, hfree, hcount⟩ := exists_self_link
    have hc : (s.calls (.sys 1)).cursor = some (.pdo 0) := by rw [Pc.eq_of_reads hread]; rfl
    refine ⟨s, hs, hself, fun h => ?_, fun h => ?_⟩
    · obtain ⟨l, hp, -⟩ := h _ _ hc
      exact hp.ne_self Entry.noConfusion hself
    · have hle := (h _ _ 2 s hc (.of_self hread hself (hirp ▸ Option.some_ne_none _) hfree 2)).1
      rw [hcount] at hle
      exact absurd hle (by decide)
  · obtain ⟨s, hs, hc, hd⟩ := exists_deleted_cursor
    refine ⟨s, hs, hd, fun h => ?_⟩
    obtain ⟨l, -, hdel, -⟩ := h _ _ hc
    rw [hdel 0 List.mem_cons_self] at hd
    cases hd
  · obtain ⟨s, hs, hc, hf, hd⟩ := exists_deleted_first
    refine ⟨s, hs, hf, fun h => ?_⟩
    obtain ⟨l, hp, hdel, -⟩ := h _ _ hc
    have hmem : Entry.pdo 1 ∈ .head :: l := by
      cases hp with
      | stop h => cases hf.symm.trans h
      | next _ _ => exact hf ▸ List.mem_cons_of_mem _ List.mem_cons_self
    rw [hdel 1 hmem] at hd
    cases hd

end ListDriver

end VirtualDisk
