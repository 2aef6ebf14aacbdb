import Mathlib.Data.List.Find
import Mathlib.Data.List.Induction
import VirtualDisk.Driver.Bus
import VirtualDisk.Machinery.Ring

/-!
# Driver/CancelSafe — the cancel-safe queues, link by link

`BUS_IO_CSQ` and its callbacks as they work on the links in the IRPs, `IoCsqRemoveNextIrp` as it is
documented, with the queue's lock held around each call, and the loop that drains a queue.  An IRP
whose cancel routine is running has none registered any more, but stays linked until that routine
gets the lock: it is peeked and passed over, and the search goes on from it.

The bus has lists in place of the links, and the first IRP that can be taken in place of the search;
the last section says that this is what the links and the search come to.
-/

namespace VirtualDisk

open Machinery

/-! ## The queue -/

/-- A `LIST_ENTRY` of a queue: that of its head, or of an IRP. -/
inductive QueueEntry (ι : Type)
  | listHead
  | listEntry (irp : ι)
  deriving DecidableEq

/-- What the queue routines use of an IRP.  `cancelRoutine` says that one is registered. -/
structure QueuedIrp where
  fileObject : Option FileObject := none
  cancelRoutine : Bool := true
  status : NTSTATUS := 0
  information : ULONG := 0
  deriving DecidableEq

/-- **`BUS_IO_CSQ`**, with the links in the IRPs.  `completed` is the order of completion. -/
structure BusIoCsq (ι : Type) where
  links : ListLinks (QueueEntry ι)
  irps : ι → QueuedIrp
  completed : List ι := []

namespace BusIoCsq

variable {ι : Type}

/-- `PeekContext` lets an IRP through when it is NULL, or the IRP's file object. -/
def admits (q : BusIoCsq ι) (peekContext : Option FileObject) (irp : ι) : Bool :=
  peekContext.all fun f => (q.irps irp).fileObject = some f

/-- The loop of `BusPeekNextIrp`, at `nextEntry`: the IRP found, unless the fuel runs out. -/
def peekLoop (q : BusIoCsq ι) (peekContext : Option FileObject) :
    ℕ → QueueEntry ι → Option (Option ι)
  | _, .listHead => some none
  | 0, .listEntry _ => none
  | fuel + 1, .listEntry irp =>
    if q.admits peekContext irp then some (some irp)
    else q.peekLoop peekContext fuel (q.links.flink (.listEntry irp))

/-- Where `BusPeekNextIrp` starts: the head, or the entry of an IRP. -/
def entry : Option ι → QueueEntry ι
  | none => .listHead
  | some irp => .listEntry irp

/-- `BusPeekNextIrp`. -/
def busPeekNextIrp (q : BusIoCsq ι) (fuel : ℕ) (irp : Option ι) (peekContext : Option FileObject) :
    Option (Option ι) :=
  q.peekLoop peekContext fuel (q.links.flink (entry irp))

/-! ## What a queue holds -/

/-- **The queue holds these IRPs**, in this order. -/
structure Holds (q : BusIoCsq ι) (l : List ι) : Prop where
  ring : q.links.Ring .listHead (l.map .listEntry)

/-- The IRPs a drain takes: those the context lets through whose cancel routine is not running. -/
def available (q : BusIoCsq ι) (peekContext : Option FileObject) (irp : ι) : Bool :=
  q.admits peekContext irp && (q.irps irp).cancelRoutine

variable {q q' : BusIoCsq ι} {l : List ι} {i : ι} {x : QueueEntry ι} {fuel n : ℕ}
  {peekContext : Option FileObject}

theorem listEntry_injective : Function.Injective (QueueEntry.listEntry : ι → QueueEntry ι) :=
  fun _ _ h => QueueEntry.listEntry.inj h

theorem Holds.nodup (h : q.Holds l) : l.Nodup := List.Nodup.of_map _ h.ring.nodup.of_cons

/-- **The peek finds the first IRP that the context lets through**, on the way to the head. -/
theorem peekLoop_eq (h : Path q.links.flink .listHead x (l.map .listEntry))
    (hfuel : l.length ≤ fuel) :
    q.peekLoop peekContext fuel (q.links.flink x) = some (l.find? (q.admits peekContext)) := by
  induction l generalizing x fuel with
  | nil =>
    cases h with
    | stop h => rw [h]; cases fuel <;> rfl
  | cons i l ih =>
    obtain ⟨fuel, rfl⟩ := Nat.exists_eq_succ_of_ne_zero (Nat.ne_of_gt (Nat.zero_lt_of_lt hfuel))
    obtain ⟨hi, hp⟩ := h.uncons
    rw [hi, peekLoop, List.find?_cons]
    cases hadm : q.admits peekContext i with
    | true => rfl
    | false => exact ih hp (Nat.le_of_succ_le_succ hfuel)

/-- A search for a first element, taken up again behind one that is not wanted. -/
theorem find?_and {p c : ι → Bool} (h : l.find? p = some i) : ∃ l₁ l₂, l = l₁ ++ i :: l₂ ∧
    l.find? (fun j => p j && c j) = if c i then some i else l₂.find? fun j => p j && c j := by
  obtain ⟨hi, l₁, l₂, rfl, hne⟩ := List.find?_eq_some_iff_append.mp h
  refine ⟨l₁, l₂, rfl, ?_⟩
  have hnone : l₁.find? (fun j => p j && c j) = none := by
    rw [List.find?_eq_none]
    intro j hj hand
    have hnot := hne j hj
    rw [Bool.not_eq_true', (Bool.and_eq_true_iff.mp hand).1] at hnot
    cases hnot
  rw [List.find?_append, hnone, Option.none_or, List.find?_cons, hi, Bool.true_and]
  cases c i <;> rfl

/-- The first element that is wanted, and what is left to sort. -/
theorem filter_of_find? [DecidableEq ι] {p : ι → Bool} (h : l.find? p = some i) :
    l.filter p = i :: (l.erase i).filter p ∧
      (l.filter fun j => !p j) = (l.erase i).filter fun j => !p j := by
  induction l with
  | nil => cases h
  | cons j l ih =>
    rw [List.find?_cons] at h
    cases hj : p j with
    | true =>
      rw [hj] at h
      obtain rfl := Option.some.inj h
      simp [hj]
    | false =>
      rw [hj] at h
      have hne : j ≠ i := by
        rintro rfl
        rw [List.find?_some h] at hj
        cases hj
      obtain ⟨hf, hf'⟩ := ih h
      rw [List.erase_cons_tail (by simpa using hne)]
      simp [hj, hf, hf']

/-! ## Insertion and removal -/

variable [DecidableEq ι]

/-- `BusInsertIrp`. -/
def busInsertIrp (q : BusIoCsq ι) (irp : ι) : BusIoCsq ι :=
  { q with links := q.links.insertTail .listHead (.listEntry irp) }

/-- `BusRemoveIrp`. -/
def busRemoveIrp (q : BusIoCsq ι) (irp : ι) : BusIoCsq ι :=
  { q with links := q.links.removeEntry (.listEntry irp) }

/-- **An IRP inserted comes last.** -/
theorem Holds.busInsertIrp (h : q.Holds l) (hi : i ∉ l) : (q.busInsertIrp i).Holds (l ++ [i]) := by
  have hmem : QueueEntry.listEntry i ∉ .listHead :: l.map .listEntry := by simpa using hi
  have hring := h.ring.insertTail hmem
  rw [show [QueueEntry.listEntry i] = [i].map .listEntry from rfl, ← List.map_append] at hring
  exact ⟨hring⟩

/-- **An IRP removed leaves the others in their order.** -/
theorem Holds.busRemoveIrp (h : q.Holds l) (hi : i ∈ l) : (q.busRemoveIrp i).Holds (l.erase i) := by
  have hring := h.ring.removeEntry (List.mem_map_of_mem hi)
  rw [← List.map_erase listEntry_injective] at hring
  exact ⟨hring⟩

/-- **A queue may hold any IRPs**: those inserted into an empty one. -/
theorem exists_holds (irps : ι → QueuedIrp) (hl : l.Nodup) :
    ∃ q : BusIoCsq ι, q.irps = irps ∧ q.completed = [] ∧ q.Holds l := by
  induction l using List.reverseRecOn with
  | nil => exact ⟨⟨⟨id, id⟩, irps, []⟩, rfl, rfl, ⟨ListLinks.ring_nil rfl rfl⟩⟩
  | append_singleton l i ih =>
    obtain ⟨hl, -, hdisj⟩ := List.nodup_append.mp hl
    obtain ⟨q, hirps, hc, hq⟩ := ih hl
    have hi : i ∉ l := fun hi => hdisj i hi i (List.mem_singleton_self i) rfl
    exact ⟨q.busInsertIrp i, hirps, hc, hq.busInsertIrp hi⟩

/-! ## Taking the next IRP -/

/-- The fields of an IRP are written. -/
def setIrp (q : BusIoCsq ι) (irp : ι) (f : QueuedIrp → QueuedIrp) : BusIoCsq ι :=
  { q with irps := Function.update q.irps irp (f (q.irps irp)) }

/-- `IoSetCancelRoutine (Irp, NULL)`, and `BusRemoveIrp`. -/
def take (q : BusIoCsq ι) (irp : ι) : BusIoCsq ι :=
  (q.setIrp irp fun x => { x with cancelRoutine := false }).busRemoveIrp irp

theorem take_irps_of_ne {j : ι} (hj : j ≠ i) : (q.take i).irps j = q.irps j :=
  Function.update_of_ne hj ..

theorem Holds.take (h : q.Holds l) (hi : i ∈ l) : (q.take i).Holds (l.erase i) :=
  ⟨(h.busRemoveIrp hi).ring⟩

/-- What is still held is not what was taken. -/
theorem Holds.ne_of_mem_erase {j : ι} (h : q.Holds l) (hj : j ∈ l.erase i) : j ≠ i :=
  fun heq => h.nodup.not_mem_erase (heq ▸ hj)

/-- The loop of `IoCsqRemoveNextIrp`: it peeks from `irp` on, and goes on from what it found when
that had no cancel routine any more. -/
def removeNextLoop (peekContext : Option FileObject) (peekFuel : ℕ) :
    ℕ → BusIoCsq ι → Option ι → Option (Option ι × BusIoCsq ι)
  | 0, _, _ => none
  | fuel + 1, q, irp =>
    match q.busPeekNextIrp peekFuel irp peekContext with
    | none => none
    | some none => some (none, q)
    | some (some next) =>
      if (q.irps next).cancelRoutine then some (some next, q.take next)
      else removeNextLoop peekContext peekFuel fuel q (some next)

/-- `IoCsqRemoveNextIrp`. -/
def ioCsqRemoveNextIrp (q : BusIoCsq ι) (fuel : ℕ) (peekContext : Option FileObject) :
    Option (Option ι × BusIoCsq ι) :=
  removeNextLoop peekContext fuel fuel q none

/-- **The search takes the first available IRP**: it passes over the IRPs that are being
cancelled, from wherever it stands. -/
theorem removeNextLoop_eq {irp : Option ι}
    (h : Path q.links.flink .listHead (entry irp) (l.map .listEntry)) (hn : l.length < n)
    (hfuel : l.length ≤ fuel) :
    removeNextLoop peekContext fuel n q irp =
      some (l.find? (q.available peekContext),
        (l.find? (q.available peekContext)).elim q q.take) := by
  induction n generalizing l irp with
  | zero => exact absurd hn (Nat.not_lt_zero _)
  | succ n ih =>
    have hpeek : q.busPeekNextIrp fuel irp peekContext =
        some (l.find? (q.admits peekContext)) := peekLoop_eq h hfuel
    cases hfind : l.find? (q.admits peekContext) with
    | none =>
      have hnone : l.find? (q.available peekContext) = none := by
        rw [List.find?_eq_none] at hfind ⊢
        intro i hi hav
        exact hfind i hi (Bool.and_eq_true_iff.mp hav).1
      rw [hfind] at hpeek
      simp only [removeNextLoop, hpeek, hnone, Option.elim_none]
    | some i =>
      obtain ⟨l₁, l₂, rfl, hav⟩ := find?_and (c := fun j => (q.irps j).cancelRoutine) hfind
      have hav' : (l₁ ++ i :: l₂).find? (q.available peekContext) =
        if (q.irps i).cancelRoutine then some i else l₂.find? (q.available peekContext) := hav
      rw [hfind] at hpeek
      cases hc : (q.irps i).cancelRoutine with
      | true => simp only [removeNextLoop, hpeek, hav', hc, if_true, Option.elim_some]
      | false =>
        -- the IRP is being cancelled: the search goes on behind it
        have htail : Path q.links.flink .listHead (entry (some i)) (l₂.map .listEntry) := by
          rw [List.map_append, List.map_cons] at h
          exact h.tail
        rw [List.length_append, List.length_cons] at hn hfuel
        simp only [removeNextLoop, hpeek, hav', hc, Bool.false_eq_true, if_false]
        exact ih htail (by omega) (by omega)

/-- **`IoCsqRemoveNextIrp` takes the first available IRP of the queue.** -/
theorem ioCsqRemoveNextIrp_eq (h : q.Holds l) (peekContext : Option FileObject)
    (hfuel : l.length < fuel) :
    q.ioCsqRemoveNextIrp fuel peekContext =
      some (l.find? (q.available peekContext),
        (l.find? (q.available peekContext)).elim q q.take) :=
  removeNextLoop_eq h.ring.forward hfuel (Nat.le_of_lt hfuel)

/-! ## Draining -/

/-- The body of the draining loops: `STATUS_CANCELLED`, no bytes, `IoCompleteRequest`. -/
def cancelPending (q : BusIoCsq ι) (pendingIrp : ι) : BusIoCsq ι :=
  { q.setIrp pendingIrp fun x =>
      { x with cancelRoutine := false, information := 0, status := statusCancelled } with
    completed := q.completed ++ [pendingIrp] }

/-- The draining loop. -/
def drainLoop (peekContext : Option FileObject) (callFuel : ℕ) :
    ℕ → BusIoCsq ι → Option (BusIoCsq ι)
  | 0, _ => none
  | fuel + 1, q =>
    match q.ioCsqRemoveNextIrp callFuel peekContext with
    | none => none
    | some (none, q') => some q'
    | some (some pendingIrp, q') =>
      drainLoop peekContext callFuel fuel (q'.cancelPending pendingIrp)

/-- The loop of `Bus_FDO_Cleanup` over the `RequestQueue`, for the file object of the cleanup. -/
def busFdoCleanupLoop (fuel : ℕ) (fileObject : FileObject) (q : BusIoCsq ι) :
    Option (BusIoCsq ι) :=
  drainLoop (some fileObject) fuel fuel q

/-- The loop of `Bus_DestroyPdo` over the `IrpQueue`. -/
def busDestroyPdoLoop (fuel : ℕ) (q : BusIoCsq ι) : Option (BusIoCsq ι) :=
  drainLoop none fuel fuel q

/-- **`q'` is `q` drained**: the available IRPs of `l` are completed, each once and in order, with
`STATUS_CANCELLED` and no bytes; the others are held in their order, and nothing of them has
changed. -/
structure Drained (q : BusIoCsq ι) (l : List ι) (peekContext : Option FileObject)
    (q' : BusIoCsq ι) : Prop where
  completed : q'.completed = q.completed ++ l.filter (q.available peekContext)
  once : (l.filter (q.available peekContext)).Nodup
  holds : q'.Holds (l.filter fun i => !q.available peekContext i)
  cancelled : ∀ i ∈ l, q.available peekContext i = true →
    (q'.irps i).status = statusCancelled ∧ (q'.irps i).information = 0
  others : ∀ i, (i ∈ l → q.available peekContext i = false) → q'.irps i = q.irps i

/-- One turn of the draining loop. -/
def drainOne (q : BusIoCsq ι) (i : ι) : BusIoCsq ι := (q.take i).cancelPending i

theorem drainOne_irps_self (q : BusIoCsq ι) (i : ι) : (q.drainOne i).irps i =
    { q.irps i with cancelRoutine := false, information := 0, status := statusCancelled } := by
  simp [drainOne, cancelPending, take, setIrp, BusIoCsq.busRemoveIrp]

theorem drainOne_irps_of_ne {j : ι} (hj : j ≠ i) : (q.drainOne i).irps j = q.irps j :=
  (Function.update_of_ne hj ..).trans (take_irps_of_ne hj)

theorem drainOne_available_of_ne {j : ι} (hj : j ≠ i) :
    (q.drainOne i).available peekContext j = q.available peekContext j := by
  rw [available, available, admits, admits, drainOne_irps_of_ne hj]

theorem Holds.drainOne (h : q.Holds l) (hi : i ∈ l) : (q.drainOne i).Holds (l.erase i) :=
  ⟨(h.take hi).ring⟩

omit [DecidableEq ι] in
/-- A queue with nothing available is drained. -/
theorem Drained.of_none (h : q.Holds l) (hfind : l.find? (q.available peekContext) = none) :
    q.Drained l peekContext q := by
  rw [List.find?_eq_none] at hfind
  have hnil : l.filter (q.available peekContext) = [] := List.filter_eq_nil_iff.mpr hfind
  have hall : (l.filter fun i => !q.available peekContext i) = l :=
    List.filter_eq_self.mpr fun i hi => by simpa using hfind i hi
  exact {
    completed := by rw [hnil, List.append_nil]
    once := by rw [hnil]; exact List.nodup_nil
    holds := by rw [hall]; exact h
    cancelled := fun i hi hav => absurd hav (hfind i hi)
    others := fun _ _ => rfl }

/-- **What is drained after a turn is what is to be drained before it.** -/
theorem Drained.of_drainOne (h : q.Holds l) (hfind : l.find? (q.available peekContext) = some i)
    (hd : (q.drainOne i).Drained (l.erase i) peekContext q') : q.Drained l peekContext q' := by
  obtain ⟨hf, hf'⟩ := filter_of_find? hfind
  have hsame : ∀ j ∈ l.erase i,
      (q.drainOne i).available peekContext j = q.available peekContext j :=
    fun j hj => drainOne_available_of_ne (h.ne_of_mem_erase hj)
  have hfilter := List.filter_congr hsame
  have hfilter' : ((l.erase i).filter fun j => !(q.drainOne i).available peekContext j) =
      (l.erase i).filter fun j => !q.available peekContext j :=
    List.filter_congr fun j hj => congrArg (!·) (hsame j hj)
  have hiav : q.available peekContext i = true := List.find?_some hfind
  have hi : i ∉ l.erase i := h.nodup.not_mem_erase
  refine ⟨?_, h.nodup.filter _, ?_, fun j hj hav => ?_, fun j hj => ?_⟩
  · rw [hd.completed, hfilter, hf]
    show (q.completed ++ [i]) ++ _ = _
    rw [List.append_assoc, List.singleton_append]
  · have hh := hd.holds
    rwa [hfilter', ← hf'] at hh
  · by_cases hji : j = i
    · subst hji
      rw [hd.others j fun hmem => absurd hmem hi, drainOne_irps_self]
      exact ⟨rfl, rfl⟩
    · have hmem := (List.mem_erase_of_ne hji).mpr hj
      exact hd.cancelled j hmem ((hsame j hmem).trans hav)
  · have hji : j ≠ i := by
      rintro rfl
      rw [hj (List.mem_of_find?_eq_some hfind)] at hiav
      cases hiav
    rw [hd.others j fun hmem => (hsame j hmem).trans (hj (List.mem_of_mem_erase hmem)),
      drainOne_irps_of_ne hji]

/-- **The loop ends, and the queue is drained.** -/
theorem exists_drained (h : q.Holds l) (peekContext : Option FileObject) :
    ∃ q', q.Drained l peekContext q' ∧ ∀ callFuel fuel, l.length < callFuel → l.length < fuel →
      drainLoop peekContext callFuel fuel q = some q' := by
  induction hn : l.length using Nat.strongRecOn generalizing q l with
  | ind n ih =>
    cases hfind : l.find? (q.available peekContext) with
    | none =>
      refine ⟨q, .of_none h hfind, fun callFuel fuel hcall hfuel => ?_⟩
      obtain ⟨fuel, rfl⟩ := Nat.exists_eq_succ_of_ne_zero (Nat.ne_of_gt (Nat.zero_lt_of_lt hfuel))
      simp only [drainLoop, ioCsqRemoveNextIrp_eq h _ (hn ▸ hcall), hfind, Option.elim_none]
    | some i =>
      have hi := List.mem_of_find?_eq_some hfind
      have hlen : (l.erase i).length + 1 = n := hn ▸ List.length_erase_add_one hi
      obtain ⟨q', hd, hrun⟩ := ih _ (by omega) (h.drainOne hi) rfl
      refine ⟨q', .of_drainOne h hfind hd, fun callFuel fuel hcall hfuel => ?_⟩
      obtain ⟨fuel, rfl⟩ := Nat.exists_eq_succ_of_ne_zero (Nat.ne_of_gt (Nat.zero_lt_of_lt hfuel))
      simp only [drainLoop, ioCsqRemoveNextIrp_eq h _ (hn ▸ hcall), hfind, Option.elim_some]
      exact hrun callFuel fuel (by omega) (by omega)

/-- **Draining by owner**: the loop of `Bus_FDO_Cleanup` ends, and has drained the queue of the
IRPs of the file object; that of `Bus_DestroyPdo` has drained it of all of them. -/
theorem drainsQueue (h : q.Holds l) :
    (∀ fileObject, ∃ q', q.Drained l (some fileObject) q' ∧
      ∀ fuel, l.length < fuel → busFdoCleanupLoop fuel fileObject q = some q') ∧
    ∃ q', q.Drained l none q' ∧ ∀ fuel, l.length < fuel → busDestroyPdoLoop fuel q = some q' := by
  refine ⟨fun fileObject => ?_, ?_⟩
  · obtain ⟨q', hd, hrun⟩ := exists_drained h (some fileObject)
    exact ⟨q', hd, fun fuel hfuel => hrun fuel fuel hfuel hfuel⟩
  · obtain ⟨q', hd, hrun⟩ := exists_drained h none
    exact ⟨q', hd, fun fuel hfuel => hrun fuel fuel hfuel hfuel⟩

/-- Four IRPs: the first, the second and the last of one file object, the second being cancelled. -/
def mixedIrps : ℕ → QueuedIrp
  | 1 => { fileObject := some 7, cancelRoutine := false }
  | 2 => { fileObject := some 8 }
  | _ => { fileObject := some 7 }

/-- A queue of them, drained for that file object. -/
theorem drainsQueue_mixed : ∃ q q' : BusIoCsq ℕ, q.irps = mixedIrps ∧ q.Holds [0, 1, 2, 3] ∧
    busFdoCleanupLoop 5 7 q = some q' ∧ q'.completed = [0, 3] ∧ q'.Holds [1, 2] := by
  obtain ⟨q, hirps, hc, hq⟩ := exists_holds mixedIrps (l := [0, 1, 2, 3]) (by decide)
  obtain ⟨q', hd, hrun⟩ := (drainsQueue hq).1 7
  have hav : ∀ i, q.available (some 7) i =
      (((mixedIrps i).fileObject = some 7 : Bool) && (mixedIrps i).cancelRoutine) := by
    intro i
    rw [available, admits, hirps]
    rfl
  refine ⟨q, q', hirps, hq, hrun 5 (by decide), ?_, ?_⟩
  · rw [hd.completed, hc, List.filter_congr fun i _ => hav i]
    rfl
  · have hh := hd.holds
    rwa [List.filter_congr fun i _ => congrArg (!·) (hav i)] at hh

end BusIoCsq

/-! ## The queues of the bus -/

namespace Bus

variable {b : Bus} {p : PdoId} {fuel : ℕ}

/-- The queue's links hold the `RequestQueue` of the bus. -/
structure IsRequestQueue (b : Bus) (q : BusIoCsq RqId) : Prop where
  holds : q.Holds b.fdo.requestQueue
  cancelRoutine : ∀ r ∈ b.fdo.requestQueue, (q.irps r).cancelRoutine = (b.requests r).armed
  fileObject : ∀ r ∈ b.fdo.requestQueue,
    (q.irps r).fileObject = some (b.requests r).fileObject

/-- The queue's links hold the `IrpQueue` of a PDO. -/
structure IsIrpQueue (b : Bus) (p : PdoId) (q : BusIoCsq IrpId) : Prop where
  holds : q.Holds (b.pdos p).irpQueue
  cancelRoutine : ∀ i ∈ (b.pdos p).irpQueue,
    (q.irps i).cancelRoutine = (b.irps i).cancelRoutine.isSome

/-- **The bus takes the IRP that the search over the links takes**, and is left with the queue that
the search leaves. -/
theorem IsRequestQueue.removeNext {q : BusIoCsq RqId} (h : b.IsRequestQueue q)
    (file : Option FileObject) (hfuel : b.fdo.requestQueue.length < fuel) :
    ∃ q', q.ioCsqRemoveNextIrp fuel file = some (b.peekRequest file, q') ∧
      ((b.peekRequest file).elim b b.removeRequest).IsRequestQueue q' := by
  have hfind : b.fdo.requestQueue.find? (q.available file) = b.peekRequest file := by
    rw [peekRequest]
    refine List.find?_congr fun r hr => ?_
    rw [BusIoCsq.available, BusIoCsq.admits, h.cancelRoutine r hr, h.fileObject r hr,
      Bool.and_comm]
    cases file <;> simp
  have hrun := BusIoCsq.ioCsqRemoveNextIrp_eq h.holds file hfuel
  rw [hfind] at hrun
  refine ⟨_, hrun, ?_⟩
  cases hr : b.peekRequest file with
  | none => exact h
  | some r =>
    refine ⟨h.holds.take (List.mem_of_find?_eq_some hr), fun j hj => ?_, fun j hj => ?_⟩
    · have hne : j ≠ r := h.holds.ne_of_mem_erase hj
      have hold := h.cancelRoutine j (List.mem_of_mem_erase hj)
      simpa [BusIoCsq.take_irps_of_ne hne, removeRequest, hne] using hold
    · have hne : j ≠ r := h.holds.ne_of_mem_erase hj
      have hold := h.fileObject j (List.mem_of_mem_erase hj)
      simpa [BusIoCsq.take_irps_of_ne hne, removeRequest, hne] using hold

/-- …from a disk's queue as well. -/
theorem IsIrpQueue.removeNext {q : BusIoCsq IrpId} (h : b.IsIrpQueue p q)
    (hfuel : (b.pdos p).irpQueue.length < fuel) :
    ∃ q', q.ioCsqRemoveNextIrp fuel none = some (b.peekIrp p, q') ∧
      ((b.peekIrp p).elim b (b.removeIrp p)).IsIrpQueue p q' := by
  have hfind : (b.pdos p).irpQueue.find? (q.available none) = b.peekIrp p := by
    rw [peekIrp]
    refine List.find?_congr fun i hi => ?_
    rw [BusIoCsq.available, h.cancelRoutine i hi]
    rfl
  have hrun := BusIoCsq.ioCsqRemoveNextIrp_eq h.holds none hfuel
  rw [hfind] at hrun
  refine ⟨_, hrun, ?_⟩
  cases hi : b.peekIrp p with
  | none => exact h
  | some i =>
    have hqueue : ((b.removeIrp p i).pdos p).irpQueue = (b.pdos p).irpQueue.erase i := by simp
    refine ⟨hqueue ▸ h.holds.take (List.mem_of_find?_eq_some hi), fun j hj => ?_⟩
    rw [Option.elim_some, hqueue] at hj
    have hne : j ≠ i := h.holds.ne_of_mem_erase hj
    have hold := h.cancelRoutine j (List.mem_of_mem_erase hj)
    simpa [BusIoCsq.take_irps_of_ne hne, removeIrp, hne] using hold

end Bus

end VirtualDisk
