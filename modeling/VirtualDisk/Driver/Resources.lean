import VirtualDisk.Driver.Ownership

/-!
# Driver/Resources — what a disk holds in the kernel

`Bus_AddDisk`, `Bus_InitializePdo` and `MapBuffer` with each of their fallible calls, and
`Bus_DestroyPdo`, as what they do to the counts of six resources.  A failure that comes after the
pool block was allocated leaves the block, or the block and the reference to the remove event; the
reference is given back by no code, so no disk ever gives back all it took.

`Accounts` runs the driver with an account for each PDO, and one for the additions that failed.
-/

namespace VirtualDisk

open Machinery

/-! ## Counts -/

/-- What a PDO can hold. -/
inductive Resource
  | device
  | hardwareIds
  | removeEvent
  | mdl
  | lockedPages
  | mapping
  deriving DecidableEq, Repr

/-- How many of each resource are held. -/
abbrev Counts := Resource → ℤ

namespace Counts

/-- Nothing is held. -/
def none : Counts := fun _ => 0

/-- One more. -/
def acquire (c : Counts) (r : Resource) : Counts := Function.update c r (c r + 1)

/-- One less. -/
def release (c : Counts) (r : Resource) : Counts := Function.update c r (c r - 1)

@[simp] theorem acquire_self (c : Counts) (r : Resource) : c.acquire r r = c r + 1 :=
  Function.update_self ..

@[simp] theorem acquire_of_ne (c : Counts) {r r' : Resource} (h : r' ≠ r) : c.acquire r r' = c r' :=
  Function.update_of_ne h ..

@[simp] theorem release_self (c : Counts) (r : Resource) : c.release r r = c r - 1 :=
  Function.update_self ..

@[simp] theorem release_of_ne (c : Counts) {r r' : Resource} (h : r' ≠ r) : c.release r r' = c r' :=
  Function.update_of_ne h ..

/-- What is given back at once leaves no trace. -/
@[simp] theorem release_acquire (c : Counts) (r : Resource) : (c.acquire r).release r = c := by
  funext r'
  by_cases h : r' = r
  · subst h
    simp
  · simp [h]

/-- Acquisitions and releases of different resources commute. -/
theorem release_acquire_comm (c : Counts) {r r' : Resource} (h : r ≠ r') :
    (c.acquire r).release r' = (c.release r').acquire r := by
  funext x
  by_cases hx : x = r
  · subst hx
    simp [h]
  · by_cases hx' : x = r'
    · subst hx'
      simp [hx]
    · simp [hx, hx']

end Counts

/-! ## The routines -/

/-- The outcomes of the fallible calls: `IoCreateDevice`, `ExAllocatePoolWithTag`,
`ObReferenceObjectByHandle`, `IoAllocateMdl`, `MmProbeAndLockPages` with the probe before it, and
`MmMapLockedPagesSpecifyCache`. -/
structure AddOutcomes where
  create : NTSTATUS := statusSuccess
  pool : Bool := true
  reference : NTSTATUS := statusSuccess
  mdl : Bool := true
  lock : Bool := true
  map : Bool := true

/-- Every call succeeds. -/
def AddOutcomes.succeeds (o : AddOutcomes) : Bool :=
  ntSuccess o.create && o.pool && ntSuccess o.reference && o.mdl && o.lock && o.map

/-- **A call fails no later than the pool allocation.** -/
def AddOutcomes.FailsEarly (o : AddOutcomes) : Prop := ntSuccess o.create = false ∨ o.pool = false

/-- `MapBuffer`. -/
def mapBuffer (o : AddOutcomes) (c : Counts) : NTSTATUS × Counts :=
  if o.mdl = false then (statusInsufficientResources, c)
  else
    let c := c.acquire .mdl
    if o.lock = false then (statusInsufficientResources, c.release .mdl)
    else
      let c := c.acquire .lockedPages
      if o.map = false then (statusInsufficientResources, (c.release .lockedPages).release .mdl)
      else (statusSuccess, c.acquire .mapping)

/-- `UnmapBuffer`. -/
def unmapBuffer (c : Counts) : Counts := ((c.release .mapping).release .lockedPages).release .mdl

/-- `Bus_InitializePdo`, up to the insertion on the list. -/
def initializePdo (o : AddOutcomes) (c : Counts) : NTSTATUS × Counts :=
  if ntSuccess o.reference = false then (o.reference, c.release .device)
  else
    let c := c.acquire .removeEvent
    match mapBuffer o c with
    | (status, c) => if ntSuccess status = false then (status, c.release .device) else (status, c)

/-- `Bus_AddDisk` after its search, up to the insertion on the list. -/
def createDevice (o : AddOutcomes) (c : Counts) : NTSTATUS × Counts :=
  if ntSuccess o.create = false then (o.create, c)
  else
    let c := c.acquire .device
    if o.pool = false then (statusInsufficientResources, c.release .device)
    else initializePdo o (c.acquire .hardwareIds)

/-- `Bus_DestroyPdo` frees the pool block, unless its pointer is NULL. -/
def freeHardwareIds (c : Counts) : Counts :=
  if c .hardwareIds = 0 then c else c.release .hardwareIds

/-- `Bus_DestroyPdo`, on what its PDO holds. -/
def destroyPdo (c : Counts) : Counts := (unmapBuffer (freeHardwareIds c)).release .device

/-- **`Bus_AddDisk`**, with the mutex free. -/
def busAddDisk (b : Bus) (c : Counts) (o : AddOutcomes) (dd : BusenumAddDisk) :
    NTSTATUS × Bus × Counts :=
  if b.unique dd.handle = false then (statusInvalidParameter, b, c)
  else
    match createDevice o c with
    | (status, c) =>
      if ntSuccess status = false then (status, b, c)
      else (status, ((b.createPdo dd).insertTailList b.pdoCount).setPdo b.pdoCount
        fun d => { d with deviceInitializing := false }, c)

variable {b b' : Bus} {c : Counts} {o : AddOutcomes} {dd : BusenumAddDisk} {p : PdoId}

/-! ## What they leave -/

/-- `MapBuffer` fails with nothing acquired. -/
theorem mapBuffer_cases (o : AddOutcomes) (c : Counts) :
    (mapBuffer o c = (statusInsufficientResources, c) ∧ (o.mdl && o.lock && o.map) = false) ∨
    (mapBuffer o c = (statusSuccess, ((c.acquire .mdl).acquire .lockedPages).acquire .mapping) ∧
      (o.mdl && o.lock && o.map) = true) := by
  unfold mapBuffer
  cases o.mdl <;> cases o.lock <;> cases o.map <;> simp

/-- A success… -/
theorem ntSuccess_statusSuccess : ntSuccess statusSuccess = true := rfl

/-- …and a failure. -/
theorem ntSuccess_statusInsufficientResources : ntSuccess statusInsufficientResources = false := rfl

/-- A creation whose calls all succeed acquires all six. -/
theorem createDevice_of_succeeds (c : Counts) (h : o.succeeds = true) :
    createDevice o c = (statusSuccess,
      (((((c.acquire .device).acquire .hardwareIds).acquire .removeEvent).acquire .mdl).acquire
        .lockedPages).acquire .mapping) := by
  simp only [AddOutcomes.succeeds, Bool.and_eq_true] at h
  obtain ⟨⟨⟨⟨⟨hc, hp⟩, hr⟩, hm⟩, hl⟩, hk⟩ := h
  simp [createDevice, initializePdo, mapBuffer, hc, hp, hr, hm, hl, hk,
    ntSuccess_statusSuccess]

/-- A creation that fails no later than the pool allocation leaves nothing. -/
theorem createDevice_of_early (c : Counts) (h : o.FailsEarly) :
    ntSuccess (createDevice o c).1 = false ∧ (createDevice o c).2 = c := by
  unfold createDevice
  by_cases hc : ntSuccess o.create = false
  · simp [hc]
  · have hp : o.pool = false := h.resolve_left hc
    simp [hc, hp, ntSuccess_statusInsufficientResources]

/-- **A creation that fails later leaves the pool block**, and the reference to the remove event if
it got that far. -/
theorem createDevice_of_late (c : Counts) (h : ¬ o.FailsEarly) (hs : o.succeeds = false) :
    ntSuccess (createDevice o c).1 = false ∧
      ((createDevice o c).2 = c.acquire .hardwareIds ∨
        (createDevice o c).2 = (c.acquire .hardwareIds).acquire .removeEvent) := by
  simp only [AddOutcomes.FailsEarly, not_or, Bool.not_eq_false] at h
  obtain ⟨hc, hp⟩ := h
  unfold createDevice
  rw [if_neg (by simp [hc]), if_neg (by simp [hp])]
  unfold initializePdo
  by_cases hr : ntSuccess o.reference = false
  · refine ⟨by rw [if_pos hr]; exact hr, .inl ?_⟩
    rw [if_pos hr, Counts.release_acquire_comm _ (by decide), Counts.release_acquire]
  · rcases mapBuffer_cases o (((c.acquire .device).acquire .hardwareIds).acquire .removeEvent) with
      ⟨hm, -⟩ | ⟨-, hm⟩
    · simp only [if_neg hr, hm]
      refine ⟨rfl, .inr ?_⟩
      rw [if_pos ntSuccess_statusInsufficientResources, Counts.release_acquire_comm _ (by decide),
        Counts.release_acquire_comm _ (by decide), Counts.release_acquire]
    · simp only [Bool.and_eq_true] at hm
      simp [AddOutcomes.succeeds, hc, hp, hr, hm] at hs

/-- **A creation gives everything back just when it fails early**, if it fails. -/
theorem createDevice_eq_iff (hs : o.succeeds = false) :
    (createDevice o c).2 = c ↔ o.FailsEarly := by
  refine ⟨fun h => ?_, fun h => (createDevice_of_early c h).2⟩
  by_contra he
  have hids : (createDevice o c).2 .hardwareIds = c .hardwareIds + 1 := by
    rcases (createDevice_of_late c he hs).2 with h' | h' <;> simp [h']
  rw [h] at hids
  omega

/-- **A life leaves the reference to the remove event**: what `Bus_DestroyPdo` gives back of what a
successful creation acquired is the other five. -/
theorem destroyPdo_createDevice (h : o.succeeds = true) :
    destroyPdo (createDevice o .none).2 = Counts.none.acquire .removeEvent := by
  rw [createDevice_of_succeeds .none h]
  funext r
  cases r <;> rfl

/-! ## A call of `Bus_AddDisk` -/

/-- **A failing call restores what it met**: the list of PDOs and every count. -/
def AddRestores (b : Bus) (c : Counts) (o : AddOutcomes) (dd : BusenumAddDisk) : Prop :=
  ntSuccess (busAddDisk b c o dd).1 = false →
    (busAddDisk b c o dd).2.1.fdo.listOfPDOs = b.fdo.listOfPDOs ∧ (busAddDisk b c o dd).2.2 = c

/-- A refused serial number. -/
theorem busAddDisk_of_taken (h : b.unique dd.handle = false) :
    busAddDisk b c o dd = (statusInvalidParameter, b, c) := if_pos h

/-- A disk added. -/
theorem busAddDisk_of_succeeds (h : b.unique dd.handle = true) (ho : o.succeeds = true) :
    busAddDisk b c o dd = (statusSuccess, ((b.createPdo dd).insertTailList b.pdoCount).setPdo
      b.pdoCount fun d => { d with deviceInitializing := false }, (createDevice o c).2) := by
  rw [busAddDisk, if_neg (by simp [h]), createDevice_of_succeeds c ho]
  rfl

/-- **A disk not created**: the bus is left alone, and what the creation leaves stays. -/
theorem busAddDisk_of_fails (h : b.unique dd.handle = true) (ho : o.succeeds = false) :
    ntSuccess (busAddDisk b c o dd).1 = false ∧ (busAddDisk b c o dd).2 =
      (b, (createDevice o c).2) := by
  have hf : ntSuccess (createDevice o c).1 = false := by
    by_cases he : o.FailsEarly
    · exact (createDevice_of_early c he).1
    · exact (createDevice_of_late c he ho).1
  rw [busAddDisk, if_neg (by simp [h])]
  simp [hf]

/-- **A call restores what it met just when it fails early, if it fails.** -/
theorem addRestores_iff (b : Bus) (c : Counts) (o : AddOutcomes) (dd : BusenumAddDisk) :
    AddRestores b c o dd ↔ b.unique dd.handle = false ∨ o.FailsEarly ∨ o.succeeds = true := by
  cases hu : b.unique dd.handle with
  | false => simp [AddRestores, busAddDisk_of_taken hu]
  | true =>
    cases ho : o.succeeds with
    | true => simp [AddRestores, busAddDisk_of_succeeds hu ho, ntSuccess_statusSuccess]
    | false =>
      obtain ⟨hf, hr⟩ := busAddDisk_of_fails (c := c) hu ho
      simp [AddRestores, hf, hr, createDevice_eq_iff ho]

/-! ## Accounts -/

/-- The driver, what each PDO holds, and what the additions that failed have left behind. -/
structure Accounts where
  driver : Driver := {}
  held : PdoId → Counts := fun _ => .none
  lost : Counts := .none
  failures : List AddOutcomes := []

namespace Accounts

/-- What a thread's next step enters into the accounts. -/
def book (s : Accounts) (o : AddOutcomes) : Pc → Accounts
  | .addCreate _ =>
    if o.succeeds then
      let p := s.driver.bus.pdoCount
      { s with held := Function.update s.held p (createDevice o (s.held p)).2 }
    else { s with lost := (createDevice o s.lost).2, failures := o :: s.failures }
  | .destroyUnmap p _ =>
    { s with held := Function.update s.held p (unmapBuffer (freeHardwareIds (s.held p))) }
  | .destroyDelete p _ => { s with held := Function.update s.held p ((s.held p).release .device) }
  | _ => s

/-- The step of `Bus_AddDisk` that creates the PDO goes by the outcomes of its calls. -/
def agrees (s : Accounts) (o : AddOutcomes) : Action → Bool
  | .step t ok => match s.driver.calls t with
    | .addCreate _ => ok == o.succeeds
    | _ => true
  | _ => true

/-- What an action enters into the accounts. -/
def enter (s : Accounts) (o : AddOutcomes) : Action → Accounts
  | .step t _ => s.book o (s.driver.calls t)
  | _ => s

/-- One step. -/
def step (s : Accounts) (l : Action × AddOutcomes) : Option Accounts :=
  if s.agrees l.2 l.1 then
    (s.driver.step l.1).map fun d => { s.enter l.2 l.1 with driver := d }
  else none

/-- **The driver with its accounts**, started with an empty bus. -/
def lts : Lts Accounts (Action × AddOutcomes) := ⟨{}, step⟩

/-- **A balanced run**: the failed additions left nothing, and what a destroyed PDO held is given
back. -/
def Balanced (s : Accounts) : Prop :=
  s.lost = .none ∧
    ∀ p < s.driver.bus.pdoCount, (s.driver.bus.pdos p).deleted = true → s.held p = .none

/-- What the failures left is the sum of what each left; a PDO holds its reference to the remove
event from its creation on. -/
structure Booked (s : Accounts) : Prop where
  lost : s.lost = s.failures.foldr (fun o c => (createDevice o c).2) .none
  failed : ∀ o ∈ s.failures, o.succeeds = false
  held : ∀ p, s.held p .removeEvent = if p < s.driver.bus.pdoCount then 1 else 0

variable {s s' : Accounts} {l : Action × AddOutcomes}

/-- A step is one of the driver's, entered into the accounts. -/
theorem step_eq (h : s.step l = some s') :
    s.agrees l.2 l.1 = true ∧
      ∃ d, s.driver.step l.1 = some d ∧ s' = { s.enter l.2 l.1 with driver := d } := by
  unfold step at h
  split at h
  · next ha =>
    obtain ⟨d, hd, rfl⟩ := Option.map_eq_some_iff.mp h
    exact ⟨ha, d, hd, rfl⟩
  · cases h

/-- The driver's own PDOs change in number with a creation only. -/
theorem pdoCount_eq {d d' : Driver} {a : Action} (h : d.step a = some d')
    (hc : ∀ t dd, d.calls t = .addCreate dd → a ≠ .step t true) :
    d'.bus.pdoCount = d.bus.pdoCount := by
  rcases Driver.step_moves h with ⟨t, b', pc', m, rfl⟩ | ⟨_, _, -, rfl⟩ | ⟨_, -, -, rfl⟩
  · by_contra hne
    have hlt : d.bus.pdoCount < b'.pdoCount := Nat.lt_of_le_of_ne m.pdoCount_le (Ne.symm hne)
    obtain ⟨-, dd, hpc, ha, -⟩ := m.creates hlt (Nat.le_refl _)
    exact hc t dd hpc ha
  · rfl
  · rfl

/-- What a thread that is not in `Bus_AddDisk` enters concerns neither the failures nor the
reference to the remove event. -/
theorem book_of_ne (s : Accounts) (o : AddOutcomes) {pc : Pc} (h : ∀ dd, pc ≠ .addCreate dd) :
    (s.book o pc).lost = s.lost ∧ (s.book o pc).failures = s.failures ∧
      ∀ p, (s.book o pc).held p .removeEvent = s.held p .removeEvent := by
  cases pc
  case addCreate dd => exact absurd rfl (h dd)
  case destroyUnmap q k =>
    refine ⟨rfl, rfl, fun p => ?_⟩
    by_cases hp : p = q
    · subst hp
      simp only [book, Function.update_self, unmapBuffer, freeHardwareIds]
      split <;> simp
    · simp [book, hp]
  case destroyDelete q k =>
    refine ⟨rfl, rfl, fun p => ?_⟩
    by_cases hp : p = q
    · subst hp
      simp [book]
    · simp [book, hp]
  all_goals exact ⟨rfl, rfl, fun _ => rfl⟩

/-- **What a step enters**: a creation, a failed one, or nothing that concerns the failures and the
references to remove events. -/
theorem step_cases (h : s.step l = some s') :
    (l.2.succeeds = true ∧ s'.lost = s.lost ∧ s'.failures = s.failures ∧
      s'.driver.bus.pdoCount = s.driver.bus.pdoCount + 1 ∧
      s'.held = Function.update s.held s.driver.bus.pdoCount
        (createDevice l.2 (s.held s.driver.bus.pdoCount)).2) ∨
    (l.2.succeeds = false ∧ s'.lost = (createDevice l.2 s.lost).2 ∧
      s'.failures = l.2 :: s.failures ∧
      s'.driver.bus.pdoCount = s.driver.bus.pdoCount ∧ s'.held = s.held) ∨
    (s'.lost = s.lost ∧ s'.failures = s.failures ∧
      s'.driver.bus.pdoCount = s.driver.bus.pdoCount ∧
      ∀ p, s'.held p .removeEvent = s.held p .removeEvent) := by
  obtain ⟨ha, d, hd, rfl⟩ := step_eq h
  obtain ⟨a, o⟩ := l
  by_cases hstep : ∃ t ok dd, a = .step t ok ∧ s.driver.calls t = .addCreate dd
  · obtain ⟨t, ok, dd, rfl, hpc⟩ := hstep
    obtain rfl : ok = o.succeeds := by simpa [agrees, hpc] using ha
    have hbus : s.driver.put t (s.driver.bus.addCreateStep o.succeeds dd) = d := by
      simpa [Driver.step, hpc, Pc.step] using hd
    cases ho : o.succeeds with
    | true =>
      refine .inl ⟨rfl, ?_, ?_, ?_, ?_⟩
      · simp [enter, hpc, book, ho]
      · simp [enter, hpc, book, ho]
      · simp [← hbus, Bus.addCreateStep, ho]
      · simp [enter, hpc, book, ho]
    | false =>
      refine .inr (.inl ⟨rfl, ?_, ?_, ?_, ?_⟩)
      · simp [enter, hpc, book, ho]
      · simp [enter, hpc, book, ho]
      · simp [← hbus, Bus.addCreateStep, ho]
      · simp [enter, hpc, book, ho]
  · have hn : ∀ t dd, s.driver.calls t = .addCreate dd → a ≠ .step t true :=
      fun t dd hpc ha => hstep ⟨t, true, dd, ha, hpc⟩
    refine .inr (.inr ?_)
    have hcount := pdoCount_eq hd hn
    cases a with
    | step t ok =>
      obtain ⟨hl, hf, hh⟩ := book_of_ne s o fun dd hpc => hstep ⟨t, ok, dd, rfl, hpc⟩
      exact ⟨hl, hf, hcount, hh⟩
    | _ => exact ⟨rfl, rfl, hcount, fun _ => rfl⟩

/-- **The accounts are kept by every step.** -/
theorem Booked.step (hb : s.Booked) (h : s.step l = some s') : s'.Booked := by
  rcases step_cases h with ⟨ho, hl, hf, hc, hh⟩ | ⟨ho, hl, hf, hc, hh⟩ | ⟨hl, hf, hc, hh⟩
  · refine ⟨by rw [hl, hf]; exact hb.lost, by rw [hf]; exact hb.failed, fun p => ?_⟩
    rw [hc, hh]
    by_cases hp : p = s.driver.bus.pdoCount
    · subst hp
      have hnew := hb.held s.driver.bus.pdoCount
      rw [if_neg (Nat.lt_irrefl _)] at hnew
      rw [Function.update_self, createDevice_of_succeeds _ ho, if_pos (Nat.lt_succ_self _)]
      simp [hnew]
    · rw [Function.update_of_ne hp, hb.held p]
      simp only [Nat.lt_succ_iff_lt_or_eq, hp, or_false]
  · refine ⟨?_, ?_, fun p => ?_⟩
    · rw [hl, hf, List.foldr_cons, hb.lost]
    · rw [hf]
      exact List.forall_mem_cons.mpr ⟨ho, hb.failed⟩
    · rw [hc, hh]
      exact hb.held p
  · refine ⟨by rw [hl, hf]; exact hb.lost, by rw [hf]; exact hb.failed, fun p => ?_⟩
    rw [hc, hh]
    exact hb.held p

/-- Empty accounts. -/
theorem Booked.init : lts.init.Booked :=
  ⟨rfl, fun _ ho => absurd ho List.not_mem_nil, fun p => (if_neg (Nat.not_lt_zero p)).symm⟩

/-- **The accounts hold in every state reached.** -/
theorem booked {C : Accounts → Action × AddOutcomes → Prop} (h : lts.Reach C s) : s.Booked :=
  h.invariant Booked.init fun _ _ _ _ hi _ hs => hi.step hs

/-! ## What the failures left -/

/-- A failed creation leaves no fewer pool blocks, and one more if it is late. -/
theorem hardwareIds_createDevice {o : AddOutcomes} (c : Counts) (ho : o.succeeds = false) :
    (createDevice o c).2 .hardwareIds = c .hardwareIds ∧ o.FailsEarly ∨
      (createDevice o c).2 .hardwareIds = c .hardwareIds + 1 := by
  by_cases he : o.FailsEarly
  · exact .inl ⟨by rw [(createDevice_of_early c he).2], he⟩
  · right
    rcases (createDevice_of_late c he ho).2 with h | h <;> simp [h]

/-- The pool blocks that failures leave add up. -/
theorem hardwareIds_foldr (os : List AddOutcomes) (ho : ∀ o ∈ os, o.succeeds = false) :
    0 ≤ os.foldr (fun o c => (createDevice o c).2) Counts.none .hardwareIds ∧
      (os.foldr (fun o c => (createDevice o c).2) Counts.none .hardwareIds = 0 →
        ∀ o ∈ os, o.FailsEarly) := by
  induction os with
  | nil => exact ⟨Int.le_refl _, fun _ _ h => absurd h List.not_mem_nil⟩
  | cons o os ih =>
    obtain ⟨h0, hrest⟩ := List.forall_mem_cons.mp ho
    obtain ⟨hle, hz⟩ := ih hrest
    rw [List.foldr_cons, List.forall_mem_cons]
    rcases hardwareIds_createDevice (os.foldr (fun o c => (createDevice o c).2) Counts.none) h0 with
      ⟨h, he⟩ | h
    · exact ⟨h ▸ hle, fun hzero => ⟨he, hz (h ▸ hzero)⟩⟩
    · exact ⟨by omega, fun hzero => by omega⟩

/-- Early failures leave nothing. -/
theorem foldr_of_early {os : List AddOutcomes} (h : ∀ o ∈ os, o.FailsEarly) :
    os.foldr (fun o c => (createDevice o c).2) Counts.none = .none := by
  induction os with
  | nil => rfl
  | cons o os ih =>
    obtain ⟨ho, hos⟩ := List.forall_mem_cons.mp h
    rw [List.foldr_cons, ih hos, (createDevice_of_early _ ho).2]

/-- **A run leaves nothing just when its failed additions failed early.** -/
theorem Booked.lost_iff (hb : s.Booked) : s.lost = .none ↔ ∀ o ∈ s.failures, o.FailsEarly := by
  rw [hb.lost]
  refine ⟨fun h => (hardwareIds_foldr s.failures hb.failed).2 ?_, foldr_of_early⟩
  rw [h]
  rfl

/-- **No PDO ever holds nothing again.** -/
theorem Booked.held_ne (hb : s.Booked) {p : PdoId} (hp : p < s.driver.bus.pdoCount) :
    s.held p ≠ .none := by
  intro h
  have hone := hb.held p
  rw [if_pos hp, h] at hone
  cases hone

/-- **The balance of a run**: its failed additions failed early, and no PDO was destroyed. -/
theorem Booked.balanced_iff (hb : s.Booked) :
    s.Balanced ↔ (∀ o ∈ s.failures, o.FailsEarly) ∧
      ∀ p < s.driver.bus.pdoCount, (s.driver.bus.pdos p).deleted = false := by
  refine and_congr hb.lost_iff (forall₂_congr fun p hp => ?_)
  rw [← Bool.not_eq_true]
  exact ⟨fun h hd => hb.held_ne hp (h hd), fun h hd => absurd hd h⟩

/-- **`Bus_AddDisk` is what the driver's steps make of it**, when no other thread acts: the bus, and
what is entered for the new PDO or for the failure. -/
theorem exec_busAddDisk {t : Tid} (o : AddOutcomes) (dd : BusenumAddDisk)
    (hidle : s.driver.calls t = .idle) (hm : s.driver.bus.fdo.mutex = none)
    (hd : s.driver.bus.fdo.devicePnPState ≠ .deleted) :
    ∃ as s', lts.exec (fun _ _ => true) ((.call t (.addDisk dd), o) :: as) s = some s' ∧
      s'.driver.bus = (busAddDisk s.driver.bus s.lost o dd).2.1 ∧
      (o.succeeds = false → s'.lost = (busAddDisk s.driver.bus s.lost o dd).2.2) ∧
      (s.driver.bus.unique dd.handle = true → o.succeeds = true →
        s'.held s.driver.bus.pdoCount =
          (busAddDisk s.driver.bus (s.held s.driver.bus.pdoCount) o dd).2.2) := by
  cases hu : s.driver.bus.unique dd.handle with
  | false =>
    refine ⟨[(.step t true, o)], ?_⟩
    simp [Lts.exec, lts, step, agrees, enter, book, Driver.step, hidle, Bus.enter, Bus.dispatch, hd,
      Pc.step, Bus.addUniqueStep, hm, hu, busAddDisk_of_taken hu]
  | true =>
    cases ho : o.succeeds with
    | false =>
      refine ⟨[(.step t true, o), (.step t false, o)], ?_⟩
      simp [Lts.exec, lts, step, agrees, enter, book, Driver.step, hidle, Bus.enter, Bus.dispatch,
        hd, Pc.step, Bus.addUniqueStep, Bus.addCreateStep, hm, hu, ho, busAddDisk_of_fails hu ho]
    | true =>
      refine ⟨[(.step t true, o), (.step t true, o), (.step t true, o)], ?_⟩
      simp [Lts.exec, lts, step, agrees, enter, book, Driver.step, hidle, Bus.enter, Bus.dispatch,
        hd, Pc.step, Bus.addUniqueStep, Bus.addCreateStep, Bus.addInsertStep, hm, hu, ho,
        busAddDisk_of_succeeds hu ho]

end Accounts

/-! ## The balance of a disk -/

/-- **A disk's resources**: a call that fails restores the list and the counts just when the serial
number is taken or no call fails after the pool allocation, and a run is balanced just when its
failed additions were such and it has destroyed no PDO: the reference to the remove event is never
given back. -/
theorem resources_iff (b : Bus) (c : Counts) (o : AddOutcomes) (dd : BusenumAddDisk)
    {s : Accounts} (h : Accounts.lts.Reachable s) :
    (AddRestores b c o dd ↔ b.unique dd.handle = false ∨ o.FailsEarly ∨ o.succeeds = true) ∧
    (s.Balanced ↔ (∀ o ∈ s.failures, o.FailsEarly) ∧
      ∀ p < s.driver.bus.pdoCount, (s.driver.bus.pdos p).deleted = false) :=
  ⟨addRestores_iff b c o dd, (Accounts.booked h).balanced_iff⟩

namespace Accounts

/-- A disk added, removed, reported missing and destroyed. -/
theorem exists_destroyed : ∃ s, lts.Reachable s ∧
    0 < s.driver.bus.pdoCount ∧ (s.driver.bus.pdos 0).deleted = true ∧
      s.held 0 .removeEvent = 1 := by
  refine Lts.exists_reachable
    ((routine (.sys 0) (.addDisk (smallDisk 7 1)) 3 ++ routine (.sys 0) (.removeDisk 7) 1 ++
      routine (.sys 0) (.queryRelations none) 2 ++ routine (.sys 0) (.pdoPnp 0 .eject) 1 ++
      routine (.sys 0) (.queryRelations none) 2 ++ routine (.sys 0) (.pdoRemove 0) 9).map
      (·, {})) (fun s : Accounts =>
        0 < s.driver.bus.pdoCount ∧ (s.driver.bus.pdos 0).deleted = true ∧
          s.held 0 .removeEvent = 1) ?_
  decide +kernel

end Accounts

/-- A disk that is added with every call succeeding needs nothing restored, and a run that destroys
it is not balanced. -/
theorem resources_destroyed : AddRestores {} .none {} (smallDisk 7 1) ∧
    ∃ s, Accounts.lts.Reachable s ∧ ¬ s.Balanced := by
  obtain ⟨s, hr, hp, hd, -⟩ := Accounts.exists_destroyed
  obtain ⟨hadd, hbal⟩ := resources_iff {} .none {} (smallDisk 7 1) hr
  refine ⟨hadd.mpr (.inr (.inr rfl)), s, hr, fun hb => ?_⟩
  have hlive := (hbal.mp hb).2 0 hp
  rw [hd] at hlive
  cases hlive

/-- **Both parts fail**: a handle to the remove event that is not good leaves the pool block, and a
disk that comes and goes its reference to the event. -/
theorem not_restores_balanced : (¬ ∀ b c o dd, AddRestores b c o dd) ∧
    ¬ ∀ s, Accounts.lts.Reachable s → s.Balanced := by
  constructor
  · intro h
    have hleak := (h {} .none { reference := statusUnsuccessful } (smallDisk 7 1) rfl).2
    have hone := congrFun hleak .hardwareIds
    revert hone
    decide
  · intro h
    obtain ⟨s, hr, hp, hd, hone⟩ := Accounts.exists_destroyed
    rw [(h s hr).2 0 hp hd] at hone
    cases hone

end VirtualDisk
