import VirtualDisk.Machinery.Progress
import VirtualDisk.Driver.Types

/-!
# Driver/Synchronous — an IRP is sent down and waited for

`Bus_SendIrpSynchronously` waits on an event in its own frame, which `Bus_CompletionRoutine` sets.
There are two tests, and each takes the other's outcome for granted: the sender waits if it is told
`STATUS_PENDING`, the completion routine sets the event if the IRP was marked pending.

The driver below is not this one.  It may mark the IRP pending, complete it and return from its
dispatch routine in any order, and return any status.
-/

namespace VirtualDisk

open Machinery

namespace Synchronous

/-! ## The two routines -/

/-- Where `Bus_SendIrpSynchronously` is. -/
inductive SenderPc
  | setUp
  | ioCallDriver
  | wait
  | readStatus
  | returned (status : NTSTATUS)
  deriving DecidableEq

/-- Where the completion of the IRP is; `routine` and `setEvent` are `Bus_CompletionRoutine`. -/
inductive CompletionPc
  | notCompleted
  | routine
  | setEvent
  | done
  deriving DecidableEq

/-- What the dispatch routine of the driver below returned, and the status the IRP had come back
with by then. -/
structure Dispatched where
  status : NTSTATUS
  back : Option NTSTATUS
  deriving DecidableEq

/-- The sender, the IRP, and the event.  `late` records a use of the IRP or the event after the
sender has returned. -/
structure State where
  sender : SenderPc := .setUp
  completion : CompletionPc := .notCompleted
  event : Bool := false
  pendingReturned : Bool := false
  ioStatus : NTSTATUS
  dispatched : Option Dispatched := none
  late : Bool := false
  deriving DecidableEq

namespace State

/-- The sender has returned, and its frame is gone. -/
def gone (s : State) : Bool :=
  match s.sender with
  | .returned _ => true
  | _ => false

/-- The status with which the IRP has come back. -/
def back (s : State) : Option NTSTATUS := if s.completion = .done then some s.ioStatus else none

end State

/-- A step of the sender or of the completion, or one that the driver below takes. -/
inductive Action
  | sender
  | completion
  | ioMarkIrpPending
  | ioCompleteRequest (status : NTSTATUS)
  | dispatchReturns (status : NTSTATUS)

open State

/-- **One step.** -/
def step (s : State) : Action → Option State
  | .sender => match s.sender with
    | .setUp => some { s with sender := .ioCallDriver, event := false }
    | .ioCallDriver => none
    | .wait => if s.event then some { s with sender := .readStatus } else none
    | .readStatus => some { s with sender := .returned s.ioStatus }
    | .returned _ => none
  | .completion => match s.completion with
    | .notCompleted => none
    | .routine => some { s with
        completion := if s.pendingReturned then .setEvent else .done
        late := s.late || s.gone }
    | .setEvent => some { s with
        completion := .done
        event := true
        late := s.late || s.gone }
    | .done => none
  | .ioMarkIrpPending =>
    if s.sender ≠ .setUp ∧ s.completion = .notCompleted then
      some { s with pendingReturned := true, late := s.late || s.gone }
    else none
  | .ioCompleteRequest status =>
    if s.sender ≠ .setUp ∧ s.completion = .notCompleted then
      some { s with
        completion := .routine
        ioStatus := status
        late := s.late || s.gone }
    else none
  | .dispatchReturns status =>
    if s.sender = .ioCallDriver then
      some { s with
        sender := if status = statusPending then .wait else .returned status
        dispatched := some ⟨status, s.back⟩ }
    else none

/-- The sender and the driver below, for an IRP with this status. -/
def lts (status : NTSTATUS) : Lts State Action where
  init := { ioStatus := status }
  step := step

/-- The steps of the sender and of the completion. -/
def Own (_ : State) (a : Action) : Prop := a = .sender ∨ a = .completion

/-! ## What holds in every state -/

/-- **What is known where the sender is.** -/
def AtSender (s : State) : SenderPc → Prop
  | .setUp => s.completion = .notCompleted ∧ s.dispatched = none ∧ s.late = false
  | .ioCallDriver => s.dispatched = none ∧ s.late = false
  | .wait => s.late = false ∧ ∃ d, s.dispatched = some d ∧ d.status = statusPending
  | .readStatus => s.late = false ∧ s.event = true ∧
      ∃ d, s.dispatched = some d ∧ d.status = statusPending
  | .returned status => ∃ d, s.dispatched = some d ∧
      if d.status = statusPending then s.event = true ∧ status = s.ioStatus ∧ s.late = false
      else status = d.status ∧ match d.back with
        | some status' => status' = s.ioStatus ∧ s.completion = .done ∧ s.late = false
        | none => s.completion = .done → s.late = true

/-- **The invariant**: the event is set by the completion of an IRP that was marked pending. -/
structure Inv (s : State) : Prop where
  event : s.event = true ↔ s.completion = .done ∧ s.pendingReturned = true
  setEvent : s.completion = .setEvent → s.pendingReturned = true
  sender : AtSender s s.sender

variable {status : NTSTATUS} {s s' : State} {a : Action} {d : Dispatched}

theorem inv_init : Inv (lts status).init where
  event := by simp [lts]
  setEvent := by simp [lts]
  sender := ⟨rfl, rfl, rfl⟩

/-- The sender keeps it. -/
theorem inv_sender (hi : Inv s) (hs : step s .sender = some s') : Inv s' := by
  obtain ⟨he, hset, hat⟩ := hi
  cases hpc : s.sender with
  | setUp =>
    obtain ⟨hc, hd, hl⟩ := hpc ▸ hat
    simp only [step, hpc, Option.some.injEq] at hs
    subst hs
    exact ⟨by simp [hc], hset, hd, hl⟩
  | ioCallDriver => simp [step, hpc] at hs
  | wait =>
    obtain ⟨hl, d, hd, hp⟩ := hpc ▸ hat
    simp only [step, hpc, Option.ite_none_right_eq_some, Option.some.injEq] at hs
    obtain ⟨hev, rfl⟩ := hs
    exact ⟨he, hset, hl, hev, d, hd, hp⟩
  | readStatus =>
    obtain ⟨hl, hev, d, hd, hp⟩ := hpc ▸ hat
    simp only [step, hpc, Option.some.injEq] at hs
    subst hs
    exact ⟨he, hset, d, hd, by rw [if_pos hp]; exact ⟨hev, rfl, hl⟩⟩
  | returned status => simp [step, hpc] at hs

/-- While the IRP is not back, what is known of the sender outlives a step of the completion, if a
late one is recorded. -/
theorem AtSender.advance (he : s.event = true → s.completion = .done) (hnot : s.completion ≠ .done)
    (hstart : s.sender ≠ .setUp) (hat : AtSender s s.sender) (hsender : s'.sender = s.sender)
    (hdispatched : s'.dispatched = s.dispatched) (hlate : s'.late = (s.late || s.gone)) :
    AtSender s' s'.sender := by
  have hev : s.event = false := Bool.eq_false_iff.mpr fun h => hnot (he h)
  cases hpc : s.sender with
  | setUp => exact absurd hpc hstart
  | ioCallDriver =>
    obtain ⟨hd, hl⟩ := hpc ▸ hat
    rw [hsender, hpc]
    exact ⟨hdispatched ▸ hd, by simp [hlate, hl, gone, hpc]⟩
  | wait =>
    obtain ⟨hl, d, hd, hp⟩ := hpc ▸ hat
    rw [hsender, hpc]
    exact ⟨by simp [hlate, hl, gone, hpc], d, hdispatched ▸ hd, hp⟩
  | readStatus =>
    obtain ⟨-, hset, -⟩ := hpc ▸ hat
    rw [hev] at hset
    cases hset
  | returned status =>
    obtain ⟨d, hd, hret⟩ := hpc ▸ hat
    have hl : s'.late = true := by simp [hlate, gone, hpc]
    rw [hsender, hpc]
    refine ⟨d, hdispatched ▸ hd, ?_⟩
    split at hret
    · rw [hev] at hret
      cases hret.1
    · next hp =>
      rw [if_neg hp]
      cases hb : d.back with
      | none => exact ⟨hret.1, fun _ => hl⟩
      | some status' =>
        rw [hb] at hret
        exact absurd hret.2.2.1 hnot

/-- The completion keeps it. -/
theorem inv_completion (hi : Inv s) (hs : step s .completion = some s') : Inv s' := by
  obtain ⟨he, hset, hat⟩ := hi
  have hstart (h : s.completion ≠ .notCompleted) : s.sender ≠ .setUp := fun hpc =>
    h (hpc ▸ hat : AtSender s .setUp).1
  cases hc : s.completion with
  | notCompleted => simp [step, hc] at hs
  | routine =>
    simp only [step, hc, Option.some.injEq] at hs
    subst hs
    refine ⟨?_, ?_, hat.advance (fun h => (he.mp h).1) (by simp [hc]) (hstart (by simp [hc]))
      rfl rfl rfl⟩
    · have hev : s.event ≠ true := fun h => by simp [hc] at he; simp [he] at h
      cases hp : s.pendingReturned <;> simp [hev]
    · cases hp : s.pendingReturned <;> simp
  | setEvent =>
    have hp := hset hc
    simp only [step, hc, Option.some.injEq] at hs
    subst hs
    exact ⟨by simp [hp], by simp, hat.advance (fun h => (he.mp h).1) (by simp [hc])
      (hstart (by simp [hc])) rfl rfl rfl⟩
  | done => simp [step, hc] at hs

/-- The driver below keeps it, whatever it does. -/
theorem inv_below (hi : Inv s) (ha : ¬ Own s a) (hs : step s a = some s') : Inv s' := by
  obtain ⟨he, hset, hat⟩ := hi
  cases a with
  | sender => exact absurd (.inl rfl) ha
  | completion => exact absurd (.inr rfl) ha
  | ioMarkIrpPending =>
    simp only [step, Option.ite_none_right_eq_some, Option.some.injEq] at hs
    obtain ⟨⟨hstart, hc⟩, rfl⟩ := hs
    refine ⟨?_, by simp, hat.advance (fun h => (he.mp h).1) (by simp [hc]) hstart rfl rfl rfl⟩
    simpa [hc] using he
  | ioCompleteRequest status =>
    simp only [step, Option.ite_none_right_eq_some, Option.some.injEq] at hs
    obtain ⟨⟨hstart, hc⟩, rfl⟩ := hs
    refine ⟨?_, by simp, hat.advance (fun h => (he.mp h).1) (by simp [hc]) hstart rfl rfl rfl⟩
    simpa [hc] using he
  | dispatchReturns status =>
    simp only [step, Option.ite_none_right_eq_some, Option.some.injEq] at hs
    obtain ⟨hpc, rfl⟩ := hs
    obtain ⟨-, hl⟩ := hpc ▸ hat
    refine ⟨he, hset, ?_⟩
    by_cases hp : status = statusPending
    · simp [hp, AtSender, hl]
    · refine (if_neg hp).symm ▸ ⟨_, rfl, ?_⟩
      rw [if_neg hp]
      by_cases hc : s.completion = .done
      · simp [back, hc, hl]
      · simp [back, hc]

theorem inv_step (hi : Inv s) (hs : step s a = some s') : Inv s' := by
  by_cases ha : Own s a
  · rcases ha with rfl | rfl
    · exact inv_sender hi hs
    · exact inv_completion hi hs
  · exact inv_below hi ha hs

theorem inv (h : (lts status).Reachable s) : Inv s :=
  h.invariant inv_init fun _ _ _ _ hi _ hs => inv_step hi hs

/-! ## The IRP comes back -/

/-- The steps the two routines have left. -/
def State.remaining (s : State) : ℕ :=
  (match s.sender with
    | .setUp => 3
    | .ioCallDriver | .wait => 2
    | .readStatus => 1
    | .returned _ => 0)
  + match s.completion with
    | .routine => 2
    | .setEvent => 1
    | .notCompleted | .done => 0

theorem windsDown : (lts status).WindsDown Own (fun _ => True) State.remaining where
  keeps := fun _ _ _ _ _ _ => trivial
  lowers := by
    intro s a s' _ ha hs
    replace hs : step s a = some s' := hs
    rcases ha with rfl | rfl
    · cases hpc : s.sender <;> simp only [step, hpc] at hs
      case setUp | readStatus =>
        cases hs
        simp [remaining, hpc]
      case wait =>
        obtain ⟨-, rfl⟩ := by simpa using hs
        simp [remaining, hpc]
      all_goals cases hs
    · cases hc : s.completion <;> simp only [step, hc] at hs
      case routine =>
        cases hs
        cases hp : s.pendingReturned <;> simp [remaining, hc]
      case setEvent =>
        cases hs
        simp [remaining, hc]
      all_goals cases hs

/-- **The driver below kept its part**: it told the sender to wait only for an IRP it had marked,
and otherwise had let the IRP come back with the status that it returned. -/
def Dispatched.Honest (d : Dispatched) (pendingReturned : Bool) : Prop :=
  if d.status = statusPending then pendingReturned = true else d.back = some d.status

/-- **The sender did its part**: it has returned the status of the IRP, and nothing touched the IRP
or the event after that. -/
def Served (s : State) : Prop := s.sender = .returned s.ioStatus ∧ s.late = false

/-- A completion with no step left is done. -/
theorem done_of_atRest (hrest : (lts status).AtRest Own s) (hc : s.completion ≠ .notCompleted) :
    s.completion = .done := by
  have hstep : step s .completion = none := hrest .completion (.inr rfl)
  cases hd : s.completion with
  | notCompleted => exact absurd hd hc
  | done => rfl
  | routine | setEvent => simp [step, hd] at hstep

/-- An honest driver does not let the sender return before the IRP is back. -/
theorem Inv.done_of_honest (hi : Inv s) (hd : s.dispatched = some d) {ret : NTSTATUS}
    (hpc : s.sender = .returned ret) (hhonest : d.Honest s.pendingReturned) :
    s.completion = .done := by
  obtain ⟨d', hd', hret⟩ := hpc ▸ hi.sender
  obtain rfl : d' = d := Option.some.inj (hd'.symm.trans hd)
  by_cases hp : d'.status = statusPending
  · rw [if_pos hp] at hret
    exact (hi.event.mp hret.1).1
  · rw [Dispatched.Honest, if_neg hp] at hhonest
    rw [if_neg hp, hhonest] at hret
    exact hret.2.2.1

/-- A sender that has returned was served exactly by an honest driver, once the IRP is back. -/
theorem Inv.served_iff (hi : Inv s) (hd : s.dispatched = some d) (hc : s.completion = .done)
    {ret : NTSTATUS} (hpc : s.sender = .returned ret) :
    Served s ↔ d.Honest s.pendingReturned := by
  obtain ⟨d', hd', hret⟩ := hpc ▸ hi.sender
  obtain rfl : d' = d := Option.some.inj (hd'.symm.trans hd)
  by_cases hp : d'.status = statusPending
  · rw [if_pos hp] at hret
    obtain ⟨hev, rfl, hl⟩ := hret
    simp [Served, hpc, hl, Dispatched.Honest, hp, (hi.event.mp hev).2]
  · rw [if_neg hp] at hret
    obtain ⟨rfl, hback⟩ := hret
    cases hb : d'.back with
    | none =>
      rw [hb] at hback
      simp [Served, hback hc, Dispatched.Honest, hp, hb]
    | some ret =>
      obtain ⟨rfl, -, hl⟩ := hb ▸ hback
      simp [Served, hpc, hl, Dispatched.Honest, hp, hb, eq_comm]

/-- **A request that is sent down is waited for exactly as long as it takes.**  The two routines
come to an end; when the driver below has completed the IRP and returned, the sender has returned,
with the IRP's status and not too early, exactly if that driver kept its part. -/
theorem sent_and_awaited (h : (lts status).Reachable s) (hd : s.dispatched = some d) :
    (lts status).Ends Own s ∧
    ((lts status).AtRest Own s → s.completion ≠ .notCompleted →
      (Served s ↔ d.Honest s.pendingReturned)) ∧
    ∀ ret, s.sender = .returned ret → d.Honest s.pendingReturned → Served s := by
  have hi := inv h
  refine ⟨windsDown.ends trivial, fun hrest hc => ?_, fun ret hpc hhonest => ?_⟩
  · have hdone := done_of_atRest hrest hc
    have hstep : step s .sender = none := hrest .sender (.inl rfl)
    cases hpc : s.sender with
    | setUp | readStatus => simp [step, hpc] at hstep
    | ioCallDriver =>
      obtain ⟨hnone, -⟩ := hpc ▸ hi.sender
      rw [hnone] at hd
      cases hd
    | wait =>
      -- told to wait, for an event that the completion has not set
      obtain ⟨-, d', hd', hp⟩ := hpc ▸ hi.sender
      obtain rfl : d' = d := Option.some.inj (hd'.symm.trans hd)
      have hev : s.event ≠ true := by simpa [step, hpc] using hstep
      simpa [Served, hpc, Dispatched.Honest, hp, hdone] using mt hi.event.mpr hev
    | returned ret => exact hi.served_iff hd hdone hpc
  · exact (hi.served_iff hd (hi.done_of_honest hd hpc hhonest) hpc).mpr hhonest

/-- An IRP that is marked pending, and completed while the sender waits. -/
theorem sent_and_awaited_pending :
    Served ⟨.returned statusSuccess, .done, true, true, statusSuccess, some ⟨statusPending, none⟩,
      false⟩ :=
  have h : (lts statusNoSuchDevice).Reachable ⟨.returned statusSuccess, .done, true, true,
      statusSuccess, some ⟨statusPending, none⟩, false⟩ :=
    .step (a := .sender) (.step (a := .sender) (.step (a := .completion) (.step (a := .completion)
      (.step (a := .ioCompleteRequest statusSuccess) (.step (a := .dispatchReturns statusPending)
        (.step (a := .ioMarkIrpPending) (.step (a := .sender) .init trivial rfl) trivial rfl)
        trivial rfl) trivial rfl) trivial rfl) trivial rfl) trivial rfl) trivial rfl
  (sent_and_awaited h rfl).2.2 _ rfl rfl

end Synchronous

end VirtualDisk
