import VirtualDisk.Service.Retirement
import VirtualDisk.Service.Shutdown

/-!
# Service/Control — a stop request and the states that are reported

`ServiceMain` and `CtrlHandler` run in two threads and share `Status`: each assigns fields of it,
one after the other, and reports the whole with `SetServiceStatus`.  The handler sets
`TerminationEvent` before it assigns `SERVICE_STOP_PENDING`; so `ServiceMain` may have come to its
end, and to `SERVICE_STOPPED`, in between.

The service control manager sends a control to a service that was reported to be running and to
accept it, and no other while its handler is in one.
-/

namespace VirtualDisk

open Machinery

namespace Scm

/-- `dwCurrentState`: 0, `SERVICE_STOPPED`, `SERVICE_START_PENDING`, `SERVICE_STOP_PENDING` and
`SERVICE_RUNNING`. -/
inductive ServiceState
  | unset
  | stopped
  | startPending
  | stopPending
  | running
  deriving DecidableEq, Repr

/-- `SERVICE_STATUS`. -/
structure ServiceStatus where
  dwServiceType : ULONG := 0
  dwCurrentState : ServiceState := .unset
  dwControlsAccepted : ULONG := 0
  dwWin32ExitCode : ULONG := 0
  dwServiceSpecificExitCode : ULONG := 0
  dwCheckPoint : ULONG := 0
  dwWaitHint : ULONG := 0
  deriving DecidableEq

/-- `SERVICE_WIN32`. -/
def serviceWin32 : ULONG := 0x30

/-- `SERVICE_ACCEPT_STOP`. -/
def serviceAcceptStop : ULONG := 1

/-- `SERVICE_ACCEPT_PAUSE_CONTINUE`. -/
def serviceAcceptPauseContinue : ULONG := 2

/-- One assignment to `srv.Status`. -/
inductive Assignment
  | serviceType (x : ULONG)
  | currentState (x : ServiceState)
  | controlsAccepted (x : ULONG)
  | win32ExitCode (x : ULONG)
  | serviceSpecificExitCode (x : ULONG)
  | checkPoint (x : ULONG)
  | waitHint (x : ULONG)
  deriving DecidableEq

/-- The status after an assignment. -/
@[simp] def ServiceStatus.assign (status : ServiceStatus) : Assignment → ServiceStatus
  | .serviceType x => { status with dwServiceType := x }
  | .currentState x => { status with dwCurrentState := x }
  | .controlsAccepted x => { status with dwControlsAccepted := x }
  | .win32ExitCode x => { status with dwWin32ExitCode := x }
  | .serviceSpecificExitCode x => { status with dwServiceSpecificExitCode := x }
  | .checkPoint x => { status with dwCheckPoint := x }
  | .waitHint x => { status with dwWaitHint := x }

/-- `Opcode` of `CtrlHandler`: `SERVICE_CONTROL_CONTINUE`, `SERVICE_CONTROL_STOP`,
`SERVICE_CONTROL_INTERROGATE`, or one it does not know. -/
inductive ServiceControl
  | resume
  | stop
  | interrogate
  | other
  deriving DecidableEq

/-- **The service takes this control**, by what it has reported. -/
def ServiceStatus.accepts (status : ServiceStatus) (opcode : ServiceControl) : Bool :=
  status.dwCurrentState = .running && match opcode with
    | .resume => status.dwControlsAccepted &&& serviceAcceptPauseContinue ≠ 0
    | .stop => status.dwControlsAccepted &&& serviceAcceptStop ≠ 0
    | .interrogate | .other => true

/-! ## The two threads -/

/-- A run of assignments in `ServiceMain`: at its start, when `Init` has failed, when it has
succeeded, and at its end. -/
inductive Stage
  | fill
  | fail
  | start
  | stop
  deriving DecidableEq

/-- Where `ServiceMain` is: at these assignments (and then at the call that follows them), in
`Init`, in `Run` or `Terminate`, or past its end, having served or not. -/
inductive MainPc
  | assign (stage : Stage) (left : List Assignment)
  | openBusInterface
  | createEvents
  | registerPlugins
  | initRpc (left : ℕ)
  | serving
  | failed
  | returned

/-- Where `CtrlHandler` is. -/
inductive HandlerPc
  | idle
  | entered (opcode : ServiceControl)
  | assign (left : List Assignment)

/-- The first assignments of `ServiceMain`. -/
def fillAssignments : List Assignment :=
  [.serviceType serviceWin32, .currentState .startPending, .controlsAccepted serviceAcceptStop,
    .win32ExitCode 0, .serviceSpecificExitCode 0, .checkPoint 0, .waitHint 0]

/-- Those when `Init` has failed. -/
def failAssignments (dwErr : ULONG) : List Assignment :=
  [.currentState .stopped, .checkPoint 0, .waitHint 0, .win32ExitCode dwErr,
    .serviceSpecificExitCode 0]

/-- Those when it has succeeded. -/
def startAssignments : List Assignment := [.currentState .running, .checkPoint 0, .waitHint 0]

/-- The last ones. -/
def stopAssignments : List Assignment := [.currentState .stopped, .checkPoint 0, .waitHint 0]

/-- Those of `CtrlHandler` for `SERVICE_CONTROL_STOP`. -/
def pendingAssignments : List Assignment :=
  [.win32ExitCode 0, .currentState .stopPending, .checkPoint 0, .waitHint 0]

/-- What the two threads do, for the record: an assignment to `Status` in `ServiceMain` or in
`CtrlHandler`, or `SetEvent (hEvents[TerminationEvent])`. -/
inductive StatusEvent
  | main (x : Assignment)
  | handler (x : Assignment)
  | setEvent
  deriving DecidableEq

/-- **The service and the service control manager.**  `reported` is the status the manager has, and
`log` the record, the latest first. -/
structure State where
  shutdown : Shutdown
  main : MainPc := .assign .fill fillAssignments
  handler : HandlerPc := .idle
  status : ServiceStatus := {}
  reported : ServiceStatus := { dwCurrentState := .startPending }
  log : List StatusEvent := []

/-- The handles of the events are closed. -/
def eventsClosed : VirtualDisk.MainPc → Bool
  | .closing | .done => true
  | _ => false

/-- What can happen: a control is sent, a thread goes on (`ok` and `dwErr` are the result of the
call it makes), or the service does. -/
inductive Action
  | control (opcode : ServiceControl)
  | main (ok : Bool) (dwErr : ULONG)
  | handler (ok : Bool)
  | serve (x : ShutdownAction)

namespace MainPc

/-- RPCs are listened for from the end of `Init` on. -/
def listens : MainPc → Bool
  | .assign .start _ | .assign .stop _ | .serving | .returned => true
  | _ => false

/-- What goes on in the service meanwhile. -/
def admits : MainPc → ShutdownAction → Bool
  | _, .stop => false
  | pc, .main | pc, .system .run _ => match pc with
    | .serving => true
    | _ => false
  | pc, .system (.rpcCall _ _) _ => pc.listens
  | _, .system _ _ => true

/-- `ServiceMain` has reported that the service is running. -/
def live : MainPc → Bool
  | .serving | .assign .stop _ | .returned => true
  | _ => false

end MainPc

namespace State

@[simp] def setMain (s : State) (pc : MainPc) : State := { s with main := pc }

@[simp] def setHandler (s : State) (pc : HandlerPc) : State := { s with handler := pc }

@[simp] def assignMain (s : State) (x : Assignment) : State :=
  { s with status := s.status.assign x, log := .main x :: s.log }

@[simp] def assignHandler (s : State) (x : Assignment) : State :=
  { s with status := s.status.assign x, log := .handler x :: s.log }

/-- `SetServiceStatus (srv.StatusHandle, &srv.Status)`. -/
@[simp] def setServiceStatus (s : State) (ok : Bool) : State :=
  if ok then { s with reported := s.status } else s

/-- `SetEvent (srv.hEvents[TerminationEvent])`, which fails for a handle that was closed. -/
@[simp] def setTerminationEvent (s : State) : State :=
  { s with
    shutdown :=
      if eventsClosed s.shutdown.main then s.shutdown
      else { s.shutdown with terminationEvent := true }
    log := .setEvent :: s.log }

/-- The next step of `ServiceMain`, with `Init` and the calls it makes. -/
def mainStep (s : State) (ok : Bool) (dwErr : ULONG) : Option State :=
  match s.main with
  | .assign stage (x :: left) => some ((s.assignMain x).setMain (.assign stage left))
  -- RegisterServiceCtrlHandler
  | .assign .fill [] => some (s.setMain (if ok then .openBusInterface else .failed))
  | .openBusInterface =>
    some (s.setMain (if ok then .createEvents else .assign .fail (failAssignments dwErr)))
  | .createEvents => some (s.setMain .registerPlugins)
  | .registerPlugins => some (s.setMain (.initRpc 3))
  -- RpcServerUseProtseqEp, RpcServerRegisterIf, RpcServerListen
  | .initRpc (left + 1) =>
    some (s.setMain (if ok then .initRpc left else .assign .fail (failAssignments dwErr)))
  | .initRpc 0 => some (s.setMain (.assign .start startAssignments))
  | .assign .fail [] => some ((s.setServiceStatus ok).setMain .failed)
  | .assign .start [] => some ((s.setServiceStatus ok).setMain .serving)
  | .serving =>
    if s.shutdown.main = .done then some (s.setMain (.assign .stop stopAssignments)) else none
  | .assign .stop [] => some ((s.setServiceStatus ok).setMain .returned)
  | .failed | .returned => none

/-- The next step of `CtrlHandler`. -/
def handlerStep (s : State) (ok : Bool) : Option State :=
  match s.handler with
  | .idle => none
  | .entered .resume =>
    some ((s.assignHandler (.currentState .running)).setHandler (.assign []))
  | .entered .stop => some (s.setTerminationEvent.setHandler (.assign pendingAssignments))
  | .entered .interrogate | .entered .other => some (s.setHandler (.assign []))
  | .assign (x :: left) => some ((s.assignHandler x).setHandler (.assign left))
  | .assign [] => some ((s.setServiceStatus ok).setHandler .idle)

/-- A step of the service: `Run` and `Terminate` in `ServiceMain`'s thread, the disk threads and the
RPC workers in their own. -/
def serveStep (s : State) (x : ShutdownAction) : Option State :=
  if s.main.admits x then (s.shutdown.step x).map fun shutdown => { s with shutdown } else none

/-- **One step.** -/
def step (s : State) : Action → Option State
  | .control opcode => match s.handler with
    | .idle => if s.reported.accepts opcode then some (s.setHandler (.entered opcode)) else none
    | _ => none
  | .main ok dwErr => s.mainStep ok dwErr
  | .handler ok => s.handlerStep ok
  | .serve x => s.serveStep x

end State

/-- **The service under its manager**, with these files and plugins. -/
def lts (files : FileId → File) (plugins : List PluginId) : Lts State Action :=
  ⟨{ shutdown := (Shutdown.lts files plugins).init }, State.step⟩

/-! ## The record -/

/-- **The stop request came late**: `CtrlHandler` assigned `SERVICE_STOP_PENDING` when `ServiceMain`
had assigned `SERVICE_STOPPED`. -/
def late : List StatusEvent → Bool
  | [] => false
  | .handler (.currentState .stopPending) :: log =>
    decide (.main (.currentState .stopped) ∈ log) || late log
  | _ :: log => late log

/-- Then `SERVICE_STOPPED` was assigned. -/
theorem stopped_of_late {log : List StatusEvent} (h : late log = true) :
    .main (.currentState .stopped) ∈ log := by
  induction log with
  | nil => cases h
  | cons e log ih =>
    unfold late at h
    split at h
    · cases h
    · next heq =>
      obtain ⟨-, rfl⟩ := List.cons.inj heq
      rcases Bool.or_eq_true_iff.mp h with h | h
      · exact List.mem_cons_of_mem _ (of_decide_eq_true h)
      · exact List.mem_cons_of_mem _ (ih h)
    · next heq =>
      obtain ⟨-, rfl⟩ := List.cons.inj heq
      exact List.mem_cons_of_mem _ (ih h)

/-! ## The assignments -/

/-- The status of a service in this state, with nothing to report otherwise. -/
def inState (x : ServiceState) : ServiceStatus where
  dwServiceType := serviceWin32
  dwCurrentState := x
  dwControlsAccepted := serviceAcceptStop

/-- `SERVICE_STOPPED` was assigned at the end of `ServiceMain`. -/
def assignedStopped : StatusEvent := .main (.currentState .stopped)

section Late

variable {log : List StatusEvent} {x : Assignment}

@[simp] theorem late_main : late (.main x :: log) = late log := rfl

@[simp] theorem late_setEvent : late (.setEvent :: log) = late log := rfl

theorem late_handler (h : x ≠ .currentState .stopPending) :
    late (.handler x :: log) = late log := by
  cases x with
  | currentState state =>
    cases state with
    | stopPending => exact absurd rfl h
    | unset | stopped | startPending | running => rfl
  | _ => rfl

theorem late_pending (h : assignedStopped ∈ log) :
    late (.handler (.currentState .stopPending) :: log) = true := by
  simp only [late, Bool.or_eq_true, decide_eq_true_eq]
  exact .inl h

end Late

/-! ## The invariant -/

variable {s s' : State} {files : FileId → File} {plugins : List PluginId}

/-- Nobody has sent a control yet. -/
structure Quiet (s : State) : Prop where
  handler : s.handler = .idle
  reported : s.reported.dwCurrentState ≠ .running
  log : ∀ e ∈ s.log, ∃ x, e = .main x

/-- **The status while the service is live**: its state is what was assigned last. -/
structure Live (s : State) : Prop where
  status : s.status = inState s.status.dwCurrentState
  last : assignedStopped ∈ s.log →
    (s.status.dwCurrentState = .stopped ∧ late s.log = false) ∨
    (s.status.dwCurrentState = .stopPending ∧ late s.log = true)

/-- What holds at each point of `ServiceMain`. -/
def AtMain (s : State) : MainPc → Prop
  | .assign .fill left => Quiet s ∧ assignedStopped ∉ s.log ∧ left <:+ fillAssignments ∧
    left.foldl .assign s.status = inState .startPending
  | .openBusInterface | .createEvents | .registerPlugins | .initRpc _ =>
    Quiet s ∧ assignedStopped ∉ s.log ∧ s.status = inState .startPending
  | .assign .fail left => Quiet s ∧ (left.foldl .assign s.status).dwCurrentState = .stopped
  | .failed => Quiet s
  | .assign .start left => Quiet s ∧ assignedStopped ∉ s.log ∧ left <:+ startAssignments ∧
    left.foldl .assign s.status = inState .running
  | .serving => Live s ∧ assignedStopped ∉ s.log
  | .assign .stop left =>
    Live s ∧ left <:+ stopAssignments ∧ (assignedStopped ∈ s.log ↔ left ≠ stopAssignments)
  | .returned => Live s ∧ assignedStopped ∈ s.log

/-- What holds at each point of `CtrlHandler`. -/
def AtHandler : HandlerPc → Prop
  | .idle => True
  | .entered opcode => opcode ≠ .resume
  | .assign left => left <:+ pendingAssignments

/-- `SERVICE_STOP_PENDING` is assigned, or about to be. -/
def Pending (s : State) : Prop := s.status.dwCurrentState = .stopPending ∨
  ∃ left, s.handler = .assign left ∧ .currentState .stopPending ∈ left

/-- **The invariant**: where the two threads are, and what the manager knows. -/
structure Inv (s : State) : Prop where
  main : AtMain s s.main
  handler : AtHandler s.handler
  running : s.reported.dwCurrentState = .running → s.reported = inState .running
  synced : s.main = .serving ∨ s.main = .returned → s.handler = .idle → s.reported = s.status
  signalled : .setEvent ∈ s.log → s.shutdown.terminationEvent = true ∨
    s.shutdown.system.service.run = .stopped ∨ s.shutdown.main ≠ .run
  pending : .setEvent ∈ s.log → assignedStopped ∈ s.log ∨ Pending s

/-- A service that was reported running is live, and takes no other control. -/
theorem Inv.live (h : Inv s) (hr : ¬ Quiet s) :
    Live s ∧ s.main.live = true := by
  have hmain := h.main
  cases hm : s.main with
  | assign stage left =>
    rw [hm] at hmain
    cases stage with
    | stop => exact ⟨hmain.1, rfl⟩
    | fill | fail | start => exact absurd hmain.1 hr
  | serving | returned =>
    rw [hm] at hmain
    exact ⟨hmain.1, rfl⟩
  | failed =>
    rw [hm] at hmain
    exact absurd hmain hr
  | openBusInterface | createEvents | registerPlugins | initRpc =>
    rw [hm] at hmain
    exact absurd hmain.1 hr

/-- Nothing has happened at the start. -/
theorem Inv.init : Inv (lts files plugins).init := by
  refine ⟨⟨⟨rfl, ?_, ?_⟩, ?_, List.suffix_rfl, rfl⟩, trivial, ?_, ?_, ?_, ?_⟩
  · exact ServiceState.noConfusion
  · intro e he
    cases he
  · intro he
    cases he
  · intro hr
    cases hr
  · rintro (hm | hm) <;> cases hm
  · intro he
    cases he
  · intro he
    cases he

/-- A step of another thread leaves a live `ServiceMain` where it is. -/
theorem AtMain.of_live {pc : MainPc} (h : AtMain s pc) (hpc : pc.live = true) (hl : Live s')
    (hlog : assignedStopped ∈ s'.log ↔ assignedStopped ∈ s.log) : AtMain s' pc := by
  cases pc with
  | assign stage left =>
    cases stage with
    | stop => exact ⟨hl, h.2.1, hlog.trans h.2.2⟩
    | fill | fail | start => cases hpc
  | serving => exact ⟨hl, hlog.not.mpr h.2⟩
  | returned => exact ⟨hl, hlog.mpr h.2⟩
  | _ => cases hpc

/-- Where the handler has nothing to assign, it is assigned. -/
theorem Pending.of_ne (h : Pending s)
    (hne : ∀ left, s.handler = .assign left → .currentState .stopPending ∉ left) :
    s.status.dwCurrentState = .stopPending :=
  h.resolve_right fun ⟨left, hleft, hmem⟩ => hne left hleft hmem

theorem Pending.of_idle (h : Pending s) (hidle : s.handler = .idle) :
    s.status.dwCurrentState = .stopPending :=
  h.of_ne fun _ hleft => by cases hidle.symm.trans hleft

/-- A control is sent to a service that was reported to be running. -/
theorem Inv.control_step {opcode : ServiceControl} (h : Inv s) (hidle : s.handler = .idle)
    (hacc : s.reported.accepts opcode = true) : Inv (s.setHandler (.entered opcode)) := by
  have hrun : s.reported.dwCurrentState = .running :=
    of_decide_eq_true (Bool.and_eq_true_iff.mp hacc).1
  obtain ⟨hl, hlive⟩ := h.live fun hq => hq.reported hrun
  refine ⟨h.main.of_live hlive ⟨hl.1, hl.2⟩ Iff.rfl, ?_, h.running, fun _ hx => (by cases hx),
    h.signalled, fun he => (h.pending he).imp_right fun hp => .inl (hp.of_idle hidle)⟩
  rintro rfl
  rw [h.running hrun] at hacc
  exact absurd hacc (by decide)

theorem Quiet.setMain (h : Quiet s) (pc : MainPc) : Quiet (s.setMain pc) := ⟨h.1, h.2, h.3⟩

theorem Live.setMain (h : Live s) (pc : MainPc) : Live (s.setMain pc) := ⟨h.1, h.2⟩

/-- `ServiceMain` assigns a field before the service is live. -/
theorem Quiet.assignMain {x : Assignment} {pc : MainPc} (h : Quiet s) :
    Quiet ((s.assignMain x).setMain pc) := by
  refine ⟨h.handler, h.reported, ?_⟩
  intro e he
  rcases List.mem_cons.mp he with rfl | he
  · exact ⟨x, rfl⟩
  · exact h.log e he

/-- `ServiceMain` assigns a field when the service is live. -/
theorem Live.assignMain {x : Assignment} {pc : MainPc} (h : Live s) (hx : x ∈ stopAssignments)
    (hnot : x = .currentState .stopped → assignedStopped ∉ s.log) :
    Live ((s.assignMain x).setMain pc) := by
  simp only [stopAssignments, List.mem_cons, List.not_mem_nil, or_false] at hx
  have hlate : assignedStopped ∉ s.log → late s.log = false := fun hn => by
    by_contra hl
    exact hn (stopped_of_late (Bool.not_eq_false _ ▸ hl))
  obtain ⟨hs, hlast⟩ := h
  rcases hx with rfl | rfl | rfl
  · refine ⟨by simp only [State.assignMain, State.setMain, ServiceStatus.assign]; rw [hs]; rfl, ?_⟩
    exact fun _ => .inl ⟨rfl, hlate (hnot rfl)⟩
  · refine ⟨by simp only [State.assignMain, State.setMain, ServiceStatus.assign]; rw [hs]; rfl, ?_⟩
    intro hmem
    exact hlast ((List.mem_cons.mp hmem).resolve_left (by decide))
  · refine ⟨by simp only [State.assignMain, State.setMain, ServiceStatus.assign]; rw [hs]; rfl, ?_⟩
    intro hmem
    exact hlast ((List.mem_cons.mp hmem).resolve_left (by decide))

/-- **The reports get through.** -/
def Reports (s : State) : Action → Prop
  | .main ok _ => (∃ stage, stage ≠ .fill ∧ s.main = .assign stage []) → ok = true
  | .handler ok => s.handler = .assign [] → ok = true
  | _ => True

/-- An assignment of something else than `SERVICE_STOPPED`. -/
theorem not_mem_assignMain {x : Assignment} {pc : MainPc} (h : assignedStopped ∉ s.log)
    (hx : x ≠ .currentState .stopped) : assignedStopped ∉ ((s.assignMain x).setMain pc).log := by
  intro hmem
  refine h ((List.mem_cons.mp hmem).resolve_left fun heq => hx ?_)
  exact (StatusEvent.main.inj heq).symm

/-- What is left of the assignments is not all of them. -/
theorem left_ne {x : Assignment} {left all : List Assignment} (h : x :: left <:+ all) :
    left ≠ all := by
  rintro rfl
  exact absurd h.length_le (by simp)

/-- An assignment of `ServiceMain` keeps it. -/
theorem Inv.assign_step {stage : Stage} {x : Assignment} {left : List Assignment} (h : Inv s)
    (hm : s.main = .assign stage (x :: left)) :
    Inv ((s.assignMain x).setMain (.assign stage left)) := by
  have hmain := hm ▸ h.main
  have hat : AtMain ((s.assignMain x).setMain (.assign stage left)) (.assign stage left) := by
    cases stage with
    | fill =>
      obtain ⟨hq, hn, hsuf, hfold⟩ := hmain
      refine ⟨hq.assignMain, not_mem_assignMain hn ?_, (List.suffix_cons x left).trans hsuf, hfold⟩
      rintro rfl
      exact absurd (hsuf.mem List.mem_cons_self) (by decide)
    | fail => exact ⟨hmain.1.assignMain, hmain.2⟩
    | start =>
      obtain ⟨hq, hn, hsuf, hfold⟩ := hmain
      refine ⟨hq.assignMain, not_mem_assignMain hn ?_, (List.suffix_cons x left).trans hsuf, hfold⟩
      rintro rfl
      exact absurd (hsuf.mem List.mem_cons_self) (by decide)
    | stop =>
      obtain ⟨hl, hsuf, hiff⟩ := hmain
      refine ⟨hl.assignMain (hsuf.mem List.mem_cons_self) ?_, (List.suffix_cons x left).trans hsuf,
        fun _ => left_ne hsuf, fun _ => ?_⟩
      · rintro rfl hmem
        have hmissing := hiff.mp hmem
        simp [stopAssignments, List.suffix_cons_iff] at hsuf
        exact hmissing (by rw [hsuf]; rfl)
      · by_cases hfull : x :: left = stopAssignments
        · rw [(List.cons.inj hfull).1]
          exact List.mem_cons_self
        · exact List.mem_cons_of_mem _ (hiff.mpr hfull)
  have hold : ∀ {e}, StatusEvent.setEvent ∈ StatusEvent.main e :: s.log → .setEvent ∈ s.log :=
    fun he => (List.mem_cons.mp he).resolve_left StatusEvent.noConfusion
  refine ⟨hat, h.handler, h.running, ?_, fun he => h.signalled (hold he), fun he => .inl ?_⟩
  · rintro (hx | hx) <;> cases hx
  · have hquiet : ¬ Quiet s := fun hq => by
      obtain ⟨y, hy⟩ := hq.log _ (hold he)
      cases hy
    cases stage with
    | stop => exact hat.2.2.mpr (left_ne hmain.2.1)
    | fill | fail | start => exact absurd hmain.1 hquiet

/-- `ServiceMain` goes on in `Init`. -/
theorem Inv.init_step {pc : MainPc} (h : Inv s) (hmain : AtMain (s.setMain pc) pc)
    (hpc : pc ≠ .serving ∧ pc ≠ .returned) : Inv (s.setMain pc) :=
  ⟨hmain, h.handler, h.running, fun hx => (hx.elim hpc.1 hpc.2).elim, h.signalled, h.pending⟩

/-- `Init` has failed. -/
theorem Quiet.fail (h : Quiet s) (dwErr : ULONG) :
    AtMain (s.setMain (.assign .fail (failAssignments dwErr)))
      (.assign .fail (failAssignments dwErr)) := ⟨h.setMain _, rfl⟩

/-- A report of `ServiceMain` that gets through. -/
theorem Inv.report_step {pc : MainPc} (h : Inv s)
    (hmain : AtMain ((s.setServiceStatus true).setMain pc) pc)
    (hrun : s.status.dwCurrentState = .running → s.status = inState .running) :
    Inv ((s.setServiceStatus true).setMain pc) :=
  ⟨hmain, h.handler, hrun, fun _ _ => rfl, h.signalled, h.pending⟩

/-- **A step of `ServiceMain` keeps it.** -/
theorem Inv.main_step {ok : Bool} {dwErr : ULONG} (h : Inv s)
    (hok : Reports s (.main ok dwErr)) (hs : s.mainStep ok dwErr = some s') : Inv s' := by
  have hmain := h.main
  unfold State.mainStep at hs
  cases hm : s.main with
  | assign stage left =>
    rw [hm] at hs hmain
    cases left with
    | cons x left =>
      cases hs
      exact h.assign_step hm
    | nil =>
      cases stage with
      | fill =>
        obtain ⟨hq, hn, -, hstatus⟩ := hmain
        cases ok <;> cases hs
        · exact h.init_step (hq.setMain _) ⟨MainPc.noConfusion, MainPc.noConfusion⟩
        · exact h.init_step ⟨hq.setMain _, hn, hstatus⟩ ⟨MainPc.noConfusion, MainPc.noConfusion⟩
      | fail =>
        obtain rfl := hok ⟨.fail, Stage.noConfusion, hm⟩
        obtain ⟨hq, hstatus⟩ := hmain
        have hstatus : s.status.dwCurrentState = .stopped := hstatus
        cases hs
        refine h.report_step ⟨hq.handler, ?_, hq.log⟩ fun hx => ?_
        · show s.status.dwCurrentState ≠ _
          rw [hstatus]
          exact ServiceState.noConfusion
        · cases hstatus.symm.trans hx
      | start =>
        obtain rfl := hok ⟨.start, Stage.noConfusion, hm⟩
        obtain ⟨hq, hn, -, hstatus⟩ := hmain
        have hstatus : s.status = inState .running := hstatus
        cases hs
        refine h.report_step ⟨⟨?_, fun hmem => absurd hmem hn⟩, hn⟩ fun _ => hstatus
        show s.status = inState s.status.dwCurrentState
        rw [hstatus]
        rfl
      | stop =>
        obtain rfl := hok ⟨.stop, Stage.noConfusion, hm⟩
        obtain ⟨hl, -, hiff⟩ := hmain
        cases hs
        have hmem : assignedStopped ∈ s.log := hiff.mpr (List.cons_ne_nil _ _).symm
        refine h.report_step ⟨⟨hl.1, hl.2⟩, hmem⟩ fun hx => ?_
        rw [hl.1, hx]
  | openBusInterface =>
    rw [hm] at hs hmain
    obtain ⟨hq, hn, hstatus⟩ := hmain
    cases ok <;> cases hs
    · exact h.init_step (hq.fail dwErr) ⟨MainPc.noConfusion, MainPc.noConfusion⟩
    · exact h.init_step ⟨hq.setMain _, hn, hstatus⟩ ⟨MainPc.noConfusion, MainPc.noConfusion⟩
  | createEvents | registerPlugins =>
    rw [hm] at hs hmain
    obtain ⟨hq, hn, hstatus⟩ := hmain
    cases hs
    exact h.init_step ⟨hq.setMain _, hn, hstatus⟩ ⟨MainPc.noConfusion, MainPc.noConfusion⟩
  | initRpc left =>
    rw [hm] at hs hmain
    obtain ⟨hq, hn, hstatus⟩ := hmain
    cases left with
    | zero =>
      cases hs
      refine h.init_step ⟨hq.setMain _, hn, List.suffix_rfl, ?_⟩
        ⟨MainPc.noConfusion, MainPc.noConfusion⟩
      show startAssignments.foldl .assign s.status = _
      rw [hstatus]
      rfl
    | succ left =>
      cases ok <;> cases hs
      · exact h.init_step (hq.fail dwErr) ⟨MainPc.noConfusion, MainPc.noConfusion⟩
      · exact h.init_step ⟨hq.setMain _, hn, hstatus⟩ ⟨MainPc.noConfusion, MainPc.noConfusion⟩
  | serving =>
    rw [hm] at hs hmain
    obtain ⟨hl, hn⟩ := hmain
    dsimp only at hs
    split at hs <;> cases hs
    refine h.init_step ⟨hl.setMain _, List.suffix_rfl, ?_⟩
      ⟨MainPc.noConfusion, MainPc.noConfusion⟩
    exact iff_of_false hn fun hne => hne rfl
  | failed | returned =>
    rw [hm] at hs
    cases hs

/-- `CtrlHandler` assigns a field. -/
theorem Live.assignHandler {x : Assignment} {pc : HandlerPc} (h : Live s)
    (hx : x ∈ pendingAssignments) : Live ((s.assignHandler x).setHandler pc) := by
  obtain ⟨hs, hlast⟩ := h
  simp only [pendingAssignments, List.mem_cons, List.not_mem_nil, or_false] at hx
  have hmem : ∀ {y}, assignedStopped ∈ StatusEvent.handler y :: s.log → assignedStopped ∈ s.log :=
    fun hmem => (List.mem_cons.mp hmem).resolve_left StatusEvent.noConfusion
  rcases hx with rfl | rfl | rfl | rfl
  · refine ⟨by simp only [State.assignHandler, State.setHandler, ServiceStatus.assign]; rw [hs]; rfl,
      fun hin => ?_⟩
    simpa [late_handler] using hlast (hmem hin)
  · refine ⟨by simp only [State.assignHandler, State.setHandler, ServiceStatus.assign]; rw [hs]; rfl,
      fun hin => .inr ⟨rfl, late_pending (hmem hin)⟩⟩
  · refine ⟨by simp only [State.assignHandler, State.setHandler, ServiceStatus.assign]; rw [hs]; rfl,
      fun hin => ?_⟩
    simpa [late_handler] using hlast (hmem hin)
  · refine ⟨by simp only [State.assignHandler, State.setHandler, ServiceStatus.assign]; rw [hs]; rfl,
      fun hin => ?_⟩
    simpa [late_handler] using hlast (hmem hin)

/-- …and `SERVICE_STOP_PENDING` is assigned, or is yet to be. -/
theorem Pending.assign {x : Assignment} {left : List Assignment} (h : Pending s)
    (hpc : s.handler = .assign (x :: left)) (hx : x ∈ pendingAssignments) :
    Pending ((s.assignHandler x).setHandler (.assign left)) := by
  simp only [pendingAssignments, List.mem_cons, List.not_mem_nil, or_false] at hx
  rcases h with hstatus | ⟨left', hleft, hmem⟩
  · refine .inl ?_
    rcases hx with rfl | rfl | rfl | rfl <;> first | rfl | exact hstatus
  · obtain rfl := HandlerPc.assign.inj (hpc.symm.trans hleft)
    rcases List.mem_cons.mp hmem with rfl | hmem
    · exact .inl rfl
    · exact .inr ⟨left, rfl, hmem⟩

/-- **A step of `CtrlHandler` keeps it.** -/
theorem Inv.handler_step {ok : Bool} (h : Inv s) (hok : Reports s (.handler ok))
    (hs : s.handlerStep ok = some s') : Inv s' := by
  have hhandler := h.handler
  unfold State.handlerStep at hs
  cases hpc : s.handler with
  | idle =>
    rw [hpc] at hs
    cases hs
  | entered opcode =>
    rw [hpc] at hs hhandler
    obtain ⟨hl, hlive⟩ := h.live fun hq => by
      rw [hq.handler] at hpc
      cases hpc
    cases opcode with
    | resume => exact absurd rfl hhandler
    | stop =>
      cases hs
      refine ⟨h.main.of_live hlive ⟨hl.1, fun hin => hl.2 ?_⟩ ?_, List.suffix_rfl, h.running,
        fun _ hx => (by cases hx), fun _ => ?_,
        fun _ => .inr (.inr ⟨_, rfl, by simp [pendingAssignments]⟩)⟩
      · exact (List.mem_cons.mp hin).resolve_left StatusEvent.noConfusion
      · exact List.mem_cons.trans (or_iff_right StatusEvent.noConfusion)
      · dsimp only [State.setHandler, State.setTerminationEvent]
        split
        · next hclosed =>
          refine .inr (.inr fun hrun => ?_)
          rw [hrun] at hclosed
          cases hclosed
        · exact .inl rfl
    | interrogate | other =>
      cases hs
      refine ⟨h.main.of_live hlive ⟨hl.1, hl.2⟩ Iff.rfl, List.nil_suffix, h.running,
        fun _ hx => (by cases hx), h.signalled,
        fun he => (h.pending he).imp_right fun hp => .inl ?_⟩
      exact hp.of_ne fun left hleft => by cases hpc.symm.trans hleft
  | assign left =>
    rw [hpc] at hs hhandler
    obtain ⟨hl, hlive⟩ := h.live fun hq => by
      rw [hq.handler] at hpc
      cases hpc
    cases left with
    | cons x left =>
      cases hs
      refine ⟨h.main.of_live hlive (hl.assignHandler (hhandler.mem List.mem_cons_self)) ?_,
        (List.suffix_cons x left).trans hhandler, h.running, fun _ hx => (by cases hx),
        fun he => h.signalled ((List.mem_cons.mp he).resolve_left StatusEvent.noConfusion),
        fun he => ?_⟩
      · exact List.mem_cons.trans (or_iff_right StatusEvent.noConfusion)
      · refine (h.pending ((List.mem_cons.mp he).resolve_left StatusEvent.noConfusion)).imp
          (List.mem_cons_of_mem _) fun hp => ?_
        exact hp.assign hpc (hhandler.mem List.mem_cons_self)
    | nil =>
      obtain rfl := hok hpc
      cases hs
      refine ⟨h.main.of_live hlive ⟨hl.1, hl.2⟩ Iff.rfl, trivial, fun hx => ?_, fun _ _ => rfl,
        h.signalled, fun he => (h.pending he).imp_right fun hp => .inl ?_⟩
      · have hx : s.status.dwCurrentState = .running := hx
        show s.status = _
        rw [hl.1, hx]
      · refine hp.of_ne fun left hleft => ?_
        obtain rfl := HandlerPc.assign.inj (hpc.symm.trans hleft)
        exact List.not_mem_nil

end Scm

/-! ## The service meanwhile -/

/-- `Run` does not start again. -/
theorem Goes.stopped {w w' : System} {a : SysAction} (m : Goes w a w')
    (h : w.service.run = .stopped) : w'.service.run = .stopped := by
  cases m with
  | serves m =>
    by_cases ha : a = .run
    · subst ha
      generalize w'.service = v' at m ⊢
      cases m with
      | issue hrun | issued hrun | refused hrun | got hrun | gotNone hrun | findNone hrun
      | find hrun | post hrun | setEvent hrun => cases hrun.symm.trans h
    · exact (m.run_of_ne ha).1.trans h
  | refuses m =>
    cases m with
    | issue hrun => cases hrun.symm.trans h
    | _ => exact h

/-- Once `Run` has returned, its thread makes no call into the driver of its own. -/
theorem Serves.run_step {d : Driver} {v v' : Service} {a : SysAction} {act : Action}
    (m : Serves d v a (some act) v') (h : v.run = .stopped) (ht : act.thread = some .run) :
    ∃ ok, act = .step .run ok := by
  cases m with
  | driver ha =>
    cases act with
    | step t ok =>
      obtain rfl := Option.some.inj ht
      exact ⟨ok, rfl⟩
    | call t c | leave t | cancelIrp t _ | cancelRequest t _ =>
      obtain rfl := Option.some.inj ht
      cases ha
    | userWrite | userWait => cases ht
  | issue hrun | issued hrun | refused hrun => cases hrun.symm.trans h
  | _ => cases ht

/-- …so it stays outside, or inside, but for what it calls in `CloseHandle`. -/
theorem Goes.run_idle {w w' : System} {a : SysAction} (m : Goes w a w')
    (h : w.service.run = .stopped) :
    w'.driver.calls .run = .idle ↔ w.driver.calls .run = .idle := by
  cases m with
  | refuses => exact Iff.rfl
  | @serves act _ m hd =>
    cases act with
    | none => rw [← Option.some.inj hd]
    | some act =>
      rcases Driver.step_moves hd with ⟨t, b', pc', hm, heq⟩ | ⟨_, _, -, heq⟩ | ⟨_, -, -, heq⟩
      · rw [heq]
        rcases eq_or_ne .run t with rfl | hne
        · obtain ⟨ok, rfl⟩ := m.run_step h hm.thread
          rw [Driver.put_calls_self]
          rcases hm.turns with ⟨⟨c, ha⟩, -⟩ | ⟨ha, -⟩ | ⟨-, hpc, hpc'⟩ | ⟨i, ha⟩ | ⟨r, ha⟩
          · cases ha
          · cases ha
          · exact iff_of_false hpc' hpc
          · cases ha
          · cases ha
        · rw [Driver.put_calls_of_ne _ hne]
      · rw [heq]
      · rw [heq]

namespace Shutdown

variable {s s' : Shutdown} {files : FileId → File} {plugins : List PluginId} {a : SysAction}
variable {q : PluginId} {C : Shutdown → ShutdownAction → Prop}

/-- A step of the system, and what it leaves. -/
theorem system_step (h : s.step (.system a q) = some s') :
    s.systemStep a = some s'.system ∧ s'.main = s.main ∧ s'.hFile = s.hFile ∧
      s'.terminationEvent = s.terminationEvent := by
  simp only [step] at h
  split at h
  · cases h
  split at h
  · split at h
    · obtain ⟨system, hs, rfl⟩ := Option.map_eq_some_iff.mp h
      exact ⟨hs, rfl, rfl, rfl⟩
    · cases h
  · obtain ⟨system, hs, rfl⟩ := Option.map_eq_some_iff.mp h
    exact ⟨hs, rfl, rfl, rfl⟩

/-- **On its way to the end** the service runs on the open handle until it closes that, and its
thread is outside the driver until then. -/
def OnTheWay (files : FileId → File) (s : Shutdown) : Prop := match s.main with
  | .run => s.hFile = true ∧ (s.system.service.run = .stopped ∧ s.system.driver.calls .run = .idle ∨
      (System.lts files).Reachable s.system)
  | .release _ | .close => s.hFile = true ∧ s.system.service.run = .stopped ∧
      s.system.driver.calls .run = .idle
  | .closing => s.system.service.run = .stopped ∧ s.system.driver.calls .run ≠ .idle
  | .done => True

/-- A thread that is outside the driver can go to `Bus_Cleanup`. -/
theorem driver_cleanup {d : Driver} {t : Tid} {file : FileObject} (h : d.calls t = .idle) :
    d.step (.call t (.cleanup file)) = some (d.put t (d.bus, .cleanup file)) := by
  simp [Driver.step, h, Bus.enter]

/-- The thread of `Run` is outside the driver where it waits for a request, or has returned. -/
theorem idle_of_reachable {w : System} {r : RqId} (h : (System.lts files).Reachable w)
    (hrun : w.service.run = .waiting r ∨ w.service.run = .stopped) :
    w.driver.calls .run = .idle := by
  refine (System.synced h).idle rfl ?_
  rcases hrun with hrun | hrun <;> rw [Service.inside, hrun] <;> rfl

/-- A step of the system leaves the service on its way. -/
theorem OnTheWay.system (h : s.OnTheWay files) (hs : s.step (.system a q) = some s') :
    s'.OnTheWay files := by
  obtain ⟨hsys, hmain, hfile, -⟩ := system_step hs
  have m := goes_of_systemStep hsys
  unfold OnTheWay at *
  rw [hmain, hfile]
  cases hm : s.main with
  | run =>
    rw [hm] at h
    refine ⟨h.1, ?_⟩
    rcases h.2 with ⟨hstop, hidle⟩ | hreach
    · exact .inl ⟨m.stopped hstop, (m.run_idle hstop).mpr hidle⟩
    · rw [systemStep, if_pos h.1] at hsys
      exact .inr (.step hreach trivial hsys)
  | release | close =>
    rw [hm] at h
    exact ⟨h.1, m.stopped h.2.1, (m.run_idle h.2.1).mpr h.2.2⟩
  | closing =>
    rw [hm] at h
    exact ⟨m.stopped h.1, (m.run_idle h.1).not.mpr h.2⟩
  | done => trivial

theorem onTheWay (h : (lts files plugins).Reach C s) : s.OnTheWay files := by
  have hinit : (lts files plugins).init.OnTheWay files := ⟨rfl, .inr .init⟩
  refine h.invariant (I := OnTheWay files) hinit fun s x s' _ hi _ hs => ?_
  cases x with
  | stop =>
    cases hs
    exact hi
  | system a q => exact hi.system hs
  | main =>
    have m : Steps s .main s' := steps_of_step hs
    unfold OnTheWay at hi
    cases m with
    | terminated hm hr =>
      rw [hm] at hi
      unfold OnTheWay
      simp only [hm]
      refine ⟨hi.1, .inl ⟨rfl, ?_⟩⟩
      rcases hi.2 with ⟨-, hidle⟩ | hreach
      · exact hidle
      · exact idle_of_reachable hreach (.inl hr)
    | returned hm hr =>
      rw [hm] at hi
      refine ⟨hi.1, hr, ?_⟩
      rcases hi.2 with ⟨-, hidle⟩ | hreach
      · exact hidle
      · exact idle_of_reachable (r := 0) hreach (.inr hr)
    | release hm | erase hm =>
      rw [hm] at hi
      exact hi
    | close hm hd =>
      rw [hm] at hi
      refine ⟨hi.2.1, ?_⟩
      obtain rfl := Option.some.inj ((driver_cleanup hi.2.2).symm.trans hd)
      simp
    | closed => trivial

end Shutdown

namespace Scm

variable {s s' : State} {files : FileId → File} {plugins : List PluginId}

/-- The service leaves the two threads where they are. -/
theorem AtMain.serve {shutdown : Shutdown} {pc : MainPc} (h : AtMain s pc) :
    AtMain { s with shutdown } pc := by
  have hq : Quiet s → Quiet { s with shutdown } := fun h => ⟨h.1, h.2, h.3⟩
  have hl : Live s → Live { s with shutdown } := fun h => ⟨h.1, h.2⟩
  cases pc with
  | assign stage left =>
    cases stage with
    | stop => exact ⟨hl h.1, h.2⟩
    | fill | fail | start => exact ⟨hq h.1, h.2⟩
  | serving | returned => exact ⟨hl h.1, h.2⟩
  | failed => exact hq h
  | openBusInterface | createEvents | registerPlugins | initRpc => exact ⟨hq h.1, h.2⟩

/-- **A step of the service keeps it.** -/
theorem Inv.serve_step {x : ShutdownAction} (h : Inv s) (hs : s.serveStep x = some s') :
    Inv s' := by
  unfold State.serveStep at hs
  split at hs
  case isFalse => cases hs
  case isTrue hadm =>
    obtain ⟨shutdown, hx, rfl⟩ := Option.map_eq_some_iff.mp hs
    refine ⟨h.main.serve, h.handler, h.running, h.synced, fun he => ?_, h.pending⟩
    cases x with
    | stop => cases hadm
    | main =>
      cases Shutdown.steps_of_step hx with
      | terminated => exact .inr (.inl rfl)
      | returned | release | erase | close | closed =>
        exact .inr (.inr VirtualDisk.MainPc.noConfusion)
    | system a q =>
      obtain ⟨hsys, hmain, -, hev⟩ := Shutdown.system_step hx
      rw [hmain, hev]
      exact (h.signalled he).imp_right (Or.imp_left (Shutdown.goes_of_systemStep hsys).stopped)

/-- **It holds in every state reached** by a run whose reports get through. -/
theorem inv (h : (lts files plugins).Reach Reports s) : Inv s := by
  refine h.invariant Inv.init fun s x s' _ hi hC hs => ?_
  cases x with
  | control opcode =>
    have hs : s.step (.control opcode) = some s' := hs
    simp only [State.step] at hs
    split at hs
    · next hidle =>
      split at hs
      · next hacc =>
        cases hs
        exact hi.control_step hidle hacc
      · cases hs
    · cases hs
  | main ok dwErr => exact hi.main_step hC hs
  | handler ok => exact hi.handler_step hC hs
  | serve x => exact hi.serve_step hs

/-- `ServiceMain` does nothing to the service itself. -/
theorem shutdown_mainStep {ok : Bool} {dwErr : ULONG} (hs : s.mainStep ok dwErr = some s') :
    s'.shutdown = s.shutdown := by
  unfold State.mainStep at hs
  split at hs
  all_goals first
    | (cases hs; rfl)
    | (cases ok <;> cases hs <;> rfl)
    | (split at hs <;> cases hs; rfl)

/-- `CtrlHandler` sets the event at most. -/
theorem shutdown_handlerStep {ok : Bool} (hs : s.handlerStep ok = some s') :
    s'.shutdown = s.shutdown ∨ s'.shutdown = { s.shutdown with terminationEvent := true } := by
  unfold State.handlerStep at hs
  split at hs
  all_goals first
    | (cases hs; exact .inl rfl)
    | (cases ok <;> cases hs <;> exact .inl rfl)
    | skip
  cases hs
  dsimp only [State.setHandler, State.setTerminationEvent]
  split
  · exact .inl rfl
  · exact .inr rfl

/-- The service under its manager is the service. -/
theorem shutdown_reachable {C : State → Action → Prop} (h : (lts files plugins).Reach C s) :
    (Shutdown.lts files plugins).Reachable s.shutdown := by
  refine h.image (U := Shutdown.lts files plugins) State.shutdown rfl fun s x s' _ _ hs => ?_
  cases x with
  | control opcode =>
    have hs : s.step (.control opcode) = some s' := hs
    simp only [State.step] at hs
    split at hs
    · split at hs <;> cases hs
      exact .inl rfl
    · cases hs
  | main ok dwErr => exact .inl (shutdown_mainStep hs)
  | handler ok =>
    refine (shutdown_handlerStep hs).imp_right fun heq => ⟨.stop, trivial, ?_⟩
    rw [heq]
    rfl
  | serve x =>
    have hs : s.serveStep x = some s' := hs
    unfold State.serveStep at hs
    split at hs
    · obtain ⟨shutdown, hx, rfl⟩ := Option.map_eq_some_iff.mp hs
      exact .inr ⟨x, trivial, hx⟩
    · cases hs

/-! ## At rest -/

/-- Steps of the two threads, of `Run` and `Terminate`, and of the threads inside the driver. -/
def Action.onward : Action → Bool
  | .main _ _ | .handler _ | .serve .main | .serve (.system .run _)
  | .serve (.system (.driver (.step _ _)) _) => true
  | _ => false

section AtRest

variable (hrest : (lts files plugins).AtRest (fun _ x => x.onward) s)

include hrest

/-- Where nothing goes on, `CtrlHandler` has returned. -/
theorem idle_of_atRest : s.handler = .idle := by
  have hnone : s.handlerStep true = none := hrest (.handler true) rfl
  unfold State.handlerStep at hnone
  split at hnone
  · assumption
  all_goals cases hnone

/-- …`ServiceMain` has returned, or is in `Run` or `Terminate`. -/
theorem serving_of_atRest (hlive : s.main.live = true) :
    s.main = .returned ∨ s.main = .serving ∧ s.shutdown.main ≠ .done := by
  have hnone : s.mainStep true 0 = none := hrest (.main true 0) rfl
  unfold State.mainStep at hnone
  cases hm : s.main with
  | returned => exact .inl rfl
  | serving =>
    refine .inr ⟨rfl, fun hdone => ?_⟩
    simp [hm, hdone] at hnone
  | assign stage left =>
    rw [hm] at hnone
    cases left with
    | nil => cases stage <;> cases hnone
    | cons => cases stage <;> cases hnone
  | failed | openBusInterface | createEvents | registerPlugins | initRpc =>
    rw [hm] at hlive
    cases hlive

/-- …and the service makes no step of its own. -/
theorem not_goes_of_atRest (hm : s.main = .serving) {x : ShutdownAction}
    (hx : (Action.serve x).onward = true) : s.shutdown.step x = none := by
  have hnone : s.serveStep x = none := hrest (.serve x) hx
  have hadm : s.main.admits x = true := by
    rw [hm]
    cases x with
    | stop => cases hx
    | main => rfl
    | system a q => cases a <;> rfl
  rw [State.serveStep, if_pos hadm] at hnone
  exact Option.map_eq_none_iff.mp hnone

/-- …so `Run` has returned, if it was told to. -/
theorem not_run_of_atRest (h : (lts files plugins).Reach Reports s) (hm : s.main = .serving)
    (hset : .setEvent ∈ s.log)
    (hcrash : ∀ irp, s.shutdown.system.driver.calls .run ≠ .crash irp) :
    s.shutdown.main ≠ .run := by
  intro hrun
  have hreach := shutdown_reachable h
  obtain ⟨hfile, hsystem⟩ : s.shutdown.hFile = true ∧
      (s.shutdown.system.service.run = .stopped ∧ s.shutdown.system.driver.calls .run = .idle ∨
        (System.lts files).Reachable s.shutdown.system) := by
    have hway := Shutdown.onTheWay hreach
    unfold Shutdown.OnTheWay at hway
    rwa [hrun] at hway
  have hmain : s.shutdown.mainStep = none := not_goes_of_atRest hrest hm (x := .main) rfl
  unfold Shutdown.mainStep at hmain
  simp only [hrun] at hmain
  have hnotstopped : s.shutdown.system.service.run ≠ .stopped := fun hstop => by
    simp [hstop] at hmain
  have hev : s.shutdown.terminationEvent = true :=
    ((inv h).signalled hset).resolve_right fun hx => hx.elim hnotstopped fun hx => hx hrun
  have hsys := hsystem.resolve_left fun hstop => hnotstopped hstop.1
  -- a step of the system is one of the service
  have hstep : ∀ {a : SysAction} {w : System}, (Action.serve (.system a 0)).onward = true →
      a.calls = false → s.shutdown.system.service.creates a = false →
      s.shutdown.system.step a ≠ some w := by
    intro a w ha hcalls hcreates hw
    have hnone : s.shutdown.step (.system a 0) = none := not_goes_of_atRest hrest hm ha
    simp [Shutdown.step, hcalls, hcreates, Shutdown.systemStep, hfile, hw] at hnone
  have hout : (s.shutdown.system.driver.calls .run).outside = true := by
    refine System.outside_of_stuck hsys (fun t hgo => ?_) rfl hcrash
    obtain ⟨d', hd⟩ := hgo true
    exact hstep rfl rfl rfl (System.driver_step hd)
  rcases (System.synced hsys).run_turn hout with ⟨w, hw⟩ | hstop | ⟨r, hwait, hc⟩
  · exact hstep rfl rfl rfl hw
  · exact hnotstopped hstop
  · simp [hwait, hev, hc] at hmain

/-- …nor is any left in the driver. -/
theorem not_canGo_of_atRest (hm : s.main = .serving) (t : Tid) :
    ¬ s.shutdown.system.driver.CanGo t := by
  intro hgo
  obtain ⟨d, hd⟩ := hgo true
  have hsys := System.driver_step hd
  have hnone : s.shutdown.step (.system (.driver (.step t true)) 0) = none :=
    not_goes_of_atRest hrest hm rfl
  simp [Shutdown.step, Shutdown.systemStep, SysAction.calls, Service.creates, Service.refused,
    hsys] at hnone

/-- …so `CloseHandle` waits for the last disk to go, if it has not returned. -/
theorem awaits_of_atRest (h : (lts files plugins).Reach Reports s) (hm : s.main = .serving)
    (hclosing : s.shutdown.main = .closing)
    (hcrash : ∀ irp, s.shutdown.system.driver.calls .run ≠ .crash irp) :
    s.shutdown.system.driver.calls .run = .cleanupWait ∧
      s.shutdown.system.driver.bus.fdo.cleanupReadyEvent = false := by
  have hreach := shutdown_reachable h
  have hway := Shutdown.onTheWay hreach
  unfold Shutdown.OnTheWay at hway
  rw [hclosing] at hway
  have hmain : s.shutdown.mainStep = none := not_goes_of_atRest hrest hm (x := .main) rfl
  have hin : (s.shutdown.system.driver.calls .run).inside = true := by
    cases hpc : s.shutdown.system.driver.calls .run
    case idle => exact absurd hpc hway.2
    case crash irp => exact absurd hpc (hcrash irp)
    case ret => simp [Shutdown.mainStep, hclosing, Driver.step, hpc] at hmain
    all_goals rfl
  refine ((Driver.held (Shutdown.driver_reachable hreach)).canGo hin).resolve_right ?_
  rintro ⟨t', -, hgo⟩
  exact not_canGo_of_atRest hrest hm t' hgo

end AtRest

/-- `ServiceMain` is in `CloseHandle`, where `Bus_FDO_Cleanup` waits for the last disk to go. -/
def AwaitsRemoval (s : State) : Prop :=
  s.main = .serving ∧ s.shutdown.main = .closing ∧
    s.shutdown.system.driver.calls .run = .cleanupWait ∧
    s.shutdown.system.driver.bus.fdo.cleanupReadyEvent = false

/-- **Every stop request is honoured, and reported unless it comes late**, as far as the driver lets
the service.  In every run whose reports get through: where a stop request has come, and no step of
the two threads, of `Run` and `Terminate` or of a thread inside the driver is left, and the thread
of `Run` was not lost in the driver, `CtrlHandler` has returned; and either `ServiceMain` has, and
the service was last reported to have stopped, with no error, or to be about to stop if
`CtrlHandler` assigned its state after `ServiceMain` had; or `ServiceMain` waits in the driver for
the last disk to go, and the service was last reported to be about to stop. -/
theorem stop_honoured (h : (lts files plugins).Reach Reports s)
    (hrest : (lts files plugins).AtRest (fun _ x => x.onward) s) (hset : .setEvent ∈ s.log)
    (hcrash : ∀ irp, s.shutdown.system.driver.calls .run ≠ .crash irp) :
    s.handler = .idle ∧
      (s.main = .returned ∧ s.reported = inState (if late s.log then .stopPending else .stopped) ∨
        AwaitsRemoval s ∧ s.reported = inState .stopPending) := by
  have hi := inv h
  have hidle := idle_of_atRest hrest
  obtain ⟨hl, hlive⟩ := hi.live fun hq => by
    obtain ⟨x, hx⟩ := hq.log _ hset
    cases hx
  refine ⟨hidle, ?_⟩
  rcases serving_of_atRest hrest hlive with hm | ⟨hserving, hdone⟩
  · have hin : assignedStopped ∈ s.log := (hm ▸ hi.main : AtMain s .returned).2
    refine .inl ⟨hm, ?_⟩
    rw [hi.synced (.inr hm) hidle, hl.1]
    rcases hl.2 hin with ⟨hstate, hlate⟩ | ⟨hstate, hlate⟩ <;> rw [hstate, hlate] <;> rfl
  · have hnotrun := not_run_of_atRest hrest h hserving hset hcrash
    have hnone : s.shutdown.mainStep = none := not_goes_of_atRest hrest hserving (x := .main) rfl
    have hway := Shutdown.onTheWay (shutdown_reachable h)
    have hclosing : s.shutdown.main = .closing := by
      unfold Shutdown.mainStep at hnone
      unfold Shutdown.OnTheWay at hway
      cases hmain : s.shutdown.main with
      | run => exact absurd hmain hnotrun
      | done => exact absurd hmain hdone
      | closing => rfl
      | close =>
        rw [hmain] at hway hnone
        simp [Shutdown.driver_cleanup hway.2.2] at hnone
      | release left => cases left <;> simp [hmain] at hnone
    refine .inr ⟨⟨hserving, hclosing, awaits_of_atRest hrest h hserving hclosing hcrash⟩, ?_⟩
    have hnotin : assignedStopped ∉ s.log := (hserving ▸ hi.main : AtMain s .serving).2
    have hstate := ((hi.pending hset).resolve_left hnotin).of_idle hidle
    rw [hi.synced (.inl hserving) hidle, hl.1, hstate]

/-! ## A stop request that is overtaken -/

/-- A service with no plugins. -/
abbrev plainLts : Lts State Action := lts (fun _ => ⟨0, fun _ => 0⟩) []

/-- The service starts and waits for a request; `CtrlHandler` sets the event, and goes on when
`ServiceMain` has returned. -/
def overtakenRun : List Action :=
  List.replicate 19 (.main true 0) ++
    (SysAction.run :: (steps .run 2).map .driver ++ [SysAction.run]).map
      (fun a => .serve (.system a 0)) ++
    [.control .stop, .handler true] ++ List.replicate 4 (.serve .main) ++
    (steps .run 5).map (fun a => .serve (.system (.driver a) 0)) ++ [.serve .main] ++
    List.replicate 5 (.main true 0) ++ List.replicate 5 (.handler true)

/-- The state after that. -/
def overtaken : State :=
  (plainLts.exec (fun _ _ => true) overtakenRun plainLts.init).getD plainLts.init

/-- Whether a report gets through in this step. -/
def reports (_ : State) : Action → Bool
  | .main ok _ | .handler ok => ok
  | _ => true

theorem overtaken_reachable : plainLts.Reach Reports overtaken := by
  refine Lts.Reach.exec (c := reports) (fun s x hx => ?_) overtakenRun .init rfl
  cases x with
  | main => exact fun _ => hx
  | handler => exact fun _ => hx
  | control | serve => trivial

theorem overtaken_atRest : plainLts.AtRest (fun _ x => x.onward) overtaken := by
  intro x hx
  cases x with
  | control => cases hx
  | main | handler => rfl
  | serve x =>
    cases x with
    | stop => cases hx
    | main => rfl
    | system a q =>
      cases a with
      | driver a =>
        cases a with
        | step t ok => cases t <;> rfl
        | _ => cases hx
      | run => rfl
      | _ => cases hx

/-- The service has stopped, and is reported to be about to. -/
theorem stop_honoured_overtaken : overtaken.handler = .idle ∧
    (overtaken.main = .returned ∧
        overtaken.reported = inState (if late overtaken.log then .stopPending else .stopped) ∨
      AwaitsRemoval overtaken ∧ overtaken.reported = inState .stopPending) :=
  stop_honoured overtaken_reachable overtaken_atRest (by decide) fun _ => Pc.noConfusion

end Scm

end VirtualDisk
