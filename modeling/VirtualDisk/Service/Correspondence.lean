import VirtualDisk.Service.Tokens

/-!
# Service/Correspondence — every reply answers its own request

Requests and replies are matched by the disk's id alone.  As long as requests are kept apart
(`System.Orderly`), that is enough: what a disk thread executes is the request of its own disk's
current IRP, on its own storage, and the reply that completes an IRP reports that execution.
-/

namespace VirtualDisk

open Machinery

variable {t : Tid} {a : Action} {b b' : Bus} {pc pc' : Pc} {p q : PdoId} {i j : IrpId}
variable {d d' : Driver} {v v' : Service} {pr : ProcId} {x : SysAction} {act : Option Action}

/-- **A reply reports a storage operation**: its code, its status, and its count where it has
one. -/
structure Reports (rep : BusenumReply) (e : Execution) : Prop where
  code : rep.code = e.code
  status : rep.status = if e.ok then statusSuccess else statusUnsuccessful
  numBytes : ∀ n, e.count = some n → rep.numBytes = n

/-- The reply that an event took for the IRP `i` of the disk `p`. -/
def Event.answers (p : PdoId) (i : IrpId) : Event → Option (Tagged BusenumReply)
  | .accept q j rep => if q = p ∧ j = i then some rep else none
  | _ => none

theorem Event.eq_of_answers {e : Event} {rep : Tagged BusenumReply}
    (h : e.answers p i = some rep) : e = .accept p i rep := by
  cases e with
  | accept q j rep' =>
    simp only [Event.answers] at h
    split at h
    · next hqj =>
      cases h
      rw [hqj.1, hqj.2]
    · cases h
  | _ => cases h

/-- Storage operations are performed by the disk threads. -/
theorem Serves.executions {e : Execution} (m : Serves d v x act v') (he : e ∈ v'.executions) :
    e ∈ v.executions ∨ ∃ result f, (v.procs e.proc).pc = .exec ∧
      v' = v.executed e.proc result f ∧ v'.executions = e :: v.executions := by
  cases m with
  | @execute pr out hpc hc =>
    rcases List.mem_cons.mp he with rfl | he
    · exact .inr ⟨_, _, hpc, rfl, rfl⟩
    · exact .inl he
  | final | undo => exact .inl (by simpa using he)
  | _ => exact .inl he

/-- The record of the storage operations only grows. -/
theorem Serves.executions_subset (m : Serves d v x act v') : v.executions ⊆ v'.executions := by
  intro e he
  cases m with
  | execute => exact List.mem_cons_of_mem _ he
  | final | undo => simpa using he
  | _ => exact he

/-- **A processor keeps its storage.** -/
theorem Serves.storage (m : Serves d v x act v') (hpr : pr < v.procCount) :
    (v'.procs pr).file = (v.procs pr).file ∧ (v'.procs pr).geometry = (v.procs pr).geometry := by
  cases m.proc pr with
  | keep h =>
    obtain ⟨_, _, h⟩ := h
    simp [h]
  | create heq => exact absurd (heq ▸ hpr) (Nat.lt_irrefl _)
  | post _ _ _ h | setEvent _ _ _ h | wake _ _ _ h | removed _ _ _ h | executeNone _ _ _ h
  | reply _ _ _ h | replied _ _ _ h => simp [h]
  | execute _ _ _ h =>
    obtain ⟨_, _, rfl⟩ := h
    simp
  | final _ _ h =>
    obtain ⟨_, h⟩ := h
    simp [h]

namespace System

/-- **A storage operation is the IRP's own**: what the IRP asks of its disk, on that disk's
storage. -/
structure Own (d : Driver) (v : Service) (p : PdoId) (i : IrpId) (e : Execution) : Prop where
  origin : e.origin = some (p, i)
  exists_pdo : p < d.bus.pdoCount
  arrived : (d.bus.irps i).arrived = true
  proc : e.proc = (d.bus.pdos p).buffer
  file : e.file = (v.procs e.proc).file
  code : e.code = (busSetupRequest (d.bus.pdos p) (d.bus.irps i).srb).code
  position : e.position = IoOutcome.position (busSetupRequest (d.bus.pdos p) (d.bus.irps i).srb)
    (v.procs e.proc).geometry
  length : e.length = IoOutcome.length (busSetupRequest (d.bus.pdos p) (d.bus.irps i).srb)
    (v.procs e.proc).geometry

/-- **Requests and replies correspond.** -/
structure Corresponds (d : Driver) (v : Service) : Prop where
  /-- Every storage operation is some IRP's own. -/
  executed : ∀ e ∈ v.executions, ∃ p i, Own d v p i e
  /-- Every reply that was taken for an IRP reports an operation that is that IRP's own. -/
  answered : ∀ p i rep, .accept p i rep ∈ d.bus.trace →
    ∃ e ∈ v.executions, Own d v p i e ∧ Reports rep.val e

/-- Some operation of this origin is reported. -/
def Backed (v : Service) (rep : Tagged BusenumReply) : Prop :=
  ∃ e ∈ v.executions, e.origin = rep.origin ∧ Reports rep.val e

/-- **What is known of the operations and of the replies under way.** -/
structure Answers (d : Driver) (v : Service) : Prop where
  executed : ∀ e ∈ v.executions, ∃ p i, Own d v p i e
  replies : ∀ pr, (v.procs pr).pc = .reply ∨
    (v.procs pr).pc = .replying ∧ d.calls (.disk pr) = .idle → Backed v (Service.reply (v.procs pr))
  carried : ∀ pr rep, (d.calls (.disk pr)).carries = some rep → Backed v rep
  accepted : ∀ p i rep, .accept p i rep ∈ d.bus.trace → rep.origin = some (p, i) ∧ Backed v rep

/-- Requests and replies correspond when what is known of them holds. -/
theorem Answers.toCorresponds (h : Answers d v) : Corresponds d v := by
  refine ⟨h.executed, ?_⟩
  intro p i rep he
  obtain ⟨ho, e, hmem, hoe, hrep⟩ := h.accepted p i rep he
  obtain ⟨q, j, hown⟩ := h.executed e hmem
  cases (hown.origin.symm.trans hoe).trans ho
  exact ⟨e, hmem, hown, hrep⟩

/-! ## Steps of the service -/

theorem Backed.mono {rep : Tagged BusenumReply} (h : Backed v rep)
    (m : Serves d v x act v') : Backed v' rep := by
  obtain ⟨e, he, h⟩ := h
  exact ⟨e, m.executions_subset he, h⟩

/-- An operation stays the IRP's own under the steps of the service. -/
theorem Own.serve {e : Execution} (h : Own d v p i e) (hr : Registry d v)
    (m : Serves d v x act v') : Own d v' p i e := by
  have hpr : e.proc < v.procCount := h.proc ▸ (hr.owner p h.exists_pdo).1
  obtain ⟨hf, hg⟩ := m.storage hpr
  exact { h with
    file := hf ▸ h.file
    position := hg ▸ h.position
    length := hg ▸ h.length }

/-- **What a disk thread executes is its own disk's.** -/
theorem own_executed {result : Bool × Option ULONG} {f : File} (h : Tokens d v)
    (hpc : (v.procs pr).pc = .exec) {e : Execution}
    (he : (v.executed pr result f).executions = e :: v.executions) :
    ∃ p i, Own d (v.executed pr result f) p i e := by
  obtain ⟨⟨p, i⟩, ho⟩ := Option.ne_none_iff_exists'.mp (h.executes pr hpc)
  obtain ⟨hp, hi, hval⟩ := h.mReq pr p i ho
  have hbuf := h.own pr (.disk pr) p i (.inr (.inl rfl)) ((token_exec hpc).trans ho)
  obtain rfl := (List.cons.inj he).1
  refine ⟨p, i, ho, hp, hi, hbuf.symm, ?_, ?_, ?_, ?_⟩
  · simp
  · rw [← hval]
  · rw [← hval]
    simp
  · rw [← hval]
    simp

/-- **A step of the service keeps what is known of the replies.** -/
theorem Answers.serve (h : Answers d v) (ht : Tokens d v) (hr : Registry d v) (ha : d.Arrived)
    (m : Serves d v x act v') : Answers d v' := by
  refine ⟨?_, ?_, fun pr rep hrep => (h.carried pr rep hrep).mono m,
    fun p i rep he => ⟨(h.accepted p i rep he).1, (h.accepted p i rep he).2.mono m⟩⟩
  · intro e he
    rcases m.executions he with hold | ⟨result, f, hpc, rfl, hcons⟩
    · obtain ⟨p, i, hown⟩ := h.executed e hold
      exact ⟨p, i, hown.serve hr m⟩
    · exact own_executed ht hpc hcons
  · intro pr hpc
    have hold := h.replies pr
    cases m.proc pr with
    | keep hp =>
      obtain ⟨_, _, hp⟩ := hp
      rw [hp] at hpc ⊢
      exact (hold hpc).mono m
    | create _ _ hp =>
      obtain ⟨_, _, _, -, hp⟩ := hp
      rw [hp] at hpc
      exact absurd hpc (by simp)
    | post _ hrun _ hp =>
      obtain ⟨-, hdisk⟩ := ht.free hr (show v.run.hands = some pr by rw [hrun]; rfl)
      obtain ⟨-, hreply, hidle⟩ := ht.not_exec hdisk
      rw [hp] at hpc
      rcases hpc with hpc | ⟨hpc, hc⟩
      · exact absurd hpc hreply
      · exact absurd hc (hidle hpc)
    | setEvent _ _ _ hp =>
      rw [hp] at hpc ⊢
      exact (hold hpc).mono m
    | wake _ _ _ hp | removed _ _ _ hp | replied _ _ _ hp =>
      rw [hp] at hpc
      exact absurd hpc (by simp)
    | execute _ _ _ hp =>
      obtain ⟨result, f, rfl⟩ := hp
      refine ⟨_, List.mem_cons_self, by simp [Service.reply], by simp [Service.reply], ?_, ?_⟩
      · simp [Service.reply]
      · intro n hn
        have hn : result.2 = some n := hn
        simp [Service.reply, hn]
    | executeNone _ hpc' hc =>
      exact absurd (code_of_genuine (ht.mReq pr) ha (ht.executes pr hpc')) hc
    | reply _ hpc' _ hp =>
      rw [hp]
      exact (hold (.inl hpc')).mono m
    | final _ _ hp =>
      obtain ⟨_, hp⟩ := hp
      rw [hp] at hpc
      exact absurd hpc (by simp)

/-! ## Moves of the driver -/

/-- An operation stays the IRP's own under the moves of the driver. -/
theorem Own.move {e : Execution} (h : Own d v p i e)
    (m : Moves t d.bus a (d.calls t) b' pc') : Own (d.put t (b', pc')) v p i e := by
  obtain ⟨hi, hcdb⟩ := m.cdb h.arrived
  obtain ⟨hs, -, -, hb, -⟩ := m.identity h.exists_pdo
  have hreq : busSetupRequest (b'.pdos p) (b'.irps i).srb =
      busSetupRequest (d.bus.pdos p) (d.bus.irps i).srb := busSetupRequest_congr hs hcdb
  exact {
    origin := h.origin
    exists_pdo := Nat.lt_of_lt_of_le h.exists_pdo m.pdoCount_le
    arrived := hi
    proc := h.proc.trans hb.symm
    file := h.file
    code := h.code.trans (congrArg BusenumRequest.code hreq.symm)
    position := by rw [Driver.put_bus, hreq]; exact h.position
    length := by rw [Driver.put_bus, hreq]; exact h.length }

/-- The reply that is taken for an IRP was made for it. -/
theorem Tokens.origin_of_accept (h : Tokens d v) (hc : Calling d v)
    (hs : Driver.Serial d.bus p) {rep : Tagged BusenumReply} (hpc : d.calls t = .replyTake p rep)
    (hi : (d.bus.pdos p).currentIrp = some i) :
    rep.origin = some (p, i) ∧ ∃ pr, t = .disk pr := by
  have hcar : (d.calls t).carries = some rep := by rw [hpc]; rfl
  obtain ⟨pr, rfl, hproc⟩ := hc.carries t rep hcar
  obtain ⟨j, hj⟩ := h.takes pr p rep hpc
  rcases (h.flow.live _ p j ((token_carries hproc hcar).trans hj)).2 with hd | hcur
  · cases hi.symm.trans (hs.idle hd)
  · obtain rfl := Option.some.inj (hi.symm.trans hcur)
    exact ⟨hj, pr, rfl⟩

/-- **A move of a thread keeps what is known of the replies.** -/
theorem Answers.move (h : Answers d v) (ht : Tokens d v) (hc : Calling d v)
    (hs : ∀ p, Driver.Serial d.bus p) (ha : Makes v a)
    (m : Moves t d.bus a (d.calls t) b' pc') : Answers (d.put t (b', pc')) v := by
  refine ⟨?_, ?_, ?_, ?_⟩
  · intro e he
    obtain ⟨p, i, hown⟩ := h.executed e he
    exact ⟨p, i, hown.move m⟩
  · rintro pr (hpc | ⟨hpc, hidle⟩)
    · exact h.replies pr (.inl hpc)
    · by_cases hpr : t = .disk pr
      · subst hpr
        obtain rfl := m.leaves ((Driver.put_calls_self ..).symm.trans hidle)
        exact absurd (hpc.symm.trans ha) (by decide)
      · rw [Driver.put_calls_of_ne d (fun heq => hpr heq.symm)] at hidle
        exact h.replies pr (.inr ⟨hpc, hidle⟩)
  · intro pr rep hrep
    by_cases hpr : t = .disk pr
    · subst hpr
      rw [Driver.put_calls_self] at hrep
      rcases m.carries hrep with ⟨rfl, -⟩ | ⟨hfind, -⟩
      · obtain ⟨hpc, heq⟩ := ha
        cases heq
        exact h.replies pr (.inr ⟨hpc, m.calls⟩)
      · exact h.carried pr rep (by rw [hfind]; rfl)
    · rw [Driver.put_calls_of_ne d (fun heq => hpr heq.symm)] at hrep
      exact h.carried pr rep hrep
  · intro p i rep he
    rcases m.accepts he with he | ⟨hpc, hi⟩
    · exact h.accepted p i rep he
    · obtain ⟨ho, pr, rfl⟩ := ht.origin_of_accept hc (hs p) hpc hi
      exact ⟨ho, h.carried pr rep (by rw [hpc]; rfl)⟩

variable {s : System} {files : FileId → File}

/-- The driver of a system makes no late starts. -/
theorem driver_noLateStart (h : (lts files).Reach Orderly s) :
    Driver.lts.Reach Driver.NoLateStart s.driver :=
  driver_reach (fun _ _ _ _ _ hC m => noLateStart_of_serves hC.noLateStart m) h

/-- **What is known of the replies holds** in every run of orderly steps. -/
theorem answers (h : (lts files).Reach Orderly s) : Answers s.driver s.service := by
  refine invariant ?_ ?_ ?_ h
  · refine ⟨?_, ?_, ?_, ?_⟩
    · rintro e ⟨⟩
    · rintro pr (⟨⟨⟩⟩ | ⟨⟨⟩, -⟩)
    · rintro pr rep ⟨⟩
    · rintro p i rep ⟨⟩
  · intro s x act v' d' hr _ hi m _
    exact hi.serve (tokens hr) (registry hr) (Driver.arrived (driver_reachable hr)) m
  · intro s x act v' d' hr hC hv m hd
    have ht := serve_tokens hr hC (tokens hr) m hd
    rcases Driver.step_moves hd with ⟨t, b', pc', hm, rfl⟩ | ⟨n, f, -, rfl⟩ | ⟨e, -, -, rfl⟩
    · exact hv.move ht ((calling hr).serve m) (Driver.serial (driver_noLateStart hr)) m.makes hm
    · refine ⟨fun e he => ?_, hv.2, hv.3, hv.4⟩
      obtain ⟨p, i, ho⟩ := hv.executed e he
      exact ⟨p, i, ho.1, ho.2, ho.3, ho.4, ho.5, ho.6, ho.7, ho.8⟩
    · refine ⟨fun e he => ?_, hv.2, hv.3, hv.4⟩
      obtain ⟨p, i, ho⟩ := hv.executed e he
      exact ⟨p, i, ho.1, ho.2, ho.3, ho.4, ho.5, ho.6, ho.7, ho.8⟩

/-! ## Runs -/

/-- Whether a step is orderly. -/
def orderly (s : System) : SysAction → Bool
  | .driver a => a.keepsRequests && match a with
    | .step t true => (s.driver.calls t).starts.all fun p => !(s.driver.bus.pdos p).drained
    | _ => true
  | .rpc k _ => match s.service.rpcs k with
    | .insert _ => (searching s.driver s.service).isNone
    | _ => true
  | _ => true

theorem orderly_sound (s : System) (x : SysAction) (h : orderly s x = true) : Orderly s x := by
  cases x with
  | driver a =>
    simp only [orderly, Bool.and_eq_true] at h
    refine ⟨h.1, trivial, ?_⟩
    have hstart := h.2
    cases a with
    | step t ok =>
      cases ok with
      | true =>
        intro p hp
        simpa [hp] using hstart
      | false => trivial
    | _ => trivial
  | rpc k ok =>
    refine ⟨trivial, ?_, trivial⟩
    intro pr hk _ q hq
    simp [orderly, hk, hq] at h
  | _ => exact ⟨trivial, trivial, trivial⟩

/-- A system whose files have eight blocks. -/
abbrev blockLts : Lts System SysAction := lts fun _ => ⟨4096, fun _ => 0⟩

/-- The Run loop hands its request to the processor, which executes it and calls `SendReply`. -/
def serveRun (pr : ProcId) (out : IoOutcome) : List SysAction :=
  List.replicate 4 .run ++ List.replicate 3 (.disk pr out)

/-- …and returns, with no further request waiting. -/
def answerRun (pr : ProcId) (out : IoOutcome) : List SysAction :=
  serveRun pr out ++ (steps (.disk pr) 6).map .driver ++ [.disk pr out]

/-- A disk is ejected, reported missing and destroyed, and its thread removes its processor. -/
def removeRun (p : PdoId) (pr : ProcId) : List SysAction :=
  (routine (.sys 0) (.pdoPnp p .eject) 1 ++ routine (.sys 0) (.queryRelations none) 2 ++
    routine (.sys 0) (.pdoRemove p) 10).map .driver ++ List.replicate 2 (.disk pr .complete)

/-- A READ passes the test of the disk's state; the disk is destroyed up to its unmapping, and the
READ is started for the next GET_REQUEST. -/
def lateRun : List SysAction :=
  ((Action.call (.sys 1) (.scsi 0 1 readSrb) :: steps (.sys 1) 2) ++
    routine (.sys 0) (.pdoPnp 0 .eject) 1 ++ routine (.sys 0) (.queryRelations none) 2 ++
    .call (.sys 0) (.pdoRemove 0) :: steps (.sys 0) 4).map .driver ++
  .run :: (steps .run 1 ++ steps (.sys 1) 3).map .driver

end System

end VirtualDisk
