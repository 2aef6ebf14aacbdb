import VirtualDisk.Service.Faultless

/-!
# Service/Executions — every request that is handed out is executed once

In a faultless run the Run loop asks for one request at a time, so a packet that is started is the
one it waits for.  From there a request passes from stage to stage until its reply is taken: none is
dropped on the way, and the stage at which it is executed is behind it for good.
-/

namespace VirtualDisk

open Machinery

variable {t : Tid} {a : Action} {b b' : Bus} {pc pc' : Pc} {p q : PdoId} {i j : IrpId} {r : RqId}
variable {d d' : Driver} {v v' : Service} {pr : ProcId} {x : SysAction} {act : Option Action}

namespace Moves

/-- A GET_REQUEST IRP comes into a thread's hands when it is sent, or from the queue. -/
theorem rqHand_of (m : Moves t b a pc b' pc') (hr : r ∈ pc'.rqHand) :
    r ∈ pc.rqHand ∨ r ∈ b.fdo.requestQueue ∨ pc' = .getInsert r := by
  cases m
  case callGetRequest =>
    obtain rfl := List.mem_singleton.mp hr
    exact .inr (.inr rfl)
  case startRequest h | nextRequest h | cleanupDrain h =>
    obtain rfl := List.mem_singleton.mp hr
    exact .inr (.inl (Bus.mem_of_peekRequest h))
  all_goals first
    | exact .inl hr
    | exact absurd hr List.not_mem_nil
    | (rw [Pc.rqHand_nextReturn] at hr; exact absurd hr List.not_mem_nil)
    | (rw [Pc.rqHand_destroyReturn] at hr; exact absurd hr List.not_mem_nil)

/-- It is queued by the thread that has it in hand. -/
theorem requestQueue_of (m : Moves t b a pc b' pc') (hr : r ∈ b'.fdo.requestQueue) :
    r ∈ b.fdo.requestQueue ∨ r ∈ pc.rqHand := by
  cases m.rqEntry with
  | keep _ hq | arrive _ _ _ hq | fill _ _ hq | drop _ _ hq => exact .inl (hq ▸ hr)
  | enqueue x hh hq =>
    rw [hq, List.mem_append, List.mem_singleton] at hr
    exact hr.imp_right fun h => by simp [hh, h]
  | dequeue x _ _ hq | cancel x _ hq => exact .inl (List.mem_of_mem_erase (hq ▸ hr))

/-- A packet is started with the GET_REQUEST IRP and the IRP in hand. -/
theorem starts (m : Moves t b a pc b' pc') (hs : pc.starts = some p) (ha : a = .step t true) :
    ∃ r i, r ∈ pc.rqHand ∧ pc.bears = some (p, i) ∧ b' = b.startIrp p r i := by
  subst ha
  cases m
  case startSetup r i | nextSetup r i k =>
    cases hs
    exact ⟨_, _, List.mem_singleton_self _, rfl, rfl⟩
  all_goals cases hs

end Moves

/-- **What a step of the service does to the files**: nothing, unless it is an execution. -/
theorem Serves.execution (m : Serves d v x act v') :
    (v'.executions = v.executions ∧ v'.files = v.files) ∨
    ∃ pr out, x = .disk pr out ∧ (v.procs pr).pc = .exec ∧
      act = some (.userWrite pr (out.perform (v.procs pr).mReq.val (v.procs pr).geometry
        (d.bus.memory pr) (v.files (v.procs pr).file)).2.1) ∧
      v' = v.executed pr (out.perform (v.procs pr).mReq.val (v.procs pr).geometry
        (d.bus.memory pr) (v.files (v.procs pr).file)).1
        (out.perform (v.procs pr).mReq.val (v.procs pr).geometry (d.bus.memory pr)
          (v.files (v.procs pr).file)).2.2 := by
  cases m with
  | execute hpc hc => exact .inr ⟨_, _, rfl, hpc, rfl, rfl⟩
  | final | undo => exact .inl (by simp)
  | _ => exact .inl ⟨rfl, rfl⟩

namespace System

variable {s : System} {files : FileId → File}

/-! ## One GET_REQUEST at a time -/

/-- **The only GET_REQUEST IRP that is not filled is the Run loop's.** -/
structure Asking (d : Driver) (v : Service) : Prop where
  hand : ∀ t, ∀ r ∈ (d.calls t).rqHand, v.run = .issuing r ∨ v.run = .waiting r
  queue : ∀ r ∈ d.bus.fdo.requestQueue, v.run = .issuing r ∨ v.run = .waiting r
  asks : (d.calls .run).asks = true

/-- The Run loop is not refused. -/
theorem Asking.pending {status : NTSTATUS} (h : Asking d v) (hret : d.calls .run = .ret status) :
    status = statusPending := by
  have hasks := h.asks
  rw [hret] at hasks
  simpa [Pc.asks] using hasks

/-- A GET_REQUEST IRP that is filled is in nobody's hands, nor on the queue. -/
theorem not_filled (ho : d.RqOwned) (hr : (d.bus.requests r).systemBuffer ≠ none) :
    (∀ t, r ∉ (d.calls t).rqHand) ∧ r ∉ d.bus.fdo.requestQueue := by
  have hfilled : r ∈ d.holdsRq .filled := (ho.filled r).mp hr
  refine ⟨fun t ht => ?_, fun hq => ?_⟩
  · have ht : r ∈ d.holdsRq (.hand t) := ht
    cases ho.ledger.unique ht hfilled
  · have hq : r ∈ d.holdsRq .queue := hq
    cases ho.ledger.unique hq hfilled

/-- A step of the service keeps the GET_REQUEST IRPs the Run loop's. -/
theorem Asking.serve (h : Asking d v) (ho : d.RqOwned) (hf : d.Fills) (hw : Waits d v)
    (m : Serves d v x act v') : Asking d v' := by
  have hkeep : (∀ r, (∃ t, r ∈ (d.calls t).rqHand) ∨ r ∈ d.bus.fdo.requestQueue →
      v.run = .issuing r ∨ v.run = .waiting r → v'.run = .issuing r ∨ v'.run = .waiting r) →
      Asking d v' := fun hrun =>
    ⟨fun t r hr => hrun r (.inl ⟨t, hr⟩) (h.hand t r hr),
      fun r hr => hrun r (.inr hr) (h.queue r hr), h.asks⟩
  refine hkeep fun r hr hrun => ?_
  by_cases hx : x = .run
  · subst hx
    cases m with
    | issued hr' =>
      rcases hrun with hrun | hrun <;> cases hr'.symm.trans hrun
      exact .inr rfl
    | refused _ hret hs => exact absurd (h.pending hret) hs
    | @got r' hr' hc hs =>
      obtain rfl : r' = r := by
        rcases hrun with hrun | hrun <;> cases hr'.symm.trans hrun
        rfl
      obtain ⟨hhand, hqueue⟩ := not_filled ho (hf.succeeded r' hc hs)
      rcases hr with ⟨t, hr⟩ | hr
      · exact absurd hr (hhand t)
      · exact absurd hr hqueue
    | gotNone hr' _ hs => exact absurd (hw.waiting _ hr') hs
    | issue hr' | findNone hr' | find hr' | post hr' | setEvent hr' =>
      rcases hrun with hrun | hrun <;> cases hr'.symm.trans hrun
  · rwa [(m.run_of_ne hx).1]

/-- A move of a thread keeps them, too. -/
theorem Asking.move (h : Asking d v) (hi : d.InService) (hi' : (d.put t (b', pc')).InService)
    (hc : Calling (d.put t (b', pc')) v) (hC : d.Regular a = true) (ha : Makes v a)
    (m : Moves t d.bus a (d.calls t) b' pc') : Asking (d.put t (b', pc')) v := by
  refine ⟨?_, ?_, ?_⟩
  · refine forall_update (L := fun (_ : Tid) (pc : Pc) => ∀ r ∈ pc.rqHand,
      v.run = .issuing r ∨ v.run = .waiting r) ?_ fun t₂ _ => h.hand t₂
    intro r hr
    rcases m.rqHand_of hr with hr | hr | rfl
    · exact h.hand t r hr
    · exact h.queue r hr
    · exact .inl (hc.getInsert t r (Driver.put_calls_self ..)).2
  · intro r hr
    rcases m.requestQueue_of hr with hr | hr
    · exact h.queue r hr
    · exact h.hand t r hr
  · by_cases ht : t = .run
    · subst ht
      rw [Driver.put_calls_self]
      have hallows : (d.calls .run).allows a = true := by
        simpa [Driver.Regular, m.thread] using hC
      have hpc' : pc'.regular = true := by
        have hreg := hi'.pc .run
        rwa [Driver.put_calls_self] at hreg
      refine m.asks hallows hpc' ?_ ?_ h.asks
      · rw [hi.fdo]
        decide
      · rintro c rfl
        obtain ⟨r, -, hcr⟩ := ha
        exact ⟨r, 0, hcr⟩
    · rw [Driver.put_calls_of_ne d (Ne.symm ht)]
      exact h.asks

/-- **The Run loop asks for one request at a time**, in every faultless run. -/
theorem asking (h : (lts files).Reach Faultless s) : Asking s.driver s.service := by
  refine invariant ?_ ?_ ?_ h
  · refine ⟨?_, ?_, rfl⟩
    · rintro t r ⟨⟩
    · rintro r ⟨⟩
  · intro s x act v' d' hr _ hi m _
    have hd := driver_reachable hr
    have hw := waits ((orderly_of_faultless hr).mono fun _ _ _ _ hC => hC.keepsRequests)
    exact hi.serve (Driver.rqOwned hd) (Driver.fills hd) hw m
  · intro s x act v' d' hr hC hv m hd
    have hreg := regular_of_serves hr hC m
    have hdr := driver_regular hr
    have hi := Driver.inService hdr
    have hi' := Driver.inService (hdr.step hreg hd)
    rcases Driver.step_moves hd with ⟨t, b', pc', hm, rfl⟩ | ⟨n, f, -, rfl⟩ | ⟨e, -, -, rfl⟩
    · exact hv.move hi hi' (((calling hr).serve m).move hm m.makes) hreg m.makes hm
    · exact ⟨hv.1, hv.2, hv.3⟩
    · exact ⟨hv.1, hv.2, hv.3⟩

/-! ## No request is lost -/

/-- **No request is lost**: the current IRP of a disk is the request of some stage. -/
def Carried (d : Driver) (v : Service) : Prop :=
  ∀ p i, (d.bus.pdos p).currentIrp = some i → ∃ k, token d v k = some (p, i)

/-- A token of a processor is the token of one that exists. -/
theorem Tokens.lt_of_token (h : Tokens d v) (hr : Registry d v) {k : Stage}
    (hk : k = .posted pr ∨ k = .disk pr) (ht : token d v k = some (p, i)) : pr < v.procCount := by
  have hbuf := h.own pr k p i (hk.imp_right .inl) ht
  exact hbuf ▸ (hr.owner p (h.flow.live k p i ht).1).1

/-- **A step of another thread of the service takes every token along.** -/
theorem Tokens.onward_of_ne (h : Tokens d v) (hr : Registry d v) (ha : d.Arrived)
    (m : Serves d v x act v') (hd : perform d act = some d') (hx : x ≠ .run) {k : Stage}
    (ht : token d v k = some (p, i)) : ∃ k', token d v' k' = some (p, i) := by
  cases k with
  | run => exact ⟨.run, (h.token_run_of_ne hr m hx).trans ht⟩
  | posted pr =>
    rcases token_posted_step (m.proc pr) hx with heq | ⟨-, ⟨-, he, hp⟩ | hpr⟩
    · exact ⟨.posted pr, heq.trans ht⟩
    · refine ⟨.disk pr, ?_⟩
      rw [token_exec (by rw [hp]), hp]
      exact (token_posted_of he).symm.trans ht
    · exact absurd (hpr ▸ h.lt_of_token hr (.inl rfl) ht) (Nat.lt_irrefl _)
  | disk pr =>
    have hsame : token d v' (.disk pr) = token d v (.disk pr) →
        ∃ k', token d v' k' = some (p, i) := fun heq => ⟨_, heq.trans ht⟩
    cases m.proc pr with
    | keep hp =>
      obtain ⟨_, _, hp⟩ := hp
      exact hsame (by simp [token, hp])
    | create hpr => exact absurd (hpr ▸ h.lt_of_token hr (.inr rfl) ht) (Nat.lt_irrefl _)
    | post hrun | setEvent hrun => exact absurd hrun hx
    | wake _ hpc | removed _ hpc => simp [token, hpc] at ht
    | execute _ _ hpc hp =>
      obtain ⟨_, _, rfl⟩ := hp
      refine hsame ?_
      rw [token_exec hpc]
      simp [token]
    | executeNone _ hpc hc => exact absurd (code_of_genuine (h.mReq pr) ha (h.executes pr hpc)) hc
    | reply _ hpc hact hp =>
      refine hsame ?_
      rw [token_reply hpc, token_replying (by rw [hp]) (idle_of_call (hact ▸ hd)), hp]
    | replied _ hpc hret =>
      obtain ⟨status, hret⟩ := hret
      simp [token, hpc, hret, Pc.carries] at ht
    | final _ hpc => simp [token, hpc] at ht

/-- …and so does a step of the Run loop. -/
theorem Tokens.onward_of_run (h : Tokens d v) (hr : Registry d v) (hf : d.Fills) (hw : Waits d v)
    (hask : Asking d v) (hi : d.InOrder) (hdr : d.Drained) (hq : d.bus.Genuine v.req)
    (m : Serves d v .run act v') {k : Stage} (ht : token d v k = some (p, i)) :
    ∃ k', token d v' k' = some (p, i) := by
  by_cases hk : k = .run
  · subst hk
    cases m with
    | issue hrun => simp [token, hrun] at ht
    | issued hrun => exact ⟨.run, by simpa [token, hrun] using ht⟩
    | refused _ hret hs => exact absurd (hask.pending hret) hs
    | @got r hrun hc hs =>
      obtain ⟨q, hqr⟩ := Option.ne_none_iff_exists'.mp (hf.succeeded r hc hs)
      exact ⟨.run, by simpa [token, hrun, hqr] using ht⟩
    | gotNone hrun _ hs => exact absurd (hw.waiting _ hrun) hs
    | findNone hrun hm =>
      have ho : v.req.origin = some (p, i) := by simpa [token, hrun] using ht
      rw [diskMap_of_genuine hr hi hdr hq ho] at hm
      cases hm
    | find hrun | post hrun => exact ⟨.run, by simpa [token, hrun] using ht⟩
    | @setEvent pr hrun => exact ⟨.posted pr, by simpa [token, hrun] using ht⟩
  · have hsame : v'.procs = v.procs → ∃ k', token d v' k' = some (p, i) := fun hp =>
      ⟨k, (token_eq_of_procs hp k hk).trans ht⟩
    -- a request is handed to a processor that has none
    have hfree : ∀ {pr}, v.run.hands = some pr → k ≠ .posted pr ∧ k ≠ .disk pr := by
      intro pr hrun
      obtain ⟨he, hdisk⟩ := h.free hr hrun
      constructor
      · rintro rfl
        simp [token, he] at ht
      · rintro rfl
        cases hdisk.symm.trans ht
    have hother : ∀ {pr}, k ≠ .posted pr ∧ k ≠ .disk pr →
        (∀ pr', pr' ≠ pr → v'.procs pr' = v.procs pr') → ∃ k', token d v' k' = some (p, i) := by
      intro pr hne hp
      refine ⟨k, Eq.trans ?_ ht⟩
      cases k with
      | run => exact absurd rfl hk
      | posted pr' =>
        have heq := hp pr' fun heq => hne.1 (congrArg _ heq)
        exact token_posted_congr (by rw [heq]) (by rw [heq])
      | disk pr' =>
        have heq := hp pr' fun heq => hne.2 (congrArg _ heq)
        exact token_disk_congr (by rw [heq]) (by rw [heq]) (by rw [heq])
    cases m with
    | @post pr hrun =>
      exact hother (hfree (show v.run.hands = some pr by rw [hrun]; rfl)) fun pr' hne => by
        simp [hne]
    | @setEvent pr hrun =>
      exact hother (hfree (show v.run.hands = some pr by rw [hrun]; rfl)) fun pr' hne => by
        simp [hne]
    | issue | issued | refused | got | gotNone | findNone | find => exact hsame rfl

/-- A move leaves the Run loop its request: the GET_REQUEST IRP it is in is not filled again. -/
theorem Tokens.onward_run (ho : d.RqOwned) (hask : Asking d v)
    (m : Moves t d.bus a (d.calls t) b' pc') (ht : token d v .run = some (p, i)) :
    token (d.put t (b', pc')) v .run = some (p, i) := by
  have hkeep : ∀ r, v.run = .issuing r ∨ v.run = .waiting r →
      (d.bus.requests r).systemBuffer ≠ none →
      (b'.requests r).systemBuffer = (d.bus.requests r).systemBuffer := by
    intro r hrun hr
    rcases m.systemBuffer (r := r) with heq | ⟨q, j, hs, ha, -, -⟩
    · exact heq
    · obtain ⟨r', -, hr', -, -⟩ := m.starts hs ha
      obtain rfl : r' = r := by
        rcases hask.hand t r' hr' with hrun' | hrun' <;> rcases hrun with hrun | hrun <;>
          cases hrun.symm.trans hrun'
        · rfl
        · rfl
      exact absurd hr' ((not_filled ho hr).1 t)
  simp only [token] at ht ⊢
  split at ht
  · next r hrun =>
    rw [Driver.put_bus, hkeep r (.inl hrun) fun hn => by simp [hn] at ht]
    exact ht
  · next r hrun =>
    rw [Driver.put_bus, hkeep r (.inr hrun) fun hn => by simp [hn] at ht]
    exact ht
  · exact ht
  · exact ht
  · exact ht
  · exact ht
  · exact ht

/-- **A disk thread keeps its token until its reply is taken.** -/
theorem Tokens.onward_disk (h : Tokens d v) (hfdo : d.bus.fdo.devicePnPState = .started)
    (hcount : d.bus.fdo.numPDOs = d.bus.fdo.listOfPDOs.length)
    (hp : p ∈ d.bus.fdo.listOfPDOs) (ha : Makes v a)
    (m : Moves (.disk pr) d.bus a (d.calls (.disk pr)) b' pc')
    (ht : token d v (.disk pr) = some (p, i)) (hcur : (b'.pdos p).currentIrp = some i) :
    token (d.put (.disk pr) (b', pc')) v (.disk pr) = some (p, i) := by
  by_cases hpc : (v.procs pr).pc = .replying
  · cases hcall : d.calls (.disk pr) with
    | idle =>
      rw [token_replying hpc hcall] at ht
      rw [hcall] at m
      cases m with
      | callSendReply =>
        obtain ⟨-, hc⟩ := ha
        cases hc
        rw [token_carries hpc (show Pc.carries _ = some _ by rw [Driver.put_calls_self]; rfl)]
        exact ht
      | callSendReplyDeleted hd => cases hfdo.symm.trans hd
      | cancelNone | cancelCsq | cancelBus | cancelRequestNone | cancelRequestArmed =>
        exact ha.elim
      | _ => cases ha.2
    | replyFind rep =>
      have hcar : (d.calls (.disk pr)).carries = some rep := by rw [hcall]; rfl
      have horigin : rep.origin = some (p, i) := (token_carries hpc hcar).symm.trans ht
      obtain ⟨p', i', ho, -, hhandle⟩ := h.carries pr rep hcar
      cases horigin.symm.trans ho
      rw [hcall] at m
      cases m with
      | replyFindEmpty _ hn =>
        rw [hcount, List.length_eq_zero_iff] at hn
        rw [hn] at hp
        cases hp
      | replyFindNone _ hn =>
        rw [Bus.findPdo, List.find?_eq_none] at hn
        exact absurd hhandle.symm (by simpa using hn p hp)
      | replyFind =>
        rw [token_carries hpc (show Pc.carries _ = some _ by rw [Driver.put_calls_self]; rfl)]
        exact horigin
    | replyTake q rep =>
      have hcar : (d.calls (.disk pr)).carries = some rep := by rw [hcall]; rfl
      have horigin : rep.origin = some (p, i) := (token_carries hpc hcar).symm.trans ht
      obtain ⟨i', hi'⟩ := h.takes pr q rep hcall
      cases horigin.symm.trans hi'
      rw [hcall] at m
      cases m with
      | replyTakeNone _ hn => cases hcur.symm.trans hn
      | replyTakeCancelled | replyTake => simp at hcur
    | _ => simp [token, hpc, hcall, Pc.carries] at ht
  · simp only [token] at ht ⊢
    split at ht <;> first | exact ht | exact absurd (by assumption) hpc

/-- **A move of a thread leaves every token where it is**, until its reply is taken. -/
theorem Tokens.onward_move (h : Tokens d v) (ho : d.RqOwned) (hask : Asking d v)
    (hfdo : d.bus.fdo.devicePnPState = .started)
    (hcount : d.bus.fdo.numPDOs = d.bus.fdo.listOfPDOs.length)
    (hp : p ∈ d.bus.fdo.listOfPDOs) (ha : Makes v a)
    (m : Moves t d.bus a (d.calls t) b' pc') {k : Stage} (ht : token d v k = some (p, i))
    (hcur : (b'.pdos p).currentIrp = some i) :
    token (d.put t (b', pc')) v k = some (p, i) := by
  cases k with
  | run => exact onward_run ho hask m ht
  | posted pr => exact ht
  | disk pr =>
    by_cases htr : t = .disk pr
    · subst htr
      exact h.onward_disk hfdo hcount hp ha m ht hcur
    · simpa only [token, Driver.put_calls_of_ne d (Ne.symm htr)] using ht

/-- **A packet that is started is the Run loop's request.** -/
theorem Asking.token_started (h : Asking d v) (m : Moves t d.bus a (d.calls t) b' pc')
    (hs : (d.calls t).starts = some p) (ha : a = .step t true)
    (hcur : (b'.pdos p).currentIrp = some i) :
    token (d.put t (b', pc')) v .run = some (p, i) := by
  obtain ⟨r, j, hr, -, rfl⟩ := m.starts hs ha
  obtain rfl : j = i := by simpa using hcur
  rcases h.hand t r hr with hrun | hrun <;> simp [token, hrun]

/-- **No request is lost**, in every faultless run. -/
theorem carried (h : (lts files).Reach Faultless s) : Carried s.driver s.service := by
  refine invariant ?_ ?_ ?_ h
  · rintro p i ⟨⟩
  · intro s x act v' d' hr _ hi m hd p i hcur
    have hdr := driver_regular hr
    have hor := orderly_of_faultless hr
    obtain ⟨k, hk⟩ := hi p i hcur
    by_cases hx : x = .run
    · subst hx
      exact (tokens hor).onward_of_run (registry hr) (Driver.fills hdr)
        (waits (hor.mono fun _ _ _ _ hC => hC.keepsRequests)) (asking hr) (Driver.inOrder hdr)
        (Driver.drained hdr) (req_genuine hr) m hk
    · exact (tokens hor).onward_of_ne (registry hr) (Driver.arrived hdr) m hd hx hk
  · intro s x act v' d' hr hC hv m hd
    have hdr := driver_regular hr
    have hor := orderly_of_faultless hr
    have ht := serve_tokens hor (orderly_step hr hor hC) (tokens hor) m hd
    have hask := (asking hr).serve (Driver.rqOwned hdr) (Driver.fills hdr)
      (waits (hor.mono fun _ _ _ _ hC => hC.keepsRequests)) m
    have hi := Driver.inService hdr
    rcases Driver.step_moves hd with ⟨t, b', pc', hm, rfl⟩ | ⟨n, f, -, rfl⟩ | ⟨e, -, -, rfl⟩
    · intro p i hcur
      have hex := (hm.exchange ((Driver.linked hdr).new _ (Nat.le_refl _))).handedOut (p := p)
      rcases hex with ⟨-, hold⟩ | ⟨j, -, -, hs, ha⟩
      · obtain ⟨k, hk⟩ := hv p i (hold i hcur)
        have harr := (Driver.sent hdr).current p i (hold i hcur)
        refine ⟨k, ht.onward_move (Driver.rqOwned hdr) hask hi.fdo
          (Driver.counted_of_regular hdr) (hi.linked p (sized hr p i harr).1) m.makes hm hk hcur⟩
      · exact ⟨.run, hask.token_started hm hs ha hcur⟩
    · exact hv
    · exact hv

/-! ## One execution -/

end System

/-- The request at this stage is still to be executed. -/
def Stage.ahead (v : Service) : Stage → Prop
  | .run | .posted _ => True
  | .disk pr => (v.procs pr).pc = .exec

namespace System

/-- **The request of an IRP is still to be executed.** -/
def Ahead (d : Driver) (v : Service) (p : PdoId) (i : IrpId) : Prop :=
  ∃ k : Stage, k.ahead v ∧ token d v k = some (p, i)

/-- **What is still to be executed was so before**, and not at a thread that is past it. -/
theorem Tokens.ahead_of_serve (h : Tokens d v) (hr : Registry d v) (ho : d.RqOwned) (hf : d.Fills)
    (hw : Waits d v) (m : Serves d v x act v') (hd : perform d act = some d')
    (hah : Ahead d v' p i) : ∃ k : Stage, k.ahead v ∧ token d v k = some (p, i) ∧
      ∀ pr, k = .disk pr → (v'.procs pr).pc = .exec := by
  obtain ⟨k, hk, ht⟩ := hah
  cases k with
  | run =>
    refine ⟨.run, trivial, ?_, fun _ => Stage.noConfusion⟩
    by_cases hx : x = .run
    · subst hx
      cases m with
      | issue hrun => simp [token, systemBuffer_of_issue ho hd] at ht
      | issued hrun | find hrun | post hrun => simpa [token, hrun] using ht
      | refused | findNone | setEvent => simp [token] at ht
      | @got r hrun hc hs =>
        obtain ⟨q, hq⟩ := Option.ne_none_iff_exists'.mp (hf.succeeded r hc hs)
        simpa [token, hrun, hq] using ht
      | gotNone hrun _ hs => exact absurd (hw.waiting _ hrun) hs
    · exact (h.token_run_of_ne hr m hx).symm.trans ht
  | posted pr =>
    by_cases hx : x = .run
    · subst hx
      rcases m.proc_run pr with ⟨_, _, hp⟩ | ⟨hrun, hp⟩ | ⟨hrun, hp⟩
      · exact ⟨.posted pr, trivial, by simpa [token, hp] using ht, fun _ => Stage.noConfusion⟩
      · obtain ⟨he, -⟩ := h.free hr (show v.run.hands = some pr by rw [hrun]; rfl)
        simp [token, hp, he] at ht
      · exact ⟨.run, trivial, by simpa [token, hp, hrun] using ht, fun _ => Stage.noConfusion⟩
    · rcases token_posted_step (m.proc pr) hx with heq | ⟨hnone, -⟩
      · exact ⟨.posted pr, trivial, heq.symm.trans ht, fun _ => Stage.noConfusion⟩
      · cases hnone.symm.trans ht
  | disk pr =>
    have hpc' : (v'.procs pr).pc = .exec := hk
    have hdisk : (v.procs pr).pc = .exec → (v'.procs pr).mReq = (v.procs pr).mReq →
        ∃ k : Stage, k.ahead v ∧ token d v k = some (p, i) ∧
          ∀ pr, k = .disk pr → (v'.procs pr).pc = .exec := by
      intro hpc hm
      refine ⟨.disk pr, hpc, ?_, ?_⟩
      · rw [token_exec hpc, ← hm, ← token_exec hpc']
        exact ht
      · rintro _ ⟨⟩
        exact hpc'
    rw [token_exec hpc'] at ht
    cases m.proc pr with
    | keep hp =>
      obtain ⟨_, _, hp⟩ := hp
      exact hdisk (by rw [hp] at hpc'; exact hpc') (by rw [hp])
    | setEvent _ _ _ hp => exact hdisk (by rw [hp] at hpc'; exact hpc') (by rw [hp])
    | post _ hrun _ hp =>
      obtain ⟨-, hnone⟩ := h.free hr (show v.run.hands = some pr by rw [hrun]; rfl)
      rw [hp] at hpc'
      exact absurd hpc' (h.not_exec hnone).1
    | wake _ _ he hp =>
      refine ⟨.posted pr, trivial, ?_, fun _ => Stage.noConfusion⟩
      rw [hp] at ht
      exact (token_posted_of he).trans ht
    | create _ _ hp =>
      obtain ⟨_, _, _, -, hp⟩ := hp
      rw [hp] at hpc'
      cases hpc'
    | execute _ _ _ hp =>
      obtain ⟨_, _, rfl⟩ := hp
      simp at hpc'
    | final _ _ hp =>
      obtain ⟨_, hp⟩ := hp
      rw [hp] at hpc'
      cases hpc'
    | removed _ _ _ hp | executeNone _ _ _ hp | reply _ _ _ hp | replied _ _ _ hp =>
      rw [hp] at hpc'
      cases hpc'

/-- What is still to be executed after a move was so before, or a packet was just started. -/
theorem ahead_of_move (m : Moves t d.bus a (d.calls t) b' pc')
    (hah : Ahead (d.put t (b', pc')) v p i) : Ahead d v p i ∨
      (d.calls t).starts = some p ∧ i ∈ (d.calls t).hand := by
  have hfill : ∀ r, ((b'.requests r).systemBuffer.bind Tagged.origin = some (p, i)) →
      (d.bus.requests r).systemBuffer.bind Tagged.origin = some (p, i) ∨
        (d.calls t).starts = some p ∧ i ∈ (d.calls t).hand := by
    intro r hr
    rcases m.systemBuffer (r := r) with heq | ⟨q, j, hs, -, hj, rfl⟩
    · exact .inl (heq ▸ hr)
    · rw [Bus.startIrp_systemBuffer] at hr
      obtain ⟨rfl, rfl⟩ := Prod.mk.inj (Option.some.inj hr)
      exact .inr ⟨hs, hj⟩
  obtain ⟨k, hk, ht⟩ := hah
  cases k with
  | run =>
    simp only [token] at ht
    split at ht
    · next r hrun =>
      exact (hfill r ht).imp_left fun h => ⟨.run, trivial, by simpa [token, hrun] using h⟩
    · next r hrun =>
      exact (hfill r ht).imp_left fun h => ⟨.run, trivial, by simpa [token, hrun] using h⟩
    · next hrun => exact .inl ⟨.run, trivial, by simpa [token, hrun] using ht⟩
    · next hrun => exact .inl ⟨.run, trivial, by simpa [token, hrun] using ht⟩
    · next hrun => exact .inl ⟨.run, trivial, by simpa [token, hrun] using ht⟩
    · cases ht
    · cases ht
  | posted pr => exact .inl ⟨.posted pr, trivial, ht⟩
  | disk pr =>
    have hpc : (v.procs pr).pc = .exec := hk
    rw [token_exec hpc] at ht
    exact .inl ⟨.disk pr, hpc, (token_exec hpc).trans ht⟩

/-- **Every execution is of a request that was handed out, and no two are of the same.** -/
structure Once (d : Driver) (v : Service) : Prop where
  handed : ∀ e ∈ v.executions, ∃ p i, e.origin = some (p, i) ∧ i ∈ d.bus.handedOut p
  ahead : ∀ p i, Ahead d v p i → ∀ e ∈ v.executions, e.origin ≠ some (p, i)
  nodup : (v.executions.map Execution.origin).Nodup

/-- What a thread is about to execute is its disk's current IRP. -/
theorem Tokens.current_of_exec (h : Tokens d v) (hi : d.InOrder) (hpc : (v.procs pr).pc = .exec) :
    ∃ p i, (v.procs pr).mReq.origin = some (p, i) ∧ (d.bus.pdos p).currentIrp = some i ∧
      p < d.bus.pdoCount ∧ (d.bus.pdos p).buffer = pr := by
  obtain ⟨⟨p, i⟩, ho⟩ := Option.ne_none_iff_exists'.mp (h.executes pr hpc)
  have ht : token d v (.disk pr) = some (p, i) := (token_exec hpc).trans ho
  obtain ⟨hp, hlive⟩ := h.flow.live _ p i ht
  refine ⟨p, i, ho, hlive.resolve_left fun hd => ?_, hp, h.own pr _ p i (.inr (.inl rfl)) ht⟩
  cases hd.symm.trans (hi.drained p)

/-- A step of the service keeps it so. -/
theorem Once.serve (h : Once d v) (ht : Tokens d v) (hr : Registry d v) (ho : d.RqOwned)
    (hf : d.Fills) (hw : Waits d v) (hi : d.InOrder) (m : Serves d v x act v')
    (hd : perform d act = some d') : Once d v' := by
  have hback := fun p i => ht.ahead_of_serve (p := p) (i := i) hr ho hf hw m hd
  rcases m.execution with ⟨he, -⟩ | ⟨pr, out, -, hpc, -, rfl⟩
  · refine ⟨he ▸ h.handed, fun p i hah => ?_, he ▸ h.nodup⟩
    obtain ⟨k, hk, htok, -⟩ := hback p i hah
    exact he ▸ h.ahead p i ⟨k, hk, htok⟩
  · obtain ⟨p, i, hor, hcur, -, -⟩ := ht.current_of_exec hi hpc
    have htok : token d v (.disk pr) = some (p, i) := (token_exec hpc).trans hor
    refine ⟨?_, ?_, ?_⟩
    · intro e he
      rcases List.mem_cons.mp he with rfl | he
      · obtain ⟨is, his⟩ := hi.current p i hcur
        exact ⟨p, i, hor, by simp [his]⟩
      · exact h.handed e he
    · intro q j hah e he heq
      obtain ⟨k, hk, htok', hpast⟩ := hback q j hah
      rcases List.mem_cons.mp he with rfl | he
      · cases hor.symm.trans heq
        have hpc' := hpast pr (ht.flow.single k _ p i i htok' htok)
        simp at hpc'
      · exact h.ahead q j ⟨k, hk, htok'⟩ e he heq
    · simp only [Service.executed_executions, List.map_cons, List.nodup_cons, List.mem_map, hor]
      refine ⟨?_, h.nodup⟩
      rintro ⟨e, he, heq⟩
      exact h.ahead p i ⟨.disk pr, hpc, htok⟩ e he heq

/-- …and a move of the driver does. -/
theorem Once.move (h : Once d v) (ho : d.Owned) (hi : d.InOrder) (hl : d.Linked)
    (m : Moves t d.bus a (d.calls t) b' pc') : Once (d.put t (b', pc')) v := by
  refine ⟨?_, ?_, h.nodup⟩
  · intro e he
    obtain ⟨p, i, hor, hmem⟩ := h.handed e he
    refine ⟨p, i, hor, ?_⟩
    show i ∈ b'.handedOut p
    rcases (m.exchange (hl.new _ (Nat.le_refl _))).handedOut (p := p) with ⟨heq, -⟩ | ⟨j, heq, -⟩
    · exact heq ▸ hmem
    · exact heq ▸ List.mem_cons_of_mem _ hmem
  · intro p i hah e he heq
    rcases ahead_of_move m hah with hah | ⟨hs, hhand⟩
    · exact h.ahead p i hah e he heq
    · obtain ⟨q, j, hor, hmem⟩ := h.handed e he
      cases hor.symm.trans heq
      exact hi.not_mem_handedOut ho hs hhand hmem

/-- **No request is executed twice**, in any faultless run. -/
theorem once (h : (lts files).Reach Faultless s) : Once s.driver s.service := by
  refine invariant ?_ ?_ ?_ h
  · refine ⟨?_, ?_, List.nodup_nil⟩
    · rintro e ⟨⟩
    · rintro p i - e ⟨⟩
  · intro s x act v' d' hr _ hi m hd
    have hdr := driver_regular hr
    have hor := orderly_of_faultless hr
    exact hi.serve (tokens hor) (registry hr) (Driver.rqOwned hdr) (Driver.fills hdr)
      (waits (hor.mono fun _ _ _ _ hC => hC.keepsRequests)) (Driver.inOrder hdr) m hd
  · intro s x act v' d' hr hC hv m hd
    have hdr := driver_regular hr
    rcases Driver.step_moves hd with ⟨t, b', pc', hm, rfl⟩ | ⟨n, f, -, rfl⟩ | ⟨e, -, -, rfl⟩
    · have ho := Driver.owned (hdr.mono fun _ _ _ _ h => Driver.keepsOwner_of_regular h)
      exact hv.move ho (Driver.inOrder hdr) (Driver.linked hdr) hm
    · exact ⟨hv.1, hv.2, hv.3⟩
    · exact ⟨hv.1, hv.2, hv.3⟩

/-- **A request that was handed out is executed, or still to be executed.** -/
theorem executed_or_ahead (h : (lts files).Reach Faultless s) (hi : i ∈ s.driver.bus.handedOut p) :
    (∃ e ∈ s.service.executions, e.origin = some (p, i)) ∨ Ahead s.driver s.service p i := by
  have hans := answers (orderly_of_faultless h)
  have hbacked : ∀ {rep : Tagged BusenumReply}, Backed s.service rep →
      rep.origin = some (p, i) → ∃ e ∈ s.service.executions, e.origin = some (p, i) := by
    rintro rep ⟨e, he, hor, -⟩ heq
    exact ⟨e, he, hor.trans heq⟩
  rcases (Driver.inOrder (driver_regular h)).past p i hi with hcur | ⟨rep, hacc⟩
  · obtain ⟨k, hk⟩ := carried h p i hcur
    cases k with
    | run => exact .inr ⟨.run, trivial, hk⟩
    | posted pr => exact .inr ⟨.posted pr, trivial, hk⟩
    | disk pr =>
      cases hpc : (s.service.procs pr).pc with
      | exec => exact .inr ⟨.disk pr, hpc, hk⟩
      | reply =>
        rw [token_reply hpc] at hk
        exact .inl (hbacked (hans.replies pr (.inl hpc)) hk)
      | replying =>
        by_cases hidle : s.driver.calls (.disk pr) = .idle
        · rw [token_replying hpc hidle] at hk
          exact .inl (hbacked (hans.replies pr (.inr ⟨hpc, hidle⟩)) hk)
        · cases hcar : (s.driver.calls (.disk pr)).carries with
          | none => cases (token_replied hpc hidle hcar).symm.trans hk
          | some rep =>
            exact .inl (hbacked (hans.carried pr rep hcar) ((token_carries hpc hcar).symm.trans hk))
      | wait | final | exited => simp [token, hpc] at hk
  · obtain ⟨hor, hb⟩ := hans.accepted p i rep hacc
    exact .inl (hbacked hb hor)

end System

end VirtualDisk
