import VirtualDisk.Machinery.Flow
import VirtualDisk.Service.Agreement
import VirtualDisk.Service.Calls

/-!
# Service/Tokens — one request in flight for each disk

A request passes through three stages on its way from a filled GET_REQUEST IRP to the reply that is
taken for it: the Run loop's wait and lookup, `m_req` with its event set, and the disk thread.  The
*token* of a stage is the request there, as the disk and the IRP it was made for.

A disk has at most one token, its current IRP's, as long as no packet is started on it after its
destruction; and a token that has reached a processor is at the processor of its own disk, as long
as no disk is added under an id that a request not yet looked up bears.
-/

namespace VirtualDisk

open Machinery

variable {t : Tid} {a : Action} {b b' : Bus} {pc pc' : Pc} {p q : PdoId} {i j : IrpId} {r : RqId}
variable {d d' : Driver} {v v' : Service} {pr : ProcId} {x : SysAction} {act : Option Action}

/-- Where a request is in the service. -/
inductive Stage
  | run
  | posted (pr : ProcId)
  | disk (pr : ProcId)
  deriving DecidableEq

/-- The Run loop has not looked its request up yet. -/
def RunPc.searches : RunPc → Bool
  | .issuing _ | .waiting _ | .find => true
  | _ => false

/-- The processor the Run loop is handing its request to. -/
def RunPc.hands : RunPc → Option ProcId
  | .post pr | .setEvent pr => some pr
  | _ => none

namespace System

/-- **The token of a stage.** -/
def token (d : Driver) (v : Service) : Stage → Option (PdoId × IrpId)
  | .run => match v.run with
    | .issuing r | .waiting r => (d.bus.requests r).systemBuffer.bind Tagged.origin
    | .find | .post _ => v.req.origin
    | .setEvent pr => (v.procs pr).mReq.origin
    | .issue | .stopped => none
  | .posted pr => if (v.procs pr).hEvent then (v.procs pr).mReq.origin else none
  | .disk pr => match (v.procs pr).pc with
    | .exec => (v.procs pr).mReq.origin
    | .reply => (v.procs pr).executed
    | .replying => match d.calls (.disk pr) with
      | .idle => (v.procs pr).executed
      | pc => pc.carries.bind Tagged.origin
    | _ => none

/-- The IRP is the disk's current one, or the disk is drained. -/
def Live (b : Bus) (p : PdoId) (i : IrpId) : Prop :=
  p < b.pdoCount ∧ ((b.pdos p).drained = true ∨ (b.pdos p).currentIrp = some i)

/-- **The tokens of a state**, and what is known of the requests they stand for. -/
structure Tokens (d : Driver) (v : Service) : Prop where
  flow : Flow (Live d.bus) (token d v)
  own : ∀ pr k p i, (k = .posted pr ∨ k = .disk pr ∨ k = .run ∧ v.run.hands = some pr) →
    token d v k = some (p, i) → (d.bus.pdos p).buffer = pr
  found : ∀ p i pr, v.run.searches = true → token d v .run = some (p, i) →
    v.diskMap (d.bus.pdos p).serialNo = some pr → (d.bus.pdos p).buffer = pr
  runs : v.run = .find ∨ (∃ pr, v.run.hands = some pr) → token d v .run ≠ none
  posted : ∀ pr, (v.procs pr).hEvent = true → (v.procs pr).mReq.origin ≠ none
  executes : ∀ pr, (v.procs pr).pc = .exec → (v.procs pr).mReq.origin ≠ none
  answers : ∀ pr, (v.procs pr).pc = .reply ∨
      (v.procs pr).pc = .replying ∧ d.calls (.disk pr) = .idle →
    (v.procs pr).executed = (v.procs pr).mReq.origin ∧ (v.procs pr).executed ≠ none
  carries : ∀ pr rep, (d.calls (.disk pr)).carries = some rep → ∃ p i,
    rep.origin = some (p, i) ∧ p < d.bus.pdoCount ∧ rep.val.handle = (d.bus.pdos p).serialNo
  takes : ∀ pr q rep, d.calls (.disk pr) = .replyTake q rep → ∃ i, rep.origin = some (q, i)
  mReq : ∀ pr, d.bus.Genuine (v.procs pr).mReq

/-! ## Reading a token -/

theorem token_posted_of (h : (v.procs pr).hEvent = true) :
    token d v (.posted pr) = (v.procs pr).mReq.origin := if_pos h

theorem token_exec (h : (v.procs pr).pc = .exec) :
    token d v (.disk pr) = (v.procs pr).mReq.origin := by simp [token, h]

theorem token_reply (h : (v.procs pr).pc = .reply) :
    token d v (.disk pr) = (v.procs pr).executed := by simp [token, h]

theorem token_replying (h : (v.procs pr).pc = .replying) (hc : d.calls (.disk pr) = .idle) :
    token d v (.disk pr) = (v.procs pr).executed := by simp [token, h, hc]

theorem token_carries {rep : Tagged BusenumReply} (h : (v.procs pr).pc = .replying)
    (hc : (d.calls (.disk pr)).carries = some rep) : token d v (.disk pr) = rep.origin := by
  generalize hpc : d.calls (.disk pr) = pc at hc
  cases pc <;> cases hc
  all_goals simp [token, h, hpc, Pc.carries]

/-- A processor that keeps its request keeps its tokens. -/
theorem token_posted_congr (he : (v'.procs pr).hEvent = (v.procs pr).hEvent)
    (hm : (v'.procs pr).mReq = (v.procs pr).mReq) :
    token d v' (.posted pr) = token d v (.posted pr) := by simp [token, he, hm]

theorem token_disk_congr (hp : (v'.procs pr).pc = (v.procs pr).pc)
    (hm : (v'.procs pr).mReq = (v.procs pr).mReq)
    (hx : (v'.procs pr).executed = (v.procs pr).executed) :
    token d v' (.disk pr) = token d v (.disk pr) := by simp [token, hp, hm, hx]

/-- **A token at a processor, or on its way to it, belongs to the processor's own disk.** -/
theorem Tokens.owner_eq (h : Tokens d v) (hr : Registry d v) {k k' : Stage}
    (hk : k = .posted pr ∨ k = .disk pr ∨ k = .run ∧ v.run.hands = some pr)
    (hk' : k' = .posted pr ∨ k' = .disk pr ∨ k' = .run ∧ v.run.hands = some pr)
    (ht : token d v k ≠ none) (ht' : token d v k' ≠ none) : k = k' := by
  obtain ⟨⟨p, i⟩, hp⟩ := Option.ne_none_iff_exists'.mp ht
  obtain ⟨⟨q, j⟩, hq⟩ := Option.ne_none_iff_exists'.mp ht'
  have hbuf := (h.own pr k p i hk hp).trans (h.own pr k' q j hk' hq).symm
  obtain rfl := hr.injective p (h.flow.live k p i hp).1 q (h.flow.live k' q j hq).1 hbuf
  exact h.flow.single k k' p i j hp hq

/-- **A request is handed to a processor that is free**: its event is not set, and its thread has no
request in hand whose reply is not sent. -/
theorem Tokens.free (h : Tokens d v) (hr : Registry d v) (hrun : v.run.hands = some pr) :
    (v.procs pr).hEvent = false ∧ token d v (.disk pr) = none := by
  have ht := h.runs (.inr ⟨pr, hrun⟩)
  refine ⟨?_, ?_⟩
  · by_contra he
    rw [Bool.not_eq_false] at he
    have hk := h.owner_eq hr (.inr (.inr ⟨rfl, hrun⟩)) (.inl rfl) ht
      (by rw [token_posted_of he]; exact h.posted pr he)
    cases hk
  · by_contra hd
    have hk := h.owner_eq hr (.inr (.inr ⟨rfl, hrun⟩)) (.inr (.inl rfl)) ht hd
    cases hk

/-- The processor a request is handed to exists. -/
theorem Tokens.hands_lt (h : Tokens d v) (hr : Registry d v) (hrun : v.run.hands = some pr) :
    pr < v.procCount := by
  obtain ⟨⟨p, i⟩, hp⟩ := Option.ne_none_iff_exists'.mp (h.runs (.inr ⟨pr, hrun⟩))
  have hbuf := h.own pr .run p i (.inr (.inr ⟨rfl, hrun⟩)) hp
  exact hbuf ▸ (hr.owner p (h.flow.live .run p i hp).1).1

/-! ## Steps of the service -/

/-- The request of an IRP is a READ or a WRITE. -/
theorem code_of_genuine {q : Tagged BusenumRequest} (h : d.bus.Genuine q) (ha : d.Arrived)
    (hq : q.origin ≠ none) :
    q.val.code = scsiopRead.toUInt32 ∨ q.val.code = scsiopWrite.toUInt32 := by
  obtain ⟨⟨p, i⟩, hq⟩ := Option.ne_none_iff_exists'.mp hq
  obtain ⟨-, hi, hval⟩ := h p i hq
  have hrw := ha.readWrite i hi
  simp only [Cdb.isReadWrite, Bool.or_eq_true, decide_eq_true_eq] at hrw
  rw [hval]
  exact hrw.imp (congrArg UInt8.toUInt32) (congrArg UInt8.toUInt32)

/-- **What a step of another thread does to the token of a processor's `m_req`**: it stays, or is
taken over by the disk thread. -/
theorem token_posted_step (m : ProcStep d v x act v' pr) (hx : x ≠ .run) :
    token d v' (.posted pr) = token d v (.posted pr) ∨
    (token d v' (.posted pr) = none ∧ ((v.procs pr).pc = .wait ∧ (v.procs pr).hEvent = true ∧
      v'.procs pr = { v.procs pr with hEvent := false, pc := .exec } ∨ pr = v.procCount)) := by
  cases m with
  | keep h =>
    obtain ⟨_, _, h⟩ := h
    exact .inl (by simp [token, h])
  | create hpr _ h =>
    obtain ⟨_, _, _, -, h⟩ := h
    exact .inr ⟨by simp [token, h], .inr hpr⟩
  | post ha | setEvent ha => exact absurd ha hx
  | wake _ hpc he h => exact .inr ⟨by simp [token, h], .inl ⟨hpc, he, h⟩⟩
  | removed _ _ _ h | executeNone _ _ _ h | reply _ _ _ h | replied _ _ _ h =>
    exact .inl (by simp [token, h])
  | execute _ _ _ h =>
    obtain ⟨_, _, rfl⟩ := h
    exact .inl (by simp [token])
  | final _ _ h =>
    obtain ⟨_, h⟩ := h
    exact .inl (by simp [token, h])

/-- …and to the token at its thread. -/
theorem token_disk_step (m : ProcStep d v x act v' pr) (hx : x ≠ .run)
    (hidle : ∀ rep, act = some (.call (.disk pr) (.sendReply rep)) → d.calls (.disk pr) = .idle)
    (hcode : (v.procs pr).pc = .exec → (v.procs pr).mReq.val.code = scsiopRead.toUInt32 ∨
      (v.procs pr).mReq.val.code = scsiopWrite.toUInt32) :
    token d v' (.disk pr) = token d v (.disk pr) ∨ token d v' (.disk pr) = none ∨
    (token d v' (.disk pr) = token d v (.posted pr) ∧ token d v' (.posted pr) = none) := by
  cases m with
  | keep h =>
    obtain ⟨_, _, h⟩ := h
    exact .inl (by simp [token, h])
  | create hpr _ h =>
    obtain ⟨_, _, _, -, h⟩ := h
    exact .inr (.inl (by simp [token, h]))
  | post ha | setEvent ha => exact absurd ha hx
  | wake _ hpc he h => exact .inr (.inr ⟨by simp [token, h, he], by simp [token, h]⟩)
  | removed _ _ _ h | replied _ _ _ h => exact .inr (.inl (by simp [token, h]))
  | executeNone _ hpc hc => exact absurd (hcode hpc) hc
  | reply _ hpc hact h =>
    left
    rw [token_reply hpc, token_replying (by rw [h]) (hidle _ hact), h]
  | execute _ _ hpc h =>
    obtain ⟨_, _, rfl⟩ := h
    left
    rw [token_exec hpc]
    simp [token]
  | final _ _ h =>
    obtain ⟨_, h⟩ := h
    exact .inr (.inl (by simp [token, h]))

/-- The Run loop's token waits while others act. -/
theorem Tokens.token_run_of_ne (h : Tokens d v) (hr : Registry d v) (m : Serves d v x act v')
    (hx : x ≠ .run) : token d v' .run = token d v .run := by
  obtain ⟨hrun, hreq, -⟩ := m.run_of_ne hx
  simp only [token, hrun, hreq]
  cases hpc : v.run with
  | setEvent pr =>
    have hlt := h.hands_lt hr (show v.run.hands = some pr by rw [hpc]; rfl)
    show (v'.procs pr).mReq.origin = (v.procs pr).mReq.origin
    cases m.proc pr with
    | keep h =>
      obtain ⟨_, _, h⟩ := h
      rw [h]
    | create hpr => exact absurd (hpr ▸ hlt) (Nat.lt_irrefl _)
    | post ha | setEvent ha => exact absurd ha hx
    | wake _ _ _ h | removed _ _ _ h | executeNone _ _ _ h | reply _ _ _ h | replied _ _ _ h =>
      rw [h]
    | execute _ _ _ h =>
      obtain ⟨_, _, rfl⟩ := h
      simp
    | final _ _ h =>
      obtain ⟨_, h⟩ := h
      rw [h]
  | _ => rfl

/-- **A step of another thread of the service keeps the flow**: a disk thread that wakes up takes
the request of `m_req`, and a reply takes the place of the request it answers. -/
theorem Tokens.flow_of_ne (h : Tokens d v) (hr : Registry d v) (ha : d.Arrived)
    (m : Serves d v x act v') (hd : perform d act = some d') (hx : x ≠ .run) :
    Flow (Live d.bus) (token d v') := by
  have hidle : ∀ pr rep, act = some (.call (.disk pr) (.sendReply rep)) →
      d.calls (.disk pr) = .idle := by
    rintro pr rep rfl
    exact idle_of_call hd
  have hcode := fun pr hpc => code_of_genuine (h.mReq pr) ha (h.executes pr hpc)
  refine h.flow.relocate
    (fun k k₀ => k = k₀ ∨ ∃ pr, k = .disk pr ∧ k₀ = .posted pr ∧ token d v' (.posted pr) = none)
    ?_ ?_
  · intro k hk
    cases k with
    | run => exact ⟨.run, h.token_run_of_ne hr m hx, .inl rfl⟩
    | posted pr =>
      rcases token_posted_step (m.proc pr) hx with heq | ⟨hnone, -⟩
      · exact ⟨_, heq, .inl rfl⟩
      · exact absurd hnone hk
    | disk pr =>
      rcases token_disk_step (m.proc pr) hx (hidle pr) (hcode pr) with heq | hnone | ⟨heq, hp⟩
      · exact ⟨_, heq, .inl rfl⟩
      · exact absurd hnone hk
      · exact ⟨_, heq, .inr ⟨pr, rfl, rfl, hp⟩⟩
  · rintro k k' k₀ hk hk' (rfl | ⟨pr, rfl, rfl, hp⟩) (rfl | ⟨pr', rfl, heq, hp'⟩)
    · rfl
    · exact absurd (heq ▸ hp') hk
    · exact absurd hp hk'
    · cases heq
      rfl

/-- A step of the Run loop leaves the tokens at the disks alone, unless it posts a request. -/
theorem token_eq_of_procs (hp : v'.procs = v.procs) (k : Stage) (hk : k ≠ .run) :
    token d v' k = token d v k := by
  cases k with
  | run => exact absurd rfl hk
  | posted pr => exact token_posted_congr (by rw [hp]) (by rw [hp])
  | disk pr => exact token_disk_congr (by rw [hp]) (by rw [hp]) (by rw [hp])

/-- The Run loop has the same token, or none. -/
theorem Tokens.flow_of_procs (h : Tokens d v) (hp : v'.procs = v.procs)
    (hrun : token d v' .run ≠ none → token d v' .run = token d v .run) :
    Flow (Live d.bus) (token d v') := by
  refine h.flow.frame fun k hk => ?_
  by_cases hkr : k = .run
  · subst hkr
    exact hrun hk
  · exact token_eq_of_procs hp k hkr

/-- A thread that has nothing in hand is not about to execute. -/
theorem Tokens.not_exec (h : Tokens d v) (ht : token d v (.disk pr) = none) :
    (v.procs pr).pc ≠ .exec ∧ (v.procs pr).pc ≠ .reply ∧
    ((v.procs pr).pc = .replying → d.calls (.disk pr) ≠ .idle) := by
  refine ⟨?_, ?_, ?_⟩
  · intro hpc
    exact h.executes pr hpc (token_exec hpc ▸ ht)
  · intro hpc
    exact (h.answers pr (.inl hpc)).2 (token_reply hpc ▸ ht)
  · intro hpc hc
    exact (h.answers pr (.inr ⟨hpc, hc⟩)).2 (token_replying hpc hc ▸ ht)

/-- A GET_REQUEST IRP that is about to be sent is empty. -/
theorem systemBuffer_of_issue (ho : d.RqOwned)
    (hd : perform d (some (.call .run (.getRequest r 0))) = some d') :
    (d.bus.requests r).systemBuffer = none := by
  by_contra hs
  have hmem : r ∈ d.holdsRq .filled := (ho.filled r).mp hs
  exact not_arrived_of_call hd (ho.ledger.within _ _ hmem)

/-- **A step of the Run loop keeps the flow**: it passes its token on, or drops it when no processor
is found. -/
theorem Tokens.flow_of_run (h : Tokens d v) (hr : Registry d v) (ho : d.RqOwned) (hf : d.Fills)
    (hw : Waits d v) (m : Serves d v .run act v') (hd : perform d act = some d') :
    Flow (Live d.bus) (token d v') := by
  cases m with
  | issue hrun =>
    refine h.flow_of_procs rfl fun hk => absurd ?_ hk
    simp [token, systemBuffer_of_issue ho hd]
  | issued hrun => exact h.flow_of_procs rfl fun _ => by simp [token, hrun]
  | refused | findNone => exact h.flow_of_procs rfl fun hk => absurd rfl hk
  | @got r hrun hc hs =>
    refine h.flow_of_procs rfl fun _ => ?_
    obtain ⟨q, hq⟩ := Option.ne_none_iff_exists'.mp (hf.succeeded r hc hs)
    simp [token, hrun, hq]
  | gotNone hrun _ hs => exact absurd (hw.waiting _ hrun) hs
  | find hrun => exact h.flow_of_procs rfl fun _ => by simp [token, hrun]
  | @post pr hrun =>
    obtain ⟨he, hdisk⟩ := h.free hr (show v.run.hands = some pr by rw [hrun]; rfl)
    refine h.flow.frame fun k hk => ?_
    cases k with
    | run => simp [token, hrun]
    | posted pr' =>
      by_cases hpr : pr' = pr
      · subst hpr
        exact absurd (by simp [token, he]) hk
      · exact token_posted_congr (by simp [hpr]) (by simp [hpr])
    | disk pr' =>
      by_cases hpr : pr' = pr
      · subst hpr
        have hpc := (h.not_exec hdisk).1
        simp only [token, Service.setRun_procs, Service.setProc_procs, Function.update_self]
        split <;> simp_all
      · exact token_disk_congr (by simp [hpr]) (by simp [hpr]) (by simp [hpr])
  | @setEvent pr hrun =>
    refine h.flow.pass .run (.posted pr) rfl ?_ ?_
    · simp [token, hrun]
    · intro k hk hne
      cases k with
      | run => exact absurd rfl hne
      | posted pr' =>
        have hpr : pr' ≠ pr := fun heq => hk (heq ▸ rfl)
        exact token_posted_congr (by simp [hpr]) (by simp [hpr])
      | disk pr' =>
        by_cases hpr : pr' = pr
        · subst hpr
          exact token_disk_congr (by simp) (by simp) (by simp)
        · exact token_disk_congr (by simp [hpr]) (by simp [hpr]) (by simp [hpr])

/-- The request that the Run loop has not looked up yet. -/
def searching (d : Driver) (v : Service) : Option (Tagged BusenumRequest) :=
  match v.run with
  | .issuing r | .waiting r => (d.bus.requests r).systemBuffer
  | .find => some v.req
  | _ => none

/-- It is what the Run loop's token stands for. -/
theorem token_searching (hrun : v.run.searches = true) :
    token d v .run = (searching d v).bind Tagged.origin := by
  cases hpc : v.run <;> rw [hpc] at hrun
  all_goals first
    | (cases hrun; done)
    | simp [token, searching, hpc]

/-- **No id is used again under way**: when a processor enters the map, no request that bears its id
is still to be looked up. -/
def NoReuse (s : System) : SysAction → Prop
  | .rpc k _ => ∀ pr, s.service.rpcs k = .insert pr →
    s.service.diskMap (s.service.procs pr).diskId = none →
    ∀ q, searching s.driver s.service = some q → q.val.handle ≠ (s.service.procs pr).diskId
  | _ => True

end System

/-- An entry of the map is made by an RPC worker. -/
theorem Serves.diskMap {handle : ULONG} (m : Serves d v x act v')
    (h : v'.diskMap handle = some pr) : v.diskMap handle = some pr ∨
    ∃ k ok, x = .rpc k ok ∧ v.rpcs k = .insert pr ∧ handle = (v.procs pr).diskId ∧
      v.diskMap handle = none := by
  have hremove : ∀ diskId, (v.removeDisk diskId).diskMap handle = some pr →
      v.diskMap handle = some pr := by
    intro diskId hm
    unfold Service.removeDisk at hm
    split at hm
    · exact hm
    · by_cases hd : handle = diskId
      · subst hd
        simp at hm
      · simpa [hd] using hm
  cases m with
  | final => exact .inl (hremove _ h)
  | undo => exact .inl (hremove _ h)
  | @insert k ok pr' hk hm =>
    by_cases hd : handle = (v.procs pr').diskId
    · subst hd
      have heq : pr' = pr := by simpa using h
      subst heq
      exact .inr ⟨k, ok, rfl, hk, rfl, hm⟩
    · exact .inl (by simpa [hd] using h)
  | _ => exact .inl h

namespace System

/-- **Where the token of a processor came from**: a stage of the same processor, or the Run loop as
it hands the request over. -/
theorem Tokens.source (h : Tokens d v) (hr : Registry d v) (ha : d.Arrived)
    (m : Serves d v x act v') (hd : perform d act = some d') {k : Stage}
    (hk : k = .posted pr ∨ k = .disk pr) (ht : token d v' k ≠ none) : ∃ k₀,
    (k₀ = .posted pr ∨ k₀ = .disk pr ∨ k₀ = .run ∧ v.run.hands = some pr) ∧
      token d v' k = token d v k₀ := by
  have hcode := code_of_genuine (h.mReq pr) ha
  by_cases hx : x = .run
  · subst hx
    rcases m.proc_run pr with ⟨_, _, hp⟩ | ⟨hrun, hp⟩ | ⟨hrun, hp⟩
    · rcases hk with rfl | rfl
      · exact ⟨_, .inl rfl, token_posted_congr (by rw [hp]) (by rw [hp])⟩
      · exact ⟨_, .inr (.inl rfl), token_disk_congr (by rw [hp]) (by rw [hp]) (by rw [hp])⟩
    · obtain ⟨he, hdisk⟩ := h.free hr (show v.run.hands = some pr by rw [hrun]; rfl)
      obtain ⟨hexec, -, -⟩ := h.not_exec hdisk
      rcases hk with rfl | rfl
      · exact absurd (by simp [token, hp, he]) ht
      · refine absurd ?_ ht
        rw [← hdisk]
        simp only [token, hp]
        split <;> simp_all
    · rcases hk with rfl | rfl
      · exact ⟨.run, .inr (.inr ⟨rfl, by rw [hrun]; rfl⟩), by simp [token, hp, hrun]⟩
      · exact ⟨_, .inr (.inl rfl), token_disk_congr (by rw [hp]) (by rw [hp]) (by rw [hp])⟩
  · rcases hk with rfl | rfl
    · rcases token_posted_step (m.proc pr) hx with heq | ⟨hnone, -⟩
      · exact ⟨_, .inl rfl, heq⟩
      · exact absurd hnone ht
    · have hidle : ∀ rep, act = some (.call (.disk pr) (.sendReply rep)) →
          d.calls (.disk pr) = .idle := by
        rintro rep rfl
        exact idle_of_call hd
      rcases token_disk_step (m.proc pr) hx hidle (fun hpc => hcode (h.executes pr hpc)) with
        heq | hnone | ⟨heq, -⟩
      · exact ⟨_, .inr (.inl rfl), heq⟩
      · exact absurd hnone ht
      · exact ⟨_, .inl rfl, heq⟩

/-- What the processors know of their requests is kept by every step of the service. -/
theorem Tokens.procs (h : Tokens d v) (hr : Registry d v) (ha : d.Arrived)
    (m : Serves d v x act v') (pr : ProcId) :
    ((v'.procs pr).hEvent = true → (v'.procs pr).mReq.origin ≠ none) ∧
    ((v'.procs pr).pc = .exec → (v'.procs pr).mReq.origin ≠ none) ∧
    ((v'.procs pr).pc = .reply ∨ (v'.procs pr).pc = .replying ∧ d.calls (.disk pr) = .idle →
      (v'.procs pr).executed = (v'.procs pr).mReq.origin ∧ (v'.procs pr).executed ≠ none) := by
  have h₁ := h.posted pr
  have h₂ := h.executes pr
  have h₃ := h.answers pr
  cases m.proc pr with
  | keep hp =>
    obtain ⟨_, _, hp⟩ := hp
    rw [hp]
    exact ⟨h₁, h₂, h₃⟩
  | create _ _ hp =>
    obtain ⟨_, _, _, -, hp⟩ := hp
    rw [hp]
    exact ⟨nofun, nofun, by rintro (⟨⟨⟩⟩ | ⟨⟨⟩, -⟩)⟩
  | post _ hrun _ hp =>
    obtain ⟨he, hdisk⟩ := h.free hr (show v.run.hands = some pr by rw [hrun]; rfl)
    obtain ⟨hexec, hreply, hidle⟩ := h.not_exec hdisk
    rw [hp]
    refine ⟨fun hx => ?_, fun hx => absurd hx hexec, ?_⟩
    · cases he.symm.trans hx
    · rintro (hx | ⟨hx, hc⟩)
      · exact absurd hx hreply
      · exact absurd hc (hidle hx)
  | setEvent _ hrun _ hp =>
    have ht := h.runs (.inr ⟨pr, by rw [hrun]; rfl⟩)
    simp only [token, hrun] at ht
    rw [hp]
    exact ⟨fun _ => ht, h₂, h₃⟩
  | wake _ _ he hp =>
    rw [hp]
    exact ⟨nofun, fun _ => h₁ he, by rintro (⟨⟨⟩⟩ | ⟨⟨⟩, -⟩)⟩
  | removed _ _ _ hp =>
    rw [hp]
    exact ⟨h₁, nofun, by rintro (⟨⟨⟩⟩ | ⟨⟨⟩, -⟩)⟩
  | execute _ _ hpc hp =>
    obtain ⟨result, f, rfl⟩ := hp
    simp only [Service.executed_procs, Function.update_self]
    exact ⟨h₁, nofun, fun _ => ⟨trivial, h₂ hpc⟩⟩
  | executeNone _ hpc hc => exact absurd (code_of_genuine (h.mReq pr) ha (h₂ hpc)) hc
  | reply _ hpc _ hp =>
    rw [hp]
    exact ⟨h₁, nofun, fun _ => h₃ (.inl hpc)⟩
  | replied _ _ _ hp =>
    rw [hp]
    exact ⟨h₁, nofun, by rintro (⟨⟨⟩⟩ | ⟨⟨⟩, -⟩)⟩
  | final _ _ hp =>
    obtain ⟨_, hp⟩ := hp
    rw [hp]
    exact ⟨h₁, nofun, by rintro (⟨⟨⟩⟩ | ⟨⟨⟩, -⟩)⟩

/-- A processor's request is the Run loop's, or the one it had. -/
theorem mReq_of_serves (m : Serves d v x act v') (hq : d.bus.Genuine v.req)
    (hp : d.bus.Genuine (v.procs pr).mReq) : d.bus.Genuine (v'.procs pr).mReq := by
  cases m.proc pr with
  | keep h =>
    obtain ⟨_, _, h⟩ := h
    rw [h]
    exact hp
  | create _ _ h =>
    obtain ⟨_, _, _, -, h⟩ := h
    rw [h]
    rintro p i ⟨⟩
  | post _ _ _ h =>
    rw [h]
    exact hq
  | setEvent _ _ _ h | wake _ _ _ h | removed _ _ _ h | executeNone _ _ _ h | reply _ _ _ h
  | replied _ _ _ h =>
    rw [h]
    exact hp
  | execute _ _ _ h =>
    obtain ⟨_, _, rfl⟩ := h
    simpa using hp
  | final _ _ h =>
    obtain ⟨_, h⟩ := h
    rw [h]
    exact hp

/-- A genuine request bears the serial number of its disk. -/
theorem handle_of_genuine {q : Tagged BusenumRequest} (h : d.bus.Genuine q)
    (hq : q.origin = some (p, i)) : q.val.handle = (d.bus.pdos p).serialNo := by
  rw [(h p i hq).2.2]
  rfl

/-- The request that the Run loop hands over is of the processor's own disk. -/
theorem Tokens.own_run (h : Tokens d v) (hr : Registry d v) (hq : d.bus.Genuine v.req)
    (m : Serves d v x act v') (hrun : v'.run.hands = some pr)
    (ht : token d v' .run = some (p, i)) : (d.bus.pdos p).buffer = pr := by
  by_cases hx : x = .run
  · subst hx
    cases m with
    | @find pr' hf hm =>
      obtain rfl : pr' = pr := Option.some.inj hrun
      have ht' : token d v .run = some (p, i) := by simpa [token, hf] using ht
      refine h.found p i pr' (by rw [hf]; rfl) ht' ?_
      rw [← handle_of_genuine hq ht]
      exact hm
    | @post pr' hp =>
      obtain rfl : pr' = pr := Option.some.inj hrun
      refine h.own pr' .run p i (.inr (.inr ⟨rfl, by rw [hp]; rfl⟩)) ?_
      simpa [token, hp] using ht
    | issue | issued | refused | got | gotNone | findNone | setEvent => cases hrun
  · refine h.own pr .run p i (.inr (.inr ⟨rfl, (m.run_of_ne hx).1 ▸ hrun⟩)) ?_
    exact (h.token_run_of_ne hr m hx).symm.trans ht

/-- **A request that is to be looked up leads to its own disk**, if to any: no processor enters the
map under its id. -/
theorem Tokens.found_serve {s : System} {v' : Service} (h : Tokens s.driver s.service)
    (hr : Registry s.driver s.service) (ho : s.driver.RqOwned) (hf : s.driver.Fills)
    (hw : Waits s.driver s.service)
    (hg : ∀ r q, (s.driver.bus.requests r).systemBuffer = some q → s.driver.bus.Genuine q)
    (hq : s.driver.bus.Genuine s.service.req)
    (hC : NoReuse s x) (m : Serves s.driver s.service x act v')
    (hd : perform s.driver act = some d') (hs : v'.run.searches = true)
    (ht : token s.driver v' .run = some (p, i))
    (hm : v'.diskMap (s.driver.bus.pdos p).serialNo = some pr) :
    (s.driver.bus.pdos p).buffer = pr := by
  by_cases hx : x = .run
  · subst hx
    cases m with
    | issue hrun => simp [token, systemBuffer_of_issue ho hd] at ht
    | issued hrun =>
      exact h.found p i pr (by rw [hrun]; rfl) (by simpa [token, hrun] using ht) hm
    | @got r hrun hc hst =>
      obtain ⟨q, hqr⟩ := Option.ne_none_iff_exists'.mp (hf.succeeded r hc hst)
      refine h.found p i pr (by rw [hrun]; rfl) ?_ hm
      simpa [token, hrun, hqr] using ht
    | gotNone hrun _ hst => exact absurd (hw.waiting _ hrun) hst
    | refused | findNone | find | post | setEvent => cases hs
  have hs' : s.service.run.searches = true := (m.run_of_ne hx).1 ▸ hs
  have ht' := (h.token_run_of_ne hr m hx).symm.trans ht
  rcases m.diskMap hm with hold | ⟨k, ok, rfl, hk, hid, hnone⟩
  · exact h.found p i pr hs' ht' hold
  · rw [token_searching hs'] at ht'
    obtain ⟨q, hsq, hqo⟩ := Option.bind_eq_some_iff.mp ht'
    have hgq : s.driver.bus.Genuine q := by
      simp only [searching] at hsq
      split at hsq
      · exact hg _ q hsq
      · exact hg _ q hsq
      · exact Option.some.inj hsq ▸ hq
      · cases hsq
    exact absurd ((handle_of_genuine hgq hqo).trans hid) (hC pr hk (hid ▸ hnone) q hsq)

/-- The Run loop has the request it looks up or hands over. -/
theorem Tokens.runs_serve (h : Tokens d v) (hr : Registry d v) (hf : d.Fills) (hw : Waits d v)
    (m : Serves d v x act v') (hrun' : v'.run = .find ∨ ∃ pr, v'.run.hands = some pr) :
    token d v' .run ≠ none := by
  by_cases hx : x = .run
  · subst hx
    cases m with
    | @got r hrun hc hs =>
      obtain ⟨q, hq⟩ := Option.ne_none_iff_exists'.mp (hf.succeeded r hc hs)
      simpa [token, hq] using hf.origin r q hq
    | gotNone hrun _ hs => exact absurd (hw.waiting _ hrun) hs
    | find hrun => simpa [token, hrun] using h.runs (.inl hrun)
    | @post pr hrun =>
      simpa [token, hrun] using h.runs (.inr ⟨pr, by rw [hrun]; rfl⟩)
    | issue | issued | refused | findNone | setEvent =>
      rcases hrun' with hrun' | ⟨_, hrun'⟩ <;> cases hrun'
  · rw [h.token_run_of_ne hr m hx]
    rw [(m.run_of_ne hx).1] at hrun'
    exact h.runs hrun'

/-- **A step of the service keeps the tokens.** -/
theorem Tokens.serve {s : System} {v' : Service} (h : Tokens s.driver s.service)
    (hr : Registry s.driver s.service) (ha : s.driver.Arrived) (ho : s.driver.RqOwned)
    (hf : s.driver.Fills) (hw : Waits s.driver s.service)
    (hg : ∀ r q, (s.driver.bus.requests r).systemBuffer = some q → s.driver.bus.Genuine q)
    (hq : s.driver.bus.Genuine s.service.req)
    (hC : NoReuse s x) (m : Serves s.driver s.service x act v')
    (hd : perform s.driver act = some d') : Tokens s.driver v' := by
  refine ⟨?_, ?_, ?_, ?_, fun pr => (h.procs hr ha m pr).1, fun pr => (h.procs hr ha m pr).2.1,
    fun pr => (h.procs hr ha m pr).2.2, h.carries, h.takes,
    fun pr => mReq_of_serves m hq (h.mReq pr)⟩
  · by_cases hx : x = .run
    · subst hx
      exact h.flow_of_run hr ho hf hw m hd
    · exact h.flow_of_ne hr ha m hd hx
  · intro pr k p i hk ht
    rcases hk with hk | hk | ⟨rfl, hrun⟩
    · obtain ⟨k₀, hk₀, heq⟩ := h.source hr ha m hd (.inl hk) (ht ▸ Option.some_ne_none _)
      exact h.own pr k₀ p i hk₀ (heq.symm.trans ht)
    · obtain ⟨k₀, hk₀, heq⟩ := h.source hr ha m hd (.inr hk) (ht ▸ Option.some_ne_none _)
      exact h.own pr k₀ p i hk₀ (heq.symm.trans ht)
    · exact h.own_run hr hq m hrun ht
  · intro p i pr hs ht hm
    exact h.found_serve hr ho hf hw hg hq hC m hd hs ht hm
  · intro hrun
    exact h.runs_serve hr hf hw m hrun

/-! ## Moves of the driver -/

/-- The Run loop's token is in the service, or in the GET_REQUEST IRP it waits for. -/
theorem token_run_congr (hb : ∀ r, (d'.bus.requests r).systemBuffer =
    (d.bus.requests r).systemBuffer) : token d' v .run = token d v .run := by
  simp only [token, hb]

theorem token_run_of_hands (hrun : v.run.hands = some pr) :
    token d' v .run = token d v .run := by
  cases hpc : v.run <;> rw [hpc] at hrun
  all_goals first
    | (cases hrun; done)
    | simp only [token, hpc]

/-- A disk thread that has got rid of its reply has no token. -/
theorem token_replied (h : (v.procs pr).pc = .replying) (hi : d.calls (.disk pr) ≠ .idle)
    (hc : (d.calls (.disk pr)).carries = none) : token d v (.disk pr) = none := by
  simp [token, h, hc]

/-- **A disk thread carries its token**, or gets rid of it. -/
theorem token_disk_move (m : Moves t d.bus a (d.calls t) b' pc') (ha : Makes v a)
    (ht : token (d.put t (b', pc')) v (.disk pr) ≠ none) :
    token (d.put t (b', pc')) v (.disk pr) = token d v (.disk pr) := by
  by_cases hpr : t = .disk pr
  · subst hpr
    by_cases hpc : (v.procs pr).pc = .replying
    · have hself : (d.put (.disk pr) (b', pc')).calls (.disk pr) = pc' := Driver.put_calls_self ..
      cases hc : pc'.carries with
      | none =>
        have hidle : pc' = .idle := by
          by_contra hne
          refine ht (token_replied hpc ?_ ?_)
          · rwa [hself]
          · rwa [hself]
        obtain ⟨rfl⟩ := m.leaves hidle
        exact absurd (hpc.symm.trans ha) (by decide)
      | some rep =>
        rw [token_carries hpc (show Pc.carries _ = some rep by rw [hself, hc])]
        rcases m.carries hc with ⟨rfl, -⟩ | ⟨hfind, -⟩
        · obtain ⟨-, heq⟩ := ha
          cases heq
          exact (token_replying hpc m.calls).symm
        · rw [token_carries hpc (show (d.calls (.disk pr)).carries = some rep by rw [hfind]; rfl)]
    · simp only [token]
      split <;> first | rfl | exact absurd (by assumption) hpc
  · have hne : (d.put t (b', pc')).calls (.disk pr) = d.calls (.disk pr) :=
      Driver.put_calls_of_ne d (fun h => hpr h.symm) _
    simp only [token, hne]

/-- Every stage but the Run loop's keeps its token, or drops it. -/
theorem token_move (m : Moves t d.bus a (d.calls t) b' pc') (ha : Makes v a) {k : Stage}
    (hk : k ≠ .run) (ht : token (d.put t (b', pc')) v k ≠ none) :
    token (d.put t (b', pc')) v k = token d v k := by
  cases k with
  | run => exact absurd rfl hk
  | posted pr => rfl
  | disk pr => exact token_disk_move m ha ht

/-- A token's disk has its current IRP, unless the thread that moves takes the token's reply. -/
theorem Tokens.live_move (h : Tokens d v) (hl : d.Linked) (hk : d.Locked) (hc : Calling d v)
    (m : Moves t d.bus a (d.calls t) b' pc') {k : Stage} (ht : token d v k = some (p, i))
    (ht' : token (d.put t (b', pc')) v k ≠ none) : Live b' p i := by
  obtain ⟨hp, hlive⟩ := h.flow.live k p i ht
  refine ⟨Nat.lt_of_lt_of_le hp m.pdoCount_le, ?_⟩
  rcases hlive with hd | hi
  · rcases m.drained (p := p) (hl.new _ (Nat.le_refl _)) with heq | ⟨hd', -⟩
    · exact .inl (heq.trans hd)
    · exact .inl hd'
  rcases m.current_until hi hp with hi | hd | htest | ⟨rep, hpc⟩
  · exact .inr hi
  · exact .inl hd
  · cases hi.symm.trans (hk.tested t p htest)
  · -- the token is the reply's own, and the reply is taken
    have hcar : (d.calls t).carries = some rep := by rw [hpc]; rfl
    obtain ⟨pr, rfl, hproc⟩ := hc.carries t rep hcar
    obtain ⟨j, hj⟩ := h.takes pr p rep hpc
    obtain rfl := h.flow.single k (.disk pr) p i j ht ((token_carries hproc hcar).trans hj)
    refine absurd (token_replied hproc ?_ ?_) ht'
    · rw [Driver.put_calls_self]
      exact m.of_replyTake hpc |>.1
    · rw [Driver.put_calls_self]
      exact m.of_replyTake hpc |>.2

/-- **A packet is started on a disk that has no token.** -/
theorem Tokens.none_of_starts (h : Tokens d v) (hk : d.Locked) (hC : d.NoLateStart (.step t true))
    (hp : (d.calls t).starts = some p) (k : Stage) (j : IrpId) : token d v k ≠ some (p, j) := by
  intro ht
  rcases (h.flow.live k p j ht).2 with hd | hi
  · cases hd.symm.trans (hC p hp)
  · cases hi.symm.trans (hk.tested t p (Pc.tested_of_starts hp))

/-- **A move of a thread keeps the flow**: it starts a packet, and makes the token of the Run loop
that waits; or it takes a reply, and drops the token. -/
theorem Tokens.flow_move (h : Tokens d v) (hl : d.Linked) (hk : d.Locked) (hc : Calling d v)
    (hC : d.NoLateStart a) (ha : Makes v a) (m : Moves t d.bus a (d.calls t) b' pc') :
    Flow (Live b') (token (d.put t (b', pc')) v) := by
  have hsame : token (d.put t (b', pc')) v .run = token d v .run →
      Flow (Live b') (token (d.put t (b', pc')) v) := by
    intro hrun
    have htok : ∀ k, token (d.put t (b', pc')) v k ≠ none →
        token (d.put t (b', pc')) v k = token d v k := by
      intro k hk
      by_cases hkr : k = .run
      · exact hkr ▸ hrun
      · exact token_move m ha hkr hk
    refine (h.flow.frame htok).mono fun k p i ht _ => ?_
    have hne : token (d.put t (b', pc')) v k ≠ none := ht ▸ Option.some_ne_none _
    exact h.live_move hl hk hc m ((htok k hne).symm.trans ht) hne
  by_cases hb : ∀ r, (b'.requests r).systemBuffer = (d.bus.requests r).systemBuffer
  · exact hsame (token_run_congr hb)
  obtain ⟨r, hr⟩ := not_forall.mp hb
  obtain ⟨p, i, hp, rfl, -, rfl⟩ := (m.systemBuffer (r := r)).resolve_left hr
  by_cases hrun : v.run = .issuing r ∨ v.run = .waiting r
  · refine h.flow.start (p := p) (i := i) .run ?_ (fun k => token_move m ha)
      (h.none_of_starts hk hC hp) ?_ ?_
    · rcases hrun with hrun | hrun <;> simp [token, hrun]
    · have hlt := (hl.mentions t p
        (Pc.mem_mentions_of_locked (Pc.locked_of_tested (Pc.tested_of_starts hp)))).1
      exact ⟨hlt, .inr (by simp)⟩
    · intro q j hq hlive
      simpa [Live, hq] using hlive
  · rw [not_or] at hrun
    refine hsame ?_
    simp only [token]
    cases hpc : v.run with
    | issuing r' | waiting r' =>
      have hne : r' ≠ r := by
        rintro rfl
        simp [hpc] at hrun
      simp [hne]
    | _ => rfl

/-- A processor that has a PDO and has not exited is in the map. -/
theorem inMap_of_hasPdo (hr : Registry d v) (hp : HasPdo d.bus pr)
    (hpc : (v.procs pr).pc ≠ .exited) : InMap v pr := by
  refine (hr.alive pr ((hr.exits pr hp).resolve_right hpc)).resolve_right ?_
  rintro ⟨k, hk⟩
  have hw := hr.working k
  cases hrpc : v.rpcs k <;> rw [hrpc] at hk hw <;> cases hk
  all_goals exact hw.2.2.2.1 hp

/-- **A reply finds its own disk, or none**: a PDO on the list that bears the serial number of the
processor's has the processor's buffer. -/
theorem find_eq (hr : Registry d v) (hl : d.Linked) (hp : p < d.bus.pdoCount)
    (hpc : (v.procs (d.bus.pdos p).buffer).pc ≠ .exited)
    (hf : d.bus.findPdo (d.bus.pdos p).serialNo = some q) : q = p := by
  have hlist := List.mem_of_find?_eq_some hf
  have hserial : (d.bus.pdos q).serialNo = (d.bus.pdos p).serialNo := by
    simpa using List.find?_some hf
  have hq := (hl.known hlist).1
  have hmq := hr.live q hq (hl.intact q hlist).signalled
  have hmp := inMap_of_hasPdo hr ⟨p, hp, rfl⟩ hpc
  rw [InMap, ← (hr.owner q hq).2.2, hserial] at hmq
  rw [InMap, ← (hr.owner p hp).2.2] at hmp
  exact hr.injective q hq p hp (Option.some.inj (hmq.symm.trans hmp))

/-- A token's disk keeps its serial number and its processor. -/
theorem Tokens.identity (h : Tokens d v) (m : Moves t d.bus a (d.calls t) b' pc') {k : Stage}
    (ht : token d v k = some (p, i)) : (b'.pdos p).buffer = (d.bus.pdos p).buffer ∧
      (b'.pdos p).serialNo = (d.bus.pdos p).serialNo :=
  have hid := m.identity (h.flow.live k p i ht).1
  ⟨hid.2.2.2.1, hid.1⟩

/-- **The request of a packet that was just started leads to its own disk**, whose processor is in
the map. -/
theorem Tokens.found_move (h : Tokens d v) (hr : Registry d v) (hl : d.Linked) (hdr : d.Drained)
    (hC : d.NoLateStart a) (m : Moves t d.bus a (d.calls t) b' pc')
    (hs : v.run.searches = true) (ht : token (d.put t (b', pc')) v .run = some (p, i))
    (hm : v.diskMap (b'.pdos p).serialNo = some pr) : (b'.pdos p).buffer = pr := by
  by_cases hrun : token (d.put t (b', pc')) v .run = token d v .run
  · rw [hrun] at ht
    obtain ⟨hb, hser⟩ := h.identity m ht
    rw [hser] at hm
    exact hb.trans (h.found p i pr hs ht hm)
  have hb : ∃ r, (v.run = .issuing r ∨ v.run = .waiting r) ∧
      (b'.requests r).systemBuffer ≠ (d.bus.requests r).systemBuffer := by
    by_contra hno
    push Not at hno
    refine hrun ?_
    cases hpc : v.run with
    | issuing r => simp [token, hpc, hno r (.inl hpc)]
    | waiting r => simp [token, hpc, hno r (.inr hpc)]
    | _ => simp [token, hpc]
  obtain ⟨r, hwait, hr'⟩ := hb
  obtain ⟨q, j, hq, rfl, -, rfl⟩ := (m.systemBuffer (r := r)).resolve_left hr'
  obtain ⟨rfl, rfl⟩ : q = p ∧ j = i := by
    rcases hwait with hwait | hwait <;> simpa [token, hwait] using ht
  have hlt := (hl.mentions t q
    (Pc.mem_mentions_of_locked (Pc.locked_of_tested (Pc.tested_of_starts hq)))).1
  have hsig : (d.bus.pdos q).signalled = false := by
    by_contra hsig
    cases (hC q hq).symm.trans (hdr.signalled q (by simpa using hsig))
  have hlive := hr.live q hlt hsig
  rw [InMap, ← (hr.owner q hlt).2.2] at hlive
  rw [(m.identity hlt).1] at hm
  exact (m.identity hlt).2.2.2.1.trans (Option.some.inj (hlive.symm.trans hm))

/-- The replies that are carried to a disk are the tokens' own. -/
theorem Tokens.carries_move (h : Tokens d v) (ha : Makes v a)
    (m : Moves t d.bus a (d.calls t) b' pc') (pr : ProcId) (rep : Tagged BusenumReply)
    (hrep : ((d.put t (b', pc')).calls (.disk pr)).carries = some rep) : ∃ p i,
    rep.origin = some (p, i) ∧ p < b'.pdoCount ∧ rep.val.handle = (b'.pdos p).serialNo := by
  have hkeep : (∃ p i, rep.origin = some (p, i) ∧ p < d.bus.pdoCount ∧
      rep.val.handle = (d.bus.pdos p).serialNo) →
      ∃ p i, rep.origin = some (p, i) ∧ p < b'.pdoCount ∧
        rep.val.handle = (b'.pdos p).serialNo := by
    rintro ⟨p, i, ho, hp, hh⟩
    exact ⟨p, i, ho, Nat.lt_of_lt_of_le hp m.pdoCount_le, hh.trans (m.identity hp).1.symm⟩
  refine hkeep ?_
  by_cases hpr : t = .disk pr
  · subst hpr
    rw [Driver.put_calls_self] at hrep
    rcases m.carries hrep with ⟨rfl, -⟩ | ⟨hfind, -⟩
    · obtain ⟨hpc, heq⟩ := ha
      cases heq
      obtain ⟨hexec, hne⟩ := h.answers pr (.inr ⟨hpc, m.calls⟩)
      obtain ⟨⟨p, i⟩, ho⟩ := Option.ne_none_iff_exists'.mp hne
      have hq := h.mReq pr
      have horigin := hexec.symm.trans ho
      exact ⟨p, i, ho, (hq p i horigin).1, handle_of_genuine hq horigin⟩
    · exact h.carries pr rep (by rw [hfind]; rfl)
  · rw [Driver.put_calls_of_ne d (fun heq => hpr heq.symm)] at hrep
    exact h.carries pr rep hrep

/-- **A move of a thread keeps the tokens.** -/
theorem Tokens.move (h : Tokens d v) (hr : Registry d v) (hl : d.Linked) (hk : d.Locked)
    (hdr : d.Drained) (hc : Calling d v) (hC : d.NoLateStart a) (ha : Makes v a)
    (m : Moves t d.bus a (d.calls t) b' pc') : Tokens (d.put t (b', pc')) v := by
  refine ⟨h.flow_move hl hk hc hC ha m, ?_, ?_, ?_, h.posted, h.executes, ?_,
    h.carries_move ha m, ?_, fun pr => m.genuine (h.mReq pr)⟩
  · intro pr k p i hk ht
    have htok : token d v k = some (p, i) := by
      rcases hk with rfl | rfl | ⟨rfl, hrun⟩
      · exact ht
      · exact (token_disk_move m ha (ht ▸ Option.some_ne_none _)).symm.trans ht
      · exact (token_run_of_hands hrun).symm.trans ht
    exact (h.identity m htok).1.trans (h.own pr k p i hk htok)
  · exact fun p i pr hs ht hm => h.found_move hr hl hdr hC m hs ht hm
  · rintro (hrun | ⟨pr, hrun⟩)
    · have htok : token (d.put t (b', pc')) v .run = token d v .run := by simp [token, hrun]
      rw [htok]
      exact h.runs (.inl hrun)
    · rw [token_run_of_hands hrun]
      exact h.runs (.inr ⟨pr, hrun⟩)
  · rintro pr (hpc | ⟨hpc, hidle⟩)
    · exact h.answers pr (.inl hpc)
    · by_cases hpr : t = .disk pr
      · subst hpr
        obtain rfl := m.leaves ((Driver.put_calls_self ..).symm.trans hidle)
        exact absurd (hpc.symm.trans ha) (by decide)
      · rw [Driver.put_calls_of_ne d (fun heq => hpr heq.symm)] at hidle
        exact h.answers pr (.inr ⟨hpc, hidle⟩)
  · intro pr q rep hpc
    by_cases hpr : t = .disk pr
    · subst hpr
      rw [Driver.put_calls_self] at hpc
      have hrep : pc'.carries = some rep := by rw [show pc' = .replyTake q rep from hpc]; rfl
      rcases m.carries hrep with ⟨-, hpc'⟩ | ⟨hfind, q', hf, hpc', rfl⟩
      · cases hpc.symm.trans hpc'
      · cases hpc.symm.trans hpc'
        have hcar : (d.calls (.disk pr)).carries = some rep := by rw [hfind]; rfl
        obtain ⟨p, i, ho, hp, hh⟩ := h.carries pr rep hcar
        obtain ⟨pr', heq, hproc⟩ := hc.carries _ rep hcar
        cases heq
        have hown := h.own pr (.disk pr) p i (.inr (.inl rfl))
          ((token_carries hproc hcar).trans ho)
        obtain rfl := find_eq hr hl hp (by rw [hown, hproc]; decide) (hh ▸ hf)
        exact ⟨i, ho⟩
    · rw [Driver.put_calls_of_ne d (fun heq => hpr heq.symm)] at hpc
      exact h.takes pr q rep hpc

variable {s : System} {files : FileId → File}

/-- No packet is started on a disk that `Bus_DestroyPdo` has drained. -/
def NoLateStart (s : System) : SysAction → Prop
  | .driver a => s.driver.NoLateStart a
  | _ => True

/-- The service starts no packets itself. -/
theorem noLateStart_of_serves {s : System} (hC : NoLateStart s x)
    (m : Serves s.driver s.service x (some a) v') : s.driver.NoLateStart a := by
  cases m with
  | driver => exact hC
  | _ => trivial

/-- **The steps of a service whose disks' requests are kept apart**: no GET_REQUEST is withdrawn, no
id is used again under way, and no packet is started on a drained disk. -/
structure Orderly (s : System) (x : SysAction) : Prop where
  keepsRequests : KeepsRequests s x
  noReuse : NoReuse s x
  noLateStart : NoLateStart s x

/-- The tokens of a system that was just started. -/
theorem Tokens.init : Tokens {} { files := files } := by
  refine ⟨⟨?_, ?_⟩, ?_, ?_, ?_, ?_, ?_, ?_, ?_, ?_, ?_⟩
  · rintro (_ | pr | pr) p i ⟨⟩
  · rintro (_ | pr | pr) k' p i j ⟨⟩
  · rintro pr (_ | pr | pr) p i - ⟨⟩
  · rintro p i pr - ⟨⟩
  · rintro (⟨⟨⟩⟩ | ⟨pr, ⟨⟩⟩)
  · rintro pr ⟨⟩
  · rintro pr ⟨⟩
  · rintro pr (⟨⟨⟩⟩ | ⟨⟨⟩, -⟩)
  · rintro pr rep ⟨⟩
  · rintro pr q rep ⟨⟩
  · rintro pr p i ⟨⟩

/-- The service's part of an orderly step keeps the tokens. -/
theorem serve_tokens (hr : (lts files).Reach Orderly s) (hC : Orderly s x)
    (h : Tokens s.driver s.service) (m : Serves s.driver s.service x act v')
    (hd : perform s.driver act = some d') : Tokens s.driver v' := by
  have hd' := driver_reachable hr
  exact h.serve (registry hr) (Driver.arrived hd') (Driver.rqOwned hd') (Driver.fills hd')
    (waits (hr.mono fun _ _ _ _ hC => hC.keepsRequests)) (Driver.genuine hd') (req_genuine hr)
    hC.noReuse m hd

/-- **Every request is in one place, and at its own disk's processor**, in every run of orderly
steps. -/
theorem tokens (h : (lts files).Reach Orderly s) : Tokens s.driver s.service := by
  refine invariant Tokens.init (fun _ _ _ _ _ hr hC hi m hd => serve_tokens hr hC hi m hd) ?_ h
  intro s x act v' d' hr hC hv m hd
  have hd' := driver_reachable hr
  have hreg : Registry s.driver v' := (registry hr).serve m hd
  rcases Driver.step_moves hd with ⟨t, b', pc', hm, rfl⟩ | ⟨n, f, -, rfl⟩ | ⟨e, -, -, rfl⟩
  · exact hv.move hreg (Driver.linked hd') (Driver.locked hd') (Driver.drained hd')
      ((calling hr).serve m) (noLateStart_of_serves hC.noLateStart m) m.makes hm
  · exact ⟨hv.1, hv.2, hv.3, hv.4, hv.5, hv.6, hv.7, hv.8, hv.9, hv.10⟩
  · exact ⟨hv.1, hv.2, hv.3, hv.4, hv.5, hv.6, hv.7, hv.8, hv.9, hv.10⟩

end System

end VirtualDisk
