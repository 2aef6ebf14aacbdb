import VirtualDisk.Driver.Regular

/-!
# Driver/Wakeup — who starts the next packet

The GET_REQUEST IRPs wait in one queue for the packets of all disks.  A disk with a packet to start
is watched: some thread is on its way to test it, or no request is to be had.  A start routine that
takes a request for a disk without packets puts it back, and visits no other disk for it; a disk
that found the queue empty meanwhile has lost its wake-up.
-/

namespace VirtualDisk

open Machinery

variable {t : Tid} {a : Action} {b b' : Bus} {pc pc' : Pc} {p q : PdoId} {i : IrpId} {r : RqId}

/-! ## The disks a thread is on its way to -/

/-- What comes behind an entry of the list. -/
def after (l : List PdoId) : Entry → List PdoId
  | .head => l
  | .pdo p => (l.dropWhile (· ≠ p)).tail

namespace Bus

/-- What is behind an entry whose successor is `q`. -/
theorem after_of_next {l : List PdoId} (hn : l.Nodup) (h : next l p = .pdo q) :
    after l (.pdo p) = q :: after l (.pdo q) := by
  induction l with
  | nil => cases h
  | cons x l ih =>
    obtain ⟨hx, hn⟩ := List.nodup_cons.mp hn
    by_cases hxp : x = p
    · subst hxp
      cases l with
      | nil => simp [next] at h
      | cons y l =>
        obtain rfl : y = q := by simpa [next] using h
        have hxy : x ≠ y := List.ne_of_not_mem_cons hx
        simp [after, hxy]
    · have h : next l p = .pdo q := by simpa [next, hxp] using h
      have hxq : x ≠ q := by
        rintro rfl
        exact hx (mem_of_next h)
      simpa [after, hxp, hxq] using ih hn h

/-- The last entry has no successor. -/
theorem after_of_next_head {l : List PdoId} (h : next l p = .head) : after l (.pdo p) = [] := by
  unfold next at h
  split at h
  · cases h
  · next hl =>
    show (l.dropWhile (· ≠ p)).tail = []
    cases hd : l.dropWhile (· ≠ p) with
    | nil => rfl
    | cons x l' =>
      cases l' with
      | nil => rfl
      | cons y l'' => exact absurd hd (hl x y l'')

/-- **The link of an entry** leads to what is behind it. -/
theorem after_of_flink {e : Entry} (hn : b.fdo.listOfPDOs.Nodup)
    (he : ∀ p ∈ e.mentions, p ∈ b.fdo.listOfPDOs) :
    (b.flink e = .head → after b.fdo.listOfPDOs e = []) ∧
    ∀ q, b.flink e = .pdo q →
      after b.fdo.listOfPDOs e = q :: after b.fdo.listOfPDOs (.pdo q) := by
  cases e with
  | head =>
    simp only [flink, after]
    cases hl : b.fdo.listOfPDOs with
    | nil => exact ⟨fun _ => rfl, by rintro q ⟨⟩⟩
    | cons x l =>
      refine ⟨by rintro ⟨⟩, fun q h => ?_⟩
      obtain rfl : x = q := Entry.pdo.inj h
      simp
  | pdo p =>
    rw [flink, if_pos (he p (by simp [Entry.mentions]))]
    exact ⟨after_of_next_head, fun q => after_of_next hn⟩

end Bus

/-- A disk put at the end of the list is behind every entry that has one behind it already. -/
theorem mem_after_append {l : List PdoId} {e : Entry} (x : PdoId) (h : q ∈ after l e) :
    q ∈ after (l ++ [x]) e := by
  cases e with
  | head => exact List.mem_append_left _ h
  | pdo p =>
    have h : q ∈ (l.dropWhile (· ≠ p)).tail := h
    show q ∈ ((l ++ [x]).dropWhile (· ≠ p)).tail
    rw [List.dropWhile_append]
    cases hd : l.dropWhile (· ≠ p) with
    | nil =>
      rw [hd] at h
      cases h
    | cons y l' =>
      rw [hd] at h
      simpa using .inl h

/-- The disks the caller of `BusStartNextPacket` goes on to. -/
def NextCaller.visits (l : List PdoId) : NextCaller → List PdoId
  | .getRequest p => after l (.pdo p)
  | .reply => []

/-- **The disks a thread is on its way to test**, with `l` the list. -/
def Pc.visits (l : List PdoId) : Pc → List PdoId
  | .getInsert _ => l
  | .getLoop e => after l e
  | .nextPacket p k | .nextRequest p k | .nextIrp p _ k | .nextSetup p _ _ k => p :: k.visits l
  | .nextPutBack _ _ k | .nextComplete _ k => k.visits l
  | .replyComplete p _ | .replyRelease p => [p]
  | _ => []

/-- **The thread holds a request for a disk without packets**: it will put it back. -/
def Pc.tentative (b : Bus) : Pc → Bool
  | .nextIrp p _ _ => (b.pdos p).irpQueue.isEmpty
  | .nextPutBack _ _ _ => true
  | _ => false

@[simp] theorem Pc.visits_nextReturn (l : List PdoId) (k : NextCaller) :
    (nextReturn k).visits l = k.visits l := by
  cases k <;> rfl

@[simp] theorem Pc.tentative_nextReturn (b : Bus) (k : NextCaller) :
    (nextReturn k).tentative b = false := by
  cases k <;> rfl

namespace Moves

/-- A visit goes on: the disk is still to be tested, or it was found to have a current IRP, or to
have no request, or no packet. -/
theorem visits (m : Moves t b a pc b' pc') (ha : pc.allows a = true) (hpc : pc.regular = true)
    (hn : b.fdo.listOfPDOs.Nodup) (hl : ∀ p ∈ pc.mentions, p ∈ b.fdo.listOfPDOs)
    (hparent : ∀ p ∈ pc.mentions, (b.pdos p).parentFdo ≠ none)
    (hfdo : b.fdo.devicePnPState = .started) (hp : p ∈ pc.visits b.fdo.listOfPDOs) :
    p ∈ pc'.visits b'.fdo.listOfPDOs ∨ (b'.pdos p).currentIrp ≠ none ∨
    (∃ k, pc = .nextRequest p k ∧ b.peekRequest none = none) ∨
    (∃ r k, pc = .nextIrp p r k ∧ b.peekIrp p = none) := by
  cases m
  case getInsertDeleted h => rw [hfdo] at h; cases h
  case nextPacketCrash hf => exact absurd hf (hparent _ (by simp [Pc.mentions]))
  case getLoopEnd h =>
    rw [Pc.visits, (Bus.after_of_flink hn hl).1 h] at hp
    cases hp
  case getLoop h =>
    rw [Pc.visits, (Bus.after_of_flink hn hl).2 _ h] at hp
    exact .inl hp
  case nextPacketBusy hc =>
    rcases List.mem_cons.mp hp with rfl | hp
    · exact .inr (.inl hc)
    · exact .inl (by simpa using hp)
  case nextRequestNone h =>
    rcases List.mem_cons.mp hp with rfl | hp
    · exact .inr (.inr (.inl ⟨_, rfl, h⟩))
    · exact .inl (by simpa using hp)
  case nextIrpNone h =>
    rcases List.mem_cons.mp hp with rfl | hp
    · exact .inr (.inr (.inr ⟨_, _, rfl, h⟩))
    · exact .inl hp
  case nextSetup =>
    rcases List.mem_cons.mp hp with rfl | hp
    · exact .inr (.inl (by simp))
    · exact .inl hp
  all_goals first
    | exact .inl hp
    | (cases ha; done)
    | (cases hpc; done)
    | cases hp
    | exact .inl ((Pc.visits_nextReturn _ _).symm ▸ hp)

/-- `CurrentIrp` is cleared by a reply, which goes on to start the next packet. -/
theorem clears (m : Moves t b a pc b' pc') (hpc : pc.regular = true)
    (hnew : b.pdos b.pdoCount = {}) (hc : (b.pdos p).currentIrp ≠ none)
    (hc' : (b'.pdos p).currentIrp = none) : p ∈ pc'.visits b'.fdo.listOfPDOs := by
  cases m
  case replyTakeCancelled q rep i _ _ _ =>
    have hpq : p = q := by
      by_contra hpq
      exact hc (by simpa [hpq] using hc')
    exact List.mem_singleton.mpr hpq
  case replyTake q rep i _ _ _ =>
    have hpq : p = q := by
      by_contra hpq
      exact hc (by simpa [hpq] using hc')
    exact List.mem_singleton.mpr hpq
  all_goals first
    | (cases hpc; done)
    | exact absurd hc' hc
    | exact absurd ((frame_update PdoDeviceData.currentIrp (by rfl)).symm.trans hc') hc
    | skip
  all_goals
    refine absurd ?_ hc
    simp [Function.update_apply] at hc'
    split at hc' <;> simp_all

/-- An `IrpQueue` changes in a section of its disk's lock. -/
theorem irpQueue (m : Moves t b a pc b' pc') (hpc : pc.regular = true)
    (hnew : b.pdos b.pdoCount = {}) :
    (b'.pdos p).irpQueue = (b.pdos p).irpQueue ∨
    (pc.locked = some p ∧ ((b'.pdos p).irpQueue ≠ [] → (b.pdos p).irpQueue ≠ [] ∨
      ∃ i, pc = .startInsert p i)) := by
  cases m
  case startInsert q i _ =>
    rcases eq_or_ne p q with rfl | hpq
    · exact .inr ⟨rfl, fun _ => .inr ⟨i, rfl⟩⟩
    · exact .inl (by simp [hpq])
  case nextIrp q r k i hi =>
    rcases eq_or_ne p q with rfl | hpq
    · exact .inr ⟨rfl, fun _ => .inl (List.ne_nil_of_mem (Bus.mem_of_peekIrp hi).1)⟩
    · exact .inl (by simp [hpq])
  all_goals first
    | (cases hpc; done)
    | exact .inl rfl
    | exact .inl (frame_update PdoDeviceData.irpQueue rfl)
    | skip
  all_goals
    left
    simp [Function.update_apply]
    split <;> simp_all [Bus.newPdo]

/-- A packet comes to be queued because the disk has a current IRP, or because there was no
request. -/
theorem queues (m : Moves t b a pc b' pc') (hpc : pc' = .startInsert p i) :
    (b'.pdos p).currentIrp ≠ none ∨
    (pc = .startRequest p i ∧ b.peekRequest none = none ∧ b' = b) := by
  cases m
  case startPacketBusy hc =>
    cases hpc
    exact .inl (by simpa using hc)
  case startRequestNone h =>
    cases hpc
    exact .inr ⟨rfl, h, rfl⟩
  all_goals first
    | cases hpc
    | (rename NextCaller => k; cases k <;> cases hpc)
    | (rename DestroyCaller => k; cases k <;> cases hpc)

/-- When no request is to be had and none is held tentatively, it stays so until the next
GET_REQUEST. -/
theorem calm (m : Moves t b a pc b' pc') (ha : pc.allows a = true) (hpc : pc.regular = true)
    (hpeek : ∀ p, b.peekIrp p = none → (b.pdos p).irpQueue = [])
    (hq : b.fdo.requestQueue = []) (ht : pc.tentative b = false) :
    (b'.fdo.requestQueue = [] ∧ pc'.tentative b' = false) ∨
    pc'.visits b'.fdo.listOfPDOs = b'.fdo.listOfPDOs := by
  cases m
  case getInsert => exact .inr rfl
  case startRequest h => simp [Bus.peekRequest, hq] at h
  case nextRequest h => simp [Bus.peekRequest, hq] at h
  case nextIrpNone h => simp [Pc.tentative, hpeek _ h] at ht
  all_goals first
    | exact .inl ⟨hq, rfl⟩
    | (cases ha; done)
    | (cases hpc; done)
    | (cases ht; done)
    | exact .inl ⟨hq, Pc.tentative_nextReturn _ _⟩

end Moves

namespace Driver

variable {s s' : Driver} {C : Driver → Action → Prop}

/-- **A disk needs a request**: it has no current IRP, and a packet that is queued or
about to be. -/
def Needy (s : Driver) (p : PdoId) : Prop :=
  (s.bus.pdos p).currentIrp = none ∧
    ((s.bus.pdos p).irpQueue ≠ [] ∨ ∃ t i, s.calls t = .startInsert p i)

/-- No request is to be had, and none will be put back. -/
def Calm (s : Driver) : Prop :=
  s.bus.fdo.requestQueue = [] ∧ ∀ t, (s.calls t).tentative s.bus = false

/-- **Every needy disk is watched**: a thread is on its way to it, or there is no request. -/
def Watched (s : Driver) : Prop :=
  ∀ p, s.Needy p → (∃ t, p ∈ (s.calls t).visits s.bus.fdo.listOfPDOs) ∨ s.Calm

/-- The disk a start routine tests for a request: `BusStartPacket`, which has a packet in hand, and
`BusStartNextPacket` for a disk with a queued one. -/
def seeks (s : Driver) (t : Tid) (p : PdoId) : Prop :=
  (∃ i, s.calls t = .startRequest p i) ∨
    ∃ k, s.calls t = .nextRequest p k ∧ (s.bus.pdos p).irpQueue ≠ []

/-- **No missed wake-up**: no start routine with a packet to start finds the `RequestQueue` empty
while another thread holds a request for a disk without packets. -/
def NoMissedWakeup (s : Driver) : Action → Prop
  | .step t _ => ∀ p, s.seeks t p → s.bus.fdo.requestQueue = [] →
      ∀ t₂, (s.calls t₂).tentative s.bus = false
  | _ => True

/-- What a needy disk keeps out: while its lock is held, no other thread is about to queue a packet
on it. -/
theorem Needy.irpQueue_ne_nil (h : s.Needy p) (hk : s.Locked) (ht : (s.calls t).locked = some p)
    (hpc : ∀ i, s.calls t ≠ .startInsert p i) : (s.bus.pdos p).irpQueue ≠ [] := by
  rcases h.2 with hq | ⟨t₂, i, ht₂⟩
  · exact hq
  · have htt : t₂ = t := hk.unique (by rw [ht₂]; rfl) ht
    exact absurd (htt ▸ ht₂) (hpc i)

/-- A needy disk is known. -/
theorem Needy.known (h : s.Needy p) (hl : s.Linked) (ho : s.Orphans) : s.bus.Known p := by
  rcases h.2 with hq | ⟨t, i, ht⟩
  · rcases Nat.lt_or_ge p s.bus.pdoCount with hlt | hge
    · refine ⟨hlt, ?_⟩
      by_contra hi
      obtain ⟨t, ht⟩ := ho.unknown p hlt (by simpa using hi)
      obtain ⟨-, dd, hdd⟩ := hl.adding t p ht
      rw [hdd] at hq
      exact hq rfl
    · rw [hl.new p hge] at hq
      exact absurd rfl hq
  · exact hl.mentions t p (by rw [ht]; exact List.mem_singleton_self p)

/-- The visits of a thread that does not move go on. -/
theorem mem_visits_of_append {l : List PdoId} (x : PdoId) (h : p ∈ pc.visits l) :
    p ∈ pc.visits (l ++ [x]) := by
  have hk : ∀ {k : NextCaller}, p ∈ k.visits l → p ∈ k.visits (l ++ [x]) := by
    intro k h
    cases k with
    | getRequest q =>
      have h : p ∈ after l (.pdo q) := h
      exact mem_after_append x h
    | reply => cases h
  have hcons : ∀ {q : PdoId} {k : NextCaller}, p ∈ q :: k.visits l → p ∈ q :: k.visits (l ++ [x]) :=
    fun h => (List.mem_cons.mp h).elim (fun hq => hq ▸ List.mem_cons_self)
      fun h => List.mem_cons_of_mem _ (hk h)
  cases pc
  case getInsert => exact List.mem_append_left _ h
  case getLoop e =>
    have h : p ∈ after l e := h
    exact mem_after_append x h
  all_goals first
    | exact hcons h
    | exact hk h
    | exact h

/-- **Calm lasts** until the next GET_REQUEST, which visits every disk. -/
theorem Calm.move (h : s.Calm) (hl : s.Linked) (hk : s.Locked) (hi : s.InService)
    (hreg : s.Regular a = true) (m : Moves t s.bus a (s.calls t) b' pc') :
    (s.put t (b', pc')).Calm ∨ pc'.visits b'.fdo.listOfPDOs = b'.fdo.listOfPDOs := by
  have ha : (s.calls t).allows a = true := by simpa [Regular, m.thread] using hreg
  refine (m.calm ha (hi.pc t) (fun p => hi.irpQueue_eq_nil) h.1 (h.2 t)).imp_left ?_
  rintro ⟨hq, ht⟩
  refine ⟨hq, forall_update (L := fun _ (pc : Pc) => pc.tentative b' = false) ht ?_⟩
  intro t₂ hne
  have ht₂ := h.2 t₂
  cases hpc : s.calls t₂ with
  | nextIrp q r k =>
    -- the queue of a disk whose lock another thread holds
    rcases m.irpQueue (p := q) (hi.pc t) (hl.new _ (Nat.le_refl _)) with heq | ⟨hlock, -⟩
    · rw [hpc] at ht₂
      rw [Pc.tentative, heq]
      exact ht₂
    · exact absurd (hk.unique (by rw [hpc]; rfl) hlock) hne
  | nextPutBack q r k => rw [hpc] at ht₂; cases ht₂
  | _ => rfl

/-- **A move that meets the conditions keeps the needy disks watched.** -/
theorem Watched.move (h : s.Watched) (hl : s.Linked) (hk : s.Locked) (ho : s.Orphans)
    (hi : s.InService) (hreg : s.Regular a = true) (hC : s.NoMissedWakeup a)
    (m : Moves t s.bus a (s.calls t) b' pc') : (s.put t (b', pc')).Watched := by
  have ha : (s.calls t).allows a = true := by simpa [Regular, m.thread] using hreg
  have hnew := hl.new _ (Nat.le_refl _)
  have hlist := m.listOfPDOs_of_regular (hi.pc t)
  intro p hp'
  have hown : p ∈ pc'.visits b'.fdo.listOfPDOs → (∃ t₂, p ∈ ((s.put t (b', pc')).calls t₂).visits
      (s.put t (b', pc')).bus.fdo.listOfPDOs) ∨ (s.put t (b', pc')).Calm :=
    fun hp => .inl ⟨t, by rw [put_calls_self]; exact hp⟩
  have hmem : s.bus.Known p → p ∈ b'.fdo.listOfPDOs := by
    intro hp
    rcases hlist with heq | ⟨q, -, heq⟩
    · exact heq ▸ hi.linked p hp
    · exact heq ▸ List.mem_append_left _ (hi.linked p hp)
  have hcalm : s.bus.Known p → s.Calm → (∃ t₂, p ∈ ((s.put t (b', pc')).calls t₂).visits
      (s.put t (b', pc')).bus.fdo.listOfPDOs) ∨ (s.put t (b', pc')).Calm := by
    intro hp hc
    rcases hc.move hl hk hi hreg m with hc | hv
    · exact .inr hc
    · exact hown (by rw [hv]; exact hmem hp)
  -- the thread finds no request for a packet it could start
  have hempty : s.seeks t p → s.bus.peekRequest none = none → s.Calm := by
    intro hseeks hnone
    have hq := hi.requestQueue_eq_nil hnone
    have hrest : (s.calls t).rest = false := by
      rcases hseeks with ⟨i, hpc⟩ | ⟨k, hpc, -⟩ <;> rw [hpc] <;> rfl
    obtain ⟨ok, rfl⟩ := m.isStep hrest
    exact ⟨hq, hC p hseeks hq⟩
  by_cases hc : (s.bus.pdos p).currentIrp = none
  swap
  · exact hown (m.clears (hi.pc t) hnew hc hp'.1)
  have hneedy : s.Needy p ∨ (s.bus.Known p ∧ s.Calm) := by
    rcases hp'.2 with hq | ⟨t₂, i, ht₂⟩
    · rcases m.irpQueue (p := p) (hi.pc t) hnew with heq | ⟨-, hold⟩
      · exact .inl ⟨hc, .inl (heq ▸ hq)⟩
      · rcases hold hq with hq | ⟨i, hpc⟩
        · exact .inl ⟨hc, .inl hq⟩
        · exact .inl ⟨hc, .inr ⟨t, i, hpc⟩⟩
    · rcases eq_or_ne t₂ t with rfl | hne
      · rw [put_calls_self] at ht₂
        rcases m.queues ht₂ with hc' | ⟨hpc, hnone, -⟩
        · exact absurd hp'.1 hc'
        · refine .inr ⟨hl.mentions t₂ p ?_, hempty (.inl ⟨i, hpc⟩) hnone⟩
          rw [hpc]
          exact List.mem_singleton_self p
      · rw [put_calls_of_ne s hne] at ht₂
        exact .inl ⟨hc, .inr ⟨t₂, i, ht₂⟩⟩
  rcases hneedy with hneedy | ⟨hp, hcalm'⟩
  swap
  · exact hcalm hp hcalm'
  have hknown := hneedy.known hl ho
  rcases h p hneedy with ⟨t₂, hv⟩ | hcalm'
  swap
  · exact hcalm hknown hcalm'
  rcases eq_or_ne t₂ t with rfl | hne
  · have hlinked : ∀ p ∈ (s.calls t₂).mentions, p ∈ s.bus.fdo.listOfPDOs :=
      fun p hp => hi.linked p (hl.mentions t₂ p hp)
    have hparent : ∀ p ∈ (s.calls t₂).mentions, (s.bus.pdos p).parentFdo ≠ none := by
      intro p hp
      rw [(hl.intact p (hlinked p hp)).parentFdo]
      exact Option.some_ne_none _
    rcases m.visits ha (hi.pc t₂) hl.nodup hlinked hparent hi.fdo hv with
      hv | hc' | ⟨k, hpc, hnone⟩ | ⟨r, k, hpc, hnone⟩
    · exact hown hv
    · exact absurd hp'.1 hc'
    · refine hcalm hknown (hempty (.inr ⟨k, hpc, ?_⟩) hnone)
      exact hneedy.irpQueue_ne_nil hk (by rw [hpc]; rfl) (by simp [hpc])
    · refine absurd (hi.irpQueue_eq_nil hnone) ?_
      exact hneedy.irpQueue_ne_nil hk (by rw [hpc]; rfl) (by simp [hpc])
  · left
    refine ⟨t₂, ?_⟩
    rw [put_calls_of_ne s hne]
    show p ∈ (s.calls t₂).visits b'.fdo.listOfPDOs
    rcases hlist with heq | ⟨q, -, heq⟩
    · exact heq ▸ hv
    · exact heq ▸ mem_visits_of_append q hv

/-- The needy disks are watched in every run that meets the conditions. -/
theorem watched (h : lts.Reach (fun s a => s.Regular a = true ∧ s.NoMissedWakeup a) s) :
    s.Watched := by
  refine h.invariant (I := Watched) ?_ fun s a s' hr hi hC hs => ?_
  · rintro p ⟨-, hq | ⟨t, i, ht⟩⟩
    · exact absurd rfl hq
    · cases ht
  rcases step_moves hs with ⟨t, b', pc', m, rfl⟩ | ⟨m, f, -, rfl⟩ | ⟨e, -, -, rfl⟩
  · have hreg := inService (hr.mono fun _ _ _ _ h => h.1)
    exact hi.move (linked hr) (locked hr) (orphans hr) hreg hC.1 hC.2 m
  · exact hi
  · exact hi

/-! ## Stranded work -/

/-- **Stranded work**: a request waits while a disk has a packet it could be filled with. -/
def Stranded (s : Driver) : Prop :=
  s.bus.fdo.requestQueue ≠ [] ∧ ∃ p ∈ s.bus.fdo.listOfPDOs,
    (s.bus.pdos p).currentIrp = none ∧ (s.bus.pdos p).irpQueue ≠ []

/-- A thread at rest is on its way to no disk. -/
theorem visits_of_rest {l : List PdoId} (h : pc.rest = true) : pc.visits l = [] := by
  cases pc <;> first | rfl | cases h

/-- **No work is stranded** whenever no routine is under way, in every run that meets the
conditions. -/
theorem not_stranded (h : lts.Reach (fun s a => s.Regular a = true ∧ s.NoMissedWakeup a) s)
    (hrest : ∀ t, (s.calls t).rest = true) : ¬ s.Stranded := by
  rintro ⟨hreq, p, -, hc, hq⟩
  rcases watched h p ⟨hc, .inl hq⟩ with ⟨t, ht⟩ | ⟨hempty, -⟩
  · rw [visits_of_rest (hrest t)] at ht
    cases ht
  · exact hreq hempty

/-- A request that waits, a disk with a current IRP, and one without work. -/
theorem not_stranded_waiting :
    ∃ s, lts.Reach (fun s a => s.Regular a = true ∧ s.NoMissedWakeup a) s ∧
      s.bus.fdo.requestQueue = [1] ∧ ¬ s.Stranded := by
  obtain ⟨s, hs, hlast, hq⟩ := lts.exists_reach
    (C := fun s a => s.Regular a = true ∧ a.onlyBy [.sys 0] = true)
    (c := fun s a => s.Regular a && a.onlyBy [.sys 0]) (fun _ _ ha => Bool.and_eq_true_iff.mp ha)
    (startedRun ++ routine (.sys 0) (.addDisk (smallDisk 2 1)) 3 ++
      routine (.sys 0) (.getRequest 1 0) 9)
    (fun s => (s.calls (.sys 0)).rest = true ∧ s.bus.fdo.requestQueue = [1]) (by decide +kernel)
  have hidle : ∀ {s}, lts.Reach (fun s a => s.Regular a = true ∧ a.onlyBy [.sys 0] = true) s →
      ∀ t, t ≠ .sys 0 → s.calls t = .idle := fun hs t ht =>
    idle_of_onlyBy hs (fun _ _ h => h.2) t (by simpa using ht)
  have hreach : lts.Reach (fun s a => s.Regular a = true ∧ s.NoMissedWakeup a) s := by
    refine hs.mono fun s a hr _ ha => ⟨ha.1, ?_⟩
    cases a with
    | step t ok =>
      obtain rfl : t = .sys 0 := by simpa [Action.onlyBy, Action.thread] using ha.2
      intro p hseeks _ t₂
      rcases eq_or_ne t₂ (.sys 0) with rfl | hne
      · rcases hseeks with ⟨i, hpc⟩ | ⟨k, hpc, -⟩ <;> rw [hpc] <;> rfl
      · rw [hidle hr t₂ hne]
        rfl
    | _ => trivial
  refine ⟨s, hreach, hq, not_stranded hreach fun t => ?_⟩
  rcases eq_or_ne t (.sys 0) with rfl | hne
  · exact hlast
  · rw [hidle hs t hne]
    rfl

/-- **A disk misses its wake-up**: GET_REQUEST takes its request for the second disk, which has no
packet; `BusStartPacket` finds none for the first and queues its IRP; the request is put back. -/
theorem stranded : ¬ ∀ s, lts.Reach (fun s a => s.Regular a = true) s →
    (∀ t, (s.calls t).rest = true) → ¬ s.Stranded := by
  intro h
  obtain ⟨s, hs, h1, h2, hq, hl, hc, hi⟩ := lts.exists_reach
    (C := fun s a => s.Regular a = true ∧ a.onlyBy [.sys 0, .sys 1] = true)
    (c := fun s a => s.Regular a && a.onlyBy [.sys 0, .sys 1])
    (fun _ _ ha => Bool.and_eq_true_iff.mp ha)
    (routine (.sys 0) (.addDisk (smallDisk 1 0)) 3 ++
      routine (.sys 0) (.addDisk (smallDisk 2 1)) 3 ++
      .call (.sys 0) (.getRequest 0 0) :: steps (.sys 0) 9 ++
      routine (.sys 1) (.scsi 0 0 readSrb) 7 ++ steps (.sys 0) 3)
    (fun s => (s.calls (.sys 0)).rest = true ∧ (s.calls (.sys 1)).rest = true ∧
      s.bus.fdo.requestQueue = [0] ∧ s.bus.fdo.listOfPDOs = [0, 1] ∧
      (s.bus.pdos 0).currentIrp = none ∧ (s.bus.pdos 0).irpQueue = [0]) (by decide +kernel)
  refine h s (hs.mono fun _ _ _ _ ha => ha.1) (fun t => ?_) ⟨?_, 0, ?_, hc, ?_⟩
  · by_cases ht : t ∈ [Tid.sys 0, .sys 1]
    · rcases List.mem_pair.mp ht with rfl | rfl
      · exact h1
      · exact h2
    · rw [idle_of_onlyBy hs (fun _ _ h => h.2) t ht]
      rfl
  · rw [hq]
    exact List.cons_ne_nil _ _
  · rw [hl]
    exact List.mem_cons_self
  · rw [hi]
    exact List.cons_ne_nil _ _

end Driver

end VirtualDisk
