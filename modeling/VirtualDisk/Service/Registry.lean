import VirtualDisk.Driver.Links
import VirtualDisk.Service.Serves

/-!
# Service/Registry — the disks of the service and the disks of the driver

The service keeps its processors in `m_diskMap`, the driver its PDOs on a list; an RPC updates both,
one after the other.  What ties them together is that a processor is registered at most once, with
its own buffer and event; that it enters the map before its PDO exists; and that it leaves when its
PDO has signalled the event, or was never created.
-/

namespace VirtualDisk

open Machinery

variable {t : Tid} {a : Action} {b b' : Bus} {pc pc' : Pc} {p q : PdoId}

/-- A thread is adding a disk and has not created its PDO yet. -/
def Pc.adds : Pc → Bool
  | .addUnique _ | .addCreate _ => true
  | _ => false

namespace Moves

/-- A removal is signalled by `Bus_DestroyPdo`, once. -/
theorem signalled (m : Moves t b a pc b' pc') (hp : p < b.pdoCount) :
    (b'.pdos p).signalled = (b.pdos p).signalled ∨ (b'.pdos p).signalled = true := by
  have hne : p ≠ b.pdoCount := Nat.ne_of_lt hp
  cases m
  all_goals first
    | exact .inl rfl
    | exact .inl (frame_update PdoDeviceData.signalled rfl)
    | skip
  all_goals simp [Function.update_apply, hne]
  all_goals split <;> simp_all

/-- An event is set by the destruction of the PDO it was handed over with. -/
theorem events {e : EventId} (m : Moves t b a pc b' pc') (he : b'.events e = true) :
    b.events e = true ∨
    ∃ p ∈ pc.mentions, (b.pdos p).removeEvent = e ∧ (b'.pdos p).signalled = true := by
  cases m
  case destroySignal p k =>
    by_cases hpe : (b.pdos p).removeEvent = e
    · exact .inr ⟨p, List.mem_singleton_self p, hpe, by simp⟩
    · refine .inl ?_
      simpa [Function.update_apply, Ne.symm hpe] using he
  case removeDisk p _ _ =>
    refine .inl ?_
    by_cases hpe : e = (b.pdos p).removeEvent
    · simp [hpe] at he
    · simpa [Function.update_apply, hpe] using he
  all_goals exact .inl he

/-- An event is reset for a PDO on the list. -/
theorem resets {v : Bool} (m : Moves t b a pc b' pc') (he : .resetEvent p v ∈ b'.trace) :
    .resetEvent p v ∈ b.trace ∨
    (p ∈ b.fdo.listOfPDOs ∧ v = b.events (b.pdos p).removeEvent) := by
  cases m
  case removeDisk q _ h =>
    rcases List.mem_cons.mp he with he | he
    · cases he
      exact .inr ⟨List.mem_of_find?_eq_some h, rfl⟩
    · exact .inl he
  case startSetup => exact .inl (by simpa using he)
  case nextSetup => exact .inl (by simpa using he)
  case replyTake => exact .inl (by simpa using he)
  all_goals first
    | exact .inl he
    | exact .inl (by simpa using he)

/-- A thread adds a disk because it was called to. -/
theorem adds (m : Moves t b a pc b' pc') (hpc : pc'.adds = true) :
    pc.adds = true ∨ ∃ dd, a = .call t (.addDisk dd) := by
  cases m
  case callAddDisk dd _ => exact .inr ⟨dd, rfl⟩
  all_goals first
    | exact .inl rfl
    | cases hpc
    | (rename NextCaller => k; cases k <;> cases hpc)
    | (rename DestroyCaller => k; cases k <;> cases hpc)

end Moves

/-- A thread is outside the driver, or has only to return. -/
def Pc.outside : Pc → Bool
  | .idle | .ret _ => true
  | _ => false

/-- The processor an RPC worker is adding. -/
def RpcPc.adding : RpcPc → Option ProcId
  | .insert pr | .duplicate pr | .register pr | .registering pr | .undo pr => some pr
  | _ => none

/-- The processor an RPC worker holds outside the map. -/
def RpcPc.holds : RpcPc → Option ProcId
  | .insert pr | .duplicate pr => some pr
  | _ => none

theorem RpcPc.adding_of_holds {pc : RpcPc} {pr : ProcId} (h : pc.holds = some pr) :
    pc.adding = some pr := by
  cases pc <;> cases h <;> rfl

/-! ## The invariant -/

namespace System

/-- The processor has a PDO, destroyed or not. -/
def HasPdo (b : Bus) (pr : ProcId) : Prop := ∃ p < b.pdoCount, (b.pdos p).buffer = pr

/-- The processor is in the map, under its own id. -/
def InMap (v : Service) (pr : ProcId) : Prop := v.diskMap (v.procs pr).diskId = some pr

/-- **Where the registration of a processor is**, by the call its RPC worker is in. -/
def Registering (b : Bus) (v : Service) (pr : ProcId) : Pc → Prop
  | .idle => ¬ HasPdo b pr ∧ InMap v pr
  | .addUnique dd | .addCreate dd =>
    dd = registerWithDriver (v.procs pr).diskId (v.procs pr).geometry pr pr ∧ ¬ HasPdo b pr ∧
      InMap v pr
  | .addInsert p => p < b.pdoCount ∧ (b.pdos p).buffer = pr
  | .ret status =>
    (ntSuccess status = true → HasPdo b pr) ∧
    (ntSuccess status = false → ¬ HasPdo b pr ∧ InMap v pr)
  | _ => False

/-- **Where an RPC worker is**, and what it can rely on about its processor. -/
def Working (b : Bus) (v : Service) : RpcPc → Pc → Prop
  | .insert pr, pc | .duplicate pr, pc =>
    pc.outside = true ∧ pr < v.procCount ∧ (v.procs pr).alive = true ∧ ¬ HasPdo b pr ∧
      ∀ h, v.diskMap h ≠ some pr
  | .register pr, pc | .undo pr, pc => pc.outside = true ∧ ¬ HasPdo b pr ∧ InMap v pr
  | .registering pr, pc => Registering b v pr pc
  | .unregistering, pc => pc.outside = true ∨ ∃ h, pc = .removeDisk h
  | _, pc => pc.outside = true

/-- **The two registries**: what ties the PDOs, the map and the RPC workers together. -/
structure Registry (d : Driver) (v : Service) : Prop where
  owner : ∀ p < d.bus.pdoCount, (d.bus.pdos p).buffer < v.procCount ∧
    (d.bus.pdos p).removeEvent = (d.bus.pdos p).buffer ∧
    (d.bus.pdos p).serialNo = (v.procs (d.bus.pdos p).buffer).diskId
  injective : ∀ p < d.bus.pdoCount, ∀ q < d.bus.pdoCount,
    (d.bus.pdos p).buffer = (d.bus.pdos q).buffer → p = q
  live : ∀ p < d.bus.pdoCount, (d.bus.pdos p).signalled = false → InMap v (d.bus.pdos p).buffer
  events : ∀ pr, d.bus.events pr = true → ∃ p < d.bus.pdoCount,
    (d.bus.pdos p).buffer = pr ∧ (d.bus.pdos p).signalled = true
  mapped : ∀ h pr, v.diskMap h = some pr →
    pr < v.procCount ∧ (v.procs pr).alive = true ∧ (v.procs pr).diskId = h
  alive : ∀ pr, (v.procs pr).alive = true → InMap v pr ∨ ∃ k, (v.rpcs k).holds = some pr
  final : ∀ pr, (v.procs pr).pc = .final → InMap v pr ∧
    ∃ p < d.bus.pdoCount, (d.bus.pdos p).buffer = pr ∧ (d.bus.pdos p).signalled = true
  exits : ∀ pr, HasPdo d.bus pr → (v.procs pr).alive = true ∨ (v.procs pr).pc = .exited
  working : ∀ k, Working d.bus v (v.rpcs k) (d.calls (.rpc k))
  adding : ∀ k k' pr, (v.rpcs k).adding = some pr → (v.rpcs k').adding = some pr → k = k'
  adders : ∀ t, (d.calls t).adds = true → ∃ k, t = .rpc k
  registered : ∀ pr, (v.procs pr).registered = true → HasPdo d.bus pr
  resets : ∀ p x, .resetEvent p x ∈ d.bus.trace → x = false

/-- Two states agree on what an RPC worker relies on about its processor. -/
structure Same (b : Bus) (v : Service) (b' : Bus) (v' : Service) (pr : ProcId) : Prop where
  count : pr < v.procCount → pr < v'.procCount
  diskId : (v'.procs pr).diskId = (v.procs pr).diskId
  geometry : (v'.procs pr).geometry = (v.procs pr).geometry
  alive : (v'.procs pr).alive = (v.procs pr).alive
  map : ∀ h, v'.diskMap h = some pr ↔ v.diskMap h = some pr
  hasPdo : HasPdo b' pr ↔ HasPdo b pr
  pdo : ∀ p < b.pdoCount, (b.pdos p).buffer = pr → p < b'.pdoCount ∧ (b'.pdos p).buffer = pr

variable {v v' : Service} {pr : ProcId} {d d' : Driver} {k : ℕ}

theorem Same.inMap (h : Same b v b' v' pr) : InMap v' pr ↔ InMap v pr := by
  simp only [InMap, h.diskId, h.map]

/-- What a worker relies on is kept by whatever leaves its processor the same. -/
theorem Working.same {w : RpcPc} (h : Working b v w pc)
    (hs : ∀ pr, w.adding = some pr → Same b v b' v' pr) : Working b' v' w pc := by
  cases w with
  | insert pr | duplicate pr =>
    have hs := hs pr rfl
    obtain ⟨hpc, hlt, ha, hn, hm⟩ := h
    exact ⟨hpc, hs.count hlt, hs.alive ▸ ha, hs.hasPdo.not.mpr hn,
      fun x => (hs.map x).not.mpr (hm x)⟩
  | register pr | undo pr =>
    have hs := hs pr rfl
    exact ⟨h.1, hs.hasPdo.not.mpr h.2.1, hs.inMap.mpr h.2.2⟩
  | registering pr =>
    have hs := hs pr rfl
    cases pc with
    | idle => exact ⟨hs.hasPdo.not.mpr h.1, hs.inMap.mpr h.2⟩
    | addUnique dd | addCreate dd =>
      refine ⟨?_, hs.hasPdo.not.mpr h.2.1, hs.inMap.mpr h.2.2⟩
      rw [hs.diskId, hs.geometry]
      exact h.1
    | addInsert p => exact hs.pdo p h.1 h.2
    | ret status =>
      exact ⟨fun hx => hs.hasPdo.mpr (h.1 hx),
        fun hx => ⟨hs.hasPdo.not.mpr (h.2 hx).1, hs.inMap.mpr (h.2 hx).2⟩⟩
    | _ => exact h.elim
  | _ => exact h

/-! ## Steps of the driver -/

/-- **A PDO is created for the processor an RPC worker registers**, which has none yet. -/
theorem Registry.creates (h : Registry d v) (m : Moves t d.bus a (d.calls t) b' pc')
    (hp : p < b'.pdoCount) (hnew : d.bus.pdoCount ≤ p) :
    ∃ k pr, t = .rpc k ∧ v.rpcs k = .registering pr ∧ p = d.bus.pdoCount ∧ pc' = .addInsert p ∧
      ¬ HasPdo d.bus pr ∧ InMap v pr ∧
      b'.pdos p =
        Bus.newPdo (registerWithDriver (v.procs pr).diskId (v.procs pr).geometry pr pr) := by
  obtain ⟨rfl, dd, hpc, -, hpc', hdd⟩ := m.creates hp hnew
  obtain ⟨k, rfl⟩ := h.adders t (by rw [hpc]; rfl)
  have hw := h.working k
  rw [hpc] at hw
  cases hr : v.rpcs k
  case registering pr =>
    rw [hr] at hw
    obtain ⟨rfl, hn, hm⟩ := hw
    exact ⟨k, pr, rfl, hr, rfl, hpc', hn, hm, hdd⟩
  all_goals
    rw [hr] at hw
    simp [Working, Pc.outside] at hw

/-- A PDO keeps its processor. -/
theorem buffer_of_moves (m : Moves t b a pc b' pc') (hp : p < b.pdoCount) :
    p < b'.pdoCount ∧ (b'.pdos p).buffer = (b.pdos p).buffer :=
  ⟨Nat.lt_of_lt_of_le hp m.pdoCount_le, (m.identity hp).2.2.2.1⟩

/-- A processor that has a PDO keeps it. -/
theorem HasPdo.mono (m : Moves t b a pc b' pc') (h : HasPdo b pr) : HasPdo b' pr := by
  obtain ⟨p, hp, rfl⟩ := h
  obtain ⟨hp', hb⟩ := buffer_of_moves m hp
  exact ⟨p, hp', hb⟩

/-- **A processor nobody else registers stays the same** under another thread's move. -/
theorem Registry.same_of_moves (h : Registry d v) (m : Moves t d.bus a (d.calls t) b' pc')
    (hpr : ∀ k, t = .rpc k → (v.rpcs k).adding ≠ some pr) : Same d.bus v b' v pr where
  count := id
  diskId := rfl
  geometry := rfl
  alive := rfl
  map _ := Iff.rfl
  hasPdo := by
    refine ⟨?_, HasPdo.mono m⟩
    rintro ⟨p, hp, hb⟩
    by_cases hold : p < d.bus.pdoCount
    · exact ⟨p, hold, (buffer_of_moves m hold).2 ▸ hb⟩
    · obtain ⟨k, pr', rfl, hr, -, -, -, -, hdd⟩ := h.creates m hp (Nat.not_lt.mp hold)
      rw [hdd] at hb
      have hb : pr' = pr := hb
      exact absurd (by rw [hr, ← hb]; rfl) (hpr k rfl)
  pdo p hp hb := by
    obtain ⟨hp', hb'⟩ := buffer_of_moves m hp
    exact ⟨hp', hb'.trans hb⟩

/-- What a worker relies on while it stays outside the driver does not depend on the status it has
yet to return with, when it is not registering. -/
theorem Working.outside {w : RpcPc} (h : Working b v w pc) (hw : ∀ pr, w ≠ .registering pr)
    (hpc : pc'.outside = true) : Working b v w pc' := by
  cases w with
  | registering pr => exact absurd rfl (hw pr)
  | insert pr | duplicate pr | register pr | undo pr => exact ⟨hpc, h.2⟩
  | unregistering => exact .inl hpc
  | _ => exact hpc

/-- A worker inside `IOCTL_BUSENUM_REMOVE_DISK` is unregistering. -/
theorem Working.outside_or {w : RpcPc} (h : Working b v w pc) (hw : ∀ pr, w ≠ .registering pr) :
    pc.outside = true ∨ w = .unregistering ∧ ∃ handle, pc = .removeDisk handle := by
  cases w with
  | registering pr => exact absurd rfl (hw pr)
  | insert pr | duplicate pr | register pr | undo pr => exact .inl h.1
  | unregistering => exact h.imp_right fun h => ⟨rfl, h⟩
  | _ => exact .inl h

/-- **A registering worker's own move** keeps what it relies on. -/
theorem Registering.move (hw : Registering b v pr pc) (hr : v.rpcs k = .registering pr)
    (m : Moves (.rpc k) b a pc b' pc') (ha : Makes v a) : Registering b' v pr pc' := by
  cases pc
  case idle =>
    cases m
    case callAddDisk hd =>
      rcases ha with ⟨pr', hr', hc⟩ | ⟨hr', -⟩
      · cases hr.symm.trans hr'
        cases hc
        exact ⟨rfl, hw⟩
      · cases hr.symm.trans hr'
    case callAddDiskDeleted hd => exact ⟨fun hx => absurd hx (by decide), fun _ => hw⟩
    case cancelNone | cancelCsq | cancelBus => exact ha.elim
    case cancelRequestNone | cancelRequestArmed => exact ha.elim
    all_goals
      rcases ha with ⟨pr', hr', hc⟩ | ⟨hr', -⟩
      · cases hc
      · cases hr.symm.trans hr'
  case ret status =>
    cases m
    rcases ha with ⟨ok, hr'⟩ | ⟨pr', hr'⟩
    · cases hr.symm.trans hr'
    · cases hr.symm.trans hr'
  case addUnique dd =>
    cases m
    · exact ⟨fun hx => absurd hx (by decide), fun _ => hw.2⟩
    · exact hw
  case addCreate dd =>
    cases m
    · exact ⟨fun hx => absurd hx (by decide), fun _ => hw.2⟩
    · obtain ⟨rfl, -, -⟩ := hw
      refine ⟨Nat.lt_succ_self _, ?_⟩
      simp [Bus.newPdo, registerWithDriver]
  case addInsert p =>
    cases m
    refine ⟨fun _ => ⟨p, hw.1, ?_⟩, fun hx => absurd hx (by decide)⟩
    simpa using hw.2
  all_goals exact hw.elim

/-- **An RPC worker's own move** keeps what it relies on. -/
theorem Working.move (hw : Working b v (v.rpcs k) pc) (m : Moves (.rpc k) b a pc b' pc')
    (ha : Makes v a) : Working b' v (v.rpcs k) pc' := by
  by_cases hr : ∃ pr, v.rpcs k = .registering pr
  · obtain ⟨pr, hr⟩ := hr
    rw [hr] at hw ⊢
    exact Registering.move hw hr m ha
  have hr : ∀ pr, v.rpcs k ≠ .registering pr := fun pr hpr => hr ⟨pr, hpr⟩
  rcases hw.outside_or hr with hpc | ⟨hu, handle, rfl⟩
  · cases pc
    case idle =>
      cases m
      case cancelNone | cancelCsq | cancelBus => exact ha.elim
      case cancelRequestNone | cancelRequestArmed => exact ha.elim
      case callRemoveDisk handle _ =>
        rcases ha with ⟨pr', hr', -⟩ | ⟨hu, -⟩
        · exact absurd hr' (hr pr')
        · rw [hu]
          exact .inr ⟨handle, rfl⟩
      case callRemoveDiskDeleted =>
        rcases ha with ⟨pr', hr', -⟩ | ⟨hu, -⟩
        · exact absurd hr' (hr pr')
        · rw [hu]
          exact .inl rfl
      all_goals
        rcases ha with ⟨pr', hr', -⟩ | ⟨-, handle, hc⟩
        · exact absurd hr' (hr pr')
        · cases hc
    case ret status =>
      cases m
      exact hw.outside hr rfl
    all_goals cases hpc
  · rw [hu]
    cases m <;> exact .inl rfl

/-- **An action that leaves the registering to the RPC workers**, which make what the service makes.
-/
structure Registers (v : Service) (a : Action) : Prop where
  worker : ∀ k, a.thread = some (.rpc k) → Makes v a
  adder : ∀ t dd, a = .call t (.addDisk dd) → ∃ k, t = .rpc k

/-- So do those that the service makes. -/
theorem registers_of_makes (h : Makes v a) : Registers v a := by
  refine ⟨fun _ _ => h, ?_⟩
  rintro t dd rfl
  cases t with
  | rpc k => exact ⟨k, rfl⟩
  | sys n => cases h
  | run =>
    obtain ⟨r, -, hc⟩ := h
    cases hc
  | disk pr => cases h.2

/-- **A move of a thread keeps the registry.** -/
theorem Registry.move (h : Registry d v) (hl : d.Linked)
    (m : Moves t d.bus a (d.calls t) b' pc') (ha : Registers v a) :
    Registry (d.put t (b', pc')) v := by
  have hold : ∀ p, ¬ p < d.bus.pdoCount → d.bus.pdoCount ≤ p := fun p => Nat.not_lt.mp
  refine ⟨?_, ?_, ?_, ?_, h.mapped, h.alive, ?_, ?_, ?_, h.adding, ?_, ?_, ?_⟩
  · intro p hp
    rw [Driver.put_bus]
    by_cases hlt : p < d.bus.pdoCount
    · obtain ⟨hs, -, -, hb, he⟩ := m.identity hlt
      simpa only [hs, hb, he] using h.owner p hlt
    · obtain ⟨k, pr, -, -, -, -, -, hm, hdd⟩ := h.creates m hp (hold p hlt)
      simp only [hdd, Bus.newPdo, registerWithDriver]
      exact ⟨(h.mapped _ _ hm).1, trivial, trivial⟩
  · intro p hp q hq heq
    have heq : (b'.pdos p).buffer = (b'.pdos q).buffer := heq
    by_cases hp' : p < d.bus.pdoCount
    · by_cases hq' : q < d.bus.pdoCount
      · rw [(m.identity hp').2.2.2.1, (m.identity hq').2.2.2.1] at heq
        exact h.injective p hp' q hq' heq
      · obtain ⟨k, pr, -, -, -, -, hn, -, hdd⟩ := h.creates m hq (hold q hq')
        rw [(m.identity hp').2.2.2.1, hdd] at heq
        exact absurd ⟨p, hp', heq⟩ hn
    · obtain ⟨k, pr, -, -, hpn, -, hn, -, hdd⟩ := h.creates m hp (hold p hp')
      by_cases hq' : q < d.bus.pdoCount
      · rw [(m.identity hq').2.2.2.1, hdd] at heq
        exact absurd ⟨q, hq', heq.symm⟩ hn
      · obtain ⟨-, -, -, -, hqn, -, -, -, -⟩ := h.creates m hq (hold q hq')
        exact hpn.trans hqn.symm
  · intro p hp hs
    show InMap v (b'.pdos p).buffer
    by_cases hlt : p < d.bus.pdoCount
    · rw [(m.identity hlt).2.2.2.1]
      refine h.live p hlt ?_
      rcases m.signalled hlt with hx | hx
      · exact hx.symm.trans hs
      · cases hx.symm.trans hs
    · obtain ⟨k, pr, -, -, -, -, -, hm, hdd⟩ := h.creates m hp (hold p hlt)
      rw [hdd]
      exact hm
  · intro pr he
    have hkeep : ∀ p < d.bus.pdoCount, (d.bus.pdos p).signalled = true →
        (b'.pdos p).signalled = true := by
      intro p hp hs
      rcases m.signalled hp with hx | hx
      · exact hx.trans hs
      · exact hx
    rcases m.events he with he | ⟨p, hp, hpe, hs⟩
    · obtain ⟨p, hp, hb, hs⟩ := h.events pr he
      obtain ⟨hp', hb'⟩ := buffer_of_moves m hp
      exact ⟨p, hp', hb'.trans hb, hkeep p hp hs⟩
    · have hlt := (hl.mentions t p hp).1
      obtain ⟨hp', hb'⟩ := buffer_of_moves m hlt
      exact ⟨p, hp', hb'.trans ((h.owner p hlt).2.1.symm.trans hpe), hs⟩
  · intro pr hf
    obtain ⟨hm, p, hp, hb, hs⟩ := h.final pr hf
    obtain ⟨hp', hb'⟩ := buffer_of_moves m hp
    refine ⟨hm, p, hp', hb'.trans hb, ?_⟩
    rcases m.signalled hp with hx | hx
    · exact hx.trans hs
    · exact hx
  · rintro pr ⟨p, hp, hb⟩
    by_cases hlt : p < d.bus.pdoCount
    · exact h.exits pr ⟨p, hlt, (buffer_of_moves m hlt).2 ▸ hb⟩
    · obtain ⟨k, pr', -, -, -, -, -, hm, hdd⟩ := h.creates m hp (hold p hlt)
      have hb : (b'.pdos p).buffer = pr := hb
      rw [hdd] at hb
      obtain rfl : pr' = pr := hb
      exact .inl (h.mapped _ _ hm).2.1
  · intro k
    rcases eq_or_ne (.rpc k) t with rfl | hne
    · rw [Driver.put_calls_self]
      exact Working.move (h.working k) m (ha.worker k m.thread)
    · rw [Driver.put_calls_of_ne d hne]
      refine (h.working k).same fun pr hpr => h.same_of_moves m ?_
      rintro k' rfl hk'
      exact hne (congrArg Tid.rpc (h.adding k k' pr hpr hk'))
  · refine forall_update (L := fun t (pc : Pc) => pc.adds = true → ∃ k, t = .rpc k) ?_
      fun t₂ _ => h.adders t₂
    intro hpc
    rcases m.adds hpc with hx | ⟨dd, rfl⟩
    · exact h.adders t hx
    · exact ha.adder t dd rfl
  · intro pr hr
    exact (h.registered pr hr).mono m
  · intro p x hx
    rcases m.resets hx with hx | ⟨hp, rfl⟩
    · exact h.resets p x hx
    · by_contra he
      rw [Bool.not_eq_false] at he
      have hlt := (hl.known hp).1
      obtain ⟨q, hq, hb, hs⟩ := h.events _ he
      obtain rfl := h.injective q hq p hlt (hb.trans (h.owner p hlt).2.1)
      cases hs.symm.trans (hl.intact q hp).signalled

/-- **A step of the driver keeps the registry.** -/
theorem Registry.act (h : Registry d v) (hl : d.Linked) (hs : d.step a = some d')
    (ha : Registers v a) : Registry d' v := by
  rcases Driver.step_moves hs with ⟨t, b', pc', m, rfl⟩ | ⟨m, f, -, rfl⟩ | ⟨e, -, -, rfl⟩
  · exact h.move hl m ha
  · exact { h with }
  · refine { h with events := ?_ }
    intro pr he
    refine h.events pr ?_
    by_cases hpr : pr = e
    · subst hpr
      simp at he
    · simpa [hpr] using he

end System

end VirtualDisk
