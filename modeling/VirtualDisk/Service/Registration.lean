import VirtualDisk.Service.Registry

/-!
# Service/Registration — the registries agree in every state

A step of the service changes one processor at a time, with its entry of the map: a new one enters,
a registered one leaves when its removal was signalled, one that could not be registered leaves at
once.  `Registry.change` says what each of these has to show; with the driver's moves they keep
`Registry` along every run.
-/

namespace VirtualDisk

open Machinery

namespace System

variable {t : Tid} {a : Action} {b b' : Bus} {pc pc' : Pc} {p q : PdoId}
variable {v v' : Service} {pr : ProcId} {d d' : Driver} {k : ℕ}

/-! ## Steps of the service -/

/-- A processor keeps what the registry is about. -/
structure Kept (x y : CDiskProcessor) : Prop where
  diskId : y.diskId = x.diskId
  geometry : y.geometry = x.geometry
  alive : y.alive = x.alive
  registered : y.registered = x.registered
  final : y.pc = .final → x.pc = .final
  exited : x.pc = .exited → y.pc = .exited

theorem Kept.refl (x : CDiskProcessor) : Kept x x := ⟨rfl, rfl, rfl, rfl, id, id⟩

/-- **A step of the Run loop or of a disk thread keeps the registry**: it is about none of what they
change. -/
theorem Registry.frame (h : Registry d v) (hcount : v'.procCount = v.procCount)
    (hmap : v'.diskMap = v.diskMap) (hrpcs : v'.rpcs = v.rpcs)
    (hprocs : ∀ pr, Kept (v.procs pr) (v'.procs pr)) : Registry d v' := by
  have hin : ∀ pr, InMap v' pr ↔ InMap v pr := by
    intro pr
    simp only [InMap, hmap, (hprocs pr).diskId]
  have hsame : ∀ pr, Same d.bus v d.bus v' pr := fun pr =>
    ⟨fun hlt => hcount ▸ hlt, (hprocs pr).diskId, (hprocs pr).geometry, (hprocs pr).alive,
      fun x => by rw [hmap], Iff.rfl, fun p hp hb => ⟨hp, hb⟩⟩
  refine ⟨?_, h.injective, ?_, h.events, ?_, ?_, ?_, ?_, ?_, ?_, h.adders, ?_, h.resets⟩
  · intro p hp
    rw [hcount, (hprocs _).diskId]
    exact h.owner p hp
  · intro p hp hs
    exact (hin _).mpr (h.live p hp hs)
  · intro x pr hx
    rw [hcount, (hprocs pr).alive, (hprocs pr).diskId]
    exact h.mapped x pr (hmap ▸ hx)
  · intro pr ha
    rw [hin, hrpcs]
    exact h.alive pr ((hprocs pr).alive ▸ ha)
  · intro pr hf
    rw [hin]
    exact h.final pr ((hprocs pr).final hf)
  · intro pr hp
    rw [(hprocs pr).alive]
    exact (h.exits pr hp).imp_right (hprocs pr).exited
  · intro k
    rw [hrpcs]
    exact (h.working k).same fun pr _ => hsame pr
  · rw [hrpcs]
    exact h.adding
  · intro pr hr
    exact h.registered pr ((hprocs pr).registered ▸ hr)

/-- The same for one processor. -/
theorem Registry.setProc (h : Registry d v) (pr : ProcId) (f : CDiskProcessor → CDiskProcessor)
    (hf : Kept (v.procs pr) (f (v.procs pr))) : Registry d (v.setProc pr f) := by
  refine h.frame rfl rfl rfl fun pr' => ?_
  rw [Service.setProc_procs]
  by_cases hpr : pr' = pr
  · subst hpr
    rw [Function.update_self]
    exact hf
  · rw [Function.update_of_ne hpr]
    exact Kept.refl _

/-- **An RPC worker goes on** with the processor it is adding, or without one. -/
theorem Registry.setRpc {w : RpcPc} (h : Registry d v) (hw : Working d.bus v w (d.calls (.rpc k)))
    (hadd : w.adding = none ∨ w.adding = (v.rpcs k).adding)
    (hold : ∀ pr, (v.rpcs k).holds = some pr → InMap v pr ∨ w.holds = some pr) :
    Registry d (v.setRpc k w) := by
  have hsame : ∀ pr, Same d.bus v d.bus (v.setRpc k w) pr := fun pr =>
    ⟨id, rfl, rfl, rfl, fun x => Iff.rfl, Iff.rfl, fun p hp hb => ⟨hp, hb⟩⟩
  have hadding : ∀ k' pr, ((v.setRpc k w).rpcs k').adding = some pr →
      (v.rpcs k').adding = some pr := by
    intro k' pr hk'
    rw [Service.setRpc_rpcs] at hk'
    by_cases hk : k' = k
    · subst hk
      rw [Function.update_self] at hk'
      rcases hadd with hx | hx
      · cases hx.symm.trans hk'
      · exact hx ▸ hk'
    · rwa [Function.update_of_ne hk] at hk'
  refine { h with alive := ?_, working := ?_, adding := ?_ }
  · intro pr ha
    rcases h.alive pr ha with hm | ⟨k', hk'⟩
    · exact .inl hm
    · by_cases hk : k' = k
      · subst hk
        rcases hold pr hk' with hm | hw
        · exact .inl hm
        · exact .inr ⟨k', by rw [Service.setRpc_rpcs, Function.update_self]; exact hw⟩
      · exact .inr ⟨k', by rw [Service.setRpc_rpcs, Function.update_of_ne hk]; exact hk'⟩
  · intro k'
    rw [Service.setRpc_rpcs]
    by_cases hk : k' = k
    · subst hk
      rw [Function.update_self]
      exact hw.same fun pr _ => hsame pr
    · rw [Function.update_of_ne hk]
      exact (h.working k').same fun pr _ => hsame pr
  · intro k₁ k₂ pr h₁ h₂
    exact h.adding k₁ k₂ pr (hadding k₁ pr h₁) (hadding k₂ pr h₂)

/-- A processor being added was created. -/
theorem Registry.adding_lt (h : Registry d v) (hk : (v.rpcs k).adding = some pr) :
    pr < v.procCount := by
  have hw := h.working k
  have hin : InMap v pr → pr < v.procCount := fun hm => (h.mapped _ _ hm).1
  have hpdo : HasPdo d.bus pr → pr < v.procCount := by
    rintro ⟨p, hp, rfl⟩
    exact (h.owner p hp).1
  generalize v.rpcs k = w at hk hw
  cases w <;> cases hk
  case insert | duplicate => exact hw.2.1
  case register | undo => exact hin hw.2.2
  case registering =>
    generalize d.calls (.rpc k) = pc at hw
    cases pc
    case idle => exact hin hw.2
    case addUnique | addCreate => exact hin hw.2.2
    case addInsert p => exact hpdo ⟨p, hw⟩
    case ret status =>
      by_cases hs : ntSuccess status = true
      · exact hpdo (hw.1 hs)
      · exact hin (hw.2 (Bool.not_eq_true _ ▸ hs)).2
    all_goals exact hw.elim

/-- A worker whose processor has its PDO no longer relies on the map. -/
theorem Working.of_hasPdo {w : RpcPc} (h : Working b v w pc) (hpr : w.adding = some pr)
    (hp : HasPdo b pr) : Working b v' w pc := by
  cases w <;> cases hpr
  case insert | duplicate => exact absurd hp h.2.2.2.1
  case register | undo => exact absurd hp h.2.1
  case registering =>
    cases pc
    case idle => exact absurd hp h.1
    case addUnique | addCreate => exact absurd hp h.2.1
    case addInsert => exact h
    case ret status => exact ⟨h.1, fun hx => absurd hp (h.2 hx).1⟩
    all_goals exact h.elim

/-- **One processor changes**, with its entry of the map: the registry is kept if what it says of
that processor is, and of the workers. -/
theorem Registry.change (h : Registry d v) (pr₀ : ProcId) (hcount : v.procCount ≤ v'.procCount)
    (hsame : ∀ pr, pr ≠ pr₀ → Kept (v.procs pr) (v'.procs pr) ∧
      ∀ x, v'.diskMap x = some pr ↔ v.diskMap x = some pr)
    (hid : HasPdo d.bus pr₀ → (v'.procs pr₀).diskId = (v.procs pr₀).diskId)
    (hlive : ∀ p < d.bus.pdoCount, (d.bus.pdos p).buffer = pr₀ →
      (d.bus.pdos p).signalled = false → InMap v' pr₀)
    (hmapped : ∀ x, v'.diskMap x = some pr₀ →
      pr₀ < v'.procCount ∧ (v'.procs pr₀).alive = true ∧ (v'.procs pr₀).diskId = x)
    (halive : (v'.procs pr₀).alive = true → InMap v' pr₀ ∨ ∃ k, (v'.rpcs k).holds = some pr₀)
    (hfinal : (v'.procs pr₀).pc = .final → InMap v' pr₀ ∧ ∃ p < d.bus.pdoCount,
      (d.bus.pdos p).buffer = pr₀ ∧ (d.bus.pdos p).signalled = true)
    (hexits : HasPdo d.bus pr₀ → (v'.procs pr₀).alive = true ∨ (v'.procs pr₀).pc = .exited)
    (hregistered : (v'.procs pr₀).registered = true → HasPdo d.bus pr₀)
    (hworking : ∀ k, Working d.bus v' (v'.rpcs k) (d.calls (.rpc k)) ∨
      v'.rpcs k = v.rpcs k ∧ (v.rpcs k).adding ≠ some pr₀)
    (hholds : ∀ k pr, pr ≠ pr₀ → (v.rpcs k).holds = some pr → (v'.rpcs k).holds = some pr)
    (hadding : ∀ k k' pr, (v'.rpcs k).adding = some pr → (v'.rpcs k').adding = some pr → k = k') :
    Registry d v' := by
  have hin : ∀ pr, pr ≠ pr₀ → (InMap v' pr ↔ InMap v pr) := by
    intro pr hpr
    obtain ⟨hk, hm⟩ := hsame pr hpr
    simp only [InMap, hm, hk.diskId]
  refine ⟨?_, h.injective, ?_, h.events, ?_, ?_, ?_, ?_, ?_, hadding, h.adders, ?_, h.resets⟩
  · intro p hp
    obtain ⟨hlt, he, hs⟩ := h.owner p hp
    refine ⟨Nat.lt_of_lt_of_le hlt hcount, he, ?_⟩
    by_cases hpr : (d.bus.pdos p).buffer = pr₀
    · rw [hs, hpr, hid ⟨p, hp, hpr⟩]
    · rw [hs, (hsame _ hpr).1.diskId]
  · intro p hp hs
    by_cases hpr : (d.bus.pdos p).buffer = pr₀
    · rw [hpr]
      exact hlive p hp hpr hs
    · exact (hin _ hpr).mpr (h.live p hp hs)
  · intro x pr hx
    by_cases hpr : pr = pr₀
    · subst hpr
      exact hmapped x hx
    · obtain ⟨hk, hm⟩ := hsame pr hpr
      obtain ⟨hlt, ha, hd⟩ := h.mapped x pr ((hm x).mp hx)
      exact ⟨Nat.lt_of_lt_of_le hlt hcount, hk.alive.trans ha, hk.diskId.trans hd⟩
  · intro pr ha
    by_cases hpr : pr = pr₀
    · subst hpr
      exact halive ha
    · refine (h.alive pr ((hsame pr hpr).1.alive ▸ ha)).imp (hin pr hpr).mpr ?_
      rintro ⟨k, hk⟩
      exact ⟨k, hholds k pr hpr hk⟩
  · intro pr hf
    by_cases hpr : pr = pr₀
    · subst hpr
      exact hfinal hf
    · rw [hin pr hpr]
      exact h.final pr ((hsame pr hpr).1.final hf)
  · intro pr hp
    by_cases hpr : pr = pr₀
    · subst hpr
      exact hexits hp
    · obtain ⟨hk, -⟩ := hsame pr hpr
      rw [hk.alive]
      exact (h.exits pr hp).imp_right hk.exited
  · intro k
    rcases hworking k with hw | ⟨hk, hne⟩
    · exact hw
    · rw [hk]
      refine (h.working k).same fun pr hpr => ?_
      obtain ⟨hx, hm⟩ := hsame pr fun heq => hne (heq ▸ hpr)
      exact ⟨fun hlt => Nat.lt_of_lt_of_le hlt hcount, hx.diskId, hx.geometry, hx.alive, hm,
        Iff.rfl, fun p hp hb => ⟨hp, hb⟩⟩
  · intro pr hr
    by_cases hpr : pr = pr₀
    · subst hpr
      exact hregistered hr
    · exact h.registered pr ((hsame pr hpr).1.registered ▸ hr)

/-- An update of the map does not concern a processor that is not in the entry, before or after. -/
theorem update_eq_some_iff {m : ULONG → Option ProcId} {x₀ : ULONG} {y : Option ProcId}
    (hm : m x₀ ≠ some pr) (hy : y ≠ some pr) (x : ULONG) :
    Function.update m x₀ y x = some pr ↔ m x = some pr := by
  by_cases hx : x = x₀
  · subst hx
    simp only [Function.update_self, hm, hy]
  · rw [Function.update_of_ne hx]

/-- **A processor leaves the map** when its PDO is destroyed or was never created. -/
theorem Registry.erase {f : CDiskProcessor → CDiskProcessor} (h : Registry d v) (hm : InMap v pr)
    (hsig : ∀ p < d.bus.pdoCount, (d.bus.pdos p).buffer = pr → (d.bus.pdos p).signalled = true)
    (hk : ∀ k, (v.rpcs k).adding = some pr → HasPdo d.bus pr)
    (hid : (f (v.procs pr)).diskId = (v.procs pr).diskId) (ha : (f (v.procs pr)).alive = false)
    (hr : (f (v.procs pr)).registered = (v.procs pr).registered)
    (hpc : (f (v.procs pr)).pc ≠ .final)
    (hex : HasPdo d.bus pr → (f (v.procs pr)).pc = .exited) :
    Registry d ((v.setProc pr f).setMap (v.procs pr).diskId none) := by
  have hself : ((v.setProc pr f).setMap (v.procs pr).diskId none).procs pr = f (v.procs pr) := by
    simp
  refine h.change pr (Nat.le_refl _) ?_ ?_ ?_ ?_ ?_ ?_ ?_ ?_ ?_ (fun _ _ _ => id) h.adding
  · intro pr' hpr
    refine ⟨?_, ?_⟩
    · simp only [Service.setMap_procs, Service.setProc_procs, Function.update_of_ne hpr]
      exact Kept.refl _
    · intro x
      rw [Service.setMap_diskMap]
      refine update_eq_some_iff ?_ (by simp) x
      rw [Service.setProc_diskMap, hm]
      exact fun heq => hpr (Option.some.inj heq).symm
  · intro _
    rw [hself, hid]
  · intro p hp hb hs
    cases (hsig p hp hb).symm.trans hs
  · intro x hx
    rw [Service.setMap_diskMap, Service.setProc_diskMap] at hx
    by_cases hd : x = (v.procs pr).diskId
    · subst hd
      simp at hx
    · rw [Function.update_of_ne hd] at hx
      exact absurd (h.mapped x pr hx).2.2.symm hd
  · intro ha'
    rw [hself] at ha'
    cases ha.symm.trans ha'
  · intro hf
    rw [hself] at hf
    exact absurd hf hpc
  · intro hp
    rw [hself]
    exact .inr (hex hp)
  · intro hr'
    rw [hself] at hr'
    exact h.registered pr (hr.symm.trans hr')
  · intro k
    by_cases hadd : (v.rpcs k).adding = some pr
    · exact .inl ((h.working k).of_hasPdo hadd (hk k hadd))
    · exact .inr ⟨rfl, hadd⟩

/-- The removal of a processor from the map, under its id. -/
theorem removeDisk_eq (hm : InMap v pr) :
    v.removeDisk (v.procs pr).diskId = (v.deleteProc pr).setMap (v.procs pr).diskId none := by
  simp only [Service.removeDisk, show v.diskMap (v.procs pr).diskId = some pr from hm]

/-- **A disk thread that saw its removal event** erases its own entry. -/
theorem Registry.final_step (h : Registry d v) (hpc : (v.procs pr).pc = .final) :
    Registry d
      ((v.removeDisk (v.procs pr).diskId).setProc pr fun x => { x with pc := .exited }) := by
  obtain ⟨hm, p, hp, hb, hs⟩ := h.final pr hpc
  have heq : (v.removeDisk (v.procs pr).diskId).setProc pr (fun x => { x with pc := .exited }) =
      (v.setProc pr fun x => { x with alive := false, pc := .exited }).setMap
        (v.procs pr).diskId none := by
    rw [removeDisk_eq hm]
    simp [Service.setProc, Service.setMap, Service.deleteProc]
  rw [heq]
  refine h.erase hm ?_ (fun _ _ => ⟨p, hp, hb⟩) rfl rfl rfl (by simp) fun _ => rfl
  intro q hq hbq
  obtain rfl := h.injective q hq p hp (hbq.trans hb.symm)
  exact hs

/-- A removal that a disk thread sees is that of its own PDO. -/
theorem Registry.removed_step (h : Registry d v) (ha : (v.procs pr).alive = true)
    (he : d.bus.events pr = true) :
    Registry d (v.setProc pr fun x => { x with pc := .final }) := by
  obtain ⟨p, hp, hb, hs⟩ := h.events pr he
  have hin : InMap v pr := by
    refine (h.alive pr ha).resolve_right ?_
    rintro ⟨k, hk⟩
    have hw := h.working k
    generalize v.rpcs k = w at hk hw
    cases w <;> cases hk <;> exact hw.2.2.2.1 ⟨p, hp, hb⟩
  have hself : ((v.setProc pr fun x => { x with pc := .final }).procs pr) =
      { v.procs pr with pc := .final } := by
    simp
  have hin' : InMap (v.setProc pr fun x => { x with pc := .final }) pr := by
    rw [InMap, hself]
    exact hin
  refine h.change pr (Nat.le_refl _) ?_ ?_ ?_ ?_ ?_ ?_ ?_ ?_ ?_ (fun _ _ _ => id) h.adding
  · intro pr' hpr
    simp only [Service.setProc_procs, Function.update_of_ne hpr]
    exact ⟨Kept.refl _, fun x => Iff.rfl⟩
  · intro _
    rw [hself]
  · intro _ _ _ _
    exact hin'
  · intro x hx
    rw [hself]
    exact h.mapped x pr hx
  · intro _
    exact .inl hin'
  · intro _
    exact ⟨hin', p, hp, hb, hs⟩
  · intro _
    rw [hself]
    exact .inl ha
  · intro hr
    rw [hself] at hr
    exact h.registered pr hr
  · intro k
    by_cases hadd : (v.rpcs k).adding = some pr
    · exact .inl ((h.working k).of_hasPdo hadd ⟨p, hp, hb⟩)
    · exact .inr ⟨rfl, hadd⟩

/-- No other worker is adding the processor this one is adding. -/
theorem Registry.adding_ne (h : Registry d v) (hk : (v.rpcs k).adding = some pr) {k' : ℕ}
    (hne : k' ≠ k) : (v.rpcs k').adding ≠ some pr :=
  fun hk' => hne (h.adding k' k pr hk' hk)

/-- Two workers never add one processor, also when one of them goes on. -/
theorem Registry.adding_update (h : Registry d v) {w : RpcPc}
    (hw : ∀ pr, w.adding = some pr → ∀ k', k' ≠ k → (v.rpcs k').adding ≠ some pr) (k₁ k₂ : ℕ)
    (pr : ProcId) (h₁ : (Function.update v.rpcs k w k₁).adding = some pr)
    (h₂ : (Function.update v.rpcs k w k₂).adding = some pr) : k₁ = k₂ := by
  by_cases hk₁ : k₁ = k
  · by_cases hk₂ : k₂ = k
    · exact hk₁.trans hk₂.symm
    · subst hk₁
      rw [Function.update_self] at h₁
      rw [Function.update_of_ne hk₂] at h₂
      exact absurd h₂ (hw pr h₁ k₂ hk₂)
  · rw [Function.update_of_ne hk₁] at h₁
    by_cases hk₂ : k₂ = k
    · subst hk₂
      rw [Function.update_self] at h₂
      exact absurd h₁ (hw pr h₂ k₁ hk₁)
    · rw [Function.update_of_ne hk₂] at h₂
      exact h.adding k₁ k₂ pr h₁ h₂

/-- What is asserted of the threads, when one of them goes on with a processor of its own. -/
theorem working_setRpc {w : RpcPc} (hrpcs : v'.rpcs = v.rpcs)
    (hw : Working d.bus (v'.setRpc k w) w (d.calls (.rpc k)))
    (hne : ∀ k', k' ≠ k → (v.rpcs k').adding ≠ some pr) (k' : ℕ) :
    Working d.bus (v'.setRpc k w) ((v'.setRpc k w).rpcs k') (d.calls (.rpc k')) ∨
      (v'.setRpc k w).rpcs k' = v.rpcs k' ∧ (v.rpcs k').adding ≠ some pr := by
  by_cases hk' : k' = k
  · subst hk'
    left
    rw [Service.setRpc_rpcs, Function.update_self]
    exact hw
  · right
    exact ⟨by rw [Service.setRpc_rpcs, Function.update_of_ne hk', hrpcs], hne k' hk'⟩

/-- Every other processor is held as it was. -/
theorem holds_setRpc {w : RpcPc} (hrpcs : v'.rpcs = v.rpcs)
    (hk : ∀ pr', (v.rpcs k).holds = some pr' → pr' = pr) (k' : ℕ) (pr' : ProcId) (hpr : pr' ≠ pr)
    (hh : (v.rpcs k').holds = some pr') : ((v'.setRpc k w).rpcs k').holds = some pr' := by
  have hk' : k' ≠ k := by
    rintro rfl
    exact hpr (hk pr' hh)
  rw [Service.setRpc_rpcs, Function.update_of_ne hk', hrpcs]
  exact hh

/-- **`CDiskContainer::AddDisk` creates a processor**, not in the map yet. -/
theorem Registry.create_step {diskId : ULONG} {file : FileId} {g : Geometry} (h : Registry d v)
    (hk : v.rpcs k = .create diskId file g) :
    Registry d ((v.createProc diskId file g).setRpc k (.insert v.procCount)) := by
  have hpdo : ¬ HasPdo d.bus v.procCount := by
    rintro ⟨p, hp, hb⟩
    exact Nat.lt_irrefl _ (hb ▸ (h.owner p hp).1)
  have hmap : ∀ x, v.diskMap x ≠ some v.procCount := fun x hx =>
    Nat.lt_irrefl _ (h.mapped x _ hx).1
  have hself : ((v.createProc diskId file g).setRpc k (.insert v.procCount)).procs v.procCount =
      { diskId, file, geometry := g, pc := .wait, alive := true } := by
    simp
  refine h.change v.procCount (Nat.le_succ _) ?_ (fun hx => absurd hx hpdo) ?_ ?_ ?_ ?_
    (fun hx => absurd hx hpdo) ?_ ?_ ?_ ?_
  · intro pr' hpr
    simp only [Service.setRpc_procs, Service.createProc_procs, Function.update_of_ne hpr]
    exact ⟨Kept.refl _, fun x => Iff.rfl⟩
  · intro p hp hb
    exact absurd ⟨p, hp, hb⟩ hpdo
  · intro x hx
    exact absurd hx (hmap x)
  · intro _
    exact .inr ⟨k, by simp; rfl⟩
  · intro hf
    rw [hself] at hf
    cases hf
  · intro hr
    rw [hself] at hr
    cases hr
  · have hw := h.working k
    rw [hk] at hw
    exact working_setRpc rfl ⟨hw, Nat.lt_succ_self _, by rw [hself], hpdo, hmap⟩
      fun k' _ hadd => Nat.lt_irrefl _ (h.adding_lt hadd)
  · refine holds_setRpc rfl fun pr' hh => ?_
    rw [hk] at hh
    cases hh
  · refine h.adding_update ?_
    rintro pr' ⟨⟩ k' - hadd
    exact Nat.lt_irrefl _ (h.adding_lt hadd)

/-- **…and enters it in the map**, if its id is free. -/
theorem Registry.insert_step (h : Registry d v) (hk : v.rpcs k = .insert pr)
    (hm : v.diskMap (v.procs pr).diskId = none) :
    Registry d ((v.setMap (v.procs pr).diskId (some pr)).setRpc k (.register pr)) := by
  have hw := h.working k
  rw [hk] at hw
  obtain ⟨hpc, hlt, ha, hn, hmap⟩ := hw
  have hin : InMap ((v.setMap (v.procs pr).diskId (some pr)).setRpc k (.register pr)) pr := by
    simp [InMap]
  refine h.change pr (Nat.le_refl _) ?_ (fun _ => rfl) (fun _ _ _ _ => hin) ?_ (fun _ => .inl hin)
    ?_ (fun _ => .inl ha) ?_ ?_ ?_ ?_
  · intro pr' hpr
    refine ⟨Kept.refl _, fun x => ?_⟩
    refine update_eq_some_iff ?_ ?_ x
    · rw [hm]
      simp
    · exact fun heq => hpr (Option.some.inj heq).symm
  · intro x hx
    simp only [Service.setRpc_diskMap, Service.setMap_diskMap] at hx
    by_cases hd : x = (v.procs pr).diskId
    · exact ⟨hlt, ha, hd.symm⟩
    · rw [Function.update_of_ne hd] at hx
      exact absurd hx (hmap x)
  · intro hf
    obtain ⟨-, p, hp, hb, -⟩ := h.final pr hf
    exact absurd ⟨p, hp, hb⟩ hn
  · intro hr
    exact h.registered pr hr
  · exact working_setRpc rfl ⟨hpc, hn, hin⟩ fun k' hk' => h.adding_ne (by rw [hk]; rfl) hk'
  · refine holds_setRpc rfl fun pr' hh => ?_
    rw [hk] at hh
    exact (Option.some.inj hh).symm
  · refine h.adding_update ?_
    rintro pr' ⟨⟩ k' hk'
    exact h.adding_ne (by rw [hk]; rfl) hk'

/-- A processor whose id was taken is deleted; it never was in the map. -/
theorem Registry.duplicate_step (h : Registry d v) (hk : v.rpcs k = .duplicate pr) :
    Registry d ((v.deleteProc pr).setRpc k (.done false)) := by
  have hw := h.working k
  rw [hk] at hw
  obtain ⟨hpc, hlt, ha, hn, hmap⟩ := hw
  have hself : ((v.deleteProc pr).setRpc k (.done false)).procs pr =
      { v.procs pr with alive := false } := by
    simp
  refine h.change pr (Nat.le_refl _) ?_ ?_ ?_ ?_ ?_ ?_ (fun hx => absurd hx hn) ?_ ?_ ?_ ?_
  · intro pr' hpr
    simp only [Service.setRpc_procs, Service.deleteProc_procs, Function.update_of_ne hpr]
    exact ⟨Kept.refl _, fun x => Iff.rfl⟩
  · intro _
    rw [hself]
  · intro p hp hb
    exact absurd ⟨p, hp, hb⟩ hn
  · intro x hx
    exact absurd hx (hmap x)
  · intro ha'
    rw [hself] at ha'
    cases ha'
  · intro hf
    rw [hself] at hf
    obtain ⟨-, p, hp, hb, -⟩ := h.final pr hf
    exact absurd ⟨p, hp, hb⟩ hn
  · intro hr
    rw [hself] at hr
    exact h.registered pr hr
  · exact working_setRpc rfl hpc fun k' hk' => h.adding_ne (by rw [hk]; rfl) hk'
  · refine holds_setRpc rfl fun pr' hh => ?_
    rw [hk] at hh
    exact (Option.some.inj hh).symm
  · exact h.adding_update fun pr' hpr' => by cases hpr'

/-- **A failed registration is undone**: the processor leaves the map, with no PDO to its name. -/
theorem Registry.undo_step (h : Registry d v) (hk : v.rpcs k = .undo pr) :
    Registry d ((v.removeDisk (v.procs pr).diskId).setRpc k (.done false)) := by
  have hw := h.working k
  rw [hk] at hw
  obtain ⟨hpc, hn, hm⟩ := hw
  have hnone : ∀ pr', (v.rpcs k).holds ≠ some pr' := by
    rw [hk]
    simp [RpcPc.holds]
  have h₁ : Registry d (v.setRpc k (.done false)) :=
    h.setRpc hpc (.inl rfl) fun pr' hpr' => absurd hpr' (hnone pr')
  rw [removeDisk_eq hm]
  refine h₁.erase (f := fun x => { x with alive := false }) hm ?_ ?_ rfl rfl rfl ?_
    fun hx => absurd hx hn
  · intro p hp hb
    exact absurd ⟨p, hp, hb⟩ hn
  · intro k' hk'
    by_cases hkk : k' = k
    · subst hkk
      rw [Service.setRpc_rpcs, Function.update_self] at hk'
      cases hk'
    · rw [Service.setRpc_rpcs, Function.update_of_ne hkk] at hk'
      exact absurd hk' (h.adding_ne (by rw [hk]; rfl) hkk)
  · intro hf
    obtain ⟨-, p, hp, hb, -⟩ := h.final pr hf
    exact hn ⟨p, hp, hb⟩

/-- **A registration that succeeded** left a PDO behind. -/
theorem Registry.registered_step {status : NTSTATUS} (h : Registry d v)
    (hk : v.rpcs k = .registering pr) (hret : d.calls (.rpc k) = .ret status)
    (hs : ntSuccess status = true) :
    Registry d ((v.setProc pr fun x => { x with registered := true }).setRpc k (.done true)) := by
  have hw := h.working k
  rw [hk, hret] at hw
  have hpdo : HasPdo d.bus pr := hw.1 hs
  have hnone : ∀ pr', (v.rpcs k).holds ≠ some pr' := by
    rw [hk]
    simp [RpcPc.holds]
  have h₁ : Registry d (v.setRpc k (.done true)) :=
    h.setRpc (hret ▸ rfl) (.inl rfl) fun pr' hpr' => absurd hpr' (hnone pr')
  have hself : ((v.setRpc k (.done true)).setProc pr fun x => { x with registered := true }).procs
      pr = { v.procs pr with registered := true } := by
    simp
  have hin : InMap ((v.setRpc k (.done true)).setProc pr fun x => { x with registered := true }) pr
      ↔ InMap v pr := by
    rw [InMap, hself]
    rfl
  show Registry d ((v.setRpc k (.done true)).setProc pr fun x => { x with registered := true })
  refine h₁.change pr (Nat.le_refl _) ?_ ?_ ?_ ?_ ?_ ?_ ?_ (fun _ => hpdo) ?_ (fun _ _ _ => id)
    h₁.adding
  · intro pr' hpr
    simp only [Service.setProc_procs, Function.update_of_ne hpr]
    exact ⟨Kept.refl _, fun x => Iff.rfl⟩
  · intro _
    rw [hself]
    rfl
  · intro p hp hb hs
    rw [hin, ← hb]
    exact h.live p hp hs
  · intro x hx
    rw [hself]
    exact h.mapped x pr hx
  · intro ha
    rw [hself] at ha
    rw [hin]
    exact (h₁.alive pr ha)
  · intro hf
    rw [hself] at hf
    rw [hin]
    exact h.final pr hf
  · intro hx
    rw [hself]
    exact h.exits pr hx
  · intro k'
    by_cases hadd : ((v.setRpc k (.done true)).rpcs k').adding = some pr
    · exact .inl ((h₁.working k').of_hasPdo hadd hpdo)
    · exact .inr ⟨rfl, hadd⟩

/-- **A step of the service keeps the registry**, before the driver makes its part of it. -/
theorem Registry.serve {x : SysAction} {act : Option Action} (h : Registry d v)
    (m : Serves d v x act v') (hd : perform d act = some d') : Registry d v' := by
  have hrpc : ∀ k w, v.rpcs k = w → Working d.bus v w (d.calls (.rpc k)) := fun k w hk =>
    hk ▸ h.working k
  cases m with
  | driver => exact h
  | issue | issued | refused | got | gotNone | findNone | find =>
    exact h.frame rfl rfl rfl fun _ => Kept.refl _
  | @post pr _ =>
    have h₁ := h.setProc pr (fun x => { x with mReq := v.req }) ⟨rfl, rfl, rfl, rfl, id, id⟩
    exact h₁.frame rfl rfl rfl fun _ => Kept.refl _
  | @setEvent pr _ =>
    have h₁ := h.setProc pr (fun x => { x with hEvent := true }) ⟨rfl, rfl, rfl, rfl, id, id⟩
    exact h₁.frame rfl rfl rfl fun _ => Kept.refl _
  | wake hpc | executeNone hpc | reply hpc | replied hpc =>
    exact h.setProc _ _ ⟨rfl, rfl, rfl, rfl, nofun, fun hx => by cases hpc.symm.trans hx⟩
  | @execute pr out hpc _ =>
    refine h.frame rfl rfl rfl fun pr' => ?_
    rw [Service.executed_procs]
    by_cases hpr : pr' = pr
    · subst hpr
      rw [Function.update_self]
      exact ⟨rfl, rfl, rfl, rfl, nofun, fun hx => by cases hpc.symm.trans hx⟩
    · rw [Function.update_of_ne hpr]
      exact Kept.refl _
  | removed hpc ha _ hr => exact h.removed_step ha hr
  | final hpc => exact h.final_step hpc
  | rpcAdd hk | rpcRemove hk | createFailed hk | rpcDone hk =>
    have hw := hrpc _ _ hk
    exact h.setRpc hw (.inl rfl) fun pr hpr => by rw [hk] at hpr; cases hpr
  | create hk => exact h.create_step hk
  | insert hk hm => exact h.insert_step hk hm
  | @insertTaken k ok pr _ hk hm =>
    have hw := hrpc _ _ hk
    refine h.setRpc hw (.inr (by rw [hk]; rfl)) fun pr' hpr => .inr ?_
    rw [hk] at hpr
    exact hpr
  | duplicate hk => exact h.duplicate_step hk
  | @register k ok pr hk =>
    have hidle : d.calls (.rpc k) = .idle := idle_of_call hd
    have hw := hrpc _ _ hk
    refine h.setRpc ?_ (.inr (by rw [hk]; rfl)) fun pr' hpr => by rw [hk] at hpr; cases hpr
    rw [hidle]
    exact ⟨hw.2.1, hw.2.2⟩
  | registered hk hret hs => exact h.registered_step hk hret hs
  | registerFailed hk hret hs =>
    have hw := hrpc _ _ hk
    rw [hret] at hw
    refine h.setRpc ?_ (.inr (by rw [hk]; rfl)) fun pr' hpr => by rw [hk] at hpr; cases hpr
    rw [hret]
    exact ⟨rfl, hw.2 hs⟩
  | undo hk => exact h.undo_step hk
  | unregister hk =>
    exact h.setRpc (.inl (hrpc _ _ hk)) (.inl rfl) fun pr hpr => by rw [hk] at hpr; cases hpr
  | unregistered hk hret =>
    refine h.setRpc ?_ (.inl rfl) fun pr hpr => by rw [hk] at hpr; cases hpr
    rw [hret]
    rfl

/-- The registries of a system that was just started. -/
theorem Registry.init {files : FileId → File} : Registry {} { files := files } := by
  refine ⟨?_, ?_, ?_, ?_, ?_, ?_, ?_, ?_, ?_, ?_, ?_, ?_, ?_⟩
  · exact fun p hp => absurd hp (Nat.not_lt_zero p)
  · exact fun p hp => absurd hp (Nat.not_lt_zero p)
  · exact fun p hp => absurd hp (Nat.not_lt_zero p)
  · rintro pr ⟨⟩
  · rintro x pr ⟨⟩
  · rintro pr ⟨⟩
  · rintro pr ⟨⟩
  · exact fun pr _ => .inr rfl
  · exact fun k => rfl
  · rintro k k' pr ⟨⟩
  · rintro t ⟨⟩
  · rintro pr ⟨⟩
  · rintro p x ⟨⟩

variable {s : System} {files : FileId → File} {C : System → SysAction → Prop}

/-- **The registries agree in every state reached.** -/
theorem registry (h : (lts files).Reach C s) : Registry s.driver s.service := by
  refine invariant Registry.init (fun _ _ _ _ _ _ _ hi m hd => hi.serve m hd) ?_ h
  intro s a act v' d' hr _ hv m hd
  exact hv.act (Driver.linked (driver_reachable hr)) hd (registers_of_makes m.makes)

end System

end VirtualDisk
