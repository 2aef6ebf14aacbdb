import Mathlib.Logic.Relation
import VirtualDisk.Driver.Deletion

/-!
# Driver/Progress — no routine is stuck behind a lock

Two locks make a thread wait: the FDO's mutex, which only the FDO's REMOVE_DEVICE keeps across
several steps, and the PDO lock of a start routine's section.  A section never waits for anything,
and the holder of the mutex waits for a PDO lock at most.  So the waits lead, in two steps at most,
to a thread that can go on.
-/

namespace VirtualDisk

open Machinery

variable {t : Tid} {a : Action} {b b' : Bus} {pc pc' : Pc} {p : PdoId}

/-! ## The holders of the locks -/

namespace Pc

/-- The thread holds the FDO's mutex: it is in the loop of the FDO's REMOVE_DEVICE. -/
def holdsMutex : Pc → Bool
  | .fdoLock => false
  | pc => pc.inFdoRemove

@[simp] theorem holdsMutex_nextReturn (k : NextCaller) : (nextReturn k).holdsMutex = false := by
  cases k <;> rfl

theorem holdsMutex_destroyReturn (k : DestroyCaller) :
    (destroyReturn k).holdsMutex = decide (k = .fdo) := by
  cases k <;> rfl

end Pc

namespace Moves

/-- **A PDO lock is held inside a section**: a move that leaves it held leaves its thread there. -/
theorem lock_held {t₂ : Tid} (m : Moves t b a pc b' pc')
    (h : (b'.pdos p).pdoLock = some t₂) :
    (t₂ = t ∧ pc'.locked = some p) ∨
      ((b.pdos p).pdoLock = some t₂ ∧ (pc.locked = some p → pc'.locked = some p)) := by
  cases m
  all_goals first
    | exact .inr ⟨h, id⟩
    | exact .inr ⟨(frame_update PdoDeviceData.pdoLock (by rfl)).symm.trans h, id⟩
    | (refine .inr ⟨h, ?_⟩; intro hp; cases hp)
    | (refine .inr ⟨(frame_update PdoDeviceData.pdoLock (by rfl)).symm.trans h, ?_⟩
       intro hp
       cases hp)
    | skip
  all_goals simp [Function.update_apply] at h
  all_goals split at h
  all_goals first
    | exact .inr ⟨h, fun hp => absurd (Option.some.inj hp).symm ‹_›⟩
    | exact .inl ⟨(Option.some.inj h).symm, congrArg some (‹p = _›).symm⟩
    | (replace h : none = some t₂ := h; cases h)
    | (try subst ‹p = _›
       refine .inr ⟨h, ?_⟩
       intro hp
       cases hp)

/-- **The mutex is held inside the loop of the FDO's REMOVE_DEVICE.** -/
theorem mutex_held {t₂ : Tid} (m : Moves t b a pc b' pc') (h : b'.fdo.mutex = some t₂) :
    (t₂ = t ∧ pc'.holdsMutex = true) ∨
      (b.fdo.mutex = some t₂ ∧ (pc.holdsMutex = true → pc'.holdsMutex = true)) := by
  cases m
  case fdoLock => exact .inl ⟨(Option.some.inj h).symm, rfl⟩
  case fdoLoopEnd => cases h
  case destroyDelete k =>
    refine .inr ⟨h, fun hk => ?_⟩
    rw [Pc.holdsMutex_destroyReturn]
    exact hk
  all_goals first
    | exact .inr ⟨h, id⟩
    | (refine .inr ⟨h, ?_⟩
       intro hk
       cases hk)

end Moves

/-! ## Waiting -/

/-- What a step may have to wait for: a lock, or the event of the last removal. -/
inductive Wait
  | mutex
  | pdoLock (p : PdoId)
  | cleanupReady
  deriving DecidableEq

/-- The wait is over. -/
def Bus.Grants (b : Bus) : Wait → Prop
  | .mutex => b.fdo.mutex = none
  | .pdoLock p => (b.pdos p).pdoLock = none
  | .cleanupReady => b.fdo.cleanupReadyEvent = true

namespace Pc

/-- The thread is inside a routine: it has not returned. -/
def inside : Pc → Bool
  | .idle | .ret _ | .crash _ => false
  | _ => true

/-- What a thread's next step waits for. -/
def awaits : Pc → Option Wait
  | .startPacket p _ | .nextPacket p _ | .replyTake p _ | .destroyTake p _ => some (.pdoLock p)
  | .replyFind _ | .addUnique _ | .addInsert _ | .removeDisk _ | .pdoUnlink _ => some .mutex
  | .queryRelations _ | .fdoOrphan | .fdoLock | .cleanupRemoveAll => some .mutex
  | .cleanupWait => some .cleanupReady
  | _ => none

/-- **A thread inside a routine makes its next step as soon as its wait is over.** -/
theorem exists_step (t : Tid) (ok : Bool) (hin : pc.inside = true)
    (hw : ∀ w, pc.awaits = some w → b.Grants w) : ∃ r, pc.step t ok b = some r := by
  rw [← Option.isSome_iff_exists]
  cases pc
  case idle | ret | crash => cases hin
  case startPacket p _ | nextPacket p _ | replyTake p _ | destroyTake p _ =>
    have hfree : (b.pdos p).pdoLock = none := hw _ rfl
    simp only [step, Bus.startPacketStep, Bus.nextPacketStep, Bus.replyTakeStep,
      Bus.destroyTakeStep, if_neg (not_not.mpr hfree)]
    split <;> first | rfl | (split <;> rfl)
  case replyFind | addUnique | addInsert | removeDisk | pdoUnlink | fdoOrphan | cleanupRemoveAll =>
    have hfree : b.fdo.mutex = none := hw _ rfl
    simp only [step, Bus.replyFindStep, Bus.addUniqueStep, Bus.addInsertStep, Bus.removeDiskStep,
      Bus.pdoUnlinkStep, Bus.fdoOrphanStep, Bus.removeAllDisksStep, if_neg (not_not.mpr hfree)]
    first | rfl | (split <;> first | rfl | (split <;> rfl))
  case queryRelations old =>
    have hfree : b.fdo.mutex = none := hw _ rfl
    simp only [step, Bus.queryRelationsStep, if_neg (not_not.mpr hfree)]
    split <;> first | rfl | (split <;> rfl)
  case fdoLock =>
    have hfree : b.fdo.mutex = none := hw _ rfl
    simp only [step, if_neg (not_not.mpr hfree), Option.isSome_some]
  case cleanupWait =>
    have hset : b.fdo.cleanupReadyEvent = true := hw _ rfl
    simp only [step, if_pos hset, Option.isSome_some]
  all_goals first
    | rfl
    | (simp only [step]; split <;> rfl)

/-- A section waits for nothing. -/
theorem awaits_of_locked (h : pc.locked = some p) : pc.inside = true ∧ pc.awaits = none := by
  cases pc <;> first | exact ⟨rfl, rfl⟩ | cases h

/-- The holder of the mutex waits for a PDO lock at most. -/
theorem awaits_of_holdsMutex (h : pc.holdsMutex = true) :
    pc.inside = true ∧ (pc.awaits = none ∨ ∃ p, pc.awaits = some (.pdoLock p)) := by
  cases pc
  case destroyTake p k => exact ⟨rfl, .inr ⟨p, rfl⟩⟩
  all_goals first | exact ⟨rfl, .inl rfl⟩ | cases h

end Pc

namespace Driver

variable {s s' : Driver} {C : Driver → Action → Prop}

/-- **A lock that is held is held by a thread inside its section.** -/
structure Held (s : Driver) : Prop where
  pdoLock : ∀ p t, (s.bus.pdos p).pdoLock = some t → (s.calls t).locked = some p
  mutex : ∀ t, s.bus.fdo.mutex = some t → (s.calls t).holdsMutex = true

/-- No lock is held. -/
theorem Held.init : lts.init.Held := by
  constructor
  · intro p t h
    cases h
  · intro t h
    cases h

/-- The locks are kept by every move. -/
theorem Held.move (h : s.Held) (m : Moves t s.bus a (s.calls t) b' pc') :
    (s.put t (b', pc')).Held := by
  constructor
  · intro p t₂ hp
    rcases m.lock_held hp with ⟨rfl, hpc⟩ | ⟨hheld, hkeep⟩
    · rwa [put_calls_self]
    · have hlocked := h.pdoLock p t₂ hheld
      rcases eq_or_ne t₂ t with rfl | hne
      · rw [put_calls_self]
        exact hkeep hlocked
      · rwa [put_calls_of_ne s hne]
  · intro t₂ hm
    rcases m.mutex_held hm with ⟨rfl, hpc⟩ | ⟨hheld, hkeep⟩
    · rwa [put_calls_self]
    · have hloop := h.mutex t₂ hheld
      rcases eq_or_ne t₂ t with rfl | hne
      · rw [put_calls_self]
        exact hkeep hloop
      · rwa [put_calls_of_ne s hne]

/-- …and by every step. -/
theorem Held.step (h : s.Held) (hs : s.step a = some s') : s'.Held := by
  rcases step_moves hs with ⟨t, b', pc', m, rfl⟩ | ⟨_, _, -, rfl⟩ | ⟨_, -, -, rfl⟩
  · exact h.move m
  · exact ⟨h.1, h.2⟩
  · exact ⟨h.1, h.2⟩

/-- **The locks are accounted for in every state reached.** -/
theorem held (h : lts.Reach C s) : s.Held :=
  h.invariant Held.init fun _ _ _ _ hi _ hs => hi.step hs

/-- The thread makes its next step, whatever the outcome of the call in it. -/
def CanGo (s : Driver) (t : Tid) : Prop := ∀ ok, ∃ s', s.step (.step t ok) = some s'

/-- A thread waits for a lock that another one holds. -/
def WaitsFor (s : Driver) (t t' : Tid) : Prop :=
  ((s.calls t).awaits = some .mutex ∧ s.bus.fdo.mutex = some t') ∨
    ∃ p, (s.calls t).awaits = some (.pdoLock p) ∧ (s.bus.pdos p).pdoLock = some t'

theorem canGo_of_grants (hin : (s.calls t).inside = true)
    (hw : ∀ w, (s.calls t).awaits = some w → s.bus.Grants w) : s.CanGo t := by
  intro ok
  obtain ⟨r, hr⟩ := Pc.exists_step t ok hin hw
  exact ⟨s.put t r, by rw [step, hr, Option.map_some]⟩

/-- A thread that waits for nothing can go on. -/
theorem canGo_of_awaits (hin : (s.calls t).inside = true) (hw : (s.calls t).awaits = none) :
    s.CanGo t :=
  canGo_of_grants hin fun w h => by rw [hw] at h; cases h

/-- A PDO lock is free, or its holder can go on. -/
theorem Held.pdoLock_or (h : s.Held) (hin : (s.calls t).inside = true)
    (hw : (s.calls t).awaits = some (.pdoLock p)) :
    s.CanGo t ∨ ∃ t', s.WaitsFor t t' ∧ s.CanGo t' := by
  cases hl : (s.bus.pdos p).pdoLock with
  | none =>
    refine .inl (canGo_of_grants hin fun w hw' => ?_)
    obtain rfl := Option.some.inj (hw.symm.trans hw')
    exact hl
  | some t' =>
    obtain ⟨hin', hfree⟩ := Pc.awaits_of_locked (h.pdoLock p t' hl)
    exact .inr ⟨t', .inr ⟨p, hw, hl⟩, canGo_of_awaits hin' hfree⟩

/-- The mutex is free, or the waits lead from its holder to a thread that can go on. -/
theorem Held.mutex_or (h : s.Held) (hin : (s.calls t).inside = true)
    (hw : (s.calls t).awaits = some .mutex) :
    ∃ t', Relation.ReflTransGen s.WaitsFor t t' ∧ s.CanGo t' := by
  cases hm : s.bus.fdo.mutex with
  | none =>
    refine ⟨t, .refl, canGo_of_grants hin fun w hw' => ?_⟩
    obtain rfl := Option.some.inj (hw.symm.trans hw')
    exact hm
  | some t₁ =>
    have hwait : s.WaitsFor t t₁ := .inl ⟨hw, hm⟩
    obtain ⟨hin₁, hfree | ⟨p, hp⟩⟩ := Pc.awaits_of_holdsMutex (h.mutex t₁ hm)
    · exact ⟨t₁, .single hwait, canGo_of_awaits hin₁ hfree⟩
    · rcases h.pdoLock_or hin₁ hp with hgo | ⟨t₂, hwait₂, hgo⟩
      · exact ⟨t₁, .single hwait, hgo⟩
      · exact ⟨t₂, (Relation.ReflTransGen.single hwait).tail hwait₂, hgo⟩

/-- **The locks do not deadlock**: from every thread inside a routine the waits lead to a thread
that can go on, unless it waits in `Bus_FDO_Cleanup` for the last disk to go. -/
theorem Held.canGo (h : s.Held) (hin : (s.calls t).inside = true) :
    (s.calls t = .cleanupWait ∧ s.bus.fdo.cleanupReadyEvent = false) ∨
      ∃ t', Relation.ReflTransGen s.WaitsFor t t' ∧ s.CanGo t' := by
  cases hw : (s.calls t).awaits with
  | none => exact .inr ⟨t, .refl, canGo_of_awaits hin hw⟩
  | some w =>
    cases w with
    | mutex => exact .inr (h.mutex_or hin hw)
    | pdoLock p =>
      refine .inr ?_
      rcases h.pdoLock_or hin hw with hgo | ⟨t', hwait, hgo⟩
      · exact ⟨t, .refl, hgo⟩
      · exact ⟨t', .single hwait, hgo⟩
    | cleanupReady =>
      have hpc : s.calls t = .cleanupWait := by
        cases hc : s.calls t <;> rw [hc] at hw <;> first | rfl | cases hw
      cases he : s.bus.fdo.cleanupReadyEvent with
      | false => exact .inl ⟨hpc, rfl⟩
      | true =>
        refine .inr ⟨t, .refl, canGo_of_grants hin fun w hw' => ?_⟩
        obtain rfl := Option.some.inj (hw.symm.trans hw')
        exact he

end Driver

end VirtualDisk
