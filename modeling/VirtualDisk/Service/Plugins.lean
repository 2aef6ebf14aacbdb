import VirtualDisk.Service.AddDisk

/-!
# Service/Plugins — who owns a plugin

`CPluginManager`: a plugin object is made by a factory, initialised, and entered in the map under
its type in lower case; what is in the map is released at the end.  Between calls an object should
be in the map, or released (`Owned`).  A call gives an object back when its `Init` returns FALSE,
not when it throws, and not when the map has the type already: those objects are lost, and no others
(`meets_iff_clean`).
-/

namespace VirtualDisk

/-! ## The map -/

/-- A plugin object, in order of creation. -/
abbrev PluginObject := ℕ

/-- `PluginMap`: a key has one entry. -/
structure PluginMap where
  entries : List (WString × PluginObject) := []
  nodup : (entries.map Prod.fst).Nodup := by simp

namespace PluginMap

variable {m : PluginMap} {k : WString} {p : PluginObject}

def keys (m : PluginMap) : List WString := m.entries.map Prod.fst

def objects (m : PluginMap) : List PluginObject := m.entries.map Prod.snd

/-- `map::find`. -/
def find (m : PluginMap) (k : WString) : Option PluginObject :=
  (m.entries.find? fun e => e.1 = k).map Prod.snd

/-- `map::insert`: an entry the map has is left alone. -/
def insert (m : PluginMap) (k : WString) (p : PluginObject) : PluginMap × Bool :=
  if h : k ∈ m.keys then (m, false)
  else ({ entries := m.entries ++ [(k, p)]
          nodup := by
            rw [List.map_append]
            exact List.nodup_append'.mpr ⟨m.nodup, List.nodup_singleton _,
              List.disjoint_singleton.mpr h⟩ }, true)

theorem insert_of_mem (h : k ∈ m.keys) : m.insert k p = (m, false) := dif_pos h

theorem entries_insert (h : k ∉ m.keys) :
    (m.insert k p).1.entries = m.entries ++ [(k, p)] ∧ (m.insert k p).2 = true := by
  rw [insert, dif_neg h]
  exact ⟨rfl, rfl⟩

end PluginMap

/-! ## The calls -/

/-- What `Init` of a new plugin does. -/
inductive PluginInit
  | succeeds
  | fails
  | throws
  deriving DecidableEq, Repr

/-- A `PluginFunc`: it returns NULL, or a new plugin. -/
inductive PluginFunc
  | null
  | plugin (init : PluginInit)
  deriving DecidableEq, Repr

/-- `CPluginManager`, with how often each object was released. -/
structure PluginManager where
  pluginMap : PluginMap := {}
  next : PluginObject := 0
  releases : PluginObject → ℕ := fun _ => 0

namespace PluginManager

/-- `new`, in a factory. -/
def create (m : PluginManager) : PluginManager := { m with next := m.next + 1 }

/-- `IPlugin::Release`. -/
def release (m : PluginManager) (p : PluginObject) : PluginManager :=
  { m with releases := Function.update m.releases p (m.releases p + 1) }

/-- `CPluginManager::FindPlugin`. -/
def findPlugin (m : PluginManager) (diskType : WString) : Option PluginObject :=
  m.pluginMap.find (diskType.map towlower)

/-- `CPluginManager::AddPlugin`. -/
def addPlugin (m : PluginManager) (diskType : WString) (func : PluginFunc) : Bool × PluginManager :=
  match func with
  | .null => (false, m)
  | .plugin .fails => (false, m.create.release m.next)
  -- the handler knows of no plugin
  | .plugin .throws => (false, m.create)
  | .plugin .succeeds =>
    let pr := m.pluginMap.insert (diskType.map towlower) m.next
    (pr.2, { m.create with pluginMap := pr.1 })

/-- `CPluginManager::DeleteAllPlugins`. -/
def deleteAllPlugins (m : PluginManager) : PluginManager :=
  { m.pluginMap.objects.foldl release m with pluginMap := {} }

/-- **Every object is in the map once, or was released once**, and not both. -/
def Owned (m : PluginManager) : Prop :=
  ∀ p < m.next, (m.pluginMap.objects.count p = 1 ∧ m.releases p = 0) ∨
    (m.pluginMap.objects.count p = 0 ∧ m.releases p = 1)

variable {m : PluginManager} {p : PluginObject} {diskType : WString} {func : PluginFunc}

/-- **A refused call leaves the map alone.** -/
theorem addPlugin_refused (h : (m.addPlugin diskType func).1 = false) :
    (m.addPlugin diskType func).2.pluginMap = m.pluginMap := by
  match func with
  | .null => rfl
  | .plugin .fails => rfl
  | .plugin .throws => rfl
  | .plugin .succeeds =>
    by_cases hk : diskType.map towlower ∈ m.pluginMap.keys
    · exact congrArg Prod.fst (PluginMap.insert_of_mem hk)
    · have htrue := (PluginMap.entries_insert (p := m.next) hk).2
      exact absurd (h.symm.trans htrue) (by decide)

/-- **A call adds exactly when** its plugin is initialised and the map has no such type. -/
theorem addPlugin_added_iff : (m.addPlugin diskType func).1 = true ↔
    func = .plugin .succeeds ∧ diskType.map towlower ∉ m.pluginMap.keys := by
  match func with
  | .null => simp [addPlugin]
  | .plugin .fails => simp [addPlugin]
  | .plugin .throws => simp [addPlugin]
  | .plugin .succeeds =>
    by_cases hk : diskType.map towlower ∈ m.pluginMap.keys
    · simp [addPlugin, PluginMap.insert_of_mem hk, hk]
    · simp [addPlugin, (PluginMap.entries_insert (p := m.next) hk).2, hk]

/-- …and the new object is its last entry. -/
theorem addPlugin_added (h : (m.addPlugin diskType func).1 = true) :
    (m.addPlugin diskType func).2.pluginMap.entries =
      m.pluginMap.entries ++ [(diskType.map towlower, m.next)] := by
  obtain ⟨rfl, hk⟩ := addPlugin_added_iff.mp h
  exact (PluginMap.entries_insert hk).1

/-! ## What a call leaves -/

/-- The objects of the map were created, and those to come were not released. -/
structure Numbered (m : PluginManager) : Prop where
  lt : ∀ p ∈ m.pluginMap.objects, p < m.next
  fresh : ∀ p, m.next ≤ p → m.releases p = 0

theorem Numbered.count_next (h : m.Numbered) : m.pluginMap.objects.count m.next = 0 :=
  List.count_eq_zero.mpr fun hp => Nat.lt_irrefl _ (h.lt _ hp)

theorem Numbered.addPlugin (h : m.Numbered) : (m.addPlugin diskType func).2.Numbered := by
  match func with
  | .null => exact h
  | .plugin .fails =>
    refine ⟨fun p hp => Nat.lt_succ_of_lt (h.lt p hp), fun p hp => ?_⟩
    have hne : p ≠ m.next := Nat.ne_of_gt hp
    exact (Function.update_of_ne hne _ _).trans (h.fresh p (Nat.le_of_succ_le hp))
  | .plugin .throws =>
    exact ⟨fun p hp => Nat.lt_succ_of_lt (h.lt p hp), fun p hp => h.fresh p (Nat.le_of_succ_le hp)⟩
  | .plugin .succeeds =>
    refine ⟨fun p hp => ?_, fun p hp => h.fresh p (Nat.le_of_succ_le hp)⟩
    by_cases hk : diskType.map towlower ∈ m.pluginMap.keys
    · rw [PluginManager.addPlugin, PluginMap.insert_of_mem hk] at hp
      exact Nat.lt_succ_of_lt (h.lt p hp)
    · rw [PluginManager.addPlugin, PluginMap.objects, (PluginMap.entries_insert hk).1,
        List.map_append] at hp
      rcases List.mem_append.mp hp with hp | hp
      · exact Nat.lt_succ_of_lt (h.lt p hp)
      · rw [List.mem_singleton.mp hp]
        exact Nat.lt_succ_self _

/-- An owner of every object but the last, and the last in the map or released, but not both. -/
theorem owned_succ_iff {m' : PluginManager} (hnext : m'.next = m.next + 1)
    (hcount : ∀ p < m.next, m'.pluginMap.objects.count p = m.pluginMap.objects.count p)
    (hrel : ∀ p < m.next, m'.releases p = m.releases p) :
    m'.Owned ↔ m.Owned ∧
      ((m'.pluginMap.objects.count m.next = 1 ∧ m'.releases m.next = 0) ∨
        (m'.pluginMap.objects.count m.next = 0 ∧ m'.releases m.next = 1)) := by
  constructor
  · intro h
    refine ⟨fun p hp => ?_, h m.next (hnext ▸ Nat.lt_succ_self _)⟩
    rw [← hcount p hp, ← hrel p hp]
    exact h p (hnext ▸ Nat.lt_succ_of_lt hp)
  · rintro ⟨h, hlast⟩ p hp
    rcases Nat.lt_succ_iff_lt_or_eq.mp (hnext ▸ hp) with hlt | rfl
    · rw [hcount p hlt, hrel p hlt]
      exact h p hlt
    · exact hlast

/-- **A call loses its object exactly when** `Init` throws, or succeeds for a type the map has. -/
theorem owned_addPlugin_iff (h : m.Numbered) : (m.addPlugin diskType func).2.Owned ↔
    m.Owned ∧ func ≠ .plugin .throws ∧
      (func = .plugin .succeeds → diskType.map towlower ∉ m.pluginMap.keys) := by
  have hfresh := h.fresh m.next (Nat.le_refl _)
  match func with
  | .null => simp [addPlugin]
  | .plugin .fails =>
    have hone : (m.addPlugin diskType (.plugin .fails)).2.releases m.next = 1 := by
      refine (Function.update_self ..).trans ?_
      exact congrArg (· + 1) hfresh
    refine Iff.trans (owned_succ_iff (m := m) rfl (fun p _ => rfl)
      (fun p hp => Function.update_of_ne (Nat.ne_of_lt hp) _ _)) ?_
    simp [hone, show (m.addPlugin diskType (.plugin .fails)).2.pluginMap = m.pluginMap from rfl,
      h.count_next]
  | .plugin .throws =>
    refine Iff.trans (owned_succ_iff (m := m) rfl (fun p _ => rfl) (fun p _ => rfl)) ?_
    simp [show (m.addPlugin diskType (.plugin .throws)).2.pluginMap = m.pluginMap from rfl,
      show (m.addPlugin diskType (.plugin .throws)).2.releases = m.releases from rfl,
      h.count_next, hfresh]
  | .plugin .succeeds =>
    have hrel : (m.addPlugin diskType (.plugin .succeeds)).2.releases = m.releases := rfl
    by_cases hk : diskType.map towlower ∈ m.pluginMap.keys
    · have hmap : (m.addPlugin diskType (.plugin .succeeds)).2.pluginMap = m.pluginMap := by
        rw [addPlugin, PluginMap.insert_of_mem hk]
      refine Iff.trans (owned_succ_iff (m := m) rfl (fun p _ => by rw [hmap]) (fun p _ => rfl)) ?_
      rw [hmap, hrel]
      simp [h.count_next, hfresh, hk]
    · have hobj : (m.addPlugin diskType (.plugin .succeeds)).2.pluginMap.objects =
          m.pluginMap.objects ++ [m.next] := by
        rw [addPlugin, PluginMap.objects, (PluginMap.entries_insert hk).1, List.map_append]
        rfl
      refine Iff.trans (owned_succ_iff (m := m) rfl (fun p hp => ?_) (fun p _ => rfl)) ?_
      · rw [hobj, List.count_append, List.count_singleton, if_neg (by simpa using Nat.ne_of_gt hp),
          Nat.add_zero]
      · rw [hobj, hrel]
        simp [h.count_next, hfresh, hk]

/-! ## The end -/

theorem release_releases_of_ne {q : PluginObject} (h : p ≠ q) :
    (m.release q).releases p = m.releases p := Function.update_of_ne h _ _

/-- Releasing a list of objects releases each as often as it occurs. -/
theorem foldl_release (ps : List PluginObject) (m : PluginManager) :
    (ps.foldl release m).next = m.next ∧
      (ps.foldl release m).releases p = m.releases p + ps.count p := by
  induction ps generalizing m with
  | nil => exact ⟨rfl, rfl⟩
  | cons q ps ih =>
    obtain ⟨hnext, hrel⟩ := ih (m.release q)
    refine ⟨hnext, hrel.trans ?_⟩
    rw [List.count_cons]
    by_cases hq : p = q
    · subst hq
      simp only [release, Function.update_self, beq_self_eq_true, if_true]
      omega
    · rw [release_releases_of_ne hq, if_neg (by simpa using Ne.symm hq), Nat.add_zero]

/-- **What was owned is released once**, and the map is empty. -/
theorem owned_deleteAllPlugins (h : m.Owned) : m.deleteAllPlugins.Owned := by
  intro p hp
  obtain ⟨hnext, hrel⟩ := foldl_release (p := p) m.pluginMap.objects m
  have hp' : p < m.next := hnext ▸ hp
  refine .inr ⟨rfl, hrel.trans ?_⟩
  rcases h p hp' with ⟨hc, hr⟩ | ⟨hc, hr⟩ <;> rw [hc, hr]

end PluginManager

/-! ## Sequences of calls -/

/-- A call of `AddPlugin`. -/
structure AddPluginCall where
  diskType : WString
  func : PluginFunc

namespace AddPluginCall

/-- The type it asks for, up to case. -/
def key (c : AddPluginCall) : WString := c.diskType.map towlower

/-- Its plugin is initialised. -/
def Initialises (c : AddPluginCall) : Prop := c.func = .plugin .succeeds

/-- Its plugin's `Init` throws. -/
def Throws (c : AddPluginCall) : Prop := c.func = .plugin .throws

end AddPluginCall

/-- A manager, and the calls that returned true, in order, with the objects they added. -/
structure PluginSession where
  manager : PluginManager := {}
  added : List (WString × PluginObject) := []

namespace PluginSession

/-- One more call. -/
def add (x : PluginSession) (c : AddPluginCall) : PluginSession where
  manager := (x.manager.addPlugin c.diskType c.func).2
  added :=
    if (x.manager.addPlugin c.diskType c.func).1 then x.added ++ [(c.diskType, x.manager.next)]
    else x.added

/-- The session after these calls. -/
def run (calls : List AddPluginCall) : PluginSession := calls.foldl add {}

@[simp] theorem run_concat (calls : List AddPluginCall) (c : AddPluginCall) :
    run (calls ++ [c]) = (run calls).add c := List.foldl_concat ..

/-- The plugin of the first call that returned true for this type, up to case. -/
def firstAdded (x : PluginSession) (diskType : WString) : Option PluginObject :=
  (x.added.find? fun e => e.1.map towlower = diskType.map towlower).map Prod.snd

/-- **A sequence of calls keeps its plugins**: every object is owned at every moment between them,
and at the end; a refused call leaves the map alone; `FindPlugin` finds the first plugin added. -/
structure Meets (calls : List AddPluginCall) : Prop where
  owned : ∀ pre, pre <+: calls → (run pre).manager.Owned
  deleted : (run calls).manager.deleteAllPlugins.Owned
  refused : ∀ pre c, pre ++ [c] <+: calls →
    ((run pre).manager.addPlugin c.diskType c.func).1 = false →
    (run (pre ++ [c])).manager.pluginMap = (run pre).manager.pluginMap
  found : ∀ pre, pre <+: calls → ∀ diskType,
    (run pre).manager.findPlugin diskType = (run pre).firstAdded diskType

/-- **Nothing is lost**: no `Init` throws, and no two plugins of one type, up to case, are
initialised. -/
structure Clean (calls : List AddPluginCall) : Prop where
  noThrow : ∀ c ∈ calls, ¬ c.Throws
  distinct : calls.Pairwise fun c d => c.Initialises → d.Initialises → c.key ≠ d.key

/-- What is known of a session: its numbers, its entries as the calls that returned true, and its
keys as the types initialised. -/
structure Tracks (calls : List AddPluginCall) : Prop where
  numbered : (run calls).manager.Numbered
  entries : (run calls).manager.pluginMap.entries =
    (run calls).added.map fun e => (e.1.map towlower, e.2)
  keys : ∀ k, k ∈ (run calls).manager.pluginMap.keys ↔ ∃ c ∈ calls, c.Initialises ∧ c.key = k

variable {calls : List AddPluginCall} {c : AddPluginCall}

theorem Tracks.concat_entries (h : Tracks calls) :
    (run (calls ++ [c])).manager.pluginMap.entries =
      (run (calls ++ [c])).added.map fun e => (e.1.map towlower, e.2) := by
  rw [run_concat]
  cases hr : ((run calls).manager.addPlugin c.diskType c.func).1 with
  | false =>
    simp only [add, hr, PluginManager.addPlugin_refused hr, Bool.false_eq_true, if_false]
    exact h.entries
  | true =>
    simp only [add, hr, PluginManager.addPlugin_added hr, if_true, List.map_append, h.entries]
    rfl

theorem Tracks.concat_keys (h : Tracks calls) (k : WString) :
    k ∈ (run (calls ++ [c])).manager.pluginMap.keys ↔
      ∃ d ∈ calls ++ [c], d.Initialises ∧ d.key = k := by
  have hor : (∃ d ∈ calls ++ [c], d.Initialises ∧ d.key = k) ↔
      k ∈ (run calls).manager.pluginMap.keys ∨ (c.Initialises ∧ c.key = k) := by
    rw [h.keys]
    simp [or_and_right, exists_or]
  rw [hor, run_concat]
  cases hr : ((run calls).manager.addPlugin c.diskType c.func).1 with
  | false =>
    rw [show ((run calls).add c).manager.pluginMap = (run calls).manager.pluginMap from
      PluginManager.addPlugin_refused hr]
    refine ⟨Or.inl, fun hk => hk.elim id ?_⟩
    rintro ⟨hi, rfl⟩
    by_contra hnot
    exact absurd (hr.symm.trans (PluginManager.addPlugin_added_iff.mpr ⟨hi, hnot⟩)) (by decide)
  | true =>
    have hi := (PluginManager.addPlugin_added_iff.mp hr).1
    rw [PluginMap.keys, show ((run calls).add c).manager.pluginMap.entries = _ from
      PluginManager.addPlugin_added hr, List.map_append, List.mem_append]
    simp [PluginMap.keys, AddPluginCall.Initialises, AddPluginCall.key, hi, eq_comm]

theorem tracks (calls : List AddPluginCall) : Tracks calls := by
  induction calls using List.reverseRecOn with
  | nil =>
    exact ⟨⟨by simp [run, PluginMap.objects], fun _ _ => rfl⟩, rfl, by simp [run, PluginMap.keys]⟩
  | append_singleton calls c ih =>
    refine ⟨?_, ih.concat_entries, ih.concat_keys⟩
    rw [run_concat]
    exact ih.numbered.addPlugin

/-- **`FindPlugin` finds the first plugin added**, after any calls. -/
theorem findPlugin_eq (calls : List AddPluginCall) (diskType : WString) :
    (run calls).manager.findPlugin diskType = (run calls).firstAdded diskType := by
  rw [PluginManager.findPlugin, PluginMap.find, (tracks calls).entries, List.find?_map, firstAdded,
    Option.map_map]
  rfl

theorem clean_concat_iff : Clean (calls ++ [c]) ↔ Clean calls ∧ ¬ c.Throws ∧
    (c.Initialises → c.key ∉ (run calls).manager.pluginMap.keys) := by
  have hkeys : (c.Initialises → c.key ∉ (run calls).manager.pluginMap.keys) ↔
      ∀ d ∈ calls, d.Initialises → c.Initialises → d.key ≠ c.key := by
    rw [(tracks calls).keys]
    constructor
    · exact fun h d hd hdi hci he => h hci ⟨d, hd, hdi, he⟩
    · rintro h hci ⟨d, hd, hdi, he⟩
      exact h d hd hdi hci he
  rw [hkeys]
  constructor
  · rintro ⟨hno, hpair⟩
    obtain ⟨hcalls, -, hc⟩ := List.pairwise_append.mp hpair
    exact ⟨⟨fun d hd => hno d (List.mem_append_left _ hd), hcalls⟩, hno c (by simp),
      fun d hd => hc d hd c (List.mem_singleton_self c)⟩
  · rintro ⟨⟨hno, hpair⟩, hc, hkey⟩
    refine ⟨fun d hd => ?_, List.pairwise_append.mpr ⟨hpair, List.pairwise_singleton _ _, ?_⟩⟩
    · rcases List.mem_append.mp hd with hd | hd
      · exact hno d hd
      · exact List.mem_singleton.mp hd ▸ hc
    · intro d hd e he
      obtain rfl := List.mem_singleton.mp he
      exact hkey d hd

/-- **Every object is owned after these calls exactly when** nothing of theirs is lost. -/
theorem owned_run_iff (calls : List AddPluginCall) :
    (run calls).manager.Owned ↔ Clean calls := by
  induction calls using List.reverseRecOn with
  | nil =>
    exact ⟨fun _ => ⟨by simp, List.Pairwise.nil⟩, fun _ p hp => absurd hp (Nat.not_lt_zero p)⟩
  | append_singleton calls c ih =>
    rw [clean_concat_iff, ← ih, run_concat]
    exact PluginManager.owned_addPlugin_iff (tracks calls).numbered

theorem Clean.of_prefix {pre : List AddPluginCall} (h : Clean calls) (hpre : pre <+: calls) :
    Clean pre :=
  ⟨fun c hc => h.noThrow c (hpre.subset hc), h.distinct.sublist hpre.sublist⟩

/-- **Plugins are owned, kept and found exactly when** no `Init` throws and no two plugins of one
type are initialised. -/
theorem meets_iff_clean (calls : List AddPluginCall) : Meets calls ↔ Clean calls := by
  constructor
  · intro h
    exact (owned_run_iff calls).mp (h.owned calls List.prefix_rfl)
  · intro h
    refine ⟨fun pre hpre => (owned_run_iff pre).mpr (h.of_prefix hpre),
      PluginManager.owned_deleteAllPlugins ((owned_run_iff calls).mpr h), ?_,
      fun pre _ => findPlugin_eq pre⟩
    intro pre c _ hr
    rw [run_concat]
    exact PluginManager.addPlugin_refused hr

/-- **A plugin is lost**: the second of two for one type, written in two cases. -/
theorem not_meets : ¬ ∀ calls : List AddPluginCall, Meets calls := by
  intro h
  have hclean := (owned_run_iff [⟨[0x76], .plugin .succeeds⟩, ⟨[0x56], .plugin .succeeds⟩]).mp
    ((h _).owned _ List.prefix_rfl)
  exact (List.pairwise_cons.mp hclean.distinct).1 _ (List.mem_singleton_self _) rfl rfl (by decide)

end PluginSession

end VirtualDisk
