import VirtualDisk.Machinery.Imports
import VirtualDisk.Machinery.Transition
import VirtualDisk.Service.Replies

/-!
# Service/VmdkPlugin — the plugin for virtual disks and the library behind it

`CVixWrapper` holds a pointer to each function of vixDiskLib.dll that `CVmdkPlugin` and
`CVmdkStorage` call.  `Init` loads them one by one and tests each for NULL, but after four of them
it is the pointer to `VixDiskLib_Connect` that it tests.  So a library that lacks one of these four
passes, and the first disk that needs the function is a call to address zero.

What the library's functions return is data of a step, and so is whether memory can be had.
-/

namespace VirtualDisk

open Machinery

/-! ## The library -/

/-- `VixError`. -/
abbrev VixError := UInt64

def vixOk : VixError := 0

/-- `VIXDISKLIB_SECTOR_SIZE`. -/
def vixdisklibSectorSize : ULONG := 512

/-- The functions of the library, one for each pointer of `CVixWrapper`. -/
inductive VixFunction
  | initFunc
  | exitFunc
  | connectFunc
  | disconnectFunc
  | openFunc
  | getInfoFunc
  | freeInfoFunc
  | closeFunc
  | readFunc
  | writeFunc
  deriving DecidableEq, Repr

namespace VixFunction

/-- The name `GetProcAddress` is asked for. -/
def symbol : VixFunction → String
  | .initFunc => "VixDiskLib_Init"
  | .exitFunc => "VixDiskLib_Exit"
  | .connectFunc => "VixDiskLib_Connect"
  | .disconnectFunc => "VixDiskLib_Disconnect"
  | .openFunc => "VixDiskLib_Open"
  | .getInfoFunc => "VixDiskLib_GetInfo"
  | .freeInfoFunc => "VixDiskLib_FreeInfo"
  | .closeFunc => "VixDiskLib_Close"
  | .readFunc => "VixDiskLib_Read"
  | .writeFunc => "VixDiskLib_Write"

end VixFunction

/-- A vixDiskLib.dll: whether it can be loaded, and the symbols it exports. -/
structure VixLibrary where
  loads : Bool
  exports : String → Bool

/-- `CVixWrapper`. -/
abbrev CVixWrapper := Pointers VixFunction

/-- The rows of `CVixWrapper::Init`: the pointer assigned, and the pointer compared with NULL. -/
def vixTable : List (VixFunction × VixFunction) :=
  [(.initFunc, .initFunc),
    (.exitFunc, .exitFunc),
    (.connectFunc, .connectFunc),
    (.disconnectFunc, .disconnectFunc),
    (.openFunc, .connectFunc),
    (.getInfoFunc, .connectFunc),
    (.freeInfoFunc, .connectFunc),
    (.closeFunc, .connectFunc),
    (.readFunc, .readFunc),
    (.writeFunc, .writeFunc)]

/-- `CVixWrapper::Init`. -/
def vixWrapperInit (lib : VixLibrary) (w : CVixWrapper) : CVixWrapper × Bool :=
  if lib.loads = false then (w, false)
  else Pointers.load (fun f => lib.exports f.symbol) vixTable w

/-- The pointers of an initialised wrapper are those of the library. -/
theorem vixWrapperInit_apply {lib : VixLibrary} {w : CVixWrapper}
    (h : (vixWrapperInit lib w).2 = true) (f : VixFunction) :
    (vixWrapperInit lib w).1 f = lib.exports f.symbol := by
  have hall : f ∈ vixTable.map Prod.fst := by cases f <;> decide
  rw [vixWrapperInit] at h ⊢
  split at h
  · cases h
  · next hl => rw [if_neg hl, Pointers.load_apply h, if_pos hall]

/-- The functions whose own pointers are tested. -/
theorem exports_of_vixWrapperInit {lib : VixLibrary} {w : CVixWrapper} {f : VixFunction}
    (h : (vixWrapperInit lib w).2 = true) (hf : (f, f) ∈ vixTable) :
    lib.exports f.symbol = true := by
  rw [vixWrapperInit] at h
  split at h
  · cases h
  · have hexports := Pointers.exports_of_load h hf
    exact hexports

/-! ## The plugin -/

/-- `CVmdkStorage`.  `handle` says that `m_Handle` is not NULL. -/
structure CVmdkStorage where
  handle : Bool
  geometry : Geometry
  deriving DecidableEq

/-- `CVmdkPlugin`, its storages and the wrapper.  `called` are the functions called through the
wrapper's pointers so far, `result` is what the last transfer returned; a call through a NULL
pointer is the last thing the process does (`crashed`). -/
structure CVmdkPlugin where
  wrapper : CVixWrapper
  inited : Bool := false
  alive : Bool := true
  storages : ℕ → Option CVmdkStorage := fun _ => none
  storageCount : ℕ := 0
  called : List VixFunction := []
  result : Bool × Option ULONG := (false, none)
  crashed : Bool := false

namespace CVmdkPlugin

variable {x x' : CVmdkPlugin} {fs : List VixFunction} {f : VixFunction}

/-- Functions are called one after the other, and then the objects are updated. -/
def perform (x : CVmdkPlugin) (fs : List VixFunction) (update : CVmdkPlugin → CVmdkPlugin) :
    CVmdkPlugin :=
  if fs.all x.wrapper then update { x with called := x.called ++ fs }
  else { x with called := x.called ++ Pointers.made x.wrapper fs, crashed := true }

/-- `CVmdkPlugin::Init`, and its result.  The errors are those of `VixDiskLib_Init` and
`VixDiskLib_Connect`. -/
def init (lib : VixLibrary) (initError connectError : VixError) : CVmdkPlugin × Bool :=
  let r := vixWrapperInit lib fun _ => false
  let x : CVmdkPlugin := { wrapper := r.1 }
  if r.2 = false then (x, false)
  else if initError ≠ vixOk then (x.perform [.initFunc] id, false)
  else if connectError ≠ vixOk then (x.perform [.initFunc, .connectFunc, .exitFunc] id, false)
  else (x.perform [.initFunc, .connectFunc] fun x => { x with inited := true }, true)

/-- What `CreateDisk` meets: whether memory can be had for the storage and its name, the errors of
`VixDiskLib_Open` and `VixDiskLib_GetInfo`, whether `m_Handle` is set after the first, and the
capacity the second reports. -/
structure CreateOutcome where
  allocated : Bool := true
  openError : VixError := vixOk
  handle : Bool := true
  infoError : VixError := vixOk
  capacity : ℕ
  deriving DecidableEq

/-- `CVmdkStorage::Init`: the functions it calls, and the geometry when it returns TRUE. -/
def storageInit (o : CreateOutcome) : List VixFunction × Option Geometry :=
  if o.openError ≠ vixOk then ([.openFunc], none)
  else if o.infoError ≠ vixOk then ([.openFunc, .getInfoFunc], none)
  else ([.openFunc, .getInfoFunc, .freeInfoFunc], vmdkStorageInit o.capacity vixdisklibSectorSize)

/-- What `CVmdkStorage::~CVmdkStorage` calls. -/
def destroyCalls (handle : Bool) : List VixFunction := if handle then [.closeFunc] else []

/-- `CVmdkPlugin::CreateDisk`: a storage that cannot be initialised is released. -/
def createDisk (x : CVmdkPlugin) (o : CreateOutcome) : CVmdkPlugin :=
  if o.allocated = false then x.perform [] id
  else match (storageInit o).2 with
    | some g => x.perform (storageInit o).1 fun x =>
        { x with
          storages := Function.update x.storages x.storageCount (some ⟨o.handle, g⟩)
          storageCount := x.storageCount + 1 }
    | none => x.perform ((storageInit o).1 ++ destroyCalls o.handle) id

/-- `CVmdkStorage::ReadBlocks` and `WriteBlocks`, through the pointer of `f`. -/
def transferBlocks (x : CVmdkPlugin) (f : VixFunction) (st : CVmdkStorage) (error : VixError)
    (transferBlocks : ULONG) : CVmdkPlugin :=
  x.perform [f] fun x =>
    { x with result := vmdkStorageResult (error = vixOk) transferBlocks st.geometry.blockSize }

/-- `CVmdkStorage::Release`. -/
def releaseStorage (x : CVmdkPlugin) (k : ℕ) (st : CVmdkStorage) : CVmdkPlugin :=
  x.perform (destroyCalls st.handle) fun x =>
    { x with storages := Function.update x.storages k none }

/-- `CVmdkPlugin::Release`. -/
def release (x : CVmdkPlugin) : CVmdkPlugin :=
  x.perform (if x.inited then [.disconnectFunc, .exitFunc] else []) fun x =>
    { x with alive := false }

/-- The calls of the plugin's and its storages' methods. -/
inductive Call
  | createDisk (o : CreateOutcome)
  | readBlocks (k : ℕ) (error : VixError) (transferBlocks : ULONG)
  | writeBlocks (k : ℕ) (error : VixError) (transferBlocks : ULONG)
  | releaseStorage (k : ℕ)
  | release
  deriving DecidableEq

/-- A method is called on an object that was not released. -/
def respond (x : CVmdkPlugin) : Call → Option CVmdkPlugin
  | .createDisk o => if x.alive then some (x.createDisk o) else none
  | .readBlocks k error n => (x.storages k).map fun st => x.transferBlocks .readFunc st error n
  | .writeBlocks k error n => (x.storages k).map fun st => x.transferBlocks .writeFunc st error n
  | .releaseStorage k => (x.storages k).map (x.releaseStorage k)
  | .release => if x.alive then some x.release else none

/-- …while the process runs. -/
def step (x : CVmdkPlugin) (a : Call) : Option CVmdkPlugin :=
  if x.crashed then none else x.respond a

/-- The runs from a plugin. -/
def lts (x : CVmdkPlugin) : Lts CVmdkPlugin Call := ⟨x, step⟩

/-- **No call goes through a NULL pointer**, so far and in any run from here. -/
def NeverCallsMissing (x : CVmdkPlugin) : Prop :=
  ∀ x', (lts x).Reachable x' → ∀ f ∈ x'.called, x'.wrapper f = true

/-! ## What a step calls -/

/-- The update of a step leaves alone what is known of the calls. -/
structure KeepsCalls (update : CVmdkPlugin → CVmdkPlugin) : Prop where
  wrapper : ∀ x, (update x).wrapper = x.wrapper
  called : ∀ x, (update x).called = x.called
  crashed : ∀ x, (update x).crashed = x.crashed

/-- **Every step calls some functions and updates the objects.** -/
theorem step_perform {a : Call} (h : x.step a = some x') :
    ∃ fs update, x' = x.perform fs update ∧ KeepsCalls update := by
  rw [step] at h
  split at h
  · cases h
  cases a with
  | createDisk o =>
    rw [respond] at h
    split at h
    · obtain rfl := Option.some.inj h
      rw [createDisk]
      split
      · exact ⟨_, _, rfl, fun _ => rfl, fun _ => rfl, fun _ => rfl⟩
      · split
        · exact ⟨_, _, rfl, fun _ => rfl, fun _ => rfl, fun _ => rfl⟩
        · exact ⟨_, _, rfl, fun _ => rfl, fun _ => rfl, fun _ => rfl⟩
    · cases h
  | readBlocks k error n =>
    obtain ⟨st, -, rfl⟩ := Option.map_eq_some_iff.mp h
    rw [transferBlocks]
    exact ⟨_, _, rfl, fun _ => rfl, fun _ => rfl, fun _ => rfl⟩
  | writeBlocks k error n =>
    obtain ⟨st, -, rfl⟩ := Option.map_eq_some_iff.mp h
    rw [transferBlocks]
    exact ⟨_, _, rfl, fun _ => rfl, fun _ => rfl, fun _ => rfl⟩
  | releaseStorage k =>
    obtain ⟨st, -, rfl⟩ := Option.map_eq_some_iff.mp h
    rw [releaseStorage]
    exact ⟨_, _, rfl, fun _ => rfl, fun _ => rfl, fun _ => rfl⟩
  | release =>
    rw [respond] at h
    split at h
    · obtain rfl := Option.some.inj h
      rw [release]
      exact ⟨_, _, rfl, fun _ => rfl, fun _ => rfl, fun _ => rfl⟩
    · cases h

section Perform

variable {update : CVmdkPlugin → CVmdkPlugin} (hu : KeepsCalls update)
include hu

/-- The pointers stay as they were loaded. -/
theorem perform_wrapper : (x.perform fs update).wrapper = x.wrapper := by
  rw [perform]
  split
  · exact hu.wrapper _
  · rfl

/-- The functions called: all of the sequence, or those up to the first that is missing. -/
theorem perform_called :
    (x.perform fs update).called = x.called ++ Pointers.made x.wrapper fs := by
  rw [perform]
  split
  · next hall =>
    rw [hu.called, Pointers.made_of_forall (List.all_eq_true.mp hall)]
  · rfl

/-- The process ends with a call through a NULL pointer, and with nothing else. -/
theorem perform_crashed (hx : x.crashed = false) :
    (x.perform fs update).crashed = true ↔ ¬ ∀ f ∈ fs, x.wrapper f = true := by
  rw [perform]
  split
  · next hall =>
    rw [hu.crashed, hx]
    exact ⟨fun h => absurd h (by decide), fun h => absurd (List.all_eq_true.mp hall) h⟩
  · next hall => exact ⟨fun _ h => hall (List.all_eq_true.mpr h), fun _ => rfl⟩

end Perform

/-- **The pointers stay as they were loaded**, in every run. -/
theorem wrapper_eq (h : (lts x).Reachable x') : x'.wrapper = x.wrapper := by
  refine h.invariant (I := fun x' => x'.wrapper = x.wrapper) rfl fun y a y' _ hi _ hs => ?_
  obtain ⟨fs, update, rfl, hu⟩ := step_perform hs
  exact (perform_wrapper hu).trans hi

/-! ## Which libraries will do -/

variable {lib : VixLibrary} {initError connectError : VixError}

/-- A step that calls no missing function does what it is to do. -/
theorem perform_of_forall {update : CVmdkPlugin → CVmdkPlugin}
    (h : ∀ f ∈ fs, x.wrapper f = true) :
    x.perform fs update = update { x with called := x.called ++ fs } :=
  if_pos (List.all_eq_true.mpr h)

/-- A plugin whose `Init` returned TRUE, with the library's functions behind its pointers. -/
def connected (lib : VixLibrary) : CVmdkPlugin where
  wrapper f := lib.exports f.symbol
  inited := true
  called := [.initFunc, .connectFunc]

/-- The two functions `Init` calls are among those whose pointers are tested. -/
theorem exports_of_tested (h : ∀ f, (f, f) ∈ vixTable → lib.exports f.symbol = true) :
    ∀ f ∈ [VixFunction.initFunc, .connectFunc], lib.exports f.symbol = true := by
  simp only [List.forall_mem_cons]
  exact ⟨h .initFunc (by decide), h .connectFunc (by decide), by simp⟩

/-- **`Init` returns TRUE** when the library has the functions whose pointers are tested and both
calls succeed; the plugin is connected then. -/
theorem init_eq (h : (init lib initError connectError).2 = true) :
    (init lib initError connectError).1 = connected lib ∧
      ∀ f, (f, f) ∈ vixTable → lib.exports f.symbol = true := by
  cases hloaded : (vixWrapperInit lib fun _ => false).2 with
  | false => simp [init, hloaded] at h
  | true =>
    have hwrapper : (vixWrapperInit lib fun _ => false).1 = fun f => lib.exports f.symbol :=
      funext (vixWrapperInit_apply hloaded)
    have htested : ∀ f, (f, f) ∈ vixTable → lib.exports f.symbol = true :=
      fun f => exports_of_vixWrapperInit hloaded
    refine ⟨?_, htested⟩
    simp only [init, hloaded, hwrapper, Bool.true_eq_false, if_false] at h ⊢
    by_cases hinit : initError = vixOk
    · by_cases hconnect : connectError = vixOk
      · simp only [hinit, hconnect, ne_eq, not_true_eq_false, if_false]
        exact perform_of_forall (exports_of_tested htested)
      · simp [hinit, hconnect] at h
    · simp [hinit] at h

/-- **The process crashes exactly when** it calls a missing function. -/
theorem crashed_iff (h : (init lib initError connectError).2 = true)
    (hx : (lts (init lib initError connectError).1).Reachable x) :
    x.crashed = true ↔ ¬ ∀ f ∈ x.called, x.wrapper f = true := by
  obtain ⟨heq, htested⟩ := init_eq h
  rw [heq] at hx
  refine hx.invariant (I := fun x => x.crashed = true ↔ ¬ ∀ f ∈ x.called, x.wrapper f = true) ?_
    fun y a y' _ hi _ hs => ?_
  · exact ⟨fun hc => absurd hc Bool.false_ne_true,
      fun hc => absurd (exports_of_tested htested) hc⟩
  · have hrun : y.crashed = false := by
      by_contra hc
      have hnone : y.step a = none := if_pos (Bool.not_eq_false _ ▸ hc)
      cases hnone.symm.trans hs
    obtain ⟨fs, update, rfl, hu⟩ := step_perform hs
    have hcalled : ∀ f ∈ y.called, y.wrapper f = true := by
      by_contra hmissing
      rw [hi.mpr hmissing] at hrun
      cases hrun
    rw [perform_crashed hu hrun, perform_called hu, perform_wrapper hu, ← Pointers.forall_made_iff,
      List.forall_mem_append, and_iff_right hcalled]

/-- A disk that is too large: every function that a creation may need is called. -/
def tooLarge : CreateOutcome where
  capacity := maxUint32 + 1

theorem reachable_tooLarge (lib : VixLibrary) : (lts (connected lib)).Reachable
    ((connected lib).perform [.openFunc, .getInfoFunc, .freeInfoFunc, .closeFunc] id) :=
  .step (a := .createDisk tooLarge) .init trivial rfl

/-- **An initialised plugin never calls a missing function exactly when** the library has the four
functions whose pointers are not tested. -/
theorem neverCallsMissing_iff (h : (init lib initError connectError).2 = true) :
    (init lib initError connectError).1.NeverCallsMissing ↔
      lib.exports "VixDiskLib_Open" = true ∧ lib.exports "VixDiskLib_GetInfo" = true ∧
      lib.exports "VixDiskLib_FreeInfo" = true ∧ lib.exports "VixDiskLib_Close" = true := by
  obtain ⟨heq, htested⟩ := init_eq h
  rw [heq]
  constructor
  · intro hnever
    -- a disk that is too large needs all four
    have hid : KeepsCalls id := ⟨fun _ => rfl, fun _ => rfl, fun _ => rfl⟩
    have hcalled := hnever _ (reachable_tooLarge lib)
    rw [perform_called hid, perform_wrapper hid] at hcalled
    have hall := Pointers.forall_made_iff.mp fun f hf =>
      hcalled f (List.mem_append_right _ hf)
    exact ⟨hall .openFunc (by simp), hall .getInfoFunc (by simp), hall .freeInfoFunc (by simp),
      hall .closeFunc (by simp)⟩
  · rintro ⟨hopen, hgetInfo, hfreeInfo, hclose⟩ x' hx f -
    rw [wrapper_eq hx]
    cases f with
    | openFunc => exact hopen
    | getInfoFunc => exact hgetInfo
    | freeInfoFunc => exact hfreeInfo
    | closeFunc => exact hclose
    | initFunc => exact htested .initFunc (by decide)
    | exitFunc => exact htested .exitFunc (by decide)
    | connectFunc => exact htested .connectFunc (by decide)
    | disconnectFunc => exact htested .disconnectFunc (by decide)
    | readFunc => exact htested .readFunc (by decide)
    | writeFunc => exact htested .writeFunc (by decide)

/-- A library without one of its functions. -/
def libraryWithout (symbol : String) : VixLibrary where
  loads := true
  exports name := name ≠ symbol

/-- The library with all the functions. -/
theorem neverCallsMissing_complete :
    (init (libraryWithout "") vixOk vixOk).1.NeverCallsMissing :=
  (@neverCallsMissing_iff (libraryWithout "") vixOk vixOk (by decide)).mpr (by decide)

/-- **A library without `VixDiskLib_Open` passes**, and creating a disk calls the function. -/
theorem not_neverCallsMissing :
    (init (libraryWithout "VixDiskLib_Open") vixOk vixOk).2 = true ∧
    ¬ (init (libraryWithout "VixDiskLib_Open") vixOk vixOk).1.NeverCallsMissing := by
  have h : (init (libraryWithout "VixDiskLib_Open") vixOk vixOk).2 = true := by decide
  refine ⟨h, fun hnever => ?_⟩
  rw [(init_eq h).1] at hnever
  exact absurd (hnever _ (reachable_tooLarge _) .openFunc (by decide)) (by decide)

end CVmdkPlugin

end VirtualDisk
