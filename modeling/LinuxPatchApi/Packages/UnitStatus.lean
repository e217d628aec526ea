/-
The status of a systemd unit: the properties that `systemctl show` prints of it, read back in whatever order they
stand, and when the unit counts as healthy. A unit that waits for its socket is no failure.
-/
import LinuxPatchApi.Lib.Decimal
import LinuxPatchApi.Lib.Fields
import LinuxPatchApi.Lib.Words
import LinuxPatchApi.Packages.PendingReboot

namespace LinuxPatchApi.Packages

open Text Interaction

/-! ## Units -/

/-- The states in which systemd holds a unit. -/
inductive ActiveState
  | active
  | reloading
  | inactive
  | failed
  | activating
  | deactivating
  | maintenance
  deriving DecidableEq, Repr

def ActiveState.text : ActiveState → String
  | active => "active"
  | reloading => "reloading"
  | inactive => "inactive"
  | failed => "failed"
  | activating => "activating"
  | deactivating => "deactivating"
  | maintenance => "maintenance"

/-- The properties that are texts. -/
inductive TextProperty
  | id
  | description
  | activeState
  | subState
  | loadState
  | unitFileState
  deriving DecidableEq, Repr

def TextProperty.key : TextProperty → String
  | id => "Id"
  | description => "Description"
  | activeState => "ActiveState"
  | subState => "SubState"
  | loadState => "LoadState"
  | unitFileState => "UnitFileState"

def TextProperty.all : List TextProperty := [id, description, activeState, subState, loadState, unitFileState]

/-- A unit as systemd knows it; a process id of zero is none. -/
structure SystemdUnit where
  id : String
  description : String
  activeState : ActiveState
  subState : String
  loadState : String
  unitFileState : String
  mainPid : ℕ
  id_ne : id ≠ ""
  printable : ∀ s ∈ [id, description, subState, loadState, unitFileState], IsLine s
  mainPid_lt : mainPid < 2 ^ 32

namespace SystemdUnit

variable (u : SystemdUnit)

def text : TextProperty → String
  | .id => u.id
  | .description => u.description
  | .activeState => u.activeState.text
  | .subState => u.subState
  | .loadState => u.loadState
  | .unitFileState => u.unitFileState

/-- The properties that the agent asks for. -/
def properties : List (String × String) :=
  TextProperty.all.map (fun p => (p.key, u.text p)) ++ [("MainPID", toString u.mainPid)]

/-- Systemd has no usable unit of the name. -/
def Absent : Prop := u.loadState = "not-found" ∨ u.loadState = "bad-setting"

/-- The unit runs, or it is enabled and its socket waits for it. -/
def Healthy (socket : Option ActiveState) : Prop :=
  (u.activeState = .active ∧ u.subState = "running") ∨
    (u.activeState = .inactive ∧ u.unitFileState = "enabled" ∧ socket = some .active)

instance : Decidable u.Absent := inferInstanceAs (Decidable (_ ∨ _))

instance (socket : Option ActiveState) : Decidable (u.Healthy socket) := inferInstanceAs (Decidable (_ ∨ _))

/-- What is to be told of the unit. -/
def status (socket : Option ActiveState) : Option ServiceStatus :=
  if u.Absent then none
  else some {
    name := u.id, displayName := u.description, activeState := u.activeState.text, subState := u.subState
    loadState := u.loadState, enabledState := u.unitFileState
    mainPid := if 0 < u.mainPid then some u.mainPid else none
    healthy := decide (u.Healthy socket) }

theorem isLine_text (p : TextProperty) : IsLine (u.text p) := by
  cases p with
  | activeState =>
    rw [text]
    cases u.activeState <;> decide
  | _ => exact u.printable _ (by simp [text])

theorem keys_properties : u.properties.map Prod.fst = TextProperty.all.map TextProperty.key ++ ["MainPID"] := rfl

theorem keys_nodup : (u.properties.map Prod.fst).Nodup := by
  rw [keys_properties]
  decide

theorem text_mem (p : TextProperty) : (p.key, u.text p) ∈ u.properties :=
  List.mem_append_left _ (List.mem_map_of_mem (f := fun p => (p.key, u.text p)) (by cases p <;> decide))

theorem mainPid_mem : ("MainPID", toString u.mainPid) ∈ u.properties := List.mem_append_right _ List.mem_cons_self

end SystemdUnit

/-! ## Properties read back -/

def printProperty (f : String × String) : String := f.1 ++ String.singleton '=' ++ f.2

def readProperty (line : String) : Option (String × String) := splitOnce line "="

theorem readProperty_print {f : String × String} (h : '=' ∉ f.1.toList) : readProperty (printProperty f) = some f :=
  splitOnce_append h f.2

theorem isLine_print {f : String × String} (hkey : '\n' ∉ f.1.toList) (h : IsLine f.2) : IsLine (printProperty f) := by
  constructor
  · simp [printProperty, hkey, h.1]
  · rw [printProperty, String.toList_append, List.getLast?_append]
    cases hlast : f.2.toList.getLast? with
    | none => simp
    | some c =>
      rw [Option.some_or]
      exact hlast ▸ h.2

def UnitProperties.text (u : UnitProperties) : TextProperty → String
  | .id => u.id
  | .description => u.description
  | .activeState => u.activeState
  | .subState => u.subState
  | .loadState => u.loadState
  | .unitFileState => u.unitFileState

section Read

/-- Each text is set by the lines with its key. -/
theorem text_read (p : TextProperty) (u : UnitProperties) (line : String) :
    (u.read line).text p = (((readProperty line).bind (Fields.valueAt p.key)).map id).getD (u.text p) := by
  unfold UnitProperties.read readProperty
  cases splitOnce line "=" with
  | none => rfl
  | some f =>
    obtain ⟨key, value⟩ := f
    dsimp only
    split <;> cases p <;> simp_all [UnitProperties.text, TextProperty.key, Fields.valueAt]

theorem mainPid_read (u : UnitProperties) (line : String) : (u.read line).mainPid =
    (((readProperty line).bind (Fields.valueAt "MainPID")).map fun value =>
      (parseU32 value).filter (0 < ·)).getD u.mainPid := by
  unfold UnitProperties.read readProperty
  cases splitOnce line "=" with
  | none => rfl
  | some f =>
    obtain ⟨key, value⟩ := f
    dsimp only
    split <;> simp_all [Fields.valueAt]

end Read

/-- The text is what `systemctl show` prints of the unit, whatever the order of the properties. -/
def Prints (stdout : String) (u : SystemdUnit) : Prop :=
  ∃ fields : List (String × String), fields.Perm u.properties ∧ stdout = unlines (fields.map printProperty)

section Printed

variable {stdout : String} {u : SystemdUnit}

/-- The fields of the text are the properties. -/
theorem Prints.values_eq (h : Prints stdout u) {key value : String} (hmem : (key, value) ∈ u.properties) :
    Fields.values key ((lines stdout).filterMap readProperty) = [value] := by
  obtain ⟨fields, hperm, rfl⟩ := h
  have hkeys : ∀ f ∈ fields, f.1 ∈ TextProperty.all.map TextProperty.key ++ ["MainPID"] := by
    intro f hf
    rw [← u.keys_properties]
    exact List.mem_map_of_mem (hperm.mem_iff.1 hf)
  have hplain : ∀ k ∈ TextProperty.all.map TextProperty.key ++ ["MainPID"], '=' ∉ k.toList ∧ '\n' ∉ k.toList := by
    decide
  have hvalues : ∀ f ∈ fields, IsLine f.2 := by
    intro f hf
    rcases List.mem_append.1 (hperm.mem_iff.1 hf) with hf | hf
    · obtain ⟨p, _, rfl⟩ := List.mem_map.1 hf
      exact u.isLine_text p
    · rw [List.mem_singleton.1 hf]
      have hdigits : ∀ c, isAsciiDigit c = false → c ∉ (toString u.mainPid).toList := fun c hc => by
        rw [toList_toString]
        exact not_mem_toDigits hc _
      exact ⟨hdigits '\n' (by decide), fun hlast => hdigits '\r' (by decide) (List.mem_of_getLast? hlast)⟩
  have hread := @Fields.values_unlines _ _ _ _ key printProperty some readProperty fields
    (fun f hf => isLine_print (hplain _ (hkeys f hf)).2 (hvalues f hf))
    fun f hf => by rw [readProperty_print (hplain _ (hkeys f hf)).1]
  rw [hread, List.filterMap_some]
  exact Fields.values_of_perm [] (by rwa [List.append_nil]) u.keys_nodup (by simp) hmem

theorem Prints.foldl_read (h : Prints stdout u) : (lines stdout).foldl UnitProperties.read {} = {
    id := u.id, description := u.description, activeState := u.activeState.text, subState := u.subState
    loadState := u.loadState, unitFileState := u.unitFileState
    mainPid := if 0 < u.mainPid then some u.mainPid else none } := by
  have htext : ∀ p, ((lines stdout).foldl UnitProperties.read {}).text p = u.text p := fun p => by
    refine (Fields.observe_set (fun v : UnitProperties => v.text p) id (text_read p) _ _).trans ?_
    rw [h.values_eq (u.text_mem p)]
    rfl
  have hpid : ((lines stdout).foldl UnitProperties.read {}).mainPid =
      if 0 < u.mainPid then some u.mainPid else none := by
    have hobserved := Fields.observe_set UnitProperties.mainPid (fun value => (parseU32 value).filter (0 < ·))
      mainPid_read {} (lines stdout)
    rw [hobserved, h.values_eq u.mainPid_mem]
    show (parseU32 (toString u.mainPid)).filter _ = _
    rw [parseU32, parseNat_toString u.mainPid_lt, Option.filter_some]
    simp
  generalize (lines stdout).foldl UnitProperties.read {} = read at htext hpid
  cases read
  simp only [UnitProperties.mk.injEq]
  exact ⟨htext .id, htext .description, htext .activeState, htext .subState, htext .loadState, htext .unitFileState,
    hpid⟩

end Printed

/-! ## The status -/

section Status

variable {o : (e : Effect) → Response e} {name : String} {u : SystemdUnit} {socket : Option ActiveState}

/-- `systemctl show` prints the unit. -/
def Shows (o : (e : Effect) → Response e) (name : String) (u : SystemdUnit) : Prop :=
  ∃ output, quickAnswer o "systemctl" ["show",
      "--property=Id,Description,ActiveState,SubState,LoadState,UnitFileState,MainPID", "--no-pager", "--",
      .request name] = .ok output ∧ output.success = true ∧ Prints output.stdout u

/-- What `systemctl show` says of the state of the unit's socket; nothing if it fails. -/
def SocketShown (o : (e : Effect) → Response e) (u : SystemdUnit) (socket : Option ActiveState) : Prop :=
  match quickAnswer o "systemctl" ["show", .own (trimEndMatches u.id ".service" ++ ".socket"), "--property=ActiveState",
      "--no-pager"] with
  | .ok output => ∃ state, socket = some state ∧ output.stdout = unlines ["ActiveState=" ++ ActiveState.text state]
  | .error _ => socket = none

/-- No other state is taken for an active one. -/
theorem contains_active (state : ActiveState) :
    contains (unlines ["ActiveState=" ++ state.text]) "ActiveState=active" = decide (state = .active) := by
  cases state <;> decide

theorem outcome_socketActive (h : SocketShown o u socket) {v : UnitProperties} (hid : v.id = u.id) :
    outcome o (socketActive v).run = .ok (decide (socket = some .active)) := by
  unfold socketActive
  rw [outcome_bindE o (outcome_tryRun o "systemctl" _), hid]
  unfold SocketShown at h
  split at h
  · next output hanswer =>
    obtain ⟨state, rfl, hout⟩ := h
    rw [hanswer]
    show Except.ok (contains output.stdout "ActiveState=active") = _
    rw [hout, contains_active]
    simp
  · next e hanswer =>
    rw [hanswer, h]
    rfl

/-- The properties as they are read. -/
def SystemdUnit.read (u : SystemdUnit) : UnitProperties where
  id := u.id
  description := u.description
  activeState := u.activeState.text
  subState := u.subState
  loadState := u.loadState
  unitFileState := u.unitFileState
  mainPid := if 0 < u.mainPid then some u.mainPid else none

theorem activeState_text (a b : ActiveState) : (a.text == b.text) = decide (a = b) := by
  cases a <;> cases b <;> decide

theorem running_read (u : SystemdUnit) :
    u.read.running = decide (u.activeState = .active ∧ u.subState = "running") := by
  have hactive : (u.activeState.text == "active") = decide (u.activeState = .active) := activeState_text _ .active
  unfold UnitProperties.running
  show (u.activeState.text == "active" && u.subState == "running") = _
  rw [hactive, Bool.eq_iff_iff]
  simp

theorem outcome_unitHealthy (h : SocketShown o u socket) :
    outcome o (unitHealthy u.read).run = .ok (decide (u.Healthy socket)) := by
  have hinactive : (u.activeState.text == "inactive") = decide (u.activeState = .inactive) :=
    activeState_text _ .inactive
  have hasked : (!u.read.running && u.read.activeState == "inactive" && u.read.unitFileState == "enabled") =
      decide (u.activeState = .inactive ∧ u.unitFileState = "enabled") := by
    rw [running_read]
    show (_ && u.activeState.text == "inactive" && u.unitFileState == "enabled") = _
    rw [hinactive, Bool.eq_iff_iff]
    by_cases hstate : u.activeState = .inactive <;> simp [hstate]
  unfold unitHealthy
  rw [hasked]
  by_cases hwaits : u.activeState = .inactive ∧ u.unitFileState = "enabled"
  · rw [if_pos (decide_eq_true hwaits), outcome_socketActive h rfl]
    simp [SystemdUnit.Healthy, hwaits.1, hwaits.2]
  · rw [if_neg (by simpa using hwaits), outcome_return, running_read]
    have hhealthy : u.Healthy socket ↔ u.activeState = .active ∧ u.subState = "running" := by
      constructor
      · rintro (hruns | ⟨hstate, hfile, _⟩)
        · exact hruns
        · exact absurd ⟨hstate, hfile⟩ hwaits
      · exact .inl
    simp only [hhealthy]

theorem outcome_unitStatus (h : SocketShown o u socket) :
    outcome o (unitStatus u.read).run = .ok (u.status socket) := by
  have habsent : (u.read.loadState == "not-found" || u.read.loadState == "bad-setting" || u.read.id.isEmpty) =
      decide u.Absent := by
    have hid : u.read.id.isEmpty = false := by
      rw [← Bool.not_eq_true, String.isEmpty_iff]
      exact u.id_ne
    rw [hid, Bool.or_false]
    show (u.loadState == "not-found" || u.loadState == "bad-setting") = _
    rw [Bool.eq_iff_iff, decide_eq_true_iff]
    simp [SystemdUnit.Absent]
  unfold unitStatus SystemdUnit.status
  rw [habsent]
  by_cases ha : u.Absent
  · rw [if_pos (decide_eq_true ha), if_pos ha]
    rfl
  · rw [if_neg (by simpa using ha), if_neg ha, outcome_bindE o (outcome_unitHealthy h)]
    rfl

/-- What is printed of a unit is no blank text. -/
theorem Prints.not_blank {stdout : String} (h : Prints stdout u) : (trim stdout).isEmpty = false := by
  obtain ⟨fields, hperm, rfl⟩ := h
  have hid : printProperty (TextProperty.id.key, u.text .id) ∈ fields.map printProperty :=
    List.mem_map_of_mem (hperm.mem_iff.2 (u.text_mem .id))
  have hsign : '=' ∈ (unlines (fields.map printProperty)).toList := by
    rw [unlines, String.toList_ofList, List.mem_flatMap]
    exact ⟨_, hid, List.mem_append_left _ (by simp [printProperty])⟩
  have htrim : '=' ∈ (trim (unlines (fields.map printProperty))).toList := (mem_trim (by decide)).2 hsign
  rw [← Bool.not_eq_true, String.isEmpty_iff]
  intro hempty
  rw [hempty] at htrim
  cases htrim

theorem outcome_getSystemdServiceStatus (hshows : Shows o name u) (hsocket : SocketShown o u socket) :
    outcome o (getSystemdServiceStatus name).run = .ok (u.status socket) := by
  obtain ⟨output, hanswer, hsuccess, hprints⟩ := hshows
  have hrun : outcome o (runWithTimeout "systemctl" ["show",
      "--property=Id,Description,ActiveState,SubState,LoadState,UnitFileState,MainPID", "--no-pager", "--",
      .request name] (some quickOpTimeout)).run = .ok output := hanswer
  unfold getSystemdServiceStatus
  rw [outcome_bindE o hrun, hsuccess, hprints.not_blank, hprints.foldl_read]
  exact outcome_unitStatus hsocket

/-- Every backend for systemd tells of a unit what systemd knows. -/
theorem service_status {k : BackendKind} (hk : k ≠ .apk) (hsystemd : fileThere o "/run/systemd/system" = true)
    (hname : validateServiceName name = .ok ()) (hshows : Shows o name u) (hsocket : SocketShown o u socket) :
    outcome o (k.backend.getServiceStatus name).run = .ok (u.status socket) := by
  have hstatus := outcome_getSystemdServiceStatus hshows hsocket
  have hchecked {query : Op (Option ServiceStatus)} : withServiceName name query = query := by
    rw [withServiceName, hname]
  have hrpm : outcome o (Rpm.getServiceStatus name).run = .ok (u.status socket) := by
    rw [Rpm.getServiceStatus, hchecked, hstatus]
  cases k with
  | apk => exact absurd rfl hk
  | dnf | yum | pacman => exact hrpm
  | apt =>
    show outcome o (AptBackend.getServiceStatus name).run = _
    rw [AptBackend.getServiceStatus, hchecked, outcome_bindE o (outcome_pathExists o _),
      outcome_bindE o (outcome_pathExists o _), if_pos hsystemd, hstatus]

end Status

/-- A service that its socket starts. -/
def socketService : SystemdUnit where
  id := "cups.service"
  description := "CUPS = Scheduler"
  activeState := .inactive
  subState := "dead"
  loadState := "loaded"
  unitFileState := "enabled"
  mainPid := 0
  id_ne := by decide
  printable := by decide
  mainPid_lt := by decide

/-- A host with the service, whose properties are printed the last one first. -/
def socketHost : (e : Effect) → Response e
  | .run _ args _ =>
    let text := if args.contains "--property=ActiveState" then unlines ["ActiveState=active"]
      else unlines (socketService.properties.reverse.map printProperty)
    (.ok ⟨some 0, text, "", false⟩ : Except AnyhowError CommandOutput)
  | .pathExists _ => (true : Bool)
  | e => Host.empty.answer e

theorem service_status_socket : socketService.Healthy (some .active) ∧
    outcome socketHost (BackendKind.apt.backend.getServiceStatus "cups").run =
      .ok (socketService.status (some .active)) := by
  refine ⟨by decide, @service_status socketHost "cups" socketService (some .active) .apt (by decide) rfl (by decide)
    ?_ ?_⟩
  · exact ⟨_, rfl, rfl, _, List.reverse_perm _, rfl⟩
  · exact ⟨.active, rfl, rfl⟩

end LinuxPatchApi.Packages
