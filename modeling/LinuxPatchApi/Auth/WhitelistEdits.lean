/-
The whitelist file edited by hand while a manager answers from its entries in memory. Only the creation of the
manager and an append that writes load the file, the watcher's events do not: so the answers follow the file exactly
when, each time the events of all edits are handled, the file admits the addresses that it admitted when it was
loaded last.
-/
import LinuxPatchApi.Auth.Whitelist
import LinuxPatchApi.Lib.Transition

namespace LinuxPatchApi.Auth

open LinuxPatchApi.Packages Disk FileM Transition

/-! ## What an append leaves -/

namespace WhitelistManager

variable {y : WhitelistYaml} {lookup : Lookup} {m : WhitelistManager} {locked : Except String Unit}
  {env : HostSurroundings}
  {s t : HostFiles} {path : String}

theorem loadEntries_congr (h : t path = s path) : loadEntries y lookup t path = loadEntries y lookup s path := by
  simp only [loadEntries, loadConfig, readString, h]

theorem confined_acquireLock : Action.Confined (· = path ++ ".lock") (acquireLock path locked) :=
  (confined_context (confined_io (by simp [Op.changes]))).bind fun _ => confined_context (confined_reading _)

theorem confined_currentLines : Action.Confined (fun _ => False) (currentLines y path) := by
  refine (Action.confined_content _).bind fun c => ?_
  cases c with
  | none => exact Action.confined_pure _
  | some _ => exact confined_context (confined_reading _)

theorem confined_ensureDirectory : Action.Confined (fun _ => False) (ensureDirectory path) := by
  unfold ensureDirectory
  split
  · exact Action.confined_pure _
  · refine (Action.confined_dirExists _).bind fun there => ?_
    cases there with
    | true => exact Action.confined_pure _
    | false => exact confined_context (confined_io (by simp [Op.changes]))

theorem confined_writeTemp {temp yaml : String} : Action.Confined (· = temp) (writeTemp temp yaml) :=
  (confined_context (confined_io (by simp [Op.changes]))).bind fun _ =>
    (confined_context (confined_io (by simp [Op.changes]))).bind fun _ =>
      confined_context (confined_io (by simp [Op.changes]))

/-- A write that fails leaves the file. -/
theorem writeLines_error {lines : List String} {e : AnyhowError} (hpath : Paths.withExtension path "tmp" ≠ path)
    (h : (writeLines y path lines).run env s = (.error e, t)) : t path = s path := by
  rcases Action.bind_error.1 h with h | ⟨_, u, hd, h⟩
  · exact confined_ensureDirectory.kept h not_false
  rw [← confined_ensureDirectory.kept hd not_false]
  split at h
  · cases h
    rfl
  · rcases Action.bind_error.1 h with h | ⟨_, v, ht, h⟩
    · exact confined_writeTemp.kept h hpath.symm
    · rw [← confined_writeTemp.kept ht hpath.symm]
      obtain ⟨_, h⟩ := context_error h
      rw [rename_error h]

theorem lock_ne : path ≠ path ++ ".lock" := fun h => by
  have hlen := congrArg String.length h
  simp [String.length_append] at hlen

/-- What an append leaves of the file that its manager has loaded: after a reload the loaded entries are those of the
file; otherwise the file is left, or one that cannot be loaded. -/
def Leaves (y : WhitelistYaml) (lookup : Lookup) (m : WhitelistManager) (s t : HostFiles) :
    Except AnyhowError Appended → Prop
  | .ok (.reloaded entries) => loadEntries y lookup t m.configPath = .ok entries
  | .ok .duplicate => t m.configPath = s m.configPath
  | .error _ => t m.configPath = s m.configPath ∨ ∀ entries, loadEntries y lookup t m.configPath ≠ .ok entries

theorem appendLine_leaves {entryStr : String} {entry : WhitelistEntry} {r : Except AnyhowError Appended}
    (hpath : Paths.withExtension m.configPath "tmp" ≠ m.configPath)
    (h : (appendLine y lookup m locked entryStr entry).run env s = (r, t)) : Leaves y lookup m s t r := by
  cases r with
  | ok appended =>
    obtain ⟨_, u, hlock, h⟩ := Action.bind_ok.1 h
    have hu := confined_acquireLock.kept hlock lock_ne
    split at h
    · cases h
      exact hu
    · obtain ⟨lines, v, _, h⟩ := Action.bind_ok.1 h
      obtain ⟨_, w, _, h⟩ := Action.bind_ok.1 h
      obtain ⟨entries, z, hload, h⟩ := Action.bind_ok.1 h
      cases h
      obtain ⟨hentries, rfl⟩ := reading_ok.1 (context_ok.1 hload)
      exact hentries
  | error e =>
    rcases Action.bind_error.1 h with hlock | ⟨_, u, hlock, h⟩
    · exact .inl (confined_acquireLock.kept hlock lock_ne)
    have hu := confined_acquireLock.kept hlock lock_ne
    split at h
    · cases h
    · rcases Action.bind_error.1 h with hlines | ⟨lines, v, hlines, h⟩
      · exact .inl ((confined_currentLines.kept hlines not_false).trans hu)
      have hv := (confined_currentLines.kept hlines not_false).trans hu
      rcases Action.bind_error.1 h with hwrite | ⟨_, w, _, h⟩
      · exact .inl ((writeLines_error hpath hwrite).trans hv)
      -- the reload has failed on the file as it is now
      rcases Action.bind_error.1 h with hload | ⟨_, _, _, h⟩
      · refine .inr fun entries hentries => ?_
        obtain ⟨e', hread⟩ := context_error hload
        obtain ⟨hfails, rfl⟩ := reading_error.1 hread
        rw [hentries] at hfails
        cases hfails
      · cases h

theorem appendEntry_leaves {text : String} {r : Except AnyhowError Appended}
    (hpath : Paths.withExtension m.configPath "tmp" ≠ m.configPath)
    (h : (appendEntry y lookup m locked text).run env s = (r, t)) : Leaves y lookup m s t r := by
  simp only [appendEntry] at h
  split at h
  · cases h
    exact .inl rfl
  · split at h
    · cases h
      exact .inl rfl
    · split at h
      · cases h
        exact rfl
      · exact appendLine_leaves hpath h

end WhitelistManager

/-! ## Runs -/

/-- The manager, the disk, and how many edits wait for their event. -/
structure Watched where
  manager : WhitelistManager
  files : HostFiles
  pending : ℕ

inductive WhitelistAct
  /-- The file is edited, or removed, from outside. -/
  | edit (c : Option Content)
  /-- The event of an edit is handled. -/
  | event (kind : EventKind)
  | append (env : HostSurroundings) (locked : Except String Unit) (text : String)
  | isAllowed (ip : Ipv4Addr)

open WhitelistManager

/-- `append_entry` of the manager on the disk. -/
def Watched.append (y : WhitelistYaml) (lookup : Lookup) (t : Watched) (env : HostSurroundings)
    (locked : Except String Unit)
    (text : String) : Watched :=
  let result := (appendEntry y lookup t.manager locked text).run env t.files
  { t with manager := t.manager.afterAppend result.1, files := result.2 }

/-- A manager at work. -/
def watched (y : WhitelistYaml) (lookup : Lookup) : Machine Watched WhitelistAct where
  init t := t.pending = 0 ∧ ∃ path watch, WhitelistManager.new y lookup t.files path watch = .ok t.manager
  step t a := match a with
    | .edit c => some { t with files := Function.update t.files t.manager.configPath c, pending := t.pending + 1 }
    | .event kind => if t.pending = 0 then none
      else some { t with manager := t.manager.onEvent kind, pending := t.pending - 1 }
    | .append env locked text => some (t.append y lookup env locked text)
    | .isAllowed _ => some t

/-- The addresses that entries admit. -/
def Admits (entries : Finset WhitelistEntry) (ip : Ipv4Addr) : Prop := ∃ e ∈ entries, e.allows ip = true

/-- Once the events of all edits are handled, the manager answers as a file that can be loaded says. -/
def Follows (y : WhitelistYaml) (lookup : Lookup) (t : Watched) : Prop :=
  t.pending = 0 → ∀ entries, loadEntries y lookup t.files t.manager.configPath = .ok entries →
    ∀ ip, t.manager.isAllowed ip = true ↔ Admits entries ip

/-- The step is an append that loads the file. -/
def reloads (y : WhitelistYaml) (lookup : Lookup) (f : Fired Watched WhitelistAct) : Bool :=
  match f.act with
  | .append env locked text => match ((appendEntry y lookup f.pre.manager locked text).run env f.pre.files).1 with
    | .ok (.reloaded _) => true
    | _ => false
  | _ => false

/-- The disk when the file was loaded last. -/
def lastLoaded (y : WhitelistYaml) (lookup : Lookup) (files : HostFiles)
    (tr : List (Fired Watched WhitelistAct)) : HostFiles :=
  tr.foldl (fun files f => if reloads y lookup f then f.post.files else files) files

section Run

variable {y : WhitelistYaml} {lookup : Lookup} {t₀ t : Watched} {tr : List (Fired Watched WhitelistAct)}
  {f : Fired Watched WhitelistAct}

theorem isAllowed_iff {m : WhitelistManager} {ip : Ipv4Addr} : m.isAllowed ip = true ↔ Admits m.entries ip :=
  decide_eq_true_iff

theorem onEvent_eq (m : WhitelistManager) (kind : EventKind) : m.onEvent kind = m := by
  cases kind <;> rfl

theorem afterAppend_configPath (m : WhitelistManager) (r : Except AnyhowError Appended) :
    (m.afterAppend r).configPath = m.configPath := by
  rcases r with e | (_ | entries) <;> rfl

/-- What an append does to the state. -/
theorem append_step (hf : IsStep (watched y lookup) f) {env : HostSurroundings}
    {locked : Except String Unit} {text : String}
    (hact : f.act = .append env locked text) : ∃ r,
      (appendEntry y lookup f.pre.manager locked text).run env f.pre.files = (r, f.post.files) ∧
      f.post.manager = f.pre.manager.afterAppend r ∧ f.post.pending = f.pre.pending := by
  simp only [IsStep, watched, hact] at hf
  have hpost := Option.some.inj hf
  rcases hrun : (appendEntry y lookup f.pre.manager locked text).run env f.pre.files with ⟨r, files⟩
  rw [Watched.append, hrun] at hpost
  rw [← hpost]
  exact ⟨r, rfl, rfl, rfl⟩

theorem reloads_append {env : HostSurroundings} {locked : Except String Unit} {text : String}
    {r : Except AnyhowError Appended} {files : HostFiles} (hact : f.act = .append env locked text)
    (hrun : (appendEntry y lookup f.pre.manager locked text).run env f.pre.files = (r, files)) :
    reloads y lookup f = true ↔ ∃ entries, r = .ok (.reloaded entries) := by
  simp only [reloads, hact, hrun]
  rcases r with e | (_ | entries) <;> simp

theorem other_step (hf : IsStep (watched y lookup) f) (hact : ∀ env locked text, f.act ≠ .append env locked text) :
    reloads y lookup f = false ∧ f.post.manager = f.pre.manager := by
  simp only [IsStep, watched] at hf
  unfold reloads
  cases ha : f.act with
  | append env locked text => exact (hact env locked text ha).elim
  | edit c =>
    simp only [ha, Option.some.injEq] at hf
    exact ⟨rfl, by rw [← hf]⟩
  | event kind =>
    simp only [ha, Option.ite_none_left_eq_some, Option.some.injEq] at hf
    exact ⟨rfl, by rw [← hf.2, onEvent_eq]⟩
  | isAllowed ip =>
    simp only [ha, Option.some.injEq] at hf
    exact ⟨rfl, by rw [← hf]⟩

/-- A step that does not load the file leaves the manager; after one that does its entries are in memory. -/
theorem manager_step (hf : IsStep (watched y lookup) f)
    (hpath : Paths.withExtension f.pre.manager.configPath "tmp" ≠ f.pre.manager.configPath) :
    f.post.manager.configPath = f.pre.manager.configPath ∧
      if reloads y lookup f then loadEntries y lookup f.post.files f.pre.manager.configPath = .ok f.post.manager.entries
      else f.post.manager = f.pre.manager := by
  by_cases hact : ∃ env locked text, f.act = .append env locked text
  · obtain ⟨env, locked, text, hact⟩ := hact
    obtain ⟨r, hrun, hmanager, _⟩ := append_step hf hact
    rw [hmanager]
    refine ⟨afterAppend_configPath _ r, ?_⟩
    split
    · next hr =>
      obtain ⟨entries, rfl⟩ := (reloads_append hact hrun).1 hr
      exact appendEntry_leaves hpath hrun
    · next hr =>
      rcases r with e | (_ | entries)
      · rfl
      · rfl
      · exact (hr ((reloads_append hact hrun).2 ⟨entries, rfl⟩)).elim
  · obtain ⟨hr, hmanager⟩ := other_step hf fun env locked text ha => hact ⟨env, locked, text, ha⟩
    rw [hr, hmanager]
    exact ⟨rfl, by simp⟩

theorem lastLoaded_snoc (files : HostFiles) (tr : List (Fired Watched WhitelistAct)) :
    lastLoaded y lookup files (tr ++ [f]) =
      if reloads y lookup f then f.post.files else lastLoaded y lookup files tr := by
  rw [lastLoaded, List.foldl_append]
  rfl

/-- The entries in memory are those that the file had when it was loaded last. -/
theorem loaded_run (h : Run (watched y lookup) t₀ tr t) (hinit : (watched y lookup).init t₀)
    (hpath : Paths.withExtension t₀.manager.configPath "tmp" ≠ t₀.manager.configPath) :
    t.manager.configPath = t₀.manager.configPath ∧
      loadEntries y lookup (lastLoaded y lookup t₀.files tr) t₀.manager.configPath = .ok t.manager.entries := by
  induction h with
  | nil =>
    obtain ⟨_, path, watch, hnew⟩ := hinit
    refine ⟨rfl, ?_⟩
    unfold WhitelistManager.new at hnew
    split at hnew
    · cases hnew
    · next entries hload =>
      cases watch with
      | error e => cases hnew
      | ok u =>
        rw [← Except.ok.inj hnew]
        exact hload
  | @snoc tr t t' a hr hs ih =>
    obtain ⟨hsame, hload⟩ := ih
    have hf : IsStep (watched y lookup) ⟨t, a, t'⟩ := hs
    obtain ⟨hconfig, hmanager⟩ := manager_step hf (by rw [hsame]; exact hpath)
    refine ⟨hconfig.trans hsame, ?_⟩
    rw [lastLoaded_snoc]
    split
    · next hreload =>
      rw [if_pos hreload] at hmanager
      rw [← hsame]
      exact hmanager
    · next hreload =>
      rw [if_neg hreload] at hmanager
      rw [hmanager]
      exact hload

/-- When all events are handled, the manager follows the file after a step if it did before, or if the events of all
edits have just been handled and the file admits what is in memory. -/
theorem follows_step (hf : IsStep (watched y lookup) f)
    (hpath : Paths.withExtension f.pre.manager.configPath "tmp" ≠ f.pre.manager.configPath)
    (hevent : ∀ kind, f.act = .event kind → Follows y lookup f.post) (h : Follows y lookup f.pre) :
    Follows y lookup f.post := by
  cases ha : f.act with
  | edit c =>
    simp only [IsStep, watched, ha, Option.some.injEq] at hf
    intro hpending
    rw [← hf] at hpending
    cases hpending
  | event kind => exact hevent kind ha
  | isAllowed ip =>
    simp only [IsStep, watched, ha, Option.some.injEq] at hf
    rwa [← hf]
  | append env locked text =>
    obtain ⟨r, hrun, hmanager, hpending⟩ := append_step hf ha
    have hleaves := appendEntry_leaves hpath hrun
    intro hp entries hload ip
    rw [hmanager, afterAppend_configPath] at hload
    rw [hpending] at hp
    rw [hmanager]
    rcases r with e | (_ | loaded)
    · rcases hleaves with hleft | hbroken
      · rw [loadEntries_congr hleft] at hload
        exact h hp entries hload ip
      · exact (hbroken entries hload).elim
    · rw [loadEntries_congr hleaves] at hload
      exact h hp entries hload ip
    · rw [isAllowed_iff, ← Except.ok.inj (hleaves.symm.trans hload)]
      rfl

end Run

/-- If both can be loaded, the two files admit the same addresses. -/
def SameAdmitted (y : WhitelistYaml) (lookup : Lookup) (path : String) (s t : HostFiles) : Prop :=
  ∀ old new, loadEntries y lookup s path = .ok old → loadEntries y lookup t path = .ok new →
    ∀ ip, Admits old ip ↔ Admits new ip

/-- In a run of edits, events, appends and questions the manager follows the file in every state exactly when the
file, each time the events of all edits have been handled, admits what it admitted when it was loaded last. -/
theorem edits_take_effect_iff {y : WhitelistYaml} {lookup : Lookup} {t₀ t : Watched}
    {tr : List (Fired Watched WhitelistAct)}
    (hinit : (watched y lookup).init t₀)
    (hpath : Paths.withExtension t₀.manager.configPath "tmp" ≠ t₀.manager.configPath)
    (h : Run (watched y lookup) t₀ tr t) : (∀ u ∈ states t₀ tr, Follows y lookup u) ↔
      ∀ pre f post kind, tr = pre ++ f :: post → f.act = .event kind → f.post.pending = 0 →
        SameAdmitted y lookup t₀.manager.configPath (lastLoaded y lookup t₀.files pre) f.post.files := by
  -- what is in memory before and after an event is what was loaded last
  have hevent : ∀ pre f post kind, tr = pre ++ f :: post → f.act = .event kind →
      (Follows y lookup f.post ↔ (f.post.pending = 0 →
        SameAdmitted y lookup t₀.manager.configPath (lastLoaded y lookup t₀.files pre) f.post.files)) := by
    rintro pre f post kind rfl hact
    obtain ⟨hpre, _⟩ := h.split rfl
    obtain ⟨hconfig, hloaded⟩ := loaded_run hpre hinit hpath
    obtain ⟨_, hmanager⟩ := other_step (h.step_of_mem f (by simp)) fun env locked text ha => by
      rw [hact] at ha
      cases ha
    rw [Follows, hmanager, hconfig]
    refine imp_congr_right fun _ => ?_
    constructor
    · intro hfollows old new hold hnew ip
      rw [← Except.ok.inj (hloaded.symm.trans hold), ← isAllowed_iff]
      exact hfollows new hnew ip
    · intro hsame entries hload ip
      rw [isAllowed_iff]
      exact hsame _ entries hloaded hload ip
  constructor
  · intro hfollows pre f post kind htr hact hpending
    exact (hevent pre f post kind htr hact).1 (hfollows f.post (by simp [states, htr])) hpending
  · intro hcond
    obtain ⟨_, hloaded⟩ := loaded_run (.nil : Run (watched y lookup) t₀ [] t₀) hinit hpath
    have hstart : Follows y lookup t₀ := fun _ entries hload ip => by
      rw [isAllowed_iff, ← Except.ok.inj (hloaded.symm.trans hload)]
    have hevents : ∀ f ∈ tr, ∀ kind, f.act = .event kind → Follows y lookup f.post := fun f hf kind hact => by
      obtain ⟨pre, post, htr, _⟩ := h.split_of_mem hf
      exact (hevent pre f post kind htr hact).2 (hcond pre f post kind htr hact)
    have hstep : ∀ f, IsStep (watched y lookup) f → (∀ kind, f.act = .event kind → Follows y lookup f.post) →
        (f.pre.manager.configPath = t₀.manager.configPath ∧ Follows y lookup f.pre) →
        f.post.manager.configPath = t₀.manager.configPath ∧ Follows y lookup f.post := by
      rintro f hf hafter ⟨hconfig, hfollows⟩
      have hpath' : Paths.withExtension f.pre.manager.configPath "tmp" ≠ f.pre.manager.configPath := by rwa [hconfig]
      exact ⟨(manager_step hf hpath').1.trans hconfig, follows_step hf hpath' hafter hfollows⟩
    exact forall_states hstart fun f hf => (h.invariant_at
      (I := fun u => u.manager.configPath = t₀.manager.configPath ∧ Follows y lookup u) hstep ⟨rfl, hstart⟩
        hevents f hf).2.2

/-! ## An edited file -/

def whitelistPath : String := "/etc/linux_patch_api/whitelist.yaml"

/-- The text of a whitelist file of one or two lines without quotes in them. -/
def whitelistText (lines : List String) : String :=
  "entries:\n" ++ String.join (lines.map fun line => "- '" ++ line ++ "'\n")

/-- A YAML library for three whitelist files. -/
def whitelistYaml : WhitelistYaml where
  serialize lines := .ok (whitelistText lines)
  parse text :=
    match [["10.0.0.1"], ["10.0.0.2"], ["# managers", "10.0.0.1"]].find? fun lines => text = whitelistText lines with
    | some lines => .ok lines
    | none => .error "unsupported"

def noNames : Lookup := fun _ => .error "failed to lookup address information"

/-- A disk with the whitelist. -/
def whitelistFile (lines : List String) : HostFiles := fun p =>
  if p = whitelistPath then some (.text (whitelistText lines)) else none

/-- The manager that loaded a file with one address. -/
def started : Watched := ⟨⟨{.ip (.ofOctets 10 0 0 1)}, whitelistPath⟩, whitelistFile ["10.0.0.1"], 0⟩

theorem started_init : (watched whitelistYaml noNames).init started :=
  ⟨rfl, whitelistPath, .ok (), by decide +kernel⟩

/-- The file with other lines, before and after the event of the edit. -/
def edited (lines : List String) (pending : ℕ) : Watched :=
  { started with files := whitelistFile lines, pending }

/-- The file is edited, and the event of it is handled. -/
def editSteps (lines : List String) : List (Fired Watched WhitelistAct) :=
  [⟨started, .edit (some (.text (whitelistText lines))), edited lines 1⟩,
    ⟨edited lines 1, .event .modify, edited lines 0⟩]

theorem edited_run (lines : List String) :
    Run (watched whitelistYaml noNames) started (editSteps lines) (edited lines 0) := by
  have hwrite : Function.update (whitelistFile ["10.0.0.1"]) whitelistPath (some (.text (whitelistText lines))) =
      whitelistFile lines := by
    funext p
    by_cases hp : p = whitelistPath
    · rw [hp, Function.update_self, whitelistFile, if_pos rfl]
    · rw [Function.update_of_ne hp, whitelistFile, whitelistFile, if_neg hp, if_neg hp]
  have hedit : (watched whitelistYaml noNames).step started (.edit (some (.text (whitelistText lines)))) =
      some (edited lines 1) := by
    simp only [watched, started, edited, hwrite, zero_add]
  have hevent : (watched whitelistYaml noNames).step (edited lines 1) (.event .modify) = some (edited lines 0) := rfl
  exact .snoc (.snoc .nil hedit) hevent

/-- A comment is added to the file. -/
theorem edits_take_effect_comment :
    Run (watched whitelistYaml noNames) started (editSteps ["# managers", "10.0.0.1"])
      (edited ["# managers", "10.0.0.1"] 0) ∧
    ∀ u ∈ states started (editSteps ["# managers", "10.0.0.1"]), Follows whitelistYaml noNames u := by
  have hold : loadEntries whitelistYaml noNames (whitelistFile ["10.0.0.1"]) whitelistPath =
    .ok {.ip (.ofOctets 10 0 0 1)} := by decide +kernel
  have hnew : loadEntries whitelistYaml noNames (whitelistFile ["# managers", "10.0.0.1"]) whitelistPath =
    .ok {.ip (.ofOctets 10 0 0 1)} := by decide +kernel
  have hpath : Paths.withExtension started.manager.configPath "tmp" ≠ started.manager.configPath := by decide +kernel
  refine ⟨edited_run _, (edits_take_effect_iff started_init hpath (edited_run _)).2
    fun pre f post kind htr hact _ => ?_⟩
  rcases pre with _ | ⟨g, _ | ⟨g', pre⟩⟩
  · cases htr
    cases hact
  · cases htr
    intro old new ho hn ip
    rw [← Except.ok.inj (hold.symm.trans ho), ← Except.ok.inj (hnew.symm.trans hn)]
  · simp [editSteps] at htr

/-- The only address is replaced by another one. -/
theorem edit_without_effect : ∃ (y : WhitelistYaml) (lookup : Lookup) (t₀ t : Watched)
    (tr : List (Fired Watched WhitelistAct)),
    (watched y lookup).init t₀ ∧ Run (watched y lookup) t₀ tr t ∧ ¬ ∀ u ∈ states t₀ tr, Follows y lookup u := by
  refine ⟨_, _, _, _, _, started_init, edited_run ["10.0.0.2"], fun hfollows => ?_⟩
  have hnew : loadEntries whitelistYaml noNames (whitelistFile ["10.0.0.2"]) whitelistPath =
    .ok {.ip (.ofOctets 10 0 0 2)} := by decide +kernel
  have hdenied := (hfollows (edited ["10.0.0.2"] 0) (by simp [states, editSteps]) rfl _ hnew (.ofOctets 10 0 0 2)).2
    ⟨_, Finset.mem_singleton_self _, by decide⟩
  exact absurd hdenied (by decide)

end LinuxPatchApi.Auth
