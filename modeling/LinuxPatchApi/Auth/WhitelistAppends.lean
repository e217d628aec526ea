/-
Appends to one whitelist file by any number of managers, interleaved step by step under the lock of the file: the
entries that were there stay in their order and every successful append is in the file, in every run; and the file gets
no new duplicate exactly when no manager writes an entry that somebody has written since it loaded the file last.
-/
import LinuxPatchApi.Auth.WhitelistLines

namespace LinuxPatchApi.Auth

open LinuxPatchApi.Packages Disk FileM Transition

/-! ## Managers that share a file -/

/-- How far a call of `append_entry` is. -/
inductive Call
  | idle
  /-- Not a duplicate by the memory; the lock comes next. -/
  | waiting (entryStr : String) (entry : WhitelistEntry)
  | locked (entryStr : String) (entry : WhitelistEntry)
  | loaded (entryStr : String) (entry : WhitelistEntry) (lines : List String)
  | renamed (entry : WhitelistEntry)
  /-- The lock is dropped; the reload comes next. -/
  | released (entry : WhitelistEntry)

/-- A manager: its entries in memory, and its call. -/
structure Appender where
  entries : Finset WhitelistEntry
  call : Call

/-- The managers of a file, who holds its lock, and the entries of the calls that have returned Ok. -/
structure Sharing (ι : Type) where
  files : HostFiles
  appenders : ι → Option Appender
  holder : Option ι
  succeeded : List WhitelistEntry

/-- A call is cut where it meets the others: at the lock, at the file, and at the rename. -/
inductive AppendAct (ι : Type)
  | new (i : ι) (lookup : Lookup) (watch : Except AnyhowError Unit)
  | check (i : ι) (ipOrCidr : String)
  | lock (i : ι) (env : HostSurroundings) (locked : Except String Unit)
  | load (i : ι) (env : HostSurroundings)
  | write (i : ι) (env : HostSurroundings)
  | unlock (i : ι)
  | reload (i : ι) (lookup : Lookup)

namespace Sharing

open WhitelistManager

variable {ι : Type} [DecidableEq ι]

/-- The manager `i` as it is now. -/
def put (w : Sharing ι) (i : ι) (entries : Finset WhitelistEntry) (call : Call) : Sharing ι :=
  { w with appenders := Function.update w.appenders i (some ⟨entries, call⟩) }

def new (y : WhitelistYaml) (path : String) (w : Sharing ι) (i : ι) (lookup : Lookup)
    (watch : Except AnyhowError Unit) : Option (Sharing ι) :=
  match w.appenders i, WhitelistManager.new y lookup w.files path watch with
  | none, .ok m => some (w.put i m.entries .idle)
  | _, _ => none

/-- The argument is parsed and searched for in memory. -/
def check (w : Sharing ι) (i : ι) (ipOrCidr : String) : Option (Sharing ι) :=
  match w.appenders i with
  | some ⟨entries, .idle⟩ =>
    let entryStr := Text.trim ipOrCidr
    if entryStr.isEmpty then some (w.put i entries .idle)
    else match parseAppended entryStr with
      | .error _ => some (w.put i entries .idle)
      | .ok entry =>
        if entry ∈ entries then some { w.put i entries .idle with succeeded := w.succeeded ++ [entry] }
        else some (w.put i entries (.waiting entryStr entry))
  | _ => none

/-- The lock is granted to one manager at a time. -/
def lock (path : String) (w : Sharing ι) (i : ι) (env : HostSurroundings) (locked : Except String Unit) :
    Option (Sharing ι) :=
  match w.appenders i with
  | some ⟨entries, .waiting entryStr entry⟩ => match (acquireLock path locked).run env w.files with
    | (.error _, files) => some { w.put i entries .idle with files }
    | (.ok _, files) =>
      if w.holder = none then some { w.put i entries (.locked entryStr entry) with files, holder := some i } else none
  | _ => none

/-- The memory is searched again, and the file is read. -/
def load (y : WhitelistYaml) (path : String) (w : Sharing ι) (i : ι) (env : HostSurroundings) : Option (Sharing ι) :=
  match w.appenders i with
  | some ⟨entries, .locked entryStr entry⟩ =>
    if entry ∈ entries then
      some { w.put i entries .idle with holder := none, succeeded := w.succeeded ++ [entry] }
    else match (currentLines y path).run env w.files with
      | (.error _, files) => some { w.put i entries .idle with files, holder := none }
      | (.ok lines, files) => some { w.put i entries (.loaded entryStr entry lines) with files }
  | _ => none

/-- The temporary file is written and renamed; nobody else looks at the temporary file. -/
def write (y : WhitelistYaml) (path : String) (w : Sharing ι) (i : ι) (env : HostSurroundings) : Option (Sharing ι) :=
  match w.appenders i with
  | some ⟨entries, .loaded entryStr entry lines⟩ =>
    match (writeLines y path (lines ++ [entryStr])).run env w.files with
    | (.error _, files) => some { w.put i entries .idle with files, holder := none }
    | (.ok _, files) => some { w.put i entries (.renamed entry) with files }
  | _ => none

def unlock (w : Sharing ι) (i : ι) : Option (Sharing ι) :=
  match w.appenders i with
  | some ⟨entries, .renamed entry⟩ => some { w.put i entries (.released entry) with holder := none }
  | _ => none

def reload (y : WhitelistYaml) (path : String) (w : Sharing ι) (i : ι) (lookup : Lookup) : Option (Sharing ι) :=
  match w.appenders i with
  | some ⟨entries, .released entry⟩ => match loadEntries y lookup w.files path with
    | .error _ => some (w.put i entries .idle)
    | .ok loaded => some { w.put i loaded .idle with succeeded := w.succeeded ++ [entry] }
  | _ => none

end Sharing

/-- Managers that append to the file at `path`. -/
def appending {ι : Type} [DecidableEq ι] (y : WhitelistYaml) (path : String) : Machine (Sharing ι) (AppendAct ι) where
  init w := (∀ i, w.appenders i = none) ∧ w.holder = none ∧ w.succeeded = []
  step w a := match a with
    | .new i lookup watch => w.new y path i lookup watch
    | .check i ipOrCidr => w.check i ipOrCidr
    | .lock i env locked => w.lock path i env locked
    | .load i env => w.load y path i env
    | .write i env => w.write y path i env
    | .unlock i => w.unlock i
    | .reload i lookup => w.reload y path i lookup

/-! ## A call that nobody interrupts -/

section Alone

open WhitelistManager

variable {ι : Type} [DecidableEq ι] {y : WhitelistYaml} {path : String} {lookup : Lookup} {i : ι} {w w' : Sharing ι}
  {entries : Finset WhitelistEntry} {entryStr : String} {entry : WhitelistEntry} {env : HostSurroundings}
  {locked : Except String Unit} {files : HostFiles} {r : Except AnyhowError Appended} {a : AppendAct ι}
  {lines : List String}

/-- The manager `i` gets from `w` to the end of its call, which returns `r` and leaves `files`. -/
def Returns (y : WhitelistYaml) (path : String) (i : ι) (entries : Finset WhitelistEntry) (entry : WhitelistEntry)
    (w : Sharing ι) (r : Except AnyhowError Appended) (files : HostFiles) : Prop :=
  ∃ tr, Run (appending y path) w tr
    ⟨files, Function.update w.appenders i (some ⟨(afterAppend ⟨entries, path⟩ r).entries, .idle⟩), none,
      match r with
      | .ok _ => w.succeeded ++ [entry]
      | .error _ => w.succeeded⟩

theorem Returns.step {x : Option Appender} (h : Returns y path i entries entry w' r files)
    (hs : (appending y path).step w a = some w') (hothers : w'.appenders = Function.update w.appenders i x)
    (hsucceeded : w'.succeeded = w.succeeded) : Returns y path i entries entry w r files := by
  obtain ⟨tr, hrun⟩ := h
  rw [hothers, hsucceeded, Function.update_idem] at hrun
  exact ⟨_, hrun.cons hs⟩

theorem returns_last (hs : (appending y path).step w a = some ⟨files, Function.update w.appenders i
      (some ⟨(afterAppend ⟨entries, path⟩ r).entries, .idle⟩), none,
      match r with
      | .ok _ => w.succeeded ++ [entry]
      | .error _ => w.succeeded⟩) : Returns y path i entries entry w r files :=
  ⟨_, Run.nil.cons hs⟩

/-- The end of `append_entry`, after the rename. -/
def reloadAfter (y : WhitelistYaml) (path : String) (lookup : Lookup) : FileM Appended := do
  let loaded ← (reading fun s => loadEntries y lookup s path).context "Failed to reload whitelist after append"
  return .reloaded loaded

theorem returns_renamed (hi : w.appenders i = some ⟨entries, .renamed entry⟩)
    (hrun : (reloadAfter y path lookup).run env w.files = (r, files)) : Returns y path i entries entry w r files := by
  have hunlock : (appending y path).step w (.unlock i) =
      some { w.put i entries (.released entry) with holder := none } := by
    simp only [appending, Sharing.unlock, hi]
  refine Returns.step (returns_last (a := .reload i lookup) ?_) hunlock rfl rfl
  simp only [appending, Sharing.reload, Sharing.put, Function.update_self]
  rcases hload : loadEntries y lookup w.files path with e | loaded
  · simp only [reloadAfter, Action.run_bind, context, Action.run_mapError, reading, hload] at hrun
    cases hrun
    rfl
  · simp only [reloadAfter, Action.run_bind, context, Action.run_mapError, reading, hload] at hrun
    cases hrun
    rfl

theorem returns_loaded (hi : w.appenders i = some ⟨entries, .loaded entryStr entry lines⟩)
    (hrun : (writeLines y path (lines ++ [entryStr]) >>= fun _ => reloadAfter y path lookup).run env w.files =
      (r, files)) : Returns y path i entries entry w r files := by
  rw [Action.run_bind] at hrun
  rcases hwrite : (writeLines y path (lines ++ [entryStr])).run env w.files with ⟨e | u, v⟩
  · rw [hwrite] at hrun
    cases hrun
    refine returns_last (a := .write i env) ?_
    simp only [appending, Sharing.write, hi, hwrite]
    rfl
  · rw [hwrite] at hrun
    have hstep : (appending y path).step w (.write i env) =
        some { w.put i entries (.renamed entry) with files := v } := by
      simp only [appending, Sharing.write, hi, hwrite]
    exact Returns.step (returns_renamed (Function.update_self ..) hrun) hstep rfl rfl

theorem returns_locked (hi : w.appenders i = some ⟨entries, .locked entryStr entry⟩) (he : entry ∉ entries)
    (hrun : (currentLines y path >>= fun lines => writeLines y path (lines ++ [entryStr]) >>= fun _ =>
      reloadAfter y path lookup).run env w.files = (r, files)) : Returns y path i entries entry w r files := by
  rw [Action.run_bind] at hrun
  rcases hlines : (currentLines y path).run env w.files with ⟨e | lines, u⟩
  · rw [hlines] at hrun
    cases hrun
    refine returns_last (a := .load i env) ?_
    simp only [appending, Sharing.load, hi, if_neg he, hlines]
    rfl
  · rw [hlines] at hrun
    have hstep : (appending y path).step w (.load i env) =
        some { w.put i entries (.loaded entryStr entry lines) with files := u } := by
      simp only [appending, Sharing.load, hi, if_neg he, hlines]
    dsimp only at hrun
    have hloaded := returns_loaded (w := { w.put i entries (.loaded entryStr entry lines) with files := u })
      (Function.update_self ..) hrun
    exact hloaded.step hstep rfl rfl

theorem returns_waiting (hi : w.appenders i = some ⟨entries, .waiting entryStr entry⟩) (he : entry ∉ entries)
    (hfree : w.holder = none)
    (hrun : (appendLine y lookup ⟨entries, path⟩ locked entryStr entry).run env w.files = (r, files)) :
    Returns y path i entries entry w r files := by
  rw [appendLine, Action.run_bind] at hrun
  dsimp only at hrun
  rcases hlock : (acquireLock path locked).run env w.files with ⟨e | u, v⟩
  · rw [hlock] at hrun
    cases hrun
    refine returns_last (a := .lock i env locked) ?_
    simp only [appending, Sharing.lock, hi, hlock, Sharing.put, hfree]
    rfl
  · rw [hlock] at hrun
    dsimp only at hrun
    rw [if_neg he] at hrun
    have hstep : (appending y path).step w (.lock i env locked) =
        some { w.put i entries (.locked entryStr entry) with files := v, holder := some i } := by
      simp only [appending, Sharing.lock, hi, hlock, if_pos hfree]
    have hlocked := returns_locked (w := { w.put i entries (.locked entryStr entry) with files := v, holder := some i })
      (Function.update_self ..) he hrun
    exact hlocked.step hstep rfl rfl

/-- A call that no other manager interrupts does what `append_entry` does. -/
theorem appendEntry_returns {text : String} (hi : w.appenders i = some ⟨entries, .idle⟩) (hfree : w.holder = none)
    (hrun : (appendEntry y lookup ⟨entries, path⟩ locked text).run env w.files = (r, files)) :
    ∃ entry, Returns y path i entries entry w r files := by
  simp only [appendEntry] at hrun
  split at hrun
  · next hempty =>
    cases hrun
    refine ⟨.ip ⟨0⟩, returns_last (a := .check i text) ?_⟩
    simp only [appending, Sharing.check, hi, if_pos hempty, Sharing.put, hfree]
    rfl
  next hempty =>
  split at hrun
  · next e hparse =>
    cases hrun
    refine ⟨.ip ⟨0⟩, returns_last (a := .check i text) ?_⟩
    simp only [appending, Sharing.check, hi, if_neg hempty, hparse, Sharing.put, hfree]
    rfl
  next entry hparse =>
  refine ⟨entry, ?_⟩
  split at hrun
  · next he =>
    cases hrun
    refine returns_last (a := .check i text) ?_
    simp only [appending, Sharing.check, hi, if_neg hempty, hparse, if_pos he, Sharing.put, hfree]
    rfl
  · next he =>
    have hstep : (appending y path).step w (.check i text) =
        some (w.put i entries (.waiting (Text.trim text) entry)) := by
      simp only [appending, Sharing.check, hi, if_neg hempty, hparse, if_neg he]
    have hwaiting := returns_waiting (w := w.put i entries (.waiting (Text.trim text) entry))
      (Function.update_self ..) he hfree hrun
    exact hwaiting.step hstep rfl rfl

end Alone

/-! ## What is known of a call -/

/-- What holds of a call while the file lists `lines`; `Holds` says that its manager has the lock. -/
def Call.Sound (lookup : Lookup) (lines : List String) (Holds : Prop) : Call → Prop
  | .idle => True
  | .waiting entryStr entry => Appendable entryStr entry
  | .locked entryStr entry => Appendable entryStr entry ∧ Holds
  | .loaded entryStr entry found => Appendable entryStr entry ∧ Holds ∧ found = lines
  | .renamed entry => Holds ∧ 0 < listings lookup lines entry
  | .released entry => 0 < listings lookup lines entry

/-- Addresses and subnets in memory are listed, and the call is sound. -/
structure Appender.Sound (lookup : Lookup) (lines : List String) (Holds : Prop) (a : Appender) : Prop where
  memory : ∀ e ∈ a.entries, e.named = false → 0 < listings lookup lines e
  call : a.call.Sound lookup lines Holds

structure Sharing.Sound {ι : Type} (y : WhitelistYaml) (path : String) (lookup : Lookup) (w : Sharing ι) : Prop where
  appenders : ∀ i a, w.appenders i = some a → a.Sound lookup (fileLines y w.files path) (w.holder = some i)
  succeeded : ∀ e ∈ w.succeeded, 0 < listings lookup (fileLines y w.files path) e
  there : ∀ i a, w.appenders i = some a → w.files path ≠ none

/-- What a step that writes nothing leaves. -/
def Sharing.Stays {ι : Type} (y : WhitelistYaml) (path : String) (lookup : Lookup) (w w' : Sharing ι) : Prop :=
  w'.Sound y path lookup ∧ fileLines y w'.files path = fileLines y w.files path

section Sound

variable {lookup : Lookup} {lines lines' : List String} {Holds Holds' : Prop}

/-- The file may grow in lines as long as the call has no lock, and the lock may come but not go. -/
theorem Call.Sound.mono {c : Call} (h : c.Sound lookup lines Holds) (hlines : lines <+: lines')
    (hsame : Holds → lines' = lines) (hholds : Holds → Holds') : c.Sound lookup lines' Holds' := by
  cases c with
  | idle => trivial
  | waiting entryStr entry => exact h
  | locked entryStr entry =>
    obtain ⟨happend, hlock⟩ := h
    exact ⟨happend, hholds hlock⟩
  | loaded entryStr entry found =>
    obtain ⟨happend, hlock, rfl⟩ := h
    exact ⟨happend, hholds hlock, (hsame hlock).symm⟩
  | renamed entry =>
    obtain ⟨hlock, hlisted⟩ := h
    exact ⟨hholds hlock, hlisted.trans_le (listings_mono hlines)⟩
  | released entry => exact Nat.lt_of_lt_of_le h (listings_mono hlines)

theorem Appender.Sound.mono {a : Appender} (h : a.Sound lookup lines Holds) (hlines : lines <+: lines')
    (hsame : Holds → lines' = lines) (hholds : Holds → Holds') : a.Sound lookup lines' Holds' :=
  ⟨fun e he hnamed => (h.memory e he hnamed).trans_le (listings_mono hlines), h.call.mono hlines hsame hholds⟩

variable {ι : Type} {y : WhitelistYaml} {path : String} {w w' : Sharing ι} {i : ι} {a : Appender} {files : HostFiles}
  {holder : Option ι} {succeeded : List WhitelistEntry} {env : HostSurroundings}
  {entries : Finset WhitelistEntry} {call : Call}

theorem Sharing.Sound.memoryListed (h : w.Sound y path lookup) (hi : w.appenders i = some ⟨entries, call⟩) :
    ∀ e ∈ entries, e.named = false → 0 < listings lookup (fileLines y w.files path) e :=
  (h.appenders i _ hi).memory

theorem Sharing.Sound.callSound (h : w.Sound y path lookup) (hi : w.appenders i = some ⟨entries, call⟩) :
    call.Sound lookup (fileLines y w.files path) (w.holder = some i) :=
  (h.appenders i _ hi).call

/-- A duplicate by the memory is listed by the file. -/
theorem Sharing.Sound.duplicate {entryStr : String} {entry : WhitelistEntry} (h : w.Sound y path lookup)
    (hi : w.appenders i = some ⟨entries, call⟩)
    (happend : Appendable entryStr entry) (he : entry ∈ entries) :
    ∀ e ∈ w.succeeded ++ [entry], e ∈ w.succeeded ∨ 0 < listings lookup (fileLines y w.files path) e := by
  intro e hmem
  rcases List.mem_append.1 hmem with hmem | hmem
  · exact .inl hmem
  · rw [List.mem_singleton.1 hmem]
    exact .inr (h.memoryListed hi entry he happend.not_named)

theorem not_holder {j : ι} (h : w.holder = some i) (hji : j ≠ i) : w.holder ≠ some j := fun hj =>
  hji (Option.some.inj (hj.symm.trans h))

variable [DecidableEq ι]

/-- After a move of one manager each is the one that moved, or as it was. -/
theorem moved_cases {appenders : ι → Option Appender} {j : ι} {b : Appender}
    (h : Function.update appenders i (some a) j = some b) : (j = i ∧ b = a) ∨ (j ≠ i ∧ appenders j = some b) := by
  by_cases hji : j = i
  · subst hji
    rw [Function.update_self] at h
    exact .inl ⟨rfl, (Option.some.inj h).symm⟩
  · rw [Function.update_of_ne hji] at h
    exact .inr ⟨hji, h⟩

/-- A step of the manager `i`: the others are left, and whoever else has the lock finds the file as it was. -/
theorem Sharing.Sound.moved (h : w.Sound y path lookup) (hthere : files path ≠ none)
    (hlines : fileLines y w.files path <+: fileLines y files path)
    (hlock : ∀ j, j ≠ i → w.holder = some j → holder = some j ∧ fileLines y files path = fileLines y w.files path)
    (hown : a.Sound lookup (fileLines y files path) (holder = some i))
    (hnew : ∀ e ∈ succeeded, e ∈ w.succeeded ∨ 0 < listings lookup (fileLines y files path) e) :
    Sharing.Sound y path lookup ⟨files, Function.update w.appenders i (some a), holder, succeeded⟩ := by
  refine ⟨fun j b hb => ?_, fun e he => ?_, fun _ _ _ => hthere⟩
  · rcases moved_cases hb with ⟨rfl, rfl⟩ | ⟨hji, hb⟩
    · exact hown
    · exact (h.appenders j b hb).mono hlines (fun hj => (hlock j hji hj).2) fun hj => (hlock j hji hj).1
  · rcases hnew e he with hold | hlisted
    · exact (h.succeeded e hold).trans_le (listings_mono hlines)
    · exact hlisted

/-- A step that leaves the file. -/
theorem Sharing.Sound.stays (h : w.Sound y path lookup) (hthere : w.files path ≠ none)
    (hfiles : files path = w.files path)
    (hlock : ∀ j, j ≠ i → w.holder = some j → holder = some j)
    (hown : a.Sound lookup (fileLines y w.files path) (holder = some i))
    (hnew : ∀ e ∈ succeeded, e ∈ w.succeeded ∨ 0 < listings lookup (fileLines y w.files path) e) :
    w.Stays y path lookup ⟨files, Function.update w.appenders i (some a), holder, succeeded⟩ :=
  have hlines : fileLines y files path = fileLines y w.files path := fileLines_congr hfiles
  ⟨h.moved (by rwa [hfiles]) (by rw [hlines]) (fun j hji hj => ⟨hlock j hji hj, hlines⟩) (by rwa [hlines])
    (by rwa [hlines]), hlines⟩

theorem stays_new {lookup' : Lookup} {watch : Except AnyhowError Unit} (h : w.Sound y path lookup)
    (hs : w.new y path i lookup' watch = some w') : w.Stays y path lookup w' := by
  unfold Sharing.new at hs
  split at hs
  · next m _ hnew =>
    cases hs
    have hload : loadEntries y lookup' w.files path = .ok m.entries := by
      unfold WhitelistManager.new at hnew
      split at hnew
      · cases hnew
      · next entries hload =>
        rcases watch with e | u
        · cases hnew
        · cases hnew
          exact hload
    refine h.stays (loadEntries_there hload) rfl (fun _ _ hj => hj) ⟨fun e he hnamed => ?_, trivial⟩
      fun e he => .inl he
    exact listings_pos_of_not_named hnamed (loadEntries_listed hload he)
  · cases hs

theorem stays_check {ipOrCidr : String} (h : w.Sound y path lookup)
    (hs : w.check i ipOrCidr = some w') : w.Stays y path lookup w' := by
  unfold Sharing.check at hs
  split at hs
  · next entries hi =>
    have hmemory := h.memoryListed hi
    have hidle : w.Stays y path lookup (w.put i entries .idle) :=
      h.stays (h.there i _ hi) rfl (fun _ _ hj => hj) ⟨hmemory, trivial⟩ fun e he => .inl he
    dsimp only at hs
    split at hs
    · cases hs
      exact hidle
    · split at hs
      · cases hs
        exact hidle
      · next entry hparsed =>
        have happend : Appendable (Text.trim ipOrCidr) entry := ⟨Text.trim_trim ipOrCidr, hparsed⟩
        split at hs
        · next he =>
          cases hs
          exact h.stays (h.there i _ hi) rfl (fun _ _ hj => hj) ⟨hmemory, trivial⟩ (h.duplicate hi happend he)
        · cases hs
          exact h.stays (h.there i _ hi) rfl (fun _ _ hj => hj) ⟨hmemory, happend⟩ fun e he => .inl he
  · cases hs

theorem stays_lock {locked : Except String Unit} (h : w.Sound y path lookup)
    (hs : w.lock path i env locked = some w') : w.Stays y path lookup w' := by
  unfold Sharing.lock at hs
  split at hs
  · next entries entryStr entry hi =>
    have hmemory := h.memoryListed hi
    have happend := h.callSound hi
    rcases hrun : (WhitelistManager.acquireLock path locked).run env w.files with ⟨r, files⟩
    have hfiles : files path = w.files path :=
      WhitelistManager.confined_acquireLock.kept hrun WhitelistManager.lock_ne
    rw [hrun] at hs
    rcases r with e | u
    · cases hs
      exact h.stays (h.there i _ hi) hfiles (fun _ _ hj => hj) ⟨hmemory, trivial⟩ fun e he => .inl he
    · obtain ⟨hfree, hs⟩ := Option.ite_none_right_eq_some.1 hs
      cases hs
      refine h.stays (h.there i _ hi) hfiles (fun j _ hj => ?_) ⟨hmemory, happend, rfl⟩ fun e he => .inl he
      rw [hfree] at hj
      cases hj
  · cases hs

theorem stays_load (h : w.Sound y path lookup)
    (hs : w.load y path i env = some w') : w.Stays y path lookup w' := by
  unfold Sharing.load at hs
  split at hs
  · next entries entryStr entry hi =>
    have hmemory := h.memoryListed hi
    obtain ⟨happend, hlock⟩ := h.callSound hi
    have hother : ∀ j, j ≠ i → w.holder = some j → none = some j := fun j hji hj => (not_holder hlock hji hj).elim
    split at hs
    · next he =>
      cases hs
      exact h.stays (h.there i _ hi) rfl hother ⟨hmemory, trivial⟩ (h.duplicate hi happend he)
    · split at hs
      · next e files hrun =>
        cases hs
        have hfiles : files path = w.files path := WhitelistManager.confined_currentLines.kept hrun not_false
        exact h.stays (h.there i _ hi) hfiles hother ⟨hmemory, trivial⟩ fun e he => .inl he
      · next lines files hrun =>
        cases hs
        obtain ⟨rfl, rfl⟩ := currentLines_ok hrun
        exact h.stays (h.there i _ hi) rfl (fun _ _ hj => hj) ⟨hmemory, happend, hlock, rfl⟩ fun e he => .inl he
  · cases hs

/-- A write that the file system carries out adds its line, any other leaves the file. -/
theorem write_effect (hround : y.RoundTrip) (h : w.Sound y path lookup) (hs : w.write y path i env = some w') :
    w'.Sound y path lookup ∧ ∃ entries entryStr entry,
      w.appenders i = some ⟨entries, .loaded entryStr entry (fileLines y w.files path)⟩ ∧ Appendable entryStr entry ∧
      fileLines y w'.files path =
        match ((WhitelistManager.writeLines y path (fileLines y w.files path ++ [entryStr])).run env w.files).1 with
        | .ok _ => fileLines y w.files path ++ [entryStr]
        | .error _ => fileLines y w.files path := by
  unfold Sharing.write at hs
  split at hs
  · next entries entryStr entry lines hi =>
    have hmemory := h.memoryListed hi
    obtain ⟨happend, hlock, rfl⟩ := h.callSound hi
    rcases hrun : (WhitelistManager.writeLines y path (fileLines y w.files path ++ [entryStr])).run env w.files
      with ⟨r, files⟩
    rw [hrun] at hs
    rcases r with e | u
    · cases hs
      have hfiles : files path = w.files path := writeLines_failed (h.there i _ hi) hrun
      have hstays : w.Stays y path lookup { w.put i entries .idle with files, holder := none } :=
        h.stays (h.there i _ hi) hfiles (fun j hji hj => (not_holder hlock hji hj).elim) ⟨hmemory, trivial⟩
          fun e he => .inl he
      exact ⟨hstays.1, entries, entryStr, entry, hi, happend, by rw [hrun]; exact hstays.2⟩
    · cases hs
      obtain ⟨hthere, hlines⟩ := writeLines_ok hround hrun
      have hprefix : fileLines y w.files path <+: fileLines y files path := by
        rw [hlines]
        exact List.prefix_append _ _
      have hlisted : 0 < listings lookup (fileLines y files path) entry := by
        rw [hlines, listings_append happend, if_pos rfl]
        omega
      refine ⟨?_, entries, entryStr, entry, hi, happend, by rw [hrun]; exact hlines⟩
      refine h.moved hthere hprefix (fun j hji hj => (not_holder hlock hji hj).elim)
        ⟨fun e he hnamed => ?_, hlock, hlisted⟩ fun e he => .inl he
      exact (hmemory e he hnamed).trans_le (listings_mono hprefix)
  · cases hs

theorem stays_unlock (h : w.Sound y path lookup) (hs : w.unlock i = some w') : w.Stays y path lookup w' := by
  unfold Sharing.unlock at hs
  split at hs
  · next entries entry hi =>
    have hmemory := h.memoryListed hi
    obtain ⟨hlock, hlisted⟩ := h.callSound hi
    cases hs
    exact h.stays (h.there i _ hi) rfl (fun j hji hj => (not_holder hlock hji hj).elim) ⟨hmemory, hlisted⟩
      fun e he => .inl he
  · cases hs

theorem stays_reload {lookup' : Lookup} (h : w.Sound y path lookup) (hs : w.reload y path i lookup' = some w') :
    w.Stays y path lookup w' := by
  unfold Sharing.reload at hs
  split at hs
  · next entries entry hi =>
    have hmemory := h.memoryListed hi
    have hlisted := h.callSound hi
    split at hs
    · cases hs
      exact h.stays (h.there i _ hi) rfl (fun _ _ hj => hj) ⟨hmemory, trivial⟩ fun e he => .inl he
    · next loaded hload =>
      cases hs
      refine h.stays (h.there i _ hi) rfl (fun _ _ hj => hj) ⟨fun e he hnamed => ?_, trivial⟩ fun e he => ?_
      · exact listings_pos_of_not_named hnamed (loadEntries_listed hload he)
      · rcases List.mem_append.1 he with he | he
        · exact .inl he
        · rw [List.mem_singleton.1 he]
          exact .inr hlisted
  · cases hs

end Sound

/-! ## Runs -/

section Run

variable {ι : Type} [DecidableEq ι]

/-- The entry whose line the step writes, if the file system carries the write out. -/
def written (y : WhitelistYaml) (path : String) (f : Fired (Sharing ι) (AppendAct ι)) : Option WhitelistEntry :=
  match f.act with
  | .write i env => match f.pre.appenders i with
    | some ⟨_, .loaded entryStr entry lines⟩ =>
      match ((WhitelistManager.writeLines y path (lines ++ [entryStr])).run env f.pre.files).1 with
      | .ok _ => some entry
      | .error _ => none
    | _ => none
  | _ => none

/-- The step writes a line with the entry for the manager `i`, and every operation of the write is carried out. -/
def WritesLine (y : WhitelistYaml) (path : String) (i : ι) (e : WhitelistEntry) (f : Fired (Sharing ι) (AppendAct ι)) :
    Prop :=
  ∃ env entries entryStr lines, f.act = .write i env ∧ f.pre.appenders i = some ⟨entries, .loaded entryStr e lines⟩ ∧
    CarriedOut y env f.pre.files path (lines ++ [entryStr])

/-- The manager `i` loads the file: it is created, or it reloads and the file can be loaded. -/
def Loads (y : WhitelistYaml) (path : String) (i : ι) (f : Fired (Sharing ι) (AppendAct ι)) : Prop :=
  match f.act with
  | .new j _ _ => j = i
  | .reload j lookup => j = i ∧ (loadEntries y lookup f.pre.files path).isOk = true
  | _ => False

/-- After the steps `pre`, a manager writes an entry that somebody has written since it loaded the file last, and that
was not listed twice at first. -/
def WritesStale (y : WhitelistYaml) (path : String) (lookup : Lookup) (w₀ : Sharing ι)
    (pre : List (Fired (Sharing ι) (AppendAct ι))) (f : Fired (Sharing ι) (AppendAct ι)) : Prop :=
  ∃ i e, WritesLine y path i e f ∧ listings lookup (fileLines y w₀.files path) e < 2 ∧
    Since False (fun g => ∃ j, WritesLine y path j e g) (fun g => ¬ Loads y path i g) pre

/-- The lines that were there are there in their order, every call that returned Ok has its entry in the file, and no
entry is listed twice that was not before. -/
structure AppendsExact (y : WhitelistYaml) (path : String) (lookup : Lookup) (w₀ w : Sharing ι) : Prop where
  kept : fileLines y w₀.files path <+: fileLines y w.files path
  listed : ∀ e ∈ w.succeeded, 0 < listings lookup (fileLines y w.files path) e
  distinct : ∀ e, 2 ≤ listings lookup (fileLines y w.files path) e → 2 ≤ listings lookup (fileLines y w₀.files path) e

variable {y : WhitelistYaml} {path : String} {lookup : Lookup} {w₀ w : Sharing ι}
  {tr : List (Fired (Sharing ι) (AppendAct ι))} {f : Fired (Sharing ι) (AppendAct ι)}

/-- A step leaves the lines of the file, or adds the one that it writes. -/
theorem append_cases (hround : y.RoundTrip) (hf : IsStep (appending y path) f) (h : f.pre.Sound y path lookup) :
    f.post.Sound y path lookup ∧
      match written y path f with
      | none => fileLines y f.post.files path = fileLines y f.pre.files path
      | some entry => ∃ entryStr, Appendable entryStr entry ∧
          fileLines y f.post.files path = fileLines y f.pre.files path ++ [entryStr] := by
  obtain ⟨w, a, w'⟩ := f
  simp only [IsStep, appending] at hf
  cases a with
  | new i lookup' watch => exact stays_new h hf
  | check i ipOrCidr => exact stays_check h hf
  | lock i env locked => exact stays_lock h hf
  | load i env => exact stays_load h hf
  | unlock i => exact stays_unlock h hf
  | reload i lookup' => exact stays_reload h hf
  | write i env =>
    obtain ⟨hsound, entries, entryStr, entry, hi, happend, hlines⟩ := write_effect hround h hf
    refine ⟨hsound, ?_⟩
    simp only [written]
    rw [hi]
    dsimp only at hlines ⊢
    split at hlines
    · exact ⟨entryStr, happend, hlines⟩
    · exact hlines

theorem lines_grow (hround : y.RoundTrip) (hf : IsStep (appending y path) f) (h : f.pre.Sound y path lookup) :
    fileLines y f.pre.files path <+: fileLines y f.post.files path := by
  obtain ⟨_, hlines⟩ := append_cases hround hf h
  split at hlines
  · rw [hlines]
  · obtain ⟨entryStr, _, hlines⟩ := hlines
    rw [hlines]
    exact List.prefix_append _ _

theorem sound_run (hround : y.RoundTrip) (hinit : (appending y path).init w₀) (h : Run (appending y path) w₀ tr w) :
    w.Sound y path lookup ∧ fileLines y w₀.files path <+: fileLines y w.files path := by
  refine h.always (I := fun w => w.Sound y path lookup ∧ fileLines y w₀.files path <+: fileLines y w.files path)
    (fun f hf hw => ?_) ⟨⟨fun i a hi => ?_, fun e he => ?_, fun i a hi => ?_⟩, List.prefix_refl _⟩
  · obtain ⟨hsound, hkept⟩ := hw
    exact ⟨(append_cases hround hf hsound).1, hkept.trans (lines_grow hround hf hsound)⟩
  · rw [hinit.1 i] at hi
    cases hi
  · rw [hinit.2.2] at he
    cases he
  · rw [hinit.1 i] at hi
    cases hi

omit [DecidableEq ι] in
/-- The entry of a line that is written. -/
theorem written_iff {e : WhitelistEntry} : written y path f = some e ↔ ∃ i, WritesLine y path i e f := by
  obtain ⟨w, a, w'⟩ := f
  constructor
  · intro h
    cases a with
    | write i env =>
      simp only [written] at h
      split at h
      · next entries entryStr entry lines hi =>
        split at h
        · next hok =>
          cases h
          exact ⟨i, env, entries, entryStr, lines, rfl, hi, carriedOut_iff.1 ⟨_, Prod.ext hok rfl⟩⟩
        · cases h
      · cases h
    | new | check | lock | load | unlock | reload => cases h
  · rintro ⟨i, env, entries, entryStr, lines, hact, hi, hdone⟩
    obtain ⟨t, hrun⟩ := carriedOut_iff.2 hdone
    dsimp only at hact hi hrun
    subst hact
    simp only [written]
    rw [hi]
    dsimp only
    rw [hrun]

/-! ### What a manager remembers -/

/-- A line is to be written only for an entry that is not in memory. -/
def Appender.Unknown (a : Appender) : Prop :=
  match a.call with
  | .loaded _ entry _ => entry ∉ a.entries
  | _ => True

/-- The step is one of the manager `i`, which keeps its memory. -/
def Remembers (w w' : Sharing ι) (i : ι) : Prop :=
  ∃ a a', w.appenders i = some a ∧ w'.appenders = Function.update w.appenders i (some a') ∧ a'.entries = a.entries ∧
    (a.Unknown → a'.Unknown)

/-- The step is a load of the manager `i`, which has what it found in its memory. -/
def Learns (y : WhitelistYaml) (path : String) (w w' : Sharing ι) (i : ι) : Prop :=
  ∃ a' lookup', w'.appenders = Function.update w.appenders i (some a') ∧ w'.files = w.files ∧
    loadEntries y lookup' w.files path = .ok a'.entries ∧ a'.Unknown

variable {i : ι} {w' : Sharing ι} {env : HostSurroundings}

/-- A manager that goes on with its memory, and not to write. -/
theorem remembers_put {entries : Finset WhitelistEntry} {call call' : Call} {files : HostFiles} {holder : Option ι}
    {succeeded : List WhitelistEntry} (hi : w.appenders i = some ⟨entries, call⟩)
    (hcall : (⟨entries, call'⟩ : Appender).Unknown) :
    Remembers w ⟨files, (w.put i entries call').appenders, holder, succeeded⟩ i :=
  ⟨_, ⟨entries, call'⟩, hi, rfl, rfl, fun _ => hcall⟩

theorem learns_new {lookup' : Lookup} {watch : Except AnyhowError Unit} (hs : w.new y path i lookup' watch = some w') :
    Learns y path w w' i := by
  unfold Sharing.new at hs
  split at hs
  · next m _ hnew =>
    cases hs
    unfold WhitelistManager.new at hnew
    split at hnew
    · cases hnew
    · next entries hload =>
      rcases watch with e | u
      · cases hnew
      · cases hnew
        exact ⟨⟨entries, .idle⟩, lookup', rfl, rfl, hload, trivial⟩
  · cases hs

theorem remembers_check {ipOrCidr : String} (hs : w.check i ipOrCidr = some w') : Remembers w w' i := by
  unfold Sharing.check at hs
  split at hs
  · next entries hi =>
    dsimp only at hs
    split at hs
    · cases hs
      exact remembers_put hi trivial
    split at hs
    · cases hs
      exact remembers_put hi trivial
    · next entry _ =>
      split at hs
      · cases hs
        exact remembers_put hi trivial
      · cases hs
        exact remembers_put hi trivial
  · cases hs

theorem remembers_lock {locked : Except String Unit} (hs : w.lock path i env locked = some w') : Remembers w w' i := by
  unfold Sharing.lock at hs
  split at hs
  · next entries entryStr entry hi =>
    split at hs
    · cases hs
      exact remembers_put hi trivial
    · obtain ⟨_, hs⟩ := Option.ite_none_right_eq_some.1 hs
      cases hs
      exact remembers_put hi trivial
  · cases hs

/-- Under the lock the memory is searched again, before the lines are read. -/
theorem remembers_load (hs : w.load y path i env = some w') : Remembers w w' i := by
  unfold Sharing.load at hs
  split at hs
  · next entries entryStr entry hi =>
    split at hs
    · cases hs
      exact remembers_put hi trivial
    · next hnew =>
      split at hs
      · cases hs
        exact remembers_put hi trivial
      · next lines _ _ =>
        cases hs
        exact remembers_put hi hnew
  · cases hs

theorem remembers_write (hs : w.write y path i env = some w') : Remembers w w' i := by
  unfold Sharing.write at hs
  split at hs
  · next entries entryStr entry lines hi =>
    split at hs
    · cases hs
      exact remembers_put hi trivial
    · cases hs
      exact remembers_put hi trivial
  · cases hs

theorem remembers_unlock (hs : w.unlock i = some w') : Remembers w w' i := by
  unfold Sharing.unlock at hs
  split at hs
  · next entries entry hi =>
    cases hs
    exact remembers_put hi trivial
  · cases hs

/-- A reload that fails leaves the memory, any other replaces it. -/
theorem reload_memory {lookup' : Lookup} (hs : w.reload y path i lookup' = some w') :
    if (loadEntries y lookup' w.files path).isOk = true then Learns y path w w' i else Remembers w w' i := by
  unfold Sharing.reload at hs
  split at hs
  · next entries entry hi =>
    split at hs
    · next e hload =>
      cases hs
      rw [if_neg (by rw [hload]; exact Bool.false_ne_true)]
      exact remembers_put hi trivial
    · next loaded hload =>
      cases hs
      rw [if_pos (by rw [hload]; rfl)]
      exact ⟨⟨loaded, .idle⟩, lookup', rfl, rfl, hload, trivial⟩
  · cases hs

/-- Every step is one of one manager, which loads the file or keeps its memory. -/
theorem memory_step (hf : IsStep (appending y path) f) :
    ∃ i, (Loads y path i f ∧ Learns y path f.pre f.post i) ∨
      ((∀ k, ¬ Loads y path k f) ∧ Remembers f.pre f.post i) := by
  obtain ⟨w, a, w'⟩ := f
  simp only [IsStep, appending] at hf
  cases a with
  | new i lookup' watch => exact ⟨i, .inl ⟨rfl, learns_new hf⟩⟩
  | check i ipOrCidr => exact ⟨i, .inr ⟨fun _ => id, remembers_check hf⟩⟩
  | lock i env locked => exact ⟨i, .inr ⟨fun _ => id, remembers_lock hf⟩⟩
  | load i env => exact ⟨i, .inr ⟨fun _ => id, remembers_load hf⟩⟩
  | write i env => exact ⟨i, .inr ⟨fun _ => id, remembers_write hf⟩⟩
  | unlock i => exact ⟨i, .inr ⟨fun _ => id, remembers_unlock hf⟩⟩
  | reload i lookup' =>
    have hmemory := reload_memory hf
    refine ⟨i, ?_⟩
    split at hmemory
    · next hok => exact .inl ⟨⟨rfl, hok⟩, hmemory⟩
    · next hfails => exact .inr ⟨fun k hk => hfails hk.2, hmemory⟩

omit [DecidableEq ι] in
theorem Loads.unique {k : ι} (hi : Loads y path i f) (hk : Loads y path k f) : k = i := by
  obtain ⟨w, a, w'⟩ := f
  cases a with
  | new j lookup' watch => exact hk.symm.trans hi
  | reload j lookup' => exact hk.1.symm.trans hi.1
  | check | lock | load | write | unlock => exact hi.elim

/-- The entries to be written are not in memory, in every run. -/
theorem unknown_run (hinit : (appending y path).init w₀) (h : Run (appending y path) w₀ tr w) :
    ∀ i a, w.appenders i = some a → a.Unknown := by
  refine h.always (I := fun w => ∀ i a, w.appenders i = some a → a.Unknown)
    (fun f hf hall j b hb => ?_) fun i a hi => ?_
  · obtain ⟨i, ⟨_, a', _, happenders, _, _, hunknown⟩ | ⟨_, a, a', hi, happenders, _, hunknown⟩⟩ := memory_step hf
    · rw [happenders] at hb
      rcases moved_cases hb with ⟨rfl, rfl⟩ | ⟨_, hb⟩
      · exact hunknown
      · exact hall j b hb
    · rw [happenders] at hb
      rcases moved_cases hb with ⟨rfl, rfl⟩ | ⟨_, hb⟩
      · exact hunknown (hall j a hi)
      · exact hall j b hb
  · rw [hinit.1 i] at hi
    cases hi

/-- A step adds the entry that it writes to those that the file lists. -/
theorem listed_step (hround : y.RoundTrip) (hf : IsStep (appending y path) f) (h : f.pre.Sound y path lookup)
    {e : WhitelistEntry} :
    0 < listings lookup (fileLines y f.post.files path) e ↔
      0 < listings lookup (fileLines y f.pre.files path) e ∨ ∃ j, WritesLine y path j e f := by
  rw [← written_iff]
  obtain ⟨_, hlines⟩ := append_cases hround hf h
  rcases hw : written y path f with _ | entry
  · rw [hw] at hlines
    rw [hlines]
    simp
  · rw [hw] at hlines
    obtain ⟨entryStr, happend, hlines⟩ := hlines
    rw [hlines, listings_append happend, Option.some.injEq]
    split
    · next he => simp [he]
    · next he => simp [he]

variable (lookup) in
/-- What a load finds are the addresses and subnets that the file lists. -/
theorem mem_loadEntries {lookup' : Lookup} {s : HostFiles} {entries : Finset WhitelistEntry} {e : WhitelistEntry}
    (hload : loadEntries y lookup' s path = .ok entries) (hnamed : e.named = false) :
    e ∈ entries ↔ 0 < listings lookup (fileLines y s path) e := by
  constructor
  · exact fun he => listings_pos_of_not_named hnamed (loadEntries_listed hload he)
  · intro hlisted
    have hlisted' : 0 < listings lookup' (fileLines y s path) e := listings_pos_of_not_named hnamed hlisted
    unfold loadEntries at hload
    unfold fileLines at hlisted'
    split at hload
    · cases hload
    · next hconfig =>
      rw [hconfig] at hlisted'
      exact (mem_parseEntries hload).2 (listings_pos.1 hlisted')

/-- The file lists an address or a subnet exactly if the manager has it in memory, or somebody has written it since the
manager loaded the file last. -/
theorem listed_iff (hround : y.RoundTrip) (hinit : (appending y path).init w₀) (h : Run (appending y path) w₀ tr w)
    {e : WhitelistEntry} (hnamed : e.named = false) {i : ι} {a : Appender} (hi : w.appenders i = some a) :
    0 < listings lookup (fileLines y w.files path) e ↔
      e ∈ a.entries ∨ Since False (fun g => ∃ j, WritesLine y path j e g) (fun g => ¬ Loads y path i g) tr := by
  have hregroup {A S P Q : Prop} (hq : Q) : (A ∨ S) ∨ P ↔ A ∨ P ∨ Q ∧ S := by
    rw [and_iff_right hq, or_assoc, or_comm (a := S)]
  induction h generalizing a with
  | nil =>
    rw [hinit.1 i] at hi
    cases hi
  | @snoc tr t t' act hr hs ih =>
    have hf : IsStep (appending y path) ⟨t, act, t'⟩ := hs
    have hsound : t.Sound y path lookup := (sound_run hround hinit hr).1
    have hlisted := listed_step (e := e) hround hf hsound
    rw [since_snoc, hlisted]
    obtain ⟨k, ⟨hload, a', lookup', happenders, _, hfound, _⟩ |
      ⟨hno, b, b', hk, happenders, hsame, _⟩⟩ := memory_step hf
    · rw [happenders] at hi
      rcases moved_cases hi with ⟨rfl, rfl⟩ | ⟨hik, hi⟩
      · rw [mem_loadEntries lookup hfound hnamed]
        simp [hload]
      · have hkeeps : ¬ Loads y path i ⟨t, act, t'⟩ := fun hi => hik (hload.unique hi)
        exact (or_congr_left (ih hi)).trans (hregroup hkeeps)
    · rw [happenders] at hi
      rcases moved_cases hi with ⟨rfl, rfl⟩ | ⟨_, hi⟩
      · rw [hsame]
        exact (or_congr_left (ih hk)).trans (hregroup (hno i))
      · exact (or_congr_left (ih hi)).trans (hregroup (hno i))

/-- A line is written whose entry the file lists already, though it was not listed twice at first. -/
def Repeats (y : WhitelistYaml) (path : String) (lookup : Lookup) (w₀ : Sharing ι)
    (f : Fired (Sharing ι) (AppendAct ι)) : Prop :=
  ∃ e ∈ written y path f, 0 < listings lookup (fileLines y f.pre.files path) e ∧
    listings lookup (fileLines y w₀.files path) e < 2

/-- Such an entry is one that the manager missed: it is not in memory. -/
theorem repeats_iff (hround : y.RoundTrip) (hinit : (appending y path).init w₀)
    (h : Run (appending y path) w₀ tr f.pre) : Repeats y path lookup w₀ f ↔ WritesStale y path lookup w₀ tr f := by
  have hlisted {i : ι} {e : WhitelistEntry} (hw : WritesLine y path i e f) :
      0 < listings lookup (fileLines y f.pre.files path) e ↔
        Since False (fun g => ∃ j, WritesLine y path j e g) (fun g => ¬ Loads y path i g) tr := by
    obtain ⟨env, entries, entryStr, lines, _, hi, _⟩ := hw
    have hsound : f.pre.Sound y path lookup := (sound_run hround hinit h).1
    obtain ⟨happend, _⟩ := hsound.callSound hi
    have hnew : e ∉ entries := unknown_run hinit h i _ hi
    rw [listed_iff hround hinit h happend.not_named hi, or_iff_right hnew]
  constructor
  · rintro ⟨e, hw, htwice, hfirst⟩
    obtain ⟨i, hw⟩ := written_iff.1 hw
    exact ⟨i, e, hw, hfirst, (hlisted hw).1 htwice⟩
  · rintro ⟨i, e, hw, hfirst, hsince⟩
    exact ⟨e, written_iff.2 ⟨i, hw⟩, (hlisted hw).2 hsince, hfirst⟩

/-- A step after which an entry is listed twice adds it to its first listing, or finds it listed twice. -/
theorem listed_twice (hround : y.RoundTrip) (hf : IsStep (appending y path) f) (h : f.pre.Sound y path lookup)
    {e : WhitelistEntry} :
    2 ≤ listings lookup (fileLines y f.post.files path) e ↔ 2 ≤ listings lookup (fileLines y f.pre.files path) e ∨
      e ∈ written y path f ∧ 0 < listings lookup (fileLines y f.pre.files path) e := by
  obtain ⟨_, hlines⟩ := append_cases hround hf h
  rcases hw : written y path f with _ | entry
  · rw [hw] at hlines
    rw [hlines]
    simp
  · rw [hw] at hlines
    obtain ⟨entryStr, happend, hlines⟩ := hlines
    rw [hlines, listings_append happend, Option.mem_some_iff]
    split
    · next he =>
      simp only [he, eq_self, true_and]
      omega
    · next he =>
      simp only [he, false_and, or_false]
      omega

/-- No entry is listed twice that was not before, exactly if no line is written whose entry the file lists. -/
theorem distinct_iff (hround : y.RoundTrip) (hinit : (appending y path).init w₀)
    (h : Run (appending y path) w₀ tr w) :
    (∀ e, 2 ≤ listings lookup (fileLines y w.files path) e → 2 ≤ listings lookup (fileLines y w₀.files path) e) ↔
      ∀ f ∈ tr, ¬ Repeats y path lookup w₀ f := by
  induction h with
  | nil => simp
  | @snoc tr t t' a hr hs ih =>
    have hf : IsStep (appending y path) ⟨t, a, t'⟩ := hs
    have hsound : t.Sound y path lookup := (sound_run hround hinit hr).1
    have htwice := fun e => listed_twice (e := e) hround hf hsound
    rw [List.forall_mem_append, List.forall_mem_singleton, ← ih]
    constructor
    · intro hdistinct
      refine ⟨fun e he => hdistinct e ((htwice e).2 (.inl he)), fun ⟨e, he, hlisted, honce⟩ => ?_⟩
      have := hdistinct e ((htwice e).2 (.inr ⟨he, hlisted⟩))
      omega
    · rintro ⟨hdistinct, hno⟩ e he
      rcases (htwice e).1 he with he | ⟨hw, hlisted⟩
      · exact hdistinct e he
      · by_contra honce
        exact hno ⟨e, hw, hlisted, by omega⟩

end Run

/-- In every run of managers on one file no line is lost and every append that returns Ok is in the file; no entry is
duplicated exactly when no manager writes one that somebody has written since it loaded the file last. -/
theorem appends_exact_iff {ι : Type} [DecidableEq ι] {y : WhitelistYaml} {path : String} {lookup : Lookup}
    {w₀ w : Sharing ι} {tr : List (Fired (Sharing ι) (AppendAct ι))} (hround : y.RoundTrip)
    (hinit : (appending y path).init w₀) (h : Run (appending y path) w₀ tr w) :
    AppendsExact y path lookup w₀ w ↔ ∀ pre f post, tr = pre ++ f :: post → ¬ WritesStale y path lookup w₀ pre f := by
  obtain ⟨hsound, hkept⟩ : w.Sound y path lookup ∧ _ := sound_run hround hinit h
  have hdistinct : (∀ e, _ → _) ↔ ∀ f ∈ tr, ¬ Repeats y path lookup w₀ f := distinct_iff hround hinit h
  constructor
  · intro hexact pre f post htr hstale
    have hrepeats := (repeats_iff hround hinit (h.split htr).1).2 hstale
    exact hdistinct.1 hexact.distinct f (by simp [htr]) hrepeats
  · intro hno
    refine ⟨hkept, hsound.succeeded, hdistinct.2 fun f hf hrepeats => ?_⟩
    obtain ⟨pre, post, htr, hpre, _⟩ := h.split_of_mem hf
    exact hno pre f post htr ((repeats_iff hround hinit hpre).1 hrepeats)

/-! ## Two managers -/

/-- The text of a whitelist file of addresses. -/
def addressesText (lines : List String) : String :=
  "entries:\n" ++ String.join (lines.map fun line => "- " ++ line ++ "\n")

/-- What two appends of one address may make of a file. -/
def addressFiles : List (List String) :=
  [["10.0.0.1"], ["10.0.0.1", "10.0.0.5"], ["10.0.0.1", "10.0.0.5", "10.0.0.5"]]

/-- A YAML library for these files. -/
def addressesYaml : WhitelistYaml where
  serialize lines := if lines ∈ addressFiles then .ok (addressesText lines) else .error "unsupported"
  parse text := match addressFiles.find? fun lines => text = addressesText lines with
    | some lines => .ok lines
    | none => .error "unsupported"

theorem addressesYaml_roundTrip : addressesYaml.RoundTrip := by
  have hread : ∀ lines ∈ addressFiles, addressesYaml.parse (addressesText lines) = .ok lines := by decide +kernel
  intro lines text h
  dsimp only [addressesYaml] at h
  split at h
  · next hmem =>
    cases h
    exact hread lines hmem
  · cases h

/-- A file with one address, and no manager yet. -/
def unshared : Sharing ℕ :=
  ⟨fun p => if p = whitelistPath then some (.text (addressesText ["10.0.0.1"])) else none, fun _ => none, none, []⟩

theorem unshared_init : (appending addressesYaml whitelistPath).init unshared := ⟨fun _ => rfl, rfl, rfl⟩

/-- A call of the manager `i` that nobody interrupts. -/
def appendActs (i : ℕ) : List (AppendAct ℕ) :=
  [.check i "10.0.0.5", .lock i .sound (.ok ()), .load i .sound, .write i .sound, .unlock i, .reload i noNames]

def stepsOf (acts : List (AppendAct ℕ)) : List (Fired (Sharing ℕ) (AppendAct ℕ)) :=
  (trace (appending addressesYaml whitelistPath) unshared acts).getD []

/-- The second manager is created after the append of the first, and finds the address in its memory. -/
def inTurn : List (AppendAct ℕ) :=
  .new 0 noNames (.ok ()) :: appendActs 0 ++ [.new 1 noNames (.ok ()), .check 1 "10.0.0.5"]

/-- Whether the step is a write. -/
def isWrite (f : Fired (Sharing ℕ) (AppendAct ℕ)) : Bool :=
  match f.act with
  | .write _ _ => true
  | _ => false

theorem WritesLine.isWrite {y : WhitelistYaml} {path : String} {i : ℕ} {e : WhitelistEntry}
    {f : Fired (Sharing ℕ) (AppendAct ℕ)} (h : WritesLine y path i e f) : Auth.isWrite f = true := by
  obtain ⟨env, _, _, _, hact, _⟩ := h
  rw [Auth.isWrite, hact]

/-- A second write is needed for a stale one. -/
theorem not_writesStale {y : WhitelistYaml} {path : String} {lookup : Lookup} {w₀ : Sharing ℕ}
    {tr : List (Fired (Sharing ℕ) (AppendAct ℕ))} (hone : tr.countP isWrite ≤ 1) :
    ∀ pre f post, tr = pre ++ f :: post → ¬ WritesStale y path lookup w₀ pre f := by
  rintro pre f post rfl ⟨i, e, hw, _, hsince⟩
  obtain ⟨g, hg, j, hw'⟩ := hsince.exists_mem
  have hbefore : 0 < pre.countP isWrite := List.countP_pos_iff.2 ⟨g, hg, hw'.isWrite⟩
  rw [List.countP_append, List.countP_cons_of_pos hw.isWrite] at hone
  omega

theorem appends_exact_in_turn :
    (endState unshared (stepsOf inTurn)).succeeded = [.ip (.ofOctets 10 0 0 5), .ip (.ofOctets 10 0 0 5)] ∧
    AppendsExact addressesYaml whitelistPath noNames unshared (endState unshared (stepsOf inTurn)) :=
  ⟨by decide +kernel, (appends_exact_iff addressesYaml_roundTrip unshared_init
    (run_trace _ _ inTurn (by decide +kernel))).2 (not_writesStale (by decide +kernel))⟩

/-- Both managers are created before the first append, and the memory of the second stays as it was. -/
def sideBySide : List (AppendAct ℕ) :=
  [.new 0 noNames (.ok ()), .new 1 noNames (.ok ())] ++ appendActs 0 ++ appendActs 1

theorem stale_memory_appends_twice : ∃ (y : WhitelistYaml) (path : String) (lookup : Lookup) (w₀ w : Sharing ℕ)
    (tr : List (Fired (Sharing ℕ) (AppendAct ℕ))), y.RoundTrip ∧ (appending y path).init w₀ ∧
    Run (appending y path) w₀ tr w ∧ ¬ AppendsExact y path lookup w₀ w := by
  have hrun : Run (appending addressesYaml whitelistPath) unshared (stepsOf sideBySide)
      (endState unshared (stepsOf sideBySide)) := run_trace _ _ sideBySide (by decide +kernel)
  have htwice : 2 ≤ listings noNames
      (fileLines addressesYaml (endState unshared (stepsOf sideBySide)).files whitelistPath)
      (.ip (.ofOctets 10 0 0 5)) := by decide +kernel
  have hnew : ¬ 2 ≤ listings noNames (fileLines addressesYaml unshared.files whitelistPath)
      (.ip (.ofOctets 10 0 0 5)) := by decide +kernel
  exact ⟨addressesYaml, whitelistPath, noNames, unshared, _, _, addressesYaml_roundTrip, unshared_init, hrun,
    fun hexact => hnew (hexact.distinct _ htwice)⟩

end LinuxPatchApi.Auth
