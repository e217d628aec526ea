/-
The files of the agent's host: contents by path, and actions that fail with an error chain. A path is the text
that names a file, each file under one spelling.
-/
import LinuxPatchApi.Lib.Disk
import LinuxPatchApi.Lib.Paths
import LinuxPatchApi.Packages.ErrorUtils

namespace LinuxPatchApi

open LinuxPatchApi.Packages Disk

def IsUtf8 (bytes : List UInt8) : Prop := (ByteArray.mk bytes.toArray).IsValidUTF8

/-- What a file holds: text in UTF-8, or bytes that are no text. -/
inductive Content
  | text (s : String)
  | binary (bytes : List UInt8) (h : ¬ IsUtf8 bytes)
  deriving DecidableEq

def Content.bytes : Content → List UInt8
  | .text s => s.toUTF8.data.toList
  | .binary bytes _ => bytes

abbrev HostFiles := Files String Content

abbrev HostSurroundings := Surroundings String Content

abbrev FileM (α : Type) := Action String Content AnyhowError α

namespace FileM

variable {α : Type}

/-- `.with_context(|| text)`. -/
def context (m : FileM α) (text : String) : FileM α := Action.mapError (fun e => e.context text) m

/-- `bail!(text)`. -/
def bail (text : String) : FileM α := Action.fail (anyhow text)

/-- One operation; the error of the system call is the root cause. -/
def io (o : Op String Content) : FileM Unit := Action.mapError anyhow (Action.perform o)

def readString (s : HostFiles) (path : String) : Option String :=
  match s path with
  | some (.text x) => some x
  | _ => none

/-- `read_to_string`, where a file that exists can be read; no text for an error. -/
def readToString (path : String) : FileM (Option String) := ⟨fun _ s => (.ok (readString s path), s)⟩

/-- What depends on the files as they are. -/
def reading (f : HostFiles → Except AnyhowError α) : FileM α := ⟨fun _ s => (f s, s)⟩

/-- `fs::write` of a temporary file, and its rename to the path. -/
def replace (temp path : String) (c : Content) (writeText renameText : String) : FileM Unit := do
  (io (.write temp c)).context writeText
  (io (.rename temp path)).context renameText

/-! ## What they do -/

variable {env : HostSurroundings} {s t : HostFiles}

theorem readString_eq_some {path text : String} : readString s path = some text ↔ s path = some (.text text) := by
  unfold readString
  split
  · next x hx => simp [hx]
  · next hnot => exact iff_of_false (by simp) (hnot text)

theorem context_ok {m : FileM α} {text : String} {a : α} :
    (context m text).run env s = (.ok a, t) ↔ m.run env s = (.ok a, t) := Action.mapError_ok

theorem context_error {m : FileM α} {text : String} {e : AnyhowError} (h : (context m text).run env s = (.error e, t)) :
    ∃ e', m.run env s = (.error e', t) := by
  obtain ⟨e', h, _⟩ := Action.mapError_error.1 h
  exact ⟨e', h⟩

theorem io_ok {o : Op String Content} {a : Unit} :
    (io o).run env s = (.ok a, t) ↔ Action.Succeeds env s o ∧ o.effect s = t := by
  rw [io, Action.mapError_ok, Action.perform_ok]

/-- An operation is carried out, or it fails and leaves a part of what it writes. -/
theorem io_cases {o : Op String Content} {r : Except AnyhowError Unit} (h : (io o).run env s = (r, t)) :
    (Action.Succeeds env s o ∧ r = .ok () ∧ t = o.effect s) ∨
      ¬ Action.Succeeds env s o ∧ (∃ e, r = .error e) ∧ ∃ residue, t = o.leave s residue := by
  rw [io, Action.run_mapError] at h
  rcases hrun : (Action.perform o).run env s with ⟨r', t'⟩
  rw [hrun] at h
  rcases Action.perform_cases hrun with ⟨hs, rfl, rfl⟩ | ⟨hnot, ⟨e, rfl⟩, residue, rfl⟩
  · cases h
    exact .inl ⟨hs, rfl, rfl⟩
  · cases h
    exact .inr ⟨hnot, ⟨_, rfl⟩, residue, rfl⟩

theorem io_context_cases {o : Op String Content} {text : String} {r : Except AnyhowError Unit}
    (h : ((io o).context text).run env s = (r, t)) : (Action.Succeeds env s o ∧ r = .ok () ∧ t = o.effect s) ∨
      ¬ Action.Succeeds env s o ∧ (∃ e, r = .error e) ∧ ∃ residue, t = o.leave s residue := by
  rw [context, Action.run_mapError] at h
  rcases hrun : (io o).run env s with ⟨r', t'⟩
  rw [hrun] at h
  rcases io_cases hrun with ⟨hs, rfl, rfl⟩ | ⟨hnot, ⟨e, rfl⟩, residue, rfl⟩
  · cases h
    exact .inl ⟨hs, rfl, rfl⟩
  · cases h
    exact .inr ⟨hnot, ⟨_, rfl⟩, residue, rfl⟩

/-- What follows an operation is done, or the operation is the last one. -/
theorem io_bind_cases {β : Type} {o : Op String Content} {text : String} {f : Unit → FileM β}
    {r : Except AnyhowError β} (h : ((io o).context text >>= f).run env s = (r, t)) :
    (Action.Succeeds env s o ∧ (f ()).run env (o.effect s) = (r, t)) ∨
      ¬ Action.Succeeds env s o ∧ (∃ e, r = .error e) ∧ ∃ residue, t = o.leave s residue := by
  rcases Action.bind_cases h with ⟨e, hrun, rfl⟩ | ⟨_, u, hrun, h⟩
  · rcases io_context_cases hrun with ⟨_, hr, _⟩ | ⟨hnot, _, hleft⟩
    · cases hr
    · exact .inr ⟨hnot, ⟨e, rfl⟩, hleft⟩
  · rcases io_context_cases hrun with ⟨hs, _, rfl⟩ | ⟨_, ⟨e, he⟩, _⟩
    · exact .inl ⟨hs, h⟩
    · cases he

/-- An operation with its context, and what follows it. -/
theorem io_bind_ok {β : Type} {o : Op String Content} {text : String} {f : Unit → FileM β} {b : β} :
    ((io o).context text >>= f).run env s = (.ok b, t) ↔
      Action.Succeeds env s o ∧ (f ()).run env (o.effect s) = (.ok b, t) := by
  rw [Action.bind_ok]
  constructor
  · rintro ⟨_, u, hm, hf⟩
    obtain ⟨ho, rfl⟩ := io_ok.1 (context_ok.1 hm)
    exact ⟨ho, hf⟩
  · rintro ⟨ho, hf⟩
    exact ⟨(), _, context_ok.2 (io_ok.2 ⟨ho, rfl⟩), hf⟩

@[simp] theorem run_readToString_bind {β : Type} (path : String) (f : Option String → FileM β) :
    (readToString path >>= f).run env s = (f (readString s path)).run env s := rfl

@[simp] theorem run_reading (f : HostFiles → Except AnyhowError α) : (reading f).run env s = (f s, s) := rfl

theorem reading_ok {f : HostFiles → Except AnyhowError α} {a : α} :
    (reading f).run env s = (.ok a, t) ↔ f s = .ok a ∧ s = t := by
  rw [reading, Prod.mk.injEq]

theorem reading_error {f : HostFiles → Except AnyhowError α} {e : AnyhowError} :
    (reading f).run env s = (.error e, t) ↔ f s = .error e ∧ s = t := by
  rw [reading, Prod.mk.injEq]

theorem confined_reading {T : String → Prop} (f : HostFiles → Except AnyhowError α) : Action.Confined T (reading f) :=
  fun _ _ _ _ => rfl

theorem confined_io {T : String → Prop} {o : Op String Content} (h : ∀ p ∈ o.changes, T p) : Action.Confined T (io o) :=
  (Action.confined_perform h).mapError

theorem confined_context {T : String → Prop} {m : FileM α} {text : String} (h : Action.Confined T m) :
    Action.Confined T (context m text) := h.mapError

/-- A rename that fails changes nothing. -/
theorem rename_error {src dst : String} {e : AnyhowError}
    (h : (io (.rename src dst)).run env s = (.error e, t)) : t = s := by
  obtain ⟨_, h, _⟩ := Action.mapError_error.1 h
  exact Action.perform_rename_error h

/-- A replaced file has the new content, and at most the temporary file changes besides. -/
theorem replace_ok {temp path : String} {c : Content} {writeText renameText : String} {a : Unit}
    (h : (replace temp path c writeText renameText).run env s = (.ok a, t)) :
    t path = some c ∧ ∀ p, p ≠ path → p ≠ temp → t p = s p := by
  obtain ⟨_, hr⟩ := io_bind_ok.1 h
  obtain ⟨_, rfl⟩ := io_ok.1 (context_ok.1 hr)
  refine ⟨by simp [Op.effect], fun p hp ht => ?_⟩
  simp [Op.effect, hp, ht]

end FileM

end LinuxPatchApi
