/-
How `append_entry` writes the whitelist file: it prepares the text under the lock, rewrites the file through a
temporary file, and loads it again; on a well-formed file nothing but an operation of the file system can fail.
-/
import LinuxPatchApi.Auth.WhitelistAppends
import LinuxPatchApi.Auth.WhitelistDecisions

namespace LinuxPatchApi.Auth

open LinuxPatchApi.Packages Disk FileM WhitelistManager

/-! ## Addresses -/

section Addresses

variable {text : String} {ip : Ipv4Addr}

theorem parseOctet_digits {a : UInt8} (h : Ipv4Addr.parseOctet text = some a) :
    ∀ c ∈ text.toList, Text.isAsciiDigit c = true := by
  unfold Ipv4Addr.parseOctet at h
  split at h
  · cases h
  · cases h
  · split at h
    · obtain ⟨n, hn, _⟩ := Option.map_eq_some_iff.1 h
      exact Text.digitsValue_digits (Option.filter_eq_some_iff.1 hn).1
    · cases h

/-- An address has digits and dots only. -/
theorem parse_no_slash (h : Ipv4Addr.parse text = some ip) : '/' ∉ text.toList := by
  intro hslash
  have hother : '/' ≠ '.' := by decide
  obtain ⟨p, hp, hmem⟩ := Text.mem_splitChars_of_mem hother hslash
  have hoctet : ∃ a, Ipv4Addr.parseOctet (String.ofList p) = some a := by
    unfold Ipv4Addr.parse Text.split at h
    split at h
    · next hoctets =>
      have hpiece : Ipv4Addr.parseOctet (String.ofList p) ∈
          ((Text.splitChars '.' text.toList).map String.ofList).map Ipv4Addr.parseOctet :=
        List.mem_map_of_mem (List.mem_map_of_mem hp)
      rw [hoctets] at hpiece
      simp only [List.mem_cons, List.not_mem_nil, or_false] at hpiece
      rcases hpiece with hpiece | hpiece | hpiece | hpiece <;> exact ⟨_, hpiece⟩
    · cases h
  obtain ⟨a, ha⟩ := hoctet
  have hdigit := parseOctet_digits ha '/' (by rwa [String.toList_ofList])
  exact absurd hdigit (by decide)

theorem parseAppended_address (h : Ipv4Addr.parse text = some ip) : parseAppended text = .ok (.ip ip) :=
  parseAppended_cases.2 (.inr ⟨Text.splitOnce_of_not_mem (parse_no_slash h), ip, h, rfl⟩)

end Addresses

/-! ## Well-formed files -/

/-- Whatever the name service answers, a line is no error. -/
def LineWellFormed (line : String) : Prop := ∀ lookup, ∃ entry, parseEntry lookup line = .ok entry

/-- The file can be loaded, whatever the name service answers. -/
def WellFormed (y : WhitelistYaml) (s : HostFiles) (path : String) : Prop :=
  ∃ lines, loadConfig y s path = .ok lines ∧ ∀ line ∈ lines, LineWellFormed line

section WellFormed

variable {y : WhitelistYaml} {s t : HostFiles} {path entryStr text : String} {lines : List String}
  {entry : WhitelistEntry} {lookup : Lookup}

theorem parseEntries_wellFormed (lookup : Lookup) : ∀ {lines : List String}, (∀ line ∈ lines, LineWellFormed line) →
    ∃ entries, parseEntries lookup lines = .ok entries
  | [], _ => ⟨∅, rfl⟩
  | line :: lines, h => by
    obtain ⟨entry, hentry⟩ := h line List.mem_cons_self lookup
    obtain ⟨rest, hrest⟩ := parseEntries_wellFormed lookup fun l hl => h l (List.mem_cons_of_mem _ hl)
    exact ⟨_, by rw [parseEntries, hentry, hrest]; rfl⟩

theorem WellFormed.loads (h : WellFormed y s path) (lookup : Lookup) :
    ∃ entries, loadEntries y lookup s path = .ok entries := by
  obtain ⟨lines, hconfig, hlines⟩ := h
  rw [loadEntries, hconfig]
  exact parseEntries_wellFormed lookup hlines

theorem WellFormed.config (h : WellFormed y s path) : loadConfig y s path = .ok (fileLines y s path) := by
  obtain ⟨lines, hconfig, _⟩ := h
  rw [fileLines, hconfig]

theorem WellFormed.of_mem (h : WellFormed y s path) : ∀ line ∈ fileLines y s path, LineWellFormed line := by
  obtain ⟨lines, hconfig, hlines⟩ := h
  rwa [fileLines, hconfig]

theorem Appendable.wellFormed (h : Appendable entryStr entry) : LineWellFormed entryStr :=
  fun _ => ⟨some entry, h.parseEntry_eq⟩

/-- The lines of a file that is missing or well-formed, and a new one. -/
theorem appended_wellFormed (happend : Appendable entryStr entry) (hfile : s path = none ∨ WellFormed y s path) :
    ∀ line ∈ fileLines y s path ++ [entryStr], LineWellFormed line := by
  intro line hline
  rcases List.mem_append.1 hline with hline | hline
  · rcases hfile with hnone | hwell
    · have hempty : fileLines y s path = [] := by simp [fileLines, loadConfig, readString, hnone]
      rw [hempty] at hline
      cases hline
    · exact hwell.of_mem line hline
  · rw [List.mem_singleton.1 hline]
    exact happend.wellFormed

theorem WellFormed.there (h : WellFormed y s path) : s path ≠ none := by
  obtain ⟨_, hentries⟩ := h.loads fun _ => .error ""
  exact loadEntries_there hentries

/-- Whether a line is an error does not depend on the name service. -/
theorem lineWellFormed_of_ok {line : String} {found : Option WhitelistEntry} (h : parseEntry lookup line = .ok found) :
    LineWellFormed line := by
  intro lookup'
  unfold parseEntry at h ⊢
  dsimp only at h ⊢
  split
  · exact ⟨none, rfl⟩
  · next hline =>
    rw [if_neg hline] at h
    cases hsplit : Text.splitOnce (Text.trim line) "/" with
    | some parts =>
      rw [hsplit] at h
      exact ⟨found, h⟩
    | none =>
      cases hip : Ipv4Addr.parse (Text.trim line) with
      | some ip => exact ⟨_, rfl⟩
      | none =>
        cases hname : resolveHostname lookup' (Text.trim line) with
        | ok resolved => exact ⟨_, rfl⟩
        | error e => exact ⟨none, rfl⟩

theorem lines_of_parseEntries : ∀ {lines : List String} {entries : Finset WhitelistEntry},
    parseEntries lookup lines = .ok entries → ∀ line ∈ lines, LineWellFormed line
  | [], _, _ => by simp
  | line :: lines, entries, h => by
    unfold parseEntries at h
    cases hline : parseEntry lookup line with
    | error e =>
      rw [hline] at h
      cases h
    | ok found =>
      cases hrest : parseEntries lookup lines with
      | error e =>
        rw [hline, hrest] at h
        cases h
      | ok rest => exact List.forall_mem_cons.2 ⟨lineWellFormed_of_ok hline, lines_of_parseEntries hrest⟩

theorem wellFormed_of_loads {entries : Finset WhitelistEntry} (h : loadEntries y lookup s path = .ok entries) :
    WellFormed y s path := by
  unfold loadEntries at h
  split at h
  · cases h
  · next lines hconfig => exact ⟨lines, hconfig, lines_of_parseEntries h⟩

theorem WellFormed.congr (h : WellFormed y t path) (hsame : t path = s path) : WellFormed y s path := by
  unfold WellFormed loadConfig readString at *
  rwa [hsame] at h

/-- A file that holds the text of well-formed lines. -/
theorem wellFormed_of_text (hround : y.RoundTrip) (htext : y.serialize lines = .ok text)
    (hfile : t path = some (.text text)) (hlines : ∀ line ∈ lines, LineWellFormed line) :
    WellFormed y t path ∧ fileLines y t path = lines := by
  have hconfig : loadConfig y t path = .ok lines := by
    simp only [loadConfig, readString, hfile, hround lines text htext]
  refine ⟨⟨lines, hconfig, hlines⟩, ?_⟩
  rw [fileLines, hconfig]

end WellFormed

/-! ## The append as a rewrite -/

section Append

variable {y : WhitelistYaml} {lookup : Lookup} {m : WhitelistManager} {locked : Except String Unit}
  {env : HostSurroundings} {s t : HostFiles} {path entryStr ipOrCidr text : String} {entry : WhitelistEntry}

/-- From the lock to the new text of the file. -/
def prepareAppend (y : WhitelistYaml) (path : String) (locked : Except String Unit) (entryStr : String) :
    FileM String := do
  acquireLock path locked
  let lines ← currentLines y path
  ensureDirectory path
  match y.serialize (lines ++ [entryStr]) with
  | .error e => Action.fail ((anyhow e).context "Failed to serialize whitelist config")
  | .ok yaml => return yaml

/-- What `append_entry` does for an entry that is not in memory. -/
def rewriteAppend (y : WhitelistYaml) (lookup : Lookup) (path : String) (locked : Except String Unit)
    (entryStr : String) : FileM Appended :=
  rewrite (prepareAppend y path locked entryStr) (whitelistTemp path) path 0o666 (appendTexts path)
    (reloadAfter y path lookup)

theorem appendLine_eq (he : entry ∉ m.entries) :
    appendLine y lookup m locked entryStr entry = rewriteAppend y lookup m.configPath locked entryStr := by
  unfold appendLine rewriteAppend rewrite prepareAppend
  rw [if_neg he]
  simp only [bind_assoc]
  refine congrArg _ (funext fun _ => congrArg _ (funext fun lines => ?_))
  rw [writeLines_eq, bind_assoc]
  refine congrArg _ (funext fun _ => ?_)
  cases y.serialize (lines ++ [entryStr]) with
  | error e => rfl
  | ok yaml =>
    simp only [pure_bind]
    rfl

/-- A valid entry is a duplicate by the memory, or it is written. -/
theorem appendEntry_eq (h : parseAppended (Text.trim ipOrCidr) = .ok entry) :
    appendEntry y lookup m locked ipOrCidr =
      if entry ∈ m.entries then pure .duplicate
      else rewriteAppend y lookup m.configPath locked (Text.trim ipOrCidr) := by
  have hnonempty : (Text.trim ipOrCidr).isEmpty = false := by
    obtain ⟨c, cs, hcs, _⟩ := (trim_appendable h).digit
    rw [Bool.eq_false_iff, ne_eq, String.isEmpty_iff]
    intro hempty
    rw [hempty] at hcs
    cases hcs
  unfold appendEntry
  simp only [hnonempty, h, Bool.false_eq_true, if_false]
  split
  · rfl
  · next he => exact appendLine_eq he

theorem lastChar_lock : Paths.lastChar (path ++ ".lock") = some 'k' := Paths.lastChar_append path (by decide)

theorem lock_ne_temp : path ++ ".lock" ≠ whitelistTemp path :=
  (Paths.withExtension_ne lastChar_lock (by decide) (by decide) (by decide)).symm

theorem confined_prepareAppend :
    Action.Confined (· = path ++ ".lock") (prepareAppend y path locked entryStr) := by
  refine confined_acquireLock.bind fun _ => (confined_currentLines.mono fun _ h => h.elim).bind fun lines =>
    (confined_ensureDirectory.mono fun _ h => h.elim).bind fun _ => ?_
  cases y.serialize (lines ++ [entryStr]) with
  | error e => exact Action.confined_fail _
  | ok yaml => exact Action.confined_pure _

theorem aside_append :
    Aside (prepareAppend y path locked entryStr) (whitelistTemp path) path (reloadAfter y path lookup) where
  prepare := confined_prepareAppend.mono fun p hp => by
    rw [hp]
    exact ⟨lock_ne_temp, lock_ne.symm⟩
  rest := (confined_context (confined_reading _)).bind fun _ => Action.confined_pure _

/-- The lock is granted, and the directory is there or can be made. -/
structure Prepared (env : HostSurroundings) (path : String) (locked : Except String Unit) : Prop where
  lockFile : env.outcome (.write (path ++ ".lock") (.text "")) = .done
  lock : locked = .ok ()
  directory : DirectoryReady env path

theorem acquireLock_ok {a : Unit} : (acquireLock path locked).run env s = (.ok a, t) ↔
    env.outcome (.write (path ++ ".lock") (.text "")) = .done ∧ locked = .ok () ∧
      t = Function.update s (path ++ ".lock") (some (.text "")) := by
  rw [acquireLock, io_bind_ok, context_ok, reading_ok]
  simp only [Action.Succeeds, Op.refusal, Op.effect, true_and]
  refine and_congr_right fun _ => ?_
  cases locked with
  | error e => exact iff_of_false (fun h => by cases h.1) fun h => by cases h.1
  | ok u => exact and_congr (iff_of_true rfl rfl) eq_comm

/-- The lines of a file that is missing or well-formed. -/
theorem currentLines_run (hfile : s path = none ∨ WellFormed y s path) :
    (currentLines y path).run env s = (.ok (fileLines y s path), s) := by
  unfold currentLines
  rw [Action.run_content_bind]
  rcases hfile with hnone | hwell
  · simp [hnone, fileLines, loadConfig, readString]
  · obtain ⟨c, hc⟩ := Option.ne_none_iff_exists'.1 hwell.there
    rw [hc]
    exact context_ok.2 (reading_ok.2 ⟨hwell.config, rfl⟩)

/-- The preparation on a file that is missing or well-formed. -/
theorem prepareAppend_ok (hfile : s path = none ∨ WellFormed y s path) :
    (prepareAppend y path locked entryStr).run env s = (.ok text, t) ↔
      Prepared env path locked ∧ y.serialize (fileLines y s path ++ [entryStr]) = .ok text ∧
        t = Function.update s (path ++ ".lock") (some (.text "")) := by
  have hsame : Function.update s (path ++ ".lock") (some (.text "")) path = s path := Function.update_of_ne lock_ne _ _
  have hfile' : Function.update s (path ++ ".lock") (some (.text "")) path = none ∨
      WellFormed y (Function.update s (path ++ ".lock") (some (.text ""))) path := by
    unfold WellFormed
    simp only [loadConfig, readString, hsame]
    exact hfile
  unfold prepareAppend
  rw [Action.bind_ok]
  constructor
  · rintro ⟨_, u, hlock, h⟩
    obtain ⟨hlockFile, hlocked, rfl⟩ := acquireLock_ok.1 hlock
    obtain ⟨lines, v, hlines, h⟩ := Action.bind_ok.1 h
    rw [currentLines_run hfile', fileLines_congr hsame] at hlines
    cases hlines
    obtain ⟨_, w, hdir, h⟩ := Action.bind_ok.1 h
    obtain ⟨hready, rfl⟩ := ensureDirectory_ok.1 hdir
    cases hyaml : y.serialize (fileLines y s path ++ [entryStr]) with
    | error e =>
      rw [hyaml] at h
      cases h
    | ok yaml =>
      rw [hyaml] at h
      cases h
      exact ⟨⟨hlockFile, hlocked, hready⟩, rfl, rfl⟩
  · rintro ⟨⟨hlockFile, hlocked, hready⟩, hyaml, rfl⟩
    refine ⟨(), _, acquireLock_ok.2 ⟨hlockFile, hlocked, rfl⟩, Action.bind_ok.2 ⟨_, _, currentLines_run hfile', ?_⟩⟩
    refine Action.bind_ok.2 ⟨(), _, ensureDirectory_ok.2 ⟨hready, rfl⟩, ?_⟩
    rw [fileLines_congr hsame, hyaml]
    rfl

/-- What was prepared is the text of the lines of the file and the new one. -/
theorem prepareAppend_text (h : (prepareAppend y path locked entryStr).run env s = (.ok text, t)) :
    (s path = none ∨ loadConfig y s path = .ok (fileLines y s path)) ∧
      y.serialize (fileLines y s path ++ [entryStr]) = .ok text := by
  obtain ⟨_, u, hlock, h⟩ := Action.bind_ok.1 h
  obtain ⟨_, _, rfl⟩ := acquireLock_ok.1 hlock
  have hsame : Function.update s (path ++ ".lock") (some (.text "")) path = s path := Function.update_of_ne lock_ne _ _
  obtain ⟨lines, v, hlines, h⟩ := Action.bind_ok.1 h
  obtain ⟨rfl, rfl⟩ := currentLines_ok hlines
  obtain ⟨_, w, hdir, h⟩ := Action.bind_ok.1 h
  rw [fileLines_congr hsame] at h
  constructor
  · unfold currentLines at hlines
    rw [Action.run_content_bind, hsame] at hlines
    cases hfile : s path with
    | none => exact .inl rfl
    | some c =>
      rw [hfile] at hlines
      obtain ⟨hconfig, _⟩ := reading_ok.1 (context_ok.1 hlines)
      rw [fileLines_congr hsame, loadConfig, readString, hsame] at hconfig
      exact .inr hconfig
  · cases hyaml : y.serialize (fileLines y s path ++ [entryStr]) with
    | error e =>
      rw [hyaml] at h
      cases h
    | ok yaml =>
      rw [hyaml] at h
      cases h
      rfl

theorem reloadAfter_ok {a : Appended} : (reloadAfter y path lookup).run env s = (.ok a, t) ↔
    ∃ entries, loadEntries y lookup s path = .ok entries ∧ a = .reloaded entries ∧ t = s := by
  unfold reloadAfter
  rw [Action.bind_ok]
  constructor
  · rintro ⟨entries, u, hload, h⟩
    obtain ⟨hentries, rfl⟩ := reading_ok.1 (context_ok.1 hload)
    cases h
    exact ⟨entries, hentries, rfl, rfl⟩
  · rintro ⟨entries, hentries, rfl, rfl⟩
    exact ⟨entries, _, context_ok.2 (reading_ok.2 ⟨hentries, rfl⟩), rfl⟩

/-- Every operation of the append is carried out. -/
structure Writes (y : WhitelistYaml) (env : HostSurroundings) (s : HostFiles) (path : String)
    (locked : Except String Unit) (entryStr : String) : Prop where
  prepared : Prepared env path locked
  fresh : s (whitelistTemp path) = none
  created : env.outcome (.createNew (whitelistTemp path) 0o666 (.text "")) = .done
  finishes : ∃ text, y.serialize (fileLines y s path ++ [entryStr]) = .ok text ∧
    Finishes env (whitelistTemp path) path text

/-- The files after an append. -/
def appendedFiles (s : HostFiles) (path text : String) : HostFiles :=
  Function.update (Function.update (Function.update s (path ++ ".lock") (some (.text ""))) (whitelistTemp path) none)
    path (some (.text text))

theorem appendedFiles_wellFormed (hround : y.RoundTrip) (happend : Appendable entryStr entry)
    (hfile : s path = none ∨ WellFormed y s path)
    (htext : y.serialize (fileLines y s path ++ [entryStr]) = .ok text) :
    WellFormed y (appendedFiles s path text) path ∧
      fileLines y (appendedFiles s path text) path = fileLines y s path ++ [entryStr] :=
  wellFormed_of_text hround htext (Function.update_self ..) (appended_wellFormed happend hfile)

/-- On a file that is missing or well-formed an append works exactly when every operation is carried out. -/
theorem rewriteAppend_ok (lookup : Lookup) (hround : y.RoundTrip) (happend : Appendable entryStr entry)
    (hfile : s path = none ∨ WellFormed y s path) :
    (∃ a, (rewriteAppend y lookup path locked entryStr).run env s = (.ok a, t)) ↔
      Writes y env s path locked entryStr ∧
        ∃ text, y.serialize (fileLines y s path ++ [entryStr]) = .ok text ∧ t = appendedFiles s path text := by
  have hfresh : Function.update s (path ++ ".lock") (some (.text "")) (whitelistTemp path) = s (whitelistTemp path) :=
    Function.update_of_ne lock_ne_temp.symm _ _
  constructor
  · rintro ⟨a, h⟩
    obtain ⟨text, u, hprepare, hnone, hcreated, hfinishes, hrest⟩ := rewrite_ok.1 h
    obtain ⟨hprepared, htext, rfl⟩ := (prepareAppend_ok hfile).1 hprepare
    obtain ⟨entries, _, _, rfl⟩ := reloadAfter_ok.1 hrest
    exact ⟨⟨hprepared, hfresh.symm.trans hnone, hcreated, text, htext, hfinishes⟩, text, htext, rfl⟩
  · rintro ⟨⟨hprepared, hnone, hcreated, text', htext', hfinishes⟩, text, htext, rfl⟩
    obtain rfl := Except.ok.inj (htext.symm.trans htext')
    obtain ⟨entries, hentries⟩ := (appendedFiles_wellFormed hround happend hfile htext).1.loads lookup
    exact ⟨_, rewrite_ok.2 ⟨text, _, (prepareAppend_ok hfile).2 ⟨hprepared, htext, rfl⟩, hfresh.trans hnone, hcreated,
      hfinishes, reloadAfter_ok.2 ⟨entries, hentries, rfl, rfl⟩⟩⟩

/-- An append that works finds no temporary file, and a file that is missing or well-formed. -/
theorem rewriteAppend_needs {a : Appended} (hround : y.RoundTrip)
    (h : (rewriteAppend y lookup path locked entryStr).run env s = (.ok a, t)) :
    s (whitelistTemp path) = none ∧ (s path = none ∨ WellFormed y s path) := by
  obtain ⟨text, u, hprepare, hnone, _, _, hrest⟩ := rewrite_ok.1 h
  have htemp : u (whitelistTemp path) = s (whitelistTemp path) :=
    confined_prepareAppend.kept hprepare lock_ne_temp.symm
  refine ⟨htemp.symm.trans hnone, ?_⟩
  obtain ⟨hfile, htext⟩ := prepareAppend_text hprepare
  refine hfile.imp_right fun hconfig => ⟨_, hconfig, fun line hline => ?_⟩
  obtain ⟨entries, hentries, _, rfl⟩ := reloadAfter_ok.1 hrest
  obtain ⟨lines, hloaded, hlines⟩ := wellFormed_of_loads hentries
  simp only [loadConfig, readString, Function.update_self, hround _ text htext] at hloaded
  cases hloaded
  exact hlines line (List.mem_append_left _ hline)

/-- Nothing else is appended than a valid entry. -/
theorem appendEntry_valid {a : Appended} (h : (appendEntry y lookup m locked ipOrCidr).run env s = (.ok a, t)) :
    ∃ entry, parseAppended (Text.trim ipOrCidr) = .ok entry := by
  unfold appendEntry at h
  dsimp only at h
  split at h
  · cases h
  · cases hparse : parseAppended (Text.trim ipOrCidr) with
    | ok entry => exact ⟨entry, rfl⟩
    | error e =>
      rw [hparse] at h
      cases h

end Append

end LinuxPatchApi.Auth
