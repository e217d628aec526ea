/-
The whitelist file as the lines that it lists: the entry of each line, which does not depend on the name service for a
line that was appended, and what a load finds and a write leaves.
-/
import LinuxPatchApi.Auth.WhitelistEdits
import LinuxPatchApi.Rewrites
import LinuxPatchApi.Lib.Search

namespace LinuxPatchApi.Auth

open LinuxPatchApi.Packages Disk FileM

/-! ## The entries of lines -/

/-- The entry of a line; a line that does not parse has none. -/
def entryOf (lookup : Lookup) (line : String) : Option WhitelistEntry :=
  match parseEntry lookup line with
  | .ok entry => entry
  | .error _ => none

/-- An entry that a name service has answered for. -/
def WhitelistEntry.named : WhitelistEntry → Bool
  | .hostname _ _ => true
  | .ip _ | .cidr _ _ => false

/-- A line that `append_entry` takes, and its entry. -/
structure Appendable (entryStr : String) (entry : WhitelistEntry) : Prop where
  trimmed : Text.trim entryStr = entryStr
  parsed : parseAppended entryStr = .ok entry

section Lines

variable {lookup : Lookup} {entryStr line : String} {entry : WhitelistEntry}

theorem parseOctet_digit {s : String} {a : UInt8} (h : Ipv4Addr.parseOctet s = some a) :
    ∃ c cs, s.toList = c :: cs ∧ Text.isAsciiDigit c = true := by
  unfold Ipv4Addr.parseOctet at h
  rcases hs : s.toList with _ | ⟨c, cs⟩
  · rw [hs] at h
    cases h
  refine ⟨c, cs, rfl, ?_⟩
  rw [hs] at h
  split at h
  · cases h
  · cases h
  · split at h
    · obtain ⟨n, hn, _⟩ := Option.map_eq_some_iff.1 h
      obtain ⟨hvalue, _⟩ := Option.filter_eq_some_iff.1 hn
      by_contra hc
      rw [Text.digitsValue, if_neg hc] at hvalue
      cases hvalue
    · cases h

theorem parse_digit {s : String} {ip : Ipv4Addr} (h : Ipv4Addr.parse s = some ip) :
    ∃ c cs, s.toList = c :: cs ∧ Text.isAsciiDigit c = true := by
  obtain ⟨p, ps, heq, hprefix, _⟩ := Text.splitChars_cases '.' s.toList
  unfold Ipv4Addr.parse Text.split at h
  rw [heq] at h
  split at h
  · next a _ _ _ hoctets =>
    have hoctet : Ipv4Addr.parseOctet (String.ofList p) = some a := by
      have hhead := congrArg List.head? hoctets
      simpa using hhead
    obtain ⟨c, cs, hcs, hdigit⟩ := parseOctet_digit hoctet
    rw [String.toList_ofList] at hcs
    obtain ⟨rest, hrest⟩ := hprefix
    exact ⟨c, cs ++ rest, by rw [← hrest, hcs, List.cons_append], hdigit⟩
  · cases h

theorem parseCidr_ok {ipStr prefixStr : String} : parseCidr entryStr ipStr prefixStr = .ok entry ↔
    ∃ ip pfx, Ipv4Addr.parse ipStr = some ip ∧ parseU8 prefixStr = .ok pfx ∧ pfx ≤ 32 ∧ entry = .cidr ip pfx := by
  unfold parseCidr parseIpv4
  rcases hip : Ipv4Addr.parse ipStr with _ | ip
  · constructor
    · intro h
      cases h
    · rintro ⟨_, _, h, _⟩
      cases h
  rcases hp : parseU8 prefixStr with e | pfx
  · constructor
    · intro h
      cases h
    · rintro ⟨_, _, _, h, _⟩
      cases h
  change (if pfx > 32 then _ else Except.ok (WhitelistEntry.cidr ip pfx)) = _ ↔ _
  split
  · next hlarge =>
    constructor
    · intro h
      cases h
    · rintro ⟨_, _, _, h, hle, _⟩
      cases h
      exact absurd hle (UInt8.not_le.2 hlarge)
  · next hle =>
    constructor
    · intro h
      cases h
      exact ⟨ip, pfx, rfl, rfl, UInt8.not_lt.1 hle, rfl⟩
    · rintro ⟨_, _, hip', hp', _, rfl⟩
      cases hip'
      cases hp'
      rfl

theorem Appendable.not_named (h : Appendable entryStr entry) : entry.named = false := by
  have hp := h.parsed
  unfold parseAppended at hp
  split at hp
  · obtain ⟨_, _, _, _, _, rfl⟩ := parseCidr_ok.1 hp
    rfl
  · split at hp
    · cases hp
      rfl
    · cases hp

/-- What `append_entry` takes begins with a digit. -/
theorem Appendable.digit (h : Appendable entryStr entry) :
    ∃ c cs, entryStr.toList = c :: cs ∧ Text.isAsciiDigit c = true := by
  have hp := h.parsed
  unfold parseAppended at hp
  split at hp
  · next ipStr prefixStr hsplit =>
    obtain ⟨ip, _, hip, _⟩ := parseCidr_ok.1 hp
    obtain ⟨c, cs, hcs, hdigit⟩ := parse_digit hip
    obtain ⟨rest, hrest⟩ := Text.splitOnce_isPrefix hsplit
    exact ⟨c, cs ++ rest, by rw [← hrest, hcs, List.cons_append], hdigit⟩
  · unfold parseIpv4 at hp
    rcases hip : Ipv4Addr.parse entryStr with _ | ip
    · rw [hip] at hp
      cases hp
    · exact parse_digit hip

/-- The line of an append is no comment, and every reload takes the same entry from it. -/
theorem Appendable.parseEntry_eq (h : Appendable entryStr entry) : parseEntry lookup entryStr = .ok (some entry) := by
  obtain ⟨c, cs, hcs, hdigit⟩ := h.digit
  have hnonempty : entryStr.isEmpty = false := by
    rw [Bool.eq_false_iff, ne_eq, String.isEmpty_iff]
    rintro rfl
    cases hcs
  have hcomment : Text.startsWith entryStr "#" = false := by
    rw [Text.startsWith, hcs]
    show ('#' == c && _) = false
    rw [Bool.and_eq_false_iff]
    left
    rw [beq_eq_false_iff_ne]
    rintro rfl
    cases hdigit
  have hp := h.parsed
  unfold parseAppended at hp
  unfold parseEntry
  rw [h.trimmed]
  simp only [hnonempty, hcomment, Bool.or_self, Bool.false_eq_true, if_false]
  split at hp
  · rw [hp]
    rfl
  · unfold parseIpv4 at hp
    rcases hip : Ipv4Addr.parse entryStr with _ | ip
    · rw [hip] at hp
      cases hp
    · rw [hip] at hp
      cases hp
      rfl

theorem entryOf_eq : entryOf lookup line = some entry ↔ parseEntry lookup line = .ok (some entry) := by
  unfold entryOf
  split <;> simp_all

/-- An address or a subnet is the entry of a line whatever the name service answers. -/
theorem entryOf_of_not_named {lookup' : Lookup} (hnamed : entry.named = false)
    (h : entryOf lookup line = some entry) : entryOf lookup' line = some entry := by
  rw [entryOf_eq] at h ⊢
  unfold parseEntry at h ⊢
  dsimp only at h ⊢
  split at h
  · cases h
  · next hline =>
    rw [if_neg hline]
    split at h
    · exact h
    · split at h
      · exact h
      · split at h
        · cases h
          cases hnamed
        · cases h

end Lines

/-! ## What the file lists -/

/-- The lines of the file; none if it is missing or cannot be loaded. -/
def fileLines (y : WhitelistYaml) (s : HostFiles) (path : String) : List String :=
  match loadConfig y s path with
  | .ok lines => lines
  | .error _ => []

/-- How often lines list an entry. -/
def listings (lookup : Lookup) (lines : List String) (entry : WhitelistEntry) : ℕ :=
  (lines.map (entryOf lookup)).count (some entry)

/-- What is written is read back. -/
def WhitelistYaml.RoundTrip (y : WhitelistYaml) : Prop :=
  ∀ lines text, y.serialize lines = .ok text → y.parse text = .ok lines

section FileLines

open WhitelistManager

variable {y : WhitelistYaml} {lookup : Lookup} {env : HostSurroundings} {s t : HostFiles} {path entryStr : String}
  {lines lines' : List String} {entry e : WhitelistEntry} {entries : Finset WhitelistEntry}

theorem listings_mono (h : lines <+: lines') : listings lookup lines e ≤ listings lookup lines' e :=
  (h.map (entryOf lookup)).sublist.count_le _

theorem listings_append (h : Appendable entryStr entry) :
    listings lookup (lines ++ [entryStr]) e = listings lookup lines e + if entry = e then 1 else 0 := by
  have hentry : entryOf lookup entryStr = some entry := entryOf_eq.2 h.parseEntry_eq
  rw [listings, List.map_append, List.count_append, List.map_singleton, hentry, List.count_singleton]
  simp only [listings, beq_iff_eq, Option.some.injEq]

theorem listings_pos : 0 < listings lookup lines e ↔ ∃ line ∈ lines, entryOf lookup line = some e := by
  rw [listings, List.count_pos_iff, List.mem_map]

theorem listings_pos_of_not_named {lookup' : Lookup} (hnamed : e.named = false) (h : 0 < listings lookup lines e) :
    0 < listings lookup' lines e := by
  obtain ⟨line, hline, he⟩ := listings_pos.1 h
  exact listings_pos.2 ⟨line, hline, entryOf_of_not_named hnamed he⟩

/-- The entries in memory are those of the lines. -/
theorem mem_parseEntries : ∀ {lines : List String} {entries : Finset WhitelistEntry},
    parseEntries lookup lines = .ok entries → (e ∈ entries ↔ ∃ line ∈ lines, entryOf lookup line = some e)
  | [], entries, h => by
    cases h
    simp
  | line :: lines, entries, h => by
    unfold parseEntries at h
    rcases hline : parseEntry lookup line with err | found
    · rw [hline] at h
      cases h
    rcases hrest : parseEntries lookup lines with err | rest
    · rw [hline, hrest] at h
      cases h
    have hlater : e ∈ rest ↔ ∃ l ∈ lines, entryOf lookup l = some e := mem_parseEntries hrest
    have hfound : entryOf lookup line = found := by rw [entryOf, hline]
    rw [hline, hrest] at h
    rw [List.exists_mem_cons_iff, hfound, ← hlater]
    cases found with
    | none =>
      cases h
      simp
    | some first =>
      cases h
      rw [Finset.mem_insert, Option.some.injEq, eq_comm]

/-- What is in memory after a load is listed by the file. -/
theorem loadEntries_listed (h : loadEntries y lookup s path = .ok entries) (he : e ∈ entries) :
    0 < listings lookup (fileLines y s path) e := by
  unfold loadEntries at h
  unfold fileLines
  split at h
  · cases h
  · next hconfig =>
    rw [hconfig]
    exact listings_pos.2 ((mem_parseEntries h).1 he)

theorem fileLines_congr (h : t path = s path) : fileLines y t path = fileLines y s path := by
  simp only [fileLines, loadConfig, readString, h]

theorem currentLines_ok (h : (currentLines y path).run env s = (.ok lines, t)) :
    t = s ∧ lines = fileLines y s path := by
  unfold currentLines at h
  rw [Action.run_content_bind] at h
  unfold fileLines
  split at h
  · next hnone =>
    cases h
    rw [loadConfig, readString, hnone]
    exact ⟨rfl, rfl⟩
  · obtain ⟨hload, rfl⟩ := reading_ok.1 (context_ok.1 h)
    rw [hload]
    exact ⟨rfl, rfl⟩

/-- A write that succeeds leaves the lines in the file. -/
theorem writeLines_ok (hround : y.RoundTrip) (h : (writeLines y path lines).run env s = (.ok (), t)) :
    t path ≠ none ∧ fileLines y t path = lines := by
  obtain ⟨_, u, _, h⟩ := Action.bind_ok.1 h
  split at h
  · cases h
  · next yaml hyaml =>
    obtain ⟨_, v, htemp, h⟩ := Action.bind_ok.1 h
    obtain ⟨_, htemp⟩ := io_bind_ok.1 htemp
    obtain ⟨_, htemp⟩ := io_bind_ok.1 htemp
    obtain ⟨_, rfl⟩ := io_ok.1 (context_ok.1 htemp)
    obtain ⟨_, rfl⟩ := io_ok.1 (context_ok.1 h)
    constructor
    · simp [Op.effect]
    · simp [fileLines, loadConfig, readString, Op.effect, hround lines yaml hyaml]

/-- The directory is there or can be made. -/
def DirectoryReady (env : HostSurroundings) (path : String) : Prop :=
  ∀ parent, Paths.parent path = some parent → env.dirExists parent = false → env.outcome (.createDirAll parent) = .done

theorem ensureDirectory_ok {a : Unit} :
    (ensureDirectory path).run env s = (.ok a, t) ↔ DirectoryReady env path ∧ s = t := by
  unfold ensureDirectory DirectoryReady
  cases Paths.parent path with
  | none => simp
  | some parent =>
    simp only [Action.run_dirExists_bind]
    cases hd : env.dirExists parent with
    | true => simp [hd]
    | false => simp [context_ok, io_ok, Action.Succeeds, Op.refusal, Op.effect, hd]

def whitelistTemp (path : String) : String := Paths.withExtension path "tmp"

def appendTexts (path : String) : RewriteTexts where
  create := "Failed to create temp whitelist file: " ++ whitelistTemp path
  write := "Failed to write whitelist data to: " ++ whitelistTemp path
  flush := "Failed to flush whitelist data to: " ++ whitelistTemp path
  rename := "Failed to atomically rename whitelist temp file " ++ whitelistTemp path ++ " to " ++ path

theorem writeLines_eq : writeLines y path lines = ensureDirectory path >>= fun _ =>
    match y.serialize lines with
    | .error e => Action.fail ((anyhow e).context "Failed to serialize whitelist config")
    | .ok yaml => replaceNew (whitelistTemp path) path 0o666 (appendTexts path) yaml := by
  unfold writeLines
  refine congrArg _ (funext fun _ => ?_)
  cases y.serialize lines with
  | error e => rfl
  | ok yaml =>
    unfold writeTemp replaceNew
    simp only [bind_assoc]
    rfl

/-- Every operation of a write is carried out. -/
structure CarriedOut (y : WhitelistYaml) (env : HostSurroundings) (s : HostFiles) (path : String)
    (lines : List String) : Prop where
  directory : DirectoryReady env path
  fresh : s (whitelistTemp path) = none
  created : env.outcome (.createNew (whitelistTemp path) 0o666 (.text "")) = .done
  finishes : ∃ text, y.serialize lines = .ok text ∧ Finishes env (whitelistTemp path) path text

theorem carriedOut_iff : (∃ t, (writeLines y path lines).run env s = (.ok (), t)) ↔ CarriedOut y env s path lines := by
  rw [writeLines_eq]
  constructor
  · rintro ⟨t, h⟩
    obtain ⟨_, u, hdir, h⟩ := Action.bind_ok.1 h
    obtain ⟨hready, rfl⟩ := ensureDirectory_ok.1 hdir
    cases hyaml : y.serialize lines with
    | error e =>
      rw [hyaml] at h
      cases h
    | ok yaml =>
      rw [hyaml] at h
      obtain ⟨hfresh, hcreated, hfinishes, _⟩ := replaceNew_ok.1 h
      exact ⟨hready, hfresh, hcreated, yaml, hyaml, hfinishes⟩
  · rintro ⟨hready, hfresh, hcreated, yaml, hyaml, hfinishes⟩
    obtain ⟨t, hreplaced⟩ : ∃ t, (replaceNew (whitelistTemp path) path 0o666 (appendTexts path) yaml).run env s =
        (.ok (), t) := ⟨_, replaceNew_ok.2 ⟨hfresh, hcreated, hfinishes, rfl⟩⟩
    refine ⟨t, Action.bind_ok.2 ⟨(), s, ensureDirectory_ok.2 ⟨hready, rfl⟩, ?_⟩⟩
    rw [hyaml]
    exact hreplaced

/-- A temporary file that is there is not written. -/
theorem writeTemp_there {temp yaml : String} {r : Except AnyhowError Unit} (hthere : s temp ≠ none)
    (h : (writeTemp temp yaml).run env s = (r, t)) : t = s ∧ ∃ err, r = .error err := by
  have hrefusal : Op.refusal s (.createNew temp 0o666 (.text "")) = some "File exists (os error 17)" := if_neg hthere
  simp only [writeTemp, Action.run_bind, context, io, Action.run_mapError, Action.run_perform, hrefusal] at h
  cases h
  exact ⟨rfl, _, rfl⟩

/-- A write that fails leaves a file that is there, even one that would be its own temporary file. -/
theorem writeLines_failed {err : AnyhowError} (hthere : s path ≠ none)
    (h : (writeLines y path lines).run env s = (.error err, t)) : t path = s path := by
  by_cases hpath : Paths.withExtension path "tmp" = path
  · rcases Action.bind_error.1 h with h | ⟨_, u, hd, h⟩
    · exact confined_ensureDirectory.kept h not_false
    have hu : u path = s path := confined_ensureDirectory.kept hd not_false
    rw [← hu] at hthere ⊢
    split at h
    · cases h
      rfl
    · rw [hpath] at h
      rcases Action.bind_error.1 h with h | ⟨_, v, htemp, _⟩
      · rw [(writeTemp_there hthere h).1]
      · obtain ⟨_, err', herror⟩ := writeTemp_there hthere htemp
        cases herror
  · exact writeLines_error hpath h

theorem loadEntries_there (h : loadEntries y lookup s path = .ok entries) : s path ≠ none := by
  intro hnone
  rw [loadEntries, loadConfig, readString, hnone] at h
  cases h

end FileLines

end LinuxPatchApi.Auth
