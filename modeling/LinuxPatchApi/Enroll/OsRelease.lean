/-
The readers of `/etc/os-release`: what the agent reports when it registers, and what it takes for its distro and its
suite when it asks for a repository. All of them keep what the last line with a key says.
-/
import LinuxPatchApi.Enroll.Identity
import LinuxPatchApi.Enroll.DistroId
import LinuxPatchApi.Lib.Words
import LinuxPatchApi.Lib.Overwrite

namespace LinuxPatchApi.Enroll

open LinuxPatchApi.Packages Text Overwrite

/-! ## The readers -/

/-- A line for a reader of two keys; the last line with a key counts. -/
def twoKeys (first second : String) (acc : Option String × Option String) (line : String) :
    Option String × Option String :=
  match splitOnce (trim line) "=" with
  | none => acc
  | some (key, value) =>
    if key = first then (some (unquote value), acc.2)
    else if key = second then (acc.1, some (unquote value))
    else acc

def distroIdLine (acc : Option String × Option String) (line : String) : Option String × Option String :=
  twoKeys "ID" "ID_LIKE" acc line

/-- The id if there is one, or else the first of those that it is like. -/
def distroIdFrom (id idLike : Option String) : Except AnyhowError String :=
  match id.filter fun distro => !distro.isEmpty with
  | some distro => .ok distro
  | none => match idLike.bind fun like => (splitWhitespace like).head? with
    | some first => .ok first
    | none => .error (anyhow "Could not determine distro ID from /etc/os-release (no ID or ID_LIKE field)")

def detectDistroId (read : Except AnyhowError String) : Except AnyhowError String :=
  match read with
  | .error e => .error (e.context "Failed to read /etc/os-release — cannot determine distro for repo health check")
  | .ok content =>
    let found := (lines content).foldl distroIdLine (none, none)
    distroIdFrom found.1 found.2

def versionIdLine (acc : Option String) (line : String) : Option String :=
  match splitOnce (trim line) "=" with
  | none => acc
  | some (key, value) => if key = "VERSION_ID" then some (unquote value) else acc

def aptSuite (ver : String) : Option String :=
  if ver == "24.04" || contains ver "24.04" then some "u2404"
  else if ver == "22.04" || contains ver "22.04" then some "u2204"
  else if ver == "26.04" || contains ver "26.04" then some "u2604"
  else if ver == "12" || startsWith ver "12." then some "debian12"
  else if ver == "13" || startsWith ver "13." then some "debian13"
  else none

def detectAptSuiteForRepoConfig (read : Except AnyhowError String) : Option String := do
  let content ← read.toOption
  let versionId ← (lines content).foldl versionIdLine none
  aptSuite (toAsciiLowercase versionId)

/-- The URL that `fetch_repo_config` asks the manager for. -/
def repoConfigUrl (managerUrl : String) (read : Except AnyhowError String) : Except AnyhowError String :=
  match detectDistroIdForRepoConfig read with
  | .error e => .error e
  | .ok distroId => .ok (managerUrl ++ "/api/v1/pki/repo-config?distro_id=" ++ distroId ++
      match detectAptSuiteForRepoConfig read with
      | some codename => "&codename=" ++ codename
      | none => "")

/-! ## The last line with a key -/

/-- What a line sets the value of the key to, if it does. -/
def fieldOf (key line : String) : Option (Option String) :=
  match splitOnce (trim line) "=" with
  | none => none
  | some (k, value) => if k = key then some (some (unquote value)) else none

def lastField (key content : String) : Option String := run (fieldOf key) none (lines content)

theorem foldl_twoKeys {first second : String} (h : first ≠ second) (content : String) :
    (lines content).foldl (twoKeys first second) (none, none) = (lastField first content, lastField second content) := by
  have hstep : ∀ acc line, (twoKeys first second acc line).1 = (fieldOf first line).getD acc.1 ∧
      (twoKeys first second acc line).2 = (fieldOf second line).getD acc.2 := by
    intro acc line
    unfold twoKeys fieldOf
    cases splitOnce (trim line) "=" with
    | none => exact ⟨rfl, rfl⟩
    | some kv =>
      obtain ⟨key, value⟩ := kv
      by_cases hfirst : key = first
      · subst hfirst
        simp [h]
      · by_cases hsecond : key = second <;> simp [hfirst, hsecond, Ne.symm h]
  exact Prod.ext (observe (fun acc line => (hstep acc line).1) _ _) (observe (fun acc line => (hstep acc line).2) _ _)

theorem distroIdLine_eq : distroIdLine = twoKeys "ID" "ID_LIKE" := rfl

theorem osReleaseName_eq : osReleaseName = twoKeys "NAME" "ID_LIKE" := by
  funext acc line
  unfold osReleaseName twoKeys
  cases splitOnce (trim line) "=" <;> rfl

theorem foldl_versionIdLine (content : String) :
    (lines content).foldl versionIdLine none = lastField "VERSION_ID" content := by
  refine observe (v := id) (fun acc line => ?_) _ _
  unfold versionIdLine fieldOf
  cases splitOnce (trim line) "=" with
  | none => rfl
  | some kv => by_cases hkey : kv.1 = "VERSION_ID" <;> simp [hkey]

/-! ## One reading of the file -/

theorem detailOf_cases {key detail : String} (h : detailOf key = some detail) :
    (key, detail) ∈ [("NAME", "distro"), ("ID", "name"), ("VERSION_ID", "version"), ("ID_LIKE", "id_like"),
      ("VERSION_CODENAME", "codename")] := by
  unfold detailOf at h
  split at h
  all_goals first | (obtain rfl := Option.some.inj h; simp) | cases h

theorem detailOf_injective {k k' detail : String} (h : detailOf k = some detail) (h' : detailOf k' = some detail) :
    k = k' := by
  have := detailOf_cases h
  have := detailOf_cases h'
  simp only [List.mem_cons, Prod.mk.injEq, List.not_mem_nil, or_false] at *
  grind

theorem detailOf_head {key detail : String} (h : detailOf key = some detail) : key.toList.head? ≠ some '#' := by
  have := detailOf_cases h
  simp only [List.mem_cons, Prod.mk.injEq, List.not_mem_nil, or_false] at this
  rcases this with ⟨rfl, -⟩ | ⟨rfl, -⟩ | ⟨rfl, -⟩ | ⟨rfl, -⟩ | ⟨rfl, -⟩ <;> decide

/-- A comment sets nothing. -/
theorem fieldOf_comment {key line : String} (hkey : key.toList.head? ≠ some '#')
    (h : (trim line).isEmpty = true ∨ startsWith (trim line) "#" = true) : fieldOf key line = none := by
  unfold fieldOf
  cases hsplit : splitOnce (trim line) "=" with
  | none => rfl
  | some kv =>
    obtain ⟨k, v⟩ := kv
    have htext : (trim line).toList = k.toList ++ '=' :: v.toList := by
      rw [((splitOnce_iff (c := '=')).1 hsplit).1]
      simp
    refine if_neg ?_
    rintro rfl
    rcases h with hempty | hcomment
    · rw [String.isEmpty_iff] at hempty
      simp [hempty] at htext
    · obtain ⟨rest, hrest⟩ := List.isPrefixOf_iff_prefix.1 hcomment
      have hhead : (k.toList ++ '=' :: v.toList).head? = some '#' := by
        rw [← htext, ← hrest]
        rfl
      cases hk : k.toList with
      | nil => simp [hk] at hhead
      | cons d ds =>
        rw [hk, List.cons_append, List.head?_cons] at hhead
        exact hkey (by rw [hk, List.head?_cons, hhead])

/-- A detail is what the last line with its key says. -/
theorem get?_osReleaseDetails {key detail : String} (h : detailOf key = some detail) (content : String) :
    (osReleaseDetails (some content)).get? detail = lastField key content := by
  refine observe (v := fun details : FinMap String String => details.get? detail) (fun details line => ?_) ∅ _
  unfold osDetailsLine
  split
  · next hskip => rw [fieldOf_comment (detailOf_head h) (by simpa using hskip), Option.getD_none]
  · unfold fieldOf
    cases splitOnce (trim line) "=" with
    | none => rfl
    | some kv =>
      obtain ⟨k, v⟩ := kv
      dsimp only
      by_cases hk : k = key
      · subst hk
        rw [h, if_pos rfl]
        simp [FinMap.get?_insert]
      · rw [if_neg hk, Option.getD_none]
        cases hd : detailOf k with
        | none => rfl
        | some d =>
          have hne : detail ≠ d := fun he => hk (detailOf_injective (he ▸ hd) h)
          simp [FinMap.get?_insert, hne]

/-- What a detail says in a registration. -/
def reported (content detail : String) : Option String := (osReleaseDetails (some content)).get? detail

theorem reported_eq {key detail content : String} (h : detailOf key = some detail) :
    reported content detail = lastField key content := get?_osReleaseDetails h content

/-- The distro of a name and of those that it is like. -/
def distroIdOrError (os like : String) : Except AnyhowError String :=
  match distroOf os like with
  | some distroId => .ok distroId
  | none => .error (anyhow ("Could not determine distro_id from /etc/os-release (NAME=" ++ os ++ ", ID_LIKE=" ++ like ++
      ")"))

/-- The URL for what a host has for its name, for those that it is like, and for its version. -/
def requestedUrl (managerUrl : String) (name idLike version : Option String) : Except AnyhowError String :=
  match distroIdOrError (toAsciiLowercase (name.getD "")) (toAsciiLowercase (idLike.getD "")) with
  | .error e => .error e
  | .ok distroId => .ok (managerUrl ++ "/api/v1/pki/repo-config?distro_id=" ++ distroId ++
      match version.bind fun versionId => aptSuite (toAsciiLowercase versionId) with
      | some codename => "&codename=" ++ codename
      | none => "")

section Agreement

variable (content : String)

theorem detectDistroId_eq : detectDistroId (.ok content) =
    distroIdFrom (lastField "ID" content) (lastField "ID_LIKE" content) := by
  simp only [detectDistroId, distroIdLine_eq, foldl_twoKeys (show "ID" ≠ "ID_LIKE" by decide)]

theorem repoConfigUrl_eq (managerUrl : String) : repoConfigUrl managerUrl (.ok content) =
    requestedUrl managerUrl (lastField "NAME" content) (lastField "ID_LIKE" content)
      (lastField "VERSION_ID" content) := by
  have hnames : osReleaseNames content = (lastField "NAME" content, lastField "ID_LIKE" content) := by
    rw [osReleaseNames, osReleaseName_eq, foldl_twoKeys (by decide)]
  have hos : osOf content = toAsciiLowercase ((lastField "NAME" content).getD "") := by rw [osOf, hnames]
  have hlike : likeOf content = toAsciiLowercase ((lastField "ID_LIKE" content).getD "") := by rw [likeOf, hnames]
  have hsuite : detectAptSuiteForRepoConfig (.ok content) =
      (lastField "VERSION_ID" content).bind fun versionId => aptSuite (toAsciiLowercase versionId) := by
    simp only [detectAptSuiteForRepoConfig, Except.toOption, Option.bind_eq_bind, Option.bind_some,
      foldl_versionIdLine]
  have hdetect : detectDistroIdForRepoConfig (.ok content) = distroIdOrError (osOf content) (likeOf content) := by
    unfold detectDistroIdForRepoConfig distroIdOrError
    obtain hdistro | ⟨distroId, hdistro⟩ := Option.eq_none_or_eq_some (distroOf (osOf content) (likeOf content))
    · simp only [hdistro]
    · simp only [hdistro]
  unfold repoConfigUrl requestedUrl
  rw [hdetect, hsuite, hos, hlike]

/-- What the agent takes for its distro and asks the manager for is told by what it registers with. -/
theorem readers_agree :
    detectDistroId (.ok content) = distroIdFrom (reported content "name") (reported content "id_like") ∧
      ∀ managerUrl, repoConfigUrl managerUrl (.ok content) =
        requestedUrl managerUrl (reported content "distro") (reported content "id_like") (reported content "version") := by
  rw [reported_eq (show detailOf "ID" = some "name" from rfl), reported_eq (show detailOf "NAME" = some "distro" from rfl),
    reported_eq (show detailOf "ID_LIKE" = some "id_like" from rfl),
    reported_eq (show detailOf "VERSION_ID" = some "version" from rfl)]
  exact ⟨detectDistroId_eq content, repoConfigUrl_eq content⟩

end Agreement

/-! ## Files in the format -/

inductive Quoting
  | bare
  | double
  | single
  deriving DecidableEq, Repr

/-- Neither end of the text is such a character. -/
def EndsFree (p : Char → Prop) (s : String) : Prop := (∀ c ∈ s.toList.head?, ¬ p c) ∧ ∀ c ∈ s.toList.getLast?, ¬ p c

/-- A line that sets a key. -/
structure Assignment where
  key : String
  value : String
  quoting : Quoting
  key_ne : key ≠ ""
  key_plain : ∀ c ∈ key.toList, c ≠ '=' ∧ c ≠ '\n' ∧ isWhitespace c = false
  value_line : '\n' ∉ value.toList
  value_ends : EndsFree (fun c => c = '"' ∨ c = '\'') value
  bare_ends : quoting = .bare → EndsFree (fun c => isWhitespace c = true) value

namespace Assignment

def quoted (a : Assignment) : String :=
  match a.quoting with
  | .bare => a.value
  | .double => String.singleton '"' ++ a.value ++ String.singleton '"'
  | .single => String.singleton '\'' ++ a.value ++ String.singleton '\''

def text (a : Assignment) : String := a.key ++ String.singleton '=' ++ a.quoted

end Assignment

inductive OsLine
  | blank
  | comment (text : String) (line : IsLine text)
  | assignment (a : Assignment)

namespace OsLine

def text : OsLine → String
  | blank => ""
  | comment text _ => "#" ++ text
  | assignment a => a.text

def assignment? : OsLine → Option Assignment
  | assignment a => some a
  | _ => none

end OsLine

/-- The file with the lines. -/
def osReleaseFile (file : List OsLine) : String := unlines (file.map OsLine.text)

/-- The value that the last assignment gives the key. -/
def valueOf (file : List OsLine) (key : String) : Option String :=
  (((file.filterMap OsLine.assignment?).filter fun a => a.key == key).getLast?).map Assignment.value

section Ends

variable {s : String} {c : Char}

theorem rdropWhile_of_endsFree (h : EndsFree (· = c) s) : s.toList.rdropWhile (· == c) = s.toList := by
  refine List.rdropWhile_eq_self_iff.2 fun hne => ?_
  simpa using h.2 _ (List.getLast?_eq_some_getLast hne)

theorem trimChar_eq_self (h : EndsFree (· = c) s) : trimChar s c = s := by
  have hdrop : s.toList.dropWhile (· == c) = s.toList := by
    cases hs : s.toList with
    | nil => rfl
    | cons d ds => rw [List.dropWhile_cons_of_neg (by simpa using h.1 d (by simp [hs]))]
  rw [trimChar, hdrop, rdropWhile_of_endsFree h, String.ofList_toList]

theorem toList_quoted (c : Char) (s : String) :
    (String.singleton c ++ s ++ String.singleton c).toList = (c :: s.toList) ++ [c] := by simp

theorem trimChar_quoted (h : EndsFree (· = c) s) :
    trimChar (String.singleton c ++ s ++ String.singleton c) c = s := by
  rw [trimChar, toList_quoted, List.cons_append, List.dropWhile_cons_of_pos (by simp)]
  cases hs : s.toList with
  | nil =>
    have hempty : s = "" := by simpa using hs
    simp [hempty]
  | cons d ds =>
    have hd : ¬ (d == c) = true := by simpa using h.1 d (by simp [hs])
    rw [List.cons_append, List.dropWhile_cons_of_neg (p := fun x => x == c) hd, ← List.cons_append, ← hs,
      List.rdropWhile_concat_pos _ _ _ (by simp)]
    rw [rdropWhile_of_endsFree h, String.ofList_toList]

theorem trim_of_endsFree (h : EndsFree (fun c => isWhitespace c = true) s) : trim s = s :=
  trim_eq_self (fun c hc => by simpa using h.1 c hc) fun c hc => by simpa using h.2 c hc

end Ends

theorem EndsFree.mono {p q : Char → Prop} {s : String} (h : EndsFree p s) (hpq : ∀ c, q c → p c) : EndsFree q s :=
  ⟨fun c hc hq => h.1 c hc (hpq c hq), fun c hc hq => h.2 c hc (hpq c hq)⟩

theorem endsFree_quoted {p : Char → Prop} {c : Char} {s : String} (hc : ¬ p c) :
    EndsFree p (String.singleton c ++ s ++ String.singleton c) := by
  constructor
  · intro d hd
    obtain rfl : c = d := by simpa using hd
    exact hc
  · intro d hd
    rw [toList_quoted, List.getLast?_concat] at hd
    exact Option.some.inj hd ▸ hc

namespace Assignment

variable (a : Assignment)

theorem unquote_quoted : unquote a.quoted = a.value := by
  have hdouble : EndsFree (· = '"') a.value := a.value_ends.mono fun c => .inl
  have hsingle : EndsFree (· = '\'') a.value := a.value_ends.mono fun c => .inr
  unfold quoted unquote
  split
  · next hbare => rw [trim_of_endsFree (a.bare_ends hbare), trimChar_eq_self hdouble, trimChar_eq_self hsingle]
  · rw [trim_of_endsFree (endsFree_quoted (by decide)), trimChar_quoted hdouble, trimChar_eq_self hsingle]
  · rw [trim_of_endsFree (endsFree_quoted (by decide)), trimChar_eq_self (endsFree_quoted (by decide)),
      trimChar_quoted hsingle]

theorem quoted_last : ∀ c ∈ a.quoted.toList.getLast?, isWhitespace c = false := by
  intro c hc
  unfold quoted at hc
  split at hc
  · next hbare => simpa using (a.bare_ends hbare).2 c hc
  all_goals simpa using (@endsFree_quoted (fun c => isWhitespace c = true) _ a.value (by decide)).2 c hc

theorem toList_text : a.text.toList = a.key.toList ++ '=' :: a.quoted.toList := by simp [text]

theorem last_text : ∀ c ∈ a.text.toList.getLast?, isWhitespace c = false := by
  intro c hc
  rw [toList_text, List.getLast?_append_cons] at hc
  cases hq : a.quoted.toList with
  | nil =>
    rw [hq] at hc
    obtain rfl : '=' = c := by simpa using hc
    decide
  | cons d ds => exact a.quoted_last c (by rwa [hq, List.getLast?_cons_cons, ← hq] at hc)

theorem trim_text : trim a.text = a.text := by
  refine trim_eq_self (fun c hc => ?_) a.last_text
  have hkey : a.key.toList ≠ [] := by simpa using a.key_ne
  rw [toList_text, List.head?_append_of_ne_nil _ hkey] at hc
  exact (a.key_plain c (List.mem_of_mem_head? hc)).2.2

theorem splitOnce_text : splitOnce a.text "=" = some (a.key, a.quoted) := by
  have hkey : '=' ∉ a.key.toList := fun h => (a.key_plain '=' h).1 rfl
  exact splitOnce_append hkey a.quoted

theorem isLine_text : IsLine a.text := by
  refine ⟨fun h => ?_, fun h => ?_⟩
  · rw [toList_text, List.mem_append, List.mem_cons] at h
    rcases h with h | h | h
    · exact (a.key_plain '\n' h).2.1 rfl
    · exact absurd h (by decide)
    · refine a.value_line ?_
      unfold quoted at h
      split at h
      · exact h
      all_goals
        simp only [toList_quoted, List.mem_append, List.mem_cons, List.not_mem_nil, or_false] at h
        rcases h with (h | h) | h
        · exact absurd h (by decide)
        · exact h
        · exact absurd h (by decide)
  · exact absurd (a.last_text '\r' h) (by decide)

theorem fieldOf_text (key : String) : fieldOf key a.text = if a.key = key then some (some a.value) else none := by
  unfold fieldOf
  rw [trim_text, splitOnce_text]
  dsimp only
  rw [unquote_quoted]

end Assignment

theorem OsLine.isLine_text (l : OsLine) : IsLine l.text := by
  cases l with
  | blank => decide
  | comment text line =>
    have htext : ("#" ++ text).toList = '#' :: text.toList := by simp
    refine ⟨?_, ?_⟩
    · rw [OsLine.text, htext, List.mem_cons, not_or]
      exact ⟨by decide, line.1⟩
    · rw [OsLine.text, htext]
      cases ht : text.toList with
      | nil => decide
      | cons d ds =>
        rw [List.getLast?_cons_cons, ← ht]
        exact line.2
  | assignment a => exact a.isLine_text

theorem fieldOf_osLine {key : String} (hkey : key.toList.head? ≠ some '#') (l : OsLine) :
    fieldOf key l.text = (l.assignment?.filter fun a => a.key == key).map fun a => some a.value := by
  cases l with
  | blank => exact fieldOf_comment hkey (.inl (by decide))
  | comment text line =>
    refine fieldOf_comment hkey (.inr (List.isPrefixOf_iff_prefix.2 ?_))
    have htext : ("#" ++ text).toList = '#' :: text.toList := by simp
    have hmem : '#' ∈ (trim ("#" ++ text)).toList := (mem_trim (by decide)).2 (by simp)
    have hprefix : (trim ("#" ++ text)).toList <+: '#' :: text.toList := by
      rw [toList_trim, htext, List.dropWhile_cons_of_neg (by decide)]
      exact List.rdropWhile_prefix _ _
    rcases List.prefix_cons_iff.1 hprefix with hnil | ⟨rest, hrest, _⟩
    · rw [hnil] at hmem
      cases hmem
    · rw [OsLine.text, hrest]
      exact ⟨rest, rfl⟩
  | assignment a =>
    rw [OsLine.text, a.fieldOf_text]
    by_cases h : a.key = key <;> simp [OsLine.assignment?, Option.filter, h]

/-- The last assignment of a key is the one that counts. -/
theorem lastField_file {key : String} (hkey : key.toList.head? ≠ some '#') (file : List OsLine) :
    lastField key (osReleaseFile file) = valueOf file key := by
  have hlines : lines (osReleaseFile file) = file.map OsLine.text := lines_unlines fun l hl => by
    obtain ⟨line, _, rfl⟩ := List.mem_map.1 hl
    exact line.isLine_text
  have hrun : lastField key (osReleaseFile file) =
      run (fun l : OsLine => (l.assignment?.filter fun a => a.key == key).map fun a => some a.value) none file := by
    rw [lastField, hlines]
    unfold run
    rw [List.foldl_map]
    simp only [fieldOf_osLine hkey]
  rw [hrun, run_map, valueOf, List.filter_filterMap]
  cases (file.filterMap fun l => l.assignment?.filter fun a => a.key == key).getLast? <;> rfl

/-- Every reader of a file in the format finds the values of the last assignments. -/
theorem osRelease_read (file : List OsLine) :
    (∀ key detail, detailOf key = some detail → reported (osReleaseFile file) detail = valueOf file key) ∧
      detectDistroId (.ok (osReleaseFile file)) = distroIdFrom (valueOf file "ID") (valueOf file "ID_LIKE") ∧
      ∀ managerUrl, repoConfigUrl managerUrl (.ok (osReleaseFile file)) =
        requestedUrl managerUrl (valueOf file "NAME") (valueOf file "ID_LIKE") (valueOf file "VERSION_ID") := by
  refine ⟨fun key detail h => ?_, ?_, fun managerUrl => ?_⟩
  · rw [reported_eq h, lastField_file (detailOf_head h)]
  · rw [detectDistroId_eq, lastField_file (by decide), lastField_file (by decide)]
  · rw [repoConfigUrl_eq, lastField_file (by decide), lastField_file (by decide), lastField_file (by decide)]

/-- A plain word for a plain key. -/
def plainAssignment (key value : String) (quoting : Quoting)
    (h : key ≠ "" ∧ (key.toList.all fun c => c != '=' && c != '\n' && !isWhitespace c) = true ∧
      (value.toList.all fun c => c != '\n' && c != '"' && c != '\'' && !isWhitespace c) = true) : Assignment where
  key := key
  value := value
  quoting := quoting
  key_ne := h.1
  key_plain := fun c hc => by simpa [and_assoc] using List.all_eq_true.1 h.2.1 c hc
  value_line := fun hc => by simpa using List.all_eq_true.1 h.2.2 _ hc
  value_ends := by
    have hplain := List.all_eq_true.1 h.2.2
    exact ⟨fun c hc => by have := hplain c (List.mem_of_mem_head? hc); grind,
      fun c hc => by have := hplain c (List.mem_of_mem_getLast? hc); grind⟩
  bare_ends := fun _ => by
    have hplain := List.all_eq_true.1 h.2.2
    exact ⟨fun c hc => by have := hplain c (List.mem_of_mem_head? hc); grind,
      fun c hc => by have := hplain c (List.mem_of_mem_getLast? hc); grind⟩

/-- A version that was set anew. -/
def upgradedHost : List OsLine :=
  [.assignment (plainAssignment "NAME" "Ubuntu" .double (by decide)),
    .assignment (plainAssignment "VERSION_ID" "22.04" .bare (by decide)), .comment " VERSION_ID=20.04" (by decide),
    .assignment (plainAssignment "VERSION_ID" "24.04" .single (by decide))]

theorem upgradedHost_read : reported (osReleaseFile upgradedHost) "version" = some "24.04" ∧
    repoConfigUrl "https://m" (.ok (osReleaseFile upgradedHost)) =
      .ok "https://m/api/v1/pki/repo-config?distro_id=ubuntu&codename=u2404" := by
  obtain ⟨hdetails, -, hurl⟩ := osRelease_read upgradedHost
  rw [hdetails "VERSION_ID" "version" rfl, hurl]
  exact ⟨by decide +kernel, by decide +kernel⟩

end LinuxPatchApi.Enroll
