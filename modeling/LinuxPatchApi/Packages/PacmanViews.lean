/-
The package database of a host with pacman, what pacman prints of it, and what the backend's queries make of the
output: each is an exact view of the database, whatever becomes of the lock.
-/
import LinuxPatchApi.Lib.Fields
import LinuxPatchApi.Lib.Words
import LinuxPatchApi.Packages.CommandRuns

namespace LinuxPatchApi.Packages.PacmanBackend

open Text Interaction

/-! ## The database -/

/-- A text that pacman prints behind a colon. -/
def IsValue (s : String) : Prop := IsLine s ∧ trim s = s

instance (s : String) : Decidable (IsValue s) := inferInstanceAs (Decidable (_ ∧ _))

/-- A newer version in the repositories; an ignored one stays out of a full upgrade. -/
structure Update where
  version : String
  ignored : Bool
  versionWord : IsWord version

structure Installed where
  name : String
  version : String
  description : String
  dependsOn : List String
  requiredBy : List String
  installedSize : String
  installDate : String
  update : Option Update
  nameWord : IsWord name
  versionWord : IsWord version
  related : ∀ w ∈ dependsOn ++ requiredBy, IsWord w ∧ w ≠ "None"
  printable : ∀ s ∈ [description, installedSize, installDate], IsValue s

/-- A package in the repositories. -/
structure Available where
  name : String
  version : String
  description : String
  versionWord : IsWord version
  printable : IsValue description

structure Database where
  installed : List Installed
  available : List Available
  distinct : (installed.map Installed.name).Nodup

/-! ## Views -/

def Installed.listed (p : Installed) : Package :=
  { name := p.name, version := p.version, status := .installed, upgradable := false, latestVersion := none }

def Installed.patch? (p : Installed) : Option Patch :=
  p.update.map fun u => Patch.of p.name p.version u.version "Package update available"

/-- All that is known of an installed package; without an update its own version is the latest. -/
def Installed.package (p : Installed) : Package where
  name := p.name
  version := p.version
  status := .installed
  upgradable := p.update.isSome
  latestVersion := some ((p.update.map Update.version).getD p.version)
  description := p.description
  dependencies := p.dependsOn
  reverseDependencies := p.requiredBy
  installDate := some p.installDate
  sizeInstalled := some p.installedSize

def Available.package (p : Available) : Package :=
  { name := p.name, version := p.version, status := .available, upgradable := false, latestVersion := none
    description := p.description }

namespace Database

variable (db : Database)

def packages : List Package := db.installed.map Installed.listed

def patches : List Patch := db.installed.filterMap Installed.patch?

def find? (name : String) : Option Installed := db.installed.find? fun p => p.name == name

def findAvailable? (name : String) : Option Available := db.available.find? fun p => p.name == name

/-- A package that is installed, or else in the repositories. -/
def package (name : String) : Option Package :=
  match db.find? name with
  | some p => some p.package
  | none => (db.findAvailable? name).map Available.package

end Database

/-! ## What pacman prints -/

/-- A line of `pacman -Q`. -/
def Installed.line (p : Installed) : String := p.name ++ " " ++ p.version

/-- The newer version and the remark on it. -/
def Update.text (u : Update) : String := if u.ignored then u.version ++ " " ++ "[ignored]" else u.version

/-- A line of `pacman -Qu`. -/
def Installed.updateLine (p : Installed) (u : Update) : String :=
  p.name ++ " " ++ (p.version ++ " " ++ ("->" ++ " " ++ u.text))

def Database.updateLines (db : Database) : List String :=
  db.installed.filterMap fun p => p.update.map p.updateLine

/-- The value of a list field. -/
def listText (ws : List String) : String := if ws = [] then "None" else join "  " ws

def Installed.fields (p : Installed) : List (String × String) :=
  [("Version", p.version), ("Description", p.description), ("Installed Size", p.installedSize),
    ("Install Date", p.installDate), ("Depends On", listText p.dependsOn), ("Required By", listText p.requiredBy)]

def Available.fields (p : Available) : List (String × String) := [("Version", p.version), ("Description", p.description)]

/-- The name of a field. -/
def IsKey (s : String) : Prop := s ≠ "" ∧ trim s = s ∧ ':' ∉ s.toList ∧ '\n' ∉ s.toList

instance (s : String) : Decidable (IsKey s) := inferInstanceAs (Decidable (_ ∧ _))

/-- A line of `pacman -Qi` or `-Si`: a field, or a line that goes on with one. -/
inductive InfoRow
  | field (key value : String) (blanks : ℕ) (isKey : IsKey key) (isValue : IsValue value)
  | more (text : String) (isLine : IsLine text)

namespace InfoRow

def text : InfoRow → String
  | field key value blanks _ _ => key ++ String.ofList (List.replicate blanks ' ') ++ String.singleton ':' ++ (" " ++ value)
  | more text _ => text

def field? : InfoRow → Option (String × String)
  | field key value _ _ _ => some (key, value)
  | more _ _ => none

/-- The row does not look like one of the fields: what stands before its first colon is none of the names. -/
def ApartFrom (names : List String) : InfoRow → Prop
  | field _ _ _ _ _ => True
  | more text _ => ∀ before after, text = before ++ String.singleton ':' ++ after → ':' ∉ before.toList →
      trim before ∉ names

end InfoRow

/-- The text has the fields in any order, among others. -/
def InfoText (fields : List (String × String)) (stdout : String) : Prop :=
  ∃ (rows : List InfoRow) (others : List (String × String)), stdout = unlines (rows.map InfoRow.text) ∧
    (rows.filterMap InfoRow.field?).Perm (fields ++ others) ∧ (∀ f ∈ others, f.1 ∉ fields.map Prod.fst) ∧
    ∀ row ∈ rows, row.ApartFrom (fields.map Prod.fst)

/-! ## Fields read back -/

namespace InfoRow

variable {key value : String} {blanks : ℕ} {row : InfoRow}

theorem keyValue_field (hkey : IsKey key) (hvalue : IsValue value) :
    keyValue (field key value blanks hkey hvalue).text = some (key, value) := by
  obtain ⟨hne, htrim, hcolon, _⟩ := hkey
  have hbefore : ':' ∉ (key ++ String.ofList (List.replicate blanks ' ')).toList := by
    rw [String.toList_append, List.mem_append, not_or, String.toList_ofList]
    exact ⟨hcolon, fun h => absurd (List.eq_of_mem_replicate h) (by decide)⟩
  have hsplit := splitOnce_append hbefore (" " ++ value)
  unfold keyValue text
  rw [show ":" = String.singleton ':' from rfl, hsplit, Option.map_some]
  dsimp only
  rw [trim_blanks htrim hne, trim_space, hvalue.2]

theorem isLine_text : ∀ row : InfoRow, IsLine row.text
  | more _ h => h
  | field key value blanks hkey hvalue => by
    have hvalueLine := hvalue.1
    constructor
    · simp [text, hkey.2.2.2, hvalueLine.1]
    · rw [text, String.toList_append, List.getLast?_append_of_ne_nil _ (by simp), String.toList_append,
        List.getLast?_append]
      cases hlast : value.toList.getLast? with
      | none => decide
      | some c =>
        rw [Option.some_or]
        exact hlast ▸ hvalueLine.2

/-- A row is read as its field, and a row without one as none of the fields in question. -/
theorem keyValue_text {names : List String} (h : row.ApartFrom names) {k : String} (hk : k ∈ names) :
    (keyValue row.text).bind (Fields.valueAt k) = row.field?.bind (Fields.valueAt k) := by
  cases row with
  | field key value blanks hkey hvalue => rw [keyValue_field, field?]
  | more line hline =>
    show ((splitOnce line (String.singleton ':')).map _).bind _ = none
    cases hsplit : splitOnce line (String.singleton ':') with
    | none => rfl
    | some kv =>
      obtain ⟨before, after⟩ := kv
      obtain ⟨htext, hcolon⟩ := splitOnce_iff.1 hsplit
      have hother : trim before ≠ k := fun he => h before after htext hcolon (he ▸ hk)
      simp [Fields.valueAt, hother]

end InfoRow

theorem InfoText.values_eq {fields : List (String × String)} {stdout : String} (h : InfoText fields stdout)
    (hn : (fields.map Prod.fst).Nodup) {key value : String} (hmem : (key, value) ∈ fields) :
    Fields.values key ((lines stdout).filterMap keyValue) = [value] := by
  obtain ⟨rows, others, rfl, hperm, hothers, hapart⟩ := h
  have hread := Fields.values_unlines (fun row _ => InfoRow.isLine_text row)
    fun row hrow => InfoRow.keyValue_text (hapart row hrow) (List.mem_map_of_mem (f := Prod.fst) hmem)
  rw [hread]
  exact Fields.values_of_perm others hperm hn hothers hmem

theorem listField_listText {ws : List String} (h : ∀ w ∈ ws, IsWord w ∧ w ≠ "None") : listField (listText ws) = ws := by
  unfold listText
  split
  · next hnil => rw [hnil]; decide
  · next hne =>
    have hwords := splitWhitespace_join fun w hw => (h w hw).1
    have hempty : (join "  " ws).isEmpty = false := by
      rw [← Bool.not_eq_true, String.isEmpty_iff]
      intro hjoin
      rw [hjoin] at hwords
      exact hne (hwords.symm.trans rfl)
    have hnone : (join "  " ws == "None") = false := by
      rw [← Bool.not_eq_true, beq_iff_eq]
      intro hjoin
      -- the text would be the one word that no package is called
      rw [hjoin] at hwords
      exact (h "None" (hwords ▸ by decide)).2 rfl
    rw [listField, hempty, hnone]
    exact hwords

section Info

variable {stdout : String} {b : Package}

/-- What a line says of the field. -/
def fieldAt (k line : String) : Option String := (keyValue line).bind (Fields.valueAt k)

/-- What a line of `pacman -Qi` does to the parts that a field sets. -/
theorem infoLine_set (q : Package) (line : String) :
    (infoLine q line).version = ((fieldAt "Version" line).map id).getD q.version ∧
      (infoLine q line).description = ((fieldAt "Description" line).map id).getD q.description ∧
      (infoLine q line).sizeInstalled = ((fieldAt "Installed Size" line).map some).getD q.sizeInstalled ∧
      (infoLine q line).installDate = ((fieldAt "Install Date" line).map some).getD q.installDate := by
  unfold infoLine fieldAt
  cases keyValue line with
  | none => simp
  | some f =>
    obtain ⟨key, value⟩ := f
    dsimp only
    split <;> simp_all [Fields.valueAt]

/-- What it does to those that a field adds to. -/
theorem infoLine_add (q : Package) (line : String) :
    (infoLine q line).dependencies = q.dependencies ++ ((fieldAt "Depends On" line).map listField).getD [] ∧
      (infoLine q line).reverseDependencies =
        q.reverseDependencies ++ ((fieldAt "Required By" line).map listField).getD [] := by
  unfold infoLine fieldAt
  cases keyValue line with
  | none => simp
  | some f =>
    obtain ⟨key, value⟩ := f
    dsimp only
    split <;> simp_all [Fields.valueAt]

/-- The other parts are left alone. -/
theorem infoLine_kept (q : Package) (line : String) :
    ((infoLine q line).name, (infoLine q line).status, (infoLine q line).upgradable, (infoLine q line).latestVersion) =
      (q.name, q.status, q.upgradable, q.latestVersion) := by
  unfold infoLine
  cases keyValue line with
  | none => rfl
  | some f =>
    dsimp only
    split <;> rfl

/-- What the loop over the lines makes of the information about an installed package. -/
theorem foldl_infoLine {p : Installed} (h : InfoText p.fields stdout) :
    (lines stdout).foldl infoLine
        { name := p.name, version := "", status := .installed, upgradable := false, latestVersion := none } =
      { p.package with upgradable := false, latestVersion := none } := by
  generalize hb : ({ name := p.name, version := "", status := .installed, upgradable := false, latestVersion := none } :
    Package) = b
  have hn : (p.fields.map Prod.fst).Nodup := by
    show ["Version", "Description", "Installed Size", "Install Date", "Depends On", "Required By"].Nodup
    decide
  have hvalues : ∀ f ∈ p.fields, Fields.values f.1 ((lines stdout).filterMap keyValue) = [f.2] :=
    fun f hf => h.values_eq hn hf
  simp only [Installed.fields, List.forall_mem_cons] at hvalues
  obtain ⟨hversion, hdescription, hsize, hdate, hdepends, hrequired, -⟩ := hvalues
  have hset {β : Type} (part : Package → β) {k v : String} (g : String → β)
      (hv : Fields.values k ((lines stdout).filterMap keyValue) = [v])
      (hpart : ∀ q line, part (infoLine q line) = ((fieldAt k line).map g).getD (part q)) :
      part ((lines stdout).foldl infoLine b) = g v := by
    rw [Fields.observe_set part g hpart, hv]
    rfl
  have hadd (part : Package → List String) {k : String} {ws : List String} (hempty : part b = [])
      (hv : Fields.values k ((lines stdout).filterMap keyValue) = [listText ws])
      (hws : ∀ w ∈ ws, IsWord w ∧ w ≠ "None")
      (hpart : ∀ q line, part (infoLine q line) = part q ++ ((fieldAt k line).map listField).getD []) :
      part ((lines stdout).foldl infoLine b) = ws := by
    rw [Fields.observe_add part listField hpart, hv, hempty, List.nil_append, List.flatMap_singleton,
      listField_listText hws]
  have hkept := Overwrite.observe (f := fun _ => none)
    (v := fun q : Package => (q.name, q.status, q.upgradable, q.latestVersion)) infoLine_kept b (lines stdout)
  rw [Overwrite.run_unset fun _ _ => rfl] at hkept
  have hrelated := p.related
  simp only [List.forall_mem_append] at hrelated
  have h₁ := hset Package.version id hversion fun q line => (infoLine_set q line).1
  have h₂ := hset Package.description id hdescription fun q line => (infoLine_set q line).2.1
  have h₃ := hset Package.sizeInstalled some hsize fun q line => (infoLine_set q line).2.2.1
  have h₄ := hset Package.installDate some hdate fun q line => (infoLine_set q line).2.2.2
  have h₅ := hadd Package.dependencies (hb ▸ rfl) hdepends hrelated.1 fun q line => (infoLine_add q line).1
  have h₆ := hadd Package.reverseDependencies (hb ▸ rfl) hrequired hrelated.2 fun q line => (infoLine_add q line).2
  generalize (lines stdout).foldl infoLine b = q at *
  subst hb
  cases q
  simp_all [Installed.package]

theorem availableLine_parts (q : Package) (line : String) :
    (availableLine q line).version = ((fieldAt "Version" line).map id).getD q.version ∧
      (availableLine q line).description = ((fieldAt "Description" line).map id).getD q.description ∧
      { availableLine q line with version := "", description := "" } = { q with version := "", description := "" } := by
  unfold availableLine fieldAt
  cases keyValue line with
  | none => simp
  | some f =>
    obtain ⟨key, value⟩ := f
    dsimp only
    split <;> simp_all [Fields.valueAt]

/-- The same for a package in the repositories. -/
theorem foldl_availableLine {p : Available} (h : InfoText p.fields stdout) :
    (lines stdout).foldl availableLine
        { name := p.name, version := "", status := .available, upgradable := false, latestVersion := none } =
      p.package := by
  generalize hb : ({ name := p.name, version := "", status := .available, upgradable := false, latestVersion := none } :
    Package) = b
  have hn : (p.fields.map Prod.fst).Nodup := by
    show ["Version", "Description"].Nodup
    decide
  have hversion : Fields.values "Version" ((lines stdout).filterMap keyValue) = [p.version] :=
    h.values_eq hn (by simp [Available.fields])
  have hdescription : Fields.values "Description" ((lines stdout).filterMap keyValue) = [p.description] :=
    h.values_eq hn (by simp [Available.fields])
  have h₁ := Fields.observe_set Package.version id (fun q line => (availableLine_parts q line).1) b (lines stdout)
  have h₂ := Fields.observe_set Package.description id (fun q line => (availableLine_parts q line).2.1) b (lines stdout)
  have hkept := Overwrite.observe (f := fun _ => none)
    (v := fun q : Package => { q with version := "", description := "" })
    (fun q line => (availableLine_parts q line).2.2) b (lines stdout)
  rw [Overwrite.run_unset fun _ _ => rfl] at hkept
  rw [hversion] at h₁
  rw [hdescription] at h₂
  generalize (lines stdout).foldl availableLine b = q at *
  subst hb
  cases q
  simp_all [Available.package]

theorem findSome?_candidateInLine {p : Available} (h : InfoText p.fields stdout) :
    (lines stdout).findSome? candidateInLine = some p.version := by
  have hn : (p.fields.map Prod.fst).Nodup := by
    show ["Version", "Description"].Nodup
    decide
  have hversion : Fields.values "Version" ((lines stdout).filterMap keyValue) = [p.version] :=
    h.values_eq hn (by simp [Available.fields])
  have hempty : p.version.isEmpty = false := by
    rw [← Bool.not_eq_true, String.isEmpty_iff]
    exact p.versionWord.1
  have hline (line : String) :
      candidateInLine line = ((keyValue line).bind (Fields.valueAt "Version")).bind nonemptyVersion := by
    unfold candidateInLine
    cases keyValue line with
    | none => rfl
    | some f =>
      by_cases hk : f.1 = "Version"
      · simp [Fields.valueAt, hk]
      · simp [Fields.valueAt, hk]
  rw [Fields.values_filterMap] at hversion
  rw [funext hline, ← List.head?_filterMap, ← List.filterMap_filterMap, hversion]
  simp [nonemptyVersion, hempty]

end Info

/-! ## Lines read back -/

theorem Installed.isLine_line (p : Installed) : IsLine p.line := by
  refine isLine_append ?_ p.versionWord
  rw [String.toList_append, List.mem_append, not_or]
  exact ⟨p.nameWord.not_mem (by decide), by decide⟩

theorem parsePackageLine_line (p : Installed) : parsePackageLine p.line = some p.listed := by
  have htrim : trim p.line = p.line := trim_between p.nameWord " " p.versionWord
  have hempty : p.line.isEmpty = false := by
    rw [← Bool.not_eq_true, String.isEmpty_iff]
    simp [Installed.line]
  unfold parsePackageLine
  dsimp only
  rw [htrim, if_neg (by simp [hempty]), Installed.line, splitAtWhitespace_cons p.nameWord]
  rfl

/-- The text ends with a word, and its first word is the version. -/
theorem Update.text_ends (u : Update) : ∃ s w rest, u.text = s ++ w ∧ '\n' ∉ s.toList ∧ IsWord w ∧
    splitWhitespace u.text = u.version :: rest := by
  cases hignored : u.ignored with
  | false =>
    have htext : u.text = u.version := by simp [text, hignored]
    exact ⟨"", u.version, [], by simp [htext], by simp, u.versionWord, by rw [htext, splitWhitespace_word u.versionWord]⟩
  | true =>
    have htext : u.text = u.version ++ " " ++ "[ignored]" := by simp [text, hignored]
    refine ⟨u.version ++ " ", "[ignored]", ["[ignored]"], htext, ?_, by decide, ?_⟩
    · rw [String.toList_append, List.mem_append, not_or]
      exact ⟨u.versionWord.not_mem (by decide), by decide⟩
    · rw [htext, splitWhitespace_cons u.versionWord, splitWhitespace_word (by decide)]

section UpdateLine

variable (p : Installed) (u : Update)

theorem words_updateLine :
    ∃ rest, splitWhitespace (p.updateLine u) = p.name :: p.version :: "->" :: u.version :: rest := by
  obtain ⟨_, _, rest, _, _, _, hwords⟩ := u.text_ends
  refine ⟨rest, ?_⟩
  rw [Installed.updateLine, splitWhitespace_cons p.nameWord, splitWhitespace_cons p.versionWord,
    splitWhitespace_cons (by decide), hwords]

/-- The line from a word to a word. -/
theorem updateLine_ends : ∃ s w, p.updateLine u = p.name ++ s ++ w ∧ '\n' ∉ s.toList ∧ IsWord w := by
  obtain ⟨s, w, _, htext, hs, hw, _⟩ := u.text_ends
  refine ⟨" " ++ (p.version ++ " " ++ ("->" ++ " " ++ s)), w, ?_, ?_, hw⟩
  · rw [Installed.updateLine, htext]
    simp only [String.append_assoc]
  · have hversion := p.versionWord.not_mem (show isWhitespace '\n' = true by decide)
    simp [hversion, hs]

theorem trim_updateLine : trim (p.updateLine u) = p.updateLine u := by
  obtain ⟨s, w, hline, _, hw⟩ := updateLine_ends p u
  rw [hline]
  exact trim_between p.nameWord s hw

theorem isLine_updateLine : IsLine (p.updateLine u) := by
  obtain ⟨s, w, hline, hs, hw⟩ := updateLine_ends p u
  rw [hline]
  refine isLine_append ?_ hw
  rw [String.toList_append, List.mem_append, not_or]
  exact ⟨p.nameWord.not_mem (by decide), hs⟩

theorem patchOfLine_updateLine :
    patchOfLine (p.updateLine u) = some (Patch.of p.name p.version u.version "Package update available") := by
  obtain ⟨rest, hwords⟩ := words_updateLine p u
  unfold patchOfLine
  rw [trim_updateLine, hwords]
  rfl

theorem newVersionInLine_updateLine : newVersionInLine p.name (p.updateLine u) = some u.version := by
  obtain ⟨rest, hwords⟩ := words_updateLine p u
  unfold newVersionInLine
  rw [hwords]
  dsimp only
  rw [if_pos (beq_self_eq_true _)]

end UpdateLine

/-- The updates of the listing are the patches. -/
theorem patches_updateLines (db : Database) :
    (lines (unlines db.updateLines)).filterMap patchOfLine = db.patches := by
  have hlines : ∀ l ∈ db.updateLines, IsLine l := by
    intro l hl
    obtain ⟨p, _, hp⟩ := List.mem_filterMap.1 hl
    obtain ⟨u, _, rfl⟩ := Option.map_eq_some_iff.1 hp
    exact isLine_updateLine p u
  rw [lines_unlines hlines, Database.updateLines, List.filterMap_filterMap]
  refine List.filterMap_congr fun p _ => ?_
  unfold Installed.patch?
  cases p.update with
  | none => rfl
  | some u => rw [Option.map_some, Option.bind_some, patchOfLine_updateLine, Option.map_some]

theorem packages_lines (db : Database) :
    parsePacmanPackageList (unlines (db.installed.map Installed.line)) = db.packages := by
  have hlines : ∀ l ∈ db.installed.map Installed.line, IsLine l := by
    intro l hl
    obtain ⟨p, _, rfl⟩ := List.mem_map.1 hl
    exact p.isLine_line
  rw [parsePacmanPackageList, lines_unlines hlines, List.filterMap_map, Database.packages, ← List.filterMap_eq_map]
  refine List.filterMap_congr fun p _ => ?_
  rw [Function.comp_apply, parsePackageLine_line, Function.comp_apply]

/-! ## Commands -/

section Commands

variable {o : (e : Effect) → Response e} {args : List Arg} {stdout : String}

theorem outcome_ask (e : Effect) : outcome o (ask e).run = .ok (o e) := outcome_performE o e

theorem outcome_waitRound {slept : ℕ} {again : Op Unit} (h : outcome o again.run = .ok ()) :
    outcome o (waitRound slept again).run = .ok () := by
  unfold waitRound
  rw [outcome_bindE o (outcome_pathExists o lockPath)]
  split
  · refine (outcome_bindE o (outcome_ask (.elapsed slept)) _).trans ?_
    split
    · rfl
    · exact (outcome_bindE o (outcome_ask (.sleep 5)) _).trans h
  · rfl

theorem outcome_waitForLock (n : ℕ) : outcome o (waitForLock n).run = .ok () := by
  induction n with
  | zero => exact outcome_waitRound rfl
  | succ n ih => exact outcome_waitRound ih

/-- A lock that stays holds no query up for ever. -/
theorem outcome_waitWhileLocked : outcome o waitWhileLocked.run = .ok () := by
  unfold waitWhileLocked
  rw [outcome_bindE o (outcome_pathExists o lockPath)]
  split
  · exact outcome_waitForLock 12
  · rfl

/-- Pacman succeeds and prints the text. -/
def Replies (o : (e : Effect) → Response e) (args : List Arg) (stdout : String) : Prop :=
  ∀ timeout, ∃ stderr, o (.run "pacman" args (some timeout)) =
    (.ok ⟨some 0, stdout, stderr, false⟩ : Except AnyhowError CommandOutput)

/-- Pacman finds nothing and exits with 1. -/
def Refuses (o : (e : Effect) → Response e) (args : List Arg) : Prop :=
  ∀ timeout, ∃ e ce, o (.run "pacman" args (some timeout)) = (.error e : Except AnyhowError CommandOutput) ∧
    extractCommandOutput e = some ce ∧ ce.exitCode = some 1 ∧ ce.stdout = ""

/-- A query of pacman returns what the runner answers. -/
theorem outcome_runPacmanWithAcceptableExit (args : List Arg) (acceptable : List Int) :
    outcome o (runPacmanWithAcceptableExit args acceptable).run =
      acceptExit acceptable (o (.run "pacman" args (some (timeoutFor ["-Sy", "-Syu"] args)))) := by
  have hrun : outcome o (runCommandWithAcceptableExit "pacman" args acceptable
      (some (timeoutFor ["-Sy", "-Syu"] args))).run =
      acceptExit acceptable (o (.run "pacman" args (some (timeoutFor ["-Sy", "-Syu"] args)))) := rfl
  unfold runPacmanWithAcceptableExit
  rw [outcome_bindE o outcome_waitWhileLocked, outcome_bindE o (outcome_attempt o _), hrun]
  cases acceptExit acceptable (o (.run "pacman" args (some (timeoutFor ["-Sy", "-Syu"] args)))) with
  | ok output => rfl
  | error e =>
    have hremove : outcome o (removeLockAfterTimeout e).run = .ok () := by
      unfold removeLockAfterTimeout
      split <;> rfl
    exact outcome_bindE o hremove _

theorem Replies.read (h : Replies o args stdout) (acceptable : List Int) :
    outcome o (runPacmanWithAcceptableExit args acceptable).run = .ok stdout := by
  obtain ⟨stderr, hanswer⟩ := h (timeoutFor ["-Sy", "-Syu"] args)
  rw [outcome_runPacmanWithAcceptableExit, hanswer]
  rfl

theorem Refuses.failed (h : Refuses o args) : ∃ e, outcome o (runPacman args).run = .error e := by
  obtain ⟨e, ce, hanswer, hce, hcode, _⟩ := h (timeoutFor ["-Sy", "-Syu"] args)
  refine ⟨e, ?_⟩
  rw [runPacman, outcome_runPacmanWithAcceptableExit, hanswer, acceptExit, hce]
  dsimp only
  rw [hcode]
  rfl

/-- Where the exit code counts as success, nothing is found. -/
theorem Refuses.accepted (h : Refuses o args) : outcome o (runPacmanWithAcceptableExit args [0, 1]).run = .ok "" := by
  obtain ⟨e, ce, hanswer, hce, hcode, hstdout⟩ := h (timeoutFor ["-Sy", "-Syu"] args)
  rw [outcome_runPacmanWithAcceptableExit, hanswer, acceptExit, hce]
  dsimp only
  rw [hcode, hstdout]
  rfl

end Commands

/-! ## Queries -/

section Queries

variable {o : (e : Effect) → Response e} {db : Database}

/-- The host's pacman answers from the database. -/
structure Serves (o : (e : Effect) → Response e) (db : Database) : Prop where
  all : Replies o ["-Q"] (unlines (db.installed.map Installed.line))
  one : ∀ name, match db.find? name with
    | some p => Replies o ["-Q", .request name] (unlines [p.line])
    | none => Refuses o ["-Q", .request name]
  info : ∀ p ∈ db.installed, ∃ stdout, InfoText p.fields stdout ∧ Replies o ["-Qi", .request p.name] stdout
  updates : if db.updateLines = [] then Refuses o ["-Qu"] else Replies o ["-Qu"] (unlines db.updateLines)
  update : ∀ p ∈ db.installed, match p.update with
    | some u => Replies o ["-Qu", .request p.name] (unlines [p.updateLine u])
    | none => Refuses o ["-Qu", .request p.name]
  available : ∀ name, match db.findAvailable? name with
    | some p => ∃ stdout, InfoText p.fields stdout ∧ Replies o ["-Si", .request name] stdout
    | none => Refuses o ["-Si", .request name]

theorem outcome_listPackages (h : Serves o db) : outcome o (listPackages none).run = .ok db.packages := by
  have hrun : outcome o (runPacman ["-Q"]).run = .ok (unlines (db.installed.map Installed.line)) := h.all.read [0]
  unfold listPackages
  rw [outcome_bindE o hrun, packages_lines]
  rfl

theorem outcome_listPatches (h : Serves o db) : outcome o listPatches.run = .ok db.patches := by
  have hupdates := h.updates
  have hrun : outcome o (runPacmanWithAcceptableExit ["-Qu"] [0, 1]).run = .ok (unlines db.updateLines) := by
    split at hupdates
    · next hnone =>
      rw [hnone]
      exact hupdates.accepted
    · exact hupdates.read [0, 1]
  unfold listPatches
  rw [outcome_bindE o hrun, patches_updateLines]
  rfl

theorem find?_some {name : String} {p : Installed} (h : db.find? name = some p) : p ∈ db.installed ∧ p.name = name :=
  ⟨List.mem_of_find?_eq_some h, by simpa using List.find?_some h⟩

/-- What `pacman -Qu` with the name comes to: whether there is an update, and which. -/
theorem outcome_update (h : Serves o db) {p : Installed} (hp : p ∈ db.installed) :
    outcome o (unwrapOr false do
        let out ← runPacman ["-Qu", .request p.name]
        return !(trim out).isEmpty).run = .ok p.update.isSome ∧
      ∀ u, p.update = some u → outcome o (unwrapOr none do
        let out ← runPacman ["-Qu", .request p.name]
        return (lines out).findSome? (newVersionInLine p.name)).run = .ok (some u.version) := by
  have hupdate := h.update p hp
  rw [outcome_unwrapOr, outcome_handOn]
  cases hu : p.update with
  | none =>
    rw [hu] at hupdate
    obtain ⟨e, hrun⟩ := hupdate.failed
    rw [hrun]
    exact ⟨rfl, fun u hnone => nomatch hnone⟩
  | some u =>
    rw [hu] at hupdate
    have hrun : outcome o (runPacman ["-Qu", .request p.name]).run = .ok (unlines [p.updateLine u]) :=
      hupdate.read [0]
    have hblank : (trim (unlines [p.updateLine u])).isEmpty = false := by
      have harrow : '>' ∈ (trim (unlines [p.updateLine u])).toList :=
        (mem_trim (by decide)).2 (by simp [unlines, Installed.updateLine])
      rw [← Bool.not_eq_true, String.isEmpty_iff]
      intro hempty
      rw [hempty] at harrow
      cases harrow
    have hfound : (lines (unlines [p.updateLine u])).findSome? (newVersionInLine p.name) = some u.version := by
      rw [lines_unlines (by simpa using isLine_updateLine p u), List.findSome?_singleton, newVersionInLine_updateLine]
    rw [hrun]
    constructor
    · simp only [Except.map, Except.toOption, Option.getD_some, hblank, Option.isSome_some, Bool.not_false]
    · rintro _ ⟨⟩
      rw [outcome_unwrapOr, outcome_handOn, hrun]
      simp only [Except.map, Except.toOption, Option.getD_some, hfound]

/-- What is told of a package that is installed. -/
theorem outcome_parsePacmanInfo (h : Serves o db) {p : Installed} (hp : p ∈ db.installed) {stdout : String}
    (hinfo : InfoText p.fields stdout) :
    outcome o (parsePacmanInfo stdout p.name).run = .ok (some p.package) := by
  obtain ⟨hupgradable, hlatest⟩ := outcome_update h hp
  unfold parsePacmanInfo
  dsimp only
  rw [foldl_infoLine hinfo, outcome_bindE o hupgradable]
  cases hu : p.update with
  | none =>
    refine (outcome_bindE o (outcome_return o (some p.version)) _).trans ?_
    simp only [hu, outcome_return, Installed.package, Option.isSome_none, Option.map_none, Option.getD_none]
  | some u =>
    rw [Option.isSome_some, if_pos rfl]
    refine (outcome_bindE o (hlatest u hu) _).trans ?_
    simp only [hu, outcome_return, Installed.package, Option.isSome_some, Option.map_some, Option.getD_some]

theorem outcome_availablePackage (h : Serves o db) (name : String) :
    outcome o (availablePackage name).run = .ok ((db.findAvailable? name).map Available.package) := by
  have havailable := h.available name
  unfold availablePackage
  rw [outcome_bindE o (outcome_tryRun o "pacman" ["-Si", .request name]), quickAnswer]
  cases hfound : db.findAvailable? name with
  | none =>
    rw [hfound] at havailable
    obtain ⟨e, _, hanswer, _⟩ := havailable quickOpTimeout
    rw [hanswer]
    rfl
  | some p =>
    rw [hfound] at havailable
    obtain ⟨stdout, hinfo, hreplies⟩ := havailable
    obtain ⟨stderr, hanswer⟩ := hreplies quickOpTimeout
    have hname : p.name = name := by simpa using List.find?_some hfound
    have hpackage := foldl_availableLine hinfo
    have hsuccess : (⟨some 0, stdout, stderr, false⟩ : CommandOutput).success = true := rfl
    rw [hanswer]
    simp only [Except.toOption]
    rw [if_pos hsuccess, ← hname, hpackage]
    rfl

theorem outcome_getPackage (h : Serves o db) {name : String} (hname : invalidPackageName name = false) :
    outcome o (getPackage name).run = .ok (db.package name) := by
  have hone := h.one name
  unfold getPackage checkedName lookUpPackage Database.package
  rw [if_neg (by simp [hname]), outcome_bindE o (outcome_attempt o _)]
  cases hfound : db.find? name with
  | none =>
    rw [hfound] at hone
    obtain ⟨e, hrun⟩ := hone.failed
    rw [hrun]
    exact outcome_availablePackage h name
  | some p =>
    rw [hfound] at hone
    obtain ⟨hp, rfl⟩ := find?_some hfound
    obtain ⟨stdout, hinfo, hreplies⟩ := h.info p hp
    have hrun : outcome o (runPacman ["-Q", .request p.name]).run = .ok (unlines [p.line]) := hone.read [0]
    have hrunInfo : outcome o (runPacman ["-Qi", .request p.name]).run = .ok stdout := hreplies.read [0]
    rw [hrun]
    refine (outcome_bindE o hrunInfo _).trans ?_
    exact outcome_parsePacmanInfo h hp hinfo

theorem outcome_getInstalledVersion (h : Serves o db) (name : String) :
    outcome o (getInstalledVersion name).run = .ok ((db.find? name).map Installed.version) := by
  have hone := h.one name
  unfold getInstalledVersion
  rw [outcome_unwrapOr, outcome_handOn]
  cases hfound : db.find? name with
  | none =>
    rw [hfound] at hone
    obtain ⟨e, hrun⟩ := hone.failed
    rw [hrun]
    rfl
  | some p =>
    rw [hfound] at hone
    have hrun : outcome o (runPacman ["-Q", .request name]).run = .ok (unlines [p.line]) := hone.read [0]
    have htrim : trim p.line = p.line := trim_between p.nameWord " " p.versionWord
    have hwords : splitAtWhitespace p.line = [p.name, p.version] := by
      rw [Installed.line, splitAtWhitespace_cons p.nameWord]
    have hlines : lines (unlines [p.line]) = [p.line] := lines_unlines (by simpa using p.isLine_line)
    rw [hrun]
    simp only [Except.map, Except.toOption, Option.getD_some, Option.map_some, hlines, List.headD_cons, htrim, hwords,
      List.getElem?_cons_succ, List.getElem?_cons_zero]

theorem outcome_getCandidateVersion (h : Serves o db) (name : String) :
    outcome o (getCandidateVersion name).run = .ok ((db.findAvailable? name).map Available.version) := by
  have havailable := h.available name
  unfold getCandidateVersion
  rw [outcome_bindE o (outcome_tryRun o "pacman" ["-Si", .request name]), quickAnswer]
  cases hfound : db.findAvailable? name with
  | none =>
    rw [hfound] at havailable
    obtain ⟨e, _, hanswer, _⟩ := havailable quickOpTimeout
    rw [hanswer]
    rfl
  | some p =>
    rw [hfound] at havailable
    obtain ⟨stdout, hinfo, hreplies⟩ := havailable
    obtain ⟨stderr, hanswer⟩ := hreplies quickOpTimeout
    have hsuccess : (⟨some 0, stdout, stderr, false⟩ : CommandOutput).success = true := rfl
    rw [hanswer]
    simp only [Except.toOption]
    rw [if_pos hsuccess, findSome?_candidateInLine hinfo]
    rfl

/-- A filter is taken for the name of a package: there is that one, or an error. -/
theorem outcome_listPackages_filter (h : Serves o db) (name : String) :
    (outcome o (listPackages (some name)).run).toOption = (db.find? name).map fun p => [p.listed] := by
  have hone := h.one name
  unfold listPackages
  cases hfound : db.find? name with
  | none =>
    rw [hfound] at hone
    obtain ⟨e, hrun⟩ := hone.failed
    rw [outcome_bindE_error o hrun]
    rfl
  | some p =>
    rw [hfound] at hone
    obtain ⟨_, rfl⟩ := find?_some hfound
    have hrun : outcome o (runPacman ["-Q", .request p.name]).run = .ok (unlines [p.line]) := hone.read [0]
    have hlines : lines (unlines [p.line]) = [p.line] := lines_unlines (by simpa using p.isLine_line)
    have hself : contains p.listed.name p.name = true := contains_iff.2 (List.infix_refl _)
    rw [outcome_bindE o hrun, parsePacmanPackageList, hlines, List.filterMap_cons, parsePackageLine_line,
      List.filterMap_nil]
    simp only [outcome_return, List.filter_cons, hself, if_true, List.filter_nil, Except.toOption, Option.map_some]

end Queries

/-! ## A host -/

/-- The text is printed, or nothing is found. -/
def found (args : List String) (text : Option String) : Except AnyhowError CommandOutput :=
  exitedRun "pacman" args (if text.isSome then 0 else 1) (text.getD "")

/-- Pacman on a host with the database, when the information on each package is printed as given. -/
def Database.reply (db : Database) (qi : Installed → String) (si : Available → String) (args : List String) :
    Except AnyhowError CommandOutput :=
  match args with
  | ["-Q"] => found args (some (unlines (db.installed.map Installed.line)))
  | ["-Q", name] => found args ((db.find? name).map fun p => unlines [p.line])
  | ["-Qi", name] => found args ((db.find? name).map qi)
  | ["-Qu"] => found args (if db.updateLines = [] then none else some (unlines db.updateLines))
  | ["-Qu", name] => found args ((db.find? name).bind fun p => p.update.map fun u => unlines [p.updateLine u])
  | ["-Si", name] => found args ((db.findAvailable? name).map si)
  | _ => found args none

section Host

variable {h : Host} {db : Database} {qi : Installed → String} {si : Available → String} {args : List Arg}

theorem replies_found {text : Option String} {stdout : String}
    (hreply : db.reply qi si (args.map Arg.text) = found (args.map Arg.text) text) (htext : text = some stdout) :
    Replies (h.replying fun _ => db.reply qi si) args stdout := by
  intro timeout
  refine ⟨"", ?_⟩
  rw [htext] at hreply
  exact hreply

theorem refuses_found {text : Option String}
    (hreply : db.reply qi si (args.map Arg.text) = found (args.map Arg.text) text) (htext : text = none) :
    Refuses (h.replying fun _ => db.reply qi si) args := by
  intro timeout
  rw [htext] at hreply
  exact ⟨_, _, hreply, rfl, rfl, rfl⟩

/-- Each package is found by its name. -/
theorem Database.find?_name {p : Installed} (hp : p ∈ db.installed) : db.find? p.name = some p := by
  cases hfound : db.find? p.name with
  | none =>
    have := List.find?_eq_none.1 hfound p hp
    simp at this
  | some q =>
    obtain ⟨hq, hname⟩ := find?_some hfound
    rw [List.inj_on_of_nodup_map db.distinct hq hp hname]

/-- Such a host serves its database. -/
theorem serves_reply (hqi : ∀ p ∈ db.installed, InfoText p.fields (qi p))
    (hsi : ∀ p ∈ db.available, InfoText p.fields (si p)) : Serves (h.replying fun _ => db.reply qi si) db where
  all := replies_found rfl rfl
  one name := by
    have hreply : db.reply qi si ["-Q", name] = found ["-Q", name] ((db.find? name).map fun p => unlines [p.line]) := rfl
    cases hfound : db.find? name with
    | none => exact refuses_found hreply (by rw [hfound, Option.map_none])
    | some p => exact replies_found hreply (by rw [hfound, Option.map_some])
  info p hp := by
    have hreply : db.reply qi si ["-Qi", p.name] = found ["-Qi", p.name] ((db.find? p.name).map qi) := rfl
    exact ⟨qi p, hqi p hp, replies_found hreply (by rw [db.find?_name hp, Option.map_some])⟩
  updates := by
    have hreply : db.reply qi si ["-Qu"] =
        found ["-Qu"] (if db.updateLines = [] then none else some (unlines db.updateLines)) := rfl
    split
    · next hnone => exact refuses_found hreply (if_pos hnone)
    · next hsome => exact replies_found hreply (if_neg hsome)
  update p hp := by
    have hreply : db.reply qi si ["-Qu", p.name] =
        found ["-Qu", p.name] ((db.find? p.name).bind fun p => p.update.map fun u => unlines [p.updateLine u]) := rfl
    rw [db.find?_name hp, Option.bind_some] at hreply
    cases hu : p.update with
    | none => exact refuses_found hreply (by rw [hu, Option.map_none])
    | some u => exact replies_found hreply (by rw [hu, Option.map_some])
  available name := by
    have hreply : db.reply qi si ["-Si", name] = found ["-Si", name] ((db.findAvailable? name).map si) := rfl
    cases hfound : db.findAvailable? name with
    | none => exact refuses_found hreply (by rw [hfound, Option.map_none])
    | some p =>
      have hp : p ∈ db.available := List.mem_of_find?_eq_some hfound
      exact ⟨si p, hsi p hp, replies_found hreply (by rw [hfound, Option.map_some])⟩

end Host

/-- The fields one by one. -/
def infoText (fields : List (String × String)) : String :=
  unlines (fields.map fun f => f.1 ++ String.ofList (List.replicate 1 ' ') ++ String.singleton ':' ++ (" " ++ f.2))

theorem infoText_fields {fields : List (String × String)} (h : ∀ f ∈ fields, IsKey f.1 ∧ IsValue f.2) :
    InfoText fields (infoText fields) := by
  have hrows : ∃ rows : List InfoRow, rows.map InfoRow.text = (fields.map fun f =>
      f.1 ++ String.ofList (List.replicate 1 ' ') ++ String.singleton ':' ++ (" " ++ f.2)) ∧
      rows.filterMap InfoRow.field? = fields ∧ ∀ row ∈ rows, row.ApartFrom (fields.map Prod.fst) := by
    generalize fields.map Prod.fst = names
    induction fields with
    | nil => exact ⟨[], rfl, rfl, by simp⟩
    | cons f fields ih =>
      obtain ⟨rows, htext, hfields, hapart⟩ := ih fun g hg => h g (List.mem_cons_of_mem f hg)
      obtain ⟨hkey, hvalue⟩ := h f List.mem_cons_self
      refine ⟨.field f.1 f.2 1 hkey hvalue :: rows, ?_, ?_, List.forall_mem_cons.2 ⟨trivial, hapart⟩⟩
      · rw [List.map_cons, htext, InfoRow.text, List.map_cons]
      · rw [List.filterMap_cons, InfoRow.field?, hfields]
  obtain ⟨rows, htext, hfields, hapart⟩ := hrows
  exact ⟨rows, [], by rw [infoText, htext], by rw [hfields, List.append_nil], by simp, hapart⟩

/-- Two packages, the second one with an update that is held back, and one more in the repositories. -/
def archDatabase : Database where
  installed := [
    { name := "zlib", version := "1:1.3.1-2", description := "Compression library: deflate", dependsOn := ["glibc"]
      requiredBy := ["curl", "openssh"], installedSize := "358.39 KiB", installDate := "Sun 03 Mar 2024 10:12:05 AM UTC"
      update := none, nameWord := by decide, versionWord := by decide, related := by decide, printable := by decide },
    { name := "curl", version := "8.6.0-1", description := "", dependsOn := ["zlib", "libssl.so=3-64"]
      requiredBy := [], installedSize := "1.79 MiB", installDate := "Sun 03 Mar 2024 10:12:06 AM UTC"
      update := some { version := "8.7.1-1", ignored := true, versionWord := by decide }
      nameWord := by decide, versionWord := by decide, related := by decide, printable := by decide }]
  available := [
    { name := "nginx", version := "1.26.0-1", description := "HTTP server", versionWord := by decide
      printable := by decide }]
  distinct := by decide

def archHost : (e : Effect) → Response e :=
  Host.empty.replying fun _ => archDatabase.reply (fun p => infoText p.fields) fun p => infoText p.fields

end LinuxPatchApi.Packages.PacmanBackend
