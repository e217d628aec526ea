/-
The lines of `apt list --upgradable` read by the two parsers of the backend. The package parser finds in the columns
what apt puts there; the patch parser takes the new version for the current one, and the architecture for the
available version.
-/
import LinuxPatchApi.Packages.CommandRuns
import LinuxPatchApi.Lib.Lines

namespace LinuxPatchApi.Packages.AptBackend

open Text Interaction

/-! ## Listings -/

/-- A package that can be upgraded, as apt lists it. -/
structure Upgrade where
  name : String
  suites : String
  new : String
  arch : String
  old : String
  nameWord : IsWord name
  nameSlash : '/' ∉ name.toList
  suitesWord : ∀ c ∈ suites.toList, isWhitespace c = false
  newWord : IsWord new
  archWord : IsWord arch
  oldFeed : '\n' ∉ old.toList

inductive Row
  | header (rest : String) (isLine : IsLine ("Listing..." ++ rest))
  | blank (text : String) (isLine : IsLine text) (isBlank : ∀ c ∈ text.toList, isWhitespace c = true)
  | upgrade (u : Upgrade)

namespace Upgrade

/-- The first column. -/
def slashed (u : Upgrade) : String := u.name ++ "/" ++ u.suites

/-- The remark in brackets, which is the rest of the line from the fourth column on. -/
def remark (u : Upgrade) : String := "[upgradable" ++ " " ++ ("from: " ++ u.old ++ "]")

def line (u : Upgrade) : String := u.slashed ++ " " ++ (u.new ++ " " ++ (u.arch ++ " " ++ u.remark))

theorem slashed_isWord (u : Upgrade) : IsWord u.slashed := by
  refine ⟨by simp [slashed], fun c hc => ?_⟩
  simp only [slashed, String.toList_append, List.mem_append, List.mem_singleton, show "/".toList = ['/'] from rfl] at hc
  rcases hc with (hc | rfl) | hc
  · exact u.nameWord.2 c hc
  · decide
  · exact u.suitesWord c hc

theorem words_line (u : Upgrade) :
    splitWhitespace u.line =
      u.slashed :: u.new :: u.arch :: "[upgradable" :: splitWhitespace ("from: " ++ u.old ++ "]") := by
  rw [line, splitWhitespace_cons u.slashed_isWord, splitWhitespace_cons u.newWord, splitWhitespace_cons u.archWord,
    remark, splitWhitespace_cons (by decide)]

theorem slashed_name (u : Upgrade) : (split u.slashed '/').headD u.slashed = u.name := by
  have hchars : u.slashed.toList = u.name.toList ++ '/' :: u.suites.toList := by simp [slashed]
  rw [split, hchars, splitChars_append u.nameSlash]
  simp

theorem startsWith_line (u : Upgrade) : startsWith u.line "Listing..." = startsWith u.name "Listing..." := by
  have hline : ∃ rest, u.line.toList = u.name.toList ++ '/' :: rest :=
    ⟨u.suites.toList ++ ' ' :: (u.new ++ " " ++ (u.arch ++ " " ++ u.remark)).toList, by simp [line, slashed]⟩
  obtain ⟨rest, hline⟩ := hline
  rw [Bool.eq_iff_iff, startsWith, startsWith, hline, List.isPrefixOf_iff_prefix, List.isPrefixOf_iff_prefix]
  exact prefix_before (by decide)

theorem isLine (u : Upgrade) : IsLine u.line := by
  have hword {w : String} (h : ∀ c ∈ w.toList, isWhitespace c = false) : '\n' ∉ w.toList := fun hc => by
    have := h '\n' hc
    revert this
    decide
  have hname := hword u.slashed_isWord.2
  have hnew := hword u.newWord.2
  have harch := hword u.archWord.2
  constructor
  · simp [line, remark, hname, hnew, harch, u.oldFeed]
  · have hlast : u.line = u.slashed ++ " " ++ (u.new ++ " " ++ (u.arch ++ " " ++ ("[upgradable from: " ++ u.old))) ++
        "]" := by
      rw [line, remark]
      apply String.toList_inj.1
      simp
    rw [hlast, String.toList_append, List.getLast?_append_of_ne_nil _ (by decide)]
    decide

end Upgrade

namespace Row

def line : Row → String
  | header rest _ => "Listing..." ++ rest
  | blank text _ _ => text
  | upgrade u => u.line

def upgrade? : Row → Option Upgrade
  | upgrade u => some u
  | _ => none

theorem isLine : ∀ row : Row, IsLine row.line
  | header _ h => h
  | blank _ h _ => h
  | upgrade u => u.isLine

end Row

/-- What apt prints. -/
def listing (rows : List Row) : String := unlines (rows.map Row.line)

def upgrades (rows : List Row) : List Upgrade := rows.filterMap Row.upgrade?

/-- A function of the lines that finds nothing in the header and in blank lines finds what it finds in the upgrades. -/
theorem filterMap_listing {α : Type} {f : String → Option α} (rows : List Row)
    (hheader : ∀ rest, f ("Listing..." ++ rest) = none)
    (hblank : ∀ text : String, (∀ c ∈ text.toList, isWhitespace c = true) → f text = none) :
    (lines (listing rows)).filterMap f = (upgrades rows).filterMap fun u => f u.line := by
  have hlines : ∀ l ∈ rows.map Row.line, IsLine l := by
    intro l hl
    obtain ⟨row, _, rfl⟩ := List.mem_map.1 hl
    exact row.isLine
  rw [listing, lines_unlines hlines, upgrades, List.filterMap_map, List.filterMap_filterMap]
  refine List.filterMap_congr fun row _ => ?_
  cases row with
  | header rest _ => exact hheader rest
  | blank text _ h => exact hblank text h
  | upgrade u => rfl

/-! ## The two parsers -/

theorem startsWith_append (p s : String) : startsWith (p ++ s) p = true := by
  rw [startsWith, List.isPrefixOf_iff_prefix, String.toList_append]
  exact List.prefix_append _ _

theorem splitWhitespace_blank {s : String} (h : ∀ c ∈ s.toList, isWhitespace c = true) : splitWhitespace s = [] := by
  rw [splitWhitespace, wordChars_blank h, List.map_nil]

theorem patchOfLine_header (rest : String) : patchOfLine ("Listing..." ++ rest) = none :=
  if_pos (startsWith_append _ _)

theorem patchOfLine_blank {text : String} (h : ∀ c ∈ text.toList, isWhitespace c = true) : patchOfLine text = none := by
  unfold patchOfLine
  rw [splitWhitespace_blank h]
  split <;> rfl

/-- The patch parser takes the second and the third column for the versions. -/
theorem patchOfLine_line (u : Upgrade) :
    patchOfLine u.line = if startsWith u.name "Listing..." = true then none
      else some (Patch.of u.name u.new u.arch "Package update available") := by
  unfold patchOfLine
  rw [u.startsWith_line, u.words_line]
  simp only [u.slashed_name]

theorem parsePackageLine_header (rest : String) : parsePackageLine ("Listing..." ++ rest) = none := by
  unfold parsePackageLine
  rw [startsWith_append]
  rfl

theorem parsePackageLine_blank {text : String} (h : ∀ c ∈ text.toList, isWhitespace c = true) :
    parsePackageLine text = none := by
  unfold parsePackageLine
  rw [splitWhitespace_blank h]
  split <;> rfl

theorem parsePackageLine_line (u : Upgrade) :
    parsePackageLine u.line = if startsWith u.name "Listing..." = true then none
      else some {
        name := u.name, version := u.new, status := .upgradable, upgradable := true, latestVersion := some u.new } := by
  have hne : u.line.isEmpty = false := by
    rw [← Bool.not_eq_true, String.isEmpty_iff]
    simp [Upgrade.line]
  have hinstalled : contains "[upgradable" "installed" = false := by decide
  have hupgradable : contains "[upgradable" "upgradable" = true := by decide
  unfold parsePackageLine
  rw [u.startsWith_line, u.words_line, hne, Bool.or_false]
  simp only [u.slashed_name, List.headD_cons, hinstalled, hupgradable]
  rfl

/-! ## Decoding -/

/-- Whenever apt prints the listing, `list_patches` returns its upgrades, with the versions that they are from and
to. -/
def DecodesPatches (rows : List Row) : Prop :=
  ∀ (output : CommandOutput) (r : Except AnyhowError (List Patch)), output.stdout = listing rows →
    Runs listPatches.run [⟨.run "apt" (["list", "--upgradable"] : List Arg) (some quickOpTimeout), .ok output⟩] r →
    ∃ patches, r = .ok patches ∧ patches.map (fun p => (p.name, p.currentVersion, p.availableVersion)) =
      (upgrades rows).map fun u => (u.name, u.old, u.new)

/-- `parse_package_list` marks every upgrade of the listing as upgradable. -/
def DecodesPackages (rows : List Row) : Prop :=
  (parsePackageList (listing rows)).map (fun p => (p.name, p.status, p.upgradable)) =
    (upgrades rows).map fun u => (u.name, .upgradable, true)

theorem runs_listPatches {output : CommandOutput} {r : Except AnyhowError (List Patch)} :
    Runs listPatches.run [⟨.run "apt" (["list", "--upgradable"] : List Arg) (some quickOpTimeout), .ok output⟩] r ↔
      r = .ok ((lines output.stdout).filterMap patchOfLine) := by
  refine runs_handOn.trans ⟨?_, ?_⟩
  · rintro ⟨s, rfl, h⟩
    obtain ⟨a, rfl, ht⟩ := runs_runCommandTimed.1 h
    cases ht
    rfl
  · rintro rfl
    exact ⟨.ok output.stdout, rfl, runs_runCommandTimed.2 ⟨.ok output, rfl, rfl⟩⟩

theorem decodesPatches_iff (rows : List Row) :
    DecodesPatches rows ↔
      ∀ u ∈ upgrades rows, startsWith u.name "Listing..." = false ∧ u.old = u.new ∧ u.new = u.arch := by
  have hdecodes : DecodesPatches rows ↔
      ((upgrades rows).filterMap fun u => (patchOfLine u.line).map fun p =>
        (p.name, p.currentVersion, p.availableVersion)) = (upgrades rows).map fun u => (u.name, u.old, u.new) := by
    rw [← List.map_filterMap, ← filterMap_listing rows patchOfLine_header fun _ => patchOfLine_blank]
    constructor
    · intro h
      obtain ⟨patches, hr, hmap⟩ := h ⟨some 0, listing rows, "", false⟩ _ rfl (runs_listPatches.2 rfl)
      cases hr
      exact hmap
    · intro h output r hout hrun
      refine ⟨_, runs_listPatches.1 hrun, ?_⟩
      rw [hout]
      exact h
  rw [hdecodes, List.filterMap_eq_map_iff_forall_eq_some]
  refine forall₂_congr fun u _ => ?_
  rw [patchOfLine_line]
  cases startsWith u.name "Listing..." with
  | true => simp
  | false => simp [Patch.of, eq_comm]

theorem decodesPackages_iff (rows : List Row) :
    DecodesPackages rows ↔ ∀ u ∈ upgrades rows, startsWith u.name "Listing..." = false := by
  unfold DecodesPackages parsePackageList
  rw [filterMap_listing rows parsePackageLine_header fun _ => parsePackageLine_blank, List.map_filterMap,
    List.filterMap_eq_map_iff_forall_eq_some]
  refine forall₂_congr fun u _ => ?_
  rw [parsePackageLine_line]
  cases startsWith u.name "Listing..." <;> simp

/-- A listing is decoded exactly if for each of its packages the old version, the new version and the architecture are
one text, and no name begins like the header. -/
theorem upgradable_listing_iff (rows : List Row) :
    DecodesPatches rows ∧ DecodesPackages rows ↔
      ∀ u ∈ upgrades rows, startsWith u.name "Listing..." = false ∧ u.old = u.new ∧ u.new = u.arch := by
  rw [decodesPatches_iff, decodesPackages_iff]
  exact ⟨fun h => h.1, fun h => ⟨h, fun u hu => (h u hu).1⟩⟩

theorem isWord_curl : IsWord "curl" := by decide

/-- The line `curl/noble-updates 8.5.0-2 amd64 [upgradable from: 8.5.0-1]`. -/
def curlUpgrade : Upgrade where
  name := "curl"
  suites := "noble-updates"
  new := "8.5.0-2"
  arch := "amd64"
  old := "8.5.0-1"
  nameWord := isWord_curl
  nameSlash := by decide
  suitesWord := And.right (by decide : IsWord "noble-updates")
  newWord := by decide
  archWord := by decide
  oldFeed := by decide

/-- The patch is from `8.5.0-2` to `amd64`. -/
theorem curl_patch_misread :
    curlUpgrade.line = "curl/noble-updates 8.5.0-2 amd64 [upgradable from: 8.5.0-1]" ∧
      patchOfLine curlUpgrade.line = some (Patch.of "curl" "8.5.0-2" "amd64" "Package update available") ∧
      ¬ DecodesPatches [.header "" (by decide), .upgrade curlUpgrade] := by
  refine ⟨by decide, by decide, fun h => ?_⟩
  obtain ⟨_, hversions, _⟩ := (decodesPatches_iff _).1 h curlUpgrade (by simp [upgrades, Row.upgrade?])
  exact absurd hversions (by decide)

end LinuxPatchApi.Packages.AptBackend
