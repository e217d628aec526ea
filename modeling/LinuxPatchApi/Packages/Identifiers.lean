/-
Package identifiers put together as `name-version-release` and taken apart again. The scan from the left ends at the
first hyphen before a digit, so it undoes the joining exactly for names in which no hyphen comes before a digit.
-/
import LinuxPatchApi.Packages.Rpm
import LinuxPatchApi.Lib.Lines

namespace LinuxPatchApi.Packages

open Text

/-! ## Scanning -/

/-- Somewhere in the name a hyphen comes before a digit. -/
def HyphenBeforeDigit (name : String) : Prop := ∃ d, isAsciiDigit d = true ∧ ['-', d] <:+: name.toList

theorem nameVersionChars_join {name version : List Char} (hname : ∀ d, isAsciiDigit d = true → ¬ ['-', d] <:+: name)
    (hversion : version.head?.any isAsciiDigit = true) :
    nameVersionChars (name ++ '-' :: version) = some (name, version) := by
  induction name with
  | nil => rw [List.nil_append, nameVersionChars, if_pos ⟨rfl, hversion⟩]
  | cons c name ih =>
    have htail : ∀ d, isAsciiDigit d = true → ¬ ['-', d] <:+: name := fun d hd h =>
      hname d hd (h.trans (List.suffix_cons c name).isInfix)
    have hhead : ¬ (c = '-' ∧ (name ++ '-' :: version).head?.any isAsciiDigit = true) := by
      rintro ⟨rfl, hdigit⟩
      cases name with
      | nil => simp [isAsciiDigit] at hdigit
      | cons d name => exact hname d (by simpa using hdigit) ⟨[], name, rfl⟩
    rw [List.cons_append, nameVersionChars, if_neg hhead, ih htail, Option.map_some]

/-- The scan ends inside a name in which a hyphen comes before a digit. -/
theorem nameVersionChars_short {name : List Char} (rest : List Char)
    (h : ∃ d, isAsciiDigit d = true ∧ ['-', d] <:+: name) :
    ∃ n v, nameVersionChars (name ++ rest) = some (n, v) ∧ n.length < name.length := by
  obtain ⟨d, hd, pre, post, rfl⟩ := h
  induction pre with
  | nil =>
    refine ⟨[], d :: (post ++ rest), ?_, by simp⟩
    simp [nameVersionChars, hd]
  | cons c pre ih =>
    obtain ⟨n, v, hn, hlen⟩ := ih
    by_cases hc : c = '-' ∧ (pre ++ ['-', d] ++ post ++ rest).head?.any isAsciiDigit = true
    · refine ⟨[], pre ++ ['-', d] ++ post ++ rest, ?_, by simp⟩
      rw [List.cons_append, List.cons_append, List.cons_append, nameVersionChars, if_pos hc]
    · refine ⟨c :: n, v, ?_, by simpa using hlen⟩
      rw [List.cons_append, List.cons_append, List.cons_append, nameVersionChars, if_neg hc, hn, Option.map_some]

theorem splitNameVersion_join_iff {name version : String} (hversion : version.toList.head?.any isAsciiDigit = true) :
    splitNameVersion (name ++ "-" ++ version) = (name, version) ↔ ¬ HyphenBeforeDigit name := by
  have htext : (name ++ "-" ++ version).toList = name.toList ++ '-' :: version.toList := by simp
  unfold splitNameVersion
  rw [htext]
  constructor
  · intro h hname
    obtain ⟨n, v, hscan, hlen⟩ := nameVersionChars_short ('-' :: version.toList) hname
    rw [hscan] at h
    have hn : n = name.toList := by rw [← (Prod.mk.inj h).1, String.toList_ofList]
    rw [hn] at hlen
    exact Nat.lt_irrefl _ hlen
  · intro hname
    rw [nameVersionChars_join (fun d hd h => hname ⟨d, hd, h⟩) hversion]
    simp

/-! ## Identifiers -/

/-- What an identifier is put together from. -/
structure Identifier where
  name : String
  version : String
  release : String
  validName : validatePackageName name = .ok ()
  versionDigit : version.toList.head?.any isAsciiDigit = true
  versionHyphen : '-' ∉ version.toList
  releaseHyphen : '-' ∉ release.toList

namespace Identifier

def versionRelease (x : Identifier) : String := x.version ++ "-" ++ x.release

def text (x : Identifier) : String := x.name ++ "-" ++ x.versionRelease

theorem splitNameVersion_text_iff (x : Identifier) :
    splitNameVersion x.text = (x.name, x.versionRelease) ↔ ¬ HyphenBeforeDigit x.name := by
  refine splitNameVersion_join_iff ?_
  have hdigit := x.versionDigit
  unfold versionRelease
  cases hv : x.version.toList with
  | nil => simp [hv] at hdigit
  | cons c cs =>
    rw [hv] at hdigit
    simpa [hv] using hdigit

theorem name_chars (x : Identifier) :
    ∀ c ∈ x.name.toList, isAsciiAlphanumeric c = true ∨ c ∈ ['+', '.', '_', '-'] :=
  (validateText_ok x.validName).2.2

theorem name_head (x : Identifier) : ∃ c cs, x.name.toList = c :: cs ∧ isAsciiAlphanumeric c = true := by
  have hbegins := (validateText_ok x.validName).1
  unfold beginsAlphanumeric at hbegins
  split at hbegins
  · cases hbegins
  next c cs hcs => exact ⟨c, cs, hcs, hbegins⟩

end Identifier

/-! ## Listings -/

/-- An installed package as `rpm -qa` prints it: an identifier without line feeds and an architecture. -/
structure Rpm.Installed extends Identifier where
  arch : String
  versionFeed : '\n' ∉ version.toList
  releaseFeed : '\n' ∉ release.toList
  archChars : ∀ c ∈ arch.toList, (isAsciiAlphanumeric c || c == '_') = true

theorem isWhitespace_of_alphanumeric {c : Char} (h : isAsciiAlphanumeric c = true) : isWhitespace c = false := by
  simp only [isAsciiAlphanumeric, isAsciiAlpha, isAsciiDigit, Bool.or_eq_true, Bool.and_eq_true,
    decide_eq_true_eq] at h
  simp only [isWhitespace, Bool.or_eq_false_iff, Bool.and_eq_false_iff, decide_eq_false_iff_not, beq_eq_false_iff_ne]
  omega

namespace Rpm.Installed

def line (x : Rpm.Installed) : String := x.text ++ "." ++ x.arch

theorem arch_not_mem (x : Rpm.Installed) {c : Char} (hc : (isAsciiAlphanumeric c || c == '_') = false) :
    c ∉ x.arch.toList := fun h => by
  rw [x.archChars c h] at hc
  cases hc

theorem name_not_mem (x : Rpm.Installed) {c : Char} (hc : isAsciiAlphanumeric c = false)
    (hextra : c ∉ ['+', '.', '_', '-']) : c ∉ x.name.toList := fun h => by
  rcases x.name_chars c h with h | h
  · rw [hc] at h
    cases h
  · exact hextra h

/-- A line ends with the architecture, or with the dot before an empty one. -/
theorem line_last (x : Rpm.Installed) :
    ∀ c ∈ x.line.toList.getLast?, (isAsciiAlphanumeric c || c == '_') = true ∨ c = '.' := by
  intro c hc
  have hline : x.line.toList = x.text.toList ++ ('.' :: x.arch.toList) := by simp [line]
  rw [hline, List.getLast?_append_of_ne_nil _ (by simp)] at hc
  rcases List.mem_cons.1 (List.mem_of_getLast? hc) with rfl | hc
  · exact .inr rfl
  · exact .inl (x.archChars c hc)

theorem isLine (x : Rpm.Installed) : IsLine x.line := by
  constructor
  · have hname := x.name_not_mem (c := '\n') (by decide) (by decide)
    have harch := x.arch_not_mem (c := '\n') (by decide)
    simp [line, Identifier.text, Identifier.versionRelease, hname, harch, x.versionFeed, x.releaseFeed]
  · intro h
    rcases x.line_last '\r' h with h | h
    · exact absurd h (by decide)
    · exact absurd h (by decide)

theorem trim_line (x : Rpm.Installed) : trim x.line = x.line := by
  refine trim_eq_self (fun c hc => ?_) fun c hc => ?_
  · obtain ⟨d, cs, hname, hd⟩ := x.name_head
    have hline : x.line.toList.head? = some d := by simp [line, Identifier.text, hname]
    rw [hline] at hc
    cases hc
    exact isWhitespace_of_alphanumeric hd
  · rcases x.line_last c hc with h | rfl
    · rcases Bool.or_eq_true _ _ ▸ h with h | h
      · exact isWhitespace_of_alphanumeric h
      · rw [beq_iff_eq.1 h]
        decide
    · decide

theorem withoutArch_line (x : Rpm.Installed) : withoutArch x.line = x.text := by
  have hsplit := rsplitOnce_append x.text (x.arch_not_mem (c := '.') (by decide))
  unfold withoutArch line
  rw [show "." = String.singleton '.' from rfl, hsplit]
  exact if_pos (List.all_eq_true.2 x.archChars)

theorem parsePackageLine_line (x : Rpm.Installed) :
    ∃ p, parsePackageLine x.line = some p ∧ (p.name, p.version) = splitNameVersion x.text := by
  have hne : x.line.isEmpty = false := by
    rw [← Bool.not_eq_true, String.isEmpty_iff]
    simp [line]
  unfold parsePackageLine
  simp only [trim_line, hne, withoutArch_line, parseRpmNameVersion]
  exact ⟨_, rfl, rfl⟩

end Rpm.Installed

theorem Rpm.parseRpmPackageList_unlines (xs : List Rpm.Installed) :
    (parseRpmPackageList (unlines (xs.map Rpm.Installed.line))).map (fun p => (p.name, p.version)) =
      xs.map fun x => splitNameVersion x.text := by
  have hlines : ∀ l ∈ xs.map Rpm.Installed.line, IsLine l := by
    intro l hl
    obtain ⟨x, _, rfl⟩ := List.mem_map.1 hl
    exact x.isLine
  unfold parseRpmPackageList
  rw [lines_unlines hlines]
  clear hlines
  induction xs with
  | nil => rfl
  | cons x xs ih =>
    obtain ⟨p, hp, hsplit⟩ := x.parsePackageLine_line
    rw [List.map_cons, List.filterMap_cons_some hp, List.map_cons, List.map_cons, hsplit, ih]

/-- Splitting undoes joining exactly for the names in which no hyphen comes before a digit, and a listing is taken
apart exactly if all its names are such. -/
theorem identifiers_split_iff (x : Identifier) (xs : List Rpm.Installed) :
    (ApkBackend.parseNameVersion x.text = (x.name, x.versionRelease) ↔ ¬ HyphenBeforeDigit x.name) ∧
      (Rpm.parseRpmNameVersion x.text = (x.name, x.versionRelease) ↔ ¬ HyphenBeforeDigit x.name) ∧
      ((Rpm.parseRpmPackageList (unlines (xs.map Rpm.Installed.line))).map (fun p => (p.name, p.version)) =
        xs.map (fun x => (x.name, x.versionRelease)) ↔ ∀ x ∈ xs, ¬ HyphenBeforeDigit x.name) := by
  refine ⟨x.splitNameVersion_text_iff, x.splitNameVersion_text_iff, ?_⟩
  rw [Rpm.parseRpmPackageList_unlines, List.map_inj_left]
  exact forall₂_congr fun x _ => x.splitNameVersion_text_iff

/-- `java-1.8.0-openjdk` is taken for `java` in version `1.8.0-openjdk-1.8.0.412-1.fc39`. -/
theorem java_misread : ∃ x : Rpm.Installed,
    x.name = "java-1.8.0-openjdk" ∧ x.version = "1.8.0.412" ∧ x.release = "1.fc39" ∧
      ApkBackend.parseNameVersion x.text = ("java", "1.8.0-openjdk-1.8.0.412-1.fc39") ∧
      Rpm.parseRpmNameVersion x.text = ("java", "1.8.0-openjdk-1.8.0.412-1.fc39") ∧
      (Rpm.parseRpmPackageList (unlines [x.line])).map (fun p => (p.name, p.version)) ≠
        [(x.name, x.versionRelease)] :=
  ⟨{ name := "java-1.8.0-openjdk", version := "1.8.0.412", release := "1.fc39", arch := "x86_64"
     validName := by decide, versionDigit := by decide, versionHyphen := by decide, releaseHyphen := by decide
     versionFeed := by decide, releaseFeed := by decide, archChars := List.all_eq_true.1 (by decide) },
    rfl, rfl, rfl, by decide, by decide, by decide⟩

end LinuxPatchApi.Packages
