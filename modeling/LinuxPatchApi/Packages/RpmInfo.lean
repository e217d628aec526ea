/-
The output of `rpm -qi`: header lines of a field and its value, then the description. Which values come out of the
line loop that reads it, and when they are those of the header.
-/
import LinuxPatchApi.Lib.Search
import LinuxPatchApi.Lib.Overwrite
import LinuxPatchApi.Packages.RpmUpdates

namespace LinuxPatchApi.Packages.Rpm

open Text Interaction

/-! ## What is taken from the output -/

/-- The four header fields that `parse_rpm_info` takes. -/
inductive TakenField
  | version
  | release
  | installDate
  | size
  deriving DecidableEq, Repr

def TakenField.label : TakenField → String
  | .version => "Version"
  | .release => "Release"
  | .installDate => "Install Date"
  | .size => "Size"

def InfoState.value (st : InfoState) : TakenField → Option String
  | .version => some st.version
  | .release => some st.release
  | .installDate => st.installDate
  | .size => st.sizeInstalled

def InfoState.set (st : InfoState) (f : TakenField) (v : String) : InfoState :=
  match f with
  | .version => { st with version := v }
  | .release => { st with release := v }
  | .installDate => { st with installDate := some v }
  | .size => { st with sizeInstalled := some v }

theorem value_set (st : InfoState) (f g : TakenField) (v : String) :
    (st.set f v).value g = if g = f then some v else st.value g := by
  cases f <;> cases g <;> rfl

theorem value_description (st : InfoState) (v : String) (f : TakenField) :
    ({ st with description := v } : InfoState).value f = st.value f := by
  cases f <;> rfl

theorem value_inDescription (st : InfoState) (b : Bool) (f : TakenField) :
    ({ st with inDescription := b } : InfoState).value f = st.value f := by
  cases f <;> rfl

/-- The words that the line loop looks for. -/
def lineWords : List String := ["Version", "Release", "Install Date", "Size", "Summary", "Description"]

/-- None of the words begins another. -/
theorem lineWords_apart :
    lineWords.all (fun a => lineWords.all fun b => a == b || !a.toList.isPrefixOf b.toList) = true := by decide

/-- A line begins with one of the words only. -/
theorem startsWith_one {line a b : String} (ha : a ∈ lineWords) (hb : b ∈ lineWords) (hab : a ≠ b)
    (h : startsWith line a = true) : startsWith line b = false := by
  have happart : ∀ {x y : String}, x ∈ lineWords → y ∈ lineWords → x ≠ y → ¬ x.toList <+: y.toList := by
    intro x y hx hy hxy hp
    have hall := List.all_eq_true.1 (List.all_eq_true.1 lineWords_apart x hx) y hy
    rw [List.isPrefixOf_iff_prefix.2 hp] at hall
    simp [hxy] at hall
  rw [Bool.eq_false_iff, ne_eq]
  intro h'
  unfold startsWith at h h'
  rw [List.isPrefixOf_iff_prefix] at h h'
  rcases List.prefix_or_prefix_of_prefix h h' with hp | hp
  · exact happart ha hb hab hp
  · exact happart hb ha hab.symm hp

theorem label_injective : Function.Injective TakenField.label := by
  intro f g h
  revert h
  cases f <;> cases g <;> decide

theorem label_mem (f : TakenField) : f.label ∈ lineWords := by cases f <;> decide

section Line

variable {st : InfoState} {line : String} {f : TakenField}

theorem infoField_taken (h : startsWith line f.label = true) : infoField st line = st.set f (fieldValue line) := by
  have hnot : ∀ {a : String}, a ∈ lineWords → f.label ≠ a → ¬ startsWith line a = true := fun ha hne hstarts => by
    rw [startsWith_one (label_mem f) ha hne h] at hstarts
    cases hstarts
  unfold infoField
  cases f with
  | version =>
    have hword : startsWith line "Version" = true := h
    rw [if_pos hword, InfoState.set]
  | release =>
    have hword : startsWith line "Release" = true := h
    rw [if_neg (hnot (a := "Version") (by decide) (by decide)), if_pos hword, InfoState.set]
  | installDate =>
    have hword : startsWith line "Install Date" = true := h
    rw [if_neg (hnot (a := "Version") (by decide) (by decide)), if_neg (hnot (a := "Release") (by decide) (by decide)),
      if_pos hword, InfoState.set]
  | size =>
    have hword : startsWith line "Size" = true := h
    rw [if_neg (hnot (a := "Version") (by decide) (by decide)), if_neg (hnot (a := "Release") (by decide) (by decide)),
      if_neg (hnot (a := "Install Date") (by decide) (by decide)), if_pos hword, InfoState.set]

theorem infoField_other (h : ∀ f : TakenField, startsWith line f.label = false) :
    (infoField st line).value f = st.value f := by
  have hnot : ∀ g : TakenField, ¬ startsWith line g.label = true := fun g hg => by
    rw [h g] at hg
    cases hg
  have hversion : ¬ startsWith line "Version" = true := hnot .version
  have hrelease : ¬ startsWith line "Release" = true := hnot .release
  have hdate : ¬ startsWith line "Install Date" = true := hnot .installDate
  have hsize : ¬ startsWith line "Size" = true := hnot .size
  unfold infoField
  rw [if_neg hversion, if_neg hrelease, if_neg hdate, if_neg hsize]
  split
  · split
    · exact value_description st _ f
    · rfl
  split
  · dsimp only
    split
    · exact value_inDescription st true f
    · exact (value_description { st with inDescription := true } (fieldValue line) f).trans
        (value_inDescription st true f)
  · rfl

theorem value_infoField : (infoField st line).value f =
    if startsWith line f.label then some (fieldValue line) else st.value f := by
  by_cases h : ∃ g : TakenField, startsWith line g.label = true
  · obtain ⟨g, hg⟩ := h
    rw [infoField_taken hg, value_set]
    by_cases hf : f = g
    · rw [if_pos hf, hf, if_pos hg]
    · have hne : g.label ≠ f.label := fun he => hf (label_injective he.symm)
      rw [if_neg hf, startsWith_one (label_mem g) (label_mem f) hne hg, if_neg Bool.false_ne_true]
  · have hnone : ∀ g : TakenField, startsWith line g.label = false := fun g =>
      Bool.eq_false_iff.2 fun hg => h ⟨g, hg⟩
    rw [infoField_other hnone, hnone f, if_neg Bool.false_ne_true]

end Line

/-- An indented line begins with no field's name. -/
theorem startsWith_blank {line : String} (h : startsWith line " " = true) (f : TakenField) :
    startsWith line f.label = false := by
  unfold startsWith at h ⊢
  obtain ⟨rest, hrest⟩ := List.isPrefixOf_iff_prefix.1 h
  rw [← hrest]
  cases f <;> rfl

/-- Whether or not the line is taken for one of the description, it sets the field exactly when it begins with the
field's name. -/
theorem value_infoLine (st : InfoState) (line : String) (f : TakenField) :
    (infoLine st line).value f = if startsWith line f.label then some (fieldValue line) else st.value f := by
  unfold infoLine
  split
  · split
    · next hskipped =>
      -- an indented or empty line begins with no field's name
      have hnone : startsWith line f.label = false := by
        rw [Bool.or_eq_true] at hskipped
        rcases hskipped with hblank | hempty
        · exact startsWith_blank hblank f
        · rw [String.isEmpty_iff.1 hempty]
          cases f <;> rfl
      rw [hnone, if_neg Bool.false_ne_true]
      exact value_description st _ f
    · rw [value_infoField, value_inDescription]
  · exact value_infoField

/-- The last line that begins with the field's name sets the field. -/
theorem value_infoOf (output : String) (f : TakenField) : (infoOf output).value f =
    match ((lines output).filter fun line => startsWith line f.label).getLast? with
    | some line => some (fieldValue line)
    | none => ({} : InfoState).value f := by
  have hstep : ∀ st line, (infoLine st line).value f =
      (if startsWith line f.label then some (some (fieldValue line)) else none).getD (st.value f) := fun st line => by
    rw [value_infoLine]
    split <;> rfl
  rw [infoOf, Overwrite.observe (v := (InfoState.value · f)) hstep, Overwrite.run_ite]
  cases ((lines output).filter fun line => startsWith line f.label).getLast? <;> rfl

/-! ## Header lines -/

/-- A line of the header: the name of a field, blanks, a colon, and the value. -/
structure HeaderLine where
  field : String
  blanks : ℕ
  value : String
  trimmed : trim field = field
  noColon : ':' ∉ field.toList

def HeaderLine.text (h : HeaderLine) : String :=
  h.field ++ String.ofList (List.replicate h.blanks ' ') ++ ":" ++ h.value

section Header

variable {h : HeaderLine} {f : TakenField}

/-- The value up to its first colon. -/
def beforeColon (value : String) : String := String.ofList (value.toList.takeWhile (· ≠ ':'))

/-- What is taken from a header line is cut at the first colon of the value. -/
theorem fieldValue_text : fieldValue h.text = trim (beforeColon h.value) := by
  have hchars : h.text.toList = (h.field.toList ++ List.replicate h.blanks ' ') ++ ':' :: h.value.toList := by
    simp [HeaderLine.text]
  have hcolon : ':' ∉ h.field.toList ++ List.replicate h.blanks ' ' := by
    rw [List.mem_append, not_or]
    exact ⟨h.noColon, fun hmem => by simpa using List.eq_of_mem_replicate hmem⟩
  obtain ⟨ps, hps⟩ := splitChars_head ':' h.value.toList
  rw [fieldValue, split, hchars, splitChars_append hcolon, hps]
  rfl

theorem colon_not_mem_fieldValue (line : String) : ':' ∉ (fieldValue line).toList := by
  unfold fieldValue
  rw [mem_trim (by decide)]
  rcases hps : split line ':' with _ | ⟨p, _ | ⟨q, ps⟩⟩
  · simp
  · simp
  · have hq : q ∈ split line ':' := by simp [hps]
    obtain ⟨cs, hcs, rfl⟩ := List.mem_map.1 hq
    simpa using not_mem_of_mem_splitChars hcs

/-- A value is taken whole if and only if it has no colon. -/
theorem fieldValue_text_eq_iff : fieldValue h.text = trim h.value ↔ ':' ∉ h.value.toList := by
  constructor
  · intro heq
    rw [← mem_trim (by decide), ← heq]
    exact colon_not_mem_fieldValue h.text
  · intro hcolon
    have hwhole : h.value.toList.takeWhile (· ≠ ':') = h.value.toList :=
      List.takeWhile_eq_self_iff.2 fun c hc => by simpa using fun he : c = ':' => hcolon (he ▸ hc)
    rw [fieldValue_text, beforeColon, hwhole, String.ofList_toList]

theorem startsWith_text (hf : h.field = f.label) : startsWith h.text f.label = true := by
  rw [startsWith, List.isPrefixOf_iff_prefix, ← hf]
  simp [HeaderLine.text]

end Header

/-! ## Whole values, and only from the header -/

/-- A list ends in the last element with a property and elements without it, or has no element with it. -/
theorem split_last {α : Type} (p : α → Bool) (l : List α) :
    (l.filter p = [] ∧ (l.reverse.takeWhile (!p ·)).reverse = l) ∨
    ∃ pre x, p x = true ∧ (l.filter p).getLast? = some x ∧ l = pre ++ x :: (l.reverse.takeWhile (!p ·)).reverse := by
  have hsplit := List.takeWhile_append_dropWhile (p := (!p ·)) (l := l.reverse)
  rcases hdrop : l.reverse.dropWhile (!p ·) with _ | ⟨x, rest⟩
  · left
    have hall : ∀ y ∈ l.reverse, (!p y) = true := List.dropWhile_eq_nil_iff.1 hdrop
    rw [hdrop, List.append_nil] at hsplit
    rw [hsplit, List.reverse_reverse, List.filter_eq_nil_iff]
    exact ⟨fun y hy => by simpa using hall y (List.mem_reverse.2 hy), rfl⟩
  · right
    have hx : p x = true := by
      have hhead := List.head?_dropWhile_not (!p ·) l.reverse
      rw [hdrop] at hhead
      simpa using hhead
    have hl : l = rest.reverse ++ x :: (l.reverse.takeWhile (!p ·)).reverse := by
      have hrev := congrArg List.reverse hsplit
      rw [hdrop, List.reverse_reverse] at hrev
      exact hrev.symm.trans (by simp)
    refine ⟨rest.reverse, x, hx, ?_, hl⟩
    have hnone : (l.reverse.takeWhile (!p ·)).reverse.filter p = [] := List.filter_eq_nil_iff.2 fun y hy => by
      simpa using List.mem_takeWhile_imp (List.mem_reverse.1 hy)
    rw [hl, List.filter_append, List.filter_cons_of_pos hx, hnone]
    simp

section Info

variable (header : List HeaderLine) (description : List String) (f : TakenField)

/-- The header line of the field. -/
def headerLine : Option HeaderLine := (header.filter fun h => h.field == f.label).getLast?

/-- What the header says of the field. -/
def headerValue : Option String :=
  match headerLine header f with
  | some h => some (trim h.value)
  | none => ({} : InfoState).value f

/-- The lines after the field's header line, those of the header and those of the description. -/
def linesAfter : List String :=
  (header.reverse.takeWhile fun h => !(h.field == f.label)).reverse.map HeaderLine.text ++ description

/-- The last of these lines that begins with the field's name. -/
def intruder : Option String := ((linesAfter header description f).filter fun line => startsWith line f.label).getLast?

/-- The header's value has no colon, and no later line takes its place with another value. -/
def Undisturbed : Prop :=
  (∀ h, headerLine header f = some h → ':' ∉ h.value.toList) ∧
    ∀ line, intruder header description f = some line → headerValue header f = some (fieldValue line)

variable {header description f} {output first : String}

/-- The field's value is that of the last line that claims to be it: an intruder, or else the header line. -/
theorem value_of_printed (hfirst : startsWith first "Description" = true)
    (hlines : lines output = header.map HeaderLine.text ++ first :: description) : (infoOf output).value f =
      match intruder header description f, headerLine header f with
      | some line, _ => some (fieldValue line)
      | none, some h => some (fieldValue h.text)
      | none, none => ({} : InfoState).value f := by
  have hskip : startsWith first f.label = false :=
    startsWith_one (by decide) (label_mem f) (by cases f <;> decide) hfirst
  rw [value_infoOf, hlines]
  unfold intruder linesAfter headerLine
  rcases split_last (fun h : HeaderLine => h.field == f.label) header with ⟨hnone, hall⟩ | ⟨pre, h, hf, hlast, hheader⟩
  · rw [hnone, hall, List.filter_append, List.filter_append, List.filter_cons_of_neg (by simp [hskip])]
    cases (header.map HeaderLine.text |>.filter fun line => startsWith line f.label) ++
      (description.filter fun line => startsWith line f.label) |>.getLast? <;> rfl
  · rw [hlast]
    have hline : startsWith h.text f.label = true := startsWith_text (beq_iff_eq.1 hf)
    generalize (header.reverse.takeWhile fun h => !(h.field == f.label)).reverse = after at hheader ⊢
    rw [hheader, List.map_append, List.map_cons, List.append_assoc, List.cons_append, List.filter_append,
      List.filter_cons_of_pos (p := fun line => startsWith line f.label) hline, List.filter_append,
      List.filter_cons_of_neg (by simp [hskip]), List.filter_append, List.getLast?_append, List.getLast?_cons]
    cases (after.map HeaderLine.text |>.filter fun line => startsWith line f.label) ++
      (description.filter fun line => startsWith line f.label) |>.getLast? <;> rfl

theorem value_eq_iff (hfirst : startsWith first "Description" = true)
    (hlines : lines output = header.map HeaderLine.text ++ first :: description) :
    (infoOf output).value f = headerValue header f ↔ Undisturbed header description f := by
  rw [value_of_printed hfirst hlines]
  unfold Undisturbed headerValue
  cases intruder header description f with
  | some line =>
    cases headerLine header f with
    | none => simp [eq_comm]
    | some h =>
      simp only [Option.some.injEq, forall_eq']
      constructor
      · intro heq
        refine ⟨?_, heq.symm⟩
        rw [← mem_trim (by decide), ← heq]
        exact colon_not_mem_fieldValue line
      · intro hboth
        exact hboth.2.symm
  | none =>
    cases headerLine header f with
    | none => simp
    | some h => simpa using fieldValue_text_eq_iff

end Info

/-- The package has the four fields as they are in the header, whole. -/
structure TakesHeader (header : List HeaderLine) (tool output name : String) : Prop where
  package : ∀ o, ∃ pkg, outcome o (parseRpmInfo tool output name).run = .ok (some pkg) ∧
    pkg.version = (infoOf output).fullVersion ∧ pkg.installDate = (infoOf output).value .installDate ∧
    pkg.sizeInstalled = (infoOf output).value .size
  fields : ∀ f, (infoOf output).value f = headerValue header f

/-- `parse_rpm_info` takes the fields whole and only from the header if and only if none of them is disturbed. -/
theorem takes_header_iff {header : List HeaderLine} {first output : String} {description : List String}
    (hfirst : startsWith first "Description" = true)
    (hlines : lines output = header.map HeaderLine.text ++ first :: description) (tool name : String) :
    TakesHeader header tool output name ↔ ∀ f, Undisturbed header description f := by
  constructor
  · intro h f
    exact (value_eq_iff hfirst hlines).1 (h.fields f)
  · intro h
    refine ⟨fun o => ⟨_, outcome_parseRpmInfo o tool output name, rfl, rfl, rfl⟩, fun f => ?_⟩
    exact (value_eq_iff hfirst hlines).2 (h f)

/-- The header of bash; the date of the installation is as given. -/
def bashHeader (date : String) : List HeaderLine :=
  [⟨"Name", 8, " bash", by decide, by decide⟩, ⟨"Version", 5, " 5.2.15", by decide, by decide⟩,
    ⟨"Release", 5, " 1.fc43", by decide, by decide⟩, ⟨"Install Date", 0, date, by decide, by decide⟩,
    ⟨"Size", 8, " 8486823", by decide, by decide⟩]

def shellDescription : List String := ["The GNU Bourne Again shell.", "", "It reads commands: one by one."]

theorem takes_header_bash : TakesHeader (bashHeader " 2024-01-01") "dnf"
    (unlines ((bashHeader " 2024-01-01").map HeaderLine.text ++ "Description :" :: shellDescription)) "bash" := by
  have hlines : lines (unlines ((bashHeader " 2024-01-01").map HeaderLine.text ++
      "Description :" :: shellDescription)) =
      (bashHeader " 2024-01-01").map HeaderLine.text ++ "Description :" :: shellDescription :=
    lines_unlines (by decide)
  refine (takes_header_iff (by decide) hlines "dnf" "bash").2 fun f => ?_
  have hintruder : intruder (bashHeader " 2024-01-01") shellDescription f = none := by cases f <;> decide
  constructor
  · have hvalue : ((headerLine (bashHeader " 2024-01-01") f).map HeaderLine.value).all
        (fun v => !v.toList.contains ':') = true := by
      cases f <;> decide
    intro h hh
    rw [hh] at hvalue
    simpa using hvalue
  · intro line hline
    rw [hintruder] at hline
    cases hline

/-- A date with a time of day, and a description that speaks of versions. -/
def datedOutput : String :=
  unlines ((bashHeader " Mon 01 Jan 2024 10:00:00 AM UTC").map HeaderLine.text ++
    ["Description :", "Version 5 of the GNU Bourne Again shell."])

/-- The time of day is cut after the hour, and the version is lost. -/
theorem date_cut : lines datedOutput = (bashHeader " Mon 01 Jan 2024 10:00:00 AM UTC").map HeaderLine.text ++
      ["Description :", "Version 5 of the GNU Bourne Again shell."] ∧
    (infoOf datedOutput).value .installDate = some "Mon 01 Jan 2024 10" ∧
    (infoOf datedOutput).value .version = some "" ∧
    ¬ TakesHeader (bashHeader " Mon 01 Jan 2024 10:00:00 AM UTC") "dnf" datedOutput "bash" := by
  have hlines : lines datedOutput = (bashHeader " Mon 01 Jan 2024 10:00:00 AM UTC").map HeaderLine.text ++
      ["Description :", "Version 5 of the GNU Bourne Again shell."] := lines_unlines (by decide)
  have hfirst : startsWith "Description :" "Description" = true := by decide
  have hdate : (infoOf datedOutput).value .installDate = some "Mon 01 Jan 2024 10" := by
    rw [value_of_printed hfirst hlines]
    decide
  have hversion : (infoOf datedOutput).value .version = some "" := by
    rw [value_of_printed hfirst hlines]
    decide
  refine ⟨hlines, hdate, hversion, fun h => ?_⟩
  have hwhole := h.fields .installDate
  rw [hdate] at hwhole
  revert hwhole
  decide

end LinuxPatchApi.Packages.Rpm
