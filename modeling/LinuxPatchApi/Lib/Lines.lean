/-
Texts put together from lines and words, and what the text functions read back from them: every line, every word, and
both sides of the last occurrence of a character.
-/
import LinuxPatchApi.Lib.Text

namespace Text

/-! ## Lines -/

/-- A text that stands on a line of its own. -/
def IsLine (l : String) : Prop := '\n' ∉ l.toList ∧ l.toList.getLast? ≠ some '\r'

instance (l : String) : Decidable (IsLine l) := inferInstanceAs (Decidable (_ ∧ _))

/-- The text with the given lines, each with a line feed at its end. -/
def unlines (ls : List String) : String := String.ofList (ls.flatMap fun l => l.toList ++ ['\n'])

theorem splitChars_ne_nil {sep : Char} {cs : List Char} : splitChars sep cs ≠ [] := by
  induction cs with
  | nil => simp [splitChars]
  | cons c cs ih =>
    rw [splitChars]
    split
    · simp
    · split <;> simp

theorem splitChars_append {sep : Char} {p cs : List Char} (h : sep ∉ p) :
    splitChars sep (p ++ sep :: cs) = p :: splitChars sep cs := by
  induction p with
  | nil => simp [splitChars]
  | cons c p ih =>
    have hc : c ≠ sep := fun hc => h (by simp [hc])
    have hp : sep ∉ p := fun hp => h (by simp [hp])
    rw [List.cons_append, splitChars, if_neg hc, ih hp]

/-- The first piece ends before the first separator. -/
theorem splitChars_head (sep : Char) : ∀ cs : List Char, ∃ ps, splitChars sep cs = cs.takeWhile (· ≠ sep) :: ps
  | [] => ⟨[], rfl⟩
  | c :: cs => by
    obtain ⟨ps, hps⟩ := splitChars_head sep cs
    rw [splitChars, hps]
    by_cases hc : c = sep
    · exact ⟨cs.takeWhile (· ≠ sep) :: ps, by simp [hc]⟩
    · exact ⟨ps, by simp [hc]⟩

/-- No piece has the separator in it. -/
theorem not_mem_of_mem_splitChars {sep : Char} : ∀ {cs p : List Char}, p ∈ splitChars sep cs → sep ∉ p
  | [], p, h => by
    rw [List.mem_singleton.1 h]
    simp
  | c :: cs, p, h => by
    obtain ⟨ps, hps⟩ := splitChars_head sep cs
    have hpieces : ∀ q ∈ splitChars sep cs, sep ∉ q := fun q => not_mem_of_mem_splitChars
    rw [hps] at hpieces
    rw [splitChars, hps] at h
    by_cases hc : c = sep
    · rw [if_pos hc] at h
      rcases List.mem_cons.1 h with rfl | h
      · simp
      · exact hpieces p h
    · rw [if_neg hc] at h
      rcases List.mem_cons.1 h with rfl | h
      · rw [List.mem_cons, not_or]
        exact ⟨fun he => hc he.symm, hpieces _ List.mem_cons_self⟩
      · exact hpieces p (List.mem_cons_of_mem _ h)

theorem splitChars_of_not_mem {sep : Char} {cs : List Char} (h : sep ∉ cs) : splitChars sep cs = [cs] := by
  induction cs with
  | nil => rfl
  | cons c cs ih =>
    rw [List.mem_cons, not_or] at h
    rw [splitChars, if_neg (Ne.symm h.1), ih h.2]

/-- Pieces without the separator are those that their join is split into. -/
theorem split_join {sep : Char} : ∀ {ps : List String}, ps ≠ [] → (∀ p ∈ ps, sep ∉ p.toList) →
    split (join (String.singleton sep) ps) sep = ps
  | [p], _, h => by
    rw [join, split, splitChars_of_not_mem (h p (by simp)), List.map_singleton, String.ofList_toList]
  | p :: q :: ps, _, h => by
    have ih := @split_join sep (q :: ps) (by simp) fun r hr => h r (List.mem_cons_of_mem p hr)
    unfold split at ih ⊢
    rw [join, String.toList_append, String.toList_append, String.toList_singleton, List.append_assoc,
      List.singleton_append, splitChars_append (h p (by simp)), List.map_cons, String.ofList_toList, ih]

/-- The join of the pieces is the text. -/
theorem join_split (s : String) (sep : Char) : join (String.singleton sep) (split s sep) = s := by
  have hchars : ∀ cs : List Char,
      (join (String.singleton sep) ((splitChars sep cs).map String.ofList)).toList = cs := by
    intro cs
    induction cs with
    | nil => rfl
    | cons c cs ih =>
      obtain ⟨ps, hps⟩ := splitChars_head sep cs
      rw [splitChars, hps]
      rw [hps] at ih
      by_cases hc : c = sep
      · rw [if_pos hc, List.map_cons, List.map_cons, join, ← List.map_cons, String.toList_append, String.toList_append,
          ih, hc]
        simp
      · rw [if_neg hc]
        cases ps with
        | nil => simpa [join] using ih
        | cons q ps => simpa [join] using ih
  rw [← String.toList_inj, split, hchars]
theorem lineChars_cons {p : List Char} {ps : List (List Char)} (hps : ps ≠ []) :
    lineChars (p :: ps) = stripCr p :: lineChars ps := by
  cases ps with
  | nil => exact absurd rfl hps
  | cons q qs => rw [lineChars]

theorem stripCr_of_getLast? {cs : List Char} (h : cs.getLast? ≠ some '\r') : stripCr cs = cs := by
  rw [stripCr, if_neg h]

/-- The lines of a text are those that it was put together from. -/
theorem lines_unlines {ls : List String} (h : ∀ l ∈ ls, IsLine l) : lines (unlines ls) = ls := by
  induction ls with
  | nil => rfl
  | cons l ls ih =>
    obtain ⟨hfeed, hreturn⟩ := h l List.mem_cons_self
    have ih := ih fun k hk => h k (List.mem_cons_of_mem _ hk)
    unfold lines unlines at ih ⊢
    rw [String.toList_ofList] at ih ⊢
    rw [List.flatMap_cons, List.append_assoc, List.singleton_append, splitChars_append hfeed,
      lineChars_cons splitChars_ne_nil, stripCr_of_getLast? hreturn, List.map_cons, ih, String.ofList_toList]

/-! ## Words -/

/-- A text that is one word. -/
def IsWord (w : String) : Prop := w ≠ "" ∧ ∀ c ∈ w.toList, isWhitespace c = false

instance (w : String) : Decidable (IsWord w) :=
  decidable_of_iff (w ≠ "" ∧ (w.toList.all fun c => !isWhitespace c) = true) (by simp [IsWord])

theorem wordChars_space (cs : List Char) : wordChars (' ' :: cs) = wordChars cs := by
  cases cs with
  | nil => decide
  | cons d cs => rw [wordChars, if_pos (by decide)]

theorem wordChars_word {w cs : List Char} (hne : w ≠ []) (hw : ∀ c ∈ w, isWhitespace c = false) :
    wordChars (w ++ ' ' :: cs) = w :: wordChars cs := by
  induction w with
  | nil => exact absurd rfl hne
  | cons c w ih =>
    have hc := hw c List.mem_cons_self
    cases w with
    | nil =>
      rw [List.singleton_append, wordChars, if_neg (by simp [hc]), if_pos (by decide), wordChars_space]
    | cons d w =>
      have hd := hw d (by simp)
      rw [List.cons_append, List.cons_append, wordChars, if_neg (by simp [hc]), if_neg (by simp [hd]),
        ← List.cons_append, ih (by simp) fun e he => hw e (List.mem_cons_of_mem _ he)]

theorem IsWord.toList_ne_nil {w : String} (h : IsWord w) : w.toList ≠ [] := by
  simpa using h.1

theorem splitWhitespace_cons {w s : String} (h : IsWord w) :
    splitWhitespace (w ++ " " ++ s) = w :: splitWhitespace s := by
  rw [splitWhitespace, String.append_assoc, String.toList_append, String.toList_append,
    show " ".toList = [' '] from rfl, List.singleton_append, wordChars_word h.toList_ne_nil h.2, List.map_cons,
    String.ofList_toList, ← splitWhitespace]

theorem wordChars_blank {cs : List Char} (h : ∀ c ∈ cs, isWhitespace c = true) : wordChars cs = [] := by
  induction cs with
  | nil => rfl
  | cons c cs ih =>
    have hc := h c List.mem_cons_self
    cases cs with
    | nil => rw [wordChars, if_pos hc]
    | cons d cs => rw [wordChars, if_pos hc, ih fun e he => h e (List.mem_cons_of_mem _ he)]

/-! ## Ends and last separators -/

/-- A text that begins and ends with no white space is its own trim. -/
theorem trim_eq_self {s : String} (hhead : ∀ c ∈ s.toList.head?, isWhitespace c = false)
    (hlast : ∀ c ∈ s.toList.getLast?, isWhitespace c = false) : trim s = s := by
  have hdrop : s.toList.dropWhile isWhitespace = s.toList := by
    cases hs : s.toList with
    | nil => rfl
    | cons c cs => rw [List.dropWhile_cons_of_neg (by simp [hhead c (by simp [hs])])]
  have hrdrop : s.toList.rdropWhile isWhitespace = s.toList := by
    refine List.rdropWhile_eq_self_iff.2 fun hne => ?_
    simp [hlast _ (List.getLast?_eq_some_getLast hne)]
  rw [trim, hdrop, hrdrop, String.ofList_toList]

theorem toList_trim (s : String) : (trim s).toList = (s.toList.dropWhile isWhitespace).rdropWhile isWhitespace := by
  rw [trim, String.toList_ofList]

theorem head_trim {s : String} : ∀ c ∈ (trim s).toList.head?, isWhitespace c = false := by
  intro c hc
  -- the first character is also the first after the blanks are dropped
  rw [toList_trim] at hc
  obtain ⟨rest, hrest⟩ := List.rdropWhile_prefix isWhitespace (s.toList.dropWhile isWhitespace)
  have hhead : (s.toList.dropWhile isWhitespace).head? = some c := by
    rw [← hrest, List.head?_append, hc, Option.some_or]
  have := List.head?_dropWhile_not isWhitespace s.toList
  rw [hhead] at this
  exact this

theorem last_trim {s : String} : ∀ c ∈ (trim s).toList.getLast?, isWhitespace c = false := by
  intro c hc
  rw [toList_trim] at hc
  obtain ⟨front, hfront⟩ := List.getLast?_eq_some_iff.1 hc
  have hne : (s.toList.dropWhile isWhitespace).rdropWhile isWhitespace ≠ [] := by simp [hfront]
  have := List.rdropWhile_last_not isWhitespace _ hne
  simpa [hfront] using this

theorem trim_trim (s : String) : trim (trim s) = trim s := trim_eq_self head_trim last_trim

/-- Only white space is trimmed. -/
theorem mem_trim {s : String} {c : Char} (hc : isWhitespace c = false) : c ∈ (trim s).toList ↔ c ∈ s.toList := by
  rw [trim, String.toList_ofList]
  constructor
  · intro h
    exact (List.dropWhile_sublist _).mem ((List.rdropWhile_prefix _ _).mem h)
  · intro h
    have hdrop : c ∈ s.toList.dropWhile isWhitespace := by
      rw [← List.takeWhile_append_dropWhile (p := isWhitespace) (l := s.toList), List.mem_append] at h
      refine h.resolve_left fun htake => ?_
      rw [List.mem_takeWhile_imp htake] at hc
      cases hc
    rw [← List.rdropWhile_append_rtakeWhile (p := isWhitespace) (l := s.toList.dropWhile isWhitespace),
      List.mem_append] at hdrop
    refine hdrop.resolve_right fun htake => ?_
    rw [List.mem_rtakeWhile_imp htake] at hc
    cases hc

/-- Another character than the separator is in one of the pieces. -/
theorem mem_splitChars_of_mem {sep c : Char} (hc : c ≠ sep) : ∀ {cs : List Char}, c ∈ cs →
    ∃ p ∈ splitChars sep cs, c ∈ p
  | d :: cs, h => by
    obtain ⟨ps, hps⟩ := splitChars_head sep cs
    have hlater : c ∈ cs → ∃ p ∈ splitChars sep cs, c ∈ p := mem_splitChars_of_mem hc
    rw [splitChars]
    split
    · next hd =>
      obtain ⟨p, hp, hmem⟩ := hlater ((List.mem_cons.1 h).resolve_left (hd ▸ hc))
      exact ⟨p, List.mem_cons_of_mem _ hp, hmem⟩
    · rw [hps] at hlater ⊢
      rcases List.mem_cons.1 h with rfl | h
      · exact ⟨_, List.mem_cons_self, List.mem_cons_self⟩
      · obtain ⟨p, hp, hmem⟩ := hlater h
        rcases List.mem_cons.1 hp with rfl | hp
        · exact ⟨_, List.mem_cons_self, List.mem_cons_of_mem d hmem⟩
        · exact ⟨p, List.mem_cons_of_mem _ hp, hmem⟩

theorem digitsValue_digits : ∀ {cs : List Char} {n v : ℕ}, digitsValue n cs = some v →
    ∀ c ∈ cs, isAsciiDigit c = true
  | c :: cs, n, v, h => by
    rw [digitsValue] at h
    split at h
    · next hc =>
      intro d hd
      rcases List.mem_cons.1 hd with rfl | hd
      · exact hc
      · exact digitsValue_digits h d hd
    · cases h
  | [], _, _, _ => by simp

/-- A prefix without a character is a prefix of what stands before the character. -/
theorem prefix_before {c : Char} {p pre post : List Char} (h : c ∉ p) : p <+: pre ++ c :: post ↔ p <+: pre := by
  induction pre generalizing p with
  | nil =>
    cases p with
    | nil => simp
    | cons d p =>
      have hd : d ≠ c := fun hd => h (by simp [hd])
      simp [hd]
  | cons e pre ih =>
    cases p with
    | nil => simp
    | cons d p =>
      have hp : c ∉ p := fun hp => h (by simp [hp])
      simp [List.cons_prefix_cons, ih hp]

theorem splitAtFirst_singleton {c : Char} {pre post : List Char} (h : c ∉ pre) :
    splitAtFirst [c] (pre ++ c :: post) = some (pre, post) := by
  induction pre with
  | nil => simp [splitAtFirst]
  | cons d pre ih =>
    have hd : c ≠ d := fun hd => h (by simp [hd])
    have hpre : c ∉ pre := fun hpre => h (by simp [hpre])
    simp [splitAtFirst, hd, ih hpre]

theorem splitOnce_of_not_mem {s : String} {c : Char} (h : c ∉ s.toList) : splitOnce s (String.singleton c) = none := by
  have hnone : ∀ {cs : List Char}, c ∉ cs → splitAtFirst [c] cs = none := by
    intro cs
    induction cs with
    | nil => exact fun _ => rfl
    | cons d cs ih =>
      intro hcs
      rw [List.mem_cons, not_or] at hcs
      simp [splitAtFirst, hcs.1, ih hcs.2]
  rw [splitOnce, String.toList_singleton, hnone h, Option.map_none]

theorem rsplitOnce_append {c : Char} (base : String) {suffix : String} (h : c ∉ suffix.toList) :
    rsplitOnce (base ++ String.singleton c ++ suffix) c = some (base, suffix) := by
  have hrev : (base ++ String.singleton c ++ suffix).toList.reverse =
      suffix.toList.reverse ++ c :: base.toList.reverse := by simp
  rw [rsplitOnce, hrev, splitAtFirst_singleton (by simpa using h)]
  simp

end Text
