/-
Texts put together from words with blanks between them, or from two parts with a sign between them, and what is read
back from them.
-/
import LinuxPatchApi.Lib.Lines

namespace Text

section Words

variable {w v s : String}

theorem wordChars_single {cs : List Char} (hne : cs ≠ []) (h : ∀ c ∈ cs, isWhitespace c = false) :
    wordChars cs = [cs] := by
  induction cs with
  | nil => exact absurd rfl hne
  | cons c cs ih =>
    have hc := h c List.mem_cons_self
    cases cs with
    | nil => rw [wordChars, if_neg (by simp [hc])]
    | cons d cs =>
      have hd := h d (by simp)
      rw [wordChars, if_neg (by simp [hc]), if_neg (by simp [hd]),
        ih (by simp) fun e he => h e (List.mem_cons_of_mem c he)]

theorem splitWhitespace_word (h : IsWord w) : splitWhitespace w = [w] := by
  rw [splitWhitespace, wordChars_single h.toList_ne_nil h.2, List.map_singleton, String.ofList_toList]

theorem splitWhitespace_space (s : String) : splitWhitespace (" " ++ s) = splitWhitespace s := by
  rw [splitWhitespace, String.toList_append, show " ".toList = [' '] from rfl, List.singleton_append, wordChars_space,
    ← splitWhitespace]

/-- Words with two blanks between them. -/
theorem splitWhitespace_join : ∀ {ws : List String}, (∀ w ∈ ws, IsWord w) → splitWhitespace (join "  " ws) = ws
  | [], _ => rfl
  | [w], h => splitWhitespace_word (h w List.mem_cons_self)
  | w :: v :: ws, h => by
    have ih := @splitWhitespace_join (v :: ws) fun x hx => h x (List.mem_cons_of_mem w hx)
    have hblanks : w ++ "  " ++ join "  " (v :: ws) = w ++ " " ++ (" " ++ join "  " (v :: ws)) := by
      rw [show "  " = " " ++ " " from rfl]
      simp only [String.append_assoc]
    rw [join, hblanks, splitWhitespace_cons (h w List.mem_cons_self), splitWhitespace_space, ih]

/-- The first word and the rest. -/
theorem splitAtWhitespace_cons (h : IsWord w) (s : String) : splitAtWhitespace (w ++ " " ++ s) = [w, s] := by
  have hchars : (w ++ " " ++ s).toList = w.toList ++ ' ' :: s.toList := by simp
  have hword : ∀ c ∈ w.toList, (!isWhitespace c) = true := fun c hc => by simp [h.2 c hc]
  have hdrop : (w.toList ++ ' ' :: s.toList).dropWhile (fun c => !isWhitespace c) = ' ' :: s.toList := by
    rw [List.dropWhile_append_of_pos hword]
    exact List.dropWhile_cons_of_neg (by decide)
  have htake : (w.toList ++ ' ' :: s.toList).takeWhile (fun c => !isWhitespace c) = w.toList := by
    rw [List.takeWhile_append_of_pos hword, List.takeWhile_cons_of_neg (by decide), List.append_nil]
  unfold splitAtWhitespace
  rw [hchars, hdrop, htake, String.ofList_toList]
  dsimp only
  rw [String.ofList_toList]

theorem IsWord.head (h : IsWord w) : ∀ c ∈ w.toList.head?, isWhitespace c = false :=
  fun c hc => h.2 c (List.mem_of_mem_head? hc)

theorem IsWord.last (h : IsWord w) : ∀ c ∈ w.toList.getLast?, isWhitespace c = false :=
  fun c hc => h.2 c (List.mem_of_getLast? hc)

/-- Between two words nothing is trimmed. -/
theorem trim_between (hw : IsWord w) (s : String) (hv : IsWord v) : trim (w ++ s ++ v) = w ++ s ++ v := by
  refine trim_eq_self ?_ ?_
  · rw [String.append_assoc, String.toList_append, List.head?_append_of_ne_nil _ hw.toList_ne_nil]
    exact hw.head
  · rw [String.toList_append, List.getLast?_append_of_ne_nil _ hv.toList_ne_nil]
    exact hv.last

theorem IsWord.not_mem (h : IsWord w) {c : Char} (hc : isWhitespace c = true) : c ∉ w.toList := fun hmem => by
  rw [h.2 c hmem] at hc
  cases hc

/-- A text that ends with a word stands on a line if there is no line feed before the word. -/
theorem isLine_append (hs : '\n' ∉ s.toList) (hw : IsWord w) : IsLine (s ++ w) := by
  constructor
  · rw [String.toList_append, List.mem_append, not_or]
    exact ⟨hs, hw.not_mem (by decide)⟩
  · rw [String.toList_append, List.getLast?_append_of_ne_nil _ hw.toList_ne_nil]
    intro hlast
    have := hw.last _ hlast
    revert this
    decide

end Words

/-! ## Two parts -/

theorem splitOnce_append {c : Char} {k : String} (h : c ∉ k.toList) (v : String) :
    splitOnce (k ++ String.singleton c ++ v) (String.singleton c) = some (k, v) := by
  have hchars : (k ++ String.singleton c ++ v).toList = k.toList ++ c :: v.toList := by simp
  rw [splitOnce, hchars, String.toList_singleton, splitAtFirst_singleton h, Option.map_some]
  dsimp only
  rw [String.ofList_toList, String.ofList_toList]

/-- A text is split at its first sign. -/
theorem splitOnce_iff {c : Char} {s k v : String} :
    splitOnce s (String.singleton c) = some (k, v) ↔ s = k ++ String.singleton c ++ v ∧ c ∉ k.toList := by
  constructor
  · intro h
    by_cases hc : c ∈ s.toList
    · obtain ⟨before, after, hs, hbefore⟩ := List.eq_append_cons_of_mem hc
      have htext : s = String.ofList before ++ String.singleton c ++ String.ofList after := by
        rw [← String.toList_inj, hs]
        simp
      rw [htext, splitOnce_append (by simpa using hbefore)] at h
      cases h
      exact ⟨htext, by simpa using hbefore⟩
    · rw [splitOnce_of_not_mem hc] at h
      cases h
  · rintro ⟨rfl, hc⟩
    exact splitOnce_append hc v

/-! ## Blanks around a text -/

theorem rdropWhile_blanks (cs : List Char) (n : ℕ) :
    (cs ++ List.replicate n ' ').rdropWhile isWhitespace = cs.rdropWhile isWhitespace := by
  induction n with
  | zero => rw [List.replicate_zero, List.append_nil]
  | succ n ih => rw [List.replicate_succ', ← List.append_assoc, List.rdropWhile_concat_pos _ _ _ (by decide), ih]

theorem trim_blanks {s : String} (h : trim s = s) (hne : s ≠ "") (n : ℕ) :
    trim (s ++ String.ofList (List.replicate n ' ')) = s := by
  have hhead : ∀ c ∈ s.toList.head?, isWhitespace c = false := h ▸ head_trim
  have hdrop : (s.toList ++ List.replicate n ' ').dropWhile isWhitespace = s.toList ++ List.replicate n ' ' := by
    cases hs : s.toList with
    | nil => exact absurd (by simpa using hs) hne
    | cons c cs => rw [List.cons_append, List.dropWhile_cons_of_neg (by simp [hhead c (by simp [hs])])]
  have htrim : s.toList.rdropWhile isWhitespace = s.toList := by
    refine List.rdropWhile_eq_self_iff.2 fun hs => ?_
    have hlast : ∀ c ∈ s.toList.getLast?, isWhitespace c = false := h ▸ last_trim
    simp [hlast _ (List.getLast?_eq_some_getLast hs)]
  rw [trim, String.toList_append, String.toList_ofList, hdrop, rdropWhile_blanks, htrim, String.ofList_toList]

theorem trim_space (s : String) : trim (" " ++ s) = trim s := by
  rw [trim, String.toList_append, show " ".toList = [' '] from rfl, List.singleton_append,
    List.dropWhile_cons_of_pos (by decide), ← trim]

end Text
