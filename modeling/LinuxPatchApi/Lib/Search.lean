/-
Where a phrase is found that is searched for in a text, in any letter case: in one of the pieces that the text is put
together from, when what separates them is not part of the phrase; and that the lines of a text are pieces of it.
-/
import LinuxPatchApi.Lib.Lines
import Mathlib.Data.List.Infix

namespace Text

/-! ## Pieces -/

section Pieces

variable {needle xs ys : List Char} {c : Char}

theorem mem_of_prefix_cons (hne : needle ≠ []) (h : needle <+: c :: ys) : c ∈ needle := by
  rcases List.prefix_cons_iff.1 h with rfl | ⟨t, rfl, _⟩
  · exact absurd rfl hne
  · exact List.mem_cons_self

/-- What does not contain the separator is on one side of it. -/
theorem infix_append_cons (hc : c ∉ needle) (hne : needle ≠ []) :
    needle <:+: xs ++ c :: ys ↔ needle <:+: xs ∨ needle <:+: ys := by
  constructor
  · intro h
    rcases List.infix_append_iff_ne_nil.1 h with h | h | ⟨front, back, _, hback, rfl, _, hys⟩
    · exact .inl h
    · exact .inr ((List.infix_cons_iff.1 h).resolve_left fun h => hc (mem_of_prefix_cons hne h))
    · exact absurd (List.mem_append_right front (mem_of_prefix_cons hback hys)) hc
  · rintro (h | h)
    · exact h.trans (List.prefix_append xs _).isInfix
    · exact h.trans ((List.suffix_cons c ys).trans (List.suffix_append xs _)).isInfix

theorem infix_cons_of_head (hne : needle ≠ []) (hc : needle.head? ≠ some c) :
    needle <:+: c :: ys ↔ needle <:+: ys := by
  refine ⟨fun h => (List.infix_cons_iff.1 h).resolve_left fun h => ?_, fun h => h.trans (List.suffix_cons c ys).isInfix⟩
  rcases List.prefix_cons_iff.1 h with rfl | ⟨t, rfl, _⟩
  · exact hne rfl
  · exact hc rfl

theorem infix_concat_of_last (hne : needle ≠ []) (hc : needle.getLast? ≠ some c) :
    needle <:+: xs ++ [c] ↔ needle <:+: xs := by
  refine ⟨fun h => (List.infix_concat_iff.1 h).resolve_left fun h => ?_,
    fun h => h.trans (List.prefix_append xs _).isInfix⟩
  rcases List.suffix_concat_iff.1 h with rfl | ⟨t, rfl, _⟩
  · exact hne rfl
  · exact hc (by simp)

end Pieces

/-! ## Phrases -/

/-- A text that is searched for: not empty, without the separators, and with no blank at either end. -/
structure IsPhrase (separators : List Char) (phrase : String) : Prop where
  nonempty : phrase.toList ≠ []
  head : phrase.toList.head? ≠ some ' '
  last : phrase.toList.getLast? ≠ some ' '
  apart : ∀ c ∈ separators, c ∉ phrase.toList

/-- The phrase is in the text, in any letter case. -/
def shows (s phrase : String) : Bool := contains (toLowercase s) phrase

section Phrases

variable {separators : List Char} {phrase : String}

theorem shows_iff {s : String} : shows s phrase = true ↔ phrase.toList <:+: s.toList.flatMap lowerChar := by
  rw [shows, contains_iff, toLowercase, String.toList_ofList]

theorem shows_empty (h : IsPhrase separators phrase) : shows "" phrase = false := by
  rw [← Bool.not_eq_true, shows_iff]
  intro hinfix
  exact h.nonempty (List.infix_nil.1 hinfix)

/-- A separator with blanks around it. -/
theorem shows_around {c : Char} (h : IsPhrase separators phrase) (hc : c ∈ separators) (hlower : lowerChar c = [c])
    (s s' : String) :
    shows (s ++ String.ofList [' ', c, ' '] ++ s') phrase = (shows s phrase || shows s' phrase) := by
  rw [Bool.eq_iff_iff, Bool.or_eq_true, shows_iff, shows_iff, shows_iff]
  have hblank : lowerChar ' ' = [' '] := rfl
  simp only [String.toList_append, String.toList_ofList, List.flatMap_append, List.flatMap_cons,
    hlower, hblank, List.cons_append, List.nil_append, List.append_assoc]
  rw [List.append_cons, infix_append_cons (h.apart c hc) h.nonempty, infix_concat_of_last h.nonempty h.last,
    infix_cons_of_head h.nonempty h.head]

/-- A separator with a blank after it. -/
theorem shows_before {c : Char} (h : IsPhrase separators phrase) (hc : c ∈ separators) (hlower : lowerChar c = [c])
    (s s' : String) :
    shows (s ++ String.ofList [c, ' '] ++ s') phrase = (shows s phrase || shows s' phrase) := by
  rw [Bool.eq_iff_iff, Bool.or_eq_true, shows_iff, shows_iff, shows_iff]
  have hblank : lowerChar ' ' = [' '] := rfl
  simp only [String.toList_append, String.toList_ofList, List.flatMap_append, List.flatMap_cons,
    hlower, hblank, List.cons_append, List.nil_append, List.append_assoc]
  rw [infix_append_cons (h.apart c hc) h.nonempty, infix_cons_of_head h.nonempty h.head]

/-- A phrase in a joined text is in one of its pieces. -/
theorem shows_join (h : IsPhrase separators phrase) (hc : '|' ∈ separators) : ∀ pieces : List String,
    shows (join " | " pieces) phrase = pieces.any (shows · phrase)
  | [] => by simpa [join] using shows_empty h
  | [s] => by simp [join]
  | s :: s' :: pieces => by
    rw [join, List.any_cons, ← shows_join h hc (s' :: pieces)]
    exact shows_around h hc rfl s _

theorem shows_of_isInfix {s s' : String} (h : s.toList <:+: s'.toList) (hshows : shows s phrase = true) :
    shows s' phrase = true := by
  rw [shows_iff] at hshows ⊢
  exact hshows.trans (h.flatMap lowerChar)

end Phrases

/-! ## Lines -/

/-- The first piece of a split begins the text, and the others are inside of it. -/
theorem splitChars_cases (sep : Char) : ∀ cs : List Char,
    ∃ p ps, splitChars sep cs = p :: ps ∧ p <+: cs ∧ ∀ q ∈ ps, q <:+: cs
  | [] => ⟨[], [], rfl, List.nil_prefix, by simp⟩
  | c :: cs => by
    obtain ⟨p, ps, heq, hp, hps⟩ := splitChars_cases sep cs
    have hinside : ∀ q ∈ ps, q <:+: c :: cs := fun q hq => (hps q hq).trans (List.suffix_cons c cs).isInfix
    rw [splitChars, heq]
    split
    · refine ⟨[], p :: ps, rfl, List.nil_prefix, fun q hq => ?_⟩
      rcases List.mem_cons.1 hq with rfl | hq
      · exact hp.isInfix.trans (List.suffix_cons c cs).isInfix
      · exact hinside q hq
    · exact ⟨c :: p, ps, rfl, (List.prefix_cons_inj c).2 hp, hinside⟩

theorem splitChars_isInfix {sep : Char} {cs p : List Char} (h : p ∈ splitChars sep cs) : p <:+: cs := by
  obtain ⟨q, qs, heq, hq, hqs⟩ := splitChars_cases sep cs
  rw [heq] at h
  rcases List.mem_cons.1 h with rfl | h
  · exact hq.isInfix
  · exact hqs p h

theorem lineChars_isInfix : ∀ {ps : List (List Char)} {l : List Char}, l ∈ lineChars ps → ∃ p ∈ ps, l <:+: p
  | [p], l, h => by
    rw [lineChars] at h
    split at h
    · cases h
    · exact ⟨p, by simp, by rw [List.mem_singleton.1 h]⟩
  | p :: q :: ps, l, h => by
    rw [lineChars] at h
    rcases List.mem_cons.1 h with rfl | h
    · refine ⟨p, by simp, ?_⟩
      unfold stripCr
      split
      · exact (List.dropLast_prefix p).isInfix
      · exact List.infix_refl p
    · obtain ⟨p', hp', hl⟩ := lineChars_isInfix h
      exact ⟨p', List.mem_cons_of_mem p hp', hl⟩

/-- A line is a piece of the text. -/
theorem lines_isInfix {s l : String} (h : l ∈ lines s) : l.toList <:+: s.toList := by
  obtain ⟨cs, hcs, rfl⟩ := List.mem_map.1 h
  obtain ⟨p, hp, hinfix⟩ := lineChars_isInfix hcs
  rw [String.toList_ofList]
  exact hinfix.trans (splitChars_isInfix hp)

theorem trim_isInfix (s : String) : (trim s).toList <:+: s.toList := by
  rw [trim, String.toList_ofList]
  exact (List.rdropWhile_prefix _ _).isInfix.trans (List.dropWhile_suffix _).isInfix

/-! ## Beginnings -/

theorem splitAtFirst_isPrefix {needle : List Char} : ∀ {cs pre post : List Char},
    splitAtFirst needle cs = some (pre, post) → pre <+: cs
  | [], pre, post, h => by
    rw [splitAtFirst] at h
    split at h <;> cases h
    exact List.nil_prefix
  | c :: cs, pre, post, h => by
    rw [splitAtFirst] at h
    split at h
    · cases h
      exact List.nil_prefix
    · obtain ⟨⟨pre', post'⟩, hsplit, heq⟩ := Option.map_eq_some_iff.1 h
      cases heq
      exact (List.prefix_cons_inj c).2 (splitAtFirst_isPrefix hsplit)

section Trimmed

variable {α : Type} {p : α → Bool} {xs ys : List α}

theorem dropWhile_isPrefix (h : xs <+: ys) : xs.dropWhile p <+: ys.dropWhile p := by
  obtain ⟨rest, rfl⟩ := h
  rw [List.dropWhile_append]
  split
  · next hnil =>
    rw [List.isEmpty_iff.1 hnil]
    exact List.nil_prefix
  · exact List.prefix_append _ rest

theorem rdropWhile_isPrefix (h : xs <+: ys) : xs.rdropWhile p <+: ys.rdropWhile p := by
  obtain ⟨rest, rfl⟩ := h
  induction rest using List.reverseRecOn with
  | nil => rw [List.append_nil]
  | append_singleton rest c ih =>
    rw [← List.append_assoc, List.rdropWhile_concat]
    split
    · exact ih
    · exact (List.rdropWhile_prefix p xs).trans ((List.prefix_append xs rest).trans (List.prefix_append _ [c]))

end Trimmed

/-- A beginning of the text begins it when both are trimmed. -/
theorem trim_isPrefix {s t : String} (h : s.toList <+: t.toList) : (trim s).toList <+: (trim t).toList := by
  rw [trim, trim, String.toList_ofList, String.toList_ofList]
  exact rdropWhile_isPrefix (dropWhile_isPrefix h)

/-- What stands before a needle begins the text. -/
theorem splitOnce_isPrefix {s needle pre post : String} (h : splitOnce s needle = some (pre, post)) :
    pre.toList <+: s.toList := by
  obtain ⟨⟨front, back⟩, hsplit, heq⟩ := Option.map_eq_some_iff.1 h
  cases heq
  rw [String.toList_ofList]
  exact splitAtFirst_isPrefix hsplit

end Text
