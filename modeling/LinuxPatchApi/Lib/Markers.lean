/-
Blocks between markers: where a marker occurs first in a text, and ASCII text among arbitrary bytes, which
lossy decoding leaves as it is.
-/
import LinuxPatchApi.Lib.Search

namespace Text

/-! ## First occurrences -/

/-- The text up to a first occurrence: none begins earlier. -/
def NotBefore (needle pre : List Char) : Prop := ¬ needle <:+: pre ++ needle.dropLast

theorem notBefore_nil {needle : List Char} (hne : needle ≠ []) : NotBefore needle [] := by
  intro h
  have hlength := h.length_le
  have hpos := List.length_pos_iff.2 hne
  rw [List.nil_append, List.length_dropLast] at hlength
  omega

/-- `splitAtFirst` finds the first occurrence. -/
theorem splitAtFirst_eq_some_iff {needle : List Char} (hne : needle ≠ []) {cs pre post : List Char} :
    splitAtFirst needle cs = some (pre, post) ↔ cs = pre ++ needle ++ post ∧ NotBefore needle pre := by
  induction cs generalizing pre with
  | nil =>
    rw [splitAtFirst, if_neg (by simpa using hne)]
    simp [hne]
  | cons c cs ih =>
    rw [splitAtFirst]
    by_cases hbegins : needle <+: c :: cs
    · rw [if_pos (List.isPrefixOf_iff_prefix.2 hbegins)]
      constructor
      · intro h
        cases h
        exact ⟨(List.prefix_iff_eq_append.1 hbegins).symm, notBefore_nil hne⟩
      · rintro ⟨hsplit, hfirst⟩
        cases pre with
        | nil => rw [hsplit, List.nil_append, List.drop_left]
        | cons d pre =>
          -- an occurrence at the very beginning would begin earlier
          refine absurd (List.IsPrefix.isInfix ?_) hfirst
          rw [hsplit] at hbegins
          refine List.prefix_of_prefix_length_le hbegins ?_ ?_
          · rw [List.append_assoc]
            exact (List.prefix_append_right_inj _).2 ((List.dropLast_prefix needle).trans (List.prefix_append _ _))
          · rw [List.length_append, List.length_dropLast, List.length_cons]
            omega
    · rw [if_neg (by rwa [List.isPrefixOf_iff_prefix])]
      constructor
      · intro h
        obtain ⟨⟨pre', post'⟩, hsplit, heq⟩ := Option.map_eq_some_iff.1 h
        cases heq
        obtain ⟨rfl, hfirst⟩ := ih.1 hsplit
        refine ⟨rfl, fun hinner => ?_⟩
        rcases List.infix_cons_iff.1 hinner with hstart | hlater
        · refine hbegins (List.IsPrefix.trans hstart ((List.prefix_cons_inj c).2 ?_))
          rw [List.append_assoc]
          exact (List.prefix_append_right_inj pre').2 ((List.dropLast_prefix needle).trans (List.prefix_append _ _))
        · exact hfirst hlater
      · rintro ⟨hsplit, hfirst⟩
        cases pre with
        | nil =>
          refine absurd ?_ hbegins
          rw [hsplit, List.nil_append]
          exact List.prefix_append _ _
        | cons d pre =>
          obtain ⟨rfl, hrest⟩ := List.cons.inj hsplit
          rw [ih.2 ⟨hrest, fun hinner => hfirst (hinner.trans (List.suffix_cons c _).isInfix)⟩]
          rfl

/-- Nothing begins in what lacks its first character. -/
theorem notBefore_of_not_mem {c : Char} {needle pre : List Char} (hhead : needle.head? = some c) (hc : c ∉ pre) :
    NotBefore needle pre := by
  have hne : needle ≠ [] := by
    rintro rfl
    cases hhead
  induction pre with
  | nil => exact notBefore_nil hne
  | cons d pre ih =>
    rw [List.mem_cons, not_or] at hc
    intro hinner
    rcases List.infix_cons_iff.1 hinner with hstart | hlater
    · rcases List.prefix_cons_iff.1 hstart with rfl | ⟨t, rfl, _⟩
      · exact hne rfl
      · exact hc.1 (Option.some.inj hhead).symm
    · exact ih hc.2 hlater

/-- After the end of a line nothing begins that was not begun before it. -/
theorem notBefore_line {c : Char} {needle pre : List Char} (hc : c ∉ needle) (hne : needle ≠ [])
    (hpre : ¬ needle <:+: pre) : NotBefore needle (pre ++ [c]) := by
  intro hinner
  rw [List.append_assoc, List.singleton_append, infix_append_cons hc hne] at hinner
  rcases hinner with hinner | hinner
  · exact hpre hinner
  · exact notBefore_nil hne hinner

/-! ## Plain characters among bytes -/

/-- The bytes of ASCII text. -/
def asciiBytes (cs : List Char) : List UInt8 := cs.map fun c => .ofNat c.toNat

theorem first_lo (b : UInt8) : 0x80 ≤ (Utf8State.first b).2.lo := by
  unfold Utf8State.first
  repeat' split
  all_goals simp [Utf8State.idle]

/-- A byte below 128 is a character of its own, whatever the bytes before it are. -/
theorem decodeUtf8From_append_cons {b : UInt8} (hb : b < 0x80) (bs post : List UInt8) (st : Utf8State)
    (hst : 0x80 ≤ st.lo) : decodeUtf8From st (bs ++ b :: post) =
      decodeUtf8From st bs ++ Char.ofNat b.toNat :: decodeUtf8From Utf8State.idle post := by
  have hfirst : Utf8State.first b = ([Char.ofNat b.toNat], Utf8State.idle) := if_pos hb
  induction bs generalizing st with
  | nil =>
    rw [List.nil_append, decodeUtf8From, decodeUtf8From, hfirst]
    split
    · rfl
    · rw [if_neg fun h => UInt8.not_lt.2 (UInt8.le_trans hst h.1) hb]
      rfl
  | cons a bs ih =>
    rw [List.cons_append, decodeUtf8From, decodeUtf8From]
    dsimp only
    repeat' split
    · rw [ih _ (first_lo a), List.append_assoc]
    · rw [ih _ (by decide)]
      rfl
    · exact ih _ (by show (0x80 : UInt8) ≤ 0x80; decide)
    · rw [ih _ (first_lo a), List.cons_append, List.append_assoc]

theorem decodeUtf8From_char {c : Char} (hc : c.toNat < 128) (bs post : List UInt8) (st : Utf8State)
    (hst : 0x80 ≤ st.lo) : decodeUtf8From st (bs ++ .ofNat c.toNat :: post) =
      decodeUtf8From st bs ++ c :: decodeUtf8From Utf8State.idle post := by
  have hbyte : (UInt8.ofNat c.toNat).toNat = c.toNat := by
    rw [UInt8.toNat_ofNat']
    omega
  have hlow : UInt8.ofNat c.toNat < 0x80 := by
    rw [UInt8.lt_iff_toNat_lt, hbyte]
    exact hc
  rw [decodeUtf8From_append_cons hlow bs post st hst, hbyte, Char.ofNat_toNat]

theorem decodeUtf8From_asciiBytes {cs : List Char} (hascii : ∀ c ∈ cs, c.toNat < 128) (post : List UInt8) :
    decodeUtf8From Utf8State.idle (asciiBytes cs ++ post) = cs ++ decodeUtf8From Utf8State.idle post := by
  induction cs with
  | nil => rfl
  | cons c cs ih =>
    rw [asciiBytes, List.map_cons, List.cons_append]
    refine (decodeUtf8From_char (hascii c List.mem_cons_self) [] _ _ (by decide)).trans ?_
    exact congrArg (c :: ·) (ih fun d hd => hascii d (List.mem_cons_of_mem c hd))

/-- ASCII text is read as it is, whatever bytes it stands between. -/
theorem fromUtf8Lossy_ascii {cs : List Char} (hascii : ∀ c ∈ cs, c.toNat < 128) (hne : cs ≠ []) (pre post : List UInt8) :
    (fromUtf8Lossy (pre ++ asciiBytes cs ++ post)).toList =
      (fromUtf8Lossy pre).toList ++ cs ++ (fromUtf8Lossy post).toList := by
  simp only [fromUtf8Lossy, String.toList_ofList]
  obtain ⟨c, cs, rfl⟩ := List.exists_cons_of_ne_nil hne
  have hrest := decodeUtf8From_asciiBytes (fun d hd => hascii d (List.mem_cons_of_mem c hd)) post
  rw [List.append_assoc, asciiBytes, List.map_cons, List.cons_append,
    decodeUtf8From_char (hascii c List.mem_cons_self) pre _ _ (by decide)]
  show _ ++ c :: decodeUtf8From Utf8State.idle (asciiBytes cs ++ post) = _
  rw [hrest, List.append_assoc, List.cons_append]

end Text
