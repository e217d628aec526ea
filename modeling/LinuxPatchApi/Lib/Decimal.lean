/-
Numbers as decimal text: what is printed is read back, and digits without a zero too many in front are those that their
value is printed with.
-/
import LinuxPatchApi.Lib.Lines

namespace Text

/-- Digits as a number is printed with. -/
def NoLeadingZero (cs : List Char) : Prop := cs.head? = some '0' → cs = ['0']

theorem isAsciiDigit_digitChar {d : ℕ} (h : d < 10) : isAsciiDigit d.digitChar = true := by
  interval_cases d <;> decide

theorem digitChar_of_isAsciiDigit {c : Char} (h : isAsciiDigit c = true) :
    c.toNat - 0x30 < 10 ∧ (c.toNat - 0x30).digitChar = c := by
  unfold isAsciiDigit at h
  rw [Bool.and_eq_true, decide_eq_true_eq, decide_eq_true_eq] at h
  have hlt : c.toNat - 0x30 < 10 := by omega
  refine ⟨hlt, Char.toNat_inj.1 ?_⟩
  rw [Nat.toNat_digitChar_of_lt_ten hlt]
  omega

theorem digitsValue_append (cs ds : List Char) (n : ℕ) :
    digitsValue n (cs ++ ds) = (digitsValue n cs).bind fun m => digitsValue m ds := by
  induction cs generalizing n with
  | nil => rfl
  | cons c cs ih =>
    rw [List.cons_append, digitsValue, digitsValue]
    split
    · exact ih _
    · rfl

theorem digitsValue_concat {cs : List Char} {c : Char} {n : ℕ} (h : digitsValue 0 (cs ++ [c]) = some n) :
    ∃ m, digitsValue 0 cs = some m ∧ isAsciiDigit c = true ∧ n = m * 10 + (c.toNat - 0x30) := by
  rw [digitsValue_append, Option.bind_eq_some_iff] at h
  obtain ⟨m, hm, hc⟩ := h
  rw [digitsValue] at hc
  split at hc
  · next hdigit => exact ⟨m, hm, hdigit, (Option.some.inj hc).symm⟩
  · cases hc

/-- What is printed is read back. -/
theorem digitsValue_toDigits (n : ℕ) : digitsValue 0 (Nat.toDigits 10 n) = some n := by
  induction n using Nat.strong_induction_on with
  | _ n ih =>
    by_cases hn : n < 10
    · rw [Nat.toDigits_of_lt_base hn, digitsValue, if_pos (isAsciiDigit_digitChar hn), digitsValue]
      rw [Nat.toNat_digitChar_sub_48_of_lt_ten hn, Nat.zero_mul, Nat.zero_add]
    · rw [Nat.toDigits_of_base_le (by omega) (by omega), digitsValue_append, ih (n / 10) (by omega), Option.bind_some,
        digitsValue, if_pos (isAsciiDigit_digitChar (by omega)), digitsValue]
      rw [Nat.toNat_digitChar_sub_48_of_lt_ten (by omega), Nat.div_add_mod' n 10]

/-- What is read is what would have been printed. -/
theorem toDigits_of_digitsValue {cs : List Char} {n : ℕ} (hne : cs ≠ []) (hzero : NoLeadingZero cs)
    (h : digitsValue 0 cs = some n) : Nat.toDigits 10 n = cs := by
  induction cs using List.reverseRecOn generalizing n with
  | nil => exact absurd rfl hne
  | append_singleton cs c ih =>
    obtain ⟨m, hm, hdigit, rfl⟩ := digitsValue_concat h
    obtain ⟨hlt, hchar⟩ := digitChar_of_isAsciiDigit hdigit
    cases cs with
    | nil =>
      obtain rfl : 0 = m := Option.some.inj hm
      rw [Nat.zero_mul, Nat.zero_add, Nat.toDigits_of_lt_base hlt, hchar, List.nil_append]
    | cons d cs =>
      -- the digits in front begin with no zero, or nothing would stand behind it
      have hhead : d ≠ '0' := by
        rintro rfl
        simpa using hzero rfl
      have hfront := ih (by simp) (fun h0 => absurd (Option.some.inj h0) hhead) hm
      have hpos : 0 < m := by
        refine Nat.pos_of_ne_zero fun h0 => ?_
        subst h0
        rw [Nat.toDigits_zero] at hfront
        exact hhead (List.cons.inj hfront).1.symm
      rw [Nat.mul_comm, ← Nat.toDigits_append_toDigits (by omega) hpos hlt, hfront, Nat.toDigits_of_lt_base hlt, hchar]

theorem noLeadingZero_toDigits (n : ℕ) : NoLeadingZero (Nat.toDigits 10 n) := by
  induction n using Nat.strong_induction_on with
  | _ n ih =>
    by_cases hn : n < 10
    · intro h0
      rw [Nat.toDigits_of_lt_base hn] at h0 ⊢
      rw [Option.some.inj h0]
    · intro h0
      rw [Nat.toDigits_of_base_le (by omega) (by omega), List.head?_append_of_ne_nil _ Nat.toDigits_ne_nil] at h0
      -- a front of zero alone has the value zero, but ten and more have another front
      have hfront := ih (n / 10) (by omega) h0
      have hvalue := digitsValue_toDigits (n / 10)
      rw [hfront, show digitsValue 0 ['0'] = some 0 by decide] at hvalue
      have := Option.some.inj hvalue
      omega

theorem not_mem_toDigits {c : Char} (hc : isAsciiDigit c = false) (n : ℕ) : c ∉ Nat.toDigits 10 n := fun hmem => by
  rw [digitsValue_digits (digitsValue_toDigits n) c hmem] at hc
  cases hc

theorem toList_toString (n : ℕ) : (toString n).toList = Nat.toDigits 10 n := Nat.toList_repr

theorem parseNat_toString {bound n : ℕ} (h : n < bound) : parseNat bound (toString n) = some n := by
  have hplus : '+' ∉ Nat.toDigits 10 n := not_mem_toDigits (by decide) n
  have hvalue := digitsValue_toDigits n
  unfold parseNat
  rw [toList_toString]
  split
  · next cs hcs =>
    rw [hcs] at hplus
    exact absurd List.mem_cons_self hplus
  · simp [hvalue, h, Nat.toDigits_ne_nil]

end Text
