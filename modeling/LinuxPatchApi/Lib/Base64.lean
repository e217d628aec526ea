/-
Base64 with the standard alphabet, padded and canonical: three bytes are four digits, and what is left over is
padded and has zero bits behind it. A text decodes to bytes exactly if it is what they encode to.
-/
import Mathlib.Tactic

namespace Base64

/-- The digit of a number below 64. -/
def digit (n : ℕ) : Char :=
  if n < 26 then Char.ofNat (0x41 + n)
  else if n < 52 then Char.ofNat (0x61 + (n - 26))
  else if n < 62 then Char.ofNat (0x30 + (n - 52))
  else if n = 62 then '+' else '/'

def value (c : Char) : Option ℕ :=
  if 0x41 ≤ c.toNat ∧ c.toNat ≤ 0x5A then some (c.toNat - 0x41)
  else if 0x61 ≤ c.toNat ∧ c.toNat ≤ 0x7A then some (c.toNat - 0x61 + 26)
  else if 0x30 ≤ c.toNat ∧ c.toNat ≤ 0x39 then some (c.toNat - 0x30 + 52)
  else if c = '+' then some 62
  else if c = '/' then some 63
  else none

def encode : List UInt8 → List Char
  | [] => []
  | [a] => [digit (a.toNat / 4), digit (a.toNat % 4 * 16), '=', '=']
  | [a, b] => [digit (a.toNat / 4), digit (a.toNat % 4 * 16 + b.toNat / 16), digit (b.toNat % 16 * 4), '=']
  | a :: b :: c :: rest =>
    digit (a.toNat / 4) :: digit (a.toNat % 4 * 16 + b.toNat / 16) ::
      digit (b.toNat % 16 * 4 + c.toNat / 64) :: digit (c.toNat % 64) :: encode rest

/-- The byte before two padding characters. -/
def decodeOne (a b : Char) : Option (List UInt8) := do
  let x ← value a
  let y ← value b
  if y % 16 = 0 then some [.ofNat (x * 4 + y / 16)] else none

/-- The bytes before one padding character. -/
def decodeTwo (a b c : Char) : Option (List UInt8) := do
  let x ← value a
  let y ← value b
  let z ← value c
  if z % 4 = 0 then some [.ofNat (x * 4 + y / 16), .ofNat (y % 16 * 16 + z / 4)] else none

def decodeThree (a b c d : Char) : Option (List UInt8) := do
  let x ← value a
  let y ← value b
  let z ← value c
  let w ← value d
  return [.ofNat (x * 4 + y / 16), .ofNat (y % 16 * 16 + z / 4), .ofNat (z % 4 * 64 + w)]

def decode : List Char → Option (List UInt8)
  | [] => some []
  | a :: b :: c :: d :: rest =>
    if rest = [] ∧ c = '=' ∧ d = '=' then decodeOne a b
    else if rest = [] ∧ d = '=' then decodeTwo a b c
    else do
      let bytes ← decodeThree a b c d
      let more ← decode rest
      return bytes ++ more
  | _ => none

/-! ## Digits -/

theorem value_digit {n : ℕ} (h : n < 64) : value (digit n) = some n := by
  have hall : ∀ k : Fin 64, value (digit k) = some k.1 := by decide
  exact hall ⟨n, h⟩

theorem digit_value {c : Char} {n : ℕ} (h : value c = some n) : digit n = c ∧ n < 64 := by
  unfold value at h
  repeat' split at h
  all_goals cases h
  · next hc =>
    refine ⟨?_, by omega⟩
    rw [digit, if_pos (by omega), show 0x41 + (c.toNat - 0x41) = c.toNat by omega, Char.ofNat_toNat]
  · next hc =>
    refine ⟨?_, by omega⟩
    rw [digit, if_neg (by omega), if_pos (by omega),
      show 0x61 + (c.toNat - 0x61 + 26 - 26) = c.toNat by omega, Char.ofNat_toNat]
  · next hc =>
    refine ⟨?_, by omega⟩
    rw [digit, if_neg (by omega), if_neg (by omega), if_pos (by omega),
      show 0x30 + (c.toNat - 0x30 + 52 - 52) = c.toNat by omega, Char.ofNat_toNat]
  · next hc => exact ⟨hc.symm, by omega⟩
  · next hc => exact ⟨hc.symm, by omega⟩

theorem digit_ne_pad {n : ℕ} (h : n < 64) : digit n ≠ '=' := by
  intro he
  have hvalue := value_digit h
  rw [he] at hvalue
  cases hvalue

/-! ## Round trips -/

theorem ofNat_eq {a : UInt8} {n : ℕ} (h : n = a.toNat) : UInt8.ofNat n = a := by
  rw [h, UInt8.ofNat_toNat]

theorem decode_encode (bytes : List UInt8) : decode (encode bytes) = some bytes := by
  induction bytes using encode.induct with
  | case1 => rfl
  | case2 a =>
    have ha := a.toNat_lt
    rw [encode, decode, if_pos ⟨rfl, rfl, rfl⟩, decodeOne, value_digit (by omega), value_digit (by omega)]
    simp only [Option.bind_eq_bind, Option.bind_some]
    rw [if_pos (by omega), ofNat_eq (a := a) (by omega)]
  | case3 a b =>
    have ha := a.toNat_lt
    have hb := b.toNat_lt
    have hpad := digit_ne_pad (n := b.toNat % 16 * 4) (by omega)
    rw [encode, decode, if_neg (fun h => hpad h.2.1), if_pos ⟨rfl, rfl⟩, decodeTwo, value_digit (by omega),
      value_digit (by omega), value_digit (by omega)]
    simp only [Option.bind_eq_bind, Option.bind_some]
    rw [if_pos (by omega), ofNat_eq (a := a) (by omega), ofNat_eq (a := b) (by omega)]
  | case4 a b c rest ih =>
    have ha := a.toNat_lt
    have hb := b.toNat_lt
    have hc := c.toNat_lt
    have hpad := digit_ne_pad (n := c.toNat % 64) (by omega)
    rw [encode, decode, if_neg (fun h => hpad h.2.2), if_neg (fun h => hpad h.2), decodeThree, value_digit (by omega),
      value_digit (by omega), value_digit (by omega), value_digit (by omega), ih]
    simp only [Option.bind_eq_bind, Option.bind_some, Option.pure_def, List.cons_append, List.nil_append]
    rw [ofNat_eq (a := a) (by omega), ofNat_eq (a := b) (by omega), ofNat_eq (a := c) (by omega)]

theorem toNat_ofNat {n : ℕ} (h : n < 256) : (UInt8.ofNat n).toNat = n := UInt8.toNat_ofNat_of_lt' h

theorem decodeOne_eq {a b : Char} {bytes : List UInt8} (h : decodeOne a b = some bytes) :
    encode bytes = [a, b, '=', '='] := by
  simp only [decodeOne, Option.bind_eq_bind, Option.bind_eq_some_iff] at h
  obtain ⟨x, hx, y, hy, h⟩ := h
  split at h
  next hzero =>
    cases h
    obtain ⟨rfl, hx⟩ := digit_value hx
    obtain ⟨rfl, hy⟩ := digit_value hy
    rw [encode, toNat_ofNat (by omega), show (x * 4 + y / 16) / 4 = x by omega,
      show (x * 4 + y / 16) % 4 * 16 = y by omega]
  next => cases h

theorem decodeTwo_eq {a b c : Char} {bytes : List UInt8} (h : decodeTwo a b c = some bytes) :
    encode bytes = [a, b, c, '='] := by
  simp only [decodeTwo, Option.bind_eq_bind, Option.bind_eq_some_iff] at h
  obtain ⟨x, hx, y, hy, z, hz, h⟩ := h
  split at h
  next hzero =>
    cases h
    obtain ⟨rfl, hx⟩ := digit_value hx
    obtain ⟨rfl, hy⟩ := digit_value hy
    obtain ⟨rfl, hz⟩ := digit_value hz
    rw [encode, toNat_ofNat (by omega), toNat_ofNat (by omega), show (x * 4 + y / 16) / 4 = x by omega,
      show (x * 4 + y / 16) % 4 * 16 + (y % 16 * 16 + z / 4) / 16 = y by omega,
      show (y % 16 * 16 + z / 4) % 16 * 4 = z by omega]
  next => cases h

theorem decodeThree_eq {a b c d : Char} {bytes : List UInt8} (h : decodeThree a b c d = some bytes)
    (more : List UInt8) : encode (bytes ++ more) = a :: b :: c :: d :: encode more := by
  simp only [decodeThree, Option.bind_eq_bind, Option.bind_eq_some_iff, Option.pure_def] at h
  obtain ⟨x, hx, y, hy, z, hz, w, hw, h⟩ := h
  cases h
  obtain ⟨rfl, hx⟩ := digit_value hx
  obtain ⟨rfl, hy⟩ := digit_value hy
  obtain ⟨rfl, hz⟩ := digit_value hz
  obtain ⟨rfl, hw⟩ := digit_value hw
  show encode (_ :: _ :: _ :: more) = _
  rw [encode, toNat_ofNat (by omega), toNat_ofNat (by omega), toNat_ofNat (by omega),
    show (x * 4 + y / 16) / 4 = x by omega,
    show (x * 4 + y / 16) % 4 * 16 + (y % 16 * 16 + z / 4) / 16 = y by omega,
    show (y % 16 * 16 + z / 4) % 16 * 4 + (z % 4 * 64 + w) / 64 = z by omega,
    show (z % 4 * 64 + w) % 64 = w by omega]

/-- What decodes is the encoding of what it decodes to. -/
theorem encode_decode {text : List Char} {bytes : List UInt8} (h : decode text = some bytes) : encode bytes = text := by
  induction text using decode.induct generalizing bytes with
  | case1 =>
    cases h
    rfl
  | case2 a b c d rest hpads =>
    rw [decode, if_pos hpads] at h
    obtain ⟨rfl, rfl, rfl⟩ := hpads
    exact decodeOne_eq h
  | case3 a b c d rest hno hpad =>
    rw [decode, if_neg hno, if_pos hpad] at h
    obtain ⟨rfl, rfl⟩ := hpad
    exact decodeTwo_eq h
  | case4 a b c d rest hno hno' ih =>
    rw [decode, if_neg hno, if_neg hno'] at h
    simp only [Option.bind_eq_bind, Option.bind_eq_some_iff, Option.pure_def, Option.some.injEq] at h
    obtain ⟨three, hthree, more, hmore, rfl⟩ := h
    rw [decodeThree_eq hthree, ih hmore]
  | case5 text hnil hfour =>
    rw [decode] at h
    · cases h
    · exact hnil
    · exact hfour

theorem decode_eq_some {text : List Char} {bytes : List UInt8} : decode text = some bytes ↔ text = encode bytes :=
  ⟨fun h => (encode_decode h).symm, fun h => h ▸ decode_encode bytes⟩

/-- What an encoding is made of. -/
theorem mem_encode {bytes : List UInt8} {c : Char} (h : c ∈ encode bytes) : c = '=' ∨ ∃ n < 64, c = digit n := by
  induction bytes using encode.induct with
  | case1 => cases h
  | case2 a =>
    have ha := a.toNat_lt
    simp only [encode, List.mem_cons, List.not_mem_nil, or_false] at h
    rcases h with rfl | rfl | rfl | rfl
    · exact .inr ⟨_, by omega, rfl⟩
    · exact .inr ⟨_, by omega, rfl⟩
    · exact .inl rfl
    · exact .inl rfl
  | case3 a b =>
    have ha := a.toNat_lt
    have hb := b.toNat_lt
    simp only [encode, List.mem_cons, List.not_mem_nil, or_false] at h
    rcases h with rfl | rfl | rfl | rfl
    · exact .inr ⟨_, by omega, rfl⟩
    · exact .inr ⟨_, by omega, rfl⟩
    · exact .inr ⟨_, by omega, rfl⟩
    · exact .inl rfl
  | case4 a b c' rest ih =>
    have ha := a.toNat_lt
    have hb := b.toNat_lt
    have hc := c'.toNat_lt
    simp only [encode, List.mem_cons] at h
    rcases h with rfl | rfl | rfl | rfl | h
    · exact .inr ⟨_, by omega, rfl⟩
    · exact .inr ⟨_, by omega, rfl⟩
    · exact .inr ⟨_, by omega, rfl⟩
    · exact .inr ⟨_, by omega, rfl⟩
    · exact ih h

end Base64
