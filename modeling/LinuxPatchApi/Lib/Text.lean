/-
Text functions that follow a systems language's string library: searching, trimming, splitting
into lines and lower-casing, as total functions on strings that evaluate, with what they mean in
terms of the characters of the string.
-/
import Mathlib.Data.List.DropRight
import Mathlib.Tactic

namespace Text

/-! ## Searching -/

/-- Whether `needle` occurs in the characters. -/
def hasInfix (needle : List Char) : List Char → Bool
  | [] => needle.isEmpty
  | c :: cs => needle.isPrefixOf (c :: cs) || hasInfix needle cs

/-- Whether `needle` is a substring of `s`. -/
def contains (s needle : String) : Bool := hasInfix needle.toList s.toList

/-- Whether `s` begins with `p`. -/
def startsWith (s p : String) : Bool := p.toList.isPrefixOf s.toList

/-- Whether `s` ends with `p`. -/
def endsWith (s p : String) : Bool := p.toList.isSuffixOf s.toList

theorem hasInfix_iff {needle : List Char} : ∀ {cs : List Char}, hasInfix needle cs = true ↔ needle <:+: cs
  | [] => by simp [hasInfix]
  | c :: cs => by
    rw [hasInfix, Bool.or_eq_true, hasInfix_iff, List.isPrefixOf_iff_prefix, List.infix_cons_iff]

theorem contains_iff {s needle : String} : contains s needle = true ↔ needle.toList <:+: s.toList :=
  hasInfix_iff

/-! ## Characters -/

/-- The characters with the Unicode property `White_Space`. -/
def isWhitespace (c : Char) : Bool :=
  (0x09 ≤ c.toNat && c.toNat ≤ 0x0D) || c.toNat == 0x20 || c.toNat == 0x85 || c.toNat == 0xA0 ||
  c.toNat == 0x1680 || (0x2000 ≤ c.toNat && c.toNat ≤ 0x200A) || c.toNat == 0x2028 ||
  c.toNat == 0x2029 || c.toNat == 0x202F || c.toNat == 0x205F || c.toNat == 0x3000

def isAsciiDigit (c : Char) : Bool := 0x30 ≤ c.toNat && c.toNat ≤ 0x39

def isAsciiAlpha (c : Char) : Bool :=
  (0x41 ≤ c.toNat && c.toNat ≤ 0x5A) || (0x61 ≤ c.toNat && c.toNat ≤ 0x7A)

def isAsciiAlphanumeric (c : Char) : Bool := isAsciiAlpha c || isAsciiDigit c

/-- Lower case, as far as a search for ASCII text can tell: besides the ASCII capitals only the
dotted capital I and the Kelvin sign have ASCII letters in their lower case. -/
def lowerChar (c : Char) : List Char :=
  if 0x41 ≤ c.toNat && c.toNat ≤ 0x5A then [Char.ofNat (c.toNat + 32)]
  else if c.toNat == 0x130 then ['i', Char.ofNat 0x307]
  else if c.toNat == 0x212A then ['k']
  else [c]

def toLowercase (s : String) : String := String.ofList (s.toList.flatMap lowerChar)

/-! ## Trimming and splitting -/

def trimEnd (s : String) : String := String.ofList (s.toList.rdropWhile isWhitespace)

def trim (s : String) : String := String.ofList ((s.toList.dropWhile isWhitespace).rdropWhile isWhitespace)

/-- The pieces between the occurrences of a separator; one empty piece for the empty text. -/
def splitChars (sep : Char) : List Char → List (List Char)
  | [] => [[]]
  | c :: cs =>
    if c = sep then [] :: splitChars sep cs
    else match splitChars sep cs with
      | [] => [[c]]
      | p :: ps => (c :: p) :: ps

def split (s : String) (sep : Char) : List String := (splitChars sep s.toList).map String.ofList

/-- A line without the carriage return before its end. -/
def stripCr (cs : List Char) : List Char :=
  if cs.getLast? = some '\r' then cs.dropLast else cs

/-- The lines of a text: no line for the empty text after a last line feed, no line ends. The
last line keeps a carriage return that no line feed follows. -/
def lineChars : List (List Char) → List (List Char)
  | [] => []
  | [p] => if p.isEmpty then [] else [p]
  | p :: q :: ps => stripCr p :: lineChars (q :: ps)

def lines (s : String) : List String := (lineChars (splitChars '\n' s.toList)).map String.ofList

/-- Replaces every occurrence of a character. -/
def replaceChar (s : String) (c : Char) (w : String) : String :=
  String.ofList (s.toList.flatMap fun d => if d = c then w.toList else [d])

/-- The pieces joined with a separator. -/
def join (sep : String) : List String → String
  | [] => ""
  | [s] => s
  | s :: t :: ss => s ++ sep ++ join sep (t :: ss)

example : lines "a\r\n\nb" = ["a", "", "b"] := by decide
example : trim " \tx y\n" = "x y" := by decide

/-- The text before and after the first occurrence of `needle`. -/
def splitAtFirst (needle : List Char) : List Char → Option (List Char × List Char)
  | [] => if needle.isEmpty then some ([], []) else none
  | c :: cs =>
    if needle.isPrefixOf (c :: cs) then some ([], (c :: cs).drop needle.length)
    else (splitAtFirst needle cs).map fun (pre, post) => (c :: pre, post)

/-- The text before and after the first occurrence of `needle`, which is not in either. -/
def splitOnce (s needle : String) : Option (String × String) :=
  (splitAtFirst needle.toList s.toList).map fun (pre, post) => (String.ofList pre, String.ofList post)

/-- The text before and after the last occurrence of a character. -/
def rsplitOnce (s : String) (c : Char) : Option (String × String) :=
  (splitAtFirst [c] s.toList.reverse).map fun (post, pre) =>
    (String.ofList pre.reverse, String.ofList post.reverse)

/-- The maximal pieces without white space. -/
def wordChars : List Char → List (List Char)
  | [] => []
  | [c] => if isWhitespace c then [] else [[c]]
  | c :: d :: cs =>
    if isWhitespace c then wordChars (d :: cs)
    else if isWhitespace d then [c] :: wordChars (d :: cs)
    else match wordChars (d :: cs) with
      | [] => [[c]]
      | w :: ws => (c :: w) :: ws

def splitWhitespace (s : String) : List String := (wordChars s.toList).map String.ofList

/-- The pieces before and after the first white space character, or the whole text. -/
def splitAtWhitespace (s : String) : List String :=
  match s.toList.dropWhile (fun c => !isWhitespace c) with
  | [] => [s]
  | _ :: post => [String.ofList (s.toList.takeWhile fun c => !isWhitespace c), String.ofList post]

def stripPrefix (s p : String) : Option String :=
  if startsWith s p then some (String.ofList (s.toList.drop p.toList.length)) else none

def stripSuffix (s p : String) : Option String :=
  if endsWith s p then some (String.ofList (s.toList.take (s.toList.length - p.toList.length))) else none

/-- Drops `p` from the start as often as it is there; `n` bounds how often. -/
def dropPrefixes (p : List Char) : Nat → List Char → List Char
  | 0, cs => cs
  | n + 1, cs => if p.isPrefixOf cs then dropPrefixes p n (cs.drop p.length) else cs

def trimStartMatches (s p : String) : String := String.ofList (dropPrefixes p.toList s.toList.length s.toList)

def trimEndMatches (s p : String) : String :=
  String.ofList (dropPrefixes p.toList.reverse s.toList.length s.toList.reverse).reverse

/-- Drops a character from both ends as often as it is there. -/
def trimChar (s : String) (c : Char) : String :=
  String.ofList ((s.toList.dropWhile (· == c)).rdropWhile (· == c))

example : splitOnce "Version : 1:2.3" ":" = some ("Version ", " 1:2.3") := by decide
example : splitWhitespace "  bash\t5.2  x" = ["bash", "5.2", "x"] := by decide
example : trimEndMatches "a.service.service" ".service" = "a" := by decide

/-! ## Numbers -/

/-- The value of decimal digits, or `none` at another character. -/
def digitsValue : Nat → List Char → Option Nat
  | n, [] => some n
  | n, c :: cs => if isAsciiDigit c then digitsValue (n * 10 + (c.toNat - 0x30)) cs else none

/-- A decimal number, possibly with a plus sign before it, that is below `bound`. -/
def parseNat (bound : Nat) (s : String) : Option Nat :=
  let digits := match s.toList with
    | '+' :: cs => cs
    | cs => cs
  if digits.isEmpty then none else (digitsValue 0 digits).filter (· < bound)

/-- `parse::<u32>`. -/
def parseU32 (s : String) : Option Nat := parseNat (2 ^ 32) s

/-- `parse::<i64>`. -/
def parseI64 (s : String) : Option Int :=
  match s.toList with
  | '-' :: cs => if cs.isEmpty then none else ((digitsValue 0 cs).filter (· ≤ 2 ^ 63)).map fun n => -(n : Int)
  | _ => (parseNat (2 ^ 63) s).map fun n => (n : Int)

/-! ## Decoding -/

/-- The decoder between two bytes: how many continuation bytes are still to come, the bounds for the
next one, and the code point so far. -/
structure Utf8State where
  need : Nat
  lo : UInt8
  hi : UInt8
  point : Nat

namespace Utf8State

def idle : Utf8State := ⟨0, 0x80, 0xBF, 0⟩

/-- The first byte of a character: what is emitted at once, and the state after it. -/
def first (b : UInt8) : List Char × Utf8State :=
  if b < 0x80 then ([Char.ofNat b.toNat], idle)
  else if 0xC2 ≤ b ∧ b ≤ 0xDF then ([], ⟨1, 0x80, 0xBF, b.toNat - 0xC0⟩)
  else if 0xE0 ≤ b ∧ b ≤ 0xEF then
    ([], ⟨2, if b = 0xE0 then 0xA0 else 0x80, if b = 0xED then 0x9F else 0xBF, b.toNat - 0xE0⟩)
  else if 0xF0 ≤ b ∧ b ≤ 0xF4 then
    ([], ⟨3, if b = 0xF0 then 0x90 else 0x80, if b = 0xF4 then 0x8F else 0xBF, b.toNat - 0xF0⟩)
  else (['\uFFFD'], idle)

end Utf8State

/-- Decodes bytes from a state; every maximal ill-formed piece becomes one replacement character. -/
def decodeUtf8From : Utf8State → List UInt8 → List Char
  | st, [] => if st.need = 0 then [] else ['\uFFFD']
  | st, b :: bs =>
    if st.need = 0 then (Utf8State.first b).1 ++ decodeUtf8From (Utf8State.first b).2 bs
    else if st.lo ≤ b ∧ b ≤ st.hi then
      let point := st.point * 64 + (b.toNat - 0x80)
      if st.need = 1 then Char.ofNat point :: decodeUtf8From Utf8State.idle bs
      else decodeUtf8From ⟨st.need - 1, 0x80, 0xBF, point⟩ bs
    else '\uFFFD' :: ((Utf8State.first b).1 ++ decodeUtf8From (Utf8State.first b).2 bs)

/-- Lossy decoding of bytes as UTF-8. -/
def fromUtf8Lossy (bytes : List UInt8) : String := String.ofList (decodeUtf8From Utf8State.idle bytes)

example : fromUtf8Lossy [0xC3, 0xA9, 0xFF] = "é\uFFFD" := by decide

end Text
