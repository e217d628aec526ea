/-
Addresses of the network, and IPv4 addresses as they are written.
-/
import LinuxPatchApi.Lib.Decimal

namespace LinuxPatchApi

structure Ipv4Addr where
  bits : BitVec 32
  deriving DecidableEq, Repr

inductive IpAddr
  | v4 (ip : Ipv4Addr)
  | v6 (bits : BitVec 128)
  deriving DecidableEq, Repr

namespace Ipv4Addr

def ofOctets (a b c d : UInt8) : Ipv4Addr := ⟨a.toBitVec ++ b.toBitVec ++ c.toBitVec ++ d.toBitVec⟩

/-- One to three digits without a leading zero. -/
def parseOctet (s : String) : Option UInt8 :=
  match s.toList with
  | [] => none
  | '0' :: _ :: _ => none
  | digits => if digits.length ≤ 3 then ((Text.digitsValue 0 digits).filter (· < 256)).map UInt8.ofNat else none

/-- `parse::<Ipv4Addr>`. -/
def parse (s : String) : Option Ipv4Addr :=
  match (Text.split s '.').map parseOctet with
  | [some a, some b, some c, some d] => some (ofOctets a b c d)
  | _ => none

example : parse "192.168.1.10" = some (ofOctets 192 168 1 10) := by decide
example : [parse "192.168.1", parse "192.168.01.1", parse "256.0.0.1", parse "1.2.3.+4", parse " 1.2.3.4"] =
    [none, none, none, none, none] := by decide

/-! ## The text of an address -/

/-- One of `octets()`. -/
def octet (ip : Ipv4Addr) (i : Fin 4) : UInt8 := ⟨ip.bits.extractLsb' (24 - 8 * i) 8⟩

/-- `to_string`. -/
def text (ip : Ipv4Addr) : String :=
  toString (ip.octet 0).toNat ++ "." ++ toString (ip.octet 1).toNat ++ "." ++ toString (ip.octet 2).toNat ++ "." ++
    toString (ip.octet 3).toNat

@[simp] theorem ofOctets_octet (ip : Ipv4Addr) :
    ofOctets (ip.octet 0) (ip.octet 1) (ip.octet 2) (ip.octet 3) = ip := by
  obtain ⟨bits⟩ := ip
  show (⟨_ ++ _ ++ _ ++ _⟩ : Ipv4Addr) = ⟨bits⟩
  congr 1
  show BitVec.extractLsb' 24 8 bits ++ BitVec.extractLsb' 16 8 bits ++ BitVec.extractLsb' 8 8 bits ++
    BitVec.extractLsb' 0 8 bits = bits
  rw [BitVec.extractLsb'_append_extractLsb'_eq_extractLsb' (show 24 = 16 + 8 by omega),
    BitVec.extractLsb'_append_extractLsb'_eq_extractLsb' (show 16 = 8 + 8 by omega),
    BitVec.extractLsb'_append_extractLsb'_eq_extractLsb' (show 8 = 0 + 8 by omega), BitVec.extractLsb'_eq_self]

/-- `is_loopback`: 127.0.0.0/8. -/
def isLoopback (ip : Ipv4Addr) : Bool := ip.octet 0 == 127

/-- `is_container_bridge`: 172.16.0.0/12. -/
def isContainerBridge (ip : Ipv4Addr) : Bool := ip.octet 0 == 172 && ip.octet 1 &&& 0xF0 == 0x10

/-- `is_link_local`: 169.254.0.0/16. -/
def isLinkLocal (ip : Ipv4Addr) : Bool := ip.octet 0 == 169 && ip.octet 1 == 254

section Octets

variable {a b c d : UInt8}

@[simp] theorem octet_zero : (ofOctets a b c d).octet 0 = a := by
  show UInt8.ofBitVec (BitVec.extractLsb' 24 8 (_ ++ _ ++ _ ++ _)) = a
  rw [BitVec.extractLsb'_append_eq_of_le (by omega), BitVec.extractLsb'_append_eq_of_le (by omega),
    BitVec.extractLsb'_append_eq_of_le (by omega), BitVec.extractLsb'_eq_self]

@[simp] theorem octet_one : (ofOctets a b c d).octet 1 = b := by
  show UInt8.ofBitVec (BitVec.extractLsb' 16 8 (_ ++ _ ++ _ ++ _)) = b
  rw [BitVec.extractLsb'_append_eq_of_le (by omega), BitVec.extractLsb'_append_eq_of_le (by omega),
    BitVec.extractLsb'_append_eq_of_add_le (by omega), BitVec.extractLsb'_eq_self]

@[simp] theorem octet_two : (ofOctets a b c d).octet 2 = c := by
  show UInt8.ofBitVec (BitVec.extractLsb' 8 8 (_ ++ _ ++ _ ++ _)) = c
  rw [BitVec.extractLsb'_append_eq_of_le (by omega), BitVec.extractLsb'_append_eq_of_add_le (by omega),
    BitVec.extractLsb'_eq_self]

@[simp] theorem octet_three : (ofOctets a b c d).octet 3 = d := by
  show UInt8.ofBitVec (BitVec.extractLsb' 0 8 (_ ++ _ ++ _ ++ _)) = d
  rw [BitVec.extractLsb'_append_eq_of_add_le (by omega), BitVec.extractLsb'_eq_self]

end Octets

/-- An octet is read from the text that it is printed as, and from no other. -/
theorem parseOctet_iff {s : String} {a : UInt8} : parseOctet s = some a ↔ s = toString a.toNat := by
  constructor
  · intro h
    unfold parseOctet at h
    split at h
    · cases h
    · cases h
    · next hne hzero =>
      split at h
      · simp only [Option.map_eq_some_iff, Option.filter_eq_some_iff] at h
        obtain ⟨n, ⟨hn, hlt⟩, rfl⟩ := h
        have hlt : n < 256 := by simpa using hlt
        have hzero : Text.NoLeadingZero s.toList := fun h0 => by
          obtain ⟨cs, hcs⟩ := List.head?_eq_some_iff.1 h0
          cases cs with
          | nil => exact hcs
          | cons c cs => exact absurd hcs (hzero c cs)
        refine String.toList_inj.1 ?_
        rw [Text.toList_toString, UInt8.toNat_ofNat_of_lt' hlt]
        exact (Text.toDigits_of_digitsValue hne hzero hn).symm
      · cases h
  · rintro rfl
    have hlt := a.toNat_lt
    have hlen : (Nat.toDigits 10 a.toNat).length ≤ 3 := (Nat.length_toDigits_le_iff (by omega) (by omega)).2 (by omega)
    unfold parseOctet
    rw [Text.toList_toString]
    split
    · next h => exact absurd h Nat.toDigits_ne_nil
    · next c cs h =>
      have := Text.noLeadingZero_toDigits a.toNat (by rw [h]; rfl)
      rw [h] at this
      simp at this
    · rw [if_pos hlen, Text.digitsValue_toDigits]
      simp [show a.toNat < 256 by omega]

theorem not_mem_octet {s : String} {a : UInt8} (h : parseOctet s = some a) : '.' ∉ s.toList := by
  rw [parseOctet_iff.1 h, Text.toList_toString]
  exact Text.not_mem_toDigits (by decide) _

/-- The octets as they are printed. -/
def pieces (ip : Ipv4Addr) : List String :=
  [toString (ip.octet 0).toNat, toString (ip.octet 1).toNat, toString (ip.octet 2).toNat, toString (ip.octet 3).toNat]

theorem text_eq_join (ip : Ipv4Addr) : ip.text = Text.join (String.singleton '.') ip.pieces := by
  simp [text, pieces, Text.join, String.append_assoc]

theorem parse_text (ip : Ipv4Addr) : parse ip.text = some ip := by
  have hsplit : Text.split ip.text '.' = ip.pieces := by
    rw [text_eq_join]
    refine Text.split_join (by simp [pieces]) fun p hp => ?_
    obtain rfl | rfl | rfl | rfl : p = _ ∨ p = _ ∨ p = _ ∨ p = _ := by simpa [pieces] using hp
    all_goals exact not_mem_octet (parseOctet_iff.2 rfl)
  rw [parse, hsplit, pieces]
  simp only [List.map_cons, List.map_nil, parseOctet_iff.2 rfl]
  rw [ofOctets_octet]

/-- An address is read from the text that it is printed as, and from no other. -/
theorem parse_iff {s : String} {ip : Ipv4Addr} : parse s = some ip ↔ s = ip.text := by
  constructor
  · intro h
    unfold parse at h
    split at h
    · next a b c d hpieces =>
      obtain rfl := Option.some.inj h
      rw [← Text.join_split s '.', text_eq_join, pieces]
      congr 1
      simp only [octet_zero, octet_one, octet_two, octet_three]
      simp only [List.map_eq_cons_iff, List.map_eq_nil_iff] at hpieces
      obtain ⟨p, _, hsplit, hp, q, _, rfl, hq, r, _, rfl, hr, u, _, rfl, hu, rfl⟩ := hpieces
      rw [hsplit, parseOctet_iff.1 hp, parseOctet_iff.1 hq, parseOctet_iff.1 hr, parseOctet_iff.1 hu]
    · cases h
  · rintro rfl
    exact parse_text ip

end Ipv4Addr

def IpAddr.isLoopback : IpAddr → Bool
  | .v4 ip => ip.isLoopback
  | .v6 bits => bits == 1

end LinuxPatchApi
