/-
Which addresses the whitelist lets in: the set of addresses that the text of an entry stands for, bit by bit, and that
the manager's answer is membership in one of these sets.
-/
import LinuxPatchApi.Auth.WhitelistLines

namespace LinuxPatchApi.Auth

/-! ## Masks and leading bits -/

/-- The first `n` bits agree. -/
def SharesBits {w : ℕ} (n : ℕ) (x y : BitVec w) : Prop := ∀ i < n, x.getMsbD i = y.getMsbD i

/-- A mask of `n` leading ones keeps the first `n` bits. -/
theorem getMsbD_leadingOnes {w n i : ℕ} (hn : n ≤ w) :
    (BitVec.allOnes w <<< (w - n)).getMsbD i = decide (i < n) := by
  rw [BitVec.getMsbD_shiftLeft, BitVec.getMsbD_allOnes]
  congr 1
  exact propext ⟨fun h => by omega, fun h => by omega⟩

theorem and_leadingOnes_eq_iff {w n : ℕ} (hn : n ≤ w) {x y : BitVec w} :
    x &&& BitVec.allOnes w <<< (w - n) = y &&& BitVec.allOnes w <<< (w - n) ↔ SharesBits n x y := by
  constructor
  · intro h i hi
    have hbit := congrArg (BitVec.getMsbD · i) h
    simpa [getMsbD_leadingOnes hn, hi] using hbit
  · intro h
    refine BitVec.eq_of_getMsbD_eq fun i _ => ?_
    rw [BitVec.getMsbD_and, BitVec.getMsbD_and, getMsbD_leadingOnes hn]
    by_cases hi : i < n
    · rw [h i hi]
    · simp [hi]

/-- The shift of the mask: the difference does not wrap, and it is less than the width. -/
def ShiftInRange (pfx : UInt8) : Prop := pfx ≠ 0 → pfx ≤ 32 ∧ (32 - pfx).toNat < 32

theorem toNat_sub_of_le {pfx : UInt8} (h : pfx ≤ 32) : (32 - pfx).toNat = 32 - pfx.toNat :=
  UInt8.toNat_sub_of_le 32 pfx h

theorem shiftInRange {pfx : UInt8} (h : pfx ≤ 32) : ShiftInRange pfx := by
  intro hzero
  refine ⟨h, ?_⟩
  have hpos : pfx.toNat ≠ 0 := fun hz => hzero (UInt8.toNat_inj.1 hz)
  rw [toNat_sub_of_le h]
  omega

/-- A subnet has the addresses that share the network's first bits; its host bits do not matter. -/
theorem ipInSubnet_iff {ip network : Ipv4Addr} {pfx : UInt8} (h : pfx ≤ 32) :
    ipInSubnet ip network pfx = true ↔ SharesBits pfx.toNat ip.bits network.bits := by
  have hle : pfx.toNat ≤ 32 := UInt8.le_iff_toNat_le.1 h
  unfold ipInSubnet
  by_cases hzero : pfx = 0
  · subst hzero
    simp [SharesBits]
  · rw [if_neg hzero, beq_iff_eq, toNat_sub_of_le h]
    exact and_leadingOnes_eq_iff hle

/-! ## What an entry stands for -/

/-- The text is no blank, no comment, no subnet and no address. -/
structure IsHostname (text : String) : Prop where
  nonempty : text.isEmpty = false
  uncommented : Text.startsWith text "#" = false
  noSubnet : Text.splitOnce text "/" = none
  noAddress : Ipv4Addr.parse text = none

/-- The addresses that the text of an entry stands for. -/
inductive Denotes (lookup : Lookup) (text : String) (ip : Ipv4Addr) : Prop
  | address (hslash : Text.splitOnce text "/" = none) (h : Ipv4Addr.parse text = some ip)
  | subnet {addr digits : String} {network : Ipv4Addr} {pfx : UInt8}
    (hslash : Text.splitOnce text "/" = some (addr, digits)) (hnetwork : Ipv4Addr.parse addr = some network)
    (hpfx : parseU8 digits = .ok pfx) (hle : pfx ≤ 32) (h : SharesBits pfx.toNat ip.bits network.bits)
  | hostname (hname : IsHostname text) (h : resolveHostname lookup text = .ok ip)

section Decisions

variable {lookup : Lookup} {line text : String} {ip : Ipv4Addr} {entry : WhitelistEntry}

theorem trim_appendable (h : parseAppended (Text.trim line) = .ok entry) : Appendable (Text.trim line) entry :=
  ⟨Text.trim_trim line, h⟩

/-- A line is read as its trimmed text is. -/
theorem entryOf_trim : entryOf lookup (Text.trim line) = entryOf lookup line := by
  unfold entryOf parseEntry
  rw [Text.trim_trim]

theorem entryOf_appendable (h : parseAppended (Text.trim line) = .ok entry) : entryOf lookup line = some entry := by
  rw [← entryOf_trim, entryOf_eq]
  exact (trim_appendable h).parseEntry_eq

theorem entryOf_hostname (hname : IsHostname (Text.trim line)) {resolved : Ipv4Addr} :
    entryOf lookup line = some (.hostname (Text.trim line) resolved) ↔
      resolveHostname lookup (Text.trim line) = .ok resolved := by
  rw [entryOf_eq]
  unfold parseEntry
  simp only [hname.nonempty, hname.uncommented, hname.noSubnet, hname.noAddress, Bool.or_self, Bool.false_eq_true,
    if_false]
  cases resolveHostname lookup (Text.trim line) <;> simp

/-- Where an entry comes from. -/
theorem entryOf_cases (h : entryOf lookup line = some entry) :
    parseAppended (Text.trim line) = .ok entry ∨ IsHostname (Text.trim line) ∧
      ∃ resolved, entry = .hostname (Text.trim line) resolved := by
  rw [entryOf_eq] at h
  unfold parseEntry at h
  dsimp only at h
  unfold parseAppended parseIpv4
  split at h
  · cases h
  · next hline =>
    rw [Bool.not_eq_true, Bool.or_eq_false_iff] at hline
    split at h
    · next ipStr prefixStr hslash =>
      left
      show parseCidr _ ipStr prefixStr = _
      cases hcidr : parseCidr (Text.trim line) ipStr prefixStr with
      | error e =>
        rw [hcidr] at h
        cases h
      | ok found =>
        rw [hcidr] at h
        cases h
        rfl
    · next hslash =>
      split at h
      · next ip hip =>
        left
        cases h
        rfl
      · next hip =>
        right
        refine ⟨⟨hline.1, hline.2, hslash, hip⟩, ?_⟩
        split at h
        · cases h
          exact ⟨_, rfl⟩
        · cases h

theorem parseAppended_cases : parseAppended text = .ok entry ↔
    (∃ addr digits network pfx, Text.splitOnce text "/" = some (addr, digits) ∧ Ipv4Addr.parse addr = some network ∧
      parseU8 digits = .ok pfx ∧ pfx ≤ 32 ∧ entry = .cidr network pfx) ∨
    Text.splitOnce text "/" = none ∧ ∃ ip, Ipv4Addr.parse text = some ip ∧ entry = .ip ip := by
  unfold parseAppended parseIpv4
  cases hslash : Text.splitOnce text "/" with
  | some pieces =>
    obtain ⟨addr, digits⟩ := pieces
    simp only [Option.some.injEq, Prod.mk.injEq, reduceCtorEq, false_and, or_false]
    rw [parseCidr_ok]
    constructor
    · rintro ⟨network, pfx, h⟩
      exact ⟨addr, digits, network, pfx, ⟨rfl, rfl⟩, h⟩
    · rintro ⟨_, _, network, pfx, ⟨rfl, rfl⟩, h⟩
      exact ⟨network, pfx, h⟩
  | none =>
    cases hip : Ipv4Addr.parse text with
    | none => simp
    | some ip => simp [eq_comm]

/-- The addresses that an entry lets in are those that its text stands for. -/
theorem denotes_iff : Denotes lookup (Text.trim line) ip ↔
    ∃ e, entryOf lookup line = some e ∧ e.allows ip = true := by
  constructor
  · intro h
    cases h with
    | address hslash h =>
      exact ⟨.ip ip, entryOf_appendable (parseAppended_cases.2 (.inr ⟨hslash, ip, h, rfl⟩)), beq_self_eq_true ip⟩
    | subnet hslash hnetwork hpfx hle h =>
      refine ⟨_, entryOf_appendable (parseAppended_cases.2 (.inl ⟨_, _, _, _, hslash, hnetwork, hpfx, hle, rfl⟩)), ?_⟩
      exact (ipInSubnet_iff hle).2 h
    | hostname hname h => exact ⟨_, (entryOf_hostname hname).2 h, beq_self_eq_true ip⟩
  · rintro ⟨e, he, hallows⟩
    rcases entryOf_cases he with happended | ⟨hname, resolved, rfl⟩
    · rcases parseAppended_cases.1 happended with ⟨addr, digits, network, pfx, hslash, hnetwork, hpfx, hle, rfl⟩ |
        ⟨hslash, allowed, hip, rfl⟩
      · exact .subnet hslash hnetwork hpfx hle ((ipInSubnet_iff hle).1 hallows)
      · cases beq_iff_eq.1 hallows
        exact .address hslash hip
    · cases beq_iff_eq.1 hallows
      exact .hostname hname ((entryOf_hostname hname).1 he)

/-- Only prefixes that the mask can be shifted by come out of the text. -/
theorem entryOf_cidr {network : Ipv4Addr} {pfx : UInt8} (h : entryOf lookup line = some (.cidr network pfx)) :
    pfx ≤ 32 := by
  rcases entryOf_cases h with happended | ⟨_, _, hname⟩
  · rcases parseAppended_cases.1 happended with ⟨_, _, _, _, _, _, _, hle, he⟩ | ⟨_, _, _, he⟩
    · cases he
      exact hle
    · cases he
  · cases hname

/-- The decisions of a manager are those of the lines. -/
structure Decides (lookup : Lookup) (lines : List String) (m : WhitelistManager) : Prop where
  allowed : ∀ ip, m.isAllowed ip = true ↔ ∃ line ∈ lines, Denotes lookup (Text.trim line) ip
  v4 : ∀ ip, m.isSocketAllowed (.v4 ip) = m.isAllowed ip
  v6 : ∀ bits, m.isSocketAllowed (.v6 bits) = false
  shifts : ∀ network pfx, WhitelistEntry.cidr network pfx ∈ m.entries → ShiftInRange pfx

theorem decides_of_parse {lines : List String} {entries : Finset WhitelistEntry}
    (h : parseEntries lookup lines = .ok entries) (path : String) : Decides lookup lines ⟨entries, path⟩ where
  allowed ip := by
    rw [isAllowed_iff]
    constructor
    · rintro ⟨e, he, hallows⟩
      obtain ⟨line, hline, hentry⟩ := (mem_parseEntries h).1 he
      exact ⟨line, hline, denotes_iff.2 ⟨e, hentry, hallows⟩⟩
    · rintro ⟨line, hline, hdenotes⟩
      obtain ⟨e, hentry, hallows⟩ := denotes_iff.1 hdenotes
      exact ⟨e, (mem_parseEntries h).2 ⟨line, hline, hentry⟩, hallows⟩
  v4 _ := rfl
  v6 _ := rfl
  shifts network pfx hmem := by
    obtain ⟨line, _, hentry⟩ := (mem_parseEntries h).1 hmem
    exact shiftInRange (entryOf_cidr hentry)

end Decisions

/-- Of lines that are accepted, the manager lets in exactly the addresses that some line stands for; more lines let in
no fewer addresses. -/
theorem whitelist_exact {lookup : Lookup} {lines : List String} {entries : Finset WhitelistEntry}
    (h : parseEntries lookup lines = .ok entries) (path : String) :
    Decides lookup lines ⟨entries, path⟩ ∧
    ∀ lines' entries', parseEntries lookup lines' = .ok entries' → lines ⊆ lines' → ∀ peer,
      WhitelistManager.isSocketAllowed ⟨entries, path⟩ peer = true →
      WhitelistManager.isSocketAllowed ⟨entries', path⟩ peer = true := by
  refine ⟨decides_of_parse h path, fun lines' entries' h' hsub peer hallowed => ?_⟩
  cases peer with
  | v6 bits => cases hallowed
  | v4 ip =>
    obtain ⟨line, hline, hdenotes⟩ := ((decides_of_parse h path).allowed ip).1 hallowed
    exact ((decides_of_parse h' path).allowed ip).2 ⟨line, hsub hline, hdenotes⟩

/-- A host address, a subnet with host bits, a name, a comment and a blank. -/
def mixedLines : List String := ["10.0.0.1", " 192.168.1.77/24 ", "manager", "# office", "", "172.16.0.9/0"]

def oneName : Lookup := fun name => if name = "manager" then .ok [.v6 1, .v4 (.ofOctets 10 0 0 2)] else .error "unknown"

theorem whitelist_exact_mixed : ∃ entries, parseEntries oneName mixedLines = .ok entries ∧
    Decides oneName mixedLines ⟨entries, whitelistPath⟩ :=
  ⟨_, rfl, (whitelist_exact (show parseEntries oneName mixedLines = .ok _ from rfl) whitelistPath).1⟩

end LinuxPatchApi.Auth
