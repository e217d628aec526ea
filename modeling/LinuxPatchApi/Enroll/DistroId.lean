/-
`detect_distro_id_for_repo_config`: the distro that is asked for is looked up in the two fields of `/etc/os-release` at
once, one distro after the other, so that a distro earlier in the order wins by being a parent of the host's own.
-/
import LinuxPatchApi.Files

namespace LinuxPatchApi.Enroll

open LinuxPatchApi.Packages Text

/-! ## The function -/

/-- `to_ascii_lowercase`. -/
def toAsciiLowercase (s : String) : String := String.ofList (s.toList.map Char.toLower)

/-- One line of the file; the last line with a key counts. -/
def osReleaseName (acc : Option String × Option String) (line : String) : Option String × Option String :=
  match splitOnce (trim line) "=" with
  | none => acc
  | some (key, value) =>
    let unquoted := trimChar (trimChar (trim value) '"') '\''
    if key = "NAME" then (some unquoted, acc.2)
    else if key = "ID_LIKE" then (acc.1, some unquoted)
    else acc

/-- `NAME` and `ID_LIKE`. -/
def osReleaseNames (content : String) : Option String × Option String :=
  (lines content).foldl osReleaseName (none, none)

/-- The name in lower case. -/
def osOf (content : String) : String := toAsciiLowercase ((osReleaseNames content).1.getD "")

def likeOf (content : String) : String := toAsciiLowercase ((osReleaseNames content).2.getD "")

def distroOf (os like : String) : Option String :=
  if contains os "ubuntu" || contains like "ubuntu" then some "ubuntu"
  else if contains os "debian" || contains like "debian" then some "debian"
  else if contains os "fedora" || contains like "fedora" then some "fedora"
  else if contains os "alma" || contains like "alma" then some "almalinux"
  else if contains os "alpine" || contains like "alpine" then some "alpine"
  else if contains os "arch" || contains like "arch" then some "arch"
  else none

/-- The function on what was read. -/
def detectDistroIdForRepoConfig (read : Except AnyhowError String) : Except AnyhowError String :=
  match read with
  | .error e => .error (e.context "Failed to read /etc/os-release — cannot determine distro for repo-config fetch")
  | .ok content =>
    match distroOf (osOf content) (likeOf content) with
    | some distroId => .ok distroId
    | none => .error (anyhow ("Could not determine distro_id from /etc/os-release (NAME=" ++ osOf content ++
        ", ID_LIKE=" ++ likeOf content ++ ")"))

/-! ## Distros in their order -/

inductive Distro
  | ubuntu
  | debian
  | fedora
  | alma
  | alpine
  | arch
  deriving DecidableEq, Repr

namespace Distro

/-- What is searched for. -/
def name : Distro → String
  | ubuntu => "ubuntu"
  | debian => "debian"
  | fedora => "fedora"
  | alma => "alma"
  | alpine => "alpine"
  | arch => "arch"

def distroId : Distro → String
  | alma => "almalinux"
  | d => d.name

/-- The place in the order. -/
def rank : Distro → Nat
  | ubuntu => 0
  | debian => 1
  | fedora => 2
  | alma => 3
  | alpine => 4
  | arch => 5

def inOrder : List Distro := [ubuntu, debian, fedora, alma, alpine, arch]

theorem mem_inOrder (d : Distro) : d ∈ inOrder := by cases d <;> decide

theorem distroId_injective : Function.Injective distroId := by
  intro d d' h
  cases d <;> cases d' <;> first | rfl | exact absurd h (by decide)

/-- The text contains the distro's name. -/
def In (text : String) (d : Distro) : Bool := contains text d.name

end Distro

theorem distroOf_eq (os like : String) : distroOf os like =
    (Distro.inOrder.find? fun d => d.In os || d.In like).map Distro.distroId := by
  unfold distroOf Distro.inOrder
  simp only [List.find?_cons, List.find?_nil, Distro.In, Distro.name]
  repeat' split
  all_goals first | rfl | simp_all

/-- Two searches at once find what the first one finds, when nothing that the second one finds comes before it. -/
theorem find?_or_eq_iff {α : Type} {rank : α → Nat} {p q : α → Bool} : ∀ {l : List α},
    (l.Pairwise fun a b => rank a < rank b) → (∃ a ∈ l, p a = true) →
      (l.find? (fun a => p a || q a) = l.find? p ↔ ∀ b ∈ l, q b = true → ∃ a ∈ l, p a = true ∧ rank a ≤ rank b)
  | [], _, ⟨_, ha, _⟩ => by cases ha
  | a :: l, hl, hsome => by
    obtain ⟨hfirst, hrest⟩ := List.pairwise_cons.1 hl
    cases hp : p a with
    | true =>
      refine iff_of_true (by simp [hp]) fun b hb _ => ⟨a, List.mem_cons_self, hp, ?_⟩
      rcases List.mem_cons.1 hb with rfl | hb
      · exact le_rfl
      · exact (hfirst b hb).le
    | false =>
      have hlater : ∃ a ∈ l, p a = true := by
        obtain ⟨b, hb, hpb⟩ := hsome
        rcases List.mem_cons.1 hb with rfl | hb
        · rw [hp] at hpb
          cases hpb
        · exact ⟨b, hb, hpb⟩
      cases hq : q a with
      | true =>
        refine iff_of_false (fun h => ?_) fun h => ?_
        · simp only [List.find?_cons, hp, hq, Bool.or_true] at h
          rw [List.find?_some h.symm] at hp
          cases hp
        · obtain ⟨b, hb, hpb, hle⟩ := h a List.mem_cons_self hq
          rcases List.mem_cons.1 hb with rfl | hb
          · rw [hp] at hpb
            cases hpb
          · have := hfirst b hb
            omega
      | false =>
        have ih := find?_or_eq_iff (q := q) hrest hlater
        simp only [List.find?_cons, hp, hq, Bool.or_false, ih, List.mem_cons, forall_eq_or_imp, exists_eq_or_imp]
        simp

/-! ## The host's own distro -/

/-- `NAME` names the distro. -/
def NamedBy (content : String) (d : Distro) : Prop := d.In (osOf content) = true

/-- `ID_LIKE` names it. -/
def LikedBy (content : String) (d : Distro) : Prop := d.In (likeOf content) = true

/-- The distro that is reported is the host's own: the only one that its name names, and the one that the name alone
gives whenever it names any. -/
structure OwnDistro (content : String) : Prop where
  own : ∀ d, (∀ d', NamedBy content d' ↔ d' = d) → detectDistroIdForRepoConfig (.ok content) = .ok d.distroId
  nameFirst : (∃ d, NamedBy content d) →
    ∃ distroId, distroOf (osOf content) "" = some distroId ∧ detectDistroIdForRepoConfig (.ok content) = .ok distroId

/-- `ID_LIKE` names no distro that comes before all that `NAME` names. -/
def NoParentFirst (content : String) : Prop :=
  ∀ d', LikedBy content d' → ∃ d, NamedBy content d ∧ d.rank ≤ d'.rank

theorem detect_ok_iff {content distroId : String} : detectDistroIdForRepoConfig (.ok content) = .ok distroId ↔
    distroOf (osOf content) (likeOf content) = some distroId := by
  unfold detectDistroIdForRepoConfig
  dsimp only
  cases distroOf (osOf content) (likeOf content) <;> simp

theorem distroOf_nothing (os : String) :
    distroOf os "" = (Distro.inOrder.find? fun d => d.In os).map Distro.distroId := by
  rw [distroOf_eq]
  have hnone : ∀ d : Distro, d.In "" = false := fun d => by cases d <;> decide
  simp only [hnone, Bool.or_false]

/-- What the name alone gives is what the host gets, exactly when no parent comes first. -/
theorem nameFirst_iff {content : String} (h : ∃ d, NamedBy content d) :
    (∃ distroId, distroOf (osOf content) "" = some distroId ∧
      detectDistroIdForRepoConfig (.ok content) = .ok distroId) ↔ NoParentFirst content := by
  have hordered : Distro.inOrder.Pairwise fun a b => a.rank < b.rank := by decide
  have hsome : ∃ d ∈ Distro.inOrder, d.In (osOf content) = true := by
    obtain ⟨d, hd⟩ := h
    exact ⟨d, d.mem_inOrder, hd⟩
  have hsearch := find?_or_eq_iff (q := fun d => d.In (likeOf content)) hordered hsome
  obtain ⟨d₀, hd₀⟩ : ∃ d, Distro.inOrder.find? (fun d => d.In (osOf content)) = some d := by
    obtain ⟨d, hmem, hd⟩ := hsome
    exact Option.isSome_iff_exists.1 (List.find?_isSome.2 ⟨d, hmem, hd⟩)
  rw [distroOf_nothing, hd₀]
  simp only [detect_ok_iff, distroOf_eq, Option.map_some, Option.some.injEq, exists_eq_left']
  rw [hd₀] at hsearch
  have hinj : Option.map Distro.distroId
      (Distro.inOrder.find? fun d => d.In (osOf content) || d.In (likeOf content)) = some d₀.distroId ↔
        (Distro.inOrder.find? fun d => d.In (osOf content) || d.In (likeOf content)) = some d₀ := by
    rw [← Option.map_some, (Option.map_injective Distro.distroId_injective).eq_iff]
  rw [hinj, hsearch]
  constructor
  · intro hall d' hd'
    obtain ⟨d, _, hd, hle⟩ := hall d' d'.mem_inOrder hd'
    exact ⟨d, hd, hle⟩
  · intro hall d' _ hd'
    obtain ⟨d, hd, hle⟩ := hall d' hd'
    exact ⟨d, d.mem_inOrder, hd, hle⟩

/-- The host gets its own distro exactly when `NAME` names none, or no parent comes before all that it names. -/
theorem own_distro_iff (content : String) :
    OwnDistro content ↔ (∀ d, ¬ NamedBy content d) ∨ NoParentFirst content := by
  constructor
  · intro h
    by_cases hnamed : ∃ d, NamedBy content d
    · exact .inr ((nameFirst_iff hnamed).1 (h.nameFirst hnamed))
    · exact .inl fun d hd => hnamed ⟨d, hd⟩
  · intro h
    have hfirst : (∃ d, NamedBy content d) → NoParentFirst content := fun ⟨d, hd⟩ => h.resolve_left fun hno => hno d hd
    refine ⟨fun d honly => ?_, fun hnamed => (nameFirst_iff hnamed).2 (hfirst hnamed)⟩
    have hnamed : ∃ d, NamedBy content d := ⟨d, (honly d).2 rfl⟩
    obtain ⟨distroId, hname, hdetect⟩ := (nameFirst_iff hnamed).2 (hfirst hnamed)
    rw [distroOf_nothing] at hname
    obtain ⟨d', hd', rfl⟩ := Option.map_eq_some_iff.1 hname
    rw [hdetect, (honly d').1 (List.find?_some hd')]

/-- A host whose parents are named before itself. -/
def almaRelease : String := "NAME=\"AlmaLinux\"\nVERSION=\"9.3\"\nID=\"almalinux\"\nID_LIKE=\"rhel centos fedora\"\n"

/-- It names one distro, and gets its parent's configuration. -/
theorem almaRelease_gets_fedora : detectDistroIdForRepoConfig (.ok almaRelease) = .ok "fedora" ∧
    (∀ d, NamedBy almaRelease d ↔ d = .alma) ∧ ¬ OwnDistro almaRelease := by
  have hos : osOf almaRelease = "almalinux" := by decide +kernel
  have hlike : likeOf almaRelease = "rhel centos fedora" := by decide +kernel
  have honly : ∀ d, NamedBy almaRelease d ↔ d = .alma := fun d => by
    rw [NamedBy, hos]
    cases d <;> decide
  have hdetect : detectDistroIdForRepoConfig (.ok almaRelease) = .ok "fedora" := by
    rw [detect_ok_iff, hos, hlike]
    decide
  refine ⟨hdetect, honly, fun h => ?_⟩
  have hown := h.own .alma honly
  rw [hdetect] at hown
  exact absurd hown (by decide)

end LinuxPatchApi.Enroll
