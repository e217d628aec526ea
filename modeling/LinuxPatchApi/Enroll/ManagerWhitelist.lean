/-
`append_manager_to_whitelist` of `src/enroll/provision.rs`, the last step of an enrollment: on a whitelist file that is
missing or well-formed it ends with the manager listed exactly when the file is there, the watcher can be set up, and
the operations of the append work.
-/
import LinuxPatchApi.Auth.WhitelistWrites

namespace LinuxPatchApi.Enroll

open LinuxPatchApi.Packages LinuxPatchApi.Auth Disk FileM

/-- What the surroundings answer to one call: the file system, the name service at the two loads, the watcher and the
lock. -/
structure WhitelistAnswers where
  env : HostSurroundings
  atLoad : Lookup
  atReload : Lookup
  watch : Except AnyhowError Unit
  locked : Except String Unit

def appendManagerToWhitelist (y : WhitelistYaml) (x : WhitelistAnswers) (managerIp whitelistPath : String) :
    FileM Unit := do
  let ipOrCidr := Text.trim managerIp
  if ipOrCidr.isEmpty then bail "Manager IP address cannot be empty"
  else
    let manager ← (reading fun s => WhitelistManager.new y x.atLoad s whitelistPath x.watch).context
      ("Failed to initialize whitelist manager for path: " ++ whitelistPath)
    let _ ← (manager.appendEntry y x.atReload x.locked ipOrCidr).context
      ("Failed to append manager IP '" ++ ipOrCidr ++ "' to whitelist at: " ++ whitelistPath)

/-! ## What is promised, and when it is kept -/

section Listed

variable (y : WhitelistYaml) (s : HostFiles) (path managerIp : String) (ip : Ipv4Addr)

/-- A line of the file is the address. -/
def ListsAddress : Prop := ∃ line ∈ fileLines y s path, Ipv4Addr.parse (Text.trim line) = some ip

/-- The manager is whitelisted: what the call returns, and what it leaves. -/
structure ManagerListed (t : HostFiles) (result : Except AnyhowError Unit) : Prop where
  ok : result = .ok ()
  wellFormed : WellFormed y t path
  kept : fileLines y s path <+: fileLines y t path
  allowed : ∀ lookup, ∃ m, WhitelistManager.new y lookup t path (.ok ()) = .ok m ∧ m.isAllowed ip = true
  /-- A second call changes nothing, and fails only if the watcher cannot be set up. -/
  again : ∀ x : WhitelistAnswers, ((appendManagerToWhitelist y x managerIp path).run x.env t).2 = t ∧
    (x.watch = .ok () → ((appendManagerToWhitelist y x managerIp path).run x.env t).1 = .ok ())

/-- The file is there, the watcher can be set up, and the append works unless the address is listed already. -/
structure CanList (x : WhitelistAnswers) : Prop where
  there : s path ≠ none
  watched : x.watch = .ok ()
  written : ¬ ListsAddress y s path ip → Writes y x.env s path x.locked (Text.trim managerIp)

variable {y s path managerIp ip} {x : WhitelistAnswers} {t : HostFiles}

theorem entryOf_address {lookup : Lookup} {line : String} :
    entryOf lookup line = some (.ip ip) ↔ Ipv4Addr.parse (Text.trim line) = some ip := by
  constructor
  · intro h
    rcases entryOf_cases h with happended | ⟨_, _, hname⟩
    · rcases parseAppended_cases.1 happended with ⟨_, _, _, _, _, _, _, _, he⟩ | ⟨_, _, hip, he⟩
      · cases he
      · cases he
        exact hip
    · cases hname
  · intro h
    exact entryOf_appendable (parseAppended_address h)

theorem mem_entries_iff {lookup : Lookup} {entries : Finset WhitelistEntry}
    (h : loadEntries y lookup s path = .ok entries) : .ip ip ∈ entries ↔ ListsAddress y s path ip := by
  unfold ListsAddress fileLines
  unfold loadEntries at h
  split at h
  · cases h
  · next lines hconfig =>
    rw [hconfig, mem_parseEntries h]
    simp only [entryOf_address]

theorem new_ok {lookup : Lookup} {watch : Except AnyhowError Unit} {m : WhitelistManager} :
    WhitelistManager.new y lookup s path watch = .ok m ↔
      watch = .ok () ∧ ∃ entries, loadEntries y lookup s path = .ok entries ∧ m = ⟨entries, path⟩ := by
  unfold WhitelistManager.new
  cases hload : loadEntries y lookup s path with
  | error e => simp
  | ok entries =>
    cases watch with
    | error e => simp [Except.map]
    | ok u => simp [Except.map, eq_comm]

/-- The call works when the manager can be made and the address is in memory, or can be appended. -/
theorem appendManager_ok (hip : Ipv4Addr.parse (Text.trim managerIp) = some ip) :
    (appendManagerToWhitelist y x managerIp path).run x.env s = (.ok (), t) ↔
      x.watch = .ok () ∧ ∃ entries, loadEntries y x.atLoad s path = .ok entries ∧
        ((.ip ip ∈ entries ∧ t = s) ∨ .ip ip ∉ entries ∧
          ∃ a, (rewriteAppend y x.atReload path x.locked (Text.trim managerIp)).run x.env s = (.ok a, t)) := by
  have hparse : parseAppended (Text.trim (Text.trim managerIp)) = .ok (.ip ip) := by
    rw [Text.trim_trim]
    exact parseAppended_address hip
  have hnonempty : ¬ (Text.trim managerIp).isEmpty = true := by
    rw [String.isEmpty_iff]
    intro hempty
    rw [hempty] at hip
    cases hip
  have hafter : ∀ {m : FileM Appended} {text : String} {u : HostFiles},
      (do let _ ← m.context text : FileM Unit).run x.env u = (.ok (), t) ↔ ∃ a, m.run x.env u = (.ok a, t) := by
    intro m text u
    rw [Action.bind_ok]
    constructor
    · rintro ⟨a, v, hm, h⟩
      cases h
      exact ⟨a, context_ok.1 hm⟩
    · rintro ⟨a, hm⟩
      exact ⟨a, t, context_ok.2 hm, rfl⟩
  unfold appendManagerToWhitelist
  dsimp only
  rw [if_neg hnonempty, Action.bind_ok]
  constructor
  · rintro ⟨m, u, hread, h⟩
    obtain ⟨hnew, rfl⟩ := reading_ok.1 (context_ok.1 hread)
    obtain ⟨hwatch, entries, hload, rfl⟩ := new_ok.1 hnew
    obtain ⟨a, h⟩ := hafter.1 h
    rw [appendEntry_eq hparse, Text.trim_trim] at h
    refine ⟨hwatch, entries, hload, ?_⟩
    split at h
    · next hmem =>
      cases h
      exact .inl ⟨hmem, rfl⟩
    · next hmem => exact .inr ⟨hmem, a, h⟩
  · rintro ⟨hwatch, entries, hload, h⟩
    refine ⟨⟨entries, path⟩, s, context_ok.2 (reading_ok.2 ⟨new_ok.2 ⟨hwatch, entries, hload, rfl⟩, rfl⟩), hafter.2 ?_⟩
    rw [appendEntry_eq hparse, Text.trim_trim]
    rcases h with ⟨hmem, rfl⟩ | ⟨hmem, h⟩
    · rw [if_pos hmem]
      exact ⟨.duplicate, rfl⟩
    · rw [if_neg hmem]
      exact h

/-- A manager that cannot be made changes nothing. -/
theorem appendManager_unmade {e : AnyhowError} (hnew : WhitelistManager.new y x.atLoad s path x.watch = .error e) :
    ((appendManagerToWhitelist y x managerIp path).run x.env s).2 = s := by
  unfold appendManagerToWhitelist
  dsimp only
  split
  · rfl
  · rw [Action.run_bind, context, Action.run_mapError, run_reading, hnew]

/-- On a file that lists the address a call changes nothing. -/
theorem listed_again (hip : Ipv4Addr.parse (Text.trim managerIp) = some ip) (hwell : WellFormed y t path)
    (hlisted : ListsAddress y t path ip) (x : WhitelistAnswers) :
    ((appendManagerToWhitelist y x managerIp path).run x.env t).2 = t ∧
      (x.watch = .ok () → ((appendManagerToWhitelist y x managerIp path).run x.env t).1 = .ok ()) := by
  obtain ⟨entries, hload⟩ := hwell.loads x.atLoad
  have hmem : .ip ip ∈ entries := (mem_entries_iff hload).2 hlisted
  cases hwatch : x.watch with
  | ok u =>
    have hrun := (appendManager_ok (s := t) (t := t) hip).2 ⟨hwatch, entries, hload, .inl ⟨hmem, rfl⟩⟩
    rw [hrun]
    exact ⟨rfl, fun _ => rfl⟩
  | error e =>
    refine ⟨appendManager_unmade (e := e) ?_, fun h => by cases h⟩
    rw [WhitelistManager.new, hload, hwatch]
    rfl

theorem listed_allowed (hwell : WellFormed y t path) (hlisted : ListsAddress y t path ip) (lookup : Lookup) :
    ∃ m, WhitelistManager.new y lookup t path (.ok ()) = .ok m ∧ m.isAllowed ip = true := by
  obtain ⟨entries, hload⟩ := hwell.loads lookup
  refine ⟨⟨entries, path⟩, new_ok.2 ⟨rfl, entries, hload, rfl⟩, ?_⟩
  exact isAllowed_iff.2 ⟨.ip ip, (mem_entries_iff hload).2 hlisted, beq_self_eq_true ip⟩

/-- What the call leaves when it works. -/
theorem listed_of_ok (hround : y.RoundTrip) (hip : Ipv4Addr.parse (Text.trim managerIp) = some ip)
    (hfile : s path = none ∨ WellFormed y s path)
    (hrun : (appendManagerToWhitelist y x managerIp path).run x.env s = (.ok (), t)) :
    ManagerListed y s path managerIp ip t (.ok ()) := by
  obtain ⟨_, entries, hload, h⟩ := (appendManager_ok hip).1 hrun
  have hwell : WellFormed y s path := hfile.resolve_left (loadEntries_there hload)
  suffices hafter : WellFormed y t path ∧ fileLines y s path <+: fileLines y t path ∧ ListsAddress y t path ip by
    obtain ⟨hafter, hkept, hlisted⟩ := hafter
    exact ⟨rfl, hafter, hkept, listed_allowed hafter hlisted, listed_again hip hafter hlisted⟩
  have happend : Appendable (Text.trim managerIp) (.ip ip) := trim_appendable (parseAppended_address hip)
  rcases h with ⟨hmem, rfl⟩ | ⟨_, h⟩
  · exact ⟨hwell, List.prefix_refl _, (mem_entries_iff hload).1 hmem⟩
  · obtain ⟨_, text, htext, rfl⟩ := (rewriteAppend_ok _ hround happend hfile).1 h
    obtain ⟨hafter, hlines⟩ := appendedFiles_wellFormed hround happend hfile htext
    refine ⟨hafter, by rw [hlines]; exact List.prefix_append _ _, Text.trim managerIp, ?_, ?_⟩
    · rw [hlines]
      exact List.mem_append_right _ (List.mem_singleton_self _)
    · rw [Text.trim_trim]
      exact hip

/-- An enrollment ends with the manager whitelisted if and only if the file is there and can be watched and, unless it
lists the address, appended to. -/
theorem manager_listed_iff (hround : y.RoundTrip) (hip : Ipv4Addr.parse (Text.trim managerIp) = some ip)
    (hfile : s path = none ∨ WellFormed y s path) (x : WhitelistAnswers) :
    ManagerListed y s path managerIp ip ((appendManagerToWhitelist y x managerIp path).run x.env s).2
      ((appendManagerToWhitelist y x managerIp path).run x.env s).1 ↔ CanList y s path managerIp ip x := by
  have happend : Appendable (Text.trim managerIp) (.ip ip) := trim_appendable (parseAppended_address hip)
  constructor
  · intro h
    have hrun : (appendManagerToWhitelist y x managerIp path).run x.env s =
        (.ok (), ((appendManagerToWhitelist y x managerIp path).run x.env s).2) := Prod.ext h.ok rfl
    obtain ⟨hwatch, entries, hload, h⟩ := (appendManager_ok hip).1 hrun
    refine ⟨loadEntries_there hload, hwatch, fun hnot => ?_⟩
    rcases h with ⟨hmem, _⟩ | ⟨_, h⟩
    · exact absurd ((mem_entries_iff hload).1 hmem) hnot
    · exact ((rewriteAppend_ok _ hround happend hfile).1 h).1
  · rintro ⟨hthere, hwatch, hwritten⟩
    have hwell : WellFormed y s path := hfile.resolve_left hthere
    obtain ⟨entries, hload⟩ := hwell.loads x.atLoad
    obtain ⟨t, hrun⟩ : ∃ t, (appendManagerToWhitelist y x managerIp path).run x.env s = (.ok (), t) := by
      by_cases hlisted : ListsAddress y s path ip
      · exact ⟨s, (appendManager_ok hip).2
          ⟨hwatch, entries, hload, .inl ⟨(mem_entries_iff hload).2 hlisted, rfl⟩⟩⟩
      · have hwrites := hwritten hlisted
        obtain ⟨text, htext, _⟩ := hwrites.finishes
        obtain ⟨a, ha⟩ := (rewriteAppend_ok x.atReload hround happend hfile).2 ⟨hwrites, text, htext, rfl⟩
        exact ⟨_, (appendManager_ok hip).2
          ⟨hwatch, entries, hload, .inr ⟨fun hmem => hlisted ((mem_entries_iff hload).1 hmem), a, ha⟩⟩⟩
    rw [hrun]
    exact listed_of_ok hround hip hfile hrun

end Listed

/-- Surroundings in which everything works. -/
def willing : WhitelistAnswers := ⟨.sound, noNames, noNames, .ok (), .ok ()⟩

/-- A host whose whitelist has one address. -/
def oneAddress : HostFiles := fun p =>
  if p = whitelistPath then some (.text (addressesText ["10.0.0.1"])) else none

theorem oneAddress_config : loadConfig addressesYaml oneAddress whitelistPath = .ok ["10.0.0.1"] := by decide +kernel

theorem oneAddress_wellFormed : WellFormed addressesYaml oneAddress whitelistPath := by
  refine ⟨_, oneAddress_config, fun line hline => ?_⟩
  rw [List.mem_singleton.1 hline]
  have happend : Appendable "10.0.0.1" (.ip (.ofOctets 10 0 0 1)) := ⟨by decide, by decide⟩
  exact happend.wellFormed

/-- Another address is appended to it. -/
theorem manager_listed_beside : ManagerListed addressesYaml oneAddress whitelistPath "10.0.0.5" (.ofOctets 10 0 0 5)
    ((appendManagerToWhitelist addressesYaml willing "10.0.0.5" whitelistPath).run willing.env oneAddress).2
    ((appendManagerToWhitelist addressesYaml willing "10.0.0.5" whitelistPath).run willing.env oneAddress).1 := by
  have hlines : fileLines addressesYaml oneAddress whitelistPath = ["10.0.0.1"] := by
    rw [fileLines, oneAddress_config]
  refine (manager_listed_iff addressesYaml_roundTrip (by decide) (.inr oneAddress_wellFormed) willing).2
    ⟨oneAddress_wellFormed.there, rfl, fun _ => ⟨⟨rfl, rfl, fun _ _ _ => rfl⟩, by decide, rfl, ?_⟩⟩
  rw [hlines]
  exact ⟨addressesText ["10.0.0.1", "10.0.0.5"], by decide +kernel, ⟨rfl, rfl, rfl⟩⟩

/-- On a host without a whitelist the call fails, although everything works. -/
theorem missing_whitelist_fails : ∃ (y : WhitelistYaml) (x : WhitelistAnswers) (managerIp : String) (ip : Ipv4Addr),
    y.RoundTrip ∧ NothingFails x.env ∧ x.watch = .ok () ∧ x.locked = .ok () ∧
      Ipv4Addr.parse (Text.trim managerIp) = some ip ∧
      ¬ ManagerListed y (fun _ => none) whitelistPath managerIp ip
        ((appendManagerToWhitelist y x managerIp whitelistPath).run x.env fun _ => none).2
        ((appendManagerToWhitelist y x managerIp whitelistPath).run x.env fun _ => none).1 := by
  refine ⟨addressesYaml, willing, "10.0.0.5", .ofOctets 10 0 0 5, addressesYaml_roundTrip, fun _ => rfl, rfl, rfl,
    by decide, fun h => ?_⟩
  have hip : Ipv4Addr.parse (Text.trim "10.0.0.5") = some (.ofOctets 10 0 0 5) := by decide
  have hrun : (appendManagerToWhitelist addressesYaml willing "10.0.0.5" whitelistPath).run willing.env
      (fun _ => none) = (.ok (), _) := Prod.ext h.ok rfl
  obtain ⟨_, entries, hload, _⟩ := (appendManager_ok hip).1 hrun
  exact loadEntries_there hload rfl

end LinuxPatchApi.Enroll
