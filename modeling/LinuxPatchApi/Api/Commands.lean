/-
What requests make the agent run and remove: which command lines can hold request text that a tool
takes for an option, and on which grounds lock files are removed.
-/
import LinuxPatchApi.Api.Requests
import LinuxPatchApi.Packages.Guarded

namespace LinuxPatchApi.Api

open Interaction LinuxPatchApi.Packages

/-! ## All programs of a request -/

section

variable {A : List Arg → Prop} {T : String → Prop} {b : PackageManagerBackend}

theorem guarded_discard {α : Type} {op : Op α} (h : Guarded A op) : Guarded A (discard op) := h.bind fun _ => .pure ()

theorem guarded_withContext {text : String} {op : Op Unit} (h : Guarded A op) : Guarded A (withContext text op) := by
  refine h.attempt.bind fun r => ?_
  cases r with
  | ok _ => exact .pure ()
  | error e => exact .throw _

theorem guarded_mutation (hb : BackendGuarded A T b) (hv : ∀ s, beginsAlphanumeric s = true → T s) {req : Request}
    {c : MutationClosure} (hc : c ∈ req.mutations) : Guarded A (c.op b) := by
  cases req with
  | installPackages packages options =>
    simp only [Request.mutations] at hc
    split at hc
    · cases hc
    next hok =>
      cases List.mem_singleton.1 hc
      exact hb.installPackages options fun pkg hp => hv _ (validatePackageNames_ok hok pkg hp)
  | updatePackage name =>
    simp only [Request.mutations] at hc
    split at hc
    · cases hc
    next hok =>
      have hn : T name := hv name (validateText_ok hok).1
      split at hc
      · cases List.mem_singleton.1 hc
        exact hb.refreshPackageCache.attempt.bind fun _ => hb.updatePackage hn
      · cases List.mem_singleton.1 hc
        exact hb.updatePackage hn
  | removePackage name =>
    simp only [Request.mutations] at hc
    split at hc
    · cases hc
    next hok =>
      cases List.mem_singleton.1 hc
      exact hb.removePackage false (hv name (validateText_ok hok).1)
  | applyPatches packages allowReboot rebootDelaySeconds =>
    simp only [Request.mutations] at hc
    split at hc
    · cases hc
    next hok =>
      cases List.mem_singleton.1 hc
      have happly : Guarded A (b.applyPatches packages) :=
        hb.applyPatches fun n hn => hv n (validateNames_ok hok n hn)
      refine (guarded_withContext hb.refreshPackageCache).bind fun _ => happly.attempt.bind fun r => ?_
      cases r with
      | ok _ => exact .pure ()
      | error e =>
        simp only
        split
        · exact (guarded_withContext hb.refreshPackageCache).bind fun _ => guarded_withContext happly
        · exact .throw e
  | listPatches stale | healthCheck stale =>
    simp only [Request.mutations] at hc
    split at hc
    · cases List.mem_singleton.1 hc
      exact hb.refreshPackageCache
    · cases hc
  | listPackages | getPackage | getServiceStatus | getSystemInfo | rebootSystem | rollbackJob | deleteJob => cases hc

theorem guarded_query (hb : BackendGuarded A T b) (hv : ∀ s, beginsAlphanumeric s = true → T s) {req : Request}
    (hf : ∀ f, req = .listPackages (some f) → T f) {p : Op Unit} (hp : p ∈ req.queries b) : Guarded A p := by
  cases req with
  | listPackages name =>
    cases List.mem_singleton.1 hp
    exact guarded_discard (hb.listPackages fun f h => hf f (by rw [h]))
  | getPackage name =>
    simp only [Request.queries] at hp
    split at hp
    · cases hp
    next hok =>
      cases List.mem_singleton.1 hp
      exact guarded_discard (hb.getPackage (hv name (validateText_ok hok).1))
  | listPatches stale =>
    cases List.mem_singleton.1 hp
    exact guarded_discard hb.listPatches
  | applyPatches packages allowReboot rebootDelaySeconds =>
    simp only [Request.queries] at hp
    split at hp
    · cases hp
    split at hp
    · simp only [List.mem_cons, List.not_mem_nil, or_false] at hp
      rcases hp with rfl | rfl
      · exact guarded_discard hb.getSystemInfo
      · exact hb.rebootSystem _
    · cases hp
  | getServiceStatus name =>
    simp only [Request.queries] at hp
    split at hp
    · cases hp
    · cases List.mem_singleton.1 hp
      exact guarded_discard (hb.getServiceStatus fun hok => hv name (validateText_ok hok).1)
  | getSystemInfo =>
    simp only [Request.queries, List.mem_cons, List.not_mem_nil, or_false] at hp
    rcases hp with rfl | rfl
    · exact guarded_discard hb.getSystemInfo
    · exact guarded_discard hb.packageDatabaseClean
  | rebootSystem delaySeconds force ackCorruptionRisk =>
    cases List.mem_singleton.1 hp
    exact hb.rebootSystem _
  | installPackages | updatePackage | removePackage | healthCheck | rollbackJob | deleteJob => cases hp

/-- Everything that a request makes the backend do is guarded. -/
theorem guarded_program (hb : BackendGuarded A T b) (hv : ∀ s, beginsAlphanumeric s = true → T s) {req : Request}
    (hf : ∀ f, req = .listPackages (some f) → T f) : ∀ p ∈ req.programs b, Guarded A p := by
  intro p hp
  rcases List.mem_append.1 hp with hp | hp
  · exact guarded_query hb hv hf hp
  · obtain ⟨c, hc, rfl⟩ := List.mem_map.1 hp
    exact guarded_mutation hb hv hc

end

/-! ## Options in request text -/

/-- Every request text of a command line begins with an ASCII letter or digit or comes after a `--`. -/
def argsSafe : List Arg → Bool
  | [] => true
  | .own s :: args => s == "--" || argsSafe args
  | .request s :: args => beginsAlphanumeric s && argsSafe args

example : argsSafe ["install", "-y", "--", .request "-x"] = true := by decide
example : argsSafe ["list", .request "-x"] = false := by decide

theorem argsSafe_permits : Permits (fun args => argsSafe args = true) (fun s => beginsAlphanumeric s = true) := by
  intro args h
  induction args with
  | nil => rfl
  | cons a args ih =>
    have htail : argsSafe args = true := ih fun s hs => h s (List.mem_cons_of_mem a hs)
    cases a with
    | own s => rw [argsSafe, htail, Bool.or_true]
    | request s => rw [argsSafe, htail, h s List.mem_cons_self, Bool.and_true]

theorem beginsAlphanumeric_append {s : String} (rest : String) (h : beginsAlphanumeric s = true) :
    beginsAlphanumeric (s ++ rest) = true := by
  unfold beginsAlphanumeric at h ⊢
  rw [String.toList_append]
  cases hs : s.toList with
  | nil => rw [hs] at h; cases h
  | cons c cs => rw [hs] at h; exact h

/-- Every command line that serving the request makes the backend run is safe, for all answers of the
host. -/
def InjectionFree (kind : BackendKind) (req : Request) : Prop :=
  ∀ p ∈ req.programs kind.backend, ∀ t r, Runs p.run t r →
    ∀ program args timeout result, (⟨.run program args timeout, result⟩ : Event Response) ∈ t → argsSafe args = true

/-- The command line of a package list with a filter ends with the filter. -/
theorem listPackages_command (kind : BackendKind) (f : String) : ∃ program own timeout result,
    (⟨.run program (own ++ [.request f]) timeout, result⟩ : Event Response) ∈
      (exec Host.empty.answer (discard (kind.backend.listPackages (some f))).run).1 ∧
    argsSafe (own ++ [.request f]) = beginsAlphanumeric f := by
  cases kind with
  | apt => exact ⟨"apt", ["list"], some quickOpTimeout, _, List.mem_singleton.2 rfl, by simp [argsSafe]⟩
  | dnf => exact ⟨"rpm", ["-qa"], some quickOpTimeout, _, List.mem_singleton.2 rfl, by simp [argsSafe]⟩
  | yum => exact ⟨"rpm", ["-qa"], some quickOpTimeout, _, List.mem_singleton.2 rfl, by simp [argsSafe]⟩
  | apk => exact ⟨"apk", ["list", "--installed"], some packageOpTimeout, _,
    List.mem_singleton.2 rfl, by simp [argsSafe]⟩
  | pacman => exact ⟨"pacman", ["-Q"], some packageOpTimeout, _, List.mem_cons_of_mem _ (List.mem_singleton.2 rfl),
      by simp [argsSafe]⟩

/-- A request is free of option injection on every backend exactly when it is not a package list whose
filter begins with something else than an ASCII letter or digit. -/
theorem injection_free_iff (kind : BackendKind) (req : Request) :
    InjectionFree kind req ↔ ∀ f, req = .listPackages (some f) → beginsAlphanumeric f = true := by
  constructor
  · rintro h f rfl
    obtain ⟨program, own, timeout, result, hmem, hsafe⟩ := listPackages_command kind f
    rw [← hsafe]
    exact h _ (List.mem_append_left _ List.mem_cons_self) _ _ (runs_exec Host.empty.answer _)
      program _ timeout result hmem
  · intro hf p hp t r ht program args timeout result hmem
    have hguard := guarded_program (BackendKind.guarded argsSafe_permits (fun _ rest h =>
      beginsAlphanumeric_append rest h)
      kind) (fun _ h => h) hf p hp
    obtain ⟨pre, post, rfl⟩ := List.append_of_mem hmem
    exact hguard.at_event ht rfl

/-- `GET /api/v1/packages?name=--pipe=id` on an RPM system: `rpm` runs a command of the client. -/
theorem listPackages_rpm_pipe : ¬ InjectionFree .dnf (.listPackages (some "--pipe=id")) := by
  intro h
  have hmem : (⟨.run "rpm" ["-qa", .request "--pipe=id"] (some quickOpTimeout), .ok ⟨some 0, "", "", false⟩⟩ :
      Event Response) ∈ (exec Host.empty.answer (discard (DnfBackend.backend.listPackages (some "--pipe=id"))).run).1 :=
    List.mem_singleton.2 rfl
  have hsafe := h _ (List.mem_append_left _ List.mem_cons_self) _ _ (runs_exec Host.empty.answer _) _ _ _ _ hmem
  exact absurd hsafe (by decide)

/-! ## Lock files -/

/-- Whatever the host answers, the operation removes lock files only on the grounds of
`JustifiedRemoval`. -/
def RemovesStaleLocks {α : Type} (op : Op α) : Prop :=
  ∀ t r, Runs op.run t r → ∀ pre path ok post, t = pre ++ (⟨.removeFile path, ok⟩ : Event Response) :: post →
    JustifiedRemoval pre path

theorem removesStaleLocks_of_guarded {α : Type} {op : Op α} (h : Guarded (fun _ => True) op) :
    RemovesStaleLocks op := by
  intro t r ht pre path ok post he
  exact h.at_event ht he

/-- The clean-up of apt's locks, the pacman helper, and all that a request makes a backend do remove
lock files only on the grounds of `JustifiedRemoval`. -/
theorem removals_justified :
    RemovesStaleLocks AptBackend.cleanupStaleAptLocks ∧
    (∀ args acceptable, RemovesStaleLocks (PacmanBackend.runPacmanWithAcceptableExit args acceptable)) ∧
    ∀ (kind : BackendKind) (req : Request), ∀ p ∈ req.programs kind.backend, RemovesStaleLocks p := by
  refine ⟨removesStaleLocks_of_guarded guarded_cleanupStaleAptLocks, fun args acceptable => ?_, fun kind req p hp => ?_⟩
  · exact removesStaleLocks_of_guarded (guarded_runPacmanWithAcceptableExit trivial)
  · have hb : BackendGuarded (fun _ => True) (fun _ => True) kind.backend :=
      BackendKind.guarded (fun _ _ => trivial) (fun _ _ _ => trivial) kind
    exact removesStaleLocks_of_guarded (guarded_program hb (fun _ _ => trivial) (fun _ _ => trivial) p hp)

theorem removals_justified_pacmanList :
    RemovesStaleLocks (discard (BackendKind.pacman.backend.listPackages none)) :=
  removals_justified.2.2 .pacman (.listPackages none) _ (List.mem_append_left _ List.mem_cons_self)

/-- On a host that stays as it is, the operation removes no lock file whose holder is alive. -/
def KeepsLiveLocks {α : Type} (op : Op α) : Prop :=
  ∀ (h : Host) (l : LockFile), l ∈ h.locks → h.alive l.holder = true →
    (exec h.answer op.run).1.any (fun e => e.1.removes l.path) = false

/-- A Python front end holds apt's lock, and the pacman of a mutation holds the database lock. -/
def busyHost : Host where
  locks := [⟨"/var/lib/dpkg/lock-frontend", "812", 812⟩, ⟨PacmanBackend.lockPath, "", 900⟩]
  processes := [(812, "/usr/bin/python3\x00/usr/bin/unattended-upgrade"),
    (900, "pacman\x00-S\x00--noconfirm\x00--\x00vim")]

/-- Both locks are removed while their holders are alive, the second one by a package list. -/
theorem live_locks_removed :
    ¬ KeepsLiveLocks AptBackend.cleanupStaleAptLocks ∧ ¬ KeepsLiveLocks (PacmanBackend.backend.listPackages none) := by
  constructor
  · intro h
    have hkept := h busyHost ⟨"/var/lib/dpkg/lock-frontend", "812", 812⟩ (by simp [busyHost]) (by decide)
    exact absurd hkept (by decide +kernel)
  · intro h
    have hkept := h busyHost ⟨PacmanBackend.lockPath, "", 900⟩ (by simp [busyHost]) (by decide)
    exact absurd hkept (by decide +kernel)

end LinuxPatchApi.Api
