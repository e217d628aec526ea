/-
The address that a host reports: that of the first of four sources that has one, whatever its place in the list of
interfaces.
-/
import LinuxPatchApi.Enroll.Identity
import Mathlib.Data.List.Destutter

namespace LinuxPatchApi.Enroll

open LinuxPatchApi.Packages Text Interaction

/-! ## Sources -/

/-- An address that is reported without having been asked for. -/
structure Routable (ip : Ipv4Addr) : Prop where
  notLoopback : ip.isLoopback = false
  notBridge : ip.isContainerBridge = false
  notLinkLocal : ip.isLinkLocal = false

/-- The configured address: of a bridge or a link too. -/
def Configures (reportIp : Option String) (ip : Ipv4Addr) : Prop := reportIp = some ip.text ∧ ip.isLoopback = false

/-- An address of the interface. -/
def OnInterface (name : String) (i : Interface) (ip : Ipv4Addr) : Prop :=
  i.name = name ∧ i.ip = .v4 ip ∧ ip.isLoopback = false

/-- The first of its addresses in the list. -/
def FirstOn (name : String) (ifaces : List Interface) (ip : Ipv4Addr) : Prop :=
  ∃ pre i post, ifaces = pre ++ i :: post ∧ OnInterface name i ip ∧ ∀ j ∈ pre, ∀ other, ¬ OnInterface name j other

/-- The source address in the answer of the routing table. -/
def RoutedFrom (stdout : String) (ip : Ipv4Addr) : Prop :=
  ∃ pre post, splitWhitespace stdout = pre ++ "src" :: ip.text :: post ∧ "src" ∉ pre ∧ Routable ip

/-- The least address of the host in the order of the texts. -/
def Detected (ifaces : List Interface) (ip : Ipv4Addr) : Prop :=
  IsLeast {s | ∃ i ∈ ifaces, ∃ other, i.ip = .v4 other ∧ Routable other ∧ s = Ipv4Addr.text other} ip.text

theorem configuredIp_eq_some {reportIp : Option String} {s : String} :
    configuredIp reportIp = some s ↔ ∃ ip, s = ip.text ∧ Configures reportIp ip := by
  unfold configuredIp Configures
  rw [Option.filter_eq_some_iff, Option.any_eq_true]
  constructor
  · rintro ⟨rfl, ip, hparse, hloop⟩
    obtain rfl := Ipv4Addr.parse_iff.1 hparse
    exact ⟨ip, rfl, rfl, by simpa using hloop⟩
  · rintro ⟨ip, rfl, rfl, hloop⟩
    exact ⟨rfl, ip, Ipv4Addr.parse_text ip, by simp [hloop]⟩

theorem addressOn_eq_some {name s : String} {i : Interface} :
    addressOn name i = some s ↔ ∃ ip, s = ip.text ∧ OnInterface name i ip := by
  unfold addressOn OnInterface Interface.isLoopback
  by_cases hname : i.name = name
  · cases hip : i.ip with
    | v4 ip =>
      cases hloop : ip.isLoopback with
      | true => simp [hname, IpAddr.isLoopback, hloop]
      | false =>
        simp only [hname, IpAddr.isLoopback, hloop, bne_self_eq_false, Bool.false_eq_true, if_false, true_and,
          Option.some.injEq, IpAddr.v4.injEq]
        constructor
        · rintro rfl
          exact ⟨ip, rfl, rfl, hloop⟩
        · rintro ⟨_, rfl, rfl, _⟩
          rfl
    | v6 bits => simp [hname]
  · simp [hname]

theorem findSome_addressOn {name s : String} {ifaces : List Interface} :
    ifaces.findSome? (addressOn name) = some s ↔ ∃ ip, s = ip.text ∧ FirstOn name ifaces ip := by
  unfold FirstOn
  rw [List.findSome?_eq_some_iff]
  have hnone : ∀ j, addressOn name j = none ↔ ∀ other, ¬ OnInterface name j other := fun j => by
    rw [Option.eq_none_iff_forall_ne_some]
    constructor
    · intro h other hon
      exact h _ (addressOn_eq_some.2 ⟨other, rfl, hon⟩)
    · intro h s hs
      obtain ⟨other, _, hon⟩ := addressOn_eq_some.1 hs
      exact h other hon
  constructor
  · rintro ⟨pre, i, post, hsplit, hsome, hpre⟩
    obtain ⟨ip, rfl, hon⟩ := addressOn_eq_some.1 hsome
    exact ⟨ip, rfl, pre, i, post, hsplit, hon, fun j hj => (hnone j).1 (hpre j hj)⟩
  · rintro ⟨ip, rfl, pre, i, post, hsplit, hon, hpre⟩
    exact ⟨pre, i, post, hsplit, addressOn_eq_some.2 ⟨ip, rfl, hon⟩, fun j hj => (hnone j).2 (hpre j hj)⟩

theorem sourceWord_eq_some {words : List String} {s : String} :
    sourceWord words = some s ↔ ∃ pre post, words = pre ++ "src" :: s :: post ∧ "src" ∉ pre := by
  unfold sourceWord
  induction words with
  | nil => simp
  | cons w words ih =>
    by_cases hw : w = "src"
    · subst hw
      rw [List.dropWhile_cons_of_neg (by simp)]
      constructor
      · intro h
        obtain ⟨post, rfl⟩ : ∃ post, words = s :: post := by cases words <;> simp_all
        exact ⟨[], post, rfl, by simp⟩
      · rintro ⟨pre, post, hsplit, hpre⟩
        cases pre with
        | nil =>
          obtain rfl := (List.cons.inj hsplit).2
          rfl
        | cons v pre => exact absurd (by simp [(List.cons.inj hsplit).1]) hpre
    · rw [List.dropWhile_cons_of_pos (by simpa using hw), ih]
      constructor
      · rintro ⟨pre, post, rfl, hpre⟩
        exact ⟨w :: pre, post, rfl, by simp [hpre, Ne.symm hw]⟩
      · rintro ⟨pre, post, hsplit, hpre⟩
        cases pre with
        | nil => exact absurd (List.cons.inj hsplit).1 hw
        | cons v pre => exact ⟨pre, post, (List.cons.inj hsplit).2, fun h => hpre (List.mem_cons_of_mem v h)⟩

theorem routeSource_eq_some {stdout s : String} :
    routeSource stdout = some s ↔ ∃ ip, s = ip.text ∧ RoutedFrom stdout ip := by
  unfold routeSource RoutedFrom
  rw [Option.filter_eq_some_iff, sourceWord_eq_some, Option.any_eq_true]
  constructor
  · rintro ⟨⟨pre, post, hwords, hpre⟩, ip, hparse, hroutable⟩
    obtain rfl := Ipv4Addr.parse_iff.1 hparse
    simp only [Bool.and_eq_true, Bool.not_eq_true'] at hroutable
    exact ⟨ip, rfl, pre, post, hwords, hpre, hroutable.1.1, hroutable.1.2, hroutable.2⟩
  · rintro ⟨ip, rfl, pre, post, hwords, hpre, h⟩
    exact ⟨⟨pre, post, hwords, hpre⟩, ip, Ipv4Addr.parse_text ip,
      by simp [h.notLoopback, h.notBridge, h.notLinkLocal]⟩

theorem reportable_eq_some {i : Interface} {s : String} :
    reportable i = some s ↔ ∃ ip, s = ip.text ∧ i.ip = .v4 ip ∧ Routable ip := by
  unfold reportable Interface.isLoopback
  cases hip : i.ip with
  | v6 bits => simp
  | v4 ip =>
    constructor
    · intro h
      cases hloop : ip.isLoopback <;> cases hbridge : ip.isContainerBridge <;> cases hlink : ip.isLinkLocal <;>
        simp [IpAddr.isLoopback, hloop, hbridge, hlink] at h
      exact ⟨ip, h.symm, rfl, hloop, hbridge, hlink⟩
    · rintro ⟨other, rfl, hother, h⟩
      obtain rfl := IpAddr.v4.inj hother
      simp [IpAddr.isLoopback, h.notLoopback, h.notBridge, h.notLinkLocal]

/-- The first in order is the least. -/
theorem head?_insertionSort {α : Type} [LinearOrder α] {l : List α} {a : α} :
    (l.insertionSort (· ≤ ·)).head? = some a ↔ IsLeast {b | b ∈ l} a := by
  have hmem : ∀ b, b ∈ l.insertionSort (· ≤ ·) ↔ b ∈ l := fun b => List.mem_insertionSort (· ≤ ·)
  have hsorted := List.pairwise_insertionSort (· ≤ ·) l
  constructor
  · intro h
    obtain ⟨rest, hrest⟩ := List.head?_eq_some_iff.1 h
    rw [hrest] at hmem hsorted
    refine ⟨(hmem a).1 List.mem_cons_self, fun b hb => ?_⟩
    rcases List.mem_cons.1 ((hmem b).2 hb) with rfl | hb
    · exact le_rfl
    · exact (List.pairwise_cons.1 hsorted).1 b hb
  · rintro ⟨ha, hleast⟩
    cases hs : l.insertionSort (· ≤ ·) with
    | nil => exact absurd ((hmem a).2 ha) (by simp [hs])
    | cons b rest =>
      rw [hs] at hmem hsorted
      have hba : b ≤ a := by
        rcases List.mem_cons.1 ((hmem a).2 ha) with rfl | ha
        · exact le_rfl
        · exact (List.pairwise_cons.1 hsorted).1 a ha
      rw [List.head?_cons, le_antisymm hba (hleast ((hmem b).1 List.mem_cons_self))]

theorem head?_destutter {α : Type} {r : α → α → Prop} [DecidableRel r] (l : List α) :
    (l.destutter r).head? = l.head? := by
  have hgo : ∀ (l : List α) (a : α), (l.destutter' r a).head? = some a := by
    intro l
    induction l with
    | nil => exact fun a => rfl
    | cons b l ih =>
      intro a
      rw [List.destutter'_cons]
      split
      · rfl
      · exact ih a
  cases l with
  | nil => rfl
  | cons a l => rw [List.destutter_cons', hgo, List.head?_cons]

theorem head_detected {ifaces : List Interface} {s : String} :
    (sortDedup (ifaces.filterMap reportable)).head? = some s ↔ ∃ ip, s = ip.text ∧ Detected ifaces ip := by
  have hset : {t | t ∈ ifaces.filterMap reportable} =
      {t | ∃ i ∈ ifaces, ∃ ip, i.ip = .v4 ip ∧ Routable ip ∧ t = Ipv4Addr.text ip} := by
    ext t
    simp only [Set.mem_ofPred_eq, List.mem_filterMap, reportable_eq_some]
    constructor
    · rintro ⟨i, hi, ip, ht, hip, h⟩
      exact ⟨i, hi, ip, hip, h, ht⟩
    · rintro ⟨i, hi, ip, hip, h, ht⟩
      exact ⟨i, hi, ip, ht, hip, h⟩
  rw [sortDedup, head?_destutter, head?_insertionSort, hset]
  constructor
  · intro h
    obtain ⟨_, _, ip, _, _, rfl⟩ := h.1
    exact ⟨ip, rfl, h⟩
  · rintro ⟨ip, rfl, h⟩
    exact h

/-- The first of several sources that offers anything offers `a`. -/
def FirstOffer {α : Type} : List (α → Prop) → α → Prop
  | [], _ => False
  | source :: sources, a => source a ∨ (∀ b, ¬ source b) ∧ FirstOffer sources a

/-- A last source is asked when none before it offers anything. -/
theorem firstOffer_concat {α : Type} {sources : List (α → Prop)} {last : α → Prop} {a : α} :
    FirstOffer (sources ++ [last]) a ↔ FirstOffer sources a ∨ (∀ b, ¬ FirstOffer sources b) ∧ last a := by
  induction sources generalizing a with
  | nil => simp [FirstOffer]
  | cons source sources ih =>
    simp only [List.cons_append, FirstOffer, ih]
    constructor
    · rintro (h | ⟨hnone, h | ⟨hrest, h⟩⟩)
      · exact .inl (.inl h)
      · exact .inl (.inr ⟨hnone, h⟩)
      · exact .inr ⟨fun b hb => hb.elim (hnone b) fun hb => hrest b hb.2, h⟩
    · rintro ((h | ⟨hnone, h⟩) | ⟨hrest, h⟩)
      · exact .inl h
      · exact .inr ⟨hnone, .inl h⟩
      · have hnone : ∀ b, ¬ source b := fun b hb => hrest b (.inl hb)
        exact .inr ⟨hnone, .inr ⟨fun b hb => hrest b (.inr ⟨hnone, hb⟩), h⟩⟩

section Fixed

variable (o : (q : HostQuery) → q.Answer)

/-- The interface that is configured has the address. -/
def Specified (reportInterface : Option String) (ip : Ipv4Addr) : Prop :=
  ∃ name ifaces, reportInterface = some name ∧ o .getIfAddrs = .ok ifaces ∧ FirstOn name ifaces ip

/-- The manager is reached from the address. -/
def Routes (routeTarget : Option String) (ip : Ipv4Addr) : Prop :=
  ∃ target out, routeTarget = some target ∧ o (.output "ip" ["route", "get", target]) = .ok out ∧ out.success = true ∧
    RoutedFrom (fromUtf8Lossy out.stdout) ip

def Listed (ip : Ipv4Addr) : Prop := ∃ ifaces, o .getIfAddrs = .ok ifaces ∧ Detected ifaces ip

/-- A way gives the text of the address that a source offers, and nothing if it offers none. -/
def Gives (way : HostOp (Option String)) (source : Ipv4Addr → Prop) : Prop :=
  ∃ r, outcome o way.run = .ok r ∧ ∀ s, r = some s ↔ ∃ ip, s = ip.text ∧ source ip

variable {o}

theorem Gives.firstOf {ways : List (HostOp (Option String))} {sources : List (Ipv4Addr → Prop)}
    (h : List.Forall₂ (Gives o) ways sources) : Gives o (firstOf ways) (FirstOffer sources) := by
  induction h with
  | nil => exact ⟨none, rfl, by simp [FirstOffer]⟩
  | @cons way source ways sources hway _ ih =>
    obtain ⟨r, hr, hsource⟩ := hway
    unfold Enroll.firstOf
    cases r with
    | some s =>
      refine ⟨some s, by rw [outcome_bindE o hr]; rfl, fun s' => ?_⟩
      obtain ⟨ip, rfl, hip⟩ := (hsource s).1 rfl
      constructor
      · rintro h
        obtain ⟨ip', hs', hip'⟩ := (hsource s').1 h
        exact ⟨ip', hs', .inl hip'⟩
      · rintro ⟨ip', rfl, hip' | ⟨hnone, _⟩⟩
        · exact (hsource _).2 ⟨ip', rfl, hip'⟩
        · exact absurd hip (hnone ip)
    | none =>
      obtain ⟨r, hr', hrest⟩ := ih
      have hnone : ∀ ip, ¬ source ip := fun ip hip => by simpa using (hsource ip.text).2 ⟨ip, rfl, hip⟩
      refine ⟨r, by rw [outcome_bindE o hr]; exact hr', fun s => ?_⟩
      rw [hrest]
      simp [FirstOffer, hnone]

theorem Gives.configured (reportIp : Option String) : Gives o (pure (configuredIp reportIp)) (Configures reportIp) :=
  ⟨configuredIp reportIp, rfl, fun _ => configuredIp_eq_some⟩

theorem Gives.lookup {op : HostOp String} {source : Ipv4Addr → Prop}
    (h : ∀ s, outcome o op.run = .ok s ↔ ∃ ip, s = ip.text ∧ source ip) : Gives o (tryLookup (some op)) source := by
  refine ⟨(outcome o op.run).toOption, ?_, fun s => ?_⟩
  · unfold tryLookup
    rw [outcome_bindE o (outcome_attempt o op)]
    rfl
  · rw [← h]
    cases outcome o op.run <;> simp [Except.toOption]

theorem orFail_ok {α : Type} {found : Option α} {e : AnyhowError} {a : α} :
    outcome o (orFail found e).run = .ok a ↔ found = some a := by
  cases found with
  | none => exact iff_of_false (fun h => nomatch h) (fun h => nomatch h)
  | some b => exact ⟨fun h => congrArg some (Except.ok.inj h), fun h => congrArg Except.ok (Option.some.inj h)⟩

theorem getIpForInterface_ok {name s : String} : outcome o (getIpForInterface name).run = .ok s ↔
    ∃ ip, s = ip.text ∧ Specified o (some name) ip := by
  have hcall : outcome o getIfAddrs.run = .ok (o .getIfAddrs) := outcome_performE o _
  unfold getIpForInterface
  rw [outcome_bindE o hcall]
  cases ho : o .getIfAddrs with
  | error e =>
    refine iff_of_false (fun h => nomatch h) ?_
    rintro ⟨ip, -, name', ifaces, -, hok, -⟩
    rw [ho] at hok
    cases hok
  | ok ifaces =>
    refine orFail_ok.trans ?_
    rw [findSome_addressOn]
    simp [Specified, ho]

theorem getRouteSourceIp_ok {target s : String} : outcome o (getRouteSourceIp target).run = .ok s ↔
    ∃ ip, s = ip.text ∧ Routes o (some target) ip := by
  have hcall : outcome o (commandOutput "ip" ["route", "get", target]).run =
      .ok (o (.output "ip" ["route", "get", target])) := outcome_performE o _
  unfold getRouteSourceIp
  rw [outcome_bindE o hcall]
  cases ho : o (.output "ip" ["route", "get", target]) with
  | error e =>
    refine iff_of_false (fun h => nomatch h) ?_
    rintro ⟨ip, -, target', out, ht, hok, -⟩
    obtain rfl := Option.some.inj ht
    rw [ho] at hok
    cases hok
  | ok out =>
    have hroutes : (∃ ip, s = ip.text ∧ Routes o (some target) ip) ↔
        out.success = true ∧ routeSource (fromUtf8Lossy out.stdout) = some s := by
      rw [routeSource_eq_some]
      constructor
      · rintro ⟨ip, rfl, target', out', ht, hok, hsuccess, h⟩
        obtain rfl := Option.some.inj ht
        obtain rfl := Except.ok.inj (ho.symm.trans hok)
        exact ⟨hsuccess, ip, rfl, h⟩
      · rintro ⟨hsuccess, ip, rfl, h⟩
        exact ⟨ip, rfl, target, out, rfl, ho, hsuccess, h⟩
    rw [hroutes]
    dsimp only
    cases hsuccess : out.success with
    | false => exact iff_of_false (fun h => nomatch h) (fun h => nomatch h.1)
    | true => exact orFail_ok.trans ⟨fun h => ⟨rfl, h⟩, fun h => h.2⟩

theorem gives_interface (reportInterface : Option String) :
    Gives o (tryLookup (reportInterface.map getIpForInterface)) (Specified o reportInterface) := by
  cases reportInterface with
  | none => exact ⟨none, rfl, by simp [Specified]⟩
  | some name => exact .lookup fun _ => getIpForInterface_ok

theorem gives_route (routeTarget : Option String) :
    Gives o (tryLookup (routeTarget.map getRouteSourceIp)) (Routes o routeTarget) := by
  cases routeTarget with
  | none => exact ⟨none, rfl, by simp [Routes]⟩
  | some target => exact .lookup fun _ => getRouteSourceIp_ok

theorem detectedIp_ok {s : String} : outcome o detectedIp.run = .ok s ↔ ∃ ip, s = ip.text ∧ Listed o ip := by
  have hcall : outcome o getIfAddrs.run = .ok (o .getIfAddrs) := outcome_performE o _
  unfold detectedIp
  cases ho : o .getIfAddrs with
  | error e =>
    have haddrs : outcome o getIpAddresses.run =
        .error ((anyhow e).context "Failed to enumerate network interfaces") := by
      unfold getIpAddresses
      rw [outcome_bindE o hcall, ho]
      rfl
    rw [outcome_bindE_error o haddrs]
    simp [Listed, ho]
  | ok ifaces =>
    have haddrs : outcome o getIpAddresses.run = .ok (sortDedup (ifaces.filterMap reportable)) := by
      unfold getIpAddresses
      rw [outcome_bindE o hcall, ho]
      rfl
    rw [outcome_bindE o haddrs, orFail_ok, head_detected]
    simp [Listed, ho]

/-- The address is that of the first source that has one: the configured address, the configured interface, the
route to the manager, and the list of interfaces, whose order does not matter. -/
theorem reported_iff {reportInterface reportIp routeTarget : Option String} {s : String} :
    outcome o (getPrimaryIp reportInterface reportIp routeTarget).run = .ok s ↔ ∃ ip, s = ip.text ∧
      FirstOffer [Configures reportIp, Specified o reportInterface, Routes o routeTarget, Listed o] ip := by
  obtain ⟨r, hr, hfirst⟩ := Gives.firstOf (.cons (Gives.configured (o := o) reportIp)
    (.cons (gives_interface reportInterface) (.cons (gives_route routeTarget) .nil)))
  have hsources := @firstOffer_concat _ [Configures reportIp, Specified o reportInterface, Routes o routeTarget] (Listed o)
  simp only [List.cons_append, List.nil_append] at hsources
  simp only [hsources]
  unfold getPrimaryIp
  rw [outcome_bindE o hr]
  cases r with
  | some s' =>
    obtain ⟨ip', -, hip'⟩ := (hfirst s').1 rfl
    constructor
    · intro h
      obtain rfl := Except.ok.inj h
      obtain ⟨ip, hs, hip⟩ := (hfirst s').1 rfl
      exact ⟨ip, hs, .inl hip⟩
    · rintro ⟨ip, rfl, hip | ⟨hnone, _⟩⟩
      · rw [Option.some.inj ((hfirst ip.text).2 ⟨ip, rfl, hip⟩)]
        rfl
      · exact absurd hip' (hnone ip')
  | none =>
    have hnone : ∀ ip, ¬ FirstOffer [Configures reportIp, Specified o reportInterface, Routes o routeTarget] ip :=
      fun ip hip => nomatch (hfirst ip.text).2 ⟨ip, rfl, hip⟩
    refine detectedIp_ok.trans ?_
    simp only [hnone, false_or, not_false_eq_true, implies_true, true_and]

end Fixed

end LinuxPatchApi.Enroll
