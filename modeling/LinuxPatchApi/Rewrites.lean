/-
Files that are written anew through a temporary file, which must be new and is renamed to the path at the end: what is
left when such a write is stopped by an error or a crash at any of its operations, and that the next one works exactly
when no temporary file is left.
-/
import LinuxPatchApi.Files

namespace LinuxPatchApi.FileM

open LinuxPatchApi.Packages Disk

variable {α : Type}

/-- The contexts of the errors. -/
structure RewriteTexts where
  create : String
  write : String
  flush : String
  rename : String

/-- The temporary file is created, written and renamed. -/
def replaceNew (temp path : String) (mode : Nat) (texts : RewriteTexts) (text : String) : FileM Unit := do
  (io (.createNew temp mode (.text ""))).context texts.create
  (io (.writeAll temp (.text text))).context texts.write
  (io (.flush temp)).context texts.flush
  (io (.rename temp path)).context texts.rename

/-- The text is prepared, the file is written anew, and the rest only reads. -/
def rewrite (prepare : FileM String) (temp path : String) (mode : Nat) (texts : RewriteTexts) (rest : FileM α) :
    FileM α := do
  let text ← prepare
  replaceNew temp path mode texts text
  rest

/-! ## Where a write stops -/

/-- Every operation after the creation of the temporary file is carried out. -/
structure Finishes (env : HostSurroundings) (temp path text : String) : Prop where
  written : env.outcome (.writeAll temp (.text text)) = .done
  flushed : env.outcome (.flush temp) = .done
  renamed : env.outcome (.rename temp path) = .done

/-- Surroundings in which no operation fails. -/
def NothingFails (env : HostSurroundings) : Prop := ∀ o, env.outcome o = .done

theorem NothingFails.finishes {env : HostSurroundings} (h : NothingFails env) (temp path text : String) :
    Finishes env temp path text := ⟨h _, h _, h _⟩

section ReplaceNew

variable {env : HostSurroundings} {s t : HostFiles} {temp path text : String} {mode : Nat} {texts : RewriteTexts}
  {r : Except AnyhowError Unit}

/-- The write is refused, stops with a temporary file, or replaces the file. -/
theorem replaceNew_cases (h : (replaceNew temp path mode texts text).run env s = (r, t)) :
    (¬ (s temp = none ∧ env.outcome (.createNew temp mode (.text "")) = .done) ∧ t = s ∧ ∃ e, r = .error e) ∨
    s temp = none ∧ env.outcome (.createNew temp mode (.text "")) = .done ∧
      ((¬ Finishes env temp path text ∧ (∃ c, t = Function.update s temp (some c)) ∧ ∃ e, r = .error e) ∨
        Finishes env temp path text ∧
          t = Function.update (Function.update s temp none) path (some (.text text)) ∧ r = .ok ()) := by
  have hcreate : Action.Succeeds env s (.createNew temp mode (.text "")) ↔
      s temp = none ∧ env.outcome (.createNew temp mode (.text "")) = .done := by
    simp [Action.Succeeds, Op.refusal]
  have hwrite : Op.effect (Op.effect s (.createNew temp mode (.text ""))) (.writeAll temp (.text text)) =
      Function.update s temp (some (.text text)) := Function.update_idem ..
  rcases io_bind_cases h with ⟨hcreated, h⟩ | ⟨hnot, herror, residue, rfl⟩
  swap
  · exact .inl ⟨fun hc => hnot (hcreate.2 hc), rfl, herror⟩
  obtain ⟨hfresh, hdone⟩ := hcreate.1 hcreated
  refine .inr ⟨hfresh, hdone, ?_⟩
  rcases io_bind_cases h with ⟨hwritten, h⟩ | ⟨hnot, herror, residue, rfl⟩
  swap
  · refine .inl ⟨fun hf => hnot ⟨rfl, hf.written⟩, ?_, herror⟩
    cases residue with
    | none => exact ⟨_, rfl⟩
    | some c => exact ⟨c, Function.update_idem ..⟩
  rw [hwrite] at h
  rcases io_bind_cases h with ⟨hflushed, h⟩ | ⟨hnot, herror, residue, rfl⟩
  swap
  · exact .inl ⟨fun hf => hnot ⟨rfl, hf.flushed⟩, ⟨_, rfl⟩, herror⟩
  rcases io_context_cases h with ⟨hrenamed, hr, rfl⟩ | ⟨hnot, herror, residue, rfl⟩
  · refine .inr ⟨⟨hwritten.2, hflushed.2, hrenamed.2⟩, ?_, hr⟩
    simp [Op.effect]
  · refine .inl ⟨fun hf => hnot ⟨?_, hf.renamed⟩, ⟨_, rfl⟩, herror⟩
    simp [Op.refusal, Op.effect]

theorem replaceNew_ok : (replaceNew temp path mode texts text).run env s = (.ok (), t) ↔
    s temp = none ∧ env.outcome (.createNew temp mode (.text "")) = .done ∧ Finishes env temp path text ∧
      t = Function.update (Function.update s temp none) path (some (.text text)) := by
  rcases hrun : (replaceNew temp path mode texts text).run env s with ⟨r, t'⟩
  rcases replaceNew_cases hrun with
    ⟨hnot, rfl, e, rfl⟩ | ⟨hfresh, hdone, ⟨hnot, _, e, rfl⟩ | ⟨hfinishes, rfl, rfl⟩⟩
  · refine iff_of_false (fun h => by cases h) fun h => hnot ⟨h.1, h.2.1⟩
  · refine iff_of_false (fun h => by cases h) fun h => hnot h.2.2.1
  · constructor
    · intro h
      cases h
      exact ⟨hfresh, hdone, hfinishes, rfl⟩
    · rintro ⟨_, _, _, rfl⟩
      rfl

end ReplaceNew

/-! ## Rewrites that can be repeated -/

section Rewrite

variable {env : HostSurroundings} {s t : HostFiles} {prepare : FileM String} {temp path : String} {mode : Nat}
  {texts : RewriteTexts} {rest : FileM α} {r : Except AnyhowError α} {a : α}

/-- There is no temporary file before the rewrite, and if it creates one then it renames it. -/
def Uncut (env : HostSurroundings) (s : HostFiles) (prepare : FileM String) (temp path : String) (mode : Nat) : Prop :=
  s temp = none ∧ ∀ text u, prepare.run env s = (.ok text, u) →
    env.outcome (.createNew temp mode (.text "")) = .done → Finishes env temp path text ∧ path ≠ temp

/-- The preparation changes other files only, and the rest changes none. -/
structure Aside (prepare : FileM String) (temp path : String) (rest : FileM α) : Prop where
  prepare : Action.Confined (fun p => p ≠ temp ∧ p ≠ path) prepare
  rest : Action.Confined (fun _ => False) rest

theorem rewrite_ok : (rewrite prepare temp path mode texts rest).run env s = (.ok a, t) ↔
    ∃ text u, prepare.run env s = (.ok text, u) ∧ u temp = none ∧
      env.outcome (.createNew temp mode (.text "")) = .done ∧ Finishes env temp path text ∧
      rest.run env (Function.update (Function.update u temp none) path (some (.text text))) = (.ok a, t) := by
  rw [rewrite, Action.bind_ok]
  refine exists_congr fun text => exists_congr fun u => and_congr_right fun _ => ?_
  rw [Action.bind_ok]
  constructor
  · rintro ⟨_, v, hreplace, hrest⟩
    obtain ⟨hfresh, hdone, hfinishes, rfl⟩ := replaceNew_ok.1 hreplace
    exact ⟨hfresh, hdone, hfinishes, hrest⟩
  · rintro ⟨hfresh, hdone, hfinishes, hrest⟩
    exact ⟨(), _, replaceNew_ok.2 ⟨hfresh, hdone, hfinishes, rfl⟩, hrest⟩

/-- No temporary file is left exactly by a rewrite that is not cut; and then the file is as before, or as written. -/
theorem rewrite_left (haside : Aside prepare temp path rest)
    (h : (rewrite prepare temp path mode texts rest).run env s = (r, t)) :
    (t temp = none ↔ Uncut env s prepare temp path mode) ∧
      (t temp = none → t path = s path ∨
        ∃ text u, prepare.run env s = (.ok text, u) ∧ t path = some (.text text)) := by
  unfold Uncut
  rcases Action.bind_cases h with ⟨e, hprepare, _⟩ | ⟨text, u, hprepare, h⟩
  · -- the preparation fails, and nothing is created
    have htemp : t temp = s temp := haside.prepare.kept hprepare fun hne => hne.1 rfl
    have hpath : t path = s path := haside.prepare.kept hprepare fun hne => hne.2 rfl
    rw [htemp]
    refine ⟨⟨fun hfresh => ⟨hfresh, fun text u hok => ?_⟩, fun huncut => huncut.1⟩, fun _ => .inl hpath⟩
    rw [hprepare] at hok
    cases hok
  have htemp : u temp = s temp := haside.prepare.kept hprepare fun hne => hne.1 rfl
  have hpath : u path = s path := haside.prepare.kept hprepare fun hne => hne.2 rfl
  have hthe : ∀ text' u', prepare.run env s = (.ok text', u') → text' = text := by
    intro text' u' hok
    rw [hprepare] at hok
    cases hok
    rfl
  rcases hreplace : (replaceNew temp path mode texts text).run env u with ⟨r', v⟩
  have hleft : ∀ p, t p = v p := by
    intro p
    rcases Action.bind_cases h with ⟨e, hrun, _⟩ | ⟨_, w, hrun, hrest⟩
    · rw [hreplace] at hrun
      cases hrun
      rfl
    · rw [hreplace] at hrun
      cases hrun
      exact haside.rest.kept hrest not_false
  rw [hleft, hleft, ← htemp, ← hpath]
  rcases replaceNew_cases hreplace with
    ⟨hnot, rfl, _⟩ | ⟨hfresh, hdone, ⟨hnot, ⟨c, rfl⟩, _⟩ | ⟨hfinishes, rfl, _⟩⟩
  · refine ⟨⟨fun hfresh => ⟨hfresh, fun text' u' _ hdone => ?_⟩, fun huncut => huncut.1⟩, fun _ => .inl rfl⟩
    exact absurd ⟨hfresh, hdone⟩ hnot
  · rw [Function.update_self]
    refine ⟨iff_of_false (Option.some_ne_none c) fun huncut => ?_, fun hnone => absurd hnone (Option.some_ne_none c)⟩
    exact hnot (huncut.2 text u hprepare hdone).1
  · by_cases hsame : path = temp
    · subst hsame
      rw [Function.update_self]
      refine ⟨iff_of_false (Option.some_ne_none _) fun huncut => ?_, fun hnone => absurd hnone (Option.some_ne_none _)⟩
      exact (huncut.2 text u hprepare hdone).2 rfl
    · rw [Function.update_of_ne (Ne.symm hsame), Function.update_self, Function.update_self]
      refine ⟨iff_of_true rfl ⟨hfresh, fun text' u' hok _ => ?_⟩, fun _ => .inr ⟨text, u, hprepare, rfl⟩⟩
      rw [hthe text' u' hok]
      exact ⟨hfinishes, hsame⟩

end Rewrite

end LinuxPatchApi.FileM
