/-
Blocks of fields, each a key with a value: the values that a key has in a block, whatever the order of its fields, and
what a loop over the lines of a text makes of them that sets a part of its state at a field or adds to it.
-/
import LinuxPatchApi.Lib.Lines
import LinuxPatchApi.Lib.Overwrite

namespace Fields

variable {κ α β σ τ : Type}

section Keys

variable [DecidableEq κ]

/-- The value of a field with the key. -/
def valueAt (k : κ) (f : κ × α) : Option α := if f.1 = k then some f.2 else none

/-- The values that the key has, in the order of the fields. -/
def values (k : κ) (fields : List (κ × α)) : List α := fields.filterMap (valueAt k)

section Values

variable {k : κ} {v : α} {fields fields' : List (κ × α)}

theorem values_cons (f : κ × α) (fields : List (κ × α)) :
    values k (f :: fields) = if f.1 = k then f.2 :: values k fields else values k fields := by
  unfold values
  rw [List.filterMap_cons, valueAt]
  by_cases hk : f.1 = k
  · simp [hk]
  · simp [hk]

theorem values_append (k : κ) (fields fields' : List (κ × α)) :
    values k (fields ++ fields') = values k fields ++ values k fields' := List.filterMap_append

theorem values_eq_nil (h : ∀ f ∈ fields, f.1 ≠ k) : values k fields = [] := by
  induction fields with
  | nil => rfl
  | cons f fields ih =>
    rw [values_cons, if_neg (h f List.mem_cons_self)]
    exact ih fun g hg => h g (List.mem_cons_of_mem f hg)

/-- A key that stands once has the value of its field. -/
theorem values_eq_singleton (hn : (fields.map Prod.fst).Nodup) (h : (k, v) ∈ fields) : values k fields = [v] := by
  induction fields with
  | nil => cases h
  | cons f fields ih =>
    rw [List.map_cons, List.nodup_cons] at hn
    rw [values_cons]
    rcases List.mem_cons.1 h with rfl | h
    · have hnone : ∀ g ∈ fields, g.1 ≠ k := by
        intro g hg hk
        have hkeys : g.1 ∈ fields.map Prod.fst := List.mem_map_of_mem hg
        exact hn.1 (hk ▸ hkeys)
      rw [if_pos rfl, values_eq_nil hnone]
    · have hk : f.1 ≠ k := by
        intro hk
        have hkeys : k ∈ fields.map Prod.fst := List.mem_map_of_mem (f := Prod.fst) h
        exact hn.1 (hk ▸ hkeys)
      rw [if_neg hk, ih hn.2 h]

/-- The order of the fields does not matter where each key stands once, nor do fields with other keys. -/
theorem values_of_perm {block : List (κ × α)} (others : List (κ × α)) (hperm : fields.Perm (block ++ others))
    (hn : (block.map Prod.fst).Nodup) (hothers : ∀ f ∈ others, f.1 ∉ block.map Prod.fst) (h : (k, v) ∈ block) :
    values k fields = [v] := by
  have hvalues : (values k fields).Perm (values k (block ++ others)) := hperm.filterMap _
  have hnone : ∀ f ∈ others, f.1 ≠ k := by
    intro f hf hk
    have hkeys : k ∈ block.map Prod.fst := List.mem_map_of_mem (f := Prod.fst) h
    exact hothers f hf (hk ▸ hkeys)
  rw [values_append, values_eq_singleton hn h, values_eq_nil hnone, List.append_nil] at hvalues
  exact List.perm_singleton.1 hvalues

end Values

/-! ## Loops over lines -/

section Loops

variable {read : τ → Option (κ × α)} {step : σ → τ → σ} {k : κ}

theorem values_filterMap (read : τ → Option (κ × α)) (k : κ) (ts : List τ) :
    values k (ts.filterMap read) = ts.filterMap fun t => (read t).bind (valueAt k) := List.filterMap_filterMap

/-- A part of the state that each field with the key sets anew is what the last one sets it to. -/
theorem observe_set (part : σ → β) (g : α → β)
    (h : ∀ s t, part (step s t) = (((read t).bind (valueAt k)).map g).getD (part s)) (s : σ) (ts : List τ) :
    part (ts.foldl step s) = ((values k (ts.filterMap read)).getLast?.map g).getD (part s) := by
  rw [Overwrite.observe h, Overwrite.run_map, values_filterMap]

/-- A part of the state to which each field with the key adds collects what all of them add. -/
theorem observe_add (part : σ → List β) (g : α → List β)
    (h : ∀ s t, part (step s t) = part s ++ (((read t).bind (valueAt k)).map g).getD []) (s : σ) (ts : List τ) :
    part (ts.foldl step s) = part s ++ (values k (ts.filterMap read)).flatMap g := by
  rw [values_filterMap]
  induction ts generalizing s with
  | nil => simp
  | cons t ts ih =>
    rw [List.foldl_cons, ih, h, List.append_assoc, List.filterMap_cons]
    cases (read t).bind (valueAt k) <;> simp

end Loops

/-! ## Printed blocks -/

/-- A text of rows, some of which are fields, has the values of these, if each row is read as meant. -/
theorem values_unlines {ρ : Type} {k : κ} {text : ρ → String} {field? : ρ → Option (κ × α)}
    {read : String → Option (κ × α)} {rows : List ρ} (hline : ∀ r ∈ rows, Text.IsLine (text r))
    (hread : ∀ r ∈ rows, (read (text r)).bind (valueAt k) = (field? r).bind (valueAt k)) :
    values k ((Text.lines (Text.unlines (rows.map text))).filterMap read) = values k (rows.filterMap field?) := by
  have hlines : ∀ l ∈ rows.map text, Text.IsLine l := by
    intro l hl
    obtain ⟨r, hr, rfl⟩ := List.mem_map.1 hl
    exact hline r hr
  rw [Text.lines_unlines hlines, values_filterMap, values_filterMap, List.filterMap_map]
  exact List.filterMap_congr hread

end Keys

end Fields
