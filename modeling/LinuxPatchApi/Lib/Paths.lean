/-
Paths as texts: the last component, the parent, and the path with another extension, after the path type of a
systems language's standard library. Separators and `.` at the end of a path are not part of its last component.
-/
import LinuxPatchApi.Lib.Text

namespace Paths

/-- The reversed path without separators and `.` components at its end. -/
def dropTail : List Char → List Char
  | '/' :: cs => dropTail cs
  | '.' :: '/' :: cs => dropTail cs
  | cs => cs

/-- The directory part with its separator, and the name after it. -/
def split (path : String) : List Char × List Char :=
  let r := dropTail path.toList.reverse
  ((r.dropWhile (· ≠ '/')).reverse, (r.takeWhile (· ≠ '/')).reverse)

/-- `Path::file_name`. -/
def fileName (path : String) : Option String :=
  match (split path).2 with
  | [] | ['.'] | ['.', '.'] => none
  | name => some (String.ofList name)

/-- The name up to its last dot; a dot at the start begins no extension. -/
def stem (name : List Char) : List Char :=
  match (name.reverse.dropWhile (· ≠ '.')) with
  | [] | ['.'] => name
  | _ :: before => before.reverse

/-- `Path::with_extension`, for an extension that is not empty. -/
def withExtension (path : String) (ext : String) : String :=
  match fileName path with
  | none => path
  | some name => String.ofList ((split path).1 ++ stem name.toList ++ '.' :: ext.toList)

/-- `Path::parent`. -/
def parent (path : String) : Option String :=
  let (dir, name) := split path
  match name with
  | [] => none
  | _ =>
    let d := (dropTail dir.reverse).reverse
    some (if d = [] ∧ dir ≠ [] then "/" else String.ofList d)

example : withExtension "/etc/certs/server.key.pem" "tmp" = "/etc/certs/server.key.tmp" := by decide
example : withExtension "certs/.hidden/." "tmp" = "certs/.hidden.tmp" := by decide
example : withExtension ".." "tmp" = ".." := by decide
example : (parent "/etc//x.pem/", parent "/x", parent "x", parent "/") =
    (some "/etc", some "/", some "", none) := by decide

/-! ## Telling paths apart by their last character -/

def lastChar (path : String) : Option Char := path.toList.getLast?

theorem lastChar_append (s : String) {t : String} (h : t.toList ≠ []) : lastChar (s ++ t) = lastChar t := by
  unfold lastChar
  rw [String.toList_append, List.getLast?_append_of_ne_nil _ h]

/-- A path that ends in a letter has a name. -/
theorem fileName_ne_none {path : String} {c : Char} (h : lastChar path = some c) (hc : c ≠ '/' ∧ c ≠ '.') :
    fileName path ≠ none := by
  obtain ⟨cs, hcs⟩ := List.getLast?_eq_some_iff.1 h
  have hname : ∃ pre, (split path).2 = pre ++ [c] := by
    refine ⟨(cs.reverse.takeWhile (· ≠ '/')).reverse, ?_⟩
    have hdrop : dropTail (c :: cs.reverse) = c :: cs.reverse := by
      unfold dropTail
      split
      · next he => exact absurd (List.cons.inj he).1 hc.1
      · next he => exact absurd (List.cons.inj he).1 hc.2
      · rfl
    simp [split, hcs, hdrop, hc.1]
  obtain ⟨pre, hpre⟩ := hname
  unfold fileName
  rw [hpre]
  split
  · next he => simp at he
  · next he => exact absurd (by simpa using congrArg List.getLast? he) hc.2
  · next he => exact absurd (by simpa using congrArg List.getLast? he) hc.2
  · exact Option.some_ne_none _

/-- A path with another extension ends like it, unless the path has no name. -/
theorem withExtension_cases (path : String) {ext : String} (hext : ext.toList ≠ []) :
    fileName path = none ∧ withExtension path ext = path ∨ lastChar (withExtension path ext) = lastChar ext := by
  unfold withExtension
  split
  · next h => exact .inl ⟨h, rfl⟩
  · refine .inr ?_
    unfold lastChar
    rw [String.toList_ofList, List.getLast?_append_of_ne_nil _ (List.cons_ne_nil _ _),
      List.getLast?_cons_of_ne_nil hext]

/-- A path that ends in another letter than the extension is no path with that extension. -/
theorem withExtension_ne {path p ext : String} {c : Char} (hp : lastChar p = some c) (hc : c ≠ '/' ∧ c ≠ '.')
    (hext : ext.toList ≠ []) (hne : lastChar ext ≠ some c) : withExtension path ext ≠ p := by
  rintro rfl
  rcases withExtension_cases path hext with ⟨hn, he⟩ | he
  · rw [he] at hp
    exact fileName_ne_none hp hc hn
  · exact hne (he.symm.trans hp)

end Paths
