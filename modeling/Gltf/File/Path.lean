import Gltf.Text.Split

/-!
Paths of files. A path as it is written keeps its steps up to a parent; the place that it leads to, a
location, is the list of names from the root of the file system down and has none.
-/

namespace Gltf.File

/-- The names from the root down. -/
abbrev Location := List String

/-- A path as it is written, without the parts that are empty or a single dot. -/
structure Path where
  /-- How the path begins: at the working directory if empty, else at the root. -/
  root : String
  parts : List String
deriving DecidableEq, Repr

def parentName : String := ".."

/-- The parts between slashes that lead somewhere. -/
def partsOf (cs : List Char) : List String :=
  ((Text.splitOn '/' cs).map String.ofList).filter fun part => part ≠ "" ∧ part ≠ "."

/-- The root that a text begins with; two slashes are kept apart from one, three or more are one. -/
def rootOf : List Char → String
  | '/' :: '/' :: '/' :: _ => "/"
  | '/' :: '/' :: _ => "//"
  | '/' :: _ => "/"
  | _ => ""

namespace Path

def ofText (s : String) : Path := ⟨rootOf s.toList, partsOf s.toList⟩

def ofLocation (l : Location) : Path := ⟨"/", l⟩

def text (p : Path) : String :=
  if p.root = "" ∧ p.parts = [] then "." else p.root ++ "/".intercalate p.parts

/-- The path less its last part. -/
def parent (p : Path) : Path := { p with parts := p.parts.dropLast }

end Path

/-- The location one part further; a step up from the root stays there. -/
def Location.step (l : Location) (part : String) : Location :=
  if part = parentName then l.dropLast else l ++ [part]

/-- Where a path leads from a location. -/
def Location.resolve (base : Location) (p : Path) : Location :=
  p.parts.foldl Location.step (if p.root = "" then base else [])

def Location.text (l : Location) : String := (Path.ofLocation l).text

/-- Whether a location is this one or below it. -/
def Location.contains (base l : Location) : Bool := base.isPrefixOf l

theorem parts_ne_parent_of_resolve {base : Location} {p : Path} (h : parentName ∉ base) :
    parentName ∉ base.resolve p := by
  have step (l : Location) (part : String) (hl : parentName ∉ l) : parentName ∉ l.step part := by
    unfold Location.step
    split
    · exact fun hm => hl (List.dropLast_subset l hm)
    · next hne => simp [hl, Ne.symm hne]
  have fold (parts : List String) (l : Location) (hl : parentName ∉ l) :
      parentName ∉ parts.foldl Location.step l := by
    induction parts generalizing l with
    | nil => exact hl
    | cons part parts ih => exact ih _ (step l part hl)
  exact fold p.parts _ (by split <;> simp [h])

end Gltf.File
