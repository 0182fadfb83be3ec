import Gltf.Text.CaseTable

/-!
Lower case of texts. Characters map one by one, except that dotted capital I becomes two characters
and capital sigma has a final form at the end of a word.
-/

namespace Gltf.Text

def inRanges (ranges : List (Nat × Nat)) (c : Char) : Bool :=
  ranges.any fun r => r.1 ≤ c.toNat && c.toNat ≤ r.2

def isCased (c : Char) : Bool := inRanges casedRanges c

def isCaseIgnorable (c : Char) : Bool := inRanges caseIgnorableRanges c

def lowerChar (c : Char) : Char :=
  if c.toNat < 0x80 then c.toLower
  else
    match lowerRuns.find? fun (first, last, step, _) =>
        first ≤ c.toNat && c.toNat ≤ last && (c.toNat - first) % step == 0 with
    | some (_, _, _, offset) => Char.ofNat (c.toNat + offset).toNat
    | none => c

/-- Whether a sigma between these texts, the first given in reverse, ends a word. -/
def endsWord (before rest : List Char) : Bool :=
  (before.dropWhile isCaseIgnorable).head?.any isCased &&
    !(rest.dropWhile isCaseIgnorable).head?.any isCased

/-- Lower case of what follows a text given in reverse. -/
def lowerAfter (before : List Char) : List Char → List Char
  | [] => []
  | c :: rest =>
      let lowered :=
        if c = 'Σ' then [if endsWord before rest then 'ς' else 'σ']
        else if c = 'İ' then ['i', '\u0307']
        else [lowerChar c]
      lowered ++ lowerAfter (c :: before) rest

def lower (cs : List Char) : List Char := lowerAfter [] cs

def lowerString (s : String) : String := String.ofList (lower s.toList)

example : lowerString "ΌΣΟΣ Σ" = "όσος σ" := by decide +kernel
example : lowerString "DATA:İÉ" = "data:i̇é" := by decide +kernel

end Gltf.Text
