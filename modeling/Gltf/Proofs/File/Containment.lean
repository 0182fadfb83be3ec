import Gltf.File.Loader
import Gltf.Proofs.Text.Split
import Mathlib

/-!
Files at or below a base directory. A path leads from one location to another part by part, and a
location that it leads to has names only. What the loader takes a URI for is at or below the base,
however the URI is written, and nothing else is read for it.
-/

namespace Gltf

/-! ### Schemes -/

namespace Uri

/-- A URI that begins, but for blanks, with the name of a scheme in any case and a colon. -/
def HasScheme (text : String) (scheme : List Char) : Prop :=
  ∃ name rest, clean text.toList = name ++ ':' :: rest ∧ isScheme name = true ∧
    scheme = name.map Char.toLower

theorem colon_notMem {name : List Char} (h : isScheme name = true) : ':' ∉ name := by
  rw [isScheme, Bool.and_eq_true, List.all_eq_true] at h
  exact fun hmem => absurd (h.2 _ hmem) (by decide)

theorem ne_nil_of_isScheme {name : List Char} (h : isScheme name = true) : name ≠ [] := by
  rintro rfl
  cases h

theorem hasScheme_iff {text : String} {scheme : List Char} :
    HasScheme text scheme ↔ scheme ≠ [] ∧ (ofText text).scheme = scheme := by
  change _ ↔ scheme ≠ [] ∧ (splitScheme (clean text.toList)).1 = scheme
  constructor
  · -- The name of a scheme has no colon, so the URI is cut behind it.
    rintro ⟨name, rest, htext, hname, rfl⟩
    rw [splitScheme, htext, Text.cut_append (colon_notMem hname)]
    simp [hname, ne_nil_of_isScheme hname]
  · rintro ⟨hne, h⟩
    rw [splitScheme] at h
    cases hcut : Text.cut ':' (clean text.toList) with
    | none =>
        rw [hcut] at h
        exact absurd h.symm hne
    | some parts =>
        obtain ⟨name, rest⟩ := parts
        simp only [hcut] at h
        split_ifs at h with hname
        · exact ⟨name, rest, (Text.cut_eq_some hcut).1, hname, h.symm⟩
        · exact absurd h.symm hne

end Uri

namespace File

/-! ### Where a path leads -/

/-- What names an entry of a directory. -/
structure IsName (part : String) : Prop where
  ne_empty : part ≠ ""
  ne_dot : part ≠ "."
  ne_parent : part ≠ parentName
  slash_notMem : '/' ∉ part.toList

/-- A location of names only. -/
def Location.Normalised (l : Location) : Prop := ∀ name ∈ l, IsName name

/-- Where the parts between slashes lead. From the root there is no way up. -/
inductive Location.Leads : Location → List String → Location → Prop
  | done (l : Location) : Leads l [] l
  | stay {l l' : Location} {part : String} {parts : List String} (hpart : part = "" ∨ part = ".")
      (rest : Leads l parts l') : Leads l (part :: parts) l'
  | up {l l' : Location} {parts : List String} (rest : Leads l.dropLast parts l') :
      Leads l (parentName :: parts) l'
  | down {l l' : Location} {part : String} {parts : List String} (hpart : IsName part)
      (rest : Leads (l ++ [part]) parts l') : Leads l (part :: parts) l'

/-- The parts of a text between its slashes. -/
def rawParts (text : String) : List String := (text.toList.splitOn '/').map String.ofList

/-- Where the first part of a text is looked up. -/
def start (base : Location) (text : String) : Location :=
  if text.toList.head? = some '/' then [] else base

variable {base l l' place : Location} {part text uri : String} {parts : List String}

theorem Location.Leads.normalised (h : l.Leads parts l') (hl : l.Normalised) : l'.Normalised := by
  induction h with
  | done => exact hl
  | stay _ _ ih => exact ih hl
  | up _ ih => exact ih fun name hname => hl name (List.dropLast_subset _ hname)
  | down hpart _ ih =>
      refine ih (List.forall_mem_append.2 ⟨hl, ?_⟩)
      exact List.forall_mem_singleton.2 hpart

/-- Parts that lead nowhere may be left out, and each other part is one step. -/
theorem Location.Leads.eq_foldl (h : l.Leads parts l') :
    l' = (parts.filter fun part => part ≠ "" ∧ part ≠ ".").foldl Location.step l := by
  induction h with
  | done => rfl
  | @stay _ _ part _ hpart _ ih =>
      rw [ih, List.filter_cons_of_neg]
      rcases hpart with rfl | rfl <;> decide
  | @up l _ _ _ ih =>
      rw [ih, List.filter_cons_of_pos (by decide), List.foldl_cons, Location.step, if_pos rfl]
  | down hpart _ ih =>
      rw [ih, List.filter_cons_of_pos (by simpa using ⟨hpart.ne_empty, hpart.ne_dot⟩),
        List.foldl_cons, Location.step, if_neg hpart.ne_parent]

theorem Location.leads_foldl (hparts : ∀ part ∈ parts, '/' ∉ part.toList) (l : Location) :
    l.Leads parts ((parts.filter fun part => part ≠ "" ∧ part ≠ ".").foldl Location.step l) := by
  induction parts generalizing l with
  | nil => exact .done l
  | cons part parts ih =>
      rw [List.forall_mem_cons] at hparts
      have ih := ih hparts.2
      by_cases hpart : part ≠ "" ∧ part ≠ "."
      · rw [List.filter_cons_of_pos (by simpa using hpart), List.foldl_cons, Location.step]
        by_cases hup : part = parentName
        · rw [if_pos hup, hup]
          exact .up (ih _)
        · rw [if_neg hup]
          exact .down ⟨hpart.1, hpart.2, hup, hparts.1⟩ (ih _)
      · rw [List.filter_cons_of_neg (by simpa using hpart)]
        exact .stay (by tauto) (ih l)

theorem slash_notMem_of_mem_rawParts (h : part ∈ rawParts text) : '/' ∉ part.toList := by
  obtain ⟨cs, hcs, rfl⟩ := List.mem_map.1 h
  rw [String.toList_ofList]
  exact Text.notMem_of_mem_splitOn hcs

theorem rootOf_eq_empty_iff {cs : List Char} : rootOf cs = "" ↔ cs.head? ≠ some '/' := by
  unfold rootOf
  split <;> simp_all [List.head?_eq_some_iff]

theorem partsOf_toList (text : String) :
    partsOf text.toList = (rawParts text).filter fun part => part ≠ "" ∧ part ≠ "." := by
  rw [partsOf, rawParts, Text.splitOn_eq]

/-- A path leads to one location, from the base or from the root. -/
theorem leads_iff_resolve (base : Location) (text : String) :
    (start base text).Leads (rawParts text) place ↔ base.resolve (.ofText text) = place := by
  have hstart : (if (Path.ofText text).root = "" then base else []) = start base text := by
    rw [start, Path.ofText]
    simp only [rootOf_eq_empty_iff, ite_not]
  rw [Location.resolve, hstart, Path.ofText, partsOf_toList]
  constructor
  · exact fun h => h.eq_foldl.symm
  · rintro rfl
    exact Location.leads_foldl (fun _ => slash_notMem_of_mem_rawParts) _

/-! ### Locations as texts -/

theorem rawParts_intercalate (hplace : place.Normalised) (hne : place ≠ []) :
    rawParts ("/".intercalate place) = place := by
  have hslash : ∀ cs ∈ place.map String.toList, '/' ∉ cs := by
    rw [List.forall_mem_map]
    exact fun part hpart => (hplace part hpart).slash_notMem
  rw [rawParts, String.toList_intercalate]
  change List.map _ (List.splitOn '/' (['/'].intercalate _)) = _
  rw [List.splitOn_intercalate '/' hslash (by simpa using hne), List.map_map]
  simp [Function.comp_def]

theorem partsOf_intercalate (hplace : place.Normalised) :
    partsOf ("/".intercalate place).toList = place := by
  by_cases hne : place = []
  · rw [hne]
    rfl
  · rw [partsOf_toList, rawParts_intercalate hplace hne, List.filter_eq_self]
    intro part hpart
    have hname := hplace part hpart
    simpa using ⟨hname.ne_empty, hname.ne_dot⟩

/-- Names follow a single slash. -/
theorem rootOf_intercalate (hplace : place.Normalised) :
    rootOf ('/' :: ("/".intercalate place).toList) = "/" := by
  by_cases hne : place = []
  · rw [hne]
    rfl
  · have hparts := rawParts_intercalate hplace hne
    cases htext : ("/".intercalate place).toList with
    | nil => rfl
    | cons c cs =>
        have hc : c ≠ '/' := by
          -- A second slash would come before an empty name.
          rintro rfl
          rw [rawParts, htext, ← Text.splitOn_eq, Text.splitOn, if_pos rfl, List.map_cons] at hparts
          exact (hplace "" (hparts ▸ List.mem_cons_self)).ne_empty rfl
        unfold rootOf
        split <;> simp_all

theorem toList_text (place : Location) :
    place.text.toList = '/' :: ("/".intercalate place).toList := by
  rw [Location.text, Path.text, Path.ofLocation, if_neg (by simp), String.toList_append]
  simp

/-- A location is read back from its text. -/
theorem ofText_text (hplace : place.Normalised) : Path.ofText place.text = .ofLocation place := by
  have hparts : partsOf ('/' :: ("/".intercalate place).toList) = place := by
    rw [partsOf, Text.splitOn, if_pos rfl, List.map_cons, List.filter_cons_of_neg (by decide)]
    exact partsOf_intercalate hplace
  rw [Path.ofText, toList_text, hparts, rootOf_intercalate hplace, Path.ofLocation]

/-! ### Resolving -/

/-- The path of a URI, without escapes. -/
def pathText (uri : String) : String := String.ofList (Percent.decodeText (Uri.ofText uri).path)

theorem scheme_allowed_iff :
    ¬((Uri.ofText uri).scheme ≠ [] ∧ (Uri.ofText uri).scheme ≠ fileScheme) ↔
      ∀ scheme, Uri.HasScheme uri scheme → scheme = fileScheme := by
  simp only [Uri.hasScheme_iff]
  constructor
  · rintro h scheme ⟨hne, rfl⟩
    by_contra hfile
    exact h ⟨hne, hfile⟩
  · rintro h ⟨hne, hfile⟩
    exact hfile (h _ ⟨hne, rfl⟩)

/-- A location is meant by a URI with a host that may stand, no scheme but that of files, and a path
that has no null character and leads to the base or below it. -/
theorem resolve_eq_ok_iff :
    resolve base uri = .ok place ↔
      Host.problem? (Uri.ofText uri).host = none ∧
      (∀ scheme, Uri.HasScheme uri scheme → scheme = fileScheme) ∧
      '\x00' ∉ (pathText uri).toList ∧
      (start base (pathText uri)).Leads (rawParts (pathText uri)) place ∧ base <+: place := by
  rw [leads_iff_resolve, ← scheme_allowed_iff, pathText, String.toList_ofList, resolve]
  cases Host.problem? (Uri.ofText uri).host with
  | some problem => simp
  | none =>
      simp only [true_and, List.contains_iff_mem, Location.contains, List.isPrefixOf_iff_prefix]
      split_ifs with hscheme hnull hbelow
      · simp [hscheme]
      · simp [hnull]
      · constructor
        · intro h
          obtain rfl := Except.ok.inj h
          exact ⟨hscheme, hnull, rfl, hbelow⟩
        · rintro ⟨-, -, rfl, -⟩
          rfl
      · constructor
        · rintro ⟨⟩
        · rintro ⟨-, -, rfl, h⟩
          exact absurd h hbelow

theorem normalised_of_resolve (hbase : base.Normalised) (h : resolve base uri = .ok place) :
    place.Normalised := by
  obtain ⟨-, -, -, hleads, -⟩ := resolve_eq_ok_iff.1 h
  refine hleads.normalised ?_
  rw [start]
  split_ifs
  · exact List.forall_mem_nil _
  · exact hbase

theorem load_congr {m : Type → Type} [Monad m] {files files' : Access m}
    (h : ∀ place, resolve base uri = .ok place →
      files.read (.ofLocation place) = files'.read (.ofLocation place)) :
    load files base uri = load files' base uri := by
  unfold load
  cases hresolve : resolve base uri with
  | error problem => rfl
  | ok place => simp only [h place hresolve]

/-- The loader stays at or below its base. The location that it takes a URI for has the base as a
prefix, name by name, and is the path that its text spells, from the root and without a part that
leads back; a URI with another scheme has none. So what is loaded depends on nothing elsewhere. -/
theorem resolve_inside (hbase : base.Normalised) (uri : String) :
    (∀ place, resolve base uri = .ok place →
      base <+: place ∧ place.Normalised ∧ Path.ofText place.text = ⟨"/", place⟩) ∧
    (∀ scheme, Uri.HasScheme uri scheme → scheme ≠ fileScheme →
      ∀ place, resolve base uri ≠ .ok place) ∧
    ∀ (m : Type → Type) [Monad m] (files files' : Access m),
      (∀ place : Location, base <+: place → place.Normalised →
        files.read (.ofLocation place) = files'.read (.ofLocation place)) →
      load files base uri = load files' base uri := by
  have hinside (place : Location) (h : resolve base uri = .ok place) :
      base <+: place ∧ place.Normalised := by
    obtain ⟨-, -, -, -, hbelow⟩ := resolve_eq_ok_iff.1 h
    exact ⟨hbelow, normalised_of_resolve hbase h⟩
  refine ⟨fun place h => ?_, fun scheme hscheme hother place h => ?_, ?_⟩
  · obtain ⟨hbelow, hplace⟩ := hinside place h
    exact ⟨hbelow, hplace, ofText_text hplace⟩
  · obtain ⟨-, honly, -, -, -⟩ := resolve_eq_ok_iff.1 h
    exact hother (honly scheme hscheme)
  · intro m _ files files' hread
    refine load_congr fun place h => ?_
    obtain ⟨hbelow, hplace⟩ := hinside place h
    exact hread place hbelow hplace

/-- Steps up, an escaped slash, a query and the scheme of files in capitals. -/
theorem resolve_inside_steps_up :
    let base : Location := ["srv", "a"]
    let uri := "FILE:///srv/%61/../ab/%2e%2E%2Fa/./c.bin?q"
    base.Normalised ∧ resolve base uri = .ok ["srv", "a", "c.bin"] ∧
      base <+: ["srv", "a", "c.bin"] ∧
      Path.ofText (Location.text ["srv", "a", "c.bin"]) = ⟨"/", ["srv", "a", "c.bin"]⟩ := by
  intro base uri
  have hbase : base.Normalised :=
    List.forall_mem_cons.2 ⟨⟨by decide, by decide, by decide, by decide⟩,
      List.forall_mem_singleton.2 ⟨by decide, by decide, by decide, by decide⟩⟩
  have hresolve : resolve base uri = .ok ["srv", "a", "c.bin"] := by decide +kernel
  obtain ⟨hbelow, -, htext⟩ := (resolve_inside hbase uri).1 _ hresolve
  exact ⟨hbase, hresolve, hbelow, htext⟩

/-- A name that begins like the base is another one. -/
example : resolve ["srv", "a"] "..%2Fab" = .error (.outside "..%2Fab" ["srv", "a"]) := by
  decide +kernel

end File

end Gltf
