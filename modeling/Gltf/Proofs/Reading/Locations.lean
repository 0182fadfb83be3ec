import Gltf.Proofs.Reading.Origin
import Mathlib

/-!
Where findings point. The path of a finding leads from the value that is read to a value inside it,
or to an object and on to a required key that it lacks. What is told before the path are the typed
extensions whose entries it passes.
-/

namespace Gltf

/-- A step from a JSON value to one inside it. -/
inductive Json.At : Json → Step → Json → Prop
  | member {members : List (String × Json)} {key : String} {v : Json} (h : (key, v) ∈ members) :
      At (.object members) (.key key) v
  | item {items : List Json} {i : ℕ} {v : Json} (h : items[i]? = some v) :
      At (.array items) (.index i) v

/-- Steps that lead from a JSON value to one inside it. -/
inductive Json.Leads : Json → List Step → Json → Prop
  | here (j : Json) : Leads j [] j
  | inside {j v inner : Json} {step : Step} {steps : List Step} (h : j.At step v)
      (rest : Leads v steps inner) : Leads j (step :: steps) inner

/-- Whether a value is one that a problem tells of. A missing value is not there. -/
def Problem.Concerns : Problem → Json → Prop
  | .wrongKind _ found, v => v.kind = found
  | .missing, _ => False
  | .outOfRange n _, v => v = .number n
  | .noIntMember n _, v => ∃ n', v = .number n' ∧ n'.coerce? .int32 = some n
  | .noStringMember s _, v => v = .string s
  | .noChoice found _, v => v.kind = found
  | .unreadable _, _ => True
  | .readerFailed _, v | .reportedError _, v | .reportedWarning _, v => v.kind = .object

/-! ### Texts -/

namespace Path

def extend (p : Path) (steps : List Step) : Path := { p with steps := p.steps ++ steps }

theorem extend_nil (p : Path) : p.extend [] = p := by
  rw [extend, List.append_nil]

theorem extend_cons (p : Path) (step : Step) (steps : List Step) :
    p.extend (step :: steps) = (p.extend [step]).extend steps := by
  simp [extend]

/-- The text of the steps behind the first. -/
def restText : List Step → String
  | [] => ""
  | .key name :: steps => "." ++ name ++ restText steps
  | .index i :: steps => "[" ++ toString i ++ "]" ++ restText steps

/-- The text of a path in a whole document. -/
def fullText : List Step → String
  | [] => "<root>"
  | .key name :: steps => name ++ restText steps
  | .index i :: steps => "[" ++ toString i ++ "]" ++ restText steps

theorem foldl_extendText {text : String} (htext : text ≠ "") (steps : List Step) :
    steps.foldl extendText text = text ++ restText steps := by
  induction steps generalizing text with
  | nil => rw [List.foldl_nil, restText, String.append_empty]
  | cons step steps ih =>
      have hne (s : String) : text ++ s ≠ "" := by simp [htext]
      rw [List.foldl_cons]
      cases step with
      | key name =>
          have hkey : extendText text (.key name) = text ++ ("." ++ name) := by
            simp [extendText, htext, String.append_assoc]
          rw [hkey, ih (hne _), restText, String.append_assoc]
      | index i =>
          have hindex : extendText text (.index i) = text ++ ("[" ++ toString i ++ "]") := by
            simp [extendText, String.append_assoc]
          rw [hindex, ih (hne _), restText, String.append_assoc]

theorem text_eq_fullText {name : String} (hname : name ≠ "") (steps : List Step) :
    text ⟨"", .key name :: steps⟩ = fullText (.key name :: steps) := by
  rw [text, List.foldl_cons]
  exact foldl_extendText hname steps

example : text ⟨"", [.key "extensions", .key "a", .key "b", .index 2, .key "c"]⟩ =
    "extensions.a.b[2].c" := by
  decide +kernel

/-- A path as it stands in a message. -/
def placeText (p : Path) : String := if p.text.isEmpty then "<root>" else p.text

/-- No text of a place is empty, unless the first key is. -/
theorem placeText_eq {name : String} (hname : name ≠ "") (steps : List Step) :
    placeText ⟨"", .key name :: steps⟩ = fullText (.key name :: steps) := by
  have hne : (fullText (.key name :: steps)).isEmpty = false := by simp [fullText, hname]
  rw [placeText, text_eq_fullText hname, hne, if_neg Bool.false_ne_true]

end Path

namespace Finding

/-- What is told before the place: the extensions on the way, each in brackets. -/
def scopeText : List String → String
  | [] => ""
  | name :: names => "[" ++ name ++ "] " ++ scopeText names

theorem foldr_scope (scope : List String) (s : String) :
    scope.foldr (fun extension text => s!"[{extension}] {text}") s = scopeText scope ++ s := by
  induction scope with
  | nil => rw [List.foldr_nil, scopeText, String.empty_append]
  | cons name scope ih =>
      rw [List.foldr_cons, ih]
      exact String.append_assoc.symm

theorem message_eq (f : Finding) :
    f.message = scopeText f.scope ++ f.path.placeText ++ ": " ++ f.problem.text := by
  rw [message, foldr_scope, String.append_assoc, String.append_assoc, String.append_assoc]
  rfl

end Finding

theorem Schema.key_ne_empty : ∀ t ∈ allTypes, ∀ p ∈ t.properties, p.key ≠ "" := by
  decide +kernel

namespace Reading

/-! ### What a path passes -/

/-- What the value in a place is read as. -/
inductive Site where
  | read (form : Form)
  /-- The extensions of an object of these kinds. -/
  | extensions (chain : List String)
  /-- A value in which nothing is found apart: a choice, or what a reader function is given. -/
  | whole
  /-- Nothing is read here. -/
  | unread

namespace Site

def ofShape : Shape → Site
  | .required form => .read form
  | .optional form => .read form
  | .choice _ _ _ => .whole

/-- The site a step inside. -/
def next (o : Options) : Site → Step → Site
  | .read (.object t), .key key =>
      match t.property? key with
      | some p => ofShape p.shape
      | none => if key = "extensions" then .extensions t.lineage.chain else .unread
  | .read (.list item), .index _ => ofShape item
  | .read (.map item), .key _ => ofShape item
  | .extensions chain, .key name =>
      match o.handler? chain name with
      | some (.record t) => .read (.object t)
      | some (.function _ _) => .whole
      | none => .unread
  | _, _ => .unread

/-- The typed extension whose entry a step leads to, if it does. -/
def entered (o : Options) : Site → Step → List String
  | .extensions chain, .key name => if (o.handler? chain name).isSome then [name] else []
  | _, _ => []

/-- The site that steps lead to. -/
def along (o : Options) (site : Site) (steps : List Step) : Site := steps.foldl (next o) site

/-- The typed extensions whose entries lie on the way, outermost first. -/
def passed (o : Options) : Site → List Step → List String
  | _, [] => []
  | site, step :: steps => site.entered o step ++ (site.next o step).passed o steps

theorem along_unread (o : Options) (steps : List Step) : along o .unread steps = .unread := by
  induction steps with
  | nil => rfl
  | cons step steps ih => exact ih

theorem ofShape_ne_unread (shape : Shape) : ofShape shape ≠ .unread := by
  cases shape <;> simp [ofShape]

end Site

/-- Where a problem in a value is told: at a value that it concerns, or for a missing key behind the
object that lacks it. -/
inductive Marks (o : Options) (site : Site) (j : Json) : Problem → List Step → Prop
  | value {problem : Problem} {steps : List Step} {v : Json} (leads : j.Leads steps v)
      (concerns : problem.Concerns v) : Marks o site j problem steps
  | absent {steps : List Step} {members : List (String × Json)} {t : ObjectType} {p : Property}
      (leads : j.Leads steps (.object members)) (reached : site.along o steps = .read (.object t))
      (property : p ∈ t.properties) (required : p.field ∈ t.requiredFields)
      (lacks : p.key ∉ members.map (·.1)) : Marks o site j .missing (steps ++ [.key p.key])

/-- A finding in a value that is read at a site points into it. -/
structure Points (o : Options) (site : Site) (path : Path) (j : Json) (f : Finding)
    (steps : List Step) : Prop where
  path : f.path = path.extend steps
  scope : f.scope = site.passed o steps
  reached : site.along o steps ≠ .unread
  marks : Marks o site j f.problem steps

def Located (o : Options) (site : Site) (path : Path) (j : Json) (f : Finding) : Prop :=
  ∃ steps, Points o site path j f steps

section
variable {o : Options} {site : Site} {path : Path} {j v : Json} {f : Finding} {step : Step}

theorem Marks.inside {problem : Problem} {steps : List Step} (hat : j.At step v)
    (h : Marks o (site.next o step) v problem steps) : Marks o site j problem (step :: steps) := by
  cases h with
  | value leads concerns => exact .value (.inside hat leads) concerns
  | @absent front _ _ p leads reached property required lacks =>
      have habsent : Marks o site j .missing ((step :: front) ++ [.key p.key]) :=
        .absent (.inside hat leads) reached property required lacks
      exact habsent

theorem located_here (hsite : site ≠ .unread) {problem : Problem} (h : problem.Concerns j) :
    Located o site path j (.ofPath path problem) :=
  ⟨[], path.extend_nil.symm, rfl, hsite, .value (.here j) h⟩

/-- What is located in a value is located in what it stands in, behind the extension whose entry it
is. -/
theorem Located.inside (hat : j.At step v)
    (h : Located o (site.next o step) (path.extend [step]) v f) :
    Located o site path j (f.behind (site.entered o step)) := by
  obtain ⟨steps, hpoints⟩ := h
  refine ⟨step :: steps, ?_, ?_, hpoints.reached, hpoints.marks.inside hat⟩
  · rw [path.extend_cons]
    exact hpoints.path
  · rw [Site.passed, ← hpoints.scope]
    rfl

end

/-! ### Leaves and shapes -/

/-- Whatever is found wrong concerns the value itself and is told at its path. -/
def Outcome.Faults (path : Path) (j : Json) (out : Outcome) : Prop :=
  ∀ f ∈ out.findings, ∃ problem : Problem, problem.Concerns j ∧ f = .ofPath path problem

section
variable {path : Path} {j : Json}

theorem faults_accept (v : Value) : (Outcome.accept v).Faults path j := by
  intro f hf
  cases hf

theorem faults_refuse {problem : Problem} (h : problem.Concerns j) :
    (Outcome.refuse path problem).Faults path j := by
  intro f hf
  exact ⟨problem, h, List.mem_singleton.1 hf⟩

theorem faults_readNumber (kind : NumberKind) (j : Json) :
    (readNumber kind path j).Faults path j := by
  cases j with
  | number n =>
      rw [readNumber]
      split
      · exact faults_accept _
      · exact faults_refuse rfl
  | _ => exact faults_refuse rfl

theorem faults_readIntEnum (e : IntEnum) (j : Json) : (readIntEnum e path j).Faults path j := by
  cases j with
  | number n =>
      rw [readIntEnum]
      split
      · rename_i i hi
        split_ifs
        · exact faults_accept _
        · exact faults_refuse ⟨n, rfl, hi⟩
      · exact faults_refuse rfl
  | _ => exact faults_refuse rfl

theorem faults_readStringEnum (e : StringEnum) (j : Json) :
    (readStringEnum e path j).Faults path j := by
  cases j with
  | string s =>
      rw [readStringEnum]
      split_ifs
      · exact faults_accept _
      · exact faults_refuse rfl
  | _ => exact faults_refuse rfl

theorem faults_readLeaf (form : Form) (j : Json) : (readLeaf path form j).Faults path j := by
  cases form with
  | any => exact faults_accept _
  | bool =>
      cases j with
      | bool b => exact faults_accept _
      | _ => exact faults_refuse rfl
  | string =>
      cases j with
      | string s => exact faults_accept _
      | _ => exact faults_refuse rfl
  | number kind => exact faults_readNumber kind j
  | intEnum e => exact faults_readIntEnum e j
  | stringEnum e => exact faults_readStringEnum e j
  | unreadable text => exact faults_refuse trivial
  | _ => exact faults_refuse rfl

theorem faults_callReader (read : List (String × Json) → Except String Reported) (j : Json) :
    (callReader path read j).Faults path j := by
  cases j with
  | object members =>
      rw [callReader]
      cases read members with
      | ok reported =>
          intro f hf
          rcases List.mem_append.1 hf with herror | hwarning
          · obtain ⟨text, -, rfl⟩ := List.mem_map.1 herror
            exact ⟨.reportedError text, rfl, rfl⟩
          · obtain ⟨text, -, rfl⟩ := List.mem_map.1 hwarning
            exact ⟨.reportedWarning text, rfl, rfl⟩
      | error text => exact faults_refuse rfl
  | _ => exact faults_refuse rfl

end

/-- What is found in the forms of a value is located in it. -/
def Locates (o : Options) (j : Json) : Prop :=
  ∀ path form, ∀ f ∈ (readForm o path form j).findings, Located o (.read form) path j f

section
variable {o : Options} {site : Site} {path : Path} {j : Json} {f : Finding}

theorem Outcome.Faults.located {out : Outcome} (h : out.Faults path j) (hf : f ∈ out.findings)
    (hsite : site ≠ .unread) : Located o site path j f := by
  obtain ⟨problem, hproblem, rfl⟩ := h f hf
  exact located_here hsite hproblem

theorem located_readValue (ih : Locates o j) {shape : Shape}
    (hf : f ∈ (readValue o path shape j).findings) : Located o (.ofShape shape) path j f := by
  cases shape with
  | required form => exact ih path form f hf
  | optional form =>
      by_cases hj : j = .null
      · subst hj
        cases hf
      · rw [readValue_optional_of_ne o path hj] at hf
        exact ih path form f hf
  | choice forms text listsNull =>
      by_cases hj : j = .null
      · subst hj
        cases hf
      · rw [readValue_choice_of_ne o path hj] at hf
        -- What the attempts find is not told.
        split at hf
        · cases hf
        · have hfaults : (Outcome.refuse path (.noChoice j.kind text)).Faults path j :=
            faults_refuse rfl
          exact hfaults.located hf (by simp [Site.ofShape])

/-! ### Containers -/

theorem located_list {item : Shape} {values : List Json} (ih : ∀ v ∈ values, Locates o v)
    (hf : f ∈ (readForm o path (.list item) (.array values)).findings) :
    Located o (.read (.list item)) path (.array values) f := by
  rw [readForm_array_list] at hf
  obtain ⟨out, hout, hfound⟩ := List.mem_flatMap.1 hf
  obtain ⟨i, hi, rfl⟩ := List.mem_mapIdx.1 hout
  exact (located_readValue (ih _ (List.getElem_mem hi)) hfound).inside
    (.item (List.getElem?_eq_getElem hi))

theorem located_map {item : Shape} {members : List (String × Json)}
    (ih : ∀ m ∈ members, Locates o m.2)
    (hf : f ∈ (readForm o path (.map item) (.object members)).findings) :
    Located o (.read (.map item)) path (.object members) f := by
  rw [readForm_object_map] at hf
  obtain ⟨out, hout, hfound⟩ := List.mem_flatMap.1 hf
  obtain ⟨m, hm, rfl⟩ := List.mem_map.1 hout
  exact (located_readValue (ih m hm) hfound).inside (.member hm)

/-! ### Extensions -/

/-- What is found in an extension is told behind its name. -/
theorem located_readExtension {chain : List String} {name : String} (ih : Locates o j)
    (hf : f ∈ (readExtension o chain path name j).findings) :
    ∃ g, Located o (Site.next o (.extensions chain) (.key name)) (path.key name) j g ∧
      f = g.behind (Site.entered o (.extensions chain) (.key name)) := by
  rw [readExtension] at hf
  split_ifs at hf with hdisabled
  · cases hf
  · simp only [Site.next, Site.entered]
    cases hhandler : o.handler? chain name with
    | none =>
        rw [hhandler] at hf
        cases hf
    | some handler =>
        rw [hhandler] at hf
        cases handler with
        | record t =>
            obtain ⟨g, hg, rfl⟩ := List.mem_map.1 hf
            exact ⟨g, ih _ _ g hg, rfl⟩
        | function _ read =>
            obtain ⟨g, hg, rfl⟩ := List.mem_map.1 hf
            exact ⟨g, (faults_callReader read j).located hg (by simp), rfl⟩

theorem located_readBlock {chain : List String} {entries : List (String × Json)}
    (ih : ∀ e ∈ entries, Locates o e.2)
    (hf : f ∈ (readBlock o chain path (.object entries)).2) :
    Located o (.extensions chain) path (.object entries) f := by
  obtain ⟨out, hout, hfound⟩ := List.mem_flatMap.1 hf
  obtain ⟨e, he, rfl⟩ := List.mem_map.1 hout
  obtain ⟨g, hg, rfl⟩ := located_readExtension (ih e he) hfound
  exact hg.inside (.member he)

/-! ### Objects -/

/-- As `Locates`, of the extensions of an object. -/
def LocatesBlock (o : Options) (j : Json) : Prop :=
  ∀ path chain, ∀ f ∈ (readBlock o chain path j).2, Located o (.extensions chain) path j f

theorem located_readMember {t : ObjectType} {members : List (String × Json)} {m : String × Json}
    (hm : m ∈ members) (ih : Locates o m.2) (ihblock : LocatesBlock o m.2)
    (hf : f ∈ (readMember o t path m.1 m.2).2) :
    Located o (.read (.object t)) path (.object members) f := by
  have hat : (Json.object members).At (.key m.1) m.2 := .member hm
  refine Located.inside (f := f) hat ?_
  rw [Site.next]
  cases hproperty : t.property? m.1 with
  | some p =>
      rw [readMember_of_property hproperty] at hf
      exact located_readValue ih hf
  | none =>
      rw [readMember_of_unlisted hproperty, readOther] at hf
      split_ifs at hf with hextensions
      · simp only [if_pos hextensions]
        exact ihblock _ _ f hf
      all_goals cases hf

theorem located_missing {t : ObjectType} {members : List (String × Json)}
    (hf : f ∈ missingFindings t path (members.map (·.1))) :
    Located o (.read (.object t)) path (.object members) f := by
  obtain ⟨p, hp, rfl⟩ := List.mem_map.1 hf
  obtain ⟨hproperty, hcond⟩ := List.mem_filter.1 hp
  obtain ⟨hlacks, hrequired⟩ : p.key ∉ members.map (·.1) ∧ p.field ∈ t.requiredFields := by
    simpa using hcond
  refine ⟨[.key p.key], rfl, rfl, ?_, ?_⟩
  · show Site.next o (.read (.object t)) (.key p.key) ≠ .unread
    rw [Site.next]
    cases hfound : t.property? p.key with
    | some q => exact Site.ofShape_ne_unread q.shape
    | none =>
        exact absurd (List.mem_map_of_mem hproperty) (ObjectType.property?_eq_none_iff.1 hfound)
  · have habsent : Marks o (.read (.object t)) (.object members) .missing ([] ++ [.key p.key]) :=
      .absent (.here _) rfl hproperty hrequired hlacks
    exact habsent

theorem located_object {t : ObjectType} {members : List (String × Json)}
    (ih : ∀ m ∈ members, Locates o m.2 ∧ LocatesBlock o m.2)
    (hf : f ∈ (readForm o path (.object t) (.object members)).findings) :
    Located o (.read (.object t)) path (.object members) f := by
  rw [readForm_object_eq] at hf
  rcases List.mem_append.1 hf with hmember | hmissing
  · obtain ⟨m, hm, hfound⟩ := List.mem_flatMap.1 hmember
    exact located_readMember hm (ih m hm).1 (ih m hm).2 hfound
  · exact located_missing hmissing

theorem locates (o : Options) (j : Json) : Locates o j ∧ LocatesBlock o j := by
  refine inductionOn (fun path form j => ∀ f ∈ (readForm o path form j).findings,
    Located o (.read form) path j f) (fun path chain j => ∀ f ∈ (readBlock o chain path j).2,
    Located o (.extensions chain) path j f) j ?list ?map ?object ?leaf ?extensions ?none
  case list => exact fun path item values ih f hf => located_list ih hf
  case map => exact fun path item members ih f hf => located_map ih hf
  case object => exact fun path t members ih f hf => located_object ih hf
  case leaf =>
    intro path form j hopens f hf
    rw [readForm_of_not_opens o path hopens] at hf
    exact (faults_readLeaf form j).located hf (by simp)
  case extensions => exact fun path chain members ih f hf => located_readBlock ih hf
  case none =>
    intro path chain j hobject f hf
    rw [readBlock_of_ne_object o path hobject] at hf
    rw [List.mem_singleton.1 hf]
    exact located_here (by simp) rfl

end

/-! ### Documents -/

/-- The first step into an object goes to the key of a property, or to the extensions. -/
theorem Site.first_key {o : Options} {t : ObjectType} {step : Step} {steps : List Step}
    (h : along o (.read (.object t)) (step :: steps) ≠ .unread) :
    ∃ name, step = .key name ∧ (name ∈ t.properties.map (·.key) ∨ name = "extensions") := by
  cases step with
  | index i => exact absurd (along_unread o steps) h
  | key name =>
      refine ⟨name, rfl, ?_⟩
      by_contra hother
      rw [not_or] at hother
      have hnext : Site.next o (.read (.object t)) (.key name) = .unread := by
        rw [Site.next, ObjectType.property?_eq_none_iff.2 hother.1]
        exact if_neg hother.2
      rw [along, List.foldl_cons, hnext] at h
      exact h (along_unread o steps)

theorem placeText_of_reached {o : Options} {t : ObjectType}
    (hkeys : ∀ p ∈ t.properties, p.key ≠ "") {steps : List Step}
    (h : Site.along o (.read (.object t)) steps ≠ .unread) :
    Path.placeText ⟨"", steps⟩ = Path.fullText steps := by
  cases steps with
  | nil => rfl
  | cons step steps =>
      obtain ⟨name, rfl, hproperty | rfl⟩ := Site.first_key h
      · obtain ⟨p, hp, rfl⟩ := List.mem_map.1 hproperty
        exact Path.placeText_eq (hkeys p hp) steps
      · exact Path.placeText_eq (by simp) steps

/-- Every error and warning about a document begins with the extensions on the way and the place
that it is about: a value inside the document, or a required key behind an object that lacks it. A
key is never empty; if it were, its place would have the text of the whole document. -/
theorem located_of_readRecord {o : Options} {t : ObjectType} {raw : Json} {f : Finding}
    (hkeys : ∀ p ∈ t.properties, p.key ≠ "") (hf : f ∈ (readRecord o t ⟨"", []⟩ raw).2) :
    ∃ steps, f.message = Finding.scopeText (Site.passed o (.read (.object t)) steps) ++
        Path.fullText steps ++ ": " ++ f.problem.text ∧
      Site.along o (.read (.object t)) steps ≠ .unread ∧
      Marks o (.read (.object t)) raw f.problem steps := by
  obtain ⟨steps, hpoints⟩ := (locates o raw).1 ⟨"", []⟩ (.object t) f hf
  have hpath : f.path = ⟨"", steps⟩ := hpoints.path
  refine ⟨steps, ?_, hpoints.reached, hpoints.marks⟩
  rw [f.message_eq, hpoints.scope, hpath, placeText_of_reached hkeys hpoints.reached]

/-- A null among the numbers of an extension in a document that lacks its asset. -/
theorem located_of_readRecord_center :
    let raw : Json := .object [("extensions", .object [("CESIUM_RTC",
      .object [("center", .array [.number (.int 0), .null, .number (.int 0)])])])]
    let f : Finding := ⟨["CESIUM_RTC"], ⟨"", [.key "extensions", .key "CESIUM_RTC", .key "center",
      .index 1]⟩, .wrongKind .number .null⟩
    (∀ p ∈ Schema.root.properties, p.key ≠ "") ∧ f ∈ (readRecord {} Schema.root ⟨"", []⟩ raw).2 ∧
      ∃ steps, f.message = Finding.scopeText (Site.passed {} (.read (.object Schema.root)) steps) ++
          Path.fullText steps ++ ": " ++ f.problem.text ∧
        Site.along {} (.read (.object Schema.root)) steps ≠ .unread ∧
        Marks {} (.read (.object Schema.root)) raw f.problem steps := by
  intro raw f
  have hkeys : ∀ p ∈ Schema.root.properties, p.key ≠ "" := by
    apply Schema.key_ne_empty
    simp [Schema.allTypes, Schema.coreTypes]
  have hf : f ∈ (readRecord {} Schema.root ⟨"", []⟩ raw).2 := by
    decide +kernel
  exact ⟨hkeys, hf, located_of_readRecord hkeys hf⟩

end Reading

end Gltf
