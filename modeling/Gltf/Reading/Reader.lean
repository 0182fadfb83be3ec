import Gltf.Options
import Gltf.Reading.Finding

/-!
Reading JSON values as records. A value that does not fit leaves its field at the initial value, or
is dropped from its list or map, and leaves at least one finding; reading never fails otherwise. The
recursion is on the JSON value, whatever object types and extensions it passes through.
-/

namespace Gltf.Reading

/-- What a value is read as, if it fits at all, and what was found wrong. -/
structure Outcome where
  value : Option Value
  findings : List Finding

namespace Outcome

def accept (v : Value) : Outcome := ⟨some v, []⟩

def refuse (path : Path) (problem : Problem) : Outcome := ⟨none, [.ofPath path problem]⟩

/-- The value, if nothing was found wrong with it. -/
def clean? (o : Outcome) : Option Value := if o.findings.isEmpty then o.value else none

end Outcome

/-- What the value of a key becomes. -/
inductive Part where
  | field (name : String) (value : Option Value)
  | extensions (entries : Table String Value)
  | extras (value : Json)
  | unknown (key : String) (value : Json)
  | dropped

/-- A record with one part more. -/
def addPart (r : Record) : Part → Record
  | .field name (some v) => r.setField name v
  | .field _ none => r
  | .extensions entries => .mk r.lineage r.fields entries r.extras r.unknown
  | .extras value => .mk r.lineage r.fields r.extensions value r.unknown
  | .unknown key value => .mk r.lineage r.fields r.extensions r.extras (Table.put r.unknown key value)
  | .dropped => r

def readNumber (kind : NumberKind) (path : Path) : Json → Outcome
  | .number n =>
      match n.coerce? kind with
      | some n' => .accept (.json (.number n'))
      | none => .refuse path (.outOfRange n kind)
  | value => .refuse path (.wrongKind .number value.kind)

def readIntEnum (e : IntEnum) (path : Path) : Json → Outcome
  | .number n =>
      match n.coerce? .int32 with
      | some (.int i) =>
          if e.members.contains i then .accept (.ofInt i)
          else .refuse path (.noIntMember (.int i) e.name)
      | _ => .refuse path (.outOfRange n .int32)
  | value => .refuse path (.wrongKind .number value.kind)

def readStringEnum (e : StringEnum) (path : Path) : Json → Outcome
  | .string s =>
      if e.members.contains s then .accept (.ofString s)
      else .refuse path (.noStringMember s e.name)
  | value => .refuse path (.wrongKind .string value.kind)

/-- Reads a value that is no container, or not the one its form wants. -/
def readLeaf (path : Path) (form : Form) (value : Json) : Outcome :=
  match form with
  | .any => .accept (.json value)
  | .bool =>
      match value with
      | .bool b => .accept (.ofBool b)
      | _ => .refuse path (.wrongKind .bool value.kind)
  | .string =>
      match value with
      | .string s => .accept (.ofString s)
      | _ => .refuse path (.wrongKind .string value.kind)
  | .number kind => readNumber kind path value
  | .intEnum e => readIntEnum e path value
  | .stringEnum e => readStringEnum e path value
  | .list _ => .refuse path (.wrongKind .array value.kind)
  | .map _ => .refuse path (.wrongKind .object value.kind)
  | .object t => .refuse path (.wrongKind (.objectOf t.name) value.kind)
  | .unreadable text => .refuse path (.unreadable text)

/-- Reads a value in a shape, given how it is read in each form. -/
def readShape (path : Path) (value : Json) (attempt : Form → Outcome) : Shape → Outcome
  | .required form => attempt form
  | .optional form =>
      match value with
      | .null => .accept .null
      | _ => attempt form
  | .choice forms text _ =>
      match value with
      | .null => .accept .null
      | _ =>
          match forms.findSome? fun form => (attempt form).clean? with
          | some v => .accept v
          | none => .refuse path (.noChoice value.kind text)

/-- What a reader function reports, at the place of the extension. -/
def reportedFindings (path : Path) (r : Reported) : List Finding :=
  r.errors.map (fun text => .ofPath path (.reportedError text)) ++
    r.warnings.map (fun text => .ofPath path (.reportedWarning text))

/-- Gives an extension to a reader function. -/
def callReader (path : Path) (read : List (String × Json) → Except String Reported) :
    Json → Outcome
  | .object members =>
      match read members with
      | .ok reported => ⟨reported.value, reportedFindings path reported⟩
      | .error text => .refuse path (.readerFailed text)
  | value => .refuse path (.wrongKind .object value.kind)

/-- An extension as it was read; where nothing was made of it the JSON stays. -/
def extensionOutcome (name : String) (raw : Json) (o : Outcome) : Outcome :=
  ⟨some (o.value.getD (.json raw)), o.findings.map (·.within name)⟩

/-- The required keys that an object lacks. -/
def missingFindings (t : ObjectType) (path : Path) (keys : List String) : List Finding :=
  (t.properties.filter fun p => !keys.contains p.key && t.requiredFields.contains p.field).map
    fun p => .ofPath (path.key p.key) .missing

/-- The record of the parts of an object. -/
def assemble (t : ObjectType) (path : Path) (keys : List String)
    (parts : List (Part × List Finding)) : Outcome :=
  ⟨some (.record ((parts.map (·.1)).foldl addPart t.blank)),
    parts.flatMap (·.2) ++ missingFindings t path keys⟩

/-- The list of those items that fit. -/
def assembleList (outcomes : List Outcome) : Outcome :=
  ⟨some (.list (outcomes.filterMap (·.value))), outcomes.flatMap (·.findings)⟩

/-- The entries that fit. -/
def presentEntries (outcomes : List (String × Outcome)) : List (String × Value) :=
  outcomes.filterMap fun (key, o) => o.value.map (key, ·)

def assembleMap (outcomes : List (String × Outcome)) : Outcome :=
  ⟨some (.map (presentEntries outcomes)), outcomes.flatMap (·.2.findings)⟩

mutual

/-- Reads a value in a form. -/
def readForm (o : Options) (path : Path) (form : Form) : Json → Outcome
  | .object members =>
      match form with
      | .object t => assemble t path (members.map (·.1)) (readMembers o t path members)
      | .map item => assembleMap (readEntries o item path members)
      | _ => readLeaf path form (.object members)
  | .array items =>
      match form with
      | .list item => assembleList (readItems o item path 0 items)
      | _ => readLeaf path form (.array items)
  | value => readLeaf path form value
termination_by structural value => value

def readItems (o : Options) (item : Shape) (path : Path) (i : Nat) : List Json → List Outcome
  | [] => []
  | value :: values =>
      readShape (path.index i) value (fun form => readForm o (path.index i) form value) item ::
        readItems o item path (i + 1) values
termination_by structural values => values

def readEntries (o : Options) (item : Shape) (path : Path) :
    List (String × Json) → List (String × Outcome)
  | [] => []
  | (key, value) :: members =>
      (key, readShape (path.key key) value (fun form => readForm o (path.key key) form value)
        item) :: readEntries o item path members
termination_by structural members => members

/-- Reads the members of an object in their order. -/
def readMembers (o : Options) (t : ObjectType) (path : Path) :
    List (String × Json) → List (Part × List Finding)
  | [] => []
  | (key, value) :: members =>
      (match t.property? key with
        | some p =>
            let outcome := readShape (path.key key) value
              (fun form => readForm o (path.key key) form value) p.shape
            (.field p.field outcome.value, outcome.findings)
        | none =>
            if key = "extensions" then
              match value with
              | .object entries =>
                  let outcomes := readExtensions o t.lineage.chain (path.key key) entries
                  (.extensions (presentEntries outcomes), outcomes.flatMap (·.2.findings))
              | _ => (.extensions [], [.ofPath (path.key key) (.wrongKind .object value.kind)])
            else if key = "extras" then (.extras value, [])
            else if o.captureUnknown then (.unknown key value, [])
            else (.dropped, [])) ::
        readMembers o t path members
termination_by structural members => members

/-- Reads the extensions of an object of the given kinds. -/
def readExtensions (o : Options) (chain : List String) (path : Path) :
    List (String × Json) → List (String × Outcome)
  | [] => []
  | (name, value) :: entries =>
      (name,
        if o.resolve chain name = .disabled then ⟨none, []⟩
        else
          match o.handler? chain name with
          | none => .accept (.json value)
          | some (.record t) =>
              extensionOutcome name value (readForm o (path.key name) (.object t) value)
          | some (.function _ read) =>
              extensionOutcome name value (callReader (path.key name) read value)) ::
        readExtensions o chain path entries
termination_by structural entries => entries

end

/-- Reads a value as an object of a type. -/
def readRecord (o : Options) (t : ObjectType) (path : Path) (value : Json) :
    Option Record × List Finding :=
  let outcome := readForm o path (.object t) value
  (outcome.value.bind Value.record?, outcome.findings)

end Gltf.Reading
