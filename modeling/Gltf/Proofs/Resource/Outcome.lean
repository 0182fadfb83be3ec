import Gltf.Proofs.Glb.RoundTrip
import Gltf.Proofs.Json.LongIntegers
import Gltf.Proofs.Reading.Fields
import Gltf.Proofs.Resource.Stages
import Mathlib

/-!
What comes out of a read. A file without a root object is answered with one error and nothing else.
Any other gives the document of its root object with resources brought in, and the messages of the
container, of the root object and of the stages, each list behind the one before. No buffer of that
document has less content than it declares.
-/

namespace Gltf

/-! ### Messages -/

theorem messages_append {ι : Type} [ToString ι] (severity : Severity) (a b : List (Diagnostic ι)) :
    messages severity (a ++ b) = messages severity a ++ messages severity b := by
  simp [messages]

theorem messages_flatten {ι : Type} [ToString ι] (severity : Severity)
    (found : List (List (Diagnostic ι))) :
    messages severity found.flatten = found.flatMap (messages severity) := by
  induction found with
  | nil => rfl
  | cons list lists ih => rw [List.flatten_cons, messages_append, ih, List.flatMap_cons]

theorem messages_container (severity : Severity) (warnings : List Glb.Warning) :
    messages severity (warnings.map (Diagnostic.container (ι := Int))) =
      if severity = .warning then warnings.map Glb.Warning.message else [] := by
  rw [messages, List.filter_map, List.map_map]
  cases severity with
  | error => simp [Function.comp_def, Diagnostic.severity]
  | warning => simp [Function.comp_def, Diagnostic.severity, Diagnostic.message]

theorem messages_reading (severity : Severity) (findings : List Finding) :
    messages severity (findings.map (Diagnostic.reading (ι := Int))) =
      (findings.filter (·.severity = severity)).map Finding.message := by
  rw [messages, List.filter_map, List.map_map]
  rfl

/-! ### Files -/

/-- Files without a root object, and why they have none. -/
inductive Rootless (bs : Bytes) : Unreadable → Prop
  | container {problem : Glb.Problem} (glb : Glb.isGlb bs = true)
      (h : Glb.read bs = .error problem) : Rootless bs (.container problem)
  | json {file : Glb.Contents} {error : Json.ParseError} (opened : contents bs = .ok file)
      (h : Json.parse file.json = .error error) (reported : error ≠ .integerTooLong) :
      Rootless bs (.json error)
  | root {file : Glb.Contents} {value : Json} (opened : contents bs = .ok file)
      (h : Json.parse file.json = .ok value) (other : ∀ members, value ≠ .object members) :
      Rootless bs (.root value.kind)

theorem contents_eq_error_iff {bs : Bytes} {problem : Glb.Problem} :
    contents bs = .error problem ↔ Glb.isGlb bs = true ∧ Glb.read bs = .error problem := by
  rw [contents]
  split_ifs with hglb <;> simp [hglb]

theorem rootless_or_object (bs : Bytes) :
    (∃ cause, Rootless bs cause) ∨
      ∃ file, contents bs = .ok file ∧
        (Json.parse file.json = .error .integerTooLong ∨
          ∃ members, Json.parse file.json = .ok (.object members)) := by
  cases hopened : contents bs with
  | error problem =>
      obtain ⟨hglb, hread⟩ := contents_eq_error_iff.1 hopened
      exact .inl ⟨_, .container hglb hread⟩
  | ok file =>
      cases hparsed : Json.parse file.json with
      | error error =>
          by_cases hreported : error = .integerTooLong
          · exact .inr ⟨file, rfl, .inl (hreported ▸ hparsed)⟩
          · exact .inl ⟨_, .json hopened hparsed hreported⟩
      | ok value =>
          by_cases hobject : ∃ members, value = .object members
          · obtain ⟨members, rfl⟩ := hobject
            exact .inr ⟨file, rfl, .inr ⟨members, hparsed⟩⟩
          · exact .inl ⟨_, .root hopened hparsed (not_exists.1 hobject)⟩

section
variable {m : Type → Type} [Monad m] {c : Collaborators m} {o : Options} {ro : ReadOptions}
  {bs : Bytes}

theorem read_of_rootless {cause : Unreadable} (h : Rootless bs cause) :
    read c o ro bs = pure (.ok (.unreadable cause)) := by
  cases h with
  | container glb h => rw [read, contents_eq_error_iff.2 ⟨glb, h⟩]
  | @json file error opened h reported =>
      rw [read, opened]
      dsimp only
      rw [readContents, h]
      cases error with
      | integerTooLong => exact absurd rfl reported
      | _ => rfl
  | @root file value opened h other =>
      rw [read, opened]
      dsimp only
      rw [readContents, h]
      cases value with
      | object members => exact absurd rfl (other members)
      | _ => rfl

theorem read_of_too_long {file : Glb.Contents} (opened : contents bs = .ok file)
    (h : Json.parse file.json = .error .integerTooLong) :
    read c o ro bs = pure (.error .integerTooLong) := by
  rw [read, opened]
  dsimp only
  rw [readContents, h]

end

/-! ### Documents -/

section
variable {σ : Type} {c : Collaborators (StateM σ)} {o : Options} {ro : ReadOptions} {bs : Bytes}
  {s s' : σ} {result : ReadResult}

/-- How a document and its messages come about: the stages pass over what the root object says, and
the messages are those of the container, of the root object and of each stage. -/
inductive Assembled (c : Collaborators (StateM σ)) (o : Options) (ro : ReadOptions) (bs : Bytes)
    (s : σ) (document : Document) (errors warnings : List String) (s' : σ) : Prop
  | mk {file : Glb.Contents} {members : List (String × Json)} {record : Record}
      {findings : List Finding} {found : List (List Diagnostic)}
      (opened : contents bs = .ok file) (parsed : Json.parse file.json = .ok (.object members))
      (root : Reading.readRecord o Schema.root ⟨"", []⟩ (.object members) = (some record, findings))
      (passes : Passes (stages c ro file.binary) (Document.ofRecord record) s found document s')
      (attached : (Document.ofRecord record).Attached document)
      (errors_eq : errors = (findings.filter (·.severity = .error)).map Finding.message ++
        found.flatMap (messages .error))
      (warnings_eq : warnings = file.warnings.map Glb.Warning.message ++
        ((findings.filter (·.severity = .warning)).map Finding.message ++
          found.flatMap (messages .warning))) :
      Assembled c o ro bs s document errors warnings s'

theorem ofMembers_eq {members : List (String × Json)} {record : Record} {findings : List Finding}
    (root : Reading.readRecord o Schema.root ⟨"", []⟩ (.object members) =
      (some record, findings)) :
    Draft.ofMembers o members = ⟨Document.ofRecord record, findings.map .reading⟩ := by
  rw [Draft.ofMembers, root]
  rfl

/-- What a read of a root object comes to. -/
theorem passes_of_read {file : Glb.Contents} {members : List (String × Json)} {record : Record}
    {findings : List Finding} (opened : contents bs = .ok file)
    (parsed : Json.parse file.json = .ok (.object members))
    (root : Reading.readRecord o Schema.root ⟨"", []⟩ (.object members) = (some record, findings))
    (h : (read c o ro bs).run s = (.ok result, s')) :
    ∃ document found, Passes (stages c ro file.binary) (Document.ofRecord record) s found document s' ∧
      result = .document document (file.warnings.map Diagnostic.container ++
        (findings.map Diagnostic.reading ++ found.flatten)) := by
  rw [read, opened] at h
  dsimp only at h
  rw [readContents, parsed] at h
  dsimp only at h
  rw [run_bind, ofMembers_eq root, Draft.attach_eq_through] at h
  cases hrun : (Draft.through (stages c ro file.binary)
      ⟨Document.ofRecord record, findings.map .reading⟩).run s with
  | mk answer s₁ =>
      rw [hrun] at h
      cases answer with
      | error cause => cases h
      | ok d =>
          obtain ⟨found, hpasses, hfound⟩ := Passes.of_through hrun
          cases h
          exact ⟨d.document, found, hpasses, by rw [hfound]⟩

/-- A read of a root object gives a document once the stages are passed. -/
theorem read_of_passes {file : Glb.Contents} {members : List (String × Json)} {record : Record}
    {findings : List Finding} {document : Document} {found : List (List Diagnostic)}
    (opened : contents bs = .ok file) (parsed : Json.parse file.json = .ok (.object members))
    (root : Reading.readRecord o Schema.root ⟨"", []⟩ (.object members) = (some record, findings))
    (h : Passes (stages c ro file.binary) (Document.ofRecord record) s found document s') :
    (read c o ro bs).run s =
      (.ok (.document document (file.warnings.map Diagnostic.container ++
        (findings.map Diagnostic.reading ++ found.flatten))), s') := by
  rw [read, opened]
  dsimp only
  rw [readContents, parsed]
  dsimp only
  rw [run_bind, ofMembers_eq root, Draft.attach_eq_through, h.through]
  rfl

/-- A document comes from a root object. -/
theorem passes_of_document {document : Document} {diagnostics : List Diagnostic}
    (h : (read c o ro bs).run s = (.ok (.document document diagnostics), s')) :
    ∃ file members, contents bs = .ok file ∧ Json.parse file.json = .ok (.object members) ∧
      ∃ record findings found,
        Reading.readRecord o Schema.root ⟨"", []⟩ (.object members) = (some record, findings) ∧
        Passes (stages c ro file.binary) (Document.ofRecord record) s found document s' ∧
        diagnostics = file.warnings.map Diagnostic.container ++
          (findings.map Diagnostic.reading ++ found.flatten) := by
  rcases rootless_or_object bs with ⟨cause, hcause⟩ | ⟨file, opened, hlong | ⟨members, parsed⟩⟩
  · rw [read_of_rootless hcause] at h
    cases h
  · rw [read_of_too_long opened hlong] at h
    cases h
  · obtain ⟨record, findings, root, -⟩ :=
      Reading.exists_isInstance o Schema.root ⟨"", []⟩ members
    obtain ⟨document', found, hpasses, hresult⟩ := passes_of_read opened parsed root h
    cases hresult
    exact ⟨file, members, opened, parsed, record, findings, found, root, hpasses, rfl⟩

theorem assembled_of_document {document : Document}
    (h : (read c o ro bs).run s = (.ok result, s')) (hdocument : result.document? = some document) :
    Assembled c o ro bs s document result.errors result.warnings s' := by
  cases result with
  | unreadable cause => cases hdocument
  | document d diagnostics =>
      obtain rfl : d = document := Option.some.inj hdocument
      obtain ⟨file, members, opened, parsed, record, findings, found, root, hpasses, rfl⟩ :=
        passes_of_document h
      refine .mk opened parsed root hpasses hpasses.attached ?_ ?_
      · rw [ReadResult.errors, messages_append, messages_container, messages_append,
          messages_reading, messages_flatten, if_neg (by decide), List.nil_append]
      · rw [ReadResult.warnings, messages_append, messages_container, messages_append,
          messages_reading, messages_flatten, if_pos rfl]

theorem rootless_of_read (h : (read c o ro bs).run s = (.ok result, s'))
    (hnone : result.document? = none) : ∃ cause, Rootless bs cause := by
  rcases rootless_or_object bs with hcause | ⟨file, opened, hlong | ⟨members, parsed⟩⟩
  · exact hcause
  · rw [read_of_too_long opened hlong] at h
    cases h
  · obtain ⟨record, findings, root, -⟩ :=
      Reading.exists_isInstance o Schema.root ⟨"", []⟩ members
    obtain ⟨document, found, -, rfl⟩ := passes_of_read opened parsed root h
    cases hnone

/-- A read that ends with a result gives no document exactly for a file without a root object, and
then one error, which says why, and no warning. Otherwise the document is that of the root object
with resources brought in, and the messages are put together in order. -/
theorem read_outcome (h : (read c o ro bs).run s = (.ok result, s')) :
    (result.document? = none ↔ ∃ cause, Rootless bs cause) ∧
    (∀ cause, Rootless bs cause → result.errors = [cause.message] ∧ result.warnings = []) ∧
    ∀ document, result.document? = some document →
      Assembled c o ro bs s document result.errors result.warnings s' := by
  have hrootless : ∀ cause, Rootless bs cause → result = .unreadable cause := by
    intro cause hcause
    rw [read_of_rootless hcause] at h
    cases h
    rfl
  refine ⟨⟨rootless_of_read h, ?_⟩, ?_, fun document => assembled_of_document h⟩
  · rintro ⟨cause, hcause⟩
    rw [hrootless cause hcause]
    rfl
  · intro cause hcause
    rw [hrootless cause hcause]
    exact ⟨rfl, rfl⟩

end

set_option maxRecDepth 8192 in
/-- A container whose binary chunk comes third and belongs to no buffer, as the first one is loaded,
though not in full. -/
theorem read_outcome_misplaced_chunk :
    let bs : Bytes :=
      [103, 108, 84, 70, 2, 0, 0, 0, 128, 0, 0, 0, 88, 0, 0, 0, 74, 83, 79, 78, 123, 34, 115, 99,
       101, 110, 101, 34, 58, 50, 49, 52, 55, 52, 56, 51, 54, 52, 56, 44, 34, 98, 117, 102, 102,
       101, 114, 115, 34, 58, 91, 123, 34, 117, 114, 105, 34, 58, 34, 98, 34, 44, 34, 98, 121, 116,
       101, 76, 101, 110, 103, 116, 104, 34, 58, 57, 125, 93, 44, 34, 105, 109, 97, 103, 101, 115,
       34, 58, 91, 123, 34, 109, 105, 109, 101, 84, 121, 112, 101, 34, 58, 34, 120, 34, 125, 93,
       125, 32, 0, 0, 0, 0, 7, 0, 0, 0, 4, 0, 0, 0, 66, 73, 78, 0, 1, 2, 3, 4]
    let c : Collaborators (StateM Unit) := { loader := some fun _ => pure (.ok [1]) }
    let document : Document :=
      { buffers := [{ uri := some "b", byteLength := 9 }], images := [{ mimeType := some "x" }] }
    let result : ReadResult := .document document
      [.container (.misplacedBinary 2),
        .reading (.ofPath ⟨"", [.key "scene"]⟩ (.outOfRange (.int 2147483648) .int32)),
        .reading (.ofPath ⟨"", [.key "asset"]⟩ .missing), .binary .hasUri,
        .buffer 0 (.tooShort 1 9), .image 0 (.mediaType "x")]
    (read c {} {} bs).run () = (.ok result, ()) ∧
      Assembled c {} {} bs () document
        ["asset: missing required property", "GLB has a BIN chunk but buffers[0] has a uri",
          "buffers[0]: resolved 1 bytes but byteLength is 9",
          "images[0]: unsupported image MIME type 'x'"]
        ["GLB BIN chunk is chunk 2, expected it directly after the JSON chunk.",
          "scene: value 2147483648 has a fractional component or is out of range for int32"]
        () := by
  intro bs c document result
  let file : Glb.Contents :=
    ⟨(bs.drop 20).take 88, some [1, 2, 3, 4], [.misplacedBinary 2]⟩
  let members : List (String × Json) :=
    [("scene", .number (.int 2147483648)),
      ("buffers", .array [.object [("uri", .string "b"), ("byteLength", .number (.int 9))]]),
      ("images", .array [.object [("mimeType", .string "x")]])]
  have hopened : contents bs = .ok file := by decide +kernel
  have hparsed : Json.parse file.json = .ok (.object members) := rfl
  have hmembers : Draft.ofMembers {} members = ⟨document,
      [.reading (.ofPath ⟨"", [.key "scene"]⟩ (.outOfRange (.int 2147483648) .int32)),
        .reading (.ofPath ⟨"", [.key "asset"]⟩ .missing)]⟩ := rfl
  have hread : (read c {} {} bs).run () = (.ok result, ()) := by
    rw [read, hopened]
    dsimp only
    rw [readContents, hparsed]
    dsimp only
    rw [hmembers]
    rfl
  have herrors : result.errors =
      ["asset: missing required property", "GLB has a BIN chunk but buffers[0] has a uri",
        "buffers[0]: resolved 1 bytes but byteLength is 9",
        "images[0]: unsupported image MIME type 'x'"] := by decide +kernel
  have hwarnings : result.warnings =
      ["GLB BIN chunk is chunk 2, expected it directly after the JSON chunk.",
        "scene: value 2147483648 has a fractional component or is out of range for int32"] := by
    decide +kernel
  have hassembled := (read_outcome hread).2.2 document rfl
  rw [herrors, hwarnings] at hassembled
  exact ⟨hread, hassembled⟩

/-! ### Buffers -/

/-- No buffer of a document that is read has less content than it declares, and those that were
decoded from compressed primitives, behind the declared ones, have just as much. -/
theorem read_covers_buffers {σ : Type} {c : Collaborators (StateM σ)} {o : Options}
    {ro : ReadOptions} {bs : Bytes} {s s' : σ} {document : Document} {diagnostics : List Diagnostic}
    (h : (read c o ro bs).run s = (.ok (.document document diagnostics), s')) :
    (∀ b ∈ document.buffers, b.Covered) ∧
      ∃ file members, contents bs = .ok file ∧ Json.parse file.json = .ok (.object members) ∧
        ∀ b ∈ document.buffers.drop (Draft.ofMembers o members).document.buffers.length,
          b.Filled := by
  obtain ⟨opened, parsed, root, -, attached, -, -⟩ := assembled_of_document h rfl
  rename_i file members record findings found
  obtain ⟨own, more, happend, hgain, hfilled⟩ := attached.buffers
  have hempty : ∀ b ∈ (Document.ofRecord record).buffers, b.Covered := by
    intro b hb data hdata
    obtain ⟨record', findings', root', hinstance⟩ :=
      Reading.exists_isInstance o Schema.root ⟨"", []⟩ members
    rw [root, Prod.mk.injEq, Option.some.injEq] at root'
    obtain ⟨rfl, -⟩ := root'
    rw [Reading.data_of_mem_buffers hinstance hb] at hdata
    cases hdata
  refine ⟨fun b hb => ?_, file, members, opened, parsed, ?_⟩
  · rw [happend, List.mem_append] at hb
    rcases hb with hb | hb
    · exact hgain.covered hempty b hb
    · exact (hfilled b hb).covered
  · rw [ofMembers_eq root, happend, hgain.length_eq, List.drop_left]
    exact hfilled

set_option maxRecDepth 8192 in
/-- The offset of a view is negative, and its content goes behind what was loaded. -/
theorem read_covers_spliced_buffer :
    let json : Bytes :=
      [123, 34, 98, 117, 102, 102, 101, 114, 115, 34, 58, 91, 123, 34, 117, 114, 105, 34, 58, 34,
       98, 34, 44, 34, 98, 121, 116, 101, 76, 101, 110, 103, 116, 104, 34, 58, 50, 125, 93, 44, 34,
       98, 117, 102, 102, 101, 114, 86, 105, 101, 119, 115, 34, 58, 91, 123, 34, 98, 117, 102, 102,
       101, 114, 34, 58, 48, 44, 34, 98, 121, 116, 101, 79, 102, 102, 115, 101, 116, 34, 58, 45, 49,
       44, 34, 98, 121, 116, 101, 76, 101, 110, 103, 116, 104, 34, 58, 50, 44, 34, 101, 120, 116,
       101, 110, 115, 105, 111, 110, 115, 34, 58, 123, 34, 69, 88, 84, 95, 109, 101, 115, 104, 111,
       112, 116, 95, 99, 111, 109, 112, 114, 101, 115, 115, 105, 111, 110, 34, 58, 123, 34, 98, 117,
       102, 102, 101, 114, 34, 58, 48, 44, 34, 98, 121, 116, 101, 76, 101, 110, 103, 116, 104, 34,
       58, 50, 44, 34, 98, 121, 116, 101, 83, 116, 114, 105, 100, 101, 34, 58, 52, 44, 34, 99, 111,
       117, 110, 116, 34, 58, 49, 44, 34, 109, 111, 100, 101, 34, 58, 34, 65, 84, 84, 82, 73, 66,
       85, 84, 69, 83, 34, 125, 125, 125, 93, 125]
    let c : Collaborators (StateM Unit) :=
      { loader := some fun _ => pure (.ok [1, 2])
        meshopt := some fun _ _ _ _ _ => pure (.ok [5, 6, 7, 8]) }
    ∃ document diagnostics,
      (read c {} {} json).run () = (.ok (.document document diagnostics), ()) ∧
        document.buffers.map Buffer.data = [some [1, 2, 5, 6, 7, 8]] ∧
        ∀ b ∈ document.buffers, b.Covered := by
  intro json c
  let members : List (String × Json) :=
    [("buffers", .array [.object [("uri", .string "b"), ("byteLength", .number (.int 2))]]),
      ("bufferViews", .array
        [.object
          [("buffer", .number (.int 0)), ("byteOffset", .number (.int (-1))),
            ("byteLength", .number (.int 2)),
            ("extensions", .object
              [("EXT_meshopt_compression", .object
                [("buffer", .number (.int 0)), ("byteLength", .number (.int 2)),
                  ("byteStride", .number (.int 4)), ("count", .number (.int 1)),
                  ("mode", .string "ATTRIBUTES")])])]])]
  have hjson : Json.parse json = .ok (.object members) := rfl
  obtain ⟨document, diagnostics, hread, hdata⟩ : ∃ document diagnostics,
      (read c {} {} json).run () = (.ok (.document document diagnostics), ()) ∧
        document.buffers.map Buffer.data = [some [1, 2, 5, 6, 7, 8]] := by
    rw [read_json hjson, readContents, hjson]
    exact ⟨_, _, rfl, rfl⟩
  exact ⟨document, diagnostics, hread, hdata, (read_covers_buffers hread).1⟩

/-! ### Texts that are not parsed -/

/-- Parsing gives a value or reports an error exactly if it comes to no integer with too many
digits, and so it does where no more digits stand in a row than are read. What a read makes of a
text that is not parsed follows from that: a file without a document, whose error is that of the
text, or no result at all. -/
theorem parse_answers_iff {m : Type → Type} [Monad m] (bs : Bytes) :
    (((∃ value, Json.parse bs = .ok value) ∨
        ∃ error, Json.parse bs = .error error ∧ error ≠ .integerTooLong) ↔
      ¬Json.HoldsLongInteger bs) ∧
    ((∀ text digits, Utf8.decode (Json.unmarked bs) = .ok text → digits <:+: text →
        (∀ c ∈ digits, Json.isDigit c = true) → digits.length ≤ Json.digitLimit) →
      ¬Json.HoldsLongInteger bs) ∧
    ∀ file error, contents bs = .ok file → Json.parse file.json = .error error →
      (¬Json.HoldsLongInteger file.json ∧ ∀ (c : Collaborators m) (o : Options) (ro : ReadOptions),
        read c o ro bs = pure (.ok (.unreadable (.json error)))) ∨
      Json.HoldsLongInteger file.json ∧ ∀ (c : Collaborators m) (o : Options) (ro : ReadOptions),
        read c o ro bs = pure (.error .integerTooLong) := by
  refine ⟨?_, Json.not_holdsLongInteger, fun file error opened herror => ?_⟩
  · rw [← Json.parse_tooLong_iff]
    cases Json.parse bs with
    | ok value => simp
    | error error => simp
  · by_cases hlong : error = .integerTooLong
    · subst hlong
      exact .inr ⟨Json.parse_tooLong_iff.1 herror, fun c o ro => read_of_too_long opened herror⟩
    · refine .inl ⟨fun hholds => hlong ?_, fun c o ro =>
        read_of_rootless (.json opened herror hlong)⟩
      rw [← Json.parse_tooLong_iff, herror] at hholds
      exact Except.error.inj hholds

/-- An array that is not closed. -/
theorem parse_answers_unclosed :
    Json.parse [0x5b, 0x31] = .error (.fault .expectingComma 2) ∧
      ¬Json.HoldsLongInteger [0x5b, 0x31] ∧
      ∀ (c : Collaborators Id) (o : Options) (ro : ReadOptions),
        read c o ro [0x5b, 0x31] = pure (.ok (.unreadable (.json (.fault .expectingComma 2)))) := by
  have hparse : Json.parse [0x5b, 0x31] = .error (.fault .expectingComma 2) := rfl
  obtain ⟨-, hshort, hread⟩ := parse_answers_iff (m := Id) [0x5b, 0x31]
  have hholds : ¬Json.HoldsLongInteger [0x5b, 0x31] := by
    refine hshort fun text digits hdecode hdigits _ => ?_
    obtain rfl : ['[', '1'] = text := Except.ok.inj hdecode
    exact hdigits.length_le.trans (by decide)
  rcases hread ⟨[0x5b, 0x31], none, []⟩ _ rfl hparse with ⟨-, hread⟩ | ⟨hlong, -⟩
  · exact ⟨hparse, hholds, hread⟩
  · exact absurd hlong hholds

/-- A number of too many digits, which is well-formed, is neither read nor refused. -/
theorem parse_raises_long_integer :
    let bs : Bytes := List.replicate 4301 0x31
    Json.parse bs = .error .integerTooLong ∧
      ¬((∃ value, Json.parse bs = .ok value) ∨
        ∃ error, Json.parse bs = .error error ∧ error ≠ .integerTooLong) ∧
      ∀ (c : Collaborators Id) (o : Options) (ro : ReadOptions),
        read c o ro bs = pure (.error .integerTooLong) := by
  intro bs
  have hparse : Json.parse bs = .error .integerTooLong :=
    Json.parse_tooLong_iff.2 (Json.holdsLongInteger_ones (by decide))
  refine ⟨hparse, ?_, fun c o ro => read_of_too_long rfl hparse⟩
  rintro (⟨value, hvalue⟩ | ⟨error, herror, hne⟩)
  · rw [hparse] at hvalue
    cases hvalue
  · rw [hparse] at herror
    exact hne (Except.error.inj herror).symm

end Gltf
