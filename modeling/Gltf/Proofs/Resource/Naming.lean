import Gltf.Proofs.Resource.Numbering
import Gltf.Proofs.Resource.Returns
import Mathlib

/-!
What the messages of a read name. A message about an element has the index of the element in its
list, so it names the entry that the index stands for, like every look-up does. That is the entry
with the index itself only if no entry up to it is left out.
-/

namespace Gltf

open Reading (kept)

/-! ### Messages -/

namespace Meshopt

section
variable {σ : Type} {decoder : Option (Decoder (StateM σ))} {i : ℕ} {r : Result} {view : BufferView}
  {views : List BufferView} {s : σ} {q : ℕ × Problem Int}

/-- A problem with a view, which has the index of the view; the buffers are as the views before it
have left them. -/
def Stuck (decoder : Option (Decoder (StateM σ))) (i : ℕ) (r : Result) (views : List BufferView)
    (s : σ) (q : ℕ × Problem Int) : Prop :=
  ∃ k view c t, q.1 = i + k ∧ views[k]? = some view ∧ compression? view = some c ∧
    ((decodeView decoder ((decodeViews decoder i r (views.take k)).run s).1.buffers view c).run t).1 =
      .ok (.problem q.2)

theorem stuck_of_mem_singleton
    (h : q ∈ ((decodeViews decoder i r [view]).run s).1.problems) :
    q ∈ r.problems ∨ Stuck decoder i r (view :: views) s q := by
  rw [decodeViews] at h
  cases hc : compression? view with
  | none =>
      rw [hc] at h
      exact .inl h
  | some c =>
      rw [hc] at h
      dsimp only at h
      rw [run_bind] at h
      cases hanswer : ((decodeView decoder r.buffers view c).run s).1 with
      | error cause =>
          rw [hanswer] at h
          exact .inl h
      | ok outcome =>
          rw [hanswer] at h
          cases outcome with
          | problem problem =>
              refine (List.mem_append.1 h).imp_right fun hq => ?_
              obtain rfl := List.mem_singleton.1 hq
              exact ⟨0, view, c, s, rfl, rfl, hc, hanswer⟩
          | decoded buffers => exact .inl h

theorem stuck_of_mem_decodeViews (hr : r.fault = none)
    (h : q ∈ ((decodeViews decoder i r views).run s).1.problems) :
    q ∈ r.problems ∨ Stuck decoder i r views s q := by
  induction views generalizing i r s with
  | nil => exact .inl h
  | cons view views ih =>
      -- As for faults: the first view breaks off, or the rest runs on what it leaves.
      by_cases hfirst : ((decodeViews decoder i r [view]).run s).1.fault.isSome
      · rw [run_decodeViews_cons decoder hr, if_pos hfirst] at h
        exact stuck_of_mem_singleton h
      · have hstep (views : List BufferView) :=
          (run_decodeViews_cons decoder hr view views).trans (if_neg hfirst)
        rw [hstep] at h
        rcases ih (Option.not_isSome_iff_eq_none.1 hfirst) h with hbefore | hbehind
        · exact stuck_of_mem_singleton hbefore
        · obtain ⟨k, view', c, t, hq, hview', hc, hproblem⟩ := hbehind
          refine .inr ⟨k + 1, view', c, t, by omega, hview', hc, ?_⟩
          rw [List.take_succ_cons, hstep]
          exact hproblem

end

end Meshopt

namespace Draco

section
variable {σ : Type} {decoder : Option (Decoder (StateM σ))} {r : Result} {s : σ}
  {q : Location × Problem Int}

theorem mem_problems_decodePrimitive {place : Location} {p : MeshPrimitive}
    (h : q ∈ ((decodePrimitive decoder place r p).run s).1.problems) :
    q ∈ r.problems ∨ q.1 = place ∧
      q ∈ ((decodePrimitive decoder place ⟨r.document, 0, []⟩ p).run s).1.problems := by
  have hhere (problems : List (Problem Int)) (h : q ∈ r.problems ++ problems.map (place, ·)) :
      q ∈ r.problems ∨ q.1 = place ∧ q ∈ problems.map (place, ·) := by
    refine (List.mem_append.1 h).imp_right fun hq => ⟨?_, hq⟩
    obtain ⟨problem, -, rfl⟩ := List.mem_map.1 hq
    rfl
  rw [decodePrimitive.eq_def] at h
  rw [decodePrimitive.eq_def]
  cases hc : compression? p with
  | none =>
      rw [hc] at h
      exact .inl h
  | some c =>
      cases decoder with
      | none =>
          rw [hc] at h
          exact hhere [.noDecoder] h
      | some decode =>
          rw [hc] at h
          dsimp only at h ⊢
          rw [run_bind] at h ⊢
          cases hanswer : ((decodeMesh decode r.document c).run s).1 with
          | error problem =>
              rw [hanswer] at h
              exact hhere [problem] h
          | ok mesh =>
              rw [hanswer] at h
              exact hhere _ h

theorem exists_of_mem_decodePrimitives {primitives : List (Location × MeshPrimitive)}
    (h : q ∈ ((decodePrimitives decoder r primitives).run s).1.problems) :
    q ∈ r.problems ∨ ∃ n p t, primitives[n]? = some (q.1, p) ∧
      q ∈ ((decodePrimitive decoder q.1
        ⟨((decodePrimitives decoder r (primitives.take n)).run s).1.document, 0, []⟩ p).run
          t).1.problems := by
  induction primitives generalizing r s with
  | nil => exact .inl h
  | cons primitive primitives ih =>
      obtain ⟨place, p⟩ := primitive
      rw [decodePrimitives, run_bind] at h
      rcases ih h with hbefore | ⟨n, p', t, hn, hfound⟩
      · rcases mem_problems_decodePrimitive hbefore with hbefore | ⟨rfl, hhere⟩
        · exact .inl hbefore
        · exact .inr ⟨0, p, s, rfl, hhere⟩
      · exact .inr ⟨n + 1, p', t, hn, hfound⟩

/-- A place leads to its mesh and to its primitive in it. -/
theorem exists_of_mem_located {meshes : List Mesh} {place : Location} {p : MeshPrimitive}
    (h : (place, p) ∈ located meshes) :
    ∃ mesh, meshes[place.mesh]? = some mesh ∧ mesh.primitives[place.primitive]? = some p := by
  obtain ⟨⟨mesh, i⟩, hmesh, hplace⟩ := List.mem_flatMap.1 h
  obtain ⟨⟨p', j⟩, hp, heq⟩ := List.mem_map.1 hplace
  cases heq
  exact ⟨mesh, List.mem_zipIdx_iff_getElem?.1 hmesh, List.mem_zipIdx_iff_getElem?.1 hp⟩

end

end Draco

/-- The binary chunk looks at the first buffer only. -/
theorem problem_bindBinary_cons (bytes : Bytes) (b : Buffer) (bs : List Buffer) :
    (bindBinary bytes (b :: bs)).2 = (bindBinary bytes [b]).2 := by
  rw [bindBinary, bindBinary]
  split_ifs <;> rfl

section
variable {σ : Type} {c : Collaborators (StateM σ)} {ro : ReadOptions} {chunk : Option Bytes}
  {o : Options} {members : List (String × Json)} {s : σ}

/-- What a message is about, if it names an element: it has come up with the element that its index
stands for. -/
inductive Accurate (c : Collaborators (StateM σ)) (ro : ReadOptions) (chunk : Option Bytes)
    (o : Options) (members : List (String × Json)) (s : σ) : Diagnostic → Prop
  | container (warning : Glb.Warning) : Accurate c ro chunk o members s (.container warning)
  | reading (finding : Finding) : Accurate c ro chunk o members s (.reading finding)
  | noBuffers (none : kept (Collection.buffers.entries members) = []) :
      Accurate c ro chunk o members s (.binary .noBuffers)
  | binary {bytes : Bytes} {b : Buffer} {problem : BinaryProblem} (given : chunk = some bytes)
      (named : Collection.buffers.Names o members 0 b)
      (found : (bindBinary bytes [b]).2 = some problem) :
      Accurate c ro chunk o members s (.binary problem)
  | buffer {k : ℕ} {b : Buffer} {problem : BufferProblem} (t : σ)
      (named : Collection.buffers.Names o members k b)
      (found : ((resolveBuffer c.loader ro b).run t).1.2 = some problem) :
      Accurate c ro chunk o members s (.buffer k problem)
  | bufferView {k : ℕ} {view : BufferView} {compression : Meshopt.Compression} {d : Document}
      {problem : Meshopt.Problem Int} (t : σ)
      (named : Collection.bufferViews.Names o members k view)
      (compressed : Meshopt.compression? view = some compression)
      (reached : Reached c ro chunk (Draft.ofMembers o members).document s d)
      (found : ((Meshopt.decodeView c.meshopt d.buffers view compression).run t).1 =
        .ok (.problem problem)) :
      Accurate c ro chunk o members s (.bufferView k problem)
  | primitive {place : Draco.Location} {mesh : Mesh} {p : MeshPrimitive} {d : Document}
      {problem : Draco.Problem Int} (t : σ)
      (named : Collection.meshes.Names o members place.mesh mesh)
      (primitive : mesh.primitives[place.primitive]? = some p)
      (reached : Reached c ro chunk (Draft.ofMembers o members).document s d)
      (found : (place, problem) ∈
        ((Draco.decodePrimitive c.draco place ⟨d, 0, []⟩ p).run t).1.problems) :
      Accurate c ro chunk o members s (.primitive place problem)
  | image {k : ℕ} {image : ImageSource} {d : Document} {problem : ImageProblem} (t : σ)
      (named : Collection.images.Names o members k image)
      (reached : Reached c ro chunk (Draft.ofMembers o members).document s d)
      (found : ((decodeImage c.loader c.transcoder ro d image).run t).1.2 = some problem) :
      Accurate c ro chunk o members s (.image k problem)

namespace Stage

variable {d : Document} {r : Draft} {found : List (List Diagnostic)} {m : Diagnostic} {s₁ s₂ : σ}
  (hkeys : (members.map (·.1)).Nodup)
include hkeys

theorem accurate_binding
    (h : (binding chunk (Draft.ofMembers o members).document).run s = (.ok r, s₁))
    (hm : m ∈ r.diagnostics) : Accurate c ro chunk o members s m := by
  cases h
  cases chunk with
  | none => cases hm
  | some bytes =>
      obtain ⟨problem, hproblem, rfl⟩ := Option.map_eq_some_iff.1 (Option.mem_toList.1 hm)
      have hattached := (Document.Refilled.refl (Draft.ofMembers o members).document).attached
      have hlength := Collection.buffers.length_elements o hkeys
      replace hproblem :
        (bindBinary bytes (Draft.ofMembers o members).document.buffers).2 = some problem := hproblem
      cases hbuffers : (Draft.ofMembers o members).document.buffers with
      | nil =>
          rw [hbuffers] at hproblem
          cases hproblem
          refine .noBuffers (List.length_eq_zero_iff.1 (hlength.symm.trans ?_))
          exact congrArg List.length hbuffers
      | cons b bs =>
          have hb : (Collection.buffers.elements (Draft.ofMembers o members).document)[0]? =
              some b := congrArg (·[0]?) hbuffers
          rw [hbuffers, problem_bindBinary_cons] at hproblem
          exact .binary rfl (Collection.names_of_getElem? hkeys hattached hb rfl) hproblem

theorem accurate_resolving (hpasses : Passes ((stages c ro chunk).take 1)
      (Draft.ofMembers o members).document s found d s₁)
    (h : (resolving c.loader ro d).run s₁ = (.ok r, s₂)) (hm : m ∈ r.diagnostics) :
    Accurate c ro chunk o members s m := by
  have hreached : Reached c ro chunk _ s d := .between hpasses
  obtain _ | ⟨hbinding, ⟨⟩⟩ := hpasses
  have hlength := (refilled_binding hbinding).buffers.length_eq
  cases h
  obtain ⟨⟨k, problem⟩, hproblem, rfl⟩ := List.mem_map.1 hm
  rw [resolveBuffers_eq_visitAll] at hproblem
  obtain ⟨j, b, t, hk, hb, hfound⟩ := exists_of_mem_problems hproblem
  obtain rfl : k = j := by omega
  exact .buffer t (Collection.names_of_getElem? hkeys hreached.attached hb hlength.symm) hfound

theorem accurate_decodingViews (hpasses : Passes ((stages c ro chunk).take 2)
      (Draft.ofMembers o members).document s found d s₁)
    (h : ((if ro.decodeMeshopt then decodingViews c.meshopt else idle) d).run s₁ = (.ok r, s₂))
    (hm : m ∈ r.diagnostics) : Accurate c ro chunk o members s m := by
  rcases run_or_idle h with h | rfl
  · rw [eq_of_decodingViews h] at hm
    obtain ⟨⟨k, problem⟩, hproblem, rfl⟩ := List.mem_map.1 hm
    rcases Meshopt.stuck_of_mem_decodeViews rfl hproblem with
      hnone | ⟨j, view, compression, t, hk, hview, hc, hfound⟩
    · cases hnone
    · obtain rfl : k = j := by omega
      have hrefilled := hpasses.refilled_take_two
      have hlength : d.bufferViews.length =
        (Draft.ofMembers o members).document.bufferViews.length := by rw [hrefilled.rest]
      exact .bufferView t (Collection.names_of_getElem? hkeys hrefilled.attached hview hlength) hc
        (.views k hpasses) hfound
  · cases hm

theorem accurate_decodingPrimitives (hpasses : Passes ((stages c ro chunk).take 3)
      (Draft.ofMembers o members).document s found d s₁)
    (h : ((if ro.decodeDraco then decodingPrimitives c.draco else idle) d).run s₁ = (.ok r, s₂))
    (hm : m ∈ r.diagnostics) : Accurate c ro chunk o members s m := by
  rcases run_or_idle h with h | rfl
  · cases h
    obtain ⟨⟨place, problem⟩, hproblem, rfl⟩ := List.mem_map.1 hm
    rcases Draco.exists_of_mem_decodePrimitives hproblem with hnone | ⟨n, p, t, hp, hfound⟩
    · cases hnone
    · have hrefilled := hpasses.refilled_take_three
      have hlength : d.meshes.length = (Draft.ofMembers o members).document.meshes.length := by
        rw [hrefilled.rest]
      obtain ⟨mesh, hmesh, hprimitive⟩ := Draco.exists_of_mem_located (List.mem_of_getElem? hp)
      exact .primitive t (Collection.names_of_getElem? hkeys hrefilled.attached hmesh hlength)
        hprimitive (.primitives n [] hpasses) hfound
  · cases hm

theorem accurate_decodingImages (hpasses : Passes ((stages c ro chunk).take 4)
      (Draft.ofMembers o members).document s found d s₁)
    (h : ((if ro.decodeImages then decodingImages c.loader c.transcoder ro else idle) d).run s₁ =
      (.ok r, s₂))
    (hm : m ∈ r.diagnostics) : Accurate c ro chunk o members s m := by
  rcases run_or_idle h with h | rfl
  · cases h
    have hreached : Reached c ro chunk _ s d := .between hpasses
    obtain ⟨⟨k, problem⟩, hproblem, rfl⟩ := List.mem_map.1 hm
    rw [decodeImages_eq_visitAll] at hproblem
    obtain ⟨j, image, t, hk, himage, hfound⟩ := exists_of_mem_problems hproblem
    obtain rfl : k = j := by omega
    exact .image t (Collection.names_of_getElem? hkeys hreached.attached himage
      hreached.attached.images.length_eq.symm) hreached hfound
  · cases hm

end Stage

theorem Passes.accurate {d' : Document} {s' : σ} {found : List (List Diagnostic)}
    (hkeys : (members.map (·.1)).Nodup)
    (h : Passes (stages c ro chunk) (Draft.ofMembers o members).document s found d' s') :
    ∀ m ∈ found.flatten, Accurate c ro chunk o members s m := by
  obtain _ | ⟨hbinding, _ | ⟨hresolving, _ | ⟨hviews, _ | ⟨hprimitives, _ | ⟨himages, ⟨⟩⟩⟩⟩⟩⟩ := h
  intro m hm
  simp only [List.flatten_cons, List.flatten_nil, List.append_nil, List.mem_append] at hm
  rcases hm with hm | hm | hm | hm | hm
  · exact Stage.accurate_binding hkeys hbinding hm
  · exact Stage.accurate_resolving hkeys (.cons hbinding (.nil _ _)) hresolving hm
  · exact Stage.accurate_decodingViews hkeys (.cons hbinding (.cons hresolving (.nil _ _))) hviews hm
  · exact Stage.accurate_decodingPrimitives hkeys
      (.cons hbinding (.cons hresolving (.cons hviews (.nil _ _)))) hprimitives hm
  · exact Stage.accurate_decodingImages hkeys
      (.cons hbinding (.cons hresolving (.cons hviews (.cons hprimitives (.nil _ _))))) himages hm

end

/-! ### Reads -/

/-- A binary chunk that is taken becomes the content of the buffer that stands for the first kept
entry. -/
theorem names_of_bindBinary {o : Options} {members : List (String × Json)} {bytes : Bytes}
    {buffers : List Buffer} (hkeys : (members.map (·.1)).Nodup)
    (h : bindBinary bytes (Draft.ofMembers o members).document.buffers = (buffers, none)) :
    ∃ b rest, buffers = b :: rest ∧ Collection.buffers.Names o members 0 b ∧
      b.data = some (Bytes.slice bytes 0 b.byteLength) := by
  have hgain := gains_bindBinary bytes (Draft.ofMembers o members).document.buffers
  rw [h] at hgain
  have hattached := (Document.refilled_of_allGain hgain).attached
  cases hbuffers : (Draft.ofMembers o members).document.buffers with
  | nil =>
      rw [hbuffers] at h
      cases h
  | cons b bs =>
      rw [hbuffers, bindBinary] at h
      split_ifs at h with huri hlong hshort
      · cases h
      · cases h
      · cases h
      · obtain ⟨rfl, -⟩ := Prod.mk.inj h
        exact ⟨_, bs, rfl, Collection.names_of_getElem? hkeys hattached rfl hgain.length_eq.symm,
          rfl⟩

/-- At every look-up of a read, and in its messages, an index stands for the entry at its place among
those that are objects. No such entry comes before the one with the index itself, and it is that one
exactly if all entries up to the index are objects. -/
theorem read_names_kept_entries {σ : Type} {c : Collaborators (StateM σ)} {o : Options}
    {ro : ReadOptions} {bs : Bytes} {s s' : σ} {document : Document} {diagnostics : List Diagnostic}
    (h : (read c o ro bs).run s = (.ok (.document document diagnostics), s')) :
    ∃ file members, contents bs = .ok file ∧ Json.parse file.json = .ok (.object members) ∧
      Reached c ro file.binary (Draft.ofMembers o members).document s document ∧
      (∀ d, Reached c ro file.binary (Draft.ofMembers o members).document s d →
        d.Indexed o members) ∧
      (∀ bytes buffers, file.binary = some bytes →
        bindBinary bytes (Draft.ofMembers o members).document.buffers = (buffers, none) →
        ∃ b rest, buffers = b :: rest ∧ Collection.buffers.Names o members 0 b ∧
          b.data = some (Bytes.slice bytes 0 b.byteLength)) ∧
      (∀ m ∈ diagnostics, Accurate c ro file.binary o members s m) ∧
      ∀ (C : Collection) (k : ℕ),
        (∀ i, (kept (C.entries members))[k]? = some i → k ≤ i) ∧
        ((kept (C.entries members))[k]? = some k ↔
          ∀ j ≤ k, ∃ entry, (C.entries members)[j]? = some (.object entry)) := by
  obtain ⟨file, members, opened, parsed, record, findings, found, root, hpasses, rfl⟩ :=
    passes_of_document h
  have hkeys := Json.nodup_keys_of_parse parsed
  have hdocument : (Draft.ofMembers o members).document = Document.ofRecord record := by
    rw [ofMembers_eq root]
  rw [← hdocument] at hpasses
  refine ⟨file, members, opened, parsed, .between (n := 5) hpasses,
    fun d hd => Document.indexed_of_attached hkeys hd.attached,
    fun bytes buffers _ => names_of_bindBinary hkeys, fun m hm => ?_,
    fun C k => ⟨fun i => Reading.le_of_getElem?_kept, Reading.getElem?_kept_eq_iff⟩⟩
  simp only [List.mem_append, List.mem_map] at hm
  rcases hm with ⟨warning, -, rfl⟩ | ⟨finding, -, rfl⟩ | hm
  · exact .container warning
  · exact .reading finding
  · exact hpasses.accurate hkeys m hm

set_option maxRecDepth 8192 in
/-- The first entry is no object, so the only buffer stands for the second one, and the message about
it has the index zero. -/
theorem read_names_kept_entries_omitted :
    let bs : Bytes :=
      [123, 34, 98, 117, 102, 102, 101, 114, 115, 34, 58, 91, 110, 117, 108, 108, 44, 123, 34, 117,
       114, 105, 34, 58, 34, 97, 34, 44, 34, 98, 121, 116, 101, 76, 101, 110, 103, 116, 104, 34, 58,
       50, 125, 93, 125]
    let members : List (String × Json) :=
      [("buffers", .array
        [.null, .object [("uri", .string "a"), ("byteLength", .number (.int 2))]])]
    let c : Collaborators (StateM Unit) := { loader := some fun _ => pure (.ok [7]) }
    ∃ document diagnostics,
      (read c {} {} bs).run () = (.ok (.document document diagnostics), ()) ∧
        Diagnostic.buffer 0 (.tooShort 1 2) ∈ diagnostics ∧
        Accurate c {} none {} members () (.buffer 0 (.tooShort 1 2)) ∧
        ∃ b, document.buffers[0]? = some b ∧ Collection.buffers.StemsFrom {} members 1 b := by
  intro bs members c
  have hparsed : Json.parse bs = .ok (.object members) := rfl
  obtain ⟨document, diagnostics, hread, hmessage⟩ : ∃ document diagnostics,
      (read c {} {} bs).run () = (.ok (.document document diagnostics), ()) ∧
        Diagnostic.buffer 0 (.tooShort 1 2) ∈ diagnostics := by
    rw [read_json hparsed, readContents, hparsed]
    exact ⟨_, _, rfl, List.mem_of_getElem? (i := 2) rfl⟩
  obtain ⟨file, members', hopened, hmembers, hreached, hindexed, -, haccurate, -⟩ :=
    read_names_kept_entries hread
  obtain rfl : ⟨bs, none, []⟩ = file := Except.ok.inj hopened
  cases hparsed.symm.trans hmembers
  obtain ⟨b, hb, i, hi, hstems⟩ :=
    (hindexed document hreached).present Collection.buffers (Nat.zero_lt_one : 0 < [1].length)
  cases hi
  exact ⟨document, diagnostics, hread, hmessage, haccurate _ hmessage, b, hb, hstems⟩

set_option maxRecDepth 8192 in
/-- A view on the buffer with the index one. The second entry is loaded from `a`, but the view reads
what is loaded from `b`. -/
theorem read_misnames_buffer :
    let bs : Bytes :=
      [123, 34, 98, 117, 102, 102, 101, 114, 115, 34, 58, 91, 49, 44, 123, 34, 117, 114, 105, 34,
       58, 34, 97, 34, 44, 34, 98, 121, 116, 101, 76, 101, 110, 103, 116, 104, 34, 58, 49, 125, 44,
       123, 34, 117, 114, 105, 34, 58, 34, 98, 34, 44, 34, 98, 121, 116, 101, 76, 101, 110, 103,
       116, 104, 34, 58, 50, 125, 93, 44, 34, 98, 117, 102, 102, 101, 114, 86, 105, 101, 119, 115,
       34, 58, 91, 123, 34, 98, 117, 102, 102, 101, 114, 34, 58, 49, 44, 34, 98, 121, 116, 101, 76,
       101, 110, 103, 116, 104, 34, 58, 49, 125, 93, 125]
    let members : List (String × Json) :=
      [("buffers", .array
          [.number (.int 1), .object [("uri", .string "a"), ("byteLength", .number (.int 1))],
            .object [("uri", .string "b"), ("byteLength", .number (.int 2))]]),
        ("bufferViews", .array
          [.object [("buffer", .number (.int 1)), ("byteLength", .number (.int 1))]])]
    let c : Collaborators (StateM Unit) :=
      { loader := some fun uri => pure (.ok (if uri = "a" then [1] else [2, 2])) }
    Json.parse bs = .ok (.object members) ∧
      ∃ document diagnostics,
        (read c {} {} bs).run () = (.ok (.document document diagnostics), ()) ∧
          (elementAt? document.bufferViews 0).map BufferView.buffer = some 1 ∧
          document.viewBytes 0 = .ok [2] ∧
          ∀ b, elementAt? document.buffers 1 = some b →
            ¬Collection.buffers.StemsFrom {} members 1 b := by
  intro bs members c
  have hparsed : Json.parse bs = .ok (.object members) := rfl
  refine ⟨hparsed, ?_⟩
  rw [read_json hparsed, readContents, hparsed]
  refine ⟨_, _, rfl, rfl, rfl, fun b hb => ?_⟩
  cases hb
  rintro ⟨r, ⟨hentry, hread⟩, hgain⟩
  cases hentry
  have hlength : 2 = (Buffer.ofRecord r).byteLength := hgain.byteLength_eq
  rw [← Option.some.inj (congrArg Prod.fst hread)] at hlength
  cases hlength

end Gltf
