import Gltf.Diagnostic
import Gltf.Proofs.Resource.CompressedViews
import Gltf.Proofs.Resource.ViewBytes
import Mathlib

/-!
The bytes that the decoder of buffer views is called with. They are declared as a range of the data of
a buffer, and the range is not checked but clipped to the data, with negative places counted from the
end. So the decoder is called whatever the range is, and it is called with the declared bytes only where
the range lies in the data.
-/

namespace Gltf.Meshopt

namespace Compression

variable {c : Compression} {data : Bytes}

/-- The declared range lies in data. -/
structure Inside (c : Compression) (data : Bytes) : Prop where
  offset : 0 ≤ c.byteOffset
  length : 0 ≤ c.byteLength
  stop : c.byteOffset + c.byteLength ≤ data.length

/-- Bytes that are the declared range of data, all of it and nothing else. -/
structure Declares (c : Compression) (data handed : Bytes) : Prop where
  length : (handed.length : Int) = c.byteLength
  bytes : ∀ j < handed.length, ∃ n : ℕ, (n : Int) = c.byteOffset + j ∧ handed[j]? = data[n]?

theorem inside_iff : c.Inside data ↔
    0 ≤ c.byteOffset ∧ 0 ≤ c.byteLength ∧ c.byteOffset + c.byteLength ≤ data.length :=
  ⟨fun h => ⟨h.offset, h.length, h.stop⟩, fun ⟨offset, length, stop⟩ => ⟨offset, length, stop⟩⟩

theorem declares_iff {handed : Bytes} :
    c.Declares data handed ↔ data.IsRange c.byteOffset c.byteLength handed :=
  ⟨fun h => ⟨h.length, h.bytes⟩, fun h => ⟨h.length, h.bytes⟩⟩

theorem Inside.declares_cut (h : c.Inside data) : c.Declares data (c.cut data) :=
  declares_iff.2 (Bytes.isRange_slice h.offset h.length h.stop)

/-- An empty range is cut as declared wherever it lies. -/
theorem declares_cut_iff : c.Declares data (c.cut data) ↔ c.Inside data ∨ c.byteLength = 0 := by
  rw [declares_iff, Compression.cut, Bytes.isRange_slice_iff, inside_iff, or_comm]

end Compression

variable {σ : Type} {decode : Decoder (StateM σ)} {buffers : List Buffer} {s s' : σ} {t : Trial}
  {c : Compression}

/-- The bytes that the decoder is called with for a view, if there are a source and a buffer. -/
def sourceWithTarget? (buffers : List Buffer) (view : BufferView) (c : Compression) : Option Bytes :=
  (source? buffers c).bind fun handed => (elementAt? buffers view.buffer).map fun _ => handed

theorem sourceWithTarget?_eq (buffers : List Buffer) (view : BufferView) (c : Compression) :
    sourceWithTarget? buffers view c = (sourceData? buffers c).bind fun data =>
      (elementAt? buffers view.buffer).map fun _ => c.cut data := by
  rw [sourceWithTarget?, source?_eq, Option.bind_map]
  rfl

theorem Called.sourceWithTarget?_eq_some {view : BufferView} {c' : Compression} {handed : Bytes}
    {target : Buffer} {answer : Except String Bytes}
    (h : Called decode buffers s view c' handed target answer s') (hc : compression? view = some c) :
    sourceWithTarget? buffers view c = some handed := by
  obtain rfl : c' = c := Option.some.inj (h.compressed.symm.trans hc)
  rw [sourceWithTarget?, h.source, h.target]
  rfl

/-- The decoder is called for a view exactly if its source has data and its buffer is there. -/
theorem Tried.handed?_eq (h : Tried (some decode) buffers s t s')
    (hc : compression? t.view = some c) :
    t.course.handed? = sourceWithTarget? buffers t.view c := by
  symm
  -- The decoder is called in the last four cases, with what the source gives.
  cases h with
  | plain uncompressed => cases uncompressed.symm.trans hc
  | undecodable compressed unconfigured => cases unconfigured
  | sourceless compressed configured source =>
      obtain rfl := Option.some.inj (compressed.symm.trans hc)
      rw [sourceWithTarget?, source]
      rfl
  | targetless compressed configured source target =>
      rw [sourceWithTarget?, target]
      cases source? buffers c <;> rfl
  | failed configured called => exact called.sourceWithTarget?_eq_some hc
  | misfit configured called size => exact called.sourceWithTarget?_eq_some hc
  | broken configured called size unfilled => exact called.sourceWithTarget?_eq_some hc
  | stored configured called size filled => exact called.sourceWithTarget?_eq_some hc

/-- A view for which the decoder is not called has an error. -/
theorem Tried.refused_of_not_called (h : Tried (some decode) buffers s t s')
    (hc : compression? t.view = some c) (hcall : t.course.handed? = none) :
    ∃ problem, t.course = .refused problem ∧
      ∀ i, (Diagnostic.bufferView i problem).severity = .error := by
  cases h with
  | plain uncompressed => cases uncompressed.symm.trans hc
  | undecodable compressed unconfigured => cases unconfigured
  | sourceless compressed configured source => exact ⟨_, rfl, fun _ => rfl⟩
  | targetless compressed configured source target => exact ⟨_, rfl, fun _ => rfl⟩
  | _ => cases hcall

/-- What the declared range of a view promises: the decoder is called with this range only, and a range
that does not lie in data of its buffer is an error for which the decoder is not called. -/
structure Faithful (buffers : List Buffer) (c : Compression) (course : Course) : Prop where
  declared : ∀ handed, course.handed? = some handed →
    ∃ data, sourceData? buffers c = some data ∧ c.Declares data handed
  refused : (∀ data, sourceData? buffers c = some data → ¬c.Inside data) →
    ∃ problem, course = .refused problem ∧
      ∀ i, (Diagnostic.bufferView i problem).severity = .error

theorem Tried.faithful_iff (h : Tried (some decode) buffers s t s')
    (hc : compression? t.view = some c) :
    Faithful buffers c t.course ↔ ∀ data, sourceData? buffers c = some data →
      (elementAt? buffers t.view.buffer).isSome → c.Inside data := by
  have hcalled := h.handed?_eq hc
  rw [sourceWithTarget?_eq] at hcalled
  constructor
  · intro hfaithful data hdata htarget
    by_contra houtside
    -- The view is not refused, since there are data and a buffer.
    obtain ⟨problem, hrefused, -⟩ := hfaithful.refused fun found hfound => by
      rwa [← Option.some.inj (hdata.symm.trans hfound)]
    obtain ⟨target, htarget⟩ := Option.isSome_iff_exists.1 htarget
    rw [hrefused, hdata, htarget] at hcalled
    cases hcalled
  · intro hinside
    refine ⟨fun handed hhanded => ?_, fun houtside => h.refused_of_not_called hc ?_⟩
    · rw [hcalled] at hhanded
      obtain ⟨data, hdata, hmap⟩ := Option.bind_eq_some_iff.1 hhanded
      obtain ⟨target, htarget, rfl⟩ := Option.map_eq_some_iff.1 hmap
      exact ⟨data, hdata, (hinside data hdata (Option.isSome_of_eq_some htarget)).declares_cut⟩
    · rw [hcalled, Option.bind_eq_none_iff]
      intro data hdata
      have hnone : elementAt? buffers t.view.buffer = none := by
        by_contra hsome
        exact houtside data hdata (hinside data hdata (Option.isSome_iff_ne_none.2 hsome))
      rw [hnone, Option.map_none]

/-- What the decoder of compressed views is called with. It is called for a view whose source has data
and whose buffer is there, with the part of the data that is left of the declared range when it is
clipped. These are the declared bytes exactly if the range lies in the data or is empty. What the range
promises is kept exactly if it lies in the data, or if the decoder is not called at all. -/
theorem decodeAll_hands_declared_iff (decode : Decoder (StateM σ)) (d : Document) (s : σ) :
    ∃ trials result s', Decoded (some decode) d s trials result s' ∧
      ∀ before t after c, trials = before ++ t :: after → compression? t.view = some c →
        ∃ buffers₁ s₁ s₂, Run (some decode) d.buffers s before buffers₁ s₁ ∧
          Tried (some decode) buffers₁ s₁ t s₂ ∧
          (t.course.handed? = (sourceData? buffers₁ c).bind fun data =>
            (elementAt? buffers₁ t.view.buffer).map fun _ => c.cut data) ∧
          (∀ data, c.Declares data (c.cut data) ↔ c.Inside data ∨ c.byteLength = 0) ∧
          (Faithful buffers₁ c t.course ↔ ∀ data, sourceData? buffers₁ c = some data →
            (elementAt? buffers₁ t.view.buffer).isSome → c.Inside data) := by
  obtain ⟨trials, result, s', hdecoded⟩ := exists_decoded (some decode) d s
  refine ⟨trials, result, s', hdecoded, ?_⟩
  rintro before t after c rfl hc
  obtain ⟨buffers₁, s₁, s₂, hbefore, htried, -⟩ := hdecoded.run.at
  have hcalled := htried.handed?_eq hc
  rw [sourceWithTarget?_eq] at hcalled
  exact ⟨buffers₁, s₁, s₂, hbefore, htried, hcalled, fun _ => Compression.declares_cut_iff,
    htried.faithful_iff hc⟩

/-- A view declares four compressed bytes in a buffer of two. Nothing is reported, and the decoder is
called with the two. -/
theorem decodeAll_hands_clipped :
    let view : BufferView :=
      { buffer := 1, byteLength := 4
        attachments := ({} : Attachments).add Schema.meshoptCompression.extensionName
          (.make Schema.meshoptCompression
            [("buffer", .ofInt 0), ("byte_length", .ofInt 4), ("byte_stride", .ofInt 4),
              ("count", .ofInt 1), ("mode", .ofString "ATTRIBUTES"), ("filter", .ofString "NONE")] {}) }
    let d : Document :=
      { buffers := [{ byteLength := 2, data := some [1, 2] }, { byteLength := 4 }]
        bufferViews := [view] }
    let decode : Decoder (StateM (List Bytes)) := fun bs _ _ _ _ => do
      modify (· ++ [bs])
      pure (.ok [5, 6, 7, 8])
    compression? view = some ⟨0, 0, 4, 4, 1, .attributes, .none⟩ ∧
      ((decodeAll (some decode) d).run []).1.problems = [] ∧
      ((decodeAll (some decode) d).run []).2 = [[1, 2]] := by
  intro view d decode
  exact ⟨rfl, rfl, rfl⟩

end Gltf.Meshopt
