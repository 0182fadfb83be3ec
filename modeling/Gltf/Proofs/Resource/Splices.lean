import Gltf.Proofs.Resource.CompressedViews
import Mathlib

/-!
The data of a buffer after content is put over it. At an offset that is not negative the content lies
where its view says, behind zeros if the data ends before it, and no other byte is changed. A negative
offset is counted from the end of the data, so that other bytes are overwritten or shifted.
-/

namespace Gltf.Meshopt

/-! ### Data with content in it -/

/-- Content lies at an offset of data, which are otherwise as they were before. -/
structure Put (before : Bytes) (offset : Int) (content after : Bytes) : Prop where
  length : (after.length : Int) = max (before.length : Int) (offset + content.length)
  inside : ∀ j < content.length, ∃ n : ℕ, (n : Int) = offset + j ∧ after[n]? = content[j]?
  gap : ∀ n : ℕ, before.length ≤ n → (n : Int) < offset → after[n]? = some 0
  rest : ∀ n < before.length, ((n : Int) < offset ∨ offset + content.length ≤ n) →
    after[n]? = before[n]?

/-- The data up to an offset, with zeros where they end before it. -/
def upTo (data : Bytes) (offset : ℕ) : Bytes :=
  data.take offset ++ List.replicate (offset - data.length) 0

@[simp] theorem length_upTo (data : Bytes) (offset : ℕ) : (upTo data offset).length = offset := by
  rw [upTo, List.length_append, List.length_take, List.length_replicate]
  omega

theorem getElem?_upTo {data : Bytes} {offset n : ℕ} (h : n < offset) :
    (upTo data offset)[n]? = if n < data.length then data[n]? else some 0 := by
  rw [upTo]
  split_ifs with hdata
  · rw [List.getElem?_append_left (by simp [h, hdata]), List.getElem?_take_of_lt h]
  · rw [List.getElem?_append_right (by simp; omega), List.getElem?_replicate,
      if_pos (by rw [List.length_take]; omega)]

variable {data content : Bytes}

/-- Of the zeros that the data grows by, those where the content lies are overwritten. -/
theorem spliceAt_natCast (data : Bytes) (offset : ℕ) (content : Bytes) :
    spliceAt data offset content =
      upTo data offset ++ content ++ data.drop (offset + content.length) := by
  have hgrowth : ((offset : Int) + content.length - data.length).toNat =
      offset + content.length - data.length := by omega
  have hfits : offset + content.length ≤
      (data ++ List.replicate (offset + content.length - data.length) (0 : UInt8)).length := by
    rw [List.length_append, List.length_replicate]
    omega
  -- The zeros reach as far as the content, so none are left behind it.
  have hzeros : min (offset - data.length) (offset + content.length - data.length) =
      offset - data.length := by omega
  simp only [spliceAt, Bytes.splice, hgrowth]
  rw [← Int.natCast_add, Bytes.place_of_le hfits,
    Bytes.place_of_le ((Nat.le_add_right _ _).trans hfits), Nat.max_eq_right (Nat.le_add_right _ _),
    List.take_append, List.take_replicate, hzeros, List.drop_append, List.drop_replicate,
    Nat.sub_self, List.replicate_zero, List.append_nil, upTo]

theorem put_spliceAt_natCast (data : Bytes) (offset : ℕ) (content : Bytes) :
    Put data offset content (spliceAt data offset content) := by
  have hhead := length_upTo data offset
  rw [spliceAt_natCast]
  refine ⟨?length, fun j hj => ⟨offset + j, by rw [Int.natCast_add], ?inside⟩,
    fun n hend hn => ?gap, fun n hn hrange => ?rest⟩
  case length =>
    rw [List.length_append, List.length_append, hhead, List.length_drop]
    omega
  case inside =>
    rw [List.append_assoc, List.getElem?_append_right (by omega), hhead, Nat.add_sub_cancel_left,
      List.getElem?_append_left hj]
  case gap =>
    have hbefore : n < offset := by omega
    rw [List.append_assoc, List.getElem?_append_left (by omega), getElem?_upTo hbefore,
      if_neg (by omega)]
  case rest =>
    rcases hrange with hbefore | hbehind
    · have hbefore : n < offset := by omega
      rw [List.append_assoc, List.getElem?_append_left (by omega), getElem?_upTo hbefore, if_pos hn]
    · have hlength : (upTo data offset ++ content).length = offset + content.length := by
        rw [List.length_append, hhead]
      rw [List.getElem?_append_right (by omega), hlength, List.getElem?_drop,
        Nat.add_sub_of_le (by omega)]

theorem spliceAt_nil_of_neg {offset : Int} (h : offset < 0) : spliceAt data offset [] = data := by
  have hgrowth : (offset - data.length).toNat = 0 := by omega
  simp only [spliceAt, Bytes.splice, List.length_nil, Int.natCast_zero, Int.add_zero, hgrowth,
    List.replicate_zero, List.append_nil, Nat.max_self, List.take_append_drop]

/-- There is no place for content at a negative offset. -/
theorem put_spliceAt_iff (offset : Int) :
    Put data offset content (spliceAt data offset content) ↔ 0 ≤ offset ∨ content = [] := by
  constructor
  · intro h
    by_contra! hneg
    -- The first byte of the content would lie at the offset itself.
    obtain ⟨n, hn, -⟩ := h.inside 0 (List.length_pos_iff.2 hneg.2)
    omega
  · intro h
    rcases Int.lt_or_le offset 0 with hneg | hoffset
    · obtain rfl := h.resolve_left (Int.not_le.2 hneg)
      rw [spliceAt_nil_of_neg hneg]
      exact ⟨by rw [List.length_nil]; omega, by simp, by omega, fun _ _ _ => rfl⟩
    · obtain ⟨o, rfl⟩ := Int.eq_ofNat_of_zero_le hoffset
      exact put_spliceAt_natCast data o content

/-! ### Views that are decoded -/

/-- The data that content is put over: zeros for a buffer that has none, so many as it declares. -/
structure Previous (b : Buffer) (data : Bytes) : Prop where
  present : ∀ found, b.data = some found → data = found
  zeros : b.data = none → 0 ≤ b.byteLength ∧ data = List.replicate b.byteLength.toNat 0

theorem previous_of_dataOrZeros {b : Buffer} (h : dataOrZeros b = .ok data) : Previous b data := by
  rw [dataOrZeros] at h
  split at h
  next found hfound =>
    cases h
    exact ⟨fun _ hb => Option.some.inj (hfound.symm.trans hb), fun hnone => by simp [hnone] at hfound⟩
  next hnone =>
    split_ifs at h with hlength
    cases h
    exact ⟨fun _ hb => by simp [hb] at hnone, fun _ => ⟨Int.not_lt.1 hlength, rfl⟩⟩

theorem elementAt?_modify {α : Type} (l : List α) (i : ℕ) (f : α → α) (index : Int) :
    elementAt? (l.modify i f) index =
      if index = i then (elementAt? l index).map f else elementAt? l index := by
  rcases Int.lt_or_le index 0 with hneg | hindex
  · simp [elementAt?, hneg]
  · obtain ⟨k, rfl⟩ := Int.eq_ofNat_of_zero_le hindex
    rw [elementAt?_natCast, elementAt?_natCast, List.getElem?_modify]
    by_cases hki : k = i
    · simp [hki]
    · simp [hki, Ne.symm hki]

variable {σ : Type} {decode : Decoder (StateM σ)} {buffers : List Buffer} {s s' : σ} {t : Trial}
  {handed previous : Bytes}

/-- What a view that is decoded does to the buffers: its own has other data, and no other is changed. -/
structure Filled (buffers : List Buffer) (index : Int) (previous data : Bytes)
    (buffers' : List Buffer) : Prop where
  own : ∃ target, elementAt? buffers index = some target ∧ Previous target previous ∧
    elementAt? buffers' index = some { target with data := some data }
  others : ∀ k, k ≠ index → elementAt? buffers' k = elementAt? buffers k

theorem Tried.filled (h : Tried (some decode) buffers s t s')
    (hcourse : t.course = .stored handed previous content) :
    Filled buffers t.view.buffer previous (spliceAt previous t.view.byteOffset content)
      (t.after buffers) := by
  cases h with
  | stored configured called size filled =>
      cases hcourse
      obtain ⟨n, hn, htarget⟩ := elementAt?_eq_some called.target
      refine ⟨⟨_, called.target, previous_of_dataOrZeros filled, ?own⟩, fun k hk => ?others⟩
      case own =>
        rw [Trial.after, hn, Int.toNat_natCast, elementAt?_modify, if_pos rfl, elementAt?_natCast,
          htarget, Option.map_some]
      case others =>
        rw [Trial.after, hn, Int.toNat_natCast, elementAt?_modify, if_neg (hn ▸ hk)]
  | _ => cases hcourse

/-- Where the decoder's content lies after a view is decoded. It is put over the data of the view's
buffer, which are zeros before if the buffer has none, and no other buffer is changed. The content lies
at the offset of the view, with all other bytes as before, exactly if the offset is not negative or
there is no content. -/
theorem decodeAll_puts_iff (decode : Decoder (StateM σ)) (d : Document) (s : σ) :
    ∃ trials result s', Decoded (some decode) d s trials result s' ∧
      ∀ before t after handed previous content, trials = before ++ t :: after →
        t.course = .stored handed previous content →
        ∃ buffers₁ s₁ s₂ data, Run (some decode) d.buffers s before buffers₁ s₁ ∧
          Tried (some decode) buffers₁ s₁ t s₂ ∧
          Run (some decode) (t.after buffers₁) s₂ after result.buffers s' ∧
          Filled buffers₁ t.view.buffer previous data (t.after buffers₁) ∧
          (Put previous t.view.byteOffset content data ↔ 0 ≤ t.view.byteOffset ∨ content = []) := by
  obtain ⟨trials, result, s', hdecoded⟩ := exists_decoded (some decode) d s
  refine ⟨trials, result, s', hdecoded, ?_⟩
  rintro before t after handed previous content rfl hcourse
  obtain ⟨buffers₁, s₁, s₂, hbefore, htried, hafter⟩ := hdecoded.run.at
  have hunbroken : t.course.cause? = none := by
    rw [hcourse]
    rfl
  exact ⟨buffers₁, s₁, s₂, _, hbefore, htried, hafter hunbroken, htried.filled hcourse,
    put_spliceAt_iff t.view.byteOffset⟩

/-- A view of one byte is declared at offset -1 of a buffer of four. The decoded byte is inserted before
the last of them, which is shifted. -/
theorem decodeAll_shifts_bytes :
    let view : BufferView :=
      { buffer := 1, byteOffset := -1, byteLength := 1
        attachments := ({} : Attachments).add Schema.meshoptCompression.extensionName
          (.make Schema.meshoptCompression
            [("buffer", .ofInt 0), ("byte_length", .ofInt 1), ("byte_stride", .ofInt 1),
              ("count", .ofInt 1), ("mode", .ofString "ATTRIBUTES"), ("filter", .ofString "NONE")] {}) }
    let d : Document :=
      { buffers :=
          [{ byteLength := 1, data := some [5] }, { byteLength := 4, data := some [1, 2, 3, 4] }]
        bufferViews := [view] }
    let decode : Decoder (StateM Unit) := fun _ _ _ _ _ => pure (.ok [9])
    let result := ((decodeAll (some decode) d).run ()).1
    result.decoded = 1 ∧ result.buffers[1]?.bind Buffer.data = some [1, 2, 3, 9, 4] ∧
      ¬Put [1, 2, 3, 4] view.byteOffset [9] [1, 2, 3, 9, 4] := by
  intro view d decode result
  refine ⟨rfl, rfl, fun hput => ?_⟩
  have hlength : ((5 : ℕ) : Int) = max 4 (-1 + 1) := hput.length
  omega

end Gltf.Meshopt
