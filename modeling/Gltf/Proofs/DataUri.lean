import Gltf.DataUri
import Gltf.Proofs.Text.Base64
import Gltf.Proofs.Text.Case
import Gltf.Proofs.Text.Percent
import Gltf.Proofs.Text.Split
import Mathlib

/-!
Data URIs by their parts. The header ends at the first comma, its first part names the media type,
and one of the others may ask for base64. Without that the data are what the payload renders; with
it they are the bytes that the digits in the payload stand for.
-/

namespace Gltf.DataUri

/-- A URI that is the scheme in any case, a header without a comma, a comma and a payload. -/
structure Spells (uri : String) (header payload : List Char) : Prop where
  text : ∃ s, s.map Char.toLower = scheme ∧ uri.toList = s ++ header ++ ',' :: payload
  notMem : ',' ∉ header

/-- A parameter of a header that asks for base64. -/
def AsksBase64 (header : List Char) : Prop :=
  ∃ part ∈ (header.splitOn ';').tail, normalize part = "base64".toList

/-- The media type in a header, or the one for texts if there is none. -/
def mediaType (header : List Char) : String :=
  let first := normalize ((header.splitOn ';').headD [])
  if first = [] then "text/plain" else String.ofList first

variable {uri : String} {header payload : List Char} {data : Bytes} {found : DataUri}

/-! ### Parts -/

theorem lower_scheme {s : List Char} (h : s.map Char.toLower = scheme) : Text.lower s = scheme := by
  rw [Text.lower_of_ascii, h]
  intro c hc
  have hlower : c.toLower ∈ scheme := by
    rw [← h]
    exact List.mem_map_of_mem hc
  have hscheme : ∀ d ∈ scheme, d.toNat < 0x80 := by simp [scheme]
  have hascii := hscheme _ hlower
  have hcases := Text.toNat_of_toLower (Eq.refl c.toLower)
  generalize c.toLower.toNat = n at hascii hcases
  omega

theorem decode_of_spells (h : Spells uri header payload) :
    decode uri = decodeParts header payload := by
  obtain ⟨⟨s, hs, htext⟩, hcomma⟩ := h
  have hlength : s.length = 5 := by
    rw [← List.length_map Char.toLower, hs]
    rfl
  have htake : uri.toList.take 5 = s := by
    rw [htext, List.append_assoc, List.take_left' hlength]
  have hdrop : uri.toList.drop 5 = header ++ ',' :: payload := by
    rw [htext, List.append_assoc, List.drop_left' hlength]
  have hscheme : isDataUri uri = true := by
    rw [isDataUri, htake, lower_scheme hs, beq_self_eq_true]
  rw [decode, if_pos hscheme, hdrop, Text.cut_append hcomma]

theorem any_eq_true_iff :
    (header.splitOn ';').tail.any (normalize · == ['b', 'a', 's', 'e', '6', '4']) = true ↔
      AsksBase64 header := by
  simp only [List.any_eq_true, beq_iff_eq]
  rfl

theorem decodeParts_of_not_asksBase64 (h : ¬AsksBase64 header) (payload : List Char) :
    decodeParts header payload = .ok ⟨mediaType header, Percent.decode payload⟩ := by
  simp only [decodeParts, Text.splitOn_eq, List.isEmpty_iff]
  rw [if_neg (mt any_eq_true_iff.1 h)]
  rfl

theorem decodeParts_of_asksBase64 (h : AsksBase64 header) (payload : List Char) :
    decodeParts header payload =
      match Base64.decode (base64Text payload) with
      | .ok data => .ok ⟨mediaType header, data⟩
      | .error problem => .error (.base64 problem) := by
  simp only [decodeParts, Text.splitOn_eq, List.isEmpty_iff]
  rw [if_pos (any_eq_true_iff.2 h)]
  rfl

/-! ### Percent-encoded data -/

/-- Data are read back from each text that renders them, under the media type of the header. -/
theorem decode_rendered (huri : Spells uri header payload) (hplain : ¬AsksBase64 header)
    (h : Percent.Renders data payload) : decode uri = .ok ⟨mediaType header, data⟩ := by
  rw [decode_of_spells huri, decodeParts_of_not_asksBase64 hplain, Percent.decode_of_renders h]

/-- A character of two bytes, an escaped comma and one that is not, and a digit behind an escape. -/
theorem decode_rendered_mixed :
    let payload := "é%2C,;%411".toList
    let data : Bytes := [0xc3, 0xa9, 0x2c, 0x2c, 0x3b, 0x41, 0x31]
    Spells "data: Text/HTML ;charset=utf-8,é%2C,;%411" " Text/HTML ;charset=utf-8".toList payload ∧
    ¬AsksBase64 " Text/HTML ;charset=utf-8".toList ∧ Percent.Renders data payload ∧
    decode "data: Text/HTML ;charset=utf-8,é%2C,;%411" = .ok ⟨"text/html", data⟩ := by
  intro payload data
  have huri : Spells "data: Text/HTML ;charset=utf-8,é%2C,;%411" " Text/HTML ;charset=utf-8".toList
      payload := ⟨⟨"data:".toList, by decide +kernel, by decide +kernel⟩, by decide +kernel⟩
  have hplain : ¬AsksBase64 " Text/HTML ;charset=utf-8".toList := by
    unfold AsksBase64
    decide +kernel
  have hrenders : Percent.Renders data payload := by
    have h : Percent.Renders _ ['é', '%', '2', 'C', ',', ';', '%', '4', '1', '1'] :=
      .literal (by decide) <| .escape (h := 2) (l := 12) ⟨by decide, by decide⟩
        ⟨by decide, by decide⟩ <| .literal (by decide) <| .literal (by decide) <|
          .escape (h := 4) (l := 1) ⟨by decide, by decide⟩ ⟨by decide, by decide⟩ <|
            .literal (by decide) .nil
    have hdata : String.utf8EncodeChar 'é' ++ UInt8.ofNat (16 * 2 + 12) ::
        (String.utf8EncodeChar ',' ++ (String.utf8EncodeChar ';' ++ UInt8.ofNat (16 * 4 + 1) ::
          (String.utf8EncodeChar '1' ++ []))) = data := by
      decide
    rw [← hdata]
    exact h
  have hmedia : mediaType " Text/HTML ;charset=utf-8".toList = "text/html" := by decide +kernel
  refine ⟨huri, hplain, hrenders, ?_⟩
  rw [← hmedia]
  exact decode_rendered huri hplain hrenders

/-! ### Base64 data -/

/-- Bytes without spaces, tabs and line breaks. -/
def unblank (text : Bytes) : Bytes := text.filter (· ∉ [0x20, 0x09, 0x0d, 0x0a])

theorem base64Text_eq (payload : List Char) :
    base64Text payload = Bytes.padTo4 (unblank (Percent.decode payload)) Base64.paddingByte := by
  have hskipped (b : UInt8) : (!isSkipped b) = decide (b ∉ [0x20, 0x09, 0x0d, 0x0a]) := by
    rw [Bool.eq_iff_iff]
    simp [isSkipped, and_assoc]
  simp only [base64Text, unblank, hskipped]

theorem decode_eq_ok_iff (huri : Spells uri header payload) (hbase64 : AsksBase64 header) :
    decode uri = .ok found ↔ found.mimeType = mediaType header ∧
      Base64.decode (base64Text payload) = .ok found.data := by
  rw [decode_of_spells huri, decodeParts_of_asksBase64 hbase64]
  cases Base64.decode (base64Text payload) with
  | ok data =>
      rw [Except.ok.injEq, Except.ok.injEq]
      constructor
      · rintro rfl
        exact ⟨rfl, rfl⟩
      · rintro ⟨hmime, rfl⟩
        rw [← hmime]
  | error problem => simp

theorem exists_decode_eq_ok_iff (huri : Spells uri header payload) (hbase64 : AsksBase64 header) :
    (∃ found, decode uri = .ok found) ↔ ∃ data, Base64.decode (base64Text payload) = .ok data := by
  constructor
  · rintro ⟨found, h⟩
    exact ⟨found.data, ((decode_eq_ok_iff huri hbase64).1 h).2⟩
  · rintro ⟨data, h⟩
    exact ⟨⟨mediaType header, data⟩, (decode_eq_ok_iff huri hbase64).2 ⟨rfl, h⟩⟩

theorem exists_of_decode_eq_error (huri : Spells uri header payload) (hbase64 : AsksBase64 header)
    {problem : Problem} (h : decode uri = .error problem) : ∃ p, problem = .base64 p := by
  rw [decode_of_spells huri, decodeParts_of_asksBase64 hbase64] at h
  cases hdecode : Base64.decode (base64Text payload) with
  | ok data =>
      rw [hdecode] at h
      cases h
  | error p =>
      rw [hdecode] at h
      exact ⟨p, (Except.error.inj h).symm⟩

/-- Base64 data. They are decoded exactly if digits stand in the payload, but for escapes and blanks,
and behind them padding that completes the last quad, in part or altogether, or any padding behind
whole quads. Then they are the bytes that the digits stand for; so the encoding of bytes is decoded
to these, padded or not, with blanks and escapes anywhere. -/
theorem decode_base64 (huri : Spells uri header payload) (hbase64 : AsksBase64 header) :
    let text := unblank (Percent.decode payload)
    ((∃ found, decode uri = .ok found) ↔ ∃ digits padding, Base64.Splits text digits padding ∧
      (Base64.Fits digits padding ∨ Base64.Overruns digits padding)) ∧
    (∀ problem, decode uri = .error problem → ∃ p, problem = .base64 p) ∧
    (∀ found digits padding, decode uri = .ok found → Base64.Splits text digits padding →
      found.mimeType = mediaType header ∧ ∀ bs, Base64.StandsFor digits bs ↔ bs = found.data) ∧
    ∀ data blanked, Percent.Renders blanked payload →
      unblank blanked = Base64.encode data ∨
        unblank blanked = Base64.encode data ++ Base64.paddingOf data →
      decode uri = .ok ⟨mediaType header, data⟩ := by
  have htext := base64Text_eq payload
  intro text
  refine ⟨?_, fun problem => exists_of_decode_eq_error huri hbase64, ?_, ?_⟩
  · rw [exists_decode_eq_ok_iff huri hbase64, htext]
    exact Base64.exists_decode_padTo4_iff
  · intro found digits padding hfound hsplits
    obtain ⟨hmime, hdata⟩ := (decode_eq_ok_iff huri hbase64).1 hfound
    rw [htext] at hdata
    have hstands := ((Base64.decode_padTo4_iff hsplits).1 hdata).1
    refine ⟨hmime, fun bs => ⟨fun h => h.unique hstands, ?_⟩⟩
    rintro rfl
    exact hstands
  · intro data blanked hrenders hencoded
    rw [decode_eq_ok_iff huri hbase64, htext, Percent.decode_of_renders hrenders]
    refine ⟨rfl, ?_⟩
    have hencode := Base64.digits_encode data
    have hfits := Base64.fits_encode data
    rcases hencoded with h | h
    · rw [h]
      exact (Base64.decode_padTo4_iff ⟨(List.append_nil _).symm, hencode, by simp⟩).2
        ⟨Base64.standsFor_encode data, .inl hfits.1⟩
    · rw [h]
      exact (Base64.decode_padTo4_iff ⟨rfl, hencode, fun b => List.eq_of_mem_replicate⟩).2
        ⟨Base64.standsFor_encode data, .inl hfits.2⟩

/-- An escape, a tab and a blank in the payload, and padding that completes the last quad. -/
theorem decode_base64_blanked :
    let uri := "DATA:Image/PNG;x; BASE64 ,QU%49\tDR A=="
    let header := "Image/PNG;x; BASE64 ".toList
    let payload := "QU%49\tDR A==".toList
    Spells uri header payload ∧ AsksBase64 header ∧
      decode uri = .ok ⟨"image/png", [0x41, 0x42, 0x03, 0x44]⟩ := by
  intro uri header payload
  have huri : Spells uri header payload :=
    ⟨⟨"DATA:".toList, by decide +kernel, by decide +kernel⟩, by decide +kernel⟩
  have hbase64 : AsksBase64 header := by
    unfold AsksBase64
    decide +kernel
  have hrenders : Percent.Renders _
      ['Q', 'U', '%', '4', '9', '\t', 'D', 'R', ' ', 'A', '=', '='] :=
    .literal (by decide) <| .literal (by decide) <| .escape (h := 4) (l := 9) ⟨by decide, by decide⟩
      ⟨by decide, by decide⟩ <| .literal (by decide) <| .literal (by decide) <|
        .literal (by decide) <| .literal (by decide) <| .literal (by decide) <|
          .literal (by decide) <| .literal (by decide) .nil
  have hmedia : mediaType header = "image/png" := by decide +kernel
  refine ⟨huri, hbase64, ?_⟩
  rw [← hmedia]
  exact (decode_base64 huri hbase64).2.2.2 [0x41, 0x42, 0x03, 0x44] _ hrenders
    (.inr (by decide +kernel))

/-- A sign of padding behind a whole quad. The text is filled up with three more, and the decoder
passes over all four. -/
theorem decode_base64_overrun :
    let uri := "data:;base64,QUJD="
    let header := ";base64".toList
    let payload := "QUJD=".toList
    Spells uri header payload ∧ AsksBase64 header ∧
      decode uri = .ok ⟨"text/plain", [0x41, 0x42, 0x43]⟩ ∧
      ¬∃ digits padding, Base64.Splits (unblank (Percent.decode payload)) digits padding ∧
        Base64.Fits digits padding := by
  intro uri header payload
  refine ⟨⟨⟨"data:".toList, by decide +kernel, by decide +kernel⟩, by decide +kernel⟩, ?_,
    by decide +kernel, ?_⟩
  · unfold AsksBase64
    decide +kernel
  · rintro ⟨digits, padding, hsplits, hfits⟩
    have hquad : Base64.Splits (unblank (Percent.decode payload)) [0x51, 0x55, 0x4a, 0x44] [0x3d] :=
      ⟨by decide +kernel, by decide +kernel, List.forall_mem_singleton.2 rfl⟩
    obtain ⟨rfl, rfl⟩ := hsplits.unique hquad
    exact absurd hfits (by unfold Base64.Fits; decide)

end Gltf.DataUri
