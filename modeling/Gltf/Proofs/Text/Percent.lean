import Gltf.Proofs.Text.Case
import Gltf.Proofs.Text.Utf8
import Gltf.Text.Percent
import Mathlib

/-!
Percent-encoding read backwards. A text renders bytes if it is made of escapes, one for a byte, and
of characters that stand for their own bytes. What a text renders is what it is decoded to.
-/

namespace Gltf.Percent

/-- A hexadecimal digit in either case. -/
def IsDigit (c : Char) (value : ℕ) : Prop := value < 16 ∧ c.toLower = Nat.digitChar value

/-- Texts that stand for bytes, piece by piece. Only a percent sign cannot stand for itself. -/
inductive Renders : Bytes → List Char → Prop
  | nil : Renders [] []
  | escape {high low : Char} {h l : ℕ} {bs : Bytes} {cs : List Char} (hhigh : IsDigit high h)
      (hlow : IsDigit low l) (rest : Renders bs cs) :
      Renders (UInt8.ofNat (16 * h + l) :: bs) ('%' :: high :: low :: cs)
  | literal {c : Char} {bs : Bytes} {cs : List Char} (hc : c ≠ '%') (rest : Renders bs cs) :
      Renders (String.utf8EncodeChar c ++ bs) (c :: cs)

/-! ### Digits -/

variable {c high low : Char} {value h l : ℕ} {as bs : Bytes} {cs : List Char}

theorem IsDigit.toNat_lt (hc : IsDigit c value) : c.toNat < 0x80 := by
  obtain ⟨hvalue, hlower⟩ := hc
  have hdigit : (Nat.digitChar value).toNat < 0x80 := by
    interval_cases value <;> decide
  rcases Text.toNat_of_toLower hlower with h | h <;> omega

theorem hexDigit?_of_isDigit (hc : IsDigit c value) :
    hexDigit? (UInt8.ofNat c.toNat) = some (UInt8.ofNat value) := by
  have htable : ∀ v < 16, ∀ n < 0x80,
      (n = (Nat.digitChar v).toNat ∨ 0x41 ≤ n ∧ n ≤ 0x5a ∧ n + 32 = (Nat.digitChar v).toNat) →
        hexDigit? (UInt8.ofNat n) = some (UInt8.ofNat v) := by
    decide +kernel
  exact htable value hc.1 c.toNat hc.toNat_lt (Text.toNat_of_toLower hc.2)

/-! ### Pieces -/

theorem decodeBytes_cons_of_ne {b : UInt8} (hb : b ≠ 0x25) (bs : Bytes) :
    decodeBytes (b :: bs) = b :: decodeBytes bs := by
  match bs with
  | [] => rfl
  | [_] => rfl
  | high :: low :: bs => rw [decodeBytes, escape?, if_neg hb]

theorem decodeBytes_append (has : 0x25 ∉ as) (bs : Bytes) :
    decodeBytes (as ++ bs) = as ++ decodeBytes bs := by
  induction as with
  | nil => rfl
  | cons a as ih =>
      rw [List.mem_cons, not_or] at has
      rw [List.cons_append, decodeBytes_cons_of_ne (Ne.symm has.1), ih has.2, List.cons_append]

theorem decodeBytes_escape (hhigh : IsDigit high h) (hlow : IsDigit low l) (bs : Bytes) :
    decodeBytes (Utf8.encode ['%', high, low] ++ bs) =
      UInt8.ofNat (16 * h + l) :: decodeBytes bs := by
  have hbytes : Utf8.encode ['%', high, low] =
      [0x25, UInt8.ofNat high.toNat, UInt8.ofNat low.toNat] := by
    rw [Utf8.encode_cons, Utf8.encode_cons, Utf8.encode_cons,
      Utf8.encodeChar_of_ascii hhigh.toNat_lt, Utf8.encodeChar_of_ascii hlow.toNat_lt]
    rfl
  have hescape : escape? 0x25 (UInt8.ofNat high.toNat) (UInt8.ofNat low.toNat) =
      some (UInt8.ofNat (16 * h + l)) := by
    rw [escape?, if_pos rfl, hexDigit?_of_isDigit hhigh, hexDigit?_of_isDigit hlow]
    simp
  rw [hbytes]
  simp only [List.cons_append, List.nil_append, decodeBytes, hescape]

/-- No byte of another character is a percent sign. -/
theorem notMem_encodeChar (hc : c ≠ '%') : 0x25 ∉ Utf8.encodeChar c := by
  intro hmem
  by_cases hascii : c.toNat < 0x80
  · rw [Utf8.encodeChar_of_ascii hascii, List.mem_singleton] at hmem
    refine hc (Char.toNat_inj.1 ?_)
    rw [← Utf8.toNat_ofNat_of_lt (n := c.toNat) (by omega), ← hmem]
    rfl
  · have hlarge : ∀ b ∈ Utf8.encodeChar c, 0x80 ≤ b.toNat := by
      have hlast := Utf8.toNat_lt c
      simp only [Utf8.encodeChar, if_neg hascii]
      split_ifs <;> simp only [List.mem_cons, List.not_mem_nil, or_false, forall_eq_or_imp,
        forall_eq, UInt8.toNat_ofNat'] <;> omega
    exact absurd (hlarge _ hmem) (by decide)

/-- A text is decoded to the bytes that it renders. -/
theorem decode_of_renders (h : Renders bs cs) : decode cs = bs := by
  rw [decode]
  -- A literal has no sign among its bytes, so it takes no part in what is read as an escape.
  induction h with
  | nil => rfl
  | @escape high low _ _ _ cs hhigh hlow rest ih =>
      rw [show '%' :: high :: low :: cs = ['%', high, low] ++ cs from rfl, Utf8.encode_append,
        decodeBytes_escape hhigh hlow, ih]
  | literal hc rest ih =>
      rw [Utf8.encode_cons, decodeBytes_append (notMem_encodeChar hc), ih,
        Utf8.encodeChar_eq_utf8EncodeChar]

end Gltf.Percent
