import Gltf.Text.Utf8
import Mathlib

/-!
UTF-8 texts. A byte string is decoded exactly if it is the encoding of some characters, which then
are the result; each character is encoded in the one shortest form that it has. In any other byte
string decoding stops behind the longest beginning that is a text.
-/

namespace Gltf.Utf8

theorem ofNat_eq_of_toNat {n : Nat} {b : UInt8} (h : n = b.toNat) : UInt8.ofNat n = b := by
  rw [h, UInt8.ofNat_toNat]

theorem toNat_ofNat_of_lt {n : Nat} (h : n < 256) : (UInt8.ofNat n).toNat = n := by
  rw [UInt8.toNat_ofNat']
  exact Nat.mod_eq_of_lt h

theorem toNat_lt (c : Char) : c.toNat < 0x110000 := by
  have hvalid := c.valid
  simp only [UInt32.isValidChar, Nat.isValidChar] at hvalid
  show c.val.toNat < 0x110000
  omega

/-- The bytes of a character are those that the strings of Lean give it. -/
theorem encodeChar_eq_utf8EncodeChar (c : Char) : encodeChar c = String.utf8EncodeChar c := by
  have hlast : c.val.toNat < 0x110000 := toNat_lt c
  have hbyte {a b : Nat} (h : a = b) : UInt8.ofNat a = UInt8.ofNat b := congrArg _ h
  simp only [encodeChar, String.utf8EncodeChar, Char.toNat]
  split_ifs
  · rfl
  any_goals omega
  all_goals
    simp only [List.cons.injEq, and_true]
    refine ⟨hbyte ?_, ?_⟩
    · omega
  · exact hbyte (by omega)
  · exact ⟨hbyte (by omega), hbyte (by omega)⟩
  · exact ⟨hbyte (by omega), hbyte (by omega), hbyte (by omega)⟩

/-- The lead byte by its number. -/
theorem lead_eq (b : UInt8) :
    lead b =
      if b.toNat < 0x80 then .ascii (Char.ofNat b.toNat)
      else if b.toNat < 0xc2 then .invalid
      else if b.toNat < 0xe0 then .pending ⟨b.toNat % 32, 0, 0x80, 0xbf⟩
      else if b.toNat = 0xe0 then .pending ⟨b.toNat % 16, 1, 0xa0, 0xbf⟩
      else if b.toNat = 0xed then .pending ⟨b.toNat % 16, 1, 0x80, 0x9f⟩
      else if b.toNat < 0xf0 then .pending ⟨b.toNat % 16, 1, 0x80, 0xbf⟩
      else if b.toNat = 0xf0 then .pending ⟨b.toNat % 8, 2, 0x90, 0xbf⟩
      else if b.toNat < 0xf4 then .pending ⟨b.toNat % 8, 2, 0x80, 0xbf⟩
      else if b.toNat = 0xf4 then .pending ⟨b.toNat % 8, 2, 0x80, 0x8f⟩
      else .invalid := by
  simp only [lead, UInt8.lt_iff_toNat_lt, ← UInt8.toNat_inj]
  rfl

/-! ### The bytes of a character -/

/-- A byte behind the first one of a character. -/
def Trails (b : UInt8) : Prop := 0x80 ≤ b.toNat ∧ b.toNat ≤ 0xbf

theorem encodeChar_of_ascii {c : Char} (h : c.toNat < 0x80) :
    encodeChar c = [UInt8.ofNat c.toNat] := by
  rw [encodeChar, if_pos h]

theorem encodeChar_one {b : UInt8} (h : b.toNat < 0x80) : encodeChar (Char.ofNat b.toNat) = [b] := by
  have hnumber : (Char.ofNat b.toNat).toNat = b.toNat := by
    rw [Char.toNat_ofNat, if_pos]
    exact .inl (by omega)
  rw [encodeChar_of_ascii (hnumber.trans_lt h), hnumber, UInt8.ofNat_toNat]

theorem encodeChar_two {b b₁ : UInt8} (least : 0xc2 ≤ b.toNat) (greatest : b.toNat < 0xe0)
    (h₁ : Trails b₁) :
    encodeChar (Char.ofNat (b.toNat % 32 * 64 + b₁.toNat % 64)) = [b, b₁] := by
  obtain ⟨least₁, greatest₁⟩ := h₁
  generalize hn : b.toNat % 32 * 64 + b₁.toNat % 64 = n
  have hnumber : (Char.ofNat n).toNat = n := by
    rw [Char.toNat_ofNat, if_pos]
    exact .inl (by omega)
  simp only [encodeChar, hnumber]
  rw [if_neg (by omega), if_pos (by omega), ofNat_eq_of_toNat (b := b) (by omega),
    ofNat_eq_of_toNat (b := b₁) (by omega)]

theorem encodeChar_three {b b₁ b₂ : UInt8} (least : 0xe0 ≤ b.toNat) (greatest : b.toNat < 0xf0)
    (h₁ : Trails b₁) (h₂ : Trails b₂) (shortest : b.toNat = 0xe0 → 0xa0 ≤ b₁.toNat)
    (scalar : b.toNat = 0xed → b₁.toNat ≤ 0x9f) :
    encodeChar (Char.ofNat ((b.toNat % 16 * 64 + b₁.toNat % 64) * 64 + b₂.toNat % 64)) =
      [b, b₁, b₂] := by
  obtain ⟨least₁, greatest₁⟩ := h₁
  obtain ⟨least₂, greatest₂⟩ := h₂
  generalize hn : (b.toNat % 16 * 64 + b₁.toNat % 64) * 64 + b₂.toNat % 64 = n
  have hnumber : (Char.ofNat n).toNat = n := by
    rw [Char.toNat_ofNat, if_pos]
    by_cases hlow : n < 0xd800
    · exact .inl hlow
    · exact .inr ⟨by omega, by omega⟩
  simp only [encodeChar, hnumber]
  rw [if_neg (by omega), if_neg (by omega), if_pos (by omega),
    ofNat_eq_of_toNat (b := b) (by omega), ofNat_eq_of_toNat (b := b₁) (by omega),
    ofNat_eq_of_toNat (b := b₂) (by omega)]

theorem encodeChar_four {b b₁ b₂ b₃ : UInt8} (least : 0xf0 ≤ b.toNat) (greatest : b.toNat < 0xf5)
    (h₁ : Trails b₁) (h₂ : Trails b₂) (h₃ : Trails b₃)
    (shortest : b.toNat = 0xf0 → 0x90 ≤ b₁.toNat) (scalar : b.toNat = 0xf4 → b₁.toNat ≤ 0x8f) :
    encodeChar (Char.ofNat (((b.toNat % 8 * 64 + b₁.toNat % 64) * 64 + b₂.toNat % 64) * 64 +
      b₃.toNat % 64)) = [b, b₁, b₂, b₃] := by
  obtain ⟨least₁, greatest₁⟩ := h₁
  obtain ⟨least₂, greatest₂⟩ := h₂
  obtain ⟨least₃, greatest₃⟩ := h₃
  generalize hn : ((b.toNat % 8 * 64 + b₁.toNat % 64) * 64 + b₂.toNat % 64) * 64 +
    b₃.toNat % 64 = n
  have hnumber : (Char.ofNat n).toNat = n := by
    rw [Char.toNat_ofNat, if_pos]
    exact .inr ⟨by omega, by omega⟩
  simp only [encodeChar, hnumber]
  rw [if_neg (by omega), if_neg (by omega), if_neg (by omega),
    ofNat_eq_of_toNat (b := b) (by omega), ofNat_eq_of_toNat (b := b₁) (by omega),
    ofNat_eq_of_toNat (b := b₂) (by omega), ofNat_eq_of_toNat (b := b₃) (by omega)]

/-- The bytes that finish a character, and its number. -/
inductive Finishes : Pending → Bytes → Nat → Prop
  | last {value : Nat} {low high b : UInt8} (least : low.toNat ≤ b.toNat)
      (greatest : b.toNat ≤ high.toNat) :
      Finishes ⟨value, 0, low, high⟩ [b] (value * 64 + b.toNat % 64)
  | more {value missing n : Nat} {low high b : UInt8} {bytes : Bytes} (least : low.toNat ≤ b.toNat)
      (greatest : b.toNat ≤ high.toNat)
      (h : Finishes ⟨value * 64 + b.toNat % 64, missing, 0x80, 0xbf⟩ bytes n) :
      Finishes ⟨value, missing + 1, low, high⟩ (b :: bytes) n

theorem Finishes.one {value n : Nat} {low high : UInt8} {bytes : Bytes}
    (h : Finishes ⟨value, 0, low, high⟩ bytes n) :
    ∃ b, bytes = [b] ∧ n = value * 64 + b.toNat % 64 ∧ low.toNat ≤ b.toNat ∧
      b.toNat ≤ high.toNat := by
  cases h with
  | last least greatest => exact ⟨_, rfl, rfl, least, greatest⟩

theorem Finishes.two {value n : Nat} {low high : UInt8} {bytes : Bytes}
    (h : Finishes ⟨value, 1, low, high⟩ bytes n) :
    ∃ b b', bytes = [b, b'] ∧ n = (value * 64 + b.toNat % 64) * 64 + b'.toNat % 64 ∧
      low.toNat ≤ b.toNat ∧ b.toNat ≤ high.toNat ∧ Trails b' := by
  cases h with
  | more least greatest h =>
      obtain ⟨b', rfl, rfl, least', greatest'⟩ := h.one
      exact ⟨_, b', rfl, rfl, least, greatest, least', greatest'⟩

theorem Finishes.three {value n : Nat} {low high : UInt8} {bytes : Bytes}
    (h : Finishes ⟨value, 2, low, high⟩ bytes n) :
    ∃ b b' b'', bytes = [b, b', b''] ∧
      n = ((value * 64 + b.toNat % 64) * 64 + b'.toNat % 64) * 64 + b''.toNat % 64 ∧
      low.toNat ≤ b.toNat ∧ b.toNat ≤ high.toNat ∧ Trails b' ∧ Trails b'' := by
  cases h with
  | more least greatest h =>
      obtain ⟨b', b'', rfl, rfl, least', greatest', h''⟩ := h.two
      exact ⟨_, b', b'', rfl, rfl, least, greatest, ⟨least', greatest'⟩, h''⟩

/-- What a lead byte and the bytes that finish its character make is how the character is
encoded. -/
theorem encodeChar_of_finishes {b : UInt8} {p : Pending} {bytes : Bytes} {n : Nat}
    (hlead : lead b = .pending p) (h : Finishes p bytes n) :
    encodeChar (Char.ofNat n) = b :: bytes := by
  rw [lead_eq] at hlead
  split_ifs at hlead with h₁ h₂ h₃ h₄ h₅ h₆ h₇ h₈ h₉ <;> cases hlead
  · obtain ⟨b₁, rfl, rfl, hb₁⟩ := h.one
    exact encodeChar_two (by omega) h₃ hb₁
  · obtain ⟨b₁, b₂, rfl, rfl, least, greatest, hb₂⟩ := h.two
    have least : 0xa0 ≤ b₁.toNat := least
    exact encodeChar_three (by omega) (by omega) ⟨by omega, greatest⟩ hb₂ (fun _ => least)
      (by omega)
  · obtain ⟨b₁, b₂, rfl, rfl, least, greatest, hb₂⟩ := h.two
    have greatest : b₁.toNat ≤ 0x9f := greatest
    exact encodeChar_three (by omega) (by omega) ⟨least, by omega⟩ hb₂ (by omega)
      (fun _ => greatest)
  · obtain ⟨b₁, b₂, rfl, rfl, least, greatest, hb₂⟩ := h.two
    exact encodeChar_three (by omega) (by omega) ⟨least, greatest⟩ hb₂ (by omega) (by omega)
  · obtain ⟨b₁, b₂, b₃, rfl, rfl, least, greatest, hb₂, hb₃⟩ := h.three
    have least : 0x90 ≤ b₁.toNat := least
    exact encodeChar_four (by omega) (by omega) ⟨by omega, greatest⟩ hb₂ hb₃ (fun _ => least)
      (by omega)
  · obtain ⟨b₁, b₂, b₃, rfl, rfl, least, greatest, hb₂, hb₃⟩ := h.three
    exact encodeChar_four (by omega) (by omega) ⟨least, greatest⟩ hb₂ hb₃ (by omega) (by omega)
  · obtain ⟨b₁, b₂, b₃, rfl, rfl, least, greatest, hb₂, hb₃⟩ := h.three
    have greatest : b₁.toNat ≤ 0x8f := greatest
    exact encodeChar_four (by omega) (by omega) ⟨least, by omega⟩ hb₂ hb₃ (by omega)
      (fun _ => greatest)

theorem Finishes.of_one {value n : Nat} {low high b : UInt8} (least : low.toNat ≤ b.toNat)
    (greatest : b.toNat ≤ high.toNat) (hn : value * 64 + b.toNat % 64 = n) :
    Finishes ⟨value, 0, low, high⟩ [b] n :=
  hn ▸ .last least greatest

theorem Finishes.of_two {value n : Nat} {low high b b' : UInt8} (least : low.toNat ≤ b.toNat)
    (greatest : b.toNat ≤ high.toNat) (h' : Trails b')
    (hn : (value * 64 + b.toNat % 64) * 64 + b'.toNat % 64 = n) :
    Finishes ⟨value, 1, low, high⟩ [b, b'] n :=
  .more least greatest (.of_one h'.1 h'.2 hn)

theorem Finishes.of_three {value n : Nat} {low high b b' b'' : UInt8}
    (least : low.toNat ≤ b.toNat) (greatest : b.toNat ≤ high.toNat) (h' : Trails b')
    (h'' : Trails b'')
    (hn : ((value * 64 + b.toNat % 64) * 64 + b'.toNat % 64) * 64 + b''.toNat % 64 = n) :
    Finishes ⟨value, 2, low, high⟩ [b, b', b''] n :=
  .more least greatest (.of_two h'.1 h'.2 h'' hn)

theorem not_surrogate (c : Char) : c.toNat < 0xd800 ∨ 0xdfff < c.toNat := by
  have hvalid := c.valid
  simp only [UInt32.isValidChar, Nat.isValidChar] at hvalid
  show c.val.toNat < 0xd800 ∨ 0xdfff < c.val.toNat
  omega

/-- A byte of given number. -/
theorem exists_byte {n : Nat} (h : n < 256) : ∃ b, UInt8.ofNat n = b ∧ b.toNat = n :=
  ⟨_, rfl, toNat_ofNat_of_lt h⟩

theorem exists_trailing {n : Nat} (h : n < 64) :
    ∃ b, UInt8.ofNat (0x80 + n) = b ∧ b.toNat = 0x80 + n ∧ Trails b := by
  obtain ⟨b, hb, hnumber⟩ := exists_byte (n := 0x80 + n) (by omega)
  exact ⟨b, hb, hnumber, by omega, by omega⟩

theorem exists_finishes_two {c : Char} (least : 0x80 ≤ c.toNat) (greatest : c.toNat < 0x800) :
    ∃ b p bytes, encodeChar c = b :: bytes ∧ lead b = .pending p ∧ Finishes p bytes c.toNat := by
  simp only [encodeChar]
  generalize c.toNat = n at least greatest ⊢
  obtain ⟨b, hb, hnumber⟩ := exists_byte (n := 0xc0 + n / 64) (by omega)
  obtain ⟨b₁, hb₁, hnumber₁, htrails₁⟩ := exists_trailing (n := n % 64) (by omega)
  rw [if_neg (by omega), if_pos greatest, hb, hb₁]
  have hvalue : b.toNat % 32 * 64 + b₁.toNat % 64 = n := by omega
  refine ⟨b, ⟨_, 0, 0x80, 0xbf⟩, _, rfl, ?_, .of_one htrails₁.1 htrails₁.2 hvalue⟩
  rw [lead_eq, if_neg (by omega), if_neg (by omega), if_pos (by omega)]

theorem exists_finishes_three {c : Char} (least : 0x800 ≤ c.toNat) (greatest : c.toNat < 0x10000) :
    ∃ b p bytes, encodeChar c = b :: bytes ∧ lead b = .pending p ∧ Finishes p bytes c.toNat := by
  have hscalar := not_surrogate c
  simp only [encodeChar]
  generalize c.toNat = n at least greatest hscalar ⊢
  obtain ⟨b, hb, hnumber⟩ := exists_byte (n := 0xe0 + n / 4096) (by omega)
  obtain ⟨b₁, hb₁, hnumber₁, htrails₁⟩ := exists_trailing (n := n / 64 % 64) (by omega)
  obtain ⟨b₂, hb₂, hnumber₂, htrails₂⟩ := exists_trailing (n := n % 64) (by omega)
  rw [if_neg (by omega), if_neg (by omega), if_pos greatest, hb, hb₁, hb₂]
  have hvalue : (b.toNat % 16 * 64 + b₁.toNat % 64) * 64 + b₂.toNat % 64 = n := by omega
  by_cases hfirst : b.toNat = 0xe0
  · have hleast : 0xa0 ≤ b₁.toNat := by omega
    refine ⟨b, ⟨_, 1, 0xa0, 0xbf⟩, _, rfl, ?_, .of_two hleast htrails₁.2 htrails₂ hvalue⟩
    rw [lead_eq, if_neg (by omega), if_neg (by omega), if_neg (by omega), if_pos hfirst]
  · by_cases hlast : b.toNat = 0xed
    · have hgreatest : b₁.toNat ≤ 0x9f := by omega
      refine ⟨b, ⟨_, 1, 0x80, 0x9f⟩, _, rfl, ?_, .of_two htrails₁.1 hgreatest htrails₂ hvalue⟩
      rw [lead_eq, if_neg (by omega), if_neg (by omega), if_neg (by omega), if_neg hfirst,
        if_pos hlast]
    · refine ⟨b, ⟨_, 1, 0x80, 0xbf⟩, _, rfl, ?_, .of_two htrails₁.1 htrails₁.2 htrails₂ hvalue⟩
      rw [lead_eq, if_neg (by omega), if_neg (by omega), if_neg (by omega), if_neg hfirst,
        if_neg hlast, if_pos (by omega)]

theorem exists_finishes_four {c : Char} (least : 0x10000 ≤ c.toNat) :
    ∃ b p bytes, encodeChar c = b :: bytes ∧ lead b = .pending p ∧ Finishes p bytes c.toNat := by
  have hscalar := toNat_lt c
  simp only [encodeChar]
  generalize c.toNat = n at least hscalar ⊢
  obtain ⟨b, hb, hnumber⟩ := exists_byte (n := 0xf0 + n / 262144) (by omega)
  obtain ⟨b₁, hb₁, hnumber₁, htrails₁⟩ := exists_trailing (n := n / 4096 % 64) (by omega)
  obtain ⟨b₂, hb₂, hnumber₂, htrails₂⟩ := exists_trailing (n := n / 64 % 64) (by omega)
  obtain ⟨b₃, hb₃, hnumber₃, htrails₃⟩ := exists_trailing (n := n % 64) (by omega)
  rw [if_neg (by omega), if_neg (by omega), if_neg (by omega), hb, hb₁, hb₂, hb₃]
  have hvalue : ((b.toNat % 8 * 64 + b₁.toNat % 64) * 64 + b₂.toNat % 64) * 64 +
      b₃.toNat % 64 = n := by omega
  by_cases hfirst : b.toNat = 0xf0
  · have hleast : 0x90 ≤ b₁.toNat := by omega
    refine ⟨b, ⟨_, 2, 0x90, 0xbf⟩, _, rfl, ?_,
      .of_three hleast htrails₁.2 htrails₂ htrails₃ hvalue⟩
    rw [lead_eq, if_neg (by omega), if_neg (by omega), if_neg (by omega), if_neg (by omega),
      if_neg (by omega), if_neg (by omega), if_pos hfirst]
  · by_cases hlast : b.toNat = 0xf4
    · have hgreatest : b₁.toNat ≤ 0x8f := by omega
      refine ⟨b, ⟨_, 2, 0x80, 0x8f⟩, _, rfl, ?_,
        .of_three htrails₁.1 hgreatest htrails₂ htrails₃ hvalue⟩
      rw [lead_eq, if_neg (by omega), if_neg (by omega), if_neg (by omega), if_neg (by omega),
        if_neg (by omega), if_neg (by omega), if_neg hfirst, if_neg (by omega), if_pos hlast]
    · refine ⟨b, ⟨_, 2, 0x80, 0xbf⟩, _, rfl, ?_,
        .of_three htrails₁.1 htrails₁.2 htrails₂ htrails₃ hvalue⟩
      rw [lead_eq, if_neg (by omega), if_neg (by omega), if_neg (by omega), if_neg (by omega),
        if_neg (by omega), if_neg (by omega), if_neg hfirst, if_pos (by omega)]

/-- A character that is not ASCII has a lead byte and bytes that finish it. -/
theorem exists_finishes {c : Char} (h : 0x80 ≤ c.toNat) :
    ∃ b p bytes, encodeChar c = b :: bytes ∧ lead b = .pending p ∧ Finishes p bytes c.toNat := by
  by_cases htwo : c.toNat < 0x800
  · exact exists_finishes_two h htwo
  · by_cases hthree : c.toNat < 0x10000
    · exact exists_finishes_three (by omega) hthree
    · exact exists_finishes_four (by omega)

/-! ### Texts -/

theorem size_append (cs ds : List Char) : size (cs ++ ds) = size cs + size ds := by
  rw [size, encode_append, List.length_append]
  rfl

theorem size_cons (c : Char) (cs : List Char) : size (c :: cs) = (encodeChar c).length + size cs := by
  rw [size, encode_cons, List.length_append]
  rfl

/-- Inside a character the machine reads the bytes that finish it. -/
theorem decodeFrom_of_finishes {p : Pending} {bytes : Bytes} {n : Nat} (h : Finishes p bytes n)
    (done : List Char) (start here : Nat) (rest : Bytes) :
    decodeFrom done start here (some p) (bytes ++ rest) =
      decodeFrom (Char.ofNat n :: done) (here + bytes.length) (here + bytes.length) none rest := by
  induction h generalizing here with
  | @last value low high b least greatest =>
      have hbounds : low ≤ b ∧ b ≤ high := ⟨least, greatest⟩
      rw [List.singleton_append, decodeFrom, Pending.step, if_pos hbounds]
      rfl
  | @more value missing n low high b bytes least greatest _ ih =>
      have hbounds : low ≤ b ∧ b ≤ high := ⟨least, greatest⟩
      rw [List.cons_append, decodeFrom, Pending.step, if_pos hbounds, List.length_cons,
        Nat.add_comm bytes.length, ← Nat.add_assoc]
      exact ih (here + 1)

/-- What follows a lead byte finishes the character, or the machine stops at that character. -/
theorem finishes_or_stops (p : Pending) (bs : Bytes) :
    (∃ bytes n rest, bs = bytes ++ rest ∧ Finishes p bytes n) ∨
      ∃ problem, ∀ done start here,
        decodeFrom done start here (some p) bs = .error ⟨problem, start⟩ := by
  obtain ⟨value, missing, low, high⟩ := p
  induction missing generalizing value low high bs with
  | zero =>
      cases bs with
      | nil => exact .inr ⟨.unexpectedEnd, fun _ _ _ => rfl⟩
      | cons b bs =>
          by_cases hbounds : low ≤ b ∧ b ≤ high
          · exact .inl ⟨[b], _, bs, rfl, .last hbounds.1 hbounds.2⟩
          · refine .inr ⟨.continuationByte, fun done start here => ?_⟩
            rw [decodeFrom, Pending.step, if_neg hbounds]
  | succ missing ih =>
      cases bs with
      | nil => exact .inr ⟨.unexpectedEnd, fun _ _ _ => rfl⟩
      | cons b bs =>
          by_cases hbounds : low ≤ b ∧ b ≤ high
          · rcases ih bs (value * 64 + b.toNat % 64) 0x80 0xbf with
              ⟨bytes, n, rest, rfl, hfinishes⟩ | ⟨problem, hstops⟩
            · exact .inl ⟨b :: bytes, n, rest, rfl, .more hbounds.1 hbounds.2 hfinishes⟩
            · refine .inr ⟨problem, fun done start here => ?_⟩
              rw [decodeFrom, Pending.step, if_pos hbounds]
              exact hstops done start (here + 1)
          · refine .inr ⟨.continuationByte, fun done start here => ?_⟩
            rw [decodeFrom, Pending.step, if_neg hbounds]

theorem decodeFrom_encodeChar_append (c : Char) (done : List Char) (start here : Nat)
    (rest : Bytes) :
    decodeFrom done start here none (encodeChar c ++ rest) =
      decodeFrom (c :: done) (here + (encodeChar c).length) (here + (encodeChar c).length) none
        rest := by
  by_cases hascii : c.toNat < 0x80
  · have hnumber : (UInt8.ofNat c.toNat).toNat = c.toNat := toNat_ofNat_of_lt (by omega)
    have hlead : lead (UInt8.ofNat c.toNat) = .ascii c := by
      rw [lead_eq, hnumber, if_pos hascii, Char.ofNat_toNat]
    rw [encodeChar_of_ascii hascii, List.singleton_append, decodeFrom, hlead]
    rfl
  · obtain ⟨b, p, bytes, hencode, hlead, hfinishes⟩ := exists_finishes (not_lt.1 hascii)
    have hread := decodeFrom_of_finishes hfinishes done start (here + 1) rest
    rw [Char.ofNat_toNat] at hread
    rw [hencode, List.cons_append, decodeFrom, hlead, List.length_cons, Nat.add_comm bytes.length,
      ← Nat.add_assoc]
    exact hread

/-- Of bytes that begin with a text, the machine reads the text first. -/
theorem decodeFrom_encode_append (text done : List Char) (here : Nat) (rest : Bytes) :
    decodeFrom done here here none (encode text ++ rest) =
      decodeFrom (text.reverse ++ done) (here + size text) (here + size text) none rest := by
  induction text generalizing done here with
  | nil => rfl
  | cons c text ih =>
      rw [encode_cons, List.append_assoc, decodeFrom_encodeChar_append, ih, size_cons,
        List.reverse_cons, List.append_assoc, List.singleton_append, Nat.add_assoc]

/-- Bytes are a text up to where they end or the machine stops. -/
theorem exists_text_prefix (bs : Bytes) :
    ∃ text rest, bs = encode text ++ rest ∧ (rest = [] ∨ ∃ problem, ∀ done here,
      decodeFrom done here here none rest = .error ⟨problem, here⟩) := by
  -- A character takes several bytes, so the induction is on the number of those left.
  induction hlength : bs.length using Nat.strong_induction_on generalizing bs with
  | _ k ih =>
      subst hlength
      cases bs with
      | nil => exact ⟨[], [], rfl, .inl rfl⟩
      | cons b bs =>
          cases hlead : lead b with
          | ascii c =>
              obtain ⟨text, rest, rfl, hrest⟩ := ih bs.length (by simp) bs rfl
              refine ⟨c :: text, rest, ?_, hrest⟩
              rw [lead_eq] at hlead
              split_ifs at hlead with hascii
              cases hlead
              rw [encode_cons, encodeChar_one hascii]
              rfl
          | invalid =>
              refine ⟨[], b :: bs, rfl, .inr ⟨.startByte, fun done here => ?_⟩⟩
              rw [decodeFrom, hlead]
          | pending p =>
              rcases finishes_or_stops p bs with
                ⟨bytes, n, rest, rfl, hfinishes⟩ | ⟨problem, hstops⟩
              · obtain ⟨text, rest, rfl, hrest⟩ := ih rest.length (by simp) rest rfl
                refine ⟨Char.ofNat n :: text, rest, ?_, hrest⟩
                rw [encode_cons, encodeChar_of_finishes hlead hfinishes]
                simp
              · refine ⟨[], b :: bs, rfl, .inr ⟨problem, fun done here => ?_⟩⟩
                rw [decodeFrom, hlead]
                exact hstops done here (here + 1)

theorem decode_encode (text : List Char) : decode (encode text) = .ok text := by
  have hread := decodeFrom_encode_append text [] 0 []
  rw [List.append_nil, List.append_nil, decodeFrom, List.reverse_reverse] at hread
  exact hread

/-- A byte string is decoded exactly if it is the encoding of some characters. -/
theorem decode_eq_ok_iff {bs : Bytes} {text : List Char} :
    decode bs = .ok text ↔ bs = encode text := by
  constructor
  · intro h
    obtain ⟨text', rest, rfl, rfl | ⟨problem, hstops⟩⟩ := exists_text_prefix bs
    · rw [List.append_nil, decode_encode] at h
      rw [List.append_nil, Except.ok.inj h]
    · rw [decode, decodeFrom_encode_append, hstops] at h
      cases h
  · rintro rfl
    exact decode_encode text

theorem encode_injective : Function.Injective encode := by
  intro cs cs' h
  have hdecode := decode_eq_ok_iff.2 h
  rw [decode_encode] at hdecode
  exact Except.ok.inj hdecode

/-! ### Beginnings that are texts -/

/-- Bytes that are the encoding of some characters. -/
def IsText (bs : Bytes) : Prop := ∃ text, bs = encode text

theorem isText_append_iff {text : List Char} {bs : Bytes} :
    IsText (encode text ++ bs) ↔ IsText bs := by
  constructor
  · rintro ⟨whole, hwhole⟩
    obtain ⟨more, rest, rfl, rfl | ⟨problem, hstops⟩⟩ := exists_text_prefix bs
    · exact ⟨more, List.append_nil _⟩
    · have hdecode := decode_eq_ok_iff.2 hwhole
      rw [← List.append_assoc, ← encode_append, decode, decodeFrom_encode_append, hstops] at hdecode
      cases hdecode
  · rintro ⟨more, rfl⟩
    exact ⟨text ++ more, (encode_append text more).symm⟩

/-- The machine does not stop inside of a text. -/
theorem size_le_offset {text : List Char} {bs : Bytes} {e : Error}
    (h : decode (encode text ++ bs) = .error e) : size text ≤ e.offset := by
  obtain ⟨more, rest, rfl, rfl | ⟨problem, hstops⟩⟩ := exists_text_prefix bs
  · rw [List.append_nil, ← encode_append, decode_encode] at h
    cases h
  · rw [← List.append_assoc, ← encode_append, decode, decodeFrom_encode_append, hstops,
      size_append] at h
    cases h
    dsimp only
    omega

/-- The machine stops behind the longest beginning that is a text. -/
theorem offset_of_decode {bs : Bytes} {e : Error} (h : decode bs = .error e) :
    IsGreatest {n | n ≤ bs.length ∧ IsText (bs.take n)} e.offset := by
  constructor
  · obtain ⟨before, rest, rfl, rfl | ⟨problem, hstops⟩⟩ := exists_text_prefix bs
    · rw [List.append_nil, decode_encode] at h
      cases h
    · rw [decode, decodeFrom_encode_append, hstops, Nat.zero_add] at h
      cases h
      refine ⟨?_, before, List.take_left⟩
      rw [List.length_append]
      exact Nat.le_add_right _ _
  · rintro n ⟨hn, text, htext⟩
    have hsize : size text = n := by
      rw [size, ← htext, List.length_take, min_eq_left hn]
    rw [← List.take_append_drop n bs, htext] at h
    exact hsize ▸ size_le_offset h

theorem decode_encode_append_of_error {text : List Char} {bs : Bytes} {e : Error}
    (h : decode bs = .error e) :
    decode (encode text ++ bs) = .error ⟨e.problem, size text + e.offset⟩ := by
  obtain ⟨before, rest, rfl, rfl | ⟨problem, hstops⟩⟩ := exists_text_prefix bs
  · rw [List.append_nil, decode_encode] at h
    cases h
  · rw [decode, decodeFrom_encode_append, hstops] at h
    cases h
    rw [← List.append_assoc, ← encode_append, decode, decodeFrom_encode_append, hstops, size_append,
      Nat.zero_add, Nat.zero_add]

theorem exists_decode_eq_error_iff {bs : Bytes} :
    (∃ e, decode bs = .error e) ↔ ¬IsText bs := by
  constructor
  · rintro ⟨e, he⟩ ⟨text, htext⟩
    cases he.symm.trans (decode_eq_ok_iff.2 htext)
  · intro hbs
    cases hdecode : decode bs with
    | error e => exact ⟨e, rfl⟩
    | ok text => exact absurd ⟨text, decode_eq_ok_iff.1 hdecode⟩ hbs

end Gltf.Utf8
