import Gltf.Text.Base64
import Mathlib

/-!
Base64 in both directions. Digits stand for bytes if the bits of the digits, six each, are those of
the bytes, eight each, but for fewer than eight at the end. What is decoded are digits with padding
behind them that completes the last quad, and whole quads with any padding.
-/

namespace Gltf.Base64

/-! ### Bits -/

/-- The lowest bits of a number, most significant first. -/
def bits : ℕ → ℕ → List Bool
  | 0, _ => []
  | width + 1, n => n.testBit width :: bits width n

variable {w k a b v n : ℕ}

@[simp] theorem length_bits (w n : ℕ) : (bits w n).length = w := by
  induction w with
  | zero => rfl
  | succ w ih => rw [bits, List.length_cons, ih]

/-- Only the lowest bits count. -/
theorem bits_mod (h : w ≤ k) (n : ℕ) : bits w (n % 2 ^ k) = bits w n := by
  induction w with
  | zero => rfl
  | succ w ih =>
      have hbit : (n % 2 ^ k).testBit w = n.testBit w := by
        rw [Nat.testBit_mod_two_pow, decide_eq_true (by omega), Bool.true_and]
      rw [bits, bits, hbit, ih (by omega)]

theorem bits_add (w k n : ℕ) : bits (w + k) n = bits w (n / 2 ^ k) ++ bits k n := by
  induction w with
  | zero => rw [Nat.zero_add, bits, List.nil_append]
  | succ w ih => rw [Nat.succ_add, bits, bits, Nat.testBit_div_two_pow, ih, List.cons_append]

theorem bits_mul_add (w : ℕ) (a : ℕ) (hb : b < 2 ^ k) :
    bits (w + k) (a * 2 ^ k + b) = bits w a ++ bits k b := by
  have hdiv : (a * 2 ^ k + b) / 2 ^ k = a := by
    rw [Nat.add_comm, Nat.add_mul_div_right _ _ (Nat.two_pow_pos k), Nat.div_eq_of_lt hb,
      Nat.zero_add]
  have hmod : (a * 2 ^ k + b) % 2 ^ k = b := by
    rw [Nat.add_comm, Nat.add_mul_mod_self_right, Nat.mod_eq_of_lt hb]
  rw [bits_add, hdiv, ← bits_mod le_rfl (a * 2 ^ k + b), hmod]

theorem testBit_of_bits (h : bits w a = bits w b) : ∀ i < w, a.testBit i = b.testBit i := by
  induction w with
  | zero =>
      intro i hi
      cases hi
  | succ w ih =>
      rw [bits, bits, List.cons.injEq] at h
      intro i hi
      rcases Nat.lt_succ_iff_lt_or_eq.1 hi with hlt | rfl
      · exact ih h.2 i hlt
      · exact h.1

/-- The bits of bytes. -/
def byteBits (bs : Bytes) : List Bool := bs.flatMap fun b => bits 8 b.toNat

@[simp] theorem byteBits_nil : byteBits [] = [] := rfl

@[simp] theorem byteBits_cons (b : UInt8) (bs : Bytes) :
    byteBits (b :: bs) = bits 8 b.toNat ++ byteBits bs := rfl

@[simp] theorem byteBits_append (as bs : Bytes) :
    byteBits (as ++ bs) = byteBits as ++ byteBits bs := List.flatMap_append

@[simp] theorem length_byteBits (bs : Bytes) : (byteBits bs).length = 8 * bs.length := by
  induction bs with
  | nil => rfl
  | cons b bs ih =>
      rw [byteBits_cons, List.length_append, length_bits, ih, List.length_cons]
      omega

theorem bits_ofNat (n : ℕ) : bits 8 (UInt8.ofNat n).toNat = bits 8 n := by
  rw [UInt8.toNat_ofNat']
  exact bits_mod le_rfl n

theorem byteBits_injective : Function.Injective byteBits := by
  intro as bs h
  induction as generalizing bs with
  | nil =>
      have hlength := congrArg List.length h
      rw [length_byteBits, length_byteBits, List.length_nil] at hlength
      rw [List.length_eq_zero_iff.1 (show bs.length = 0 by omega)]
  | cons a as ih =>
      cases bs with
      | nil => simp [bits] at h
      | cons b bs =>
          rw [byteBits_cons, byteBits_cons] at h
          obtain ⟨hbits, hrest⟩ := List.append_inj h (by simp)
          have hbyte : a.toNat = b.toNat := by
            apply Nat.eq_of_testBit_eq
            intro i
            by_cases hi : i < 8
            · exact testBit_of_bits hbits i hi
            · have hpow : 2 ^ 8 ≤ 2 ^ i := Nat.pow_le_pow_right Nat.two_pos (by omega)
              rw [Nat.testBit_lt_two_pow (a.toNat_lt.trans_le hpow),
                Nat.testBit_lt_two_pow (b.toNat_lt.trans_le hpow)]
          rw [UInt8.toNat_inj.1 hbyte, ih hrest]

/-! ### Digits -/

/-- The digits in the order of their values. -/
def alphabet : Bytes :=
  "ABCDEFGHIJKLMNOPQRSTUVWXYZabcdefghijklmnopqrstuvwxyz0123456789+/".toList.map
    fun c => UInt8.ofNat c.toNat

/-- The bits of digits. -/
def digitBits (digits : Bytes) : List Bool := digits.flatMap fun b => bits 6 (alphabet.idxOf b)

/-- The bytes that digits stand for. The bits that fill no byte do not count. -/
def StandsFor (digits bs : Bytes) : Prop :=
  ∃ rest, digitBits digits = byteBits bs ++ rest ∧ rest.length < 8

@[simp] theorem digitBits_nil : digitBits [] = [] := rfl

@[simp] theorem digitBits_cons (b : UInt8) (digits : Bytes) :
    digitBits (b :: digits) = bits 6 (alphabet.idxOf b) ++ digitBits digits := rfl

@[simp] theorem digitBits_append (as bs : Bytes) :
    digitBits (as ++ bs) = digitBits as ++ digitBits bs := List.flatMap_append

theorem StandsFor.unique {digits bs bs' : Bytes} (h : StandsFor digits bs)
    (h' : StandsFor digits bs') : bs = bs' := by
  obtain ⟨rest, hbits, hrest⟩ := h
  obtain ⟨rest', hbits', hrest'⟩ := h'
  have heq := hbits.symm.trans hbits'
  have hlength := congrArg List.length heq
  simp only [List.length_append, length_byteBits] at hlength
  exact byteBits_injective (List.append_inj heq (by simp only [length_byteBits]; omega)).1

theorem sextet?_eq (b : UInt8) :
    sextet? b = if b ∈ alphabet then some (alphabet.idxOf b) else none := by
  have htable : ∀ n < 256, sextet? (UInt8.ofNat n) =
      if UInt8.ofNat n ∈ alphabet then some (alphabet.idxOf (UInt8.ofNat n)) else none := by
    decide +kernel
  have hb := htable b.toNat b.toNat_lt
  rwa [UInt8.ofNat_toNat] at hb

theorem idxOf_lt {b : UInt8} (hb : b ∈ alphabet) : alphabet.idxOf b < 64 :=
  List.idxOf_lt_length_iff.2 hb

theorem paddingByte_notMem : paddingByte ∉ alphabet := by decide +kernel

/-! ### Encoding -/

def digit (value : ℕ) : UInt8 := alphabet.getD value 0

/-- The digits of bytes, four for three bytes. Where bytes are missing, the bits of the last digit
are filled with zeros. -/
def encode : Bytes → Bytes
  | a :: b :: c :: bs =>
      digit (a.toNat / 4) :: digit (a.toNat % 4 * 16 + b.toNat / 16) ::
        digit (b.toNat % 16 * 4 + c.toNat / 64) :: digit (c.toNat % 64) :: encode bs
  | [a, b] =>
      [digit (a.toNat / 4), digit (a.toNat % 4 * 16 + b.toNat / 16), digit (b.toNat % 16 * 4)]
  | [a] => [digit (a.toNat / 4), digit (a.toNat % 4 * 16)]
  | [] => []

/-- What completes the last quad of the digits of bytes. -/
def paddingOf (bs : Bytes) : Bytes := List.replicate ((3 - bs.length % 3) % 3) paddingByte

theorem digit_mem (hv : v < 64) : digit v ∈ alphabet := by
  have hlt : v < alphabet.length := hv
  rw [digit, List.getD_eq_getElem _ _ hlt]
  exact List.getElem_mem hlt

theorem bits_digit (hv : v < 64) : bits 6 (alphabet.idxOf (digit v)) = bits 6 v := by
  have htable : ∀ v < 64, alphabet.idxOf (digit v) = v := by decide +kernel
  rw [htable v hv]

theorem digits_encode (bs : Bytes) : ∀ b ∈ encode bs, b ∈ alphabet := by
  induction bs using encode.induct with
  | case1 a b c bs ih =>
      have ha := a.toNat_lt
      have hb := b.toNat_lt
      have hc := c.toNat_lt
      simp only [encode, List.forall_mem_cons]
      exact ⟨digit_mem (by omega), digit_mem (by omega), digit_mem (by omega), digit_mem (by omega),
        ih⟩
  | case2 a b =>
      have ha := a.toNat_lt
      have hb := b.toNat_lt
      simp only [encode, List.forall_mem_cons]
      exact ⟨digit_mem (by omega), digit_mem (by omega), digit_mem (by omega), by simp⟩
  | case3 a =>
      have ha := a.toNat_lt
      simp only [encode, List.forall_mem_cons]
      exact ⟨digit_mem (by omega), digit_mem (by omega), by simp⟩
  | case4 => simp [encode]

theorem length_encode (bs : Bytes) : (encode bs).length = (4 * bs.length + 2) / 3 := by
  induction bs using encode.induct with
  | case1 a b c bs ih =>
      simp only [encode, List.length_cons, ih]
      omega
  | case2 a b => simp [encode]
  | case3 a => simp [encode]
  | case4 => rfl

/-- Two bits of one byte and four of the next. -/
theorem bits_two_four (a : ℕ) (hb : b < 16) : bits 6 (a % 4 * 16 + b) = bits 2 a ++ bits 4 b := by
  have hbits : bits (2 + 4) (a % 2 ^ 2 * 2 ^ 4 + b) = bits 2 (a % 2 ^ 2) ++ bits 4 b :=
    bits_mul_add 2 _ hb
  rwa [bits_mod le_rfl a] at hbits

/-- Four bits of one byte and two of the next. -/
theorem bits_four_two (a : ℕ) (hb : b < 4) : bits 6 (a % 16 * 4 + b) = bits 4 a ++ bits 2 b := by
  have hbits : bits (4 + 2) (a % 2 ^ 4 * 2 ^ 2 + b) = bits 4 (a % 2 ^ 4) ++ bits 2 b :=
    bits_mul_add 4 _ hb
  rwa [bits_mod le_rfl a] at hbits

/-! A byte ends behind the second, the third and the fourth digit. -/

theorem bits_six_two (n : ℕ) : bits 8 n = bits 6 (n / 4) ++ bits 2 n := bits_add 6 2 n

theorem bits_four_four (n : ℕ) : bits 8 n = bits 4 (n / 16) ++ bits 4 n := bits_add 4 4 n

theorem bits_two_six (n : ℕ) : bits 8 n = bits 2 (n / 64) ++ bits 6 n := bits_add 2 6 n

theorem standsFor_encode (bs : Bytes) : StandsFor (encode bs) bs := by
  induction bs using encode.induct with
  | case1 a b c bs ih =>
      obtain ⟨rest, hbits, hrest⟩ := ih
      have ha := a.toNat_lt
      have hb := b.toNat_lt
      have hc := c.toNat_lt
      have hlast : bits 6 (c.toNat % 64) = bits 6 c.toNat := bits_mod le_rfl _
      refine ⟨rest, ?_, hrest⟩
      simp only [encode, digitBits_cons, byteBits_cons, hbits]
      rw [bits_digit (by omega), bits_digit (by omega), bits_digit (by omega),
        bits_digit (by omega), bits_two_four _ (by omega), bits_four_two _ (by omega), hlast]
      simp only [bits_six_two a.toNat, bits_four_four b.toNat, bits_two_six c.toNat,
        List.append_assoc]
  | case2 a b =>
      have ha := a.toNat_lt
      have hb := b.toNat_lt
      have hlast := bits_four_two b.toNat (show 0 < 4 by decide)
      rw [Nat.add_zero] at hlast
      refine ⟨bits 2 0, ?_, by simp⟩
      simp only [encode, digitBits_cons, digitBits_nil, byteBits_cons, byteBits_nil]
      rw [bits_digit (by omega), bits_digit (by omega), bits_digit (by omega),
        bits_two_four _ (by omega), hlast]
      simp only [bits_six_two a.toNat, bits_four_four b.toNat, List.append_assoc, List.append_nil]
  | case3 a =>
      have ha := a.toNat_lt
      have hlast := bits_two_four a.toNat (show 0 < 16 by decide)
      rw [Nat.add_zero] at hlast
      refine ⟨bits 4 0, ?_, by simp⟩
      simp only [encode, digitBits_cons, digitBits_nil, byteBits_cons, byteBits_nil]
      rw [bits_digit (by omega), bits_digit (by omega), hlast]
      simp only [bits_six_two a.toNat, List.append_assoc, List.append_nil]
  | case4 => exact ⟨[], rfl, by simp⟩

/-! ### Decoding digits -/

variable {digits done found : Bytes} {filled held pads : ℕ} {padded : Bool}

/-- What the decoder holds behind some digits: the number of them in the open quad, whole bytes in
reverse, and the bits that fill no byte yet. -/
structure Holds (digits done : Bytes) (filled held : ℕ) : Prop where
  filled_eq : filled = digits.length % 4
  digitBits_eq : digitBits digits = byteBits done.reverse ++ bits (6 * filled % 8) held

theorem holds_nil : Holds [] [] 0 0 := ⟨rfl, rfl⟩

theorem Holds.standsFor (h : Holds digits done filled held) : StandsFor digits done.reverse := by
  refine ⟨_, h.digitBits_eq, ?_⟩
  rw [length_bits]
  exact Nat.mod_lt _ (by decide)

/-- The highest bits of a digit complete a byte, and the others are left. -/
theorem byteBits_complete {j : ℕ} (hw : w + j = 8) (hjk : j + k = 6) (hv : v < 64) (done : Bytes)
    (held : ℕ) :
    byteBits done.reverse ++ bits w held ++ bits 6 v =
      byteBits (UInt8.ofNat (held * 2 ^ j + v / 2 ^ k) :: done).reverse ++ bits k (v % 2 ^ k) := by
  have hquotient : v / 2 ^ k < 2 ^ j := by
    rw [Nat.div_lt_iff_lt_mul (Nat.two_pow_pos k), ← pow_add, hjk]
    exact hv
  have hbyte : bits 8 (held * 2 ^ j + v / 2 ^ k) = bits w held ++ bits j (v / 2 ^ k) := by
    rw [← hw, bits_mul_add w held hquotient]
  have hdigit : bits 6 v = bits j (v / 2 ^ k) ++ bits k v := by rw [← hjk, bits_add]
  rw [List.reverse_cons, byteBits_append, byteBits_cons, byteBits_nil, bits_ofNat, hbyte, hdigit,
    bits_mod le_rfl v]
  simp only [List.append_assoc, List.append_nil]

/-- One digit more. The decoder goes on from what it then holds. -/
theorem Holds.step {b : UInt8} (h : Holds digits done filled held) (hb : b ∈ alphabet) :
    ∃ done' filled' held', Holds (digits ++ [b]) done' filled' held' ∧
      ∀ rest, decodeFrom done filled held 0 false (b :: rest) =
        decodeFrom done' filled' held' 0 false rest := by
  obtain ⟨hfilled, hbits⟩ := h
  have hne : b ≠ paddingByte := by
    rintro rfl
    exact paddingByte_notMem hb
  have hvalue : sextet? b = some (alphabet.idxOf b) := by rw [sextet?_eq, if_pos hb]
  have hv := idxOf_lt hb
  have hlength : (digits ++ [b]).length = digits.length + 1 := by simp
  have hdigits : digitBits (digits ++ [b]) =
      byteBits done.reverse ++ bits (6 * filled % 8) held ++ bits 6 (alphabet.idxOf b) := by
    rw [digitBits_append, hbits, digitBits_cons, digitBits_nil, List.append_nil]
  generalize alphabet.idxOf b = v at hvalue hv hdigits
  -- The first digit of a quad completes no byte, each of the others does.
  have hcases : filled = 0 ∨ filled = 1 ∨ filled = 2 ∨ filled = 3 := by omega
  rcases hcases with rfl | rfl | rfl | rfl
  · refine ⟨done, 1, v, ⟨by omega, ?_⟩, fun rest => ?_⟩
    · rw [hdigits, List.append_assoc]
      rfl
    · rw [decodeFrom, if_neg hne, hvalue]
      rfl
  · refine ⟨UInt8.ofNat (held * 4 + v / 16) :: done, 2, v % 16, ⟨by omega, ?_⟩, fun rest => ?_⟩
    · rw [hdigits]
      exact byteBits_complete (w := 6) (j := 2) (k := 4) rfl rfl hv done held
    · rw [decodeFrom, if_neg hne, hvalue]
      rfl
  · refine ⟨UInt8.ofNat (held * 16 + v / 4) :: done, 3, v % 4, ⟨by omega, ?_⟩, fun rest => ?_⟩
    · rw [hdigits]
      exact byteBits_complete (w := 4) (j := 4) (k := 2) rfl rfl hv done held
    · rw [decodeFrom, if_neg hne, hvalue]
      rfl
  · refine ⟨UInt8.ofNat (held * 64 + v) :: done, 0, 0, ⟨by omega, ?_⟩, fun rest => ?_⟩
    · have hcomplete := byteBits_complete (w := 2) (j := 6) (k := 0) rfl rfl hv done held
      rw [pow_zero, Nat.div_one] at hcomplete
      rw [hdigits]
      exact hcomplete
    · rw [decodeFrom, if_neg hne, hvalue]
      rfl

/-- Any digits more. -/
theorem Holds.run {more : Bytes} (h : Holds digits done filled held)
    (hmore : ∀ b ∈ more, b ∈ alphabet) :
    ∃ done' filled' held', Holds (digits ++ more) done' filled' held' ∧
      ∀ rest, decodeFrom done filled held 0 false (more ++ rest) =
        decodeFrom done' filled' held' 0 false rest := by
  induction more generalizing digits done filled held with
  | nil => exact ⟨done, filled, held, by rwa [List.append_nil], fun rest => rfl⟩
  | cons b more ih =>
      rw [List.forall_mem_cons] at hmore
      obtain ⟨_, _, _, hstep, hdecode⟩ := h.step hmore.1
      obtain ⟨done', filled', held', hrun, hdecode'⟩ := ih hstep hmore.2
      refine ⟨done', filled', held', ?_, fun rest => ?_⟩
      · rwa [List.append_assoc, List.singleton_append] at hrun
      · rw [List.cons_append, hdecode, hdecode']

/-! ### Decoding padding -/

/-- Padding is taken behind whole quads, and where it completes the last one. -/
theorem decodeFrom_padding_iff (hopen : 2 ≤ filled → filled + pads < 4) (n : ℕ) :
    decodeFrom done filled held pads padded (List.replicate n paddingByte) = .ok found ↔
      found = done.reverse ∧ (filled = 0 ∨ 2 ≤ filled ∧ filled + pads + n = 4) := by
  induction n generalizing pads padded with
  | zero =>
      rw [List.replicate_zero, decodeFrom.eq_def]
      rcases filled with _ | _ | filled
      · simp [eq_comm]
      · simp
      · have hshort : filled + 1 + 1 + pads ≠ 4 := by omega
        simp [hshort]
  | succ n ih =>
      rw [List.replicate_succ, decodeFrom, if_pos rfl]
      by_cases hlast : 2 ≤ filled ∧ 4 ≤ filled + pads + 1
      · have hfull : filled + pads + 1 = 4 := by omega
        have hne : filled ≠ 0 := by omega
        rw [if_pos hlast]
        cases n with
        | zero => simp [eq_comm, hfull, hne, hlast.1]
        | succ n =>
            have hlong : filled + pads + (n + 1 + 1) ≠ 4 := by omega
            simp [List.replicate_succ, hlong, hne]
      · rw [if_neg hlast, ih (by split_ifs <;> omega)]
        refine and_congr_right fun _ => ?_
        split_ifs <;> omega

/-! ### Texts -/

/-- A text of digits with padding behind them. -/
structure Splits (text digits padding : Bytes) : Prop where
  text_eq : text = digits ++ padding
  digits : ∀ b ∈ digits, b ∈ alphabet
  padding : ∀ b ∈ padding, b = paddingByte

/-- Padding that completes the last quad of the digits, or of which that much is missing. -/
def Fits (digits padding : Bytes) : Prop :=
  digits.length % 4 = 0 ∧ padding = [] ∨ digits.length % 4 = 2 ∧ padding.length ≤ 2 ∨
    digits.length % 4 = 3 ∧ padding.length ≤ 1

/-- Padding behind whole quads, of which there is at least one. -/
def Overruns (digits padding : Bytes) : Prop :=
  digits ≠ [] ∧ digits.length % 4 = 0 ∧ padding ≠ []

variable {text padding bs : Bytes}

theorem eq_nil_of_digits {more : Bytes} (hdigits : ∀ b ∈ more, b ∈ alphabet)
    (hpadding : ∀ b ∈ more, b = paddingByte) : more = [] := by
  rw [List.eq_nil_iff_forall_not_mem]
  intro b hb
  exact paddingByte_notMem (hpadding b hb ▸ hdigits b hb)

/-- A text splits in one way at most. -/
theorem Splits.unique {digits' padding' : Bytes} (h : Splits text digits padding)
    (h' : Splits text digits' padding') : digits = digits' ∧ padding = padding' := by
  have heq := h.text_eq.symm.trans h'.text_eq
  rw [List.append_eq_append_iff] at heq
  rcases heq with ⟨more, rfl, rfl⟩ | ⟨more, rfl, rfl⟩
  · obtain rfl := eq_nil_of_digits (fun b hb => h'.digits b (List.mem_append_right _ hb))
      fun b hb => h.padding b (List.mem_append_left _ hb)
    simp
  · obtain rfl := eq_nil_of_digits (fun b hb => h.digits b (List.mem_append_right _ hb))
      fun b hb => h'.padding b (List.mem_append_left _ hb)
    simp

theorem Splits.padding_eq (h : Splits text digits padding) :
    padding = List.replicate padding.length paddingByte :=
  List.eq_replicate_iff.2 ⟨rfl, h.padding⟩

/-- What is taken and is no padding is a digit, and stands before all padding. -/
theorem exists_of_decodeFrom_cons {b : UInt8} (hne : b ≠ paddingByte)
    (h : decodeFrom done filled held pads padded (b :: bs) = .ok found) :
    b ∈ alphabet ∧ padded = false ∧
      ∃ done' filled' held', decodeFrom done' filled' held' 0 false bs = .ok found := by
  rw [decodeFrom, if_neg hne, sextet?_eq] at h
  by_cases hb : b ∈ alphabet
  · rw [if_pos hb] at h
    cases padded with
    | true => cases h
    | false =>
        refine ⟨hb, rfl, ?_⟩
        dsimp only at h
        rw [if_neg Bool.false_ne_true] at h
        split at h <;> exact ⟨_, _, _, h⟩
  · rw [if_neg hb] at h
    cases h

/-- Nothing else is taken than digits with padding behind them. -/
theorem exists_splits_of_decodeFrom
    (h : decodeFrom done filled held pads padded bs = .ok found) :
    ∃ digits padding, Splits bs digits padding ∧ (padded = true → digits = []) := by
  induction bs generalizing done filled held pads padded with
  | nil => exact ⟨[], [], ⟨rfl, by simp, by simp⟩, fun _ => rfl⟩
  | cons b bs ih =>
      by_cases hpad : b = paddingByte
      · -- Padding that completes a quad ends the text, and only padding follows other padding.
        rw [decodeFrom, if_pos hpad] at h
        by_cases hlast : 2 ≤ filled ∧ 4 ≤ filled + pads + 1
        · rw [if_pos hlast] at h
          split_ifs at h with hempty
          obtain rfl := List.isEmpty_iff.1 hempty
          exact ⟨[], [b], ⟨rfl, by simp, by simpa using hpad⟩, fun _ => rfl⟩
        · rw [if_neg hlast] at h
          obtain ⟨digits, padding, hsplits, hnone⟩ := ih h
          obtain rfl := hnone rfl
          refine ⟨[], b :: padding, ⟨?_, by simp, ?_⟩, fun _ => rfl⟩
          · rw [hsplits.text_eq, List.nil_append, List.nil_append]
          · exact List.forall_mem_cons.2 ⟨hpad, hsplits.padding⟩
      · obtain ⟨hb, hpadded, _, _, _, h⟩ := exists_of_decodeFrom_cons hpad h
        obtain ⟨digits, padding, hsplits, -⟩ := ih h
        refine ⟨b :: digits, padding, ⟨?_, ?_, hsplits.padding⟩, ?_⟩
        · rw [hsplits.text_eq, List.cons_append]
        · exact List.forall_mem_cons.2 ⟨hb, hsplits.digits⟩
        · rw [hpadded]
          exact fun h => absurd h Bool.false_ne_true

theorem Splits.head?_eq_iff (h : Splits text digits padding) :
    text.head? = some paddingByte ↔ digits = [] ∧ padding ≠ [] := by
  obtain ⟨rfl, hdigits, hpadding⟩ := h
  cases digits with
  | nil =>
      cases padding with
      | nil => simp
      | cons b padding => simpa using hpadding b (List.mem_cons_self ..)
  | cons b digits =>
      have hne : b ≠ paddingByte := by
        rintro rfl
        exact paddingByte_notMem (hdigits _ (List.mem_cons_self ..))
      simpa using hne

theorem decode_eq_ok_iff (h : Splits text digits padding) :
    decode text = .ok found ↔ StandsFor digits found ∧
      (digits.length % 4 = 0 ∧ (digits = [] → padding = []) ∨
        2 ≤ digits.length % 4 ∧ digits.length % 4 + padding.length = 4) := by
  obtain ⟨done, filled, held, hholds, hdecode⟩ := holds_nil.run h.digits
  rw [List.nil_append] at hholds
  have hfilled := hholds.filled_eq
  have hfrom : decodeFrom [] 0 0 0 false text = .ok found ↔ found = done.reverse ∧
      (filled = 0 ∨ 2 ≤ filled ∧ filled + padding.length = 4) := by
    rw [h.text_eq, hdecode, h.padding_eq, List.length_replicate,
      decodeFrom_padding_iff (fun _ => by omega), Nat.add_zero]
  have hdata : StandsFor digits found ↔ found = done.reverse := by
    constructor
    · intro hfound
      exact hfound.unique hholds.standsFor
    · rintro rfl
      exact hholds.standsFor
  rw [decode, hdata]
  by_cases hhead : digits = [] ∧ padding ≠ []
  · obtain ⟨rfl, hpadding⟩ := hhead
    rw [if_pos (h.head?_eq_iff.2 ⟨rfl, hpadding⟩)]
    simp [hpadding]
  · rw [if_neg (mt h.head?_eq_iff.1 hhead), hfrom, ← hfilled]
    refine and_congr_right fun _ => or_congr_left ?_
    rw [iff_self_and]
    intro _ hnil
    by_contra hpadding
    exact hhead ⟨hnil, hpadding⟩

/-! ### Texts that are padded -/

theorem exists_standsFor (h : ∀ b ∈ digits, b ∈ alphabet) : ∃ bs, StandsFor digits bs := by
  obtain ⟨done, _, _, hholds, -⟩ := holds_nil.run h
  exact ⟨done.reverse, hholds.standsFor⟩

theorem Splits.padTo4 (h : Splits text digits padding) :
    Splits (Bytes.padTo4 text paddingByte) digits
      (padding ++ List.replicate ((4 - text.length % 4) % 4) paddingByte) := by
  refine ⟨?_, h.digits, ?_⟩
  · rw [Bytes.padTo4, ← List.append_assoc, ← h.text_eq]
  · rw [List.forall_mem_append]
    exact ⟨h.padding, fun b hb => List.eq_of_mem_replicate hb⟩

theorem exists_splits_of_padTo4 (h : Splits (Bytes.padTo4 text paddingByte) digits padding) :
    ∃ padding', Splits text digits padding' := by
  have heq := h.text_eq
  rw [Bytes.padTo4, List.append_eq_append_iff] at heq
  rcases heq with ⟨more, rfl, hmore⟩ | ⟨padding', rfl, hpadding⟩
  · -- The digits cannot reach into what is added.
    obtain rfl := eq_nil_of_digits (fun b hb => h.digits b (List.mem_append_right text hb))
      fun b hb => List.eq_of_mem_replicate (hmore ▸ List.mem_append_left padding hb)
    have hdigits := h.digits
    rw [List.append_nil] at hdigits ⊢
    exact ⟨[], (List.append_nil text).symm, hdigits, by simp⟩
  · refine ⟨padding', rfl, h.digits, fun b hb => h.padding b ?_⟩
    rw [hpadding]
    exact List.mem_append_left _ hb

/-- What is decoded once the text is padded. -/
theorem decode_padTo4_iff (h : Splits text digits padding) :
    decode (Bytes.padTo4 text paddingByte) = .ok found ↔
      StandsFor digits found ∧ (Fits digits padding ∨ Overruns digits padding) := by
  rw [decode_eq_ok_iff h.padTo4]
  refine and_congr_right fun _ => ?_
  have htext : text.length = digits.length + padding.length := by
    rw [h.text_eq, List.length_append]
  rw [List.append_eq_nil_iff, List.length_append, List.length_replicate, List.replicate_eq_nil_iff,
    htext, Fits, Overruns, ← List.length_eq_zero_iff, ne_eq, ne_eq, ← List.length_eq_zero_iff,
    ← List.length_eq_zero_iff]
  omega

/-- Which texts are decoded once they are padded. -/
theorem exists_decode_padTo4_iff :
    (∃ found, decode (Bytes.padTo4 text paddingByte) = .ok found) ↔
      ∃ digits padding, Splits text digits padding ∧
        (Fits digits padding ∨ Overruns digits padding) := by
  constructor
  · rintro ⟨found, h⟩
    have hfrom : decodeFrom [] 0 0 0 false (Bytes.padTo4 text paddingByte) = .ok found := by
      rw [decode] at h
      split_ifs at h
      exact h
    obtain ⟨digits, _, hpadded, -⟩ := exists_splits_of_decodeFrom hfrom
    obtain ⟨padding, hsplits⟩ := exists_splits_of_padTo4 hpadded
    exact ⟨digits, padding, hsplits, ((decode_padTo4_iff hsplits).1 h).2⟩
  · rintro ⟨digits, padding, hsplits, htaken⟩
    obtain ⟨found, hfound⟩ := exists_standsFor hsplits.digits
    exact ⟨found, (decode_padTo4_iff hsplits).2 ⟨hfound, htaken⟩⟩

/-- The encoding of bytes fits with no padding and with all of it. -/
theorem fits_encode (bs : Bytes) : Fits (encode bs) [] ∧ Fits (encode bs) (paddingOf bs) := by
  have hlength := length_encode bs
  rw [Fits, Fits, paddingOf, List.length_replicate, List.replicate_eq_nil_iff, List.length_nil,
    eq_self, and_true]
  have hrest : bs.length % 3 = 0 ∨ bs.length % 3 = 1 ∨ bs.length % 3 = 2 := by omega
  rcases hrest with h | h | h <;> omega

end Gltf.Base64
