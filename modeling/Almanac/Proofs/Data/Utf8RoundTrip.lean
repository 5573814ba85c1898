import Almanac.Data.Utf8
import Mathlib.Data.List.Basic
import Mathlib.Data.List.Forall2

/-!
# Decoding what was encoded

The bytes of a text in UTF-8 decode to the text, and no other bytes do. The first byte of a
character tells how many bytes follow and bounds the first of them; the bounds leave out exactly
the overlong forms, the halves of surrogate pairs and the numbers beyond the last character.
-/

namespace Almanac.Data.Utf8

theorem toNat_toUInt8 {n : Nat} (hn : n < 256) : n.toUInt8.toNat = n := by
  simp [Nat.toUInt8, Nat.mod_eq_of_lt hn]

theorem fill_cons {low high b : UInt8} {intervals : List (UInt8 × UInt8)} {rest bytes : List UInt8}
    (hlow : low.toNat ≤ b.toNat) (hhigh : b.toNat ≤ high.toNat)
    (hfill : fill intervals rest = (bytes, none)) :
    fill ((low, high) :: intervals) (b :: rest) = (b :: bytes, none) := by
  have hle : low ≤ b ∧ b ≤ high := ⟨UInt8.le_iff_toNat_le.mpr hlow, UInt8.le_iff_toNat_le.mpr hhigh⟩
  simp [fill, hle, hfill]

/-- Six bits in a continuation byte are in the full interval. -/
theorem fill_continuation {n : Nat} (hn : n < 64) {intervals : List (UInt8 × UInt8)}
    {rest bytes : List UInt8} (hfill : fill intervals rest = (bytes, none)) :
    fill ((0x80, 0xBF) :: intervals) ((0x80 + n).toUInt8 :: rest) =
      ((0x80 + n).toUInt8 :: bytes, none) := by
  have hb := toNat_toUInt8 (n := 0x80 + n) (by omega)
  apply fill_cons
  · rw [hb]
    exact Nat.le_add_right 0x80 n
  · rw [hb]
    exact Nat.add_le_add_left (Nat.le_of_lt_succ hn) 0x80
  · exact hfill

/-! ## First bytes

Each lemma covers the first bytes of the characters of one length. -/

theorem not_lt_of_le {b low bound : UInt8} (hlow : low ≤ b) (hbound : bound ≤ low) : ¬ b < bound :=
  UInt8.not_lt.mpr (UInt8.le_trans hbound hlow)

theorem continuation?_one {b : UInt8} (hhigh : b.toNat < 0x80) : continuation? b = some [] := by
  have h1 : b < 0x80 := UInt8.lt_iff_toNat_lt.mpr hhigh
  simp [continuation?, h1]

theorem continuation?_two {b : UInt8} (hlow : 0xC2 ≤ b.toNat) (hhigh : b.toNat < 0xE0) :
    continuation? b = some [(0x80, 0xBF)] := by
  have hb : (0xC2 : UInt8) ≤ b := UInt8.le_iff_toNat_le.mpr hlow
  have h1 : ¬ b < 0x80 := not_lt_of_le hb (by decide)
  have h2 : ¬ b < 0xC2 := not_lt_of_le hb (by decide)
  have h3 : b < 0xE0 := UInt8.lt_iff_toNat_lt.mpr hhigh
  simp [continuation?, h1, h2, h3]

theorem continuation?_three {b : UInt8} (hlow : 0xE0 ≤ b.toNat) (hhigh : b.toNat < 0xF0) :
    continuation? b = some [(if b.toNat = 0xE0 then 0xA0 else 0x80,
      if b.toNat = 0xED then 0x9F else 0xBF), (0x80, 0xBF)] := by
  have hb : (0xE0 : UInt8) ≤ b := UInt8.le_iff_toNat_le.mpr hlow
  have h1 : ¬ b < 0x80 := not_lt_of_le hb (by decide)
  have h2 : ¬ b < 0xC2 := not_lt_of_le hb (by decide)
  have h3 : ¬ b < 0xE0 := not_lt_of_le hb (by decide)
  have h4 : b < 0xF0 := UInt8.lt_iff_toNat_lt.mpr hhigh
  have hE0 : b = 0xE0 ↔ b.toNat = 0xE0 := UInt8.toNat_inj.symm
  have hED : b = 0xED ↔ b.toNat = 0xED := UInt8.toNat_inj.symm
  by_cases hfirst : b.toNat = 0xE0
  · simp [continuation?, h1, h2, h3, hE0, hfirst]
  · by_cases hsurrogate : b.toNat = 0xED
    · simp [continuation?, h1, h2, h3, hE0, hED, hsurrogate]
    · simp [continuation?, h1, h2, h3, h4, hE0, hED, hfirst, hsurrogate]

theorem continuation?_four {b : UInt8} (hlow : 0xF0 ≤ b.toNat) (hhigh : b.toNat ≤ 0xF4) :
    continuation? b = some [(if b.toNat = 0xF0 then 0x90 else 0x80,
      if b.toNat = 0xF4 then 0x8F else 0xBF), (0x80, 0xBF), (0x80, 0xBF)] := by
  have hb : (0xF0 : UInt8) ≤ b := UInt8.le_iff_toNat_le.mpr hlow
  have h1 : ¬ b < 0x80 := not_lt_of_le hb (by decide)
  have h2 : ¬ b < 0xC2 := not_lt_of_le hb (by decide)
  have h3 : ¬ b < 0xE0 := not_lt_of_le hb (by decide)
  have h4 : ¬ b < 0xF0 := not_lt_of_le hb (by decide)
  have hE0 : b = 0xE0 ↔ b.toNat = 0xE0 := UInt8.toNat_inj.symm
  have hED : b = 0xED ↔ b.toNat = 0xED := UInt8.toNat_inj.symm
  have hF0 : b = 0xF0 ↔ b.toNat = 0xF0 := UInt8.toNat_inj.symm
  have hF4 : b = 0xF4 ↔ b.toNat = 0xF4 := UInt8.toNat_inj.symm
  have hnotE0 : b.toNat ≠ 0xE0 := by omega
  have hnotED : b.toNat ≠ 0xED := by omega
  by_cases hfirst : b.toNat = 0xF0
  · simp [continuation?, h1, h2, h3, h4, hE0, hED, hF0, hfirst]
  · by_cases hlast : b.toNat = 0xF4
    · have h5 : ¬ b < 0xF4 := UInt8.not_lt.mpr (UInt8.le_iff_toNat_le.mpr (Nat.le_of_eq hlast.symm))
      simp [continuation?, h1, h2, h3, h4, h5, hE0, hED, hF0, hF4, hlast]
    · have h5 : b < 0xF4 := UInt8.lt_iff_toNat_lt.mpr (by simp; omega)
      simp [continuation?, h1, h2, h3, h4, h5, hE0, hED, hF0, hnotE0, hnotED, hfirst, hlast]

/-! ## Characters -/

/-- Bytes that fill the intervals of their first byte decode to a character. -/
theorem decodeFrom_cons {position : Nat} {b : UInt8} {intervals : List (UInt8 × UInt8)}
    {more rest : List UInt8} (hfirst : continuation? b = some intervals)
    (hfill : fill intervals (more ++ rest) = (more, none)) :
    decodeFrom position (b :: (more ++ rest)) =
      (decodeFrom (position + 1 + more.length) rest).map (Char.ofNat (codePoint b more) :: ·) := by
  rw [decodeFrom, hfirst]
  dsimp only
  rw [hfill]
  dsimp only
  rw [List.drop_left]
  cases decodeFrom (position + 1 + more.length) rest <;> rfl

/-- The number of a character is none of a surrogate and not beyond the last one. -/
theorem toNat_valid (c : Char) : c.toNat < 0xD800 ∨ (0xDFFF < c.toNat ∧ c.toNat < 0x110000) :=
  c.valid

/-- The bytes are a first byte and those that fill its intervals, and stand for the number. -/
def Encodes (bytes : List UInt8) (n : Nat) : Prop :=
  ∃ b more intervals, bytes = b :: more ∧ continuation? b = some intervals ∧
    (∀ rest, fill intervals (more ++ rest) = (more, none)) ∧ codePoint b more = n

theorem encodes_one {n : Nat} (hhigh : n < 0x80) : Encodes [n.toUInt8] n := by
  have hb := toNat_toUInt8 (n := n) (by omega)
  exact ⟨_, _, _, rfl, continuation?_one (by omega), fun rest => rfl, by simp [codePoint, hb]⟩

theorem encodes_two {n : Nat} (hlow : 0x80 ≤ n) (hhigh : n < 0x800) :
    Encodes [(0xC0 + n / 64).toUInt8, (0x80 + n % 64).toUInt8] n := by
  have hb := toNat_toUInt8 (n := 0xC0 + n / 64) (by omega)
  have hb1 := toNat_toUInt8 (n := 0x80 + n % 64) (by omega)
  refine ⟨_, _, _, rfl, continuation?_two (by omega) (by omega), fun rest => ?_, ?_⟩
  · exact fill_continuation (by omega) rfl
  · simp only [codePoint, List.length_cons, List.length_nil, List.foldl_cons, List.foldl_nil,
      hb, hb1]
    omega

theorem encodes_three {n : Nat} (hlow : 0x800 ≤ n) (hhigh : n < 0x10000)
    (hvalid : n < 0xD800 ∨ 0xDFFF < n) :
    Encodes [(0xE0 + n / 4096).toUInt8, (0x80 + n / 64 % 64).toUInt8, (0x80 + n % 64).toUInt8]
      n := by
  have hb := toNat_toUInt8 (n := 0xE0 + n / 4096) (by omega)
  have hb1 := toNat_toUInt8 (n := 0x80 + n / 64 % 64) (by omega)
  have hb2 := toNat_toUInt8 (n := 0x80 + n % 64) (by omega)
  refine ⟨_, _, _, rfl, continuation?_three (by omega) (by omega), fun rest => ?_, ?_⟩
  · -- the bounds of the second byte leave out overlong forms and halves of surrogate pairs
    refine fill_cons ?_ ?_ (fill_continuation (by omega) rfl)
    · rw [hb, hb1]
      split_ifs with hlead
      · change 0xA0 ≤ 0x80 + n / 64 % 64
        omega
      · exact Nat.le_add_right 0x80 _
    · rw [hb, hb1]
      split_ifs with hlead
      · change 0x80 + n / 64 % 64 ≤ 0x9F
        omega
      · change 0x80 + n / 64 % 64 ≤ 0xBF
        omega
  · simp only [codePoint, List.length_cons, List.length_nil, List.foldl_cons, List.foldl_nil,
      hb, hb1, hb2]
    omega

theorem encodes_four {n : Nat} (hlow : 0x10000 ≤ n) (hhigh : n < 0x110000) :
    Encodes [(0xF0 + n / 262144).toUInt8, (0x80 + n / 4096 % 64).toUInt8,
      (0x80 + n / 64 % 64).toUInt8, (0x80 + n % 64).toUInt8] n := by
  have hb := toNat_toUInt8 (n := 0xF0 + n / 262144) (by omega)
  have hb1 := toNat_toUInt8 (n := 0x80 + n / 4096 % 64) (by omega)
  have hb2 := toNat_toUInt8 (n := 0x80 + n / 64 % 64) (by omega)
  have hb3 := toNat_toUInt8 (n := 0x80 + n % 64) (by omega)
  refine ⟨_, _, _, rfl, continuation?_four (by omega) (by omega), fun rest => ?_, ?_⟩
  · -- the bounds of the second byte leave out overlong forms and what is beyond the last character
    refine fill_cons ?_ ?_ (fill_continuation (by omega) (fill_continuation (by omega) rfl))
    · rw [hb, hb1]
      split_ifs with hlead
      · change 0x90 ≤ 0x80 + n / 4096 % 64
        omega
      · exact Nat.le_add_right 0x80 _
    · rw [hb, hb1]
      split_ifs with hlead
      · change 0x80 + n / 4096 % 64 ≤ 0x8F
        omega
      · change 0x80 + n / 4096 % 64 ≤ 0xBF
        omega
  · simp only [codePoint, List.length_cons, List.length_nil, List.foldl_cons, List.foldl_nil,
      hb, hb1, hb2, hb3]
    omega

theorem encodes_encodeChar (c : Char) : Encodes (encodeChar c) c.toNat := by
  have hvalid := toNat_valid c
  unfold encodeChar
  dsimp only
  split_ifs with hone htwo hthree
  · exact encodes_one hone
  · exact encodes_two (by omega) htwo
  · exact encodes_three (by omega) hthree (by omega)
  · exact encodes_four (by omega) (by omega)

theorem decodeFrom_encode (position : Nat) (t : Text) : decodeFrom position (encode t) = .ok t := by
  induction t generalizing position with
  | nil => simp [encode, decodeFrom]
  | cons c rest ih =>
      obtain ⟨b, more, intervals, hbytes, hfirst, hfill, hcode⟩ := encodes_encodeChar c
      have hsplit : encode (c :: rest) = b :: (more ++ encode rest) := by
        simp [encode, hbytes]
      rw [hsplit, decodeFrom_cons hfirst (hfill _), ih, hcode, Char.ofNat_toNat]
      rfl

/-- Decoding gives back the text that was encoded. -/
@[simp] theorem decode_encode (t : Text) : decode (encode t) = .ok t :=
  decodeFrom_encode 0 t

/-! ## Bytes that decode -/

theorem toUInt8_eq {n : Nat} {b : UInt8} (h : n = b.toNat) : n.toUInt8 = b := by
  rw [h]
  exact UInt8.ofNat_toNat

theorem toNat_ofNat {n : Nat} (hvalid : n < 0xD800 ∨ (0xDFFF < n ∧ n < 0x110000)) :
    (Char.ofNat n).toNat = n := by
  rw [Char.ofNat, dif_pos hvalid]
  rfl

/-- The other bytes open no character. -/
theorem continuation?_none {b : UInt8}
    (h : (0x80 ≤ b.toNat ∧ b.toNat < 0xC2) ∨ 0xF4 < b.toNat) : continuation? b = none := by
  have hb : (0x80 : UInt8) ≤ b := UInt8.le_iff_toNat_le.mpr (by simp; omega)
  have h1 : ¬ b < 0x80 := UInt8.not_lt.mpr hb
  rcases h with ⟨-, hhigh⟩ | hlow
  · have h2 : b < 0xC2 := UInt8.lt_iff_toNat_lt.mpr hhigh
    simp [continuation?, h1, h2]
  · have hnot : ∀ bound : UInt8, bound.toNat ≤ 0xF4 → ¬ b < bound ∧ b ≠ bound := by
      intro bound hbound
      refine ⟨fun h => absurd (UInt8.lt_iff_toNat_lt.mp h) (by omega), ?_⟩
      rintro rfl
      omega
    simp [continuation?, hnot]

/-- The bytes that fill intervals begin the rest, and each is within its interval. -/
theorem fill_spec {intervals : List (UInt8 × UInt8)} {rest more : List UInt8}
    (h : fill intervals rest = (more, none)) :
    more <+: rest ∧
      List.Forall₂ (fun interval b => interval.1.toNat ≤ b.toNat ∧ b.toNat ≤ interval.2.toNat)
        intervals more := by
  induction intervals generalizing rest more with
  | nil =>
      obtain rfl : [] = more := by simpa [fill] using h
      exact ⟨List.nil_prefix, .nil⟩
  | cons interval intervals ih =>
      obtain ⟨low, high⟩ := interval
      cases rest with
      | nil => simp [fill] at h
      | cons b rest =>
          rw [fill] at h
          split at h
          next hbounds =>
            obtain ⟨bytes, hfill, rfl⟩ : ∃ bytes, fill intervals rest = (bytes, none) ∧
                more = b :: bytes := by
              cases hrest : fill intervals rest with
              | mk bytes problem =>
                  rw [hrest] at h
                  obtain ⟨rfl, rfl⟩ := Prod.mk.inj h
                  exact ⟨bytes, rfl, rfl⟩
            obtain ⟨hfront, hbytes⟩ := ih hfill
            refine ⟨List.cons_prefix_cons.mpr ⟨rfl, hfront⟩, .cons ?_ hbytes⟩
            exact ⟨UInt8.le_iff_toNat_le.mp hbounds.1, UInt8.le_iff_toNat_le.mp hbounds.2⟩
          next => simp at h

theorem encodeChar_two {b b1 : UInt8} (hlow : 0xC2 ≤ b.toNat) (hhigh : b.toNat < 0xE0)
    (h1 : 0x80 ≤ b1.toNat ∧ b1.toNat ≤ 0xBF) :
    encodeChar (Char.ofNat (codePoint b [b1])) = [b, b1] := by
  have hcode : codePoint b [b1] = 64 * (b.toNat - 0xC0) + (b1.toNat - 0x80) := rfl
  have hn := toNat_ofNat (n := codePoint b [b1]) (by omega)
  have hone : ¬ codePoint b [b1] < 0x80 := by omega
  have htwo : codePoint b [b1] < 0x800 := by omega
  rw [encodeChar, hn]
  rw [if_neg hone, if_pos htwo, toUInt8_eq (b := b) (by omega), toUInt8_eq (b := b1) (by omega)]

theorem encodeChar_three {b b1 b2 : UInt8} (hlow : 0xE0 ≤ b.toNat) (hhigh : b.toNat < 0xF0)
    (h1 : (if b.toNat = 0xE0 then 0xA0 else 0x80) ≤ b1.toNat ∧
      b1.toNat ≤ if b.toNat = 0xED then 0x9F else 0xBF)
    (h2 : 0x80 ≤ b2.toNat ∧ b2.toNat ≤ 0xBF) :
    encodeChar (Char.ofNat (codePoint b [b1, b2])) = [b, b1, b2] := by
  have hcode : codePoint b [b1, b2] =
      64 * (64 * (b.toNat - 0xE0) + (b1.toNat - 0x80)) + (b2.toNat - 0x80) := rfl
  -- the bounds of the second byte leave out overlong forms and halves of surrogate pairs
  have hbounds : 0x800 ≤ codePoint b [b1, b2] ∧ codePoint b [b1, b2] < 0x10000 ∧
      (codePoint b [b1, b2] < 0xD800 ∨ 0xDFFF < codePoint b [b1, b2]) := by
    split_ifs at h1 <;> omega
  have hsecond : 0x80 ≤ b1.toNat ∧ b1.toNat ≤ 0xBF := by split_ifs at h1 <;> omega
  have hn := toNat_ofNat (n := codePoint b [b1, b2]) (by omega)
  rw [encodeChar, hn]
  rw [if_neg (by omega), if_neg (by omega), if_pos (by omega), toUInt8_eq (b := b) (by omega),
    toUInt8_eq (b := b1) (by omega), toUInt8_eq (b := b2) (by omega)]

theorem encodeChar_four {b b1 b2 b3 : UInt8} (hlow : 0xF0 ≤ b.toNat) (hhigh : b.toNat ≤ 0xF4)
    (h1 : (if b.toNat = 0xF0 then 0x90 else 0x80) ≤ b1.toNat ∧
      b1.toNat ≤ if b.toNat = 0xF4 then 0x8F else 0xBF)
    (h2 : 0x80 ≤ b2.toNat ∧ b2.toNat ≤ 0xBF) (h3 : 0x80 ≤ b3.toNat ∧ b3.toNat ≤ 0xBF) :
    encodeChar (Char.ofNat (codePoint b [b1, b2, b3])) = [b, b1, b2, b3] := by
  have hcode : codePoint b [b1, b2, b3] =
      64 * (64 * (64 * (b.toNat - 0xF0) + (b1.toNat - 0x80)) + (b2.toNat - 0x80)) +
        (b3.toNat - 0x80) := rfl
  -- the bounds of the second byte leave out overlong forms and what is beyond the last character
  have hbounds : 0x10000 ≤ codePoint b [b1, b2, b3] ∧ codePoint b [b1, b2, b3] < 0x110000 := by
    split_ifs at h1 <;> omega
  have hsecond : 0x80 ≤ b1.toNat ∧ b1.toNat ≤ 0xBF := by split_ifs at h1 <;> omega
  have hn := toNat_ofNat (n := codePoint b [b1, b2, b3]) (by omega)
  rw [encodeChar, hn]
  rw [if_neg (by omega), if_neg (by omega), if_neg (by omega), toUInt8_eq (b := b) (by omega),
    toUInt8_eq (b := b1) (by omega), toUInt8_eq (b := b2) (by omega),
    toUInt8_eq (b := b3) (by omega)]

/-- A first byte with bytes that fill its intervals is the encoding of the character that they
stand for. -/
theorem encodeChar_of_fill {b : UInt8} {intervals : List (UInt8 × UInt8)} {rest more : List UInt8}
    (hfirst : continuation? b = some intervals) (hfill : fill intervals rest = (more, none)) :
    encodeChar (Char.ofNat (codePoint b more)) = b :: more := by
  obtain ⟨-, hbytes⟩ := fill_spec hfill
  have hrange : b.toNat < 0x80 ∨ (0xC2 ≤ b.toNat ∧ b.toNat < 0xE0) ∨
      (0xE0 ≤ b.toNat ∧ b.toNat < 0xF0) ∨ (0xF0 ≤ b.toNat ∧ b.toNat ≤ 0xF4) := by
    by_contra hout
    rw [continuation?_none (by omega)] at hfirst
    cases hfirst
  rcases hrange with hone | ⟨hlow, hhigh⟩ | ⟨hlow, hhigh⟩ | ⟨hlow, hhigh⟩
  · obtain rfl := Option.some.inj ((continuation?_one hone).symm.trans hfirst)
    cases hbytes
    have hcode : codePoint b [] = b.toNat := rfl
    have hn := toNat_ofNat (n := codePoint b []) (by omega)
    rw [encodeChar, hn]
    rw [if_pos (by omega), toUInt8_eq hcode]
  · obtain rfl := Option.some.inj ((continuation?_two hlow hhigh).symm.trans hfirst)
    obtain _ | ⟨h1, ⟨⟩⟩ := hbytes
    exact encodeChar_two hlow hhigh h1
  · obtain rfl := Option.some.inj ((continuation?_three hlow hhigh).symm.trans hfirst)
    obtain _ | ⟨h1, _ | ⟨h2, ⟨⟩⟩⟩ := hbytes
    refine encodeChar_three hlow hhigh ?_ h2
    simpa [apply_ite UInt8.toNat] using h1
  · obtain rfl := Option.some.inj ((continuation?_four hlow hhigh).symm.trans hfirst)
    obtain _ | ⟨h1, _ | ⟨h2, _ | ⟨h3, ⟨⟩⟩⟩⟩ := hbytes
    refine encodeChar_four hlow hhigh ?_ h2 h3
    simpa [apply_ite UInt8.toNat] using h1

theorem encode_of_decodeFrom {position : Nat} {bytes : List UInt8} {t : Text}
    (h : decodeFrom position bytes = .ok t) : encode t = bytes := by
  fun_induction decodeFrom position bytes generalizing t with
  | case1 position =>
      obtain rfl := Except.ok.inj h
      rfl
  | case2 position b rest hfirst => cases h
  | case3 position b rest intervals hfirst more problem hfill => cases h
  | case4 position b rest intervals hfirst more hfill e hrest ih => cases h
  | case5 position b rest intervals hfirst more hfill found hrest ih =>
      obtain rfl := Except.ok.inj h
      obtain ⟨⟨after, rfl⟩, -⟩ := fill_spec hfill
      rw [List.drop_left] at hrest ih
      rw [encode, List.flatMap_cons, encodeChar_of_fill hfirst hfill, ← encode, ih hrest]
      rfl

/-- Nothing but the encoding of a text decodes to it. -/
theorem decode_ok_iff {bytes : List UInt8} {t : Text} : decode bytes = .ok t ↔ encode t = bytes :=
  ⟨encode_of_decodeFrom, fun h => h ▸ decode_encode t⟩

end Almanac.Data.Utf8
