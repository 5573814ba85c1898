import Almanac.Data.Base64
import Almanac.Proofs.Data.Utf8RoundTrip
import Mathlib.Data.List.Forall2
import Mathlib.Data.List.TakeWhile

/-!
# Forms in base 64

A text is the form of bytes in base 64 if every four digits of it stand for three bytes, and if at
its end two or three digits, filled up to four, stand for one or two. The bits that are left over
there are free, so bytes have several forms, of which one is written. Every form is read as the
bytes of which it is one. Beyond forms nothing is read but those without filling with signs of
filling behind them.
-/

namespace Almanac.Data.Base64

open Utf8 (toNat_toUInt8 toUInt8_eq)

/-! ## Digits -/

/-- The character is the digit for the value: it has that place in the alphabet. -/
def IsDigit (c : Char) (value : Nat) : Prop :=
  alphabet[value]? = some c

theorem isDigit_digit {value : Nat} (h : value < 64) : IsDigit (digit value) value := by
  have hall : ∀ value < 64, alphabet[value]? = some (digit value) := by decide
  exact hall value h

theorem IsDigit.lt {c : Char} {value : Nat} (h : IsDigit c value) : value < 64 :=
  (List.getElem?_eq_some_iff.mp h).choose

theorem value?_digit {value : Nat} (h : value < 64) : value? (digit value) = some value := by
  have hall : ∀ value < 64, value? (digit value) = some value := by decide +kernel
  exact hall value h

/-- Digits are letters and signs of the first 128 characters. -/
theorem value?_eq_none {c : Char} (h : 128 ≤ c.toNat) : value? c = none := by
  have hnot : ∀ d : Char, d.toNat < 128 → ¬ c ≤ d := by
    intro d hd hle
    have hbound : c.toNat ≤ d.toNat := UInt32.le_iff_toNat_le.mp (Char.le_def.mp hle)
    omega
  have hne : ∀ d : Char, d.toNat < 128 → c ≠ d := by
    rintro d hd rfl
    omega
  simp [value?, hnot 'Z' (by decide), hnot 'z' (by decide), hnot '9' (by decide),
    hne '+' (by decide), hne '/' (by decide)]

/-- A character has the value of which it is the digit, and no other one. -/
theorem value?_eq_some_iff {c : Char} {value : Nat} :
    value? c = some value ↔ IsDigit c value := by
  constructor
  · intro h
    have hascii : c.toNat < 128 := by
      by_contra hwide
      rw [value?_eq_none (by omega)] at h
      cases h
    have hall : ∀ n < 128, ∀ value ∈ value? (Char.ofNat n),
        alphabet[value]? = some (Char.ofNat n) := by decide +kernel
    have hfound := hall c.toNat hascii
    rw [Char.ofNat_toNat] at hfound
    exact hfound value h
  · intro h
    have hdigit : digit value = c := by
      have hsame := isDigit_digit h.lt
      rw [IsDigit, h] at hsame
      exact (Option.some.inj hsame).symm
    rw [← hdigit]
    exact value?_digit h.lt

@[simp] theorem value?_filling : value? '=' = none := by decide

/-! ## Forms -/

/-- The text is a form of the bytes in base 64. -/
inductive IsForm : List UInt8 → Text → Prop where
  | nothing : IsForm [] []
  /-- One byte at the end; the last four bits of its digits are free. -/
  | one {a : UInt8} {c d : Char} {v w : Nat} (hc : IsDigit c v) (hd : IsDigit d w)
      (hbits : a.toNat = (v * 64 + w) / 16) : IsForm [a] [c, d, '=', '=']
  /-- Two bytes at the end; the last two bits of their digits are free. -/
  | two {a b : UInt8} {c d e : Char} {v w x : Nat} (hc : IsDigit c v) (hd : IsDigit d w)
      (he : IsDigit e x) (hbits : a.toNat * 256 + b.toNat = ((v * 64 + w) * 64 + x) / 4) :
      IsForm [a, b] [c, d, e, '=']
  | three {a b c : UInt8} {rest : List UInt8} {d e f g : Char} {v w x y : Nat} {t : Text}
      (hd : IsDigit d v) (he : IsDigit e w) (hf : IsDigit f x) (hg : IsDigit g y)
      (hbits : (a.toNat * 256 + b.toNat) * 256 + c.toNat = ((v * 64 + w) * 64 + x) * 64 + y)
      (hrest : IsForm rest t) : IsForm (a :: b :: c :: rest) (d :: e :: f :: g :: t)

/-- What is written for bytes is a form of them. -/
theorem isForm_encode (bytes : List UInt8) : IsForm bytes (encode bytes) := by
  fun_induction encode bytes with
  | case1 => exact .nothing
  | case2 a n =>
      have ha := a.toNat_lt
      exact .one (isDigit_digit (by omega)) (isDigit_digit (by omega)) (by omega)
  | case3 a b n =>
      have ha := a.toNat_lt
      have hb := b.toNat_lt
      exact .two (isDigit_digit (by omega)) (isDigit_digit (by omega)) (isDigit_digit (by omega))
        (by omega)
  | case4 a b c rest n ih =>
      have ha := a.toNat_lt
      have hb := b.toNat_lt
      have hc := c.toNat_lt
      exact .three (isDigit_digit (by omega)) (isDigit_digit (by omega))
        (isDigit_digit (by omega)) (isDigit_digit (by omega)) (by omega) ih

/-- The filling behind digits: what is lacking in the last group of four. -/
def filling (digits : Nat) : Text :=
  List.replicate ((4 - digits % 4) % 4) '='

@[simp] theorem filling_add_four (digits : Nat) : filling (digits + 4) = filling digits := by
  rw [filling, Nat.add_mod_right, filling]

/-- Digits with their filling are a form of the bytes that are read from them, unless one digit is
left over. -/
theorem isForm_bytes {digits : Text} {values : List Nat}
    (hdigits : List.Forall₂ IsDigit digits values) (hlone : values.length % 4 ≠ 1) :
    IsForm (bytes values) (digits ++ filling values.length) := by
  induction values using bytes.induct generalizing digits with
  | case1 a b c d rest ih =>
      obtain _ | ⟨ha, _ | ⟨hb, _ | ⟨hc, _ | ⟨hd, hrest⟩⟩⟩⟩ := hdigits
      have hva := ha.lt
      have hvb := hb.lt
      have hvc := hc.lt
      have hvd := hd.lt
      rw [bytes]
      simp only [List.length_cons, filling_add_four, List.cons_append]
      refine .three ha hb hc hd ?_ (ih hrest ?_)
      · rw [toNat_toUInt8 (by omega), toNat_toUInt8 (by omega), toNat_toUInt8 (by omega)]
        omega
      · simp only [List.length_cons] at hlone
        omega
  | case2 a b c =>
      obtain _ | ⟨ha, _ | ⟨hb, _ | ⟨hc, ⟨⟩⟩⟩⟩ := hdigits
      have hva := ha.lt
      have hvb := hb.lt
      have hvc := hc.lt
      refine .two ha hb hc ?_
      rw [toNat_toUInt8 (by omega), toNat_toUInt8 (by omega)]
      omega
  | case3 a b =>
      obtain _ | ⟨ha, _ | ⟨hb, ⟨⟩⟩⟩ := hdigits
      have hva := ha.lt
      have hvb := hb.lt
      refine .one ha hb ?_
      rw [toNat_toUInt8 (by omega)]
  | case4 values hfour hthree htwo =>
      match values, hdigits with
      | [], .nil => exact .nothing
      | [a], _ => exact absurd rfl hlone
      | [a, b], _ => exact (htwo a b rfl).elim
      | [a, b, c], _ => exact (hthree a b c rfl).elim
      | a :: b :: c :: d :: rest, _ => exact (hfour a b c d rest rfl).elim

/-- Every form of bytes is digits with their filling, and the bytes are read from the digits. -/
theorem IsForm.exists_digits {found : List UInt8} {form : Text} (h : IsForm found form) :
    ∃ digits values, form = digits ++ filling values.length ∧
      List.Forall₂ IsDigit digits values ∧ values.length % 4 ≠ 1 ∧ bytes values = found := by
  induction h with
  | nothing => exact ⟨[], [], rfl, .nil, by decide, rfl⟩
  | @one a c d v w hc hd hbits =>
      refine ⟨[c, d], [v, w], rfl, .cons hc (.cons hd .nil), by simp, ?_⟩
      rw [bytes, toUInt8_eq hbits.symm]
  | @two a b c d e v w x hc hd he hbits =>
      have ha := a.toNat_lt
      have hb := b.toNat_lt
      refine ⟨[c, d, e], [v, w, x], rfl, .cons hc (.cons hd (.cons he .nil)), by simp, ?_⟩
      rw [bytes, toUInt8_eq (b := a) (by omega), toUInt8_eq (b := b) (by omega)]
  | @three a b c rest d e f g v w x y t hd he hf hg hbits hrest ih =>
      obtain ⟨digits, values, rfl, hdigits, hlone, rfl⟩ := ih
      have ha := a.toNat_lt
      have hb := b.toNat_lt
      have hc := c.toNat_lt
      refine ⟨d :: e :: f :: g :: digits, v :: w :: x :: y :: values, ?_,
        .cons hd (.cons he (.cons hf (.cons hg hdigits))), ?_, ?_⟩
      · simp
      · simp only [List.length_cons]
        omega
      · rw [bytes, toUInt8_eq (b := a) (by omega), toUInt8_eq (b := b) (by omega),
          toUInt8_eq (b := c) (by omega)]

/-! ## Reading -/

/-- The digits at the start of a text end where none follows. -/
theorem digitValues_spec (t : Text) :
    ∃ digits, t = digits ++ (digitValues t).2 ∧ List.Forall₂ IsDigit digits (digitValues t).1 ∧
      ∀ c ∈ (digitValues t).2.head?, value? c = none := by
  induction t with
  | nil => exact ⟨[], rfl, .nil, by simp [digitValues]⟩
  | cons c rest ih =>
      rw [digitValues]
      cases hvalue : value? c with
      | none => exact ⟨[], rfl, .nil, by simpa using hvalue⟩
      | some value =>
          obtain ⟨digits, hsplit, hdigits, hend⟩ := ih
          refine ⟨c :: digits, ?_, .cons (value?_eq_some_iff.mp hvalue) hdigits, hend⟩
          rw [List.cons_append, ← hsplit]

theorem digitValues_append {digits tail : Text} {values : List Nat}
    (hdigits : List.Forall₂ IsDigit digits values) (hend : ∀ c ∈ tail.head?, value? c = none) :
    digitValues (digits ++ tail) = (values, tail) := by
  induction hdigits with
  | nil =>
      cases tail with
      | nil => rfl
      | cons c rest =>
          have hvalue : value? c = none := hend c rfl
          rw [List.nil_append, digitValues, hvalue]
  | cons hdigit _ ih =>
      rw [List.cons_append, digitValues, value?_eq_some_iff.mpr hdigit]
      dsimp only
      rw [ih]

/-- Signs behind digits are let pass if they fill the last group, or if there is none to fill. -/
theorem tailProblem?_signs (digits signs : Nat) :
    tailProblem? digits (List.replicate (signs + 1) '=') = none ↔
      digits ≠ 0 ∧ (digits % 4 = 0 ∨ (2 ≤ digits % 4 ∧ signs + 1 = 4 - digits % 4)) := by
  have htake : (List.replicate (signs + 1) '=').takeWhile (· = '=') =
      List.replicate (signs + 1) '=' := by simp
  have hdrop : (List.replicate (signs + 1) '=').dropWhile (· = '=') = [] := by simp
  unfold tailProblem?
  rw [htake, hdrop]
  dsimp only [List.replicate_succ]
  rw [if_neg (by simp)]
  simp only [List.length_cons, List.length_replicate]
  split_ifs <;> simp <;> omega

/-- Anything else behind digits is a problem. -/
theorem tailProblem?_ne_none (digits : Nat) {tail : Text} (h : ¬ ∀ c ∈ tail, c = '=') :
    tailProblem? digits tail ≠ none := by
  cases tail with
  | nil => exact absurd (fun c hc => absurd hc List.not_mem_nil) h
  | cons c rest =>
      have hdrop : (c :: rest).dropWhile (· = '=') ≠ [] := by
        intro hnil
        apply h
        simpa using List.dropWhile_eq_nil_iff.mp hnil
      have htake : ((c :: rest).takeWhile (· = '=')).length < (c :: rest).length := by
        have hlength := congrArg List.length
          (List.takeWhile_append_dropWhile (p := fun c => decide (c = '=')) (l := c :: rest))
        rw [List.length_append] at hlength
        have hpos := List.length_pos_iff.mpr hdrop
        omega
      obtain ⟨d, more, hbehind⟩ := List.exists_cons_of_ne_nil hdrop
      unfold tailProblem?
      rw [hbehind]
      dsimp only
      split_ifs with hsign hnone hfull hlength
      · exact Option.some_ne_none _
      · exact Option.some_ne_none _
      · omega
      · exact Option.some_ne_none _
      · exact Option.some_ne_none _
      · exact Option.some_ne_none _

/-- What stands behind digits is let pass if it is their filling, and behind whole groups any
number of signs more. -/
theorem tailProblem?_eq_none_iff (digits : Nat) (tail : Text) :
    tailProblem? digits tail = none ↔ digits % 4 ≠ 1 ∧ ∃ signs,
      tail = filling digits ++ List.replicate signs '=' ∧
        (signs = 0 ∨ (digits % 4 = 0 ∧ digits ≠ 0)) := by
  by_cases hsigns : ∀ c ∈ tail, c = '='
  · obtain ⟨count, rfl⟩ : ∃ count, tail = List.replicate count '=' :=
      ⟨tail.length, List.eq_replicate_iff.mpr ⟨rfl, hsigns⟩⟩
    simp only [filling, List.replicate_append_replicate, List.replicate_inj, or_true, and_true]
    cases count with
    | zero =>
        have hempty : tailProblem? digits (List.replicate 0 '=') = none ↔ digits % 4 = 0 := by
          simp only [List.replicate_zero, tailProblem?]
          split_ifs <;> simp <;> omega
        rw [hempty]
        constructor
        · intro h
          exact ⟨by omega, 0, by omega, .inl rfl⟩
        · rintro ⟨hlone, signs, hcount, -⟩
          omega
    | succ count =>
        rw [tailProblem?_signs]
        constructor
        · intro h
          exact ⟨by omega, count + 1 - (4 - digits % 4) % 4, by omega, by omega⟩
        · rintro ⟨hlone, signs, hcount, hfree⟩
          omega
  · refine iff_of_false (tailProblem?_ne_none digits hsigns) ?_
    rintro ⟨-, signs, rfl, -⟩
    apply hsigns
    intro c hc
    rcases List.mem_append.mp hc with hfilling | hmore
    · exact List.eq_of_mem_replicate hfilling
    · exact List.eq_of_mem_replicate hmore

/-- The form has no filling, and it is not empty. -/
def IsWhole (form : Text) : Prop :=
  form ≠ [] ∧ '=' ∉ form

theorem exists_value_of_mem {digits : Text} {values : List Nat}
    (hdigits : List.Forall₂ IsDigit digits values) {c : Char} (hc : c ∈ digits) :
    ∃ value, IsDigit c value := by
  induction hdigits with
  | nil => cases hc
  | @cons d value digits values hdigit _ ih =>
      rcases List.mem_cons.mp hc with rfl | hrest
      · exact ⟨value, hdigit⟩
      · exact ih hrest

theorem not_isDigit_filling (value : Nat) : ¬ IsDigit '=' value := by
  rw [← value?_eq_some_iff, value?_filling]
  exact nofun

theorem isWhole_iff {digits : Text} {values : List Nat}
    (hdigits : List.Forall₂ IsDigit digits values) :
    IsWhole (digits ++ filling values.length) ↔ values.length % 4 = 0 ∧ values.length ≠ 0 := by
  have hsign : '=' ∉ digits := by
    intro hmem
    obtain ⟨value, hvalue⟩ := exists_value_of_mem hdigits hmem
    exact not_isDigit_filling value hvalue
  have hfilling : '=' ∉ filling values.length ↔ values.length % 4 = 0 := by
    simp only [filling, List.mem_replicate, and_true, ne_eq, not_not]
    omega
  have hlength := hdigits.length_eq
  unfold IsWhole
  rw [List.mem_append, not_or, and_iff_right hsign, hfilling]
  constructor
  · rintro ⟨hne, hmod⟩
    refine ⟨hmod, fun hzero => hne ?_⟩
    rw [List.length_eq_zero_iff.mp (hlength.trans hzero), hzero]
    rfl
  · rintro ⟨hmod, hpos⟩
    refine ⟨fun hnil => hpos ?_, hmod⟩
    rw [← hlength, (List.append_eq_nil_iff.mp hnil).1, List.length_nil]

/-- Reading gives the bytes of which a text is a form, also if signs of filling stand behind a form
that needs none. Nothing else is read. -/
theorem decode_ok_iff {t : Text} {found : List UInt8} :
    decode t = .ok found ↔ ∃ form signs, t = form ++ List.replicate signs '=' ∧
      IsForm found form ∧ (signs = 0 ∨ IsWhole form) := by
  obtain ⟨digits, hsplit, hdigits, hend⟩ := digitValues_spec t
  unfold decode
  dsimp only
  constructor
  · intro h
    cases hproblem : tailProblem? (digitValues t).1.length (digitValues t).2 with
    | some problem =>
        rw [hproblem] at h
        cases h
    | none =>
        rw [hproblem] at h
        obtain rfl := Except.ok.inj h
        obtain ⟨hlone, signs, htail, hsigns⟩ := (tailProblem?_eq_none_iff ..).mp hproblem
        refine ⟨_, signs, ?_, isForm_bytes hdigits hlone, ?_⟩
        · rw [List.append_assoc, ← htail, ← hsplit]
        · rwa [isWhole_iff hdigits]
  · rintro ⟨form, signs, rfl, hform, hsigns⟩
    obtain ⟨digits, values, rfl, hdigits, hlone, rfl⟩ := hform.exists_digits
    rw [isWhole_iff hdigits] at hsigns
    have hread : digitValues (digits ++ (filling values.length ++ List.replicate signs '=')) =
        (values, filling values.length ++ List.replicate signs '=') := by
      apply digitValues_append hdigits
      intro c hc
      have hsign : c = '=' := by
        rcases List.mem_append.mp (List.mem_of_mem_head? hc) with hfilling | hmore
        · exact List.eq_of_mem_replicate hfilling
        · exact List.eq_of_mem_replicate hmore
      rw [hsign]
      exact value?_filling
    rw [List.append_assoc, hread]
    dsimp only
    rw [(tailProblem?_eq_none_iff ..).mpr ⟨hlone, signs, rfl, hsigns⟩]

/-- What is written for bytes is read as these. -/
@[simp] theorem decode_encode (bytes : List UInt8) : decode (encode bytes) = .ok bytes :=
  decode_ok_iff.mpr ⟨encode bytes, 0, by simp, isForm_encode bytes, .inl rfl⟩

/-- A form has digits, and signs of filling. -/
theorem IsForm.mem {found : List UInt8} {form : Text} (h : IsForm found form) {c : Char}
    (hc : c ∈ form) : c = '=' ∨ ∃ value, IsDigit c value := by
  obtain ⟨digits, values, rfl, hdigits, -, -⟩ := h.exists_digits
  rcases List.mem_append.mp hc with hdigit | hfilling
  · exact .inr (exists_value_of_mem hdigits hdigit)
  · exact .inl (List.eq_of_mem_replicate hfilling)

/-- Forms are whole groups of four. -/
theorem IsForm.length_mod {found : List UInt8} {form : Text} (h : IsForm found form) :
    form.length % 4 = 0 := by
  obtain ⟨digits, values, rfl, hdigits, -, -⟩ := h.exists_digits
  rw [List.length_append, hdigits.length_eq, filling, List.length_replicate]
  omega

theorem IsDigit.toNat_lt {c : Char} {value : Nat} (h : IsDigit c value) : c.toNat < 128 := by
  by_contra hwide
  rw [← value?_eq_some_iff, value?_eq_none (by omega)] at h
  cases h

/-- What can be read has only characters of the first 128. -/
theorem toNat_lt_of_decode_ok {t : Text} {found : List UInt8} (h : decode t = .ok found)
    {c : Char} (hc : c ∈ t) : c.toNat < 128 := by
  have hsign : ('=' : Char).toNat < 128 := by decide
  obtain ⟨form, signs, rfl, hform, -⟩ := decode_ok_iff.mp h
  rcases List.mem_append.mp hc with hmem | hmem
  · rcases hform.mem hmem with rfl | ⟨value, hvalue⟩
    · exact hsign
    · exact hvalue.toNat_lt
  · rw [List.eq_of_mem_replicate hmem]
    exact hsign

end Almanac.Data.Base64
