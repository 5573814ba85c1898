import Almanac.Text.Integer
import Mathlib.Data.List.Induction
import Mathlib.Data.List.TakeWhile
import Mathlib.Data.Nat.Digits.Defs

/-!
# When a text is read as a number

Reading succeeds just for decimal digits that are not too many, behind one sign at most. So the
number that comes of it is short: written again it has no more digits than are read.
-/

namespace Almanac.Text

/-- The text is made of decimal digits, of which there are some but not too many. -/
def IsReadableNat (t : Text) : Prop :=
  t ≠ [] ∧ (∀ c ∈ t, isDecimal c = true) ∧ t.length ≤ maxDigits

theorem takeWhile_length_lt_iff (p : Char → Bool) (t : Text) :
    (t.takeWhile p).length < t.length ↔ ∃ c ∈ t, p c = false := by
  induction t with
  | nil => simp
  | cons c rest ih =>
      cases hc : p c with
      | false => simp [hc]
      | true => simpa [hc] using ih

theorem readNat_ok_iff (t : Text) : (∃ n, readNat t = .ok n) ↔ IsReadableNat t := by
  unfold readNat IsReadableNat
  dsimp only
  by_cases hdecimal : ∀ c ∈ t, isDecimal c = true
  · have htake : t.takeWhile isDecimal = t := List.takeWhile_eq_self_iff.mpr hdecimal
    rw [htake]
    by_cases hsize : maxDigits < t.length
    · simp [hsize]
    · rw [if_neg hsize]
      cases t with
      | nil => simp
      | cons c rest =>
          rw [if_neg (by simp)]
          exact ⟨fun _ => ⟨List.cons_ne_nil c rest, hdecimal, Nat.not_lt.mp hsize⟩,
            fun _ => ⟨_, rfl⟩⟩
  · have hshort : (t.takeWhile isDecimal).length < t.length := by
      rw [takeWhile_length_lt_iff]
      simpa using hdecimal
    split
    next => simp [hdecimal]
    next => simp [hshort, hdecimal]

theorem readNat_of_isReadableNat {t : Text} (h : IsReadableNat t) :
    readNat t = .ok (digitsValue t) := by
  obtain ⟨hsome, hdecimal, hlength⟩ := h
  have htake : t.takeWhile isDecimal = t := List.takeWhile_eq_self_iff.mpr hdecimal
  unfold readNat
  dsimp only
  rw [htake, if_neg (Nat.not_lt.mpr hlength), if_neg (by simp [hsome])]

/-- The text behind its sign, if it has one. -/
def behindSign : Text → Text
  | '+' :: rest => rest
  | '-' :: rest => rest
  | t => t

theorem behindSign_of_not_sign {t : Text} (hplus : ∀ rest, t ≠ '+' :: rest)
    (hminus : ∀ rest, t ≠ '-' :: rest) : behindSign t = t := by
  unfold behindSign
  split
  next rest => exact absurd rfl (hplus rest)
  next rest => exact absurd rfl (hminus rest)
  next => rfl

theorem readInt_ok_iff (t : Text) : (∃ n, readInt t = .ok n) ↔ IsReadableNat (behindSign t) := by
  rw [← readNat_ok_iff]
  unfold readInt
  split
  next negative digits hsplit =>
    have hdigits : behindSign t = digits := by
      split at hsplit
      next => exact (Prod.mk.inj hsplit).2
      next => exact (Prod.mk.inj hsplit).2
      next hminus hplus =>
        rw [behindSign_of_not_sign hplus hminus]
        exact (Prod.mk.inj hsplit).2
    rw [hdigits]
    cases hread : readNat digits with
    | ok n => simp
    | error fault => cases fault <;> simp

/-! ## Signs -/

/-- A sign or none, and whether it makes a number negative. -/
inductive IsSign : Text → Bool → Prop
  | none : IsSign [] false
  | plus : IsSign ['+'] false
  | minus : IsSign ['-'] true

theorem exists_isSign (t : Text) :
    ∃ sign negative, IsSign sign negative ∧ t = sign ++ behindSign t := by
  unfold behindSign
  split
  next rest => exact ⟨_, _, .plus, rfl⟩
  next rest => exact ⟨_, _, .minus, rfl⟩
  next => exact ⟨_, _, .none, rfl⟩

theorem behindSign_signed {sign body : Text} {negative : Bool} (hsign : IsSign sign negative)
    (hbody : '+' ∉ body ∧ '-' ∉ body) : behindSign (sign ++ body) = body := by
  cases hsign with
  | none =>
      refine behindSign_of_not_sign ?_ ?_ <;> rintro rest rfl
      · exact hbody.1 List.mem_cons_self
      · exact hbody.2 List.mem_cons_self
  | plus => rfl
  | minus => rfl

theorem readInt_signed {sign digits : Text} {negative : Bool} (hsign : IsSign sign negative)
    (hread : IsReadableNat digits) : readInt (sign ++ digits) =
      .ok (if negative then -(digitsValue digits : Int) else digitsValue digits) := by
  have hnat := readNat_of_isReadableNat hread
  cases hsign with
  | none =>
      have hplus : '+' ∉ digits := fun hmem => absurd (hread.2.1 '+' hmem) (by decide)
      have hminus : '-' ∉ digits := fun hmem => absurd (hread.2.1 '-' hmem) (by decide)
      rw [List.nil_append]
      unfold readInt
      split
      next negative unsigned hsplit =>
        split at hsplit
        next => exact absurd List.mem_cons_self hminus
        next => exact absurd List.mem_cons_self hplus
        next =>
          obtain ⟨rfl, rfl⟩ := Prod.mk.inj hsplit
          rw [hnat]
  | plus =>
      rw [List.singleton_append, readInt, hnat]
  | minus =>
      rw [List.singleton_append, readInt, hnat]

/-! ## The numbers that are read -/

/-- The integer has no more digits than are read. -/
def IsShort (n : Int) : Prop :=
  n.natAbs < 10 ^ maxDigits

theorem IsShort.length_ofNat {n : Int} (h : IsShort n) : (ofNat n.natAbs).length ≤ maxDigits :=
  Nat.toDigits_length 10 n.natAbs maxDigits (by decide) h

theorem isShort_neg {n : Int} (h : IsShort n) : IsShort (-n) := by
  unfold IsShort at h ⊢
  rwa [Int.natAbs_neg]

theorem isShort_signed {n : Nat} (h : IsShort n) (negative : Bool) :
    IsShort (if negative then -(n : Int) else n) := by
  cases negative with
  | true => exact isShort_neg h
  | false => exact h

/-- Numbers of two digits are short. -/
theorem isShort_of_lt {n : Int} (h : n.natAbs < 100) : IsShort n := by
  have hpower : 10 ^ 2 ≤ 10 ^ maxDigits := Nat.pow_le_pow_right (by decide) (by decide)
  exact Nat.lt_of_lt_of_le h hpower

theorem decimalValue?_lt {c : Char} {value : Nat} (h : decimalValue? c = some value) :
    value < 10 := by
  obtain ⟨first, -, hfirst⟩ := List.exists_of_findSome?_eq_some h
  split at hfirst
  next hrun =>
    obtain rfl := Option.some.inj hfirst
    omega
  next => cases hfirst

theorem digitsValue_lt (digits : Text) : digitsValue digits < 10 ^ digits.length := by
  induction digits using List.reverseRecOn with
  | nil => decide
  | append_singleton digits c ih =>
      have hdigit : (decimalValue? c).getD 0 < 10 := by
        cases hvalue : decimalValue? c with
        | none => decide
        | some value => exact decimalValue?_lt hvalue
      have hstep : digitsValue (digits ++ [c]) =
          10 * digitsValue digits + (decimalValue? c).getD 0 := by
        rw [digitsValue, List.foldl_append]
        rfl
      rw [hstep, List.length_append, List.length_singleton, Nat.pow_succ]
      omega

theorem isShort_of_readNat {t : Text} {n : Nat} (h : readNat t = .ok n) : IsShort n := by
  unfold readNat at h
  dsimp only at h
  split at h
  next => cases h
  next hsize =>
    split at h
    next => cases h
    next =>
      obtain rfl := Except.ok.inj h
      have hpower : 10 ^ (t.takeWhile isDecimal).length ≤ 10 ^ maxDigits :=
        Nat.pow_le_pow_right (by decide) (Nat.not_lt.mp hsize)
      exact Nat.lt_of_lt_of_le (digitsValue_lt _) hpower

theorem isShort_of_readInt {t : Text} {n : Int} (h : readInt t = .ok n) : IsShort n := by
  unfold readInt at h
  split at h
  next negative digits hsplit =>
    cases hread : readNat digits with
    | error fault => rw [hread] at h; cases fault <;> cases h
    | ok found =>
        rw [hread] at h
        obtain rfl := Except.ok.inj h
        exact isShort_signed (isShort_of_readNat hread) negative

end Almanac.Text
