import Almanac.Proofs.Text.DecimalDigits
import Almanac.Proofs.Text.Spans
import Almanac.Time.Timestamp

/-!
# Reading timestamps that were written

The written form of a timestamp is read as the timestamp. One thing is lost: an offset of less
than a second in either direction is read as universal time.
-/

namespace Almanac.Time

open Almanac.Text (isPlainDigit plainNumber plainValue?)

/-- The offset that is read where this one was written. -/
def Offset.afterReading (offset : Offset) : Offset :=
  if offset.microseconds.natAbs < 1000000 then .utc else offset

theorem Offset.microseconds_afterReading (offset : Offset) : offset.afterReading.microseconds =
    if offset.microseconds.natAbs < 1000000 then 0 else offset.microseconds := by
  unfold Offset.afterReading
  split <;> rfl

theorem Offset.afterReading_eq_self_iff (offset : Offset) : offset.afterReading = offset ↔
    offset.microseconds = 0 ∨ 1000000 ≤ offset.microseconds.natAbs := by
  obtain ⟨n, hday⟩ := offset
  unfold Offset.afterReading Offset.utc
  dsimp only
  split
  next hsmall =>
    rw [Offset.mk.injEq]
    omega
  next hsmall => exact ⟨fun _ => .inr (by omega), fun _ => rfl⟩

namespace Timestamp

/-- The timestamp that is read where this one was written. -/
def afterReading (t : Timestamp) : Timestamp :=
  { t with offset := t.offset.map Offset.afterReading }

theorem afterReading_eq_self_iff (t : Timestamp) : t.afterReading = t ↔
    ∀ offset, t.offset = some offset →
      offset.microseconds = 0 ∨ 1000000 ≤ offset.microseconds.natAbs := by
  obtain ⟨date, time, offset⟩ := t
  cases offset with
  | none => simp [afterReading]
  | some offset => simp [afterReading, Offset.afterReading_eq_self_iff]

/-! ## Padded numbers -/

theorem isPlainDigit_of_mem_padded {width n : Nat} {c : Char} (hmem : c ∈ padded width n) :
    isPlainDigit c = true := by
  rcases List.mem_append.mp hmem with hzero | hdigit
  · rw [List.eq_of_mem_replicate hzero]
    rfl
  · exact Text.isPlainDigit_of_mem_ofNat hdigit

theorem length_padded (width : Nat) {n : Nat} (hwidth : 0 < width) (hn : n < 10 ^ width) :
    (padded width n).length = width := by
  have hshort : (Text.ofNat n).length ≤ width :=
    (Nat.length_toDigits_le_iff (by decide) hwidth).mpr hn
  simp only [padded, List.length_append, List.length_replicate]
  omega

theorem plainNumber_padded (width n : Nat) : plainNumber (padded width n) = n := by
  rw [padded, Text.plainNumber_append, Text.plainNumber_replicate_zero, Text.plainNumber_ofNat]
  omega

/-- Digits are read as their number, whatever follows them. -/
theorem digits?_append {digits : Text} (hdigits : ∀ c ∈ digits, isPlainDigit c = true)
    (value : Nat) (rest : Text) :
    digits? digits.length value (digits ++ rest) =
      some (digits.foldl (fun n c => 10 * n + (c.toNat - '0'.toNat)) value, rest) := by
  induction digits generalizing value with
  | nil => rfl
  | cons c digits ih =>
      have hc := hdigits c List.mem_cons_self
      simp only [List.length_cons, List.cons_append, digits?, plainValue?, hc, if_true]
      exact ih (fun d hd => hdigits d (List.mem_cons_of_mem _ hd)) _

theorem digits?_padded (width : Nat) {n : Nat} (hwidth : 0 < width) (hn : n < 10 ^ width)
    (rest : Text) :
    digits? width 0 (padded width n ++ rest) = some (n, rest) := by
  have hdigits : ∀ c ∈ padded width n, isPlainDigit c = true :=
    fun c hmem => isPlainDigit_of_mem_padded hmem
  have hread := digits?_append hdigits 0 rest
  rw [length_padded width hwidth hn] at hread
  rw [hread]
  exact congrArg (fun m => some (m, rest)) (plainNumber_padded width n)

/-! ## Times and offsets -/

/-- The fraction of a second behind a time. -/
def fractionText (microsecond : Nat) : Text :=
  if microsecond = 0 then [] else '.' :: padded 6 microsecond

/-- Hours, minutes, seconds and a fraction. -/
def clockText (hour minute second microsecond : Nat) : Text :=
  padded 2 hour ++ ':' :: (padded 2 minute ++ ':' :: (padded 2 second ++ fractionText microsecond))

theorem readFraction?_padded {microsecond : Nat} (hrange : microsecond < 1000000) :
    readFraction? (padded 6 microsecond) = some (microsecond, true) := by
  have hread := digits?_padded 6 (by decide) hrange []
  rw [List.append_nil] at hread
  simp [readFraction?, length_padded 6 (by decide) hrange, hread]

/-- The last part of a clock. -/
theorem readParts?_last (colons : Bool) (parts : List Nat) (due : Nat) {n : Nat} (hn : n < 100) :
    readParts? colons parts due (padded 2 n) =
      some ⟨(parts ++ [n]).getD 0 0, (parts ++ [n]).getD 1 0, (parts ++ [n]).getD 2 0, 0,
        true⟩ := by
  have hread := digits?_padded 2 (by decide) hn []
  rw [List.append_nil] at hread
  rw [readParts?.eq_def]
  dsimp only
  rw [hread]
  rfl

/-- A part of a clock with a fraction behind it. -/
theorem readParts?_fraction (colons : Bool) (parts : List Nat) (due : Nat) {n microsecond : Nat}
    (hn : n < 100) (hrange : microsecond < 1000000) :
    readParts? colons parts due (padded 2 n ++ '.' :: padded 6 microsecond) =
      some ⟨(parts ++ [n]).getD 0 0, (parts ++ [n]).getD 1 0, (parts ++ [n]).getD 2 0,
        microsecond, true⟩ := by
  have hread := digits?_padded 2 (by decide) hn ('.' :: padded 6 microsecond)
  have hfraction := readFraction?_padded hrange
  have hlength := length_padded 6 (by decide) hrange
  cases hwritten : padded 6 microsecond with
  | nil => simp [hwritten] at hlength
  | cons c more =>
      rw [hwritten] at hread hfraction
      rw [readParts?.eq_def]
      simp [hread, hfraction]

/-- A part of a clock with a further part behind it. -/
theorem readParts?_colon {colons : Bool} {parts : List Nat} (hcolons : parts = [] ∨ colons = true)
    (due : Nat) {n : Nat} (hn : n < 100) {rest : Text} (hrest : rest ≠ []) :
    readParts? colons parts (due + 2) (padded 2 n ++ ':' :: rest) =
      readParts? true (parts ++ [n]) (due + 1) rest := by
  have hread := digits?_padded 2 (by decide) hn (':' :: rest)
  cases rest with
  | nil => exact absurd rfl hrest
  | cons c more =>
      rw [readParts?.eq_def]
      rcases hcolons with rfl | rfl <;> simp [hread]

@[simp] theorem padded_ne_nil (width n : Nat) : padded width n ≠ [] := by
  simp [padded]

theorem readParts?_minutes {hour minute : Nat} (hhour : hour < 100) (hminute : minute < 100) :
    readParts? false [] 3 (padded 2 hour ++ ':' :: padded 2 minute) =
      some ⟨hour, minute, 0, 0, true⟩ := by
  rw [readParts?_colon (.inl rfl) 1 hhour (padded_ne_nil 2 minute), readParts?_last _ _ _ hminute]
  rfl

theorem readParts?_clockText {hour minute second microsecond : Nat} (hhour : hour < 100)
    (hminute : minute < 100) (hsecond : second < 100) (hrange : microsecond < 1000000) :
    readParts? false [] 3 (clockText hour minute second microsecond) =
      some ⟨hour, minute, second, microsecond, true⟩ := by
  -- the last part ends the time or has the fraction behind it
  have hfraction : readParts? true [hour, minute] 1 (padded 2 second ++ fractionText microsecond) =
      some ⟨hour, minute, second, microsecond, true⟩ := by
    unfold fractionText
    split
    next hzero =>
      rw [List.append_nil, readParts?_last _ _ _ hsecond, hzero]
      rfl
    next =>
      rw [readParts?_fraction _ _ _ hsecond hrange]
      rfl
  rw [clockText, readParts?_colon (.inl rfl) 1 hhour (by simp),
    readParts?_colon (.inr rfl) 0 hminute (by simp)]
  exact hfraction

/-- Does the character begin an offset? -/
def beginsOffset (c : Char) : Bool :=
  c = '+' || c = '-' || c = 'Z'

theorem beginsOffset_of_isPlainDigit {c : Char} (hc : isPlainDigit c = true) :
    beginsOffset c = false := by
  have hdigit : ∀ d, isPlainDigit d = false → c ≠ d := by
    rintro d hd rfl
    rw [hc] at hd
    exact Bool.noConfusion hd
  simp [beginsOffset, hdigit '+' rfl, hdigit '-' rfl, hdigit 'Z' rfl]

theorem beginsOffset_of_mem_clockText {hour minute second microsecond : Nat} {c : Char}
    (hmem : c ∈ clockText hour minute second microsecond) : beginsOffset c = false := by
  have hpadded : ∀ {width n : Nat}, c ∈ padded width n → beginsOffset c = false :=
    fun h => beginsOffset_of_isPlainDigit (isPlainDigit_of_mem_padded h)
  have hfraction : c ∈ fractionText microsecond → beginsOffset c = false := by
    unfold fractionText
    split
    next => exact fun h => absurd h List.not_mem_nil
    next =>
      intro h
      rcases List.mem_cons.mp h with rfl | h
      · rfl
      · exact hpadded h
  simp only [clockText, List.mem_append, List.mem_cons] at hmem
  rcases hmem with h | rfl | h | rfl | h | h
  · exact hpadded h
  · rfl
  · exact hpadded h
  · rfl
  · exact hpadded h
  · exact hfraction h

/-- The written form of an offset behind its sign. -/
def offsetText (size : Nat) : Text :=
  padded 2 (size / 1000000 / 3600) ++ [':'] ++ padded 2 (size / 1000000 / 60 % 60)
    ++ (if size / 1000000 % 60 = 0 ∧ size % 1000000 = 0 then []
      else ':' :: padded 2 (size / 1000000 % 60) ++ fractionText (size % 1000000))

theorem writtenOffset_eq (offset : Offset) : writtenOffset offset =
    (if offset.microseconds < 0 then '-' else '+') :: offsetText offset.microseconds.natAbs := by
  simp only [writtenOffset, offsetText, fractionText, List.append_assoc, List.cons_append,
    List.nil_append]

theorem readParts?_offsetText {size : Nat} (hday : size < microsecondsInDay) :
    readParts? false [] 3 (offsetText size) = some ⟨size / 1000000 / 3600,
      size / 1000000 / 60 % 60, size / 1000000 % 60, size % 1000000, true⟩ := by
  unfold microsecondsInDay at hday
  have hhour : size / 1000000 / 3600 < 100 := by omega
  have hminute : size / 1000000 / 60 % 60 < 100 := by omega
  have hsecond : size / 1000000 % 60 < 100 := by omega
  have hrange : size % 1000000 < 1000000 := Nat.mod_lt _ (by decide)
  unfold offsetText
  split
  next hzero =>
    rw [List.append_nil, List.append_assoc, List.singleton_append,
      readParts?_minutes hhour hminute, hzero.1, hzero.2]
  next =>
    have hclock := readParts?_clockText hhour hminute hsecond hrange
    simpa only [clockText, List.append_assoc, List.cons_append, List.nil_append] using hclock

/-- The offset of a timestamp as it is written. -/
def offsetPart (offset : Option Offset) : Text :=
  match offset with
  | none => []
  | some offset => writtenOffset offset

theorem span_clockText (hour minute second microsecond : Nat) (offset : Option Offset) :
    (clockText hour minute second microsecond ++ offsetPart offset).takeWhile
        (fun c => !beginsOffset c) = clockText hour minute second microsecond ∧
      (clockText hour minute second microsecond ++ offsetPart offset).dropWhile
        (fun c => !beginsOffset c) = offsetPart offset := by
  have hclock : ∀ c ∈ clockText hour minute second microsecond, (!beginsOffset c) = true :=
    fun c hc => by rw [beginsOffset_of_mem_clockText hc]; rfl
  have hoffset : ∀ c ∈ (offsetPart offset).head?, (!beginsOffset c) = false := by
    cases offset with
    | none => simp [offsetPart]
    | some offset =>
        have hsign : beginsOffset (if offset.microseconds < 0 then '-' else '+') = true := by
          split <;> rfl
        simp [offsetPart, writtenOffset_eq, hsign]
  exact ⟨Text.takeWhile_span hclock hoffset, Text.dropWhile_span hclock hoffset⟩

/-- The parts of an offset make up its size, but an offset without a whole second counts as
none. -/
theorem size_of_parts (size : Nat) :
    (if size / 1000000 / 3600 * 3600 + size / 1000000 / 60 % 60 * 60 + size / 1000000 % 60 = 0
      then (0 : Int)
      else ((size / 1000000 / 3600 * 3600 + size / 1000000 / 60 % 60 * 60 + size / 1000000 % 60)
        * 1000000 + size % 1000000 : Nat)) =
      if size < 1000000 then 0 else (size : Int) := by
  have hwhole : size / 1000000 / 3600 * 3600 + size / 1000000 / 60 % 60 * 60
      + size / 1000000 % 60 = size / 1000000 := by
    omega
  have hzero : size / 1000000 = 0 ↔ size < 1000000 := by omega
  rw [hwhole, Nat.mul_comm (size / 1000000) 1000000, Nat.div_add_mod]
  simp only [hzero]

/-- A written time and its offset are read as themselves. -/
theorem readTime?_written {hour minute second microsecond : Nat} (hhour : hour < 100)
    (hminute : minute < 100) (hsecond : second < 100) (hrange : microsecond < 1000000)
    (offset : Option Offset) :
    readTime? (clockText hour minute second microsecond ++ offsetPart offset) =
      some (⟨hour, minute, second, microsecond, true⟩,
        (offset.map Offset.afterReading).map Offset.microseconds) := by
  obtain ⟨hbefore, hbehind⟩ := span_clockText hour minute second microsecond offset
  unfold beginsOffset at hbefore hbehind
  unfold readTime?
  dsimp only
  rw [hbefore, hbehind, readParts?_clockText hhour hminute hsecond hrange]
  cases offset with
  | none => rfl
  | some offset =>
      obtain ⟨n, hday⟩ := offset
      rw [offsetPart, writtenOffset_eq]
      have hparts := readParts?_offsetText hday
      have hkept := Offset.microseconds_afterReading ⟨n, hday⟩
      have hsize := size_of_parts n.natAbs
      dsimp only at hparts hkept ⊢
      rw [Option.map_some, Option.map_some, hkept]
      by_cases hnegative : n < 0
      · have hsigned : -(if n.natAbs < 1000000 then 0 else (n.natAbs : Int)) =
            if n.natAbs < 1000000 then 0 else n := by
          split <;> omega
        rw [if_pos hnegative]
        simp only [hparts, hsize, hsigned, Char.reduceEq, imp_self, if_true, Option.bind_eq_bind,
          Option.bind_some]
      · have hsigned : (if n.natAbs < 1000000 then 0 else (n.natAbs : Int)) =
            if n.natAbs < 1000000 then 0 else n := by
          split <;> omega
        rw [if_neg hnegative]
        simp only [hparts, hsize, hsigned, Char.reduceEq, imp_self, if_true, if_false,
          Option.bind_eq_bind, Option.bind_some]

/-! ## Dates -/

/-- A date as it is written. -/
def dateText (date : Date) : Text :=
  padded 4 date.year ++ '-' :: (padded 2 date.month ++ '-' :: padded 2 date.day)

theorem parts_lt (date : Date) : date.year < 10000 ∧ date.month < 100 ∧ date.day < 100 := by
  obtain ⟨year, month, day, hdate⟩ := date
  have hdays : daysInMonth year month ≤ 31 := by
    unfold daysInMonth
    split <;> (try split) <;> omega
  simp only [isDate, Bool.and_eq_true, decide_eq_true_eq] at hdate
  dsimp only
  omega

@[simp] theorem length_dateText (date : Date) : (dateText date).length = 10 := by
  obtain ⟨hyear, hmonth, hday⟩ := parts_lt date
  have h4 := length_padded 4 (by decide) hyear
  have h2 := length_padded 2 (by decide) hmonth
  have h2' := length_padded 2 (by decide) hday
  simp [dateText, h4, h2, h2']

/-- What is written behind the year begins with a digit, so not with the letter of a week. -/
theorem exists_cons_of_padded (width n : Nat) :
    ∃ c more, padded width n = c :: more ∧ c ≠ 'W' := by
  obtain ⟨c, more, hwritten⟩ := List.exists_cons_of_ne_nil (padded_ne_nil width n)
  refine ⟨c, more, hwritten, ?_⟩
  rintro rfl
  have hmem : 'W' ∈ padded width n := hwritten ▸ List.mem_cons_self
  exact absurd (isPlainDigit_of_mem_padded hmem) (by decide)

theorem dateLength_dateText (date : Date) (rest : Text) :
    dateLength (dateText date ++ rest) = 10 := by
  obtain ⟨hyear, hmonth, -⟩ := parts_lt date
  have hlength : (dateText date ++ rest).length ≠ 7 := by
    rw [List.length_append, length_dateText]
    omega
  have h4 := length_padded 4 (by decide) hyear
  -- a dash behind the year and no letter of a week behind that: the date takes ten characters
  have hdash : (dateText date ++ rest)[4]? = some '-' := by
    rw [dateText, List.append_assoc, List.getElem?_append_right (by omega), h4]
    rfl
  have hweek : (dateText date ++ rest)[5]? ≠ some 'W' := by
    rw [dateText, List.append_assoc, List.getElem?_append_right (by omega), h4]
    obtain ⟨c, more, hwritten, hc⟩ := exists_cons_of_padded 2 date.month
    rw [hwritten]
    exact fun heq => hc (Option.some.inj heq)
  simp only [dateLength, hlength, hdash, hweek, if_true, if_false]

/-- A written date is read as its year, month and day. -/
theorem readDate?_dateText (date : Date) :
    readDate? (dateText date) = some (date.year, date.month, date.day) := by
  obtain ⟨hyear, hmonth, hday⟩ := parts_lt date
  have hreadYear := digits?_padded 4 (by decide) hyear
    ('-' :: (padded 2 date.month ++ '-' :: padded 2 date.day))
  have hreadMonth := digits?_padded 2 (by decide) hmonth ('-' :: padded 2 date.day)
  have hreadDay := digits?_padded 2 (by decide) hday []
  rw [List.append_nil] at hreadDay
  obtain ⟨c, more, hwritten, hweek⟩ := exists_cons_of_padded 2 date.month
  rw [hwritten, List.cons_append] at hreadYear hreadMonth
  unfold readDate? dateText
  rw [hwritten]
  simp [hreadYear, hreadMonth, hreadDay, hweek, Text.after?]

/-! ## Timestamps -/

theorem toText_eq (t : Timestamp) : t.toText = dateText t.date ++ 'T' ::
    (clockText t.time.hour t.time.minute t.time.second t.time.microsecond
      ++ offsetPart t.offset) := by
  obtain ⟨date, time, offset⟩ := t
  cases offset with
  | none =>
      simp only [toText, dateText, clockText, fractionText, offsetPart, List.append_assoc,
        List.cons_append, List.nil_append]
  | some offset =>
      simp only [toText, dateText, clockText, fractionText, offsetPart, List.append_assoc,
        List.cons_append, List.nil_append]

/-- There is no half to be replaced in a text. -/
@[simp]
theorem readWide_wide (t : Text) : readWide t = read t := by
  have hnone : ∀ i : Nat, (t.wide[i]?.any fun p => p.char?.isNone) = false := by
    intro i
    rw [Text.wide, List.getElem?_map]
    cases t[i]? <;> rfl
  have hsame : withSeparator t = t := by simp [withSeparator, hnone]
  rw [readWide, hsame, Text.text?_wide]

/-- A timestamp is read from its written form, but for the offset if that is too small. -/
theorem read_toText (t : Timestamp) : read t.toText = .ok t.afterReading := by
  obtain ⟨date, time, offset⟩ := t
  obtain ⟨hour, minute, second, microsecond, htime⟩ := time
  have hrange := htime
  simp only [isTime, Bool.and_eq_true, decide_eq_true_eq] at hrange
  have hclock : readTime? (clockText hour minute second microsecond ++ offsetPart offset) =
      some (⟨hour, minute, second, microsecond, true⟩,
        (offset.map Offset.afterReading).map Offset.microseconds) :=
    readTime?_written (by omega) (by omega) (by omega) (by omega) offset
  have hshape : readShape? (toText ⟨date, ⟨hour, minute, second, microsecond, htime⟩, offset⟩) =
      some ((date.year, date.month, date.day), ⟨hour, minute, second, microsecond, true⟩,
        (offset.map Offset.afterReading).map Offset.microseconds) := by
    rw [toText_eq]
    have hlength : ¬ (dateText date ++ 'T' ::
        (clockText hour minute second microsecond ++ offsetPart offset)).length < 7 := by
      rw [List.length_append, length_dateText]
      omega
    have htake : (dateText date ++ 'T' ::
        (clockText hour minute second microsecond ++ offsetPart offset)).take 10 =
        dateText date :=
      List.take_left' (length_dateText date)
    have hdrop : (dateText date ++ 'T' ::
        (clockText hour minute second microsecond ++ offsetPart offset)).drop 10 =
        'T' :: (clockText hour minute second microsecond ++ offsetPart offset) :=
      List.drop_left' (length_dateText date)
    rw [readShape?, if_neg hlength]
    simp [dateLength_dateText, htake, hdrop, readDate?_dateText, hclock]
  have hdate : Date.of date.year date.month date.day = .ok date := by
    rw [Date.of, dif_pos date.exists_in_calendar]
  unfold read
  rw [hshape]
  cases offset with
  | none => simp [hdate, htime, afterReading]
  | some offset =>
      have hday := offset.afterReading.within_day
      simp [hdate, htime, hday, afterReading]

end Timestamp
end Almanac.Time
