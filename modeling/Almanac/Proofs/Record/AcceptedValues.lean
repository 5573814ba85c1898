import Almanac.Proofs.Record.MissingObjects
import Almanac.Proofs.Record.RecordRoundTrip

/-!
# Values that are accepted

A value is accepted as an entry or a record in many shapes. Whatever its shape was, the written
form of what was read of it is accepted as well, and it stays as it is from then on: an entry is
the same entry again, and a record has the same holidays in order. The time of a record is kept
because an offset of no whole second is never read.
-/

namespace Almanac

open Almanac.Data

/-! ## Times -/

namespace Time.Timestamp

/-- An offset that is read is zero or at least a second in size. -/
theorem shift_of_readTime? {t : Text} {clock : Clock} {shift : Int}
    (h : readTime? t = some (clock, some shift)) : shift = 0 ∨ 1000000 ≤ shift.natAbs := by
  unfold readTime? at h
  obtain ⟨read, -, h⟩ := Option.bind_eq_some_iff.mp h
  split at h
  next =>
    split at h
    next => cases h
    next => cases h
  next =>
    split at h
    next =>
      cases h
      exact .inl rfl
    next => cases h
  next sign rest _ _ =>
    obtain ⟨offset, -, h⟩ := Option.bind_eq_some_iff.mp h
    split at h
    next =>
      simp only [Option.some.injEq, Prod.mk.injEq] at h
      obtain ⟨-, rfl⟩ := h
      split_ifs <;> omega
    next => cases h

theorem shift_of_readShape? {t : Text} {date : Nat × Nat × Nat} {clock : Clock} {shift : Int}
    (h : readShape? t = some (date, clock, some shift)) :
    shift = 0 ∨ 1000000 ≤ shift.natAbs := by
  unfold readShape? at h
  split at h
  next => cases h
  next =>
    obtain ⟨parts, -, h⟩ := Option.bind_eq_some_iff.mp h
    split at h
    next => cases h
    next =>
      obtain ⟨⟨read, offset⟩, htime, h⟩ := Option.bind_eq_some_iff.mp h
      simp only [Option.some.injEq, Prod.mk.injEq] at h
      obtain ⟨-, -, rfl⟩ := h
      exact shift_of_readTime? htime

/-- A timestamp that was read once is kept when it is written and read again. -/
theorem afterReading_of_read {t : Text} {timestamp : Timestamp} (h : read t = .ok timestamp) :
    timestamp.afterReading = timestamp := by
  rw [afterReading_eq_self_iff]
  intro offset hoffset
  unfold read at h
  split at h
  next => cases h
  next year month day clock shift hshape =>
    dsimp only at h
    split at h
    next => cases h
    next read hread =>
      split at h
      next => cases h
      next date _ =>
        split_ifs at h
        cases h
        cases shift with
        | none =>
            cases hread
            cases hoffset
        | some n =>
            dsimp only at hread hoffset
            subst hoffset
            split at hread
            next =>
              cases hread
              exact shift_of_readShape? hshape
            next => cases hread

theorem afterReading_of_readWide {t : WideText} {timestamp : Timestamp}
    (h : readWide t = .ok timestamp) : timestamp.afterReading = timestamp := by
  unfold readWide at h
  split at h
  next => exact afterReading_of_read h
  next => cases h

theorem afterReading_of_utc {timestamp : Timestamp} (h : timestamp.offset = some .utc) :
    timestamp.afterReading = timestamp := by
  rw [afterReading_eq_self_iff, h]
  rintro offset ⟨⟩
  exact .inl rfl

end Time.Timestamp

namespace Record

open Almanac.Time

/-! ## Entries -/

theorem Entry.eq_of_checked {entry result : Entry} (h : entry.checked = .ok result) :
    result = entry := by
  unfold checked at h
  split at h
  next =>
    split at h
    next => cases h
    next =>
      split at h
      next => cases h
      next =>
        cases h
        rfl
      next => cases h
  next =>
    split at h
    next => cases h
    next =>
      cases h
      rfl
  next =>
    cases h
    rfl

/-- What is accepted as an entry has what its way of calculation needs. -/
theorem Entry.checked_of_ofJson {value : Json} {entry : Entry} (h : ofJson value = .ok entry) :
    entry.checked = .ok entry := by
  unfold ofJson at h
  split at h
  next members =>
    unfold ofMembers at h
    simp only [bind_eq_ok] at h
    obtain ⟨name, -, calculation, -, kind, -, languages, -, rule, -, hchecked⟩ := h
    obtain rfl := eq_of_checked hchecked
    exact hchecked
  next => cases h

/-! ## Records -/

theorem checked_of_entriesOf {members : List (WideText × Json)} {holidays : Entries WideText Entry}
    (h : entriesOf members = .ok holidays) :
    ∀ holiday ∈ holidays, holiday.2.checked = .ok holiday.2 := by
  induction members generalizing holidays with
  | nil =>
      cases h
      exact List.forall_mem_nil _
  | cons member rest ih =>
      obtain ⟨key, value⟩ := member
      rw [entriesOf] at h
      cases hentry : Entry.ofJson value with
      | error fault =>
          rw [hentry] at h
          cases h
      | ok entry =>
          rw [hentry] at h
          obtain ⟨others, hrest, rfl⟩ := exists_of_map_eq_ok h
          exact List.forall_mem_cons.mpr ⟨Entry.checked_of_ofJson hentry, ih hrest⟩

theorem checked_of_holidaysOf {value : Json} {holidays : Entries WideText Entry}
    (h : holidaysOf value = .ok holidays) :
    ∀ holiday ∈ holidays, holiday.2.checked = .ok holiday.2 := by
  unfold holidaysOf at h
  split at h
  next members => exact checked_of_entriesOf h
  next => cases h

theorem afterReading_of_timeOf {now : Timestamp} (hnow : now.offset = some .utc) {value : Json}
    {time : Timestamp} (h : timeOf now value = .ok time) : time.afterReading = time := by
  unfold timeOf at h
  split at h
  next =>
    split at h
    next t => exact Timestamp.afterReading_of_readWide (mapError_eq_ok.mp h)
    next => cases h
  next =>
    cases h
    exact Timestamp.afterReading_of_utc hnow

/-- What is accepted as a record has holidays with what their ways of calculation need, and a time
that is kept. -/
theorem spec_of_ofJson {now : Timestamp} (hnow : now.offset = some .utc) {value : Json}
    {record : Record} (h : ofJson now value = .ok record) :
    record.IsChecked ∧ record.fetchedAt.afterReading = record.fetchedAt := by
  unfold ofJson at h
  split at h
  next members =>
    unfold ofMembers at h
    simp only [bind_eq_ok] at h
    obtain ⟨subdivisions, -, categories, -, languages, -, holidays, hholidays, time, htime, h⟩ := h
    cases h
    exact ⟨checked_of_holidaysOf hholidays, afterReading_of_timeOf hnow htime⟩
  next => cases h

/-- Holidays in order stay as they are, so a record whose time is kept is written the same way
after it was read. -/
theorem toJson_afterReading {record : Record}
    (htime : record.fetchedAt.afterReading = record.fetchedAt) :
    record.afterReading.toJson = record.toJson := by
  have hsorted : record.afterReading.sortedHolidays = record.sortedHolidays :=
    List.mergeSort_of_pairwise (WideText.pairwise_mergeSort_keys record.holidays)
  rw [toJson_eq, toJson_eq, members, members, hsorted]
  dsimp only [afterReading]
  rw [htime]

/-- Normalization settles at once. The written form of what was accepted as an entry is read as
that entry. The written form of what was accepted as a record is accepted, whenever that is, and
has itself as its written form. -/
theorem rereading_of_accepted {now : Timestamp} (hnow : now.offset = some .utc) :
    (∀ value entry, Entry.ofJson value = .ok entry → Entry.ofJson entry.toJson = .ok entry) ∧
      ∀ value record, ofJson now value = .ok record → ∀ later, ∃ again,
        ofJson later record.toJson = .ok again ∧ again.toJson = record.toJson := by
  refine ⟨fun value entry h => Entry.ofJson_toJson_of_checked (Entry.checked_of_ofJson h), ?_⟩
  intro value record h later
  obtain ⟨hchecked, htime⟩ := spec_of_ofJson hnow h
  exact ⟨record.afterReading, ofJson_toJson_of_checked later hchecked, toJson_afterReading htime⟩

/-- Pairs for an object, a text and an object for lists, holidays out of order, a rule that is not
truthy, and the date of a week with an offset of half a second. -/
def oddRecord : Json :=
  .obj [("name", .null), ("subdivisions", .arr [.str "b1", .arr [.str "a", .int 2], .str "b3"]),
    ("categories", .str "xy"), ("languages", .obj [("de", .null), ("en", .null)]),
    ("holidays", .obj [
      ("z", .obj [("name", .int 1), ("calculation", .str "fixed"), ("month", .bool true),
        ("day", .str ""), ("weekday_rule", .arr []), ("languages", .str "")]),
      ("a", .obj [("name", .bool false), ("calculation", .str "complex"),
        ("easter_offset", .null)])]),
    ("fetched_at", .str "2024-W01-1 00+00:00:00.5")]

/-- The start of the year 1970 in universal time. -/
def epoch : Timestamp :=
  ⟨⟨1970, 1, 1, by decide⟩, ⟨0, 0, 0, 0, by decide⟩, some .utc⟩

theorem rereading_of_accepted_oddRecord :
    epoch.offset = some .utc ∧ ∃ record again, ofJson epoch oddRecord = .ok record ∧
      record.subdivisions.keys = ["b", "a"] ∧ record.holidays.keys = ["z", "a"] ∧
      record.fetchedAt.toText = "2024-01-01T00:00:00+00:00" ∧
      ofJson epoch record.toJson = .ok again ∧ again.toJson = record.toJson := by
  have hread : (ofJson epoch oddRecord).toOption.map (fun record => (record.subdivisions.keys,
      record.holidays.keys, record.fetchedAt.toText)) =
        some ((["b", "a"] : List WideText), (["z", "a"] : List WideText),
          ("2024-01-01T00:00:00+00:00" : Text)) := by
    decide +kernel
  have hnow : epoch.offset = some .utc := rfl
  cases hrecord : ofJson epoch oddRecord with
  | error fault =>
      rw [hrecord] at hread
      cases hread
  | ok record =>
      rw [hrecord] at hread
      simp only [Except.toOption, Option.map_some, Option.some.injEq, Prod.mk.injEq] at hread
      obtain ⟨again, hagain, hsame⟩ :=
        (rereading_of_accepted hnow).2 oddRecord record hrecord epoch
      exact ⟨hnow, record, again, rfl, hread.1, hread.2.1, hread.2.2, hagain, hsame⟩

end Record
end Almanac
