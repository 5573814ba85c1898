import Almanac.Proofs.Data.Utf8RoundTrip
import Almanac.Proofs.Record.RecordRoundTrip
import Almanac.Proofs.Storage.FileTreeUpdates
import Almanac.Proofs.Text.Runs
import Almanac.Storage.RecordFile

/-!
# Saving and loading records

A well-formed record that was saved in a directory is loaded from the path to which it was saved.
Saving needs a directory that can be made, a code that makes a name of one step, and no directory
in the place of the file.
-/

namespace Almanac.Storage

open Almanac.Data Almanac.Text Almanac.Time

/-! ## Texts in files -/

theorem TextFile.withLineFeeds_eq_self {t : Text} (hreturn : '\r' ∉ t) :
    TextFile.withLineFeeds t = t := by
  induction t with
  | nil => rfl
  | cons c rest ih =>
      have hc : c ≠ '\r' := fun h => hreturn (h ▸ List.mem_cons_self)
      rw [TextFile.withLineFeeds, ih fun h => hreturn (List.mem_cons_of_mem _ h)]
      · exact fun more heq => absurd heq hc
      · exact hc

/-- A text without carriage returns is read from its bytes. -/
theorem TextFile.read_of_bytes {tree : FileTree} {path : Path} {t : Text}
    (hbytes : tree.bytes path = .ok (Utf8.encode t)) (hreturn : '\r' ∉ t) :
    TextFile.read tree path = .ok t := by
  unfold TextFile.read
  rw [hbytes]
  dsimp only
  rw [Utf8.decode_encode]
  dsimp only
  rw [TextFile.withLineFeeds_eq_self hreturn]

/-- A path in a directory can be written to. -/
theorem TextFile.ofPath_eq {tree : FileTree} {path : Path}
    (hparent : tree.isDirectory path.parent = true) :
    TextFile.Writer.ofPath tree path = .ok ⟨some path⟩ := by
  have hat : tree.at? path.parent = some .directory := of_decide_eq_true hparent
  rw [TextFile.Writer.ofPath, if_pos (by simp [FileTree.contains, hat])]

/-- A wide text replaces what is at a path, unless that is a directory. One without an encoding
leaves an empty file. -/
theorem TextFile.replace_eq {tree : FileTree} {path : Path} {place : Place}
    (hplace : tree.resolve path = .ok place) (hfree : tree.node? place ≠ some .directory)
    (t : WideText) :
    TextFile.Writer.replace tree ⟨some path⟩ t =
      (if t.text?.isSome then .ok () else .error (.mishap (.unencodable t)),
        tree.insert place (.file ((Utf8.encodeWide t).toOption.getD []))
          (tree.node?_resolve hplace) hfree) := by
  have hmode : TextFile.Mode.ofText "w" = .ok .replace := rfl
  have hput := FileTree.putNode_of_resolve hplace hfree
  have hstore : ∀ bytes, TextFile.store tree path .replace bytes =
      .ok (tree.insert place (.file bytes) (tree.node?_resolve hplace) hfree) := by
    intro bytes
    unfold TextFile.store FileTree.put
    dsimp only
    rw [hput]
    cases hnode : tree.node? place with
    | none => simp [FileTree.bytes, hplace, hnode, bind, Except.bind, Except.mapError]
    | some node =>
        cases node with
        | directory => exact absurd hnode hfree
        | file bytes => simp [FileTree.bytes, hplace, hnode, bind, Except.bind, Except.mapError]
  unfold TextFile.Writer.replace TextFile.Writer.write
  dsimp only
  rw [hmode]
  dsimp only
  rw [hstore]

/-- A text replaces what is at a path, unless that is a directory. -/
theorem TextFile.replace_text {tree : FileTree} {path : Path} {place : Place}
    (hplace : tree.resolve path = .ok place) (hfree : tree.node? place ≠ some .directory)
    (t : Text) :
    TextFile.Writer.replace tree ⟨some path⟩ t =
      (.ok (), tree.insert place (.file (Utf8.encode t)) (tree.node?_resolve hplace) hfree) := by
  rw [TextFile.replace_eq hplace hfree, Utf8.encodeWide_wide, Text.text?_wide]
  rfl

namespace RecordFile

/-! ## The path of a record -/

/-- The name of the file for a code. -/
def fileName (code : Text) : Text :=
  upper code ++ ".json"

theorem slash_not_mem_fileName {code : Text} (hslash : '/' ∉ upper code) :
    '/' ∉ fileName code := by
  simpa [fileName] using hslash

theorem four_lt_length_fileName (code : Text) : 4 < (fileName code).length := by
  rw [fileName, List.length_append]
  exact Nat.lt_add_left _ (by decide)

/-- A code without slashes names one step from the directory. -/
theorem path_eq (directory : Path) {code : Text} (hslash : '/' ∉ upper code) :
    path directory code = ⟨directory.root, directory.steps ++ [fileName code]⟩ := by
  have hname := slash_not_mem_fileName hslash
  have hlength := four_lt_length_fileName code
  have hroot : Path.rootOf (fileName code) = [] := by
    cases hwritten : fileName code with
    | nil => simp [hwritten] at hlength
    | cons c more =>
        have hc : c ≠ '/' := fun heq => hname (by rw [hwritten, heq]; exact List.mem_cons_self)
        simp [Path.rootOf, hc]
  have hstep : (!(fileName code).isEmpty && fileName code ≠ ['.']) = true := by
    cases hwritten : fileName code with
    | nil => simp [hwritten] at hlength
    | cons c more =>
        cases more with
        | nil => simp [hwritten] at hlength
        | cons d more => simp
  have hpath : Path.ofText (fileName code) = ⟨[], [fileName code]⟩ := by
    rw [Path.ofText, hroot, pieces_of_not_mem hname, List.filter_singleton, hstep]
    rfl
  unfold path
  rw [← fileName, hpath]
  rfl

/-- The name of the file is no step back. -/
theorem step_fileName (place : Place) (code : Text) :
    place.step (fileName code) = place ++ [fileName code] := by
  -- the ending alone makes the name longer than two dots
  have hback : fileName code ≠ backStep := by
    intro heq
    have hlength := four_lt_length_fileName code
    rw [heq] at hlength
    exact absurd hlength (by decide)
  rw [Place.step, if_pos hback]

theorem resolve_file {tree : FileTree} {directory : Path} {place : Place}
    (hplace : tree.resolve directory = .ok place) (hdirectory : tree.node? place = some .directory)
    (code : Text) :
    tree.resolve ⟨directory.root, directory.steps ++ [fileName code]⟩ =
      .ok (place ++ [fileName code]) := by
  rw [← step_fileName place code]
  exact FileTree.resolve_concat hplace hdirectory _

/-! ## Saving -/

theorem write_eq {tree : FileTree} {directory : Path} {place : Place} {code : Text}
    (hplace : tree.resolve directory = .ok place) (hdirectory : tree.node? place = some .directory)
    (hslash : '/' ∉ upper code) {file : Place}
    (hfile : tree.resolve (path directory code) = .ok file)
    (hfree : tree.node? file ≠ some .directory) {record : Record} {t : Text}
    (hdocument : record.toJson.document = t) :
    write tree (path directory code) record =
      (.ok (), tree.insert file (.file (Utf8.encode t)) (tree.node?_resolve hfile) hfree) := by
  have hparent : (path directory code).parent = directory := by
    simp [path_eq directory hslash, Path.parent]
  have hwriter : TextFile.Writer.ofPath tree (path directory code) =
      .ok ⟨some (path directory code)⟩ := by
    refine TextFile.ofPath_eq ((FileTree.isDirectory_iff _ _).mpr ⟨place, ?_, hdirectory⟩)
    rw [hparent]
    exact hplace
  unfold write
  rw [hwriter, hdocument]
  exact TextFile.replace_text hfile hfree t

theorem codeOf_eq {record : Record} {code : Text} (hcode : record.countryCode = .str code)
    (hname : code ≠ []) : codeOf record = .ok code := by
  have htruthy : (Json.str code).isTruthy = true := by
    cases code with
    | nil => exact absurd rfl hname
    | cons c more => rfl
  rw [codeOf, hcode, if_pos htruthy]

@[simp]
theorem pathOf_wide (directory : Path) (code : Text) :
    pathOf directory code = .ok (path directory code) := by
  rw [pathOf, Text.text?_wide]

/-- A record is saved under its code in the directory that was made for it, and its document is in
the file. -/
theorem save_eq {tree made : FileTree} {directory : Path} {record : Record} {code : Text}
    (hcode : record.countryCode = .str code) (hname : code ≠ []) (hslash : '/' ∉ upper code)
    (hmade : tree.ensureDirectory directory = (made, none))
    (hfree : made.isDirectory ⟨directory.root, directory.steps ++ [fileName code]⟩ = false)
    {t : Text} (hdocument : record.toJson.document = t) :
    ∃ after,
      save tree directory record =
        (.ok ⟨directory.root, directory.steps ++ [fileName code]⟩, after) ∧
      after.bytes ⟨directory.root, directory.steps ++ [fileName code]⟩ = .ok (Utf8.encode t) := by
  rw [← path_eq directory hslash] at hfree ⊢
  obtain ⟨place, hplace, hdirectory⟩ := (FileTree.isDirectory_iff made directory).mp
    (FileTree.isDirectory_of_ensureDirectory hmade)
  -- the directory is there once it was made, so the file has a place in it
  have hfile : made.resolve (path directory code) = .ok (place ++ [fileName code]) := by
    rw [path_eq directory hslash]
    exact resolve_file hplace hdirectory code
  have hnode : made.node? (place ++ [fileName code]) ≠ some .directory := by
    intro hnode
    rw [(FileTree.isDirectory_iff made _).mpr ⟨_, hfile, hnode⟩] at hfree
    cases hfree
  refine ⟨_, ?_, FileTree.bytes_insert hfile hnode (Utf8.encode t)⟩
  unfold save
  rw [codeOf_eq hcode hname]
  dsimp only
  rw [withDirectory, hmade]
  dsimp only
  rw [pathOf_wide]
  dsimp only
  rw [write_eq hplace hdirectory hslash hfile hnode hdocument]
  rfl

/-! ## Loading -/

/-- A record is loaded from the bytes of its document, however little room there is. -/
theorem load_of_bytes (room : Nat) (now : Timestamp) {tree : FileTree} {path : Path}
    {record : Record} (hrecord : record.WellFormed) {t : Text}
    (hdocument : record.toJson.document = t) (hbytes : tree.bytes path = .ok (Utf8.encode t)) :
    load room now tree path = .ok record.afterReading := by
  obtain ⟨written, hwritten, hreturn, hread⟩ := hrecord.plain.exists_document
  obtain rfl : written = t := Text.wide_inj.mp (hwritten.symm.trans hdocument)
  unfold load
  rw [TextFile.read_of_bytes hbytes hreturn]
  dsimp only [bind, Except.bind]
  unfold ofText
  rw [hread room (Nat.le_add_right 4 room)]
  dsimp only
  rw [Record.ofJson_toJson_of_checked now hrecord.isChecked]
  rfl

/-- A record that is saved in a directory is written to the file named for its code in capitals,
and loading that file gives the record again: its holidays are in the order of their keys, and
its time has the same offset unless that is less than a second and not zero. -/
theorem load_save (now : Timestamp) {tree made : FileTree} {directory : Path} {record : Record}
    {code : Text} (hrecord : record.WellFormed) (hcode : record.countryCode = .str code)
    (hname : code ≠ []) (hslash : '/' ∉ upper code)
    (hmade : tree.ensureDirectory directory = (made, none))
    (hfree : made.isDirectory ⟨directory.root, directory.steps ++ [fileName code]⟩ = false) :
    ∃ after document,
      record.toJson.document = Text.wide document ∧
      save tree directory record =
        (.ok ⟨directory.root, directory.steps ++ [fileName code]⟩, after) ∧
      after.bytes ⟨directory.root, directory.steps ++ [fileName code]⟩ =
        .ok (Utf8.encode document) ∧
      (∀ room, load room now after ⟨directory.root, directory.steps ++ [fileName code]⟩ =
        .ok { record with
          holidays := record.sortedHolidays
          fetchedAt := record.fetchedAt.afterReading }) ∧
      record.sortedHolidays.Perm record.holidays ∧
      (record.sortedHolidays.Pairwise fun a b => WideText.precedes a.1 b.1 = true) ∧
      (record.fetchedAt.afterReading = record.fetchedAt ↔
        ∀ offset, record.fetchedAt.offset = some offset →
          offset.microseconds = 0 ∨ 1000000 ≤ offset.microseconds.natAbs) := by
  obtain ⟨document, hdocument, -⟩ := hrecord.plain.exists_document
  obtain ⟨after, hsave, hbytes⟩ := save_eq hcode hname hslash hmade hfree hdocument
  exact ⟨after, document, hdocument, hsave, hbytes,
    fun room => load_of_bytes room now hrecord hdocument hbytes, record.sortedHolidays_perm,
    Record.sortedHolidays_pairwise hrecord.keys.names, Timestamp.afterReading_eq_self_iff _⟩

/-! ## A record of two holidays -/

/-- The record of a country with a fixed holiday and one based on Easter, made at a time with the
offset. -/
def twoHolidays (code : Text) (offset : Option Offset) : Record :=
  let plain (name : Text) (kind : Record.CalculationKind) : Record.Entry :=
    { name := .str name, kind := kind, category := .str "public", languages := [("en", .str name)]
      month := .null, day := .null, easterOffset := .null, weekdayRule := none
      expression := .null }
  { countryCode := .str code
    name := .str "Utopia"
    subdivisions := [("N", .str "North")]
    categories := [.str "public"]
    languages := [.str "en"]
    holidays := [
      ("new_year", { plain "New \"Year\"" .fixed with month := .int 1, day := .int 1 }),
      ("easter_monday", { plain "Easter Monday" .easterBased with easterOffset := .int 0 })]
    fetchedAt := ⟨⟨2024, 1, 2, by decide⟩, ⟨3, 4, 5, 0, by decide⟩, offset⟩ }

theorem twoHolidays_wellFormed (code : Text) (offset : Option Offset) :
    (twoHolidays code offset).WellFormed where
  countryCode := ⟨_, rfl⟩
  name := ⟨_, rfl⟩
  subdivisions := by
    have hkeys : (Entries.keys [(("N" : Text), ("North" : Text))]).Nodup := List.nodup_singleton _
    exact Json.areTexts_map hkeys
  categories := List.forall_mem_singleton.mpr ⟨"public", rfl⟩
  languages := List.forall_mem_singleton.mpr ⟨"en", rfl⟩
  keys := ⟨by simp [twoHolidays, Entries.keys],
    List.forall_mem_cons.mpr ⟨⟨"new_year", rfl⟩, List.forall_mem_singleton.mpr
      ⟨"easter_monday", rfl⟩⟩⟩
  holidays := by
    have hinteger : ∀ n : Int, (Text.ofNat n.natAbs).length ≤ 4300 → Json.IsInteger (.int n) :=
      fun n hdigits => .inl ⟨n, rfl, hdigits⟩
    intro holiday hholiday
    simp only [twoHolidays, List.mem_cons, List.not_mem_nil, or_false] at hholiday
    rcases hholiday with rfl | rfl
    · exact ⟨⟨_, rfl⟩, ⟨_, rfl⟩, Json.areTexts_english _, .inr (hinteger 1 (by decide)),
        .inr (hinteger 1 (by decide)), .inl rfl, by simp, .inl rfl, fun _ => ⟨by simp, rfl⟩,
        by simp⟩
    · exact ⟨⟨_, rfl⟩, ⟨_, rfl⟩, Json.areTexts_english _, .inl rfl, .inl rfl,
        .inr (hinteger 0 (by decide)), by simp, .inl rfl, by simp, by simp⟩

/-- The path and the tree of a directory with the name `out`. -/
def outDirectory : Path := ⟨[], ["out"]⟩

/-- A tree with that directory alone. -/
def outTree : FileTree := ⟨[(["out"], .directory)], by decide⟩

/-- A record with an offset of five and a half hours is saved in a directory that is not there
yet, and loaded with its two holidays and its time. -/
theorem load_save_twoHolidays :
    ∃ after loaded,
      save FileTree.empty outDirectory (twoHolidays "ut" (some ⟨19800000000, by decide⟩)) =
        (.ok ⟨[], ["out", "UT.json"]⟩, after) ∧
      load Json.usualRoom ⟨⟨2024, 1, 2, by decide⟩, ⟨0, 0, 0, 0, by decide⟩, none⟩ after
        ⟨[], ["out", "UT.json"]⟩ = .ok loaded ∧
      loaded.holidays.Perm (twoHolidays "ut" (some ⟨19800000000, by decide⟩)).holidays ∧
      loaded.fetchedAt = (twoHolidays "ut" (some ⟨19800000000, by decide⟩)).fetchedAt := by
  have hslash : '/' ∉ upper ("ut" : Text) := by decide +kernel
  have hmade : FileTree.empty.ensureDirectory outDirectory = (outTree, none) := by decide +kernel
  have hfree : outTree.isDirectory ⟨outDirectory.root, outDirectory.steps ++ [fileName "ut"]⟩ =
      false := by decide +kernel
  obtain ⟨after, -, -, hsave, -, hload, hperm, -, htime⟩ :=
    load_save ⟨⟨2024, 1, 2, by decide⟩, ⟨0, 0, 0, 0, by decide⟩, none⟩
      (twoHolidays_wellFormed "ut" (some ⟨19800000000, by decide⟩)) rfl (by decide) hslash hmade
      hfree
  have hfile : outDirectory.steps ++ [fileName "ut"] = ["out".toList, "UT.json".toList] := by
    decide +kernel
  rw [hfile] at hsave hload
  refine ⟨after, _, hsave, hload Json.usualRoom, hperm, htime.mpr ?_⟩
  rintro offset hoffset
  obtain rfl := Option.some.inj hoffset
  exact .inr (by decide)

/-- A code with a slash leads to a directory that is not there, a directory can stand in the place
of the file, and an offset of a microsecond does not come back. -/
theorem save_or_load_fails :
    (save outTree outDirectory (twoHolidays "a/b" none)).1.toOption = none ∧
    (save ⟨[(["out"], .directory), (["out", "UT.json"], .directory)], by decide⟩ outDirectory
      (twoHolidays "ut" none)).1.toOption = none ∧
    ∀ now, ∃ path after loaded,
      save outTree outDirectory (twoHolidays "ut" (some ⟨1, by decide⟩)) = (.ok path, after) ∧
      load Json.usualRoom now after path = .ok loaded ∧
      loaded.fetchedAt ≠ (twoHolidays "ut" (some ⟨1, by decide⟩)).fetchedAt := by
  refine ⟨by decide +kernel, by decide +kernel, fun now => ?_⟩
  have hcode : (twoHolidays "ut" (some ⟨1, by decide⟩)).countryCode = .str "ut" := rfl
  have hslash : '/' ∉ upper ("ut" : Text) := by decide +kernel
  have hmade : outTree.ensureDirectory outDirectory = (outTree, none) := by decide +kernel
  have hfree : outTree.isDirectory ⟨outDirectory.root, outDirectory.steps ++ [fileName "ut"]⟩ =
      false := by decide +kernel
  have hrecord := twoHolidays_wellFormed "ut" (some ⟨1, by decide⟩)
  obtain ⟨document, hdocument, -⟩ := hrecord.plain.exists_document
  obtain ⟨after, hsave, hbytes⟩ := save_eq hcode (by decide) hslash hmade hfree hdocument
  exact ⟨_, _, _, hsave, load_of_bytes _ now hrecord hdocument hbytes, by decide +kernel⟩

end RecordFile
end Almanac.Storage
