import Almanac.Proofs.Batch.CleanValidation
import Almanac.Proofs.Batch.UntouchedFiles
import Almanac.Proofs.Storage.SpoiledFiles

/-!
# What stops a validation

A validation looks at one country after another and records what fails, so that one corrupt record
does not keep it from the others. Two kinds of records do: a spoiled one, with a JSON value that
misses an object, and one that is nested too deep. Besides there are only the stops that come from a
source, such as a cancelled request, and they have nothing to do with what is stored.
-/

namespace Almanac

variable {σ τ α β : Type}

/-- Work on items, each of which leaves alone what the others depend on, is stopped exactly if one
of the items stops it. -/
theorem stops_foldlM_iff {view : σ → τ} {work : β → α → ExceptT Stop (StateM σ) β}
    {stops : α → Prop} {seen : τ} (hkeeps : ∀ value item, Keeps view (work value item))
    (hstops : ∀ value item state, view state = seen →
      ((∃ stop, outcome (work value item) state = .error stop) ↔ stops item))
    {items : List α} {value : β} {state : σ} (hstate : view state = seen) :
    (∃ stop, outcome (items.foldlM work value) state = .error stop) ↔
      ∃ item ∈ items, stops item := by
  induction items generalizing value state with
  | nil =>
      refine iff_of_false ?_ (by simp)
      rintro ⟨stop, h⟩
      cases h
  | cons item items ih =>
      rw [List.foldlM_cons, outcome_bind, List.exists_mem_cons_iff,
        ← hstops value item state hstate]
      cases hitem : outcome (work value item) state with
      | error stop => exact iff_of_true ⟨stop, rfl⟩ (.inl ⟨stop, rfl⟩)
      | ok next =>
          have hafter : view (after (work value item) state) = seen :=
            (hkeeps value item state).trans hstate
          rw [Except.bind, ih hafter]
          simp

namespace Batch

open Almanac.Text Almanac.Data Almanac.Storage Almanac.Time Almanac.Remote

/-- The outcome is none that is recorded, so it stops the work on all countries. -/
def StopsAll (found : Except Stop α) : Prop :=
  ∃ stop, settled found = .error stop

theorem stopsAll_map {found : Except Stop α} (f : α → β) :
    StopsAll (found.map f) ↔ StopsAll found := by
  cases found with
  | ok value => simp [StopsAll, Except.map, settled]
  | error stop =>
      cases stop with
      | mishap mishap => simp [StopsAll, Except.map, settled]
      | failure failure =>
          simp only [StopsAll, Except.map, settled]
          split <;> simp

/-- A failure with a file is recorded. -/
theorem not_stopsAll_of_isReadingFailure {path : Path} {stop : Stop}
    (h : RecordFile.IsReadingFailure path stop) : ¬ StopsAll (.error stop : Except Stop α) := by
  obtain ⟨failure, rfl, hkind⟩ := h
  have hfile : failure.kind.isFileLevel = true := by
    rw [hkind]
    rfl
  rintro ⟨stop, hstop⟩
  rw [settled, if_pos hfile] at hstop
  cases hstop

namespace Validation

variable {room : Nat} {fetcher : Fetcher} {now : Timestamp} {directory : Path}

/-- What the validation of a country depends on: the files, and what the host answers. -/
def seen (world : World) : FileTree × Entries Text Answer :=
  (world.files, world.host.answers)

theorem keeps_extend (validation : Validation) (code : Text) :
    Keeps seen (extend room fetcher now directory validation code) := by
  refine Keeps.get.bind fun world => ?_
  split
  next =>
    refine Keeps.bind ?_ fun _ => .pure _
    intro state
    obtain ⟨hfiles, hanswers⟩ :=
      after_compare room fetcher now (RecordFile.path directory code) code state
    have hafter :=
      after_recorded (compare room fetcher now (RecordFile.path directory code) code) state
    exact (congrArg seen hafter).trans (Prod.ext hfiles hanswers)
  next => exact .pure _

/-- The source of the country stops the work on all countries, when it is fetched or when it is
read. -/
def SourceStops (fetcher : Fetcher) (host : Host) (code : Text) : Prop :=
  StopsAll ((outcome (fetcher.source code) host).bind fun t => reading t code false)

/-- The record of the country is spoiled or nested too deep, or it is sound and the source stops the
work. -/
def CountryStops (room : Nat) (fetcher : Fetcher) (now : Timestamp) (directory : Path)
    (world : World) (code : Text) : Prop :=
  RecordFile.IsSpoiled room world.files (RecordFile.path directory code) ∨
    RecordFile.IsTooDeep room world.files (RecordFile.path directory code) ∨
    (∃ record, RecordFile.load room now world.files (RecordFile.path directory code) = .ok record) ∧
      SourceStops fetcher world.host code

theorem countryStops_congr {world other : World} (h : seen world = seen other) (code : Text) :
    CountryStops room fetcher now directory world code ↔
      CountryStops room fetcher now directory other code := by
  obtain ⟨hfiles, hanswers⟩ := Prod.ext_iff.mp h
  dsimp only [seen] at hfiles hanswers
  rw [CountryStops, CountryStops, SourceStops, SourceStops, hfiles,
    fetcher.outcome_source_congr code hanswers]

/-- There is a record where the validation of a country is stopped. -/
theorem CountryStops.contains {world : World} {code : Text}
    (h : CountryStops room fetcher now directory world code) :
    world.files.contains (RecordFile.path directory code) = true := by
  rcases h with hspoiled | hdeep | ⟨⟨record, hload⟩, -⟩
  · exact hspoiled.contains
  · exact hdeep.contains
  · exact RecordFile.contains_of_load hload

theorem stopsAll_compare_iff (code : Text) (world : World) :
    StopsAll (outcome (compare room fetcher now (RecordFile.path directory code) code) world) ↔
      CountryStops room fetcher now directory world code := by
  rw [outcome_compare, CountryStops]
  generalize hload : RecordFile.load room now world.files (RecordFile.path directory code) = found
  have hloading := hload ▸
    RecordFile.loading room now world.files (RecordFile.path directory code)
  cases hloading with
  | record record hspoiled hdeep =>
      have hcompared : ∀ found : Except Stop Text,
          (found.bind fun t => (reading t code false).map fun read =>
            record.differences (Record.ofProfile now read.profile)) =
          (found.bind fun t => reading t code false).map fun read =>
            record.differences (Record.ofProfile now read.profile) := by
        intro found
        cases found <;> rfl
      rw [Except.bind, hcompared, stopsAll_map]
      simp [hspoiled, hdeep, SourceStops]
  | failure hstop hspoiled hdeep =>
      exact iff_of_false (not_stopsAll_of_isReadingFailure hstop) (by simp [hspoiled, hdeep])
  | lack hmishap hspoiled => exact iff_of_true ⟨_, rfl⟩ (.inl hspoiled)
  | depth hmishap hdeep => exact iff_of_true ⟨_, rfl⟩ (.inr (.inl hdeep))

/-- A country without a record is missing. -/
theorem outcome_extend_of_missing (validation : Validation) {code : Text} {world : World}
    (h : ¬ world.files.contains (RecordFile.path directory code) = true) :
    outcome (extend room fetcher now directory validation code) world =
      .ok { validation with missing := validation.missing ++ [code] } := by
  unfold extend
  dsimp only
  rw [outcome_bind, outcome_getWorld, Except.bind, if_neg h]
  rfl

/-- One country more stops a validation or not, whatever was reported before. -/
theorem extend_stops_iff (validation : Validation) (code : Text) (world : World) :
    (∃ stop, outcome (extend room fetcher now directory validation code) world = .error stop) ↔
      CountryStops room fetcher now directory world code := by
  by_cases hcontains : world.files.contains (RecordFile.path directory code) = true
  · rw [outcome_extend validation hcontains, ← stopsAll_compare_iff, StopsAll]
    cases settled
      (outcome (compare room fetcher now (RecordFile.path directory code) code) world) with
    | error stop => simp [Except.map]
    | ok found => simp [Except.map]
  · rw [outcome_extend_of_missing validation hcontains]
    refine iff_of_false ?_ fun h => hcontains h.contains
    rintro ⟨stop, h⟩
    cases h

/-- Whatever a file holds, loading it as a record gives one or fails with the file, unless the file
is spoiled or nested too deep: then it ends in one of two mishaps, which tells which it is. A
validation is stopped by such records of its countries, and besides by nothing but a source. -/
theorem stopped_by_spoiled_or_source (room : Nat) (fetcher : Fetcher) (now : Timestamp)
    (directory : Path) (codes : List Text) (world : World) :
    (∀ path, (∃ record, RecordFile.load room now world.files path = .ok record) ∨
      (∃ stop, RecordFile.load room now world.files path = .error stop ∧
        RecordFile.IsReadingFailure path stop) ∨
      ∃ mishap, RecordFile.load room now world.files path = .error (.mishap mishap) ∧
        (RecordFile.IsLackMishap mishap ∨ RecordFile.IsDepthMishap mishap)) ∧
    (∀ path, (∃ mishap, RecordFile.IsLackMishap mishap ∧
        RecordFile.load room now world.files path = .error (.mishap mishap)) ↔
      RecordFile.IsSpoiled room world.files path) ∧
    (∀ path, (∃ mishap, RecordFile.IsDepthMishap mishap ∧
        RecordFile.load room now world.files path = .error (.mishap mishap)) ↔
      RecordFile.IsTooDeep room world.files path) ∧
    ((∃ stop, outcome (ofCodes room fetcher now directory codes) world = .error stop) ↔
      ∃ code ∈ codes, CountryStops room fetcher now directory world code) := by
  refine ⟨?_, RecordFile.exists_lackMishap_iff room now world.files,
    RecordFile.exists_depthMishap_iff room now world.files, ?_⟩
  · intro path
    have hloading := RecordFile.loading room now world.files path
    generalize RecordFile.load room now world.files path = found at hloading
    cases hloading with
    | record record => exact .inl ⟨record, rfl⟩
    | failure hstop => exact .inr (.inl ⟨_, rfl, hstop⟩)
    | lack hmishap => exact .inr (.inr ⟨_, rfl, .inl hmishap⟩)
    | depth hmishap => exact .inr (.inr ⟨_, rfl, .inr hmishap⟩)
  · refine stops_foldlM_iff keeps_extend ?_ rfl
    intro validation code state hstate
    rw [extend_stops_iff, countryStops_congr hstate]

/-- A tree with a text in the place of the record of a country. -/
def treeWith (t : Text) : FileTree :=
  FileTree.empty.insert ["US.json"] (.file (Utf8.encode t)) (by decide) (by decide)

theorem read_treeWith {t : Text} (hreturn : '\r' ∉ t) :
    TextFile.read (treeWith t) ⟨[], ["US.json"]⟩ = .ok t :=
  TextFile.read_of_bytes rfl hreturn

/-- An empty list is no record; it ends loading in a mishap, and so the validation. -/
theorem stopped_by_emptyList :
    RecordFile.load Json.usualRoom savingPlan.now (treeWith "[]") ⟨[], ["US.json"]⟩ =
        .error (.lacking "list" "get") ∧
      outcome (ofCodes Json.usualRoom {} savingPlan.now ⟨[], []⟩ ["US", "DE"])
        ⟨treeWith "[]", {}⟩ = .error (.lacking "list" "get") := by
  have hread : TextFile.read (treeWith "[]") ⟨[], ["US.json"]⟩ = .ok "[]" :=
    read_treeWith (by decide)
  have hjson : Json.read Json.usualRoom "[]" = .ok (.arr []) := by cbv
  have hload : RecordFile.load Json.usualRoom savingPlan.now (treeWith "[]") ⟨[], ["US.json"]⟩ =
      .error (.lacking "list" "get") := by
    rw [RecordFile.load_of_read _ _ hread, RecordFile.ofText, hjson]
    rfl
  have hpath : RecordFile.path ⟨[], []⟩ "US" = ⟨[], ["US.json"]⟩ := by decide +kernel
  have hcontains : (treeWith "[]").contains (RecordFile.path ⟨[], []⟩ "US") = true := by
    decide +kernel
  refine ⟨hload, ?_⟩
  rw [ofCodes, List.foldlM_cons, outcome_bind, outcome_extend _ hcontains, outcome_compare, hpath,
    hload]
  rfl

/-- Brackets alone, more of them than can be open at once, end loading in a mishap as well. -/
theorem load_brackets {room n : Nat} (h : Json.levels room < n) (now : Timestamp) :
    ∃ mishap, RecordFile.IsDepthMishap mishap ∧
      RecordFile.load room now (treeWith (List.replicate n '[')) ⟨[], ["US.json"]⟩ =
        .error (.mishap mishap) := by
  refine (RecordFile.exists_depthMishap_iff _ _ _ _).mpr ⟨_, read_treeWith ?_, ?_⟩
  · simp
  · exact Json.isTooDeep_brackets h

end Validation
end Batch
end Almanac
