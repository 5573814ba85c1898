import Almanac.Batch.Validation
import Almanac.Proofs.Batch.BatchRuns
import Almanac.Proofs.Record.ProfileRecords
import Almanac.Proofs.Record.UnchangedRecords
import Almanac.Proofs.Remote.AnswerFaults
import Almanac.Proofs.Storage.SavedRecords
import Almanac.Proofs.Text.Stripping

/-!
# Validation of what was just saved

A country whose record was saved is unchanged in the next validation, as long as its source is the
same. The record is named by the code that the source declares, and looked for by the code that is
asked for, so this takes a source that declares no other code than that one.
-/

namespace Almanac.Country

open Almanac.Text

/-! ## Codes in capitals -/

/-- Capitals leave the code of a known country as it is once it is in capitals. -/
theorem upper_upper_of_sourceFile? {code name : Text} (h : sourceFile? code = some name) :
    upper (upper code) = upper code := by
  have htable : ∀ entry ∈ sourceFiles, upper entry.1 = entry.1 := by decide
  obtain ⟨before, after, hsplit, -⟩ := List.lookup_eq_some_iff.mp h
  have hstrip : upper (upper (strip code)) = upper (strip code) :=
    htable (upper (strip code), name) (by rw [hsplit]; simp)
  obtain ⟨front, back, hfront, hback, hcode⟩ := exists_strip_between code
  have hcapitals : upper code = front ++ (upper (strip code) ++ back) := by
    conv_lhs => rw [hcode]
    rw [upper_append, upper_append, upper_blank hfront, upper_blank hback]
  rw [hcapitals, upper_append, upper_append, upper_blank hfront, upper_blank hback, hstrip]

end Almanac.Country

namespace Almanac.Batch

open Almanac.Text Almanac.Data Almanac.Time Almanac.Storage Almanac.Remote

/-! ## The record of a country -/

theorem recordOf_parts (now now' : Timestamp) (code : Text) (profile : Country.Profile) :
    (recordOf now code profile).name = (Record.ofProfile now' profile).name ∧
      (recordOf now code profile).subdivisions = (Record.ofProfile now' profile).subdivisions ∧
      (recordOf now code profile).holidays = (Record.ofProfile now' profile).holidays := by
  unfold recordOf
  dsimp only
  split <;> exact ⟨rfl, rfl, rfl⟩

theorem wellFormed_recordOf {profile : Country.Profile} (h : profile.IsRegular) (now : Timestamp)
    (code : Text) : (recordOf now code profile).WellFormed := by
  have hmade := Record.wellFormed_ofProfile h now
  unfold recordOf
  dsimp only
  split
  next => exact hmade
  next => exact { hmade with countryCode := ⟨upper code, rfl⟩ }

/-- A record that was saved and loaded does not differ from one made later of the same profile. -/
theorem differences_of_sameProfile {profile : Country.Profile} (h : profile.IsRegular)
    (now now' : Timestamp) (code : Text) :
    (recordOf now code profile).afterReading.differences (Record.ofProfile now' profile) = [] := by
  obtain ⟨hname, hsubdivisions, hholidays⟩ := recordOf_parts now now' code profile
  refine Record.differences_eq_nil (Record.wellFormed_ofProfile h now') hname hsubdivisions ?_
  rw [← hholidays]
  exact (recordOf now code profile).sortedHolidays_perm

/-- The code of a record is the one of its profile, or the one that was asked for. -/
theorem codeOf_recordOf {now : Timestamp} {code name : Text} {profile : Country.Profile}
    (h : RecordFile.codeOf (recordOf now code profile) = .ok name) :
    name = profile.code ∨ name = upper code := by
  unfold recordOf at h
  dsimp only at h
  split at h
  next htruthy =>
    rw [RecordFile.codeOf, if_pos htruthy] at h
    exact .inl (Text.wide_inj.mp (Except.ok.inj h)).symm
  next =>
    unfold RecordFile.codeOf at h
    split at h
    next => exact .inr (Text.wide_inj.mp (Except.ok.inj h)).symm
    next => cases h

/-! ## Reading -/

theorem ofText_of_reading {t code : Text} {compared : Bool} {found : Country.Reading}
    (h : reading t code compared = .ok found) :
    Country.Reading.ofText t code (if compared then some Source.TokenRule.all else none) =
      .ok found := by
  unfold reading at h
  cases hread : Country.Reading.ofText t code
      (if compared then some Source.TokenRule.all else none) with
  | error fault => rw [hread] at h; cases h
  | ok read =>
      rw [hread] at h
      rw [Except.ok.inj h]

/-- What is read with a comparison of the strategies is read without one. -/
theorem plain_of_reading {t code : Text} {compared : Bool} {found : Country.Reading}
    (h : reading t code compared = .ok found) :
    ∃ plain, reading t code false = .ok plain ∧ plain.profile = found.profile ∧
      plain.profile.IsRegular ∧ plain.profile.code = Country.Reading.codeOf t code := by
  obtain ⟨plain, hplain, hprofile⟩ : ∃ plain, Country.Reading.ofText t code none = .ok plain ∧
      plain.profile = found.profile := by
    have hread := ofText_of_reading h
    cases compared with
    | false => exact ⟨found, hread, rfl⟩
    | true => exact Country.Reading.exists_plain hread
  obtain ⟨-, -, -, hparts⟩ := Country.Reading.holidays_of_ofText hplain
  refine ⟨plain, ?_, hprofile, Country.Reading.isRegular_of_plain hplain, by rw [hparts]⟩
  have hmode : (if false = true then some Source.TokenRule.all else none) = none := rfl
  rw [reading, hmode, hplain]
  rfl

/-- The code that is read is in capitals the one that was asked for, unless another one is
declared. -/
theorem upper_codeOf {t code name : Text} (hknown : Country.sourceFile? code = some name)
    (hdeclared : ∀ declared, Country.declaredCode? t = some declared →
      upper declared = upper code) : upper (Country.Reading.codeOf t code) = upper code := by
  unfold Country.Reading.codeOf
  cases hfound : Country.declaredCode? t with
  | none => exact Country.upper_upper_of_sourceFile? hknown
  | some declared => exact hdeclared declared hfound

/-- Only a known country has a source. -/
theorem known_of_source {fetcher : Fetcher} {code t : Text} {host : Host}
    (h : outcome (fetcher.source code) host = .ok t) :
    ∃ name, Country.sourceFile? code = some name := by
  rw [Fetcher.outcome_source] at h
  cases hknown : Country.sourceFile? code with
  | none => rw [hknown] at h; cases h
  | some name => exact ⟨name, rfl⟩

/-! ## Saving -/

/-- A country that was worked on has the document of its record at the path that was told. -/
theorem Plan.bytes_of_sync {plan : Plan} {directory : Path}
    (hdirectory : plan.destination = .directory directory) {code : Text} {world : World}
    {synced : Synced} (h : outcome (plan.sync code) world = .ok synced) :
    ∃ t name document, outcome (plan.fetcher.source code) world.host = .ok t ∧
      reading t code plan.compare = .ok synced.reading ∧
      (name = synced.reading.profile.code ∨ name = upper code) ∧
      (recordOf plan.now code synced.reading.profile).toJson.document = Text.wide document ∧
      (after (plan.sync code) world).files.bytes (RecordFile.path directory name) =
        .ok (Utf8.encode document) := by
  obtain ⟨t, hsource, hreading, hrecord, hdeliver, hafter⟩ := plan.sync_ok h
  rw [hdirectory] at hdeliver hafter
  obtain ⟨file, -, hsave⟩ := deliver_directory_ok hdeliver
  obtain ⟨name, document, hname, rfl, hdocument, hbytes⟩ := RecordFile.save_ok (Prod.ext hsave rfl)
  rw [hrecord] at hname hdocument
  refine ⟨t, name, document, hsource, hreading, codeOf_recordOf hname, hdocument, ?_⟩
  rw [hafter, after_deliver_directory]
  exact hbytes

/-! ## Validation -/

namespace Validation

variable {room : Nat} {fetcher : Fetcher} {now : Timestamp} {directory : Path} {code : Text}
  {world : World}

/-- A comparison is made up of the stored record, the source and what is read in it. -/
theorem outcome_compare (room : Nat) (fetcher : Fetcher) (now : Timestamp) (path : Path)
    (code : Text) (world : World) :
    outcome (compare room fetcher now path code) world =
      (RecordFile.load room now world.files path).bind fun stored =>
        (outcome (fetcher.source code) world.host).bind fun t =>
          (reading t code false).map fun found =>
            stored.differences (Record.ofProfile now found.profile) := by
  unfold compare
  rw [outcome_bind, outcome_storing, after_storing]
  congr 1
  funext stored
  rw [outcome_bind, outcome_exchange]
  congr 1
  funext t
  rw [outcome_bind, outcome_ofExcept]
  cases reading t code false <;> rfl

/-- A comparison leaves the files and the answers of the host as they are. -/
theorem after_compare (room : Nat) (fetcher : Fetcher) (now : Timestamp) (path : Path)
    (code : Text) (world : World) :
    (after (compare room fetcher now path code) world).files = world.files ∧
      (after (compare room fetcher now path code) world).host.answers = world.host.answers := by
  let loading : Work Record := storing fun files => (RecordFile.load room now files path, files)
  have hloading : after loading world = world := rfl
  unfold compare
  cases hload : outcome loading world with
  | error stop =>
      rw [after_bind_of_error hload, hloading]
      exact ⟨rfl, rfl⟩
  | ok stored =>
      have hstill : ∀ (t : Text) (state : World),
          after (do
            let found ← MonadExcept.ofExcept (reading t code false)
            return stored.differences (Record.ofProfile now found.profile) : Work _) state =
            state := by
        intro t state
        rw [after_bind_of_still (fun _ _ => rfl), after_ofExcept]
      rw [after_bind_of_ok hload, hloading, after_bind_of_still hstill, after_exchange]
      exact ⟨rfl, Fetcher.answers_after_source fetcher code world.host⟩

/-- A country with a record is compared, and what came of that is added. -/
theorem outcome_extend (validation : Validation)
    (h : world.files.contains (RecordFile.path directory code) = true) :
    outcome (extend room fetcher now directory validation code) world =
      (settled (outcome (compare room fetcher now (RecordFile.path directory code) code) world)).map
        (validation.add code) := by
  unfold extend
  dsimp only
  rw [outcome_bind, outcome_getWorld, after_getWorld, Except.bind, if_pos h, outcome_bind,
    outcome_recorded]
  cases settled
    (outcome (compare room fetcher now (RecordFile.path directory code) code) world) <;> rfl

theorem after_extend (validation : Validation)
    (h : world.files.contains (RecordFile.path directory code) = true) :
    after (extend room fetcher now directory validation code) world =
      after (compare room fetcher now (RecordFile.path directory code) code) world := by
  unfold extend
  dsimp only
  rw [after_bind_of_ok (outcome_getWorld world), after_getWorld, if_pos h,
    after_bind_of_still (fun _ _ => rfl), after_recorded]

/-- There is a record of the country, and it does not differ from one made afresh. -/
structure IsCurrent (room : Nat) (fetcher : Fetcher) (now : Timestamp) (directory : Path)
    (world : World) (code : Text) : Prop where
  stored : world.files.contains (RecordFile.path directory code) = true
  same : outcome (compare room fetcher now (RecordFile.path directory code) code) world = .ok []

/-- Whether a record is current depends on the files and on what the host answers, no matter what
it was asked before. -/
theorem IsCurrent.congr (h : IsCurrent room fetcher now directory world code) {other : World}
    (hfiles : other.files = world.files) (hanswers : other.host.answers = world.host.answers) :
    IsCurrent room fetcher now directory other code := by
  refine ⟨by rw [hfiles]; exact h.stored, ?_⟩
  rw [← h.same, outcome_compare, outcome_compare, hfiles,
    fetcher.outcome_source_congr code hanswers]

/-- One country with a current record is listed as unchanged. -/
theorem outcome_extend_of_current (h : IsCurrent room fetcher now directory world code)
    (validation : Validation) :
    outcome (extend room fetcher now directory validation code) world =
      .ok { validation with unchanged := validation.unchanged ++ [code] } := by
  rw [outcome_extend validation h.stored, h.same]
  rfl

/-- Countries with current records are all listed as unchanged, whatever was reported before. -/
theorem outcome_foldlM_of_current {codes : List Text} (validation : Validation)
    (h : ∀ code ∈ codes, IsCurrent room fetcher now directory world code) :
    outcome (codes.foldlM (extend room fetcher now directory) validation) world =
      .ok { validation with unchanged := validation.unchanged ++ codes } := by
  induction codes generalizing validation world with
  | nil =>
      rw [List.append_nil]
      rfl
  | cons code codes ih =>
      obtain ⟨hfirst, hothers⟩ := List.forall_mem_cons.mp h
      -- the comparison of the first country leaves the others as current as they were
      obtain ⟨hfiles, hanswers⟩ :=
        after_compare room fetcher now (RecordFile.path directory code) code world
      rw [← after_extend validation hfirst.stored] at hfiles hanswers
      have hlater := fun other hother => (hothers other hother).congr hfiles hanswers
      rw [List.foldlM_cons, outcome_bind, outcome_extend_of_current hfirst, Except.bind,
        ih _ hlater]
      simp

end Validation

/-- A country whose record was just saved is current, as long as its source is the same and
declares no other code. -/
theorem Plan.isCurrent_of_sync {plan : Plan} {directory : Path}
    (hdirectory : plan.destination = .directory directory) {code t : Text} {world : World}
    {synced : Synced} (h : outcome (plan.sync code) world = .ok synced)
    (hsource : outcome (plan.fetcher.source code) world.host = .ok t)
    (hdeclared : ∀ declared, Country.declaredCode? t = some declared → upper declared = upper code)
    {fetcher : Fetcher} {host : Host} (hlater : outcome (fetcher.source code) host = .ok t)
    (now : Timestamp) (room : Nat) :
    Validation.IsCurrent room fetcher now directory
      { after (plan.sync code) world with host := host } code := by
  obtain ⟨t', name, document, hsource', hreading, hname, hdocument, hbytes⟩ :=
    plan.bytes_of_sync hdirectory h
  obtain rfl : t = t' := Except.ok.inj (hsource.symm.trans hsource')
  obtain ⟨plain, hplain, hprofile, hregular, hcode⟩ := plain_of_reading hreading
  obtain ⟨file, hknown⟩ := known_of_source hsource
  rw [← hprofile] at hname hdocument
  have hupper : upper name = upper code := by
    rcases hname with rfl | rfl
    · rw [hcode]
      exact upper_codeOf hknown hdeclared
    · exact Country.upper_upper_of_sourceFile? hknown
  have hpath : RecordFile.path directory name = RecordFile.path directory code := by
    rw [RecordFile.path, RecordFile.path, hupper]
  rw [hpath] at hbytes
  refine ⟨FileTree.contains_of_bytes hbytes, ?_⟩
  have hload := RecordFile.load_of_bytes room now (wellFormed_recordOf hregular plan.now code)
    hdocument hbytes
  rw [Validation.outcome_compare, hload, Except.bind, hlater, Except.bind, hplain, Except.map,
    differences_of_sameProfile hregular]

/-- A country that succeeded in a batch of its own, with whatever concurrency, is unchanged in the
next validation, as long as its source is the same and declares no other code than the one that is
asked for. Nothing else is reported. -/
theorem validation_of_synced {plan : Plan} {directory : Path}
    (hdirectory : plan.destination = .directory directory) {code t : Text} {world : World}
    {concurrency : Int} {trace : List (Task × Completion)} {last : Underway} {report : Report}
    (hrun : Underway.Run (slotsOf concurrency) (.start [plan.task code] world) trace last)
    (hdone : last.isDone) (hreport : last.result = .ok report)
    (hsucceeded : code ∈ report.succeeded)
    (hsource : outcome (plan.fetcher.source code) world.host = .ok t)
    (hdeclared : ∀ declared, Country.declaredCode? t = some declared → upper declared = upper code)
    {fetcher : Fetcher} {host : Host} (hlater : outcome (fetcher.source code) host = .ok t)
    (now : Timestamp) (room : Nat) :
    outcome (Validation.ofCodes room fetcher now directory [code])
      { last.world with host := host } = .ok { unchanged := [code] } := by
  have hcodes : [code].map plan.task = [plan.task code] := rfl
  rw [← hcodes] at hrun
  obtain ⟨order, completions, horder, hwork, hworld, rfl⟩ :=
    Plan.completeAll_of_run hrun hdone hreport
  obtain rfl := List.perm_singleton.mp horder
  obtain ⟨completion, rest, rfl, hcomplete, hrest⟩ := mapM_cons_ok hwork
  obtain rfl : [] = rest := Except.ok.inj hrest
  obtain ⟨_, hmem, -, hsucceeds⟩ := Report.mem_succeeded_iff.mp hsucceeded
  obtain rfl := List.mem_singleton.mp hmem
  obtain ⟨path, hsuccess⟩ := Completion.exists_path_of_succeeds hsucceeds
  obtain ⟨synced, hsynced⟩ := Plan.sync_of_success hcomplete hsuccess
  have hafter : after (plan.completeAll [code]) world = after (plan.sync code) world := by
    rw [Plan.completeAll, after_mapM_cons hcomplete, List.mapM_nil, after_pure,
      Plan.after_complete]
  have hcurrent := Plan.isCurrent_of_sync hdirectory hsynced hsource hdeclared hlater now room
  rw [← hworld, hafter]
  apply Validation.outcome_foldlM_of_current
  intro other hother
  rwa [List.mem_singleton.mp hother]

/-! ## Two sources -/

/-- The source of a country that declares the code. -/
def declaringSource (code : Text) : Text :=
  "class A:\n    country = \"" ++ code ++
    "\"\n    self._add_holiday(\"X\", date(year, JAN, 1))\n"

/-- A host that serves one source, which is given in base 64. -/
def servingHost (content : Text) : Host where
  answers := [("/repos/vacanza/holidays/contents/holidays/countries/united_states.py",
    .response 200 ("\x7b\"content\": \"" ++ content ++ "\", \"encoding\": \"base64\"\x7d"))]

/-- The host serves the source that declares the code `US`. -/
def servesUS : Host :=
  servingHost ("Y2xhc3MgQToKICAgIGNvdW50cnkgPSAiVVMiCiAgICBzZWxmLl9hZGRfaG9saWRheSgi" ++
    "WCIsIGRhdGUoeWVhciwgSkFOLCAxKSkK")

/-- The host serves the source that declares the code `DE`, under the name of another country. -/
def servesDE : Host :=
  servingHost ("Y2xhc3MgQToKICAgIGNvdW50cnkgPSAiREUiCiAgICBzZWxmLl9hZGRfaG9saWRheSgi" ++
    "WCIsIGRhdGUoeWVhciwgSkFOLCAxKSkK")

/-- A plan that saves records in the directory with the name `out`. -/
def savingPlan : Plan :=
  { plainPlan with destination := .directory ⟨[], ["out"]⟩ }

/-- Countries that succeed one after another succeed in a batch as well. -/
theorem exists_run_of_succeeded {plan : Plan} {codes names : List Text} {world : World}
    (h : (outcome (plan.completeAll codes) world).map
      (fun completions => (Report.ofCompletions completions).succeeded) = .ok names)
    (concurrency : Int) :
    ∃ trace last report,
      Underway.Run (slotsOf concurrency) (.start (codes.map plan.task) world) trace last ∧
        last.isDone ∧ last.result = .ok report ∧ report.succeeded = names ∧
        last.world = after (plan.completeAll codes) world := by
  cases hwork : outcome (plan.completeAll codes) world with
  | error stop => rw [hwork] at h; cases h
  | ok completions =>
      rw [hwork] at h
      obtain ⟨trace, last, hrun, hdone, hreport, hworld⟩ :=
        Plan.run_completeAll (slotsOf_pos concurrency) hwork
      exact ⟨trace, last, _, hrun, hdone, hreport, Except.ok.inj h, hworld⟩

/-- A country whose source declares its own code is unchanged. -/
theorem validation_of_synced_ownCode :
    ∃ trace last,
      Underway.Run (slotsOf 4) (.start [savingPlan.task "US"] ⟨.empty, servesUS⟩) trace last ∧
        last.isDone ∧
        outcome (Validation.ofCodes Json.usualRoom {} savingPlan.now ⟨[], ["out"]⟩ ["US"])
          { last.world with host := servesUS } = .ok { unchanged := ["US"] } := by
  have hsucceeded : (outcome (savingPlan.completeAll ["US"]) ⟨.empty, servesUS⟩).map
      (fun completions => (Report.ofCompletions completions).succeeded) = .ok ["US".toList] := by
    decide +kernel
  have hsource : outcome (Fetcher.source {} "US") servesUS = .ok (declaringSource "US") := by
    decide +kernel
  have hdeclared : ∀ declared,
      Country.declaredCode? (declaringSource "US") = some declared →
        upper declared = upper "US" := by
    decide +kernel
  obtain ⟨trace, last, report, hrun, hdone, hreport, hnames, -⟩ :=
    exists_run_of_succeeded hsucceeded 4
  refine ⟨trace, last, hrun, hdone, ?_⟩
  have hmem : _ ∈ report.succeeded := hnames ▸ List.mem_singleton_self _
  exact validation_of_synced rfl hrun hdone hreport hmem
    hsource hdeclared hsource savingPlan.now Json.usualRoom

/-- The record of a country whose source declares the code of another one is saved under that code,
so the country is missing in the next validation. -/
theorem validation_misses_otherCode :
    ∃ trace last report,
      Underway.Run (slotsOf 4) (.start [savingPlan.task "US"] ⟨.empty, servesDE⟩) trace last ∧
        last.isDone ∧ last.result = .ok report ∧ report.succeeded = ["US".toList] ∧
        outcome (Fetcher.source {} "US") servesDE = .ok (declaringSource "DE") ∧
        (outcome (Validation.ofCodes Json.usualRoom {} savingPlan.now ⟨[], ["out"]⟩ ["US"])
          { last.world with host := servesDE }).map
            (fun validation => (validation.unchanged, validation.missing)) =
              .ok ([], ["US".toList]) := by
  have hsucceeded : (outcome (savingPlan.completeAll ["US"]) ⟨.empty, servesDE⟩).map
      (fun completions => (Report.ofCompletions completions).succeeded) = .ok ["US".toList] := by
    decide +kernel
  obtain ⟨trace, last, report, hrun, hdone, hreport, hnames, hworld⟩ :=
    exists_run_of_succeeded hsucceeded 4
  refine ⟨trace, last, report, hrun, hdone, hreport, hnames, by decide +kernel, ?_⟩
  rw [hworld]
  decide +kernel

end Almanac.Batch
