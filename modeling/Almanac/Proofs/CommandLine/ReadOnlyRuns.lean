import Almanac.CommandLine.Arguments
import Almanac.CommandLine.Program
import Almanac.Proofs.Batch.UntouchedFiles
import Almanac.Proofs.Outcome

/-!
# Runs that only read

A run that lists countries, validates records, compares strategies or is dry leaves files and
directories as they are, unless it saves a token. It may end in any way: with a result, with a
notice, or with a failure that nothing is said about. This is so for all options that a parser of
the arguments may hand over. Where the parser ends the run itself, nothing else is done to files
than what the parser did.
-/

namespace Almanac.CommandLine

open Almanac.Text Almanac.Data Almanac.Time Almanac.Storage Almanac.Remote Almanac.Batch
open Almanac.Console

variable {α : Type}

/-! ## Parts of a run -/

namespace Run

/-- The part of a run leaves files as they are, however it ends. -/
abbrev KeepsFiles (part : Run α) : Prop :=
  Keeps (fun trace : Trace => trace.world.files) part

theorem KeepsFiles.act {work : Work α} (h : Batch.KeepsFiles work) : KeepsFiles (act work) :=
  fun trace => h trace.world

theorem KeepsFiles.look (read : FileTree → Except Stop α) : KeepsFiles (look read) :=
  Keeps.get.bind fun _ => .ofExcept _

theorem KeepsFiles.print (shown : List Text × Option Stop) : KeepsFiles (print shown) := by
  refine Keeps.bind (Keeps.modify fun _ => rfl) fun _ => ?_
  split
  next => exact .throw _
  next => exact .pure _

theorem KeepsFiles.tell (notice : Notice) : KeepsFiles (tell notice) :=
  .print _

theorem KeepsFiles.fail (notice : Notice) : KeepsFiles (fail notice : Run α) :=
  (KeepsFiles.tell notice).bind fun _ => .throw _

theorem KeepsFiles.guarded {part : Run Unit} (h : KeepsFiles part) : KeepsFiles (guarded part) := by
  refine h.tryCatch fun ending => ?_
  split
  next =>
    split
    next => exact KeepsFiles.fail _
    next => exact KeepsFiles.fail _
    next =>
      split
      next => exact KeepsFiles.fail _
      next =>
        split
        next => exact KeepsFiles.fail _
        next => exact .throw _
  next => exact .throw _

end Run

open Run (KeepsFiles)

theorem keepsFiles_knownCodes (countries : List Text) : KeepsFiles (knownCodes countries) := by
  unfold knownCodes
  dsimp only
  split
  next => exact KeepsFiles.fail _
  next => exact .pure _

theorem keepsFiles_fetcherFor (setup : Setup) (options : Options) :
    KeepsFiles (fetcherFor setup options) := by
  unfold fetcherFor
  split
  next =>
    refine (KeepsFiles.look _).bind fun token => ?_
    dsimp only
    split
    next => exact .throw _
    next => exact .pure _
  next =>
    refine (Keeps.pure _).bind fun token => ?_
    dsimp only
    split
    next => exact .throw _
    next => exact .pure _

theorem keepsFiles_codesOrAll (fetcher : Fetcher) (codes : List Text) :
    KeepsFiles (codesOrAll fetcher codes) := by
  unfold codesOrAll
  split
  next => exact .act (.exchange _)
  next => exact .pure _

theorem keepsFiles_list (fetcher : Fetcher) : KeepsFiles (list fetcher) :=
  (KeepsFiles.act (.exchange _)).bind fun _ => KeepsFiles.tell _

theorem keepsFiles_validate (setup : Setup) (fetcher : Fetcher) (codes : List Text)
    (directory : Path) : KeepsFiles (validate setup fetcher codes directory) := by
  refine (KeepsFiles.act (.exchange _)).bind fun login => (KeepsFiles.tell _).bind fun _ =>
    (keepsFiles_codesOrAll fetcher codes).bind fun codes =>
      (KeepsFiles.act (Validation.keepsFiles_ofCodes _ fetcher setup.now directory codes)).bind
        fun found => (KeepsFiles.tell _).bind fun _ => ?_
  split
  next => exact .throw _
  next => exact .pure _

theorem keepsFiles_compareOne (fetcher : Fetcher) (code : Text) :
    KeepsFiles (compareOne fetcher code) := by
  have hreading : Batch.KeepsFiles (do
      let t ← exchange (fetcher.source code)
      MonadExcept.ofExcept (reading t code true)) :=
    (Batch.KeepsFiles.exchange _).bind fun _ => .ofExcept _
  refine (KeepsFiles.act hreading.recorded).bind fun outcome => ?_
  split
  next => exact .pure _
  next =>
    split
    next => exact (KeepsFiles.print _).bind fun _ => .pure _
    next => exact .pure _

/-- The comparison for countries, with a host that answers for each of them in another way. -/
def compareAnswered (fetcher : Fetcher) (countries : List (Text × Host)) :
    Run (List Completion) :=
  countries.mapM fun country => do
    Run.act (answering country.2)
    compareOne fetcher country.1

theorem keepsFiles_compareAnswered (fetcher : Fetcher) (countries : List (Text × Host)) :
    KeepsFiles (compareAnswered fetcher countries) := by
  refine Keeps.mapM (fun country => ?_) countries
  refine (KeepsFiles.act (.answering country.2)).bind fun _ => ?_
  exact keepsFiles_compareOne fetcher country.1

/-- Working on countries leaves files alone if strategies are compared or the run is dry. -/
theorem keepsFiles_work (setup : Setup) {options : Options}
    (hreads : options.has .compare = true ∨ options.has .dryRun = true) (fetcher : Fetcher)
    (codes : List Text) : KeepsFiles (work setup options fetcher codes) := by
  have hreport : ∀ (verb : Text) (completions : List Completion), KeepsFiles (do
      let report := Report.ofCompletions completions
      Run.tell (Notice.report verb report)
      if !report.failed.isEmpty then throw (.exit 1) : Run Unit) := by
    intro verb completions
    refine (KeepsFiles.tell _).bind fun _ => ?_
    split
    next => exact .throw _
    next => exact .pure _
  refine (keepsFiles_codesOrAll fetcher codes).bind fun codes => ?_
  dsimp only
  split
  next => exact (Keeps.mapM (keepsFiles_compareOne fetcher) codes).bind (hreport _)
  next hcompare =>
    have hdry : options.has .dryRun = true := hreads.resolve_left hcompare
    rw [hdry, if_pos rfl]
    exact (KeepsFiles.act (Plan.keepsFiles_completeAll rfl codes)).bind (hreport _)

/-! ## Runs -/

theorem keepsFiles_perform (setup : Setup) {options : Options} (hread : options.OnlyRead) :
    KeepsFiles (perform setup options) := by
  obtain ⟨hreads, hconfigure⟩ := hread
  unfold perform
  rw [hconfigure, if_neg Bool.false_ne_true]
  refine (keepsFiles_knownCodes _).bind fun codes =>
    (keepsFiles_fetcherFor setup options).bind fun fetcher => KeepsFiles.guarded ?_
  split
  next => exact keepsFiles_list fetcher
  next hlist =>
    split
    next => exact keepsFiles_validate setup fetcher codes options.output
    next hvalidate =>
      refine keepsFiles_work setup ?_ fetcher codes
      simpa [Options.readingSwitches, hlist, hvalidate] using hreads

/-- What it takes to leave files and directories as they are. For a run this says so of every table
of answers of the host; for the parts of a run that ask more than once, also of a host that comes to
answer otherwise between any two requests. -/
structure LeavesFiles (parse : Parser) (setup : Setup) (arguments : List Text) (world : World) :
    Prop where
  /-- Behind the parser no file is changed. If it hands over options, it leaves them all alone. -/
  run : (run parse setup arguments world).2.world.files =
    (parse world.files arguments).files world.files
  performing : ∀ options : Options, options.OnlyRead →
    ((perform setup options).run.run { world := world }).2.world.files = world.files
  /-- Countries can be worked on at once; this holds at any moment of that. -/
  parsing : ∀ (fetcher : Fetcher) (codes : List Text) (concurrency : Int) (batch : Underway),
    Underway.Reached (slotsOf concurrency)
      (.start (codes.map (Plan.task { fetcher := fetcher, now := setup.now })) world) batch →
    batch.world.files = world.files
  validating : ∀ (room : Nat) (fetcher : Fetcher) (directory : Path)
    (countries : List (Text × Host)),
    (after (Validation.ofAnswered room fetcher setup.now directory countries) world).files =
      world.files
  comparing : ∀ (fetcher : Fetcher) (countries : List (Text × Host)),
    ((compareAnswered fetcher countries).run.run { world := world }).2.world.files = world.files

theorem files_of_run (parse : Parser) (setup : Setup) (arguments : List Text) (world : World)
    (hread : ∀ options, parse world.files arguments = .options options → options.OnlyRead) :
    (run parse setup arguments world).2.world.files =
      (parse world.files arguments).files world.files := by
  unfold run
  split
  next code files hended =>
    rw [hended]
    rfl
  next options hoptions =>
    rw [hoptions]
    have hperform := keepsFiles_perform setup (hread options hoptions) { world := world }
    split
    next hrun =>
      rw [hrun] at hperform
      exact hperform
    next hrun =>
      rw [hrun] at hperform
      exact hperform

/-- Whatever reads the arguments: if the options that it hands over only ask for reading, the run
leaves all files and directories as they are, however it ends. -/
theorem leavesFiles_of_onlyRead (parse : Parser) (setup : Setup) (arguments : List Text)
    (world : World)
    (hread : ∀ options, parse world.files arguments = .options options → options.OnlyRead) :
    LeavesFiles parse setup arguments world where
  run := files_of_run parse setup arguments world hread
  performing := fun _ honlyRead => keepsFiles_perform setup honlyRead { world := world }
  parsing := fun _ _ _ _ => Underway.files_of_nowhere rfl
  validating := fun room fetcher directory countries =>
    Validation.keepsFiles_ofAnswered room fetcher setup.now directory countries world
  comparing := fun fetcher countries =>
    keepsFiles_compareAnswered fetcher countries { world := world }

/-! ## Written options -/

namespace Arguments

/-- The switches of a run are those that its arguments give. -/
theorem switches_of_parse {tree : FileTree} {arguments : List Text} {options : Options}
    (h : parse tree arguments = .options options) :
    ∃ given, given? arguments = some given ∧ options.switches = switchesOf given := by
  unfold parse at h
  split at h
  next => cases h
  next given hgiven =>
    refine ⟨given, hgiven, ?_⟩
    split at h
    next => cases h
    next =>
      split at h
      next => cases h
      next handed hoptions =>
        obtain rfl := Parsed.options.inj h
        obtain ⟨interval, -, hinterval⟩ := Option.bind_eq_some_iff.mp hoptions
        obtain ⟨timeout, -, htimeout⟩ := Option.bind_eq_some_iff.mp hinterval
        dsimp only at htimeout
        split at htimeout
        next => cases htimeout
        next =>
          obtain rfl := Option.some.inj htimeout
          rfl

/-- The parser of written options looks at files and does not change them. -/
theorem files_parse (tree : FileTree) (arguments : List Text) :
    (parse tree arguments).files tree = tree := by
  unfold parse
  split
  next => rfl
  next =>
    split
    next => rfl
    next => split <;> rfl

/-- Written options only ask for reading if one of the reading switches is among them and no token
is to be saved. -/
theorem onlyRead_of_parse {tree : FileTree} {arguments : List Text} {options : Options}
    (h : parse tree arguments = .options options)
    (hreads : ∀ given, given? arguments = some given →
      (∃ switch ∈ Options.readingSwitches, switch ∈ switchesOf given) ∧
        .configure ∉ switchesOf given) : options.OnlyRead := by
  obtain ⟨given, hgiven, hswitches⟩ := switches_of_parse h
  obtain ⟨⟨switch, hswitch, hmem⟩, hconfigure⟩ := hreads given hgiven
  rw [← hswitches] at hmem hconfigure
  exact ⟨⟨switch, hswitch, decide_eq_true hmem⟩, decide_eq_false hconfigure⟩

end Arguments

/-- Arguments of which two ask for reading, one of them for a dry run. -/
def dryValidation : List Text :=
  ["-C", "US", "--dry-run", "--validate", "-o", "out"]

/-- They make sense where there are no files, and nowhere do they change any. -/
theorem leavesFiles_of_dryValidation :
    (∃ options, Arguments.parse .empty dryValidation = .options options) ∧
      ∀ setup world,
        (run Arguments.parse setup dryValidation world).2.world.files = world.files := by
  have hwords : Arguments.given? dryValidation =
      some [.value .country "US", .switch .dryRun, .switch .validate, .value .output "out"] := by
    decide +kernel
  refine ⟨⟨_, rfl⟩, fun setup world => ?_⟩
  have hread : ∀ options,
      Arguments.parse world.files dryValidation = .options options → options.OnlyRead := by
    intro options hoptions
    refine Arguments.onlyRead_of_parse hoptions fun given hgiven => ?_
    obtain rfl := Option.some.inj (hwords.symm.trans hgiven)
    exact ⟨⟨.dryRun, by decide, by decide⟩, by decide⟩
  rw [(leavesFiles_of_onlyRead Arguments.parse setup dryValidation world hread).run,
    Arguments.files_parse]

end Almanac.CommandLine
