import Almanac.Proofs.Batch.CountryWork
import Almanac.Proofs.Remote.AnswerFaults

/-!
# Batches and ill-shaped answers

A country whose source cannot be had because of the answer of the host is an entry among the
failed ones, and the batch goes on behind it. The answers that escape are those whose content is
told to be in base 64 and is no text, and those that are nested too deep: they end the batch.
-/

namespace Almanac.Batch

open Almanac.Text Almanac.Data Almanac.Remote

/-- What a fetcher asks for comes to a result or to a fault of an answer, just if the request can
be made at all, the answer is not nested too deep and, where a reader looks deeper, it finds texts:
the names of the entries that are listed as files, and the content that is told to be in base 64.
A source that cannot be had is then a failed entry of the batch; otherwise the mishap ends the
batch. -/
theorem answers_contained_iff {fetcher : Fetcher} {host : Host} (h : fetcher.Reaches host) :
    (∀ path, Contained (outcome (fetcher.list path) host) ↔
      fetcher.Obtains host (fetcher.contentsTarget path)) ∧
    (∀ path, Contained (outcome (fetcher.file path) host) ↔
      fetcher.Obtains host (fetcher.contentsTarget path)) ∧
    (Contained (outcome fetcher.login host) ↔ fetcher.Obtains host Fetcher.userTarget) ∧
    (Contained (outcome fetcher.codes host) ↔
      fetcher.Obtains host (fetcher.contentsTarget []) ∧
        ∀ files, outcome (fetcher.list []) host = .ok files → ∀ file ∈ files,
          file.kind.alike (.str "file") = true → ∃ name, file.name = .str name) ∧
    (∀ code, Contained (outcome (fetcher.source code) host) ↔
      ∀ name, Country.sourceFile? code = some name →
        fetcher.Obtains host (fetcher.contentsTarget (fetcher.sourcePath name)) ∧
          ∀ found, outcome (fetcher.file (fetcher.sourcePath name)) host = .ok found →
            found.encoding.alike (.str "base64") = true → ∃ t, found.content = .str t) ∧
    ∀ (plan : Plan) (code : Text) (files : Storage.FileTree) (stop : Stop),
      outcome (fetcher.source code) host = .error stop →
        outcome (Plan.complete { plan with fetcher := fetcher } code) ⟨files, host⟩ =
          match stop with
          | .failure failure => .ok ⟨code, .error failure.message⟩
          | .mishap mishap => .error (.mishap mishap) := by
  refine ⟨fun path => (h.containedIf_list path).contained_iff,
    fun path => (h.containedIf_file path).contained_iff, h.containedIf_login.contained_iff,
    h.containedIf_codes.contained_iff, fun code => (h.containedIf_source code).contained_iff, ?_⟩
  intro plan code files stop hstop
  have hsync : outcome (Plan.sync { plan with fetcher := fetcher } code) ⟨files, host⟩ =
      .error stop := Plan.outcome_sync_of_source_error hstop
  rw [Plan.outcome_complete, hsync]
  rcases h.containedIf_source code with ⟨hcontained, -⟩ | ⟨⟨mishap, hmishap⟩, -⟩
  · cases stop with
    | mishap mishap => rfl
    | failure failure =>
        have hkind : failure.kind.isOfAnswer = true := hcontained _ hstop
        rw [settled, if_pos (Failure.Kind.isFileLevel_of_isOfAnswer hkind)]
        rfl
  · cases hstop.symm.trans hmishap
    rfl

/-- A host that answers a listing and a file, each with a value of another shape within. -/
def oddHost : Host where
  answers := [
    ("/repos/vacanza/holidays/contents/holidays/countries",
      .response 200 "[\x7b\"type\": \"file\", \"name\": 1\x7d]"),
    ("/repos/vacanza/holidays/contents/holidays/countries/united_states.py",
      .response 200 "\x7b\"content\": null, \"encoding\": \"base64\"\x7d"),
    ("/repos/vacanza/holidays/contents/holidays/countries/germany.py",
      .response 200 "[1]")]

theorem oddHost_reached : Fetcher.Reaches {} oddHost where
  sent := rfl
  answered := by
    intro path h
    have hmem := Entries.mem_of_get?_eq_some h
    simp [oddHost] at hmem

/-- A list in place of a file is a message about one country. -/
theorem answers_contained_list :
    Fetcher.Reaches {} oddHost ∧
      outcome (Fetcher.source {} "DE") oddHost = .error (.failure
        ⟨.fetch, "Expected file content for 'holidays/countries/germany.py'", none⟩) ∧
      outcome (Plan.complete { plainPlan with fetcher := {} } "DE") ⟨.empty, oddHost⟩ =
        .ok ⟨"DE", .error "Expected file content for 'holidays/countries/germany.py'"⟩ := by
  have hsource : outcome (Fetcher.source {} "DE") oddHost = .error (.failure
      ⟨.fetch, "Expected file content for 'holidays/countries/germany.py'", none⟩) := by
    decide +kernel
  obtain ⟨-, -, -, -, -, hbatch⟩ := answers_contained_iff oddHost_reached
  exact ⟨oddHost_reached, hsource, hbatch plainPlan "DE" .empty _ hsource⟩

/-- A content that is no text ends the work on its country and the batch in a mishap, although the
next country would only have been an entry among the failed ones; a name that is no text ends the
listing. -/
theorem answers_escape :
    outcome (Fetcher.source {} "US") oddHost = .error (.mishap
      ⟨"TypeError", "expected string or bytes-like object, got 'NoneType'"⟩) ∧
    (outcome (plainPlan.completeAll ["US", "DE"]) ⟨.empty, oddHost⟩).map List.length =
      .error (.mishap ⟨"TypeError", "expected string or bytes-like object, got 'NoneType'"⟩) ∧
    outcome (Fetcher.codes {}) oddHost = .error (.lacking "int" "endswith") := by
  refine ⟨?_, ?_, ?_⟩ <;> decide +kernel

end Almanac.Batch
