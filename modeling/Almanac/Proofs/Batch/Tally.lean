import Almanac.Batch.Report
import Mathlib.Data.List.Induction
import Mathlib.Data.List.Nodup

/-!
# Reports read off completions

A report is made from completions in the order in which they came. It lists every success, in
order and as often as it came, with the path that was written; under a code that failed it keeps
the message of the last failure. If no code comes twice, then every code is either among the
succeeded ones or among the failed ones.
-/

namespace Almanac.Batch

open Almanac.Text Almanac.Data Almanac.Storage

namespace Completion

/-- The message of a failure. -/
def message? (completion : Completion) : Option WideText :=
  match completion.outcome with
  | .error message => some message
  | .ok _ => none

/-- The path of a record that was written. -/
def path? (completion : Completion) : Option Path :=
  match completion.outcome with
  | .error _ => none
  | .ok path => path

def succeeds (completion : Completion) : Bool :=
  completion.message?.isNone

theorem exists_path_of_succeeds {completion : Completion} (h : completion.succeeds = true) :
    ∃ path, completion.outcome = .ok path := by
  obtain ⟨code, outcome⟩ := completion
  cases outcome with
  | error message => cases h
  | ok path => exact ⟨path, rfl⟩

end Completion

namespace Report

@[simp] theorem ofCompletions_concat (completions : List Completion) (last : Completion) :
    ofCompletions (completions ++ [last]) = (ofCompletions completions).add last := by
  simp [ofCompletions]

/-- A failure goes under its code. -/
theorem add_of_message {completion : Completion} {message : WideText}
    (h : completion.message? = some message) (report : Report) :
    report.add completion =
      { report with failed := report.failed.put completion.code message } := by
  obtain ⟨code, outcome⟩ := completion
  cases outcome with
  | error told =>
      obtain rfl := Option.some.inj h
      rfl
  | ok path => cases h

/-- A success goes to the end of the succeeded ones, and its path to the end of the written ones. -/
theorem add_of_success {completion : Completion} (h : completion.message? = none)
    (report : Report) :
    report.add completion =
      { report with
        succeeded := report.succeeded ++ [completion.code]
        written := report.written ++ completion.path?.toList } := by
  obtain ⟨code, outcome⟩ := completion
  cases outcome with
  | error told => cases h
  | ok path => rfl

theorem path?_of_message {completion : Completion} {message : WideText}
    (h : completion.message? = some message) : completion.path? = none := by
  obtain ⟨code, outcome⟩ := completion
  cases outcome with
  | error told => rfl
  | ok path => cases h

/-! ## What the report lists -/

@[simp] theorem succeeded_ofCompletions (completions : List Completion) :
    (ofCompletions completions).succeeded =
      (completions.filter Completion.succeeds).map Completion.code := by
  induction completions using List.reverseRecOn with
  | nil => rfl
  | append_singleton completions last ih =>
      rw [ofCompletions_concat, List.filter_append, List.map_append, ← ih]
      cases h : last.message? with
      | none => simp [add_of_success h, Completion.succeeds, h]
      | some message => simp [add_of_message h, Completion.succeeds, h]

theorem written_ofCompletions (completions : List Completion) :
    (ofCompletions completions).written = completions.filterMap Completion.path? := by
  induction completions using List.reverseRecOn with
  | nil => rfl
  | append_singleton completions last ih =>
      rw [ofCompletions_concat, List.filterMap_append, ← ih]
      cases h : last.message? with
      | none =>
          rw [add_of_success h]
          cases hpath : last.path? <;> simp [hpath]
      | some message => simp [add_of_message h, path?_of_message h]

/-- The messages of the failures under a code, in order. -/
def messagesOf (code : Text) (completions : List Completion) : List WideText :=
  (completions.filter fun completion => completion.code = code).filterMap Completion.message?

/-- Under a code stands the message of its last failure, and nothing if there was none. -/
theorem failed_ofCompletions (completions : List Completion) (code : Text) :
    (ofCompletions completions).failed.get? code = (messagesOf code completions).getLast? := by
  induction completions using List.reverseRecOn with
  | nil => rfl
  | append_singleton completions last ih =>
      unfold messagesOf at ih ⊢
      rw [ofCompletions_concat, List.filter_append, List.filterMap_append]
      cases h : last.message? with
      | none =>
          rw [add_of_success h]
          by_cases hcode : last.code = code <;> simp [h, hcode, ih]
      | some message =>
          rw [add_of_message h]
          by_cases hcode : last.code = code <;> simp [h, hcode, ih]

theorem mem_messagesOf_iff {code : Text} {message : WideText} {completions : List Completion} :
    message ∈ messagesOf code completions ↔
      ∃ completion ∈ completions, completion.code = code ∧
        completion.message? = some message := by
  simp [messagesOf, and_assoc]

/-- The codes that are listed with a message are those with a failure. -/
theorem mem_keys_failed_iff {completions : List Completion} {code : Text} :
    code ∈ (ofCompletions completions).failed.keys ↔
      ∃ completion ∈ completions, completion.code = code ∧ completion.succeeds = false := by
  rw [← not_iff_not, ← Entries.get?_eq_none_iff, failed_ofCompletions, List.getLast?_eq_none_iff,
    List.eq_nil_iff_forall_not_mem, ← not_exists, not_iff_not]
  simp only [mem_messagesOf_iff, Completion.succeeds]
  constructor
  · rintro ⟨message, completion, hmem, hcode, hmessage⟩
    exact ⟨completion, hmem, hcode, by simp [hmessage]⟩
  · rintro ⟨completion, hmem, hcode, hfails⟩
    cases hmessage : completion.message? with
    | none => simp [hmessage] at hfails
    | some message => exact ⟨message, completion, hmem, hcode, hmessage⟩

theorem mem_succeeded_iff {completions : List Completion} {code : Text} :
    code ∈ (ofCompletions completions).succeeded ↔
      ∃ completion ∈ completions, completion.code = code ∧ completion.succeeds = true := by
  rw [succeeded_ofCompletions]
  simp only [List.mem_map, List.mem_filter]
  constructor
  · rintro ⟨completion, ⟨hmem, hsucceeds⟩, hcode⟩
    exact ⟨completion, hmem, hcode, hsucceeds⟩
  · rintro ⟨completion, hmem, hcode, hsucceeds⟩
    exact ⟨completion, ⟨hmem, hsucceeds⟩, hcode⟩

theorem nodup_keys_failed (completions : List Completion) :
    (ofCompletions completions).failed.keys.Nodup := by
  induction completions using List.reverseRecOn with
  | nil => exact List.nodup_nil
  | append_singleton completions last ih =>
      rw [ofCompletions_concat]
      cases h : last.message? with
      | none => rwa [add_of_success h]
      | some message =>
          rw [add_of_message h, Entries.keys_put]
          split
          next => exact ih
          next hnew => exact ih.append (List.nodup_singleton _) (by simpa using hnew)

/-! ## Codes that come once -/

section

variable {completions : List Completion} (hcodes : (completions.map Completion.code).Nodup)

include hcodes

theorem eq_of_code_eq {first second : Completion} (hfirst : first ∈ completions)
    (hsecond : second ∈ completions) (hcode : first.code = second.code) : first = second :=
  List.inj_on_of_nodup_map hcodes hfirst hsecond hcode

/-- Every code is among the succeeded ones or among the failed ones. -/
theorem mem_succeeded_iff_notMem_failed {code : Text}
    (hcode : code ∈ completions.map Completion.code) :
    code ∈ (ofCompletions completions).succeeded ↔
      code ∉ (ofCompletions completions).failed.keys := by
  obtain ⟨completion, hmem, rfl⟩ := List.mem_map.mp hcode
  rw [mem_succeeded_iff, mem_keys_failed_iff]
  constructor
  · rintro ⟨first, hfirst, hfirstCode, hsucceeds⟩ ⟨second, hsecond, hsecondCode, hfails⟩
    rw [eq_of_code_eq hcodes hfirst hsecond (hfirstCode.trans hsecondCode.symm), hfails]
      at hsucceeds
    cases hsucceeds
  · intro hnone
    refine ⟨completion, hmem, rfl, ?_⟩
    rw [← Bool.not_eq_false]
    exact fun hfails => hnone ⟨completion, hmem, rfl, hfails⟩

/-- The two lists together are as long as the batch. -/
theorem total_ofCompletions : (ofCompletions completions).total = completions.length := by
  have hfailed : (ofCompletions completions).failed.keys.Perm
      ((completions.filter fun completion => !completion.succeeds).map Completion.code) := by
    rw [List.perm_ext_iff_of_nodup (nodup_keys_failed completions)
      (hcodes.sublist (List.filter_sublist.map _))]
    intro code
    rw [mem_keys_failed_iff]
    simp only [List.mem_map, List.mem_filter, Bool.not_eq_true']
    constructor
    · rintro ⟨completion, hmem, hcode, hfails⟩
      exact ⟨completion, ⟨hmem, hfails⟩, hcode⟩
    · rintro ⟨completion, ⟨hmem, hfails⟩, hcode⟩
      exact ⟨completion, hmem, hcode, hfails⟩
  have hlength : (ofCompletions completions).failed.length =
      (completions.filter fun completion => !completion.succeeds).length := by
    have h := hfailed.length_eq
    rwa [Entries.keys, List.length_map, List.length_map] at h
  rw [total, succeeded_ofCompletions, List.length_map, hlength]
  exact (List.length_eq_length_filter_add Completion.succeeds).symm

end

end Report
end Almanac.Batch
