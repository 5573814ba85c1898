import Almanac.Proofs.Registration.CallContents
import Almanac.Proofs.Splits

/-!
# Calls line by line

The calls of a file are those that its lines have one by one, each read from its line and the
lines that follow. A line whose call cannot be made sense of takes nothing from the others.
-/

namespace Almanac.Registration

open Almanac.Text

namespace Calls

/-- A call on a line was read at the first site on it. -/
theorem exists_contents_of_atLine {options : Options} {number : Nat} {line : Text}
    {following : List Text} {call : Call}
    (hcall : atLine options number line following = some (.ok call)) :
    ∃ shape site arguments name date, firstSite? options.shapes line = some (shape, site) ∧
      Call.contents shape site.method arguments = .ok (name, date) ∧
      call = ⟨site.method.name, shape, name, date, strip line, number⟩ := by
  unfold atLine at hcall
  split at hcall
  next => cases hcall
  next =>
    obtain ⟨⟨shape, site⟩, hsite, hread⟩ := Option.map_eq_some_iff.mp hcall
    obtain ⟨name, date, hcontents, hmade⟩ := Call.ofSite_eq_ok_iff.mp hread
    exact ⟨shape, site, _, name, date, hsite, hcontents, hmade⟩

theorem line_of_atLine {options : Options} {number : Nat} {line : Text} {following : List Text}
    {call : Call} (hcall : atLine options number line following = some (.ok call)) :
    call.line = number := by
  obtain ⟨shape, site, arguments, name, date, -, -, rfl⟩ := exists_contents_of_atLine hcall
  rfl

/-! ## One line more -/

/-- The calls from a line on: the outcome at the line, and the calls of the lines behind it. -/
def after (number : Nat) : Option (Except ReadFault Call) → Except NumberFault Calls →
    Except NumberFault Calls
  | none, later => later
  | some (.error (.number fault)), _ => .error fault
  | some (.error (.call fault)), later =>
      later.map fun calls => { calls with errors := ⟨number, fault⟩ :: calls.errors }
  | some (.ok call), later =>
      later.map fun calls => { calls with found := call :: calls.found }

theorem ofLines_cons (options : Options) (number : Nat) (line : Text) (rest : List Text) :
    ofLines options number (line :: rest) =
      after number (atLine options number line rest) (ofLines options (number + 1) rest) := by
  rw [ofLines]
  cases atLine options number line rest with
  | none => rfl
  | some outcome =>
      rcases outcome with (fault | fault) | call <;>
        cases ofLines options (number + 1) rest <;> rfl

/-- What the first line of a file can add to the calls of the lines behind it: nothing, an error or
a call. -/
theorem ofLines_cons_ok {options : Options} {number : Nat} {line : Text} {rest : List Text}
    {calls : Calls} (hcalls : ofLines options number (line :: rest) = .ok calls) :
    ∃ later, ofLines options (number + 1) rest = .ok later ∧
      (atLine options number line rest = none ∧ calls = later ∨
        (∃ fault, atLine options number line rest = some (.error (.call fault)) ∧
          calls = { later with errors := ⟨number, fault⟩ :: later.errors }) ∨
        ∃ call, atLine options number line rest = some (.ok call) ∧
          calls = { later with found := call :: later.found }) := by
  rw [ofLines_cons] at hcalls
  cases hline : atLine options number line rest with
  | none =>
      rw [hline] at hcalls
      exact ⟨calls, hcalls, .inl ⟨rfl, rfl⟩⟩
  | some outcome =>
      rw [hline] at hcalls
      cases hrest : ofLines options (number + 1) rest with
      | error fault => rcases outcome with (_ | _) | _ <;> rw [hrest] at hcalls <;> cases hcalls
      | ok later =>
          rw [hrest] at hcalls
          rcases outcome with (fault | fault) | call
          · exact ⟨later, rfl, .inr (.inl ⟨fault, rfl, (Except.ok.inj hcalls).symm⟩)⟩
          · cases hcalls
          · exact ⟨later, rfl, .inr (.inr ⟨call, rfl, (Except.ok.inj hcalls).symm⟩)⟩

/-! ## Outcomes -/

/-- What became of a call on the line with the given number: it was found, or noted with what is
wrong with it. -/
def HasOutcome (calls : Calls) (number : Nat) : Except CallFault Call → Prop
  | .ok call => call ∈ calls.found ∧ call.line = number
  | .error fault => ⟨number, fault⟩ ∈ calls.errors

theorem ok_eq_mapError_call {outcome : Except CallFault Call} {call : Call} :
    .ok call = outcome.mapError ReadFault.call ↔ outcome = .ok call := by
  cases outcome with
  | error fault => exact iff_of_false nofun nofun
  | ok found =>
      change Except.ok call = Except.ok found ↔ _
      rw [Except.ok.injEq, Except.ok.injEq, eq_comm]

theorem error_eq_mapError_call {outcome : Except CallFault Call} {fault : CallFault} :
    .error (.call fault) = outcome.mapError ReadFault.call ↔ outcome = .error fault := by
  cases outcome with
  | error found =>
      change Except.error (ReadFault.call fault) = Except.error (ReadFault.call found) ↔ _
      rw [Except.error.injEq, Except.error.injEq, ReadFault.call.injEq, eq_comm]
  | ok call => exact iff_of_false nofun nofun

/-- One line more adds the outcome at this line. -/
theorem hasOutcome_cons {options : Options} {first : Nat} {line : Text} {rest : List Text}
    {calls : Calls} (hcalls : ofLines options first (line :: rest) = .ok calls) :
    ∃ later, ofLines options (first + 1) rest = .ok later ∧
      ∀ number outcome, calls.HasOutcome number outcome ↔
        (number = first ∧ atLine options first line rest = some (outcome.mapError .call)) ∨
          later.HasOutcome number outcome := by
  obtain ⟨later, hrest, hmore⟩ := ofLines_cons_ok hcalls
  refine ⟨later, hrest, fun number outcome => ?_⟩
  rcases hmore with ⟨hline, rfl⟩ | ⟨fault, hline, rfl⟩ | ⟨call, hline, rfl⟩
  · simp [hline]
  · rw [hline, Option.some_inj, error_eq_mapError_call]
    cases outcome <;> simp [HasOutcome, eq_comm]
  · rw [hline, Option.some_inj, ok_eq_mapError_call]
    cases outcome with
    | error fault => simp [HasOutcome]
    | ok other =>
        have hcall := line_of_atLine hline
        simp only [HasOutcome, List.mem_cons, Except.ok.injEq, or_and_right]
        refine or_congr_left ?_
        constructor
        · rintro ⟨rfl, hnumber⟩
          exact ⟨hnumber.symm.trans hcall, rfl⟩
        · rintro ⟨hnumber, rfl⟩
          exact ⟨rfl, hcall.trans hnumber.symm⟩

/-- The outcomes of a file are those at its lines. -/
theorem hasOutcome_iff {options : Options} {first : Nat} {lines : List Text} {calls : Calls}
    (hcalls : ofLines options first lines = .ok calls) (number : Nat)
    (outcome : Except CallFault Call) :
    calls.HasOutcome number outcome ↔ ∃ before line following,
      lines = before ++ line :: following ∧ number = first + before.length ∧
        atLine options number line following = some (outcome.mapError .call) := by
  induction lines generalizing first calls with
  | nil =>
      obtain rfl : ⟨[], []⟩ = calls := Except.ok.inj hcalls
      cases outcome <;> simp [HasOutcome]
  | cons line rest ih =>
      obtain ⟨later, hlater, hmore⟩ := hasOutcome_cons hcalls
      have hnumber : ∀ before : List Text,
          first + (line :: before).length = first + 1 + before.length := by
        intro before
        rw [List.length_cons]
        omega
      rw [hmore, ih hlater, exists_split_cons_iff, List.length_nil, Nat.add_zero]
      simp only [hnumber]
      refine or_congr_left (and_congr_right ?_)
      rintro rfl
      rfl

/-- The outcome at the line behind the given ones. -/
theorem hasOutcome_at {options : Options} {first : Nat} {before following : List Text} {line : Text}
    {calls : Calls} (hcalls : ofLines options first (before ++ line :: following) = .ok calls)
    (outcome : Except CallFault Call) :
    calls.HasOutcome (first + before.length) outcome ↔
      atLine options (first + before.length) line following = some (outcome.mapError .call) := by
  rw [hasOutcome_iff hcalls]
  constructor
  · rintro ⟨before', line', following', hsplit, hnumber, hline⟩
    obtain ⟨rfl, hrest⟩ := List.append_inj hsplit (by omega)
    obtain ⟨rfl, rfl⟩ := List.cons.inj hrest
    exact hline
  · intro hline
    exact ⟨before, line, following, rfl, rfl, hline⟩

/-- The calls of a file are those of its lines. -/
theorem mem_found_iff {options : Options} {number : Nat} {lines : List Text} {calls : Calls}
    (hcalls : ofLines options number lines = .ok calls) (call : Call) :
    call ∈ calls.found ↔ ∃ before line following, lines = before ++ line :: following ∧
      atLine options (number + before.length) line following = some (.ok call) := by
  have houtcome := hasOutcome_iff hcalls call.line (.ok call)
  rw [HasOutcome, and_iff_left rfl] at houtcome
  rw [houtcome]
  constructor
  · rintro ⟨before, line, following, hsplit, hnumber, hline⟩
    exact ⟨before, line, following, hsplit, hnumber ▸ hline⟩
  · rintro ⟨before, line, following, hsplit, hline⟩
    have hnumber := line_of_atLine hline
    exact ⟨before, line, following, hsplit, hnumber, hnumber ▸ hline⟩

/-- The calls of lines numbered from `number` on carry the numbers of these lines. -/
theorem line_of_mem_ofLines {options : Options} {number : Nat} {lines : List Text} {calls : Calls}
    (hcalls : ofLines options number lines = .ok calls) {call : Call} (hmem : call ∈ calls.found) :
    number ≤ call.line ∧ call.line < number + lines.length := by
  obtain ⟨before, line, following, rfl, hcall⟩ := (mem_found_iff hcalls call).mp hmem
  have hline := line_of_atLine hcall
  rw [List.length_append, List.length_cons]
  omega

end Calls

/-! ## Calls without their sources -/

/-- The call without the text of its line. -/
def Call.withoutSource (call : Call) : Call :=
  { call with source := [] }

/-- The calls without the texts of their lines. -/
def Calls.withoutSources (calls : Calls) : Calls :=
  { calls with found := calls.found.map Call.withoutSource }

@[simp]
theorem ofSite_withoutSource (shape : Shape) (site : Site) (arguments line : Text) (number : Nat) :
    (Call.ofSite shape site arguments line number).map Call.withoutSource =
      (Call.contents shape site.method arguments).map fun (name, date) =>
        ⟨site.method.name, shape, name, date, [], number⟩ := by
  unfold Call.ofSite
  cases Call.contents shape site.method arguments <;> rfl

theorem after_withoutSources (number : Nat) (outcome : Option (Except ReadFault Call))
    (later : Except NumberFault Calls) :
    (Calls.after number outcome later).map Calls.withoutSources =
      Calls.after number (outcome.map (Except.map Call.withoutSource))
        (later.map Calls.withoutSources) := by
  cases outcome with
  | none => rfl
  | some outcome => rcases outcome with (fault | fault) | call <;> cases later <;> rfl

end Almanac.Registration
