import Almanac.Proofs.Outcome
import Almanac.Registration.Call

/-!
# What a call tells

The contents of a call have one equation for each kind of method, and those of a plain method have
one for each way in which its shape tells the date. A call that was read is made of its contents
and of its line.
-/

namespace Almanac.Registration.Call

open Almanac.Text Almanac.Holiday

theorem contents_of_noName (shape : Shape) (full : Text) {arguments : Text}
    (hname : Arguments.name? arguments = none) :
    contents shape (.plain full) arguments = .error (.call .noName) := by
  unfold contents nameAndRest
  rw [hname]
  rfl

/-- A method with the name of a feast tells the date of the feast. -/
theorem contents_feast (shape : Shape) (full : Text) (date : DateExpression) (arguments : Text) :
    contents shape (.feast full date) arguments =
      (nameAndRest arguments).map fun (name, _) => (name, date) := by
  unfold contents
  cases nameAndRest arguments <;> rfl

section Named

variable {arguments name rest : Text} (hname : Arguments.name? arguments = some (name, rest))

include hname

theorem nameAndRest_of_name : nameAndRest arguments = .ok (name, rest) := by
  rw [nameAndRest, hname]

theorem contents_weekdayBased (full : Text) :
    contents .weekdayBased (.plain full) arguments =
      .ok (name, .weekdayBased (Arguments.tail rest)) := by
  unfold contents
  rw [nameAndRest_of_name hname]
  rfl

/-- The distance from Easter Sunday stands behind the name; without a number it is zero. -/
theorem contents_easterBased (full : Text) :
    contents .easterBased (.plain full) arguments =
      match Arguments.findNumber? (Arguments.tail rest) with
      | none => .ok (name, .easterBased 0)
      | some (negative, digits) => (numeric (readNat digits)).map fun n : Nat =>
          (name, .easterBased (if negative then -(n : Int) else n)) := by
  unfold contents
  rw [nameAndRest_of_name hname]
  dsimp only [bind, Except.bind]
  cases Arguments.findNumber? (Arguments.tail rest) with
  | none => rfl
  | some signed =>
      obtain ⟨negative, digits⟩ := signed
      dsimp only
      cases readNat digits <;> rfl

/-- What a date is told as: of an expression that nothing is made of, the text behind the name is
kept. -/
def orTail (rest : Text) : DateExpression → DateExpression
  | .calculated _ => .calculated (Arguments.tail rest)
  | date => date

theorem contents_classified {shape : Shape} (heaster : shape ≠ .easterBased)
    (hweekday : shape ≠ .weekdayBased) (full : Text) :
    contents shape (.plain full) arguments =
      (numeric (DateExpression.classify arguments)).map fun date => (name, orTail rest date) := by
  unfold contents
  rw [nameAndRest_of_name hname]
  dsimp only [bind, Except.bind]
  cases shape with
  | easterBased => exact absurd rfl heaster
  | weekdayBased => exact absurd rfl hweekday
  | generic | dateSuffixed | namedHelper =>
      cases DateExpression.classify arguments with
      | error fault => rfl
      | ok date => cases date <;> rfl

end Named

/-- A call is made of its contents, its method and shape, and its line. -/
theorem ofSite_eq_ok_iff {shape : Shape} {site : Site} {arguments line : Text} {number : Nat}
    {call : Call} : ofSite shape site arguments line number = .ok call ↔
      ∃ name date, contents shape site.method arguments = .ok (name, date) ∧
        call = ⟨site.method.name, shape, name, date, strip line, number⟩ := by
  unfold ofSite
  rw [bind_eq_ok, Prod.exists]
  simp only [pure, Except.pure, Except.ok.injEq, eq_comm (b := call)]

end Almanac.Registration.Call
