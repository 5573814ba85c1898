import Almanac.Proofs.Source.MovedOutlines
import Almanac.Proofs.Source.TokenLines
import Almanac.Proofs.Text.Stripping
import Almanac.Proofs.Text.TextLines
import Mathlib.Order.Monotone.Basic

/-!
# Inserted lines

Blank lines and lines that hold a comment only give no token. Put between the lines of a file, they
move the tokens behind them down, and tokens of different lines stay on different lines. So the
outline is the one before with its lines moved, wherever such lines are inserted, be it within a
header.
-/

namespace Almanac.Source

open Almanac.Text

/-- The line holds nothing but white space up to a comment or to its end. -/
def IsBareLine (line : Text) : Prop :=
  ∀ c ∈ (line.dropWhile isBlank).head?, c = '#'

instance (line : Text) : Decidable (IsBareLine line) :=
  Option.decidableForallMem (line.dropWhile isBlank).head?

/-- Whole lines of a file, which were there or are inserted. -/
structure Block where
  text : Text
  isInserted : Bool
deriving DecidableEq, Repr

namespace Block

/-- The lines end in a line feed, and inserted ones are blank or hold a comment only. -/
def IsWhole (block : Block) : Prop :=
  block.text.getLast? = some '\n' ∧
    (block.isInserted = true → ∀ line ∈ lines block.text, IsBareLine line)

instance (block : Block) : Decidable block.IsWhole :=
  inferInstanceAs (Decidable (_ ∧ _))

def height (block : Block) : Nat :=
  (lines block.text).length

/-- The text with the inserted lines. -/
def after (blocks : List Block) : Text :=
  blocks.flatMap text

/-- The text without the inserted lines. -/
def before (blocks : List Block) : Text :=
  (blocks.filter (!·.isInserted)).flatMap text

/-- How many lines are inserted before the line with the given number, which counts the lines that
were there. -/
def insertedBefore : List Block → Nat → Nat
  | [], _ => 0
  | block :: rest, number =>
      if block.isInserted then block.height + insertedBefore rest number
      else if number ≤ block.height then 0
      else insertedBefore rest (number - block.height)

/-- Where a line goes that was there. -/
def newLine (blocks : List Block) (number : Nat) : Nat :=
  number + insertedBefore blocks number

theorem insertedBefore_mono (blocks : List Block) : Monotone (insertedBefore blocks) := by
  induction blocks with
  | nil => exact fun _ _ _ => le_rfl
  | cons block rest ih =>
      intro first second hle
      rw [insertedBefore, insertedBefore]
      split
      next => exact Nat.add_le_add_left (ih hle) _
      next =>
        split
        next => exact Nat.zero_le _
        next =>
          rw [if_neg (by omega)]
          exact ih (Nat.sub_le_sub_right hle _)

/-- Different lines go to different lines. -/
theorem newLine_injective (blocks : List Block) : (newLine blocks).Injective := by
  have hstrict : StrictMono (newLine blocks) := fun first second hlt =>
    Nat.add_lt_add_of_lt_of_le hlt (insertedBefore_mono blocks hlt.le)
  exact hstrict.injective

end Block

/-! ## Tokens of moved lines -/

theorem IsBareLine.isIgnorable {line : Text} (h : IsBareLine line) :
    TokenStream.isIgnorable line = true := by
  unfold TokenStream.isIgnorable
  split
  next => rfl
  next c rest hcons =>
    obtain ⟨blanks, -, hsplit⟩ := exists_stripEnd_append (stripStart line)
    have hstart : stripStart line = c :: (rest ++ blanks) := by
      rw [hsplit, show stripEnd (stripStart line) = c :: rest from hcons, List.cons_append]
    exact decide_eq_true (h c (by rw [show line.dropWhile isBlank = _ from hstart]; rfl))

namespace TokenStream

def moved (f : Nat → Nat) (stream : TokenStream) : TokenStream :=
  ⟨stream.tokens.map (Token.moved f), stream.skipped⟩

theorem ofRest_moved (rules : List TokenRule) (f : Nat → Nat) (line column : Nat) (t : Text) :
    ofRest rules (f line) column t = (ofRest rules line column t).moved f := by
  fun_induction ofRest rules line column t with
  | case1 => rw [ofRest]; rfl
  | case2 column c rest hblank ih => rw [ofRest, if_pos hblank, ih]
  | case3 column rest hblank => rw [ofRest, if_neg hblank, if_pos rfl]; rfl
  | case4 column c rest hblank hhash hnone ih =>
      rw [ofRest, if_neg hblank, if_neg hhash, hnone]
      dsimp only
      rw [ih]
      rfl
  | case5 column c rest hblank hhash kind length hfirst ih =>
      rw [ofRest, if_neg hblank, if_neg hhash, hfirst]
      dsimp only
      rw [ih]
      rfl

theorem ofLine_moved (rules : List TokenRule) (f : Nat → Nat) (number : Nat) (line : Text) :
    ofLine rules (f number) line = (ofLine rules number line).moved f := by
  unfold ofLine
  split
  next => rfl
  next =>
    dsimp only
    rw [ofRest_moved]
    split <;> rfl

theorem ofLine_of_isBareLine (rules : List TokenRule) (number : Nat) {line : Text}
    (h : IsBareLine line) : ofLine rules number line = empty :=
  if_pos h.isIgnorable

theorem empty_append (stream : TokenStream) : empty.append stream = stream := by
  rw [append, empty, List.nil_append, Nat.zero_add]

theorem append_assoc (first second third : TokenStream) :
    (first.append second).append third = first.append (second.append third) := by
  rw [append, append, append, append, List.append_assoc, Nat.add_assoc]

@[simp] theorem moved_append (f : Nat → Nat) (first second : TokenStream) :
    (first.append second).moved f = (first.moved f).append (second.moved f) := by
  rw [moved, append, List.map_append]
  rfl

/-- Where only the lines of the tokens count, moving may be done in one way or the other. -/
theorem moved_congr {f g : Nat → Nat} {stream : TokenStream}
    (h : ∀ token ∈ stream.tokens, f token.line = g token.line) :
    stream.moved f = stream.moved g := by
  rw [moved, moved, List.map_congr_left fun token htoken => ?_]
  rw [Token.moved, Token.moved, h token htoken]

theorem ofLines_append (rules : List TokenRule) (number : Nat) (first second : List Text) :
    ofLines rules number (first ++ second) =
      (ofLines rules number first).append (ofLines rules (number + first.length) second) := by
  induction first generalizing number with
  | nil => exact (empty_append _).symm
  | cons line rest ih =>
      rw [List.cons_append, ofLines, ofLines, ih, append_assoc, List.length_cons,
        Nat.add_right_comm, Nat.add_assoc]

theorem ofLines_shift (rules : List TokenRule) (shift number : Nat) (lines : List Text) :
    ofLines rules (number + shift) lines = (ofLines rules number lines).moved (· + shift) := by
  induction lines generalizing number with
  | nil => rfl
  | cons line rest ih =>
      rw [ofLines, ofLines, moved_append, ← ih, ← ofLine_moved, Nat.add_right_comm]

theorem ofLines_of_isBareLine (rules : List TokenRule) (number : Nat) {lines : List Text}
    (h : ∀ line ∈ lines, IsBareLine line) : ofLines rules number lines = empty := by
  induction lines generalizing number with
  | nil => rfl
  | cons line rest ih =>
      obtain ⟨hline, hrest⟩ := List.forall_mem_cons.mp h
      rw [ofLines, ofLine_of_isBareLine rules number hline, ih (number + 1) hrest, empty_append]

end TokenStream

namespace Block

/-- The tokens of the text with the inserted lines are those of the text without, moved to the lines
where their own lines go. The lines are counted behind others, and those above may have been moved
already. -/
theorem ofLines_after (rules : List TokenRule) {blocks : List Block}
    (hwhole : ∀ block ∈ blocks, block.IsWhole) (above shift : Nat) :
    TokenStream.ofLines rules (above + 1 + shift) (lines (after blocks)) =
      (TokenStream.ofLines rules (above + 1) (lines (before blocks))).moved
        fun number => number + shift + insertedBefore blocks (number - above) := by
  induction blocks generalizing above shift with
  | nil => rfl
  | cons block rest ih =>
      obtain ⟨⟨hfeed, hbare⟩, hrest⟩ := List.forall_mem_cons.mp hwhole
      have hafter : lines (after (block :: rest)) = lines block.text ++ lines (after rest) :=
        lines_append hfeed _
      rw [hafter, TokenStream.ofLines_append]
      cases hinserted : block.isInserted with
      | true =>
          have hbefore : before (block :: rest) = before rest := by simp [before, hinserted]
          rw [TokenStream.ofLines_of_isBareLine rules _ (hbare hinserted),
            TokenStream.empty_append, hbefore, Nat.add_assoc, ih hrest]
          refine TokenStream.moved_congr fun token _ => ?_
          rw [insertedBefore, if_pos hinserted, Nat.add_assoc, Nat.add_assoc, Nat.add_assoc]
          rfl
      | false =>
          have hbefore : before (block :: rest) = block.text ++ before rest := by
            simp [before, hinserted]
          have hbehind := ih hrest (above + block.height) shift
          rw [hbefore, lines_append hfeed, TokenStream.ofLines_append, TokenStream.moved_append,
            TokenStream.ofLines_shift]
          congr 1
          · refine TokenStream.moved_congr fun token htoken => ?_
            have hline := TokenStream.line_of_mem_ofLines rules _ _ htoken
            have hwithin : token.line - above ≤ block.height := by
              rw [height]
              omega
            rw [insertedBefore, if_neg (by simp [hinserted]), if_pos hwithin]
            rfl
          · have hnumber : above + 1 + shift + (lines block.text).length =
                above + block.height + 1 + shift := by rw [height]; omega
            rw [hnumber, hbehind, Nat.add_right_comm]
            refine TokenStream.moved_congr fun token htoken => ?_
            have hline := TokenStream.line_of_mem_ofLines rules _ _ htoken
            have hbeyond : ¬ token.line - above ≤ block.height := by omega
            rw [insertedBefore, if_neg (by simp [hinserted]), if_neg hbeyond, Nat.sub_sub]

end Block

/-- Blank lines and lines with a comment only leave the outline of a file as it is but for the
lines, which move by the number of lines that are inserted before them. -/
theorem Outline.ofText_after (rules : List TokenRule) {blocks : List Block}
    (hwhole : ∀ block ∈ blocks, block.IsWhole) :
    Outline.ofText rules (Block.after blocks) =
      (Outline.ofText rules (Block.before blocks)).moved (Block.newLine blocks) := by
  have htokens := congrArg TokenStream.tokens (Block.ofLines_after rules hwhole 0 0)
  rw [ofText, ofText, ← ofTokens_moved (Block.newLine_injective blocks)]
  exact congrArg ofTokens htokens

/-- A class with comments and blank lines above its header and within it. -/
def commentedClass : List Block :=
  [⟨"# feasts\n\n", true⟩, ⟨"class A(\n", false⟩, ⟨"  # the base:\n", true⟩,
    ⟨"    B):\n    def day(self, year):\n", false⟩, ⟨" \t\n", true⟩, ⟨"    def (self):\n", false⟩]

theorem Outline.ofText_after_commentedClass :
    (∀ block ∈ commentedClass, block.IsWhole) ∧
      Outline.ofText TokenRule.all (Block.after commentedClass) =
        (Outline.ofText TokenRule.all (Block.before commentedClass)).moved
          (Block.newLine commentedClass) ∧
      Outline.ofText TokenRule.all (Block.after commentedClass) =
        ⟨[⟨"A", ["B"], [("day", ⟨"day", ["self", "year"], 6⟩)], 3⟩], [⟨8, .noMethodName⟩], []⟩ := by
  have hwhole : ∀ block ∈ commentedClass, block.IsWhole := by decide +kernel
  have hmoved := ofText_after TokenRule.all hwhole
  have hbefore : Outline.ofText TokenRule.all (Block.before commentedClass) =
      ⟨[⟨"A", ["B"], [("day", ⟨"day", ["self", "year"], 3⟩)], 1⟩], [⟨4, .noMethodName⟩], []⟩ := by
    decide +kernel
  refine ⟨hwhole, hmoved, hmoved.trans ?_⟩
  rw [hbefore]
  decide +kernel

end Almanac.Source
