import Almanac.Proofs.Source.InsertedLines
import Almanac.Proofs.Source.TokenColumns

/-!
# Texts put together

A text that ends in a line feed ends with a whole line, so a text behind it falls into lines as it
does alone, and nothing is carried over from one line to the next: a quote that is open at the end
of a line stays open, and the next line begins anew. The tokens of both texts put together are those
of the first and then those of the second, which stand lower by the lines of the first.
-/

namespace Almanac.Source

open Almanac.Text

theorem TokenStream.ofText_append (rules : List TokenRule) {t : Text}
    (h : t.getLast? = some '\n') (more : Text) :
    ofText rules (t ++ more) =
      (ofText rules t).append ((ofText rules more).moved (· + (lines t).length)) := by
  rw [ofText, ofText, ofText, lines_append h, ofLines_append, ofLines_shift]

namespace Tokenizer

/-- A tokenizer gives the tokens of whole lines and of a text behind them one after the other, the
latter moved down, and its count is that of both. -/
theorem tokenize_append (tokenizer : Tokenizer) {t : Text} (h : t.getLast? = some '\n')
    (more : Text) :
    (tokenizer.tokenize (t ++ more)).1 = (tokenizer.tokenize t).1 ++
        (tokenizer.tokenize more).1.map (Token.moved (· + (lines t).length)) ∧
      (tokenizer.tokenize (t ++ more)).2.skipped =
        (tokenizer.tokenize t).2.skipped + (tokenizer.tokenize more).2.skipped := by
  simp only [tokenize_eq, TokenStream.ofText_append tokenizer.rules h]
  exact ⟨rfl, rfl⟩

/-- A line with an open quote and one that a carriage return ends as well, before lines that end in
other ways. -/
theorem tokenize_append_openQuote :
    ("x = \"1\r\n" : Text).getLast? = some '\n' ∧
      ((⟨TokenRule.all, 5⟩ : Tokenizer).tokenize ("x = \"1\r\n" ++ "\n y\" $\u2028self")).1 =
        [⟨.identifier, "x", 1, 0⟩, ⟨.operator, "=", 1, 2⟩, ⟨.number, "1", 1, 5⟩] ++
          [⟨.indent, " ", 2, 0⟩, ⟨.identifier, "y", 2, 1⟩, ⟨.selfKeyword, "self", 3, 0⟩].map
            (Token.moved (· + 1)) ∧
      ((⟨TokenRule.all, 5⟩ : Tokenizer).tokenize
        ("x = \"1\r\n" ++ "\n y\" $\u2028self")).2.skipped = 1 + 2 := by
  have h : ("x = \"1\r\n" : Text).getLast? = some '\n' := by decide
  obtain ⟨htokens, hskipped⟩ := tokenize_append ⟨TokenRule.all, 5⟩ h "\n y\" $\u2028self"
  have hfirst : (⟨TokenRule.all, 5⟩ : Tokenizer).tokenize "x = \"1\r\n" =
      ([⟨.identifier, "x", 1, 0⟩, ⟨.operator, "=", 1, 2⟩, ⟨.number, "1", 1, 5⟩],
        ⟨TokenRule.all, 1⟩) := by decide +kernel
  have hsecond : (⟨TokenRule.all, 5⟩ : Tokenizer).tokenize "\n y\" $\u2028self" =
      ([⟨.indent, " ", 2, 0⟩, ⟨.identifier, "y", 2, 1⟩, ⟨.selfKeyword, "self", 3, 0⟩],
        ⟨TokenRule.all, 2⟩) := by decide +kernel
  rw [hfirst, hsecond] at htokens hskipped
  exact ⟨h, htokens, hskipped⟩

end Tokenizer
end Almanac.Source
