import Almanac.Source.Literal
import Mathlib.Data.List.Basic

/-!
# Literals in texts

A quote closes a literal unless a backslash stands before it, and a backslash takes any character
along but a line feed. A text without a certain quote that is put behind another one does not change
the literals with that quote: none of them ends in it, and none begins there.
-/

namespace Almanac.Source.Literal

open Almanac.Text

variable {quote : Char} {z : Text}

/-! ## One character of a literal -/

theorem extent?_closing (hquote : quote ≠ '\\') (rest : Text) :
    extent? quote (quote :: rest) = some 1 := by
  simp [extent?, hquote]

theorem extent?_escaped {c : Char} (hc : c ≠ '\n') (rest : Text) :
    extent? quote ('\\' :: c :: rest) = (extent? quote rest).map (· + 2) := by
  simp [extent?, hc]

theorem extent?_plain {c : Char} (hquote : c ≠ quote) (hescape : c ≠ '\\') (rest : Text) :
    extent? quote (c :: rest) = (extent? quote rest).map (· + 1) := by
  rw [extent?]
  · simp [hquote, hescape]
  · rintro d more rfl
    exact absurd rfl hescape

/-- What stands behind the opening quote of a literal, up to the quote that closes it. -/
inductive IsBody (quote : Char) : Text → Prop
  | closing : IsBody quote [quote]
  | escaped {c : Char} {body : Text} (hc : c ≠ '\n') (h : IsBody quote body) :
      IsBody quote ('\\' :: c :: body)
  | plain {c : Char} {body : Text} (hquote : c ≠ quote) (hescape : c ≠ '\\')
      (h : IsBody quote body) : IsBody quote (c :: body)

/-- A literal is the same whatever stands behind it. -/
theorem IsBody.extent? {body : Text} (h : IsBody quote body) (hquote : quote ≠ '\\')
    (rest : Text) : Literal.extent? quote (body ++ rest) = some body.length := by
  induction h with
  | closing => exact extent?_closing hquote rest
  | escaped hc _ ih =>
      rw [List.cons_append, List.cons_append, extent?_escaped hc, ih]
      rfl
  | plain hne hescape _ ih =>
      rw [List.cons_append, extent?_plain hne hescape, ih]
      rfl

/-! ## Texts behind others -/

theorem extent?_of_notMem {t : Text} (ht : quote ∉ t) : extent? quote t = none := by
  fun_induction extent? quote t with
  | case1 => rfl
  | case2 => rfl
  | case3 c rest hc ih =>
      simp only [List.mem_cons, not_or] at ht
      rw [ih ht.2.2]
      rfl
  | case4 rest _ => exact absurd List.mem_cons_self ht
  | case5 => rfl
  | case6 c rest _ _ _ ih =>
      rw [ih fun h => ht (List.mem_cons_of_mem _ h)]
      rfl

theorem extent?_append (hquote : quote ≠ '\\') (hz : quote ∉ z) (t : Text) :
    extent? quote (t ++ z) = extent? quote t := by
  fun_induction extent? quote t with
  | case1 => exact extent?_of_notMem hz
  | case2 rest => simp [extent?]
  | case3 c rest hc ih => rw [List.cons_append, List.cons_append, extent?_escaped hc, ih]
  | case4 rest _ => exact extent?_closing hquote (rest ++ z)
  | case5 rest hlast hne =>
      -- a backslash at the end takes the first character of the further text along
      obtain rfl : rest = [] := by
        cases rest with
        | nil => rfl
        | cons d more => exact absurd rfl (hlast d more rfl)
      cases z with
      | nil => simp [extent?, hne]
      | cons d z =>
          have hrest := extent?_of_notMem (t := z) fun h => hz (List.mem_cons_of_mem _ h)
          simp [extent?, hrest]
  | case6 c rest _ hne hescape ih => rw [List.cons_append, extent?_plain hne hescape, ih]

theorem extent?_le_length {t : Text} {n : Nat} (hn : extent? quote t = some n) :
    1 ≤ n ∧ n ≤ t.length := by
  fun_induction extent? quote t generalizing n with
  | case1 => cases hn
  | case2 => cases hn
  | case3 c rest hc ih =>
      obtain ⟨m, hm, rfl⟩ := Option.map_eq_some_iff.mp hn
      have hbound := ih hm
      simp only [List.length_cons]
      omega
  | case4 rest _ =>
      obtain rfl := Option.some.inj hn
      simp
  | case5 => cases hn
  | case6 c rest _ _ _ ih =>
      obtain ⟨m, hm, rfl⟩ := Option.map_eq_some_iff.mp hn
      have hbound := ih hm
      simp only [List.length_cons]
      omega

theorem read?_append (hquote : quote ≠ '\\') (hz : quote ∉ z) (t : Text) :
    read? quote (t ++ z) = (read? quote t).map fun (body, rest) => (body, rest ++ z) := by
  cases t with
  | nil =>
      cases z with
      | nil => rfl
      | cons c z =>
          have hc : c ≠ quote := fun h => hz (h ▸ List.mem_cons_self)
          simp [read?, hc]
  | cons c t =>
      by_cases hc : c = quote
      · simp only [List.cons_append, read?, hc, if_true, extent?_append hquote hz]
        cases hextent : extent? quote t with
        | none => rfl
        | some n =>
            have hbound := extent?_le_length hextent
            simp only [Option.map_some]
            rw [List.take_append_of_le_length (by omega), List.drop_append_of_le_length hbound.2]
      · simp [read?, hc]

theorem find?_cons_of_none {c : Char} {t : Text} (h : read? quote (c :: t) = none) :
    find? quote (c :: t) = find? quote t := by
  simp only [find?, Text.find?, search, Bool.false_eq_true, if_false, h]

theorem read?_cons_of_ne {c : Char} (hc : c ≠ quote) (t : Text) : read? quote (c :: t) = none :=
  if_neg hc

theorem find?_of_notMem (hz : quote ∉ z) : find? quote z = none := by
  induction z with
  | nil => rfl
  | cons c z ih =>
      simp only [List.mem_cons, not_or] at hz
      rw [find?_cons_of_none (read?_cons_of_ne (Ne.symm hz.1) z), ih hz.2]

/-- The first literal with a quote is looked for behind a text without that quote. -/
theorem find?_append_of_notMem {t : Text} (ht : quote ∉ t) (u : Text) :
    find? quote (t ++ u) = find? quote u := by
  induction t with
  | nil => rfl
  | cons c t ih =>
      simp only [List.mem_cons, not_or] at ht
      rw [List.cons_append, find?_cons_of_none (read?_cons_of_ne (Ne.symm ht.1) _), ih ht.2]

/-- The first literal with a quote is the same with a further text without that quote behind. -/
theorem find?_append (hquote : quote ≠ '\\') (hz : quote ∉ z) (t : Text) :
    find? quote (t ++ z) = (find? quote t).map fun (body, rest) => (body, rest ++ z) := by
  induction t with
  | nil => exact find?_of_notMem hz
  | cons c t ih =>
      have hhere := read?_append hquote hz (c :: t)
      rw [List.cons_append] at hhere ⊢
      cases hread : read? quote (c :: t) with
      | none =>
          rw [hread] at hhere
          rw [find?_cons_of_none hhere, find?_cons_of_none hread, ih]
      | some found =>
          rw [hread] at hhere
          simp [find?, Text.find?, search, hhere, hread]

/-! ## Literals emptied -/

theorem openingExtent?_cons (c : Char) (rest : Text) : openingExtent? (c :: rest) =
    if c = '"' ∨ c = '\'' then extent? c rest else none := rfl

theorem openingExtent?_append (hdouble : '"' ∉ z) (hsingle : '\'' ∉ z) (c : Char) (t : Text) :
    openingExtent? (c :: (t ++ z)) = openingExtent? (c :: t) := by
  rw [openingExtent?_cons, openingExtent?_cons]
  split
  next hc =>
    rcases hc with rfl | rfl
    · exact extent?_append (by decide) hdouble t
    · exact extent?_append (by decide) hsingle t
  next => rfl

theorem openingExtent?_le_length {c : Char} {t : Text} {n : Nat}
    (hn : openingExtent? (c :: t) = some n) : 1 ≤ n ∧ n ≤ t.length := by
  rw [openingExtent?_cons] at hn
  split at hn
  next => exact extent?_le_length hn
  next => cases hn

@[simp] theorem hollow_nil : hollow [] = [] := by
  rw [hollow]

theorem hollow_cons_of_none {c : Char} {t : Text} (h : openingExtent? (c :: t) = none) :
    hollow (c :: t) = c :: hollow t := by
  rw [hollow, h]

theorem hollow_cons_of_some {c : Char} {t : Text} {n : Nat}
    (h : openingExtent? (c :: t) = some n) :
    hollow (c :: t) = '"' :: '"' :: hollow (t.drop n) := by
  rw [hollow, h]

/-- A character of code is kept. -/
theorem hollow_cons_of_notQuote {c : Char} (hdouble : c ≠ '"') (hsingle : c ≠ '\'') (t : Text) :
    hollow (c :: t) = c :: hollow t :=
  hollow_cons_of_none (if_neg (not_or.mpr ⟨hdouble, hsingle⟩))

/-- A literal is emptied, whatever stands behind it. -/
theorem IsBody.hollow {body : Text} (h : IsBody quote body) (hquote : quote = '"' ∨ quote = '\'')
    (rest : Text) :
    Literal.hollow (quote :: (body ++ rest)) = '"' :: '"' :: Literal.hollow rest := by
  have hextent : openingExtent? (quote :: (body ++ rest)) = some body.length := by
    rw [openingExtent?_cons, if_pos hquote]
    exact h.extent? (by rcases hquote with rfl | rfl <;> decide) rest
  rw [hollow_cons_of_some hextent, List.drop_left]

theorem hollow_of_noQuote (hdouble : '"' ∉ z) (hsingle : '\'' ∉ z) : hollow z = z := by
  induction z with
  | nil => simp
  | cons c z ih =>
      simp only [List.mem_cons, not_or] at hdouble hsingle
      rw [hollow_cons_of_notQuote (Ne.symm hdouble.1) (Ne.symm hsingle.1), ih hdouble.2 hsingle.2]

/-- A text without quotes is left as it is, behind any other one. -/
theorem hollow_append (hdouble : '"' ∉ z) (hsingle : '\'' ∉ z) (t : Text) :
    hollow (t ++ z) = hollow t ++ z := by
  fun_induction hollow t with
  | case1 => exact hollow_of_noQuote hdouble hsingle
  | case2 c rest hnone ih =>
      rw [List.cons_append, hollow_cons_of_none (by rwa [openingExtent?_append hdouble hsingle]),
        ih, List.cons_append]
  | case3 c rest n hsome ih =>
      have hbound := openingExtent?_le_length hsome
      rw [List.cons_append, hollow_cons_of_some (by rwa [openingExtent?_append hdouble hsingle]),
        List.drop_append_of_le_length hbound.2, ih, List.cons_append, List.cons_append]

theorem hollow_append_of_noQuote {t : Text} (hdouble : '"' ∉ t) (hsingle : '\'' ∉ t) (u : Text) :
    hollow (t ++ u) = t ++ hollow u := by
  induction t with
  | nil => rfl
  | cons c t ih =>
      simp only [List.mem_cons, not_or] at hdouble hsingle
      rw [List.cons_append, hollow_cons_of_notQuote (Ne.symm hdouble.1) (Ne.symm hsingle.1),
        ih hdouble.2 hsingle.2, List.cons_append]

/-! ## Written literals -/

/-- The body of a literal between the given quotes that spells a text. A quote may have a backslash
before it, which the quotes around the literal and double ones need; a backslash is spelled by
nothing. -/
inductive Spells (quote : Char) : Text → Text → Prop
  | nil : Spells quote [] []
  | plain {c : Char} {t body : Text} (hquote : c ≠ quote) (hdouble : c ≠ '"') (hescape : c ≠ '\\')
      (h : Spells quote t body) : Spells quote (c :: t) (c :: body)
  | escaped {c : Char} {t body : Text} (hc : c = '"' ∨ c = '\'') (h : Spells quote t body) :
      Spells quote (c :: t) ('\\' :: c :: body)

variable {t body : Text}

/-- A spelling with the quote that closes it. -/
theorem Spells.isBody (h : Spells quote t body) : IsBody quote (body ++ [quote]) := by
  induction h with
  | nil => exact .closing
  | plain hne _ hescape _ ih => exact .plain hne hescape ih
  | escaped hc _ ih => exact .escaped (by rcases hc with rfl | rfl <;> decide) ih

theorem Spells.extent? (h : Spells quote t body) (hquote : quote ≠ '\\') (rest : Text) :
    Literal.extent? quote (body ++ quote :: rest) = some (body.length + 1) := by
  simpa using h.isBody.extent? hquote rest

theorem Spells.read? (h : Spells quote t body) (hquote : quote ≠ '\\') (rest : Text) :
    Literal.read? quote (quote :: (body ++ quote :: rest)) = some (body, rest) := by
  simp [Literal.read?, h.extent? hquote rest]

/-- A literal behind a text without its quote is the first one with that quote. -/
theorem Spells.find? (h : Spells quote t body) (hquote : quote ≠ '\\') {opening : Text}
    (hopening : quote ∉ opening) (rest : Text) :
    Literal.find? quote (opening ++ quote :: (body ++ quote :: rest)) = some (body, rest) := by
  rw [find?_append_of_notMem hopening]
  simp [Literal.find?, Text.find?, search, h.read? hquote rest]

/-- No double quote of a body between single quotes opens a literal. -/
theorem Spells.find?_double (h : Spells '\'' t body) {rest : Text} (hrest : '"' ∉ rest) :
    Literal.extent? '"' (body ++ '\'' :: rest) = none ∧
      Literal.find? '"' (body ++ '\'' :: rest) = none := by
  have hend : '"' ∉ '\'' :: rest := by simpa using hrest
  induction h with
  | nil => exact ⟨extent?_of_notMem hend, find?_of_notMem hend⟩
  | plain _ hdouble hescape _ ih =>
      rw [List.cons_append, extent?_plain hdouble hescape, ih.1,
        find?_cons_of_none (read?_cons_of_ne hdouble _)]
      exact ⟨rfl, ih.2⟩
  | @escaped c _ body hc _ ih =>
      have hnone : Literal.read? '"' (c :: (body ++ '\'' :: rest)) = none := by
        rw [Literal.read?, ih.1]
        exact ite_self _
      rw [List.cons_append, List.cons_append,
        extent?_escaped (by rcases hc with rfl | rfl <;> decide), ih.1,
        find?_cons_of_none (read?_cons_of_ne (by decide) _), find?_cons_of_none hnone]
      exact ⟨rfl, ih.2⟩

end Almanac.Source.Literal
