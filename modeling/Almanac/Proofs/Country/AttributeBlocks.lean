import Almanac.Proofs.Country.QuotedTexts

/-!
# Attributes around a comment

The bracketed value of an attribute is looked for in the text as it is. A comment stands before the
value, behind it, or in it. In each case the value is the same but for the comment, if the comment
holds no bracket and does not stand within the assignment or above an attribute that is not
indented.
-/

namespace Almanac.Country

open Almanac.Text

/-! ## Brackets -/

/-- How many brackets are open behind the text, of which so many are before it; nothing if the last
one is closed in it. -/
def openBrackets? (depth : Nat) : Text → Option Nat
  | [] => some depth
  | c :: t =>
      if opensBracket c then openBrackets? (depth + 1) t
      else if closesBracket c then if depth ≤ 1 then none else openBrackets? (depth - 1) t
      else openBrackets? depth t

theorem bracketed_append_of_none {depth : Nat} {t : Text} (h : openBrackets? depth t = none)
    (more : Text) : bracketed depth (t ++ more) = bracketed depth t := by
  fun_induction openBrackets? depth t with
  | case1 => cases h
  | case2 depth c t hopens ih => simp [bracketed, hopens, ih h]
  | case3 depth c t hopens hcloses hlast => simp [bracketed, hopens, hcloses, hlast]
  | case4 depth c t hopens hcloses hlast ih => simp [bracketed, hopens, hcloses, hlast, ih h]
  | case5 depth c t hopens hcloses ih => simp [bracketed, hopens, hcloses, ih h]

theorem bracketed_append_of_some {depth left : Nat} {t : Text}
    (h : openBrackets? depth t = some left) (more : Text) :
    bracketed depth (t ++ more) = t ++ bracketed left more := by
  fun_induction openBrackets? depth t with
  | case1 => rw [Option.some.inj h]; rfl
  | case2 depth c t hopens ih => simp [bracketed, hopens, ih h]
  | case3 => cases h
  | case4 depth c t hopens hcloses hlast ih => simp [bracketed, hopens, hcloses, hlast, ih h]
  | case5 depth c t hopens hcloses ih => simp [bracketed, hopens, hcloses, ih h]

theorem openBrackets?_of_plain {t : Text}
    (h : ∀ c ∈ t, opensBracket c = false ∧ closesBracket c = false) (depth : Nat) :
    openBrackets? depth t = some depth := by
  induction t with
  | nil => rfl
  | cons c t ih =>
      obtain ⟨⟨hopens, hcloses⟩, ht⟩ := List.forall_mem_cons.mp h
      simp [openBrackets?, hopens, hcloses, ih ht]

theorem bracketed_prefix (depth : Nat) (t : Text) : bracketed depth t <+: t := by
  fun_induction bracketed depth t with
  | case1 => exact List.prefix_refl []
  | case2 depth c t hopens ih => exact List.cons_prefix_cons.mpr ⟨rfl, ih⟩
  | case3 depth c t hopens hcloses hlast => exact ⟨t, rfl⟩
  | case4 depth c t hopens hcloses hlast ih => exact List.cons_prefix_cons.mpr ⟨rfl, ih⟩
  | case5 depth c t hopens hcloses ih => exact List.cons_prefix_cons.mpr ⟨rfl, ih⟩

/-! ## Assignments -/

/-- The text from the bracket on that an attribute is assigned, if the assignment opens the text. -/
def assigned? (label t : Text) : Option Text :=
  (afterAttribute? label t).bind openBracket?

theorem attributeBlock?_eq (label t : Text) :
    attributeBlock? label t = (findLine? (assigned? label) t).map (bracketed 0) :=
  rfl

/-- A label is a word that the sign of a comment is no part of. -/
def IsLabel (label : Text) : Prop :=
  label ≠ [] ∧ ∀ c ∈ label, isBlank c = false ∧ c ≠ '#'

instance (label : Text) : Decidable (IsLabel label) :=
  haveI := List.decidableBAll (fun c => isBlank c = false ∧ c ≠ '#') label
  inferInstanceAs (Decidable (_ ∧ _))

theorem assigned?_of_blank {label t : Text} (hlabel : IsLabel label)
    (ht : ∀ c ∈ t, isBlank c = true) : assigned? label t = none := by
  obtain ⟨c, rest, rfl⟩ := List.exists_cons_of_ne_nil hlabel.1
  have htake : t.takeWhile isBlank = t := List.takeWhile_eq_self_iff.mpr ht
  have hdrop : t.dropWhile isBlank = [] := List.dropWhile_eq_nil_iff.mpr ht
  cases t with
  | nil => rfl
  | cons d t =>
      simp only [assigned?, afterAttribute?, some?, htake, hdrop, Option.bind_eq_bind,
        Option.bind_some, after?, Option.bind_none]

/-- The text from the bracket on, if the text opens with the label and goes on with an
assignment. -/
def assignedBehind? (label t : Text) : Option Text :=
  (after? label t).bind fun rest => (afterBlank? "=" rest).bind fun rest =>
    openBracket? (stripStart rest)

theorem assigned?_blank_append {label blanks t : Text} (hsome : blanks ≠ [])
    (hblank : ∀ c ∈ blanks, isBlank c = true) (ht : ∀ c ∈ t.head?, isBlank c = false) :
    assigned? label (blanks ++ t) = assignedBehind? label t := by
  simp only [assigned?, afterAttribute?, assignedBehind?, some?_span hsome hblank ht,
    Option.bind_eq_bind, Option.bind_some]
  cases after? label t with
  | none => rfl
  | some rest =>
      simp only [Option.bind_some]
      cases afterBlank? "=" rest <;> rfl

theorem assigned?_of_notBlank {label t : Text} (ht : ∀ c ∈ t.head?, isBlank c = false) :
    assigned? label t = none := by
  cases t with
  | nil => rfl
  | cons c t => simp [assigned?, afterAttribute?, some?, ht c rfl]

/-- The end of the text stands behind no label and no equals sign, white space apart. -/
structure ClosesAssignment (label t : Text) : Prop where
  label : ¬ label <:+ stripEnd t
  sign : ¬ ['='] <:+ stripEnd t

instance (label t : Text) : Decidable (ClosesAssignment label t) :=
  decidable_of_iff (¬ label <:+ stripEnd t ∧ ¬ ['='] <:+ stripEnd t)
    ⟨fun ⟨hlabel, hsign⟩ => ⟨hlabel, hsign⟩, fun ⟨hlabel, hsign⟩ => ⟨hlabel, hsign⟩⟩

section

variable {label before behind : Text}

/-- An assignment is not read across a break. -/
theorem assignedBehind?_append (hlabel : IsLabel label) (hbreak : OpensBreak behind)
    (hcloses : ClosesAssignment label before) {s : Text} (hs : s <:+ before) :
    assignedBehind? label (s ++ behind) = (assignedBehind? label s).map (· ++ behind) := by
  obtain ⟨front, rfl⟩ := hs
  have hforeign : ∀ c ∈ behind.head?, c ∉ label := by
    intro c hc hmem
    rcases hbreak c hc with rfl | rfl
    · exact (hlabel.2 _ hmem).2 rfl
    · exact absurd (hlabel.2 _ hmem).1 (by decide)
  have hsign : ∀ c ∈ behind.head?, c ∉ ("=" : Text) := by
    intro c hc
    rcases hbreak c hc with rfl | rfl <;> decide
  rw [assignedBehind?, assignedBehind?, after?_append hforeign]
  cases hafter : after? label s with
  | none => rfl
  | some rest =>
      obtain rfl := after?_eq_some_iff.mp hafter
      have hrest :=
        exists_notBlank_behind hlabel.1 (fun c hc => (hlabel.2 c hc).1) hcloses.label rfl
      simp only [Option.map_some, Option.bind_some, afterBlank?, stripStart_append_of_mem hrest,
        after?_append hsign]
      cases hequals : after? "=" (stripStart rest) with
      | none => rfl
      | some value =>
          obtain ⟨blanks, -, hblanks⟩ := stripStart_split rest
          have hsplit : front ++ (label ++ rest) =
              (front ++ (label ++ blanks)) ++ (['='] ++ value) := by
            conv_lhs => rw [hblanks, after?_eq_some_iff.mp hequals]
            simp
          have hmark : ∀ c ∈ ['='], isBlank c = false := List.forall_mem_singleton.mpr (by decide)
          have hvalue := exists_notBlank_behind (List.cons_ne_nil _ _) hmark hcloses.sign hsplit
          obtain ⟨c, more, hmore⟩ := List.exists_cons_of_ne_nil (stripStart_ne_nil hvalue)
          simp only [Option.map_some, Option.bind_some, stripStart_append_of_mem hvalue, hmore,
            List.cons_append, openBracket?]
          split <;> rfl

/-- An assignment is not read across a break, unless there is nothing but white space before it. -/
theorem assigned?_append (hlabel : IsLabel label) (hbreak : OpensBreak behind)
    (hcloses : ClosesAssignment label before) {s : Text} (hs : s <:+ before)
    (hsome : ∃ c ∈ s, isBlank c = false) :
    assigned? label (s ++ behind) = (assigned? label s).map (· ++ behind) := by
  obtain ⟨blanks, hblank, hsplit⟩ := stripStart_split s
  have hstart := stripStart_ne_nil hsome
  have hhead : ∀ t, ∀ c ∈ (stripStart s ++ t).head?, isBlank c = false := by
    intro t c hc
    rw [List.head?_append_of_ne_nil _ hstart] at hc
    exact notBlank_of_head?_stripStart s c hc
  have hend : stripStart s <:+ before := (List.dropWhile_suffix _).trans hs
  have hread := assignedBehind?_append hlabel hbreak hcloses hend
  by_cases hnone : blanks = []
  · rw [hnone, List.nil_append] at hsplit
    have hs' := hhead []
    have hsb := hhead behind
    rw [← hsplit] at hs' hsb
    rw [List.append_nil] at hs'
    rw [assigned?_of_notBlank hsb, assigned?_of_notBlank hs']
    rfl
  · have hs' := hhead []
    rw [List.append_nil] at hs'
    rw [hsplit, List.append_assoc, assigned?_blank_append hnone hblank (hhead behind),
      assigned?_blank_append hnone hblank hs', hread]

end

/-! ## Assignments around a comment -/

/-- A comment between the text before it and the end of its line. -/
structure IsComment (comment later : Text) : Prop where
  sign : comment.head? = some '#'
  line : '\n' ∉ comment
  lineEnd : ∀ c ∈ later.head?, c = '\n'

instance (comment later : Text) : Decidable (IsComment comment later) :=
  haveI : Decidable (∀ c ∈ later.head?, c = '\n') := Option.decidableForallMem later.head?
  decidable_of_iff (comment.head? = some '#' ∧ '\n' ∉ comment ∧ ∀ c ∈ later.head?, c = '\n')
    ⟨fun ⟨hsign, hline, hend⟩ => ⟨hsign, hline, hend⟩,
      fun ⟨hsign, hline, hend⟩ => ⟨hsign, hline, hend⟩⟩

namespace IsComment

variable {comment later : Text}

theorem opensBreak_append (h : IsComment comment later) : OpensBreak (comment ++ later) := by
  obtain ⟨rest, rfl⟩ := List.head?_eq_some_iff.mp h.sign
  intro c hc
  exact .inl (Option.some.inj hc).symm

theorem opensBreak (h : IsComment comment later) : OpensBreak later :=
  fun c hc => .inr (h.lineEnd c hc)

end IsComment

section

variable {label before comment later : Text}

/-- White space and a comment behind it open no assignment. -/
theorem assigned?_blank_comment (hlabel : IsLabel label) (h : IsComment comment later) {s : Text}
    (hs : ∀ c ∈ s, isBlank c = true) : assigned? label (s ++ (comment ++ later)) = none := by
  obtain ⟨rest, rfl⟩ := List.head?_eq_some_iff.mp h.sign
  have hhead : ∀ c ∈ ('#' :: rest ++ later).head?, isBlank c = false := by
    intro c hc
    obtain rfl := Option.some.inj hc
    decide
  by_cases hnone : s = []
  · rw [hnone, List.nil_append, assigned?_of_notBlank hhead]
  · obtain ⟨c, more, rfl⟩ := List.exists_cons_of_ne_nil hlabel.1
    have hc : c ≠ '#' := (hlabel.2 c List.mem_cons_self).2
    rw [assigned?_blank_append hnone hs hhead, assignedBehind?, List.cons_append, after?, if_neg hc]
    rfl

/-- Nothing is assigned in white space. -/
theorem search_assigned?_of_blank (hlabel : IsLabel label) {s : Text}
    (hs : ∀ c ∈ s, isBlank c = true) (blocked : Bool) :
    search (· ≠ '\n') (assigned? label) blocked s = none := by
  induction s generalizing blocked with
  | nil => rfl
  | cons c s ih =>
      rw [search_cons_of_none (.inr (assigned?_of_blank hlabel hs))]
      exact ih (List.forall_mem_cons.mp hs).2 _

/-- What is assigned behind a comment, which goes on to the end of its line. -/
def assignedLater? (label later : Text) : Option Text :=
  search (· ≠ '\n') (assigned? label) true later

/-- With a comment, what is assigned is found before the comment or on a later line. -/
theorem findLine?_comment (hlabel : IsLabel label) (h : IsComment comment later)
    (hcloses : ClosesAssignment label before) :
    findLine? (assigned? label) (before ++ (comment ++ later)) =
      ((findLine? (assigned? label) before).map (· ++ (comment ++ later))).or
        (assignedLater? label later) := by
  refine search_append_or (fun blocked => ?_) (fun s hs _ => .inl ?_) false
  · have hnone : assigned? label (comment ++ later) = none :=
      assigned?_blank_comment hlabel h (List.forall_mem_nil _)
    obtain ⟨rest, rfl⟩ := List.head?_eq_some_iff.mp h.sign
    have hrest : ∀ c ∈ rest, decide (c ≠ '\n') = true := by
      intro c hc
      refine decide_eq_true ?_
      rintro rfl
      exact h.line (List.mem_cons_of_mem _ hc)
    rw [List.cons_append] at hnone ⊢
    rw [search_cons_of_none (.inr hnone)]
    exact search_pass hrest later
  · by_cases hblank : ∀ c ∈ s, isBlank c = true
    · rw [assigned?_blank_comment hlabel h hblank, assigned?_of_blank hlabel hblank]
      rfl
    · exact assigned?_append hlabel h.opensBreak_append hcloses hs (by simpa using hblank)

/-- The attribute does not stand at the start of a line right behind. -/
def IsIndented (label later : Text) : Prop :=
  label <+: stripStart later → (later.takeWhile isBlank).getLast? ≠ some '\n'

instance (label later : Text) : Decidable (IsIndented label later) :=
  inferInstanceAs (Decidable (_ → _))

/-- Where a comment was, white space may go on to the next lines, but what is assigned there is
found on its own line as well. -/
theorem assignedLater?_of_blank (hlabel : IsLabel label) (h : IsComment comment later)
    (hindented : IsIndented label later) {s : Text} (hs : ∀ c ∈ s, isBlank c = true) {found : Text}
    (hfound : assigned? label (s ++ later) = some found) :
    assignedLater? label later = some found := by
  cases later with
  | nil => rw [List.append_nil, assigned?_of_blank hlabel hs] at hfound; cases hfound
  | cons c rest =>
      obtain rfl := h.lineEnd c rfl
      have hblank : ∀ c ∈ rest.takeWhile isBlank, isBlank c = true :=
        fun c hc => List.mem_takeWhile_imp hc
      have hrest : rest = rest.takeWhile isBlank ++ stripStart rest :=
        List.takeWhile_append_dropWhile.symm
      have hhead := notBlank_of_head?_stripStart rest
      have hread : assignedBehind? label (stripStart rest) = some found := by
        have hall : ∀ c ∈ s ++ '\n' :: rest.takeWhile isBlank, isBlank c = true :=
          List.forall_mem_append.mpr ⟨hs, List.forall_mem_cons.mpr ⟨by decide, hblank⟩⟩
        rw [← hfound, ← assigned?_blank_append (by simp) hall hhead, List.append_assoc,
          List.cons_append, ← hrest]
      -- the attribute is indented, so there is white space on its own line
      have hindent : rest.takeWhile isBlank ≠ [] := by
        obtain ⟨value, hafter, -⟩ := Option.bind_eq_some_iff.mp hread
        have hopens : label <+: stripStart ('\n' :: rest) :=
          ⟨value, (after?_eq_some_iff.mp hafter).symm⟩
        intro hnone
        refine hindented hopens ?_
        rw [List.takeWhile_cons_of_pos (show isBlank '\n' = true by decide), hnone]
        rfl
      have hown : assigned? label rest = some found := by
        rw [hrest, assigned?_blank_append hindent hblank hhead, hread]
      rw [assignedLater?, search_cons_of_none (.inl rfl)]
      cases rest with
      | nil => exact absurd rfl hindent
      | cons d rest => exact search_cons_of_some hown

/-- Without the comment the same is found, before it or on a later line. -/
theorem findLine?_uncommented (hlabel : IsLabel label) (h : IsComment comment later)
    (hcloses : ClosesAssignment label before) (hindented : IsIndented label later) :
    findLine? (assigned? label) (before ++ later) =
      ((findLine? (assigned? label) before).map (· ++ later)).or (assignedLater? label later) := by
  have hlast : ∀ {s : Text}, (∀ c ∈ s, isBlank c = true) →
      assigned? label (s ++ later) = none ∨
        (assignedLater? label later).isSome = true ∧
          assigned? label (s ++ later) = assignedLater? label later := by
    intro s hs
    cases hfound : assigned? label (s ++ later) with
    | none => exact .inl rfl
    | some found =>
        have hlater := assignedLater?_of_blank hlabel h hindented hs hfound
        exact .inr ⟨by rw [hlater]; rfl, hlater.symm⟩
  refine search_append_or (fun blocked => ?_) (fun s hs _ => ?_) false
  · cases later with
    | nil => rfl
    | cons c rest =>
        rcases hlast (List.forall_mem_nil _) with hnone | ⟨hsome, hsame⟩
        · rw [List.nil_append] at hnone
          rw [assignedLater?, search_cons_of_none (.inr hnone), search_cons_of_none (.inl rfl)]
        · cases blocked with
          | true => rfl
          | false =>
              obtain ⟨found, hfound⟩ := Option.isSome_iff_exists.mp hsome
              rw [List.nil_append, hfound] at hsame
              rw [hfound]
              exact search_cons_of_some hsame
  · by_cases hblank : ∀ c ∈ s, isBlank c = true
    · rcases hlast hblank with hnone | hsame
      · left
        rw [hnone, assigned?_of_blank hlabel hblank]
        rfl
      · exact .inr ⟨search_assigned?_of_blank hlabel hblank, hsame⟩
    · exact .inl (assigned?_append hlabel h.opensBreak hcloses hs (by simpa using hblank))

/-- The bracketed value of an attribute as far as the text goes, if its bracket is open there. -/
def openBlock? (label t : Text) : Option Text :=
  (findLine? (assigned? label) t).filter fun block => (openBrackets? 0 block).isSome

theorem openBracket?_eq_some_iff {t found : Text} : openBracket? t = some found ↔
    t = found ∧ ∃ bracket rest, found = bracket :: rest ∧ opensBracket bracket = true := by
  cases t with
  | nil =>
      refine iff_of_false (Option.some_ne_none found).symm ?_
      rintro ⟨rfl, bracket, rest, hfound, -⟩
      cases hfound
  | cons c t =>
      rw [openBracket?]
      split
      next hc =>
        rw [Option.some_inj]
        exact ⟨fun h => ⟨h, c, t, h.symm, hc⟩, fun h => h.1⟩
      next hc =>
        refine iff_of_false (Option.some_ne_none found).symm ?_
        rintro ⟨rfl, bracket, rest, hfound, hbracket⟩
        obtain ⟨rfl, -⟩ := List.cons.inj hfound
        exact hc hbracket

theorem suffix_of_assigned? {t found : Text} (h : assigned? label t = some found) :
    found <:+ t := by
  obtain ⟨value, hvalue, hbracket⟩ := Option.bind_eq_some_iff.mp h
  obtain ⟨⟨blanks, rest⟩, hblanks, hread⟩ := Option.bind_eq_some_iff.mp hvalue
  obtain ⟨behind, hbehind, hread⟩ := Option.bind_eq_some_iff.mp hread
  obtain ⟨last, hlast, hread⟩ := Option.bind_eq_some_iff.mp hread
  obtain rfl := Option.some.inj hread
  obtain rfl : stripStart last = found := (openBracket?_eq_some_iff.mp hbracket).1
  have hlast' : last <:+ behind :=
    (after?_eq_some_iff.mp hlast ▸ List.suffix_append _ _ : last <:+ stripStart behind).trans
      (List.dropWhile_suffix _)
  have hbehind' : behind <:+ rest := after?_eq_some_iff.mp hbehind ▸ List.suffix_append _ _
  have hrest : rest <:+ t := (some?_spec hblanks).1 ▸ List.suffix_append _ _
  exact (List.dropWhile_suffix _).trans (hlast'.trans (hbehind'.trans hrest))

theorem suffix_of_openBlock? {t block : Text} (h : openBlock? label t = some block) :
    block <:+ t := by
  obtain ⟨hfound, -⟩ := Option.filter_eq_some_iff.mp h
  obtain ⟨front, rest, rfl, -, hassigned⟩ := split_of_search_eq_some hfound
  exact (suffix_of_assigned? hassigned).trans (List.suffix_append _ _)

/-- A comment without brackets is left out of the bracketed value of an attribute, if it is in the
value at all. -/
theorem attributeBlock?_comment (hlabel : IsLabel label) (h : IsComment comment later)
    (hcloses : ClosesAssignment label before) (hindented : IsIndented label later)
    (hplain : (openBlock? label before).isSome = true →
      ∀ c ∈ comment, opensBracket c = false ∧ closesBracket c = false) :
    attributeBlock? label (before ++ (comment ++ later)) = attributeBlock? label (before ++ later) ∨
      ∃ block rest, openBlock? label before = some block ∧ rest <+: later ∧
        attributeBlock? label (before ++ (comment ++ later)) = some (block ++ (comment ++ rest)) ∧
        attributeBlock? label (before ++ later) = some (block ++ rest) := by
  rw [attributeBlock?_eq, attributeBlock?_eq, findLine?_comment hlabel h hcloses,
    findLine?_uncommented hlabel h hcloses hindented]
  cases hfound : findLine? (assigned? label) before with
  | none => exact .inl rfl
  | some block =>
      cases hopen : openBrackets? 0 block with
      | none =>
          left
          simp only [Option.map_some, Option.some_or, bracketed_append_of_none hopen]
      | some left =>
          right
          have hblock : openBlock? label before = some block := by
            rw [openBlock?, hfound, Option.filter_some, hopen]
            rfl
          have hcomment := openBrackets?_of_plain (hplain (by rw [hblock]; rfl)) left
          refine ⟨block, bracketed left later, hblock, bracketed_prefix left later, ?_, ?_⟩
          · simp only [Option.map_some, Option.some_or, bracketed_append_of_some hopen,
              bracketed_append_of_some hcomment]
          · simp only [Option.map_some, Option.some_or, bracketed_append_of_some hopen]

end

end Almanac.Country
