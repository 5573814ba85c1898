import Almanac.Proofs.Country.AttributeBlocks
import Almanac.Proofs.Text.Listings

/-!
# Written attributes

An attribute that is assigned a bracketed listing at the start of a line has this listing as its
value, if no line before assigns it a bracketed value too. The layout is free: white space may stand
between any two pieces. What the listed values hold matters only by its brackets. If they close more
than they open, the value ends among them, and if they open more than they close, the text behind
the listing belongs to the value as well.
-/

namespace Almanac.Country

open Almanac.Text

/-! ## Assignments -/

/-- White space opens the text, then a label and an equals sign, and a value stands behind. -/
structure AssignsAt (label t value : Text) : Prop where
  indented : ∃ c ∈ t.head?, isBlank c = true
  opens : Opens [label, "="] t value

/-- A line of the text assigns a bracketed value. -/
def Assigns (label t : Text) : Prop :=
  ∃ front back value bracket rest, t = front ++ back ∧ OpensLine front ∧
    AssignsAt label back value ∧ opensBracket bracket = true ∧ Opens [[bracket]] value rest

/-- A line of the text assigns a value, and no line before it assigns a bracketed one. -/
def FirstAssignment (label t value : Text) : Prop :=
  ∃ front back, t = front ++ back ∧ OpensLine front ∧ ¬ Assigns label front ∧
    AssignsAt label back value

theorem FirstAssignment.suffix {label t value : Text} (h : FirstAssignment label t value) :
    value <:+ t := by
  obtain ⟨front, back, rfl, -, -, hassigns⟩ := h
  exact hassigns.opens.suffix.trans (List.suffix_append front back)

/-- A class of characters without brackets. -/
theorem class_of_bracket {p : Char → Bool} (hp : ("()[]\x7b\x7d" : Text).any p = false) {c : Char}
    (h : opensBracket c = true ∨ closesBracket c = true) : p c = false := by
  refine Bool.eq_false_iff.mpr (List.any_eq_false.mp hp c ?_)
  simp only [opensBracket, closesBracket, Bool.or_eq_true, decide_eq_true_eq] at h
  rcases h with ((rfl | rfl) | rfl) | ((rfl | rfl) | rfl) <;> decide

theorem plain_of_class {p : Char → Bool} (hp : ("()[]\x7b\x7d" : Text).any p = false) {c : Char}
    (h : p c = true) : opensBracket c = false ∧ closesBracket c = false := by
  rw [← Bool.not_eq_true, ← Bool.not_eq_true]
  exact ⟨fun hopens => by simp [class_of_bracket hp (.inl hopens)] at h,
    fun hcloses => by simp [class_of_bracket hp (.inr hcloses)] at h⟩

theorem isBlank_of_bracket {c : Char} (h : opensBracket c = true ∨ closesBracket c = true) :
    isBlank c = false :=
  class_of_bracket (by decide) h

theorem openBracket?_stripStart_eq_some_iff {t found : Text} :
    openBracket? (stripStart t) = some found ↔
      ∃ bracket rest, found = bracket :: rest ∧ opensBracket bracket = true ∧
        Opens [[bracket]] t rest := by
  have hopens : ∀ {bracket : Char} {rest : Text}, opensBracket bracket = true →
      (Opens [[bracket]] t rest ↔ stripStart t = bracket :: rest) := fun hbracket =>
    (stripStart_eq_append_iff (by simp [beginsSolid, isBlank_of_bracket (.inl hbracket)])).symm
  rw [openBracket?_eq_some_iff]
  constructor
  · rintro ⟨hstart, bracket, rest, rfl, hbracket⟩
    exact ⟨bracket, rest, rfl, hbracket, (hopens hbracket).mpr hstart⟩
  · rintro ⟨bracket, rest, rfl, hbracket, h⟩
    exact ⟨(hopens hbracket).mp h, bracket, rest, rfl, hbracket⟩

theorem assigned?_eq_some_iff {label : Text} (hlabel : IsLabel label) {t found : Text} :
    assigned? label t = some found ↔
      ∃ value, AssignsAt label t value ∧ openBracket? (stripStart value) = some found := by
  have hsolid : beginsSolid label = true :=
    beginsSolid_of_forall hlabel.1 fun c hc => (hlabel.2 c hc).1
  have hbehind : assignedBehind? label (stripStart t) = some found ↔
      ∃ value, Opens [label, "="] t value ∧ openBracket? (stripStart value) = some found := by
    rw [assignedBehind?, Option.bind_eq_some_iff]
    simp only [Option.bind_eq_some_iff, after?_eq_some_iff, stripStart_eq_append_iff hsolid,
      afterBlank?_eq_some_iff (show beginsSolid "=" = true by decide)]
    constructor
    · rintro ⟨rest, hrest, value, hvalue, hfound⟩
      exact ⟨value, opens_cons_iff.mpr ⟨rest, hrest, hvalue⟩, hfound⟩
    · rintro ⟨value, hvalue, hfound⟩
      obtain ⟨rest, hrest, hvalue⟩ := opens_cons_iff.mp hvalue
      exact ⟨rest, hrest, value, hvalue, hfound⟩
  obtain ⟨blanks, hblanks, hsplit⟩ := stripStart_split t
  cases blanks with
  | nil =>
      rw [List.nil_append] at hsplit
      have hhead : ∀ c ∈ t.head?, isBlank c = false := by
        rw [hsplit]
        exact notBlank_of_head?_stripStart t
      rw [assigned?_of_notBlank hhead]
      refine iff_of_false (fun h => Option.some_ne_none found h.symm) ?_
      rintro ⟨value, ⟨⟨c, hc, hblank⟩, -⟩, -⟩
      rw [hhead c hc] at hblank
      cases hblank
  | cons c blanks =>
      have hindented : ∃ d ∈ t.head?, isBlank d = true := by
        rw [hsplit]
        exact ⟨c, rfl, hblanks c List.mem_cons_self⟩
      have hread : assigned? label t = assignedBehind? label (stripStart t) := by
        conv_lhs => rw [hsplit]
        exact assigned?_blank_append (List.cons_ne_nil _ _) hblanks (notBlank_of_head?_stripStart t)
      rw [hread, hbehind]
      exact exists_congr fun value => and_congr_left fun _ =>
        ⟨fun h => ⟨hindented, h⟩, fun h => h.opens⟩

/-- A bracketed value is assigned if a search finds it. -/
theorem assigns_iff {label : Text} (hlabel : IsLabel label) {t : Text} :
    Assigns label t ↔ (findLine? (assigned? label) t).isSome = true := by
  have hnil : assigned? label [] = none := rfl
  rw [isSome_findLine?_iff hnil]
  constructor
  · rintro ⟨front, back, value, bracket, rest, rfl, hline, hassigns, hbracket, hopens⟩
    refine ⟨front, back, rfl, hline, Option.isSome_iff_exists.mpr ⟨bracket :: rest, ?_⟩⟩
    exact (assigned?_eq_some_iff hlabel).mpr ⟨value, hassigns,
      openBracket?_stripStart_eq_some_iff.mpr ⟨bracket, rest, rfl, hbracket, hopens⟩⟩
  · rintro ⟨front, back, rfl, hline, hsome⟩
    obtain ⟨found, hfound⟩ := Option.isSome_iff_exists.mp hsome
    obtain ⟨value, hassigns, hopen⟩ := (assigned?_eq_some_iff hlabel).mp hfound
    obtain ⟨bracket, rest, -, hbracket, hopens⟩ := openBracket?_stripStart_eq_some_iff.mp hopen
    exact ⟨front, back, value, bracket, rest, rfl, hline, hassigns, hbracket, hopens⟩

/-- Two pieces that a text can open with begin with the same character. -/
theorem head?_eq_of_opens {piece other : Text} {pieces others : List Text} {t rest rest' : Text}
    (hpiece : beginsSolid piece = true) (hother : beginsSolid other = true)
    (h : Opens (piece :: pieces) t rest) (h' : Opens (other :: others) t rest') :
    piece.head? = other.head? := by
  have hhead : ∀ {p : Text} {ps : List Text} {r : Text}, beginsSolid p = true →
      Opens (p :: ps) t r → (stripStart t).head? = p.head? := by
    intro p ps r hp h
    obtain ⟨behind, hopens, -⟩ := opens_cons_iff.mp h
    obtain ⟨c, more, rfl, -⟩ := exists_cons_of_beginsSolid hp
    rw [(stripStart_eq_append_iff hp).mpr hopens]
    rfl
  rw [← hhead hpiece h, hhead hother h']

/-- A label that no equals sign and no bracket begins. -/
def IsPlainLabel (label : Text) : Prop :=
  IsLabel label ∧ ∀ c ∈ label.head?, c ≠ '=' ∧ opensBracket c = false

instance (label : Text) : Decidable (IsPlainLabel label) :=
  haveI := Option.decidableForallMem (p := fun c => c ≠ '=' ∧ opensBracket c = false) label.head?
  inferInstanceAs (Decidable (_ ∧ _))

/-- Where a label is assigned, the text opens with neither an equals sign nor a bracket. -/
theorem AssignsAt.not_opens {label back value : Text} (hback : AssignsAt label back value)
    (hlabel : IsPlainLabel label) {mark : Char} {pieces : List Text} {left : Text}
    (hmark : mark = '=' ∨ opensBracket mark = true) : ¬ Opens ([mark] :: pieces) back left := by
  intro h
  have hsolid : beginsSolid label = true :=
    beginsSolid_of_forall hlabel.1.1 fun c hc => (hlabel.1.2 c hc).1
  have hmarkSolid : beginsSolid [mark] = true := by
    rcases hmark with rfl | hbracket
    · decide
    · simp [beginsSolid, isBlank_of_bracket (.inl hbracket)]
  have hhead := head?_eq_of_opens hmarkSolid hsolid h hback.opens
  obtain ⟨hsign, hplain⟩ := hlabel.2 mark hhead.symm
  rcases hmark with rfl | hbracket
  · exact hsign rfl
  · rw [hbracket] at hplain
    cases hplain

/-- An assignment is not read across the start of another one. -/
theorem assigns_of_append {label front back value rest t : Text} {bracket : Char}
    (hlabel : IsPlainLabel label) (hback : AssignsAt label back value)
    (hsome : ∃ c ∈ front, isBlank c = false) (h : AssignsAt label (front ++ back) t)
    (hbracket : opensBracket bracket = true) (hopens : Opens [[bracket]] t rest) :
    ∃ value rest, AssignsAt label front value ∧ Opens [[bracket]] value rest := by
  have hpieces : ∀ piece ∈ [label, "=", [bracket]], ∀ c ∈ piece, isBlank c = false := by
    rw [List.forall_mem_cons, List.forall_mem_cons, List.forall_mem_singleton,
      List.forall_mem_singleton]
    exact ⟨fun c hc => (hlabel.1.2 c hc).1, List.forall_mem_singleton.mpr (by decide),
      isBlank_of_bracket (.inl hbracket)⟩
  have hblank : ∀ c ∈ back.head?, isBlank c = true := by
    obtain ⟨⟨c, hc, hblank⟩, -⟩ := hback
    intro d hd
    rwa [Option.mem_unique hd hc]
  rcases opens_append_blank hpieces hblank (h.opens.trans hopens) with
    ⟨left, hleft, -⟩ | ⟨done, piece, more, blanks, heq, hdone, hblanks, hnext⟩
  · obtain ⟨behind, hassigns, hleft⟩ := opens_append_iff.mp
      (show Opens ([label, "="] ++ [[bracket]]) front left from hleft)
    refine ⟨behind, left, ⟨?_, hassigns⟩, hleft⟩
    obtain ⟨c, hc, hindent⟩ := h.indented
    refine ⟨c, ?_, hindent⟩
    obtain ⟨d, hd, -⟩ := hsome
    rwa [List.head?_append_of_ne_nil _ (List.ne_nil_of_mem hd)] at hc
  · -- the piece that is left for the other start is no sign, so all of the front is white space
    have hcases : done = [] ∨ piece = "=" ∨ piece = [bracket] := by
      rcases done with _ | ⟨_, _ | ⟨_, _ | _⟩⟩ <;> simp_all
    rcases hcases with rfl | rfl | rfl
    · cases hdone
      obtain ⟨c, hc, hnot⟩ := hsome
      rw [hblanks c hc] at hnot
      cases hnot
    · exact absurd hnext (hback.not_opens hlabel (.inl rfl))
    · exact absurd hnext (hback.not_opens hlabel (.inr hbracket))

/-- The value of the first assignment is what a search finds. -/
theorem findLine?_of_firstAssignment {label t value rest : Text} {bracket : Char}
    (hlabel : IsPlainLabel label) (h : FirstAssignment label t value)
    (hbracket : opensBracket bracket = true) (hopens : Opens [[bracket]] value rest) :
    findLine? (assigned? label) t = some (bracket :: rest) := by
  obtain ⟨front, back, rfl, hline, hnone, hassigns⟩ := h
  have hfound : openBracket? (stripStart value) = some (bracket :: rest) :=
    openBracket?_stripStart_eq_some_iff.mpr ⟨bracket, rest, rfl, hbracket, hopens⟩
  have hback : back ≠ [] := by
    rintro rfl
    obtain ⟨c, hc, -⟩ := hassigns.indented
    cases hc
  refine search_eq_some_of_first hback ((bars_feed_iff front).mpr hline)
    ((assigned?_eq_some_iff hlabel.1).mpr ⟨value, hassigns, hfound⟩) ?_
  rintro before s rfl hs hbefore
  by_cases hblank : ∀ c ∈ s, isBlank c = true
  · -- white space before the assignment belongs to it
    refine .inr ((assigned?_eq_some_iff hlabel.1).mpr ⟨value, ⟨?_, ?_⟩, hfound⟩)
    · obtain ⟨c, more, rfl⟩ := List.exists_cons_of_ne_nil hs
      exact ⟨c, rfl, hblank c List.mem_cons_self⟩
    · obtain ⟨behind, hlabelled, hsign⟩ := opens_cons_iff.mp hassigns.opens
      obtain ⟨blanks, hblanks, rfl⟩ := opens_singleton_iff.mp hlabelled
      rw [← List.append_assoc]
      exact .cons (List.forall_mem_append.mpr ⟨hblank, hblanks⟩) hsign
  · left
    cases hread : assigned? label (s ++ back) with
    | none => rfl
    | some found =>
        obtain ⟨other, hother, hopen⟩ := (assigned?_eq_some_iff hlabel.1).mp hread
        obtain ⟨sign, left, -, hsign, hleft⟩ := openBracket?_stripStart_eq_some_iff.mp hopen
        obtain ⟨inner, last, hinner, hlast⟩ :=
          assigns_of_append hlabel hassigns (by simpa using hblank) hother hsign hleft
        exact absurd ⟨before, s, inner, sign, last, rfl, (bars_feed_iff before).mp hbefore, hinner,
          hsign, hlast⟩ hnone

/-! ## Brackets -/

@[simp] theorem openBrackets?_append (depth : Nat) (t more : Text) :
    openBrackets? depth (t ++ more) =
      (openBrackets? depth t).bind fun left => openBrackets? left more := by
  fun_induction openBrackets? depth t with
  | case1 => rfl
  | case2 depth c t hopens ih => simpa [openBrackets?, hopens] using ih
  | case3 depth c t hopens hcloses hlast => simp [openBrackets?, hopens, hcloses, hlast]
  | case4 depth c t hopens hcloses hlast ih =>
      simpa [openBrackets?, hopens, hcloses, hlast] using ih
  | case5 depth c t hopens hcloses ih => simpa [openBrackets?, hopens, hcloses] using ih

theorem openBrackets?_of_opens {pieces : List Text} {t rest : Text} (h : Opens pieces t rest)
    (depth : Nat) : openBrackets? depth t =
      (openBrackets? depth pieces.flatten).bind fun left => openBrackets? left rest := by
  induction h generalizing depth with
  | nil => rfl
  | cons hblanks _ ih =>
      rw [openBrackets?_append,
        openBrackets?_of_plain fun c hc => plain_of_class (by decide) (hblanks c hc),
        Option.bind_some, openBrackets?_append, List.flatten_cons, openBrackets?_append,
        Option.bind_assoc]
      exact Option.bind_congr fun left _ => ih left

/-- The brackets of a listing are those of its values, which may be found in marks of theirs. -/
theorem openBrackets?_of_lists {α : Type} {write : α → List Text} {mark : α → Text}
    {values : List α} {t rest : Text} (h : Lists write values t rest)
    (hmark : ∀ value ∈ values, ∀ depth,
      openBrackets? depth (write value).flatten = openBrackets? depth (mark value)) (depth : Nat) :
    openBrackets? depth t =
      (openBrackets? depth (values.flatMap mark)).bind fun left => openBrackets? left rest := by
  induction h generalizing depth with
  | nil => rfl
  | last h =>
      rw [openBrackets?_of_opens h, hmark _ List.mem_cons_self]
      simp
  | cons h _ ih =>
      obtain ⟨hvalue, hmore⟩ := List.forall_mem_cons.mp hmark
      have hcomma : ∀ c ∈ [','], opensBracket c = false ∧ closesBracket c = false :=
        List.forall_mem_singleton.mpr (by decide)
      rw [openBrackets?_of_opens h, List.flatten_append, openBrackets?_append, hvalue,
        List.flatMap_cons, openBrackets?_append, Option.bind_assoc, Option.bind_assoc]
      refine Option.bind_congr fun left _ => ?_
      rw [List.flatten_singleton, openBrackets?_of_plain hcomma, Option.bind_some, ih hmore]

/-! ## Values -/

/-- The text opens with values between two brackets, and goes on with the rest. -/
def Displays {α : Type} (opening closing : Char) (write : α → List Text) (values : List α)
    (t rest : Text) : Prop :=
  ∃ inside behind, Opens [[opening]] t inside ∧ Lists write values inside behind ∧
    Opens [[closing]] behind rest

theorem Displays.suffix {α : Type} {opening closing : Char} {write : α → List Text}
    {values : List α} {t rest : Text} (h : Displays opening closing write values t rest) :
    rest <:+ t := by
  obtain ⟨inside, behind, hopens, hlists, hcloses⟩ := h
  exact hcloses.suffix.trans (hlists.suffix.trans hopens.suffix)

/-- The value of an attribute is its listing, if the brackets of the values do not close the one
before them, and what belongs to those that they leave open. -/
theorem attributeBlock?_of_displays {α : Type} {label t value rest : Text} {opening closing : Char}
    {write : α → List Text} {mark : α → Text} {values : List α} {depth : Nat}
    (hlabel : IsPlainLabel label) (h : FirstAssignment label t value)
    (hopening : opensBracket opening = true) (hclosing : closesBracket closing = true)
    (hdisplays : Displays opening closing write values value rest)
    (hmark : ∀ value ∈ values, ∀ depth,
      openBrackets? depth (write value).flatten = openBrackets? depth (mark value))
    (hdepth : openBrackets? 1 (values.flatMap mark) = some depth) :
    ∃ inside behind, attributeBlock? label t = some (opening :: inside) ∧
      Lists write values inside behind ∧
      Opens [[closing]] behind (if depth ≤ 1 then [] else bracketed (depth - 1) rest) := by
  obtain ⟨inside, behind, hopens, hlists, hcloses⟩ := hdisplays
  obtain ⟨part, rfl, hpart⟩ := hlists.exists_append
  obtain ⟨blanks, hblanks, rfl⟩ := opens_singleton_iff.mp hcloses
  have hinner : openBrackets? 1 part = some depth := by
    have hcount := openBrackets?_of_lists (hpart []) hmark 1
    rw [List.append_nil, hdepth] at hcount
    exact hcount
  have hnot : opensBracket closing = false := by
    simp only [closesBracket, Bool.or_eq_true, decide_eq_true_eq] at hclosing
    rcases hclosing with (rfl | rfl) | rfl <;> decide
  refine ⟨_, blanks ++ ([closing] ++ _), ?_, hpart _, .cons hblanks .nil⟩
  rw [attributeBlock?_eq, findLine?_of_firstAssignment hlabel h hopening hopens, Option.map_some,
    bracketed, if_pos hopening, bracketed_append_of_some hinner,
    bracketed_append_of_some
      (openBrackets?_of_plain (fun c hc => plain_of_class (by decide) (hblanks c hc)) _),
    List.singleton_append, bracketed, if_neg (by simp [hnot]), if_pos hclosing]
  split <;> rfl

theorem isQuote_of_isBlank {c : Char} (h : isBlank c = true) : isQuote c = false :=
  isQuote_of_class (by decide) (by decide) h

theorem isQuote_of_gap {c : Char} (h : isBlank c = true ∨ c = ',') : isQuote c = false := by
  rcases h with h | rfl
  · exact isQuote_of_isBlank h
  · decide

/-- If a scanner begins with a quote and reads every value where it is written, a search in a
listing between brackets finds the values, and then what is behind them. -/
theorem findAll_of_displayed {α : Type} {opening closing : Char} {write : α → List Text}
    {scan : Text → Option (α × Text)} {values : List α} {inside behind rest : Text}
    (hopening : opensBracket opening = true) (hclosing : closesBracket closing = true)
    (hquote : ∀ c, isQuote c = false → ∀ more, scan (c :: more) = none)
    (hread : ∀ value ∈ values, ∀ t rest, Opens (write value) t rest →
      findAll scan t = value :: findAll scan rest)
    (hlists : Lists write values inside behind) (hcloses : Opens [[closing]] behind rest) :
    findAll scan (opening :: inside) = values ++ findAll scan rest := by
  obtain ⟨blanks, hblanks, rfl⟩ := opens_singleton_iff.mp hcloses
  rw [findAll_cons_of_none (hquote _ (class_of_bracket (by decide) (.inl hopening)) _),
    findAll_of_lists (fun c hc => hquote c (isQuote_of_gap hc)) hread hlists,
    findAll_append_of_none fun c hc => hquote c (isQuote_of_isBlank (hblanks c hc)),
    List.singleton_append,
    findAll_cons_of_none (hquote _ (class_of_bracket (by decide) (.inr hclosing)) _)]

end Almanac.Country
