import Almanac.Proofs.Source.WrittenHeaders

/-!
# Parameters of written methods

Between the parentheses of a method header each comma outside of inner parentheses opens a slot, and
a slot that begins with a name, be it behind stars, gives a parameter. Brackets and braces are no
tokens, so a comma between them opens a slot as well, and parentheses behind the closing one have
slots of their own. Hence the parameters read are the declared ones, each followed by the names that
stand first behind the commas of its annotation and its value, and at the end those of the return
annotation.
-/

namespace Almanac.Source

open Almanac.Text Lexeme

/-! ## Slots -/

/-- The pieces between the commas that stand outside of parentheses. -/
def slots : (depth : Nat) → List Lexeme → List (List Lexeme)
  | _, [] => [[]]
  | depth, lexeme :: rest =>
      if depth = 0 ∧ lexeme = mark ',' then [] :: slots depth rest
      else match slots (lexeme.depthAfter depth) rest with
        | [] => [[lexeme]]
        | slot :: later => (lexeme :: slot) :: later

def isNameLexeme (lexeme : Lexeme) : Bool :=
  lexeme.kind = .identifier || lexeme.kind = .selfKeyword

/-- The name that a slot begins with; stars before it are passed over. -/
def opening? : List Lexeme → Option Text
  | [] => none
  | lexeme :: rest =>
      if lexeme = mark '*' then opening? rest
      else if isNameLexeme lexeme then some lexeme.text
      else none

/-- The names that slots begin with; the first one counts if a name is due. -/
def openings (due : Bool) : List (List Lexeme) → List Text
  | [] => []
  | slot :: later => (if due then (opening? slot).toList else []) ++ later.filterMap opening?

@[simp] theorem openings_true (slots : List (List Lexeme)) :
    openings true slots = slots.filterMap opening? := by
  cases slots with
  | nil => rfl
  | cons slot later =>
      rw [openings, List.filterMap_cons]
      cases opening? slot <;> rfl

theorem exists_slots_cons (depth : Nat) (lexemes : List Lexeme) :
    ∃ slot later, slots depth lexemes = slot :: later := by
  fun_cases slots depth lexemes with
  | case1 => exact ⟨_, _, rfl⟩
  | case2 => exact ⟨_, _, rfl⟩
  | case3 => exact ⟨_, _, rfl⟩
  | case4 => exact ⟨_, _, rfl⟩

/-- A lexeme that opens no slot is put before the first one. -/
theorem slots_cons {depth : Nat} {lexeme : Lexeme} (h : ¬ (depth = 0 ∧ lexeme = mark ','))
    {rest slot : List Lexeme} {later : List (List Lexeme)}
    (hslots : slots (lexeme.depthAfter depth) rest = slot :: later) :
    slots depth (lexeme :: rest) = (lexeme :: slot) :: later := by
  rw [slots, if_neg h, hslots]

/-- A comma outside of parentheses parts the slots before it from those behind. -/
theorem slots_append_comma {depth : Nat} {first : List Lexeme} (h : nesting? depth first = some 0)
    (second : List Lexeme) :
    slots depth (first ++ mark ',' :: second) = slots depth first ++ slots 0 second := by
  induction first generalizing depth with
  | nil =>
      obtain rfl := Option.some.inj h
      rfl
  | cons lexeme first ih =>
      have hbehind := ih (nesting?_cons h).2
      by_cases hcomma : depth = 0 ∧ lexeme = mark ','
      · obtain ⟨rfl, rfl⟩ := hcomma
        exact congrArg ([] :: ·) hbehind
      · obtain ⟨slot, later, hslots⟩ := exists_slots_cons (lexeme.depthAfter depth) first
        rw [hslots] at hbehind
        rw [List.cons_append, slots_cons hcomma hbehind, slots_cons hcomma hslots]
        rfl

/-- Where no comma stands outside of parentheses there is one slot. -/
theorem slots_of_noComma {depth : Nat} {lexemes : List Lexeme}
    (h : mark ',' ∉ outside depth lexemes) : slots depth lexemes = [lexemes] := by
  induction lexemes generalizing depth with
  | nil => rfl
  | cons lexeme lexemes ih =>
      obtain ⟨hlexeme, hlater⟩ := notMem_outside_cons h
      exact slots_cons (fun hcomma => hlexeme hcomma.1 hcomma.2) (ih hlater)

/-! ## Steps -/

namespace Header.ParameterState

def read (state : ParameterState) (lexemes : List Lexeme) : ParameterState :=
  lexemes.foldl (fun state lexeme => state.step lexeme.token) state

@[simp] theorem read_append (state : ParameterState) (first second : List Lexeme) :
    state.read (first ++ second) = (state.read first).read second :=
  List.foldl_append

/-- Parameters are read from the lexemes of a header. -/
theorem parameters_eq (header : List Token) :
    parameters header = ((⟨0, false, []⟩ : ParameterState).read (lexemesOf header)).names := by
  rw [parameters, foldl_lexemesOf]
  · rfl
  · intro state token hkind
    exact if_pos hkind
  · exact fun _ _ => rfl

/-- All that a step can do. -/
theorem step_eq {lexeme : Lexeme} (h : lexeme.isWhole = true) (state : ParameterState) :
    state.step lexeme.token =
      if lexeme = mark '(' then
        { state with depth := state.depth + 1, due := state.depth + 1 = 1 }
      else if lexeme = mark ')' then { state with depth := state.depth - 1 }
      else if state.depth ≠ 1 then state
      else if lexeme = mark ',' then { state with due := true }
      else if lexeme = mark '*' then state
      else if state.due ∧ isNameLexeme lexeme = true then
        { state with due := false, names := state.names ++ [lexeme.text] }
      else { state with due := false } := by
  have hopen : lexeme.token.text = "(" ↔ lexeme = mark '(' := text_token_iff h (by decide)
  have hclose : lexeme.token.text = ")" ↔ lexeme = mark ')' := text_token_iff h (by decide)
  have hcomma : lexeme.token.text = "," ↔ lexeme = mark ',' := text_token_iff h (by decide)
  have hstar : lexeme.token.text = "*" ↔ lexeme = mark '*' := text_token_iff h (by decide)
  have hname : (lexeme.token.kind = .identifier ∨ lexeme.token.kind = .selfKeyword) ↔
      isNameLexeme lexeme = true := by
    simp [isNameLexeme, token]
  rw [step, if_neg (kind_token_ne h)]
  simp only [hopen, hclose, hcomma, hstar, hname]
  rfl

/-- Directly within the outer parentheses a comma opens a slot, stars are passed over, and a name is
added if it begins its slot. -/
theorem step_directly {lexeme : Lexeme} (h : lexeme.isWhole = true) (hopen : lexeme ≠ mark '(')
    (hclose : lexeme ≠ mark ')') (due : Bool) (names : List Text) (rest : List Lexeme) :
    ∃ due' names', (⟨1, due, names⟩ : ParameterState).step lexeme.token = ⟨1, due', names'⟩ ∧
      names' ++ openings due' (slots 0 rest) =
        names ++ openings due (slots 0 (lexeme :: rest)) := by
  obtain ⟨slot, later, hslots⟩ := exists_slots_cons 0 rest
  rw [step_eq h, if_neg hopen, if_neg hclose, if_neg (not_not.mpr rfl)]
  by_cases hcomma : lexeme = mark ','
  · subst hcomma
    refine ⟨true, names, if_pos rfl, ?_⟩
    rw [openings_true, slots, if_pos ⟨rfl, rfl⟩]
    cases due <;> rfl
  have hbehind : slots 0 (lexeme :: rest) = (lexeme :: slot) :: later :=
    slots_cons (fun hzero => hcomma hzero.2) (by rwa [depthAfter_of_ne hopen hclose])
  rw [if_neg hcomma, hslots, hbehind, openings]
  by_cases hstar : lexeme = mark '*'
  · refine ⟨due, names, if_pos hstar, ?_⟩
    rw [openings, opening?, if_pos hstar]
  rw [if_neg hstar]
  by_cases hname : due = true ∧ isNameLexeme lexeme = true
  · obtain ⟨rfl, hname⟩ := hname
    refine ⟨false, names ++ [lexeme.text], if_pos ⟨rfl, hname⟩, ?_⟩
    rw [openings, opening?, if_neg hstar, if_pos hname, List.append_assoc]
    rfl
  · refine ⟨false, names, if_neg hname, ?_⟩
    have hnone : (if due then (opening? (lexeme :: slot)).toList else []) = [] := by
      cases due with
      | false => rfl
      | true =>
          rw [opening?, if_neg hstar, if_neg fun h => hname ⟨rfl, h⟩]
          rfl
    rw [openings, hnone]
    rfl

/-- One lexeme within the outer parentheses. A name is due only directly within them. -/
theorem step_slots {lexeme : Lexeme} (h : lexeme.isWhole = true) {depth : Nat}
    (hclosed : ¬ (lexeme = mark ')' ∧ depth = 0)) {due : Bool} (hdue : depth ≠ 0 → due = false)
    (names : List Text) (rest : List Lexeme) : ∃ due' names',
      (⟨depth + 1, due, names⟩ : ParameterState).step lexeme.token =
        ⟨lexeme.depthAfter depth + 1, due', names'⟩ ∧
      (lexeme.depthAfter depth ≠ 0 → due' = false) ∧
      names' ++ openings due' (slots (lexeme.depthAfter depth) rest) =
        names ++ openings due (slots depth (lexeme :: rest)) := by
  obtain ⟨slot, later, hslots⟩ := exists_slots_cons (lexeme.depthAfter depth) rest
  by_cases hopen : lexeme = mark '('
  · subst hopen
    refine ⟨false, names, ?_, fun _ => rfl, ?_⟩
    · rw [step_eq h, if_pos rfl, depthAfter, if_pos rfl]
      have hdeep : (depth : Int) + 1 + 1 ≠ 1 := by omega
      simp [hdeep]
    · have hnone : opening? (mark '(' :: slot) = none := rfl
      rw [hslots, slots_cons (by simp [mark]) hslots, openings, openings, hnone]
      cases due <;> rfl
  by_cases hclose : lexeme = mark ')'
  · have hpositive : depth ≠ 0 := fun hzero => hclosed ⟨hclose, hzero⟩
    obtain rfl := hdue hpositive
    refine ⟨false, names, ?_, fun _ => rfl, ?_⟩
    · rw [step_eq h, if_neg hopen, if_pos hclose, depthAfter, if_neg hopen, if_pos hclose]
      have hdepth : (depth : Int) + 1 - 1 = ((depth - 1 : Nat) : Int) + 1 := by omega
      simp only [hdepth]
    · rw [hslots, slots_cons (fun hcomma => hpositive hcomma.1) hslots]
      rfl
  rw [depthAfter_of_ne hopen hclose]
  by_cases hinner : depth = 0
  · subst hinner
    obtain ⟨due', names', hstep, hnames⟩ := step_directly h hopen hclose due names rest
    exact ⟨due', names', hstep, absurd rfl, hnames⟩
  · obtain rfl := hdue hinner
    have hdeep : (depth : Int) + 1 ≠ 1 := by omega
    refine ⟨false, names, ?_, fun _ => rfl, ?_⟩
    · rw [step_eq h, if_neg hopen, if_neg hclose, if_pos hdeep]
    · rw [slots_cons (fun hcomma => hinner hcomma.1) hslots]
      rw [depthAfter_of_ne hopen hclose] at hslots
      rw [hslots]
      rfl

/-- Directly within the outer parentheses, at the start of a slot or further on, the names that
slots begin with are added to those found. -/
theorem read_slots {lexemes : List Lexeme} (hwhole : ∀ lexeme ∈ lexemes, lexeme.isWhole = true)
    {depth behind : Nat} (hnesting : nesting? depth lexemes = some behind) {due : Bool}
    (hdue : depth ≠ 0 → due = false) (names : List Text) : ∃ due',
      (⟨depth + 1, due, names⟩ : ParameterState).read lexemes =
        ⟨behind + 1, due', names ++ openings due (slots depth lexemes)⟩ := by
  induction lexemes generalizing depth due names with
  | nil =>
      obtain rfl := Option.some.inj hnesting
      cases due <;> exact ⟨_, by simp [read, slots, openings, opening?]; rfl⟩
  | cons lexeme lexemes ih =>
      obtain ⟨hhere, hlater⟩ := List.forall_mem_cons.mp hwhole
      obtain ⟨hclosed, hnesting⟩ := nesting?_cons hnesting
      obtain ⟨due', names', hstep, hdue', hnames⟩ :=
        step_slots hhere hclosed hdue names lexemes
      obtain ⟨due'', hread⟩ := ih hlater hnesting hdue' names'
      refine ⟨due'', ?_⟩
      rw [read, List.foldl_cons, hstep, ← hnames]
      exact hread

/-- Names are only added, and whether one is due matters directly within the outer parentheses. -/
theorem read_names {lexemes : List Lexeme} (hwhole : ∀ lexeme ∈ lexemes, lexeme.isWhole = true)
    {depth : Int} {due due' : Bool} (hdue : depth ≤ 0 ∨ due = due') (names : List Text) :
    ((⟨depth, due, names⟩ : ParameterState).read lexemes).names =
      names ++ ((⟨depth, due', []⟩ : ParameterState).read lexemes).names := by
  induction lexemes generalizing depth due due' names with
  | nil => exact (List.append_nil names).symm
  | cons lexeme lexemes ih =>
      obtain ⟨hhere, hlater⟩ := List.forall_mem_cons.mp hwhole
      rw [read, read, List.foldl_cons, List.foldl_cons, step_eq hhere, step_eq hhere, ← read,
        ← read]
      by_cases hopen : lexeme = mark '('
      · rw [if_pos hopen, if_pos hopen]
        exact ih hlater (.inr rfl) names
      by_cases hclose : lexeme = mark ')'
      · rw [if_neg hopen, if_pos hclose, if_neg hopen, if_pos hclose]
        exact ih hlater (hdue.imp (fun hle => show depth - 1 ≤ 0 by omega) id) names
      rw [if_neg hopen, if_neg hclose, if_neg hopen, if_neg hclose]
      by_cases houter : depth = 1
      · obtain rfl : due = due' := hdue.resolve_left (by omega)
        rw [if_neg (not_not.mpr houter), if_neg (not_not.mpr houter)]
        split_ifs with hcomma hstar hname
        · exact ih hlater (.inr rfl) names
        · exact ih hlater (.inr rfl) names
        · have hfirst := @ih hlater depth false false (.inr rfl) [lexeme.text]
          have hboth := @ih hlater depth false false (.inr rfl) (names ++ [lexeme.text])
          rw [hboth, List.append_assoc]
          exact congrArg (names ++ ·) hfirst.symm
        · exact ih hlater (.inr rfl) names
      · rw [if_pos houter, if_pos houter]
        exact ih hlater hdue names

/-- The names that are read from lexemes as from a header of their own. -/
def namesIn (lexemes : List Lexeme) : List Text :=
  ((⟨0, false, []⟩ : ParameterState).read lexemes).names

/-- Where no parenthesis is opened, no name is read. -/
theorem namesIn_of_noOpen {lexemes : List Lexeme}
    (hwhole : ∀ lexeme ∈ lexemes, lexeme.isWhole = true) (hopen : mark '(' ∉ lexemes) :
    namesIn lexemes = [] := by
  have hread : ∀ depth ≤ 0,
      ((⟨depth, false, []⟩ : ParameterState).read lexemes).names = [] := by
    induction lexemes with
    | nil => exact fun _ _ => rfl
    | cons lexeme lexemes ih =>
        intro depth hdepth
        obtain ⟨hhere, hlater⟩ := List.forall_mem_cons.mp hwhole
        simp only [List.mem_cons, not_or] at hopen
        rw [read, List.foldl_cons, step_eq hhere, if_neg (Ne.symm hopen.1), ← read]
        split_ifs with hclose houter
        · exact ih hlater hopen.2 (depth - 1) (by omega)
        · exact ih hlater hopen.2 depth hdepth
        all_goals exact absurd (not_not.mp houter) (by dsimp only; omega)
  exact hread 0 le_rfl

end Header.ParameterState

/-! ## Parameters -/

/-- A parameter in the header of a method: the stars before it, its name, and the lexemes of its
annotation and of its default value. -/
structure Parameter where
  stars : Nat
  name : Text
  annotation : Option (List Lexeme)
  value : Option (List Lexeme)
deriving DecidableEq, Repr

namespace Parameter

/-- What stands behind the name. -/
def tail (parameter : Parameter) : List Lexeme :=
  (parameter.annotation.map (mark ':' :: ·)).getD [] ++
    (parameter.value.map (mark '=' :: ·)).getD []

def lexemes (parameter : Parameter) : List Lexeme :=
  List.replicate parameter.stars (mark '*') ++ word parameter.name :: parameter.tail

/-- The annotation and the default value are closed. -/
def IsWritten (parameter : Parameter) : Prop :=
  (∀ lexemes ∈ parameter.annotation, IsClosed lexemes) ∧
    ∀ lexemes ∈ parameter.value, IsClosed lexemes

instance (parameter : Parameter) : Decidable parameter.IsWritten :=
  inferInstanceAs (Decidable (_ ∧ _))

theorem isClosed_tail {parameter : Parameter} (h : parameter.IsWritten) :
    IsClosed parameter.tail := by
  have hpart : ∀ {c : Char} {part : Option (List Lexeme)}, IsClosed [mark c] →
      (∀ lexemes ∈ part, IsClosed lexemes) → IsClosed ((part.map (mark c :: ·)).getD []) := by
    intro c part hmark hpart
    cases part with
    | none => exact ⟨rfl, List.forall_mem_nil _⟩
    | some lexemes => exact hmark.append (hpart lexemes rfl)
  exact (hpart (by decide) h.1).append (hpart (by decide) h.2)

theorem isClosed_lexemes {parameter : Parameter} (h : parameter.IsWritten) :
    IsClosed parameter.lexemes := by
  have hstars : IsClosed (List.replicate parameter.stars (mark '*')) := by
    refine ⟨nesting?_of_noMarks ?_ 0, ?_⟩
    · exact fun _ hmem => List.eq_of_mem_replicate hmem ▸ by decide
    · exact fun _ hmem => List.eq_of_mem_replicate hmem ▸ by decide
  exact hstars.append ((isClosed_word parameter.name).append (isClosed_tail h))

theorem forall_isClosed_lexemes {parameters : List Parameter}
    (h : ∀ parameter ∈ parameters, parameter.IsWritten) :
    ∀ item ∈ parameters.map lexemes, IsClosed item :=
  List.forall_mem_map.mpr fun parameter hmem => isClosed_lexemes (h parameter hmem)

/-- The names that stand first behind the commas of the annotation and the value, the commas within
parentheses left out. -/
def strays (parameter : Parameter) : List Text :=
  (slots 0 parameter.tail).tail.filterMap opening?

theorem strays_of_noComma {parameter : Parameter} (h : mark ',' ∉ outside 0 parameter.tail) :
    parameter.strays = [] := by
  rw [strays, slots_of_noComma h]
  rfl

theorem opening?_word (name : Text) (rest : List Lexeme) :
    opening? (word name :: rest) = some name := by
  have hname : isNameLexeme (word name) = true ∧ (word name).text = name := by
    unfold word
    split <;> exact ⟨rfl, rfl⟩
  rw [opening?, if_neg (ne_mark_of_kind (kind_word name).1 '*'), if_pos hname.1, hname.2]

/-- The name opens the first slot of a parameter. -/
theorem openings_lexemes (parameter : Parameter) :
    (slots 0 parameter.lexemes).filterMap opening? = parameter.name :: parameter.strays := by
  obtain ⟨slot, later, hslots⟩ := exists_slots_cons 0 parameter.tail
  have hstars : ∀ n, ∃ first, opening? first = some parameter.name ∧
      slots 0 (List.replicate n (mark '*') ++ word parameter.name :: parameter.tail) =
        first :: later := by
    intro n
    induction n with
    | zero =>
        have hne := ne_mark_of_kind (kind_word parameter.name).1
        refine ⟨_, opening?_word parameter.name slot, slots_cons (fun h => hne ',' h.2) ?_⟩
        rwa [depthAfter_of_ne (hne '(') (hne ')')]
    | succ n ih =>
        obtain ⟨first, hopening, hfirst⟩ := ih
        exact ⟨mark '*' :: first, hopening, slots_cons (by simp [mark]) hfirst⟩
  obtain ⟨first, hopening, hfirst⟩ := hstars parameter.stars
  rw [lexemes, hfirst, List.filterMap_cons, hopening, strays, hslots]
  rfl

end Parameter

/-- Each item of a list has its own slots, and a comma behind the last one opens none with a
name. -/
theorem openings_listed {items : List (List Lexeme)} (h : ∀ item ∈ items, IsClosed item)
    (trailing : Bool) :
    (slots 0 (listed items ++ if trailing then [mark ','] else [])).filterMap opening? =
      items.flatMap fun item => (slots 0 item).filterMap opening? := by
  have hplain : (slots 0 (listed items)).filterMap opening? =
      items.flatMap fun item => (slots 0 item).filterMap opening? := by
    fun_induction listed items with
    | case1 => rfl
    | case2 item => exact (List.append_nil _).symm
    | case3 item rest _ ih =>
        obtain ⟨hitem, hrest⟩ := List.forall_mem_cons.mp h
        rw [slots_append_comma hitem.1, List.filterMap_append, ih hrest, List.flatMap_cons]
  cases trailing with
  | false =>
      rw [if_neg Bool.false_ne_true, List.append_nil]
      exact hplain
  | true =>
      rw [if_pos rfl, slots_append_comma (isClosed_listed h).1 [], List.filterMap_append, hplain]
      exact List.append_nil _

/-! ## Methods -/

/-- The lexemes of a method header with its keyword and its colon. Behind the parentheses stands the
return annotation, if there is one. -/
def methodHeader (name : Text) (parameters : List Parameter) (trailing : Bool)
    (returned : List Lexeme) : List Lexeme :=
  ⟨.defKeyword, "def"⟩ :: word name ::
    (enclosed (parameters.map Parameter.lexemes) trailing ++ returned ++ [mark ':'])

namespace Header.ParameterState

theorem read_enclosed {items : List (List Lexeme)} (h : ∀ item ∈ items, IsClosed item)
    (trailing : Bool) (hwhole : ∀ lexeme ∈ enclosed items trailing, lexeme.isWhole = true) :
    ∃ due, (⟨0, false, []⟩ : ParameterState).read (enclosed items trailing) =
      ⟨0, due, items.flatMap fun item => (slots 0 item).filterMap opening?⟩ := by
  have hopen : (⟨0, false, []⟩ : ParameterState).step (mark '(').token = ⟨0 + 1, true, []⟩ := rfl
  have hend : IsClosed (if trailing then [mark ','] else []) := by cases trailing <;> decide
  have hinner : ∀ lexeme ∈ listed items ++ (if trailing then [mark ','] else []),
      lexeme.isWhole = true := fun lexeme hmem =>
    hwhole lexeme (List.mem_cons_of_mem _ (List.mem_append_left _ hmem))
  have hbalanced : nesting? 0 _ = some 0 := ((isClosed_listed h).append hend).1
  obtain ⟨due, hread⟩ := @read_slots _ hinner 0 0 hbalanced true (fun hzero => absurd rfl hzero) []
  refine ⟨due, ?_⟩
  rw [openings_true, openings_listed h trailing, List.nil_append] at hread
  rw [enclosed, read, List.foldl_cons, hopen, ← read, read_append]
  exact congrArg (fun state => state.step (mark ')').token) hread

end Header.ParameterState

/-- The parameters of a written header are the declared names, each followed by the stray names of
its annotation and its value, and then come the names of the return annotation. -/
theorem parameters_of_lexemes {parameters : List Parameter}
    (hparameters : ∀ parameter ∈ parameters, parameter.IsWritten) {trailing : Bool}
    {returned : List Lexeme} {scanned : List Token}
    (hscanned : lexemesOf scanned =
      enclosed (parameters.map Parameter.lexemes) trailing ++ returned)
    (hwhole : ∀ lexeme ∈ lexemesOf scanned, lexeme.isWhole = true) :
    Header.parameters scanned =
      parameters.flatMap (fun parameter => parameter.name :: parameter.strays) ++
        Header.ParameterState.namesIn returned := by
  rw [hscanned] at hwhole
  obtain ⟨hinside, hbehind⟩ := List.forall_mem_append.mp hwhole
  obtain ⟨due, hread⟩ := Header.ParameterState.read_enclosed
    (Parameter.forall_isClosed_lexemes hparameters) trailing hinside
  rw [Header.ParameterState.parameters_eq, hscanned, Header.ParameterState.read_append, hread,
    @Header.ParameterState.read_names _ hbehind 0 due false (.inl le_rfl), List.flatMap_map]
  simp only [Parameter.openings_lexemes]
  rfl

theorem length_le_flatMap_strays (parameters : List Parameter) : parameters.length ≤
    (parameters.flatMap fun parameter => parameter.name :: parameter.strays).length := by
  induction parameters with
  | nil => exact le_rfl
  | cons parameter parameters ih =>
      rw [List.flatMap_cons, List.length_append, List.length_cons, List.length_cons]
      omega

/-- The names read are the declared ones just if there are no others, be it by their number. -/
theorem flatMap_strays_eq_iff (parameters : List Parameter) (more : List Text) :
    parameters.flatMap (fun parameter => parameter.name :: parameter.strays) ++ more =
        parameters.map Parameter.name ↔
      (∀ parameter ∈ parameters, parameter.strays = []) ∧ more = [] := by
  induction parameters with
  | nil => simp
  | cons parameter parameters ih =>
      rw [List.flatMap_cons, List.map_cons, List.cons_append, List.cons_append, List.cons.injEq,
        List.forall_mem_cons, and_assoc, ← ih, List.append_assoc]
      refine ⟨fun ⟨_, heq⟩ => ?_, fun ⟨hstrays, heq⟩ => ⟨rfl, by rw [hstrays, ← heq]; rfl⟩⟩
      have hbound := length_le_flatMap_strays parameters
      have hlength := congrArg List.length heq
      rw [List.length_append, List.length_append, List.length_map] at hlength
      have hnone : parameter.strays = [] := List.eq_nil_of_length_eq_zero (by omega)
      rw [hnone] at heq
      exact ⟨hnone, heq⟩

/-- Behind the tokens of the first text and the indentation of its line stands a method keyword that
opens the method. -/
def OpensMethod (before t : Text) (method : Method) : Prop :=
  ∃ indents keyword ahead n,
    (TokenStream.ofText TokenRule.all (before ++ t)).tokens =
      (TokenStream.ofText TokenRule.all before).tokens ++ indents ++ keyword :: ahead ∧
    (∀ token ∈ indents, token.kind = .indent) ∧ keyword.kind = .defKeyword ∧
    keyword.line = (lines before).length + 1 ∧ Method.read keyword ahead = .ok (method, n)

section

variable {before rest name : Text} {parameters : List Parameter} {trailing : Bool}
  {returned : List Lexeme} {header : List Fragment}

theorem opensMethod_of_written (hbefore : OpensLine before)
    (hparameters : ∀ parameter ∈ parameters, parameter.IsWritten) (hreturned : IsClosed returned)
    (hcolon : mark ':' ∉ outside 0 returned)
    (hshown : shownLexemes header = methodHeader name parameters trailing returned)
    (hapart : staysApart rest header = true) (hkeeps : keepsLine 0 header = true) :
    OpensMethod before (shownText header ++ rest) {
      name := name
      parameters :=
        parameters.flatMap (fun parameter => parameter.name :: parameter.strays) ++
          Header.ParameterState.namesIn returned
      line := (lines before).length + 1 } := by
  obtain ⟨hclosed, houtside⟩ :=
    isClosed_enclosed (Parameter.forall_isClosed_lexemes hparameters) trailing
  have hends : mark ':' ∉
      outside 0 (enclosed (parameters.map Parameter.lexemes) trailing ++ returned) := by
    rw [outside_append hclosed.1, houtside]
    exact fun hmem => (List.mem_append.mp hmem).elim (by decide) hcolon
  obtain ⟨indents, keyword, first, ahead, scanned, htokens, hindents, hkeyword, hfirst, hline,
      hscan, hscanned⟩ := Header.exists_scan_ofText hbefore hapart hkeeps hshown (by decide)
    (kind_word name).1 (hclosed.append hreturned) hends
  have hwhole : ∀ lexeme ∈ lexemesOf scanned, lexeme.isWhole = true := by
    intro lexeme hlexeme
    refine isWhole_of_staysApart hapart lexeme ?_
    rw [hshown, methodHeader, ← hscanned]
    exact List.mem_cons_of_mem _ (List.mem_cons_of_mem _ (List.mem_append_left _ hlexeme))
  have hname : first.text = name ∧ Method.isName first = true := by
    obtain ⟨kind, text, _, _⟩ := first
    obtain rfl : text = (word name).text := congrArg Lexeme.text hfirst
    obtain rfl : kind = (word name).kind := congrArg Lexeme.kind hfirst
    unfold word
    split <;> exact ⟨rfl, rfl⟩
  refine ⟨indents, keyword, first :: ahead, scanned.length + 2, htokens, hindents,
    congrArg Lexeme.kind hkeyword, hline, ?_⟩
  have hnames := parameters_of_lexemes hparameters hscanned hwhole
  rw [Method.read, if_pos hname.2, hscan, hname.1, ← hnames, ← hline]

/-- The parameters read from a written header are the declared names just if no comma of an
annotation or a value, outside of parentheses, has a name behind it, and no name is read from the
return annotation. Where such commas are within parentheses, and the return annotation has none,
they are the declared names. -/
theorem parameters_of_written (hbefore : OpensLine before)
    (hparameters : ∀ parameter ∈ parameters, parameter.IsWritten) (hreturned : IsClosed returned)
    (hcolon : mark ':' ∉ outside 0 returned)
    (hshown : shownLexemes header = methodHeader name parameters trailing returned)
    (hapart : staysApart rest header = true) (hkeeps : keepsLine 0 header = true) :
    ∃ names,
      OpensMethod before (shownText header ++ rest) ⟨name, names, (lines before).length + 1⟩ ∧
      names = parameters.flatMap (fun parameter => parameter.name :: parameter.strays) ++
        Header.ParameterState.namesIn returned ∧
      (names = parameters.map Parameter.name ↔
        (∀ parameter ∈ parameters, parameter.strays = []) ∧
          Header.ParameterState.namesIn returned = []) ∧
      ((∀ parameter ∈ parameters, mark ',' ∉ outside 0 parameter.tail) → mark '(' ∉ returned →
        names = parameters.map Parameter.name) := by
  have hiff := flatMap_strays_eq_iff parameters (Header.ParameterState.namesIn returned)
  refine ⟨_, opensMethod_of_written hbefore hparameters hreturned hcolon hshown hapart hkeeps, rfl,
    hiff, fun hcommas hopen => hiff.mpr ⟨fun parameter hmem => ?_, ?_⟩⟩
  · exact Parameter.strays_of_noComma (hcommas parameter hmem)
  · refine Header.ParameterState.namesIn_of_noOpen (fun lexeme hmem => ?_) hopen
    refine isWhole_of_staysApart hapart lexeme ?_
    rw [hshown]
    simp [methodHeader, hmem]

end

/-- A header with a method's own name first, a call as a default value over two lines, stars, and a
return annotation. -/
def starredHeader : List Fragment :=
  [.blank ' ', .blank ' ', .shown ⟨.defKeyword, "def"⟩, .blank ' ', .shown ⟨.identifier, "f"⟩,
    .shown (mark '('), .shown ⟨.selfKeyword, "self"⟩, .shown (mark ','), .blank ' ',
    .shown ⟨.identifier, "year"⟩, .shown (mark ':'), .blank ' ', .shown ⟨.identifier, "int"⟩,
    .blank ' ', .shown (mark '='), .blank ' ', .shown ⟨.identifier, "g"⟩, .shown (mark '('),
    .shown ⟨.number, "1"⟩, .shown (mark ','), .blank '\n', .shown ⟨.identifier, "x"⟩,
    .shown (mark ')'), .shown (mark ','), .shown (mark '*'), .shown (mark '*'),
    .shown ⟨.identifier, "options"⟩, .shown (mark ')'), .blank ' ', .shown (mark '-'), .unread '>',
    .blank ' ', .shown ⟨.identifier, "None"⟩, .shown (mark ':')]

def starredParameters : List Parameter :=
  [⟨0, "self", none, none⟩,
    ⟨0, "year", some [⟨.identifier, "int"⟩], some [⟨.identifier, "g"⟩, mark '(', ⟨.number, "1"⟩,
      mark ',', ⟨.identifier, "x"⟩, mark ')']⟩,
    ⟨2, "options", none, none⟩]

theorem parameters_of_written_starred :
    shownText starredHeader =
      ("  def f(self, year: int = g(1,\nx),**options) -> None:" : Text) ∧
    ∃ names, OpensMethod "class A:\n" (shownText starredHeader ++ "\n    pass\n") ⟨"f", names, 2⟩ ∧
      names = [("self" : Text), "year", "options"] := by
  refine ⟨by decide +kernel, ?_⟩
  obtain ⟨names, hopens, -, -, hdeclared⟩ := @parameters_of_written "class A:\n" "\n    pass\n" "f"
    starredParameters false [mark '-', ⟨.identifier, "None"⟩] starredHeader
    (fun _ hlast => (Option.some.inj hlast).symm) (by decide) (by decide) (by decide) (by decide)
    (by decide +kernel) (by decide)
  exact ⟨names, hopens, hdeclared (by decide) (by decide)⟩

/-- A header with a comma in the brackets of an annotation. -/
def subscriptHeader : List Fragment :=
  [.shown ⟨.defKeyword, "def"⟩, .blank ' ', .shown ⟨.identifier, "f"⟩, .shown (mark '('),
    .shown ⟨.identifier, "a"⟩, .shown (mark ':'), .blank ' ', .shown ⟨.identifier, "dict"⟩,
    .unread '[', .shown ⟨.identifier, "str"⟩, .shown (mark ','), .blank ' ',
    .shown ⟨.identifier, "int"⟩, .unread ']', .shown (mark ')'), .shown (mark ':')]

def subscriptParameters : List Parameter :=
  [⟨0, "a", some [⟨.identifier, "dict"⟩, ⟨.identifier, "str"⟩, mark ',', ⟨.identifier, "int"⟩],
    none⟩]

/-- A name in the annotation of the one parameter is taken for a second one. -/
theorem opensMethod_subscript :
    shownLexemes subscriptHeader = methodHeader "f" subscriptParameters false [] ∧
    subscriptParameters.map Parameter.name = [("a" : Text)] ∧
    shownText subscriptHeader = ("def f(a: dict[str, int]):" : Text) ∧
    OpensMethod [] (shownText subscriptHeader ++ "\n    pass\n") ⟨"f", [("a" : Text), "int"], 1⟩ :=
  ⟨by decide, rfl, by decide, @opensMethod_of_written [] "\n    pass\n" "f" subscriptParameters
    false [] subscriptHeader nofun (by decide) (by decide) (by decide)
    (by decide) (by decide +kernel) (by decide)⟩

end Almanac.Source
