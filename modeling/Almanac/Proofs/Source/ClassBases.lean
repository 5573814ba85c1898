import Almanac.Proofs.Source.AccountedOutlines
import Almanac.Proofs.Source.WrittenHeaders

/-!
# Bases of written classes

In the parentheses of a class header stand bases, which are dotted names, and keywords with values.
The bases read from the header are the dotted names in their order. What stands in a value is no
base, as long as its parentheses are balanced and no comma stands outside of them.
-/

namespace Almanac.Source

open Almanac.Text Lexeme

/-! ## Items -/

/-- A name with its parts, and dots between them. -/
def dotted : List Text → List Lexeme
  | [] => []
  | [part] => [⟨.identifier, part⟩]
  | part :: rest => ⟨.identifier, part⟩ :: mark '.' :: dotted rest

/-- An item in the header of a class. -/
inductive ClassItem where
  | base (parts : List Text)
  | keyword (name : Text) (value : List Lexeme)
deriving DecidableEq, Repr

namespace ClassItem

def lexemes : ClassItem → List Lexeme
  | base parts => dotted parts
  | keyword name value => word name :: mark '=' :: value

/-- The dotted name of the base, if the item is one. -/
def base? : ClassItem → Option Text
  | base parts => some (join "." parts)
  | keyword _ _ => none

/-- A base has a name, and a value is closed: no keyword of a declaration stands in it, and commas
stand within its parentheses only. -/
def IsWritten : ClassItem → Prop
  | base parts => parts ≠ []
  | keyword _ value => IsClosed value ∧ mark ',' ∉ outside 0 value

instance (item : ClassItem) : Decidable item.IsWritten :=
  match item with
  | base _ => inferInstanceAs (Decidable (_ ≠ _))
  | keyword _ _ => inferInstanceAs (Decidable (_ ∧ _))

end ClassItem

/-- The lexemes of a class header with its keyword and its colon. -/
def classHeader (name : Text) (items : List ClassItem) (trailing : Bool) : List Lexeme :=
  ⟨.classKeyword, "class"⟩ :: ⟨.identifier, name⟩ ::
    (enclosed (items.map ClassItem.lexemes) trailing ++ [mark ':'])

/-! ## Steps -/

namespace Header.BaseState

def read (state : BaseState) (lexemes : List Lexeme) : BaseState :=
  lexemes.foldl (fun state lexeme => state.step lexeme.token) state

@[simp] theorem read_append (state : BaseState) (first second : List Lexeme) :
    state.read (first ++ second) = (state.read first).read second :=
  List.foldl_append

/-- Bases are read from the lexemes of a header. -/
theorem bases_eq (header : List Token) :
    bases header =
      ((⟨0, [], false, false, []⟩ : BaseState).read (lexemesOf header)).flush.names := by
  rw [bases, foldl_lexemesOf]
  · rfl
  · intro state token hkind
    exact if_pos hkind
  · exact fun _ _ => rfl

/-- All that a step can do. -/
theorem step_eq {lexeme : Lexeme} (h : lexeme.isWhole = true) (state : BaseState) :
    state.step lexeme.token =
      if lexeme = mark '(' then { state with depth := state.depth + 1 }
      else if lexeme = mark ')' then
        let closed := if state.depth = 1 then { state.flush with inValue := false } else state
        { closed with depth := closed.depth - 1 }
      else if state.depth ≠ 1 then state
      else if lexeme = mark ',' then { state.flush with inValue := false, afterDot := false }
      else if lexeme = mark '=' then
        { state with current := [], inValue := true, afterDot := false }
      else if lexeme = mark '.' then { state with afterDot := true }
      else if lexeme.kind = .identifier then
        let ready := if !state.current.isEmpty && !state.afterDot then state.flush else state
        { ready with current := ready.current ++ [lexeme.text], afterDot := false }
      else { state.flush with afterDot := false } := by
  have hopen : lexeme.token.text = "(" ↔ lexeme = mark '(' := text_token_iff h (by decide)
  have hclose : lexeme.token.text = ")" ↔ lexeme = mark ')' := text_token_iff h (by decide)
  have hcomma : lexeme.token.text = "," ↔ lexeme = mark ',' := text_token_iff h (by decide)
  have hequals : lexeme.token.text = "=" ↔ lexeme = mark '=' := text_token_iff h (by decide)
  have hdot : lexeme.token.text = "." ↔ lexeme = mark '.' := text_token_iff h (by decide)
  rw [step, if_neg (kind_token_ne h)]
  simp only [hopen, hclose, hcomma, hequals, hdot]
  rfl

/-! ## Steps within an item -/

/-- Reading begins anew at an item, with the names found before it. -/
def fresh (names : List Text) : BaseState :=
  ⟨1, [], false, false, names⟩

/-- A comma completes an item. -/
theorem step_comma {state : BaseState} (hdepth : state.depth = 1) :
    state.step (mark ',').token = fresh state.flush.names := by
  obtain ⟨depth, current, inValue, afterDot, names⟩ := state
  obtain rfl : depth = 1 := hdepth
  rfl

/-- The outer parenthesis completes the last item. -/
theorem step_close {state : BaseState} (hdepth : state.depth = 1) :
    (state.step (mark ')').token).flush.names = state.flush.names := by
  obtain ⟨depth, current, inValue, afterDot, names⟩ := state
  obtain rfl : depth = 1 := hdepth
  rfl

/-- A name that stands first or behind a dot is put to the parts at hand. -/
theorem step_identifier {part : Text} (hwhole : (⟨.identifier, part⟩ : Lexeme).isWhole = true)
    {current : List Text} {afterDot : Bool} (hready : current = [] ∨ afterDot = true)
    (names : List Text) :
    (⟨1, current, false, afterDot, names⟩ : BaseState).step (⟨.identifier, part⟩ : Lexeme).token =
      ⟨1, current ++ [part], false, false, names⟩ := by
  rw [step_eq hwhole]
  rcases hready with rfl | rfl <;> simp [mark]

theorem read_dotted {parts : List Text} (hsome : parts ≠ [])
    (hwhole : ∀ lexeme ∈ dotted parts, lexeme.isWhole = true) {current : List Text}
    {afterDot : Bool} (hready : current = [] ∨ afterDot = true) (names : List Text) :
    (⟨1, current, false, afterDot, names⟩ : BaseState).read (dotted parts) =
      ⟨1, current ++ parts, false, false, names⟩ := by
  fun_induction dotted parts generalizing current afterDot with
  | case1 => exact absurd rfl hsome
  | case2 part => exact step_identifier (hwhole _ (List.mem_singleton_self _)) hready names
  | case3 part rest hrest ih =>
      simp only [List.forall_mem_cons] at hwhole
      obtain ⟨hpart, -, hlater⟩ := hwhole
      have hdot : (⟨1, current ++ [part], false, false, names⟩ : BaseState).step (mark '.').token =
          ⟨1, current ++ [part], false, true, names⟩ := rfl
      have hparts := @ih (fun hnil => hrest hnil) hlater (current ++ [part]) true (.inr rfl)
      rw [List.append_assoc] at hparts
      rw [read, List.foldl_cons, List.foldl_cons, step_identifier hpart hready, hdot]
      exact hparts

/-- The name of a keyword is dropped at the equals sign, where its value begins. -/
theorem step_equals {name : Text} (hwhole : (word name).isWhole = true) (names : List Text) :
    ((fresh names).step (word name).token).step (mark '=').token = ⟨1, [], true, false, names⟩ := by
  unfold word at hwhole ⊢
  split at hwhole
  next hself =>
    rw [if_pos hself, step_eq hwhole]
    rfl
  next hself =>
    rw [if_neg hself, fresh, step_identifier hwhole (.inl rfl)]
    rfl

theorem flush_of_inValue {state : BaseState} (h : state.inValue = true) :
    state.flush.names = state.names := by
  rw [flush, h, Bool.or_true]
  rfl

/-- One lexeme of a value leaves the names as they are. -/
theorem step_inValue {state : BaseState} {lexeme : Lexeme} {depth : Nat}
    (h : lexeme.isWhole = true) (hdepth : state.depth = depth + 1) (hvalue : state.inValue = true)
    (hclosed : ¬ (lexeme = mark ')' ∧ depth = 0)) (hcomma : depth = 0 → lexeme ≠ mark ',') :
    (state.step lexeme.token).depth = lexeme.depthAfter depth + 1 ∧
      (state.step lexeme.token).inValue = true ∧
      (state.step lexeme.token).names = state.names := by
  obtain ⟨_, current, inValue, afterDot, names⟩ := state
  obtain rfl := hdepth
  obtain rfl : inValue = true := hvalue
  rw [step_eq h]
  by_cases hopen : lexeme = mark '('
  · subst hopen
    simp [depthAfter]
  by_cases hclose : lexeme = mark ')'
  · have hpositive : depth ≠ 0 := fun hzero => hclosed ⟨hclose, hzero⟩
    have hdeep : (depth : Int) + 1 ≠ 1 := by omega
    rw [depthAfter, if_neg hopen, if_pos hclose, if_neg hopen, if_pos hclose]
    dsimp only
    rw [if_neg hdeep]
    refine ⟨?_, rfl, rfl⟩
    change (depth : Int) + 1 - 1 = ((depth - 1 : Nat) : Int) + 1
    omega
  rw [depthAfter, if_neg hopen, if_neg hclose, if_neg hopen, if_neg hclose]
  by_cases hinner : depth = 0
  · -- a name at hand is dropped when it ends within a value
    subst hinner
    rw [if_neg (by simp), if_neg (hcomma rfl)]
    split_ifs <;> simp [flush]
  · have hdeep : (depth : Int) + 1 ≠ 1 := by omega
    rw [if_pos hdeep]
    exact ⟨rfl, rfl, rfl⟩

theorem read_inValue {state : BaseState} {lexemes : List Lexeme} {depth behind : Nat}
    (hwhole : ∀ lexeme ∈ lexemes, lexeme.isWhole = true)
    (hnesting : nesting? depth lexemes = some behind) (hcomma : mark ',' ∉ outside depth lexemes)
    (hdepth : state.depth = depth + 1) (hvalue : state.inValue = true) :
    (state.read lexemes).depth = behind + 1 ∧ (state.read lexemes).inValue = true ∧
      (state.read lexemes).names = state.names := by
  induction lexemes generalizing state depth with
  | nil =>
      obtain rfl := Option.some.inj hnesting
      exact ⟨hdepth, hvalue, rfl⟩
  | cons lexeme lexemes ih =>
      obtain ⟨hhere, hlater⟩ := List.forall_mem_cons.mp hwhole
      obtain ⟨hclosed, hnesting⟩ := nesting?_cons hnesting
      obtain ⟨hlexeme, hcomma⟩ := notMem_outside_cons hcomma
      obtain ⟨hdepth, hvalue, hnames⟩ := step_inValue hhere hdepth hvalue hclosed hlexeme
      have hread := ih hlater hnesting hcomma hdepth hvalue
      rw [hnames] at hread
      exact hread

/-! ## Items read -/

/-- An item, once it is complete, has added its base to the names. -/
theorem read_item {item : ClassItem} (hwritten : item.IsWritten)
    (hwhole : ∀ lexeme ∈ item.lexemes, lexeme.isWhole = true) (names : List Text) :
    ((fresh names).read item.lexemes).depth = 1 ∧
      ((fresh names).read item.lexemes).flush.names = names ++ item.base?.toList := by
  cases item with
  | base parts =>
      have hread := @read_dotted _ hwritten hwhole [] false (.inl rfl) names
      rw [List.nil_append] at hread
      rw [ClassItem.lexemes, fresh, hread]
      refine ⟨rfl, ?_⟩
      obtain ⟨part, parts, rfl⟩ := List.exists_cons_of_ne_nil hwritten
      rfl
  | keyword name value =>
      obtain ⟨⟨hbalanced, -⟩, hcomma⟩ := hwritten
      simp only [ClassItem.lexemes, List.forall_mem_cons] at hwhole
      obtain ⟨hname, -, hvalue⟩ := hwhole
      obtain ⟨hdepth, hinValue, hnames⟩ :=
        @read_inValue ⟨1, [], true, false, names⟩ _ _ _ hvalue hbalanced hcomma rfl rfl
      rw [ClassItem.lexemes, read, List.foldl_cons, List.foldl_cons, step_equals hname]
      refine ⟨hdepth, (flush_of_inValue hinValue).trans ?_⟩
      exact hnames.trans (List.append_nil names).symm

/-- The items of a list, once the last one is complete, have added their bases to the names. -/
theorem read_listed {items : List ClassItem} (hwritten : ∀ item ∈ items, item.IsWritten)
    (hwhole : ∀ lexeme ∈ listed (items.map ClassItem.lexemes), lexeme.isWhole = true)
    (names : List Text) :
    ((fresh names).read (listed (items.map ClassItem.lexemes))).depth = 1 ∧
      ((fresh names).read (listed (items.map ClassItem.lexemes))).flush.names =
        names ++ items.filterMap ClassItem.base? := by
  induction items generalizing names with
  | nil => exact ⟨rfl, (List.append_nil names).symm⟩
  | cons item items ih =>
      obtain ⟨hitem, hitems⟩ := List.forall_mem_cons.mp hwritten
      cases items with
      | nil =>
          rw [List.filterMap_cons]
          obtain ⟨hdepth, hnames⟩ := read_item hitem hwhole names
          refine ⟨hdepth, hnames.trans ?_⟩
          cases item.base? <;> rfl
      | cons next items =>
          rw [List.map_cons, List.map_cons, listed_cons_cons, ← List.map_cons] at hwhole ⊢
          obtain ⟨hhere, hlater⟩ := List.forall_mem_append.mp hwhole
          obtain ⟨hdepth, hnames⟩ := read_item hitem hhere names
          rw [read_append, read, List.foldl_cons, step_comma hdepth, hnames, ← read]
          obtain ⟨hdepth, hlisted⟩ := ih hitems (List.forall_mem_cons.mp hlater).2
            (names ++ item.base?.toList)
          refine ⟨hdepth, hlisted.trans ?_⟩
          rw [List.append_assoc, List.filterMap_cons (a := item)]
          cases item.base? <;> rfl

theorem read_enclosed {items : List ClassItem} (hwritten : ∀ item ∈ items, item.IsWritten)
    (trailing : Bool)
    (hwhole : ∀ lexeme ∈ enclosed (items.map ClassItem.lexemes) trailing, lexeme.isWhole = true) :
    ((⟨0, [], false, false, []⟩ : BaseState).read
      (enclosed (items.map ClassItem.lexemes) trailing)).flush.names =
        items.filterMap ClassItem.base? := by
  have hlisted : ∀ lexeme ∈ listed (items.map ClassItem.lexemes), lexeme.isWhole = true :=
    fun lexeme hmem => hwhole lexeme (by simp [enclosed, hmem])
  have hopen : (⟨0, [], false, false, []⟩ : BaseState).step (mark '(').token = fresh [] := rfl
  obtain ⟨hdepth, hnames⟩ := read_listed hwritten hlisted []
  rw [enclosed, read, List.foldl_cons, hopen, ← read, read_append, read_append]
  cases trailing with
  | false => exact (step_close hdepth).trans hnames
  | true =>
      refine (step_close ?_).trans ?_
      · exact congrArg depth (step_comma hdepth)
      · exact (congrArg (fun state => state.flush.names) (step_comma hdepth)).trans hnames

end Header.BaseState

/-! ## Classes -/

namespace ClassItem

theorem isOrdinary_of_mem_dotted {parts : List Text} {lexeme : Lexeme}
    (h : lexeme ∈ dotted parts) : lexeme.IsOrdinary ∧ lexeme ≠ mark '(' ∧ lexeme ≠ mark ')' := by
  fun_induction dotted parts with
  | case1 => cases h
  | case2 part =>
      obtain rfl := List.mem_singleton.mp h
      simp [IsOrdinary, mark]
  | case3 part rest _ ih =>
      rcases List.mem_cons.mp h with rfl | h
      · simp [IsOrdinary, mark]
      · rcases List.mem_cons.mp h with rfl | h
        · decide
        · exact ih h

theorem isClosed_lexemes {item : ClassItem} (h : item.IsWritten) : IsClosed item.lexemes := by
  cases item with
  | base parts =>
      exact ⟨nesting?_of_noMarks (fun _ hmem => (isOrdinary_of_mem_dotted hmem).2) 0,
        fun _ hmem => (isOrdinary_of_mem_dotted hmem).1⟩
  | keyword name value =>
      have hequals : IsClosed [mark '='] := by decide
      exact (isClosed_word name).append (hequals.append h.1)

end ClassItem

/-- A class keyword with a heading that can be read opens a class, wherever it stands. The classes
before it are opened by keywords that were passed. -/
theorem Outline.exists_found {passed ahead scanned : List Token} {keyword : Token} {name : Text}
    (hclass : keyword.kind = .classKeyword)
    (hheading : Class.heading keyword ahead = .ok (name, scanned)) : ∃ earlier found later,
      (ofTokens (passed ++ keyword :: ahead)).classes = earlier ++ found :: later ∧
      found.name = name ∧ found.line = keyword.line ∧ found.bases = Header.bases scanned ∧
      ∀ other ∈ earlier, ∃ token ∈ passed,
        token.kind = .classKeyword ∧ token.line = other.line := by
  have hclasses := (@isOf_ofTokens [] (passed ++ keyword :: ahead) fun _ _ _ => rfl).classes
  have hfound := @TokenPlace.class?_of_heading ⟨passed.reverse, keyword, ahead⟩ _ _ hclass hheading
  rw [TokenPlace.among_append, List.filterMap_append, List.append_nil, List.append_nil,
    TokenPlace.filterMap_among_cons, hfound] at hclasses
  refine ⟨_, _, _, hclasses, rfl, rfl, rfl, fun other hother => ?_⟩
  obtain ⟨place, hplace, hopened⟩ := List.mem_filterMap.mp hother
  have hkind : place.token.kind = .classKeyword := by
    by_contra hkind
    rw [TokenPlace.class?_of_noClass place hkind] at hopened
    cases hopened
  refine ⟨place.token, TokenPlace.token_of_mem_among hplace, hkind, ?_⟩
  rcases TokenPlace.class_or_error hkind with ⟨c, hc, hline, -⟩ | ⟨hnone, -⟩
  · rw [hc] at hopened
    rw [← Option.some.inj hopened, hline]
  · rw [hnone] at hopened
    cases hopened

/-- The bases of a class are the dotted names between the parentheses of its header, in their order,
and nothing of a keyword or its value. The header may stand anywhere in a file at the start of a
line, in any layout that breaks lines within the parentheses only, and anything may follow it. -/
theorem bases_of_written {before rest name : Text} {items : List ClassItem} {trailing : Bool}
    {header : List Fragment} (hbefore : OpensLine before)
    (hitems : ∀ item ∈ items, item.IsWritten)
    (hshown : shownLexemes header = classHeader name items trailing)
    (hapart : staysApart rest header = true) (hkeeps : keepsLine 0 header = true) :
    ∃ earlier found later,
      (Outline.ofText TokenRule.all (before ++ (shownText header ++ rest))).classes =
        earlier ++ found :: later ∧
      (∀ other ∈ earlier, other.line ≤ (lines before).length) ∧
      found.line = (lines before).length + 1 ∧ found.name = name ∧
      found.bases = items.filterMap ClassItem.base? := by
  have hitem : ∀ item ∈ items.map ClassItem.lexemes, IsClosed item :=
    List.forall_mem_map.mpr fun item hmem => ClassItem.isClosed_lexemes (hitems item hmem)
  obtain ⟨hclosed, houtside⟩ := isClosed_enclosed hitem trailing
  obtain ⟨indents, keyword, first, ahead, scanned, htokens, hindents, hkeyword, hfirst, hline,
      hscan, hscanned⟩ := Header.exists_scan_ofText hbefore hapart hkeeps hshown (by decide) nofun
    hclosed (by rw [houtside]; decide)
  have hwhole : ∀ lexeme ∈ enclosed (items.map ClassItem.lexemes) trailing,
      lexeme.isWhole = true := by
    intro lexeme hlexeme
    refine isWhole_of_staysApart hapart lexeme ?_
    rw [hshown]
    simp [classHeader, hlexeme]
  have hclass : keyword.kind = .classKeyword := congrArg Lexeme.kind hkeyword
  have hheading : Class.heading keyword (first :: ahead) = .ok (name, scanned) := by
    have hkind : first.kind = .identifier := congrArg Lexeme.kind hfirst
    have hname : first.text = name := congrArg Lexeme.text hfirst
    rw [Class.heading, if_pos hkind, hscan, hname]
  obtain ⟨earlier, found, later, hclasses, hname, hfoundLine, hbases, hearlier⟩ :=
    Outline.exists_found hclass hheading
  refine ⟨earlier, found, later, ?_, fun other hother => ?_, hfoundLine.trans hline, hname, ?_⟩
  · rw [Outline.ofText, htokens, hclasses]
  · obtain ⟨token, htoken, hkind, hother⟩ := hearlier other hother
    rcases List.mem_append.mp htoken with hbefore | hindent
    · have hbound := TokenStream.line_of_mem_ofLines TokenRule.all 1 (lines before) hbefore
      omega
    · rw [hindents token hindent] at hkind
      cases hkind
  · rw [hbases, Header.BaseState.bases_eq, hscanned,
      Header.BaseState.read_enclosed hitems trailing hwhole]

/-- A header on four lines, with a comment, a dotted base, a keyword whose value is a call, and a
comma behind its last base. -/
def longHeader : List Fragment :=
  [.shown ⟨.classKeyword, "class"⟩, .blank ' ', .shown ⟨.identifier, "US"⟩, .shown (mark '('),
    .blank ' ', .comment " (bases, first", .blank '\n', .blank '\t',
    .shown ⟨.identifier, "holidays"⟩, .shown (mark '.'), .blank ' ', .shown ⟨.identifier, "Base"⟩,
    .blank ' ', .shown (mark ','), .blank '\n', .blank ' ', .shown ⟨.identifier, "metaclass"⟩,
    .blank ' ', .shown (mark '='), .shown ⟨.identifier, "of"⟩, .unread '[',
    .shown ⟨.identifier, "x"⟩, .unread ']', .shown (mark '('), .shown ⟨.identifier, "y"⟩,
    .shown (mark ','), .blank ' ', .shown ⟨.string, "\"),\""⟩, .shown (mark ')'),
    .shown (mark '.'), .shown ⟨.identifier, "z"⟩, .shown (mark ','), .blank '\r', .blank '\n',
    .shown ⟨.identifier, "Mixin"⟩, .shown (mark ','), .shown (mark ')'), .shown (mark ':')]

def longItems : List ClassItem :=
  [.base ["holidays", "Base"],
    .keyword "metaclass" [⟨.identifier, "of"⟩, ⟨.identifier, "x"⟩, mark '(', ⟨.identifier, "y"⟩,
      mark ',', ⟨.string, "\"),\""⟩, mark ')', mark '.', ⟨.identifier, "z"⟩],
    .base ["Mixin"]]

theorem bases_of_written_long :
    shownText longHeader =
      ("class US( # (bases, first\n\tholidays. Base ,\n metaclass =of[x](y, \"),\").z,\r\nMixin,):"
        : Text) ∧
    ∃ earlier found later,
      (Outline.ofText TokenRule.all
        ("import os\n" ++ (shownText longHeader ++ "\n    pass\n"))).classes =
          earlier ++ found :: later ∧
        (∀ other ∈ earlier, other.line ≤ 1) ∧ found.line = 2 ∧ found.name = ("US" : Text) ∧
        found.bases = [("holidays.Base" : Text), "Mixin"] :=
  ⟨by decide +kernel, @bases_of_written "import os\n" "\n    pass\n" "US" longItems true longHeader
    (fun _ hlast => (Option.some.inj hlast).symm) (by decide) (by decide) (by decide +kernel)
    (by decide)⟩

end Almanac.Source
