import Almanac.Proofs.Outcome
import Almanac.Source.Outline
import Mathlib.Data.List.Basic

/-!
# Places of keywords

A token stands at a place, between the tokens that were passed and those that are ahead. What the
keyword at a place comes to can be told from the place alone. A class keyword opens a class, if its
header can be read, or is the cause of an error. A method keyword does the like within a recovered
class, which is the one of the last class keyword that was passed; elsewhere it comes to nothing.
No header goes beyond the next keyword.
-/

namespace Almanac.Source

open Almanac.Data

/-! ## Headers -/

namespace Header

/-- A header goes up to its colon, and no keyword stands in it. -/
theorem scan_spec {line depth : Nat} {tokens header : List Token}
    (h : scan line depth tokens = some header) :
    ∃ colon rest, tokens = header ++ colon :: rest ∧
      ∀ token ∈ header ++ [colon], opensDeclaration token = false := by
  induction tokens generalizing line depth header with
  | nil => cases h
  | cons token rest ih =>
      rw [scan] at h
      split at h
      next => cases h
      next hkeyword =>
        rw [Bool.not_eq_true] at hkeyword
        split at h
        next => cases h
        next =>
          split at h
          next =>
            obtain rfl := Option.some.inj h
            exact ⟨token, rest, rfl, by simpa using hkeyword⟩
          next =>
            obtain ⟨tail, htail, rfl⟩ := Option.map_eq_some_iff.mp h
            obtain ⟨colon, more, rfl, hquiet⟩ := ih htail
            refine ⟨colon, more, rfl, ?_⟩
            rw [List.cons_append, List.forall_mem_cons]
            exact ⟨hkeyword, hquiet⟩

/-- The tokens hold no keyword of a class or a method. -/
def IsQuiet (tokens : List Token) : Prop :=
  ∀ token ∈ tokens, opensDeclaration token = false

theorem IsQuiet.kind_ne {tokens : List Token} (h : IsQuiet tokens) {token : Token}
    (hmem : token ∈ tokens) : token.kind ≠ .classKeyword ∧ token.kind ≠ .defKeyword := by
  simpa [opensDeclaration] using h token hmem

/-- The token that names the declaration of the keyword and its header, or why one of them is
missing. -/
def named (isName : Token → Bool) (noName : HeaderFault) (keyword : Token) :
    List Token → Except HeaderError (Token × List Token)
  | [] => .error ⟨keyword.line, noName⟩
  | name :: rest =>
      if isName name then
        match scan keyword.line 0 rest with
        | none => .error ⟨keyword.line, .unterminated keyword.text⟩
        | some header => .ok (name, header)
      else .error ⟨keyword.line, noName⟩

section

variable {isName : Token → Bool} {noName : HeaderFault} {keyword name : Token}
  {tokens header : List Token} {error : HeaderError}

/-- The name, the header and its colon are the tokens of a declaration behind its keyword, none of
which is a keyword. -/
theorem named_ok (hname : ∀ token, isName token = true → opensDeclaration token = false)
    (h : named isName noName keyword tokens = .ok (name, header)) :
    ∃ opening behind, tokens = opening ++ behind ∧ opening.length = header.length + 2 ∧
      IsQuiet opening := by
  cases tokens with
  | nil => cases h
  | cons first rest =>
      rw [named] at h
      split at h
      next hfirst =>
        split at h
        next => cases h
        next found hscan =>
          obtain ⟨rfl, rfl⟩ := Prod.mk.inj (Except.ok.inj h)
          obtain ⟨colon, behind, rfl, hquiet⟩ := scan_spec hscan
          exact ⟨first :: (found ++ [colon]), behind, by simp, by simp,
            List.forall_mem_cons.mpr ⟨hname first hfirst, hquiet⟩⟩
      next => cases h

theorem line_of_named_error (h : named isName noName keyword tokens = .error error) :
    error.line = keyword.line := by
  unfold named at h
  split at h
  next => rw [← Except.error.inj h]
  next =>
    split at h
    next =>
      split at h
      next => rw [← Except.error.inj h]
      next => cases h
    next => rw [← Except.error.inj h]

end

end Header

open Header (IsQuiet)

namespace Method

theorem read_eq (keyword : Token) (tokens : List Token) :
    read keyword tokens = (Header.named isName .noMethodName keyword tokens).map fun found =>
      (⟨found.1.text, Header.parameters found.2, keyword.line⟩, found.2.length + 2) := by
  cases tokens with
  | nil => rfl
  | cons name rest =>
      rw [read, Header.named]
      split
      next => cases Header.scan keyword.line 0 rest <;> rfl
      next => rfl

theorem read_ok {keyword : Token} {tokens : List Token} {method : Method} {n : Nat}
    (h : read keyword tokens = .ok (method, n)) :
    method.line = keyword.line ∧ ∃ opening behind, tokens = opening ++ behind ∧
      opening.length = n ∧ IsQuiet opening := by
  have hname : ∀ token, isName token = true → Header.opensDeclaration token = false := by
    intro token htoken
    have hkind : token.kind = .identifier ∨ token.kind = .selfKeyword := by
      simpa [isName] using htoken
    rcases hkind with hkind | hkind <;> simp [Header.opensDeclaration, hkind]
  rw [read_eq] at h
  obtain ⟨found, hfound, hread⟩ := exists_of_map_eq_ok h
  obtain ⟨rfl, rfl⟩ := Prod.mk.inj hread
  exact ⟨rfl, Header.named_ok hname hfound⟩

theorem line_of_read_error {keyword : Token} {tokens : List Token} {error : HeaderError}
    (h : read keyword tokens = .error error) : error.line = keyword.line := by
  rw [read_eq] at h
  exact Header.line_of_named_error (map_eq_error.mp h)

end Method

namespace Class

/-- The name and the header of the class whose keyword is given, or why there is none. -/
def heading (keyword : Token) : List Token → Except HeaderError (Text × List Token)
  | [] => .error ⟨keyword.line, .noClassName⟩
  | name :: rest =>
      if name.kind = .identifier then
        match Header.scan keyword.line 0 rest with
        | none => .error ⟨keyword.line, .unterminated keyword.text⟩
        | some header => .ok (name.text, header)
      else .error ⟨keyword.line, .noClassName⟩

/-- The class with the given heading whose body begins the tokens behind its header. -/
def withBody (keyword : Token) (name : Text) (header tail : List Token) : ClassReading :=
  let body := ClassBody.read tail
  { found := {
      name := name
      bases := Header.bases header
      methods := Entries.ofList (body.methods.map fun m => (m.name, m))
      line := keyword.line }
    errors := body.errors
    nested := match tail.drop body.length with
      | [] => []
      | next :: _ => if keyword.column < next.column then [⟨next.line, name⟩] else []
    length := header.length + 2 + body.length }

variable {keyword : Token} {tokens header : List Token} {name : Text} {error : HeaderError}

/-- A class is read by its heading first, and then by the body behind it. -/
theorem read_eq (keyword : Token) (tokens : List Token) :
    read keyword tokens = (heading keyword tokens).map fun found =>
      withBody keyword found.1 found.2 (tokens.drop (found.2.length + 2)) := by
  cases tokens with
  | nil => rfl
  | cons name rest =>
      rw [read, heading]
      split
      next =>
        cases Header.scan keyword.line 0 rest with
        | none => rfl
        | some header => rfl
      next => rfl

theorem heading_eq (keyword : Token) (tokens : List Token) :
    heading keyword tokens =
      (Header.named (·.kind = .identifier) .noClassName keyword tokens).map fun found =>
        (found.1.text, found.2) := by
  cases tokens with
  | nil => rfl
  | cons name rest =>
      rw [heading, Header.named]
      simp only [decide_eq_true_eq]
      split
      next => cases Header.scan keyword.line 0 rest <;> rfl
      next => rfl

theorem heading_ok (h : heading keyword tokens = .ok (name, header)) :
    ∃ opening behind, tokens = opening ++ behind ∧ opening.length = header.length + 2 ∧
      IsQuiet opening := by
  rw [heading_eq] at h
  obtain ⟨found, hfound, hheading⟩ := exists_of_map_eq_ok h
  obtain ⟨-, rfl⟩ := Prod.mk.inj hheading
  refine Header.named_ok (fun token htoken => ?_) hfound
  simp [Header.opensDeclaration, of_decide_eq_true htoken]

theorem line_of_heading_error (h : heading keyword tokens = .error error) :
    error.line = keyword.line := by
  rw [heading_eq] at h
  exact Header.line_of_named_error (map_eq_error.mp h)

theorem heading_of_read_error (h : read keyword tokens = .error error) :
    heading keyword tokens = .error error := by
  rw [read_eq] at h
  exact map_eq_error.mp h

theorem heading_of_read_ok {reading : ClassReading} (h : read keyword tokens = .ok reading) :
    ∃ name header, heading keyword tokens = .ok (name, header) := by
  rw [read_eq] at h
  obtain ⟨found, hfound, -⟩ := exists_of_map_eq_ok h
  exact ⟨found.1, found.2, hfound⟩

end Class

/-! ## Places -/

/-- A place among tokens: those passed before it, the nearest first, the token at it, and those
ahead. -/
structure TokenPlace where
  passed : List Token
  token : Token
  ahead : List Token
deriving DecidableEq, Repr

namespace TokenPlace

/-- The places of tokens in order, when others were passed before and there are more behind. -/
def among (passed behind : List Token) : List Token → List TokenPlace
  | [] => []
  | token :: rest => ⟨passed, token, rest ++ behind⟩ :: among (token :: passed) behind rest

/-- The places of a list of tokens, in order. -/
def all (tokens : List Token) : List TokenPlace :=
  among [] [] tokens

/-- The last class keyword that was passed. -/
def lastClass? : (passed ahead : List Token) → Option TokenPlace
  | [], _ => none
  | token :: passed, ahead =>
      if token.kind = .classKeyword then some ⟨passed, token, ahead⟩
      else lastClass? passed (token :: ahead)

/-- The name and the header of the class that the keyword at the place opens. -/
def heading (place : TokenPlace) : Except HeaderError (Text × List Token) :=
  Class.heading place.token place.ahead

/-- The recovered class that one is in between the tokens: the last class keyword that was passed,
if its header can be read. -/
def classWithin? (passed ahead : List Token) : Option TokenPlace :=
  (lastClass? passed ahead).filter fun outer => outer.heading.isOk

/-- The recovered class that the place lies in. -/
def outer? (place : TokenPlace) : Option TokenPlace :=
  classWithin? place.passed (place.token :: place.ahead)

/-- The places behind the class keyword at the place, up to the next class keyword. -/
def body (place : TokenPlace) : List TokenPlace :=
  (among (place.token :: place.passed) [] place.ahead).takeWhile
    fun inner => inner.token.kind ≠ .classKeyword

/-- The method that the keyword at the place opens. One outside of recovered classes opens none. -/
def method? (place : TokenPlace) : Option Method :=
  if place.token.kind = .defKeyword ∧ place.outer?.isSome then
    match Method.read place.token place.ahead with
    | .ok (method, _) => some method
    | .error _ => none
  else none

/-- The class that the keyword at the place opens. -/
def class? (place : TokenPlace) : Option Class :=
  if place.token.kind = .classKeyword then
    match place.heading with
    | .ok (name, header) => some {
        name := name
        bases := Header.bases header
        methods := Entries.ofList ((place.body.filterMap method?).map fun m => (m.name, m))
        line := place.token.line }
    | .error _ => none
  else none

/-- The error that the keyword at the place is the cause of. -/
def error? (place : TokenPlace) : Option HeaderError :=
  if place.token.kind = .classKeyword then
    match place.heading with
    | .ok _ => none
    | .error error => some error
  else if place.token.kind = .defKeyword ∧ place.outer?.isSome then
    match Method.read place.token place.ahead with
    | .ok _ => none
    | .error error => some error
  else none

/-- What is noted of a class keyword that follows a recovered class and lies deeper. -/
def nested? (place : TokenPlace) : Option NestedClass :=
  if place.token.kind = .classKeyword then
    match place.outer? with
    | none => none
    | some outer =>
        match outer.heading with
        | .ok (name, _) =>
            if outer.token.column < place.token.column then some ⟨place.token.line, name⟩ else none
        | .error _ => none
  else none

/-! ### Lists of places -/

theorem map_token_all (tokens : List Token) : (all tokens).map token = tokens := by
  have hamong : ∀ passed, (among passed [] tokens).map token = tokens := by
    induction tokens with
    | nil => exact fun _ => rfl
    | cons token rest ih => exact fun passed => congrArg (token :: ·) (ih (token :: passed))
  exact hamong []

theorem around_of_mem_among {passed tokens : List Token} {place : TokenPlace}
    (h : place ∈ among passed [] tokens) :
    place.passed.reverse ++ place.token :: place.ahead = passed.reverse ++ tokens := by
  induction tokens generalizing passed with
  | nil => cases h
  | cons token rest ih =>
      rcases List.mem_cons.mp h with rfl | hrest
      · rw [List.append_nil]
      · rw [ih hrest, List.reverse_cons, List.append_assoc]
        rfl

theorem among_append (passed behind first second : List Token) :
    among passed behind (first ++ second) =
      among passed (second ++ behind) first ++ among (first.reverse ++ passed) behind second := by
  induction first generalizing passed with
  | nil => rfl
  | cons token rest ih =>
      rw [List.cons_append, among, among, ih, List.append_assoc, List.reverse_cons,
        List.append_assoc]
      rfl

/-- What comes of the first place goes before what comes of the others. -/
theorem filterMap_among_cons {α : Type} (f : TokenPlace → Option α)
    (passed : List Token) (token : Token) (rest : List Token) :
    (among passed [] (token :: rest)).filterMap f =
      (f ⟨passed, token, rest⟩).toList ++ (among (token :: passed) [] rest).filterMap f := by
  rw [among, List.append_nil, List.filterMap_cons]
  cases f ⟨passed, token, rest⟩ <;> rfl

theorem token_of_mem_among {passed behind tokens : List Token} {place : TokenPlace}
    (h : place ∈ among passed behind tokens) : place.token ∈ tokens := by
  induction tokens generalizing passed with
  | nil => cases h
  | cons token rest ih =>
      rcases List.mem_cons.mp h with rfl | hrest
      · exact List.mem_cons_self
      · exact List.mem_cons_of_mem _ (ih hrest)

/-- The places without class keywords come to nothing if such places do. -/
theorem filterMap_of_noClass {α : Type} {f : TokenPlace → Option α}
    (hf : ∀ place : TokenPlace, place.token.kind ≠ .classKeyword → f place = none)
    (passed behind : List Token) {tokens : List Token}
    (h : ∀ token ∈ tokens, token.kind ≠ .classKeyword) :
    (among passed behind tokens).filterMap f = [] := by
  rw [List.filterMap_eq_nil_iff]
  exact fun place hplace => hf place (h _ (token_of_mem_among hplace))

/-- The places without keywords come to nothing if such places do. -/
theorem filterMap_of_quiet {α : Type} {f : TokenPlace → Option α}
    (hf : ∀ place : TokenPlace, place.token.kind ≠ .classKeyword → place.token.kind ≠ .defKeyword →
      f place = none)
    (passed behind : List Token) {tokens : List Token} (h : IsQuiet tokens) :
    (among passed behind tokens).filterMap f = [] := by
  rw [List.filterMap_eq_nil_iff]
  intro place hplace
  obtain ⟨hclass, hdef⟩ := h.kind_ne (token_of_mem_among hplace)
  exact hf place hclass hdef

/-! ### The class around a place -/

theorem lastClass?_eq_some {passed ahead : List Token} {outer : TokenPlace}
    (h : lastClass? passed ahead = some outer) :
    outer.token.kind = .classKeyword ∧ ∃ between,
      passed = between.reverse ++ outer.token :: outer.passed ∧ outer.ahead = between ++ ahead ∧
        ∀ token ∈ between, token.kind ≠ .classKeyword := by
  induction passed generalizing ahead with
  | nil => cases h
  | cons token passed ih =>
      rw [lastClass?] at h
      split at h
      next hclass =>
        obtain rfl := Option.some.inj h
        exact ⟨hclass, [], rfl, rfl, by simp⟩
      next hclass =>
        obtain ⟨hkind, between, rfl, hahead, hbetween⟩ := ih h
        refine ⟨hkind, between ++ [token], by simp, by simp [hahead], ?_⟩
        exact List.forall_mem_append.mpr ⟨hbetween, by simpa using hclass⟩

theorem outer?_eq_some {place outer : TokenPlace} (h : place.outer? = some outer) :
    outer.token.kind = .classKeyword ∧ (∃ name header, outer.heading = .ok (name, header)) ∧
      ∃ between, place.passed = between.reverse ++ outer.token :: outer.passed ∧
        outer.ahead = between ++ place.token :: place.ahead ∧
          ∀ token ∈ between, token.kind ≠ .classKeyword := by
  obtain ⟨hlast, hread⟩ := Option.filter_eq_some_iff.mp h
  obtain ⟨hkind, hbetween⟩ := lastClass?_eq_some hlast
  refine ⟨hkind, ?_, hbetween⟩
  cases hheading : outer.heading with
  | ok found => exact ⟨found.1, found.2, rfl⟩
  | error error => rw [hheading] at hread; cases hread

/-- A place in a class is one of the class body, unless it has the keyword of the next class. -/
theorem mem_body_of_outer? {place outer : TokenPlace} (h : place.outer? = some outer)
    (hclass : place.token.kind ≠ .classKeyword) : place ∈ outer.body := by
  obtain ⟨-, -, between, hpassed, hahead, hbetween⟩ := outer?_eq_some h
  rw [body, hahead, among_append, among, List.append_nil, List.append_nil, ← hpassed,
    List.takeWhile_append_of_pos]
  · rw [List.takeWhile_cons_of_pos (by simpa using hclass)]
    exact List.mem_append_right _ List.mem_cons_self
  · intro inner hinner
    simpa using hbetween _ (token_of_mem_among hinner)

/-- A keyword in a class lies behind the header of the class. -/
theorem behindHeader {place outer : TokenPlace} (h : place.outer? = some outer)
    (hdef : place.token.kind = .defKeyword) {name : Text} {header : List Token}
    (hheading : outer.heading = .ok (name, header)) :
    outer.passed.length + header.length + 2 < place.passed.length := by
  obtain ⟨-, -, between, hpassed, hahead, -⟩ := outer?_eq_some h
  obtain ⟨opening, behind, hsplit, hlength, hquiet⟩ := Class.heading_ok hheading
  have hle : opening.length ≤ between.length := by
    rw [hahead] at hsplit
    rcases List.append_eq_append_iff.mp hsplit with ⟨more, rfl, hmore⟩ | ⟨more, rfl, -⟩
    · cases more with
      | nil => simp
      | cons first more =>
          -- otherwise the header would hold the keyword
          obtain ⟨rfl, -⟩ := List.cons.inj hmore
          exact absurd hdef (hquiet.kind_ne (by simp)).2
    · simp
  rw [hpassed, List.length_append, List.length_reverse, List.length_cons]
  omega

theorem classWithin?_cons {token : Token} (h : token.kind ≠ .classKeyword)
    (passed ahead : List Token) :
    classWithin? (token :: passed) ahead = classWithin? passed (token :: ahead) := by
  rw [classWithin?, lastClass?, if_neg h, classWithin?]

/-- As long as no class keyword comes, one stays in the same class. -/
theorem classWithin?_append {inside : List Token}
    (h : ∀ token ∈ inside, token.kind ≠ .classKeyword) (passed ahead : List Token) :
    classWithin? (inside.reverse ++ passed) ahead = classWithin? passed (inside ++ ahead) := by
  induction inside generalizing passed with
  | nil => rfl
  | cons token rest ih =>
      obtain ⟨htoken, hrest⟩ := List.forall_mem_cons.mp h
      rw [List.reverse_cons, List.append_assoc, List.singleton_append, ih hrest,
        classWithin?_cons htoken, List.cons_append]

/-- Behind a class keyword one is in the class that it opens, if that can be read. -/
theorem classWithin?_of_heading {passed ahead : List Token} {keyword : Token} {name : Text}
    {header : List Token} (hclass : keyword.kind = .classKeyword)
    (h : heading ⟨passed, keyword, ahead⟩ = .ok (name, header)) :
    classWithin? (keyword :: passed) ahead = some ⟨passed, keyword, ahead⟩ := by
  rw [classWithin?, lastClass?, if_pos hclass, Option.filter_some, h]
  rfl

theorem classWithin?_of_heading_error {passed ahead : List Token} {keyword : Token}
    {error : HeaderError} (hclass : keyword.kind = .classKeyword)
    (h : heading ⟨passed, keyword, ahead⟩ = .error error) :
    classWithin? (keyword :: passed) ahead = none := by
  rw [classWithin?, lastClass?, if_pos hclass, Option.filter_some, h]
  rfl

/-! ### What a place comes to -/

section

variable {place : TokenPlace} {name : Text} {header : List Token} {error : HeaderError}
  {method : Method} {n : Nat}

theorem class?_of_heading (hclass : place.token.kind = .classKeyword)
    (h : place.heading = .ok (name, header)) :
    place.class? = some {
      name := name
      bases := Header.bases header
      methods := Entries.ofList ((place.body.filterMap method?).map fun m => (m.name, m))
      line := place.token.line } := by
  rw [class?, if_pos hclass, h]

theorem class?_of_heading_error (h : place.heading = .error error) : place.class? = none := by
  rw [class?, h]
  split <;> rfl

theorem error?_of_heading (hclass : place.token.kind = .classKeyword)
    (h : place.heading = .ok (name, header)) : place.error? = none := by
  rw [error?, if_pos hclass, h]

theorem error?_of_heading_error (hclass : place.token.kind = .classKeyword)
    (h : place.heading = .error error) : place.error? = some error := by
  rw [error?, if_pos hclass, h]

theorem method?_of_read (hdef : place.token.kind = .defKeyword)
    (houter : place.outer?.isSome = true)
    (h : Method.read place.token place.ahead = .ok (method, n)) : place.method? = some method := by
  rw [method?, if_pos ⟨hdef, houter⟩, h]

theorem method?_of_read_error (h : Method.read place.token place.ahead = .error error) :
    place.method? = none := by
  rw [method?, h]
  split <;> rfl

theorem error?_of_read (hdef : place.token.kind = .defKeyword)
    (h : Method.read place.token place.ahead = .ok (method, n)) : place.error? = none := by
  rw [error?, if_neg (by simp [hdef]), h]
  split <;> rfl

theorem error?_of_read_error (hdef : place.token.kind = .defKeyword)
    (houter : place.outer?.isSome = true)
    (h : Method.read place.token place.ahead = .error error) : place.error? = some error := by
  rw [error?, if_neg (by simp [hdef]), if_pos ⟨hdef, houter⟩, h]

theorem class?_of_noClass (place : TokenPlace) (hclass : place.token.kind ≠ .classKeyword) :
    place.class? = none :=
  if_neg hclass

theorem nested?_of_noClass (place : TokenPlace) (hclass : place.token.kind ≠ .classKeyword) :
    place.nested? = none :=
  if_neg hclass

theorem method?_of_noDef (place : TokenPlace) (hdef : place.token.kind ≠ .defKeyword) :
    place.method? = none :=
  if_neg fun h => hdef h.1

theorem method?_of_outside (houter : place.outer? = none) : place.method? = none := by
  rw [method?, houter, if_neg (by simp)]

theorem error?_of_quiet (place : TokenPlace) (hclass : place.token.kind ≠ .classKeyword)
    (hdef : place.token.kind ≠ .defKeyword) : place.error? = none := by
  rw [error?, if_neg hclass, if_neg fun h => hdef h.1]

theorem error?_of_outside (hclass : place.token.kind ≠ .classKeyword)
    (houter : place.outer? = none) : place.error? = none := by
  rw [error?, if_neg hclass, houter, if_neg (by simp)]

/-- A class keyword opens a class or is the cause of an error. -/
theorem class_or_error (hclass : place.token.kind = .classKeyword) :
    (∃ found, place.class? = some found ∧ found.line = place.token.line ∧ place.error? = none) ∨
      (place.class? = none ∧
        ∃ error, place.error? = some error ∧ error.line = place.token.line) := by
  cases hheading : place.heading with
  | ok found =>
      exact .inl ⟨_, class?_of_heading hclass hheading, rfl, error?_of_heading hclass hheading⟩
  | error error =>
      exact .inr ⟨class?_of_heading_error hheading, error,
        error?_of_heading_error hclass hheading, Class.line_of_heading_error hheading⟩

/-- A method keyword within a recovered class opens a method or is the cause of an error. -/
theorem method_or_error (hdef : place.token.kind = .defKeyword)
    (houter : place.outer?.isSome = true) :
    (∃ method, place.method? = some method ∧ method.line = place.token.line ∧
        place.error? = none) ∨
      (place.method? = none ∧
        ∃ error, place.error? = some error ∧ error.line = place.token.line) := by
  cases hread : Method.read place.token place.ahead with
  | ok found =>
      exact .inl ⟨found.1, method?_of_read hdef houter hread, (Method.read_ok hread).1,
        error?_of_read hdef hread⟩
  | error error =>
      exact .inr ⟨method?_of_read_error hread, error, error?_of_read_error hdef houter hread,
        Method.line_of_read_error hread⟩

theorem nested?_eq_some_iff {note : NestedClass} :
    place.nested? = some note ↔
      place.token.kind = .classKeyword ∧ ∃ outer name header, place.outer? = some outer ∧
        outer.heading = .ok (name, header) ∧ outer.token.column < place.token.column ∧
        note = ⟨place.token.line, name⟩ := by
  constructor
  · intro h
    rw [nested?] at h
    split at h
    next hclass =>
      split at h
      next => cases h
      next outer houter =>
        split at h
        next name header hheading =>
          split at h
          next hcolumn =>
            exact ⟨hclass, outer, name, header, houter, hheading, hcolumn,
              (Option.some.inj h).symm⟩
          next => cases h
        next => cases h
    next => cases h
  · rintro ⟨hclass, outer, name, header, houter, hheading, hcolumn, rfl⟩
    simp only [nested?, hclass, houter, hheading, hcolumn, if_true]

theorem get?_methods {found : Class} (h : place.class? = some found) (key : Text) :
    found.methods.get? key =
      ((place.body.filterMap method?).filter fun m => m.name = key).getLast? := by
  rw [class?] at h
  split at h
  next =>
    split at h
    next =>
      obtain rfl := Option.some.inj h
      simp only [Entries.ofList, Entries.get?_putAll, List.filter_map, List.getLast?_map,
        Option.map_map, Entries.get?, Option.or_none, Function.comp_def, Option.map_id']
    next => cases h
  next => cases h

end

end TokenPlace

end Almanac.Source
