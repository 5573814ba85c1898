import Almanac.Proofs.Source.TokenPlaces

/-!
# Accounts of outlines

The outline of a file accounts for its keywords one by one, for any tokens at all: it holds what the
places of the tokens come to, each once and in order. Reading goes on behind a header that could be
read, which holds no keyword, and behind the keyword of one that could not, so no keyword is passed
over and none is met twice.
-/

namespace Almanac.Source

open Almanac.Data
open Header (IsQuiet)
open TokenPlace

/-! ## Bodies -/

/-- The body takes the tokens up to the next class keyword, and holds what comes of their places. -/
structure ClassBody.IsOf (body : ClassBody) (passed inside behind : List Token) : Prop where
  length : inside.length = body.length
  noClass : ∀ token ∈ inside, token.kind ≠ .classKeyword
  next : ∀ token ∈ behind.head?, token.kind = .classKeyword
  methods : body.methods = (among passed behind inside).filterMap method?
  errors : body.errors = (among passed behind inside).filterMap error?

namespace ClassBody

variable {passed inside behind : List Token} {token : Token} {body : ClassBody}

/-- A token that opens no method lies in the body, too, and what it is the cause of is noted. -/
theorem IsOf.cons (h : body.IsOf (token :: passed) inside behind)
    (hclass : token.kind ≠ .classKeyword)
    (hmethod : method? ⟨passed, token, inside ++ behind⟩ = none) :
    IsOf ⟨body.methods, (error? ⟨passed, token, inside ++ behind⟩).toList ++ body.errors,
      body.length + 1⟩ passed (token :: inside) behind where
  length := by rw [List.length_cons, h.length]
  noClass := List.forall_mem_cons.mpr ⟨hclass, h.noClass⟩
  next := h.next
  methods := by rw [among, List.filterMap_cons_none hmethod, h.methods]
  errors := by
    rw [among, List.filterMap_cons, h.errors]
    cases error? ⟨passed, token, inside ++ behind⟩ <;> rfl

/-- The keyword of a method and its header lie in the body, too; the header holds no keyword, so
nothing in it is passed over. -/
theorem IsOf.behindMethod {opening : List Token} {method : Method}
    (h : body.IsOf (opening.reverse ++ token :: passed) inside behind) (hquiet : IsQuiet opening)
    (hdef : token.kind = .defKeyword)
    (hmethod : method? ⟨passed, token, opening ++ inside ++ behind⟩ = some method)
    (herror : error? ⟨passed, token, opening ++ inside ++ behind⟩ = none) :
    IsOf ⟨method :: body.methods, body.errors, body.length + opening.length + 1⟩ passed
      (token :: (opening ++ inside)) behind where
  length := by rw [List.length_cons, List.length_append, h.length, Nat.add_comm opening.length]
  noClass := by
    rw [List.forall_mem_cons, List.forall_mem_append]
    exact ⟨by simp [hdef], fun token htoken => (hquiet.kind_ne htoken).1, h.noClass⟩
  next := h.next
  methods := by
    rw [among, among_append, List.filterMap_cons_some hmethod, List.filterMap_append,
      filterMap_of_quiet (fun place _ => place.method?_of_noDef) _ _ hquiet, h.methods]
    rfl
  errors := by
    rw [among, among_append, List.filterMap_cons_none herror, List.filterMap_append,
      filterMap_of_quiet error?_of_quiet _ _ hquiet, h.errors]
    rfl

theorem exists_isOf {passed tokens : List Token}
    (hwithin : (classWithin? passed tokens).isSome = true) :
    ∃ inside behind, tokens = inside ++ behind ∧
      (ClassBody.read tokens).IsOf passed inside behind := by
  fun_induction ClassBody.read tokens generalizing passed with
  | case1 => exact ⟨[], [], rfl, rfl, by simp, by simp, rfl, rfl⟩
  | case2 token rest hclass =>
      refine ⟨[], token :: rest, rfl, rfl, by simp, ?_, rfl, rfl⟩
      simpa using hclass
  | case3 token rest hclass hdef error hread body =>
      rename_i ih
      obtain ⟨inside, behind, rfl, h⟩ := ih (by rwa [classWithin?_cons hclass])
      have hmore := h.cons hclass (method?_of_read_error hread)
      have herror : TokenPlace.error? ⟨passed, token, inside ++ behind⟩ = some error :=
        error?_of_read_error hdef hwithin hread
      rw [herror] at hmore
      exact ⟨token :: inside, behind, rfl, hmore⟩
  | case4 token rest hclass hdef method n hread body =>
      rename_i ih
      obtain ⟨-, opening, tail, rfl, rfl, hquiet⟩ := Method.read_ok hread
      have hbody : body = ClassBody.read tail := congrArg ClassBody.read List.drop_left
      rw [List.drop_left] at ih
      have hopening : ∀ token ∈ opening, token.kind ≠ .classKeyword :=
        fun token htoken => (hquiet.kind_ne htoken).1
      obtain ⟨inside, behind, rfl, h⟩ := @ih (opening.reverse ++ token :: passed)
        (by rwa [classWithin?_append hopening, classWithin?_cons hclass])
      rw [← hbody] at h
      rw [← List.append_assoc] at hread hwithin ⊢
      exact ⟨token :: (opening ++ inside), behind, rfl, h.behindMethod hquiet hdef
        (method?_of_read hdef hwithin hread) (error?_of_read hdef hread)⟩
  | case5 token rest hclass hdef body =>
      rename_i ih
      obtain ⟨inside, behind, rfl, h⟩ := ih (by rwa [classWithin?_cons hclass])
      have hmore := h.cons hclass (method?_of_noDef _ hdef)
      rw [error?_of_quiet ⟨passed, token, inside ++ behind⟩ hclass hdef] at hmore
      exact ⟨token :: inside, behind, rfl, hmore⟩

end ClassBody

/-! ## Classes -/

/-- The body of a class are the places up to the next class keyword. -/
theorem TokenPlace.body_eq {passed inside behind : List Token} {keyword : Token}
    (hinside : ∀ token ∈ inside, token.kind ≠ .classKeyword)
    (hnext : ∀ token ∈ behind.head?, token.kind = .classKeyword) :
    body ⟨passed, keyword, inside ++ behind⟩ = among (keyword :: passed) behind inside := by
  rw [body, among_append, List.append_nil, List.takeWhile_append_of_pos]
  · cases behind with
    | nil => simp [among]
    | cons next rest =>
        have hkind : next.kind = .classKeyword := hnext next rfl
        simp [among, hkind]
  · intro inner hinner
    simpa using hinside _ (token_of_mem_among hinner)

/-- What is noted at the first of the tokens ahead. -/
def notedNext (passed : List Token) : List Token → List NestedClass
  | [] => []
  | next :: rest => (nested? ⟨passed, next, rest⟩).toList

/-- Outside of recovered classes nothing is noted. -/
theorem notedNext_of_outside {passed tokens : List Token}
    (h : classWithin? passed tokens = none) : notedNext passed tokens = [] := by
  cases tokens with
  | nil => rfl
  | cons next rest =>
      rw [notedNext, nested?, outer?, h]
      split <;> rfl

/-- With a class comes what is noted at the next class keyword behind it. -/
theorem Class.nested_withBody {outer : TokenPlace} {name : Text}
    {header tail passed behind : List Token}
    (hbehind : tail.drop (ClassBody.read tail).length = behind)
    (hnext : ∀ token ∈ behind.head?, token.kind = .classKeyword)
    (hwithin : classWithin? passed behind = some outer) (h : outer.heading = .ok (name, header)) :
    (Class.withBody outer.token name header tail).nested = notedNext passed behind := by
  rw [Class.withBody, hbehind]
  cases behind with
  | nil => rfl
  | cons next rest =>
      have houter : outer? ⟨passed, next, rest⟩ = some outer := hwithin
      rw [notedNext, nested?, if_pos (hnext next rfl), houter]
      dsimp only
      rw [h]
      dsimp only
      split <;> rfl

/-- The class takes the tokens up to the next class keyword. With it comes what the places of its
body come to, and what is noted at the next class keyword. -/
structure ClassReading.IsOf (reading : ClassReading) (place : TokenPlace)
    (inside behind : List Token) : Prop where
  length : inside.length = reading.length
  noClass : ∀ token ∈ inside, token.kind ≠ .classKeyword
  next : ∀ token ∈ behind.head?, token.kind = .classKeyword
  found : place.class? = some reading.found
  errors : reading.errors = (among (place.token :: place.passed) behind inside).filterMap error?
  nested : reading.nested = notedNext (inside.reverse ++ place.token :: place.passed) behind

theorem Class.exists_isOf {place : TokenPlace} {name : Text} {header : List Token}
    (hclass : place.token.kind = .classKeyword) (h : place.heading = .ok (name, header)) :
    ∃ reading inside behind, Class.read place.token place.ahead = .ok reading ∧
      place.ahead = inside ++ behind ∧ reading.IsOf place inside behind := by
  obtain ⟨passed, keyword, ahead⟩ := place
  dsimp only at hclass ⊢
  have hwithin := classWithin?_of_heading hclass h
  have hread := Class.read_eq keyword ahead
  rw [show Class.heading keyword ahead = .ok (name, header) from h, Except.map] at hread
  obtain ⟨opening, tail, rfl, hlength, hquiet⟩ := Class.heading_ok h
  have hopening : ∀ token ∈ opening, token.kind ≠ .classKeyword :=
    fun token htoken => (hquiet.kind_ne htoken).1
  rw [← hlength, List.drop_left] at hread
  have htail : classWithin? (opening.reverse ++ keyword :: passed) tail =
      some ⟨passed, keyword, opening ++ tail⟩ := by
    rw [classWithin?_append hopening, hwithin]
  obtain ⟨inside, behind, hsplit, hbody⟩ := ClassBody.exists_isOf (Option.isSome_of_eq_some htail)
  have hinside : ∀ token ∈ opening ++ inside, token.kind ≠ .classKeyword :=
    List.forall_mem_append.mpr ⟨hopening, hbody.noClass⟩
  refine ⟨_, opening ++ inside, behind, hread, by rw [hsplit, List.append_assoc], ?_, hinside,
    hbody.next, ?_, ?_, ?_⟩
  · rw [List.length_append, hbody.length, hlength]
    rfl
  · have hmethods : (body ⟨passed, keyword, opening ++ tail⟩).filterMap method? =
        (ClassBody.read tail).methods := by
      rw [hsplit, ← List.append_assoc, body_eq hinside hbody.next, among_append,
        List.filterMap_append,
        filterMap_of_quiet (fun place _ => place.method?_of_noDef) _ _ hquiet, ← hsplit,
        hbody.methods]
      rfl
    rw [class?_of_heading hclass h, hmethods]
    rfl
  · rw [among_append, List.filterMap_append, filterMap_of_quiet error?_of_quiet _ _ hquiet,
      List.nil_append]
    exact hbody.errors
  · have houter : classWithin? ((opening ++ inside).reverse ++ keyword :: passed) behind =
        some ⟨passed, keyword, opening ++ tail⟩ := by
      rw [classWithin?_append hinside, List.append_assoc, ← hsplit, hwithin]
    have hdrop : tail.drop (ClassBody.read tail).length = behind := by
      conv_lhs => rw [hsplit, ← hsplit, ← hbody.length, hsplit]
      exact List.drop_left
    exact Class.nested_withBody hdrop hbody.next houter h

/-! ## Outlines -/

/-- The outline holds what comes of the places, in order. What is noted at the first of them belongs
to the class before. -/
structure Outline.IsOf (outline : Outline) (passed tokens : List Token) : Prop where
  classes : outline.classes = (among passed [] tokens).filterMap class?
  errors : outline.errors = (among passed [] tokens).filterMap error?
  nested : notedNext passed tokens ++ outline.nested = (among passed [] tokens).filterMap nested?

namespace Outline

variable {passed rest : List Token} {token : Token} {outline : Outline}

/-- A token that opens no class, with nothing noted behind it. -/
theorem IsOf.cons (h : outline.IsOf (token :: passed) rest)
    (hclass : class? ⟨passed, token, rest⟩ = none)
    (houtside : classWithin? (token :: passed) rest = none) :
    IsOf { outline with errors := (error? ⟨passed, token, rest⟩).toList ++ outline.errors } passed
      (token :: rest) where
  classes := by
    rw [filterMap_among_cons, hclass, h.classes]
    rfl
  errors := by rw [filterMap_among_cons, h.errors]
  nested := by
    rw [filterMap_among_cons, ← h.nested, notedNext_of_outside houtside]
    rfl

/-- The keyword of a recovered class, and what the class takes behind it. -/
theorem IsOf.behindClass {reading : ClassReading} {inside behind : List Token}
    (hreading : reading.IsOf ⟨passed, token, inside ++ behind⟩ inside behind)
    (h : outline.IsOf (inside.reverse ++ token :: passed) behind)
    (herror : error? ⟨passed, token, inside ++ behind⟩ = none) :
    IsOf ⟨reading.found :: outline.classes, reading.errors ++ outline.errors,
      reading.nested ++ outline.nested⟩ passed (token :: (inside ++ behind)) where
  classes := by
    rw [filterMap_among_cons, hreading.found, among_append, List.filterMap_append,
      filterMap_of_noClass class?_of_noClass _ _ hreading.noClass, h.classes]
    rfl
  errors := by
    rw [filterMap_among_cons, herror, among_append, List.filterMap_append, List.append_nil,
      ← hreading.errors, h.errors]
    rfl
  nested := by
    rw [filterMap_among_cons, among_append, List.filterMap_append,
      filterMap_of_noClass nested?_of_noClass _ _ hreading.noClass, ← h.nested, hreading.nested]
    rfl

/-- Reading goes on at a class keyword or outside of recovered classes, so the outline of what is
ahead does not depend on what was passed. -/
theorem isOf_ofTokens {passed tokens : List Token}
    (hwithin : ∀ token ∈ tokens.head?, token.kind ≠ .classKeyword →
      classWithin? passed tokens = none) :
    (Outline.ofTokens tokens).IsOf passed tokens := by
  fun_induction Outline.ofTokens tokens generalizing passed with
  | case1 => exact ⟨rfl, rfl, rfl⟩
  | case2 token rest hclass error hread outline =>
      rename_i ih
      have hheading : heading ⟨passed, token, rest⟩ = .error error :=
        Class.heading_of_read_error hread
      have houtside := classWithin?_of_heading_error hclass hheading
      have h := (ih fun _ _ _ => houtside).cons (class?_of_heading_error hheading) houtside
      rwa [error?_of_heading_error hclass hheading] at h
  | case3 token rest hclass reading hread outline =>
      rename_i ih
      obtain ⟨name, header, hheading⟩ := Class.heading_of_read_ok hread
      have hheading : heading ⟨passed, token, rest⟩ = .ok (name, header) := hheading
      obtain ⟨reading', inside, behind, hread', hsplit, hreading⟩ :=
        Class.exists_isOf hclass hheading
      obtain rfl := Except.ok.inj (hread.symm.trans hread')
      obtain rfl : rest = inside ++ behind := hsplit
      have houtline : outline = Outline.ofTokens behind := by
        change Outline.ofTokens ((inside ++ behind).drop reading.length) = _
        rw [← hreading.length, List.drop_left]
      rw [← hreading.length, List.drop_left] at ih
      have h := @ih (inside.reverse ++ token :: passed) fun next hnext hkind =>
        absurd (hreading.next next hnext) hkind
      rw [houtline]
      exact IsOf.behindClass hreading h (error?_of_heading hclass hheading)
  | case4 token rest hclass ih =>
      have hnone := hwithin token rfl hclass
      have houtside : classWithin? (token :: passed) rest = none := by
        rw [classWithin?_cons hclass, hnone]
      have h := (ih fun _ _ _ => houtside).cons (class?_of_noClass _ hclass) houtside
      have hquiet : TokenPlace.error? ⟨passed, token, rest⟩ = none :=
        error?_of_outside hclass hnone
      rwa [hquiet] at h

end Outline

/-- What an outline accounts for: each token is at one place, and each place comes to what its
keyword opens or is the cause of, in the order of the tokens. -/
structure Outline.Accounts (tokens : List Token) (outline : Outline) : Prop where
  places : (all tokens).map token = tokens
  around : ∀ place ∈ all tokens, place.passed.reverse ++ place.token :: place.ahead = tokens
  classes : outline.classes = (all tokens).filterMap class?
  errors : outline.errors = (all tokens).filterMap error?
  nested : outline.nested = (all tokens).filterMap nested?
  /-- A class keyword opens one class or is the cause of one error, and never both. -/
  ofClass : ∀ place ∈ all tokens, place.token.kind = .classKeyword →
    (∃ found, place.class? = some found ∧ found.line = place.token.line ∧ place.error? = none) ∨
      (place.class? = none ∧ ∃ error, place.error? = some error ∧ error.line = place.token.line)
  /-- A method keyword within a recovered class lies behind its header and in its body, and opens
  one method or is the cause of one error. -/
  ofMethod : ∀ place ∈ all tokens, place.token.kind = .defKeyword →
    ∀ outer, place.outer? = some outer →
      place ∈ outer.body ∧
      (∀ name header, outer.heading = .ok (name, header) →
        outer.passed.length + header.length + 2 < place.passed.length) ∧
      ((∃ method, place.method? = some method ∧ method.line = place.token.line ∧
          place.error? = none) ∨
        (place.method? = none ∧ ∃ error, place.error? = some error ∧
          error.line = place.token.line))
  stray : ∀ place ∈ all tokens, place.token.kind = .defKeyword → place.outer? = none →
    place.method? = none ∧ place.error? = none
  others : ∀ place ∈ all tokens, Header.opensDeclaration place.token = false →
    place.class? = none ∧ place.method? = none ∧ place.error? = none ∧ place.nested? = none
  /-- A nested class is noted at a class keyword that is the next one behind a recovered class and
  lies deeper. -/
  nestedIff : ∀ place ∈ all tokens, ∀ note, place.nested? = some note ↔
    place.token.kind = .classKeyword ∧ ∃ outer name header, place.outer? = some outer ∧
      outer.heading = .ok (name, header) ∧ outer.token.column < place.token.column ∧
      note = ⟨place.token.line, name⟩
  /-- Of the methods of one name in the body of a class the last counts. -/
  methods : ∀ place ∈ all tokens, ∀ found, place.class? = some found → ∀ name,
    found.methods.get? name =
      ((place.body.filterMap method?).filter fun method => method.name = name).getLast?

/-- The outline of any tokens accounts for all of their keywords. -/
theorem Outline.ofTokens_accounts (tokens : List Token) :
    Accounts tokens (Outline.ofTokens tokens) := by
  have hof : (Outline.ofTokens tokens).IsOf [] tokens := isOf_ofTokens fun _ _ _ => rfl
  constructor
  case places => exact map_token_all tokens
  case around => exact fun place => around_of_mem_among
  case classes => exact hof.classes
  case errors => exact hof.errors
  case nested => rw [all, ← hof.nested, notedNext_of_outside rfl, List.nil_append]
  case ofClass => exact fun place _ => class_or_error
  case ofMethod =>
    exact fun place _ hdef outer houter =>
      ⟨mem_body_of_outer? houter (by simp [hdef]), fun _ _ => behindHeader houter hdef,
        method_or_error hdef (Option.isSome_of_eq_some houter)⟩
  case stray =>
    exact fun place _ hdef houter =>
      ⟨method?_of_outside houter, error?_of_outside (by simp [hdef]) houter⟩
  case others =>
    intro place _ hquiet
    have hkind : place.token.kind ≠ .classKeyword ∧ place.token.kind ≠ .defKeyword := by
      simpa [Header.opensDeclaration] using hquiet
    exact ⟨place.class?_of_noClass hkind.1, place.method?_of_noDef hkind.2,
      place.error?_of_quiet hkind.1 hkind.2, place.nested?_of_noClass hkind.1⟩
  case nestedIff => exact fun place _ note => nested?_eq_some_iff
  case methods => exact fun place _ found hfound name => get?_methods hfound name

end Almanac.Source
