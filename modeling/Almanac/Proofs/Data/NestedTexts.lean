import Almanac.Proofs.Data.JsonLexemes
import Almanac.Proofs.Outcome
import Almanac.Proofs.Splits

/-!
# Texts that are nested too deep

Reading is given up where a list or an object begins within as many others as can be open at once.
Nothing else is told in this way, neither a lexeme that cannot be read nor one that is not due. So
the text is nested too deep exactly if such a place is come to in it.
-/

namespace Almanac.Data.Json

def ReadProblem.isTooDeep : ReadProblem → Bool
  | tooDeep _ => true
  | _ => false

/-! ## Lexemes -/

/-- The lexeme is no problem of nesting. -/
def Lexeme.IsShallow (lexeme : Lexeme) : Prop :=
  ∀ error, lexeme = .fault error → error.problem.isTooDeep = false

theorem isTooDeep_of_textBody {start position : Nat} {t : Text} {error : ReadError}
    (h : textBody start position t = .error error) : error.problem.isTooDeep = false := by
  fun_induction textBody start position t with
  | case1 | case3 | case6 | case7 | case10 | case11 | case13 =>
      obtain rfl := Except.error.inj h
      rfl
  | case2 | case5 | case9 | case15 => cases h
  | case4 | case8 =>
      rename_i hmore ih
      obtain rfl := Except.error.inj h
      exact ih hmore
  | case14 =>
      rename_i hmore _ ih
      obtain rfl := Except.error.inj h
      exact ih hmore
  -- an escape that stands alone is followed by the rest in each of the cases
  | case12 | case16 | case17 =>
      rename_i ih
      simp +zetaDelta only at h
      split at h
      next hmore =>
        obtain rfl := Except.error.inj h
        exact ih hmore
      next => cases h

theorem isShallow_of_number? {position : Nat} {t : Text} {found : Lexeme × Nat}
    (h : number? position t = some found) : found.1.IsShallow := by
  intro error herror
  rcases number?_cases h with ⟨n, hn, -⟩ | ⟨x, hx⟩ | ⟨digits, hfault⟩
  · cases hn.symm.trans herror
  · cases hx.symm.trans herror
  · obtain rfl := Lexeme.fault.inj (hfault.symm.trans herror)
    rfl

theorem isShallow_lexeme (position : Nat) (c : Char) (rest : Text) :
    (lexeme position c rest).1.IsShallow := by
  unfold lexeme
  split
  next =>
    split
    next => rintro error ⟨⟩
    next problem htext =>
      intro error herror
      obtain rfl := Lexeme.fault.inj herror
      exact isTooDeep_of_textBody htext
  next =>
    split
    next found hword =>
      obtain ⟨word, -, hfound⟩ := List.exists_of_findSome?_eq_some hword
      obtain ⟨more, -, rfl⟩ := Option.map_eq_some_iff.mp hfound
      rintro error ⟨⟩
    next =>
      split
      next found hnumber => exact isShallow_of_number? hnumber
      next => rintro error ⟨⟩

theorem isShallow_of_mem_lexemes {position : Nat} {t : Text} {p : Placed}
    (h : p ∈ lexemes position t) : p.lexeme.IsShallow :=
  forall_lexemes (by rintro error ⟨⟩) isShallow_lexeme p h

/-! ## The machine -/

namespace ReadState

/-- How many lists and objects are open. -/
def depth (state : ReadState) : Nat :=
  match state.due with
  | .firstItem | .firstName | .name _ | .colon _ _ => state.opened.length + 1
  | _ => state.opened.length

/-- A list or an object begins where a value is due. -/
def Opens (state : ReadState) (p : Placed) : Prop :=
  (state.due = .value ∨ state.due = .firstItem) ∧ (p.lexeme = .mark '[' ∨ p.lexeme = .mark '\x7b')

/-- The step is given up because of the nesting. -/
def GivesUp (found : Except ReadError ReadState) : Prop :=
  ∃ error, found = .error error ∧ error.problem.isTooDeep = true

variable {room : Nat}

@[simp] theorem givesUp_nest {opened : List Frame} {position : Nat} {shape : Text} {due : Due} :
    GivesUp (nest room opened position shape due) ↔ levels room ≤ opened.length := by
  unfold nest GivesUp
  split_ifs with hfree
  · simpa using hfree
  · simpa [ReadProblem.isTooDeep] using hfree

theorem givesUp_openValue {opened : List Frame} {p : Placed} (hp : p.lexeme.IsShallow) :
    GivesUp (openValue room opened p) ↔
      (p.lexeme = .mark '[' ∨ p.lexeme = .mark '\x7b') ∧ levels room ≤ opened.length := by
  unfold openValue
  split
  next v hv => simp [GivesUp, hv]
  next c hc =>
    split_ifs with hlist hobject
    · simp [hc, hlist]
    · simp [hc, hobject]
    · simp [GivesUp, hc, hlist, hobject, ReadProblem.isTooDeep]
  next error herror => simp [GivesUp, herror, hp error herror]
  next hfinish => simp [GivesUp, hfinish, ReadProblem.isTooDeep]

theorem not_givesUp_openName {opened : List Frame} {members : List (WideText × Json)} {p : Placed}
    (hp : p.lexeme.IsShallow) : ¬ GivesUp (openName opened members p) := by
  unfold openName
  split
  next => simp [GivesUp]
  next error herror =>
    split
    next => simp [GivesUp, ReadProblem.isTooDeep]
    next => simp [GivesUp, hp error herror]
  next => simp [GivesUp, ReadProblem.isTooDeep]

@[simp] theorem not_givesUp_close (opened : List Frame) (value : Json) (p : Placed) :
    ¬ GivesUp (close opened value p) := by
  unfold close
  split <;> split <;> simp [GivesUp, ReadProblem.isTooDeep]

/-- A step is given up where a list or an object is one too many. -/
theorem givesUp_step_iff (state : ReadState) {p : Placed} (hp : p.lexeme.IsShallow) :
    GivesUp (state.step room p) ↔ state.Opens p ∧ levels room ≤ state.depth := by
  obtain ⟨due, opened⟩ := state
  unfold step Opens depth
  cases due with
  | value => simp [givesUp_openValue hp]
  | firstItem =>
      dsimp only
      split
      next hend => simp [GivesUp, hend]
      next => simp [givesUp_openValue hp]
  | firstName =>
      dsimp only
      split
      next => simp [GivesUp]
      next => simp [not_givesUp_openName hp]
  | name members => simp [not_givesUp_openName hp]
  | colon members name =>
      dsimp only
      split <;> simp [GivesUp, ReadProblem.isTooDeep]
  | separator value => simp
  | nothing value => simp [GivesUp]

end ReadState

/-- The text is nested deeper than there is room for: after some of its lexemes as many lists and
objects are open as can be, and one more begins. No lexeme is looked at behind a byte order mark. -/
def IsTooDeep (room : Nat) (t : Text) : Prop :=
  t.head? ≠ some '\uFEFF' ∧ ∃ before p behind state, lexemes 0 t = before ++ p :: behind ∧
    before.foldlM (ReadState.step room) ReadState.start = .ok state ∧
    state.Opens p ∧ levels room ≤ state.depth

/-- Reading tells that a text is nested too deep just if it is. -/
theorem isTooDeep_iff (room : Nat) (t : Text) : IsTooDeep room t ↔
    ∃ error, read room t = .error error ∧ error.problem.isTooDeep = true := by
  symm
  unfold IsTooDeep read
  split
  next => simp [ReadProblem.isTooDeep]
  next hmark =>
    have hhead : t.head? ≠ some '\uFEFF' := fun hhead => by
      obtain ⟨rest, rfl⟩ := List.head?_eq_some_iff.mp hhead
      exact hmark rest rfl
    rw [and_iff_right hhead]
    constructor
    · rintro ⟨error, herror, hdeep⟩
      split at herror
      next problem hrun =>
        obtain rfl := Except.error.inj herror
        obtain ⟨before, p, behind, hsplit, state, hbefore, hstep⟩ := foldlM_eq_error_iff.mp hrun
        have hp : p ∈ lexemes 0 t := hsplit ▸ List.mem_append_right before List.mem_cons_self
        exact ⟨before, p, behind, state, hsplit, hbefore,
          (state.givesUp_step_iff (isShallow_of_mem_lexemes hp)).mp ⟨_, hstep, hdeep⟩⟩
      next =>
        split at herror
        next => cases herror
        next =>
          obtain rfl := Except.error.inj herror
          cases hdeep
    · rintro ⟨before, p, behind, state, hsplit, hbefore, hopens⟩
      have hp : p ∈ lexemes 0 t := hsplit ▸ List.mem_append_right before List.mem_cons_self
      obtain ⟨error, hstep, hdeep⟩ :=
        (state.givesUp_step_iff (isShallow_of_mem_lexemes hp)).mpr hopens
      refine ⟨error, ?_, hdeep⟩
      rw [foldlM_eq_error_iff.mpr ⟨before, p, behind, hsplit, state, hbefore, hstep⟩]

/-! ## Brackets alone -/

@[simp] theorem lexeme_bracket (position : Nat) (rest : Text) :
    lexeme position '[' rest = (.mark '[', 1) := by
  simp [lexeme, word?, words, Text.after?, number?, wholePart?, Text.isPlainDigit]

theorem lexemes_brackets (position n : Nat) : ∃ marks,
    lexemes position (List.replicate n '[') = marks ++ [⟨position + n, .finish⟩] ∧
      marks.length = n ∧ ∀ p ∈ marks, p.lexeme = .mark '[' := by
  induction n generalizing position with
  | zero => exact ⟨[], by rw [List.replicate_zero, lexemes.eq_def]; rfl, rfl, by simp⟩
  | succ n ih =>
      obtain ⟨marks, hmarks, hlength, hlexemes⟩ := ih (position + 1)
      refine ⟨⟨position, .mark '['⟩ :: marks, ?_, by rw [List.length_cons, hlength],
        List.forall_mem_cons.mpr ⟨rfl, hlexemes⟩⟩
      rw [List.replicate_succ, lexemes.eq_def]
      simp [isSpace, hmarks, Nat.add_assoc, Nat.add_comm 1 n]

/-- Every bracket opens one list more, as long as there is room. -/
theorem foldlM_marks {room : Nat} {marks : List Placed}
    (hmarks : ∀ p ∈ marks, p.lexeme = .mark '[') (opened : List Frame)
    (hfree : opened.length + marks.length < levels room) :
    ∃ more, marks.foldlM (ReadState.step room) ⟨.firstItem, opened⟩ = .ok ⟨.firstItem, more⟩ ∧
      more.length = opened.length + marks.length := by
  induction marks generalizing opened with
  | nil => exact ⟨opened, rfl, rfl⟩
  | cons p marks ih =>
      obtain ⟨hp, hrest⟩ := List.forall_mem_cons.mp hmarks
      rw [List.length_cons] at hfree
      have hstep : ReadState.step room ⟨.firstItem, opened⟩ p =
          .ok ⟨.firstItem, .list [] :: opened⟩ := by
        have hopen : opened.length + 1 < levels room := by omega
        simp [ReadState.step, ReadState.openValue, ReadState.nest, hp, hopen]
      obtain ⟨more, hmore, hlength⟩ := ih hrest (.list [] :: opened)
        (by rw [List.length_cons]; omega)
      refine ⟨more, ?_, by rw [hlength, List.length_cons, List.length_cons]; omega⟩
      rw [List.foldlM_cons, hstep]
      exact hmore

/-- However much room there is, brackets alone can be nested too deep. -/
theorem isTooDeep_brackets {room n : Nat} (h : levels room < n) :
    IsTooDeep room (List.replicate n '[') := by
  obtain ⟨marks, hmarks, hlength, hlexemes⟩ := lexemes_brackets 0 n
  have hpos : 0 < levels room := Nat.add_pos_left (by decide) room
  obtain ⟨first, rest, rfl⟩ : ∃ first rest, marks = first :: rest :=
    List.exists_cons_of_length_pos (by omega)
  obtain ⟨hfirst, hrest⟩ := List.forall_mem_cons.mp hlexemes
  rw [List.length_cons] at hlength
  -- the brackets that there is room for, and the first one that there is none for
  have hfront : (rest.take (levels room - 1)).length = levels room - 1 := by
    rw [List.length_take]
    omega
  obtain ⟨p, behind, hbehind⟩ : ∃ p behind, rest.drop (levels room - 1) = p :: behind :=
    List.exists_cons_of_length_pos (by rw [List.length_drop]; omega)
  have hp : p.lexeme = .mark '[' :=
    hrest p (List.drop_subset _ _ (hbehind ▸ List.mem_cons_self))
  have hfree : ([] : List Frame).length + (rest.take (levels room - 1)).length < levels room := by
    rw [hfront]
    simpa using hpos
  obtain ⟨opened, hrun, hopened⟩ :=
    foldlM_marks (fun q hq => hrest q (List.take_subset _ _ hq)) [] hfree
  have hstart : ReadState.step room ReadState.start first = .ok ⟨.firstItem, []⟩ := by
    simp [ReadState.step, ReadState.start, ReadState.openValue, ReadState.nest, hfirst, hpos]
  refine ⟨by cases n <;> simp [List.replicate_succ], first :: rest.take (levels room - 1), p,
    behind ++ [⟨0 + n, .finish⟩], ⟨.firstItem, opened⟩, ?_, ?_, ⟨.inr rfl, .inl hp⟩, ?_⟩
  · rw [hmarks]
    conv_lhs => rw [← List.take_append_drop (levels room - 1) rest, hbehind]
    simp
  · rw [List.foldlM_cons, hstart]
    exact hrun
  · simp only [ReadState.depth, hopened, hfront, List.length_nil]
    omega

end Almanac.Data.Json
