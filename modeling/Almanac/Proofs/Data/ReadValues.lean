import Almanac.Proofs.Data.JsonRoundTrip
import Almanac.Proofs.Outcome

/-!
# Values that are read

Whatever text a value is read from, its integers are short enough to be read again, its objects
have each name once, and it goes no deeper than there is room for. This holds of every lexeme, and
the machine keeps it for the value it stands behind and for all that is open, so it holds at the
end. A value that is read and has neither floating-point numbers nor halves of surrogate pairs is
plain.
-/

namespace Almanac.Data.Json

/-- The integers of the value are short enough to be read, its objects have each name once, and it
goes no deeper than so many levels. -/
inductive Readable : Nat → Json → Prop
  | null {levels : Nat} : Readable levels .null
  | bool {levels : Nat} (b : Bool) : Readable levels (.bool b)
  | int {levels : Nat} (n : Int) (hdigits : (Text.ofNat n.natAbs).length ≤ 4300) :
      Readable levels (.int n)
  | real {levels : Nat} (x : Binary64) : Readable levels (.real x)
  | str {levels : Nat} (t : WideText) : Readable levels (.str t)
  | arr {levels : Nat} (items : List Json) (hitems : ∀ item ∈ items, Readable levels item) :
      Readable (levels + 1) (.arr items)
  | obj {levels : Nat} (members : List (WideText × Json)) (hnames : (Entries.keys members).Nodup)
      (hmembers : ∀ member ∈ members, Readable levels member.2) :
      Readable (levels + 1) (.obj members)

/-- No floating-point number and no half of a surrogate pair is in the value. -/
inductive Settled : Json → Prop
  | null : Settled .null
  | bool (b : Bool) : Settled (.bool b)
  | int (n : Int) : Settled (.int n)
  | str (t : Text) : Settled (.str t)
  | arr (items : List Json) (hitems : ∀ item ∈ items, Settled item) : Settled (.arr items)
  | obj (members : List (WideText × Json))
      (htexts : ∀ member ∈ members, ∃ name : Text, member.1 = name)
      (hmembers : ∀ member ∈ members, Settled member.2) : Settled (.obj members)

theorem Readable.plain {levels : Nat} {value : Json} (hreadable : Readable levels value)
    (hsettled : Settled value) : Plain levels value := by
  induction hreadable with
  | null => exact .null
  | bool b => exact .bool b
  | int n hdigits => exact .int n hdigits
  | real x => cases hsettled
  | str t =>
      cases hsettled with
      | str t => exact .str t
  | arr items _ ih =>
      cases hsettled with
      | arr _ hitems => exact .arr items fun item hitem => ih item hitem (hitems item hitem)
  | obj members hnames _ ih =>
      cases hsettled with
      | obj _ htexts hmembers =>
          refine .obj members hnames htexts fun member hmember => ?_
          exact ih member hmember (hmembers member hmember)

theorem Readable.names {levels : Nat} {members : List (WideText × Json)}
    (h : Readable levels (.obj members)) : (Entries.keys members).Nodup := by
  cases h with
  | obj _ hnames _ => exact hnames

/-! ## Lexemes -/

/-- A value that the lexeme holds is readable. -/
def Lexeme.Readable (lexeme : Lexeme) : Prop :=
  ∀ value levels, lexeme = .scalar value → Json.Readable levels value

theorem readable_of_number? {position : Nat} {t : Text} {found : Lexeme × Nat}
    (h : number? position t = some found) : found.1.Readable := by
  rintro value levels hvalue
  rcases number?_cases h with ⟨n, hn, hdigits⟩ | ⟨x, hx⟩ | ⟨digits, hfault⟩
  · obtain rfl := Lexeme.scalar.inj (hn.symm.trans hvalue)
    exact .int n hdigits
  · obtain rfl := Lexeme.scalar.inj (hx.symm.trans hvalue)
    exact .real x
  · cases hfault.symm.trans hvalue

theorem readable_of_word? {t : Text} {found : Lexeme × Nat} (h : word? t = some found) :
    found.1.Readable := by
  have hwords : ∀ word ∈ words, ∀ levels, Json.Readable levels word.2 := by
    simp only [words, List.mem_cons, List.not_mem_nil, or_false]
    rintro word (rfl | rfl | rfl | rfl | rfl | rfl) levels
    · exact .null
    · exact .bool true
    · exact .bool false
    all_goals exact .real _
  obtain ⟨word, hword, hfound⟩ := List.exists_of_findSome?_eq_some h
  obtain ⟨rest, -, rfl⟩ := Option.map_eq_some_iff.mp hfound
  rintro value levels hvalue
  obtain rfl : word.2 = value := by simpa using hvalue
  exact hwords word hword levels

theorem readable_lexeme (position : Nat) (c : Char) (rest : Text) :
    (lexeme position c rest).1.Readable := by
  unfold lexeme
  split
  next =>
    split
    next t n _ =>
      rintro value levels hvalue
      obtain rfl : Json.str t = value := by simpa using hvalue
      exact .str t
    next => rintro value levels ⟨⟩
  next =>
    split
    next found hword => exact readable_of_word? hword
    next =>
      split
      next found hnumber => exact readable_of_number? hnumber
      next => rintro value levels ⟨⟩

theorem readable_of_mem_lexemes {position : Nat} {t : Text} {p : Placed}
    (h : p ∈ lexemes position t) : p.lexeme.Readable :=
  forall_lexemes (by rintro value levels ⟨⟩) readable_lexeme p h

/-! ## The machine -/

/-- Putting a readable member keeps an object readable. -/
theorem Readable.put {levels : Nat} {members : List (WideText × Json)}
    (hmembers : Readable levels (.obj members)) (name : WideText) {value : Json}
    (hvalue : Readable (levels - 1) value) :
    Readable levels (.obj (Entries.put members name value)) := by
  cases hmembers with
  | obj _ hnames hmembers =>
      refine .obj _ (Entries.nodup_keys_put hnames name value) fun member hmember => ?_
      rcases Entries.mem_put hmember with rfl | hold
      · exact hvalue
      · exact hmembers member hold

theorem Settled.put {members : List (WideText × Json)} (hmembers : Settled (.obj members))
    (name : Text) {value : Json} (hvalue : Settled value) :
    Settled (.obj (Entries.put members name value)) := by
  cases hmembers with
  | obj _ htexts hmembers =>
      refine .obj _ (fun member hmember => ?_) fun member hmember => ?_
      · rcases Entries.mem_put hmember with rfl | hold
        · exact ⟨name, rfl⟩
        · exact htexts member hold
      · rcases Entries.mem_put hmember with rfl | hold
        · exact hvalue
        · exact hmembers member hold

theorem Readable.concat {levels : Nat} {items : List Json} (hitems : Readable levels (.arr items))
    {value : Json} (hvalue : Readable (levels - 1) value) :
    Readable levels (.arr (items ++ [value])) := by
  cases hitems with
  | arr _ hitems =>
      refine .arr _ fun item hitem => ?_
      rcases List.mem_append.mp hitem with hold | hnew
      · exact hitems item hold
      · obtain rfl := List.mem_singleton.mp hnew
        exact hvalue

/-- What an open list or object holds so far is readable where so many levels are free. -/
def Frame.Readable (free : Nat) : Frame → Prop
  | .list items => Json.Readable free (.arr items)
  | .object members _ => Json.Readable free (.obj members)

def Due.Readable (free : Nat) : Due → Prop
  | .name members | .colon members _ => Json.Readable free (.obj members)
  | .separator found | .nothing found => Json.Readable free found
  | .firstItem | .firstName => 0 < free
  | .value => True

variable {room : Nat}

/-- How many levels are free within what is open. -/
def free (room : Nat) (opened : List Frame) : Nat :=
  levels room - opened.length

@[simp] theorem free_cons (room : Nat) (frame : Frame) (outer : List Frame) :
    free room (frame :: outer) = free room outer - 1 := by
  rw [free, List.length_cons, Nat.sub_add_eq, free]

/-- Every open list and object is readable where it stands. -/
def AreReadable (room : Nat) : List Frame → Prop
  | [] => True
  | frame :: outer => frame.Readable (free room outer) ∧ AreReadable room outer

/-- What was read so far is readable. -/
structure ReadState.Readable (room : Nat) (state : ReadState) : Prop where
  due : state.due.Readable (free room state.opened)
  opened : AreReadable room state.opened

namespace ReadState

theorem Readable.nest {opened : List Frame} {position : Nat} {shape : Text} {due : Due}
    {next : ReadState} (hopened : AreReadable room opened)
    (hdue : 0 < free room opened → due.Readable (free room opened))
    (hnext : nest room opened position shape due = .ok next) : next.Readable room := by
  unfold ReadState.nest at hnext
  split_ifs at hnext with hfree
  obtain rfl := Except.ok.inj hnext
  exact ⟨hdue (Nat.sub_pos_of_lt hfree), hopened⟩

theorem Readable.openValue {opened : List Frame} {p : Placed} {next : ReadState}
    (hopened : AreReadable room opened) (hlexeme : p.lexeme.Readable)
    (hnext : openValue room opened p = .ok next) : next.Readable room := by
  unfold ReadState.openValue at hnext
  split at hnext
  next value hvalue =>
    obtain rfl := Except.ok.inj hnext
    exact ⟨hlexeme value _ hvalue, hopened⟩
  next c _ =>
    split_ifs at hnext
    · exact Readable.nest hopened id hnext
    · exact Readable.nest hopened id hnext
  next => cases hnext
  next => cases hnext

theorem Readable.openName {opened : List Frame} {members : List (WideText × Json)} {p : Placed}
    {next : ReadState} (hopened : AreReadable room opened)
    (hmembers : Json.Readable (free room opened) (.obj members))
    (hnext : openName opened members p = .ok next) : next.Readable room := by
  unfold ReadState.openName at hnext
  split at hnext
  next =>
    obtain rfl := Except.ok.inj hnext
    exact ⟨hmembers, hopened⟩
  next => split at hnext <;> cases hnext
  next => cases hnext

/-- A value goes to the end of the list that it closes or is followed in, and under its name in
an object. -/
theorem Readable.close {opened : List Frame} {value : Json} {p : Placed} {next : ReadState}
    (hopened : AreReadable room opened) (hvalue : Json.Readable (free room opened) value)
    (hnext : close opened value p = .ok next) : next.Readable room := by
  unfold ReadState.close at hnext
  split at hnext
  next =>
    split at hnext
    next =>
      obtain rfl := Except.ok.inj hnext
      exact ⟨hvalue, hopened⟩
    next => cases hnext
  next items outer =>
    obtain ⟨hitems, houter⟩ := hopened
    rw [free_cons] at hvalue
    have hmore : Json.Readable (free room outer) (.arr (items ++ [value])) := hitems.concat hvalue
    split at hnext
    next =>
      obtain rfl := Except.ok.inj hnext
      exact ⟨trivial, hmore, houter⟩
    next =>
      obtain rfl := Except.ok.inj hnext
      exact ⟨hmore, houter⟩
    next => cases hnext
  next members name outer =>
    obtain ⟨hmembers, houter⟩ := hopened
    rw [free_cons] at hvalue
    have hmore : Json.Readable (free room outer) (.obj (Entries.put members name value)) :=
      hmembers.put name hvalue
    split at hnext
    next =>
      obtain rfl := Except.ok.inj hnext
      exact ⟨hmore, houter⟩
    next =>
      obtain rfl := Except.ok.inj hnext
      exact ⟨hmore, houter⟩
    next => cases hnext

theorem readable_empty {free : Nat} (hfree : 0 < free) :
    Json.Readable free (.arr []) ∧ Json.Readable free (.obj []) := by
  cases free with
  | zero => exact absurd hfree (Nat.lt_irrefl 0)
  | succ free => exact ⟨.arr [] (by simp), .obj [] (by simp [Entries.keys]) (by simp)⟩

theorem Readable.step {state next : ReadState} {p : Placed} (h : state.Readable room)
    (hlexeme : p.lexeme.Readable) (hnext : state.step room p = .ok next) : next.Readable room := by
  obtain ⟨due, opened⟩ := state
  obtain ⟨hdue, hopened⟩ := h
  unfold ReadState.step at hnext
  cases due with
  | value => exact Readable.openValue hopened hlexeme hnext
  | firstItem =>
      obtain ⟨hlist, -⟩ := readable_empty hdue
      dsimp only at hnext
      split at hnext
      next =>
        obtain rfl := Except.ok.inj hnext
        exact ⟨hlist, hopened⟩
      next =>
        have hmore : AreReadable room (.list [] :: opened) := ⟨hlist, hopened⟩
        exact Readable.openValue hmore hlexeme hnext
  | firstName =>
      obtain ⟨-, hobject⟩ := readable_empty hdue
      dsimp only at hnext
      split at hnext
      next =>
        obtain rfl := Except.ok.inj hnext
        exact ⟨hobject, hopened⟩
      next => exact Readable.openName hopened hobject hnext
  | name members => exact Readable.openName hopened hdue hnext
  | colon members name =>
      dsimp only at hnext
      split at hnext
      next =>
        obtain rfl := Except.ok.inj hnext
        exact ⟨trivial, hdue, hopened⟩
      next => cases hnext
  | separator value => exact Readable.close hopened hdue hnext
  | nothing value =>
      obtain rfl := Except.ok.inj hnext
      exact ⟨hdue, hopened⟩

end ReadState

/-- More levels do as well. -/
theorem Readable.mono {fewer more : Nat} (hle : fewer ≤ more) {value : Json}
    (h : Readable fewer value) : Readable more value := by
  induction h generalizing more with
  | null => exact .null
  | bool b => exact .bool b
  | int n hdigits => exact .int n hdigits
  | real x => exact .real x
  | str t => exact .str t
  | arr items _ ih =>
      obtain ⟨more, rfl⟩ := Nat.exists_eq_add_of_lt hle
      exact .arr items fun item hitem => ih item hitem (by omega)
  | obj members hnames _ ih =>
      obtain ⟨more, rfl⟩ := Nat.exists_eq_add_of_lt hle
      exact .obj members hnames fun member hmember => ih member hmember (by omega)

/-- Whatever was read can be read again: its integers are short, no name repeats, and there is room
for it. -/
theorem readable_of_read {t : Text} {value : Json} (h : read room t = .ok value) :
    Readable (levels room) value := by
  have hstart : ReadState.start.Readable room := ⟨trivial, trivial⟩
  unfold read at h
  split at h
  next => cases h
  next =>
    split at h
    next => cases h
    next state hstate =>
      have hlast : state.Readable room := of_foldlM_eq_ok hstate hstart
        fun p hp _ _ hbefore hnext => hbefore.step (readable_of_mem_lexemes hp) hnext
      have hdue := hlast.due
      split at h
      next found hfound =>
        obtain rfl := Except.ok.inj h
        rw [hfound] at hdue
        exact hdue.mono (Nat.sub_le _ _)
      next => cases h

end Almanac.Data.Json
