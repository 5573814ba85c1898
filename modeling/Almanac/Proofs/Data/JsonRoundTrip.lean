import Almanac.Proofs.Data.JsonLexemes

/-!
# Reading what was written

The indented form of a value is read as the value. The machine that reads lexemes goes from a
state in which a value is due to the state behind that value, whatever is open around it; this is
an induction over the value, in which the items of a list and the members of an object are passed
one after the other. Values with floating-point numbers, with halves of surrogate pairs, with
integers too long to be read, or with a name twice in an object are left out, and a value must not
go deeper than there is room for.
-/

namespace Almanac

/-- The characters of a wide text, without the halves of surrogate pairs in it. -/
def WideText.characters (t : WideText) : Text :=
  t.filterMap CodePoint.char?

namespace WideText

@[simp]
theorem characters_nil : characters [] = [] := rfl

@[simp]
theorem characters_char_cons (c : Char) (t : WideText) :
    characters (.char c :: t) = c :: t.characters := rfl

@[simp]
theorem characters_append (s t : WideText) :
    characters (s ++ t) = s.characters ++ t.characters :=
  List.filterMap_append

@[simp]
theorem characters_wide (t : Text) : characters t.wide = t := by
  induction t with
  | nil => rfl
  | cons c t ih => exact congrArg (c :: ·) ih

end WideText

namespace Data.Json

open Almanac.Text (isPlainDigit)
open Almanac.WideText (characters)

/-- No floating-point number and no half of a surrogate pair is in the value, its integers are short
enough to be read, its objects have each name once, and it goes no deeper than so many levels. -/
inductive Plain : Nat → Json → Prop
  | null {levels : Nat} : Plain levels .null
  | bool {levels : Nat} (b : Bool) : Plain levels (.bool b)
  | int {levels : Nat} (n : Int) (hdigits : (Text.ofNat n.natAbs).length ≤ 4300) :
      Plain levels (.int n)
  | str {levels : Nat} (t : Text) : Plain levels (.str t)
  | arr {levels : Nat} (items : List Json) (hitems : ∀ item ∈ items, Plain levels item) :
      Plain (levels + 1) (.arr items)
  | obj {levels : Nat} (members : List (WideText × Json)) (hnames : (Entries.keys members).Nodup)
      (htexts : ∀ member ∈ members, ∃ name : Text, member.1 = name)
      (hmembers : ∀ member ∈ members, Plain levels member.2) : Plain (levels + 1) (.obj members)

variable {room : Nat}

/-! ## Passing over a piece of text -/

/-- The state after the lexemes of the rest of a text that begins at the position. -/
def readFrom (room : Nat) (state : ReadState) (position : Nat) (t : Text) :
    Except ReadError ReadState :=
  (lexemes position t).foldlM (ReadState.step room) state

/-- Wherever the text begins, reading it with the given rest behind it comes to the second state
where the rest begins. -/
def Passes (room : Nat) (state next : ReadState) (t rest : Text) : Prop :=
  ∀ position, ∃ later, readFrom room state position (t ++ rest) = readFrom room next later rest

theorem Passes.refl (state : ReadState) (rest : Text) : Passes room state state [] rest :=
  fun position => ⟨position, rfl⟩

theorem Passes.trans {first second third : ReadState} {s t rest : Text}
    (hs : Passes room first second s (t ++ rest)) (ht : Passes room second third t rest) :
    Passes room first third (s ++ t) rest := by
  intro position
  obtain ⟨middle, hmiddle⟩ := hs position
  obtain ⟨later, hlater⟩ := ht middle
  exact ⟨later, by rw [List.append_assoc, hmiddle, hlater]⟩

theorem passes_space {c : Char} (hc : isSpace c = true) (state : ReadState) (rest : Text) :
    Passes room state state [c] rest := by
  intro position
  refine ⟨position + 1, ?_⟩
  rw [readFrom, List.singleton_append, lexemes.eq_def]
  simp [hc, readFrom]

/-- One lexeme takes the reading from state to state. -/
theorem passes_lexeme {state next : ReadState} {c : Char} (more : Text) {rest : Text}
    {found : Lexeme} (hc : isSpace c = false)
    (hfound : ∀ position, lexeme position c (more ++ rest) = (found, (c :: more).length))
    (hstep : ∀ position, ReadState.step room state ⟨position, found⟩ = .ok next) :
    Passes room state next (c :: more) rest := by
  intro position
  refine ⟨position + (c :: more).length, ?_⟩
  rw [readFrom, List.cons_append, lexemes.eq_def]
  dsimp only
  rw [if_neg (by simp [hc]), hfound]
  dsimp only
  rw [List.foldlM_cons, hstep, List.length_cons, Nat.add_sub_cancel, List.drop_left]
  rfl

/-- A bracket, a comma or a colon is a lexeme of its own. -/
def isMark (c : Char) : Bool :=
  c ∈ ['[', ']', '\x7b', '\x7d', ',', ':']

theorem lexeme_of_isMark {c : Char} (hc : isMark c = true) (position : Nat) (rest : Text) :
    isSpace c = false ∧ lexeme position c rest = (.mark c, 1) := by
  simp only [isMark, List.mem_cons, List.not_mem_nil, or_false, decide_eq_true_eq] at hc
  rcases hc with rfl | rfl | rfl | rfl | rfl | rfl <;> exact ⟨rfl, rfl⟩

theorem passes_mark {state : ReadState} (next : ReadState) {c : Char} (hc : isMark c = true)
    (hstep : ∀ position, ReadState.step room state ⟨position, .mark c⟩ = .ok next) (rest : Text) :
    Passes room state next [c] rest :=
  passes_lexeme [] (lexeme_of_isMark hc 0 rest).1
    (fun position => (lexeme_of_isMark hc position rest).2) hstep

theorem passes_text {state : ReadState} (next : ReadState) {t : Text}
    (hstep : ∀ position, ReadState.step room state ⟨position, .scalar (.str t)⟩ = .ok next)
    (rest : Text) : Passes room state next (characters (writtenText t)) rest := by
  rw [writtenText_wide, WideText.characters_wide]
  refine passes_lexeme (escapedText t ++ ['"']) rfl (fun position => ?_) hstep
  rw [List.append_assoc, List.singleton_append, lexeme_writtenText]
  simp

theorem passes_newLine (state : ReadState) (level : Nat) (rest : Text) :
    Passes room state state (newLine level) rest := by
  have hspaces : ∀ n, Passes room state state (List.replicate n ' ') rest := by
    intro n
    induction n with
    | zero => exact .refl state rest
    | succ n ih => exact (passes_space rfl state _).trans ih
  exact (passes_space rfl state _).trans (hspaces (2 * level))

/-! ## Passing over a value -/

/-- The characters of the indented form. -/
def form (level : Nat) (value : Json) : Text :=
  characters (indented level value)

def formOfItems (level : Nat) (items : List Json) : Text :=
  characters (indentedItems level items)

def formOfMembers (level : Nat) (members : List (WideText × Json)) : Text :=
  characters (indentedMembers level members)

theorem form_arr_cons (level : Nat) (item : Json) (items : List Json) :
    form level (.arr (item :: items)) =
      ['['] ++ (newLine (level + 1) ++ (form (level + 1) item ++
        (formOfItems (level + 1) items ++ (newLine level ++ [']'])))) := by
  simp [form, formOfItems, indented]

theorem form_obj_cons (level : Nat) (name : WideText) (value : Json)
    (members : List (WideText × Json)) :
    form level (.obj ((name, value) :: members)) =
      ['\x7b'] ++ (newLine (level + 1) ++ (characters (writtenText name) ++ ((": " : Text) ++
        (form (level + 1) value ++ (formOfMembers (level + 1) members ++
          (newLine level ++ ['\x7d'])))))) := by
  simp [form, formOfMembers, indented]

theorem formOfItems_cons (level : Nat) (item : Json) (items : List Json) :
    formOfItems level (item :: items) =
      [','] ++ (newLine level ++ (form level item ++ formOfItems level items)) := by
  simp [form, formOfItems, indentedItems]

theorem formOfMembers_cons (level : Nat) (name : WideText) (value : Json)
    (members : List (WideText × Json)) :
    formOfMembers level ((name, value) :: members) =
      [','] ++ (newLine level ++ (characters (writtenText name) ++ ((": " : Text) ++
        (form level value ++ formOfMembers level members)))) := by
  simp [form, formOfMembers, indentedMembers]

/-- The written form begins with a character that opens a value. -/
theorem exists_form_eq_cons (level : Nat) {levels : Nat} {value : Json}
    (hplain : Plain levels value) : ∃ c more, form level value = c :: more ∧ OpensValue c := by
  cases hplain with
  | null => exact ⟨'n', _, by rw [form, indented]; rfl, by simp [OpensValue, isSpace]⟩
  | bool b =>
      cases b with
      | true => exact ⟨'t', _, by rw [form, indented]; rfl, by simp [OpensValue, isSpace]⟩
      | false => exact ⟨'f', _, by rw [form, indented]; rfl, by simp [OpensValue, isSpace]⟩
  | int n hdigits =>
      have hends : EndsNumber [] := fun _ _ h => by cases h
      obtain ⟨c, more, hwritten, hopens, -⟩ := lexeme_ofInt 0 n hends hdigits
      exact ⟨c, more, by rw [form, indented, WideText.characters_wide, hwritten], hopens⟩
  | str t =>
      exact ⟨'"', _, by rw [form, indented, writtenText]; rfl, by simp [OpensValue, isSpace]⟩
  | arr items hitems =>
      cases items with
      | nil => exact ⟨'[', _, by rw [form, indented]; rfl, by simp [OpensValue, isSpace]⟩
      | cons item rest =>
          exact ⟨'[', _, form_arr_cons level item rest, by simp [OpensValue, isSpace]⟩
  | obj members hnames htexts hmembers =>
      cases members with
      | nil => exact ⟨'\x7b', _, by rw [form, indented]; rfl, by simp [OpensValue, isSpace]⟩
      | cons member rest =>
          exact ⟨'\x7b', _, form_obj_cons level member.1 member.2 rest,
            by simp [OpensValue, isSpace]⟩

/-- Wherever a value is due and so many levels are free, its indented form is passed over, and the
value is read. -/
def Reads (room levels : Nat) (value : Json) : Prop :=
  ∀ level opened rest, EndsNumber rest → opened.length + levels ≤ Json.levels room →
    Passes room ⟨.value, opened⟩ ⟨.separator value, opened⟩ (form level value) rest

theorem passes_word {opened : List Frame} {c : Char} (more : Text) {rest : Text} {value : Json}
    (hc : isSpace c = false)
    (hfound : ∀ position, lexeme position c (more ++ rest) = (.scalar value, (c :: more).length)) :
    Passes room ⟨.value, opened⟩ ⟨.separator value, opened⟩ (c :: more) rest :=
  passes_lexeme more hc hfound fun _ => rfl

/-- A list can be opened where a level is free. -/
theorem passes_list {opened : List Frame} (hfree : opened.length < Json.levels room)
    (rest : Text) : Passes room ⟨.value, opened⟩ ⟨.firstItem, opened⟩ ['['] rest := by
  refine passes_mark _ rfl (fun position => ?_) rest
  exact if_pos hfree

theorem passes_object {opened : List Frame} (hfree : opened.length < Json.levels room)
    (rest : Text) : Passes room ⟨.value, opened⟩ ⟨.firstName, opened⟩ ['\x7b'] rest := by
  refine passes_mark _ rfl (fun position => ?_) rest
  exact if_pos hfree

/-- A mark stands for the character that it is. -/
theorem eq_of_lexeme_eq_mark {position : Nat} {c d : Char} {rest : Text} {n : Nat}
    (h : lexeme position c rest = (.mark d, n)) : c = d := by
  unfold lexeme at h
  split at h
  next => split at h <;> cases h
  next =>
    split at h
    next found hword =>
      obtain ⟨word, -, hword⟩ := List.exists_of_findSome?_eq_some hword
      obtain ⟨t, -, rfl⟩ := Option.map_eq_some_iff.mp hword
      cases h
    next =>
      split at h
      next found hnumber =>
        obtain ⟨whole, -, hnumber⟩ := Option.map_eq_some_iff.mp hnumber
        subst h
        dsimp only at hnumber
        split_ifs at hnumber <;> cases hnumber
      next => cases h; rfl

/-- Where the first item of a list is due and one follows, a value of the list is due. -/
theorem readFrom_firstItem (opened : List Frame) (position : Nat) {c : Char} {more : Text}
    (hc : OpensValue c) :
    readFrom room ⟨.firstItem, opened⟩ position (c :: more) =
      readFrom room ⟨.value, .list [] :: opened⟩ position (c :: more) := by
  unfold readFrom
  rw [lexemes.eq_def]
  dsimp only
  rw [if_neg (by simp [hc.1])]
  have hmark : ∀ n, lexeme position c more ≠ (.mark ']', n) :=
    fun n h => hc.2.1 (eq_of_lexeme_eq_mark h)
  rcases hfound : lexeme position c more with ⟨found, n⟩
  rw [hfound] at hmark
  have hstep : ReadState.step room ⟨.firstItem, opened⟩ ⟨position, found⟩ =
      ReadState.step room ⟨.value, .list [] :: opened⟩ ⟨position, found⟩ := by
    dsimp only [ReadState.step]
    split
    next => exact absurd rfl (hmark n)
    next => rfl
  rw [List.foldlM_cons, List.foldlM_cons, hstep]

/-! ## Lists -/

theorem endsNumber_newLine (level : Nat) (rest : Text) : EndsNumber (newLine level ++ rest) :=
  endsNumber_cons (by decide) _

theorem endsNumber_formOfItems (level : Nat) (items : List Json) {rest : Text}
    (hrest : EndsNumber rest) : EndsNumber (formOfItems level items ++ rest) := by
  cases items with
  | nil => exact hrest
  | cons item items =>
      rw [formOfItems_cons]
      exact endsNumber_cons (by decide) _

/-- The items behind one of a list are read up to the end of the list. -/
theorem passes_items (level outer : Nat) {levels : Nat} {opened : List Frame}
    (hfree : opened.length + 1 + levels ≤ Json.levels room) {items : List Json}
    (hitems : ∀ item ∈ items, Reads room levels item) (known : List Json) (value : Json)
    (rest : Text) :
    Passes room ⟨.separator value, .list known :: opened⟩
      ⟨.separator (.arr (known ++ value :: items)), opened⟩
      (formOfItems level items ++ (newLine outer ++ [']'])) rest := by
  induction items generalizing known value with
  | nil => exact (passes_newLine _ outer _).trans (passes_mark _ rfl (fun _ => rfl) rest)
  | cons item items ih =>
      have hmore := ih (fun more hmore => hitems more (List.mem_cons_of_mem _ hmore))
        (known ++ [value]) item
      rw [List.append_assoc, List.singleton_append] at hmore
      have hends : EndsNumber (formOfItems level items ++ (newLine outer ++ [']']) ++ rest) := by
        rw [List.append_assoc, List.append_assoc]
        exact endsNumber_formOfItems level items (endsNumber_newLine outer _)
      rw [formOfItems_cons]
      simp only [List.append_assoc]
      refine (passes_mark _ (c := ',') rfl (fun _ => rfl) _).trans ?_
      refine (passes_newLine _ level _).trans ?_
      exact (hitems item List.mem_cons_self level (.list (known ++ [value]) :: opened) _ hends
        hfree).trans hmore

theorem reads_arr {levels : Nat} {items : List Json} (hplain : ∀ item ∈ items, Plain levels item)
    (hitems : ∀ item ∈ items, Reads room levels item) : Reads room (levels + 1) (.arr items) := by
  intro level opened rest hrest hfree
  have hopen : ∀ rest, Passes room ⟨.value, opened⟩ ⟨.firstItem, opened⟩ ['['] rest :=
    passes_list (by omega)
  cases items with
  | nil => exact (hopen _).trans (passes_mark _ rfl (fun _ => rfl) rest)
  | cons item items =>
      have hends : EndsNumber
          (formOfItems (level + 1) items ++ (newLine level ++ [']']) ++ rest) := by
        rw [List.append_assoc, List.append_assoc]
        exact endsNumber_formOfItems (level + 1) items (endsNumber_newLine level _)
      have hwithin : opened.length + 1 + levels ≤ Json.levels room := by omega
      have hvalue := hitems item List.mem_cons_self (level + 1) (.list [] :: opened) _ hends hwithin
      have hmore := passes_items (level + 1) level hwithin
        (fun more hmore => hitems more (List.mem_cons_of_mem _ hmore)) [] item rest
      rw [form_arr_cons]
      refine (hopen _).trans ?_
      refine (passes_newLine _ (level + 1) _).trans ?_
      intro position
      obtain ⟨later, hlater⟩ := (hvalue.trans hmore) position
      refine ⟨later, ?_⟩
      obtain ⟨c, more, hwritten, hopens⟩ :=
        exists_form_eq_cons (level + 1) (hplain item List.mem_cons_self)
      rw [hwritten, List.cons_append, List.cons_append] at hlater ⊢
      -- where a list begins, its end or its first item may come
      rw [readFrom_firstItem opened position hopens]
      exact hlater

/-! ## Objects -/

theorem endsNumber_formOfMembers (level : Nat) (members : List (WideText × Json)) {rest : Text}
    (hrest : EndsNumber rest) : EndsNumber (formOfMembers level members ++ rest) := by
  cases members with
  | nil => exact hrest
  | cons member members =>
      rw [formOfMembers_cons]
      exact endsNumber_cons (by decide) _

/-- A colon and a space stand between the name of a member and its value. -/
theorem passes_colon (opened : List Frame) (known : List (WideText × Json)) (name : WideText)
    (rest : Text) :
    Passes room ⟨.colon known name, opened⟩ ⟨.value, .object known name :: opened⟩ (": " : Text)
      rest :=
  (passes_mark _ (c := ':') rfl (fun _ => rfl) _).trans (passes_space (c := ' ') rfl _ rest)

/-- A member whose name is none of those before it goes to the end of the object. -/
theorem put_of_nodup {known more : List (WideText × Json)} {name : WideText} {value : Json}
    (hnames : (Entries.keys (known ++ (name, value) :: more)).Nodup) :
    Entries.put known name value = known ++ [(name, value)] := by
  refine Entries.put_of_get?_eq_none ((Entries.get?_eq_none_iff known name).mpr ?_) value
  simp only [Entries.keys, List.map_append, List.nodup_append] at hnames
  exact fun hmem => hnames.2.2 name hmem name (by simp) rfl

/-- The members behind one of an object are read up to the end of the object. -/
theorem passes_members (level outer : Nat) {levels : Nat} {opened : List Frame}
    (hfree : opened.length + 1 + levels ≤ Json.levels room) {members : List (WideText × Json)}
    (htexts : ∀ member ∈ members, ∃ name : Text, member.1 = name)
    (hmembers : ∀ member ∈ members, Reads room levels member.2) (known : List (WideText × Json))
    (name : WideText) (value : Json)
    (hnames : (Entries.keys (known ++ (name, value) :: members)).Nodup) (rest : Text) :
    Passes room ⟨.separator value, .object known name :: opened⟩
      ⟨.separator (.obj (known ++ (name, value) :: members)), opened⟩
      (formOfMembers level members ++ (newLine outer ++ ['\x7d'])) rest := by
  induction members generalizing known name value with
  | nil =>
      have hput := put_of_nodup hnames
      rw [← hput]
      exact (passes_newLine _ outer _).trans (passes_mark _ rfl (fun _ => rfl) rest)
  | cons member members ih =>
      obtain ⟨second, item⟩ := member
      obtain ⟨secondText, hsecond⟩ := htexts _ List.mem_cons_self
      obtain rfl : second = secondText := hsecond
      -- the name is new, so the member goes to the end of those that are known
      have hput := put_of_nodup hnames
      have hmore := ih (fun more hmore => htexts more (List.mem_cons_of_mem _ hmore))
        (fun more hmore => hmembers more (List.mem_cons_of_mem _ hmore))
        (known ++ [(name, value)]) secondText item (by simpa using hnames)
      rw [List.append_assoc, List.singleton_append] at hmore
      have hends : EndsNumber
          (formOfMembers level members ++ (newLine outer ++ ['\x7d']) ++ rest) := by
        rw [List.append_assoc, List.append_assoc]
        exact endsNumber_formOfMembers level members (endsNumber_newLine outer _)
      rw [formOfMembers_cons]
      simp only [List.append_assoc]
      refine (passes_mark ⟨.name (known ++ [(name, value)]), opened⟩ (c := ',') rfl
        (fun _ => by rw [← hput]; rfl) _).trans ?_
      refine (passes_newLine _ level _).trans ?_
      refine (passes_text _ (fun _ => rfl) _).trans ?_
      refine (passes_colon opened _ _ _).trans ?_
      exact (hmembers _ List.mem_cons_self level
        (.object (known ++ [(name, value)]) secondText :: opened) _ hends hfree).trans hmore

theorem reads_obj {levels : Nat} {members : List (WideText × Json)}
    (hnames : (Entries.keys members).Nodup)
    (htexts : ∀ member ∈ members, ∃ name : Text, member.1 = name)
    (hmembers : ∀ member ∈ members, Reads room levels member.2) :
    Reads room (levels + 1) (.obj members) := by
  intro level opened rest hrest hfree
  have hopen : ∀ rest, Passes room ⟨.value, opened⟩ ⟨.firstName, opened⟩ ['\x7b'] rest :=
    passes_object (by omega)
  cases members with
  | nil => exact (hopen _).trans (passes_mark _ rfl (fun _ => rfl) rest)
  | cons member members =>
      obtain ⟨name, value⟩ := member
      obtain ⟨nameText, hname⟩ := htexts _ List.mem_cons_self
      obtain rfl : name = nameText := hname
      have hends : EndsNumber
          (formOfMembers (level + 1) members ++ (newLine level ++ ['\x7d']) ++ rest) := by
        rw [List.append_assoc, List.append_assoc]
        exact endsNumber_formOfMembers (level + 1) members (endsNumber_newLine level _)
      have hwithin : opened.length + 1 + levels ≤ Json.levels room := by omega
      have hvalue := hmembers _ List.mem_cons_self (level + 1) (.object [] nameText :: opened) _
        hends hwithin
      have hmore := passes_members (level + 1) level hwithin
        (fun more hmore => htexts more (List.mem_cons_of_mem _ hmore))
        (fun more hmore => hmembers more (List.mem_cons_of_mem _ hmore)) [] nameText value hnames
        rest
      rw [form_obj_cons]
      refine (hopen _).trans ?_
      refine (passes_newLine _ (level + 1) _).trans ?_
      refine (passes_text ⟨.colon [] nameText, opened⟩ (fun _ => rfl) _).trans ?_
      refine (passes_colon opened [] _ _).trans ?_
      exact hvalue.trans hmore

/-! ## Values and documents -/

/-- Every plain value is read from its indented form. -/
theorem Plain.reads {levels : Nat} {value : Json} (hplain : Plain levels value) :
    Reads room levels value := by
  induction hplain with
  | null =>
      intro level opened rest hrest hfree
      rw [form, indented]
      exact passes_word ['u', 'l', 'l'] rfl fun _ => rfl
  | bool b =>
      intro level opened rest hrest hfree
      rw [form, indented]
      cases b with
      | true => exact passes_word ['r', 'u', 'e'] rfl fun _ => rfl
      | false => exact passes_word ['a', 'l', 's', 'e'] rfl fun _ => rfl
  | int n hdigits =>
      intro level opened rest hrest hfree
      rw [form, indented, WideText.characters_wide]
      obtain ⟨c, more, hwritten, hopens, -⟩ := lexeme_ofInt 0 n hrest hdigits
      rw [hwritten]
      refine passes_word more hopens.1 fun position => ?_
      obtain ⟨d, others, hagain, -, hfound⟩ := lexeme_ofInt position n hrest hdigits
      obtain ⟨rfl, rfl⟩ := List.cons.inj (hwritten.symm.trans hagain)
      rw [hfound, hwritten]
  | str t =>
      intro level opened rest hrest hfree
      rw [form, indented]
      exact passes_text _ (fun _ => rfl) rest
  | arr items hitems ih => exact reads_arr hitems ih
  | obj members hnames htexts hmembers ih => exact reads_obj hnames htexts ih

/-- A value is read from the document that it is written to, if there is room for it. -/
theorem read_characters_document {levels : Nat} {value : Json} (hplain : Plain levels value)
    (hroom : levels ≤ Json.levels room) : read room (characters value.document) = .ok value := by
  have hdocument : characters value.document = form 0 value ++ ['\n'] := by
    simp [document, form]
  have hreads : Reads room levels value := hplain.reads
  obtain ⟨later, hread⟩ := hreads 0 [] ['\n'] (endsNumber_cons (by decide) []) (by simpa) 0
  have hstate : (lexemes 0 (characters value.document)).foldlM (ReadState.step room)
      ReadState.start = .ok ⟨.nothing value, []⟩ := by
    rw [hdocument]
    refine hread.trans ?_
    rw [readFrom, lexemes.eq_def]
    simp only [isSpace, decide_true, Bool.or_true, Bool.true_or, if_true]
    rw [lexemes.eq_def]
    rfl
  obtain ⟨c, more, hwritten, hopens⟩ := exists_form_eq_cons 0 hplain
  have hmark : ∀ t, characters value.document ≠ '\uFEFF' :: t := by
    intro t heq
    rw [hdocument, hwritten] at heq
    exact hopens.2.2 (List.cons.inj heq).1
  unfold read
  split
  next t heq => exact absurd heq (hmark t)
  next =>
    rw [hstate]

/-! ## What documents are made of -/

/-- The wide text is a text, and no carriage return is in it. -/
def IsLined (t : WideText) : Prop :=
  ∀ p ∈ t, ∃ c : Char, p = .char c ∧ c ≠ '\r'

@[simp] theorem isLined_append {s t : WideText} : IsLined (s ++ t) ↔ IsLined s ∧ IsLined t :=
  List.forall_mem_append

@[simp] theorem isLined_wide {t : Text} : IsLined t.wide ↔ '\r' ∉ t := by
  have hchar : ∀ c : Char, (∃ d : Char, CodePoint.char c = .char d ∧ d ≠ '\r') ↔ c ≠ '\r' := by
    simp
  simp only [IsLined, Text.wide, List.forall_mem_map, hchar]
  exact ⟨fun h hmem => h _ hmem rfl, fun h c hc heq => h (heq ▸ hc)⟩

theorem IsLined.exists_text {t : WideText} (h : IsLined t) :
    t = t.characters.wide ∧ '\r' ∉ t.characters := by
  induction t with
  | nil => exact ⟨rfl, List.not_mem_nil⟩
  | cons p t ih =>
      obtain ⟨⟨c, rfl, hc⟩, hmore⟩ := List.forall_mem_cons.mp h
      obtain ⟨htext, hreturn⟩ := ih hmore
      exact ⟨congrArg (.char c :: ·) htext, List.not_mem_cons_of_ne_of_not_mem (Ne.symm hc) hreturn⟩

theorem isLined_writtenText (t : Text) : IsLined (writtenText t) := by
  have hcontrol : ∀ n < 32, '\r' ∉ "\\u" ++ Text.hexDigits 4 n := by decide
  have hchar : ∀ c, '\r' ∉ escapeChar c := by
    intro c
    have hescapes := escapes_escapeChar c
    generalize escapeChar c = written at hescapes ⊢
    cases hescapes with
    | plain hquote hslash hprinted =>
        rw [List.mem_singleton]
        rintro rfl
        exact hprinted (by decide)
    | letter e hletter hescaped =>
        rintro hmem
        obtain rfl : '\r' = e := by simpa using hmem
        cases hescaped
    | number hsmall => exact hcontrol c.toNat hsmall
  rw [writtenText_wide, isLined_wide]
  simpa [escapedText] using fun c _ => hchar c

theorem isLined_newLine (level : Nat) : IsLined (newLine level) :=
  isLined_wide.mpr (by simp [newLine])

theorem isLined_ofInt (n : Int) : IsLined (Text.ofInt n) := by
  have hdigits : ∀ k, '\r' ∉ Text.ofNat k := fun k hmem =>
    Bool.noConfusion (Text.isPlainDigit_of_mem_ofNat hmem : isPlainDigit '\r' = true)
  refine isLined_wide.mpr ?_
  cases n with
  | ofNat k => exact hdigits k
  | negSucc k => simpa [Text.ofInt] using hdigits (k + 1)

theorem isLined_indentedItems (level : Nat) {items : List Json}
    (hitems : ∀ item ∈ items, ∀ level, IsLined (indented level item)) :
    IsLined (indentedItems level items) := by
  induction items with
  | nil => simp [indentedItems, IsLined]
  | cons item rest ih =>
      have hrest := ih fun more hmore => hitems more (List.mem_cons_of_mem _ hmore)
      simp only [indentedItems, isLined_append]
      exact ⟨⟨⟨isLined_wide.mpr (by decide), isLined_newLine level⟩,
        hitems item List.mem_cons_self level⟩, hrest⟩

theorem isLined_indentedMembers (level : Nat) {members : List (WideText × Json)}
    (htexts : ∀ member ∈ members, ∃ name : Text, member.1 = name)
    (hmembers : ∀ member ∈ members, ∀ level, IsLined (indented level member.2)) :
    IsLined (indentedMembers level members) := by
  induction members with
  | nil => simp [indentedMembers, IsLined]
  | cons member rest ih =>
      obtain ⟨name, hname⟩ := htexts member List.mem_cons_self
      have hrest := ih (fun more hmore => htexts more (List.mem_cons_of_mem _ hmore))
        fun more hmore => hmembers more (List.mem_cons_of_mem _ hmore)
      simp only [indentedMembers, isLined_append, hname]
      exact ⟨⟨⟨⟨⟨isLined_wide.mpr (by decide), isLined_newLine level⟩, isLined_writtenText name⟩,
        isLined_wide.mpr (by decide)⟩, hmembers member List.mem_cons_self level⟩, hrest⟩

theorem Plain.isLined_indented {levels : Nat} {value : Json} (hplain : Plain levels value)
    (level : Nat) : IsLined (indented level value) := by
  induction hplain generalizing level with
  | null => exact isLined_wide.mpr (by decide)
  | bool b => cases b <;> exact isLined_wide.mpr (by decide)
  | int n hdigits => exact isLined_ofInt n
  | str t => exact isLined_writtenText t
  | arr items hitems ih =>
      cases items with
      | nil => exact isLined_wide.mpr (by decide)
      | cons item rest =>
          have hrest := isLined_indentedItems (level + 1) fun more hmore =>
            ih more (List.mem_cons_of_mem _ hmore)
          simp only [indented, isLined_append]
          exact ⟨⟨⟨⟨⟨isLined_wide.mpr (by decide), isLined_newLine _⟩,
            ih item List.mem_cons_self _⟩, hrest⟩, isLined_newLine level⟩,
            isLined_wide.mpr (by decide)⟩
  | obj members hnames htexts hmembers ih =>
      cases members with
      | nil => exact isLined_wide.mpr (by decide)
      | cons member rest =>
          obtain ⟨name, hname⟩ := htexts member List.mem_cons_self
          have hrest := isLined_indentedMembers (level + 1)
            (fun more hmore => htexts more (List.mem_cons_of_mem _ hmore))
            fun more hmore => ih more (List.mem_cons_of_mem _ hmore)
          simp only [indented, isLined_append, hname]
          exact ⟨⟨⟨⟨⟨⟨⟨isLined_wide.mpr (by decide), isLined_newLine _⟩,
            isLined_writtenText name⟩, isLined_wide.mpr (by decide)⟩,
            ih member List.mem_cons_self _⟩, hrest⟩, isLined_newLine level⟩,
            isLined_wide.mpr (by decide)⟩

/-! ## Halves in documents -/

/-- Halves are written as they are. -/
theorem half_mem_writtenText {t : WideText} {n : Fin 2048} (h : .half n ∈ t) :
    .half n ∈ writtenText t := by
  have hpoints : CodePoint.half n ∈ t.flatMap escapePoint :=
    List.mem_flatMap.mpr ⟨.half n, h, List.mem_singleton_self _⟩
  simp [writtenText, hpoints]

theorem half_mem_indentedMembers (level : Nat) {members : List (WideText × Json)}
    {name t : WideText} (hmem : (name, str t) ∈ members) {n : Fin 2048} (h : .half n ∈ t) :
    .half n ∈ indentedMembers level members := by
  induction members with
  | nil => cases hmem
  | cons member rest ih =>
      rw [indentedMembers]
      rcases List.mem_cons.mp hmem with rfl | hrest
      · simp [indented, half_mem_writtenText h]
      · simp [ih hrest]

/-- An object with a half in the text of a member has a document that is no text. -/
theorem document_of_half {members : List (WideText × Json)} {name t : WideText}
    (hmem : (name, str t) ∈ members) (h : t.text? = none) :
    (obj members).document.text? = none := by
  obtain ⟨n, hhalf⟩ := WideText.text?_eq_none_iff.mp h
  refine WideText.text?_eq_none_iff.mpr ⟨n, ?_⟩
  cases members with
  | nil => cases hmem
  | cons member rest =>
      rw [document, indented]
      rcases List.mem_cons.mp hmem with rfl | hrest
      · simp [indented, half_mem_writtenText hhalf]
      · simp [half_mem_indentedMembers 1 hrest hhalf]

/-- The document of a plain value is a text of which no line ends with a carriage return, and the
value is read from it wherever there is room for its levels. -/
theorem Plain.exists_document {levels : Nat} {value : Json} (hplain : Plain levels value) :
    ∃ t : Text, value.document = t ∧ '\r' ∉ t ∧
      ∀ room, levels ≤ Json.levels room → read room t = .ok value := by
  have hlined : IsLined value.document :=
    isLined_append.mpr ⟨hplain.isLined_indented 0, isLined_wide.mpr (by decide)⟩
  obtain ⟨htext, hreturn⟩ := hlined.exists_text
  exact ⟨_, htext, hreturn, fun room hroom => read_characters_document hplain hroom⟩

end Data.Json
end Almanac
