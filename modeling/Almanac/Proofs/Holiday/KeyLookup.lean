import Almanac.Proofs.Holiday.Conflicts

/-!
# Looking holidays up by the keys of their names

Under numbered keys the first definition with a key goes to that key, unless a numbered key of
another name has taken it before: the second holiday named "A" is under `a_2`, and then a holiday
named "A 2" has to go elsewhere. Catalogs never rename an entry, so nothing else can be done about
a key that is taken before its own name comes. A key collides just if it was taken that way, or if
two different definitions have it.
-/

namespace Almanac.Holiday.Catalog

open Almanac.Text Almanac.Data

/-! ## Keys that collide -/

theorem mem_collided_iff {catalog : Catalog} {definition : Definition} {key : Text} :
    key ∈ collided catalog definition ↔ hasKey definition = true ∧
      key = Key.ofName definition.name ∧ catalog.TakenByOther definition key := by
  unfold collided
  cases hkey : hasKey definition with
  | false => simp
  | true =>
      cases hfree : catalog.isFree definition (Key.ofName definition.name) with
      | true =>
          have hnot : ¬ catalog.TakenByOther definition (Key.ofName definition.name) := by
            rw [← isFree_eq_false_iff, hfree]
            exact Bool.noConfusion
          suffices key = Key.ofName definition.name → ¬ catalog.TakenByOther definition key by
            simpa [hfree] using this
          rintro rfl
          exact hnot
      | false =>
          have htaken := (isFree_eq_false_iff ..).mp hfree
          suffices key = Key.ofName definition.name → catalog.TakenByOther definition key by
            simpa [hfree] using this
          rintro rfl
          exact htaken

/-- The keys that collide in a run are those of the definitions that came when their key was
taken. -/
theorem exists_collisions (definitions : List Definition) :
    ∃ collisions, definitions.foldlM (Draft.add .suffix) ⟨[], []⟩ =
        .ok ⟨ofDefinitions definitions, collisions⟩ ∧
      ∀ key, key ∈ collisions ↔ ∃ before definition, before ++ [definition] <+: definitions ∧
        key ∈ collided (ofDefinitions before) definition := by
  induction definitions using List.reverseRecOn with
  | nil =>
      refine ⟨[], rfl, fun key => ?_⟩
      simp
  | append_singleton definitions definition ih =>
      obtain ⟨collisions, hmade, hcollisions⟩ := ih
      refine ⟨collisions ++ collided (ofDefinitions definitions) definition, ?_, fun key => ?_⟩
      · rw [foldlM_add_concat hmade, add_suffix, ofDefinitions_concat]
      · rw [List.mem_append, hcollisions]
        constructor
        · rintro (⟨before, known, hbefore, hkey⟩ | hkey)
          · exact ⟨before, known, hbefore.trans (List.prefix_append _ _), hkey⟩
          · exact ⟨definitions, definition, List.prefix_rfl, hkey⟩
        · rintro ⟨before, known, hbefore, hkey⟩
          -- the last definition comes behind all others, and any other one is among them
          rcases List.prefix_concat_iff.mp hbefore with hlast | hearlier
          · obtain ⟨rfl, hknown⟩ := List.append_inj' hlast rfl
            obtain rfl := List.singleton_inj.mp hknown
            exact .inr hkey
          · exact .inl ⟨before, known, hearlier, hkey⟩

/-! ## The first definition with a key -/

section

variable {before after : List Definition} {first : Definition}

/-- A key that is taken before a name with it comes is a numbered key of another name. -/
theorem numbered_of_get?_before {other : Definition}
    (hfirst : ∀ definition ∈ before, Key.ofName definition.name ≠ Key.ofName first.name)
    (hother : (ofDefinitions before).get? (Key.ofName first.name) = some other) :
    other ∈ before ∧ ∃ n, 2 ≤ n ∧
      Key.ofName first.name = Key.numbered (Key.ofName other.name) n := by
  have hentry := Entries.mem_of_get?_eq_some hother
  have hmem : other ∈ before :=
    ((mem_values_ofDefinitions before other).mp (List.mem_map_of_mem hentry)).1
  obtain ⟨n, hn, hkey, -⟩ := (ofDefinitions_wellPlaced before).ownSlot _ _ hentry
  by_cases hone : n = 1
  · rw [hone, Key.nth_one] at hkey
    exact absurd hkey.symm (hfirst other hmem)
  · have htwo : 2 ≤ n := by omega
    exact ⟨hmem, n, htwo, by rw [hkey, Key.nth_of_two_le _ htwo]⟩

/-- What is under a key when the first definition with it comes stays there, and if nothing is,
that definition goes there for good. -/
theorem get?_ofDefinitions_of_first (before after : List Definition) (hkey : hasKey first = true) :
    (ofDefinitions (before ++ first :: after)).get? (Key.ofName first.name) =
      ((ofDefinitions before).get? (Key.ofName first.name)).or (some first) := by
  cases hget : (ofDefinitions before).get? (Key.ofName first.name) with
  | some other =>
      obtain ⟨more, hmore⟩ := ofDefinitions_prefix_append before (first :: after)
      rw [← hmore]
      exact Entries.get?_append_of_eq_some hget more
  | none =>
      have hfree : (ofDefinitions before).isFree first (Key.ofName first.name) = true :=
        (isFree_iff ..).mpr (.inl hget)
      have hplaced : (ofDefinitions (before ++ [first])).get? (Key.ofName first.name) =
          some first := by
        simp [place, slot, hkey, hfree]
      obtain ⟨more, hmore⟩ := ofDefinitions_prefix_append (before ++ [first]) after
      rw [List.append_assoc, List.singleton_append] at hmore
      rw [← hmore]
      exact Entries.get?_append_of_eq_some hplaced more

/-- The first definition with a key collides if the key is taken when it comes. -/
theorem mem_collided_of_taken (hkey : hasKey first = true)
    (hfirst : ∀ definition ∈ before, Key.ofName definition.name ≠ Key.ofName first.name)
    (htaken : (ofDefinitions before).get? (Key.ofName first.name) ≠ none) :
    Key.ofName first.name ∈ collided (ofDefinitions before) first := by
  obtain ⟨other, hget⟩ := Option.ne_none_iff_exists'.mp htaken
  refine mem_collided_iff.mpr ⟨hkey, rfl, other, hget, ?_⟩
  rintro rfl
  exact hfirst other (numbered_of_get?_before hfirst hget).1 rfl

/-- A later one with the key collides if it differs from the first, whatever is under the key. -/
theorem mem_collided_of_ne (hkey : hasKey first = true)
    (hfirst : ∀ definition ∈ before, Key.ofName definition.name ≠ Key.ofName first.name)
    (between : List Definition) {other : Definition}
    (hown : Key.ofName other.name = Key.ofName first.name) (hne : other ≠ first) :
    Key.ofName first.name ∈ collided (ofDefinitions (before ++ first :: between)) other := by
  have hhas : hasKey other = true := by rwa [hasKey_iff, hown, ← hasKey_iff]
  have hget := get?_ofDefinitions_of_first before between hkey
  refine mem_collided_iff.mpr ⟨hhas, hown.symm, ?_⟩
  cases hbefore : (ofDefinitions before).get? (Key.ofName first.name) with
  | none =>
      rw [hbefore, Option.none_or] at hget
      exact ⟨first, hget, hne.symm⟩
  | some known =>
      rw [hbefore, Option.some_or] at hget
      refine ⟨known, hget, ?_⟩
      rintro rfl
      exact hfirst known (numbered_of_get?_before hfirst hbefore).1 hown

/-- If the key is free when the first one comes, only later ones that differ from it collide. -/
theorem ne_of_mem_collided (hkey : hasKey first = true)
    (hfirst : ∀ definition ∈ before, Key.ofName definition.name ≠ Key.ofName first.name)
    (hfree : (ofDefinitions before).get? (Key.ofName first.name) = none)
    {earlier : List Definition} {definition : Definition}
    (hearlier : earlier ++ [definition] <+: before ++ first :: after)
    (hcollided : Key.ofName first.name ∈ collided (ofDefinitions earlier) definition) :
    definition ∈ after ∧ Key.ofName definition.name = Key.ofName first.name ∧
      definition ≠ first := by
  obtain ⟨-, hown, known, hknown, hne⟩ := mem_collided_iff.mp hcollided
  -- what is found under the key is still there in the end, so it is the first definition with it
  have hall := get?_ofDefinitions_of_first before after hkey
  rw [hfree, Option.none_or] at hall
  have hgrows : ofDefinitions earlier <+: ofDefinitions (before ++ first :: after) := by
    obtain ⟨more, hmore⟩ := hearlier
    rw [← hmore, List.append_assoc]
    exact ofDefinitions_prefix_append earlier _
  obtain ⟨more, hmore⟩ := hgrows
  rw [← hmore, Entries.get?_append_of_eq_some hknown more] at hall
  obtain rfl := Option.some.inj hall
  have hmem := hearlier.subset (List.mem_append_right earlier List.mem_cons_self)
  rcases List.mem_append.mp hmem with hbefore | hrest
  · exact absurd hown.symm (hfirst definition hbefore)
  · rcases List.mem_cons.mp hrest with rfl | hafter
    · exact absurd rfl hne
    · exact ⟨hafter, hown.symm, hne.symm⟩

/-- A key collides just if it is taken when the first definition with it comes, or if another one
has it. -/
theorem mem_collisions_iff {collisions : List Text}
    (hcollisions : ∀ key, key ∈ collisions ↔ ∃ earlier definition,
      earlier ++ [definition] <+: before ++ first :: after ∧
        key ∈ collided (ofDefinitions earlier) definition)
    (hkey : hasKey first = true)
    (hfirst : ∀ definition ∈ before, Key.ofName definition.name ≠ Key.ofName first.name) :
    Key.ofName first.name ∈ collisions ↔
      (ofDefinitions before).get? (Key.ofName first.name) ≠ none ∨
        ∃ other ∈ after, Key.ofName other.name = Key.ofName first.name ∧ other ≠ first := by
  rw [hcollisions]
  constructor
  · rintro ⟨earlier, definition, hearlier, hcollided⟩
    by_cases hfree : (ofDefinitions before).get? (Key.ofName first.name) = none
    · exact .inr ⟨definition, ne_of_mem_collided hkey hfirst hfree hearlier hcollided⟩
    · exact .inl hfree
  · rintro (htaken | ⟨other, hother, hown, hne⟩)
    · exact ⟨before, first, ⟨after, by simp⟩, mem_collided_of_taken hkey hfirst htaken⟩
    · obtain ⟨between, rest, rfl⟩ := List.append_of_mem hother
      exact ⟨before ++ first :: between, other, ⟨rest, by simp⟩,
        mem_collided_of_ne hkey hfirst between hown hne⟩

end

/-! ## Announcements -/

theorem exists_definitions_of_draft {category : Text} {announced : List Announcement}
    {made : Draft} (hmade : draft .suffix category announced = .ok made) :
    ∃ definitions, announced.mapM (Definition.ofAnnouncement category) = .ok definitions := by
  rcases foldlM_announce_suffix_spec category announced ⟨[], []⟩ with
    ⟨-, -, hall, -⟩ | ⟨fault, keys, herror, -⟩
  · exact exists_mapM_ok hall
  · rw [draft, herror] at hmade
    cases hmade

/-- Definitions of announcements with one among them are those of the announcements before it,
its own, and those behind it. -/
theorem exists_split_of_mapM_ok {category : Text} {before after : List Announcement}
    {a : Announcement} {definitions : List Definition}
    (hdefinitions :
      (before ++ a :: after).mapM (Definition.ofAnnouncement category) = .ok definitions) :
    ∃ earlier definition later, definitions = earlier ++ definition :: later ∧
      before.mapM (Definition.ofAnnouncement category) = .ok earlier ∧
      Definition.ofAnnouncement category a = .ok definition ∧
      after.mapM (Definition.ofAnnouncement category) = .ok later := by
  have hmap := map_of_mapM_ok hdefinitions
  rw [List.map_append, List.map_cons] at hmap
  obtain ⟨earlier, rest, rfl, hearlier, hrest⟩ := List.append_eq_map_iff.mp hmap
  obtain ⟨definition, later, rfl, hdefinition, hlater⟩ := List.map_eq_cons_iff.mp hrest
  exact ⟨earlier, definition, later, rfl, mapM_ok_iff_map.mpr hearlier.symm, hdefinition.symm,
    mapM_ok_iff_map.mpr hlater.symm⟩

/-- Of the announcements with the key of the first one two have different definitions just if one
behind the first has another definition than it. -/
theorem differ_iff_after {category : Text} {before after : List Announcement}
    {first : Announcement} {definition : Definition} {later : List Definition}
    (hdefinition : Definition.ofAnnouncement category first = .ok definition)
    (hlater : after.mapM (Definition.ofAnnouncement category) = .ok later)
    (hfirst : ∀ a ∈ before, Key.ofName a.name ≠ Key.ofName first.name) :
    (∃ one ∈ before ++ first :: after, ∃ other ∈ before ++ first :: after,
        Key.ofName one.name = Key.ofName first.name ∧
        Key.ofName other.name = Key.ofName first.name ∧
        Definition.ofAnnouncement category one ≠ Definition.ofAnnouncement category other) ↔
      ∃ other ∈ later, Key.ofName other.name = Key.ofName first.name ∧ other ≠ definition := by
  constructor
  · -- of two announcements that differ one differs from the first, so it is behind that
    have hbehind : ∀ a ∈ before ++ first :: after, Key.ofName a.name = Key.ofName first.name →
        Definition.ofAnnouncement category a ≠ .ok definition →
        ∃ other ∈ later, Key.ofName other.name = Key.ofName first.name ∧ other ≠ definition := by
      intro a ha hown hne
      rcases List.mem_append.mp ha with hbefore | hrest
      · exact absurd hown (hfirst a hbefore)
      · rcases List.mem_cons.mp hrest with rfl | hafter
        · exact absurd hdefinition hne
        · have hmap : Definition.ofAnnouncement category a ∈ later.map .ok :=
            map_of_mapM_ok hlater ▸ List.mem_map_of_mem hafter
          obtain ⟨other, hother, hok⟩ := List.mem_map.mp hmap
          refine ⟨other, hother, ?_, ?_⟩
          · rw [name_of_ofAnnouncement hok.symm, hown]
          · rintro rfl
            exact hne hok.symm
    rintro ⟨one, hone, other, hother, hownOne, hownOther, hne⟩
    by_cases hsame : Definition.ofAnnouncement category one = .ok definition
    · exact hbehind other hother hownOther fun h => hne (hsame.trans h.symm)
    · exact hbehind one hone hownOne hsame
  · rintro ⟨other, hother, hown, hne⟩
    obtain ⟨a, ha, hok⟩ := (mem_of_mapM_ok hlater other).mp hother
    refine ⟨first, by simp, a, by simp [ha], rfl, ?_, ?_⟩
    · rw [← name_of_ofAnnouncement hok, hown]
    · rw [hdefinition, hok]
      intro h
      exact hne (Except.ok.inj h).symm

/-- Under numbered keys, what is found under the key of a name is the definition of the first
announcement with that key, unless the key was taken when that announcement came. Then it stays
with what took it, an earlier definition of which it is a numbered key. The key has collided just
in that case, and if two announcements with the key have different definitions. -/
theorem get?_draft_suffix {category : Text} {before after : List Announcement}
    {first : Announcement} {key : Text} {made : Draft}
    (hmade : draft .suffix category (before ++ first :: after) = .ok made)
    (hkey : Key.ofName first.name = key) (hhas : key ≠ [])
    (hfirst : ∀ a ∈ before, Key.ofName a.name ≠ key) :
    ∃ definition earlier, Definition.ofAnnouncement category first = .ok definition ∧
      draft .suffix category before = .ok earlier ∧
      made.catalog.get? key = (earlier.catalog.get? key).or (some definition) ∧
      (∀ other, earlier.catalog.get? key = some other →
        (∃ a ∈ before, Definition.ofAnnouncement category a = .ok other) ∧
          ∃ n, 2 ≤ n ∧ key = Key.numbered (Key.ofName other.name) n) ∧
      (key ∈ made.collisions ↔ earlier.catalog.get? key ≠ none ∨
        ∃ one ∈ before ++ first :: after, ∃ other ∈ before ++ first :: after,
          Key.ofName one.name = key ∧ Key.ofName other.name = key ∧
          Definition.ofAnnouncement category one ≠ Definition.ofAnnouncement category other) := by
  obtain ⟨definitions, hdefinitions⟩ := exists_definitions_of_draft hmade
  obtain ⟨earlier, definition, later, rfl, hearlier, hdefinition, hlater⟩ :=
    exists_split_of_mapM_ok hdefinitions
  have hname : definition.name = first.name := name_of_ofAnnouncement hdefinition
  have hnamed : Key.ofName definition.name = key := by rw [hname, hkey]
  have hkeyed : hasKey definition = true := (hasKey_iff definition).mpr (hnamed ▸ hhas)
  have hnone : ∀ known ∈ earlier, Key.ofName known.name ≠ Key.ofName definition.name := by
    intro known hknown
    obtain ⟨a, ha, hok⟩ := (mem_of_mapM_ok hearlier known).mp hknown
    rw [name_of_ofAnnouncement hok, hnamed]
    exact hfirst a ha
  obtain ⟨collisions, hrun, hcollisions⟩ :=
    exists_collisions (earlier ++ definition :: later)
  obtain ⟨fewer, hbefore⟩ := draft_suffix hearlier
  have hall : draft .suffix category (before ++ first :: after) =
      .ok ⟨ofDefinitions (earlier ++ definition :: later), collisions⟩ := by
    rw [draft_eq_foldlM hdefinitions, hrun]
  obtain rfl := Except.ok.inj (hall.symm.trans hmade)
  subst hnamed
  refine ⟨definition, _, hdefinition, hbefore,
    get?_ofDefinitions_of_first earlier later hkeyed, ?_, ?_⟩
  · intro other hother
    obtain ⟨hmem, hnumbered⟩ := numbered_of_get?_before hnone hother
    exact ⟨(mem_of_mapM_ok hearlier other).mp hmem, hnumbered⟩
  · rw [mem_collisions_iff hcollisions hkeyed hnone]
    rw [hname] at hfirst ⊢
    rw [differ_iff_after hdefinition hlater hfirst]

/-- Two different holidays named "A". -/
def namesakes : List Announcement :=
  [⟨"A", .fixed "JAN" 1⟩, ⟨"A", .fixed "JAN" 2⟩]

/-- A holiday whose own key is the numbered key of the second one named "A". -/
def numberedName : Announcement := ⟨"A 2", .easterBased 0⟩

/-- The catalog of the namesakes and the holiday with the numbered name. -/
def numberedNameLast : Draft :=
  ⟨[("a", ⟨"A", "public", .fixed 1 1⟩), ("a_2", ⟨"A", "public", .fixed 1 2⟩),
    ("a_2_2", ⟨"A 2", "public", .easterBased 0⟩)], ["a", "a_2"]⟩

theorem draft_numberedNameLast :
    draft .suffix "public" (namesakes ++ numberedName :: []) = .ok numberedNameLast := by
  decide

/-- The second namesake is found under the key of the other name, which it made collide. -/
theorem get?_draft_suffix_numberedName :
    draft .suffix "public" (namesakes ++ numberedName :: []) = .ok numberedNameLast ∧
      (∀ a ∈ namesakes, Key.ofName a.name ≠ "a_2".toList) ∧
      numberedNameLast.catalog.get? "a_2".toList = some ⟨"A", "public", .fixed 1 2⟩ ∧
      "a_2".toList ∈ numberedNameLast.collisions := by
  have hkey : Key.ofName numberedName.name = "a_2".toList := by decide +kernel
  have hfirst : ∀ a ∈ namesakes, Key.ofName a.name ≠ "a_2".toList := by decide +kernel
  obtain ⟨definition, earlier, -, hearlier, hget, -, hcollided⟩ :=
    get?_draft_suffix draft_numberedNameLast hkey (by decide) hfirst
  have htaken : (draft .suffix "public" namesakes).map
      (fun made => made.catalog.get? "a_2".toList) = .ok (some ⟨"A", "public", .fixed 1 2⟩) := by
    decide +kernel
  rw [hearlier] at htaken
  have hother : earlier.catalog.get? "a_2".toList = some ⟨"A", "public", .fixed 1 2⟩ :=
    Except.ok.inj htaken
  refine ⟨draft_numberedNameLast, hfirst, ?_, ?_⟩
  · rw [hget, hother, Option.some_or]
  · rw [hcollided, hother]
    exact .inl (Option.some_ne_none _)

/-- What is found under the key of a name need not be the first holiday with that key, and a key
collides that only one holiday has. -/
theorem get?_draft_suffix_misses_numberedName :
    ∃ made, draft .suffix "public" (namesakes ++ [numberedName]) = .ok made ∧
      (namesakes ++ [numberedName]).filter (fun a => Key.ofName a.name = "a_2".toList) =
        [numberedName] ∧
      made.catalog.get? "a_2".toList = some ⟨"A", "public", .fixed 1 2⟩ ∧
      Definition.ofAnnouncement "public" numberedName ≠ .ok ⟨"A", "public", .fixed 1 2⟩ ∧
      "a_2".toList ∈ made.collisions := by
  refine ⟨numberedNameLast, ?_, ?_, ?_, ?_, ?_⟩ <;> decide +kernel

end Almanac.Holiday.Catalog
