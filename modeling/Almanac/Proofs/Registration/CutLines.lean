import Almanac.Proofs.Registration.CallNumbers
import Almanac.Proofs.Registration.SiteLines

/-!
# Lines cut within their calls

The site of a call is read up to the parenthesis that opens the arguments. So a line that is cut off
anywhere behind that parenthesis keeps the site, with fewer arguments, and no other site is found
before it.
-/

namespace Almanac.Registration

open Almanac.Text Almanac.Holiday

/-- A scanner for a method and the first parenthesis of the text behind it. What stands behind the
parenthesis is not read. -/
def ReadsToParenthesis (scan : Text → Option Site) : Prop :=
  ∀ t, '(' ∉ t → scan t = none ∧
    ∃ method : Option Method, ∀ rest, scan (t ++ '(' :: rest) = method.map (⟨·, rest⟩)

/-! ## The scanners of the shapes -/

theorem isSeam_parenthesis (rest : Text) : IsSeam "." ('(' :: rest) :=
  isSeam_cons (by constructor <;> decide) rest

theorem readsToParenthesis_opened (method : Method) : ReadsToParenthesis fun t =>
    (afterBlank? "(" t).bind fun arguments => some ⟨method, arguments⟩ := by
  intro t ht
  induction t with
  | nil => exact ⟨rfl, some method, fun rest => rfl⟩
  | cons c t ih =>
      simp only [List.mem_cons, not_or] at ht
      cases hblank : isBlank c with
      | true =>
          have hskip : ∀ u, afterBlank? "(" (c :: u) = afterBlank? "(" u := by
            intro u
            exact congrArg (after? "(") (List.dropWhile_cons_of_pos hblank)
          simp only [List.cons_append, hskip]
          exact ih ht.2
      | false =>
          have hnone : ∀ u, afterBlank? "(" (c :: u) = none := by
            intro u
            rw [afterBlank?, stripStart_cons hblank]
            exact if_neg ht.1
          simp only [List.cons_append, hnone]
          exact ⟨rfl, none, fun rest => rfl⟩

/-- One scanner behind an opening. -/
theorem ReadsToParenthesis.bind {scan : Text → Option Site} (hscan : ReadsToParenthesis scan)
    {opening : Text} (hopening : IsKnown "." opening) :
    ReadsToParenthesis fun t => (after? opening t).bind scan := by
  intro t ht
  have hread : ∀ rest, after? opening (t ++ '(' :: rest) =
      (after? opening t).map fun u => u ++ '(' :: rest := fun rest =>
    respects_after? hopening _ (isSeam_parenthesis rest) t
  simp only [hread]
  cases hopened : after? opening t with
  | none => exact ⟨rfl, none, fun rest => rfl⟩
  | some u =>
      rw [after?_eq_some_iff.mp hopened] at ht
      exact hscan u fun hu => ht (List.mem_append_right opening hu)

theorem readsToParenthesis_named? {name : Text} (hname : IsKnown "." name) (method : Method) :
    ReadsToParenthesis (Shape.named? name method) :=
  (readsToParenthesis_opened method).bind hname

theorem readsToParenthesis_day? (month : Text) : ReadsToParenthesis (Shape.day? month) := by
  intro t ht
  have hread : ∀ rest, oneOrTwoDigits? (t ++ '(' :: rest) =
      (oneOrTwoDigits? t).map (withRest ('(' :: rest)) := fun rest =>
    respects_oneOrTwoDigits? _ (isSeam_parenthesis rest) t
  unfold Shape.day?
  simp only [hread]
  cases hdigits : oneOrTwoDigits? t with
  | none => exact ⟨rfl, none, fun rest => rfl⟩
  | some found =>
      obtain ⟨day, u⟩ := found
      rw [(oneOrTwoDigits?_spec hdigits).1] at ht
      exact readsToParenthesis_opened _ u fun hu => ht (List.mem_append_right day hu)

theorem readsToParenthesis_monthAndDay? : ReadsToParenthesis Shape.monthAndDay? := by
  intro t ht
  rcases t with _ | ⟨a, _ | ⟨b, _ | ⟨c, _ | ⟨d, t⟩⟩⟩⟩
  case cons.cons.cons.cons =>
    simp only [List.mem_cons, not_or] at ht
    simp only [List.cons_append, Shape.monthAndDay?]
    split
    next => exact readsToParenthesis_day? [a, b, c] t ht.2.2.2.2
    next => exact ⟨rfl, none, fun rest => rfl⟩
  -- the parenthesis is no letter of the month and not the underscore behind it
  all_goals
    refine ⟨rfl, none, fun rest => ?_⟩
    rcases rest with _ | ⟨e, _ | ⟨f, _ | ⟨g, rest⟩⟩⟩ <;>
      simp [Shape.monthAndDay?, Shape.isLowerLetter]

theorem readsToParenthesis_findSome? {α : Type} {options : List α} {scan : α → Text → Option Site}
    (hscan : ∀ option ∈ options, ReadsToParenthesis (scan option)) :
    ReadsToParenthesis fun t => options.findSome? fun option => scan option t := by
  intro t ht
  induction options with
  | nil => exact ⟨rfl, none, fun rest => rfl⟩
  | cons option options ih =>
      obtain ⟨hfirst, hrest⟩ := List.forall_mem_cons.mp hscan
      obtain ⟨hnone, method, hmethod⟩ := hfirst t ht
      simp only [List.findSome?_cons, hnone, hmethod]
      cases method with
      | none => exact ih hrest
      | some method => exact ⟨(ih hrest).1, some method, fun rest => rfl⟩

theorem readsToParenthesis_siteHere? (shape : Shape) : ReadsToParenthesis shape.siteHere? := by
  have hfeasts : ∀ entry ∈ feasts, IsKnown "." entry.1 := by decide
  refine ReadsToParenthesis.bind ?_ (by decide)
  cases shape with
  | generic => exact readsToParenthesis_named? (by decide) _
  | easterBased => exact readsToParenthesis_named? (by decide) _
  | weekdayBased => exact readsToParenthesis_named? (by decide) _
  | dateSuffixed =>
      unfold Shape.method?
      simp only [Shape.dated?_eq]
      exact readsToParenthesis_monthAndDay?.bind (by decide)
  | namedHelper =>
      exact readsToParenthesis_findSome? fun entry hentry =>
        readsToParenthesis_named? (hfeasts entry hentry) _

/-! ## Searches -/

namespace ReadsToParenthesis

variable {scan : Text → Option Site} (hscan : ReadsToParenthesis scan)

include hscan

theorem mem_of_eq_some {t : Text} {site : Site} (hsite : scan t = some site) : '(' ∈ t := by
  by_contra ht
  rw [(hscan t ht).1] at hsite
  cases hsite

/-- Behind a parenthesis everything is left to the arguments. -/
theorem append_parenthesis (t rest : Text) :
    scan (t ++ '(' :: rest) = (scan (t ++ ['('])).map (Site.longer rest) := by
  by_cases ht : '(' ∈ t
  · obtain ⟨before, behind, rfl, hbefore⟩ := List.eq_append_cons_of_mem ht
    obtain ⟨-, method, hmethod⟩ := hscan before hbefore
    rw [List.append_assoc, List.append_assoc, List.cons_append, List.cons_append, hmethod, hmethod,
      Option.map_map]
    congr 1
    funext method
    simp [Site.longer]
  · obtain ⟨-, method, hmethod⟩ := hscan t ht
    rw [hmethod, hmethod, Option.map_map]
    rfl

/-- A site has fewer characters behind it than there are in the text. -/
theorem length_arguments_lt {t : Text} {site : Site} (hsite : scan t = some site) :
    site.arguments.length < t.length := by
  obtain ⟨before, behind, rfl, hbefore⟩ := List.eq_append_cons_of_mem (hscan.mem_of_eq_some hsite)
  obtain ⟨-, method, hmethod⟩ := hscan before hbefore
  rw [hmethod] at hsite
  obtain ⟨method, -, rfl⟩ := Option.map_eq_some_iff.mp hsite
  simp
  omega

/-- A search goes on behind a parenthesis if it finds nothing up to there. -/
theorem search_append_parenthesis (blocked : Bool) (t rest : Text) :
    search isWord scan blocked (t ++ '(' :: rest) =
      ((search isWord scan blocked (t ++ ['('])).map (Site.longer rest)).or
        (findWord? scan rest) := by
  induction t generalizing blocked with
  | nil =>
      have hhere := hscan.append_parenthesis [] rest
      rw [List.nil_append, List.nil_append] at hhere
      cases blocked with
      | true => rfl
      | false =>
          cases hfound : scan ['('] with
          | none =>
              simp only [List.nil_append, search, hhere, hfound, Bool.false_eq_true, if_false,
                Option.map_none, Option.none_or]
              rfl
          | some site => simp [search, hhere, hfound]
  | cons c t ih =>
      have hhere := hscan.append_parenthesis (c :: t) rest
      rw [List.cons_append, List.cons_append] at hhere
      cases blocked with
      | true => simpa [search] using ih (isWord c)
      | false =>
          cases hfound : scan (c :: (t ++ ['('])) with
          | none => simpa [search, hhere, hfound] using ih (isWord c)
          | some site => simp [search, hhere, hfound]

theorem findWord?_append_parenthesis (t rest : Text) :
    findWord? scan (t ++ '(' :: rest) =
      ((findWord? scan (t ++ ['('])).map (Site.longer rest)).or (findWord? scan rest) :=
  hscan.search_append_parenthesis false t rest

/-- What is found in a text is found in a longer one. -/
theorem findWord?_of_append {t more : Text} (hnone : findWord? scan (t ++ more) = none) :
    findWord? scan t = none := by
  by_contra hsome
  obtain ⟨site, hsite⟩ := Option.ne_none_iff_exists'.mp hsome
  obtain ⟨before, after, rfl, hbars, hfound⟩ := split_of_search_eq_some hsite
  have hparenthesis := hscan.mem_of_eq_some hfound
  obtain ⟨front, back, rfl, -⟩ := List.eq_append_cons_of_mem hparenthesis
  rw [hscan.append_parenthesis] at hfound
  obtain ⟨site', hsite', -⟩ := Option.map_eq_some_iff.mp hfound
  have hlonger := hscan.append_parenthesis front (back ++ more)
  rw [hsite'] at hlonger
  have hmore : (scan (front ++ '(' :: (back ++ more))).isSome = true := by rw [hlonger]; rfl
  have hsearch := isSome_search_of_split (by simp) hbars hmore
  unfold findWord? at hnone
  rw [List.append_assoc, List.append_assoc, List.cons_append] at hnone
  rw [hnone] at hsearch
  cases hsearch

end ReadsToParenthesis

/-! ## Lines that are cut -/

/-- Whether a line is a comment does not depend on the arguments of a call. -/
theorem isCommentLine_append_parenthesis (opening rest : Text) :
    isCommentLine (opening ++ '(' :: rest) = isCommentLine (opening ++ ['(']) := by
  unfold isCommentLine
  induction opening with
  | nil => rfl
  | cons c opening ih =>
      cases hblank : isBlank c with
      | true =>
          have hskip : ∀ t, stripStart (c :: t) = stripStart t := fun t =>
            List.dropWhile_cons_of_pos hblank
          rwa [List.cons_append, List.cons_append, hskip, hskip]
      | false =>
          rw [List.cons_append, List.cons_append, stripStart_cons hblank, stripStart_cons hblank,
            Bool.eq_iff_iff, isComment_iff, isComment_iff]
          rfl

/-- A line that is cut off behind the parenthesis of its first site keeps this site. -/
theorem firstSite?_cut {shapes : List Shape} {shape : Shape} {method : Method}
    {opening arguments more : Text}
    (hsite : firstSite? shapes (opening ++ '(' :: (arguments ++ more)) =
      some (shape, ⟨method, arguments ++ more⟩)) :
    firstSite? shapes (opening ++ '(' :: arguments) = some (shape, ⟨method, arguments⟩) := by
  unfold firstSite? at hsite ⊢
  obtain ⟨earlier, found, later, rfl, hfound, hearlier⟩ := List.findSome?_eq_some_iff.mp hsite
  obtain ⟨site, hsite, hpair⟩ := Option.map_eq_some_iff.mp hfound
  obtain ⟨rfl, rfl⟩ := Prod.mk.inj hpair
  refine List.findSome?_eq_some_iff.mpr ⟨earlier, found, later, rfl, ?_, fun other hother => ?_⟩
  · have hscan := readsToParenthesis_siteHere? found
    unfold Shape.site? at hsite ⊢
    rw [hscan.findWord?_append_parenthesis] at hsite ⊢
    cases hopening : findWord? found.siteHere? (opening ++ ['(']) with
    | some site =>
        rw [hopening] at hsite
        have hlonger : site.longer (arguments ++ more) = ⟨method, arguments ++ more⟩ :=
          Option.some.inj hsite
        obtain ⟨method', behind⟩ := site
        obtain ⟨rfl, hbehind⟩ := Site.mk.inj hlonger
        obtain rfl := List.self_eq_append_left.mp hbehind.symm
        rfl
    | none =>
        -- the site of the arguments would be longer than they are
        rw [hopening] at hsite
        obtain ⟨before, after, hsplit, -, hhere⟩ := split_of_search_eq_some hsite
        have hlength := hscan.length_arguments_lt hhere
        have hwhole := congrArg List.length hsplit
        simp only [List.length_append] at hlength hwhole
        omega
  · have hscan := readsToParenthesis_siteHere? other
    have hnone := Option.map_eq_none_iff.mp (hearlier other hother)
    unfold Shape.site? at hnone ⊢
    rw [hscan.findWord?_append_parenthesis, Option.or_eq_none_iff, Option.map_eq_none_iff] at hnone
    rw [hscan.findWord?_append_parenthesis, hnone.1, hscan.findWord?_of_append hnone.2]
    rfl

end Almanac.Registration
