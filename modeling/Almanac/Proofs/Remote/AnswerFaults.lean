import Almanac.Proofs.Data.NestedTexts
import Almanac.Remote.Fetcher

/-!
# What ill-shaped answers lead to

The host may answer anything: any status, any body, and in it any value, of which every member may
be of any shape. A request for a directory, for a file or for a user then still ends in a result
or in a failure that says what was wrong with the answer, unless the body is nested too deep. Two
readers look deeper than the shape that they checked. The codes of a directory are read from the
ending of each name, and the source of a country from the content of its file; a name or a content
that is no text ends them in a bare mishap.
-/

namespace Almanac

open Almanac.Text Almanac.Data

variable {α β : Type}

/-- Does the failure say that the host refused the request or could not be made sense of, or that
the country is not known? -/
def Failure.Kind.isOfAnswer : Failure.Kind → Bool
  | decoding | unknownCountry _ => true
  | kind => kind.isFetch

/-- Faults of answers belong to one file. -/
theorem Failure.Kind.isFileLevel_of_isOfAnswer {kind : Failure.Kind}
    (h : kind.isOfAnswer = true) : kind.isFileLevel = true := by
  cases kind <;> first | rfl | cases h

def Stop.isAnswerFault : Stop → Bool
  | .failure told => told.kind.isOfAnswer
  | .mishap _ => false

namespace Remote

/-- The work came to a result, or to a fault of an answer. -/
def Contained (found : Except Stop α) : Prop :=
  ∀ stop, found = .error stop → stop.isAnswerFault = true

/-- The work came to a bare mishap, which nothing on the way catches. -/
def Escapes (found : Except Stop α) : Prop :=
  ∃ mishap, found = .error (.mishap mishap)

/-- The work is contained under the condition, and escapes without it. -/
def ContainedIf (found : Except Stop α) (condition : Prop) : Prop :=
  (Contained found ∧ condition) ∨ (Escapes found ∧ ¬ condition)

@[simp]
theorem contained_ok (value : α) : Contained (.ok value : Except Stop α) := by
  intro stop h
  cases h

@[simp]
theorem contained_error (stop : Stop) :
    Contained (.error stop : Except Stop α) ↔ stop.isAnswerFault = true := by
  constructor
  · exact fun h => h stop rfl
  · rintro h _ ⟨⟩
    exact h

theorem Escapes.not_contained {found : Except Stop α} (h : Escapes found) : ¬ Contained found := by
  obtain ⟨mishap, rfl⟩ := h
  simp [Stop.isAnswerFault]

theorem ContainedIf.of_contained {found : Except Stop α} {condition : Prop}
    (hfound : Contained found) (hcondition : condition) : ContainedIf found condition :=
  .inl ⟨hfound, hcondition⟩

theorem ContainedIf.of_mishap {condition : Prop} (mishap : Mishap) (hcondition : ¬ condition) :
    ContainedIf (.error (.mishap mishap) : Except Stop α) condition :=
  .inr ⟨⟨mishap, rfl⟩, hcondition⟩

theorem ContainedIf.contained_iff {found : Except Stop α} {condition : Prop}
    (h : ContainedIf found condition) : Contained found ↔ condition := by
  rcases h with ⟨hfound, hcondition⟩ | ⟨hescapes, hcondition⟩
  · exact iff_of_true hfound hcondition
  · exact iff_of_false hescapes.not_contained hcondition

theorem ContainedIf.congr {found : Except Stop α} {condition other : Prop}
    (h : ContainedIf found condition) (hsame : condition ↔ other) : ContainedIf found other := by
  rwa [← propext hsame]

/-- Work in two parts is contained if the first part is, and the second wherever it is come to. -/
theorem ContainedIf.bind {found : Except Stop α} {next : α → Except Stop β} {first : Prop}
    {second : α → Prop} (hfound : ContainedIf found first)
    (hnext : ∀ value, found = .ok value → ContainedIf (next value) (second value)) :
    ContainedIf (found.bind next) (first ∧ ∀ value, found = .ok value → second value) := by
  rcases hfound with ⟨hcontained, hfirst⟩ | ⟨⟨mishap, rfl⟩, hfirst⟩
  · cases found with
    | ok value => exact (hnext value rfl).congr (by simp [hfirst])
    | error stop =>
        refine .of_contained ?_ ⟨hfirst, by simp⟩
        exact (contained_error stop).mpr ((contained_error stop).mp hcontained)
  · exact .of_mishap mishap fun h => hfirst h.1

theorem ContainedIf.bind_contained {found : Except Stop α} {condition : Prop}
    (hfound : ContainedIf found condition) {next : α → Except Stop β}
    (hnext : ∀ value, Contained (next value)) : ContainedIf (found.bind next) condition := by
  refine (hfound.bind fun value _ => .of_contained (hnext value) trivial).congr ?_
  exact and_iff_left fun _ _ => trivial

theorem ContainedIf.map {found : Except Stop α} {condition : Prop}
    (h : ContainedIf found condition) (f : α → β) : ContainedIf (found.map f) condition := by
  have hbind : found.map f = found.bind fun value => .ok (f value) := by cases found <;> rfl
  rw [hbind]
  exact h.bind_contained fun value => contained_ok _

/-- A run over items is contained if each of them is. -/
theorem ContainedIf.mapM {read : α → Except Stop β} {condition : α → Prop}
    (hread : ∀ item, ContainedIf (read item) (condition item)) (items : List α)
    (hvalue : ∀ item, condition item → ∃ value, read item = .ok value) :
    ContainedIf (items.mapM read) (∀ item ∈ items, condition item) := by
  induction items with
  | nil =>
      rw [List.mapM_nil]
      exact .of_contained (contained_ok _) fun _ hmem => absurd hmem List.not_mem_nil
  | cons item items ih =>
      rw [List.mapM_cons]
      refine ((hread item).bind fun value _ =>
        ih.bind_contained fun rest => contained_ok (value :: rest)).congr ?_
      rw [List.forall_mem_cons]
      refine and_congr_right fun hitem => ?_
      obtain ⟨value, hfound⟩ := hvalue item hitem
      exact ⟨fun h => h value hfound, fun h _ _ => h⟩

/-! ## Readers of answers -/

/-- Is the value a text, with halves of surrogate pairs or without? -/
def IsText (value : Json) : Prop :=
  ∃ t : WideText, value = .str t

/-- The answer has a body that is nested deeper than there is room for. -/
def Answer.IsTooDeep (room : Nat) (answer : Answer) : Prop :=
  ∃ status body, answer = .response status body ∧ (200 ≤ status ∧ status < 300) ∧
    Json.IsTooDeep room (Answer.withoutMark body)

theorem containedIf_bodyStop (target body : Text) (error : Json.ReadError) :
    ContainedIf (.error (Answer.bodyStop target body error) : Except Stop Json)
      (error.problem.isTooDeep = false) := by
  unfold Answer.bodyStop
  obtain ⟨problem, position⟩ := error
  cases problem with
  | tooDeep shape => exact .of_mishap _ Bool.noConfusion
  | _ => exact .of_contained ((contained_error _).mpr rfl) rfl

/-- Whatever status and body an answer has, it gives a value or a failure of fetching, unless the
body is nested too deep. -/
theorem containedIf_json {answer : Answer} (h : answer ≠ .cancelled) (room : Nat) (target : Text) :
    ContainedIf (answer.json room target) (¬ answer.IsTooDeep room) := by
  cases answer with
  | cancelled => exact absurd rfl h
  | lost cause =>
      refine .of_contained ((contained_error _).mpr rfl) ?_
      rintro ⟨status, body, heq, -⟩
      cases heq
  | response status body =>
      have hdeep : (Answer.response status body).IsTooDeep room ↔
          (200 ≤ status ∧ status < 300) ∧ Json.IsTooDeep room (Answer.withoutMark body) := by
        simp [Answer.IsTooDeep]
      rw [hdeep, Answer.json]
      split
      next hstatus =>
        rw [and_iff_right hstatus, Json.isTooDeep_iff]
        cases hread : Json.read room (Answer.withoutMark body) with
        | ok value => exact .of_contained (contained_ok value) (by simp)
        | error error =>
            exact (containedIf_bodyStop target (Answer.withoutMark body) error).congr (by simp)
      next hstatus =>
        exact .of_contained ((contained_error _).mpr rfl) fun hfound => hstatus hfound.1

theorem contained_listOfJson (value : Json) : Contained (ListedFile.listOfJson value) := by
  cases value with
  | arr items => exact contained_ok _
  | _ => exact (contained_error _).mpr rfl

theorem contained_fileContent (path : Text) (value : Json) :
    Contained (FileContent.ofJson path value) := by
  unfold FileContent.ofJson
  cases value.member? "content" with
  | some content => exact contained_ok _
  | none => exact (contained_error _).mpr rfl

/-- What is listed as a file has a text for its name. -/
def ListedFile.IsNamed (file : ListedFile) : Prop :=
  file.kind.alike (.str "file") = true → IsText file.name

/-- A named entry has a code, or is passed over. -/
theorem ListedFile.IsNamed.code_ok {file : ListedFile} (h : file.IsNamed) :
    ∃ code?, file.code? = .ok code? := by
  unfold ListedFile.code?
  cases hkind : file.kind.alike (.str "file") with
  | false => exact ⟨none, rfl⟩
  | true =>
      obtain ⟨name, hname⟩ := h hkind
      rw [hname]
      simp only [Bool.not_true, Bool.false_eq_true, ↓reduceIte]
      split <;> exact ⟨_, rfl⟩

theorem containedIf_code (file : ListedFile) : ContainedIf file.code? file.IsNamed := by
  by_cases hnamed : file.IsNamed
  · obtain ⟨code?, hcode⟩ := hnamed.code_ok
    rw [hcode]
    exact .of_contained (contained_ok _) hnamed
  · unfold ListedFile.IsNamed IsText at hnamed
    obtain ⟨hkind, hname⟩ := Classical.not_imp.mp hnamed
    unfold ListedFile.code?
    rw [hkind]
    cases h : file.name with
    | str name => exact absurd ⟨name, h⟩ hname
    | _ => exact .of_mishap _ hnamed

theorem containedIf_codes (files : List ListedFile) :
    ContainedIf (ListedFile.codes files) (∀ file ∈ files, file.IsNamed) := by
  apply ContainedIf.map
  exact .mapM containedIf_code files fun file hnamed => hnamed.code_ok

/-- What is told to be in base 64 is a text. -/
def FileContent.IsWritten (found : FileContent) : Prop :=
  found.encoding.alike (.str "base64") = true → IsText found.content

theorem contained_ofBase64 (t : WideText) : Contained (Content.ofBase64 t) := by
  unfold Content.ofBase64
  split
  next => exact (contained_error _).mpr rfl
  next =>
    split
    next => exact (contained_error _).mpr rfl
    next =>
      split
      next => exact (contained_error _).mpr rfl
      next bytes _ =>
        cases Utf8.decode bytes with
        | ok decoded => exact contained_ok decoded
        | error error => exact (contained_error _).mpr rfl

theorem containedIf_decode (found : FileContent) :
    ContainedIf (Content.decode found.content found.encoding) found.IsWritten := by
  unfold Content.decode
  cases hencoding : found.encoding.alike (.str "base64") with
  | false =>
      refine .of_contained ((contained_error _).mpr rfl) fun htold => ?_
      rw [hencoding] at htold
      cases htold
  | true =>
      cases hcontent : found.content with
      | str t => exact .of_contained (contained_ofBase64 t) fun _ => ⟨t, hcontent⟩
      | _ =>
          refine .of_mishap _ fun hwritten => ?_
          obtain ⟨t, ht⟩ := hwritten hencoding
          cases hcontent.symm.trans ht

/-! ## Requests -/

namespace Fetcher

/-- The value that the host answers to a request for the target. -/
def answered (fetcher : Fetcher) (target : Text) (host : Host) : Except Stop Json :=
  (host.ask ⟨Target.path target, fetcher.headers⟩).1.json fetcher.room target

theorem outcome_get (fetcher : Fetcher) (target : Text) (host : Host) :
    outcome (fetcher.get target) host =
      if fetcher.cancelled then .error .cancelled
      else match Target.mishap? target with
        | some mishap => .error (.mishap mishap)
        | none => fetcher.answered target host := by
  unfold get
  cases fetcher.cancelled with
  | true => rfl
  | false =>
      cases Target.mishap? target with
      | some mishap => rfl
      | none => exact outcome_ofExcept _ _

theorem outcome_list (fetcher : Fetcher) (path : Text) (host : Host) :
    outcome (fetcher.list path) host =
      (outcome (fetcher.get (fetcher.contentsTarget path)) host).bind ListedFile.listOfJson :=
  outcome_bind_ofExcept _ _ _

theorem outcome_file (fetcher : Fetcher) (path : Text) (host : Host) :
    outcome (fetcher.file path) host =
      (outcome (fetcher.get (fetcher.contentsTarget path)) host).bind (FileContent.ofJson path) :=
  outcome_bind_ofExcept _ _ _

theorem outcome_login (fetcher : Fetcher) (host : Host) :
    outcome fetcher.login host = (outcome (fetcher.get userTarget) host).map loginOfJson := by
  unfold login
  rw [outcome_bind]
  cases outcome (fetcher.get userTarget) host <;> rfl

theorem outcome_codes (fetcher : Fetcher) (host : Host) :
    outcome fetcher.codes host = (outcome (fetcher.list []) host).bind ListedFile.codes :=
  outcome_bind_ofExcept _ _ _

/-- The path of the source file of a country. -/
def sourcePath (fetcher : Fetcher) (name : Text) : Text :=
  fetcher.countriesPath ++ "/" ++ name

theorem outcome_source (fetcher : Fetcher) (code : Text) (host : Host) :
    outcome (fetcher.source code) host =
      match Country.sourceFile? code with
      | none => .error (.failure (Failure.unknownCountry code))
      | some name => (outcome (fetcher.file (fetcher.sourcePath name)) host).bind
          fun found => Content.decode found.content found.encoding := by
  unfold source
  cases Country.sourceFile? code with
  | none => rfl
  | some name => exact outcome_bind_ofExcept _ _ _

/-! ## What requests leave of the host -/

/-- Requests are logged, and the host goes on answering as it did. -/
theorem answers_after_get (fetcher : Fetcher) (target : Text) (host : Host) :
    (after (fetcher.get target) host).answers = host.answers := by
  unfold get
  cases fetcher.cancelled with
  | true => rfl
  | false =>
      cases Target.mishap? target with
      | some mishap => rfl
      | none =>
          change (after (modifyGet _ >>= _) host).answers = host.answers
          rw [after_bind_of_ok rfl, after_ofExcept]
          rfl

theorem answers_after_source (fetcher : Fetcher) (code : Text) (host : Host) :
    (after (fetcher.source code) host).answers = host.answers := by
  unfold source
  cases Country.sourceFile? code with
  | none => rfl
  | some name =>
      change (after (fetcher.file _ >>= fun found => _) host).answers = host.answers
      rw [after_bind_ofExcept]
      unfold file
      rw [after_bind_ofExcept, answers_after_get]

/-- What a fetcher comes to depends on nothing but the answers. -/
theorem outcome_source_congr (fetcher : Fetcher) (code : Text) {host other : Host}
    (h : host.answers = other.answers) :
    outcome (fetcher.source code) host = outcome (fetcher.source code) other := by
  have hanswered : ∀ target, fetcher.answered target host = fetcher.answered target other := by
    intro target
    unfold answered Host.ask
    rw [h]
  simp only [outcome_source, outcome_file, outcome_get, hanswered]

/-! ## Containment -/

/-- The request reaches the host, and the host answers it. -/
structure Reaches (fetcher : Fetcher) (host : Host) : Prop where
  sent : fetcher.cancelled = false
  answered : ∀ path, host.answers.get? path ≠ some .cancelled

variable {fetcher : Fetcher} {host : Host}

theorem Reaches.ask_ne_cancelled (h : fetcher.Reaches host) (request : Request) :
    (host.ask request).1 ≠ .cancelled := by
  intro hcancelled
  unfold Host.ask at hcancelled
  cases hanswer : host.answers.get? request.path with
  | none => simp [hanswer, Host.notFound] at hcancelled
  | some answer =>
      simp only [hanswer, Option.getD_some] at hcancelled
      exact h.answered _ (hcancelled ▸ hanswer)

/-- A request for the target can be made, and the answer to it is not nested too deep. -/
structure Obtains (fetcher : Fetcher) (host : Host) (target : Text) : Prop where
  possible : Target.mishap? target = none
  shallow : ¬ (host.ask ⟨Target.path target, fetcher.headers⟩).1.IsTooDeep fetcher.room

/-- Nothing but a target of which no request can be made, or an answer that is nested too deep,
keeps a request from being answered or refused. -/
theorem Reaches.containedIf_get (h : fetcher.Reaches host) (target : Text) :
    ContainedIf (outcome (fetcher.get target) host) (fetcher.Obtains host target) := by
  rw [outcome_get, h.sent]
  cases hmishap : Target.mishap? target with
  | none =>
      refine (containedIf_json (h.ask_ne_cancelled _) _ target).congr ?_
      exact ⟨fun hshallow => ⟨hmishap, hshallow⟩, fun hobtains => hobtains.shallow⟩
  | some mishap =>
      refine .of_mishap mishap fun hobtains => ?_
      cases hmishap.symm.trans hobtains.possible

theorem Reaches.containedIf_list (h : fetcher.Reaches host) (path : Text) :
    ContainedIf (outcome (fetcher.list path) host)
      (fetcher.Obtains host (fetcher.contentsTarget path)) := by
  rw [outcome_list]
  exact (h.containedIf_get _).bind_contained contained_listOfJson

theorem Reaches.containedIf_file (h : fetcher.Reaches host) (path : Text) :
    ContainedIf (outcome (fetcher.file path) host)
      (fetcher.Obtains host (fetcher.contentsTarget path)) := by
  rw [outcome_file]
  exact (h.containedIf_get _).bind_contained (contained_fileContent path)

theorem Reaches.containedIf_login (h : fetcher.Reaches host) :
    ContainedIf (outcome fetcher.login host) (fetcher.Obtains host userTarget) := by
  rw [outcome_login]
  exact (h.containedIf_get userTarget).map loginOfJson

theorem Reaches.containedIf_codes (h : fetcher.Reaches host) :
    ContainedIf (outcome fetcher.codes host)
      (fetcher.Obtains host (fetcher.contentsTarget []) ∧
        ∀ files, outcome (fetcher.list []) host = .ok files → ∀ file ∈ files, file.IsNamed) := by
  rw [outcome_codes]
  exact (h.containedIf_list []).bind fun files _ => Remote.containedIf_codes files

theorem Reaches.containedIf_source (h : fetcher.Reaches host) (code : Text) :
    ContainedIf (outcome (fetcher.source code) host)
      (∀ name, Country.sourceFile? code = some name →
        fetcher.Obtains host (fetcher.contentsTarget (fetcher.sourcePath name)) ∧
          ∀ found, outcome (fetcher.file (fetcher.sourcePath name)) host = .ok found →
            found.IsWritten) := by
  rw [outcome_source]
  cases Country.sourceFile? code with
  | none => exact .of_contained ((contained_error _).mpr rfl) (by simp)
  | some name =>
      refine ((h.containedIf_file (fetcher.sourcePath name)).bind fun found _ =>
        containedIf_decode found).congr ?_
      simp only [Option.some.injEq, forall_eq']

end Fetcher
end Remote
end Almanac
