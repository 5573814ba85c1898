import Almanac.Proofs.Data.NestedTexts
import Almanac.Proofs.Record.MissingObjects
import Almanac.Proofs.Storage.SavedRecords

/-!
# Files that hold no record

Whatever a file holds, loading it as a record gives one, or fails with the file. Two kinds of files
are beyond that and end in a bare mishap: those with a JSON value that misses an object, and those
with a text that is nested too deep.
-/

namespace Almanac.Storage

open Almanac.Data Almanac.Time

theorem TextFile.contains_of_read {tree : FileTree} {path : Path} {t : Text}
    (h : read tree path = .ok t) : tree.contains path = true := by
  unfold read at h
  cases hbytes : tree.bytes path with
  | error problem =>
      rw [hbytes] at h
      cases h
  | ok bytes => exact FileTree.contains_of_bytes hbytes

/-- A file that cannot be read as a text is a failure with that file. -/
theorem TextFile.exists_cause_of_read {tree : FileTree} {path : Path} {stop : Stop}
    (h : read tree path = .error stop) : ∃ cause, stop = readingFailure path cause := by
  unfold read at h
  split at h
  next problem _ => exact ⟨problem.mishap path, (Except.error.inj h).symm⟩
  next =>
    split at h
    next error _ => exact ⟨decodingMishap error, (Except.error.inj h).symm⟩
    next => cases h

namespace RecordFile

variable {room : Nat} {now : Timestamp} {tree : FileTree} {path : Path}

/-! ## Kinds of mishaps -/

/-- Is it the mishap of a value that lacks what is asked of it? -/
def IsLackMishap (mishap : Mishap) : Prop :=
  mishap.kind = "AttributeError"

/-- Is it the mishap of a text that is nested too deep? -/
def IsDepthMishap (mishap : Mishap) : Prop :=
  mishap.kind = "RecursionError"

theorem IsLackMishap.not_mem {mishap : Mishap} (h : IsLackMishap mishap) :
    mishap.kind ∉ recordKinds := by
  rw [h]
  decide

theorem IsDepthMishap.not_mem {mishap : Mishap} (h : IsDepthMishap mishap) :
    mishap.kind ∉ recordKinds := by
  rw [h]
  decide

theorem IsDepthMishap.not_isLackMishap {mishap : Mishap} (h : IsDepthMishap mishap) :
    ¬ IsLackMishap mishap := by
  rw [IsLackMishap, h]
  decide

theorem kind_readingMishap (t : Text) (error : Json.ReadError) :
    if error.problem.isTooDeep = true then IsDepthMishap (readingMishap t error)
      else (readingMishap t error).kind ∈ recordKinds := by
  have hkinds : ("ValueError" : Text) ∈ recordKinds ∧ ("JSONDecodeError" : Text) ∈ recordKinds := by
    decide
  unfold readingMishap
  obtain ⟨problem, position⟩ := error
  cases problem with
  | tooDeep shape => exact rfl
  | oversizedInteger digits => exact hkinds.1
  | _ => exact hkinds.2

/-- A fault that a value lacks nothing for tells that it is no record. -/
theorem kind_fault {fault : Record.Fault} (h : ¬ fault.IsLack) : fault.kind ∈ recordKinds := by
  have hkinds : ("ValueError" : Text) ∈ recordKinds ∧ ("KeyError" : Text) ∈ recordKinds ∧
      ("TypeError" : Text) ∈ recordKinds := by decide
  have hshape : ∀ {shape : Json.ShapeFault}, ¬ shape.IsLack → shape.kind ∈ recordKinds := by
    intro shape hshape
    cases shape with
    | lacks => exact absurd trivial hshape
    | pairLength => exact hkinds.1
    | _ => exact hkinds.2.2
  cases fault with
  | shape shape => exact hshape h
  | entry entry =>
      cases entry with
      | shape shape => exact hshape h
      | missing => exact hkinds.2.1
      | unknownKind | fixedIncomplete | monthOutOfRange | easterIncomplete => exact hkinds.1
      | ruleNoObject | ruleExcess | ruleMissing | monthNoNumber => exact hkinds.2.2
  | timeNoText => exact hkinds.2.2
  | time => exact hkinds.1

/-! ## Texts -/

/-- Of the texts, those of values that miss an object lack something. -/
theorem lacks_ofText_iff (room : Nat) (now : Timestamp) (t : Text) :
    Lacks IsLackMishap (ofText room now t) ↔
      ∃ value, Json.read room t = .ok value ∧ Record.MissesObject value := by
  unfold ofText
  cases hread : Json.read room t with
  | error error =>
      have hkind := kind_readingMishap t error
      refine iff_of_false ?_ (by simp)
      rw [lacks_error]
      intro hlack
      split at hkind
      next => exact hkind.not_isLackMishap hlack
      next => exact hlack.not_mem hkind
  | ok value =>
      simp only [lacks_mapError, IsLackMishap, Record.Fault.kind_eq_iff, Record.lacks_ofJson_iff,
        Except.ok.injEq, exists_eq_left']

theorem not_isDepthMishap_fault (fault : Record.Fault) :
    ¬ IsDepthMishap ⟨fault.kind, fault.message⟩ := by
  intro hdepth
  by_cases hlack : fault.IsLack
  · exact hdepth.not_isLackMishap ((Record.Fault.kind_eq_iff fault).mpr hlack)
  · exact hdepth.not_mem (kind_fault hlack)

/-- A text comes to the mishap of too deep a nesting just if it is nested too deep. -/
theorem depth_ofText_iff (room : Nat) (now : Timestamp) (t : Text) :
    Lacks IsDepthMishap (ofText room now t) ↔ Json.IsTooDeep room t := by
  rw [Json.isTooDeep_iff]
  unfold ofText
  cases hread : Json.read room t with
  | error error =>
      have hkind := kind_readingMishap t error
      simp only [lacks_error, Except.error.injEq, exists_eq_left']
      split at hkind
      next hdeep => exact iff_of_true hkind hdeep
      next hshallow => exact iff_of_false (fun hdepth => hdepth.not_mem hkind) hshallow
  | ok value =>
      refine iff_of_false ?_ (by simp)
      rw [lacks_mapError]
      rintro ⟨fault, -, hdepth⟩
      exact not_isDepthMishap_fault fault hdepth

/-- What a text comes to otherwise tells that it is no record. -/
theorem kind_of_ofText {t : Text} {cause : Mishap} (h : ofText room now t = .error cause) :
    IsLackMishap cause ∨ IsDepthMishap cause ∨ cause.kind ∈ recordKinds := by
  unfold ofText at h
  split at h
  next error _ =>
    obtain rfl := Except.error.inj h
    have hkind := kind_readingMishap t error
    split at hkind
    next => exact .inr (.inl hkind)
    next => exact .inr (.inr hkind)
  next value _ =>
    cases hrecord : Record.ofJson now value with
    | ok record =>
        rw [hrecord] at h
        cases h
    | error fault =>
        rw [hrecord] at h
        obtain rfl := Except.error.inj h
        by_cases hlack : fault.IsLack
        · exact .inl ((Record.Fault.kind_eq_iff fault).mpr hlack)
        · exact .inr (.inr (kind_fault hlack))

/-! ## Files -/

/-- The file at the path holds a JSON value that misses an object. -/
def IsSpoiled (room : Nat) (tree : FileTree) (path : Path) : Prop :=
  ∃ t value, TextFile.read tree path = .ok t ∧ Json.read room t = .ok value ∧
    Record.MissesObject value

/-- The file at the path holds a text that is nested deeper than there is room for. -/
def IsTooDeep (room : Nat) (tree : FileTree) (path : Path) : Prop :=
  ∃ t, TextFile.read tree path = .ok t ∧ Json.IsTooDeep room t

theorem IsSpoiled.contains (h : IsSpoiled room tree path) : tree.contains path = true := by
  obtain ⟨t, value, hread, -⟩ := h
  exact TextFile.contains_of_read hread

theorem IsTooDeep.contains (h : IsTooDeep room tree path) : tree.contains path = true := by
  obtain ⟨t, hread, -⟩ := h
  exact TextFile.contains_of_read hread

theorem contains_of_load {record : Record} (h : load room now tree path = .ok record) :
    tree.contains path = true := by
  unfold load at h
  cases hread : TextFile.read tree path with
  | error stop =>
      rw [hread] at h
      cases h
  | ok t => exact TextFile.contains_of_read hread

/-- The failure is that the file at the path cannot be read. -/
def IsReadingFailure (path : Path) (stop : Stop) : Prop :=
  ∃ failure, stop = .failure failure ∧ failure.kind = .fileReading (some path.toText)

theorem recordStop_of_not_mem {cause : Mishap} (h : cause.kind ∉ recordKinds) :
    recordStop path cause = .mishap cause :=
  if_neg h

theorem isReadingFailure_recordStop {cause : Mishap} (h : cause.kind ∈ recordKinds) :
    IsReadingFailure path (recordStop path cause) :=
  ⟨_, if_pos h, rfl⟩

theorem load_of_read (room : Nat) (now : Timestamp) {t : Text}
    (h : TextFile.read tree path = .ok t) :
    load room now tree path = (ofText room now t).mapError (recordStop path) := by
  rw [load, h]
  rfl

/-- How loading a file as a record can end. -/
inductive Loading (room : Nat) (tree : FileTree) (path : Path) : Except Stop Record → Prop
  | record (record : Record) (hspoiled : ¬ IsSpoiled room tree path)
      (hdeep : ¬ IsTooDeep room tree path) : Loading room tree path (.ok record)
  | failure {stop : Stop} (hstop : IsReadingFailure path stop)
      (hspoiled : ¬ IsSpoiled room tree path) (hdeep : ¬ IsTooDeep room tree path) :
      Loading room tree path (.error stop)
  | lack {mishap : Mishap} (hmishap : IsLackMishap mishap) (hspoiled : IsSpoiled room tree path) :
      Loading room tree path (.error (.mishap mishap))
  | depth {mishap : Mishap} (hmishap : IsDepthMishap mishap) (hdeep : IsTooDeep room tree path) :
      Loading room tree path (.error (.mishap mishap))

/-- What is neither spoiled nor nested too deep is loaded, or fails with the file; what is spoiled
or nested too deep ends in a mishap that tells which it is. -/
theorem loading (room : Nat) (now : Timestamp) (tree : FileTree) (path : Path) :
    Loading room tree path (load room now tree path) := by
  cases hread : TextFile.read tree path with
  | error stop =>
      obtain ⟨cause, rfl⟩ := TextFile.exists_cause_of_read hread
      have hload : load room now tree path = .error (TextFile.readingFailure path cause) := by
        rw [load, hread]
        rfl
      rw [hload]
      refine .failure ⟨_, rfl, rfl⟩ ?_ ?_
      · rintro ⟨t, value, hother, -⟩
        cases hread.symm.trans hother
      · rintro ⟨t, hother, -⟩
        cases hread.symm.trans hother
  | ok t =>
      have hspoiled : IsSpoiled room tree path ↔ Lacks IsLackMishap (ofText room now t) := by
        simp [IsSpoiled, lacks_ofText_iff, hread]
      have hdeep : IsTooDeep room tree path ↔ Json.IsTooDeep room t := by
        simp [IsTooDeep, hread]
      rw [load_of_read room now hread]
      rw [← depth_ofText_iff room now] at hdeep
      cases htext : ofText room now t with
      | ok record =>
          rw [htext] at hspoiled hdeep
          exact .record record (by simp [hspoiled]) (by simp [hdeep])
      | error cause =>
          rw [htext, lacks_error] at hspoiled hdeep
          change Loading room tree path (.error (recordStop path cause))
          rcases kind_of_ofText htext with hlack | hdepth | hkind
          · rw [recordStop_of_not_mem hlack.not_mem]
            exact .lack hlack (hspoiled.mpr hlack)
          · rw [recordStop_of_not_mem hdepth.not_mem]
            exact .depth hdepth (hdeep.mpr hdepth)
          · exact .failure (isReadingFailure_recordStop hkind)
              (fun h => (hspoiled.mp h).not_mem hkind) fun h => (hdeep.mp h).not_mem hkind

/-- Nothing is read of a text that is nested too deep. -/
theorem IsSpoiled.not_isTooDeep (h : IsSpoiled room tree path) : ¬ IsTooDeep room tree path := by
  obtain ⟨t, value, hread, hvalue, -⟩ := h
  rintro ⟨other, hother, hdeep⟩
  obtain rfl := Except.ok.inj (hread.symm.trans hother)
  obtain ⟨error, herror, -⟩ := (Json.isTooDeep_iff room t).mp hdeep
  cases hvalue.symm.trans herror

/-- Spoiled files, and no others, end in the mishap of a value that lacks something. -/
theorem exists_lackMishap_iff (room : Nat) (now : Timestamp) (tree : FileTree) (path : Path) :
    (∃ mishap, IsLackMishap mishap ∧ load room now tree path = .error (.mishap mishap)) ↔
      IsSpoiled room tree path := by
  generalize hload : load room now tree path = found
  have hloading := hload ▸ loading room now tree path
  cases hloading with
  | record record hspoiled hdeep => simp [hspoiled]
  | failure hstop hspoiled hdeep =>
      obtain ⟨failure, rfl, -⟩ := hstop
      simp [hspoiled]
  | lack hmishap hspoiled => exact iff_of_true ⟨_, hmishap, rfl⟩ hspoiled
  | depth hmishap hdeep =>
      refine iff_of_false ?_ fun hspoiled => hspoiled.not_isTooDeep hdeep
      rintro ⟨mishap, hlack, heq⟩
      obtain rfl := Stop.mishap.inj (Except.error.inj heq)
      exact hmishap.not_isLackMishap hlack

/-- Files with a text that is nested too deep, and no others, end in the mishap of that. -/
theorem exists_depthMishap_iff (room : Nat) (now : Timestamp) (tree : FileTree) (path : Path) :
    (∃ mishap, IsDepthMishap mishap ∧ load room now tree path = .error (.mishap mishap)) ↔
      IsTooDeep room tree path := by
  generalize hload : load room now tree path = found
  have hloading := hload ▸ loading room now tree path
  cases hloading with
  | record record hspoiled hdeep => simp [hdeep]
  | failure hstop hspoiled hdeep =>
      obtain ⟨failure, rfl, -⟩ := hstop
      simp [hdeep]
  | lack hmishap hspoiled =>
      refine iff_of_false ?_ hspoiled.not_isTooDeep
      rintro ⟨mishap, hdepth, heq⟩
      obtain rfl := Stop.mishap.inj (Except.error.inj heq)
      exact hdepth.not_isLackMishap hmishap
  | depth hmishap hdeep => exact iff_of_true ⟨_, hmishap, rfl⟩ hdeep

end RecordFile
end Almanac.Storage
