import Almanac.Proofs.Data.Base64Forms
import Almanac.Proofs.Outcome
import Almanac.Remote.Content

/-!
# Content under any wrapping

The encoded text of a file comes with line breaks, tabs and spaces anywhere in it. Only what is left
without them counts: it is read as the text of which it is the form, whole or not at all, and every
other body is refused by the one failure of decoding. Behind whole groups signs of filling are let
pass, though no text has such a form.
-/

namespace Almanac.Remote.Content

open Almanac.Text Almanac.Data

/-- The characters that may be put in to break up an encoded text. -/
def fillers : Text :=
  ['\n', '\r', '\t', ' ']

/-- The body without the characters that break it up. -/
def compact (body : WideText) : WideText :=
  body.filter fun p => p ∉ fillers.wide

/-- The body is the text with line breaks, tabs and spaces put in anywhere. -/
inductive Wraps : WideText → WideText → Prop where
  | nothing : Wraps [] []
  | keep {t body : WideText} (p : CodePoint) (h : Wraps t body) : Wraps (p :: t) (p :: body)
  | fill {t body : WideText} {c : Char} (hc : c ∈ fillers) (h : Wraps t body) :
      Wraps t (.char c :: body)

@[simp] theorem char_mem_wide {c : Char} {t : Text} : CodePoint.char c ∈ t.wide ↔ c ∈ t := by
  simp [Text.wide]

theorem isFiller_iff {p : CodePoint} : p.char?.any isFiller = true ↔ p ∈ fillers.wide := by
  cases p with
  | char c => simp [CodePoint.char?, isFiller, fillers, or_assoc]
  | half n => simp [CodePoint.char?, fillers]

/-- Compact bodies are what is decoded. -/
theorem filter_isFiller (body : WideText) :
    body.filter (fun p => !p.char?.any isFiller) = compact body := by
  apply List.filter_congr
  intro p _
  rw [Bool.eq_iff_iff, Bool.not_eq_true', ← Bool.not_eq_true, isFiller_iff, decide_eq_true_iff]

theorem Wraps.compact_eq {t body : WideText} (h : Wraps t body) : compact body = compact t := by
  induction h with
  | nothing => rfl
  | keep p _ ih =>
      simp only [compact, List.filter_cons] at ih ⊢
      rw [ih]
  | fill hc _ ih =>
      rw [compact, List.filter_cons_of_neg (by simpa using hc)]
      exact ih

theorem not_isDigit_of_mem_fillers {c : Char} (hc : c ∈ fillers) (value : Nat) :
    ¬ Base64.IsDigit c value := by
  have hnone : Base64.value? c = none := by
    simp only [fillers, List.mem_cons, List.not_mem_nil, or_false] at hc
    rcases hc with rfl | rfl | rfl | rfl <;> decide
  rw [← Base64.value?_eq_some_iff, hnone]
  exact nofun

/-- Nothing breaks up the form of bytes. -/
theorem compact_form {bytes : List UInt8} {form : Text} (h : Base64.IsForm bytes form) :
    compact form = form := by
  apply List.filter_eq_self.mpr
  refine List.forall_mem_map.mpr fun c hc => ?_
  rw [decide_eq_true_iff]
  intro hfiller
  rw [char_mem_wide] at hfiller
  rcases h.mem hc with rfl | ⟨value, hvalue⟩
  · exact absurd hfiller (by decide)
  · exact not_isDigit_of_mem_fillers hfiller value hvalue

/-! ## Outcomes -/

@[simp]
theorem decode_base64 (body : WideText) : decode (.str body) (.str "base64") = ofBase64 body := by
  rw [decode, if_pos (by decide)]

/-- Bodies that are broken up differently have the same outcome. -/
theorem ofBase64_congr {body other : WideText} (h : compact body = compact other) :
    ofBase64 body = ofBase64 other := by
  unfold ofBase64
  rw [filter_isFiller, filter_isFiller, h]

/-- The text that is given is the one whose bytes are read, and it is given as a whole. -/
theorem ofBase64_ok_iff {body : WideText} {t : Text} : ofBase64 body = .ok t ↔
    ∃ written : Text, compact body = written ∧ Base64.decode written = .ok (Utf8.encode t) := by
  unfold ofBase64
  rw [filter_isFiller]
  constructor
  · intro h
    split at h
    next => cases h
    next written hwritten =>
      refine ⟨written, WideText.text?_eq_some_iff.mp hwritten, ?_⟩
      split at h
      next => cases h
      next =>
        split at h
        next => cases h
        next bytes hread =>
          obtain rfl := Utf8.decode_ok_iff.mp (mapError_eq_ok.mp h)
          exact hread
  · rintro ⟨written, hwritten, h⟩
    have hlow : ¬ (written.any fun c => 127 < c.toNat) = true := by
      intro hwide
      obtain ⟨c, hc, hbound⟩ := List.any_eq_true.mp hwide
      have hlow := Base64.toNat_lt_of_decode_ok h hc
      have hhigh := of_decide_eq_true hbound
      omega
    rw [hwritten, Text.text?_wide]
    dsimp only
    rw [if_neg hlow, h]
    dsimp only
    rw [Utf8.decode_encode]
    rfl

/-- What is not decoded is refused, by one failure that carries its cause. -/
theorem ofBase64_ok_or_failure (body : WideText) :
    (∃ t, ofBase64 body = .ok t) ∨ ∃ cause, ofBase64 body = .error (failure cause) := by
  unfold ofBase64
  split
  next => exact .inr ⟨_, rfl⟩
  next =>
    split
    next => exact .inr ⟨_, rfl⟩
    next =>
      split
      next => exact .inr ⟨_, rfl⟩
      next bytes _ =>
        cases Utf8.decode bytes with
        | error fault => exact .inr ⟨_, rfl⟩
        | ok t => exact .inl ⟨t, rfl⟩

/-- Decoding inverts encoding under every wrapping, and how a body is broken up plays no part.
A body is decoded exactly if what is left of it is the form of a text, or such a form of whole
groups with signs of filling behind it; every other body fails to be decoded. -/
theorem decode_inverts_wrapping (body : WideText) :
    (∀ t, Wraps (Base64.encode (Utf8.encode t)) body →
      decode (.str body) (.str "base64") = .ok t) ∧
    (∀ other, compact body = compact other →
      decode (.str body) (.str "base64") = decode (.str other) (.str "base64")) ∧
    (∀ t, decode (.str body) (.str "base64") = .ok t ↔
      ∃ form signs, compact body = Text.wide (form ++ List.replicate signs '=') ∧
        Base64.IsForm (Utf8.encode t) form ∧ (signs = 0 ∨ Base64.IsWhole form)) ∧
    ((∃ t, decode (.str body) (.str "base64") = .ok t) ∨
      ∃ cause, decode (.str body) (.str "base64") = .error (failure cause)) := by
  simp only [decode_base64]
  refine ⟨?_, ?_, ?_, ofBase64_ok_or_failure body⟩
  · intro t hwraps
    refine ofBase64_ok_iff.mpr ⟨Base64.encode (Utf8.encode t), ?_, Base64.decode_encode _⟩
    rw [hwraps.compact_eq, compact_form (Base64.isForm_encode _)]
  · intro other hsame
    exact ofBase64_congr hsame
  · intro t
    rw [ofBase64_ok_iff]
    simp only [Base64.decode_ok_iff]
    constructor
    · rintro ⟨written, hwritten, form, signs, rfl, hform⟩
      exact ⟨form, signs, hwritten, hform⟩
    · rintro ⟨form, signs, hwritten, hform⟩
      exact ⟨_, hwritten, form, signs, rfl, hform⟩

/-- Two letters, broken up within a group of four. -/
theorem decode_inverts_wrapping_twoLetters :
    Wraps (Base64.encode (Utf8.encode ("hi" : Text))) "aG\r\n\tk =" ∧
      decode (.str "aG\r\n\tk =") (.str "base64") = .ok "hi" ∧
      decode (.str " aGk=") (.str "base64") = decode (.str "aG\nk=") (.str "base64") := by
  have hwraps : Wraps (Base64.encode (Utf8.encode ("hi" : Text))) "aG\r\n\tk =" :=
    .keep _ (.keep _ (.fill (by decide) (.fill (by decide) (.fill (by decide)
      (.keep _ (.fill (by decide) (.keep _ .nothing)))))))
  exact ⟨hwraps, (decode_inverts_wrapping _).1 "hi" hwraps,
    (decode_inverts_wrapping _).2.1 _ (by decide)⟩

/-- A sign behind a whole group is let pass, though no bytes have such a form. -/
theorem decode_signBehindWhole :
    decode (.str "QUFB=") (.str "base64") = .ok "AAA" ∧ compact "QUFB=" = Text.wide "QUFB=" ∧
      ∀ bytes, ¬ Base64.IsForm bytes "QUFB=" := by
  refine ⟨?_, rfl, ?_⟩
  · rw [decode_base64, ofBase64_ok_iff]
    exact ⟨"QUFB=", rfl, rfl⟩
  · intro bytes hform
    have hlength := hform.length_mod
    revert hlength
    decide

end Almanac.Remote.Content
