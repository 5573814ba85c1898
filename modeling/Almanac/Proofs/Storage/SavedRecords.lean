import Almanac.Proofs.Storage.RecordFileRoundTrip

/-!
# What a save leaves behind

However a record came to be saved, the file at the path that is told holds its document, so a
well-formed record is loaded from there.
-/

namespace Almanac.Storage

open Almanac.Data Almanac.Text Almanac.Time

namespace FileTree

/-- A file that could be put at a path holds its bytes. -/
theorem bytes_of_put {tree next : FileTree} {path : Path} {content : List UInt8}
    (h : tree.put path content = .ok next) : next.bytes path = .ok content := by
  obtain ⟨place, hplace, hfree, rfl⟩ := of_putNode h
  exact bytes_insert hplace hfree content

theorem contains_of_bytes {tree : FileTree} {path : Path} {content : List UInt8}
    (h : tree.bytes path = .ok content) : tree.contains path = true := by
  unfold bytes at h
  unfold contains at?
  cases hplace : tree.resolve path with
  | error problem => rw [hplace] at h; cases h
  | ok place =>
      rw [hplace] at h
      dsimp only [bind, Except.bind] at h ⊢
      cases hnode : tree.node? place with
      | none => rw [hnode] at h; cases h
      | some node => rfl

end FileTree

namespace TextFile

/-- Bytes that replaced those of a file are in the file. -/
theorem bytes_of_store {tree next : FileTree} {path : Path} {added : List UInt8}
    (h : store tree path .replace added = .ok next) : next.bytes path = .ok added := by
  have hput : (tree.put path added).mapError (PathProblem.mishap path) = .ok next := by
    unfold store at h
    dsimp only at h
    cases hbytes : tree.bytes path with
    | ok old => rwa [hbytes] at h
    | error problem => cases problem <;> rw [hbytes] at h <;> first | exact h | cases h
  exact FileTree.bytes_of_put (mapError_eq_ok.mp hput)

/-- What replaced the content of a file is a text, and its bytes are in the file. -/
theorem bytes_of_replace {tree next : FileTree} {path : Path} {t : WideText}
    (h : Writer.replace tree ⟨some path⟩ t = (.ok (), next)) :
    ∃ written : Text, t = written ∧ next.bytes path = .ok (Utf8.encode written) := by
  have hmode : Mode.ofText "w" = .ok .replace := rfl
  unfold Writer.replace Writer.write at h
  dsimp only at h
  rw [hmode] at h
  dsimp only at h
  split at h
  next => cases h
  next stored hstore =>
    obtain ⟨houtcome, rfl⟩ := Prod.mk.inj h
    split_ifs at houtcome with htext
    obtain ⟨written, hwritten⟩ := Option.isSome_iff_exists.mp htext
    obtain rfl := WideText.text?_eq_some_iff.mp hwritten
    rw [Utf8.encodeWide_wide] at hstore
    exact ⟨written, rfl, bytes_of_store hstore⟩

end TextFile

namespace RecordFile

theorem bytes_of_write {tree next : FileTree} {path : Path} {record : Record}
    (h : write tree path record = (.ok (), next)) :
    ∃ t : Text, record.toJson.document = t ∧ next.bytes path = .ok (Utf8.encode t) := by
  unfold write TextFile.Writer.ofPath at h
  split at h
  next => cases h
  next writer hwriter =>
    split_ifs at hwriter
    obtain rfl := Except.ok.inj hwriter
    exact TextFile.bytes_of_replace h

/-- A record that was saved has a code, which names the path, and its document is there. -/
theorem save_ok {tree next : FileTree} {directory file : Path} {record : Record}
    (h : save tree directory record = (.ok file, next)) :
    ∃ code t : Text, codeOf record = .ok code ∧ file = path directory code ∧
      record.toJson.document = t ∧ next.bytes file = .ok (Utf8.encode t) := by
  unfold save at h
  split at h
  next => cases h
  next wide hcode =>
    split at h
    next => cases h
    next made _ =>
      split at h
      next => cases h
      next found hpath =>
        obtain ⟨houtcome, rfl⟩ := Prod.mk.inj h
        obtain ⟨⟨⟩, hwrite, rfl⟩ := exists_of_map_eq_ok houtcome
        obtain ⟨t, hdocument, hbytes⟩ := bytes_of_write (Prod.ext hwrite rfl)
        unfold pathOf at hpath
        split at hpath
        next code hcodeText =>
          obtain rfl := WideText.text?_eq_some_iff.mp hcodeText
          exact ⟨code, t, hcode, (Except.ok.inj hpath).symm, hdocument, hbytes⟩
        next => cases hpath

end RecordFile
end Almanac.Storage
