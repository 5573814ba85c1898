import Almanac.Proofs.Data.ReadValues
import Almanac.Proofs.Storage.SavedRecords
import Almanac.Settings

/-!
# Tokens that are saved

Saving a token stops before the file of the settings is opened, or puts the settings that were read
before there, with the token among them. What could go wrong otherwise goes wrong before: a
directory that cannot be made, a file that cannot be read, a text that is no JSON, a value that
takes no member, and settings that are nested too deep to be written. One thing goes wrong behind
that: a token with half of a surrogate pair has no encoding, and this shows when the file is open
and empty already.
-/

namespace Almanac.Settings

open Almanac.Text Almanac.Data Almanac.Storage

variable {around : Surroundings} {tree made : FileTree}

/-! ## The directory of the settings -/

/-- The name of the file of the settings in its directory. -/
def fileName : Text := "settings.json"

theorem file_eq (around : Surroundings) :
    file around = ⟨(directory around).root, (directory around).steps ++ [fileName]⟩ := by
  have hname : Path.ofText "settings.json" = ⟨[], [fileName]⟩ := by decide
  rw [file, hname]
  rfl

theorem parent_file (around : Surroundings) : (file around).parent = directory around := by
  simp [file_eq, Path.parent]

theorem ensureLast_of_withDirectory (hmade : withDirectory around tree = .ok made) :
    tree.ensureLast (directory around) = (made, none) := by
  unfold withDirectory at hmade
  split at hmade
  next wider hwider =>
    obtain rfl := Except.ok.inj hmade
    exact hwider
  next => cases hmade

theorem read_of_missing (hmissing : tree.at? (file around) = none) :
    read around tree = .ok (.obj []) := by
  simp [read, FileTree.contains, hmissing]

theorem readable_of_read {value : Json} (hread : read around tree = .ok value) :
    Json.Readable (Json.levels around.room) value := by
  unfold read at hread
  split at hread
  next =>
    split at hread
    next => cases hread
    next => exact Json.readable_of_read (mapError_eq_ok.mp hread)
  next =>
    obtain rfl := Except.ok.inj hread
    have hempty : Json.Readable 1 (.obj []) := .obj [] (by simp [Entries.keys]) (by simp)
    exact hempty.mono (Nat.add_pos_left (by decide) _)

theorem read_of_bytes {t : Text} (hbytes : tree.bytes (file around) = .ok (Utf8.encode t))
    (hreturn : '\r' ∉ t) {settings : Json} (hsettings : Json.read around.room t = .ok settings) :
    read around tree = .ok settings := by
  unfold read
  rw [if_pos (FileTree.contains_of_bytes hbytes), TextFile.read_of_bytes hbytes hreturn]
  exact mapError_eq_ok.mpr hsettings

/-- Where the directory of the settings is made, there were no settings, and there are none. -/
theorem of_withDirectory (hmade : withDirectory around tree = .ok made) :
    made.files = tree.files ∧ made.at? (file around) = tree.at? (file around) ∧
      read around made = read around tree := by
  rcases FileTree.of_ensureLast (ensureLast_of_withDirectory hmade) with hmake | ⟨-, rfl⟩
  · have hstep : fileName ≠ backStep := by decide
    obtain ⟨hbefore, hafter⟩ := FileTree.at?_concat_of_makeDirectory hmake hstep
    rw [← file_eq] at hbefore hafter
    exact ⟨FileTree.files_of_makeDirectory hmake, hafter.trans hbefore.symm,
      (read_of_missing hafter).trans (read_of_missing hbefore).symm⟩
  · exact ⟨rfl, rfl, rfl⟩

/-- In the place of settings that can be read there is no directory. -/
theorem exists_place_of_read (hdirectory : made.isDirectory (directory around) = true)
    {value : Json} (hread : read around made = .ok value) :
    ∃ place, made.resolve (file around) = .ok place ∧ made.node? place ≠ some .directory := by
  obtain ⟨place, hplace, hnode⟩ := (FileTree.isDirectory_iff _ _).mp hdirectory
  have hfile := FileTree.resolve_concat hplace hnode fileName
  rw [← file_eq] at hfile
  refine ⟨_, hfile, fun hoccupied => ?_⟩
  simp [read, FileTree.contains, FileTree.at?, TextFile.read, FileTree.bytes, hfile, hoccupied,
    bind, Except.bind] at hread

/-! ## The settings with the token -/

/-- The settings are those from before with the token: it stands in the place of an older one or
at the end, and all others are as they were, in their order. -/
structure IsUpdate (members updated : Entries WideText Json) (token : WideText) : Prop where
  token : updated.get? tokenName.wide = some (.str token)
  others : updated.filter (fun member => member.1 ≠ tokenName.wide) =
    members.filter fun member => member.1 ≠ tokenName.wide
  order : updated.keys =
    if tokenName.wide ∈ members.keys then members.keys else members.keys ++ [tokenName.wide]
  names : updated.keys.Nodup

theorem isUpdate_put {members : Entries WideText Json} (hnames : members.keys.Nodup)
    (token : WideText) : IsUpdate members (members.put tokenName (.str token)) token where
  token := by simp
  others := Entries.filter_put members tokenName _
  order := by
    rw [Entries.keys_put]
    by_cases htoken : tokenName.wide ∈ members.keys <;> simp [htoken]
  names := Entries.nodup_keys_put hnames tokenName _

theorem withToken_eq_ok {token : WideText} {value settings : Json} :
    withToken token value = .ok settings ↔
      ∃ members, value = .obj members ∧
        settings = .obj (Entries.put members tokenName (.str token)) := by
  cases value <;> simp [withToken, eq_comm]

/-! ## Saving -/

/-- The token can be put into the settings: their directory can be made, and the settings from
before, none if there was no file, are an object, which can be written with the token in it. -/
structure TakesToken (around : Surroundings) (tree : FileTree) (token : WideText) : Prop where
  directory : ∃ made, withDirectory around tree = .ok made
  object : ∃ members, read around tree = .ok (.obj members) ∧
    (Json.obj (Entries.put members tokenName (.str token))).depth ≤ Json.levels around.writingRoom

theorem document_eq_ok {settings : Json} {t : WideText} :
    document around settings = .ok t ↔
      settings.depth ≤ Json.levels around.writingRoom ∧ settings.document = t := by
  unfold document
  split
  next hroom => simp [hroom]
  next hroom => simp [hroom]

/-- Where a token cannot be put into the settings, saving it stops before their file is opened. -/
theorem save_of_not_takesToken {token : WideText} (h : ¬ TakesToken around tree token) :
    ∃ stop after, save around tree token = (.error stop, after) ∧ after.files = tree.files ∧
      after.at? (file around) = tree.at? (file around) := by
  unfold save
  cases hmade : withDirectory around tree with
  | error stop => exact ⟨stop, tree, rfl, rfl, rfl⟩
  | ok made =>
      obtain ⟨hfiles, hat, hsame⟩ := of_withDirectory hmade
      dsimp only
      cases hdraft : draft around made token with
      | error stop => exact ⟨stop, made, rfl, hfiles, hat⟩
      | ok drafted =>
          obtain ⟨value, hvalue, hdraft⟩ := bind_eq_ok.mp hdraft
          obtain ⟨settings, hsettings, hdraft⟩ := bind_eq_ok.mp hdraft
          obtain ⟨writer, -, hdraft⟩ := bind_eq_ok.mp hdraft
          obtain ⟨t, hdocument, -⟩ := bind_eq_ok.mp hdraft
          obtain ⟨members, rfl, rfl⟩ := withToken_eq_ok.mp hsettings
          obtain ⟨hroom, -⟩ := document_eq_ok.mp hdocument
          exact absurd ⟨⟨made, hmade⟩, members, hsame.symm.trans hvalue, hroom⟩ h

/-- Where a token can be put into the settings, the document of the settings with it replaces what
was in their file, and if it has no encoding, the file is left empty. -/
theorem save_of_object (hmade : withDirectory around tree = .ok made)
    {members : List (WideText × Json)} (hread : read around made = .ok (.obj members))
    {token t : WideText}
    (hdocument : document around (.obj (Entries.put members tokenName (.str token))) = .ok t) :
    ∃ after, save around tree token =
        (if t.text?.isSome then .ok () else .error (.mishap (.unencodable t)), after) ∧
      after.bytes (file around) = .ok ((Utf8.encodeWide t).toOption.getD []) := by
  have hdirectory := FileTree.isDirectory_of_ensureLast (ensureLast_of_withDirectory hmade)
  obtain ⟨place, hplace, hfree⟩ := exists_place_of_read hdirectory hread
  have hwriter : TextFile.Writer.ofPath made (file around) = .ok ⟨some (file around)⟩ := by
    refine TextFile.ofPath_eq ?_
    rwa [parent_file]
  refine ⟨_, ?_, FileTree.bytes_insert hplace hfree _⟩
  have hdraft : draft around made token = .ok (t, ⟨some (file around)⟩) := by
    simp only [draft, hread, withToken, hwriter, hdocument, bind, Except.bind]
    rfl
  unfold save
  rw [hmade]
  dsimp only
  rw [hdraft]
  exact TextFile.replace_eq hplace hfree t

/-! ## Loading -/

/-- Where neither the surroundings nor a file have a token, that of the settings is loaded. -/
theorem token?_of_read {updated : Entries WideText Json} {token : WideText}
    (hread : read around tree = .ok (.obj updated))
    (htoken : updated.get? tokenName.wide = some (.str token)) {environment : WideText}
    (henvironment : environment.strip = []) {path : Path} (hfile : tree.isFile path = false) :
    token? { around with token := environment } tree path =
      .ok (if token.strip = [] then none else some token.strip) := by
  have hsaved : savedToken { around with token := environment } tree = .ok token.strip := by
    have hread' : read { around with token := environment } tree = .ok (.obj updated) := hread
    unfold savedToken
    rw [hread']
    -- an empty token counts as none, and the text in its place is empty as well
    have hword : Json.orElse (.str token) (.str []) = .str token := by
      cases token <;> rfl
    simp only [bind, Except.bind, Json.member?, htoken, Option.getD_some, hword]
  unfold token?
  simp only [henvironment, tokenIn, hfile, hsaved, bind, Except.bind, List.isEmpty_nil,
    Bool.not_true, Bool.false_eq_true, if_false, List.isEmpty_iff]
  rfl

/-! ## What a save comes to -/

/-- Saving a token comes to one of three ends. Where it cannot be put into the settings, it stops and
leaves what is at their place as it was, in fact all files. Otherwise a token that is a text is
saved: the settings that are read afterwards are those from before with the token among them and
nothing else changed; and where neither the surroundings nor a file have a token, the one that is
loaded is the saved one without the white space around it, or none if nothing is left. A token with
half of a surrogate pair stops with a mishap of its own and leaves an empty file. The settings from
before have neither floating-point numbers nor such halves. -/
theorem save_stops_or_keeps_or_empties (around : Surroundings) (tree : FileTree)
    (hsettled : ∀ value, read around tree = .ok value → Json.Settled value) (token : WideText) :
    (¬ TakesToken around tree token ∧ ∃ stop after, save around tree token = (.error stop, after) ∧
      after.files = tree.files ∧ after.at? (file around) = tree.at? (file around)) ∨
    (TakesToken around tree token ∧ token.text?.isSome ∧ ∃ members updated after,
      save around tree token = (.ok (), after) ∧
      read around tree = .ok (.obj members) ∧ read around after = .ok (.obj updated) ∧
      IsUpdate members updated token ∧
      ∀ environment path, WideText.strip environment = [] → after.isFile path = false →
        token? { around with token := environment } after path =
          .ok (if token.strip = [] then none else some token.strip)) ∨
    (TakesToken around tree token ∧ token.text? = none ∧ ∃ mishap after,
      save around tree token = (.error (.mishap mishap), after) ∧
      mishap.kind = "UnicodeEncodeError" ∧ after.bytes (file around) = .ok []) := by
  by_cases htakes : TakesToken around tree token
  · obtain ⟨⟨made, hmade⟩, members, hread, hroom⟩ := htakes
    obtain ⟨-, -, hsame⟩ := of_withDirectory hmade
    have hobject := hsame.trans hread
    cases htext : token.text? with
    | some t =>
        obtain rfl := WideText.text?_eq_some_iff.mp htext
        have hreadable := readable_of_read hread
        have hplain := (hreadable.put tokenName (.str t)).plain
          ((hsettled _ hread).put tokenName (.str t))
        obtain ⟨document, hdocument, hreturn, hagain⟩ := hplain.exists_document
        obtain ⟨after, hsaved, hbytes⟩ :=
          save_of_object hmade hobject (document_eq_ok.mpr ⟨hroom, hdocument⟩)
        rw [Utf8.encodeWide_wide] at hbytes
        rw [Text.text?_wide] at hsaved
        have hafter := read_of_bytes hbytes hreturn (hagain around.room le_rfl)
        have hupdate := isUpdate_put hreadable.names t.wide
        exact .inr (.inl ⟨⟨⟨made, hmade⟩, members, hread, hroom⟩, rfl, members, _, after, hsaved, hread,
          hafter, hupdate, fun environment path henvironment hfile =>
            token?_of_read hafter hupdate.token henvironment hfile⟩)
    | none =>
        have hmem := Entries.mem_of_get?_eq_some
          (isUpdate_put (readable_of_read hread).names token).token
        have hdocument := Json.document_of_half hmem htext
        obtain ⟨after, hsaved, hbytes⟩ :=
          save_of_object hmade hobject (document_eq_ok.mpr ⟨hroom, rfl⟩)
        rw [Utf8.encodeWide, hdocument] at hbytes
        rw [hdocument] at hsaved
        exact .inr (.inr ⟨⟨⟨made, hmade⟩, members, hread, hroom⟩, rfl, _, after, hsaved, rfl, hbytes⟩)
  · exact .inl ⟨htakes, save_of_not_takesToken htakes⟩

/-- The settings of a user with an older token between two others. -/
def themed : Text :=
  "\x7b\"sizes\": [1, -2, \x7b\x7d], \"github_token\": \"old\", \"color\": \"grün\"\x7d"

def themedMembers : List (WideText × Json) :=
  [("sizes", .arr [.int 1, .int (-2), .obj []]), ("github_token", .str "old"),
    ("color", .str "grün")]

def themedTree : FileTree :=
  ⟨[(["home"], .directory), (["home", ".holidaysync"], .directory),
    (["home", ".holidaysync", "settings.json"], .file (Utf8.encode themed))], by decide +kernel⟩

def atHome : Surroundings where
  home := ⟨[], ["home"]⟩

theorem bytes_themedTree : themedTree.bytes (file atHome) = .ok (Utf8.encode themed) := rfl

theorem read_themedTree : read atHome themedTree = .ok (.obj themedMembers) := by
  have hjson : Json.read Json.usualRoom themed = .ok (.obj themedMembers) := by
    with_unfolding_all rfl
  exact read_of_bytes bytes_themedTree (by decide) hjson

theorem depth_themed (token : WideText) :
    (Json.obj (Entries.put themedMembers tokenName (.str token))).depth = 3 := rfl

theorem takesToken_themedTree (token : WideText) : TakesToken atHome themedTree token where
  directory := ⟨themedTree, rfl⟩
  object := ⟨themedMembers, read_themedTree, by rw [depth_themed]; decide⟩

theorem settled_themed : Json.Settled (.obj themedMembers) := by
  have hsizes : Json.Settled (.arr [.int 1, .int (-2), .obj []]) := by
    refine .arr _ fun item hitem => ?_
    simp only [List.mem_cons, List.not_mem_nil, or_false] at hitem
    rcases hitem with rfl | rfl | rfl
    · exact .int 1
    · exact .int (-2)
    · exact .obj [] (by simp) (by simp)
  refine .obj _ (fun member hmember => ?_) fun member hmember => ?_
  all_goals
    simp only [themedMembers, List.mem_cons, List.not_mem_nil, or_false] at hmember
  · rcases hmember with rfl | rfl | rfl <;> exact ⟨_, rfl⟩
  rcases hmember with rfl | rfl | rfl
  · exact hsizes
  · exact .str _
  · exact .str _

/-- A token with white space around it takes the place of the older one. -/
theorem save_keeps_themed :
    (∀ value, read atHome themedTree = .ok value → Json.Settled value) ∧
    ∃ updated after, save atHome themedTree " new\n" = (.ok (), after) ∧
      read atHome after = .ok (.obj updated) ∧ IsUpdate themedMembers updated " new\n" ∧
      ∀ path, after.isFile path = false →
        token? atHome after path = .ok (some "new") := by
  have hsettled : ∀ value, read atHome themedTree = .ok value → Json.Settled value := by
    intro value hvalue
    obtain rfl := Except.ok.inj (read_themedTree.symm.trans hvalue)
    exact settled_themed
  refine ⟨hsettled, ?_⟩
  rcases save_stops_or_keeps_or_empties atHome themedTree hsettled " new\n" with
    ⟨hrefused, -⟩ | ⟨-, -, members, updated, after, hsave, hbefore, hafter, hupdate, htoken⟩ |
    ⟨-, hhalf, -⟩
  · exact absurd (takesToken_themedTree _) hrefused
  · obtain rfl := Json.obj.inj (Except.ok.inj (read_themedTree.symm.trans hbefore))
    have hstrip : WideText.strip (" new\n" : WideText) = "new" := by decide +kernel
    refine ⟨updated, after, hsave, hafter, hupdate, fun path hfile => ?_⟩
    have hloaded := htoken [] path rfl hfile
    rw [hstrip] at hloaded
    exact hloaded
  · cases hhalf

/-- Letters with half of a surrogate pair behind them. -/
def halfToken : WideText :=
  [.char 'a', .char 'b', .char 'c', .half ⟨0x4FF, by decide⟩]

/-- A token with half of a surrogate pair is not saved, and the settings are lost. -/
theorem save_empties_themed :
    (∃ stop after, save atHome themedTree halfToken = (.error stop, after) ∧
      after.bytes (file atHome) = .ok []) ∧
    themedTree.bytes (file atHome) = .ok (Utf8.encode themed) ∧ Utf8.encode themed ≠ [] := by
  have hhalf : (Json.obj (Entries.put themedMembers tokenName
      (.str halfToken))).document.text? = none :=
    Json.document_of_half
      (Entries.mem_of_get?_eq_some (isUpdate_put (by decide) halfToken).token) rfl
  have hmade : withDirectory atHome themedTree = .ok themedTree := rfl
  have hroom : (Json.obj (Entries.put themedMembers tokenName (.str halfToken))).depth ≤
      Json.levels atHome.writingRoom := by
    rw [depth_themed]
    decide
  obtain ⟨after, hsave, hbytes⟩ :=
    save_of_object hmade read_themedTree (document_eq_ok.mpr ⟨hroom, rfl⟩)
  rw [hhalf] at hsave
  rw [Utf8.encodeWide, hhalf] at hbytes
  exact ⟨⟨_, after, hsave, hbytes⟩, bytes_themedTree, by decide⟩

end Almanac.Settings
