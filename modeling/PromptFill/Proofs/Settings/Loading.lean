/-
  Loading settings from any file.

  What the bytes of a settings file are decides what it holds (`contentOf_cases`).  Bytes that are
  no text in UTF-8 and texts that go beyond the limits of the runtime end loading with a fault;
  all other bytes are loaded, as an object or with the defaults.  The file keeps its bytes in
  every case (`load_of_bytes`).

  Which fields an object has is told for texts in which escapes of half a pair come in pairs
  (`PairsEscapes`); of the others it is told that they are loaded.
-/
import PromptFill.Proofs.Json.Characters
import PromptFill.Proofs.Json.Limits
import PromptFill.Proofs.Settings.Store

namespace PromptFill.Settings

open Json (Fits Limits)

variable {w w₀ w' : World} {file : Path} {limits : Limits} {bytes : ByteArray} {m : Settings}

/-! ## What bytes are to the program -/

/-- The bytes are the text of a JSON object with these fields. -/
def IsObject (limits : Limits) (bytes : ByteArray) (fields : Settings) : Prop :=
  ∃ s, bytes = Text.encode s ∧ Json.ofText limits (Text.unifyNewlines s) = .ok (.object fields)

/-- The bytes can be loaded: they are a text, and if it is refused, then for its form and not for
    a limit of the runtime. -/
def IsLoadable (limits : Limits) (bytes : ByteArray) : Prop :=
  ∃ s, bytes = Text.encode s ∧
    ∀ e, Json.ofText limits (Text.unifyNewlines s) = .error e → e = .malformed

/-- The bytes are a text in which no half of a pair is escaped without the other half. -/
def PairsEscapes (bytes : ByteArray) : Prop :=
  ∃ s, bytes = Text.encode s ∧ Json.hasLoneEscape false (Text.unifyNewlines s) = false

theorem isObject_encode {s : Text} {fields : Settings} :
    IsObject limits (Text.encode s) fields ↔
      Json.ofText limits (Text.unifyNewlines s) = .ok (.object fields) := by
  constructor
  · rintro ⟨s', hs', h⟩
    rwa [Text.encode_injective hs']
  · exact fun h => ⟨s, rfl, h⟩

theorem isLoadable_encode {s : Text} :
    IsLoadable limits (Text.encode s) ↔
      ∀ e, Json.ofText limits (Text.unifyNewlines s) = .error e → e = .malformed := by
  constructor
  · rintro ⟨s', hs', h⟩
    rwa [Text.encode_injective hs']
  · exact fun h => ⟨s, rfl, h⟩

theorem IsObject.isLoadable {fields : Settings} (h : IsObject limits bytes fields) :
    IsLoadable limits bytes := by
  obtain ⟨s, hs, h⟩ := h
  exact ⟨s, hs, fun e he => by rw [h] at he; cases he⟩

theorem IsObject.unique {fields fields' : Settings} (h : IsObject limits bytes fields)
    (h' : IsObject limits bytes fields') : fields = fields' := by
  obtain ⟨s, rfl, h⟩ := h
  rw [isObject_encode, h] at h'
  cases h'
  rfl

theorem IsObject.fits {fields : Settings} (h : IsObject limits bytes fields) :
    Fits limits.digits limits.nested (.object fields) := by
  obtain ⟨s, -, h⟩ := h
  exact Json.fits_of_ofText h

/-- The text of settings, as it is stored. -/
def stored (m : Settings) : ByteArray := Text.encode (Json.object m).text

theorem isObject_stored (h : Fits limits.digits limits.nested (.object m)) :
    IsObject limits (stored m) m := by
  have hlines : Text.unifyNewlines (Json.object m).text = (Json.object m).text :=
    Text.unifyNewlines_of_isPlain (Json.isPlain_write h.proper 0)
  rw [stored, isObject_encode, hlines, h.ofText_text]

/-- No two settings that fit are stored as the same bytes. -/
theorem stored_injective {m' : Settings} (h : Fits limits.digits limits.nested (.object m))
    (h' : Fits limits.digits limits.nested (.object m')) (hbytes : stored m = stored m') :
    m = m' := by
  have hobject := isObject_stored h
  rw [hbytes] at hobject
  exact hobject.unique (isObject_stored h')

theorem fits_default (hroom : 0 < limits.nested) :
    Fits limits.digits limits.nested (.object default) := by
  obtain ⟨room, hroom⟩ : ∃ n, limits.nested = n + 1 := ⟨limits.nested - 1, by omega⟩
  rw [hroom]
  refine .object (by decide) ?_
  rw [default, List.forall_mem_cons, List.forall_mem_singleton]
  exact ⟨.string _, .bool false⟩

/-! ## What is in a file -/

/-- What a file is found to hold: nothing that can be loaded, an object, or something else. -/
theorem contentOf_cases (limits : Limits) {files : FileTree}
    (hread : files.read file = .ok bytes) :
    (¬ IsLoadable limits bytes ∧ ∃ e, contentOf limits file files = .error e) ∨
    (∃ fields, IsObject limits bytes fields ∧
      contentOf limits file files = .ok (.settings fields)) ∨
    (IsLoadable limits bytes ∧ (∀ fields, ¬ IsObject limits bytes fields) ∧
      ∃ content, contentOf limits file files = .ok content ∧
        ∀ fields, content ≠ .settings fields) := by
  cases hdecode : Text.decode? bytes with
  | none =>
    refine .inl ⟨?_, .badUtf8, by simp only [contentOf, hread, hdecode]⟩
    rintro ⟨s, rfl, -⟩
    rw [Text.decode?_encode] at hdecode
    cases hdecode
  | some s =>
    obtain rfl := Text.decode?_eq_some_iff.1 hdecode
    simp only [isLoadable_encode, isObject_encode, contentOf, hread, hdecode]
    rcases Json.ofText limits (Text.unifyNewlines s) with (_ | n | b) | v
    · exact .inr (.inr ⟨fun e he => by cases he; rfl, fun _ h => (by cases h), _, rfl, nofun⟩)
    · exact .inl ⟨fun h => (by cases h _ rfl), _, rfl⟩
    · exact .inl ⟨fun h => (by cases h _ rfl), _, rfl⟩
    · cases v with
      | object fields => exact .inr (.inl ⟨fields, rfl, rfl⟩)
      | _ => exact .inr (.inr ⟨fun _ he => (by cases he), fun _ h => (by cases h), _, rfl, nofun⟩)

/-- A file is found to hold settings exactly if its bytes are the text of an object. -/
theorem contentOf_eq_settings_iff {files : FileTree} {fields : Settings} :
    contentOf limits file files = .ok (.settings fields) ↔
      ∃ bytes, files.read file = .ok bytes ∧ IsObject limits bytes fields := by
  constructor
  · intro h
    cases hread : files.read file with
    | error e =>
      simp only [contentOf, hread] at h
      split at h <;> cases h
    | ok bytes =>
      refine ⟨bytes, rfl, ?_⟩
      rcases contentOf_cases limits hread with
        ⟨-, e, hcontent⟩ | ⟨fields', hobject, hcontent⟩ | ⟨-, -, content, hcontent, hother⟩
      · rw [hcontent] at h
        cases h
      · rw [hcontent] at h
        cases h
        exact hobject
      · rw [hcontent, Except.ok.injEq] at h
        exact absurd h (hother fields)
  · rintro ⟨bytes, hread, hobject⟩
    rcases contentOf_cases limits hread with
      ⟨hload, -⟩ | ⟨fields', hobject', hcontent⟩ | ⟨-, hother, -⟩
    · exact absurd hobject.isLoadable hload
    · rw [hcontent, hobject.unique hobject']
    · exact absurd hobject (hother fields)

/-! ## Loading -/

/-- The settings file lies in some directory under its name. -/
theorem eq_settingsIn_of_run (h : Action.run settingsFile w = (.ok file, w')) :
    ∃ dir, file = settingsIn dir := by
  rw [settingsFile, Action.run_bind] at h
  split at h
  · cases h
    exact ⟨_, rfl⟩
  · cases h

/-- The fields of an object are loaded over the defaults. -/
theorem run_load_of_isObject {fields : Settings}
    (hvars : Action.run applyVariables w = (.ok (), w₀))
    (hfile : Action.run settingsFile w₀ = (.ok file, w')) (hread : w'.files.read file = .ok bytes)
    (hobject : IsObject w'.limits bytes fields) : Action.run load w =
      (.ok ((ofStored fields).withEnvironment (w'.env.get? debugVariable)), w') := by
  rw [run_load_eq hvars hfile, run_loadAt (FileTree.exists?_of_read hread)
    (contentOf_eq_settings_iff.2 ⟨bytes, hread, hobject⟩)]
  rfl

/-- What is at the settings file is found and read as before after records were logged: its name is
    not that of a log file, so it is not open. -/
theorem find_of_logs {place : Place} (hw : w.Orderly) (hlogs : w.AppendsLogs w')
    (hfile : ¬ IsLog file.parts) (hplace : w.files.find file = .ok place) :
    w'.files.find file = .ok place ∧ w'.files.read file = w.files.read file := by
  have hplace' := hlogs.find hplace fun l id content hl => by
    cases hl
    exact hw.not_isOpen_of_find hplace hfile
  refine ⟨hplace', ?_⟩
  rw [FileTree.read, FileTree.read, hplace, hplace']
  cases place with
  | file l id content =>
    dsimp only
    rw [FileTree.permit, FileTree.permit, hlogs.same.refuses]
  | _ => rfl

theorem read_of_logs (hw : w.Orderly) (hlogs : w.AppendsLogs w')
    (hfile : ¬ IsLog file.parts) (hread : w.files.read file = .ok bytes) :
    w'.files.read file = .ok bytes := by
  obtain ⟨v, id, hfind, -⟩ := FileTree.read_eq_ok_iff.1 hread
  rw [(find_of_logs hw hlogs hfile hfind).2, hread]

/-- Applying variables changes nothing but the environment and what is logged. -/
theorem appendsLogs_of_applyVariables (h : Action.run applyVariables w = (.ok (), w₀)) :
    ∃ applied, w.reader w.files w.env = .ok applied ∧ w₀.env = applied.env ∧
      World.AppendsLogs { w with env := applied.env } w₀ := by
  obtain ⟨applied, hread, rfl⟩ := of_run_applyVariables h
  refine ⟨applied, hread, rfl, ?_⟩
  have hlogs := World.appendsLogs_logAll w applied.said
  refine ⟨?_, hlogs.isOpen, hlogs.same, hlogs.closed, hlogs.opened⟩
  rw [hlogs.eq]

/-- **Loading settings from any file.**  Where asking for the settings file changes nothing, and a
    file with any bytes is there, loading leaves the bytes as they are.  It ends in a fault exactly
    if the bytes cannot be loaded: they are no text in UTF-8, or go beyond the limits of the
    runtime.  An object is loaded and nothing is logged; its fields are set over the defaults, told
    here for texts that escape no half of a pair alone.  For all else the defaults are answered,
    and a warning is logged.  In both cases debugging is switched on if the environment says so,
    with the variables applied.  The world is orderly, as every run of the program keeps it
    (`Program.orderly_afterSteps`). -/
theorem load_of_bytes (hvars : Action.run applyVariables w = (.ok (), w₀))
    (hfile : Action.run settingsFile w₀ = (.ok file, w₀)) (hread : w.files.read file = .ok bytes)
    (hw : w.Orderly) :
    (Action.run load w).2.files.read file = .ok bytes ∧
    ((∃ e, (Action.run load w).1 = .error e) ↔ ¬ IsLoadable w.limits bytes) ∧
    (∀ fields, IsObject w.limits bytes fields → (∃ m, Action.run load w = (.ok m, w₀)) ∧
      (PairsEscapes bytes → Action.run load w =
        (.ok ((ofStored fields).withEnvironment (w₀.env.get? debugVariable)), w₀))) ∧
    (IsLoadable w.limits bytes → (∀ fields, ¬ IsObject w.limits bytes fields) →
      (Action.run load w).1 = .ok (default.withEnvironment (w₀.env.get? debugVariable)) ∧
      ∃ note, note.level = Level.warning ∧
        (Action.run load w).2 = w₀.ensureHandler.log note) := by
  have hlog : ¬ IsLog file.parts := by
    obtain ⟨dir, rfl⟩ := eq_settingsIn_of_run hfile
    exact not_isLog_settingsIn dir
  obtain ⟨applied, -, -, hlogs⟩ := appendsLogs_of_applyVariables hvars
  have hw₀ : w₀.Orderly := by
    have h := keeps_applyVariables w hw
    rwa [hvars] at h
  have hread₀ : w₀.files.read file = .ok bytes :=
    read_of_logs (w := { w with env := applied.env })
      (hw.of_sameFiles (.refl _) fun _ h => h) hlogs hlog hread
  have hlimits : w₀.limits = w.limits := hlogs.limits
  have hfound := FileTree.exists?_of_read hread₀
  rw [run_load_eq hvars hfile, ← hlimits]
  obtain ⟨hload, e, hcontent⟩ | ⟨fields, hobject, hcontent⟩ |
    ⟨hload, hobject, content, hcontent, hother⟩ := contentOf_cases w₀.limits hread₀
  · rw [run_loadAt_of_error hfound hcontent]
    exact ⟨hread₀, ⟨fun _ => hload, fun _ => ⟨e, rfl⟩⟩,
      fun fields h => absurd h.isLoadable hload, fun h => absurd h hload⟩
  · rw [run_loadAt hfound hcontent]
    refine ⟨hread₀, ⟨?_, fun h => absurd hobject.isLoadable h⟩, ?_, ?_⟩
    · rintro ⟨e, he⟩
      cases he
    · intro fields' h
      rw [h.unique hobject]
      exact ⟨⟨_, rfl⟩, fun _ => rfl⟩
    · exact fun _ h => absurd hobject (h fields)
  · obtain ⟨fields, rfl, -⟩ | ⟨-, hanswer, note, hnotes, hlevel⟩ :=
      content.notes_cases w₀.decoderMessage file
    · exact absurd rfl (hother fields)
    rw [run_loadAt hfound hcontent, hnotes, hanswer]
    refine ⟨read_of_logs hw₀ (World.appendsLogs_note w₀ note) hlog hread₀,
      ⟨?_, fun h => absurd hload h⟩, fun fields h => absurd h (hobject fields),
      fun _ _ => ⟨rfl, note, hlevel, rfl⟩⟩
    rintro ⟨e, he⟩
    cases he

/-- Settings without a scheme, with debugging switched on. -/
def someSettings : Settings := [(debugKey, .bool true), ("a".toList, .list [.int 1])]

theorem fits_someSettings :
    Fits ({} : Limits).digits ({} : Limits).nested (.object someSettings) := by
  refine .object (by decide) ?_
  rw [someSettings, List.forall_mem_cons, List.forall_mem_singleton]
  exact ⟨.bool true, .list (List.forall_mem_singleton.2 (.int (by decide)))⟩

/-- A settings directory. -/
def someDir : Path := ⟨.root, ["s".toList]⟩

/-- A world with these bytes in the settings file of that directory, and with these variables. -/
def fileWorld (vars : Environment) (bytes : ByteArray) : World where
  files :=
    { nodes := [(["s".toList], .dir), (["s".toList, "app_settings.json".toList], .file 0 bytes)]
      fresh := 1 }
  env := (settingsVariable, "/s".toList) :: vars
  platform := "linux".toList
  logging := { rootLevel := Level.warning }

section fileWorld

variable (vars : Environment) (bytes : ByteArray)

theorem settingsOverride?_fileWorld :
    settingsOverride? (fileWorld vars bytes).accounts (fileWorld vars bytes).env =
      .ok (some someDir) := rfl

theorem run_applyVariables_fileWorld :
    Action.run applyVariables (fileWorld vars bytes) = (.ok (), fileWorld vars bytes) :=
  run_applyVariables_of_nothing rfl

theorem find_someDir : (fileWorld vars bytes).files.find someDir = .ok (.dir ["s".toList]) := rfl

theorem read_settingsIn_someDir :
    (fileWorld vars bytes).files.read (settingsIn someDir) = .ok bytes := rfl

theorem run_settingsFile_fileWorld : Action.run settingsFile (fileWorld vars bytes) =
    (.ok (settingsIn someDir), fileWorld vars bytes) := by
  rw [run_settingsFile (settingsOverride?_fileWorld vars bytes),
    FileTree.makeDirs_of_find (find_someDir vars bytes)]
  rfl

theorem orderly_fileWorld : (fileWorld vars bytes).Orderly := by
  have hnumber {l : Location} {id : Nat} (h : (fileWorld vars bytes).files.number? l = some id) :
      l = ["s".toList, "app_settings.json".toList] ∧ id = 0 := by
    simp only [FileTree.number?, FileTree.node?, fileWorld, Table.get?] at h
    split_ifs at h with hroot hdir hfile
    all_goals cases h
    exact ⟨hfile.symm, rfl⟩
  refine World.orderly_of_not_isOpen ⟨fun h => ?_, fun h h' => ?_⟩ fun id hid => ?_
  · rw [(hnumber h).2]
    exact Nat.zero_lt_one
  · rw [(hnumber h).1, (hnumber h').1]
  · obtain ⟨level, h⟩ := hid
    cases h

end fileWorld

/-- A text that breaks off, with debugging switched on. -/
theorem load_of_bytes_truncated :
    (Action.run load (fileWorld [(debugVariable, "Yes".toList)] (Text.encode "[1, 2".toList))).1 =
      .ok [(schemeKey, .string Scheme.default.name), (debugKey, .bool true)] := by
  have hrefused : Json.ofText {} (Text.unifyNewlines "[1, 2".toList) = .error .malformed := by
    rfl
  have hload : IsLoadable {} (Text.encode "[1, 2".toList) :=
    isLoadable_encode.2 fun e he => by rw [hrefused] at he; cases he; rfl
  have hother (fields : Settings) : ¬ IsObject {} (Text.encode "[1, 2".toList) fields := fun h => by
    rw [isObject_encode, hrefused] at h
    cases h
  exact ((load_of_bytes (run_applyVariables_fileWorld _ _) (run_settingsFile_fileWorld _ _)
    (read_settingsIn_someDir _ _) (orderly_fileWorld _ _)).2.2.2 hload hother).1

/-- Loading fails for a byte that is in no text. -/
theorem load_of_invalid_byte :
    (fileWorld [] ⟨#[0xff]⟩).files.read (settingsIn someDir) = .ok ⟨#[0xff]⟩ ∧
      (Action.run load (fileWorld [] ⟨#[0xff]⟩)).1 = .error .badUtf8 := by
  have hcontent : contentOf {} (settingsIn someDir) (fileWorld [] ⟨#[0xff]⟩).files =
      .error .badUtf8 := by
    have hdecode : Text.decode? ⟨#[0xff]⟩ = none := by decide
    simp only [contentOf, read_settingsIn_someDir, hdecode]
  refine ⟨read_settingsIn_someDir _ _, ?_⟩
  rw [run_load_eq (run_applyVariables_fileWorld _ _) (run_settingsFile_fileWorld _ _),
    run_loadAt_of_error (FileTree.exists?_of_read (read_settingsIn_someDir _ _)) hcontent]

end PromptFill.Settings
