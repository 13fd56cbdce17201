/-
  When loaded settings ask for debugging.

  What is loaded are the defaults or the stored settings over them, in which the variable for
  debugging is then taken into account (`of_run_loadAt`).  It can switch debugging on and not off
  (`wantsDebug_withEnvironment`), and of the two, only stored settings may ask for it themselves
  (`wantsDebug_answer_iff`).  So the settings ask for debugging exactly if the variable switches it
  on, which a file of variables may set if the environment does not, or if the settings file holds
  an object whose entry for it counts as true (`wantsDebug_of_run_load`).
-/
import PromptFill.Proofs.Log.Delivery
import PromptFill.Proofs.Settings.Loading

namespace PromptFill.Settings

variable {w w' : World} {file : Path} {content : Content} {fields m s : Settings}

/-! ## What settings ask for -/

/-- What the variable has to be, but for the case of its letters. -/
theorem switchesOn_iff {value : Text} : switchesOn value = true ↔
    value.map Char.toLower ∈ ["1".toList, "true".toList, "yes".toList] := List.contains_iff_mem

/-- The variable can switch debugging on, and not off. -/
theorem wantsDebug_withEnvironment (m : Settings) (value : Option Text) :
    (m.withEnvironment value).wantsDebug = (value.any switchesOn || m.wantsDebug) := by
  rw [withEnvironment]
  cases value.any switchesOn with
  | true => simp [wantsDebug, Table.get?_set, Json.isTrue]
  | false => simp

theorem wantsDebug_default : default.wantsDebug = false := rfl

/-- Stored settings ask for debugging exactly if their entry for it counts as true. -/
theorem wantsDebug_ofStored_iff (hkeys : fields.keys.Nodup) :
    (ofStored fields).wantsDebug = true ↔
      ∃ value, fields.get? debugKey = some value ∧ value.isTrue = true := by
  have hdefault : default.get? debugKey = some (.bool false) := rfl
  rw [wantsDebug, ofStored, Table.get?_update hkeys, hdefault]
  cases fields.get? debugKey with
  | none => simp [Json.isTrue]
  | some value => simp

/-- What a file is found to hold asks for debugging only if it is an object. -/
theorem wantsDebug_answer_iff {limits : Json.Limits} {files : FileTree}
    (h : contentOf limits file files = .ok content) :
    content.answer.wantsDebug = true ↔ ∃ bytes fields value, files.read file = .ok bytes ∧
      IsObject limits bytes fields ∧ fields.get? debugKey = some value ∧ value.isTrue = true := by
  constructor
  · intro hwants
    cases content with
    | settings fields =>
      obtain ⟨bytes, hread, hobject⟩ := contentOf_eq_settings_iff.1 h
      obtain ⟨value, hvalue, htrue⟩ := (wantsDebug_ofStored_iff hobject.fits.nodup_keys).1 hwants
      exact ⟨bytes, fields, value, hread, hobject, hvalue, htrue⟩
    | other => cases hwants
    | malformed => cases hwants
    | unreadable e => cases hwants
  · rintro ⟨bytes, fields, value, hread, hobject, hvalue, htrue⟩
    rw [contentOf_eq_settings_iff.2 ⟨bytes, hread, hobject⟩] at h
    cases h
    exact (wantsDebug_ofStored_iff hobject.fits.nodup_keys).2 ⟨value, hvalue, htrue⟩

/-! ## What is loaded -/

/-- Making the settings file answers the defaults and leaves the environment as it is. -/
theorem of_run_create (h : Action.run (create file) w = (.ok m, w')) :
    m = default ∧ w'.env = w.env := by
  have hdirs (p : Path) : Action.Keeps (fun w' => w'.env = w.env) (Action.makeDirs p) := by
    intro w' hw'
    rw [Action.run_makeDirs, ← hw']
  have hnote (w' : World) (r : Record) (hw' : w'.env = w.env) :
      (w'.ensureHandler.log r).env = w.env := by
    rw [← hw']
    exact (World.appendsLogs_note w' r).env
  have hsave (v : Json) : Action.Keeps (fun w' => w'.env = w.env) (save v) :=
    keeps_save_of (keeps_settingsFile_of hdirs).yields
      (fun file _ v => keeps_writeTo_of hnote (fun _ _ _ hw' _ => hw') v) v
  have hkept := ((Action.keeps_note hnote (notFoundNote file)).bind fun _ =>
    (hsave (.object default)).bind fun _ => Action.keeps_pure default) w rfl
  rw [create] at h
  rw [h] at hkept
  obtain ⟨_, _, _, h⟩ := Action.run_bind_eq_ok h
  obtain ⟨_, _, _, h⟩ := Action.run_bind_eq_ok h
  cases h
  exact ⟨rfl, hkept⟩

/-- What loading answers, if it succeeds. -/
theorem of_run_loadAt (h : Action.run (loadAt file) w = (.ok s, w')) :
    ∃ m : Settings, s = m.withEnvironment (w.env.get? debugVariable) ∧
      (w.files.exists? file = .ok true ∧
          (∃ content, contentOf w.limits file w.files = .ok content ∧ m = content.answer) ∨
        w.files.exists? file = .ok false ∧ m = default) := by
  cases hexists : w.files.exists? file with
  | error e =>
    rw [loadAt, Action.run_bind, Action.run_query, hexists] at h
    cases h
  | ok found =>
    cases found with
    | true =>
      cases hcontent : contentOf w.limits file w.files with
      | error e =>
        rw [run_loadAt_of_error hexists hcontent] at h
        cases h
      | ok content =>
        rw [run_loadAt hexists hcontent] at h
        cases h
        exact ⟨content.answer, rfl, .inl ⟨rfl, content, rfl, rfl⟩⟩
    | false =>
      rw [loadAt, Action.run_bind, Action.run_query, hexists] at h
      obtain ⟨m, w₁, hcreate, h⟩ := Action.run_bind_eq_ok h
      obtain ⟨rfl, henv⟩ := of_run_create hcreate
      cases h
      rw [henv]
      exact ⟨default, rfl, .inr ⟨rfl, rfl⟩⟩

/-- Nothing is read where there is nothing. -/
theorem read_ne_ok_of_not_exists {t : FileTree} (h : t.exists? file = .ok false)
    (bytes : ByteArray) : t.read file ≠ .ok bytes := by
  intro hread
  rw [FileTree.exists?_of_read hread] at h
  cases h

/-- **When settings ask for debugging.**  The variable for it counts as the environment sets it, or
    else as the reader of files of variables does; the settings file as it is found when it is
    asked for.  The reader keeps the variables that are set. -/
theorem wantsDebug_of_run_load (hlawful : w.reader.Lawful)
    (h : Action.run load w = (.ok s, w')) :
    ∃ applied w₀ file w₁, w.reader w.files w.env = .ok applied ∧
      Action.run applyVariables w = (.ok (), w₀) ∧
      Action.run settingsFile w₀ = (.ok file, w₁) ∧
      (s.wantsDebug = true ↔
        (∃ value, (w.env.get? debugVariable).or (applied.env.get? debugVariable) = some value ∧
          value.map Char.toLower ∈ ["1".toList, "true".toList, "yes".toList]) ∨
        ∃ bytes fields value, w₁.files.read file = .ok bytes ∧ IsObject w.limits bytes fields ∧
          fields.get? debugKey = some value ∧ value.isTrue = true) := by
  obtain ⟨w₀, file, w₁, hvars, hfile, hload⟩ := of_run_load h
  obtain ⟨applied, happlied, henv₀, hlogs⟩ := appendsLogs_of_applyVariables hvars
  refine ⟨applied, w₀, file, w₁, happlied, hvars, hfile, ?_⟩
  have hframe := keeps_settingsFile_of (Logging.keeps_makeDirs_adds _) w₀ ⟨rfl, .refl _, .refl _⟩
  rw [hfile] at hframe
  replace hframe : Logging.AddsDirs w₀ w₁ := hframe
  have henv₁ : w₁.env = applied.env := by rw [hframe.eq, henv₀]
  have hlimits₁ : w₁.limits = w.limits := by rw [hframe.eq, hlogs.limits]
  have hvalue : (w.env.get? debugVariable).or (applied.env.get? debugVariable) =
      applied.env.get? debugVariable := by
    cases hset : w.env.get? debugVariable with
    | none => rfl
    | some value => rw [hlawful.keeps happlied hset, Option.some_or]
  obtain ⟨m, rfl, hm⟩ := of_run_loadAt hload
  rw [wantsDebug_withEnvironment, henv₁, hvalue, Bool.or_eq_true, Option.any_eq_true, ← hlimits₁]
  simp only [switchesOn_iff]
  refine or_congr Iff.rfl ?_
  rcases hm with ⟨-, content, hcontent, rfl⟩ | ⟨hexists, rfl⟩
  · exact wantsDebug_answer_iff hcontent
  · rw [wantsDebug_default]
    refine ⟨fun hwants => absurd hwants Bool.false_ne_true, ?_⟩
    rintro ⟨bytes, fields, value, hread, -⟩
    exact absurd hread (read_ne_ok_of_not_exists hexists bytes)

end PromptFill.Settings
