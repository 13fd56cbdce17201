/-
  What the environment leaves behind when a scheme is stored.

  Settings are loaded with debugging switched on if the environment says so, and storing a scheme
  writes back what was loaded (`run_saveScheme`).  So the bytes that are written tell whether
  debugging was switched on, unless it is stored as switched on already
  (`bytes_of_saveScheme_eq_iff`).
-/
import PromptFill.Proofs.Settings.Loading

namespace PromptFill.Settings

open Json (Fits Limits)

variable {w w₀ : World} {file : Path} {fields : Settings}

/-- A world in which the settings file holds an object and may be written to, and asking for the
    file changes nothing.  The second world is the one with the variables applied. -/
structure HoldsObject (w w₀ : World) (file : Path) (fields : Settings) : Prop where
  applied : Action.run applyVariables w = (.ok (), w₀)
  settingsFile : Action.run settingsFile w₀ = (.ok file, w₀)
  content : ∃ bytes, w₀.files.read file = .ok bytes ∧ IsObject w₀.limits bytes fields
  writable : w₀.files.Permits .writing file
  roomy : w₀.files.room = none
  orderly : w₀.Orderly

theorem fits_withEnvironment {limits : Limits} {m : Settings}
    (h : Fits limits.digits limits.nested (.object m)) (value : Option Text) :
    Fits limits.digits limits.nested (.object (m.withEnvironment value)) := by
  rw [withEnvironment]
  split
  · exact h.set debugKey fun _ => .bool true
  · exact h

/-- The settings that are stored with a scheme: those that were stored, over the defaults, with
    debugging switched on if the environment says so. -/
def withScheme (fields : Settings) (value : Option Text) (s : Scheme) : Settings :=
  ((ofStored fields).withEnvironment value).set schemeKey (.string s.name)

namespace HoldsObject

theorem fits_withScheme (h : HoldsObject w w₀ file fields) (value : Option Text) (s : Scheme) :
    Fits w₀.limits.digits w₀.limits.nested (.object (withScheme fields value s)) := by
  obtain ⟨bytes, -, hobject⟩ := h.content
  have hroom : 0 < w₀.limits.nested := by
    have hdepth := hobject.fits.depth_le
    rw [Json.depth] at hdepth
    omega
  exact (fits_withEnvironment ((fits_default hroom).update hobject.fits) value).set schemeKey
    fun _ => .string s.name

/-- Storing a scheme writes what was loaded, with the scheme in its place. -/
theorem run_saveScheme (h : HoldsObject w w₀ file fields) (s : Scheme) :
    ∃ w', Action.run (saveScheme s) w = (.ok (), w') ∧ w'.files.read file =
      .ok (stored (withScheme fields (w₀.env.get? debugVariable) s)) := by
  obtain ⟨bytes, hread, hobject⟩ := h.content
  obtain ⟨dir, rfl⟩ := eq_settingsIn_of_run h.settingsFile
  have hload := run_load_of_isObject h.applied h.settingsFile hread hobject
  obtain ⟨t, hwrite⟩ := FileTree.exists_write_of_read hread h.writable
    (stored (withScheme fields (w₀.env.get? debugVariable) s))
  have hcut := (h.fits_withScheme (w₀.env.get? debugVariable) s).cutShort?_eq_none 0
  have hrun : Action.run (saveScheme s) w =
      (.ok (), { w₀ with files := t }.ensureHandler.log (savedNote (settingsIn dir))) := by
    rw [saveScheme, Action.run_bind, hload]
    simp only [save, Action.run_bind, h.settingsFile]
    exact run_writeTo hwrite (FileTree.hasRoom_of_room h.roomy _) hcut
  exact ⟨_, hrun, read_of_logs (h.orderly.write hwrite) (World.appendsLogs_note _ _)
    (not_isLog_settingsIn dir) (FileTree.read_write hwrite (FileTree.permits_of_read hread))⟩

end HoldsObject

/-- Whether debugging is switched on shows in the settings, unless it is so in any case. -/
theorem withScheme_eq_iff (fields : Settings) (value value' : Option Text) (s : Scheme) :
    withScheme fields value s = withScheme fields value' s ↔
      value.any switchesOn = value'.any switchesOn ∨
        (ofStored fields).get? debugKey = some (.bool true) := by
  have hkey : debugKey ≠ schemeKey := by decide
  have hget (value : Option Text) : (withScheme fields value s).get? debugKey =
      if value.any switchesOn then some (.bool true) else (ofStored fields).get? debugKey := by
    rw [withScheme, Table.get?_set, if_neg hkey, withEnvironment]
    split
    · rw [Table.get?_set, if_pos rfl]
    · rfl
  constructor
  · intro h
    have hentry := congrArg (fun m => Table.get? m debugKey) h
    simp only [hget] at hentry
    by_cases hon : value.any switchesOn <;> by_cases hon' : value'.any switchesOn
    · exact .inl (hon.trans hon'.symm)
    · rw [if_pos hon, if_neg hon'] at hentry
      exact .inr hentry.symm
    · rw [if_neg hon, if_pos hon'] at hentry
      exact .inr hentry
    · rw [Bool.not_eq_true] at hon hon'
      exact .inl (hon.trans hon'.symm)
  · rintro (h | h)
    · rw [withScheme, withScheme, withEnvironment, withEnvironment, h]
    · have hsame (value : Option Text) :
          (ofStored fields).withEnvironment value = ofStored fields := by
        rw [withEnvironment]
        split
        · exact Table.set_of_get? h
        · rfl
      rw [withScheme, withScheme, hsame, hsame]

/-- **What storing a scheme tells of the environment.**  In two worlds with the same limits the
    settings file holds the same object and may be written to.  If the same scheme is stored in
    both, then the bytes that are written are the same exactly if debugging is switched on by the
    variables of both or of neither, wherever they come from, or is stored as switched on. -/
theorem bytes_of_saveScheme_eq_iff {w₁ w₂ applied₁ applied₂ : World} {file₁ file₂ : Path}
    (h₁ : HoldsObject w₁ applied₁ file₁ fields) (h₂ : HoldsObject w₂ applied₂ file₂ fields)
    (hlimits : applied₁.limits = applied₂.limits) (s : Scheme) :
    ∃ w₁' w₂' bytes₁ bytes₂,
      Action.run (saveScheme s) w₁ = (.ok (), w₁') ∧ w₁'.files.read file₁ = .ok bytes₁ ∧
      Action.run (saveScheme s) w₂ = (.ok (), w₂') ∧ w₂'.files.read file₂ = .ok bytes₂ ∧
      (bytes₁ = bytes₂ ↔ (applied₁.env.get? debugVariable).any switchesOn =
          (applied₂.env.get? debugVariable).any switchesOn ∨
        (ofStored fields).get? debugKey = some (.bool true)) := by
  obtain ⟨w₁', hrun₁, hread₁⟩ := h₁.run_saveScheme s
  obtain ⟨w₂', hrun₂, hread₂⟩ := h₂.run_saveScheme s
  refine ⟨w₁', w₂', _, _, hrun₁, hread₁, hrun₂, hread₂, ?_⟩
  rw [← withScheme_eq_iff fields _ _ s]
  have hfits := h₂.fits_withScheme (applied₂.env.get? debugVariable) s
  rw [← hlimits] at hfits
  exact ⟨stored_injective (h₁.fits_withScheme _ s) hfits, congrArg stored⟩

theorem holdsObject_fileWorld (vars : Environment)
    (h : Fits ({} : Limits).digits ({} : Limits).nested (.object fields)) :
    HoldsObject (fileWorld vars (stored fields)) (fileWorld vars (stored fields))
      (settingsIn someDir) fields :=
  ⟨run_applyVariables_fileWorld _ _, run_settingsFile_fileWorld _ _,
    ⟨_, read_settingsIn_someDir _ _, isObject_stored h⟩, fun _ _ _ _ => rfl, rfl,
    orderly_fileWorld _ _⟩

/-- Where debugging is stored as switched on, the environment leaves no trace. -/
theorem bytes_of_saveScheme_eq_iff_someSettings : ∃ w₁ w₂ bytes,
    Action.run (saveScheme .blueOrange) (fileWorld [] (stored someSettings)) = (.ok (), w₁) ∧
    Action.run (saveScheme .blueOrange)
      (fileWorld [(debugVariable, "1".toList)] (stored someSettings)) = (.ok (), w₂) ∧
    w₁.files.read (settingsIn someDir) = .ok bytes ∧
    w₂.files.read (settingsIn someDir) = .ok bytes := by
  obtain ⟨w₁, w₂, bytes₁, bytes₂, hrun₁, hread₁, hrun₂, hread₂, hiff⟩ :=
    bytes_of_saveScheme_eq_iff (holdsObject_fileWorld [] fits_someSettings)
      (holdsObject_fileWorld [(debugVariable, "1".toList)] fits_someSettings) rfl .blueOrange
  obtain rfl := hiff.2 (.inr rfl)
  exact ⟨w₁, w₂, bytes₁, hrun₁, hrun₂, hread₁, hread₂⟩

/-- Over an empty object, debugging that the environment switches on is stored. -/
theorem debugging_is_stored : ∃ w₁ w₂ bytes₁ bytes₂,
    Action.run (saveScheme .blueOrange) (fileWorld [] (stored [])) = (.ok (), w₁) ∧
    Action.run (saveScheme .blueOrange)
      (fileWorld [(debugVariable, "1".toList)] (stored [])) = (.ok (), w₂) ∧
    w₁.files.read (settingsIn someDir) = .ok bytes₁ ∧
    w₂.files.read (settingsIn someDir) = .ok bytes₂ ∧ bytes₁ ≠ bytes₂ := by
  have hfits : Fits ({} : Limits).digits ({} : Limits).nested (.object []) :=
    .object (by decide) (List.forall_mem_nil _)
  have h₁ := holdsObject_fileWorld [] hfits
  have h₂ := holdsObject_fileWorld [(debugVariable, "1".toList)] hfits
  obtain ⟨w₁, hrun₁, hread₁⟩ := h₁.run_saveScheme .blueOrange
  obtain ⟨w₂, hrun₂, hread₂⟩ := h₂.run_saveScheme .blueOrange
  refine ⟨w₁, w₂, _, _, hrun₁, hrun₂, hread₁, hread₂, fun hbytes => ?_⟩
  have hsame := (withScheme_eq_iff _ _ _ _).1
    (stored_injective (h₁.fits_withScheme _ _) (h₂.fits_withScheme _ _) hbytes)
  rcases hsame with hon | hstored
  · exact absurd hon (by decide)
  · cases hstored

end PromptFill.Settings
