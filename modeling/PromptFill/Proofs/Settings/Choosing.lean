/-
  Choosing colour schemes over whole runs.

  A run is a list of requests: to store a scheme, to tell the one that is stored, and to load the
  settings.  `Ready` says what makes a world fit for them and which bytes the settings file holds,
  if it is there.  Each request keeps a world ready: loading answers what the bytes are loaded as
  (`Ready.load`), saving replaces them (`Ready.save`), and so storing a scheme sets one entry of
  what was loaded (`Ready.apply`).  What a whole run does follows by induction
  (`ready_after`).

  If the bytes cannot be loaded, then every request fails and leaves them (`Ready.fails`).
-/
import PromptFill.Proofs.Settings.Naming
import PromptFill.Proofs.Settings.Saving

namespace PromptFill

/-- The bytes in a place that is a file. -/
def Place.bytes? : Place → Option ByteArray
  | .file _ _ content => some content
  | _ => none

namespace Settings

open Json (Fits Limits)

variable {w : World} {dir : Path} {limits : Limits} {bytes? : Option ByteArray} {m : Settings}

/-! ## What a file is loaded as -/

/-- What the bytes of the settings file are loaded as: the fields of an object over the defaults,
    else the defaults; these too if there is no file. -/
def LoadsAs (limits : Limits) (bytes? : Option ByteArray) (m : Settings) : Prop :=
  (∃ bytes fields, bytes? = some bytes ∧ IsObject limits bytes fields ∧ m = ofStored fields) ∨
    (∀ bytes, bytes? = some bytes →
      IsLoadable limits bytes ∧ ∀ fields, ¬ IsObject limits bytes fields) ∧ m = default

theorem contentOf_of_loadsAs {file : Path} {files : FileTree} {bytes : ByteArray}
    (hread : files.read file = .ok bytes) (hm : LoadsAs limits (some bytes) m) :
    ∃ content, contentOf limits file files = .ok content ∧ content.answer = m := by
  obtain ⟨hnot, -⟩ | ⟨fields, hobject, hcontent⟩ | ⟨-, hobject, content, hcontent, hother⟩ :=
    contentOf_cases limits hread
  · obtain ⟨_, fields, ⟨⟩, hobject, -⟩ | ⟨hload, -⟩ := hm
    · exact absurd hobject.isLoadable hnot
    · exact absurd (hload bytes rfl).1 hnot
  · obtain ⟨_, fields', ⟨⟩, hobject', rfl⟩ | ⟨hload, -⟩ := hm
    · exact ⟨_, hcontent, by rw [hobject'.unique hobject]; rfl⟩
    · exact absurd hobject ((hload bytes rfl).2 fields)
  · obtain ⟨_, fields, ⟨⟩, hobject', -⟩ | ⟨-, rfl⟩ := hm
    · exact absurd hobject' (hobject fields)
    · exact ⟨content, hcontent, content.answer_of_ne hother⟩

/-- Some settings are loaded, unless the file holds bytes that cannot be loaded. -/
theorem exists_loadsAs (h : ∀ bytes, bytes? = some bytes → IsLoadable limits bytes) :
    ∃ m, LoadsAs limits bytes? m := by
  by_cases hobject : ∃ bytes fields, bytes? = some bytes ∧ IsObject limits bytes fields
  · obtain ⟨bytes, fields, hbytes, hfields⟩ := hobject
    exact ⟨_, .inl ⟨bytes, fields, hbytes, hfields, rfl⟩⟩
  · exact ⟨default, .inr ⟨fun bytes hbytes =>
      ⟨h bytes hbytes, fun fields hfields => hobject ⟨bytes, fields, hbytes, hfields⟩⟩, rfl⟩⟩

theorem ofStored_ofStored (hm : m.keys.Nodup) : ofStored (ofStored m) = ofStored m :=
  Table.update_update (show default.keys.Nodup by decide) hm

theorem ofStored_set_scheme (hm : m.keys.Nodup) (v : Json) :
    ofStored (m.set schemeKey v) = (ofStored m).set schemeKey v :=
  Table.update_set (show default.keys.Nodup by decide) hm (by decide)

/-- Settings that fill in the defaults, and fit. -/
structure Complete (limits : Limits) (m : Settings) : Prop where
  fits : Fits limits.digits limits.nested (.object m)
  ofStored_eq : ofStored m = m

theorem LoadsAs.complete (h : LoadsAs limits bytes? m) (hroom : 0 < limits.nested) :
    Complete limits m := by
  obtain ⟨bytes, fields, -, hobject, rfl⟩ | ⟨-, rfl⟩ := h
  · exact ⟨(fits_default hroom).update hobject.fits,
      ofStored_ofStored hobject.fits.nodup_keys⟩
  · exact ⟨fits_default hroom, rfl⟩

theorem Complete.set_scheme (h : Complete limits m) (s : Text) :
    Complete limits (m.set schemeKey (.string s)) := by
  refine ⟨h.fits.set schemeKey fun _ => .string s, ?_⟩
  rw [ofStored_set_scheme h.fits.nodup_keys, h.ofStored_eq]

theorem Complete.loadsAs (h : Complete limits m) : LoadsAs limits (some (stored m)) m :=
  .inl ⟨stored m, m, rfl, isObject_stored h.fits, h.ofStored_eq.symm⟩

/-! ## Worlds that are ready for requests -/

/-- A world in which the environment names the settings directory and does not switch debugging
    on, nothing is to be applied, and the settings file holds these bytes or is missing from the
    directory; it may be read, written and made, and there is room. -/
structure Ready (dir : Path) (limits : Limits) (bytes? : Option ByteArray) (w : World) : Prop where
  limits_eq : w.limits = limits
  override : settingsOverride? w.accounts w.env = .ok (some dir)
  lawful : w.reader.Lawful
  no_variables : w.reader w.files w.env = .ok { env := w.env }
  no_debug : (w.env.get? debugVariable).any switchesOn = false
  orderly : w.Orderly
  find_dir : ∃ d, w.files.find dir = .ok (.dir d)
  find_file : ∃ place, w.files.find (settingsIn dir) = .ok place ∧ (∀ l, place ≠ .dir l) ∧
    place.bytes? = bytes?
  permits : ∀ use, w.files.Permits use (settingsIn dir)
  roomy : w.files.room = none

namespace Ready

variable {w' : World}

theorem run_applyVariables (h : Ready dir limits bytes? w) :
    Action.run applyVariables w = (.ok (), w) := run_applyVariables_of_nothing h.no_variables

theorem run_settingsFile (h : Ready dir limits bytes? w) :
    Action.run settingsFile w = (.ok (settingsIn dir), w) := by
  obtain ⟨d, hd⟩ := h.find_dir
  rw [PromptFill.run_settingsFile h.override, FileTree.makeDirs_of_find hd]
  rfl

theorem read {bytes : ByteArray} (h : Ready dir limits (some bytes) w) :
    w.files.read (settingsIn dir) = .ok bytes := by
  obtain ⟨place, hplace, -, hbytes⟩ := h.find_file
  cases place with
  | dir l => cases hbytes
  | vacant l => cases hbytes
  | file l id content =>
    cases hbytes
    exact FileTree.read_of_find hplace (h.permits .reading)

/-- Records leave a world ready: they are not written to the settings file. -/
theorem of_logs (h : Ready dir limits bytes? w) (hlogs : w.AppendsLogs w') :
    Ready dir limits bytes? w' := by
  obtain ⟨d, hd⟩ := h.find_dir
  obtain ⟨place, hplace, hfile, hbytes⟩ := h.find_file
  have hopen (l : Location) (id : Nat) (content : ByteArray) (hl : place = .file l id content) :
      ¬ w.IsOpen id := by
    subst hl
    exact h.orderly.not_isOpen_of_find hplace (not_isLog_settingsIn dir)
  have hplace' := hlogs.find hplace hopen
  have horderly := h.orderly.of_logs hlogs
  have hvars : w.reader w'.files w.env = .ok { env := w.env } :=
    (h.lawful.of_grows (h.orderly.grows_of_logs hlogs).1 w.env).trans h.no_variables
  have hd' := hlogs.find hd fun _ _ _ h => by cases h
  refine ⟨?_, ?_, ?_, ?_, ?_, horderly, ⟨d, hd'⟩, ⟨place, hplace', hfile, hbytes⟩,
    fun use place' l hfound hl => ?_, ?_⟩
  · rw [hlogs.limits, h.limits_eq]
  · rw [hlogs.accounts, hlogs.env, h.override]
  · rw [hlogs.reader]
    exact h.lawful
  · rw [hlogs.reader, hlogs.env, hvars]
  · rw [hlogs.env, h.no_debug]
  · rw [hplace'] at hfound
    cases hfound
    rw [hlogs.same.refuses, h.permits use place l hplace hl]
  · rw [hlogs.same.room, h.roomy]

theorem note (h : Ready dir limits bytes? w) (r : Record) :
    Ready dir limits bytes? (w.ensureHandler.log r) := h.of_logs (World.appendsLogs_note w r)

/-- Saving settings that fit leaves a world ready, with their text in the file. -/
theorem save (h : Ready dir limits bytes? w)
    (hm : Fits limits.digits limits.nested (.object m)) :
    ∃ w', Action.run (save (.object m)) w = (.ok (), w') ∧
      Ready dir limits (some (stored m)) w' := by
  obtain ⟨d, hd⟩ := h.find_dir
  obtain ⟨place, hplace, hdirs, -⟩ := h.find_file
  obtain ⟨id, opened, hopen⟩ :=
    FileTree.exists_openFile hplace hdirs (h.permits .writing) (h.permits .making)
  have hwrite := FileTree.write_of_openFile hopen (stored m)
  have hcut : Json.cutShort? w.limits.digits 0 (.object m) = none := by
    rw [h.limits_eq]
    exact hm.cutShort?_eq_none 0
  have hready : Ready dir limits (some (stored m))
      { w with files := opened.change id fun _ => stored m } := by
    have hgrown := h.orderly.grows_of_write hwrite
    have hspace : opened.room = none := by
      obtain ⟨v, old, -, rfl | ⟨-, -, rfl⟩⟩ := FileTree.openFile_eq_ok hopen
      · exact h.roomy
      · exact h.roomy
    obtain ⟨l, id', hfile, -⟩ := h.orderly.find_write hwrite (not_isLog_settingsIn dir)
    exact ⟨h.limits_eq, h.override, h.lawful,
      (h.lawful.of_grows hgrown w.env).trans h.no_variables, h.no_debug,
      h.orderly.write hwrite, ⟨d, hgrown.find_dir hd⟩,
      ⟨_, hfile, fun _ h => (by cases h), rfl⟩,
      fun use => ((h.permits use).openFile hopen).change id _,
      hspace⟩
  refine ⟨_, ?_, hready.note (savedNote (settingsIn dir))⟩
  rw [run_save_eq h.override (FileTree.makeDirs_of_find hd)]
  exact run_writeTo hwrite (FileTree.hasRoom_of_room h.roomy _) hcut

/-- Loading answers what the bytes are loaded as, and makes the file if it is missing. -/
theorem load (h : Ready dir limits bytes? w) (hroom : 0 < limits.nested)
    (hm : LoadsAs limits bytes? m) :
    ∃ w', Action.run load w = (.ok m, w') ∧
      Ready dir limits (some (bytes?.getD (stored default))) w' := by
  have hanswer {w : World} {bytes? : Option ByteArray} (h : Ready dir limits bytes? w)
      (m : Settings) : m.withEnvironment (w.env.get? debugVariable) = m :=
    withEnvironment_of_not_switchesOn h.no_debug m
  rw [run_load_eq h.run_applyVariables h.run_settingsFile]
  cases bytes? with
  | some bytes =>
    obtain ⟨content, hcontent, rfl⟩ := contentOf_of_loadsAs h.read hm
    rw [← h.limits_eq] at hcontent
    rw [run_loadAt (FileTree.exists?_of_read h.read) hcontent, hanswer h]
    exact ⟨_, rfl, h.of_logs (World.appendsLogs_noteAll w _)⟩
  | none =>
    obtain ⟨place, hplace, hdirs, hbytes⟩ := h.find_file
    have hexists : w.files.exists? (settingsIn dir) = .ok false := by
      rw [FileTree.exists?, hplace]
      cases place with
      | dir l => exact absurd rfl (hdirs l)
      | file => cases hbytes
      | vacant => rfl
    have hdefault : m = default := by
      obtain ⟨_, _, ⟨⟩, -⟩ | ⟨-, h⟩ := hm
      exact h
    obtain ⟨w', hsave, hready⟩ :=
      (h.note (notFoundNote (settingsIn dir))).save (fits_default hroom)
    refine ⟨w', ?_, hready⟩
    rw [run_loadAt_of_not_exists hexists hsave, hanswer hready, hdefault]

/-- Loading fails for bytes that cannot be loaded, and changes nothing. -/
theorem load_fails {bytes : ByteArray} (h : Ready dir limits (some bytes) w)
    (hbytes : ¬ IsLoadable limits bytes) : ∃ e, Action.run Settings.load w = (.error e, w) := by
  obtain ⟨-, e, hcontent⟩ | ⟨fields, hobject, -⟩ | ⟨hload, -⟩ := contentOf_cases limits h.read
  · rw [← h.limits_eq] at hcontent
    exact ⟨e, by rw [run_load_eq h.run_applyVariables h.run_settingsFile,
      run_loadAt_of_error (FileTree.exists?_of_read h.read) hcontent]⟩
  · exact absurd hobject.isLoadable hbytes
  · exact absurd hload hbytes

end Ready

/-! ## Requests -/

/-- What is asked of the settings. -/
inductive Request where
  /-- To store a scheme. -/
  | choose (s : Scheme)
  /-- To tell the scheme that is stored. -/
  | current
  /-- To load the settings. -/
  | load

namespace Request

/-- A request as an action, whose answer is left aside. -/
def action : Request → Action Unit
  | choose s => saveScheme s
  | current => do
    let _ ← loadScheme
    return ()
  | load => do
    let _ ← Settings.load
    return ()

/-- The settings after a request. -/
def settings (m : Settings) : Request → Settings
  | choose s => m.set schemeKey (.string s.name)
  | current => m
  | load => m

/-- The bytes of the settings file after a request, if settings were loaded from it. -/
def bytes (bytes? : Option ByteArray) (m : Settings) : Request → ByteArray
  | choose s => stored (m.set schemeKey (.string s.name))
  | current => bytes?.getD (stored default)
  | load => bytes?.getD (stored default)

end Request

/-- The world after some requests, whether they failed or not. -/
def after (rs : List Request) (w : World) : World :=
  rs.foldl (fun w r => (Action.run r.action w).2) w

theorem after_append (rs rs' : List Request) (w : World) :
    after (rs ++ rs') w = after rs' (after rs w) := List.foldl_append

/-- Storing a scheme sets its entry in what was loaded. -/
theorem Ready.choose (h : Ready dir limits bytes? w) (hroom : 0 < limits.nested)
    (hm : LoadsAs limits bytes? m) (s : Scheme) :
    ∃ w', Action.run (saveScheme s) w = (.ok (), w') ∧
      Ready dir limits (some (stored (m.set schemeKey (.string s.name)))) w' := by
  obtain ⟨w₁, hload, hready⟩ := h.load hroom hm
  obtain ⟨w₂, hsave, hready⟩ := hready.save ((hm.complete hroom).set_scheme s.name).fits
  refine ⟨w₂, ?_, hready⟩
  rw [saveScheme, Action.run_bind, hload]
  exact hsave

/-- A request leaves a world ready, and its effect on what is loaded is that on the settings. -/
theorem Ready.apply (h : Ready dir limits bytes? w) (hroom : 0 < limits.nested)
    (hm : LoadsAs limits bytes? m) (r : Request) :
    Ready dir limits (some (r.bytes bytes? m)) (Action.run r.action w).2 ∧
      LoadsAs limits (some (r.bytes bytes? m)) (r.settings m) := by
  obtain ⟨w', hload, hready⟩ := h.load hroom hm
  have hloads : LoadsAs limits (some (bytes?.getD (stored default))) m := by
    cases bytes? with
    | some bytes => exact hm
    | none =>
      obtain ⟨_, _, ⟨⟩, -⟩ | ⟨-, rfl⟩ := hm
      exact Complete.loadsAs ⟨fits_default hroom, rfl⟩
  cases r with
  | choose s =>
    obtain ⟨w', hchoose, hready⟩ := h.choose hroom hm s
    rw [Request.action, hchoose]
    exact ⟨hready, ((hm.complete hroom).set_scheme s.name).loadsAs⟩
  | current =>
    refine ⟨?_, hloads⟩
    have hkept := keeps_scheme (fun _ r h => h.note r) (.object m) w' hready
    rw [Request.action, loadScheme]
    simp only [Action.run_bind, hload]
    split
    · rename_i hrun
      rw [hrun] at hkept
      exact hkept
    · rename_i hrun
      rw [hrun] at hkept
      exact hkept
  | load =>
    refine ⟨?_, hloads⟩
    rw [Request.action, Action.run_bind, hload]
    exact hready

/-- After a run of requests a world is ready, and what is loaded is the settings after the run. -/
theorem ready_after (h : Ready dir limits bytes? w) (hroom : 0 < limits.nested)
    (hm : LoadsAs limits bytes? m) (rs : List Request) :
    ∃ bytes?', Ready dir limits bytes?' (after rs w) ∧
      LoadsAs limits bytes?' (rs.foldl Request.settings m) := by
  induction rs generalizing w m bytes? with
  | nil => exact ⟨bytes?, h, hm⟩
  | cons r rs ih =>
    obtain ⟨hready, hloads⟩ := h.apply hroom hm r
    exact ih hready hloads

/-- As long as no scheme is stored, the settings file keeps its bytes. -/
theorem ready_after_of_no_choice {bytes : ByteArray} (h : Ready dir limits (some bytes) w)
    (hroom : 0 < limits.nested) (hm : LoadsAs limits (some bytes) m) {rs : List Request}
    (hrs : ∀ s, .choose s ∉ rs) : Ready dir limits (some bytes) (after rs w) := by
  induction rs generalizing w with
  | nil => exact h
  | cons r rs ih =>
    have hrest : ∀ s, .choose s ∉ rs := fun s hs => hrs s (List.mem_cons_of_mem r hs)
    cases r with
    | choose s => exact absurd List.mem_cons_self (hrs s)
    | current => exact ih (h.apply hroom hm .current).1 hrest
    | load => exact ih (h.apply hroom hm .load).1 hrest

/-- A run of requests changes at most the scheme in the settings. -/
theorem set_foldl_settings (rs : List Request) (m : Settings) (v : Json) :
    (rs.foldl Request.settings m).set schemeKey v = m.set schemeKey v := by
  induction rs generalizing m with
  | nil => rfl
  | cons r rs ih =>
    rw [List.foldl_cons, ih]
    cases r with
    | choose s => exact Table.set_set m schemeKey _ v
    | current => rfl
    | load => rfl

/-- Every request fails for bytes that cannot be loaded, and changes nothing. -/
theorem Ready.fails {bytes : ByteArray} (h : Ready dir limits (some bytes) w)
    (hbytes : ¬ IsLoadable limits bytes) (r : Request) :
    ∃ e, Action.run r.action w = (.error e, w) := by
  obtain ⟨e, hload⟩ := h.load_fails hbytes
  refine ⟨e, ?_⟩
  cases r with
  | choose s => rw [Request.action, saveScheme, Action.run_bind, hload]
  | current => simp only [Request.action, loadScheme, Action.run_bind, hload]
  | load => rw [Request.action, Action.run_bind, hload]

theorem after_of_fails {bytes : ByteArray} (h : Ready dir limits (some bytes) w)
    (hbytes : ¬ IsLoadable limits bytes) (rs : List Request) : after rs w = w := by
  induction rs with
  | nil => rfl
  | cons r rs ih =>
    obtain ⟨e, hr⟩ := h.fails hbytes r
    rw [after, List.foldl_cons, hr]
    exact ih

/-! ## Runs -/

/-- Making the settings directory first makes a world ready, and no request tells the two worlds
    apart. -/
theorem ready_of_makeDirs {t : FileTree} {place : Place}
    (hdir : settingsOverride? w.accounts w.env = .ok (some dir))
    (hvars : w.reader w.files w.env = .ok { env := w.env }) (hlawful : w.reader.Lawful)
    (hdebug : (w.env.get? debugVariable).any switchesOn = false) (hw : w.Orderly)
    (hmake : w.files.makeDirs dir = (.ok (), t)) (hplace : t.find (settingsIn dir) = .ok place)
    (hfile : ∀ l, place ≠ .dir l) (hpermits : ∀ use, t.Permits use (settingsIn dir))
    (hspace : w.files.room = none) :
    Ready dir w.limits place.bytes? { w with files := t } ∧ ∀ rs (r : Request),
      Action.run r.action (after rs w) = Action.run r.action (after rs { w with files := t }) := by
  have hsame : w.files.SameFiles t := by
    have hkept := w.files.sameFiles_makeDirs dir
    rwa [hmake] at hkept
  have horderly : { w with files := t }.Orderly := hw.of_sameFiles hsame fun _ h => h
  have hgrown : FileTree.Grows IsKept w.files t := by
    have hdirs : FileTree.Grows IsKept w.files (w.files.makeDirs dir).2 :=
      FileTree.grows_makeDirs w.files dir
    rwa [hmake] at hdirs
  have hready : Ready dir w.limits place.bytes? { w with files := t } :=
    ⟨rfl, hdir, hlawful, (hlawful.of_grows hgrown w.env).trans hvars, hdebug, horderly,
      FileTree.find_of_makeDirs hmake, ⟨place, hplace, hfile, rfl⟩, hpermits,
      hsame.room.trans hspace⟩
  refine ⟨hready, ?_⟩
  have hload : Action.run load w = Action.run load { w with files := t } := by
    have hsettings : Action.run settingsFile w = (.ok (settingsIn dir), { w with files := t }) := by
      rw [run_settingsFile hdir, hmake]
      rfl
    rw [run_load_eq (run_applyVariables_of_nothing hvars) hsettings,
      run_load_eq hready.run_applyVariables hready.run_settingsFile]
  have haction (r : Request) :
      Action.run r.action w = Action.run r.action { w with files := t } := by
    cases r with
    | choose s => rw [Request.action, saveScheme, Action.run_bind, Action.run_bind, hload]
    | current => simp only [Request.action, loadScheme, Action.run_bind, hload]
    | load => rw [Request.action, Action.run_bind, Action.run_bind, hload]
  intro rs r
  cases rs with
  | nil => exact haction r
  | cons r' rs => rw [after, after, List.foldl_cons, List.foldl_cons, haction r']

/-- **Choosing schemes over whole runs.**  The environment names a directory that can be made, in
    which the settings file is missing or a file with any bytes, and may be made, read and written
    without limit; it does not switch debugging on, and nothing is to be applied.  The world is
    orderly, as every run of the program keeps it (`Program.orderly_afterSteps`).  Then one of two
    things holds.

    Either the file holds bytes that cannot be loaded: they are no text in UTF-8, or go beyond the
    limits of the runtime.  Then every request fails, after any run of requests, and leaves the
    bytes as they are.

    Or `m` is loaded, the fields of the object in the file over the defaults, or the defaults.
    Then, after any run of requests, a scheme is stored without a fault, and as long as no other
    one is stored the scheme is told, and the file holds the text of `m` with this scheme. -/
theorem loadScheme_after_choice {t : FileTree} {place : Place}
    (hdir : settingsOverride? w.accounts w.env = .ok (some dir))
    (hvars : w.reader w.files w.env = .ok { env := w.env }) (hlawful : w.reader.Lawful)
    (hdebug : (w.env.get? debugVariable).any switchesOn = false) (hw : w.Orderly)
    (hroom : 0 < w.limits.nested) (hmake : w.files.makeDirs dir = (.ok (), t))
    (hplace : t.find (settingsIn dir) = .ok place) (hfile : ∀ l, place ≠ .dir l)
    (hpermits : ∀ use, t.Permits use (settingsIn dir)) (hspace : w.files.room = none) :
    (∃ bytes, place.bytes? = some bytes ∧ ¬ IsLoadable w.limits bytes ∧
      ∀ rs (r : Request), ∃ e w', Action.run r.action (after rs w) = (.error e, w') ∧
        w'.files.read (settingsIn dir) = .ok bytes) ∨
    ∃ m, LoadsAs w.limits place.bytes? m ∧
      ∀ rs s rs', (∀ s', .choose s' ∉ rs') →
        (Action.run (saveScheme s) (after rs w)).1 = .ok () ∧
        (Action.run loadScheme (after (rs ++ .choose s :: rs') w)).1 = .ok s ∧
        (after (rs ++ .choose s :: rs') w).files.read (settingsIn dir) =
          .ok (Text.encode (Json.object (m.set schemeKey (.string s.name))).text) := by
  obtain ⟨hready, hsame⟩ := ready_of_makeDirs hdir hvars hlawful hdebug hw hmake hplace hfile
    hpermits hspace
  by_cases hload : ∀ bytes, place.bytes? = some bytes → IsLoadable w.limits bytes
  · right
    obtain ⟨m, hm⟩ := exists_loadsAs hload
    refine ⟨m, hm, fun rs s rs' hrs' => ?_⟩
    obtain ⟨bytes?, hbefore, hloads⟩ := ready_after hready hroom hm rs
    obtain ⟨w₁, hchoose, hchosen⟩ := hbefore.choose hroom hloads s
    rw [set_foldl_settings] at hchosen
    have hrun : Action.run (saveScheme s) (after rs w) = (.ok (), w₁) :=
      (hsame rs (.choose s)).trans hchoose
    have hafter : after (rs ++ .choose s :: rs') w = after rs' w₁ := by
      rw [after_append, after, List.foldl_cons, Request.action, hrun]
      rfl
    have hcomplete := (hm.complete hroom).set_scheme s.name
    have hlast := ready_after_of_no_choice hchosen hroom hcomplete.loadsAs hrs'
    rw [hrun, hafter]
    refine ⟨rfl, ?_, ?_⟩
    · obtain ⟨w₂, hloaded, -⟩ := hlast.load hroom hcomplete.loadsAs
      have hname : (m.set schemeKey (.string s.name)).get? schemeKey = some (.string s.name) := by
        rw [Table.get?_set, if_pos rfl]
      rw [loadScheme, Action.run_bind, hloaded]
      simp only [run_scheme_of_name hname]
    · exact hlast.read
  · left
    push Not at hload
    obtain ⟨bytes, hbytes, hnot⟩ := hload
    rw [hbytes] at hready
    refine ⟨bytes, hbytes, hnot, fun rs r => ?_⟩
    obtain ⟨e, hr⟩ := hready.fails hnot r
    refine ⟨e, { w with files := t }, ?_, hready.read⟩
    rw [hsame, after_of_fails hready hnot, hr]

theorem loadScheme_after_choice_twice :
    (Action.run loadScheme (after [.choose .whiteBlack, .load, .choose .blueOrange, .current]
      (fileWorld [] (stored someSettings)))).1 = .ok .blueOrange ∧
    (after [.choose .whiteBlack, .load, .choose .blueOrange, .current]
      (fileWorld [] (stored someSettings))).files.read (settingsIn someDir) =
        .ok (Text.encode (Json.object [(schemeKey, .string "BLUE_ORANGE".toList),
          (debugKey, .bool true), ("a".toList, .list [.int 1])]).text) := by
  have hobject := isObject_stored fits_someSettings
  obtain ⟨bytes, hbytes, hnot, -⟩ | ⟨m, hm, h⟩ :=
    loadScheme_after_choice (settingsOverride?_fileWorld [] (stored someSettings))
      rfl lawful_nothing rfl (orderly_fileWorld _ _) (by decide)
      (FileTree.makeDirs_of_find (find_someDir _ _)) rfl (fun _ h => by cases h)
      (fun _ _ _ _ _ => rfl) rfl
  · cases hbytes
    exact absurd hobject.isLoadable hnot
  · obtain ⟨_, fields, ⟨⟩, hfields, rfl⟩ | ⟨hother, -⟩ := hm
    · rw [hfields.unique hobject] at h
      exact (h [.choose .whiteBlack, .load] .blueOrange [.current] (by simp)).2
    · exact absurd hobject ((hother _ rfl).2 _)

/-- A text that opens more lists than the runtime puts up with cannot be loaded. -/
theorem run_load_of_brackets {n : Nat} (hn : ({} : Limits).nested < n) :
    Action.run load (fileWorld [] (Text.encode (List.replicate n '['))) =
      (.error (.tooDeep false), fileWorld [] (Text.encode (List.replicate n '['))) := by
  have hlines : Text.unifyNewlines (List.replicate n '[') = List.replicate n '[' :=
    Text.unifyNewlines_of_isPlain fun c hc => by
      rw [List.eq_of_mem_replicate hc]
      exact .inr (by decide)
  have hdeep : Json.ofText {} (List.replicate n '[') = .error (.tooDeep false) := by
    obtain ⟨k, rfl⟩ := Nat.exists_eq_add_of_le (Nat.succ_le_of_lt hn)
    rw [← List.replicate_append_replicate]
    exact Json.ofText_tooDeep {} _
  have hcontent : contentOf {} (settingsIn someDir)
      (fileWorld [] (Text.encode (List.replicate n '['))).files = .error (.tooDeep false) := by
    simp only [contentOf, read_settingsIn_someDir, Text.decode?_encode, hlines, hdeep]
  rw [run_load_eq (run_applyVariables_fileWorld _ _) (run_settingsFile_fileWorld _ _),
    run_loadAt_of_error (FileTree.exists?_of_read (read_settingsIn_someDir _ _)) hcontent]

theorem choose_over_brackets {n : Nat} (hn : ({} : Limits).nested < n) :
    (Action.run (saveScheme .blueOrange)
      (fileWorld [] (Text.encode (List.replicate n '[')))).1 = .error (.tooDeep false) ∧
    (Action.run loadScheme (after [.choose .blueOrange]
      (fileWorld [] (Text.encode (List.replicate n '['))))).1 = .error (.tooDeep false) := by
  have hload := run_load_of_brackets hn
  have hchoose : Action.run (saveScheme .blueOrange)
      (fileWorld [] (Text.encode (List.replicate n '['))) =
        (.error (.tooDeep false), fileWorld [] (Text.encode (List.replicate n '['))) := by
    rw [saveScheme, Action.run_bind, hload]
  refine ⟨by rw [hchoose], ?_⟩
  rw [after, List.foldl_cons, Request.action, hchoose, List.foldl_nil, loadScheme, Action.run_bind,
    hload]

/-- Over five thousand lists inside of one another no scheme can be stored, nor told afterwards. -/
theorem choose_over_many_brackets :
    (Action.run (saveScheme .blueOrange)
      (fileWorld [] (Text.encode (List.replicate 5000 '[')))).1 = .error (.tooDeep false) ∧
    (Action.run loadScheme (after [.choose .blueOrange]
      (fileWorld [] (Text.encode (List.replicate 5000 '['))))).1 = .error (.tooDeep false) := by
  have hmany : ({} : Limits).nested < 5000 := by decide
  exact choose_over_brackets hmany

end Settings

end PromptFill
