/-
  Loading settings for a second time.

  The environment names the settings directory.  Loading applies the files of variables and makes
  the directory (`Entered`), and makes the settings file if it is missing.  After that there is
  something at the settings file (`Steady`), or it is missing and cannot be made (`Barred`).  Both
  last as long as nothing but records is written, and decide what loading comes to
  (`Steady.run_load`, `Barred.run_load`).

  So a second loading answers the same settings.  All that it changes is what is logged: what the
  reader of the files of variables says, the warning about what is no object, or the notes about a
  file that cannot be made (`load_again`).
-/
import Mathlib.Tactic.SplitIfs
import PromptFill.Proofs.Log.Delivery
import PromptFill.Proofs.Settings.Saving

namespace PromptFill

namespace Settings

open FileTree (Grows)
open Json (Plain)

variable {w w₀ w' : World} {dir : Path} {content : Content} {s : Settings} {v : Location}
  {why : Refusal} {said : List Record}

/-! ## The settings directory is there -/

/-- A world in which the variables are applied and the settings directory is there. -/
structure Entered (dir : Path) (w : World) : Prop where
  orderly : w.Orderly
  lawful : w.reader.Lawful
  applied : ∃ said, w.reader w.files w.env = .ok { env := w.env, said }
  override : settingsOverride? w.accounts w.env = .ok (some dir)
  find_dir : ∃ d, w.files.find dir = .ok (.dir d)

namespace Entered

/-- The directory stays, and the variables stay applied, when settings files and log files come up
    or change. -/
theorem of_grows {files : FileTree} {logging : Logging} {output : Output} (h : Entered dir w)
    (hw : { w with files, logging, output }.Orderly) (hgrows : Grows IsKept w.files files) :
    Entered dir { w with files, logging, output } := by
  obtain ⟨said, happlied⟩ := h.applied
  obtain ⟨d, hd⟩ := h.find_dir
  exact ⟨hw, h.lawful, ⟨said, (h.lawful.of_grows hgrows w.env).trans happlied⟩, h.override,
    ⟨d, hgrows.find_dir hd⟩⟩

theorem of_logs (h : Entered dir w) (hlogs : w.AppendsLogs w') : Entered dir w' := by
  have horderly := h.orderly.of_logs hlogs
  rw [hlogs.eq] at horderly ⊢
  exact h.of_grows horderly (h.orderly.grows_of_logs hlogs).1

theorem of_write {files : FileTree} {bytes : ByteArray} (h : Entered dir w)
    (hwrite : w.files.write (settingsIn dir) bytes = .ok files) :
    Entered dir { w with files } :=
  h.of_grows (h.orderly.write hwrite) (h.orderly.grows_of_write hwrite)

theorem run_settingsFile (h : Entered dir w) :
    Action.run settingsFile w = (.ok (settingsIn dir), w) := by
  obtain ⟨d, hd⟩ := h.find_dir
  rw [PromptFill.run_settingsFile h.override, FileTree.makeDirs_of_find hd]
  rfl

theorem run_save (h : Entered dir w) (v : Json) :
    Action.run (save v) w = Action.run (writeTo (settingsIn dir) v) w := by
  obtain ⟨d, hd⟩ := h.find_dir
  exact run_save_eq h.override (FileTree.makeDirs_of_find hd) v

/-- Loading goes on at the settings file, after what the reader of the variables says. -/
theorem run_load (h : Entered dir w)
    (hsaid : w.reader w.files w.env = .ok { env := w.env, said }) :
    Action.run load w = Action.run (loadAt (settingsIn dir)) (w.logAll said) := by
  have hlogs := World.appendsLogs_logAll w said
  have hvars : Action.run applyVariables w = (.ok (), w.logAll said) := by
    rw [run_applyVariables hsaid]
    simp only [← hlogs.env]
  exact run_load_eq hvars (h.of_logs hlogs).run_settingsFile

end Entered

/-- A world in which there is something at the settings file, which is found to hold this. -/
structure Steady (dir : Path) (content : Content) (w : World) : Prop extends Entered dir w where
  found : w.files.exists? (settingsIn dir) = .ok true
  content : contentOf w.limits (settingsIn dir) w.files = .ok content

namespace Steady

theorem of_logs (h : Steady dir content w) (hlogs : w.AppendsLogs w') : Steady dir content w' := by
  obtain ⟨place, hplace, hthere⟩ := FileTree.exists?_eq_true_iff.1 h.found
  obtain ⟨hplace', hread⟩ := find_of_logs h.orderly hlogs (not_isLog_settingsIn dir) hplace
  refine ⟨h.toEntered.of_logs hlogs, FileTree.exists?_eq_true_iff.2 ⟨place, hplace', hthere⟩, ?_⟩
  rw [hlogs.limits, contentOf, hread]
  exact h.content

/-- What is found is answered, with the warning about it. -/
theorem run_load (h : Steady dir content w)
    (hsaid : w.reader w.files w.env = .ok { env := w.env, said }) : Action.run load w =
      (.ok (content.answer.withEnvironment (w.env.get? debugVariable)),
        (w.logAll said).noteAll (content.notes w.decoderMessage (settingsIn dir))) := by
  have hlogs := World.appendsLogs_logAll w said
  have hlogged := h.of_logs hlogs
  rw [h.toEntered.run_load hsaid, run_loadAt hlogged.found hlogged.content, hlogs.env,
    hlogs.decoder]

end Steady

/-! ## The settings file cannot be made -/

/-- The notes about a settings file that is missing and cannot be written. -/
def missingNotes (file : Path) (e : Fault) : List Record :=
  [notFoundNote file, notSavedNote file e]

/-- A world in which the settings file is missing and cannot be made. -/
structure Barred (dir : Path) (v : Location) (why : Refusal) (w : World) : Prop
    extends Entered dir w where
  vacant : w.files.find (settingsIn dir) = .ok (.vacant v)
  refused : w.files.refuses .making v = some why

theorem exists?_of_vacant {t : FileTree} {p : Path} (h : t.find p = .ok (.vacant v)) :
    t.exists? p = .ok false := by
  rw [FileTree.exists?, h]

namespace Barred

theorem of_logs (h : Barred dir v why w) (hlogs : w.AppendsLogs w') : Barred dir v why w' := by
  have hvacant := hlogs.find h.vacant fun _ _ _ h => by cases h
  exact ⟨h.toEntered.of_logs hlogs, hvacant, by rw [hlogs.same.refuses, h.refused]⟩

theorem openFile (h : Barred dir v why w) : w.files.openFile (settingsIn dir) =
    .error (.refused why (settingsIn dir).text) := by
  rw [FileTree.openFile, h.vacant]
  dsimp only
  rw [FileTree.permit, h.refused]

/-- The defaults are answered, and it is noted that they cannot be saved. -/
theorem run_loadAt (h : Barred dir v why w) : Action.run (loadAt (settingsIn dir)) w =
    (.ok (default.withEnvironment (w.env.get? debugVariable)),
      w.noteAll (missingNotes (settingsIn dir) (.refused why (settingsIn dir).text))) := by
  have hnoted := h.of_logs (World.appendsLogs_note w (notFoundNote (settingsIn dir)))
  have hsave := hnoted.toEntered.run_save (.object default)
  rw [run_writeTo_of_refused _ hnoted.openFile rfl] at hsave
  rw [run_loadAt_of_not_exists (exists?_of_vacant h.vacant) hsave]
  simp only [(World.appendsLogs_note _ _).env]
  rfl

theorem run_load (h : Barred dir v why w)
    (hsaid : w.reader w.files w.env = .ok { env := w.env, said }) : Action.run load w =
      (.ok (default.withEnvironment (w.env.get? debugVariable)), (w.logAll said).noteAll
        (missingNotes (settingsIn dir) (.refused why (settingsIn dir).text))) := by
  have hlogs := World.appendsLogs_logAll w said
  rw [h.toEntered.run_load hsaid, (h.of_logs hlogs).run_loadAt, hlogs.env]

end Barred

/-! ## The settings file is made -/

theorem plain_default : Plain (.object default) := by
  refine .object (by decide) ?_
  rw [default, List.forall_mem_cons, List.forall_mem_singleton]
  exact ⟨.string _, .bool false⟩

/-- A file that holds what there is room for of the defaults is loaded as the defaults, also if it
    may not be read. -/
theorem contentOf_fitting {t t₀ : FileTree} {limits : Json.Limits} {file : Path} {l : Location}
    {id : Nat} (hroom : 0 < limits.nested)
    (hfile : t.find file = .ok (.file l id (t₀.fitting (stored default)))) :
    ∃ content, contentOf limits file t = .ok content ∧ content.answer = default := by
  have hfits := fits_default hroom
  cases hreading : t.refuses .reading l with
  | some why =>
    have hread : t.read file = .error (.refused why file.text) := by
      rw [FileTree.read, hfile]
      dsimp only
      rw [FileTree.permit, hreading]
    exact ⟨.unreadable (.refused why file.text), by simp only [contentOf, hread]; rfl, rfl⟩
  | none =>
    have hread : t.read file = .ok (t₀.fitting (stored default)) :=
      FileTree.read_eq_ok_iff.2 ⟨l, id, hfile, hreading⟩
    cases hspace : t₀.hasRoom (stored default) with
    | true =>
      rw [FileTree.fitting_of_hasRoom hspace] at hread
      exact ⟨.settings default, contentOf_eq_settings_iff.2 ⟨_, hread, isObject_stored hfits⟩, rfl⟩
    | false =>
      -- what there is room for is a part of the text of the defaults
      have hplain : (Json.object default).text.IsPlain :=
        Json.isPlain_write plain_default.proper 0
      obtain ⟨most, hmost, hless⟩ : ∃ most, t₀.room = some most ∧
          most < (Json.object default).text.length := by
        rw [FileTree.hasRoom] at hspace
        cases hmost : t₀.room with
        | none =>
          rw [hmost] at hspace
          cases hspace
        | some most =>
          rw [hmost, Option.all_some, decide_eq_false_iff_not, stored,
            Text.size_encode_of_isPlain hplain, Nat.not_le] at hspace
          exact ⟨most, rfl, hspace⟩
      have hpart : t₀.fitting (stored default) =
          Text.encode ((Json.object default).text.take most) := by
        rw [FileTree.fitting, hmost]
        exact Text.extract_encode_of_isPlain hplain hless.le
      have hstart : Json.IsStart ((Json.object default).text.take most)
          (Json.object default).text :=
        ⟨(Json.object default).text[most], (Json.object default).text.drop (most + 1), by
          rw [← List.drop_eq_getElem_cons hless, List.take_append_drop]⟩
      have hlines : Text.unifyNewlines ((Json.object default).text.take most) =
          (Json.object default).text.take most :=
        Text.unifyNewlines_of_isPlain fun c hc => hplain c (List.mem_of_mem_take hc)
      refine ⟨.malformed ((Json.object default).text.take most), ?_, rfl⟩
      simp only [contentOf, hread, hpart, Text.decode?_encode, hlines,
        Json.ofText_of_isStart plain_default hfits.depth_le (hfits.cutShort?_eq_none 0) hstart]

/-- Saving makes a settings file that is missing and can be made, with what there is room for. -/
theorem Entered.run_save_of_vacant {m : Settings} (h : Entered dir w)
    (hvacant : w.files.find (settingsIn dir) = .ok (.vacant v))
    (hmaking : w.files.refuses .making v = none)
    (hcut : (Json.object m).cutShort? w.limits.digits 0 = none) :
    ∃ w' l id, Action.run (save (.object m)) w = (.ok (), w') ∧
      w'.files.find (settingsIn dir) = .ok (.file l id (w.files.fitting (stored m))) ∧
      Entered dir w' ∧ w'.files.refuses = w.files.refuses ∧
      w' = { w with files := w'.files, logging := w'.logging, output := w'.output } := by
  have hopen : w.files.openFile (settingsIn dir) = .ok (w.files.fresh, w.files.addFile v) := by
    rw [FileTree.openFile, hvacant]
    exact FileTree.permit_of_none hmaking _ _
  obtain ⟨houtcome, t, r, hwrite, hlast⟩ :=
    (written_writeTo w (settingsIn dir) (.object m)).exists_write_of_cutShort? hopen hcut
  have hwritten := h.of_write hwrite
  have hlogs := World.appendsLogs_note { w with files := t } r
  obtain ⟨l, id, hfile, -⟩ := h.orderly.find_write hwrite (not_isLog_settingsIn dir)
  obtain ⟨hfile', -⟩ := find_of_logs hwritten.orderly hlogs (not_isLog_settingsIn dir) hfile
  refine ⟨_, l, id, ?_, hfile', hwritten.of_logs hlogs, ?_, hlogs.eq⟩
  · rw [h.run_save, ← houtcome, ← hlast]
  · rw [hlogs.same.refuses, (h.orderly.grows_of_write hwrite).refuses]

/-- A settings file that is missing and can be made is made with the defaults, as far as there is
    room for them. -/
theorem Entered.run_loadAt_of_vacant (h : Entered dir w)
    (hvacant : w.files.find (settingsIn dir) = .ok (.vacant v))
    (hmaking : w.files.refuses .making v = none) (hroom : 0 < w.limits.nested) :
    ∃ w' content l id, Action.run (loadAt (settingsIn dir)) w =
        (.ok (default.withEnvironment (w.env.get? debugVariable)), w') ∧
      w'.files.find (settingsIn dir) = .ok (.file l id (w.files.fitting (stored default))) ∧
      Steady dir content w' ∧ content.answer = default ∧
      w'.files.refuses = w.files.refuses ∧
      w' = { w with files := w'.files, logging := w'.logging, output := w'.output } := by
  have hlogs := World.appendsLogs_note w (notFoundNote (settingsIn dir))
  have hcut : (Json.object default).cutShort?
      (w.ensureHandler.log (notFoundNote (settingsIn dir))).limits.digits 0 = none := by
    rw [hlogs.limits]
    exact (fits_default hroom).cutShort?_eq_none 0
  obtain ⟨w', l, id, hsave, hfile, hentered, hrefuses, heq⟩ :=
    (h.of_logs hlogs).run_save_of_vacant (hlogs.find hvacant fun _ _ _ h => by cases h)
      (by rw [hlogs.same.refuses, hmaking]) hcut
  rw [FileTree.fitting, hlogs.same.room, ← FileTree.fitting] at hfile
  have hframe : w' = { w with files := w'.files, logging := w'.logging, output := w'.output } := by
    rw [heq, hlogs.eq]
  have henv : w'.env = w.env := by rw [hframe]
  have hlimits : w'.limits = w.limits := by rw [hframe]
  obtain ⟨content, hcontent, hanswer⟩ := contentOf_fitting hroom hfile
  refine ⟨w', content, l, id, ?_, hfile, ⟨hentered, ?_, ?_⟩, hanswer, ?_, hframe⟩
  · rw [run_loadAt_of_not_exists (exists?_of_vacant hvacant) hsave, henv]
  · exact FileTree.exists?_eq_true_iff.2 ⟨_, hfile, fun _ h => by cases h⟩
  · rw [hlimits, hcontent]
  · rw [hrefuses, hlogs.same.refuses]

/-! ## The second loading -/

/-- Loading that succeeds leaves something at the settings file: what was there, or the defaults as
    far as there is room for them.  Or it leaves nothing, as the file cannot be made. -/
theorem Entered.of_run_loadAt (h : Entered dir w) (hroom : 0 < w.limits.nested)
    (hload : Action.run (loadAt (settingsIn dir)) w = (.ok s, w')) :
    (∃ content, Steady dir content w' ∧ w'.env = w.env ∧ w'.limits = w.limits ∧
      s = content.answer.withEnvironment (w.env.get? debugVariable) ∧
      (w.files.exists? (settingsIn dir) = .ok true ∧
          w'.files.find (settingsIn dir) = w.files.find (settingsIn dir) ∨
        w.files.exists? (settingsIn dir) = .ok false ∧ content.answer = default ∧
          ∃ l id, w'.files.find (settingsIn dir) =
            .ok (.file l id (w.files.fitting (stored default))))) ∨
    ∃ v why, Barred dir v why w ∧ Barred dir v why w' ∧ w'.env = w.env ∧
      s = default.withEnvironment (w.env.get? debugVariable) := by
  cases hexists : w.files.exists? (settingsIn dir) with
  | error e =>
    rw [loadAt, Action.run_bind, Action.run_query, hexists] at hload
    cases hload
  | ok found =>
    cases found with
    | true =>
      cases hcontent : contentOf w.limits (settingsIn dir) w.files with
      | error e =>
        rw [run_loadAt_of_error hexists hcontent] at hload
        cases hload
      | ok content =>
        rw [run_loadAt hexists hcontent] at hload
        cases hload
        have hlogs := World.appendsLogs_noteAll w
          (content.notes w.decoderMessage (settingsIn dir))
        obtain ⟨place, hplace, -⟩ := FileTree.exists?_eq_true_iff.1 hexists
        obtain ⟨hplace', -⟩ := find_of_logs h.orderly hlogs (not_isLog_settingsIn dir) hplace
        exact .inl ⟨content, Steady.of_logs ⟨h, hexists, hcontent⟩ hlogs, hlogs.env, hlogs.limits,
          rfl, .inl ⟨rfl, hplace'.trans hplace.symm⟩⟩
    | false =>
      obtain ⟨d, hd⟩ := h.find_dir
      obtain ⟨v, hvacant⟩ : ∃ v, w.files.find (settingsIn dir) = .ok (.vacant v) := by
        rw [settingsIn_eq_below] at hexists ⊢
        exact FileTree.find_below_of_not_exists hd (by decide) (by decide) hexists
      cases hmaking : w.files.refuses .making v with
      | none =>
        obtain ⟨w₂, content, l, id, hrun, hplace, hsteady, hanswer, -, hframe⟩ :=
          h.run_loadAt_of_vacant hvacant hmaking hroom
        cases hload.symm.trans hrun
        exact .inl ⟨content, hsteady, by rw [hframe], by rw [hframe], by rw [hanswer],
          .inr ⟨rfl, hanswer, l, id, hplace⟩⟩
      | some why =>
        have hbarred : Barred dir v why w := ⟨h, hvacant, hmaking⟩
        cases hload.symm.trans hbarred.run_loadAt
        have hlogs := World.appendsLogs_noteAll w
          (missingNotes (settingsIn dir) (.refused why (settingsIn dir).text))
        exact .inr ⟨v, why, hbarred, hbarred.of_logs hlogs, hlogs.env, rfl⟩

end Settings

end PromptFill
