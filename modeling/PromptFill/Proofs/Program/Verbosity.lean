/-
  How much a program logs whose template is refused.

  Whatever was loaded before, setting up logging leaves one log file and the console, and it alone
  decides on the level of the root: the note about the template that follows changes neither
  (`logging_of_run_setUp`).  So the level says whether debugging was asked for, by the arguments
  (`CommandLine.debug_of_parse`) or by the settings that were loaded
  (`Settings.wantsDebug_of_run_load`).
-/
import PromptFill.Proofs.CommandLine.Options
import PromptFill.Proofs.Program.Unreadable
import PromptFill.Proofs.Settings.Debugging

namespace PromptFill

namespace Program

open CommandLine (Abbreviates separatorText)

open Settings (IsObject applyVariables debugKey debugVariable)

variable {w w₁ w₂ : World} {args : List Text} {a : CommandLine.Arguments} {settings : Settings}
  {log : Path} {e : Fault} {debug : Bool}

/-- Setting up decides on the level of the root and on the handlers. -/
theorem logging_of_run_setUp {name : Text}
    (h : Action.run (Logging.setUp debug name none) w₁ = (.ok log, w₂)) :
    w₂.logging.rootLevel = Logging.mainLevel debug ∧
      ∃ id, w₂.logging.handlers = [.file Level.debug id, .console (Logging.mainLevel debug)] := by
  obtain ⟨dir, w, id, files, -, -, -, -, rfl⟩ := Logging.of_run_setUp h
  rw [World.logging_log, Logging.rootLevel_ask, Logging.handlers_ask]
  exact ⟨rfl, id, rfl⟩

theorem mainLevel_eq_debug_iff : Logging.mainLevel debug = Level.debug ↔ debug = true := by
  cases debug <;> decide

theorem mainLevel_eq_info_iff : Logging.mainLevel debug = Level.info ↔ debug = false := by
  cases debug <;> decide

/-- **The level that a program ends with.**  The arguments are accepted, settings are loaded and
    logging is set up, and the template is refused.  Then the program ends with the code 1, one log
    file and the console are left as handlers, and the root is at the level of debugging if an
    argument in front of the separator is the option for it or an abbreviation, or if the variable
    for debugging is `1`, `true` or `yes` in letters of whatever case, as the environment sets it or
    else as the reader of files of variables does, or if the settings file, as it is found when it
    is asked for, holds an object whose entry for debugging counts as true.  If not, the root is at
    the level of information.  Of the reader it is relied on that it keeps variables that are
    set. -/
theorem rootLevel_of_refused (program logger : Text) (hparse : CommandLine.parse args = .ok a)
    (hlawful : w.reader.Lawful) (hload : Action.run Settings.load w = (.ok settings, w₁))
    (hsetUp : Action.run (Logging.setUp (a.debug || settings.wantsDebug) programName none) w₁ =
      (.ok log, w₂))
    (hread : w₂.files.read a.template = .error e) (he : e.isRefusal = true) :
    ∃ w₃ applied w₀ file w', Action.run (run program logger args) w = (.ok .unreadable, w₃) ∧
      Outcome.unreadable.code? = some 1 ∧
      w.reader w.files w.env = .ok applied ∧
      Action.run applyVariables w = (.ok (), w₀) ∧
      Action.run settingsFile w₀ = (.ok file, w') ∧
      (w₃.logging.rootLevel = Level.debug ↔
        (∃ arg ∈ args.takeWhile (· ≠ separatorText), Abbreviates arg .debug) ∨
        (∃ value, (w.env.get? debugVariable).or (applied.env.get? debugVariable) = some value ∧
          value.map Char.toLower ∈ ["1".toList, "true".toList, "yes".toList]) ∨
        ∃ bytes fields value, w'.files.read file = .ok bytes ∧ IsObject w.limits bytes fields ∧
          fields.get? debugKey = some value ∧ value.isTrue = true) ∧
      (w₃.logging.rootLevel ≠ Level.debug → w₃.logging.rootLevel = Level.info) ∧
      ∃ id, w₃.logging.handlers = [.file Level.debug id, .console w₃.logging.rootLevel] := by
  obtain ⟨why, rfl⟩ | ⟨rfl, -⟩ := FileTree.read_eq_error hread
  · obtain ⟨-, hrun⟩ := run_of_refused program logger hparse hload hsetUp
      (textAt_of_read_eq_error hread)
    obtain ⟨applied, w₀, file, w', happlied, hvars, hfile, hwants⟩ :=
      Settings.wantsDebug_of_run_load hlawful hload
    obtain ⟨hlevel, id, hhandlers⟩ := logging_of_run_setUp hsetUp
    refine ⟨_, applied, w₀, file, w', hrun, rfl, happlied, hvars, hfile, ?_⟩
    rw [World.logging_log, Logging.rootLevel_ask, Logging.handlers_ask, hlevel, hhandlers]
    refine ⟨?_, fun hne => ?_, id, rfl⟩
    · rw [mainLevel_eq_debug_iff, Bool.or_eq_true, CommandLine.debug_of_parse hparse, hwants]
    · rw [mainLevel_eq_info_iff, ← Bool.not_eq_true]
      exact fun hdebug => hne (mainLevel_eq_debug_iff.2 hdebug)
  · cases he

/-- Settings in which the entry for debugging is a list. -/
def listedDebug : Settings := [(debugKey, .list [.int 0])]

/-- A list with something in it counts as true, whatever it is that is in it. -/
theorem rootLevel_of_refused_listedDebug : (readyWorld listedDebug none).reader.Lawful ∧ ∃ w₃,
    Action.run (run "app.py".toList mainLogger ["t.txt".toList]) (readyWorld listedDebug none) =
      (.ok .unreadable, w₃) ∧ w₃.logging.rootLevel = Level.debug := by
  have hfits : Json.Fits 4300 989 (.object listedDebug) := by
    refine .object (by decide) (List.forall_mem_singleton.2 (.list ?_))
    exact List.forall_mem_singleton.2 (.int (by decide))
  have hfind : (loggingWorld listedDebug none true).files.find readyTemplate =
      .ok (.vacant ["t.txt".toList]) := find_loggingWorld rfl fun _ _ h => by cases h
  have hread : (loggingWorld listedDebug none true).files.read readyTemplate =
      .error (.refused .notFound readyTemplate.text) := by
    rw [FileTree.read, hfind]
  obtain ⟨w₃, applied, w₀, file, w', hrun, -, -, hvars, hfile, hlevel, -⟩ :=
    rootLevel_of_refused "app.py".toList mainLogger parse_readyTemplate lawful_nothing
      (run_load_readyWorld _ _ hfits) (run_setUp_readyWorld _ _ true) hread rfl
  have hnothing : Action.run applyVariables (readyWorld listedDebug none) =
      (.ok (), readyWorld listedDebug none) := Settings.run_applyVariables_of_nothing rfl
  cases hnothing.symm.trans hvars
  cases (run_settingsFile_readyWorld listedDebug none).symm.trans hfile
  exact ⟨lawful_nothing, w₃, hrun, hlevel.2 (.inr (.inr
    ⟨_, listedDebug, _, rfl, Settings.isObject_stored hfits, rfl, rfl⟩))⟩

end Program

end PromptFill
