/-
  Runs of the program.

  A world is orderly if its files are well numbered and only log files are open for records.  Every
  step of the program keeps a world orderly, whether it succeeds or not (`Step.orderly_after`), and
  so does every run (`orderly_afterSteps`).  A run begins with no log file open; so the worlds that
  the program comes to are orderly (`orderly_of_numbered`).
-/
import PromptFill.Program
import PromptFill.Proofs.Directories.Staying

namespace PromptFill

open World (Orderly)

/-! ## Actions that keep a world orderly -/

theorem keeps_extract (s : Text) : Action.Keeps Orderly (extract s) :=
  (Action.keeps_log _).bind fun _ => Action.keeps_pure _

namespace Settings

theorem keeps_loadScheme : Action.Keeps Orderly loadScheme :=
  keeps_load.bind fun s => keeps_scheme (fun _ r hw => hw.ensureHandler.log r) (.object s)

theorem keeps_saveSchemeNamed (name : Text) : Action.Keeps Orderly (saveSchemeNamed name) := by
  rw [saveSchemeNamed]
  cases Scheme.ofName? name with
  | some scheme => exact keeps_load.bind fun s => keeps_save _
  | none => exact fun _ hw => hw

end Settings

namespace Program

theorem keeps_readTemplate (logger : Text) (file : Path) :
    Action.Keeps Orderly (readTemplate logger file) := by
  intro w hw
  rw [Action.run, readTemplate]
  repeat' split
  · exact hw
  · exact hw
  · exact hw.log _
  · exact hw

theorem keeps_start (logger : Text) (args : CommandLine.Arguments) :
    Action.Keeps Orderly (start logger args) := by
  refine Settings.keeps_load.bind fun _ => (Logging.keeps_setUp _ _ _).bind fun _ =>
    (keeps_readTemplate _ _).bind fun template? => ?_
  cases template? with
  | some template => exact Action.keeps_pure _
  | none => exact Action.keeps_pure _

/-- What is printed changes no file and no handler. -/
theorem orderly_of_output {w : World} (hw : w.Orderly) (output : Output) :
    { w with output }.Orderly := hw.of_sameFiles (.refl _) fun _ h => h

/-- The program keeps a world orderly, whatever its arguments are. -/
theorem keeps_run (program logger : Text) (args : List Text) :
    Action.Keeps Orderly (run program logger args) := by
  rw [run]
  split
  · exact keeps_start logger _
  · exact (Action.keeps_change fun _ hw => orderly_of_output hw _).bind fun _ =>
      Action.keeps_pure _
  · exact (Action.keeps_change fun _ hw => orderly_of_output hw _).bind fun _ =>
      Action.keeps_pure _

/-! ## Steps and runs -/

/-- A step: a call that concerns directories and settings, telling the scheme that settings choose,
    given or loaded ones, or choosing one by its name, setting up logging, offering a record,
    looking for placeholders, reading a template, and the program itself. -/
inductive Step where
  | call (c : Call)
  | tellScheme (settings? : Option Json)
  | chooseScheme (name : Text)
  | setUp (debug : Bool) (name : Text) (dir? : Option Path)
  | offer (r : Record)
  | extract (s : Text)
  | readTemplate (logger : Text) (file : Path)
  | run (program logger : Text) (args : List Text)

/-- The world after a step, whether it failed or not. -/
def Step.after (w : World) : Step → World
  | call c => c.after w
  | tellScheme (some settings) => (Action.run (Settings.scheme settings) w).2
  | tellScheme none => (Action.run Settings.loadScheme w).2
  | chooseScheme name => (Action.run (Settings.saveSchemeNamed name) w).2
  | setUp debug name dir? => (Action.run (Logging.setUp debug name dir?) w).2
  | offer r => (Action.run (Action.log r) w).2
  | extract s => (Action.run (PromptFill.extract s) w).2
  | readTemplate logger file => (Action.run (Program.readTemplate logger file) w).2
  | run program logger args => (Action.run (Program.run program logger args) w).2

/-- The world after some steps. -/
def afterSteps (steps : List Step) (w : World) : World := steps.foldl Step.after w

variable {w : World}

theorem orderly_after_call (hw : w.Orderly) (c : Call) : (c.after w).Orderly := by
  cases c with
  | userRoot => exact keeps_userRoot w hw
  | configDir => exact Settings.keeps_configDir_of Action.keeps_makeDirs w hw
  | logsDir => exact keeps_logsDir_of Action.keeps_makeDirs w hw
  | settingsFile => exact Settings.keeps_settingsFile w hw
  | load => exact Settings.keeps_load w hw
  | save settings => exact Settings.keeps_save settings w hw

/-- Every step keeps a world orderly. -/
theorem Step.orderly_after (hw : w.Orderly) (step : Step) : (step.after w).Orderly := by
  cases step with
  | call c => exact orderly_after_call hw c
  | tellScheme settings? =>
    cases settings? with
    | some settings =>
      exact Settings.keeps_scheme (fun _ r hw => hw.ensureHandler.log r) settings w hw
    | none => exact Settings.keeps_loadScheme w hw
  | chooseScheme name => exact Settings.keeps_saveSchemeNamed name w hw
  | setUp debug name dir? => exact Logging.keeps_setUp debug name dir? w hw
  | offer r => exact Action.keeps_log r w hw
  | extract s => exact keeps_extract s w hw
  | readTemplate logger file => exact keeps_readTemplate logger file w hw
  | run program logger args => exact keeps_run program logger args w hw

/-- **Every run keeps a world orderly.** -/
theorem orderly_afterSteps (hw : w.Orderly) (steps : List Step) :
    (afterSteps steps w).Orderly := by
  induction steps generalizing w with
  | nil => exact hw
  | cons step steps ih => exact ih (step.orderly_after hw)

/-- The worlds that the program comes to are orderly: it begins with no log file open, where
    different files have different numbers. -/
theorem orderly_of_numbered (hw : w.files.Numbered) (hclosed : ∀ id, ¬ w.IsOpen id)
    (steps : List Step) : (afterSteps steps w).Orderly :=
  orderly_afterSteps (World.orderly_of_not_isOpen hw hclosed) steps

end Program

end PromptFill
