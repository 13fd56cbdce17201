/-
  What logging leaves as it is.

  A record that is logged changes the loggers that were asked for, the output, and the contents
  of open log files (`log_induct`).  All else stays, as `log_eq` says of the parts of a world and
  `sameFiles_log` of the files.

  `AppendsLogs` joins this in one relation, which any number of records and notes keeps.
  What is no open file is found as before in all of the worlds (`AppendsLogs.find`).
-/
import PromptFill.Proofs.Files.Numbering
import PromptFill.World

namespace PromptFill

/-! ## Asking for a logger -/

namespace Logging

@[simp] theorem rootLevel_ask (l : Logging) (name : Text) :
    (l.ask name).rootLevel = l.rootLevel := by
  rw [ask]
  split <;> rfl

@[simp] theorem handlers_ask (l : Logging) (name : Text) : (l.ask name).handlers = l.handlers := by
  rw [ask]
  split <;> rfl

end Logging

/-! ## Logging a record -/

namespace World

variable {w w' : World} {r : Record}

/-- The files that are open for logging, by their numbers. -/
def IsOpen (w : World) (id : Nat) : Prop := ∃ level, .file level id ∈ w.logging.handlers

/-- The induction over what happens when a record is logged: its logger is asked for, and then
    each handler writes to the output or appends to its file. -/
theorem log_induct {P : World → Prop} (hw : P w)
    (hask : ∀ loggers, P { w with logging := { w.logging with loggers } })
    (houtput : ∀ w output, P w → P { w with output })
    (happend : ∀ w' id more, w.IsOpen id → P w' → P { w' with files := w'.files.append id more })
    (r : Record) : P (w.log r) := by
  have hasked : P (w.ask r.logger) := by
    rw [ask, Logging.ask]
    split
    · exact hw
    · exact hask _
  have hhandlers : (w.ask r.logger).logging.handlers = w.logging.handlers :=
    w.logging.handlers_ask r.logger
  have hwrite {w' : World} {h : Handler} (hh : h ∈ w.logging.handlers) (hw' : P w') :
      P (w'.write r h) := by
    cases h with
    | capture => exact houtput w' _ hw'
    | stderr => exact houtput w' _ hw'
    | console => exact houtput w' _ hw'
    | file level id => exact happend w' id _ ⟨level, hh⟩ hw'
  -- the handlers write one after the other
  have hfold (hs : List Handler) (hmem : ∀ h ∈ hs, h ∈ w.logging.handlers) {w' : World}
      (hw' : P w') : P (hs.foldl (fun w h => w.write r h) w') := by
    induction hs generalizing w' with
    | nil => exact hw'
    | cons h hs ih =>
      obtain ⟨hh, hhs⟩ := List.forall_mem_cons.1 hmem
      exact ih hhs (hwrite hh hw')
  rw [log]
  split
  · rw [deliver]
    split
    · split
      · exact houtput _ _ hasked
      · exact hasked
    · refine hfold _ (fun h hh => ?_) hasked
      rw [← hhandlers]
      exact (List.mem_filter.1 hh).1
  · exact hasked

/-- Logging changes files, loggers and output only, and keeps the handlers. -/
theorem log_eq (w : World) (r : Record) : ∃ files loggers output, w.log r =
    { w with files, logging := { w.logging with loggers }, output } := by
  refine log_induct (P := fun w' => ∃ files loggers output, w' =
    { w with files, logging := { w.logging with loggers }, output }) ⟨_, _, _, rfl⟩
    (fun loggers => ⟨_, loggers, _, rfl⟩) ?_ ?_ r
  · rintro _ output ⟨files, loggers, _, rfl⟩
    exact ⟨files, loggers, output, rfl⟩
  · rintro _ id more - ⟨files, loggers, output, rfl⟩
    exact ⟨_, loggers, output, rfl⟩

theorem logging_write (w : World) (r : Record) (h : Handler) :
    (w.write r h).logging = w.logging := by
  cases h <;> rfl

/-- Of logging itself, a record changes only which loggers were asked for. -/
theorem logging_log (w : World) (r : Record) : (w.log r).logging = w.logging.ask r.logger := by
  have hfold (hs : List Handler) (w' : World) :
      (hs.foldl (fun w h => w.write r h) w').logging = w'.logging := by
    induction hs generalizing w' with
    | nil => rfl
    | cons h hs ih => rw [List.foldl_cons, ih, logging_write]
  have hdeliver (w' : World) : (w'.deliver r).logging = w'.logging := by
    rw [deliver]
    split
    · split <;> rfl
    · exact hfold _ w'
  rw [log]
  split
  · rw [hdeliver]
    rfl
  · rfl

/-- What holds of the files holds after logging, if appending to open files keeps it. -/
theorem files_log_induct {P : FileTree → Prop} (hw : P w.files)
    (happend : ∀ t id more, w.IsOpen id → P t → P (t.append id more)) (r : Record) :
    P (w.log r).files :=
  log_induct (P := fun w => P w.files) hw (fun _ => hw) (fun _ _ h => h)
    (fun _ id more hid h => happend _ id more hid h) r

theorem sameFiles_log (w : World) (r : Record) : w.files.SameFiles (w.log r).files :=
  files_log_induct (.refl _) (fun t id _ _ h => h.trans (t.sameFiles_change id _)) r

/-! ## Making sure that there is a handler -/

theorem ensureHandler_eq (w : World) : ∃ handlers, w.ensureHandler =
    { w with logging := { w.logging with handlers } } := by
  rw [ensureHandler]
  split
  · exact ⟨_, rfl⟩
  · exact ⟨w.logging.handlers, rfl⟩

theorem isOpen_ensureHandler {id : Nat} : w.ensureHandler.IsOpen id ↔ w.IsOpen id := by
  rw [ensureHandler]
  split
  · rename_i h
    simp [IsOpen, h]
  · rfl

theorem files_ensureHandler (w : World) : w.ensureHandler.files = w.files := by
  obtain ⟨handlers, h⟩ := ensureHandler_eq w
  rw [h]

theorem isOpen_log {id : Nat} : (w.log r).IsOpen id ↔ w.IsOpen id := by
  obtain ⟨files, loggers, output, h⟩ := log_eq w r
  rw [h]
  rfl

/-! ## Worlds that differ by what was logged -/

/-- Whether two worlds differ only by the state of logging, by output, and by what was appended to
    files that are open for logging; and the same files are open. -/
structure AppendsLogs (w w' : World) : Prop where
  eq : w' = { w with files := w'.files, logging := w'.logging, output := w'.output }
  isOpen : ∀ id, w'.IsOpen id ↔ w.IsOpen id
  same : w.files.SameFiles w'.files
  closed : ∀ l, (∀ id, w.IsOpen id → w.files.number? l ≠ some id) →
    w'.files.node? l = w.files.node? l
  opened : ∀ l id content, w.files.node? l = some (.file id content) →
    ∃ more, w'.files.node? l = some (.file id (content ++ more))

namespace AppendsLogs

theorem refl (w : World) : AppendsLogs w w :=
  ⟨rfl, fun _ => Iff.rfl, .refl _, fun _ _ => rfl,
    fun _ _ content h => ⟨ByteArray.empty, by rw [h, ByteArray.append_empty]⟩⟩

theorem trans {w'' : World} (h : AppendsLogs w w') (h' : AppendsLogs w' w'') :
    AppendsLogs w w'' := by
  refine ⟨?_, fun id => (h'.isOpen id).trans (h.isOpen id), h.same.trans h'.same,
    fun l hl => ?_, fun l id content hnode => ?_⟩
  · rw [h'.eq, h.eq]
  · rw [h'.closed l fun id hid => ?_, h.closed l hl]
    rw [h.same.number?]
    exact hl id ((h.isOpen id).1 hid)
  · obtain ⟨more, hmore⟩ := h.opened l id content hnode
    obtain ⟨more', hmore'⟩ := h'.opened l id _ hmore
    exact ⟨more ++ more', by rw [hmore', ByteArray.append_assoc]⟩

theorem env (h : AppendsLogs w w') : w'.env = w.env := by rw [h.eq]

theorem platform (h : AppendsLogs w w') : w'.platform = w.platform := by rw [h.eq]

theorem accounts (h : AppendsLogs w w') : w'.accounts = w.accounts := by rw [h.eq]

theorem limits (h : AppendsLogs w w') : w'.limits = w.limits := by rw [h.eq]

theorem reader (h : AppendsLogs w w') : w'.reader = w.reader := by rw [h.eq]

theorem decoder (h : AppendsLogs w w') : w'.decoderMessage = w.decoderMessage := by rw [h.eq]

theorem node?_of_number?_eq_none {l : Location} (h : AppendsLogs w w')
    (hl : w.files.number? l = none) : w'.files.node? l = w.files.node? l :=
  h.closed l fun id _ hid => by rw [hl] at hid; cases hid

/-- A file that is not open is found with the content that it had, and what is no file is found as
    well. -/
theorem find {p : Path} {place : Place} (h : AppendsLogs w w')
    (hplace : w.files.find p = .ok place)
    (hopen : ∀ l id content, place = .file l id content → ¬ w.IsOpen id) :
    w'.files.find p = .ok place := by
  obtain ⟨hnull, hlong, hleads⟩ := FileTree.find_eq_ok_iff.1 hplace
  refine FileTree.find_eq_ok_iff.2 ⟨hnull, hlong, ?_⟩
  have hstart : w'.files.start p = w.files.start p := by
    rw [FileTree.start, h.same.here, FileTree.start]
  rw [hstart]
  clear hplace hstart
  generalize w.files.start p = l, p.parts = names at hleads ⊢
  induction hleads with
  | here l => exact .here l
  | up _ ih => exact .up (ih hopen)
  | down hc hnode _ ih =>
    refine .down hc ?_ (ih hopen)
    rw [h.node?_of_number?_eq_none (by rw [FileTree.number?, hnode]; rfl), hnode]
  | file hc hnode =>
    refine .file hc ?_
    rw [h.closed, hnode]
    intro id' hid hnumber
    rw [FileTree.number?, hnode] at hnumber
    cases hnumber
    exact hopen _ _ _ rfl hid
  | vacant hc hnode =>
    refine .vacant hc ?_
    rw [h.node?_of_number?_eq_none (by rw [FileTree.number?, hnode]; rfl), hnode]

end AppendsLogs

theorem appendsLogs_log (w : World) (r : Record) : AppendsLogs w (w.log r) := by
  obtain ⟨files, loggers, output, hlog⟩ := log_eq w r
  refine ⟨by rw [hlog], fun _ => isOpen_log, sameFiles_log w r, fun l hl => ?_,
    fun l id content hnode => ?_⟩
  · refine files_log_induct (P := fun t => t.node? l = w.files.node? l) rfl ?_ r
    intro t id more hid ht
    rw [FileTree.append, FileTree.node?_change, ht]
    cases hnode : w.files.node? l with
    | none => rfl
    | some node =>
      cases node with
      | dir => rfl
      | file id' content =>
        have hne : id' ≠ id := by
          rintro rfl
          exact hl id' hid (FileTree.number?_eq_some_iff.2 ⟨content, hnode⟩)
        rw [Option.map_some, Node.change, if_neg hne]
  · refine files_log_induct (P := fun t => ∃ more, t.node? l = some (.file id (content ++ more)))
      ⟨ByteArray.empty, by rw [hnode, ByteArray.append_empty]⟩ ?_ r
    rintro t id' more - ⟨before, ht⟩
    rw [FileTree.append, FileTree.node?_change, ht, Option.map_some, Node.change]
    by_cases hid : id = id'
    · exact ⟨before ++ more, by rw [if_pos hid, ByteArray.append_assoc]⟩
    · exact ⟨before, by rw [if_neg hid]⟩

theorem appendsLogs_ensureHandler (w : World) : AppendsLogs w w.ensureHandler := by
  obtain ⟨handlers, hhandler⟩ := ensureHandler_eq w
  have hfiles := files_ensureHandler (w := w)
  refine ⟨by rw [hhandler], fun _ => isOpen_ensureHandler, ?_, ?_, ?_⟩
  · rw [hfiles]
    exact .refl _
  · intro l _
    rw [hfiles]
  · intro l id content hnode
    exact ⟨ByteArray.empty, by rw [hfiles, hnode, ByteArray.append_empty]⟩

theorem appendsLogs_note (w : World) (r : Record) : AppendsLogs w (w.ensureHandler.log r) :=
  (appendsLogs_ensureHandler w).trans (appendsLogs_log _ r)

/-! ## Several records -/

/-- The world after notes, before each of which it is made sure that there is a handler. -/
def noteAll (w : World) (rs : List Record) : World :=
  rs.foldl (fun w r => w.ensureHandler.log r) w

theorem appendsLogs_noteAll (w : World) (rs : List Record) : AppendsLogs w (w.noteAll rs) := by
  induction rs generalizing w with
  | nil => exact .refl w
  | cons r rs ih => exact (appendsLogs_note w r).trans (ih _)

theorem appendsLogs_logAll (w : World) (rs : List Record) : AppendsLogs w (w.logAll rs) := by
  induction rs generalizing w with
  | nil => exact .refl w
  | cons r rs ih => exact (appendsLogs_log w r).trans (ih _)

end World

end PromptFill
