/-
  Worlds in which logging is orderly.

  In an orderly world every file has a number of its own, and the files that are open for
  logging have the names of log files (`World.Orderly`).  A world in which no file is open is
  orderly if its files are well numbered, and an action keeps a world orderly if its steps do
  (`Action.Keeps`): making directories, writing files, logging and setting up logging all do.
  Where a step keeps a property only for some answers of the step before, it has to be known what
  that one answers (`Action.Yields`).

  So logging never writes to a file whose name is not that of a log file.
-/
import PromptFill.Log.Setup
import PromptFill.Proofs.Log.Frame

namespace PromptFill

/-! ## Actions that keep a property -/

namespace Action

variable {α β : Type} {P : World → Prop}

/-- Whether an action leaves a world with the property, if it starts in one. -/
def Keeps (P : World → Prop) (a : Action α) : Prop := ∀ w, P w → P (run a w).2

theorem keeps_pure (x : α) : Keeps P (pure x : Action α) := fun _ hw => hw

theorem keeps_query (f : World → Except Fault α) : Keeps P (query f) := fun _ hw => hw

theorem keeps_change {f : World → World} (h : ∀ w, P w → P (f w)) : Keeps P (change f) := h

theorem Keeps.bind {a : Action α} {f : α → Action β} (ha : Keeps P a)
    (hf : ∀ x, Keeps P (f x)) : Keeps P (a >>= f) := by
  intro w hw
  have hfirst := ha w hw
  rw [run_bind]
  split
  · rename_i x w' hrun
    rw [hrun] at hfirst
    exact hf x w' hfirst
  · rename_i e w' hrun
    rw [hrun] at hfirst
    exact hfirst

theorem keeps_note (h : ∀ w r, P w → P (w.ensureHandler.log r)) (r : Record) :
    Keeps P (note r) := keeps_change fun w hw => h w r hw

@[simp] theorem run_makeDirs (p : Path) (w : World) :
    run (makeDirs p) w = ((w.files.makeDirs p).1, { w with files := (w.files.makeDirs p).2 }) := rfl

/-- If two actions succeed one after the other, the first does so in a world in between. -/
theorem run_bind_eq_ok {a : Action α} {f : α → Action β} {w w' : World} {y : β}
    (h : run (a >>= f) w = (.ok y, w')) :
    ∃ x w₁, run a w = (.ok x, w₁) ∧ run (f x) w₁ = (.ok y, w') := by
  rw [run_bind] at h
  split at h
  · rename_i x w₁ hrun
    exact ⟨x, w₁, hrun, h⟩
  · cases h

/-- Whether an action leaves a world with the property, if it starts in one, and answers nothing
    but what has another property. -/
def Yields (P : World → Prop) (Q : α → Prop) (a : Action α) : Prop :=
  ∀ w, P w → P (run a w).2 ∧ ∀ x, (run a w).1 = .ok x → Q x

theorem Yields.keeps {Q : α → Prop} {a : Action α} (h : Yields P Q a) : Keeps P a :=
  fun w hw => (h w hw).1

theorem Keeps.yields {a : Action α} (h : Keeps P a) : Yields P (fun _ => True) a :=
  fun w hw => ⟨h w hw, fun _ _ => trivial⟩

theorem yields_pure {Q : α → Prop} {x : α} (h : Q x) : Yields P Q (pure x) :=
  fun _ hw => ⟨hw, fun _ hx => by cases hx; exact h⟩

/-- What follows an action has to keep the property only for what the action answers. -/
theorem Yields.bind {Q : α → Prop} {R : β → Prop} {a : Action α} {f : α → Action β}
    (ha : Yields P Q a) (hf : ∀ x, Q x → Yields P R (f x)) : Yields P R (a >>= f) := by
  intro w hw
  obtain ⟨hfirst, hanswer⟩ := ha w hw
  rw [run_bind]
  split
  · rename_i x w' hrun
    rw [hrun] at hfirst hanswer
    exact hf x (hanswer x rfl) w' hfirst
  · rename_i e w' hrun
    rw [hrun] at hfirst
    exact ⟨hfirst, fun _ h => by cases h⟩

theorem Yields.bind_keeps {Q : α → Prop} {a : Action α} {f : α → Action β}
    (ha : Yields P Q a) (hf : ∀ x, Q x → Keeps P (f x)) : Keeps P (a >>= f) :=
  (ha.bind fun x hx => (hf x hx).yields).keeps

end Action

/-! ## Log files -/

/-- Whether a location has the name of a log file. -/
def IsLog (l : Location) : Prop := ∃ name, l.getLast? = some (name ++ ".log".toList)

namespace Path

theorem exists_splitOn_append {s t : Text} {c : Char} (ht : c ∉ t) :
    ∃ parts part, (s ++ t).splitOn c = parts ++ [part ++ t] := by
  induction s with
  | nil => exact ⟨[], [], by rw [List.nil_append, List.splitOn_eq_singleton ht]; rfl⟩
  | cons x s ih =>
    obtain ⟨parts, part, hs⟩ := ih
    rw [List.cons_append, List.splitOn_cons_eq_if_modifyHead, hs]
    split
    · exact ⟨[] :: parts, part, rfl⟩
    · cases parts with
      | nil => exact ⟨[], x :: part, rfl⟩
      | cons first parts => exact ⟨(x :: first) :: parts, part, rfl⟩

theorem collapse_concat {parts : List Text} {c : Text} (hc : c ≠ "..".toList) :
    collapse (parts ++ [c]) = collapse parts ++ [c] := by
  rw [collapse, List.foldl_append, ← collapse, List.foldl_cons, if_neg hc, List.foldl_nil]

/-- The last component of the path of a log file ends as the names of log files do. -/
theorem isLog_parts_logFile (dir : Path) (name : Text) (here : List Text) :
    IsLog ((Logging.logFile dir name).absolute here).parts := by
  obtain ⟨parts, part, hsplit⟩ := exists_splitOn_append (s := name) (t := ".log".toList) (c := '/')
    (by decide)
  have hne (t : Text) (ht : t.length < 4) : part ++ ".log".toList ≠ t := by
    rintro rfl
    rw [List.length_append] at ht
    exact absurd ht (Nat.not_lt.2 (Nat.le_add_left _ _))
  have hcomponent : isComponent (part ++ ".log".toList) = true := by
    rw [isComponent, Bool.and_eq_true, decide_eq_true_eq, decide_eq_true_eq]
    exact ⟨hne [] (by decide), hne ['.'] (by decide)⟩
  have hup : part ++ ".log".toList ≠ "..".toList := hne _ (by decide)
  have hparts : (ofText (name ++ ".log".toList)).parts =
      parts.filter isComponent ++ [part ++ ".log".toList] := by
    rw [ofText, hsplit, List.filter_append, List.filter_cons_of_pos hcomponent, List.filter_nil]
  refine ⟨part, ?_⟩
  rw [Logging.logFile, child, join, absolute]
  by_cases hrelative : (ofText (name ++ ".log".toList)).isRelative
  · rw [if_pos hrelative]
    split
    all_goals simp only [hparts, ← List.append_assoc, collapse_concat hup, List.getLast?_concat]
  · rw [if_neg hrelative, if_neg hrelative]
    simp only [hparts, collapse_concat hup, List.getLast?_concat]

end Path

namespace World

variable {w w' : World}

/-! ## Orderly worlds -/

/-- Whether files are well numbered, and those that are open for logging are log files. -/
structure Orderly (w : World) : Prop where
  numbered : w.files.Numbered
  opened : ∀ {id}, w.IsOpen id → id < w.files.fresh
  isLog : ∀ {id l}, w.IsOpen id → w.files.number? l = some id → IsLog l

theorem orderly_of_not_isOpen (hw : w.files.Numbered) (h : ∀ id, ¬ w.IsOpen id) : w.Orderly :=
  ⟨hw, fun hid => absurd hid (h _), fun hid => absurd hid (h _)⟩

namespace Orderly

theorem of_sameFiles (hw : w.Orderly) (hfiles : w.files.SameFiles w'.files)
    (hopen : ∀ id, w'.IsOpen id → w.IsOpen id) : w'.Orderly := by
  refine ⟨hw.numbered.of_sameFiles hfiles, fun hid => ?_, fun hid hl => ?_⟩
  · rw [hfiles.fresh]
    exact hw.opened (hopen _ hid)
  · rw [hfiles.number?] at hl
    exact hw.isLog (hopen _ hid) hl

theorem log (hw : w.Orderly) (r : Record) : (w.log r).Orderly :=
  hw.of_sameFiles (sameFiles_log w r) fun _ => isOpen_log.1

theorem ensureHandler (hw : w.Orderly) : w.ensureHandler.Orderly := by
  refine hw.of_sameFiles ?_ fun _ => isOpen_ensureHandler.1
  obtain ⟨handlers, h⟩ := ensureHandler_eq w
  rw [h]
  exact .refl _

theorem of_logs (hw : w.Orderly) (h : AppendsLogs w w') : w'.Orderly :=
  hw.of_sameFiles h.same fun id => (h.isOpen id).1

variable {p : Path} {id : Nat} {files : FileTree}

theorem openFile (hw : w.Orderly) (h : w.files.openFile p = .ok (id, files)) :
    { w with files }.Orderly := by
  refine ⟨hw.numbered.openFile h, fun hid => ?_, fun hid hl => ?_⟩
  · have hless := hw.opened hid
    obtain ⟨v, content, -, rfl | ⟨-, -, rfl⟩⟩ := FileTree.openFile_eq_ok h
    · exact hless
    · exact Nat.lt_succ_of_lt hless
  · obtain ⟨v, content, -, rfl | ⟨hv, -, rfl⟩⟩ := FileTree.openFile_eq_ok h
    · exact hw.isLog hid hl
    · have hne := (FileTree.node?_of_find_vacant hv).2
      rw [FileTree.number?_addFile hne] at hl
      split at hl
      · -- a new file is not open yet
        cases hl
        exact absurd (hw.opened hid) (Nat.lt_irrefl _)
      · exact hw.isLog hid hl

/-- A file with another name than those of log files is not open for logging. -/
theorem not_isOpen_of_find {l : Location} {content : ByteArray} (hw : w.Orderly)
    (h : w.files.find p = .ok (.file l id content)) (hp : ¬ IsLog p.parts) : ¬ w.IsOpen id := by
  intro hid
  have hleads := (FileTree.find_eq_ok_iff.1 h).2.2
  obtain ⟨name, hname⟩ := hw.isLog hid (FileTree.number?_of_find h)
  exact hp ⟨name, by rw [← (hleads.getLast?_eq rfl).2, hname]⟩

theorem not_isOpen (hw : w.Orderly) (h : w.files.openFile p = .ok (id, files))
    (hp : ¬ IsLog p.parts) : ¬ w.IsOpen id := by
  obtain ⟨v, content, hfind, rfl | ⟨-, rfl, -⟩⟩ := FileTree.openFile_eq_ok h
  · exact hw.not_isOpen_of_find hfind hp
  · exact fun hid => absurd (hw.opened hid) (Nat.lt_irrefl _)

theorem write {content : ByteArray} (hw : w.Orderly) (h : w.files.write p content = .ok files) :
    { w with files }.Orderly := by
  obtain ⟨id, opened, hopen, rfl⟩ := FileTree.write_eq_ok h
  exact (hw.openFile hopen).of_sameFiles (opened.sameFiles_change id _) fun _ h => h

/-- What was written to a file with another name than those of log files is found there, and the
    file is not open for logging. -/
theorem find_write {content : ByteArray} (hw : w.Orderly) (h : w.files.write p content = .ok files)
    (hp : ¬ IsLog p.parts) :
    ∃ l id, files.find p = .ok (.file l id content) ∧ ¬ w.IsOpen id := by
  obtain ⟨id, opened, hopen, rfl⟩ := FileTree.write_eq_ok h
  obtain ⟨l, old, hfile, -⟩ := FileTree.openFile_eq_ok hopen
  have hchanged : (opened.change id fun _ => content).find p =
      .ok ((Place.file l id old).change id fun _ => content) := FileTree.find_change hfile
  rw [Place.change, if_pos rfl] at hchanged
  exact ⟨l, id, hchanged, hw.not_isOpen hopen hp⟩

/-- Where a log file is opened in place of those before it, the world stays orderly. -/
theorem configured (hw : w.Orderly) (h : w.files.openFile p = .ok (id, files))
    (hp : IsLog p.parts) (debug : Bool) :
    { w with files, logging := w.logging.configured debug id }.Orderly := by
  have hnumbered : files.Numbered := hw.numbered.openFile h
  obtain ⟨v, content, hfind, -⟩ := FileTree.openFile_eq_ok h
  have hleads := (FileTree.find_eq_ok_iff.1 hfind).2.2
  have hv : files.number? v = some id := FileTree.number?_of_find hfind
  have honly {id' : Nat} (hid : IsOpen { w with files, logging := w.logging.configured debug id }
      id') : id' = id := by
    obtain ⟨level, hmem⟩ := hid
    simp only [Logging.configured, List.mem_cons, Handler.file.injEq, List.not_mem_nil, or_false,
      reduceCtorEq] at hmem
    exact hmem.2
  refine ⟨hnumbered, fun hid => ?_, fun hid hl => ?_⟩
  · rw [honly hid]
    exact hnumbered.lt_fresh hv
  · obtain ⟨name, hname⟩ := hp
    rw [honly hid] at hl
    rw [hnumbered.unique hl hv]
    exact ⟨name, by rw [(hleads.getLast?_eq rfl).2, hname]⟩

end Orderly

end World

/-! ## Orderly actions -/

open World (Orderly)

namespace Action

theorem keeps_makeDirs (p : Path) : Keeps Orderly (makeDirs p) := fun w hw =>
  hw.of_sameFiles (w.files.sameFiles_makeDirs p) fun _ h => h

theorem keeps_log (r : Record) : Keeps Orderly (log r) := keeps_change fun _ hw => hw.log r

end Action

section Directories

variable {P : World → Prop} (h : ∀ p, Action.Keeps P (Action.makeDirs p))

include h

theorem keeps_ensured_of (p : Path) : Action.Keeps P (ensured p) :=
  (h p).bind fun _ => Action.keeps_pure p

theorem keeps_userRoot_of : Action.Keeps P userRoot :=
  (Action.keeps_query _).bind fun _ => keeps_ensured_of h _

/-- What making directories keeps is kept when the directory of the log files is made. -/
theorem keeps_logsDir_of : Action.Keeps P logsDir :=
  (keeps_userRoot_of h).bind fun _ => keeps_ensured_of h _

end Directories

theorem keeps_userRoot : Action.Keeps Orderly userRoot := keeps_userRoot_of Action.keeps_makeDirs

namespace Logging

theorem keeps_openLog (debug : Bool) (dir : Path) (name : Text) :
    Action.Keeps Orderly (openLog debug (logFile dir name)) := by
  intro w hw
  rw [Action.run, openLog]
  split
  · exact hw
  · rename_i hopen
    exact hw.configured hopen (Path.isLog_parts_logFile dir name _) debug

/-- The directory that is given, or else that of the program. -/
def dirOr (dir? : Option Path) : Action Path :=
  match dir? with
  | some dir => pure dir
  | none => logsDir

/-- What setting up does in its directory. -/
def setUpIn (debug : Bool) (name : Text) (dir : Path) : Action Path := do
  Action.makeDirs dir
  Action.change fun w => { w with logging := w.logging.cleared debug }
  openLog debug (logFile dir name)
  Action.log (setupOrigin.record Level.info (setupMessage debug dir))
  return logFile dir name

theorem setUp_eq (debug : Bool) (name : Text) (dir? : Option Path) :
    setUp debug name dir? = dirOr dir? >>= setUpIn debug name := by
  cases dir? <;> rfl

/-- What each step of setting up logging keeps is kept by all of them. -/
theorem keeps_setUp_of {P : World → Prop} (hdirs : ∀ p, Action.Keeps P (Action.makeDirs p))
    (hclear : ∀ w debug, P w → P { w with logging := w.logging.cleared debug })
    (hopen : ∀ debug dir name, Action.Keeps P (openLog debug (logFile dir name)))
    (hlog : ∀ r, Action.Keeps P (Action.log r)) (debug : Bool) (name : Text)
    (dir? : Option Path) : Action.Keeps P (setUp debug name dir?) := by
  have hrest (dir : Path) : Action.Keeps P (setUpIn debug name dir) :=
    (hdirs dir).bind fun _ => (Action.keeps_change fun w => hclear w debug).bind fun _ =>
      (hopen debug dir name).bind fun _ => (hlog _).bind fun _ => Action.keeps_pure _
  rw [setUp_eq]
  cases dir? with
  | none => exact (keeps_logsDir_of hdirs).bind hrest
  | some dir => exact (Action.keeps_pure dir).bind hrest

/-- Setting up logging keeps a world orderly. -/
theorem keeps_setUp (debug : Bool) (name : Text) (dir? : Option Path) :
    Action.Keeps Orderly (setUp debug name dir?) := by
  refine keeps_setUp_of Action.keeps_makeDirs (fun w debug hw => ?_) keeps_openLog
    Action.keeps_log debug name dir?
  refine hw.of_sameFiles (.refl _) fun id hid => ?_
  obtain ⟨level, hmem⟩ := hid
  cases hmem

end Logging

end PromptFill
