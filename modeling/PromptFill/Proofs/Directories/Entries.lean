/-
  The configuration file of the documents directory, line by line.

  A line assigns to the name that stands before its first equals sign, unless it is a comment
  (`assignedName?`).  The lines that assign to a name which begins like the variable of the
  documents directory have an entry (`entry_ne_none_iff`), and the first of them is what
  counts.  So every other line can be taken out of the file (`documents_without_line`).

  Beginning like the variable is not being the variable: an entry is found as well where a longer
  name is assigned to, and it hides the variable's own one below it (`longer_name_hides_variable`).
-/
import PromptFill.Proofs.Directories.Documents
import PromptFill.Proofs.Text.Lines
import PromptFill.Proofs.Text.Trim

namespace PromptFill

variable {t t' : FileTree} {accounts : Accounts} {env : Environment} {home : Path} {line : Text}
  {before after : List Text} {content content' : ByteArray}

/-! ## Names that are assigned to -/

/-- The name that a line assigns to: what stands before its first equals sign, without the blanks
    around it.  A comment, like a line without an equals sign, assigns to none. -/
def assignedName? (line : Text) : Option Text :=
  if (Text.trim line).head? = some '#' then none
  else (Text.cutAt '=' (Text.trim line)).map fun p => Text.trim p.1

/-- Whether a line assigns to a name that begins like the variable of the documents directory. -/
def HasEntry (line : Text) : Prop :=
  ∃ name, assignedName? line = some name ∧ documentsVariable <+: name

/-- What two texts begin with together, the first begins with alone, if the second starts with a
    character that is not in it. -/
theorem isPrefix_of_isPrefix_append {v a b : Text} (h : v <+: a ++ b)
    (hb : ∀ c ∈ b.head?, c ∉ v) : v <+: a := by
  obtain hv | ⟨c, rfl⟩ := List.prefix_or_prefix_of_prefix h (List.prefix_append a b)
  · exact hv
  · rw [List.prefix_append_right_inj] at h
    cases c with
    | nil => simp
    | cons x c =>
      obtain ⟨d, rfl⟩ := h
      exact absurd (List.mem_append_right a List.mem_cons_self) (hb x rfl)

theorem equals_not_mem_documentsVariable : '=' ∉ documentsVariable := by decide

theorem documentsVariable_not_blank : documentsVariable.any isBlankChar = false := by decide

/-- Blanks around what stands before the equals sign of a trimmed line do not hide the variable. -/
theorem documentsVariable_isPrefix_trim_iff {a b : Text} (h : Text.trim line = a ++ '=' :: b) :
    documentsVariable <+: Text.trim a ↔ documentsVariable <+: a := by
  have hstart : Text.trimStart a = a := by
    cases a with
    | nil => rfl
    | cons c a =>
      have hc := Text.isBlankChar_of_trim_eq_cons h
      rw [Text.trimStart, List.dropWhile_cons_of_neg (by rw [hc]; exact Bool.false_ne_true)]
  obtain ⟨w, hw, ha⟩ := Text.exists_blank_trimEnd a
  rw [Text.trim, hstart]
  constructor
  · intro hv
    rw [ha]
    exact hv.trans (List.prefix_append _ _)
  · intro hv
    rw [ha] at hv
    refine isPrefix_of_isPrefix_append hv fun c hc hmem => ?_
    have hblank := List.all_eq_true.1 hw c (List.mem_of_mem_head? hc)
    exact List.any_eq_false.1 documentsVariable_not_blank c hmem hblank

/-- The lines that have an entry are those in which one is found. -/
theorem entry_ne_none_iff : documentsEntry? line ≠ none ↔ HasEntry line := by
  simp only [HasEntry, assignedName?, documentsEntry?]
  cases hcut : Text.cutAt '=' (Text.trim line) with
  | none =>
    split_ifs <;> simp
  | some p =>
    obtain ⟨a, b⟩ := p
    obtain ⟨-, hline⟩ := Text.cutAt_eq_some_iff.1 hcut
    have hname : documentsVariable <+: Text.trim line ↔ documentsVariable <+: Text.trim a := by
      rw [documentsVariable_isPrefix_trim_iff hline, hline]
      refine ⟨fun h => isPrefix_of_isPrefix_append h fun c hc => ?_,
        fun h => h.trans (List.prefix_append _ _)⟩
      cases hc
      exact equals_not_mem_documentsVariable
    simp only [List.isPrefixOf_iff_prefix, Option.map_some]
    by_cases hv : documentsVariable <+: Text.trim line
    · have hcomment : (Text.trim line).head? ≠ some '#' := by
        obtain ⟨rest, hrest⟩ := hv
        rw [← hrest]
        exact fun h => by cases h
      rw [if_pos hv, if_neg hcomment]
      exact ⟨fun _ => ⟨_, rfl, hname.1 hv⟩, fun _ h => by cases h⟩
    · rw [if_neg hv]
      refine ⟨fun h => absurd rfl h, ?_⟩
      rintro ⟨name, hassigned, hbegins⟩
      split_ifs at hassigned
      cases hassigned
      exact absurd (hname.2 hbegins) hv

theorem entry_eq_none_iff : documentsEntry? line = none ↔ ¬ HasEntry line := by
  rw [← entry_ne_none_iff, not_not]

/-! ## Lines that can be taken out -/

/-- The entry is found without a line that has none, or that comes after one that has. -/
theorem findSome?_without_line (h : ¬ HasEntry line ∨ ∃ earlier ∈ before, HasEntry earlier) :
    (before ++ after).findSome? documentsEntry? =
      (before ++ line :: after).findSome? documentsEntry? := by
  rw [List.findSome?_append, List.findSome?_append, List.findSome?_cons]
  rcases h with hnone | ⟨earlier, hmem, hentry⟩
  · rw [entry_eq_none_iff.2 hnone]
  · have hsome : (before.findSome? documentsEntry?).isSome :=
      List.findSome?_isSome_iff.2
        ⟨earlier, hmem, Option.isSome_iff_ne_none.2 (entry_ne_none_iff.2 hentry)⟩
    obtain ⟨value, hvalue⟩ := Option.isSome_iff_exists.1 hsome
    rw [hvalue]
    rfl

/-- Lines without line breaks are the lines of the file that they are written to. -/
theorem configLines_unlines {ls : List Text} (h : ∀ l ∈ ls, Text.IsLine l) :
    configLines (Text.encode (Text.unlines ls)) = ls := by
  rw [configLines, Text.decodeLossy_encode, Text.unifyNewlines_unlines h, Text.lines_unlines h]

/-- Every line can be taken out of every file. -/
theorem exists_without_line (h : configLines content = before ++ line :: after) :
    ∃ content', configLines content' = before ++ after := by
  refine ⟨Text.encode (Text.unlines (before ++ after)), configLines_unlines fun l hl => ?_⟩
  have hl' : l ∈ configLines content := by
    rw [h]
    rcases List.mem_append.1 hl with hl | hl
    · exact List.mem_append_left _ hl
    · exact List.mem_append_right _ (List.mem_cons_of_mem line hl)
  exact Text.isLine_of_mem_lines hl'

theorem firstThere_change (t : FileTree) (id : Nat) (f : ByteArray → ByteArray) (ps : List Path) :
    firstThere (t.change id f) ps = firstThere t ps := by
  induction ps with
  | nil => rfl
  | cons p ps ih => rw [firstThere, firstThere, FileTree.exists?_change, ih]

/-- **Only the first entry matters.**  A line of the configuration file that assigns to no name, or
    to one that does not begin like the variable, or that comes after an entry, can be taken out:
    the file then names the same documents directory, or none as before, and on every platform the
    same one is decided on. -/
theorem documents_without_line (hhome : homeDir accounts env = .ok home)
    (hread : t.read (home.child ".config/user-dirs.dirs".toList) = .ok content)
    (hlines : configLines content = before ++ line :: after)
    (hwithout : configLines content' = before ++ after)
    (hwrite : t.write (home.child ".config/user-dirs.dirs".toList) content' = .ok t')
    (hline : (∀ name, assignedName? line = some name → ¬ documentsVariable <+: name) ∨
      ∃ earlier ∈ before, ∃ name, assignedName? earlier = some name ∧ documentsVariable <+: name) :
    configuredDocuments accounts env t' = configuredDocuments accounts env t ∧
      ∀ platform, documentsDir accounts env platform t' = documentsDir accounts env platform t := by
  have hread' := FileTree.read_write hwrite (FileTree.permits_of_read hread)
  have hsame : configuredDocuments accounts env t' = configuredDocuments accounts env t := by
    have hskipped : ¬ HasEntry line ∨ ∃ earlier ∈ before, HasEntry earlier := by
      refine hline.imp_left fun h hentry => ?_
      obtain ⟨name, hname, hbegins⟩ := hentry
      exact h name hname hbegins
    have hentry : (before ++ after).findSome? documentsEntry? =
        (before ++ line :: after).findSome? documentsEntry? := findSome?_without_line hskipped
    simp only [configuredDocuments, hhome, hread, hread', documentsOfLines, hlines, hwithout,
      hentry]
  refine ⟨hsame, fun platform => ?_⟩
  obtain ⟨id, rfl⟩ := FileTree.write_eq_change hread hwrite
  simp only [documentsDir, hhome, documentsCandidates, hsame, firstThere_change]

/-- A home directory for users whose documents may be in two places. -/
def plainHome : Path := ⟨.root, ["h".toList]⟩

/-- An environment that names it. -/
def plainEnv : Environment := [("HOME".toList, "/h".toList)]

/-- Files with these lines in the configuration file. -/
def configuredTree (ls : List Text) : FileTree where
  nodes :=
    [(["h".toList], .dir), (["h".toList, "docs".toList], .dir), (["h".toList, "old".toList], .dir),
      (["h".toList, ".config".toList], .dir),
      (["h".toList, ".config".toList, "user-dirs.dirs".toList],
        .file 0 (Text.encode (Text.unlines ls)))]
  fresh := 1

/-- A line that assigns to the variable. -/
def documentsLine : Text := "XDG_DOCUMENTS_DIR=\"$HOME/docs\"".toList

/-- A line that assigns to another one. -/
def musicLine : Text := "XDG_MUSIC_DIR=\"$HOME/music\"".toList

/-- A line that assigns to one that begins alike. -/
def oldDocumentsLine : Text := "XDG_DOCUMENTS_DIR_OLD=\"$HOME/old\"".toList

theorem isLine_documentsLine : Text.IsLine documentsLine := by decide

theorem isLine_musicLine : Text.IsLine musicLine := by decide

theorem isLine_oldDocumentsLine : Text.IsLine oldDocumentsLine := by decide

theorem read_configuredTree (ls : List Text) :
    (configuredTree ls).read (plainHome.child ".config/user-dirs.dirs".toList) =
      .ok (Text.encode (Text.unlines ls)) := rfl

theorem write_configuredTree (ls ls' : List Text) :
    (configuredTree ls).write (plainHome.child ".config/user-dirs.dirs".toList)
      (Text.encode (Text.unlines ls')) = .ok (configuredTree ls') := rfl

theorem documents_without_line_music :
    configuredDocuments {} plainEnv (configuredTree [documentsLine]) =
      configuredDocuments {} plainEnv (configuredTree [musicLine, documentsLine]) ∧
    ∀ platform, documentsDir {} plainEnv platform (configuredTree [documentsLine]) =
      documentsDir {} plainEnv platform (configuredTree [musicLine, documentsLine]) := by
  have hlines : configLines (Text.encode (Text.unlines [musicLine, documentsLine])) =
      [] ++ musicLine :: [documentsLine] := configLines_unlines
        (List.forall_mem_cons.2
          ⟨isLine_musicLine, List.forall_mem_singleton.2 isLine_documentsLine⟩)
  have hwithout : configLines (Text.encode (Text.unlines [documentsLine])) =
      [] ++ [documentsLine] :=
    configLines_unlines (List.forall_mem_singleton.2 isLine_documentsLine)
  refine documents_without_line rfl (read_configuredTree _) hlines hwithout
    (write_configuredTree _ _) (.inl fun name hname => ?_)
  cases hname
  decide

/-- A longer name that begins like the variable is no other name to the program: if the line that
    assigns to it is taken out, other documents are decided on. -/
theorem longer_name_hides_variable : ∃ name, assignedName? oldDocumentsLine = some name ∧
    name ≠ documentsVariable ∧
    (configuredTree [oldDocumentsLine, documentsLine]).write
      (plainHome.child ".config/user-dirs.dirs".toList)
      (Text.encode (Text.unlines [documentsLine])) = .ok (configuredTree [documentsLine]) ∧
    configuredDocuments {} plainEnv (configuredTree [oldDocumentsLine, documentsLine]) =
      .ok (some (plainHome.child "old".toList)) ∧
    configuredDocuments {} plainEnv (configuredTree [documentsLine]) =
      .ok (some (plainHome.child "docs".toList)) ∧
    documentsDir {} plainEnv "linux".toList (configuredTree [oldDocumentsLine, documentsLine]) =
      .ok (plainHome.child "old".toList) ∧
    documentsDir {} plainEnv "linux".toList (configuredTree [documentsLine]) =
      .ok (plainHome.child "docs".toList) := by
  have hhome : homeDir {} plainEnv = .ok plainHome := rfl
  have hdocuments (ls : List Text) (hls : ∀ l ∈ ls, Text.IsLine l) :
      configuredDocuments {} plainEnv (configuredTree ls) =
        documentsOfLines {} plainEnv plainHome ls := by
    simp only [configuredDocuments, hhome, read_configuredTree, configLines_unlines hls]
  have hnew := hdocuments [documentsLine] (List.forall_mem_singleton.2 isLine_documentsLine)
  have hold := hdocuments [oldDocumentsLine, documentsLine] (List.forall_mem_cons.2
    ⟨isLine_oldDocumentsLine, List.forall_mem_singleton.2 isLine_documentsLine⟩)
  refine ⟨_, rfl, by decide, rfl, hold, hnew, ?_, ?_⟩
  · simp only [documentsDir, hhome, documentsCandidates, hold]
    rfl
  · simp only [documentsDir, hhome, documentsCandidates, hnew]
    rfl

end PromptFill
