/-
  The documents directory while files come up.

  Which directory the documents are in depends on what there is: the first place at which there is
  anything counts, and a configuration file names a place.  In a tree that grows the first place can
  only move to the front (`firstThere_of_grows`).  If the program's folder is in the documents
  directory, then the configuration file is not read in another way later
  (`read_configuration_iff`).  So if the directory is decided on in the end, then it is decided on
  all the time in between (`documentsDir_between`).
-/
import PromptFill.Directories
import PromptFill.Proofs.Files.Growth

namespace PromptFill

open FileTree (Grows)

variable {Kept : Location → Prop} {t t' : FileTree} {accounts : Accounts} {env : Environment}
  {platform : Text} {home documents : Path}

/-! ## The first place -/

/-- The place that comes first in the end came first before, if there was something at it. -/
theorem firstThere_of_grows {ps : List Path} {first : Option Path} (h : Grows Kept t t')
    (hfirst : firstThere t' ps = .ok first)
    (hthere : ∀ p, first = some p → t.exists? p = .ok true) : firstThere t ps = .ok first := by
  induction ps with
  | nil => exact hfirst
  | cons p ps ih =>
    rw [firstThere] at hfirst
    split at hfirst
    · cases hfirst
    · cases hfirst
      rw [firstThere, hthere p rfl]
    · rename_i hnot
      rw [firstThere, h.exists?_eq_false hnot]
      exact ih hfirst

theorem firstThere_eq_none_iff {ps : List Path} :
    firstThere t ps = .ok none ↔ ∀ p ∈ ps, t.exists? p = .ok false := by
  induction ps with
  | nil => simp [firstThere]
  | cons p ps ih =>
    rw [firstThere, List.forall_mem_cons, ← ih]
    cases t.exists? p with
    | error e => simp
    | ok b => cases b <;> simp

/-- A place comes first exactly if there is something at it, and nothing at those before it. -/
theorem firstThere_eq_some_iff {ps : List Path} {p : Path} : firstThere t ps = .ok (some p) ↔
    ∃ before after, ps = before ++ p :: after ∧ (∀ q ∈ before, t.exists? q = .ok false) ∧
      t.exists? p = .ok true := by
  constructor
  · intro h
    induction ps with
    | nil => cases h
    | cons q ps ih =>
      rw [firstThere] at h
      split at h
      · cases h
      · rename_i hq
        cases h
        exact ⟨[], ps, rfl, fun _ hmem => (List.not_mem_nil hmem).elim, hq⟩
      · rename_i hq
        obtain ⟨before, after, rfl, hbefore, hp⟩ := ih h
        exact ⟨q :: before, after, rfl, List.forall_mem_cons.2 ⟨hq, hbefore⟩, hp⟩
  · rintro ⟨before, after, rfl, hbefore, hp⟩
    induction before with
    | nil => rw [List.nil_append, firstThere, hp]
    | cons q before ih =>
      obtain ⟨hq, hbefore⟩ := List.forall_mem_cons.1 hbefore
      rw [List.cons_append, firstThere, hq]
      exact ih hbefore

theorem mem_of_firstThere {ps : List Path} {p : Path} (h : firstThere t ps = .ok (some p)) :
    p ∈ ps := by
  obtain ⟨before, after, rfl, -⟩ := firstThere_eq_some_iff.1 h
  exact List.mem_append_right before List.mem_cons_self

/-! ## The configuration file -/

/-- The names of the configuration file, from the home directory. -/
def configurationNames : List Text := [".config".toList, "user-dirs.dirs".toList]

theorem child_configuration (home : Path) :
    home.child ".config/user-dirs.dirs".toList = home.below configurationNames := by
  rw [Path.child_eq_below (by decide)]
  congr

/-- Two trees that hold the same configuration file name the same documents directory. -/
theorem configuredDocuments_congr {found : Option Path} (hhome : homeDir accounts env = .ok home)
    (hread : ∀ content, t.read (home.below configurationNames) = .ok content ↔
      t'.read (home.below configurationNames) = .ok content)
    (hfound : configuredDocuments accounts env t' = .ok found) :
    configuredDocuments accounts env t = .ok found := by
  rw [configuredDocuments, hhome] at hfound ⊢
  simp only [child_configuration] at hfound ⊢
  cases hread' : t'.read (home.below configurationNames) with
  | ok content =>
    rw [hread'] at hfound
    rw [(hread content).2 hread']
    exact hfound
  | error e' =>
    rw [hread'] at hfound
    cases hbefore : t.read (home.below configurationNames) with
    | ok content =>
      rw [(hread content).1 hbefore] at hread'
      cases hread'
    | error e =>
      have hnull : '\x00' ∉ (home.below configurationNames).text := by
        intro hnull
        rw [FileTree.read, FileTree.find, if_pos hnull] at hread'
        cases hread'
        cases hfound
      have he := FileTree.isRefusal_of_read hbefore hnull
      have he' := FileTree.isRefusal_of_read hread' hnull
      simp only [he, he', if_true] at hfound ⊢
      exact hfound

/-! ## The documents directory -/

theorem documentsDir_eq_ok_iff : documentsDir accounts env platform t = .ok documents ↔
    ∃ home ps first, homeDir accounts env = .ok home ∧
      documentsCandidates accounts env platform t home = .ok ps ∧
      firstThere t ps = .ok first ∧ first.getD home = documents := by
  rw [documentsDir]
  constructor
  · intro h
    split at h
    · cases h
    · rename_i home hhome
      split at h
      · cases h
      · rename_i ps hps
        cases hfirst : firstThere t ps with
        | error => rw [hfirst] at h; cases h
        | ok first =>
          rw [hfirst] at h
          cases h
          exact ⟨home, ps, first, hhome, hps, hfirst, rfl⟩
  · rintro ⟨home, ps, first, hhome, hps, hfirst, rfl⟩
    simp only [hhome, hps, hfirst]
    rfl

theorem child_programName (p : Path) : p.child programName = p.below [programName] :=
  Path.child_eq_below_singleton (by decide)

theorem child_programName_injective {p q : Path}
    (h : p.child programName = q.child programName) : p = q := by
  rw [child_programName, child_programName, Path.below, Path.below, Path.mk.injEq,
    List.append_cancel_right_eq] at h
  cases p
  cases q
  simpa using h

/-- The candidates are the home directory's own, unless the configuration file is read. -/
theorem candidates_cases {ps : List Path} (hhome : homeDir accounts env = .ok home)
    (hps : documentsCandidates accounts env platform t home = .ok ps) :
    (∃ content, t.read (home.below configurationNames) = .ok content) ∨
      ∀ p ∈ ps, ∃ names, p = home.below names := by
  have hdocuments : ∃ names, home.child "Documents".toList = home.below names :=
    ⟨_, Path.child_eq_below_singleton (by decide)⟩
  have hmine : ∃ names, home.child "My Documents".toList = home.below names :=
    ⟨_, Path.child_eq_below (by decide)⟩
  rw [documentsCandidates] at hps
  split at hps
  · cases hps
    right
    simp only [List.forall_mem_cons, List.not_mem_nil, false_implies, implies_true, and_true]
    exact ⟨hdocuments, hmine⟩
  · split at hps
    · cases hps
      exact .inr (List.forall_mem_singleton.2 hdocuments)
    · rw [configuredDocuments, hhome] at hps
      simp only [child_configuration] at hps
      split at hps
      · rename_i content hread
        exact .inl ⟨content, hread⟩
      · split at hps
        · cases hps
          exact .inr (List.forall_mem_singleton.2 hdocuments)
        · cases hps

/-- If the program's folder is in the documents directory, then either the configuration file was
    read when the directory was decided on, or the home directory is there with the folder. -/
theorem read_or_find_home {d : Location} (hhome : homeDir accounts env = .ok home)
    (hstart : documentsDir accounts env platform t = .ok documents)
    (hthere : t'.find (documents.child programName) = .ok (.dir d)) :
    (∃ content, t.read (home.below configurationNames) = .ok content) ∨
      ∃ h, t'.find home = .ok (.dir h) := by
  obtain ⟨home', ps, first, hhome', hps, hfirst, rfl⟩ := documentsDir_eq_ok_iff.1 hstart
  cases hhome.symm.trans hhome'
  obtain hread | hbelow := candidates_cases hhome hps
  · exact .inl hread
  right
  rw [child_programName] at hthere
  cases first with
  | none => exact FileTree.find_of_find_below hthere (List.cons_ne_nil _ _)
  | some p =>
    obtain ⟨names, rfl⟩ := hbelow p (mem_of_firstThere hfirst)
    rw [Option.getD_some, Path.below_below] at hthere
    exact FileTree.find_of_find_below hthere (List.append_ne_nil_of_right_ne_nil _ (by simp))

/-- Two trees that hold the same configuration file have the same places for documents. -/
theorem documentsCandidates_congr {ps : List Path} (hhome : homeDir accounts env = .ok home)
    (hread : ∀ content, t.read (home.below configurationNames) = .ok content ↔
      t'.read (home.below configurationNames) = .ok content)
    (hps : documentsCandidates accounts env platform t' home = .ok ps) :
    documentsCandidates accounts env platform t home = .ok ps := by
  rw [documentsCandidates] at hps ⊢
  split at hps
  · rw [if_pos ‹_›, hps]
  · rw [if_neg ‹_›]
    split at hps
    · rw [if_pos ‹_›, hps]
    · rw [if_neg ‹_›]
      cases hfound : configuredDocuments accounts env t' with
      | error => rw [hfound] at hps; cases hps
      | ok found =>
        rw [hfound] at hps
        rw [configuredDocuments_congr hhome hread hfound, hps]

theorem exists?_of_find_folder {d : Location}
    (h : t.find (documents.child programName) = .ok (.dir d)) :
    t.exists? documents = .ok true := by
  rw [child_programName] at h
  obtain ⟨e, he⟩ := FileTree.find_of_find_below h (List.cons_ne_nil _ _)
  rw [FileTree.exists?, he]

section between

variable {t₀ t₁ : FileTree} {d : Location} (hrooted : t₀.Rooted) (h₀ : Grows Kept t₀ t₁)
  (h₁ : Grows Kept t₁ t) (h : Grows Kept t t')
  (hkept : ∀ l, l.getLast? = some "user-dirs.dirs".toList → Kept l)
  (hstart : documentsDir accounts env platform t₀ = .ok documents)
  (hthere : t₁.find (documents.child programName) = .ok (.dir d))

include hrooted h₀ h₁ h hkept hstart hthere

/-- A tree grows from one in which the documents directory is decided on, over one in which the
    program's folder is in it.  From then on the configuration file is read in the same way. -/
theorem read_configuration_iff (hhome : homeDir accounts env = .ok home) {content : ByteArray} :
    t.read (home.below configurationNames) = .ok content ↔
      t'.read (home.below configurationNames) = .ok content := by
  have hkept' (l : Location) (hl : l.getLast? = (home.below configurationNames).parts.getLast?) :
      Kept l := by
    rw [Path.below, List.getLast?_append] at hl
    exact hkept l hl
  refine ⟨h.read hkept', fun hcontent => ?_⟩
  obtain ⟨content', hcontent'⟩ | ⟨e, he⟩ := read_or_find_home hhome hstart hthere
  · -- the file was there from the beginning
    have hnow := h₁.read hkept' (h₀.read hkept' hcontent')
    rw [h.read hkept' hnow] at hcontent
    cases hcontent
    exact hnow
  · have hlast : Kept (e ++ [".config".toList] ++ ["user-dirs.dirs".toList]) :=
      hkept _ List.getLast?_concat
    exact h₁.read hkept' (h₀.read_back (h₁.trans h) hrooted he (by decide) (by decide) hlast
      hcontent)

/-- **The documents directory in between.**  If the documents directory is decided on in the end
    still, then it is decided on in every tree on the way. -/
theorem documentsDir_between (hend : documentsDir accounts env platform t' = .ok documents) :
    documentsDir accounts env platform t = .ok documents := by
  obtain ⟨home, ps, first, hhome, hps, hfirst, hdocuments⟩ := documentsDir_eq_ok_iff.1 hend
  refine documentsDir_eq_ok_iff.2 ⟨home, ps, first, hhome, ?_, ?_, hdocuments⟩
  · exact documentsCandidates_congr hhome (fun _ =>
      read_configuration_iff hrooted h₀ h₁ h hkept hstart hthere hhome) hps
  · refine firstThere_of_grows h hfirst fun p hp => ?_
    subst hp
    rw [Option.getD_some] at hdocuments
    rw [hdocuments, exists?_of_find_folder (h₁.find_dir hthere)]

end between

/-- A documents directory that is there is decided on exactly if it comes first, or is the home
    directory and nothing comes first. -/
theorem documentsDir_eq_ok_iff_of_exists (hthere : t.exists? documents = .ok true) :
    documentsDir accounts env platform t = .ok documents ↔
      ∃ home ps, homeDir accounts env = .ok home ∧
        documentsCandidates accounts env platform t home = .ok ps ∧
        ((∃ before after, ps = before ++ documents :: after ∧
            ∀ p ∈ before, t.exists? p = .ok false) ∨
          documents = home ∧ ∀ p ∈ ps, t.exists? p = .ok false) := by
  rw [documentsDir_eq_ok_iff]
  constructor
  · rintro ⟨home, ps, first, hhome, hps, hfirst, hdocuments⟩
    refine ⟨home, ps, hhome, hps, ?_⟩
    cases first with
    | none => exact .inr ⟨hdocuments.symm, firstThere_eq_none_iff.1 hfirst⟩
    | some p =>
      rw [Option.getD_some] at hdocuments
      subst p
      obtain ⟨before, after, heq, hbefore, -⟩ := firstThere_eq_some_iff.1 hfirst
      exact .inl ⟨before, after, heq, hbefore⟩
  · rintro ⟨home, ps, hhome, hps, ⟨before, after, heq, hbefore⟩ | ⟨rfl, hall⟩⟩
    · exact ⟨home, ps, some documents, hhome, hps,
        firstThere_eq_some_iff.2 ⟨before, after, heq, hbefore, hthere⟩, rfl⟩
    · exact ⟨documents, ps, none, hhome, hps, firstThere_eq_none_iff.2 hall, rfl⟩

end PromptFill
