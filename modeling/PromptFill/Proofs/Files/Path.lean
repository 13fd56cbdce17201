/-
  Paths below a directory.

  What is below a directory is found by following the names from there: a longer path leads
  somewhere exactly if the path before its last names leads to a directory, from which the names
  lead there, and the system takes its text (`find_below_iff`).  Making a directory in one that
  is there makes that directory at most (`makeDirs_below_cases`).
-/
import PromptFill.Proofs.Files.Tree
import PromptFill.Proofs.Text.Parts

namespace PromptFill

namespace Text

theorem byteLength_append (s t : Text) : byteLength (s ++ t) = byteLength s + byteLength t := by
  rw [byteLength, encode_append, ByteArray.size_append, byteLength, byteLength]

/-- The text of parts begins with that of the first of them. -/
theorem intercalate_append (sep : Text) (parts more : List Text) :
    ∃ rest, sep.intercalate (parts ++ more) = sep.intercalate parts ++ rest := by
  induction parts with
  | nil => exact ⟨_, rfl⟩
  | cons s parts ih =>
    obtain ⟨rest, ih⟩ := ih
    cases parts with
    | nil =>
      cases more with
      | nil => exact ⟨[], by simp⟩
      | cons m more => exact ⟨sep ++ sep.intercalate (m :: more), by simp [List.intercalate]⟩
    | cons s' parts =>
      refine ⟨rest, ?_⟩
      simp only [List.intercalate, List.cons_append, List.intersperse_cons_cons, List.flatten_cons,
        List.append_assoc] at ih ⊢
      rw [ih]

end Text

namespace Path

variable {p : Path} {names more : List Text}

/-- The path that some names lead to from a path. -/
def below (p : Path) (names : List Text) : Path := { p with parts := p.parts ++ names }

theorem child_eq_below {s : Text} (h : (ofText s).isRelative) :
    p.child s = p.below (ofText s).parts := by
  rw [child, join, if_pos h, below]

theorem child_eq_below_singleton {s : Text} (h : ofText s = ⟨.relative, [s]⟩) :
    p.child s = p.below [s] := by
  rw [child_eq_below (by rw [h]; rfl), h]

theorem below_below : (p.below names).below more = p.below (names ++ more) := by
  simp [below]

/-- Whether the system takes the text of a path. -/
def IsUsable (p : Path) : Prop :=
  '\x00' ∉ p.text ∧ Text.byteLength p.text ≤ FileTree.longestPath

/-- What is before the last names of a path that can be used can be used. -/
theorem IsUsable.of_below (h : (p.below names).IsUsable) : p.IsUsable := by
  obtain ⟨rest, hrest⟩ := Text.intercalate_append ['/'] p.parts names
  rw [IsUsable, text]
  by_cases hp : anchorText p.anchor ++ List.intercalate ['/'] p.parts = []
  · rw [if_pos hp]
    decide
  · have htext : (p.below names).text =
        anchorText p.anchor ++ List.intercalate ['/'] p.parts ++ rest := by
      rw [text, below, hrest, ← List.append_assoc,
        if_neg (List.append_ne_nil_of_left_ne_nil hp rest)]
    obtain ⟨hnull, hlong⟩ := h
    rw [htext] at hnull hlong
    rw [Text.byteLength_append] at hlong
    rw [if_neg hp]
    exact ⟨fun h => hnull (List.mem_append_left _ h), Nat.le_trans (Nat.le_add_right _ _) hlong⟩

theorem not_mem_anchorText {c : Char} (hc : c ≠ '/') (a : Anchor) : c ∉ anchorText a := by
  cases a <;> simp [anchorText, hc]

/-- A path below another one holds no character that is neither in that one nor in the names. -/
theorem not_mem_text_below {c : Char} (hslash : c ≠ '/') (hdot : c ≠ '.') (hp : c ∉ p.text)
    (hnames : ∀ name ∈ names, c ∉ name) : c ∉ (p.below names).text := by
  have hparts : ∀ part ∈ p.parts, c ∉ part := by
    intro part hpart hc
    refine hp ?_
    have hmem : c ∈ List.intercalate ['/'] p.parts := Text.subset_intercalate hpart hc
    rw [text]
    split
    · rename_i hnil
      rw [List.append_eq_nil_iff] at hnil
      rw [hnil.2] at hmem
      cases hmem
    · exact List.mem_append_right _ hmem
  have hall : c ∉ List.intercalate ['/'] (p.below names).parts := by
    refine Text.not_mem_intercalate (by simpa using hslash) fun part hpart => ?_
    rcases List.mem_append.1 hpart with h | h
    · exact hparts part h
    · exact hnames part h
  rw [text]
  split
  · simpa using hdot
  · simp [not_mem_anchorText hslash, hall]

end Path

namespace FileTree

variable {t t' : FileTree} {l d : Location} {names more : List Text} {p : Path} {place : Place}

theorem find_eq_ok_iff_isUsable :
    t.find p = .ok place ↔ p.IsUsable ∧ t.Leads (t.start p) p.parts place := by
  rw [find_eq_ok_iff, Path.IsUsable, and_assoc]

namespace Leads

theorem append (h : t.Leads l names (.dir d)) (h' : t.Leads d more place) :
    t.Leads l (names ++ more) place := by
  generalize hdir : Place.dir d = dir at h
  induction h with
  | here l =>
    cases hdir
    exact h'
  | up _ ih => exact .up (ih hdir)
  | down hc hnode _ ih => exact .down hc hnode (ih hdir)
  | file => cases hdir
  | vacant => cases hdir

/-- Names that lead somewhere pass through a directory before the last of them. -/
theorem exists_of_append (hne : more ≠ []) (h : t.Leads l (names ++ more) place) :
    ∃ d, t.Leads l names (.dir d) ∧ t.Leads d more place := by
  induction names generalizing l with
  | nil => exact ⟨l, .here l, h⟩
  | cons c names ih =>
    have hrest : names ++ more ≠ [] := List.append_ne_nil_of_right_ne_nil _ hne
    rw [List.cons_append] at h
    generalize hall : c :: (names ++ more) = all at h
    cases h with
    | here => cases hall
    | up h =>
      cases hall
      obtain ⟨d, hd, hmore⟩ := ih h
      exact ⟨d, .up hd, hmore⟩
    | down hc hnode h =>
      cases hall
      obtain ⟨d, hd, hmore⟩ := ih h
      exact ⟨d, .down hc hnode hd, hmore⟩
    | file =>
      exact absurd (List.cons.inj hall).2 hrest
    | vacant =>
      exact absurd (List.cons.inj hall).2 hrest

theorem unique {place' : Place} (h : t.Leads l names place) (h' : t.Leads l names place') :
    place = place' := by
  rw [← walk_eq_ok_iff] at h h'
  rw [h] at h'
  cases h'
  rfl

end Leads

theorem start_below (p : Path) (names : List Text) : t.start (p.below names) = t.start p := rfl

/-- A path below a directory leads where the names lead from there. -/
theorem find_below_iff (hp : t.find p = .ok (.dir d)) (hne : names ≠ []) :
    t.find (p.below names) = .ok place ↔
      (p.below names).IsUsable ∧ t.Leads d names place := by
  rw [find_eq_ok_iff_isUsable, start_below]
  have hleads := (find_eq_ok_iff_isUsable.1 hp).2
  refine and_congr_right fun _ => ⟨fun h => ?_, fun h => hleads.append h⟩
  obtain ⟨d', hd', h⟩ := h.exists_of_append hne
  cases hd'.unique hleads
  exact h

/-- Before the last names of a path that leads somewhere there is a directory. -/
theorem find_of_find_below (h : t.find (p.below names) = .ok place) (hne : names ≠ []) :
    ∃ d, t.find p = .ok (.dir d) := by
  obtain ⟨husable, hleads⟩ := find_eq_ok_iff_isUsable.1 h
  obtain ⟨d, hd, -⟩ := hleads.exists_of_append hne
  exact ⟨d, find_eq_ok_iff_isUsable.2 ⟨husable.of_below, hd⟩⟩

variable {c : Text}

theorem leads_singleton_vacant_iff (hc : IsName c) {v : Location} :
    t.Leads d [c] (.vacant v) ↔ v = d ++ [c] ∧ t.node? v = none := by
  constructor
  · intro h
    refine ⟨?_, h.node?_of_vacant.1⟩
    cases h with
    | up h => cases h
    | down _ _ h => cases h
    | vacant => rfl
  · rintro ⟨rfl, h⟩
    exact .vacant hc h

theorem leads_singleton_dir_iff (hc : IsName c) {d' : Location} :
    t.Leads d [c] (.dir d') ↔ d' = d ++ [c] ∧ t.node? d' = some .dir := by
  constructor
  · intro h
    cases h with
    | up h => exact absurd rfl hc.1
    | down _ hnode h =>
      cases h
      exact ⟨rfl, hnode⟩
  · rintro ⟨rfl, h⟩
    exact .down hc h (.here _)

/-- Where the directory above is there, a directory that cannot be made leaves the tree. -/
theorem makeDirs_snd_of_error {e : Fault} (h : t.makeDir p = .error e) (hdir : t.isDir p = false)
    (hparent : e = .refused .notFound p.text → ∃ d, t.find p.parent = .ok (.dir d)) :
    (t.makeDirs p).2 = t := by
  have hensure : t.ensureDir p = .error e := by
    rw [ensureDir, h]
    simp [hdir]
  rw [makeDirs, hensure]
  by_cases he : e = .refused .notFound p.text ∧ p.parts ≠ []
  · obtain ⟨d, hd⟩ := hparent he.1
    simp only [dif_pos he, makeDirs_of_find hd, hensure]
  · simp only [dif_neg he]

theorem makeDirs_of_vacant {v : Location} (h : t.find p = .ok (.vacant v))
    (hmaking : t.refuses .making v = none) : t.makeDirs p = (.ok (), t.addDir v) := by
  have hensure : t.ensureDir p = .ok (t.addDir v) := by
    rw [ensureDir, makeDir, h]
    simp only [permit_of_none hmaking]
  rw [makeDirs, hensure]

theorem parent_below_singleton (p : Path) (c : Text) : (p.below [c]).parent = p := by
  rw [Path.parent, Path.below, List.dropLast_concat]

/-- Making a directory in one that is there changes nothing else. -/
theorem makeDirs_below_cases (hp : t.find p = .ok (.dir d)) (hc : IsName c) :
    (t.makeDirs (p.below [c])).2 = t ∨
      t.find (p.below [c]) = .ok (.vacant (d ++ [c])) ∧ t.refuses .making (d ++ [c]) = none ∧
        (t.makeDirs (p.below [c])).2 = t.addDir (d ++ [c]) := by
  have hfind {place : Place} : t.find (p.below [c]) = .ok place ↔
      (p.below [c]).IsUsable ∧ t.Leads d [c] place := find_below_iff hp (List.cons_ne_nil c [])
  have hparent : ∃ d, t.find (p.below [c]).parent = .ok (.dir d) :=
    ⟨d, by rw [parent_below_singleton, hp]⟩
  by_cases husable : (p.below [c]).IsUsable
  · cases hnode : t.node? (d ++ [c]) with
    | none =>
      have hvacant := hfind.2 ⟨husable, .vacant hc hnode⟩
      cases hmaking : t.refuses .making (d ++ [c]) with
      | none => exact .inr ⟨hvacant, rfl, by rw [makeDirs_of_vacant hvacant hmaking]⟩
      | some why =>
        refine .inl (makeDirs_snd_of_error (e := .refused why (p.below [c]).text) ?_ ?_
          fun _ => hparent)
        · rw [makeDir, hvacant]
          simp only [permit, hmaking]
        · rw [isDir, hvacant]
    | some node =>
      left
      cases node with
      | dir =>
        have hdir := hfind.2 ⟨husable, .down hc hnode (.here _)⟩
        rw [makeDirs_of_find hdir]
      | file id content =>
        have hfile := hfind.2 ⟨husable, .file hc hnode⟩
        refine makeDirs_snd_of_error (e := .refused .alreadyExists (p.below [c]).text) ?_ ?_
          fun _ => hparent
        · rw [makeDir, hfile]
        · rw [isDir, hfile]
  · left
    obtain ⟨e, he⟩ : ∃ e, t.find (p.below [c]) = .error e := by
      rw [find]
      by_cases hnull : '\x00' ∈ (p.below [c]).text
      · exact ⟨_, if_pos hnull⟩
      · have hlong : longestPath < Text.byteLength (p.below [c]).text :=
          Nat.not_le.1 fun h => husable ⟨hnull, h⟩
        exact ⟨_, by rw [if_neg hnull, if_pos hlong]⟩
    refine makeDirs_snd_of_error (e := e) ?_ ?_ fun _ => hparent
    · rw [makeDir, he]
    · rw [isDir, he]

/-- One name below a directory leads somewhere, unless its path cannot be used. -/
theorem exists_find_below (hp : t.find p = .ok (.dir d)) (hc : IsName c)
    (husable : (p.below [c]).IsUsable) : ∃ place, t.find (p.below [c]) = .ok place := by
  have hfind {place : Place} (h : t.Leads d [c] place) : t.find (p.below [c]) = .ok place :=
    (find_below_iff hp (List.cons_ne_nil c [])).2 ⟨husable, h⟩
  cases hnode : t.node? (d ++ [c]) with
  | none => exact ⟨_, hfind (.vacant hc hnode)⟩
  | some node =>
    cases node with
    | dir => exact ⟨_, hfind (.down hc hnode (.here _))⟩
    | file id content => exact ⟨_, hfind (.file hc hnode)⟩

theorem exists?_eq_true_iff :
    t.exists? p = .ok true ↔ ∃ place, t.find p = .ok place ∧ ∀ l, place ≠ .vacant l := by
  rw [exists?]
  constructor
  · intro h
    split at h
    · cases h
    · rename_i place hvacant hfind
      exact ⟨place, hfind, hvacant⟩
    · cases h
    · cases h
  · rintro ⟨place, hfind, hplace⟩
    rw [hfind]
    cases place with
    | vacant l => exact absurd rfl (hplace l)
    | dir l => rfl
    | file l id content => rfl

/-- Below a directory, nothing at a path means that the place is free. -/
theorem find_below_of_not_exists (hp : t.find p = .ok (.dir d)) (hc : IsName c)
    (hnull : '\x00' ∉ c) (h : t.exists? (p.below [c]) = .ok false) :
    ∃ v, t.find (p.below [c]) = .ok (.vacant v) := by
  have hnull : '\x00' ∉ (p.below [c]).text :=
    Path.not_mem_text_below (by decide) (by decide) (find_eq_ok_iff.1 hp).1
      (List.forall_mem_singleton.2 hnull)
  by_cases hlong : Text.byteLength (p.below [c]).text ≤ longestPath
  · obtain ⟨place, hplace⟩ := exists_find_below hp hc ⟨hnull, hlong⟩
    cases place with
    | vacant v => exact ⟨v, hplace⟩
    | dir l =>
      rw [exists?, hplace] at h
      cases h
    | file l id content =>
      rw [exists?, hplace] at h
      cases h
  · have hfind : t.find (p.below [c]) = .error (.refused .nameTooLong (p.below [c]).text) := by
      rw [find, if_neg hnull, if_pos (Nat.not_le.1 hlong)]
    rw [exists?, hfind] at h
    cases h

end FileTree

end PromptFill
