/-
  Trees that grow.

  A tree grows if its directories and files stay, whatever else comes up (`Grows`).  Of some
  locations, those that are `Kept`, more is known: files there keep their contents, and none come
  up.  A path at which there is something goes on to have something at its end, and one that is
  refused stays refused (`Grows.exists?_eq`); only one that leads nowhere may lead somewhere later.
  A file that is kept is read as before (`Grows.read`), and is not read where it was not before,
  if the directory that it is looked for in was there (`Grows.read_back`).
-/
import PromptFill.Proofs.Files.Numbering
import PromptFill.Proofs.Files.Path

namespace PromptFill

namespace FileTree

variable {Kept : Location → Prop} {t t' t'' : FileTree} {l d v : Location} {names : List Text}
  {p : Path}

/-- Whether a tree comes from another one by adding directories and files and by changing the
    contents of files, of which those at some locations are neither added nor changed.  The system
    refuses what it refused before. -/
structure Grows (Kept : Location → Prop) (t t' : FileTree) : Prop where
  here : t'.here = t.here
  refuses : t'.refuses = t.refuses
  dir : ∀ {l}, t.node? l = some .dir → t'.node? l = some .dir
  file : ∀ {l id content}, t.node? l = some (.file id content) →
    ∃ id' content', t'.node? l = some (.file id' content')
  kept : ∀ {l id content}, Kept l → t'.node? l = some (.file id content) →
    ∃ id', t.node? l = some (.file id' content)

/-! ## Ways to grow -/

namespace Grows

theorem refl (t : FileTree) : Grows Kept t t :=
  ⟨rfl, rfl, id, fun h => ⟨_, _, h⟩, fun _ h => ⟨_, h⟩⟩

theorem trans (h : Grows Kept t t') (h' : Grows Kept t' t'') : Grows Kept t t'' := by
  refine ⟨h'.here.trans h.here, h'.refuses.trans h.refuses, fun hl => h'.dir (h.dir hl),
    fun hl => ?_, fun hk hl => ?_⟩
  · obtain ⟨_, _, hl⟩ := h.file hl
    exact h'.file hl
  · obtain ⟨_, hl⟩ := h'.kept hk hl
    exact h.kept hk hl

/-- Nothing is taken away, so what is free was free. -/
theorem node?_eq_none (h : Grows Kept t t') (hl : t'.node? l = none) : t.node? l = none := by
  cases hnode : t.node? l with
  | none => rfl
  | some node =>
    cases node with
    | dir =>
      rw [h.dir hnode] at hl
      cases hl
    | file =>
      obtain ⟨_, _, hfile⟩ := h.file hnode
      rw [hfile] at hl
      cases hl

/-- A directory that was added on the way does not count, if it is there in the end. -/
theorem addDir_left (h : Grows Kept t t') (hv : t'.node? v = some .dir) (hnone : t.node? v = none) :
    Grows Kept (t.addDir v) t' := by
  refine ⟨h.here, h.refuses, fun {l} hl => ?_, fun {l _ _} hl => ?_, fun {l _ _} hk hl => ?_⟩
  · rw [node?_addDir] at hl
    split at hl
    · subst l
      exact hv
    · exact h.dir hl
  · rw [node?_addDir] at hl
    split at hl
    · cases hl
    · exact h.file hl
  · rw [node?_addDir]
    obtain ⟨id', hl'⟩ := h.kept hk hl
    refine ⟨id', ?_⟩
    rw [if_neg, hl']
    rintro rfl
    rw [hnone] at hl'
    cases hl'

/-- Nor does a file, if it is there in the end and not kept. -/
theorem addFile_left {id : Nat} {content : ByteArray} (h : Grows Kept t t')
    (hv : t'.node? v = some (.file id content)) (hnone : t.node? v = none) (hne : v ≠ []) :
    Grows Kept (t.addFile v) t' := by
  refine ⟨h.here, h.refuses, fun {l} hl => ?_, fun {l _ _} hl => ?_, fun {l _ _} hk hl => ?_⟩
  · rw [node?_addFile hne] at hl
    split at hl
    · cases hl
    · exact h.dir hl
  · rw [node?_addFile hne] at hl
    split at hl
    · subst l
      exact ⟨id, content, hv⟩
    · exact h.file hl
  · rw [node?_addFile hne]
    obtain ⟨id', hl'⟩ := h.kept hk hl
    refine ⟨id', ?_⟩
    rw [if_neg, hl']
    rintro rfl
    rw [hnone] at hl'
    cases hl'

/-- Nor do contents of a file that is not kept. -/
theorem change_left {id : Nat} {f : ByteArray → ByteArray} (h : Grows Kept t t')
    (hid : ∀ l, t.number? l = some id → ¬ Kept l) : Grows Kept (t.change id f) t' := by
  refine ⟨h.here, h.refuses, fun {l} hl => ?_, fun {l _ _} hl => ?_, fun {l _ _} hk hl => ?_⟩
  · rw [node?_change, Option.map_eq_some_iff] at hl
    obtain ⟨node, hnode, hdir⟩ := hl
    cases node with
    | dir => exact h.dir hnode
    | file => cases hdir
  · rw [node?_change, Option.map_eq_some_iff] at hl
    obtain ⟨node, hnode, hfile⟩ := hl
    cases node with
    | dir => cases hfile
    | file => exact h.file hnode
  · obtain ⟨id', hl'⟩ := h.kept hk hl
    have hne : id' ≠ id := by
      rintro rfl
      exact hid l (number?_eq_some_iff.2 ⟨_, hl'⟩) hk
    exact ⟨id', by rw [node?_change, hl', Option.map_some, Node.change, if_neg hne]⟩

end Grows

theorem grows_addDir (hnone : t.node? v = none) : Grows Kept t (t.addDir v) := by
  refine ⟨rfl, rfl, fun {l} hl => ?_, fun {l id content} hl => ?_, fun {l id content} _ hl => ?_⟩
  · rw [node?_addDir, hl]
    split <;> rfl
  · refine ⟨id, content, ?_⟩
    rw [node?_addDir, if_neg, hl]
    rintro rfl
    rw [hnone] at hl
    cases hl
  · rw [node?_addDir] at hl
    split at hl
    · cases hl
    · exact ⟨id, hl⟩

theorem grows_addFile (hnone : t.node? v = none) (hne : v ≠ []) (hkept : ¬ Kept v) :
    Grows Kept t (t.addFile v) := by
  have hother {l : Location} {node : Node} (hl : t.node? l = some node) : l ≠ v := by
    rintro rfl
    rw [hnone] at hl
    cases hl
  refine ⟨rfl, rfl, fun {l} hl => ?_, fun {l id content} hl => ?_, fun {l id content} hk hl => ?_⟩
  · rw [node?_addFile hne, if_neg (hother hl), hl]
  · exact ⟨id, content, by rw [node?_addFile hne, if_neg (hother hl), hl]⟩
  · rw [node?_addFile hne] at hl
    split at hl
    · subst l
      exact absurd hk hkept
    · exact ⟨id, hl⟩

theorem grows_change {id : Nat} {f : ByteArray → ByteArray}
    (hid : ∀ l, t.number? l = some id → ¬ Kept l) : Grows Kept t (t.change id f) := by
  refine ⟨rfl, rfl, fun {l} hl => ?_, fun {l id' content} hl => ?_,
    fun {l id' content} hk hl => ?_⟩
  · rw [node?_change, hl]
    rfl
  · exact ⟨_, _, by rw [node?_change, hl]; rfl⟩
  · rw [node?_change, Option.map_eq_some_iff] at hl
    obtain ⟨node, hnode, hfile⟩ := hl
    cases node with
    | dir => cases hfile
    | file id'' old =>
      have hne : id'' ≠ id := by
        rintro rfl
        exact hid l (number?_eq_some_iff.2 ⟨_, hnode⟩) hk
      rw [Node.change, if_neg hne] at hfile
      cases hfile
      exact ⟨id', hnode⟩

theorem grows_makeDirs (t : FileTree) (p : Path) : Grows Kept t (t.makeDirs p).2 :=
  makeDirs_induct (Grows.refl t) fun _ _ _ _ hv h =>
    h.trans (grows_addDir (node?_of_find_vacant hv).1)

/-! ## Where names lead while a tree grows -/

namespace Grows

theorem walk_file {id : Nat} {content : ByteArray} (h : Grows Kept t t')
    (hl : t.Leads l names (.file v id content)) :
    ∃ id' content', t'.Leads l names (.file v id' content') := by
  generalize hplace : Place.file v id content = place at hl
  induction hl with
  | here => cases hplace
  | up _ ih =>
    obtain ⟨id', content', hl⟩ := ih hplace
    exact ⟨id', content', .up hl⟩
  | down hc hnode _ ih =>
    obtain ⟨id', content', hl⟩ := ih hplace
    exact ⟨id', content', .down hc (h.dir hnode) hl⟩
  | file hc hnode =>
    cases hplace
    obtain ⟨id', content', hnode'⟩ := h.file hnode
    exact ⟨id', content', .file hc hnode'⟩
  | vacant => cases hplace

/-- A name that is too long stays so: what is before it stays. -/
theorem walk_nameTooLong (h : Grows Kept t t') (hl : t.walk l names = .error .nameTooLong) :
    t'.walk l names = .error .nameTooLong := by
  induction names generalizing l with
  | nil => cases hl
  | cons c cs ih =>
    rw [walk] at hl ⊢
    split at hl
    · rw [if_pos ‹_›, ih hl]
    · rw [if_neg ‹_›]
      split at hl
      · rw [if_pos ‹_›]
      · rw [if_neg ‹_›]
        split at hl
        · rename_i hnode
          rw [h.dir hnode]
          exact ih hl
        · split at hl <;> cases hl
        · split at hl <;> cases hl

theorem find_dir (h : Grows Kept t t') (hp : t.find p = .ok (.dir d)) :
    t'.find p = .ok (.dir d) :=
  find_of_dirs h.here (fun _ => h.dir) hp

theorem find_file {id : Nat} {content : ByteArray} (h : Grows Kept t t')
    (hp : t.find p = .ok (.file v id content)) :
    ∃ id' content', t'.find p = .ok (.file v id' content') := by
  obtain ⟨hnull, hlong, hleads⟩ := find_eq_ok_iff.1 hp
  obtain ⟨id', content', hleads'⟩ := h.walk_file hleads
  refine ⟨id', content', find_eq_ok_iff.2 ⟨hnull, hlong, ?_⟩⟩
  rw [start, h.here]
  exact hleads'

theorem find_nameTooLong {path : Text} (h : Grows Kept t t')
    (hp : t.find p = .error (.refused .nameTooLong path)) :
    t'.find p = .error (.refused .nameTooLong path) := by
  rw [find] at hp ⊢
  split at hp
  · cases hp
  · rw [if_neg ‹_›]
    split at hp
    · rw [if_pos ‹_›, hp]
    · rw [if_neg ‹_›]
      split at hp
      · cases hp
      · rename_i why hwalk
        cases hp
        rw [h.here, h.walk_nameTooLong hwalk]

/-- What there is at a path stays there, and a path that is refused stays refused. -/
theorem exists?_eq (h : Grows Kept t t') (hp : t.exists? p ≠ .ok false) :
    t'.exists? p = t.exists? p := by
  cases hfind : t.find p with
  | ok place =>
    cases place with
    | dir d => rw [exists?, exists?, hfind, h.find_dir hfind]
    | file l id content =>
      obtain ⟨id', content', hfile⟩ := h.find_file hfind
      rw [exists?, exists?, hfind, hfile]
    | vacant l => exact absurd (by rw [exists?, hfind]) hp
  | error e =>
    by_cases htoo : ∃ path, e = .refused .nameTooLong path
    · obtain ⟨path, rfl⟩ := htoo
      rw [exists?, exists?, hfind, h.find_nameTooLong hfind]
    · refine absurd ?_ hp
      rw [exists?, hfind]
      split
      · rename_i hplace
        cases hplace
      · rename_i hplace
        cases hplace
      · rename_i path hpath
        cases hpath
        exact absurd ⟨path, rfl⟩ htoo
      · rfl

theorem exists?_eq_false (h : Grows Kept t t') (hp : t'.exists? p = .ok false) :
    t.exists? p = .ok false :=
  Classical.byContradiction fun hne => hne (by rwa [h.exists?_eq hne] at hp)

end Grows

/-! ## Reading while a tree grows -/

/-- Whether everything lies in a directory. -/
def Rooted (t : FileTree) : Prop :=
  ∀ {l : Location} {c : Text} {node : Node}, t.node? (l ++ [c]) = some node →
    t.node? l = some .dir

theorem rooted_of_nodes (h : ∀ p ∈ t.nodes, t.node? p.1.dropLast = some .dir) : t.Rooted := by
  intro l c node hnode
  rw [node?, if_neg (by simp)] at hnode
  have hl := h _ (Table.mem_of_get? hnode)
  rwa [List.dropLast_concat] at hl

namespace Grows

variable {content : ByteArray}

/-- A file that is kept is read as before. -/
theorem read (h : Grows Kept t t') (hkept : ∀ l, l.getLast? = p.parts.getLast? → Kept l)
    (hp : t.read p = .ok content) : t'.read p = .ok content := by
  obtain ⟨v, id, hfile, hreading⟩ := read_eq_ok_iff.1 hp
  obtain ⟨id', content', hfile'⟩ := h.find_file hfile
  have hleads' := (find_eq_ok_iff.1 hfile').2.2
  have hlast : v.getLast? = p.parts.getLast? := (hleads'.getLast?_eq rfl).2
  obtain ⟨id'', hnode⟩ := h.kept (hkept v hlast) hleads'.node?_of_file
  rw [(find_eq_ok_iff.1 hfile).2.2.node?_of_file] at hnode
  cases hnode
  exact read_eq_ok_iff.2 ⟨v, id', hfile', by rw [h.refuses, hreading]⟩

/-- A file that is kept is read only if it was, two names below a directory that was there: all
    that it lies in came before it. -/
theorem read_back {t₀ : FileTree} {a b : Text} (h₀ : Grows Kept t₀ t) (h : Grows Kept t t')
    (hrooted : t₀.Rooted) (hp : t.find p = .ok (.dir d)) (ha : IsName a) (hb : IsName b)
    (hkept : Kept (d ++ [a] ++ [b])) (hread : t'.read (p.below [a, b]) = .ok content) :
    t.read (p.below [a, b]) = .ok content := by
  obtain ⟨v, id, hfile, hreading⟩ := read_eq_ok_iff.1 hread
  obtain ⟨husable, hleads⟩ :=
    (find_below_iff (h.find_dir hp) (List.cons_ne_nil a [b])).1 hfile
  obtain ⟨e, hdir, hlast⟩ : ∃ e, t'.Leads d [a] (.dir e) ∧ t'.Leads e [b] (.file v id content) :=
    Leads.exists_of_append (List.cons_ne_nil b []) hleads
  obtain ⟨rfl, -⟩ := (leads_singleton_dir_iff ha).1 hdir
  obtain ⟨rfl, hnode'⟩ := (Leads.singleton_file_iff hb).1 hlast
  obtain ⟨id₁, hnode⟩ := h.kept hkept hnode'
  obtain ⟨id₀, hnode₀⟩ := h₀.kept hkept hnode
  refine read_eq_ok_iff.2 ⟨d ++ [a] ++ [b], id₁,
    (find_below_iff hp (List.cons_ne_nil a [b])).2 ⟨husable, ?_⟩, by rw [← h.refuses, hreading]⟩
  exact .down ha (h₀.dir (hrooted hnode₀)) (.file hb hnode)

end Grows

end FileTree

end PromptFill
