/-
  Following paths while files change.

  What stands at a location after each of the three changes of a tree is said by `node?_addDir`,
  `node?_addFile` and `node?_change`.  From this follows where a path leads: to a directory as
  long as directories stay (`find_of_dirs`), and to what was made where there was nothing
  (`find_addDir`, `find_addFile`).  So a file that was written is read back, if it may be read
  (`read_write`), and a directory that was asked for is there (`find_of_makeDirs`).

  `makeDirs_induct` is the induction over the directories that are made on the way.
-/
import Mathlib.Tactic.SplitIfs
import PromptFill.Files.Tree
import PromptFill.Proofs.Table

namespace PromptFill

/-- A place after the content of the file of a number was changed. -/
def Place.change (id : Nat) (f : ByteArray → ByteArray) : Place → Place
  | .file l id' content => .file l id' (if id' = id then f content else content)
  | place => place

/-- The location of a file or a free place. -/
def Place.location? : Place → Option Location
  | .dir _ => none
  | .file l _ _ => some l
  | .vacant l => some l

namespace FileTree

variable {t t' : FileTree} {l d : Location} {names : List Text} {p : Path}

/-! ## What stands at a location -/

theorem node?_nil (t : FileTree) : t.node? [] = some .dir := rfl

theorem node?_addDir (t : FileTree) (l l' : Location) :
    (t.addDir l).node? l' = if l' = l then some .dir else t.node? l' := by
  by_cases h : l' = []
  · subst h
    simp [node?]
  · simp only [node?, addDir, h, if_false, Table.get?_set]

theorem node?_addFile (hl : l ≠ []) (l' : Location) :
    (t.addFile l).node? l' =
      if l' = l then some (.file t.fresh ByteArray.empty) else t.node? l' := by
  by_cases h : l' = []
  · subst h
    simp [node?, Ne.symm hl]
  · simp only [node?, addFile, h, if_false, Table.get?_set]

theorem node?_change (t : FileTree) (id : Nat) (f : ByteArray → ByteArray) (l : Location) :
    (t.change id f).node? l = (t.node? l).map (Node.change id f) := by
  have hget (nodes : Table Location Node) :
      Table.get? (nodes.map fun p => (p.1, Node.change id f p.2)) l =
        (nodes.get? l).map (Node.change id f) := by
    induction nodes with
    | nil => rfl
    | cons p nodes ih =>
      rw [List.map_cons, Table.get?_cons, Table.get?_cons, ih]
      split <;> rfl
  by_cases h : l = []
  · subst h
    rfl
  · simp only [node?, change, h, if_false, hget]

/-! ## Where names lead -/

/-- Whether a name can be that of a file or a directory. -/
def IsName (c : Text) : Prop := c ≠ "..".toList ∧ Text.byteLength c ≤ longestName

instance : DecidablePred IsName := fun _ => instDecidableAnd

/-- The names lead from the directory to the place. -/
inductive Leads (t : FileTree) : Location → List Text → Place → Prop
  | here (l : Location) : Leads t l [] (.dir l)
  | up {l : Location} {cs : List Text} {place : Place} :
      Leads t l.dropLast cs place → Leads t l ("..".toList :: cs) place
  | down {l : Location} {c : Text} {cs : List Text} {place : Place} :
      IsName c → t.node? (l ++ [c]) = some .dir → Leads t (l ++ [c]) cs place →
      Leads t l (c :: cs) place
  | file {l : Location} {c : Text} {id : Nat} {content : ByteArray} :
      IsName c → t.node? (l ++ [c]) = some (.file id content) →
      Leads t l [c] (.file (l ++ [c]) id content)
  | vacant {l : Location} {c : Text} :
      IsName c → t.node? (l ++ [c]) = none → Leads t l [c] (.vacant (l ++ [c]))

theorem walk_eq_ok_iff {place : Place} :
    t.walk l names = .ok place ↔ t.Leads l names place := by
  constructor
  · intro h
    induction names generalizing l with
    | nil =>
      cases h
      exact .here l
    | cons c cs ih =>
      rw [walk] at h
      split at h
      · rename_i hup
        exact hup ▸ .up (ih h)
      · rename_i hup
        split at h
        · cases h
        · rename_i hlen
          have hc : IsName c := ⟨hup, Nat.not_lt.1 hlen⟩
          split at h
          · exact .down hc ‹_› (ih h)
          · split at h
            · cases h
              subst cs
              exact .file hc ‹_›
            · cases h
          · split at h
            · cases h
              subst cs
              exact .vacant hc ‹_›
            · cases h
  · intro h
    induction h with
    | here l => rfl
    | up _ ih => rw [walk, if_pos rfl, ih]
    | down hc hnode _ ih => rw [walk, if_neg hc.1, if_neg (Nat.not_lt.2 hc.2), hnode]; exact ih
    | file hc hnode => rw [walk, if_neg hc.1, if_neg (Nat.not_lt.2 hc.2), hnode]; rfl
    | vacant hc hnode => rw [walk, if_neg hc.1, if_neg (Nat.not_lt.2 hc.2), hnode]; rfl

namespace Leads

/-- Directories are found as long as none of them goes. -/
theorem of_dirs (h : ∀ l, t.node? l = some .dir → t'.node? l = some .dir)
    (hd : t.Leads l names (.dir d)) : t'.Leads l names (.dir d) := by
  generalize hplace : Place.dir d = place at hd
  induction hd with
  | here l =>
    cases hplace
    exact .here d
  | up _ ih => exact .up (ih hplace)
  | down hc hnode _ ih => exact .down hc (h _ hnode) (ih hplace)
  | file => cases hplace
  | vacant => cases hplace

/-- Nothing stands at a free place, which is not the root. -/
theorem node?_of_vacant {v : Location} (h : t.Leads l names (.vacant v)) :
    t.node? v = none ∧ v ≠ [] := by
  have hnode : t.node? v = none := by
    generalize hplace : Place.vacant v = place at h
    induction h with
    | here => cases hplace
    | up _ ih => exact ih hplace
    | down _ _ _ ih => exact ih hplace
    | file => cases hplace
    | vacant _ hnode =>
      cases hplace
      exact hnode
  refine ⟨hnode, ?_⟩
  rintro rfl
  rw [node?_nil] at hnode
  cases hnode

/-- A file stands where the names lead to it. -/
theorem node?_of_file {v : Location} {id : Nat} {content : ByteArray}
    (h : t.Leads l names (.file v id content)) : t.node? v = some (.file id content) := by
  generalize hplace : Place.file v id content = place at h
  induction h with
  | here => cases hplace
  | up _ ih => exact ih hplace
  | down _ _ _ ih => exact ih hplace
  | file _ hnode =>
    cases hplace
    exact hnode
  | vacant => cases hplace

/-- After something was put at a free place, the names lead there. -/
theorem of_vacant {v : Location} {node : Node} (h : t.Leads l names (.vacant v))
    (hnode : ∀ l, t'.node? l = if l = v then some node else t.node? l) :
    t'.Leads l names (match node with
      | .dir => .dir v
      | .file id content => .file v id content) := by
  have hnone := h.node?_of_vacant.1
  generalize hplace : Place.vacant v = place at h
  induction h with
  | here => cases hplace
  | up _ ih => exact .up (ih hplace)
  | down hc hdir _ ih =>
    refine .down hc ?_ (ih hplace)
    rw [hnode, if_neg, hdir]
    rintro rfl
    rw [hnone] at hdir
    cases hdir
  | file => cases hplace
  | @vacant l c hc _ =>
    cases hplace
    have hthere := hnode (l ++ [c])
    rw [if_pos rfl] at hthere
    cases node with
    | dir => exact .down hc hthere (.here _)
    | file id content => exact .file hc hthere

/-- A file or a free place has the last of the names that lead to it. -/
theorem getLast?_eq {place : Place} {v : Location} (h : t.Leads l names place)
    (hv : place.location? = some v) : names ≠ [] ∧ v.getLast? = names.getLast? := by
  induction h with
  | here => cases hv
  | up _ ih =>
    obtain ⟨hne, hlast⟩ := ih hv
    exact ⟨List.cons_ne_nil _ _, by rw [hlast, List.getLast?_cons_of_ne_nil hne]⟩
  | down _ _ _ ih =>
    obtain ⟨hne, hlast⟩ := ih hv
    exact ⟨List.cons_ne_nil _ _, by rw [hlast, List.getLast?_cons_of_ne_nil hne]⟩
  | file =>
    cases hv
    exact ⟨List.cons_ne_nil _ _, by simp⟩
  | vacant =>
    cases hv
    exact ⟨List.cons_ne_nil _ _, by simp⟩

/-- One name leads to a file exactly if the file stands there. -/
theorem singleton_file_iff {c : Text} {v : Location} {id : Nat} {content : ByteArray}
    (hc : IsName c) :
    t.Leads l [c] (.file v id content) ↔ v = l ++ [c] ∧ t.node? v = some (.file id content) := by
  constructor
  · intro h
    refine ⟨?_, h.node?_of_file⟩
    cases h with
    | up h => cases h
    | down _ _ h => cases h
    | file => rfl
  · rintro ⟨rfl, h⟩
    exact .file hc h

end Leads

/-! ## Where paths lead -/

/-- The directory from which the names of a path are followed. -/
def start (t : FileTree) (p : Path) : Location := if p.isRelative then t.here else []

theorem find_eq_ok_iff {place : Place} :
    t.find p = .ok place ↔ '\x00' ∉ p.text ∧ Text.byteLength p.text ≤ longestPath ∧
      t.Leads (t.start p) p.parts place := by
  rw [find, ← walk_eq_ok_iff, start]
  by_cases hnull : '\x00' ∈ p.text
  · simp [hnull]
  · by_cases hlong : longestPath < Text.byteLength p.text
    · simp [hnull, hlong, Nat.not_le.2 hlong]
    · rw [if_neg hnull, if_neg hlong]
      split
      · rename_i hwalk
        simp [hnull, Nat.not_lt.1 hlong, hwalk]
      · rename_i hwalk
        simp [hwalk]

theorem node?_of_find_vacant {v : Location} (h : t.find p = .ok (.vacant v)) :
    t.node? v = none ∧ v ≠ [] := (find_eq_ok_iff.1 h).2.2.node?_of_vacant

theorem find_of_dirs (hhere : t'.here = t.here)
    (h : ∀ l, t.node? l = some .dir → t'.node? l = some .dir) (hd : t.find p = .ok (.dir d)) :
    t'.find p = .ok (.dir d) := by
  obtain ⟨hnull, hlong, hleads⟩ := find_eq_ok_iff.1 hd
  refine find_eq_ok_iff.2 ⟨hnull, hlong, ?_⟩
  rw [start, hhere]
  exact hleads.of_dirs h

theorem walk_change (t : FileTree) (id : Nat) (f : ByteArray → ByteArray) (l : Location)
    (names : List Text) :
    (t.change id f).walk l names = (t.walk l names).map (Place.change id f) := by
  induction names generalizing l with
  | nil => rfl
  | cons c cs ih =>
    rw [walk, walk, node?_change, ih, ih]
    cases t.node? (l ++ [c]) with
    | none =>
      simp only [Option.map_none]
      split_ifs <;> rfl
    | some node =>
      simp only [Option.map_some]
      cases node with
      | dir =>
        simp only [Node.change]
        split_ifs <;> rfl
      | file id' content =>
        simp only [Node.change]
        by_cases hid : id' = id
        · simp only [hid, if_true]
          split_ifs <;> simp [Except.map, Place.change]
        · simp only [hid, if_false]
          split_ifs <;> simp [Except.map, Place.change, hid]

/-- Changing the content of files changes what paths lead to in its content only. -/
theorem find_change_eq (t : FileTree) (id : Nat) (f : ByteArray → ByteArray) (p : Path) :
    (t.change id f).find p = (t.find p).map (Place.change id f) := by
  have hhere : (t.change id f).here = t.here := rfl
  rw [find, find, walk_change, hhere]
  split_ifs
  · rfl
  · rfl
  · cases t.walk t.here p.parts <;> rfl
  · cases t.walk [] p.parts <;> rfl

theorem find_change {place : Place} {id : Nat} {f : ByteArray → ByteArray}
    (h : t.find p = .ok place) : (t.change id f).find p = .ok (place.change id f) := by
  rw [find_change_eq, h]
  rfl

theorem exists?_change (t : FileTree) (id : Nat) (f : ByteArray → ByteArray) (p : Path) :
    (t.change id f).exists? p = t.exists? p := by
  rw [exists?, exists?, find_change_eq]
  cases t.find p with
  | error e => rfl
  | ok place => cases place <;> rfl

theorem find_addDir {v : Location} (h : t.find p = .ok (.vacant v)) :
    (t.addDir v).find p = .ok (.dir v) := by
  obtain ⟨hnull, hlong, hleads⟩ := find_eq_ok_iff.1 h
  exact find_eq_ok_iff.2 ⟨hnull, hlong, hleads.of_vacant (node?_addDir t v)⟩

theorem find_addFile {v : Location} (h : t.find p = .ok (.vacant v)) :
    (t.addFile v).find p = .ok (.file v t.fresh ByteArray.empty) := by
  obtain ⟨hnull, hlong, hleads⟩ := find_eq_ok_iff.1 h
  exact find_eq_ok_iff.2
    ⟨hnull, hlong, hleads.of_vacant (node?_addFile hleads.node?_of_vacant.2)⟩

/-! ## What is refused -/

/-- Whether what a path leads to may be used. -/
def Permits (t : FileTree) (use : Use) (p : Path) : Prop :=
  ∀ place l, t.find p = .ok place → place.location? = some l → t.refuses use l = none

section permit

variable {α : Type} {use : Use} {answer a : α}

theorem permit_of_none (h : t.refuses use l = none) (p : Path) (answer : α) :
    t.permit use l p answer = .ok answer := by
  rw [permit, h]

theorem permit_eq_ok (h : t.permit use l p answer = .ok a) :
    t.refuses use l = none ∧ a = answer := by
  rw [permit] at h
  split at h
  · rename_i hnone
    cases h
    exact ⟨hnone, rfl⟩
  · cases h

theorem permit_eq_error {e : Fault} (h : t.permit use l p answer = .error e) :
    ∃ why, e = .refused why p.text := by
  rw [permit] at h
  split at h
  · cases h
  · cases h
    exact ⟨_, rfl⟩

end permit

/-! ## Making directories -/

theorem isDir_iff : t.isDir p = true ↔ ∃ d, t.find p = .ok (.dir d) := by
  rw [isDir]
  constructor
  · intro h
    split at h
    · rename_i d hd
      exact ⟨d, hd⟩
    · cases h
  · intro h
    obtain ⟨d, hd⟩ := h
    rw [hd]

/-- A directory that is asked for is there in the end: it was there, or it was made. -/
theorem ensureDir_eq_ok (h : t.ensureDir p = .ok t') :
    (∃ d, t'.find p = .ok (.dir d)) ∧
      (t' = t ∨ ∃ v, t.find p = .ok (.vacant v) ∧ t' = t.addDir v) := by
  rw [ensureDir] at h
  split at h
  · rename_i t₁ hmake
    cases h
    rw [makeDir] at hmake
    split at hmake
    · rename_i v hv
      obtain ⟨-, rfl⟩ := permit_eq_ok hmake
      exact ⟨⟨v, find_addDir hv⟩, .inr ⟨v, hv, rfl⟩⟩
    · cases hmake
    · cases hmake
  · split at h
    · rename_i hdir
      cases h
      exact ⟨isDir_iff.1 hdir.2.2, .inl rfl⟩
    · cases h

theorem makeDirs_of_find (h : t.find p = .ok (.dir d)) : t.makeDirs p = (.ok (), t) := by
  have hensure : t.ensureDir p = .ok t := by
    have hmake : t.makeDir p = .error (.refused .alreadyExists p.text) := by
      rw [makeDir, h]
    rw [ensureDir, hmake]
    simp [Fault.isRefusal, isDir_iff.2 ⟨d, h⟩]
  rw [makeDirs, hensure]

theorem find_of_makeDirs (h : t.makeDirs p = (.ok (), t')) : ∃ d, t'.find p = .ok (.dir d) := by
  rw [makeDirs] at h
  split at h
  · rename_i hensure
    cases h
    exact (ensureDir_eq_ok hensure).1
  · split at h
    · split at h
      · cases h
      · split at h
        · rename_i hensure
          cases h
          exact (ensureDir_eq_ok hensure).1
        · cases h
    · cases h

/-- Whether a path is another one or leads on from it. -/
def LeadsOver (p q : Path) : Prop := q.anchor = p.anchor ∧ q.parts <+: p.parts

/-- What holds of a tree holds after directories were made on the way of a path, if it holds after
    each of them. -/
theorem makeDirs_induct {P : FileTree → Prop} (ht : P t)
    (hadd : ∀ t q v, LeadsOver p q → t.find q = .ok (.vacant v) → P t → P (t.addDir v)) :
    P (t.makeDirs p).2 := by
  have hensure {t t' : FileTree} {p : Path}
      (hadd : ∀ t q v, LeadsOver p q → t.find q = .ok (.vacant v) → P t → P (t.addDir v))
      (ht : P t) (h : t.ensureDir p = .ok t') : P t' := by
    obtain rfl | ⟨v, hv, rfl⟩ := (ensureDir_eq_ok h).2
    · exact ht
    · exact hadd t p v ⟨rfl, List.prefix_rfl⟩ hv ht
  have hparent {p : Path}
      (hadd : ∀ t q v, LeadsOver p q → t.find q = .ok (.vacant v) → P t → P (t.addDir v))
      (t : FileTree) (q : Path) (v : Location) (hq : LeadsOver p.parent q) :
      t.find q = .ok (.vacant v) → P t → P (t.addDir v) :=
    hadd t q v ⟨hq.1, hq.2.trans (List.dropLast_prefix p.parts)⟩
  fun_induction makeDirs t p with
  | case1 p t' h => exact hensure hadd ht h
  | case2 p e _ _ e' t' h ih =>
    rw [h] at ih
    exact ih (hparent hadd)
  | case3 p e _ _ t' hmade t'' h ih =>
    rw [hmade] at ih
    exact hensure hadd (ih (hparent hadd)) h
  | case4 p e _ _ t' hmade e' h ih =>
    rw [hmade] at ih
    exact ih (hparent hadd)
  | case5 => exact ht

/-! ## Writing and reading -/

/-- Opening a file leads to it, and makes it if there was nothing. -/
theorem openFile_eq_ok {id : Nat} (h : t.openFile p = .ok (id, t')) :
    ∃ v content, t'.find p = .ok (.file v id content) ∧
      (t' = t ∨ t.find p = .ok (.vacant v) ∧ id = t.fresh ∧ t' = t.addFile v) := by
  rw [openFile] at h
  split at h
  · rename_i v id' content hfile
    obtain ⟨-, heq⟩ := permit_eq_ok h
    cases heq
    exact ⟨v, content, hfile, .inl rfl⟩
  · rename_i v hv
    obtain ⟨-, heq⟩ := permit_eq_ok h
    cases heq
    exact ⟨v, ByteArray.empty, find_addFile hv, .inr ⟨hv, rfl, rfl⟩⟩
  · cases h
  · cases h

/-- A file is made only where this is not refused. -/
theorem refuses_of_openFile {id : Nat} {v : Location} (h : t.openFile p = .ok (id, t'))
    (hv : t.find p = .ok (.vacant v)) : t.refuses .making v = none := by
  rw [openFile, hv] at h
  exact (permit_eq_ok h).1

theorem write_eq_ok {content : ByteArray} (h : t.write p content = .ok t') :
    ∃ id t₁, t.openFile p = .ok (id, t₁) ∧ t' = t₁.change id fun _ => content := by
  rw [write] at h
  split at h
  · rename_i id t₁ hopen
    cases h
    exact ⟨id, t₁, hopen, rfl⟩
  · cases h

/-- A file that may be written, or made where it is missing, can be opened. -/
theorem exists_openFile {place : Place} (h : t.find p = .ok place) (hdir : ∀ l, place ≠ .dir l)
    (hwriting : t.Permits .writing p) (hmaking : t.Permits .making p) :
    ∃ id t', t.openFile p = .ok (id, t') := by
  rw [openFile, h]
  cases place with
  | dir l => exact absurd rfl (hdir l)
  | file l id content => exact ⟨_, _, permit_of_none (hwriting _ l h rfl) p _⟩
  | vacant l => exact ⟨_, _, permit_of_none (hmaking _ l h rfl) p _⟩

theorem write_of_openFile {id : Nat} (h : t.openFile p = .ok (id, t')) (content : ByteArray) :
    t.write p content = .ok (t'.change id fun _ => content) := by
  rw [write, h]

theorem write_of_error {e : Fault} (h : t.openFile p = .error e) (content : ByteArray) :
    t.write p content = .error e := by
  rw [write, h]

theorem read_eq_ok_iff {content : ByteArray} : t.read p = .ok content ↔
    ∃ v id, t.find p = .ok (.file v id content) ∧ t.refuses .reading v = none := by
  rw [read]
  constructor
  · intro h
    split at h
    · rename_i v id content' hfind
      obtain ⟨hnone, rfl⟩ := permit_eq_ok h
      exact ⟨v, id, hfind, hnone⟩
    · cases h
    · cases h
    · cases h
  · rintro ⟨v, id, h, hnone⟩
    rw [h]
    exact permit_of_none hnone p content

theorem read_of_find {v : Location} {id : Nat} {content : ByteArray}
    (h : t.find p = .ok (.file v id content)) (hread : t.Permits .reading p) :
    t.read p = .ok content :=
  read_eq_ok_iff.2 ⟨v, id, h, hread _ v h rfl⟩

theorem exists?_of_read {content : ByteArray} (h : t.read p = .ok content) :
    t.exists? p = .ok true := by
  obtain ⟨v, id, hfind, -⟩ := read_eq_ok_iff.1 h
  rw [exists?, hfind]

theorem permits_of_read {content : ByteArray} (h : t.read p = .ok content) :
    t.Permits .reading p := by
  obtain ⟨v, id, hfind, hnone⟩ := read_eq_ok_iff.1 h
  intro place l hplace hl
  rw [hfind] at hplace
  cases hplace
  cases hl
  exact hnone

/-- A path that leads nowhere is refused, and the refusal names it, unless it holds the character
    NUL. -/
theorem find_eq_error {e : Fault} (h : t.find p = .error e) :
    (∃ why, e = .refused why p.text) ∨ e = .nullInPath ∧ '\x00' ∈ p.text := by
  rw [find] at h
  split at h
  · rename_i hnull
    cases h
    exact .inr ⟨rfl, hnull⟩
  · split at h
    · cases h
      exact .inl ⟨_, rfl⟩
    · split at h
      · cases h
      · cases h
        exact .inl ⟨_, rfl⟩

/-- Reading is refused, and the refusal names the path, unless the path holds the character NUL. -/
theorem read_eq_error {e : Fault} (h : t.read p = .error e) :
    (∃ why, e = .refused why p.text) ∨ e = .nullInPath ∧ '\x00' ∈ p.text := by
  rw [read] at h
  split at h
  · exact .inl (permit_eq_error h)
  · cases h
    exact .inl ⟨_, rfl⟩
  · cases h
    exact .inl ⟨_, rfl⟩
  · rename_i hfind
    cases h
    exact find_eq_error hfind

/-- So is opening a file. -/
theorem openFile_eq_error {e : Fault} (h : t.openFile p = .error e) :
    (∃ why, e = .refused why p.text) ∨ e = .nullInPath ∧ '\x00' ∈ p.text := by
  rw [openFile] at h
  split at h
  · exact .inl (permit_eq_error h)
  · exact .inl (permit_eq_error h)
  · cases h
    exact .inl ⟨_, rfl⟩
  · rename_i hfind
    cases h
    exact find_eq_error hfind

theorem isRefusal_of_read {e : Fault} (h : t.read p = .error e) (hnull : '\x00' ∉ p.text) :
    e.isRefusal = true := by
  obtain ⟨why, rfl⟩ | ⟨-, hmem⟩ := read_eq_error h
  · rfl
  · exact absurd hmem hnull

/-- What a path leads to is at the same location after a file was opened by it. -/
theorem Permits.openFile {use : Use} {id : Nat} (h : t.Permits use p)
    (hopen : t.openFile p = .ok (id, t')) : t'.Permits use p := by
  obtain ⟨v, content, hfind, rfl | ⟨hv, -, rfl⟩⟩ := openFile_eq_ok hopen
  · exact h
  · intro place l hplace hl
    rw [hfind] at hplace
    cases hplace
    cases hl
    exact h _ v hv rfl

theorem Permits.change {use : Use} (h : t.Permits use p) (id : Nat)
    (f : ByteArray → ByteArray) : (t.change id f).Permits use p := by
  intro place l hplace hl
  rw [find_change_eq] at hplace
  cases hfind : t.find p with
  | error e =>
    rw [hfind] at hplace
    cases hplace
  | ok place' =>
    rw [hfind] at hplace
    cases hplace
    refine h place' l hfind ?_
    cases place' <;> exact hl

/-- What was written to a file is there when the path is followed again, if it may be read. -/
theorem read_write {content : ByteArray} (h : t.write p content = .ok t')
    (hread : t.Permits .reading p) : t'.read p = .ok content := by
  obtain ⟨id, t₁, hopen, rfl⟩ := write_eq_ok h
  obtain ⟨v, old, hfind, -⟩ := openFile_eq_ok hopen
  have hchanged : (t₁.change id fun _ => content).find p = .ok (.file v id content) := by
    rw [find_change hfind, Place.change, if_pos rfl]
  exact read_of_find hchanged ((hread.openFile hopen).change id _)

/-- Writing to a file that is there changes its content and nothing else. -/
theorem write_eq_change {content old : ByteArray} (hread : t.read p = .ok old)
    (h : t.write p content = .ok t') : ∃ id, t' = t.change id fun _ => content := by
  obtain ⟨id, t₁, hopen, rfl⟩ := write_eq_ok h
  obtain ⟨l, id', hfind, -⟩ := read_eq_ok_iff.1 hread
  obtain ⟨v, found, -, rfl | ⟨hvacant, -⟩⟩ := openFile_eq_ok hopen
  · exact ⟨id, rfl⟩
  · rw [hfind] at hvacant
    cases hvacant

/-- A file that is there is written to, if it may be. -/
theorem exists_write_of_read {old : ByteArray} (hread : t.read p = .ok old)
    (hwriting : t.Permits .writing p) (content : ByteArray) :
    ∃ t', t.write p content = .ok t' := by
  obtain ⟨l, id, hfind, -⟩ := read_eq_ok_iff.1 hread
  have hopen : t.openFile p = .ok (id, t) := by
    rw [openFile, hfind]
    exact permit_of_none (hwriting _ l hfind rfl) p (id, t)
  exact ⟨_, write_of_openFile hopen content⟩

/-! ## Room -/

theorem hasRoom_of_room (h : t.room = none) (content : ByteArray) : t.hasRoom content = true := by
  rw [hasRoom, h]
  rfl

theorem fitting_of_hasRoom {content : ByteArray} (h : t.hasRoom content = true) :
    t.fitting content = content := by
  rw [hasRoom] at h
  rw [fitting]
  split
  · rfl
  · rename_i most hmost
    rw [hmost, Option.all_some, decide_eq_true_eq] at h
    rw [← Nat.max_eq_left h, ByteArray.extract_zero_max_size]

end FileTree

end PromptFill
