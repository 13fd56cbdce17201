/-
  The way that names take.

  Names that are followed from a location stop at one place after the other, and `..` leads back.
  Where they stop does not depend on what there is (`stops`).  They lead nowhere exactly if
  something on their way is missing, or is a file with more names behind it (`Blocks`), and so there
  is nothing at a path exactly if something on its way blocks it (`exists?_eq_false_iff`).

  Making a directory takes away what blocks its own way and nothing else (`blocks_makeDirs_iff`).
  In a directory that is there it takes away one stop, if this can be made
  (`blocks_makeDirs_below_iff`).
-/
import PromptFill.Proofs.Files.Growth

namespace PromptFill

/-- A place that names stop at on their way, and whether more names follow. -/
structure Stop where
  place : Location
  inner : Bool

namespace FileTree

variable {t t' : FileTree} {l v d : Location} {c : Text} {names more : List Text} {p : Path}
  {s : Stop}

/-! ## Stops -/

/-- The places that names stop at from a location.  Their way ends at a name that is too long. -/
def stops : (l : Location) → (names : List Text) → List Stop
  | _, [] => []
  | l, c :: cs =>
    if c = "..".toList then stops l.dropLast cs
    else if longestName < Text.byteLength c then []
    else ⟨l ++ [c], !cs.isEmpty⟩ :: stops (l ++ [c]) cs

theorem stops_up (l : Location) (cs : List Text) :
    stops l ("..".toList :: cs) = stops l.dropLast cs := by
  rw [stops, if_pos rfl]

theorem stops_of_isName (hc : IsName c) (l : Location) (cs : List Text) :
    stops l (c :: cs) = ⟨l ++ [c], !cs.isEmpty⟩ :: stops (l ++ [c]) cs := by
  rw [stops, if_neg hc.1, if_neg (Nat.not_lt.2 hc.2)]

/-- The places on the way of the first names are on the way. -/
theorem exists_stop_append (hs : s ∈ stops l names) :
    ∃ s' ∈ stops l (names ++ more), s'.place = s.place := by
  induction names generalizing l with
  | nil => cases hs
  | cons c cs ih =>
    rw [List.cons_append]
    rw [stops] at hs ⊢
    split at hs
    · rw [if_pos ‹_›]
      exact ih hs
    · rw [if_neg ‹_›]
      split at hs
      · cases hs
      · rw [if_neg ‹_›]
        rcases List.mem_cons.1 hs with rfl | hs
        · exact ⟨_, List.mem_cons_self, rfl⟩
        · obtain ⟨s', hs', hplace⟩ := ih hs
          exact ⟨s', List.mem_cons_of_mem _ hs', hplace⟩

/-- All stops on the way to a directory are directories. -/
theorem Leads.node?_of_mem_stops (h : t.Leads l names (.dir d)) (hs : s ∈ stops l names) :
    t.node? s.place = some .dir := by
  generalize hplace : Place.dir d = place at h
  induction h with
  | here => cases hs
  | up _ ih =>
    rw [stops_up] at hs
    exact ih hs hplace
  | down hc hnode _ ih =>
    rw [stops_of_isName hc] at hs
    rcases List.mem_cons.1 hs with rfl | hs
    · exact hnode
    · exact ih hs hplace
  | file => cases hplace
  | vacant => cases hplace

/-- A free place is a stop on the way to it. -/
theorem Leads.exists_stop_of_vacant (h : t.Leads l names (.vacant v)) :
    ∃ s ∈ stops l names, s.place = v := by
  generalize hplace : Place.vacant v = place at h
  induction h with
  | here => cases hplace
  | up _ ih =>
    rw [stops_up]
    exact ih hplace
  | down hc _ _ ih =>
    rw [stops_of_isName hc]
    obtain ⟨s, hs, hv⟩ := ih hplace
    exact ⟨s, List.mem_cons_of_mem _ hs, hv⟩
  | file => cases hplace
  | vacant hc =>
    cases hplace
    rw [stops_of_isName hc]
    exact ⟨_, List.mem_cons_self, rfl⟩

/-! ## Stops that block the way -/

/-- Whether names cannot be followed over a stop, or lead to nothing there. -/
def Blocks (t : FileTree) (s : Stop) : Prop :=
  t.node? s.place = none ∨
    s.inner = true ∧ ∃ id content, t.node? s.place = some (.file id content)

theorem blocks_congr (h : t'.node? s.place = t.node? s.place) : t'.Blocks s ↔ t.Blocks s := by
  rw [Blocks, Blocks, h]

theorem blocks_of_none (h : t.node? s.place = none) : t.Blocks s := .inl h

theorem not_blocks_of_dir (h : t.node? s.place = some .dir) : ¬ t.Blocks s := by
  rintro (hnone | ⟨-, id, content, hfile⟩)
  · cases h.symm.trans hnone
  · cases h.symm.trans hfile

theorem blocks_iff_of_file {id : Nat} {content : ByteArray}
    (h : t.node? s.place = some (.file id content)) : t.Blocks s ↔ s.inner = true := by
  constructor
  · rintro (hnone | ⟨hinner, -⟩)
    · cases h.symm.trans hnone
    · exact hinner
  · exact fun hinner => .inr ⟨hinner, id, content, h⟩

/-- Whether following names leads nowhere, though none of them is too long. -/
def LeadsNowhere : Except Refusal Place → Prop
  | .ok (.vacant _) => True
  | .ok _ => False
  | .error why => why ≠ .nameTooLong

/-- Names lead nowhere exactly if something on their way blocks it. -/
theorem leadsNowhere_iff : LeadsNowhere (t.walk l names) ↔ ∃ s ∈ stops l names, t.Blocks s := by
  induction names generalizing l with
  | nil => simp [LeadsNowhere, walk, stops]
  | cons c cs ih =>
    rw [walk, stops]
    split
    · exact ih
    · split
      · simp [LeadsNowhere]
      · rw [List.exists_mem_cons_iff, ← ih]
        cases hnode : t.node? (l ++ [c]) with
        | none =>
          refine iff_of_true ?_ (.inl (blocks_of_none hnode))
          by_cases hcs : cs = [] <;> simp [hcs, LeadsNowhere]
        | some node =>
          cases node with
          | dir => exact (or_iff_right (not_blocks_of_dir hnode)).symm
          | file id content =>
            rw [blocks_iff_of_file hnode]
            cases cs with
            | nil => simp [LeadsNowhere, walk]
            | cons => simp [LeadsNowhere]

/-- There is nothing at a path exactly if something blocks its way; or the path holds a zero
    character and leads nowhere anyway. -/
theorem exists?_eq_false_iff : t.exists? p = .ok false ↔ '\x00' ∈ p.text ∨
    Text.byteLength p.text ≤ longestPath ∧ ∃ s ∈ stops (t.start p) p.parts, t.Blocks s := by
  rw [← leadsNowhere_iff, start, exists?, find]
  by_cases hnull : '\x00' ∈ p.text
  · simp [hnull]
  · by_cases hlong : longestPath < Text.byteLength p.text
    · simp [hnull, hlong, Nat.not_le.2 hlong]
    · rw [if_neg hnull, if_neg hlong]
      simp only [hnull, Nat.not_lt.1 hlong, false_or, true_and]
      cases t.walk _ p.parts with
      | ok place => cases place <;> simp [LeadsNowhere]
      | error why => cases why <;> simp [LeadsNowhere]

/-! ## Making directories on the way -/

/-- What is passed on the way to a path is passed on the way over it. -/
theorem exists_stop_of_leadsOver {q : Path} (hq : LeadsOver p q)
    (hs : s ∈ stops (t.start q) q.parts) :
    ∃ s' ∈ stops (t.start p) p.parts, s'.place = s.place := by
  obtain ⟨hanchor, more, hparts⟩ := hq
  have hstart : t.start q = t.start p := by rw [start, start, Path.isRelative, hanchor]; rfl
  rw [hstart] at hs
  rw [← hparts]
  exact exists_stop_append hs

/-- Making a directory makes directories that were missing on its way, and nothing else. -/
theorem node?_makeDirs (t : FileTree) (p : Path) (l : Location) :
    (t.makeDirs p).2.node? l = t.node? l ∨
      t.node? l = none ∧ ∃ s ∈ stops (t.start p) p.parts, s.place = l := by
  refine (makeDirs_induct (p := p) (P := fun t' => t'.here = t.here ∧ (t'.node? l = t.node? l ∨
    t.node? l = none ∧ ∃ s ∈ stops (t.start p) p.parts, s.place = l)) ⟨rfl, .inl rfl⟩ ?_).2
  rintro t' q v hq hv ⟨hhere, h⟩
  refine ⟨hhere, ?_⟩
  rw [node?_addDir]
  split
  · subst l
    obtain ⟨hnull, hlong, hleads⟩ := find_eq_ok_iff.1 hv
    obtain ⟨s, hs, rfl⟩ := hleads.exists_stop_of_vacant
    have hstart : t'.start p = t.start p := by rw [start, start, hhere]
    rcases h with h | h
    · exact .inr ⟨by rw [← h, hleads.node?_of_vacant.1], hstart ▸ exists_stop_of_leadsOver hq hs⟩
    · exact .inr h
  · exact h

/-- When a directory is made, the stops on its way do not block any more, and the others do as
    before. -/
theorem blocks_makeDirs_iff (h : t.makeDirs p = (.ok (), t')) : t'.Blocks s ↔
    t.Blocks s ∧ ¬ ∃ s' ∈ stops (t.start p) p.parts, s'.place = s.place := by
  have hnode := node?_makeDirs t p s.place
  have hgrown : Grows (fun _ => True) t (t.makeDirs p).2 := grows_makeDirs t p
  rw [h] at hnode hgrown
  by_cases hway : ∃ s' ∈ stops (t.start p) p.parts, s'.place = s.place
  · refine iff_of_false ?_ fun hs => hs.2 hway
    obtain ⟨s', hs', hplace⟩ := hway
    obtain ⟨d, hd⟩ := find_of_makeDirs h
    have hstart : t'.start p = t.start p := by rw [start, start, hgrown.here]
    refine not_blocks_of_dir ?_
    rw [← hplace]
    exact (find_eq_ok_iff.1 hd).2.2.node?_of_mem_stops (hstart ▸ hs')
  · rw [and_iff_left hway]
    exact blocks_congr (hnode.resolve_right fun hs => hway hs.2)

/-! ## Making one thing in a directory that is there -/

/-- Whether something can be made at a path, which leads to a free place. -/
def IsFree (t : FileTree) (p : Path) (l : Location) : Prop :=
  t.find p = .ok (.vacant l) ∧ t.refuses .making l = none

theorem isFree_below_iff (hp : t.find p = .ok (.dir d)) (hc : IsName c) :
    t.IsFree (p.below [c]) l ↔ (p.below [c]).IsUsable ∧ l = d ++ [c] ∧ t.node? l = none ∧
      t.refuses .making l = none := by
  rw [IsFree, find_below_iff hp (List.cons_ne_nil c []), leads_singleton_vacant_iff hc]
  simp only [and_assoc]

/-- A directory that is made in one that is there does not block any more, and all else does as
    before. -/
theorem blocks_makeDirs_below_iff (hp : t.find p = .ok (.dir d)) (hc : IsName c) :
    (t.makeDirs (p.below [c])).2.Blocks s ↔
      t.Blocks s ∧ ¬ t.IsFree (p.below [c]) s.place := by
  by_cases hfree : t.IsFree (p.below [c]) s.place
  · rw [makeDirs_of_vacant hfree.1 hfree.2]
    refine iff_of_false (not_blocks_of_dir ?_) fun hs => hs.2 hfree
    rw [node?_addDir, if_pos rfl]
  · rw [and_iff_left hfree]
    obtain h | ⟨hvacant, hmaking, h⟩ := makeDirs_below_cases hp hc
    · rw [h]
    · rw [h]
      refine blocks_congr ?_
      rw [node?_addDir, if_neg]
      intro hplace
      exact hfree (hplace ▸ ⟨hvacant, hmaking⟩)

/-- Making a directory leaves what can be made beside it. -/
theorem isFree_makeDirs_below_iff {c' : Text} (hp : t.find p = .ok (.dir d)) (hc : IsName c)
    (hc' : IsName c') (hne : c' ≠ c) :
    (t.makeDirs (p.below [c])).2.IsFree (p.below [c']) l ↔ t.IsFree (p.below [c']) l := by
  have hgrown : Grows (fun _ => True) t (t.makeDirs (p.below [c])).2 := grows_makeDirs t _
  rw [isFree_below_iff (hgrown.find_dir hp) hc', isFree_below_iff hp hc', hgrown.refuses]
  refine and_congr_right fun _ => and_congr_right fun hl => ?_
  obtain h | ⟨-, -, h⟩ := makeDirs_below_cases hp hc
  · rw [h]
  · rw [h, node?_addDir, if_neg (by simp [hl, hne])]

end FileTree

end PromptFill
