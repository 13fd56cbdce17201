/-
  Setting the entries of one table over another.

  If no key is repeated, setting an entry changes it in its place or appends it
  (`set_eq_map`, `set_eq_append`), and after all entries of `u` were set over `t` the keys of
  `t` stand first, with the entries of `u` where `u` has them, and what else is in `u` follows
  (`update_eq`).  Tables with the same keys in the same order and the same entries are equal
  (`ext`), so entries that are set twice are set as the second time (`update_update`).

  If keys are repeated in `u`, then the place of a new key is that of its first entry
  (`keys_update_eq`) and its entry is the last (`get?_update_eq`).
-/
import PromptFill.Table

namespace PromptFill.Table

variable {κ α : Type}

/-! ## Without repetitions -/

section eraseDups

variable [BEq κ] [LawfulBEq κ]

theorem eraseDups_filter (f : κ → Bool) :
    ∀ ks : List κ, (ks.filter f).eraseDups = ks.eraseDups.filter f
  | [] => rfl
  | k :: ks => by
    have ih := eraseDups_filter f (ks.filter fun j => !j == k)
    rw [List.eraseDups_cons]
    by_cases hk : f k = true
    · rw [List.filter_cons_of_pos hk, List.filter_cons_of_pos hk, List.eraseDups_cons, ← ih,
        List.filter_filter, List.filter_filter]
      simp only [Bool.and_comm]
    · -- what `f` lets through is another key
      have hne : (ks.filter fun j => !j == k).filter f = ks.filter f := by
        rw [List.filter_filter]
        refine List.filter_congr fun j _ => ?_
        cases hj : j == k with
        | true => simp [eq_of_beq hj, hk]
        | false => simp
      rw [List.filter_cons_of_neg hk, List.filter_cons_of_neg hk, ← ih, hne]
termination_by ks => ks.length
decreasing_by exact Nat.lt_succ_of_le (List.length_filter_le _ ks)

theorem eraseDups_of_nodup {ks : List κ} (h : ks.Nodup) : ks.eraseDups = ks := by
  induction ks with
  | nil => rfl
  | cons k ks ih =>
    obtain ⟨hk, hks⟩ := List.nodup_cons.1 h
    have hall : (ks.filter fun j => !j == k) = ks :=
      List.filter_eq_self.2 fun j hj => by
        have hne : j ≠ k := fun he => hk (he ▸ hj)
        simp [hne]
    rw [List.eraseDups_cons, hall, ih hks]

end eraseDups

/-! ## Setting entries -/

theorem keys_cons (p : κ × α) (t : Table κ α) : keys (p :: t) = p.1 :: t.keys := rfl

variable [DecidableEq κ] {t u : Table κ α} {k : κ} {a : α}

theorem get?_cons (p : κ × α) (t : Table κ α) (k : κ) :
    get? (p :: t) k = if p.1 = k then some p.2 else t.get? k := rfl

theorem mem_of_get? (h : t.get? k = some a) : (k, a) ∈ t := by
  induction t with
  | nil => cases h
  | cons p t ih =>
    rw [get?_cons] at h
    split at h
    · rename_i hk
      cases h
      exact List.mem_cons.2 (.inl (by rw [← hk]))
    · exact List.mem_cons_of_mem p (ih h)

/-- Without repeated keys, what is found is what stands in the table. -/
theorem get?_eq_some_iff (ht : t.keys.Nodup) : t.get? k = some a ↔ (k, a) ∈ t := by
  refine ⟨mem_of_get?, fun h => ?_⟩
  induction t with
  | nil => cases h
  | cons p t ih =>
    obtain ⟨hp, ht⟩ := List.nodup_cons.1 ht
    rw [get?_cons]
    rcases List.mem_cons.1 h with rfl | h
    · exact if_pos rfl
    · have hne : p.1 ≠ k := fun he => hp (he ▸ List.mem_map_of_mem h)
      rw [if_neg hne, ih ht h]

theorem get?_unset (t : Table κ α) (j k : κ) :
    (t.unset k).get? j = if j = k then none else t.get? j := by
  induction t with
  | nil => simp [unset, get?]
  | cons p t ih =>
    rw [unset] at ih ⊢
    by_cases hp : p.1 = k
    · rw [List.filter_cons_of_neg (by simp [hp]), ih, get?_cons, hp]
      by_cases hj : j = k
      · rw [if_pos hj, if_pos hj]
      · rw [if_neg hj, if_neg hj, if_neg (Ne.symm hj)]
    · rw [List.filter_cons_of_pos (by simp [hp]), get?_cons, get?_cons, ih]
      by_cases hj : j = k
      · rw [if_pos hj, if_pos hj, if_neg (hj ▸ hp)]
      · rw [if_neg hj, if_neg hj]

theorem set_eq_append (h : k ∉ t.keys) : t.set k a = t ++ [(k, a)] := by
  induction t with
  | nil => rfl
  | cons p t ih =>
    rw [keys_cons, List.mem_cons, not_or] at h
    rw [set, if_neg (Ne.symm h.1), ih h.2, List.cons_append]

theorem set_eq_map (ht : t.keys.Nodup) (h : k ∈ t.keys) :
    t.set k a = t.map fun p => if p.1 = k then (k, a) else p := by
  induction t with
  | nil => cases h
  | cons p t ih =>
    obtain ⟨hp, ht⟩ := List.nodup_cons.1 ht
    by_cases hk : p.1 = k
    · -- the key stands here, so the rest of the table does not have it
      have hrest : t.map (fun q => if q.1 = k then (k, a) else q) = t.map id := by
        refine List.map_congr_left fun q hq => if_neg fun he => hp ?_
        rw [hk, ← he]
        exact List.mem_map_of_mem hq
      rw [set, if_pos hk, List.map_cons, if_pos hk, hrest, List.map_id, hk]
    · have hmem : k ∈ keys t := (List.mem_cons.1 h).resolve_left (Ne.symm hk)
      rw [set, if_neg hk, List.map_cons, if_neg hk, ih ht hmem]

theorem nodup_keys_set (ht : t.keys.Nodup) : (t.set k a).keys.Nodup := by
  rw [keys_set]
  split
  · exact ht
  · rename_i h
    exact List.nodup_append.2 ⟨ht, List.nodup_cons.2 ⟨List.not_mem_nil, List.nodup_nil⟩,
      fun x hx y hy => by
        rw [List.mem_singleton] at hy
        rintro rfl
        exact h (hy ▸ hx)⟩

/-- An entry of the table is one that it had, or the one that was set. -/
theorem mem_set {p : κ × α} (h : p ∈ t.set k a) : p ∈ t ∨ p = (k, a) := by
  induction t with
  | nil => exact .inr (List.mem_singleton.1 h)
  | cons q t ih =>
    rw [set] at h
    split at h
    · rename_i hq
      rcases List.mem_cons.1 h with rfl | h
      · exact .inr (by rw [hq])
      · exact .inl (List.mem_cons_of_mem q h)
    · rcases List.mem_cons.1 h with rfl | h
      · exact .inl List.mem_cons_self
      · exact (ih h).imp_left (List.mem_cons_of_mem q)

theorem update_cons (t : Table κ α) (p : κ × α) (u : Table κ α) :
    t.update (p :: u) = (t.set p.1 p.2).update u := rfl

theorem nodup_keys_update (ht : t.keys.Nodup) (u : Table κ α) : (t.update u).keys.Nodup := by
  induction u generalizing t with
  | nil => exact ht
  | cons q u ih => exact ih (nodup_keys_set ht)

theorem mem_update {p : κ × α} (h : p ∈ t.update u) : p ∈ t ∨ p ∈ u := by
  induction u generalizing t with
  | nil => exact .inl h
  | cons q u ih =>
    rcases ih h with h | h
    · refine (mem_set h).imp_right fun h => ?_
      rw [h]
      exact List.mem_cons_self
    · exact .inr (List.mem_cons_of_mem q h)

/-- The keys of the table stand first, and the new ones follow in the order in which they come. -/
theorem keys_update_eq [BEq κ] [LawfulBEq κ] (t u : Table κ α) :
    (t.update u).keys = t.keys ++ (u.keys.filter fun k => k ∉ t.keys).eraseDups := by
  induction u generalizing t with
  | nil => simp [update, keys]
  | cons q u ih =>
    rw [update_cons, ih, keys_set, keys_cons]
    by_cases hq : q.1 ∈ t.keys
    · rw [if_pos hq, List.filter_cons_of_neg (by simpa using hq)]
    · have hrest : ((keys u).filter fun k => k ∉ t.keys ++ [q.1]) =
          ((keys u).filter fun k => k ∉ t.keys).filter fun k => !k == q.1 := by
        rw [List.filter_filter]
        refine List.filter_congr fun k _ => ?_
        by_cases hk : k = q.1
        · simp [hk]
        · simp [hk]
      rw [if_neg hq, List.filter_cons_of_pos (by simpa using hq), List.eraseDups_cons, hrest,
        List.append_assoc, List.singleton_append]

/-- The last entry that a key has in the update counts. -/
theorem get?_update_eq (t u : Table κ α) (k : κ) :
    (t.update u).get? k = ((u.filter fun p => p.1 = k).getLast?.map Prod.snd).or (t.get? k) := by
  induction u generalizing t with
  | nil => rfl
  | cons q u ih =>
    rw [update_cons, ih, get?_set]
    by_cases hk : q.1 = k
    · rw [List.filter_cons_of_pos (by simpa using hk), List.getLast?_cons, if_pos hk.symm]
      cases (u.filter fun p => p.1 = k).getLast? <;> rfl
    · rw [List.filter_cons_of_neg (by simpa using hk), if_neg (Ne.symm hk)]

/-- The entries of `u` over those of `t`. -/
theorem update_eq (ht : t.keys.Nodup) (hu : u.keys.Nodup) :
    t.update u =
      t.map (fun p => (p.1, (u.get? p.1).getD p.2)) ++ u.filter fun p => p.1 ∉ t.keys := by
  induction u generalizing t with
  | nil => simp [update, get?]
  | cons q u ih =>
    obtain ⟨hq, hu⟩ := List.nodup_cons.1 hu
    have hnone : get? u q.1 = none := get?_eq_none_iff.2 hq
    rw [update_cons, ih (nodup_keys_set ht) hu, keys_set]
    by_cases hk : q.1 ∈ t.keys
    · rw [set_eq_map ht hk, if_pos hk, List.map_map, List.filter_cons_of_neg (by simpa using hk)]
      congr 1
      refine List.map_congr_left fun p _ => ?_
      by_cases hp : p.1 = q.1
      · simp [get?_cons, hp, hnone]
      · simp [get?_cons, hp, Ne.symm hp]
    · have hfilter : (u.filter fun p => p.1 ∉ t.keys ++ [q.1]) =
          u.filter fun p => p.1 ∉ t.keys := by
        refine List.filter_congr fun p hp => ?_
        have hne : p.1 ≠ q.1 := fun he => hq (he ▸ List.mem_map_of_mem hp)
        simp [hne]
      have hmap : (t.map fun p => (p.1, (get? u p.1).getD p.2)) =
          t.map fun p => (p.1, (get? (q :: u) p.1).getD p.2) := by
        refine List.map_congr_left fun p hp => ?_
        have hne : q.1 ≠ p.1 := fun he => hk (he ▸ List.mem_map_of_mem hp)
        rw [get?_cons, if_neg hne]
      rw [set_eq_append hk, if_neg hk, hfilter, List.map_append, hmap, List.append_assoc,
        List.filter_cons_of_pos (by simpa using hk), List.map_singleton, hnone]
      rfl

/-! ## Tables by their keys and entries -/

theorem set_set (t : Table κ α) (k : κ) (a b : α) : (t.set k a).set k b = t.set k b := by
  induction t with
  | nil => simp [set]
  | cons p t ih =>
    by_cases h : p.1 = k
    · simp [set, h]
    · simp [set, h, ih]

/-- Setting the entry that a key has changes nothing. -/
theorem set_of_get? (h : t.get? k = some a) : t.set k a = t := by
  induction t with
  | nil => cases h
  | cons p t ih =>
    rw [get?_cons] at h
    by_cases hk : p.1 = k
    · rw [if_pos hk, Option.some.injEq] at h
      rw [set, if_pos hk, ← h]
    · rw [if_neg hk] at h
      rw [set, if_neg hk, ih h]

/-- Entries that the table has already change nothing. -/
theorem update_of_get? (h : ∀ p ∈ u, t.get? p.1 = some p.2) : t.update u = t := by
  induction u with
  | nil => rfl
  | cons q u ih =>
    obtain ⟨hq, hu⟩ := List.forall_mem_cons.1 h
    rw [update_cons, set_of_get? hq, ih hu]

/-- Without repeated keys, the keys in order and the entries make up a table. -/
theorem ext (hkeys : t.keys = u.keys) (ht : t.keys.Nodup) (h : ∀ k, t.get? k = u.get? k) :
    t = u := by
  induction t generalizing u with
  | nil => exact (List.map_eq_nil_iff.1 hkeys.symm).symm
  | cons p t ih =>
    obtain ⟨q, u, rfl⟩ : ∃ q v, u = q :: v :=
      List.exists_cons_of_ne_nil fun hu => by rw [hu] at hkeys; cases hkeys
    rw [keys_cons, keys_cons, List.cons.injEq] at hkeys
    obtain ⟨hp, ht⟩ := List.nodup_cons.1 ht
    have hentry : p = q := by
      have hk := h p.1
      rw [get?_cons, get?_cons, if_pos rfl, if_pos hkeys.1.symm, Option.some.injEq] at hk
      exact Prod.ext hkeys.1 hk
    rw [hentry, ih hkeys.2 ht fun k => ?_]
    by_cases hk : p.1 = k
    · -- the key stands in front, and in neither rest
      rw [get?_eq_none_iff.2 (hk ▸ hp), get?_eq_none_iff.2 (hk ▸ hkeys.2 ▸ hp)]
    · have hrest := h k
      rwa [get?_cons, get?_cons, if_neg hk, if_neg (hentry ▸ hk)] at hrest

theorem get?_update (hu : u.keys.Nodup) (k : κ) :
    (t.update u).get? k = (u.get? k).or (t.get? k) := by
  induction u generalizing t with
  | nil => rfl
  | cons q u ih =>
    obtain ⟨hq, hu⟩ := List.nodup_cons.1 hu
    rw [update_cons, ih hu, get?_set, get?_cons]
    by_cases hk : q.1 = k
    · rw [if_pos hk.symm, if_pos hk, get?_eq_none_iff.2 (hk ▸ hq)]
      rfl
    · rw [if_neg (Ne.symm hk), if_neg hk]

theorem keys_update (hu : u.keys.Nodup) :
    (t.update u).keys = t.keys ++ u.keys.filter fun k => k ∉ t.keys := by
  rw [keys_update_eq, eraseDups_of_nodup (hu.filter _)]

/-- Setting an entry can be put off until a table was updated. -/
theorem update_set (ht : t.keys.Nodup) (hu : u.keys.Nodup) (hk : k ∈ t.keys) :
    t.update (u.set k a) = (t.update u).set k a := by
  have hmem : k ∈ (t.update u).keys := by
    rw [keys_update hu]
    exact List.mem_append_left _ hk
  refine ext ?_ (nodup_keys_update ht _) fun j => ?_
  · rw [keys_set, if_pos hmem, keys_update (nodup_keys_set hu), keys_update hu, keys_set]
    split
    · rfl
    · rw [List.filter_append]
      simp [hk]
  · rw [get?_update (nodup_keys_set hu), get?_set, get?_set, get?_update hu]
    split <;> rfl

/-- Updating a second time changes nothing. -/
theorem update_update (ht : t.keys.Nodup) (hu : u.keys.Nodup) :
    t.update (t.update u) = t.update u := by
  have hnodup := nodup_keys_update ht u
  refine ext ?_ (nodup_keys_update ht _) fun j => ?_
  · rw [keys_update hnodup, keys_update hu, List.filter_append, List.filter_filter]
    simp
  · rw [get?_update hnodup, get?_update hu]
    cases u.get? j <;> cases t.get? j <;> rfl

theorem ofList_of_nodup (hu : u.keys.Nodup) : ofList u = u := by
  have hnil : (keys ([] : Table κ α)).Nodup := List.nodup_nil
  rw [ofList, update_eq hnil hu]
  simp [keys]

theorem keys_ofList [BEq κ] [LawfulBEq κ] (u : List (κ × α)) : (ofList u).keys = (keys u).eraseDups := by
  have hall : ((keys u).filter fun k => k ∉ keys ([] : Table κ α)) = keys u :=
    List.filter_eq_self.2 fun k _ => decide_eq_true List.not_mem_nil
  rw [ofList, keys_update_eq, hall, keys, List.map_nil, List.nil_append]

theorem get?_ofList (u : List (κ × α)) (k : κ) :
    (ofList u).get? k = (u.filter fun p => p.1 = k).getLast?.map Prod.snd := by
  rw [ofList, get?_update_eq, get?, Option.or_none]

theorem nodup_keys_ofList (u : List (κ × α)) : (ofList u).keys.Nodup :=
  nodup_keys_update (show (keys ([] : Table κ α)).Nodup from List.nodup_nil) u

theorem mem_of_mem_ofList {p : κ × α} {u : List (κ × α)} (h : p ∈ ofList u) : p ∈ u :=
  (mem_update h).resolve_left List.not_mem_nil

end PromptFill.Table
