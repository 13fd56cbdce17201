/-
  Restoring the defaults.

  Restoring sets the values that a form starts with over those that are there.  Which value a key
  starts with is decided by the last placeholder with the key (`get?_initial`), and where it comes
  in by the first (`keys_initial`).  So restoring forgets what was entered for the keys of the form
  and nothing else.

  In a run of a form, values are stored for its keys, and defaults are restored.  No step changes
  the keys (`keys_apply`), and so restoring gives back what the form started with
  (`restore_eq_initial`).
-/
import PromptFill.Proofs.Table
import PromptFill.Proofs.Template.Missing

namespace PromptFill.Form

open Placeholder (key)

variable {ps : List Placeholder} {v : Values}

/-! ## The values a form starts with -/

/-- The last of the placeholders with a key. -/
def last? (ps : List Placeholder) (k : Text) : Option Placeholder :=
  (ps.filter fun p => p.key = k).getLast?

theorem last?_eq_none_iff {k : Text} : last? ps k = none ↔ k ∉ ps.map key := by
  rw [last?, List.getLast?_eq_none_iff, List.filter_eq_nil_iff]
  simp

theorem exists_last? {k : Text} (hk : k ∈ ps.map key) : ∃ p, last? ps k = some p :=
  Option.ne_none_iff_exists'.1 fun h => last?_eq_none_iff.1 h hk

theorem exists_of_last? {k : Text} {p : Placeholder} (h : last? ps k = some p) :
    ∃ before behind, ps = before ++ p :: behind ∧ p.key = k ∧ k ∉ behind.map key := by
  rw [last?, List.getLast?_eq_head?_reverse, ← List.filter_reverse, List.head?_filter,
    List.find?_eq_some_iff_append] at h
  obtain ⟨hk, behind, before, hps, hbehind⟩ := h
  refine ⟨before.reverse, behind.reverse, ?_, of_decide_eq_true hk, ?_⟩
  · rw [← List.reverse_reverse ps, hps]
    simp
  · intro hmem
    obtain ⟨q, hq, hqk⟩ := List.mem_map.1 hmem
    have hne := hbehind q (List.mem_reverse.1 hq)
    simp [hqk] at hne

theorem get?_initial (ps : List Placeholder) (k : Text) :
    (initial ps).get? k = (last? ps k).map fun p => some (initialValue p) := by
  rw [initial, Table.get?_ofList, List.filter_map, List.getLast?_map, Option.map_map]
  rfl

theorem keys_initial (ps : List Placeholder) : (initial ps).keys = (ps.map key).eraseDups := by
  rw [initial, Table.keys_ofList, Table.keys, List.map_map]
  rfl

theorem nodup_keys_initial (ps : List Placeholder) : (initial ps).keys.Nodup :=
  Table.nodup_keys_ofList _

theorem mem_keys_initial_iff {k : Text} : k ∈ (initial ps).keys ↔ k ∈ ps.map key := by
  rw [keys_initial, List.mem_eraseDups]

/-! ## Restoring -/

theorem get?_restore (v : Values) (ps : List Placeholder) (k : Text) :
    (restore v ps).get? k = ((initial ps).get? k).or (v.get? k) :=
  Table.get?_update (nodup_keys_initial ps) k

theorem keys_restore (v : Values) (ps : List Placeholder) :
    (restore v ps).keys = v.keys ++ (ps.map key).eraseDups.filter fun k => k ∉ v.keys := by
  rw [restore, Table.keys_update (nodup_keys_initial ps), keys_initial]
  exact congrArg _ (List.filter_congr fun k _ => decide_eq_decide.2 Iff.rfl)

theorem get?_restore_of_last? {k : Text} {p : Placeholder} (h : last? ps k = some p)
    (v : Values) : (restore v ps).get? k = some (some (initialValue p)) := by
  rw [get?_restore, get?_initial, h]
  rfl

theorem get?_restore_of_not_mem {k : Text} (h : k ∉ ps.map key) (v : Values) :
    (restore v ps).get? k = v.get? k := by
  rw [get?_restore, get?_initial, last?_eq_none_iff.2 h]
  rfl

theorem restore_restore (v : Values) (ps : List Placeholder) :
    restore (restore v ps) ps = restore v ps := by
  refine Table.update_of_get? fun p hp => ?_
  rw [get?_restore, (Table.get?_eq_some_iff (nodup_keys_initial ps)).2 hp]
  rfl

/-- What is missing after restoring does not hang on what was entered. -/
theorem missing_restore (v v' : Values) (ps : List Placeholder) :
    missing ps (restore v ps) = missing ps (restore v' ps) := by
  refine missing_congr fun p hp => Values.live?_congr ?_
  obtain ⟨q, hq⟩ := exists_last? (List.mem_map_of_mem hp)
  rw [get?_restore_of_last? hq, get?_restore_of_last? hq]

/-! ## Runs of a form -/

/-- What is done with the values of a form. -/
inductive Step where
  /-- Storing a value. -/
  | store (k : Text) (value : Option Text)
  /-- Restoring the defaults. -/
  | restore

/-- The values after a step. -/
def Step.apply (ps : List Placeholder) (v : Values) : Step → Values
  | store k value => v.set k value
  | restore => Form.restore v ps

/-- The values after some steps. -/
def after (ps : List Placeholder) (v : Values) (steps : List Step) : Values :=
  steps.foldl (Step.apply ps) v

/-- A step stores a value for a key of the form only. -/
def Step.IsWithin (ps : List Placeholder) (step : Step) : Prop :=
  ∀ k value, step = .store k value → k ∈ ps.map key

theorem keys_apply {step : Step} (hstep : step.IsWithin ps) (hv : v.keys = (initial ps).keys) :
    (step.apply ps v).keys = (initial ps).keys := by
  cases step with
  | store k value =>
    have hk : k ∈ v.keys := by
      rw [hv, mem_keys_initial_iff]
      exact hstep k value rfl
    rw [Step.apply, Table.keys_set, if_pos hk, hv]
  | restore =>
    have hold : ((ps.map key).eraseDups.filter fun k => k ∉ v.keys) = [] := by
      rw [hv, keys_initial, List.filter_eq_nil_iff]
      intro k hk
      simpa using List.mem_eraseDups.1 hk
    rw [Step.apply, keys_restore, hold, List.append_nil, hv]

theorem keys_after {steps : List Step} (hsteps : ∀ step ∈ steps, step.IsWithin ps)
    (hv : v.keys = (initial ps).keys) : (after ps v steps).keys = (initial ps).keys := by
  induction steps generalizing v with
  | nil => exact hv
  | cons step steps ih =>
    obtain ⟨hstep, hrest⟩ := List.forall_mem_cons.1 hsteps
    exact ih hrest (keys_apply hstep hv)

/-- Restoring values for the keys of the form gives back those that it started with. -/
theorem restore_eq_initial (hv : v.keys = (initial ps).keys) : restore v ps = initial ps := by
  have hwithin : Step.restore.IsWithin ps := fun _ _ h => by cases h
  have hkeys : (restore v ps).keys = (initial ps).keys := keys_apply hwithin hv
  refine Table.ext hkeys (hkeys ▸ nodup_keys_initial ps) fun k => ?_
  rw [get?_restore]
  by_cases hk : k ∈ (initial ps).keys
  · obtain ⟨a, ha⟩ := Option.ne_none_iff_exists'.1 fun h => Table.get?_eq_none_iff.1 h hk
    rw [ha]
    rfl
  · rw [Table.get?_eq_none_iff.2 hk, Table.get?_eq_none_iff.2 (hv ▸ hk)]
    rfl

/-- **Restoring the defaults.**  Keys that are not in the form keep their values, those in it get
    the value of the last placeholder with the key: its default, or the empty choice of a dropdown.
    Keys that are there keep their places, and the others are appended in the order in which they
    first come in the form.  Restoring twice is restoring once, and what is missing afterwards does
    not depend on what was there.  So if a form is started and values are stored for its keys and
    defaults restored, in any order, then the order of the keys stays, and every restoring gives
    back what the form started with. -/
theorem restore_keeps_places (ps : List Placeholder) (v : Values) :
    (∀ k ∉ ps.map key, (restore v ps).get? k = v.get? k) ∧
      (∀ k ∈ ps.map key, ∃ before p behind, ps = before ++ p :: behind ∧ p.key = k ∧
        k ∉ behind.map key ∧ (restore v ps).get? k = (initial ps).get? k ∧
        (initial ps).get? k = some (some (if p.kind = .dropdown then [] else p.defaultValue))) ∧
      (restore v ps).keys = v.keys ++ (ps.map key).eraseDups.filter (fun k => k ∉ v.keys) ∧
      restore (restore v ps) ps = restore v ps ∧
      (∀ v', missing ps (restore v ps) = missing ps (restore v' ps)) ∧
      ∀ steps, (∀ k value, .store k value ∈ steps → k ∈ ps.map key) →
        (after ps (initial ps) steps).keys = (initial ps).keys ∧
          after ps (initial ps) (steps ++ [.restore]) = initial ps := by
  refine ⟨fun k hk => get?_restore_of_not_mem hk v, fun k hk => ?_, keys_restore v ps,
    restore_restore v ps, fun v' => missing_restore v v' ps, fun steps hsteps => ?_⟩
  · obtain ⟨p, hp⟩ := exists_last? hk
    obtain ⟨before, behind, hps, hkey, hbehind⟩ := exists_of_last? hp
    have hinitial : (initial ps).get? k = some (some (initialValue p)) := by
      rw [get?_initial, hp]
      rfl
    refine ⟨before, p, behind, hps, hkey, hbehind, ?_, ?_⟩
    · rw [get?_restore_of_last? hp, hinitial]
    · rw [hinitial, initialValue, Placeholder.isDropdown]
      simp only [decide_eq_true_eq]
  · have hwithin : ∀ step ∈ steps, step.IsWithin ps := by
      rintro step hmem k value rfl
      exact hsteps k value hmem
    have hkeys := keys_after hwithin rfl
    refine ⟨hkeys, ?_⟩
    rw [after, List.foldl_append]
    exact restore_eq_initial hkeys

end PromptFill.Form
