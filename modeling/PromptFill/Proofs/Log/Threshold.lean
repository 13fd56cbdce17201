/-
  The level that counts for a logger once logging is set up.

  Loggers form a hierarchy by their dotted names.  `enclosing` lists the known loggers above a
  logger, and `IsBelow` is the hierarchy: a logger below another one continues its name with a dot
  (`IsBelow.isPrefix`), and every such name is that of a logger below it, unless a second dot
  follows at once (`isBelow_of_isPrefix`).

  Setting up gives levels to the root and to three loggers.  Two of these have the level of the
  root, so that only the logger of the configuration and those below it differ from the others:
  `Tuned.effectiveLevel_eq` says that `threshold` is the level that counts.
-/
import Mathlib.Tactic.ByContra
import Mathlib.Tactic.SplitIfs
import PromptFill.Log.Setup
import PromptFill.Proofs.Log.Frame
import PromptFill.Proofs.Table

namespace PromptFill.Logging

variable {known : List Text} {top name : Text}

/-! ## The hierarchy of loggers -/

/-- The known loggers that enclose a logger, the nearest first.  Its name is read from its end:
    what stands before a dot is the name of an enclosing logger if it is known, and if not, the
    character before the dot is passed over. -/
def enclosing (known : List Text) : (passOver : Bool) → Text → List Text
  | _, [] => []
  | true, _ :: s => enclosing known false s
  | false, c :: s =>
    if c = '.' ∧ s ≠ [] then
      if known.contains s.reverse then s.reverse :: enclosing known false s
      else enclosing known true s
    else enclosing known false s

/-- Whether a logger is below another one in the hierarchy of the known loggers. -/
def IsBelow (known : List Text) (name top : Text) : Prop :=
  top ∈ enclosing known false name.reverse

instance : Decidable (IsBelow known name top) := inferInstanceAs (Decidable (_ ∈ _))

theorem isPrefix_of_mem_enclosing {passOver : Bool} {s : Text}
    (h : top ∈ enclosing known passOver s) : (top ++ ['.']) <+: s.reverse := by
  induction s generalizing passOver with
  | nil => cases passOver <;> cases h
  | cons c s ih =>
    have hmore {passOver : Bool} (h : top ∈ enclosing known passOver s) :
        (top ++ ['.']) <+: (c :: s).reverse := by
      rw [List.reverse_cons]
      exact (ih h).trans (List.prefix_append _ _)
    cases passOver with
    | true => exact hmore h
    | false =>
      rw [enclosing] at h
      split_ifs at h with hdot hknown
      · rcases List.mem_cons.1 h with rfl | h
        · exact ⟨[], by rw [List.append_nil, List.reverse_cons, hdot.1]⟩
        · exact hmore h
      · exact hmore h
      · exact hmore h

/-- The name of a logger below another one continues its name with a dot. -/
theorem IsBelow.isPrefix (h : IsBelow known name top) : (top ++ ['.']) <+: name := by
  have hname := isPrefix_of_mem_enclosing h
  rwa [List.reverse_reverse] at hname

/-- The logger of the configuration. -/
def configLogger : Text := "src.config".toList

/-- The least level of the records that count for a logger: information for the logger of the
    configuration and those below it, and the level of the root for all others. -/
def threshold (debug : Bool) (known : List Text) (name : Text) : Level :=
  if name = configLogger ∨ IsBelow known name configLogger then Level.info else mainLevel debug

theorem mainLevel_le_threshold (debug : Bool) (known : List Text) (name : Text) :
    mainLevel debug ≤ threshold debug known name := by
  rw [threshold]
  split_ifs
  · cases debug <;> decide
  · exact Int.le_refl _

theorem threshold_le_info (debug : Bool) (known : List Text) (name : Text) :
    threshold debug known name ≤ Level.info := by
  rw [threshold]
  split_ifs
  · exact Int.le_refl _
  · cases debug <;> decide

theorem threshold_of_not_isPrefix {debug : Bool} (hne : name ≠ configLogger)
    (h : ¬ (configLogger ++ ['.']) <+: name) : threshold debug known name = mainLevel debug :=
  if_neg fun hor => hor.elim hne fun hb => h hb.isPrefix

variable {debug : Bool} {l : Logging}

/-- Which loggers are given levels, and that all but one are given that of the root. -/
theorem moduleLevel_cases (debug : Bool) (name : Text) :
    ((moduleLevels debug).get? name).getD 0 = 0 ∧ name ≠ configLogger ∨
      ((moduleLevels debug).get? name).getD 0 = Level.info ∧ name = configLogger ∨
      ((moduleLevels debug).get? name).getD 0 = mainLevel debug ∧ name ≠ configLogger ∧
        ¬ (configLogger ++ ['.']) <+: name := by
  rw [moduleLevels, Table.get?_cons, Table.get?_cons, Table.get?_cons]
  split_ifs with hplaceholders hui hconfig
  · rw [← hplaceholders]
    exact .inr (.inr ⟨rfl, by cases debug <;> decide, by cases debug <;> decide⟩)
  · rw [← hui]
    exact .inr (.inr ⟨rfl, by cases debug <;> decide, by cases debug <;> decide⟩)
  · exact .inr (.inl ⟨rfl, hconfig.symm⟩)
  · exact .inl ⟨rfl, Ne.symm hconfig⟩

/-- Asking for a logger gives no level to any. -/
theorem getD_get?_ask (l : Logging) (name other : Text) :
    ((l.ask name).loggers.get? other).getD 0 = (l.loggers.get? other).getD 0 := by
  rw [ask]
  split_ifs with h
  · rfl
  · rw [Table.get?_set]
    split_ifs with hother
    · rw [hother, Table.get?_eq_none_iff.2 (not_or.1 h).2]
      rfl
    · rfl

/-- The loggers that are given levels. -/
def tunedLoggers : List Text := (moduleLevels true).keys

theorem get?_moduleLevels_eq_none_iff :
    (moduleLevels debug).get? name = none ↔ name ∉ tunedLoggers := Table.get?_eq_none_iff

/-- Whether no loggers have levels of their own but those that setting up gives levels to. -/
def Regular (l : Logging) : Prop :=
  ∀ name, name ∉ tunedLoggers → (l.loggers.get? name).getD 0 = 0

theorem Regular.ask (h : l.Regular) (name : Text) : (l.ask name).Regular := by
  intro other hnot
  rw [getD_get?_ask]
  exact h other hnot

/-- The root has its level, and the loggers that are given levels have theirs. -/
structure Tuned (debug : Bool) (l : Logging) : Prop where
  rootLevel : l.rootLevel = mainLevel debug
  own : ∀ name, (l.loggers.get? name).getD 0 = ((moduleLevels debug).get? name).getD 0

/-- Setting up replaces the levels of every setting up before it. -/
theorem Regular.configured (h : l.Regular) (debug : Bool) (id : Nat) :
    (l.configured debug id).Tuned debug := by
  refine ⟨rfl, fun name => ?_⟩
  have hkeys : (moduleLevels debug).keys.Nodup := by cases debug <;> decide
  rw [Logging.configured, Table.get?_update hkeys]
  cases hget : (moduleLevels debug).get? name with
  | none => exact h name (get?_moduleLevels_eq_none_iff.1 hget)
  | some level => rfl

namespace Tuned

theorem ask (h : l.Tuned debug) (name : Text) : (l.ask name).Tuned debug := by
  refine ⟨?_, fun other => ?_⟩
  · rw [rootLevel_ask, h.rootLevel]
  · rw [getD_get?_ask, h.own]

theorem regular (h : l.Tuned debug) : l.Regular := by
  intro name hnot
  rw [h.own, get?_moduleLevels_eq_none_iff.2 hnot]
  rfl

theorem inherited_eq (h : l.Tuned debug) (passOver : Bool) (s : Text) :
    l.inherited passOver s =
      if configLogger ∈ enclosing l.loggers.keys passOver s then Level.info
      else mainLevel debug := by
  induction s generalizing passOver with
  | nil => cases passOver <;> exact h.rootLevel
  | cons c s ih =>
    cases passOver with
    | true => exact ih false
    | false =>
      rw [inherited, enclosing]
      by_cases hdot : c = '.' ∧ s ≠ []
      · rw [if_pos hdot, if_pos hdot]
        cases hget : l.loggers.get? s.reverse with
        | none =>
          rw [if_neg (mt List.contains_iff_mem.1 (Table.get?_eq_none_iff.1 hget))]
          exact ih true
        | some level =>
          have hmem : s.reverse ∈ l.loggers.keys := by
            by_contra hnot
            rw [Table.get?_eq_none_iff.2 hnot] at hget
            cases hget
          have hown := h.own s.reverse
          rw [hget, Option.getD_some] at hown
          rw [if_pos (List.contains_iff_mem.2 hmem)]
          dsimp only
          obtain ⟨hlevel, hne⟩ | ⟨hlevel, hconfig⟩ | ⟨hlevel, hne, hbelow⟩ :=
            moduleLevel_cases debug s.reverse
          · rw [if_pos (hown.trans hlevel), ih false]
            simp [Ne.symm hne]
          · rw [if_neg (by rw [hown, hlevel]; decide), if_pos (by rw [hconfig]; simp), hown, hlevel]
          · -- nothing that encloses this logger is the logger of the configuration
            have hnot : configLogger ∉ s.reverse :: enclosing l.loggers.keys false s := by
              rw [List.mem_cons, not_or]
              exact ⟨Ne.symm hne, fun hm => hbelow (isPrefix_of_mem_enclosing hm)⟩
            rw [if_neg (by rw [hown, hlevel]; cases debug <;> decide), if_neg hnot, hown, hlevel]
      · rw [if_neg hdot, if_neg hdot]
        exact ih false

/-- The level that counts for a logger is its threshold. -/
theorem effectiveLevel_eq (h : l.Tuned debug) (name : Text) :
    l.effectiveLevel name = threshold debug l.loggers.keys name := by
  rw [effectiveLevel]
  split_ifs with hroot hown
  · subst hroot
    rw [h.rootLevel, threshold_of_not_isPrefix (by decide) (by decide)]
  · rw [h.own] at hown
    have hne : name ≠ configLogger := by
      rintro rfl
      exact absurd hown (by cases debug <;> decide)
    rw [h.inherited_eq, threshold]
    simp only [hne, false_or]
    rfl
  · rw [h.own] at hown ⊢
    obtain ⟨hlevel, -⟩ | ⟨hlevel, hconfig⟩ | ⟨hlevel, hne, hbelow⟩ := moduleLevel_cases debug name
    · exact absurd hlevel hown
    · rw [hlevel, threshold, if_pos (.inl hconfig)]
    · rw [hlevel, threshold_of_not_isPrefix hne hbelow]

end Tuned

end PromptFill.Logging
