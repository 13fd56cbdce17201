/-
  Which arguments are options, and what becomes of them.

  An argument by itself is an option without a text exactly if it abbreviates the option: from the
  first letter on that no other option has (`ofArgument_eq_option_iff`).  A text may be joined to
  each abbreviation (`ofArgument_joined`).  The arguments in front of the separator are taken one by
  one (`mem_tokens_iff`), and consuming them passes over no debugging option (`consume_debug_iff`).
  So debugging is asked for exactly if one of them abbreviates the option for it (`debug_of_parse`).
-/
import Mathlib.Tactic.SplitIfs
import PromptFill.CommandLine.Basic

namespace PromptFill.CommandLine

variable {arg : Text} {args : List Text} {o : Opt} {t : Token} {ts : List Token} {p p' : Progress}

/-! ## Abbreviations -/

/-- The least beginning of the long name of an option that no other option has. -/
def Opt.stem (o : Opt) : Text := o.long.take 3

/-- Whether an argument is a beginning of the long name of an option that no other has. -/
def Abbreviates (arg : Text) (o : Opt) : Prop := o.stem <+: arg ∧ arg <+: o.long

theorem abbreviates_long (o : Opt) : Abbreviates o.long o :=
  ⟨List.take_prefix 3 o.long, List.prefix_rfl⟩

/-- An abbreviation is one of a few beginnings of the long name. -/
theorem Abbreviates.exists_take (h : Abbreviates arg o) :
    ∃ n, (n = 3 ∨ n = 4 ∨ n = 5 ∨ n = 6 ∨ n = 7) ∧ arg = o.long.take n := by
  have hstem : o.stem.length = 3 := by cases o <;> rfl
  have hlong : o.long.length ≤ 7 := by cases o <;> decide
  have hleast := h.1.length_le
  have hmost := h.2.length_le
  exact ⟨arg.length, by omega, List.prefix_iff_eq_take.1 h.2⟩

theorem ofArgument_of_abbreviates (h : Abbreviates arg o) :
    Token.ofArgument arg = .ok (.option o none) := by
  obtain ⟨n, rfl | rfl | rfl | rfl | rfl, rfl⟩ := h.exists_take
  all_goals cases o <;> rfl

/-- An abbreviation before an equals sign joins the text behind the first one to the option. -/
theorem ofArgument_joined (value : Text) (h : Abbreviates arg o) :
    Token.ofArgument (arg ++ '=' :: value) = .ok (.option o (some value)) := by
  obtain ⟨n, rfl | rfl | rfl | rfl | rfl, rfl⟩ := h.exists_take
  all_goals cases o <;> rfl

/-- Two dashes alone begin every long name, so what begins only one of them goes on. -/
theorem abbreviates_of_filter {rest : Text}
    (h : (Opt.all.filter fun o => ('-' :: '-' :: rest).isPrefixOf o.long) = [o]) :
    Abbreviates ('-' :: '-' :: rest) o := by
  have ho : o ∈ Opt.all.filter fun o => ('-' :: '-' :: rest).isPrefixOf o.long := by
    rw [h]
    exact List.mem_singleton_self o
  have hbegins : '-' :: '-' :: rest <+: o.long :=
    List.isPrefixOf_iff_prefix.1 (List.mem_filter.1 ho).2
  refine ⟨?_, hbegins⟩
  cases rest with
  | nil => cases h
  | cons c rest =>
    refine List.prefix_of_prefix_length_le (List.take_prefix 3 o.long) hbegins ?_
    refine Nat.le_trans (List.length_take_le 3 o.long) ?_
    simp only [List.length_cons]
    omega

theorem abbreviates_of_abbreviated {o' : Opt} (h : abbreviated arg = [(o', .option o none)]) :
    Abbreviates arg o := by
  unfold abbreviated at h
  split at h
  · rename_i rest
    cases hcut : Text.cutAt '=' ('-' :: '-' :: rest) with
    | some p =>
      rw [hcut] at h
      obtain ⟨o₁, -, ho₁⟩ := List.map_eq_singleton_iff.1 h
      cases ho₁
    | none =>
      rw [hcut] at h
      obtain ⟨o₁, hfilter, ho₁⟩ := List.map_eq_singleton_iff.1 h
      cases ho₁
      exact abbreviates_of_filter hfilter
  · cases h
  · cases h

theorem eq_of_named? (h : named? arg = some (.option o none)) :
    arg = o.long ∨ o = .help ∧ arg = Opt.shortHelp := by
  rw [named?] at h
  split at h
  · rename_i o' hname
    cases h
    rw [Opt.ofName?] at hname
    split_ifs at hname with hshort
    · cases hname
      exact .inr ⟨rfl, hshort⟩
    · exact .inl ((by simpa using List.find?_some hname : o.long = arg).symm)
  · split at h
    · obtain ⟨o', -, ho'⟩ := Option.map_eq_some_iff.1 h
      rw [joinedTo] at ho'
      split_ifs at ho'
      cases ho'
    · cases h

theorem abbreviates_of_ofArgument (h : Token.ofArgument arg = .ok (.option o none)) :
    Abbreviates arg o ∨ o = .help ∧ arg = Opt.shortHelp := by
  unfold Token.ofArgument at h
  split at h
  · cases h
  · cases h
  · split at h
    · rename_i token hnamed
      cases h
      rcases eq_of_named? hnamed with hlong | hshort
      · rw [hlong]
        exact .inl (abbreviates_long o)
      · exact .inr hshort
    · split at h
      · rename_i o' token habbreviated
        cases h
        exact .inl (abbreviates_of_abbreviated habbreviated)
      · split at h <;> cases h
      · cases h
  · cases h

/-- An argument is an option without a text if it abbreviates it, or is the short name of help. -/
theorem ofArgument_eq_option_iff : Token.ofArgument arg = .ok (.option o none) ↔
    Abbreviates arg o ∨ o = .help ∧ arg = Opt.shortHelp := by
  refine ⟨abbreviates_of_ofArgument, ?_⟩
  rintro (h | ⟨rfl, rfl⟩)
  · exact ofArgument_of_abbreviates h
  · rfl

/-! ## The tokens of the arguments -/

/-- What is no operand and no separator is one of the arguments in front of the separator. -/
theorem mem_tokens_iff (h : tokens args = .ok ts) (hsep : t ≠ .separator)
    (hop : ∀ s, t ≠ .operand s) :
    t ∈ ts ↔ ∃ arg ∈ args.takeWhile (· ≠ separatorText), Token.ofArgument arg = .ok t := by
  induction args generalizing ts with
  | nil =>
    cases h
    simp
  | cons arg args ih =>
    rw [tokens] at h
    by_cases harg : arg = separatorText
    · rw [if_pos harg] at h
      cases h
      simp [harg, hsep, (hop _).symm]
    · rw [if_neg harg] at h
      rw [List.takeWhile_cons_of_pos (by simpa using harg)]
      cases htoken : Token.ofArgument arg with
      | error options =>
        rw [htoken] at h
        cases h
      | ok token =>
        rw [htoken] at h
        cases hrest : tokens args with
        | error e =>
          rw [hrest] at h
          cases h
        | ok ts' =>
          rw [hrest] at h
          cases h
          simp [ih hrest, htoken, eq_comm]

/-! ## The steps of parsing -/

/-- If two steps succeed one after the other, then each does. -/
theorem exists_of_bind_eq_ok {α β : Type} {x : Except Stop α} {f : α → Except Stop β} {b : β}
    (h : (x >>= f) = .ok b) : ∃ c, x = .ok c ∧ f c = .ok b := by
  cases x with
  | error e => cases h
  | ok c => exact ⟨c, rfl, h⟩

/-- The steps of parsing arguments that are accepted. -/
theorem of_parse {a : Arguments} (h : parse args = .ok a) :
    ∃ ts p, tokens args = .ok ts ∧ consume {} ts = .ok p ∧ p.finish = .ok a := by
  obtain ⟨ts, htokens, h⟩ := exists_of_bind_eq_ok h
  obtain ⟨p, hconsume, h⟩ := exists_of_bind_eq_ok h
  exact ⟨ts, p, htokens, hconsume, h⟩

/-- What was consumed is accepted if there is a template and nothing is left over. -/
theorem Progress.finish_eq_ok_iff {a : Arguments} : p.finish = .ok a ↔
    ∃ s, p.template = some s ∧ p.extras = [] ∧ a = ⟨Path.ofText s, p.title, p.debug⟩ := by
  rw [finish]
  cases p.template with
  | none => simp
  | some s => by_cases hextras : p.extras = [] <;> simp [hextras, eq_comm]

/-! ## Asking for debugging -/

/-- What is consumed asks for debugging as soon as the option for it is among it. -/
theorem consume_debug_iff (h : consume p ts = .ok p') :
    p'.debug = true ↔ p.debug = true ∨ .option .debug none ∈ ts := by
  -- of all clauses, only the one for the option without a text sets the mark
  fun_induction consume p ts
  all_goals simp_all [Progress.leave]

/-- **Asking for debugging.**  Arguments that are accepted ask for debugging exactly if one of those
    in front of the separator is the option for it or an abbreviation. -/
theorem debug_of_parse {a : Arguments} (h : parse args = .ok a) :
    a.debug = true ↔ ∃ arg ∈ args.takeWhile (· ≠ separatorText), Abbreviates arg .debug := by
  obtain ⟨ts, p, htokens, hconsume, hfinish⟩ := of_parse h
  obtain ⟨s, -, -, rfl⟩ := Progress.finish_eq_ok_iff.1 hfinish
  rw [consume_debug_iff hconsume, mem_tokens_iff htokens (by simp) (by simp)]
  simp [ofArgument_eq_option_iff]

end PromptFill.CommandLine
