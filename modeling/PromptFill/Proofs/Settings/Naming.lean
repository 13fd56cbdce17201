/-
  Which scheme a stored value names.

  Any value may be stored for the colour scheme.  `Tells` says how telling the scheme ends for each
  of them: the name of a scheme gives that scheme, and what names none gives the default with a
  warning.  But a list or an object with something in it cannot be looked up among the names, and
  an integer that is too long cannot be shown in the warning, and these are faults.

  No such integer is ever loaded from a file.  For the rest it makes no difference whether settings
  are given or loaded (`loadScheme_tells`).
-/
import PromptFill.Proofs.Settings.Loading

namespace PromptFill

/-! ## Values and names -/

/-- Whether the value is a list or an object with something in it. -/
def Json.holdsItems : Json → Bool
  | .list items => !items.isEmpty
  | .object fields => !fields.isEmpty
  | _ => false

theorem Scheme.ofName?_eq_some_iff {name : Text} {s : Scheme} :
    Scheme.ofName? name = some s ↔ name = s.name := by
  constructor
  · intro h
    exact (of_decide_eq_true (List.find?_some (p := fun t : Scheme => t.name = name) h)).symm
  · rintro rfl
    exact ofName?_name s

theorem Scheme.ofName?_eq_none_iff {name : Text} :
    Scheme.ofName? name = none ↔ ∀ s : Scheme, name ≠ s.name := by
  rw [Option.eq_none_iff_forall_ne_some]
  exact forall_congr' fun s => not_congr ofName?_eq_some_iff

namespace Json

variable {v : Json}

theorem scheme?_string (name : Text) : scheme? (.string name) = .ok (Scheme.ofName? name) := by
  cases name with
  | nil => rfl
  | cons c name => rfl

theorem scheme?_of_holdsItems (h : v.holdsItems = true) :
    v.scheme? = .error (.notAName v.typeName) := by
  cases v with
  | list items => exact if_pos h
  | object fields => exact if_pos h
  | _ => cases h

/-- A value that is no text and holds nothing names no scheme. -/
theorem scheme?_of_not_string (hs : ∀ name, v ≠ .string name) (h : v.holdsItems = false) :
    v.scheme? = .ok none := by
  cases v with
  | string name => exact absurd rfl (hs name)
  | list items => exact if_neg (by rw [isTrue, ← holdsItems, h]; exact Bool.false_ne_true)
  | object fields => exact if_neg (by rw [isTrue, ← holdsItems, h]; exact Bool.false_ne_true)
  | _ => exact ite_self _

theorem scheme?_of_unknown (hs : ∀ s : Scheme, v ≠ .string s.name) (h : v.holdsItems = false) :
    v.scheme? = .ok none := by
  by_cases hstring : ∃ name, v = .string name
  · obtain ⟨name, rfl⟩ := hstring
    rw [scheme?_string, Scheme.ofName?_eq_none_iff.2 fun s he => hs s (by rw [he])]
  · exact scheme?_of_not_string (fun name he => hstring ⟨name, he⟩) h

theorem isLong_of_fits {most room : Nat} (h : Fits most room v) : v.isLong most = false := by
  cases h with
  | int hi => exact hi
  | _ => rfl

end Json

namespace Settings

open Json (Fits Limits)

variable {bytes : ByteArray} {m fields : Settings}

/-! ## Telling the scheme -/

/-- How telling the scheme that a value names ends in a world: with the scheme whose name it is;
    with a fault, if it is a list or an object with something in it, or an integer that is too long
    to be shown; and else with the default and a warning. -/
structure Tells (v : Json) (w : World) (outcome : Except Fault Scheme × World) : Prop where
  named : ∀ s : Scheme, v = .string s.name → outcome = (.ok s, w)
  holding : v.holdsItems = true → outcome = (.error (.notAName v.typeName), w)
  long : v.isLong w.limits.digits = true → outcome = (.error (.longNumeral w.limits.digits), w)
  unknown : (∀ s : Scheme, v ≠ .string s.name) → v.holdsItems = false →
    v.isLong w.limits.digits = false →
    outcome = (.ok Scheme.default, w.ensureHandler.log (unknownSchemeNote v))

theorem run_scheme (m : Settings) (w : World) : Action.run (scheme (.object m)) w =
    match ((m.get? schemeKey).getD .null).scheme? with
    | .error e => (.error e, w)
    | .ok (some s) => (.ok s, w)
    | .ok none =>
      if ((m.get? schemeKey).getD .null).isLong w.limits.digits then
        (.error (.longNumeral w.limits.digits), w)
      else (.ok Scheme.default,
        w.ensureHandler.log (unknownSchemeNote ((m.get? schemeKey).getD .null))) := by
  simp only [scheme, Action.run_bind, Action.run_query, Json.storedScheme]
  rcases Json.scheme? _ with e | _ | s
  · rfl
  · simp only [Action.run_bind, Action.run_query, checkShown]
    split_ifs <;> rfl
  · rfl

theorem tells_scheme (m : Settings) (w : World) :
    Tells ((m.get? schemeKey).getD .null) w (Action.run (scheme (.object m)) w) := by
  rw [run_scheme]
  generalize (m.get? schemeKey).getD .null = v
  refine ⟨?_, fun h => ?_, fun h => ?_, fun hs hitems hlong => ?_⟩
  · rintro s rfl
    rw [Json.scheme?_string, Scheme.ofName?_name]
  · rw [Json.scheme?_of_holdsItems h]
  · -- only an integer is too long, and it names nothing
    have hnone : v.scheme? = .ok none := by
      cases v with
      | int i => exact ite_self _
      | _ => cases h
    rw [hnone, h]
    rfl
  · rw [Json.scheme?_of_unknown hs hitems, hlong]
    rfl

theorem run_scheme_of_name {s : Scheme} (h : m.get? schemeKey = some (.string s.name)) (w : World) :
    Action.run (scheme (.object m)) w = (.ok s, w) :=
  (tells_scheme m w).named s (by rw [h, Option.getD_some])

/-! ## Settings that are loaded -/

/-- The value for the scheme is that of the file, or else the name of the default. -/
theorem get?_loaded (hkeys : fields.keys.Nodup) (value : Option Text) :
    ((ofStored fields).withEnvironment value).get? schemeKey =
      some ((fields.get? schemeKey).getD (.string Scheme.default.name)) := by
  have hstored : (ofStored fields).get? schemeKey =
      some ((fields.get? schemeKey).getD (.string Scheme.default.name)) := by
    rw [ofStored, Table.get?_update hkeys]
    cases fields.get? schemeKey <;> rfl
  rw [withEnvironment]
  split_ifs
  · rw [Table.get?_set, if_neg (by decide), hstored]
  · exact hstored

theorem isLong_loaded {limits : Limits} (hobject : IsObject limits bytes fields) :
    ((fields.get? schemeKey).getD (.string Scheme.default.name)).isLong limits.digits = false := by
  cases hv : fields.get? schemeKey with
  | none => rfl
  | some v =>
    obtain ⟨s, -, hread⟩ := hobject
    have hfits := Json.fits_of_ofText hread
    generalize limits.nested = room at hfits
    cases hfits with
    | object _ hfields => exact Json.isLong_of_fits (hfields _ (Table.mem_of_get? hv))

/-- **The scheme that a stored value names.**  Whatever value is stored for the scheme, or none,
    telling the scheme ends as `Tells` says: it fails for a list or an object with something in it
    and for an integer that is too long to be shown, and for no other value.  If the settings are
    loaded from a file that holds an object, the same is true of the value in the file, or of the
    name of the default if there is none, and no integer is too long. -/
theorem loadScheme_tells (m : Settings) (w : World) :
    Tells ((m.get? schemeKey).getD .null) w (Action.run (scheme (.object m)) w) ∧
    (unknownSchemeNote ((m.get? schemeKey).getD .null)).level = Level.warning ∧
    ∀ (w₀ w' : World) (file : Path) (bytes : ByteArray) (fields : Settings),
      Action.run applyVariables w = (.ok (), w₀) →
      Action.run settingsFile w₀ = (.ok file, w') →
      w'.files.read file = .ok bytes → IsObject w'.limits bytes fields →
      Tells ((fields.get? schemeKey).getD (.string Scheme.default.name)) w'
          (Action.run loadScheme w) ∧
        ((fields.get? schemeKey).getD (.string Scheme.default.name)).isLong w'.limits.digits =
          false := by
  refine ⟨tells_scheme m w, rfl, ?_⟩
  intro w₀ w' file bytes fields hvars hfile hread hobject
  refine ⟨?_, isLong_loaded hobject⟩
  have htells := tells_scheme ((ofStored fields).withEnvironment (w'.env.get? debugVariable)) w'
  rw [get?_loaded hobject.fits.nodup_keys, Option.getD_some] at htells
  rw [loadScheme, Action.run_bind, run_load_of_isObject hvars hfile hread hobject]
  exact htells

/-- Settings in which the name of a scheme stands in a list. -/
def listedScheme : Settings := [(schemeKey, .list [.string Scheme.redGreen.name])]

theorem fits_listedScheme :
    Fits ({} : Limits).digits ({} : Limits).nested (.object listedScheme) := by
  refine .object (by decide) (List.forall_mem_singleton.2 ?_)
  exact .list (List.forall_mem_singleton.2 (.string _))

/-- No scheme is told for a list, whether the settings are given or loaded. -/
theorem listedScheme_is_no_name :
    (Action.run (scheme (.object listedScheme)) (fileWorld [] (stored listedScheme))).1 =
        .error (.notAName "list".toList) ∧
      (Action.run loadScheme (fileWorld [] (stored listedScheme))).1 =
        .error (.notAName "list".toList) := by
  have hgiven (m : Settings) (hm : m.get? schemeKey = listedScheme.get? schemeKey) (w : World) :
      Action.run (scheme (.object m)) w = (.error (.notAName "list".toList), w) := by
    have h := (tells_scheme m w).holding (by rw [hm]; rfl)
    rw [hm] at h
    exact h
  refine ⟨by rw [hgiven _ rfl], ?_⟩
  rw [loadScheme, Action.run_bind, run_load_of_isObject (run_applyVariables_fileWorld _ _)
    (run_settingsFile_fileWorld _ _) (read_settingsIn_someDir _ _)
    (isObject_stored fits_listedScheme)]
  simp only [hgiven _ (get?_loaded fits_listedScheme.nodup_keys _)]

end Settings

end PromptFill
