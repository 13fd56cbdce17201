/-
  Values within limits.

  `Fits` says of a value what a reader with limits can answer: no integer in it has too many
  digits, its lists and objects do not lie too deep, its floating-point numbers are results of
  rounding, and its objects have each name once.  Whatever text is read, the answer fits
  (`fits_of_ofText`), by induction on the steps of the reader; and a value that fits is the answer
  to its own text, so these are all of the answers (`fits_iff`).

  A text that opens more lists than there is room for is refused, whatever comes behind
  (`ofText_tooDeep`).
-/
import PromptFill.Proofs.Json.RoundTrip

namespace PromptFill.Json

/-- A value that a reader of integers of at most `most` digits, with this room for lists and
    objects inside of one another, can answer. -/
inductive Fits (most : Nat) : Nat → Json → Prop
  | null {room : Nat} : Fits most room null
  | bool {room : Nat} (b : Bool) : Fits most room (bool b)
  | int {room : Nat} {i : Int} : isLong most (int i) = false → Fits most room (int i)
  | float {room : Nat} {x : Binary64} : x.IsCanonical → Fits most room (float x)
  | string {room : Nat} (s : Text) : Fits most room (string s)
  | list {room : Nat} {items : List Json} :
      (∀ v ∈ items, Fits most room v) → Fits most (room + 1) (list items)
  | object {room : Nat} {fields : Table Text Json} : fields.keys.Nodup →
      (∀ f ∈ fields, Fits most room f.2) → Fits most (room + 1) (object fields)

variable {most room fuel : Nat} {v : Json}

/-! ## What fits is written whole and read back -/

theorem depthItems_le_iff {items : List Json} :
    depthItems items ≤ room ↔ ∀ v ∈ items, depth v ≤ room := by
  induction items with
  | nil => simp [depthItems]
  | cons v items ih => rw [depthItems, Nat.max_le, ih, List.forall_mem_cons]

theorem depthFields_le_iff {fields : List (Text × Json)} :
    depthFields fields ≤ room ↔ ∀ f ∈ fields, depth f.2 ≤ room := by
  induction fields with
  | nil => simp [depthFields]
  | cons f fields ih => rw [depthFields, Nat.max_le, ih, List.forall_mem_cons]

theorem cutItems?_eq_none {level : Nat} {lead : Text} {items : List Json}
    (h : ∀ v ∈ items, cutShort? most level v = none) :
    cutItems? most level lead items = none := by
  induction items generalizing lead with
  | nil => rfl
  | cons v items ih =>
    obtain ⟨hv, hitems⟩ := List.forall_mem_cons.1 h
    have hshort : isLong most v = false := by
      cases v with
      | int i => simpa [cutShort?] using hv
      | _ => rfl
    simp only [cutItems?, hshort, hv, ih hitems, Option.map_none, Bool.false_eq_true, if_false]

theorem cutFields?_eq_none {level : Nat} {lead : Text} {fields : List (Text × Json)}
    (h : ∀ f ∈ fields, cutShort? most level f.2 = none) :
    cutFields? most level lead fields = none := by
  induction fields generalizing lead with
  | nil => rfl
  | cons f fields ih =>
    obtain ⟨hf, hfields⟩ := List.forall_mem_cons.1 h
    simp only [cutFields?, hf, ih hfields, Option.map_none]

namespace Fits

theorem proper (hv : Fits most room v) : Proper v := by
  induction hv with
  | null => exact .null
  | bool b => exact .bool b
  | int => exact .int _
  | float hx => exact .float hx
  | string s => exact .string s
  | list _ ih => exact .list ih
  | object hkeys _ ih => exact .object hkeys ih

theorem depth_le (hv : Fits most room v) : depth v ≤ room := by
  induction hv with
  | list _ ih =>
    rw [depth]
    exact Nat.succ_le_succ (depthItems_le_iff.2 ih)
  | object _ _ ih =>
    rw [depth]
    exact Nat.succ_le_succ (depthFields_le_iff.2 ih)
  | _ => exact Nat.zero_le _

theorem cutShort?_eq_none (hv : Fits most room v) (level : Nat) :
    cutShort? most level v = none := by
  induction hv generalizing level with
  | int hi => simp [cutShort?, hi]
  | list _ ih => exact cutItems?_eq_none fun v hv => ih v hv _
  | object _ _ ih => exact cutFields?_eq_none fun f hf => ih f hf _
  | _ => rfl

/-- The text of a value that fits is read as that value. -/
theorem ofText_text {limits : Limits} (hv : Fits limits.digits limits.nested v) :
    ofText limits v.text = .ok v :=
  Json.ofText_text hv.proper hv.depth_le (hv.cutShort?_eq_none 0)

variable {fields more : Table Text Json}

theorem nodup_keys (h : Fits most room (.object fields)) : fields.keys.Nodup := by
  cases h
  assumption

/-- An object still fits after a value that fits anywhere was set in it. -/
theorem set (h : Fits most room (.object fields)) (k : Text) (hv : ∀ room, Fits most room v) :
    Fits most room (.object (fields.set k v)) := by
  cases h with
  | object hkeys hfields =>
    refine .object (Table.nodup_keys_set hkeys) fun f hf => ?_
    rcases Table.mem_set hf with hf | rfl
    · exact hfields f hf
    · exact hv _

/-- An object still fits after the fields of another one that fits were set in it. -/
theorem update (h : Fits most room (.object fields)) (hmore : Fits most room (.object more)) :
    Fits most room (.object (fields.update more)) := by
  cases h with
  | object hkeys hfields =>
    cases hmore with
    | object _ hmore =>
      refine .object (Table.nodup_keys_update hkeys more) fun f hf => ?_
      rcases Table.mem_update hf with hf | hf
      · exact hfields f hf
      · exact hmore f hf

end Fits

/-! ## What is read fits -/

theorem mem_takeDigits {s : Text} {c : Char} (h : c ∈ (takeDigits s).1) : c.isDigit = true := by
  rw [takeDigits, List.span_eq_takeWhile_dropWhile] at h
  exact List.mem_takeWhile_imp h

theorem isDigit_of_mem_takeWhole {s : Text} {c : Char} (h : c ∈ (takeWhole s).1) :
    c.isDigit = true := by
  rw [takeWhole.eq_def] at h
  split at h
  · rw [List.mem_singleton.1 h]
    rfl
  · exact mem_takeDigits h

theorem ofDigitChars_lt {digits : Text} (hdigits : ∀ c ∈ digits, c.isDigit = true) (n : Nat) :
    Nat.ofDigitChars 10 digits n < (n + 1) * 10 ^ digits.length := by
  induction digits generalizing n with
  | nil => simp
  | cons c digits ih =>
    obtain ⟨hc, hdigits⟩ := List.forall_mem_cons.1 hdigits
    have hdigit : c.toNat - '0'.toNat ≤ 9 := by
      have hnine : c.toNat ≤ 57 := (Char.isDigit_iff_toNat.1 hc).2
      have hzero : '0'.toNat = 48 := rfl
      omega
    calc Nat.ofDigitChars 10 (c :: digits) n
        = Nat.ofDigitChars 10 digits (10 * n + (c.toNat - '0'.toNat)) := Nat.ofDigitChars_cons
      _ < (10 * n + (c.toNat - '0'.toNat) + 1) * 10 ^ digits.length := ih hdigits _
      _ ≤ 10 * (n + 1) * 10 ^ digits.length := Nat.mul_le_mul_right _ (by omega)
      _ = (n + 1) * 10 ^ (c :: digits).length := by
        rw [List.length_cons, Nat.pow_succ]
        ring

/-- The numeral of a number is not longer than the digits that it was read from. -/
theorem length_decimal_ofDigitChars {digits : Text} (hne : digits ≠ [])
    (hdigits : ∀ c ∈ digits, c.isDigit = true) :
    (Text.decimal (Nat.ofDigitChars 10 digits 0)).length ≤ digits.length := by
  have hless := ofDigitChars_lt hdigits 0
  rw [Nat.zero_add, Nat.one_mul] at hless
  exact (Nat.length_toDigits_le_iff (by decide) (List.length_pos_iff.2 hne)).2 hless

theorem fits_of_readUnsigned {negative : Bool} {s r : Text}
    (h : readUnsigned most negative s = .ok (v, r)) : Fits most room v := by
  rcases hwhole : takeWhole s with ⟨whole, s₁⟩
  rcases hfraction : takeFraction s₁ with ⟨fraction, s₂⟩
  rcases hexponent : takeExponent s₂ with ⟨exponent, rest⟩
  have hshort (hne : whole ≠ []) (hlong : ¬ most < whole.length) :
      ¬ most < (Text.decimal (Nat.ofDigitChars 10 whole 0)).length := fun hmost =>
    hlong (hmost.trans_le (length_decimal_ofDigitChars hne fun c hc =>
      isDigit_of_mem_takeWhole (s := s) (by rwa [hwhole])))
  simp only [readUnsigned, hwhole, hfraction, hexponent] at h
  split_ifs at h with hne _ hlong
  all_goals cases h
  -- an integer, below zero or not, and a floating-point number
  · exact .int (by rw [isLong, Int.natAbs_neg]; exact decide_eq_false (hshort hne hlong))
  · exact .int (decide_eq_false (hshort hne hlong))
  · exact .float (Binary64.isCanonical_ofDecimal negative _ _)

theorem fits_of_mem_words {w : Text × Json} (h : w ∈ words) : Fits most room w.2 := by
  simp only [words, List.mem_cons, List.not_mem_nil, or_false] at h
  rcases h with rfl | rfl | rfl | rfl | rfl | rfl
  · exact .null
  · exact .bool true
  · exact .bool false
  all_goals exact .float trivial

theorem fits_of_readScalar {s r : Text} (h : readScalar most s = .ok (v, r)) :
    Fits most room v := by
  rw [readScalar.eq_def] at h
  split at h
  · rename_i hword
    cases h
    obtain ⟨w, hw, hv⟩ := Option.map_eq_some_iff.1 hword
    cases hv
    exact fits_of_mem_words (List.mem_of_find?_eq_some hw)
  · split at h <;> exact fits_of_readUnsigned h

theorem eq_ok_of_map_eq_ok {ε α β : Type} {f : α → β} {a : Except ε α} {b : β}
    (h : a.map f = .ok b) : ∃ x, a = .ok x ∧ f x = b := by
  cases a with
  | error => cases h
  | ok x =>
    cases h
    exact ⟨x, rfl, rfl⟩

/-- What a value, the items of a list and the fields of an object are read as fits, by induction
    on the steps: each kind is read by reading the others in fewer steps. -/
theorem fits_of_read (fuel : Nat) :
    (∀ {room s v r}, readValue most room fuel s = .ok (v, r) → Fits most room v) ∧
    (∀ {room s items r}, readItems most room fuel s = .ok (items, r) →
      ∀ v ∈ items, Fits most room v) ∧
    (∀ {room s fields r}, readFields most room fuel s = .ok (fields, r) →
      ∀ f ∈ fields, Fits most room f.2) := by
  induction fuel with
  | zero => exact ⟨fun h => (by cases h), fun h => (by cases h), fun h => (by cases h)⟩
  | succ fuel ih =>
    obtain ⟨hvalue, hitems, hfields⟩ := ih
    refine ⟨fun {room s v r} h => ?_, fun {room s items r} h => ?_, fun {room s fields r} h => ?_⟩
    · rw [readValue.eq_def] at h
      simp only [] at h
      split at h
      · obtain ⟨x, -, hx⟩ := eq_ok_of_map_eq_ok h
        cases hx
        exact .string _
      · split at h
        · cases h
        · split at h
          · cases h
            exact .list (List.forall_mem_nil _)
          · obtain ⟨x, hread, hx⟩ := eq_ok_of_map_eq_ok h
            cases hx
            exact .list (hitems hread)
      · split at h
        · cases h
        · split at h
          · cases h
            exact .object List.nodup_nil (List.forall_mem_nil _)
          · obtain ⟨x, hread, hx⟩ := eq_ok_of_map_eq_ok h
            cases hx
            exact .object (Table.nodup_keys_ofList _) fun f hf =>
              hfields hread f (Table.mem_of_mem_ofList hf)
      · exact fits_of_readScalar h
    · rw [readItems] at h
      split at h
      · cases h
      · rename_i hread
        split at h
        · cases h
          exact List.forall_mem_singleton.2 (hvalue hread)
        · obtain ⟨x, hrest, hx⟩ := eq_ok_of_map_eq_ok h
          cases hx
          exact List.forall_mem_cons.2 ⟨hvalue hread, hitems hrest⟩
        · cases h
    · rw [readFields.eq_def] at h
      simp only [] at h
      split at h
      · split at h
        · cases h
        · split at h
          · split at h
            · cases h
            · rename_i hread
              split at h
              · cases h
                exact List.forall_mem_singleton.2 (hvalue hread)
              · obtain ⟨x, hrest, hx⟩ := eq_ok_of_map_eq_ok h
                cases hx
                exact List.forall_mem_cons.2 ⟨hvalue hread, hfields hrest⟩
              · cases h
          · cases h
      · cases h

/-- What a text is read as fits. -/
theorem fits_of_ofText {limits : Limits} {s : Text} (h : ofText limits s = .ok v) :
    Fits limits.digits limits.nested v := by
  rw [ofText] at h
  split at h
  · cases h
  · rename_i hread
    split at h
    · cases h
      exact (fits_of_read _).1 hread
    · cases h

/-- The values that fit are those that some text is read as. -/
theorem fits_iff {limits : Limits} :
    Fits limits.digits limits.nested v ↔ ∃ s, ofText limits s = .ok v :=
  ⟨fun hv => ⟨v.text, hv.ofText_text⟩, fun ⟨_, h⟩ => fits_of_ofText h⟩

/-! ## Texts that go too deep -/

/-- The lists that open here lie too deep, whatever comes behind. -/
theorem readValue_tooDeep (most room : Nat) (s : Text) (hfuel : 2 * room < fuel) :
    readValue most room fuel (List.replicate (room + 1) '[' ++ s) = .error (.tooDeep false) := by
  induction room generalizing fuel with
  | zero =>
    obtain ⟨fuel, rfl⟩ : ∃ n, fuel = n + 1 := ⟨fuel - 1, by omega⟩
    rfl
  | succ room ih =>
    obtain ⟨fuel, rfl⟩ : ∃ n, fuel = n + 2 := ⟨fuel - 2, by omega⟩
    have hinner : readItems most room (fuel + 1) (List.replicate (room + 1) '[' ++ s) =
        .error (.tooDeep false) := by
      rw [readItems, ih (by omega)]
    have hstart : skipBlanks (List.replicate (room + 1) '[' ++ s) =
        List.replicate (room + 1) '[' ++ s := skipBlanks_cons rfl _
    rw [List.replicate_succ, List.cons_append, readValue]
    simp only [hstart]
    split
    · rename_i hend
      cases (List.cons.inj hend).1
    · rw [hinner]
      rfl

theorem ofText_tooDeep (limits : Limits) (s : Text) :
    ofText limits (List.replicate (limits.nested + 1) '[' ++ s) = .error (.tooDeep false) := by
  have hstart : skipBlanks (List.replicate (limits.nested + 1) '[' ++ s) =
      List.replicate (limits.nested + 1) '[' ++ s := skipBlanks_cons rfl _
  have hfuel : 2 * limits.nested <
      2 * (List.replicate (limits.nested + 1) '[' ++ s).length + 2 := by
    rw [List.length_append, List.length_replicate]
    omega
  rw [ofText, hstart, readValue_tooDeep limits.digits limits.nested s hfuel]

end PromptFill.Json
