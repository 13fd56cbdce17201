/-
  Strings: reading what was written.

  A character is written as itself, as a backslash with a letter, or by its one or two UTF-16
  units (`writeChar_cases`).  Each of the three steps of reading undoes this for one character
  and goes on behind it, whatever stands there: `splitString_writeChar`, `units?_writeChar` and
  `joinUnits_units_append`.  `readString_append` puts the steps together.
-/
import PromptFill.Json.Printer
import PromptFill.Json.Reader

namespace PromptFill.Json

/-! ## UTF-16 units -/

/-- The UTF-16 units of a character. -/
def units (c : Char) : List Nat :=
  if c.toNat < 0x10000 then [c.toNat]
  else [0xD800 + (c.toNat - 0x10000) / 0x400, 0xDC00 + (c.toNat - 0x10000) % 0x400]

theorem toNat_lt_or_gt (c : Char) : c.toNat < 0xD800 ∨ 0xDFFF < c.toNat ∧ c.toNat < 0x110000 := by
  simpa [UInt32.isValidChar, Nat.isValidChar] using c.valid

theorem loneUnit_toNat (c : Char) : loneUnit c.toNat = c := by
  have h := toNat_lt_or_gt c
  have hu : (isHigh c.toNat || isLow c.toNat) = false := by
    simp only [isHigh, isLow, Bool.or_eq_false_iff, Bool.and_eq_false_iff, decide_eq_false_iff_not]
    omega
  rw [loneUnit, if_neg (by simp [hu]), Char.ofNat_toNat]

theorem joinUnits_cons {u : Nat} (h : isHigh u = false) (us : List Nat) :
    joinUnits (u :: us) = loneUnit u :: joinUnits us := by
  cases us with
  | nil => rfl
  | cons v us => simp [joinUnits, h]

/-- Units that are put together give the character that they are the units of. -/
theorem joinUnits_units_append (c : Char) (us : List Nat) :
    joinUnits (units c ++ us) = c :: joinUnits us := by
  have hc := toNat_lt_or_gt c
  by_cases h : c.toNat < 0x10000
  · have hu : isHigh c.toNat = false := by
      simp only [isHigh, Bool.and_eq_false_iff, decide_eq_false_iff_not]
      omega
    rw [units, if_pos h, List.singleton_append, joinUnits_cons hu, loneUnit_toNat]
  · have hpair : (isHigh (0xD800 + (c.toNat - 0x10000) / 0x400) &&
        isLow (0xDC00 + (c.toNat - 0x10000) % 0x400)) = true := by
      simp only [isHigh, isLow, Bool.and_eq_true, decide_eq_true_eq]
      omega
    have hsum : 0x10000 + (0xD800 + (c.toNat - 0x10000) / 0x400 - 0xD800) * 0x400 +
        (0xDC00 + (c.toNat - 0x10000) % 0x400 - 0xDC00) = c.toNat := by omega
    rw [units, if_neg h, List.cons_append, List.singleton_append, joinUnits, if_pos hpair, hsum,
      Char.ofNat_toNat]

theorem joinUnits_flatMap_units (s : Text) : joinUnits (s.flatMap units) = s := by
  induction s with
  | nil => rfl
  | cons c s ih => rw [List.flatMap_cons, joinUnits_units_append, ih]

/-! ## Escapes -/

theorem hex_succ {w : Nat} (hw : 0 < w) (n : Nat) :
    Text.hex (w + 1) n = Text.hex w (n / 16) ++ [(n % 16).digitChar] := by
  simp only [Text.hex, Text.zeroFill]
  by_cases h : n < 16
  · have hzeros : w + 1 - [n.digitChar].length = w - 1 + 1 := by
      rw [List.length_singleton]
      omega
    rw [Nat.div_eq_of_lt h, Nat.mod_eq_of_lt h, Nat.toDigits_of_lt_base h,
      Nat.toDigits_of_lt_base (by decide), hzeros, List.replicate_succ']
    rfl
  · have hlen : w + 1 - (Nat.toDigits 16 (n / 16) ++ [(n % 16).digitChar]).length =
        w - (Nat.toDigits 16 (n / 16)).length := by
      rw [List.length_append, List.length_singleton]
      omega
    rw [Nat.toDigits_of_base_le (by decide) (Nat.not_lt.1 h), hlen, List.append_assoc]

/-- A unit in hexadecimal is four digits, whose value it is. -/
theorem hex_four {u : Nat} (h : u < 0x10000) :
    ∃ a b c d, a < 16 ∧ b < 16 ∧ c < 16 ∧ d < 16 ∧ ((a * 16 + b) * 16 + c) * 16 + d = u ∧
      Text.hex 4 u = [a.digitChar, b.digitChar, c.digitChar, d.digitChar] := by
  refine ⟨u / 16 / 16 / 16, u / 16 / 16 % 16, u / 16 % 16, u % 16, by omega, by omega, by omega,
    by omega, by omega, ?_⟩
  have hone : Text.hex 1 (u / 16 / 16 / 16) = [(u / 16 / 16 / 16).digitChar] := by
    rw [Text.hex, Nat.toDigits_of_lt_base (by omega)]
    rfl
  rw [hex_succ (by decide), hex_succ (by decide), hex_succ (by decide), hone]
  rfl

theorem hexDigit?_digitChar {d : Nat} (h : d < 16) : hexDigit? d.digitChar = some d := by
  revert d
  decide

theorem digitChar_ne {d : Nat} (h : d < 16) : d.digitChar ≠ '\x22' ∧ d.digitChar ≠ '\\' := by
  revert d
  decide

theorem splitString_cons {c : Char} (hq : c ≠ '\x22') (hb : c ≠ '\\') (s : Text) :
    splitString (c :: s) = (splitString s).map fun p => (c :: p.1, p.2) :=
  splitString.eq_4 c s hq fun _ _ h _ => hb h

theorem splitString_unitEscape {u : Nat} (h : u < 0x10000) (s : Text) :
    splitString (unitEscape u ++ s) =
      (splitString s).map fun p => (unitEscape u ++ p.1, p.2) := by
  obtain ⟨a, b, c, d, ha, hb, hc, hd, -, hhex⟩ := hex_four h
  have hsplit {x : Nat} (hx : x < 16) (s : Text) := splitString_cons (digitChar_ne hx).1
    (digitChar_ne hx).2 s
  simp only [unitEscape, hhex, List.cons_append, List.nil_append]
  rw [splitString, hsplit ha, hsplit hb, hsplit hc, hsplit hd]
  simp only [Option.map_map, Function.comp_def]

theorem units?_unitEscape {u : Nat} (h : u < 0x10000) (s : Text) :
    units? (unitEscape u ++ s) = (units? s).map (u :: ·) := by
  obtain ⟨a, b, c, d, ha, hb, hc, hd, hu, hhex⟩ := hex_four h
  have hval : hexFour? a.digitChar b.digitChar c.digitChar d.digitChar = some u := by
    simp [hexFour?, hexDigit?_digitChar, ha, hb, hc, hd, hu]
  simp only [unitEscape, hhex, List.cons_append, List.nil_append]
  rw [units?, hval]
  cases units? s <;> rfl

theorem unit_lt {c : Char} {u : Nat} (h : u ∈ units c) : u < 0x10000 := by
  have hc := toNat_lt_or_gt c
  rw [units] at h
  split at h <;> simp only [List.mem_cons, List.not_mem_nil, or_false] at h <;> omega

theorem splitString_escapes {us : List Nat} (h : ∀ u ∈ us, u < 0x10000) (s : Text) :
    splitString (us.flatMap unitEscape ++ s) =
      (splitString s).map fun p => (us.flatMap unitEscape ++ p.1, p.2) := by
  induction us with
  | nil => simp
  | cons u us ih =>
    obtain ⟨hu, hus⟩ := List.forall_mem_cons.1 h
    rw [List.flatMap_cons, List.append_assoc, splitString_unitEscape hu, ih hus]
    simp only [Option.map_map, Function.comp_def, List.append_assoc]

theorem units?_escapes {us : List Nat} (h : ∀ u ∈ us, u < 0x10000) (s : Text) :
    units? (us.flatMap unitEscape ++ s) = (units? s).map (us ++ ·) := by
  induction us with
  | nil => simp
  | cons u us ih =>
    obtain ⟨hu, hus⟩ := List.forall_mem_cons.1 h
    rw [List.flatMap_cons, List.append_assoc, units?_unitEscape hu, ih hus]
    simp only [Option.map_map, Function.comp_def, List.cons_append]

/-! ## Characters -/

theorem codeEscape_eq (c : Char) : codeEscape c = (units c).flatMap unitEscape := by
  rw [codeEscape, units]
  split <;> simp

theorem namedEscape?_lt {e c : Char} (h : namedEscape? e = some c) : c.toNat < 0x10000 := by
  rw [namedEscape?.eq_def] at h
  split at h <;> cases h <;> decide

/-- How a character is written: as itself, as a backslash with a letter, or by its units. -/
theorem writeChar_cases (c : Char) :
    (writeChar c = [c] ∧ 0x20 ≤ c.toNat ∧ c.toNat ≤ 0x7E ∧ c ≠ '\x22' ∧ c ≠ '\\') ∨
      (∃ e, writeChar c = ['\\', e] ∧ namedEscape? e = some c) ∨
      writeChar c = (units c).flatMap unitEscape := by
  rw [writeChar.eq_def]
  split
  · exact .inr (.inl ⟨'\x22', rfl, rfl⟩)
  · exact .inr (.inl ⟨'\\', rfl, rfl⟩)
  · exact .inr (.inl ⟨'n', rfl, rfl⟩)
  · exact .inr (.inl ⟨'r', rfl, rfl⟩)
  · exact .inr (.inl ⟨'t', rfl, rfl⟩)
  · exact .inr (.inl ⟨'f', rfl, rfl⟩)
  · exact .inr (.inl ⟨'b', rfl, rfl⟩)
  · rename_i hquote hslash _ _ _ _ _
    split
    · rename_i h
      exact .inl ⟨rfl, h.1, h.2, hquote, hslash⟩
    · exact .inr (.inr (codeEscape_eq c))

theorem splitString_writeChar (c : Char) (s : Text) :
    splitString (writeChar c ++ s) = (splitString s).map fun p => (writeChar c ++ p.1, p.2) := by
  rcases writeChar_cases c with ⟨h, -, -, hquote, hslash⟩ | ⟨e, h, -⟩ | h <;> rw [h]
  · exact splitString_cons hquote hslash s
  · exact splitString.eq_3 e s
  · exact splitString_escapes (fun _ => unit_lt) s

theorem units?_writeChar (c : Char) (s : Text) :
    units? (writeChar c ++ s) = (units? s).map (units c ++ ·) := by
  rcases writeChar_cases c with ⟨h, hlow, hhigh, -, hslash⟩ | ⟨e, h, he⟩ | h <;> rw [h]
  · have hbad : ¬ (c.toNat < 0x20 ∨ c = '\\') := by
      rintro (hc | hc)
      · omega
      · exact hslash hc
    rw [List.singleton_append, units?.eq_4 c s (fun _ _ _ _ _ hc _ => hslash hc)
      (fun _ _ hc _ => hslash hc), if_neg hbad, units, if_pos (by omega)]
    rfl
  · have hu : e ≠ 'u' := by
      rintro rfl
      cases he
    rw [List.cons_append, List.singleton_append, units?.eq_3 e s (fun _ _ _ _ _ h _ => hu h), he,
      units, if_pos (namedEscape?_lt he)]
    cases units? s <;> rfl
  · exact units?_escapes (fun _ => unit_lt) s

/-! ## Strings -/

theorem splitString_flatMap (s rest : Text) :
    splitString (s.flatMap writeChar ++ '\x22' :: rest) = some (s.flatMap writeChar, rest) := by
  induction s with
  | nil => rw [List.flatMap_nil, List.nil_append, splitString]
  | cons c s ih =>
    rw [List.flatMap_cons, List.append_assoc, splitString_writeChar, ih]
    rfl

theorem units?_flatMap (s : Text) : units? (s.flatMap writeChar) = some (s.flatMap units) := by
  induction s with
  | nil => rfl
  | cons c s ih =>
    rw [List.flatMap_cons, units?_writeChar, ih]
    rfl

/-- A string that was written is read up to its closing quote. -/
theorem readString_append (s rest : Text) :
    readString (s.flatMap writeChar ++ '\x22' :: rest) = .ok (s, rest) := by
  rw [readString, splitString_flatMap]
  simp only [units?_flatMap, joinUnits_flatMap_units]

end PromptFill.Json
