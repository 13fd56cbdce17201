/-
  Values: reading what was written.

  A value is proper if its floating-point numbers have the form that results have and no object
  in it has two fields of one name; without floating-point numbers it is plain.  `ReadsBack` says
  that such a value, written at any level, is read up to its end, if the reader has room for its
  depth and none of its integers is too long.  Items and fields read back if the values in them
  do (`readItems_write`, `readFields_write`), so that all proper values do (`readsBack`), by
  induction on the value; `ofText_text` is the case of a whole text.
-/
import PromptFill.Proofs.Json.Float
import PromptFill.Proofs.Json.String
import PromptFill.Proofs.Table

namespace PromptFill.Json

/-! ## Plain values and their depth -/

/-- A value without floating-point numbers in which every object has each name once. -/
inductive Plain : Json → Prop
  | null : Plain null
  | bool (b : Bool) : Plain (bool b)
  | int (i : Int) : Plain (int i)
  | string (s : Text) : Plain (string s)
  | list {items : List Json} : (∀ v ∈ items, Plain v) → Plain (list items)
  | object {fields : Table Text Json} :
      fields.keys.Nodup → (∀ f ∈ fields, Plain f.2) → Plain (object fields)

/-- A value in which every floating-point number is canonical and every object has each name
    once. -/
inductive Proper : Json → Prop
  | null : Proper null
  | bool (b : Bool) : Proper (bool b)
  | int (i : Int) : Proper (int i)
  | float {x : Binary64} : x.IsCanonical → Proper (float x)
  | string (s : Text) : Proper (string s)
  | list {items : List Json} : (∀ v ∈ items, Proper v) → Proper (list items)
  | object {fields : Table Text Json} :
      fields.keys.Nodup → (∀ f ∈ fields, Proper f.2) → Proper (object fields)

theorem Plain.proper {v : Json} (hv : Plain v) : Proper v := by
  induction hv with
  | null => exact .null
  | bool b => exact .bool b
  | int i => exact .int i
  | string s => exact .string s
  | list _ ih => exact .list ih
  | object hkeys _ ih => exact .object hkeys ih

mutual

/-- How many lists and objects lie inside of one another in a value. -/
def depth : Json → Nat
  | list items => depthItems items + 1
  | object fields => depthFields fields + 1
  | _ => 0

/-- The greatest depth of the items. -/
def depthItems : List Json → Nat
  | [] => 0
  | v :: vs => max (depth v) (depthItems vs)

/-- The greatest depth of the values of fields. -/
def depthFields : List (Text × Json) → Nat
  | [] => 0
  | (_, v) :: fs => max (depth v) (depthFields fs)

end

/-! ## Blanks and brackets -/

theorem skipBlanks_cons {c : Char} (h : isBlank c = false) (s : Text) :
    skipBlanks (c :: s) = c :: s := List.dropWhile_cons_of_neg (by simp [h])

theorem skipBlanks_newline (level : Nat) (s : Text) :
    skipBlanks (newline level ++ s) = skipBlanks s := by
  refine List.dropWhile_append_of_pos fun c hc => ?_
  rcases List.mem_cons.1 hc with rfl | hc
  · rfl
  · rw [List.eq_of_mem_replicate hc]
    rfl

theorem endsNumber_newline (level : Nat) (s : Text) : EndsNumber (newline level ++ s) := by
  rintro c ⟨⟩
  decide

theorem endsNumber_comma (s : Text) : EndsNumber (',' :: s) := by
  rintro c ⟨⟩
  decide

/-- Whether something stands here that is neither blank nor a closing bracket. -/
def StartsValue (s : Text) : Prop :=
  ∃ c r, s = c :: r ∧ isBlank c = false ∧ c ≠ ']' ∧ c ≠ '\x7d'

theorem StartsValue.append {s : Text} (h : StartsValue s) (t : Text) : StartsValue (s ++ t) := by
  obtain ⟨c, r, rfl, hc⟩ := h
  exact ⟨c, r ++ t, rfl, hc⟩

theorem StartsValue.skipBlanks {s : Text} (h : StartsValue s) : skipBlanks s = s := by
  obtain ⟨c, r, rfl, hc, -⟩ := h
  exact skipBlanks_cons hc r

theorem StartsInteger.startsValue {c : Char} (hc : StartsInteger c) (s : Text) :
    StartsValue (c :: s) := by
  have hne {x : Char} (hsign : x ≠ '-') (hdigit : x.isDigit = false) : c ≠ x := hc.ne hsign hdigit
  refine ⟨c, s, rfl, ?_, hne (by decide) rfl, hne (by decide) rfl⟩
  simp [isBlank, hne]

theorem startsValue_signedDecimal (i : Int) : StartsValue (Text.signedDecimal i) := by
  obtain ⟨c, s, hs, hc⟩ := signedDecimal_eq_cons i
  exact hs ▸ hc.startsValue s

theorem startsValue_writeFloat {x : Binary64} (hx : x.IsCanonical) :
    StartsValue (writeFloat x) := by
  obtain ⟨c, s, hs, hc⟩ := writeFloat_eq_cons hx
  rw [hs]
  rcases hc with hc | rfl | rfl
  · exact hc.startsValue s
  · exact ⟨'N', s, rfl, by decide⟩
  · exact ⟨'I', s, rfl, by decide⟩

theorem startsValue_write (level : Nat) {v : Json} (hv : Proper v) :
    StartsValue (write level v) := by
  cases hv with
  | null => exact ⟨'n', _, rfl, by decide⟩
  | bool b => cases b <;> exact ⟨_, _, rfl, by decide⟩
  | int i => exact startsValue_signedDecimal i
  | float hx => exact startsValue_writeFloat hx
  | string s => exact ⟨'\x22', _, rfl, by decide⟩
  | @list items _ =>
    cases items with
    | nil => exact ⟨'[', [']'], by rw [write], by decide⟩
    | cons x xs => exact ⟨'[', _, by rw [write]; rfl, by decide⟩
  | @object fields _ _ =>
    cases fields with
    | nil => exact ⟨'\x7b', ['\x7d'], by rw [write], by decide⟩
    | cons f fs => exact ⟨'\x7b', _, by rw [write]; rfl, by decide⟩

/-! ## Items and fields -/

/-- Whether a value that was written is read up to its end. -/
def ReadsBack (v : Json) : Prop :=
  ∀ {most room level fuel : Nat} {rest : Text}, cutShort? most level v = none → depth v ≤ room →
    2 * (write level v).length ≤ fuel → EndsNumber rest →
    readValue most room fuel (write level v ++ rest) = .ok (v, rest)

variable {most room level fuel : Nat}

theorem cutShort?_of_cutItems? {lead : Text} {x : Json} {xs : List Json}
    (h : cutItems? most level lead (x :: xs) = none) :
    cutShort? most level x = none ∧ cutItems? most level (',' :: newline level) xs = none := by
  rw [cutItems?] at h
  split at h
  · cases h
  · split at h
    · cases h
    · rename_i hx
      exact ⟨hx, Option.map_eq_none_iff.1 h⟩

theorem cutShort?_of_cutFields? {lead k : Text} {x : Json} {fs : List (Text × Json)}
    (h : cutFields? most level lead ((k, x) :: fs) = none) :
    cutShort? most level x = none ∧ cutFields? most level (',' :: newline level) fs = none := by
  rw [cutFields?] at h
  split at h
  · cases h
  · rename_i hx
    exact ⟨hx, Option.map_eq_none_iff.1 h⟩

/-- The items of a list are read up to its bracket.  One step is for the list of items that are
    left, the others are for the item that comes first. -/
theorem readItems_write {x : Json} {xs : List Json} {outer : Nat} {lead rest : Text}
    (hproper : ∀ v ∈ x :: xs, Proper v) (hback : ∀ v ∈ x :: xs, ReadsBack v)
    (hcut : cutItems? most level lead (x :: xs) = none) (hroom : depthItems (x :: xs) ≤ room)
    (hfuel : 2 * ((write level x).length + (writeItems level xs).length) < fuel) :
    readItems most room fuel
        (write level x ++ (writeItems level xs ++ (newline outer ++ ']' :: rest))) =
      .ok (x :: xs, rest) := by
  induction xs generalizing x fuel lead with
  | nil =>
    obtain ⟨hx, -⟩ := cutShort?_of_cutItems? hcut
    obtain ⟨fuel, rfl⟩ : ∃ n, fuel = n + 1 := ⟨fuel - 1, by omega⟩
    rw [depthItems, Nat.max_le] at hroom
    have hread : readValue most room fuel (write level x ++ (newline outer ++ ']' :: rest)) =
        .ok (x, newline outer ++ ']' :: rest) :=
      hback x List.mem_cons_self hx hroom.1 (by omega) (endsNumber_newline outer _)
    rw [writeItems, List.nil_append, readItems, hread]
    simp only [skipBlanks_newline, skipBlanks_cons (show isBlank ']' = false from rfl)]
  | cons y ys ih =>
    obtain ⟨hx, hys⟩ := cutShort?_of_cutItems? hcut
    obtain ⟨fuel, rfl⟩ : ∃ n, fuel = n + 1 := ⟨fuel - 1, by omega⟩
    rw [depthItems, Nat.max_le] at hroom
    obtain ⟨-, hproper⟩ := List.forall_mem_cons.1 hproper
    obtain ⟨hbackx, hback⟩ := List.forall_mem_cons.1 hback
    have hlen : (writeItems level (y :: ys)).length = 1 + (newline level).length +
        (write level y).length + (writeItems level ys).length := by
      simp only [writeItems, List.length_append, List.length_cons]
      omega
    have hline : 0 < (newline level).length := Nat.succ_pos _
    have hread (s : Text) :
        readValue most room fuel (write level x ++ ',' :: s) = .ok (x, ',' :: s) :=
      hbackx hx hroom.1 (by omega) (endsNumber_comma s)
    have hless : 2 * ((write level y).length + (writeItems level ys).length) < fuel := by omega
    have hrest := ih hproper hback hys hroom.2 hless
    rw [writeItems, readItems]
    simp only [List.cons_append, List.append_assoc, hread,
      skipBlanks_cons (show isBlank ',' = false from rfl), skipBlanks_newline,
      ((startsValue_write level (hproper y List.mem_cons_self)).append _).skipBlanks, hrest]
    rfl

theorem readString_writeString (s rest : Text) :
    ∃ r, writeString s ++ rest = '\x22' :: r ∧ readString r = .ok (s, rest) := by
  refine ⟨s.flatMap writeChar ++ '\x22' :: rest, ?_, readString_append s rest⟩
  simp [writeString]

/-- One field is read up to what stands behind its value, which tells how to go on. -/
theorem readFields_succ {k tail rest : Text} {x : Json} (hx : Proper x)
    (hread : readValue most room fuel (write level x ++ tail) = .ok (x, tail)) :
    (skipBlanks tail = '\x7d' :: rest → readFields most room (fuel + 1)
        (writeString k ++ ':' :: ' ' :: (write level x ++ tail)) = .ok ([(k, x)], rest)) ∧
      (skipBlanks tail = ',' :: rest → readFields most room (fuel + 1)
          (writeString k ++ ':' :: ' ' :: (write level x ++ tail)) =
        (readFields most room fuel (skipBlanks rest)).map fun p => ((k, x) :: p.1, p.2)) := by
  obtain ⟨r, hr, hname⟩ := readString_writeString k (':' :: ' ' :: (write level x ++ tail))
  have hcolon (s : Text) : skipBlanks (':' :: s) = ':' :: s := skipBlanks_cons rfl s
  have hspace : skipBlanks (' ' :: (write level x ++ tail)) = write level x ++ tail :=
    ((startsValue_write level hx).append tail).skipBlanks
  rw [hr, readFields]
  constructor
  · intro hend
    simp only [hname, hcolon, hspace, hread, hend]
  · intro hnext
    simp only [hname, hcolon, hspace, hread, hnext]

/-- The fields of an object are read up to its brace. -/
theorem readFields_write {f : Text × Json} {fs : List (Text × Json)} {outer : Nat}
    {lead rest : Text} (hproper : ∀ g ∈ f :: fs, Proper g.2) (hback : ∀ g ∈ f :: fs, ReadsBack g.2)
    (hcut : cutFields? most level lead (f :: fs) = none) (hroom : depthFields (f :: fs) ≤ room)
    (hfuel : 2 * ((write level f.2).length + (writeFields level fs).length) < fuel) :
    readFields most room fuel (writeString f.1 ++ ':' :: ' ' :: (write level f.2 ++
        (writeFields level fs ++ (newline outer ++ '\x7d' :: rest)))) =
      .ok (f :: fs, rest) := by
  induction fs generalizing f fuel lead with
  | nil =>
    obtain ⟨hx, -⟩ := cutShort?_of_cutFields? hcut
    obtain ⟨fuel, rfl⟩ : ∃ n, fuel = n + 1 := ⟨fuel - 1, by omega⟩
    rw [depthFields, Nat.max_le] at hroom
    have hread : readValue most room fuel (write level f.2 ++ (newline outer ++ '\x7d' :: rest)) =
        .ok (f.2, newline outer ++ '\x7d' :: rest) :=
      hback f List.mem_cons_self hx hroom.1 (by omega) (endsNumber_newline outer _)
    refine (readFields_succ (hproper f List.mem_cons_self) hread).1 ?_
    rw [skipBlanks_newline, skipBlanks_cons rfl]
  | cons g gs ih =>
    obtain ⟨hx, hgs⟩ := cutShort?_of_cutFields? hcut
    obtain ⟨fuel, rfl⟩ : ∃ n, fuel = n + 1 := ⟨fuel - 1, by omega⟩
    rw [depthFields, Nat.max_le] at hroom
    obtain ⟨hproperf, hproper⟩ := List.forall_mem_cons.1 hproper
    obtain ⟨hbackf, hback⟩ := List.forall_mem_cons.1 hback
    have hlen : (writeFields level (g :: gs)).length = 1 + (newline level).length +
        (writeString g.1).length + 2 + (write level g.2).length +
        (writeFields level gs).length := by
      simp only [writeFields, List.length_append, List.length_cons, List.length_nil]
      omega
    have hline : 0 < (newline level).length := Nat.succ_pos _
    have hless : 2 * ((write level g.2).length + (writeFields level gs).length) < fuel := by omega
    have hread (s : Text) :
        readValue most room fuel (write level f.2 ++ ',' :: s) = .ok (f.2, ',' :: s) :=
      hbackf hx hroom.1 (by omega) (endsNumber_comma s)
    have hname (s : Text) : skipBlanks (writeString g.1 ++ s) = writeString g.1 ++ s :=
      skipBlanks_cons rfl _
    have hrest := ih hproper hback hgs hroom.2 hless
    rw [writeFields]
    simp only [List.cons_append, List.append_assoc, List.nil_append]
    rw [(readFields_succ hproperf (hread _)).2 (skipBlanks_cons rfl _)]
    simp only [skipBlanks_newline, hname, hrest]
    rfl

/-! ## Values -/

theorem readValue_bracket {line : Nat} {s : Text} (h : StartsValue s) :
    readValue most (room + 1) (fuel + 1) ('[' :: (newline line ++ s)) =
      (readItems most room fuel s).map fun p => (list p.1, p.2) := by
  rw [readValue, skipBlanks_newline, h.skipBlanks]
  obtain ⟨c, r, rfl, -, hc, -⟩ := h
  split
  · rename_i hend
    exact absurd (List.cons.inj hend).1 hc
  · rfl

theorem readValue_brace {line : Nat} {s : Text} (h : StartsValue s) :
    readValue most (room + 1) (fuel + 1) ('\x7b' :: (newline line ++ s)) =
      (readFields most room fuel s).map fun p => (object (Table.ofList p.1), p.2) := by
  rw [readValue, skipBlanks_newline, h.skipBlanks]
  obtain ⟨c, r, rfl, -, -, hc⟩ := h
  split
  · rename_i hend
    exact absurd (List.cons.inj hend).1 hc
  · rfl

theorem exists_fuel_eq_succ {v : Json} (hv : Proper v) (h : 2 * (write level v).length ≤ fuel) :
    ∃ n, fuel = n + 1 := by
  obtain ⟨c, r, hs, -⟩ := startsValue_write level hv
  rw [hs, List.length_cons] at h
  exact ⟨fuel - 1, by omega⟩

theorem readsBack_list {items : List Json} (hproper : ∀ v ∈ items, Proper v)
    (hback : ∀ v ∈ items, ReadsBack v) : ReadsBack (list items) := by
  intro most room level fuel rest hcut hroom hfuel _
  obtain ⟨fuel, rfl⟩ := exists_fuel_eq_succ (.list hproper) hfuel
  rw [depth] at hroom
  obtain ⟨room, rfl⟩ : ∃ n, room = n + 1 := ⟨room - 1, by omega⟩
  cases items with
  | nil =>
    rw [write]
    rfl
  | cons x xs =>
    have hlen : (write level (list (x :: xs))).length = (newline (level + 1)).length +
        (write (level + 1) x).length + (writeItems (level + 1) xs).length +
        (newline level).length + 2 := by
      simp only [write, List.length_append, List.length_cons, List.length_nil]
      omega
    have hless : 2 * ((write (level + 1) x).length + (writeItems (level + 1) xs).length) < fuel :=
      by omega
    have hstart := startsValue_write (level + 1) (hproper x List.mem_cons_self)
    rw [write]
    simp only [List.cons_append, List.append_assoc, List.nil_append]
    rw [readValue_bracket (hstart.append _),
      readItems_write hproper hback hcut (Nat.le_of_succ_le_succ hroom) hless]
    rfl

theorem readsBack_object {fields : Table Text Json} (hkeys : fields.keys.Nodup)
    (hproper : ∀ f ∈ fields, Proper f.2) (hback : ∀ f ∈ fields, ReadsBack f.2) :
    ReadsBack (object fields) := by
  intro most room level fuel rest hcut hroom hfuel _
  obtain ⟨fuel, rfl⟩ := exists_fuel_eq_succ (.object hkeys hproper) hfuel
  rw [depth] at hroom
  obtain ⟨room, rfl⟩ : ∃ n, room = n + 1 := ⟨room - 1, by omega⟩
  cases fields with
  | nil =>
    rw [write]
    rfl
  | cons f fs =>
    have hlen : (write level (object (f :: fs))).length = (newline (level + 1)).length +
        (writeString f.1).length + (write (level + 1) f.2).length +
        (writeFields (level + 1) fs).length + (newline level).length + 4 := by
      simp only [write, List.length_append, List.length_cons, List.length_nil]
      omega
    have hless : 2 * ((write (level + 1) f.2).length + (writeFields (level + 1) fs).length) <
        fuel := by omega
    have hstart : StartsValue (writeString f.1) := ⟨'\x22', _, rfl, by decide⟩
    rw [write]
    simp only [List.cons_append, List.append_assoc, List.nil_append]
    rw [readValue_brace (hstart.append _),
      readFields_write hproper hback hcut (Nat.le_of_succ_le_succ hroom) hless]
    simp only [Except.map, Table.ofList_of_nodup hkeys]

theorem readsBack_int (i : Int) : ReadsBack (int i) := by
  intro most room level fuel rest hcut _ hfuel hrest
  obtain ⟨fuel, rfl⟩ := exists_fuel_eq_succ (.int i) hfuel
  have hi : isLong most (int i) = false := by simpa [cutShort?] using hcut
  have hread := readScalar_signedDecimal hi hrest
  obtain ⟨c, r, hs, hc⟩ := signedDecimal_eq_cons i
  have hne {x : Char} (hsign : x ≠ '-') (hdigit : x.isDigit = false) (t : Text)
      (h : c :: (r ++ rest) = x :: t) : False := hc.ne hsign hdigit (List.cons.inj h).1
  rw [hs, List.cons_append] at hread
  rw [write, hs, List.cons_append, readValue.eq_7 _ _ _ _ (hne (by decide) rfl)
    (hne (by decide) rfl) (hne (by decide) rfl)]
  exact hread

theorem readsBack_float {x : Binary64} (hx : x.IsCanonical) : ReadsBack (float x) := by
  intro most room level fuel rest _ _ hfuel hrest
  obtain ⟨fuel, rfl⟩ := exists_fuel_eq_succ (.float hx) hfuel
  have hread := readScalar_writeFloat hx most hrest
  obtain ⟨c, r, hs, hc⟩ := writeFloat_eq_cons hx
  have hne {x : Char} (hsign : x ≠ '-') (hdigit : x.isDigit = false) (hword : x ≠ 'N' ∧ x ≠ 'I')
      (t : Text) (h : c :: (r ++ rest) = x :: t) : False := by
    obtain rfl := (List.cons.inj h).1
    rcases hc with hc | hc | hc
    · exact hc.ne hsign hdigit rfl
    · exact hword.1 hc
    · exact hword.2 hc
  rw [hs, List.cons_append] at hread
  rw [write, hs, List.cons_append, readValue.eq_7 _ _ _ _ (hne (by decide) rfl (by decide))
    (hne (by decide) rfl (by decide)) (hne (by decide) rfl (by decide))]
  exact hread

/-- A proper value that was written is read up to its end. -/
theorem readsBack {v : Json} (hv : Proper v) : ReadsBack v := by
  induction hv with
  | null =>
    intro most room level fuel rest _ _ hfuel _
    obtain ⟨fuel, rfl⟩ := exists_fuel_eq_succ .null hfuel
    rw [write]
    rfl
  | bool b =>
    intro most room level fuel rest _ _ hfuel _
    obtain ⟨fuel, rfl⟩ := exists_fuel_eq_succ (.bool b) hfuel
    rw [write]
    cases b <;> rfl
  | int i => exact readsBack_int i
  | float hx => exact readsBack_float hx
  | string s =>
    intro most room level fuel rest _ _ hfuel _
    obtain ⟨fuel, rfl⟩ := exists_fuel_eq_succ (.string s) hfuel
    obtain ⟨r, hr, hread⟩ := readString_writeString s rest
    rw [write, hr, readValue, hread]
    rfl
  | list hproper ih => exact readsBack_list hproper ih
  | object hkeys hproper ih => exact readsBack_object hkeys hproper ih

/-- The text of a proper value without integers that are too long is read as that value, if the
    reader may go as deep as the value is. -/
theorem ofText_text {limits : Limits} {v : Json} (hv : Proper v) (hdepth : v.depth ≤ limits.nested)
    (hcut : cutShort? limits.digits 0 v = none) : ofText limits v.text = .ok v := by
  have hread : readValue limits.digits limits.nested (2 * v.text.length + 2) (v.text ++ []) =
      .ok (v, []) :=
    readsBack hv hcut hdepth (Nat.le_add_right _ 2) fun c hc => by cases hc
  have hstart : skipBlanks v.text = v.text := (startsValue_write 0 hv).skipBlanks
  rw [List.append_nil] at hread
  rw [ofText, hstart, hread]
  rfl

end PromptFill.Json
