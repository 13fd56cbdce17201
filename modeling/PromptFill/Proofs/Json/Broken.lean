/-
  Texts that break off.

  Of the text of a value only a part may get written: writing stops at an integer that is too long,
  or for want of room.  Such a part is the start of the text of a value (`IsStart`).  Reading it
  fails, or reads a numeral to the end of the part (`BreaksOff`), and inside of a list or an object
  it fails in any case, as the bracket is missing (`readItems_broken`, `readFields_broken`).  So
  a part of the text of an object is malformed (`ofText_of_isStart`).  What is written of an object
  before an integer that is too long is such a part, of another object (`exists_of_cutShort?`).
-/
import Mathlib.Tactic.IntervalCases
import PromptFill.Proofs.Json.Limits

namespace PromptFill.Json

/-! ## Starts of texts -/

/-- Whether a text is the start of another one and not all of it. -/
def IsStart (p s : Text) : Prop := ∃ c x, s = p ++ c :: x

variable {p q s t : Text} {c : Char}

theorem not_isStart_nil : ¬ IsStart p [] := by
  rintro ⟨c, x, h⟩
  exact List.cons_ne_nil c x (List.append_eq_nil_iff.1 h.symm).2

theorem isStart_cons_iff : IsStart p (c :: s) ↔ p = [] ∨ ∃ q, p = c :: q ∧ IsStart q s := by
  constructor
  · rintro ⟨d, x, h⟩
    cases p with
    | nil => exact .inl rfl
    | cons e q =>
      cases h
      exact .inr ⟨q, rfl, d, x, rfl⟩
  · rintro (rfl | ⟨q, rfl, d, x, rfl⟩)
    · exact ⟨c, s, rfl⟩
    · exact ⟨d, x, rfl⟩

/-- A start of two texts is one of the first, or goes on with one of the second. -/
theorem isStart_append_iff : IsStart p (s ++ t) ↔ IsStart p s ∨ ∃ q, p = s ++ q ∧ IsStart q t := by
  induction s generalizing p with
  | nil => simp [not_isStart_nil]
  | cons c s ih =>
    rw [List.cons_append, isStart_cons_iff, isStart_cons_iff]
    simp only [ih]
    constructor
    · rintro (rfl | ⟨q, rfl, hq | ⟨q, rfl, hq⟩⟩)
      · exact .inl (.inl rfl)
      · exact .inl (.inr ⟨q, rfl, hq⟩)
      · exact .inr ⟨q, rfl, hq⟩
    · rintro ((rfl | ⟨q, rfl, hq⟩) | ⟨q, rfl, hq⟩)
      · exact .inl rfl
      · exact .inr ⟨q, rfl, .inl hq⟩
      · exact .inr ⟨_, rfl, .inr ⟨q, rfl, hq⟩⟩

theorem StartsValue.isStart_nil (h : StartsValue s) : IsStart [] s := by
  obtain ⟨c, r, rfl, -⟩ := h
  exact ⟨c, r, rfl⟩

/-- A start of what begins with no blank begins with none. -/
theorem skipBlanks_of_isStart (h : StartsValue s) (hp : IsStart p s) : skipBlanks p = p := by
  obtain ⟨c, r, rfl, hblank, -⟩ := h
  obtain rfl | ⟨q, rfl, -⟩ := isStart_cons_iff.1 hp
  · rfl
  · exact skipBlanks_cons hblank q

/-- A start of what begins with no closing bracket begins with none. -/
theorem ne_bracket_of_isStart (h : StartsValue s) (hp : IsStart p s) (rest : Text) :
    p ≠ ']' :: rest ∧ p ≠ '\x7d' :: rest := by
  obtain ⟨c, r, rfl, -, hlist, hobject⟩ := h
  obtain rfl | ⟨q, rfl, -⟩ := isStart_cons_iff.1 hp
  · exact ⟨nofun, nofun⟩
  · exact ⟨fun heq => hlist (List.cons.inj heq).1, fun heq => hobject (List.cons.inj heq).1⟩

theorem skipBlanks_of_isStart_newline {level : Nat} (h : IsStart q (newline level)) :
    skipBlanks q = [] := by
  obtain ⟨c, x, hq⟩ := h
  have hblank : ∀ c ∈ newline level, isBlank c = true := by
    intro c hc
    rcases List.mem_cons.1 hc with rfl | hc
    · rfl
    · rw [List.eq_of_mem_replicate hc]
      rfl
  refine List.dropWhile_eq_nil_iff.2 fun c hc => hblank c ?_
  rw [hq]
  exact List.mem_append_left _ hc

/-- Behind the blanks, a start of a value on its own line is a start of the value. -/
theorem isStart_skipBlanks {level : Nat} (hs : StartsValue s) (h : IsStart q (newline level ++ s)) :
    IsStart (skipBlanks q) s ∧ (skipBlanks q).length ≤ q.length := by
  refine ⟨?_, (List.dropWhile_suffix _).length_le⟩
  obtain hq | ⟨q, rfl, hq⟩ := isStart_append_iff.1 h
  · rw [skipBlanks_of_isStart_newline hq]
    exact hs.isStart_nil
  · rwa [skipBlanks_newline, skipBlanks_of_isStart hs hq]

/-- Before a closing bracket on its own line there are only blanks. -/
theorem skipBlanks_of_isStart_closing {level : Nat} (h : IsStart q (newline level ++ [c])) :
    skipBlanks q = [] := by
  obtain hq | ⟨q, rfl, hq⟩ := isStart_append_iff.1 h
  · exact skipBlanks_of_isStart_newline hq
  · obtain rfl | ⟨_, -, hnil⟩ := isStart_cons_iff.1 hq
    · rw [skipBlanks_newline]
      rfl
    · exact absurd hnil not_isStart_nil

theorem endsNumber_nil : EndsNumber [] := fun c hc => by cases hc

theorem endsNumber_of_isStart {level : Nat} (h : IsStart q (newline level ++ s)) :
    EndsNumber q := by
  obtain rfl | ⟨q, rfl, -⟩ := isStart_cons_iff.1 h
  · exact endsNumber_nil
  · rintro c ⟨⟩
    decide

/-! ## Words, strings and numbers -/

variable {most room fuel : Nat}

theorem readValue_nil : readValue most room fuel [] = .error .malformed := by
  cases fuel <;> rfl

theorem readItems_nil : readItems most room fuel [] = .error .malformed := by
  cases fuel with
  | zero => rfl
  | succ fuel => rw [readItems, readValue_nil]

theorem readFields_nil : readFields most room fuel [] = .error .malformed := by
  cases fuel <;> rfl

/-- What ends a string ends it whatever comes behind. -/
theorem splitString_append {inside rest : Text} (h : splitString s = some (inside, rest))
    (more : Text) : splitString (s ++ more) = some (inside, rest ++ more) := by
  fun_induction splitString s generalizing inside with
  | case1 => cases h
  | case2 s =>
    cases h
    rfl
  | case3 c s ih =>
    obtain ⟨⟨inside', rest'⟩, hs, heq⟩ := Option.map_eq_some_iff.1 h
    cases heq
    simp only [List.cons_append, splitString, ih hs, Option.map_some]
  | case4 c s hquote hescape ih =>
    obtain ⟨⟨inside', rest'⟩, hs, heq⟩ := Option.map_eq_some_iff.1 h
    cases heq
    have hescape' : c ≠ '\\' := by
      rintro rfl
      cases s with
      | nil => cases hs
      | cons d s => exact hescape d s rfl rfl
    rw [List.cons_append, splitString_cons hquote hescape', ih hs, Option.map_some]

/-- A string whose end is missing is malformed. -/
theorem readString_of_isStart (hp : IsStart p (s.flatMap writeChar ++ ['\x22'])) :
    readString p = .error .malformed := by
  have hnone : splitString p = none := by
    rw [Option.eq_none_iff_forall_ne_some]
    rintro ⟨inside, rest⟩ hsplit
    obtain ⟨c, x, hwhole⟩ := hp
    have hend := splitString_append hsplit (c :: x)
    rw [← hwhole, splitString_flatMap] at hend
    cases rest <;> cases hend
  rw [readString, hnone]

theorem readUnsigned_of_isStart {n : Nat} (negative : Bool) (hp : IsStart p (Text.decimal n))
    (hlen : (Text.decimal n).length ≤ most) :
    readUnsigned most negative p = .error .malformed ∨
      ∃ u, readUnsigned most negative p = .ok (u, []) := by
  cases p with
  | nil => exact .inl rfl
  | cons c p =>
    obtain ⟨d, x, hwhole⟩ := hp
    have hn : n ≠ 0 := by
      rintro rfl
      have hzero := (List.cons.inj (show ['0'] = c :: (p ++ d :: x) from hwhole)).2
      exact List.cons_ne_nil d x (List.append_eq_nil_iff.1 hzero.symm).2
    have hc : c ≠ '0' := by
      obtain ⟨c', s, hs, hc'⟩ := decimal_eq_cons_of_ne_zero hn
      rw [hs] at hwhole
      rwa [(List.cons.inj hwhole).1] at hc'
    have hdigits : ∀ e ∈ c :: p, e.isDigit = true := fun e he =>
      isDigit_of_mem_decimal (n := n) (by rw [hwhole]; exact List.mem_append_left _ he)
    have hless : ¬ most < (c :: p).length := by
      rw [hwhole, List.length_append] at hlen
      omega
    have htake := takeWhole_append hdigits hc endsNumber_nil.endsDigits
    rw [List.append_nil] at htake
    refine .inr ⟨int (if negative then -(Nat.ofDigitChars 10 (c :: p) 0 : Nat)
      else (Nat.ofDigitChars 10 (c :: p) 0 : Nat)), ?_⟩
    simp only [readUnsigned, htake, takeFraction_eq endsNumber_nil,
      takeExponent_eq endsNumber_nil, hless,
      List.cons_ne_nil, if_false, and_self, if_true]

theorem readScalar_of_isStart {i : Int} (hi : isLong most (int i) = false)
    (hp : IsStart p (Text.signedDecimal i)) :
    readScalar most p = .error .malformed ∨ ∃ u, readScalar most p = .ok (u, []) := by
  have hlen : (Text.decimal i.natAbs).length ≤ most := by simpa [isLong] using hi
  have hdigit {n : Nat} {d : Char} {q : Text} (hq : IsStart (d :: q) (Text.decimal n)) :
      d.isDigit = true := by
    obtain ⟨e, x, hwhole⟩ := hq
    exact isDigit_of_mem_decimal (n := n) (by rw [hwhole]; exact List.mem_cons_self)
  cases i with
  | ofNat n =>
    cases p with
    | nil => exact .inl rfl
    | cons d p =>
      rw [(readScalar_of_isDigit most (hdigit hp) p).1]
      exact readUnsigned_of_isStart false hp hlen
  | negSucc n =>
    obtain rfl | ⟨q, rfl, hq⟩ := isStart_cons_iff.1 hp
    · exact .inl rfl
    · cases q with
      | nil => exact .inl rfl
      | cons d q =>
        rw [(readScalar_of_isDigit most (hdigit hq) q).2]
        exact readUnsigned_of_isStart true hq hlen

/-! ## Values -/

/-- Whether every start of the text of a value is malformed, or a numeral up to its end. -/
def BreaksOff (v : Json) : Prop :=
  ∀ {most room level fuel : Nat} {p : Text}, cutShort? most level v = none → depth v ≤ room →
    2 * p.length ≤ fuel → IsStart p (write level v) →
    readValue most room fuel p = .error .malformed ∨ ∃ u, readValue most room fuel p = .ok (u, [])

variable {level : Nat}

/-- Of items that break off, the first is broken, or the list is before the next item or its
    bracket. -/
theorem readItems_broken {x : Json} {xs : List Json} {outer : Nat} {lead : Text}
    (hproper : ∀ v ∈ x :: xs, Proper v) (hbreaks : ∀ v ∈ x :: xs, BreaksOff v)
    (hcut : cutItems? most level lead (x :: xs) = none) (hroom : depthItems (x :: xs) ≤ room)
    (hfuel : 2 * p.length < fuel)
    (hp : IsStart p (write level x ++ (writeItems level xs ++ (newline outer ++ [']'])))) :
    readItems most room fuel p = .error .malformed := by
  induction xs generalizing x fuel lead p with
  | nil =>
    obtain ⟨fuel, rfl⟩ : ∃ n, fuel = n + 1 := ⟨fuel - 1, by omega⟩
    obtain ⟨hx, -⟩ := cutShort?_of_cutItems? hcut
    rw [depthItems, Nat.max_le] at hroom
    obtain hp | ⟨q, rfl, hq⟩ := isStart_append_iff.1 hp
    · have hless : 2 * p.length ≤ fuel := Nat.le_of_lt_succ hfuel
      obtain h | ⟨u, h⟩ := hbreaks x List.mem_cons_self hx hroom.1 hless hp
      · rw [readItems, h]
      · rw [readItems, h]
        rfl
    · rw [writeItems, List.nil_append] at hq
      rw [List.length_append] at hfuel
      have hread : readValue most room fuel (write level x ++ q) = .ok (x, q) :=
        readsBack (hproper x List.mem_cons_self) hx hroom.1 (by omega) (endsNumber_of_isStart hq)
      simp only [readItems, hread, skipBlanks_of_isStart_closing hq]
  | cons y ys ih =>
    obtain ⟨fuel, rfl⟩ : ∃ n, fuel = n + 1 := ⟨fuel - 1, by omega⟩
    obtain ⟨hx, hys⟩ := cutShort?_of_cutItems? hcut
    rw [depthItems, Nat.max_le] at hroom
    obtain ⟨hproperx, hproper⟩ := List.forall_mem_cons.1 hproper
    obtain ⟨hbreaksx, hbreaks⟩ := List.forall_mem_cons.1 hbreaks
    obtain hp | ⟨q, rfl, hq⟩ := isStart_append_iff.1 hp
    · have hless : 2 * p.length ≤ fuel := Nat.le_of_lt_succ hfuel
      obtain h | ⟨u, h⟩ := hbreaksx hx hroom.1 hless hp
      · rw [readItems, h]
      · rw [readItems, h]
        rfl
    · rw [writeItems] at hq
      simp only [List.cons_append, List.append_assoc] at hq
      rw [List.length_append] at hfuel
      have hread (hend : EndsNumber q) :
          readValue most room fuel (write level x ++ q) = .ok (x, q) :=
        readsBack hproperx hx hroom.1 (by omega) hend
      obtain rfl | ⟨q, rfl, hnext⟩ := isStart_cons_iff.1 hq
      · rw [readItems, hread endsNumber_nil]
        rfl
      · have hstart := startsValue_write level (hproper y List.mem_cons_self)
        obtain ⟨hrest, hless⟩ := isStart_skipBlanks (hstart.append _) hnext
        rw [List.length_cons] at hfuel
        have hmalformed : readItems most room fuel (skipBlanks q) = .error .malformed :=
          ih hproper hbreaks hys hroom.2 (by omega) hrest
        simp only [readItems, hread (endsNumber_comma q),
          skipBlanks_cons (show isBlank ',' = false from rfl), hmalformed]
        rfl

/-- What breaks off behind the quotes of a name has the whole name and a part of the value;
    what breaks off before is malformed. -/
theorem readFields_of_isStart (most room fuel : Nat) {k : Text}
    (hp : IsStart p (writeString k ++ ':' :: ' ' :: s)) :
    readFields most room (fuel + 1) p = .error .malformed ∨
      ∃ q, p = writeString k ++ ':' :: ' ' :: q ∧ IsStart q s := by
  obtain hp | ⟨q, rfl, hq⟩ := isStart_append_iff.1 hp
  · rw [writeString, List.cons_append] at hp
    obtain rfl | ⟨q, rfl, hq⟩ := isStart_cons_iff.1 hp
    · exact .inl rfl
    · rw [readFields, readString_of_isStart hq]
      exact .inl rfl
  · obtain ⟨r, hr, hname⟩ := readString_writeString k q
    obtain rfl | ⟨q, rfl, hcolon⟩ := isStart_cons_iff.1 hq
    · rw [hr, readFields, hname]
      exact .inl rfl
    · obtain rfl | ⟨q, rfl, hspace⟩ := isStart_cons_iff.1 hcolon
      · simp only [hr, readFields, hname, skipBlanks_cons (show isBlank ':' = false from rfl)]
        rw [show skipBlanks [] = [] from rfl, readValue_nil]
        exact .inl rfl
      · exact .inr ⟨q, rfl, hspace⟩

/-- A field whose value is malformed, or behind whose value nothing stands, is malformed. -/
theorem readFields_malformed {k : Text} (hp : skipBlanks p = p)
    (h : readValue most room fuel p = .error .malformed ∨
      ∃ u r, readValue most room fuel p = .ok (u, r) ∧ skipBlanks r = []) :
    readFields most room (fuel + 1) (writeString k ++ ':' :: ' ' :: p) = .error .malformed := by
  obtain ⟨r, hr, hname⟩ := readString_writeString k (':' :: ' ' :: p)
  have hspace : skipBlanks (' ' :: p) = p := hp
  rw [hr, readFields]
  simp only [hname, skipBlanks_cons (show isBlank ':' = false from rfl), hspace]
  obtain h | ⟨u, r, h, hend⟩ := h
  · simp only [h]
  · simp only [h, hend]

/-- Of fields that break off, the first is broken, or the object is before the next field or its
    brace. -/
theorem readFields_broken {f : Text × Json} {fs : List (Text × Json)} {outer : Nat} {lead : Text}
    (hproper : ∀ g ∈ f :: fs, Proper g.2) (hbreaks : ∀ g ∈ f :: fs, BreaksOff g.2)
    (hcut : cutFields? most level lead (f :: fs) = none) (hroom : depthFields (f :: fs) ≤ room)
    (hfuel : 2 * p.length < fuel)
    (hp : IsStart p (writeString f.1 ++ ':' :: ' ' :: (write level f.2 ++
      (writeFields level fs ++ (newline outer ++ ['\x7d']))))) :
    readFields most room fuel p = .error .malformed := by
  induction fs generalizing f fuel lead p with
  | nil =>
    obtain ⟨fuel, rfl⟩ : ∃ n, fuel = n + 1 := ⟨fuel - 1, by omega⟩
    obtain ⟨hx, -⟩ := cutShort?_of_cutFields? hcut
    rw [depthFields, Nat.max_le] at hroom
    have hproperf := hproper f List.mem_cons_self
    have hstart := (startsValue_write level hproperf).append
    obtain h | ⟨q, rfl, hq⟩ := readFields_of_isStart most room fuel hp
    · exact h
    · refine readFields_malformed (skipBlanks_of_isStart (hstart _) hq) ?_
      rw [List.length_append, List.length_cons, List.length_cons] at hfuel
      obtain hq | ⟨q, rfl, hend⟩ := isStart_append_iff.1 hq
      · have hless : 2 * q.length ≤ fuel := by omega
        obtain h | ⟨u, h⟩ := hbreaks f List.mem_cons_self hx hroom.1 hless hq
        · exact .inl h
        · exact .inr ⟨u, [], h, rfl⟩
      · rw [writeFields, List.nil_append] at hend
        rw [List.length_append] at hfuel
        exact .inr ⟨f.2, q, readsBack hproperf hx hroom.1 (by omega) (endsNumber_of_isStart hend),
          skipBlanks_of_isStart_closing hend⟩
  | cons g gs ih =>
    obtain ⟨fuel, rfl⟩ : ∃ n, fuel = n + 1 := ⟨fuel - 1, by omega⟩
    obtain ⟨hx, hgs⟩ := cutShort?_of_cutFields? hcut
    rw [depthFields, Nat.max_le] at hroom
    obtain ⟨hproperf, hproper⟩ := List.forall_mem_cons.1 hproper
    obtain ⟨hbreaksf, hbreaks⟩ := List.forall_mem_cons.1 hbreaks
    have hstart := (startsValue_write level hproperf).append
    obtain h | ⟨q, rfl, hq⟩ := readFields_of_isStart most room fuel hp
    · exact h
    · rw [List.length_append, List.length_cons, List.length_cons] at hfuel
      obtain hq | ⟨q, rfl, hnext⟩ := isStart_append_iff.1 hq
      · have hless : 2 * q.length ≤ fuel := by omega
        refine readFields_malformed
          (skipBlanks_of_isStart (startsValue_write level hproperf) hq) ?_
        obtain h | ⟨u, h⟩ := hbreaksf hx hroom.1 hless hq
        · exact .inl h
        · exact .inr ⟨u, [], h, rfl⟩
      · rw [writeFields] at hnext
        simp only [List.cons_append, List.append_assoc, List.nil_append] at hnext
        rw [List.length_append] at hfuel
        have hread (hend : EndsNumber q) :
            readValue most room fuel (write level f.2 ++ q) = .ok (f.2, q) :=
          readsBack hproperf hx hroom.1 (by omega) hend
        obtain rfl | ⟨q, rfl, hline⟩ := isStart_cons_iff.1 hnext
        · exact readFields_malformed (hstart []).skipBlanks
            (.inr ⟨f.2, [], hread endsNumber_nil, rfl⟩)
        · have hname : StartsValue (writeString g.1) := ⟨'\x22', _, rfl, by decide⟩
          obtain ⟨hrest, hless⟩ := isStart_skipBlanks (hname.append _) hline
          rw [List.length_cons] at hfuel
          have hmalformed : readFields most room fuel (skipBlanks q) = .error .malformed :=
            ih hproper hbreaks hgs hroom.2 (by omega) hrest
          rw [(readFields_succ hproperf (hread (endsNumber_comma q))).2
            (skipBlanks_cons rfl q), hmalformed]
          rfl

theorem readValue_list_malformed (hne : ∀ rest, skipBlanks s ≠ ']' :: rest)
    (h : readItems most room fuel (skipBlanks s) = .error .malformed) :
    readValue most (room + 1) (fuel + 1) ('[' :: s) = .error .malformed := by
  rw [readValue]
  split
  · rename_i hend
    exact absurd hend (hne _)
  · rw [h]
    rfl

theorem readValue_object_malformed (hne : ∀ rest, skipBlanks s ≠ '\x7d' :: rest)
    (h : readFields most room fuel (skipBlanks s) = .error .malformed) :
    readValue most (room + 1) (fuel + 1) ('\x7b' :: s) = .error .malformed := by
  rw [readValue]
  split
  · rename_i hend
    exact absurd hend (hne _)
  · rw [h]
    rfl

/-- A list that breaks off is malformed. -/
theorem readValue_list_broken {items : List Json} (hproper : ∀ v ∈ items, Proper v)
    (hbreaks : ∀ v ∈ items, BreaksOff v) (hcut : cutShort? most level (list items) = none)
    (hroom : depth (list items) ≤ room) (hfuel : 2 * p.length ≤ fuel)
    (hp : IsStart p (write level (list items))) :
    readValue most room fuel p = .error .malformed := by
  rw [depth] at hroom
  obtain ⟨room, rfl⟩ : ∃ n, room = n + 1 := ⟨room - 1, by omega⟩
  cases items with
  | nil =>
    rw [write] at hp
    obtain rfl | ⟨q, rfl, hq⟩ := isStart_cons_iff.1 hp
    · exact readValue_nil
    · obtain rfl | ⟨_, -, hnil⟩ := isStart_cons_iff.1 hq
      · obtain ⟨fuel, rfl⟩ : ∃ n, fuel = n + 1 := ⟨fuel - 1, by simp at hfuel; omega⟩
        exact readValue_list_malformed (fun _ h => by cases h) readItems_nil
      · exact absurd hnil not_isStart_nil
  | cons x xs =>
    rw [write] at hp
    simp only [List.cons_append, List.append_assoc] at hp
    obtain rfl | ⟨q, rfl, hq⟩ := isStart_cons_iff.1 hp
    · exact readValue_nil
    · have hstart := (startsValue_write (level + 1) (hproper x List.mem_cons_self)).append
      obtain ⟨hrest, hless⟩ := isStart_skipBlanks (hstart _) hq
      rw [List.length_cons] at hfuel
      obtain ⟨fuel, rfl⟩ : ∃ n, fuel = n + 1 := ⟨fuel - 1, by omega⟩
      exact readValue_list_malformed
        (fun rest => (ne_bracket_of_isStart (hstart _) hrest rest).1)
        (readItems_broken hproper hbreaks hcut (Nat.le_of_succ_le_succ hroom) (by omega) hrest)

/-- An object that breaks off is malformed. -/
theorem readValue_object_broken {fields : Table Text Json} (hproper : ∀ f ∈ fields, Proper f.2)
    (hbreaks : ∀ f ∈ fields, BreaksOff f.2) (hcut : cutShort? most level (object fields) = none)
    (hroom : depth (object fields) ≤ room) (hfuel : 2 * p.length ≤ fuel)
    (hp : IsStart p (write level (object fields))) :
    readValue most room fuel p = .error .malformed := by
  rw [depth] at hroom
  obtain ⟨room, rfl⟩ : ∃ n, room = n + 1 := ⟨room - 1, by omega⟩
  cases fields with
  | nil =>
    rw [write] at hp
    obtain rfl | ⟨q, rfl, hq⟩ := isStart_cons_iff.1 hp
    · exact readValue_nil
    · obtain rfl | ⟨_, -, hnil⟩ := isStart_cons_iff.1 hq
      · obtain ⟨fuel, rfl⟩ : ∃ n, fuel = n + 1 := ⟨fuel - 1, by simp at hfuel; omega⟩
        exact readValue_object_malformed (fun _ h => by cases h) readFields_nil
      · exact absurd hnil not_isStart_nil
  | cons f fs =>
    obtain ⟨k, x⟩ := f
    rw [write] at hp
    simp only [List.cons_append, List.append_assoc, List.nil_append] at hp
    obtain rfl | ⟨q, rfl, hq⟩ := isStart_cons_iff.1 hp
    · exact readValue_nil
    · have hstart (t : Text) : StartsValue (writeString k ++ t) := ⟨'\x22', _, rfl, by decide⟩
      obtain ⟨hrest, hless⟩ := isStart_skipBlanks (hstart _) hq
      rw [List.length_cons] at hfuel
      obtain ⟨fuel, rfl⟩ : ∃ n, fuel = n + 1 := ⟨fuel - 1, by omega⟩
      exact readValue_object_malformed
        (fun rest => (ne_bracket_of_isStart (hstart _) hrest rest).2)
        (readFields_broken hproper hbreaks hcut (Nat.le_of_succ_le_succ hroom) (by omega) hrest)

theorem breaksOff_int (i : Int) : BreaksOff (int i) := by
  intro most room level fuel p hcut _ hfuel hp
  cases p with
  | nil => exact .inl readValue_nil
  | cons d q =>
    rw [List.length_cons] at hfuel
    obtain ⟨fuel, rfl⟩ : ∃ n, fuel = n + 1 := ⟨fuel - 1, by omega⟩
    have hi : isLong most (int i) = false := by simpa [cutShort?] using hcut
    rw [write] at hp
    have hread := readScalar_of_isStart hi hp
    obtain ⟨c, r, hs, hc⟩ := signedDecimal_eq_cons i
    obtain ⟨e, x, hwhole⟩ := hp
    rw [hs] at hwhole
    obtain rfl := (List.cons.inj hwhole).1
    have hne {x : Char} (hsign : x ≠ '-') (hdigit : x.isDigit = false) (t : Text)
        (h : c :: q = x :: t) : False := hc.ne hsign hdigit (List.cons.inj h).1
    rwa [readValue.eq_7 _ _ _ _ (hne (by decide) rfl) (hne (by decide) rfl)
      (hne (by decide) rfl)]

theorem breaksOff_string (s : Text) : BreaksOff (string s) := by
  intro most room level fuel p _ _ hfuel hp
  rw [write, writeString, List.cons_append] at hp
  obtain rfl | ⟨q, rfl, hq⟩ := isStart_cons_iff.1 hp
  · exact .inl readValue_nil
  · rw [List.length_cons] at hfuel
    obtain ⟨fuel, rfl⟩ : ∃ n, fuel = n + 1 := ⟨fuel - 1, by omega⟩
    rw [readValue, readString_of_isStart hq]
    exact .inl rfl

/-- A start of a word is none. -/
theorem breaksOff_word {w : Text}
    (hw : w ∈ [['n', 'u', 'l', 'l'], ['t', 'r', 'u', 'e'], ['f', 'a', 'l', 's', 'e']])
    (hp : IsStart p w) : readValue most room fuel p = .error .malformed := by
  cases fuel with
  | zero => rfl
  | succ fuel =>
    obtain ⟨n, hn, rfl⟩ : ∃ n, n < w.length ∧ p = w.take n := by
      obtain ⟨c, x, rfl⟩ := hp
      exact ⟨p.length, by simp, by simp⟩
    simp only [List.mem_cons, List.not_mem_nil, or_false] at hw
    rcases hw with rfl | rfl | rfl
    all_goals
      simp only [List.length_cons, List.length_nil] at hn
      interval_cases n <;> rfl

/-- Every start of the text of a plain value is malformed, or a numeral up to its end. -/
theorem breaksOff {v : Json} (hv : Plain v) : BreaksOff v := by
  induction hv with
  | null =>
    intro most room level fuel p _ _ hfuel hp
    rw [write] at hp
    exact .inl (breaksOff_word (by decide) hp)
  | bool b =>
    intro most room level fuel p _ _ hfuel hp
    rw [write] at hp
    exact .inl (breaksOff_word (by cases b <;> decide) hp)
  | int i => exact breaksOff_int i
  | string s => exact breaksOff_string s
  | list hplain ih =>
    intro most room level fuel p hcut hroom hfuel hp
    exact .inl (readValue_list_broken (fun v hv => (hplain v hv).proper) ih hcut hroom hfuel hp)
  | object _ hplain ih =>
    intro most room level fuel p hcut hroom hfuel hp
    exact .inl (readValue_object_broken (fun f hf => (hplain f hf).proper) ih hcut hroom hfuel hp)

/-- A start of the text of an object that is not all of it is malformed. -/
theorem ofText_of_isStart {limits : Limits} {m : Table Text Json} (hplain : Plain (object m))
    (hdepth : depth (object m) ≤ limits.nested)
    (hcut : cutShort? limits.digits 0 (object m) = none) (hp : IsStart p (object m).text) :
    ofText limits p = .error .malformed := by
  have hstart : skipBlanks p = p := skipBlanks_of_isStart (startsValue_write 0 hplain.proper) hp
  cases hplain with
  | object _ hplain =>
    have hread : readValue limits.digits limits.nested (2 * p.length + 2) p = .error .malformed :=
      readValue_object_broken (fun f hf => (hplain f hf).proper)
        (fun f hf => breaksOff (hplain f hf)) hcut hdepth (Nat.le_add_right _ 2) hp
    rw [ofText, hstart, hread]

/-! ## What is written before an integer that is too long -/

theorem IsStart.append_left (h : IsStart p s) (t : Text) : IsStart (t ++ p) (t ++ s) := by
  obtain ⟨c, x, rfl⟩ := h
  exact ⟨c, x, by rw [List.append_assoc]⟩

theorem IsStart.append_right (h : IsStart p s) (t : Text) : IsStart p (s ++ t) := by
  obtain ⟨c, x, rfl⟩ := h
  exact ⟨c, x ++ t, by rw [List.append_assoc, List.cons_append]⟩

/-- Whether a text is the start of the text of a plain value that is no deeper than this one and
    has no integer that is too long. -/
def Remains (most level : Nat) (v : Json) (s : Text) : Prop :=
  ∃ v', Plain v' ∧ depth v' ≤ depth v ∧ cutShort? most level v' = none ∧ IsStart s (write level v')

/-- Of items, nothing remains, or those before the one that is cut short and what remains of it. -/
theorem remains_items {items : List Json} {lead : Text} (hplain : ∀ v ∈ items, Plain v)
    (hremains : ∀ v ∈ items, ∀ {s}, cutShort? most level v = some s → Remains most level v s)
    (h : cutItems? most level lead items = some s) :
    s = [] ∨ ∃ y ys, (∀ v ∈ y :: ys, Plain v) ∧ depthItems (y :: ys) ≤ depthItems items ∧
      cutItems? most level lead (y :: ys) = none ∧
      ∀ c t, IsStart s (lead ++ write level y ++ writeItems level ys ++ c :: t) := by
  induction items generalizing lead s with
  | nil => cases h
  | cons x xs ih =>
    obtain ⟨hplainx, hplain⟩ := List.forall_mem_cons.1 hplain
    obtain ⟨hremainsx, hremains⟩ := List.forall_mem_cons.1 hremains
    rw [cutItems?] at h
    split at h
    · cases h
      exact .inl rfl
    rename_i hlong
    right
    split at h
    · rename_i s' hx
      cases h
      obtain ⟨y, hy, hdepth, hcut, hstart⟩ := hremainsx hx
      refine ⟨y, [], List.forall_mem_singleton.2 hy, ?_, ?_, fun c t => ?_⟩
      · rw [depthItems, depthItems]
        exact max_le_max hdepth (Nat.zero_le _)
      · exact cutItems?_eq_none (List.forall_mem_singleton.2 hcut)
      · rw [List.append_assoc, List.append_assoc]
        exact (hstart.append_right _).append_left lead
    · rename_i hx
      obtain ⟨s', hrest, rfl⟩ := Option.map_eq_some_iff.1 h
      have hwhole : cutItems? most level lead [x] = none :=
        cutItems?_eq_none (List.forall_mem_singleton.2 hx)
      obtain rfl | ⟨y, ys, hys, hdepth, hcut, hstart⟩ := ih hplain hremains hrest
      · refine ⟨x, [], List.forall_mem_singleton.2 hplainx, ?_, hwhole, fun c t => ⟨c, t, ?_⟩⟩
        · simp only [depthItems]
          omega
        · simp [writeItems]
      · refine ⟨x, y :: ys, List.forall_mem_cons.2 ⟨hplainx, hys⟩, ?_, ?_, fun c t => ?_⟩
        · rw [depthItems, depthItems]
          exact max_le_max le_rfl hdepth
        · rw [cutItems?, if_neg hlong, hx]
          exact Option.map_eq_none_iff.2 hcut
        · simpa only [writeItems, List.append_assoc] using
            (hstart c t).append_left (lead ++ write level x)

/-- Of fields, those before the one that is cut short remain, and what remains of it. -/
theorem remains_fields {fields : List (Text × Json)} {lead : Text}
    (hplain : ∀ f ∈ fields, Plain f.2)
    (hremains : ∀ f ∈ fields, ∀ {s}, cutShort? most level f.2 = some s →
      Remains most level f.2 s)
    (h : cutFields? most level lead fields = some s) :
    ∃ g gs, (∀ f ∈ g :: gs, Plain f.2) ∧ ((g :: gs).map Prod.fst).Sublist (fields.map Prod.fst) ∧
      depthFields (g :: gs) ≤ depthFields fields ∧ cutFields? most level lead (g :: gs) = none ∧
      ∀ t, IsStart s (lead ++ writeString g.1 ++ [':', ' '] ++ write level g.2 ++
        writeFields level gs ++ t) := by
  induction fields generalizing lead s with
  | nil => cases h
  | cons f fs ih =>
    obtain ⟨k, x⟩ := f
    obtain ⟨hplainx, hplain⟩ := List.forall_mem_cons.1 hplain
    obtain ⟨hremainsx, hremains⟩ := List.forall_mem_cons.1 hremains
    rw [cutFields?] at h
    split at h
    · rename_i s' hx
      cases h
      obtain ⟨y, hy, hdepth, hcut, hstart⟩ := hremainsx hx
      refine ⟨(k, y), [], List.forall_mem_singleton.2 hy, ?_, ?_, ?_, fun t => ?_⟩
      · exact List.cons_sublist_cons.2 (List.nil_sublist _)
      · rw [depthFields, depthFields]
        exact max_le_max hdepth (Nat.zero_le _)
      · exact cutFields?_eq_none (List.forall_mem_singleton.2 hcut)
      · rw [List.append_assoc _ _ t, List.append_assoc _ (write level y)]
        exact (hstart.append_right _).append_left _
    · rename_i hx
      obtain ⟨s', hrest, rfl⟩ := Option.map_eq_some_iff.1 h
      obtain ⟨g, gs, hgs, hkeys, hdepth, hcut, hstart⟩ := ih hplain hremains hrest
      refine ⟨(k, x), g :: gs, List.forall_mem_cons.2 ⟨hplainx, hgs⟩, ?_, ?_, ?_, fun t => ?_⟩
      · exact List.cons_sublist_cons.2 hkeys
      · rw [depthFields, depthFields]
        exact max_le_max le_rfl hdepth
      · rw [cutFields?, hx]
        exact Option.map_eq_none_iff.2 hcut
      · simpa only [writeFields, List.append_assoc] using
          (hstart t).append_left (lead ++ writeString k ++ [':', ' '] ++ write level x)

/-- Of an object, an object remains. -/
theorem remains_object {fields : Table Text Json} (hkeys : fields.keys.Nodup)
    (hplain : ∀ f ∈ fields, Plain f.2)
    (hremains : ∀ f ∈ fields, ∀ {s}, cutShort? most (level + 1) f.2 = some s →
      Remains most (level + 1) f.2 s)
    (h : cutShort? most level (object fields) = some s) :
    ∃ m, Plain (object m) ∧ depth (object m) ≤ depth (object fields) ∧
      cutShort? most level (object m) = none ∧ IsStart s (write level (object m)) := by
  obtain ⟨g, gs, hgs, hsub, hdepth, hcut, hstart⟩ := remains_fields hplain hremains h
  refine ⟨g :: gs, .object (hkeys.sublist hsub) hgs, Nat.succ_le_succ hdepth, hcut, ?_⟩
  rw [write]
  simpa using hstart (newline level ++ ['\x7d'])

/-- What is written of a plain value before its first integer that is too long remains of it. -/
theorem remains {v : Json} (hv : Plain v) (h : cutShort? most level v = some s) :
    Remains most level v s := by
  induction hv generalizing level s with
  | null => cases h
  | bool b => cases h
  | string t => cases h
  | int i =>
    rw [cutShort?] at h
    split at h
    · cases h
      exact ⟨.null, .null, Nat.le_refl _, rfl, 'n', _, rfl⟩
    · cases h
  | list hplain ih =>
    obtain rfl | ⟨y, ys, hys, hdepth, hcut, hstart⟩ :=
      remains_items hplain (fun v hv {_} h => ih v hv h) h
    · exact ⟨.null, .null, Nat.zero_le _, rfl, 'n', _, rfl⟩
    · refine ⟨.list (y :: ys), .list hys, Nat.succ_le_succ hdepth, hcut, ?_⟩
      rw [write]
      simpa [newline] using hstart '\n' (List.replicate (2 * level) ' ' ++ [']'])
  | object hkeys hplain ih =>
    obtain ⟨m, hm⟩ := remains_object hkeys hplain (fun f hf {_} h => ih f hf h) h
    exact ⟨.object m, hm⟩

/-- What is written of a plain object before an integer that is too long is a start of the text of
    a plain object that has none. -/
theorem exists_of_cutShort? {m : Table Text Json} (hplain : Plain (object m))
    (h : cutShort? most 0 (object m) = some s) : ∃ m', Plain (object m') ∧
      depth (object m') ≤ depth (object m) ∧ cutShort? most 0 (object m') = none ∧
      IsStart s (object m').text := by
  cases hplain with
  | object hkeys hplain =>
    exact remains_object hkeys hplain (fun f hf {_} h => remains (hplain f hf) h) h

end PromptFill.Json
