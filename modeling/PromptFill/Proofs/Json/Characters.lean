/-
  The characters that values are written in.

  Whatever is in a proper value, its text holds line feeds and printable ASCII characters only
  (`isPlain_write`): all others stand in strings and are written as escapes.  So nothing is
  lost when the text goes through a file whose line ends are unified, and each character is one
  byte there.
-/
import PromptFill.Proofs.Json.RoundTrip
import PromptFill.Text.Lines
import PromptFill.Text.Utf8

namespace PromptFill

/-- Whether a text holds line feeds and printable ASCII characters only. -/
def Text.IsPlain (s : Text) : Prop := ∀ c ∈ s, c = '\n' ∨ 0x20 ≤ c.toNat ∧ c.toNat ≤ 0x7E

namespace Text

variable {s t : Text}

instance : DecidablePred IsPlain := fun s => List.decidableBAll _ s

theorem isPlain_append : IsPlain (s ++ t) ↔ IsPlain s ∧ IsPlain t := List.forall_mem_append

theorem isPlain_cons {c : Char} :
    IsPlain (c :: s) ↔ (c = '\n' ∨ 0x20 ≤ c.toNat ∧ c.toNat ≤ 0x7E) ∧ IsPlain s :=
  List.forall_mem_cons

theorem isPlain_nil : IsPlain [] := List.forall_mem_nil _

theorem unifyNewlines_of_isPlain (h : IsPlain s) : unifyNewlines s = s := by
  induction s with
  | nil => rfl
  | cons c s ih =>
    obtain ⟨hc, hs⟩ := isPlain_cons.1 h
    have hne : c ≠ '\r' := by
      rintro rfl
      revert hc
      decide
    rw [unifyNewlines.eq_4 c s (fun _ h _ => hne h) hne, ih hs]

/-- Every character is one byte. -/
theorem size_encode_of_isPlain (h : IsPlain s) : (encode s).size = s.length := by
  induction s with
  | nil => rfl
  | cons c s ih =>
    obtain ⟨hc, hs⟩ := isPlain_cons.1 h
    have hsize : c.utf8Size = 1 := by
      have hless : c.toNat ≤ 0x7F := by
        rcases hc with rfl | ⟨-, hc⟩
        · decide
        · exact hc.trans (by decide)
      exact Char.utf8Size_eq_one_iff.2 (UInt32.le_iff_toNat_le.2 hless)
    rw [← List.singleton_append, encode_append, ByteArray.size_append, size_encode_singleton, hsize,
      ih hs, List.length_append, List.length_singleton]

/-- So the first bytes are those of the first characters. -/
theorem extract_encode_of_isPlain (h : IsPlain s) {n : Nat} (hn : n ≤ s.length) :
    (encode s).extract 0 n = encode (s.take n) := by
  have hsize : (encode (s.take n)).size = n := by
    rw [size_encode_of_isPlain fun c hc => h c (List.mem_of_mem_take hc), List.length_take,
      Nat.min_eq_left hn]
  conv_lhs => rw [← List.take_append_drop n s, encode_append]
  exact ByteArray.extract_append_eq_left hsize.symm

end Text

namespace Json

variable {level : Nat}

theorem isPlain_newline : (newline level).IsPlain := by
  refine Text.isPlain_cons.2 ⟨.inl rfl, fun c hc => ?_⟩
  rw [List.eq_of_mem_replicate hc]
  exact .inr (by decide)

theorem isPlain_unitEscape {u : Nat} (h : u < 0x10000) : (unitEscape u).IsPlain := by
  obtain ⟨a, b, c, d, ha, hb, hc, hd, -, hhex⟩ := hex_four h
  have hdigit {x : Nat} (hx : x < 16) : 0x20 ≤ x.digitChar.toNat ∧ x.digitChar.toNat ≤ 0x7E := by
    revert x
    decide
  rw [unitEscape, hhex]
  simp only [Text.isPlain_cons, Text.isPlain_nil, and_true]
  exact ⟨.inr (by decide), .inr (by decide), .inr (hdigit ha), .inr (hdigit hb), .inr (hdigit hc),
    .inr (hdigit hd)⟩

theorem isPlain_writeChar (x : Char) : (writeChar x).IsPlain := by
  rcases writeChar_cases x with ⟨h, hlow, hhigh, -⟩ | ⟨e, h, he⟩ | h <;> rw [h]
  · exact Text.isPlain_cons.2 ⟨.inr ⟨hlow, hhigh⟩, Text.isPlain_nil⟩
  · have hletter : 0x20 ≤ e.toNat ∧ e.toNat ≤ 0x7E := by
      rw [namedEscape?.eq_def] at he
      split at he <;> cases he <;> decide
    exact Text.isPlain_cons.2 ⟨.inr (by decide),
      Text.isPlain_cons.2 ⟨.inr hletter, Text.isPlain_nil⟩⟩
  · intro c hc
    obtain ⟨u, hu, hc⟩ := List.mem_flatMap.1 hc
    exact isPlain_unitEscape (unit_lt hu) c hc

theorem isPlain_writeString (s : Text) : (writeString s).IsPlain := by
  have hinside : Text.IsPlain (s.flatMap writeChar) := by
    intro c hc
    obtain ⟨x, -, hc⟩ := List.mem_flatMap.1 hc
    exact isPlain_writeChar x c hc
  simp only [writeString, List.cons_append, Text.isPlain_cons, Text.isPlain_append, hinside,
    Text.isPlain_nil]
  decide

theorem isPlain_signedDecimal (i : Int) : (Text.signedDecimal i).IsPlain := by
  have hdigits (n : Nat) : (Text.decimal n).IsPlain := by
    intro c hc
    obtain ⟨hlow, hhigh⟩ := Char.isDigit_iff_toNat.1 (isDigit_of_mem_decimal hc)
    exact .inr ⟨Nat.le_trans (by decide) hlow, Nat.le_trans hhigh (by decide)⟩
  cases i with
  | ofNat n => exact hdigits n
  | negSucc n => exact Text.isPlain_cons.2 ⟨.inr (by decide), hdigits (n + 1)⟩

theorem isPlain_writeItems {xs : List Json} (h : ∀ v ∈ xs, (write level v).IsPlain) :
    (writeItems level xs).IsPlain := by
  induction xs with
  | nil => exact Text.isPlain_nil
  | cons x xs ih =>
    obtain ⟨hx, hxs⟩ := List.forall_mem_cons.1 h
    simp only [writeItems, List.cons_append, Text.isPlain_cons, Text.isPlain_append,
      isPlain_newline, hx, ih hxs]
    decide

theorem isPlain_writeFields {fs : List (Text × Json)} (h : ∀ f ∈ fs, (write level f.2).IsPlain) :
    (writeFields level fs).IsPlain := by
  induction fs with
  | nil => exact Text.isPlain_nil
  | cons f fs ih =>
    obtain ⟨hf, hfs⟩ := List.forall_mem_cons.1 h
    simp only [writeFields, List.cons_append, Text.isPlain_cons, Text.isPlain_append,
      isPlain_newline, isPlain_writeString, hf, ih hfs, Text.isPlain_nil]
    decide

theorem isPlain_writeFloat (x : Binary64) : (writeFloat x).IsPlain := by
  cases x with
  | nan => decide
  | infinite negative => cases negative <;> decide
  | finite negative m q =>
    intro c hc
    rcases isNumberChar_finiteText negative m q c hc with hdigit | rfl | rfl | rfl | rfl
    · obtain ⟨hlow, hhigh⟩ := Char.isDigit_iff_toNat.1 hdigit
      exact .inr ⟨Nat.le_trans (by decide) hlow, Nat.le_trans hhigh (by decide)⟩
    all_goals exact .inr (by decide)

/-- A proper value is written in line feeds and printable ASCII characters. -/
theorem isPlain_write {v : Json} (hv : Proper v) (level : Nat) : (write level v).IsPlain := by
  induction hv generalizing level with
  | null => rw [write]; decide
  | bool b => cases b <;> rw [write] <;> decide
  | int i =>
    rw [write]
    exact isPlain_signedDecimal i
  | @float x _ =>
    rw [write]
    exact isPlain_writeFloat x
  | string s =>
    rw [write]
    exact isPlain_writeString s
  | @list items _ ih =>
    cases items with
    | nil => rw [write]; decide
    | cons x xs =>
      obtain ⟨hx, hxs⟩ := List.forall_mem_cons.1 ih
      simp only [write, List.cons_append, Text.isPlain_cons, Text.isPlain_append, isPlain_newline,
        hx, isPlain_writeItems fun v hv => hxs v hv _, Text.isPlain_nil]
      decide
  | @object fields _ _ ih =>
    cases fields with
    | nil => rw [write]; decide
    | cons f fs =>
      obtain ⟨hf, hfs⟩ := List.forall_mem_cons.1 ih
      simp only [write, List.cons_append, Text.isPlain_cons, Text.isPlain_append, isPlain_newline,
        isPlain_writeString, hf, isPlain_writeFields fun f hf => hfs f hf _, Text.isPlain_nil]
      decide

end Json

end PromptFill
