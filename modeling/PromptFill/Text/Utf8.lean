/-
  Texts as bytes.

  Files hold bytes.  `encode` is the UTF-8 form of a text, `decode?` reads bytes that are
  well-formed UTF-8 and refuses all others, and `decodeLossy` reads any bytes by leaving
  out those that belong to no character.

  `decode?_encode` says that an encoded text reads back, and `decode?_eq_some_iff` that nothing
  else reads as a text.  Of an encoded text nothing is left out (`decodeLossy_encode`).
-/
import PromptFill.Text.Basic

namespace PromptFill.Text

/-- The UTF-8 form of a text. -/
def encode (s : Text) : ByteArray := (String.ofList s).toByteArray

/-- The text that the bytes are the UTF-8 form of, if there is one. -/
def decode? (b : ByteArray) : Option Text := b.utf8Decode?.map Array.toList

/-- The characters from position `i` on, without the bytes that start none. -/
def decodeLossyFrom (b : ByteArray) (i : Nat) : Text :=
  if _h : i < b.size then
    match b.utf8DecodeChar? i with
    | some c => c :: decodeLossyFrom b (i + c.utf8Size)
    | none => decodeLossyFrom b (i + 1)
  else []
termination_by b.size - i
decreasing_by
  · have := c.utf8Size_pos
    omega
  · omega

/-- The characters in the bytes, without the bytes that belong to no character. -/
def decodeLossy (b : ByteArray) : Text := decodeLossyFrom b 0

/-- The number of bytes of a text in UTF-8. -/
def byteLength (s : Text) : Nat := (encode s).size

theorem decode?_encode (s : Text) : decode? (encode s) = some s := by
  simp [decode?, encode, List.utf8Decode?_utf8Encode]

theorem encode_injective {s t : Text} (h : encode s = encode t) : s = t := by
  have hdecode := decode?_encode t
  rw [← h, decode?_encode] at hdecode
  exact Option.some.inj hdecode

theorem decode?_eq_some_iff {b : ByteArray} {s : Text} : decode? b = some s ↔ b = encode s := by
  constructor
  · intro h
    have hvalid : b.IsValidUTF8 := by
      obtain ⟨chars, hchars, -⟩ := Option.map_eq_some_iff.1 h
      exact ByteArray.isSome_utf8Decode?_iff.1 (by rw [hchars]; rfl)
    obtain ⟨s', hs'⟩ := hvalid
    have hb : b = encode s' := by rw [hs', encode, String.toByteArray_ofList]
    rw [hb, decode?_encode, Option.some.injEq] at h
    rw [hb, h]
  · rintro rfl
    exact decode?_encode s

theorem encode_append (s t : Text) : encode (s ++ t) = encode s ++ encode t := by
  rw [encode, String.ofList_append, String.toByteArray_append, encode, encode]

/-- A character read off at the place where its bytes begin. -/
theorem utf8DecodeChar?_encode (s t : Text) (c : Char) :
    (encode (s ++ c :: t)).utf8DecodeChar? (encode s).size = some c := by
  rw [encode_append, ByteArray.utf8DecodeChar?_eq_utf8DecodeChar?_extract,
    ByteArray.extract_append_eq_right rfl ByteArray.size_append, encode, String.toByteArray_ofList,
    List.utf8DecodeChar?_utf8Encode_cons]

theorem size_encode_singleton (c : Char) : (encode [c]).size = c.utf8Size := by
  simp [encode, List.utf8Encode]

theorem decodeLossyFrom_encode (s t : Text) :
    decodeLossyFrom (encode (s ++ t)) (encode s).size = t := by
  induction t generalizing s with
  | nil => rw [List.append_nil, decodeLossyFrom, dif_neg (Nat.lt_irrefl _)]
  | cons c t ih =>
    have hnext : (encode (s ++ [c])).size = (encode s).size + c.utf8Size := by
      rw [encode_append, ByteArray.size_append, size_encode_singleton]
    have hmore : (encode s).size < (encode (s ++ c :: t)).size :=
      ByteArray.lt_size_of_isSome_utf8DecodeChar? (by rw [utf8DecodeChar?_encode]; rfl)
    rw [decodeLossyFrom, dif_pos hmore, utf8DecodeChar?_encode]
    have hrest := ih (s ++ [c])
    rw [List.append_assoc, List.singleton_append, hnext] at hrest
    exact congrArg (c :: ·) hrest

/-- Nothing is left out of the bytes of a text. -/
theorem decodeLossy_encode (s : Text) : decodeLossy (encode s) = s := decodeLossyFrom_encode [] s

end PromptFill.Text
