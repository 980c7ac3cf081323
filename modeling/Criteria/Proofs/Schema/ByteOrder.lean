import Mathlib.Data.List.Lex
import Mathlib.Data.String.Basic

/-! # The order of texts is the order of their bytes
Texts are compared character by character, by code points. Their encodings are compared byte by
byte, and both comparisons agree: the first byte of a character tells how many bytes it takes, more
for greater code points, and among characters of one length the bytes are digits of the code point.
It also tells where the next character begins, so what texts begin with can be read off the bytes too.

Main statements: `Text.bytes_lt_bytes_iff`, a text is less than another exactly if its bytes are;
`Text.bytes_isPrefix_iff`, a text begins with another exactly if its bytes do. -/

namespace Criteria.Text

/-- The **bytes** of a text. -/
def bytes (s : String) : List UInt8 := s.toUTF8.data.toList

/-- The bytes of a text are those of its characters in turn. -/
theorem bytes_eq_flatMap (s : String) : bytes s = s.toList.flatMap String.utf8EncodeChar := by
  conv => lhs; rw [← s.ofList_toList]
  rw [bytes, String.toUTF8_eq_toByteArray, String.toByteArray_ofList, List.utf8Encode,
    List.toList_data_toByteArray]

/-- Of two characters the bytes of the lesser come first, whatever follows them. -/
theorem utf8EncodeChar_append_lt {c d : Char} (h : c < d) (xs ys : List UInt8) :
    String.utf8EncodeChar c ++ xs < String.utf8EncodeChar d ++ ys := by
  have hless : c.val.toNat < d.val.toNat := h
  have hvalid : d.val.toNat < 0x110000 := by
    rcases d.valid with hlow | hhigh <;> omega
  -- Each byte after the first holds one digit to the base 64, on top of a fixed mark.
  have hdigit (n : Nat) : n / 0x1000 = n / 64 / 64 ∧ n / 0x40000 = n / 64 / 64 / 64 := by
    omega
  have hmark (n : Nat) : (n % 64 + 128) % 256 = n % 64 + 128 := by
    omega
  simp only [String.utf8EncodeChar]
  generalize c.val.toNat = v at *
  generalize d.val.toNat = w at *
  -- Four lengths for each of the two; where the second is shorter, it would be the lesser one.
  repeat' split
  all_goals
    simp only [List.cons_append, List.nil_append, List.cons_lt_cons_iff, UInt8.lt_iff_toNat_lt,
      UInt8.toNat_ofNat', ← UInt8.toNat_inj, hdigit, hmark]
    omega

/-- Characters are ordered as their bytes are, list by list. -/
theorem flatMap_utf8EncodeChar_lt {cs ds : List Char} (h : cs < ds) :
    cs.flatMap String.utf8EncodeChar < ds.flatMap String.utf8EncodeChar := by
  induction cs generalizing ds with
  | nil =>
    cases ds with
    | nil => exact absurd h (List.lt_irrefl [])
    | cons d ds =>
      obtain ⟨b, bs, hbytes⟩ := List.exists_cons_of_ne_nil (String.utf8EncodeChar_ne_nil (c := d))
      rw [List.flatMap_cons, hbytes, List.cons_append]
      exact List.nil_lt_cons _ _
  | cons c cs ih =>
    cases ds with
    | nil => exact absurd h (List.not_lt_nil _)
    | cons d ds =>
      rw [List.flatMap_cons, List.flatMap_cons]
      rcases List.cons_lt_cons_iff.1 h with hlt | ⟨rfl, hlt⟩
      · exact utf8EncodeChar_append_lt hlt _ _
      · exact List.append_left_lt (ih hlt)

/-- **A text is less than another exactly if its bytes are**. -/
theorem bytes_lt_bytes_iff {s t : String} : bytes s < bytes t ↔ s < t := by
  have hmono {s t : String} (h : s < t) : bytes s < bytes t := by
    rw [bytes_eq_flatMap, bytes_eq_flatMap]
    exact flatMap_utf8EncodeChar_lt (String.lt_iff_toList_lt.1 h)
  refine ⟨fun h => ?_, hmono⟩
  rcases lt_trichotomy s t with hlt | rfl | hgt
  · exact hlt
  · exact absurd h (List.lt_irrefl _)
  · exact absurd (List.lt_trans h (hmono hgt)) (List.lt_irrefl _)

/-- Texts with the same bytes are the same. -/
theorem bytes_inj {s t : String} : bytes s = bytes t ↔ s = t := by
  refine ⟨fun h => ?_, congrArg bytes⟩
  rcases lt_trichotomy s t with hlt | heq | hgt
  · exact absurd (h ▸ bytes_lt_bytes_iff.2 hlt) (List.lt_irrefl _)
  · exact heq
  · exact absurd (h ▸ bytes_lt_bytes_iff.2 hgt) (List.lt_irrefl _)

/-- Bytes that go on alike from the start of a character are those of the same character. -/
theorem eq_of_utf8EncodeChar_append {c d : Char} {xs ys : List UInt8}
    (h : String.utf8EncodeChar c ++ xs = String.utf8EncodeChar d ++ ys) : c = d := by
  rcases lt_trichotomy c d with hlt | heq | hgt
  · exact absurd (h ▸ utf8EncodeChar_append_lt hlt xs ys) (List.lt_irrefl _)
  · exact heq
  · exact absurd (h ▸ utf8EncodeChar_append_lt hgt ys xs) (List.lt_irrefl _)

/-- If the bytes of some characters begin those of others, the characters begin the others. -/
theorem isPrefix_of_flatMap_utf8EncodeChar {cs ds : List Char}
    (h : cs.flatMap String.utf8EncodeChar <+: ds.flatMap String.utf8EncodeChar) : cs <+: ds := by
  induction cs generalizing ds with
  | nil => exact List.nil_prefix
  | cons c cs ih =>
    obtain ⟨rest, hrest⟩ := h
    cases ds with
    | nil => simp [String.utf8EncodeChar_ne_nil] at hrest
    | cons d ds =>
      rw [List.flatMap_cons, List.flatMap_cons, List.append_assoc] at hrest
      obtain rfl := eq_of_utf8EncodeChar_append hrest
      exact List.cons_prefix_cons.2 ⟨rfl, ih ⟨rest, List.append_cancel_left hrest⟩⟩

/-- **A text begins with another exactly if its bytes do**. -/
theorem bytes_isPrefix_iff {s t : String} : bytes s <+: bytes t ↔ s.toList <+: t.toList := by
  rw [bytes_eq_flatMap, bytes_eq_flatMap]
  refine ⟨isPrefix_of_flatMap_utf8EncodeChar, ?_⟩
  rintro ⟨rest, h⟩
  rw [← h, List.flatMap_append]
  exact List.prefix_append _ _

end Criteria.Text
