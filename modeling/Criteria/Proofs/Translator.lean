import Criteria.Proofs.Schema.ByteOrder
import Criteria.Translator
import Mathlib.Data.List.Infix

/-! # A message tells which issue it is
The built-in translators set the name of a field into a text without escaping it, and a name may hold
anything, even the text of another message. The messages are told apart all the same: what a text
says before the name is a prefix code, of two openings neither begins with the other. So the opening
of a message gives its issue away, and what is left between the opening and the closing is the name.

* `Wording`: a text with or without a place for a name.
* `Locale.wording`: how a locale words an issue, `Locale.fieldIssue_eq`.

Main statement: `Locale.messages_unambiguous`. -/

namespace Criteria

open Text

/-! ## Wordings -/

/-- A **wording**: a fixed text, or a text around a name. -/
inductive Wording where
  /-- A text that shows no name. -/
  | fixed (text : String)
  /-- What stands before the name, and what stands after it. -/
  | around (opening closing : String)

namespace Wording

/-- What the text **opens** with, whatever the name. -/
def opening : Wording → String
  | fixed text => text
  | around opening _ => opening

/-- The text with a name set in. -/
def text (w : Wording) (name : String) : String :=
  match w with
  | fixed text => text
  | around opening closing => opening ++ name ++ closing

/-- A text begins with its opening. -/
theorem opening_isPrefix (w : Wording) (name : String) :
    bytes w.opening <+: bytes (w.text name) := by
  cases w with
  | fixed text => exact List.prefix_rfl
  | around opening closing =>
    rw [Wording.opening, text, bytes_isPrefix_iff, String.append_assoc, String.toList_append]
    exact List.prefix_append _ _

/-- Between the same opening and closing, the same text holds the same name. -/
theorem name_eq_of_text_eq {opening closing name other : String}
    (h : (around opening closing).text name = (around opening closing).text other) :
    name = other := by
  rw [text, text, String.append_left_inj] at h
  exact (String.append_right_inj opening).1 h

end Wording

namespace Locale

/-! ## The wordings of a locale -/

/-- How a locale words an issue of a field. -/
def fieldWording : Locale → FieldIssue → Wording
  | english, .emptyArray => .around "Field '" "' must contain values"
  | english, .emptyRelation => .fixed "A relation must contain rules"
  | english, .emptyValue => .around "Value for '" "' cannot be empty"
  | english, .invalidOperation => .around "Invalid operation for '" "'"
  | english, .invalidRule => .around "Invalid rule for field '" "'"
  | english, .invalidValue => .around "Invalid value for '" "'"
  | english, .missingEntry => .around "Configuration doesn't contain an entry with name '" "'"
  | english, .unsupportedOperation => .around "Operation is not supported for '" "'"
  | dutch, .emptyArray => .around "Het veld '" "' moet waarden bevatten"
  | dutch, .emptyRelation => .fixed "Een relatie moet regels bevatten"
  | dutch, .emptyValue => .around "De waarde voor '" "' mag niet leeg zijn"
  | dutch, .invalidOperation => .around "Ongeldige operatie voor '" "'"
  | dutch, .invalidRule => .around "Ongeldige regel voor '" "'"
  | dutch, .invalidValue => .around "Ongeldige waarde voor '" "'"
  | dutch, .missingEntry => .around "De configuratie bevat geen regel voor '" "'"
  | dutch, .unsupportedOperation => .around "De operatie voor '" "' wordt niet ondersteund"

/-- The text of an issue with a field is its wording with the field set in. -/
theorem fieldIssue_eq (l : Locale) (i : FieldIssue) (field : String) :
    l.translator.fieldIssue i field = (l.fieldWording i).text field := by
  cases l <;> cases i <;> rfl

/-- A relation without children is the one issue of a field whose text leaves the name out. -/
theorem exists_around (l : Locale) {i : FieldIssue} (h : i ≠ .emptyRelation) :
    ∃ opening closing, l.fieldWording i = .around opening closing := by
  cases i with
  | emptyRelation => exact absurd rfl h
  | _ => cases l <;> exact ⟨_, _, rfl⟩

/-- How a locale words an issue of either sort. -/
def wording (l : Locale) : Issue ⊕ FieldIssue → Wording
  | .inl i => .fixed (l.translator.issue i)
  | .inr i => l.fieldWording i

/-! ## The openings are a prefix code -/

/-- Every issue of either sort. -/
def subjects : List (Issue ⊕ FieldIssue) := Issue.all.map .inl ++ FieldIssue.all.map .inr

/-- There is no other issue of either sort. -/
theorem mem_subjects (a : Issue ⊕ FieldIssue) : a ∈ subjects := by
  rcases a with i | i
  · exact List.mem_append_left _ (List.mem_map_of_mem (Vocabulary.mem_all i))
  · exact List.mem_append_right _ (List.mem_map_of_mem (Vocabulary.mem_all i))

/-- The openings are compared byte by byte, which evaluates at once. -/
theorem eq_of_opening_isPrefix_of_mem : ∀ l ∈ all, ∀ a ∈ subjects, ∀ b ∈ subjects,
    bytes (l.wording a).opening <+: bytes (l.wording b).opening → a = b := by
  decide +kernel

/-- **Of two openings neither begins with the other**. -/
theorem eq_of_opening_isPrefix {l : Locale} {a b : Issue ⊕ FieldIssue}
    (h : bytes (l.wording a).opening <+: bytes (l.wording b).opening) : a = b :=
  eq_of_opening_isPrefix_of_mem l (Vocabulary.mem_all l) a (mem_subjects a) b (mem_subjects b) h

/-- Texts that are the same are of the same issue, whatever names stand in them. -/
theorem eq_of_text_eq {l : Locale} {a b : Issue ⊕ FieldIssue} {name other : String}
    (h : (l.wording a).text name = (l.wording b).text other) : a = b := by
  have ha : bytes (l.wording a).opening <+: bytes ((l.wording b).text other) :=
    h ▸ (l.wording a).opening_isPrefix name
  have hb := (l.wording b).opening_isPrefix other
  rcases List.prefix_or_prefix_of_prefix ha hb with hab | hba
  · exact eq_of_opening_isPrefix hab
  · exact (eq_of_opening_isPrefix hba).symm

/-- **A message tells which issue it is, and of which field**. In each locale, messages about fields
are the same only if the issue is, and then the field is the same too, save for a relation without
children, whose message names no field. A message about a field is never one that concerns no field,
and of these no two are the same. -/
theorem messages_unambiguous (l : Locale) :
    (∀ (i j : FieldIssue) (field other : String),
      l.translator.fieldIssue i field = l.translator.fieldIssue j other →
        i = j ∧ (i ≠ .emptyRelation → field = other)) ∧
    (∀ (i : FieldIssue) (field : String) (j : Issue),
      l.translator.fieldIssue i field ≠ l.translator.issue j) ∧
    ∀ i j : Issue, l.translator.issue i = l.translator.issue j → i = j := by
  -- The opening of a text tells the issue, and what stands around the name tells the name.
  refine ⟨fun i j field other h => ?_, fun i field j h => ?_, fun i j h => ?_⟩
  · rw [fieldIssue_eq, fieldIssue_eq] at h
    obtain rfl : i = j :=
      Sum.inr.inj (eq_of_text_eq (show (l.wording (.inr i)).text field = _ from h))
    refine ⟨rfl, fun hi => ?_⟩
    obtain ⟨opening, closing, haround⟩ := l.exists_around hi
    rw [haround] at h
    exact Wording.name_eq_of_text_eq h
  · rw [fieldIssue_eq] at h
    have hsame : (Sum.inr i : Issue ⊕ FieldIssue) = .inl j :=
      eq_of_text_eq (show (l.wording (.inr i)).text field = (l.wording (.inl j)).text field from h)
    cases hsame
  · have hsame : (Sum.inl i : Issue ⊕ FieldIssue) = .inl j :=
      eq_of_text_eq (show (l.wording (.inl i)).text "" = (l.wording (.inl j)).text "" from h)
    exact Sum.inl.inj hsame

/-- Names that quote themselves do not make one message out of two. -/
theorem messages_of_quoted_names :
    english.translator.fieldIssue .emptyRelation "pets" =
        english.translator.fieldIssue .emptyRelation "Invalid value for 'pets'" ∧
      FieldIssue.emptyRelation = .emptyRelation ∧
      dutch.translator.fieldIssue .invalidValue "a' voor 'b" =
        "Ongeldige waarde voor 'a' voor 'b'" ∧
      FieldIssue.invalidValue ≠ .emptyRelation ∧ "a' voor 'b" = "a' voor 'b" ∧
      dutch.translator.issue .invalidGroup = "Ongeldige groep" ∧
      Issue.invalidGroup = .invalidGroup := by
  have hempty : english.translator.fieldIssue .emptyRelation "pets" =
      english.translator.fieldIssue .emptyRelation "Invalid value for 'pets'" := rfl
  have hvalue : FieldIssue.invalidValue ≠ .emptyRelation := by decide
  exact ⟨hempty, ((messages_unambiguous english).1 _ _ _ _ hempty).1, rfl, hvalue,
    ((messages_unambiguous dutch).1 .invalidValue .invalidValue _ _ rfl).2 hvalue, rfl,
    (messages_unambiguous dutch).2.2 .invalidGroup .invalidGroup rfl⟩

end Locale

end Criteria
