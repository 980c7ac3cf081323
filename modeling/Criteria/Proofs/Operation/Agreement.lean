import Criteria.Operand
import Criteria.Proofs.Schema.ByteOrder

/-! # The operations agree with one another
A text is tested in three ways: for equality, for what it begins with, and for its place in the order.
All three read the same bytes (`equals_text_iff`, `startsWith_text_iff`, `lessThan_text_iff`,
`greaterThan_text_iff`), so what one of them says about a text bears on the others. Integers are
tested by their value in the same way.

* `Operation.orderings`: the operations of which just one passes where values stand in a linear order.
* `Operand.scalars`: the scalars of an operand.

Main statement: `Operation.operations_agree`. -/

namespace Criteria

/-- The scalars of an operand. -/
def Operand.scalars : Operand → List Scalar
  | single s => [s]
  | list items => items

namespace Operation

open Text

/-- The operations that tell **how values are ordered**. -/
def orderings : List Operation := [equals, lessThan, greaterThan]

/-! ## Texts by their bytes -/

section Texts

variable {b s : String}

/-- Texts are equal exactly if their bytes are. -/
theorem equals_text_iff :
    equals.holds (.single (.text s)) (some (.text b)) ↔ bytes b = bytes s := by
  rw [holds_some, accepts, Scalar.equals, beq_iff_eq, bytes_inj]

/-- A text starts with another exactly if its bytes do. -/
theorem startsWith_text_iff :
    startsWith.holds (.single (.text s)) (some (.text b)) ↔ bytes s <+: bytes b := by
  rw [holds_some, accepts, Scalar.startsWith, List.isPrefixOf_iff_prefix, bytes_isPrefix_iff]

/-- Texts are compared by their bytes. -/
theorem lessThan_text_iff :
    lessThan.holds (.single (.text s)) (some (.text b)) ↔ bytes b < bytes s := by
  rw [holds_some, accepts, Scalar.compare?, beq_iff_eq, Option.some_inj, compare_lt_iff_lt,
    bytes_lt_bytes_iff]

/-- Texts are compared by their bytes, the other way round. -/
theorem greaterThan_text_iff :
    greaterThan.holds (.single (.text s)) (some (.text b)) ↔ bytes s < bytes b := by
  rw [holds_some, accepts, Scalar.compare?, beq_iff_eq, Option.some_inj, compare_gt_iff_gt,
    bytes_lt_bytes_iff]

end Texts

/-- **What begins alike stands together**: in the lexicographic order all that lies between two
lists that begin with a third begins with it as well. -/
theorem isPrefix_of_between {α : Type*} [LT α] [Std.Asymm fun x y : α => x < y]
    [Std.Trichotomous fun x y : α => x < y] {p lo x hi : List α} (hlo : p <+: lo) (hhi : p <+: hi)
    (hbelow : ¬ x < lo) (habove : ¬ hi < x) : p <+: x := by
  induction p generalizing lo x hi with
  | nil => exact List.nil_prefix
  | cons a p ih =>
    obtain ⟨lo, rfl⟩ := hlo
    obtain ⟨hi, rfl⟩ := hhi
    cases x with
    | nil => exact absurd (List.nil_lt_cons _ _) hbelow
    | cons b x =>
      rw [List.cons_append, List.cons_lt_cons_iff, not_or] at hbelow habove
      obtain rfl : a = b := Std.Trichotomous.trichotomous a b habove.1 hbelow.1
      have hrest : p <+: x :=
        ih (List.prefix_append p lo) (List.prefix_append p hi) (fun h => hbelow.2 ⟨rfl, h⟩)
          fun h => habove.2 ⟨rfl, h⟩
      exact List.cons_prefix_cons.2 ⟨rfl, hrest⟩

/-! ## Integers by their values -/

section Integers

variable {n m : Int64}

/-- Integers are equal exactly if they are the same. -/
theorem equals_int_iff : equals.holds (.single (.int m)) (some (.int n)) ↔ n = m := by
  rw [holds_some, accepts, Scalar.equals, beq_iff_eq]

/-- Integers are compared by size. -/
theorem lessThan_int_iff : lessThan.holds (.single (.int m)) (some (.int n)) ↔ n < m := by
  rw [holds_some, accepts, Scalar.compare?, beq_iff_eq, Option.some_inj, Std.compare_eq_lt]

/-- Integers are compared by size, the other way round. -/
theorem greaterThan_int_iff : greaterThan.holds (.single (.int m)) (some (.int n)) ↔ m < n := by
  rw [holds_some, accepts, Scalar.compare?, beq_iff_eq, Option.some_inj, Std.compare_eq_gt]

end Integers

/-! ## Across operations and kinds -/

/-- **Just one ordering holds** between a reading and an operand that stand for two values in a
linear order. -/
theorem existsUnique_ordering {α : Type*} [LT α] [Std.Asymm fun x y : α => x < y]
    [Std.Trichotomous fun x y : α => x < y] {v : Operand} {r : Reading} {x y : α}
    (heq : equals.holds v r ↔ x = y) (hlt : lessThan.holds v r ↔ x < y)
    (hgt : greaterThan.holds v r ↔ y < x) : ∃! o, o ∈ orderings ∧ o.holds v r := by
  have hasymm {z w : α} (h : z < w) : ¬ w < z := Std.Asymm.asymm z w h
  have hirrefl (z : α) : ¬ z < z := fun h => hasymm h h
  have hholds {o : Operation} (ho : o ∈ orderings) :
      o.holds v r ↔ (o = equals ∧ x = y) ∨ (o = lessThan ∧ x < y) ∨ (o = greaterThan ∧ y < x) := by
    simp only [orderings, List.mem_cons, List.not_mem_nil, or_false] at ho
    rcases ho with rfl | rfl | rfl <;> simp [heq, hlt, hgt]
  -- The three orderings are the three cases of a linear order, which exclude one another.
  rcases Std.lt_trichotomy x y with h | h | h
  · have hne : x ≠ y := fun he => hirrefl y (he ▸ h)
    refine ⟨lessThan, ⟨by simp [orderings], hlt.2 h⟩, ?_⟩
    rintro o ⟨ho, hpasses⟩
    simpa [h, hne, hasymm h] using (hholds ho).1 hpasses
  · refine ⟨equals, ⟨by simp [orderings], heq.2 h⟩, ?_⟩
    rintro o ⟨ho, hpasses⟩
    simpa [h, hirrefl] using (hholds ho).1 hpasses
  · have hne : x ≠ y := fun he => hirrefl y (he ▸ h)
    refine ⟨greaterThan, ⟨by simp [orderings], hgt.2 h⟩, ?_⟩
    rintro o ⟨ho, hpasses⟩
    simpa [h, hne, hasymm h] using (hholds ho).1 hpasses

/-- A list of choices passes exactly if one of the choices does. -/
theorem oneOf_iff (r : Reading) (items : List Scalar) :
    oneOf.holds (.list items) r ↔ ∃ s ∈ items, equals.holds (.single s) r := by
  cases r with
  | none => simp
  | some a => simp [accepts]

/-- Equality is strict: what is equal is of one kind. -/
theorem kind_of_equals {a s : Scalar} (h : a.equals s) : s.kind = a.kind := by
  revert h
  fun_cases Scalar.equals a s with
  | case4 => exact fun h => absurd h Bool.false_ne_true
  | _ => exact fun _ => rfl

/-- **Text and numbers** never compare. -/
theorem not_holds_of_text_of_number (o : Operation) (b : String) {s : Scalar} (hs : s.isNumber) :
    ¬ o.holds (.single s) (some (.text b)) ∧ ¬ o.holds (.single (.text b)) (some s) := by
  cases s with
  | text t => cases hs
  | _ => cases o <;> exact ⟨Bool.false_ne_true, Bool.false_ne_true⟩

/-- **The operations agree with one another**. Of equality and the two strict orders just one passes
between two texts, and just one between two integers. Equal texts begin alike, and the texts that
begin with a given one form an interval of the order. A list of choices passes exactly if a choice
is equal. Text and numbers pass nothing against each other, equality and lists of choices pass only
within a kind, which parts integers from doubles, and where nothing is read nothing passes. -/
theorem operations_agree :
    (∀ b s : String, ∃! o, o ∈ orderings ∧ o.holds (.single (.text s)) (some (.text b))) ∧
    (∀ b p : String, equals.holds (.single (.text p)) (some (.text b)) →
      startsWith.holds (.single (.text p)) (some (.text b))) ∧
    (∀ b p lo hi : String,
      startsWith.holds (.single (.text p)) (some (.text lo)) →
      startsWith.holds (.single (.text p)) (some (.text hi)) →
      ¬ lessThan.holds (.single (.text lo)) (some (.text b)) →
      ¬ greaterThan.holds (.single (.text hi)) (some (.text b)) →
      startsWith.holds (.single (.text p)) (some (.text b))) ∧
    (∀ n m : Int64, ∃! o, o ∈ orderings ∧ o.holds (.single (.int m)) (some (.int n))) ∧
    (∀ (r : Reading) (items : List Scalar),
      oneOf.holds (.list items) r ↔ ∃ s ∈ items, equals.holds (.single s) r) ∧
    (∀ (o : Operation) (b : String) (s : Scalar), s.isNumber →
      ¬ o.holds (.single s) (some (.text b)) ∧ ¬ o.holds (.single (.text b)) (some s)) ∧
    (∀ o ∈ [equals, oneOf], ∀ (v : Operand) (a : Scalar), o.holds v (some a) →
      ∃ s ∈ v.scalars, s.kind = a.kind) ∧
    ∀ (o : Operation) (v : Operand), ¬ o.holds v none := by
  refine ⟨fun b s => ?_, fun b p h => ?_, fun b p lo hi hlo hhi hbelow habove => ?_, fun n m => ?_,
    oneOf_iff, fun o b s hs => not_holds_of_text_of_number o b hs, fun o ho v a h => ?_,
    fun o v => Bool.false_ne_true⟩
  · exact existsUnique_ordering equals_text_iff lessThan_text_iff greaterThan_text_iff
  · have hbytes := equals_text_iff.1 h
    exact startsWith_text_iff.2 ⟨[], by rw [List.append_nil, hbytes]⟩
  · rw [startsWith_text_iff] at hlo hhi ⊢
    rw [lessThan_text_iff] at hbelow
    rw [greaterThan_text_iff] at habove
    exact isPrefix_of_between hlo hhi hbelow habove
  · exact existsUnique_ordering equals_int_iff lessThan_int_iff greaterThan_int_iff
  · -- An operand of the other shape passes neither of the two.
    cases v with
    | single s =>
      simp only [List.mem_cons, List.not_mem_nil, or_false] at ho
      rcases ho with rfl | rfl
      · exact ⟨s, List.mem_singleton_self s, kind_of_equals h⟩
      · cases h
    | list items =>
      simp only [List.mem_cons, List.not_mem_nil, or_false] at ho
      rcases ho with rfl | rfl
      · cases h
      · obtain ⟨s, hs, hequal⟩ := (oneOf_iff _ items).1 h
        exact ⟨s, hs, kind_of_equals hequal⟩

/-- A text between two that start with `é` starts with it too, an integer is not less than a text,
and it is one of a list that holds its like. -/
theorem operations_agree_school :
    equals.holds (.single (.text "é")) (some (.text "é")) ∧
      startsWith.holds (.single (.text "é")) (some (.text "é")) ∧
      startsWith.holds (.single (.text "é")) (some (.text "été")) ∧
      ¬ lessThan.holds (.single (.text "é")) (some (.text "école")) ∧
      ¬ greaterThan.holds (.single (.text "été")) (some (.text "école")) ∧
      startsWith.holds (.single (.text "é")) (some (.text "école")) ∧
      (Scalar.int 7).isNumber ∧ ¬ lessThan.holds (.single (.int 7)) (some (.text "5")) ∧
      oneOf.holds (.list [.float 7, .int 7]) (some (.int 7)) ∧
      ∃ s ∈ [Scalar.float 7, .int 7], s.kind = "int" := by
  obtain ⟨-, hequal, hbetween, -, -, hnumber, hkind, -⟩ := operations_agree
  have heq : equals.holds (.single (.text "é")) (some (.text "é")) := by decide
  have hlo : startsWith.holds (.single (.text "é")) (some (.text "é")) := hequal _ _ heq
  have hhi : startsWith.holds (.single (.text "é")) (some (.text "été")) := by decide
  have hbelow : ¬ lessThan.holds (.single (.text "é")) (some (.text "école")) := by decide
  have habove : ¬ greaterThan.holds (.single (.text "été")) (some (.text "école")) := by decide
  have hmember : oneOf.holds (.list [.float 7, .int 7]) (some (.int 7)) := rfl
  exact ⟨heq, hlo, hhi, hbelow, habove, hbetween _ _ _ _ hlo hhi hbelow habove, rfl,
    (hnumber lessThan "5" (.int 7) rfl).1, hmember, hkind oneOf (by decide) _ _ hmember⟩

end Operation

end Criteria
