import Huginn.Core.Text
import Mathlib.Algebra.Order.Ring.Int
import Mathlib.Data.String.Lemmas

/-!
# `f64`

Nothing the program does depends on how a floating-point number is rounded: it converts integers to
`f64`, divides by a constant, compares, and renders. `F64 F` is what it relies on. The renderings
are opaque texts, of which only two things are used: they contain no character that has a meaning
in a text format (`Plain`), and an integral value of moderate size is rendered as the integer.

`Decimal` is an instance to evaluate definitions with: decimal fractions, which are rendered as the
corresponding `f64` is for as long as they have few digits.
-/

namespace Huginn

/-- A character with no meaning in line protocol or in the exposition format: no space, comma,
quote, backslash or control character. -/
def Plain (c : Char) : Prop :=
  c ≠ ' ' ∧ c ≠ ',' ∧ c ≠ '"' ∧ c ≠ '\\' ∧ isControl c = false

instance : DecidablePred Plain := fun c =>
  inferInstanceAs (Decidable (c ≠ ' ' ∧ c ≠ ',' ∧ c ≠ '"' ∧ c ≠ '\\' ∧ isControl c = false))

/-- Every character of the text is plain. -/
def PlainText (s : String) : Prop := ∀ c ∈ s.toList, Plain c

/-- The operations on `f64` that the program uses. -/
class F64 (F : Type) where
  /-- `as f64`, `f64::from`. -/
  ofInt : ℤ → F
  /-- `/`. -/
  div : F → F → F
  /-- Unary `-`. -/
  neg : F → F
  /-- `<`. -/
  lt : F → F → Bool
  /-- `f64::is_finite`. -/
  isFinite : F → Bool
  /-- `{}`. -/
  display : F → String
  /-- `{:.n}`. -/
  fixed : ℕ → F → String
  display_plain : ∀ x, PlainText (display x)
  fixed_plain : ∀ n x, PlainText (fixed n x)
  /-- Integers of at most 53 bits are represented exactly and rendered without a fraction. -/
  display_ofInt : ∀ n : ℕ, n < 2 ^ 53 → display (ofInt n) = toString n

/-! ### Renderings of integers -/

theorem plain_of_isDigit {c : Char} (h : c.isDigit = true) : Plain c := by
  have hne : ∀ d : Char, d.isDigit = false → c ≠ d := by
    rintro d hd rfl
    rw [hd] at h
    exact Bool.false_ne_true h
  refine ⟨hne ' ' rfl, hne ',' rfl, hne '"' rfl, hne '\\' rfl, ?_⟩
  simp only [Char.isDigit, Bool.and_eq_true, decide_eq_true_eq, ge_iff_le, UInt32.le_iff_toNat_le]
    at h
  have h1 : 48 ≤ c.toNat := h.1
  have h2 : c.toNat ≤ 57 := h.2
  simp only [isControl, Bool.or_eq_false_iff, Bool.and_eq_false_iff, decide_eq_false_iff_not]
  omega

theorem plainText_append {s t : String} (hs : PlainText s) (ht : PlainText t) :
    PlainText (s ++ t) := by
  intro c hc
  rw [String.toList_append, List.mem_append] at hc
  exact hc.elim (hs c) (ht c)

/-- A literal is plain by evaluation. -/
theorem plainText_of_all {s : String} (h : s.toList.all (fun c => decide (Plain c)) = true) :
    PlainText s := by
  intro c hc
  exact of_decide_eq_true (List.all_eq_true.mp h c hc)

theorem plainText_nat (n : ℕ) : PlainText (toString n) := fun _ hc =>
  plain_of_isDigit (isDigit_of_mem_toString hc)

theorem plainText_int (z : ℤ) : PlainText (toString z) := by
  cases z with
  | ofNat n => exact plainText_nat n
  | negSucc n =>
    exact plainText_append (plainText_of_all (by decide) : PlainText "-") (plainText_nat (n + 1))

/-! ### Decimal fractions -/

/-- The number `mantissa / 10 ^ scale`. -/
structure Decimal where
  mantissa : ℤ
  scale : ℕ
  deriving DecidableEq, Repr

namespace Decimal

/-- The decimals after the point, as a text of `scale` digits. -/
def fraction (n scale : ℕ) : String :=
  let digits := (toString (n % 10 ^ scale)).toList
  String.ofList (List.replicate (scale - digits.length) '0') ++ toString (n % 10 ^ scale)

/-- All the digits of a decimal fraction. -/
def render (x : Decimal) : String :=
  if x.scale = 0 then toString x.mantissa
  else
    (if x.mantissa < 0 then "-" else "") ++ toString (x.mantissa.natAbs / 10 ^ x.scale) ++ "." ++
      fraction x.mantissa.natAbs x.scale

/-- Remove trailing zeros after the point. -/
def normalize (mantissa : ℤ) : ℕ → Decimal
  | 0 => ⟨mantissa, 0⟩
  | scale + 1 =>
    if mantissa % 10 = 0 then normalize (mantissa / 10) scale else ⟨mantissa, scale + 1⟩

/-- Round to `n` decimals, half up. -/
def round (n : ℕ) (x : Decimal) : Decimal :=
  if x.scale ≤ n then ⟨x.mantissa * 10 ^ (n - x.scale), n⟩
  else ⟨(2 * x.mantissa + 10 ^ (x.scale - n)) / (2 * 10 ^ (x.scale - n)), n⟩

theorem plainText_render (x : Decimal) : PlainText x.render := by
  unfold render
  split_ifs
  · exact plainText_int _
  all_goals
    refine plainText_append (plainText_append (plainText_append ?_ (plainText_nat _))
      (plainText_of_all (by decide))) (plainText_append ?_ (plainText_nat _))
    · exact plainText_of_all (by decide)
    · intro c hc
      rw [String.toList_ofList] at hc
      rw [List.eq_of_mem_replicate hc]
      decide

instance : F64 Decimal where
  ofInt z := ⟨z, 0⟩
  div a b := ⟨a.mantissa * 10 ^ (b.scale + 17) / (b.mantissa * 10 ^ a.scale), 17⟩
  neg a := ⟨-a.mantissa, a.scale⟩
  lt a b := decide (a.mantissa * 10 ^ b.scale < b.mantissa * 10 ^ a.scale)
  isFinite _ := true
  display a := (normalize a.mantissa a.scale).render
  fixed n a := (round n a).render
  display_plain _ := plainText_render _
  fixed_plain _ _ := plainText_render _
  display_ofInt _ _ := rfl

example : F64.display (F64.div (⟨425, 1⟩ : Decimal) (F64.ofInt 1000)) = "0.0425" := by decide

end Decimal

end Huginn
