import Mathlib.Algebra.Ring.Nat
import Mathlib.Tactic.Common

/-!
# `std::time::Duration`

A whole number of nanoseconds, of at most `u64::MAX` seconds and 999 999 999 nanoseconds: the bound
is a field, so an operation that would go beyond it has to say what happens.
-/

namespace Huginn

/-- `Duration`. -/
@[ext]
structure Duration where
  nanos : ℕ
  nanos_lt : nanos < 2 ^ 64 * 1000000000
  deriving DecidableEq, Repr

namespace Duration

/-- `Duration::from_millis`. -/
def fromMillis (ms : UInt64) : Duration where
  nanos := ms.toNat * 1000000
  nanos_lt := by
    have := ms.toNat_lt
    omega

/-- `Duration::from_secs`. -/
def fromSecs (secs : UInt64) : Duration where
  nanos := secs.toNat * 1000000000
  nanos_lt := by
    have := secs.toNat_lt
    omega

/-- `Duration::as_millis`, rounded down. -/
def asMillis (d : Duration) : ℕ := d.nanos / 1000000

/-- `Duration::checked_mul`. -/
def checkedMul (d : Duration) (k : UInt32) : Option Duration :=
  if h : d.nanos * k.toNat < 2 ^ 64 * 1000000000 then some ⟨d.nanos * k.toNat, h⟩ else none

/-- `Ord::min`. -/
def min (a b : Duration) : Duration := if a.nanos ≤ b.nanos then a else b

/-- `fmt_decimal` without a precision: the fraction, of `width` digits, without trailing zeros. -/
def fmtDecimal (integer fraction width : ℕ) (suffix : String) : String :=
  let digits := (toString fraction).toList
  let padded := List.replicate (width - digits.length) '0' ++ digits
  if fraction = 0 then toString integer ++ suffix
  else
    toString integer ++ "." ++ String.ofList (padded.reverse.dropWhile (· = '0')).reverse ++ suffix

/-- `{:?}`, in the largest unit that gives an integer part. -/
def debug (d : Duration) : String :=
  if 1000000000 ≤ d.nanos then fmtDecimal (d.nanos / 1000000000) (d.nanos % 1000000000) 9 "s"
  else if 1000000 ≤ d.nanos then fmtDecimal (d.nanos / 1000000) (d.nanos % 1000000) 6 "ms"
  else if 1000 ≤ d.nanos then fmtDecimal (d.nanos / 1000) (d.nanos % 1000) 3 "µs"
  else fmtDecimal d.nanos 0 0 "ns"

example : (fromMillis 5250).debug = "5.25s" := by decide +kernel

end Duration

/-- `u32::checked_shl`. -/
def checkedShl (x n : UInt32) : Option UInt32 := if n < 32 then some (x <<< n) else none

/-- `u32::saturating_add(1)`. -/
def saturatingSucc (n : UInt32) : UInt32 := if n = UInt32.ofNat (2 ^ 32 - 1) then n else n + 1

end Huginn
