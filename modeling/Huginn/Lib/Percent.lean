import Mathlib.Data.Char
import Mathlib.Data.String.Basic
import Mathlib.Tactic.Common

/-!
# Percent encoding

A sequence of bytes is written into a URL by writing some of them as the characters that they are
in ASCII and the others as `%` and two hexadecimal digits (`encode`, with `plain` for the first
kind). The reader `decode` knows nothing of `plain`: it takes `%` and two digits as a byte, and any
other character as its UTF-8. It reads back what was written as long as the plain bytes are ASCII
and not `%` (`decode_encode`), so encoding is injective (`encode_injective`).

A query is a list of pairs, which are separated by `&` and in themselves by `=`. It is read back,
too (`readQuery_writeQuery`), as long as neither of these is plain.
-/

namespace Huginn.Percent

/-! ### Hexadecimal digits -/

/-- The digit of a number below 16, in upper case. -/
def upperHex (n : ℕ) : Char := if n < 10 then Char.ofNat (0x30 + n) else Char.ofNat (0x37 + n)

/-- An upper-case hexadecimal digit. -/
def IsUpperHex (c : Char) : Prop := c.isDigit = true ∨ 'A' ≤ c ∧ c ≤ 'F'

instance : DecidablePred IsUpperHex := fun c =>
  inferInstanceAs (Decidable (c.isDigit = true ∨ 'A' ≤ c ∧ c ≤ 'F'))

/-- The value of a hexadecimal digit in either case. -/
def hexValue (c : Char) : Option ℕ :=
  let n := c.toNat
  if 0x30 ≤ n ∧ n ≤ 0x39 then some (n - 0x30)
  else if 0x41 ≤ n ∧ n ≤ 0x46 then some (n - 0x37)
  else if 0x61 ≤ n ∧ n ≤ 0x66 then some (n - 0x57)
  else none

theorem isUpperHex_upperHex : ∀ {n : ℕ}, n < 16 → IsUpperHex (upperHex n) := by decide

theorem hexValue_upperHex : ∀ {n : ℕ}, n < 16 → hexValue (upperHex n) = some n := by decide

/-! ### Bytes -/

variable (plain : UInt8 → Bool)

def encodeByte (b : UInt8) : List Char :=
  if plain b then [Char.ofNat b.toNat]
  else ['%', upperHex (b.toNat / 16), upperHex (b.toNat % 16)]

def encode (bs : List UInt8) : List Char := bs.flatMap (encodeByte plain)

/-- Read bytes back, or `none` where `%` is not followed by two digits. -/
def decode : List Char → Option (List UInt8)
  | [] => some []
  | c :: cs =>
    if c = '%' then
      match cs with
      | hi :: lo :: cs =>
        match hexValue hi, hexValue lo with
        | some h, some l => (decode cs).map fun bs => UInt8.ofNat (h * 16 + l) :: bs
        | _, _ => none
      | _ => none
    else (decode cs).map fun bs => String.utf8EncodeChar c ++ bs

/-- The plain bytes are ASCII, and mean nothing in a query. -/
structure PlainOk : Prop where
  ascii : ∀ b, plain b = true → b.toNat < 0x80
  no_percent : ∀ b, plain b = true → Char.ofNat b.toNat ≠ '%'
  no_separator : ∀ b, plain b = true → Char.ofNat b.toNat ≠ '&' ∧ Char.ofNat b.toNat ≠ '='

variable {plain}

theorem utf8EncodeChar_ofNat : ∀ n : ℕ, n < 0x80 →
    String.utf8EncodeChar (Char.ofNat n) = [UInt8.ofNat n] := by decide +kernel

theorem decode_cons_of_ne {c : Char} (h : c ≠ '%') (cs : List Char) :
    decode (c :: cs) = (decode cs).map fun bs => String.utf8EncodeChar c ++ bs := by
  conv_lhs => unfold decode
  exact if_neg h

/-- A byte is read back. -/
theorem decode_encodeByte_append (h : PlainOk plain) (b : UInt8) (cs : List Char) :
    decode (encodeByte plain b ++ cs) = (decode cs).map fun bs => b :: bs := by
  have hlt := b.toNat_lt
  rw [encodeByte]
  split_ifs with hb
  · rw [List.singleton_append, decode_cons_of_ne (h.no_percent b hb),
      utf8EncodeChar_ofNat _ (h.ascii b hb), UInt8.ofNat_toNat]
    rfl
  · have hhi := hexValue_upperHex (n := b.toNat / 16) (by omega)
    have hlo := hexValue_upperHex (n := b.toNat % 16) (by omega)
    have hbyte : b.toNat / 16 * 16 + b.toNat % 16 = b.toNat := by omega
    simp only [List.cons_append, List.nil_append, decode, hhi, hlo, if_true, hbyte,
      UInt8.ofNat_toNat]

/-- **The round trip.** -/
theorem decode_encode (h : PlainOk plain) (bs : List UInt8) :
    decode (encode plain bs) = some bs := by
  induction bs with
  | nil => rfl
  | cons b bs ih =>
    rw [encode, List.flatMap_cons, decode_encodeByte_append h, ← encode, ih]
    rfl

theorem encode_injective (h : PlainOk plain) : Function.Injective (encode plain) := by
  intro bs bs' heq
  have hread := decode_encode h bs
  rw [heq, decode_encode h bs'] at hread
  exact (Option.some.inj hread).symm

variable (plain) in
/-- What is written is made of plain characters and of triples. -/
theorem encode_eq_flatten (bs : List UInt8) : ∃ pieces : List (List Char),
    encode plain bs = pieces.flatten ∧ ∀ p ∈ pieces,
      (∃ b, plain b = true ∧ p = [Char.ofNat b.toNat]) ∨
        ∃ hi lo, IsUpperHex hi ∧ IsUpperHex lo ∧ p = ['%', hi, lo] := by
  refine ⟨bs.map (encodeByte plain), List.flatMap_def, fun p hp => ?_⟩
  obtain ⟨b, -, rfl⟩ := List.mem_map.mp hp
  have hlt := b.toNat_lt
  rw [encodeByte]
  split_ifs with hb
  · exact .inl ⟨b, hb, rfl⟩
  · exact .inr ⟨_, _, isUpperHex_upperHex (by omega), isUpperHex_upperHex (by omega), rfl⟩

/-! ### Queries -/

variable (plain)

/-- `name=value`, encoded. -/
def writePair (pair : List UInt8 × List UInt8) : List Char :=
  encode plain pair.1 ++ '=' :: encode plain pair.2

def writeQuery (pairs : List (List UInt8 × List UInt8)) : List Char :=
  ['&'].intercalate (pairs.map (writePair plain))

/-- Split at the first `=` and decode both sides. -/
def readPair (piece : List Char) : Option (List UInt8 × List UInt8) :=
  match piece.dropWhile (· ≠ '=') with
  | [] => none
  | _ :: value =>
    match decode (piece.takeWhile (· ≠ '=')), decode value with
    | some name, some value => some (name, value)
    | _, _ => none

/-- Split at every `&` and read the pairs. -/
def readQuery (query : List Char) : Option (List (List UInt8 × List UInt8)) :=
  (query.splitOn '&').mapM readPair

variable {plain}

/-- A character that is neither `%`, a digit nor plain is not written. -/
theorem not_mem_encode {c : Char} (hpercent : c ≠ '%') (hdigit : ¬ IsUpperHex c)
    (hplain : ∀ b, plain b = true → Char.ofNat b.toNat ≠ c) (bs : List UInt8) :
    c ∉ encode plain bs := by
  intro hc
  obtain ⟨pieces, heq, hpieces⟩ := encode_eq_flatten plain bs
  rw [heq, List.mem_flatten] at hc
  obtain ⟨p, hp, hcp⟩ := hc
  rcases hpieces p hp with ⟨b, hb, rfl⟩ | ⟨hi, lo, hhi, hlo, rfl⟩
  · exact hplain b hb (List.mem_singleton.mp hcp).symm
  · simp only [List.mem_cons, List.not_mem_nil, or_false] at hcp
    rcases hcp with rfl | rfl | rfl
    · exact hpercent rfl
    · exact hdigit hhi
    · exact hdigit hlo

theorem equals_not_mem_encode (h : PlainOk plain) (bs : List UInt8) : '=' ∉ encode plain bs :=
  not_mem_encode (by decide) (by decide) (fun b hb => (h.no_separator b hb).2) bs

theorem ampersand_not_mem_encode (h : PlainOk plain) (bs : List UInt8) :
    '&' ∉ encode plain bs :=
  not_mem_encode (by decide) (by decide) (fun b hb => (h.no_separator b hb).1) bs

theorem readPair_writePair (h : PlainOk plain) (pair : List UInt8 × List UInt8) :
    readPair (writePair plain pair) = some pair := by
  have hname : ∀ c ∈ encode plain pair.1, decide (c ≠ '=') = true := by
    intro c hc
    refine decide_eq_true fun heq => ?_
    exact equals_not_mem_encode h pair.1 (heq ▸ hc)
  have hdrop : (writePair plain pair).dropWhile (· ≠ '=') = '=' :: encode plain pair.2 := by
    rw [writePair, List.dropWhile_append_of_pos hname]
    rfl
  have htake : (writePair plain pair).takeWhile (· ≠ '=') = encode plain pair.1 := by
    rw [writePair, List.takeWhile_append_of_pos hname]
    exact List.append_nil _
  rw [readPair, hdrop, htake]
  simp only [decode_encode h]

theorem ampersand_not_mem_writePair (h : PlainOk plain) (pair : List UInt8 × List UInt8) :
    '&' ∉ writePair plain pair := by
  rw [writePair, List.mem_append, List.mem_cons]
  rintro (hname | heq | hvalue)
  · exact ampersand_not_mem_encode h pair.1 hname
  · cases heq
  · exact ampersand_not_mem_encode h pair.2 hvalue

theorem mapM_readPair (h : PlainOk plain) (pairs : List (List UInt8 × List UInt8)) :
    (pairs.map (writePair plain)).mapM readPair = some pairs := by
  induction pairs with
  | nil => rfl
  | cons pair pairs ih =>
    rw [List.map_cons, List.mapM_cons, readPair_writePair h, ih]
    rfl

/-- **A query is read back, pair by pair.** -/
theorem readQuery_writeQuery (h : PlainOk plain) {pairs : List (List UInt8 × List UInt8)}
    (hne : pairs ≠ []) : readQuery (writeQuery plain pairs) = some pairs := by
  have hpieces : ∀ piece ∈ pairs.map (writePair plain), '&' ∉ piece := by
    intro piece hpiece
    obtain ⟨pair, -, rfl⟩ := List.mem_map.mp hpiece
    exact ampersand_not_mem_writePair h pair
  have hmap : pairs.map (writePair plain) ≠ [] := by
    rwa [ne_eq, List.map_eq_nil_iff]
  rw [readQuery, writeQuery, List.splitOn_intercalate '&' hpieces hmap]
  exact mapM_readPair h pairs

end Huginn.Percent
