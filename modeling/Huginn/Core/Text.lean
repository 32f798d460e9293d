import Mathlib.Data.String.Basic
import Mathlib.Data.Nat.Notation
import Mathlib.Tactic.Common

/-!
# The string functions of the standard library

A Rust `String` is a sequence of Unicode scalar values, and so is a Lean `String`. The functions
here are the ones of `str`, `char` and `u16`/`u64` that the program calls, under their own names and
with their documented behaviour. A `Vec<u8>` is a `List UInt8`.
-/

namespace Huginn

/-! ### `char` -/

/-- `char::is_control`: the general category `Cc`, U+0000–U+001F and U+007F–U+009F. -/
def isControl (c : Char) : Bool :=
  decide (c.toNat ≤ 0x1F) || (decide (0x7F ≤ c.toNat) && decide (c.toNat ≤ 0x9F))

/-- `char::is_whitespace`: the property `White_Space`. -/
def isWhitespace (c : Char) : Bool :=
  let n := c.toNat
  (decide (0x09 ≤ n) && decide (n ≤ 0x0D)) || n == 0x20 || n == 0x85 || n == 0xA0 || n == 0x1680 ||
    (decide (0x2000 ≤ n) && decide (n ≤ 0x200A)) || n == 0x2028 || n == 0x2029 || n == 0x202F ||
    n == 0x205F || n == 0x3000

/-- A digit in base 16, lower case. -/
def hexDigit (n : ℕ) : Char :=
  if n < 10 then Char.ofNat (0x30 + n) else Char.ofNat (0x61 + (n - 10))

/-- The value of a digit in a base of at most 16, `char::to_digit`. -/
def toDigit (base : ℕ) (c : Char) : Option ℕ :=
  let n := c.toNat
  let d :=
    if 0x30 ≤ n ∧ n ≤ 0x39 then some (n - 0x30)
    else if 0x61 ≤ n ∧ n ≤ 0x66 then some (n - 0x61 + 10)
    else if 0x41 ≤ n ∧ n ≤ 0x46 then some (n - 0x41 + 10)
    else none
  d.filter fun d => d < base

/-! ### `str` -/

/-- `str::replace` of one character by a text. -/
def replace (s : String) (c : Char) (text : String) : String :=
  String.ofList (s.toList.flatMap fun x => if x = c then text.toList else [x])

/-- `str::starts_with`. -/
def startsWith (s pre : String) : Bool := pre.toList.isPrefixOf s.toList

/-- `str::bytes`: the UTF-8 of a text. -/
def asBytes (s : String) : List UInt8 := s.toList.flatMap String.utf8EncodeChar

/-- `str::trim_end_matches` of one character. -/
def trimEndMatches (s : String) (c : Char) : String :=
  String.ofList (s.toList.reverse.dropWhile (· = c)).reverse

/-- `str::trim`. -/
def trim (s : String) : String :=
  String.ofList
    ((s.toList.dropWhile isWhitespace).reverse.dropWhile isWhitespace).reverse

/-- `str::to_lowercase`, for the comparison with a word in lower-case ASCII. The only other
characters whose lower case has an ASCII letter in it are U+0130 and U+212A, for `i` and `k`, which
are in none of the words the program compares with. -/
def toLowercase (s : String) : String := String.ofList (s.toList.map Char.toLower)

/-- `str::rsplit_once` at a character: the text before its last occurrence and the text after. -/
def rsplitOnce (s : String) (c : Char) : Option (String × String) :=
  let rev := s.toList.reverse
  if c ∈ rev then
    let after := rev.takeWhile (· ≠ c)
    some (String.ofList (rev.drop (after.length + 1)).reverse, String.ofList after.reverse)
  else none

/-- `str::strip_prefix` of one character. -/
def stripPrefix (s : String) (c : Char) : Option String :=
  match s.toList with
  | x :: rest => if x = c then some (String.ofList rest) else none
  | [] => none

/-- `str::strip_prefix` of a text. -/
def stripPrefixStr (s pre : String) : Option String :=
  if startsWith s pre then some (String.ofList (s.toList.drop pre.toList.length)) else none

/-- `str::strip_suffix` of one character. -/
def stripSuffix (s : String) (c : Char) : Option String :=
  if s.toList.getLast? = some c then some (String.ofList s.toList.dropLast) else none

/-- Decimal digits read from the left, `none` when one of the characters is not a digit. -/
def digitsValue (base : ℕ) (cs : List Char) : Option ℕ :=
  cs.foldlM (fun acc c => (toDigit base c).map fun d => acc * base + d) 0

/-- `str::parse` for an unsigned integer of at most `max`: an optional `+`, then at least one
decimal digit and nothing else. -/
def parseUnsigned (max : ℕ) (s : String) : Option ℕ :=
  let digits := if startsWith s "+" then s.toList.drop 1 else s.toList
  if digits = [] then none else (digitsValue 10 digits).filter fun n => n ≤ max

/-! ### UTF-8 -/

/-- Where `String::from_utf8_lossy` stands between two bytes: the bits collected so far, how many
continuation bytes are owed, and the range the next one must lie in. -/
structure Utf8State where
  bits : ℕ
  owed : ℕ
  low : ℕ
  high : ℕ
  deriving DecidableEq, Repr

/-- Between two characters. -/
def Utf8State.start : Utf8State := ⟨0, 0, 0x80, 0xBF⟩

/-- U+FFFD, which stands for a malformed sequence. -/
def replacementChar : Char := Char.ofNat 0xFFFD

/-- The first byte of a character. -/
def utf8First (b : ℕ) : List Char × Utf8State :=
  if b ≤ 0x7F then ([Char.ofNat b], .start)
  else if 0xC2 ≤ b ∧ b ≤ 0xDF then ([], ⟨b - 0xC0, 1, 0x80, 0xBF⟩)
  else if b = 0xE0 then ([], ⟨b - 0xE0, 2, 0xA0, 0xBF⟩)
  else if b = 0xED then ([], ⟨b - 0xE0, 2, 0x80, 0x9F⟩)
  else if 0xE1 ≤ b ∧ b ≤ 0xEF then ([], ⟨b - 0xE0, 2, 0x80, 0xBF⟩)
  else if b = 0xF0 then ([], ⟨b - 0xF0, 3, 0x90, 0xBF⟩)
  else if 0xF1 ≤ b ∧ b ≤ 0xF3 then ([], ⟨b - 0xF0, 3, 0x80, 0xBF⟩)
  else if b = 0xF4 then ([], ⟨b - 0xF0, 3, 0x80, 0x8F⟩)
  else ([replacementChar], .start)

/-- One byte. A byte that cannot continue the character under way ends it as malformed and is then
read as a first byte. -/
def utf8Step (st : Utf8State) (byte : UInt8) : List Char × Utf8State :=
  let b := byte.toNat
  if st.owed = 0 then utf8First b
  else if st.low ≤ b ∧ b ≤ st.high then
    let bits := st.bits * 64 + (b - 0x80)
    if st.owed = 1 then ([Char.ofNat bits], .start) else ([], ⟨bits, st.owed - 1, 0x80, 0xBF⟩)
  else
    let (cs, st') := utf8First b
    (replacementChar :: cs, st')

/-- The characters decoded from `bytes`, starting in `st`. -/
def utf8Decode (st : Utf8State) : List UInt8 → List Char
  | [] => if st.owed = 0 then [] else [replacementChar]
  | b :: bytes =>
    let (cs, st') := utf8Step st b
    cs ++ utf8Decode st' bytes

/-- `String::from_utf8_lossy`: every maximal malformed part becomes one U+FFFD. -/
def fromUtf8Lossy (bytes : List UInt8) : String := String.ofList (utf8Decode .start bytes)

/-- "äx", a lone continuation byte, a truncated three-byte character, and "z". -/
example : fromUtf8Lossy [0xC3, 0xA4, 0x78, 0x80, 0xE2, 0x82, 0x7A] = "äx\uFFFD\uFFFDz" := by decide

/-! ### What the functions do to the characters -/

@[simp]
theorem toList_replace (s : String) (c : Char) (text : String) :
    (replace s c text).toList = s.toList.flatMap fun x => if x = c then text.toList else [x] := by
  simp [replace]

theorem asBytes_injective : Function.Injective asBytes := by
  intro s t h
  have hbytes : s.toList.utf8Encode = t.toList.utf8Encode := congrArg List.toByteArray h
  rw [String.utf8Encode_toList, String.utf8Encode_toList] at hbytes
  exact String.toByteArray_inj.mp hbytes

/-- Digits are read as the number that they write. -/
theorem foldlM_toDigit {cs : List Char} (h : ∀ c ∈ cs, c.isDigit = true) (acc : ℕ) :
    cs.foldlM (fun acc c => (toDigit 10 c).map fun d => acc * 10 + d) acc =
      some (Nat.ofDigitChars 10 cs acc) := by
  induction cs generalizing acc with
  | nil => rfl
  | cons c cs ih =>
    have hc : toDigit 10 c = some (c.toNat - 48) := by
      have hd := h c List.mem_cons_self
      simp only [Char.isDigit, Bool.and_eq_true, decide_eq_true_eq, ge_iff_le,
        UInt32.le_iff_toNat_le] at hd
      have h1 : 48 ≤ c.toNat := hd.1
      have h2 : c.toNat ≤ 57 := hd.2
      simp only [toDigit, h1, h2, and_self, if_true, Option.filter_some]
      rw [if_pos]
      simp
      omega
    rw [List.foldlM_cons, hc, Nat.ofDigitChars_cons, Nat.mul_comm]
    exact ih (fun d hd => h d (List.mem_cons_of_mem c hd)) _

theorem isDigit_of_mem_toString {n : ℕ} {c : Char} (h : c ∈ (toString n).toList) :
    c.isDigit = true := by
  change c ∈ n.repr.toList at h
  rw [Nat.toList_repr] at h
  exact Nat.isDigit_of_mem_toDigits (by decide) (by decide) h

theorem toList_toString_ne_nil (n : ℕ) : (toString n).toList ≠ [] := by
  change n.repr.toList ≠ []
  rw [Nat.toList_repr]
  exact List.ne_nil_of_length_pos Nat.length_toDigits_pos

/-- Reading a rendered number gives the number. -/
theorem digitsValue_toString (n : ℕ) : digitsValue 10 (toString n).toList = some n := by
  rw [digitsValue, foldlM_toDigit fun c hc => isDigit_of_mem_toString hc]
  show some (Nat.ofDigitChars 10 n.repr.toList 0) = some n
  rw [Nat.toList_repr, Nat.ofDigitChars_toDigits (by decide) (by decide)]

end Huginn
