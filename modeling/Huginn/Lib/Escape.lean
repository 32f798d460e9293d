import Mathlib.Data.List.Basic
import Mathlib.Tactic.Common

/-!
# Escaping, and reading escaped text back

A text over any alphabet is escaped by writing some of its symbols as two, the symbol `esc` and a
code (`escape`, with `enc x = some code` for the symbols to be escaped). The reader `scan` takes
`esc` before a code as the symbol of that code, `esc` before anything else as itself, and ends at
the first bare symbol that is a `stop`. It reads an escaped text back as long as it knows the codes,
and `esc` and the stops are escaped (`scan_escape`).

Encoders are often written as one replacement after another. `escape_replace` says that this comes
to the same as long as `esc` is replaced first.
-/

namespace Huginn.Escape

variable {α : Type*} [DecidableEq α] (esc : α) (enc dec : α → Option α) (stop : α → Bool)

/-- Escape every symbol that has a code. -/
def escape (l : List α) : List α :=
  l.flatMap fun x =>
    match enc x with
    | some code => [esc, code]
    | none => [x]

/-- Read up to the first bare stop: the text read, and the rest, which begins with the stop. -/
def scan : List α → List α × List α
  | [] => ([], [])
  | [x] => if stop x then ([], [x]) else ([x], [])
  | x :: y :: ys =>
    match if x = esc then dec y else none with
    | some z =>
      let (text, rest) := scan ys
      (z :: text, rest)
    | none =>
      if stop x then ([], x :: y :: ys)
      else
        let (text, rest) := scan (y :: ys)
        (x :: text, rest)

/-- Read one symbol. -/
def expect (x : α) : List α → Option (List α)
  | [] => none
  | y :: rest => if y = x then some rest else none

/-- The code of a symbol that stands for itself after `esc`. -/
def literally (special : α → Bool) (x : α) : Option α := if special x then some x else none

variable {esc enc dec stop}

omit [DecidableEq α] in
theorem escape_cons (x : α) (l : List α) : escape esc enc (x :: l) =
    (match enc x with | some code => [esc, code] | none => [x]) ++ escape esc enc l :=
  List.flatMap_cons

omit [DecidableEq α] in
/-- Escaping depends on the codes of the symbols that occur. -/
theorem escape_congr {enc' : α → Option α} {l : List α} (h : ∀ x ∈ l, enc x = enc' x) :
    escape esc enc l = escape esc enc' l :=
  List.flatMap_congr fun x hx => by rw [h x hx]

/-! ### Reading back -/

@[simp]
theorem expect_cons (x : α) (rest : List α) : expect x (x :: rest) = some rest := by
  rw [expect, if_pos rfl]

theorem expect_cons_of_ne {x y : α} (h : y ≠ x) (rest : List α) :
    expect x (y :: rest) = none := by
  rw [expect, if_neg h]

theorem scan_stop {x : α} (hxe : x ≠ esc) (hx : stop x = true) (rest : List α) :
    scan esc dec stop (x :: rest) = ([], x :: rest) := by
  cases rest <;> simp [scan, hxe, hx]

theorem scan_char {x : α} (hxe : x ≠ esc) (hx : stop x = false) (rest : List α) :
    scan esc dec stop (x :: rest) =
      (x :: (scan esc dec stop rest).1, (scan esc dec stop rest).2) := by
  cases rest <;> simp [scan, hxe, hx]

theorem scan_code {code x : α} (hx : dec code = some x) (rest : List α) :
    scan esc dec stop (esc :: code :: rest) =
      (x :: (scan esc dec stop rest).1, (scan esc dec stop rest).2) := by
  simp [scan, hx]

/-- **The round trip.** The reader stops exactly where the escaped text ends, having read the
original. -/
theorem scan_escape (hdec : ∀ x code, enc x = some code → dec code = some x)
    (hesc : enc esc ≠ none) (hstop : ∀ x, stop x = true → enc x ≠ none) {x : α} (hxe : x ≠ esc)
    (hx : stop x = true) (l rest : List α) :
    scan esc dec stop (escape esc enc l ++ x :: rest) = (l, x :: rest) := by
  induction l with
  | nil => exact scan_stop hxe hx rest
  | cons y l ih =>
    rw [escape_cons]
    cases hy : enc y with
    | some code =>
      show scan esc dec stop (([esc, code] ++ escape esc enc l) ++ x :: rest) = _
      rw [List.append_assoc, List.cons_append, List.cons_append, List.nil_append,
        scan_code (hdec y code hy), ih]
    | none =>
      -- a symbol without a code is neither the escape symbol nor a stop
      have hye : y ≠ esc := by
        rintro rfl
        exact hesc hy
      have hys : stop y = false := by
        rw [← Bool.not_eq_true]
        exact fun h => hstop y h hy
      show scan esc dec stop (([y] ++ escape esc enc l) ++ x :: rest) = _
      rw [List.append_assoc, List.cons_append, List.nil_append, scan_char hye hys, ih]

/-- A text without stops and escape symbols is read as it is. -/
theorem scan_bare {l : List α} (hl : ∀ y ∈ l, y ≠ esc ∧ stop y = false) {x : α} (hxe : x ≠ esc)
    (hx : stop x = true) (rest : List α) :
    scan esc dec stop (l ++ x :: rest) = (l, x :: rest) := by
  induction l with
  | nil => exact scan_stop hxe hx rest
  | cons y l ih =>
    obtain ⟨hye, hys⟩ := hl y List.mem_cons_self
    rw [List.cons_append, scan_char hye hys, ih fun z hz => hl z (List.mem_cons_of_mem y hz)]

omit [DecidableEq α] in
theorem literally_eq_some_iff {special : α → Bool} {x y : α} :
    literally special x = some y ↔ special x = true ∧ x = y := by
  simp [literally]

/-- The round trip, where every special symbol stands for itself after `esc`. -/
theorem scan_escape_literally {special : α → Bool} (hesc : special esc = true)
    (hstop : ∀ x, stop x = true → special x = true) {x : α} (hxe : x ≠ esc) (hx : stop x = true)
    (l rest : List α) :
    scan esc (literally special) stop (escape esc (literally special) l ++ x :: rest) =
      (l, x :: rest) := by
  have hne : ∀ y, special y = true → literally special y ≠ none := by
    intro y hy
    simp [literally, hy]
  refine scan_escape (fun y code h => ?_) (hne esc hesc) (fun y hy => hne y (hstop y hy)) hxe hx l
    rest
  obtain ⟨hy, rfl⟩ := literally_eq_some_iff.mp h
  exact literally_eq_some_iff.mpr ⟨hy, rfl⟩

/-! ### One replacement after another -/

/-- Replacing `esc` first is escaping it. -/
theorem replace_esc (l : List α) :
    (l.flatMap fun x => if x = esc then [esc, esc] else [x]) =
      escape esc (literally fun x => x == esc) l := by
  refine List.flatMap_congr fun x _ => ?_
  by_cases hx : x = esc <;> simp [literally, hx]

/-- **One replacement more.** Replacing a further symbol in a text that is escaped already escapes
that symbol too: neither the escape symbols put in before nor the codes are touched. -/
theorem escape_replace {c code : α} (hc : enc c = none) (hce : c ≠ esc)
    (hcode : ∀ x, enc x ≠ some c) (l : List α) :
    ((escape esc enc l).flatMap fun x => if x = c then [esc, code] else [x]) =
      escape esc (fun x => if x = c then some code else enc x) l := by
  induction l with
  | nil => rfl
  | cons y l ih =>
    rw [escape_cons, escape_cons, List.flatMap_append, ih]
    congr 1
    by_cases hyc : y = c
    · subst hyc
      simp [hc]
    · rw [if_neg hyc]
      cases hy : enc y with
      | none => simp [hyc]
      | some d =>
        have hdc : d ≠ c := by
          rintro rfl
          exact hcode y hy
        simp [Ne.symm hce, hdc]

theorem escape_replace_literally {special : α → Bool} {c : α} (hc : special c = false)
    (hce : c ≠ esc) (l : List α) :
    ((escape esc (literally special) l).flatMap fun x => if x = c then [esc, c] else [x]) =
      escape esc (literally fun x => special x || x == c) l := by
  have hnone : literally special c = none := by simp [literally, hc]
  have hcode : ∀ x, literally special x ≠ some c := by
    intro x hx
    obtain ⟨hs, rfl⟩ := literally_eq_some_iff.mp hx
    rw [hs] at hc
    cases hc
  rw [escape_replace hnone hce hcode]
  refine escape_congr fun x _ => ?_
  by_cases hx : x = c
  · simp [literally, hx]
  · simp [literally, hx]

omit [DecidableEq α] in
/-- An escaped text is made of `esc`, of symbols without a code, and of codes. -/
theorem mem_of_mem_escape {x : α} {l : List α} (h : x ∈ escape esc enc l) :
    x = esc ∨ (x ∈ l ∧ enc x = none) ∨ ∃ y ∈ l, enc y = some x := by
  obtain ⟨y, hy, hx⟩ := List.mem_flatMap.mp h
  cases hcode : enc y with
  | none =>
    rw [hcode, List.mem_singleton] at hx
    subst hx
    exact .inr (.inl ⟨hy, hcode⟩)
  | some code =>
    rw [hcode, List.mem_cons, List.mem_singleton] at hx
    rcases hx with rfl | rfl
    · exact .inl rfl
    · exact .inr (.inr ⟨y, hy, hcode⟩)

end Huginn.Escape
