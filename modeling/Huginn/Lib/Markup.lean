import Huginn.Lib.Escape

/-!
# A fragment of HTML

Elements one after the other, each with a text in it and maybe a class. The reader does on them what
the tokenizer of a browser does: a `<` begins a tag, a `&` a character reference, everything else is
text. What is outside of the fragment, or would be changed by a browser, it does not read at all.

A list of elements reads back as it was written, whatever the texts are made of (`read_write`). So
nothing in a text is ever taken for markup.
-/

namespace Huginn.Markup

open Escape

/-- An element without elements in it. -/
structure Element where
  tag : List Char
  cls : Option (List Char)
  text : List Char
  deriving DecidableEq, Repr

/-- The characters that are written as references, and what follows the ampersand. -/
def references : List (Char × List Char) :=
  [('&', ['a', 'm', 'p', ';']), ('<', ['l', 't', ';']), ('>', ['g', 't', ';']),
    ('"', ['q', 'u', 'o', 't', ';'])]

/-- A character of a text. -/
def writeChar (c : Char) : List Char :=
  match references.lookup c with
  | some name => '&' :: name
  | none => [c]

def writeText (text : List Char) : List Char := text.flatMap writeChar

def writeClass : Option (List Char) → List Char
  | some cls => ' ' :: 'c' :: 'l' :: 'a' :: 's' :: 's' :: '=' :: '"' :: (cls ++ ['"'])
  | none => []

def Element.write (e : Element) : List Char :=
  '<' :: (e.tag ++ (writeClass e.cls ++
    '>' :: (writeText e.text ++ '<' :: '/' :: (e.tag ++ ['>']))))

def write (es : List Element) : List Char := es.flatMap Element.write

/-! ### The reader -/

/-- A letter of a tag. -/
def isTagChar (c : Char) : Bool := decide (0x61 ≤ c.toNat) && decide (c.toNat ≤ 0x7A)

/-- A character that a browser may change: a line ending, or one that has no place in a text. -/
def isChanged (c : Char) : Bool :=
  decide (c.toNat ≤ 0x1F) || (decide (0x7F ≤ c.toNat) && decide (c.toNat ≤ 0x9F))

/-- A character of an attribute that stands for itself. -/
def isPlain (c : Char) : Bool := c != '"' && c != '&' && !isChanged c

/-- Read what follows an ampersand. -/
def readReference (cs : List Char) : Option (Char × List Char) :=
  references.findSome? fun (c, name) =>
    if name.isPrefixOf cs then some (c, cs.drop name.length) else none

/-- Read a text up to the next tag. -/
def readText : ℕ → List Char → Option (List Char × List Char)
  | 0, _ | _ + 1, [] => none
  | fuel + 1, c :: cs =>
    if c = '<' then some ([], c :: cs)
    else if c = '&' then do
      let (c, cs) ← readReference cs
      let (text, rest) ← readText fuel cs
      some (c :: text, rest)
    else if isChanged c then none
    else do
      let (text, rest) ← readText fuel cs
      some (c :: text, rest)

/-- Read characters that are expected. -/
def expectAll : List Char → List Char → Option (List Char)
  | [], cs => some cs
  | c :: word, cs => do expectAll word (← expect c cs)

/-- Read a class, if there is one. -/
def readClass (cs : List Char) : Option (Option (List Char) × List Char) :=
  match expect ' ' cs with
  | none => some (none, cs)
  | some rest => do
    let rest ← expectAll ['c', 'l', 'a', 's', 's', '=', '"'] rest
    let rest' ← expect '"' (rest.dropWhile isPlain)
    some (some (rest.takeWhile isPlain), rest')

def readElement (cs : List Char) : Option (Element × List Char) := do
  let rest ← expect '<' cs
  let tag := rest.takeWhile isTagChar
  if tag = [] then none
  else
    let (cls, rest) ← readClass (rest.dropWhile isTagChar)
    let rest ← expect '>' rest
    let (text, rest) ← readText rest.length rest
    let rest ← expectAll ('<' :: '/' :: (tag ++ ['>'])) rest
    some (⟨tag, cls, text⟩, rest)

def readElements : ℕ → List Char → Option (List Element)
  | _, [] => some []
  | 0, _ :: _ => none
  | fuel + 1, c :: cs => do
    let (e, rest) ← readElement (c :: cs)
    let es ← readElements fuel rest
    some (e :: es)

/-- Read elements up to the end. -/
def read (cs : List Char) : Option (List Element) := readElements cs.length cs

/-! ### Reading back -/

/-- A text that a browser does not change. -/
def TextOk (text : List Char) : Prop := ∀ c ∈ text, isChanged c = false

/-- An element that can be written. The text can be any that a browser does not change. -/
structure Element.Ok (e : Element) : Prop where
  tag_ne_nil : e.tag ≠ []
  tag : ∀ c ∈ e.tag, isTagChar c = true
  cls : ∀ cls ∈ e.cls, ∀ c ∈ cls, isPlain c = true
  text : TextOk e.text

/-- A literal element can be written, by evaluation. -/
theorem Element.ok_of_all {e : Element} (hne : e.tag ≠ []) (htag : e.tag.all isTagChar = true)
    (hcls : e.cls.all (fun cls => cls.all isPlain) = true)
    (htext : e.text.all (fun c => !isChanged c) = true) : e.Ok where
  tag_ne_nil := hne
  tag := List.all_eq_true.mp htag
  cls cls hmem := by
    apply List.all_eq_true.mp
    exact (Option.all_eq_true _ _).mp hcls cls hmem
  text c hc := by
    have hchanged := List.all_eq_true.mp htext c hc
    simpa using hchanged

theorem readReference_append {c : Char} {name : List Char} (h : references.lookup c = some name)
    (rest : List Char) : readReference (name ++ rest) = some (c, rest) := by
  have hmem : (c, name) ∈ references := by
    obtain ⟨before, after, heq, -⟩ := List.lookup_eq_some_iff.mp h
    rw [heq]
    exact List.mem_append_right before List.mem_cons_self
  simp only [references, List.mem_cons, Prod.mk.injEq, List.not_mem_nil, or_false] at hmem
  rcases hmem with ⟨rfl, rfl⟩ | ⟨rfl, rfl⟩ | ⟨rfl, rfl⟩ | ⟨rfl, rfl⟩
  all_goals simp [readReference, references]

/-- What is not written as a reference has no meaning of its own. -/
theorem ne_of_lookup_eq_none {c : Char} (h : references.lookup c = none) : c ≠ '<' ∧ c ≠ '&' := by
  refine ⟨?_, ?_⟩
  all_goals
    rintro rfl
    cases h

theorem readText_writeText {text : List Char} (h : TextOk text) {fuel : ℕ}
    (hfuel : text.length < fuel) (rest : List Char) :
    readText fuel (writeText text ++ '<' :: rest) = some (text, '<' :: rest) := by
  induction text generalizing fuel with
  | nil =>
    obtain ⟨fuel, rfl⟩ : ∃ k, fuel = k + 1 := ⟨fuel - 1, by simp at hfuel; omega⟩
    rfl
  | cons c text ih =>
    obtain ⟨fuel, rfl⟩ : ∃ k, fuel = k + 1 := ⟨fuel - 1, by simp at hfuel; omega⟩
    have htail := ih (fun d hd => h d (List.mem_cons_of_mem c hd)) (Nat.lt_of_succ_lt_succ hfuel)
    have hcons : writeText (c :: text) = writeChar c ++ writeText text := List.flatMap_cons
    rw [hcons, List.append_assoc, writeChar]
    cases hc : references.lookup c with
    | some name =>
      show readText (fuel + 1) ('&' :: (name ++ (writeText text ++ '<' :: rest))) = _
      rw [readText, if_neg (by decide), if_pos rfl, readReference_append hc]
      simp only [Option.bind_eq_bind, Option.bind_some]
      rw [htail]
      rfl
    | none =>
      obtain ⟨hlt, hamp⟩ := ne_of_lookup_eq_none hc
      show readText (fuel + 1) (c :: (writeText text ++ '<' :: rest)) = _
      rw [readText, if_neg hlt, if_neg hamp, h c List.mem_cons_self, if_neg Bool.false_ne_true]
      simp only [Option.bind_eq_bind]
      rw [htail]
      rfl

theorem expectAll_append (word rest : List Char) : expectAll word (word ++ rest) = some rest := by
  induction word with
  | nil => rfl
  | cons c word ih =>
    rw [List.cons_append, expectAll, expect_cons]
    exact ih

/-- Up to the first character that does not belong to it. -/
theorem takeWhile_append_cons {p : Char → Bool} {l : List Char} (hl : ∀ c ∈ l, p c = true)
    {c : Char} (hc : p c = false) (rest : List Char) :
    (l ++ c :: rest).takeWhile p = l ∧ (l ++ c :: rest).dropWhile p = c :: rest := by
  have hneg : ¬ p c = true := by simp [hc]
  rw [List.takeWhile_append_of_pos hl, List.takeWhile_cons_of_neg hneg,
    List.dropWhile_append_of_pos hl, List.dropWhile_cons_of_neg hneg, List.append_nil]
  exact ⟨rfl, rfl⟩

theorem readClass_writeClass {cls : Option (List Char)}
    (h : ∀ value ∈ cls, ∀ c ∈ value, isPlain c = true) (rest : List Char) :
    readClass (writeClass cls ++ '>' :: rest) = some (cls, '>' :: rest) := by
  cases cls with
  | none => rfl
  | some value =>
    have hline : writeClass (some value) ++ '>' :: rest =
        ' ' :: (['c', 'l', 'a', 's', 's', '=', '"'] ++ (value ++ '"' :: '>' :: rest)) := by
      simp [writeClass]
    obtain ⟨htake, hdrop⟩ := takeWhile_append_cons (h value rfl) (c := '"') rfl ('>' :: rest)
    rw [hline, readClass, expect_cons]
    simp only [Option.bind_eq_bind]
    rw [expectAll_append]
    simp only [Option.bind_some, htake, hdrop, expect_cons]

/-- What comes after a tag does not belong to it. -/
theorem exists_writeClass_append (cls : Option (List Char)) (rest : List Char) :
    ∃ c rest', isTagChar c = false ∧ writeClass cls ++ '>' :: rest = c :: rest' := by
  cases cls with
  | none => exact ⟨'>', rest, by decide, rfl⟩
  | some value => exact ⟨' ', _, by decide, rfl⟩

theorem length_writeText (text : List Char) : text.length ≤ (writeText text).length := by
  induction text with
  | nil => exact Nat.le_refl _
  | cons c text ih =>
    have hchar : 1 ≤ (writeChar c).length := by
      unfold writeChar
      split
      all_goals simp
    show text.length + 1 ≤ (List.flatMap writeChar (c :: text)).length
    rw [List.flatMap_cons, List.length_append]
    have htail : text.length ≤ (text.flatMap writeChar).length := ih
    omega

/-- **An element reads back.** -/
theorem readElement_write {e : Element} (h : e.Ok) (rest : List Char) :
    readElement (e.write ++ rest) = some (e, rest) := by
  have hline : e.write ++ rest = '<' :: (e.tag ++ (writeClass e.cls ++ '>' :: (writeText e.text ++
      '<' :: '/' :: (e.tag ++ '>' :: rest)))) := by
    simp [Element.write]
  obtain ⟨c, rest', hc, hrest'⟩ := exists_writeClass_append e.cls
    (writeText e.text ++ '<' :: '/' :: (e.tag ++ '>' :: rest))
  obtain ⟨htake, hdrop⟩ := takeWhile_append_cons h.tag hc rest'
  rw [← hrest'] at htake hdrop
  have hend : expectAll ('<' :: '/' :: (e.tag ++ ['>'])) ('<' :: '/' :: (e.tag ++ '>' :: rest)) =
      some rest := by
    have hword :
        '<' :: '/' :: (e.tag ++ '>' :: rest) = ('<' :: '/' :: (e.tag ++ ['>'])) ++ rest := by
      simp
    rw [hword]
    exact expectAll_append _ rest
  have hfuel : e.text.length <
      (writeText e.text ++ '<' :: '/' :: (e.tag ++ '>' :: rest)).length := by
    have hle := length_writeText e.text
    rw [List.length_append, List.length_cons]
    omega
  rw [hline, readElement, expect_cons]
  simp only [Option.bind_eq_bind, Option.bind_some, htake, hdrop, h.tag_ne_nil, if_false]
  rw [readClass_writeClass h.cls]
  simp only [Option.bind_some, expect_cons]
  rw [readText_writeText h.text hfuel]
  simp only [Option.bind_some]
  rw [hend]
  rfl

/-- **A list of elements reads back.** -/
theorem readElements_write {es : List Element} (h : ∀ e ∈ es, e.Ok) {fuel : ℕ}
    (hfuel : es.length ≤ fuel) : readElements fuel (write es) = some es := by
  induction es generalizing fuel with
  | nil =>
    cases fuel
    all_goals rfl
  | cons e es ih =>
    obtain ⟨fuel, rfl⟩ : ∃ k, fuel = k + 1 := ⟨fuel - 1, by simp at hfuel; omega⟩
    have htail := ih (fun f hf => h f (List.mem_cons_of_mem e hf)) (Nat.le_of_succ_le_succ hfuel)
    have hread := readElement_write (h e List.mem_cons_self) (write es)
    have hcons : write (e :: es) = e.write ++ write es := List.flatMap_cons
    obtain ⟨c, cs, hw⟩ : ∃ c cs, e.write ++ write es = c :: cs := ⟨'<', _, rfl⟩
    rw [hw] at hread
    rw [hcons, hw, readElements]
    simp only [Option.bind_eq_bind]
    rw [hread]
    simp only [Option.bind_some]
    rw [htail]
    rfl

theorem length_le_length_write (es : List Element) : es.length ≤ (write es).length := by
  induction es with
  | nil => exact Nat.le_refl _
  | cons e es ih =>
    have hwrite : 1 ≤ e.write.length := by simp [Element.write]
    show es.length + 1 ≤ (List.flatMap Element.write (e :: es)).length
    rw [List.flatMap_cons, List.length_append]
    have htail : es.length ≤ (es.flatMap Element.write).length := ih
    omega

/-- **What is written reads back**, and so nothing in a text is taken for markup. -/
theorem read_write {es : List Element} (h : ∀ e ∈ es, e.Ok) : read (write es) = some es :=
  readElements_write h (length_le_length_write es)

end Huginn.Markup
