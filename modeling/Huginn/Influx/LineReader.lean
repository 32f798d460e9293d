import Huginn.Influx.LineProtocol
import Huginn.Lib.Escape

/-!
# Reading line protocol

The reader that the escaping of `to_line_protocol` is for. Outside of quotes a backslash before a
backslash, a comma, an equals sign or a space makes that character literal. A double quote opens a
string only directly after the equals sign of a field, and inside of it a backslash before a quote
or a backslash makes that character literal. A comma, an equals sign or a space that is neither
escaped nor quoted is structure, and structure in a place where it does not belong is an error.
-/

namespace Huginn.Influx

open Escape

/-- The value of a field, as its text. -/
inductive FieldValue
  | bare (text : String)
  | quoted (text : String)
  deriving DecidableEq, Repr

def FieldValue.text : FieldValue → String
  | bare text => text
  | quoted text => text

/-- A point. -/
structure Point where
  measurement : String
  tags : List (String × String)
  fields : List (String × FieldValue)
  timestamp : ℤ
  deriving DecidableEq, Repr

namespace Point

/-- The characters that a backslash makes literal outside of quotes. -/
def isNameSpecial (c : Char) : Bool := c == '\\' || c == ',' || c == '=' || c == ' '

/-- The characters that end a name. -/
def isNameStop (c : Char) : Bool := c == ',' || c == '=' || c == ' '

/-- The characters that end the bare value of a field. -/
def isValueStop (c : Char) : Bool := c == ',' || c == ' '

/-- The characters that a backslash makes literal inside of quotes. -/
def isQuoteSpecial (c : Char) : Bool := c == '\\' || c == '"'

/-- The character that ends a quoted value. -/
def isQuoteStop (c : Char) : Bool := c == '"'

/-- Read a measurement, a tag key, a tag value or a field key, which may not be empty. -/
def readName (cs : List Char) : Option (String × List Char) :=
  let (name, rest) := scan '\\' (literally isNameSpecial) isNameStop cs
  if name = [] then none else some (String.ofList name, rest)

/-- Read the tags and the space after them. -/
def readTags : ℕ → List Char → Option (List (String × String) × List Char)
  | 0, _ => none
  | fuel + 1, cs =>
    match expect ' ' cs with
    | some rest => some ([], rest)
    | none => do
      let (key, rest) ← readName (← expect ',' cs)
      let (value, rest) ← readName (← expect '=' rest)
      let (tags, rest) ← readTags fuel rest
      some ((key, value) :: tags, rest)

/-- Read the value of a field. -/
def readValue (cs : List Char) : Option (FieldValue × List Char) :=
  match expect '"' cs with
  -- directly after the equals sign: a string
  | some rest => do
    let (text, rest) := scan '\\' (literally isQuoteSpecial) isQuoteStop rest
    some (.quoted (String.ofList text), ← expect '"' rest)
  | none =>
    let (text, rest) := scan '\\' (literally isNameSpecial) isValueStop cs
    some (.bare (String.ofList text), rest)

/-- Read the fields and the space after them. -/
def readFields : ℕ → List Char → Option (List (String × FieldValue) × List Char)
  | 0, _ => none
  | fuel + 1, cs => do
    let (key, rest) ← readName cs
    let (value, rest) ← readValue (← expect '=' rest)
    match expect ' ' rest with
    | some rest => some ([(key, value)], rest)
    | none =>
      let (fields, rest) ← readFields fuel (← expect ',' rest)
      some ((key, value) :: fields, rest)

/-- Read a decimal integer. -/
def readInt (cs : List Char) : Option ℤ :=
  match expect '-' cs with
  | some digits => if digits = [] then none else (digitsValue 10 digits).map Int.negOfNat
  | none => if cs = [] then none else (digitsValue 10 cs).map Int.ofNat

/-- Read a line. Every tag and every field takes up characters, so its length is fuel enough. -/
def read (line : String) : Option Point := do
  let cs := line.toList
  let (measurement, rest) ← readName cs
  let (tags, rest) ← readTags cs.length rest
  let (fields, rest) ← readFields cs.length rest
  let timestamp ← readInt rest
  some ⟨measurement, tags, fields, timestamp⟩

/-- Read a batch: one point on every line. -/
def readBatch (text : String) : Option (List Point) :=
  (text.toList.splitOn '\n').mapM fun line => read (String.ofList line)

/-! ### Writing a point -/

/-- A name, escaped. -/
def writeName (s : String) : List Char := escape '\\' (literally isNameSpecial) s.toList

def writeTag (tag : String × String) : List Char :=
  ',' :: (writeName tag.1 ++ '=' :: writeName tag.2)

def writeValue : FieldValue → List Char
  | .bare text => text.toList
  | .quoted text => '"' :: (escape '\\' (literally isQuoteSpecial) text.toList ++ ['"'])

def writeField (field : String × FieldValue) : List Char :=
  writeName field.1 ++ '=' :: writeValue field.2

/-- The fields, with a comma between any two. -/
def writeFields (fields : List (String × FieldValue)) : List Char :=
  List.intercalate [','] (fields.map writeField)

def write (p : Point) : List Char :=
  writeName p.measurement ++ (p.tags.flatMap writeTag ++ ' ' :: (writeFields p.fields ++
    ' ' :: (toString p.timestamp).toList))

end Point

/-- The point that a result is built into. -/
def toPoint {F : Type} [F64 F] (r : ProbeResult F) : Point where
  measurement := "probe_result"
  tags := [("probe_name", r.probeName), ("probe_type", r.probeType), ("target", r.target)]
  fields :=
    [("up", .bare (if r.up then "1i" else "0i")), ("response_ms", .bare (F64.fixed 3 r.responseMs))]
      ++ (r.statusCode.map fun code => ("status_code", .bare (toString code.toNat ++ "i"))).toList
      ++ (r.error.map fun err => ("error", .quoted err)).toList
      ++ r.metrics.entries.map fun (key, value) => (key, .bare (F64.display value))
  timestamp := r.timestamp.timestampMillis

end Huginn.Influx
