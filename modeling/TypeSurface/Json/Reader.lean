import TypeSurface.Json.Value

/-!
# Reading JSON

A reader for the whole notation. Every value takes at least one character and every further step into
it takes another one, so the length of the text bounds the number of steps.
-/

set_option autoImplicit false

namespace TypeSurface.Json

/-- Characters that may stand between any two parts. -/
def isBlank (c : Char) : Bool := c == ' ' || c == '\t' || c == '\n' || c == '\r'

/-- The text without the blanks in front. -/
def skipBlanks (cs : List Char) : List Char := cs.dropWhile isBlank

/-- The value of a hexadecimal digit. -/
def hexDigit? (c : Char) : Option Nat :=
  if '0' ≤ c ∧ c ≤ '9' then some (c.toNat - '0'.toNat)
  else if 'a' ≤ c ∧ c ≤ 'f' then some (c.toNat - 'a'.toNat + 10)
  else if 'A' ≤ c ∧ c ≤ 'F' then some (c.toNat - 'A'.toNat + 10)
  else none

/-- The value of four hexadecimal digits. -/
def unit? (a b c d : Char) : Option Nat := do
  return (((← hexDigit? a) * 16 + (← hexDigit? b)) * 16 + (← hexDigit? c)) * 16 + (← hexDigit? d)

/-- The character of one escaped unit; half of a pair stands for the replacement character. -/
def unitChar (unit : Nat) : Char :=
  if 0xD800 ≤ unit ∧ unit < 0xE000 then '\uFFFD' else Char.ofNat unit

/-- The character of two escaped units, if they are the halves of a pair. -/
def pairChar? (high low : Nat) : Option Char :=
  if 0xD800 ≤ high ∧ high < 0xDC00 ∧ 0xDC00 ≤ low ∧ low < 0xE000 then
    some (Char.ofNat (0x10000 + (high - 0xD800) * 0x400 + (low - 0xDC00)))
  else none

/-- The character behind an escape of one letter. -/
def escaped? (c : Char) : Option Char :=
  if c = 'n' then some '\n'
  else if c = 't' then some '\t'
  else if c = 'r' then some '\r'
  else if c = 'b' then some '\x08'
  else if c = 'f' then some '\x0c'
  else if c = '"' ∨ c = '\\' ∨ c = '/' then some c
  else none

/-- Reads a text up to its closing quote. -/
def readText : Nat → List Char → Option (List Char × List Char)
  | 0, _ => none
  | steps + 1, cs =>
      match cs with
      | '"' :: rest => some ([], rest)
      | '\\' :: 'u' :: a :: b :: c :: d :: rest => do
          let unit ← unit? a b c d
          let (first, rest) :=
            match rest with
            | '\\' :: 'u' :: e :: f :: g :: h :: others =>
                match (unit? e f g h).bind (pairChar? unit) with
                | some pair => (pair, others)
                | none => (unitChar unit, rest)
            | _ => (unitChar unit, rest)
          let (chars, rest) ← readText steps rest
          return (first :: chars, rest)
      | '\\' :: c :: rest => do
          let first ← escaped? c
          let (chars, rest) ← readText steps rest
          return (first :: chars, rest)
      | c :: rest => do
          let (chars, rest) ← readText steps rest
          return (c :: chars, rest)
      | [] => none

/-- Characters of which numbers are made. -/
def isNumeric (c : Char) : Bool :=
  c.isDigit || c == '-' || c == '+' || c == '.' || c == 'e' || c == 'E'

/-- The value of a run of numeric characters. -/
def number (cs : List Char) : Json :=
  if cs.all Char.isDigit then
    .natural (cs.foldl (fun value c => value * 10 + (c.toNat - '0'.toNat)) 0)
  else .other

mutual

/-- Reads a value with blanks in front. -/
def readValue : Nat → List Char → Option (Json × List Char)
  | 0, _ => none
  | steps + 1, cs =>
      match skipBlanks cs with
      | 'n' :: 'u' :: 'l' :: 'l' :: rest => some (.null, rest)
      | 't' :: 'r' :: 'u' :: 'e' :: rest => some (.truth true, rest)
      | 'f' :: 'a' :: 'l' :: 's' :: 'e' :: rest => some (.truth false, rest)
      | '"' :: rest => do
          let (chars, rest) ← readText (rest.length + 1) rest
          return (.text (String.ofList chars), rest)
      | '[' :: rest =>
          match skipBlanks rest with
          | ']' :: rest => some (.list [], rest)
          | rest => (readItems steps rest).map fun (items, rest) => (.list items, rest)
      | '\x7b' :: rest =>
          match skipBlanks rest with
          | '\x7d' :: rest => some (.record [], rest)
          | rest => (readMembers steps rest).map fun (members, rest) => (.record members, rest)
      | rest =>
          match rest.takeWhile isNumeric with
          | [] => none
          | digits => some (number digits, rest.dropWhile isNumeric)

/-- Reads the items of a list up to its closing bracket. -/
def readItems : Nat → List Char → Option (List Json × List Char)
  | 0, _ => none
  | steps + 1, cs => do
      let (item, rest) ← readValue steps cs
      match skipBlanks rest with
      | ']' :: rest => return ([item], rest)
      | ',' :: rest =>
          let (items, rest) ← readItems steps rest
          return (item :: items, rest)
      | _ => none

/-- Reads the members of a record up to its closing brace. -/
def readMembers : Nat → List Char → Option (List (String × Json) × List Char)
  | 0, _ => none
  | steps + 1, cs =>
      match skipBlanks cs with
      | '"' :: rest => do
          let (key, rest) ← readText (rest.length + 1) rest
          match skipBlanks rest with
          | ':' :: rest =>
              let (value, rest) ← readValue steps rest
              match skipBlanks rest with
              | '\x7d' :: rest => return ([(String.ofList key, value)], rest)
              | ',' :: rest =>
                  let (members, rest) ← readMembers steps rest
                  return ((String.ofList key, value) :: members, rest)
              | _ => none
          | _ => none
      | _ => none

end

/-- Reads a text that holds one value and blanks around it. -/
def parse? (text : String) : Option Json :=
  match readValue (text.length + 1) text.toList with
  | some (value, rest) => if (skipBlanks rest).isEmpty then some value else none
  | none => none

end TypeSurface.Json
