import TypeSurface.Text.LetterCase

/-!
# Full lowercasing

Lowercasing of whole texts by the Unicode rules that hold in every language. One character can become
several (a capital I with a dot keeps its dot as a mark), and one rule looks at the surroundings: a
capital sigma that closes a word becomes a final sigma.
-/

set_option autoImplicit false

namespace TypeSurface.Text

/-- The small form of one character, its surroundings left out of account. -/
def lowerChar (c : Char) : List Char :=
  if c.toNat < 0x80 then [c.toLower]
  else if c = '\u0130' then ['i', '\u0307']
  else
    match smallLetter? c.toNat with
    | some code => [Char.ofNat code]
    | none => [c]

/-- The first character that a case rule does not look past has case. -/
def startsCased (cs : List Char) : Bool :=
  match cs.dropWhile isCaseIgnorable with
  | [] => false
  | c :: _ => isCased c

/-- A sigma closes a word if a letter stands before it and none after it. The text before it is given
from its end. -/
def closesWord (before after : List Char) : Bool :=
  startsCased before && !startsCased after

/-- Lowercases a text that follows the characters of `before`, the nearest one first. -/
def lowerFrom (before : List Char) : List Char → List Char
  | [] => []
  | c :: rest =>
      (if c = '\u03A3' then [if closesWord before rest then '\u03C2' else '\u03C3'] else lowerChar c)
        ++ lowerFrom (c :: before) rest

/-- Lowercases a whole text. -/
def lowercaseChars (cs : List Char) : List Char := lowerFrom [] cs

/-- Lowercases a whole text. -/
def lowercase (s : String) : String := String.ofList (lowercaseChars s.toList)

@[simp] theorem toList_lowercase (s : String) : (lowercase s).toList = lowercaseChars s.toList := by
  simp [lowercase]

@[simp] theorem lowercaseChars_nil : lowercaseChars [] = [] := rfl

-- A sigma at the end of a word becomes final. A full stop is looked past, so before one it does not
-- when letters follow.
example : lowercaseChars ['\u0391', '\u03A3'] = ['\u03B1', '\u03C2'] := by decide +kernel
example : lowercaseChars ['\u0391', '\u03A3', '.', '\u0392']
    = ['\u03B1', '\u03C3', '.', '\u03B2'] := by decide +kernel

end TypeSurface.Text
