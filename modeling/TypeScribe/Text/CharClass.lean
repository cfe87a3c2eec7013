import TypeScribe.Text.Age
import TypeScribe.Text.Alphabetic
import TypeScribe.Text.Mark
import TypeScribe.Text.Numeral

/-!
The character classes that scanning distinguishes. Blanks, line breaks and words of source code are
ASCII; white space and the characters of a name follow Unicode.
-/

namespace TypeScribe.Text

/-- The code points with the Unicode property `White_Space`. -/
def whiteSpace : InversionList :=
  [0x9, 0xE, 0x20, 0x21, 0x85, 0x86, 0xA0, 0xA1, 0x1680, 0x1681, 0x2000, 0x200B, 0x2028, 0x202A,
   0x202F, 0x2030, 0x205F, 0x2060, 0x3000, 0x3001]

def isSpace (c : Char) : Bool := whiteSpace.contains c.toNat

/-- A blank separates without ending the line. -/
def isBlank (c : Char) : Bool := c == ' ' || c == '\t'

def isLineBreak (c : Char) : Bool := c == '\r' || c == '\n'

def isAsciiWord (c : Char) : Bool := c.isAlphanum || c == '_'

def isAlphanumeric (c : Char) : Bool :=
  if c.toNat < 0x80 then c.isAlphanum
  else alphabetic.contains c.toNat || decimalDigit.contains c.toNat ||
    otherNumeral.contains c.toNat

/-- The characters of which a type name consists. -/
def isNameChar (c : Char) : Bool := isAlphanumeric c || c == '_'

/-- The connector punctuation of general category `Pc`. -/
def connector : InversionList :=
  [0x5F, 0x60, 0x203F, 0x2041, 0x2054, 0x2055, 0xFE33, 0xFE35, 0xFE4D, 0xFE50, 0xFF3F, 0xFF40]

/-- The zero-width joiners, which stand inside words. -/
def joinControl : InversionList := [0x200C, 0x200E]

/-- The word characters of any script, between which no word boundary lies. Word boundaries follow
Unicode 16, to which the characters of version 17 are unknown. -/
def isWordChar (c : Char) : Bool :=
  if c.toNat < 0x80 then isAsciiWord c
  else if newInUnicode17.contains c.toNat then false
  else alphabetic.contains c.toNat || combiningMark.contains c.toNat ||
    decimalDigit.contains c.toNat || connector.contains c.toNat || joinControl.contains c.toNat

theorem isSpace_of_isBlank {c : Char} (h : isBlank c = true) : isSpace c = true := by
  rcases (by simpa [isBlank] using h : c = ' ' ∨ c = '\t') with rfl | rfl <;> decide

theorem isSpace_of_isLineBreak {c : Char} (h : isLineBreak c = true) : isSpace c = true := by
  rcases (by simpa [isLineBreak] using h : c = '\r' ∨ c = '\n') with rfl | rfl <;> decide

end TypeScribe.Text
