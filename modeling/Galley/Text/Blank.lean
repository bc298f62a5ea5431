/-!
Blank characters: the characters of the Unicode property `White_Space`, and the texts left when they
are cut from an end.
-/

namespace Galley.Text

/-- The characters with the Unicode property `White_Space`. -/
def isBlank (c : Char) : Bool :=
  let n := c.toNat
  (0x09 ≤ n && n ≤ 0x0D) || n == 0x20 || n == 0x85 || n == 0xA0 || n == 0x1680 ||
  (0x2000 ≤ n && n ≤ 0x200A) || n == 0x2028 || n == 0x2029 || n == 0x202F || n == 0x205F ||
  n == 0x3000

/-- The text without its leading characters that satisfy `p`. -/
def dropFront (p : Char → Bool) (text : List Char) : List Char := text.dropWhile p

/-- The text without its trailing characters that satisfy `p`. -/
def dropBack (p : Char → Bool) (text : List Char) : List Char :=
  (text.reverse.dropWhile p).reverse

/-- The text without leading blanks. -/
def trimStart (text : String) : String := String.ofList (dropFront isBlank text.toList)

/-- The text without trailing blanks. -/
def trimEnd (text : String) : String := String.ofList (dropBack isBlank text.toList)

/-- The text without blanks at either end. -/
def trim (text : String) : String :=
  String.ofList (dropBack isBlank (dropFront isBlank text.toList))

/-- Whether the text has no character but blanks. -/
def isAllBlank (text : String) : Bool := text.toList.all isBlank

def isSpaceOrTab (c : Char) : Bool := c == ' ' || c == '\t'

def isAsciiAlphanumeric (c : Char) : Bool := c.isAlphanum

end Galley.Text
