/-!
The classes of blank characters that the markdown rules tell apart.
-/

namespace EditorMarkdown.Text

def isBlank (c : Char) : Bool := c = ' ' || c = '\t'

/-- Blank characters that do not end a line. -/
def isLineBlank (c : Char) : Bool :=
  c = ' ' || c = '\t' || c = '\x0b' || c = '\x0c'

def isAsciiBlank (c : Char) : Bool := isLineBlank c || c = '\n' || c = '\r'

/-- The characters with the Unicode property `White_Space`. -/
def isWhite (c : Char) : Bool :=
  isAsciiBlank c || c.toNat = 0x85 || c.toNat = 0xA0 || c.toNat = 0x1680 ||
    (0x2000 ≤ c.toNat && c.toNat ≤ 0x200A) || c.toNat = 0x2028 || c.toNat = 0x2029 ||
    c.toNat = 0x202F || c.toNat = 0x205F || c.toNat = 0x3000

end EditorMarkdown.Text
