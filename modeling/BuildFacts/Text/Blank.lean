import BuildFacts.Text.Split

/-!
# White space

The blank characters are those with the Unicode property `White_Space`.
`trim` takes them off both ends of a text and `words` splits a text at them.
-/

namespace BuildFacts.Text

/-- Whether a character has the Unicode property `White_Space`. -/
def isBlank (c : Char) : Bool :=
  let n := c.toNat
  (0x09 ≤ n && n ≤ 0x0D) || n == 0x20 || n == 0x85 || n == 0xA0 || n == 0x1680 ||
    (0x2000 ≤ n && n ≤ 0x200A) || n == 0x2028 || n == 0x2029 || n == 0x202F ||
    n == 0x205F || n == 0x3000

/-- A text without the blanks at its two ends. -/
def trim (text : List Char) : List Char :=
  ((text.dropWhile isBlank).reverse.dropWhile isBlank).reverse

/-- The longest runs of characters that are not blank. -/
def words (text : List Char) : List (List Char) :=
  (splitAt isBlank text).filter fun word => !word.isEmpty

end BuildFacts.Text
