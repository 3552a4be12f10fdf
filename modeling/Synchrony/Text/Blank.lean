/-!
# Blank characters

Every reader of text in this library skips and trims the same class of characters, and asks of
that class whether a keyword has ended. The class is the one Unicode calls white space, together
with the four information separators U+001C to U+001F; a zero-width space is not in it, and
neither is a byte order mark.

The readers work on the list of characters still to be read, so trimming is stated on lists.
-/

set_option autoImplicit false

namespace Synchrony.Text

/-- The blank characters. -/
def isBlank (c : Char) : Bool :=
  let n := c.toNat
  (9 ≤ n && n ≤ 13) || (28 ≤ n && n ≤ 32) || n == 0x85 || n == 0xA0 || n == 0x1680 ||
    (0x2000 ≤ n && n ≤ 0x200A) || n == 0x2028 || n == 0x2029 || n == 0x202F || n == 0x205F ||
    n == 0x3000

/-- What is left once the blanks in front are gone. -/
def skipBlanks (s : List Char) : List Char :=
  s.dropWhile isBlank

/-- What is left once the blanks at the end are gone. -/
def trimEnd (s : List Char) : List Char :=
  (s.reverse.dropWhile isBlank).reverse

/-- What is left once the blanks at both ends are gone. -/
def trim (s : List Char) : List Char :=
  trimEnd (skipBlanks s)

/-- Skipping blanks reads forward or stands still. -/
theorem skipBlanks_length_le (s : List Char) : (skipBlanks s).length ≤ s.length :=
  (List.dropWhile_sublist isBlank).length_le

end Synchrony.Text
