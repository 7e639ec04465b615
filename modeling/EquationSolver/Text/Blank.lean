/-!
# White space

The characters that count as white space in formulas: those that Unicode gives the white space
property, and the four separators of the control block. The zero width characters do not count.
Around numbers the separators do not count either.

## Main definitions

* `isBlank`, `isSpace`: white space with the separators and without them
* `trim`, `isBlankText`: a text without a class of characters at its ends, and a text of nothing but
  white space
-/

namespace EquationSolver.Text

/-- The ranges of white space, by code point, ends included. -/
def blankRanges : List (Nat × Nat) := [
  (0x9, 0xd), (0x1c, 0x20), (0x85, 0x85), (0xa0, 0xa0), (0x1680, 0x1680), (0x2000, 0x200a),
  (0x2028, 0x2029), (0x202f, 0x202f), (0x205f, 0x205f), (0x3000, 0x3000)]

/-- White space. -/
def isBlank (c : Char) : Bool := blankRanges.any fun (lo, hi) => lo ≤ c.toNat && c.toNat ≤ hi

/-- White space other than the separators of the control block. -/
def isSpace (c : Char) : Bool := isBlank c && !(0x1c ≤ c.toNat && c.toNat ≤ 0x1f)

/-- The text without the characters of a class at its two ends. -/
def trim (p : Char → Bool) (cs : List Char) : List Char :=
  ((cs.dropWhile p).reverse.dropWhile p).reverse

/-- A text that is empty or holds white space only. -/
def isBlankText (s : String) : Bool := s.toList.all isBlank

end EquationSolver.Text
