/-
# Blanks and lines

A blank is a character with the Unicode property White_Space. Lines end at a line feed,
and trimming takes the blanks off both ends of a line.
-/

namespace KeyedRpc.Blank

/-- The blanks as ranges of code points, first and last included. -/
def ranges : List (Nat × Nat) :=
  [(0x09, 0x0D), (0x20, 0x20), (0x85, 0x85), (0xA0, 0xA0), (0x1680, 0x1680), (0x2000, 0x200A),
    (0x2028, 0x2029), (0x202F, 0x202F), (0x205F, 0x205F), (0x3000, 0x3000)]

/-- Whether a character is a blank. -/
def isBlank (c : Char) : Bool :=
  ranges.any fun (first, last) => first ≤ c.toNat && c.toNat ≤ last

/-- Takes the blanks off both ends. -/
def trim (line : List Char) : List Char :=
  ((line.dropWhile isBlank).reverse.dropWhile isBlank).reverse

/-- The lines of a text without the line feeds that end them. -/
def lines (text : String) : List (List Char) :=
  text.toList.splitOn '\n'

end KeyedRpc.Blank
