import Parley.Number.Notation
import Parley.Text.Digit

/-
Loosely written numbers: blanks around them, digits of any script, and single
underscores between digits.
-/

namespace Parley
namespace Number

/-- Blank characters that may surround a number. -/
def isBlank (c : Char) : Bool :=
  let n := c.toNat
  (0x9 ≤ n && n ≤ 0xD) || n == 0x20 || n == 0x85 || n == 0xA0 || n == 0x1680 ||
    (0x2000 ≤ n && n ≤ 0x200A) || n == 0x2028 || n == 0x2029 || n == 0x202F ||
    n == 0x205F || n == 0x3000

def trim (cs : List Char) : List Char :=
  ((cs.dropWhile isBlank).reverse.dropWhile isBlank).reverse

/-- Removes underscores, each of which must stand between two digits.  The flag
says whether the character before was a digit. -/
def joinDigits? : Bool → List Char → Option (List Char)
  | _, [] => some []
  | afterDigit, '_' :: c :: cs =>
    if afterDigit && c.isDigit then (joinDigits? true cs).map (c :: ·) else none
  | _, ['_'] => none
  | _, c :: cs => (joinDigits? c.isDigit cs).map (c :: ·)

/-- The number a text stands for when it is written loosely. -/
def readLoose? (s : String) : Option Float :=
  (joinDigits? false ((trim s.toList).map Text.plainDigit)).bind read?

end Number
end Parley
