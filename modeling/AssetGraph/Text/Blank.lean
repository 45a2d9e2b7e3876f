/-!
# Blank characters

`isBlank` is Unicode's White_Space property; `trim` strips it from both ends of a text.
-/
namespace AssetGraph.Text

/-- The 25 characters that have the White_Space property. -/
def isBlank (c : Char) : Bool :=
  let n := c.toNat
  (0x09 ≤ n && n ≤ 0x0D) || n == 0x20 || n == 0x85 || n == 0xA0 || n == 0x1680 ||
    (0x2000 ≤ n && n ≤ 0x200A) || n == 0x2028 || n == 0x2029 || n == 0x202F ||
    n == 0x205F || n == 0x3000

def trim (cs : List Char) : List Char :=
  ((cs.dropWhile isBlank).reverse.dropWhile isBlank).reverse

example : trim "\u00a0 a b\t\n".toList = "a b".toList := by decide +kernel

end AssetGraph.Text
