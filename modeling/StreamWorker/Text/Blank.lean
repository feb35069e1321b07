/-! White space as the Unicode property of that name has it, and trimming of it at both ends. -/

namespace StreamWorker.Text

/-- The characters with the property `White_Space`. -/
def blank (c : Char) : Bool :=
  let n := c.toNat
  (9 ≤ n && n ≤ 13) || n = 0x20 || n = 0x85 || n = 0xA0 || n = 0x1680
    || (0x2000 ≤ n && n ≤ 0x200A) || n = 0x2028 || n = 0x2029 || n = 0x202F || n = 0x205F
    || n = 0x3000

def trimList (l : List Char) : List Char :=
  ((l.dropWhile blank).reverse.dropWhile blank).reverse

/-- The text without white space at its ends. -/
def trim (s : String) : String := String.ofList (trimList s.toList)

end StreamWorker.Text
