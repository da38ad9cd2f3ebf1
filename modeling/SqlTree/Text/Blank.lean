/-!
# Blank characters

The characters with the Unicode property `White_Space`, and the text that is left when a
run of them is taken from one end or from both ends.
-/

namespace SqlTree.Text

/-- A character with the Unicode property `White_Space`. -/
def isBlank (c : Char) : Bool :=
  let n := c.toNat
  (9 ≤ n && n ≤ 13) || n == 0x20 || n == 0x85 || n == 0xA0 || n == 0x1680 ||
    (0x2000 ≤ n && n ≤ 0x200A) || n == 0x2028 || n == 0x2029 || n == 0x202F ||
    n == 0x205F || n == 0x3000

/-- The characters after the leading blanks. -/
def trimLeft (cs : List Char) : List Char := cs.dropWhile isBlank

/-- The characters between the leading and the trailing blanks. -/
def trimBoth (cs : List Char) : List Char := (trimLeft (trimLeft cs).reverse).reverse

/-- A text without its leading and trailing blanks. -/
def trim (s : String) : String := String.ofList (trimBoth s.toList)

theorem trimLeft_cons (c : Char) (cs : List Char) :
    trimLeft (c :: cs) = if isBlank c then trimLeft cs else c :: cs := by
  simp only [trimLeft, List.dropWhile]
  split <;> simp_all

/-- A text that starts with no blank loses nothing at its left end. -/
theorem trimLeft_of_not_blank {c : Char} {cs : List Char} (h : isBlank c = false) :
    trimLeft (c :: cs) = c :: cs := by
  simp [trimLeft_cons, h]

end SqlTree.Text
