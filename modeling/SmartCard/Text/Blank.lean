/-!
# Blank characters

The characters with the Unicode property `White_Space`, and texts without
them at either end.
-/

namespace SmartCard

namespace Text

/-- The ranges of blank characters, both ends included. -/
def blankRanges : List (Nat × Nat) :=
  [(0x0009, 0x000D), (0x0020, 0x0020), (0x0085, 0x0085), (0x00A0, 0x00A0), (0x1680, 0x1680),
    (0x2000, 0x200A), (0x2028, 0x2029), (0x202F, 0x202F), (0x205F, 0x205F), (0x3000, 0x3000)]

/-- The character is blank. -/
def isBlank (c : Char) : Bool :=
  blankRanges.any fun r => r.1 ≤ c.toNat && c.toNat ≤ r.2

/-- The text without blanks at its ends. -/
def trim (text : String) : String :=
  let rest := text.toList.dropWhile isBlank
  String.ofList (rest.reverse.dropWhile isBlank).reverse

end Text

end SmartCard
