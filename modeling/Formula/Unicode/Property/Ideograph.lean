import Formula.Unicode.CharSet

/-! Ideographs, their radicals and the operators that describe them by their parts. -/

namespace Formula.Unicode.Property

def unifiedIdeograph : CharSet := .ofGaps (
  "3400 19BF 40 51FF 5A0E 1 1 0 1 1 A 0 1 0 1 1 2 2 105D6 A6DF 20 1039 6 DD 2 1681 E 1D30 F " ++
  "26D 11A2 134A 5 105F")

def ideographic : CharSet := unifiedIdeograph.union <| .ofGaps (
  "3006 1 19 8 E 2 C8C5 10D 2 0 1 0 2 9 1 0 1 0 2 1 3 43 2 69 750A 0 1B 17F7 8 4D5 29 9 2467 " ++
  "18B 14504 21D")

def radical : CharSet := .ofRanges [(0x2E80, 0x2E99), (0x2E9B, 0x2EF3), (0x2F00, 0x2FD5)]

def idsUnaryOperator : CharSet := .range 0x2FFE 0x2FFF

def idsBinaryOperator : CharSet := .ofRanges [(0x2FF0, 0x2FF1), (0x2FF4, 0x2FFD), (0x31EF, 0x31EF)]

def idsTrinaryOperator : CharSet := .range 0x2FF2 0x2FF3

end Formula.Unicode.Property
