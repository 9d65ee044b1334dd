import Formula.Unicode.Category

/-! What identifiers are made of, and what a syntax with identifiers may use between them. -/

namespace Formula.Unicode.Property

open Category

def patternSyntax : CharSet := .ofGaps (
  "21 E A 6 1A 3 1 0 1A 3 22 6 1 0 1 1 1 0 1 1 4 0 4 0 3 0 17 0 1F 0 1F18 17 8 E 2 12 1 9 131 " ++
  "2CF A0 275 1E 46B 200 7F 181 2 4 18 F 0 CD0D 1 105 1")

def patternWhiteSpace : CharSet :=
  .ofRanges [(0x9, 0xD), (0x20, 0x20), (0x85, 0x85), (0x200E, 0x200F), (0x2028, 0x2029)]

def otherIdStart : CharSet := .ofGaps
  "1885 1 891 0 15 0 F6C 1"

def otherIdContinue : CharSet := .ofGaps
  "B7 0 2CF 0 FE1 8 668 0 631 1 10ED 0 CE69 0"

def idStart : CharSet :=
  (CharSet.unions [letter, letterNumber, otherIdStart]).diff patternSyntax

def idContinue : CharSet :=
  (CharSet.unions [idStart, nonspacingMark, spacingMark, decimalNumber, connectorPunctuation,
    otherIdContinue]).diff patternSyntax

/-- Characters that a compatibility form would turn into what no identifier has at any place. -/
def notInXid : CharSet := .ofGaps
  "37A 0 2D20 1 CBC1 5 196 1 74 0 1 0 1 0 1 0 1 0 1 0 1 0 1 0"

/-- Starts of identifiers that remain so in all normal forms. -/
def xidStart : CharSet :=
  (idStart.diff notInXid).diff (.ofGaps "E33 0 7F 0 F0EA 1")

def xidContinue : CharSet := idContinue.diff notInXid

def idCompatMathStart : CharSet := .ofGaps
  "2202 0 4 0 16 0 1B4A2 0 19 0 1F 0 19 0 1F 0 19 0 1F 0 19 0 1F 0 19 0"

def idCompatMathContinue : CharSet := idCompatMathStart.union <| .ofGaps
  "B2 1 5 0 1FB6 0 3 A 1 E"

end Formula.Unicode.Property
