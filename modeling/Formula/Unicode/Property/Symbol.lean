import Formula.Unicode.Category

/-! Properties of punctuation, of signs and of digits in other bases. -/

namespace Formula.Unicode.Property

open Category

def asciiHexDigit : CharSet := .ofRanges [(0x30, 0x39), (0x41, 0x46), (0x61, 0x66)]

def hexDigit : CharSet :=
  asciiHexDigit.union (.ofRanges [(0xFF10, 0xFF19), (0xFF21, 0xFF26), (0xFF41, 0xFF46)])

/-- Dashes, and the signs that stand for minus. -/
def dash : CharSet := dashPunctuation.union (.ofGaps "2053 0 27 0 F 0 186 0")

def hyphen : CharSet := .ofGaps
  "2D 0 7F 0 4DC 0 127B 0 809 1 E05 0 2E3 0 CD67 0 A9 0 57 0"

def quotationMark : CharSet := .ofGaps
  "22 0 4 0 83 0 F 0 1F5C 7 19 1 E07 0 1C9 3 D 2 CE21 3 BD 0 4 0 5A 1"

def sentenceTerminal : CharSet := .ofGaps (
  "21 0 C 0 10 0 549 0 93 2 B4 0 2B 2 F6 0 3D 0 1 0 3 1 125 1 6E4 1 316 0 4 1 305 0 C6 1 9D 1 " ++
  "2D 0 5 0 13A 1 162 3 A2 1 A 1 2 1 1D 2 BB 1 41 1 3A4 0 17 1 9 2 CAF 2 132 0 D 0 16 1 1AD 0 " ++
  "74FC 0 10E 1 E3 0 3 0 17E 1 56 1 5F 0 98 1 93 2 90 1 F9 0 5226 0 2 1 3B 0 3 1 A9 0 C 0 10 " ++
  "0 41 0 AF4 1 4FD 4 2C 3 BD 1 75 3 7F 2 81 1 6 0 10 1 58 1 1 1 6C 0 12A 1 75 1 175 1 5 E 69 " ++
  "1 F9 2 205 0 1 0 FB 1 57 1 1A4 1 2B4 1 4A 1 4B29 1 85 0 41 1 B 0 229 1 128 0 4E06 0 1DE8 0")

/-- The ends of sentences and of their parts. -/
def terminalPunctuation : CharSet := sentenceTerminal.union <| .ofGaps (
  "2C 0 D 1 342 0 8 0 23B 0 48 0 E 0 E7 7 1 0 EB 0 37 5 2 0 1 2 21 0 5FB 1 AC 0 4 5 44E 0 1 3 " ++
  "384 2 E8 0 3 0 27 0 1 1 2 0 354 0 DF 2 1201 0 A 0 1 1 1B1 0 74FC 0 10E 0 E6 2 2D0 0 117 0 " ++
  "5370 1 2 1 B6 0 D 1 48 0 43A 0 30 0 486 0 C7 0 1D0 5 44 5 59 3 4AC 4 1EC 0 212 0 C 1 168 1 " ++
  "4DB 1 1A0 0 2D 0 7FE 4 46C4 0 35D 0 6BEF 0 1 1")

def otherMath : CharSet := .ofGaps (
  "5E 0 371 2 2 0 1A 1 2 1 1C20 0 1B 2 B 0 20 3 18 1 E 1 41 C 4 0 3 1 4 4 12 0 4 0 2 9 1 0 3 " ++
  "4 6 0 3 1 2 1 1 2 1 5 3 3 5 4 4B 4 2 3 1 1 1 1 1 0 1 4 2 1 4 1 4 11 2 1 1 0 1 6 1 0 6 1 " ++
  "122 3 A8 1 1 0 18 0 11 0 1BD 1 C 8 5 4 5 1 2 1 3 4 E 0 1 0 2 5 18 1 39 0 1 0 1D 3 9 1 156 " ++
  "1 1F 9 193 15 3F 3 20 1 D463 0 1 0 4 0 D3 0 1 0 D4C1 54 1 46 1 1 2 0 2 1 2 3 1 B 1 0 1 6 1 " ++
  "40 1 3 2 7 1 6 1 1B 1 3 1 4 1 0 3 6 1 153 2 18 1 18 1 1E 1 18 1 1E 1 18 1 1E 1 18 1 1E 1 " ++
  "18 1 7 2 31 1600 3 1 1A 1 1 1 0 2 0 1 9 1 3 1 0 1 0 6 0 4 0 1 0 1 0 1 2 1 1 1 0 2 0 1 0 1 " ++
  "0 1 0 1 0 1 1 1 0 2 3 1 6 1 3 1 3 1 0 1 9 1 10 5 2 1 4 1 10")

def math : CharSet := mathSymbol.union otherMath

end Formula.Unicode.Property
