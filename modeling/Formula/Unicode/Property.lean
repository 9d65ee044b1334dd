import Formula.Unicode.Category

/-! Properties that a character has or has not: letters, white space and what words are made of. -/

namespace Formula.Unicode.Property

open Category

/-- Characters that count as small letters without being in that category. -/
def otherLowercase : CharSet := .ofGaps (
  "AA 0 F 0 1F5 8 7 1 1E 4 60 0 34 0 D81 0 C2F 3E D 0 22 24 2B1 0 D 0 10 C D3 F 350 19 792 1 " ++
  "7A1E 1 D2 0 81 2 3 1 362 3 9 0 5C16 0 2 2 1 29 1 8 D875 3D")

def lowercase : CharSet := lowercaseLetter.union otherLowercase

def otherUppercase : CharSet := .ofGaps
  "2160 F 346 19 1CC60 19 6 19 6 19"

def uppercase : CharSet := uppercaseLetter.union otherUppercase

def cased : CharSet := .unions [lowercase, uppercase, titlecaseLetter]

/-- Vowel signs, circled letters and other characters that are part of words. -/
def otherAlphabetic : CharSet := .ofGaps (
  "345 0 1D C 240 D 1 0 1 1 1 1 1 0 48 A 30 C 1 6 10 0 65 6 4 3 2 1 4 0 23 0 1E F 66 A 65 1 3 " ++
  "8 1 2 1 3 6A 0 3C B 3 6 6 13 36 1 2 E 1 1 5 2 A 1 1D 2 3A 6 2 1 2 1 A 0 A 1 1D 2 3A 4 4 1 " ++
  "2 1 4 0 1E 1 3 0 B 2 3A 7 1 2 1 1 15 1 16 2 4 2 3A 6 2 1 2 1 9 1 A 1 1E 0 3B 4 3 2 1 2 A 0 " ++
  "28 4 39 6 1 2 1 2 8 1 B 1 1D 2 3A 6 1 2 1 2 8 1 B 1 F 0 C 3 3A 6 1 2 1 2 A 0 A 1 1D 2 4B 5 " ++
  "1 0 1 7 12 1 3D 0 2 6 12 0 63 0 2 5 1 1 10 0 A3 12 9 A 1 23 6E B 1 0 2 3 17 3 4 2 1 2 2 6 " ++
  "3 3 D B 1 0 A 3 674 1 1E 1 1E 1 1E 1 42 12 BC 1 22 0 76 B 4 8 DE 4 39 9 2 13 4A 1 B 2 31 4 " ++
  "30 E 3C 2 1E 8 2 1 39 A 32 12 19C 21 6C1 33 8F6 1F 7874 7 22 1 162 0 8 0 17 4 58 1 32 F 1 " ++
  "0 39 0 26 4 1C B 2D 3 30 B 25 0 43 D C 0 8 1 2D 2 32 0 1 2 2 1 5 0 2C 4 5 0 ED 7 4F33 0 " ++
  "857 4 686 2 1 1 5 3 314 3 41 0 141 1 4F 0 103 2 35 D 2D 1 B 2 2D 8 9 0 3D 2 24 B 12 1 39 2 " ++
  "30 C E 1 5C 8 2 0 6 0 2 0 9D 9 17 3 3A 6 2 1 2 1 A 0 A 1 54 8 1 0 2 0 1 3 1 1 67 C 1 2 6A " ++
  "11 ED 6 2 6 1D 1 52 E 1 0 6A A 67 D 101 C F7 5 1 1 2 1 3 0 1 0 8E 6 2 5 4 0 1C 9 2A 4 1 3 " ++
  "12 A 2E D 197 7 1 6 53 15 1 D 7A 5 3 0 1 1 1 2 1 0 3 0 42 4 1 1 1 3 15C 3 9 1 1 0 30 6 3 2 " ++
  "41DD 10 E20 0 1 36 7 3 5D 1 4CAC 0 2361 6 1 10 2 6 1 1 1 4 64 0 8B7 0 7E8 19 6 19 6 19")

def alphabetic : CharSet :=
  .unions [cased, modifierLetter, otherLetter, letterNumber, otherAlphabetic]

/-- Characters that a search for the neighbouring letter passes over. -/
def caseIgnorable : CharSet :=
  .unions [nonspacingMark, enclosingMark, format, modifierLetter, modifierSymbol, .ofGaps
    "27 0 6 0 B 0 7C 0 2CF 0 1D7 0 94 0 1A23 1 A 0 2 0 DDEB 0 3E 0 2 0 B1 0 6 0 B 0"]

def whiteSpace : CharSet :=
  .ofRanges [(0x9, 0xD), (0x20, 0x20), (0x85, 0x85), (0xA0, 0xA0), (0x1680, 0x1680),
    (0x2000, 0x200A), (0x2028, 0x2029), (0x202F, 0x202F), (0x205F, 0x205F), (0x3000, 0x3000)]

def joinControl : CharSet := .range 0x200C 0x200D

/-- What words are made of: letters, marks, digits, connectors and joiners. -/
def word : CharSet :=
  .unions [alphabetic, mark, decimalNumber, connectorPunctuation, joinControl]

end Formula.Unicode.Property
