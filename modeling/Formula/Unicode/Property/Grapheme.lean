import Formula.Unicode.Category

/-! Properties of marks, and of what marks are put on. -/

namespace Formula.Unicode.Property

open Category

def otherGraphemeExtend : CharSet := .ofGaps (
  "9BE 0 18 0 166 0 18 0 66 0 18 0 E8 0 1 0 4 1 1 1 9 1 67 0 18 0 77 0 F 0 935 0 1E 0 400 0 5 " ++
  "0 1 0 5 1 65 0 47 1 418 0 1021 1 7923 0 6C 0 55DD 1 1220 0 74 0 108 0 E 0 9 0 60 0 9 0 2 0 " ++
  "1 2 5 0 E0 0 C 0 F1 0 106 0 279 0 C 0 603 0 50AE 1 6173 1 6 5 C2EAD 5F")

/-- What is shown together with the character before it. -/
def graphemeExtend : CharSet := .unions [enclosingMark, nonspacingMark, otherGraphemeExtend]

/-- What is shown and takes room on the line. -/
def graphemeBase : CharSet :=
  (CharSet.unions [other, lineSeparator, paragraphSeparator, graphemeExtend]).complement

/-- Marks that join two consonants, or take the vowel from one. -/
def graphemeLink : CharSet := .ofGaps (
  "94D 0 7F 0 7F 0 7F 0 7F 0 7F 0 7F 0 7F 0 6D 1 10 0 7C 0 6F 0 7F 0 C9 0 B4 1 6D9 1 1E 0 9D " ++
  "0 28D 0 E3 0 65 1 46 1 118B 0 7A86 0 25 0 97 0 8E 0 6C 0 135 0 F6 0 5E51 0 606 0 29 0 E 0 " ++
  "39 0 79 1 8B 0 74 0 B4 0 62 0 80 2 71 0 7F 0 FC 0 7F 0 76 0 74 0 10D 0 103 1 A1 0 53 0 12 " ++
  "0 51 0 1A5 0 104 1 51 0 1A9 1 41EC 0")

def modifierCombiningMark : CharSet := .ofGaps
  "654 1 2 0 83 0 6 0 3 1 1E1 1 1 2 3 0 1F 0"

/-- Vowels that are written before the consonant they are spoken after. -/
def logicalOrderException : CharSet := .ofGaps
  "E40 4 7B 4 AF0 2 2 0 90FA 1 2 0 1 1"

/-- Letters whose dot gives way to a mark above. -/
def softDotted : CharSet := .ofGaps (
  "69 1 C4 0 119 0 1E 0 34 0 14 0 140 0 62 0 1 0 1909 0 33 0 D 0 3 0 84 0 9D 0 1A5 0 D6 1 B32 " ++
  "0 1A7A5 1 32 1 32 1 32 1 32 1 32 1 32 1 32 1 32 1 32 1 32 1 32 1 32 1 886 0 131 1 1A 0")

def diacritic : CharSet := .ofGaps (
  "5E 0 1 0 47 0 6 0 4 0 2 1 1F7 9E 1 7 5 5 11 1 4 0 9 1 FD 4 D1 0 37 2C 1 0 1 1 1 1 1 0 83 7 " ++
  "4 1 86 1 4 1 3 2 43 1A 5B A 3A A 22 1 7E 7 29 9 10 1B 3D 0 10 0 3 3 1C 0 4A 0 10 0 6E 0 10 " ++
  "0 6E 0 10 0 2F 2 3C 0 10 0 7 0 77 0 6E 0 10 0 6E 0 10 0 6D 1 10 0 7C 0 6F 0 C 5 1 0 6B 0 D " ++
  "4 4B 1 1B 0 1 0 1 0 4 1 42 2 1 1 3E 0 70 0 1 1 28 1 4 4 19 6 1 0 A 1 2C1 2 3B4 1 1E 0 94 A " ++
  "9 0 15B 2 124 0 14 7 2 0 30 E 2 A 68 0 F 0 26 8 36 1 3A 0 B 1 42 1 40 5 52 18 4 0 6 0 2 2 " ++
  "32 3E 30 23 5 B 25 A 1BD 0 1 2 B 2 D 2 D 2 D 1 CF0 2 13D 0 1FA 5 69 3 5F 0 7572 0 C 1 1 0 " ++
  "1C 1 52 1 E 21 66 2 6D 1 C 0 25 0 97 0 1B 11 39 3 24 0 5F 0 C 0 24 0 95 2 41 3 33 0 64 4 9 " ++
  "2 80 1 4F30 0 301 F 10E 0 1 0 2F 0 2D 1 43 0 2FC 0 49F 5 1 29 1 8 27D 2 4 0 A5 1 23B 5 26 " ++
  "0 1A 4 18F 2 46 A 31 3 C0 0 29 0 48 1 78 1 3E 0 4C 0 9 2 68 1 B2 1 50 1 10 0 18 6 3 4 59 2 " ++
  "1 1 D 1 5F 0 3 0 7B 1 FB 1 7E 0 76 1 73 0 10D 1 102 1 4 0 9C 0 53 0 12 0 51 0 1A5 0 102 0 " ++
  "1 1 51 0 1A9 1 17 0 14EC E 2CD9 0 9C0 4 3B 6 234 1 222 10 50 1 3FFE 3 1 6 1 1 1F01 2D 2 16 " ++
  "220 2 3 5 8 7 2 6 1E 3 E82 3D C2 6 177 0 3D 3 2FE 1 2E0 6 6D 2 1 2")

/-- Characters that lengthen or repeat what is before them. -/
def extender : CharSet := .ofGaps (
  "B7 0 218 1 36E 0 1B9 0 276 0 89 0 59 0 2F0 0 7F 0 943 0 38 0 263 0 18E 0 44 0 1389 0 2B 4 " ++
  "67 1 5D 2 6F16 0 5F6 0 3C2 0 16 0 89 0 6C 0 15 1 547B 0 810 1 5CB 0 1B 0 4 0 4C7 0 125 0 " ++
  "74 1 1F2 2 4CF 0 50A9 1 49C 1 1 0 7158 1 4B1 0 354 2")

end Formula.Unicode.Property
