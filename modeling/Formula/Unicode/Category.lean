import Formula.Unicode.CharSet

/-! The general categories of characters, as the Unicode standard assigns them. -/

namespace Formula.Unicode.Category

def uppercaseLetter : CharSet := .ofGaps (
  "41 19 65 16 1 6 21 0 1 0 1 0 1 0 1 0 1 0 1 0 1 0 1 0 1 0 1 0 1 0 1 0 1 0 1 0 1 0 1 0 1 0 1 " ++
  "0 1 0 1 0 1 0 1 0 1 0 1 0 1 0 1 0 1 0 2 0 1 0 1 0 1 0 1 0 1 0 1 0 1 0 2 0 1 0 1 0 1 0 1 0 " ++
  "1 0 1 0 1 0 1 0 1 0 1 0 1 0 1 0 1 0 1 0 1 0 1 0 1 0 1 0 1 0 1 0 1 0 1 0 1 1 1 0 1 0 3 1 1 " ++
  "0 1 1 1 2 2 3 1 1 1 2 3 1 1 1 1 0 1 0 1 1 1 0 2 0 1 1 1 2 1 0 1 1 3 0 7 0 2 0 2 0 2 0 1 0 " ++
  "1 0 1 0 1 0 1 0 1 0 1 0 2 0 1 0 1 0 1 0 1 0 1 0 1 0 1 0 1 0 2 0 2 0 1 2 1 0 1 0 1 0 1 0 1 " ++
  "0 1 0 1 0 1 0 1 0 1 0 1 0 1 0 1 0 1 0 1 0 1 0 1 0 1 0 1 0 1 0 1 0 1 0 1 0 1 0 1 0 1 0 1 0 " ++
  "1 0 1 0 7 1 1 1 2 0 1 3 1 0 1 0 1 0 1 0 121 0 1 0 3 0 8 0 6 0 1 2 1 0 1 1 1 10 1 8 23 0 2 " ++
  "2 3 0 1 0 1 0 1 0 1 0 1 0 1 0 1 0 1 0 1 0 1 0 1 0 5 0 2 0 1 1 2 32 30 0 1 0 1 0 1 0 1 0 1 " ++
  "0 1 0 1 0 1 0 1 0 1 0 1 0 1 0 1 0 1 0 1 0 1 0 9 0 1 0 1 0 1 0 1 0 1 0 1 0 1 0 1 0 1 0 1 0 " ++
  "1 0 1 0 1 0 1 0 1 0 1 0 1 0 1 0 1 0 1 0 1 0 1 0 1 0 1 0 1 0 1 0 1 1 1 0 1 0 1 0 1 0 1 0 1 " ++
  "0 2 0 1 0 1 0 1 0 1 0 1 0 1 0 1 0 1 0 1 0 1 0 1 0 1 0 1 0 1 0 1 0 1 0 1 0 1 0 1 0 1 0 1 0 " ++
  "1 0 1 0 1 0 1 0 1 0 1 0 1 0 1 0 1 0 1 0 1 0 1 0 1 0 1 0 1 0 1 0 1 0 1 0 1 0 1 0 1 0 1 0 1 " ++
  "0 1 0 1 0 1 0 2 25 B49 25 1 0 5 0 2D2 55 893 0 6 2A 2 2 140 0 1 0 1 0 1 0 1 0 1 0 1 0 1 0 " ++
  "1 0 1 0 1 0 1 0 1 0 1 0 1 0 1 0 1 0 1 0 1 0 1 0 1 0 1 0 1 0 1 0 1 0 1 0 1 0 1 0 1 0 1 0 1 " ++
  "0 1 0 1 0 1 0 1 0 1 0 1 0 1 0 1 0 1 0 1 0 1 0 1 0 1 0 1 0 1 0 1 0 1 0 1 0 1 0 1 0 1 0 1 0 " ++
  "1 0 1 0 1 0 1 0 1 0 1 0 1 0 1 0 1 0 1 0 1 0 1 0 1 0 1 0 1 0 1 0 1 0 1 0 1 0 1 0 1 0 1 0 9 " ++
  "0 1 0 1 0 1 0 1 0 1 0 1 0 1 0 1 0 1 0 1 0 1 0 1 0 1 0 1 0 1 0 1 0 1 0 1 0 1 0 1 0 1 0 1 0 " ++
  "1 0 1 0 1 0 1 0 1 0 1 0 1 0 1 0 1 0 1 0 1 0 1 0 1 0 1 0 1 0 1 0 1 0 1 0 1 0 1 0 1 0 1 0 1 " ++
  "0 1 0 1 0 1 0 9 7 8 5 A 7 8 7 8 5 B 0 1 0 1 0 1 0 8 7 48 3 C 3 C 3 C 4 B 3 106 0 4 0 3 2 2 " ++
  "2 2 0 3 4 6 0 1 0 1 0 1 3 2 3 A 1 5 0 3D 0 A7C 2F 30 0 1 2 2 0 1 0 1 0 1 3 1 0 2 0 8 2 1 0 " ++
  "1 0 1 0 1 0 1 0 1 0 1 0 1 0 1 0 1 0 1 0 1 0 1 0 1 0 1 0 1 0 1 0 1 0 1 0 1 0 1 0 1 0 1 0 1 " ++
  "0 1 0 1 0 1 0 1 0 1 0 1 0 1 0 1 0 1 0 1 0 1 0 1 0 1 0 1 0 1 0 1 0 1 0 1 0 1 0 1 0 1 0 1 0 " ++
  "1 0 1 0 1 0 8 0 1 0 4 0 794D 0 1 0 1 0 1 0 1 0 1 0 1 0 1 0 1 0 1 0 1 0 1 0 1 0 1 0 1 0 1 0 " ++
  "1 0 1 0 1 0 1 0 1 0 1 0 1 0 13 0 1 0 1 0 1 0 1 0 1 0 1 0 1 0 1 0 1 0 1 0 1 0 1 0 1 0 87 0 " ++
  "1 0 1 0 1 0 1 0 1 0 1 0 3 0 1 0 1 0 1 0 1 0 1 0 1 0 1 0 1 0 1 0 1 0 1 0 1 0 1 0 1 0 1 0 1 " ++
  "0 1 0 1 0 1 0 1 0 1 0 1 0 1 0 1 0 1 0 1 0 1 0 1 0 1 0 1 0 A 0 1 0 1 1 1 0 1 0 1 0 1 0 4 0 " ++
  "1 0 2 0 1 0 3 0 1 0 1 0 1 0 1 0 1 0 1 0 1 0 1 0 1 0 1 4 1 4 1 0 1 0 1 0 1 0 1 0 1 0 1 0 1 " ++
  "3 1 0 1 1 3 0 5 0 1 0 1 0 1 0 18 0 572B 19 4C5 27 88 23 9C A 1 E 1 6 1 1 6EA 32 9D 15 B3A " ++
  "1F 5580 1F 65A0 19 1A 19 1A 19 1A 0 1 1 2 0 2 1 2 3 1 7 1A 19 1A 1 1 3 2 7 1 6 1B 1 1 3 1 " ++
  "4 1 0 3 6 1B 19 1A 19 1A 19 1A 19 1A 19 1A 19 1E 18 21 18 21 18 21 18 21 18 21 0 1135 21")

def lowercaseLetter : CharSet := .ofGaps (
  "61 19 3A 0 29 17 1 7 1 0 1 0 1 0 1 0 1 0 1 0 1 0 1 0 1 0 1 0 1 0 1 0 1 0 1 0 1 0 1 0 1 0 1 " ++
  "0 1 0 1 0 1 0 1 0 1 0 1 0 1 0 1 0 1 0 1 1 1 0 1 0 1 0 1 0 1 0 1 0 1 0 1 1 1 0 1 0 1 0 1 0 " ++
  "1 0 1 0 1 0 1 0 1 0 1 0 1 0 1 0 1 0 1 0 1 0 1 0 1 0 1 0 1 0 1 0 1 0 1 0 1 0 2 0 1 0 1 2 2 " ++
  "0 1 0 2 0 3 1 4 0 2 0 3 2 2 0 2 0 1 0 1 0 2 0 1 1 1 0 2 0 3 0 1 0 2 1 2 2 6 0 2 0 2 0 1 0 " ++
  "1 0 1 0 1 0 1 0 1 0 1 0 1 1 1 0 1 0 1 0 1 0 1 0 1 0 1 0 1 0 1 1 2 0 1 0 3 0 1 0 1 0 1 0 1 " ++
  "0 1 0 1 0 1 0 1 0 1 0 1 0 1 0 1 0 1 0 1 0 1 0 1 0 1 0 1 0 1 0 1 0 1 0 1 0 1 0 1 0 1 0 1 0 " ++
  "1 0 1 0 1 6 2 0 2 1 1 0 4 0 1 0 1 0 1 0 1 44 1 1A C1 0 1 0 3 0 3 2 12 0 1B 22 1 1 3 2 1 0 " ++
  "1 0 1 0 1 0 1 0 1 0 1 0 1 0 1 0 1 0 1 0 1 4 1 0 2 0 2 1 33 2F 1 0 1 0 1 0 1 0 1 0 1 0 1 0 " ++
  "1 0 1 0 1 0 1 0 1 0 1 0 1 0 1 0 1 0 1 0 9 0 1 0 1 0 1 0 1 0 1 0 1 0 1 0 1 0 1 0 1 0 1 0 1 " ++
  "0 1 0 1 0 1 0 1 0 1 0 1 0 1 0 1 0 1 0 1 0 1 0 1 0 1 0 1 0 2 0 1 0 1 0 1 0 1 0 1 0 1 1 1 0 " ++
  "1 0 1 0 1 0 1 0 1 0 1 0 1 0 1 0 1 0 1 0 1 0 1 0 1 0 1 0 1 0 1 0 1 0 1 0 1 0 1 0 1 0 1 0 1 " ++
  "0 1 0 1 0 1 0 1 0 1 0 1 0 1 0 1 0 1 0 1 0 1 0 1 0 1 0 1 0 1 0 1 0 1 0 1 0 1 0 1 0 1 0 1 0 " ++
  "1 0 1 0 30 28 B47 2A 2 2 2F8 5 882 8 1 0 75 2B 3F C 1 21 66 0 1 0 1 0 1 0 1 0 1 0 1 0 1 0 " ++
  "1 0 1 0 1 0 1 0 1 0 1 0 1 0 1 0 1 0 1 0 1 0 1 0 1 0 1 0 1 0 1 0 1 0 1 0 1 0 1 0 1 0 1 0 1 " ++
  "0 1 0 1 0 1 0 1 0 1 0 1 0 1 0 1 0 1 0 1 0 1 0 1 0 1 0 1 0 1 0 1 0 1 0 1 0 1 0 1 0 1 0 1 0 " ++
  "1 0 1 0 1 0 1 0 1 0 1 0 1 0 1 0 1 0 1 0 1 0 1 0 1 0 1 0 1 0 1 0 1 0 1 0 1 0 1 0 1 0 1 8 1 " ++
  "0 1 0 1 0 1 0 1 0 1 0 1 0 1 0 1 0 1 0 1 0 1 0 1 0 1 0 1 0 1 0 1 0 1 0 1 0 1 0 1 0 1 0 1 0 " ++
  "1 0 1 0 1 0 1 0 1 0 1 0 1 0 1 0 1 0 1 0 1 0 1 0 1 0 1 0 1 0 1 0 1 0 1 0 1 0 1 0 1 0 1 0 1 " ++
  "0 1 0 1 0 1 8 8 5 A 7 8 7 8 5 A 7 8 7 8 D 2 7 8 7 8 7 8 4 1 1 6 0 3 2 1 1 8 3 2 1 8 7 A 2 " ++
  "1 1 112 0 3 1 3 0 1B 0 4 0 4 0 2 1 8 3 4 0 35 0 AAB 2F 1 0 3 1 1 0 1 0 1 0 4 0 1 1 1 5 5 0 " ++
  "1 0 1 0 1 0 1 0 1 0 1 0 1 0 1 0 1 0 1 0 1 0 1 0 1 0 1 0 1 0 1 0 1 0 1 0 1 0 1 0 1 0 1 0 1 " ++
  "0 1 0 1 0 1 0 1 0 1 0 1 0 1 0 1 0 1 0 1 0 1 0 1 0 1 0 1 0 1 0 1 0 1 0 1 0 1 0 1 0 1 0 1 0 " ++
  "1 0 1 0 1 0 1 1 7 0 1 0 4 0 C 25 1 0 5 0 7913 0 1 0 1 0 1 0 1 0 1 0 1 0 1 0 1 0 1 0 1 0 1 " ++
  "0 1 0 1 0 1 0 1 0 1 0 1 0 1 0 1 0 1 0 1 0 1 0 13 0 1 0 1 0 1 0 1 0 1 0 1 0 1 0 1 0 1 0 1 0 " ++
  "1 0 1 0 1 0 87 0 1 0 1 0 1 0 1 0 1 0 1 2 1 0 1 0 1 0 1 0 1 0 1 0 1 0 1 0 1 0 1 0 1 0 1 0 1 " ++
  "0 1 0 1 0 1 0 1 0 1 0 1 0 1 0 1 0 1 0 1 0 1 0 1 0 1 0 1 0 1 0 1 0 1 0 1 0 1 7 1 0 1 0 2 0 " ++
  "1 0 1 0 1 0 1 0 4 0 1 0 2 0 1 2 1 0 1 0 1 0 1 0 1 0 1 0 1 0 1 0 1 0 1 0 5 0 5 0 1 0 1 0 1 " ++
  "0 1 0 1 0 1 0 1 0 4 0 1 0 2 0 3 0 1 0 1 0 1 0 1 0 1 0 1A 0 3 0 335 2A 5 8 7 4F 4F40 6 C 4 " ++
  "429 19 4CD 27 88 23 9B A 1 E 1 6 1 1 703 32 7D 15 B3A 1F 5580 1F 659A 19 1A 6 1 11 1A 19 " ++
  "1A 3 1 0 1 6 1 A 1A 19 1A 19 1A 19 1A 19 1A 19 1A 19 1A 19 1A 19 1A 1B 1C 18 1 5 1A 18 1 5 " ++
  "1A 18 1 5 1A 18 1 5 1A 18 1 5 1 0 734 9 1 13 6 5 9F7 21")

def titlecaseLetter : CharSet := .ofGaps
  "1C5 0 2 0 2 0 26 0 1D95 7 8 7 8 7 C 0 F 0 2F 0"

def modifierLetter : CharSet := .ofGaps (
  "2B0 11 4 B E 4 7 0 1 0 85 0 5 0 1DE 0 E6 0 A4 1 10D 1 4 0 1F 0 9 0 3 0 A0 0 A7 0 4D4 0 7F " ++
  "0 235 0 6DA 0 6B 0 263 0 1D0 5 AE 3E D 0 22 24 2B1 0 D 0 10 C BDF 1 F1 0 BF 0 1D5 0 2B 4 5 " ++
  "0 61 1 5D 2 6F16 0 4E2 5 10E 0 72 0 1C 1 79 8 50 0 17 0 69 2 3 1 1D5 0 16 0 89 0 6C 0 15 1 " ++
  "67 3 9 0 5406 0 2D 1 7E0 5 1 29 1 8 593 0 20 0 5DD0 3 1FC 2 28 1 226 C 40 1 1 0 400C 3 1 6 " ++
  "1 1 3031 3D C9 6 3AD 0 45F 0")

def otherLetter : CharSet := .ofGaps (
  "AA 0 F 0 100 0 4 3 D0 0 33B 1A 4 3 2D 1F 1 9 23 1 1 62 1 0 18 1 A 2 2 0 10 0 1 1D 1D 58 B " ++
  "0 18 20 15 15 2A 18 7 A 5 17 1 5 11 28 3B 35 3 0 12 0 7 9 10 E 4 7 2 1 2 15 1 6 1 0 3 3 3 " ++
  "0 10 0 D 1 1 2 E 1 A 0 8 5 4 1 2 15 1 6 1 1 1 1 1 1 1F 3 1 0 13 2 10 8 1 2 1 15 1 6 1 1 1 " ++
  "4 3 0 12 0 F 1 17 0 B 7 2 1 2 15 1 6 1 1 1 4 3 0 1E 1 1 2 F 0 11 0 1 5 3 2 1 3 3 1 1 0 1 1 " ++
  "3 1 3 2 3 B 16 0 34 7 1 2 1 16 1 F 3 0 1A 2 2 0 2 1 1E 0 4 7 1 2 1 16 1 9 1 4 3 0 1F 1 1 1 " ++
  "F 1 11 8 1 2 1 28 2 0 10 0 5 2 8 2 18 5 5 11 3 17 1 8 1 0 2 6 3A 2F 1 1 C 5 3B 1 1 0 1 4 1 " ++
  "17 1 0 1 9 1 1 9 0 2 4 17 3 20 0 3F 7 1 23 1B 4 73 2A 14 0 10 5 4 3 3 0 3 1 7 2 4 C C 0 71 " ++
  "148 1 3 2 6 1 0 1 3 2 28 1 3 2 20 1 3 2 6 1 0 1 3 2 E 1 38 1 3 2 42 25 F 71 26B 2 10 1 19 " ++
  "5 4A 6 7 7 11 D 12 E 11 E C 1 2 F 33 28 0 43 22 1 34 7 4 2 21 1 0 5 45 A 1E 31 1D 2 4 B 2B " ++
  "4 19 36 16 9 34 B0 2E 11 7 36 1D D 1 A 2B 1A 23 29 2 A 1D 71 3 1 5 1 1 3 0 43A 3 BF7 37 18 " ++
  "16 9 6 1 6 1 6 1 6 1 6 1 6 1 6 1 6 227 0 35 0 4 55 8 0 1 59 4 0 5 2A 1 5D 11 1F 30 F 200 " ++
  "19BF 40 5214 1 476 43 27 8 10B 4 F A 1 42 0 31 45 A9 0 67 0 3 6 1 2 1 3 1 16 1D 33 E 31 3E " ++
  "5 3 0 1 1 B 1B A 16 19 1C 7 2E 2D 4 2 8 A 4 1 28 17 2 1 7 14 F 1 5 3 0 3 31 1 0 3 1 2 4 2 " ++
  "0 1 0 18 1 3 A 7 0 E 5 2 5 2 5 9 6 1 6 91 22 1D 2BA3 C 16 4 30 2104 16D 2 69 43 0 1 9 1 C " ++
  "1 4 1 0 1 1 1 1 1 6B 21 16A 12 3F 2 35 28 B 74 4 1 86 69 9 1 2C 2 1E 3 5 2 5 2 5 2 2 23 B " ++
  "1 19 1 12 1 1 1 E 2 D 22 7A 185 1C 3 30 2F 1F D 13 1 7 6 25 A 1D 2 23 4 7 80 4D 62 27 8 33 " ++
  "5C 33 C 136 9 15 A 7 98 5 2 0 1 2B 1 1 3 0 2 16 A 16 9 1E 41 12 1 1 A 15 A 19 46 37 6 1 40 " ++
  "0 F 3 1 2 1 1C 2A 1C 3 1C 23 7 1 1B 1B 35 A 15 A 12 D 11 6E 48 B7 23 26 3 1 0 130 29 6 1 " ++
  "10 2 3B 1C A 0 8 15 2A 11 2E 14 1B 16 C 34 39 1 2 0 D 2C 20 18 1A 23 1D 0 2 0 8 22 3 0 C " ++
  "2F E 3 15 0 1 0 23 11 1 18 13 1 3F 6 1 0 1 3 1 E 1 9 7 2E 26 7 2 1 2 15 1 6 1 1 1 4 3 0 12 " ++
  "0 C 4 1E 9 1 0 2 0 1 25 1 0 19 0 1 0 2C 34 12 3 14 2 1E 2F 14 1 1 0 B8 2E 29 3 24 2F 14 0 " ++
  "3B 2A D 0 47 1A 25 6 B9 2B D3 7 2 0 2 7 1 1 1 17 F 0 1 0 5E 7 2 26 10 0 1 0 1C 0 A 27 7 0 " ++
  "15 0 B 2D 13 0 12 48 C7 20 1F 8 1 24 11 0 31 1D 70 6 1 1 1 25 15 0 19 5 1 1 1 1F E 0 147 " ++
  "12 F 0 1 C 1 21 7C 0 4F 399 E6 C3 A4C 60 F 42F 11 5 19 F9A 5 246 1AB9 1D 6E2 238 7 1E 11 " ++
  "4E 11 1D 12 2F 33 14 5 12 1B3 27 195 4A 5 0 AF 17F7 8 4D5 29 9 22F7 122 F 0 1D 2 2 0 E 3 8 " ++
  "18B 904 6A 5 C 3 8 7 9 2270 0 1F5 2C 21 0 141 1D 12 2B 1E4 1A E5 1D 2 0 1EF 6 1 3 1 1 1 E " ++
  "1 C4 53B 3 1 1A 1 1 1 0 2 0 1 9 1 3 1 0 1 0 6 0 4 0 1 0 1 0 1 2 1 1 1 0 2 0 1 0 1 0 1 0 1 " ++
  "0 1 1 1 0 2 3 1 6 1 3 1 3 1 0 1 9 1 10 5 2 1 4 1 10 1144 A6DF 20 1039 6 DD 2 1681 E 1D30 F " ++
  "26D 9A2 21D 5E2 134A 5 105F")

def nonspacingMark : CharSet := .ofGaps (
  "300 6F 113 4 109 2C 1 0 1 1 1 1 1 0 48 A 30 14 10 0 65 6 2 5 2 1 1 3 23 0 1E 1A 5B A 3A 8 " ++
  "9 0 18 3 1 8 1 2 1 4 2B 2 3B 8 2A 17 1 1F 37 0 1 0 4 7 4 0 3 6 A 1 1D 0 3A 0 4 3 8 0 14 1 " ++
  "1A 0 2 1 39 0 4 1 4 1 2 2 3 0 1E 1 3 0 B 1 39 0 4 4 1 1 4 0 14 1 16 5 1 0 3A 0 2 0 1 3 8 0 " ++
  "7 1 B 1 1E 0 3D 0 C 0 32 0 3 0 37 0 1 2 5 2 1 3 7 1 B 1 1D 0 3A 0 2 0 6 0 5 1 14 1 1C 1 39 " ++
  "1 4 3 8 0 14 1 1D 0 48 0 7 2 1 0 5A 0 2 6 C 7 62 0 2 8 B 6 49 1 1B 0 1 0 1 0 37 D 1 4 1 1 " ++
  "5 A 1 23 9 0 66 3 1 5 1 1 2 1 19 1 4 2 10 3 D 0 2 1 6 0 F 0 2BF 2 3B2 2 1D 1 1E 1 1E 1 40 " ++
  "1 1 6 8 0 2 A 9 0 2D 2 1 0 75 1 22 0 76 2 4 1 9 0 6 2 DB 1 2 0 3A 0 1 6 1 0 1 0 2 7 6 9 2 " ++
  "0 30 D 1 F 31 3 30 0 1 4 1 0 5 0 28 8 C 1 20 3 2 1 1 2 38 0 1 1 3 0 1 2 3A 7 2 1 98 2 1 C " ++
  "1 6 4 0 6 0 3 1 C6 3F 2D0 C 4 0 3 B BFE 2 8D 0 60 1F 22A 3 6B 1 75D4 0 4 9 20 1 50 1 110 0 " ++
  "3 0 4 0 19 1 5 0 97 1 1A 11 D 0 26 7 19 A 2E 2 30 0 2 3 2 1 27 0 43 5 2 1 2 1 C 0 8 0 2F 0 " ++
  "33 0 1 2 2 1 5 1 1 0 2A 1 8 0 EE 0 2 0 4 0 4F30 0 2E1 F 10 F 3CD 0 E2 0 95 4 686 2 1 1 5 3 " ++
  "28 2 4 0 A5 1 23D 3 41 4 13D 1 4F 3 46 A 31 3 7B 0 36 E 29 0 2 1 A 2 31 3 2 1 7 0 3D 2 24 " ++
  "4 1 7 3E 0 C 1 34 8 A 3 2 0 5F 2 2 0 1 1 6 0 2 0 9D 0 3 7 15 1 39 1 3 0 25 6 3 4 46 5 D 0 " ++
  "1 0 1 0 E 1 55 7 2 2 1 0 17 0 54 5 1 0 4 1 1 1 EE 3 6 1 1 1 1B 1 55 7 2 0 1 1 6A 0 1 0 2 5 " ++
  "1 0 65 0 1 0 2 3 1 4 103 8 1 1 100 1 1 0 4 0 90 3 2 1 4 0 20 9 28 5 2 3 8 0 9 5 2 2 2E C 1 " ++
  "1 196 6 1 5 1 0 52 15 2 6 1 1 1 1 7A 5 3 0 1 1 1 6 1 0 48 1 3 0 1 0 15B 1 B 1 34 4 5 0 1 0 " ++
  "17 0 14E5 0 6 E 2CC8 B 3 2 9C0 4 3B 6 418 0 3F 3 51 0 4CB8 1 1261 2D 2 16 220 2 11 7 2 6 " ++
  "1E 3 94 2 7BB 36 4 31 8 0 E 0 16 4 1 E 550 6 1 10 2 6 1 1 1 4 64 0 A0 6 177 0 3D 3 1FC 3 " ++
  "FE 1 2E0 6 6D 6 C17B5 EF")

def spacingMark : CharSet := .ofGaps (
  "903 0 37 0 2 2 8 3 1 1 32 1 3A 2 6 1 2 1 A 0 2B 0 3A 2 42 0 3A 2 8 0 1 1 35 1 3A 0 1 0 6 1 " ++
  "2 1 A 0 66 1 1 1 3 2 1 2 A 0 29 2 3D 3 3D 1 3A 0 1 4 2 1 1 1 9 1 1C 0 E 1 3A 2 5 2 1 2 A 0 " ++
  "2A 1 4B 2 6 7 12 1 14A 1 3F 0 AB 1 4 0 6 0 2 1 19 1 A 2 2 6 15 1 2 5 2 0 A 2 678 0 1E 0 81 " ++
  "0 7 7 1 1 15A 3 2 2 4 1 1 5 E0 1 3A 0 1 0 9 0 1 1 8 5 91 0 30 0 5 0 1 4 1 1 3D 0 1E 0 4 1 " ++
  "2 0 3C 0 2 2 1 0 3 1 30 7 8 1 AB 0 15 0 1336 1 77F3 1 2 0 58 1 32 F 8E 1 2F 0 30 1 4 1 2 2 " ++
  "6E 1 2 1 18 0 2D 0 1 0 6D 0 2 1 5 0 ED 1 1 1 1 1 1 0 6413 0 1 0 7F 0 2D 2 4 1 73 0 18 1 3B " ++
  "0 30 2 9 1 D 0 5D 2 3 1 1 0 AA 2 1F 1 3A 1 1 3 2 1 2 2 9 0 A 1 54 2 7 0 2 0 1 3 1 1 1 0 65 " ++
  "2 8 1 3 0 6A 2 6 0 1 3 2 0 ED 2 6 3 2 0 71 2 8 1 1 0 6D 0 1 1 6 0 67 0 1 1 4 0 105 2 9 0 " ++
  "F7 5 1 1 4 0 2 0 1 0 8E 2 8 3 4 0 54 0 1D 1 3E 0 197 0 E 0 6A 0 7 0 2 0 D5 4 4 1 1 0 15E 1 " ++
  "C 0 30 1 8 1 1 0 41E8 2 E24 36 68 1 6173 1 6 5")

def enclosingMark : CharSet := .ofGaps
  "488 1 1634 0 61E 3 1 2 858B 2"

def decimalNumber : CharSet := .ofGaps (
  "30 9 626 9 86 9 C6 9 19C 9 76 9 76 9 76 9 76 9 76 9 76 9 76 9 76 9 76 9 60 9 76 9 46 9 116 " ++
  "9 46 9 746 9 26 9 12C 9 80 9 A6 9 6 9 B6 9 56 9 86 9 6 9 89C6 9 2A6 9 26 9 C6 9 16 9 56 9 " ++
  "196 9 5316 9 586 9 886 9 6 9 31C 9 80 9 3C 9 90 9 116 9 156 9 76 9 176 9 66 9 6 13 4C 9 " ++
  "1A6 9 66 9 296 9 56 9 F6 9 46 9 1A6 9 41D6 9 926 9 56 9 86 9 216 9 5F76 9 AD4 31 940 9 1A6 " ++
  "9 1F6 9 F7 9 355 9 1296 9")

def letterNumber : CharSet := .ofGaps
  "16EE 2 A6F 22 2 3 E7E 0 19 8 E 2 76AB 9 5A50 34 1CC 0 8 0 86 4 202A 6E"

def otherNumber : CharSet := .ofGaps (
  "B2 1 5 0 2 2 935 5 178 5 78 2 85 6 D9 6 11 8 1B1 9 435 13 473 9 1E0 0 695 0 3 5 6 9 C6 F " ++
  "29 0 2D6 3B 4E 15 276 1D 569 0 494 3 8A 9 1E 7 1 E 20 9 27 E 7570 5 58D1 2C 41 3 11 1 155 " ++
  "1A 24 3 534 7 19 6 27 8 4B 4 16 5 A0 1 2 F 2 2D 40 8 34 1 1E 2 4B 4 68 7 18 7 29 6 14A 5 " ++
  "160 1E 9E 9 2A 3 70 6 86 13 17B 13 545 1 1AE 8 367 12 353 14 4B86 6 31E 16 6429 13 C 13 6C " ++
  "18 154E 8 3A1 3A 1 2 1 3 4C 2C 1 E 3C2 C")

def connectorPunctuation : CharSet := .ofGaps
  "5F 0 1FDF 1 13 0 DDDE 1 18 2 EF 0"

def dashPunctuation : CharSet := .ofGaps (
  "2D 0 55C 0 33 0 E41 0 405 0 809 5 E01 0 2 0 1F 1 4 0 1C 0 1BE 0 13 0 6F 0 CD90 1 25 0 A 0 " ++
  "A9 0 E60 0 13E 0")

def openPunctuation : CharSet := .ofGaps (
  "28 0 32 0 1F 0 EBE 0 1 0 75E 0 97E 0 3 0 26 0 37 0 F 0 27A 0 1 0 1E 0 43E 0 1 0 1 0 1 0 1 " ++
  "0 1 0 1 0 50 0 20 0 1 0 1 0 1 0 1 0 194 0 1 0 1 0 1 0 1 0 1 0 1 0 1 0 1 0 1 0 1 0 40 0 1 0 " ++
  "21 0 425 0 1 0 1 0 1 0 19 0 12 0 1 0 1 0 1 0 1AC 0 1 0 1 0 1 0 1 0 3 0 1 0 1 0 1 0 2 0 " ++
  "CD21 0 D7 0 1D 0 1 0 1 0 1 0 1 0 1 0 1 0 1 0 3 0 11 0 1 0 1 0 AA 0 32 0 1F 0 3 0 2 0")

def closePunctuation : CharSet := .ofGaps (
  "29 0 33 0 1F 0 EBD 0 1 0 75E 0 9A9 0 37 0 F 0 27A 0 1 0 1E 0 43E 0 1 0 1 0 1 0 1 0 1 0 1 0 " ++
  "50 0 20 0 1 0 1 0 1 0 1 0 194 0 1 0 1 0 1 0 1 0 1 0 1 0 1 0 1 0 1 0 1 0 40 0 1 0 21 0 425 " ++
  "0 1 0 1 0 1 0 2C 0 1 0 1 0 1 0 1AC 0 1 0 1 0 1 0 1 0 3 0 1 0 1 0 1 0 2 1 CD1E 0 D9 0 1D 0 " ++
  "1 0 1 0 1 0 1 0 1 0 1 0 1 0 3 0 11 0 1 0 1 0 AA 0 33 0 1F 0 2 0 2 0")

def initialPunctuation : CharSet := .ofGaps
  "AB 0 1F6C 0 2 1 2 0 19 0 DC8 0 1 0 4 0 2 0 F 0 3 0"

def finalPunctuation : CharSet := .ofGaps
  "BB 0 1F5D 0 3 0 1C 0 DC8 0 1 0 4 0 2 0 F 0 3 0"

def otherPunctuation : CharSet := .ofGaps (
  "21 2 1 2 2 0 1 0 1 1 A 1 3 1 1B 0 44 0 5 0 E 1 7 0 2BE 0 8 0 1D2 5 29 0 36 0 2 0 2 0 2C 1 " ++
  "14 1 1 1 D 0 1 2 4A 3 66 0 2B D E9 2 36 E 1F 0 105 1 A 0 8C 0 78 0 79 0 186 0 C 0 16F 0 5A " ++
  "0 A 1 A8 E 1 0 70 0 4A 4 4 1 6F 5 AB 0 264 8 305 0 7C 2 47 1 9D 2 1 2 25 5 1 3 139 1 D8 1 " ++
  "80 6 1 5 A0 1 A 6 1C 2 7C 3 3B 4 3E 1 40 7 B 0 342 1 8 7 8 8 2 3 2 2 3 A 1 0 1 9 C9A 3 1 1 " ++
  "70 0 8F 1 4 2 2 0 2 8 1 1 1 0 2 1 A 4 1 9 2 3 1 0 1 C 2 2 1AC 2 39 0 BD 0 7402 1 10D 2 63 " ++
  "0 A 0 73 5 17C 3 56 1 28 2 1 0 31 1 2F 0 61 C 10 1 7C 3 7E 1 10 1 F9 0 5224 6 2 0 16 0 14 " ++
  "1 2 3 3 2 1 3 7 2 6 0 1 1 95 2 1 2 2 0 1 0 1 1 A 1 3 1 1B 0 24 0 2 1 19A 2 29C 0 30 0 19E " ++
  "0 2E7 0 C7 0 1F 0 110 8 26 0 70 6 42 6 59 3 3B8 4 2C 3 BD 6 6D 1 1 3 7E 3 30 1 4F 3 4 0 D " ++
  "0 1 2 58 5 6B 0 12A 1 1 1 72 4 A 1 1 0 68 0 FA 16 69 2 1C C 4C 0 82 2 FC 0 108 2 9B 0 5C 7 " ++
  "53 2 1 4 5D 9 D7 0 5F 4 2A 1 285 1 4A C AF 0 470 4 B7C 1 3A7B 1 85 0 41 4 8 0 228 2 127 3 " ++
  "147 0 4CBC 0 1DE7 4 B73 0 35E 1")

def mathSymbol : CharSet := .ofGaps (
  "2B 0 10 2 3D 0 1 0 2D 0 4 0 25 0 1F 0 2FE 0 20F 2 1A3B 0 D 0 27 2 D 2 8B 0 27 4 6 0 44 4 5 " ++
  "1 4 0 2 0 2 0 7 0 1F 1 2 0 1 0 1F 10B 20 1 5A 0 1E 18 28 5 1D5 0 9 0 36 7 6F 0 150 4 2 1E " ++
  "A F 100 82 16 3E 4 1F 2 101 30 14 2 5 CFDC 0 338 0 1 2 A4 0 10 2 3D 0 1 0 83 0 6 3 DA1 1 " ++
  "C931 0 19 0 1F 0 19 0 1F 0 19 0 1F 0 19 0 1F 0 19 0 172C 1")

def currencySymbol : CharSet := .ofGaps (
  "24 0 7D 3 4E9 0 7B 0 1F2 1 1F2 1 7 0 F5 0 107 0 245 0 99B 0 8C4 20 8777 0 55C3 0 6C 0 9A 0 " ++
  "DB 1 3 1 1FF6 3 C31E 0 9B0 0")

def modifierSymbol : CharSet := .ofGaps (
  "5E 0 1 0 47 0 6 0 4 0 3 0 209 3 C D 5 6 1 0 1 10 75 0 E 1 502 0 1734 0 1 2 B 2 D 2 D 2 D 1 " ++
  "109C 1 7663 16 9 1 67 1 3D0 0 E 1 5046 10 37B 0 1 0 A2 0 F417 4")

def otherSymbol : CharSet := .ofGaps (
  "A6 0 2 0 4 0 1 0 3D1 0 10A 1 7F 1 CE 0 A 0 13 1 F7 0 203 0 175 0 82 5 1 0 84 0 CF 0 29 0 " ++
  "187 2 F 0 1 2 2 5 14 0 1 0 1 0 85 7 1 5 1 1 5 3 C5 1 2F0 9 2D3 0 2D2 0 9D 21 161 9 9 8 583 " ++
  "1 1 3 1 1 A 0 1 1 6 5 1 0 1 0 1 0 4 0 B 1 E 0 1 1 1 0 3A 1 9 4 2 3 1 1 1 1 1 6 1 1E 2 1 1 " ++
  "0 1 1E 10C 7 4 13 2 6 2 50 1 1D 19 27 6 47 16 A 51 4D 16 B6 1 8 1 35 8 6E 1 F7 2C 2B 40 FF " ++
  "200 2F 15 1 6 26 2 1F 1 68 E5 5 165 1 2E 19 1 58 C D5 1A F 4 0 D 1 C 0 15 1 6 1 150 1 4 9 " ++
  "20 25 9 0 10 1E B 1D 8 0 F 1F A 26 F 13F 19C0 3F 5690 36 361 3 A 1 1 0 23D 2 52C6 F 7F 0 " ++
  "2D 2 1E4 0 3 0 4 1 D 1 139 8 39 10 2 2 1 C 3 0 2F 2C 67A 1 24F 0 C76 0 895 7 4 10 4B4A 3 5 " ++
  "0 5156 0 F63 EF 10 1B3 9C 73 3C F5 A 26 2 3B 5 2 16 1 7 1D 4 3C 15 41 3 0 BA 56 4A9 1FF 37 " ++
  "3 32 7 1 D 1 1 6C8 0 B5C 0 81 0 2D1 2B 4 63 C E 2 E 1 E 1 24 17 A0 38 1C D 2B 4 8 7 1 E 5 " ++
  "9A FA 5 2D7 4 10 3 C 3 76 4 5E 6 B 4 0 F B 4 37 8 9 6 27 8 1D 2 B 4 1 3E 153 C D 2 C 3 9 5 " ++
  "37 7 E 2 A 6 8 7 92 1 5B")

def spaceSeparator : CharSet := .ofGaps
  "20 0 7F 0 15DF 0 97F A 24 0 2F 0 FA0 0"

def lineSeparator : CharSet := .ofGaps
  "2028 0"

def paragraphSeparator : CharSet := .ofGaps
  "2029 0"

def control : CharSet := .ofGaps
  "0 1F 5F 20"

def format : CharSet := .ofGaps (
  "AD 0 552 5 16 0 C0 0 31 0 180 1 50 0 F2B 0 7FC 4 1A 4 31 4 1 9 DE8F 0 F9 2 10C1 0 F 0 2362 " ++
  "F 8860 3 14CF 7 C2E86 0 1E 5F")

def surrogate : CharSet := .ofGaps
  "D800 7FF"

def privateUse : CharSet := .ofGaps
  "E000 18FF E0700 FFFD 2 FFFD"

def casedLetter : CharSet := .unions
  [uppercaseLetter, lowercaseLetter, titlecaseLetter]

def letter : CharSet := .unions
  [casedLetter, modifierLetter, otherLetter]

def mark : CharSet := .unions
  [nonspacingMark, spacingMark, enclosingMark]

def number : CharSet := .unions
  [decimalNumber, letterNumber, otherNumber]

def punctuation : CharSet := .unions
  [connectorPunctuation, dashPunctuation, openPunctuation, closePunctuation, initialPunctuation,
    finalPunctuation, otherPunctuation]

def symbol : CharSet := .unions
  [mathSymbol, currencySymbol, modifierSymbol, otherSymbol]

def separator : CharSet := .unions
  [spaceSeparator, lineSeparator, paragraphSeparator]

def unassigned : CharSet := CharSet.complement <| .unions
  [letter, mark, number, punctuation, symbol, separator, control, format, surrogate, privateUse]

def other : CharSet := .unions [control, format, surrogate, privateUse, unassigned]

/-- Short and long names, in small letters and without separators. A text has no surrogates, so
that no name stands for them. -/
def byName : List (String × CharSet) :=
  [("lu", uppercaseLetter), ("uppercaseletter", uppercaseLetter), ("ll", lowercaseLetter),
    ("lowercaseletter", lowercaseLetter), ("lt", titlecaseLetter),
    ("titlecaseletter", titlecaseLetter), ("lm", modifierLetter),
    ("modifierletter", modifierLetter), ("lo", otherLetter), ("otherletter", otherLetter),
    ("mn", nonspacingMark), ("nonspacingmark", nonspacingMark), ("mc", spacingMark),
    ("spacingmark", spacingMark), ("me", enclosingMark), ("enclosingmark", enclosingMark),
    ("nd", decimalNumber), ("decimalnumber", decimalNumber), ("digit", decimalNumber),
    ("nl", letterNumber), ("letternumber", letterNumber), ("no", otherNumber),
    ("othernumber", otherNumber), ("pc", connectorPunctuation),
    ("connectorpunctuation", connectorPunctuation), ("pd", dashPunctuation),
    ("dashpunctuation", dashPunctuation), ("ps", openPunctuation),
    ("openpunctuation", openPunctuation), ("pe", closePunctuation),
    ("closepunctuation", closePunctuation), ("pi", initialPunctuation),
    ("initialpunctuation", initialPunctuation), ("pf", finalPunctuation),
    ("finalpunctuation", finalPunctuation), ("po", otherPunctuation),
    ("otherpunctuation", otherPunctuation), ("sm", mathSymbol), ("mathsymbol", mathSymbol),
    ("sc", currencySymbol), ("currencysymbol", currencySymbol), ("sk", modifierSymbol),
    ("modifiersymbol", modifierSymbol), ("so", otherSymbol), ("othersymbol", otherSymbol),
    ("zs", spaceSeparator), ("spaceseparator", spaceSeparator), ("zl", lineSeparator),
    ("lineseparator", lineSeparator), ("zp", paragraphSeparator),
    ("paragraphseparator", paragraphSeparator), ("cc", control), ("control", control),
    ("cntrl", control), ("cf", format), ("format", format), ("co", privateUse),
    ("privateuse", privateUse), ("lc", casedLetter), ("casedletter", casedLetter), ("l", letter),
    ("letter", letter), ("m", mark), ("mark", mark), ("combiningmark", mark), ("n", number),
    ("number", number), ("p", punctuation), ("punctuation", punctuation), ("punct", punctuation),
    ("s", symbol), ("symbol", symbol), ("z", separator), ("separator", separator),
    ("cn", unassigned), ("unassigned", unassigned), ("c", other), ("other", other)]

end Formula.Unicode.Category
