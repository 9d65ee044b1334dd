import Formula.Unicode.CharSet

/-! Properties of pictographs and of the characters that modify them. -/

namespace Formula.Unicode.Property

def regionalIndicator : CharSet := .range 0x1F1E6 0x1F1FF

def emoji : CharSet := .ofGaps (
  "23 0 6 0 5 9 6F 0 4 0 1F8D 0 C 0 D8 0 16 0 5A 5 F 1 16F 1 C 0 A6 0 19 A 4 2 C7 0 E7 1 A 0 " ++
  "9 0 3A 3 1 4 9 0 2 0 2 1 2 0 4 0 2 0 1 1 2 0 3 0 3 1 8 2 5 0 1 0 5 B B 1 2 0 1 1 1 0 12 0 " ++
  "2 1 12 5 1 0 1 1 3 1 5 0 2 1 4 1 B 1 5 1 2 0 5 1 1 0 1 1 14 1 5 5 1 3 2 0 4 0 2 0 2 5 1 0 " ++
  "2 0 1 0 1 0 6 0 3 0 6 0 A 1 F 0 2 0 4 0 1 0 4 2 1 0 B 1 30 2 9 0 E 0 E 0 174 1 1CF 2 13 1 " ++
  "33 0 4 0 4DA 0 C 0 259 0 1 0 1BD6A 0 CA 0 A0 1 C 1 E 0 2 9 4B 19 1 1 17 0 14 0 2 8 15 1 AE " ++
  "21 2 6F 2 1 1 2 2 52 2 2 1 106 1 3E B 5 1 17 7 1 2 7 C 0 2 3 2 0 4 1 D 1 2 0 8 1 9 0 5 2 C " ++
  "2 8 2 2 0 1 0 4 0 6 0 3 0 6 55 30 45 5 7 2 2 4 9 3 0 1 1 3 0 2 9 E3 B 4 0 11B 2E 1 9 1 B8 " ++
  "70 C 3 9 5 37 7 E 2 A 6 8")

/-- Pictographs that are shown in colour without being asked to. -/
def emojiPresentation : CharSet := .ofGaps (
  "231A 1 CD 3 3 0 2 0 209 1 15 1 32 B 2B 0 13 0 D 0 8 1 11 1 5 1 8 0 5 0 15 0 7 1 1 0 4 0 2 " ++
  "0 7 0 4 1 1C 0 23 0 1 0 4 2 1 0 3D 2 18 0 E 0 35B 1 33 0 4 0 1C4AE 0 CA 0 BE 0 2 9 4B 19 1 " ++
  "0 18 0 14 0 2 4 1 2 15 1 AE 20 C 8 1 45 1 15 C 2A 4 4 C 10 3 0 3 46 1 0 1 BA 2 3E D 3 1 17 " ++
  "12 0 1A 1 D 0 56 54 30 45 6 0 3 2 2 2 4 3 B 1 7 8 E3 B 4 0 11B 2E 1 9 1 B8 70 C 3 9 5 37 7 " ++
  "E 2 A 6 8")

/-- The tones of skin. -/
def emojiModifier : CharSet := .range 0x1F3FB 0x1F3FF

def emojiModifierBase : CharSet := .ofGaps (
  "261D 0 DB 0 10 3 1CC77 0 3C 2 2 0 2 2 75 1 2 A 15 12 3 0 4 2 1 2 7 0 1 0 18 0 C9 1 4 0 15 " ++
  "0 4 1 AE 2 3 4 53 0 10 2 9 0 B 0 23F 0 2 0 8 7 6 0 9 9 2 2 38 0 3D 1 1 1 1 0 11 2 1 C E5 2 " ++
  "2A 8")

/-- Characters that are part of a pictograph but do not stand for one. -/
def emojiComponent : CharSet :=
  .unions [regionalIndicator, emojiModifier, .ofGaps
    "23 0 6 0 5 9 1FD3 0 D5 0 DD2B 0 FBA0 3 C066C 5F"]

/-- Pictographs, and room for those to come. -/
def extendedPictographic : CharSet := .ofGaps (
  "A9 0 4 0 1F8D 0 C 0 D8 0 16 0 5A 5 F 1 16F 1 C 0 5F 0 46 0 19 A 4 2 C7 0 E7 1 A 0 9 0 3A 3 " ++
  "1 5 1 B 1 71 A 75 2 A 1 0 1 0 6 0 3 0 6 0 A 1 F 0 2 0 4 0 1 0 4 2 1 0 B 4 2D 2 9 0 E 0 E 0 " ++
  "174 1 1CF 2 13 1 33 0 4 0 4DA 0 C 0 259 0 1 0 1BD66 FF D 2 1F 0 3C 5 C 1 E 0 2 9 12 38 1B " ++
  "E A 0 14 0 2 8 1 3 9 1B1 5 13D 8 109 30 7F 74 B 55 2A C 3 38 7 A 5 28 7 1E 51 C 2E 1 9 1 " ++
  "1B8 100 3FD")

end Formula.Unicode.Property
