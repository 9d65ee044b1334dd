import Formula.Unicode.Property.Control
import Formula.Unicode.Property.Emoji
import Formula.Unicode.Property.Grapheme

/-! Classes of characters between which a text is cut into what its reader takes for one character
each. -/

namespace Formula.Unicode.Boundary.Grapheme

open Category Property

def extend : CharSet := graphemeExtend.union emojiModifier

/-- Signs and consonants that are kept with the character behind them. -/
def prepend : CharSet := .ofGaps
  "600 5 D7 0 31 0 180 1 50 0 46B 0 1036E 0 F 0 F4 1 20D 0 56D 0 1 0 F8 0 49 5 2BC 0 1BB 0"

/-- Marks that take room of their own; some are not kept with the letter before. -/
def spacingMark : CharSet :=
  ((Category.spacingMark.union (.ofRanges [(0xE33, 0xE33), (0xEB3, 0xEB3)])).diff graphemeExtend)
    |>.diff (.ofGaps
    "102B 1 B 0 29 2 2 6 15 0 3 5 2 0 A 2 9C4 0 1 1 9016 0 1 0 6CA2 1")

/-- Line ends and other controls. -/
def control : CharSet :=
  (CharSet.unions [lineSeparator, paragraphSeparator, Category.control, format,
    unassigned.inter defaultIgnorable]).diff <|
  .unions [.range 0xA 0xA, .range 0xD 0xD, joinControl, prependedConcatenationMark, graphemeExtend]

def leadingJamo : CharSet := .ofRanges [(0x1100, 0x115F), (0xA960, 0xA97C)]

/-- Vowels of Hangul, and of a script whose vowels are put together in the same way. -/
def vowelJamo : CharSet :=
  .ofRanges [(0x1160, 0x11A7), (0xD7B0, 0xD7C6), (0x16D63, 0x16D63), (0x16D67, 0x16D6A)]

def trailingJamo : CharSet := .ofRanges [(0x11A8, 0x11FF), (0xD7CB, 0xD7FB)]

/-- The syllables of Hangul without a last consonant: one of 28 in a row. -/
def openSyllable : CharSet :=
  .ofRanges ((List.range 399).map fun i => (0xAC00 + 28 * i, 0xAC00 + 28 * i))

def closedSyllable : CharSet := (CharSet.range 0xAC00 0xD7A3).diff openSyllable

/-- Short and long names, in small letters and without separators. -/
def byName : List (String × CharSet) :=
  [("cn", control), ("control", control), ("cr", .range 0xD 0xD), ("ex", extend),
    ("extend", extend), ("l", leadingJamo), ("lf", .range 0xA 0xA), ("lv", openSyllable),
    ("lvt", closedSyllable), ("pp", prepend), ("prepend", prepend), ("ri", regionalIndicator),
    ("regionalindicator", regionalIndicator), ("sm", spacingMark), ("spacingmark", spacingMark),
    ("t", trailingJamo), ("v", vowelJamo), ("zwj", .range 0x200D 0x200D)]

end Formula.Unicode.Boundary.Grapheme
