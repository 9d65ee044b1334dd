import Formula.Unicode.Property

/-! Properties of characters that are not seen, are not to be used, or change their neighbours. -/

namespace Formula.Unicode.Property

open Category

/-- Characters that set the direction of writing. -/
def bidiControl : CharSet := .ofGaps
  "61C 0 19F1 1 1A 4 37 3"

def variationSelector : CharSet := .ofGaps
  "180B 2 1 0 E5F0 F D02F0 EF"

/-- Signs that are written around or under the digits behind them. -/
def prependedConcatenationMark : CharSet := .ofGaps
  "600 5 D7 0 31 0 180 1 50 0 107DA 0 F 0"

def otherDefaultIgnorable : CharSet := .ofGaps
  "34F 0 E0F 1 653 1 8AF 0 10FE 0 CE3B 0 4F 8 D0007 0 1 1D 60 7F F0 E0F"

/-- Characters that are left out where they cannot be shown. Annotation marks and the joiners of
hieroglyphs are seen. -/
def defaultIgnorable : CharSet :=
  (CharSet.unions [otherDefaultIgnorable, format, variationSelector]).diff <|
    .unions [whiteSpace, .range 0xFFF9 0xFFFB, .range 0x13430 0x1343F, prependedConcatenationMark]

def deprecated : CharSet := .ofGaps
  "149 0 529 0 903 0 1 0 829 1 8C5 5 2B9 1 DDCD6 0"

/-- The last two codes of each plane, and some more. -/
def noncharacter : CharSet :=
  .ofRanges ((0xFDD0, 0xFDEF) ::
    (List.range 17).map fun plane => (0x10000 * plane + 0xFFFE, 0x10000 * plane + 0xFFFF))

end Formula.Unicode.Property
