import Formula.Unicode.Property.Control
import Formula.Unicode.Property.Emoji
import Formula.Unicode.Property.Grapheme
import Formula.Unicode.Property.Ideograph
import Formula.Unicode.Writing

/-! Classes of characters between which a text is cut into words. -/

namespace Formula.Unicode.Boundary.Word

open Category Property

/-- All characters of some writing systems. -/
def written (names : List String) : CharSet := .unions (names.filterMap Writing.find?)

def extend : CharSet :=
  (CharSet.unions [graphemeExtend, spacingMark, emojiModifier]).diff (.range 0x200D 0x200D)

def format : CharSet :=
  Category.format.diff (.unions [.range 0x200B 0x200D, graphemeExtend, prependedConcatenationMark])

def katakana : CharSet :=
  (written ["katakana"]).union (.ofRanges [(0x3031, 0x3035), (0x309B, 0x309C), (0x30A0, 0x30A0),
    (0x30FC, 0x30FC), (0xFF70, 0xFF70)])

def hebrewLetter : CharSet := (written ["hebrew"]).inter otherLetter

/-- Scripts that are written without spaces, so that letters do not tell where a word ends. -/
def unspaced : CharSet :=
  written ["hiragana", "thai", "lao", "myanmar", "khmer", "taile", "newtailue", "taitham",
    "taiviet", "ahom"]

/-- Letters of words with spaces around them. -/
def letter : CharSet :=
  (alphabetic.diff (.unions [ideographic, katakana, hebrewLetter, unspaced, extend])).union <|
    .ofGaps
    "B8 0 209 3 C 5 6 1 5 6 1 0 1 10 25A 2 1 0 2B 0 68 0 11B 0 9FF8 E 9 1 67 1 3D0 0"

def numeric : CharSet := decimalNumber.union <| .ofGaps
  "600 5 65 0 71 0 1B2 1 50 0 10F7 0 F6E2 0 F 0"

def connector : CharSet := connectorPunctuation.union (.range 0x202F 0x202F)

def midLetter : CharSet := .ofGaps "3A 0 7C 0 2CF 0 1D7 0 94 0 1A32 0 DDEB 0 41 0 C4 0"

def midNumber : CharSet := .ofGaps "2C 0 E 0 342 0 20A 0 82 1 5E 0 18B 0 184B 0 DE0B 0 3 0 B7 0 E 0"

def midNumberOrLetter : CharSet := .ofGaps "2E 0 1FE9 1 A 0 DE2D 0 B4 0 6 0"

def newline : CharSet := .ofRanges [(0xB, 0xC), (0x85, 0x85), (0x2028, 0x2029)]

/-- Spaces where a line may be broken. -/
def space : CharSet :=
  spaceSeparator.diff (.ofRanges [(0xA0, 0xA0), (0x2007, 0x2007), (0x202F, 0x202F)])

/-- Short and long names, in small letters and without separators. -/
def byName : List (String × CharSet) :=
  [("le", letter), ("aletter", letter), ("cr", .range 0xD 0xD), ("dq", .range 0x22 0x22),
    ("doublequote", .range 0x22 0x22), ("extend", extend), ("ex", connector),
    ("extendnumlet", connector), ("fo", format), ("format", format), ("hl", hebrewLetter),
    ("hebrewletter", hebrewLetter), ("ka", katakana), ("katakana", katakana),
    ("lf", .range 0xA 0xA), ("ml", midLetter), ("midletter", midLetter), ("mn", midNumber),
    ("midnum", midNumber), ("mb", midNumberOrLetter), ("midnumlet", midNumberOrLetter),
    ("nl", newline), ("newline", newline), ("nu", numeric), ("numeric", numeric),
    ("ri", regionalIndicator), ("regionalindicator", regionalIndicator), ("sq", .range 0x27 0x27),
    ("singlequote", .range 0x27 0x27), ("wsegspace", space), ("zwj", .range 0x200D 0x200D)]

end Formula.Unicode.Boundary.Word
