import Formula.Unicode.Boundary.Word
import Formula.Unicode.Property.Symbol

/-! Classes of characters between which a text is cut into sentences. -/

namespace Formula.Unicode.Boundary.Sentence

open Category Property

def separator : CharSet := .ofRanges [(0x85, 0x85), (0x2028, 0x2029)]

def extend : CharSet := .unions [graphemeExtend, spacingMark, .range 0x200D 0x200D]

def format : CharSet :=
  (Category.format.diff (.unions [joinControl, graphemeExtend, prependedConcatenationMark])).union
    (.range 0x70F 0x70F)

def space : CharSet :=
  whiteSpace.diff (separator.union (.ofRanges [(0xA, 0xA), (0xD, 0xD)]))

/-- A sentence of Georgian need not begin with a capital letter. -/
def georgian : CharSet := .ofRanges [(0x10D0, 0x10FA), (0x10FD, 0x10FF)]

def lower : CharSet := lowercase.diff (graphemeExtend.union georgian)

def upper : CharSet :=
  (uppercase.union titlecaseLetter).diff (.ofRanges [(0x1C90, 0x1CBA), (0x1CBD, 0x1CBF)])

def letter : CharSet :=
  (alphabetic.diff (.unions [lower, upper, extend])).union (.range 0x5F3 0x5F3)

def numeric : CharSet := Word.numeric.union (.range 0x66C 0x66C)

/-- A full stop, which may stand within a sentence. -/
def ambiguousTerminal : CharSet :=
  .ofRanges [(0x2E, 0x2E), (0x2024, 0x2024), (0xFE52, 0xFE52), (0xFF0E, 0xFF0E)]

def terminal : CharSet := sentenceTerminal.diff ambiguousTerminal

def continuation : CharSet := .ofGaps (
  "2C 1 C 1 342 0 1DE 0 AE 1 1EA 0 1009 0 5 0 80A 1 FEC 0 CE0E 1 1 1 1C 1 1D 1 2 1 2 0 A 0 A8 " ++
  "1 C 1 48 0")

/-- Brackets and quotation marks, which may follow the end of a sentence. -/
def close : CharSet :=
  (CharSet.unions [openPunctuation, closePunctuation, initialPunctuation, finalPunctuation,
    quotationMark, .ofGaps
      "275B 5 69F 1 4 2 2 0 1C86A 2"]).diff
  (.ofRanges [(0xFF02, 0xFF02), (0xFF07, 0xFF07)])

/-- Short and long names, in small letters and without separators. -/
def byName : List (String × CharSet) :=
  [("at", ambiguousTerminal), ("aterm", ambiguousTerminal), ("cr", .range 0xD 0xD), ("cl", close),
    ("close", close), ("ex", extend), ("extend", extend), ("fo", format), ("format", format),
    ("lf", .range 0xA 0xA), ("lo", lower), ("lower", lower), ("nu", numeric), ("numeric", numeric),
    ("le", letter), ("oletter", letter), ("sc", continuation), ("scontinue", continuation),
    ("st", terminal), ("sterm", terminal), ("se", separator), ("sep", separator), ("sp", space),
    ("up", upper), ("upper", upper)]

end Formula.Unicode.Boundary.Sentence
