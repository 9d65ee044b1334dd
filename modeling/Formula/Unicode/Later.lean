import Formula.Unicode.Property

/-! Properties in the edition of the Unicode standard that followed the one which the classes in
patterns go by. Letter case and the names of groups go by the later one. -/

namespace Formula.Unicode.Later

def alphabetic : CharSet := Property.alphabetic.union <| .ofGaps (
  "88F 0 3CC 0 7F 0 9AF1 1 2 0 1 0 1C 0 614E 19 56B 2 32 1 C64 7 248 2B 50C4 18 2 18 11E 4 " ++
  "1801 7 509 15 61 72 58CD 1E 1 15 8 1 D03A 5 1762 B 5502 10C9")

def number : CharSet := Category.number.union <| .ofGaps
  "11DE0 9 520A 2"

/-- One letter without a capital is no longer counted among the small letters. -/
def cased : CharSet := (Property.cased.diff (.range 0x295 0x295)).union <| .ofGaps
  "A7CE 1 2 0 1 0 1C 0 C6AE 18 2 18"

def caseIgnorable : CharSet := Property.caseIgnorable.union <| .ofGaps
  "1ACF E 2 B 8D05 0 66D3 0 34 1 C64 0 1 2 1 0 272 0 5218 1 76EF 0 2 0 7 1 5 0 9 0"

end Formula.Unicode.Later
