import Formula.Unicode.Case

/-! Characters that change when a text is put into letters of one case. -/

namespace Formula.Unicode.Property

open Category

/-- The characters with a small letter of their own. -/
def changesWhenLowercased : CharSet := (Case.sources Case.lowerRuns).diff unassigned

/-- Letters that differ in case from no single character, but have a capital form. -/
def irregularCapital : CharSet := .ofGaps (
  "131 0 17 0 A6 0 396 0 190E 4 B5 0 1 0 1 0 1 0 5B 0 1 0 1 1 A 0 1 0 1 1 A 0 3 1 A 0 1 0 1 1 " ++
  "A 0 1 0 1 1 DB08 4 E 4")

/-- What differs in case from another character and is no capital letter. -/
def changesWhenUppercased : CharSet :=
  ((Case.sources Case.foldRuns).union (Case.targets Case.foldRuns)).diff uppercase
    |>.union irregularCapital

/-- The letters of Georgian are not put into title case; digraphs of two capitals are. -/
def changesWhenTitlecased : CharSet :=
  (changesWhenUppercased.diff <|
    titlecaseLetter.union (.ofRanges [(0x10D0, 0x10FA), (0x10FD, 0x10FF)]))
    |>.union (.ofGaps "1C4 0 2 0 2 0 26 0")

/-- Letters that are folded to several letters. -/
def expandingFold : CharSet := .ofGaps
  "DF 0 50 0 18 0 43D 0 1912 0 E5 7 8 7 8 7 A 2 2 0 A 2 2 0 2A 2 2 0 DB08 4 1 0 C 4"

/-- Three letters are the same as what they are folded to once they are taken apart. -/
def changesWhenCasefolded : CharSet :=
  ((Case.sources Case.foldRuns).diff <|
    .ofRanges [(0x1FBE, 0x1FBE), (0x1FD3, 0x1FD3), (0x1FE3, 0x1FE3)])
    |>.union expandingFold

def changesWhenCasemapped : CharSet :=
  .unions [changesWhenLowercased, changesWhenUppercased, changesWhenTitlecased]

end Formula.Unicode.Property
