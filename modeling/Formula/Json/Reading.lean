import Formula.Json.Numeral

/-! Reading JSON documents, strictly. Of members with one key the last value counts, in the place of
the first. -/

namespace Formula.Json

def isSpace (c : Char) : Bool := c == ' ' || c == '\t' || c == '\n' || c == '\r'

def skipSpaces (cs : List Char) : List Char := cs.dropWhile isSpace

/-- Four hexadecimal digits. -/
def readUnit : List Char → Option (Nat × List Char)
  | a :: b :: c :: d :: cs => do
    let a ← Number.radixDigit? 16 a
    let b ← Number.radixDigit? 16 b
    let c ← Number.radixDigit? 16 c
    let d ← Number.radixDigit? 16 d
    return (((a * 16 + b) * 16 + c) * 16 + d, cs)
  | _ => none

/-- A character from one unit of 16 bits, or from a pair of surrogates; none stands alone. -/
def readUnits (cs : List Char) : Option (Char × List Char) := do
  let (high, rest) ← readUnit cs
  if 0xD800 ≤ high && high < 0xDC00 then
    match rest with
    | '\\' :: 'u' :: rest => do
      let (low, rest) ← readUnit rest
      if 0xDC00 ≤ low && low < 0xE000 then
        some (Char.ofNat (0x10000 + (high - 0xD800) * 0x400 + (low - 0xDC00)), rest)
      else none
    | _ => none
  else if 0xDC00 ≤ high && high < 0xE000 then none
  else some (Char.ofNat high, rest)

/-- Reads what stands behind a backslash. -/
def readEscape : List Char → Option (Char × List Char)
  | '"' :: cs => some ('"', cs)
  | '\\' :: cs => some ('\\', cs)
  | '/' :: cs => some ('/', cs)
  | 'b' :: cs => some ('\x08', cs)
  | 'f' :: cs => some ('\x0c', cs)
  | 'n' :: cs => some ('\n', cs)
  | 'r' :: cs => some ('\r', cs)
  | 't' :: cs => some ('\t', cs)
  | 'u' :: cs => readUnits cs
  | _ => none

/-- The rest of a string behind its opening quote; `taken` holds what was read, last first. -/
def readString (taken : List Char) : Nat → List Char → Option (String × List Char)
  | 0, _ => none
  | _ + 1, [] => none
  | fuel + 1, c :: cs =>
    if c == '"' then some (String.ofList taken.reverse, cs)
    else if c == '\\' then match readEscape cs with
      | some (c, rest) => readString (c :: taken) fuel rest
      | none => none
    else if c.toNat < 32 then none
    else readString (c :: taken) fuel cs

def dropWord? : List Char → List Char → Option (List Char)
  | [], cs => some cs
  | w :: ws, c :: cs => if w == c then dropWord? ws cs else none
  | _ :: _, [] => none

def readWord (word : String) (value : Json) (cs : List Char) : Option (Json × List Char) :=
  (dropWord? word.toList cs).map (value, ·)

mutual

/-- `levels` is how many arrays and objects may still be opened; every step takes a character, so
that the length of the text is fuel enough. -/
def readValue (levels : Nat) : Nat → List Char → Option (Json × List Char)
  | 0, _ => none
  | fuel + 1, cs => match skipSpaces cs with
    | [] => none
    | '"' :: rest => (readString [] (rest.length + 1) rest).map fun (s, rest) => (string s, rest)
    | '[' :: rest => match levels with
      | 0 => none
      | levels + 1 => match skipSpaces rest with
        | ']' :: rest => some (array [], rest)
        | rest => readItems levels fuel [] rest
    | '\x7b' :: rest => match levels with
      | 0 => none
      | levels + 1 => match skipSpaces rest with
        | '\x7d' :: rest => some (object [], rest)
        | rest => readMembers levels fuel [] rest
    | 'n' :: rest => readWord "ull" null rest
    | 't' :: rest => readWord "rue" (bool true) rest
    | 'f' :: rest => readWord "alse" (bool false) rest
    | rest => (readNumber rest).map fun (n, rest) => (number n, rest)

def readItems (levels : Nat) : Nat → List Json → List Char → Option (Json × List Char)
  | 0, _, _ => none
  | fuel + 1, done, cs => match readValue levels fuel cs with
    | none => none
    | some (item, rest) => match skipSpaces rest with
      | ',' :: rest => readItems levels fuel (item :: done) rest
      | ']' :: rest => some (array (item :: done).reverse, rest)
      | _ => none

def readMembers (levels : Nat) : Nat → Dict Json → List Char → Option (Json × List Char)
  | 0, _, _ => none
  | fuel + 1, done, cs => match skipSpaces cs with
    | '"' :: rest => match readString [] (rest.length + 1) rest with
      | none => none
      | some (key, rest) => match skipSpaces rest with
        | ':' :: rest => match readValue levels fuel rest with
          | none => none
          | some (value, rest) => match skipSpaces rest with
            | ',' :: rest => readMembers levels fuel (done.put key value) rest
            | '\x7d' :: rest => some (object (done.put key value), rest)
            | _ => none
        | _ => none
    | _ => none

end

/-- How many arrays and objects may lie in one another. -/
def maxLevels : Nat := 127

/-- The document that a text is. -/
def read? (text : String) : Option Json :=
  let cs := text.toList
  match readValue maxLevels (2 * cs.length + 2) cs with
  | some (value, rest) => if skipSpaces rest == [] then some value else none
  | none => none

end Formula.Json
