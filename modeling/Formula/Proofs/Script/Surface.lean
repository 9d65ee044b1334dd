import Mathlib
import Formula.Proofs.Script.Confinement

/-! What of a script stands outside its literals and brackets, and whether an operator is there. -/

namespace Formula.Script

open Lexer (isOpening isClosing closing isNameChar)

/-- Code without that which stands in brackets. -/
def surface : Nat → List Char → List Char
  | _, [] => []
  | depth, c :: cs =>
    let around := if isClosing c then depth - 1 else depth
    let behind := surface (if isOpening c then depth + 1 else around) cs
    if around == 0 then c :: behind else behind

/-- White space of JavaScript. -/
def isBlank (c : Char) : Bool := (Text.isBlank c && c != '\u0085') || c == '\ufeff'

def isWordChar (c : Char) : Bool := (isNameChar c || c == '$') && !isBlank c

/-- Operators of JavaScript that are words. -/
def operatorWords : List String :=
  ["await", "delete", "in", "instanceof", "new", "typeof", "void", "yield"]

/-- Behind a dot every word is the name of a member. -/
def isOperatorWord (behindDot : Bool) (word : List Char) : Bool :=
  !behindDot && operatorWords.contains (String.ofList word)

/-- Whether the sign of an exponent may follow. -/
def isMantissa (word : List Char) : Bool :=
  word.head?.any Char.isDigit && word.getLast?.any ['e', 'E'].contains

/-- Characters between words that are no operators. Other than in `?.` a question mark is one. -/
def isMark (c : Char) (cs : List Char) : Bool :=
  isBlank c || isOpening c || isClosing c || c == '"' || c == '.' || c == '?' && cs.head? == some '.'

/-- Whether an operator stands in a surface; `word` has been read of a word so far. -/
def hasOperator (behindDot : Bool) (word : List Char) : List Char → Bool
  | [] => isOperatorWord behindDot word
  | c :: cs =>
    if isWordChar c || isMantissa word && (c == '+' || c == '-') then
      hasOperator behindDot (word ++ [c]) cs
    else isOperatorWord behindDot word || !isMark c cs || hasOperator (c == '.') [] cs

/-- Whether an access step behind a source is one of the whole: there is no operator outside brackets
and literals, and a dot would not be the point of a number. -/
def isWhole (source : String) : Bool :=
  !source.toList.all Char.isDigit &&
    match code? source with
    | none => false
    | some code => !hasOperator false [] (surface 0 code)

example : isWhole "f(a + b)?.[\"!\"].typeof" = true := by cbv
example : isWhole "a ? b : c" = false := by cbv
example : isWhole "new A" = false := by cbv

variable {cs ds rest text text' top top' word : List Char} {c opening : Char}

theorem isOpening_of_isInert (h : IsInert c) : isOpening c = false ∧ isClosing c = false := by
  simp only [IsInert, List.mem_cons, List.not_mem_nil, or_false, not_or] at h
  simp [isOpening, isClosing, h]

theorem isClosing_of_isOpening (h : isOpening opening = true) :
    isClosing opening = false ∧ isOpening (closing opening) = false ∧
      isClosing (closing opening) = true := by
  simp only [isOpening, Bool.or_eq_true, beq_iff_eq] at h
  rcases h with (rfl | rfl) | rfl <;> decide

theorem surface_plain (h : isOpening c = false ∧ isClosing c = false) (depth : Nat) (cs : List Char) :
    surface depth (c :: cs) = if depth = 0 then c :: surface depth cs else surface depth cs := by
  simp [surface, h]

theorem surface_opening (h : isOpening c = true) (depth : Nat) (cs : List Char) :
    surface depth (c :: cs) =
      if depth = 0 then c :: surface (depth + 1) cs else surface (depth + 1) cs := by
  simp [surface, h, isClosing_of_isOpening h]

theorem surface_closing (h : isOpening c = true) (depth : Nat) (cs : List Char) :
    surface (depth + 1) (closing c :: cs) =
      if depth = 0 then closing c :: surface depth cs else surface depth cs := by
  simp [surface, isClosing_of_isOpening h]

/-- Nothing is seen of what stands in brackets. -/
theorem surface_of_seals (h : Seals cs ds) (depth : Nat) (rest : List Char) :
    surface (depth + 1) (ds ++ rest) = surface (depth + 1) rest := by
  induction h generalizing depth rest with
  | nil => rfl
  | inert hc _ ih =>
    rw [List.cons_append, surface_plain (isOpening_of_isInert hc), if_neg (by omega), ih]
  | division _ ih =>
    rw [List.cons_append, List.cons_append, surface_plain (by decide), if_neg (by omega),
      surface_plain (by decide), if_neg (by omega), ih]
  | literal _ _ ih => rw [List.cons_append, surface_plain (by decide), if_neg (by omega), ih]
  | bracketed hopen _ _ ihinner ih =>
    rw [List.cons_append, List.append_assoc, List.cons_append, surface_opening hopen,
      if_neg (by omega), ihinner, surface_closing hopen, if_neg (by omega), ih]

/-- A sealed text, and that of it which stands outside literals and brackets. -/
def Shows (text top : List Char) : Prop :=
  ∃ code, Seals text code ∧ ∀ rest, surface 0 (code ++ rest) = top ++ surface 0 rest

theorem Shows.append (h : Shows text top) (h' : Shows text' top') :
    Shows (text ++ text') (top ++ top') := by
  obtain ⟨code, hseals, hsurface⟩ := h
  obtain ⟨code', hseals', hsurface'⟩ := h'
  refine ⟨code ++ code', hseals.append hseals', fun rest => ?_⟩
  rw [List.append_assoc, hsurface, hsurface', List.append_assoc]

theorem shows_inert (h : ∀ c ∈ text, IsInert c) : Shows text text := by
  induction text with
  | nil => exact ⟨[], .nil, fun _ => rfl⟩
  | cons c cs ih =>
    rw [List.forall_mem_cons] at h
    obtain ⟨code, hseals, hsurface⟩ := ih h.2
    refine ⟨c :: code, .inert h.1 hseals, fun rest => ?_⟩
    rw [List.cons_append, surface_plain (isOpening_of_isInert h.1), if_pos rfl, hsurface,
      List.cons_append]

theorem shows_quoted (s : String) : Shows (quoted s).toList ['"'] := by
  have hseals := Seals.literal s.toList .nil
  rw [List.append_nil] at hseals
  rw [quoted, String.toList_ofList]
  refine ⟨_, hseals, fun rest => ?_⟩
  rw [List.singleton_append, surface_plain (by decide), if_pos rfl, List.singleton_append]

theorem IsSealed.shows (h : IsSealed text) (hopen : isOpening opening = true) :
    Shows (opening :: (text ++ [closing opening])) [opening, closing opening] := by
  obtain ⟨code, hseals⟩ := h
  refine ⟨_, .bracketed hopen hseals .nil, fun rest => ?_⟩
  rw [List.cons_append, List.append_assoc, surface_opening hopen, if_pos rfl, surface_of_seals hseals,
    List.singleton_append, surface_closing hopen, if_pos rfl]
  rfl

/-- Nothing in a text goes on from a word with an operator in it. -/
def Continues (top : List Char) : Prop :=
  ∀ behindDot word, isOperatorWord behindDot word = false → hasOperator behindDot word top = false

theorem hasOperator_word (h : ∀ c ∈ cs, isWordChar c = true) (behindDot : Bool)
    (word rest : List Char) :
    hasOperator behindDot word (cs ++ rest) = hasOperator behindDot (word ++ cs) rest := by
  induction cs generalizing word with
  | nil => rw [List.nil_append, List.append_nil]
  | cons c cs ih =>
    rw [List.forall_mem_cons] at h
    rw [List.cons_append, hasOperator, if_pos (by simp [h.1]), ih h.2, List.append_assoc]
    rfl

theorem hasOperator_of_word (h : ∀ c ∈ cs, isWordChar c = true) (behindDot : Bool) :
    hasOperator behindDot [] cs = isOperatorWord behindDot cs := by
  have hword := hasOperator_word h behindDot [] []
  rwa [List.append_nil, List.nil_append, hasOperator] at hword

theorem isWordChar_of_isMark (h : isMark c cs = true) :
    isWordChar c = false ∧ c ≠ '+' ∧ c ≠ '-' := by
  simp only [isMark, isOpening, isClosing, Bool.or_eq_true, Bool.and_eq_true, beq_iff_eq] at h
  rcases h with (((((h | h) | h) | rfl) | rfl) | ⟨rfl, -⟩)
  · refine ⟨by simp [isWordChar, h], ?_, ?_⟩ <;> rintro rfl <;> exact absurd h (by decide)
  · rcases h with (rfl | rfl) | rfl <;> decide
  · rcases h with (rfl | rfl) | rfl <;> decide
  · decide
  · decide
  · decide

theorem hasOperator_mark (h : isMark c cs = true) (behindDot : Bool) (word : List Char) :
    hasOperator behindDot word (c :: cs) =
      (isOperatorWord behindDot word || hasOperator (c == '.') [] cs) := by
  obtain ⟨hword, hplus, hminus⟩ := isWordChar_of_isMark h
  simp [hasOperator, hword, hplus, hminus, h]

theorem isMark_append (h : isMark c cs = true) (rest : List Char) : isMark c (cs ++ rest) = true := by
  cases cs with
  | nil =>
    have hquestion : (c == '?' && ([] : List Char).head? == some '.') = false := by simp
    simp only [isMark, hquestion, Bool.or_false] at h
    simp [isMark, h]
  | cons c' cs => exact h

-- By induction on the text. A question mark at its end is an operator already.
theorem hasOperator_append {behindDot : Bool} (h : hasOperator behindDot word top = false)
    (hrest : Continues rest) : hasOperator behindDot word (top ++ rest) = false := by
  induction top generalizing behindDot word with
  | nil => exact hrest _ _ h
  | cons c cs ih =>
    rw [hasOperator] at h
    rw [List.cons_append, hasOperator]
    split
    · rename_i hc
      rw [if_pos hc] at h
      exact ih h
    · rename_i hc
      rw [if_neg hc] at h
      simp only [Bool.or_eq_false_iff, Bool.not_eq_false'] at h ⊢
      exact ⟨⟨h.1.1, isMark_append h.1.2 rest⟩, ih h.2⟩

theorem Continues.append (h : Continues top) (h' : Continues top') : Continues (top ++ top') :=
  fun behindDot word hword => hasOperator_append (h behindDot word hword) h'

theorem continues_mark (hmark : isMark c cs = true) (h : hasOperator (c == '.') [] cs = false) :
    Continues (c :: cs) := by
  intro behindDot word hword
  rw [hasOperator_mark hmark, hword, h]
  rfl

theorem continues_brackets (h : isOpening opening = true) : Continues [opening, closing opening] := by
  refine continues_mark (by simp [isMark, h]) ?_
  simp only [isOpening, Bool.or_eq_true, beq_iff_eq] at h
  rcases h with (rfl | rfl) | rfl <;> decide

theorem Continues.dot (h : Continues top) : Continues ('.' :: top) :=
  continues_mark (by simp [isMark]) (h true [] rfl)

theorem continues_member (h : ∀ c ∈ cs, isWordChar c = true) : Continues ('.' :: cs) := by
  refine continues_mark (by simp [isMark]) ?_
  exact hasOperator_of_word h true

theorem Continues.optional (h : Continues ('.' :: cs)) : Continues ('?' :: '.' :: cs) :=
  continues_mark (by simp [isMark]) (h false [] rfl)

section Numbers

variable {ws fs : List Char}

theorem isDigit_toDigits (n : Nat) : ∀ c ∈ Nat.toDigits 10 n, c.isDigit = true := fun _ hc =>
  Nat.isDigit_of_mem_toDigits (by decide) (by decide) hc

theorem isDigit_digits (d : Number.Decimal) : ∀ c ∈ d.digits.1, c.isDigit = true := by
  intro c hc
  rw [Number.Decimal.digits, List.mem_reverse] at hc
  have hmem := (List.dropWhile_sublist _).mem hc
  exact isDigit_toDigits _ c (List.mem_reverse.mp hmem)

theorem isWordChar_of_isDigit (h : c.isDigit = true) : isWordChar c = true := by
  have hblank : isBlank c = false := by
    simp only [Char.isDigit, Bool.and_eq_true, decide_eq_true_eq] at h
    have hlow : 48 ≤ c.toNat := h.1
    have hhigh : c.toNat ≤ 57 := h.2
    have hmark : (c == '\ufeff') = false := by
      apply beq_eq_false_iff_ne.mpr
      rintro rfl
      exact absurd hhigh (by decide)
    have hspace : Text.isBlank c = false := by
      simp only [Text.isBlank, Bool.or_eq_false_iff, Bool.and_eq_false_iff, decide_eq_false_iff_not,
        beq_eq_false_iff_ne]
      omega
    rw [isBlank, hspace, hmark]
    rfl
  simp [isWordChar, isNameChar, h, hblank]

/-- No operator has a digit. -/
theorem isOperatorWord_of_isDigit (hc : c ∈ word) (hdigit : c.isDigit = true) (behindDot : Bool) :
    isOperatorWord behindDot word = false := by
  have hletters : ∀ w ∈ operatorWords, w.toList.all (!Char.isDigit ·) = true := by decide
  have hword : operatorWords.contains (String.ofList word) = false := by
    rw [List.contains_eq_mem, decide_eq_false_iff_not]
    intro hmem
    have hplain := List.all_eq_true.mp (hletters _ hmem) c (by rwa [String.toList_ofList])
    simp [hdigit] at hplain
  rw [isOperatorWord, hword, Bool.and_false]

theorem hasOperator_digits (h : ∀ c ∈ ws, c.isDigit = true) (behindDot : Bool) :
    hasOperator behindDot [] ws = false := by
  rw [hasOperator_of_word fun c hc => isWordChar_of_isDigit (h c hc)]
  cases ws with
  | nil => cases behindDot <;> rfl
  | cons c cs =>
    exact isOperatorWord_of_isDigit List.mem_cons_self (h c List.mem_cons_self) behindDot

theorem hasOperator_point (hws : ∀ c ∈ ws, c.isDigit = true) (hfs : ∀ c ∈ fs, c.isDigit = true) :
    hasOperator false [] (ws ++ '.' :: fs) = false := by
  refine hasOperator_append (hasOperator_digits hws false) (continues_member ?_)
  exact fun c hc => isWordChar_of_isDigit (hfs c hc)

theorem hasOperator_positional (h : ∀ c ∈ ws, c.isDigit = true) (exponent : Int) :
    hasOperator false [] (Number.positional ws exponent) = false := by
  have hzeros (n : Nat) : ∀ c ∈ List.replicate n '0', c.isDigit = true := by
    intro c hc
    rw [List.eq_of_mem_replicate hc]
    decide
  unfold Number.positional
  split
  · have hzero : ∀ c ∈ ['0'], c.isDigit = true := List.forall_mem_singleton.mpr rfl
    exact hasOperator_point hzero (List.forall_mem_append.mpr ⟨hzeros _, h⟩)
  · dsimp only
    split
    · exact hasOperator_digits (List.forall_mem_append.mpr ⟨h, hzeros _⟩) false
    · exact hasOperator_point (fun c hc => h c (List.mem_of_mem_take hc))
        fun c hc => h c (List.mem_of_mem_drop hc)

/-- An exponent behind digits. -/
theorem hasOperator_exponent {sign : Char} (hword : ∀ c ∈ word, c.isDigit = true) (hne : word ≠ [])
    (hsign : sign = '+' ∨ sign = '-') (hws : ∀ c ∈ ws, c.isDigit = true) (behindDot : Bool) :
    hasOperator behindDot word ('e' :: sign :: ws) = false := by
  obtain ⟨c, cs, rfl⟩ := List.exists_cons_of_ne_nil hne
  have hdigit : c.isDigit = true := hword c List.mem_cons_self
  have hmantissa : isMantissa (c :: cs ++ ['e']) = true := by
    rw [isMantissa, List.getLast?_concat]
    simp [hdigit]
  have hsigned : (isWordChar sign || isMantissa (c :: cs ++ ['e']) && (sign == '+' || sign == '-')) =
      true := by
    rw [hmantissa]
    rcases hsign with rfl | rfl <;> simp
  have he : isWordChar 'e' = true := by decide
  have hrun := hasOperator_word (fun c hc => isWordChar_of_isDigit (hws c hc)) behindDot
    (c :: cs ++ ['e'] ++ [sign]) []
  rw [List.append_nil] at hrun
  rw [hasOperator, if_pos (by simp [he]), hasOperator, if_pos hsigned, hrun, hasOperator]
  exact isOperatorWord_of_isDigit (by simp) hdigit behindDot

theorem hasOperator_scientific (h : ∀ c ∈ ws, c.isDigit = true) (hne : ws ≠ []) (exponent : Int) :
    hasOperator false [] (Number.scientific ws exponent) = false := by
  unfold Number.scientific
  dsimp only
  generalize hchar : (if exponent < 0 then '-' else '+') = sign
  have hsign : sign = '+' ∨ sign = '-' := by
    rw [← hchar]
    split <;> simp
  have hrun (word : List Char) (behindDot : Bool) (hword : ∀ c ∈ word, c.isDigit = true)
      (hne : word ≠ []) :
      hasOperator behindDot [] (word ++ 'e' :: sign :: Nat.toDigits 10 exponent.natAbs) = false := by
    rw [hasOperator_word fun c hc => isWordChar_of_isDigit (hword c hc)]
    exact hasOperator_exponent hword hne hsign (isDigit_toDigits _) behindDot
  cases ws with
  | nil => exact absurd rfl hne
  | cons d ds =>
    cases ds with
    | nil => exact hrun [d] false h (by simp)
    | cons e ds =>
      rw [List.forall_mem_cons] at h
      have hmantissa : hasOperator false [] [d] = false :=
        hasOperator_digits (List.forall_mem_singleton.mpr h.1) false
      have hfraction := hrun (e :: ds) true h.2 (by simp)
      have hpoint : Continues ('.' :: (e :: ds ++ 'e' :: sign :: Nat.toDigits 10 exponent.natAbs)) :=
        continues_mark (by simp [isMark]) hfraction
      show hasOperator false [] ([d] ++ _) = false
      exact hasOperator_append hmantissa hpoint

/-- A number is shown as a word, as a whole number or by its digits. -/
theorem text_number_cases (x : Float) :
    Number.text x ∈ ["NaN", "Infinity", "-Infinity"] ∨ (∃ n : Int, Number.text x = toString n) ∨
      ∃ negative ws exponent, (∀ c ∈ ws, c.isDigit = true) ∧
        (Number.text x = Number.signed negative (Number.positional ws exponent) ∨
          Number.text x = Number.signed negative (Number.scientific ws exponent)) := by
  unfold Number.text
  split
  · exact .inl (by simp)
  · split
    · split <;> exact .inl (by simp)
    · split
      · exact .inr (.inl ⟨_, rfl⟩)
      · refine .inr (.inr ⟨decide (x < 0.0), (Number.shortest .up x).digits.1,
          (Number.shortest .up x).digits.2, isDigit_digits _, ?_⟩)
        dsimp only
        split
        · exact .inl rfl
        · exact .inr rfl

theorem hasOperator_signed {negative : Bool} {text : List Char}
    (h : (Number.signed negative text).toList.head?.any Char.isDigit = true)
    (htext : text.head?.any Char.isDigit = true → hasOperator false [] text = false) :
    hasOperator false [] (Number.signed negative text).toList = false := by
  rw [Number.signed, String.toList_ofList] at h ⊢
  cases negative with
  | true => simp at h
  | false => exact htext h

/-- A number that begins with a digit has no sign but that of its exponent. -/
theorem hasOperator_number {x : Float} (h : (Number.text x).toList.head?.any Char.isDigit = true) :
    hasOperator false [] (Number.text x).toList = false := by
  obtain hword | ⟨n, htext⟩ | ⟨negative, ws, exponent, hws, htext | htext⟩ := text_number_cases x
  · have hletters : ∀ word ∈ ["NaN", "Infinity", "-Infinity"],
        word.toList.head?.any Char.isDigit = false := by decide
    rw [hletters _ hword] at h
    cases h
  · rw [htext] at h ⊢
    cases n with
    | ofNat n =>
      rw [toList_toString_ofNat]
      exact hasOperator_digits (isDigit_toDigits n) false
    | negSucc n =>
      rw [toList_toString_negSucc] at h
      simp at h
  · rw [htext] at h ⊢
    exact hasOperator_signed h fun _ => hasOperator_positional hws exponent
  · rw [htext] at h ⊢
    refine hasOperator_signed h fun hdigit => hasOperator_scientific hws ?_ exponent
    rintro rfl
    exact absurd hdigit (by simp [Number.scientific])

end Numbers

/-- Text that may be the object of an access step. -/
structure IsObject (text : List Char) : Prop where
  shows : ∃ top, Shows text top ∧ hasOperator false [] top = false
  notInteger : ∃ c ∈ text, c.isDigit = false

theorem IsObject.append (h : IsObject text) (hshows : Shows text' top) (htop : Continues top) :
    IsObject (text ++ text') := by
  obtain ⟨⟨top', hshows', htop'⟩, c, hc, hdigit⟩ := h
  refine ⟨⟨top' ++ top, hshows'.append hshows, hasOperator_append htop' htop⟩, c, ?_, hdigit⟩
  exact List.mem_append_left _ hc

theorem IsObject.isWhole {source : String} (h : IsObject source.toList) : isWhole source = true := by
  obtain ⟨⟨top, ⟨code, hseals, hsurface⟩, htop⟩, c, hc, hdigit⟩ := h
  have hcode : code? source = some code := by
    have hscan := codeFrom?_of_seals hseals []
    rw [List.append_nil] at hscan
    simpa [code?, codeFrom?] using hscan
  have hsurface : surface 0 code = top := by simpa [surface] using hsurface []
  have hdigits : source.toList.all Char.isDigit = false :=
    List.all_eq_false.mpr ⟨c, hc, by simp [hdigit]⟩
  simp only [Script.isWhole, hcode, hsurface, htop, hdigits, Bool.not_false, Bool.and_self]

end Formula.Script
