import Mathlib
import Formula.Parsing
import Formula.Script

/-! String literals as strict code of JavaScript reads them. Every string is written as a literal of
that string, unless a digit stands behind a null character in it. -/

namespace Formula
namespace Script

/-- The escapes of one letter that are written, with what they mean. -/
def escapes : List (Char × Char) := [('"', '"'), ('\\', '\\'), ('t', '\t'), ('n', '\n'), ('r', '\r')]

/-- Behind the opening quote of a literal of `value`, up to the quote that closes it before `rest`. A
zero behind a backslash is an escape only where no digit follows. -/
inductive Closes (rest : List Char) : List Char → List Char → Prop
  | quote : Closes rest ('"' :: rest) []
  | plain {c text value} (hc : c ∉ ['"', '\\', '\n', '\r']) (h : Closes rest text value) :
      Closes rest (c :: text) (c :: value)
  | escape {e c text value} (he : (e, c) ∈ escapes) (h : Closes rest text value) :
      Closes rest ('\\' :: e :: text) (c :: value)
  | null {text value} (hd : ∀ d ∈ text.head?, d.isDigit = false) (h : Closes rest text value) :
      Closes rest ('\\' :: '0' :: text) ('\x00' :: value)

/-- A text begins with a literal of `value`, and `rest` stands behind it. -/
def BeginsLiteral (text : List Char) (value : String) (rest : List Char) : Prop :=
  ∃ cs, text = '"' :: cs ∧ Closes rest cs value.toList

variable {c e : Char} {cs text value rest rest' : List Char}

theorem closes_quote_iff : Closes rest ('"' :: text) value ↔ value = [] ∧ rest = text := by
  constructor
  · intro h
    cases h with
    | quote => exact ⟨rfl, rfl⟩
    | plain hc _ => simp at hc
  · rintro ⟨rfl, rfl⟩
    exact .quote

theorem closes_plain_iff (hc : c ∉ ['"', '\\', '\n', '\r']) :
    Closes rest (c :: text) value ↔ ∃ v, value = c :: v ∧ Closes rest text v := by
  constructor
  · intro h
    cases h with
    | plain _ h => exact ⟨_, rfl, h⟩
    | _ => simp at hc
  · rintro ⟨v, rfl, h⟩
    exact .plain hc h

theorem closes_escape_iff (he : (e, c) ∈ escapes) :
    Closes rest ('\\' :: e :: text) value ↔ ∃ v, value = c :: v ∧ Closes rest text v := by
  constructor
  · intro h
    cases h with
    | plain hc _ => simp at hc
    | escape he' h =>
      have hsame : ∀ p ∈ escapes, ∀ q ∈ escapes, p.1 = q.1 → p = q := by decide
      obtain ⟨-, rfl⟩ := Prod.mk.inj (hsame _ he _ he' rfl)
      exact ⟨_, rfl, h⟩
    | null _ _ => exact absurd he (by simp [escapes])
  · rintro ⟨v, rfl, h⟩
    exact .escape he h

theorem closes_null_iff : Closes rest ('\\' :: '0' :: text) value ↔
    (∀ d ∈ text.head?, d.isDigit = false) ∧ ∃ v, value = '\x00' :: v ∧ Closes rest text v := by
  constructor
  · intro h
    cases h with
    | plain hc _ => simp at hc
    | escape he _ => exact absurd he (by simp [escapes])
    | null hd h => exact ⟨hd, _, rfl, h⟩
  · rintro ⟨hd, v, rfl, h⟩
    exact .null hd h

/-- No digit stands behind a null character. -/
def PartsNull (cs : List Char) : Prop := ∀ d : Char, d.isDigit = true → ¬['\x00', d] <:+: cs

theorem partsNull_nil : PartsNull [] := by simp [PartsNull]

theorem partsNull_cons : PartsNull (c :: cs) ↔
    (c = '\x00' → ∀ d ∈ cs.head?, d.isDigit = false) ∧ PartsNull cs := by
  have hprefix (d : Char) : ['\x00', d] <+: c :: cs ↔ c = '\x00' ∧ d ∈ cs.head? := by
    cases cs with
    | nil => simp
    | cons c' cs => simp [List.cons_prefix_cons, eq_comm]
  simp only [PartsNull, List.infix_cons_iff, hprefix, not_or, not_and]
  grind

theorem partsNull_of_ne (hc : c ≠ '\x00') : PartsNull (c :: cs) ↔ PartsNull cs := by
  simp [partsNull_cons, hc]

/-- A character is written as a digit only if it is one. -/
theorem head?_quotedChars : (∀ d ∈ (quotedChars cs ++ rest).head?, d.isDigit = false) ↔
    ∀ d ∈ cs.head?, d.isDigit = false := by
  fun_cases quotedChars cs <;> simp

theorem closes_escaped_iff (he : (e, c) ∈ escapes)
    (ih : ∀ {value}, Closes rest' (quotedChars cs ++ rest) value ↔
      value = cs ∧ rest' = rest ∧ PartsNull cs) :
    Closes rest' ('\\' :: e :: quotedChars cs ++ rest) value ↔
      value = c :: cs ∧ rest' = rest ∧ PartsNull (c :: cs) := by
  have hnull : ∀ p ∈ escapes, p.2 ≠ '\x00' := by decide
  rw [List.cons_append, List.cons_append, closes_escape_iff he, partsNull_of_ne (hnull _ he)]
  simp only [ih]
  grind

theorem closes_quotedChars_iff : Closes rest' (quotedChars cs ++ rest) value ↔
    value = cs ∧ rest' = rest ∧ PartsNull cs := by
  fun_induction quotedChars cs generalizing value with
  | case1 => simp [closes_quote_iff, partsNull_nil]
  | case4 cs ih =>
    rw [List.cons_append, List.cons_append, closes_null_iff, head?_quotedChars, partsNull_cons]
    simp only [ih]
    grind
  | case8 c cs hquote hbackslash hnull htab hline hreturn ih =>
    have hc : c ∉ ['"', '\\', '\n', '\r'] := by simp_all
    rw [List.cons_append, closes_plain_iff hc, partsNull_of_ne hnull]
    simp only [ih]
    grind
  | _ cs ih => exact closes_escaped_iff (by decide) ih

/-- What is written for a string is, whatever stands behind it, one literal of this string and of no
other, exactly if no digit stands behind a null character. -/
theorem beginsLiteral_quoted_iff (s value : String) (rest rest' : List Char) :
    BeginsLiteral ((quoted s).toList ++ rest) value rest' ↔
      value = s ∧ rest' = rest ∧ PartsNull s.toList := by
  have hopen : BeginsLiteral ((quoted s).toList ++ rest) value rest' ↔
      Closes rest' (quotedChars s.toList ++ rest) value.toList := by
    simp [BeginsLiteral, quoted]
  rw [hopen, closes_quotedChars_iff, String.toList_inj]

/-- A null character before a digit is written as `\01`, which is no escape: the text of the
expression has a value, and its script begins with no literal at all. -/
theorem not_beginsLiteral_nullDigit :
    let functions := Registry.withBuiltins none
    let literal := Expr.literal (.string "\x001")
    parseText (.ofVariables functions.names (some []) {}) "\"\x001\"" = .ok literal ∧
    literal.script functions = "\"\\01\"" ∧
    ¬∃ value rest, BeginsLiteral (literal.script functions).toList value rest := by
  intro functions literal
  refine ⟨by cbv, by cbv, ?_⟩
  rintro ⟨value, rest, cs, hcs, hcloses⟩
  have hscript : (literal.script functions).toList =
      '"' :: (quotedChars ['\x00', '1'] ++ []) := by cbv
  obtain rfl := (List.cons.inj (hscript.symm.trans hcs)).2
  have hparts : PartsNull ['\x00', '1'] := (closes_quotedChars_iff.mp hcloses).2.2
  exact hparts '1' (by decide) (List.infix_refl _)

end Script
end Formula
