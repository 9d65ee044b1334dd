import Mathlib
import Formula.Proofs.Token.Reading
import Formula.Proofs.Token.Scanned

/-! How far the lexeme of a number extends, and what a whole number is read as. -/

namespace Formula
namespace Lexer

/-- The longest text with a property that `cs` begins with. -/
structure IsLongest (P : List Char → Prop) (lexeme cs : List Char) : Prop where
  begins : lexeme <+: cs
  holds : P lexeme
  length_le : ∀ other, other <+: cs → P other → other.length ≤ lexeme.length

/-- The number that the digits of a text denote. -/
def denoted (cs : List Char) : Nat :=
  Nat.ofDigits 10 ((cs.filter Char.isDigit).map Number.digitValue).reverse

/-- A whole number is kept as it is if 64 bits hold it, and becomes a float if not. -/
def IsWorth (n : Nat) (value : Value) : Prop :=
  if n ≤ 9223372036854775807 then ∃ i : Int64, value = .int i ∧ i.toInt = n
  else value = .float (Number.nearest n 0)

/-- A text from `cursor` on, taken apart at the lexeme of a token; `after` is scanned behind that. -/
structure Parts (cursor : Nat) (cs : List Char) (t : Token) (after : List Token)
    (front lexeme rest : List Char) : Prop where
  eq_append : cs = front ++ (lexeme ++ rest)
  cursor_eq : t.cursor = cursor + front.length
  read : ∃ a, readLexeme? a (lexeme ++ rest) = some (.token t.kind t.value lexeme.length)
  scanned : ∃ brackets,
    scan (t.cursor + lexeme.length) brackets (isAccess t.kind t.value) 0 rest = .ok after

variable {a : Bool} {cursor : Nat} {brackets : Brackets} {kind : TokenKind} {value : Value}
  {cs ds lexeme rest : List Char} {n : Nat} {t : Token} {before after : List Token} {l : Lexeme}

/-! The value of a whole number. -/

theorem IsDigits.forall_mem (h : IsDigits ds) : ∀ c ∈ ds, c.isDigit = true ∨ c = '_' := by
  induction h with
  | last hd => exact List.forall_mem_singleton.mpr (.inl hd)
  | next hd _ ih => exact List.forall_mem_cons.mpr ⟨.inl hd, ih⟩
  | separated hd _ ih =>
    exact List.forall_mem_cons.mpr ⟨.inl hd, List.forall_mem_cons.mpr ⟨.inr rfl, ih⟩⟩

theorem IsDigits.filter_eq (h : IsDigits ds) : ds.filter (· != '_') = ds.filter Char.isDigit := by
  refine List.filter_congr fun c hc => ?_
  rcases h.forall_mem c hc with hdigit | rfl
  · rw [hdigit, bne_iff_ne]
    rintro rfl
    exact absurd hdigit (by decide)
  · rfl

theorem IsDigits.filter_ne_nil (h : IsDigits ds) : ds.filter Char.isDigit ≠ [] := by
  cases h <;> rw [List.filter_cons_of_pos ‹_›] <;> exact List.cons_ne_nil _ _

theorem natOfDigits_eq (cs : List Char) :
    Number.natOfDigits cs = Nat.ofDigits 10 (cs.map Number.digitValue).reverse := by
  rw [Nat.ofDigits_eq_foldr, List.foldr_reverse, List.foldl_map, Number.natOfDigits]
  congr 1
  funext n c
  simp [add_comm]

theorem readDecimal?_digits (hne : ds ≠ []) (h : ∀ c ∈ ds, c.isDigit = true) :
    Number.readDecimal? ds = some (Number.nearest (Number.natOfDigits ds) 0) := by
  have hsign : Number.splitSign ds = (false, ds) := by
    obtain ⟨d, ds, rfl⟩ := List.exists_cons_of_ne_nil hne
    have hd := h d List.mem_cons_self
    unfold Number.splitSign
    split
    · rename_i heq
      obtain ⟨rfl, -⟩ := List.cons.inj heq
      exact absurd hd (by decide)
    · rename_i heq
      obtain ⟨rfl, -⟩ := List.cons.inj heq
      exact absurd hd (by decide)
    · rfl
  have htake : ds.takeWhile Char.isDigit = ds := List.takeWhile_eq_self_iff.mpr h
  have hdrop : ds.dropWhile Char.isDigit = [] := List.dropWhile_eq_nil_iff.mpr h
  simp [Number.readDecimal?, hsign, Number.readUnsigned?, htake, hdrop, hne, Number.readExponent?]

theorem isWorth_numberValue (h : IsDigits ds) : IsWorth (denoted ds) (numberValue true ds) := by
  have hdigits : ∀ c ∈ ds.filter Char.isDigit, c.isDigit = true := fun c hc => (List.mem_filter.mp hc).2
  have hfloat := readDecimal?_digits h.filter_ne_nil hdigits
  unfold IsWorth denoted numberValue
  simp only [h.filter_eq, hfloat, ← natOfDigits_eq, if_true, Option.getD_some]
  generalize Number.natOfDigits (ds.filter Char.isDigit) = n
  split
  · rename_i hle
    obtain ⟨i, hi⟩ : ∃ i, Number.int64? n = some i := by
      rw [Number.int64?, if_pos (by simp; omega)]
      exact ⟨_, rfl⟩
    exact ⟨i, by rw [hi]; rfl, Number.toInt_of_int64? hi⟩
  · rename_i hlt
    have hnone : Number.int64? n = none := by
      rw [Number.int64?, if_neg (by simp; omega)]
    rw [hnone]
    rfl

/-! The lexeme of a number. -/

/-- What is read as a number is the longest number literal that stands there. -/
theorem exists_isLongest_of_readNumber?
    (h : readNumber? (lexeme ++ rest) = some (.token kind value lexeme.length)) :
    ∃ isWhole, value = numberValue isWhole lexeme ∧ IsNumeral isWhole lexeme ∧
      IsLongest (fun cs => ∃ isWhole, IsNumeral isWhole cs) lexeme (lexeme ++ rest) := by
  obtain ⟨isWhole, n, hl, hnumeral⟩ := exists_isNumeral_of_readNumber? h
  obtain ⟨-, rfl, rfl⟩ := Lexeme.token.inj hl
  rw [List.take_left] at hnumeral ⊢
  refine ⟨isWhole, rfl, hnumeral, List.prefix_append _ _, ⟨isWhole, hnumeral⟩, ?_⟩
  rintro other ⟨rest', hother⟩ ⟨isWhole', hform⟩
  obtain ⟨value, n, hread, hle⟩ := hform.exists_readNumber? rest'
  rw [hother, h, Option.some_inj] at hread
  obtain ⟨-, -, rfl⟩ := Lexeme.token.inj hread
  exact hle

theorem Parts.widen {front : List Char} (gap : List Char)
    (h : Parts (cursor + gap.length) cs t after front lexeme rest) :
    Parts cursor (gap ++ cs) t after (gap ++ front) lexeme rest where
  eq_append := by rw [h.eq_append, List.append_assoc]
  cursor_eq := by rw [h.cursor_eq, List.length_append, Nat.add_assoc]
  read := h.read
  scanned := h.scanned

/-- A token stands in the text where a lexeme is read, and the scan goes on behind that. -/
theorem exists_parts_of_scan (h : scan cursor brackets a 0 cs = .ok (before ++ t :: after))
    (hkind : t.kind ≠ .ending) : ∃ front lexeme rest, Parts cursor cs t after front lexeme rest := by
  -- The induction is on the length of the text, as a lexeme is left behind as a whole.
  induction hn : cs.length using Nat.strongRecOn generalizing cursor brackets a cs before with
  | _ n ih =>
    subst hn
    cases cs with
    | nil =>
      cases brackets with
      | nil =>
        have hmem : t ∈ [Token.ending cursor] := by
          rw [Except.ok.inj h]
          exact List.mem_append_right before List.mem_cons_self
        obtain rfl := List.mem_singleton.mp hmem
        exact absurd rfl hkind
      | cons _ _ => cases h
    | cons c cs =>
      obtain hread | ⟨skipped, rest, rfl, hread⟩ := readLexeme?_cases a c cs
      · rw [scan_of_none hread] at h
        cases h
      have hlt : rest.length < (c :: (skipped ++ rest)).length := by simp
      obtain hread | ⟨kind, value, hread⟩ := hread
      · rw [scan_of_gap hread] at h
        obtain ⟨front, lexeme, rest', hparts⟩ := ih _ hlt h rfl
        exact ⟨_, lexeme, rest', hparts.widen (c :: skipped)⟩
      · obtain ⟨opened, ts, -, hscan, hts⟩ := exists_scan_of_token hread h
        cases before with
        | nil =>
          obtain ⟨rfl, rfl⟩ := List.cons.inj hts
          exact ⟨[], c :: skipped, rest, rfl, rfl, ⟨a, hread⟩, opened, hscan⟩
        | cons t' before =>
          obtain ⟨-, rfl⟩ := List.cons.inj hts
          obtain ⟨front, lexeme, rest', hparts⟩ := ih _ hlt hscan rfl
          exact ⟨_, lexeme, rest', hparts.widen (c :: skipped)⟩

/-- A text of digits is one token. -/
theorem exists_tokenize_of_isDigits {text : String} (h : IsDigits text.toList) :
    ∃ stream, tokenize text = .ok stream ∧
      stream.tokens = [⟨.number, numberValue true text.toList, 1⟩, Token.ending (text.length + 1)] := by
  have hnormal := h.map_normalize
  have hend : EndsNumeral [] := ⟨⟨rfl, rfl⟩, rfl⟩
  have hread := readLexeme?_of_isNumeral (.mantissa (.whole h)) hend false
  have hlength : text.length + 1 = 1 + text.toList.length := by
    rw [String.length_toList, Nat.add_comm]
  obtain ⟨c, skipped, hcs⟩ := List.exists_cons_of_ne_nil h.ne_nil
  have htrack : track 1 c [] = .ok [] := by
    have hdigit : c.isDigit = true := by
      rw [hcs] at h
      exact h.startsWithDigit []
    have hne := forall_ne_of_all hdigit
      (show ['(', '[', '{', ')', ']', '}'].all (!Char.isDigit ·) = true by decide)
    simp only [List.mem_cons, List.not_mem_nil, or_false, forall_eq_or_imp, forall_eq] at hne
    exact track_of_plain (by simp [isOpening, hne]) (by simp [isClosing, hne])
  rw [hcs] at hread
  have hscan : scan 1 [] false 0 (text.toList.map normalize) =
      .ok [⟨.number, numberValue true text.toList, 1⟩, Token.ending (text.length + 1)] := by
    rw [hnormal, hlength, hcs, ← List.append_nil skipped, scan_of_token hread, htrack, List.append_nil]
    rfl
  exact ⟨_, by rw [tokenize, hscan], TokenStream.tokens_ofTokens rfl⟩

/-- Digits alone are one whole number, which is read exactly. In any text a number takes the longest
literal that stands at its place, and the other tokens lie behind that. -/
theorem tokenize_numerals :
    (∀ text : String, IsDigits text.toList → ∃ stream value, tokenize text = .ok stream ∧
      stream.tokens = [⟨.number, value, 1⟩, Token.ending (text.length + 1)] ∧
      IsWorth (denoted text.toList) value) ∧
    ∀ text stream before t after, tokenize text = .ok stream →
      stream.tokens = before ++ t :: after → t.kind = .number →
        ∃ front lexeme rest isWhole, text.toList.map normalize = front ++ (lexeme ++ rest) ∧
          t.cursor = front.length + 1 ∧ Covers (t.cursor + lexeme.length) rest after ∧
          IsNumeral isWhole lexeme ∧ t.value = numberValue isWhole lexeme ∧
          (isWhole = true → IsWorth (denoted lexeme) t.value) ∧
          IsLongest (fun cs => ∃ isWhole, IsNumeral isWhole cs) lexeme (lexeme ++ rest) := by
  refine ⟨fun text htext => ?_, fun text stream before t after htokens hsplit hkind => ?_⟩
  · obtain ⟨stream, hstream, htokens⟩ := exists_tokenize_of_isDigits htext
    exact ⟨stream, _, hstream, htokens, isWorth_numberValue htext⟩
  · have hscan := (scan_of_tokenize htokens).1
    rw [hsplit] at hscan
    obtain ⟨front, lexeme, rest, hcs, hcursor, ⟨a, hread⟩, brackets, hafter⟩ :=
      exists_parts_of_scan hscan (by simp [hkind])
    rw [hkind] at hread
    obtain ⟨isWhole, hvalue, hnumeral, hlongest⟩ :=
      exists_isLongest_of_readNumber? (readNumber?_of_readLexeme? hread)
    refine ⟨front, lexeme, rest, isWhole, hcs, by omega, covers_scan hafter, hnumeral, hvalue,
      ?_, hlongest⟩
    rintro rfl
    cases hnumeral with
    | mantissa hms =>
      cases hms with
      | whole hds => exact hvalue ▸ isWorth_numberValue hds

theorem tokenize_numerals_backtracking : IsDigits "0_9223372036854775808".toList ∧
    (∃ stream value, tokenize "0_9223372036854775808" = .ok stream ∧
      stream.tokens = [⟨.number, value, 1⟩, Token.ending 22] ∧ IsWorth 9223372036854775808 value) ∧
    ∃ stream value after, tokenize "1_0..2.5e+a" = .ok stream ∧
      stream.tokens = [⟨.number, .int 10, 1⟩, ⟨.operator, .string "..", 4⟩] ++
        ⟨.number, value, 6⟩ :: after ∧
      ∃ front lexeme rest isWhole, "1_0..2.5e+a".toList.map normalize = front ++ (lexeme ++ rest) ∧
        6 = front.length + 1 ∧ Covers (6 + lexeme.length) rest after ∧ IsNumeral isWhole lexeme ∧
        value = numberValue isWhole lexeme ∧ (isWhole = true → IsWorth (denoted lexeme) value) ∧
        IsLongest (fun cs => ∃ isWhole, IsNumeral isWhole cs) lexeme (lexeme ++ rest) := by
  have hlast : IsDigits "9223372036854775808".toList :=
    isDigits_of_forall (by decide) (List.all_eq_true.mp (by decide))
  have hdigits : IsDigits "0_9223372036854775808".toList := .separated rfl hlast
  obtain ⟨hwhole, hlexeme⟩ := tokenize_numerals
  obtain ⟨stream, value, hstream, htokens, hvalue⟩ := hwhole _ hdigits
  have hlength : "0_9223372036854775808".length + 1 = 22 := by cbv
  have hdenoted : denoted "0_9223372036854775808".toList = 9223372036854775808 := by cbv
  rw [hlength] at htokens
  rw [hdenoted] at hvalue
  have hten : numberValue true ['1', '_', '0'] = .int 10 := by
    simp [numberValue, Number.natOfDigits, Number.digitValue, Number.int64?]
  have h : tokenize "1_0..2.5e+a" = .ok ⟨"1_0..2.5e+a", [],
      ⟨.number, numberValue true ['1', '_', '0'], 1⟩,
      [⟨.operator, .string "..", 4⟩, ⟨.number, numberValue false ['2', '.', '5'], 6⟩,
        ⟨.name, .string "e", 9⟩, ⟨.operator, .string "+", 10⟩, ⟨.name, .string "a", 11⟩,
        Token.ending 12]⟩ := rfl
  rw [hten] at h
  exact ⟨hdigits, ⟨stream, value, hstream, htokens, hvalue⟩, _, _, _, h, rfl,
    hlexeme _ _ [⟨.number, .int 10, 1⟩, ⟨.operator, .string "..", 4⟩] _ _ h rfl rfl⟩

end Lexer
end Formula
