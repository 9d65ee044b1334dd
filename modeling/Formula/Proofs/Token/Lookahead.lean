import Mathlib
import Formula.Proofs.Token.Layout

/-! How far the reading of a lexeme looks ahead. A space that is put behind a lexeme, or further on,
only changes it where a word becomes an operator or an access mark stands before a digit. -/

namespace Formula.Lexer

variable {a started : Bool} {quote : Char} {xs ys : List Char} {l : Lexeme}

theorem digitsLength_spaced (h : digitsLength started (xs ++ ys) ≤ xs.length) :
    digitsLength started (xs ++ ' ' :: ys) = digitsLength started (xs ++ ys) := by
  induction xs generalizing started with
  | nil => exact (Nat.le_zero.mp h).symm
  | cons c xs ih =>
    rw [List.cons_append, digitsLength] at h
    rw [List.cons_append, List.cons_append, digitsLength, digitsLength]
    by_cases hc : c.isDigit = true
    · rw [if_pos hc] at h ⊢
      rw [if_pos hc, ih (Nat.le_of_succ_le_succ h)]
    · rw [if_neg hc] at h ⊢
      rw [if_neg hc]
      cases xs with
      | nil =>
        -- An underscore at the end of `xs` counts only with a digit of `ys` behind it.
        have hys : ¬(c == '_' && started && startsWithDigit ([] ++ ys)) = true := by
          intro hcond
          rw [if_pos hcond] at h
          cases ys with
          | nil => simp [startsWithDigit] at hcond
          | cons d ys =>
            have hd : d.isDigit = true := by simpa [startsWithDigit] using (Bool.and_eq_true_iff.mp hcond).2
            simp [digitsLength, hd] at h
        have hspace : ¬(c == '_' && started && startsWithDigit ([] ++ ' ' :: ys)) = true := by
          simp [startsWithDigit]
        rw [if_neg hys, if_neg hspace]
      | cons d xs =>
        have hhead : startsWithDigit (d :: xs ++ ' ' :: ys) = startsWithDigit (d :: xs ++ ys) := rfl
        rw [hhead]
        split
        · rename_i hcond
          rw [if_pos hcond] at h
          rw [ih (Nat.le_of_succ_le_succ h)]
        · rfl

theorem fractionLength_spaced (h : fractionLength (xs ++ ys) ≤ xs.length) :
    fractionLength (xs ++ ' ' :: ys) = fractionLength (xs ++ ys) := by
  cases xs with
  | nil => exact (Nat.le_zero.mp h).symm
  | cons c xs =>
    simp only [List.cons_append] at h ⊢
    by_cases hc : c = '.'
    · subst hc
      rw [fractionLength_dot, List.length_cons] at h
      rw [fractionLength_dot, fractionLength_dot, digitsLength_spaced]
      split at h <;> omega
    · rw [fractionLength_of_ne hc, fractionLength_of_ne hc]

theorem signLength_cons_append (c : Char) (cs cs' : List Char) :
    signLength (c :: cs) = signLength (c :: cs') := by
  by_cases hplus : c = '+'
  · simp [signLength, hplus]
  · by_cases hminus : c = '-' <;> simp [signLength, hplus, hminus]

theorem exponentLength_spaced (h : exponentLength (xs ++ ys) ≤ xs.length) :
    exponentLength (xs ++ ' ' :: ys) = exponentLength (xs ++ ys) := by
  match xs with
  | [] => exact (Nat.le_zero.mp h).symm
  | [c] =>
    rw [List.singleton_append, exponentLength_cons, List.length_singleton] at h
    rw [List.singleton_append, List.singleton_append, exponentLength_cons, exponentLength_cons]
    have hnone : ¬((c == 'e' || c == 'E') = true ∧
        digitsLength false (ys.drop (signLength ys)) ≠ 0) := by
      intro hsome
      rw [if_pos hsome] at h
      omega
    rw [if_neg hnone, if_neg (fun hsome => hsome.2 rfl)]
  | c :: d :: xs =>
    have hle : signLength (d :: (xs ++ ys)) ≤ (d :: xs).length := by
      unfold signLength
      split <;> simp
    simp only [List.cons_append, exponentLength_cons,
      signLength_cons_append d (xs ++ ' ' :: ys) (xs ++ ys)] at h ⊢
    generalize signLength (d :: (xs ++ ys)) = sign at h hle ⊢
    have hdrop (zs : List Char) : (d :: (xs ++ zs)).drop sign = (d :: xs).drop sign ++ zs :=
      List.drop_append_of_le_length hle
    rw [hdrop] at h
    rw [hdrop, hdrop]
    by_cases hc : (c == 'e' || c == 'E') = true
    · rw [digitsLength_spaced]
      rw [List.length_drop]
      simp only [hc, true_and, List.length_cons] at h hle ⊢
      split at h <;> omega
    · simp [hc]

theorem drop_spaced {α : Type} {n m : Nat} {as : List α} (h : n + m ≤ as.length) (bs : List α) :
    (as ++ bs).drop n = as.drop n ++ bs ∧ m ≤ (as.drop n).length := by
  rw [List.length_drop]
  exact ⟨List.drop_append_of_le_length (by omega), by omega⟩

/-- A number is not changed by a space behind it, and none comes into being. -/
theorem readNumber?_spaced (h : ∀ l, readNumber? (xs ++ ys) = some l → l.length ≤ xs.length) :
    readNumber? (xs ++ ' ' :: ys) = readNumber? (xs ++ ys) := by
  unfold readNumber? at h ⊢
  dsimp only at h ⊢
  generalize hwhole : digitsLength false (xs ++ ys) = whole at h ⊢
  generalize hfraction : fractionLength ((xs ++ ys).drop whole) = fraction at h ⊢
  have hmantissa (hle : whole + fraction ≤ xs.length) :
      digitsLength false (xs ++ ' ' :: ys) = whole ∧
        fractionLength ((xs ++ ' ' :: ys).drop whole) = fraction := by
    obtain ⟨hdrop, hrest⟩ := drop_spaced hle ys
    rw [digitsLength_spaced (by omega), (drop_spaced hle (' ' :: ys)).1, fractionLength_spaced]
    · rw [← hdrop]
      exact ⟨hwhole, hfraction⟩
    · rwa [← hdrop, hfraction]
  by_cases hnone : whole + fraction = 0
  · obtain ⟨hwhole', hfraction'⟩ := hmantissa (by omega)
    rw [hwhole', hfraction']
    simp [hnone]
  · have hlength : whole + fraction + exponentLength ((xs ++ ys).drop (whole + fraction)) ≤
        xs.length := h _ (if_neg (by simpa using hnone))
    obtain ⟨hwhole', hfraction'⟩ := hmantissa (by omega)
    obtain ⟨hdrop, hrest⟩ := drop_spaced hlength ys
    have hexponent : exponentLength ((xs ++ ' ' :: ys).drop (whole + fraction)) =
        exponentLength ((xs ++ ys).drop (whole + fraction)) := by
      rw [hdrop] at hrest ⊢
      rw [(drop_spaced hlength (' ' :: ys)).1, exponentLength_spaced hrest]
    rw [hwhole', hfraction', hexponent, List.take_append_of_le_length hlength,
      List.take_append_of_le_length hlength]

/-- What ends in `xs` is the same whatever follows, up to the space. -/
theorem takeWhile_spaced {p : Char → Bool} (hp : p ' ' = false)
    (h : ((xs ++ ys).takeWhile p).length ≤ xs.length) :
    (xs ++ ' ' :: ys).takeWhile p = (xs ++ ys).takeWhile p := by
  rw [List.takeWhile_append] at h ⊢
  rw [List.takeWhile_append, List.takeWhile_cons_of_neg (by simp [hp])]
  split
  · rename_i hall
    rw [if_pos hall, List.length_append] at h
    have hnil : ys.takeWhile p = [] := List.eq_nil_of_length_eq_zero (by omega)
    rw [hnil]
  · rfl

theorem readName?_spaced (hne : xs ≠ [])
    (h : ∀ l, readName? (xs ++ ys) = some l → l.length ≤ xs.length) :
    readName? (xs ++ ' ' :: ys) = readName? (xs ++ ys) := by
  obtain ⟨c, xs, rfl⟩ := List.exists_cons_of_ne_nil hne
  rw [List.cons_append, readName?] at h
  rw [List.cons_append, List.cons_append, readName?, readName?]
  split
  · rename_i hc
    have hlength := h _ (if_pos hc)
    simp only [Lexeme.length, List.length_cons, Nat.add_le_add_iff_right] at hlength
    rw [takeWhile_spaced (by decide) hlength]
  · rfl

/-- A text in quotes is read up to the closing quote. -/
theorem readString?_spaced (hquote : quote ≠ '\\') (h : readString? quote (xs ++ ys) = some l)
    (hle : l.length ≤ xs.length + 1) : readString? quote (xs ++ ' ' :: ys) = some l := by
  rw [readString?, Option.map_eq_some_iff] at h
  obtain ⟨⟨s, n⟩, hread, rfl⟩ := h
  obtain ⟨body, rest, htext, rfl, hbody⟩ := quotes_readQuoted? hread
  have hlength : (body ++ [quote]).length ≤ xs.length := by
    simpa [Lexeme.length] using hle
  obtain ⟨tail, rfl⟩ : body ++ [quote] <+: xs :=
    List.prefix_of_prefix_length_le ⟨rest, by simp [htext]⟩ (List.prefix_append xs ys) hlength
  rw [readString?, List.append_assoc, List.append_assoc, List.singleton_append,
    readQuoted?_of_quotes hquote hbody]
  rfl

/-- The marks that are no brackets. -/
def readMark? : List Char → Option Lexeme
  | '?' :: '.' :: rest =>
    some (if startsWithDigit rest then punctuation "?" 1 else punctuation "?." 2)
  | '?' :: '?' :: _ => some (punctuation "??" 2)
  | c :: _ =>
    if c == '.' || c == ',' || c == '?' || c == ':' then some (punctuation c.toString 1) else none
  | [] => none

theorem readSymbol?_eq (a : Bool) (cs : List Char) : readSymbol? a cs =
    ((if a then readName? cs else none) <|> readOperator? cs <|> readMark? cs <|> readName? cs) := rfl

/-- A space before a digit would make `?.` of two lexemes. -/
theorem readMark?_spaced (hne : xs ≠ []) (hdigit : xs = ['?', '.'] → startsWithDigit ys = false)
    (h : ∀ l, readMark? (xs ++ ys) = some l → l.length ≤ xs.length) :
    readMark? (xs ++ ' ' :: ys) = readMark? (xs ++ ys) := by
  match xs with
  | [c] =>
    by_cases hc : c = '?'
    · subst hc
      cases ys with
      | nil => rfl
      | cons d ys =>
        by_cases hdot : d = '.'
        · subst hdot
          have hlength := h _ rfl
          split at hlength
          · rename_i hdigit
            exact congrArg some (if_pos hdigit).symm
          · exact absurd hlength (by decide)
        · by_cases hquestion : d = '?'
          · subst hquestion
            exact absurd (h _ rfl) (by decide)
          · simp [readMark?, hdot, hquestion]
    · simp [readMark?, hc]
  | [c, d] =>
    by_cases hc : c = '?'
    · by_cases hd : d = '.'
      · subst hc hd
        exact congrArg some (if_neg (Bool.eq_false_iff.mp (hdigit rfl))).symm
      · by_cases hd : d = '?' <;> simp [readMark?, *]
    · simp [readMark?, hc]
  | c :: d :: e :: xs =>
    by_cases hc : c = '?'
    · by_cases hd : d = '.'
      · subst hc hd
        rfl
      · by_cases hd : d = '?' <;> simp [readMark?, *]
    · simp [readMark?, hc]

/-- The words that operators begin with. -/
def leadingWords : List String := operatorWords ++ ["starts", "ends"]

theorem operators_leading : ∀ op ∈ operators, isWord op.toList = true →
    String.ofList (op.toList.takeWhile isNameChar) ∈ leadingWords := by
  decide

theorem operators_spaced : ∀ op ∈ operators, ' ' ∈ op.toList → isWord op.toList = true := by
  decide

theorem operators_prefix : ∀ op ∈ operators, ∀ op' ∈ operators, op.toList <+: op'.toList →
    op = op' ∨ isWord op'.toList = false ∨ op = "not" ∧ op' = "not in" := by
  decide

theorem isOperatorAt_iff {cs : List Char} {op : String} : isOperatorAt cs op = true ↔
    ∃ rest, cs = op.toList ++ rest ∧ (isWord op.toList = true → standsAlone rest = true) := by
  unfold isOperatorAt
  split
  · rename_i rest hdrop
    rw [dropLexeme?_eq_some] at hdrop
    subst hdrop
    cases isWord op.toList <;> simp
  · rename_i hdrop
    refine ⟨nofun, ?_⟩
    rintro ⟨rest, hcs, -⟩
    rw [dropLexeme?_eq_some.mpr hcs] at hdrop
    cases hdrop

theorem prefix_of_isOperatorAt {op : String} (h : isOperatorAt (xs ++ ys) op = true)
    (hle : op.toList.length ≤ xs.length) : op.toList <+: xs := by
  obtain ⟨rest, hcs, -⟩ := isOperatorAt_iff.mp h
  exact List.prefix_of_prefix_length_le ⟨rest, hcs.symm⟩ (List.prefix_append xs ys) hle

/-- With a character to spare behind it an operator does not depend on what follows. -/
theorem isOperatorAt_of_lt {zs : List Char} {op : String} (h : isOperatorAt (xs ++ ys) op = true)
    (hlt : op.toList.length < xs.length) : isOperatorAt (xs ++ zs) op = true := by
  obtain ⟨tail, rfl⟩ := prefix_of_isOperatorAt h hlt.le
  rw [isOperatorAt_iff] at h ⊢
  obtain ⟨rest, hcs, halone⟩ := h
  rw [List.append_assoc, List.append_cancel_left_eq] at hcs
  cases tail with
  | nil => simp at hlt
  | cons c tail =>
    refine ⟨c :: tail ++ zs, List.append_assoc _ _ _, fun hword => ?_⟩
    rw [← halone hword, ← hcs]
    rfl

theorem isOperatorAt_spaced {op : String} (h : isOperatorAt (xs ++ ys) op = true)
    (hle : op.toList.length ≤ xs.length) : isOperatorAt (xs ++ ' ' :: ys) op = true := by
  obtain hlt | heq := Nat.lt_or_eq_of_le hle
  · exact isOperatorAt_of_lt h hlt
  · obtain ⟨rest, hcs, -⟩ := isOperatorAt_iff.mp h
    obtain ⟨rfl, -⟩ := List.append_inj hcs heq.symm
    exact isOperatorAt_iff.mpr ⟨' ' :: ys, rfl, fun _ => rfl⟩

/-- An operator that comes into being before a space ends there, or has the space in it. -/
theorem isOperatorAt_of_spaced {op : String} (h : isOperatorAt (xs ++ ' ' :: ys) op = true) :
    isOperatorAt (xs ++ ys) op = true ∨ isWord op.toList = true ∧ op.toList = xs ∨
      ∃ tail, op.toList = xs ++ ' ' :: tail ∧ tail <+: ys := by
  obtain hlt | hle := Nat.lt_or_ge op.toList.length xs.length
  · exact .inl (isOperatorAt_of_lt h hlt)
  · obtain ⟨rest, hcs, -⟩ := isOperatorAt_iff.mp h
    obtain ⟨tail, hop⟩ : xs <+: op.toList :=
      List.prefix_of_prefix_length_le (List.prefix_append xs _) ⟨rest, hcs.symm⟩ hle
    rw [← hop, List.append_assoc, List.append_cancel_left_eq] at hcs
    cases tail with
    | nil =>
      rw [List.append_nil] at hop
      cases hword : isWord op.toList with
      | true => exact .inr (.inl ⟨rfl, hop.symm⟩)
      | false => exact .inl (isOperatorAt_iff.mpr ⟨ys, by rw [hop], by simp [hword]⟩)
    | cons c tail =>
      obtain ⟨rfl, rfl⟩ := List.cons.inj hcs
      exact .inr (.inr ⟨tail, hop.symm, List.prefix_append tail rest⟩)

/-- Only `not in` comes into being where `not` stood. -/
theorem readOperator?_spaced (h : readOperator? (xs ++ ys) = some l) (hle : l.length ≤ xs.length)
    (hnotIn : xs = "not in".toList → isOperatorAt (xs ++ ys) "not in" = true) :
    readOperator? (xs ++ ' ' :: ys) = some l := by
  rw [readOperator?, Option.map_eq_some_iff] at h ⊢
  obtain ⟨op, hfind, rfl⟩ := h
  have hle : op.toList.length ≤ xs.length := String.length_toList ▸ hle
  have hop := List.mem_of_find?_eq_some hfind
  obtain ⟨hat, front, behind, hoperators, hfront⟩ := List.find?_eq_some_iff_append.mp hfind
  refine ⟨op, List.find?_eq_some_iff_append.mpr
    ⟨isOperatorAt_spaced hat hle, front, behind, hoperators, fun op' hop' => ?_⟩, rfl⟩
  have hnone : ¬isOperatorAt (xs ++ ys) op' = true := by simpa using hfront op' hop'
  have hmem : op' ∈ operators := hoperators ▸ List.mem_append_left _ hop'
  -- `op` stands at the head of `xs`, and so begins every operator that does not end in `xs`.
  obtain ⟨rest, hcs, halone⟩ := isOperatorAt_iff.mp hat
  have hprefix := prefix_of_isOperatorAt hat hle
  rw [Bool.not_eq_true', Bool.eq_false_iff]
  intro hspaced
  obtain h | ⟨hword, hxs⟩ | ⟨tail, hxs, htail⟩ := isOperatorAt_of_spaced hspaced
  · exact hnone h
  · obtain rfl | hsymbol | ⟨-, rfl⟩ := operators_prefix op hop op' hmem (hxs ▸ hprefix)
    · exact hnone hat
    · simp [hsymbol] at hword
    · exact hnone (hnotIn hxs.symm)
  · have hbegins : op.toList <+: op'.toList := hxs ▸ hprefix.trans (List.prefix_append xs _)
    obtain rfl | hsymbol | ⟨rfl, rfl⟩ := operators_prefix op hop op' hmem hbegins
    · exact hnone hat
    · have hword := operators_spaced op' hmem (hxs ▸ List.mem_append_right xs List.mem_cons_self)
      simp [hsymbol] at hword
    · -- The text would go on with `in`, and `not` would not stand alone.
      obtain ⟨skipped, rfl⟩ := hprefix
      rw [List.append_assoc, List.append_cancel_left_eq] at hcs
      have hin : ' ' :: "in".toList = skipped ++ ' ' :: tail := by
        rw [List.append_assoc] at hxs
        exact @List.append_cancel_left _ "not".toList _ _ hxs
      cases skipped with
      | nil =>
        obtain ⟨-, rfl⟩ := List.cons.inj hin
        obtain ⟨behind, rfl⟩ := htail
        rw [← hcs] at halone
        exact absurd (halone rfl) (by simp [standsAlone])
      | cons c skipped =>
        obtain ⟨-, hin⟩ := List.cons.inj hin
        have hspace : ' ' ∈ "in".toList := hin ▸ List.mem_append_right skipped List.mem_cons_self
        exact absurd hspace (by decide)

theorem readOperator?_eq_none_spaced
    (hfree : String.ofList ((xs ++ ' ' :: ys).takeWhile isNameChar) ∉ leadingWords)
    (h : readOperator? (xs ++ ys) = none) : readOperator? (xs ++ ' ' :: ys) = none := by
  rw [readOperator?, Option.map_eq_none_iff, List.find?_eq_none] at h ⊢
  intro op hop hspaced
  have hsymbol : ¬isWord op.toList = true := by
    intro hword
    obtain ⟨rest, hcs, halone⟩ := isOperatorAt_iff.mp hspaced
    rw [hcs, takeWhile_word (halone hword)] at hfree
    exact hfree (operators_leading op hop hword)
  obtain hat | ⟨hword, -⟩ | ⟨tail, hxs, -⟩ := isOperatorAt_of_spaced hspaced
  · exact h op hop hat
  · exact hsymbol hword
  · exact hsymbol (operators_spaced op hop (hxs ▸ List.mem_append_right xs List.mem_cons_self))

theorem readName?_eq_some {cs : List Char} (h : readName? cs = some l) :
    l = .token .name (.string (String.ofList (cs.takeWhile isNameChar)))
      (cs.takeWhile isNameChar).length := by
  obtain ⟨c, tail, rfl, hc, rfl⟩ := exists_of_readName? h
  rw [List.takeWhile_cons_of_pos (by simp [isNameChar, hc])]

theorem isNameChar_of_readMark? {c : Char} {cs : List Char} (h : readMark? (c :: cs) = some l) :
    isNameChar c = false := by
  unfold readMark? at h
  split at h
  · rename_i heq
    rw [(List.cons.inj heq).1]
    decide
  · rename_i heq
    rw [(List.cons.inj heq).1]
    decide
  · rename_i heq
    obtain ⟨rfl, rfl⟩ := List.cons.inj heq
    simp only [Option.ite_none_right_eq_some, Bool.or_eq_true, beq_iff_eq] at h
    rcases h.1 with ((rfl | rfl) | rfl) | rfl <;> decide
  · rename_i heq
    cases heq

theorem readSymbol?_spaced (hne : xs ≠ []) (h : readSymbol? a (xs ++ ys) = some l)
    (hle : l.length ≤ xs.length) (hdigit : xs = ['?', '.'] → startsWithDigit ys = false)
    (hnotIn : xs = "not in".toList → isOperatorAt (xs ++ ys) "not in" = true)
    (hfree : a = false → ∀ name n, l = .token .name (.string name) n → name ∉ leadingWords) :
    readSymbol? a (xs ++ ' ' :: ys) = some l := by
  rw [readSymbol?_eq] at h ⊢
  simp only [Option.orElse_eq_orElse, Option.orElse_eq_or, Option.or_eq_some_iff] at h ⊢
  have hname (h : ∀ l', readName? (xs ++ ys) = some l' → l' = l) :
      readName? (xs ++ ' ' :: ys) = readName? (xs ++ ys) :=
    readName?_spaced hne fun l' hl' => h l' hl' ▸ hle
  have hmark (h : ∀ l', readMark? (xs ++ ys) = some l' → l' = l) :
      readMark? (xs ++ ' ' :: ys) = readMark? (xs ++ ys) :=
    readMark?_spaced hne hdigit fun l' hl' => h l' hl' ▸ hle
  have hmember : (if a then readName? (xs ++ ' ' :: ys) else none) =
      if a then readName? (xs ++ ys) else none := by
    cases a with
    | false => rfl
    | true => exact hname fun l' hl' => by simpa [hl'] using h
  rw [hmember]
  rcases h with h | ⟨hnone, hop | ⟨hop, h | ⟨hnomark, h⟩⟩⟩
  · exact .inl h
  · exact .inr ⟨hnone, .inl (readOperator?_spaced hop hle hnotIn)⟩
  · have hfree : String.ofList ((xs ++ ' ' :: ys).takeWhile isNameChar) ∉ leadingWords := by
      obtain ⟨c, xs, rfl⟩ := List.exists_cons_of_ne_nil hne
      rw [List.cons_append, List.takeWhile_cons_of_neg (by simp [isNameChar_of_readMark? h])]
      decide
    have hspaced := hmark fun l' hl' => Option.some_inj.mp (hl'.symm.trans h)
    exact .inr ⟨hnone, .inr ⟨readOperator?_eq_none_spaced hfree hop, .inl (hspaced.trans h)⟩⟩
  · have hspaced := (hname fun l' hl' => Option.some_inj.mp (hl'.symm.trans h)).trans h
    have ha : a = false := by
      cases a with
      | false => rfl
      | true => exact absurd (hnone.symm.trans h) nofun
    have hfree := hfree ha _ _ (readName?_eq_some hspaced)
    have hspaced' := hmark fun l' hl' => absurd (hnomark.symm.trans hl') nofun
    exact .inr ⟨hnone, .inr ⟨readOperator?_eq_none_spaced hfree hop,
      .inr ⟨hspaced'.trans hnomark, hspaced⟩⟩⟩

/-- What is no gap is a number, a bracket, a text in quotes, two backslashes, or a word or a mark. -/
theorem readLexeme?_of_plain {c : Char} {cs : List Char} (hspace : c ≠ ' ')
    (hcomment : c = '/' → cs.head? ≠ some '*') : readLexeme? a (c :: cs) =
      (readNumber? (c :: cs) <|>
        if isOpening c || isClosing c then some (punctuation c.toString 1)
        else if c == '"' || c == '\'' then readString? c cs
        else if c == '\\' && cs.head? == some '\\' then some (punctuation "\\" 2)
        else readSymbol? a (c :: cs)) := by
  unfold readLexeme?
  split
  · rename_i heq
    cases heq
  · rename_i heq
    exact absurd (List.cons.inj heq).1 hspace
  · rename_i heq
    obtain ⟨rfl, rfl⟩ := List.cons.inj heq
    exact absurd rfl (hcomment rfl)
  · rename_i heq
    obtain ⟨rfl, rfl⟩ := List.cons.inj heq
    rfl

/-- No other character comes to the head of a text by a space that is put further on. -/
theorem head?_spaced_ne {c : Char} (hc : c ≠ ' ') (h : (xs ++ ys).head? ≠ some c) :
    (xs ++ ' ' :: ys).head? ≠ some c := by
  cases xs with
  | nil => simpa using hc.symm
  | cons d xs => exact h

/-- A space only parts two backslashes if the first of them is all that stands before it. -/
theorem backslashes_spaced {c : Char}
    (h : xs = [] → ¬(c == '\\' && ys.head? == some '\\') = true) :
    (c == '\\' && (xs ++ ' ' :: ys).head? == some '\\') =
      (c == '\\' && (xs ++ ys).head? == some '\\') := by
  cases xs with
  | nil => simpa using h rfl
  | cons d xs => rfl

/-- A comment without its end mark takes a space behind it in. -/
theorem commentLength_spaced (h : commentLength (xs ++ ys) ≤ xs.length) :
    commentLength (xs ++ ' ' :: ys) = commentLength (xs ++ ys) ∨
      ys = [] ∧ commentLength (xs ++ ys) = xs.length ∧
        commentLength (xs ++ ' ' :: ys) = xs.length + 1 := by
  have hstep {c : Char} {cs : List Char} (hmark : c = '*' → cs.head? ≠ some '/') :
      commentLength (c :: cs) = commentLength cs + 1 :=
    commentLength.eq_3 c cs fun rest hc hcs => hmark hc (by rw [hcs, List.head?_cons])
  induction xs with
  | nil =>
    cases ys with
    | nil => exact .inr ⟨rfl, rfl, rfl⟩
    | cons d ys =>
      unfold commentLength at h
      split at h <;> simp_all
  | cons c xs ih =>
    by_cases hmark : c = '*' ∧ (xs ++ ys).head? = some '/'
    · obtain ⟨rfl, hhead⟩ := hmark
      cases xs with
      | nil =>
        obtain ⟨rest, rfl⟩ := List.head?_eq_some_iff.mp hhead
        exact absurd h (by simp [commentLength])
      | cons d xs =>
        obtain rfl := Option.some_inj.mp hhead
        exact .inl rfl
    · rw [not_and] at hmark
      have hmark' (hc : c = '*') : (xs ++ ' ' :: ys).head? ≠ some '/' :=
        head?_spaced_ne (by decide) (hmark hc)
      rw [List.cons_append, hstep hmark] at h
      rw [List.cons_append, List.cons_append, hstep hmark, hstep hmark']
      simpa using ih (by simpa using h)

theorem readLexeme?_spaced {kind : TokenKind} {value : Value} {n : Nat} (hne : xs ≠ [])
    (h : readLexeme? a (xs ++ ys) = some (.token kind value n)) (hle : n ≤ xs.length)
    (hdigit : xs = ['?', '.'] → startsWithDigit ys = false)
    (hnotIn : xs = "not in".toList → isOperatorAt (xs ++ ys) "not in" = true)
    (hfree : a = false → kind = .name → ∀ name, value = .string name → name ∉ leadingWords) :
    readLexeme? a (xs ++ ' ' :: ys) = some (.token kind value n) := by
  obtain ⟨c, xs, rfl⟩ := List.exists_cons_of_ne_nil hne
  rw [List.cons_append] at h ⊢
  have hspace : c ≠ ' ' := by
    rintro rfl
    cases h
  have hcomment : c = '/' → (xs ++ ys).head? ≠ some '*' := by
    rintro rfl hhead
    obtain ⟨rest, hrest⟩ := List.head?_eq_some_iff.mp hhead
    rw [hrest] at h
    cases h
  have hcomment' (hc : c = '/') : (xs ++ ' ' :: ys).head? ≠ some '*' :=
    head?_spaced_ne (by decide) (hcomment hc)
  rw [readLexeme?_of_plain hspace hcomment] at h
  rw [readLexeme?_of_plain hspace hcomment']
  simp only [Option.orElse_eq_orElse, Option.orElse_eq_or, Option.or_eq_some_iff] at h ⊢
  have hnumber : readNumber? (c :: (xs ++ ' ' :: ys)) = readNumber? (c :: (xs ++ ys)) := by
    rw [← List.cons_append, ← List.cons_append]
    refine readNumber?_spaced fun l' hl' => ?_
    rw [List.cons_append] at hl'
    obtain h | ⟨hnone, -⟩ := h
    · obtain rfl := Option.some_inj.mp (hl'.symm.trans h)
      exact hle
    · exact absurd (hnone.symm.trans hl') nofun
  rw [hnumber]
  refine h.imp_right fun ⟨hnone, h⟩ => ⟨hnone, ?_⟩
  split
  · rename_i hbracket
    rwa [if_pos hbracket] at h
  · rename_i hbracket
    rw [if_neg hbracket] at h
    split
    · rename_i hquote
      rw [if_pos hquote] at h
      refine readString?_spaced ?_ h hle
      rintro rfl
      exact absurd hquote (by decide)
    · rename_i hquote
      rw [if_neg hquote] at h
      have hpair (hxs : xs = []) : ¬(c == '\\' && ys.head? == some '\\') = true := by
        intro hpair
        rw [hxs, List.nil_append, if_pos hpair] at h
        obtain ⟨-, -, rfl⟩ := Lexeme.token.inj (Option.some_inj.mp h)
        simp [hxs] at hle
      rw [backslashes_spaced hpair]
      split
      · rename_i hpair
        rwa [if_pos hpair] at h
      · rename_i hpair
        rw [if_neg hpair] at h
        refine readSymbol?_spaced hne h hle hdigit hnotIn fun ha name n' heq => ?_
        obtain ⟨rfl, rfl, -⟩ := Lexeme.token.inj heq
        exact hfree ha rfl name rfl

theorem eq_of_readLexeme?_gap {c : Char} {cs : List Char} {n : Nat}
    (h : readLexeme? a (c :: cs) = some (.gap n)) : c = ' ' ∨ c = '/' ∧ ∃ rest, cs = '*' :: rest := by
  obtain ⟨gap, rest, hcs, hne, -, hgap | ⟨-, hgap⟩⟩ := begins_readLexeme? h
  all_goals
    cases hgap with
    | nil => exact absurd rfl hne
    | space _ => exact .inl (List.cons.inj hcs).1
    | comment _ _ =>
      obtain ⟨hc, hrest⟩ := List.cons.inj hcs
      exact .inr ⟨hc, _, hrest⟩
    | unclosed _ _ =>
      obtain ⟨hc, hrest⟩ := List.cons.inj hcs
      exact .inr ⟨hc, _, hrest⟩

theorem readLexeme?_gap_spaced {n : Nat} (hne : xs ≠ [])
    (h : readLexeme? a (xs ++ ys) = some (.gap n)) (hle : n ≤ xs.length) :
    readLexeme? a (xs ++ ' ' :: ys) = some (.gap n) ∨
      ys = [] ∧ n = xs.length ∧ readLexeme? a (xs ++ ' ' :: ys) = some (.gap (n + 1)) := by
  obtain ⟨c, xs, rfl⟩ := List.exists_cons_of_ne_nil hne
  obtain rfl | ⟨rfl, rest, hrest⟩ := eq_of_readLexeme?_gap h
  · exact .inl h
  · cases xs with
    | nil =>
      obtain rfl : ys = '*' :: rest := hrest
      obtain rfl := Lexeme.gap.inj (Option.some_inj.mp h)
      simp at hle
    | cons d xs =>
      obtain ⟨rfl, -⟩ := List.cons.inj hrest
      obtain rfl : commentLength (xs ++ ys) + 2 = n := Lexeme.gap.inj (Option.some_inj.mp h)
      have hle : commentLength (xs ++ ys) ≤ xs.length := by simpa using hle
      obtain hlength | ⟨rfl, hlength, hspaced⟩ := commentLength_spaced hle
      · exact .inl (congrArg (fun k => some (Lexeme.gap (k + 2))) hlength)
      · refine .inr ⟨rfl, congrArg (· + 2) hlength, ?_⟩
        rw [hlength]
        exact congrArg (fun k => some (Lexeme.gap (k + 2))) hspaced

end Formula.Lexer
