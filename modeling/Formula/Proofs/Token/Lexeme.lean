import Formula.Expr.Source
import Formula.Proofs.Token.Numeral
import Formula.Proofs.Token.Scanning

/-! Single lexemes: names, words and symbols that are operators, marks, numbers and texts in quotes,
each in front of what may follow it. -/

namespace Formula.Lexer

/-- The second text, spelled between quotes. A backslash hides the quote and another backslash, and
stands for itself before anything else. -/
inductive Quotes (quote : Char) : List Char → List Char → Prop
  | nil : Quotes quote [] []
  | plain {c cs s} : c ≠ quote → c ≠ '\\' → Quotes quote cs s → Quotes quote (c :: cs) (c :: s)
  | escaped {c cs s} : c = quote ∨ c = '\\' → Quotes quote cs s →
      Quotes quote ('\\' :: c :: cs) (c :: s)
  | kept {c cs s} : c ≠ quote → c ≠ '\\' → Quotes quote cs s →
      Quotes quote ('\\' :: c :: cs) ('\\' :: c :: s)

variable {a : Bool} {rest : List Char}

/-- Whether a name or a word that is an operator cannot go on with `rest`. -/
def endsName : List Char → Bool
  | [] => true
  | ' ' :: 'w' :: _ => false
  | c :: _ => !isNameChar c

def endsNumber : List Char → Bool
  | [] => true
  | c :: _ => !isNameChar c && c != '.'

theorem forall_ne_of_all {p : Char → Bool} {c : Char} (hc : p c = true) {cs : List Char}
    (hcs : cs.all (!p ·) = true) : ∀ c' ∈ cs, c ≠ c' := by
  rintro c' hc' rfl
  have hnot := List.all_eq_true.mp hcs c hc'
  simp [hc] at hnot

theorem takeWhile_append_of_endsName {name rest : List Char}
    (hname : ∀ c ∈ name, isNameChar c = true) (hrest : endsName rest = true) :
    (name ++ rest).takeWhile isNameChar = name := by
  have hnil : rest.takeWhile isNameChar = [] := by
    unfold endsName at hrest
    split at hrest
    · rfl
    · exact absurd hrest (by decide)
    · rw [List.takeWhile_cons_of_neg (by simpa using hrest)]
  rw [List.takeWhile_append_of_pos hname, hnil, List.append_nil]

theorem dropLexeme?_eq_some {l cs r : List Char} : dropLexeme? l cs = some r ↔ cs = l ++ r := by
  induction l generalizing cs with
  | nil => simp [dropLexeme?, eq_comm]
  | cons c l ih =>
    cases cs with
    | nil => simp [dropLexeme?]
    | cons c' cs =>
      by_cases hc : c = c'
      · simp [dropLexeme?, hc, ih]
      · simp [dropLexeme?, hc, Ne.symm hc]

/-- Operators that could be names. -/
def operatorWords : List String := ["and", "or", "xor", "not", "in", "matches", "contains"]

theorem operators_word : ∀ op ∈ operators, isWord op.toList = true →
    String.ofList (op.toList.takeWhile isNameChar) ∈ operatorWords ∨
      op.toList.dropWhile isNameChar = [' ', 'w', 'i', 't', 'h'] := by
  decide

theorem operators_symbol : ∀ op ∈ operators, isWord op.toList = false →
    op.toList.head?.any isNameStart = false ∧ op.toList ≠ [] := by
  decide

/-- A word that is an operator ends where a name would end. -/
theorem takeWhile_word {l r : List Char} (h : standsAlone r = true) :
    (l ++ r).takeWhile isNameChar = l.takeWhile isNameChar := by
  have hr : r.takeWhile isNameChar = [] := by
    unfold standsAlone at h
    split at h
    · simp only [Bool.or_eq_true, beq_iff_eq] at h
      rcases h with rfl | rfl <;> rfl
    · rfl
  induction l with
  | nil => exact hr
  | cons c l ih => by_cases hc : isNameChar c = true <;> simp [hc, ih]

theorem isOperatorAt_name {name rest : List Char} (hname : ∀ c ∈ name, isNameChar c = true)
    (hstart : name.head?.any isNameStart = true) (hfree : String.ofList name ∉ operatorWords)
    (hrest : endsName rest = true) : ∀ op ∈ operators, ¬ isOperatorAt (name ++ rest) op = true := by
  intro op hop hat
  unfold isOperatorAt at hat
  split at hat
  · rename_i r hdrop
    rw [dropLexeme?_eq_some] at hdrop
    cases hword : isWord op.toList with
    | false =>
      obtain ⟨hsymbol, hne⟩ := operators_symbol op hop hword
      obtain ⟨c, cs, rfl⟩ : ∃ c cs, name = c :: cs :=
        List.exists_cons_of_ne_nil (by rintro rfl; simp at hstart)
      obtain ⟨c', cs', hcons⟩ := List.exists_cons_of_ne_nil hne
      rw [hcons, List.cons_append, List.cons_append, List.cons.injEq] at hdrop
      rw [hcons, ← hdrop.1] at hsymbol
      simp only [List.head?_cons, Option.any_some] at hstart hsymbol
      simp [hstart] at hsymbol
    | true =>
      have hr : standsAlone r = true := by simpa [hword] using hat
      have htake := congrArg (List.takeWhile isNameChar) hdrop
      rw [takeWhile_append_of_endsName hname hrest, takeWhile_word hr] at htake
      rcases operators_word op hop hword with hreserved | hwith
      · exact hfree (htake ▸ hreserved)
      · have hparts := List.takeWhile_append_dropWhile (p := isNameChar) (l := op.toList)
        rw [← hparts, ← htake, hwith, List.append_assoc] at hdrop
        rw [List.append_cancel_left hdrop] at hrest
        exact absurd hrest (by simp [endsName])
  · exact absurd hat (by simp)

theorem isDigit_of_isNameStart {c : Char} (h : isNameStart c = true) : c.isDigit = false := by
  have hupper : c.isUpper = decide ('A'.val ≤ c.val ∧ c.val ≤ 'Z'.val) := rfl
  have hlower : c.isLower = (decide ('a'.val ≤ c.val) && decide (c.val ≤ 'z'.val)) := rfl
  have halpha : c.isAlpha = (c.isUpper || c.isLower) := rfl
  simp only [isNameStart, halpha, hupper, hlower, Char.isDigit, Bool.or_eq_true,
    Bool.and_eq_true, decide_eq_true_eq, beq_iff_eq, Bool.and_eq_false_iff, decide_eq_false_iff_not,
    Char.le_def, Char.ext_iff, UInt32.le_iff_toNat_le, ← UInt32.toNat_inj] at h ⊢
  -- The ranges of letters and of digits do not meet.
  have h0 : '0'.val.toNat = 48 := rfl
  have h9 : '9'.val.toNat = 57 := rfl
  have hA : 'A'.val.toNat = 65 := rfl
  have ha : 'a'.val.toNat = 97 := rfl
  have hu : '_'.val.toNat = 95 := rfl
  have hd : '\x7f'.val.toNat = 127 := rfl
  omega

theorem readLexeme?_of_isNameStart {c : Char} (h : isNameStart c = true) (a : Bool) (cs : List Char) :
    readLexeme? a (c :: cs) = readSymbol? a (c :: cs) := by
  have hdigit := isDigit_of_isNameStart h
  have hne := forall_ne_of_all h
    (show [' ', '/', '.', '(', ')', '[', ']', '{', '}', '"', '\'', '\\'].all (!isNameStart ·) = true by
      decide)
  simp only [List.mem_cons, List.not_mem_nil, or_false, forall_eq_or_imp, forall_eq] at hne
  have hnumber : readNumber? (c :: cs) = none := by
    simp [readNumber?, digitsLength, hdigit, fractionLength, hne]
  simp [readLexeme?, hnumber, isOpening, isClosing, hne]

theorem toList_of_isIdentifier {name : String} (h : Parsing.isIdentifier name = true) :
    ∃ c cs, name.toList = c :: cs ∧ isNameStart c = true ∧ ∀ c ∈ cs, isNameChar c = true := by
  unfold Parsing.isIdentifier at h
  split at h
  · exact absurd h (by decide)
  · rename_i c cs heq
    rw [Bool.and_eq_true, List.all_eq_true] at h
    exact ⟨c, cs, heq, h.1, h.2⟩

theorem normalize_of_isNameChar {c : Char} (h : isNameChar c = true) : normalize c = c := by
  have hne := forall_ne_of_all h (show ['\r', '\n', '\t', '\x0b', '\x0c'].all (!isNameChar ·) = true by
    decide)
  simp only [List.mem_cons, List.not_mem_nil, or_false, forall_eq_or_imp, forall_eq] at hne
  simp [normalize, hne]

theorem map_normalize_of_isNameChar {cs : List Char} (h : ∀ c ∈ cs, isNameChar c = true) :
    cs.map normalize = cs :=
  (List.map_congr_left fun c hc => normalize_of_isNameChar (h c hc)).trans (List.map_id _)

theorem readSymbol?_name {c : Char} {cs : List Char} (hc : isNameStart c = true)
    (hcs : ∀ c ∈ cs, isNameChar c = true) (hfree : a = true ∨ String.ofList (c :: cs) ∉ operatorWords)
    (hrest : endsName rest = true) : readSymbol? a (c :: cs ++ rest) =
      some (.token .name (.string (String.ofList (c :: cs))) (cs.length + 1)) := by
  have hchar : isNameChar c = true := by simp [isNameChar, hc]
  have hname : readName? (c :: cs ++ rest) =
      some (.token .name (.string (String.ofList (c :: cs))) (cs.length + 1)) := by
    rw [List.cons_append, readName?, if_pos hc, takeWhile_append_of_endsName hcs hrest]
    rfl
  cases a with
  | true =>
    unfold readSymbol?
    rw [if_pos rfl, hname]
    rfl
  | false =>
    have hop : readOperator? (c :: cs ++ rest) = none := by
      rw [readOperator?, Option.map_eq_none_iff, List.find?_eq_none]
      exact isOperatorAt_name (List.forall_mem_cons.mpr ⟨hchar, hcs⟩) (by simpa using hc)
        (hfree.resolve_left (by simp)) hrest
    have hne := forall_ne_of_all hc (show ['?', '.', ',', ':'].all (!isNameStart ·) = true by decide)
    simp only [List.mem_cons, List.not_mem_nil, or_false, forall_eq_or_imp, forall_eq] at hne
    unfold readSymbol?
    rw [hop, hname]
    simp [hne]

/-- A name; a member name may be any word. -/
theorem reaches_name {name : String} (hname : Parsing.isIdentifier name = true)
    (hfree : a = true ∨ name ∉ operatorWords) (hrest : endsName (rest.map normalize) = true) :
    Reaches a (name.toList ++ rest) [Content.name name] false rest := by
  obtain ⟨c, cs, hlist, hc, hcs⟩ := toList_of_isIdentifier hname
  have hofList : String.ofList (c :: cs) = name := by rw [← hlist, String.ofList_toList]
  have hchar : isNameChar c = true := by simp [isNameChar, hc]
  have hne := forall_ne_of_all hc
    (show ['(', '[', '{', ')', ']', '}'].all (!isNameStart ·) = true by decide)
  simp only [List.mem_cons, List.not_mem_nil, or_false, forall_eq_or_imp, forall_eq] at hne
  have hchars : ∀ x ∈ c :: cs, isNameChar x = true := List.forall_mem_cons.mpr ⟨hchar, hcs⟩
  have hnormal := map_normalize_of_isNameChar hchars
  rw [hlist]
  have hread : readLexeme? a (c :: cs ++ rest.map normalize) =
      some (.token .name (.string name) (cs.length + 1)) := by
    rw [List.cons_append, readLexeme?_of_isNameStart hc, ← List.cons_append,
      readSymbol?_name hc hcs (by rwa [hofList]) hrest, hofList]
  exact reaches_token cs hnormal hread (by simp [isOpening, hne]) (by simp [isClosing, hne])

theorem reaches_comma (rest : List Char) :
    Reaches false (',' :: rest) [Content.mark ","] false rest :=
  reaches_token [] rfl rfl rfl rfl

theorem reaches_colon (rest : List Char) :
    Reaches false (':' :: rest) [Content.mark ":"] false rest :=
  reaches_token [] rfl rfl rfl rfl

theorem reaches_question (rest : List Char) :
    Reaches false ('?' :: ' ' :: rest) [Content.mark "?"] false (' ' :: rest) :=
  reaches_token [] rfl rfl rfl rfl

theorem reaches_coalesce (rest : List Char) :
    Reaches false ('?' :: '?' :: rest) [Content.mark "??"] false rest :=
  reaches_token ['?'] rfl rfl rfl rfl

theorem readLexeme?_dot {c : Char} (hdigit : c.isDigit = false) (hdot : c ≠ '.') (rest : List Char) :
    readLexeme? false ('.' :: c :: rest) = some (punctuation "." 1) := by
  have hnumber : readNumber? ('.' :: c :: rest) = none := by
    simp [readNumber?, digitsLength, fractionLength, hdigit]
  have hop : readOperator? ('.' :: c :: rest) = none := by
    simp [readOperator?, operators, isOperatorAt, dropLexeme?, Ne.symm hdot]
  simp [readLexeme?, hnumber, isOpening, isClosing, readSymbol?, hop]

/-- The mark before a member name. -/
theorem reaches_access {name : String} (nullSafe : Bool) (hname : Parsing.isIdentifier name = true)
    (rest : List Char) :
    Reaches false ((if nullSafe then "?." else ".").toList ++ (name.toList ++ rest))
      [Content.accessMark nullSafe] true (name.toList ++ rest) := by
  obtain ⟨c, cs, hlist, hc, -⟩ := toList_of_isIdentifier hname
  have hdigit := isDigit_of_isNameStart hc
  have hdot : c ≠ '.' := by
    rintro rfl
    exact absurd hc (by decide)
  have hnormal : normalize c = c := normalize_of_isNameChar (by simp [isNameChar, hc])
  have hrest : (c :: (cs ++ rest)).map normalize = c :: (cs ++ rest).map normalize := by
    rw [List.map_cons, hnormal]
  rw [hlist, List.cons_append]
  cases nullSafe with
  | false =>
    have hread : readLexeme? false (['.'] ++ (c :: (cs ++ rest)).map normalize) =
        some (punctuation "." 1) := by
      rw [hrest]
      exact readLexeme?_dot hdigit hdot _
    exact reaches_token [] rfl hread rfl rfl
  | true =>
    have hread : readLexeme? false (['?', '.'] ++ (c :: (cs ++ rest)).map normalize) =
        some (punctuation "?." 2) := by
      rw [hrest]
      change some (if c.isDigit then punctuation "?" 1 else punctuation "?." 2) = _
      rw [hdigit]
      rfl
    exact reaches_token ['.'] rfl hread rfl rfl

theorem reaches_nullSafeIndex (rest : List Char) :
    Reaches false ('?' :: '.' :: '[' :: rest) [Content.mark "?."] true ('[' :: rest) :=
  reaches_token ['.'] rfl rfl rfl rfl

theorem reaches_binary (op : BinaryOp) (rest : List Char) :
    Reaches false (op.symbol.toList ++ ' ' :: rest) [Content.operator op.symbol] false (' ' :: rest) := by
  cases op <;> exact reaches_token _ rfl rfl rfl rfl

/-- `not` is a word of its own unless `in` follows. -/
theorem reaches_unary (op : UnaryOp) {rest : List Char}
    (h : op = .not → isOperatorAt (rest.map normalize) "in" = false) :
    Reaches false (op.symbol.toList ++ ' ' :: rest) [Content.operator op.symbol] false (' ' :: rest) := by
  cases op with
  | not =>
    have hin := h rfl
    have hnotIn : isOperatorAt ('n' :: 'o' :: 't' :: ' ' :: rest.map normalize) "not in" = false := hin
    have hread : readLexeme? false ('n' :: ['o', 't'] ++ (' ' :: rest).map normalize) =
        some (.token .operator (.string "not") 3) := by
      have hfind : operators.find? (isOperatorAt ('n' :: 'o' :: 't' :: ' ' :: rest.map normalize)) =
          some "not" := by
        have hother (op : String)
            (hop : isOperatorAt ('n' :: 'o' :: 't' :: ' ' :: rest.map normalize) op = false) :
            ¬ isOperatorAt ('n' :: 'o' :: 't' :: ' ' :: rest.map normalize) op = true := by
          simp [hop]
        rw [operators, List.find?_cons_of_neg (hother _ rfl), List.find?_cons_of_neg (hother _ rfl),
          List.find?_cons_of_neg (hother _ rfl), List.find?_cons_of_neg (hother _ rfl),
          List.find?_cons_of_neg (hother _ hnotIn), List.find?_cons_of_neg (hother _ rfl),
          List.find?_cons_of_neg (hother _ rfl), List.find?_cons_of_neg (hother _ rfl)]
        exact List.find?_cons_of_pos rfl
      change readLexeme? false ('n' :: 'o' :: 't' :: ' ' :: rest.map normalize) = _
      rw [readLexeme?_of_isNameStart rfl]
      unfold readSymbol? readOperator?
      rw [hfind]
      rfl
    exact reaches_token ['o', 't'] rfl hread rfl rfl
  | bang | negate | plus => exact reaches_token [] rfl rfl rfl rfl

theorem endsNumeral_of_endsNumber (h : endsNumber rest = true) : EndsNumeral rest := by
  cases rest with
  | nil => exact ⟨⟨rfl, rfl⟩, rfl⟩
  | cons c cs =>
    simp only [endsNumber, Bool.and_eq_true, Bool.not_eq_true', bne_iff_ne] at h
    have hne : ∀ c' ∈ ['_', 'e', 'E'], c ≠ c' := by
      rintro c' hc' rfl
      simp only [List.mem_cons, List.not_mem_nil, or_false] at hc'
      rcases hc' with rfl | rfl | rfl <;> exact absurd h.1 (by decide)
    simp only [List.mem_cons, List.not_mem_nil, or_false, forall_eq_or_imp, forall_eq] at hne
    have hdigit : c.isDigit = false := by
      rw [isNameChar, Bool.or_eq_false_iff] at h
      exact h.1.2
    refine ⟨⟨digitsLength_of_ne hdigit hne.1 true cs, fractionLength_of_ne h.2 cs⟩, ?_⟩
    rw [exponentLength_cons, if_neg (by simp [hne])]

theorem readLexeme?_of_isNumeral {isWhole : Bool} {cs : List Char} (h : IsNumeral isWhole cs)
    (hrest : EndsNumeral rest) (a : Bool) : readLexeme? a (cs ++ rest) =
      some (.token .number (numberValue isWhole cs) cs.length) := by
  have hnumber := h.readNumber? hrest
  obtain ⟨c, cs, rfl, hc⟩ := h.exists_head
  have hne : c ≠ ' ' ∧ c ≠ '/' := by
    constructor <;> rintro rfl <;> exact absurd hc (by decide)
  rw [List.cons_append] at hnumber ⊢
  simp [readLexeme?, hnumber, hne]

/-- A number literal. -/
theorem reaches_numeral {isWhole : Bool} {cs : List Char} (h : IsNumeral isWhole cs)
    (hrest : endsNumber (rest.map normalize) = true) :
    Reaches a (cs ++ rest) [⟨.number, numberValue isWhole cs⟩] false rest := by
  have hread := readLexeme?_of_isNumeral h (endsNumeral_of_endsNumber hrest) a
  have hnormal := h.map_normalize
  obtain ⟨c, cs, rfl, hc⟩ := h.exists_head
  have hbracket : isOpening c = false ∧ isClosing c = false := by
    refine ⟨Bool.eq_false_iff.mpr fun hopen => ?_, Bool.eq_false_iff.mpr fun hclose => ?_⟩
    · simp only [isOpening, Bool.or_eq_true, beq_iff_eq] at hopen
      rcases hopen with (rfl | rfl) | rfl <;> exact absurd hc (by decide)
    · simp only [isClosing, Bool.or_eq_true, beq_iff_eq] at hclose
      rcases hclose with (rfl | rfl) | rfl <;> exact absurd hc (by decide)
  exact reaches_token cs hnormal hread hbracket.1 hbracket.2

theorem numberValue_toDigits {n : Int64} (h : 0 ≤ n.toInt) :
    numberValue true (Nat.toDigits 10 n.toInt.toNat) = .int n := by
  have hfilter : (Nat.toDigits 10 n.toInt.toNat).filter (· != '_') = Nat.toDigits 10 n.toInt.toNat := by
    refine List.filter_eq_self.mpr fun c hc => ?_
    rw [bne_iff_ne]
    rintro rfl
    exact Nat.underscore_not_in_toDigits hc
  have hnat : (Number.natOfDigits (Nat.toDigits 10 n.toInt.toNat) : Int) = n.toInt := by
    have hdigits : Number.natOfDigits (Nat.toDigits 10 n.toInt.toNat) = n.toInt.toNat :=
      Nat.ofDigitChars_ten_toDigits
    rw [hdigits, Int.toNat_of_nonneg h]
  have hint : Number.int64? n.toInt = some n := by
    have hle := n.le_toInt
    have hlt := n.toInt_lt
    rw [Number.int64?, if_pos (by simp; omega), Int64.ofInt_toInt]
  simp only [numberValue, hfilter, hnat, hint]
  rfl

theorem toList_toString_of_nonneg {n : Int} (h : 0 ≤ n) :
    (toString n).toList = Nat.toDigits 10 n.toNat := by
  obtain ⟨k, rfl⟩ := Int.eq_ofNat_of_zero_le h
  exact Nat.toList_repr

theorem exists_head_toDigits (n : Nat) :
    ∃ c cs, Nat.toDigits 10 n = c :: cs ∧ c.isDigit = true := by
  obtain ⟨c, cs, hcons⟩ := List.exists_cons_of_ne_nil (Nat.toDigits_ne_nil (n := n) (b := 10))
  exact ⟨c, cs, hcons, Nat.isDigit_of_mem_toDigits (by decide) (by decide)
    (hcons ▸ List.mem_cons_self)⟩

/-- A whole number that is not negative. -/
theorem reaches_int {n : Int64} (h : 0 ≤ n.toInt) (hrest : endsNumber (rest.map normalize) = true) :
    Reaches a ((toString n.toInt).toList ++ rest) [⟨.number, .int n⟩] false rest := by
  have hdigits : IsDigits (Nat.toDigits 10 n.toInt.toNat) :=
    isDigits_of_forall Nat.toDigits_ne_nil fun c hc =>
      Nat.isDigit_of_mem_toDigits (by decide) (by decide) hc
  rw [toList_toString_of_nonneg h, ← numberValue_toDigits h]
  exact reaches_numeral (.mantissa (.whole hdigits)) hrest

/-! Texts in quotes. -/

section Quoted

variable {a' : Bool} {quote : Char} {cs cs' s : List Char} {ls : List Content}

theorem readQuoted?_of_quotes (hquote : quote ≠ '\\') (h : Quotes quote cs s) :
    readQuoted? quote (cs ++ quote :: rest) = some (s, cs.length + 1) := by
  induction h with
  | nil => simp [readQuoted?]
  | plain hc hslash _ ih =>
    rw [List.cons_append, readQuoted?, ih]
    · simp [hc]
    · exact hslash
  | escaped hc _ ih => simp [readQuoted?, ih, hc]
  | kept hc hslash _ ih => simp [readQuoted?, ih, hc, hslash]

theorem normalize_normalize (c : Char) : normalize (normalize c) = normalize c := by
  unfold normalize
  split <;> rfl

/-- A scan sees no difference between line ends and spaces. -/
theorem reaches_of_map_normalize (h : cs.map normalize = cs'.map normalize)
    (hcs' : Reaches a cs' ls a' rest) : Reaches a cs ls a' rest := by
  intro cursor brackets
  rw [h]
  exact hcs' cursor brackets

/-- A text between quotes of either kind. -/
theorem reaches_string (hquote : quote = '"' ∨ quote = '\'') (h : Quotes quote (cs.map normalize) s)
    (rest : List Char) : Reaches a (quote :: (cs ++ [quote]) ++ rest)
      [⟨.string, .string (String.ofList s)⟩] false rest := by
  have hne : quote ≠ '\\' ∧ normalize quote = quote ∧ isOpening quote = false ∧
      isClosing quote = false := by
    rcases hquote with rfl | rfl <;> decide
  obtain ⟨hslash, hnormal, hopening, hclosing⟩ := hne
  have hlexeme : (quote :: (cs.map normalize ++ [quote])).map normalize =
      quote :: (cs.map normalize ++ [quote]) := by
    simp [hnormal, normalize_normalize]
  have hread : readLexeme? a (quote :: (cs.map normalize ++ [quote]) ++ rest.map normalize) =
      some (.token .string (.string (String.ofList s)) ((cs.map normalize ++ [quote]).length + 1)) := by
    have hstring : readString? quote (cs.map normalize ++ quote :: rest.map normalize) =
        some (.token .string (.string (String.ofList s)) ((cs.map normalize).length + 1 + 1)) := by
      rw [readString?, readQuoted?_of_quotes hslash h]
      rfl
    rw [List.cons_append, List.append_assoc, List.length_append, List.length_singleton,
      List.singleton_append, ← hstring]
    rcases hquote with rfl | rfl <;> rfl
  refine reaches_of_map_normalize ?_ (reaches_token _ hlexeme hread hopening hclosing)
  simp [normalize_normalize]

/-- What is put between quotes is what they quote. -/
theorem exists_quotes_quotedChars (cs : List Char) (h : ∀ c ∈ cs, normalize c = c) :
    ∃ body, quotedChars cs = body ++ ['"'] ∧ Quotes '"' (body.map normalize) cs := by
  induction cs with
  | nil => exact ⟨[], rfl, .nil⟩
  | cons c cs ih =>
    rw [List.forall_mem_cons] at h
    obtain ⟨body, hbody, hquotes⟩ := ih h.2
    by_cases hc : c = '"' ∨ c = '\\'
    · refine ⟨'\\' :: c :: body, ?_, ?_⟩
      · rw [quotedChars, if_pos (by simpa using hc), hbody]
        rfl
      · rw [List.map_cons, List.map_cons, h.1]
        exact .escaped hc hquotes
    · refine ⟨c :: body, ?_, ?_⟩
      · rw [quotedChars, if_neg (by simpa using hc), hbody]
        rfl
      · rw [List.map_cons, h.1]
        exact .plain (fun heq => hc (.inl heq)) (fun heq => hc (.inr heq)) hquotes

/-- A text in quotes, without characters that count as spaces. -/
theorem reaches_quoted {s : String} (h : ∀ c ∈ s.toList, normalize c = c) (rest : List Char) :
    Reaches a ((quoted s).toList ++ rest) [⟨.string, .string s⟩] false rest := by
  obtain ⟨body, hbody, hquotes⟩ := exists_quotes_quotedChars s.toList h
  have hreaches := reaches_string (a := a) (.inl rfl) hquotes rest
  rw [String.ofList_toList] at hreaches
  rw [quoted, String.toList_ofList, hbody]
  exact hreaches

end Quoted

end Formula.Lexer
