import Formula.Proofs.Token.Scanning

/-! The tokens of a text carry what their kind promises. -/

namespace Formula

/-- What a token of each kind carries when it was read from text. No sign belongs to a number. -/
inductive Content.IsScanned : Content → Prop
  | name {s} : Parsing.isIdentifier s = true → IsScanned (.name s)
  | int {n : Int64} : 0 ≤ n.toInt → IsScanned ⟨.number, .int n⟩
  | float (x) : IsScanned ⟨.number, .float x⟩
  | string (s) : IsScanned ⟨.string, .string s⟩
  | operator {s} : s ∈ Lexer.operators → IsScanned (.operator s)
  | mark (s) : IsScanned (.mark s)
  | ending : IsScanned .ending

theorem Number.toInt_of_int64? {k : Int} {n : Int64} (h : int64? k = some n) : n.toInt = k := by
  unfold int64? at h
  by_cases hbounds : (-0x8000000000000000 ≤ k && k < 0x8000000000000000) = true
  · rw [if_pos hbounds, Option.some_inj] at h
    simp only [Bool.and_eq_true, decide_eq_true_eq] at hbounds
    rw [← h]
    exact Int64.toInt_ofInt_of_le hbounds.1 hbounds.2
  · rw [if_neg hbounds] at h
    cases h

theorem Number.int64?_eq_some_iff {k : Int} {n : Int64} : int64? k = some n ↔ n.toInt = k := by
  constructor
  · exact toInt_of_int64?
  · rintro rfl
    have hlow : -0x8000000000000000 ≤ n.toInt := n.le_toInt
    have hhigh : n.toInt < 0x8000000000000000 := n.toInt_lt
    unfold int64?
    rw [if_pos (by simp only [hlow, hhigh, decide_true, Bool.and_self]), Int64.ofInt_toInt]

namespace Lexer

/-- A lexeme that is a token carries what its kind promises. -/
def Lexeme.IsScanned : Lexeme → Prop
  | gap _ => True
  | token kind value _ => Content.IsScanned ⟨kind, value⟩

variable {a : Bool} {cs : List Char} {l : Lexeme}

theorem isScanned_numberValue (isWhole : Bool) (lexeme : List Char) :
    Content.IsScanned ⟨.number, numberValue isWhole lexeme⟩ := by
  unfold numberValue
  dsimp only
  split
  · cases hint : Number.int64? (Number.natOfDigits (lexeme.filter (· != '_'))) with
    | none => exact .float _
    | some n =>
      refine .int ?_
      rw [Number.toInt_of_int64? hint]
      exact Int.natCast_nonneg _
  · exact .float _

theorem isScanned_readNumber? (h : readNumber? cs = some l) : l.IsScanned := by
  simp only [readNumber?, Option.ite_none_left_eq_some, Option.some_inj] at h
  obtain ⟨-, rfl⟩ := h
  exact isScanned_numberValue _ _

theorem isScanned_readName? (h : readName? cs = some l) : l.IsScanned := by
  obtain ⟨c, tail, -, hc, rfl⟩ := exists_of_readName? h
  refine .name ?_
  unfold Parsing.isIdentifier
  rw [String.toList_ofList]
  have htail : (tail.takeWhile isNameChar).all isNameChar = true := List.all_takeWhile
  exact Bool.and_eq_true_iff.mpr ⟨hc, htail⟩

theorem isScanned_readOperator? (h : readOperator? cs = some l) : l.IsScanned := by
  rw [readOperator?, Option.map_eq_some_iff] at h
  obtain ⟨op, hop, rfl⟩ := h
  exact .operator (List.mem_of_find?_eq_some hop)

theorem isScanned_readString? {quote : Char} (h : readString? quote cs = some l) :
    l.IsScanned := by
  rw [readString?, Option.map_eq_some_iff] at h
  obtain ⟨⟨s, n⟩, -, rfl⟩ := h
  exact .string _

theorem readSymbol?_inv (h : readSymbol? a cs = some l) :
    readName? cs = some l ∨ readOperator? cs = some l ∨ ∃ s n, l = punctuation s n := by
  simp only [readSymbol?, Option.orElse_eq_orElse, Option.orElse_eq_or, Option.or_eq_some_iff] at h
  rcases h with h | ⟨-, h | ⟨-, h | ⟨-, h⟩⟩⟩
  · rw [Option.ite_none_right_eq_some] at h
    exact .inl h.2
  · exact .inr (.inl h)
  · refine .inr (.inr ?_)
    split at h
    · rw [Option.some_inj] at h
      subst h
      split <;> exact ⟨_, _, rfl⟩
    · exact ⟨_, _, (Option.some_inj.mp h).symm⟩
    · rw [Option.ite_none_right_eq_some] at h
      exact ⟨_, _, (Option.some_inj.mp h.2).symm⟩
    · cases h
  · exact .inl h

/-- What stands at the head of a text is a gap, or one reader finds it there. -/
theorem readLexeme?_inv (h : readLexeme? a cs = some l) : (∃ n, l = .gap n) ∨
    readNumber? cs = some l ∨ (∃ quote cs', readString? quote cs' = some l) ∨
      readName? cs = some l ∨ readOperator? cs = some l ∨ ∃ s n, l = punctuation s n := by
  unfold readLexeme? at h
  split at h
  · cases h
  · exact .inl ⟨_, (Option.some_inj.mp h).symm⟩
  · exact .inl ⟨_, (Option.some_inj.mp h).symm⟩
  · simp only [Option.orElse_eq_orElse, Option.orElse_eq_or, Option.or_eq_some_iff] at h
    rcases h with h | ⟨-, h⟩
    · exact .inr (.inl h)
    · refine .inr (.inr ?_)
      split at h
      · exact .inr (.inr (.inr ⟨_, _, (Option.some_inj.mp h).symm⟩))
      · split at h
        · exact .inl ⟨_, _, h⟩
        · split at h
          · exact .inr (.inr (.inr ⟨_, _, (Option.some_inj.mp h).symm⟩))
          · exact .inr (readSymbol?_inv h)

theorem isScanned_readLexeme? (h : readLexeme? a cs = some l) : l.IsScanned := by
  obtain ⟨n, rfl⟩ | h | ⟨quote, cs', h⟩ | h | h | ⟨s, n, rfl⟩ := readLexeme?_inv h
  · trivial
  · exact isScanned_readNumber? h
  · exact isScanned_readString? h
  · exact isScanned_readName? h
  · exact isScanned_readOperator? h
  · exact .mark s

/-- A number is found by the reader of numbers. -/
theorem readNumber?_of_readLexeme? {value : Value} {n : Nat}
    (h : readLexeme? a cs = some (.token .number value n)) :
    readNumber? cs = some (.token .number value n) := by
  obtain ⟨n, hgap⟩ | h | ⟨quote, cs', h⟩ | h | h | ⟨s, n, hmark⟩ := readLexeme?_inv h
  · cases hgap
  · exact h
  · rw [readString?, Option.map_eq_some_iff] at h
    obtain ⟨_, -, heq⟩ := h
    cases heq
  · obtain ⟨_, _, -, -, heq⟩ := exists_of_readName? h
    cases heq
  · rw [readOperator?, Option.map_eq_some_iff] at h
    obtain ⟨_, -, heq⟩ := h
    cases heq
  · cases hmark

theorem isScanned_scan {cursor : Nat} {brackets : Brackets} {skip : Nat} {tokens : List Token}
    (h : scan cursor brackets a skip cs = .ok tokens) : ∀ t ∈ tokens, t.content.IsScanned := by
  -- The induction is on the characters, as those of a lexeme behind its first one are only skipped.
  induction cs generalizing cursor brackets a skip tokens with
  | nil =>
    unfold scan at h
    cases brackets with
    | nil =>
      obtain rfl := Except.ok.inj h
      intro t ht
      obtain rfl := List.mem_singleton.mp ht
      exact .ending
    | cons _ _ => cases h
  | cons c cs ih =>
    cases skip with
    | succ skip => exact ih h
    | zero =>
      have hsteps := steps_scan cursor brackets a c cs
      rw [h] at hsteps
      cases hsteps with
      | gap _ hscan => exact ih hscan
      | token hread _ hscan =>
        exact List.forall_mem_cons.mpr ⟨isScanned_readLexeme? hread, ih hscan⟩

end Lexer

theorem mem_ofTokens {expression : String} {tokens : List Token} {t : Token}
    (h : t ∈ (TokenStream.ofTokens expression tokens).current ::
      (TokenStream.ofTokens expression tokens).after) :
    t ∈ tokens ∨ t = Token.ending (expression.length + 1) := by
  cases tokens with
  | nil => simpa [TokenStream.ofTokens] using h
  | cons first rest =>
    simp only [TokenStream.ofTokens] at h
    split at h
    · exact .inl h
    · simpa [or_assoc] using h

/-- Every token of a text carries what its kind promises. -/
theorem isScanned_tokenize {text : String} {stream : TokenStream} (h : tokenize text = .ok stream) :
    ∀ t ∈ stream.current :: stream.after, t.content.IsScanned := by
  obtain ⟨tokens, hscan, rfl⟩ := Lexer.exists_scan_of_tokenize_ok h
  intro t ht
  rcases mem_ofTokens ht with ht | rfl
  · exact Lexer.isScanned_scan hscan t ht
  · exact .ending

variable {t : Token}

theorem exists_name_of_isScanned {c : Content} (h : c.IsScanned) (hkind : c.kind = .name) :
    ∃ n, c = .name n ∧ Parsing.isIdentifier n = true := by
  cases h with
  | name hname => exact ⟨_, rfl, hname⟩
  | _ => cases hkind

theorem isIdentifier_of_memberName? {name : String} (h : t.content.IsScanned)
    (hname : Parsing.memberName? t = some name) : Parsing.isIdentifier name = true := by
  unfold Parsing.memberName? at hname
  split at hname
  · rename_i hkind
    obtain ⟨n, hn, hidentifier⟩ := exists_name_of_isScanned h hkind
    obtain ⟨-, hvalue⟩ := Content.mk.inj hn
    rw [Token.text?, hvalue, Option.some_inj] at hname
    exact hname ▸ hidentifier
  · exact (Option.filter_eq_some_iff.mp hname).2
  · cases hname

end Formula
