import Formula.Evaluation
import Formula.Proofs.Parsing.Elementary

/-! Whether an expression means the same when its source is read again. -/

namespace Formula.Parsing

/-- The source of the tree of an elementary text is read as the regrouped tree. This is the tree
itself exactly if each `??` in it is delimited, and then it has the same value in every context. -/
theorem parseText_source_of_parseText {text : String} {functions : List String} {tree : Expr}
    (htext : IsElementary text) (hparse : parseText (lenient functions) text = .ok tree) :
    (parseText (lenient functions) tree.source = .ok tree.regrouped ∨
        ∃ error, parseText (lenient functions) tree.source = .error error ∧
          error.fault = .nestedTooDeeply) ∧
      (tree.regrouped = tree ↔ tree.isDelimited = true) ∧
      (tree.isDelimited = true → ∀ tree', parseText (lenient functions) tree.source = .ok tree' →
        ∀ host registry context,
          tree'.eval host registry context = tree.eval host registry context) := by
  have hplain := isPlain_of_parseText htext hparse
  obtain ⟨stream, htokens, hread⟩ := parseTokens_source hplain functions
  have hsource : parseText (lenient functions) tree.source =
      parseTokens (lenient functions) stream := by
    rw [parseText, htokens]
    rfl
  have hdelimited : tree.regrouped = tree ↔ tree.isDelimited = true := Expr.tree_grouping_eq_iff tree
  rw [hsource]
  refine ⟨hread, hdelimited, fun h tree' htree' host registry context => ?_⟩
  rcases hread with hok | ⟨error, herror, -⟩
  · rw [hok, hdelimited.mpr h] at htree'
    rw [Except.ok.inj htree']
  · rw [herror] at htree'
    cases htree'

/-- A stream with the contents of a full expression, for which there are levels enough. -/
theorem parseTokens_of_isFull {stream : TokenStream} {scope : Scope} {cs : List Content} {e : Expr}
    (hcontents : (stream.current :: stream.after).map Token.content = cs ++ [Content.ending])
    (h : IsFull False scope maxNesting cs e) : parseTokens scope stream = .ok e := by
  have hread := h (Token.ending 0).content [] (Content.goesOn_of_ending rfl)
  exact (parseTokens_of_reads hcontents rfl hread).resolve_right And.left

theorem parseText_of_isFull {text : String} {scope : Scope} {cs : List Content} {e : Expr}
    (htokens : ∃ stream, tokenize text = .ok stream ∧
      (stream.current :: stream.after).map Token.content = cs ++ [Content.ending])
    (h : IsFull False scope maxNesting cs e) : parseText scope text = .ok e := by
  obtain ⟨stream, htokens, hcontents⟩ := htokens
  exact parseText_eq_ok_iff.mpr ⟨stream, htokens, parseTokens_of_isFull hcontents h⟩

open Content (name mark operator enclosed)

theorem isFreeName_letter : ∀ name ∈ ["a", "b", "c", "d"], IsFreeName name := by
  unfold IsFreeName
  decide

section

variable {levels : Nat} {cs : List Content} {e : Expr}

theorem isObject_letter {letter : String} (h : letter ∈ ["a", "b", "c", "d"]) :
    IsObject False (lenient []) levels [name letter] (.name letter) :=
  isObject_name (isFreeName_letter letter h).2.2 rfl

theorem reaches_letter {letter : String} (h : letter ∈ ["a", "b", "c", "d"]) {rest : List Char}
    (hrest : Lexer.endsName (rest.map Lexer.normalize) = true) :
    Lexer.Reaches false (letter.toList ++ rest) [name letter] false rest :=
  Lexer.reaches_name (isFreeName_letter letter h).1 (.inr (isFreeName_letter letter h).2.1) hrest

theorem isFull_of_isObject (h : IsObject False (lenient []) levels cs e) :
    IsFull False (lenient []) (levels + 1) cs e :=
  isFull_of_isChain h.isOperand.isChain

theorem isFull_sum (h : IsObject False (lenient []) (levels + 1) cs e) {letter : String}
    (hletter : letter ∈ ["a", "b", "c", "d"]) : IsFull False (lenient []) (levels + 2)
      (cs ++ [operator "+", name letter]) (.binary .add e (.name letter)) :=
  isFull_of_isChain
    (isChain_binary .add h.isOperand (isTerm_of_isOperand (isObject_letter hletter).isOperand))

end

/-- A property before `??`, and a sum behind it. -/
def propertyOrSum : Expr :=
  .coalesce (.access .property false (.name "a") (.identifier "b") [])
    (.binary .add (.name "c") (.name "d"))

theorem parseText_propertyOrSum : IsElementary propertyOrSum.source ∧
    parseText (lenient []) propertyOrSum.source = .ok propertyOrSum ∧
    (parseText (lenient []) propertyOrSum.source = .ok propertyOrSum ∨
      ∃ error, parseText (lenient []) propertyOrSum.source = .error error ∧
        error.fault = .nestedTooDeeply) := by
  have hplain : propertyOrSum.IsPlain True :=
    .coalesce trivial
      (.property false (.name (isFreeName_letter "a" (by simp))) rfl (by decide))
      (.binary .add (.name (isFreeName_letter "c" (by simp)))
        (.name (isFreeName_letter "d" (by simp))))
  have htokens := Expr.tokenize_source hplain
  have hcontents : ∀ c ∈ [mark "(", name "a", mark ".", name "b", mark ")", mark "??", mark "(",
      mark "(", name "c", operator "+", name "d", mark ")", mark ")", .ending], c.IsElementary := by
    simp only [List.forall_mem_cons]
    exact ⟨.mark (by decide), .name (by decide) rfl, .mark (by decide), .name (by decide) rfl,
      .mark (by decide), .mark (by decide), .mark (by decide), .mark (by decide),
      .name (by decide) rfl, .operator _, .name (by decide) rfl, .mark (by decide),
      .mark (by decide), .ending, nofun⟩
  have helementary : IsElementary propertyOrSum.source := by
    obtain ⟨stream, hstream, hcs⟩ := htokens
    exact ⟨stream, hstream, hcs ▸ ⟨hcontents, by decide⟩⟩
  have hleft : IsFull False (lenient []) 127 [name "a", mark ".", name "b"] _ :=
    isFull_of_isObject (isObject_property (isObject_letter (by simp)) false "b")
  have hright : IsFull False (lenient []) 126 (enclosed '(' [name "c", operator "+", name "d"]) _ :=
    isFull_of_isObject (isObject_enclosed (isFull_sum (isObject_letter (by simp)) (by simp)))
  have hparse : parseText (lenient []) propertyOrSum.source = .ok propertyOrSum :=
    parseText_of_isFull htokens (isFull_coalesce (isObject_enclosed hleft).isOperand.isChain
      (isFull_of_isObject (isObject_enclosed hright)))
  obtain ⟨hread, hdelimited, -⟩ := parseText_source_of_parseText helementary hparse
  have hregrouped : propertyOrSum.regrouped = propertyOrSum := hdelimited.mpr (by decide)
  rw [hregrouped] at hread
  exact ⟨helementary, hparse, hread⟩

theorem tokenize_sumOfFallback : ∃ stream, tokenize "(a ?? b) + c" = .ok stream ∧
    (stream.current :: stream.after).map Token.content =
      (enclosed '(' [name "a", mark "??", name "b"] ++ [operator "+", name "c"]) ++ [.ending] := by
  have hinside : Lexer.Reaches false "a ?? b) + c".toList [name "a", mark "??", name "b"] false
      ") + c".toList := by
    refine (reaches_letter (by simp) rfl).trans ((Lexer.reaches_space false _).trans ?_)
    refine (Lexer.reaches_coalesce _).trans ((Lexer.reaches_space false _).trans ?_)
    exact reaches_letter (by simp) rfl
  have hbehind : Lexer.Reaches false " + c".toList [operator "+", name "c"] false [] := by
    refine (Lexer.reaches_space false _).trans ((Lexer.reaches_binary .add _).trans ?_)
    exact (Lexer.reaches_space false _).trans (reaches_letter (by simp) rfl)
  have hbracketed := Lexer.reaches_bracketed (show Lexer.isOpening '(' = true from rfl) hinside false
  exact Lexer.tokenize_of_reaches (hbracketed.trans hbehind)

/-- The operator behind the parentheses takes the right side of the `??` away from it. -/
theorem parseText_sumOfFallback : ∃ tree tree', IsElementary "(a ?? b) + c" ∧
    parseText (lenient []) "(a ?? b) + c" = .ok tree ∧ tree.source = "((a) ?? (b) + c)" ∧
    parseText (lenient []) tree.source = .ok tree' ∧
    (tree.eval (fun _ _ => .ok .null) {} [("a", .int 1), ("b", .int 2), ("c", .int 5)]).result =
      .ok (.int 6) ∧
    (tree'.eval (fun _ _ => .ok .null) {} [("a", .int 1), ("b", .int 2), ("c", .int 5)]).result =
      .ok (.int 1) := by
  have hcontents : ∀ c ∈ [mark "(", name "a", mark "??", name "b", mark ")", operator "+", name "c",
      .ending], c.IsElementary := by
    simp only [List.forall_mem_cons]
    exact ⟨.mark (by decide), .name (by decide) rfl, .mark (by decide), .name (by decide) rfl,
      .mark (by decide), .operator _, .name (by decide) rfl, .ending, nofun⟩
  have helementary : IsElementary "(a ?? b) + c" := by
    obtain ⟨stream, hstream, hcs⟩ := tokenize_sumOfFallback
    exact ⟨stream, hstream, hcs ▸ ⟨hcontents, by decide⟩⟩
  have hfallback : IsFull False (lenient []) 127 [name "a", mark "??", name "b"] _ :=
    isFull_coalesce (isObject_letter (by simp)).isOperand.isChain
      (isFull_of_isObject (isObject_letter (by simp)))
  have hparse := parseText_of_isFull tokenize_sumOfFallback
    (isFull_sum (isObject_enclosed hfallback) (by simp))
  have hplain : (Expr.binary .add (.coalesce (.name "a") (.name "b")) (.name "c")).IsPlain True :=
    .binary .add (.coalesce trivial (.name (isFreeName_letter "a" (by simp)))
      (.name (isFreeName_letter "b" (by simp)))) (.name (isFreeName_letter "c" (by simp)))
  have hparted : IsFull False (lenient []) 127 (enclosed '(' [name "a"] ++
      mark "??" :: (enclosed '(' [name "b"] ++ [operator "+", name "c"])) _ :=
    isFull_coalesce
      (isObject_enclosed (isFull_of_isObject (isObject_letter (by simp)))).isOperand.isChain
      (isFull_sum (isObject_enclosed (isFull_of_isObject (isObject_letter (by simp)))) (by simp))
  have hparse' := parseText_of_isFull (Expr.tokenize_source hplain)
    (isFull_of_isObject (isObject_enclosed hparted))
  exact ⟨_, _, helementary, hparse, rfl, hparse', rfl, rfl⟩

end Formula.Parsing
