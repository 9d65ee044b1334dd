import Formula.Proofs.Parsing.Reading

/-! Which contents are read as which trees: one rule for each form of an expression. The rules are
about a parse with `levels` levels of nesting left for what lies inside. -/

namespace Formula

/-- The tree of a name without arguments, if the scope lets it pass. -/
def Scope.named? (scope : Scope) (name : String) : Option Expr :=
  match Parsing.constant? name with
  | some value => some (.literal value)
  | none =>
    if scope.leniency.unknownVariables || scope.spellings.contains name then
      some (.name (scope.key name))
    else none

/-- The tree of an operand that is one token. -/
def Scope.atom? (scope : Scope) (c : Content) : Option Expr :=
  match c.kind with
  | .number | .string => some (.literal c.value)
  | .name => scope.named? ((c.token 0).text?.getD "")
  | _ => none

namespace Parsing

variable (limited : Prop) (scope : Scope) (levels : Nat)

/-- Operands joined by operators that bind at least as tightly as `precedence`. -/
def chain (precedence : Nat) : Parser Expr := do
  let left ← operand scope (expression scope levels)
  loop (binaryStep (expression scope levels) precedence) left

/-- The contents of an operand, which only access steps or arguments can go on with. -/
def IsOperand (cs : List Content) (e : Expr) : Prop :=
  ∀ c rest, c.attaches = false →
    Reads limited (operand scope (expression scope levels)) (cs ++ c :: rest) e (c :: rest)

/-- The contents of an operand that access steps may follow. -/
def IsObject (cs : List Content) (e : Expr) : Prop :=
  ∀ c tail e' rest, c.isMark "(" = false →
    Reads limited (postfixed (expression scope levels) e) (c :: tail) e' rest →
      Reads limited (operand scope (expression scope levels)) (cs ++ c :: tail) e' rest

/-- The contents of operands that are joined by operators. -/
def IsChain (cs : List Content) (e : Expr) : Prop :=
  ∀ c rest, c.attaches = false → c.binaryOp? = none →
    Reads limited (chain scope levels 0) (cs ++ c :: rest) e (c :: rest)

/-- The contents of what an operator takes as its right operand. -/
def IsTerm (cs : List Content) (e : Expr) : Prop :=
  ∀ precedence c rest, 0 < precedence → c.attaches = false → c.binaryOp? = none →
    Reads limited (expression scope levels precedence) (cs ++ c :: rest) e (c :: rest)

/-- The contents of a full expression. -/
def IsFull (cs : List Content) (e : Expr) : Prop :=
  ∀ c rest, c.goesOn = false →
    Reads limited (expression scope levels 0) (cs ++ c :: rest) e (c :: rest)

variable {limited scope levels} {cs ls rs ms : List Content} {e l r : Expr} {c : Content}

theorem reads_binaryStep_done (sub : Nat → Parser Expr) (precedence : Nat) {rest : List Content}
    (hc : ∀ op, c.binaryOp? = some op → op.precedence < precedence) :
    Reads limited (binaryStep sub precedence e) (c :: rest) (.done e) (c :: rest) := by
  apply reads_peek_bind
  intro cursor
  rw [Content.binaryOp?_token]
  cases hop : c.binaryOp? with
  | none => exact reads_pure _ _
  | some op =>
    simp only [hc op hop, if_true]
    exact reads_pure _ _

theorem reads_binaryStep_again {sub : Nat → Parser Expr} {precedence : Nat} {op : BinaryOp}
    {rest : List Content} (hop : c.binaryOp? = some op) (hprec : precedence ≤ op.precedence)
    (h : Reads limited (sub op.rightPrecedence) ms r rest) (hms : ms ≠ []) :
    Reads limited (binaryStep sub precedence e) (c :: ms) (.again (.binary op e r)) rest := by
  obtain ⟨m, ms, rfl⟩ := List.exists_cons_of_ne_nil hms
  apply reads_peek_bind
  intro cursor
  rw [Content.binaryOp?_token, hop]
  simp only [Nat.not_lt.mpr hprec, if_false]
  exact (reads_advance c m ms).bind (h.bind (reads_pure _ _))

theorem reads_coalesceStep_done (sub : Nat → Parser Expr) {rest : List Content}
    (hc : c.isMark "??" = false) :
    Reads limited (coalesceStep sub e) (c :: rest) (.done e) (c :: rest) := by
  refine (reads_check "??" c rest).bind ?_
  rw [hc]
  exact reads_pure _ _

theorem reads_conditionalStep_done (sub : Nat → Parser Expr) {rest : List Content}
    (hc : c.isMark "?" = false) :
    Reads limited (conditionalStep sub e) (c :: rest) (.done e) (c :: rest) := by
  refine (reads_check "?" c rest).bind ?_
  rw [hc]
  exact reads_pure _ _

theorem reads_postfixed_done (sub : Nat → Parser Expr) {rest : List Content}
    (hc : c.isAccess = false) :
    Reads limited (postfixed sub e) (c :: rest) e (c :: rest) := by
  apply reads_loop_done
  apply reads_peek_bind
  intro cursor
  simp only [Content.isAccess, Bool.or_eq_false_iff] at hc
  simp only [Content.isPunctuation_token, hc, Bool.false_eq_true, if_false]
  exact reads_pure _ _

theorem expression_succ (scope : Scope) (levels precedence : Nat) :
    expression scope (levels + 1) precedence = (do
      opening true
      let e ← chain scope levels precedence
      let e ← if precedence == 0 then loop (coalesceStep (expression scope levels)) e else pure e
      let e ← if precedence == 0 then loop (conditionalStep (expression scope levels)) e else pure e
      closing
      return e) := by
  simp only [expression, chain, bind_assoc]

theorem reads_expression {precedence : Nat} {rest : List Content}
    (h : Reads limited (chain scope levels precedence) cs e (c :: rest))
    (hc : precedence = 0 → c.isMark "??" = false ∧ c.isMark "?" = false) :
    Reads limited (expression scope (levels + 1) precedence) cs e (c :: rest) := by
  rw [expression_succ]
  refine (reads_opening true cs).bind (h.bind ?_)
  by_cases hp : precedence = 0
  · obtain ⟨hcoalesce, hcond⟩ := hc hp
    simp only [hp, beq_self_eq_true, if_true]
    refine (reads_loop_done (reads_coalesceStep_done _ hcoalesce)).bind ?_
    refine (reads_loop_done (reads_conditionalStep_done _ hcond)).bind ?_
    exact (reads_closing _).bind (reads_pure _ _)
  · simp only [beq_eq_false_iff_ne.mpr hp, Bool.false_eq_true, if_false]
    refine (reads_pure _ _).bind ((reads_pure _ _).bind ?_)
    exact (reads_closing _).bind (reads_pure _ _)

theorem kind_of_binaryOp? {op : BinaryOp} (h : c.binaryOp? = some op) : c.kind = .operator := by
  by_cases hk : c.kind = .operator
  · exact hk
  · rw [Content.binaryOp?_of_kind hk] at h
    cases h

theorem kind_of_unaryOp? {op : UnaryOp} (h : c.unaryOp? = some op) : c.kind = .operator := by
  by_cases hk : c.kind = .operator
  · exact hk
  · rw [Content.unaryOp?_of_kind hk] at h
    cases h

theorem attaches_of_binaryOp? {op : BinaryOp} (h : c.binaryOp? = some op) : c.attaches = false := by
  have hk : c.kind ≠ .punctuation := by simp [kind_of_binaryOp? h]
  simp [Content.attaches, Content.isAccess, Content.isMark_of_kind hk]

theorem kind_of_atom? (h : scope.atom? c = some e) : c.kind ≠ .operator ∧ c.kind ≠ .punctuation := by
  unfold Scope.atom? at h
  constructor <;> intro hk <;> simp [hk] at h

theorem isOperand_atom (h : scope.atom? c = some e) : IsOperand limited scope levels [c] e := by
  intro c' rest hc'
  obtain ⟨hop, hpunct⟩ := kind_of_atom? h
  obtain ⟨haccess, hcall⟩ : c'.isAccess = false ∧ c'.isMark "(" = false := by
    simpa [Content.attaches] using hc'
  apply reads_peek_bind
  intro cursor
  simp only [Content.unaryOp?_token, Content.unaryOp?_of_kind hop, Content.isPunctuation_token,
    Content.isMark_of_kind hpunct, Bool.false_eq_true, if_false]
  apply reads_peek_bind
  intro cursor
  obtain ⟨kind, value⟩ := c
  cases kind with
  | number | string =>
    obtain rfl : Expr.literal value = e := by simpa [Scope.atom?] using h
    exact (reads_advance _ c' rest).bind (reads_pure _ _)
  | name =>
    refine (reads_advance _ c' rest).bind ?_
    have htext : (Content.token ⟨.name, value⟩ cursor).text? = (Content.token ⟨.name, value⟩ 0).text? :=
      rfl
    simp only [Scope.atom?] at h
    rw [htext]
    generalize (Content.token ⟨.name, value⟩ 0).text?.getD "" = name at h ⊢
    unfold Scope.named? at h
    cases hconst : constant? name with
    | some v =>
      simp only [hconst] at h ⊢
      obtain rfl := Option.some.inj h
      exact reads_pure _ _
    | none =>
      simp only [hconst] at h ⊢
      split at h
      · rename_i hknown
        obtain rfl := Option.some.inj h
        refine (reads_check "(" c' rest).bind ?_
        simp only [hcall, Bool.false_eq_true, if_false, variableNamed, hknown, if_true]
        exact (reads_pure _ _).bind (reads_postfixed_done _ haccess)
      · cases h
  | _ => simp [Scope.atom?] at h

/-- A stream that is a full expression and an end. -/
theorem parseTokens_of_reads {stream : TokenStream} {last : Token}
    (hstream : (stream.current :: stream.after).map Token.content = cs ++ [last.content])
    (hlast : last.kind = .ending)
    (h : Reads limited (expression scope maxNesting 0) (cs ++ [last.content]) e [last.content]) :
    parseTokens scope stream = .ok e ∨
      limited ∧ ∃ error, parseTokens scope stream = .error error ∧ error.fault = .nestedTooDeeply := by
  have hwhole : Reads limited (whole scope) (cs ++ [last.content]) e [last.content] := by
    refine h.bind (reads_peek_bind fun cursor => ?_)
    have hkind : ((last.content.token cursor).kind == .ending) = true := by
      simpa [Token.content, Content.token] using hlast
    rw [hkind]
    exact reads_pure _ _
  rcases hwhole { stream } hstream with ⟨s', hs', -⟩ | ⟨hlimited, error, s', hs', herror⟩
  · left
    rw [parseTokens_run, hs']
  · refine .inr ⟨hlimited, error, ?_, herror⟩
    rw [parseTokens_run, hs']

end Parsing
end Formula
