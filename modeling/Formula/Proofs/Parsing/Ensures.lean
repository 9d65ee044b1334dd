import Formula.Proofs.Parsing.Grammar

/-! What holds of every result of a parser: a rule for each way in which productions are put
together. -/

namespace Formula.Parsing

variable {α β : Type}

/-- If `p` succeeds on `s`, its result and the state that it leaves satisfy `Q`. -/
def Ensures (p : Parser α) (s : State) (Q : α → State → Prop) : Prop :=
  ∀ a s', p s = .ok a s' → Q a s'

variable {p : Parser α} {f : α → Parser β} {s : State} {Q : α → State → Prop} {R : β → State → Prop}

theorem ensures_pure {a : α} (h : Q a s) : Ensures (pure a) s Q := by
  intro a' s' hrun
  obtain ⟨rfl, rfl⟩ := EStateM.Result.ok.inj hrun
  exact h

theorem ensures_true (p : Parser α) (s : State) : Ensures p s fun _ _ => True := fun _ _ _ => trivial

theorem ensures_fail (fault : Fault) (cursor : Nat) (s : State) (Q : α → State → Prop) :
    Ensures (fail fault cursor) s Q := by
  intro a s' hrun
  cases hrun

theorem Ensures.imp {R : α → State → Prop} (h : Ensures p s Q) (himp : ∀ a s', Q a s' → R a s') :
    Ensures p s R := fun a s' hrun => himp a s' (h a s' hrun)

theorem Ensures.bind (hp : Ensures p s Q) (hf : ∀ a s', Q a s' → Ensures (f a) s' R) :
    Ensures (p >>= f) s R := by
  intro b s' hrun
  obtain ⟨a, mid, ha, hb⟩ := bind_eq_ok.mp hrun
  exact hf a mid (hp a mid ha) b s' hb

theorem ensures_peek_bind {f : Token → Parser β} (h : Ensures (f s.stream.current) s R) :
    Ensures (peek >>= f) s R := h

theorem ensures_check_bind {f : Bool → Parser β} {text : String}
    (h : Ensures (f (s.stream.current.isPunctuation text)) s R) :
    Ensures (check text >>= f) s R := h

theorem ahead_eq (s : State) :
    s.ahead = s.stream.current.content :: s.stream.after.map Token.content := rfl

theorem ensures_advance (s : State) :
    Ensures advance s fun _ s' => s.ahead = s.stream.current.content :: s'.ahead := by
  intro u s' hrun
  obtain ⟨stream, hnext, rfl⟩ := move_eq_ok.mp hrun
  unfold TokenStream.next at hnext
  rw [ahead_eq]
  cases hafter : s.stream.after with
  | nil =>
    simp only [hafter] at hnext
    cases hnext
  | cons t ts =>
    simp only [hafter, Except.ok.injEq] at hnext
    rw [← hnext]
    rfl

theorem ensures_expect (text : String) (context : Option String) (s : State) :
    Ensures (expectPunctuation text context) s fun _ s' =>
      s.stream.current.isPunctuation text = true ∧
        s.ahead = s.stream.current.content :: s'.ahead := by
  intro u s' hrun
  by_cases hmark : s.stream.current.isPunctuation text = true
  · rw [expect_run hmark] at hrun
    exact ⟨hmark, ensures_advance s u s' hrun⟩
  · obtain ⟨stream, hexpect, rfl⟩ := move_eq_ok.mp hrun
    rw [TokenStream.expect, if_neg (show ¬s.stream.current.carries .punctuation (some text) = true
      from hmark)] at hexpect
    cases hexpect

theorem ensures_opening (mayRead : Bool) (s : State) :
    Ensures (opening mayRead) s fun _ s' => s'.ahead = s.ahead := by
  intro u s' hrun
  obtain ⟨-, rfl⟩ := EStateM.Result.ok.inj hrun
  rfl

theorem ensures_closing (s : State) : Ensures closing s fun _ s' => s'.ahead = s.ahead := by
  intro u s' hrun
  obtain ⟨-, rfl⟩ := EStateM.Result.ok.inj hrun
  rfl

/-- A step keeps an invariant, or ends with a result as it should be. -/
def Progress.Keeps (I : α → State → Prop) (R : β → State → Prop) : Progress α β → State → Prop
  | again a, s => I a s
  | done b, s => R b s

theorem ensures_loop {step : α → Parser (Progress α β)} (I : α → State → Prop)
    (hstep : ∀ a s, I a s → Ensures (step a) s (Progress.Keeps I R)) {a : α} (h : I a s) :
    Ensures (loop step a) s R := by
  have hrepeat : ∀ n a s, I a s → Ensures (repeating step n a) s R := by
    intro n
    induction n with
    | zero => exact fun a s _ b s' hrun => by cases hrun
    | succ n ih =>
      intro a s ha b s' hrun
      rw [repeating_succ] at hrun
      cases hs : step a s with
      | error e mid =>
        simp only [hs] at hrun
        cases hrun
      | ok progress mid =>
        have hprogress := hstep a s ha progress mid hs
        simp only [hs] at hrun
        cases progress with
        | again a' => exact ih a' mid hprogress b s' hrun
        | done b' =>
          obtain ⟨rfl, rfl⟩ := EStateM.Result.ok.inj hrun
          exact hprogress
  exact hrepeat _ a s h

section Expression

variable {scope : Scope} {Q : Expr → State → Prop} {e : Expr}

/-- An expression ensures what its operands do and the steps of its loops keep. -/
theorem ensures_expression_succ {levels precedence : Nat}
    (hahead : ∀ e s s', s'.ahead = s.ahead → Q e s → Q e s')
    (hoperand : ∀ s', s'.ahead = s.ahead → Ensures (operand scope (expression scope levels)) s' Q)
    (hbinary : ∀ e s, Q e s →
      Ensures (binaryStep (expression scope levels) precedence e) s (Progress.Keeps Q Q))
    (hcoalesce : ∀ e s, Q e s →
      Ensures (coalesceStep (expression scope levels) e) s (Progress.Keeps Q Q))
    (hconditional : ∀ e s, Q e s →
      Ensures (conditionalStep (expression scope levels) e) s (Progress.Keeps Q Q)) :
    Ensures (expression scope (levels + 1) precedence) s Q := by
  have hclose {e : Expr} {s : State} (he : Q e s) : Ensures (do
      closing
      return e) s Q :=
    (ensures_closing s).bind fun _ s' hs' => ensures_pure (hahead e s s' hs' he)
  have hchain {s' : State} (hs' : s'.ahead = s.ahead) : Ensures (chain scope levels precedence) s' Q :=
    (hoperand s' hs').bind fun _ _ he => ensures_loop Q hbinary he
  rw [expression_succ]
  refine (ensures_opening true s).bind fun _ s₁ hs₁ => (hchain hs₁).bind fun e s₂ he => ?_
  by_cases hp : precedence = 0
  · simp only [hp, beq_self_eq_true, if_true]
    refine (ensures_loop Q hcoalesce he).bind fun e s₃ he => ?_
    exact (ensures_loop Q hconditional he).bind fun e s₄ he => hclose he
  · simp only [beq_eq_false_iff_ne.mpr hp, Bool.false_eq_true, if_false]
    exact (ensures_pure he).bind fun e s₃ he => (ensures_pure he).bind fun e s₄ he => hclose he

/-- What an expression ensures at the first token holds of the tree of the whole stream, behind which
the ending token stands. -/
theorem exists_of_parseTokens {stream : TokenStream}
    (h : Ensures (expression scope maxNesting 0) { stream } Q)
    (hparse : parseTokens scope stream = .ok e) :
    ∃ s, Q e s ∧ s.stream.current.kind = .ending := by
  have hwhole : Ensures (whole scope) { stream }
      fun e s => Q e s ∧ s.stream.current.kind = .ending := by
    refine h.bind fun e s he => ensures_peek_bind ?_
    split
    · rename_i hkind
      exact ensures_pure ⟨he, beq_iff_eq.mp hkind⟩
    · exact ensures_fail _ _ _ _
  rw [parseTokens_run] at hparse
  cases hresult : whole scope { stream } with
  | ok e' s' =>
    simp only [hresult, Except.ok.injEq] at hparse
    exact ⟨s', hparse ▸ hwhole e' s' hresult⟩
  | error error s' => simp only [hresult, reduceCtorEq] at hparse

end Expression

end Formula.Parsing
