import Mathlib
import Formula.Proofs.Parsing.Invariant

/-! A parse comes to an end, and what it needs on the way there. Its loops end by themselves, and each
expression that it begins is paid for by a token. -/

namespace Formula.Parsing

variable {α β : Type}

/-- What a step comes to when it is repeated for as long as it asks for it. -/
inductive Iterates (step : α → Parser (Progress α β)) :
    α → State → EStateM.Result SyntaxError State β → Prop
  | error {a s e s'} : step a s = .error e s' → Iterates step a s (.error e s')
  | done {a s b s'} : step a s = .ok (.done b) s' → Iterates step a s (.ok b s')
  | again {a s a' s' r} : step a s = .ok (.again a') s' → Iterates step a' s' r → Iterates step a s r

/-- The loop of a step ends of itself, not because its repetitions run out. -/
def LoopEnds (step : α → Parser (Progress α β)) : Prop := ∀ a s, Iterates step a s (loop step a s)

/-- All loops of the productions end. -/
structure LoopsEnd (sub : Nat → Parser Expr) : Prop where
  arguments : LoopEnds (argumentStep sub)
  items : LoopEnds (itemStep sub)
  entries : LoopEnds (entryStep sub)
  accesses : LoopEnds (postfixStep sub)
  operators : ∀ precedence, LoopEnds (binaryStep sub precedence)
  fallbacks : LoopEnds (coalesceStep sub)
  conditionals : LoopEnds (conditionalStep sub)

/-- A parse is in the stream of `s₀`, and further on by a token if one was taken. -/
structure Advanced (s₀ : State) (taken : Bool) (s : State) : Prop where
  tokens : s.stream.tokens = s₀.stream.tokens
  position : s₀.stream.position + taken.toNat ≤ s.stream.position

/-- What a parse has used since `s₀`. It has begun fewer expressions than it has taken tokens, by
`credit` of them, and read none that lies more than `levels` deeper. -/
structure Used (s₀ : State) (levels credit : Nat) (s : State) : Prop where
  tokens : s.stream.tokens = s₀.stream.tokens
  begun_le : s₀.begun ≤ s.begun
  begun : s.begun + s₀.stream.position + credit ≤ s₀.begun + s.stream.position
  deepest : s.deepest ≤ max s₀.deepest (s₀.depth + levels)

theorem position_lt (s : TokenStream) : s.position < s.tokens.length := by
  simp only [TokenStream.position, TokenStream.tokens, List.length_append, List.length_reverse,
    List.length_cons]
  omega

theorem length_after (s : TokenStream) : s.after.length = s.tokens.length - (s.position + 1) := by
  simp only [TokenStream.position, TokenStream.tokens, List.length_append, List.length_reverse,
    List.length_cons]
  omega

theorem isKept_advanced (s₀ : State) : IsKept (Advanced s₀) fun _ _ => True where
  relax hs := ⟨hs.tokens, by have := hs.position; simp at this ⊢; omega⟩
  next hs hnext := by
    refine ⟨(TokenStream.tokens_next hnext).trans hs.tokens, ?_⟩
    have hposition := TokenStream.position_next hnext
    have hle := hs.position
    rw [Bool.toNat_true]
    simp only
    omega
  failure _ _ _ := trivial
  unknown _ _ _ _ _ := trivial

/-- A loop ends if its step takes a token whenever it asks for another repetition: the tokens ahead get
fewer. -/
theorem loopEnds_of_steps {step : α → Parser (Progress α β)}
    (hstep : ∀ s₀, IsKept.Steps (Advanced s₀) (fun _ _ => True) false step) : LoopEnds step := by
  have hrepeat : ∀ n a s, s.stream.after.length < n → Iterates step a s (repeating step n a s) := by
    intro n
    induction n with
    | zero => exact fun _ _ hlt => absurd hlt (Nat.not_lt_zero _)
    | succ n ih =>
      intro a s hlt
      have hyields := hstep s a s ⟨rfl, le_rfl⟩
      unfold Yields at hyields
      rw [repeating_succ]
      cases hs : step a s with
      | error e s' => exact .error hs
      | ok progress s' =>
        rw [hs] at hyields
        cases progress with
        | done b => exact .done hs
        | again a' =>
          obtain ⟨htokens, hposition⟩ : Advanced s true s' := hyields
          refine .again hs (ih a' s' ?_)
          rw [length_after, htokens]
          rw [length_after] at hlt
          rw [Bool.toNat_true] at hposition
          have := position_lt s'.stream
          rw [htokens] at this
          omega
  exact fun a s => hrepeat _ a s (Nat.lt_succ_self _)

/-- The state in which one more expression is begun. -/
def State.called (s : State) : State := { s with begun := s.begun + 1 }

namespace Used

variable {s₀ s s' : State} {levels credit less : Nat}

theorem position_le (h : Used s₀ levels credit s) :
    s₀.stream.position + credit ≤ s.stream.position := by
  have hle := h.begun_le
  have hbegun := h.begun
  omega

theorem mono (h : Used s₀ levels credit s) (hle : less ≤ credit) : Used s₀ levels less s := by
  refine ⟨h.tokens, h.begun_le, ?_, h.deepest⟩
  have hbegun := h.begun
  omega

/-- One token more pays for one expression more. -/
theorem next {stream : TokenStream} (h : Used s₀ levels credit s) (hnext : s.stream.next = .ok stream) :
    Used s₀ levels (credit + 1) { s with stream } := by
  refine ⟨(TokenStream.tokens_next hnext).trans h.tokens, h.begun_le, ?_, h.deepest⟩
  have hbegun := h.begun
  have hposition := TokenStream.position_next hnext
  simp only
  omega

/-- The token that was taken before an expression pays for it. -/
theorem trans (h : Used s₀ levels 1 s) (hdepth : s.depth = s₀.depth)
    (h' : Used s.called levels credit s') : Used s₀ levels credit s' := by
  refine ⟨h'.tokens.trans h.tokens, ?_, ?_, ?_⟩
  · exact h.begun_le.trans ((Nat.le_succ _).trans h'.begun_le)
  · have hbegun := h.begun
    have hbegun' : s'.begun + s.stream.position + credit ≤ s.begun + 1 + s'.stream.position := h'.begun
    omega
  · have hdeepest := h.deepest
    have hdeepest' : s'.deepest ≤ max s.deepest (s.depth + levels) := h'.deepest
    omega

/-- An expression that is read lies one level deeper. -/
theorem of_opened (h : Used s.opened levels credit s') : Used s.called (levels + 1) credit s' := by
  refine ⟨h.tokens, h.begun_le, h.begun, ?_⟩
  have hdeepest : s'.deepest ≤ max (max s.deepest (s.depth + 1)) (s.depth + 1 + levels) := h.deepest
  show s'.deepest ≤ max s.deepest (s.depth + (levels + 1))
  omega

end Used

theorem isKept_used (s₀ : State) (levels : Nat) :
    IsKept (fun taken s => Used s₀ levels taken.toNat s ∧ s.depth = s₀.depth)
      fun _ s => Used s₀ levels 0 s where
  relax hs := ⟨hs.1.mono (Nat.zero_le _), hs.2⟩
  next hs hnext := ⟨(hs.1.next hnext).mono (Nat.le_add_left _ _), hs.2⟩
  failure hs _ _ := hs.1.mono (Nat.zero_le _)
  unknown hs _ _ _ _ := hs.1.mono (Nat.zero_le _)

/-- An expression takes more tokens than it has expressions in it, and is as deep behind it as before. If
it fails, the tokens pay for all but itself. -/
theorem yields_used (scope : Scope) (levels precedence : Nat) (s : State) :
    Yields (expression scope levels precedence) s
      (fun _ s' => Used s.called levels 1 s' ∧ s'.depth = s.depth)
      fun _ s' => Used s.called levels 0 s' := by
  induction levels generalizing precedence s with
  | zero =>
    have hover : Used s.called 0 0 s.overrun := ⟨rfl, le_rfl, le_rfl, le_max_left _ _⟩
    exact hover
  | succ levels ih =>
    have hkept := isKept_used s.opened levels
    have hsub (precedence : Nat) (s₁ : State)
        (hs₁ : Used s.opened levels 1 s₁ ∧ s₁.depth = s.opened.depth) :
        Yields (expression scope levels precedence) s₁
          (fun _ s' => Used s.opened levels 1 s' ∧ s'.depth = s.opened.depth)
          fun _ s' => Used s.opened levels 0 s' :=
      (ih precedence s₁).imp (fun _ _ h => ⟨hs₁.1.trans hs₁.2 h.1, h.2.trans hs₁.2⟩)
        fun _ _ h => hs₁.1.trans hs₁.2 h
    have hopened : Used s.opened levels 0 s.opened := ⟨rfl, le_rfl, le_rfl, le_max_left _ _⟩
    refine (yields_expression_succ hkept hsub ⟨hopened, rfl⟩
      (Q := fun _ s' => Used s.called (levels + 1) 1 s' ∧ s'.depth = s.depth) fun _ s' hs' => ?_).imp
      (fun _ _ h => h) fun _ _ h => h.of_opened
    have hclosed : Used s.opened levels 1 { s' with depth := s'.depth - 1 } :=
      ⟨hs'.1.tokens, hs'.1.begun_le, hs'.1.begun, hs'.1.deepest⟩
    refine ⟨hclosed.of_opened, ?_⟩
    show s'.depth - 1 = s.depth
    rw [hs'.2]
    rfl

theorem yields_advanced (scope : Scope) (levels precedence : Nat) (s : State) :
    Yields (expression scope levels precedence) s (fun _ s' => Advanced s true s' ∧ s'.depth = s.depth)
      fun _ s' => Advanced s false s' :=
  (yields_used scope levels precedence s).imp
    (fun _ _ h => ⟨⟨h.1.tokens, h.1.position_le⟩, h.2⟩) fun _ _ h => ⟨h.tokens, h.position_le⟩

theorem loopsEnd_expression (scope : Scope) (levels : Nat) : LoopsEnd (expression scope levels) := by
  have hsub (s₀ : State) (precedence : Nat) (s : State) (hs : Advanced s₀ false s) :
      Yields (expression scope levels precedence) s (fun _ => Advanced s₀ true) fun _ _ => True := by
    refine (yields_advanced scope levels precedence s).imp (fun _ s' h => ?_) fun _ _ _ => trivial
    exact ⟨h.1.tokens.trans hs.tokens, (Nat.add_le_add_right hs.position _).trans h.1.position⟩
  have hkept := isKept_advanced
  exact
    { arguments := loopEnds_of_steps fun s₀ => (hkept s₀).steps_argumentStep (hsub s₀)
      items := loopEnds_of_steps fun s₀ => (hkept s₀).steps_itemStep (hsub s₀)
      entries := loopEnds_of_steps fun s₀ => (hkept s₀).steps_entryStep (hsub s₀)
      accesses := loopEnds_of_steps fun s₀ => (hkept s₀).steps_postfixStep (hsub s₀) false
      operators := fun precedence =>
        loopEnds_of_steps fun s₀ => (hkept s₀).steps_binaryStep (hsub s₀) precedence false
      fallbacks := loopEnds_of_steps fun s₀ => (hkept s₀).steps_coalesceStep (hsub s₀) false
      conditionals := loopEnds_of_steps fun s₀ => (hkept s₀).steps_conditionalStep (hsub s₀) false }

/-- The state at the end of a parse of a stream: still in it, with no more expressions begun than it has
tokens, none of them read below the limit. -/
structure IsFrugal (stream : TokenStream) (s : State) : Prop where
  tokens : s.stream.tokens = stream.tokens
  position : s.stream.position < stream.tokens.length
  deepest : s.deepest ≤ 128
  begun : s.begun ≤ stream.tokens.length

theorem Used.isFrugal {stream : TokenStream} {s : State}
    (h : Used (State.called { stream }) maxNesting 0 s) : IsFrugal stream s := by
  have hlt := position_lt s.stream
  rw [h.tokens] at hlt
  have hdeepest : s.deepest ≤ max 0 (0 + 128) := h.deepest
  have hbegun : s.begun + stream.position ≤ 1 + s.stream.position := h.begun
  have hposition : s.stream.position < stream.tokens.length := hlt
  exact ⟨h.tokens, hposition, by omega, by omega⟩

theorem yields_whole_used (scope : Scope) (stream : TokenStream) :
    Yields (whole scope) { stream } (fun _ s => Used (State.called { stream }) maxNesting 0 s)
      fun _ s => Used (State.called { stream }) maxNesting 0 s := by
  refine (yields_used scope maxNesting 0 { stream }).bind fun tree s hs => yields_peek_bind ?_
  split
  · exact yields_pure (hs.1.mono (Nat.zero_le _))
  · exact hs.1.mono (Nat.zero_le _)

/-- Whatever its tokens, a parse of a stream comes to an end in the stream: its loops end by themselves,
an expression that is read takes a token and gives back its level of nesting, none is read deeper than
the limit, and there are no more of them than tokens. -/
theorem parseTokens_ends (scope : Scope) (stream : TokenStream) :
    (∀ levels, LoopsEnd (expression scope levels)) ∧
    (∀ levels precedence s, Yields (expression scope levels precedence) s
      (fun _ s' => s'.stream.tokens = s.stream.tokens ∧ s.stream.position < s'.stream.position ∧
        s'.stream.position < s.stream.tokens.length ∧ s'.depth = s.depth)
      fun _ s' => s'.stream.tokens = s.stream.tokens ∧ s.stream.position ≤ s'.stream.position ∧
        s'.stream.position < s.stream.tokens.length) ∧
    Yields (whole scope) { stream }
      (fun tree s => parseTokens scope stream = .ok tree ∧ IsFrugal stream s)
      fun e s => parseTokens scope stream = .error e ∧ IsFrugal stream s := by
  refine ⟨loopsEnd_expression scope, fun levels precedence s => ?_, ?_⟩
  · refine (yields_advanced scope levels precedence s).imp (fun _ s' h => ?_) fun _ s' h => ?_
    · have hlt := position_lt s'.stream
      rw [h.1.tokens] at hlt
      exact ⟨h.1.tokens, h.1.position, hlt, h.2⟩
    · have hlt := position_lt s'.stream
      rw [h.tokens] at hlt
      exact ⟨h.tokens, h.position, hlt⟩
  · have hused := yields_whole_used scope stream
    rw [parseTokens_run]
    unfold Yields at hused ⊢
    cases hrun : whole scope { stream } with
    | ok tree s =>
      rw [hrun] at hused
      exact ⟨rfl, hused.isFrugal⟩
    | error e s =>
      rw [hrun] at hused
      exact ⟨rfl, hused.isFrugal⟩

end Formula.Parsing
