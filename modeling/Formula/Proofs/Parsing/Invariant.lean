import Formula.Proofs.Parsing.Ensures
import Formula.Proofs.Parsing.Leniency

/-! What every step of a parse keeps, also where it fails. A property of states that survives the
taking of a token survives each production. -/

namespace Formula

namespace TokenStream

variable {s s' : TokenStream}

theorem tokens_next (h : s.next = .ok s') : s'.tokens = s.tokens := by
  unfold next at h
  split at h
  · cases h
  · rename_i t rest hafter
    obtain rfl := Except.ok.inj h
    simp [tokens, hafter]

theorem position_next (h : s.next = .ok s') : s'.position = s.position + 1 := by
  unfold next at h
  split at h
  · cases h
  · obtain rfl := Except.ok.inj h
    rfl

theorem expression_next (h : s.next = .ok s') : s'.expression = s.expression := by
  unfold next at h
  split at h
  · cases h
  · obtain rfl := Except.ok.inj h
    rfl

theorem current_mem_tokens (s : TokenStream) : s.current ∈ s.tokens :=
  List.mem_append_right _ List.mem_cons_self

end TokenStream

namespace Parsing

variable {α β : Type}

/-- From `s` on `p` succeeds with `Q`, or fails with `E`. -/
def Yields (p : Parser α) (s : State) (Q : α → State → Prop) (E : SyntaxError → State → Prop) : Prop :=
  match p s with
  | .ok a s' => Q a s'
  | .error e s' => E e s'

section

variable {p : Parser α} {f : α → Parser β} {s : State} {Q : α → State → Prop} {R : β → State → Prop}
  {E : SyntaxError → State → Prop}

theorem yields_pure {a : α} (h : Q a s) : Yields (pure a) s Q E := h

theorem Yields.bind (hp : Yields p s Q E) (hf : ∀ a s', Q a s' → Yields (f a) s' R E) :
    Yields (p >>= f) s R E := by
  unfold Yields at hp ⊢
  rw [bind_run]
  cases hrun : p s with
  | ok a s' =>
    rw [hrun] at hp
    exact hf a s' hp
  | error e s' =>
    rw [hrun] at hp
    exact hp

theorem Yields.imp {Q' : α → State → Prop} {E' : SyntaxError → State → Prop} (h : Yields p s Q E)
    (hQ : ∀ a s', Q a s' → Q' a s') (hE : ∀ e s', E e s' → E' e s') : Yields p s Q' E' := by
  unfold Yields at h ⊢
  cases hrun : p s with
  | ok a s' =>
    rw [hrun] at h
    exact hQ a s' h
  | error e s' =>
    rw [hrun] at h
    exact hE e s' h

theorem yields_peek_bind {f : Token → Parser β} (h : Yields (f s.stream.current) s R E) :
    Yields (peek >>= f) s R E := h

theorem yields_check_bind {text : String} {f : Bool → Parser β}
    (h : Yields (f (s.stream.current.isPunctuation text)) s R E) :
    Yields (check text >>= f) s R E := h

end

/-- `I` holds of the states of a parse, `I true` once a token was taken, and `E` of the errors that it
may end with: those tell the place of a token, and if a name is unknown it is that of its token. -/
structure IsKept (I : Bool → State → Prop) (E : SyntaxError → State → Prop) : Prop where
  relax {s} : I true s → I false s
  next {taken s stream} : I taken s → s.stream.next = .ok stream → I true { s with stream }
  failure {taken s t fault} : I taken s → t ∈ s.stream.tokens → fault.isUnknownName = false →
    E { fault, cursor := t.cursor, expression := s.stream.expression } s
  unknown {taken s t fault proposals} : I taken s → t ∈ s.stream.tokens → t.kind = .name →
    fault = .unknownVariable (t.text?.getD "") ∨ fault = .unknownFunction (t.text?.getD "") →
    t.text?.getD "" ∉ proposals →
    E { fault, cursor := t.cursor, expression := s.stream.expression, subject := t.text?.getD "",
        proposals } s

/-- A step of a loop, from states of which `I taken` holds: it takes a token if it asks for another
repetition. -/
def IsKept.Steps (I : Bool → State → Prop) (E : SyntaxError → State → Prop) (taken : Bool)
    (step : α → Parser (Progress α β)) : Prop :=
  ∀ a s, I taken s → Yields (step a) s (Progress.Keeps (fun _ => I true) fun _ => I taken) E

namespace IsKept

variable {I : Bool → State → Prop} {E : SyntaxError → State → Prop} (h : IsKept I E) {taken : Bool}
  {s : State}
include h

theorem of_true {b : Bool} (hs : I true s) : I b s := by
  cases b with
  | false => exact h.relax hs
  | true => exact hs

theorem yields_fail {t : Token} {fault : Fault} {Q : α → State → Prop} (hs : I taken s)
    (ht : t ∈ s.stream.tokens) (hfault : fault.isUnknownName = false) :
    Yields (fail fault t.cursor) s Q E := h.failure hs ht hfault

theorem yields_advance (hs : I taken s) :
    Yields advance s (fun _ s' => s'.stream.tokens = s.stream.tokens ∧ I true s') E := by
  unfold Yields
  rw [advance, move_run]
  cases hnext : s.stream.next with
  | ok stream => exact ⟨TokenStream.tokens_next hnext, h.next hs hnext⟩
  | error e =>
    unfold TokenStream.next at hnext
    split at hnext
    · obtain rfl := Except.error.inj hnext
      exact h.failure hs s.stream.current_mem_tokens rfl
    · cases hnext

theorem yields_expect (text : String) (context : Option String) (hs : I taken s) :
    Yields (expectPunctuation text context) s (fun _ s' => I true s') E := by
  by_cases hmark : s.stream.current.isPunctuation text = true
  · unfold Yields
    rw [expect_run hmark]
    exact (h.yields_advance hs).imp (fun _ _ hs' => hs'.2) fun _ _ he => he
  · unfold Yields
    rw [expectPunctuation, move_run, TokenStream.expect,
      if_neg (show ¬s.stream.current.carries .punctuation (some text) = true from hmark)]
    exact h.failure hs s.stream.current_mem_tokens rfl

theorem yields_loop {step : α → Parser (Progress α β)} (hstep : Steps I E taken step) {a : α}
    (hs : I taken s) : Yields (loop step a) s (fun _ => I taken) E := by
  have hrepeat : ∀ n a s, I taken s → Yields (repeating step n a) s (fun _ => I taken) E := by
    intro n
    induction n with
    | zero => exact fun a s hs => h.failure hs s.stream.current_mem_tokens rfl
    | succ n ih =>
      intro a s hs
      refine (hstep a s hs).bind fun progress s' hprogress => ?_
      cases progress with
      | again a' => exact ih a' s' (h.of_true hprogress)
      | done b => exact hprogress
  exact hrepeat _ a s hs

theorem yields_separator {done : List α} {message : Option String} {p : Parser β}
    {R : β → State → Prop} (hs : I taken s) (hp : ∀ s', I taken s' → Yields p s' R E) :
    Yields (do
      if !done.isEmpty then expectPunctuation "," message
      p) s R E := by
  split
  · exact (h.yields_expect _ _ hs).bind fun _ s' hs' => hp s' (h.of_true hs')
  · exact hp s hs

theorem yields_variableNamed {scope : Scope} {t : Token} (hs : I taken s)
    (ht : t ∈ s.stream.tokens) (hkind : t.kind = .name) :
    Yields (variableNamed scope (t.text?.getD "") t.cursor) s (fun _ => I taken) E := by
  unfold variableNamed
  split
  · exact yields_pure hs
  · rename_i hunknown
    apply yields_check_bind
    split
    · exact yields_pure hs
    · refine h.unknown hs ht hkind (.inl rfl) fun hmem => hunknown ?_
      rw [List.contains_iff_mem.mpr hmem, Bool.or_true]

section

/-! `sub` may be begun wherever `I begun` holds. -/

variable {scope : Scope} {sub : Nat → Parser Expr} {begun : Bool}
  (hsub : ∀ precedence s, I begun s → Yields (sub precedence) s (fun _ => I true) E)
include hsub

theorem yields_sub (precedence : Nat) (hs : I true s) :
    Yields (sub precedence) s (fun _ => I true) E := hsub precedence s (h.of_true hs)

theorem steps_argumentStep : Steps I E begun (argumentStep sub) := by
  intro done s hs
  apply yields_check_bind
  split
  · exact yields_pure hs
  · exact h.yields_separator hs fun s' hs' =>
      (hsub 0 s' hs').bind fun _ _ hs'' => yields_pure hs''

theorem yields_arguments (hs : I taken s) : Yields (arguments sub) s (fun _ => I true) E :=
  (h.yields_expect _ _ hs).bind fun _ _ hs₁ =>
    (h.yields_loop (h.steps_argumentStep hsub) (h.of_true hs₁)).bind fun _ _ hs₂ =>
      (h.yields_expect _ _ hs₂).bind fun _ _ hs₃ => yields_pure hs₃

theorem steps_itemStep : Steps I E begun (itemStep sub) := by
  intro done s hs
  apply yields_check_bind
  split
  · exact yields_pure hs
  · refine h.yields_separator hs fun s' hs' => yields_check_bind ?_
    split
    · exact yields_pure hs'
    · exact (hsub 0 s' hs').bind fun _ _ hs'' => yields_pure hs''

theorem yields_listLiteral (hs : I taken s) : Yields (listLiteral sub) s (fun _ => I true) E :=
  (h.yields_expect _ _ hs).bind fun _ _ hs₁ =>
    (h.yields_loop (h.steps_itemStep hsub) (h.of_true hs₁)).bind fun _ _ hs₂ =>
      (h.yields_expect _ _ hs₂).bind fun _ _ hs₃ => yields_pure hs₃

theorem yields_hashKey (hs : I begun s) : Yields (hashKey sub) s (fun _ => I true) E := by
  have hliteral {v : Value} : Yields (do
      advance
      return Expr.literal v) s (fun _ => I true) E :=
    (h.yields_advance hs).bind fun _ _ hs' => yields_pure hs'.2
  apply yields_peek_bind
  split
  · exact hliteral
  · exact hliteral
  · exact hliteral
  · split
    · exact hsub 0 s hs
    · exact h.yields_fail hs s.stream.current_mem_tokens rfl

theorem steps_entryStep : Steps I E begun (entryStep sub) := by
  intro done s hs
  apply yields_check_bind
  split
  · exact yields_pure hs
  · refine h.yields_separator hs fun s' hs' => yields_check_bind ?_
    split
    · exact yields_pure hs'
    · exact (h.yields_hashKey hsub hs').bind fun _ _ hs₁ =>
        (h.yields_expect _ _ hs₁).bind fun _ _ hs₂ =>
          (h.yields_sub hsub 0 hs₂).bind fun _ _ hs₃ => yields_pure hs₃

theorem yields_hashLiteral (hs : I taken s) : Yields (hashLiteral sub) s (fun _ => I true) E :=
  (h.yields_expect _ _ hs).bind fun _ _ hs₁ =>
    (h.yields_loop (h.steps_entryStep hsub) (h.of_true hs₁)).bind fun _ _ hs₂ =>
      (h.yields_expect _ _ hs₂).bind fun _ _ hs₃ => yields_pure hs₃

theorem yields_index (object : Expr) (nullSafe : Bool) (hs : I taken s) :
    Yields (index sub object nullSafe) s (fun _ => I true) E :=
  (h.yields_advance hs).bind fun _ _ hs₁ => (h.yields_sub hsub 0 hs₁.2).bind fun _ _ hs₂ =>
    (h.yields_expect _ _ hs₂).bind fun _ _ hs₃ => yields_pure hs₃

theorem yields_member (object : Expr) (nullSafe : Bool) (hs : I taken s) :
    Yields (member sub object nullSafe) s (fun _ => I true) E := by
  refine yields_peek_bind ((h.yields_advance hs).bind fun _ s₁ ⟨htokens, hs₁⟩ => ?_)
  cases memberName? s.stream.current with
  | none =>
    refine h.yields_fail hs₁ ?_ rfl
    rw [htokens]
    exact s.stream.current_mem_tokens
  | some name =>
    apply yields_check_bind
    split
    · exact (h.yields_arguments hsub hs₁).bind fun _ _ hs₂ => yields_pure hs₂
    · exact yields_pure hs₁

theorem steps_postfixStep (taken : Bool) : Steps I E taken (postfixStep sub) := by
  intro object s hs
  have hagain {p : Parser Expr} {s : State} (hp : Yields p s (fun _ => I true) E) :
      Yields (do return (.again (← p) : Progress Expr Expr)) s
        (Progress.Keeps (fun _ => I true) fun _ => I taken) E :=
    hp.bind fun _ _ hs' => yields_pure hs'
  apply yields_peek_bind
  split
  · exact (h.yields_advance hs).bind fun _ _ hs₁ => hagain (h.yields_member hsub object false hs₁.2)
  · split
    · refine (h.yields_advance hs).bind fun _ _ hs₁ => yields_check_bind ?_
      split
      · exact hagain (h.yields_index hsub object true hs₁.2)
      · exact hagain (h.yields_member hsub object true hs₁.2)
    · split
      · exact hagain (h.yields_index hsub object false hs)
      · exact yields_pure hs

theorem yields_postfixed (object : Expr) (hs : I taken s) :
    Yields (postfixed sub object) s (fun _ => I taken) E :=
  h.yields_loop (h.steps_postfixStep hsub taken) hs

theorem yields_callOf {t : Token} (hs : I taken s) (ht : t ∈ s.stream.tokens)
    (hkind : t.kind = .name) :
    Yields (callOf scope sub (t.text?.getD "") t.cursor) s (fun _ => I true) E := by
  unfold callOf
  split
  · exact (h.yields_arguments hsub hs).bind fun _ _ hs₁ => yields_pure hs₁
  · rename_i hunknown
    refine h.unknown hs ht hkind (.inr rfl) fun hmem => hunknown ?_
    rw [List.contains_iff_mem.mpr hmem, Bool.true_or]

theorem yields_primary (hs : I taken s) : Yields (primary scope sub) s (fun _ => I true) E := by
  have hliteral {v : Value} : Yields (do
      advance
      return Expr.literal v) s (fun _ => I true) E :=
    (h.yields_advance hs).bind fun _ _ hs' => yields_pure hs'.2
  have hpostfixed {p : Parser Expr} {s : State} (hp : Yields p s (fun _ => I true) E) :
      Yields (do postfixed sub (← p)) s (fun _ => I true) E :=
    hp.bind fun e _ hs' => h.yields_postfixed hsub e hs'
  apply yields_peek_bind
  split
  · rename_i hkind
    refine (h.yields_advance hs).bind fun _ s₁ ⟨htokens, hs₁⟩ => ?_
    have hmem : s.stream.current ∈ s₁.stream.tokens := by
      rw [htokens]
      exact s.stream.current_mem_tokens
    dsimp only
    split
    · exact yields_pure hs₁
    · apply yields_check_bind
      split
      · exact hpostfixed (h.yields_callOf hsub hs₁ hmem hkind)
      · exact hpostfixed (h.yields_variableNamed hs₁ hmem hkind)
  · exact hliteral
  · exact hliteral
  · split
    · exact hpostfixed (h.yields_listLiteral hsub hs)
    · split
      · exact hpostfixed (h.yields_hashLiteral hsub hs)
      · exact h.yields_fail hs s.stream.current_mem_tokens rfl

theorem yields_operand (hs : I taken s) : Yields (operand scope sub) s (fun _ => I true) E := by
  apply yields_peek_bind
  cases unaryOp? s.stream.current with
  | some op =>
    exact (h.yields_advance hs).bind fun _ _ hs₁ => (h.yields_sub hsub _ hs₁.2).bind fun e _ hs₂ =>
      h.yields_postfixed hsub _ hs₂
  | none =>
    dsimp only
    split
    · exact (h.yields_advance hs).bind fun _ _ hs₁ => (h.yields_sub hsub 0 hs₁.2).bind fun e _ hs₂ =>
        (h.yields_expect _ _ hs₂).bind fun _ _ hs₃ => h.yields_postfixed hsub _ hs₃
    · exact h.yields_primary hsub hs

theorem steps_binaryStep (precedence : Nat) (taken : Bool) :
    Steps I E taken (binaryStep sub precedence) := by
  intro left s hs
  apply yields_peek_bind
  cases binaryOp? s.stream.current with
  | none => exact yields_pure hs
  | some op =>
    dsimp only
    split
    · exact yields_pure hs
    · exact (h.yields_advance hs).bind fun _ _ hs₁ =>
        (h.yields_sub hsub _ hs₁.2).bind fun _ _ hs₂ => yields_pure hs₂

theorem steps_coalesceStep (taken : Bool) : Steps I E taken (coalesceStep sub) := by
  intro left s hs
  apply yields_check_bind
  split
  · exact (h.yields_advance hs).bind fun _ _ hs₁ =>
      (h.yields_sub hsub 0 hs₁.2).bind fun _ _ hs₂ => yields_pure hs₂
  · exact yields_pure hs

theorem steps_conditionalStep (taken : Bool) : Steps I E taken (conditionalStep sub) := by
  intro condition s hs
  have hbranch {yes : Expr} {s : State} (hs : I true s) : Yields (do
      advance
      return (.again (.conditional condition yes (← sub 0)) : Progress Expr Expr)) s
        (Progress.Keeps (fun _ => I true) fun _ => I taken) E :=
    (h.yields_advance hs).bind fun _ _ hs₁ =>
      (h.yields_sub hsub 0 hs₁.2).bind fun _ _ hs₂ => yields_pure hs₂
  apply yields_check_bind
  split
  · exact yields_pure hs
  · refine (h.yields_advance hs).bind fun _ _ hs₁ => yields_check_bind ?_
    split
    · exact hbranch hs₁.2
    · refine (h.yields_sub hsub 0 hs₁.2).bind fun _ _ hs₂ => yields_check_bind ?_
      split
      · exact hbranch hs₂
      · exact yields_pure hs₂

end

end IsKept

/-- The state in which an expression that may be read begins. -/
def State.opened (s : State) : State :=
  { s with begun := s.begun + 1, depth := s.depth + 1, deepest := max s.deepest (s.depth + 1) }

/-- The state in which an expression begins that lies too deep to be read. -/
def State.overrun (s : State) : State := { s with begun := s.begun + 1, depth := s.depth + 1 }

section Expression

variable {I : Bool → State → Prop} {E : SyntaxError → State → Prop} (h : IsKept I E) {scope : Scope}
  {s : State}
include h

theorem yields_expression_zero {precedence : Nat} (hs : I false s.overrun) {Q : Expr → State → Prop} :
    Yields (expression scope 0 precedence) s Q E := by
  have ht : s.stream.current ∈ s.stream.tokens := s.stream.current_mem_tokens
  exact h.failure hs ht rfl

/-- An expression takes a token between its opening and its closing, and keeps what its parts keep. -/
theorem yields_expression_succ {levels precedence : Nat}
    (hsub : ∀ precedence s, I true s →
      Yields (expression scope levels precedence) s (fun _ => I true) E)
    (hs : I false s.opened) {Q : Expr → State → Prop}
    (hclose : ∀ e s', I true s' → Q e { s' with depth := s'.depth - 1 }) :
    Yields (expression scope (levels + 1) precedence) s Q E := by
  have hend {e : Expr} {s' : State} (hs' : I true s') : Yields (do
      closing
      return e) s' Q E := hclose e s' hs'
  have hchain : Yields (chain scope levels precedence) s.opened (fun _ => I true) E :=
    (h.yields_operand hsub hs).bind fun _ _ hs' => h.yields_loop (h.steps_binaryStep hsub precedence true) hs'
  rw [expression_succ]
  refine Yields.bind (Q := fun _ s' => s' = s.opened) rfl fun _ _ heq => ?_
  subst heq
  refine hchain.bind fun e s₁ hs₁ => ?_
  split
  · exact (h.yields_loop (h.steps_coalesceStep hsub true) hs₁).bind fun _ _ hs₂ =>
      (h.yields_loop (h.steps_conditionalStep hsub true) hs₂).bind fun _ _ hs₃ => hend hs₃
  · have hpure {e : Expr} {s : State} (hs : I true s) : Yields (pure e) s (fun _ => I true) E :=
      yields_pure hs
    exact (hpure hs₁).bind fun _ _ hs₂ => (hpure hs₂).bind fun _ _ hs₃ => hend hs₃

/-- Behind the expression only the kind of a token is looked at. -/
theorem yields_whole (hexpression : Yields (expression scope maxNesting 0) s (fun _ => I true) E) :
    Yields (whole scope) s (fun _ => I true) E := by
  refine hexpression.bind fun tree s' hs' => yields_peek_bind ?_
  split
  · exact yields_pure hs'
  · exact h.yields_fail hs' s'.stream.current_mem_tokens rfl

end Expression

end Parsing
end Formula
