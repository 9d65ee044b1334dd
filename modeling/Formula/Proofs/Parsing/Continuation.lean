import Formula.Proofs.Parsing.Ensures
import Formula.Proofs.Parsing.Resources
import Formula.Proofs.Parsing.Rereading

/-! What cannot stand behind a full expression. A turn of the loop over `??`, or of that over `?`, ends
with a full expression, so there is nothing left for another turn: operands with `??` between them are
grouped to the right. -/

namespace Formula

/-- A number, a string or a name: what can be an operand by itself. -/
def Content.IsAtom (c : Content) : Prop := c.kind = .number ∨ c.kind = .string ∨ c.kind = .name

/-- The tree of an atom before `??`, where an undeclared name passes as well. -/
def Scope.guarded (scope : Scope) (c : Content) : Expr :=
  (scope.atom? c).getD (.coalescedName ((c.token 0).text?.getD ""))

/-- The tree of atoms with `??` behind each, before the one of `e`. -/
def Scope.fallbacks (scope : Scope) (xs : List Content) (e : Expr) : Expr :=
  xs.foldr (fun x e => .coalesce (scope.guarded x) e) e

namespace Parsing

open Content (mark beforeFallback)

/-- No full expression goes on with the token. -/
structure Stops (t : Token) : Prop where
  operator : binaryOp? t = none
  fallback : t.isPunctuation "??" = false
  condition : t.isPunctuation "?" = false

/-- How many turns the loop of a step takes. A step that fails has begun one. -/
inductive Turns {α β : Type} (step : α → Parser (Progress α β)) :
    α → State → Nat → EStateM.Result SyntaxError State β → Prop
  | done {a s b s'} : step a s = .ok (.done b) s' → Turns step a s 0 (.ok b s')
  | error {a s e s'} : step a s = .error e s' → Turns step a s 1 (.error e s')
  | again {a s a' s' n r} : step a s = .ok (.again a') s' → Turns step a' s' n r →
      Turns step a s (n + 1) r

variable {α β : Type} {step : α → Parser (Progress α β)} {sub : Nat → Parser Expr} {scope : Scope}
  {limited : Prop} {levels n : Nat} {a : α} {b : β} {s s' : State} {c : Content} {e : Expr}
  {r : EStateM.Result SyntaxError State β}

/-! What a full expression leaves behind. -/

theorem Stops.of_content {t t' : Token} (h : Stops t) (heq : t'.content = t.content) : Stops t' where
  operator := (congrArg Content.binaryOp? heq).trans h.operator
  fallback := (congrArg (Content.isMark · "??") heq).trans h.fallback
  condition := (congrArg (Content.isMark · "?") heq).trans h.condition

theorem ensures_chain (scope : Scope) (levels : Nat) (s : State) :
    Ensures (chain scope levels 0) s fun _ s' => binaryOp? s'.stream.current = none := by
  refine (ensures_true _ s).bind fun e s _ => ensures_loop (fun _ _ => True) (fun e s _ => ?_) trivial
  refine ensures_peek_bind ?_
  split
  · rename_i hop
    exact ensures_pure hop
  · rw [if_neg (Nat.not_lt_zero _)]
    refine (ensures_advance s).bind fun _ s _ => (ensures_true _ s).bind fun right s _ => ?_
    exact ensures_pure trivial

section Steps

variable (hsub : ∀ s, Ensures (sub 0) s fun _ s' => Stops s'.stream.current)
include hsub

/-- Where there is no `??` the step does nothing; elsewhere it ends behind a full expression. -/
theorem ensures_coalesceStep (e : Expr) (s : State) : Ensures (coalesceStep sub e) s
    (Progress.Keeps (fun _ s' => Stops s'.stream.current)
      fun _ s' => s' = s ∧ s.stream.current.isPunctuation "??" = false) := by
  refine ensures_check_bind ?_
  split
  · refine (ensures_advance s).bind fun _ s₁ _ => (hsub s₁).bind fun _ s₂ hs₂ => ?_
    exact ensures_pure hs₂
  · rename_i hmark
    exact ensures_pure ⟨rfl, Bool.eq_false_iff.mpr hmark⟩

theorem ensures_conditionalStep (e : Expr) (s : State) : Ensures (conditionalStep sub e) s
    (Progress.Keeps (fun _ s' => Stops s'.stream.current)
      fun _ s' => s' = s ∧ s.stream.current.isPunctuation "?" = false) := by
  refine ensures_check_bind ?_
  cases hmark : s.stream.current.isPunctuation "?" with
  | false => exact ensures_pure ⟨rfl, rfl⟩
  | true =>
    refine (ensures_advance s).bind fun _ s₁ _ => ensures_check_bind ?_
    split
    · refine (ensures_advance s₁).bind fun _ s₂ _ => (hsub s₂).bind fun _ s₃ hs₃ => ?_
      exact ensures_pure hs₃
    · refine (hsub s₁).bind fun _ s₂ hs₂ => ensures_check_bind ?_
      split
      · refine (ensures_advance s₂).bind fun _ s₃ _ => (hsub s₃).bind fun _ s₄ hs₄ => ?_
        exact ensures_pure hs₄
      · exact ensures_pure hs₂

/-- The loop over `??` ends where there is none. What a turn of it leaves is no operator either. -/
theorem ensures_loop_coalesceStep (e : Expr) (hop : binaryOp? s.stream.current = none) :
    Ensures (loop (coalesceStep sub) e) s fun _ s' =>
      binaryOp? s'.stream.current = none ∧ s'.stream.current.isPunctuation "??" = false := by
  refine ensures_loop (fun _ s => binaryOp? s.stream.current = none) (fun e s hop => ?_) hop
  refine (ensures_coalesceStep hsub e s).imp fun progress s' h => ?_
  cases progress with
  | again e' => exact h.operator
  | done e' =>
    obtain ⟨rfl, hmark⟩ := h
    exact ⟨hop, hmark⟩

theorem ensures_loop_conditionalStep (e : Expr) (hs : binaryOp? s.stream.current = none ∧
    s.stream.current.isPunctuation "??" = false) :
    Ensures (loop (conditionalStep sub) e) s fun _ s' => Stops s'.stream.current := by
  refine ensures_loop (fun _ s => binaryOp? s.stream.current = none ∧
    s.stream.current.isPunctuation "??" = false) (fun e s hs => ?_) hs
  refine (ensures_conditionalStep hsub e s).imp fun progress s' h => ?_
  cases progress with
  | again e' => exact ⟨h.operator, h.fallback⟩
  | done e' =>
    obtain ⟨rfl, hmark⟩ := h
    exact ⟨hs.1, hs.2, hmark⟩

end Steps

theorem ensures_stops (scope : Scope) (levels : Nat) (s : State) :
    Ensures (expression scope levels 0) s fun _ s' => Stops s'.stream.current := by
  induction levels generalizing s with
  | zero =>
    exact (ensures_opening false s).bind fun _ s _ => ensures_peek_bind (ensures_fail _ _ s _)
  | succ levels ih =>
    rw [expression_succ]
    refine (ensures_opening true s).bind fun _ s _ => ?_
    refine (ensures_chain scope levels s).bind fun e s hop => ?_
    simp only [beq_self_eq_true, if_true]
    refine (ensures_loop_coalesceStep ih e hop).bind fun e s hs => ?_
    refine (ensures_loop_conditionalStep ih e hs).bind fun e s hs => ?_
    refine (ensures_closing s).bind fun _ s' hs' => ensures_pure ?_
    exact hs.of_content (List.cons.inj hs').1

/-! How often the loops are gone through. -/

theorem Iterates.exists_turns (h : Iterates step a s r) : ∃ n, Turns step a s n r := by
  induction h with
  | error hs => exact ⟨1, .error hs⟩
  | done hs => exact ⟨0, .done hs⟩
  | again hs _ ih =>
    obtain ⟨n, hn⟩ := ih
    exact ⟨n + 1, .again hs hn⟩

theorem Turns.eq_of_done (h : Turns step a s n r) (hs : step a s = .ok (.done b) s') :
    n = 0 ∧ r = .ok b s' := by
  cases h with
  | done hs' =>
    obtain ⟨heq, rfl⟩ := EStateM.Result.ok.inj (hs'.symm.trans hs)
    obtain rfl := Progress.done.inj heq
    exact ⟨rfl, rfl⟩
  | error hs' => cases hs'.symm.trans hs
  | again hs' _ => cases hs'.symm.trans hs

/-- If a turn ends where the step asks for no other one, there is none. -/
theorem Turns.le_one {P : State → Prop} (hrest : ∀ a s, P s → ∃ b, step a s = .ok (.done b) s)
    (hturn : ∀ a s a' s', step a s = .ok (.again a') s' → P s') (h : Turns step a s n r) :
    n ≤ 1 ∧ (n = 1 → ∀ b s', r = .ok b s' → P s') := by
  cases h with
  | done => exact ⟨Nat.zero_le 1, nofun⟩
  | error => exact ⟨le_rfl, nofun⟩
  | again hs hnext =>
    have hP := hturn _ _ _ _ hs
    obtain ⟨b, hb⟩ := hrest _ _ hP
    obtain ⟨rfl, rfl⟩ := hnext.eq_of_done hb
    refine ⟨le_rfl, ?_⟩
    rintro - b' s'' ⟨⟩
    exact hP

theorem coalesceStep_done (sub : Nat → Parser Expr) (e : Expr)
    (h : s.stream.current.isPunctuation "??" = false) : coalesceStep sub e s = .ok (.done e) s := by
  change (if s.stream.current.isPunctuation "??" then _ else _ : Parser _) s = _
  rw [h]
  rfl

theorem conditionalStep_done (sub : Nat → Parser Expr) (e : Expr)
    (h : s.stream.current.isPunctuation "?" = false) :
    conditionalStep sub e s = .ok (.done e) s := by
  change (if !s.stream.current.isPunctuation "?" then _ else _ : Parser _) s = _
  rw [h]
  rfl

/-- Behind a chain the loop over `??` takes one turn, or that over `?` does, or neither. -/
theorem exists_turns (scope : Scope) (levels : Nat) (e : Expr) (s : State) :
    let coalesce := coalesceStep (expression scope levels)
    let conditional := conditionalStep (expression scope levels)
    ∃ n ≤ 1, Turns coalesce e s n (loop coalesce e s) ∧
      ∀ e' s', loop coalesce e s = .ok e' s' →
        ∃ m, n + m ≤ 1 ∧ Turns conditional e' s' m (loop conditional e' s') := by
  intro coalesce conditional
  have hends := loopsEnd_expression scope levels
  have hsub := ensures_stops scope levels
  obtain ⟨n, hn⟩ := (hends.fallbacks e s).exists_turns
  obtain ⟨hle, hstops⟩ := hn.le_one (P := fun s => Stops s.stream.current)
    (fun e s hs => ⟨e, coalesceStep_done _ e hs.fallback⟩)
    fun e s e' s' hs => ensures_coalesceStep hsub e s _ s' hs
  refine ⟨n, hle, hn, fun e' s' hloop => ?_⟩
  obtain ⟨m, hm⟩ := (hends.conditionals e' s').exists_turns
  obtain ⟨hle', -⟩ := hm.le_one (P := fun s => Stops s.stream.current)
    (fun e s hs => ⟨e, conditionalStep_done _ e hs.condition⟩)
    fun e s e' s' hs => ensures_conditionalStep hsub e s _ s' hs
  refine ⟨m, ?_, hm⟩
  obtain rfl | rfl := Nat.le_one_iff_eq_zero_or_eq_one.mp hle
  · rwa [Nat.zero_add]
  · obtain ⟨rfl, -⟩ := hm.eq_of_done (conditionalStep_done _ e' (hstops rfl e' s' hloop).condition)
    exact le_rfl

/-! Chains of fallbacks. -/

/-- An atom that cannot stand alone is a name that is not declared. -/
theorem eq_name_of_atom?_eq_none (h : c.IsAtom) (hnone : scope.atom? c = none) :
    ∃ value, c = ⟨.name, value⟩ ∧ scope.named? ((c.token 0).text?.getD "") = none := by
  obtain ⟨kind, value⟩ := c
  obtain rfl | rfl | rfl := h
  · cases hnone
  · cases hnone
  · exact ⟨value, rfl, hnone⟩

theorem reads_operand_undeclared {value : Value} {name : String}
    (htext : (Content.token ⟨.name, value⟩ 0).text?.getD "" = name) (hname : scope.named? name = none)
    (tail : List Content) :
    Reads limited (operand scope sub) (⟨.name, value⟩ :: mark "??" :: tail) (.coalescedName name)
      (mark "??" :: tail) := by
  obtain ⟨hconstant, hunknown⟩ : constant? name = none ∧
      (scope.leniency.unknownVariables || scope.spellings.contains name) = false := by
    unfold Scope.named? at hname
    split at hname
    · cases hname
    · rename_i hconstant
      split at hname
      · cases hname
      · rename_i hunknown
        exact ⟨hconstant, Bool.eq_false_iff.mpr hunknown⟩
  refine reads_peek_bind fun cursor => reads_peek_bind fun cursor => ?_
  refine (reads_advance _ (mark "??") tail).bind ?_
  have htext' : (Content.token ⟨.name, value⟩ cursor).text?.getD "" = name := htext
  simp only [htext', hconstant]
  refine (reads_check "(" (mark "??") tail).bind ?_
  simp only [Content.isMark_mark, variableNamed, hunknown]
  refine Reads.bind ?_ (reads_postfixed_done sub rfl)
  exact (reads_check "??" (mark "??") tail).bind (reads_pure _ _)

/-- An atom before `??` is read, whether it is declared or not. -/
theorem reads_chain_guarded (h : c.IsAtom) (tail : List Content) :
    Reads limited (chain scope levels 0) (c :: mark "??" :: tail) (scope.guarded c)
      (mark "??" :: tail) := by
  cases hatom : scope.atom? c with
  | some e =>
    have htree : scope.guarded c = e := by rw [Scope.guarded, hatom, Option.getD_some]
    rw [htree]
    exact (isOperand_atom hatom).isChain (mark "??") tail rfl rfl
  | none =>
    obtain ⟨value, rfl, hname⟩ := eq_name_of_atom?_eq_none h hatom
    rw [Scope.guarded, hatom, Option.getD_none]
    exact (reads_operand_undeclared rfl hname tail).bind
      (reads_loop_done (reads_binaryStep_done _ 0 nofun))

theorem isFull_fallbacks {rs xs : List Content} (hxs : ∀ x ∈ xs, x.IsAtom)
    (h : IsFull limited scope levels rs e) :
    IsFull limited scope (levels + xs.length) (beforeFallback xs ++ rs) (scope.fallbacks xs e) := by
  induction xs with
  | nil => exact h
  | cons x xs ih =>
    rw [List.forall_mem_cons] at hxs
    have hx (tail : List Content) : Reads limited (chain scope (levels + xs.length) 0)
        ([x] ++ mark "??" :: tail) (scope.guarded x) (mark "??" :: tail) :=
      reads_chain_guarded hxs.1 tail
    exact isFull_fallback hx (ih hxs.2)

/-- Atoms with `??` between them, the last of them a declared one. -/
theorem isFull_atoms {xs : List Content} (hlength : xs.length < maxNesting) (hxs : ∀ x ∈ xs, x.IsAtom)
    (hlast : scope.atom? c = some e) :
    IsFull limited scope maxNesting (beforeFallback xs ++ [c]) (scope.fallbacks xs e) := by
  have hfull : IsFull limited scope (maxNesting - 1 - xs.length + 1) [c] e :=
    isFull_of_isChain (isOperand_atom hlast).isChain
  have hlevels : maxNesting - 1 - xs.length + 1 + xs.length = maxNesting := by omega
  exact hlevels ▸ isFull_fallbacks hxs hfull

theorem isAtom_of_spellsAtom {text : String} (h : SpellsAtom text c) : c.IsAtom := by
  cases h with
  | number => exact .inl rfl
  | string => exact .inr (.inl rfl)
  | name => exact .inr (.inr rfl)

/-- A full expression leaves no binary operator, no `??` and no `?` behind it. So the loops over `??` and
`?` take one turn at most, both together, and atoms with `??` between them are grouped to the right. -/
theorem expression_stops (scope : Scope) :
    (∀ levels s, Ensures (expression scope levels 0) s fun _ s' => Stops s'.stream.current) ∧
    (∀ levels e s,
      let coalesce := coalesceStep (expression scope levels)
      let conditional := conditionalStep (expression scope levels)
      ∃ n ≤ 1, Turns coalesce e s n (loop coalesce e s) ∧
        ∀ e' s', loop coalesce e s = .ok e' s' →
          ∃ m, n + m ≤ 1 ∧ Turns conditional e' s' m (loop conditional e' s')) ∧
    (∀ (xs : List Content) last e (stream : TokenStream), xs.length < 128 → (∀ x ∈ xs, x.IsAtom) →
      scope.atom? last = some e →
      (stream.current :: stream.after).map Token.content = beforeFallback xs ++ [last, .ending] →
        parseTokens scope stream = .ok (scope.fallbacks xs e)) ∧
    ∀ (xs : List (String × Content)) text last e, xs.length < 128 →
      (∀ x ∈ xs, SpellsAtom x.1 x.2) → SpellsAtom text last →
      scope.atom? last = some e →
        parseText scope (String.intercalate " ?? " (xs.map Prod.fst ++ [text])) =
          .ok (scope.fallbacks (xs.map Prod.snd) e) := by
  refine ⟨ensures_stops scope, exists_turns scope, ?_, ?_⟩
  · intro xs last e stream hlength hxs hlast hcontents
    rw [List.append_cons] at hcontents
    exact parseTokens_of_isFull hcontents (isFull_atoms hlength hxs hlast)
  · intro xs text last e hlength hxs htext hlast
    have hatoms : ∀ x ∈ xs.map Prod.snd, x.IsAtom :=
      List.forall_mem_map.mpr fun x hx => isAtom_of_spellsAtom (hxs x hx)
    have hscans := scans_fallbacks hxs htext [] rfl fun _ => rfl
    rw [List.append_nil] at hscans
    refine parseText_of_isFull (Lexer.tokenize_of_reaches hscans) (isFull_atoms ?_ hatoms hlast)
    rwa [List.length_map]

theorem expression_stops_undeclared :
    let scope : Scope := ⟨[], ["b"], [], {}⟩
    let behind : State := { stream := ⟨"b ? b", [⟨.name, .string "b", 1⟩],
      ⟨.punctuation, .string "?", 3⟩, [⟨.name, .string "b", 5⟩, .ending 6]⟩ }
    let fallback := TokenStream.ofTokens "a ?? b"
      [⟨.name, .string "a", 1⟩, ⟨.punctuation, .string "??", 3⟩, ⟨.name, .string "b", 6⟩]
    (∃ e s', expression scope 2 0 { stream := fallback } = .ok e s' ∧ Stops s'.stream.current) ∧
    (∃ n ≤ 1, ∃ e' s', loop (coalesceStep (expression scope 1)) (.name "b") behind = .ok e' s' ∧
      ∃ m, n + m ≤ 1 ∧ Turns (conditionalStep (expression scope 1)) e' s' m
        (loop (conditionalStep (expression scope 1)) e' s')) ∧
    parseTokens scope fallback = .ok (.coalesce (.coalescedName "a") (.name "b")) ∧
    parseText scope "a ?? 'x\t' ?? 1_0 ?? b" = .ok (.coalesce (.coalescedName "a")
      (.coalesce (.literal (.string "x ")) (.coalesce (.literal (.int 10)) (.name "b")))) := by
  intro scope behind fallback
  obtain ⟨hstops, hturns, htokens, htext⟩ := expression_stops scope
  refine ⟨?_, ?_, ?_, ?_⟩
  · have hrun : ∃ e s', expression scope 2 0 { stream := fallback } = .ok e s' := ⟨_, _, rfl⟩
    obtain ⟨e, s', hrun⟩ := hrun
    exact ⟨e, s', hrun, hstops 2 _ e s' hrun⟩
  · obtain ⟨n, hle, -, hnext⟩ := hturns 1 (.name "b") behind
    have hloop : loop (coalesceStep (expression scope 1)) (.name "b") behind = .ok (.name "b") behind :=
      rfl
    exact ⟨n, hle, _, _, hloop, hnext _ _ hloop⟩
  · have hatoms : ∀ x ∈ [Content.name "a"], x.IsAtom :=
      List.forall_mem_singleton.mpr (.inr (.inr rfl))
    exact htokens [.name "a"] (.name "b") (.name "b") fallback (by decide) hatoms rfl rfl
  · have hname {n : String} (h : n ∈ ["a", "b"]) : SpellsAtom n (.name n) := by
      simp only [List.mem_cons, List.not_mem_nil, or_false] at h
      rcases h with rfl | rfl <;> exact .name (by decide) (by decide)
    have hstring : SpellsAtom "'x\t'" ⟨.string, .string "x "⟩ := by
      have hquotes : Lexer.Quotes '\'' (['x', '\t'].map Lexer.normalize) ['x', ' '] :=
        .plain (by decide) (by decide) (.plain (by decide) (by decide) .nil)
      have h := SpellsAtom.string (.inr rfl) hquotes
      have hlexeme : String.ofList ('\'' :: (['x', '\t'] ++ ['\''])) = "'x\t'" := by cbv
      have hvalue : String.ofList ['x', ' '] = "x " := by cbv
      rwa [hlexeme, hvalue] at h
    have hnumber : SpellsAtom "1_0" ⟨.number, .int 10⟩ := by
      have hdigits : Lexer.IsDigits ['1', '_', '0'] := .separated rfl (.last rfl)
      have h := SpellsAtom.number (.mantissa (.whole hdigits))
      have hlexeme : String.ofList ['1', '_', '0'] = "1_0" := by cbv
      have hvalue : Lexer.numberValue true ['1', '_', '0'] = .int 10 := by
        simp [Lexer.numberValue, Number.natOfDigits, Number.digitValue, Number.int64?]
      rwa [hlexeme, hvalue] at h
    have hatoms : ∀ x ∈ [("a", Content.name "a"), ("'x\t'", ⟨.string, .string "x "⟩),
        ("1_0", ⟨.number, .int 10⟩)], SpellsAtom x.1 x.2 := by
      rw [List.forall_mem_cons, List.forall_mem_cons, List.forall_mem_singleton]
      exact ⟨hname (by simp), hstring, hnumber⟩
    have hparse := htext _ "b" (.name "b") (.name "b") (by simp) hatoms (hname (by simp)) rfl
    have hjoined : String.intercalate " ?? " ["a", "'x\t'", "1_0", "b"] =
      "a ?? 'x\t' ?? 1_0 ?? b" := by cbv
    rw [← hjoined]
    exact hparse

end Parsing
end Formula
