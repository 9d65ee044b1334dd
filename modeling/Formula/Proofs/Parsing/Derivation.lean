import Formula.Proofs.Parsing.Ensures

/-! Which tokens the parts of a tree are made of: whatever a production builds has a derivation from
the contents that it takes. -/

namespace Formula

/-- The text of a name. -/
def Content.text (c : Content) : String := (c.token 0).text?.getD ""

namespace Scope

/-- Whether a scope lets the name of a variable pass. -/
def Knows (scope : Scope) (name : String) : Prop :=
  scope.leniency.unknownVariables = true ∨ name ∈ scope.spellings

def KnowsFunction (scope : Scope) (name : String) : Prop :=
  name ∈ scope.functions ∨ scope.leniency.unknownFunctions = true

end Scope

/-- What a production comes to. Arguments have their parentheses, expressions and entries no brackets. -/
inductive Phrase
  | expr (e : Expr)
  | exprs (es : List Expr)
  | arguments (es : List Expr)
  | key (e : Expr)
  | entries (es : List (Expr × Expr))

/-- What may stand behind some items of a sequence and before the next one. -/
inductive Separates {α : Type} : List α → List Content → List Content → Prop
  | first {cs} : Separates [] cs cs
  | comma {as c cs} : as ≠ [] → c.isMark "," = true → Separates as (c :: cs) cs

/-- A phrase may be made of the contents that stand in front of a rest. The condition of `a ?: b`
stands in the tree twice. -/
inductive Derives (scope : Scope) : List Content → Phrase → List Content → Prop
  | literal {c rest} : c.kind = .number ∨ c.kind = .string →
      Derives scope (c :: rest) (.expr (.literal c.value)) rest
  | constant {c v rest} : c.kind = .name → Parsing.constant? c.text = some v →
      Derives scope (c :: rest) (.expr (.literal v)) rest
  | name {c rest} : c.kind = .name → scope.Knows c.text →
      Derives scope (c :: rest) (.expr (.name (scope.key c.text))) rest
  | coalescedName {c d rest} : c.kind = .name → ¬scope.Knows c.text → d.isMark "??" = true →
      Derives scope (c :: d :: rest) (.expr (.coalescedName c.text)) (d :: rest)
  | call {c cs as rest} : c.kind = .name → scope.KnowsFunction c.text →
      Derives scope cs (.arguments as) rest → Derives scope (c :: cs) (.expr (.call c.text as)) rest
  | enclosed {o cs e d rest} : o.isMark "(" = true → Derives scope cs (.expr e) (d :: rest) →
      d.isMark ")" = true → Derives scope (o :: cs) (.expr e) rest
  | unary {c op cs e rest} : c.unaryOp? = some op → Derives scope cs (.expr e) rest →
      Derives scope (c :: cs) (.expr (.unary op e)) rest
  | binary {cs l c op mid r rest} : Derives scope cs (.expr l) (c :: mid) → c.binaryOp? = some op →
      Derives scope mid (.expr r) rest → Derives scope cs (.expr (.binary op l r)) rest
  | coalesce {cs l c mid f rest} : Derives scope cs (.expr l) (c :: mid) → c.isMark "??" = true →
      Derives scope mid (.expr f) rest → Derives scope cs (.expr (.coalesce l f)) rest
  | conditional {cs c q mid yes d mid' no rest} : Derives scope cs (.expr c) (q :: mid) →
      q.isMark "?" = true → Derives scope mid (.expr yes) (d :: mid') → d.isMark ":" = true →
      Derives scope mid' (.expr no) rest → Derives scope cs (.expr (.conditional c yes no)) rest
  | conditionalNull {cs c q mid yes rest} : Derives scope cs (.expr c) (q :: mid) →
      q.isMark "?" = true → Derives scope mid (.expr yes) rest →
      Derives scope cs (.expr (.conditional c yes (.literal .null))) rest
  | conditionalSelf {cs c q d mid no rest} : Derives scope cs (.expr c) (q :: d :: mid) →
      q.isMark "?" = true → d.isMark ":" = true → Derives scope mid (.expr no) rest →
      Derives scope cs (.expr (.conditional c c no)) rest
  | property (nullSafe) {cs o dot c n rest} : Derives scope cs (.expr o) (dot :: c :: rest) →
      dot.isMark (if nullSafe then "?." else ".") = true → Parsing.memberName? (c.token 0) = some n →
      Derives scope cs (.expr (.access .property nullSafe o (.identifier n) [])) rest
  | method (nullSafe) {cs o dot c n mid as rest} : Derives scope cs (.expr o) (dot :: c :: mid) →
      dot.isMark (if nullSafe then "?." else ".") = true → Parsing.memberName? (c.token 0) = some n →
      Derives scope mid (.arguments as) rest →
      Derives scope cs (.expr (.access .method nullSafe o (.identifier n) as)) rest
  | index {cs o b mid k d rest} : Derives scope cs (.expr o) (b :: mid) → b.isMark "[" = true →
      Derives scope mid (.expr k) (d :: rest) → d.isMark "]" = true →
      Derives scope cs (.expr (.access .index false o k [])) rest
  | nullSafeIndex {cs o q b mid k d rest} : Derives scope cs (.expr o) (q :: b :: mid) →
      q.isMark "?." = true → b.isMark "[" = true → Derives scope mid (.expr k) (d :: rest) →
      d.isMark "]" = true → Derives scope cs (.expr (.access .index true o k [])) rest
  | list {o cs es mid d rest} : o.isMark "[" = true → Derives scope cs (.exprs es) mid →
      mid = d :: rest ∨ Separates es mid (d :: rest) → d.isMark "]" = true →
      Derives scope (o :: cs) (.expr (.list es)) rest
  | hash {o cs es mid d rest} : o.isMark "\x7b" = true → Derives scope cs (.entries es) mid →
      mid = d :: rest ∨ Separates es mid (d :: rest) → d.isMark "\x7d" = true →
      Derives scope (o :: cs) (.expr (.hash es)) rest
  | noExprs {cs} : Derives scope cs (.exprs []) cs
  | nextExpr {cs es mid mid' e rest} : Derives scope cs (.exprs es) mid → Separates es mid mid' →
      Derives scope mid' (.expr e) rest → Derives scope cs (.exprs (es ++ [e])) rest
  | arguments {o cs as d rest} : o.isMark "(" = true → Derives scope cs (.exprs as) (d :: rest) →
      d.isMark ")" = true → Derives scope (o :: cs) (.arguments as) rest
  | keyToken {c rest} : c.kind = .string ∨ c.kind = .name ∨ c.kind = .number →
      Derives scope (c :: rest) (.key (.literal c.value)) rest
  | keyExpr {c cs e rest} : c.isMark "(" = true → Derives scope (c :: cs) (.expr e) rest →
      Derives scope (c :: cs) (.key e) rest
  | noEntries {cs} : Derives scope cs (.entries []) cs
  | nextEntry {cs es mid mid' k d mid'' v rest} : Derives scope cs (.entries es) mid →
      Separates es mid mid' → Derives scope mid' (.key k) (d :: mid'') → d.isMark ":" = true →
      Derives scope mid'' (.expr v) rest → Derives scope cs (.entries (es ++ [(k, v)])) rest

namespace Parsing

variable {α β : Type} {scope : Scope} {sub : Nat → Parser Expr} {base : List Content} {s : State}
  {object : Expr} {R : β → State → Prop}

/-- What was built since `base` lay ahead has a derivation from what was taken. -/
def Derived (scope : Scope) (base : List Content) (phrase : α → Phrase) (a : α) (s : State) : Prop :=
  Derives scope base (phrase a) s.ahead

/-- The same of items that are kept in reverse. -/
def DerivedItems (scope : Scope) (base : List Content) (phrase : List α → Phrase) (done : List α)
    (s : State) : Prop :=
  Derives scope base (phrase done.reverse) s.ahead

/-- The same of all items, behind which a comma may have been taken. -/
def DerivedAll (scope : Scope) (base : List Content) (phrase : List α → Phrase) (as : List α)
    (s : State) : Prop :=
  ∃ mid, Derives scope base (phrase as) mid ∧ (mid = s.ahead ∨ Separates as mid s.ahead)

theorem ensures_separator {done : List α} {message : Option String} {p : Parser β}
    (h : ∀ s', Separates done.reverse s.ahead s'.ahead → Ensures p s' R) :
    Ensures (do
      if !done.isEmpty then expectPunctuation "," message
      p) s R := by
  split
  · rename_i hdone
    refine (ensures_expect _ _ s).bind fun _ s' ⟨hcomma, hs'⟩ => h s' ?_
    rw [hs']
    exact .comma (by simpa using hdone) hcomma
  · rename_i hdone
    refine h s ?_
    obtain rfl : done = [] := by simpa using hdone
    exact .first

theorem derives_variableNamed {c : Content} (hkind : c.kind = .name) (cursor : Nat)
    (hbase : base = c :: s.ahead) :
    Ensures (variableNamed scope c.text cursor) s (Derived scope base .expr) := by
  subst hbase
  unfold variableNamed
  split
  · rename_i hknown
    exact ensures_pure (.name hkind (by simpa [Scope.Knows] using hknown))
  · rename_i hunknown
    apply ensures_check_bind
    split
    · rename_i hmark
      refine ensures_pure ?_
      unfold Derived
      rw [ahead_eq]
      exact .coalescedName hkind (by simpa [Scope.Knows] using hunknown) hmark
    · intro e s' hrun
      cases hrun

section

variable (hsub : ∀ precedence s, Ensures (sub precedence) s (Derived scope s.ahead .expr))
include hsub

theorem derives_nextExpr {done : List Expr} {mid : List Content}
    (hdone : Derives scope base (.exprs done.reverse) mid)
    (hseparates : Separates done.reverse mid s.ahead) : Ensures (do
      let e ← sub 0
      return Progress.again (e :: done)) s (Progress.Keeps (DerivedItems scope base .exprs) R) := by
  refine (hsub 0 s).bind fun e s' he => ensures_pure ?_
  show Derives scope base (.exprs (e :: done).reverse) s'.ahead
  rw [List.reverse_cons]
  exact .nextExpr hdone hseparates he

theorem derives_arguments : Ensures (arguments sub) s (Derived scope s.ahead .arguments) := by
  refine (ensures_expect _ _ s).bind fun _ s₁ ⟨hopen, hs₁⟩ =>
    Ensures.bind (Q := Derived scope s₁.ahead .exprs)
      (ensures_loop (DerivedItems scope s₁.ahead .exprs) ?_ .noExprs) ?_
  · intro done s hdone
    apply ensures_check_bind
    split
    · exact ensures_pure hdone
    · exact ensures_separator fun s' hs' => derives_nextExpr hsub hdone hs'
  · intro as s₂ has
    refine (ensures_expect _ _ s₂).bind fun _ s₃ ⟨hclose, hs₃⟩ => ensures_pure ?_
    unfold Derived at has ⊢
    rw [hs₁]
    rw [hs₃] at has
    exact .arguments hopen has hclose

theorem derives_listLiteral : Ensures (listLiteral sub) s (Derived scope s.ahead .expr) := by
  refine (ensures_expect _ _ s).bind fun _ s₁ ⟨hopen, hs₁⟩ =>
    Ensures.bind (Q := DerivedAll scope s₁.ahead .exprs)
      (ensures_loop (DerivedItems scope s₁.ahead .exprs) ?_ .noExprs) ?_
  · intro done s hdone
    apply ensures_check_bind
    split
    · exact ensures_pure ⟨_, hdone, .inl rfl⟩
    · refine ensures_separator fun s' hs' => ensures_check_bind ?_
      split
      · exact ensures_pure ⟨_, hdone, .inr hs'⟩
      · exact derives_nextExpr hsub hdone hs'
  · rintro es s₂ ⟨mid, hes, hmid⟩
    refine (ensures_expect _ _ s₂).bind fun _ s₃ ⟨hclose, hs₃⟩ => ensures_pure ?_
    rw [hs₃] at hmid
    unfold Derived
    rw [hs₁]
    exact .list hopen hes hmid hclose

theorem derives_hashKey : Ensures (hashKey sub) s (Derived scope s.ahead .key) := by
  have htoken (hkind : s.stream.current.kind = .string ∨ s.stream.current.kind = .name ∨
      s.stream.current.kind = .number) : Ensures (do
        advance
        return .literal s.stream.current.value) s (Derived scope s.ahead .key) := by
    refine (ensures_advance s).bind fun _ s' hs' => ensures_pure ?_
    unfold Derived
    rw [hs']
    exact .keyToken hkind
  apply ensures_peek_bind
  split
  · rename_i hkind
    exact htoken (.inl hkind)
  · rename_i hkind
    exact htoken (.inr (.inl hkind))
  · rename_i hkind
    exact htoken (.inr (.inr hkind))
  · split
    · rename_i hmark
      refine fun k s' hrun => ?_
      exact .keyExpr hmark (hsub 0 s k s' hrun)
    · exact ensures_fail _ _ _ _

theorem derives_hashLiteral : Ensures (hashLiteral sub) s (Derived scope s.ahead .expr) := by
  refine (ensures_expect _ _ s).bind fun _ s₁ ⟨hopen, hs₁⟩ =>
    Ensures.bind (Q := DerivedAll scope s₁.ahead .entries)
      (ensures_loop (DerivedItems scope s₁.ahead .entries) ?_ .noEntries) ?_
  · intro done s hdone
    apply ensures_check_bind
    split
    · exact ensures_pure ⟨_, hdone, .inl rfl⟩
    · refine ensures_separator fun s' hs' => ensures_check_bind ?_
      split
      · exact ensures_pure ⟨_, hdone, .inr hs'⟩
      · refine (derives_hashKey hsub).bind fun k s₂ hk => ?_
        refine (ensures_expect _ _ s₂).bind fun _ s₃ ⟨hcolon, hs₃⟩ => ?_
        refine (hsub 0 s₃).bind fun v s₄ hv => ensures_pure ?_
        show Derives scope s₁.ahead (.entries ((k, v) :: done).reverse) s₄.ahead
        unfold Derived at hk
        rw [hs₃] at hk
        rw [List.reverse_cons]
        exact .nextEntry hdone hs' hk hcolon hv
  · rintro es s₂ ⟨mid, hes, hmid⟩
    refine (ensures_expect _ _ s₂).bind fun _ s₃ ⟨hclose, hs₃⟩ => ensures_pure ?_
    rw [hs₃] at hmid
    unfold Derived
    rw [hs₁]
    exact .hash hopen hes hmid hclose

theorem derives_index (nullSafe : Bool) (hmark : s.stream.current.isPunctuation "[" = true)
    (ho : if nullSafe then ∃ q, q.isMark "?." = true ∧ Derives scope base (.expr object) (q :: s.ahead)
      else Derives scope base (.expr object) s.ahead) :
    Ensures (index sub object nullSafe) s (Derived scope base .expr) := by
  refine (ensures_advance s).bind fun _ s₁ hs₁ => (hsub 0 s₁).bind fun k s₂ hk => ?_
  refine (ensures_expect _ _ s₂).bind fun _ s₃ ⟨hclose, hs₃⟩ => ensures_pure ?_
  unfold Derived at hk ⊢
  rw [hs₃] at hk
  rw [hs₁] at ho
  cases nullSafe with
  | false => exact .index ho hmark hk hclose
  | true =>
    obtain ⟨q, hq, ho⟩ := ho
    exact .nullSafeIndex ho hq hmark hk hclose

theorem derives_member (nullSafe : Bool) {dot : Content}
    (hdot : dot.isMark (if nullSafe then "?." else ".") = true)
    (ho : Derives scope base (.expr object) (dot :: s.ahead)) :
    Ensures (member sub object nullSafe) s (Derived scope base .expr) := by
  refine ensures_peek_bind ((ensures_advance s).bind fun _ s₁ hs₁ => ?_)
  rw [hs₁] at ho
  cases hname : memberName? s.stream.current with
  | none => exact ensures_fail _ _ _ _
  | some n =>
    apply ensures_check_bind
    split
    · exact (derives_arguments hsub).bind fun as s₂ has =>
        ensures_pure (.method nullSafe ho hdot hname has)
    · exact ensures_pure (.property nullSafe ho hdot hname)

theorem derives_postfixed (ho : Derives scope base (.expr object) s.ahead) :
    Ensures (postfixed sub object) s (Derived scope base .expr) := by
  refine ensures_loop (Derived scope base .expr) ?_ ho
  intro e s he
  have hagain {p : Parser Expr} {s : State} (hp : Ensures p s (Derived scope base .expr)) :
      Ensures (do return Progress.again (← p)) s
        (Progress.Keeps (Derived scope base .expr) (Derived scope base .expr)) :=
    hp.bind fun _ _ he' => ensures_pure he'
  apply ensures_peek_bind
  split
  · rename_i hdot
    have hdot : s.stream.current.content.isMark "." = true := hdot
    refine (ensures_advance s).bind fun _ s' hs' => hagain (derives_member hsub false hdot ?_)
    rwa [Derived, hs'] at he
  · split
    · rename_i hdot
      have hdot : s.stream.current.content.isMark "?." = true := hdot
      refine (ensures_advance s).bind fun _ s' hs' => ensures_check_bind ?_
      rw [Derived, hs'] at he
      split
      · rename_i hbracket
        exact hagain (derives_index hsub true hbracket ⟨_, hdot, he⟩)
      · exact hagain (derives_member hsub true hdot he)
    · split
      · rename_i hbracket
        exact hagain (derives_index hsub false hbracket he)
      · exact ensures_pure he

theorem derives_callOf {c : Content} (hkind : c.kind = .name) (cursor : Nat)
    (hbase : base = c :: s.ahead) :
    Ensures (callOf scope sub c.text cursor) s (Derived scope base .expr) := by
  subst hbase
  unfold callOf
  split
  · rename_i hknown
    refine (derives_arguments hsub).bind fun as s' has => ensures_pure ?_
    exact .call hkind (by simpa [Scope.KnowsFunction] using hknown) has
  · intro e s' hrun
    cases hrun

theorem derives_primary : Ensures (primary scope sub) s (Derived scope s.ahead .expr) := by
  have hpost {e : Expr} {s' : State} (he : Derived scope s.ahead .expr e s') :
      Ensures (postfixed sub e) s' (Derived scope s.ahead .expr) := derives_postfixed hsub he
  have hliteral (hkind : s.stream.current.kind = .number ∨ s.stream.current.kind = .string) :
      Ensures (do
        advance
        return .literal s.stream.current.value) s (Derived scope s.ahead .expr) := by
    refine (ensures_advance s).bind fun _ s' hs' => ensures_pure ?_
    unfold Derived
    rw [hs']
    exact .literal hkind
  apply ensures_peek_bind
  split
  · rename_i hkind
    have htext : s.stream.current.text?.getD "" = s.stream.current.content.text := rfl
    refine (ensures_advance s).bind fun _ s₁ hs₁ => ?_
    simp only [htext]
    split
    · rename_i hconstant
      refine ensures_pure ?_
      unfold Derived
      rw [hs₁]
      exact .constant hkind hconstant
    · apply ensures_check_bind
      split
      · exact (derives_callOf hsub hkind _ hs₁).bind fun _ _ he => hpost he
      · exact (derives_variableNamed hkind _ hs₁).bind fun _ _ he => hpost he
  · rename_i hkind
    exact hliteral (.inl hkind)
  · rename_i hkind
    exact hliteral (.inr hkind)
  · split
    · exact (derives_listLiteral hsub).bind fun _ _ he => hpost he
    · split
      · exact (derives_hashLiteral hsub).bind fun _ _ he => hpost he
      · exact ensures_fail _ _ _ _

theorem derives_operand : Ensures (operand scope sub) s (Derived scope s.ahead .expr) := by
  apply ensures_peek_bind
  cases hop : unaryOp? s.stream.current with
  | some op =>
    refine (ensures_advance s).bind fun _ s₁ hs₁ => (hsub _ s₁).bind fun e s₂ he => ?_
    rw [hs₁]
    exact derives_postfixed hsub (.unary hop he)
  | none =>
    simp only
    split
    · rename_i hopen
      refine (ensures_advance s).bind fun _ s₁ hs₁ => (hsub 0 s₁).bind fun e s₂ he => ?_
      refine (ensures_expect _ _ s₂).bind fun _ s₃ ⟨hclose, hs₃⟩ => ?_
      rw [Derived, hs₃] at he
      rw [hs₁]
      exact derives_postfixed hsub (.enclosed hopen he hclose)
    · exact derives_primary hsub

theorem derives_binaryStep (precedence : Nat) {left : Expr}
    (h : Derived scope base .expr left s) : Ensures (binaryStep sub precedence left) s
      (Progress.Keeps (Derived scope base .expr) (Derived scope base .expr)) := by
  apply ensures_peek_bind
  cases hop : binaryOp? s.stream.current with
  | none => exact ensures_pure h
  | some op =>
    simp only
    split
    · exact ensures_pure h
    · refine (ensures_advance s).bind fun _ s₁ hs₁ => ?_
      rw [Derived, hs₁] at h
      exact (hsub _ s₁).bind fun e s₂ he => ensures_pure (.binary h hop he)

theorem derives_coalesceStep {left : Expr} (h : Derived scope base .expr left s) :
    Ensures (coalesceStep sub left) s
      (Progress.Keeps (Derived scope base .expr) (Derived scope base .expr)) := by
  apply ensures_check_bind
  split
  · rename_i hmark
    refine (ensures_advance s).bind fun _ s₁ hs₁ => ?_
    rw [Derived, hs₁] at h
    exact (hsub 0 s₁).bind fun e s₂ he => ensures_pure (.coalesce h hmark he)
  · exact ensures_pure h

theorem derives_conditionalStep {condition : Expr} (h : Derived scope base .expr condition s) :
    Ensures (conditionalStep sub condition) s
      (Progress.Keeps (Derived scope base .expr) (Derived scope base .expr)) := by
  apply ensures_check_bind
  split
  · exact ensures_pure h
  · rename_i hquestion
    have hquestion : s.stream.current.isPunctuation "?" = true := by simpa using hquestion
    refine (ensures_advance s).bind fun _ s₁ hs₁ => ensures_check_bind ?_
    rw [Derived, hs₁] at h
    split
    · rename_i hcolon
      refine (ensures_advance s₁).bind fun _ s₂ hs₂ => ?_
      rw [hs₂] at h
      exact (hsub 0 s₂).bind fun e s₃ he => ensures_pure (.conditionalSelf h hquestion hcolon he)
    · refine (hsub 0 s₁).bind fun yes s₂ hyes => ensures_check_bind ?_
      split
      · rename_i hcolon
        refine (ensures_advance s₂).bind fun _ s₃ hs₃ => ?_
        rw [Derived, hs₃] at hyes
        exact (hsub 0 s₃).bind fun no s₄ hno =>
          ensures_pure (.conditional h hquestion hyes hcolon hno)
      · exact ensures_pure (.conditionalNull h hquestion hyes)

end

theorem derives_expression (scope : Scope) (levels precedence : Nat) (s : State) :
    Ensures (expression scope levels precedence) s (Derived scope s.ahead .expr) := by
  induction levels generalizing precedence s with
  | zero =>
    intro e s' hrun
    cases hrun
  | succ levels ih =>
    refine ensures_expression_succ ?_ ?_ (fun e s' he => derives_binaryStep ih precedence he)
      (fun e s' he => derives_coalesceStep ih he) fun e s' he => derives_conditionalStep ih he
    · intro e s' s'' hahead he
      rwa [Derived, hahead]
    · intro s' hs'
      rw [← hs']
      exact derives_operand ih

/-- The tree of a stream has a derivation from the contents in front of its ending token. -/
theorem derives_ending_of_parseTokens {stream : TokenStream} {e : Expr}
    (h : parseTokens scope stream = .ok e) :
    ∃ c rest, c.kind = .ending ∧
      Derives scope ((stream.current :: stream.after).map Token.content) (.expr e) (c :: rest) := by
  obtain ⟨s, hs, hkind⟩ :=
    exists_of_parseTokens (derives_expression scope maxNesting 0 { stream }) h
  exact ⟨s.stream.current.content, _, hkind, hs⟩

theorem derives_of_parseTokens {stream : TokenStream} {e : Expr}
    (h : parseTokens scope stream = .ok e) :
    ∃ rest, Derives scope ((stream.current :: stream.after).map Token.content) (.expr e) rest := by
  obtain ⟨c, rest, -, hderives⟩ := derives_ending_of_parseTokens h
  exact ⟨c :: rest, hderives⟩

end Parsing
end Formula
