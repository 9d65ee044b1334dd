import Formula.Proofs.Parsing.Run
import Mathlib.Data.List.Forall2

/-! Parses that run side by side. When two scopes answer alike for every name, the parses of a stream
take the same tokens and come to related ends. -/

namespace Formula

/-- Entries whose keys and values are related. -/
abbrev Expr.EntriesRelated (R : Expr → Expr → Prop) : List (Expr × Expr) → List (Expr × Expr) → Prop :=
  List.Forall₂ fun p p' => R p.1 p'.1 ∧ R p.2 p'.2

/-- A relation of trees that holds of two trees when it holds of their parts. -/
structure Expr.IsCongruence (R : Expr → Expr → Prop) : Prop where
  const : ∀ value isIdentifier, R (.const value isIdentifier) (.const value isIdentifier)
  unary : ∀ op {e e'}, R e e' → R (.unary op e) (.unary op e')
  binary : ∀ op {l l' r r'}, R l l' → R r r' → R (.binary op l r) (.binary op l' r')
  conditional : ∀ {c c' y y' n n'}, R c c' → R y y' → R n n' →
    R (.conditional c y n) (.conditional c' y' n')
  coalesce : ∀ {l l' f f'}, R l l' → R f f' → R (.coalesce l f) (.coalesce l' f')
  access : ∀ kind nullSafe {o o' k k' as as'}, R o o' → R k k' → List.Forall₂ R as as' →
    R (.access kind nullSafe o k as) (.access kind nullSafe o' k' as')
  list : ∀ {es es'}, List.Forall₂ R es es' → R (.list es) (.list es')
  hash : ∀ {es es'}, EntriesRelated R es es' → R (.hash es) (.hash es')
  call : ∀ name {as as'}, List.Forall₂ R as as' → R (.call name as) (.call name as')

theorem Expr.isCongruence_eq : Expr.IsCongruence Eq where
  const _ _ := rfl
  unary := by rintro _ _ _ rfl; rfl
  binary := by rintro _ _ _ _ _ rfl rfl; rfl
  conditional := by rintro _ _ _ _ _ _ rfl rfl rfl; rfl
  coalesce := by rintro _ _ _ _ rfl rfl; rfl
  access := by
    rintro _ _ _ _ _ _ as as' rfl rfl h
    rw [List.forall₂_eq_eq_eq] at h
    rw [h]
  list := by
    intro es es' h
    rw [List.forall₂_eq_eq_eq] at h
    rw [h]
  hash := by
    intro es es' h
    have heq : es = es' := by
      induction h with
      | nil => rfl
      | cons hp _ ih => rw [Prod.ext hp.1 hp.2, ih]
    rw [heq]
  call := by
    intro name as as' h
    rw [List.forall₂_eq_eq_eq] at h
    rw [h]

namespace Parsing

variable {α α' β β' γ : Type}

/-- How the ends of two parses compare: `E` relates their errors, and where the first has an error
that is `silent` the other may do as it likes. -/
inductive Matches (E : SyntaxError → SyntaxError → Prop) (silent : SyntaxError → Prop)
    (R : α → β → Prop) :
    EStateM.Result SyntaxError State α → EStateM.Result SyntaxError State β → Prop
  | ok {a b s} : R a b → Matches E silent R (.ok a s) (.ok b s)
  | error {e e' s s'} : E e e' → Matches E silent R (.error e s) (.error e' s')
  | silent {e s r} : silent e → Matches E silent R (.error e s) r

variable (E : SyntaxError → SyntaxError → Prop) (silent : SyntaxError → Prop)

def Simulates (R : α → β → Prop) (p : Parser α) (q : Parser β) : Prop :=
  ∀ s, Matches E silent R (p s) (q s)

inductive Progress.Related (R : α → α' → Prop) (S : β → β' → Prop) :
    Progress α β → Progress α' β' → Prop
  | again {a a'} : R a a' → Related R S (.again a) (.again a')
  | done {b b'} : S b b' → Related R S (.done b) (.done b')

variable {E silent} {R : α → α' → Prop} {S : β → β' → Prop}

theorem simulates_pure {a : α} {a' : α'} (h : R a a') : Simulates E silent R (pure a) (pure a') :=
  fun _ => .ok h

theorem Simulates.bind {p : Parser α} {q : Parser α'} {f : α → Parser β} {g : α' → Parser β'}
    (hp : Simulates E silent R p q) (hf : ∀ a a', R a a' → Simulates E silent S (f a) (g a')) :
    Simulates E silent S (p >>= f) (q >>= g) := by
  intro s
  rw [bind_run, bind_run]
  have h := hp s
  generalize p s = r at h
  generalize q s = r' at h
  cases h with
  | ok hab => exact hf _ _ hab _
  | error he => exact .error he
  | silent he => exact .silent he

/-- Where both sides do the same, only what follows has to be compared. -/
theorem Simulates.bind_same (hE : ∀ e, E e e) (p : Parser γ) {f : γ → Parser β} {g : γ → Parser β'}
    (hf : ∀ c, Simulates E silent S (f c) (g c)) : Simulates E silent S (p >>= f) (p >>= g) := by
  intro s
  rw [bind_run, bind_run]
  cases p s with
  | ok c s' => exact hf c s'
  | error e s' => exact .error (hE e)

theorem simulates_fail (hE : ∀ e, E e e) (fault : Fault) (cursor : Nat) :
    Simulates E silent R (fail fault cursor) (fail fault cursor) := fun _ => .error (hE _)

theorem Simulates.ite {c : Prop} [Decidable c] {p p' : Parser α} {q q' : Parser α'}
    (h : Simulates E silent R p q) (h' : Simulates E silent R p' q') :
    Simulates E silent R (if c then p else p') (if c then q else q') := by
  split
  · exact h
  · exact h'

theorem simulates_loop (hE : ∀ e, E e e) {step : α → Parser (Progress α β)}
    {step' : α' → Parser (Progress α' β')}
    (h : ∀ a a', R a a' → Simulates E silent (Progress.Related R S) (step a) (step' a'))
    {a : α} {a' : α'} (ha : R a a') : Simulates E silent S (loop step a) (loop step' a') := by
  -- Both loops stand in the same state, so that they have the same number of repetitions.
  have hrepeating : ∀ n a a', R a a' →
      Simulates E silent S (repeating step n a) (repeating step' n a') := by
    intro n
    induction n with
    | zero => exact fun _ _ _ _ => .error (hE _)
    | succ n ih =>
      intro a a' ha
      refine (h a a' ha).bind fun progress progress' hp => ?_
      cases hp with
      | again ha => exact ih _ _ ha
      | done hb => exact simulates_pure hb
  exact fun s => hrepeating _ a a' ha s

theorem isEmpty_eq_of_forall₂ {l : List α} {l' : List α'} (h : List.Forall₂ R l l') :
    l.isEmpty = l'.isEmpty := by
  cases h <;> rfl

section

variable (hE : ∀ e, E e e) {Q : Expr → Expr → Prop} (hQ : Expr.IsCongruence Q)
  {sub sub' : Nat → Parser Expr}
  (hsub : ∀ precedence, Simulates E silent Q (sub precedence) (sub' precedence))
include hE hsub

theorem simulates_argumentStep {done done' : List Expr} (hdone : List.Forall₂ Q done done') :
    Simulates E silent (Progress.Related (List.Forall₂ Q) (List.Forall₂ Q))
      (argumentStep sub done) (argumentStep sub' done') := by
  have hnext : Simulates E silent (Progress.Related (List.Forall₂ Q) (List.Forall₂ Q))
      (do let argument ← sub 0; return .again (argument :: done))
      (do let argument ← sub' 0; return .again (argument :: done')) :=
    (hsub 0).bind fun _ _ ha => simulates_pure (.again (.cons ha hdone))
  refine .bind_same hE _ fun _ => .ite (simulates_pure (.done (List.rel_reverse hdone))) ?_
  rw [isEmpty_eq_of_forall₂ hdone]
  exact .ite (.bind_same hE _ fun _ => hnext) hnext

theorem simulates_arguments :
    Simulates E silent (List.Forall₂ Q) (arguments sub) (arguments sub') :=
  .bind_same hE _ fun _ =>
    (simulates_loop hE (fun _ _ => simulates_argumentStep hE hsub) .nil).bind fun _ _ has =>
      .bind_same hE _ fun _ => simulates_pure has

theorem simulates_itemStep {done done' : List Expr} (hdone : List.Forall₂ Q done done') :
    Simulates E silent (Progress.Related (List.Forall₂ Q) (List.Forall₂ Q))
      (itemStep sub done) (itemStep sub' done') := by
  have hend : Simulates E silent (Progress.Related (List.Forall₂ Q) (List.Forall₂ Q))
      (pure (.done done.reverse)) (pure (.done done'.reverse)) :=
    simulates_pure (.done (List.rel_reverse hdone))
  have hnext : Simulates E silent (Progress.Related (List.Forall₂ Q) (List.Forall₂ Q))
      (do if ← check "]" then return .done done.reverse else do
            let item ← sub 0
            return .again (item :: done))
      (do if ← check "]" then return .done done'.reverse else do
            let item ← sub' 0
            return .again (item :: done')) :=
    .bind_same hE _ fun _ => .ite hend <|
      (hsub 0).bind fun _ _ hitem => simulates_pure (.again (.cons hitem hdone))
  refine .bind_same hE _ fun _ => .ite hend ?_
  rw [isEmpty_eq_of_forall₂ hdone]
  exact .ite (.bind_same hE _ fun _ => hnext) hnext

include hQ

theorem simulates_listLiteral : Simulates E silent Q (listLiteral sub) (listLiteral sub') :=
  .bind_same hE _ fun _ =>
    (simulates_loop hE (fun _ _ => simulates_itemStep hE hsub) .nil).bind fun _ _ hes =>
      .bind_same hE _ fun _ => simulates_pure (hQ.list hes)

theorem simulates_hashKey : Simulates E silent Q (hashKey sub) (hashKey sub') := by
  refine .bind_same hE _ fun token => ?_
  have hliteral : Simulates E silent Q (do advance; return .literal token.value)
      (do advance; return .literal token.value) :=
    .bind_same hE _ fun _ => simulates_pure (hQ.const _ _)
  cases token.kind with
  | string | name | number => exact hliteral
  | _ => exact .ite (hsub 0) (simulates_fail hE _ _)

theorem simulates_entryStep {done done' : List (Expr × Expr)}
    (hdone : Expr.EntriesRelated Q done done') :
    Simulates E silent (Progress.Related (Expr.EntriesRelated Q) (Expr.EntriesRelated Q))
      (entryStep sub done) (entryStep sub' done') := by
  have hend : Simulates E silent (Progress.Related (Expr.EntriesRelated Q) (Expr.EntriesRelated Q))
      (pure (.done done.reverse)) (pure (.done done'.reverse)) :=
    simulates_pure (.done (List.rel_reverse hdone))
  have hentry : Simulates E silent (Progress.Related (Expr.EntriesRelated Q) (Expr.EntriesRelated Q))
      (do let key ← hashKey sub
          expectPunctuation ":" "A hash key must be followed by a colon (:)"
          let value ← sub 0
          return .again ((key, value) :: done))
      (do let key ← hashKey sub'
          expectPunctuation ":" "A hash key must be followed by a colon (:)"
          let value ← sub' 0
          return .again ((key, value) :: done')) :=
    (simulates_hashKey hE hQ hsub).bind fun _ _ hkey => .bind_same hE _ fun _ =>
      (hsub 0).bind fun _ _ hvalue => simulates_pure (.again (.cons ⟨hkey, hvalue⟩ hdone))
  refine .bind_same hE _ fun _ => .ite hend ?_
  rw [isEmpty_eq_of_forall₂ hdone]
  exact .ite (.bind_same hE _ fun _ => .bind_same hE _ fun _ => .ite hend hentry)
    (.bind_same hE _ fun _ => .ite hend hentry)

theorem simulates_hashLiteral : Simulates E silent Q (hashLiteral sub) (hashLiteral sub') :=
  .bind_same hE _ fun _ =>
    (simulates_loop hE (fun _ _ => simulates_entryStep hE hQ hsub) .nil).bind fun _ _ hes =>
      .bind_same hE _ fun _ => simulates_pure (hQ.hash hes)

theorem simulates_index {object object' : Expr} (nullSafe : Bool) (ho : Q object object') :
    Simulates E silent Q (index sub object nullSafe) (index sub' object' nullSafe) :=
  .bind_same hE _ fun _ => (hsub 0).bind fun _ _ hkey =>
    .bind_same hE _ fun _ => simulates_pure (hQ.access _ _ ho hkey .nil)

theorem simulates_member {object object' : Expr} (nullSafe : Bool) (ho : Q object object') :
    Simulates E silent Q (member sub object nullSafe) (member sub' object' nullSafe) := by
  refine .bind_same hE _ fun token => .bind_same hE _ fun _ => ?_
  cases memberName? token with
  | none => exact simulates_fail hE _ _
  | some name =>
    refine .bind_same hE _ fun _ => .ite ?_ (simulates_pure (hQ.access _ _ ho (hQ.const _ _) .nil))
    exact (simulates_arguments hE hsub).bind fun _ _ has =>
      simulates_pure (hQ.access _ _ ho (hQ.const _ _) has)

theorem simulates_postfixed {object object' : Expr} (ho : Q object object') :
    Simulates E silent Q (postfixed sub object) (postfixed sub' object') := by
  refine simulates_loop hE (fun object object' ho => ?_) ho
  have hagain {p p' : Parser Expr} (h : Simulates E silent Q p p') :
      Simulates E silent (Progress.Related Q Q) (do return .again (← p)) (do return .again (← p')) :=
    h.bind fun _ _ h => simulates_pure (.again h)
  refine .bind_same hE _ fun token => ?_
  refine .ite (.bind_same hE _ fun _ => hagain (simulates_member hE hQ hsub false ho)) ?_
  refine .ite (.bind_same hE _ fun _ => .bind_same hE _ fun _ => ?_) ?_
  · exact .ite (hagain (simulates_index hE hQ hsub true ho))
      (hagain (simulates_member hE hQ hsub true ho))
  · exact .ite (hagain (simulates_index hE hQ hsub false ho)) (simulates_pure (.done ho))

theorem simulates_binaryStep (precedence : Nat) {left left' : Expr} (hl : Q left left') :
    Simulates E silent (Progress.Related Q Q) (binaryStep sub precedence left)
      (binaryStep sub' precedence left') := by
  refine .bind_same hE _ fun token => ?_
  cases binaryOp? token with
  | none => exact simulates_pure (.done hl)
  | some op =>
    refine .ite (simulates_pure (.done hl)) (.bind_same hE _ fun _ => ?_)
    exact (hsub _).bind fun _ _ hr => simulates_pure (.again (hQ.binary op hl hr))

theorem simulates_coalesceStep {left left' : Expr} (hl : Q left left') :
    Simulates E silent (Progress.Related Q Q) (coalesceStep sub left) (coalesceStep sub' left') :=
  .bind_same hE _ fun _ => .ite
    (.bind_same hE _ fun _ => (hsub 0).bind fun _ _ hf => simulates_pure (.again (hQ.coalesce hl hf)))
    (simulates_pure (.done hl))

theorem simulates_conditionalStep {condition condition' : Expr} (hc : Q condition condition') :
    Simulates E silent (Progress.Related Q Q) (conditionalStep sub condition)
      (conditionalStep sub' condition') := by
  refine .bind_same hE _ fun _ => .ite (simulates_pure (.done hc)) (.bind_same hE _ fun _ => ?_)
  have hno {yes yes' : Expr} (hyes : Q yes yes') : Simulates E silent (Progress.Related Q Q)
      (do advance; return .again (.conditional condition yes (← sub 0)))
      (do advance; return .again (.conditional condition' yes' (← sub' 0))) :=
    .bind_same hE _ fun _ => (hsub 0).bind fun _ _ hn =>
      simulates_pure (.again (hQ.conditional hc hyes hn))
  refine .bind_same hE _ fun _ => .ite (hno hc) ?_
  refine (hsub 0).bind fun _ _ hyes => .bind_same hE _ fun _ => .ite (hno hyes) ?_
  exact simulates_pure (.again (hQ.conditional hc hyes (hQ.const _ _)))

end

/-- Two scopes that answer alike for every variable and every function. -/
structure SimulatesScope (E : SyntaxError → SyntaxError → Prop) (silent : SyntaxError → Prop)
    (Q : Expr → Expr → Prop) (scope scope' : Scope) : Prop where
  variableNamed : ∀ name cursor,
    Simulates E silent Q (variableNamed scope name cursor) (variableNamed scope' name cursor)
  callOf : ∀ {sub sub'} name cursor,
    (∀ precedence, Simulates E silent Q (sub precedence) (sub' precedence)) →
      Simulates E silent Q (callOf scope sub name cursor) (callOf scope' sub' name cursor)

section

variable (hE : ∀ e, E e e) {Q : Expr → Expr → Prop} (hQ : Expr.IsCongruence Q)
  {scope scope' : Scope} (hscope : SimulatesScope E silent Q scope scope')
include hE hQ hscope

theorem simulates_operand {sub sub' : Nat → Parser Expr}
    (hsub : ∀ precedence, Simulates E silent Q (sub precedence) (sub' precedence)) :
    Simulates E silent Q (operand scope sub) (operand scope' sub') := by
  have hpostfixed {p p' : Parser Expr} (h : Simulates E silent Q p p') :
      Simulates E silent Q (do postfixed sub (← p)) (do postfixed sub' (← p')) :=
    h.bind fun _ _ h => simulates_postfixed hE hQ hsub h
  have hprimary : Simulates E silent Q (primary scope sub) (primary scope' sub') := by
    refine .bind_same hE _ fun token => ?_
    have hliteral : Simulates E silent Q (do advance; return .literal token.value)
        (do advance; return .literal token.value) :=
      .bind_same hE _ fun _ => simulates_pure (hQ.const _ _)
    cases token.kind with
    | name =>
      refine .bind_same hE _ fun _ => ?_
      generalize token.text?.getD "" = name
      dsimp only
      cases constant? name with
      | some value => exact simulates_pure (hQ.const _ _)
      | none =>
        exact .bind_same hE _ fun _ => .ite (hpostfixed (hscope.callOf _ _ hsub))
          (hpostfixed (hscope.variableNamed _ _))
    | number | string => exact hliteral
    | _ =>
      exact .ite (hpostfixed (simulates_listLiteral hE hQ hsub))
        (.ite (hpostfixed (simulates_hashLiteral hE hQ hsub)) (simulates_fail hE _ _))
  refine .bind_same hE _ fun token => ?_
  cases unaryOp? token with
  | some op =>
    refine .bind_same hE _ fun _ => (hsub _).bind fun _ _ he => ?_
    exact simulates_postfixed hE hQ hsub (hQ.unary op he)
  | none =>
    refine .ite (.bind_same hE _ fun _ => (hsub 0).bind fun _ _ he => ?_) hprimary
    exact .bind_same hE _ fun _ => simulates_postfixed hE hQ hsub he

theorem simulates_expression (levels precedence : Nat) :
    Simulates E silent Q (expression scope levels precedence) (expression scope' levels precedence) := by
  induction levels generalizing precedence with
  | zero => exact .bind_same hE _ fun _ => .bind_same hE _ fun _ => simulates_fail hE _ _
  | succ levels ih =>
    refine .bind_same hE _ fun _ => (simulates_operand hE hQ hscope ih).bind fun _ _ hl => ?_
    refine (simulates_loop hE (fun _ _ => simulates_binaryStep hE hQ ih precedence) hl).bind
      fun e e' he => ?_
    have hclose {e e' : Expr} (he : Q e e') :
        Simulates E silent Q (do closing; return e) (do closing; return e') :=
      .bind_same hE _ fun _ => simulates_pure he
    -- What comes behind the operators is the same at each precedence but for `??` and `?`.
    have hconditional {e e' : Expr} (he : Q e e') : Simulates E silent Q
        (do let e ← loop (conditionalStep (expression scope levels)) e; closing; return e)
        (do let e ← loop (conditionalStep (expression scope' levels)) e'; closing; return e) :=
      (simulates_loop hE (fun _ _ => simulates_conditionalStep hE hQ ih) he).bind fun _ _ => hclose
    split
    · exact (simulates_loop hE (fun _ _ => simulates_coalesceStep hE hQ ih) he).bind
        fun _ _ => hconditional
    · exact hclose he

/-- Under scopes that answer alike a stream comes to related ends. -/
theorem simulates_whole : Simulates E silent Q (whole scope) (whole scope') := by
  refine (simulates_expression hE hQ hscope _ _).bind fun _ _ he => .bind_same hE _ fun _ => ?_
  exact .ite (simulates_pure he) (simulates_fail hE _ _)

end

end Parsing
end Formula
