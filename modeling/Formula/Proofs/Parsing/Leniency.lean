import Mathlib
import Formula.Proofs.Parsing.Declarations

/-! A check that is left out only lets unknown names pass: a more lenient parse builds the same tree,
or meets the same error if that is not an unknown name. -/

namespace Formula

/-- Every check that `l` leaves out is left out by `m` as well. -/
structure Leniency.IsWithin (l m : Leniency) : Prop where
  unknownVariables : l.unknownVariables = true → m.unknownVariables = true
  unknownFunctions : l.unknownFunctions = true → m.unknownFunctions = true

def Fault.isUnknownName : Fault → Bool
  | unknownVariable _ | unknownFunction _ => true
  | _ => false

namespace Expr

mutual

/-- The tree with a plain name in the place of each coalesced one. -/
def uncoalesced : Expr → Expr
  | const value isIdentifier => const value isIdentifier
  | name n | coalescedName n => name n
  | unary op operand => unary op operand.uncoalesced
  | binary op left right => binary op left.uncoalesced right.uncoalesced
  | conditional condition yes no =>
    conditional condition.uncoalesced yes.uncoalesced no.uncoalesced
  | coalesce left fallback => coalesce left.uncoalesced fallback.uncoalesced
  | access kind nullSafe object key arguments =>
    access kind nullSafe object.uncoalesced key.uncoalesced (uncoalescedAll arguments)
  | list items => list (uncoalescedAll items)
  | hash entries => hash (uncoalescedEntries entries)
  | call function arguments => call function (uncoalescedAll arguments)

def uncoalescedAll : List Expr → List Expr
  | [] => []
  | e :: es => e.uncoalesced :: uncoalescedAll es

def uncoalescedEntries : List (Expr × Expr) → List (Expr × Expr)
  | [] => []
  | (key, value) :: entries => (key.uncoalesced, value.uncoalesced) :: uncoalescedEntries entries

end

theorem uncoalescedAll_eq_of_forall₂ {es es' : List Expr}
    (h : List.Forall₂ (fun e e' => e' = e.uncoalesced) es es') : es' = uncoalescedAll es := by
  induction h with
  | nil => rw [uncoalescedAll]
  | cons he _ ih => rw [uncoalescedAll, he, ih]

theorem uncoalescedEntries_eq_of_related {es es' : List (Expr × Expr)}
    (h : EntriesRelated (fun e e' => e' = e.uncoalesced) es es') : es' = uncoalescedEntries es := by
  induction h with
  | nil => rw [uncoalescedEntries]
  | @cons p p' _ _ hp _ ih =>
    obtain ⟨key, value⟩ := p
    rw [uncoalescedEntries, ← hp.1, ← hp.2, ← ih]

theorem isCongruence_uncoalesced : IsCongruence fun e e' => e' = e.uncoalesced where
  const _ _ := by rw [uncoalesced]
  unary op e e' he := by rw [uncoalesced, he]
  binary op l l' r r' hl hr := by rw [uncoalesced, hl, hr]
  conditional hc hy hn := by rw [uncoalesced, hc, hy, hn]
  coalesce hl hf := by rw [uncoalesced, hl, hf]
  access kind nullSafe _ _ _ _ _ _ ho hk has := by
    rw [uncoalesced, ho, hk, uncoalescedAll_eq_of_forall₂ has]
  list hes := by rw [uncoalesced, uncoalescedAll_eq_of_forall₂ hes]
  hash hes := by rw [uncoalesced, uncoalescedEntries_eq_of_related hes]
  call name _ _ has := by rw [uncoalesced, uncoalescedAll_eq_of_forall₂ has]

end Expr

/-- What a parse under `m` makes of the tree that one under `l` builds. -/
def Leniency.relaxed (l m : Leniency) (e : Expr) : Expr :=
  if m.unknownVariables && !l.unknownVariables then e.uncoalesced else e

theorem Leniency.isCongruence_relaxed (l m : Leniency) :
    Expr.IsCongruence fun e e' => e' = l.relaxed m e := by
  unfold relaxed
  split
  · exact Expr.isCongruence_uncoalesced
  · simpa only [eq_comm] using Expr.isCongruence_eq

/-- The name under which the context has the value. -/
def Variable.key : Variable → String
  | plain name => name
  | aliased key _ => key

namespace Scope

variable {declared : List Variable} {name : String}

theorem mem_spellingsOf :
    name ∈ spellingsOf declared ↔ ∃ v ∈ declared, name = v.key ∨ name = v.spelling := by
  induction declared with
  | nil => simp [spellingsOf]
  | cons v vs ih =>
    cases v with
    | plain n => simp [spellingsOf, ih, Variable.key, Variable.spelling]
    | aliased k n => simp [spellingsOf, ih, Variable.key, Variable.spelling, or_assoc]

/-- A name that was not declared stands for itself. -/
theorem key_eq_self {functions : List String} {leniency : Leniency}
    (h : name ∉ spellingsOf declared) :
    (ofVariables functions declared leniency).key name = name := by
  show ((aliasesOf declared).get? name).getD name = name
  cases hget : (aliasesOf declared).get? name with
  | none => rfl
  | some key =>
    exact absurd (mem_spellingsOf.mpr ⟨_, aliased_of_get?_aliasesOf hget, .inr rfl⟩) h

end Scope

namespace Parsing

/-- A variable is looked at without a change of the state. -/
theorem variableNamed_run (scope : Scope) (name : String) (cursor : Nat) (s : State) :
    variableNamed scope name cursor s =
      if scope.leniency.unknownVariables || scope.spellings.contains name then
        .ok (.name (scope.key name)) s
      else if s.stream.current.isPunctuation "??" then .ok (.coalescedName name) s
      else .error ⟨.unknownVariable name, cursor, s.stream.expression, name, scope.spellings⟩ s := by
  unfold variableNamed
  split
  · rfl
  · change (if s.stream.current.isPunctuation "??" = true then _ else _ : Parser Expr) s = _
    split <;> rfl

section

variable {l m : Leniency} (h : l.IsWithin m) (functions : List String) (declared : List Variable)
include h

theorem simulatesScope_of_isWithin : SimulatesScope Eq (fun e => e.fault.isUnknownName = true)
    (fun e e' => e' = l.relaxed m e) (Scope.ofVariables functions declared l)
    (Scope.ofVariables functions declared m) where
  variableNamed name cursor := by
    intro s
    have hname (n : String) : Expr.name n = l.relaxed m (.name n) := by
      simp [Leniency.relaxed, Expr.uncoalesced]
    rw [variableNamed_run, variableNamed_run]
    simp only [Scope.ofVariables]
    by_cases hdeclared : (Scope.spellingsOf declared).contains name = true
    · simp only [hdeclared, Bool.or_true, if_true]
      exact .ok (hname _)
    · simp only [hdeclared, Bool.or_false]
      by_cases hl : l.unknownVariables = true
      · rw [if_pos hl, if_pos (h.unknownVariables hl)]
        exact .ok (hname _)
      · rw [if_neg hl]
        by_cases hm : m.unknownVariables = true
        · -- Here the two part: the strict parse asks for `??`, and gives the name up without it.
          rw [if_pos hm]
          split
          · refine .ok ?_
            have hkey : (Scope.ofVariables functions declared m).key name = name :=
              Scope.key_eq_self fun hmem => hdeclared (List.contains_iff_mem.mpr hmem)
            simp only [Scope.ofVariables] at hkey
            simp [Leniency.relaxed, hl, hm, Expr.uncoalesced, hkey]
          · exact .silent rfl
        · rw [if_neg hm]
          split
          · exact .ok (by simp [Leniency.relaxed, hm])
          · exact .error rfl
  callOf name cursor hsub := by
    unfold callOf
    change Simulates _ _ _ (if functions.contains name || l.unknownFunctions then _ else _)
      (if functions.contains name || m.unknownFunctions then _ else _)
    by_cases hknown : (functions.contains name || l.unknownFunctions) = true
    · have hknown' : (functions.contains name || m.unknownFunctions) = true := by
        rw [Bool.or_eq_true] at hknown ⊢
        exact hknown.imp_right h.unknownFunctions
      rw [if_pos hknown, if_pos hknown']
      refine (simulates_arguments (fun _ => rfl) hsub).bind fun as as' has => simulates_pure ?_
      exact (l.isCongruence_relaxed m).call name has
    · rw [if_neg hknown]
      exact fun s => .silent rfl

/-- With fewer checks the same tokens give the same tree, but for the names that were tolerated
before `??`, and every other error than an unknown name stays. -/
theorem parseTokens_of_isWithin (stream : TokenStream) :
    (∀ tree, parseTokens (Scope.ofVariables functions declared l) stream = .ok tree →
      parseTokens (Scope.ofVariables functions declared m) stream = .ok (l.relaxed m tree)) ∧
    (∀ e, parseTokens (Scope.ofVariables functions declared l) stream = .error e →
      e.fault.isUnknownName = false →
        parseTokens (Scope.ofVariables functions declared m) stream = .error e) ∧
    ∀ e, parseTokens (Scope.ofVariables functions declared m) stream = .error e →
      ∃ e', parseTokens (Scope.ofVariables functions declared l) stream = .error e' := by
  have hmatches := simulates_whole (fun _ => rfl) (l.isCongruence_relaxed m)
    (simulatesScope_of_isWithin h functions declared) { stream }
  rw [parseTokens_run, parseTokens_run]
  generalize whole (Scope.ofVariables functions declared l) { stream } = r at hmatches ⊢
  generalize whole (Scope.ofVariables functions declared m) { stream } = r' at hmatches ⊢
  cases hmatches with
  | ok htree =>
    refine ⟨fun tree heq => ?_, fun e heq => (by cases heq), fun e heq => (by cases heq)⟩
    obtain rfl := Except.ok.inj heq
    rw [htree]
  | error he =>
    exact ⟨fun tree heq => (by cases heq), fun e heq _ => he ▸ heq, fun _ _ => ⟨_, rfl⟩⟩
  | silent hsilent =>
    refine ⟨fun tree heq => (by cases heq), fun e heq hnot => ?_, fun _ _ => ⟨_, rfl⟩⟩
    obtain rfl := Except.error.inj heq
    exact absurd hsilent (by rw [hnot]; decide)

end

/-- The tokens of `y ?? f(x)`. -/
def fallbackStream : TokenStream :=
  .ofTokens "y ?? f(x)" [⟨.name, .string "y", 1⟩, ⟨.punctuation, .string "??", 3⟩,
    ⟨.name, .string "f", 6⟩, ⟨.punctuation, .string "(", 7⟩, ⟨.name, .string "x", 8⟩,
    ⟨.punctuation, .string ")", 9⟩, .ending 10]

theorem parseTokens_of_isWithin_fallback :
    Leniency.IsWithin {} ⟨true, true⟩ ∧
    parseTokens (Scope.ofVariables ["f"] (some [.aliased "k" "x"]) {}) fallbackStream =
      .ok (.coalesce (.coalescedName "y") (.call "f" [.name "k"])) ∧
    parseTokens (Scope.ofVariables ["f"] (some [.aliased "k" "x"]) ⟨true, true⟩) fallbackStream =
      .ok (.coalesce (.name "y") (.call "f" [.name "k"])) := by
  have hwithin : Leniency.IsWithin {} ⟨true, true⟩ := ⟨nofun, nofun⟩
  have hstrict : parseTokens (Scope.ofVariables ["f"] (some [.aliased "k" "x"]) {}) fallbackStream =
      .ok (.coalesce (.coalescedName "y") (.call "f" [.name "k"])) := by cbv
  have hlenient := (parseTokens_of_isWithin hwithin ["f"] [.aliased "k" "x"] fallbackStream).1 _ hstrict
  exact ⟨hwithin, hstrict, hlenient⟩

end Parsing
end Formula
