import Mathlib
import Formula.Proofs.Evaluation.Compositional
import Formula.Proofs.Parsing.Derivation

/-! How many calls an evaluation makes, by the text: a call site has an opening parenthesis of its own,
but the condition of `a ?: b` is evaluated twice. -/

namespace Formula

namespace Content

/-- How many parentheses are opened. -/
def openings (cs : List Content) : Nat := cs.countP (·.isMark "(")

/-- How many question marks stand right before a colon. -/
def shorthands : List Content → Nat
  | [] | [_] => 0
  | q :: c :: cs => (if q.isMark "?" && c.isMark ":" then 1 else 0) + shorthands (c :: cs)

theorem shorthands_cons_le (c : Content) (cs : List Content) : shorthands cs ≤ shorthands (c :: cs) := by
  cases cs with
  | nil => exact Nat.zero_le _
  | cons d cs => exact Nat.le_add_left _ _

theorem shorthands_append_le (cs ds : List Content) :
    shorthands cs + shorthands ds ≤ shorthands (cs ++ ds) := by
  induction cs using shorthands.induct with
  | case1 => exact Nat.le_of_eq (Nat.zero_add _)
  | case2 c =>
    rw [shorthands, Nat.zero_add]
    exact shorthands_cons_le c ds
  | case3 q c cs ih =>
    rw [shorthands, Nat.add_assoc]
    exact Nat.add_le_add_left ih _

theorem openings_append (cs ds : List Content) : openings (cs ++ ds) = openings cs + openings ds :=
  List.countP_append

end Content

/-- Calls that are charged to two parts are charged to the whole, which has the shorthands of each. -/
theorem add_le_two_pow_mul {m n i j k a b c : Nat} (hm : m ≤ 2 ^ i * a) (hn : n ≤ 2 ^ j * b)
    (hi : i ≤ k) (hj : j ≤ k) (hc : a + b ≤ c) : m + n ≤ 2 ^ k * c := by
  have hik : 2 ^ i ≤ 2 ^ k := Nat.pow_le_pow_right Nat.zero_lt_two hi
  have hjk : 2 ^ j ≤ 2 ^ k := Nat.pow_le_pow_right Nat.zero_lt_two hj
  calc m + n ≤ 2 ^ k * a + 2 ^ k * b :=
        Nat.add_le_add (Nat.le_trans hm (Nat.mul_le_mul_right a hik))
          (Nat.le_trans hn (Nat.mul_le_mul_right b hjk))
    _ = 2 ^ k * (a + b) := (Nat.mul_add ..).symm
    _ ≤ 2 ^ k * c := Nat.mul_le_mul_left _ hc

open Content

/-- So many calls may stand in what is built from the contents in front of a rest. -/
def Charged (n : Nat) (cs rest : List Content) : Prop :=
  ∃ taken, cs = taken ++ rest ∧ n ≤ 2 ^ shorthands taken * openings taken

namespace Charged

variable {m n : Nat} {cs mid rest : List Content} {c q d : Content}

theorem nil : Charged 0 cs cs := ⟨[], rfl, Nat.zero_le _⟩

theorem cons (c : Content) (h : Charged n cs rest) : Charged n (c :: cs) rest := by
  obtain ⟨taken, rfl, hn⟩ := h
  exact ⟨c :: taken, rfl, add_le_two_pow_mul hn (Nat.zero_le (2 ^ 0 * 0)) (shorthands_cons_le c taken)
    (Nat.zero_le _) (List.sublist_cons_self c taken).countP_le⟩

theorem opening (hc : c.isMark "(" = true) (h : Charged n cs rest) :
    Charged (n + 1) (c :: cs) rest := by
  obtain ⟨taken, rfl, hn⟩ := h
  have hopenings : openings (c :: taken) = openings taken + 1 := by simp [openings, hc]
  exact ⟨c :: taken, rfl, add_le_two_pow_mul hn (Nat.le_refl (2 ^ 0 * 1)) (shorthands_cons_le c taken)
    (Nat.zero_le _) (Nat.le_of_eq hopenings.symm)⟩

theorem trans (h : Charged m cs mid) (h' : Charged n mid rest) : Charged (m + n) cs rest := by
  obtain ⟨taken, rfl, hm⟩ := h
  obtain ⟨taken', rfl, hn⟩ := h'
  have hshorthands := shorthands_append_le taken taken'
  exact ⟨taken ++ taken', (List.append_assoc ..).symm, add_le_two_pow_mul hm hn (by omega) (by omega)
    (Nat.le_of_eq (openings_append taken taken').symm)⟩

theorem twice (h : Charged m cs (q :: d :: mid)) (hq : q.isMark "?" = true)
    (hd : d.isMark ":" = true) (h' : Charged n mid rest) : Charged (m + (m + n)) cs rest := by
  obtain ⟨taken, rfl, hm⟩ := h
  obtain ⟨taken', rfl, hn⟩ := h'
  -- The two marks are one more shorthand, which pays for the second copy.
  have htwice : m + m ≤ 2 ^ (shorthands taken + 1) * openings taken := by
    rw [Nat.pow_succ, Nat.mul_two, Nat.add_mul]
    exact Nat.add_le_add hm hm
  have hshorthands : shorthands taken + (1 + shorthands taken') ≤
      shorthands (taken ++ q :: d :: taken') := by
    refine Nat.le_trans (Nat.add_le_add_left ?_ _) (shorthands_append_le _ _)
    rw [shorthands, hq, hd]
    exact Nat.add_le_add_left (shorthands_cons_le d taken') 1
  have hopenings : openings taken + openings taken' ≤ openings (taken ++ q :: d :: taken') := by
    rw [openings_append]
    refine Nat.add_le_add_left (List.Sublist.countP_le ?_) _
    exact (List.sublist_cons_self d taken').trans (List.sublist_cons_self q _)
  rw [← Nat.add_assoc]
  exact ⟨taken ++ q :: d :: taken', by simp, add_le_two_pow_mul htwice hn (by omega) (by omega)
    hopenings⟩

theorem le (h : Charged n cs rest) : n ≤ 2 ^ shorthands cs * openings cs := by
  obtain ⟨taken, rfl, hn⟩ := h
  have hshorthands := shorthands_append_le taken rest
  exact add_le_two_pow_mul hn (Nat.zero_le (2 ^ 0 * openings rest)) (by omega) (Nat.zero_le _)
    (Nat.le_of_eq (openings_append taken rest).symm)

end Charged

def Phrase.callCount : Phrase → Nat
  | expr e | key e => e.callCount
  | exprs es => Expr.callsOf es
  | arguments es => Expr.callsOf es + 1
  | entries es => Expr.callsOfEntries es

theorem Separates.charged {α : Type} {as : List α} {cs rest : List Content}
    (h : Separates as cs rest) : Charged 0 cs rest := by
  cases h with
  | first => exact .nil
  | comma _ _ => exact .cons _ .nil

theorem charged_of_eq_or_separates {α : Type} {as : List α} {cs rest : List Content}
    (h : cs = rest ∨ Separates as cs rest) : Charged 0 cs rest := by
  obtain rfl | h := h
  · exact .nil
  · exact h.charged

/-- Each call in a derived tree is paid for by the contents that the tree is made of. -/
theorem Derives.charged {scope : Scope} {cs rest : List Content} {phrase : Phrase}
    (h : Derives scope cs phrase rest) : Charged phrase.callCount cs rest := by
  induction h with
  | literal _ | constant _ _ | name _ _ | coalescedName _ _ _ | keyToken _ => exact .cons _ .nil
  | noExprs | noEntries => exact .nil
  | call _ _ _ ih =>
    simp only [Phrase.callCount, Expr.callCount_call] at ih ⊢
    exact .cons _ ih
  | enclosed _ _ _ ih => exact .cons _ (ih.trans (.cons _ .nil))
  | unary _ _ ih =>
    simp only [Phrase.callCount, Expr.callCount_unary] at ih ⊢
    exact .cons _ ih
  | binary _ _ _ ihl ihr =>
    simp only [Phrase.callCount, Expr.callCount_binary] at ihl ihr ⊢
    exact ihl.trans (.cons _ ihr)
  | coalesce _ _ _ ihl ihf =>
    simp only [Phrase.callCount, Expr.callCount_coalesce] at ihl ihf ⊢
    exact ihl.trans (.cons _ ihf)
  | conditional _ _ _ _ _ ihc ihy ihn =>
    simp only [Phrase.callCount, Expr.callCount_conditional] at ihc ihy ihn ⊢
    exact ihc.trans (.cons _ (ihy.trans (.cons _ ihn)))
  | conditionalNull _ _ _ ihc ihy =>
    simp only [Phrase.callCount, Expr.callCount_conditional] at ihc ihy ⊢
    exact ihc.trans (.cons _ (ihy.trans .nil))
  | conditionalSelf _ hq hd _ ihc ihn =>
    simp only [Phrase.callCount, Expr.callCount_conditional] at ihc ihn ⊢
    exact ihc.twice hq hd ihn
  | property _ _ _ _ iho =>
    simp only [Phrase.callCount, Expr.callCount_access] at iho ⊢
    exact iho.trans (.cons _ (.cons _ .nil))
  | method _ _ _ _ _ iho ihas =>
    simp only [Phrase.callCount, Expr.callCount_access, Expr.callCount_identifier, Nat.zero_add,
      if_true] at iho ihas ⊢
    exact iho.trans (.cons _ (.cons _ ihas))
  | index _ _ _ _ iho ihk =>
    simp only [Phrase.callCount, Expr.callCount_access] at iho ihk ⊢
    exact iho.trans (.cons _ (ihk.trans (.cons _ .nil)))
  | nullSafeIndex _ _ _ _ _ iho ihk =>
    simp only [Phrase.callCount, Expr.callCount_access] at iho ihk ⊢
    exact iho.trans (.cons _ (.cons _ (ihk.trans (.cons _ .nil))))
  | list _ _ hmid _ ih =>
    simp only [Phrase.callCount, Expr.callCount_list] at ih ⊢
    exact .cons _ (ih.trans ((charged_of_eq_or_separates hmid).trans (.cons _ .nil)))
  | hash _ _ hmid _ ih =>
    simp only [Phrase.callCount, Expr.callCount_hash] at ih ⊢
    exact .cons _ (ih.trans ((charged_of_eq_or_separates hmid).trans (.cons _ .nil)))
  | nextExpr _ hmid _ ihs ih =>
    simp only [Phrase.callCount, Expr.callsOf_concat] at ihs ih ⊢
    exact ihs.trans (by simpa using hmid.charged.trans ih)
  | arguments hopen _ _ ih => exact .opening hopen (ih.trans (.cons _ .nil))
  | keyExpr _ _ ih => exact ih
  | nextEntry _ hmid _ _ _ ihs ihk ihv =>
    simp only [Phrase.callCount, Expr.callsOfEntries_concat] at ihs ihk ihv ⊢
    exact ihs.trans (by simpa using hmid.charged.trans (ihk.trans (.cons _ ihv)))

namespace Evaluation

theorem isCompositional_length_calls (env : Env) :
    IsCompositional env fun _ n x => x.outcome.calls.length ≤ n where
  mono hmn hx := Nat.le_trans hx hmn
  bind {α β m n x f} hx hf := by
    rw [Traced.outcome_bind]
    cases hresult : x.outcome.result with
    | error e =>
      rw [Outcome.bind_of_error hresult]
      exact Nat.le_trans hx (Nat.le_add_right m n)
    | ok a =>
      rw [Outcome.bind_of_ok hresult, List.length_append]
      exact Nat.add_le_add hx (hf a)
  ofExcept _ := Nat.zero_le _
  call _ _ := Nat.le_refl 1
  apply {name f} arguments _ := by
    rw [Traced.outcome_noting, Function.apply]
    split
    · exact Nat.zero_le _
    · exact Nat.le_refl 1

theorem length_calls_eval_le (host : Host) (functions : Registry) (context : Context) (e : Expr) :
    (e.eval host functions context).calls.length ≤ e.callCount := by
  rw [← Expr.outcome_trace]
  refine Expr.trace_of_isCompositional (isCompositional_length_calls ⟨host, functions, context⟩) fun d _ => ?_
  cases d with
  | name n => exact Nat.zero_le _
  | call name arguments => exact fun _ => Nat.zero_le _
  | _ => trivial

end Evaluation

namespace Parsing

/-- Each shorthand at most doubles the calls: without one there are no more calls in a tree than
parentheses that open in its tokens. An evaluation makes each call in the tree at most once. -/
theorem callCount_of_parseTokens {scope : Scope} {stream : TokenStream} {tree : Expr}
    (h : parseTokens scope stream = .ok tree) :
    tree.callCount ≤ 2 ^ shorthands ((stream.current :: stream.after).map Token.content) *
      openings ((stream.current :: stream.after).map Token.content) ∧
    ∀ host functions context, (tree.eval host functions context).calls.length ≤ tree.callCount := by
  obtain ⟨rest, hderives⟩ := derives_of_parseTokens h
  exact ⟨hderives.charged.le, fun host functions context =>
    Evaluation.length_calls_eval_le host functions context tree⟩

/-- The tokens of `f(1) ?: 2`. -/
def defaultedCallStream : TokenStream :=
  .ofTokens "f(1) ?: 2" [⟨.name, .string "f", 1⟩, ⟨.punctuation, .string "(", 2⟩,
    ⟨.number, .int 1, 3⟩, ⟨.punctuation, .string ")", 4⟩, ⟨.punctuation, .string "?", 6⟩,
    ⟨.punctuation, .string ":", 7⟩, ⟨.number, .int 2, 9⟩, .ending 10]

/-- Its tree, with the call in it twice. -/
def defaultedCall : Expr :=
  .conditional (.call "f" [.literal (.int 1)]) (.call "f" [.literal (.int 1)]) (.literal (.int 2))

theorem callCount_of_parseTokens_defaultedCall :
    parseTokens (.ofVariables ["f"] none {}) defaultedCallStream = .ok defaultedCall ∧
    defaultedCall.callCount ≤ 2 ^ 1 * 1 ∧
    ∀ host functions context,
      (defaultedCall.eval host functions context).calls.length ≤ defaultedCall.callCount := by
  have hparse : parseTokens (.ofVariables ["f"] none {}) defaultedCallStream = .ok defaultedCall := by
    cbv
  exact ⟨hparse, callCount_of_parseTokens hparse⟩

/-- There is one call site in `f(1) ?: 2`, but two calls in its tree, and an evaluation may make both. -/
theorem openings_lt_callCount_defaultedCall :
    parseTokens (.ofVariables ["f"] none {}) defaultedCallStream = .ok defaultedCall ∧
    openings (defaultedCallStream.tokens.map Token.content) = 1 ∧
    ¬defaultedCall.callCount ≤ openings (defaultedCallStream.tokens.map Token.content) ∧
    ¬(defaultedCall.eval (fun _ _ => .ok (.bool true)) ((Registry.withBuiltins none).put
        { name := "f", script := Builtin.callScript "f", body := .hosted "f" }) []).calls.length ≤
      openings (defaultedCallStream.tokens.map Token.content) := by
  have hopenings : openings (defaultedCallStream.tokens.map Token.content) = 1 := by rfl
  have hcount : defaultedCall.callCount = 2 := by rfl
  refine ⟨by cbv, hopenings, ?_, ?_⟩
  · rw [hopenings, hcount]
    decide
  · rw [hopenings]
    exact Nat.not_le.mpr (Nat.lt_of_lt_of_eq Nat.one_lt_two rfl)

end Parsing
end Formula
