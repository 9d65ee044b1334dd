import Mathlib
import Formula.Proofs.Parsing.Context
import Formula.Proofs.Parsing.Derivation

/-! Siblings are read independently of each other. Contents that are an expression, and still one in
parentheses, are the same expression among the items of a list and among the arguments of a call. -/

namespace Formula

open Content (mark name separated enclosed)

namespace Content

/-- The contents of a stream. An ending is added if there is none. -/
def closed (cs : List Content) : List Content :=
  if cs.getLast?.any (·.kind == .ending) then cs else cs ++ [ending]

theorem closed_concat (cs : List Content) {c : Content} (h : c.kind ≠ .ending) :
    closed (cs ++ [c]) = cs ++ [c] ++ [ending] := by
  simp [closed, h]

theorem exists_closed_eq (cs : List Content) :
    ∃ ls z, z.kind = .ending ∧ closed cs = ls ++ [z] ∧ (cs = ls ∨ cs = ls ++ [z]) := by
  rcases List.eq_nil_or_concat cs with rfl | ⟨ls, z, hcs⟩
  · exact ⟨[], ending, rfl, rfl, .inl rfl⟩
  · rw [List.concat_eq_append] at hcs
    subst hcs
    by_cases hz : z.kind = .ending
    · exact ⟨ls, z, hz, by simp [closed, hz], .inr rfl⟩
    · exact ⟨ls ++ [z], ending, rfl, closed_concat ls hz, .inl rfl⟩

theorem closed_enclosed (ds : List Content) (opening : Char) (cs : List Content) :
    closed (ds ++ enclosed opening cs) = ds ++ enclosed opening cs ++ [ending] := by
  have hconcat : ds ++ enclosed opening cs =
      (ds ++ mark opening.toString :: cs) ++ [mark (Lexer.closing opening).toString] := by
    simp [enclosed]
  rw [hconcat]
  exact closed_concat _ (show TokenKind.punctuation ≠ .ending by decide)

end Content

theorem TokenStream.contents_ofTokens (expression : String) (tokens : List Token) :
    ((ofTokens expression tokens).current :: (ofTokens expression tokens).after).map Token.content =
      Content.closed (tokens.map Token.content) := by
  have hlast : (tokens.map Token.content).getLast?.any (·.kind == .ending) =
      tokens.getLast?.any (·.kind == .ending) := by
    rw [List.getLast?_map, Option.any_map]
    rfl
  rw [Content.closed, hlast]
  cases tokens with
  | nil => rfl
  | cons t ts =>
    rw [ofTokens]
    split
    · rfl
    · rw [← List.cons_append, List.map_append]
      rfl

/-- The first content of an expression. -/
theorem Derives.exists_head {scope : Scope} {cs rest : List Content} {phrase : Phrase}
    (h : Derives scope cs phrase rest) : ∀ e, phrase = .expr e → ∃ c cs', cs = c :: cs' ∧
      c.kind ≠ .ending ∧ ∀ text ∈ [")", "]", "\x7d", ":"], c.isMark text = false := by
  have hkind {c : Content} {cs : List Content} (hc : c.kind ≠ .punctuation) (hc' : c.kind ≠ .ending) :
      ∃ d ds, c :: cs = d :: ds ∧ d.kind ≠ .ending ∧
        ∀ text ∈ [")", "]", "\x7d", ":"], d.isMark text = false :=
    ⟨c, cs, rfl, hc', fun text _ => Content.isMark_of_kind hc text⟩
  have hopening {c : Content} {cs : List Content} {text : String} (hc : c.isMark text = true)
      (htext : ∀ text' ∈ [")", "]", "\x7d", ":"], (mark text).isMark text' = false) :
      ∃ d ds, c :: cs = d :: ds ∧ d.kind ≠ .ending ∧
        ∀ text ∈ [")", "]", "\x7d", ":"], d.isMark text = false := by
    obtain rfl := Content.isMark_iff.mp hc
    exact ⟨_, cs, rfl, nofun, htext⟩
  induction h with
  | literal hc => exact fun _ _ => by rcases hc with hc | hc <;> exact hkind (by simp [hc]) (by simp [hc])
  | constant hc | name hc | coalescedName hc | call hc =>
    exact fun _ _ => hkind (by simp [hc]) (by simp [hc])
  | enclosed ho => exact fun _ _ => hopening ho (by decide)
  | list ho => exact fun _ _ => hopening ho (by decide)
  | hash ho => exact fun _ _ => hopening ho (by decide)
  | unary hop =>
    have hc := Parsing.kind_of_unaryOp? hop
    exact fun _ _ => hkind (by simp [hc]) (by simp [hc])
  | binary _ _ _ ih => exact fun _ _ => ih _ rfl
  | coalesce _ _ _ ih => exact fun _ _ => ih _ rfl
  | conditional _ _ _ _ _ ih => exact fun _ _ => ih _ rfl
  | conditionalNull _ _ _ ih => exact fun _ _ => ih _ rfl
  | conditionalSelf _ _ _ _ ih => exact fun _ _ => ih _ rfl
  | property _ _ _ _ ih => exact fun _ _ => ih _ rfl
  | method _ _ _ _ _ ih => exact fun _ _ => ih _ rfl
  | index _ _ _ _ ih => exact fun _ _ => ih _ rfl
  | nullSafeIndex _ _ _ _ _ ih => exact fun _ _ => ih _ rfl
  | _ => exact nofun

namespace Parsing

variable {scope : Scope} {levels : Nat} {s s' : State} {cs : List Content} {e d : Expr}

theorem exists_expression_of_parseTokens {stream : TokenStream}
    (h : parseTokens scope stream = .ok e) :
    ∃ s', expression scope maxNesting 0 { stream } = .ok e s' ∧ s'.stream.current.kind = .ending :=
  exists_of_parseTokens (Q := fun e s' => expression scope maxNesting 0 { stream } = .ok e s')
    (fun _ _ hrun => hrun) h

/-- What a step comes to when nothing depends on its result. -/
theorem ensures_const {α β : Type} {step : Parser (Progress α β)} {P : Prop} (h : P) :
    Ensures step s (Progress.Keeps (fun _ _ => P) fun _ _ => P) := by
  intro progress s' _
  cases progress <;> exact h

/-- An expression that begins with a parenthesis has an expression inside, one level further down. -/
theorem exists_expression_of_enclosed (hs : s.ahead = mark "(" :: cs)
    (hrun : expression scope (levels + 1) 0 s = .ok e s') :
    ∃ d r r', expression scope levels 0 r = .ok d r' ∧ r.ahead = cs ∧
      r'.stream.current.isPunctuation ")" = true := by
  have hensures : Ensures (expression scope (levels + 1) 0) s fun _ _ =>
      ∃ d r r', expression scope levels 0 r = .ok d r' ∧ r.ahead = cs ∧
        r'.stream.current.isPunctuation ")" = true := by
    refine ensures_expression_succ (fun _ _ _ _ h => h) (fun s₁ hs₁ => ?_)
      (fun _ _ h => ensures_const h) (fun _ _ h => ensures_const h) fun _ _ h => ensures_const h
    obtain ⟨hc, hafter⟩ := List.cons.inj (hs₁.trans hs)
    have hunary : unaryOp? s₁.stream.current = none := by
      change s₁.stream.current.content.unaryOp? = none
      rw [hc, Content.unaryOp?_mark]
    have hopen : s₁.stream.current.isPunctuation "(" = true := by
      change s₁.stream.current.content.isMark "(" = true
      rw [hc, Content.isMark_mark, beq_self_eq_true]
    apply ensures_peek_bind
    simp only [hunary, hopen, if_true]
    refine (ensures_advance s₁).bind fun _ r hr => ?_
    refine Ensures.bind (Q := fun d r' => expression scope levels 0 r = .ok d r')
      (fun _ _ hrun => hrun) fun d r' hgroup => ?_
    refine (ensures_expect _ _ r').bind fun _ s₂ hclose _ _ _ => ⟨d, r, r', hgroup, ?_, hclose.1⟩
    exact (List.cons.inj (hr.symm.trans (hs₁.trans hs))).2
  exact hensures e s' hrun

/-- Tokens with the contents `cs` may stand so that they are read as `e`. -/
def Accepts (scope : Scope) (cs : List Content) (e : Expr) : Prop :=
  ∃ text tokens, tokens.map Token.content = cs ∧ parseTokens scope (.ofTokens text tokens) = .ok e

theorem Accepts.begins (h : Accepts scope cs e) : Begins cs := by
  obtain ⟨text, tokens, rfl, hparse⟩ := h
  obtain ⟨rest, hderives⟩ := derives_of_parseTokens hparse
  rw [TokenStream.contents_ofTokens] at hderives
  obtain ⟨c, cs', hclosed, hkind, hmark⟩ := hderives.exists_head e rfl
  cases tokens with
  | nil =>
    obtain ⟨rfl, -⟩ := List.cons.inj hclosed
    exact absurd rfl hkind
  | cons t ts =>
    refine ⟨t.content, ts.map Token.content, rfl, ?_⟩
    have hhead : t.content = c := by
      unfold Content.closed at hclosed
      split at hclosed
      · exact (List.cons.inj hclosed).1
      · exact (List.cons.inj hclosed).1
    rw [hhead]
    exact hmark

/-- What follows a group in parentheses may be replaced by what delimits an element. -/
theorem Delimits.tails {tail : List Content} (h : Delimits tail) :
    Tails [mark ")", Content.ending] tail := by
  obtain ⟨text, htext, c, rest, rfl⟩ := h
  refine ⟨Nat.le_add_left 2 _, fun c hc => ?_, fun c hc => ?_⟩
  · obtain rfl := Option.some.inj hc
    rfl
  · obtain rfl := Option.some.inj hc
    simp only [List.mem_cons, List.not_mem_nil, or_false] at htext
    rcases htext with rfl | rfl | rfl | rfl <;> rfl

/-- What is accepted alone and in parentheses is an element of any sequence, one level further down. -/
theorem isElement_of_accepts (hlevels : maxNesting = levels + 1) (halone : Accepts scope cs e)
    (hgroup : Accepts scope (enclosed '(' cs) d) : IsElement False scope levels cs e := by
  obtain ⟨text, tokens, rfl, halone⟩ := halone
  obtain ⟨text', tokens', htokens', hgroup⟩ := hgroup
  obtain ⟨s', hs', hending⟩ := exists_expression_of_parseTokens halone
  obtain ⟨r₀, hr₀, -⟩ := exists_expression_of_parseTokens hgroup
  have hahead' : State.ahead { stream := .ofTokens text' tokens' } =
      mark "(" :: (tokens.map Token.content ++ [mark ")", .ending]) := by
    refine (TokenStream.contents_ofTokens text' tokens').trans ?_
    rw [htokens', ← List.nil_append (enclosed _ _), Content.closed_enclosed, List.nil_append,
      enclosed_append]
    rfl
  rw [hlevels] at hr₀
  obtain ⟨d', r, r', hrun, hr, hmark⟩ := exists_expression_of_enclosed hahead' hr₀
  obtain ⟨ls, z, hz, hahead, hcs⟩ := Content.exists_closed_eq (tokens.map Token.content)
  rw [← TokenStream.contents_ofTokens text tokens] at hahead
  have hle : levels ≤ maxNesting := by omega
  have hstop := Content.isStop_of_ending hz
  rcases hcs with hcs | hcs
  · rw [hcs] at hr ⊢
    obtain ⟨rfl, hr'⟩ := eq_of_expression_of_ending hle hstop (List.cons_ne_nil _ _)
      (fun c hc => by obtain rfl := Option.some.inj hc; rfl) hs' hahead hending hrun hr hmark
    exact fun tail htail => reads_of_expression htail.tails hrun hr hr'
  · -- An ending of their own would stand in front of the closing parenthesis.
    rw [hcs, List.append_assoc] at hr
    obtain ⟨-, hr'⟩ := eq_of_expression_of_ending hle hstop (List.cons_ne_nil _ _)
      (fun c hc => by obtain rfl := Option.some.inj hc; exact hstop) hs' hahead hending hrun hr hmark
    obtain ⟨hcurrent, -⟩ := List.cons.inj hr'
    have hnone := Content.isMark_of_kind (c := z) (by rw [hz]; decide) ")"
    rw [← hcurrent] at hnone
    exact Bool.noConfusion (hmark.symm.trans hnone)

/-- An object that is closed behind is a stream of its own. -/
theorem parseTokens_of_isObject (hlevels : maxNesting = levels + 1)
    (h : IsObject False scope levels cs e) (hclosed : Content.closed cs = cs ++ [.ending])
    {text : String} {tokens : List Token} (htokens : tokens.map Token.content = cs) :
    parseTokens scope (.ofTokens text tokens) = .ok e := by
  have hstream : ((TokenStream.ofTokens text tokens).current ::
      (TokenStream.ofTokens text tokens).after).map Token.content = cs ++ [(Token.ending 0).content] := by
    rw [TokenStream.contents_ofTokens, htokens, hclosed]
    rfl
  have hread := isFull_of_isChain h.isOperand.isChain (Token.ending 0).content []
    (Content.goesOn_of_ending rfl)
  rw [← hlevels] at hread
  exact (parseTokens_of_reads hstream rfl hread).resolve_right fun h => h.1

/-- Contents that are accepted alone, and also in parentheses, are accepted as the items of a list and
as the arguments of a function that is known, however many there are and wherever their tokens stand. -/
theorem parseTokens_siblings {items : List (List Content × Expr)} (hne : items ≠ [])
    (halone : ∀ x ∈ items, Accepts scope x.1 x.2)
    (hgroup : ∀ x ∈ items, ∃ d, Accepts scope (enclosed '(' x.1) d) :
    (∀ (trailing : Bool) text tokens, tokens.map Token.content =
        enclosed '[' (separated (items.map Prod.fst) ++ if trailing then [mark ","] else []) →
      parseTokens scope (.ofTokens text tokens) = .ok (.list (items.map Prod.snd))) ∧
    ∀ f, scope.KnowsFunction f → constant? f = none → ∀ text tokens, tokens.map Token.content =
        name f :: enclosed '(' (separated (items.map Prod.fst)) →
      parseTokens scope (.ofTokens text tokens) = .ok (.call f (items.map Prod.snd)) := by
  have hlevels : maxNesting = 127 + 1 := rfl
  have helement : ∀ x ∈ items, IsElement False scope 127 x.1 x.2 := fun x hx =>
    isElement_of_accepts hlevels (halone x hx) (hgroup x hx).choose_spec
  have hbegins : ∀ x ∈ items, Begins x.1 := fun x hx => (halone x hx).begins
  refine ⟨fun trailing text tokens htokens => ?_, fun f hf hconstant text tokens htokens => ?_⟩
  · have hlist := isObject_items trailing (fun h => absurd h hne) helement hbegins
    exact parseTokens_of_isObject hlevels hlist (Content.closed_enclosed [] '[' _) htokens
  · have hknown : (scope.functions.contains f || scope.leniency.unknownFunctions) = true := by
      simpa [Scope.KnowsFunction] using hf
    have hcall := isObject_call hconstant hknown helement hbegins
    exact parseTokens_of_isObject hlevels hcall (Content.closed_enclosed [name f] '(' _) htokens

theorem parseTokens_siblings_conditional :
    let scope := Scope.ofVariables ["f"] (some [.plain "a", .plain "b"]) {}
    let items : List (List Content × Expr) :=
      [([name "a", mark "?", name "b"], .conditional (.name "a") (.name "b") (.literal .null)),
        ([name "b"], .name "b")]
    (∀ x ∈ items, Accepts scope x.1 x.2) ∧ (∀ x ∈ items, ∃ d, Accepts scope (enclosed '(' x.1) d) ∧
      parseTokens scope (.ofTokens "[a ? b, b,]" [⟨.punctuation, .string "[", 1⟩,
        ⟨.name, .string "a", 2⟩, ⟨.punctuation, .string "?", 4⟩, ⟨.name, .string "b", 6⟩,
        ⟨.punctuation, .string ",", 7⟩, ⟨.name, .string "b", 9⟩, ⟨.punctuation, .string ",", 10⟩,
        ⟨.punctuation, .string "]", 11⟩]) = .ok (.list (items.map Prod.snd)) ∧
      parseTokens scope (.ofTokens "f(a ? b, b)" [⟨.name, .string "f", 1⟩,
        ⟨.punctuation, .string "(", 2⟩, ⟨.name, .string "a", 3⟩, ⟨.punctuation, .string "?", 5⟩,
        ⟨.name, .string "b", 7⟩, ⟨.punctuation, .string ",", 8⟩, ⟨.name, .string "b", 10⟩,
        ⟨.punctuation, .string ")", 11⟩]) = .ok (.call "f" (items.map Prod.snd)) := by
  intro scope items
  have halone : ∀ x ∈ items, Accepts scope x.1 x.2 :=
    List.forall_mem_cons.mpr ⟨⟨"a ? b", [⟨.name, .string "a", 1⟩, ⟨.punctuation, .string "?", 3⟩,
      ⟨.name, .string "b", 5⟩], rfl, by cbv⟩,
      List.forall_mem_singleton.mpr ⟨"b", [⟨.name, .string "b", 1⟩], rfl, by cbv⟩⟩
  have hgroup : ∀ x ∈ items, ∃ d, Accepts scope (enclosed '(' x.1) d :=
    List.forall_mem_cons.mpr ⟨⟨_, "(a ? b)", [⟨.punctuation, .string "(", 1⟩,
      ⟨.name, .string "a", 2⟩, ⟨.punctuation, .string "?", 4⟩, ⟨.name, .string "b", 6⟩,
      ⟨.punctuation, .string ")", 7⟩], rfl, by cbv⟩,
      List.forall_mem_singleton.mpr ⟨_, "(b)", [⟨.punctuation, .string "(", 1⟩,
        ⟨.name, .string "b", 2⟩, ⟨.punctuation, .string ")", 3⟩], rfl, by cbv⟩⟩
  obtain ⟨hlist, hcall⟩ := parseTokens_siblings (List.cons_ne_nil _ _) halone hgroup
  exact ⟨halone, hgroup, hlist true _ _ rfl, hcall "f" (.inl (List.mem_singleton_self _)) rfl _ _ rfl⟩

end Parsing
end Formula
