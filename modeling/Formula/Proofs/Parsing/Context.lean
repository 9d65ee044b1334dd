import Formula.Proofs.Parsing.Forms
import Formula.Proofs.Parsing.Ensures

/-! What stands behind an expression does not change what is read of it. Two parses run side by side
on the same contents in front of different tails. As long as the first takes nothing of its tail, the
other goes along with it. -/

namespace Formula

/-- Whether no part of an expression goes on with `c`, nor a condition that has only one branch. -/
def Content.isStop (c : Content) : Bool := !c.goesOn && !c.isMark ":"

theorem Content.isStop_iff {c : Content} :
    c.isStop = true ↔ c.goesOn = false ∧ c.isMark ":" = false := by
  simp [isStop]

theorem Content.isStop_of_ending {c : Content} (h : c.kind = .ending) : c.isStop = true :=
  isStop_iff.mpr ⟨goesOn_of_ending h, isMark_of_kind (by simp [h]) _⟩

theorem Content.isAccess_of_isStop {c : Content} (h : c.isStop = true) : c.isAccess = false := by
  have hattaches := (goesOn_eq_false_iff.mp (isStop_iff.mp h).1).1
  rw [attaches, Bool.or_eq_false_iff] at hattaches
  exact hattaches.1

/-- What a production may ask for behind something that can end there. -/
theorem Content.isMark_of_isStop {c : Content} (h : c.isStop = true) {text : String}
    (htext : text ∈ ["(", "[", "??", "?", ":"]) : c.isMark text = false := by
  obtain ⟨hgoes, hcolon⟩ := isStop_iff.mp h
  obtain ⟨hattaches, -, hcoalesce, hcond⟩ := goesOn_eq_false_iff.mp hgoes
  simp only [attaches, isAccess, Bool.or_eq_false_iff] at hattaches
  simp only [List.mem_cons, List.not_mem_nil, or_false] at htext
  rcases htext with rfl | rfl | rfl | rfl | rfl
  · exact hattaches.2
  · exact hattaches.1.2
  · exact hcoalesce
  · exact hcond
  · exact hcolon

namespace Parsing

/-- Tails that no expression goes on with. The second is no shorter than the first, so that a parse in
front of it has as many repetitions. -/
structure Tails (t t' : List Content) : Prop where
  length_le : t.length ≤ t'.length
  isStop : ∀ c ∈ t.head?, c.isStop = true
  isStop' : ∀ c ∈ t'.head?, c.isStop = true

variable {α β : Type} {t t' : List Content} {i i' k j : Nat}

/-- `q` goes along with `p` as long as `p` leaves its tail alone. The numbers count contents in front of
the tail: a parse that starts with fewer than `k` ends with fewer than `j`, and with one that ends so
`q` need not go along. -/
structure Follows (t t' : List Content) (k j : Nat) (p q : Parser α) : Prop where
  past : ∀ {s s' a}, p s = .ok a s' → s.ahead.length < t.length + k →
    s'.ahead.length < t.length + j
  beside : ∀ {ls s r s' a}, p s = .ok a s' → s.ahead = ls ++ t → r.ahead = ls ++ t' →
    s'.ahead.length < t.length + j ∨
      ∃ ls' r', q r = .ok a r' ∧ s'.ahead = ls' ++ t ∧ r'.ahead = ls' ++ t'

theorem ahead_length (s : State) : s.ahead.length = s.stream.after.length + 1 := by
  simp [State.ahead]

theorem ahead_ne_nil (s : State) : s.ahead ≠ [] := List.cons_ne_nil _ _

theorem follows_pure (hk : k ≤ j) (a : α) : Follows t t' k j (pure a) (pure a) where
  past := by
    intro s s' _ hrun hlt
    obtain ⟨-, rfl⟩ := EStateM.Result.ok.inj hrun
    omega
  beside := by
    intro ls s r s' _ hrun hs hr
    obtain ⟨rfl, rfl⟩ := EStateM.Result.ok.inj hrun
    exact .inr ⟨ls, r, rfl, hs, hr⟩

theorem follows_of_ne_ok {p q : Parser α} (h : ∀ s a s', p s ≠ .ok a s') : Follows t t' k j p q where
  past := fun hrun => absurd hrun (h _ _ _)
  beside := fun hrun => absurd hrun (h _ _ _)

theorem follows_fail (fault fault' : Fault) (cursor cursor' : Nat) :
    Follows t t' k j (fail fault cursor : Parser α) (fail fault' cursor') :=
  follows_of_ne_ok fun _ _ _ hrun => by cases hrun

theorem Follows.weaken {p q : Parser α} (h : Follows t t' i i' p q) (hk : k ≤ i)
    (hj : i' ≤ j) : Follows t t' k j p q where
  past := by
    intro s s' a hrun hlt
    have hpast := h.past hrun (by omega)
    omega
  beside := by
    intro ls s r s' a hrun hs hr
    exact (h.beside hrun hs hr).imp_left fun hlt => by omega

theorem Follows.bind {p q : Parser α} {f g : α → Parser β} (hp : Follows t t' k i p q)
    (hf : ∀ a, Follows t t' i j (f a) (g a)) : Follows t t' k j (p >>= f) (q >>= g) where
  past := by
    intro s s' b hrun hlt
    obtain ⟨a, mid, ha, hb⟩ := bind_eq_ok.mp hrun
    exact (hf a).past hb (hp.past ha hlt)
  beside := by
    intro ls s r s' b hrun hs hr
    obtain ⟨a, mid, ha, hb⟩ := bind_eq_ok.mp hrun
    rcases hp.beside ha hs hr with hlt | ⟨ls', r', hq, hmid, hr'⟩
    · exact .inl ((hf a).past hb hlt)
    · refine ((hf a).beside hb hmid hr').imp_right ?_
      rintro ⟨ls'', r'', hg, hs', hr''⟩
      exact ⟨ls'', r'', bind_eq_ok.mpr ⟨a, r', hq, hg⟩, hs', hr''⟩

theorem Follows.ite {c : Prop} [Decidable c] {p p' q q' : Parser α} (h : Follows t t' k j p q)
    (h' : Follows t t' k j p' q') : Follows t t' k j (if c then p else p') (if c then q else q') := by
  split
  · exact h
  · exact h'

theorem follows_opening (mayRead mayRead' : Bool) :
    Follows t t' k k (opening mayRead) (opening mayRead') where
  past := by
    intro s s' _ hrun hlt
    rwa [ensures_opening mayRead s _ s' hrun]
  beside := by
    intro ls s r s' _ hrun hs hr
    rw [ensures_opening mayRead s _ s' hrun]
    exact .inr ⟨ls, _, rfl, hs, hr⟩

theorem follows_closing : Follows t t' k k closing closing where
  past := by
    intro s s' _ hrun hlt
    rwa [ensures_closing s _ s' hrun]
  beside := by
    intro ls s r s' _ hrun hs hr
    rw [ensures_closing s _ s' hrun]
    exact .inr ⟨ls, _, rfl, hs, hr⟩

/-- The steps of both loops are taken equally often, and in front of the longer tail more of them are
allowed. -/
theorem follows_loop (h : Tails t t') {step step' : α → Parser (Progress α β)}
    (hstep : ∀ a, Follows t t' k k (step a) (step' a)) (a : α) :
    Follows t t' k k (loop step a) (loop step' a) := by
  have hrepeating : ∀ m n a, m ≤ n → Follows t t' k k (repeating step m a) (repeating step' n a) := by
    intro m
    induction m with
    | zero => exact fun n a _ => follows_of_ne_ok fun _ _ _ hrun => by cases hrun
    | succ m ih =>
      intro n a hmn
      obtain ⟨n, rfl⟩ : ∃ i, n = i + 1 := ⟨n - 1, by omega⟩
      refine (hstep a).bind fun progress => ?_
      cases progress with
      | again a' => exact ih n a' (by omega)
      | done b => exact follows_pure (Nat.le_refl k) b
  constructor
  · intro s s' b hrun hlt
    exact (hrepeating _ _ a (Nat.le_refl _)).past hrun hlt
  · intro ls s r s' b hrun hs hr
    refine (hrepeating _ _ a ?_).beside hrun hs hr
    have hle := h.length_le
    rw [← ahead_length, ← ahead_length, hs, hr, List.length_append, List.length_append]
    omega

section Tokens

variable (h : Tails t t')
include h

/-- A step that takes one content goes along wherever it may take the same one. -/
theorem follows_of_takes {p : Parser Unit} (hk : k ≤ j + 1)
    (htakes : ∀ s, Ensures p s fun _ s' => s.ahead = s.stream.current.content :: s'.ahead)
    (hsame : ∀ s s', p s = .ok () s' → ∀ cs, cs ≠ [] →
      Reads False p (s.stream.current.content :: cs) () cs) : Follows t t' k j p p where
  past := by
    intro s s' _ hrun hlt
    have hlength := congrArg List.length (htakes s _ s' hrun)
    rw [List.length_cons] at hlength
    omega
  beside := by
    intro ls s r s' _ hrun hs hr
    have hahead := hs.symm.trans (htakes s _ s' hrun)
    cases ls with
    | nil =>
      have hlength := congrArg List.length hahead
      rw [List.nil_append, List.length_cons] at hlength
      exact .inl (by omega)
    | cons c ls =>
      rw [List.cons_append] at hahead
      obtain ⟨rfl, htail⟩ := List.cons.inj hahead
      -- Behind the longer tail there is as much to move on to.
      have hne : ls ++ t' ≠ [] := by
        have hpos := List.length_pos_iff.mpr (ahead_ne_nil s')
        have hle := h.length_le
        rw [← htail, List.length_append] at hpos
        rw [← List.length_pos_iff, List.length_append]
        omega
      rcases hsame s s' hrun _ hne r hr with ⟨r', hr', hleft⟩ | ⟨⟨⟩, -⟩
      exact .inr ⟨ls, r', hr', htail.symm, hleft⟩

theorem follows_advance (hk : k ≤ j + 1) : Follows t t' k j advance advance :=
  follows_of_takes h hk ensures_advance fun _ _ _ _ hne => reads_advance_of_ne_nil _ hne

theorem follows_expect (hk : k ≤ j + 1) (text : String) (context : Option String) :
    Follows t t' k j (expectPunctuation text context) (expectPunctuation text context) := by
  refine follows_of_takes h hk (fun s u s' hrun => (ensures_expect text context s u s' hrun).2) ?_
  intro s s' hrun cs hne
  exact reads_expect_of_ne_nil (ensures_expect text context s _ s' hrun).1 hne

/-- The next content is the same for both, or both look at their tails. -/
theorem follows_peek_bind {f g : Token → Parser β}
    (hsame : ∀ (c : Content) m n, Follows t t' k j (f (c.token m)) (g (c.token n)))
    (hstop : 0 < k ∨ ∀ (c c' : Content) m n, c.isStop = true → c'.isStop = true →
      Follows t t' k j (f (c.token m)) (g (c'.token n))) :
    Follows t t' k j (peek >>= f) (peek >>= g) where
  past := fun {s} _ _ hrun hlt =>
    (hsame s.stream.current.content s.stream.current.cursor 0).past hrun hlt
  beside := by
    intro ls s r s' b hrun hs hr
    cases ls with
    | nil =>
      rcases hstop with hk | hstop
      · refine .inl ((hsame s.stream.current.content s.stream.current.cursor 0).past hrun ?_)
        rw [hs, List.nil_append]
        omega
      · have hc := h.isStop s.stream.current.content (by rw [← List.nil_append t, ← hs]; rfl)
        have hc' := h.isStop' r.stream.current.content (by rw [← List.nil_append t', ← hr]; rfl)
        exact (hstop _ _ s.stream.current.cursor r.stream.current.cursor hc hc').beside hrun hs hr
    | cons c ls =>
      obtain ⟨rfl, -⟩ := List.cons.inj hr
      have hcontent : s.stream.current.content = r.stream.current.content := (List.cons.inj hs).1
      have hsame := hsame r.stream.current.content s.stream.current.cursor r.stream.current.cursor
      refine hsame.beside (r := r) ?_ hs hr
      rw [← hcontent]
      exact hrun

theorem follows_check_bind {f g : Bool → Parser β} {text : String}
    (hb : ∀ b, Follows t t' k j (f b) (g b))
    (hstop : 0 < k ∨ text ∈ ["(", "[", "??", "?", ":"]) :
    Follows t t' k j (check text >>= f) (check text >>= g) := by
  refine follows_peek_bind (f := fun token => f (token.isPunctuation text))
    (g := fun token => g (token.isPunctuation text)) h (fun c _ _ => hb (c.isMark text)) ?_
  refine hstop.imp_right fun htext c c' m n hc hc' => ?_
  simp only [Content.isPunctuation_token, Content.isMark_of_isStop hc htext,
    Content.isMark_of_isStop hc' htext]
  exact hb false

/-- A step of a loop inside brackets, which the closing bracket ends. -/
theorem follows_unless {text : String} {b : β} {p q : Parser β} (hp : Follows t t' 1 1 p q) :
    Follows t t' 1 1 (do if ← check text then return b else p)
      (do if ← check text then return b else q) :=
  follows_check_bind h (fun _ => .ite (follows_pure (Nat.le_refl 1) b) hp) (.inl Nat.one_pos)

theorem follows_separator {done : List α} {message : Option String} {p q : Parser β}
    (hp : Follows t t' 1 1 p q) :
    Follows t t' 1 1
      (do if !done.isEmpty then expectPunctuation "," message
          p)
      (do if !done.isEmpty then expectPunctuation "," message
          q) :=
  .ite ((follows_expect h (j := 1) (by decide) _ _).bind fun _ => hp) hp

/-- What stands in brackets: inside, one content in front of the tail is left to the closing bracket. -/
theorem follows_enclosed {step step' : List α → Parser (Progress (List α) (List α))}
    (hstep : ∀ done, Follows t t' 1 1 (step done) (step' done)) (f : List α → β)
    (opening closer : String) (context context' : Option String) :
    Follows t t' 1 0
      (do expectPunctuation opening context
          let as ← loop step []
          expectPunctuation closer context'
          return f as)
      (do expectPunctuation opening context
          let as ← loop step' []
          expectPunctuation closer context'
          return f as) :=
  (follows_expect h (j := 1) (by decide) _ _).bind fun _ => (follows_loop h hstep []).bind fun _ =>
    (follows_expect h (by decide) _ _).bind fun _ => follows_pure (Nat.le_refl 0) _

end Tokens

/-! Every production goes along with itself. -/

section Productions

variable (h : Tails t t') {sub sub' : Nat → Parser Expr}
  (hsub : ∀ precedence, Follows t t' 1 0 (sub precedence) (sub' precedence))
include h hsub

theorem follows_argumentStep (done : List Expr) :
    Follows t t' 1 1 (argumentStep sub done) (argumentStep sub' done) :=
  follows_unless h <| follows_separator h <| (hsub 0).bind fun _ => follows_pure (Nat.zero_le 1) _

theorem follows_arguments : Follows t t' 0 0 (arguments sub) (arguments sub') :=
  (follows_enclosed h (follows_argumentStep h hsub) id _ _ _ _).weaken (Nat.zero_le 1) (Nat.le_refl 0)

theorem follows_itemStep (done : List Expr) :
    Follows t t' 1 1 (itemStep sub done) (itemStep sub' done) :=
  follows_unless h <| follows_separator h <| follows_unless h <|
    (hsub 0).bind fun _ => follows_pure (Nat.zero_le 1) _

theorem follows_listLiteral : Follows t t' 1 0 (listLiteral sub) (listLiteral sub') :=
  follows_enclosed h (follows_itemStep h hsub) Expr.list _ _ _ _

theorem follows_hashKey : Follows t t' 1 0 (hashKey sub) (hashKey sub') := by
  refine follows_peek_bind h (fun c m n => ?_) (.inl Nat.one_pos)
  obtain ⟨kind, value⟩ := c
  have hliteral : Follows t t' 1 0 (do advance; return .literal value : Parser Expr)
      (do advance; return .literal value) :=
    (follows_advance h (by decide)).bind fun _ => follows_pure (Nat.le_refl 0) _
  cases kind with
  | string | name | number => exact hliteral
  | _ => exact .ite (hsub 0) (follows_fail _ _ _ _)

theorem follows_entryStep (done : List (Expr × Expr)) :
    Follows t t' 1 1 (entryStep sub done) (entryStep sub' done) :=
  follows_unless h <| follows_separator h <| follows_unless h <|
    (follows_hashKey h hsub).bind fun _ => (follows_expect h (j := 1) (by decide) _ _).bind fun _ =>
      (hsub 0).bind fun _ => follows_pure (Nat.zero_le 1) _

theorem follows_hashLiteral : Follows t t' 1 0 (hashLiteral sub) (hashLiteral sub') :=
  follows_enclosed h (follows_entryStep h hsub) Expr.hash _ _ _ _

/-- What follows an operator or a bracket is an expression. -/
theorem follows_advance_sub (hk : k ≤ 2) (precedence : Nat) {f g : Expr → Parser β}
    (hf : ∀ e, Follows t t' 0 0 (f e) (g e)) :
    Follows t t' k 0 (do advance; f (← sub precedence)) (do advance; g (← sub' precedence)) :=
  (follows_advance h (j := 1) hk).bind fun _ => (hsub precedence).bind hf

theorem follows_index (object : Expr) (nullSafe : Bool) :
    Follows t t' 0 0 (index sub object nullSafe) (index sub' object nullSafe) :=
  follows_advance_sub h hsub (by decide) 0 fun _ =>
    (follows_expect h (Nat.zero_le 1) _ _).bind fun _ => follows_pure (Nat.le_refl 0) _

theorem follows_member (object : Expr) (nullSafe : Bool) :
    Follows t t' 1 0 (member sub object nullSafe) (member sub' object nullSafe) := by
  refine follows_peek_bind h (fun c m n => (follows_advance h (Nat.le_refl 1)).bind fun _ => ?_)
    (.inl Nat.one_pos)
  have hname : memberName? (c.token m) = memberName? (c.token n) := rfl
  rw [hname]
  cases memberName? (c.token n) with
  | none => exact follows_fail _ _ _ _
  | some name =>
    refine follows_check_bind h (fun _ => .ite ?_ (follows_pure (Nat.le_refl 0) _))
      (.inr (by decide))
    exact (follows_arguments h hsub).bind fun _ => follows_pure (Nat.le_refl 0) _

theorem follows_postfixed (object : Expr) :
    Follows t t' 0 0 (postfixed sub object) (postfixed sub' object) := by
  refine follows_loop h (fun object => ?_) object
  have hagain {p q : Parser Expr} (hp : Follows t t' 0 0 p q) :
      Follows t t' 0 0 (do return .again (← p) : Parser (Progress Expr Expr))
        (do return .again (← q)) :=
    hp.bind fun _ => follows_pure (Nat.le_refl 0) _
  have hmember (nullSafe : Bool) := (follows_member h hsub object nullSafe).weaken (k := 0) (j := 0)
    (Nat.zero_le 1) (Nat.le_refl 0)
  refine follows_peek_bind h (fun c m n => ?_) (.inr fun c c' m n hc hc' => ?_)
  · refine .ite ((follows_advance h (Nat.zero_le 1)).bind fun _ => hagain (hmember false)) ?_
    refine .ite ((follows_advance h (Nat.zero_le 1)).bind fun _ => ?_) ?_
    · exact follows_check_bind h (fun _ => .ite (hagain (follows_index h hsub object true))
        (hagain (hmember true))) (.inr (by decide))
    · exact .ite (hagain (follows_index h hsub object false)) (follows_pure (Nat.le_refl 0) _)
  · have haccess := Content.isAccess_of_isStop hc
    have haccess' := Content.isAccess_of_isStop hc'
    simp only [Content.isAccess, Bool.or_eq_false_iff] at haccess haccess'
    simp only [Content.isPunctuation_token, haccess, haccess', Bool.false_eq_true, if_false]
    exact follows_pure (Nat.le_refl 0) _

theorem follows_binaryStep (precedence : Nat) (left : Expr) :
    Follows t t' 0 0 (binaryStep sub precedence left) (binaryStep sub' precedence left) := by
  refine follows_peek_bind h (fun c m n => ?_) (.inr fun c c' m n hc hc' => ?_)
  · rw [Content.binaryOp?_token, Content.binaryOp?_token]
    cases c.binaryOp? with
    | none => exact follows_pure (Nat.le_refl 0) _
    | some op =>
      refine .ite (follows_pure (Nat.le_refl 0) _) ?_
      exact follows_advance_sub h hsub (by decide) _ fun _ => follows_pure (Nat.le_refl 0) _
  · have hop := (Content.goesOn_eq_false_iff.mp (Content.isStop_iff.mp hc).1).2.1
    have hop' := (Content.goesOn_eq_false_iff.mp (Content.isStop_iff.mp hc').1).2.1
    rw [Content.binaryOp?_token, Content.binaryOp?_token, hop, hop']
    exact follows_pure (Nat.le_refl 0) _

theorem follows_coalesceStep (left : Expr) :
    Follows t t' 0 0 (coalesceStep sub left) (coalesceStep sub' left) := by
  refine follows_check_bind h (fun _ => .ite ?_ (follows_pure (Nat.le_refl 0) _)) (.inr (by decide))
  exact follows_advance_sub h hsub (by decide) 0 fun _ => follows_pure (Nat.le_refl 0) _

theorem follows_conditionalStep (condition : Expr) :
    Follows t t' 0 0 (conditionalStep sub condition) (conditionalStep sub' condition) := by
  have hno (yes : Expr) : Follows t t' 0 0
      (do advance; return .again (.conditional condition yes (← sub 0)) : Parser (Progress Expr Expr))
      (do advance; return .again (.conditional condition yes (← sub' 0))) :=
    follows_advance_sub h hsub (by decide) 0 fun _ => follows_pure (Nat.le_refl 0) _
  have hyes := (hsub 0).weaken (k := 0) (j := 0) (Nat.zero_le 1) (Nat.le_refl 0)
  refine follows_check_bind h (fun _ => .ite (follows_pure (Nat.le_refl 0) _) ?_) (.inr (by decide))
  refine (follows_advance h (Nat.zero_le 1)).bind fun _ => ?_
  refine follows_check_bind h (fun _ => .ite (hno condition) ?_) (.inr (by decide))
  refine hyes.bind fun yes => ?_
  exact follows_check_bind h (fun _ => .ite (hno yes) (follows_pure (Nat.le_refl 0) _))
    (.inr (by decide))

variable (scope : Scope)

theorem follows_callOf (name : String) (cursor cursor' : Nat) :
    Follows t t' 0 0 (callOf scope sub name cursor) (callOf scope sub' name cursor') := by
  refine .ite ((follows_arguments h hsub).bind fun _ => follows_pure (Nat.le_refl 0) _) ?_
  exact follows_of_ne_ok fun _ _ _ hrun => by cases hrun

omit hsub in
theorem follows_variableNamed (name : String) (cursor cursor' : Nat) :
    Follows t t' 0 0 (variableNamed scope name cursor) (variableNamed scope name cursor') := by
  refine .ite (follows_pure (Nat.le_refl 0) _) ?_
  refine follows_check_bind h (fun _ => .ite (follows_pure (Nat.le_refl 0) _) ?_) (.inr (by decide))
  exact follows_of_ne_ok fun _ _ _ hrun => by cases hrun

theorem follows_primary : Follows t t' 1 0 (primary scope sub) (primary scope sub') := by
  have hpost {k : Nat} {p q : Parser Expr} (hp : Follows t t' k 0 p q) :
      Follows t t' k 0 (do postfixed sub (← p)) (do postfixed sub' (← q)) :=
    hp.bind (follows_postfixed h hsub)
  refine follows_peek_bind h (fun c m n => ?_) (.inl Nat.one_pos)
  obtain ⟨kind, value⟩ := c
  have hliteral : Follows t t' 1 0 (do advance; return .literal value : Parser Expr)
      (do advance; return .literal value) :=
    (follows_advance h (by decide)).bind fun _ => follows_pure (Nat.le_refl 0) _
  cases kind with
  | number | string => exact hliteral
  | name =>
    refine (follows_advance h (Nat.le_refl 1)).bind fun _ => ?_
    have htext : (Content.token ⟨.name, value⟩ m).text? = (Content.token ⟨.name, value⟩ n).text? :=
      rfl
    rw [htext]
    generalize (Content.token ⟨.name, value⟩ n).text?.getD "" = name
    dsimp only
    cases constant? name with
    | some value => exact follows_pure (Nat.le_refl 0) _
    | none =>
      exact follows_check_bind h (fun _ => .ite (hpost (follows_callOf h hsub scope name _ _))
        (hpost (follows_variableNamed h scope name _ _))) (.inr (by decide))
  | _ =>
    exact .ite (hpost (follows_listLiteral h hsub))
      (.ite (hpost (follows_hashLiteral h hsub)) (follows_fail _ _ _ _))

theorem follows_operand : Follows t t' 1 0 (operand scope sub) (operand scope sub') := by
  refine follows_peek_bind h (fun c m n => ?_) (.inl Nat.one_pos)
  rw [Content.unaryOp?_token, Content.unaryOp?_token]
  cases c.unaryOp? with
  | some op =>
    exact follows_advance_sub h hsub (by decide) _ fun _ => follows_postfixed h hsub _
  | none =>
    refine .ite (follows_advance_sub h hsub (by decide) 0 fun _ => ?_) (follows_primary h hsub scope)
    exact (follows_expect h (Nat.zero_le 1) _ _).bind fun _ => follows_postfixed h hsub _

end Productions

/-- A parse goes along with itself in front of another tail, also with more levels left. -/
theorem follows_expression (h : Tails t t') (scope : Scope) {levels levels' : Nat}
    (hlevels : levels ≤ levels') (precedence : Nat) :
    Follows t t' 1 0 (expression scope levels precedence) (expression scope levels' precedence) := by
  induction levels generalizing levels' precedence with
  | zero => exact follows_of_ne_ok fun _ _ _ hrun => by cases hrun
  | succ levels ih =>
    obtain ⟨levels', rfl⟩ : ∃ i, levels' = i + 1 := ⟨levels' - 1, by omega⟩
    have hsub : ∀ precedence, Follows t t' 1 0 (expression scope levels precedence)
        (expression scope levels' precedence) := ih (by omega)
    have hclose (e : Expr) : Follows t t' 0 0 (do closing; return e) (do closing; return e) :=
      follows_closing.bind fun _ => follows_pure (Nat.le_refl 0) _
    have hconditional (e : Expr) : Follows t t' 0 0
        (do let e ← loop (conditionalStep (expression scope levels)) e; closing; return e)
        (do let e ← loop (conditionalStep (expression scope levels')) e; closing; return e) :=
      (follows_loop h (follows_conditionalStep h hsub) e).bind hclose
    refine (follows_opening true true).bind fun _ => (follows_operand h hsub scope).bind fun left => ?_
    refine (follows_loop h (follows_binaryStep h hsub precedence) left).bind fun e => ?_
    split
    · exact (follows_loop h (follows_coalesceStep h hsub) e).bind hconditional
    · exact hclose e

variable {scope : Scope} {levels levels' precedence : Nat} {s s' : State} {ls : List Content} {e : Expr}

/-- What was read up to a tail is read up to any other. -/
theorem reads_of_expression (h : Tails t t')
    (hrun : expression scope levels precedence s = .ok e s') (hs : s.ahead = ls ++ t)
    (hs' : s'.ahead = t) : Reads False (expression scope levels precedence) (ls ++ t') e t' := by
  intro r hr
  rcases (follows_expression h scope (Nat.le_refl levels) precedence).beside hrun hs hr with
    hlt | ⟨ls', r', hr', hls', hleft⟩
  · rw [hs'] at hlt
    exact absurd hlt (Nat.lt_irrefl _)
  · obtain rfl : ls' = [] := List.append_left_eq_self.mp (hls'.symm.trans hs')
    exact .inl ⟨r', hr', hleft⟩

/-- More levels than an expression needs change nothing. -/
theorem exists_expression_of_le (hle : levels ≤ levels')
    (hrun : expression scope levels precedence s = .ok e s') :
    ∃ r, expression scope levels' precedence s = .ok e r ∧ r.ahead = s'.ahead := by
  have hnil : ∀ c ∈ ([] : List Content).head?, c.isStop = true := fun _ hc => by cases hc
  have hs : s.ahead = s.ahead ++ [] := (List.append_nil _).symm
  rcases (follows_expression ⟨Nat.le_refl _, hnil, hnil⟩ scope hle precedence).beside hrun hs hs with
    hlt | ⟨ls', r, hr, hls', hleft⟩
  · exact absurd hlt (Nat.not_lt_zero _)
  · exact ⟨r, hr, hleft.trans hls'.symm⟩

/-- Contents that are read up to an ending token, and up to a closing parenthesis behind another tail,
are all read, and to one tree. -/
theorem eq_of_expression_of_ending {z : Content} {r r' : State} {d : Expr} (hle : levels ≤ levels')
    (hz : z.isStop = true) (hne : t' ≠ []) (ht' : ∀ c ∈ t'.head?, c.isStop = true)
    (halone : expression scope levels' precedence s = .ok e s') (hs : s.ahead = ls ++ [z])
    (hending : s'.stream.current.kind = .ending)
    (hgroup : expression scope levels precedence r = .ok d r') (hr : r.ahead = ls ++ t')
    (hmark : r'.stream.current.isPunctuation ")" = true) : d = e ∧ r'.ahead = t' := by
  have htails : Tails [z] t' :=
    ⟨List.length_pos_iff.mpr hne, by simpa using hz, ht'⟩
  obtain ⟨q, hq, hqr⟩ := exists_expression_of_le hle hgroup
  rcases (follows_expression htails scope (Nat.le_refl levels') precedence).beside halone hs hr with
    hlt | ⟨ls', q', hq', hls', hleft⟩
  · exact absurd (List.length_eq_zero_iff.mp (Nat.lt_one_iff.mp hlt)) (ahead_ne_nil s')
  · obtain ⟨rfl, rfl⟩ := EStateM.Result.ok.inj (hq.symm.trans hq')
    refine ⟨rfl, hqr.symm.trans ?_⟩
    cases ls' with
    | nil => exact hleft
    | cons c ls' =>
      -- The same content would be an ending token and a closing parenthesis.
      obtain ⟨hc, -⟩ := List.cons.inj hls'
      obtain ⟨hc', -⟩ := List.cons.inj (hqr.symm.trans hleft)
      have hkind : r'.stream.current.content.kind = .ending :=
        (congrArg Content.kind (hc'.trans hc.symm)).trans hending
      have hnone := Content.isMark_of_kind (by rw [hkind]; decide) ")"
      exact Bool.noConfusion (hmark.symm.trans hnone)

end Parsing
end Formula
