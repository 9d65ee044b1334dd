import Formula.Proofs.Expr.Grouping
import Formula.Proofs.Parsing.Grammar

/-! Operands that are one token each, with binary operators between them: what is read from them is
the one grouped tree that has them in order. -/

namespace Formula

/-- What an operand of one token, or an operator, stands for. -/
def Scope.part? (scope : Scope) (c : Content) : Option (Expr ⊕ BinaryOp) :=
  match c.binaryOp? with
  | some op => some (.inr op)
  | none => (scope.atom? c).map .inl

namespace Parsing

variable {limited : Prop} {scope : Scope} {levels : Nat} {c : Content} {e : Expr}

/-- Operators, each with the operand behind it. -/
abbrev Tail := List (Content × Content)

namespace Tail

def contents (ops : Tail) : List Content := ops.flatMap fun (o, x) => [o, x]

def IsReadable (scope : Scope) (ops : Tail) : Prop :=
  ∀ p ∈ ops, p.1.binaryOp?.isSome ∧ (scope.atom? p.2).isSome

/-- The operators that group to the right, each of which may open one more level of nesting. -/
def powers (ops : Tail) : Nat := ops.countP fun p => p.1.binaryOp? == some .power

end Tail

/-- How many precedences of operators that group to the left are not below `precedence`. -/
def rank (precedence : Nat) : Nat :=
  [10, 12, 15, 16, 17, 18, 20, 25, 30, 40, 60].countP (precedence ≤ ·)

theorem rank_mono {p q : Nat} (h : p ≤ q) : rank q ≤ rank p := by
  apply List.countP_mono_left
  intro n _ hn
  simp only [decide_eq_true_eq] at hn ⊢
  omega

theorem rank_rightPrecedence (op : BinaryOp) :
    rank op.rightPrecedence + (if op = .power then 0 else 1) = rank op.precedence := by
  cases op <;> rfl

namespace Tail

variable {ops rest : Tail} {o x : Content} {op : BinaryOp}

theorem contents_cons (o x : Content) (ops : Tail) :
    contents ((o, x) :: ops) = o :: x :: ops.contents := rfl

theorem length_contents (ops : Tail) : ops.contents.length = 2 * ops.length := by
  induction ops with
  | nil => rfl
  | cons p ops ih =>
    rw [contents_cons, List.length_cons, List.length_cons, ih, List.length_cons]
    omega

theorem powers_le_of_suffix (h : rest <:+ ops) : rest.powers ≤ ops.powers := by
  obtain ⟨front, rfl⟩ := h
  rw [powers, powers, List.countP_append]
  omega

theorem IsReadable.of_suffix (h : IsReadable scope ops) (hs : rest <:+ ops) :
    IsReadable scope rest := fun p hp => h p (hs.subset hp)

theorem exists_head (h : ops.IsReadable scope) (hc : c.goesOn = false) (cs : List Content) :
    ∃ c' cs', ops.contents ++ c :: cs = c' :: cs' ∧ c'.attaches = false := by
  match ops with
  | [] => exact ⟨c, cs, rfl, (Content.goesOn_eq_false_iff.mp hc).1⟩
  | (o, x) :: ops =>
    obtain ⟨op, hop⟩ := Option.isSome_iff_exists.mp (h _ List.mem_cons_self).1
    exact ⟨o, x :: Tail.contents ops ++ c :: cs, rfl, attaches_of_binaryOp? hop⟩

/-- An operator that may stand at `precedence` leaves as many levels as its right operand needs. -/
theorem rank_add_powers_lt {precedence : Nat} (ops : Tail) (x : Content) (hop : o.binaryOp? = some op)
    (hprec : precedence ≤ op.precedence) :
    rank op.rightPrecedence + ops.powers < rank precedence + powers ((o, x) :: ops) := by
  have hmono := rank_mono hprec
  have hright := rank_rightPrecedence op
  have hpowers : powers ((o, x) :: ops) = ops.powers + if op = .power then 1 else 0 := by
    simp [powers, List.countP_cons, hop]
  split at hright <;> simp_all <;> omega

end Tail

/-- What it means that, with `left` read and `ops` ahead, the operators that bind at least as tightly
as `precedence` were taken into `e`. -/
structure Climbed (scope : Scope) (precedence : Nat) (left : Expr) (ops : Tail) (e : Expr)
    (rest : Tail) : Prop where
  parts : e.inOrder.map some ++ rest.contents.map scope.part? =
    left.inOrder.map some ++ ops.contents.map scope.part?
  grouped : e.IsGrouped
  root : ∀ op ∈ e.rootOp?, precedence ≤ op.precedence
  stops : ∀ p ∈ rest.head?, ∀ op ∈ p.1.binaryOp?, op.precedence < precedence
  suffix : rest <:+ ops

/-- Whatever operand of one token stands before `ops`, an expression takes what it should of both. -/
def Climbs (scope : Scope) (ops : Tail) : Prop :=
  ∀ precedence x e, scope.atom? x = some e → ∃ t rest, Climbed scope precedence e ops t rest ∧
    ∀ limited levels c cs, limited ∨ rank precedence + ops.powers < levels → c.goesOn = false →
      Reads limited (expression scope levels precedence) (x :: ops.contents ++ c :: cs) t
        (rest.contents ++ c :: cs)

theorem rootOp?_of_atom? (h : scope.atom? c = some e) : e.rootOp? = none := by
  unfold Scope.atom? Scope.named? at h
  split at h
  · obtain rfl := Option.some.inj h
    rfl
  · obtain rfl := Option.some.inj h
    rfl
  · split at h
    · obtain rfl := Option.some.inj h
      rfl
    · split at h
      · obtain rfl := Option.some.inj h
        rfl
      · cases h
  · cases h

theorem inOrder_of_atom? (h : scope.atom? c = some e) : e.inOrder = [.inl e] :=
  Expr.inOrder_of_rootOp?_eq_none (rootOp?_of_atom? h)

theorem part?_of_atom? (h : scope.atom? c = some e) : scope.part? c = some (.inl e) := by
  rw [Scope.part?, Content.binaryOp?_of_kind (kind_of_atom? h).1]
  simp only [h, Option.map_some]

theorem part?_of_binaryOp? {op : BinaryOp} (h : c.binaryOp? = some op) :
    scope.part? c = some (.inr op) := by
  rw [Scope.part?, h]

namespace Climbed

variable {left right operand : Expr} {ops ops' rest : Tail} {o x : Content} {op : BinaryOp}
  {precedence : Nat}

/-- No operator ahead may stand at `precedence`. -/
theorem refl (hleft : left.IsGrouped) (hroot : ∀ op ∈ left.rootOp?, precedence ≤ op.precedence)
    (hstops : ∀ p ∈ ops.head?, ∀ op ∈ p.1.binaryOp?, op.precedence < precedence) :
    Climbed scope precedence left ops left ops :=
  ⟨rfl, hleft, hroot, hstops, List.suffix_rfl⟩

/-- The first operator ahead is put above what is on the left and its own right operand. -/
theorem cons (hop : o.binaryOp? = some op) (hx : scope.atom? x = some operand)
    (hright : Climbed scope op.rightPrecedence operand ops right ops')
    (h : Climbed scope precedence (.binary op left right) ops' e rest) :
    Climbed scope precedence left ((o, x) :: ops) e rest := by
  have hsuffix : ops' <:+ (o, x) :: ops := hright.suffix.trans (List.suffix_cons _ ops)
  refine ⟨?_, h.grouped, h.root, h.stops, h.suffix.trans hsuffix⟩
  rw [h.parts, Tail.contents_cons, List.map_cons, List.map_cons, part?_of_binaryOp? hop,
    part?_of_atom? hx, Expr.inOrder, List.map_append, List.map_cons, List.append_assoc,
    List.cons_append, hright.parts, inOrder_of_atom? hx]
  rfl

/-- A right operand is as tight as its operator needs it. -/
theorem isGrouped_binary (hright : Climbed scope op.rightPrecedence operand ops right ops')
    (hleft : left.IsGrouped)
    (hroot : ∀ inner ∈ left.rootOp?, op.precedence < inner.rightPrecedence) :
    (Expr.binary op left right).IsGrouped :=
  ⟨fun inner hi => BinaryOp.takesLeft_of_lt_rightPrecedence (hroot inner hi),
    fun inner hi => BinaryOp.takesRight_of_rightPrecedence_le (hright.root inner hi),
    hleft, hright.grouped⟩

end Climbed

/-- The loop over operators: what is on the left is grouped, and it is right to put the next operator
above it. -/
theorem exists_climbed {ops : Tail} (hops : ops.IsReadable scope)
    (ih : ∀ rest : Tail, rest.length < ops.length → rest.IsReadable scope → Climbs scope rest)
    (precedence : Nat) {left : Expr} (hleft : left.IsGrouped)
    (hroot : ∀ inner ∈ left.rootOp?, precedence ≤ inner.precedence ∧
      ∀ p ∈ ops.head?, ∀ op ∈ p.1.binaryOp?, op.precedence < inner.rightPrecedence) :
    ∃ t rest, Climbed scope precedence left ops t rest ∧
      ∀ limited levels c cs, limited ∨ rank precedence + ops.powers ≤ levels → c.goesOn = false →
        Reads limited (loop (binaryStep (expression scope levels) precedence) left)
          (ops.contents ++ c :: cs) t (rest.contents ++ c :: cs) := by
  -- The induction is on the operators ahead: a right operand may take any number of them.
  induction hn : ops.length using Nat.strongRecOn generalizing ops left with
  | ind n ihn =>
    subst hn
    match ops with
    | [] =>
      refine ⟨left, [], .refl hleft (fun op hop => (hroot op hop).1) nofun, ?_⟩
      intro limited levels c cs _ hc
      exact reads_loop_done (reads_binaryStep_done _ _ (by simp [Content.goesOn_eq_false_iff.mp hc]))
    | (o, x) :: ops =>
      obtain ⟨hop, hx⟩ := hops (o, x) List.mem_cons_self
      obtain ⟨op, hop⟩ := Option.isSome_iff_exists.mp hop
      obtain ⟨ex, hx⟩ := Option.isSome_iff_exists.mp hx
      -- Either the next operator is taken, and the loop goes on behind its right operand, or it
      -- stops the loop here.
      by_cases hprec : precedence ≤ op.precedence
      · have htail := hops.of_suffix (List.suffix_cons _ ops)
        obtain ⟨right, ops', hright, hreads⟩ :=
          ih ops (by simp) htail op.rightPrecedence x ex hx
        have hgrouped := hright.isGrouped_binary hleft
          fun inner hi => (hroot inner hi).2 (o, x) rfl op hop
        -- The right operand stopped at an operator that may stand above `op`.
        have hroot' : ∀ inner ∈ (Expr.binary op left right).rootOp?, precedence ≤ inner.precedence ∧
            ∀ p ∈ ops'.head?, ∀ op' ∈ p.1.binaryOp?, op'.precedence < inner.rightPrecedence := by
          intro inner hi
          obtain rfl := Option.some.inj hi
          exact ⟨hprec, hright.stops⟩
        have hlen : ops'.length < ((o, x) :: ops).length :=
          Nat.lt_succ_of_le hright.suffix.length_le
        obtain ⟨t, rest, ht, hloop⟩ := ihn ops'.length hlen (htail.of_suffix hright.suffix)
          (fun rest hlt => ih rest (Nat.lt_trans hlt hlen)) hgrouped hroot' rfl
        refine ⟨t, rest, .cons hop hx hright ht, fun limited levels c cs hlevels hc => ?_⟩
        -- The right operand has one level less, and a rank that has dropped by as much.
        have hlt := Tail.rank_add_powers_lt ops x hop hprec
        have hle := Tail.powers_le_of_suffix (hright.suffix.trans (List.suffix_cons (o, x) ops))
        have hstep : Reads limited (binaryStep (expression scope levels) precedence left)
            (o :: (x :: Tail.contents ops ++ c :: cs)) (.again (.binary op left right))
            (ops'.contents ++ c :: cs) :=
          reads_binaryStep_again hop hprec
            (hreads limited levels c cs (hlevels.imp id (Nat.lt_of_lt_of_le hlt)) hc) (by simp)
        refine reads_loop_again hstep ?_
          (hloop limited levels c cs (hlevels.imp id fun h => ?_) hc)
        · have := hright.suffix.length_le
          simp only [List.length_append, Tail.length_contents, List.length_cons]
          omega
        · omega
      · have hstops : ∀ op' ∈ o.binaryOp?, op'.precedence < precedence := by
          intro op' hop'
          obtain rfl : op = op' := Option.some.inj (hop.symm.trans hop')
          exact Nat.lt_of_not_le hprec
        refine ⟨left, (o, x) :: ops, .refl hleft (fun op hop => (hroot op hop).1) ?_, ?_⟩
        · rintro p ⟨⟩
          exact hstops
        · exact fun limited levels c cs _ _ => reads_loop_done (reads_binaryStep_done _ _ hstops)

theorem Climbed.rest_eq_nil {left : Expr} {ops rest : Tail} (h : Climbed scope 0 left ops e rest)
    (hops : ops.IsReadable scope) : rest = [] := by
  match rest with
  | [] => rfl
  | (o, x) :: rest =>
    obtain ⟨op, hop⟩ := Option.isSome_iff_exists.mp (hops _ (h.suffix.subset List.mem_cons_self)).1
    exact absurd (h.stops _ rfl op hop) (Nat.not_lt_zero _)

theorem climbs (ops : Tail) (hops : ops.IsReadable scope) : Climbs scope ops := by
  induction hn : ops.length using Nat.strongRecOn generalizing ops with
  | ind n ih =>
    subst hn
    intro precedence x e hx
    have hroot := rootOp?_of_atom? hx
    obtain ⟨t, rest, ht, hloop⟩ := exists_climbed hops (fun rest hlt hrest => ih _ hlt rest hrest rfl)
      precedence (Expr.isGrouped_of_rootOp?_eq_none hroot) (by simp [hroot])
    refine ⟨t, rest, ht, fun limited levels c cs hlevels hc => ?_⟩
    cases levels with
    | zero => exact reads_expression_zero (hlevels.resolve_right (Nat.not_lt_zero _)) _ _
    | succ levels =>
      have hchain : Reads limited (chain scope levels precedence) (x :: ops.contents ++ c :: cs) t
          (rest.contents ++ c :: cs) := by
        obtain ⟨c', cs', heq, hattach⟩ := Tail.exists_head hops hc cs
        rw [List.cons_append, heq]
        refine (isOperand_atom hx c' cs' hattach).bind ?_
        rw [← heq]
        exact hloop limited levels c cs (hlevels.imp id Nat.lt_succ_iff.mp) hc
      match rest with
      | [] =>
        exact reads_expression hchain fun _ => (Content.goesOn_eq_false_iff.mp hc).2.2
      | (o, y) :: rest =>
        refine reads_expression hchain fun hp => ?_
        obtain ⟨op, hop⟩ := Option.isSome_iff_exists.mp (hops _ (ht.suffix.subset List.mem_cons_self)).1
        have := ht.stops _ rfl op hop
        omega

end Parsing

/-- Operands of one token each, with binary operators between them. -/
structure Row where
  first : Token
  rest : List (Token × Token)

namespace Row

def tokens (r : Row) : List Token := r.first :: r.rest.flatMap fun (o, x) => [o, x]

def IsReadable (scope : Scope) (r : Row) : Prop :=
  (scope.atom? r.first.content).isSome ∧
    ∀ p ∈ r.rest, (Parsing.binaryOp? p.1).isSome ∧ (scope.atom? p.2.content).isSome

instance (scope : Scope) (r : Row) : Decidable (r.IsReadable scope) :=
  inferInstanceAs (Decidable (_ ∧ _))

def powers (r : Row) : Nat := r.rest.countP fun p => Parsing.binaryOp? p.1 == some .power

/-- The operators with their operands, without places. -/
def tail (r : Row) : Parsing.Tail := r.rest.map fun (o, x) => (o.content, x.content)

theorem map_content_tokens (r : Row) :
    r.tokens.map Token.content = r.first.content :: r.tail.contents := by
  simp [tokens, tail, Parsing.Tail.contents, List.flatMap_map, List.map_flatMap]

theorem powers_tail (r : Row) : r.tail.powers = r.powers := by
  simp [tail, Parsing.Tail.powers, powers, List.countP_map]
  rfl

theorem IsReadable.tail {scope : Scope} {r : Row} (h : r.IsReadable scope) :
    r.tail.IsReadable scope := by
  intro p hp
  obtain ⟨q, hq, rfl⟩ := List.mem_map.mp hp
  exact h.2 q hq

end Row

/-- A row is read, if not too many powers nest in it, and what is read from it is the one grouped
tree with its operands and operators in order. -/
theorem parseTokens_row {scope : Scope} {r : Row} (hr : r.IsReadable scope) {stream : TokenStream}
    {last : Token} (hlast : last.kind = .ending)
    (hstream : stream.current :: stream.after = r.tokens ++ [last]) :
    (r.powers < 100 → ∃ t, parseTokens scope stream = .ok t) ∧
      ∀ t, parseTokens scope stream = .ok t →
        (t.inOrder.map some = r.tokens.map fun x => scope.part? x.content) ∧ t.IsGrouped ∧
          ∀ t' : Expr, (t'.inOrder.map some = r.tokens.map fun x => scope.part? x.content) →
            t'.IsGrouped → t' = t := by
  obtain ⟨e, he⟩ := Option.isSome_iff_exists.mp hr.1
  obtain ⟨t, rest, ht, hreads⟩ := Parsing.climbs r.tail hr.tail 0 r.first.content e he
  have hrest : rest = [] := ht.rest_eq_nil hr.tail
  subst hrest
  have hparts : t.inOrder.map some = r.tokens.map fun x => scope.part? x.content := by
    have h := ht.parts
    rw [Parsing.Tail.contents, List.flatMap_nil, List.map_nil, List.append_nil,
      Parsing.inOrder_of_atom? he] at h
    calc
      t.inOrder.map some = (r.first.content :: r.tail.contents).map scope.part? := by
        rw [h]
        exact congrArg (· :: _) (Parsing.part?_of_atom? he).symm
      _ = r.tokens.map fun x => scope.part? x.content := by
        rw [← r.map_content_tokens, List.map_map]
        rfl
  have hparse (limited : Prop) (h : limited ∨ r.powers < 100) : parseTokens scope stream = .ok t ∨
      limited ∧ ∃ error, parseTokens scope stream = .error error ∧
        error.fault = .nestedTooDeeply := by
    have hcontents : (stream.current :: stream.after).map Token.content =
        (r.first.content :: r.tail.contents) ++ [last.content] := by
      rw [hstream, List.map_append, r.map_content_tokens]
      rfl
    refine Parsing.parseTokens_of_reads hcontents hlast ?_
    refine hreads limited Parsing.maxNesting last.content [] (h.imp id fun hlt => ?_) ?_
    · rw [r.powers_tail]
      have : Parsing.rank 0 = 11 := rfl
      unfold Parsing.maxNesting
      omega
    · exact Content.goesOn_of_ending hlast
  refine ⟨fun hlt => ⟨t, (hparse False (.inr hlt)).resolve_right And.left⟩, fun t' ht' => ?_⟩
  rcases hparse True (.inl trivial) with hok | ⟨-, error, herror, -⟩
  · obtain rfl : t = t' := Except.ok.inj (hok.symm.trans ht')
    refine ⟨hparts, ht.grouped, fun t' hparts' hgrouped => ?_⟩
    refine Expr.eq_of_inOrder_eq hgrouped ht.grouped ?_
    exact List.map_inj_right (fun _ _ h => Option.some.inj h) |>.mp (hparts'.trans hparts.symm)
  · rw [herror] at ht'
    cases ht'

/-- The operands and operators of `a ** 2 ** a - 'x' || 1`. -/
def Row.mixed : Row where
  first := ⟨.name, .string "a", 1⟩
  rest := [
    (⟨.operator, .string "**", 3⟩, ⟨.number, .int 2, 6⟩),
    (⟨.operator, .string "**", 8⟩, ⟨.name, .string "a", 11⟩),
    (⟨.operator, .string "-", 13⟩, ⟨.string, .string "x", 15⟩),
    (⟨.operator, .string "||", 19⟩, ⟨.number, .int 1, 22⟩)]

theorem parseTokens_mixed : Row.mixed.IsReadable ⟨[], ["a"], [], {}⟩ ∧ ∃ t,
    parseTokens ⟨[], ["a"], [], {}⟩ (.ofTokens "a ** 2 ** a - 'x' || 1" Row.mixed.tokens) = .ok t ∧
      (t.inOrder.map some = [some (.inl (.name "a")), some (.inr .power), some (.inl (.literal (.int 2))),
        some (.inr .power), some (.inl (.name "a")), some (.inr .subtract),
        some (.inl (.literal (.string "x"))), some (.inr .or), some (.inl (.literal (.int 1)))]) ∧
      t.IsGrouped := by
  have hr : Row.mixed.IsReadable ⟨[], ["a"], [], {}⟩ := by decide
  have hstream : let stream := TokenStream.ofTokens "a ** 2 ** a - 'x' || 1" Row.mixed.tokens
      stream.current :: stream.after = Row.mixed.tokens ++ [.ending 23] := rfl
  obtain ⟨hok, hgrouped⟩ := parseTokens_row hr rfl hstream
  obtain ⟨t, ht⟩ := hok (by decide)
  exact ⟨hr, t, ht, (hgrouped t ht).1, (hgrouped t ht).2.1⟩

end Formula
