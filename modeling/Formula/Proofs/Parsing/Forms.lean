import Formula.Proofs.Parsing.Grammar

/-! Rules for the forms of an expression: what stands in parentheses, literals, calls, access steps,
operators, `??` and conditions. -/

namespace Formula.Parsing

open Content (mark separated enclosed accessMark)

variable {limited : Prop} {scope : Scope} {levels : Nat} {cs ls rs : List Content} {e l r o : Expr}

/-- Something stands first, and it is no mark that ends something. -/
def Begins (cs : List Content) : Prop :=
  ∃ c rest, cs = c :: rest ∧ ∀ text ∈ [")", "]", "\x7d", ":"], c.isMark text = false

theorem begins_of_kind {c : Content} (h : c.kind ≠ .punctuation) (rest : List Content) :
    Begins (c :: rest) := ⟨c, rest, rfl, fun text _ => Content.isMark_of_kind h text⟩

theorem begins_enclosed {opening : Char} (h : Lexer.isOpening opening = true) (cs : List Content) :
    Begins (enclosed opening cs) := by
  refine ⟨_, _, rfl, ?_⟩
  simp only [Lexer.isOpening, Bool.or_eq_true, beq_iff_eq] at h
  rcases h with (rfl | rfl) | rfl <;> decide

theorem Begins.append (h : Begins cs) (ls : List Content) : Begins (cs ++ ls) := by
  obtain ⟨c, rest, rfl, hc⟩ := h
  exact ⟨c, rest ++ ls, rfl, hc⟩

theorem Begins.ne_nil (h : Begins cs) : cs ≠ [] := by
  obtain ⟨c, rest, rfl, -⟩ := h
  exact List.cons_ne_nil c rest

/-- No closing mark is seen where something begins. -/
theorem Begins.reads_check (h : Begins cs) {text : String} (htext : text ∈ [")", "]", "\x7d", ":"])
    (rest : List Content) : Reads limited (check text) (cs ++ rest) false (cs ++ rest) := by
  obtain ⟨c, cs, rfl, hc⟩ := h
  have hcheck : Reads limited (check text) (c :: (cs ++ rest)) _ _ := Parsing.reads_check text c _
  rwa [hc text htext] at hcheck

/-- What stands behind an element of a sequence: a comma or a closing bracket, and something more. -/
def Delimits (tail : List Content) : Prop :=
  ∃ text ∈ [",", ")", "]", "\x7d"], ∃ c rest, tail = mark text :: c :: rest

theorem Delimits.exists_head {tail : List Content} (h : Delimits tail) :
    ∃ c rest, tail = c :: rest ∧ c.goesOn = false := by
  obtain ⟨text, htext, c, rest, rfl⟩ := h
  refine ⟨mark text, c :: rest, rfl, ?_⟩
  simp only [List.mem_cons, List.not_mem_nil, or_false] at htext
  rcases htext with rfl | rfl | rfl | rfl <;> rfl

/-- The contents of an element of a sequence. -/
def IsElement (limited : Prop) (scope : Scope) (levels : Nat) (cs : List Content) (e : Expr) : Prop :=
  ∀ tail, Delimits tail → Reads limited (expression scope levels 0) (cs ++ tail) e tail

theorem IsFull.isElement (h : IsFull limited scope levels cs e) :
    IsElement limited scope levels cs e := by
  intro tail htail
  obtain ⟨c, rest, rfl, hc⟩ := htail.exists_head
  exact h c rest hc

section Separated

variable {α β : Type} {xs : List β} {ls : β → List Content} {tree : β → α}
  {step : List α → Parser (Progress (List α) (List α))} {tail rest : List Content}

variable (xs ls) in
theorem delimits_flatMap (h : Delimits tail) :
    Delimits ((xs.flatMap fun x => mark "," :: ls x) ++ tail) := by
  cases xs with
  | nil => exact h
  | cons x xs =>
    obtain ⟨c, cs, rfl, -⟩ := h.exists_head
    obtain ⟨c', cs', hcs⟩ := List.exists_cons_of_ne_nil
      (List.append_ne_nil_of_right_ne_nil (ls x ++ xs.flatMap fun x => mark "," :: ls x)
        (List.cons_ne_nil c cs))
    exact ⟨",", by decide, c', cs', congrArg (mark "," :: ·) hcs⟩

variable (htail : Delimits tail)
include htail

theorem reads_loop_flatMap
    (hdone : ∀ done, done ≠ [] → Reads limited (step done) tail (.done done.reverse) rest)
    (hnext : ∀ x ∈ xs, ∀ done, done ≠ [] → ∀ tail, Delimits tail →
      Reads limited (step done) (mark "," :: (ls x ++ tail)) (.again (tree x :: done)) tail)
    {done : List α} (hne : done ≠ []) :
    Reads limited (loop step done) ((xs.flatMap fun x => mark "," :: ls x) ++ tail)
      (done.reverse ++ xs.map tree) rest := by
  induction xs generalizing done with
  | nil =>
    rw [List.map_nil, List.append_nil]
    exact reads_loop_done (hdone done hne)
  | cons x xs ih =>
    rw [List.forall_mem_cons] at hnext
    have hloop := ih hnext.2 (List.cons_ne_nil (tree x) done)
    rw [List.reverse_cons, List.append_assoc] at hloop
    rw [List.flatMap_cons, List.append_assoc, List.cons_append]
    refine reads_loop_again (hnext.1 done hne _ (delimits_flatMap xs ls htail)) ?_ hloop
    simp only [List.length_append, List.length_cons]
    omega

/-- A loop whose step takes a comma before each element but the first. What it finds behind the
elements it may take as well. -/
theorem reads_loop_separated
    (hdone : ∀ done, (done = [] → xs = []) → Reads limited (step done) tail (.done done.reverse) rest)
    (hfirst : ∀ x ∈ xs, ∀ tail, Delimits tail →
      Reads limited (step []) (ls x ++ tail) (.again [tree x]) tail)
    (hnext : ∀ x ∈ xs, ∀ done, done ≠ [] → ∀ tail, Delimits tail →
      Reads limited (step done) (mark "," :: (ls x ++ tail)) (.again (tree x :: done)) tail)
    (hne : ∀ x ∈ xs, ls x ≠ []) :
    Reads limited (loop step []) (separated (xs.map ls) ++ tail) (xs.map tree) rest := by
  cases xs with
  | nil => exact reads_loop_done (hdone [] fun _ => rfl)
  | cons x xs =>
    rw [List.forall_mem_cons] at hfirst hnext hne
    have hloop := reads_loop_flatMap htail (fun done hdone' => hdone done fun h => absurd h hdone')
      hnext.2 (List.cons_ne_nil (tree x) [])
    rw [List.map_cons, separated, List.flatMap_map, List.append_assoc] at *
    have hpos : 0 < (ls x).length := List.length_pos_iff.mpr hne.1
    refine reads_loop_again (hfirst.1 _ (delimits_flatMap xs ls htail)) ?_ hloop
    simp only [List.length_append]
    omega

end Separated

section Sequences

variable {α : Type} {xs : List α} {content : α → List Content} {tree : α → Expr} {tail : List Content}

theorem reads_argumentStep_first (h : IsElement limited scope levels cs e) (hb : Begins cs)
    (htail : Delimits tail) :
    Reads limited (argumentStep (expression scope levels) []) (cs ++ tail) (.again [e]) tail := by
  refine (hb.reads_check (by decide) _).bind ?_
  exact (h tail htail).bind (reads_pure _ _)

theorem reads_argumentStep_next {done : List Expr} (hdone : done ≠ [])
    (h : IsElement limited scope levels cs e) (htail : Delimits tail) :
    Reads limited (argumentStep (expression scope levels) done) (mark "," :: (cs ++ tail))
      (.again (e :: done)) tail := by
  refine (reads_check ")" (mark ",") _).bind ?_
  have hnonempty : (!done.isEmpty) = true := by simpa using hdone
  simp only [Content.isMark_mark, hnonempty]
  obtain ⟨c, rest, rfl, -⟩ := htail.exists_head
  refine (reads_expect_of_ne_nil rfl (by simp)).bind ?_
  exact (h _ htail).bind (reads_pure _ _)

theorem enclosed_append (opening : Char) (cs rest : List Content) : enclosed opening cs ++ rest =
    mark opening.toString :: (cs ++ mark (Lexer.closing opening).toString :: rest) := by
  simp [enclosed]

/-- What stands in brackets, where a loop reads what is inside. -/
theorem reads_enclosed {β γ : Type} (opening : Char) (context context' : Option String) (f : β → γ)
    {p : Parser β} {b : β} {c : Content} {rest : List Content}
    (h : Reads limited p (cs ++ mark (Lexer.closing opening).toString :: c :: rest) b
      (mark (Lexer.closing opening).toString :: c :: rest)) :
    Reads limited (do
      expectPunctuation opening.toString context
      let b ← p
      expectPunctuation (Lexer.closing opening).toString context'
      return f b) (enclosed opening cs ++ c :: rest) (f b) (c :: rest) := by
  rw [enclosed_append]
  have hmark (text : String) : (mark text).isMark text = true := by simp
  refine (reads_expect_of_ne_nil (hmark _) (by simp)).bind (h.bind ?_)
  exact (reads_expect (hmark _)).bind (reads_pure _ _)

theorem reads_arguments (helement : ∀ x ∈ xs, IsElement limited scope levels (content x) (tree x))
    (hbegins : ∀ x ∈ xs, Begins (content x)) (c : Content) (rest : List Content) :
    Reads limited (arguments (expression scope levels))
      (enclosed '(' (separated (xs.map content)) ++ c :: rest) (xs.map tree) (c :: rest) := by
  have hdone (done : List Expr) :
      Reads limited (argumentStep (expression scope levels) done) (mark ")" :: c :: rest)
        (.done done.reverse) (mark ")" :: c :: rest) :=
    (reads_check ")" (mark ")") _).bind (reads_pure _ _)
  have hloop := reads_loop_separated ⟨")", by decide, c, rest, rfl⟩ (fun done _ => hdone done)
    (fun x hx tail htail => reads_argumentStep_first (helement x hx) (hbegins x hx) htail)
    (fun x hx done hne tail htail => reads_argumentStep_next hne (helement x hx) htail)
    (fun x hx => (hbegins x hx).ne_nil)
  exact reads_enclosed '(' _ _ id hloop

theorem reads_itemStep_first (h : IsElement limited scope levels cs e) (hb : Begins cs)
    (htail : Delimits tail) :
    Reads limited (itemStep (expression scope levels) []) (cs ++ tail) (.again [e]) tail := by
  have hcheck : Reads limited (check "]") (cs ++ tail) false _ := hb.reads_check (by decide) _
  exact hcheck.bind (hcheck.bind ((h tail htail).bind (reads_pure _ _)))

theorem reads_itemStep_next {done : List Expr} (hdone : done ≠ [])
    (h : IsElement limited scope levels cs e) (hb : Begins cs) (htail : Delimits tail) :
    Reads limited (itemStep (expression scope levels) done) (mark "," :: (cs ++ tail))
      (.again (e :: done)) tail := by
  refine (reads_check "]" (mark ",") _).bind ?_
  have hnonempty : (!done.isEmpty) = true := by simpa using hdone
  simp only [Content.isMark_mark, hnonempty]
  have hne : cs ++ tail ≠ [] := (hb.append tail).ne_nil
  refine (reads_expect_of_ne_nil rfl hne).bind ((hb.reads_check (by decide) _).bind ?_)
  exact (h tail htail).bind (reads_pure _ _)

/-- Where the items end, with a comma behind the last of them or without. -/
theorem reads_itemStep_done {done : List Expr} {trailing : Bool} (hdone : done = [] → trailing = false)
    {sub : Nat → Parser Expr} (c : Content) (rest : List Content) :
    Reads limited (itemStep sub done)
      ((if trailing then [mark ","] else []) ++ mark "]" :: c :: rest) (.done done.reverse)
      (mark "]" :: c :: rest) := by
  cases trailing with
  | false => exact (reads_check "]" (mark "]") _).bind (reads_pure _ _)
  | true =>
    refine (reads_check "]" (mark ",") _).bind ?_
    have hnonempty : (!done.isEmpty) = true := by
      simpa using fun h => Bool.noConfusion (hdone h)
    simp only [Content.isMark_mark, hnonempty]
    refine (reads_expect_of_ne_nil rfl (by simp)).bind ?_
    exact (reads_check "]" (mark "]") _).bind (reads_pure _ _)

/-- A comma may stand behind the last item, if there is one. -/
theorem reads_listLiteral {trailing : Bool} (hne : xs = [] → trailing = false)
    (helement : ∀ x ∈ xs, IsElement limited scope levels (content x) (tree x))
    (hbegins : ∀ x ∈ xs, Begins (content x)) (c : Content) (rest : List Content) :
    Reads limited (listLiteral (expression scope levels))
      (enclosed '[' (separated (xs.map content) ++ if trailing then [mark ","] else []) ++ c :: rest)
      (.list (xs.map tree)) (c :: rest) := by
  have htail : Delimits ((if trailing then [mark ","] else []) ++ mark "]" :: c :: rest) := by
    cases trailing with
    | false => exact ⟨"]", by decide, c, rest, rfl⟩
    | true => exact ⟨",", by decide, mark "]", c :: rest, rfl⟩
  have hloop := reads_loop_separated htail
    (fun done hdone => reads_itemStep_done (fun h => hne (hdone h)) c rest)
    (fun x hx tail htail => reads_itemStep_first (helement x hx) (hbegins x hx) htail)
    (fun x hx done hne tail htail => reads_itemStep_next hne (helement x hx) (hbegins x hx) htail)
    (fun x hx => (hbegins x hx).ne_nil)
  rw [← List.append_assoc] at hloop
  exact reads_enclosed '[' _ _ Expr.list hloop

/-- The contents of a key: one token, or a full expression in parentheses. -/
def IsHashKey (limited : Prop) (scope : Scope) (levels : Nat) (cs : List Content) (e : Expr) : Prop :=
  ∀ c rest, c.goesOn = false →
    Reads limited (hashKey (expression scope levels)) (cs ++ c :: rest) e (c :: rest)

theorem isHashKey_token {c : Content} (h : c.kind = .string ∨ c.kind = .name ∨ c.kind = .number) :
    IsHashKey limited scope levels [c] (.literal c.value) := by
  intro c' rest _
  apply reads_peek_bind
  intro cursor
  obtain ⟨kind, value⟩ := c
  rcases h with rfl | rfl | rfl : kind = .string ∨ kind = .name ∨ kind = .number
  all_goals exact (reads_advance _ c' rest).bind (reads_pure _ _)

theorem isHashKey_enclosed (h : IsFull limited scope levels (enclosed '(' cs) e) :
    IsHashKey limited scope levels (enclosed '(' cs) e := by
  intro c rest hc
  have hread := h c rest hc
  rw [enclosed_append] at hread ⊢
  exact reads_peek_bind fun cursor => hread

/-- The contents of an entry. -/
def IsEntry (limited : Prop) (scope : Scope) (levels : Nat) (cs : List Content) (p : Expr × Expr) :
    Prop :=
  ∃ ks vs, cs = ks ++ mark ":" :: vs ∧ Begins ks ∧ IsHashKey limited scope levels ks p.1 ∧
    IsFull limited scope levels vs p.2

theorem reads_entry {p : Expr × Expr} (h : IsEntry limited scope levels cs p) {c : Content}
    {rest : List Content} (hc : c.goesOn = false) (done : List (Expr × Expr)) :
    Reads limited (do
      if ← check "\x7d" then return .done done.reverse
      let key ← hashKey (expression scope levels)
      expectPunctuation ":" "A hash key must be followed by a colon (:)"
      let value ← expression scope levels 0
      return .again ((key, value) :: done)) (cs ++ c :: rest)
      (.again (p :: done) : Progress (List (Expr × Expr)) (List (Expr × Expr))) (c :: rest) := by
  obtain ⟨ks, vs, rfl, hbegins, hkey, hvalue⟩ := h
  rw [List.append_assoc]
  refine (hbegins.reads_check (by decide) _).bind ((hkey (mark ":") _ rfl).bind ?_)
  exact (reads_expect_of_ne_nil rfl (by simp)).bind ((hvalue c rest hc).bind (reads_pure _ _))

theorem reads_entryStep_first {p : Expr × Expr} (h : IsEntry limited scope levels cs p)
    (htail : Delimits tail) :
    Reads limited (entryStep (expression scope levels) []) (cs ++ tail) (.again [p]) tail := by
  have hbegins : Begins cs := by
    obtain ⟨ks, vs, rfl, hbegins, -⟩ := h
    exact hbegins.append _
  obtain ⟨c, rest, rfl, hc⟩ := htail.exists_head
  exact (hbegins.reads_check (by decide) _).bind (reads_entry h hc [])

theorem reads_entryStep_next {p : Expr × Expr} (h : IsEntry limited scope levels cs p)
    (htail : Delimits tail) {done : List (Expr × Expr)} (hdone : done ≠ []) :
    Reads limited (entryStep (expression scope levels) done) (mark "," :: (cs ++ tail))
      (.again (p :: done)) tail := by
  refine (reads_check "\x7d" (mark ",") _).bind ?_
  have hnonempty : (!done.isEmpty) = true := by simpa using hdone
  simp only [Content.isMark_mark, hnonempty]
  obtain ⟨c, rest, rfl, hc⟩ := htail.exists_head
  exact (reads_expect_of_ne_nil rfl (by simp)).bind (reads_entry h hc done)

theorem reads_hashLiteral {entry : α → Expr × Expr}
    (h : ∀ x ∈ xs, IsEntry limited scope levels (content x) (entry x)) (c : Content)
    (rest : List Content) :
    Reads limited (hashLiteral (expression scope levels))
      (enclosed '{' (separated (xs.map content)) ++ c :: rest) (.hash (xs.map entry)) (c :: rest) := by
  have hdone (done : List (Expr × Expr)) :
      Reads limited (entryStep (expression scope levels) done) (mark "\x7d" :: c :: rest)
        (.done done.reverse) (mark "\x7d" :: c :: rest) :=
    (reads_check "\x7d" (mark "\x7d") _).bind (reads_pure _ _)
  have hne : ∀ x ∈ xs, content x ≠ [] := by
    intro x hx hnil
    obtain ⟨ks, vs, hcs, -⟩ := h x hx
    simp [hnil] at hcs
  have hloop := reads_loop_separated ⟨"\x7d", by decide, c, rest, rfl⟩ (fun done _ => hdone done)
    (fun x hx tail htail => reads_entryStep_first (h x hx) htail)
    (fun x hx done hdone tail htail => reads_entryStep_next (h x hx) htail hdone) hne
  exact reads_enclosed '{' _ _ Expr.hash hloop

end Sequences

/-! Objects, which access steps may follow. -/

theorem IsObject.isOperand (h : IsObject limited scope levels cs e) :
    IsOperand limited scope levels cs e := by
  intro c rest hc
  rw [Content.attaches, Bool.or_eq_false_iff] at hc
  exact h c rest e _ hc.2 (reads_postfixed_done _ hc.1)

theorem isObject_enclosed (h : IsFull limited scope levels cs e) :
    IsObject limited scope levels (enclosed '(' cs) e := by
  intro c tail e' rest hc hpost
  rw [enclosed_append]
  apply reads_peek_bind
  intro cursor
  simp only [Content.unaryOp?_token, Content.unaryOp?_mark, Content.isPunctuation_token]
  refine (reads_advance_of_ne_nil _ (by simp)).bind ?_
  refine (h (mark ")") (c :: tail) rfl).bind ?_
  exact (reads_expect rfl).bind hpost

theorem isObject_primary
    (hcs : ∃ c rest, cs = c :: rest ∧ c.unaryOp? = none ∧ c.isMark "(" = false)
    (h : ∀ c tail e' rest, c.isMark "(" = false →
      Reads limited (postfixed (expression scope levels) e) (c :: tail) e' rest →
        Reads limited (primary scope (expression scope levels)) (cs ++ c :: tail) e' rest) :
    IsObject limited scope levels cs e := by
  intro c tail e' rest hc hpost
  have hprimary := h c tail e' rest hc hpost
  obtain ⟨m, ms, rfl, hunary, hparen⟩ := hcs
  apply reads_peek_bind
  intro cursor
  simp only [Content.unaryOp?_token, hunary, Content.isPunctuation_token, hparen]
  exact hprimary

theorem isObject_items {α : Type} {xs : List α} {content : α → List Content} {tree : α → Expr}
    (trailing : Bool) (hne : xs = [] → trailing = false)
    (helement : ∀ x ∈ xs, IsElement limited scope levels (content x) (tree x))
    (hbegins : ∀ x ∈ xs, Begins (content x)) :
    IsObject limited scope levels
      (enclosed '[' (separated (xs.map content) ++ if trailing then [mark ","] else []))
      (.list (xs.map tree)) := by
  refine isObject_primary ⟨_, _, rfl, rfl, rfl⟩ fun c tail e' rest _ hpost => ?_
  have hlist := reads_listLiteral hne helement hbegins c tail
  rw [enclosed_append] at hlist ⊢
  exact reads_peek_bind fun cursor => hlist.bind hpost

theorem isObject_list {α : Type} {xs : List α} {content : α → List Content} {tree : α → Expr}
    (helement : ∀ x ∈ xs, IsElement limited scope levels (content x) (tree x))
    (hbegins : ∀ x ∈ xs, Begins (content x)) :
    IsObject limited scope levels (enclosed '[' (separated (xs.map content)))
      (.list (xs.map tree)) := by
  simpa using isObject_items false (fun _ => rfl) helement hbegins

theorem isObject_hash {α : Type} {xs : List α} {content : α → List Content} {entry : α → Expr × Expr}
    (h : ∀ x ∈ xs, IsEntry limited scope levels (content x) (entry x)) :
    IsObject limited scope levels (enclosed '{' (separated (xs.map content)))
      (.hash (xs.map entry)) := by
  refine isObject_primary ⟨_, _, rfl, rfl, rfl⟩ fun c tail e' rest _ hpost => ?_
  have hhash := reads_hashLiteral h c tail
  rw [enclosed_append] at hhash ⊢
  exact reads_peek_bind fun cursor => hhash.bind hpost

theorem isObject_name {name : String} (hname : constant? name = none)
    (hscope : scope.leniency.unknownVariables = true) :
    IsObject limited scope levels [.name name] (.name (scope.key name)) := by
  refine isObject_primary ⟨_, _, rfl, rfl, rfl⟩ fun c tail e' rest hc hpost => ?_
  refine reads_peek_bind fun cursor => (reads_advance _ c tail).bind ?_
  have htext : ((Content.name name).token cursor).text?.getD "" = name := rfl
  simp only [htext, hname]
  refine (reads_check "(" c tail).bind ?_
  simp only [hc, variableNamed, hscope]
  exact (reads_pure _ _).bind hpost

theorem isObject_call {α : Type} {xs : List α} {content : α → List Content} {tree : α → Expr}
    {name : String} (hname : constant? name = none)
    (hfunction : (scope.functions.contains name || scope.leniency.unknownFunctions) = true)
    (helement : ∀ x ∈ xs, IsElement limited scope levels (content x) (tree x))
    (hbegins : ∀ x ∈ xs, Begins (content x)) :
    IsObject limited scope levels (.name name :: enclosed '(' (separated (xs.map content)))
      (.call name (xs.map tree)) := by
  refine isObject_primary ⟨_, _, rfl, rfl, rfl⟩ fun c tail e' rest hc hpost => ?_
  have hcall : Reads limited (do return Expr.call name (← arguments (expression scope levels)))
      (enclosed '(' (separated (xs.map content)) ++ c :: tail) (.call name (xs.map tree))
      (c :: tail) := (reads_arguments helement hbegins c tail).bind (reads_pure _ _)
  rw [List.cons_append]
  rw [enclosed_append] at hcall ⊢
  refine reads_peek_bind fun cursor => (reads_advance _ _ _).bind ?_
  have htext : ((Content.name name).token cursor).text?.getD "" = name := rfl
  simp only [htext, hname]
  refine (reads_check "(" _ _).bind ?_
  change Reads limited (callOf scope (expression scope levels) name cursor >>= postfixed _) _ _ _
  unfold callOf
  rw [if_pos hfunction]
  exact hcall.bind hpost

/-- Access steps are taken one after another. -/
theorem IsObject.postfix {o' : Expr} (h : IsObject limited scope levels cs o)
    (hls : ∃ c rest, ls = c :: rest ∧ c.isMark "(" = false)
    (hstep : ∀ c rest, c.isMark "(" = false →
      Reads limited (postfixStep (expression scope levels) o) (ls ++ c :: rest) (.again o')
        (c :: rest)) :
    IsObject limited scope levels (cs ++ ls) o' := by
  intro c tail e' rest hc hpost
  have hagain := hstep c tail hc
  obtain ⟨m, ms, rfl, hm⟩ := hls
  rw [List.append_assoc]
  refine h m (ms ++ c :: tail) e' rest hm ?_
  exact reads_loop_again hagain (by simp only [List.length_append, List.length_cons]; omega) hpost

theorem memberName?_name (name : String) (cursor : Nat) :
    memberName? ((Content.name name).token cursor) = some name := rfl

theorem reads_member {name : String} {c : Content} {rest : List Content} (nullSafe : Bool)
    (hc : c.isMark "(" = false) :
    Reads limited (member (expression scope levels) o nullSafe) (.name name :: c :: rest)
      (.access .property nullSafe o (.identifier name) []) (c :: rest) := by
  refine reads_peek_bind fun cursor => (reads_advance _ _ _).bind ?_
  simp only [memberName?_name]
  refine (reads_check "(" c rest).bind ?_
  rw [hc]
  exact reads_pure _ _

theorem reads_method {α : Type} {xs : List α} {content : α → List Content} {tree : α → Expr}
    {name : String} (nullSafe : Bool)
    (helement : ∀ x ∈ xs, IsElement limited scope levels (content x) (tree x))
    (hbegins : ∀ x ∈ xs, Begins (content x)) (c : Content) (rest : List Content) :
    Reads limited (member (expression scope levels) o nullSafe)
      (.name name :: (enclosed '(' (separated (xs.map content)) ++ c :: rest))
      (.access .method nullSafe o (.identifier name) (xs.map tree)) (c :: rest) := by
  have harguments := reads_arguments helement hbegins c rest
  rw [enclosed_append] at harguments ⊢
  refine reads_peek_bind fun cursor => (reads_advance _ _ _).bind ?_
  simp only [memberName?_name]
  refine (reads_check "(" _ _).bind ?_
  exact harguments.bind (reads_pure _ _)

/-- The step behind an access mark. -/
theorem reads_postfixStep_mark {nullSafe : Bool} {o' : Expr} {m : Content} {rest tail : List Content}
    (hm : m.isMark "[" = false)
    (h : Reads limited (member (expression scope levels) o nullSafe) (m :: rest) o' tail) :
    Reads limited (postfixStep (expression scope levels) o) (accessMark nullSafe :: m :: rest)
      (.again o') tail := by
  refine reads_peek_bind fun cursor => ?_
  cases nullSafe with
  | false => exact (reads_advance _ _ _).bind (h.bind (reads_pure _ _))
  | true =>
    refine (reads_advance _ _ _).bind ((reads_check "[" m rest).bind ?_)
    rw [hm]
    exact h.bind (reads_pure _ _)

theorem reads_index {ks : List Content} {k : Expr} (nullSafe : Bool)
    (h : IsFull limited scope levels ks k) (c : Content) (rest : List Content) :
    Reads limited (index (expression scope levels) o nullSafe) (enclosed '[' ks ++ c :: rest)
      (.access .index nullSafe o k []) (c :: rest) := by
  rw [enclosed_append]
  refine (reads_advance_of_ne_nil _ (by simp)).bind ((h (mark "]") (c :: rest) rfl).bind ?_)
  exact (reads_expect rfl).bind (reads_pure _ _)

theorem isObject_property (h : IsObject limited scope levels cs o) (nullSafe : Bool) (name : String) :
    IsObject limited scope levels (cs ++ [accessMark nullSafe, .name name])
      (.access .property nullSafe o (.identifier name) []) := by
  refine h.postfix ⟨_, _, rfl, by cases nullSafe <;> rfl⟩ fun c rest hc => ?_
  exact reads_postfixStep_mark rfl (reads_member nullSafe hc)

theorem isObject_method {α : Type} {xs : List α} {content : α → List Content} {tree : α → Expr}
    (h : IsObject limited scope levels cs o) (nullSafe : Bool) (name : String)
    (helement : ∀ x ∈ xs, IsElement limited scope levels (content x) (tree x))
    (hbegins : ∀ x ∈ xs, Begins (content x)) :
    IsObject limited scope levels
      (cs ++ accessMark nullSafe :: .name name :: enclosed '(' (separated (xs.map content)))
      (.access .method nullSafe o (.identifier name) (xs.map tree)) := by
  refine h.postfix ⟨_, _, rfl, by cases nullSafe <;> rfl⟩ fun c rest _ => ?_
  exact reads_postfixStep_mark rfl (reads_method nullSafe helement hbegins c rest)

theorem isObject_index {ks : List Content} {k : Expr} (h : IsObject limited scope levels cs o)
    (nullSafe : Bool) (hkey : IsFull limited scope levels ks k) :
    IsObject limited scope levels
      (cs ++ ((if nullSafe then [mark "?."] else []) ++ enclosed '[' ks))
      (.access .index nullSafe o k []) := by
  cases nullSafe with
  | false =>
    refine h.postfix ⟨_, _, rfl, rfl⟩ fun c rest _ => ?_
    have hindex := reads_index (o := o) false hkey c rest
    change Reads limited _ (enclosed '[' ks ++ c :: rest) _ _
    rw [enclosed_append] at hindex ⊢
    exact reads_peek_bind fun cursor => hindex.bind (reads_pure _ _)
  | true =>
    refine h.postfix ⟨_, _, rfl, rfl⟩ fun c rest _ => ?_
    have hindex := reads_index (o := o) true hkey c rest
    change Reads limited _ (mark "?." :: (enclosed '[' ks ++ c :: rest)) _ _
    rw [enclosed_append] at hindex ⊢
    refine reads_peek_bind fun cursor => (reads_advance _ _ _).bind ?_
    exact (reads_check "[" _ _).bind (hindex.bind (reads_pure _ _))

/-! Operators, `??` and conditions. -/

theorem IsOperand.isChain (h : IsOperand limited scope levels cs e) :
    IsChain limited scope levels cs e := fun c rest hc hop =>
  (h c rest hc).bind (reads_loop_done (reads_binaryStep_done _ 0 (by simp [hop])))

theorem isChain_unary (op : UnaryOp) (h : IsTerm limited scope levels cs e) :
    IsChain limited scope levels (.operator op.symbol :: cs) (.unary op e) := by
  intro c rest hc hop
  have haccess : c.isAccess = false := by
    rw [Content.attaches, Bool.or_eq_false_iff] at hc
    exact hc.1
  have hpos : 0 < op.precedence := by cases op <;> decide
  have hoperand : Reads limited (operand scope (expression scope levels))
      (.operator op.symbol :: (cs ++ c :: rest)) (.unary op e) (c :: rest) := by
    apply reads_peek_bind
    intro cursor
    simp only [Content.unaryOp?_token, Content.unaryOp?_operator, UnaryOp.ofSymbol?_symbol]
    refine (reads_advance_of_ne_nil _ (by simp)).bind ((h _ c rest hpos hc hop).bind ?_)
    exact reads_postfixed_done _ haccess
  exact hoperand.bind (reads_loop_done (reads_binaryStep_done _ 0 (by simp [hop])))

/-- A binary operator in any of its spellings. -/
theorem isChain_operator {symbol : String} {op : BinaryOp}
    (hsymbol : BinaryOp.ofSymbol? symbol = some op) (hl : IsOperand limited scope levels ls l)
    (hr : IsTerm limited scope levels rs r) :
    IsChain limited scope levels (ls ++ .operator symbol :: rs) (.binary op l r) := by
  intro c rest hc hop
  have hpos : 0 < op.rightPrecedence := by cases op <;> decide
  have hbinary : (Content.operator symbol).binaryOp? = some op := hsymbol
  have hstep := reads_binaryStep_again (e := l) hbinary (Nat.zero_le _) (hr _ c rest hpos hc hop)
    (by simp)
  have hloop := reads_loop_again hstep (by simp only [List.length_append, List.length_cons]; omega)
    (reads_loop_done (reads_binaryStep_done _ 0 (by simp [hop])))
  rw [List.append_assoc, List.cons_append]
  exact (hl _ _ (attaches_of_binaryOp? hbinary)).bind hloop

theorem isChain_binary (op : BinaryOp) (hl : IsOperand limited scope levels ls l)
    (hr : IsTerm limited scope levels rs r) :
    IsChain limited scope levels (ls ++ .operator op.symbol :: rs) (.binary op l r) :=
  isChain_operator (BinaryOp.ofSymbol?_symbol op) hl hr

theorem isTerm_of_isOperand (h : IsOperand limited scope levels cs e) :
    IsTerm limited scope (levels + 1) cs e := by
  intro precedence c rest hprec hc hop
  refine reads_expression ((h c rest hc).bind ?_) (by omega)
  exact reads_loop_done (reads_binaryStep_done _ precedence (by simp [hop]))

theorem isFull_of_isChain (h : IsChain limited scope levels cs e) :
    IsFull limited scope (levels + 1) cs e := by
  intro c rest hc
  obtain ⟨hattaches, hop, hcoalesce, hcond⟩ := Content.goesOn_eq_false_iff.mp hc
  exact reads_expression (h c rest hattaches hop) fun _ => ⟨hcoalesce, hcond⟩

/-- A full expression: a chain, then what `??` adds to it, then what `?` adds to that. -/
theorem reads_full {mid mid' rest : List Content} {e' e'' : Expr}
    (hchain : Reads limited (chain scope levels 0) cs e mid)
    (hcoalesce : Reads limited (loop (coalesceStep (expression scope levels)) e) mid e' mid')
    (hcond : Reads limited (loop (conditionalStep (expression scope levels)) e') mid' e'' rest) :
    Reads limited (expression scope (levels + 1) 0) cs e'' rest := by
  rw [expression_succ]
  refine (reads_opening true cs).bind (hchain.bind ?_)
  exact hcoalesce.bind (hcond.bind ((reads_closing _).bind (reads_pure _ _)))

/-- What stands before `??` has to be read only there. -/
theorem isFull_fallback
    (hl : ∀ tail, Reads limited (chain scope levels 0) (ls ++ mark "??" :: tail) l (mark "??" :: tail))
    (hr : IsFull limited scope levels rs r) :
    IsFull limited scope (levels + 1) (ls ++ mark "??" :: rs) (.coalesce l r) := by
  intro c rest hc
  obtain ⟨-, -, hcoalesce, hcond⟩ := Content.goesOn_eq_false_iff.mp hc
  have hstep : Reads limited (coalesceStep (expression scope levels) l)
      (mark "??" :: (rs ++ c :: rest)) (.again (.coalesce l r)) (c :: rest) := by
    refine (reads_check "??" _ _).bind ?_
    exact (reads_advance_of_ne_nil _ (by simp)).bind ((hr c rest hc).bind (reads_pure _ _))
  have hloop := reads_loop_again hstep (by simp only [List.length_append, List.length_cons]; omega)
    (reads_loop_done (reads_coalesceStep_done _ hcoalesce))
  rw [List.append_assoc]
  exact reads_full (hl _) hloop (reads_loop_done (reads_conditionalStep_done _ hcond))

theorem isFull_coalesce (hl : IsChain limited scope levels ls l)
    (hr : IsFull limited scope levels rs r) :
    IsFull limited scope (levels + 1) (ls ++ mark "??" :: rs) (.coalesce l r) :=
  isFull_fallback (fun tail => hl (mark "??") tail rfl rfl) hr

theorem isFull_conditional {ys ns : List Content} {y n : Expr}
    (hl : IsChain limited scope levels ls l) (hy : IsFull limited scope levels ys y)
    (hn : IsFull limited scope levels ns n) (hbegins : Begins ys) :
    IsFull limited scope (levels + 1) (ls ++ mark "?" :: (ys ++ mark ":" :: ns))
      (.conditional l y n) := by
  intro c rest hc
  obtain ⟨-, -, -, hcond⟩ := Content.goesOn_eq_false_iff.mp hc
  have hstep : Reads limited (conditionalStep (expression scope levels) l)
      (mark "?" :: (ys ++ mark ":" :: (ns ++ c :: rest))) (.again (.conditional l y n)) (c :: rest) := by
    refine (reads_check "?" _ _).bind ((reads_advance_of_ne_nil _ (by simp)).bind ?_)
    refine (hbegins.reads_check (by decide) _).bind ((hy (mark ":") _ rfl).bind ?_)
    refine (reads_check ":" _ _).bind ?_
    exact (reads_advance_of_ne_nil _ (by simp)).bind ((hn c rest hc).bind (reads_pure _ _))
  have hloop := reads_loop_again hstep (by simp only [List.length_append, List.length_cons]; omega)
    (reads_loop_done (reads_conditionalStep_done _ hcond))
  rw [List.append_assoc, List.cons_append, List.append_assoc]
  exact reads_full (hl (mark "?") _ rfl rfl) (reads_loop_done (reads_coalesceStep_done _ rfl)) hloop

end Formula.Parsing
