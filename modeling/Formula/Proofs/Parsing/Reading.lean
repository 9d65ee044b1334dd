import Formula.Proofs.Parsing.Run
import Formula.Proofs.Token.Content

/-! What productions read. A statement about a production tells the contents of the tokens that it
takes, the result, and the contents that are left. -/

namespace Formula.Parsing

/-- The contents of the tokens from the current one on. -/
def State.ahead (s : State) : List Content := (s.stream.current :: s.stream.after).map Token.content

variable {α β : Type} {limited : Prop}

/-- Where `cs` lies ahead, a parser makes `a` of it and leaves `rest`. If it is `limited`, it may
meet the limit of nesting instead. -/
def Reads (limited : Prop) (p : Parser α) (cs : List Content) (a : α) (rest : List Content) : Prop :=
  ∀ s : State, s.ahead = cs →
    (∃ s', p s = .ok a s' ∧ s'.ahead = rest) ∨
      limited ∧ ∃ e s', p s = .error e s' ∧ e.fault = .nestedTooDeeply

theorem reads_pure (a : α) (cs : List Content) : Reads limited (pure a) cs a cs :=
  fun s hs => .inl ⟨s, rfl, hs⟩

theorem Reads.bind {p : Parser α} {f : α → Parser β} {cs mid rest : List Content} {a : α} {b : β}
    (hp : Reads limited p cs a mid) (hf : Reads limited (f a) mid b rest) :
    Reads limited (p >>= f) cs b rest := by
  intro s hs
  rw [bind_run]
  rcases hp s hs with ⟨s', hs', hmid⟩ | ⟨hd, e, s', hs', he⟩
  · rw [hs']
    exact hf s' hmid
  · rw [hs']
    exact .inr ⟨hd, e, s', rfl, he⟩

theorem reads_peek_bind {f : Token → Parser β} {c : Content} {cs rest : List Content} {b : β}
    (h : ∀ cursor, Reads limited (f (c.token cursor)) (c :: cs) b rest) :
    Reads limited (peek >>= f) (c :: cs) b rest := by
  intro s hs
  obtain ⟨rfl, -⟩ := List.cons.inj hs
  exact h s.stream.current.cursor s hs

theorem reads_check (text : String) (c : Content) (cs : List Content) :
    Reads limited (check text) (c :: cs) (c.isMark text) (c :: cs) :=
  reads_peek_bind fun _ => reads_pure _ _

theorem reads_advance (c c' : Content) (cs : List Content) :
    Reads limited advance (c :: c' :: cs) () (c' :: cs) := by
  intro s hs
  obtain ⟨⟨expression, before, current, after⟩, begun, depth, deepest⟩ := s
  cases after with
  | nil => simp [State.ahead] at hs
  | cons t ts => exact .inl ⟨_, rfl, by simpa [State.ahead] using (List.cons.inj hs).2⟩

theorem reads_advance_of_ne_nil (c : Content) {cs : List Content} (h : cs ≠ []) :
    Reads limited advance (c :: cs) () cs := by
  obtain ⟨c', cs, rfl⟩ := List.exists_cons_of_ne_nil h
  exact reads_advance c c' cs

theorem reads_expect {text : String} {context : Option String} {m c : Content} {cs : List Content}
    (hm : m.isMark text = true) :
    Reads limited (expectPunctuation text context) (m :: c :: cs) () (c :: cs) := by
  intro s hs
  have hc : s.stream.current.isPunctuation text = true := by
    obtain ⟨rfl, -⟩ := List.cons.inj hs
    exact hm
  rw [expect_run hc]
  exact reads_advance m c cs s hs

theorem reads_expect_of_ne_nil {text : String} {context : Option String} {m : Content}
    {cs : List Content} (hm : m.isMark text = true) (h : cs ≠ []) :
    Reads limited (expectPunctuation text context) (m :: cs) () cs := by
  obtain ⟨c, cs, rfl⟩ := List.exists_cons_of_ne_nil h
  exact reads_expect hm

theorem reads_opening (mayRead : Bool) (cs : List Content) :
    Reads limited (opening mayRead) cs () cs := fun _ hs => .inl ⟨_, rfl, hs⟩

theorem reads_closing (cs : List Content) : Reads limited closing cs () cs :=
  fun _ hs => .inl ⟨_, rfl, hs⟩

theorem reads_loop_done {step : α → Parser (Progress α β)} {a : α} {b : β} {cs rest : List Content}
    (h : Reads limited (step a) cs (.done b) rest) : Reads limited (loop step a) cs b rest := by
  intro s hs
  rw [loop_run, repeating_succ]
  rcases h s hs with ⟨s', hs', hrest⟩ | ⟨hd, e, s', hs', he⟩
  · exact .inl ⟨s', by rw [hs'], hrest⟩
  · exact .inr ⟨hd, e, s', by rw [hs'], he⟩

/-- A step that takes something leaves enough repetitions for the rest of the loop. -/
theorem reads_loop_again {step : α → Parser (Progress α β)} {a a' : α} {b : β}
    {cs mid rest : List Content} (h : Reads limited (step a) cs (.again a') mid)
    (hlt : mid.length < cs.length) (hloop : Reads limited (loop step a') mid b rest) :
    Reads limited (loop step a) cs b rest := by
  intro s hs
  rw [loop_run, repeating_succ]
  rcases h s hs with ⟨s', hs', hmid⟩ | ⟨hd, e, s', hs', he⟩
  · rw [hs']
    -- The repetitions are counted before the step, and there are more of them than the rest needs.
    have hle : s'.stream.after.length + 1 ≤ s.stream.after.length := by
      subst hs hmid
      simpa [State.ahead, Nat.succ_le_iff] using hlt
    rcases hloop s' hmid with ⟨s'', hs'', hrest⟩ | ⟨hd, e, s'', hs'', he⟩
    · exact .inl ⟨s'', repeating_le hle hs'' (by simp), hrest⟩
    · refine .inr ⟨hd, e, s'', repeating_le hle hs'' ?_, he⟩
      rintro e' s₁ heq
      obtain ⟨rfl, -⟩ := EStateM.Result.error.inj heq
      simp [he]
  · exact .inr ⟨hd, e, s', by rw [hs'], he⟩

theorem reads_expression_zero (h : limited) (scope : Scope) (precedence : Nat)
    {cs rest : List Content} {e : Expr} : Reads limited (expression scope 0 precedence) cs e rest :=
  fun _ _ => .inr ⟨h, _, _, rfl, rfl⟩

end Formula.Parsing
