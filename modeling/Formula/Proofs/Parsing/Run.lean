import Formula.Parsing

/-! What the elementary steps of a parse do to a state, and what a step that succeeded has done. -/

namespace Formula.Parsing
variable {α β : Type}

theorem bind_run (p : Parser α) (f : α → Parser β) (s : State) :
    (p >>= f) s = match p s with
      | .ok a s' => f a s'
      | .error e s' => .error e s' := by
  change EStateM.bind p f s = _
  rw [EStateM.bind]
  cases p s <;> rfl

theorem move_run (f : TokenStream → Except SyntaxError TokenStream) (s : State) :
    move f s = match f s.stream with
      | .ok stream => .ok () { s with stream }
      | .error e => .error e s := by
  change (match f s.stream with
    | .ok stream => set { s with stream }
    | .error e => throw e : Parser Unit) s = _
  cases f s.stream <;> rfl

theorem bind_eq_ok {p : Parser α} {f : α → Parser β} {s s' : State} {b : β} :
    (p >>= f) s = .ok b s' ↔ ∃ a mid, p s = .ok a mid ∧ f a mid = .ok b s' := by
  rw [bind_run]
  constructor
  · intro h
    cases hp : p s with
    | ok a mid => exact ⟨a, mid, rfl, by simpa only [hp] using h⟩
    | error e mid => simp only [hp, reduceCtorEq] at h
  · rintro ⟨a, mid, hp, hf⟩
    simp only [hp, hf]

theorem move_eq_ok {f : TokenStream → Except SyntaxError TokenStream} {s s' : State} {u : Unit} :
    move f s = .ok u s' ↔ ∃ stream, f s.stream = .ok stream ∧ s' = { s with stream } := by
  rw [move_run]
  constructor
  · intro h
    cases hf : f s.stream with
    | ok stream =>
      simp only [hf, EStateM.Result.ok.injEq] at h
      exact ⟨stream, rfl, h.2.symm⟩
    | error e => simp only [hf, reduceCtorEq] at h
  · rintro ⟨stream, hf, rfl⟩
    simp only [hf]

theorem expect_run {s : State} {text : String} {context : Option String}
    (h : s.stream.current.isPunctuation text = true) :
    expectPunctuation text context s = advance s := by
  rw [expectPunctuation, advance, move_run, move_run, TokenStream.expect]
  rw [if_pos (show s.stream.current.carries .punctuation (some text) = true from h)]

theorem repeating_succ (step : α → Parser (Progress α β)) (n : Nat) (a : α) (s : State) :
    repeating step (n + 1) a s = match step a s with
      | .ok (.again a) s' => repeating step n a s'
      | .ok (.done b) s' => .ok b s'
      | .error e s' => .error e s' := by
  rw [repeating, bind_run]
  cases step a s with
  | ok progress s' => cases progress <;> rfl
  | error e s' => rfl

/-- A loop that did not run out of repetitions does the same with more of them. -/
theorem repeating_le {step : α → Parser (Progress α β)} {n m : Nat} (hnm : n ≤ m) {a : α} {s : State}
    {r : EStateM.Result SyntaxError State β} (h : repeating step n a s = r)
    (hr : ∀ e s', r = .error e s' → e.fault ≠ .unexpectedEnd) : repeating step m a s = r := by
  induction n generalizing m a s with
  | zero =>
    have : r = .error ⟨.unexpectedEnd, s.stream.current.cursor, s.stream.expression, none, []⟩ s :=
      h.symm
    exact absurd rfl (hr _ _ this)
  | succ n ih =>
    obtain ⟨m, rfl⟩ : ∃ k, m = k + 1 := ⟨m - 1, by omega⟩
    rw [repeating_succ] at h ⊢
    cases hs : step a s with
    | error e s' => simpa only [hs] using h
    | ok progress s' =>
      simp only [hs] at h ⊢
      cases progress with
      | done b => exact h
      | again a' => exact ih (by omega) h

theorem loop_run (step : α → Parser (Progress α β)) (a : α) (s : State) :
    loop step a s = repeating step (s.stream.after.length + 1) a s := rfl

theorem parseTokens_run (scope : Scope) (stream : TokenStream) :
    parseTokens scope stream = match whole scope { stream } with
      | .ok e _ => .ok e
      | .error e _ => .error e := rfl

theorem parseText_eq_ok_iff {scope : Scope} {text : String} {e : Expr} :
    parseText scope text = .ok e ↔
      ∃ stream, tokenize text = .ok stream ∧ parseTokens scope stream = .ok e := by
  unfold parseText
  cases tokenize text with
  | error error => exact ⟨nofun, fun ⟨_, hstream, _⟩ => nomatch hstream⟩
  | ok stream =>
    constructor
    · exact fun h => ⟨stream, rfl, h⟩
    · rintro ⟨_, ⟨⟩, h⟩
      exact h

end Formula.Parsing
