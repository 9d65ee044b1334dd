import Formula.Proofs.Token.Content

/-! What a scan makes of a text that begins with a lexeme, a space or a group in brackets, whatever
follows. -/

namespace Formula.Lexer

/-- From `cs` on a scan finds `ls`, and goes on with `rest`. -/
def Reaches (afterAccess : Bool) (cs : List Char) (ls : List Content) (afterAccess' : Bool)
    (rest : List Char) : Prop :=
  ∀ cursor brackets, ∃ cursor' tokens, tokens.map Token.content = ls ∧
    scan cursor brackets afterAccess 0 (cs.map normalize) =
      (tokens ++ ·) <$> scan cursor' brackets afterAccess' 0 (rest.map normalize)

variable {a a' a'' : Bool} {cs cs' cs'' rest : List Char} {ls ls' : List Content}

theorem reaches_refl (a : Bool) (cs : List Char) : Reaches a cs [] a cs := by
  intro cursor brackets
  refine ⟨cursor, [], rfl, ?_⟩
  cases scan cursor brackets a 0 (cs.map normalize) <;> rfl

theorem Reaches.trans (h : Reaches a cs ls a' cs') (h' : Reaches a' cs' ls' a'' cs'') :
    Reaches a cs (ls ++ ls') a'' cs'' := by
  intro cursor brackets
  obtain ⟨cursor', tokens, rfl, hscan⟩ := h cursor brackets
  obtain ⟨cursor'', tokens', rfl, hscan'⟩ := h' cursor' brackets
  refine ⟨cursor'', tokens ++ tokens', List.map_append, ?_⟩
  rw [hscan, hscan']
  cases scan cursor'' brackets a'' 0 (cs''.map normalize) with
  | error e => rfl
  | ok tokens'' => simp [Functor.map, Except.map]

theorem scan_skip (cursor : Nat) (brackets : Brackets) (a : Bool) (skipped cs : List Char) :
    scan cursor brackets a skipped.length (skipped ++ cs) =
      scan (cursor + skipped.length) brackets a 0 cs := by
  induction skipped generalizing cursor with
  | nil => rfl
  | cons c skipped ih =>
    rw [List.length_cons, List.cons_append, scan, ih]
    congr 1
    omega

theorem reaches_space (a : Bool) (rest : List Char) : Reaches a (' ' :: rest) [] a rest := by
  intro cursor brackets
  refine ⟨cursor + 1, [], rfl, ?_⟩
  have hstep : scan cursor brackets a 0 ((' ' :: rest).map normalize) =
      scan (cursor + 1) brackets a 0 (rest.map normalize) := rfl
  rw [hstep]
  cases scan (cursor + 1) brackets a 0 (rest.map normalize) <;> rfl

theorem track_of_plain {cursor : Nat} {c : Char} {brackets : Brackets}
    (h : isOpening c = false) (h' : isClosing c = false) : track cursor c brackets = .ok brackets := by
  simp [track, h, h']

/-- What a character does to the brackets that are open. -/
inductive Tracks (cursor : Nat) (c : Char) : Brackets → Except (Nat × Fault) Brackets → Prop
  | plain {brackets} : isOpening c = false → isClosing c = false →
      Tracks cursor c brackets (.ok brackets)
  | opening {brackets} : isOpening c = true → Tracks cursor c brackets (.ok ((c, cursor) :: brackets))
  | closing {opening place brackets} : isClosing c = true → closing opening = c →
      Tracks cursor c ((opening, place) :: brackets) (.ok brackets)
  | unclosed {opening place brackets} : isClosing c = true → closing opening ≠ c →
      Tracks cursor c ((opening, place) :: brackets) (.error (place, .unclosed opening))
  | unexpected : isClosing c = true → Tracks cursor c [] (.error (cursor, .unexpectedClosing c))

theorem tracks_track (cursor : Nat) (c : Char) (brackets : Brackets) :
    Tracks cursor c brackets (track cursor c brackets) := by
  unfold track
  split
  · exact .opening ‹_›
  · rename_i hopening
    split
    · rename_i hclosing
      split
      · exact .unexpected hclosing
      · split
        · rename_i hfits
          exact .closing hclosing (beq_iff_eq.mp hfits)
        · rename_i hdiffers
          exact .unclosed hclosing fun heq => hdiffers (beq_iff_eq.mpr heq)
    · rename_i hclosing
      exact .plain (Bool.not_eq_true _ ▸ hopening) (Bool.not_eq_true _ ▸ hclosing)

/-- What a scan comes to at the character `c`, in front of `cs`. -/
inductive Steps (cursor : Nat) (brackets : Brackets) (a : Bool) (c : Char) (cs : List Char) :
    Except (Nat × Fault) (List Token) → Prop
  | unread : readLexeme? a (c :: cs) = none →
      Steps cursor brackets a c cs (.error (cursor, .unexpectedCharacter c))
  | gap {n r} : readLexeme? a (c :: cs) = some (.gap n) →
      scan (cursor + 1) brackets a (n - 1) cs = r → Steps cursor brackets a c cs r
  | unpaired {kind value n e} : readLexeme? a (c :: cs) = some (.token kind value n) →
      track cursor c brackets = .error e → Steps cursor brackets a c cs (.error e)
  | failed {kind value n opened e} : readLexeme? a (c :: cs) = some (.token kind value n) →
      track cursor c brackets = .ok opened →
      scan (cursor + 1) opened (isAccess kind value) (n - 1) cs = .error e →
      Steps cursor brackets a c cs (.error e)
  | token {kind value n opened ts} : readLexeme? a (c :: cs) = some (.token kind value n) →
      track cursor c brackets = .ok opened →
      scan (cursor + 1) opened (isAccess kind value) (n - 1) cs = .ok ts →
      Steps cursor brackets a c cs (.ok (⟨kind, value, cursor⟩ :: ts))

theorem steps_scan (cursor : Nat) (brackets : Brackets) (a : Bool) (c : Char) (cs : List Char) :
    Steps cursor brackets a c cs (scan cursor brackets a 0 (c :: cs)) := by
  rw [scan]
  cases hread : readLexeme? a (c :: cs) with
  | none => exact .unread hread
  | some l =>
    cases l with
    | gap n => exact .gap hread rfl
    | token kind value n =>
      cases htrack : track cursor c brackets with
      | error e => exact .unpaired hread htrack
      | ok opened =>
        dsimp only [bind, Except.bind]
        cases hscan : scan (cursor + 1) opened (isAccess kind value) (n - 1) cs with
        | error e => exact .failed hread htrack hscan
        | ok ts => exact .token hread htrack hscan

/-- One token, of a lexeme that is no bracket. -/
theorem reaches_token {c : Char} (skipped : List Char) {kind : TokenKind} {value : Value}
    (hnormal : (c :: skipped).map normalize = c :: skipped)
    (hread : readLexeme? a (c :: skipped ++ rest.map normalize) =
      some (.token kind value (skipped.length + 1)))
    (h : isOpening c = false) (h' : isClosing c = false) :
    Reaches a (c :: skipped ++ rest) [⟨kind, value⟩] (isAccess kind value) rest := by
  intro cursor brackets
  refine ⟨cursor + 1 + skipped.length, [⟨kind, value, cursor⟩], rfl, ?_⟩
  rw [List.map_append, hnormal, List.cons_append, scan]
  rw [List.cons_append] at hread
  simp only [hread, track_of_plain h h', Nat.add_sub_cancel, scan_skip]
  rfl

/-- A name takes all name characters behind the one that it begins with. -/
theorem exists_of_readName? {l : Lexeme} (h : readName? cs = some l) :
    ∃ c tail, cs = c :: tail ∧ isNameStart c = true ∧
      l = .token .name (.string (String.ofList (c :: tail.takeWhile isNameChar)))
        (c :: tail.takeWhile isNameChar).length := by
  cases cs with
  | nil => cases h
  | cons c tail =>
    simp only [readName?, Option.ite_none_right_eq_some, Option.some_inj] at h
    exact ⟨c, tail, rfl, h.1, h.2.symm⟩

theorem readLexeme?_bracket {c : Char} (h : isOpening c = true ∨ isClosing c = true) (a : Bool)
    (rest : List Char) : readLexeme? a (c :: rest) = some (punctuation c.toString 1) := by
  simp only [isOpening, isClosing, Bool.or_eq_true, beq_iff_eq] at h
  rcases h with ((rfl | rfl) | rfl) | ((rfl | rfl) | rfl) <;> rfl

/-- What stands in brackets, with them. -/
theorem reaches_bracketed {opening : Char} (hopen : isOpening opening = true)
    (h : Reaches false cs ls false (closing opening :: rest)) (a : Bool) :
    Reaches a (opening :: cs) (Content.enclosed opening ls) false rest := by
  have hchars : isClosing (closing opening) = true ∧ isOpening (closing opening) = false ∧
      normalize opening = opening ∧ normalize (closing opening) = closing opening ∧
      isAccess .punctuation (.string opening.toString) = false ∧
      isAccess .punctuation (.string (closing opening).toString) = false := by
    simp only [isOpening, Bool.or_eq_true, beq_iff_eq] at hopen
    rcases hopen with (rfl | rfl) | rfl <;> decide
  obtain ⟨hclosing, hnot, hnormal, hnormal', hmark, hmark'⟩ := hchars
  intro cursor brackets
  -- Inside, the scan keeps the opening bracket on its stack; the closing one takes it off again.
  obtain ⟨cursor', tokens, rfl, hscan⟩ := h (cursor + 1) ((opening, cursor) :: brackets)
  refine ⟨cursor' + 1, ⟨.punctuation, .string opening.toString, cursor⟩ ::
    (tokens ++ [⟨.punctuation, .string (closing opening).toString, cursor'⟩]), ?_, ?_⟩
  · simp [Token.content, Content.enclosed, Content.mark]
  · have hopening : track cursor opening brackets = .ok ((opening, cursor) :: brackets) := by
      simp [track, hopen]
    have hclose : track cursor' (closing opening) ((opening, cursor) :: brackets) = .ok brackets := by
      simp [track, hclosing, hnot]
    rw [List.map_cons, hnormal, scan, readLexeme?_bracket (.inl hopen)]
    simp only [punctuation, hopening, Nat.sub_self, hmark]
    change (do
      let rest ← scan (cursor + 1) ((opening, cursor) :: brackets) false 0 (cs.map normalize)
      return _ :: rest) = _
    rw [hscan, List.map_cons, hnormal', scan, readLexeme?_bracket (.inr hclosing)]
    simp only [punctuation, hclose, Nat.sub_self, hmark']
    change (do
      let rest ← _ <$> (do
        let rest ← scan (cursor' + 1) brackets false 0 (rest.map normalize)
        return _ :: rest)
      return _ :: rest) = _
    cases scan (cursor' + 1) brackets false 0 (rest.map normalize) with
    | error e => rfl
    | ok tokens' => simp [Functor.map, Except.map, bind, Except.bind, pure, Except.pure]

theorem exists_scan_of_tokenize_ok {text : String} {stream : TokenStream} (h : tokenize text = .ok stream) :
    ∃ tokens, scan 1 [] false 0 (text.toList.map normalize) = .ok tokens ∧
      stream = .ofTokens (String.ofList (text.toList.map normalize)) tokens := by
  unfold tokenize at h
  cases hscan : scan 1 [] false 0 (text.toList.map normalize) with
  | error e =>
    simp only [hscan] at h
    cases h
  | ok tokens =>
    simp only [hscan, Except.ok.injEq] at h
    exact ⟨tokens, rfl, h.symm⟩

theorem exists_scan_of_tokenize_error {text : String} {e : SyntaxError} (h : tokenize text = .error e) :
    scan 1 [] false 0 (text.toList.map normalize) = .error (e.cursor, e.fault) ∧
      e = { fault := e.fault, cursor := e.cursor,
            expression := String.ofList (text.toList.map normalize) } := by
  unfold tokenize at h
  cases hscan : scan 1 [] false 0 (text.toList.map normalize) with
  | error blame =>
    simp only [hscan, Except.error.injEq] at h
    subst h
    exact ⟨rfl, rfl⟩
  | ok tokens =>
    simp only [hscan] at h
    cases h

/-- A text that is scanned to its end. -/
theorem tokenize_of_reaches {text : String} (h : Reaches false text.toList ls a' []) :
    ∃ stream, tokenize text = .ok stream ∧
      (stream.current :: stream.after).map Token.content = ls ++ [Content.ending] := by
  obtain ⟨cursor', tokens, rfl, hscan⟩ := h 1 []
  have hend : scan cursor' [] a' 0 (([] : List Char).map normalize) = .ok [Token.ending cursor'] := rfl
  rw [hend] at hscan
  have htokens : scan 1 [] false 0 (text.toList.map normalize) =
      .ok (tokens ++ [Token.ending cursor']) := hscan
  refine ⟨_, by rw [tokenize, htokens], ?_⟩
  cases tokens with
  | nil => rfl
  | cons t ts =>
    have hlast : ((t :: ts) ++ [Token.ending cursor']).getLast?.any (·.kind == .ending) = true := by
      rw [List.getLast?_concat]
      rfl
    rw [List.cons_append] at hlast ⊢
    simp only [TokenStream.ofTokens, hlast, if_true]
    simp [Token.content, Token.ending, Content.ending]

end Formula.Lexer
