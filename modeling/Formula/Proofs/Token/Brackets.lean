import Mathlib
import Formula.Proofs.Token.Reading

/-! The brackets of a text. The stack of a scan holds the brackets that the tokens read so far leave open,
so that a text whose tokens are all read has its brackets in pairs, and otherwise the innermost bracket
that is open is blamed. -/

namespace Formula

/-- The bracket that a token is. -/
def Token.bracket? (t : Token) : Option Char :=
  ['(', ')', '[', ']', '{', '}'].find? fun c => t.isPunctuation c.toString

def bracketsOf (ts : List Token) : List Char := ts.filterMap Token.bracket?

namespace Lexer

/-- Brackets in pairs, one pair inside another or behind it. -/
inductive Nested : List Char → Prop
  | nil : Nested []
  | pair {opening inside behind} : isOpening opening = true → Nested inside → Nested behind →
      Nested (opening :: (inside ++ closing opening :: behind))

theorem Nested.append {cs cs' : List Char} (h : Nested cs) (h' : Nested cs') : Nested (cs ++ cs') := by
  induction h with
  | nil => exact h'
  | pair hopening hinside _ _ ih =>
    simp only [List.cons_append, List.append_assoc]
    exact .pair hopening hinside ih

/-- The tokens leave the brackets open, the innermost first. -/
inductive Opens : Brackets → List Token → Prop
  | nested {ts} : Nested (bracketsOf ts) → Opens [] ts
  | opening {brackets before t c behind} : Opens brackets before → t.bracket? = some c →
      isOpening c = true → Nested (bracketsOf behind) →
      Opens ((c, t.cursor) :: brackets) (before ++ t :: behind)

/-- At `place` the bracket `c` is opened, and all brackets behind it are in pairs. -/
def IsInnermost (c : Char) (place : Nat) (ts : List Token) : Prop :=
  ∃ before t behind, ts = before ++ t :: behind ∧ t.cursor = place ∧ t.bracket? = some c ∧
    isOpening c = true ∧ Nested (bracketsOf behind)

variable {a a' : Bool} {c : Char} {cs skipped rest : List Char} {cursor cursor' place : Nat}
  {brackets brackets' : Brackets} {kind : TokenKind} {value : Value} {t : Token} {ts ts' : List Token}
  {fault : Fault}

theorem bracketsOf_append : bracketsOf (ts ++ ts') = bracketsOf ts ++ bracketsOf ts' :=
  List.filterMap_append

theorem bracketsOf_singleton : bracketsOf [t] = t.bracket?.toList := by
  cases h : t.bracket? <;> simp [bracketsOf, h]

theorem isPunctuation_iff {s : String} : t.isPunctuation s = true ↔ t.content = .mark s :=
  @Content.isMark_iff t.content s

theorem bracket?_eq_some_iff : t.bracket? = some c ↔
    t.content = .mark c.toString ∧ (isOpening c || isClosing c) = true := by
  have hmem (c : Char) : c ∈ ['(', ')', '[', ']', '{', '}'] ↔ (isOpening c || isClosing c) = true := by
    simp only [isOpening, isClosing, List.mem_cons, List.not_mem_nil, Bool.or_eq_true, beq_iff_eq]
    tauto
  have hfound {c : Char} (h : t.bracket? = some c) :
      t.content = .mark c.toString ∧ (isOpening c || isClosing c) = true :=
    ⟨isPunctuation_iff.mp (List.find?_some (p := fun c : Char => t.isPunctuation c.toString) h),
      (hmem c).mp (List.mem_of_find?_eq_some h)⟩
  refine ⟨hfound, ?_⟩
  rintro ⟨hcontent, hc⟩
  have hsome : t.bracket?.isSome = true :=
    List.find?_isSome.mpr ⟨c, (hmem c).mpr hc, isPunctuation_iff.mpr hcontent⟩
  obtain ⟨d, hd⟩ := Option.isSome_iff_exists.mp hsome
  have hsame : Content.mark d.toString = .mark c.toString := (hfound hd).1.symm.trans hcontent
  obtain rfl : d = c := by simpa [Content.mark] using hsame
  exact hd

theorem Spells.eq_of_mark {s : String} {lexeme : List Char} (hs : s ≠ "\\")
    (h : Spells (.mark s) lexeme) : lexeme = s.toList := by
  generalize hcontent : Content.mark s = content at h
  cases h with
  | mark => rw [Value.string.inj (Content.mk.inj hcontent).2]
  | backslash => exact absurd (Value.string.inj (Content.mk.inj hcontent).2) hs
  | name | operator | string | number => exact nomatch (Content.mk.inj hcontent).1

/-- A token is a bracket just if it begins with it. -/
theorem bracket?_of_readLexeme?
    (hread : readLexeme? a (c :: cs) = some (.token kind value (skipped.length + 1))) :
    Token.bracket? ⟨kind, value, cursor⟩ = if isOpening c || isClosing c then some c else none := by
  split
  · rename_i hc
    rw [readLexeme?_bracket (Bool.or_eq_true_iff.mp hc), Option.some_inj] at hread
    obtain ⟨rfl, rfl, -⟩ := Lexeme.token.inj hread
    exact bracket?_eq_some_iff.mpr ⟨rfl, hc⟩
  · rename_i hc
    by_contra hsome
    obtain ⟨d, hd⟩ := Option.ne_none_iff_exists'.mp hsome
    obtain ⟨hcontent, hbracket⟩ := bracket?_eq_some_iff.mp hd
    obtain ⟨lexeme, rest, hcs, -, -, hspells⟩ := begins_readLexeme? hread
    have hslash : d.toString ≠ "\\" := by
      intro h
      obtain rfl : d = '\\' := by simpa [Char.toString_eq_singleton] using congrArg String.toList h
      exact absurd hbracket (by decide)
    rw [show (⟨kind, value⟩ : Content) = .mark d.toString from hcontent] at hspells
    rw [hspells.eq_of_mark hslash] at hcs
    obtain rfl : c = d := by simpa using congrArg List.head? hcs
    exact hc hbracket

namespace Opens

theorem nil : Opens [] [] := .nested (.nil : Nested [])

theorem isInnermost (h : Opens ((c, place) :: brackets) ts) : IsInnermost c place ts := by
  cases h with
  | opening _ ht hc hbehind => exact ⟨_, _, _, rfl, rfl, ht, hc, hbehind⟩

theorem append (h : Opens brackets ts) (h' : Nested (bracketsOf ts')) : Opens brackets (ts ++ ts') := by
  cases h with
  | nested h => exact .nested (by rw [bracketsOf_append]; exact h.append h')
  | opening hbefore ht hc hbehind =>
    rw [List.append_assoc, List.cons_append]
    refine .opening hbefore ht hc ?_
    rw [bracketsOf_append]
    exact hbehind.append h'

theorem close (h : Opens ((c, place) :: brackets) ts) (ht : t.bracket? = some (closing c)) :
    Opens brackets (ts ++ [t]) := by
  cases h with
  | @opening _ before t' _ behind hbefore ht' hc hbehind =>
    rw [List.append_assoc, List.cons_append]
    refine hbefore.append ?_
    have hpair : bracketsOf (t' :: (behind ++ [t])) = c :: (bracketsOf behind ++ [closing c]) := by
      simp [bracketsOf, ht, ht']
    rw [hpair]
    exact .pair hc hbehind .nil

/-- The account of brackets that a scan keeps is right for one more token. -/
theorem tracked (h : Opens brackets ts)
    (hread : readLexeme? a (c :: cs) = some (.token kind value (skipped.length + 1)))
    (htracks : Tracks cursor c brackets (.ok brackets')) :
    Opens brackets' (ts ++ [⟨kind, value, cursor⟩]) := by
  have hbracket : Token.bracket? ⟨kind, value, cursor⟩ = _ := bracket?_of_readLexeme? hread
  cases htracks with
  | plain hopening hclosing =>
    rw [hopening, hclosing, Bool.or_self, if_neg Bool.false_ne_true] at hbracket
    refine h.append ?_
    rw [bracketsOf_singleton, hbracket]
    exact .nil
  | opening hc =>
    rw [hc, Bool.true_or, if_pos rfl] at hbracket
    exact .opening h hbracket hc .nil
  | closing hc hfits =>
    rw [hc, Bool.or_true, if_pos rfl, ← hfits] at hbracket
    exact h.close hbracket

end Opens

/-- What the tokens in front of `rest` have to do with the fault for which a scan stops there. -/
inductive Blames (ts : List Token) (cursor : Nat) : List Char → Nat → Fault → Prop
  | character {c : Char} {rest : List Char} : Blames ts cursor (c :: rest) cursor (.unexpectedCharacter c)
  | closing {c : Char} {rest : List Char} : isClosing c = true → Nested (bracketsOf ts) →
      Blames ts cursor (c :: rest) cursor (.unexpectedClosing c)
  | unclosed {c : Char} {place : Nat} {rest : List Char} : IsInnermost c place ts →
      (∀ d ∈ rest.head?, isClosing d = true ∧ d ≠ closing c) → Blames ts cursor rest place (.unclosed c)

/-- A closing bracket that does not fit is blamed, or the one that it does not close. -/
theorem Opens.blames (h : Opens brackets ts) (htracks : Tracks cursor c brackets (.error (place, fault)))
    (rest : List Char) : Blames ts cursor (c :: rest) place fault := by
  cases htracks with
  | unexpected hc =>
    cases h with
    | nested h => exact .closing hc h
  | unclosed hc hdiffers =>
    refine .unclosed h.isInnermost fun d hd => ?_
    obtain rfl : c = d := by simpa using hd
    exact ⟨hc, hdiffers.symm⟩

/-- What the outcome of a scan says of the brackets, where the tokens `before` are already read. -/
def Accounts (before : List Token) (cursor : Nat) (a : Bool) (cs : List Char) :
    Except (Nat × Fault) (List Token) → Prop
  | .ok ts => Nested (bracketsOf (before ++ ts))
  | .error (place, fault) => ∃ ts cursor' a' rest, Reads cursor' a' rest cursor a cs ts ∧
      Blames (before ++ ts) cursor' rest place fault

/-- The tokens that are read and the brackets that are open stay in step. -/
theorem accounts_scan (h : Opens brackets ts) (cursor : Nat) (a : Bool) (cs : List Char) :
    Accounts ts cursor a cs (scan cursor brackets a 0 cs) := by
  -- As in `covers_scan` a lexeme is left behind as a whole; it joins the tokens that are already read.
  induction hn : cs.length using Nat.strongRecOn generalizing brackets ts cursor a cs with
  | _ n ih =>
    subst hn
    cases cs with
    | nil =>
      unfold scan
      cases h with
      | nested h =>
        have hending : (Token.ending cursor).bracket? = none := rfl
        show Nested (bracketsOf (_ ++ [Token.ending cursor]))
        rw [bracketsOf_append, bracketsOf_singleton, hending, Option.toList_none, List.append_nil]
        exact h
      | opening hbefore ht hc hbehind =>
        refine ⟨[], cursor, a, [], .done, ?_⟩
        rw [List.append_nil]
        exact .unclosed (Opens.isInnermost (.opening hbefore ht hc hbehind)) (by simp)
    | cons c cs =>
      obtain hread | ⟨skipped, rest, rfl, hread | ⟨kind, value, hread⟩⟩ := readLexeme?_cases a c cs
      · rw [scan_of_none hread]
        exact ⟨[], cursor, a, c :: cs, .done, .character⟩
      · have hrest := ih rest.length (by simp) h (cursor + (skipped.length + 1)) a rest rfl
        rw [scan_of_gap hread]
        cases hscan : scan (cursor + (skipped.length + 1)) brackets a 0 rest with
        | ok ts' => rwa [hscan] at hrest
        | error e =>
          rw [hscan] at hrest
          obtain ⟨ts', cursor', a', rest', hreads, hblames⟩ := hrest
          exact ⟨ts', cursor', a', rest', .gap hread hreads, hblames⟩
      · have htracks := tracks_track cursor c brackets
        rw [scan_of_token hread]
        cases htrack : track cursor c brackets with
        | error e =>
          rw [htrack] at htracks
          refine ⟨[], cursor, a, c :: (skipped ++ rest), .done, ?_⟩
          rw [List.append_nil]
          exact h.blames htracks _
        | ok brackets' =>
          rw [htrack] at htracks
          have hrest := ih rest.length (by simp) (h.tracked hread htracks)
            (cursor + (skipped.length + 1)) (isAccess kind value) rest rfl
          simp only [bind, Except.bind]
          cases hscan : scan (cursor + (skipped.length + 1)) brackets' (isAccess kind value) 0 rest with
          | ok ts' =>
            rw [hscan] at hrest
            show Nested (bracketsOf (ts ++ (_ :: ts')))
            rwa [List.append_cons]
          | error e =>
            rw [hscan] at hrest
            obtain ⟨ts', cursor', a', rest', hreads, hblames⟩ := hrest
            refine ⟨_ :: ts', cursor', a', rest', .token hread hreads, ?_⟩
            rwa [List.append_cons]

/-- A bracket that is read stands in the text at its cursor. -/
theorem Reads.split_of_bracket (h : Reads cursor' a' rest cursor a cs ts) (ht : t ∈ ts)
    (hbracket : t.bracket? = some c) :
    ∃ front behind, cs = front ++ c :: behind ∧ t.cursor = cursor + front.length := by
  have hlength (c' : Char) (cursor : Nat) (skipped front : List Char) :
      cursor + (skipped.length + 1) + front.length = cursor + (c' :: (skipped ++ front)).length := by
    rw [List.length_cons, List.length_append]
    omega
  induction h with
  | done => cases ht
  | @gap cursor _ c' skipped _ _ _ _ ih =>
    obtain ⟨front, behind, rfl, hcursor⟩ := ih ht
    exact ⟨c' :: (skipped ++ front), behind, by simp, hcursor.trans (hlength ..)⟩
  | @token cursor _ c' skipped _ _ _ _ hread _ ih =>
    obtain rfl | ht := List.mem_cons.mp ht
    · rw [bracket?_of_readLexeme? hread, Option.ite_none_right_eq_some, Option.some_inj] at hbracket
      obtain ⟨-, rfl⟩ := hbracket
      exact ⟨[], _, rfl, rfl⟩
    · obtain ⟨front, behind, rfl, hcursor⟩ := ih ht
      exact ⟨c' :: (skipped ++ front), behind, by simp, hcursor.trans (hlength ..)⟩

theorem eq_of_normalize_bracket {d : Char} (h : normalize d = c)
    (hc : (isOpening c || isClosing c) = true) : d = c := by
  unfold normalize at h
  split at h
  · subst h
    exact absurd hc (by decide)
  · exact h

/-- An open bracket stands in the text at its place. -/
theorem IsInnermost.getElem?_eq (h : IsInnermost c place ts)
    (hreads : Reads cursor' a' rest 1 false (cs.map normalize) ts) :
    ∃ i, place = i + 1 ∧ cs[i]? = some c := by
  obtain ⟨before, t, behind, rfl, rfl, hbracket, hc, -⟩ := h
  obtain ⟨front, back, htext, hcursor⟩ :=
    hreads.split_of_bracket (List.mem_append_right _ List.mem_cons_self) hbracket
  have hat : (cs.map normalize)[front.length]? = some c := by
    rw [htext, List.getElem?_append_right le_rfl, Nat.sub_self, List.getElem?_cons_zero]
  rw [List.getElem?_map, Option.map_eq_some_iff] at hat
  obtain ⟨d, hd, hnormalize⟩ := hat
  refine ⟨front.length, hcursor.trans (Nat.add_comm _ _), ?_⟩
  rw [hd, eq_of_normalize_bracket hnormalize (by rw [hc, Bool.true_or])]

theorem tokenize_error {text : String} {e : SyntaxError} (h : tokenize text = .error e) :
    ∃ ts cursor a rest, Reads cursor a rest 1 false (text.toList.map normalize) ts ∧
      Blames ts cursor rest e.cursor e.fault := by
  have haccounts := accounts_scan .nil 1 false (text.toList.map normalize)
  rwa [(exists_scan_of_tokenize_error h).1] at haccounts

/-- No message that quotes a bracket is one of another fault. -/
theorem Blames.fault_of_message (h : Blames ts cursor rest place fault) :
    (fault.message = "Unclosed \"" ++ c.toString ++ "\"" → fault = .unclosed c) ∧
    (fault.message = "Unexpected \"" ++ c.toString ++ "\"" → fault = .unexpectedClosing c) := by
  have hsame {s : String} {d : Char} (h : s ++ d.toString ++ "\"" = s ++ c.toString ++ "\"") : d = c := by
    simpa [Char.toString_eq_singleton] using h
  have hdiffer {s s' : String} {d : Char} (n : Nat) (hn : n ≤ s.length) (hn' : n ≤ s'.length)
      (h : s.toList.take n ≠ s'.toList.take n) : s ++ d.toString ++ "\"" ≠ s' ++ c.toString ++ "\"" := by
    intro heq
    have htake := congrArg (fun s : String => s.toList.take n) heq
    rw [← String.length_toList] at hn hn'
    simp only [String.toList_append, List.append_assoc] at htake
    rw [List.take_append_of_le_length hn, List.take_append_of_le_length hn'] at htake
    exact h htake
  cases h with
  | character =>
    exact ⟨fun h => absurd h (hdiffer 9 (by decide) (by decide) (by decide)),
      fun h => absurd h (hdiffer 12 (by decide) (by decide) (by decide))⟩
  | closing =>
    exact ⟨fun h => absurd h (hdiffer 9 (by decide) (by decide) (by decide)), fun h => by rw [hsame h]⟩
  | unclosed =>
    exact ⟨fun h => by rw [hsame h], fun h => absurd h (hdiffer 9 (by decide) (by decide) (by decide))⟩

/-- Brackets are in pairs if a text is accepted. An unclosed bracket is the innermost one that is open
where the text ends or a closing bracket of another kind stands, and in front of an unexpected closing
bracket none is open. -/
theorem tokenize_brackets (text : String) :
    (∀ stream, tokenize text = .ok stream → Nested (bracketsOf stream.tokens)) ∧
    (∀ e c, tokenize text = .error e → e.fault.message = "Unclosed \"" ++ c.toString ++ "\"" →
      ∃ ts cursor a rest, Reads cursor a rest 1 false (text.toList.map normalize) ts ∧
        IsInnermost c e.cursor ts ∧ (∃ i, e.cursor = i + 1 ∧ text.toList[i]? = some c) ∧
        ∀ d ∈ rest.head?, isClosing d = true ∧ d ≠ closing c) ∧
    (∀ e c, tokenize text = .error e → e.fault.message = "Unexpected \"" ++ c.toString ++ "\"" →
      ∃ ts a rest, Reads e.cursor a (c :: rest) 1 false (text.toList.map normalize) ts ∧
        isClosing c = true ∧ Nested (bracketsOf ts)) := by
  refine ⟨fun stream h => ?_, fun e c h hmessage => ?_, fun e c h hmessage => ?_⟩
  · have haccounts := accounts_scan .nil 1 false (text.toList.map normalize)
    rwa [(scan_of_tokenize h).1] at haccounts
  · obtain ⟨ts, cursor, a, rest, hreads, hblames⟩ := tokenize_error h
    rw [hblames.fault_of_message.1 hmessage] at hblames
    cases hblames with
    | unclosed hinnermost hrest =>
      exact ⟨ts, cursor, a, rest, hreads, hinnermost, hinnermost.getElem?_eq hreads, hrest⟩
  · obtain ⟨ts, cursor, a, rest, hreads, hblames⟩ := tokenize_error h
    rw [hblames.fault_of_message.2 hmessage] at hblames
    generalize hplace : e.cursor = place at hblames
    cases hblames with
    | closing hc hnested => exact ⟨ts, a, _, hreads, hc, hnested⟩

theorem tokenize_brackets_culprits :
    (∃ stream, tokenize "f(')', [x] /* ( */)" = .ok stream ∧
      bracketsOf stream.tokens = ['(', '[', ']', ')'] ∧ Nested (bracketsOf stream.tokens)) ∧
    (tokenize "f([x], [y)" = .error ⟨.unclosed '[', 8, "f([x], [y)", none, []⟩ ∧
      ∃ ts cursor a rest, Reads cursor a rest 1 false ("f([x], [y)".toList.map normalize) ts ∧
        IsInnermost '[' 8 ts) ∧
    (tokenize "f([x])) + y" = .error ⟨.unexpectedClosing ')', 7, "f([x])) + y", none, []⟩ ∧
      ∃ ts a rest, Reads 7 a (')' :: rest) 1 false ("f([x])) + y".toList.map normalize) ts ∧
        Nested (bracketsOf ts)) := by
  obtain ⟨stream, hstream⟩ : ∃ stream, tokenize "f(')', [x] /* ( */)" = .ok stream := ⟨_, by cbv⟩
  have hbrackets : (tokenize "f(')', [x] /* ( */)").map (bracketsOf ·.tokens) =
      .ok ['(', '[', ']', ')'] := by cbv
  rw [hstream, Except.map, Except.ok.injEq] at hbrackets
  have hunclosed : tokenize "f([x], [y)" = .error ⟨.unclosed '[', 8, "f([x], [y)", none, []⟩ := by cbv
  have hunexpected : tokenize "f([x])) + y" =
      .error ⟨.unexpectedClosing ')', 7, "f([x])) + y", none, []⟩ := by cbv
  obtain ⟨ts, cursor, a, rest, hreads, hinnermost, -⟩ := (tokenize_brackets _).2.1 _ '[' hunclosed rfl
  obtain ⟨ts', a', rest', hreads', -, hnested⟩ := (tokenize_brackets _).2.2 _ ')' hunexpected rfl
  exact ⟨⟨stream, hstream, hbrackets, (tokenize_brackets _).1 stream hstream⟩,
    ⟨hunclosed, ts, cursor, a, rest, hreads, hinnermost⟩, hunexpected, ts', a', rest', hreads', hnested⟩

end Lexer
end Formula
