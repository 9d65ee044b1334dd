import Mathlib
import Formula.Proofs.Token.Lexeme

/-! Where the tokens of a text lie in it: one behind another, each at its cursor and spelled by its
lexeme, with nothing but spaces and comments between them. -/

namespace Formula
namespace Lexer

/-- Spaces and comments; a comment ends at its first end mark. Only what `isLast` may hold a comment
without one. -/
inductive IsGap (isLast : Prop) : List Char → Prop
  | nil : IsGap isLast []
  | space {cs} : IsGap isLast cs → IsGap isLast (' ' :: cs)
  | comment {body cs} : ¬['*', '/'] <:+: body → IsGap isLast cs →
      IsGap isLast ('/' :: '*' :: (body ++ '*' :: '/' :: cs))
  | unclosed {body} : isLast → ¬['*', '/'] <:+: body → IsGap isLast ('/' :: '*' :: body)

/-- The lexemes of a token. Two backslashes are spelled for one; everything else but strings and
numbers is its own lexeme. -/
inductive Spells : Content → List Char → Prop
  | name (s) : Spells (.name s) s.toList
  | operator (s) : Spells (.operator s) s.toList
  | mark {s} : s ≠ "\\" → Spells (.mark s) s.toList
  | backslash : Spells (.mark "\\") ['\\', '\\']
  | string {quote cs s} : quote = '"' ∨ quote = '\'' → Quotes quote cs s →
      Spells ⟨.string, .string (String.ofList s)⟩ (quote :: (cs ++ [quote]))
  | number (isWhole cs) : Spells ⟨.number, numberValue isWhole cs⟩ cs

/-- From `cursor` on the tokens lie in a text one behind another, and the ending token behind it. -/
inductive Covers : Nat → List Char → List Token → Prop
  | ending {cursor gap} : IsGap True gap → Covers cursor gap [Token.ending (cursor + gap.length)]
  | token {cursor gap lexeme rest t ts} : IsGap False gap → t.cursor = cursor + gap.length →
      lexeme ≠ [] → Spells t.content lexeme → Covers (t.cursor + lexeme.length) rest ts →
      Covers cursor (gap ++ (lexeme ++ rest)) (t :: ts)

variable {a : Bool} {quote : Char} {cs lexeme rest : List Char} {cursor : Nat} {isLast : Prop}
  {ts : List Token} {l : Lexeme}

theorem Spells.kind_ne_ending {c : Content} (h : Spells c lexeme) : c.kind ≠ .ending := by
  cases h <;> simp [Content.name, Content.operator, Content.mark]

theorem IsGap.append {gap : List Char} (h : IsGap False gap) (h' : IsGap isLast rest) :
    IsGap isLast (gap ++ rest) := by
  induction h with
  | nil => exact h'
  | space _ ih => exact .space ih
  | comment hbody _ ih =>
    simp only [List.cons_append, List.append_assoc]
    exact .comment hbody ih
  | unclosed hlast => exact hlast.elim

/-- What stands behind a gap may have more of it in front. -/
theorem Covers.widen {gap : List Char} (h : Covers (cursor + gap.length) rest ts)
    (hgap : IsGap False gap ∨ rest = [] ∧ IsGap True gap) : Covers cursor (gap ++ rest) ts := by
  cases h with
  | ending hrest =>
    rw [Nat.add_assoc, ← List.length_append]
    obtain hgap | ⟨rfl, hgap⟩ := hgap
    · exact .ending (hgap.append hrest)
    · rw [List.append_nil]
      exact .ending hgap
  | token hrest hcursor hne hspells hcovers =>
    rw [← List.append_assoc]
    obtain hgap | ⟨hnil, -⟩ := hgap
    · refine .token (hgap.append hrest) ?_ hne hspells hcovers
      rw [hcursor, List.length_append, Nat.add_assoc]
    · exact absurd (List.append_eq_nil_iff.mp (List.append_eq_nil_iff.mp hnil).2).1 hne

/-- A comment goes up to its first end mark, or to the end of the text. -/
theorem comment_split (cs : List Char) :
    (∃ body rest, cs = body ++ '*' :: '/' :: rest ∧ commentLength cs = body.length + 2 ∧
      ¬['*', '/'] <:+: body) ∨
    (commentLength cs = cs.length ∧ ¬['*', '/'] <:+: cs) := by
  fun_induction commentLength cs with
  | case1 => exact .inr ⟨rfl, by simp⟩
  | case2 rest => exact .inl ⟨[], rest, rfl, rfl, by simp⟩
  | case3 c cs hmark ih =>
    -- An end mark at `c` would have been taken by the case before.
    have hinfix {cs' rest : List Char} (hcs : cs = cs' ++ rest) (h : ¬['*', '/'] <:+: cs') :
        ¬['*', '/'] <:+: c :: cs' := by
      rw [List.infix_cons_iff, not_or]
      refine ⟨?_, h⟩
      rintro ⟨rest', hrest'⟩
      obtain ⟨hc, rfl⟩ := List.cons.inj hrest'
      exact hmark (rest' ++ rest) hc.symm hcs
    obtain ⟨body, rest, hcs, hlength, hbody⟩ | ⟨hlength, hcs⟩ := ih
    · exact .inl ⟨c :: body, rest, by rw [hcs, List.cons_append], by rw [hlength, List.length_cons],
        hinfix hcs hbody⟩
    · exact .inr ⟨by rw [hlength, List.length_cons], hinfix (List.append_nil cs).symm hcs⟩

theorem quotes_readQuoted? {s : List Char} {n : Nat}
    (h : readQuoted? quote cs = some (s, n)) :
    ∃ body rest, cs = body ++ quote :: rest ∧ n = body.length + 1 ∧ Quotes quote body s := by
  fun_induction readQuoted? quote cs generalizing s n with
  | case1 => cases h
  | case2 => cases h
  | case3 c cs ih =>
    obtain ⟨⟨s', n'⟩, hread, heq⟩ := Option.map_eq_some_iff.mp h
    obtain ⟨rfl, rfl⟩ := Prod.mk.inj heq
    obtain ⟨body, rest, rfl, rfl, hbody⟩ := ih hread
    refine ⟨'\\' :: c :: body, rest, rfl, rfl, ?_⟩
    by_cases hc : (c == quote || c == '\\') = true
    · rw [if_pos hc]
      exact .escaped (by simpa using hc) hbody
    · rw [if_neg hc]
      simp only [Bool.or_eq_true, beq_iff_eq, not_or] at hc
      exact .kept hc.1 hc.2 hbody
  | case4 c cs hslash hc =>
    obtain ⟨rfl, rfl⟩ := Prod.mk.inj (Option.some.inj h)
    exact ⟨[], cs, by rw [beq_iff_eq.mp hc]; rfl, rfl, .nil⟩
  | case5 c cs hslash hc ih =>
    obtain ⟨⟨s', n'⟩, hread, heq⟩ := Option.map_eq_some_iff.mp h
    obtain ⟨rfl, rfl⟩ := Prod.mk.inj heq
    obtain ⟨body, rest, rfl, rfl, hbody⟩ := ih hread
    exact ⟨c :: body, rest, rfl, rfl, .plain (by simpa using hc) hslash hbody⟩

theorem digitsLength_le (started : Bool) (cs : List Char) : digitsLength started cs ≤ cs.length := by
  fun_induction digitsLength started cs <;> simp_all

theorem fractionLength_le (cs : List Char) : fractionLength cs ≤ cs.length := by
  unfold fractionLength
  split
  · rename_i cs
    have hle := digitsLength_le false cs
    split <;> simp_all
  · exact Nat.zero_le _

theorem exponentLength_le (cs : List Char) : exponentLength cs ≤ cs.length := by
  unfold exponentLength
  split
  · exact Nat.zero_le _
  · rename_i c cs
    have hle := digitsLength_le false (cs.drop (signLength cs))
    rw [List.length_drop] at hle
    split
    · split
      · exact Nat.zero_le _
      · rw [List.length_cons]
        omega
    · exact Nat.zero_le _

/-- What a lexeme tells of the text that it was read from. -/
def Lexeme.Begins (cs : List Char) : Lexeme → Prop
  | gap length => ∃ gap rest, cs = gap ++ rest ∧ gap ≠ [] ∧ gap.length = length ∧
      (IsGap False gap ∨ rest = [] ∧ IsGap True gap)
  | token kind value length => ∃ lexeme rest, cs = lexeme ++ rest ∧ lexeme ≠ [] ∧
      lexeme.length = length ∧ Spells ⟨kind, value⟩ lexeme

theorem begins_readNumber? (h : readNumber? cs = some l) : l.Begins cs := by
  simp only [readNumber?, Option.ite_none_left_eq_some, Option.some_inj] at h
  obtain ⟨hmantissa, rfl⟩ := h
  rw [beq_iff_eq] at hmantissa
  generalize hwhole : digitsLength false cs = whole at hmantissa ⊢
  generalize hfraction : fractionLength (cs.drop whole) = fraction at hmantissa ⊢
  generalize hexponent : exponentLength (cs.drop (whole + fraction)) = exponent
  have hlength : whole + fraction + exponent ≤ cs.length := by
    have hwhole := hwhole ▸ digitsLength_le false cs
    have hfraction := hfraction ▸ fractionLength_le (cs.drop whole)
    have hexponent := hexponent ▸ exponentLength_le (cs.drop (whole + fraction))
    rw [List.length_drop] at hfraction hexponent
    omega
  have htake : (cs.take (whole + fraction + exponent)).length = whole + fraction + exponent := by
    rw [List.length_take, Nat.min_eq_left hlength]
  refine ⟨_, _, (List.take_append_drop (whole + fraction + exponent) cs).symm, ?_, htake, .number _ _⟩
  exact List.length_pos_iff.mp (by rw [htake]; omega)

theorem begins_readName? (h : readName? cs = some l) : l.Begins cs := by
  obtain ⟨c, tail, rfl, -, rfl⟩ := exists_of_readName? h
  refine ⟨c :: tail.takeWhile isNameChar, tail.dropWhile isNameChar, ?_, List.cons_ne_nil _ _, rfl, ?_⟩
  · rw [List.cons_append, List.takeWhile_append_dropWhile]
  · have hspells := Spells.name (String.ofList (c :: tail.takeWhile isNameChar))
    rwa [String.toList_ofList] at hspells

theorem begins_readOperator? (h : readOperator? cs = some l) : l.Begins cs := by
  rw [readOperator?, Option.map_eq_some_iff] at h
  obtain ⟨op, hop, rfl⟩ := h
  have hne : ∀ op ∈ operators, op.toList ≠ [] := by decide
  have hat := List.find?_some hop
  unfold isOperatorAt at hat
  split at hat
  · rename_i rest hdrop
    exact ⟨op.toList, rest, dropLexeme?_eq_some.mp hdrop, hne op (List.mem_of_find?_eq_some hop),
      String.length_toList, .operator op⟩
  · cases hat

theorem begins_readString? (hquote : quote = '"' ∨ quote = '\'') (h : readString? quote cs = some l) :
    l.Begins (quote :: cs) := by
  rw [readString?, Option.map_eq_some_iff] at h
  obtain ⟨⟨s, n⟩, hread, rfl⟩ := h
  obtain ⟨body, rest, rfl, rfl, hbody⟩ := quotes_readQuoted? hread
  refine ⟨quote :: (body ++ [quote]), rest, ?_, List.cons_ne_nil _ _, ?_, .string hquote hbody⟩
  · rw [List.cons_append, List.append_assoc]
    rfl
  · rw [List.length_cons, List.length_append]
    rfl

theorem begins_mark {s : String} (hs : s ≠ "\\") (hne : s.toList ≠ []) (rest : List Char) :
    (punctuation s s.length).Begins (s.toList ++ rest) :=
  ⟨s.toList, rest, rfl, hne, String.length_toList, .mark hs⟩

theorem begins_char {c : Char} (hc : c.toString ≠ "\\") (rest : List Char) :
    (punctuation c.toString 1).Begins (c :: rest) := by
  have hmark : Spells (.mark c.toString) c.toString.toList := .mark hc
  rw [Char.toString_eq_singleton, String.toList_singleton] at hmark
  exact ⟨[c], rest, rfl, List.cons_ne_nil _ _, rfl, hmark⟩

theorem begins_readSymbol? (h : readSymbol? a cs = some l) : l.Begins cs := by
  simp only [readSymbol?, Option.orElse_eq_orElse, Option.orElse_eq_or, Option.or_eq_some_iff] at h
  rcases h with h | ⟨-, h | ⟨-, h | ⟨-, h⟩⟩⟩
  · rw [Option.ite_none_right_eq_some] at h
    exact begins_readName? h.2
  · exact begins_readOperator? h
  · split at h
    · rename_i rest
      rw [Option.some_inj] at h
      subst h
      split
      · exact begins_char (by decide) _
      · exact begins_mark (s := "?.") (by decide) (by decide) rest
    · rename_i rest
      rw [Option.some_inj] at h
      subst h
      exact begins_mark (s := "??") (by decide) (by decide) rest
    · rename_i c rest _ _
      rw [Option.ite_none_right_eq_some, Option.some_inj] at h
      obtain ⟨hc, rfl⟩ := h
      simp only [Bool.or_eq_true, beq_iff_eq] at hc
      rcases hc with ((rfl | rfl) | rfl) | rfl <;> exact begins_char (by decide) rest
    · cases h
  · exact begins_readName? h

theorem begins_readLexeme? (h : readLexeme? a cs = some l) : l.Begins cs := by
  unfold readLexeme? at h
  split at h
  · cases h
  · rename_i rest
    rw [Option.some_inj] at h
    subst h
    exact ⟨[' '], rest, rfl, List.cons_ne_nil _ _, rfl, .inl (.space .nil)⟩
  · rename_i cs
    rw [Option.some_inj] at h
    subst h
    obtain ⟨body, rest, rfl, hlength, hbody⟩ | ⟨hlength, hcs⟩ := comment_split cs
    · refine ⟨'/' :: '*' :: (body ++ ['*', '/']), rest, by simp, List.cons_ne_nil _ _, ?_,
        .inl (.comment hbody .nil)⟩
      rw [hlength]
      simp
    · refine ⟨'/' :: '*' :: cs, [], (List.append_nil _).symm, List.cons_ne_nil _ _, ?_,
        .inr ⟨rfl, .unclosed trivial hcs⟩⟩
      rw [hlength]
      rfl
  · rename_i c cs _ _
    simp only [Option.orElse_eq_orElse, Option.orElse_eq_or, Option.or_eq_some_iff] at h
    rcases h with h | ⟨-, h⟩
    · exact begins_readNumber? h
    · split at h
      · rename_i hbracket
        rw [Option.some_inj] at h
        subst h
        simp only [isOpening, isClosing, Bool.or_eq_true, beq_iff_eq] at hbracket
        rcases hbracket with ((rfl | rfl) | rfl) | ((rfl | rfl) | rfl) <;>
          exact begins_char (by decide) cs
      · split at h
        · rename_i hquote
          simp only [Bool.or_eq_true, beq_iff_eq] at hquote
          exact begins_readString? hquote h
        · split at h
          · rename_i hslash
            rw [Option.some_inj] at h
            subst h
            simp only [Bool.and_eq_true, beq_iff_eq, List.head?_eq_some_iff] at hslash
            obtain ⟨rfl, rest, rfl⟩ := hslash
            exact ⟨['\\', '\\'], rest, rfl, List.cons_ne_nil _ _, rfl, .backslash⟩
          · exact begins_readSymbol? h

/-- A scan finds each token at its place. -/
theorem covers_scan {brackets : Brackets} (h : scan cursor brackets a 0 cs = .ok ts) :
    Covers cursor cs ts := by
  -- The induction is on the length of the text, as a lexeme is left behind as a whole.
  induction hn : cs.length using Nat.strongRecOn generalizing cursor brackets a cs ts with
  | _ n ih =>
    subst hn
    cases cs with
    | nil =>
      unfold scan at h
      cases brackets with
      | nil =>
        obtain rfl := Except.ok.inj h
        exact .ending .nil
      | cons _ _ => cases h
    | cons c cs =>
      -- Behind a lexeme the scan goes on with the rest of the text.
      have hrest {brackets : Brackets} {a : Bool} {lexeme rest : List Char} {length : Nat}
          {ts : List Token} (hcs : c :: cs = lexeme ++ rest) (hne : lexeme ≠ [])
          (hlength : lexeme.length = length)
          (hscan : scan (cursor + 1) brackets a (length - 1) cs = .ok ts) :
          Covers (cursor + lexeme.length) rest ts := by
        obtain ⟨c', skipped, rfl⟩ := List.exists_cons_of_ne_nil hne
        rw [List.cons_append] at hcs
        obtain ⟨rfl, rfl⟩ := List.cons.inj hcs
        rw [← hlength, List.length_cons, Nat.add_sub_cancel, scan_skip] at hscan
        rw [List.length_cons, Nat.add_comm skipped.length, ← Nat.add_assoc]
        exact ih _ (by simp only [List.length_cons, List.length_append]; omega) hscan rfl
      have hsteps := steps_scan cursor brackets a c cs
      rw [h] at hsteps
      cases hsteps with
      | gap hread hscan =>
        obtain ⟨gap, rest, hcs, hne, hlength, hgap⟩ := begins_readLexeme? hread
        rw [hcs]
        exact (hrest hcs hne hlength hscan).widen hgap
      | token hread _ hscan =>
        obtain ⟨lexeme, rest, hcs, hne, hlength, hspells⟩ := begins_readLexeme? hread
        rw [hcs, ← List.nil_append (lexeme ++ rest)]
        exact .token .nil rfl hne hspells (hrest hcs hne hlength hscan)

namespace Covers

theorem le_cursor (h : Covers cursor cs ts) : ∀ t ∈ ts, cursor ≤ t.cursor := by
  induction h with
  | ending _ =>
    intro t ht
    obtain rfl := List.mem_singleton.mp ht
    exact Nat.le_add_right _ _
  | token _ hcursor _ _ _ ih =>
    rw [List.forall_mem_cons]
    refine ⟨by omega, fun t ht => ?_⟩
    have hle := ih t ht
    omega

theorem pairwise_cursor (h : Covers cursor cs ts) : ts.Pairwise (·.cursor < ·.cursor) := by
  induction h with
  | ending _ => exact List.pairwise_singleton _ _
  | token _ _ hne _ hrest ih =>
    refine List.pairwise_cons.mpr ⟨fun t ht => ?_, ih⟩
    have hle := hrest.le_cursor t ht
    have hpos := List.length_pos_iff.mpr hne
    omega

theorem exists_ending (h : Covers cursor cs ts) :
    ∃ ts', ts = ts' ++ [Token.ending (cursor + cs.length)] ∧ ∀ t ∈ ts', t.kind ≠ .ending := by
  induction h with
  | ending _ => exact ⟨[], rfl, by simp⟩
  | @token cursor gap lexeme rest t ts _ hcursor _ hspells _ ih =>
    obtain ⟨ts', rfl, hkinds⟩ := ih
    refine ⟨t :: ts', ?_, List.forall_mem_cons.mpr ⟨?_, hkinds⟩⟩
    · rw [hcursor, List.length_append, List.length_append, List.cons_append]
      simp only [Nat.add_assoc]
    · exact hspells.kind_ne_ending

end Covers
end Lexer

theorem TokenStream.tokens_ofTokens {expression : String} {tokens : List Token}
    (h : tokens.getLast?.any (·.kind == .ending) = true) :
    (ofTokens expression tokens).tokens = tokens := by
  cases tokens with
  | nil => cases h
  | cons first rest =>
    simp only [ofTokens, h, if_true]
    rfl

theorem TokenStream.expression_ofTokens (expression : String) (tokens : List Token) :
    (ofTokens expression tokens).expression = expression := by
  cases tokens <;> rfl

namespace Lexer

/-- The tokens of a text are those that a scan finds. -/
theorem scan_of_tokenize {text : String} {stream : TokenStream} (h : tokenize text = .ok stream) :
    scan 1 [] false 0 (text.toList.map normalize) = .ok stream.tokens ∧
      stream.expression = String.ofList (text.toList.map normalize) := by
  obtain ⟨tokens, hscan, rfl⟩ := exists_scan_of_tokenize_ok h
  obtain ⟨ts, rfl, -⟩ := (covers_scan hscan).exists_ending
  have hlast : (ts ++ [Token.ending (1 + (text.toList.map normalize).length)]).getLast?.any
      (·.kind == .ending) = true := by
    rw [List.getLast?_concat]
    rfl
  rw [TokenStream.tokens_ofTokens hlast, TokenStream.expression_ofTokens]
  exact ⟨hscan, rfl⟩

/-- Nothing of a text is lost: with the spaces and comments between them, the lexemes of its tokens
make up the whole. -/
theorem tokenize_covers {text : String} {stream : TokenStream} (h : tokenize text = .ok stream) :
    stream.expression.toList = text.toList.map normalize ∧
      Covers 1 (text.toList.map normalize) stream.tokens ∧
      stream.tokens.Pairwise (·.cursor < ·.cursor) ∧
      ∃ ts, stream.tokens = ts ++ [Token.ending (text.length + 1)] ∧ ∀ t ∈ ts, t.kind ≠ .ending := by
  obtain ⟨hscan, hexpression⟩ := scan_of_tokenize h
  have hcovers := covers_scan hscan
  obtain ⟨ts, hts, hkinds⟩ := hcovers.exists_ending
  rw [List.length_map, String.length_toList, Nat.add_comm] at hts
  refine ⟨?_, hcovers, hcovers.pairwise_cursor, ts, hts, hkinds⟩
  rw [hexpression, String.toList_ofList]

theorem tokenize_covers_unclosedComment :
    ∃ stream, tokenize "f('it\\'s',\n\"\\n\")/* * /**/ \\\\ a?.not/*" = .ok stream ∧
      stream.expression.toList = "f('it\\'s', \"\\n\")/* * /**/ \\\\ a?.not/*".toList ∧
      Covers 1 stream.expression.toList stream.tokens ∧
      stream.tokens.Pairwise (·.cursor < ·.cursor) ∧
      ∃ ts, stream.tokens = ts ++ [Token.ending 38] ∧ ∀ t ∈ ts, t.kind ≠ .ending := by
  obtain ⟨stream, h⟩ : ∃ stream,
      tokenize "f('it\\'s',\n\"\\n\")/* * /**/ \\\\ a?.not/*" = .ok stream := ⟨_, by cbv⟩
  have hplain : "f('it\\'s',\n\"\\n\")/* * /**/ \\\\ a?.not/*".toList.map normalize =
      "f('it\\'s', \"\\n\")/* * /**/ \\\\ a?.not/*".toList := by cbv
  have hlength : "f('it\\'s',\n\"\\n\")/* * /**/ \\\\ a?.not/*".length + 1 = 38 := by cbv
  obtain ⟨h₁, h₂, h₃, h₄⟩ := tokenize_covers h
  rw [← h₁] at h₂
  rw [hplain] at h₁
  rw [hlength] at h₄
  exact ⟨stream, h, h₁, h₂, h₃, h₄⟩

end Lexer
end Formula
