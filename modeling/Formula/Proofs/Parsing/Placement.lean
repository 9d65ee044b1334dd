import Mathlib
import Formula.Proofs.Parsing.Invariant
import Formula.Proofs.Token.Layout
import Formula.Proofs.Token.Scanned

/-! Where an error points to: into the text that it quotes, at a token if the text has tokens, and at
the very name if a name is unknown. -/

namespace Formula

/-- An error that quotes `expression` and tells the place of one of its tokens. If a name is unknown
then the token is that name, and none of the proposals is. -/
structure SyntaxError.IsAt (tokens : List Token) (expression : String) (e : SyntaxError) : Prop where
  expression : e.expression = expression
  place : ∃ t ∈ tokens, t.cursor = e.cursor ∧
    ∀ name, e.fault = .unknownVariable name ∨ e.fault = .unknownFunction name →
      t.kind = .name ∧ t.text?.getD "" = name ∧ e.subject = some name ∧ name ∉ e.proposals

namespace Parsing

variable {tokens : List Token} {expression : String}

theorem isKept_isAt (tokens : List Token) (expression : String) :
    IsKept (fun _ s => s.stream.tokens = tokens ∧ s.stream.expression = expression)
      fun e _ => e.IsAt tokens expression where
  relax hs := hs
  next hs hnext :=
    ⟨(TokenStream.tokens_next hnext).trans hs.1, (TokenStream.expression_next hnext).trans hs.2⟩
  failure hs ht hfault := by
    obtain ⟨rfl, rfl⟩ := hs
    refine ⟨rfl, _, ht, rfl, fun name hname => ?_⟩
    rcases hname with rfl | rfl <;> cases hfault
  unknown hs ht hkind hname hproposals := by
    obtain ⟨rfl, rfl⟩ := hs
    refine ⟨rfl, _, ht, rfl, fun name hname' => ?_⟩
    rcases hname with rfl | rfl <;> rcases hname' with hname' | hname' <;> cases hname' <;>
      exact ⟨hkind, rfl, rfl, hproposals⟩

theorem yields_isAt (scope : Scope) (levels precedence : Nat) (s : State)
    (hs : s.stream.tokens = tokens ∧ s.stream.expression = expression) :
    Yields (Parsing.expression scope levels precedence) s
      (fun _ s' => s'.stream.tokens = tokens ∧ s'.stream.expression = expression)
      fun e _ => e.IsAt tokens expression := by
  have hkept := isKept_isAt tokens expression
  induction levels generalizing precedence s with
  | zero => exact yields_expression_zero hkept hs
  | succ levels ih => exact yields_expression_succ hkept ih hs fun _ _ hs' => hs'

/-- Whatever is wrong with a stream, it is wrong at one of its tokens. -/
theorem isAt_of_parseTokens {scope : Scope} {stream : TokenStream} {e : SyntaxError}
    (h : parseTokens scope stream = .error e) : e.IsAt stream.tokens stream.expression := by
  have hwhole := yields_whole (isKept_isAt stream.tokens stream.expression)
    (yields_isAt scope maxNesting 0 { stream } ⟨rfl, rfl⟩)
  rw [parseTokens_run] at h
  unfold Yields at hwhole
  cases hrun : whole scope { stream } with
  | ok tree s =>
    rw [hrun] at h
    cases h
  | error e' s =>
    rw [hrun] at h hwhole
    obtain rfl := Except.error.inj h
    exact hwhole

end Parsing

namespace Lexer

variable {cs : List Char} {cursor place : Nat} {brackets : Brackets} {fault : Fault}

theorem Tracks.error {c : Char} (h : Tracks cursor c brackets (.error (place, fault))) :
    fault.isUnknownName = false ∧ (place = cursor ∨ ∃ b ∈ brackets, b.2 = place) := by
  cases h with
  | unclosed => exact ⟨rfl, .inr ⟨_, List.mem_cons_self, rfl⟩⟩
  | unexpected => exact ⟨rfl, .inl rfl⟩

/-- A bracket that is open after a character was open before it, or stands there. -/
theorem Tracks.ok {c : Char} {brackets' : Brackets} (h : Tracks cursor c brackets (.ok brackets')) :
    ∀ b ∈ brackets', b.2 = cursor ∨ b ∈ brackets := by
  cases h with
  | plain => exact fun b hb => .inr hb
  | opening => exact fun b hb => (List.mem_cons.mp hb).imp (fun heq => by rw [heq]) id
  | closing => exact fun b hb => .inr (List.mem_cons_of_mem _ hb)

/-- A scan that fails tells a place in the text, and never of an unknown name. -/
theorem scan_error {a : Bool} {skip : Nat} (hcursor : 1 ≤ cursor)
    (hbrackets : ∀ b ∈ brackets, 1 ≤ b.2 ∧ b.2 < cursor)
    (h : scan cursor brackets a skip cs = .error (place, fault)) :
    fault.isUnknownName = false ∧ 1 ≤ place ∧ place < cursor + cs.length := by
  induction cs generalizing cursor brackets a skip with
  | nil =>
    unfold scan at h
    cases brackets with
    | nil => cases h
    | cons b brackets =>
      cases h
      exact ⟨rfl, hbrackets _ List.mem_cons_self⟩
  | cons c cs ih =>
    -- Behind `c` the open brackets lie before the cursor again.
    have hrest {brackets' : Brackets} {a : Bool} {skip : Nat}
        (hold : ∀ b ∈ brackets', b.2 = cursor ∨ b ∈ brackets)
        (hscan : scan (cursor + 1) brackets' a skip cs = .error (place, fault)) :
        fault.isUnknownName = false ∧ 1 ≤ place ∧ place < cursor + (c :: cs).length := by
      have hplaces : ∀ b ∈ brackets', 1 ≤ b.2 ∧ b.2 < cursor + 1 := by
        intro b hb
        rcases hold b hb with heq | hmem
        · omega
        · have := hbrackets b hmem
          omega
      have hend : cursor + (c :: cs).length = cursor + 1 + cs.length := by
        rw [List.length_cons]
        omega
      rw [hend]
      exact ih (by omega) hplaces hscan
    have hhere : cursor < cursor + (c :: cs).length := by simp
    cases skip with
    | succ skip => exact hrest (fun _ hb => .inr hb) h
    | zero =>
      have htracks := tracks_track cursor c brackets
      have hsteps := steps_scan cursor brackets a c cs
      rw [h] at hsteps
      cases hsteps with
      | unread _ => exact ⟨rfl, hcursor, hhere⟩
      | gap _ hscan => exact hrest (fun _ hb => .inr hb) hscan
      | unpaired _ htrack =>
        rw [htrack] at htracks
        obtain ⟨hfault, rfl | ⟨b, hb, rfl⟩⟩ := htracks.error
        · exact ⟨hfault, hcursor, hhere⟩
        · have := hbrackets b hb
          exact ⟨hfault, by omega, by omega⟩
      | failed _ htrack hscan =>
        rw [htrack] at htracks
        exact hrest htracks.ok hscan

theorem exists_scan_of_tokenize {text : String} {stream : TokenStream} (h : tokenize text = .ok stream) :
    stream.expression = String.ofList (text.toList.map normalize) ∧
      Covers 1 (text.toList.map normalize) stream.tokens ∧
      ∀ t ∈ stream.tokens, t.content.IsScanned := by
  obtain ⟨hscan, hexpression⟩ := scan_of_tokenize h
  exact ⟨hexpression, covers_scan hscan, isScanned_scan hscan⟩

theorem Covers.cursor_le {ts : List Token} (h : Covers cursor cs ts) :
    ∀ t ∈ ts, t.cursor ≤ cursor + cs.length := by
  obtain ⟨ts, rfl, -⟩ := h.exists_ending
  have hpairwise := List.pairwise_append.mp h.pairwise_cursor
  rw [List.forall_mem_append, List.forall_mem_singleton]
  exact ⟨fun t ht => (hpairwise.2.2 t ht _ (List.mem_singleton_self _)).le, le_rfl⟩

theorem Covers.eq_of_cursor_eq {ts : List Token} (h : Covers cursor cs ts) {t t' : Token}
    (ht : t ∈ ts) (ht' : t' ∈ ts) (heq : t.cursor = t'.cursor) : t = t' := by
  have hnodup : (ts.map Token.cursor).Nodup := List.pairwise_map.mpr (h.pairwise_cursor.imp ne_of_lt)
  exact List.inj_on_of_nodup_map hnodup ht ht' heq

end Lexer

namespace Parsing

/-- An error quotes the text with plain spaces and points into it, or right behind it. If the text has
tokens it points to one of them, and if a name is unknown to that name, which is not proposed. -/
theorem isAt_of_parseText {scope : Scope} {text : String} {e : SyntaxError}
    (h : parseText scope text = .error e) :
    e.expression = String.ofList (text.toList.map Lexer.normalize) ∧
      1 ≤ e.cursor ∧ e.cursor ≤ text.length + 1 ∧
      (∀ stream, tokenize text = .ok stream → ∃ t ∈ stream.tokens, t.cursor = e.cursor) ∧
      ∀ name, e.fault = .unknownVariable name ∨ e.fault = .unknownFunction name →
        e.subject = some name ∧ name ∉ e.proposals ∧
        ∃ stream, tokenize text = .ok stream ∧
          ⟨.name, .string name, e.cursor⟩ ∈ stream.tokens ∧
          ∀ t ∈ stream.tokens, t.cursor = e.cursor → t = ⟨.name, .string name, e.cursor⟩ := by
  have hlength : (text.toList.map Lexer.normalize).length = text.length := by
    rw [List.length_map, String.length_toList]
  unfold parseText at h
  cases htokens : tokenize text with
  | error e' =>
    rw [htokens] at h
    obtain rfl := Except.error.inj h
    obtain ⟨hscan, he⟩ := Lexer.exists_scan_of_tokenize_error htokens
    obtain ⟨hfault, hpos, hle⟩ := Lexer.scan_error le_rfl (by simp) hscan
    refine ⟨congrArg SyntaxError.expression he, hpos, by omega, by simp, fun name hname => ?_⟩
    rcases hname with hname | hname <;> simp [hname, Fault.isUnknownName] at hfault
  | ok stream =>
    rw [htokens] at h
    obtain ⟨hexpression, hcovers, hscanned⟩ := Lexer.exists_scan_of_tokenize htokens
    obtain ⟨hquoted, t, ht, hcursor, hname⟩ := isAt_of_parseTokens h
    have hle := hcovers.cursor_le t ht
    refine ⟨hquoted.trans hexpression, ?_, by omega, ?_, fun name hfault => ?_⟩
    · exact hcursor ▸ hcovers.le_cursor t ht
    · rintro _ ⟨⟩
      exact ⟨t, ht, hcursor⟩
    · obtain ⟨hkind, htext, hsubject, hproposals⟩ := hname name hfault
      obtain ⟨n, hn, -⟩ := exists_name_of_isScanned (hscanned t ht) hkind
      obtain ⟨kind, value, cursor⟩ := t
      obtain ⟨rfl, rfl⟩ := Content.mk.inj hn
      obtain rfl : n = name := htext
      obtain rfl : cursor = e.cursor := hcursor
      exact ⟨hsubject, hproposals, stream, rfl, ht, fun t' ht' heq =>
        hcovers.eq_of_cursor_eq ht' ht heq⟩

theorem isAt_of_parseText_secondArgument :
    let scope := Scope.ofVariables ["f"] (some [.aliased "yyy" "x"]) {}
    let e : SyntaxError :=
      ⟨.unknownVariable "yy", 7, "f(x,  yy)", some "yy", ["yyy", "x"]⟩
    parseText scope "f(x,\n\tyy)" = .error e ∧
      e.expression = String.ofList ("f(x,\n\tyy)".toList.map Lexer.normalize) ∧
      1 ≤ e.cursor ∧ e.cursor ≤ "f(x,\n\tyy)".length + 1 ∧
      ∃ stream, tokenize "f(x,\n\tyy)" = .ok stream ∧
        ⟨.name, .string "yy", 7⟩ ∈ stream.tokens ∧
        ∀ t ∈ stream.tokens, t.cursor = 7 → t = ⟨.name, .string "yy", 7⟩ := by
  intro scope e
  have hparse : parseText scope "f(x,\n\tyy)" = .error e := by cbv
  obtain ⟨hexpression, hpos, hle, -, hname⟩ := isAt_of_parseText hparse
  exact ⟨hparse, hexpression, hpos, hle, (hname "yy" (.inl rfl)).2.2⟩

end Parsing
end Formula
