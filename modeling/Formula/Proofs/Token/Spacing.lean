import Mathlib
import Formula.Proofs.Token.Lookahead
import Formula.Proofs.Token.Reading

/-! A space between two tokens of a text changes nothing but the cursors behind it, as long as no name
is spelled like a word that operators begin with. -/

namespace Formula

/-- A token behind a place into which one more character goes. -/
def Token.movedFrom (place : Nat) (t : Token) : Token :=
  { t with cursor := if place ≤ t.cursor then t.cursor + 1 else t.cursor }

namespace Lexer

/-- No name is spelled like a word that operators begin with, unless it stands directly behind an
access mark. -/
def SparesWords : (afterAccess : Bool) → List Token → Prop
  | _, [] => True
  | a, t :: ts =>
    (a = false → t.kind = .name → ∀ name, t.value = .string name → name ∉ leadingWords) ∧
      SparesWords (isAccess t.kind t.value) ts

/-- How many characters may stand in front of a space: none, all, or those up to the beginning or the
end of the lexeme of a token. -/
inductive IsSeam (cs : List Char) : Nat → Prop
  | start : IsSeam cs 0
  | finish : IsSeam cs cs.length
  | before {place a rest ts kind value n} : Reads (place + 1) a rest 1 false cs ts →
      readLexeme? a rest = some (.token kind value n) → IsSeam cs place
  | behind {place a rest ts kind value n} : Reads (place + 1) a rest 1 false cs ts →
      readLexeme? a rest = some (.token kind value n) → IsSeam cs (place + n)

variable {a a' : Bool} {c : Char} {cs front rest : List Char} {cursor cursor' : Nat}
  {brackets brackets' : Brackets} {kind : TokenKind} {value : Value} {ts ts' : List Token} {l : Lexeme}

theorem SparesWords.of_append (h : SparesWords a (ts ++ ts')) : SparesWords a ts := by
  induction ts generalizing a with
  | nil => trivial
  | cons t ts ih => exact ⟨h.1, ih h.2⟩

theorem Reads.split (h : Reads cursor' a' rest cursor a cs ts) :
    ∃ front, cs = front ++ rest ∧ cursor' = cursor + front.length := by
  induction h with
  | done => exact ⟨[], rfl, rfl⟩
  | @gap _ _ c skipped _ _ _ _ ih | @token _ _ c skipped _ _ _ _ _ _ ih =>
    obtain ⟨front, rfl, rfl⟩ := ih
    refine ⟨c :: (skipped ++ front), by simp, ?_⟩
    simp only [List.length_cons, List.length_append]
    omega

/-- What is read up to `rest` begins with a whole lexeme. -/
theorem Reads.inv (h : Reads cursor' a' rest cursor a (front ++ rest) ts) (hne : front ≠ []) :
    ∃ lexeme front', front = lexeme ++ front' ∧
      (readLexeme? a (front ++ rest) = some (.gap lexeme.length) ∧
          Reads cursor' a' rest (cursor + lexeme.length) a (front' ++ rest) ts ∨
        ∃ kind value ts', readLexeme? a (front ++ rest) = some (.token kind value lexeme.length) ∧
          ts = ⟨kind, value, cursor⟩ :: ts' ∧
          Reads cursor' a' rest (cursor + lexeme.length) (isAccess kind value) (front' ++ rest) ts') := by
  generalize hcs : front ++ rest = cs at h
  cases h with
  | done => exact absurd (List.append_left_eq_self.mp hcs) hne
  | @gap _ _ c skipped _ _ hread hrest =>
    obtain ⟨front', rfl, -⟩ := hrest.split
    obtain rfl : front = c :: skipped ++ front' :=
      List.append_cancel_right (hcs.trans (by simp))
    exact ⟨c :: skipped, front', rfl, .inl ⟨hread, hrest⟩⟩
  | @token _ _ c skipped _ _ kind value hread hrest =>
    obtain ⟨front', rfl, -⟩ := hrest.split
    obtain rfl : front = c :: skipped ++ front' :=
      List.append_cancel_right (hcs.trans (by simp))
    exact ⟨c :: skipped, front', rfl, .inr ⟨kind, value, _, hread, rfl, hrest⟩⟩

theorem readNumber?_dot {cs : List Char} (h : startsWithDigit cs = true) :
    ∃ value n, 2 ≤ n ∧ readNumber? ('.' :: cs) = some (.token .number value n) := by
  cases cs with
  | nil => cases h
  | cons d cs =>
    have hd : d.isDigit = true := h
    have hfraction : fractionLength ('.' :: d :: cs) = digitsLength true cs + 2 := by
      simp [fractionLength_dot, digitsLength, hd]
    have hwhole : digitsLength false ('.' :: d :: cs) = 0 := rfl
    simp only [readNumber?, hwhole, List.drop_zero, hfraction, Nat.zero_add]
    exact ⟨_, _, by omega, if_neg (by simp)⟩

/-- In front of a digit `?.` is read as two lexemes, the second of which goes on with the digit. -/
theorem Reads.not_startsWithDigit (h : Reads cursor' a' rest cursor a (['?', '.'] ++ rest) ts) :
    startsWithDigit rest = false := by
  by_contra hdigit
  rw [Bool.not_eq_false] at hdigit
  have hread : readLexeme? a (['?', '.'] ++ rest) = some (punctuation "?" 1) := by
    have hmark : readLexeme? a ('?' :: '.' :: rest) =
        some (if startsWithDigit rest then punctuation "?" 1 else punctuation "?." 2) := by
      cases a <;> rfl
    rw [List.cons_append, List.singleton_append, hmark, if_pos hdigit]
  obtain ⟨lexeme, front', hfront, ⟨hgap, -⟩ | ⟨kind, value, ts', htoken, -, hrest⟩⟩ := h.inv nofun
  · cases hread.symm.trans hgap
  · obtain ⟨-, -, hlength⟩ := Lexeme.token.inj (Option.some_inj.mp (hread.symm.trans htoken))
    obtain ⟨rfl, rfl⟩ : ['?'] = lexeme ∧ ['.'] = front' := List.append_inj hfront hlength
    obtain ⟨lexeme', front'', hfront', hsecond⟩ := hrest.inv nofun
    obtain ⟨v, n, hn, hnumber⟩ := readNumber?_dot hdigit
    have hread' : readLexeme? (isAccess kind value) (['.'] ++ rest) = some (.token .number v n) := by
      rw [List.singleton_append, readLexeme?_of_plain (by decide) (absurd · (by decide)), hnumber]
      rfl
    have hle : lexeme'.length ≤ 1 := by
      have hlength := congrArg List.length hfront'
      simp only [List.length_append, List.length_singleton] at hlength
      omega
    obtain ⟨hgap, -⟩ | ⟨kind', value', ts', htoken', -⟩ := hsecond
    · cases hread'.symm.trans hgap
    · obtain ⟨-, -, hlength⟩ := Lexeme.token.inj (Option.some_inj.mp (hread'.symm.trans htoken'))
      omega

/-- A word is an operator, or a name as far as it goes. -/
theorem readLexeme?_word {c : Char} {cs : List Char} (hc : isNameStart c = true)
    (h : readLexeme? a (c :: cs) = some l) :
    (∃ op ∈ operators, isOperatorAt (c :: cs) op = true ∧
        l = .token .operator (.string op) op.length) ∨
      l = .token .name (.string (String.ofList ((c :: cs).takeWhile isNameChar)))
        ((c :: cs).takeWhile isNameChar).length := by
  rw [readLexeme?_of_isNameStart hc, readSymbol?_eq] at h
  simp only [Option.orElse_eq_orElse, Option.orElse_eq_or, Option.or_eq_some_iff,
    Option.ite_none_right_eq_some] at h
  rcases h with ⟨-, h⟩ | ⟨-, h | ⟨-, h | ⟨-, h⟩⟩⟩
  · exact .inr (readName?_eq_some h)
  · rw [readOperator?, Option.map_eq_some_iff] at h
    obtain ⟨op, hop, rfl⟩ := h
    exact .inl ⟨op, List.mem_of_find?_eq_some hop, List.find?_some hop, rfl⟩
  · have hname := isNameChar_of_readMark? h
    simp [isNameChar, hc] at hname
  · exact .inr (readName?_eq_some h)

/-- Where `not in` is no operator, `not` is read, as an operator or as a name. -/
theorem readLexeme?_not {kind : TokenKind} {value : Value} {n : Nat}
    (hnone : ¬isOperatorAt ("not in".toList ++ rest) "not in" = true)
    (h : readLexeme? a ("not in".toList ++ rest) = some (.token kind value n))
    (hle : n ≤ "not in".toList.length) : n = "not".toList.length ∧ isAccess kind value = false := by
  obtain ⟨op, hop, hat, heq⟩ | heq := readLexeme?_word (by decide) h
  · obtain ⟨rfl, rfl, rfl⟩ := Lexeme.token.inj heq
    rw [← String.length_toList] at hle
    obtain rfl | hsymbol | ⟨rfl, -⟩ :=
      operators_prefix op hop "not in" (by decide) (prefix_of_isOperatorAt hat hle)
    · exact absurd hat hnone
    · exact absurd hsymbol (by decide)
    · exact ⟨rfl, rfl⟩
  · obtain ⟨rfl, rfl, rfl⟩ := Lexeme.token.inj heq
    exact ⟨rfl, rfl⟩

/-- A lexeme that ends with `in` at the latest is `in`, as an operator or as a name. -/
theorem readLexeme?_in {kind : TokenKind} {value : Value} {n : Nat}
    (h : readLexeme? a ("in".toList ++ rest) = some (.token kind value n))
    (hle : n ≤ "in".toList.length) :
    isOperatorAt ("in".toList ++ rest) "in" = true ∨ kind = .name ∧ value = .string "in" := by
  obtain ⟨op, hop, hat, heq⟩ | heq := readLexeme?_word (by decide) h
  · obtain ⟨rfl, rfl, rfl⟩ := Lexeme.token.inj heq
    rw [← String.length_toList] at hle
    obtain rfl | hsymbol | ⟨-, hin⟩ :=
      operators_prefix op hop "in" (by decide) (prefix_of_isOperatorAt hat hle)
    · exact .inl hat
    · exact absurd hsymbol (by decide)
    · exact absurd hin (by decide)
  · obtain ⟨hkind, hvalue, hlength⟩ := Lexeme.token.inj heq
    have htake : ("in".toList ++ rest).takeWhile isNameChar = "in".toList ++ rest.takeWhile isNameChar :=
      rfl
    have hnil : rest.takeWhile isNameChar = [] := by
      change n = (("in".toList ++ rest).takeWhile isNameChar).length at hlength
      rw [htake, List.length_append] at hlength
      exact List.eq_nil_of_length_eq_zero (by omega)
    change value = .string (String.ofList (("in".toList ++ rest).takeWhile isNameChar)) at hvalue
    rw [htake, hnil] at hvalue
    exact .inr ⟨hkind, hvalue⟩

/-- Where the text goes on behind `in` as behind an operator, `not in` is one. -/
theorem Reads.isOperatorAt_notIn (h : Reads cursor' a' rest cursor a ("not in".toList ++ rest) ts)
    (hfree : SparesWords a ts) : isOperatorAt ("not in".toList ++ rest) "not in" = true := by
  by_contra hnone
  obtain ⟨lexeme, front', hfront, ⟨hgap, -⟩ | ⟨kind, value, ts', htoken, rfl, hrest⟩⟩ := h.inv (by decide)
  · obtain hc | ⟨hc, -⟩ := eq_of_readLexeme?_gap hgap <;> exact absurd hc (by decide)
  have hle : lexeme.length ≤ "not in".toList.length := by
    rw [hfront, List.length_append]
    exact Nat.le_add_right _ _
  obtain ⟨hlength, haccess⟩ := readLexeme?_not hnone htoken hle
  obtain ⟨rfl, rfl⟩ : "not".toList = lexeme ∧ " in".toList = front' :=
    List.append_inj hfront hlength.symm
  rw [haccess] at hrest
  -- Behind `not` a space is read, and then `in`.
  obtain ⟨lexeme, front', hfront, ⟨hgap, hrest⟩ | ⟨_, _, _, htoken, -⟩⟩ := hrest.inv (by decide)
  swap
  · cases htoken
  have hlength := Lexeme.gap.inj (Option.some_inj.mp hgap)
  obtain ⟨rfl, rfl⟩ : [' '] = lexeme ∧ "in".toList = front' := List.append_inj hfront hlength
  obtain ⟨lexeme, front', hfront, ⟨hgap, -⟩ | ⟨kind, value, ts', htoken, rfl, -⟩⟩ := hrest.inv (by decide)
  · obtain hc | ⟨hc, -⟩ := eq_of_readLexeme?_gap hgap <;> exact absurd hc (by decide)
  have hle : lexeme.length ≤ "in".toList.length := by
    rw [hfront, List.length_append]
    exact Nat.le_add_right _ _
  obtain hat | ⟨rfl, rfl⟩ := readLexeme?_in htoken hle
  · obtain ⟨rest', hrest', halone⟩ := isOperatorAt_iff.mp hat
    obtain rfl : rest = rest' := @List.append_cancel_left _ "in".toList _ _ hrest'
    exact hnone (isOperatorAt_iff.mpr ⟨rest, rfl, fun _ => halone rfl⟩)
  · have hname := hfree.2
    rw [haccess] at hname
    exact hname.1 rfl rfl _ rfl (by decide)

/-- What a scan makes of a text does not change up to the space that is put in front of `rest`. -/
theorem Reads.scan_spaced (h : Reads cursor' a' rest cursor a cs ts) (hfree : SparesWords a ts')
    (hscan : scan cursor brackets a 0 cs = .ok ts') :
    ∃ front brackets' behind, cs = front ++ rest ∧ ts' = ts ++ behind ∧
      scan cursor' brackets' a' 0 rest = .ok behind ∧
      scan cursor brackets a 0 (front ++ ' ' :: rest) =
        (ts ++ ·) <$> scan (cursor' + 1) brackets' a' 0 rest := by
  induction h generalizing brackets ts' with
  | done =>
    refine ⟨[], brackets, ts', rfl, rfl, hscan, ?_⟩
    have hspace : scan cursor' brackets a' 0 (' ' :: rest) = scan (cursor' + 1) brackets a' 0 rest :=
      rfl
    rw [List.nil_append, hspace]
    cases scan (cursor' + 1) brackets a' 0 rest <;> rfl
  | @gap cursor a c skipped cs ts hread hrest ih =>
    rw [scan_of_gap hread] at hscan
    obtain ⟨front, brackets', behind, rfl, hbehind, hscan', hspaced⟩ := ih hfree hscan
    refine ⟨c :: skipped ++ front, brackets', behind, by simp, hbehind, hscan', ?_⟩
    rw [← hspaced]
    have hread : readLexeme? a (c :: skipped ++ front ++ rest) = some (.gap (skipped.length + 1)) := by
      simpa using hread
    obtain hread' | ⟨rfl, hlength, hread'⟩ := readLexeme?_gap_spaced (by simp) hread (by simp)
    · rw [List.append_assoc, List.cons_append] at hread' ⊢
      exact scan_of_gap hread'
    · obtain rfl : front = [] := List.eq_nil_of_length_eq_zero (by simpa using hlength)
      rw [List.append_nil, List.cons_append] at hread' ⊢
      have hlonger : scan cursor brackets a 0 (c :: (skipped ++ [' '] ++ [])) = _ :=
        scan_of_gap (by simpa using hread')
      rw [List.append_nil] at hlonger
      rw [hlonger, List.length_append, List.length_singleton]
      rfl
  | @token cursor a c skipped cs ts kind value hread hrest ih =>
    obtain ⟨opened, ts₁, htrack, hrun, rfl⟩ := exists_scan_of_token hread hscan
    obtain ⟨front, brackets', behind, rfl, rfl, hscan', hspaced⟩ := ih hfree.2 hrun
    refine ⟨c :: skipped ++ front, brackets', behind, by simp, rfl, hscan', ?_⟩
    have hreads := Reads.token hread hrest
    have htext : c :: (skipped ++ (front ++ rest)) = c :: skipped ++ front ++ rest := by simp
    rw [htext] at hread hreads
    have hread' : readLexeme? a (c :: skipped ++ front ++ ' ' :: rest) =
        some (.token kind value (skipped.length + 1)) := by
      refine readLexeme?_spaced (by simp) hread (by simp) (fun hxs => ?_) (fun hxs => ?_) hfree.1
      · rw [hxs] at hreads
        exact hreads.not_startsWithDigit
      · rw [hxs] at hreads ⊢
        exact hreads.isOperatorAt_notIn (SparesWords.of_append hfree)
    rw [List.append_assoc, List.cons_append] at hread' ⊢
    rw [scan_of_token hread', htrack]
    simp only [bind, Except.bind, hspaced]
    cases scan (cursor' + 1) brackets' a' 0 rest <;> rfl

theorem track_moved {c : Char} (hsame : brackets.map Prod.fst = brackets'.map Prod.fst)
    {opened : Brackets} (h : track cursor c brackets = .ok opened) :
    ∃ opened', track (cursor + 1) c brackets' = .ok opened' ∧
      opened.map Prod.fst = opened'.map Prod.fst := by
  unfold track at h ⊢
  split
  · rename_i hopening
    rw [if_pos hopening] at h
    obtain rfl := Except.ok.inj h
    exact ⟨_, rfl, congrArg (c :: ·) hsame⟩
  · rename_i hopening
    rw [if_neg hopening] at h
    split
    · rename_i hclosing
      rw [if_pos hclosing] at h
      match brackets, brackets', hsame with
      | [], [], _ => cases h
      | (opening, place) :: brackets, (opening', place') :: brackets', hsame =>
        obtain ⟨hopening, hbelow⟩ := List.cons.inj hsame
        obtain rfl : opening = opening' := hopening
        dsimp only at h ⊢
        split
        · rename_i hfits
          rw [if_pos hfits] at h
          obtain rfl := Except.ok.inj h
          exact ⟨_, rfl, hbelow⟩
        · rename_i hdiffers
          rw [if_neg hdiffers] at h
          cases h
    · rename_i hclosing
      rw [if_neg hclosing] at h
      obtain rfl := Except.ok.inj h
      exact ⟨_, rfl, hsame⟩

/-- A text that begins one character later has the same tokens there. -/
theorem scan_moved {skip : Nat} (hsame : brackets.map Prod.fst = brackets'.map Prod.fst)
    (h : scan cursor brackets a skip cs = .ok ts) :
    scan (cursor + 1) brackets' a skip cs = .ok (ts.map fun t => { t with cursor := t.cursor + 1 }) := by
  -- The places of the open brackets differ as well, so that only their characters are kept.
  induction cs generalizing cursor brackets brackets' a skip ts with
  | nil =>
    match brackets, brackets', hsame with
    | [], [], _ =>
      obtain rfl := Except.ok.inj h
      rfl
    | _ :: _, _ :: _, _ => cases h
  | cons c cs ih =>
    cases skip with
    | succ skip => exact ih hsame h
    | zero =>
      have hsteps := steps_scan cursor brackets a c cs
      rw [h] at hsteps
      rw [scan]
      cases hsteps with
      | gap hread hscan =>
        rw [hread]
        exact ih hsame hscan
      | token hread htrack hscan =>
        obtain ⟨opened', htrack', hsame'⟩ := track_moved hsame htrack
        simp only [hread, htrack', bind, Except.bind, ih hsame' hscan]
        rfl

theorem Reads.trans {cursor'' : Nat} {a'' : Bool} {rest' : List Char}
    (h : Reads cursor' a' rest cursor a cs ts) (h' : Reads cursor'' a'' rest' cursor' a' rest ts') :
    Reads cursor'' a'' rest' cursor a cs (ts ++ ts') := by
  induction h with
  | done => exact h'
  | gap hread _ ih => exact .gap hread ih
  | token hread _ ih => exact .token hread ih

theorem Reads.lt_cursor (h : Reads cursor' a' rest cursor a cs ts) : ∀ t ∈ ts, t.cursor < cursor' := by
  induction h with
  | done => simp
  | gap _ _ ih => exact ih
  | token _ hrest ih =>
    obtain ⟨_, -, rfl⟩ := hrest.split
    refine List.forall_mem_cons.mpr ⟨?_, ih⟩
    dsimp only
    omega

/-- The whole of a text that is accepted is read. -/
theorem exists_reads_of_scan (h : scan cursor brackets a 0 cs = .ok ts) :
    ∃ a' ts', Reads (cursor + cs.length) a' [] cursor a cs ts' := by
  induction hn : cs.length using Nat.strongRecOn generalizing cursor brackets a cs ts with
  | _ n ih =>
    subst hn
    cases cs with
    | nil => exact ⟨a, [], .done⟩
    | cons c cs =>
      obtain hread | ⟨skipped, rest, rfl, hread⟩ := readLexeme?_cases a c cs
      · rw [scan_of_none hread] at h
        cases h
      have hlength : cursor + (c :: (skipped ++ rest)).length =
          cursor + (skipped.length + 1) + rest.length := by
        simp only [List.length_cons, List.length_append]
        omega
      rw [hlength]
      have hlt : rest.length < (c :: (skipped ++ rest)).length := by simp
      obtain hread | ⟨kind, value, hread⟩ := hread
      · rw [scan_of_gap hread] at h
        obtain ⟨a', ts', hreads⟩ := ih _ hlt h rfl
        exact ⟨a', ts', .gap hread hreads⟩
      · obtain ⟨opened, ts', -, hrest, -⟩ := exists_scan_of_token hread h
        obtain ⟨a', ts', hreads⟩ := ih _ hlt hrest rfl
        exact ⟨a', _, .token hread hreads⟩

/-- In front of a seam whole lexemes are read. -/
theorem IsSeam.exists_reads {k : Nat} (h : IsSeam cs k) (hscan : scan 1 [] false 0 cs = .ok ts) :
    ∃ a rest ts', Reads (k + 1) a rest 1 false cs ts' := by
  cases h with
  | start => exact ⟨false, cs, [], .done⟩
  | finish =>
    obtain ⟨a, ts', hreads⟩ := exists_reads_of_scan hscan
    rw [Nat.add_comm] at hreads
    exact ⟨a, [], ts', hreads⟩
  | before hreads _ => exact ⟨_, _, _, hreads⟩
  | @behind place a rest ts' kind value n hreads hread =>
    cases rest with
    | nil => cases hread
    | cons c cs' =>
      obtain hnone | ⟨skipped, rest', rfl, hgap | ⟨kind', value', hread'⟩⟩ := readLexeme?_cases a c cs'
      · cases hread.symm.trans hnone
      · cases hread.symm.trans hgap
      · obtain ⟨rfl, rfl, rfl⟩ := Lexeme.token.inj (Option.some_inj.mp (hread.symm.trans hread'))
        have hmore := hreads.trans (.token hread .done)
        rw [Nat.add_right_comm] at hmore
        exact ⟨_, _, _, hmore⟩

/-- A space at the beginning or the end of a text, or at an end of a token, only moves the tokens
behind it. -/
theorem tokenize_spaced {text : String} {stream : TokenStream} {k : Nat}
    (h : tokenize text = .ok stream) (hfree : SparesWords false stream.tokens)
    (hseam : IsSeam (text.toList.map normalize) k) :
    ∃ stream', tokenize (String.ofList (text.toList.take k ++ ' ' :: text.toList.drop k)) =
        .ok stream' ∧
      stream'.tokens = stream.tokens.map (Token.movedFrom (k + 1)) := by
  obtain ⟨hscan, -⟩ := scan_of_tokenize h
  obtain ⟨a, rest, ts, hreads⟩ := hseam.exists_reads hscan
  obtain ⟨front, brackets, behind, htext, htokens, hbehind, hspaced⟩ := hreads.scan_spaced hfree hscan
  obtain ⟨front', htext', hlength⟩ := hreads.split
  obtain rfl : front = front' := List.append_cancel_right (htext.symm.trans htext')
  obtain rfl : k = front.length := by omega
  have hnormal : (text.toList.take front.length ++ ' ' :: text.toList.drop front.length).map normalize =
      front ++ ' ' :: rest := by
    rw [List.map_append, List.map_cons, List.map_take, List.map_drop, htext, List.take_left,
      List.drop_left]
    rfl
  have hscan' : scan 1 [] false 0 (front ++ ' ' :: rest) =
      .ok (ts ++ behind.map fun t => { t with cursor := t.cursor + 1 }) := by
    rw [hspaced, scan_moved rfl hbehind]
    rfl
  obtain ⟨stream', h'⟩ : ∃ stream', tokenize (String.ofList
      (text.toList.take front.length ++ ' ' :: text.toList.drop front.length)) = .ok stream' := by
    rw [tokenize, String.toList_ofList, hnormal, hscan']
    exact ⟨_, rfl⟩
  refine ⟨stream', h', ?_⟩
  have hsame := (scan_of_tokenize h').1
  rw [String.toList_ofList, hnormal, hscan', Except.ok.injEq] at hsame
  rw [← hsame, htokens, List.map_append]
  congr 1
  · refine (List.map_id ts).symm.trans (List.map_congr_left fun t ht => ?_)
    have hlt := hreads.lt_cursor t ht
    rw [Token.movedFrom, if_neg (by omega)]
    rfl
  · refine List.map_congr_left fun t ht => ?_
    have hle := (covers_scan hbehind).le_cursor t ht
    rw [Token.movedFrom, if_pos hle]

theorem tokenize_spaced_condition :
    ∃ stream stream', tokenize "a.in?.5:b" = .ok stream ∧ SparesWords false stream.tokens ∧
      IsSeam ("a.in?.5:b".toList.map normalize) 5 ∧ tokenize "a.in? .5:b" = .ok stream' ∧
      stream'.tokens = stream.tokens.map (Token.movedFrom 6) := by
  have h : tokenize "a.in?.5:b" = .ok ⟨"a.in?.5:b", [], ⟨.name, .string "a", 1⟩,
      [⟨.punctuation, .string ".", 2⟩, ⟨.name, .string "in", 3⟩, ⟨.punctuation, .string "?", 5⟩,
        ⟨.number, numberValue false ['.', '5'], 6⟩, ⟨.punctuation, .string ":", 8⟩,
        ⟨.name, .string "b", 9⟩, Token.ending 10]⟩ := rfl
  obtain ⟨stream, h, hfree⟩ :
      ∃ stream, tokenize "a.in?.5:b" = .ok stream ∧ SparesWords false stream.tokens :=
    ⟨_, h, by simp [TokenStream.tokens, SparesWords, isAccess, leadingWords, operatorWords, Token.ending]⟩
  have hreads : Reads 5 false "?.5:b".toList 1 false "a.in?.5:b".toList
      [⟨.name, .string "a", 1⟩, ⟨.punctuation, .string ".", 2⟩, ⟨.name, .string "in", 3⟩] :=
    @Reads.token _ _ _ 1 _ 'a' [] ".in?.5:b".toList _ .name _ rfl <|
      @Reads.token _ _ _ 2 _ '.' [] "in?.5:b".toList _ .punctuation _ rfl <|
        @Reads.token _ _ _ 3 _ 'i' ['n'] "?.5:b".toList _ .name _ rfl .done
  have hread : readLexeme? false "?.5:b".toList = some (.token .punctuation (.string "?") 1) := rfl
  have hseam : IsSeam ("a.in?.5:b".toList.map normalize) 5 := IsSeam.behind hreads hread
  obtain ⟨stream', h', htokens⟩ := tokenize_spaced h hfree hseam
  exact ⟨stream, stream', h, hfree, hseam, h', htokens⟩

end Lexer
end Formula
