import Mathlib
import Formula.Proofs.Parsing.Derivation
import Formula.Proofs.Token.Brackets

/-! Where the entries of hash literals begin among the tokens of an expression, and what stands there
as a key. -/

namespace Formula

namespace Content

def bracket? (c : Content) : Option Char := (c.token 0).bracket?

/-- The brackets among some contents. -/
def brackets (cs : List Content) : List Char := cs.filterMap bracket?

/-- Neither a bracket nor a comma nor an end. -/
def isPlain (c : Content) : Bool := c.bracket?.isNone && c.kind != .ending && !c.isMark ","

variable {c : Content} {cs : List Content}

theorem isPlain_of_isMark {s : String} (h : c.isMark s = true) (hs : (mark s).isPlain = true) :
    c.isPlain = true := isMark_iff.mp h ▸ hs

theorem isPlain_of_kind (h : c.kind ≠ .punctuation) (h' : c.kind ≠ .ending) : c.isPlain = true := by
  have hbracket : c.bracket? = none := by
    by_contra hsome
    obtain ⟨b, hb⟩ := Option.ne_none_iff_exists'.mp hsome
    have hmark : c = mark b.toString := (Lexer.bracket?_eq_some_iff.mp hb).1
    rw [hmark] at h
    exact h rfl
  simp [isPlain, hbracket, h', isMark_of_kind h]

theorem isPlain_of_unaryOp? {op : UnaryOp} (h : c.unaryOp? = some op) : c.isPlain = true := by
  have hkind := Parsing.kind_of_unaryOp? h
  exact isPlain_of_kind (by simp [hkind]) (by simp [hkind])

theorem isPlain_of_binaryOp? {op : BinaryOp} (h : c.binaryOp? = some op) : c.isPlain = true := by
  have hkind := Parsing.kind_of_binaryOp? h
  exact isPlain_of_kind (by simp [hkind]) (by simp [hkind])

theorem isPlain_of_memberName? {name : String} (h : Parsing.memberName? (c.token 0) = some name) :
    c.isPlain = true := by
  have hkind : c.kind = .name ∨ c.kind = .operator := by
    unfold Parsing.memberName? at h
    split at h
    · rename_i hkind
      exact .inl hkind
    · rename_i hkind
      exact .inr hkind
    · cases h
  rcases hkind with hkind | hkind <;> exact isPlain_of_kind (by simp [hkind]) (by simp [hkind])

theorem bracket?_of_isMark {b : Char} (hb : (Lexer.isOpening b || Lexer.isClosing b) = true)
    (h : c.isMark b.toString = true) : c.bracket? = some b :=
  Lexer.bracket?_eq_some_iff.mpr ⟨isMark_iff.mp h, hb⟩

end Content

/-- What the tokens in front of a place leave behind: the brackets that are open, the innermost first,
and whether the last token is an opening brace or a comma. -/
structure Place where
  brackets : List Char
  isFresh : Bool

namespace Place

def start : Place := ⟨[], false⟩

/-- The place behind one more token. -/
def next (p : Place) (c : Content) : Place where
  brackets := match c.bracket? with
    | some b => if Lexer.isOpening b then b :: p.brackets else p.brackets.tail
    | none => p.brackets
  isFresh := c.isMark "\x7b" || c.isMark ","

/-- Whether an entry of a hash literal begins here, unless the literal ends. -/
def BeginsEntry (p : Place) : Prop := p.brackets.head? = some '{' ∧ p.isFresh = true

theorem next_of_opening {p : Place} {c : Content} {b : Char} (hc : c.bracket? = some b)
    (hb : Lexer.isOpening b = true) : p.next c = ⟨b :: p.brackets, b == '{'⟩ := by
  obtain rfl : c = .mark b.toString := (Lexer.bracket?_eq_some_iff.mp hc).1
  rw [next, hc]
  simp only [hb, if_true]
  simp only [Lexer.isOpening, Bool.or_eq_true, beq_iff_eq] at hb
  rcases hb with (rfl | rfl) | rfl <;> rfl

theorem next_of_closing {p : Place} {c : Content} {b : Char}
    (hc : c.bracket? = some (Lexer.closing b)) : p.next c = ⟨p.brackets.tail, false⟩ := by
  obtain rfl : c = .mark (Lexer.closing b).toString := (Lexer.bracket?_eq_some_iff.mp hc).1
  rw [next, hc]
  have hclosing : Lexer.closing b = ')' ∨ Lexer.closing b = ']' ∨ Lexer.closing b = '}' := by
    unfold Lexer.closing
    split <;> simp
  rcases hclosing with hb | hb | hb <;> rw [hb] <;> rfl

theorem not_beginsEntry_of_stale {p : Place} (h : p.isFresh = false) : ¬p.BeginsEntry :=
  fun hentry => by simp [hentry.2] at h

end Place

/-- A string, a name, a number or one group in parentheses, and a colon. -/
inductive HasPlainKey : List Content → Prop
  | token {c colon rest} : c.kind = .string ∨ c.kind = .name ∨ c.kind = .number →
      colon.isMark ":" = true → HasPlainKey (c :: colon :: rest)
  | group {o inside d colon rest} : o.isMark "(" = true → Lexer.Nested (Content.brackets inside) →
      d.isMark ")" = true → colon.isMark ":" = true → HasPlainKey (o :: (inside ++ d :: colon :: rest))

/-- An expression and a colon, where the expression goes on behind the group in parentheses that it
begins with. -/
inductive HasExtendedKey (scope : Scope) : List Content → Prop
  | mk {o inside d c mid e colon rest} : o.isMark "(" = true → Lexer.Nested (Content.brackets inside) →
      d.isMark ")" = true → c.goesOn = true → c.isMark "(" = false →
      Derives scope (o :: (inside ++ d :: c :: mid)) (.expr e) (colon :: rest) →
      colon.isMark ":" = true → HasExtendedKey scope (o :: (inside ++ d :: c :: mid))

/-- From a place on, tokens that have their brackets in pairs are taken, and `K` holds of whatever lies
ahead where an entry begins. The flag tells whether the last token is an opening brace or a comma. -/
inductive Passes (K : List Content → Prop) : Place → List Content → Bool → List Content → Prop
  | done {p cs} : Passes K p cs p.isFresh cs
  | single {p c cs fresh rest} : c.bracket? = none → c.kind ≠ .ending → (p.BeginsEntry → K (c :: cs)) →
      Passes K (p.next c) cs fresh rest → Passes K p (c :: cs) fresh rest
  | pair {p o b cs inner d mid fresh rest} : o.bracket? = some b → Lexer.isOpening b = true →
      (p.BeginsEntry → K (o :: cs)) → Passes K (p.next o) cs inner (d :: mid) →
      d.bracket? = some (Lexer.closing b) → Passes K ⟨p.brackets, false⟩ mid fresh rest →
      Passes K p (o :: cs) fresh rest

namespace Passes

variable {K : List Content → Prop} {p : Place} {cs mid rest : List Content} {fresh fresh' : Bool}
  {c o d : Content} {b : Char}

theorem trans (h : Passes K p cs fresh mid) (h' : Passes K ⟨p.brackets, fresh⟩ mid fresh' rest) :
    Passes K p cs fresh' rest := by
  induction h with
  | done => exact h'
  | single hbracket hkind hkey _ ih =>
    refine .single hbracket hkind hkey (ih ?_)
    rw [Place.next, hbracket]
    exact h'
  | pair ho hb hkey hinner hd _ _ ih => exact .pair ho hb hkey hinner hd (ih h')

theorem plain (hc : c.isPlain = true) (hkey : p.BeginsEntry → K (c :: cs))
    (h : Passes K ⟨p.brackets, false⟩ cs fresh rest) : Passes K p (c :: cs) fresh rest := by
  simp only [Content.isPlain, Bool.and_eq_true, Option.isNone_iff_eq_none, bne_iff_ne, ne_eq,
    Bool.not_eq_true'] at hc
  obtain ⟨⟨hbracket, hkind⟩, hcomma⟩ := hc
  have hbrace : c.isMark "\x7b" = false := by
    by_contra hbrace
    rw [Bool.not_eq_false] at hbrace
    rw [Content.isMark_iff.mp hbrace] at hbracket
    cases hbracket
  refine .single hbracket hkind hkey ?_
  rw [Place.next, hbracket, hbrace, hcomma]
  exact h

/-- No entry begins behind a token that is neither an opening brace nor a comma. -/
theorem stale {brackets : List Char}
    (h : ∀ p : Place, (p.BeginsEntry → K cs) → Passes K p cs fresh rest) :
    Passes K ⟨brackets, false⟩ cs fresh rest :=
  h _ (absurd · (Place.not_beginsEntry_of_stale rfl))

theorem step {brackets : List Char} (hc : c.isPlain = true)
    (h : Passes K ⟨brackets, false⟩ cs fresh rest) : Passes K ⟨brackets, false⟩ (c :: cs) fresh rest :=
  .plain hc (absurd · (Place.not_beginsEntry_of_stale rfl)) h

theorem mark {brackets : List Char} {s : String} (hc : c.isMark s = true)
    (hs : (Content.mark s).isPlain = true) (h : Passes K ⟨brackets, false⟩ cs fresh rest) :
    Passes K ⟨brackets, false⟩ (c :: cs) fresh rest :=
  step (Content.isPlain_of_isMark hc hs) h

theorem comma (hc : c.isMark "," = true) (hp : ¬p.BeginsEntry)
    (h : Passes K ⟨p.brackets, true⟩ cs fresh rest) : Passes K p (c :: cs) fresh rest := by
  obtain rfl := Content.isMark_iff.mp hc
  exact .single rfl nofun (absurd · hp) h

theorem bracketed (b : Char) (hb : Lexer.isOpening b = true) (ho : o.isMark b.toString = true)
    (hkey : p.BeginsEntry → K (o :: cs))
    (h : Passes K ⟨b :: p.brackets, b == '{'⟩ cs fresh (d :: rest))
    (hd : d.isMark (Lexer.closing b).toString = true) : Passes K p (o :: cs) false rest := by
  have hbracket := Content.bracket?_of_isMark (by rw [hb, Bool.true_or]) ho
  have hclose : Lexer.isClosing (Lexer.closing b) = true := by
    unfold Lexer.closing
    split <;> rfl
  refine .pair hbracket hb hkey (Place.next_of_opening hbracket hb ▸ h)
    (Content.bracket?_of_isMark ?_ hd) .done
  rw [hclose, Bool.or_true]

/-- What is passed has its brackets in pairs and no end among its tokens. -/
theorem split (h : Passes K p cs fresh rest) :
    ∃ taken, cs = taken ++ rest ∧ taken.foldl Place.next p = ⟨p.brackets, fresh⟩ ∧
      Lexer.Nested (Content.brackets taken) ∧ ∀ c ∈ taken, c.kind ≠ .ending := by
  induction h with
  | done => exact ⟨[], rfl, rfl, .nil, by simp⟩
  | @single p c cs fresh rest hbracket hkind _ _ ih =>
    obtain ⟨taken, rfl, hplace, hnested, hkinds⟩ := ih
    refine ⟨c :: taken, rfl, ?_, ?_, List.forall_mem_cons.mpr ⟨hkind, hkinds⟩⟩
    · rw [List.foldl_cons, hplace, Place.next, hbracket]
    · rwa [Content.brackets, List.filterMap_cons_none hbracket]
  | @pair p o b cs inner d mid fresh rest ho hb _ _ hd _ ihinner ih =>
    obtain ⟨inside, rfl, hplace, hnested, hkinds⟩ := ihinner
    obtain ⟨taken, rfl, hplace', hnested', hkinds'⟩ := ih
    have hkind {c : Content} {b : Char} (hc : c.bracket? = some b) : c.kind ≠ .ending := by
      rw [show c = .mark b.toString from (Lexer.bracket?_eq_some_iff.mp hc).1]
      nofun
    refine ⟨o :: (inside ++ d :: taken), by simp, ?_, ?_, ?_⟩
    · rw [List.foldl_cons, List.foldl_append, hplace, List.foldl_cons, Place.next_of_closing hd,
        Place.next_of_opening ho hb]
      exact hplace'
    · have hbrackets : Content.brackets (o :: (inside ++ d :: taken)) =
          b :: (Content.brackets inside ++ Lexer.closing b :: Content.brackets taken) := by
        simp [Content.brackets, ho, hd]
      rw [hbrackets]
      exact .pair hb hnested hnested'
    · simp only [List.forall_mem_cons, List.forall_mem_append]
      exact ⟨hkind ho, hkinds, hkind hd, hkinds'⟩

/-- At each place where an entry begins, `K` holds of what lies ahead, or the literal ends. -/
theorem keys (h : Passes K p cs fresh rest) {front behind : List Content}
    (hsplit : cs = front ++ c :: behind) (hlength : rest.length ≤ behind.length)
    (hentry : (front.foldl Place.next p).BeginsEntry) :
    c.isMark "\x7d" = true ∨ K (c :: behind) := by
  induction h generalizing front behind with
  | done =>
    rw [hsplit] at hlength
    simp only [List.length_append, List.length_cons] at hlength
    omega
  | single _ _ hkey _ ih =>
    cases front with
    | nil =>
      obtain ⟨rfl, rfl⟩ := List.cons.inj hsplit
      exact .inr (hkey hentry)
    | cons d front =>
      obtain ⟨rfl, hrest⟩ := List.cons.inj hsplit
      exact ih hrest hlength hentry
  | @pair p o b cs inner d mid fresh rest ho hb hkey hinner hd _ ihinner ih =>
    cases front with
    | nil =>
      obtain ⟨rfl, rfl⟩ := List.cons.inj hsplit
      exact .inr (hkey hentry)
    | cons o' front =>
      obtain ⟨rfl, hrest⟩ := List.cons.inj hsplit
      obtain ⟨inside, rfl, hplace, -⟩ := hinner.split
      rw [Place.next_of_opening ho hb] at hplace
      rw [List.foldl_cons, Place.next_of_opening ho hb] at hentry
      have hclosing (hentry : Place.BeginsEntry ⟨b :: p.brackets, inner⟩) : d.isMark "\x7d" = true := by
        obtain rfl : b = '{' := Option.some_inj.mp hentry.1
        rw [show d = .mark (Lexer.closing '{').toString from (Lexer.bracket?_eq_some_iff.mp hd).1]
        rfl
      -- The place lies inside the pair, at its closing bracket or behind it.
      obtain ⟨front', rfl, hbehind⟩ | ⟨behind', rfl, hbehind⟩ := List.append_eq_append_iff.mp hrest
      · rw [List.foldl_append, hplace] at hentry
        cases front' with
        | nil =>
          obtain ⟨rfl, -⟩ := List.cons.inj hbehind
          exact .inl (hclosing hentry)
        | cons d' front' =>
          obtain ⟨rfl, rfl⟩ := List.cons.inj hbehind
          rw [List.foldl_cons, Place.next_of_closing hd] at hentry
          exact ih rfl hlength hentry
      · cases behind' with
        | nil =>
          obtain ⟨rfl, -⟩ := List.cons.inj hbehind
          rw [List.append_nil] at hplace
          exact .inl (hclosing (hplace ▸ hentry))
        | cons c' behind' =>
          obtain ⟨rfl, rfl⟩ := List.cons.inj hbehind
          refine ihinner (List.append_assoc front (c :: behind') (d :: mid)) (by simp) ?_
          rw [Place.next_of_opening ho hb]
          exact hentry

end Passes

theorem Separates.passes {α : Type} {K : List Content → Prop} {as : List α} {brackets : List Char}
    {fresh : Bool} {cs rest : List Content} (h : Separates as cs rest)
    (hentry : as ≠ [] → ¬Place.BeginsEntry ⟨brackets, fresh⟩) :
    Passes K ⟨brackets, fresh⟩ cs (fresh || !as.isEmpty) rest := by
  cases h with
  | first =>
    rw [List.isEmpty_nil, Bool.not_true, Bool.or_false]
    exact .done
  | comma hne hcomma =>
    rw [List.isEmpty_eq_false_iff.mpr hne, Bool.not_false, Bool.or_true]
    exact .comma hcomma (hentry hne) .done

/-- How the tokens are passed that a phrase is made of. The entries of a literal begin behind its brace. -/
def Phrase.Passes (K : List Content → Prop) (cs rest : List Content) : Phrase → Prop
  | expr _ | arguments _ => ∀ p : Place, (p.BeginsEntry → K cs) → Formula.Passes K p cs false rest
  | exprs _ => ∀ p : Place, p.brackets.head? ≠ some '{' → ∃ fresh, Formula.Passes K p cs fresh rest
  | key _ => ∀ p d behind, rest = d :: behind → d.isMark ":" = true → Formula.Passes K p cs false rest
  | entries es => ∀ brackets, Formula.Passes K ⟨'{' :: brackets, true⟩ cs es.isEmpty rest

theorem Derives.passes {scope : Scope} {K : List Content → Prop}
    (hK : ∀ cs k d rest, Derives scope cs (.key k) (d :: rest) → d.isMark ":" = true → K cs)
    {cs rest : List Content} {phrase : Phrase} (h : Derives scope cs phrase rest) :
    phrase.Passes K cs rest := by
  induction h with
  | @literal c _ hkind =>
    intro p hp
    have hplain : c.isPlain = true := by
      rcases hkind with h | h <;> exact Content.isPlain_of_kind (by simp [h]) (by simp [h])
    exact .plain hplain hp .done
  | constant hkind _ | name hkind _ | coalescedName hkind _ _ =>
    intro p hp
    exact .plain (Content.isPlain_of_kind (by simp [hkind]) (by simp [hkind])) hp .done
  | call hkind _ _ ih =>
    intro p hp
    exact .plain (Content.isPlain_of_kind (by simp [hkind]) (by simp [hkind])) hp (.stale ih)
  | enclosed ho _ hd ih =>
    intro p hp
    exact .bracketed '(' rfl ho hp (.stale ih) hd
  | unary hop _ ih =>
    intro p hp
    exact .plain (Content.isPlain_of_unaryOp? hop) hp (.stale ih)
  | binary _ hop _ ihl ihr =>
    intro p hp
    exact (ihl p hp).trans (.step (Content.isPlain_of_binaryOp? hop) (.stale ihr))
  | coalesce _ hmark _ ihl ihf =>
    intro p hp
    exact (ihl p hp).trans (.mark hmark rfl (.stale ihf))
  | conditional _ hq _ hd _ ihc ihy ihn =>
    intro p hp
    refine (ihc p hp).trans (.mark hq rfl ?_)
    exact (Passes.stale ihy).trans (.mark hd rfl (.stale ihn))
  | conditionalNull _ hq _ ihc ihy =>
    intro p hp
    exact (ihc p hp).trans (.mark hq rfl (.stale ihy))
  | conditionalSelf _ hq hd _ ihc ihn =>
    intro p hp
    exact (ihc p hp).trans (.mark hq rfl (.mark hd rfl (.stale ihn)))
  | property nullSafe _ hdot hname ih =>
    intro p hp
    refine (ih p hp).trans (.mark hdot (by cases nullSafe <;> rfl) ?_)
    exact .step (Content.isPlain_of_memberName? hname) .done
  | method nullSafe _ hdot hname _ ih ihas =>
    intro p hp
    refine (ih p hp).trans (.mark hdot (by cases nullSafe <;> rfl) ?_)
    exact .step (Content.isPlain_of_memberName? hname) (.stale ihas)
  | index _ hb _ hd ih ihk =>
    intro p hp
    exact (ih p hp).trans (.stale fun _ hkey => .bracketed '[' rfl hb hkey (.stale ihk) hd)
  | nullSafeIndex _ hq hb _ hd ih ihk =>
    intro p hp
    refine (ih p hp).trans (.mark hq rfl ?_)
    exact .stale fun _ hkey => .bracketed '[' rfl hb hkey (.stale ihk) hd
  | list ho _ hmid hd ih =>
    intro p hp
    obtain ⟨fresh, hes⟩ := ih ⟨'[' :: p.brackets, false⟩ (by simp)
    obtain rfl | hmid := hmid
    · exact .bracketed '[' rfl ho hp hes hd
    · exact .bracketed '[' rfl ho hp (hes.trans (hmid.passes fun _ h => by simp [Place.BeginsEntry] at h)) hd
  | hash ho _ hmid hd ih =>
    intro p hp
    obtain rfl | hmid := hmid
    · exact .bracketed '{' rfl ho hp (ih p.brackets) hd
    · exact .bracketed '{' rfl ho hp ((ih p.brackets).trans
        (hmid.passes fun hes => Place.not_beginsEntry_of_stale (by simpa using hes))) hd
  | noExprs => exact fun p _ => ⟨_, .done⟩
  | nextExpr _ hseparates _ ihes ihe =>
    intro p hp
    have hnone (fresh : Bool) : ¬Place.BeginsEntry ⟨p.brackets, fresh⟩ := fun h => hp h.1
    obtain ⟨fresh, hes⟩ := ihes p hp
    exact ⟨false, (hes.trans (hseparates.passes fun _ => hnone _)).trans (ihe _ (absurd · (hnone _)))⟩
  | arguments ho _ hd ih =>
    intro p hp
    obtain ⟨fresh, has⟩ := ih ⟨'(' :: p.brackets, false⟩ (by simp)
    exact .bracketed '(' rfl ho hp has hd
  | @keyToken c _ hkind =>
    rintro p d behind rfl hd
    have hplain : c.isPlain = true := by
      rcases hkind with h | h | h <;> exact Content.isPlain_of_kind (by simp [h]) (by simp [h])
    exact .plain hplain (fun _ => hK _ _ _ _ (.keyToken hkind) hd) .done
  | keyExpr hc he ih =>
    rintro p d behind rfl hd
    exact ih p fun _ => hK _ _ _ _ (.keyExpr hc he) hd
  | noEntries => exact fun brackets => .done
  | @nextEntry cs es mid mid' k d mid'' v rest _ hseparates _ hcolon _ ihes ihk ihv =>
    intro brackets
    have hseparated : Passes K ⟨'{' :: brackets, es.isEmpty⟩ mid _ mid' :=
      hseparates.passes fun hes => Place.not_beginsEntry_of_stale (by simpa using hes)
    rw [Bool.or_not_self] at hseparated
    have hne : (es ++ [(k, v)]).isEmpty = false := by simp
    have hvalue : Passes K ⟨'{' :: brackets, false⟩ (d :: mid'') _ rest :=
      .mark hcolon rfl (.stale ihv)
    rw [hne]
    exact (ihes brackets).trans (hseparated.trans ((ihk _ d mid'' rfl hcolon).trans hvalue))

/-- If an expression begins with an opening parenthesis, it is the group that it opens, or goes on
behind it. -/
def Phrase.OpensGroup (cs rest : List Content) : Phrase → Prop
  | expr _ => ∀ o behind, cs = o :: behind → o.isMark "(" = true → ∃ inside d tail,
      behind = inside ++ d :: tail ∧ Lexer.Nested (Content.brackets inside) ∧ d.isMark ")" = true ∧
      (tail = rest ∨ ∃ c mid, tail = c :: mid ∧ c.goesOn = true ∧ c.isMark "(" = false)
  | _ => True

theorem Phrase.OpensGroup.extend {cs mid rest : List Content} {e e' : Expr} {c : Content}
    (h : (Phrase.expr e).OpensGroup cs (c :: mid)) (hc : c.goesOn = true)
    (hc' : c.isMark "(" = false) : (Phrase.expr e').OpensGroup cs rest := by
  intro o behind hcs ho
  obtain ⟨inside, d, tail, hbehind, hinside, hd, rfl | htail⟩ := h o behind hcs ho
  · exact ⟨inside, d, _, hbehind, hinside, hd, .inr ⟨c, mid, rfl, hc, hc'⟩⟩
  · exact ⟨inside, d, tail, hbehind, hinside, hd, .inr htail⟩

theorem Phrase.opensGroup_of_isMark {cs rest : List Content} {e : Expr} {c : Content}
    (hc : c.isMark "(" = false) : (Phrase.expr e).OpensGroup (c :: cs) rest := by
  intro o behind hcs ho
  obtain ⟨rfl, -⟩ := List.cons.inj hcs
  simp [hc] at ho

theorem Derives.opensGroup {scope : Scope} {cs rest : List Content} {phrase : Phrase}
    (h : Derives scope cs phrase rest) : phrase.OpensGroup cs rest := by
  have hmark {c : Content} {s : String} (h : c.isMark s = true) (hs : (Content.mark s).goesOn = true)
      (hs' : (Content.mark s).isMark "(" = false) : c.goesOn = true ∧ c.isMark "(" = false :=
    Content.isMark_iff.mp h ▸ ⟨hs, hs'⟩
  induction h with
  | literal hkind =>
    refine Phrase.opensGroup_of_isMark (Content.isMark_of_kind ?_ _)
    rcases hkind with h | h <;> simp [h]
  | constant hkind _ | name hkind _ | coalescedName hkind _ _ | call hkind _ _ =>
    exact Phrase.opensGroup_of_isMark (Content.isMark_of_kind (by simp [hkind]) _)
  | @unary c op cs e rest hop _ ih =>
    refine Phrase.opensGroup_of_isMark ?_
    by_contra hparen
    rw [Bool.not_eq_false] at hparen
    rw [Content.isMark_iff.mp hparen] at hop
    cases hop
  | list ho _ _ _ | hash ho _ _ _ =>
    rw [Content.isMark_iff.mp ho]
    exact Phrase.opensGroup_of_isMark (by decide)
  | @enclosed o cs e d rest ho he hd _ =>
    intro o' behind hcs _
    obtain ⟨rfl, rfl⟩ := List.cons.inj hcs
    obtain ⟨inside, rfl, -, hnested, -⟩ := (he.passes (K := fun _ => True) (fun _ _ _ _ _ _ => trivial)
      Place.start (fun _ => trivial)).split
    exact ⟨inside, d, rest, rfl, hnested, hd, .inl rfl⟩
  | binary _ hop _ ih _ =>
    refine ih.extend ?_ (Content.isMark_of_kind (by simp [Parsing.kind_of_binaryOp? hop]) _)
    simp [Content.goesOn, hop]
  | coalesce _ hq _ ih _ | conditional _ hq _ _ _ ih _ _ | conditionalNull _ hq _ ih _
  | conditionalSelf _ hq _ _ ih _ | index _ hq _ _ ih _ | nullSafeIndex _ hq _ _ _ ih _ =>
    exact ih.extend (hmark hq rfl rfl).1 (hmark hq rfl rfl).2
  | property nullSafe _ hq _ ih | method nullSafe _ hq _ _ ih _ =>
    have hdot := hmark hq (by cases nullSafe <;> rfl) (by cases nullSafe <;> rfl)
    exact ih.extend hdot.1 hdot.2
  | noExprs | nextExpr | arguments | keyToken | keyExpr | noEntries | nextEntry => trivial

/-- What stands in front of the colon of an entry. -/
theorem Derives.hasKey {scope : Scope} {cs rest : List Content} {k : Expr} {colon : Content}
    (h : Derives scope cs (.key k) (colon :: rest)) (hcolon : colon.isMark ":" = true) :
    HasPlainKey cs ∨ HasExtendedKey scope cs := by
  cases h with
  | keyToken hkind => exact .inl (.token hkind hcolon)
  | keyExpr ho he =>
    obtain ⟨inside, d, tail, rfl, hinside, hd, rfl | ⟨c, mid, rfl, hc, hc'⟩⟩ :=
      he.opensGroup _ _ rfl ho
    · exact .inl (.group ho hinside hd hcolon)
    · exact .inr (.mk ho hinside hd hc hc' he hcolon)

namespace Parsing

/-- Where an entry begins in a stream that is accepted stands a string, a name, a number or a group in
parentheses, directly followed by a colon; only behind a group the key may go on as an expression. -/
theorem hasKey_of_parseTokens {scope : Scope} {stream : TokenStream} {e : Expr}
    (h : parseTokens scope stream = .ok e) {front behind : List Content} {c : Content}
    (hsplit : (stream.current :: stream.after).map Token.content = front ++ c :: behind)
    (hfront : ∀ d ∈ front, d.kind ≠ .ending) (hentry : (front.foldl Place.next .start).BeginsEntry)
    (hc : c.isMark "\x7d" = false) :
    HasPlainKey (c :: behind) ∨ HasExtendedKey scope (c :: behind) := by
  obtain ⟨ending, rest, hending, hderives⟩ := derives_ending_of_parseTokens h
  have hpasses : Passes (fun cs => HasPlainKey cs ∨ HasExtendedKey scope cs) .start _ _ _ :=
    hderives.passes (fun _ _ _ _ hkey hcolon => hkey.hasKey hcolon) .start
      (absurd · (Place.not_beginsEntry_of_stale rfl))
  refine (hpasses.keys hsplit ?_ hentry).resolve_left (by simp [hc])
  obtain ⟨taken, htaken, hplace, -, -⟩ := hpasses.split
  rw [hsplit] at htaken
  -- All brackets are closed in front of the ending token, so that no entry begins there.
  have hne : front ≠ taken := by
    rintro rfl
    rw [hplace] at hentry
    exact Place.not_beginsEntry_of_stale rfl hentry
  obtain ⟨taken', rfl, hbehind⟩ | ⟨taken', rfl, hbehind⟩ := List.append_eq_append_iff.mp htaken
  · cases taken' with
    | nil => exact absurd (List.append_nil front).symm hne
    | cons d taken' =>
      obtain ⟨rfl, rfl⟩ := List.cons.inj hbehind
      simp
  · cases taken' with
    | nil => exact absurd (List.append_nil taken) hne
    | cons d taken' =>
      obtain ⟨rfl, rfl⟩ := List.cons.inj hbehind
      exact absurd hending (hfront ending (by simp))

/-- An inner literal with a key that goes on behind its group, and an outer one without. -/
def nestedKeysStream : TokenStream :=
  .ofTokens "\x7b(\"k\"): [a, \x7b(a).b: a\x7d],\x7d" [⟨.punctuation, .string "\x7b", 1⟩,
    ⟨.punctuation, .string "(", 2⟩, ⟨.string, .string "k", 3⟩, ⟨.punctuation, .string ")", 6⟩,
    ⟨.punctuation, .string ":", 7⟩, ⟨.punctuation, .string "[", 9⟩, ⟨.name, .string "a", 10⟩,
    ⟨.punctuation, .string ",", 11⟩, ⟨.punctuation, .string "\x7b", 13⟩,
    ⟨.punctuation, .string "(", 14⟩, ⟨.name, .string "a", 15⟩, ⟨.punctuation, .string ")", 16⟩,
    ⟨.punctuation, .string ".", 17⟩, ⟨.name, .string "b", 18⟩, ⟨.punctuation, .string ":", 19⟩,
    ⟨.name, .string "a", 21⟩, ⟨.punctuation, .string "\x7d", 22⟩, ⟨.punctuation, .string "]", 23⟩,
    ⟨.punctuation, .string ",", 24⟩, ⟨.punctuation, .string "\x7d", 25⟩, Token.ending 26]

theorem hasKey_of_parseTokens_nested :
    let scope := Scope.ofVariables [] (some [.plain "a"]) {}
    let contents := (nestedKeysStream.current :: nestedKeysStream.after).map Token.content
    (∃ e, parseTokens scope nestedKeysStream = .ok e) ∧ (contents.drop 9).head? = some (.mark "(") ∧
      ((contents.take 9).foldl Place.next .start).BeginsEntry ∧
      (HasPlainKey (contents.drop 9) ∨ HasExtendedKey scope (contents.drop 9)) := by
  intro scope contents
  have hparse : parseTokens scope nestedKeysStream =
      .ok (.hash [(.literal (.string "k"), .list [.name "a",
        .hash [(.access .property false (.name "a") (.identifier "b") [], .name "a")]])]) := by cbv
  have hentry : ((contents.take 9).foldl Place.next .start).BeginsEntry := ⟨rfl, rfl⟩
  have hsplit : contents = contents.take 9 ++ .mark "(" :: contents.drop 10 := rfl
  have hfront : ∀ d ∈ contents.take 9, d.kind ≠ .ending := by
    have hkinds : ∀ k ∈ (contents.take 9).map Content.kind, k ≠ .ending := by decide
    exact fun d hd => hkinds d.kind (List.mem_map_of_mem hd)
  exact ⟨⟨_, hparse⟩, rfl, hentry, hasKey_of_parseTokens hparse hsplit hfront hentry rfl⟩

def extendedKeyStream : TokenStream :=
  .ofTokens "\x7b(a) + b: a\x7d" [⟨.punctuation, .string "\x7b", 1⟩, ⟨.punctuation, .string "(", 2⟩,
    ⟨.name, .string "a", 3⟩, ⟨.punctuation, .string ")", 4⟩, ⟨.operator, .string "+", 6⟩,
    ⟨.name, .string "b", 8⟩, ⟨.punctuation, .string ":", 9⟩, ⟨.name, .string "a", 11⟩,
    ⟨.punctuation, .string "\x7d", 12⟩, Token.ending 13]

/-- A sum is accepted as a key if its left operand stands in parentheses. -/
theorem not_hasPlainKey_of_parseTokens :
    let contents := (extendedKeyStream.current :: extendedKeyStream.after).map Token.content
    tokenize "\x7b(a) + b: a\x7d" = .ok extendedKeyStream ∧
      parseTokens (.ofVariables [] (some [.plain "a", .plain "b"]) {}) extendedKeyStream =
        .ok (.hash [(.binary .add (.name "a") (.name "b"), .name "a")]) ∧
      ((contents.take 1).foldl Place.next .start).BeginsEntry ∧
      (contents.drop 1).head? = some (.mark "(") ∧ ¬HasPlainKey (contents.drop 1) := by
  intro contents
  refine ⟨by cbv, by cbv, ⟨rfl, rfl⟩, rfl, fun h => ?_⟩
  generalize hcs : contents.drop 1 = cs at h
  cases h with
  | token hkind _ =>
    obtain ⟨rfl, -⟩ := List.cons.inj hcs
    simp [Token.content] at hkind
  | @group o inside d colon rest _ _ hd hcolon =>
    have hmarks : ∀ i < 9, ¬((contents.drop 1)[i]?.any (·.isMark ")") = true ∧
        (contents.drop 1)[i + 1]?.any (·.isMark ":") = true) := by decide
    have hlength : inside.length + 1 < 9 := by
      have hlength := congrArg List.length hcs
      simp only [List.length_cons, List.length_append] at hlength
      change 9 = _ at hlength
      omega
    refine hmarks _ hlength ?_
    rw [hcs]
    simp [hd, hcolon]

end Parsing
end Formula
