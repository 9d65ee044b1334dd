import Mathlib.Data.List.Chain
import Formula.Proofs.Token.Phrase
import Formula.Script

/-! Scripts that keep to themselves: whatever stands behind one, a scan of JavaScript comes out of it
with all its literals and brackets closed. -/

namespace Formula.Script

open Lexer (isOpening isClosing closing)

/-- Where a scan of JavaScript stands. In a literal a backslash protects the next character. -/
inductive Place
  | code
  | literal
  | escaped
deriving DecidableEq, Repr

/-- What stands outside literals, where each literal leaves the quote that opens it. A text that ends
in a literal has no code. -/
def codeFrom? : Place → List Char → Option (List Char)
  | .code, [] => some []
  | .literal, [] | .escaped, [] => none
  | .code, c :: cs => (codeFrom? (if c == '"' then .literal else .code) cs).map (c :: ·)
  | .literal, c :: cs =>
    codeFrom? (if c == '"' then .code else if c == '\\' then .escaped else .literal) cs
  | .escaped, _ :: cs => codeFrom? .literal cs

def code? (script : String) : Option (List Char) := codeFrom? .code script.toList

/-- Whether brackets are closed in the order in which they are owed. -/
def nests : List Char → List Char → Bool
  | owed, [] => owed.isEmpty
  | owed, c :: cs =>
    if isOpening c then nests (closing c :: owed) cs
    else if isClosing c then match owed with
      | [] => false
      | d :: owed => d == c && nests owed cs
    else nests owed cs

/-- Code with brackets in order, without other quotes, backslashes and comments. -/
structure IsConfined (code : List Char) : Prop where
  nested : nests [] code = true
  notMem : ∀ c ∈ ['\'', '`', '\\'], c ∉ code
  noLineComment : ¬ ['/', '/'] <:+: code
  noBlockComment : ¬ ['/', '*'] <:+: code

/-- Characters that mean nothing to a scan. -/
def IsInert (c : Char) : Prop :=
  c ∉ ['"', '\'', '`', '\\', '/', '(', ')', '[', ']', '{', '}']

instance (c : Char) : Decidable (IsInert c) := inferInstanceAs (Decidable (c ∉ _))

-- Named by hand: a search may find the instance that tries all characters.
instance (cs : List Char) : Decidable (∀ c ∈ cs, IsInert c) := List.decidableBAll IsInert cs

/-- Texts with their code: every literal is closed, every bracket is closed behind what it holds, and
a slash stands in front of a space. -/
inductive Seals : List Char → List Char → Prop
  | nil : Seals [] []
  | inert {c cs ds} : IsInert c → Seals cs ds → Seals (c :: cs) (c :: ds)
  | division {cs ds} : Seals cs ds → Seals ('/' :: ' ' :: cs) ('/' :: ' ' :: ds)
  | literal (s) {cs ds} : Seals cs ds → Seals ('"' :: (quotedChars s ++ cs)) ('"' :: ds)
  | bracketed {opening inner code cs ds} : isOpening opening = true → Seals inner code →
      Seals cs ds →
      Seals (opening :: (inner ++ closing opening :: cs)) (opening :: (code ++ closing opening :: ds))

variable {cs ds cs' ds' rest : List Char} {c opening : Char}

theorem codeFrom?_quotedChars (s rest : List Char) :
    codeFrom? .literal (quotedChars s ++ rest) = codeFrom? .code rest := by
  fun_induction quotedChars s with
  | case1 => simp [codeFrom?]
  | case8 c cs hquote hbackslash _ _ _ _ ih =>
    have hplain : (c == '"') = false ∧ (c == '\\') = false := by
      simpa using ⟨hquote, hbackslash⟩
    rw [List.cons_append, codeFrom?, hplain.1, hplain.2]
    exact ih
  | _ cs ih => simpa [codeFrom?] using ih

theorem ne_quote_of_isOpening (h : isOpening opening = true) :
    opening ≠ '"' ∧ closing opening ≠ '"' := by
  simp only [isOpening, Bool.or_eq_true, beq_iff_eq] at h
  rcases h with (rfl | rfl) | rfl <;> decide

theorem codeFrom?_code (hc : c ≠ '"') (cs : List Char) :
    codeFrom? .code (c :: cs) = (codeFrom? .code cs).map (c :: ·) := by
  simp [codeFrom?, hc]

/-- Behind a sealed text a scan goes on as if nothing had stood there. -/
theorem codeFrom?_of_seals (h : Seals cs ds) (rest : List Char) :
    codeFrom? .code (cs ++ rest) = (codeFrom? .code rest).map (ds ++ ·) := by
  induction h generalizing rest with
  | nil => simp
  | @inert c cs ds hc _ ih =>
    have hquote : c ≠ '"' := by
      rintro rfl
      exact hc (by decide)
    rw [List.cons_append, codeFrom?_code hquote, ih, Option.map_map]
    rfl
  | division _ ih =>
    rw [List.cons_append, List.cons_append, codeFrom?_code (by decide), codeFrom?_code (by decide), ih,
      Option.map_map, Option.map_map]
    rfl
  | literal s _ ih =>
    rw [List.cons_append, List.append_assoc]
    change (codeFrom? .literal _).map _ = _
    rw [codeFrom?_quotedChars, ih, Option.map_map]
    rfl
  | bracketed hopen _ _ ihinner ih =>
    obtain ⟨hopening, hclosing⟩ := ne_quote_of_isOpening hopen
    rw [List.cons_append, List.append_assoc, List.cons_append, codeFrom?_code hopening, ihinner,
      codeFrom?_code hclosing, ih, Option.map_map, Option.map_map, Option.map_map]
    congr 1
    funext code
    simp

theorem nests_inert (hopen : isOpening c = false) (hclose : isClosing c = false)
    (owed cs : List Char) : nests owed (c :: cs) = nests owed cs := by
  simp [nests, hopen, hclose]

theorem nests_opening (hopen : isOpening c = true) (owed cs : List Char) :
    nests owed (c :: cs) = nests (closing c :: owed) cs := by
  simp [nests, hopen]

theorem nests_closing (hopen : isOpening c = false) (hclose : isClosing c = true)
    (owed cs : List Char) : nests (c :: owed) (c :: cs) = nests owed cs := by
  simp [nests, hopen, hclose]

theorem nests_of_seals (h : Seals cs ds) (owed rest : List Char) :
    nests owed (ds ++ rest) = nests owed rest := by
  induction h generalizing owed rest with
  | nil => rfl
  | @inert c cs ds hc _ ih =>
    have hplain : isOpening c = false ∧ isClosing c = false := by
      simp only [IsInert, List.mem_cons, List.not_mem_nil, or_false, not_or] at hc
      simp [isOpening, isClosing, hc]
    rw [List.cons_append, nests_inert hplain.1 hplain.2, ih]
  | division _ ih =>
    rw [List.cons_append, List.cons_append, nests_inert rfl rfl, nests_inert rfl rfl, ih]
  | literal s _ ih => rw [List.cons_append, nests_inert rfl rfl, ih]
  | @bracketed opening _ _ _ _ hopen _ _ ihinner ih =>
    have hclose : isOpening (closing opening) = false ∧ isClosing (closing opening) = true := by
      simp only [isOpening, Bool.or_eq_true, beq_iff_eq] at hopen
      rcases hopen with (rfl | rfl) | rfl <;> decide
    rw [List.cons_append, List.append_assoc, List.cons_append, nests_opening hopen, ihinner,
      nests_closing hclose.1 hclose.2, ih]

theorem notMem_of_seals (h : Seals cs ds) : ∀ c ∈ ['\'', '`', '\\'], c ∉ ds := by
  intro c hc
  have hne {c' : Char} (hc' : c' ∉ ['\'', '`', '\\']) : c ≠ c' := by
    rintro rfl
    exact hc' hc
  induction h with
  | nil => exact List.not_mem_nil
  | @inert c' cs ds hc' _ ih =>
    have hchar : c' ∉ ['\'', '`', '\\'] := by
      simp only [IsInert, List.mem_cons, List.not_mem_nil, or_false, not_or] at hc' ⊢
      simp [hc']
    simp [hne hchar, ih]
  | division _ ih => simp [hne (by decide : '/' ∉ _), hne (by decide : ' ' ∉ _), ih]
  | literal s _ ih => simp [hne (by decide : '"' ∉ _), ih]
  | @bracketed opening _ _ _ _ hopen _ _ ihinner ih =>
    have hchars : opening ∉ ['\'', '`', '\\'] ∧ closing opening ∉ ['\'', '`', '\\'] := by
      simp only [isOpening, Bool.or_eq_true, beq_iff_eq] at hopen
      rcases hopen with (rfl | rfl) | rfl <;> decide
    simp [hne hchars.1, hne hchars.2, ihinner, ih]

/-- A slash is followed by a space. -/
def Spaced : List Char → Prop := List.IsChain fun c c' => c = '/' → c' = ' '

theorem spaced_cons (hc : c ≠ '/') (h : Spaced cs) : Spaced (c :: cs) :=
  List.isChain_cons.mpr ⟨fun _ _ hslash => absurd hslash hc, h⟩

theorem spaced_of_seals (h : Seals cs ds) (hrest : Spaced rest) : Spaced (ds ++ rest) := by
  induction h generalizing rest with
  | nil => exact hrest
  | inert hc _ ih =>
    refine spaced_cons ?_ (ih hrest)
    rintro rfl
    exact hc (by decide)
  | division _ ih =>
    refine List.isChain_cons_cons.mpr ⟨fun _ => rfl, spaced_cons (by decide) (ih hrest)⟩
  | literal s _ ih => exact spaced_cons (by decide) (ih hrest)
  | @bracketed opening _ _ _ _ hopen _ _ ihinner ih =>
    have hchars : opening ≠ '/' ∧ closing opening ≠ '/' := by
      simp only [isOpening, Bool.or_eq_true, beq_iff_eq] at hopen
      rcases hopen with (rfl | rfl) | rfl <;> decide
    rw [List.cons_append, List.append_assoc]
    exact spaced_cons hchars.1 (ihinner (spaced_cons hchars.2 (ih hrest)))

theorem isConfined_of_seals (h : Seals cs ds) : IsConfined ds := by
  have hnests := nests_of_seals h [] []
  have hspaced : Spaced (ds ++ []) := spaced_of_seals h .nil
  rw [List.append_nil] at hnests hspaced
  refine ⟨hnests, notMem_of_seals h, ?_, ?_⟩
  · rintro ⟨before, behind, rfl⟩
    have hpair : Spaced ['/', '/'] := hspaced.left_of_append.right_of_append
    simp [Spaced] at hpair
  · rintro ⟨before, behind, rfl⟩
    have hpair : Spaced ['/', '*'] := hspaced.left_of_append.right_of_append
    simp [Spaced] at hpair

theorem Seals.append (h : Seals cs ds) (h' : Seals cs' ds') : Seals (cs ++ cs') (ds ++ ds') := by
  induction h with
  | nil => exact h'
  | inert hc _ ih => exact .inert hc ih
  | division _ ih => exact .division ih
  | literal s _ ih =>
    rw [List.cons_append, List.append_assoc]
    exact .literal s ih
  | bracketed hopen hinner _ _ ih =>
    rw [List.cons_append, List.append_assoc, List.cons_append, List.cons_append, List.append_assoc,
      List.cons_append]
    exact .bracketed hopen hinner ih

/-- A text that a scan leaves as it enters it. -/
def IsSealed (text : List Char) : Prop := ∃ code, Seals text code

theorem isConfined_of_isSealed {script : String} (h : IsSealed script.toList) :
    ∃ code, code? script = some code ∧ IsConfined code := by
  obtain ⟨code, hseals⟩ := h
  refine ⟨code, ?_, isConfined_of_seals hseals⟩
  have hcode := codeFrom?_of_seals hseals []
  rw [List.append_nil] at hcode
  simpa [code?, codeFrom?] using hcode

variable {text text' : List Char}

theorem IsSealed.append (h : IsSealed text) (h' : IsSealed text') : IsSealed (text ++ text') := by
  obtain ⟨code, hseals⟩ := h
  obtain ⟨code', hseals'⟩ := h'
  exact ⟨code ++ code', hseals.append hseals'⟩

theorem isSealed_inert (h : ∀ c ∈ text, IsInert c) : IsSealed text := by
  induction text with
  | nil => exact ⟨[], .nil⟩
  | cons c cs ih =>
    rw [List.forall_mem_cons] at h
    obtain ⟨code, hseals⟩ := ih h.2
    exact ⟨c :: code, .inert h.1 hseals⟩

theorem IsSealed.inBrackets (h : IsSealed text) (opening : Char) (hopen : isOpening opening = true) :
    IsSealed (opening :: (text ++ [closing opening])) := by
  obtain ⟨code, hseals⟩ := h
  exact ⟨_, .bracketed hopen hseals .nil⟩

theorem isSealed_quoted (s : String) : IsSealed (quoted s).toList := by
  have hseals := Seals.literal s.toList .nil
  rw [List.append_nil] at hseals
  rw [quoted, String.toList_ofList]
  exact ⟨_, hseals⟩

theorem isSealed_flatMap {α : Type} {xs : List α} {f : α → List Char}
    (h : ∀ x ∈ xs, IsSealed (f x)) : IsSealed (xs.flatMap f) := by
  induction xs with
  | nil => exact ⟨[], .nil⟩
  | cons x xs ih =>
    rw [List.forall_mem_cons] at h
    rw [List.flatMap_cons]
    exact h.1.append (ih h.2)

theorem IsSealed.comma (h : IsSealed text) (h' : IsSealed text') :
    IsSealed (text ++ ',' :: ' ' :: text') := by
  have hcomma : IsSealed [',', ' '] := isSealed_inert (by decide)
  exact h.append (hcomma.append h')

theorem isSealed_separated {texts : List String} (h : ∀ text ∈ texts, IsSealed text.toList) :
    IsSealed (String.intercalate ", " texts).toList := by
  cases texts with
  | nil => exact ⟨[], .nil⟩
  | cons text texts =>
    rw [List.forall_mem_cons] at h
    rw [toList_intercalate_cons]
    have hcomma : IsSealed [',', ' '] := isSealed_inert (by decide)
    exact h.1.append (isSealed_flatMap fun text htext => hcomma.append (h.2 text htext))

/-- A name or a helper, applied to arguments. -/
theorem IsSealed.applied (h : IsSealed text) {name : List Char} (hname : IsSealed name) :
    IsSealed (name ++ '(' :: (text ++ [')'])) := hname.append (h.inBrackets '(' rfl)

end Formula.Script
