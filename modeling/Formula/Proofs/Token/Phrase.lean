import Formula.Proofs.Token.Lexeme

/-! What is read from a printed text, and how that of a longer text comes from that of its parts. -/

namespace Formula

open Lexer
open Content (enclosed separated accessMark)

/-- Whether `rest` can follow any text that is printed. -/
def Delimits (rest : List Char) : Prop :=
  endsName (rest.map normalize) = true ∧ endsNumber (rest.map normalize) = true

/-- Wherever `text` is delimited, `ls` are read from it. -/
def Prints (text : List Char) (ls : List Content) : Prop :=
  ∀ rest, Delimits rest → Reaches false (text ++ rest) ls false rest

/-- `ls` are read from `text` in front of what may follow it: only a number could go on with a
point. -/
def Scans (isNumber : Bool) (text : List Char) (ls : List Content) : Prop :=
  ∀ rest, endsName (rest.map normalize) = true →
    (isNumber = true → endsNumber (rest.map normalize) = true) →
      Reaches false (text ++ rest) ls false rest

/-- Contents with `??` behind each. -/
def Content.beforeFallback (xs : List Content) : List Content := xs.flatMap fun x => [x, mark "??"]

/-- Number literals, strings in quotes and names, with what their one token says. Line ends, tabs and
page breaks in a string are read as spaces. -/
inductive SpellsAtom : String → Content → Prop
  | number {isWhole cs} : IsNumeral isWhole cs →
      SpellsAtom (String.ofList cs) ⟨.number, numberValue isWhole cs⟩
  | string {quote cs s} : quote = '"' ∨ quote = '\'' → Quotes quote (cs.map Lexer.normalize) s →
      SpellsAtom (String.ofList (quote :: (cs ++ [quote]))) ⟨.string, .string (String.ofList s)⟩
  | name {n} : Parsing.isIdentifier n = true → n ∉ operatorWords → SpellsAtom n (.name n)

/-- A symbol that stands between operands, with a space on either side. -/
structure IsInfix (symbol : List Char) (c : Content) : Prop where
  delimits : ∀ rest, Delimits (' ' :: (symbol ++ rest))
  reaches : ∀ rest, Reaches false (symbol ++ ' ' :: rest) [c] false (' ' :: rest)

theorem isInfix_binary (op : BinaryOp) : IsInfix op.symbol.toList (.operator op.symbol) where
  delimits rest := by cases op <;> exact ⟨rfl, rfl⟩
  reaches := reaches_binary op

theorem isInfix_question : IsInfix ['?'] (.mark "?") := ⟨fun _ => ⟨rfl, rfl⟩, reaches_question⟩

theorem isInfix_colon : IsInfix [':'] (.mark ":") :=
  ⟨fun _ => ⟨rfl, rfl⟩, fun rest => reaches_colon (' ' :: rest)⟩

theorem isInfix_coalesce : IsInfix ['?', '?'] (.mark "??") :=
  ⟨fun _ => ⟨rfl, rfl⟩, fun rest => reaches_coalesce (' ' :: rest)⟩

variable {m n : Bool} {text left right symbol : List Char} {ls rs : List Content} {c : Content}

theorem Scans.prints (h : Scans n text ls) : Prints text ls := 
  fun rest hrest => h rest hrest.1 fun _ => hrest.2

theorem Scans.bracketed (h : Scans n text ls) {opening : Char} (hopen : isOpening opening = true)
    (a : Bool) (rest : List Char) :
    Reaches a (opening :: (text ++ closing opening :: rest)) (enclosed opening ls) false rest := by
  refine reaches_bracketed hopen (h _ ?_ fun _ => ?_) a
  all_goals
    simp only [isOpening, Bool.or_eq_true, beq_iff_eq] at hopen
    rcases hopen with (rfl | rfl) | rfl <;> rfl

theorem Scans.inBrackets (h : Scans n text ls) (opening : Char) (hopen : isOpening opening = true) :
    Scans false (opening :: (text ++ [closing opening])) (enclosed opening ls) := by
  intro rest _ _
  rw [List.cons_append, List.append_assoc, List.singleton_append]
  exact h.bracketed hopen false rest

/-- Two texts with a symbol between them. -/
theorem Scans.joined (hl : Scans m left ls) (hsymbol : IsInfix symbol c) (hr : Scans n right rs) :
    Scans n (left ++ ' ' :: (symbol ++ ' ' :: right)) (ls ++ c :: rs) := by
  intro rest hname hnumber
  have hdelimits := hsymbol.delimits (' ' :: (right ++ rest))
  rw [List.append_assoc, List.cons_append, List.append_assoc, List.cons_append]
  refine (hl _ hdelimits.1 fun _ => hdelimits.2).trans ((reaches_space false _).trans ?_)
  exact (hsymbol.reaches _).trans ((reaches_space false _).trans (hr rest hname hnumber))

theorem toList_intercalate_cons (s : String) (ss : List String) :
    (String.intercalate ", " (s :: ss)).toList =
      s.toList ++ ss.flatMap fun t => ',' :: ' ' :: t.toList := by
  induction ss generalizing s with
  | nil => simp
  | cons t ss ih => simp [String.intercalate_cons_cons, ih]

section Separated

variable {α : Type} {xs : List α} {ls : α → List Content}

theorem delimits_flatMap {text : α → List Char} {rest : List Char} (hrest : Delimits rest) :
    Delimits ((xs.flatMap fun x => ',' :: ' ' :: text x) ++ rest) := by
  cases xs with
  | nil => exact hrest
  | cons x xs => exact ⟨rfl, rfl⟩

/-- What stands behind the first of several texts. -/
theorem prints_flatMap {text : α → List Char} (h : ∀ x ∈ xs, Prints (text x) (ls x)) :
    Prints (xs.flatMap fun x => ',' :: ' ' :: text x) (xs.flatMap fun x => .mark "," :: ls x) := by
  intro rest hrest
  induction xs with
  | nil => exact reaches_refl false rest
  | cons x xs ih =>
    rw [List.forall_mem_cons] at h
    rw [List.flatMap_cons, List.flatMap_cons, List.append_assoc]
    refine (reaches_comma _).trans ((reaches_space false _).trans ?_)
    exact (h.1 _ (delimits_flatMap hrest)).trans (ih h.2)

theorem prints_intercalate {text : α → String} (h : ∀ x ∈ xs, Prints (text x).toList (ls x)) :
    Prints (String.intercalate ", " (xs.map text)).toList (separated (xs.map ls)) := by
  intro rest hrest
  cases xs with
  | nil => exact reaches_refl false rest
  | cons x xs =>
    rw [List.forall_mem_cons] at h
    rw [List.map_cons, toList_intercalate_cons, List.flatMap_map, List.append_assoc, List.map_cons,
      separated, List.flatMap_map]
    exact (h.1 _ (delimits_flatMap hrest)).trans (prints_flatMap h.2 rest hrest)

/-- Texts with commas between them, in brackets. -/
theorem reaches_separated {text : α → String} (h : ∀ x ∈ xs, Prints (text x).toList (ls x))
    {opening : Char} (hopen : isOpening opening = true) (a : Bool) (rest : List Char) :
    Reaches a (opening :: ((String.intercalate ", " (xs.map text)).toList ++ closing opening :: rest))
      (enclosed opening (separated (xs.map ls))) false rest := by
  refine reaches_bracketed hopen (prints_intercalate h _ ?_) a
  simp only [isOpening, Bool.or_eq_true, beq_iff_eq] at hopen
  rcases hopen with (rfl | rfl) | rfl <;> exact ⟨rfl, rfl⟩

theorem scans_separated {text : α → String} (h : ∀ x ∈ xs, Prints (text x).toList (ls x))
    (opening : Char) (hopen : isOpening opening = true) :
    Scans false (opening :: ((String.intercalate ", " (xs.map text)).toList ++ [closing opening]))
      (enclosed opening (separated (xs.map ls))) := by
  intro rest _ _
  rw [List.cons_append, List.append_assoc, List.singleton_append]
  exact reaches_separated h hopen false rest

end Separated

theorem scans_name {name : String} (hname : Parsing.isIdentifier name = true)
    (hfree : name ∉ operatorWords) : Scans false name.toList [.name name] :=
  fun _ hrest _ => reaches_name hname (.inr hfree) hrest

/-! Access steps behind a text that is no number, since a number would go on with the point. -/

theorem Scans.member {member : String} (h : Scans false text ls) (nullSafe : Bool)
    (hmember : Parsing.isIdentifier member = true) :
    Scans false (text ++ ((if nullSafe then "?." else ".").toList ++ member.toList))
      (ls ++ [accessMark nullSafe, .name member]) := by
  intro rest hrest _
  rw [List.append_assoc, List.append_assoc]
  refine (h _ (by cases nullSafe <;> rfl) nofun).trans ?_
  exact (reaches_access nullSafe hmember rest).trans (reaches_name hmember (.inl rfl) hrest)

theorem Scans.arguments {α : Type} {xs : List α} {argument : α → String} {as : α → List Content}
    (h : Scans false text ls) (has : ∀ x ∈ xs, Prints (argument x).toList (as x)) :
    Scans false (text ++ '(' :: ((String.intercalate ", " (xs.map argument)).toList ++ [')']))
      (ls ++ enclosed '(' (separated (xs.map as))) := by
  intro rest _ _
  rw [List.append_assoc, List.cons_append, List.append_assoc]
  exact (h _ rfl nofun).trans (reaches_separated has rfl false rest)

theorem Scans.index (h : Scans false text ls) (nullSafe : Bool) (hkey : Scans n right rs) :
    Scans false (text ++ ((if nullSafe then "?.[" else "[").toList ++ (right ++ [']'])))
      (ls ++ ((if nullSafe then [.mark "?."] else []) ++ enclosed '[' rs)) := by
  intro rest _ _
  rw [List.append_assoc, List.append_assoc, List.append_assoc]
  cases nullSafe with
  | false => exact (h _ rfl nofun).trans (hkey.bracketed rfl false rest)
  | true =>
    refine (h _ rfl nofun).trans ((reaches_nullSafeIndex _).trans ?_)
    exact hkey.bracketed rfl true rest

/-- An entry of a hash literal. -/
theorem Scans.entry (hkey : Scans m left ls) (hvalue : Scans n right rs) :
    Scans n (left ++ ':' :: ' ' :: right) (ls ++ .mark ":" :: rs) := by
  intro rest hname hnumber
  rw [List.append_assoc]
  refine (hkey _ rfl fun _ => rfl).trans ((reaches_colon _).trans ((reaches_space false _).trans ?_))
  exact hvalue rest hname hnumber

/-! Texts that are one operand each, and those that have `??` between such. -/

theorem SpellsAtom.scans {text : String} (h : SpellsAtom text c) : Scans true text.toList [c] := by
  cases h with
  | number h =>
    rw [String.toList_ofList]
    exact fun rest _ hrest => reaches_numeral h (hrest rfl)
  | string hquote h =>
    rw [String.toList_ofList]
    exact fun rest _ _ => reaches_string hquote h rest
  | name hname hfree => exact fun rest hrest _ => reaches_name hname (.inr hfree) hrest

/-- Atoms with `??` between them. -/
theorem scans_fallbacks {xs : List (String × Content)} {text : String}
    (hxs : ∀ x ∈ xs, SpellsAtom x.1 x.2) (h : SpellsAtom text c) :
    Scans true (String.intercalate " ?? " (xs.map Prod.fst ++ [text])).toList
      (Content.beforeFallback (xs.map Prod.snd) ++ [c]) := by
  induction xs with
  | nil => simpa [Content.beforeFallback] using h.scans
  | cons x xs ih =>
    rw [List.forall_mem_cons] at hxs
    have hjoined := hxs.1.scans.joined isInfix_coalesce (ih hxs.2)
    obtain ⟨t, ts, hcons⟩ := List.exists_cons_of_ne_nil
      (List.append_ne_nil_of_right_ne_nil (xs.map Prod.fst) (List.cons_ne_nil text []))
    have hintercalate : (String.intercalate " ?? " ((x :: xs).map Prod.fst ++ [text])).toList =
        x.1.toList ++ ' ' :: (['?', '?'] ++
          ' ' :: (String.intercalate " ?? " (xs.map Prod.fst ++ [text])).toList) := by
      rw [List.map_cons, List.cons_append, hcons, String.intercalate_cons_cons]
      simp
    rw [hintercalate]
    exact hjoined

end Formula
