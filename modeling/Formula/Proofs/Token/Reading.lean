import Mathlib
import Formula.Proofs.Token.Layout

/-! Reading lexeme after lexeme, without account of brackets. A scan goes on behind each lexeme, unless a
bracket stops it. -/

namespace Formula.Lexer

/-- From `cursor` on the tokens of a text are read, up to `rest` at `cursor'`. -/
inductive Reads (cursor' : Nat) (a' : Bool) (rest : List Char) :
    Nat → Bool → List Char → List Token → Prop
  | done : Reads cursor' a' rest cursor' a' rest []
  | gap {cursor a c skipped cs ts} :
      readLexeme? a (c :: (skipped ++ cs)) = some (.gap (skipped.length + 1)) →
      Reads cursor' a' rest (cursor + (skipped.length + 1)) a cs ts →
      Reads cursor' a' rest cursor a (c :: (skipped ++ cs)) ts
  | token {cursor a c skipped cs ts kind value} :
      readLexeme? a (c :: (skipped ++ cs)) = some (.token kind value (skipped.length + 1)) →
      Reads cursor' a' rest (cursor + (skipped.length + 1)) (isAccess kind value) cs ts →
      Reads cursor' a' rest cursor a (c :: (skipped ++ cs)) (⟨kind, value, cursor⟩ :: ts)

variable {a : Bool} {c : Char} {cs skipped rest : List Char} {cursor : Nat} {brackets : Brackets}
  {kind : TokenKind} {value : Value}

/-- What stands at the head of a text takes a character or more of it. -/
theorem readLexeme?_cases (a : Bool) (c : Char) (cs : List Char) :
    readLexeme? a (c :: cs) = none ∨
    ∃ skipped rest, cs = skipped ++ rest ∧
      (readLexeme? a (c :: cs) = some (.gap (skipped.length + 1)) ∨
        ∃ kind value, readLexeme? a (c :: cs) = some (.token kind value (skipped.length + 1))) := by
  cases hread : readLexeme? a (c :: cs) with
  | none => exact .inl rfl
  | some l =>
    have hsplit {lexeme rest : List Char} (hcs : c :: cs = lexeme ++ rest) (hne : lexeme ≠ []) :
        ∃ skipped, lexeme = c :: skipped ∧ cs = skipped ++ rest := by
      obtain ⟨c', skipped, rfl⟩ := List.exists_cons_of_ne_nil hne
      obtain ⟨rfl, rfl⟩ := List.cons.inj hcs
      exact ⟨skipped, rfl, rfl⟩
    refine .inr ?_
    cases l with
    | gap length =>
      obtain ⟨gap, rest, hcs, hne, rfl, -⟩ := begins_readLexeme? hread
      obtain ⟨skipped, rfl, rfl⟩ := hsplit hcs hne
      exact ⟨skipped, rest, rfl, .inl rfl⟩
    | token kind value length =>
      obtain ⟨lexeme, rest, hcs, hne, rfl, -⟩ := begins_readLexeme? hread
      obtain ⟨skipped, rfl, rfl⟩ := hsplit hcs hne
      exact ⟨skipped, rest, rfl, .inr ⟨kind, value, rfl⟩⟩

theorem scan_of_none (hread : readLexeme? a (c :: cs) = none) :
    scan cursor brackets a 0 (c :: cs) = .error (cursor, .unexpectedCharacter c) := by
  rw [scan, hread]

theorem scan_of_gap
    (hread : readLexeme? a (c :: (skipped ++ rest)) = some (.gap (skipped.length + 1))) :
    scan cursor brackets a 0 (c :: (skipped ++ rest)) =
      scan (cursor + (skipped.length + 1)) brackets a 0 rest := by
  rw [scan, hread]
  dsimp only
  rw [Nat.add_sub_cancel, scan_skip, Nat.add_assoc, Nat.add_comm 1]

theorem scan_of_token
    (hread : readLexeme? a (c :: (skipped ++ rest)) = some (.token kind value (skipped.length + 1))) :
    scan cursor brackets a 0 (c :: (skipped ++ rest)) = (do
      let brackets ← track cursor c brackets
      let ts ← scan (cursor + (skipped.length + 1)) brackets (isAccess kind value) 0 rest
      return ⟨kind, value, cursor⟩ :: ts) := by
  rw [scan, hread]
  dsimp only
  simp only [Nat.add_sub_cancel, scan_skip, Nat.add_assoc, Nat.add_comm 1]

/-- A scan that takes a token goes on behind it, with the account of brackets that it leaves. -/
theorem exists_scan_of_token {ts : List Token}
    (hread : readLexeme? a (c :: (skipped ++ rest)) = some (.token kind value (skipped.length + 1)))
    (h : scan cursor brackets a 0 (c :: (skipped ++ rest)) = .ok ts) :
    ∃ opened ts', track cursor c brackets = .ok opened ∧
      scan (cursor + (skipped.length + 1)) opened (isAccess kind value) 0 rest = .ok ts' ∧
      ts = ⟨kind, value, cursor⟩ :: ts' := by
  have hsteps := steps_scan cursor brackets a c (skipped ++ rest)
  rw [h] at hsteps
  cases hsteps with
  | gap hgap _ => exact absurd (hread.symm.trans hgap) nofun
  | token hread' htrack hscan =>
    obtain ⟨rfl, rfl, rfl⟩ := Lexeme.token.inj (Option.some_inj.mp (hread.symm.trans hread'))
    rw [Nat.add_sub_cancel, scan_skip, Nat.add_assoc, Nat.add_comm 1] at hscan
    exact ⟨_, _, htrack, hscan, rfl⟩

end Formula.Lexer
