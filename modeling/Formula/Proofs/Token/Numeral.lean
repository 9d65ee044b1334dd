import Formula.Token.Lexer

/-! The forms of number literals, and how much of a text is read as a number: the longest of its
beginnings that has one of them. -/

namespace Formula.Lexer

/-- Decimal digits. Two neighbours may have one underscore between them. -/
inductive IsDigits : List Char → Prop
  | last {d} : d.isDigit = true → IsDigits [d]
  | next {d ds} : d.isDigit = true → IsDigits ds → IsDigits (d :: ds)
  | separated {d ds} : d.isDigit = true → IsDigits ds → IsDigits (d :: '_' :: ds)

/-- Digits, or digits behind a point, which may have others in front of it. -/
inductive IsMantissa : (isWhole : Bool) → List Char → Prop
  | whole {ds} : IsDigits ds → IsMantissa true ds
  | decimal {ds fs} : ds = [] ∨ IsDigits ds → IsDigits fs → IsMantissa false (ds ++ '.' :: fs)

/-- A mark, perhaps a sign, and digits. -/
inductive IsExponent : List Char → Prop
  | mk {mark sign ds} : mark = 'e' ∨ mark = 'E' → sign ∈ [[], ['+'], ['-']] → IsDigits ds →
      IsExponent (mark :: (sign ++ ds))

/-- Number literals. One that is neither a decimal nor has an exponent is a whole number. -/
inductive IsNumeral : (isWhole : Bool) → List Char → Prop
  | mantissa {isWhole ms} : IsMantissa isWhole ms → IsNumeral isWhole ms
  | exponent {isWhole ms es} : IsMantissa isWhole ms → IsExponent es → IsNumeral false (ms ++ es)

/-- No mantissa goes on with `rest`. -/
structure EndsMantissa (rest : List Char) : Prop where
  digits : digitsLength true rest = 0
  fraction : fractionLength rest = 0

/-- No number literal goes on with `rest`. -/
structure EndsNumeral (rest : List Char) : Prop extends EndsMantissa rest where
  exponent : exponentLength rest = 0

variable {started isWhole : Bool} {c : Char} {cs ds ms es rest : List Char} {l : Lexeme}

/-! Digits. -/

theorem IsDigits.startsWithDigit (h : IsDigits ds) (rest : List Char) :
    startsWithDigit (ds ++ rest) = true := by
  cases h <;> assumption

theorem IsDigits.ne_nil (h : IsDigits ds) : ds ≠ [] := by
  cases h <;> exact List.cons_ne_nil _ _

theorem digitsLength_of_isDigit (hc : c.isDigit = true) (started : Bool) (cs : List Char) :
    digitsLength started (c :: cs) = digitsLength true cs + 1 := by
  rw [digitsLength, if_pos hc]

theorem digitsLength_underscore (h : startsWithDigit cs = true) :
    digitsLength true ('_' :: cs) = digitsLength true cs + 1 := by
  rw [digitsLength, if_neg (by decide), if_pos (by simpa using h)]

theorem digitsLength_of_ne (hdigit : c.isDigit = false) (hc : c ≠ '_') (started : Bool)
    (cs : List Char) : digitsLength started (c :: cs) = 0 := by
  simp [digitsLength, hdigit, hc]

theorem digitsLength_false (cs : List Char) :
    digitsLength false cs = if startsWithDigit cs then digitsLength true cs else 0 := by
  cases cs with
  | nil => rfl
  | cons c cs => by_cases hc : c.isDigit = true <;> simp [digitsLength, startsWithDigit, hc]

/-- Digits are read to their end, and on from there. -/
theorem IsDigits.digitsLength_append (h : IsDigits ds) (started : Bool) (rest : List Char) :
    digitsLength started (ds ++ rest) = ds.length + digitsLength true rest := by
  induction h generalizing started with
  | last hd =>
    rw [List.singleton_append, digitsLength_of_isDigit hd, List.length_singleton, Nat.add_comm]
  | next hd _ ih =>
    rw [List.cons_append, digitsLength_of_isDigit hd, ih, List.length_cons]
    omega
  | separated hd hds ih =>
    rw [List.cons_append, List.cons_append, digitsLength_of_isDigit hd,
      digitsLength_underscore (hds.startsWithDigit rest), ih, List.length_cons, List.length_cons]
    omega

/-- What is read as digits has their form, behind a digit and from a digit on. -/
theorem isDigits_take (cs : List Char) :
    (∀ c, c.isDigit = true → IsDigits (c :: cs.take (digitsLength true cs))) ∧
      (startsWithDigit cs = true → IsDigits (cs.take (digitsLength true cs))) := by
  induction cs with
  | nil => exact ⟨fun c hc => .last hc, nofun⟩
  | cons d cs ih =>
    have hdigits (hd : d.isDigit = true) : IsDigits ((d :: cs).take (digitsLength true (d :: cs))) := by
      rw [digitsLength_of_isDigit hd, List.take_succ_cons]
      exact ih.1 d hd
    refine ⟨fun c hc => ?_, hdigits⟩
    by_cases hd : d.isDigit = true
    · exact .next hc (hdigits hd)
    · by_cases hmark : d = '_' ∧ startsWithDigit cs = true
      · obtain ⟨rfl, hcs⟩ := hmark
        rw [digitsLength_underscore hcs, List.take_succ_cons]
        exact .separated hc (ih.2 hcs)
      · have hzero : digitsLength true (d :: cs) = 0 := by
          rw [not_and] at hmark
          simp [digitsLength, hd]
          exact fun h => by simpa using hmark h
        rw [hzero]
        exact .last hc

theorem isDigits_take_false (h : digitsLength false cs ≠ 0) :
    IsDigits (cs.take (digitsLength false cs)) := by
  rw [digitsLength_false] at h ⊢
  split at h
  · rename_i hstart
    rw [if_pos hstart]
    exact (isDigits_take cs).2 hstart
  · exact absurd rfl h

theorem isDigits_of_forall (hne : ds ≠ []) (h : ∀ c ∈ ds, c.isDigit = true) : IsDigits ds := by
  induction ds with
  | nil => exact absurd rfl hne
  | cons d ds ih =>
    rw [List.forall_mem_cons] at h
    by_cases hds : ds = []
    · rw [hds]
      exact .last h.1
    · exact .next h.1 (ih hds h.2)

theorem normalize_of_isDigit (hc : c.isDigit = true) : normalize c = c := by
  unfold normalize
  split
  · rename_i hspace
    simp only [Bool.or_eq_true, beq_iff_eq] at hspace
    rcases hspace with (((rfl | rfl) | rfl) | rfl) | rfl <;> exact absurd hc (by decide)
  · rfl

theorem IsDigits.map_normalize (h : IsDigits ds) : ds.map normalize = ds := by
  induction h with
  | last hd => rw [List.map_cons, normalize_of_isDigit hd, List.map_nil]
  | next hd _ ih => rw [List.map_cons, normalize_of_isDigit hd, ih]
  | separated hd _ ih =>
    rw [List.map_cons, List.map_cons, normalize_of_isDigit hd, ih]
    rfl

/-! Fractions and exponents. -/

theorem fractionLength_dot (cs : List Char) : fractionLength ('.' :: cs) =
    if digitsLength false cs = 0 then 0 else digitsLength false cs + 1 := by
  rw [fractionLength]
  cases digitsLength false cs <;> rfl

theorem fractionLength_of_ne (hc : c ≠ '.') (cs : List Char) : fractionLength (c :: cs) = 0 := by
  simp [fractionLength, hc]

theorem exponentLength_cons (c : Char) (cs : List Char) : exponentLength (c :: cs) =
    if (c == 'e' || c == 'E') = true ∧ digitsLength false (cs.drop (signLength cs)) ≠ 0 then
      digitsLength false (cs.drop (signLength cs)) + 1 + signLength cs
    else 0 := by
  rw [exponentLength]
  by_cases hc : (c == 'e' || c == 'E') = true
  · rw [if_pos hc]
    cases digitsLength false (cs.drop (signLength cs)) <;> simp [hc]
  · simp [hc]

theorem exists_decimal_of_fractionLength (h : fractionLength cs ≠ 0) :
    ∃ fs, cs.take (fractionLength cs) = '.' :: fs ∧ IsDigits fs := by
  cases cs with
  | nil => exact absurd rfl h
  | cons c cs =>
    by_cases hc : c = '.'
    · subst hc
      rw [fractionLength_dot] at h ⊢
      split at h
      · exact absurd rfl h
      · rename_i hdigits
        rw [if_neg hdigits, List.take_succ_cons]
        exact ⟨_, rfl, isDigits_take_false hdigits⟩
    · exact absurd (fractionLength_of_ne hc cs) h

theorem take_signLength (cs : List Char) : cs.take (signLength cs) ∈ [[], ['+'], ['-']] := by
  unfold signLength
  split <;> simp

theorem isExponent_take (h : exponentLength cs ≠ 0) : IsExponent (cs.take (exponentLength cs)) := by
  cases cs with
  | nil => exact absurd rfl h
  | cons c cs =>
    rw [exponentLength_cons] at h ⊢
    split at h
    · rename_i hmark
      obtain ⟨hc, hdigits⟩ := hmark
      have hlength : digitsLength false (cs.drop (signLength cs)) + 1 + signLength cs =
          signLength cs + digitsLength false (cs.drop (signLength cs)) + 1 := by omega
      rw [if_pos ⟨hc, hdigits⟩, hlength, List.take_succ_cons, List.take_add]
      exact .mk (by simpa using hc) (take_signLength cs) (isDigits_take_false hdigits)
    · exact absurd rfl h

/-- The length of what stands before an exponent. -/
def mantissaLength (cs : List Char) : Nat :=
  digitsLength false cs + fractionLength (cs.drop (digitsLength false cs))

theorem readNumber?_eq (cs : List Char) : readNumber? cs =
    let exponent := exponentLength (cs.drop (mantissaLength cs))
    let isWhole := fractionLength (cs.drop (digitsLength false cs)) + exponent == 0
    if mantissaLength cs = 0 then none
    else some (.token .number (numberValue isWhole (cs.take (mantissaLength cs + exponent)))
      (mantissaLength cs + exponent)) := by
  simp only [readNumber?, beq_iff_eq]
  rfl

theorem isMantissa_take (h : mantissaLength cs ≠ 0) :
    IsMantissa (fractionLength (cs.drop (digitsLength false cs)) == 0) (cs.take (mantissaLength cs)) := by
  unfold mantissaLength at h ⊢
  by_cases hfraction : fractionLength (cs.drop (digitsLength false cs)) = 0
  · rw [hfraction, Nat.add_zero] at h ⊢
    exact .whole (isDigits_take_false h)
  · obtain ⟨fs, hfs, hdigits⟩ := exists_decimal_of_fractionLength hfraction
    rw [List.take_add, hfs, beq_false_of_ne hfraction]
    refine .decimal ?_ hdigits
    by_cases hwhole : digitsLength false cs = 0
    · exact .inl (by rw [hwhole, List.take_zero])
    · exact .inr (isDigits_take_false hwhole)

/-- What is read as a number has the form of one. -/
theorem exists_isNumeral_of_readNumber? (h : readNumber? cs = some l) : ∃ isWhole n,
    l = .token .number (numberValue isWhole (cs.take n)) n ∧ IsNumeral isWhole (cs.take n) := by
  rw [readNumber?_eq] at h
  simp only [Option.ite_none_left_eq_some, Option.some_inj] at h
  obtain ⟨hmantissa, rfl⟩ := h
  refine ⟨_, _, rfl, ?_⟩
  have hms := isMantissa_take hmantissa
  by_cases hexponent : exponentLength (cs.drop (mantissaLength cs)) = 0
  · rw [hexponent, Nat.add_zero, Nat.add_zero]
    exact .mantissa hms
  · rw [beq_false_of_ne (by omega), List.take_add]
    exact .exponent hms (isExponent_take hexponent)

/-! A number literal with more of the text behind it. -/

theorem digitsLength_before_point (h : ds = [] ∨ IsDigits ds) (cs : List Char) :
    digitsLength false (ds ++ '.' :: cs) = ds.length := by
  obtain rfl | hds := h
  · exact digitsLength_of_ne rfl (by decide) false cs
  · rw [hds.digitsLength_append, digitsLength_of_ne rfl (by decide), Nat.add_zero]

theorem fractionLength_decimal (h : IsDigits ds) (rest : List Char) :
    fractionLength ('.' :: (ds ++ rest)) = ds.length + digitsLength true rest + 1 := by
  have hpos := List.length_pos_iff.mpr h.ne_nil
  rw [fractionLength_dot, h.digitsLength_append, if_neg (by omega)]

theorem IsMantissa.length_le (h : IsMantissa isWhole ms) (rest : List Char) :
    ms.length ≤ mantissaLength (ms ++ rest) := by
  unfold mantissaLength
  cases h with
  | whole hds =>
    rw [hds.digitsLength_append]
    omega
  | @decimal ds fs hds hfs =>
    rw [List.append_assoc, List.cons_append, digitsLength_before_point hds, List.drop_left,
      fractionLength_decimal hfs, List.length_append, List.length_cons]
    omega

/-- In front of what no mantissa goes on with a mantissa is read as a whole. -/
theorem IsMantissa.read (h : IsMantissa isWhole ms) (hrest : EndsMantissa rest) :
    mantissaLength (ms ++ rest) = ms.length ∧
      (fractionLength ((ms ++ rest).drop (digitsLength false (ms ++ rest))) == 0) = isWhole := by
  unfold mantissaLength
  cases h with
  | whole hds =>
    rw [hds.digitsLength_append, hrest.digits, Nat.add_zero, List.drop_left, hrest.fraction]
    exact ⟨rfl, rfl⟩
  | @decimal ds fs hds hfs =>
    rw [List.append_assoc, List.cons_append, digitsLength_before_point hds, List.drop_left,
      fractionLength_decimal hfs, hrest.digits, List.length_append, List.length_cons]
    exact ⟨rfl, rfl⟩

theorem IsExponent.endsMantissa (h : IsExponent es) (rest : List Char) :
    EndsMantissa (es ++ rest) := by
  obtain ⟨rfl | rfl, -, -⟩ := h <;> exact ⟨rfl, rfl⟩

theorem signLength_append {sign : List Char} (hsign : sign ∈ [[], ['+'], ['-']]) (h : IsDigits ds)
    (rest : List Char) : signLength (sign ++ (ds ++ rest)) = sign.length := by
  simp only [List.mem_cons, List.not_mem_nil, or_false] at hsign
  rcases hsign with rfl | rfl | rfl
  · obtain ⟨c, cs, hcs⟩ := List.exists_cons_of_ne_nil h.ne_nil
    have hdigit : c.isDigit = true := by
      have hstart := h.startsWithDigit rest
      rwa [hcs] at hstart
    have hplus : c ≠ '+' := by
      rintro rfl
      exact absurd hdigit (by decide)
    have hminus : c ≠ '-' := by
      rintro rfl
      exact absurd hdigit (by decide)
    simp [hcs, signLength, hplus, hminus]
  · rfl
  · rfl

theorem IsExponent.exponentLength_append (h : IsExponent es) (rest : List Char) :
    exponentLength (es ++ rest) = es.length + digitsLength true rest := by
  obtain @⟨mark, sign, ds, hmark, hsign, hds⟩ := h
  have hpos := List.length_pos_iff.mpr hds.ne_nil
  rw [List.cons_append, List.append_assoc, exponentLength_cons, signLength_append hsign hds,
    List.drop_left, hds.digitsLength_append, if_pos ⟨by simpa using hmark, by omega⟩, List.length_cons,
    List.length_append]
  omega

theorem IsMantissa.length_pos (h : IsMantissa isWhole ms) : 0 < ms.length := by
  cases h with
  | whole hds => exact List.length_pos_iff.mpr hds.ne_nil
  | decimal =>
    rw [List.length_append, List.length_cons]
    omega

/-- A number literal begins with a digit or with a point, and has no characters that count as spaces. -/
theorem IsNumeral.exists_head (h : IsNumeral isWhole cs) :
    ∃ c cs', cs = c :: cs' ∧ (c.isDigit = true ∨ c = '.') := by
  have hdigits {ds : List Char} (hds : IsDigits ds) (rest : List Char) :
      ∃ c cs', ds ++ rest = c :: cs' ∧ (c.isDigit = true ∨ c = '.') := by
    cases hds <;> exact ⟨_, _, rfl, .inl ‹_›⟩
  have hmantissa {isWhole : Bool} {ms : List Char} (hms : IsMantissa isWhole ms) (rest : List Char) :
      ∃ c cs', ms ++ rest = c :: cs' ∧ (c.isDigit = true ∨ c = '.') := by
    cases hms with
    | whole hds => exact hdigits hds rest
    | decimal hds _ =>
      rw [List.append_assoc]
      obtain rfl | hds := hds
      · exact ⟨_, _, rfl, .inr rfl⟩
      · exact hdigits hds _
  cases h with
  | mantissa hms =>
    rw [← List.append_nil cs]
    exact hmantissa hms []
  | exponent hms _ => exact hmantissa hms _

theorem IsNumeral.map_normalize (h : IsNumeral isWhole cs) : cs.map normalize = cs := by
  have hmantissa {isWhole : Bool} {ms : List Char} (hms : IsMantissa isWhole ms) :
      ms.map normalize = ms := by
    cases hms with
    | whole hds => exact hds.map_normalize
    | decimal hds hfs =>
      rw [List.map_append, List.map_cons, hfs.map_normalize]
      obtain rfl | hds := hds
      · rfl
      · rw [hds.map_normalize]
        rfl
  cases h with
  | mantissa hms => exact hmantissa hms
  | exponent hms hes =>
    obtain ⟨hmark, hsign, hds⟩ := hes
    simp only [List.mem_cons, List.not_mem_nil, or_false] at hsign
    rw [List.map_append, List.map_cons, List.map_append, hmantissa hms, hds.map_normalize]
    rcases hmark with rfl | rfl <;> rcases hsign with rfl | rfl | rfl <;> rfl

/-- At least as much is read as a number as any number literal takes that stands there. -/
theorem IsNumeral.exists_readNumber? (h : IsNumeral isWhole cs) (rest : List Char) :
    ∃ value n, readNumber? (cs ++ rest) = some (.token .number value n) ∧ cs.length ≤ n := by
  rw [readNumber?_eq]
  cases h with
  | mantissa hms =>
    have hpos := hms.length_pos
    have hle := hms.length_le rest
    rw [if_neg (by omega)]
    exact ⟨_, _, rfl, by omega⟩
  | @exponent _ ms es hms hes =>
    have hpos := hms.length_pos
    rw [List.append_assoc, (hms.read (hes.endsMantissa rest)).1, List.drop_left,
      hes.exponentLength_append, if_neg (by omega), List.length_append]
    exact ⟨_, _, rfl, by omega⟩

/-- In front of what it does not go on with a number literal is read as it is. -/
theorem IsNumeral.readNumber? (h : IsNumeral isWhole cs) (hrest : EndsNumeral rest) :
    readNumber? (cs ++ rest) = some (.token .number (numberValue isWhole cs) cs.length) := by
  rw [readNumber?_eq]
  cases h with
  | mantissa hms =>
    have hpos := hms.length_pos
    obtain ⟨hlength, hwhole⟩ := hms.read hrest.toEndsMantissa
    simp only [hlength, List.drop_left, hrest.exponent, Nat.add_zero, List.take_left, hwhole]
    rw [if_neg (by omega)]
  | @exponent _ ms es hms hes =>
    have hpos := hms.length_pos
    have hpos' : 0 < es.length := by
      obtain ⟨-, -, -⟩ := hes
      exact Nat.succ_pos _
    have hexponent := hes.exponentLength_append rest
    rw [hrest.digits, Nat.add_zero] at hexponent
    rw [List.append_assoc, (hms.read (hes.endsMantissa rest)).1, List.drop_left, hexponent,
      if_neg (by omega), ← List.append_assoc, ← List.length_append, List.take_left,
      beq_false_of_ne (by omega)]

end Formula.Lexer
