import Mathlib
import Formula.Proofs.Evaluation.Arithmetic
import Formula.Script

/-! Pattern literals are taken apart in two places, for evaluation and for JavaScript. Both end the body at
the last slash, and they differ only in what they do not take. -/

namespace Formula

namespace Pattern

variable {cs body letters : List Char} {literal : String} {flags read : Flags}

theorem splitLastSlash?_of_notMem (h : '/' ∉ cs) : splitLastSlash? cs = none := by
  induction cs with
  | nil => rfl
  | cons c cs ih =>
    obtain ⟨hc, hcs⟩ := List.ne_and_not_mem_of_not_mem_cons h
    have hslash : (c == '/') = false := beq_eq_false_iff_ne.mpr (Ne.symm hc)
    simp [splitLastSlash?, ih hcs, hslash]

theorem splitLastSlash?_append (body : List Char) (h : '/' ∉ letters) :
    splitLastSlash? (body ++ '/' :: letters) = some (body, letters) := by
  induction body with
  | nil => simp [splitLastSlash?, splitLastSlash?_of_notMem h]
  | cons c body ih => simp [splitLastSlash?, ih]

/-- A slash stands in the text, and the last one ends the body. -/
theorem splitLastSlash?_eq_some_iff :
    splitLastSlash? cs = some (body, letters) ↔ cs = body ++ '/' :: letters ∧ '/' ∉ letters := by
  refine ⟨fun h => ?_, ?_⟩
  · have hslash : '/' ∈ cs := by
      by_contra hnone
      rw [splitLastSlash?_of_notMem hnone] at h
      cases h
    -- Read backwards, the last slash is the first one.
    obtain ⟨after, before, hreverse, hafter⟩ :=
      List.eq_append_cons_of_mem (List.mem_reverse.mpr hslash)
    have hcs : cs = before.reverse ++ '/' :: after.reverse := by
      rw [← List.reverse_reverse cs, hreverse]
      simp
    have hletters : '/' ∉ after.reverse := mt List.mem_reverse.mp hafter
    rw [hcs, splitLastSlash?_append _ hletters, Option.some_inj, Prod.mk.injEq] at h
    obtain ⟨rfl, rfl⟩ := h
    exact ⟨hcs, hletters⟩
  · rintro ⟨rfl, hletters⟩
    exact splitLastSlash?_append body hletters

/-- Every letter is known, and each sets its own flag. -/
theorem readFlags_eq_ok_iff : readFlags flags letters = .ok read ↔
    (∀ c ∈ letters, c ∈ ['i', 'm', 's', 'x', 'u', 'g', 'y']) ∧
      read = ⟨flags.ignoreCase || letters.contains 'i', flags.multiline || letters.contains 'm',
        flags.dotAll || letters.contains 's', flags.extended || letters.contains 'x'⟩ := by
  fun_induction readFlags flags letters with
  | case1 flags => simp [eq_comm]
  | case2 flags cs ih | case3 flags cs ih | case4 flags cs ih | case5 flags cs ih
  | case6 flags cs ih | case7 flags cs ih | case8 flags cs ih =>
    rw [ih]
    simp
  | case9 flags c cs hi hm hs hx hu hg hy =>
    refine iff_of_false nofun fun h => ?_
    have hc : c = 'i' ∨ c = 'm' ∨ c = 's' ∨ c = 'x' ∨ c = 'u' ∨ c = 'g' ∨ c = 'y' := by
      simpa using h.1 c List.mem_cons_self
    tauto

theorem extended_eq_false_iff (h : readFlags {} letters = .ok read) :
    read.extended = false ↔ 'x' ∉ letters := by
  obtain ⟨-, rfl⟩ := readFlags_eq_ok_iff.mp h
  simp

theorem slash_notMem_of_readFlags (h : readFlags flags letters = .ok read) : '/' ∉ letters :=
  fun hslash => absurd ((readFlags_eq_ok_iff.mp h).1 '/' hslash) (by decide)

theorem splitLiteral_of_toList (hliteral : literal.toList = '/' :: (body ++ '/' :: letters))
    (hletters : '/' ∉ letters) : splitLiteral literal = (readFlags {} letters).map (body, ·) := by
  simp only [splitLiteral, hliteral, splitLastSlash?_append body hletters]

theorem splitLiteral_eq_ok_iff : splitLiteral literal = .ok (body, read) ↔
    ∃ letters, literal.toList = '/' :: (body ++ '/' :: letters) ∧ '/' ∉ letters ∧
      readFlags {} letters = .ok read := by
  constructor
  · intro h
    unfold splitLiteral at h
    split at h
    · rename_i cs hliteral
      split at h
      · rename_i body' letters hsplit
        obtain ⟨rfl, hletters⟩ := splitLastSlash?_eq_some_iff.mp hsplit
        cases hread : readFlags {} letters with
        | error fault =>
          rw [hread] at h
          cases h
        | ok read' =>
          rw [hread] at h
          obtain ⟨rfl, rfl⟩ := Prod.mk.inj (Except.ok.inj h)
          exact ⟨letters, hliteral, hletters, hread⟩
      · cases h
    · cases h
  · rintro ⟨letters, hliteral, hletters, hread⟩
    rw [splitLiteral_of_toList hliteral hletters, hread]
    rfl

/-- A literal that was taken apart can only have a fault inside its body. -/
theorem fault_of_ofLiteral {fault : Fault} (hsplit : splitLiteral literal = .ok (body, read))
    (h : ofLiteral literal = .error fault) : fault = .malformed := by
  cases hbody : ofBody? read body with
  | some p =>
    have hpattern : ofLiteral literal = .ok p := by
      simp only [ofLiteral, hsplit, bind, Except.bind, hbody]
      rfl
    rw [hpattern] at h
    cases h
  | none =>
    have hmalformed : ofLiteral literal = .error .malformed := by
      simp only [ofLiteral, hsplit, bind, Except.bind, hbody]
      rfl
    exact Except.error.inj (h.symm.trans hmalformed)

end Pattern

namespace Script

variable {literal : String} {body letters : List Char}

theorem patternParts?_eq_some_iff : patternParts? literal = some (body, letters) ↔
    literal.toList = '/' :: (body ++ '/' :: letters) ∧ '/' ∉ letters ∧ body ≠ [] ∧
      ∀ c ∈ letters, c ∈ ['i', 'm', 's', 'u', 'g', 'y'] := by
  constructor
  · intro h
    unfold patternParts? at h
    split at h
    · rename_i cs hliteral
      obtain ⟨⟨body', letters'⟩, hsplit, hparts⟩ := Option.bind_eq_some_iff.mp h
      obtain ⟨hcs, hletters⟩ := Pattern.splitLastSlash?_eq_some_iff.mp hsplit
      obtain ⟨⟨hbody, hknown⟩, rfl, rfl⟩ :
          (body' ≠ [] ∧ ∀ c ∈ letters', c ∈ ['i', 'm', 's', 'u', 'g', 'y']) ∧
            body' = body ∧ letters' = letters := by
        simpa using hparts
      exact ⟨hcs ▸ hliteral, hletters, hbody, hknown⟩
    · cases h
  · rintro ⟨hliteral, hletters, hbody, hknown⟩
    have htaken : (body != [] &&
        letters.all (['i', 'm', 's', 'u', 'g', 'y'].contains ·)) = true := by
      simpa [hbody] using hknown
    simp only [patternParts?, hliteral, Pattern.splitLastSlash?_append body hletters,
      Option.bind_eq_bind, Option.bind_some, if_pos htaken]

/-- JavaScript knows the letters that evaluation does, but for the one that lets it skip blanks. -/
theorem forall_mem_known_iff : (∀ c ∈ letters, c ∈ ['i', 'm', 's', 'u', 'g', 'y']) ↔
    (∃ read, Pattern.readFlags {} letters = .ok read) ∧ 'x' ∉ letters := by
  constructor
  · intro hknown
    have hmore (c : Char) (hc : c ∈ letters) : c ∈ ['i', 'm', 's', 'x', 'u', 'g', 'y'] := by
      have := hknown c hc
      simp only [List.mem_cons, List.not_mem_nil] at this ⊢
      tauto
    exact ⟨⟨_, Pattern.readFlags_eq_ok_iff.mpr ⟨hmore, rfl⟩⟩,
      fun hx => absurd (hknown 'x' hx) (by decide)⟩
  · rintro ⟨⟨read, hread⟩, hx⟩ c hc
    have hknown := (Pattern.readFlags_eq_ok_iff.mp hread).1 c hc
    have hne : c ≠ 'x' := ne_of_mem_of_not_mem hc hx
    simp only [List.mem_cons, List.not_mem_nil] at hknown ⊢
    tauto

theorem patternParts?_iff_splitLiteral : patternParts? literal = some (body, letters) ↔
    ∃ read, Pattern.splitLiteral literal = .ok (body, read) ∧
      Pattern.readFlags {} letters = .ok read ∧
      literal.toList = '/' :: (body ++ '/' :: letters) ∧ body ≠ [] ∧ 'x' ∉ letters := by
  rw [patternParts?_eq_some_iff, forall_mem_known_iff]
  constructor
  · rintro ⟨hliteral, hletters, hbody, ⟨read, hread⟩, hx⟩
    have hsplit : Pattern.splitLiteral literal = .ok (body, read) :=
      Pattern.splitLiteral_eq_ok_iff.mpr ⟨letters, hliteral, hletters, hread⟩
    exact ⟨read, hsplit, hread, hliteral, hbody, hx⟩
  · rintro ⟨read, -, hread, hliteral, hbody, hx⟩
    exact ⟨hliteral, Pattern.slash_notMem_of_readFlags hread, hbody, ⟨read, hread⟩, hx⟩

theorem isSome_patternParts?_iff : (patternParts? literal).isSome = true ↔
    ∃ body read, Pattern.splitLiteral literal = .ok (body, read) ∧ body ≠ [] ∧
      read.extended = false := by
  rw [Option.isSome_iff_exists]
  constructor
  · rintro ⟨⟨body, letters⟩, hparts⟩
    obtain ⟨read, hsplit, hread, -, hbody, hx⟩ := patternParts?_iff_splitLiteral.mp hparts
    exact ⟨body, read, hsplit, hbody, (Pattern.extended_eq_false_iff hread).mpr hx⟩
  · rintro ⟨body, read, hsplit, hbody, hextended⟩
    obtain ⟨letters, hliteral, -, hread⟩ := Pattern.splitLiteral_eq_ok_iff.mp hsplit
    have hx := (Pattern.extended_eq_false_iff hread).mp hextended
    exact ⟨(body, letters),
      patternParts?_iff_splitLiteral.mpr ⟨read, hsplit, hread, hliteral, hbody, hx⟩⟩

/-- The script of a match, from those of its subject and its pattern. -/
def matchScript (subject pattern : String) : String :=
  "((subject, re) => subject != null && re.test(subject))(" ++ subject ++ ", " ++ pattern ++ ")"

theorem matchScript_inj {subject pattern pattern' : String}
    (h : matchScript subject pattern = matchScript subject pattern') : pattern = pattern' :=
  (String.append_right_inj _).mp ((String.append_left_inj _).mp h)

/-- Only a literal whose parts JavaScript gets is compiled to a pattern of its own. -/
theorem exists_patternParts? {source tail : String}
    (h : pattern (some literal) source = "new RegExp(" ++ tail) :
    ∃ body letters, patternParts? literal = some (body, letters) := by
  cases hparts : patternParts? literal with
  | some parts => exact ⟨parts.1, parts.2, rfl⟩
  | none =>
    have hchars := congrArg (fun s => s.toList.head?) h
    simp [pattern, hparts] at hchars

end Script

namespace Operation

theorem error_of_matching {subject : Value} {literal : String} {body : List Char}
    {read : Pattern.Flags} {error : EvalError}
    (hsplit : Pattern.splitLiteral literal = .ok (body, read))
    (h : matching subject (.string literal) = .error error) :
    error = .invalidPattern literal .malformed := by
  unfold matching at h
  split at h
  · cases h
  · dsimp only at h
    split at h
    · cases h
    · rename_i fault hfault
      rw [Pattern.fault_of_ofLiteral hsplit hfault] at h
      exact (Except.error.inj h).symm

end Operation

namespace Script

open Evaluation

/-- A pattern literal is taken apart for JavaScript just if evaluation takes it apart, with a body that is not
empty and without the flag that lets blanks be skipped. The parts are the same then, and a match that is
compiled with them fails on account of the literal only if its body is no pattern. -/
theorem patternParts?_agrees (literal : String) :
    (∀ body letters, patternParts? literal = some (body, letters) ↔
      ∃ read, Pattern.splitLiteral literal = .ok (body, read) ∧
        Pattern.readFlags {} letters = .ok read ∧
        literal.toList = '/' :: (body ++ '/' :: letters) ∧ body ≠ [] ∧ 'x' ∉ letters) ∧
    ((patternParts? literal).isSome = true ↔
      ∃ body read, Pattern.splitLiteral literal = .ok (body, read) ∧ body ≠ [] ∧
        read.extended = false) ∧
    ∀ (functions : Registry) (left : Expr) (isIdentifier : Bool) (tail : String),
      let whole : Expr := .binary .matching left (.const (.string literal) isIdentifier)
      whole.script functions = matchScript (left.script functions) ("new RegExp(" ++ tail) →
      (∃ body letters, patternParts? literal = some (body, letters) ∧
        "new RegExp(" ++ tail = "new RegExp(" ++ quoted (String.ofList body) ++ ", " ++
          quoted (String.ofList letters) ++ ")") ∧
      ∀ (env : Env) (soft : Bool) (calls : List Call) (subject : Value) (error : EvalError),
        evalIn env false left = ⟨calls, .ok subject⟩ →
        (evalIn env soft whole).result = .error error →
        error = .invalidPattern literal .malformed := by
  refine ⟨fun body letters => patternParts?_iff_splitLiteral, isSome_patternParts?_iff, ?_⟩
  intro functions left isIdentifier tail whole hscript
  have hpattern : pattern (some literal) (ofConstant (.string literal) isIdentifier) =
      "new RegExp(" ++ tail := matchScript_inj hscript
  obtain ⟨body, letters, hparts⟩ := exists_patternParts? hpattern
  refine ⟨⟨body, letters, hparts, ?_⟩, fun env soft calls subject error hleft herror => ?_⟩
  · rw [← hpattern, pattern, hparts]
  · obtain ⟨read, hsplit, -⟩ := patternParts?_iff_splitLiteral.mp hparts
    have hright : evalIn env false (.const (.string literal) isIdentifier) =
        ⟨[], .ok (.string literal)⟩ := rfl
    have hmap : (Operation.matching subject (.string literal)).map Value.bool = .error error := by
      rw [← herror, evalIn_binary_of_ok rfl soft hleft hright]
      rfl
    cases hmatching : Operation.matching subject (.string literal) with
    | ok found =>
      rw [hmatching] at hmap
      cases hmap
    | error e =>
      rw [hmatching] at hmap
      obtain rfl : e = error := Except.error.inj hmap
      exact Operation.error_of_matching hsplit hmatching

/-- The body `é/(`, which is no pattern. -/
theorem patternParts?_agrees_sample :
    let subject : Expr := .literal (.string "x")
    let whole : Expr := .binary .matching subject (.literal (.string "/é/(/gi"))
    patternParts? "/é/(/gi" = some (['é', '/', '('], ['g', 'i']) ∧
    whole.script {} = matchScript (subject.script {}) "new RegExp(\"é/(\", \"gi\")" ∧
    (evalIn (echoing []) false whole).result = .error (.invalidPattern "/é/(/gi" .malformed) := by
  intro subject whole
  obtain ⟨hparts, -, hmatch⟩ := patternParts?_agrees "/é/(/gi"
  have hfound : patternParts? "/é/(/gi" = some (['é', '/', '('], ['g', 'i']) :=
    (hparts _ _).mpr ⟨⟨true, false, false, false⟩, by decide⟩
  have hscript : whole.script {} =
      matchScript (subject.script {}) ("new RegExp(" ++ "\"é/(\", \"gi\")") := by decide
  have hfails : ∃ error, (evalIn (echoing []) false whole).result = .error error := ⟨_, rfl⟩
  obtain ⟨error, herror⟩ := hfails
  have hsubject : evalIn (echoing []) false subject = ⟨[], .ok (.string "x")⟩ := rfl
  have hown := (hmatch {} subject false _ hscript).2 (echoing []) false [] (.string "x") error hsubject herror
  exact ⟨hfound, hscript, hown ▸ herror⟩

end Script
end Formula
