import Formula.Cache
import Formula.Cache.Key
import Formula.Parsing.Production
import Formula.Proofs.Text.Percent

/-! A key under which a parse is stored is a valid key, and it tells the text, the leniency and, but
for their order, the variables that it was made of. -/

namespace Formula

/-- Every name in a variable is one that an expression may hold. -/
def Variable.IsIdentifier : Variable → Prop
  | .plain name => Parsing.isIdentifier name = true
  | .aliased key name => Parsing.isIdentifier key = true ∧ Parsing.isIdentifier name = true

namespace Parsing

theorem exists_start_of_isIdentifier {s : String} (h : isIdentifier s = true) :
    ∃ c cs, s.toList = c :: cs ∧ isIdentifierStart c = true := by
  unfold isIdentifier at h
  split at h
  · exact absurd h (by decide)
  · rename_i c cs heq
    exact ⟨c, cs, heq, (Bool.and_eq_true_iff.mp h).1⟩

theorem mem_isIdentifier {s : String} {c : Char} (h : isIdentifier s = true) (hc : c ∈ s.toList) :
    isIdentifierStart c = true ∨ c.isDigit = true := by
  unfold isIdentifier at h
  split at h
  · exact absurd h (by decide)
  · rename_i c' cs heq
    rw [Bool.and_eq_true, List.all_eq_true] at h
    rw [heq] at hc
    rcases List.mem_cons.mp hc with rfl | hc
    · exact .inl h.1
    · simpa using h.2 c hc

end Parsing

/-- No separator of a key stands in a name. -/
theorem notMem_of_isIdentifier {s : String} {c : Char} (hs : Parsing.isIdentifier s = true)
    (hc : c ∈ ['/', '|', ':']) : c ∉ s.toList := by
  intro hmem
  have hchar := Parsing.mem_isIdentifier hs hmem
  simp only [List.mem_cons, List.not_mem_nil, or_false] at hc
  rcases hc with rfl | rfl | rfl <;> revert hchar <;> decide

/-- The last place of a character parts a list in one way only. -/
theorem append_cons_inj_of_notMem_right {α : Type} {a : α} (xs xs' : List α) {ys ys' : List α}
    (h : a ∉ ys) (h' : a ∉ ys') (heq : xs ++ a :: ys = xs' ++ a :: ys') : xs = xs' ∧ ys = ys' := by
  simp only [List.append_eq_append_iff, List.cons_eq_append_iff] at heq
  rcases heq with ⟨bs, rfl, ⟨rfl, htail⟩ | ⟨cs, rfl, rfl⟩⟩ | ⟨bs, rfl, ⟨rfl, htail⟩ | ⟨cs, rfl, rfl⟩⟩
  · simpa using htail.symm
  · simp at h
  · simpa using htail
  · simp at h'

namespace Variable

theorem notMem_display {v : Variable} (hv : v.IsIdentifier) {c : Char} (hc : c ∈ ['/', '|']) :
    c ∉ v.display.toList := by
  have hsep : c ∈ ['/', '|', ':'] := List.mem_append_left [':'] hc
  cases v with
  | plain name => exact notMem_of_isIdentifier hv hsep
  | aliased key name =>
    have hcolon : c ≠ ':' := by
      rintro rfl
      exact absurd hc (by decide)
    simp [display, notMem_of_isIdentifier hv.1 hsep, notMem_of_isIdentifier hv.2 hsep, hcolon]

theorem exists_start_display {v : Variable} (hv : v.IsIdentifier) :
    ∃ c cs, v.display.toList = c :: cs ∧ Parsing.isIdentifierStart c = true := by
  cases v with
  | plain name => exact Parsing.exists_start_of_isIdentifier hv
  | aliased key name =>
    obtain ⟨c, cs, heq, hc⟩ := Parsing.exists_start_of_isIdentifier hv.1
    exact ⟨c, cs ++ ':' :: name.toList, by simp [display, heq], hc⟩

theorem display_inj {v w : Variable} (hv : v.IsIdentifier) (hw : w.IsIdentifier)
    (h : v.display = w.display) : v = w := by
  have hcolon {s : String} (hs : Parsing.isIdentifier s = true) : ':' ∉ s.toList :=
    notMem_of_isIdentifier hs (by decide)
  have hlist := congrArg String.toList h
  cases v with
  | plain name =>
    cases w with
    | plain name' => exact congrArg plain h
    | aliased key name' =>
      simp only [display, String.toList_append] at hlist
      exact absurd (hlist ▸ by simp : ':' ∈ name.toList) (hcolon hv)
  | aliased key name =>
    cases w with
    | plain name' =>
      simp only [display, String.toList_append] at hlist
      exact absurd (hlist ▸ by simp : ':' ∈ name'.toList) (hcolon hw)
    | aliased key' name' =>
      have hparts : key.toList ++ ':' :: name.toList = key'.toList ++ ':' :: name'.toList := by
        simpa [display] using hlist
      obtain ⟨hkey, hname⟩ := append_cons_inj_of_notMem_right _ _ (hcolon hv.2) (hcolon hw.2) hparts
      rw [String.toList_inj.mp hkey, String.toList_inj.mp hname]

end Variable

/-- The variables as they stand in a key. -/
def listed (declared : List Variable) : List Char :=
  ['|'].intercalate (declared.map fun v => v.display.toList)

theorem notMem_intercalate {c : Char} (hc : c ≠ '|') {ls : List (List Char)} (h : ∀ l ∈ ls, c ∉ l) :
    c ∉ ['|'].intercalate ls := by
  induction ls with
  | nil => simp
  | cons l ls ih =>
    rw [List.forall_mem_cons] at h
    cases ls with
    | nil => simpa using h.1
    | cons l' ls => simpa [h.1, hc] using ih h.2

theorem notMem_listed {declared : List Variable} (h : ∀ v ∈ declared, v.IsIdentifier) :
    '/' ∉ listed declared := by
  refine notMem_intercalate (by decide) fun l hl => ?_
  obtain ⟨v, hv, rfl⟩ := List.mem_map.mp hl
  exact Variable.notMem_display (h v hv) (by decide)

theorem listed_eq_nil_or_start {declared : List Variable} (h : ∀ v ∈ declared, v.IsIdentifier) :
    listed declared = [] ∨
      ∃ c cs, listed declared = c :: cs ∧ Parsing.isIdentifierStart c = true := by
  cases declared with
  | nil => simp [listed]
  | cons v vs =>
    right
    obtain ⟨c, cs, heq, hc⟩ := Variable.exists_start_display (h v List.mem_cons_self)
    cases vs with
    | nil => exact ⟨c, cs, by simp [listed, heq], hc⟩
    | cons w vs => exact ⟨c, cs ++ '|' :: listed (w :: vs), by simp [listed, heq], hc⟩

theorem eq_of_map_display {vs ws : List Variable} (hvs : ∀ v ∈ vs, v.IsIdentifier)
    (hws : ∀ w ∈ ws, w.IsIdentifier)
    (h : (vs.map fun v => v.display.toList) = ws.map fun w => w.display.toList) : vs = ws := by
  induction vs generalizing ws with
  | nil => exact (List.map_eq_nil_iff.mp h.symm).symm
  | cons v vs ih =>
    obtain ⟨w, ws, rfl⟩ := List.exists_cons_of_ne_nil (by rintro rfl; simp at h : ws ≠ [])
    rw [List.map_cons, List.map_cons, List.cons.injEq, String.toList_inj] at h
    rw [Variable.display_inj (hvs v List.mem_cons_self) (hws w List.mem_cons_self) h.1]
    rw [ih (fun x hx => hvs x (List.mem_cons_of_mem v hx))
      (fun x hx => hws x (List.mem_cons_of_mem w hx)) h.2]

/-- Texts without bars are known from their list with bars between them, but one empty text looks like
none. -/
theorem intercalate_bar_inj {ls ls' : List (List Char)} (h : ∀ l ∈ ls, '|' ∉ l)
    (h' : ∀ l ∈ ls', '|' ∉ l) (hne : ls ≠ [[]]) (hne' : ls' ≠ [[]])
    (heq : ['|'].intercalate ls = ['|'].intercalate ls') : ls = ls' := by
  have hnil {ls : List (List Char)} (hne : ls ≠ [[]]) (hnil : ['|'].intercalate ls = []) : ls = [] := by
    match ls with
    | [] => rfl
    | [l] => exact absurd (by simpa using hnil) hne
    | l :: l' :: ls => simp at hnil
  by_cases hls : ls = []
  · rw [hls] at heq ⊢
    exact (hnil hne' heq.symm).symm
  · have hls' : ls' ≠ [] := fun hls' => hls (hnil hne (by rw [heq, hls']; rfl))
    rw [← List.splitOn_intercalate '|' h hls, ← List.splitOn_intercalate '|' h' hls', heq]

theorem listed_inj {declared declared' : List Variable} (h : ∀ v ∈ declared, v.IsIdentifier)
    (h' : ∀ v ∈ declared', v.IsIdentifier) (heq : listed declared = listed declared') :
    declared = declared' := by
  have hbar {vs : List Variable} (hvs : ∀ v ∈ vs, v.IsIdentifier) :
      ∀ l ∈ vs.map fun v => v.display.toList, '|' ∉ l := by
    intro l hl
    obtain ⟨v, hv, rfl⟩ := List.mem_map.mp hl
    exact Variable.notMem_display (hvs v hv) (by decide)
  have hne {vs : List Variable} (hvs : ∀ v ∈ vs, v.IsIdentifier) :
      (vs.map fun v => v.display.toList) ≠ [[]] := by
    intro hempty
    obtain ⟨v, rfl, hv⟩ : ∃ v, vs = [v] ∧ v.display.toList = [] := by simpa using hempty
    obtain ⟨c, cs, hc, -⟩ := Variable.exists_start_display (hvs v List.mem_cons_self)
    simp [hv] at hc
  exact eq_of_map_display h h' (intercalate_bar_inj (hbar h) (hbar h') (hne h) (hne h') heq)

/-- The end of a key, for checks that are left out. -/
def keyEnd (leniency : Leniency) : List Char :=
  if leniency == {} then [] else '/' :: '/' :: (toString leniency.bits).toList

theorem keyEnd_inj {leniency leniency' : Leniency} (h : keyEnd leniency = keyEnd leniency') :
    leniency = leniency' := by
  obtain ⟨v, f⟩ := leniency
  obtain ⟨v', f'⟩ := leniency'
  revert h
  revert v f v' f'
  decide

theorem keyEnd_eq_nil_or_digit (leniency : Leniency) : keyEnd leniency = [] ∨
    ∃ d, keyEnd leniency = ['/', '/', d] ∧ d.isDigit = true ∧ Parsing.isIdentifierStart d = false := by
  obtain ⟨v, f⟩ := leniency
  cases v <;> cases f
  · exact .inl rfl
  · exact .inr ⟨'2', by decide⟩
  · exact .inr ⟨'1', by decide⟩
  · exact .inr ⟨'3', by decide⟩

theorem toList_rawCacheKey (source : String) (declared : List Variable) (leniency : Leniency) :
    (rawCacheKey source declared leniency).toList =
      source.toList ++ '/' :: '/' :: (listed (declared.mergeSort Variable.le) ++ keyEnd leniency) := by
  have hlisted : (String.intercalate "|" ((declared.mergeSort Variable.le).map Variable.display)).toList
      = listed (declared.mergeSort Variable.le) := by
    simp [String.toList_intercalate, listed, Function.comp_def]
  unfold rawCacheKey keyEnd
  split <;> simp [hlisted]

/-- The last separator of a key parts it in one way, if no slash stands among the names and they are
not what a leniency adds to a key. -/
theorem keyParts_inj {cs cs' names names' : List Char} {leniency leniency' : Leniency}
    (hslash : '/' ∉ names) (hslash' : '/' ∉ names')
    (hend : ∀ l, keyEnd l ≠ '/' :: '/' :: names) (hend' : ∀ l, keyEnd l ≠ '/' :: '/' :: names')
    (heq : cs ++ '/' :: '/' :: (names ++ keyEnd leniency) =
      cs' ++ '/' :: '/' :: (names' ++ keyEnd leniency')) :
    cs = cs' ∧ names = names' ∧ leniency = leniency' := by
  have hdigit {d : Char} (hd : d.isDigit = true) : '/' ∉ [d] := by
    intro hmem
    rw [← List.mem_singleton.mp hmem] at hd
    exact absurd hd (by decide)
  have hplain (heq : cs ++ '/' :: '/' :: names = cs' ++ '/' :: '/' :: names') :
      cs = cs' ∧ names = names' := by
    obtain ⟨hcs, hnames⟩ :=
      append_cons_inj_of_notMem_right (cs ++ ['/']) (cs' ++ ['/']) hslash hslash' (by simpa using heq)
    exact ⟨List.append_cancel_right hcs, hnames⟩
  -- A key ends in the names or in a digit: what stands behind its last slash tells which.
  obtain hm | ⟨d, hm, hd, -⟩ := keyEnd_eq_nil_or_digit leniency <;>
    obtain hm' | ⟨d', hm', hd', -⟩ := keyEnd_eq_nil_or_digit leniency' <;>
    rw [hm, hm'] at heq
  · obtain ⟨hcs, hnames⟩ := hplain (by simpa using heq)
    exact ⟨hcs, hnames, keyEnd_inj (hm.trans hm'.symm)⟩
  · obtain ⟨-, hnames⟩ := append_cons_inj_of_notMem_right (cs ++ ['/'])
      (cs' ++ '/' :: '/' :: (names' ++ ['/'])) hslash (hdigit hd') (by simpa using heq)
    exact absurd (hnames ▸ hm') (hend leniency')
  · obtain ⟨-, hnames⟩ := append_cons_inj_of_notMem_right (cs ++ '/' :: '/' :: (names ++ ['/']))
      (cs' ++ ['/']) (hdigit hd) hslash' (by simpa using heq)
    exact absurd (hnames ▸ hm) (hend' leniency)
  · obtain ⟨hbody, hdigits⟩ := append_cons_inj_of_notMem_right
      (cs ++ '/' :: '/' :: (names ++ ['/'])) (cs' ++ '/' :: '/' :: (names' ++ ['/']))
      (hdigit hd) (hdigit hd') (by simpa using heq)
    have hbody' : cs ++ '/' :: '/' :: names = cs' ++ '/' :: '/' :: names' := by
      apply (List.append_left_inj ['/']).mp
      simpa using hbody
    obtain ⟨hcs, hnames⟩ := hplain hbody'
    exact ⟨hcs, hnames, keyEnd_inj (by rw [hm, hm', hdigits])⟩

theorem keyEnd_ne_listed {declared : List Variable} (h : ∀ v ∈ declared, v.IsIdentifier)
    (leniency : Leniency) : keyEnd leniency ≠ '/' :: '/' :: listed declared := by
  intro heq
  obtain hm | ⟨d, hm, -, hd⟩ := keyEnd_eq_nil_or_digit leniency <;> rw [hm] at heq
  · exact absurd heq (by simp)
  · simp only [List.cons.injEq, true_and] at heq
    rcases listed_eq_nil_or_start h with hnil | ⟨c, cs, hcons, hc⟩
    · simp [hnil] at heq
    · rw [hcons, List.cons.injEq] at heq
      simp [← heq.1, hd] at hc

theorem rawCacheKey_inj {source source' : String} {declared declared' : List Variable}
    {leniency leniency' : Leniency} (h : ∀ v ∈ declared, v.IsIdentifier)
    (h' : ∀ v ∈ declared', v.IsIdentifier)
    (heq : rawCacheKey source declared leniency = rawCacheKey source' declared' leniency') :
    source = source' ∧ declared.Perm declared' ∧ leniency = leniency' := by
  have hsort {vs : List Variable} (hvs : ∀ v ∈ vs, v.IsIdentifier) :
      ∀ v ∈ vs.mergeSort Variable.le, v.IsIdentifier := fun v hv => hvs v (List.mem_mergeSort.mp hv)
  have hchars := congrArg String.toList heq
  rw [toList_rawCacheKey, toList_rawCacheKey] at hchars
  obtain ⟨hsource, hlisted, hleniency⟩ :=
    keyParts_inj (notMem_listed (hsort h)) (notMem_listed (hsort h')) (keyEnd_ne_listed (hsort h))
      (keyEnd_ne_listed (hsort h')) hchars
  have hsorted := listed_inj (hsort h) (hsort h') hlisted
  have hperm := (List.mergeSort_perm declared Variable.le).symm.trans
    (hsorted ▸ List.mergeSort_perm declared' Variable.le)
  exact ⟨String.toList_inj.mp hsource, hperm, hleniency⟩

/-- The key of a parse tells everything that the parse depends on. -/
theorem cacheKey_inj {source source' : String} {declared declared' : List Variable}
    {leniency leniency' : Leniency} (h : ∀ v ∈ declared, v.IsIdentifier)
    (h' : ∀ v ∈ declared', v.IsIdentifier)
    (heq : cacheKey source declared leniency = cacheKey source' declared' leniency') :
    source = source' ∧ declared.Perm declared' ∧ leniency = leniency' :=
  rawCacheKey_inj h h' (Text.percentEncode_inj heq)

theorem validateKey_cacheKey (source : String) (declared : List Variable) (leniency : Leniency) :
    validateKey (cacheKey source declared leniency) = .ok () := by
  have hne : cacheKey source declared leniency ≠ "" := by
    intro hempty
    have hraw : rawCacheKey source declared leniency = "" := by
      apply Text.percentEncode_inj
      rw [← cacheKey, hempty]
      rfl
    have hlist := congrArg String.toList hraw
    rw [toList_rawCacheKey] at hlist
    simp at hlist
  have hfind : (cacheKey source declared leniency).toList.find? reservedCharacters.contains = none := by
    refine List.find?_eq_none.mpr fun c hc hreserved => ?_
    have hplain := Text.mem_percentEncode hc
    simp only [reservedCharacters, List.contains_eq_mem, decide_eq_true_eq, List.mem_cons,
      List.not_mem_nil, or_false] at hreserved
    rcases hreserved with rfl | rfl | rfl | rfl | rfl | rfl | rfl | rfl <;> revert hplain <;> decide
  rw [validateKey, if_neg (by simpa using hne), hfind]

end Formula
