import Mathlib
import Formula.Proofs.Language.Transparency

/-! Keys of parses under names of any text. Where no separator stands in a name they tell parses
apart as they do under identifiers; otherwise parses that differ may share a key. -/

namespace Formula

open Formula.Language

/-- Names that no separator of a key stands in. A single empty name would look like none at all, and
a single digit like the leniency of another parse. -/
structure Separable (names : List String) : Prop where
  bar : ∀ name ∈ names, '|' ∉ name.toList
  slash : ∀ name ∈ names, '/' ∉ name.toList
  alone : ∀ name ∈ ["", "1", "2", "3"], names ≠ [name]

variable {names names' : List String}

/-- Names in the order in which a key lists them. -/
def inKeyOrder (names : List String) : List String :=
  ((names.map Variable.plain).mergeSort Variable.le).map Variable.display

theorem perm_inKeyOrder (names : List String) : (inKeyOrder names).Perm names := by
  have hsorted := (List.mergeSort_perm (names.map Variable.plain) Variable.le).map Variable.display
  have hdisplay : (names.map Variable.plain).map Variable.display = names := by
    rw [List.map_map]
    exact List.map_id names
  rwa [hdisplay] at hsorted

theorem listed_plain (names : List String) :
    listed ((names.map Variable.plain).mergeSort Variable.le) =
      ['|'].intercalate ((inKeyOrder names).map String.toList) := by
  rw [listed, inKeyOrder, List.map_map]
  rfl

/-- What a key of a lenient parse ends in. -/
theorem keyEnd_eq_nil_or_flags (leniency : Leniency) : keyEnd leniency = [] ∨
    ∃ flags ∈ ["1", "2", "3"], keyEnd leniency = '/' :: '/' :: flags.toList := by
  obtain ⟨v, f⟩ := leniency
  cases v <;> cases f
  · exact .inl rfl
  · exact .inr ⟨"2", by decide⟩
  · exact .inr ⟨"1", by decide⟩
  · exact .inr ⟨"3", by decide⟩

namespace Separable

theorem inKeyOrder (h : Separable names) : Separable (inKeyOrder names) := by
  have hperm := perm_inKeyOrder names
  refine ⟨fun name hname => h.bar name (hperm.mem_iff.mp hname),
    fun name hname => h.slash name (hperm.mem_iff.mp hname), fun name hname heq => ?_⟩
  exact h.alone name hname (List.perm_singleton.mp (heq ▸ hperm.symm))

theorem notMem_bar (h : Separable names) : ∀ l ∈ names.map String.toList, '|' ∉ l := by
  intro l hl
  obtain ⟨name, hname, rfl⟩ := List.mem_map.mp hl
  exact h.bar name hname

theorem notMem_slash (h : Separable names) :
    '/' ∉ ['|'].intercalate (names.map String.toList) := by
  refine notMem_intercalate (by decide) fun l hl => ?_
  obtain ⟨name, hname, rfl⟩ := List.mem_map.mp hl
  exact h.slash name hname

theorem map_toList_ne (h : Separable names) {name : String} (hname : name ∈ ["", "1", "2", "3"]) :
    names.map String.toList ≠ [name.toList] := by
  intro heq
  obtain ⟨name', rfl, hsame⟩ := List.map_eq_singleton_iff.mp heq
  exact h.alone name hname (by rw [String.toList_inj.mp hsame])

theorem map_toList_ne_nil (h : Separable names) : names.map String.toList ≠ [[]] :=
  h.map_toList_ne List.mem_cons_self

theorem keyEnd_ne (h : Separable names) (leniency : Leniency) :
    keyEnd leniency ≠ '/' :: '/' :: ['|'].intercalate (names.map String.toList) := by
  intro heq
  rcases keyEnd_eq_nil_or_flags leniency with hnil | ⟨flags, hflags, hend⟩
  · simp [hnil] at heq
  · have hlist : ['|'].intercalate [flags.toList] = ['|'].intercalate (names.map String.toList) := by
      simpa [hend] using heq
    have hbar : ∀ l ∈ [flags.toList], '|' ∉ l := by
      have hdigits : ∀ s ∈ ["1", "2", "3"], '|' ∉ s.toList := by decide
      simpa using hdigits flags hflags
    have hne : [flags.toList] ≠ [[]] := by
      have hdigits : ∀ s ∈ ["1", "2", "3"], s.toList ≠ [] := by decide
      simpa using hdigits flags hflags
    have hsame := intercalate_bar_inj hbar h.notMem_bar hne h.map_toList_ne_nil hlist
    exact h.map_toList_ne (List.mem_cons_of_mem "" hflags) hsame.symm

end Separable

/-- Where names are separable, a key tells the text, the leniency and, but for their order, the names. -/
theorem cacheKey_inj_of_separable {source source' : String} {leniency leniency' : Leniency}
    (h : Separable names) (h' : Separable names')
    (heq : cacheKey source (names.map .plain) leniency =
      cacheKey source' (names'.map .plain) leniency') :
    source = source' ∧ leniency = leniency' ∧ names.Perm names' := by
  have hchars := congrArg String.toList (Text.percentEncode_inj heq)
  rw [toList_rawCacheKey, toList_rawCacheKey, listed_plain, listed_plain] at hchars
  obtain ⟨hsource, hlisted, hleniency⟩ :=
    keyParts_inj h.inKeyOrder.notMem_slash h'.inKeyOrder.notMem_slash h.inKeyOrder.keyEnd_ne
      h'.inKeyOrder.keyEnd_ne hchars
  have hsame := intercalate_bar_inj h.inKeyOrder.notMem_bar h'.inKeyOrder.notMem_bar
    h.inKeyOrder.map_toList_ne_nil h'.inKeyOrder.map_toList_ne_nil hlisted
  have hnames : inKeyOrder names = inKeyOrder names' :=
    List.map_inj_right (fun _ _ => String.toList_inj.mp) |>.mp hsame
  exact ⟨String.toList_inj.mp hsource, hleniency,
    (perm_inKeyOrder names).symm.trans (hnames ▸ perm_inKeyOrder names')⟩

theorem cacheKey_inj_spaced : Separable ["b c", "a:b"] ∧ Separable ["a:b", "b c"] ∧
    cacheKey "a//b" (["b c", "a:b"].map .plain) ⟨false, true⟩ =
      cacheKey "a//b" (["a:b", "b c"].map .plain) ⟨false, true⟩ ∧
    "a//b" = "a//b" ∧ (⟨false, true⟩ : Leniency) = ⟨false, true⟩ ∧
      ["b c", "a:b"].Perm ["a:b", "b c"] := by
  have h : Separable ["b c", "a:b"] := ⟨by decide, by decide, by decide⟩
  have h' : Separable ["a:b", "b c"] := ⟨by decide, by decide, by decide⟩
  have hkey : cacheKey "a//b" (["b c", "a:b"].map .plain) ⟨false, true⟩ =
      cacheKey "a//b" (["a:b", "b c"].map .plain) ⟨false, true⟩ := by cbv
  exact ⟨h, h', hkey, cacheKey_inj_of_separable h h' hkey⟩

/-- A name with a slash makes the key of a strict parse that of a lenient one, whose tree a strict
caller then gets. So do names that stand alone, and a name with a bar looks like two. -/
theorem cacheKey_collision :
    cacheKey "y" (["x//1"].map .plain) {} = cacheKey "y" (["x"].map .plain) ⟨true, false⟩ ∧
    answers [.parse (.text "y") [.plain "x//1"] {}] (withCache (BoundedCache.ofCapacity 1)) =
      [.error (.malformed ⟨.unknownVariable "y", 1, "y", "y", ["x//1"]⟩)] ∧
    answers [.parse (.text "y") [.plain "x"] ⟨true, false⟩, .parse (.text "y") [.plain "x//1"] {}]
        (withCache (BoundedCache.ofCapacity 1)) =
      [.ok (.parsed "y" (.name "y")), .ok (.parsed "y" (.name "y"))] ∧
    cacheKey "y//x" (["1"].map .plain) {} = cacheKey "y" (["x"].map .plain) ⟨true, false⟩ ∧
    cacheKey "y" ([""].map .plain) {} = cacheKey "y" ([].map .plain) {} ∧
    cacheKey "y" (["a|b"].map .plain) {} = cacheKey "y" (["a", "b"].map .plain) {} :=
  ⟨by cbv, by cbv, by cbv, by cbv, by cbv, by cbv⟩

end Formula
