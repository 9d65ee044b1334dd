import Mathlib
import Formula.Proofs.Number.Rounding
import Formula.Value.Equality

/-! Laws of the two equalities. Both compare arrays and objects part by part, and what follows from that
alone is proved for both at once. They differ in what they see of values without parts. -/

namespace Formula

namespace Number

theorem beq_comm (x y : Float) : (x == y) = (y == x) := by
  rw [Bool.eq_iff_iff, Float.beq_iff_ne_nan_and_eq, Float.beq_iff_ne_nan_and_eq]
  constructor
  · rintro ⟨hx, hy, rfl | ⟨rfl, rfl⟩ | ⟨rfl, rfl⟩⟩ <;> simp [hx, hy]
  · rintro ⟨hx, hy, rfl | ⟨rfl, rfl⟩ | ⟨rfl, rfl⟩⟩ <;> simp [hx, hy]

@[simp] theorem ofInt64_ne_nan (n : Int64) : ofInt64 n ≠ Float.nan := by
  have h := isNaN_ofInt64 n
  rwa [Float.isNaN_eq_decide_eq_nan, decide_eq_false_iff_not] at h

end Number

namespace Value

def isAtom : Value → Bool
  | array _ | object _ => false
  | _ => true

/-- What holds of atoms, and of arrays and objects if it holds of what they are made of. -/
theorem induct {P : Value → Prop} (atom : ∀ v, v.isAtom = true → P v)
    (array : ∀ items, (∀ v ∈ items, P v) → P (.array items))
    (object : ∀ fields : List (String × Value), (∀ entry ∈ fields, P entry.2) → P (.object fields)) :
    ∀ v, P v
  | .array items => array items fun v _ => induct atom array object v
  | .object fields => object fields fun entry _ => induct atom array object entry.2
  | .null | .bool _ | .int _ | .float _ | .string _ | .function _ => atom _ rfl
decreasing_by
  · have hlt := List.sizeOf_lt_of_mem ‹v ∈ items›
    rw [Value.array.sizeOf_spec]
    omega
  · have hlt := List.sizeOf_lt_of_mem ‹entry ∈ fields›
    have hentry : sizeOf entry = 1 + sizeOf entry.1 + sizeOf entry.2 := rfl
    rw [Value.object.sizeOf_spec]
    omega

/-- `part` is the value itself or stands somewhere in it. -/
inductive IsPart (part : Value) : Value → Prop
  | self : IsPart part part
  | item {item items} : item ∈ items → IsPart part item → IsPart part (.array items)
  | field {entry : String × Value} {fields} : entry ∈ fields → IsPart part entry.2 →
      IsPart part (.object fields)

def Everywhere (p : Value → Prop) (v : Value) : Prop := ∀ part, IsPart part v → p part

/-- Every object in the value has each key once. -/
def HasUniqueKeys : Value → Prop :=
  Everywhere fun v => ∀ fields, v = .object fields → (Dict.keys fields).Nodup

/-- No float in the value is the one that is no number. -/
def HasNoNaN : Value → Prop := Everywhere (· ≠ .float Float.nan)

section Everywhere

variable {p : Value → Prop} {items : List Value} {fields : List (String × Value)}

theorem everywhere_of_isAtom {v : Value} (hv : v.isAtom = true) : Everywhere p v ↔ p v := by
  refine ⟨fun h => h v .self, fun h part hpart => ?_⟩
  cases hpart with
  | self => exact h
  | item | field => cases hv

theorem everywhere_array :
    Everywhere p (.array items) ↔ p (.array items) ∧ ∀ v ∈ items, Everywhere p v := by
  refine ⟨fun h => ⟨h _ .self, fun v hv part hpart => h part (.item hv hpart)⟩, fun h part hpart => ?_⟩
  cases hpart with
  | self => exact h.1
  | item hv hpart => exact h.2 _ hv part hpart

theorem everywhere_object :
    Everywhere p (.object fields) ↔ p (.object fields) ∧ ∀ entry ∈ fields, Everywhere p entry.2 := by
  refine ⟨fun h => ⟨h _ .self, fun entry hentry part hpart => h part (.field hentry hpart)⟩,
    fun h part hpart => ?_⟩
  cases hpart with
  | self => exact h.1
  | field hentry hpart => exact h.2 _ hentry part hpart

theorem hasUniqueKeys_of_isAtom {v : Value} (hv : v.isAtom = true) : v.HasUniqueKeys := by
  refine (everywhere_of_isAtom hv).mpr fun fields hfields => ?_
  rw [hfields] at hv
  cases hv

theorem hasUniqueKeys_array :
    (array items).HasUniqueKeys ↔ ∀ v ∈ items, v.HasUniqueKeys := by
  simp [HasUniqueKeys, everywhere_array]

theorem hasUniqueKeys_object : (object fields).HasUniqueKeys ↔
    (Dict.keys fields).Nodup ∧ ∀ entry ∈ fields, entry.2.HasUniqueKeys := by
  simp [HasUniqueKeys, everywhere_object]

theorem hasNoNaN_of_isAtom {v : Value} (hv : v.isAtom = true) :
    v.HasNoNaN ↔ v ≠ .float Float.nan := everywhere_of_isAtom hv

theorem hasNoNaN_array : (array items).HasNoNaN ↔ ∀ v ∈ items, v.HasNoNaN := by
  simp [HasNoNaN, everywhere_array]

theorem hasNoNaN_object : (object fields).HasNoNaN ↔ ∀ entry ∈ fields, entry.2.HasNoNaN := by
  simp [HasNoNaN, everywhere_object]

end Everywhere

/-- The second value is the first one with the entries of objects in it put into another order. -/
inductive Reorders : Value → Value → Prop
  | refl (v) : Reorders v v
  | trans {a b c} : Reorders a b → Reorders b c → Reorders a c
  | entries {as bs} : as.Perm bs → Reorders (.object as) (.object bs)
  | item {before after a b} : Reorders a b →
      Reorders (.array (before ++ a :: after)) (.array (before ++ b :: after))
  | field {before after key a b} : Reorders a b →
      Reorders (.object (before ++ (key, a) :: after)) (.object (before ++ (key, b) :: after))

theorem Reorders.hasUniqueKeys {a b : Value} (h : a.Reorders b) (ha : a.HasUniqueKeys) :
    b.HasUniqueKeys := by
  induction h with
  | refl => exact ha
  | trans _ _ ih ih' => exact ih' (ih ha)
  | entries hperm =>
    rw [hasUniqueKeys_object] at ha ⊢
    exact ⟨(hperm.map Prod.fst).nodup_iff.mp ha.1,
      fun entry hentry => ha.2 entry (hperm.mem_iff.mpr hentry)⟩
  | item _ ih =>
    simp only [hasUniqueKeys_array, List.forall_mem_append, List.forall_mem_cons] at ha ⊢
    exact ⟨ha.1, ih ha.2.1, ha.2.2⟩
  | field _ ih =>
    simp only [hasUniqueKeys_object, Dict.keys, List.map_append, List.map_cons, List.forall_mem_append,
      List.forall_mem_cons] at ha ⊢
    exact ⟨ha.1, ha.2.1, ih ha.2.2.1, ha.2.2.2⟩

/-- An equality that compares the items of arrays one by one and looks for each field of an object in the
other object. -/
structure IsEquality (eq : Value → Value → Bool) : Prop where
  isAtom_of_eq {a b} : a.isAtom = true → eq a b = true → b.isAtom = true
  atom_comm {a b} : a.isAtom = true → b.isAtom = true → eq a b = eq b a
  atom_self {a} : a.isAtom = true → (eq a a = true ↔ a ≠ .float Float.nan)
  array_iff {as b} : eq (.array as) b = true ↔
    ∃ bs, b = .array bs ∧ List.Forall₂ (eq · · = true) as bs
  object_iff {as b} : eq (.object as) b = true ↔
    ∃ bs, b = .object bs ∧ as.length = bs.length ∧
      ∀ entry ∈ as, ∃ v, Dict.get? bs entry.1 = some v ∧ eq entry.2 v = true

namespace IsEquality

variable {eq eq' : Value → Value → Bool} {a a' b b' : Value}

/-- An equality that implies another one for atoms does so for all values. -/
theorem imp (h : IsEquality eq) (h' : IsEquality eq')
    (hatom : ∀ a b, a.isAtom = true → b.isAtom = true → eq a b = true → eq' a b = true)
    (hab : eq a b = true) : eq' a b = true := by
  induction a using induct generalizing b with
  | atom a ha => exact hatom a b ha (h.isAtom_of_eq ha hab) hab
  | array as ih =>
    obtain ⟨bs, rfl, hitems⟩ := h.array_iff.mp hab
    refine h'.array_iff.mpr ⟨bs, rfl, ?_⟩
    exact (List.forall₂_and_left (p := fun a => ∀ {b}, eq a b = true → eq' a b = true) _ _).mpr
      ⟨ih, hitems⟩ |>.imp fun a b hab => hab.1 hab.2
  | object as ih =>
    obtain ⟨bs, rfl, hlength, hfields⟩ := h.object_iff.mp hab
    refine h'.object_iff.mpr ⟨bs, rfl, hlength, fun entry hentry => ?_⟩
    obtain ⟨v, hget, hv⟩ := hfields entry hentry
    exact ⟨v, hget, ih entry hentry hv⟩

/-- Where objects have each key once, equally many fields that are all found in the other object are all
the fields of that one. -/
theorem symm (h : IsEquality eq) (ha : a.HasUniqueKeys) (hb : b.HasUniqueKeys) (hab : eq a b = true) :
    eq b a = true := by
  induction a using induct generalizing b with
  | atom a hatom => rwa [h.atom_comm (h.isAtom_of_eq hatom hab) hatom]
  | array as ih =>
    obtain ⟨bs, rfl, hitems⟩ := h.array_iff.mp hab
    rw [hasUniqueKeys_array] at ha hb
    refine h.array_iff.mpr ⟨as, rfl, ?_⟩
    clear hab
    induction hitems with
    | nil => exact .nil
    | cons hfirst _ ihitems =>
      rw [List.forall_mem_cons] at ha hb ih
      exact .cons (ih.1 ha.1 hb.1 hfirst) (ihitems ih.2 ha.2 hb.2)
  | object as ih =>
    obtain ⟨bs, rfl, hlength, hfields⟩ := h.object_iff.mp hab
    rw [hasUniqueKeys_object] at ha hb
    have hkeys : (Dict.keys as).Perm (Dict.keys bs) := by
      refine (ha.1.subperm fun key hkey => ?_).perm_of_length_le ?_
      · obtain ⟨entry, hentry, rfl⟩ := List.mem_map.mp hkey
        obtain ⟨v, hget, -⟩ := hfields entry hentry
        exact List.mem_map.mpr ⟨_, Dict.mem_of_get? hget, rfl⟩
      · simp only [Dict.keys, List.length_map, hlength, le_rfl]
    refine h.object_iff.mpr ⟨as, rfl, hlength.symm, fun entry hentry => ?_⟩
    obtain ⟨key, w⟩ := entry
    obtain ⟨⟨_, v⟩, hv, rfl⟩ := List.mem_map.mp (hkeys.mem_iff.mpr (List.mem_map_of_mem hentry))
    obtain ⟨w', hget, heq⟩ := hfields _ hv
    obtain rfl : w = w' := by
      rw [Dict.get?_of_mem hb.1 hentry] at hget
      exact Option.some.inj hget
    exact ⟨v, Dict.get?_of_mem ha.1 hv, ih _ hv (ha.2 _ hv) (hb.2 _ hentry) heq⟩

theorem comm (h : IsEquality eq) (ha : a.HasUniqueKeys) (hb : b.HasUniqueKeys) : eq a b = eq b a :=
  Bool.eq_iff_iff.mpr ⟨h.symm ha hb, h.symm hb ha⟩

theorem self_iff (h : IsEquality eq) (ha : a.HasUniqueKeys) : eq a a = true ↔ a.HasNoNaN := by
  induction a using induct with
  | atom a hatom => rw [h.atom_self hatom, hasNoNaN_of_isAtom hatom]
  | array as ih =>
    rw [hasUniqueKeys_array] at ha
    rw [hasNoNaN_array, h.array_iff]
    simp only [array.injEq, exists_eq_left', List.forall₂_same]
    exact forall₂_congr fun v hv => ih v hv (ha v hv)
  | object as ih =>
    rw [hasUniqueKeys_object] at ha
    rw [hasNoNaN_object, h.object_iff]
    simp only [object.injEq, exists_eq_left', true_and]
    refine forall₂_congr fun entry hentry => ?_
    simp only [Dict.get?_of_mem ha.1 hentry, Option.some_inj, exists_eq_left',
      ih entry hentry (ha.2 entry hentry)]

theorem forall₂_congr_left (h : ∀ b, eq a b = eq a' b) (before after bs : List Value) :
    List.Forall₂ (eq · · = true) (before ++ a :: after) bs ↔
      List.Forall₂ (eq · · = true) (before ++ a' :: after) bs := by
  induction before generalizing bs with
  | nil => simp only [List.nil_append, List.forall₂_cons_left_iff, h]
  | cons first before ih => simp only [List.cons_append, List.forall₂_cons_left_iff, ih]

/-- Of the object on the left nothing matters but which entries it has. -/
theorem congr_left (h : IsEquality eq) (ha : a.Reorders a') (b : Value) : eq a b = eq a' b := by
  induction ha generalizing b with
  | refl => rfl
  | trans _ _ ih ih' => rw [ih, ih']
  | entries hperm =>
    rw [Bool.eq_iff_iff, h.object_iff, h.object_iff]
    simp only [hperm.length_eq, hperm.mem_iff]
  | item _ ih =>
    rw [Bool.eq_iff_iff, h.array_iff, h.array_iff]
    simp only [forall₂_congr_left ih]
  | field _ ih =>
    rw [Bool.eq_iff_iff, h.object_iff, h.object_iff]
    simp only [List.length_append, List.length_cons, List.forall_mem_append, List.forall_mem_cons, ih]

theorem congr (h : IsEquality eq) (ha : a.HasUniqueKeys) (hb : b.HasUniqueKeys)
    (haa' : a.Reorders a') (hbb' : b.Reorders b') : eq a' b' = eq a b := by
  calc eq a' b' = eq a b' := (h.congr_left haa' b').symm
    _ = eq b' a := h.comm ha (hbb'.hasUniqueKeys hb)
    _ = eq b a := (h.congr_left hbb' a).symm
    _ = eq a b := h.comm hb ha

end IsEquality

theorem strictEqItems_iff {as bs : List Value} :
    strictEqItems as bs = true ↔ List.Forall₂ (strictEq · · = true) as bs := by
  induction as generalizing bs with
  | nil => cases bs <;> simp [strictEqItems]
  | cons a as ih => cases bs <;> simp [strictEqItems, ih]

theorem looseEqItems_iff {as bs : List Value} :
    looseEqItems as bs = true ↔ List.Forall₂ (looseEq · · = true) as bs := by
  induction as generalizing bs with
  | nil => cases bs <;> simp [looseEqItems]
  | cons a as ih => cases bs <;> simp [looseEqItems, ih]

theorem strictEqFields_iff {as bs : List (String × Value)} : strictEqFields as bs = true ↔
    ∀ entry ∈ as, ∃ v, Dict.get? bs entry.1 = some v ∧ strictEq entry.2 v = true := by
  induction as with
  | nil => simp [strictEqFields]
  | cons entry as ih =>
    rw [strictEqFields, Bool.and_eq_true, ih, List.forall_mem_cons]
    cases Dict.get? bs entry.1 <;> simp

theorem looseEqFields_iff {as bs : List (String × Value)} : looseEqFields as bs = true ↔
    ∀ entry ∈ as, ∃ v, Dict.get? bs entry.1 = some v ∧ looseEq entry.2 v = true := by
  induction as with
  | nil => simp [looseEqFields]
  | cons entry as ih =>
    rw [looseEqFields, Bool.and_eq_true, ih, List.forall_mem_cons]
    cases Dict.get? bs entry.1 <;> simp

theorem isEquality_strictEq : IsEquality strictEq where
  isAtom_of_eq {a b} ha h := by
    cases a <;> cases b <;> first | rfl | simp_all [isAtom, strictEq]
  atom_comm {a b} ha hb := by
    cases a <;> cases b <;> simp_all [isAtom, strictEq, Number.beq_comm, Bool.beq_comm]
  atom_self {a} ha := by
    cases a <;> simp_all [isAtom, strictEq]
  array_iff {as b} := by
    cases b <;> simp [strictEq, strictEqItems_iff]
  object_iff {as b} := by
    cases b <;> simp [strictEq, strictEqFields_iff]

@[simp] theorem toNumber_int (n : Int64) : (int n).toNumber = Number.ofInt64 n := rfl

@[simp] theorem toNumber_float (x : Float) : (float x).toNumber = x := rfl

@[simp] theorem toNumber_bool_ne_nan (b : Bool) : (bool b).toNumber ≠ Float.nan := by
  cases b <;> decide

theorem isEquality_looseEq : IsEquality looseEq where
  isAtom_of_eq {a b} ha h := by
    cases a <;> cases b <;> first | rfl | simp_all [isAtom, looseEq, isScalar, isNull]
  atom_comm {a b} ha hb := by
    cases a <;> cases b <;> simp_all [isAtom, looseEq, isScalar, isNull, Number.beq_comm, Bool.beq_comm]
  atom_self {a} ha := by
    cases a <;> simp_all [isAtom, looseEq, isScalar, isNull]
  array_iff {as b} := by
    cases b <;> simp [looseEq, looseEqItems_iff, isScalar]
  object_iff {as b} := by
    cases b <;> simp [looseEq, looseEqFields_iff, isScalar]

theorem looseEq_of_strictEq {a b : Value} (h : a.strictEq b = true) : a.looseEq b = true := by
  refine isEquality_strictEq.imp isEquality_looseEq (fun a b ha hb hab => ?_) h
  cases a <;> cases b <;> simp_all [isAtom, strictEq, looseEq, isScalar, isNull]

/-- What is strictly equal is loosely equal. Where objects have each key once, both equalities are
symmetric, both hold of a value and itself just if no NaN is in it, and neither sees the order of the
entries of objects. -/
theorem equality_laws (a b : Value) :
    (a.strictEq b = true → a.looseEq b = true) ∧
    (a.HasUniqueKeys → b.HasUniqueKeys →
      a.strictEq b = b.strictEq a ∧ a.looseEq b = b.looseEq a) ∧
    (a.HasUniqueKeys →
      (a.strictEq a = true ↔ a.HasNoNaN) ∧ (a.looseEq a = true ↔ a.HasNoNaN)) ∧
    ∀ a' b' : Value, a.HasUniqueKeys → b.HasUniqueKeys → a.Reorders a' → b.Reorders b' →
      a'.strictEq b' = a.strictEq b ∧ a'.looseEq b' = a.looseEq b := by
  have hstrict := isEquality_strictEq
  have hloose := isEquality_looseEq
  refine ⟨looseEq_of_strictEq, fun ha hb => ?_, fun ha => ?_, fun a' b' ha hb haa' hbb' => ?_⟩
  · exact ⟨hstrict.comm ha hb, hloose.comm ha hb⟩
  · exact ⟨hstrict.self_iff ha, hloose.self_iff ha⟩
  · exact ⟨hstrict.congr ha hb haa' hbb', hloose.congr ha hb haa' hbb'⟩

/-- An object in an array in an object, both with their entries the other way round. -/
theorem equality_laws_nested :
    let inner : Value := .object [("p", .string "1"), ("q", .float 1.5)]
    let inner' : Value := .object [("q", .float 1.5), ("p", .string "1")]
    let a : Value := .object [("x", .array [.bool true, inner]), ("y", .null)]
    let a' : Value := .object [("y", .null), ("x", .array [.bool true, inner'])]
    a.HasUniqueKeys ∧ a.HasNoNaN ∧ a.Reorders a' ∧
      a'.strictEq a = true ∧ a.strictEq a' = true ∧ a.looseEq a' = true := by
  intro inner inner' a a'
  have hkeys : a.HasUniqueKeys := by
    have hatom (v : Value) (hv : v.isAtom = true) := hasUniqueKeys_of_isAtom hv
    simp [a, inner, hasUniqueKeys_object, hasUniqueKeys_array, Dict.keys, hatom (.bool true) rfl,
      hatom (.string "1") rfl, hatom (.float 1.5) rfl, hatom .null rfl]
  have hnumbers : a.HasNoNaN := by
    have hatom (v : Value) (hv : v.isAtom = true) := hasNoNaN_of_isAtom hv
    have hnumber : (1.5 : Float) ≠ Float.nan := by decide
    simp [a, inner, hasNoNaN_object, hasNoNaN_array, hatom (.bool true) rfl, hatom (.string "1") rfl,
      hatom (.float 1.5) rfl, hatom .null rfl, hnumber]
  have hinner : inner.Reorders inner' := .entries (.swap _ _ _)
  have hreorders : a.Reorders a' :=
    .trans (@Reorders.field [] _ _ _ _ (@Reorders.item [.bool true] _ _ _ hinner))
      (.entries (.swap _ _ _))
  have hself : a.strictEq a = true := ((equality_laws a a).2.2.1 hkeys).1.mpr hnumbers
  have hleft : a'.strictEq a = true :=
    ((equality_laws a a).2.2.2 a' a hkeys hkeys hreorders (.refl a)).1.trans hself
  have hright : a.strictEq a' = true :=
    ((equality_laws a a').2.1 hkeys (hreorders.hasUniqueKeys hkeys)).1.trans hleft
  exact ⟨hkeys, hnumbers, hreorders, hleft, hright, (equality_laws a a').1 hright⟩

end Value
end Formula
