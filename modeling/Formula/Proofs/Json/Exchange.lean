import Mathlib
import Formula.Json
import Formula.Proofs.Evaluation.Arithmetic
import Formula.Proofs.Value.Equality

/-! The exchange of values with JSON documents. Neither way loses anything of data that both sides have:
whole numbers stay whole, floats stay floats, and the members of objects keep their order. -/

namespace Formula

/-- No function and no float without a finite value is in it. -/
def Value.IsData : Value → Prop := Everywhere fun v =>
  (∀ name, v ≠ .function name) ∧ ∀ x, v = .float x → x.isFinite = true

namespace Json

/-- The whole numbers in a document are of 64 bits, and its floats are finite. -/
inductive IsExact : Json → Prop
  | null : IsExact .null
  | bool (b) : IsExact (.bool b)
  | whole {n : Int} : -0x8000000000000000 ≤ n → n < 0x8000000000000000 → IsExact (.number (.whole n))
  | float {x : Float} : x.isFinite = true → IsExact (.number (.float x))
  | string (s) : IsExact (.string s)
  | array {items} : (∀ item ∈ items, IsExact item) → IsExact (.array items)
  | object {members : List (String × Json)} : (∀ member ∈ members, IsExact member.2) →
      IsExact (.object members)

theorem toValues_eq_map (items : List Json) : toValues items = items.map toValue := by
  induction items with
  | nil => rfl
  | cons item items ih => rw [toValues, ih, List.map_cons]

theorem toFields_eq_map (members : List (String × Json)) :
    toFields members = members.map fun member => (member.1, member.2.toValue) := by
  induction members with
  | nil => rfl
  | cons member members ih => rw [toFields, ih, List.map_cons]

theorem ofValues_eq_map (items : List Value) : ofValues items = items.map ofValue := by
  induction items with
  | nil => rfl
  | cons item items ih => rw [ofValues, ih, List.map_cons]

theorem ofFields_eq_map (fields : List (String × Value)) :
    ofFields fields = fields.map fun field => (field.1, ofValue field.2) := by
  induction fields with
  | nil => rfl
  | cons field fields ih => rw [ofFields, ih, List.map_cons]

theorem numberValue_toInt (n : Int64) : numberValue (.whole n.toInt) = .int n := by
  have hfits : Number.int64? n.toInt = some n := Number.int64?_eq_some_iff.mpr rfl
  rw [numberValue, hfits, Option.elim_some]

/-- A whole number of 64 bits is read as what it is. -/
theorem exists_numberValue {n : Int} (hlow : -0x8000000000000000 ≤ n) (hhigh : n < 0x8000000000000000) :
    ∃ m : Int64, m.toInt = n ∧ numberValue (.whole n) = .int m := by
  have htoInt : (Int64.ofInt n).toInt = n := Int64.toInt_ofInt_of_le hlow hhigh
  refine ⟨Int64.ofInt n, htoInt, ?_⟩
  have hvalue := numberValue_toInt (Int64.ofInt n)
  rwa [htoInt] at hvalue

section

open Value

theorem isData_array {items : List Value} :
    (Value.array items).IsData ↔ ∀ v ∈ items, v.IsData := by
  simp [IsData, everywhere_array]

theorem isData_object {fields : List (String × Value)} :
    (Value.object fields).IsData ↔ ∀ field ∈ fields, field.2.IsData := by
  simp [IsData, everywhere_object]

theorem isData_of_isAtom {v : Value} (hv : v.isAtom = true) :
    v.IsData ↔ (∀ name, v ≠ .function name) ∧ ∀ x, v = .float x → x.isFinite = true :=
  everywhere_of_isAtom hv

theorem isExact_ofValue {v : Value} (h : v.IsData) : (ofValue v).IsExact := by
  induction v using Value.induct with
  | atom v hv =>
    obtain ⟨hfunction, hfinite⟩ := (isData_of_isAtom hv).mp h
    cases v with
    | null => exact .null
    | bool b => exact .bool b
    | int n => exact .whole n.le_toInt n.toInt_lt
    | float x =>
      have hx : x.isFinite = true := hfinite x rfl
      rw [ofValue, if_pos hx]
      exact .float hx
    | string s => exact .string s
    | array | object => cases hv
    | function name => exact absurd rfl (hfunction name)
  | array items ih =>
    rw [isData_array] at h
    rw [ofValue, ofValues_eq_map]
    refine .array (List.forall_mem_map.mpr fun v hv => ih v hv (h v hv))
  | object fields ih =>
    rw [isData_object] at h
    rw [ofValue, ofFields_eq_map]
    exact .object (List.forall_mem_map.mpr fun field hfield => ih field hfield (h field hfield))

theorem toValue_ofValue {v : Value} (h : v.IsData) : (ofValue v).toValue = v := by
  induction v using Value.induct with
  | atom v hv =>
    obtain ⟨hfunction, hfinite⟩ := (isData_of_isAtom hv).mp h
    cases v with
    | null | bool | string => rfl
    | int n => exact numberValue_toInt n
    | float x =>
      rw [ofValue, if_pos (hfinite x rfl)]
      rfl
    | array | object => cases hv
    | function name => exact absurd rfl (hfunction name)
  | array items ih =>
    rw [isData_array] at h
    have hitems : items.map (toValue ∘ ofValue) = items.map id :=
      List.map_congr_left fun v hv => ih v hv (h v hv)
    rw [ofValue, toValue, ofValues_eq_map, toValues_eq_map, List.map_map, hitems, List.map_id]
  | object fields ih =>
    rw [isData_object] at h
    have hfields : fields.map (fun field => (field.1, (ofValue field.2).toValue)) = fields.map id :=
      List.map_congr_left fun field hfield => Prod.ext rfl (ih field hfield (h field hfield))
    rw [ofValue, toValue, ofFields_eq_map, toFields_eq_map, List.map_map]
    exact congrArg Value.object (hfields.trans (List.map_id fields))

theorem isData_toValue {j : Json} (h : j.IsExact) : j.toValue.IsData := by
  induction h with
  | null | bool | string => exact (isData_of_isAtom rfl).mpr ⟨nofun, nofun⟩
  | whole hlow hhigh =>
    obtain ⟨m, -, hm⟩ := exists_numberValue hlow hhigh
    rw [toValue, hm]
    exact (isData_of_isAtom rfl).mpr ⟨nofun, nofun⟩
  | @float x hx =>
    have hfinite (y : Float) (hy : Value.float x = .float y) : y.isFinite = true :=
      Value.float.inj hy ▸ hx
    exact (isData_of_isAtom rfl).mpr ⟨nofun, hfinite⟩
  | array _ ih =>
    rw [toValue, toValues_eq_map, isData_array]
    exact List.forall_mem_map.mpr ih
  | object _ ih =>
    rw [toValue, toFields_eq_map, isData_object]
    exact List.forall_mem_map.mpr ih

theorem ofValue_toValue {j : Json} (h : j.IsExact) : ofValue j.toValue = j := by
  induction h with
  | null | bool | string => rfl
  | whole hlow hhigh =>
    obtain ⟨m, rfl, hm⟩ := exists_numberValue hlow hhigh
    rw [toValue, hm, ofValue]
  | float hx => exact if_pos hx
  | @array items _ ih =>
    have hitems : items.map (ofValue ∘ toValue) = items.map id := List.map_congr_left ih
    rw [toValue, ofValue, toValues_eq_map, ofValues_eq_map, List.map_map, hitems, List.map_id]
  | @object members _ ih =>
    have hmembers : members.map (fun member => (member.1, ofValue member.2.toValue)) =
        members.map id :=
      List.map_congr_left fun member hmember => Prod.ext rfl (ih member hmember)
    rw [toValue, ofValue, toFields_eq_map, ofFields_eq_map, List.map_map]
    exact congrArg Json.object (hmembers.trans (List.map_id members))

end

/-- Values without functions and without floats that are not finite, and documents whose whole numbers are
of 64 bits, are the same data: each way back undoes the way there. -/
theorem exchange_inverse :
    (∀ v : Value, v.IsData → (ofValue v).IsExact ∧ (ofValue v).toValue = v) ∧
    ∀ j : Json, j.IsExact → j.toValue.IsData ∧ ofValue j.toValue = j :=
  ⟨fun _ h => ⟨isExact_ofValue h, toValue_ofValue h⟩,
    fun _ h => ⟨isData_toValue h, ofValue_toValue h⟩⟩

/-- The whole number one and the float one, in an object in an array in an object. -/
theorem exchange_inverse_nested :
    let inner : Value := .object [("q", .float 1.0), ("p", .int 1)]
    let inner' : Json := .object [("q", .number (.float 1.0)), ("p", .number (.whole 1))]
    let v : Value := .object [("y", .array [inner, .bool true]), ("x", .null)]
    let j : Json := .object [("y", .array [inner', .bool true]), ("x", .null)]
    v.IsData ∧ j.IsExact ∧ ofValue v = j ∧ (ofValue v).toValue = v := by
  intro inner inner' v j
  have hone : (1.0 : Float).isFinite = true := by decide
  have hinner : inner'.IsExact := by
    refine .object (List.forall_mem_cons.mpr ⟨.float hone, List.forall_mem_singleton.mpr ?_⟩)
    exact .whole (by decide) (by decide)
  have hexact : j.IsExact := by
    refine .object (List.forall_mem_cons.mpr ⟨.array ?_, List.forall_mem_singleton.mpr .null⟩)
    exact List.forall_mem_cons.mpr ⟨hinner, List.forall_mem_singleton.mpr (.bool true)⟩
  obtain ⟨hdata, hback⟩ : v.IsData ∧ ofValue v = j := exchange_inverse.2 j hexact
  exact ⟨hdata, hexact, hback, (exchange_inverse.1 v hdata).2⟩

end Json
end Formula
