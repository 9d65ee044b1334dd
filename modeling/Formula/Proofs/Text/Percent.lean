import Formula.Text.Percent

/-! Percent-encoding loses nothing: no code of a byte begins another one, and the bytes of a text
determine it. -/

namespace Formula.Text

theorem toNat_ofNat_byte (b : UInt8) : (Char.ofNat b.toNat).toNat = b.toNat := by
  have hlt : b.toNat < 256 := b.toNat_lt
  have hvalid : b.toNat.isValidChar := .inl (by omega)
  rw [Char.ofNat, dif_pos hvalid]
  rfl

theorem unreserved_ne_percent {b : UInt8} (h : isUnreserved b = true) :
    Char.ofNat b.toNat ≠ '%' := by
  intro hc
  simp [isUnreserved, hc] at h

theorem hexDigit_inj : ∀ n < 16, ∀ m < 16, hexDigit n = hexDigit m → n = m := by
  decide

theorem percentByte_append_inj {b b' : UInt8} {cs cs' : List Char}
    (h : percentByte b ++ cs = percentByte b' ++ cs') : b = b' ∧ cs = cs' := by
  have hlt : b.toNat < 256 := b.toNat_lt
  have hlt' : b'.toNat < 256 := b'.toNat_lt
  -- A byte is written as itself or as three characters, of which the first is never written as itself.
  unfold percentByte at h
  split at h <;> split at h <;>
    simp only [List.cons_append, List.nil_append, List.cons.injEq] at h
  · have hnat := congrArg Char.toNat h.1
    rw [toNat_ofNat_byte, toNat_ofNat_byte] at hnat
    exact ⟨UInt8.toNat_inj.mp hnat, h.2⟩
  · exact absurd h.1 (unreserved_ne_percent ‹_›)
  · exact absurd h.1.symm (unreserved_ne_percent ‹_›)
  · have hhigh := hexDigit_inj _ (by omega) _ (by omega) h.2.1
    have hlow := hexDigit_inj _ (by omega) _ (by omega) h.2.2.1
    exact ⟨UInt8.toNat_inj.mp (by omega), h.2.2.2⟩

theorem percentBytes_inj {bs bs' : List UInt8}
    (h : bs.flatMap percentByte = bs'.flatMap percentByte) : bs = bs' := by
  have hne (b : UInt8) (cs : List Char) : percentByte b ++ cs ≠ [] := by
    unfold percentByte
    split <;> simp
  induction bs generalizing bs' with
  | nil =>
    cases bs' with
    | nil => rfl
    | cons b' bs' => exact absurd h.symm (hne _ _)
  | cons b bs ih =>
    cases bs' with
    | nil => exact absurd h (hne _ _)
    | cons b' bs' =>
      rw [List.flatMap_cons, List.flatMap_cons] at h
      obtain ⟨rfl, htail⟩ := percentByte_append_inj h
      rw [ih htail]

theorem utf8Bytes_inj {cs cs' : List Char}
    (h : cs.flatMap String.utf8EncodeChar = cs'.flatMap String.utf8EncodeChar) : cs = cs' := by
  have hbytes : cs.utf8Encode = cs'.utf8Encode := by
    rw [List.utf8Encode, List.utf8Encode, h]
  have hstring : String.ofList cs = String.ofList cs' := by
    rw [← String.toByteArray_inj, String.toByteArray_ofList, String.toByteArray_ofList, hbytes]
  exact String.ofList_injective hstring

theorem percentEncode_inj {s s' : String} (h : percentEncode s = percentEncode s') : s = s' :=
  String.toList_inj.mp (utf8Bytes_inj (percentBytes_inj (String.ofList_injective h)))

/-- Only characters without a meaning of their own are written as they are. -/
theorem mem_percentEncode {s : String} {c : Char} (h : c ∈ (percentEncode s).toList) :
    c.isAlphanum = true ∨ c ∈ ['-', '_', '.', '~', '%'] := by
  have hhex : ∀ n < 16, (hexDigit n).isAlphanum = true := by decide
  rw [percentEncode, String.toList_ofList, List.mem_flatMap] at h
  obtain ⟨b, -, hc⟩ := h
  have hlt : b.toNat < 256 := b.toNat_lt
  unfold percentByte at hc
  split at hc
  · have hb : isUnreserved b = true := ‹_›
    rw [List.mem_singleton.mp hc]
    simp only [isUnreserved, Bool.and_eq_true, Bool.or_eq_true, beq_iff_eq] at hb
    grind
  · simp only [List.mem_cons, List.not_mem_nil, or_false] at hc
    rcases hc with rfl | rfl | rfl
    · simp
    · exact .inl (hhex _ (by omega))
    · exact .inl (hhex _ (by omega))

end Formula.Text
