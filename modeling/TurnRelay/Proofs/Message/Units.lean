import TurnRelay.Message.Codec

namespace TurnRelay

@[simp] theorem length_u16 (n : Nat) : (u16 n).length = 2 := rfl

theorem ofBigEndian_pair_lt (high low : UInt8) : ofBigEndian [high, low] < 65536 :=
  ofBigEndian_lt (show [high, low].length ≤ 2 from Nat.le_refl 2)

theorem u16_ofBigEndian (high low : UInt8) : u16 (ofBigEndian [high, low]) = [high, low] :=
  bigEndian_ofBigEndian [high, low]

namespace Tlv

structure Intact (tlv : Tlv) : Prop where
  value_lt : tlv.value.length < 65536
  fill_length : tlv.fill.length = padding tlv.value.length

instance (tlv : Tlv) : Decidable tlv.Intact :=
  decidable_of_iff (tlv.value.length < 65536 ∧ tlv.fill.length = padding tlv.value.length)
    ⟨fun ⟨hvalue, hfill⟩ => ⟨hvalue, hfill⟩, fun ⟨hvalue, hfill⟩ => ⟨hvalue, hfill⟩⟩

variable {tlv : Tlv} {bytes rest : Bytes}

theorem length_encode (tlv : Tlv) : tlv.encode.length = 4 + tlv.value.length + tlv.fill.length := by
  simp only [encode, List.length_append, length_u16]

theorem Intact.length_mod (h : tlv.Intact) : tlv.encode.length % 4 = 0 := by
  have hpadded := length_add_padding tlv.value.length
  rw [length_encode, h.fill_length]
  omega

theorem next?_encode (h : tlv.Intact) (rest : Bytes) : next? (tlv.encode ++ rest) = some (tlv, rest) := by
  have hcode := ofBigEndian_pair tlv.code.toNat_lt
  have hlength := ofBigEndian_pair h.value_lt
  have hvalue : take? tlv.value.length (tlv.value ++ (tlv.fill ++ rest)) =
      some (tlv.value, tlv.fill ++ rest) := take?_eq_some_iff.2 ⟨rfl, rfl⟩
  have hfill : take? (padding tlv.value.length) (tlv.fill ++ rest) = some (tlv.fill, rest) :=
    take?_eq_some_iff.2 ⟨rfl, h.fill_length⟩
  simp only [encode, u16, bigEndian_two, List.append_assoc, List.cons_append, List.nil_append, next?, hcode, hlength,
    hvalue, hfill, Option.bind_eq_bind, Option.bind_some, Option.pure_def, UInt16.ofNat_toNat]

theorem eq_encode_of_next? (h : next? bytes = some (tlv, rest)) :
    bytes = tlv.encode ++ rest ∧ tlv.Intact := by
  unfold next? at h
  split at h
  · next c₁ c₀ l₁ l₀ bytes =>
    simp only [Option.bind_eq_bind, Option.bind_eq_some_iff, Prod.exists, Option.pure_def,
      Option.some.injEq, Prod.mk.injEq] at h
    obtain ⟨value, after, hvalue, fill, rest, htaken, rfl, rfl⟩ := h
    obtain ⟨rfl, hlength⟩ := take?_eq_some_iff.1 hvalue
    obtain ⟨rfl, hfill⟩ := take?_eq_some_iff.1 htaken
    have hbound := ofBigEndian_pair_lt l₁ l₀
    have hsize := u16_ofBigEndian l₁ l₀
    rw [← hlength] at hbound hfill hsize
    refine ⟨?_, hbound, hfill⟩
    simp only [encode, UInt16.toNat_ofNat_of_lt' (ofBigEndian_pair_lt c₁ c₀), u16_ofBigEndian, hsize,
      List.append_assoc, List.cons_append, List.nil_append]
  · cases h

def encodeAll (units : List Tlv) : Bytes := units.flatMap encode

@[simp] theorem encodeAll_nil : encodeAll [] = [] := rfl

@[simp] theorem encodeAll_cons (tlv : Tlv) (units : List Tlv) :
    encodeAll (tlv :: units) = tlv.encode ++ encodeAll units := rfl

@[simp] theorem encodeAll_append (front back : List Tlv) :
    encodeAll (front ++ back) = encodeAll front ++ encodeAll back := List.flatMap_append

theorem length_encodeAll_mod {units : List Tlv} (h : ∀ tlv ∈ units, tlv.Intact) :
    (encodeAll units).length % 4 = 0 := by
  induction units with
  | nil => rfl
  | cons tlv units ih =>
    have hhead := (h tlv List.mem_cons_self).length_mod
    have htail := ih fun other hother => h other (List.mem_cons_of_mem _ hother)
    rw [encodeAll_cons, List.length_append]
    omega

theorem length_le_encodeAll {units : List Tlv} (h : tlv ∈ units) :
    tlv.encode.length ≤ (encodeAll units).length := by
  obtain ⟨front, back, rfl⟩ := List.append_of_mem h
  simp only [encodeAll_append, encodeAll_cons, List.length_append]
  omega

theorem encode_ne_nil (tlv : Tlv) : tlv.encode ≠ [] := by
  simp [encode, u16, bigEndian_two]

theorem encodeAll_eq_append {units front : List Tlv} (hunits : ∀ tlv ∈ units, tlv.Intact)
    (hfront : ∀ tlv ∈ front, tlv.Intact) (h : encodeAll units = encodeAll front ++ rest) :
    ∃ back, units = front ++ back ∧ rest = encodeAll back := by
  induction front generalizing units with
  | nil => exact ⟨units, rfl, h.symm⟩
  | cons tlv front ih =>
    cases units with
    | nil => exact absurd (List.append_eq_nil_iff.1 (List.append_eq_nil_iff.1 h.symm).1).1 tlv.encode_ne_nil
    | cons other units =>
      simp only [encodeAll_cons, List.append_assoc] at h
      have hnext := next?_encode (hunits other List.mem_cons_self) (encodeAll units)
      rw [h, next?_encode (hfront tlv List.mem_cons_self), Option.some.injEq, Prod.mk.injEq] at hnext
      obtain ⟨rfl, hrest⟩ := hnext
      obtain ⟨back, rfl, hback⟩ := ih (fun third hthird => hunits third (List.mem_cons_of_mem _ hthird))
        (fun third hthird => hfront third (List.mem_cons_of_mem _ hthird)) hrest.symm
      exact ⟨back, rfl, hback⟩

theorem encodeAll_inj {units others : List Tlv} (hunits : ∀ tlv ∈ units, tlv.Intact)
    (hothers : ∀ tlv ∈ others, tlv.Intact) (h : encodeAll units = encodeAll others) : units = others := by
  rw [← List.append_nil (encodeAll others)] at h
  obtain ⟨back, rfl, hback⟩ := encodeAll_eq_append hunits hothers h
  cases back with
  | nil => exact List.append_nil others
  | cons tlv back => exact absurd (List.append_eq_nil_iff.1 hback.symm).1 tlv.encode_ne_nil

end Tlv

def Attribute.unit (transaction : TransactionId) (a : Attribute) : Tlv :=
  let value := a.value.encode transaction
  ⟨a.type.code, value, zeros (padding value.length)⟩

theorem Attribute.encode_unit (transaction : TransactionId) (a : Attribute) :
    (a.unit transaction).encode = a.encode transaction := rfl

theorem Attribute.intact_unit {transaction : TransactionId} {a : Attribute}
    (h : (a.unit transaction).encode.length < 65536) : (a.unit transaction).Intact := by
  refine ⟨?_, List.length_replicate⟩
  rw [Tlv.length_encode] at h
  omega

variable {code : UInt16} {raw : Bytes} {position : Nat}

theorem findAttributeFrom_encode {tlv : Tlv} (h : tlv.Intact) (rest : Bytes) :
    findAttributeFrom code position (tlv.encode ++ rest) =
      if tlv.code = code then some position
      else findAttributeFrom code (position + tlv.encode.length) rest := by
  have hcode := ofBigEndian_pair tlv.code.toNat_lt
  have hlength := ofBigEndian_pair h.value_lt
  have hdrop : (tlv.value ++ (tlv.fill ++ rest)).drop
      (tlv.value.length + padding tlv.value.length) = rest := by
    rw [← List.append_assoc, List.drop_left' (by rw [List.length_append, h.fill_length])]
  simp only [Tlv.encode, u16, bigEndian_two, List.append_assoc, List.cons_append, List.nil_append]
  rw [findAttributeFrom]
  simp only [hcode, hlength, hdrop, UInt16.toNat_inj]
  congr 2
  simp only [List.length_cons, List.length_append, h.fill_length]
  omega

theorem findAttributeFrom_encodeAll {front : List Tlv} {tlv : Tlv} {rest : Bytes}
    (hfront : ∀ other ∈ front, other.Intact ∧ other.code ≠ code) (htlv : tlv.Intact)
    (hcode : tlv.code = code) :
    findAttributeFrom code position (Tlv.encodeAll front ++ (tlv.encode ++ rest)) =
      some (position + (Tlv.encodeAll front).length) := by
  induction front generalizing position with
  | nil =>
    rw [Tlv.encodeAll_nil, List.nil_append, findAttributeFrom_encode htlv, if_pos hcode]
    rfl
  | cons other front ih =>
    obtain ⟨hother, hne⟩ := hfront other List.mem_cons_self
    rw [Tlv.encodeAll_cons, List.append_assoc, findAttributeFrom_encode hother, if_neg hne,
      ih fun third hthird => hfront third (List.mem_cons_of_mem _ hthird), List.length_append,
      Nat.add_assoc]

/-- Of the units behind the header, the first that is numbered `code` is `tlv`, and it stands at
`position`. -/
def FirstUnit (code : UInt16) (raw : Bytes) (position : Nat) (tlv : Tlv) : Prop :=
  ∃ front rest, raw.drop headerSize = Tlv.encodeAll front ++ (tlv.encode ++ rest) ∧
    position = headerSize + (Tlv.encodeAll front).length ∧
    (∀ other ∈ front, other.Intact ∧ other.code ≠ code) ∧ tlv.Intact ∧ tlv.code = code

namespace FirstUnit

variable {tlv : Tlv}

theorem code_eq (h : FirstUnit code raw position tlv) : tlv.code = code := by
  obtain ⟨_, _, _, _, _, _, hcode⟩ := h
  exact hcode

theorem headerSize_le (h : FirstUnit code raw position tlv) : headerSize ≤ position := by
  obtain ⟨_, _, _, rfl, _⟩ := h
  exact Nat.le_add_right _ _

theorem find (h : FirstUnit code raw position tlv) : findAttribute raw code = some position := by
  obtain ⟨front, rest, hraw, rfl, hfront, htlv, hcode⟩ := h
  rw [findAttribute, hraw]
  exact findAttributeFrom_encodeAll hfront htlv hcode

theorem le_length (h : FirstUnit code raw position tlv) : position + 4 + tlv.value.length ≤ raw.length := by
  obtain ⟨front, rest, hbody, rfl, -⟩ := h
  have hlength := congrArg List.length hbody
  simp only [List.length_drop, List.length_append, tlv.length_encode] at hlength
  omega

theorem value_eq (h : FirstUnit code raw position tlv) :
    (raw.drop (position + 4)).take tlv.value.length = tlv.value := by
  obtain ⟨front, rest, hbody, rfl, -⟩ := h
  rw [← List.drop_drop, ← List.drop_drop, hbody, List.drop_left' rfl]
  simp only [Tlv.encode, List.append_assoc]
  rw [← List.append_assoc (u16 _), List.drop_left' (show (u16 _ ++ u16 _).length = 4 from rfl),
    List.take_left' rfl]

end FirstUnit

end TurnRelay
