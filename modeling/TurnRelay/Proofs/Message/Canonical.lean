import TurnRelay.Proofs.Message.Framing

namespace TurnRelay

variable {transaction : TransactionId} {type : AttributeType} {data raw : Bytes} {address : TransportAddress}
  {value : AttributeValue} {a : Attribute} {tlv : Tlv} {units : List Tlv} {attributes : List Attribute}
  {signed : Bool} {m : Message}

namespace AttributeType

def reserved : AttributeType → Bytes → Bytes
  | .mappedAddress, data | .xorMappedAddress, data | .xorPeerAddress, data | .xorRelayedAddress, data
  | .responseOrigin, data => data.take 1
  | .errorCode, data => data.take 2
  | .channelNumber, data => data.drop 2
  | .requestedTransport, data | .requestedAddressFamily, data => data.drop 1
  | _, _ => []

/-- The value is one that is written for values of the type. The class of an error code has three bits, and
its number two decimal digits. -/
structure Canonical (type : AttributeType) (data : Bytes) : Prop where
  reserved : ∀ b ∈ type.reserved data, b = 0
  hundreds : type = .errorCode → ∀ hundreds ∈ data[2]?, hundreds < 8
  number : type = .errorCode → ∀ number ∈ data[3]?, number < 100

instance (type : AttributeType) (data : Bytes) : Decidable (type.Canonical data) :=
  have : Decidable (∀ b ∈ type.reserved data, b = 0) := List.decidableBAll _ _
  have : Decidable (∀ hundreds ∈ data[2]?, hundreds < 8) := Option.decidableForallMem _
  have : Decidable (∀ number ∈ data[3]?, number < 100) := Option.decidableForallMem _
  decidable_of_iff ((∀ b ∈ type.reserved data, b = 0) ∧
      (type = .errorCode → ∀ hundreds ∈ data[2]?, hundreds < 8) ∧
      (type = .errorCode → ∀ number ∈ data[3]?, number < 100))
    ⟨fun ⟨hreserved, hhundreds, hnumber⟩ => ⟨hreserved, hhundreds, hnumber⟩,
      fun ⟨hreserved, hhundreds, hnumber⟩ => ⟨hreserved, hhundreds, hnumber⟩⟩

theorem canonical_iff_of_ne (h : type ≠ .errorCode) :
    type.Canonical data ↔ ∀ b ∈ type.reserved data, b = 0 :=
  ⟨(·.reserved), fun hreserved => ⟨hreserved, fun htype => absurd htype h, fun htype => absurd htype h⟩⟩

end AttributeType

namespace Tlv

structure Canonical (tlv : Tlv) : Prop where
  not_integrity : ¬ tlv.IsIntegrity
  not_fingerprint : ¬ tlv.IsFingerprint
  fill : ∀ b ∈ tlv.fill, b = 0
  value : (AttributeType.ofCode tlv.code).Canonical tlv.value

instance (tlv : Tlv) : Decidable tlv.Canonical :=
  have : Decidable (∀ b ∈ tlv.fill, b = 0) := List.decidableBAll _ _
  decidable_of_iff (¬ tlv.IsIntegrity ∧ ¬ tlv.IsFingerprint ∧ (∀ b ∈ tlv.fill, b = 0) ∧
      (AttributeType.ofCode tlv.code).Canonical tlv.value)
    ⟨fun ⟨hintegrity, hfingerprint, hfill, hvalue⟩ => ⟨hintegrity, hfingerprint, hfill, hvalue⟩,
      fun ⟨hintegrity, hfingerprint, hfill, hvalue⟩ => ⟨hintegrity, hfingerprint, hfill, hvalue⟩⟩

end Tlv

def Message.Canonical (raw : Bytes) : Prop :=
  ∃ units ∈ Tlv.walk? (raw.drop headerSize), ∀ tlv ∈ units, tlv.Canonical

instance (raw : Bytes) : Decidable (Message.Canonical raw) :=
  inferInstanceAs (Decidable (∃ units ∈ Tlv.walk? (raw.drop headerSize), ∀ tlv ∈ units, tlv.Canonical))

theorem AddressMask.encode_eq_iff {mask : AddressMask} (h : mask.decode data = .ok address) :
    mask.encode address = data ↔ ∀ b ∈ data.take 1, b = 0 := by
  obtain ⟨first, rest, rfl, hencode⟩ := encode_of_decode h
  simp [hencode, eq_comm]

theorem eq_of_length_four (h : data.length = 4) :
    ∃ first second third fourth, data = [first, second, third, fourth] := by
  match data, h with
  | [first, second, third, fourth], _ => exact ⟨first, second, third, fourth, rfl⟩

namespace AttributeValue

theorem errorCode_digits_iff (hundreds number : UInt8) :
    UInt8.ofNat ((UInt16.ofNat (hundreds.toNat % 8 * 100 + number.toNat)).toNat / 100) = hundreds ∧
      UInt8.ofNat ((UInt16.ofNat (hundreds.toNat % 8 * 100 + number.toNat)).toNat % 100) = number ↔
        hundreds < 8 ∧ number < 100 := by
  have hh := hundreds.toNat_lt
  have hn := number.toNat_lt
  rw [← UInt8.toNat_inj, ← UInt8.toNat_inj, UInt8.lt_iff_toNat_lt, UInt8.lt_iff_toNat_lt,
    UInt16.toNat_ofNat_of_lt' (by omega : _ < 65536), UInt8.toNat_ofNat', UInt8.toNat_ofNat']
  change _ ↔ hundreds.toNat < 8 ∧ number.toNat < 100
  omega

theorem errorCode_encode_eq_iff (h : decodeErrorCode data = .ok value) :
    value.encode transaction = data ↔ AttributeType.errorCode.Canonical data := by
  unfold decodeErrorCode at h
  split at h
  · next first second hundreds number reason =>
    obtain ⟨text, htext, rfl⟩ := text_eq_ok h
    have hcanonical : AttributeType.errorCode.Canonical (first :: second :: hundreds :: number :: reason) ↔
        (first = 0 ∧ second = 0) ∧ hundreds < 8 ∧ number < 100 := by
      constructor
      · rintro ⟨hreserved, hhundreds, hnumber⟩
        exact ⟨by simpa [AttributeType.reserved] using hreserved, hhundreds rfl _ rfl, hnumber rfl _ rfl⟩
      · rintro ⟨hreserved, hhundreds, hnumber⟩
        exact ⟨by simpa [AttributeType.reserved] using hreserved,
          by simpa using hhundreds, by simpa using hnumber⟩
    rw [hcanonical, ← errorCode_digits_iff, encode, Utf8.encode_of_decode? htext]
    simp only [List.cons.injEq, and_true, and_assoc, eq_comm (a := (0 : UInt8))]
  · cases h

theorem encode_eq_iff (h : decode transaction type data = .ok value) :
    value.encode transaction = data ↔ type.Canonical data := by
  by_cases htype : type = .errorCode
  · subst htype
    exact errorCode_encode_eq_iff h
  rw [AttributeType.canonical_iff_of_ne htype]
  cases type with
  | errorCode => exact absurd rfl htype
  | mappedAddress | responseOrigin | xorMappedAddress | xorPeerAddress | xorRelayedAddress =>
    obtain ⟨address, haddress, rfl⟩ := map_eq_ok h
    exact AddressMask.encode_eq_iff haddress
  | username | realm | nonce | software =>
    rw [decode] at h
    obtain ⟨text, htext, rfl⟩ := text_eq_ok h
    simp [encode, Utf8.encode_of_decode? htext, AttributeType.reserved]
  | unknownAttributes =>
    obtain ⟨list, hlist, rfl⟩ := map_eq_ok h
    simp [encode, encode_of_codes hlist, AttributeType.reserved]
  | channelNumber =>
    rw [decode] at h
    obtain ⟨hlength, rfl⟩ := sized_eq_ok h
    obtain ⟨high, low, third, fourth, rfl⟩ := eq_of_length_four hlength
    simp [encode, AttributeType.reserved, UInt16.toNat_ofNat_of_lt' (ofBigEndian_pair_lt high low),
      u16_ofBigEndian, eq_comm (a := (0 : UInt8))]
  | lifetime =>
    rw [decode] at h
    obtain ⟨hlength, rfl⟩ := sized_eq_ok h
    have hlt : ofBigEndian data < 4294967296 := ofBigEndian_lt (Nat.le_of_eq hlength)
    simp [encode, UInt32.toNat_ofNat_of_lt' hlt, bigEndian_ofBigEndian_of_length hlength,
      AttributeType.reserved]
  | requestedTransport | requestedAddressFamily =>
    rw [decode] at h
    obtain ⟨hlength, rfl⟩ := sized_eq_ok h
    obtain ⟨first, second, third, fourth, rfl⟩ := eq_of_length_four hlength
    simp [encode, AttributeType.reserved, eq_comm (a := (0 : UInt8))]
  | messageIntegrity | fingerprint =>
    rw [decode] at h
    obtain ⟨-, rfl⟩ := sized_eq_ok h
    simp [encode, AttributeType.reserved]
  | data | evenPort | dontFragment | reservationToken | other =>
    cases h
    simp [encode, AttributeType.reserved]

end AttributeValue

theorem Attribute.isSeal_of_read (h : tlv.read transaction = .ok a) :
    a.type.isSeal ↔ tlv.IsIntegrity ∨ tlv.IsFingerprint := by
  rw [AttributeType.isSeal, Bool.or_eq_true, decide_eq_true_iff, decide_eq_true_iff,
    Tlv.type_eq_integrity_iff h, Tlv.type_eq_fingerprint_iff h]

theorem Attribute.unit_eq_iff (h : tlv.read transaction = .ok a) (hintact : tlv.Intact) :
    ¬ a.type.isSeal ∧ a.unit transaction = tlv ↔ tlv.Canonical := by
  have hcode : a.type.code = tlv.code := by rw [Tlv.type_of_read h, AttributeType.code_ofCode]
  have hseal := isSeal_of_read h
  obtain ⟨value, hvalue, rfl⟩ := map_eq_ok h
  have hfill : zeros (padding (value.encode transaction).length) = tlv.fill ↔ ∀ b ∈ tlv.fill, b = 0 := by
    rw [AttributeValue.length_encode_of_decode hvalue, ← hintact.fill_length, eq_comm, zeros,
      List.eq_replicate_iff, and_iff_right rfl]
  have hunit : Attribute.unit transaction ⟨.ofCode tlv.code, value⟩ = tlv ↔
      (AttributeType.ofCode tlv.code).Canonical tlv.value ∧ ∀ b ∈ tlv.fill, b = 0 := by
    rw [← AttributeValue.encode_eq_iff hvalue, ← hfill, unit, Tlv.mk.injEq, and_iff_right hcode]
  rw [hunit, hseal, not_or]
  constructor
  · rintro ⟨⟨hintegrity, hfingerprint⟩, hkept, hzero⟩
    exact ⟨hintegrity, hfingerprint, hzero, hkept⟩
  · rintro ⟨hintegrity, hfingerprint, hzero, hkept⟩
    exact ⟨⟨hintegrity, hfingerprint⟩, hkept, hzero⟩

namespace Message

theorem Reads.length_le (h : Reads transaction raw signed units attributes) :
    attributes.length ≤ units.length := by
  induction h with
  | nil => exact Nat.le_refl _
  | stamp => exact Nat.le_refl _
  | dropped _ _ _ ih => exact Nat.le_succ_of_le ih
  | kept _ _ _ ih => exact Nat.succ_le_succ ih

theorem Reads.units_eq_iff (h : Reads transaction raw false units attributes)
    (hintact : ∀ tlv ∈ units, tlv.Intact) :
    (attributes.filter (!·.type.isSeal)).map (·.unit transaction) = units ↔ ∀ tlv ∈ units, tlv.Canonical := by
  generalize hsigned : false = signed at h
  induction h with
  | nil => simp
  | @stamp _ tlv a hread htype =>
    have hfingerprint := (Tlv.type_eq_fingerprint_iff hread).1 htype
    have hseal : a.type.isSeal := (Attribute.isSeal_of_read hread).2 (.inr hfingerprint)
    rw [List.forall_mem_singleton]
    exact iff_of_false (by simp [hseal]) fun hcanonical => hcanonical.not_fingerprint hfingerprint
  | dropped => cases hsigned
  | @kept tlv units a attributes hread htype hrest ih =>
    obtain ⟨hhead, htail⟩ := List.forall_mem_cons.1 hintact
    have hunit := Attribute.unit_eq_iff hread hhead
    rw [List.forall_mem_cons, ← hunit]
    by_cases hseal : a.type.isSeal
    · -- nothing is written for a seal, so there are too few units
      have hfewer := Nat.le_trans (List.length_filter_le (!·.type.isSeal) attributes) hrest.length_le
      simp only [List.filter_cons, hseal, Bool.not_true, Bool.false_eq_true, if_false, not_true_eq_false,
        false_and, iff_false]
      intro heq
      have hlength := congrArg List.length heq
      rw [List.length_map, List.length_cons] at hlength
      omega
    · have hunsigned : false = decide (a.type = .messageIntegrity) := by
        simp only [AttributeType.isSeal, Bool.or_eq_true, decide_eq_true_eq, not_or] at hseal
        exact (decide_eq_false hseal.1).symm
      rw [List.filter_cons, if_pos (by simpa using hseal), List.map_cons, List.cons.injEq,
        ih htail hunsigned, and_iff_right hseal]

theorem Layout.canonical_iff (h : m.Layout raw units) : Canonical raw ↔ ∀ tlv ∈ units, tlv.Canonical := by
  rw [Canonical, h.drop_eq, Tlv.walk?_encodeAll h.intact]
  simp

/-- A message that was read is written as the bytes it came from exactly if these are canonical and within
the size limit. -/
theorem encode_decoded_iff (h : decode raw = .ok m) :
    m.encode none false = .ok raw ↔ raw.length ≤ 65536 ∧ Canonical raw := by
  obtain ⟨units, hlayout⟩ := decode_eq_ok_iff.1 h
  have hkept : m.unsealed.units = units ↔ ∀ tlv ∈ units, tlv.Canonical :=
    hlayout.reads.units_eq_iff hlayout.intact
  rw [hlayout.canonical_iff, ← hkept]
  have hlength : raw.length = headerSize + (Tlv.encodeAll units).length := by
    rw [hlayout.raw_eq, List.length_append, length_header]
  have hwritten : m.stamp false (m.sign none m.body) = Tlv.encodeAll m.unsealed.units := m.body_eq_units
  constructor
  · intro hencode
    have hwalked := (framed_of_encode hencode).walked
    rw [hlayout.drop_eq, Tlv.walk?_encodeAll hlayout.intact, Option.some.injEq] at hwalked
    have hunits : m.unsealed.units = units := by
      rw [hwalked, units_withSeals]
      exact (List.append_nil _).symm
    have hsize := (encode_eq_ok_iff.1 hencode).1
    rw [← length_stamp_sign, hwritten, hunits, ← hlength] at hsize
    exact ⟨hsize, hunits⟩
  · rintro ⟨hsize, hunits⟩
    rw [encode_eq_ok_iff, ← length_stamp_sign, hwritten, hunits, ← hlength]
    exact ⟨hsize, hlayout.raw_eq⟩

end Message

namespace Sample

def carefulBytes : Bytes :=
  [0x01, 0x13, 0x00, 0x34, 0x21, 0x12, 0xA4, 0x42, 0, 0, 0, 0, 0, 0, 0, 0, 0, 0, 0, 7,
    0x00, 0x09, 0x00, 0x05, 0x00, 0x00, 0x04, 0x14, 0x41, 0, 0, 0,
    0x00, 0x01, 0x00, 0x14, 0x00, 0x02, 0x0D, 0x96] ++ List.replicate 16 9 ++
    [0xC0, 0x01, 0x00, 0x02, 5, 6, 0, 0, 0x80, 0x22, 0x00, 0x03, 0x41, 0x42, 0x43, 0x00]

def careful : Message :=
  ⟨⟨.allocate, .failure⟩, 7, [⟨.errorCode, .errorCode 420 "A"⟩,
    ⟨.mappedAddress, .mappedAddress (.v6 0x09090909090909090909090909090909 3478 0 0)⟩,
    ⟨.other 0xC001, .raw [5, 6]⟩, ⟨.software, .software "ABC"⟩]⟩

end Sample

theorem encode_decoded_iff_sample :
    Message.decode Sample.carefulBytes = .ok Sample.careful ∧ Message.Canonical Sample.carefulBytes ∧
      Sample.careful.encode none false = .ok Sample.carefulBytes := by
  have hdecode : Message.decode Sample.carefulBytes = .ok Sample.careful :=
    Sample.eq_ok_of_toOption (by decide +kernel)
  have hcanonical : Message.Canonical Sample.carefulBytes := by decide +kernel
  exact ⟨hdecode, hcanonical, (Message.encode_decoded_iff hdecode).2 ⟨by decide, hcanonical⟩⟩

end TurnRelay
