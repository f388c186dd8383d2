import TurnRelay.Proofs.Message.Bare
import TurnRelay.Proofs.Message.Signature

namespace TurnRelay

variable {transaction : TransactionId} {type : AttributeType} {data raw : Bytes} {address : TransportAddress}
  {value : AttributeValue} {a : Attribute} {tlv : Tlv} {units : List Tlv} {attributes : List Attribute}
  {signed : Bool} {m : Message}

namespace AddressMask

variable {mask : AddressMask}

theorem bare_of_decode (h : mask.decode data = .ok address) : address.bare = address := by
  unfold decode at h
  split at h
  · simp only at h
    split at h
    · split at h
      · cases h; rfl
      · cases h
    · split at h
      · split at h
        · cases h; rfl
        · cases h
      · cases h
  · cases h

theorem encode_of_decode (h : mask.decode data = .ok address) :
    ∃ first rest, data = first :: rest ∧ mask.encode address = 0 :: rest := by
  unfold decode at h
  split at h
  · next first family high low ip =>
    have hpair := ofBigEndian_pair_lt high low
    have hport : bigEndian 2 (ofBigEndian [high, low]) = [high, low] := u16_ofBigEndian high low
    have hbits {width : Nat} (hlength : ip.length = width) :
        bigEndian width (BitVec.ofNat (8 * width) (ofBigEndian ip)).toNat = ip := by
      have hlt : ofBigEndian ip < 2 ^ (8 * width) := by
        rw [Nat.pow_mul]
        exact ofBigEndian_lt (Nat.le_of_eq hlength)
      rw [BitVec.toNat_ofNat, Nat.mod_eq_of_lt hlt, bigEndian_ofBigEndian_of_length hlength]
    refine ⟨first, _, rfl, ?_⟩
    simp only at h
    split at h
    · next hfamily =>
      split at h
      · next hlength =>
        cases h
        simp only [encode, UInt16.xor_assoc, UInt16.xor_self, UInt16.xor_zero, BitVec.xor_assoc,
          BitVec.xor_self, BitVec.xor_zero, UInt16.toNat_ofNat_of_lt' hpair, hport, hbits hlength, hfamily]
        rfl
      · cases h
    · split at h
      · next hfamily =>
        split at h
        · next hlength =>
          cases h
          simp only [encode, UInt16.xor_assoc, UInt16.xor_self, UInt16.xor_zero, BitVec.xor_assoc,
            BitVec.xor_self, BitVec.xor_zero, UInt16.toNat_ofNat_of_lt' hpair, hport, hbits hlength, hfamily]
          rfl
        · cases h
      · cases h
  · cases h

theorem length_encode_of_decode (h : mask.decode data = .ok address) :
    (mask.encode address).length = data.length := by
  obtain ⟨first, rest, rfl, hencode⟩ := encode_of_decode h
  rw [hencode, List.length_cons, List.length_cons]

end AddressMask

theorem AttributeType.Holds.eq_errorCode {code : UInt16} {reason : String}
    (h : type.Holds (.errorCode code reason)) : type = .errorCode := by
  cases h
  rfl

namespace AttributeValue

/-- The value with the error code that is read back from it. -/
def wrapped : AttributeValue → AttributeValue
  | errorCode code reason => errorCode (.ofNat (code.toNat / 100 % 8 * 100 + code.toNat % 100)) reason
  | value => value

theorem wrapped_eq_self_iff :
    value.wrapped = value ↔ ∀ code reason, value = errorCode code reason → code ≤ 799 := by
  cases value with
  | errorCode code reason =>
    have hcode := code.toNat_lt
    have hwrap : UInt16.ofNat (code.toNat / 100 % 8 * 100 + code.toNat % 100) = code ↔ code ≤ 799 := by
      rw [← UInt16.toNat_inj, UInt16.toNat_ofNat_of_lt' (show _ < 65536 by omega), UInt16.le_iff_toNat_le]
      show _ ↔ code.toNat ≤ 799
      omega
    rw [wrapped, errorCode.injEq, hwrap]
    simp
  | _ => simp [wrapped]

theorem encode_of_codes {list : List UInt16} (h : codes data = .ok list) :
    (list.flatMap fun code => u16 code.toNat) = data := by
  fun_induction codes data generalizing list with
  | case1 => cases h; rfl
  | case2 => cases h
  | case3 high low rest ih =>
    obtain ⟨later, hlater, h⟩ := bind_eq_ok h
    cases h
    rw [List.flatMap_cons, ih hlater, UInt16.toNat_ofNat_of_lt' (ofBigEndian_pair_lt high low), u16_ofBigEndian]
    rfl

theorem bare_of_decode (h : decode transaction type data = .ok value) : value.bare = value := by
  cases holds_of_decode h with
  | mappedAddress | responseOrigin | xorMappedAddress | xorPeerAddress | xorRelayedAddress =>
    obtain ⟨address, haddress, heq⟩ := map_eq_ok h
    rw [← heq, bare, AddressMask.bare_of_decode haddress]
  | _ => rfl

theorem length_encode_of_decode (h : decode transaction type data = .ok value) :
    (value.encode transaction).length = data.length := by
  cases type with
  | mappedAddress | responseOrigin | xorMappedAddress | xorPeerAddress | xorRelayedAddress =>
    obtain ⟨address, haddress, rfl⟩ := map_eq_ok h
    exact AddressMask.length_encode_of_decode haddress
  | username | realm | nonce | software =>
    obtain ⟨text, htext, rfl⟩ := text_eq_ok h
    rw [encode, Utf8.encode_of_decode? htext]
  | errorCode =>
    rw [decode, decodeErrorCode.eq_def] at h
    split at h
    · obtain ⟨reason, hreason, rfl⟩ := text_eq_ok h
      simp only [encode, Utf8.encode_of_decode? hreason, List.length_cons]
    · cases h
  | unknownAttributes =>
    obtain ⟨list, hlist, rfl⟩ := map_eq_ok h
    rw [encode, encode_of_codes hlist]
  | channelNumber | lifetime | requestedTransport | requestedAddressFamily =>
    rw [decode] at h
    obtain ⟨hlength, rfl⟩ := sized_eq_ok h
    exact hlength.symm
  | messageIntegrity | fingerprint =>
    rw [decode] at h
    obtain ⟨-, rfl⟩ := sized_eq_ok h
    rfl
  | data | evenPort | dontFragment | reservationToken | other =>
    cases h
    rfl

theorem decode_encode_wrapped (hholds : type.Holds value) (hbare : value.bare = value)
    (hseal : ¬ type.isSeal) : decode transaction type (value.encode transaction) = .ok value.wrapped := by
  cases value with
  | errorCode code reason =>
    cases hholds
    have hhundreds : code.toNat / 100 % 256 % 8 = code.toNat / 100 % 8 := by omega
    have hnumber : code.toNat % 100 % 256 = code.toNat % 100 := by omega
    simp only [decode, encode, decodeErrorCode, text_encode, UInt8.toNat_ofNat', hhundreds, hnumber, wrapped]
  | mappedAddress address | xorMappedAddress address | xorPeerAddress address | xorRelayedAddress address
  | responseOrigin address =>
    exact decode_encode hholds (TransportAddress.isBare_of_bare (by simpa [bare] using hbare)) hseal
  | _ => exact decode_encode hholds trivial hseal

end AttributeValue

namespace Attribute

def wrapped (a : Attribute) : Attribute := { a with value := a.value.wrapped }

theorem numbered_of_read (h : tlv.read transaction = .ok a) : .ofCode a.type.code = a.type := by
  rw [Tlv.type_of_read h, AttributeType.code_ofCode]

theorem read_unit_wrapped (h : tlv.read transaction = .ok a) (hseal : ¬ a.type.isSeal) :
    (a.unit transaction).read transaction = .ok a.wrapped := by
  have hbare : a.value.bare = a.value := by
    obtain ⟨value, hvalue, rfl⟩ := map_eq_ok h
    exact AttributeValue.bare_of_decode hvalue
  rw [Tlv.read, unit, decode, numbered_of_read h,
    AttributeValue.decode_encode_wrapped (Tlv.holds_of_read h) hbare hseal]
  rfl

theorem wireSize_of_read (h : tlv.read transaction = .ok a) (hintact : tlv.Intact) :
    a.wireSize transaction = tlv.encode.length := by
  obtain ⟨value, hvalue, rfl⟩ := map_eq_ok h
  rw [Tlv.length_encode, hintact.fill_length, wireSize, AttributeValue.length_encode_of_decode hvalue]

theorem totalSize_filter_le (transaction : TransactionId) (p : Attribute → Bool)
    (attributes : List Attribute) :
    totalSize transaction (attributes.filter p) ≤ totalSize transaction attributes := by
  induction attributes with
  | nil => exact Nat.le_refl _
  | cons a attributes ih =>
    rw [List.filter_cons, totalSize]
    split
    · rw [totalSize]
      omega
    · omega

end Attribute

namespace Message

theorem Reads.exists_read (h : Reads transaction raw signed units attributes) :
    ∀ a ∈ attributes, ∃ tlv : Tlv, tlv.read transaction = .ok a := by
  induction h with
  | nil => simp
  | stamp hread => simpa using ⟨_, hread⟩
  | dropped _ _ _ ih => exact ih
  | kept hread _ _ ih => exact List.forall_mem_cons.2 ⟨⟨_, hread⟩, ih⟩

theorem Reads.totalSize_le (h : Reads transaction raw signed units attributes)
    (hintact : ∀ tlv ∈ units, tlv.Intact) :
    Attribute.totalSize transaction attributes ≤ (Tlv.encodeAll units).length := by
  induction h with
  | nil => exact Nat.le_refl _
  | stamp hread =>
    have hsize := Attribute.wireSize_of_read hread (hintact _ List.mem_cons_self)
    simp [Attribute.totalSize, hsize]
  | dropped _ _ _ ih =>
    have hrest := ih fun tlv htlv => hintact tlv (List.mem_cons_of_mem _ htlv)
    rw [Tlv.encodeAll_cons, List.length_append]
    omega
  | kept hread _ _ ih =>
    have hsize := Attribute.wireSize_of_read hread (hintact _ List.mem_cons_self)
    have hrest := ih fun tlv htlv => hintact tlv (List.mem_cons_of_mem _ htlv)
    rw [Tlv.encodeAll_cons, List.length_append, Attribute.totalSize, hsize]
    omega

def unsealed (m : Message) : Message := { m with attributes := m.attributes.filter (!·.type.isSeal) }

def wrapped (m : Message) : Message := { m with attributes := m.attributes.map Attribute.wrapped }

theorem body_eq_units (m : Message) : m.body = Tlv.encodeAll m.unsealed.units := by
  rw [body, units, Tlv.encodeAll, List.flatMap_map]
  rfl

theorem Layout.length_body_le (h : m.Layout raw units) :
    m.body.length ≤ (Tlv.encodeAll units).length := by
  rw [body_eq_units, Message.units, length_encodeAll_units]
  exact Nat.le_trans (Attribute.totalSize_filter_le ..) (h.reads.totalSize_le h.intact)

theorem Layout.reencoded (h : m.Layout raw units) :
    m.unsealed.wrapped.Layout (m.header m.body.length ++ m.body) m.unsealed.units where
  raw_eq := by
    rw [← body_eq_units]
    rfl
  type_eq := h.type_eq
  body_lt := by
    rw [← body_eq_units]
    exact Nat.lt_of_le_of_lt h.length_body_le h.body_lt
  intact tlv htlv := by
    have hle := Tlv.length_le_encodeAll htlv
    have hlt := Nat.lt_of_le_of_lt h.length_body_le h.body_lt
    rw [body_eq_units] at hlt
    obtain ⟨a, -, rfl⟩ := List.mem_map.1 htlv
    exact Attribute.intact_unit (by omega)
  reads := by
    have hread : ∀ a ∈ m.unsealed.attributes,
        (a.unit m.transaction).read m.transaction = .ok a.wrapped ∧ ¬ a.wrapped.type.isSeal := by
      intro a ha
      obtain ⟨hmem, hseal⟩ := List.mem_filter.1 ha
      have hseal : ¬ a.type.isSeal := by simpa using hseal
      obtain ⟨tlv, htlv⟩ := h.reads.exists_read a hmem
      exact ⟨Attribute.read_unit_wrapped htlv hseal, hseal⟩
    have hend : Reads m.transaction (m.header m.body.length ++ m.body) false [] [] := .nil
    have hreads := reads_units hread hend
    rwa [List.append_nil, List.append_nil] at hreads

theorem Layout.wrapped_unsealed_iff (h : m.Layout raw units) :
    m.unsealed.wrapped = m.unsealed ↔
      ∀ a ∈ m.attributes, ∀ code reason, a.value = .errorCode code reason → code ≤ 799 := by
  have hkept : m.unsealed.wrapped = m.unsealed ↔ ∀ a ∈ m.unsealed.attributes, a.wrapped = a := by
    rw [wrapped, Message.mk.injEq, and_iff_right rfl, and_iff_right rfl]
    conv => lhs; rhs; rw [← List.map_id m.unsealed.attributes]
    exact List.map_inj_left
  rw [hkept]
  constructor
  · intro heq a ha code reason hvalue
    have hholds := h.reads.holds a ha
    rw [hvalue] at hholds
    have hmem : a ∈ m.unsealed.attributes := List.mem_filter.2 ⟨ha, by rw [hholds.eq_errorCode]; rfl⟩
    exact AttributeValue.wrapped_eq_self_iff.1 (congrArg (·.value) (heq a hmem)) code reason hvalue
  · intro hcodes a ha
    have hvalue := AttributeValue.wrapped_eq_self_iff.2 (hcodes a (List.mem_filter.1 ha).1)
    rw [Attribute.wrapped, hvalue]

/-- Whatever was read is written again without its seals, and read as the same message but for the
hundreds of error codes above 799. -/
theorem decode_reencoded (h : decode raw = .ok m) (hsize : raw.length ≤ 65536) :
    ∃ bytes, m.encode none false = .ok bytes ∧ decode bytes = .ok m.unsealed.wrapped ∧
      (decode bytes = .ok m.unsealed ↔
        ∀ a ∈ m.attributes, ∀ code reason, a.value = .errorCode code reason → code ≤ 799) := by
  obtain ⟨units, hlayout⟩ := decode_eq_ok_iff.1 h
  have hbody := hlayout.length_body_le
  have hroom : ¬ maxMessageSize < headerSize + m.body.length := by
    rw [hlayout.raw_eq, List.length_append, length_header] at hsize
    rw [maxMessageSize]
    omega
  have hencode : m.encode none false = .ok (m.header m.body.length ++ m.body) := if_neg hroom
  have hdecode := hlayout.reencoded.decode_eq
  refine ⟨_, hencode, hdecode, ?_⟩
  rw [hdecode, Except.ok.injEq]
  exact hlayout.wrapped_unsealed_iff

end Message

namespace Sample

def carelessBytes : Bytes :=
  [0x01, 0x13, 0x00, 0x24, 0x21, 0x12, 0xA4, 0x42, 0, 0, 0, 0, 0, 0, 0, 0, 0, 0, 0, 7,
    0x00, 0x09, 0x00, 0x05, 0xFF, 0xFF, 0xFC, 0x14, 0x41, 1, 2, 3, 0x00, 0x08, 0x00, 0x14] ++
    List.replicate 20 9

def careless : Message :=
  ⟨⟨.allocate, .failure⟩, 7,
    [⟨.errorCode, .errorCode 420 "A"⟩, ⟨.messageIntegrity, .raw (List.replicate 20 9)⟩]⟩

def overflowingBytes : Bytes :=
  [0x01, 0x11, 0x00, 0x08, 0x21, 0x12, 0xA4, 0x42, 0, 0, 0, 0, 0, 0, 0, 0, 0, 0, 0, 7,
    0x00, 0x09, 0x00, 0x04, 0x00, 0x00, 0x07, 0x64]

def overflowing : Message := ⟨⟨.binding, .failure⟩, 7, [⟨.errorCode, .errorCode 800 ""⟩]⟩

theorem decode_overflowingBytes : Message.decode overflowingBytes = .ok overflowing :=
  eq_ok_of_toOption (by decide +kernel)

end Sample

theorem decode_reencoded_sample :
    Sample.carelessBytes.length ≤ 65536 ∧ Message.decode Sample.carelessBytes = .ok Sample.careless ∧
      ∃ bytes, Sample.careless.encode none false = .ok bytes ∧
        Message.decode bytes = .ok Sample.careless.unsealed := by
  have hsize : Sample.carelessBytes.length ≤ 65536 := by decide
  have hdecode : Message.decode Sample.carelessBytes = .ok Sample.careless :=
    Sample.eq_ok_of_toOption (by decide +kernel)
  obtain ⟨bytes, hencode, -, hexact⟩ := Message.decode_reencoded hdecode hsize
  refine ⟨hsize, hdecode, bytes, hencode, hexact.2 ?_⟩
  simp only [Sample.careless, List.forall_mem_cons]
  refine ⟨?_, ?_, by simp⟩
  · rintro code reason ⟨⟩
    decide
  · rintro code reason ⟨⟩

theorem exists_reencoded_otherwise :
    ¬ ∀ raw m, raw.length ≤ 65536 → Message.decode raw = .ok m →
      ∃ bytes, m.encode none false = .ok bytes ∧ Message.decode bytes = .ok m.unsealed := by
  intro h
  obtain ⟨bytes, hencode, hdecode⟩ :=
    h Sample.overflowingBytes Sample.overflowing (by decide) Sample.decode_overflowingBytes
  have hwritten : (Sample.overflowing.encode none false).toOption.bind
      (fun bytes => (Message.decode bytes).toOption) ≠ some Sample.overflowing.unsealed := by
    decide +kernel
  rw [hencode] at hwritten
  exact hwritten (by rw [Except.toOption, Option.bind, hdecode]; rfl)

end TurnRelay
