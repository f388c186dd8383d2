import TurnRelay.Proofs.Message.Reading

namespace TurnRelay

structure Attribute.Faithful (a : Attribute) : Prop where
  numbered : .ofCode a.type.code = a.type
  unsealed : ¬ a.type.isSeal
  holds : a.type.Holds a.value
  writable : a.value.Writable

theorem Attribute.read_unit {a : Attribute} {transaction : TransactionId}
    (hnumbered : .ofCode a.type.code = a.type)
    (hvalue : AttributeValue.decode transaction a.type (a.value.encode transaction) = .ok a.value) :
    (a.unit transaction).read transaction = .ok a := by
  rw [Tlv.read, unit, decode, hnumbered, hvalue]
  rfl

theorem Attribute.Faithful.read_unit {a : Attribute} (h : a.Faithful) (transaction : TransactionId) :
    (a.unit transaction).read transaction = .ok a :=
  Attribute.read_unit h.numbered (AttributeValue.decode_encode h.holds h.writable h.unsealed)

def Attribute.wireSize (transaction : TransactionId) (a : Attribute) : Nat :=
  let length := (a.value.encode transaction).length
  4 + length + padding length

def Attribute.totalSize (transaction : TransactionId) : List Attribute → Nat
  | [] => 0
  | a :: rest => a.wireSize transaction + totalSize transaction rest

theorem Attribute.length_encode_unit (transaction : TransactionId) (a : Attribute) :
    (a.unit transaction).encode.length = a.wireSize transaction := by
  rw [Tlv.length_encode, wireSize, unit, zeros, List.length_replicate]

namespace Message

/-- The wire keeps all of the message, and its seals are not stored in it. -/
structure Faithful (m : Message) : Prop where
  method : ∃ code ≤ 0x0FFF, m.type.method = .ofCode code
  attributes : ∀ a ∈ m.attributes, a.Faithful

def integritySeal (m : Message) (key : Bytes) : Attribute :=
  ⟨.messageIntegrity, .raw (m.integrityOf key m.body)⟩

def fingerprintSeal (m : Message) (key : Option Bytes) : Attribute :=
  ⟨.fingerprint, .raw (m.fingerprintOf (m.sign key m.body))⟩

def seals (m : Message) (key : Option Bytes) (stamped : Bool) : List Attribute :=
  (key.map m.integritySeal).toList ++ if stamped then [m.fingerprintSeal key] else []

def withSeals (m : Message) (key : Option Bytes) (stamped : Bool) : Message :=
  { m with attributes := m.attributes ++ m.seals key stamped }

def wireSize (m : Message) (key : Option Bytes) (stamped : Bool) : Nat :=
  headerSize + Attribute.totalSize m.transaction m.attributes + (if key.isSome then 24 else 0) +
    if stamped then 8 else 0

def units (m : Message) : List Tlv := m.attributes.map (·.unit m.transaction)

variable {m : Message} {key : Option Bytes} {stamped : Bool}

theorem Faithful.body_eq (h : m.Faithful) : m.body = Tlv.encodeAll m.units := by
  have hkept : m.attributes.filter (!·.type.isSeal) = m.attributes :=
    List.filter_eq_self.2 fun a ha => by simpa using (h.attributes a ha).unsealed
  rw [body, hkept, units, Tlv.encodeAll, List.flatMap_map]
  rfl

theorem units_withSeals (m : Message) (key : Option Bytes) (stamped : Bool) :
    (m.withSeals key stamped).units = m.units ++ (m.seals key stamped).map (·.unit m.transaction) :=
  List.map_append

theorem units_signed (m : Message) (key : Bytes) (stamped : Bool) :
    ∃ rest, (m.withSeals (some key) stamped).units =
      m.units ++ (m.integritySeal key).unit m.transaction :: rest :=
  ⟨_, by rw [units_withSeals]; rfl⟩

theorem sign_stamp_eq (m : Message) (key : Option Bytes) (stamped : Bool) :
    m.stamp stamped (m.sign key m.body) =
      m.body ++ Tlv.encodeAll ((m.seals key stamped).map (·.unit m.transaction)) := by
  cases key <;> cases stamped <;>
    simp [stamp, sign, seals, integritySeal, fingerprintSeal, Attribute.encode_unit]

theorem Faithful.sealed_eq (h : m.Faithful) (key : Option Bytes) (stamped : Bool) :
    m.stamp stamped (m.sign key m.body) = Tlv.encodeAll (m.withSeals key stamped).units := by
  rw [sign_stamp_eq, h.body_eq, units_withSeals, Tlv.encodeAll_append]

theorem length_encodeAll_units (transaction : TransactionId) (attributes : List Attribute) :
    (Tlv.encodeAll (attributes.map (·.unit transaction))).length =
      Attribute.totalSize transaction attributes := by
  induction attributes with
  | nil => rfl
  | cons a rest ih =>
    rw [List.map_cons, Tlv.encodeAll_cons, List.length_append, ih, a.length_encode_unit,
      Attribute.totalSize]

theorem wireSize_integritySeal (m : Message) (key : Bytes) :
    (m.integritySeal key).wireSize m.transaction = 24 := by
  rw [Attribute.wireSize, integritySeal, AttributeValue.encode, integrityOf, Hmac.length_sha1]
  rfl

theorem wireSize_fingerprintSeal (m : Message) (key : Option Bytes) :
    (m.fingerprintSeal key).wireSize m.transaction = 8 := by
  rw [Attribute.wireSize, fingerprintSeal, AttributeValue.encode, fingerprintOf, length_bigEndian]
  rfl

theorem wireSize_eq (m : Message) (key : Option Bytes) (stamped : Bool) :
    m.wireSize key stamped = headerSize + (Tlv.encodeAll (m.withSeals key stamped).units).length := by
  rw [units_withSeals, Tlv.encodeAll_append, List.length_append, units, length_encodeAll_units,
    length_encodeAll_units, wireSize]
  cases key <;> cases stamped <;>
    simp [seals, Attribute.totalSize, wireSize_integritySeal, wireSize_fingerprintSeal, Nat.add_assoc]

theorem reads_units {transaction : TransactionId} {raw : Bytes} {attributes rest : List Attribute}
    {units : List Tlv} {kept : Attribute → Attribute}
    (h : ∀ a ∈ attributes, (a.unit transaction).read transaction = .ok (kept a) ∧ ¬ (kept a).type.isSeal)
    (hrest : Reads transaction raw false units rest) :
    Reads transaction raw false (attributes.map (·.unit transaction) ++ units)
      (attributes.map kept ++ rest) := by
  induction attributes with
  | nil => exact hrest
  | cons a attributes ih =>
    obtain ⟨hread, hseal⟩ := h a List.mem_cons_self
    simp only [AttributeType.isSeal, Bool.or_eq_true, decide_eq_true_eq, not_or] at hseal
    refine .kept hread hseal.2 ?_
    rw [decide_eq_false hseal.1]
    exact ih fun b hb => h b (List.mem_cons_of_mem _ hb)

theorem read_integritySeal (m : Message) (key : Bytes) :
    ((m.integritySeal key).unit m.transaction).read m.transaction = .ok (m.integritySeal key) := by
  have hlength : (m.integrityOf key m.body).length = integritySize := Hmac.length_sha1 _ _
  exact Attribute.read_unit rfl (AttributeValue.sized_of_length hlength .raw)

theorem read_fingerprintSeal (m : Message) (key : Option Bytes) :
    ((m.fingerprintSeal key).unit m.transaction).read m.transaction = .ok (m.fingerprintSeal key) := by
  have hlength : (m.fingerprintOf (m.sign key m.body)).length = 4 := length_bigEndian _ _
  exact Attribute.read_unit rfl (AttributeValue.sized_of_length hlength .raw)

theorem fingerprint_before (m : Message) (key : Option Bytes) {raw : Bytes}
    (hraw : raw = m.header ((m.sign key m.body).length + 8) ++
      (m.sign key m.body ++ ((m.fingerprintSeal key).unit m.transaction).encode)) :
    fingerprint (before raw ((m.fingerprintSeal key).unit m.transaction).encode) =
      .ofNat 32 (ofBigEndian (m.fingerprintOf (m.sign key m.body))) := by
  have hcovered : before raw ((m.fingerprintSeal key).unit m.transaction).encode =
      m.header ((m.sign key m.body).length + 8) ++ m.sign key m.body := by
    rw [hraw, before, ← List.append_assoc, List.length_append, Nat.add_sub_cancel, List.take_left' rfl]
  rw [hcovered, fingerprintOf, ofBigEndian_bigEndian_of_lt (BitVec.isLt _), BitVec.ofNat_toNat,
    BitVec.setWidth_eq]

theorem reads_seals (m : Message) (key : Option Bytes) (stamped : Bool) {raw : Bytes}
    (hraw : raw = m.header (m.stamp stamped (m.sign key m.body)).length ++
      m.stamp stamped (m.sign key m.body)) :
    Reads m.transaction raw false ((m.seals key stamped).map (·.unit m.transaction))
      (m.seals key stamped) := by
  have hstamp (signed : Bool) : Reads m.transaction raw signed
      ((if stamped then [m.fingerprintSeal key] else []).map (·.unit m.transaction))
      (if stamped then [m.fingerprintSeal key] else []) := by
    cases stamped with
    | false => exact .nil
    | true =>
      refine .stamp (m.read_fingerprintSeal key) rfl (m.fingerprint_before key ?_)
      have hstamped : m.stamp true (m.sign key m.body) =
          m.sign key m.body ++ ((m.fingerprintSeal key).unit m.transaction).encode := rfl
      rw [hraw, hstamped, List.length_append, Attribute.length_encode_unit, wireSize_fingerprintSeal]
  cases key with
  | none => exact hstamp false
  | some key => exact .kept (m.read_integritySeal key) (by simp [integritySeal]) (hstamp true)

theorem Faithful.layout (h : m.Faithful) (hsize : m.wireSize key stamped ≤ maxMessageSize) {raw : Bytes}
    (hraw : raw = m.header (m.stamp stamped (m.sign key m.body)).length ++
      m.stamp stamped (m.sign key m.body)) :
    (m.withSeals key stamped).Layout raw (m.withSeals key stamped).units := by
  have hkept : ∀ a ∈ m.attributes,
      (a.unit m.transaction).read m.transaction = .ok (id a) ∧ ¬ (id a).type.isSeal := fun a ha =>
    ⟨(h.attributes a ha).read_unit m.transaction, (h.attributes a ha).unsealed⟩
  have hreads := reads_units hkept (m.reads_seals key stamped hraw)
  rw [List.map_id] at hreads
  rw [h.sealed_eq] at hraw
  rw [wireSize_eq, headerSize, maxMessageSize] at hsize
  refine ⟨hraw, ?_, by omega, ?_, ?_⟩
  · obtain ⟨code, hcode, hmethod⟩ := h.method
    have htype : m.type = ⟨.ofCode code, m.type.messageClass⟩ := by rw [← hmethod]
    show MessageType.ofWire m.type.toWire = m.type
    rw [htype, MessageType.ofWire_toWire hcode]
  · intro tlv htlv
    have hle := Tlv.length_le_encodeAll htlv
    obtain ⟨a, -, rfl⟩ := List.mem_map.1 htlv
    exact Attribute.intact_unit (by omega)
  · rw [units_withSeals]
    exact hreads

theorem Faithful.layout_of_encode (h : m.Faithful) {raw : Bytes}
    (hencode : m.encode key stamped = .ok raw) :
    (m.withSeals key stamped).Layout raw (m.withSeals key stamped).units := by
  simp only [encode] at hencode
  split at hencode
  · cases hencode
  · next hsize =>
    cases hencode
    rw [h.sealed_eq, ← wireSize_eq] at hsize
    exact h.layout (Nat.le_of_not_lt hsize) rfl

end Message

namespace Sample

end Sample

end TurnRelay
