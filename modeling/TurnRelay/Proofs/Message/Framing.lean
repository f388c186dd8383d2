import TurnRelay.Proofs.Message.Grammar
import TurnRelay.Proofs.Message.Reencoding

namespace TurnRelay

namespace Tlv

def walk? (bytes : Bytes) : Option (List Tlv) :=
  if bytes.isEmpty then some []
  else
    match _h : next? bytes with
    | none => none
    | some (tlv, rest) => (walk? rest).map (tlv :: ·)
termination_by bytes.length
decreasing_by exact length_of_next? (by assumption)

variable {tlv : Tlv} {units : List Tlv} {bytes : Bytes}

theorem walk?_encode (h : tlv.Intact) (rest : Bytes) :
    walk? (tlv.encode ++ rest) = (walk? rest).map (tlv :: ·) := by
  rw [walk?, if_neg (by simp [tlv.encode_ne_nil])]
  split
  · next hnone => cases (next?_encode h rest).symm.trans hnone
  · next hsome => cases (next?_encode h rest).symm.trans hsome; rfl

theorem walk?_encodeAll (h : ∀ tlv ∈ units, tlv.Intact) : walk? (encodeAll units) = some units := by
  induction units with
  | nil => rw [encodeAll_nil, walk?]; rfl
  | cons tlv units ih =>
    obtain ⟨hhead, htail⟩ := List.forall_mem_cons.1 h
    rw [encodeAll_cons, walk?_encode hhead, ih htail]
    rfl

theorem walk?_eq_some_iff :
    walk? bytes = some units ↔ bytes = encodeAll units ∧ ∀ tlv ∈ units, tlv.Intact := by
  constructor
  · intro h
    fun_induction walk? bytes generalizing units with
    | case1 bytes hempty =>
      cases h
      exact ⟨List.isEmpty_iff.1 hempty, by simp⟩
    | case2 => cases h
    | case3 bytes _ tlv rest hnext ih =>
      obtain ⟨later, hlater, rfl⟩ := Option.map_eq_some_iff.1 h
      obtain ⟨rfl, hintact⟩ := eq_encode_of_next? hnext
      obtain ⟨rfl, hrest⟩ := ih hlater
      exact ⟨rfl, List.forall_mem_cons.2 ⟨hintact, hrest⟩⟩
  · rintro ⟨rfl, h⟩
    exact walk?_encodeAll h

end Tlv

theorem AttributeType.code_eq_integrity_iff {type : AttributeType} :
    type.code = messageIntegrity.code ↔ type = .messageIntegrity ∨ type = .other 8 := by
  cases type with
  | other number => simp [AttributeType.code]
  | _ => simp [AttributeType.code]

namespace Message

variable {m : Message} {key : Option Bytes} {stamped : Bool} {raw : Bytes}

theorem body_unsealed (m : Message) : m.unsealed.body = m.body := by
  simp only [body, unsealed, List.filter_filter, Bool.and_self]

theorem integrityOf_unsealed (m : Message) (key body : Bytes) :
    m.unsealed.integrityOf key body = m.integrityOf key body := rfl

theorem fingerprintOf_unsealed (m : Message) (body : Bytes) :
    m.unsealed.fingerprintOf body = m.fingerprintOf body := rfl

theorem sign_unsealed (m : Message) (key : Option Bytes) (body : Bytes) :
    m.unsealed.sign key body = m.sign key body := by
  cases key <;> rfl

theorem integritySeal_unsealed (m : Message) (key : Bytes) :
    m.unsealed.integritySeal key = m.integritySeal key := by
  rw [integritySeal, integritySeal, body_unsealed, integrityOf_unsealed]

theorem fingerprintSeal_unsealed (m : Message) (key : Option Bytes) :
    m.unsealed.fingerprintSeal key = m.fingerprintSeal key := by
  rw [fingerprintSeal, fingerprintSeal, body_unsealed, sign_unsealed, fingerprintOf_unsealed]

theorem seals_unsealed (m : Message) (key : Option Bytes) (stamped : Bool) :
    m.unsealed.seals key stamped = m.seals key stamped := by
  rw [seals, seals, fingerprintSeal_unsealed, funext m.integritySeal_unsealed]

theorem stamp_sign_eq (m : Message) (key : Option Bytes) (stamped : Bool) :
    m.stamp stamped (m.sign key m.body) = Tlv.encodeAll (m.unsealed.withSeals key stamped).units := by
  rw [sign_stamp_eq, body_eq_units, units_withSeals, seals_unsealed, Tlv.encodeAll_append]
  rfl

theorem length_stamp_sign (m : Message) (key : Option Bytes) (stamped : Bool) :
    headerSize + (m.stamp stamped (m.sign key m.body)).length = m.unsealed.wireSize key stamped := by
  rw [stamp_sign_eq, wireSize_eq]

theorem encode_eq_ok_iff : m.encode key stamped = .ok raw ↔
    m.unsealed.wireSize key stamped ≤ maxMessageSize ∧
      raw = m.header (m.stamp stamped (m.sign key m.body)).length ++ m.stamp stamped (m.sign key m.body) := by
  rw [← length_stamp_sign, encode]
  split
  · next hsize => simp [Nat.not_le.2 hsize]
  · next hsize => simp [Nat.le_of_not_lt hsize, eq_comm]

theorem encode_eq_error_iff {e : PacketError} : m.encode key stamped = .error e ↔
    e = .invalidInput ∧ maxMessageSize < m.unsealed.wireSize key stamped := by
  rw [← length_stamp_sign, encode]
  split
  · next hsize => simp [hsize, eq_comm]
  · next hsize => simp [hsize]

theorem length_sign (m : Message) (key : Option Bytes) (body : Bytes) :
    (m.sign key body).length = body.length + if key.isSome then 24 else 0 := by
  cases key <;>
    simp [sign, Attribute.encode, AttributeValue.encode, integrityOf, Hmac.length_sha1, zeros, padding]

theorem length_stamp (m : Message) (stamped : Bool) (body : Bytes) :
    (m.stamp stamped body).length = body.length + if stamped then 8 else 0 := by
  cases stamped <;> simp [stamp, Attribute.encode, AttributeValue.encode, fingerprintOf, zeros, padding]

theorem intact_units {transaction : TransactionId} {attributes : List Attribute}
    (h : (Tlv.encodeAll (attributes.map (·.unit transaction))).length < 65536) :
    ∀ tlv ∈ attributes.map (·.unit transaction), tlv.Intact := by
  intro tlv htlv
  have hle := Tlv.length_le_encodeAll htlv
  obtain ⟨a, -, rfl⟩ := List.mem_map.1 htlv
  exact Attribute.intact_unit (by omega)

/-- The bytes are framed as a message with the attributes of `m`, stored seals apart, and behind them the
seals that were asked for. No length that is written or hashed loses a digit. -/
structure Framed (m : Message) (key : Option Bytes) (stamped : Bool) (raw : Bytes) : Prop where
  opens : Opens raw
  length_mod : raw.length % 4 = 0
  length_eq : headerSize + ofBigEndian ((raw.drop 2).take 2) = raw.length
  walked : Tlv.walk? (raw.drop headerSize) = some (m.unsealed.withSeals key stamped).units
  values_lt : ∀ a ∈ (m.unsealed.withSeals key stamped).attributes,
    (a.value.encode m.transaction).length < 65536
  signed_lt : key.isSome → m.body.length + 4 + integritySize < 65536
  stamped_lt : stamped → (m.sign key m.body).length + 8 < 65536
  written_lt : (m.stamp stamped (m.sign key m.body)).length < 65536

theorem opens_header (m : Message) (length : Nat) (body : Bytes) : Opens (m.header length ++ body) := by
  refine ⟨?_, ?_⟩
  · rw [List.length_append, length_header]
    exact Nat.le_add_right _ _
  · have hwire := m.type.toWire_lt
    simp only [header, u16, bigEndian_two, List.cons_append, List.nil_append, List.head?_cons, Option.mem_some]
    rintro _ rfl
    rw [UInt8.lt_iff_toNat_lt, UInt8.toNat_ofNat']
    exact Nat.lt_of_le_of_lt (Nat.mod_le _ _) (show m.type.toWire.toNat / 256 < 64 by omega)

theorem framed_of_encode (h : m.encode key stamped = .ok raw) : m.Framed key stamped raw := by
  obtain ⟨hsize, hraw⟩ := encode_eq_ok_iff.1 h
  rw [← length_stamp_sign, headerSize, maxMessageSize] at hsize
  have hbody : (m.stamp stamped (m.sign key m.body)).length < 65536 := by omega
  have hunits : ∀ tlv ∈ (m.unsealed.withSeals key stamped).units, tlv.Intact := by
    rw [stamp_sign_eq] at hbody
    exact intact_units hbody
  have hlength : raw.length = headerSize + (m.stamp stamped (m.sign key m.body)).length := by
    rw [hraw, List.length_append, length_header]
  refine ⟨?_, ?_, ?_, ?_, ?_, ?_, ?_, hbody⟩
  · rw [hraw]
    exact m.opens_header _ _
  · have hmod := Tlv.length_encodeAll_mod hunits
    rw [← stamp_sign_eq] at hmod
    rw [hlength, headerSize]
    omega
  · have hfield := (m.header_slices (m.stamp stamped (m.sign key m.body)).length
      (m.stamp stamped (m.sign key m.body))).2.1
    rw [hlength, hraw, hfield, u16, ofBigEndian_bigEndian_of_lt hbody]
  · rw [hraw, drop_header, stamp_sign_eq]
    exact Tlv.walk?_encodeAll hunits
  · intro a ha
    exact (hunits _ (List.mem_map_of_mem ha)).value_lt
  · intro hkey
    rw [length_stamp, length_sign, if_pos hkey] at hbody
    rw [integritySize]
    omega
  · intro hstamped
    rwa [length_stamp, if_pos hstamped] at hbody

theorem integrityCover_eq (m : Message) (length : Nat) (rest : Bytes) :
    integrityCover (m.header length ++ (m.body ++ rest)) (headerSize + m.body.length) =
      m.header (m.body.length + 4 + integritySize) ++ m.body := by
  have hfront : (m.header length ++ (m.body ++ rest)).take (headerSize + m.body.length) =
      m.header length ++ m.body := by
    rw [← List.append_assoc]
    exact List.take_left' (by rw [List.length_append, length_header])
  have hend : headerSize + m.body.length + 4 + integritySize - headerSize =
      m.body.length + 4 + integritySize := by omega
  rw [integrityCover, (m.header_slices length _).1, hfront, hend, header, header]
  simp only [List.append_assoc]
  rw [← List.append_assoc (u16 _) (u16 length), List.drop_left' (show (u16 _ ++ u16 _).length = 4 from rfl)]

theorem firstUnit_of_encode {secret : Bytes} (h : m.encode (some secret) stamped = .ok raw)
    (hother : ∀ a ∈ m.attributes, a.type ≠ .other 8) :
    FirstUnit AttributeType.messageIntegrity.code raw (headerSize + m.body.length)
      ((m.integritySeal secret).unit m.transaction) := by
  obtain ⟨hbody, hintact⟩ := Tlv.walk?_eq_some_iff.1 (framed_of_encode h).walked
  obtain ⟨rest, hunits⟩ := m.unsealed.units_signed secret stamped
  rw [hunits, integritySeal_unsealed] at hbody hintact
  obtain ⟨hfront, hback⟩ := List.forall_mem_append.1 hintact
  refine ⟨m.unsealed.units, Tlv.encodeAll rest, ?_, ?_, ?_, hback _ List.mem_cons_self, rfl⟩
  · rw [hbody, Tlv.encodeAll_append, Tlv.encodeAll_cons]
    rfl
  · rw [body_eq_units]
  · intro tlv htlv
    refine ⟨hfront tlv htlv, ?_⟩
    obtain ⟨a, ha, rfl⟩ := List.mem_map.1 htlv
    obtain ⟨hmem, hseal⟩ := List.mem_filter.1 ha
    intro hcode
    obtain htype | htype := AttributeType.code_eq_integrity_iff.1 hcode
    · simp [htype, AttributeType.isSeal] at hseal
    · exact hother a hmem htype

theorem verifyIntegrity_of_encode {secret : Bytes} (h : m.encode (some secret) stamped = .ok raw)
    (hother : ∀ a ∈ m.attributes, a.type ≠ .other 8) (other : Bytes) :
    verifyIntegrity raw other =
      if Hmac.sha1 other (integrityCover raw (headerSize + m.body.length)) =
          Hmac.sha1 secret (integrityCover raw (headerSize + m.body.length)) then .ok ()
      else .error .integrityFailed := by
  have hfirst := firstUnit_of_encode h hother
  have hlength : ((m.integritySeal secret).unit m.transaction).value.length = integritySize :=
    Hmac.length_sha1 _ _
  have hcover : integrityCover raw (headerSize + m.body.length) =
      m.header (m.body.length + 4 + integritySize) ++ m.body := by
    rw [(encode_eq_ok_iff.1 h).2, sign_stamp_eq, integrityCover_eq]
  rw [hfirst.verifyIntegrity_eq hlength, hcover]
  rfl

theorem encode_framed (m : Message) (key : Option Bytes) (stamped : Bool) :
    ((∃ e, m.encode key stamped = .error e) ↔ 65536 < m.unsealed.wireSize key stamped) ∧
    ∀ raw, m.encode key stamped = .ok raw → m.Framed key stamped raw ∧
      ∀ secret, key = some secret → (∀ a ∈ m.attributes, a.type ≠ .other 0x0008) →
        ∃ position, findAttribute raw AttributeType.messageIntegrity.code = some position ∧
          verifyIntegrity raw secret = .ok () ∧ ∀ other, verifyIntegrity raw other = .ok () ↔
            Hmac.sha1 other (integrityCover raw position) = Hmac.sha1 secret (integrityCover raw position) := by
  constructor
  · simp only [encode_eq_error_iff, exists_eq_left, maxMessageSize]
  · intro raw h
    refine ⟨framed_of_encode h, ?_⟩
    rintro secret rfl hother
    have hverify := verifyIntegrity_of_encode h hother
    refine ⟨_, (firstUnit_of_encode h hother).find, by rw [hverify, if_pos rfl], fun other => ?_⟩
    rw [hverify]
    split
    · next hsame => simp [hsame]
    · next hdiffers => simp [hdiffers]

end Message

namespace Sample

/-- A message that is not read back: its method has more than twelve bits, its values are of other types, and
it stores a hash that is none. -/
def oddity : Message :=
  ⟨⟨.unknown 0xFFFF, .indication⟩, 7, [⟨.lifetime, .raw [1, 2, 3, 4, 5]⟩, ⟨.messageIntegrity, .raw [9]⟩,
    ⟨.other 0x0006, .errorCode 999 "A"⟩]⟩

def oddityBytes : Bytes := (oddity.encode (some [1, 2]) true).toOption.getD []

end Sample

theorem encode_framed_sample :
    Sample.oddity.encode (some [1, 2]) true = .ok Sample.oddityBytes ∧
      (∀ a ∈ Sample.oddity.attributes, a.type ≠ .other 0x0008) ∧
      Sample.oddity.Framed (some [1, 2]) true Sample.oddityBytes ∧
      verifyIntegrity Sample.oddityBytes [1, 2] = .ok () := by
  have hencode : Sample.oddity.encode (some [1, 2]) true = .ok Sample.oddityBytes :=
    Sample.eq_ok_of_toOption (by decide +kernel)
  have hother : ∀ a ∈ Sample.oddity.attributes, a.type ≠ .other 0x0008 := by decide
  obtain ⟨hframed, hverify⟩ := (Message.encode_framed Sample.oddity (some [1, 2]) true).2 _ hencode
  obtain ⟨_, -, hok, -⟩ := hverify [1, 2] rfl hother
  exact ⟨hencode, hother, hframed, hok⟩

end TurnRelay
