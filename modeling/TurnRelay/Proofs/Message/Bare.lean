import TurnRelay.Endpoint.Exchange
import TurnRelay.Proofs.Message.Packet
import TurnRelay.Proofs.Message.RoundTrip

namespace TurnRelay

namespace TransportAddress

def bare : TransportAddress → TransportAddress
  | v4 bits port => v4 bits port
  | v6 bits port _ _ => v6 bits port 0 0

theorem isBare_bare (address : TransportAddress) : address.bare.IsBare := by
  cases address with
  | v4 bits port => trivial
  | v6 bits port flow scope => exact ⟨rfl, rfl⟩

theorem isBare_of_bare {address : TransportAddress} (h : address.bare = address) : address.IsBare :=
  h ▸ address.isBare_bare

end TransportAddress

namespace AddressMask

variable (mask : AddressMask) (address : TransportAddress)

@[simp] theorem encode_bare : mask.encode address.bare = mask.encode address := by
  cases address <;> rfl

theorem length_encode_le : (mask.encode address).length ≤ 20 := by
  cases address <;> simp [encode]

end AddressMask

namespace AttributeValue

def bare : AttributeValue → AttributeValue
  | mappedAddress address => mappedAddress address.bare
  | xorMappedAddress address => xorMappedAddress address.bare
  | xorPeerAddress address => xorPeerAddress address.bare
  | xorRelayedAddress address => xorRelayedAddress address.bare
  | responseOrigin address => responseOrigin address.bare
  | value => value

@[simp] theorem encode_bare (transaction : TransactionId) (value : AttributeValue) :
    value.bare.encode transaction = value.encode transaction := by
  cases value <;> simp [bare, encode]

end AttributeValue

namespace Attribute

def bare (a : Attribute) : Attribute := { a with value := a.value.bare }

variable (transaction : TransactionId)

@[simp] theorem type_bare (a : Attribute) : a.bare.type = a.type := rfl

@[simp] theorem encode_bare (a : Attribute) : a.bare.encode transaction = a.encode transaction := by
  simp [bare, encode]

@[simp] theorem wireSize_bare (a : Attribute) : a.bare.wireSize transaction = a.wireSize transaction := by
  simp [bare, wireSize]

theorem totalSize_map_bare (attributes : List Attribute) :
    totalSize transaction (attributes.map bare) = totalSize transaction attributes := by
  induction attributes with
  | nil => rfl
  | cons a attributes ih => rw [List.map_cons, totalSize, totalSize, ih, wireSize_bare]

theorem totalSize_append (front back : List Attribute) :
    totalSize transaction (front ++ back) = totalSize transaction front + totalSize transaction back := by
  induction front with
  | nil => simp [totalSize]
  | cons a front ih => rw [List.cons_append, totalSize, totalSize, ih, Nat.add_assoc]

end Attribute

namespace Message

def bare (m : Message) : Message := { m with attributes := m.attributes.map Attribute.bare }

variable {m : Message} {key : Option Bytes} {stamped : Bool} {raw : Bytes}

@[simp] theorem body_bare (m : Message) : m.bare.body = m.body := by
  simp [bare, body, List.filter_map, Function.comp_def, List.flatMap_map]

theorem encode_bare (m : Message) (key : Option Bytes) (stamped : Bool) :
    m.bare.encode key stamped = m.encode key stamped := by
  have hsign (body : Bytes) : m.bare.sign key body = m.sign key body := by cases key <;> rfl
  rw [encode, encode, body_bare, hsign]
  rfl

theorem wireSize_bare (m : Message) (key : Option Bytes) (stamped : Bool) :
    m.bare.wireSize key stamped = m.wireSize key stamped := by
  simp only [wireSize, bare, Attribute.totalSize_map_bare]

theorem Faithful.encode_eq (h : m.Faithful) (hsize : m.wireSize key stamped ≤ maxMessageSize) :
    m.encode key stamped = .ok (m.header (m.stamp stamped (m.sign key m.body)).length ++
      m.stamp stamped (m.sign key m.body)) := by
  rw [wireSize_eq, ← h.sealed_eq] at hsize
  simp only [encode, if_neg (Nat.not_lt.2 hsize)]

theorem exists_encode (h : m.bare.Faithful) (hsize : m.wireSize key stamped ≤ maxMessageSize) :
    ∃ raw, m.encode key stamped = .ok raw ∧ decode raw = .ok (m.bare.withSeals key stamped) := by
  rw [← wireSize_bare] at hsize
  exact ⟨_, (encode_bare m key stamped).symm.trans (h.encode_eq hsize), (h.layout hsize rfl).decode_eq⟩

/-- The bytes end with the checksum over all that stands before it. -/
def Fingerprinted (raw : Bytes) : Prop :=
  ∃ covered, raw = covered ++
    Tlv.encode ⟨AttributeType.fingerprint.code, bigEndian 4 (fingerprint covered).toNat, []⟩

theorem fingerprinted_of_encode (h : m.encode key true = .ok raw) : Fingerprinted raw := by
  simp only [encode, stamp, if_true] at h
  split at h
  · cases h
  · cases h
    refine ⟨m.header ((m.sign key m.body).length + 8) ++ m.sign key m.body, ?_⟩
    simp [Attribute.encode, AttributeValue.encode, Tlv.encode, fingerprintOf, zeros, padding]

theorem size_le_of_encode (h : m.bare.Faithful) (hencode : m.encode key stamped = .ok raw) :
    m.wireSize key stamped ≤ maxMessageSize := by
  rw [← encode_bare, encode] at hencode
  split at hencode
  · cases hencode
  · next hsize =>
    rw [h.sealed_eq, ← wireSize_eq, wireSize_bare] at hsize
    exact Nat.le_of_not_lt hsize

end Message

namespace Message

def carrying (method : Method) (transaction : TransactionId) (peer : TransportAddress)
    (payload : Bytes) : Message :=
  ⟨⟨method, .indication⟩, transaction,
    [⟨.xorPeerAddress, .xorPeerAddress peer⟩, ⟨.data, .raw payload⟩]⟩

def carryingSize (peer : TransportAddress) (payload : Bytes) : Nat :=
  let address := match peer with
    | .v4 .. => 8
    | .v6 .. => 20
  headerSize + (4 + address) + (4 + payload.length + padding payload.length)

variable {method : Method} {transaction : TransactionId} {peer : TransportAddress} {payload : Bytes}

theorem wireSize_carrying (method : Method) (transaction : TransactionId) (peer : TransportAddress)
    (payload : Bytes) :
    (carrying method transaction peer payload).wireSize none false = carryingSize peer payload := by
  cases peer <;>
    simp [carrying, carryingSize, wireSize, Attribute.totalSize, Attribute.wireSize,
      AttributeValue.encode, AddressMask.encode, padding, Nat.add_assoc]

theorem faithful_carrying (hmethod : ∃ code ≤ 0x0FFF, method = .ofCode code) :
    (carrying method transaction peer payload).bare.Faithful where
  method := hmethod
  attributes := by
    simp only [carrying, bare, List.map_cons, List.map_nil, List.mem_cons, List.not_mem_nil, or_false]
    rintro a (rfl | rfl)
    · exact ⟨rfl, Bool.false_ne_true, .xorPeerAddress _, peer.isBare_bare⟩
    · exact ⟨rfl, Bool.false_ne_true, .raw (by trivial) payload, trivial⟩

theorem exists_encode_carrying (hmethod : ∃ code ≤ 0x0FFF, method = .ofCode code)
    (hsize : carryingSize peer payload ≤ 65536) :
    ∃ raw, (carrying method transaction peer payload).encode none false = .ok raw ∧
      decode raw = .ok (carrying method transaction peer.bare payload) := by
  rw [← wireSize_carrying method transaction] at hsize
  exact exists_encode (faithful_carrying hmethod) hsize

theorem encode_carrying_isOk_iff (hmethod : ∃ code ≤ 0x0FFF, method = .ofCode code) :
    (∃ raw, (carrying method transaction peer payload).encode none false = .ok raw) ↔
      carryingSize peer payload ≤ 65536 := by
  constructor
  · rintro ⟨raw, hencode⟩
    rw [← wireSize_carrying method transaction]
    exact size_le_of_encode (faithful_carrying hmethod) hencode
  · intro hsize
    obtain ⟨raw, hencode, -⟩ := exists_encode_carrying hmethod hsize
    exact ⟨raw, hencode⟩

end Message

end TurnRelay
