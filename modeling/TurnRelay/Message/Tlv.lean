import TurnRelay.Address
import TurnRelay.Bytes
import TurnRelay.Message.Attribute

namespace TurnRelay

def integritySize : Nat := 20

def u16 (n : Nat) : Bytes := bigEndian 2 n

namespace AttributeValue

def encode (transaction : TransactionId) : AttributeValue → Bytes
  | mappedAddress address | responseOrigin address => AddressMask.plain.encode address
  | xorMappedAddress address | xorPeerAddress address | xorRelayedAddress address =>
    (AddressMask.xor transaction).encode address
  | username text | realm text | nonce text | software text => Utf8.encode text
  | errorCode code reason =>
    0 :: 0 :: .ofNat (code.toNat / 100) :: .ofNat (code.toNat % 100) :: Utf8.encode reason
  | unknownAttributes codes => codes.flatMap fun code => u16 code.toNat
  | channelNumber number => u16 number.toNat ++ [0, 0]
  | lifetime seconds => bigEndian 4 seconds.toNat
  | requestedTransport protocol => [protocol, 0, 0, 0]
  | requestedAddressFamily family => [family, 0, 0, 0]
  | raw bytes => bytes

def text (form : String → AttributeValue) (data : Bytes) : Except PacketError AttributeValue :=
  match Utf8.decode? data with
  | some text => .ok (form text)
  | none => .error .invalidText

def codes : Bytes → Except PacketError (List UInt16)
  | [] => .ok []
  | [_] => .error .invalidInput
  | high :: low :: rest => return .ofNat (ofBigEndian [high, low]) :: (← codes rest)

def sized (size : Nat) (form : Bytes → AttributeValue) (data : Bytes) :
    Except PacketError AttributeValue :=
  if data.length = size then .ok (form data) else .error .invalidInput

/-- Only the low three bits of the class byte of an ERROR-CODE count. -/
def decodeErrorCode : Bytes → Except PacketError AttributeValue
  | _ :: _ :: hundreds :: number :: reason =>
    text (errorCode (.ofNat (hundreds.toNat % 8 * 100 + number.toNat))) reason
  | _ => .error .invalidInput

def decode (transaction : TransactionId) (type : AttributeType) (data : Bytes) :
    Except PacketError AttributeValue :=
  match type with
  | .mappedAddress => mappedAddress <$> AddressMask.plain.decode data
  | .responseOrigin => responseOrigin <$> AddressMask.plain.decode data
  | .xorMappedAddress => xorMappedAddress <$> (AddressMask.xor transaction).decode data
  | .xorPeerAddress => xorPeerAddress <$> (AddressMask.xor transaction).decode data
  | .xorRelayedAddress => xorRelayedAddress <$> (AddressMask.xor transaction).decode data
  | .username => text username data
  | .realm => text realm data
  | .nonce => text nonce data
  | .software => text software data
  | .errorCode => decodeErrorCode data
  | .unknownAttributes => unknownAttributes <$> codes data
  | .channelNumber => sized 4 (fun data => channelNumber (.ofNat (ofBigEndian (data.take 2)))) data
  | .lifetime => sized 4 (fun data => lifetime (.ofNat (ofBigEndian data))) data
  | .requestedTransport => sized 4 (fun data => requestedTransport (data.headD 0)) data
  | .requestedAddressFamily => sized 4 (fun data => requestedAddressFamily (data.headD 0)) data
  | .messageIntegrity => sized integritySize raw data
  | .fingerprint => sized 4 raw data
  | _ => .ok (raw data)

end AttributeValue

namespace Attribute

def encode (transaction : TransactionId) (a : Attribute) : Bytes :=
  let value := a.value.encode transaction
  u16 a.type.code.toNat ++ u16 value.length ++ value ++ zeros (padding value.length)

def decode (transaction : TransactionId) (type : AttributeType) (data : Bytes) :
    Except PacketError Attribute :=
  Attribute.mk type <$> AttributeValue.decode transaction type data

end Attribute

def take? : Nat → Bytes → Option (Bytes × Bytes)
  | 0, bytes => some ([], bytes)
  | _ + 1, [] => none
  | n + 1, b :: bytes => (take? n bytes).map fun (taken, rest) => (b :: taken, rest)

theorem take?_eq_some_iff {n : Nat} {bytes taken rest : Bytes} :
    take? n bytes = some (taken, rest) ↔ bytes = taken ++ rest ∧ taken.length = n := by
  induction n generalizing bytes taken with
  | zero =>
    simp only [take?, Option.some.injEq, Prod.mk.injEq, List.length_eq_zero_iff]
    constructor
    · rintro ⟨rfl, rfl⟩; simp
    · rintro ⟨rfl, rfl⟩; simp
  | succ n ih =>
    cases bytes with
    | nil =>
      simp only [take?, reduceCtorEq, false_iff, not_and]
      intro h
      simp [(List.nil_eq_append_iff.1 h).1]
    | cons b bytes =>
      simp only [take?, Option.map_eq_some_iff, Prod.exists, Prod.mk.injEq]
      constructor
      · rintro ⟨front, back, h, rfl, rfl⟩
        obtain ⟨rfl, rfl⟩ := ih.1 h
        simp
      · rintro ⟨h, hn⟩
        cases taken with
        | nil => simp at hn
        | cons c taken =>
          obtain ⟨rfl, rfl⟩ := List.cons.inj h
          exact ⟨taken, rest, ih.2 ⟨rfl, by simpa using hn⟩, rfl, rfl⟩

structure Tlv where
  code : UInt16
  value : Bytes
  fill : Bytes
  deriving DecidableEq

namespace Tlv

def encode (tlv : Tlv) : Bytes :=
  u16 tlv.code.toNat ++ u16 tlv.value.length ++ tlv.value ++ tlv.fill

def next? : Bytes → Option (Tlv × Bytes)
  | c₁ :: c₀ :: l₁ :: l₀ :: bytes => do
    let length := ofBigEndian [l₁, l₀]
    let (value, bytes) ← take? length bytes
    let (fill, rest) ← take? (padding length) bytes
    return (⟨.ofNat (ofBigEndian [c₁, c₀]), value, fill⟩, rest)
  | _ => none

theorem length_of_next? {bytes rest : Bytes} {tlv : Tlv} (h : next? bytes = some (tlv, rest)) :
    rest.length < bytes.length := by
  unfold next? at h
  split at h
  · simp only [Option.bind_eq_bind, Option.bind_eq_some_iff, Prod.exists, Option.pure_def,
      Option.some.injEq, Prod.mk.injEq] at h
    obtain ⟨value, after, hvalue, fill, rest', hfill, -, rfl⟩ := h
    obtain ⟨rfl, -⟩ := take?_eq_some_iff.1 hvalue
    obtain ⟨rfl, -⟩ := take?_eq_some_iff.1 hfill
    simp only [List.length_cons, List.length_append]
    omega
  · cases h

end Tlv

end TurnRelay
