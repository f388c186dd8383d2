import TurnRelay.Message.Tlv

namespace TurnRelay

theorem bind_eq_ok {α β : Type} {f : α → Except PacketError β} {x : Except PacketError α} {b : β}
    (h : x >>= f = .ok b) : ∃ a, x = .ok a ∧ f a = .ok b := by
  cases x with
  | error e => cases h
  | ok a => exact ⟨a, rfl, h⟩

theorem map_eq_ok {α β : Type} {f : α → β} {x : Except PacketError α} {b : β} (h : f <$> x = .ok b) :
    ∃ a, x = .ok a ∧ f a = b := by
  cases x with
  | error e => cases h
  | ok a => exact ⟨a, rfl, Except.ok.inj h⟩

variable {transaction : TransactionId} {type : AttributeType} {value : AttributeValue} {data : Bytes}

namespace AttributeType

theorem ofCode_eq_iff (h : ofCode type.code = type) {code : UInt16} :
    ofCode code = type ↔ code = type.code := by
  constructor
  · rintro rfl
    rw [code_ofCode]
  · rintro rfl
    exact h

def IsRaw : AttributeType → Prop
  | .messageIntegrity | .data | .evenPort | .dontFragment | .reservationToken | .fingerprint
  | .other _ => True
  | _ => False

inductive Holds : AttributeType → AttributeValue → Prop
  | mappedAddress (address : TransportAddress) : Holds mappedAddress (.mappedAddress address)
  | responseOrigin (address : TransportAddress) : Holds responseOrigin (.responseOrigin address)
  | xorMappedAddress (address : TransportAddress) : Holds xorMappedAddress (.xorMappedAddress address)
  | xorPeerAddress (address : TransportAddress) : Holds xorPeerAddress (.xorPeerAddress address)
  | xorRelayedAddress (address : TransportAddress) : Holds xorRelayedAddress (.xorRelayedAddress address)
  | username (text : String) : Holds username (.username text)
  | realm (text : String) : Holds realm (.realm text)
  | nonce (text : String) : Holds nonce (.nonce text)
  | software (text : String) : Holds software (.software text)
  | errorCode (code : UInt16) (reason : String) : Holds errorCode (.errorCode code reason)
  | unknownAttributes (codes : List UInt16) : Holds unknownAttributes (.unknownAttributes codes)
  | channelNumber (number : UInt16) : Holds channelNumber (.channelNumber number)
  | lifetime (seconds : UInt32) : Holds lifetime (.lifetime seconds)
  | requestedTransport (protocol : UInt8) : Holds requestedTransport (.requestedTransport protocol)
  | requestedAddressFamily (family : UInt8) :
      Holds requestedAddressFamily (.requestedAddressFamily family)
  | raw {type : AttributeType} (h : type.IsRaw) (bytes : Bytes) : Holds type (.raw bytes)

end AttributeType

namespace AttributeValue

theorem text_eq_ok {form : String → AttributeValue} (h : text form data = .ok value) :
    ∃ t, Utf8.decode? data = some t ∧ form t = value := by
  unfold text at h
  cases hdecode : Utf8.decode? data with
  | none => rw [hdecode] at h; cases h
  | some t => rw [hdecode] at h; exact ⟨t, rfl, Except.ok.inj h⟩

theorem sized_eq_ok {size : Nat} {form : Bytes → AttributeValue} (h : sized size form data = .ok value) :
    data.length = size ∧ form data = value := by
  unfold sized at h
  split at h
  · next hsize => exact ⟨hsize, Except.ok.inj h⟩
  · cases h

theorem sized_of_length {size : Nat} (h : data.length = size) (form : Bytes → AttributeValue) :
    sized size form data = .ok (form data) := if_pos h

theorem decodeErrorCode_eq_ok (h : decodeErrorCode data = .ok value) :
    ∃ code reason, errorCode code reason = value := by
  unfold decodeErrorCode at h
  split at h
  · obtain ⟨reason, -, rfl⟩ := text_eq_ok h
    exact ⟨_, reason, rfl⟩
  · cases h

theorem holds_of_decode (h : decode transaction type data = .ok value) : type.Holds value := by
  cases type with
  | mappedAddress | responseOrigin | xorMappedAddress | xorPeerAddress | xorRelayedAddress
  | unknownAttributes =>
    obtain ⟨read, -, rfl⟩ := map_eq_ok h
    constructor
  | username | realm | nonce | software =>
    rw [decode] at h
    obtain ⟨read, -, rfl⟩ := text_eq_ok h
    constructor
  | errorCode =>
    obtain ⟨code, reason, rfl⟩ := decodeErrorCode_eq_ok h
    constructor
  | channelNumber | lifetime | requestedTransport | requestedAddressFamily =>
    rw [decode] at h
    obtain ⟨-, rfl⟩ := sized_eq_ok h
    constructor
  | messageIntegrity | fingerprint =>
    rw [decode] at h
    obtain ⟨-, rfl⟩ := sized_eq_ok h
    exact .raw (by trivial) _
  | data | evenPort | dontFragment | reservationToken | other =>
    obtain rfl := Except.ok.inj h
    exact .raw (by trivial) _

/-- The values of which writing keeps all: no flow label, no scope, and an error code whose hundreds fit
into three bits. -/
def Writable : AttributeValue → Prop
  | mappedAddress address | xorMappedAddress address | xorPeerAddress address
  | xorRelayedAddress address | responseOrigin address => address.IsBare
  | errorCode code _ => code ≤ 799
  | _ => True

theorem text_encode (form : String → AttributeValue) (t : String) :
    text form (Utf8.encode t) = .ok (form t) := by
  simp only [text, Utf8.decode?_encode]

theorem codes_encode (list : List UInt16) :
    codes (list.flatMap fun code => u16 code.toNat) = .ok list := by
  induction list with
  | nil => rfl
  | cons code list ih =>
    rw [List.flatMap_cons, u16, bigEndian_two, List.cons_append, List.cons_append, List.nil_append, codes,
      ih, ofBigEndian_pair code.toNat_lt, UInt16.ofNat_toNat]
    rfl

theorem decodeErrorCode_encode (transaction : TransactionId) {code : UInt16} (h : code ≤ 799)
    (reason : String) :
    decodeErrorCode ((errorCode code reason).encode transaction) = .ok (errorCode code reason) := by
  have hcode : code.toNat ≤ 799 := h
  have hdigits : code.toNat / 100 % 256 % 8 * 100 + code.toNat % 100 % 256 = code.toNat := by omega
  simp only [encode, decodeErrorCode, text_encode, UInt8.toNat_ofNat', hdigits, UInt16.ofNat_toNat]

theorem decode_encode (hholds : type.Holds value) (hwritable : value.Writable) (hseal : ¬ type.isSeal) :
    decode transaction type (value.encode transaction) = .ok value := by
  cases hholds with
  | mappedAddress | responseOrigin | xorMappedAddress | xorPeerAddress | xorRelayedAddress =>
    simp only [decode, encode, AddressMask.decode_encode _ hwritable]
    rfl
  | username | realm | nonce | software => exact text_encode _ _
  | errorCode code reason => exact decodeErrorCode_encode transaction hwritable reason
  | unknownAttributes codes =>
    simp only [decode, encode, codes_encode]
    rfl
  | channelNumber number =>
    have hnumber := ofBigEndian_pair number.toNat_lt
    simp only [decode, encode, sized, u16, bigEndian_two, List.cons_append, List.nil_append,
      List.length_cons, List.length_nil, if_true, List.take_succ_cons, List.take_zero, hnumber,
      UInt16.ofNat_toNat]
  | lifetime seconds =>
    have hseconds := ofBigEndian_bigEndian_of_lt (show seconds.toNat < Nat.pow 256 4 from seconds.toNat_lt)
    simp only [decode, encode, sized, length_bigEndian, if_true, hseconds, UInt32.ofNat_toNat]
  | requestedTransport | requestedAddressFamily => rfl
  | raw hraw bytes =>
    cases type with
    | messageIntegrity | fingerprint => exact absurd rfl hseal
    | data | evenPort | dontFragment | reservationToken | other => rfl
    | _ => cases hraw

end AttributeValue

end TurnRelay
