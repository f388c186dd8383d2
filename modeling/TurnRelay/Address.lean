import TurnRelay.Bytes
import TurnRelay.Error

namespace TurnRelay

inductive IpAddress
  | v4 (bits : BitVec 32)
  | v6 (bits : BitVec 128)
  deriving DecidableEq

def IpAddress.family : IpAddress → UInt8
  | .v4 _ => 1
  | .v6 _ => 2

/-- An IP address with a port. Flow label and scope take part in equality but not in the wire form. -/
inductive TransportAddress
  | v4 (bits : BitVec 32) (port : UInt16)
  | v6 (bits : BitVec 128) (port : UInt16) (flow scope : UInt32)
  deriving DecidableEq

def TransportAddress.ip : TransportAddress → IpAddress
  | .v4 bits _ => .v4 bits
  | .v6 bits .. => .v6 bits

def TransportAddress.port : TransportAddress → UInt16
  | .v4 _ port => port
  | .v6 _ port .. => port

def IpAddress.withPort (port : UInt16) : IpAddress → TransportAddress
  | .v4 bits => .v4 bits port
  | .v6 bits => .v6 bits port 0 0

@[simp] theorem IpAddress.ip_withPort (ip : IpAddress) (port : UInt16) :
    (ip.withPort port).ip = ip := by
  cases ip <;> rfl

@[simp] theorem IpAddress.port_withPort (ip : IpAddress) (port : UInt16) :
    (ip.withPort port).port = port := by
  cases ip <;> rfl

abbrev TransactionId := BitVec 96

def magicCookie : BitVec 32 := 0x2112A442

def TransportAddress.IsBare : TransportAddress → Prop
  | .v4 .. => True
  | .v6 _ _ flow scope => flow = 0 ∧ scope = 0

structure AddressMask where
  port : UInt16
  v4 : BitVec 32
  v6 : BitVec 128

namespace AddressMask

def plain : AddressMask := ⟨0, 0, 0⟩

/-- The mask of the XOR-ed attributes: the cookie, followed by the transaction id where it is too short. -/
def xor (transaction : TransactionId) : AddressMask :=
  ⟨0x2112, magicCookie, magicCookie ++ transaction⟩

def encode (mask : AddressMask) : TransportAddress → Bytes
  | .v4 bits port =>
    0 :: 1 :: (bigEndian 2 (port ^^^ mask.port).toNat ++ bigEndian 4 (bits ^^^ mask.v4).toNat)
  | .v6 bits port .. =>
    0 :: 2 :: (bigEndian 2 (port ^^^ mask.port).toNat ++ bigEndian 16 (bits ^^^ mask.v6).toNat)

def decode (mask : AddressMask) : Bytes → Except PacketError TransportAddress
  | _ :: family :: high :: low :: ip =>
    let port := .ofNat (ofBigEndian [high, low]) ^^^ mask.port
    if family = 1 then
      if ip.length = 4 then .ok (.v4 (.ofNat 32 (ofBigEndian ip) ^^^ mask.v4) port)
      else .error .invalidInput
    else if family = 2 then
      if ip.length = 16 then .ok (.v6 (.ofNat 128 (ofBigEndian ip) ^^^ mask.v6) port 0 0)
      else .error .invalidInput
    else .error .unsupportedFamily
  | _ => .error .invalidInput

theorem decode_encode (mask : AddressMask) {address : TransportAddress} (h : address.IsBare) :
    mask.decode (mask.encode address) = .ok address := by
  have hport (port : UInt16) := ofBigEndian_pair port.toNat_lt
  cases address with
  | v4 bits port =>
    have hbits : ofBigEndian (bigEndian 4 (bits ^^^ mask.v4).toNat) = (bits ^^^ mask.v4).toNat :=
      ofBigEndian_bigEndian_of_lt (bits ^^^ mask.v4).isLt
    simp only [encode, bigEndian_two, List.cons_append, List.nil_append, decode, hport, hbits,
      length_bigEndian, if_true]
    simp only [BitVec.ofNat_toNat, BitVec.setWidth_eq, BitVec.xor_assoc, BitVec.xor_self, BitVec.xor_zero,
      UInt16.ofNat_toNat, UInt16.xor_assoc, UInt16.xor_self, UInt16.xor_zero]
  | v6 bits port =>
    obtain ⟨rfl, rfl⟩ := h
    have hbits : ofBigEndian (bigEndian 16 (bits ^^^ mask.v6).toNat) = (bits ^^^ mask.v6).toNat :=
      ofBigEndian_bigEndian_of_lt (bits ^^^ mask.v6).isLt
    simp only [encode, bigEndian_two, List.cons_append, List.nil_append, decode, hport, hbits,
      length_bigEndian, if_true]
    simp only [BitVec.ofNat_toNat, BitVec.setWidth_eq, BitVec.xor_assoc, BitVec.xor_self, BitVec.xor_zero,
      UInt16.ofNat_toNat, UInt16.xor_assoc, UInt16.xor_self, UInt16.xor_zero]
    exact if_neg (by decide)

end AddressMask

end TurnRelay
