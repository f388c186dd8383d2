import TurnRelay.Address
import TurnRelay.Bytes

/-!
Attribute types and values. `AttributeType.other` holds any number, also one that a named type has;
the two then share their code and are still different types.
-/

namespace TurnRelay

inductive AttributeType
  | mappedAddress
  | username
  | messageIntegrity
  | errorCode
  | unknownAttributes
  | channelNumber
  | lifetime
  | xorPeerAddress
  | data
  | realm
  | nonce
  | xorRelayedAddress
  | requestedAddressFamily
  | evenPort
  | requestedTransport
  | dontFragment
  | xorMappedAddress
  | reservationToken
  | software
  | fingerprint
  | responseOrigin
  | other (code : UInt16)
  deriving DecidableEq

namespace AttributeType

def code : AttributeType → UInt16
  | mappedAddress => 0x0001
  | username => 0x0006
  | messageIntegrity => 0x0008
  | errorCode => 0x0009
  | unknownAttributes => 0x000A
  | channelNumber => 0x000C
  | lifetime => 0x000D
  | xorPeerAddress => 0x0012
  | data => 0x0013
  | realm => 0x0014
  | nonce => 0x0015
  | xorRelayedAddress => 0x0016
  | requestedAddressFamily => 0x0017
  | evenPort => 0x0018
  | requestedTransport => 0x0019
  | dontFragment => 0x001A
  | xorMappedAddress => 0x0020
  | reservationToken => 0x0022
  | software => 0x8022
  | fingerprint => 0x8028
  | responseOrigin => 0x802B
  | other code => code

def ofCode : UInt16 → AttributeType
  | 0x0001 => mappedAddress
  | 0x0006 => username
  | 0x0008 => messageIntegrity
  | 0x0009 => errorCode
  | 0x000A => unknownAttributes
  | 0x000C => channelNumber
  | 0x000D => lifetime
  | 0x0012 => xorPeerAddress
  | 0x0013 => data
  | 0x0014 => realm
  | 0x0015 => nonce
  | 0x0016 => xorRelayedAddress
  | 0x0017 => requestedAddressFamily
  | 0x0018 => evenPort
  | 0x0019 => requestedTransport
  | 0x001A => dontFragment
  | 0x0020 => xorMappedAddress
  | 0x0022 => reservationToken
  | 0x8022 => software
  | 0x8028 => fingerprint
  | 0x802B => responseOrigin
  | code => other code

@[simp] theorem code_ofCode (code : UInt16) : (ofCode code).code = code := by
  unfold ofCode
  split <;> rfl

def isComprehensionRequired (type : AttributeType) : Bool := type.code < 0x8000

/-- The two types that are computed over the rest of the message and never carried along. -/
def isSeal (type : AttributeType) : Bool := type = messageIntegrity || type = fingerprint

end AttributeType

inductive AttributeValue
  | mappedAddress (address : TransportAddress)
  | xorMappedAddress (address : TransportAddress)
  | xorPeerAddress (address : TransportAddress)
  | xorRelayedAddress (address : TransportAddress)
  | responseOrigin (address : TransportAddress)
  | username (text : String)
  | realm (text : String)
  | nonce (text : String)
  | software (text : String)
  | errorCode (code : UInt16) (reason : String)
  | unknownAttributes (codes : List UInt16)
  | channelNumber (number : UInt16)
  | lifetime (seconds : UInt32)
  | requestedTransport (protocol : UInt8)
  | requestedAddressFamily (family : UInt8)
  | raw (bytes : Bytes)
  deriving DecidableEq

/-- The type and the form of the value are independent. -/
structure Attribute where
  type : AttributeType
  value : AttributeValue
  deriving DecidableEq

end TurnRelay
