import TurnRelay.Address
import TurnRelay.Message.Attribute
import TurnRelay.Message.Type

namespace TurnRelay

structure Message where
  type : MessageType
  transaction : TransactionId
  attributes : List Attribute
  deriving DecidableEq

namespace Message

def find? (m : Message) (type : AttributeType) : Option AttributeValue :=
  (m.attributes.find? (·.type = type)).map (·.value)

def findAll (m : Message) (type : AttributeType) : List Attribute :=
  m.attributes.filter (·.type = type)

def username? (m : Message) : Option String :=
  match m.find? .username with
  | some (.username name) => some name
  | _ => none

def realm? (m : Message) : Option String :=
  match m.find? .realm with
  | some (.realm realm) => some realm
  | _ => none

def lifetime? (m : Message) : Option UInt32 :=
  match m.find? .lifetime with
  | some (.lifetime seconds) => some seconds
  | _ => none

def channelNumber? (m : Message) : Option UInt16 :=
  match m.find? .channelNumber with
  | some (.channelNumber number) => some number
  | _ => none

def requestedTransport? (m : Message) : Option UInt8 :=
  match m.find? .requestedTransport with
  | some (.requestedTransport protocol) => some protocol
  | _ => none

def requestedFamily? (m : Message) : Option UInt8 :=
  match m.find? .requestedAddressFamily with
  | some (.requestedAddressFamily family) => some family
  | _ => none

def data? (m : Message) : Option Bytes :=
  match m.find? .data with
  | some (.raw bytes) => some bytes
  | _ => none

def peers (m : Message) : List TransportAddress :=
  m.attributes.filterMap fun a =>
    match a.value with
    | .xorPeerAddress peer => some peer
    | _ => none

def hasIntegrity (m : Message) : Bool := (m.find? .messageIntegrity).isSome

end Message

end TurnRelay
