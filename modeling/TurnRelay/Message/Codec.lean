import TurnRelay.Hash
import TurnRelay.Message.Basic
import TurnRelay.Message.Tlv

namespace TurnRelay

def headerSize : Nat := 20

def maxMessageSize : Nat := 65536

def fingerprintMask : BitVec 32 := 0x5354554E

def fingerprint (covered : Bytes) : BitVec 32 := Crc32.checksum covered ^^^ fingerprintMask

namespace Message

def header (m : Message) (length : Nat) : Bytes :=
  u16 m.type.toWire.toNat ++ u16 length ++ bigEndian 4 magicCookie.toNat ++
    bigEndian 12 m.transaction.toNat

def body (m : Message) : Bytes :=
  (m.attributes.filter (!·.type.isSeal)).flatMap (·.encode m.transaction)

/-- The hash over a body, as if the message ended right after it. -/
def integrityOf (m : Message) (key body : Bytes) : Bytes :=
  Hmac.sha1 key (m.header (body.length + 4 + integritySize) ++ body)

def fingerprintOf (m : Message) (body : Bytes) : Bytes :=
  bigEndian 4 (fingerprint (m.header (body.length + 8) ++ body)).toNat

def sign (m : Message) (key : Option Bytes) (body : Bytes) : Bytes :=
  match key with
  | none => body
  | some key => body ++ Attribute.encode m.transaction ⟨.messageIntegrity, .raw (m.integrityOf key body)⟩

def stamp (m : Message) (stamped : Bool) (body : Bytes) : Bytes :=
  if stamped then body ++ Attribute.encode m.transaction ⟨.fingerprint, .raw (m.fingerprintOf body)⟩
  else body

def encode (m : Message) (key : Option Bytes) (stamped : Bool) : Except PacketError Bytes :=
  let body := m.stamp stamped (m.sign key m.body)
  if maxMessageSize < headerSize + body.length then .error .invalidInput
  else .ok (m.header body.length ++ body)

def before (raw rest : Bytes) : Bytes := raw.take (raw.length - rest.length)

/-- A fingerprint ends the message; behind an integrity attribute all else is checked and dropped. -/
def decodeAttributes (transaction : TransactionId) (raw : Bytes) (signed : Bool) (rest : Bytes) :
    Except PacketError (List Attribute) :=
  if rest.isEmpty then .ok []
  else
    match _h : Tlv.next? rest with
    | none => .error .invalidInput
    | some (tlv, after) => do
      let a ← Attribute.decode transaction (.ofCode tlv.code) tlv.value
      if a.type = .fingerprint then
        if !after.isEmpty then .error .invalidInput
        else if fingerprint (before raw rest) = .ofNat 32 (ofBigEndian tlv.value) then .ok [a]
        else .error .integrityFailed
      else if signed then decodeAttributes transaction raw true after
      else return a :: (← decodeAttributes transaction raw (a.type = .messageIntegrity) after)
termination_by rest.length
decreasing_by all_goals exact Tlv.length_of_next? (by assumption)

def decode (raw : Bytes) : Except PacketError Message :=
  let type := ofBigEndian (raw.take 2)
  let length := ofBigEndian ((raw.drop 2).take 2)
  let cookie := ofBigEndian ((raw.drop 4).take 4)
  let transaction : TransactionId := .ofNat 96 (ofBigEndian ((raw.drop 8).take 12))
  let body := raw.drop headerSize
  if raw.length < headerSize ∨ 0x4000 ≤ type then .error .invalidInput
  else if cookie ≠ magicCookie.toNat then .error .cookieMismatch
  else if length % 4 ≠ 0 ∨ body.length ≠ length then .error .invalidInput
  else return ⟨.ofWire (.ofNat type), transaction, ← decodeAttributes transaction raw false body⟩

end Message

def findAttributeFrom (code : UInt16) (position : Nat) (rest : Bytes) : Option Nat :=
  match rest with
  | c₁ :: c₀ :: l₁ :: l₀ :: rest =>
    if ofBigEndian [c₁, c₀] = code.toNat then some position
    else
      let length := ofBigEndian [l₁, l₀]
      let size := length + padding length
      findAttributeFrom code (position + 4 + size) (rest.drop size)
  | _ => none
termination_by rest.length
decreasing_by simp only [List.length_drop, List.length_cons]; omega

def findAttribute (raw : Bytes) (code : UInt16) : Option Nat :=
  findAttributeFrom code headerSize (raw.drop headerSize)

/-- The bytes before `position`, in a message that ends right after an integrity attribute there. -/
def integrityCover (raw : Bytes) (position : Nat) : Bytes :=
  raw.take 2 ++ u16 (position + 4 + integritySize - headerSize) ++ (raw.take position).drop 4

def verifyIntegrity (raw key : Bytes) : Except PacketError Unit :=
  match findAttribute raw AttributeType.messageIntegrity.code with
  | none => .error .integrityMissing
  | some position =>
    let stop := position + 4 + integritySize
    if raw.length < stop then .error .invalidInput
    else if Hmac.sha1 key (integrityCover raw position) =
        (raw.drop (position + 4)).take integritySize then .ok ()
    else .error .integrityFailed

end TurnRelay
