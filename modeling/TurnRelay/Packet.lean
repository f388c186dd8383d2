import TurnRelay.Message.Codec

namespace TurnRelay

def minChannel : UInt16 := 0x4000

def maxChannel : UInt16 := 0x7FFF

def isChannelNumber (number : UInt16) : Bool := minChannel ≤ number && number ≤ maxChannel

theorem isChannelNumber_iff {number : UInt16} :
    isChannelNumber number = true ↔ 0x4000 ≤ number ∧ number ≤ 0x7FFF := by
  rw [isChannelNumber, Bool.and_eq_true, decide_eq_true_iff, decide_eq_true_iff]
  exact Iff.rfl

structure ChannelData where
  number : UInt16
  payload : Bytes
  deriving DecidableEq

namespace ChannelData

def decode : Bytes → Except PacketError ChannelData
  | n₁ :: n₀ :: l₁ :: l₀ :: bytes =>
    let number : UInt16 := .ofNat (ofBigEndian [n₁, n₀])
    if isChannelNumber number then
      match take? (ofBigEndian [l₁, l₀]) bytes with
      | some (payload, _) => .ok ⟨number, payload⟩
      | none => .error .invalidInput
    else .error .invalidInput
  | _ => .error .invalidInput

/-- Stream transports ask for padding, which the length field does not count. -/
def encode (frame : ChannelData) (padded : Bool) : Bytes :=
  u16 frame.number.toNat ++ u16 frame.payload.length ++ frame.payload ++
    zeros (if padded then padding frame.payload.length else 0)

end ChannelData

inductive Packet
  | message (m : Message)
  | channelData (frame : ChannelData)
  deriving DecidableEq

def Packet.decode (bytes : Bytes) : Except PacketError Packet :=
  match bytes with
  | [] => .error .invalidInput
  | first :: _ =>
    if first < 0x40 then message <$> Message.decode bytes
    else if first < 0x80 then channelData <$> ChannelData.decode bytes
    else .error .invalidInput

end TurnRelay
