namespace TurnRelay

inductive Method
  | binding
  | allocate
  | refresh
  | send
  | data
  | createPermission
  | channelBind
  | unknown (code : UInt16)
  deriving DecidableEq

def Method.code : Method → UInt16
  | binding => 0x001
  | allocate => 0x003
  | refresh => 0x004
  | send => 0x006
  | data => 0x007
  | createPermission => 0x008
  | channelBind => 0x009
  | unknown code => code

def Method.ofCode : UInt16 → Method
  | 0x001 => binding
  | 0x003 => allocate
  | 0x004 => refresh
  | 0x006 => send
  | 0x007 => data
  | 0x008 => createPermission
  | 0x009 => channelBind
  | code => unknown code

@[simp] theorem Method.code_ofCode (code : UInt16) : (ofCode code).code = code := by
  unfold ofCode
  split <;> rfl

inductive MessageClass
  | request
  | indication
  | success
  | failure
  deriving DecidableEq

def MessageClass.bits : MessageClass → Nat
  | request => 0
  | indication => 16
  | success => 256
  | failure => 272

def MessageClass.ofBits (low high : Nat) : MessageClass :=
  if high = 0 then (if low = 0 then .request else .indication)
  else if low = 0 then .success
  else .failure

structure MessageType where
  method : Method
  messageClass : MessageClass
  deriving DecidableEq

namespace MessageType

def ofMethodClass? (code : UInt16) (messageClass : MessageClass) : Option MessageType :=
  if 0x0FFF < code then none else some ⟨.ofCode code, messageClass⟩

def ofWire (wire : UInt16) : MessageType :=
  let n := wire.toNat
  let method := n % 16 + n / 32 % 8 * 16 + n / 512 % 32 * 128
  ⟨.ofCode (.ofNat method), .ofBits (n / 16 % 2) (n / 256 % 2)⟩

/-- Bits of the method above the twelfth are lost. -/
def toWire (type : MessageType) : UInt16 :=
  let n := type.method.code.toNat
  .ofNat (n % 16 + n / 16 % 8 * 32 + n / 128 % 32 * 512 + type.messageClass.bits)

theorem toWire_ofWire (wire : UInt16) (h : wire.toNat < 0x4000) : (ofWire wire).toWire = wire := by
  have hbits : ∀ l < 2, ∀ u < 2, (MessageClass.ofBits l u).bits = 16 * l + 256 * u := by decide
  apply UInt16.toNat_inj.1
  simp only [toWire, ofWire, Method.code_ofCode, UInt16.toNat_ofNat']
  rw [hbits _ (Nat.mod_lt _ (by decide)) _ (Nat.mod_lt _ (by decide))]
  generalize wire.toNat = n at h ⊢
  have h32 : n / 32 = n / 16 / 2 := by omega
  have h256 : n / 256 = n / 32 / 8 := by omega
  have h512 : n / 512 = n / 256 / 2 := by omega
  obtain ⟨a, ha⟩ : ∃ a, n % 16 = a := ⟨_, rfl⟩
  obtain ⟨b, hb⟩ : ∃ b, n / 32 % 8 = b := ⟨_, rfl⟩
  obtain ⟨c, hc⟩ : ∃ c, n / 512 % 32 = c := ⟨_, rfl⟩
  have hwire : n = a + n / 16 % 2 * 16 + b * 32 + n / 256 % 2 * 256 + c * 512 := by omega
  rw [ha, hb, hc, Nat.mod_eq_of_lt (show a + b * 16 + c * 128 < 65536 by omega),
    show (a + b * 16 + c * 128) % 16 = a by omega, show (a + b * 16 + c * 128) / 16 % 8 = b by omega,
    show (a + b * 16 + c * 128) / 128 = c by omega, Nat.mod_eq_of_lt (show c < 32 by omega), Nat.mod_eq_of_lt (by omega)]
  omega

theorem toWire_lt (type : MessageType) : type.toWire.toNat < 0x4000 := by
  have hbits : type.messageClass.bits ≤ 272 := by cases type.messageClass <;> decide
  simp only [toWire, UInt16.toNat_ofNat']
  omega

theorem ofWire_toWire {code : UInt16} (h : code ≤ 0x0FFF) (messageClass : MessageClass) :
    ofWire (toWire ⟨.ofCode code, messageClass⟩) = ⟨.ofCode code, messageClass⟩ := by
  have hcode : code.toNat ≤ 4095 := h
  obtain ⟨low, high, hlow, hhigh, hbits, hclass⟩ : ∃ low high, low < 2 ∧ high < 2 ∧
      messageClass.bits = 16 * low + 256 * high ∧ MessageClass.ofBits low high = messageClass := by
    cases messageClass with
    | request => exact ⟨0, 0, by decide⟩
    | indication => exact ⟨1, 0, by decide⟩
    | success => exact ⟨0, 1, by decide⟩
    | failure => exact ⟨1, 1, by decide⟩
  have hback : UInt16.ofNat code.toNat = code := UInt16.ofNat_toNat
  simp only [toWire, ofWire, Method.code_ofCode, UInt16.toNat_ofNat', hbits, mk.injEq]
  generalize code.toNat = n at hcode hback
  -- the digits of the method, and the wire value laid out in them and the class bits
  have hn : n = n % 16 + n / 16 % 8 * 16 + n / 128 % 32 * 128 := by omega
  have ha : n % 16 < 16 := Nat.mod_lt _ (by decide)
  have hb : n / 16 % 8 < 8 := Nat.mod_lt _ (by decide)
  have hc : n / 128 % 32 < 32 := Nat.mod_lt _ (by decide)
  generalize n % 16 = a, n / 16 % 8 = b, n / 128 % 32 = c at *
  generalize hwire : a + b * 32 + c * 512 + (16 * low + 256 * high) = wire
  rw [Nat.mod_eq_of_lt (show wire < 2 ^ 16 by omega)]
  have h16 : wire / 16 = low + 2 * b + 16 * high + 32 * c := by omega
  have h32 : wire / 32 = b + 8 * high + 16 * c := by omega
  have h256 : wire / 256 = high + 2 * c := by omega
  have h512 : wire / 512 = c := by omega
  constructor
  · rw [show wire % 16 = a by omega, show wire / 32 % 8 = b by omega,
      show wire / 512 % 32 = c by omega, ← hn, hback]
  · rw [show wire / 16 % 2 = low by omega, show wire / 256 % 2 = high by omega, hclass]

def success (type : MessageType) : MessageType := ⟨type.method, .success⟩

def failure (type : MessageType) : MessageType := ⟨type.method, .failure⟩

end MessageType

end TurnRelay
