import TurnRelay.Hash
import TurnRelay.Message.Codec

namespace TurnRelay

def longTermKey (name realm password : String) : Bytes :=
  Md5.digest (Utf8.encode name ++ Utf8.encode ":" ++ Utf8.encode realm ++ Utf8.encode ":" ++
    Utf8.encode password)

structure Credential where
  username : String
  key : Bytes
  deriving DecidableEq

namespace Credential

/-- The user whose password decides about `m`. A message without a realm is taken to mean `realm`. -/
def claimant (realm : String) (m : Message) : Except PacketError String :=
  if m.hasIntegrity then
    match m.username? with
    | none => .error .integrityFailed
    | some name =>
      if m.realm?.all (· = realm) then .ok name else .error .integrityFailed
  else .error .integrityMissing

theorem claimant_eq_ok_iff {realm name : String} {m : Message} :
    claimant realm m = .ok name ↔ m.hasIntegrity ∧ m.username? = some name ∧ m.realm?.all (· = realm) := by
  unfold claimant
  split
  · next hintegrity =>
    split
    · next hname => simp [hname]
    · next hname =>
      split
      · next hrealm => simp [hname, hrealm, hintegrity]
      · next hrealm => simp [hrealm]
  · next hintegrity => simp [hintegrity]

theorem eq_of_claimant_error {realm : String} {m : Message} {e : PacketError}
    (h : claimant realm m = .error e) :
    e = if m.hasIntegrity then .integrityFailed else .integrityMissing := by
  unfold claimant at h
  split at h
  · next hintegrity =>
    rw [if_pos hintegrity]
    split at h
    · cases h; rfl
    · split at h
      · cases h
      · cases h; rfl
  · next hintegrity =>
    rw [if_neg hintegrity]
    cases h
    rfl

def confirm (realm name : String) (raw : Bytes) (password : Option String) :
    Except PacketError Credential :=
  match password with
  | none => .error .integrityFailed
  | some password => do
    let key := longTermKey name realm password
    verifyIntegrity raw key
    return ⟨name, key⟩

def verify (realm : String) (passwordOf : String → Option String) (m : Message) (raw : Bytes) :
    Except PacketError Credential := do
  let name ← claimant realm m
  confirm realm name raw (passwordOf name)

theorem verify_of_unsigned {realm : String} {passwordOf : String → Option String} {m : Message}
    {raw : Bytes} (h : m.hasIntegrity = false) :
    verify realm passwordOf m raw = .error .integrityMissing := by
  rw [verify, claimant, h]
  rfl

end Credential

end TurnRelay
