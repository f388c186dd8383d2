namespace TurnRelay

inductive PacketError
  | invalidInput
  | unsupportedFamily
  | hashRefused
  | integrityMissing
  | integrityFailed
  | cookieMismatch
  | unknownMethod
  | fatal
  | invalidText
  deriving DecidableEq

namespace PacketError

def name : PacketError → String
  | invalidInput => "InvalidInput"
  | unsupportedFamily => "UnsupportedIpFamily"
  | hashRefused => "ShaFailed"
  | integrityMissing => "NotIntegrity"
  | integrityFailed => "IntegrityFailed"
  | cookieMismatch => "NotCookie"
  | unknownMethod => "UnknownMethod"
  | fatal => "FatalError"
  | invalidText => "Utf8Error"

def message : PacketError → String
  | invalidInput => "invalid input"
  | unsupportedFamily => "unsupported ip family"
  | hashRefused => "sha failed"
  | integrityMissing => "message integrity attribute missing"
  | integrityFailed => "integrity check failed"
  | cookieMismatch => "magic cookie mismatch"
  | unknownMethod => "unknown method"
  | fatal => "fatal error"
  | invalidText => "utf8 error"

/-- Authentication failures share one answer, so that a client cannot tell them apart. -/
def isAuthFailure : PacketError → Bool
  | integrityMissing | integrityFailed | hashRefused => true
  | _ => false

def isRecoverable : PacketError → Bool
  | fatal => false
  | _ => true

def code? : PacketError → Option UInt16
  | integrityMissing | integrityFailed | hashRefused => some 401
  | invalidInput | unknownMethod => some 400
  | unsupportedFamily => some 440
  | cookieMismatch | invalidText | fatal => none

end PacketError

inductive ConfigFault
  | emptyRealm
  | noExternals
  | invalidPortRange (start stop : UInt16)
  | zeroLifetime
  | defaultExceedsMax
  deriving DecidableEq

def ConfigFault.message : ConfigFault → String
  | emptyRealm => "realm must not be empty"
  | noExternals => "at least one external address is required"
  | invalidPortRange start stop => s!"invalid port range {start.toNat}-{stop.toNat}"
  | zeroLifetime => "lifetimes must be non-zero"
  | defaultExceedsMax => "default lifetime exceeds max lifetime"

inductive HostError
  | packet (error : PacketError)
  | configuration (fault : ConfigFault)
  | invalidAddress (text : String)
  | unreadable
  | malformed
  deriving DecidableEq

def HostError.message : HostError → String
  | packet error => "STUN error: " ++ error.message
  | configuration fault => "Configuration error: " ++ fault.message
  | invalidAddress text => "Invalid address: " ++ text
  | unreadable => "I/O error"
  | malformed => "JSON error"

end TurnRelay
