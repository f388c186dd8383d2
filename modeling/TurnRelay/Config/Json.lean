import TurnRelay.Bytes
import TurnRelay.Config
import TurnRelay.Json

namespace TurnRelay

def PortRange.ofJson? (json : Json) : Option PortRange := do
  match ← json.fields? ["start", "end"] with
  | [some start, some stop] =>
    return ⟨.ofNat (← start.naturalBelow? UInt16.size), .ofNat (← stop.naturalBelow? UInt16.size)⟩
  | _ => none

def PortRange.toJson (range : PortRange) : Json :=
  .ofMembers [("start", .natural range.start.toNat), ("end", .natural range.stop.toNat)]

namespace Config

def fieldNames : List String :=
  ["realm", "externals", "software", "port_range", "default_lifetime", "max_lifetime",
    "permission_lifetime", "channel_lifetime", "users"]

def given (read : Json → Option α) (default : α) : Option Json → Option α
  | none => some default
  | some json => read json

def seconds? (json : Json) : Option UInt32 := (json.naturalBelow? UInt32.size).map .ofNat

def externals? (json : Json) : Option (List String) := do (← json.items?).mapM (·.text?)

def users? : Json → Option (Dictionary String String)
  | .object members => members.foldlM (fun users (name, password) =>
      return users.insert (← name) (← password.text?)) ∅
  | _ => none

def ofJson? (json : Json) : Option Config := do
  match ← json.fields? fieldNames with
  | [realm, externals, software, portRange, default, max, permission, channel, users] =>
    return {
      realm := ← given Json.text? standard.realm realm
      externals := ← given externals? standard.externals externals
      software := ← given Json.text? standard.software software
      portRange := ← given PortRange.ofJson? standard.portRange portRange
      defaultLifetime := ← given seconds? standard.defaultLifetime default
      maxLifetime := ← given seconds? standard.maxLifetime max
      permissionLifetime := ← given seconds? standard.permissionLifetime permission
      channelLifetime := ← given seconds? standard.channelLifetime channel
      users := ← given users? standard.users users }
  | _ => none

def ofJson (json : Json) : Except HostError Config := (ofJson? json).elim (.error .malformed) .ok

def ofFile (content : Option Bytes) : Except HostError Config :=
  match content.bind Utf8.decode? with
  | none => .error .unreadable
  | some text => ((Json.ofString? text).bind ofJson?).elim (.error .malformed) .ok

def toJson (config : Config) : Json :=
  .ofMembers [
    ("realm", .ofText config.realm),
    ("externals", .array (config.externals.map .ofText)),
    ("software", .ofText config.software),
    ("port_range", config.portRange.toJson),
    ("default_lifetime", .natural config.defaultLifetime.toNat),
    ("max_lifetime", .natural config.maxLifetime.toNat),
    ("permission_lifetime", .natural config.permissionLifetime.toNat),
    ("channel_lifetime", .natural config.channelLifetime.toNat),
    ("users", .ofMembers (config.users.entries.map fun (name, password) => (name, .ofText password)))]

end Config

end TurnRelay
