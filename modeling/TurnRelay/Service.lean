import TurnRelay.Endpoint.Exchange

/-!
A service: the endpoints made from one configuration, and one pool of ports for each external IP
address. An endpoint lives as long as it is registered or the host holds it; then its ports go back to
the pool, and the host is not told.
-/

namespace TurnRelay

abbrev EndpointId := Nat

/-- `holds` lists an endpoint once for every reference of the host. -/
structure Service where
  config : Config
  externals : List TransportAddress
  registry : Dictionary (TransportAddress × TransportAddress) EndpointId
  endpoints : Dictionary EndpointId Endpoint
  pools : Dictionary IpAddress PortPool
  holds : List EndpointId
  nextId : EndpointId
  draws : Draws
  deriving DecidableEq

namespace Service

def ofConfig (config : Config) : Except HostError Service :=
  match config.validate with
  | .error e => .error e
  | .ok externals => .ok
    { config := config
      externals := externals
      registry := ∅
      endpoints := ∅
      pools := ∅
      holds := []
      nextId := 0
      draws := .none }

def ofRealm (realm : String) (externals : List String) : Option Service :=
  (ofConfig (.ofRealm realm externals)).toOption

def endpointCount (service : Service) : Nat := service.registry.size

def pool (service : Service) (ip : IpAddress) : PortPool :=
  (service.pools.get? ip).getD (.fresh service.config.portRange)

def portsInUse (service : Service) (ip : IpAddress) : Nat := (service.pool ip).inUse

def site? (service : Service) (id : EndpointId) : Option Site :=
  (service.endpoints.get? id).map fun endpoint =>
    ⟨endpoint, service.pool endpoint.external.ip, service.draws⟩

def store (service : Service) (id : EndpointId) (site : Site) : Service :=
  { service with
    endpoints := service.endpoints.insert id site.endpoint
    pools := service.pools.insert site.endpoint.external.ip site.pool
    draws := site.draws }

def perform {α : Type} (service : Service) (id : EndpointId) (step : Site → Step α) :
    Option (α × List Event × Service) := do
  let site ← service.site? id
  let ⟨result, events, site⟩ := step site
  return (result, events, service.store id site)

def isReferenced (service : Service) (id : EndpointId) : Bool :=
  id ∈ service.registry.values || id ∈ service.holds

def collect (service : Service) (id : EndpointId) : Service :=
  if service.isReferenced id then service
  else
    match service.endpoints.get? id with
    | none => service
    | some endpoint =>
      let ip := endpoint.external.ip
      { service with
        endpoints := service.endpoints.erase id
        pools := service.pools.insert ip ((service.pool ip).releaseAll endpoint.table.ports) }

def hold (service : Service) (id : EndpointId) : Service :=
  { service with holds := id :: service.holds }

def release (service : Service) (id : EndpointId) : Service :=
  ({ service with holds := service.holds.erase id }).collect id

def register (service : Service) (interface external : TransportAddress) : EndpointId × Service :=
  (service.nextId,
    { service with
      registry := service.registry.insert (interface, external) service.nextId
      endpoints := service.endpoints.insert service.nextId (.fresh interface external service.config)
      pools := service.pools.insert external.ip (service.pool external.ip)
      nextId := service.nextId + 1 })

def obtain (service : Service) (interface external : String) : Option (EndpointId × Service) := do
  let interface ← TransportAddress.ofText? interface
  let external ← TransportAddress.ofText? external
  if external ∈ service.externals then
    let (id, service) := match service.registry.get? (interface, external) with
      | some id => (id, service)
      | none => service.register interface external
    return (id, service.hold id)
  else none

def remove (service : Service) (interface external : String) :
    Except HostError (Bool × List Event × Service) := do
  let interface ← Config.address interface
  let external ← Config.address external
  match service.registry.get? (interface, external) with
  | none => return (false, [], service)
  | some id =>
    let service := { service with registry := service.registry.erase (interface, external) }
    match service.perform id Site.shutdown with
    | none => return (true, [], service)
    | some (_, events, service) => return (true, events, service.collect id)

/-- Gives up the service itself. What the host holds stays alive. -/
def close (service : Service) : Service :=
  service.registry.values.foldl collect { service with registry := ∅ }

def receive (service : Service) (id : EndpointId) (raw : Bytes) (source : TransportAddress) (now : Nat) :
    Option (Progress × List Event × Service) :=
  service.perform id (·.receive raw source now)

def receiveFrom (service : Service) (id : EndpointId) (raw : Bytes) (source : String) (now : Nat) :
    Option (Progress × List Event × Service) :=
  match TransportAddress.ofText? source with
  | some source => service.receive id raw source now
  | none => some (.done (.error .invalidInput), [], service)

def resume (random : Randomness) (service : Service) (id : EndpointId) (lookup : Lookup)
    (password : Option String) (now : Nat) : Option (Answer × List Event × Service) :=
  service.perform id (·.resume random lookup password now)

def reject (random : Randomness) (service : Service) (id : EndpointId) (raw : Bytes)
    (error : PacketError) : Option (Option Response × List Event × Service) :=
  service.perform id (·.reject random raw error)

def deliver (random : Randomness) (service : Service) (id : EndpointId) (port : UInt16)
    (peer : TransportAddress) (payload : Bytes) (now : Nat) :
    Option (Option Response × List Event × Service) :=
  service.perform id (·.deliver random port peer payload now)

def shutdown (service : Service) (id : EndpointId) : Option (Unit × List Event × Service) :=
  service.perform id Site.shutdown

end Service

end TurnRelay
