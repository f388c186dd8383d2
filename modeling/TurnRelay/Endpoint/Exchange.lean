import TurnRelay.Credential
import TurnRelay.Endpoint.Basic
import TurnRelay.Endpoint.Command
import TurnRelay.Message.Codec
import TurnRelay.Packet

/-!
Packets and their answers. A packet is handled in one step, or in two if the host has to be asked for
a password: anything may happen to the site in between, so the second step checks the state anew.
-/

namespace TurnRelay

namespace Site

def send (s : Site) (m : Message) (source : TransportAddress) (now : Nat) : Option Response × Site :=
  match m.peers.head?, m.data?, s.endpoint.find? source now with
  | some peer, some data, some a =>
    let (permitted, table) := s.endpoint.table.touch (s.endpoint.tuple source) peer.ip now
    if permitted then
      (some (.relayed data .message peer a.relay), (s.setTable table).countRelayed data)
    else (none, s)
  | _, _, _ => (none, s)

def forward (s : Site) (frame : ChannelData) (source : TransportAddress) (now : Nat) : Answer × Site :=
  match s.endpoint.find? source now with
  | none => (.error .invalidInput, s)
  | some a =>
    match a.channels.peer? frame.number now with
    | none => (.error .invalidInput, s)
    | some peer =>
      if a.isPermitted peer.ip now then
        (.ok (some (.relayed frame.payload .channel peer a.relay)), s.countRelayed frame.payload)
      else (.ok none, s)

def maxPayload : Nat := 65535

def dataIndication (transaction : TransactionId) (peer : TransportAddress) (payload : Bytes) : Message :=
  ⟨⟨.data, .indication⟩, transaction, [⟨.xorPeerAddress, .xorPeerAddress peer⟩, ⟨.data, .raw payload⟩]⟩

def wrap (random : Randomness) (s : Site) (a : Allocation) (peer : TransportAddress) (payload : Bytes)
    (now : Nat) : Option (Bytes × Framing) × Site :=
  match a.channels.number? peer now with
  | some number => (some (ChannelData.encode ⟨number, payload⟩ false, .channel), s)
  | none =>
    let (transaction, draws) := random.nextTransaction s.draws
    let data := (dataIndication transaction peer payload).encode none false
    (data.toOption.map fun data => (data, .message), { s with draws := draws })

/-- Takes a datagram of a peer to the owner of the relay port, once expired allocations are gone. -/
def deliver (random : Randomness) (s : Site) (port : UInt16) (peer : TransportAddress)
    (payload : Bytes) (now : Nat) : Step (Option Response) :=
  if maxPayload < payload.length then ⟨none, [], s⟩
  else
    let (aborts, s) := s.reap now
    match s.endpoint.table.findByPort? port now with
    | none => ⟨none, aborts, s⟩
    | some a =>
      if a.isPermitted peer.ip now then
        match s.wrap random a peer payload now with
        | (none, s) => ⟨none, aborts, s⟩
        | (some (data, framing), s) =>
          ⟨some (.relayed data framing a.tuple.client s.endpoint.interface), aborts, s.countRelayed payload⟩
      else ⟨none, aborts, s⟩

end Site

/-- A request that waits for the password of the user it claims to come from. -/
structure Lookup where
  procedure : Procedure
  request : Message
  raw : Bytes
  source : TransportAddress
  user : String
  deriving DecidableEq

inductive Progress
  | done (answer : Answer)
  | waiting (lookup : Lookup)

namespace Step

def settled (step : Step Answer) : Step Answer :=
  match step.result with
  | .ok _ => step
  | .error _ => { step with site := step.site.countError }

def settledProgress (step : Step Progress) : Step Progress :=
  match step.result with
  | .done (.error _) => { step with site := step.site.countError }
  | _ => step

end Step

namespace Site

def successOf (s : Site) (request : Message) (attributes : List Attribute) : Message :=
  ⟨request.type.success, request.transaction, attributes ++ [s.endpoint.software]⟩

def bindingAttributes (source external : TransportAddress) : List Attribute :=
  [⟨.xorMappedAddress, .xorMappedAddress source⟩, ⟨.mappedAddress, .mappedAddress source⟩,
    ⟨.responseOrigin, .responseOrigin external⟩]

def answerBinding (s : Site) (request : Message) (source : TransportAddress) : Step Answer :=
  match (s.successOf request (bindingAttributes source s.endpoint.external)).encode none true with
  | .error e => ⟨.error e, [], s⟩
  | .ok data => ⟨.ok (some (.reply data)), [.bindingAnswered source], s⟩

def askPassword (s : Site) (procedure : Procedure) (request : Message) (raw : Bytes)
    (source : TransportAddress) (now : Nat) : Step Progress :=
  if procedure.needsAllocation ∧ (s.endpoint.find? source now).isNone then
    ⟨.done (.error .invalidInput), [], s⟩
  else
    match Credential.claimant s.endpoint.config.realm request with
    | .error e => ⟨.done (.error e), [], s⟩
    | .ok user => ⟨.waiting ⟨procedure, request, raw, source, user⟩, [.passwordAsked source user], s⟩

def dispatch (s : Site) (m : Message) (raw : Bytes) (source : TransportAddress) (now : Nat) :
    Step Progress :=
  match m.type with
  | ⟨.binding, .request⟩ => (s.answerBinding m source).map .done
  | ⟨.binding, .indication⟩ => ⟨.done (.ok none), [], s⟩
  | ⟨.allocate, .request⟩ => s.askPassword .allocate m raw source now
  | ⟨.refresh, .request⟩ => s.askPassword .refresh m raw source now
  | ⟨.createPermission, .request⟩ => s.askPassword .createPermission m raw source now
  | ⟨.channelBind, .request⟩ => s.askPassword .channelBind m raw source now
  | ⟨.send, .indication⟩ =>
    let (response, s) := s.send m source now
    ⟨.done (.ok response), [], s⟩
  | _ => ⟨.done (.error .unknownMethod), [], s⟩

def handle (s : Site) (raw : Bytes) (source : TransportAddress) (now : Nat) : Step Progress :=
  match Packet.decode raw with
  | .error e => ⟨.done (.error e), [], s⟩
  | .ok (.message m) => s.dispatch m raw source now
  | .ok (.channelData frame) =>
    let (answer, s) := s.forward frame source now
    ⟨.done answer, [], s⟩

/-- The first step. Expired allocations are gone before the packet is looked at. -/
def receive (s : Site) (raw : Bytes) (source : TransportAddress) (now : Nat) : Step Progress :=
  let (aborts, s) := (s.count fun stats => { stats with processed := stats.processed + 1 }).reap now
  ((s.handle raw source now).after aborts).settledProgress

def complete (random : Randomness) (s : Site) (lookup : Lookup) (password : Option String)
    (now : Nat) : Step Answer :=
  let checked := do
    let credential ←
      Credential.confirm s.endpoint.config.realm lookup.user lookup.raw password
    let command ←
      Command.ofRequest s.endpoint.config s.endpoint.external.ip lookup.request lookup.procedure
    return (credential, command)
  match checked with
  | .error e => ⟨.error e, [], s⟩
  | .ok (credential, command) =>
    (s.execute random lookup.source lookup.user now command).map fun result => do
      let data ← (s.successOf lookup.request (← result)).encode (some credential.key) true
      return some (.reply data)

def resume (random : Randomness) (s : Site) (lookup : Lookup) (password : Option String) (now : Nat) :
    Step Answer :=
  (s.complete random lookup password now).settled

end Site

def reasonPhrase (code : UInt16) : String :=
  match code with
  | 400 => "Bad Request"
  | 401 => "Unauthorized"
  | 437 => "Allocation Mismatch"
  | 440 => "Address Family not Supported"
  | 441 => "Wrong Credentials"
  | 442 => "Unsupported Transport Protocol"
  | 508 => "Insufficient Capacity"
  | _ => "Error"

namespace Site

def errorCodeAttribute (code : UInt16) : Attribute := ⟨.errorCode, .errorCode code (reasonPhrase code)⟩

def challengeAttributes (random : Randomness) (s : Site) (error : PacketError) : List Attribute × Site :=
  if error.isAuthFailure then
    let (nonce, draws) := random.nonce s.draws
    ([⟨.realm, .realm s.endpoint.config.realm⟩, ⟨.nonce, .nonce nonce⟩], { s with draws := draws })
  else ([], s)

/-- Only requests are rejected, and only for an error that has a code. -/
def reject (random : Randomness) (s : Site) (raw : Bytes) (error : PacketError) :
    Step (Option Response) :=
  match error.code?, Message.decode raw with
  | some code, .ok request =>
    if request.type.messageClass = .request then
      let (attributes, s) := s.challengeAttributes random error
      let response : Message :=
        ⟨request.type.failure, request.transaction,
          errorCodeAttribute code :: attributes ++ [s.endpoint.software]⟩
      ⟨(response.encode none true).toOption.map .reply, [], s⟩
    else ⟨none, [], s⟩
  | _, _ => ⟨none, [], s⟩

end Site

end TurnRelay
