import TurnRelay.Proofs.Site.Frame

/-!
Runs of one endpoint: any calls in any order, while the clock advances and other endpoints take ports
from the pool that is shared and give them back. A log lists the calls, the newest first.
-/

namespace TurnRelay

inductive Call
  | receive (raw : Bytes) (source : TransportAddress)
  | resume (lookup : Lookup) (password : Option String)
  | deliver (port : UInt16) (peer : TransportAddress) (payload : Bytes)
  | reject (raw : Bytes) (error : PacketError)
  | shutdown

inductive Outcome
  | progress (progress : Progress)
  | answer (answer : Answer)
  | response (response : Option Response)
  | silence

namespace Site

variable {random : Randomness} {s : Site} {now : Nat} {call : Call} {step : Step Outcome}

def serve (random : Randomness) (s : Site) (now : Nat) : Call → Step Outcome
  | .receive raw source => (s.receive raw source now).map .progress
  | .resume lookup password => (s.resume random lookup password now).map .answer
  | .deliver port peer payload => (s.deliver random port peer payload now).map .response
  | .reject raw error => (s.reject random raw error).map .response
  | .shutdown => s.shutdown.map fun _ => .silence

inductive Served (random : Randomness) (s : Site) (now : Nat) : Call → Step Outcome → Prop
  | received {raw : Bytes} {source : TransportAddress} {step : Step Progress} :
      Received s raw source now step → Served random s now (.receive raw source) (step.map .progress)
  | resumed {lookup : Lookup} {password : Option String} {step : Step Answer} :
      Resumed random s lookup password now step →
      Served random s now (.resume lookup password) (step.map .answer)
  | delivered {port : UInt16} {peer : TransportAddress} {payload : Bytes}
      {step : Step (Option Response)} : Delivered random s port peer payload now step →
      Served random s now (.deliver port peer payload) (step.map .response)
  | rejected {raw : Bytes} {error : PacketError} {response : Option Response} {draws : Draws} :
      Served random s now (.reject raw error) ⟨.response response, [], { s with draws := draws }⟩
  | stopped : Served random s now .shutdown
      ⟨.silence, ((s.setHoldings s.holdings.clear.2).abort s.holdings.clear.1).1,
        ((s.setHoldings s.holdings.clear.2).abort s.holdings.clear.1).2⟩

theorem reject_site (random : Randomness) (s : Site) (raw : Bytes) (error : PacketError) :
    ∃ response draws, s.reject random raw error = ⟨response, [], { s with draws := draws }⟩ := by
  unfold reject
  split
  · split
    · unfold challengeAttributes
      cases error.isAuthFailure with
      | false => exact ⟨_, s.draws, rfl⟩
      | true => exact ⟨_, _, rfl⟩
    · exact ⟨none, s.draws, rfl⟩
  · exact ⟨none, s.draws, rfl⟩

theorem serve_spec (random : Randomness) (s : Site) (now : Nat) (call : Call) :
    Served random s now call (s.serve random now call) := by
  cases call with
  | receive raw source => exact .received (receive_spec s raw source now)
  | resume lookup password => exact .resumed (resume_spec random s lookup password now)
  | deliver port peer payload => exact .delivered (deliver_spec random s port peer payload now)
  | reject raw error =>
    obtain ⟨response, draws, h⟩ := reject_site random s raw error
    rw [serve, h]
    exact .rejected
  | shutdown => exact .stopped

theorem Served.identity (h : Served random s now call step) :
    step.site.endpoint.identity = s.endpoint.identity := by
  cases h with
  | received h => exact h.identity
  | resumed h => exact h.identity
  | delivered h => exact h.identity
  | rejected => rfl
  | stopped => rfl

theorem Served.conserves (h : Served random s now call step) (hs : s.holdings.Sound) :
    s.holdings.Conserves step.site.holdings := by
  cases h with
  | received h => exact h.conserves hs
  | resumed h => exact h.conserves hs
  | delivered h => exact h.conserves hs
  | rejected => exact .refl hs
  | stopped => exact Holdings.conserves_clear hs

def owner? (s : Site) : Call → Option FiveTuple
  | .receive _ source => some (s.endpoint.tuple source)
  | .resume lookup _ => some (s.endpoint.tuple lookup.source)
  | _ => none

theorem Served.others {tuple : FiveTuple} (h : Served random s now call step)
    (hne : s.owner? call ≠ some tuple) :
    Holdings.Left now (s.endpoint.table.allocations.get? tuple)
        (step.site.endpoint.table.allocations.get? tuple) ∨
      step.site.endpoint.table.allocations.get? tuple = none := by
  cases h with
  | received h => exact .inl (.inr (h.others fun he => hne (congrArg some he.symm)))
  | resumed h => exact .inl (h.others fun he => hne (congrArg some he.symm))
  | delivered h =>
    cases h with
    | oversize => exact .inl (.inl rfl)
    | dropped => exact .inl (.inr (get?_reaped s now tuple))
    | delivered _ _ => exact .inl (.inr (get?_reaped s now tuple))
  | rejected => exact .inl (.inl rfl)
  | stopped =>
    apply Or.inr
    apply (Holdings.get?_evict ..).trans
    cases s.holdings.table.allocations.get? tuple <;> rfl

structure Sound (s : Site) : Prop where
  holdings : s.holdings.Sound
  relayIp_eq : s.endpoint.table.relayIp = s.endpoint.external.ip
  permission_lifetime :
    s.endpoint.table.permissionLifetime = milliseconds s.endpoint.config.permissionLifetime
  channel_lifetime :
    s.endpoint.table.channelLifetime = milliseconds s.endpoint.config.channelLifetime
  own : ∀ {tuple a}, s.endpoint.table.allocations.get? tuple = some a →
    tuple = s.endpoint.tuple tuple.client

theorem sound_fresh (interface external : TransportAddress) (config : Config) {pool : PortPool}
    (draws : Draws) (h : pool.taken.Nodup) :
    Sound ⟨.fresh interface external config, pool, draws⟩ where
  holdings := ⟨AllocationTable.wellFormed_fresh _ _ _, by simp [Site.holdings, Endpoint.fresh,
    AllocationTable.fresh, AllocationTable.ports, Dictionary.mem_keys_iff], h⟩
  relayIp_eq := rfl
  permission_lifetime := rfl
  channel_lifetime := rfl
  own h := by simp [Endpoint.fresh, AllocationTable.fresh] at h

theorem Sound.share (h : s.Sound) {pool : PortPool} (draws : Draws) (hnodup : pool.taken.Nodup)
    (htaken : ∀ port ∈ s.endpoint.table.ports, port ∈ pool.taken) :
    Sound ⟨s.endpoint, pool, draws⟩ :=
  ⟨⟨h.holdings.wellFormed, htaken, hnodup⟩, h.relayIp_eq, h.permission_lifetime, h.channel_lifetime,
    h.own⟩

theorem Sound.relay_eq {tuple : FiveTuple} {a : Allocation} (h : s.Sound)
    (ha : s.endpoint.table.allocations.get? tuple = some a) :
    a.relay = s.endpoint.external.ip.withPort a.relay.port :=
  h.relayIp_eq ▸ (h.holdings.wellFormed.fits ha).relay_eq

theorem Sound.relay_ip {tuple : FiveTuple} {a : Allocation} (h : s.Sound)
    (ha : s.endpoint.table.allocations.get? tuple = some a) :
    a.relay.ip = s.endpoint.external.ip := by
  rw [h.relay_eq ha, IpAddress.ip_withPort]

theorem tuple_eq_of_identity {s t : Site} (h : t.endpoint.identity = s.endpoint.identity)
    (source : TransportAddress) : t.endpoint.tuple source = s.endpoint.tuple source := by
  simp only [Endpoint.identity, Prod.mk.injEq] at h
  simp [Endpoint.tuple, h.1]

theorem Served.own {tuple : FiveTuple} {a : Allocation} (h : Served random s now call step)
    (hs : s.Sound) (ha : step.site.endpoint.table.allocations.get? tuple = some a) :
    tuple = s.endpoint.tuple tuple.client := by
  by_cases howner : s.owner? call = some tuple
  · cases call with
    | receive raw source => cases howner; rfl
    | resume lookup password => cases howner; rfl
    | deliver port peer payload => cases howner
    | reject raw error => cases howner
    | shutdown => cases howner
  · rcases h.others howner with (hleft | hleft) | hnone
    · exact hs.own (hleft ▸ ha)
    · obtain ⟨b, hb, _⟩ := Holdings.kept_eq_some_iff.1 (hleft.symm.trans ha)
      exact hs.own hb
    · rw [hnone] at ha
      cases ha

theorem Served.sound (h : Served random s now call step) (hs : s.Sound) : step.site.Sound := by
  have hconserves := h.conserves hs.holdings
  have hidentity := h.identity
  have hparts := hidentity
  simp only [Endpoint.identity, Prod.mk.injEq] at hparts
  obtain ⟨_, hexternal, hconfig⟩ := hparts
  refine ⟨hconserves.sound, ?_, ?_, ?_, ?_⟩
  · rw [hexternal]
    exact hconserves.relayIp_eq.trans hs.relayIp_eq
  · rw [hconfig]
    exact hconserves.permission_lifetime.trans hs.permission_lifetime
  · rw [hconfig]
    exact hconserves.channel_lifetime.trans hs.channel_lifetime
  · intro tuple a ha
    rw [tuple_eq_of_identity hidentity]
    exact h.own hs ha

end Site

structure Lookup.Genuine (realm : String) (lookup : Lookup) : Prop where
  decoded : Packet.decode lookup.raw = .ok (.message lookup.request)
  type_eq : lookup.request.type = Site.procedureType lookup.procedure
  claimed : Credential.claimant realm lookup.request = .ok lookup.user

structure Moment where
  site : Site
  now : Nat
  waiting : List Lookup

structure Record where
  time : Nat
  call : Call
  outcome : Outcome
  events : List Event

namespace Call

def Fits (waiting : List Lookup) : Call → Prop
  | .resume lookup _ => lookup ∈ waiting
  | _ => True

def waitingAfter (waiting : List Lookup) : Call → Outcome → List Lookup
  | .resume lookup _, _ => waiting.erase lookup
  | .receive _ _, .progress (.waiting lookup) => lookup :: waiting
  | _, _ => waiting

end Call

namespace Moment

def serve (random : Randomness) (m : Moment) (call : Call) : Moment :=
  let step := m.site.serve random m.now call
  ⟨step.site, m.now, call.waitingAfter m.waiting step.result⟩

def record (random : Randomness) (m : Moment) (call : Call) : Record :=
  let step := m.site.serve random m.now call
  ⟨m.now, call, step.result, step.events⟩

structure Sound (m : Moment) : Prop where
  site : m.site.Sound
  genuine : ∀ lookup ∈ m.waiting, lookup.Genuine m.site.endpoint.config.realm

theorem Sound.serve {m : Moment} (h : m.Sound) (random : Randomness) (call : Call) :
    (m.serve random call).Sound := by
  have hserved := Site.serve_spec random m.site m.now call
  refine ⟨hserved.sound h.site, ?_⟩
  have hconfig : (m.serve random call).site.endpoint.config = m.site.endpoint.config :=
    congrArg (·.2.2) hserved.identity
  rw [hconfig]
  intro lookup hlookup
  change lookup ∈ call.waitingAfter m.waiting (m.site.serve random m.now call).result at hlookup
  generalize m.site.serve random m.now call = step at hserved hlookup
  cases hserved with
  | received hreceived =>
    cases hreceived with
    | waiting hdecode htype _ hclaim =>
      cases hlookup with
      | head => exact ⟨hdecode, htype, hclaim⟩
      | tail _ hlookup => exact h.genuine lookup hlookup
    | _ => exact h.genuine lookup hlookup
  | resumed _ => exact h.genuine lookup (List.mem_of_mem_erase hlookup)
  | delivered _ => exact h.genuine lookup hlookup
  | rejected => exact h.genuine lookup hlookup
  | stopped => exact h.genuine lookup hlookup

end Moment

inductive Run (random : Randomness) : List Record → Moment → Prop
  | start {interface external : TransportAddress} {config : Config} {pool : PortPool} {draws : Draws}
      {now : Nat} : pool.taken.Nodup →
      Run random [] ⟨⟨.fresh interface external config, pool, draws⟩, now, []⟩
  | wait {log : List Record} {m : Moment} {later : Nat} : Run random log m → m.now ≤ later →
      Run random log { m with now := later }
  | share {log : List Record} {m : Moment} {pool : PortPool} {draws : Draws} : Run random log m →
      pool.range = m.site.pool.range → pool.taken.Nodup →
      (∀ port ∈ m.site.endpoint.table.ports, port ∈ pool.taken) →
      Run random log { m with site := ⟨m.site.endpoint, pool, draws⟩ }
  | serve {log : List Record} {m : Moment} {call : Call} : Run random log m → call.Fits m.waiting →
      Run random (m.record random call :: log) (m.serve random call)

theorem Run.sound {random : Randomness} {log : List Record} {m : Moment} (h : Run random log m) :
    m.Sound := by
  induction h with
  | start hnodup => exact ⟨Site.sound_fresh _ _ _ _ hnodup, fun _ h => absurd h List.not_mem_nil⟩
  | wait _ _ ih => exact ⟨ih.site, ih.genuine⟩
  | share _ _ hnodup htaken ih => exact ⟨ih.site.share _ hnodup htaken, ih.genuine⟩
  | serve _ _ ih => exact ih.serve random _

/-! ## Runs that are carried out -/

theorem exists_of_isOk {ε α : Type} {result : Except ε α} (h : result.isOk = true) :
    ∃ a, result = .ok a := by
  cases result with
  | error e => cases h
  | ok a => exact ⟨a, rfl⟩

instance Call.decidableFits (waiting : List Lookup) : (call : Call) → Decidable (call.Fits waiting)
  | .receive _ _ => .isTrue trivial
  | .resume lookup _ => inferInstanceAs (Decidable (lookup ∈ waiting))
  | .deliver _ _ _ => .isTrue trivial
  | .reject _ _ => .isTrue trivial
  | .shutdown => .isTrue trivial

namespace Moment

def play (random : Randomness) : Moment → List Call → Moment
  | m, [] => m
  | m, call :: calls => (m.serve random call).play random calls

def records (random : Randomness) : Moment → List Call → List Record → List Record
  | _, [], log => log
  | m, call :: calls, log => (m.serve random call).records random calls (m.record random call :: log)

def Plays (random : Randomness) : Moment → List Call → Prop
  | _, [] => True
  | m, call :: calls => call.Fits m.waiting ∧ (m.serve random call).Plays random calls

instance decidablePlays (random : Randomness) :
    (m : Moment) → (calls : List Call) → Decidable (m.Plays random calls)
  | _, [] => .isTrue trivial
  | m, call :: calls =>
    have := decidablePlays random (m.serve random call) calls
    inferInstanceAs (Decidable (call.Fits m.waiting ∧ (m.serve random call).Plays random calls))

end Moment

theorem Run.play {random : Randomness} {log : List Record} {m : Moment} {calls : List Call}
    (h : Run random log m) (hplays : m.Plays random calls) :
    Run random (m.records random calls log) (m.play random calls) := by
  induction calls generalizing log m with
  | nil => exact h
  | cons call calls ih => exact ih (h.serve hplays.1) hplays.2

/-! ## A sample: one client that gets an allocation and a permission -/

namespace Sample

def random : Randomness := ⟨fun _ => 0, fun _ => 0, fun _ => 'a'⟩

def config : Config := .ofRealm "example.org" ["203.0.113.1:3478"]

def interface : TransportAddress := .v4 0x0A000001 3478

def external : TransportAddress := .v4 0xCB007101 3478

def client : TransportAddress := .v4 0xC6336407 5000

def peer : TransportAddress := .v4 0xCB007109 7000

def start : Moment := ⟨⟨.fresh interface external config, .fresh .standard, .none⟩, 0, []⟩

def request (procedure : Procedure) (attributes : List Attribute) : Bytes :=
  let m : Message :=
    ⟨Site.procedureType procedure, 7, ⟨.username, .username "alice"⟩ :: attributes⟩
  (m.encode (some (longTermKey "alice" "example.org" "secret")) false).toOption.getD []

def lookup (procedure : Procedure) (attributes : List Attribute) : Lookup :=
  let m := (Message.decode (request procedure attributes)).toOption.getD ⟨⟨.binding, .request⟩, 0, []⟩
  ⟨procedure, m, request procedure attributes, client, "alice"⟩

def allocation : List Attribute := [⟨.requestedTransport, .requestedTransport 17⟩]

def permission : List Attribute := [⟨.xorPeerAddress, .xorPeerAddress peer⟩]

def ask (procedure : Procedure) (attributes : List Attribute) : Call :=
  .receive (request procedure attributes) client

def answer (procedure : Procedure) (attributes : List Attribute) : Call :=
  .resume (lookup procedure attributes) (some "secret")

def asked : Moment := start.serve random (ask .allocate allocation)

def calls : List Call :=
  [ask .allocate allocation, answer .allocate allocation, ask .createPermission permission,
    answer .createPermission permission]

def permitted : Moment := start.play random calls

def indication : Bytes :=
  let m : Message := ⟨⟨.send, .indication⟩, 0, ⟨.data, .raw [1, 2, 3]⟩ :: permission⟩
  (m.encode none false).toOption.getD []

theorem run_start : Run random [] start := .start List.nodup_nil

theorem run_asked : Run random [start.record random (ask .allocate allocation)] asked :=
  run_start.serve trivial

theorem plays_calls : start.Plays random calls := by decide +kernel

theorem run_permitted : Run random (start.records random calls []) permitted := run_start.play plays_calls

theorem lookup_mem_waiting : lookup .allocate allocation ∈ asked.waiting := by decide +kernel

end Sample

end TurnRelay
