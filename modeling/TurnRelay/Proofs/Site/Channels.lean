import TurnRelay.Proofs.Site.Run
import TurnRelay.Proofs.Table.Channels

namespace TurnRelay

namespace AllocationTable

def Channelled (table : AllocationTable) : Prop :=
  ∀ tuple a, table.allocations.get? tuple = some a →
    ChannelTable.Reachable table.channelLifetime a.channels

variable {table : AllocationTable} {tuple : FiveTuple} {a : Allocation}

theorem channelled_fresh (relayIp : IpAddress) (permissionLifetime channelLifetime : Nat) :
    (fresh relayIp permissionLifetime channelLifetime).Channelled := by
  intro tuple a ha
  cases ha

theorem Channelled.put (h : table.Channelled)
    (ha : ChannelTable.Reachable table.channelLifetime a.channels) : (table.put tuple a).Channelled := by
  intro other b hb
  rw [get?_put] at hb
  split at hb
  · exact Option.some.inj hb ▸ ha
  · exact h other b hb

end AllocationTable

namespace Holdings

variable {h : Holdings}

theorem channelled_evict (hc : h.table.Channelled) (chosen : FiveTuple → Allocation → Bool) :
    (h.evict chosen).2.table.Channelled := by
  intro tuple a ha
  rw [get?_evict, Option.filter_eq_some_iff] at ha
  exact hc tuple a ha.1

theorem channelled_reap (hc : h.table.Channelled) (now : Nat) : (h.reap now).2.table.Channelled := by
  intro tuple a ha
  rw [get?_reap, kept_eq_some_iff] at ha
  obtain ⟨b, hb, -, rfl⟩ := ha
  exact .reap now (hc tuple b hb)

theorem channelled_grant (hc : h.table.Channelled) (tuple : FiveTuple) (user : String) (port : UInt16)
    (pool : PortPool) (lifetime now : Nat) :
    (h.grant tuple user port pool lifetime now).table.Channelled := by
  intro other a ha
  rw [get?_grant] at ha
  split at ha
  · obtain rfl := Option.some.inj ha
    exact .fresh
  · exact hc other a ha

end Holdings

namespace Site

variable {random : Randomness} {s : Site} {source : TransportAddress} {user : String} {now : Nat}

theorem channelled_reaped (hc : s.endpoint.table.Channelled) (now : Nat) :
    (s.reaped now).endpoint.table.Channelled :=
  Holdings.channelled_reap (h := s.holdings) hc now

theorem Received.channelled {raw : Bytes} {step : Step Progress} (h : Received s raw source now step)
    (hc : s.endpoint.table.Channelled) : step.site.endpoint.table.Channelled := by
  have hopened : (s.opened now).endpoint.table.Channelled := channelled_reaped (s := s.countProcessed) hc now
  cases h with
  | answered | dropped | refused | waiting | forwarded => exact hopened
  | sent _ _ _ _ hfind _ =>
    have ha := hopened _ _ (AllocationTable.find?_eq_some_iff.1 hfind).1
    exact hopened.put ha

theorem channelled_bindChannel (hc : s.endpoint.table.Channelled) (number : UInt16)
    (peer : TransportAddress) :
    (s.bindChannel source user number peer now).site.endpoint.table.Channelled := by
  cases howned : s.endpoint.table.owned (s.endpoint.tuple source) user now with
  | error e =>
    rw [bindChannel_of_error howned]
    exact hc
  | ok a =>
    have ha := hc _ _ (AllocationTable.stored_of_owned howned).1
    have hbind := ChannelTable.Reachable.bind number peer now ha
    rw [bindChannel_of_owned howned]
    rcases hresult : a.channels.bind number peer now with ⟨bound, channels⟩
    rw [hresult] at hbind
    change ChannelTable.Reachable _ channels at hbind
    cases bound with
    | error e => exact hc.put hbind
    | ok new => exact hc.put hbind

theorem Executed.channelled {command : Command} {step : Step (Except PacketError (List Attribute))}
    (h : Executed random s source user now command step) (hc : s.endpoint.table.Channelled)
    (hnot : ∀ number peer, command ≠ .bindChannel number peer) :
    step.site.endpoint.table.Channelled := by
  have hreaped := channelled_reaped hc now
  cases h with
  | @created seconds port pool draws _ _ =>
    exact Holdings.channelled_grant (h := (s.reaped now).holdings) hreaped _ user port pool _ now
  | extended ha _ =>
    have ha := hreaped _ _ ha
    exact hreaped.put ha
  | occupied | exhausted => exact hreaped
  | disowned _ _ => exact hc
  | renewed _ howned =>
    have ha := hc _ _ (AllocationTable.stored_of_owned howned).1
    exact hc.put ha
  | deleted _ => exact Holdings.channelled_evict hc _
  | permitted _ howned =>
    have ha := hc _ _ (AllocationTable.stored_of_owned howned).1
    rw [Allocation.permitEach_eq]
    exact hc.put ha
  -- what is known here does not show that the number is one of a channel
  | bound | unbound => exact absurd rfl (hnot _ _)

theorem channelled_execute (hc : s.endpoint.table.Channelled) {command : Command}
    (hne : command ≠ .permit []) :
    (s.execute random source user now command).site.endpoint.table.Channelled := by
  have hspec := execute_spec random s source user now hne
  cases command with
  | allocate seconds => exact hspec.channelled hc nofun
  | refresh seconds => exact hspec.channelled hc nofun
  | permit peers => exact hspec.channelled hc nofun
  | bindChannel number peer => exact channelled_bindChannel hc number peer

theorem channelled_resume (hc : s.endpoint.table.Channelled) (lookup : Lookup)
    (password : Option String) :
    (s.resume random lookup password now).site.endpoint.table.Channelled := by
  rw [resume, Step.table_settled, complete]
  cases Credential.confirm s.endpoint.config.realm lookup.user lookup.raw password with
  | error e => exact hc
  | ok credential =>
    cases hcommand : Command.ofRequest s.endpoint.config s.endpoint.external.ip lookup.request
        lookup.procedure with
    | error e => exact hc
    | ok command => exact channelled_execute hc (Command.ofRequest_spec hcommand).ne_permit_nil

theorem channelled_serve (hc : s.endpoint.table.Channelled) (random : Randomness) (now : Nat)
    (call : Call) : (s.serve random now call).site.endpoint.table.Channelled := by
  cases call with
  | receive raw source => exact (receive_spec s raw source now).channelled hc
  | resume lookup password => exact channelled_resume hc lookup password
  | deliver port peer payload =>
    have hdelivered := deliver_spec random s port peer payload now
    change (s.deliver random port peer payload now).site.endpoint.table.Channelled
    generalize s.deliver random port peer payload now = step at hdelivered
    cases hdelivered with
    | oversize => exact hc
    | dropped | delivered => exact channelled_reaped hc now
  | reject raw error =>
    obtain ⟨response, draws, h⟩ := reject_site random s raw error
    rw [serve, h]
    exact hc
  | shutdown => exact Holdings.channelled_evict (h := s.holdings) hc fun _ _ => true

end Site

theorem Run.channelled {random : Randomness} {log : List Record} {m : Moment} (h : Run random log m) :
    m.site.endpoint.table.Channelled := by
  induction h with
  | start _ => exact AllocationTable.channelled_fresh _ _ _
  | wait _ _ ih => exact ih
  | share _ _ _ _ ih => exact ih
  | serve _ _ ih => exact Site.channelled_serve ih random _ _

end TurnRelay
