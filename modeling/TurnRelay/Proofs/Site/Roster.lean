import TurnRelay.Proofs.Site.Authorisation

/-!
What the host knows. A host that keeps a roster, with an entry for each allocation it is told of until
it is told of the end, never hears of an allocation for a client that has one, nor of the end of one
that it does not know. The roster lists exactly the stored allocations, and data is relayed as it says.
-/

namespace TurnRelay

structure Listing where
  user : String
  port : UInt16
  deriving DecidableEq

namespace Allocation

def listing (a : Allocation) : Listing := ⟨a.username, a.relay.port⟩

theorem listing_extend (a : Allocation) (ends : Nat) : (a.extend ends).listing = a.listing := rfl

theorem listing_permit (a : Allocation) (peer : IpAddress) (now : Nat) :
    (a.permit peer now).listing = a.listing := rfl

theorem listing_permitEach (a : Allocation) (peers : List IpAddress) (now : Nat) :
    (a.permitEach peers now).listing = a.listing := by
  rw [permitEach_eq]
  rfl

theorem listing_channels (a : Allocation) (channels : ChannelTable) :
    { a with channels := channels }.listing = a.listing := rfl

end Allocation

/-- The allocations of an endpoint by client, as far as the host has been told. -/
abbrev Roster := Dictionary TransportAddress Listing

namespace Roster

/-- The roster after one more event. There is none if an allocation is announced for a client that has
one, or the end of one that is not listed for this user. -/
def hear (roster : Roster) : Event → Option Roster
  | .allocated client user port =>
    if (roster.get? client).isSome then none else some (roster.insert client ⟨user, port⟩)
  | .aborted client user =>
    if (roster.get? client).any (·.user = user) then some (roster.erase client) else none
  | _ => some roster

def hearAll (roster : Roster) (events : List Event) : Option Roster := events.foldlM hear roster

def ofLog : List Record → Option Roster
  | [] => some ∅
  | r :: older => do hearAll (← ofLog older) r.events

variable {roster : Roster} {s : Site} {now : Nat} {a : Allocation}

theorem hear_of_not_turns {event : Event} (h : ∀ client, ¬ event.Turns client) :
    roster.hear event = some roster := by
  cases event with
  | allocated client _ _ => exact absurd rfl (h client)
  | aborted client _ => exact absurd rfl (h client)
  | passwordAsked _ _ => rfl
  | bindingAnswered _ => rfl
  | refreshed _ _ _ => rfl
  | permitted _ _ _ => rfl
  | channelBound _ _ _ => rfl

theorem hearAll_append (roster : Roster) (first second : List Event) :
    roster.hearAll (first ++ second) = (roster.hearAll first).bind (hearAll · second) :=
  List.foldlM_append ..

theorem hearAll_of_not_turns {events : List Event} (h : ∀ event ∈ events, ∀ client, ¬ event.Turns client) :
    roster.hearAll events = some roster := by
  induction events with
  | nil => rfl
  | cons event events ih =>
    rw [hearAll, List.foldlM_cons, hear_of_not_turns (h event List.mem_cons_self)]
    exact ih fun other hother => h other (List.mem_cons_of_mem _ hother)

theorem hearAll_aborts {gone : List Allocation} (hnodup : (gone.map (·.tuple.client)).Nodup)
    (hlisted : ∀ a ∈ gone, roster.get? a.tuple.client = some a.listing) :
    ∃ later, roster.hearAll (gone.map fun a => .aborted a.tuple.client a.username) = some later ∧
      ∀ client, later.get? client =
        if client ∈ gone.map (·.tuple.client) then none else roster.get? client := by
  induction gone generalizing roster with
  | nil => exact ⟨roster, rfl, fun client => by simp⟩
  | cons a gone ih =>
    -- to hear one end leaves the other clients listed
    obtain ⟨hnot, hnodup⟩ := List.nodup_cons.1 hnodup
    have hhear : roster.hear (.aborted a.tuple.client a.username) =
        some (roster.erase a.tuple.client) := by
      simp [hear, hlisted a List.mem_cons_self, Allocation.listing]
    have hrest : ∀ b ∈ gone, (roster.erase a.tuple.client).get? b.tuple.client = some b.listing := by
      intro b hb
      have hne : b.tuple.client ≠ a.tuple.client := fun he => hnot (List.mem_map.2 ⟨b, hb, he⟩)
      rw [Dictionary.get?_erase, if_neg hne]
      exact hlisted b (List.mem_cons_of_mem _ hb)
    obtain ⟨later, hlater, hget⟩ := ih hnodup hrest
    refine ⟨later, ?_, ?_⟩
    · rw [List.map_cons, hearAll, List.foldlM_cons, hhear]
      exact hlater
    · intro client
      rw [hget, Dictionary.get?_erase]
      by_cases hclient : client = a.tuple.client <;> simp [hclient]

structure Lists (roster : Roster) (s : Site) : Prop where
  get?_eq : ∀ client, roster.get? client =
    (s.endpoint.table.allocations.get? (s.endpoint.tuple client)).map (·.listing)
  created_eq : s.endpoint.stats.created = s.endpoint.stats.removed + s.endpoint.table.size

end Roster

namespace Site

variable {random : Randomness} {s t u : Site} {now : Nat} {tuple : FiveTuple} {a b : Allocation}
  {events later : List Event}

/-- Whoever has the roster of `s` and hears `events` has the roster of `t`. -/
def Tells (s : Site) (events : List Event) (t : Site) : Prop :=
  ∀ roster : Roster, roster.Lists s → ∃ later, roster.hearAll events = some later ∧ later.Lists t

theorem Tells.refl (s : Site) : s.Tells [] s := fun roster h => ⟨roster, rfl, h⟩

theorem Tells.trans (first : s.Tells events t) (second : t.Tells later u) :
    s.Tells (events ++ later) u := by
  intro roster h
  obtain ⟨middle, hmiddle, hlists⟩ := first roster h
  obtain ⟨final, hfinal, hlists⟩ := second middle hlists
  refine ⟨final, ?_, hlists⟩
  rw [Roster.hearAll_append, hmiddle]
  exact hfinal

theorem Tells.quiet (h : s.Tells events t) (hquiet : ∀ event ∈ later, ∀ client, ¬ event.Turns client) :
    s.Tells (events ++ later) t :=
  h.trans fun roster hlists => ⟨roster, Roster.hearAll_of_not_turns hquiet, hlists⟩

theorem Tells.quiet_cons (h : s.Tells events t) {event : Event} (hquiet : ∀ client, ¬ event.Turns client) :
    s.Tells (events ++ [event]) t :=
  h.quiet fun _ hmem => List.mem_singleton.1 hmem ▸ hquiet

theorem Tells.congr (h : s.Tells events t) (htuple : u.endpoint.interface = t.endpoint.interface)
    (hlisting : ∀ tuple, (u.endpoint.table.allocations.get? tuple).map (·.listing) =
      (t.endpoint.table.allocations.get? tuple).map (·.listing))
    (hsize : u.endpoint.table.size = t.endpoint.table.size)
    (hcreated : u.endpoint.stats.created = t.endpoint.stats.created)
    (hremoved : u.endpoint.stats.removed = t.endpoint.stats.removed) : s.Tells events u := by
  intro roster hs
  obtain ⟨later, hlater, ht⟩ := h roster hs
  refine ⟨later, hlater, ?_, ?_⟩
  · intro client
    rw [ht.get?_eq, hlisting, Endpoint.tuple, Endpoint.tuple, htuple]
  · rw [hcreated, hremoved, hsize, ht.created_eq]

theorem Tells.countRelayed (h : s.Tells events t) (data : Bytes) : s.Tells events (t.countRelayed data) :=
  h.congr rfl (fun _ => rfl) rfl rfl rfl

theorem Tells.put (h : s.Tells events t) (ha : t.endpoint.table.allocations.get? tuple = some a)
    (hlisting : b.listing = a.listing) :
    s.Tells events (t.setTable (t.endpoint.table.put tuple b)) := by
  refine h.congr rfl ?_ ?_ rfl rfl
  · intro other
    change ((t.endpoint.table.put tuple b).allocations.get? other).map _ = _
    rw [AllocationTable.get?_put]
    by_cases hother : other = tuple
    · rw [if_pos hother, hother, ha, Option.map_some, Option.map_some, hlisting]
    · rw [if_neg hother]
  · apply (Dictionary.size_insert ..).trans
    rw [ha]
    rfl

theorem nodup_evicted (hs : s.Sound) (chosen : FiveTuple → Allocation → Bool) :
    ((s.holdings.evict chosen).1.map (·.tuple.client)).Nodup := by
  have hentry : ∀ e ∈ (s.holdings.table.allocations.filter chosen).entries,
      s.endpoint.table.allocations.get? e.1 = some e.2 := by
    intro e he
    exact Dictionary.get?_eq_some_iff.2 (List.mem_filter.1 he).1
  have hkeys := (s.holdings.table.allocations.filter chosen).nodup
  simp only [Holdings.evict, Dictionary.values, List.map_map]
  rw [List.nodup_iff_pairwise_ne, List.pairwise_map] at hkeys ⊢
  refine hkeys.imp_of_mem ?_
  intro e f he hf hne hclient
  have he := hentry e he
  have hf := hentry f hf
  apply hne
  rw [hs.own he, hs.own hf, ← (hs.holdings.wellFormed.fits he).tuple_eq,
    ← (hs.holdings.wellFormed.fits hf).tuple_eq]
  exact congrArg s.endpoint.tuple hclient

theorem stored_of_mem_evict (hs : s.Sound) {chosen : FiveTuple → Allocation → Bool}
    (ha : a ∈ (s.holdings.evict chosen).1) :
    s.endpoint.table.allocations.get? (s.endpoint.tuple a.tuple.client) = some a ∧
      chosen (s.endpoint.tuple a.tuple.client) a = true := by
  obtain ⟨tuple, hstored, hchosen⟩ := Holdings.mem_evict.1 ha
  have htuple : a.tuple = tuple := (hs.holdings.wellFormed.fits hstored).tuple_eq
  rw [htuple, ← hs.own hstored]
  exact ⟨hstored, hchosen⟩

theorem mem_clients_evict_iff (hs : s.Sound) {chosen : FiveTuple → Allocation → Bool}
    {client : TransportAddress}
    (ha : s.endpoint.table.allocations.get? (s.endpoint.tuple client) = some a) :
    client ∈ (s.holdings.evict chosen).1.map (·.tuple.client) ↔
      chosen (s.endpoint.tuple client) a = true := by
  constructor
  · intro hclient
    obtain ⟨b, hb, rfl⟩ := List.mem_map.1 hclient
    obtain ⟨hstored, hchosen⟩ := stored_of_mem_evict hs hb
    obtain rfl : a = b := Option.some.inj (ha.symm.trans hstored)
    exact hchosen
  · intro hchosen
    refine List.mem_map.2 ⟨a, Holdings.mem_evict.2 ⟨_, ha, hchosen⟩, ?_⟩
    rw [(hs.holdings.wellFormed.fits ha).tuple_eq]
    rfl

theorem tells_abort (hs : s.Sound) (chosen : FiveTuple → Allocation → Bool) :
    s.Tells ((s.holdings.evict chosen).1.map fun a => .aborted a.tuple.client a.username)
      ((s.setHoldings (s.holdings.evict chosen).2).abort (s.holdings.evict chosen).1).2 := by
  intro roster h
  have hlisted : ∀ a ∈ (s.holdings.evict chosen).1, roster.get? a.tuple.client = some a.listing := by
    intro a ha
    rw [h.get?_eq, (stored_of_mem_evict hs ha).1]
    rfl
  obtain ⟨later, hlater, hget⟩ := Roster.hearAll_aborts (nodup_evicted hs chosen) hlisted
  refine ⟨later, hlater, ?_, ?_⟩
  · intro client
    have hafter : (s.holdings.evict chosen).2.table.allocations.get? (s.endpoint.tuple client) =
        (s.endpoint.table.allocations.get? (s.endpoint.tuple client)).filter
          (!chosen (s.endpoint.tuple client) ·) := Holdings.get?_evict ..
    apply (hget client).trans
    apply Eq.trans _ (congrArg (Option.map _) hafter.symm)
    rw [h.get?_eq]
    cases hentry : s.endpoint.table.allocations.get? (s.endpoint.tuple client) with
    | none => exact ite_self _
    | some a =>
      simp only [mem_clients_evict_iff hs hentry]
      by_cases hchosen : chosen (s.endpoint.tuple client) a = true <;> simp [Option.filter, hchosen]
  · have hsize : (s.holdings.evict chosen).2.table.size + (s.holdings.evict chosen).1.length =
        s.endpoint.table.size := Holdings.size_evict ..
    change s.endpoint.stats.created = s.endpoint.stats.removed + (s.holdings.evict chosen).1.length +
      (s.holdings.evict chosen).2.table.size
    rw [h.created_eq]
    omega

theorem tells_reaped (hs : s.Sound) (now : Nat) : s.Tells (s.expiries now) (s.reaped now) := by
  refine (tells_abort hs fun _ a => a.isExpired now).congr rfl ?_ (List.length_map _) rfl rfl
  intro tuple
  have hswept : (s.reaped now).endpoint.table.allocations.get? tuple =
      ((s.holdings.evict fun _ a => a.isExpired now).2.table.allocations.get? tuple).map
        (·.sweep now) := Dictionary.get?_map ..
  rw [hswept, Option.map_map]
  rfl

theorem tells_removed (hs : s.Sound) {source : TransportAddress}
    (ha : s.endpoint.table.allocations.get? (s.endpoint.tuple source) = some a) :
    s.Tells [.aborted source a.username]
      ((s.setHoldings (s.holdings.remove (s.endpoint.tuple source)).2).count
        fun stats => { stats with removed := stats.removed + 1 }) := by
  have h := tells_abort hs fun t _ => t = s.endpoint.tuple source
  have hgone : (s.holdings.evict fun t _ => t = s.endpoint.tuple source).1 = [a] :=
    Holdings.evict_tuple ha
  rw [hgone] at h
  have htuple : a.tuple = s.endpoint.tuple source := (hs.holdings.wellFormed.fits ha).tuple_eq
  simp only [List.map_cons, List.map_nil, htuple] at h
  exact h

theorem tells_granted {source : TransportAddress} {user : String} {port : UInt16} {pool : PortPool}
    {draws : Draws} {lifetime : Nat}
    (hnone : s.endpoint.table.allocations.get? (s.endpoint.tuple source) = none) :
    s.Tells [.allocated source user port]
      (({ s.setHoldings (s.holdings.grant (s.endpoint.tuple source) user port pool lifetime now) with
        draws := draws }).count fun stats => { stats with created := stats.created + 1 }) := by
  intro roster h
  have habsent : roster.get? source = none := by rw [h.get?_eq, hnone]; rfl
  refine ⟨roster.insert source ⟨user, port⟩, ?_, ?_, ?_⟩
  · simp [Roster.hearAll, Roster.hear, habsent]
  · intro client
    change _ = ((s.holdings.grant (s.endpoint.tuple source) user port pool lifetime
      now).table.allocations.get? (s.endpoint.tuple client)).map _
    rw [Dictionary.get?_insert, Holdings.get?_grant]
    by_cases hclient : client = source
    · simp [hclient, Allocation.listing]
    · have hne : s.endpoint.tuple client ≠ s.endpoint.tuple source := fun he =>
        hclient (congrArg FiveTuple.client he)
      rw [if_neg hclient, if_neg hne]
      exact h.get?_eq client
  · have hsize : (s.holdings.grant (s.endpoint.tuple source) user port pool lifetime now).table.size =
        s.endpoint.table.size + 1 := by
      apply (Dictionary.size_insert ..).trans
      rw [show s.holdings.table.allocations.get? (s.endpoint.tuple source) = none from hnone]
      rfl
    change s.endpoint.stats.created + 1 = s.endpoint.stats.removed + (s.holdings.grant
      (s.endpoint.tuple source) user port pool lifetime now).table.size
    rw [hsize, h.created_eq]
    omega

variable {raw : Bytes} {source : TransportAddress} {user : String} {lookup : Lookup}
  {password : Option String}

theorem Received.tells {step : Step Progress} (h : Received s raw source now step) (hs : s.Sound) :
    s.Tells step.events step.site := by
  have hopened : s.Tells (s.expiries now) (s.opened now) :=
    (tells_reaped hs now).congr rfl (fun _ => rfl) rfl rfl rfl
  cases h with
  | answered _ _ => exact hopened.quiet_cons fun _ => id
  | dropped => exact hopened
  | refused e => exact hopened.congr rfl (fun _ => rfl) rfl rfl rfl
  | waiting _ _ _ _ => exact hopened.quiet_cons fun _ => id
  | sent _ _ _ _ hfind _ =>
    have ha := (AllocationTable.find?_eq_some_iff.1 hfind).1
    exact (hopened.put ha (Allocation.listing_permit ..)).countRelayed _
  | forwarded _ _ _ _ => exact hopened.countRelayed _

theorem Executed.tells {command : Command} {step : Step (Except PacketError (List Attribute))}
    (h : Executed random s source user now command step) (hs : s.Sound) :
    s.Tells step.events step.site := by
  have hreaped := tells_reaped hs now
  have hsame := Tells.refl s
  cases h with
  | created hnone _ => exact hreaped.trans (tells_granted hnone)
  | extended ha _ => exact (hreaped.put ha (Allocation.listing_extend ..)).quiet_cons fun _ => id
  | occupied _ _ => exact hreaped
  | exhausted _ _ => exact hreaped.congr rfl (fun _ => rfl) rfl rfl rfl
  | disowned _ _ => exact hsame
  | renewed _ howned =>
    have ha := (AllocationTable.stored_of_owned howned).1
    exact (hsame.put ha (Allocation.listing_extend ..)).quiet_cons fun _ => id
  | deleted howned =>
    obtain ⟨ha, rfl⟩ := AllocationTable.stored_of_owned howned
    exact tells_removed hs ha
  | permitted _ howned =>
    have ha := (AllocationTable.stored_of_owned howned).1
    refine (hsame.put ha (Allocation.listing_permitEach ..)).quiet ?_
    intro event hevent client
    obtain ⟨peer, _, rfl⟩ := List.mem_map.1 hevent
    exact id
  | bound howned _ =>
    have ha := (AllocationTable.stored_of_owned howned).1
    refine (hsame.put ha ?_).quiet_cons ?_
    · exact (Allocation.listing_permit ..).trans (Allocation.listing_channels ..)
    · exact fun _ => id
  | unbound howned _ =>
    have ha := (AllocationTable.stored_of_owned howned).1
    exact hsame.put ha (Allocation.listing_channels ..)

theorem Tells.settled {step : Step Answer} (h : s.Tells step.events step.site) :
    s.Tells step.settled.events step.settled.site := by
  unfold Step.settled
  split
  · exact h
  · exact h.congr rfl (fun _ => rfl) rfl rfl rfl

theorem Resumed.tells {step : Step Answer} (h : Resumed random s lookup password now step)
    (hs : s.Sound) : s.Tells step.events step.site := by
  cases h with
  | refused e => exact (Tells.refl s).congr rfl (fun _ => rfl) rfl rfl rfl
  | executed _ _ hexecuted => exact (hexecuted.tells hs).settled

theorem Delivered.tells {port : UInt16} {peer : TransportAddress} {payload : Bytes}
    {step : Step (Option Response)} (h : Delivered random s port peer payload now step) (hs : s.Sound) :
    s.Tells step.events step.site := by
  cases h with
  | oversize => exact .refl s
  | dropped => exact (tells_reaped hs now).congr rfl (fun _ => rfl) rfl rfl rfl
  | delivered _ _ => exact (tells_reaped hs now).congr rfl (fun _ => rfl) rfl rfl rfl

theorem Served.tells {call : Call} {step : Step Outcome} (h : Served random s now call step)
    (hs : s.Sound) : s.Tells step.events step.site := by
  cases h with
  | received h => exact h.tells hs
  | resumed h => exact h.tells hs
  | delivered h => exact h.tells hs
  | rejected => exact (Tells.refl s).congr rfl (fun _ => rfl) rfl rfl rfl
  | stopped => exact tells_abort hs fun _ _ => true

theorem Received.origin {step : Step Progress} {route : Route} (h : Received s raw source now step)
    (hroute : (Outcome.progress step.result).route? = some route) :
    ∃ a, step.site.endpoint.table.allocations.get? (s.endpoint.tuple source) = some a ∧
      a.relay = route.origin := by
  cases h with
  | answered _ _ => cases hroute
  | dropped => cases hroute
  | refused e => cases hroute
  | waiting _ _ _ _ => cases hroute
  | @sent _ peer _ a _ _ _ _ hfind _ =>
    cases hroute
    exact ⟨a.permit peer.ip now, AllocationTable.get?_put_self .., rfl⟩
  | @forwarded _ _ a _ hfind _ _ =>
    cases hroute
    exact ⟨a, (AllocationTable.find?_eq_some_iff.1 hfind).1, rfl⟩

theorem Delivered.destination {port : UInt16} {peer : TransportAddress} {payload : Bytes}
    {response : Response} {step : Step (Option Response)}
    (h : Delivered random s port peer payload now step) (hs : s.Sound)
    (hresponse : step.result = some response) :
    ∃ client a, response.route = some ⟨client, s.endpoint.interface⟩ ∧
      step.site.endpoint.table.allocations.get? (s.endpoint.tuple client) = some a ∧
      a.relay.port = port := by
  cases h with
  | oversize => cases hresponse
  | dropped => cases hresponse
  | @delivered b _ _ _ hfind _ =>
    cases hresponse
    exact ⟨b.tuple.client, b, rfl, stored_of_findByPort? hs hfind⟩

end Site

structure Record.Follows (r : Record) (endpoint : Endpoint) (roster : Roster) : Prop where
  inward : ∀ {port : UInt16} {peer : TransportAddress} {payload : Bytes} {response : Response},
    r.call = .deliver port peer payload → r.outcome = .response (some response) →
      ∃ client user, response.route = some ⟨client, endpoint.interface⟩ ∧
        ∀ other listing, roster.get? other = some listing ∧ listing.port = port ↔
          other = client ∧ listing = ⟨user, port⟩
  outward : ∀ {raw : Bytes} {source : TransportAddress} {route : Route}, r.call = .receive raw source →
    r.outcome.route? = some route →
      ∃ user port, roster.get? source = some ⟨user, port⟩ ∧
        route.origin = endpoint.external.ip.withPort port

namespace Site

variable {random : Randomness} {s : Site} {now : Nat} {call : Call} {step : Step Outcome}
  {roster : Roster}

theorem listed_iff (hlists : roster.Lists s) (hs : s.Sound) {client other : TransportAddress}
    {listing : Listing} {a : Allocation}
    (ha : s.endpoint.table.allocations.get? (s.endpoint.tuple client) = some a) :
    roster.get? other = some listing ∧ listing.port = a.relay.port ↔
      other = client ∧ listing = a.listing := by
  rw [hlists.get?_eq, Option.map_eq_some_iff]
  constructor
  · rintro ⟨⟨b, hb, rfl⟩, hport⟩
    have htuple := hs.holdings.wellFormed.tuple_unique hb ha hport
    obtain rfl : other = client := congrArg FiveTuple.client htuple
    obtain rfl : a = b := Option.some.inj (ha.symm.trans hb)
    exact ⟨rfl, rfl⟩
  · rintro ⟨rfl, rfl⟩
    exact ⟨⟨a, ha, rfl⟩, rfl⟩

theorem Served.follows (h : Served random s now call step) (hs : s.Sound)
    (hlists : roster.Lists step.site) :
    Record.Follows ⟨now, call, step.result, step.events⟩ step.site.endpoint roster := by
  have hafter := h.sound hs
  have htuple := tuple_eq_of_identity h.identity
  have hinterface : step.site.endpoint.interface = s.endpoint.interface := congrArg (·.1) h.identity
  constructor
  · intro port peer payload response hcall houtcome
    cases hcall
    cases h with
    | delivered h =>
      obtain ⟨client, a, hroute, ha, rfl⟩ := h.destination hs (Outcome.response.inj houtcome)
      refine ⟨client, a.username, hinterface ▸ hroute, fun other listing => ?_⟩
      exact listed_iff hlists hafter ((congrArg _ (htuple client)).trans ha)
  · intro raw source route hcall hroute
    cases hcall
    cases h with
    | received h =>
      obtain ⟨a, ha, horigin⟩ := h.origin hroute
      have ha := (congrArg _ (htuple source)).trans ha
      refine ⟨a.username, a.relay.port, ?_, horigin ▸ hafter.relay_eq ha⟩
      exact (hlists.get?_eq source).trans (congrArg (Option.map _) ha)

end Site

/-- A host that hears every event of a run has, after each call, exactly the stored allocations in its
roster; the counters differ by their number, and the last call relayed data as the roster says. -/
theorem Run.roster_agrees {random : Randomness} {log : List Record} {m : Moment}
    (h : Run random log m) :
    ∃ roster, Roster.ofLog log = some roster ∧ roster.Lists m.site ∧
      (∀ {tuple a}, m.site.endpoint.table.allocations.get? tuple = some a →
        tuple = m.site.endpoint.tuple tuple.client) ∧
      ∀ r ∈ log.head?, r.Follows m.site.endpoint roster := by
  induction h with
  | start _ =>
    refine ⟨∅, rfl, ⟨fun _ => rfl, rfl⟩, ?_, ?_⟩
    · intro tuple a ha
      cases ha
    · intro r hr
      cases hr
  -- neither time nor what others do with their ports raises an event
  | wait _ _ ih => exact ih
  | share _ _ _ _ ih =>
    obtain ⟨roster, hlog, hlists, hown, hfollows⟩ := ih
    exact ⟨roster, hlog, ⟨hlists.get?_eq, hlists.created_eq⟩, hown, hfollows⟩
  | @serve log m call hrun _ ih =>
    obtain ⟨roster, hlog, hlists, _, _⟩ := ih
    have hserved := Site.serve_spec random m.site m.now call
    have hs := hrun.sound.site
    obtain ⟨later, hlater, hlists⟩ := hserved.tells hs roster hlists
    refine ⟨later, ?_, hlists, (hserved.sound hs).own, ?_⟩
    · rw [Roster.ofLog, hlog]
      exact hlater
    · intro r hr
      obtain rfl := Option.some.inj hr
      exact hserved.follows hs hlists

namespace Sample

def sending : Call := .receive indication client

def sent : Moment := permitted.serve random sending

end Sample

theorem roster_agrees_sample :
    Sample.start.Plays Sample.random Sample.calls ∧
      ∃ roster user port,
        Roster.ofLog (Sample.permitted.record Sample.random Sample.sending ::
          Sample.start.records Sample.random Sample.calls []) = some roster ∧
        roster.Lists Sample.sent.site ∧ roster.get? Sample.client = some ⟨user, port⟩ ∧
        .v4 0xCB007101 49152 = Sample.sent.site.endpoint.external.ip.withPort port := by
  have hfits : Sample.sending.Fits Sample.permitted.waiting := trivial
  obtain ⟨roster, hlog, hlists, _, hfollows⟩ := Run.roster_agrees (Sample.run_permitted.serve hfits)
  obtain ⟨user, port, hget, horigin⟩ := (hfollows _ rfl).outward rfl Sample.route?_indication
  exact ⟨Sample.plays_calls, roster, user, port, hlog, hlists, hget, horigin⟩

end TurnRelay
