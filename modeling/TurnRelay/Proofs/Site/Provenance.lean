import TurnRelay.Proofs.Site.History

namespace TurnRelay

structure Allocation.Continues (a b : Allocation) : Prop where
  created_eq : b.created = a.created
  username_eq : b.username = a.username
  relay_eq : b.relay = a.relay
  lifetime_eq : b.permissions.lifetime = a.permissions.lifetime

theorem Allocation.Continues.refl (a : Allocation) : a.Continues a := ⟨rfl, rfl, rfl, rfl⟩

theorem Allocation.Continues.sweep (a : Allocation) (now : Nat) : a.Continues (a.sweep now) :=
  ⟨rfl, rfl, rfl, rfl⟩

inductive Carried (realm : String) (client : TransportAddress) (a b : Allocation) (r : Record)
    (ip : IpAddress) : Prop
  | renewed : r.Renews realm client ip →
      b.permissions.get? ip = some (r.time + a.permissions.lifetime) →
      (∃ peer, r.Grants realm client a.username peer ∧ peer.ip = ip ∧ ip.family = a.relay.ip.family) ∨
        (∃ ends, a.permissions.get? ip = some ends) → Carried realm client a b r ip
  | carried : ¬ r.Renews realm client ip →
      (∀ ends, b.permissions.get? ip = some ends → a.permissions.get? ip = some ends) →
      Carried realm client a b r ip

/-- Where the entry `b` of a client comes from, in a call that is recorded as `r`. -/
inductive Traced (realm : String) (client : TransportAddress) (before : Option Allocation)
    (b : Allocation) (r : Record) : Prop
  | fresh : r.Creates client b → (∀ ip, b.permissions.get? ip = none) →
      Traced realm client before b r
  | kept {a : Allocation} : before = some a → a.Continues b → r.Keeps client →
      (∀ ip, Carried realm client a b r ip) → Traced realm client before b r

namespace Site

variable {random : Randomness} {s : Site} {source client : TransportAddress} {user : String}
  {now : Nat} {realm : String} {a b : Allocation} {r : Record}

theorem not_turns_of_mem_expiries (hs : s.Sound)
    (ha : s.endpoint.table.allocations.get? (s.endpoint.tuple client) = some a) (hlive : now < a.ends)
    {event : Event} (hevent : event ∈ s.expiries now) : ¬ event.Turns client := by
  obtain ⟨c, hc, rfl⟩ := List.mem_map.1 hevent
  obtain ⟨tuple, hstored, hexpired⟩ := Holdings.mem_evict.1 hc
  have htuple : c.tuple = tuple := (hs.holdings.wellFormed.fits hstored).tuple_eq
  intro hturns
  have hclient : tuple.client = client := htuple ▸ hturns
  have hown : tuple = s.endpoint.tuple client := hclient ▸ hs.own hstored
  subst hown
  obtain rfl : a = c := Option.some.inj (ha.symm.trans hstored)
  exact absurd (Allocation.isExpired_eq_true_iff.1 hexpired) (Nat.not_le.2 hlive)

theorem not_permits_of_mem_expiries {event : Event} (hevent : event ∈ s.expiries now) :
    ¬ event.Permits client := by
  obtain ⟨c, _, rfl⟩ := List.mem_map.1 hevent
  exact id

theorem traced_untouched
    (hb : s.endpoint.table.allocations.get? (s.endpoint.tuple client) = some b) (hkeeps : r.Keeps client)
    (hquiet : ∀ ip, ¬ r.Renews realm client ip) :
    Traced realm client (s.endpoint.table.allocations.get? (s.endpoint.tuple client)) b r :=
  .kept hb (.refl b) hkeeps fun ip => .carried (hquiet ip) fun _ h => h

theorem traced_idle {call : Call} {outcome : Outcome} (hcall : ∀ raw source, call ≠ .receive raw source)
    (hb : s.endpoint.table.allocations.get? (s.endpoint.tuple client) = some b) :
    Traced realm client (s.endpoint.table.allocations.get? (s.endpoint.tuple client)) b
      ⟨now, call, outcome, []⟩ := by
  apply traced_untouched hb fun _ hevent => absurd hevent List.not_mem_nil
  intro ip
  apply Record.not_renews fun _ hevent => absurd hevent List.not_mem_nil
  exact fun raw hsame => absurd hsame (hcall raw client)

theorem traced_reaped (hs : s.Sound)
    (hb : Holdings.kept now (s.endpoint.table.allocations.get? (s.endpoint.tuple client)) = some b)
    (hkeeps : ∀ event ∈ r.events, event.Turns client → event ∈ s.expiries now)
    (hquiet : ∀ ip, ¬ r.Renews realm client ip) :
    Traced realm client (s.endpoint.table.allocations.get? (s.endpoint.tuple client)) b r := by
  obtain ⟨a, ha, hlive, rfl⟩ := Holdings.kept_eq_some_iff.1 hb
  refine .kept ha (.sweep a now) ?_ fun ip => .carried (hquiet ip) fun _ h => (Allocation.get?_sweep.1 h).1
  intro event hevent hturns
  exact not_turns_of_mem_expiries hs ha hlive (hkeeps event hevent hturns) hturns

theorem turns_of_mem_append {last event : Event} (hlast : ¬ last.Turns client)
    (hevent : event ∈ s.expiries now ++ [last]) (hturns : event.Turns client) :
    event ∈ s.expiries now := by
  rcases List.mem_append.1 hevent with hmem | hmem
  · exact hmem
  · exact absurd (List.mem_singleton.1 hmem ▸ hturns) hlast

theorem not_permits_of_mem_append {last event : Event} (hlast : ¬ last.Permits client)
    (hevent : event ∈ s.expiries now ++ [last]) : ¬ event.Permits client := by
  rcases List.mem_append.1 hevent with hmem | hmem
  · exact not_permits_of_mem_expiries hmem
  · exact List.mem_singleton.1 hmem ▸ hlast

theorem traced_sent (hs : s.Sound) {raw : Bytes} {m : Message} {peer origin : TransportAddress}
    {outcome : Outcome} (hdecode : Packet.decode raw = .ok (.message m))
    (htype : m.type = ⟨.send, .indication⟩) (hpeer : m.peers.head? = some peer)
    (hfind : (s.opened now).endpoint.find? source now = some a)
    (hpermitted : a.isPermitted peer.ip now = true) (hroute : outcome.route? = some ⟨peer, origin⟩) :
    Traced realm source (s.endpoint.table.allocations.get? (s.endpoint.tuple source))
      (a.permit peer.ip now) ⟨now, .receive raw source, outcome, s.expiries now⟩ := by
  have hkept := (AllocationTable.find?_eq_some_iff.1 hfind).1
  have hstored := (get?_opened s now (s.endpoint.tuple source)).symm.trans hkept
  obtain ⟨c, hc, hlive, rfl⟩ := Holdings.kept_eq_some_iff.1 hstored
  refine .kept hc ⟨rfl, rfl, rfl, rfl⟩ (fun event hevent => not_turns_of_mem_expiries hs hc hlive hevent) ?_
  intro ip
  by_cases hip : ip = peer.ip
  · refine .renewed (.sent rfl hdecode htype hpeer hroute hip.symm) ?_ (.inr ?_)
    · rw [Allocation.get?_permit, if_pos hip]
      rfl
    · rw [hip]
      obtain ⟨ends, hends, _⟩ := Option.any_eq_true _ _ |>.1 hpermitted
      exact ⟨ends, (Allocation.get?_sweep.1 hends).1⟩
  · apply Carried.carried
    · intro hrenews
      cases hrenews with
      | granted hgrants _ =>
        obtain ⟨event, hmem, hpermits⟩ := hgrants.permits
        exact not_permits_of_mem_expiries hmem hpermits
      | sent hcall hdecode' _ hpeer' _ hip' =>
        cases hcall
        cases hdecode.symm.trans hdecode'
        cases hpeer.symm.trans hpeer'
        exact hip hip'.symm
    · intro ends hends
      rw [Allocation.get?_permit, if_neg hip] at hends
      exact (Allocation.get?_sweep.1 hends).1

theorem Received.traced {raw : Bytes} {step : Step Progress} (h : Received s raw source now step)
    (hs : s.Sound)
    (hb : step.site.endpoint.table.allocations.get? (s.endpoint.tuple client) = some b) :
    Traced realm client (s.endpoint.table.allocations.get? (s.endpoint.tuple client)) b
      ⟨now, .receive raw source, .progress step.result, step.events⟩ := by
  have hreaped := get?_opened s now (s.endpoint.tuple client)
  cases h with
  | answered _ _ =>
    apply traced_reaped hs (hreaped.symm.trans hb)
    · exact fun event => turns_of_mem_append id
    · exact fun ip => Record.not_renews (fun event => not_permits_of_mem_append id) fun _ _ => rfl
  | dropped =>
    apply traced_reaped hs (hreaped.symm.trans hb)
    · exact fun event hevent _ => hevent
    · exact fun ip => Record.not_renews (fun event => not_permits_of_mem_expiries) fun _ _ => rfl
  | refused e =>
    apply traced_reaped hs (hreaped.symm.trans hb)
    · exact fun event hevent _ => hevent
    · exact fun ip => Record.not_renews (fun event => not_permits_of_mem_expiries) fun _ _ => rfl
  | waiting _ _ _ _ =>
    apply traced_reaped hs (hreaped.symm.trans hb)
    · exact fun event => turns_of_mem_append id
    · exact fun ip => Record.not_renews (fun event => not_permits_of_mem_append id) fun _ _ => rfl
  | sent hdecode htype hpeer _ hfind hpermitted =>
    by_cases hclient : client = source
    · subst hclient
      have hput := (AllocationTable.get?_put ..).symm.trans hb
      rw [if_pos rfl] at hput
      cases hput
      exact traced_sent hs hdecode htype hpeer hfind hpermitted rfl
    · have hne : s.endpoint.tuple client ≠ s.endpoint.tuple source := fun he =>
        hclient (congrArg FiveTuple.client he)
      apply traced_reaped hs (hreaped.symm.trans ((get?_put_other hne).symm.trans hb))
      · exact fun event hevent _ => hevent
      · refine fun ip => Record.not_renews (fun event => not_permits_of_mem_expiries) fun raw' hcall => ?_
        cases hcall
        exact absurd rfl hclient
  | forwarded hdecode _ _ _ =>
    apply traced_reaped hs (hreaped.symm.trans hb)
    · exact fun event hevent _ => hevent
    · intro ip hrenews
      cases hrenews with
      | granted hgrants _ =>
        obtain ⟨event, hmem, hpermits⟩ := hgrants.permits
        exact not_permits_of_mem_expiries hmem hpermits
      | sent hcall hdecode' _ _ _ _ =>
        cases hcall
        cases hdecode.symm.trans hdecode'

variable {command : Command} {step : Step (Except PacketError (List Attribute))} {lookup : Lookup}
  {password : Option String} {outcome : Outcome}

theorem Executed.source_of_permits (h : Executed random s source user now command step) {event : Event}
    (hevent : event ∈ step.events) (hpermits : event.Permits client) : source = client := by
  cases h with
  | created _ _ => exact absurd hpermits (not_permits_of_mem_append id hevent)
  | extended _ _ => exact absurd hpermits (not_permits_of_mem_append id hevent)
  | occupied _ _ => exact absurd hpermits (not_permits_of_mem_expiries hevent)
  | exhausted _ _ => exact absurd hpermits (not_permits_of_mem_expiries hevent)
  | disowned _ _ => cases hevent
  | renewed _ _ => cases List.mem_singleton.1 hevent; cases hpermits
  | deleted _ => cases List.mem_singleton.1 hevent; cases hpermits
  | permitted _ _ =>
    obtain ⟨peer, _, rfl⟩ := List.mem_map.1 hevent
    exact hpermits
  | bound _ _ => cases List.mem_singleton.1 hevent; exact hpermits
  | unbound _ _ => cases hevent

theorem Executed.traced_other (h : Executed random s lookup.source user now command step) (hs : s.Sound)
    (hclient : client ≠ lookup.source)
    (hb : step.site.endpoint.table.allocations.get? (s.endpoint.tuple client) = some b) :
    Traced realm client (s.endpoint.table.allocations.get? (s.endpoint.tuple client)) b
      ⟨now, .resume lookup password, outcome, step.events⟩ := by
  have hne : s.endpoint.tuple client ≠ s.endpoint.tuple lookup.source := fun he =>
    hclient (congrArg FiveTuple.client he)
  have hreaped := get?_reaped s now (s.endpoint.tuple client)
  have hquiet : ∀ ip, ¬ Record.Renews realm client ip
      ⟨now, .resume lookup password, outcome, step.events⟩ := fun ip =>
    Record.not_renews (fun _ hevent hpermits => hclient (h.source_of_permits hevent hpermits).symm)
      fun _ hcall => nomatch hcall
  cases h with
  | created _ _ =>
    have hget := ((Dictionary.get?_insert ..).trans (if_neg hne)).symm.trans hb
    apply traced_reaped hs (hreaped.symm.trans hget) _ hquiet
    exact fun event => turns_of_mem_append fun hsame => hclient hsame.symm
  | extended _ _ =>
    apply traced_reaped hs (hreaped.symm.trans ((get?_put_other hne).symm.trans hb)) _ hquiet
    exact fun event => turns_of_mem_append id
  | occupied _ _ => exact traced_reaped hs (hreaped.symm.trans hb) (fun _ hevent _ => hevent) hquiet
  | exhausted _ _ => exact traced_reaped hs (hreaped.symm.trans hb) (fun _ hevent _ => hevent) hquiet
  | disowned _ _ => exact traced_untouched hb (fun _ hevent => absurd hevent List.not_mem_nil) hquiet
  | renewed _ _ =>
    apply traced_untouched ((get?_put_other hne).symm.trans hb) _ hquiet
    exact fun event hevent => List.mem_singleton.1 hevent ▸ id
  | deleted _ =>
    have hget := ((Holdings.get?_remove ..).trans (if_neg hne)).symm.trans hb
    apply traced_untouched hget _ hquiet
    exact fun event hevent => List.mem_singleton.1 hevent ▸ fun hsame => hclient hsame.symm
  | permitted _ _ =>
    apply traced_untouched ((get?_put_other hne).symm.trans hb) _ hquiet
    intro event hevent
    obtain ⟨peer, _, rfl⟩ := List.mem_map.1 hevent
    exact id
  | bound _ _ =>
    apply traced_untouched ((get?_put_other hne).symm.trans hb) _ hquiet
    exact fun event hevent => List.mem_singleton.1 hevent ▸ id
  | unbound _ _ =>
    apply traced_untouched ((get?_put_other hne).symm.trans hb) _ hquiet
    exact fun _ hevent => absurd hevent List.not_mem_nil

theorem traced_permitted (hs : s.Sound)
    (hauth : lookup.Authentic realm password lookup.source lookup.user)
    (htype : lookup.request.type = ⟨.createPermission, .request⟩)
    (ha : s.endpoint.table.allocations.get? (s.endpoint.tuple lookup.source) = some a)
    (huser : a.username = lookup.user)
    (hfamily : ∀ peer ∈ lookup.request.peers, peer.ip.family = s.endpoint.external.ip.family) :
    Traced realm lookup.source (some a) (a.permitEach (lookup.request.peers.map (·.ip)) now)
      ⟨now, .resume lookup password, outcome,
        lookup.request.peers.map (.permitted lookup.source lookup.user)⟩ := by
  have hcontinues : a.Continues (a.permitEach (lookup.request.peers.map (·.ip)) now) := by
    rw [Allocation.permitEach_eq]
    exact ⟨rfl, rfl, rfl, Allocation.lifetime_permitEach ..⟩
  refine .kept rfl hcontinues ?_ fun ip => ?_
  · intro event hevent
    obtain ⟨peer, _, rfl⟩ := List.mem_map.1 hevent
    exact id
  · by_cases hip : ip ∈ lookup.request.peers.map (·.ip)
    · obtain ⟨peer, hpeer, rfl⟩ := List.mem_map.1 hip
      have hgrants : Record.Grants realm lookup.source lookup.user peer ⟨now, .resume lookup password,
          outcome, lookup.request.peers.map (.permitted lookup.source lookup.user)⟩ :=
        .permission rfl hauth htype hpeer (List.mem_map_of_mem hpeer)
      refine .renewed (.granted hgrants rfl) ?_ (.inl ⟨peer, huser ▸ hgrants, rfl, ?_⟩)
      · rw [Allocation.get?_permitEach, if_pos hip]
      · rw [hs.relay_ip ha]
        exact hfamily peer hpeer
    · apply Carried.carried
      · intro hrenews
        cases hrenews with
        | granted hgrants hsame =>
          cases hgrants with
          | permission hcall _ _ hpeer _ =>
            cases hcall
            exact hip (hsame ▸ List.mem_map_of_mem hpeer)
          | channel hcall _ htype' _ _ _ =>
            cases hcall
            cases htype.symm.trans htype'
        | sent hcall _ _ _ _ _ => cases hcall
      · intro ends hends
        rw [Allocation.get?_permitEach, if_neg hip] at hends
        exact hends

theorem traced_bound (hs : s.Sound)
    (hauth : lookup.Authentic realm password lookup.source lookup.user)
    (htype : lookup.request.type = ⟨.channelBind, .request⟩) {number : UInt16} {peer : TransportAddress}
    (hnumber : lookup.request.channelNumber? = some number)
    (hpeer : lookup.request.peers.head? = some peer)
    (ha : s.endpoint.table.allocations.get? (s.endpoint.tuple lookup.source) = some a)
    (huser : a.username = lookup.user) (hfamily : peer.ip.family = s.endpoint.external.ip.family)
    (channels : ChannelTable) :
    Traced realm lookup.source (some a) ({ a with channels := channels }.permit peer.ip now)
      ⟨now, .resume lookup password, outcome, [.channelBound lookup.source lookup.user number]⟩ := by
  refine .kept rfl ⟨rfl, rfl, rfl, rfl⟩ ?_ fun ip => ?_
  · exact fun event hevent => List.mem_singleton.1 hevent ▸ id
  · by_cases hip : ip = peer.ip
    · have hgrants : Record.Grants realm lookup.source lookup.user peer ⟨now, .resume lookup password,
          outcome, [.channelBound lookup.source lookup.user number]⟩ :=
        .channel rfl hauth htype hpeer hnumber (List.mem_singleton.2 rfl)
      refine .renewed (.granted hgrants hip.symm) ?_ (.inl ⟨peer, huser ▸ hgrants, hip.symm, ?_⟩)
      · rw [Allocation.get?_permit, if_pos hip]
      · rw [hs.relay_ip ha, hip]
        exact hfamily
    · apply Carried.carried
      · intro hrenews
        cases hrenews with
        | granted hgrants hsame =>
          cases hgrants with
          | permission hcall _ htype' _ _ =>
            cases hcall
            cases htype.symm.trans htype'
          | channel hcall _ _ hpeer' _ _ =>
            cases hcall
            cases hpeer.symm.trans hpeer'
            exact hip hsame.symm
        | sent hcall _ _ _ _ _ => cases hcall
      · intro ends hends
        rw [Allocation.get?_permit, if_neg hip] at hends
        exact hends

theorem Executed.traced_own (h : Executed random s lookup.source lookup.user now command step)
    (hs : s.Sound) (hauth : lookup.Authentic realm password lookup.source lookup.user)
    (htype : lookup.request.type = procedureType lookup.procedure)
    (hrequested : Command.Requested s.endpoint.config s.endpoint.external.ip lookup.request
      lookup.procedure command)
    (hb : step.site.endpoint.table.allocations.get? (s.endpoint.tuple lookup.source) = some b) :
    Traced realm lookup.source (s.endpoint.table.allocations.get? (s.endpoint.tuple lookup.source)) b
      ⟨now, .resume lookup password, outcome, step.events⟩ := by
  have hreaped := get?_reaped s now (s.endpoint.tuple lookup.source)
  -- the calls that renew nothing: they tell of no permission
  have quiet : ∀ {events : List Event}, (∀ event ∈ events, ¬ event.Permits lookup.source) → ∀ ip,
      ¬ Record.Renews realm lookup.source ip ⟨now, .resume lookup password, outcome, events⟩ :=
    fun hevents ip => Record.not_renews hevents fun _ hcall => nomatch hcall
  cases h with
  | created _ _ =>
    cases (Dictionary.get?_insert_self ..).symm.trans hb
    refine .fresh ⟨rfl, ?_⟩ fun ip => rfl
    simp
  | extended ha _ =>
    cases AllocationTable.eq_of_get?_put hb
    obtain ⟨c, hc, hlive, rfl⟩ := Holdings.kept_eq_some_iff.1 (hreaped.symm.trans ha)
    refine .kept hc ⟨rfl, rfl, rfl, rfl⟩ ?_ fun ip =>
      .carried (quiet (fun event => not_permits_of_mem_append id) ip) ?_
    · intro event hevent hturns
      exact not_turns_of_mem_expiries hs hc hlive (turns_of_mem_append id hevent hturns) hturns
    · exact fun ends hends => (Allocation.get?_sweep.1 hends).1
  | occupied _ _ =>
    exact traced_reaped hs (hreaped.symm.trans hb) (fun _ hevent _ => hevent)
      (quiet fun event => not_permits_of_mem_expiries)
  | exhausted _ _ =>
    exact traced_reaped hs (hreaped.symm.trans hb) (fun _ hevent _ => hevent)
      (quiet fun event => not_permits_of_mem_expiries)
  | disowned _ _ =>
    have hquiet := @quiet [] fun _ hevent => absurd hevent List.not_mem_nil
    exact traced_untouched hb (fun _ hevent => absurd hevent List.not_mem_nil) hquiet
  | renewed _ howned =>
    cases AllocationTable.eq_of_get?_put hb
    refine .kept (AllocationTable.stored_of_owned howned).1 ⟨rfl, rfl, rfl, rfl⟩ ?_ fun ip =>
      .carried (quiet ?_ ip) fun _ hends => hends
    · exact fun event hevent => List.mem_singleton.1 hevent ▸ id
    · exact fun event hevent => List.mem_singleton.1 hevent ▸ id
  | deleted _ =>
    have hnone := ((Holdings.get?_remove ..).trans (if_pos rfl)).symm.trans hb
    cases hnone
  | permitted _ howned =>
    cases AllocationTable.eq_of_get?_put hb
    obtain ⟨ha, huser⟩ := AllocationTable.stored_of_owned howned
    generalize lookup.procedure = procedure at hrequested htype
    cases hrequested with
    | permit _ hfamily =>
      rw [ha]
      exact traced_permitted hs hauth htype ha huser hfamily
  | bound howned _ =>
    cases AllocationTable.eq_of_get?_put hb
    obtain ⟨ha, huser⟩ := AllocationTable.stored_of_owned howned
    generalize lookup.procedure = procedure at hrequested htype
    cases hrequested with
    | bindChannel hnumber hpeer hfamily =>
      rw [ha]
      exact traced_bound hs hauth htype hnumber hpeer ha huser hfamily _
  | unbound howned _ =>
    cases AllocationTable.eq_of_get?_put hb
    refine .kept (AllocationTable.stored_of_owned howned).1 ⟨rfl, rfl, rfl, rfl⟩ ?_ fun ip =>
      .carried (quiet ?_ ip) fun _ hends => hends
    · exact fun _ hevent => absurd hevent List.not_mem_nil
    · exact fun _ hevent => absurd hevent List.not_mem_nil

theorem Resumed.traced {step : Step Answer} (h : Resumed random s lookup password now step)
    (hs : s.Sound) (hgenuine : lookup.Genuine s.endpoint.config.realm)
    (hb : step.site.endpoint.table.allocations.get? (s.endpoint.tuple client) = some b) :
    Traced s.endpoint.config.realm client
      (s.endpoint.table.allocations.get? (s.endpoint.tuple client)) b
      ⟨now, .resume lookup password, outcome, step.events⟩ := by
  cases h with
  | refused e => exact traced_idle (fun _ _ hcall => nomatch hcall) hb
  | executed hconfirm hrequested hexecuted =>
    rw [Step.table_settled] at hb
    rw [Step.events_settled]
    by_cases hclient : client = lookup.source
    · subst hclient
      exact hexecuted.traced_own hs (hgenuine.authentic hconfirm) hgenuine.type_eq hrequested hb
    · exact hexecuted.traced_other hs hclient hb

theorem Delivered.traced {port : UInt16} {peer : TransportAddress} {payload : Bytes}
    {step : Step (Option Response)} (h : Delivered random s port peer payload now step) (hs : s.Sound)
    (hb : step.site.endpoint.table.allocations.get? (s.endpoint.tuple client) = some b) :
    Traced realm client (s.endpoint.table.allocations.get? (s.endpoint.tuple client)) b
      ⟨now, .deliver port peer payload, outcome, step.events⟩ := by
  have hreaped := get?_reaped s now (s.endpoint.tuple client)
  cases h with
  | oversize => exact traced_idle (fun _ _ hcall => nomatch hcall) hb
  | dropped =>
    apply traced_reaped hs (hreaped.symm.trans hb) fun _ hevent _ => hevent
    exact fun ip => Record.not_renews (fun _ => not_permits_of_mem_expiries) fun _ hcall => nomatch hcall
  | delivered _ _ =>
    apply traced_reaped hs (hreaped.symm.trans hb) fun _ hevent _ => hevent
    exact fun ip => Record.not_renews (fun _ => not_permits_of_mem_expiries) fun _ hcall => nomatch hcall

end Site

theorem Moment.traced {random : Randomness} {m : Moment} {call : Call} {client : TransportAddress}
    {b : Allocation} (hm : m.Sound) (hfits : call.Fits m.waiting)
    (hb : (m.serve random call).site.endpoint.table.allocations.get?
      (m.site.endpoint.tuple client) = some b) :
    Traced m.site.endpoint.config.realm client
      (m.site.endpoint.table.allocations.get? (m.site.endpoint.tuple client)) b
      (m.record random call) := by
  have hserved := Site.serve_spec random m.site m.now call
  change (m.site.serve random m.now call).site.endpoint.table.allocations.get? _ = some b at hb
  change Traced _ _ _ _ ⟨m.now, call, (m.site.serve random m.now call).result,
    (m.site.serve random m.now call).events⟩
  generalize m.site.serve random m.now call = step at hserved hb
  cases hserved with
  | received h => exact h.traced hm.site hb
  | resumed h => exact h.traced hm.site (hm.genuine _ hfits) hb
  | delivered h => exact h.traced hm.site hb
  | rejected => exact Site.traced_idle (fun _ _ hcall => nomatch hcall) hb
  | stopped =>
    have hnone := (Holdings.get?_evict ..).symm.trans hb
    obtain ⟨_, hgone⟩ := Option.filter_eq_some_iff.1 hnone
    cases hgone

end TurnRelay
