import TurnRelay.Proofs.Site.Upkeep

namespace TurnRelay

variable {config : Config}

structure Config.Clamps (config : Config) (requested : Option UInt32) (seconds : UInt32) : Prop where
  least : config.defaultLifetime ≤ seconds
  most : seconds ≤ config.maxLifetime
  unasked : requested = none → seconds = config.defaultLifetime
  allowed : ∀ asked, requested = some asked → config.defaultLifetime ≤ asked →
    asked ≤ config.maxLifetime → seconds = asked
  short : ∀ asked, requested = some asked → asked ≤ config.defaultLifetime →
    seconds = config.defaultLifetime
  long : ∀ asked, requested = some asked → config.maxLifetime ≤ asked → seconds = config.maxLifetime

theorem Config.clamps_grantedLifetime (h : config.Usable) (requested : Option UInt32) :
    config.Clamps requested (config.grantedLifetime requested) := by
  have hordered := UInt32.le_iff_toNat_le.1 h.ordered
  cases requested with
  | none =>
    refine ⟨UInt32.le_refl _, h.ordered, fun _ => rfl, ?_, ?_, ?_⟩ <;> intro _ hasked <;> cases hasked
  | some asked =>
    have hvalue : (config.grantedLifetime (some asked)).toNat =
        min (max asked.toNat config.defaultLifetime.toNat) config.maxLifetime.toNat := by
      rw [grantedLifetime, UInt32.toNat_min, UInt32.toNat_max]
    refine ⟨?_, config.grantedLifetime_le_max h _, fun hnone => ?_, ?_, ?_, ?_⟩
    · rw [UInt32.le_iff_toNat_le, hvalue]
      omega
    · cases hnone
    · rintro _ ⟨⟩ hleast hmost
      rw [UInt32.le_iff_toNat_le] at hleast hmost
      rw [← UInt32.toNat_inj, hvalue]
      omega
    · rintro _ ⟨⟩ hshort
      rw [UInt32.le_iff_toNat_le] at hshort
      rw [← UInt32.toNat_inj, hvalue]
      omega
    · rintro _ ⟨⟩ hlong
      rw [UInt32.le_iff_toNat_le] at hlong
      rw [← UInt32.toNat_inj, hvalue]
      omega

namespace Site

variable {random : Randomness} {s : Site} {lookup : Lookup} {password : Option String} {now : Nat}
  {seconds : UInt32} {a : Allocation}

structure Releases (s : Site) (lookup : Lookup) (now : Nat) (after : Holdings) : Prop where
  procedure_eq : lookup.procedure = .refresh
  asked : lookup.request.lifetime? = some 0
  gone : after.table.allocations.get? (s.endpoint.tuple lookup.source) = none
  freed : ∃ a, s.endpoint.table.owned (s.endpoint.tuple lookup.source) lookup.user now = .ok a ∧
    a.relay.port ∉ after.pool.taken ∧ ∀ later, after.table.findByPort? a.relay.port later = none

/-- The client has the allocation for so many seconds from now, and the host was told so. -/
structure Leases (s : Site) (lookup : Lookup) (now : Nat) (seconds : UInt32) (a : Allocation)
    (after : Holdings) (events : List Event) : Prop where
  clamps : s.endpoint.config.Clamps lookup.request.lifetime? seconds
  stored : after.table.allocations.get? (s.endpoint.tuple lookup.source) = some a
  username_eq : a.username = lookup.user
  ends_eq : a.ends = now + milliseconds seconds
  told : ∃ earlier last, events = earlier ++ [last] ∧
    (∀ event ∈ earlier, ∃ client user, event = .aborted client user) ∧
    (last = .refreshed lookup.source lookup.user seconds ∨
      lookup.procedure = .allocate ∧ last = .allocated lookup.source lookup.user a.relay.port)

theorem aborted_of_mem_expiries {event : Event} (h : event ∈ s.expiries now) :
    ∃ client user, event = .aborted client user := by
  obtain ⟨a, -, rfl⟩ := List.mem_map.1 h
  exact ⟨_, _, rfl⟩

theorem findByPort?_of_free {h : Holdings} (hs : h.Sound) {port : UInt16} (hfree : port ∉ h.pool.taken)
    (now : Nat) : h.table.findByPort? port now = none := by
  cases hfind : h.table.findByPort? port now with
  | none => rfl
  | some b =>
    obtain ⟨hb, rfl⟩ := hs.wellFormed.findByPort?_eq_some_iff.1 hfind
    have hport := hs.wellFormed.ports_iff.2 ⟨b.tuple, b, (AllocationTable.find?_eq_some_iff.1 hb).1, rfl⟩
    exact absurd (hs.taken _ hport) hfree

theorem releases_remove (hs : s.Sound) (hprocedure : lookup.procedure = .refresh)
    (hasked : lookup.request.lifetime? = some 0)
    (howned : s.endpoint.table.owned (s.endpoint.tuple lookup.source) lookup.user now = .ok a) :
    s.Releases lookup now (s.holdings.remove (s.endpoint.tuple lookup.source)).2 := by
  have ha := (AllocationTable.stored_of_owned howned).1
  have hgone : a ∈ (s.holdings.evict fun t _ => t = s.endpoint.tuple lookup.source).1 :=
    Holdings.mem_evict.2 ⟨_, ha, by simp⟩
  have hfree : a.relay.port ∉ (s.holdings.remove (s.endpoint.tuple lookup.source)).2.pool.taken :=
    fun hport => (PortPool.mem_taken_releaseAll.1 hport).2 (List.mem_map_of_mem hgone)
  have hsound := (Holdings.conserves_remove hs.holdings (s.endpoint.tuple lookup.source)).sound
  exact ⟨hprocedure, hasked, by rw [Holdings.get?_remove, if_pos rfl], a, howned, hfree,
    findByPort?_of_free hsound hfree⟩

/-- The reply that begins with `attributes` tells of a lifetime of so many seconds. -/
def Announces (attributes : List Attribute) (seconds : UInt32) : Prop :=
  ∀ (s : Site) (request : Message) (key : Option Bytes),
    ((s.successOf request attributes).bare.withSeals key true).lifetime? = some seconds

theorem announces_allocationAttributes (relay source : TransportAddress) (seconds : UInt32) :
    Announces (allocationAttributes relay source seconds) seconds := fun _ _ _ => rfl

theorem announces_lifetime (seconds : UInt32) : Announces [⟨.lifetime, .lifetime seconds⟩] seconds :=
  fun _ _ _ => rfl

theorem Executed.leases {command : Command} {step : Step (Except PacketError (List Attribute))}
    {attributes : List Attribute} (h : Executed random s lookup.source lookup.user now command step)
    (hs : s.Sound) (husable : s.endpoint.config.Usable)
    (hrequested : Command.Requested s.endpoint.config s.endpoint.external.ip lookup.request
      lookup.procedure command)
    (hlease : command.isLease = true) (hresult : step.result = .ok attributes) :
    ∃ seconds, Announces attributes seconds ∧
      (seconds = 0 ∧ s.Releases lookup now step.site.holdings ∨
        ∃ a, s.Leases lookup now seconds a step.site.holdings step.events) := by
  have hclamps := Config.clamps_grantedLifetime husable lookup.request.lifetime?
  cases h with
  | @created seconds port pool draws _ _ =>
    cases hresult
    obtain ⟨hallocate, rfl⟩ := hrequested.eq_allocate
    refine ⟨_, announces_allocationAttributes _ _ _, .inr ⟨_, hclamps,
      (Holdings.get?_grant ..).trans (if_pos rfl), rfl, rfl, _, _, rfl,
      fun _ => aborted_of_mem_expiries, .inr ⟨hallocate, ?_⟩⟩⟩
    simp only [IpAddress.port_withPort]
  | extended _ huser =>
    cases hresult
    obtain ⟨-, rfl⟩ := hrequested.eq_allocate
    exact ⟨_, announces_allocationAttributes _ _ _, .inr ⟨_, hclamps, AllocationTable.get?_put_self ..,
      huser, rfl, _, _, rfl, fun _ => aborted_of_mem_expiries, .inl rfl⟩⟩
  | occupied | exhausted | disowned => cases hresult
  | renewed hnonzero howned =>
    cases hresult
    have huser := (AllocationTable.stored_of_owned howned).2
    obtain ⟨-, hseconds⟩ := hrequested.eq_refresh
    have hasked : lookup.request.lifetime? ≠ some 0 := fun hasked =>
      hnonzero (hseconds.trans (if_pos hasked))
    rw [if_neg hasked] at hseconds
    exact ⟨_, announces_lifetime _, .inr ⟨_, hseconds ▸ hclamps, AllocationTable.get?_put_self .., huser, rfl,
      [], _, rfl, fun _ hevent => absurd hevent List.not_mem_nil, .inl rfl⟩⟩
  | deleted howned =>
    cases hresult
    obtain ⟨hrefresh, hasked⟩ := hrequested.lifetime?_eq_zero husable.lifetimes
    exact ⟨0, announces_lifetime 0, .inl ⟨rfl, releases_remove hs hrefresh hasked howned⟩⟩
  | permitted | bound | unbound => cases hlease

theorem Resumed.leases {step : Step Answer} {response : Option Response}
    (h : Resumed random s lookup password now step) (hs : s.Sound) (husable : s.endpoint.config.Usable)
    (hdecode : Message.decode lookup.raw = .ok lookup.request)
    (hprocedure : lookup.procedure = .allocate ∨ lookup.procedure = .refresh)
    (hresult : step.result = .ok response) :
    ∃ data reply seconds, response = some (.reply data) ∧ Message.decode data = .ok reply ∧
      reply.lifetime? = some seconds ∧
      (seconds = 0 ∧ s.Releases lookup now step.site.holdings ∨
        ∃ a, s.Leases lookup now seconds a step.site.holdings step.events) := by
  cases h with
  | refused => cases hresult
  | @executed credential command inner _ hrequested hexecuted =>
    rw [Step.result_settled] at hresult
    rw [Step.holdings_settled, Step.events_settled]
    have hlease : command.isLease = true := by
      generalize lookup.procedure = procedure at hrequested hprocedure
      cases hrequested with
      | allocate | refresh => rfl
      | permit | bindChannel => rcases hprocedure with h | h <;> cases h
    obtain ⟨attributes, hinner⟩ : ∃ attributes, inner.result = .ok attributes := exists_of_sealed hresult
    have hsealed : s.sealed lookup credential.key (.ok attributes) = .ok response := hinner ▸ hresult
    obtain ⟨data, hdata, hread⟩ := decode_sealed hdecode (hexecuted.sendable hinner) hsealed
    obtain ⟨seconds, hannounces, hsettles⟩ := hexecuted.leases hs husable hrequested hlease hinner
    exact ⟨data, _, seconds, hdata, hread, hannounces .., hsettles⟩

end Site

/-- From one moment of a run to a later one, by calls of which `allowed` holds. -/
inductive Moment.Leads (random : Randomness) (allowed : Call → Prop) (m : Moment) : Moment → Prop
  | refl : Leads random allowed m m
  | wait {n : Moment} {later : Nat} : Leads random allowed m n → n.now ≤ later →
      Leads random allowed m { n with now := later }
  | share {n : Moment} {pool : PortPool} {draws : Draws} : Leads random allowed m n →
      pool.range = n.site.pool.range → pool.taken.Nodup →
      (∀ port ∈ n.site.endpoint.table.ports, port ∈ pool.taken) →
      Leads random allowed m { n with site := ⟨n.site.endpoint, pool, draws⟩ }
  | serve {n : Moment} {call : Call} : Leads random allowed m n → call.Fits n.waiting → allowed call →
      Leads random allowed m (n.serve random call)

structure Moment.Keeps (n : Moment) (client : TransportAddress) (a : Allocation) : Prop where
  found : n.now < a.ends → ∃ b, a.Persists b ∧ n.site.endpoint.find? client n.now = some b ∧
    n.site.endpoint.table.findByPort? a.relay.port n.now = some b
  gone : a.ends ≤ n.now → n.site.endpoint.find? client n.now = none
  port_gone : a.ends ≤ n.now → ∀ b, n.site.endpoint.table.findByPort? a.relay.port n.now = some b →
    b.tuple ≠ n.site.endpoint.tuple client

section Leads

variable {random : Randomness} {m n : Moment} {log : List Record} {client : TransportAddress}
  {a : Allocation} {allowed : Call → Prop}

theorem Run.leads (h : Run random log m) (hleads : m.Leads random allowed n) :
    ∃ log', Run random log' n := by
  induction hleads with
  | refl => exact ⟨log, h⟩
  | wait _ hlater ih =>
    obtain ⟨log', hrun⟩ := ih
    exact ⟨log', hrun.wait hlater⟩
  | share _ hrange hnodup htaken ih =>
    obtain ⟨log', hrun⟩ := ih
    exact ⟨log', hrun.share hrange hnodup htaken⟩
  | serve _ hfits _ ih =>
    obtain ⟨log', hrun⟩ := ih
    exact ⟨_, hrun.serve hfits⟩

theorem Allocation.Lingers.age {now later : Nat} {entry : Option Allocation} (h : a.Lingers now entry)
    (hle : now ≤ later) : a.Lingers later entry :=
  h.imp id fun ⟨hnone, hends⟩ => ⟨hnone, Nat.le_trans hends hle⟩

theorem Moment.Leads.lingers (h : m.Leads random (·.Spares client) n)
    (ha : a.Lingers m.now (m.site.endpoint.table.allocations.get? (m.site.endpoint.tuple client))) :
    a.Lingers n.now (n.site.endpoint.table.allocations.get? (n.site.endpoint.tuple client)) := by
  induction h with
  -- the entry lingers: it is the same with the same end, or it is gone after that
  | refl => exact ha
  | wait _ hlater ih => exact ih.age hlater
  | share _ _ _ _ ih => exact ih
  | @serve n call _ _ hallowed ih =>
    have hserved := Site.serve_spec random n.site n.now call
    have htuple : (n.serve random call).site.endpoint.tuple client = n.site.endpoint.tuple client :=
      Site.tuple_eq_of_identity hserved.identity client
    rw [htuple]
    exact (hserved.upkeep hallowed).lingers_of_lingers ih

theorem Allocation.Lingers.keeps (hn : n.Sound)
    (h : a.Lingers n.now (n.site.endpoint.table.allocations.get? (n.site.endpoint.tuple client))) :
    n.Keeps client a := by
  have hwell := hn.site.holdings.wellFormed
  have hgone : a.ends ≤ n.now → n.site.endpoint.find? client n.now = none := by
    intro hends
    cases hfind : n.site.endpoint.find? client n.now with
    | none => rfl
    | some b =>
      obtain ⟨hb, hlive⟩ := AllocationTable.find?_eq_some_iff.1 hfind
      rcases h with ⟨c, hc, hpersists⟩ | ⟨hnone, -⟩
      · cases hb.symm.trans hc
        rw [hpersists.ends_eq] at hlive
        exact absurd hends (Nat.not_le.2 hlive)
      · cases hb.symm.trans hnone
  refine ⟨fun hlive => ?_, hgone, fun hends b hb htuple => ?_⟩
  · rcases h with ⟨b, hb, hpersists⟩ | ⟨-, hends⟩
    · have hfind : n.site.endpoint.find? client n.now = some b :=
        AllocationTable.find?_eq_some_iff.2 ⟨hb, hpersists.ends_eq ▸ hlive⟩
      refine ⟨b, hpersists, hfind, hwell.findByPort?_eq_some_iff.2 ⟨?_, by rw [hpersists.relay_eq]⟩⟩
      rw [(hwell.fits hb).tuple_eq]
      exact hfind
    · exact absurd hends (Nat.not_le.2 hlive)
  · obtain ⟨hfind, -⟩ := hwell.findByPort?_eq_some_iff.1 hb
    rw [htuple] at hfind
    cases (hgone hends).symm.trans hfind

end Leads

theorem Run.within {random : Randomness} {log : List Record} {m : Moment} (h : Run random log m)
    (husable : m.site.endpoint.config.Usable) {tuple : FiveTuple} {a : Allocation}
    (ha : m.site.endpoint.table.allocations.get? tuple = some a) :
    a.Within m.site.endpoint.config m.now := by
  induction h generalizing tuple a with
  | start => cases ha
  | wait _ hlater ih => exact (ih husable ha).mono hlater
  | share _ _ _ _ ih => exact ih husable ha
  | @serve _ m call hrun _ ih =>
    have hserved := Site.serve_spec random m.site m.now call
    have hconfig : (m.serve random call).site.endpoint.config = m.site.endpoint.config :=
      congrArg (·.2.2) hserved.identity
    rw [hconfig] at husable ⊢
    exact (hserved.turnover tuple).within husable
      (fun _ hb => ⟨ih husable hb, hrun.sound.site.granting hb⟩) ha

/-- The lifetime in the answer to an Allocate or Refresh request is how long the client has its allocation,
if nothing more is done about it. And nothing is ever had for longer than is granted. -/
theorem Run.lifetimes_kept {random : Randomness} {log : List Record} {m : Moment}
    {externals : List TransportAddress} (h : Run random log m)
    (hvalid : m.site.endpoint.config.validate = .ok externals) :
    (∀ lookup ∈ m.waiting, lookup.procedure = .allocate ∨ lookup.procedure = .refresh →
      ∀ password response, let step := m.site.resume random lookup password m.now
      step.result = .ok response → ∃ data reply seconds, response = some (.reply data) ∧
        Message.decode data = .ok reply ∧ reply.lifetime? = some seconds ∧
        (seconds = 0 ∧ m.site.Releases lookup m.now step.site.holdings ∨
          ∃ a, m.site.Leases lookup m.now seconds a step.site.holdings step.events ∧
            ∀ n, (m.serve random (.resume lookup password)).Leads random (·.Spares lookup.source) n →
              n.Keeps lookup.source a)) ∧
    ∀ tuple a, m.site.endpoint.table.allocations.get? tuple = some a →
      a.Within m.site.endpoint.config m.now := by
  have hs := h.sound.site
  have husable := Config.usable_of_validate hvalid
  refine ⟨fun lookup hlookup hprocedure password response hresult => ?_,
    fun tuple a ha => h.within husable ha⟩
  have hdecode := Packet.decode_eq_message_iff.1 (h.sound.genuine lookup hlookup).decoded
  obtain ⟨data, reply, seconds, hdata, hread, hlifetime, hsettles⟩ :=
    (Site.resume_spec random m.site lookup password m.now).leases hs husable hdecode hprocedure hresult
  refine ⟨data, reply, seconds, hdata, hread, hlifetime, hsettles.imp id ?_⟩
  rintro ⟨a, hleases⟩
  refine ⟨a, hleases, fun n hleads => ?_⟩
  have hfits : Call.Fits m.waiting (.resume lookup password) := hlookup
  obtain ⟨log', hrun⟩ := (h.serve hfits).leads hleads
  refine (hleads.lingers (.inl ⟨a, ?_, .refl a⟩)).keeps hrun.sound
  have htuple : (m.serve random (.resume lookup password)).site.endpoint.tuple lookup.source =
      m.site.endpoint.tuple lookup.source :=
    Site.tuple_eq_of_identity (Site.serve_spec random m.site m.now _).identity lookup.source
  rw [htuple]
  exact hleases.stored

open Sample in
theorem lifetimes_kept_sample :
    asked.site.endpoint.config.validate = .ok [.v4 0xCB007101 3478] ∧
      lookup .allocate allocation ∈ asked.waiting ∧
      let step := asked.site.resume random (lookup .allocate allocation) (some "secret") asked.now
      step.result.isOk = true ∧ ∃ seconds, (seconds = 0 ∧ asked.site.Releases (lookup .allocate allocation)
        asked.now step.site.holdings ∨ ∃ a, asked.site.Leases (lookup .allocate allocation) asked.now
          seconds a step.site.holdings step.events ∧
            ({ asked.serve random (answer .allocate allocation) with now := 599999 } : Moment).Keeps
              client a) := by
  have hconfig : asked.site.endpoint.config = config :=
    congrArg (·.2.2) (Site.serve_spec random start.site start.now (ask .allocate allocation)).identity
  have hvalid : asked.site.endpoint.config.validate = .ok [.v4 0xCB007101 3478] := by
    rw [hconfig]
    rfl
  have hok : (asked.site.resume random (lookup .allocate allocation) (some "secret")
      asked.now).result.isOk = true := by
    decide +kernel
  refine ⟨hvalid, lookup_mem_waiting, hok, ?_⟩
  obtain ⟨response, hresult⟩ := exists_of_isOk hok
  obtain ⟨-, -, seconds, -, -, -, hsettles⟩ := (Run.lifetimes_kept run_asked hvalid).1 _
    lookup_mem_waiting (.inl rfl) (some "secret") response hresult
  refine ⟨seconds, hsettles.imp id ?_⟩
  rintro ⟨a, hleases, hkeeps⟩
  exact ⟨a, hleases, hkeeps _ (.wait .refl (Nat.zero_le _))⟩

end TurnRelay
