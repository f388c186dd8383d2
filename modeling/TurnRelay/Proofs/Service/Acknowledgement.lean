import TurnRelay.Proofs.Service.Capacity

namespace TurnRelay

open Attribute

theorem Config.validate_software (config : Config) (software : String) :
    validate { config with software := software } = config.validate := rfl

namespace Site

variable {random : Randomness} {s : Site} {source : TransportAddress} {now : Nat} {raw key : Bytes}
  {request : Message} {lookup : Lookup} {attributes : List Attribute} {password : Option String}
  {inner : Step (Except PacketError (List Attribute))} {size : Nat} {e : PacketError}

/-! ## Binding requests -/

/-- The client of a Binding request is told its own address, unless there is no room for the reply. -/
structure Echoes (s : Site) (request : Message) (source : TransportAddress) (now : Nat)
    (step : Step Progress) : Prop where
  sent : s.HasRoom request (bindingAttributes source s.endpoint.external) none → ∃ data reply,
    step.result = .done (.ok (some (.reply data))) ∧ request.Answers .success reply data ∧
      reply.find? .xorMappedAddress = some (.xorMappedAddress source.bare) ∧
      reply.find? .mappedAddress = some (.mappedAddress source.bare)
  told : s.HasRoom request (bindingAttributes source s.endpoint.external) none →
    step.events = s.expiries now ++ [.bindingAnswered source]
  lost : ¬ s.HasRoom request (bindingAttributes source s.endpoint.external) none →
    step.result = .done (.error .invalidInput) ∧ s.Idle now step []

theorem receive_of_binding (hdecode : Packet.decode raw = .ok (.message request))
    (htype : request.type = ⟨.binding, .request⟩) (s : Site) (source : TransportAddress) (now : Nat) :
    s.receive raw source now =
      match (s.successOf request (bindingAttributes source s.endpoint.external)).encode none true with
      | .error e => ⟨.done (.error e), s.expiries now, (s.opened now).countError⟩
      | .ok data => ⟨.done (.ok (some (.reply data))), s.expiries now ++ [.bindingAnswered source],
          s.opened now⟩ := by
  have hreceive : s.receive raw source now =
      (((s.opened now).handle raw source now).after (s.expiries now)).settledProgress := rfl
  have hreply : (s.opened now).successOf request (bindingAttributes source (s.opened now).endpoint.external) =
      s.successOf request (bindingAttributes source s.endpoint.external) := rfl
  rw [hreceive, handle, hdecode]
  simp only [dispatch, htype, answerBinding, hreply]
  cases (s.successOf request (bindingAttributes source s.endpoint.external)).encode none true with
  | error e => simp only [Step.map, Step.after, Step.settledProgress, List.append_nil]
  | ok data => rfl

theorem receive_of_crowded (hdecode : Packet.decode raw = .ok (.message request))
    (htype : request.type = ⟨.binding, .request⟩)
    (hroom : ¬ s.HasRoom request (bindingAttributes source s.endpoint.external) none) (now : Nat) :
    s.receive raw source now =
      ⟨.done (.error .invalidInput), s.expiries now, (s.opened now).countError⟩ := by
  have hlost := (replied_successOf (Packet.decode_eq_message_iff.1 hdecode)
    (sendable_bindingAttributes source s.endpoint.external) s none).lost (Nat.lt_of_not_le hroom)
  rw [receive_of_binding hdecode htype]
  cases hencode : (s.successOf request (bindingAttributes source s.endpoint.external)).encode none true with
  | error e =>
    rw [hencode] at hlost
    cases hlost
    rfl
  | ok data =>
    rw [hencode] at hlost
    cases hlost

theorem echoes_receive (hs : s.Sound) (hdecode : Packet.decode raw = .ok (.message request))
    (htype : request.type = ⟨.binding, .request⟩) (source : TransportAddress) (now : Nat) :
    s.Echoes request source now (s.receive raw source now) := by
  by_cases hroom : s.HasRoom request (bindingAttributes source s.endpoint.external) none
  · obtain ⟨data, hsent, hanswers⟩ := (replied_successOf (Packet.decode_eq_message_iff.1 hdecode)
      (sendable_bindingAttributes source s.endpoint.external) s none).sent hroom
    rw [receive_of_binding hdecode htype]
    cases hencode : (s.successOf request (bindingAttributes source s.endpoint.external)).encode none true with
    | error e =>
      rw [hencode] at hsent
      cases hsent
    | ok other =>
      rw [hencode] at hsent
      cases hsent
      exact ⟨fun _ => ⟨data, _, rfl, hanswers, rfl, rfl⟩, fun _ => rfl, fun h => absurd hroom h⟩
  · rw [receive_of_crowded hdecode htype hroom]
    exact ⟨fun h => absurd h hroom, fun h => absurd h hroom,
      fun _ => ⟨rfl, _, (lapses_opened hs now).countError, (List.append_nil _).symm⟩⟩

/-! ## Requests with a password -/

/-- The second step with the request of `lookup` carries it out as `inner`. The reply is to start with
`attributes` and to be signed with `key`. -/
inductive CarriesOut (random : Randomness) (s : Site) (lookup : Lookup) (password : Option String)
    (now : Nat) : Bytes → Step (Except PacketError (List Attribute)) → List Attribute → Prop
  | mk {credential : Credential} {command : Command} {attributes : List Attribute} :
      Credential.confirm s.endpoint.config.realm lookup.user lookup.raw password = .ok credential →
      Command.ofRequest s.endpoint.config s.endpoint.external.ip lookup.request lookup.procedure =
        .ok command →
      (s.execute random lookup.source lookup.user now command).result = .ok attributes →
      CarriesOut random s lookup password now credential.key
        (s.execute random lookup.source lookup.user now command) attributes

theorem CarriesOut.sendable (h : CarriesOut random s lookup password now key inner attributes) :
    Sendable 56 attributes := by
  cases h with
  | mk _ hcommand hresult =>
    have hrequested := Command.ofRequest_spec hcommand
    exact (execute_spec random s lookup.source lookup.user now hrequested.ne_permit_nil).sendable hresult

theorem CarriesOut.resume_eq (h : CarriesOut random s lookup password now key inner attributes) :
    s.resume random lookup password now = (inner.map (s.sealed lookup key)).settled ∧
      inner.result = .ok attributes := by
  cases h with
  | mk hconfirm hcommand hresult => exact ⟨resume_of_checked hconfirm hcommand random now, hresult⟩

theorem CarriesOut.replied (h : CarriesOut random s lookup password now key inner attributes)
    (hdecode : Packet.decode lookup.raw = .ok (.message lookup.request)) :
    let step := s.resume random lookup password now
    Replied lookup.request (s.successOf lookup.request attributes) (some key) step.result ∧
      step.events = inner.events ∧ step.site.holdings = inner.site.holdings := by
  obtain ⟨hresume, hresult⟩ := h.resume_eq
  have hreplied := replied_sealed (Packet.decode_eq_message_iff.1 hdecode) h.sendable s key
  simp only [hresume, Step.result_settled, Step.events_settled, Step.holdings_settled, Step.map, hresult, and_true]
  exact hreplied

theorem idle_of_resume_error (hs : s.Sound)
    (hdecode : Packet.decode lookup.raw = .ok (.message lookup.request))
    (herror : (s.resume random lookup password now).result = .error e) :
    s.Idle now (s.resume random lookup password now) [] ∨ ∃ key inner attributes,
      CarriesOut random s lookup password now key inner attributes ∧
        ¬ s.HasRoom lookup.request attributes (some key) := by
  rcases resume_cases random s lookup password now with
    ⟨cause, -, hrefused⟩ | ⟨credential, command, hconfirm, hcommand⟩
  · rw [hrefused]
    exact .inl ⟨[], (Lapses.refl s).countError, rfl⟩
  · have hrequested := Command.ofRequest_spec hcommand
    have hexecuted := execute_spec random s lookup.source lookup.user now hrequested.ne_permit_nil
    cases hresult : (s.execute random lookup.source lookup.user now command).result with
    | error cause =>
      rw [resume_of_checked hconfirm hcommand]
      exact .inl ((hexecuted.idle hs hresult).settled _)
    | ok attributes =>
      have hcarried : CarriesOut random s lookup password now _ _ _ := .mk hconfirm hcommand hresult
      refine .inr ⟨_, _, _, hcarried, fun hroom => ?_⟩
      obtain ⟨data, hanswer, -⟩ := (hcarried.replied hdecode).1.sent hroom
      cases herror.symm.trans hanswer

end Site

/-- In every run, requests that were carried out are acknowledged if there is room for the reply, and fail
otherwise, and no other failure leaves anything changed. A text of up to 65424 bytes leaves room for every
reply. -/
theorem Host.Reachable.acknowledges {random : Randomness} {config : Config} {host : Host} {id : EndpointId}
    {s : Site} (h : Reachable random config host) (hsite : host.service.site? id = some s) :
    (∀ raw source request, Packet.decode raw = .ok (.message request) →
      request.type = ⟨.binding, .request⟩ →
      s.Echoes request source host.now (s.receive raw source host.now)) ∧
    (∀ lookup ∈ host.waiting id, ∀ password, let step := s.resume random lookup password host.now
      (∀ key inner attributes, s.CarriesOut random lookup password host.now key inner attributes →
        Site.Replied lookup.request (s.successOf lookup.request attributes) (some key) step.result ∧
          step.events = inner.events ∧ step.site.holdings = inner.site.holdings) ∧
      ∀ e, step.result = .error e → s.Idle host.now step [] ∨ ∃ key inner attributes,
        s.CarriesOut random lookup password host.now key inner attributes ∧
          ¬ s.HasRoom lookup.request attributes (some key)) ∧
    ((Utf8.encode config.software).length ≤ 65424 →
      (∀ request source, s.HasRoom request (Site.bindingAttributes source s.endpoint.external) none) ∧
      ∀ lookup password key inner attributes,
        s.CarriesOut random lookup password host.now key inner attributes →
          s.HasRoom lookup.request attributes (some key)) := by
  obtain ⟨hs, hservice⟩ := h.sound
  obtain ⟨e, he, rfl⟩ := Option.map_eq_some_iff.1 hsite
  have hconfig : e.config = config := (h.configured.1 id e he).trans hservice
  obtain ⟨log, hrun⟩ := h.tracked.tracks he
  have hsound := hs.site he
  refine ⟨fun raw source request hdecode htype => Site.echoes_receive hsound hdecode htype source host.now,
    fun lookup hlookup password => ?_, fun hsoftware => ?_⟩
  · have hdecode := (hrun.sound.genuine lookup hlookup).decoded
    exact ⟨fun key inner attributes hcarried => hcarried.replied hdecode,
      fun cause herror => Site.idle_of_resume_error hsound hdecode herror⟩
  · rw [← hconfig] at hsoftware
    exact ⟨fun request source => Site.hasRoom_of_sendable (Site.sendable_bindingAttributes ..) (by decide)
        hsoftware request,
      fun lookup password key inner attributes hcarried =>
        Site.hasRoom_of_sendable hcarried.sendable (by simp) hsoftware lookup.request⟩

/-! ## A text that fits, and one that does not -/

namespace Sample

def wordy (software : String) : Config := { config with software := software }

def wordyService (software : String) : Service := newService (wordy software) [external]

def wordyHost (software : String) : Host :=
  ⟨((wordyService software).register interface external).2.hold 0, 0, fun _ => []⟩

theorem ofConfig_wordy (software : String) :
    Service.ofConfig (wordy software) = .ok (wordyService software) := by
  have hvalid : config.validate = .ok [external] := rfl
  rw [Service.ofConfig, wordy, Config.validate_software, hvalid]
  rfl

theorem obtain_wordy (software : String) :
    (wordyService software).obtain "10.0.0.1:3478" "203.0.113.1:3478" =
      some (0, (wordyHost software).service) := rfl

theorem reachable_wordy (software : String) : Host.Reachable random (wordy software) (wordyHost software) :=
  .step (.start (ofConfig_wordy software)) (.obtain (obtain_wordy software))

def asking : Host := (wordyHost "relay").play random [(0, ask .allocate allocation)]

def askingSite : Site := (asking.service.site? 0).getD start.site

theorem asking_spec : (wordyHost "relay").Plays random [(0, ask .allocate allocation)] ∧
    lookup .allocate allocation ∈ asking.waiting 0 ∧ asking.service.site? 0 = some askingSite ∧
    askingSite.endpoint.config.realm = "example.org" ∧
    askingSite.endpoint.external.ip.family = external.ip.family ∧
    askingSite.endpoint.find? client 0 = none ∧
    (askingSite.execute random client "alice" 0 (.allocate (askingSite.endpoint.config.grantedLifetime
      (lookup .allocate allocation).request.lifetime?))).result.toOption.isSome := by
  decide +kernel

theorem reachable_asking : Host.Reachable random (wordy "relay") asking :=
  (reachable_wordy "relay").play asking_spec.1

theorem carriesOut_asking : ∃ key inner attributes, askingSite.CarriesOut random
    (lookup .allocate allocation) (some "secret") 0 key inner attributes := by
  obtain ⟨-, -, -, hrealm, hfamily, habsent, hallocated⟩ := asking_spec
  have heligible : askingSite.Eligible (lookup .allocate allocation) (some "secret") 0 :=
    eligible hrealm hfamily habsent
  obtain ⟨credential, hconfirm⟩ := heligible.confirmed
  obtain ⟨attributes, hattributes⟩ := Option.isSome_iff_exists.1 hallocated
  exact ⟨_, _, _, .mk hconfirm heligible.ofRequest_eq (eq_ok_of_toOption hattributes)⟩

end Sample

theorem Host.acknowledges_sample :
    Host.Reachable Sample.random (Sample.wordy "relay") Sample.asking ∧
      Sample.asking.service.site? 0 = some Sample.askingSite ∧
      Sample.lookup .allocate Sample.allocation ∈ Sample.asking.waiting 0 ∧
      ∃ data reply, (Sample.askingSite.resume Sample.random (Sample.lookup .allocate Sample.allocation)
          (some "secret") 0).result = .ok (some (.reply data)) ∧
        (Sample.lookup .allocate Sample.allocation).request.Answers .success reply data := by
  obtain ⟨-, hlookup, hsite, -⟩ := Sample.asking_spec
  obtain ⟨-, hrequests, hroom⟩ := Host.Reachable.acknowledges Sample.reachable_asking hsite
  obtain ⟨key, inner, attributes, hcarried⟩ := Sample.carriesOut_asking
  have hsoftware : (Utf8.encode (Sample.wordy "relay").software).length ≤ 65424 := by decide +kernel
  obtain ⟨data, hanswer, hanswers⟩ := ((hrequests _ hlookup (some "secret")).1 key inner attributes
    hcarried).1.sent ((hroom hsoftware).2 _ _ key inner attributes hcarried)
  exact ⟨Sample.reachable_asking, hsite, hlookup, data, _, hanswer, hanswers⟩

namespace Sample

def wordySite (software : String) : Site :=
  ⟨.fresh interface external (wordy software), .fresh .standard, .none⟩

theorem site?_wordy (software : String) :
    (wordyHost software).service.site? 0 = some (wordySite software) := rfl

def remote : TransportAddress := .v6 0x20010db8000000000000000000000001 5000 0 0

def binding : Bytes := [0x00, 0x01, 0x00, 0x00, 0x21, 0x12, 0xA4, 0x42, 0, 0, 0, 0, 0, 0, 0, 0, 0, 0, 0, 7]

theorem decode_binding : Packet.decode binding = .ok (.message ⟨⟨.binding, .request⟩, 7, []⟩) :=
  eq_ok_of_toOption (by decide +kernel)

def refusing (software : String) : Site :=
  ⟨{ Endpoint.fresh interface external (wordy software) with stats := ⟨1, 1, 0, 0, 0⟩ }, .fresh .standard, .none⟩

theorem sound_refusing (software : String) : (refusing software).Sound :=
  let h := Site.sound_fresh interface external (wordy software) .none List.nodup_nil
  ⟨h.holdings, h.relayIp_eq, h.permission_lifetime, h.channel_lifetime, h.own⟩

theorem length_encode_replicate (n : Nat) :
    (Utf8.encode (.ofList (List.replicate n 'x'))).length = n := by
  rw [Utf8.encode_ofList]
  induction n with
  | zero => rfl
  | succ n ih =>
    rw [List.replicate_succ, List.flatMap_cons, List.length_append, ih]
    exact Nat.add_comm 1 n

def tooLong : String := .ofList (List.replicate 65452 'x')

theorem length_tooLong : (Utf8.encode tooLong).length = 65452 := length_encode_replicate 65452

theorem wireSize_of_length {s : Site} (h : (Utf8.encode s.endpoint.config.software).length = 65452)
    (request : Message) (attributes : List Attribute) (key : Option Bytes) :
    (s.successOf request attributes).wireSize key true =
      65484 + Attribute.totalSize request.transaction attributes + if key.isSome then 24 else 0 := by
  rw [Site.wireSize_successOf, h, show padding 65452 = 0 from rfl]
  omega

theorem lt_size_confirmation {software : String} (h : (Utf8.encode software).length = 65452) (port : UInt16)
    (key : Bytes) : maxMessageSize <
      ((refusing software).confirmation (lookup .allocate allocation) port).wireSize (some key) true := by
  have htotal : Attribute.totalSize 7 (Site.allocationAttributes (external.ip.withPort port) client 600) =
      32 := by
    simp only [Site.allocationAttributes, external, client, IpAddress.withPort, TransportAddress.ip, totalSize,
      Attribute.wireSize, AttributeValue.encode, AddressMask.encode, List.length_cons, List.length_append,
      length_bigEndian]
    decide
  rw [Site.confirmation, wireSize_of_length h]
  exact show maxMessageSize < 65484 + Attribute.totalSize 7 (Site.allocationAttributes
      (external.ip.withPort port) client 600) + 24 by
    rw [htotal]
    decide

theorem receive_wordy {software : String} (h : (Utf8.encode software).length = 65452) :
    (wordySite software).receive binding remote 0 =
      ⟨.done (.error .invalidInput), [], refusing software⟩ := by
  have htotal : Attribute.totalSize 7 (Site.bindingAttributes remote external) = 60 := by decide +kernel
  refine Site.receive_of_crowded decode_binding rfl (Nat.not_le.2 ?_) 0
  rw [wireSize_of_length h]
  exact show maxMessageSize < 65484 + Attribute.totalSize 7 (Site.bindingAttributes remote external) + 0 by
    rw [htotal]
    decide

theorem placed_refusing (software : String) : ∃ port key, (refusing software).Placed
    (lookup .allocate allocation) 0 port
      ((refusing software).process random (request .allocate allocation) client (some "secret") 0) ∧
    Site.Replied (lookup .allocate allocation).request
      ((refusing software).confirmation (lookup .allocate allocation) port) (some key)
      ((refusing software).process random (request .allocate allocation) client (some "secret") 0).result := by
  have heligible : (refusing software).Eligible (lookup .allocate allocation) (some "secret") 0 :=
    eligible rfl rfl rfl
  have hvacant : (refusing software).Vacant 0 49152 := ⟨rfl, List.not_mem_nil⟩
  cases heligible.attempted_process (sound_refusing software) rfl random with
  | placed _ hplaced hreplied => exact ⟨_, _, hplaced, hreplied⟩
  | exhausted hexhausted =>
    have hstocked : (refusing software).Stocked := ⟨rfl, fun _ hport => absurd hport List.not_mem_nil⟩
    cases hexhausted.symm.trans (hstocked.isExhausted_eq_false (sound_refusing software) hvacant)

end Sample

/-- A configuration that is accepted, and of which two clients get no answer: the Binding request fails, and
so does the Allocate request, though the allocation is made and the host is told of it. -/
theorem Host.exists_unacknowledged :
    Host.Reachable Sample.random (Sample.wordy Sample.tooLong) (Sample.wordyHost Sample.tooLong) ∧
      (Sample.wordyHost Sample.tooLong).service.site? 0 = some (Sample.wordySite Sample.tooLong) ∧
      let first := (Sample.wordySite Sample.tooLong).receive Sample.binding Sample.remote 0
      first.result = .done (.error .invalidInput) ∧
        let second := first.site.process Sample.random (Sample.request .allocate Sample.allocation)
          Sample.client (some "secret") 0
        second.result = .error .invalidInput ∧
          ∃ port a, second.events.getLast? = some (.allocated Sample.client "alice" port) ∧
            second.site.endpoint.find? Sample.client 0 = some a := by
  have hlength := Sample.length_tooLong
  generalize Sample.tooLong = software at hlength
  obtain ⟨port, key, hplaced, hreplied⟩ := Sample.placed_refusing software
  rw [Sample.receive_wordy hlength]
  refine ⟨Sample.reachable_wordy _, Sample.site?_wordy _, rfl, hreplied.lost ?_, port, _, hplaced.told,
    hplaced.found⟩
  exact Sample.lt_size_confirmation hlength port key

end TurnRelay
