import TurnRelay.Proofs.Message.Packet
import TurnRelay.Proofs.Site.Replies
import TurnRelay.Proofs.Site.Run

namespace TurnRelay

open Attribute

variable {random : Randomness} {raw data : Bytes} {request reply : Message} {e : PacketError} {code : UInt16}

/-- No site takes the bytes for a request, whatever its state. -/
def Unanswerable (data : Bytes) : Prop :=
  (∀ (s : Site) (source : TransportAddress) (now : Nat),
    (s.receive data source now).result = .done (.error .unknownMethod)) ∧
  ∀ (random : Randomness) (s : Site) (e : PacketError), (s.reject random data e).result = none

theorem sendable_errorCodeAttribute (h : e.code? = some code) :
    Sendable 39 [Site.errorCodeAttribute code] := by
  cases e with
  | invalidInput | unsupportedFamily | hashRefused | integrityMissing | integrityFailed | unknownMethod =>
    cases h
    exact (sendable_errorCode (by decide) _).mono (by decide +kernel)
  | cookieMismatch | fatal | invalidText => cases h

theorem Message.find?_errorCode (m : Message) (code : UInt16) (reason : String) (key : Option Bytes)
    (h : m.attributes.head? = some ⟨.errorCode, .errorCode code reason⟩) :
    (m.bare.withSeals key true).find? .errorCode = some (.errorCode code reason) := by
  obtain ⟨rest, hrest⟩ := List.head?_eq_some_iff.1 h
  simp [find?, withSeals, bare, hrest, Attribute.bare, AttributeValue.bare]

namespace Site

variable {s : Site} {source : TransportAddress} {now : Nat} {lookup : Lookup} {password : Option String}

theorem challengeAttributes_spec (random : Randomness) (s : Site) (e : PacketError) :
    ∃ attributes draws, s.challengeAttributes random e = (attributes, { s with draws := draws }) ∧
      Sendable ((Utf8.encode s.endpoint.config.realm).length + 78) attributes := by
  unfold challengeAttributes
  split
  · have hnonce := random.length_nonce_le s.draws
    refine ⟨_, _, rfl, ?_⟩
    exact ((sendable_realm _).append (sendable_nonce (random.nonce s.draws).1)).mono (by omega)
  · exact ⟨[], s.draws, rfl, Sendable.nil.mono (Nat.zero_le _)⟩

theorem exists_failure (hdecode : Message.decode raw = .ok request)
    (hclass : request.type.messageClass = .request) (hcode : e.code? = some code)
    (hsize : (Utf8.encode s.endpoint.config.realm).length + (Utf8.encode s.endpoint.config.software).length
      ≤ 60000) (random : Randomness) :
    ∃ data reply, (s.reject random raw e).result = some (.reply data) ∧
      request.Answers .failure reply data ∧
      reply.find? .errorCode = some (.errorCode code (reasonPhrase code)) := by
  obtain ⟨attributes, draws, hchallenge, hattributes⟩ := s.challengeAttributes_spec random e
  let response : Message :=
    ⟨request.type.failure, request.transaction, errorCodeAttribute code :: attributes ++ [s.endpoint.software]⟩
  have hsendable := ((sendable_errorCodeAttribute hcode).append hattributes).append
    (sendable_software s.endpoint.config.software)
  have hmethod : ∃ code ≤ 0x0FFF, response.type.method = .ofCode code :=
    Message.method_of_decode (m := request) hdecode
  obtain ⟨data, hencode, hread⟩ :=
    Message.exists_encode_of_sendable (m := response) hmethod hsendable (by omega) none
  refine ⟨data, _, ?_, ⟨hread, rfl, rfl, Message.fingerprinted_of_encode hencode⟩,
    response.find?_errorCode code (reasonPhrase code) none rfl⟩
  have hencode : Message.encode ⟨request.type.failure, request.transaction,
    errorCodeAttribute code :: attributes ++ [s.endpoint.software]⟩ none true = .ok data := hencode
  simp only [reject, hcode, hdecode, hclass, if_true, hchallenge, hencode]
  rfl

theorem reject_eq_none (h : ∀ request, Message.decode raw = .ok request →
    request.type.messageClass ≠ .request) (random : Randomness) (s : Site) (e : PacketError) :
    (s.reject random raw e).result = none := by
  unfold reject
  split
  · next request _ hdecode => rw [if_neg (h request hdecode)]
  · rfl

theorem unanswerable_of_decode (hdecode : Message.decode data = .ok reply)
    (hclass : reply.type.messageClass = .success ∨ reply.type.messageClass = .failure) :
    Unanswerable data := by
  constructor
  · intro s source now
    have hdispatch : (s.opened now).dispatch reply data source now =
        ⟨.done (.error .unknownMethod), [], s.opened now⟩ := by
      obtain ⟨⟨method, messageClass⟩, transaction, attributes⟩ := reply
      rcases hclass with rfl | rfl <;> cases method <;> rfl
    change (((s.opened now).handle data source now).after (s.expiries now)).settledProgress.result = _
    rw [handle, Packet.decode_eq_message_iff.2 hdecode]
    simp only [hdispatch]
    rfl
  · intro random s e
    apply reject_eq_none
    intro request hrequest
    cases hdecode.symm.trans hrequest
    rcases hclass with hclass | hclass <;> simp [hclass]

/-- What comes of a request: a reply, or an error that every site of `config` answers with a reply. -/
def Settles (config : Config) (request : Message) (raw : Bytes) : Answer → Prop
  | .ok none => False
  | .ok (some response) => ∃ data reply, response = .reply data ∧ request.Answers .success reply data ∧
      Unanswerable data
  | .error e => ∃ code, e.code? = some code ∧
      ∀ (random : Randomness) (s : Site), s.endpoint.config = config →
        ∃ data reply reason, (s.reject random raw e).result = some (.reply data) ∧
          request.Answers .failure reply data ∧
          reply.find? .errorCode = some (.errorCode code reason) ∧ Unanswerable data

theorem settles_reply (h : request.Answers .success reply data) (config : Config) :
    Settles config request raw (.ok (some (.reply data))) :=
  ⟨data, reply, rfl, h, unanswerable_of_decode h.decoded (.inl (congrArg (·.messageClass) h.type_eq))⟩

theorem settles_error {config : Config} (hdecode : Message.decode raw = .ok request)
    (hclass : request.type.messageClass = .request) (hcode : e.code? ≠ none)
    (hsize : (Utf8.encode config.realm).length + (Utf8.encode config.software).length ≤ 60000) :
    Settles config request raw (.error e) := by
  obtain ⟨code, hcode⟩ := Option.ne_none_iff_exists'.1 hcode
  refine ⟨code, hcode, ?_⟩
  rintro random s rfl
  obtain ⟨data, reply, hreject, hanswers, hfind⟩ := exists_failure hdecode hclass hcode hsize random
  exact ⟨data, reply, _, hreject, hanswers, hfind,
    unanswerable_of_decode hanswers.decoded (.inr (congrArg (·.messageClass) hanswers.type_eq))⟩

theorem Received.settles {step : Step Progress} {answer : Answer} (h : Received s raw source now step)
    (hdone : step.result = .done answer) (hdecode : Message.decode raw = .ok request)
    (hclass : request.type.messageClass = .request)
    (hsize : (Utf8.encode s.endpoint.config.realm).length + (Utf8.encode s.endpoint.config.software).length
      ≤ 60000) : Settles s.endpoint.config request raw answer := by
  have hpacket := Packet.decode_eq_message_iff.2 hdecode
  cases h with
  | answered hread _ hencode =>
    cases hdone
    cases hpacket.symm.trans hread
    obtain ⟨data, reply, hsuccess, hanswers⟩ := exists_success (s := s) hdecode
      (sendable_bindingAttributes source s.endpoint.external) (by omega) none
    cases hsuccess.symm.trans hencode
    exact settles_reply hanswers _
  | dropped hnot => exact absurd hclass (hnot request hpacket)
  | refused e hcode =>
    cases hdone
    refine settles_error hdecode hclass (fun hnone => ?_) hsize
    cases hpacket.symm.trans (hcode hnone)
  | waiting => cases hdone
  | sent hread htype =>
    cases hpacket.symm.trans hread
    rw [htype] at hclass
    cases hclass
  | forwarded hread => cases hpacket.symm.trans hread

theorem Received.waits {step : Step Progress} (h : Received s raw source now step)
    (hwaiting : step.result = .waiting lookup) (hdecode : Message.decode raw = .ok request) :
    lookup.raw = raw ∧ lookup.request = request := by
  cases h with
  | answered | dropped | refused | sent | forwarded => cases hwaiting
  | waiting hread =>
    cases hwaiting
    cases (Packet.decode_eq_message_iff.2 hdecode).symm.trans hread
    exact ⟨rfl, rfl⟩

theorem Received.silent {step : Step Progress} (h : Received s raw source now step)
    (hnot : ∀ request, Packet.decode raw = .ok (.message request) →
      request.type.messageClass ≠ .request) :
    (∀ response, step.result = .done (.ok (some response)) → response.isReply = false) ∧
      ∀ lookup, step.result ≠ .waiting lookup := by
  cases h with
  | answered hread htype => exact absurd (congrArg (·.messageClass) htype) (hnot _ hread)
  | waiting hread htype =>
    exact absurd ((congrArg (·.messageClass) htype).trans (class_procedureType _)) (hnot _ hread)
  | dropped | refused =>
    refine ⟨fun response hdone => ?_, fun lookup hwaiting => ?_⟩
    · cases hdone
    · cases hwaiting
  | sent | forwarded =>
    refine ⟨fun response hdone => ?_, fun lookup hwaiting => ?_⟩
    · cases hdone
      rfl
    · cases hwaiting

theorem Resumed.settles {step : Step Answer} (h : Resumed random s lookup password now step)
    (hdecode : Message.decode lookup.raw = .ok lookup.request)
    (hclass : lookup.request.type.messageClass = .request)
    (hsize : (Utf8.encode s.endpoint.config.realm).length + (Utf8.encode s.endpoint.config.software).length
      ≤ 60000) : Settles s.endpoint.config lookup.request lookup.raw step.result := by
  cases h with
  | refused e hcode => exact settles_error hdecode hclass hcode hsize
  | @executed credential command inner _ _ hexecuted =>
    rw [Step.result_settled, Step.map]
    cases hresult : inner.result with
    | ok attributes =>
      obtain ⟨data, reply, hsealed, hanswers⟩ :=
        exists_sealed (s := s) hdecode (hexecuted.sendable hresult) (by omega) credential.key
      rw [hsealed]
      exact settles_reply hanswers _
    | error e =>
      rw [sealed_error]
      exact settles_error hdecode hclass (hexecuted.code?_ne_none hresult) hsize

end Site

theorem Run.requests_answered {log : List Record} {m : Moment} (h : Run random log m)
    (hsize : (Utf8.encode m.site.endpoint.config.realm).length +
      (Utf8.encode m.site.endpoint.config.software).length ≤ 60000) :
    (∀ raw source request, Packet.decode raw = .ok (.message request) →
      request.type.messageClass = .request → let step := m.site.receive raw source m.now
        (∀ answer, step.result = .done answer →
          Site.Settles m.site.endpoint.config request raw answer) ∧
        ∀ lookup, step.result = .waiting lookup → lookup.raw = raw ∧ lookup.request = request) ∧
    (∀ lookup ∈ m.waiting, Packet.decode lookup.raw = .ok (.message lookup.request) ∧
      lookup.request.type.messageClass = .request ∧
      ∀ password, Site.Settles m.site.endpoint.config lookup.request lookup.raw
        (m.site.resume random lookup password m.now).result) ∧
    ∀ raw, (∀ request, Packet.decode raw = .ok (.message request) →
        request.type.messageClass ≠ .request) →
      (∀ source, let step := m.site.receive raw source m.now
        (∀ response, step.result = .done (.ok (some response)) → response.isReply = false) ∧
        ∀ lookup, step.result ≠ .waiting lookup) ∧
      ∀ (random : Randomness) (s : Site) (e : PacketError), (s.reject random raw e).result = none := by
  refine ⟨fun raw source request hpacket hclass => ?_, fun lookup hlookup => ?_, fun raw hnot => ?_⟩
  · have hreceived := Site.receive_spec m.site raw source m.now
    have hdecode := Packet.decode_eq_message_iff.1 hpacket
    exact ⟨fun answer hdone => hreceived.settles hdone hdecode hclass hsize,
      fun lookup hwaiting => hreceived.waits hwaiting hdecode⟩
  · have hgenuine := h.sound.genuine lookup hlookup
    have hclass : lookup.request.type.messageClass = .request := by
      rw [hgenuine.type_eq, Site.class_procedureType]
    refine ⟨hgenuine.decoded, hclass, fun password => ?_⟩
    exact (Site.resume_spec random m.site lookup password m.now).settles
      (Packet.decode_eq_message_iff.1 hgenuine.decoded) hclass hsize
  · refine ⟨fun source => (Site.receive_spec m.site raw source m.now).silent hnot, ?_⟩
    exact Site.reject_eq_none fun request hdecode => hnot request (Packet.decode_eq_message_iff.2 hdecode)

theorem requests_answered_sample :
    (Utf8.encode Sample.asked.site.endpoint.config.realm).length +
        (Utf8.encode Sample.asked.site.endpoint.config.software).length ≤ 60000 ∧
      Sample.lookup .allocate Sample.allocation ∈ Sample.asked.waiting ∧
      Site.Settles Sample.asked.site.endpoint.config (Sample.lookup .allocate Sample.allocation).request
        (Sample.request .allocate Sample.allocation)
        (Sample.asked.site.resume Sample.random (Sample.lookup .allocate Sample.allocation)
          (some "secret") Sample.asked.now).result := by
  have hsize : (Utf8.encode Sample.asked.site.endpoint.config.realm).length +
      (Utf8.encode Sample.asked.site.endpoint.config.software).length ≤ 60000 := by
    decide +kernel
  have hlookup := (Run.requests_answered Sample.run_asked hsize).2.1 _ Sample.lookup_mem_waiting
  exact ⟨hsize, Sample.lookup_mem_waiting, hlookup.2.2 (some "secret")⟩

end TurnRelay
