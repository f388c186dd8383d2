import TurnRelay.Endpoint.Exchange
import TurnRelay.Proofs.Message.Packet
import TurnRelay.Proofs.Message.Signature
import TurnRelay.Proofs.Site.Run

/-!
What a client cannot find out. A user that the host does not know is refused like one whose password does
not fit, and the reply to either is the challenge that every authentication failure gets. The statements
compare two runs, with two hosts and even with two sources of randomness.
-/

namespace TurnRelay

abbrev Directory := TransportAddress → String → Option String

namespace Site

def consult (random : Randomness) (s : Site) (directory : Directory) (raw : Bytes)
    (source : TransportAddress) (now : Nat) : Step Answer :=
  let first := s.receive raw source now
  match first.result with
  | .done answer => ⟨answer, first.events, first.site⟩
  | .waiting lookup =>
    (first.site.resume random lookup (directory lookup.source lookup.user) now).after first.events

end Site

def Unproven (realm user : String) (raw : Bytes) (password : Option String) : Prop :=
  ∀ secret, password = some secret → verifyIntegrity raw (longTermKey user realm secret) ≠ .ok ()

/-- The first host knows nobody of the name in the packet; the second has a password that does not verify
the packet. On other users the two may differ as they like. -/
structure Conceals (realm : String) (raw : Bytes) (source : TransportAddress) (first second : Directory) :
    Prop where
  unknown : ∀ m user, Packet.decode raw = .ok (.message m) → m.username? = some user →
    first source user = none
  unproven : ∀ m user, Packet.decode raw = .ok (.message m) → m.username? = some user →
    ∃ secret, second source user = some secret ∧
      verifyIntegrity raw (longTermKey user realm secret) ≠ .ok ()

variable {random other : Randomness} {raw : Bytes} {source : TransportAddress} {lookup : Lookup}
  {password : Option String} {realm user : String} {e e' : PacketError}

theorem unproven_none : Unproven realm user raw none := nofun

theorem unproven_some {secret : String} (h : verifyIntegrity raw (longTermKey user realm secret) ≠ .ok ()) :
    Unproven realm user raw (some secret) := by
  rintro _ ⟨⟩
  exact h

theorem Conceals.unproven_first {first second : Directory} {m : Message}
    (h : Conceals realm raw source first second) (hdecode : Packet.decode raw = .ok (.message m))
    (huser : m.username? = some user) : Unproven realm user raw (first source user) := by
  rw [h.unknown m user hdecode huser]
  exact unproven_none

theorem Conceals.unproven_second {first second : Directory} {m : Message}
    (h : Conceals realm raw source first second) (hdecode : Packet.decode raw = .ok (.message m))
    (huser : m.username? = some user) : Unproven realm user raw (second source user) := by
  obtain ⟨secret, hsecret, hne⟩ := h.unproven m user hdecode huser
  rw [hsecret]
  exact unproven_some hne

theorem Lookup.Genuine.confirm_eq (h : lookup.Genuine realm)
    (hunproven : Unproven realm lookup.user lookup.raw password) :
    Credential.confirm realm lookup.user lookup.raw password = .error .integrityFailed := by
  obtain ⟨units, hlayout⟩ := Message.decode_eq_ok_iff.1 (Packet.decode_eq_message_iff.1 h.decoded)
  obtain ⟨hintegrity, -, -⟩ := Credential.claimant_eq_ok_iff.1 h.claimed
  obtain ⟨position, tlv, hfirst⟩ := hlayout.exists_integrity hintegrity
  obtain ⟨-, hlength⟩ := hlayout.find?_integrity hfirst
  cases hconfirm : Credential.confirm realm lookup.user lookup.raw password with
  | error e => rw [Credential.eq_of_confirm_error hfirst hlength hconfirm]
  | ok credential =>
    obtain ⟨-, secret, hsecret, hkey, hhash⟩ := (Credential.confirm_eq_ok_iff hfirst hlength).1 hconfirm
    refine absurd ?_ (hunproven secret hsecret)
    rw [hfirst.verifyIntegrity_eq hlength, ← hkey, if_pos hhash]

theorem PacketError.code?_of_isAuthFailure (h : e.isAuthFailure = true) : e.code? = some 401 := by
  cases e with
  | integrityMissing | integrityFailed | hashRefused => rfl
  | _ => cases h

namespace Site

variable {s t : Site} {now : Nat}

theorem resume_of_unproven (h : lookup.Genuine s.endpoint.config.realm)
    (hunproven : Unproven s.endpoint.config.realm lookup.user lookup.raw password) (random : Randomness)
    (now : Nat) :
    s.resume random lookup password now = ⟨.error .integrityFailed, [], s.countError⟩ := by
  rw [resume, complete, h.confirm_eq hunproven]
  rfl

theorem consult_of_unproven {directory : Directory}
    (h : ∀ m user, Packet.decode raw = .ok (.message m) → m.username? = some user →
      Unproven s.endpoint.config.realm user raw (directory source user)) (random : Randomness) (now : Nat) :
    s.consult random directory raw source now =
      match (s.receive raw source now).result with
      | .done answer =>
        ⟨answer, (s.receive raw source now).events, (s.receive raw source now).site⟩
      | .waiting _ => ⟨.error .integrityFailed, (s.receive raw source now).events,
          (s.receive raw source now).site.countError⟩ := by
  have hreceived := receive_spec s raw source now
  rw [consult]
  generalize s.receive raw source now = step at hreceived
  cases hreceived with
  | answered | dropped | refused | sent | forwarded => rfl
  | @waiting procedure m user hdecode htype _ hclaim =>
    have hgenuine : Lookup.Genuine (s.opened now).endpoint.config.realm ⟨procedure, m, raw, source, user⟩ :=
      ⟨hdecode, htype, hclaim⟩
    have hunproven := h m user hdecode (Credential.claimant_eq_ok_iff.1 hclaim).2.1
    simp only [resume_of_unproven hgenuine hunproven random now, Step.after, List.append_nil]

theorem result_reject_congr (hconfig : s.endpoint.config = t.endpoint.config)
    (hnonce : (random.nonce s.draws).1 = (other.nonce t.draws).1) (hcode : e.code? = e'.code?)
    (hchallenge : e.isAuthFailure = e'.isAuthFailure) :
    (s.reject random raw e).result = (t.reject other raw e').result := by
  have hattributes : (s.challengeAttributes random e).1 = (t.challengeAttributes other e').1 := by
    unfold challengeAttributes
    rw [hchallenge]
    split
    · simp only [hconfig, hnonce]
    · rfl
  have hsoftware (random : Randomness) (s : Site) (e : PacketError) :
      (s.challengeAttributes random e).2.endpoint = s.endpoint := by
    unfold challengeAttributes
    split <;> rfl
  unfold reject
  rw [hcode]
  split
  · split
    · simp only [hattributes, hsoftware, Endpoint.software, hconfig]
    · rfl
  · rfl

end Site

variable {log : List Record} {m : Moment}

/-- A user that the host does not know is refused like one whose password does not fit: with the same
result, the same events and the same site, now or after a wait, and then with the same bytes if the same
nonce is drawn. All authentication failures are answered with the same bytes. -/
theorem Run.unknown_user_concealed (h : Run random log m) (other : Randomness) :
    (∀ raw source first second, Conceals m.site.endpoint.config.realm raw source first second →
      let unknown := m.site.consult random first raw source m.now
      let known := m.site.consult other second raw source m.now
      unknown = known ∧
        ∀ e, (random.nonce unknown.site.draws).1 = (other.nonce known.site.draws).1 →
          (unknown.site.reject random raw e).result = (known.site.reject other raw e).result) ∧
    (∀ lookup ∈ m.waiting, ∀ secret,
      verifyIntegrity lookup.raw (longTermKey lookup.user m.site.endpoint.config.realm secret) ≠ .ok () →
      m.site.resume random lookup none m.now = m.site.resume other lookup (some secret) m.now) ∧
    ∀ (s t : Site) raw (e e' : PacketError), s.endpoint.config = t.endpoint.config →
      (random.nonce s.draws).1 = (other.nonce t.draws).1 → e.isAuthFailure = true →
      e'.isAuthFailure = true → (s.reject random raw e).result = (t.reject other raw e').result := by
  refine ⟨fun raw source first second hconceals => ?_, fun lookup hlookup secret hsecret => ?_,
    fun s t raw e e' hconfig hnonce he he' => ?_⟩
  · have hunknown := Site.consult_of_unproven (fun _ _ => hconceals.unproven_first) random m.now
    have hknown := Site.consult_of_unproven (fun _ _ => hconceals.unproven_second) other m.now
    have hsame := hunknown.trans hknown.symm
    refine ⟨hsame, fun e hnonce => ?_⟩
    exact Site.result_reject_congr (by rw [hsame]) hnonce rfl rfl
  · have hgenuine := h.sound.genuine lookup hlookup
    rw [Site.resume_of_unproven hgenuine unproven_none,
      Site.resume_of_unproven hgenuine (unproven_some hsecret)]
  · have hcode : e.code? = e'.code? := by
      rw [PacketError.code?_of_isAuthFailure he, PacketError.code?_of_isAuthFailure he']
    exact Site.result_reject_congr hconfig hnonce hcode (he.trans he'.symm)

namespace Sample

def nobody : Directory := fun _ _ => none

def mistaken : Directory := fun _ _ => some "guess"

end Sample

theorem unknown_user_concealed_sample :
    Conceals Sample.asked.site.endpoint.config.realm (Sample.request .allocate Sample.allocation)
        Sample.client Sample.nobody Sample.mistaken ∧
      (Sample.asked.site.consult Sample.random Sample.mistaken (Sample.request .allocate Sample.allocation)
        Sample.client Sample.asked.now).result.isOk = false ∧
      Sample.asked.site.consult Sample.random Sample.nobody (Sample.request .allocate Sample.allocation)
          Sample.client Sample.asked.now =
        Sample.asked.site.consult Sample.random Sample.mistaken (Sample.request .allocate Sample.allocation)
          Sample.client Sample.asked.now ∧
      Sample.asked.site.resume Sample.random (Sample.lookup .allocate Sample.allocation) none
          Sample.asked.now =
        Sample.asked.site.resume Sample.random (Sample.lookup .allocate Sample.allocation) (some "guess")
          Sample.asked.now ∧
      (Sample.asked.site.reject Sample.random (Sample.request .allocate Sample.allocation)
          .integrityMissing).result =
        (Sample.asked.site.reject Sample.random (Sample.request .allocate Sample.allocation)
          .hashRefused).result := by
  have hgenuine := Sample.run_asked.sound.genuine _ Sample.lookup_mem_waiting
  have hguess : verifyIntegrity (Sample.request .allocate Sample.allocation)
      (longTermKey "alice" Sample.asked.site.endpoint.config.realm "guess") ≠ .ok () :=
    fun hverify => absurd (congrArg Except.isOk hverify) (by decide +kernel)
  have hconceals : Conceals Sample.asked.site.endpoint.config.realm
      (Sample.request .allocate Sample.allocation) Sample.client Sample.nobody Sample.mistaken := by
    refine ⟨fun _ _ _ _ => rfl, fun m user hdecode huser => ⟨"guess", rfl, ?_⟩⟩
    cases hgenuine.decoded.symm.trans hdecode
    cases (Credential.claimant_eq_ok_iff.1 hgenuine.claimed).2.1.symm.trans huser
    exact hguess
  obtain ⟨hconsult, hresume, hreject⟩ := Run.unknown_user_concealed Sample.run_asked Sample.random
  exact ⟨hconceals, by decide +kernel, (hconsult _ _ _ _ hconceals).1,
    hresume _ Sample.lookup_mem_waiting "guess" hguess, hreject _ _ _ _ _ rfl rfl rfl rfl⟩

end TurnRelay
