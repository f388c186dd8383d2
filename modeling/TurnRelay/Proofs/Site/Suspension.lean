import TurnRelay.Proofs.Site.Run
import TurnRelay.Proofs.Table.View

namespace TurnRelay

structure Step.Agree {α : Type} (now : Nat) (first second : Step α) : Prop where
  result_eq : first.result = second.result
  view_eq : first.site.endpoint.table.view now = second.site.endpoint.table.view now

namespace Site

/-- The handling of a packet as a whole, with a host that answers at once. -/
def process (random : Randomness) (s : Site) (raw : Bytes) (source : TransportAddress)
    (password : Option String) (now : Nat) : Step Answer :=
  let first := s.receive raw source now
  match first.result with
  | .done answer => ⟨answer, first.events, first.site⟩
  | .waiting lookup => (first.site.resume random lookup password now).after first.events

variable {random : Randomness} {s : Site} {source : TransportAddress} {user : String} {now : Nat}
  {seconds : UInt32} {a : Allocation} {e : PacketError} {lookup : Lookup}

theorem view_opened (hs : s.Sound) (now : Nat) :
    (s.opened now).endpoint.table.view now = s.endpoint.table.view now :=
  Holdings.view_reap hs.holdings now

theorem owned_opened (s : Site) (now : Nat) (tuple : FiveTuple) (user : String) :
    (s.opened now).endpoint.table.owned tuple user now =
      (s.endpoint.table.owned tuple user now).map (·.sweep now) :=
  Holdings.owned_reap s.holdings now tuple user

theorem paired_of_owned (hs : s.Sound) {tuple : FiveTuple}
    (h : s.endpoint.table.owned tuple user now = .ok a) : a.channels.Paired :=
  (hs.holdings.wellFormed.fits (AllocationTable.stored_of_owned h).1).paired

theorem agree_allocate (random : Randomness) (s : Site) (source : TransportAddress) (user : String)
    (seconds : UInt32) (now : Nat) :
    (s.allocate random source user seconds now).Agree now
      ((s.opened now).allocate random source user seconds now) := by
  have hsame : (s.opened now).allocated random source user seconds now =
      s.allocated random source user seconds now := by
    rw [allocated, holdings_opened, Holdings.reap_reap]
    rfl
  rw [allocate_eq, allocate_eq, hsame]
  rcases s.allocated random source user seconds now with ⟨outcome, h, draws⟩
  cases outcome with
  | error e => exact ⟨rfl, rfl⟩
  | ok outcome =>
    cases outcome with
    | created relay => exact ⟨rfl, rfl⟩
    | refreshed relay => exact ⟨rfl, rfl⟩

theorem agree_refresh (hs : s.Sound) (source : TransportAddress) (user : String) (seconds : UInt32)
    (now : Nat) :
    (s.refresh source user seconds now).Agree now
      ((s.opened now).refresh source user seconds now) := by
  have hopened := owned_opened s now (s.endpoint.tuple source) user
  have hview := (view_opened hs now).symm
  cases howned : s.endpoint.table.owned (s.endpoint.tuple source) user now with
  | error e =>
    rw [howned] at hopened
    rw [refresh_of_error howned, refresh_of_error hopened]
    exact ⟨rfl, hview⟩
  | ok a =>
    rw [howned] at hopened
    rw [refresh_of_owned howned, refresh_of_owned hopened]
    split
    · exact ⟨rfl, Holdings.view_remove_congr hview (s.endpoint.tuple source)⟩
    · have hextend := (Allocation.view_extend_sweep (paired_of_owned hs howned) now
        (now + milliseconds seconds)).symm
      exact ⟨rfl, AllocationTable.view_put_congr hview hextend (s.endpoint.tuple source)⟩

theorem agree_permit (hs : s.Sound) (source : TransportAddress) (user : String)
    {peers : List TransportAddress} (hne : peers ≠ []) (now : Nat) :
    (s.permit source user peers now).Agree now ((s.opened now).permit source user peers now) := by
  have hopened := owned_opened s now (s.endpoint.tuple source) user
  have hview := (view_opened hs now).symm
  cases howned : s.endpoint.table.owned (s.endpoint.tuple source) user now with
  | error e =>
    rw [howned] at hopened
    rw [permit_of_error howned hne, permit_of_error hopened hne]
    exact ⟨rfl, hview⟩
  | ok a =>
    rw [howned] at hopened
    rw [permit_of_owned howned hne, permit_of_owned hopened hne]
    have hpermit := (Allocation.view_permitEach_sweep (paired_of_owned hs howned)
      (peers.map (·.ip)) now).symm
    exact ⟨rfl, AllocationTable.view_put_congr hview hpermit (s.endpoint.tuple source)⟩

theorem agree_bindChannel (hs : s.Sound) (source : TransportAddress) (user : String)
    (number : UInt16) (peer : TransportAddress) (now : Nat) :
    (s.bindChannel source user number peer now).Agree now
      ((s.opened now).bindChannel source user number peer now) := by
  have hopened := owned_opened s now (s.endpoint.tuple source) user
  have hview := (view_opened hs now).symm
  cases howned : s.endpoint.table.owned (s.endpoint.tuple source) user now with
  | error e =>
    rw [howned] at hopened
    rw [bindChannel_of_error howned, bindChannel_of_error hopened]
    exact ⟨rfl, hview⟩
  | ok a =>
    rw [howned] at hopened
    rw [bindChannel_of_owned howned, bindChannel_of_owned hopened]
    have hpaired := paired_of_owned hs howned
    have hput : ∀ {b c : Allocation}, b.view now = c.view now →
        (s.endpoint.table.put (s.endpoint.tuple source) b).view now =
          ((s.opened now).endpoint.table.put (s.endpoint.tuple source) c).view now := fun h =>
      AllocationTable.view_put_congr hview h (s.endpoint.tuple source)
    cases hnumber : isChannelNumber number with
    | false =>
      simp only [ChannelTable.bind, hnumber, Bool.false_eq_true, if_false]
      exact ⟨rfl, hput (Allocation.view_sweep hpaired now).symm⟩
    | true =>
      have hchannels : (a.sweep now).channels.bind number peer now = a.channels.bind number peer now :=
        a.channels.bind_reap hnumber peer now
      simp only [hchannels]
      rcases a.channels.bind number peer now with ⟨bound, channels⟩
      cases bound with
      | error e => exact ⟨rfl, hput (a.view_bind_sweep channels now).symm⟩
      | ok new => exact ⟨rfl, hput (a.view_permit_sweep channels peer.ip now).symm⟩

theorem agree_execute (hs : s.Sound) (random : Randomness) (source : TransportAddress) (user : String)
    (now : Nat) {command : Command} (hne : command ≠ .permit []) :
    (s.execute random source user now command).Agree now
      ((s.opened now).execute random source user now command) := by
  cases command with
  | allocate seconds => exact agree_allocate random s source user seconds now
  | refresh seconds => exact agree_refresh hs source user seconds now
  | permit peers => exact agree_permit hs source user (fun he => hne (he ▸ rfl)) now
  | bindChannel number peer => exact agree_bindChannel hs source user number peer now

theorem agree_settled {first second : Step Answer} (h : first.Agree now second) :
    first.settled.Agree now second.settled := by
  refine ⟨?_, ?_⟩
  · rw [Step.result_settled, Step.result_settled, h.result_eq]
  · rw [Step.table_settled, Step.table_settled, h.view_eq]

theorem agree_resume (hs : s.Sound) (random : Randomness) (lookup : Lookup) (password : Option String)
    (now : Nat) :
    (s.resume random lookup password now).Agree now
      ((s.opened now).resume random lookup password now) := by
  apply agree_settled
  have hview := (view_opened hs now).symm
  have hconfig : (s.opened now).endpoint.config = s.endpoint.config := rfl
  have hexternal : (s.opened now).endpoint.external = s.endpoint.external := rfl
  rw [complete, complete, hconfig, hexternal]
  cases hconfirm : Credential.confirm s.endpoint.config.realm lookup.user lookup.raw password with
  | error e => exact ⟨rfl, hview⟩
  | ok credential =>
    cases hcommand : Command.ofRequest s.endpoint.config s.endpoint.external.ip lookup.request
        lookup.procedure with
    | error e => exact ⟨rfl, hview⟩
    | ok command =>
      have hagree := agree_execute hs random lookup.source lookup.user now
        (Command.ofRequest_spec hcommand).ne_permit_nil
      exact ⟨congrArg (s.sealed lookup credential.key) hagree.result_eq, hagree.view_eq⟩

theorem receive_of_genuine (h : lookup.Genuine s.endpoint.config.realm) (now : Nat) :
    s.receive lookup.raw lookup.source now =
      if lookup.procedure.needsAllocation = true ∧
          ((s.opened now).endpoint.find? lookup.source now).isNone = true then
        ⟨.done (.error .invalidInput), s.expiries now, (s.opened now).countError⟩
      else
        ⟨.waiting lookup, s.expiries now ++ [.passwordAsked lookup.source lookup.user],
          s.opened now⟩ := by
  have hreceive : s.receive lookup.raw lookup.source now =
      (((s.opened now).handle lookup.raw lookup.source now).after (s.expiries now)).settledProgress := rfl
  have hclaim : Credential.claimant (s.opened now).endpoint.config.realm lookup.request =
      .ok lookup.user := h.claimed
  rw [hreceive, handle, h.decoded]
  simp only [dispatch_procedure _ _ _ _ h.type_eq]
  rw [askPassword]
  split
  · simp only [Step.after, Step.settledProgress, List.append_nil]
  · simp only [hclaim]
    rfl

theorem resume_of_absent (hneeds : lookup.procedure.needsAllocation = true)
    (habsent : s.endpoint.find? lookup.source now = none) (random : Randomness)
    (password : Option String) :
    (∃ e, (s.resume random lookup password now).result = .error e) ∧
      (s.resume random lookup password now).site.endpoint.table = s.endpoint.table := by
  have hspec := resume_spec random s lookup password now
  generalize s.resume random lookup password now = step at hspec
  have hdisowned : ∀ {a}, s.endpoint.table.owned (s.endpoint.tuple lookup.source) lookup.user now ≠
      .ok a := by
    intro a howned
    cases habsent.symm.trans (AllocationTable.owned_eq_ok_iff.1 howned).1
  have hprocedure : lookup.procedure ≠ .allocate := by
    intro he
    rw [he] at hneeds
    cases hneeds
  cases hspec with
  | refused e => exact ⟨⟨e, rfl⟩, rfl⟩
  | executed _ hrequested hexecuted =>
    rw [Step.result_settled, Step.table_settled]
    cases hexecuted with
    | created _ _ => exact absurd hrequested.eq_allocate.1 hprocedure
    | extended _ _ => exact absurd hrequested.eq_allocate.1 hprocedure
    | occupied _ _ => exact absurd hrequested.eq_allocate.1 hprocedure
    | exhausted _ _ => exact absurd hrequested.eq_allocate.1 hprocedure
    | @disowned _ e _ _ => exact ⟨⟨e, rfl⟩, rfl⟩
    | renewed _ howned => exact absurd howned hdisowned
    | deleted howned => exact absurd howned hdisowned
    | permitted _ howned => exact absurd howned hdisowned
    | bound howned _ => exact absurd howned hdisowned
    | unbound howned _ => exact absurd howned hdisowned

theorem find?_opened (s : Site) (source : TransportAddress) (now : Nat) :
    (s.opened now).endpoint.find? source now =
      (s.endpoint.find? source now).map (·.sweep now) :=
  Holdings.find?_reap s.holdings now (s.endpoint.tuple source)

end Site

/-- Whatever happened while a lookup waited, its second step succeeds exactly if the packet would if it
came now, with the same response; and either way the same is live afterwards. -/
theorem Run.resume_atomic {random : Randomness} {log : List Record} {m : Moment} {lookup : Lookup}
    (h : Run random log m) (hwaiting : lookup ∈ m.waiting) (password : Option String) :
    (∀ response, (m.site.resume random lookup password m.now).result = .ok response ↔
      (m.site.process random lookup.raw lookup.source password m.now).result = .ok response) ∧
    (m.site.resume random lookup password m.now).site.endpoint.table.view m.now =
      (m.site.process random lookup.raw lookup.source password m.now).site.endpoint.table.view m.now := by
  have hs := h.sound.site
  have hreceive := Site.receive_of_genuine (h.sound.genuine lookup hwaiting) m.now
  -- a packet whose allocation has gone meanwhile is refused before the password is asked for
  by_cases hblocked : lookup.procedure.needsAllocation = true ∧
      ((m.site.opened m.now).endpoint.find? lookup.source m.now).isNone = true
  · rw [if_pos hblocked] at hreceive
    rw [Site.process, hreceive]
    have habsent : m.site.endpoint.find? lookup.source m.now = none := by
      have hnone := hblocked.2
      rw [Site.find?_opened] at hnone
      simpa using hnone
    obtain ⟨⟨e, hresult⟩, htable⟩ := Site.resume_of_absent hblocked.1 habsent random password
    rw [hresult, htable]
    exact ⟨fun response => by simp, (Site.view_opened hs m.now).symm⟩
  · rw [if_neg hblocked] at hreceive
    rw [Site.process, hreceive]
    have hagree := Site.agree_resume hs random lookup password m.now
    exact ⟨fun response => by rw [hagree.result_eq]; rfl, hagree.view_eq⟩

namespace Sample

def neighbour : TransportAddress := .v4 0xC6336408 5000

def longLease : List Attribute := ⟨.lifetime, .lifetime 1200⟩ :: allocation

def neighbourly (procedure : Procedure) : Lookup := { lookup procedure longLease with source := neighbour }

def outlivingCalls : List Call :=
  [ask .allocate allocation, answer .allocate allocation, .receive (request .allocate longLease) neighbour,
    .resume (neighbourly .allocate) (some "secret"), .receive (request .refresh longLease) neighbour]

/-- The neighbour asked for more time, and the password takes until the client's allocation has expired. -/
def outliving : Moment := { start.play random outlivingCalls with now := 700000 }

def renewed : Step Answer :=
  outliving.site.resume random (neighbourly .refresh) (some "secret") outliving.now

theorem outliving_spec : start.Plays random outlivingCalls ∧ neighbourly .refresh ∈ outliving.waiting ∧
    renewed.result.isOk = true := by
  decide +kernel

theorem run_outliving : Run random (start.records random outlivingCalls []) outliving :=
  (run_start.play outliving_spec.1).wait (by decide +kernel)

theorem exists_renewed : ∃ response, renewed.result = .ok response :=
  exists_of_isOk outliving_spec.2.2

end Sample

open Sample in
theorem resume_atomic_sample :
    neighbourly .refresh ∈ outliving.waiting ∧ (∃ response, renewed.result = .ok response) ∧
      let whole := outliving.site.process random (neighbourly .refresh).raw neighbour (some "secret") outliving.now
      (∀ response, renewed.result = .ok response ↔ whole.result = .ok response) ∧
        renewed.site.endpoint.table.view outliving.now = whole.site.endpoint.table.view outliving.now := by
  obtain ⟨-, hlookup, -⟩ := outliving_spec
  exact ⟨hlookup, exists_renewed, Run.resume_atomic run_outliving hlookup (some "secret")⟩

end TurnRelay
