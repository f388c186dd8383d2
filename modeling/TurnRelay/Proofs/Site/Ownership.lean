import TurnRelay.Proofs.Site.History
import TurnRelay.Proofs.Table.Fading

namespace TurnRelay

variable {now : Nat}

/-- How a call may change the entry of a 5-tuple from `before` to `after`. -/
inductive Change (m : Moment) (tuple : FiveTuple) (before after : Option Allocation) : Call → Prop
  | faded {call : Call} : Faded m.now before after → Change m tuple before after call
  | extended {raw : Bytes} {source : TransportAddress} {message : Message} {peer : TransportAddress}
      {a : Allocation} : tuple = m.site.endpoint.tuple source →
      Packet.decode raw = .ok (.message message) → message.type = ⟨.send, .indication⟩ →
      message.peers.head? = some peer → Faded m.now before (some a) → m.now < a.ends →
      a.isPermitted peer.ip m.now = true → after = some (a.permit peer.ip m.now) →
      Change m tuple before after (.receive raw source)
  | owned {lookup : Lookup} {password : Option String} {user : String} {mid : Option Allocation} :
      tuple = m.site.endpoint.tuple lookup.source →
      lookup.Authentic m.site.endpoint.config.realm password lookup.source user →
      lookup.request.type = Site.procedureType lookup.procedure → Faded m.now before mid →
      (∀ a, mid = some a → a.username = user) → (∀ b, after = some b → b.username = user) →
      Change m tuple before after (.resume lookup password)

namespace Site

variable {random : Randomness} {s : Site} {source : TransportAddress} {user : String}
  {tuple : FiveTuple} {command : Command} {step : Step (Except PacketError (List Attribute))}

theorem faded_kept (hs : s.Sound) (now : Nat) (tuple : FiveTuple) :
    Faded now (s.endpoint.table.allocations.get? tuple)
      (Holdings.kept now (s.endpoint.table.allocations.get? tuple)) :=
  .kept fun _ ha => (hs.holdings.wellFormed.fits ha).paired

theorem faded_left (hs : s.Sound) {after : Option Allocation}
    (h : Holdings.Left now (s.endpoint.table.allocations.get? tuple) after) :
    Faded now (s.endpoint.table.allocations.get? tuple) after := by
  rcases h with rfl | rfl
  · exact .refl _
  · exact faded_kept hs now tuple

def OwnedChange (now : Nat) (user : String) (before after : Option Allocation) : Prop :=
  Faded now before after ∨ ∃ mid, Faded now before mid ∧ (∀ a, mid = some a → a.username = user) ∧
    ∀ b, after = some b → b.username = user

theorem ownedChange_put {a b : Allocation}
    (howned : s.endpoint.table.owned (s.endpoint.tuple source) user now = .ok a)
    (hb : b.username = a.username) :
    OwnedChange now user (s.endpoint.table.allocations.get? (s.endpoint.tuple source))
      ((s.endpoint.table.put (s.endpoint.tuple source) b).allocations.get?
        (s.endpoint.tuple source)) := by
  obtain ⟨ha, huser⟩ := AllocationTable.stored_of_owned howned
  refine .inr ⟨_, .refl _, ?_, ?_⟩
  · intro c hc
    cases ha.symm.trans hc
    exact huser
  · intro c hc
    cases AllocationTable.eq_of_get?_put hc
    exact hb.trans huser

theorem Executed.own (h : Executed random s source user now command step) (hs : s.Sound) :
    OwnedChange now user (s.endpoint.table.allocations.get? (s.endpoint.tuple source))
      (step.site.endpoint.table.allocations.get? (s.endpoint.tuple source)) := by
  have hkept := faded_kept hs now (s.endpoint.tuple source)
  rw [← get?_reaped] at hkept
  cases h with
  | created hnone _ =>
    refine .inr ⟨none, hnone ▸ hkept, (fun a ha => nomatch ha), fun b hb => ?_⟩
    cases (Dictionary.get?_insert_self ..).symm.trans hb
    rfl
  | extended ha huser =>
    refine .inr ⟨_, hkept, fun b hb => ?_, fun b hb => ?_⟩
    · cases ha.symm.trans hb
      exact huser
    · cases AllocationTable.eq_of_get?_put hb
      exact huser
  | occupied _ _ => exact .inl hkept
  | exhausted _ _ => exact .inl hkept
  | disowned _ _ => exact .inl (.refl _)
  | renewed _ howned => exact ownedChange_put howned rfl
  | deleted howned =>
    obtain ⟨ha, huser⟩ := AllocationTable.stored_of_owned howned
    refine .inr ⟨_, .refl _, fun b hb => ?_, fun b hb => ?_⟩
    · cases ha.symm.trans hb
      exact huser
    · cases ((Holdings.get?_remove ..).trans (if_pos rfl)).symm.trans hb
  | permitted _ howned => exact ownedChange_put howned (by rw [Allocation.permitEach_eq])
  | bound howned _ => exact ownedChange_put howned rfl
  | unbound howned hchannels =>
    have ha := (AllocationTable.stored_of_owned howned).1
    apply Or.inl
    change Faded now _ ((s.endpoint.table.put _ _).allocations.get? _)
    rw [AllocationTable.get?_put_self, ha]
    rcases hchannels with rfl | rfl
    · exact .refl _
    · exact .stays ⟨rfl, rfl, rfl, rfl, rfl, .refl _, .reap (hs.holdings.wellFormed.fits ha).paired⟩

theorem Received.own {raw : Bytes} {step : Step Progress} (h : Received s raw source now step)
    (hs : s.Sound) :
    Faded now (s.endpoint.table.allocations.get? (s.endpoint.tuple source))
        (step.site.endpoint.table.allocations.get? (s.endpoint.tuple source)) ∨
      ∃ m peer a, Packet.decode raw = .ok (.message m) ∧ m.type = ⟨.send, .indication⟩ ∧
        m.peers.head? = some peer ∧
        Faded now (s.endpoint.table.allocations.get? (s.endpoint.tuple source)) (some a) ∧
        now < a.ends ∧ a.isPermitted peer.ip now = true ∧
        step.site.endpoint.table.allocations.get? (s.endpoint.tuple source) =
          some (a.permit peer.ip now) := by
  have hkept := faded_kept hs now (s.endpoint.tuple source)
  rw [← get?_opened] at hkept
  cases h with
  | answered _ _ => exact .inl hkept
  | dropped => exact .inl hkept
  | refused e => exact .inl hkept
  | waiting _ _ _ _ => exact .inl hkept
  | @sent m peer _ a hdecode htype hpeer _ hfind hpermitted =>
    obtain ⟨ha, hlive⟩ := AllocationTable.find?_eq_some_iff.1 hfind
    exact .inr ⟨m, peer, a, hdecode, htype, hpeer, ha ▸ hkept, hlive, hpermitted,
      AllocationTable.get?_put_self ..⟩
  | forwarded _ _ _ _ => exact .inl hkept

end Site

theorem Run.changes_owned {random : Randomness} {log : List Record} {m : Moment} {call : Call}
    (h : Run random log m) (hfits : call.Fits m.waiting) (hcall : call ≠ .shutdown) (tuple : FiveTuple) :
    Change m tuple (m.site.endpoint.table.allocations.get? tuple)
      ((m.serve random call).site.endpoint.table.allocations.get? tuple) call := by
  have hs := h.sound.site
  have hserved := Site.serve_spec random m.site m.now call
  change Change m tuple _
    ((m.site.serve random m.now call).site.endpoint.table.allocations.get? tuple) call
  generalize m.site.serve random m.now call = step at hserved
  cases hserved with
  | @received raw source _ hreceived =>
    by_cases htuple : tuple = m.site.endpoint.tuple source
    · subst htuple
      rcases hreceived.own hs with hfaded | ⟨message, peer, a, hdecode, htype, hpeer, hfaded, hlive,
        hpermitted, hafter⟩
      · exact .faded hfaded
      · exact .extended rfl hdecode htype hpeer hfaded hlive hpermitted hafter
    · exact .faded (Site.faded_left hs (.inr (hreceived.others htuple)))
  | @resumed lookup password _ hresumed =>
    by_cases htuple : tuple = m.site.endpoint.tuple lookup.source
    · subst htuple
      cases hresumed with
      | refused e => exact .faded (.refl _)
      | executed hconfirm hcommand hexecuted =>
        have hgenuine := h.sound.genuine _ hfits
        change Change m _ _ ((Step.settled _).site.endpoint.table.allocations.get? _) _
        rw [Step.table_settled]
        rcases hexecuted.own hs with hfaded | ⟨mid, hfaded, hmid, hafter⟩
        · exact .faded hfaded
        · exact .owned rfl (hgenuine.authentic hconfirm) hgenuine.type_eq hfaded hmid hafter
    · exact .faded (Site.faded_left hs (hresumed.others htuple))
  | delivered hdelivered =>
    cases hdelivered with
    | oversize => exact .faded (.refl _)
    | dropped =>
      have hkept := Site.faded_kept hs m.now tuple
      rw [← Site.get?_reaped] at hkept
      exact .faded hkept
    | delivered _ _ =>
      have hkept := Site.faded_kept hs m.now tuple
      rw [← Site.get?_reaped] at hkept
      exact .faded hkept
  | rejected => exact .faded (.refl _)
  | stopped => exact absurd rfl hcall

theorem changes_owned_sample :
    (Sample.answer .allocate Sample.allocation).Fits Sample.asked.waiting ∧
      Change Sample.asked (Sample.asked.site.endpoint.tuple Sample.client)
        (Sample.asked.site.endpoint.table.allocations.get?
          (Sample.asked.site.endpoint.tuple Sample.client))
        ((Sample.asked.serve Sample.random
          (Sample.answer .allocate Sample.allocation)).site.endpoint.table.allocations.get?
            (Sample.asked.site.endpoint.tuple Sample.client))
        (Sample.answer .allocate Sample.allocation) := by
  have hfits : (Sample.answer .allocate Sample.allocation).Fits Sample.asked.waiting :=
    Sample.lookup_mem_waiting
  exact ⟨hfits, Run.changes_owned Sample.run_asked hfits Call.noConfusion _⟩

end TurnRelay
