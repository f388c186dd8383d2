import TurnRelay.Proofs.Site.Execution
import TurnRelay.Proofs.Table.Conservation

namespace TurnRelay

def Holdings.Left (now : Nat) (before after : Option Allocation) : Prop :=
  after = before ∨ after = kept now before

namespace Step

variable {α : Type}

@[simp] theorem holdings_settled (step : Step Answer) :
    step.settled.site.holdings = step.site.holdings := by
  unfold settled
  split <;> rfl

@[simp] theorem table_settled (step : Step Answer) :
    step.settled.site.endpoint.table = step.site.endpoint.table := by
  unfold settled
  split <;> rfl

@[simp] theorem identity_settled (step : Step Answer) :
    step.settled.site.endpoint.identity = step.site.endpoint.identity := by
  unfold settled
  split <;> rfl

@[simp] theorem events_settled (step : Step Answer) : step.settled.events = step.events := by
  unfold settled
  split <;> rfl

@[simp] theorem result_settled (step : Step Answer) : step.settled.result = step.result := by
  unfold settled
  split <;> rfl

end Step

namespace Site

open Holdings

variable {random : Randomness} {s : Site} {source : TransportAddress} {user : String} {now : Nat}
  {raw : Bytes} {lookup : Lookup} {password : Option String} {tuple : FiveTuple}

theorem get?_opened (s : Site) (now : Nat) (tuple : FiveTuple) :
    (s.opened now).endpoint.table.allocations.get? tuple =
      kept now (s.endpoint.table.allocations.get? tuple) :=
  get?_reap ..

theorem get?_reaped (s : Site) (now : Nat) (tuple : FiveTuple) :
    (s.reaped now).endpoint.table.allocations.get? tuple =
      kept now (s.endpoint.table.allocations.get? tuple) :=
  get?_reap ..

theorem get?_put_other {table : AllocationTable} {other : FiveTuple} {a : Allocation}
    (h : tuple ≠ other) : (table.put other a).allocations.get? tuple = table.allocations.get? tuple := by
  rw [AllocationTable.get?_put, if_neg h]

theorem Received.others {step : Step Progress} (h : Received s raw source now step)
    (hne : tuple ≠ s.endpoint.tuple source) :
    step.site.endpoint.table.allocations.get? tuple =
      kept now (s.endpoint.table.allocations.get? tuple) := by
  cases h with
  | answered _ _ => exact get?_opened s now tuple
  | dropped => exact get?_opened s now tuple
  | refused e => exact get?_opened s now tuple
  | waiting _ _ _ _ => exact get?_opened s now tuple
  | sent _ _ _ _ _ _ => exact (get?_put_other hne).trans (get?_opened s now tuple)
  | forwarded _ _ _ _ => exact get?_opened s now tuple

theorem Executed.others {command : Command} {step : Step (Except PacketError (List Attribute))}
    (h : Executed random s source user now command step) (hne : tuple ≠ s.endpoint.tuple source) :
    Left now (s.endpoint.table.allocations.get? tuple)
      (step.site.endpoint.table.allocations.get? tuple) := by
  cases h with
  | created _ _ =>
    apply Or.inr
    rw [← get?_reaped]
    exact (Dictionary.get?_insert ..).trans (if_neg hne)
  | extended _ _ => exact .inr ((get?_put_other hne).trans (get?_reaped s now tuple))
  | occupied _ _ => exact .inr (get?_reaped s now tuple)
  | exhausted _ _ => exact .inr (get?_reaped s now tuple)
  | disowned _ _ => exact .inl rfl
  | renewed _ _ => exact .inl (get?_put_other hne)
  | deleted _ => exact .inl ((get?_remove ..).trans (if_neg hne))
  | permitted _ _ => exact .inl (get?_put_other hne)
  | bound _ _ => exact .inl (get?_put_other hne)
  | unbound _ _ => exact .inl (get?_put_other hne)

theorem Resumed.others {step : Step Answer} (h : Resumed random s lookup password now step)
    (hne : tuple ≠ s.endpoint.tuple lookup.source) :
    Left now (s.endpoint.table.allocations.get? tuple)
      (step.site.endpoint.table.allocations.get? tuple) := by
  cases h with
  | refused e => exact .inl rfl
  | executed _ _ hexecuted =>
    rw [Step.table_settled]
    exact hexecuted.others hne

theorem Received.identity {step : Step Progress} (h : Received s raw source now step) :
    step.site.endpoint.identity = s.endpoint.identity := by
  cases h <;> rfl

theorem Executed.identity {command : Command} {step : Step (Except PacketError (List Attribute))}
    (h : Executed random s source user now command step) :
    step.site.endpoint.identity = s.endpoint.identity := by
  cases h <;> rfl

theorem Resumed.identity {step : Step Answer} (h : Resumed random s lookup password now step) :
    step.site.endpoint.identity = s.endpoint.identity := by
  cases h with
  | refused e => rfl
  | executed _ _ hexecuted =>
    rw [Step.identity_settled]
    exact hexecuted.identity

theorem Delivered.identity {port : UInt16} {peer : TransportAddress} {payload : Bytes}
    {step : Step (Option Response)} (h : Delivered random s port peer payload now step) :
    step.site.endpoint.identity = s.endpoint.identity := by
  cases h <;> rfl

theorem Received.conserves {step : Step Progress} (h : Received s raw source now step)
    (hs : s.holdings.Sound) : s.holdings.Conserves step.site.holdings := by
  have hreap := conserves_reap hs now
  cases h with
  | answered _ _ => exact hreap
  | dropped => exact hreap
  | refused e => exact hreap
  | waiting _ _ _ _ => exact hreap
  | sent _ _ _ _ hfind _ =>
    have ha := (AllocationTable.find?_eq_some_iff.1 hfind).1
    exact hreap.trans (conserves_put hreap.sound ha
      ((hreap.sound.wellFormed.fits ha).permit _ now) rfl)
  | forwarded _ _ _ _ => exact hreap

theorem Executed.conserves {command : Command} {step : Step (Except PacketError (List Attribute))}
    (h : Executed random s source user now command step) (hs : s.holdings.Sound) :
    s.holdings.Conserves step.site.holdings := by
  have hreap := conserves_reap hs now
  cases h with
  | created hnone hdraw => exact hreap.trans (conserves_grant hreap.sound hnone hdraw user _ now)
  | extended ha _ =>
    exact hreap.trans (conserves_put hreap.sound ha ((hreap.sound.wellFormed.fits ha).extend _) rfl)
  | occupied _ _ => exact hreap
  | exhausted _ _ => exact hreap
  | disowned _ _ => exact .refl hs
  | renewed _ howned =>
    have ha := (AllocationTable.stored_of_owned howned).1
    exact conserves_put hs ha ((hs.wellFormed.fits ha).extend _) rfl
  | deleted _ => exact conserves_remove hs _
  | permitted _ howned =>
    have ha := (AllocationTable.stored_of_owned howned).1
    exact conserves_put hs ha ((hs.wellFormed.fits ha).permitEach _ now)
      (by rw [Allocation.permitEach_eq])
  | bound howned hadmits =>
    have ha := (AllocationTable.stored_of_owned howned).1
    exact conserves_put hs ha (((hs.wellFormed.fits ha).storeChannel hadmits).permit _ now) rfl
  | unbound howned hchannels =>
    have ha := (AllocationTable.stored_of_owned howned).1
    have hfits := hs.wellFormed.fits ha
    rcases hchannels with rfl | rfl
    · exact conserves_put hs ha hfits rfl
    · exact conserves_put hs ha (hfits.reapChannels now) rfl

theorem Resumed.conserves {step : Step Answer} (h : Resumed random s lookup password now step)
    (hs : s.holdings.Sound) : s.holdings.Conserves step.site.holdings := by
  cases h with
  | refused e => exact .refl hs
  | executed _ _ hexecuted =>
    rw [Step.holdings_settled]
    exact hexecuted.conserves hs

theorem Delivered.conserves {port : UInt16} {peer : TransportAddress} {payload : Bytes}
    {step : Step (Option Response)} (h : Delivered random s port peer payload now step)
    (hs : s.holdings.Sound) : s.holdings.Conserves step.site.holdings := by
  cases h with
  | oversize => exact .refl hs
  | dropped => exact conserves_reap hs now
  | delivered _ _ => exact conserves_reap hs now

end Site

end TurnRelay
