import TurnRelay.Proofs.Message.Signature

namespace TurnRelay

namespace Message

variable {m m₁ m₂ : Message} {raw raw₁ raw₂ : Bytes} {units units₁ units₂ : List Tlv}
  {position : Nat} {tlv tlv₁ tlv₂ : Tlv}

def unstamped (m : Message) : Message :=
  { m with attributes := m.attributes.filter (·.type ≠ .fingerprint) }

theorem find?_unstamped (m : Message) {type : AttributeType} (h : type ≠ .fingerprint) :
    m.unstamped.find? type = m.find? type := by
  rw [find?, unstamped, List.find?_filter, find?]
  congr 2
  funext a
  by_cases htype : a.type = type
  · simp [htype, h]
  · simp [htype]

theorem filterMap_filter_of_none {α β : Type} {p : α → Bool} {f : α → Option β} {list : List α}
    (h : ∀ a ∈ list, p a = false → f a = none) : (list.filter p).filterMap f = list.filterMap f := by
  induction list with
  | nil => rfl
  | cons a list ih =>
    have hrest := ih fun b hb => h b (List.mem_cons_of_mem _ hb)
    cases hp : p a with
    | true => rw [List.filter_cons_of_pos hp, List.filterMap_cons, List.filterMap_cons, hrest]
    | false =>
      rw [List.filter_cons_of_neg (by simp [hp]), List.filterMap_cons_none (h a List.mem_cons_self hp), hrest]

theorem Layout.peers_unstamped (h : m.Layout raw units) : m.unstamped.peers = m.peers := by
  apply filterMap_filter_of_none
  intro a ha hstamp
  have htype : a.type = .fingerprint := by simpa using hstamp
  have hholds := h.reads.holds a ha
  rw [htype] at hholds
  split
  · next peer hvalue =>
    rw [hvalue] at hholds
    cases hholds
  · rfl

theorem find?_congr (h : m₁.unstamped = m₂.unstamped) {type : AttributeType} (htype : type ≠ .fingerprint) :
    m₁.find? type = m₂.find? type := by
  rw [← find?_unstamped m₁ htype, h, find?_unstamped m₂ htype]

theorem slice_congr {start width : Nat}
    (h : ∀ i, start ≤ i → i < start + width → raw₁[i]? = raw₂[i]?) :
    (raw₁.drop start).take width = (raw₂.drop start).take width := by
  apply List.ext_getElem?
  intro i
  rw [List.getElem?_take, List.getElem?_take, List.getElem?_drop, List.getElem?_drop]
  split
  · exact h _ (Nat.le_add_right _ _) (by omega)
  · rfl

theorem getElem?_eq_of_slice {start width index : Nat}
    (h : (raw₁.drop start).take width = (raw₂.drop start).take width) (hstart : start ≤ index)
    (hstop : index < start + width) : raw₁[index]? = raw₂[index]? := by
  have hbyte := congrArg (·[index - start]?) h
  simpa [List.getElem?_take, List.getElem?_drop, show index - start < width by omega,
    Nat.add_sub_cancel' hstart] using hbyte

theorem Layout.type_congr (h₁ : m₁.Layout raw₁ units₁) (h₂ : m₂.Layout raw₂ units₂)
    (h : raw₁.take 2 = raw₂.take 2) : m₁.type = m₂.type := by
  have hwire : m₁.type.toWire = m₂.type.toWire := by
    rw [← UInt16.toNat_inj, ← h₁.fields.1, ← h₂.fields.1, h]
  rw [← h₁.type_eq, ← h₂.type_eq, hwire]

theorem Layout.transaction_congr (h₁ : m₁.Layout raw₁ units₁) (h₂ : m₂.Layout raw₂ units₂)
    (h : (raw₁.drop 8).take 12 = (raw₂.drop 8).take 12) : m₁.transaction = m₂.transaction := by
  rw [← BitVec.toNat_inj, ← h₁.fields.2.2.2, ← h₂.fields.2.2.2, h]

theorem Layout.signed_bytes (h : m.Layout raw units)
    (hfirst : FirstUnit AttributeType.messageIntegrity.code raw position tlv) :
    ∃ front back, units = front ++ tlv :: back ∧
      (∀ other ∈ front, other.code ≠ AttributeType.messageIntegrity.code) ∧
      (∀ other ∈ front ++ [tlv], other.Intact) ∧
      Tlv.encodeAll (front ++ [tlv]) = (raw.drop headerSize).take (position + 24 - headerSize) := by
  obtain ⟨front, back, rfl, rfl, hfront⟩ := h.split hfirst
  obtain ⟨-, hlength⟩ := h.find?_integrity hfirst
  have hparts := h.intact
  simp only [List.forall_mem_append, List.forall_mem_cons] at hparts
  obtain ⟨hintact, hlast, -⟩ := hparts
  have hfill := hlast.fill_length
  rw [hlength] at hfill
  have htlv : tlv.encode.length = 24 := by rw [tlv.length_encode, hlength, hfill]; rfl
  refine ⟨front, back, rfl, hfront, List.forall_mem_append.2 ⟨hintact, by simpa using hlast⟩, ?_⟩
  have hwidth : headerSize + (Tlv.encodeAll front).length + 24 - headerSize =
      (Tlv.encodeAll (front ++ [tlv])).length := by
    simp only [Tlv.encodeAll_append, Tlv.encodeAll_cons, Tlv.encodeAll_nil, List.append_nil,
      List.length_append, htlv]
    omega
  have hbody : raw.drop headerSize = Tlv.encodeAll (front ++ [tlv]) ++ Tlv.encodeAll back := by
    rw [h.drop_eq]
    simp
  rw [hbody, hwidth, List.take_left' rfl]

theorem Layout.unstamped_attributes {front back : List Tlv} (h : m.Layout raw (front ++ tlv :: back))
    (hfront : ∀ other ∈ front, other.code ≠ AttributeType.messageIntegrity.code)
    (hcode : tlv.code = AttributeType.messageIntegrity.code) :
    ∃ kept : List Attribute, front.map (·.read m.transaction) = kept.map .ok ∧
      m.unstamped.attributes =
        kept.filter (·.type ≠ .fingerprint) ++ [⟨.messageIntegrity, .raw tlv.value⟩] := by
  obtain ⟨kept, tail, hattributes, hread, -, -, htail⟩ := h.reads.signed_split hfront hcode
  have hdropped : tail.filter (·.type ≠ .fingerprint) = [] :=
    List.filter_eq_nil_iff.2 (by simpa using htail)
  refine ⟨kept, hread, ?_⟩
  rw [unstamped, hattributes, List.filter_append, List.filter_cons_of_pos (by simp), hdropped]

theorem Layout.agree (h₁ : m₁.Layout raw₁ units₁) (h₂ : m₂.Layout raw₂ units₂)
    (hfirst₁ : FirstUnit AttributeType.messageIntegrity.code raw₁ position tlv₁)
    (hfirst₂ : FirstUnit AttributeType.messageIntegrity.code raw₂ position tlv₂)
    (hwire : raw₁.take 2 = raw₂.take 2) (hid : (raw₁.drop 8).take 12 = (raw₂.drop 8).take 12)
    (hopening : (raw₁.drop headerSize).take (position + 24 - headerSize) =
      (raw₂.drop headerSize).take (position + 24 - headerSize)) :
    m₁.unstamped = m₂.unstamped ∧ tlv₁ = tlv₂ := by
  have htype := h₁.type_congr h₂ hwire
  have htransaction := h₁.transaction_congr h₂ hid
  obtain ⟨front₁, back₁, rfl, hfront₁, hintact₁, hbytes₁⟩ := h₁.signed_bytes hfirst₁
  obtain ⟨front₂, back₂, rfl, hfront₂, hintact₂, hbytes₂⟩ := h₂.signed_bytes hfirst₂
  -- equal bytes split into equal units, so both bodies open alike
  have hunits : front₁ ++ [tlv₁] = front₂ ++ [tlv₂] :=
    Tlv.encodeAll_inj hintact₁ hintact₂ (hbytes₁.trans (hopening.trans hbytes₂.symm))
  obtain ⟨rfl, htlv⟩ := List.append_inj' hunits rfl
  obtain rfl : tlv₁ = tlv₂ := List.singleton_inj.1 htlv
  obtain ⟨kept₁, hread₁, hkept₁⟩ := h₁.unstamped_attributes hfront₁ hfirst₁.code_eq
  obtain ⟨kept₂, hread₂, hkept₂⟩ := h₂.unstamped_attributes hfront₂ hfirst₂.code_eq
  rw [← htransaction, hread₁, List.map_inj_right fun _ _ => Except.ok.inj] at hread₂
  have hattributes : m₁.unstamped.attributes = m₂.unstamped.attributes := by
    rw [hkept₁, hkept₂, hread₂]
  refine ⟨?_, rfl⟩
  rw [Message.mk.injEq]
  exact ⟨htype, htransaction, hattributes⟩

end Message

namespace Credential

theorem claimant_congr {m₁ m₂ : Message} (h : m₁.unstamped = m₂.unstamped) (realm : String) :
    claimant realm m₁ = claimant realm m₂ := by
  rw [claimant, claimant, Message.hasIntegrity, Message.hasIntegrity, Message.username?,
    Message.username?, Message.realm?, Message.realm?, Message.find?_congr h (by decide),
    Message.find?_congr h (by decide), Message.find?_congr h (by decide)]

theorem verify_congr {m₁ m₂ : Message} {raw₁ raw₂ : Bytes} (hmessage : m₁.unstamped = m₂.unstamped)
    (hbytes : ∀ key, verifyIntegrity raw₁ key = verifyIntegrity raw₂ key) (realm : String)
    (passwordOf : String → Option String) :
    verify realm passwordOf m₁ raw₁ = verify realm passwordOf m₂ raw₂ := by
  have hconfirm (name : String) (password : Option String) :
      confirm realm name raw₁ password = confirm realm name raw₂ password := by
    cases password with
    | none => rfl
    | some password => simp only [confirm, hbytes]
  simp only [verify, claimant_congr hmessage, hconfirm]

end Credential

/-- Nothing behind the hash counts, and neither does the length field. -/
theorem Message.trailer_ignored {m₁ m₂ : Message} {raw₁ raw₂ : Bytes} {position : Nat} {tlv₁ tlv₂ : Tlv}
    (h₁ : decode raw₁ = .ok m₁) (h₂ : decode raw₂ = .ok m₂)
    (hfirst₁ : FirstUnit AttributeType.messageIntegrity.code raw₁ position tlv₁)
    (hfirst₂ : FirstUnit AttributeType.messageIntegrity.code raw₂ position tlv₂)
    (hagree : ∀ i < position + 24, i ≠ 2 → i ≠ 3 → raw₁[i]? = raw₂[i]?) :
    m₁.unstamped = m₂.unstamped ∧
    (m₁.username? = m₂.username? ∧ m₁.realm? = m₂.realm? ∧ m₁.lifetime? = m₂.lifetime? ∧
      m₁.channelNumber? = m₂.channelNumber? ∧ m₁.requestedTransport? = m₂.requestedTransport? ∧
      m₁.requestedFamily? = m₂.requestedFamily? ∧ m₁.peers = m₂.peers ∧ m₁.data? = m₂.data?) ∧
    ∀ realm passwordOf,
      Credential.verify realm passwordOf m₁ raw₁ = Credential.verify realm passwordOf m₂ raw₂ := by
  obtain ⟨units₁, hlayout₁⟩ := decode_eq_ok_iff.1 h₁
  obtain ⟨units₂, hlayout₂⟩ := decode_eq_ok_iff.1 h₂
  have hposition : 20 ≤ position := hfirst₁.headerSize_le
  have hwire : (raw₁.drop 0).take 2 = (raw₂.drop 0).take 2 :=
    slice_congr fun i _ hi => hagree i (by omega) (by omega) (by omega)
  have hrest {start width : Nat} (hstart : 4 ≤ start) (hstop : start + width ≤ position + 24) :
      (raw₁.drop start).take width = (raw₂.drop start).take width :=
    slice_congr fun i hi hlt => hagree i (by omega) (by omega) (by omega)
  obtain ⟨hunstamped, rfl⟩ := hlayout₁.agree hlayout₂ hfirst₁ hfirst₂ hwire
    (hrest (by decide) (by omega)) (hrest (by decide) (by rw [headerSize]; omega))
  have hfind {type : AttributeType} (htype : type ≠ .fingerprint) := find?_congr hunstamped htype
  refine ⟨hunstamped, ⟨?_, ?_, ?_, ?_, ?_, ?_, ?_, ?_⟩, ?_⟩
  · rw [username?, username?, hfind (by decide)]
  · rw [realm?, realm?, hfind (by decide)]
  · rw [lifetime?, lifetime?, hfind (by decide)]
  · rw [channelNumber?, channelNumber?, hfind (by decide)]
  · rw [requestedTransport?, requestedTransport?, hfind (by decide)]
  · rw [requestedFamily?, requestedFamily?, hfind (by decide)]
  · rw [← hlayout₁.peers_unstamped, hunstamped, hlayout₂.peers_unstamped]
  · rw [data?, data?, hfind (by decide)]
  · apply Credential.verify_congr hunstamped
    intro key
    obtain ⟨-, hlength⟩ := hlayout₁.find?_integrity hfirst₁
    have hcovered : (raw₁.take position).drop 4 = (raw₂.take position).drop 4 := by
      rw [List.drop_take, List.drop_take]
      exact hrest (Nat.le_refl 4) (by omega)
    have htype : raw₁.take 2 = raw₂.take 2 := hwire
    rw [hfirst₁.verifyIntegrity_eq hlength, hfirst₂.verifyIntegrity_eq hlength, integrityCover,
      integrityCover, hcovered, htype]

namespace Sample

def trailedBytes : Bytes :=
  let body := renewal.sign (some renewalKey) renewal.body ++
    Attribute.encode renewal.transaction ⟨.lifetime, .lifetime 0⟩
  renewal.header body.length ++ body

def hashPosition : Nat := headerSize + renewal.body.length

def hashUnit : Tlv :=
  Attribute.unit renewal.transaction ⟨.messageIntegrity, .raw (renewal.integrityOf renewalKey renewal.body)⟩

theorem decode_trailedBytes : Message.decode trailedBytes = .ok signedRenewal :=
  eq_ok_of_toOption (by decide +kernel)

theorem firstUnit_signedBytes :
    FirstUnit AttributeType.messageIntegrity.code signedBytes hashPosition hashUnit :=
  ⟨renewal.attributes.map (·.unit renewal.transaction), [], by decide +kernel, by decide +kernel,
    by decide +kernel, by decide +kernel, rfl⟩

theorem firstUnit_trailedBytes :
    FirstUnit AttributeType.messageIntegrity.code trailedBytes hashPosition hashUnit :=
  ⟨renewal.attributes.map (·.unit renewal.transaction), trailedBytes.drop (hashPosition + 24),
    by decide +kernel, by decide +kernel, by decide +kernel, by decide +kernel, rfl⟩

end Sample

theorem trailer_ignored_sample :
    Sample.trailedBytes.length = Sample.signedBytes.length + 8 ∧
      ∀ realm passwordOf, Credential.verify realm passwordOf Sample.signedRenewal Sample.signedBytes =
        Credential.verify realm passwordOf Sample.signedRenewal Sample.trailedBytes :=
  ⟨by decide +kernel, (Message.trailer_ignored Sample.decode_signedBytes Sample.decode_trailedBytes
    Sample.firstUnit_signedBytes Sample.firstUnit_trailedBytes (by decide +kernel)).2.2⟩

end TurnRelay
