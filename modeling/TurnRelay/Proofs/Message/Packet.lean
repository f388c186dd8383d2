import TurnRelay.Packet
import TurnRelay.Proofs.Message.Grammar

namespace TurnRelay

variable {raw payload : Bytes} {number : UInt16} {frame : ChannelData} {m : Message} {packet : Packet}
  {e : PacketError}

theorem ChannelData.eq_of_decode_error (h : decode raw = .error e) : e = .invalidInput := by
  unfold decode at h
  split at h
  · simp only at h
    split at h
    · split at h
      · cases h
      · cases h
        rfl
    · cases h
      rfl
  · cases h
    rfl

namespace Packet

theorem eq_error_of_map {α β : Type} {f : α → β} {result : Except PacketError α}
    (h : f <$> result = .error e) : result = .error e := by
  cases result with
  | error cause => exact congrArg _ (Except.error.inj h)
  | ok value => cases h

theorem ne_fatal_of_decode_error (h : decode raw = .error e) : e ≠ .fatal := by
  unfold decode at h
  split at h
  · cases h
    exact nofun
  · split at h
    · exact (Message.decode_eq_error_iff.1 (eq_error_of_map h)).ne_fatal
    · split at h
      · rw [ChannelData.eq_of_decode_error (eq_error_of_map h)]
        exact nofun
      · cases h
        exact nofun

theorem decode_eq_message_iff :
    decode raw = .ok (.message m) ↔ Message.decode raw = .ok m := by
  constructor
  · intro h
    unfold decode at h
    split at h
    · cases h
    · split at h
      · obtain ⟨read, hread, heq⟩ := map_eq_ok h
        cases heq
        exact hread
      · split at h
        · obtain ⟨frame, -, heq⟩ := map_eq_ok h
          cases heq
        · cases h
  · intro h
    obtain ⟨hlength, hfirst⟩ := (Message.header_of_decode h).1
    cases raw with
    | nil => cases hlength
    | cons first rest =>
      rw [decode, if_pos (hfirst first rfl), h]
      rfl

end Packet

namespace ChannelData

def declared (raw : Bytes) : Nat := ofBigEndian ((raw.drop 2).take 2)

/-- The number is one of a channel, and the length of the payload can be declared. -/
structure Framable (frame : ChannelData) : Prop where
  number : 0x4000 ≤ frame.number ∧ frame.number ≤ 0x7FFF
  payload : frame.payload.length ≤ 65535

theorem encode_eq_append (frame : ChannelData) (padded : Bool) :
    frame.encode padded =
      frame.encode false ++ zeros (if padded then padding frame.payload.length else 0) := by
  rw [encode, encode, if_neg Bool.false_ne_true, show zeros 0 = [] from rfl, List.append_nil]

theorem length_encode (frame : ChannelData) (padded : Bool) :
    (frame.encode padded).length =
      4 + frame.payload.length + if padded then padding frame.payload.length else 0 := by
  simp only [encode, List.length_append, length_u16, zeros, List.length_replicate]

theorem length_encode_mod (frame : ChannelData) : (frame.encode true).length % 4 = 0 := by
  have hpadded := length_add_padding frame.payload.length
  rw [length_encode, if_pos rfl]
  omega

theorem decode_append (h : frame.Framable) (rest : Bytes) :
    decode (frame.encode false ++ rest) = .ok frame := by
  have hnumber : UInt16.ofNat (ofBigEndian [.ofNat (frame.number.toNat / 256), .ofNat frame.number.toNat]) =
      frame.number := by
    rw [ofBigEndian_pair frame.number.toNat_lt, UInt16.ofNat_toNat]
  have htake : take? frame.payload.length (frame.payload ++ (zeros 0 ++ rest)) = some (frame.payload, rest) :=
    take?_eq_some_iff.2 ⟨rfl, rfl⟩
  simp only [encode, u16, bigEndian_two, List.append_assoc, List.cons_append, List.nil_append, decode,
    hnumber, isChannelNumber_iff.2 h.number, if_true, Bool.false_eq_true, if_false, ofBigEndian_pair (Nat.lt_succ_of_le h.payload), htake]

theorem decode_eq_ok_iff :
    decode raw = .ok frame ↔ frame.Framable ∧ ∃ rest, raw = frame.encode false ++ rest := by
  constructor
  · intro h
    unfold decode at h
    split at h
    · next n₁ n₀ l₁ l₀ bytes =>
      simp only at h
      split at h
      · next hnumber =>
        split at h
        · next payload rest htake =>
          cases h
          obtain ⟨rfl, hlength⟩ := take?_eq_some_iff.1 htake
          refine ⟨⟨isChannelNumber_iff.1 hnumber, ?_⟩, rest, ?_⟩
          · rw [hlength]
            exact Nat.le_of_lt_succ (ofBigEndian_pair_lt l₁ l₀)
          · simp [encode, UInt16.toNat_ofNat_of_lt' (ofBigEndian_pair_lt n₁ n₀), hlength, u16_ofBigEndian, zeros]
        · cases h
      · cases h
    · cases h
  · rintro ⟨hframable, rest, rfl⟩
    exact decode_append hframable rest

theorem decode_encode (h : frame.Framable) (padded : Bool) : decode (frame.encode padded) = .ok frame := by
  rw [encode_eq_append]
  exact decode_append h _

theorem encode_slices (h : frame.Framable) (rest : Bytes) :
    ofBigEndian ((frame.encode false ++ rest).take 2) = frame.number.toNat ∧
      declared (frame.encode false ++ rest) = frame.payload.length := by
  simp only [declared, encode, List.append_assoc]
  rw [List.take_left' (length_u16 _), List.drop_left' (length_u16 _), List.take_left' (length_u16 _)]
  exact ⟨ofBigEndian_bigEndian_of_lt frame.number.toNat_lt,
    ofBigEndian_bigEndian_of_lt (Nat.lt_succ_of_le h.payload)⟩

theorem encode_of_decode (h : decode raw = .ok frame) :
    4 + declared raw ≤ raw.length ∧ frame.encode false = raw.take (4 + declared raw) := by
  obtain ⟨hframable, rest, rfl⟩ := decode_eq_ok_iff.1 h
  have hlength : (frame.encode false).length = 4 + frame.payload.length := frame.length_encode false
  rw [(encode_slices hframable rest).2, ← hlength]
  exact ⟨by rw [List.length_append]; exact Nat.le_add_right _ _, (List.take_left' rfl).symm⟩

theorem exists_decode_iff : (∃ frame, decode raw = .ok frame) ↔
    4 ≤ raw.length ∧ (0x4000 ≤ ofBigEndian (raw.take 2) ∧ ofBigEndian (raw.take 2) ≤ 0x7FFF) ∧
      4 + declared raw ≤ raw.length := by
  constructor
  · rintro ⟨frame, h⟩
    have hlength := (encode_of_decode h).1
    obtain ⟨hframable, rest, rfl⟩ := decode_eq_ok_iff.1 h
    obtain ⟨hmin, hmax⟩ := hframable.number
    rw [(encode_slices hframable rest).1]
    exact ⟨Nat.le_trans (Nat.le_add_right 4 _) hlength, ⟨hmin, hmax⟩, hlength⟩
  · rintro ⟨hhead, ⟨hmin, hmax⟩, hlength⟩
    match raw, hhead with
    | n₁ :: n₀ :: l₁ :: l₀ :: bytes, _ =>
      change 0x4000 ≤ ofBigEndian [n₁, n₀] at hmin
      change ofBigEndian [n₁, n₀] ≤ 0x7FFF at hmax
      have hsize : ofBigEndian [l₁, l₀] ≤ bytes.length := by
        change 4 + ofBigEndian [l₁, l₀] ≤ bytes.length + 4 at hlength
        omega
      have hnumber : isChannelNumber (.ofNat (ofBigEndian [n₁, n₀])) = true := by
        rw [isChannelNumber_iff, UInt16.le_iff_toNat_le, UInt16.le_iff_toNat_le,
          UInt16.toNat_ofNat_of_lt' (Nat.lt_of_le_of_lt hmax (by decide))]
        exact ⟨hmin, hmax⟩
      have htake := take?_eq_some_iff.2
        ⟨(List.take_append_drop (ofBigEndian [l₁, l₀]) bytes).symm, List.length_take_of_le hsize⟩
      exact ⟨⟨.ofNat (ofBigEndian [n₁, n₀]), bytes.take (ofBigEndian [l₁, l₀])⟩, by
        simp only [decode, hnumber, if_true, htake]⟩

end ChannelData

theorem first_byte (hnumber : 0x4000 ≤ number ∧ number ≤ 0x7FFF) :
    0x40 ≤ UInt8.ofNat (number.toNat / 256) ∧ UInt8.ofNat (number.toNat / 256) < 0x80 := by
  obtain ⟨hmin, hmax⟩ := hnumber
  have hmin : 0x4000 ≤ number.toNat := hmin
  have hmax : number.toNat ≤ 0x7FFF := hmax
  rw [UInt8.le_iff_toNat_le, UInt8.lt_iff_toNat_lt, UInt8.toNat_ofNat', Nat.mod_eq_of_lt (by omega)]
  change 64 ≤ number.toNat / 256 ∧ number.toNat / 256 < 128
  omega

namespace Packet

theorem decode_eq_channelData_iff :
    decode raw = .ok (.channelData frame) ↔ ChannelData.decode raw = .ok frame := by
  constructor
  · intro h
    unfold decode at h
    split at h
    · cases h
    · split at h
      · obtain ⟨m, -, heq⟩ := map_eq_ok h
        cases heq
      · split at h
        · obtain ⟨read, hread, heq⟩ := map_eq_ok h
          cases heq
          exact hread
        · cases h
  · intro h
    obtain ⟨hframable, rest, hraw⟩ := ChannelData.decode_eq_ok_iff.1 h
    obtain ⟨hlow, hhigh⟩ := first_byte hframable.number
    have hfirst : raw = .ofNat (frame.number.toNat / 256) :: raw.tail := by rw [hraw]; rfl
    rw [hfirst] at h ⊢
    rw [decode, if_neg (UInt8.not_lt.2 hlow), if_pos hhigh, h]
    rfl

theorem decode_frame (hnumber : isChannelNumber number = true)
    (hsize : payload.length ≤ 65535) (padded : Bool) :
    decode (ChannelData.encode ⟨number, payload⟩ padded) = .ok (.channelData ⟨number, payload⟩) :=
  decode_eq_channelData_iff.2 (ChannelData.decode_encode ⟨isChannelNumber_iff.1 hnumber, hsize⟩ padded)

theorem decode_eq_ok_iff : decode raw = .ok packet ↔
    (∃ m, Message.decode raw = .ok m ∧ packet = .message m) ∨
      ∃ frame, ChannelData.decode raw = .ok frame ∧ packet = .channelData frame := by
  cases packet with
  | message m => simp [decode_eq_message_iff]
  | channelData frame => simp [decode_eq_channelData_iff]

theorem not_frame_of_message (h : Message.decode raw = .ok m) : ChannelData.decode raw ≠ .ok frame := by
  intro hframe
  have hboth := (decode_eq_message_iff.2 h).symm.trans (decode_eq_channelData_iff.2 hframe)
  cases hboth

/-- Frames are read back from what is written for them, padded or not, and written back as the bytes that
they were read from. Which bytes are a frame is told by their header and their length, none of them are a
message, and packets are these two and no more. -/
theorem decode_frames :
    (∀ frame : ChannelData, frame.Framable →
      (∀ padded, decode (frame.encode padded) = .ok (.channelData frame)) ∧
      (frame.encode false).length = 4 + frame.payload.length ∧
      (frame.encode true).length % 4 = 0 ∧
      frame.encode true = frame.encode false ++ zeros (padding frame.payload.length)) ∧
    (∀ raw frame, decode raw = .ok (.channelData frame) →
      4 + ChannelData.declared raw ≤ raw.length ∧
      frame.encode false = raw.take (4 + ChannelData.declared raw)) ∧
    (∀ raw, (∃ frame, ChannelData.decode raw = .ok frame) ↔
      4 ≤ raw.length ∧ (0x4000 ≤ ofBigEndian (raw.take 2) ∧ ofBigEndian (raw.take 2) ≤ 0x7FFF) ∧
        4 + ChannelData.declared raw ≤ raw.length) ∧
    (∀ raw m frame, Message.decode raw = .ok m → ChannelData.decode raw ≠ .ok frame) ∧
    ∀ raw packet, decode raw = .ok packet ↔
      (∃ m, Message.decode raw = .ok m ∧ packet = .message m) ∨
        ∃ frame, ChannelData.decode raw = .ok frame ∧ packet = .channelData frame := by
  refine ⟨fun frame h => ⟨fun padded => ?_, frame.length_encode false, frame.length_encode_mod,
    frame.encode_eq_append true⟩, fun raw frame h => ?_, fun raw => ChannelData.exists_decode_iff,
    fun raw m frame => not_frame_of_message, fun raw packet => decode_eq_ok_iff⟩
  · exact decode_eq_channelData_iff.2 (ChannelData.decode_encode h padded)
  · exact ChannelData.encode_of_decode (decode_eq_channelData_iff.1 h)

end Packet

theorem decode_frames_sample :
    ChannelData.Framable ⟨0x4001, [1, 2, 3]⟩ ∧
      Packet.decode [0x40, 0x01, 0, 3, 1, 2, 3, 0] = .ok (.channelData ⟨0x4001, [1, 2, 3]⟩) ∧
      ChannelData.encode ⟨0x4001, [1, 2, 3]⟩ false = [0x40, 0x01, 0, 3, 1, 2, 3] := by
  have hframable : ChannelData.Framable ⟨0x4001, [1, 2, 3]⟩ := ⟨by decide, by decide⟩
  have hdecode : Packet.decode [0x40, 0x01, 0, 3, 1, 2, 3, 0] = .ok (.channelData ⟨0x4001, [1, 2, 3]⟩) :=
    (Packet.decode_frames.1 _ hframable).1 true
  exact ⟨hframable, hdecode, (Packet.decode_frames.2.1 _ _ hdecode).2⟩

end TurnRelay
