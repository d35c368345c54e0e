import SecureGateway.Gateway
import SecureGateway.Wire

/-!
# The XOR transformers

`xor_encode` and `xor_decode` mask the payload with one byte and finalize the
message again. Finalizing trims trailing zero bytes of what it is given, so the
length the decoder works with depends on the masked payload.
-/

namespace SecureGateway

/-- `char key = 'X'`. -/
def xorKey : UInt8 := 0x58

def xorCrypto (message : Vector UInt8 payloadBytes) (len : UInt8) :
    Vector UInt8 payloadBytes :=
  message.mapIdx fun i b => if i < len.toNat then b ^^^ xorKey else b

/-- The body both transformers share. -/
def xorRefinalize (codec : MavlinkCodec) (msg : Message) : Message :=
  let len := msg.msg.len
  let masked := { msg.msg with payload64 := xorCrypto msg.msg.payload64 len }
  let (finalized, status) := codec.finalizeMessageBuffer masked masked.sysid masked.compid
    msg.status len len (codec.getCrcExtra masked)
  { msg with msg := finalized, status := status }

def xorEncode (codec : MavlinkCodec) : Message → Message := xorRefinalize codec

def xorDecode (codec : MavlinkCodec) : Message → Message := xorRefinalize codec

/-- `MAVLINK_STATUS_FLAG_OUT_MAVLINK1` is not set. -/
def MavlinkStatus.OutMavlink2 (status : MavlinkStatus) : Prop := status.flags &&& 2 = 0

/-- The documented effect of finalizing in MAVLink 2 mode: the length is that of
the payload with trailing zero bytes trimmed, the bytes below it are kept and the
header carries the given ids. -/
structure MavlinkCodec.FinalizesMavlink2 (codec : MavlinkCodec) : Prop where
  len : ∀ msg sysid compid status minLength length crcExtra, status.OutMavlink2 →
    (codec.finalizeMessageBuffer msg sysid compid status minLength length crcExtra).1.len.toNat
      = mavTrimPayload msg.payloadByte length.toNat
  payload : ∀ msg sysid compid status (minLength length crcExtra : UInt8), status.OutMavlink2 →
    ∀ i < mavTrimPayload msg.payloadByte length.toNat,
      (codec.finalizeMessageBuffer msg sysid compid status minLength length
        crcExtra).1.payloadByte i = msg.payloadByte i
  ids : ∀ msg sysid compid status (minLength length crcExtra : UInt8), status.OutMavlink2 →
    let finalized :=
      (codec.finalizeMessageBuffer msg sysid compid status minLength length crcExtra).1
    finalized.msgid = msg.msgid ∧ finalized.sysid = sysid ∧ finalized.compid = compid
  mode : ∀ msg sysid compid status (minLength length crcExtra : UInt8), status.OutMavlink2 →
    (codec.finalizeMessageBuffer msg sysid compid status minLength length
      crcExtra).2.OutMavlink2

/-- A payload byte as the mask leaves it. -/
def maskedByte (msg : MavlinkMessage) (i : Nat) : UInt8 :=
  if i < msg.len.toNat then msg.payloadByte i ^^^ xorKey else msg.payloadByte i

theorem payloadByte_xorCrypto (msg : MavlinkMessage) (i : Nat) :
    { msg with payload64 := xorCrypto msg.payload64 msg.len }.payloadByte i =
      maskedByte msg i := by
  have hlen : msg.len.toNat < payloadBytes := Nat.lt_trans msg.len.toNat_lt (by decide)
  by_cases hi : i < payloadBytes
  · simp [MavlinkMessage.payloadByte, xorCrypto, maskedByte, hi]
  · have hge : ¬ i < msg.len.toNat := by omega
    simp [MavlinkMessage.payloadByte, maskedByte, hi, hge]

theorem xor_xorKey_cancel (b : UInt8) : b ^^^ xorKey ^^^ xorKey = b := by
  rw [UInt8.xor_assoc, UInt8.xor_self, UInt8.xor_zero]

theorem xor_xorKey_eq_zero_iff (b : UInt8) : b ^^^ xorKey = 0 ↔ b = xorKey :=
  UInt8.xor_eq_zero_iff

/-- What one pass leaves of a message in MAVLink 2 mode. -/
structure Refinalized (before after : Message) : Prop where
  msgid : after.msg.msgid = before.msg.msgid
  sysid : after.msg.sysid = before.msg.sysid
  compid : after.msg.compid = before.msg.compid
  len : after.msg.len.toNat = mavTrimPayload (maskedByte before.msg) before.msg.len.toNat
  payload : ∀ i < after.msg.len.toNat, after.msg.payloadByte i = maskedByte before.msg i
  mode : after.status.OutMavlink2

theorem Refinalized.len_le {before after : Message} (h : Refinalized before after) :
    after.msg.len.toNat ≤ before.msg.len.toNat := by
  rw [h.len]
  exact mavTrimPayload_le _ _

theorem xorRefinalize_spec {codec : MavlinkCodec} (hcodec : codec.FinalizesMavlink2)
    {msg : Message} (hmode : msg.status.OutMavlink2) :
    Refinalized msg (xorRefinalize codec msg) := by
  let masked := { msg.msg with payload64 := xorCrypto msg.msg.payload64 msg.msg.len }
  have hbytes : masked.payloadByte = maskedByte msg.msg :=
    funext (payloadByte_xorCrypto msg.msg)
  have hlen := hcodec.len masked masked.sysid masked.compid msg.status msg.msg.len
    msg.msg.len (codec.getCrcExtra masked) hmode
  have hpayload := hcodec.payload masked masked.sysid masked.compid msg.status msg.msg.len
    msg.msg.len (codec.getCrcExtra masked) hmode
  obtain ⟨hmsgid, hsysid, hcompid⟩ := hcodec.ids masked masked.sysid masked.compid msg.status
    msg.msg.len msg.msg.len (codec.getCrcExtra masked) hmode
  have hstatus := hcodec.mode masked masked.sysid masked.compid msg.status msg.msg.len
    msg.msg.len (codec.getCrcExtra masked) hmode
  rw [← hlen, hbytes] at hpayload
  rw [hbytes] at hlen
  exact ⟨hmsgid, hsysid, hcompid, hlen, hpayload, hstatus⟩

/-- Decoding after encoding gives back the ids and the payload a decoder reads. -/
structure RoundTrips (codec : MavlinkCodec) (msg : Message) : Prop where
  msgid : (xorDecode codec (xorEncode codec msg)).msg.msgid = msg.msg.msgid
  sysid : (xorDecode codec (xorEncode codec msg)).msg.sysid = msg.msg.sysid
  compid : (xorDecode codec (xorEncode codec msg)).msg.compid = msg.msg.compid
  payload : ∀ i < 255, (xorDecode codec (xorEncode codec msg)).msg.extended i =
    msg.msg.extended i

/-- When the masked payload is not trimmed, the second pass undoes the first. -/
theorem extended_of_not_trimmed {msg encoded decoded : Message}
    (hencoded : Refinalized msg encoded) (hdecoded : Refinalized encoded decoded)
    (hlen : encoded.msg.len.toNat = msg.msg.len.toNat) (i : Nat) :
    decoded.msg.extended i = msg.msg.extended i := by
  have hmasked : ∀ j < msg.msg.len.toNat, maskedByte encoded.msg j = msg.msg.payloadByte j := by
    intro j hj
    have hj' : j < encoded.msg.len.toNat := hlen ▸ hj
    calc
      maskedByte encoded.msg j = encoded.msg.payloadByte j ^^^ xorKey := if_pos hj'
      _ = maskedByte msg.msg j ^^^ xorKey := by rw [hencoded.payload j hj']
      _ = msg.msg.payloadByte j ^^^ xorKey ^^^ xorKey := by rw [maskedByte, if_pos hj]
      _ = msg.msg.payloadByte j := xor_xorKey_cancel _
  have hle : decoded.msg.len.toNat ≤ msg.msg.len.toNat := hlen ▸ hdecoded.len_le
  simp only [MavlinkMessage.extended]
  by_cases hi : i < msg.msg.len.toNat
  · rw [if_pos hi]
    by_cases hi' : i < decoded.msg.len.toNat
    · rw [if_pos hi', hdecoded.payload i hi', hmasked i hi]
    · -- the second pass trimmed the byte, so it was zero
      have hge : mavTrimPayload (maskedByte encoded.msg) encoded.msg.len.toNat ≤ i := by
        rw [← hdecoded.len]
        exact Nat.le_of_not_lt hi'
      rw [if_neg hi', ← hmasked i hi, mavTrimPayload_dropped hge (by omega)]
  · rw [if_neg hi, if_neg (by omega)]

/-- `xor_decode` undoes `xor_encode` exactly when the payload is at most one byte
long or does not end in the key. -/
theorem xorDecode_xorEncode_iff {codec : MavlinkCodec} (hcodec : codec.FinalizesMavlink2)
    {msg : Message} (hmode : msg.status.OutMavlink2) :
    RoundTrips codec msg ↔
      msg.msg.len.toNat ≤ 1 ∨ msg.msg.payloadByte (msg.msg.len.toNat - 1) ≠ xorKey := by
  have hencoded : Refinalized msg (xorEncode codec msg) := xorRefinalize_spec hcodec hmode
  have hdecoded : Refinalized (xorEncode codec msg) (xorDecode codec (xorEncode codec msg)) :=
    xorRefinalize_spec hcodec hencoded.mode
  have hlt := msg.msg.len.toNat_lt
  have htrim : (xorEncode codec msg).msg.len.toNat = msg.msg.len.toNat ↔
      msg.msg.len.toNat ≤ 1 ∨ msg.msg.payloadByte (msg.msg.len.toNat - 1) ≠ xorKey := by
    rw [hencoded.len, mavTrimPayload_eq_self_iff]
    by_cases hshort : msg.msg.len.toNat ≤ 1
    · simp [hshort]
    · have hlast : msg.msg.len.toNat - 1 < msg.msg.len.toNat := by omega
      rw [maskedByte, if_pos hlast, ne_eq, xor_xorKey_eq_zero_iff]
  rw [← htrim]
  constructor
  · intro htrips
    by_contra hne
    have hle := hencoded.len_le
    have hle' := hdecoded.len_le
    have hkey : msg.msg.payloadByte (msg.msg.len.toNat - 1) = xorKey := by
      by_contra hlast
      exact hne (htrim.mpr (Or.inr hlast))
    have hlast := htrips.payload (msg.msg.len.toNat - 1) (by omega)
    rw [MavlinkMessage.extended, MavlinkMessage.extended, if_neg (by omega),
      if_pos (by omega), hkey] at hlast
    exact absurd hlast (by decide)
  · intro hlen
    exact ⟨hdecoded.msgid.trans hencoded.msgid, hdecoded.sysid.trans hencoded.sysid,
      hdecoded.compid.trans hencoded.compid,
      fun i _ => extended_of_not_trimmed hencoded hdecoded hlen i⟩

theorem wireCodec_finalizesMavlink2 : wireCodec.FinalizesMavlink2 where
  len msg _ _ _ _ length _ _ := by
    have hle := mavTrimPayload_le msg.payloadByte length.toNat
    have hlt := length.toNat_lt
    exact UInt8.toNat_ofNat_of_lt' (show _ < 256 by omega)
  payload msg _ _ _ _ length _ _ i hi := by
    simp only [wireCodec, wireFinalize, MavlinkMessage.payloadByte]
    split
    · rw [Vector.getElem_setIfInBounds_ne _ (by omega),
        Vector.getElem_setIfInBounds_ne _ (by omega)]
    · rfl
  ids _ _ _ _ _ _ _ _ := ⟨rfl, rfl, rfl⟩
  mode _ _ _ _ _ _ _ h := h

/-- A record that holds a message with the given payload. -/
def messageOfPayload (payload : List UInt8) : Message :=
  { Message.zero with msg := frameOfPayload payload }

theorem xorDecode_xorEncode_plain : RoundTrips wireCodec (messageOfPayload [0x41, 0x42]) :=
  (xorDecode_xorEncode_iff wireCodec_finalizesMavlink2 (by rfl)).mpr (Or.inr (by decide +kernel))

/-- The masked last byte of `AX` is zero and is trimmed, so the decoder never sees it. -/
theorem not_xorDecode_xorEncode_key :
    wireCodec.FinalizesMavlink2 ∧ (messageOfPayload [0x41, 0x58]).status.OutMavlink2 ∧
      ¬ RoundTrips wireCodec (messageOfPayload [0x41, 0x58]) := by
  refine ⟨wireCodec_finalizesMavlink2, rfl, ?_⟩
  intro htrips
  have hencoded : Refinalized (messageOfPayload [0x41, 0x58])
      (xorEncode wireCodec (messageOfPayload [0x41, 0x58])) :=
    xorRefinalize_spec wireCodec_finalizesMavlink2 rfl
  have hdecoded : Refinalized (xorEncode wireCodec (messageOfPayload [0x41, 0x58]))
      (xorDecode wireCodec (xorEncode wireCodec (messageOfPayload [0x41, 0x58]))) :=
    xorRefinalize_spec wireCodec_finalizesMavlink2 hencoded.mode
  have htrimmed : mavTrimPayload (maskedByte (messageOfPayload [0x41, 0x58]).msg)
      (messageOfPayload [0x41, 0x58]).msg.len.toNat = 1 := by
    decide +kernel
  have hshort := hdecoded.len_le
  rw [hencoded.len, htrimmed] at hshort
  have hlast := htrips.payload 1 (by decide)
  rw [MavlinkMessage.extended, if_neg (by omega)] at hlast
  exact absurd hlast (by decide +kernel)

end SecureGateway
