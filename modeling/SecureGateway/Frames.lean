import Mathlib.Data.List.Induction
import SecureGateway.Wire

/-!
# MAVLink frames

Both wire versions, signed and unsigned, with what the generated library documents about
them: its parser stores a frame whose checksum is right as it was received, and
`mavlink_msg_to_send_buffer` trims the payload but copies the stored checksum.

## Implementation notes

A frame is well formed by construction. `Frame.ofBytes?` reads it back from its bytes, so
the bytes determine it.
-/

namespace SecureGateway

variable {G V : Type}

/-- `MAVLINK_STX_MAVLINK1`. -/
def mavlinkStxMavlink1 : UInt8 := 0xFE

/-- `MAVLINK_IFLAG_SIGNED`. -/
def mavlinkIflagSigned : UInt8 := 1

/-- What the wire versions do not share; only a MAVLink 2 frame can be signed. -/
inductive WireVersion
  | mavlink1 (msgid : UInt8)
  | mavlink2 (compatFlags : UInt8) (msgid : BitVec 24) (signature : Option (Vector UInt8 13))
deriving DecidableEq

/-- A well-formed frame: its payload fits the length byte. -/
structure Frame where
  version : WireVersion
  seq : UInt8
  sysid : UInt8
  compid : UInt8
  payload : List UInt8
  payload_le : payload.length ≤ 255
  checksum : BitVec 16
deriving DecidableEq

namespace Frame

def magic (frame : Frame) : UInt8 :=
  match frame.version with
  | .mavlink1 _ => mavlinkStxMavlink1
  | .mavlink2 _ _ _ => mavlinkStx

def incompatFlags (frame : Frame) : UInt8 :=
  match frame.version with
  | .mavlink1 _ => 0
  | .mavlink2 _ _ none => 0
  | .mavlink2 _ _ (some _) => mavlinkIflagSigned

def compatFlags (frame : Frame) : UInt8 :=
  match frame.version with
  | .mavlink1 _ => 0
  | .mavlink2 compatFlags _ _ => compatFlags

def msgid (frame : Frame) : BitVec 24 :=
  match frame.version with
  | .mavlink1 msgid => msgid.toBitVec.setWidth 24
  | .mavlink2 _ msgid _ => msgid

/-- The signature block, if there is one. -/
def signature (frame : Frame) : List UInt8 :=
  match frame.version with
  | .mavlink2 _ _ (some signature) => signature.toList
  | _ => []

def len (frame : Frame) : UInt8 := UInt8.ofNat frame.payload.length

theorem toNat_len (frame : Frame) : frame.len.toNat = frame.payload.length :=
  UInt8.toNat_ofNat_of_lt' (Nat.lt_succ_of_le frame.payload_le)

/-- A byte of the payload, zero past its end. -/
def payloadByte (frame : Frame) (i : Nat) : UInt8 := frame.payload.getD i 0

/-- The header without the start byte. -/
def header (frame : Frame) : List UInt8 :=
  match frame.version with
  | .mavlink1 msgid => [frame.len, frame.seq, frame.sysid, frame.compid, msgid]
  | .mavlink2 compatFlags msgid _ =>
      [frame.len, frame.incompatFlags, compatFlags, frame.seq, frame.sysid, frame.compid,
        ⟨msgid.setWidth 8⟩, ⟨(msgid >>> 8).setWidth 8⟩, ⟨(msgid >>> 16).setWidth 8⟩]

/-- What the checksum is calculated over. -/
def body (frame : Frame) : List UInt8 := frame.header ++ frame.payload

/-- The frame on the wire. -/
def bytes (frame : Frame) : List UInt8 :=
  frame.magic :: (frame.body ++
    (lowByte frame.checksum :: highByte frame.checksum :: frame.signature))

/-- The checksum is right, with the extra byte the message definitions give the id. -/
def Intact (crcExtra : BitVec 24 → UInt8) (frame : Frame) : Prop :=
  crcFrame frame.body (crcExtra frame.msgid) = frame.checksum

instance (crcExtra : BitVec 24 → UInt8) (frame : Frame) : Decidable (frame.Intact crcExtra) :=
  inferInstanceAs (Decidable (_ = _))

/-- The length of the payload without the zero bytes that end it; only MAVLink 2 trims. -/
def trimmedLength (frame : Frame) : Nat :=
  match frame.version with
  | .mavlink1 _ => frame.payload.length
  | .mavlink2 _ _ _ => mavTrimPayload frame.payloadByte frame.payload.length

/-- The frame with its payload trimmed and the rest as it is, the checksum too. -/
def trim (frame : Frame) : Frame :=
  { frame with
    payload := frame.payload.take frame.trimmedLength
    payload_le := Nat.le_trans (List.length_take_le' _ _) frame.payload_le }

/-- No zero byte that could be trimmed ends the payload. -/
def NothingToTrim (frame : Frame) : Prop :=
  match frame.version with
  | .mavlink1 _ => True
  | .mavlink2 _ _ _ =>
      frame.payload.length ≤ 1 ∨ frame.payloadByte (frame.payload.length - 1) ≠ 0

theorem trimmedLength_le (frame : Frame) : frame.trimmedLength ≤ frame.payload.length := by
  cases hversion : frame.version with
  | mavlink1 msgid => simp only [trimmedLength, hversion, Nat.le_refl]
  | mavlink2 compatFlags msgid signature =>
      simp only [trimmedLength, hversion]
      exact mavTrimPayload_le frame.payloadByte frame.payload.length

/-- What trimming drops is zero. -/
theorem payloadByte_trimmed (frame : Frame) {i : Nat} (h : frame.trimmedLength ≤ i)
    (hi : i < frame.payload.length) : frame.payloadByte i = 0 := by
  cases hversion : frame.version with
  | mavlink1 msgid =>
      simp only [trimmedLength, hversion] at h
      exact absurd hi (Nat.not_lt.mpr h)
  | mavlink2 compatFlags msgid signature =>
      simp only [trimmedLength, hversion] at h
      exact mavTrimPayload_dropped h hi

theorem trimmedLength_eq_iff (frame : Frame) :
    frame.trimmedLength = frame.payload.length ↔ frame.NothingToTrim := by
  cases hversion : frame.version with
  | mavlink1 msgid => simp only [trimmedLength, NothingToTrim, hversion]
  | mavlink2 compatFlags msgid signature =>
      simp only [trimmedLength, NothingToTrim, hversion]
      exact mavTrimPayload_eq_self_iff

theorem trim_of_nothingToTrim {frame : Frame} (h : frame.NothingToTrim) : frame.trim = frame := by
  simp only [trim, (trimmedLength_eq_iff frame).mpr h, List.take_length]

/-- By accident the frame has the same CRC with and without the zeros that end its payload. -/
def TrimKeepsCrc (crcExtra : BitVec 24 → UInt8) (frame : Frame) : Prop :=
  crcFrame frame.trim.body (crcExtra frame.msgid) = crcFrame frame.body (crcExtra frame.msgid)

instance (crcExtra : BitVec 24 → UInt8) (frame : Frame) :
    Decidable (frame.TrimKeepsCrc crcExtra) :=
  inferInstanceAs (Decidable (_ = _))

/-- Of a frame whose checksum is right the trimmed frame has a right one where nothing is
trimmed, or by accident. -/
theorem Intact.trim_iff {crcExtra : BitVec 24 → UInt8} {frame : Frame}
    (h : frame.Intact crcExtra) :
    frame.trim.Intact crcExtra ↔ frame.NothingToTrim ∨ frame.TrimKeepsCrc crcExtra := by
  constructor
  · intro htrim
    exact Or.inr (htrim.trans h.symm)
  · rintro (hnothing | hkeeps)
    · rw [trim_of_nothingToTrim hnothing]
      exact h
    · exact hkeeps.trans h

theorem length_trim (frame : Frame) : frame.trim.payload.length = frame.trimmedLength :=
  List.length_take_of_le frame.trimmedLength_le

/-! ### Reading a frame back -/

/-- The signature block the flags call for. -/
def readSignature (incompatFlags : UInt8) (bytes : List UInt8) :
    Option (Option (Vector UInt8 13)) :=
  if incompatFlags = 0 then
    if bytes = [] then some none else none
  else if incompatFlags = mavlinkIflagSigned then
    if h : bytes.length = 13 then some (some ⟨bytes.toArray, by simpa using h⟩) else none
  else none

/-- The frame a sequence of bytes is. -/
def ofBytes? : List UInt8 → Option Frame
  | magic :: len :: b₂ :: b₃ :: b₄ :: b₅ :: rest =>
      if magic = mavlinkStxMavlink1 then
        match rest.drop len.toNat with
        | [lo, hi] => some {
            version := .mavlink1 b₅
            seq := b₂
            sysid := b₃
            compid := b₄
            payload := rest.take len.toNat
            payload_le := Nat.le_trans (List.length_take_le _ _) (Nat.le_of_lt_succ len.toNat_lt)
            checksum := wordOf hi lo }
        | _ => none
      else if magic = mavlinkStx then
        match rest with
        | b₆ :: b₇ :: b₈ :: b₉ :: rest =>
            match rest.drop len.toNat with
            | lo :: hi :: trailer =>
                (readSignature b₂ trailer).map fun signature => {
                  version := .mavlink2 b₃ (b₉.toBitVec ++ (b₈.toBitVec ++ b₇.toBitVec)) signature
                  seq := b₄
                  sysid := b₅
                  compid := b₆
                  payload := rest.take len.toNat
                  payload_le :=
                    Nat.le_trans (List.length_take_le _ _) (Nat.le_of_lt_succ len.toNat_lt)
                  checksum := wordOf hi lo }
            | _ => none
        | _ => none
      else none
  | _ => none

theorem wordOf_bytes (w : BitVec 16) : wordOf (highByte w) (lowByte w) = w := by
  apply BitVec.eq_of_getLsbD_eq
  intro i hi
  simp only [wordOf, highByte, lowByte, BitVec.getLsbD_append, BitVec.getLsbD_setWidth,
    BitVec.getLsbD_ushiftRight]
  by_cases h : i < 8
  · simp [h]
  · simp only [h, decide_false]
    rw [show 8 + (i - 8) = i by omega]
    simp [show i - 8 < 8 by omega]

theorem msgid_bytes (w : BitVec 24) :
    (w >>> 16).setWidth 8 ++ ((w >>> 8).setWidth 8 ++ w.setWidth 8) = w := by
  apply BitVec.eq_of_getLsbD_eq
  intro i hi
  simp only [BitVec.getLsbD_append, BitVec.getLsbD_setWidth, BitVec.getLsbD_ushiftRight]
  by_cases h : i < 8
  · simp [h, show i < 8 + 8 by omega]
  · by_cases h' : i < 16
    · simp [h, h', show i - 8 < 8 by omega, show 8 + (i - 8) = i by omega]
    · simp [h', show i - 16 < 8 by omega, show 16 + (i - 16) = i by omega]

theorem readSignature_signature {frame : Frame} {compatFlags : UInt8} {msgid : BitVec 24}
    {signature : Option (Vector UInt8 13)}
    (h : frame.version = .mavlink2 compatFlags msgid signature) :
    readSignature frame.incompatFlags frame.signature = some signature := by
  cases signature with
  | none => simp [readSignature, incompatFlags, Frame.signature, h]
  | some signature =>
      obtain ⟨bytes, hsize⟩ := signature
      simp [readSignature, incompatFlags, Frame.signature, h, mavlinkIflagSigned, hsize]

/-- A frame is read back from its bytes. -/
theorem ofBytes?_bytes (frame : Frame) : ofBytes? frame.bytes = some frame := by
  have hlen := frame.toNat_len
  cases hversion : frame.version with
  | mavlink1 msgid =>
      simp only [bytes, body, header, magic, signature, hversion, List.cons_append,
        List.nil_append, ofBytes?, if_true, hlen]
      simp only [List.drop_left, List.take_left, wordOf_bytes, ← hversion]
  | mavlink2 compatFlags msgid signature =>
      have hsignature := readSignature_signature hversion
      have hne : mavlinkStx ≠ mavlinkStxMavlink1 := by decide
      simp only [bytes, body, header, magic, hversion, List.cons_append, List.nil_append,
        ofBytes?, if_neg hne, if_true, hlen]
      simp only [List.drop_left, List.take_left, wordOf_bytes, msgid_bytes, hsignature,
        Option.map_some, ← hversion]

theorem exists_bytes_concat (frame : Frame) : ∃ before b, frame.bytes = before ++ [b] := by
  rcases List.eq_nil_or_concat' frame.bytes with hnil | hlast
  · exact absurd hnil (by simp [bytes])
  · exact hlast

/-- The bytes on the wire determine the frame. -/
theorem bytes_injective : Function.Injective bytes := by
  intro frame frame' h
  apply Option.some.inj
  rw [← ofBytes?_bytes frame, h, ofBytes?_bytes frame']

end Frame

/-! ### The documented library -/

/-- The record the parser leaves of a frame: every field as received. -/
structure Frame.StoredAs (frame : Frame) (msg : MavlinkMessage) : Prop where
  checksum : msg.checksum = frame.checksum
  magic : msg.magic = frame.magic
  len : msg.len = frame.len
  incompatFlags : msg.incompatFlags = frame.incompatFlags
  compatFlags : msg.compatFlags = frame.compatFlags
  seq : msg.seq = frame.seq
  sysid : msg.sysid = frame.sysid
  compid : msg.compid = frame.compid
  msgid : msg.msgid = frame.msgid
  payload : ∀ i < frame.payload.length, msg.payloadByte i = frame.payloadByte i
  signature : frame.incompatFlags = mavlinkIflagSigned → msg.signature.toList = frame.signature

/-- Bytes fed to one channel, after a first result. -/
def MavlinkParser.feed (parser : MavlinkParser G) (chan : Nat) (r : ParseResult G)
    (bytes : List UInt8) : ParseResult G :=
  bytes.foldl (fun r byte => parser.parseChar chan byte r.msg r.status r.state) r

theorem MavlinkParser.feed_append_singleton (parser : MavlinkParser G) (chan : Nat)
    (r : ParseResult G) (bytes : List UInt8) (b : UInt8) :
    parser.feed chan r (bytes ++ [b]) =
      parser.parseChar chan b (parser.feed chan r bytes).msg (parser.feed chan r bytes).status
        (parser.feed chan r bytes).state := by
  simp only [MavlinkParser.feed, List.foldl_append, List.foldl_cons, List.foldl_nil]

/-- Every frame whose checksum is right is accepted with its last byte, on a channel that
waits for a start byte, and the channel waits for one again. -/
structure MavlinkParser.AcceptsFrames (parser : MavlinkParser G) (crcExtra : BitVec 24 → UInt8)
    (view : Nat → G → V) (Idle : V → Prop) : Prop where
  before : ∀ chan r (frame : Frame) bytes, Idle (view chan r.state) → frame.Intact crcExtra →
    bytes ≠ [] → bytes <+: frame.bytes → bytes ≠ frame.bytes →
      (parser.feed chan r bytes).rv = .incomplete
  complete : ∀ chan r (frame : Frame), Idle (view chan r.state) → frame.Intact crcExtra →
    (parser.feed chan r frame.bytes).rv = .ok ∧
      frame.StoredAs (parser.feed chan r frame.bytes).msg ∧
      Idle (view chan (parser.feed chan r frame.bytes).state)

/-- `mavlink_msg_to_send_buffer` as documented. -/
def mavlinkMsgToSendBuffer (msg : MavlinkMessage) : List UInt8 :=
  if msg.magic = mavlinkStxMavlink1 then
    msg.magic :: ([msg.len, msg.seq, msg.sysid, msg.compid, ⟨msg.msgid.setWidth 8⟩] ++
      (List.range msg.len.toNat).map msg.payloadByte ++
      [lowByte msg.checksum, highByte msg.checksum])
  else
    msg.magic :: (frameBody msg (mavTrimPayload msg.payloadByte msg.len.toNat) ++
      (lowByte msg.checksum :: highByte msg.checksum ::
        if msg.incompatFlags &&& mavlinkIflagSigned ≠ 0 then msg.signature.toList else []))

/-- Trimming looks at the payload alone. -/
theorem mavTrimPayload_congr {payload payload' : Nat → UInt8} {n : Nat}
    (h : ∀ i < n, payload i = payload' i) :
    mavTrimPayload payload n = mavTrimPayload payload' n := by
  fun_induction mavTrimPayload payload n with
  | case1 => rfl
  | case2 => rfl
  | case3 n hzero ih =>
      rw [ih fun i hi => h i (Nat.lt_succ_of_lt hi), mavTrimPayload,
        if_pos ((h (n + 1) (Nat.lt_succ_self _)).symm.trans hzero)]
  | case4 n hne =>
      rw [mavTrimPayload, if_neg fun hzero => hne ((h (n + 1) (Nat.lt_succ_self _)).trans hzero)]

theorem Frame.StoredAs.toNat_len {frame : Frame} {msg : MavlinkMessage}
    (h : frame.StoredAs msg) : msg.len.toNat = frame.payload.length := by
  rw [h.len, frame.toNat_len]

/-- A beginning of the stored payload. -/
theorem Frame.StoredAs.map_range {frame : Frame} {msg : MavlinkMessage}
    (h : frame.StoredAs msg) {n : Nat} (hn : n ≤ frame.payload.length) :
    (List.range n).map msg.payloadByte = frame.payload.take n := by
  apply List.ext_getElem
  · simp [hn]
  · intro i hi hi'
    rw [List.length_map, List.length_range] at hi
    have hlt : i < frame.payload.length := Nat.lt_of_lt_of_le hi hn
    simp [h.payload i hlt, Frame.payloadByte, hlt]

/-- What is sent of a stored frame is the trimmed frame, with the checksum as received. -/
theorem Frame.StoredAs.sent {frame : Frame} {msg : MavlinkMessage} (h : frame.StoredAs msg) :
    mavlinkMsgToSendBuffer msg = frame.trim.bytes := by
  have hlen := h.toNat_len
  have hle := frame.trimmedLength_le
  have hpayload := h.map_range hle
  cases hversion : frame.version with
  | mavlink1 msgid =>
      have hall : frame.trimmedLength = frame.payload.length := by
        simp only [Frame.trimmedLength, hversion]
      have hmagic : frame.magic = mavlinkStxMavlink1 := by simp only [Frame.magic, hversion]
      have hmsgid : (⟨msg.msgid.setWidth 8⟩ : UInt8) = msgid := by
        rw [h.msgid]
        simp [Frame.msgid, hversion]
      rw [mavlinkMsgToSendBuffer, if_pos (h.magic.trans hmagic), hlen, ← hall, hpayload, hmsgid]
      simp [Frame.bytes, Frame.body, Frame.header, Frame.trim, Frame.len, Frame.magic,
        Frame.signature, hversion, h.magic, h.len, h.seq, h.sysid, h.compid, h.checksum, hall]
  | mavlink2 compatFlags msgid signature =>
      have htrim : mavTrimPayload msg.payloadByte msg.len.toNat = frame.trimmedLength := by
        simp only [Frame.trimmedLength, hversion, hlen]
        exact mavTrimPayload_congr h.payload
      have hmagic : frame.magic ≠ mavlinkStxMavlink1 := by
        simp only [Frame.magic, hversion]
        decide
      have hsignature : (if msg.incompatFlags &&& mavlinkIflagSigned ≠ 0
          then msg.signature.toList else []) = frame.signature := by
        rw [h.incompatFlags]
        cases signature with
        | none => simp [Frame.incompatFlags, Frame.signature, hversion]
        | some signature =>
            have hsigned : frame.incompatFlags = mavlinkIflagSigned := by
              simp only [Frame.incompatFlags, hversion]
            rw [hsigned, if_pos (by decide), h.signature hsigned]
      rw [mavlinkMsgToSendBuffer, if_neg (h.magic ▸ hmagic), htrim, hsignature, frameBody,
        hpayload]
      simp [Frame.bytes, Frame.body, Frame.header, Frame.trim, Frame.len, Frame.magic,
        Frame.incompatFlags, Frame.signature, Frame.msgid, Frame.compatFlags, hversion,
        h.magic, h.incompatFlags, h.compatFlags, h.seq, h.sysid, h.compid, h.msgid, h.checksum,
        Nat.min_eq_left hle]

/-- Two records of one message: the fields of the header, the payload with the zeros a
decoder adds to it, and the signature if there is one. -/
structure SameMessage (msg msg' : MavlinkMessage) : Prop where
  magic : msg'.magic = msg.magic
  incompatFlags : msg'.incompatFlags = msg.incompatFlags
  compatFlags : msg'.compatFlags = msg.compatFlags
  seq : msg'.seq = msg.seq
  sysid : msg'.sysid = msg.sysid
  compid : msg'.compid = msg.compid
  msgid : msg'.msgid = msg.msgid
  payload : ∀ i, msg'.extended i = msg.extended i
  signature : msg.incompatFlags = mavlinkIflagSigned → msg'.signature = msg.signature

/-- A frame and the frame without its trailing zeros carry the same message. -/
theorem Frame.StoredAs.sameMessage {frame : Frame} {msg msg' : MavlinkMessage}
    (h : frame.StoredAs msg) (h' : frame.trim.StoredAs msg') : SameMessage msg msg' where
  magic := h'.magic.trans h.magic.symm
  incompatFlags := h'.incompatFlags.trans h.incompatFlags.symm
  compatFlags := h'.compatFlags.trans h.compatFlags.symm
  seq := h'.seq.trans h.seq.symm
  sysid := h'.sysid.trans h.sysid.symm
  compid := h'.compid.trans h.compid.symm
  msgid := h'.msgid.trans h.msgid.symm
  payload := by
    intro i
    have hlen := h.toNat_len
    have hlen' := h'.toNat_len
    rw [length_trim] at hlen'
    simp only [MavlinkMessage.extended, hlen, hlen']
    by_cases hkept : i < frame.trimmedLength
    · have hlt := Nat.lt_of_lt_of_le hkept frame.trimmedLength_le
      rw [if_pos hkept, if_pos hlt, h'.payload i (by rwa [length_trim]), h.payload i hlt]
      simp [payloadByte, trim, List.getD_eq_getElem?_getD, hkept]
    · rw [if_neg hkept]
      by_cases hlt : i < frame.payload.length
      · rw [if_pos hlt, h.payload i hlt, frame.payloadByte_trimmed (Nat.not_lt.mp hkept) hlt]
      · rw [if_neg hlt]
  signature := by
    intro hsigned
    rw [h.incompatFlags] at hsigned
    apply Vector.toList_inj.mp
    exact (h'.signature hsigned).trans (h.signature hsigned).symm

/-! ### A library for both versions -/

/-- The record of a frame; what the frame does not have is zero. -/
def Frame.stored (frame : Frame) : MavlinkMessage where
  checksum := frame.checksum
  magic := frame.magic
  len := frame.len
  incompatFlags := frame.incompatFlags
  compatFlags := frame.compatFlags
  seq := frame.seq
  sysid := frame.sysid
  compid := frame.compid
  msgid := frame.msgid
  payload64 := Vector.ofFn fun i => frame.payloadByte i.val
  signature := Vector.ofFn fun i => frame.signature.getD i.val 0

theorem Frame.storedAs_stored (frame : Frame) : frame.StoredAs frame.stored where
  checksum := rfl
  magic := rfl
  len := rfl
  incompatFlags := rfl
  compatFlags := rfl
  seq := rfl
  sysid := rfl
  compid := rfl
  msgid := rfl
  payload := by
    intro i hi
    have hlt : i < payloadBytes :=
      Nat.lt_of_lt_of_le hi (Nat.le_trans frame.payload_le (by decide))
    simp [MavlinkMessage.payloadByte, stored, hlt]
  signature := by
    intro hsigned
    cases hversion : frame.version with
    | mavlink1 msgid =>
        simp only [incompatFlags, hversion] at hsigned
        exact absurd hsigned (by decide)
    | mavlink2 compatFlags msgid signature =>
        cases signature with
        | none =>
            simp only [incompatFlags, hversion] at hsigned
            exact absurd hsigned (by decide)
        | some signature =>
            apply List.ext_getElem
            · simp [Frame.signature, hversion]
            · intro i hi hi'
              simp [stored, Frame.signature, hversion]

/-- The length of the frame whose first bytes a buffer holds. -/
def frameLength (buffer : List UInt8) : Nat :=
  if buffer.getD 0 0 = mavlinkStxMavlink1 then 8 + (buffer.getD 1 0).toNat
  else if buffer.getD 0 0 = mavlinkStx then
    12 + (buffer.getD 1 0).toNat + if buffer.getD 2 0 = mavlinkIflagSigned then 13 else 0
  else 0

/-- Frames of both versions, one buffer for each channel. Signatures are not checked. -/
def framesParser (crcExtra : BitVec 24 → UInt8) : MavlinkParser (Nat → List UInt8) where
  parseChar chan byte msg status buffers :=
    let buffer := buffers chan ++ [byte]
    if buffer.length < frameLength buffer then
      { rv := .incomplete, msg := msg, status := status
        state := Function.update buffers chan buffer }
    else
      let buffers := Function.update buffers chan []
      match Frame.ofBytes? buffer with
      | some frame =>
          if frame.Intact crcExtra then
            { rv := .ok, msg := frame.stored, status := status, state := buffers }
          else { rv := .badCrc, msg := msg, status := status, state := buffers }
      | none => { rv := .incomplete, msg := msg, status := status, state := buffers }

theorem Frame.magic_eq (frame : Frame) :
    frame.magic = mavlinkStxMavlink1 ∨ frame.magic = mavlinkStx := by
  cases hversion : frame.version with
  | mavlink1 msgid => exact Or.inl (by simp only [Frame.magic, hversion])
  | mavlink2 compatFlags msgid signature => exact Or.inr (by simp only [Frame.magic, hversion])

/-- The bytes a frame's length is read from. -/
theorem Frame.exists_bytes_eq (frame : Frame) :
    ∃ b rest, frame.bytes = frame.magic :: frame.len :: b :: rest := by
  cases hversion : frame.version with
  | mavlink1 msgid =>
      simp only [Frame.bytes, Frame.body, Frame.header, hversion, List.cons_append]
      exact ⟨_, _, rfl⟩
  | mavlink2 compatFlags msgid signature =>
      simp only [Frame.bytes, Frame.body, Frame.header, hversion, List.cons_append]
      exact ⟨_, _, rfl⟩

theorem Frame.length_bytes (frame : Frame) :
    frame.bytes.length =
      frame.header.length + frame.payload.length + frame.signature.length + 3 := by
  simp only [Frame.bytes, Frame.body, List.length_cons, List.length_append]
  omega

theorem Frame.frameLength_bytes (frame : Frame) :
    frameLength frame.bytes = frame.bytes.length := by
  have hlen := frame.toNat_len
  have hne : mavlinkStx ≠ mavlinkStxMavlink1 := by decide
  rw [frame.length_bytes]
  cases hversion : frame.version with
  | mavlink1 msgid =>
      have hheader : frame.header.length = 5 := by simp only [Frame.header, hversion]; rfl
      have hsignature : frame.signature = [] := by simp only [Frame.signature, hversion]
      have hread : frameLength frame.bytes = 8 + frame.payload.length := by
        simp [Frame.bytes, Frame.body, Frame.header, Frame.magic, frameLength, hversion, hlen]
      rw [hread, hheader, hsignature, List.length_nil]
      omega
  | mavlink2 compatFlags msgid signature =>
      have hheader : frame.header.length = 9 := by simp only [Frame.header, hversion]; rfl
      have hsignature : frame.signature.length =
          if frame.incompatFlags = mavlinkIflagSigned then 13 else 0 := by
        cases signature with
        | none => simp [Frame.signature, Frame.incompatFlags, mavlinkIflagSigned, hversion]
        | some signature => simp [Frame.signature, Frame.incompatFlags, hversion]
      have hread : frameLength frame.bytes = 12 + frame.payload.length +
          if frame.incompatFlags = mavlinkIflagSigned then 13 else 0 := by
        simp [Frame.bytes, Frame.body, Frame.header, Frame.magic, frameLength, hversion, hlen, hne]
      rw [hread, hheader, hsignature]
      omega

/-- A buffer that holds the beginning of a frame is shorter than the frame it announces. -/
theorem Frame.length_lt_frameLength {frame : Frame} {buffer : List UInt8} (hne : buffer ≠ [])
    (hbegins : buffer <+: frame.bytes) (hproper : buffer ≠ frame.bytes) :
    buffer.length < frameLength buffer := by
  obtain ⟨b, rest, hbytes⟩ := frame.exists_bytes_eq
  obtain ⟨more, hmore⟩ := hbegins
  have hmin (hhead : buffer.getD 0 0 = frame.magic) : 8 ≤ frameLength buffer := by
    rw [frameLength, hhead]
    rcases frame.magic_eq with hmagic | hmagic
    · rw [if_pos hmagic]
      omega
    · rw [if_neg (by rw [hmagic]; decide), if_pos hmagic]
      omega
  match buffer, hne with
  | [b₀], _ =>
      have hhead : b₀ = frame.magic := by
        rw [hbytes] at hmore
        exact (List.cons.inj hmore).1
      exact Nat.lt_of_lt_of_le (by simp) (hmin hhead)
  | [b₀, b₁], _ =>
      have hhead : b₀ = frame.magic := by
        rw [hbytes] at hmore
        exact (List.cons.inj hmore).1
      exact Nat.lt_of_lt_of_le (by simp) (hmin hhead)
  | b₀ :: b₁ :: b₂ :: buffer, _ =>
      have hsame : frameLength (b₀ :: b₁ :: b₂ :: buffer) = frame.bytes.length := by
        rw [← frame.frameLength_bytes, ← hmore]
        rfl
      have hlonger : more ≠ [] := by
        rintro rfl
        exact hproper (by rw [← hmore, List.append_nil])
      have hpos := List.length_pos_iff.mpr hlonger
      rw [hsame, ← hmore, List.length_append]
      omega

/-- The beginning of a frame is kept in the buffer. -/
theorem framesParser_before (crcExtra : BitVec 24 → UInt8) (chan : Nat)
    (r : ParseResult (Nat → List UInt8)) (frame : Frame) (hidle : r.state chan = [])
    (bytes : List UInt8) (hbegins : bytes <+: frame.bytes) (hproper : bytes ≠ frame.bytes) :
    ((framesParser crcExtra).feed chan r bytes).state chan = bytes ∧
      (bytes ≠ [] → ((framesParser crcExtra).feed chan r bytes).rv = .incomplete) := by
  induction bytes using List.reverseRecOn with
  | nil => exact ⟨hidle, fun h => absurd rfl h⟩
  | append_singleton bytes b ih =>
      have hshort : bytes <+: frame.bytes := (List.prefix_append bytes [b]).trans hbegins
      have hne : bytes ≠ frame.bytes := by
        rintro rfl
        have hle := hbegins.length_le
        rw [List.length_append, List.length_singleton] at hle
        omega
      obtain ⟨hstate, -⟩ := ih hshort hne
      have hlt := Frame.length_lt_frameLength (by simp) hbegins hproper
      rw [MavlinkParser.feed_append_singleton]
      simp only [framesParser] at hstate ⊢
      rw [hstate, if_pos hlt]
      exact ⟨Function.update_self .., fun _ => rfl⟩

/-- The parser accepts every frame of either version, signed or not. -/
theorem framesParser_acceptsFrames (crcExtra : BitVec 24 → UInt8) :
    (framesParser crcExtra).AcceptsFrames crcExtra
      (fun chan (buffers : Nat → List UInt8) => buffers chan) (· = []) where
  before := by
    intro chan r frame bytes hidle _ hne hbegins hproper
    exact (framesParser_before crcExtra chan r frame hidle bytes hbegins hproper).2 hne
  complete := by
    intro chan r frame hidle hintact
    obtain ⟨bytes, b, hlast⟩ := frame.exists_bytes_concat
    have hbegins : bytes <+: frame.bytes := by
      rw [hlast]
      exact List.prefix_append bytes [b]
    have hproper : bytes ≠ frame.bytes := by
      rw [hlast]
      simp
    obtain ⟨hstate, -⟩ := framesParser_before crcExtra chan r frame hidle bytes hbegins hproper
    have hlength : ¬ (bytes ++ [b]).length < frameLength (bytes ++ [b]) := by
      rw [← hlast, frame.frameLength_bytes]
      exact Nat.lt_irrefl _
    have hparse : (framesParser crcExtra).feed chan r frame.bytes =
        { rv := .ok, msg := frame.stored
          status := ((framesParser crcExtra).feed chan r bytes).status
          state := Function.update ((framesParser crcExtra).feed chan r bytes).state chan [] } := by
      have hread := frame.ofBytes?_bytes
      rw [hlast] at hread
      rw [hlast, MavlinkParser.feed_append_singleton]
      simp only [framesParser] at hstate ⊢
      rw [hstate, if_neg hlength, hread]
      exact if_pos hintact
    rw [hparse]
    exact ⟨rfl, frame.storedAs_stored, Function.update_self ..⟩

end SecureGateway
