import Mathlib.Logic.Function.Basic
import SecureGateway.Mavlink

/-!
# MAVLink 2 on the wire

The documented layout of unsigned MAVLink 2 frames, as an instance of the library
the gateway is modelled over. Concrete runs use it.

## Implementation notes

The parser keeps the bytes of the frame in progress for each channel and drops a
frame whose checksum does not match. Its status counters are not kept up.
-/

namespace SecureGateway

/-- `MAVLINK_STX`. -/
def mavlinkStx : UInt8 := 0xFD

/-- `_mav_trim_payload`: drop trailing zero bytes, but keep the first byte. -/
def mavTrimPayload (payload : Nat → UInt8) : Nat → Nat
  | 0 => 0
  | 1 => 1
  | n + 2 => if payload (n + 1) = 0 then mavTrimPayload payload (n + 1) else n + 2

theorem mavTrimPayload_le (payload : Nat → UInt8) (n : Nat) :
    mavTrimPayload payload n ≤ n := by
  fun_induction mavTrimPayload payload n with
  | case1 => exact Nat.le_refl 0
  | case2 => exact Nat.le_refl 1
  | case3 n _ ih => exact Nat.le_succ_of_le ih
  | case4 n _ => exact Nat.le_refl (n + 2)

/-- What trimming drops is zero. -/
theorem mavTrimPayload_dropped {payload : Nat → UInt8} {n i : Nat}
    (h : mavTrimPayload payload n ≤ i) (hi : i < n) : payload i = 0 := by
  fun_induction mavTrimPayload payload n with
  | case1 => omega
  | case2 => omega
  | case3 n hzero ih =>
      rcases Nat.lt_succ_iff_lt_or_eq.mp hi with hlt | rfl
      · exact ih h hlt
      · exact hzero
  | case4 n _ => omega

/-- Nothing is trimmed exactly when the last byte is not zero or is the only one. -/
theorem mavTrimPayload_eq_self_iff {payload : Nat → UInt8} {n : Nat} :
    mavTrimPayload payload n = n ↔ n ≤ 1 ∨ payload (n - 1) ≠ 0 := by
  match n with
  | 0 => simp [mavTrimPayload]
  | 1 => simp [mavTrimPayload]
  | n + 2 =>
      by_cases hzero : payload (n + 1) = 0
      · have hle := mavTrimPayload_le payload (n + 1)
        simp only [mavTrimPayload, hzero, if_true,
          show n + 2 - 1 = n + 1 by omega, ne_eq, not_true_eq_false, or_false]
        omega
      · simp [mavTrimPayload, hzero]

/-- `crc_accumulate`. -/
def crcAccumulate (crc : BitVec 16) (data : UInt8) : BitVec 16 :=
  let tmp := data.toBitVec ^^^ crc.setWidth 8
  let tmp := (tmp ^^^ (tmp <<< 4)).setWidth 16
  (crc >>> 8) ^^^ (tmp <<< 8) ^^^ (tmp <<< 3) ^^^ (tmp >>> 4)

/-- `crc_calculate` over the frame without its start byte, then the extra byte. -/
def crcFrame (body : List UInt8) (crcExtra : UInt8) : BitVec 16 :=
  crcAccumulate (body.foldl crcAccumulate 0xFFFF#16) crcExtra

def wordOf (hi lo : UInt8) : BitVec 16 := hi.toBitVec ++ lo.toBitVec

def lowByte (w : BitVec 16) : UInt8 := ⟨w.setWidth 8⟩

def highByte (w : BitVec 16) : UInt8 := ⟨(w >>> 8).setWidth 8⟩

/-- The seed of the message definitions the gateway's policies decode. -/
def crcExtraOf (msgid : BitVec 24) : UInt8 :=
  if msgid = 0#24 then 50
  else if msgid = msgIdParamSet then 168
  else if msgid = msgIdCommandInt then 158
  else if msgid = msgIdCommandLong then 152
  else if msgid = msgIdMeminfo then 208
  else 0

/-- The header and the payload of a frame, without the start byte. -/
def frameBody (msg : MavlinkMessage) (length : Nat) : List UInt8 :=
  [UInt8.ofNat length, msg.incompatFlags, msg.compatFlags, msg.seq, msg.sysid, msg.compid,
    ⟨msg.msgid.setWidth 8⟩, ⟨(msg.msgid >>> 8).setWidth 8⟩, ⟨(msg.msgid >>> 16).setWidth 8⟩] ++
    (List.range length).map msg.payloadByte

/-- Finalize an unsigned frame. The checksum is also stored after the payload. -/
def wireFinalize (msg : MavlinkMessage) (systemId componentId : UInt8)
    (status : MavlinkStatus) (length crcExtra : UInt8) : MavlinkMessage × MavlinkStatus :=
  let len := mavTrimPayload msg.payloadByte length.toNat
  let msg := { msg with
    magic := mavlinkStx
    len := UInt8.ofNat len
    sysid := systemId
    compid := componentId
    incompatFlags := 0
    compatFlags := 0
    seq := status.currentTxSeq }
  let checksum := crcFrame (frameBody msg len) crcExtra
  ({ msg with
    checksum := checksum
    payload64 := (msg.payload64.setIfInBounds len (lowByte checksum)).setIfInBounds (len + 1)
      (highByte checksum) },
   { status with currentTxSeq := status.currentTxSeq + 1 })

def wireSendBuffer (msg : MavlinkMessage) : List UInt8 :=
  msg.magic :: frameBody msg (mavTrimPayload msg.payloadByte msg.len.toNat) ++
    [lowByte msg.checksum, highByte msg.checksum]

/-- An unsigned MAVLink 2 message with the given payload. -/
def frameOfPayload (payload : List UInt8) : MavlinkMessage :=
  { MavlinkMessage.zero with
    magic := mavlinkStx
    len := UInt8.ofNat payload.length
    sysid := 1
    compid := 1
    payload64 := Vector.ofFn fun i => payload.getD i.val 0 }

/-- Single-precision field at an offset of the payload. -/
def floatField (msg : MavlinkMessage) (i : Nat) : BitVec 32 :=
  wordOf (msg.extended (i + 3)) (msg.extended (i + 2)) ++
    wordOf (msg.extended (i + 1)) (msg.extended i)

def wireCodec : MavlinkCodec where
  finalizeMessageBuffer msg systemId componentId status _ length crcExtra :=
    wireFinalize msg systemId componentId status length crcExtra
  getCrcExtra msg := crcExtraOf msg.msgid
  msgToSendBuffer := wireSendBuffer
  commandLongDecode msg :=
    { param1 := floatField msg 0, command := wordOf (msg.extended 29) (msg.extended 28) }
  paramSetDecode msg :=
    { paramValue := floatField msg 0
      paramId := Vector.ofFn fun i : Fin 16 => msg.extended (i.val + 6) }

/-- `COMMAND_INT` lays its command out as `COMMAND_LONG` does. -/
def wireCommandIntDecode (msg : MavlinkMessage) : CommandInt where
  param1 := floatField msg 0
  command := wordOf (msg.extended 29) (msg.extended 28)

/-- The message a complete frame carries. -/
def wireMessage (frame : List UInt8) : MavlinkMessage :=
  let len := frame.getD 1 0
  { checksum := wordOf (frame.getD (11 + len.toNat) 0) (frame.getD (10 + len.toNat) 0)
    magic := frame.getD 0 0
    len := len
    incompatFlags := frame.getD 2 0
    compatFlags := frame.getD 3 0
    seq := frame.getD 4 0
    sysid := frame.getD 5 0
    compid := frame.getD 6 0
    msgid := (frame.getD 9 0).toBitVec ++ ((frame.getD 8 0).toBitVec ++ (frame.getD 7 0).toBitVec)
    payload64 := Vector.ofFn fun i : Fin payloadBytes =>
      if i.val < len.toNat then frame.getD (10 + i.val) 0 else 0
    signature := Vector.replicate 13 0 }

/-- Whether the checksum of a complete frame is right. -/
def frameIntact (frame : List UInt8) : Bool :=
  let msg := wireMessage frame
  crcFrame ((frame.drop 1).take (9 + msg.len.toNat)) (crcExtraOf msg.msgid) == msg.checksum

/-- Unsigned MAVLink 2 frames, one buffer for each channel. -/
def wireParser : MavlinkParser (Nat → List UInt8) where
  parseChar chan byte msg status buffers :=
    let frame := buffers chan ++ [byte]
    if frame.head? ≠ some mavlinkStx then
      { rv := .incomplete, msg := msg, status := status
        state := Function.update buffers chan [] }
    else if frame.length < 12 + (frame.getD 1 0).toNat then
      { rv := .incomplete, msg := msg, status := status
        state := Function.update buffers chan frame }
    else if frameIntact frame then
      { rv := .ok, msg := wireMessage frame, status := status
        state := Function.update buffers chan [] }
    else
      { rv := .incomplete, msg := msg, status := status
        state := Function.update buffers chan [] }

end SecureGateway
