import Mathlib.Data.List.Basic

/-!
# MAVLink messages and the generated library

The headers under `inc/mavlink` are generated at build time and are not part of
the repository. The message and status records are the ones the gateway reads;
the library's functions are fields of the two structures below, and results
about them carry the documented behaviour they use as a named condition.

## Implementation notes

The parser is split from the codec because only the parser has a state of its
own, the per-channel buffers. A payload is the byte view of `payload64`.
-/

namespace SecureGateway

/-- Bytes of `payload64`: 33 words of 8 bytes. -/
def payloadBytes : Nat := 264

/-- `MAVLINK_NUM_NON_PAYLOAD_BYTES`. -/
def mavlinkNumNonPayloadBytes : Nat := 12

/-- `mavlink_message_t`. -/
structure MavlinkMessage where
  checksum : BitVec 16
  magic : UInt8
  len : UInt8
  incompatFlags : UInt8
  compatFlags : UInt8
  seq : UInt8
  sysid : UInt8
  compid : UInt8
  msgid : BitVec 24
  payload64 : Vector UInt8 payloadBytes
  signature : Vector UInt8 13
deriving DecidableEq

/-- The counters of `mavlink_status_t`. -/
structure MavlinkStatus where
  msgReceived : UInt8
  bufferOverrun : UInt8
  parseError : UInt8
  parseState : UInt8
  packetIdx : UInt8
  currentRxSeq : UInt8
  currentTxSeq : UInt8
  packetRxSuccessCount : BitVec 16
  packetRxDropCount : BitVec 16
  flags : UInt8
deriving DecidableEq

/-- A message record after `memset` to zero. -/
def MavlinkMessage.zero : MavlinkMessage where
  checksum := 0
  magic := 0
  len := 0
  incompatFlags := 0
  compatFlags := 0
  seq := 0
  sysid := 0
  compid := 0
  msgid := 0
  payload64 := Vector.replicate payloadBytes 0
  signature := Vector.replicate 13 0

/-- A byte of the payload buffer, zero past its end. -/
def MavlinkMessage.payloadByte (msg : MavlinkMessage) (i : Nat) : UInt8 :=
  if h : i < payloadBytes then msg.payload64[i] else 0

/-- A payload byte as a decoder reads it: past the length of the message it is zero. -/
def MavlinkMessage.extended (msg : MavlinkMessage) (i : Nat) : UInt8 :=
  if i < msg.len.toNat then msg.payloadByte i else 0

/-- A status record after `memset` to zero. -/
def MavlinkStatus.zero : MavlinkStatus where
  msgReceived := 0
  bufferOverrun := 0
  parseError := 0
  parseState := 0
  packetIdx := 0
  currentRxSeq := 0
  currentTxSeq := 0
  packetRxSuccessCount := 0
  packetRxDropCount := 0
  flags := 0

/-- `mavlink_framing_t`. -/
inductive Framing
  | incomplete
  | ok
  | badCrc
  | badSignature
deriving DecidableEq

/-- What `mavlink_parse_char` returns and the records it leaves behind. -/
structure ParseResult (G : Type) where
  rv : Framing
  msg : MavlinkMessage
  status : MavlinkStatus
  state : G

/-- `mavlink_parse_char` over its channel state `G`. -/
structure MavlinkParser (G : Type) where
  parseChar (chan : Nat) (byte : UInt8) (msg : MavlinkMessage) (status : MavlinkStatus)
    (state : G) : ParseResult G

/-- The decoded fields of `mavlink_command_long_t` the policies read; a `float`
is its IEEE single-precision word. -/
structure CommandLong where
  param1 : BitVec 32
  command : BitVec 16
deriving DecidableEq

/-- The decoded fields of `mavlink_command_int_t` that carry a command. -/
structure CommandInt where
  param1 : BitVec 32
  command : BitVec 16
deriving DecidableEq

/-- The decoded fields of `mavlink_param_set_t` the policies read. -/
structure ParamSet where
  paramValue : BitVec 32
  paramId : Vector UInt8 16
deriving DecidableEq

/-- The stateless functions of the generated library that the gateway calls. -/
structure MavlinkCodec where
  finalizeMessageBuffer (msg : MavlinkMessage) (systemId componentId : UInt8)
    (status : MavlinkStatus) (minLength length crcExtra : UInt8) :
    MavlinkMessage × MavlinkStatus
  getCrcExtra : MavlinkMessage → UInt8
  msgToSendBuffer : MavlinkMessage → List UInt8
  commandLongDecode : MavlinkMessage → CommandLong
  paramSetDecode : MavlinkMessage → ParamSet

/-- `value == 0` on an IEEE single: both zeros compare equal to it. -/
def floatIsZero (value : BitVec 32) : Bool := value &&& 0x7fffffff#32 == 0#32

def msgIdParamSet : BitVec 24 := 23#24
def msgIdCommandInt : BitVec 24 := 75#24
def msgIdCommandLong : BitVec 24 := 76#24
def msgIdMeminfo : BitVec 24 := 152#24
def mavCmdDoFenceEnable : BitVec 16 := 207#16

end SecureGateway
