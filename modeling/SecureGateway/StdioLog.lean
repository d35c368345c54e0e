import Mathlib.Algebra.GroupWithZero.Basic
import Mathlib.Algebra.GroupWithZero.Nat
import SecureGateway.Library.Loads
import SecureGateway.Push

/-!
# The message log

`stdio_route` prints a message field by field from the description the MAVLink library
keeps of it. The address of an integer field is computed by arithmetic on a pointer of
the field's own type, so its offset counts elements; a float or a double is copied from
its offset in bytes.

## Implementation notes

Addresses count from `payload64`; past its end lies whatever follows it in memory. A
printed field keeps the bytes its digits are made from. The names of sources and sinks
are functions of the printed ids and are left out.
-/

namespace SecureGateway

open Library

/-- `mavlink_message_type_t`; any other number is `unknown`. -/
inductive MavlinkType
  | char
  | uint8
  | int8
  | uint16
  | int16
  | uint32
  | int32
  | uint64
  | int64
  | float
  | double
  | unknown (code : Int)
deriving DecidableEq

/-- The fields of `mavlink_field_info_t` the log reads. -/
structure FieldInfo where
  name : String
  type : MavlinkType
  structureOffset : Nat

/-- The fields of `mavlink_message_info_t` the log reads; `num_fields` is the length. -/
structure MessageInfo where
  name : String
  msgid : Nat
  fields : List FieldInfo

/-- A printed value: hexadecimal digits, or a floating-point number. -/
inductive Shown
  | hex (digits : Nat) (bytes : List UInt8)
  | float (bytes : List UInt8)
  | double (bytes : List UInt8)
  | unknown (code : Int)
deriving DecidableEq

/-- The part of a line about a described message. -/
structure ShownMessage where
  name : String
  msgid : Nat
  compid : UInt8
  seq : UInt8
  fields : List (String × Shown)

/-- What one call of `stdio_route` prints. -/
structure StdioLine where
  source : Nat
  sinks : List (Fin maxSinks)
  attr : BitVec 64
  described : Option ShownMessage
  dump : List UInt8

/-- The byte at an address relative to `payload64`. -/
def payloadMemory (msg : MavlinkMessage) (beyond : Nat → UInt8) (i : Nat) : UInt8 :=
  if h : i < payloadBytes then msg.payload64[i] else beyond i

/-- Print an integer field: `offset` elements of `size` bytes past the payload's start. -/
def stdioHex (mem : Nat → UInt8) (size offset : Nat) : Loads Shown := do
  let bytes ← load mem (size * offset) size
  return .hex (2 * size) bytes

/-- The `switch` on the type of a field. -/
def stdioValue (mem : Nat → UInt8) (type : MavlinkType) (offset : Nat) : Loads Shown :=
  match type with
  | .char | .uint8 | .int8 => stdioHex mem 1 offset
  | .uint16 | .int16 => stdioHex mem 2 offset
  | .uint32 | .int32 => stdioHex mem 4 offset
  | .uint64 | .int64 => stdioHex mem 8 offset
  | .float => do
      let bytes ← load mem offset 4
      return .float bytes
  | .double => do
      let bytes ← load mem offset 8
      return .double bytes
  | .unknown code => return .unknown code

/-- Print one field. -/
def stdioField (mem : Nat → UInt8) (field : FieldInfo) : Loads (String × Shown) := do
  let shown ← stdioValue mem field.type field.structureOffset
  return (field.name, shown)

/-- Print the fields of a described message. -/
def stdioDescribed (mem : Nat → UInt8) (msg : MavlinkMessage) (info : MessageInfo) :
    Loads ShownMessage := do
  let fields ← info.fields.mapM (stdioField mem)
  return { name := info.name, msgid := info.msgid, compid := msg.compid, seq := msg.seq
           fields := fields }

/-- One byte of the dump printed after the fields. -/
def stdioByte (mem : Nat → UInt8) (i : Nat) : Loads UInt8 := do
  let bytes ← load mem i 1
  return bytes.headD 0

def stdioRoute (getMessageInfo : MavlinkMessage → Option MessageInfo) (beyond : Nat → UInt8)
    (msg : Message) : Loads StdioLine := do
  let mem := payloadMemory msg.msg beyond
  let described ← match getMessageInfo msg.msg with
    | none => pure none
    | some info => some <$> stdioDescribed mem msg.msg info
  let dump ← (List.range msg.msg.len.toNat).mapM (stdioByte mem)
  return { source := msg.source
           sinks := (List.finRange maxSinks).filter fun i => bitmapTest msg.sinks i.val ≠ 0
           attr := msg.attr
           described := described
           dump := dump }

/-! ### What a line reads -/

/-- The width of an integer type. -/
def MavlinkType.integerWidth : MavlinkType → Option Nat
  | char | uint8 | int8 => some 1
  | uint16 | int16 => some 2
  | uint32 | int32 => some 4
  | uint64 | int64 => some 8
  | float | double | unknown _ => none

/-- The bytes a value of the type takes; an unknown type is not read. -/
def MavlinkType.width : MavlinkType → Nat
  | char | uint8 | int8 => 1
  | uint16 | int16 => 2
  | uint32 | int32 | float => 4
  | uint64 | int64 | double => 8
  | unknown _ => 0

/-- What is read for a field. -/
def FieldInfo.ranges (field : FieldInfo) : List ByteRange :=
  match field.type with
  | .float => [⟨field.structureOffset, 4⟩]
  | .double => [⟨field.structureOffset, 8⟩]
  | .unknown _ => []
  | type => [⟨type.width * field.structureOffset, type.width⟩]

/-- What is printed for a field. -/
def FieldInfo.shown (mem : Nat → UInt8) (field : FieldInfo) : Shown :=
  match field.type with
  | .float => .float (bytesAt mem ⟨field.structureOffset, 4⟩)
  | .double => .double (bytesAt mem ⟨field.structureOffset, 8⟩)
  | .unknown code => .unknown code
  | type => .hex (2 * type.width) (bytesAt mem ⟨type.width * field.structureOffset, type.width⟩)

theorem stdioHex_reads (mem : Nat → UInt8) (size offset : Nat) :
    Reads (stdioHex mem size offset) (.hex (2 * size) (bytesAt mem ⟨size * offset, size⟩))
      [⟨size * offset, size⟩] :=
  (reads_load mem (size * offset) size).map (Shown.hex (2 * size))

theorem stdioField_reads (mem : Nat → UInt8) (field : FieldInfo) :
    Reads (stdioField mem field) (field.name, field.shown mem) field.ranges := by
  obtain ⟨name, type, offset⟩ := field
  have hvalue : Reads (stdioValue mem type offset) (FieldInfo.shown mem ⟨name, type, offset⟩)
      (FieldInfo.ranges ⟨name, type, offset⟩) := by
    cases type with
    | char | uint8 | int8 => exact stdioHex_reads mem 1 offset
    | uint16 | int16 => exact stdioHex_reads mem 2 offset
    | uint32 | int32 => exact stdioHex_reads mem 4 offset
    | uint64 | int64 => exact stdioHex_reads mem 8 offset
    | float => exact (reads_load mem offset 4).map Shown.float
    | double => exact (reads_load mem offset 8).map Shown.double
    | unknown code => exact reads_pure (Shown.unknown code)
  exact hvalue.map (Prod.mk name)

theorem stdioByte_reads (mem : Nat → UInt8) (i : Nat) :
    Reads (stdioByte mem i) (mem i) [⟨i, 1⟩] :=
  (reads_load mem i 1).map fun bytes => bytes.headD 0

/-- The fields the log prints of a message. -/
def describedFields (getMessageInfo : MavlinkMessage → Option MessageInfo) (msg : Message) :
    List FieldInfo :=
  match getMessageInfo msg.msg with
  | none => []
  | some info => info.fields

/-- The line `stdio_route` prints. -/
def stdioLine (getMessageInfo : MavlinkMessage → Option MessageInfo) (beyond : Nat → UInt8)
    (msg : Message) : StdioLine where
  source := msg.source
  sinks := (List.finRange maxSinks).filter fun i => bitmapTest msg.sinks i.val ≠ 0
  attr := msg.attr
  described := (getMessageInfo msg.msg).map fun info =>
    { name := info.name
      msgid := info.msgid
      compid := msg.msg.compid
      seq := msg.msg.seq
      fields := info.fields.map fun field =>
        (field.name, field.shown (payloadMemory msg.msg beyond)) }
  dump := (List.range msg.msg.len.toNat).map (payloadMemory msg.msg beyond)

/-- The whole call: each field where its type puts it, then the payload byte by byte. -/
theorem stdioRoute_reads (getMessageInfo : MavlinkMessage → Option MessageInfo)
    (beyond : Nat → UInt8) (msg : Message) :
    Reads (stdioRoute getMessageInfo beyond msg) (stdioLine getMessageInfo beyond msg)
      ((describedFields getMessageInfo msg).flatMap FieldInfo.ranges ++
        (List.range msg.msg.len.toNat).flatMap fun i => [⟨i, 1⟩]) := by
  have hdump := reads_mapM (stdioByte_reads (payloadMemory msg.msg beyond))
    (List.range msg.msg.len.toNat)
  unfold stdioRoute stdioLine describedFields
  cases getMessageInfo msg.msg with
  | none => exact (reads_pure none).bind (hdump.map _)
  | some info =>
      have hfields := reads_mapM (stdioField_reads (payloadMemory msg.msg beyond)) info.fields
      exact ((hfields.map _).map some).bind (hdump.map _)

/-! ### When the log shows the real values -/

/-- Each integer field is read where it lies, and nothing outside the payload is read. -/
def LogsFields (getMessageInfo : MavlinkMessage → Option MessageInfo) (beyond : Nat → UInt8)
    (msg : Message) : Prop :=
  (∀ field ∈ describedFields getMessageInfo msg, ∀ w, field.type.integerWidth = some w →
    (stdioField (payloadMemory msg.msg beyond) field).ranges = [⟨field.structureOffset, w⟩]) ∧
  ∀ r ∈ (stdioRoute getMessageInfo beyond msg).ranges, r.Within payloadBytes

/-- An integer field whose element offset is its byte offset: a single byte, or at the
start of the payload. -/
def FieldInfo.Unscaled (field : FieldInfo) : Prop :=
  ∀ w, field.type.integerWidth = some w → w = 1 ∨ field.structureOffset = 0

theorem FieldInfo.ranges_of_integer {field : FieldInfo} {w : Nat}
    (h : field.type.integerWidth = some w) :
    field.ranges = [⟨w * field.structureOffset, w⟩] := by
  obtain ⟨name, type, offset⟩ := field
  cases type <;> cases h <;> rfl

/-- An unscaled field is read at its offset, whatever its type. -/
theorem FieldInfo.Unscaled.ranges {field : FieldInfo} (h : field.Unscaled) :
    ∀ r ∈ field.ranges, r = ⟨field.structureOffset, field.type.width⟩ := by
  intro r hr
  cases hw : field.type.integerWidth with
  | some w =>
      have hwidth : field.type.width = w := by
        cases htype : field.type <;> rw [htype] at hw <;> cases hw <;> rfl
      rw [FieldInfo.ranges_of_integer hw, List.mem_singleton] at hr
      rw [hr, hwidth, mul_left_eq_self₀.mpr (h w hw)]
  | none =>
      obtain ⟨name, type, offset⟩ := field
      cases type with
      | float | double => exact List.mem_singleton.mp hr
      | unknown code => cases hr
      | char | uint8 | int8 | uint16 | int16 | uint32 | int32 | uint64 | int64 => cases hw

/-- The dump stays within the payload: a length is a byte. -/
theorem dump_within (len : UInt8) :
    ∀ r ∈ (List.range len.toNat).flatMap (fun i => [(⟨i, 1⟩ : ByteRange)]),
      r.Within payloadBytes := by
  intro r hr
  obtain ⟨i, hi, hr⟩ := List.mem_flatMap.mp hr
  rw [List.mem_singleton] at hr
  subst hr
  have hlen := len.toNat_lt
  rw [List.mem_range] at hi
  simp only [ByteRange.Within, payloadBytes]
  omega

/-- The log reads the fields of a message where they lie exactly when every integer field is
one byte wide or at offset zero. -/
theorem logsFields_iff (getMessageInfo : MavlinkMessage → Option MessageInfo)
    (beyond : Nat → UInt8) (msg : Message)
    (hwithin : ∀ field ∈ describedFields getMessageInfo msg,
      field.structureOffset + field.type.width ≤ payloadBytes) :
    LogsFields getMessageInfo beyond msg ↔
      ∀ field ∈ describedFields getMessageInfo msg, field.Unscaled := by
  have hfield (field : FieldInfo) := (stdioField_reads (payloadMemory msg.msg beyond) field).ranges
  unfold LogsFields
  rw [(stdioRoute_reads getMessageInfo beyond msg).ranges]
  constructor
  · rintro ⟨hreads, -⟩ field hmem w hw
    have hread := hreads field hmem w hw
    rw [hfield, FieldInfo.ranges_of_integer hw] at hread
    injection hread with hread
    exact mul_left_eq_self₀.mp (congrArg ByteRange.start hread)
  · intro hunscaled
    refine ⟨?_, ?_⟩
    · intro field hmem w hw
      rw [hfield, FieldInfo.ranges_of_integer hw,
        mul_left_eq_self₀.mpr (hunscaled field hmem w hw)]
    · intro r hr
      obtain hr | hr := List.mem_append.mp hr
      · obtain ⟨field, hmem, hr⟩ := List.mem_flatMap.mp hr
        rw [(hunscaled field hmem).ranges r hr]
        exact hwithin field hmem
      · exact dump_within msg.msg.len r hr

/-- A description by which every message has a 32-bit number, a byte and a float. -/
def plainInfo : MessageInfo where
  name := "PLAIN"
  msgid := 0
  fields := [⟨"custom_mode", .uint32, 0⟩, ⟨"type", .uint8, 4⟩, ⟨"value", .float, 8⟩]

theorem logsFields_plain : LogsFields (fun _ => some plainInfo) (fun _ => 0) .zero := by
  apply (logsFields_iff (fun _ => some plainInfo) (fun _ => 0) .zero ?_).mpr
  · simp [describedFields, plainInfo, FieldInfo.Unscaled, MavlinkType.integerWidth]
  · simp [describedFields, plainInfo, MavlinkType.width, payloadBytes]

/-- The description of a long command: seven floats, the command number, three bytes. -/
def commandLongInfo : MessageInfo where
  name := "COMMAND_LONG"
  msgid := 76
  fields :=
    [⟨"param1", .float, 0⟩, ⟨"param2", .float, 4⟩, ⟨"param3", .float, 8⟩, ⟨"param4", .float, 12⟩,
      ⟨"param5", .float, 16⟩, ⟨"param6", .float, 20⟩, ⟨"param7", .float, 24⟩,
      ⟨"command", .uint16, 28⟩, ⟨"target_system", .uint8, 30⟩, ⟨"target_component", .uint8, 31⟩,
      ⟨"confirmation", .uint8, 32⟩]

/-- The command number of a long command is read past the message's 33 bytes. -/
theorem commandLong_misread :
    (∀ field ∈ commandLongInfo.fields,
      field.structureOffset + field.type.width ≤ payloadBytes) ∧
    (stdioField (payloadMemory .zero fun _ => 0) ⟨"command", .uint16, 28⟩).ranges =
      [⟨56, 2⟩] ∧
    ¬ LogsFields (fun _ => some commandLongInfo) (fun _ => 0) .zero := by
  refine ⟨by decide, rfl, ?_⟩
  rintro ⟨hreads, -⟩
  have hread := hreads ⟨"command", .uint16, 28⟩ (by simp [describedFields, commandLongInfo]) 2 rfl
  exact absurd hread (by decide)

/-! ### What is shown -/

theorem payloadMemory_of_lt {msg : MavlinkMessage} {beyond : Nat → UInt8} {i : Nat}
    (h : i < payloadBytes) : payloadMemory msg beyond i = msg.payloadByte i := by
  rw [payloadMemory, dif_pos h, MavlinkMessage.payloadByte, dif_pos h]

theorem FieldInfo.shown_of_integer {field : FieldInfo} {w : Nat} (mem : Nat → UInt8)
    (h : field.type.integerWidth = some w) :
    field.shown mem = .hex (2 * w) (bytesAt mem ⟨w * field.structureOffset, w⟩) := by
  obtain ⟨name, type, offset⟩ := field
  cases type <;> cases h <;> rfl

/-- A payload of zeros but for one byte. -/
def oneByteSet (i : Nat) : MavlinkMessage :=
  { MavlinkMessage.zero with payload64 := Vector.ofFn fun j => if j.val = i then 1 else 0 }

theorem oneByteSet_payloadByte {i j : Nat} (h : i < payloadBytes) :
    (oneByteSet i).payloadByte j = if j = i then 1 else 0 := by
  unfold MavlinkMessage.payloadByte
  split
  · simp [oneByteSet]
  · rw [if_neg (by omega)]

theorem bytesAt_congr {mem mem' : Nat → UInt8} {r : ByteRange}
    (h : ∀ k, k < r.width → mem (r.start + k) = mem' (r.start + k)) :
    bytesAt mem r = bytesAt mem' r := by
  apply List.map_congr_left
  intro k hk
  exact h k (List.mem_range.mp hk)

/-- An integer field is shown with its value in every message exactly when its element
offset is its byte offset. -/
theorem shown_eq_value_iff {field : FieldInfo} {w : Nat}
    (hw : field.type.integerWidth = some w) (hwithin : field.structureOffset + w ≤ payloadBytes) :
    (∀ msg beyond, field.shown (payloadMemory msg beyond) =
        .hex (2 * w) (bytesAt msg.payloadByte ⟨field.structureOffset, w⟩)) ↔
      w = 1 ∨ field.structureOffset = 0 := by
  have hpos : 0 < w := by
    cases htype : field.type <;> rw [htype] at hw <;> cases hw <;> decide
  constructor
  · intro hshown
    by_contra hscaled
    rw [not_or] at hscaled
    have hlt : field.structureOffset < payloadBytes := by omega
    -- only the field's first byte is set, and it lies before what is read
    have hbytes := hshown (oneByteSet field.structureOffset) fun _ => 0
    rw [FieldInfo.shown_of_integer _ hw] at hbytes
    injection hbytes with _ hbytes
    have hfirst := congrArg (fun bytes => bytes[0]?) hbytes
    have hbefore : field.structureOffset < w * field.structureOffset := by
      have hmul := Nat.mul_le_mul_right field.structureOffset (show 2 ≤ w by omega)
      omega
    simp only [bytesAt, List.getElem?_map, List.getElem?_range hpos, Option.map_some,
      Nat.add_zero, Option.some.injEq] at hfirst
    rw [oneByteSet_payloadByte hlt, if_pos rfl, payloadMemory] at hfirst
    split at hfirst
    · rw [oneByteSet] at hfirst
      simp only [Vector.getElem_ofFn] at hfirst
      rw [if_neg (by omega)] at hfirst
      exact absurd hfirst (by decide)
    · exact absurd hfirst (by decide)
  · intro hplace msg beyond
    rw [FieldInfo.shown_of_integer _ hw, mul_left_eq_self₀.mpr hplace]
    congr 1
    apply bytesAt_congr
    intro k hk
    exact payloadMemory_of_lt (Nat.lt_of_lt_of_le (Nat.add_lt_add_left hk _) hwithin)

/-! ### The log of rejected messages -/

/-- `stdio_route` as the route operation of a sink, over the lines printed so far. -/
def stdioSink (getMessageInfo : MavlinkMessage → Option MessageInfo) (beyond : Nat → UInt8)
    (msg : Message) (printed : List StdioLine) : Message × List StdioLine :=
  (msg, printed ++ [(stdioRoute getMessageInfo beyond msg).value])

/-- With the log hooked on the discard sink, a debug build prints one line about each
message it rejects, as the policies left it. -/
theorem rejected_logged {getMessageInfo : MavlinkMessage → Option MessageInfo}
    {beyond : Nat → UInt8} {p q : Pipeline (List StdioLine)}
    (hhook : hookStdioSink p SinkType.discard.id (stdioSink getMessageInfo beyond) = .ok q)
    {perf : Perf} {msg : Message} {printed : List StdioLine} {r : PushResult (List StdioLine)}
    (hpush : pipelinePush true q perf msg printed = .ok r) (hsource : msg.source < maxSources)
    (hrejected : r.inspected.sinks.has SinkType.discard.id = true) :
    r.world = printed ++ [stdioLine getMessageInfo beyond r.inspected] := by
  have hget : sinkGet SinkType.discard.id = .ok ⟨SinkType.discard.id, by decide⟩ := rfl
  have hroute : (q.sinks ⟨SinkType.discard.id, by decide⟩).route =
      some (stdioSink getMessageInfo beyond) := by
    rw [hookStdioSink, hget, ok_bind] at hhook
    cases hhook
    simp
  have hinspected := pipelinePush_inspected hsource hpush
  obtain ⟨-, hcase⟩ | ⟨hclear, -⟩ := pipelinePush_cases true q perf printed hsource
  · rw [hcase, pushDiscard, if_pos rfl, hget, ok_bind] at hpush
    simp only [hroute] at hpush
    cases hpush
    rw [← (stdioRoute_reads getMessageInfo beyond _).value]
    rfl
  · rw [← hinspected, hrejected] at hclear
    cases hclear

end SecureGateway
