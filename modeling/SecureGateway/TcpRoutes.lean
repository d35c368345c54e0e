import SecureGateway.Forwarding

/-!
# The two TCP route operations

`tcp_route_to_mt` encodes a message and sends the encoding. `tcp_route_to`, which a build
without threads uses, sends as many bytes of the message record itself, and takes the call
for complete when the length of the payload has gone out.

## Implementation notes

The record is laid out as the generated packed structure: the checksum comes first, then the
start byte and the header, `payload64`, the two checksum bytes `ck` and the signature.
-/

namespace SecureGateway

open Library

/-- The `k`-th byte of the 24-bit message id. -/
def msgidByte (msg : MavlinkMessage) (k : Nat) : UInt8 := ⟨(msg.msgid >>> (8 * k)).setWidth 8⟩

/-- The record behind the message id, with the checksum bytes it stores. -/
def memoryTail (msg : MavlinkMessage) (ck : Vector UInt8 2) : List UInt8 :=
  msg.payload64.toList ++ (ck.toList ++ msg.signature.toList)

/-- The bytes of a `mavlink_message_t` in memory. -/
def memoryBytes (msg : MavlinkMessage) (ck : Vector UInt8 2) : List UInt8 :=
  lowByte msg.checksum :: highByte msg.checksum :: msg.magic :: msg.len :: msg.incompatFlags ::
    msg.compatFlags :: msg.seq :: msg.sysid :: msg.compid ::
    msgidByte msg 0 :: msgidByte msg 1 :: msgidByte msg 2 :: memoryTail msg ck

/-- `MAVLINK_CORE_HEADER_MAVLINK1_LEN`. -/
def mavlinkCoreHeaderMavlink1Len : Nat := 5

/-- `MAVLINK_CORE_HEADER_LEN`. -/
def mavlinkCoreHeaderLen : Nat := 9

/-- `MAVLINK_SIGNATURE_BLOCK_LEN`. -/
def mavlinkSignatureBlockLen : Nat := 13

def mavlinkMsgLength (msg : MavlinkMessage) : Nat :=
  if msg.magic = mavlinkStxMavlink1 then mavlinkCoreHeaderMavlink1Len + msg.len.toNat + 3
  else
    mavlinkCoreHeaderLen + mavTrimPayload msg.payloadByte msg.len.toNat +
      (if msg.incompatFlags &&& mavlinkIflagSigned ≠ 0 then mavlinkSignatureBlockLen else 0) + 3

/-- What `tcp_route_to` hands to `send`. -/
def tcpRouteToOffers (ck : Vector UInt8 2) (msg : MavlinkMessage) : List UInt8 :=
  (memoryBytes msg ck).take (mavlinkMsgLength msg)

/-- `tcp_route_to` on an open connection, with the count `send` returns. -/
def tcpRouteTo (ck : Vector UInt8 2) (tcp : TcpStream) (msg : MavlinkMessage)
    (sent : Option Nat) : RouteCode × TcpStream :=
  match sent with
  | none => (.ioFault, tcp)
  | some rv =>
      let tcp := { tcp with accepted := tcp.accepted ++ (tcpRouteToOffers ck msg).take rv }
      if rv < msg.len.toNat then (.ioFault, tcp) else (.succ, tcp)

/-- What `tcp_route_to_mt` hands to `send`: its output buffer once it has encoded the message. -/
def tcpRouteToMtOffers (codec : MavlinkCodec) (tcp : TcpStream) (msg : MavlinkMessage) :
    List UInt8 :=
  let frame := codec.msgToSendBuffer msg
  (List.range frame.length).map (overwrite tcp.outputBuffer frame)

/-- The two operations offer the encoding, and report success together and only when the whole
of it was taken. -/
structure SendPathsAgree (codec : MavlinkCodec) (ck : Vector UInt8 2) (tcp : TcpStream)
    (msg : MavlinkMessage) (sent : Option Nat) : Prop where
  offers : tcpRouteToOffers ck msg = tcpRouteToMtOffers codec tcp msg
  encodes : tcpRouteToMtOffers codec tcp msg = mavlinkMsgToSendBuffer msg
  code : (tcpRouteTo ck tcp msg sent).1 = .succ ↔ (tcpRouteToMt codec tcp msg sent).1 = .succ
  whole : (tcpRouteTo ck tcp msg sent).1 = .succ →
    sent = some (mavlinkMsgToSendBuffer msg).length

/-- The fields of a MAVLink 1 record coincide with those its frame has in their places. -/
structure CoincidesMavlink1 (ck : Vector UInt8 2) (msg : MavlinkMessage) : Prop where
  magic : lowByte msg.checksum = msg.magic
  len : highByte msg.checksum = msg.len
  seq : msg.magic = msg.seq
  sysid : msg.len = msg.sysid
  compid : msg.incompatFlags = msg.compid
  msgid : msg.compatFlags = msgidByte msg 0
  rest : (msg.seq :: msg.sysid :: msg.compid :: msgidByte msg 0 :: msgidByte msg 1 ::
      msgidByte msg 2 :: memoryTail msg ck).take (msg.len.toNat + 2) =
    (List.range msg.len.toNat).map msg.payloadByte ++
      [lowByte msg.checksum, highByte msg.checksum]

/-- The fields of a MAVLink 2 record coincide with those its frame has in their places. -/
structure CoincidesMavlink2 (ck : Vector UInt8 2) (msg : MavlinkMessage) : Prop where
  magic : lowByte msg.checksum = msg.magic
  len : highByte msg.checksum = UInt8.ofNat (mavTrimPayload msg.payloadByte msg.len.toNat)
  incompatFlags : msg.magic = msg.incompatFlags
  compatFlags : msg.len = msg.compatFlags
  seq : msg.incompatFlags = msg.seq
  sysid : msg.compatFlags = msg.sysid
  compid : msg.seq = msg.compid
  msgid0 : msg.sysid = msgidByte msg 0
  msgid1 : msg.compid = msgidByte msg 1
  msgid2 : msgidByte msg 0 = msgidByte msg 2
  rest : (msgidByte msg 1 :: msgidByte msg 2 :: memoryTail msg ck).take
      (mavlinkMsgLength msg - 10) =
    (List.range (mavTrimPayload msg.payloadByte msg.len.toNat)).map msg.payloadByte ++
      (lowByte msg.checksum :: highByte msg.checksum ::
        if msg.incompatFlags &&& mavlinkIflagSigned ≠ 0 then msg.signature.toList else [])

/-- The record happens to read as its own frame. -/
def ReadsAsFrame (ck : Vector UInt8 2) (msg : MavlinkMessage) : Prop :=
  if msg.magic = mavlinkStxMavlink1 then CoincidesMavlink1 ck msg else CoincidesMavlink2 ck msg

/-- The count leaves both comparisons short of the end or brings both to it. -/
def CountsAlike (msg : MavlinkMessage) (sent : Option Nat) : Prop :=
  ∀ n ∈ sent, (n < msg.len.toNat ∧ n < mavlinkMsgLength msg) ∨
    (msg.len.toNat ≤ n ∧ n = mavlinkMsgLength msg)

/-- `mavlink_msg_length` is the length of the encoding. -/
theorem length_mavlinkMsgToSendBuffer (msg : MavlinkMessage) :
    (mavlinkMsgToSendBuffer msg).length = mavlinkMsgLength msg := by
  unfold mavlinkMsgToSendBuffer mavlinkMsgLength
  by_cases hmagic : msg.magic = mavlinkStxMavlink1
  · rw [if_pos hmagic, if_pos hmagic]
    simp [mavlinkCoreHeaderMavlink1Len]
    omega
  · rw [if_neg hmagic, if_neg hmagic]
    by_cases hsigned : msg.incompatFlags &&& mavlinkIflagSigned ≠ 0
    · simp [frameBody, mavlinkCoreHeaderLen, mavlinkSignatureBlockLen, hsigned]
      omega
    · simp [frameBody, mavlinkCoreHeaderLen, hsigned]
      omega

/-- What `tcp_route_to` offers is the encoding exactly when the record reads as its frame. -/
theorem tcpRouteToOffers_eq_iff (ck : Vector UInt8 2) (msg : MavlinkMessage) :
    tcpRouteToOffers ck msg = mavlinkMsgToSendBuffer msg ↔ ReadsAsFrame ck msg := by
  unfold tcpRouteToOffers ReadsAsFrame mavlinkMsgToSendBuffer
  by_cases hmagic : msg.magic = mavlinkStxMavlink1
  · have hlength : mavlinkMsgLength msg = (msg.len.toNat + 2) + 6 := by
      rw [mavlinkMsgLength, if_pos hmagic, mavlinkCoreHeaderMavlink1Len]
      omega
    rw [if_pos hmagic, if_pos hmagic, hlength]
    simp only [memoryBytes, List.take_succ_cons, List.cons_append, List.nil_append,
      List.cons.injEq]
    constructor
    · rintro ⟨h0, h1, h2, h3, h4, h5, hrest⟩
      exact ⟨h0, h1, h2, h3, h4, h5, hrest⟩
    · rintro ⟨h0, h1, h2, h3, h4, h5, hrest⟩
      exact ⟨h0, h1, h2, h3, h4, h5, hrest⟩
  · have hlength : mavlinkMsgLength msg = (mavlinkMsgLength msg - 10) + 10 := by
      rw [mavlinkMsgLength, if_neg hmagic, mavlinkCoreHeaderLen]
      omega
    rw [if_neg hmagic, if_neg hmagic, hlength]
    simp only [memoryBytes, frameBody, List.take_succ_cons, List.cons_append, List.nil_append,
      List.cons.injEq]
    constructor
    · rintro ⟨h0, h1, h2, h3, h4, h5, h6, h7, h8, h9, hrest⟩
      exact ⟨h0, h1, h2, h3, h4, h5, h6, h7, h8, h9, hrest⟩
    · rintro ⟨h0, h1, h2, h3, h4, h5, h6, h7, h8, h9, hrest⟩
      exact ⟨h0, h1, h2, h3, h4, h5, h6, h7, h8, h9, hrest⟩

/-- A MAVLink 2 record with flags its parser accepts never reads as its frame. -/
theorem not_readsAsFrame_of_flags {ck : Vector UInt8 2} {msg : MavlinkMessage}
    (hmagic : msg.magic = mavlinkStx)
    (hflags : msg.incompatFlags = 0 ∨ msg.incompatFlags = mavlinkIflagSigned) :
    ¬ ReadsAsFrame ck msg := by
  have hversion : msg.magic ≠ mavlinkStxMavlink1 := by
    rw [hmagic]
    decide
  rw [ReadsAsFrame, if_neg hversion]
  intro h
  have hstart := hmagic.symm.trans h.incompatFlags
  rcases hflags with hflags | hflags
  · rw [hflags] at hstart
    exact absurd hstart (by decide)
  · rw [hflags] at hstart
    exact absurd hstart (by decide)

theorem tcpRouteToMtOffers_eq (codec : MavlinkCodec) (tcp : TcpStream) (msg : MavlinkMessage) :
    tcpRouteToMtOffers codec tcp msg = codec.msgToSendBuffer msg :=
  map_range_overwrite tcp.outputBuffer (codec.msgToSendBuffer msg)

theorem tcpRouteTo_succ_iff (ck : Vector UInt8 2) (tcp : TcpStream) (msg : MavlinkMessage)
    (sent : Option Nat) :
    (tcpRouteTo ck tcp msg sent).1 = .succ ↔ ∃ n, sent = some n ∧ msg.len.toNat ≤ n := by
  cases sent with
  | none => simp [tcpRouteTo]
  | some n =>
      simp only [tcpRouteTo, Option.some.injEq, exists_eq_left']
      split
      · rename_i hlt
        simp [hlt]
      · rename_i hge
        simpa using hge

theorem tcpRouteToMt_succ_iff {codec : MavlinkCodec} {tcp : TcpStream} (hopen : tcp.fd ≠ none)
    (msg : MavlinkMessage) (sent : Option Nat) :
    (tcpRouteToMt codec tcp msg sent).1 = .succ ↔
      ∃ n, sent = some n ∧ (codec.msgToSendBuffer msg).length ≤ n := by
  cases sent with
  | none => simp [tcpRouteToMt, tcpRoute, hopen]
  | some n =>
      simp only [tcpRouteToMt, tcpRoute, if_neg hopen, Option.some.injEq, exists_eq_left']
      split
      · rename_i hlt
        simp [hlt]
      · rename_i hge
        simpa using hge

/-- The codes agree, and success means the whole frame, exactly for the counts on which both
comparisons come out alike. -/
theorem codes_agree_iff {codec : MavlinkCodec}
    (hsends : codec.msgToSendBuffer = mavlinkMsgToSendBuffer) (ck : Vector UInt8 2)
    {tcp : TcpStream} (hopen : tcp.fd ≠ none) (msg : MavlinkMessage) {sent : Option Nat}
    (hsent : ∀ n ∈ sent, n ≤ mavlinkMsgLength msg) :
    (((tcpRouteTo ck tcp msg sent).1 = .succ ↔ (tcpRouteToMt codec tcp msg sent).1 = .succ) ∧
        ((tcpRouteTo ck tcp msg sent).1 = .succ →
          sent = some (mavlinkMsgToSendBuffer msg).length)) ↔
      CountsAlike msg sent := by
  rw [tcpRouteTo_succ_iff, tcpRouteToMt_succ_iff hopen, hsends,
    length_mavlinkMsgToSendBuffer]
  cases sent with
  | none => simp [CountsAlike]
  | some n =>
      have hle := hsent n rfl
      simp only [CountsAlike, Option.mem_def, Option.some.injEq, exists_eq_left', forall_eq']
      omega

/-- On an open connection the two operations agree exactly when the record reads as its frame and
the count brings both comparisons to the same side. -/
theorem sendPathsAgree_iff {codec : MavlinkCodec}
    (hsends : codec.msgToSendBuffer = mavlinkMsgToSendBuffer) (ck : Vector UInt8 2)
    {tcp : TcpStream} (hopen : tcp.fd ≠ none) (msg : MavlinkMessage) {sent : Option Nat}
    (hsent : ∀ n ∈ sent, n ≤ mavlinkMsgLength msg) :
    SendPathsAgree codec ck tcp msg sent ↔ ReadsAsFrame ck msg ∧ CountsAlike msg sent := by
  have hmt : tcpRouteToMtOffers codec tcp msg = mavlinkMsgToSendBuffer msg := by
    rw [tcpRouteToMtOffers_eq, hsends]
  rw [← tcpRouteToOffers_eq_iff, ← codes_agree_iff hsends ck hopen msg hsent]
  constructor
  · intro h
    exact ⟨h.offers.trans hmt, h.code, h.whole⟩
  · rintro ⟨hoffers, hcode, hwhole⟩
    exact ⟨hoffers.trans hmt.symm, hmt, hcode, hwhole⟩

/-- A MAVLink 1 message without payload whose record reads as its frame. -/
def alternatingMessage : MavlinkMessage :=
  { MavlinkMessage.zero with
    checksum := 0x00FE
    magic := mavlinkStxMavlink1
    seq := mavlinkStxMavlink1 }

theorem sendPathsAgree_alternating :
    SendPathsAgree framesCodec #v[0, 0] ⟨some 3, fun _ => 0, []⟩ alternatingMessage (some 8) := by
  apply (sendPathsAgree_iff rfl #v[0, 0] (by simp) alternatingMessage (by decide)).mpr
  have hmagic : alternatingMessage.magic = mavlinkStxMavlink1 := rfl
  refine ⟨?_, ?_⟩
  · rw [ReadsAsFrame, if_pos hmagic]
    exact ⟨rfl, rfl, rfl, rfl, rfl, rfl, rfl⟩
  · intro n hn
    cases hn
    exact Or.inr ⟨by decide, by decide⟩

/-- Of a heartbeat with one byte of payload `tcp_route_to` sends the record, and is content
with one byte of it. -/
theorem sendPaths_disagree :
    let tcp : TcpStream := ⟨some 3, fun _ => 0, []⟩
    (tcpRouteTo #v[0, 0] tcp (frameOfPayload [7]) (some 1)).1 = .succ ∧
      (tcpRouteToMt framesCodec tcp (frameOfPayload [7]) (some 1)).1 = .ioFault ∧
      ¬ ∀ (msg : MavlinkMessage) (sent : Option Nat), (∀ n ∈ sent, n ≤ mavlinkMsgLength msg) →
        SendPathsAgree framesCodec #v[0, 0] tcp msg sent := by
  intro tcp
  refine ⟨by decide, by decide, ?_⟩
  intro hall
  have hagree := hall (frameOfPayload [7]) none (by simp)
  have hreads := (tcpRouteToOffers_eq_iff _ _).mp (hagree.offers.trans hagree.encodes)
  exact not_readsAsFrame_of_flags rfl (Or.inl rfl) hreads

end SecureGateway
