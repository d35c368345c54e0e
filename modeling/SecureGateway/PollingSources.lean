import SecureGateway.Library.Polling
import SecureGateway.Library.Stores

/-!
# The polling sources

The CertiKOS UART, Partee and ThinROS sources keep the last chunk of their transport in
an array, with its length and a cursor. They differ in where the chunk arrives and in
who resets the cursor.

## Implementation notes

What the transport has ready for a call is an input of the call. ThinROS gets at most
one message in a call of `ros_spin_one_message`, and none before it subscribed.
-/

namespace SecureGateway

open Library

/-- `MAVLINK_MAX_PACKET_LEN`. -/
def mavlinkMaxPacketLen : Nat := 280

/-- A chunk that fits in an array of `capacity` bytes. -/
abbrev Chunk (capacity : Nat) := {chunk : List UInt8 // chunk.length ≤ capacity}

/-! ### The CertiKOS UART -/

/-- `struct certikos_uart_socket_t`. -/
structure CertikosUartSocket where
  initialized : Bool
  currentRead : Nat
  len : Nat
  data : Nat → UInt8

def certikosUartSocketInit (uart : CertikosUartSocket) : CertikosUartSocket :=
  if uart.initialized then uart
  else { uart with currentRead := 0, len := 0, initialized := true }

/-- The initialization each call begins with. -/
def certikosUartReady (uart : CertikosUartSocket) : CertikosUartSocket :=
  if uart.initialized = false then certikosUartSocketInit uart else uart

/-- `sizeof(uart->data)`. -/
def certikosUartDataSize : Nat := 4096

/-- `certikos_uart_has_more`, with what `reads` would put into `data`. -/
def certikosUartHasMore (uart : CertikosUartSocket) (reads : Chunk certikosUartDataSize) :
    Polled CertikosUartSocket UInt8 :=
  let uart := certikosUartReady uart
  if 0 < uart.len ∧ uart.currentRead < uart.len then ⟨true, uart, none⟩
  else
    let uart :=
      { uart with
        len := reads.val.length
        data := overwrite uart.data reads.val
        currentRead := 0 }
    ⟨decide (0 < uart.len), uart, some reads.val⟩

def certikosUartReadByte (uart : CertikosUartSocket) : UInt8 × CertikosUartSocket :=
  let uart := certikosUartReady uart
  if 0 < uart.len ∧ uart.currentRead < uart.len then
    (uart.data uart.currentRead, { uart with currentRead := uart.currentRead + 1 })
  else (0, uart)

def certikosUart : PollingSource CertikosUartSocket (Chunk certikosUartDataSize) UInt8 where
  hasMore := certikosUartHasMore
  readByte := fun uart _ => certikosUartReadByte uart

/-- `certikos_uart_socket` as it is linked. -/
def certikosUartSocket : CertikosUartSocket := ⟨false, 0, 0, fun _ => 0⟩

/-- The part of the chunk the cursor has not passed. -/
def CertikosUartSocket.unread (uart : CertikosUartSocket) : List UInt8 :=
  remaining uart.data uart.currentRead uart.len

/-! ### Partee -/

/-- `struct mavlink_msg_t`. -/
structure MavlinkMsg where
  len : Nat
  data : Nat → UInt8

/-- `struct partee_socket_t`; `initialized` is set when it is linked and never cleared. -/
structure ParteeSocket where
  initialized : Bool
  currentRead : Nat
  msg : MavlinkMsg
  initialized_eq : initialized = true

/-- `partee_socket_has_more`, with what `partee_topic_read` would put into `msg.data`. -/
def parteeSocketHasMore (ros : ParteeSocket) (topicRead : Chunk mavlinkMaxPacketLen) :
    Polled ParteeSocket UInt8 :=
  if 0 < ros.msg.len ∧ ros.currentRead < ros.msg.len then ⟨true, ros, none⟩
  else
    let ros :=
      { ros with
        msg := { len := topicRead.val.length, data := overwrite ros.msg.data topicRead.val }
        currentRead := 0 }
    if 0 < ros.msg.len ∧ ros.currentRead < ros.msg.len then ⟨true, ros, some topicRead.val⟩
    else ⟨false, ros, some topicRead.val⟩

def parteeSocketReadByte (ros : ParteeSocket) : UInt8 × ParteeSocket :=
  if 0 < ros.msg.len ∧ ros.currentRead < ros.msg.len then
    (ros.msg.data ros.currentRead, { ros with currentRead := ros.currentRead + 1 })
  else (0, ros)

def partee : PollingSource ParteeSocket (Chunk mavlinkMaxPacketLen) UInt8 where
  hasMore := parteeSocketHasMore
  readByte := fun ros _ => parteeSocketReadByte ros

/-- `partee_socket` of `hook_partee`. -/
def parteeSocket : ParteeSocket := ⟨true, 0, ⟨0, fun _ => 0⟩, rfl⟩

def ParteeSocket.unread (ros : ParteeSocket) : List UInt8 :=
  remaining ros.msg.data ros.currentRead ros.msg.len

/-! ### ThinROS -/

/-- `struct thinros_socket_t`, with whether the library knows the subscription. No publisher
is `INVALID_HANDLER`. -/
structure ThinrosSocket where
  initialized : Bool
  publisher : Option Nat
  currentRead : Nat
  msg : MavlinkMsg
  subscribed : Bool

/-- `on_thinros_mavlink_recv`: the length the message states is the length copied. -/
def onThinrosMavlinkRecv (ros : ThinrosSocket) (message : MavlinkMsg) : ThinrosSocket :=
  { ros with
    msg := { len := message.len
             data := fun j => if j < message.len then message.data j else ros.msg.data j }
    currentRead := 0 }

/-- `thinros_socket_init`, with what `ros_advertise` would give; `SUCC` is `true`. -/
def thinrosSocketInit (ros : ThinrosSocket) (advertise : Option Nat) : Bool × ThinrosSocket :=
  if ros.initialized then (true, ros)
  else
    let ros := { ros with publisher := advertise }
    match ros.publisher with
    | none => (false, ros)
    | some _ =>
        (true, { ros with
                 currentRead := 0
                 msg := { ros.msg with len := 0 }
                 subscribed := true
                 initialized := true })

/-- The initialization each call begins with; whether it succeeds is not looked at. -/
def thinrosReady (ros : ThinrosSocket) (advertise : Option Nat) : ThinrosSocket :=
  if ros.initialized = false then (thinrosSocketInit ros advertise).2 else ros

/-- The message `ros_spin_one_message` hands to the callback. -/
def rosDelivered (ros : ThinrosSocket) (message : Option MavlinkMsg) : Option MavlinkMsg :=
  if ros.subscribed then message else none

def rosSpinOneMessage (ros : ThinrosSocket) (message : Option MavlinkMsg) : ThinrosSocket :=
  match rosDelivered ros message with
  | none => ros
  | some message => onThinrosMavlinkRecv ros message

/-- The bytes of a message up to the length it states. -/
def MavlinkMsg.bytes (message : MavlinkMsg) : List UInt8 :=
  (List.range message.len).map message.data

/-- What a call that polls is given; a spin without a message counts as an empty chunk. -/
def rosChunk (ros : ThinrosSocket) (message : Option MavlinkMsg) : List UInt8 :=
  match rosDelivered ros message with
  | none => []
  | some message => message.bytes

/-- `thinros_socket_has_more`, with what `ros_advertise` and the topic have ready. -/
def thinrosSocketHasMore (ros : ThinrosSocket) (advertise : Option Nat)
    (message : Option MavlinkMsg) : Polled ThinrosSocket UInt8 :=
  let ros := thinrosReady ros advertise
  if 0 < ros.msg.len ∧ ros.currentRead < ros.msg.len then ⟨true, ros, none⟩
  else
    let chunk := rosChunk ros message
    let ros := rosSpinOneMessage ros message
    if 0 < ros.msg.len ∧ ros.currentRead < ros.msg.len then ⟨true, ros, some chunk⟩
    else ⟨false, ros, some chunk⟩

def thinrosSocketReadByte (ros : ThinrosSocket) (advertise : Option Nat) :
    UInt8 × ThinrosSocket :=
  let ros := thinrosReady ros advertise
  if 0 < ros.msg.len ∧ ros.currentRead < ros.msg.len then
    (ros.msg.data ros.currentRead, { ros with currentRead := ros.currentRead + 1 })
  else (0, ros)

/-- What a call of the ThinROS source meets; a message that is ready fits in the array. -/
structure ThinrosInput where
  advertise : Option Nat
  message : Option {message : MavlinkMsg // message.len ≤ mavlinkMaxPacketLen}

def thinros : PollingSource ThinrosSocket ThinrosInput UInt8 where
  hasMore := fun ros x => thinrosSocketHasMore ros x.advertise (x.message.map Subtype.val)
  readByte := fun ros x => thinrosSocketReadByte ros x.advertise

/-- `thinros_socket` after `hook_thinros`. -/
def thinrosSocket : ThinrosSocket := ⟨false, none, 0, ⟨0, fun _ => 0⟩, false⟩

def ThinrosSocket.unread (ros : ThinrosSocket) : List UInt8 :=
  remaining ros.msg.data ros.currentRead ros.msg.len

/-! ### What the calls do -/

/-- The test every adapter makes before it hands out a byte. -/
theorem unread_iff {data : Nat → UInt8} {cursor len : Nat} :
    (0 < len ∧ cursor < len) ↔ remaining data cursor len ≠ [] := by
  rw [ne_eq, remaining_eq_nil_iff]
  omega

theorem remaining_nil {data : Nat → UInt8} {cursor len : Nat} (h : ¬ (0 < len ∧ cursor < len)) :
    remaining data cursor len = [] :=
  not_not.mp (mt unread_iff.mpr h)

/-- A chunk just fetched is unread as a whole. -/
theorem remaining_overwrite (data : Nat → UInt8) (chunk : List UInt8) :
    remaining (overwrite data chunk) 0 chunk.length = chunk := by
  rw [remaining_zero, map_range_overwrite]

/-- Reading on in a chunk that has more. -/
theorem remaining_read {data : Nat → UInt8} {cursor len : Nat} {b : UInt8} {rest : List UInt8}
    (h : remaining data cursor len = b :: rest) :
    (0 < len ∧ cursor < len) ∧ data cursor = b ∧ remaining data (cursor + 1) len = rest := by
  have hmore : 0 < len ∧ cursor < len := by
    apply unread_iff.mpr
    rw [h]
    exact List.cons_ne_nil b rest
  rw [remaining_eq_cons hmore.2, List.cons.injEq] at h
  exact ⟨hmore, h⟩

/-- Before the first initialization nothing is unread. -/
def CertikosUartSocket.Ready (uart : CertikosUartSocket) : Prop :=
  uart.initialized = false → uart.unread = []

theorem CertikosUartSocket.ready_of_initialized {uart : CertikosUartSocket}
    (h : uart.initialized = true) : uart.Ready := by
  intro hnot
  rw [h] at hnot
  cases hnot

/-- The initialization of a call leaves the same bytes unread. -/
theorem certikosUartReady_spec {uart : CertikosUartSocket} (h : uart.Ready) :
    (certikosUartReady uart).initialized = true ∧
      (certikosUartReady uart).unread = uart.unread := by
  unfold certikosUartReady
  cases hinit : uart.initialized with
  | true => simp [hinit]
  | false =>
      rw [h hinit]
      simp [certikosUartSocketInit, hinit, CertikosUartSocket.unread, remaining]

/-- A poll of an array source gets the chunk its transport has ready. -/
def Chunk.ready {A : Type} {capacity : Nat} (_ : A) (chunk : Chunk capacity) : List UInt8 :=
  chunk.val

theorem certikosUart_lawful :
    certikosUart.Lawful CertikosUartSocket.Ready CertikosUartSocket.unread Chunk.ready := by
  constructor
  · intro uart x huart
    obtain ⟨hinit, -⟩ := certikosUartReady_spec huart
    simp only [certikosUart, certikosUartHasMore]
    split <;> exact CertikosUartSocket.ready_of_initialized hinit
  · intro uart x huart _
    obtain ⟨hinit, -⟩ := certikosUartReady_spec huart
    simp only [certikosUart, certikosUartReadByte]
    split <;> exact CertikosUartSocket.ready_of_initialized hinit
  · intro uart x huart
    obtain ⟨-, hunread⟩ := certikosUartReady_spec huart
    simp only [certikosUart, certikosUartHasMore]
    split
    · rename_i hmore
      have hne : uart.unread ≠ [] := hunread ▸ unread_iff.mp hmore
      exact Or.inl ⟨rfl, rfl, hunread, hne⟩
    · rename_i hmore
      right
      refine ⟨?_, rfl, remaining_overwrite _ x.val, ?_⟩
      · rw [decide_eq_true_iff, List.length_pos_iff]
        exact Iff.rfl
      · rw [← hunread]
        exact remaining_nil hmore
  · intro uart x b rest huart hcons
    obtain ⟨-, hunread⟩ := certikosUartReady_spec huart
    rw [← hunread] at hcons
    obtain ⟨hmore, hbyte⟩ := remaining_read hcons
    simp only [certikosUart, certikosUartReadByte, if_pos hmore]
    exact hbyte

theorem partee_lawful :
    partee.Lawful (fun _ => True) ParteeSocket.unread Chunk.ready := by
  constructor
  · intro ros x _
    trivial
  · intro ros x _ _
    trivial
  · intro ros x _
    simp only [partee, parteeSocketHasMore]
    split
    · rename_i hmore
      exact Or.inl ⟨rfl, rfl, rfl, unread_iff.mp hmore⟩
    · rename_i hmore
      have hnil : ros.unread = [] := remaining_nil hmore
      right
      refine ⟨?_, ?_, ?_, hnil⟩
      · unfold Chunk.ready
        cases x.val <;> simp
      · split <;> rfl
      · split <;> exact remaining_overwrite ros.msg.data x.val
  · intro ros x b rest _ hcons
    obtain ⟨hmore, hbyte⟩ := remaining_read hcons
    simp only [partee, parteeSocketReadByte, if_pos hmore]
    exact hbyte

/-- Before the first initialization nothing is unread, and the library delivers nothing. -/
def ThinrosSocket.Ready (ros : ThinrosSocket) : Prop :=
  ros.initialized = false → ros.unread = [] ∧ ros.subscribed = false

/-- The initialization of a call leaves the same bytes unread, also when it fails. -/
theorem thinrosReady_spec {ros : ThinrosSocket} (h : ros.Ready) (advertise : Option Nat) :
    (thinrosReady ros advertise).Ready ∧
      (thinrosReady ros advertise).unread = ros.unread := by
  unfold thinrosReady
  cases hinit : ros.initialized with
  | true => exact ⟨h, rfl⟩
  | false =>
      obtain ⟨hunread, hsubscribed⟩ := h hinit
      cases advertise with
      | none =>
          simp only [if_true, thinrosSocketInit, hinit, Bool.false_eq_true, if_false]
          exact ⟨fun _ => ⟨hunread, hsubscribed⟩, rfl⟩
      | some handler =>
          simp only [if_true, thinrosSocketInit, hinit, Bool.false_eq_true, if_false]
          refine ⟨fun hnot => absurd hnot (by simp), ?_⟩
          rw [hunread]
          simp [ThinrosSocket.unread, remaining]

/-- After a spin with nothing unread the delivered message is unread. -/
theorem rosSpinOneMessage_spec {ros : ThinrosSocket} (h : ros.Ready) (hnil : ros.unread = [])
    (message : Option MavlinkMsg) :
    (rosSpinOneMessage ros message).Ready ∧
      (rosSpinOneMessage ros message).unread = rosChunk ros message := by
  unfold rosSpinOneMessage rosChunk
  cases hdelivered : rosDelivered ros message with
  | none => exact ⟨h, hnil⟩
  | some message =>
      constructor
      · intro hinit
        have hnone := (h hinit).2
        simp [rosDelivered, hnone] at hdelivered
      · change remaining _ 0 message.len = message.bytes
        rw [remaining_zero]
        apply List.map_congr_left
        intro j hj
        exact if_pos (List.mem_range.mp hj)

/-- A poll of ThinROS gets the message of the topic, once the node has subscribed; the first
call that can advertise subscribes before it polls. -/
def ThinrosSocket.ready (ros : ThinrosSocket) (x : ThinrosInput) : List UInt8 :=
  match x.message with
  | some message =>
      if ros.subscribed ∨ ros.initialized = false ∧ x.advertise.isSome then message.val.bytes
      else []
  | none => []

theorem rosChunk_thinrosReady (ros : ThinrosSocket) (x : ThinrosInput) :
    rosChunk (thinrosReady ros x.advertise) (x.message.map Subtype.val) = ros.ready x := by
  have hsubscribed : (thinrosReady ros x.advertise).subscribed =
      decide (ros.subscribed ∨ ros.initialized = false ∧ x.advertise.isSome) := by
    unfold thinrosReady thinrosSocketInit
    cases hinit : ros.initialized with
    | true => simp
    | false => cases x.advertise <;> simp
  rw [rosChunk, rosDelivered, hsubscribed, ThinrosSocket.ready]
  cases x.message with
  | none => simp
  | some message => split <;> simp_all

theorem thinros_lawful :
    thinros.Lawful ThinrosSocket.Ready ThinrosSocket.unread ThinrosSocket.ready := by
  constructor
  · intro ros x hros
    obtain ⟨hready, -⟩ := thinrosReady_spec hros x.advertise
    simp only [thinros, thinrosSocketHasMore]
    split
    · exact hready
    · rename_i hmore
      have hnil : (thinrosReady ros x.advertise).unread = [] := remaining_nil hmore
      split <;> exact (rosSpinOneMessage_spec hready hnil _).1
  · intro ros x hros hne
    obtain ⟨hready, hunread⟩ := thinrosReady_spec hros x.advertise
    rw [← hunread] at hne
    simp only [thinros, thinrosSocketReadByte, if_pos (unread_iff.mpr hne)]
    intro hinit
    exact absurd (hready hinit).1 hne
  · intro ros x hros
    obtain ⟨hready, hunread⟩ := thinrosReady_spec hros x.advertise
    simp only [thinros, thinrosSocketHasMore]
    split
    · rename_i hmore
      have hne : ros.unread ≠ [] := hunread ▸ unread_iff.mp hmore
      exact Or.inl ⟨rfl, rfl, hunread, hne⟩
    · rename_i hmore
      have hnil : (thinrosReady ros x.advertise).unread = [] := remaining_nil hmore
      have hafter := (rosSpinOneMessage_spec hready hnil (x.message.map Subtype.val)).2
      right
      rw [← rosChunk_thinrosReady]
      refine ⟨?_, ?_, ?_, ?_⟩
      · rw [← hafter]
        split
        · rename_i hpolled
          exact ⟨fun _ => unread_iff.mp hpolled, fun _ => rfl⟩
        · rename_i hpolled
          exact ⟨fun h => absurd h (by simp), fun h => absurd (unread_iff.mpr h) hpolled⟩
      · split <;> rfl
      · split <;> exact hafter
      · rw [← hunread]
        exact hnil
  · intro ros x b rest hros hcons
    obtain ⟨-, hunread⟩ := thinrosReady_spec hros x.advertise
    rw [← hunread] at hcons
    obtain ⟨hmore, hbyte⟩ := remaining_read hcons
    simp only [thinros, thinrosSocketReadByte, if_pos hmore]
    exact hbyte

/-- The three polling sources hand out every byte of every chunk their transports have ready
when they poll, once and in order, and they poll whenever nothing is unread. -/
theorem pollingSources_deliver_inOrder :
    certikosUart.DeliversInOrder CertikosUartSocket.unread Chunk.ready certikosUartSocket ∧
      partee.DeliversInOrder ParteeSocket.unread Chunk.ready parteeSocket ∧
      thinros.DeliversInOrder ThinrosSocket.unread ThinrosSocket.ready thinrosSocket := by
  refine ⟨?_, ?_, ?_⟩
  · apply certikosUart_lawful.deliversInOrder
    · exact fun _ => rfl
    · rfl
  · exact partee_lawful.deliversInOrder trivial rfl
  · apply thinros_lawful.deliversInOrder
    · exact fun _ => ⟨rfl, rfl⟩
    · rfl

theorem length_two_le (capacity : Nat) : 2 ≤ capacity + 2 := Nat.le_add_left 2 capacity

/-- A message of two bytes. -/
def twoByteMessage : {message : MavlinkMsg // message.len ≤ mavlinkMaxPacketLen} :=
  ⟨⟨2, fun j => if j = 0 then 7 else 8⟩, length_two_le 278⟩

/-- A message comes before the node could be advertised, two of two bytes come after, and
nothing is ready for the last call. -/
def thinrosPolls : List (PollingCall ThinrosInput) :=
  [.hasMore ⟨none, some twoByteMessage⟩, .hasMore ⟨some 1, some twoByteMessage⟩,
    .readByte ⟨some 1, none⟩, .hasMore ⟨some 1, some twoByteMessage⟩, .readByte ⟨some 1, none⟩,
    .hasMore ⟨some 1, some twoByteMessage⟩, .readByte ⟨some 1, none⟩]

/-- The state after these calls. -/
def thinrosState : PollingState ThinrosSocket UInt8 :=
  (run thinros.step (PollingState.start thinrosSocket) thinrosPolls).getD (.start thinrosSocket)

/-- The first message is lost, the others are handed out; the next call keeps the byte that is
left. -/
theorem pollingSources_deliver_inOrder_thinros :
    thinrosState.returned = [7, 8, 7] ∧ thinrosState.polls = [[], [7, 8], [7, 8]] ∧
      thinrosState.source.unread = [8] ∧
      ∀ x, (thinros.hasMore thinrosState.source x).answer = true ∧
        (thinros.hasMore thinrosState.source x).source.unread = [8] := by
  obtain ⟨-, -, hthinros⟩ := pollingSources_deliver_inOrder
  have horder := hthinros thinrosPolls thinrosState rfl
  have hunread : thinrosState.source.unread = [8] := by decide
  refine ⟨by decide, by decide, hunread, ?_⟩
  intro x
  obtain ⟨hanswer, hkept⟩ := horder.keeps_unread (by simp [hunread]) x
  exact ⟨hanswer, hkept.trans hunread⟩

end SecureGateway
