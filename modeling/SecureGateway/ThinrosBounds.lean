import SecureGateway.PollingSources

/-!
# The bounds of the ThinROS source

The callback copies as many bytes as the message states into an array of
`MAVLINK_MAX_PACKET_LEN` bytes, and the reader's cursor then runs up to the length
copied. `thinros_socket_route_to` asserts the same bound before it publishes.

## Implementation notes

The indices a call uses are noted beside the state. Nothing is modelled of what an
index past the array does.
-/

namespace SecureGateway

open Library

/-- A call of the source with what the library has ready; a publisher states any length. -/
inductive ThinrosCall
  | hasMore (advertise : Option Nat) (message : Option MavlinkMsg)
  | readByte (advertise : Option Nat)

/-- The socket, the messages delivered to the callback, and the indices of `msg.data` used. -/
structure ThinrosTrace where
  socket : ThinrosSocket
  delivered : List MavlinkMsg
  touched : List Nat

/-- The message a call of `thinros_socket_has_more` makes the library deliver. -/
def thinrosHasMoreDelivers (ros : ThinrosSocket) (advertise : Option Nat)
    (message : Option MavlinkMsg) : Option MavlinkMsg :=
  let ros := thinrosReady ros advertise
  if 0 < ros.msg.len ∧ ros.currentRead < ros.msg.len then none else rosDelivered ros message

/-- The indices `memcpy(&ros->msg.data, msg->data, ros->msg.len)` uses. -/
def memcpyIndices (message : MavlinkMsg) : List Nat := List.range message.len

/-- The index `thinros_socket_read_byte` reads, if it reads. -/
def thinrosReadIndices (ros : ThinrosSocket) (advertise : Option Nat) : List Nat :=
  let ros := thinrosReady ros advertise
  if 0 < ros.msg.len ∧ ros.currentRead < ros.msg.len then [ros.currentRead] else []

def thinrosCall (t : ThinrosTrace) : ThinrosCall → ThinrosTrace
  | .hasMore advertise message =>
      let delivered := (thinrosHasMoreDelivers t.socket advertise message).toList
      { socket := (thinrosSocketHasMore t.socket advertise message).source
        delivered := t.delivered ++ delivered
        touched := t.touched ++ delivered.flatMap memcpyIndices }
  | .readByte advertise =>
      { socket := (thinrosSocketReadByte t.socket advertise).2
        delivered := t.delivered
        touched := t.touched ++ thinrosReadIndices t.socket advertise }

/-- The trace of the calls made since `hook_thinros`. -/
def thinrosCalls (calls : List ThinrosCall) : ThinrosTrace :=
  calls.foldl thinrosCall ⟨thinrosSocket, [], []⟩

/-- The stored length and every index used are within the array. -/
def ThinrosTrace.InBounds (t : ThinrosTrace) : Prop :=
  t.socket.msg.len ≤ mavlinkMaxPacketLen ∧ ∀ i ∈ t.touched, i < mavlinkMaxPacketLen

/-! ### What one call does -/

/-- The initialization leaves the stored length or clears it. -/
theorem thinrosReady_len (ros : ThinrosSocket) (advertise : Option Nat) :
    (thinrosReady ros advertise).msg.len = ros.msg.len ∨
      (thinrosReady ros advertise).msg.len = 0 := by
  unfold thinrosReady thinrosSocketInit
  cases ros.initialized with
  | true => exact Or.inl rfl
  | false =>
      cases advertise with
      | none => exact Or.inl rfl
      | some handler => exact Or.inr rfl

/-- The socket a call of `has_more` leaves is the one a delivery leaves, if one happens. -/
theorem thinrosHasMore_source (ros : ThinrosSocket) (advertise : Option Nat)
    (message : Option MavlinkMsg) :
    (thinrosSocketHasMore ros advertise message).source =
      match thinrosHasMoreDelivers ros advertise message with
      | none => thinrosReady ros advertise
      | some m => onThinrosMavlinkRecv (thinrosReady ros advertise) m := by
  simp only [thinrosSocketHasMore, thinrosHasMoreDelivers]
  by_cases hmore : 0 < (thinrosReady ros advertise).msg.len ∧
      (thinrosReady ros advertise).currentRead < (thinrosReady ros advertise).msg.len
  · rw [if_pos hmore, if_pos hmore]
  · rw [if_neg hmore, if_neg hmore]
    split <;> rfl

theorem thinrosReadByte_len (ros : ThinrosSocket) (advertise : Option Nat) :
    (thinrosSocketReadByte ros advertise).2.msg.len = (thinrosReady ros advertise).msg.len := by
  simp only [thinrosSocketReadByte]
  split <;> rfl

theorem mem_thinrosReadIndices {ros : ThinrosSocket} {advertise : Option Nat} {i : Nat}
    (h : i ∈ thinrosReadIndices ros advertise) : i < (thinrosReady ros advertise).msg.len := by
  simp only [thinrosReadIndices] at h
  split at h
  · rename_i hmore
    rw [List.mem_singleton.mp h]
    exact hmore.2
  · cases h

/-- A length stays within the bound through the initialization. -/
theorem thinrosReady_le {ros : ThinrosSocket} (advertise : Option Nat)
    (h : ros.msg.len ≤ mavlinkMaxPacketLen) :
    (thinrosReady ros advertise).msg.len ≤ mavlinkMaxPacketLen := by
  rcases thinrosReady_len ros advertise with hlen | hlen
  · rw [hlen]
    exact h
  · rw [hlen]
    exact Nat.zero_le _

/-- A call that delivers no message over the bound stays within the array. -/
theorem thinrosCall_inBounds {t : ThinrosTrace} (call : ThinrosCall) (h : t.InBounds)
    (hfits : ∀ m ∈ (thinrosCall t call).delivered, m.len ≤ mavlinkMaxPacketLen) :
    (thinrosCall t call).InBounds := by
  obtain ⟨hlen, htouched⟩ := h
  cases call with
  | hasMore advertise message =>
      have hready := thinrosReady_le advertise hlen
      have hnew (m : MavlinkMsg)
          (hm : m ∈ (thinrosHasMoreDelivers t.socket advertise message).toList) :
          m.len ≤ mavlinkMaxPacketLen := by
        apply hfits
        exact List.mem_append_right _ hm
      constructor
      · simp only [thinrosCall, thinrosHasMore_source]
        cases hdelivers : thinrosHasMoreDelivers t.socket advertise message with
        | none => exact hready
        | some m =>
            change m.len ≤ mavlinkMaxPacketLen
            apply hnew
            simp [hdelivers]
      · intro i hi
        rcases List.mem_append.mp hi with hold | hcopied
        · exact htouched i hold
        · obtain ⟨m, hm, him⟩ := List.mem_flatMap.mp hcopied
          exact Nat.lt_of_lt_of_le (List.mem_range.mp him) (hnew m hm)
  | readByte advertise =>
      have hready := thinrosReady_le advertise hlen
      constructor
      · simp only [thinrosCall, thinrosReadByte_len]
        exact hready
      · intro i hi
        rcases List.mem_append.mp hi with hold | hread
        · exact htouched i hold
        · exact Nat.lt_of_lt_of_le (mem_thinrosReadIndices hread) hready

/-! ### Whole runs -/

theorem thinrosCalls_append (calls : List ThinrosCall) (call : ThinrosCall) :
    thinrosCalls (calls ++ [call]) = thinrosCall (thinrosCalls calls) call := by
  simp [thinrosCalls, List.foldl_append]

/-- What was delivered stays delivered. -/
theorem thinrosCall_delivered (t : ThinrosTrace) (call : ThinrosCall) :
    t.delivered ⊆ (thinrosCall t call).delivered := by
  cases call with
  | hasMore advertise message => exact List.subset_append_left _ _
  | readByte advertise => exact List.Subset.refl _

/-- Every byte a delivered message states was copied. -/
theorem mem_touched_of_delivered (calls : List ThinrosCall) :
    ∀ m ∈ (thinrosCalls calls).delivered, ∀ i < m.len, i ∈ (thinrosCalls calls).touched := by
  induction calls using List.reverseRecOn with
  | nil =>
      intro m hm
      cases hm
  | append_singleton calls call ih =>
      rw [thinrosCalls_append]
      intro m hm i hi
      cases call with
      | hasMore advertise message =>
          apply List.mem_append.mpr
          rcases List.mem_append.mp hm with hold | hnew
          · exact Or.inl (ih m hold i hi)
          · exact Or.inr (List.mem_flatMap.mpr ⟨m, hnew, List.mem_range.mpr hi⟩)
      | readByte advertise => exact List.mem_append_left _ (ih m hm i hi)

/-- The source stays within its array exactly when no publisher has got a message over the
bound delivered. -/
theorem thinros_inBounds_iff (calls : List ThinrosCall) :
    (thinrosCalls calls).InBounds ↔
      ∀ m ∈ (thinrosCalls calls).delivered, m.len ≤ mavlinkMaxPacketLen := by
  constructor
  · rintro ⟨-, htouched⟩ m hm
    by_contra hover
    -- the byte after the last one that fits was copied too
    have hpast : mavlinkMaxPacketLen < m.len := Nat.lt_of_not_le hover
    exact Nat.lt_irrefl _ (htouched _ (mem_touched_of_delivered calls m hm _ hpast))
  · intro hfits
    induction calls using List.reverseRecOn with
    | nil => exact ⟨Nat.zero_le _, fun i hi => absurd hi List.not_mem_nil⟩
    | append_singleton calls call ih =>
        rw [thinrosCalls_append] at hfits ⊢
        apply thinrosCall_inBounds call _ hfits
        apply ih
        intro m hm
        exact hfits m (thinrosCall_delivered _ call hm)

/-- One message that states 281 bytes is enough. -/
theorem thinros_not_inBounds :
    ¬ ∀ calls, (thinrosCalls calls).InBounds := by
  intro hall
  have hlen := (hall [.hasMore (some 0) (some ⟨281, fun _ => 0⟩)]).1
  exact absurd hlen (by decide)

end SecureGateway
