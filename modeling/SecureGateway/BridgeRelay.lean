import SecureGateway.Bridge

/-!
# What the bridge relays

Every packet that is received from an adapter goes through the queue of its tunnel to the
one that sends it. The sockets of an adapter, in the order they were opened, carry one
stream in each direction.

## Implementation notes

The sender reads the descriptor of its sink once more for the call than for the test, so a
packet can go to a socket that took the place of the closed one. The last result assumes
that no call is made in that window.
-/

namespace SecureGateway

open Library

variable {B : Type}

def Bridge.received (s : Bridge B) (a : Side) : List (List B) :=
  (s.results a).flatMap RecvResult.packets

/-- Every packet received from an adapter was disposed of, is with the sender, waits in the
queue or is with the receiver, in this order. -/
def Bridge.Fifo (s : Bridge B) (a : Side) : Prop :=
  s.received a =
    (s.ledger a).map Handled.packet ++ (s.sender a).packets ++ s.queue a ++ (s.receiver a).packets

/-- What was received is what the sockets gave, and none of it is out of its place. -/
structure Bridge.Relays (s : Bridge B) : Prop where
  got : ∀ a, (s.sockets a).flatMap Socket.got = (s.received a).flatten
  fifo : ∀ a, s.Fifo a

theorem relays_start : (Bridge.start : Bridge B).Relays := ⟨fun _ => rfl, fun _ => rfl⟩

/-- What one lane of the bridge shows. -/
structure Bridge.SameLane (s t : Bridge B) (a : Side) : Prop where
  results : t.results a = s.results a
  ledger : t.ledger a = s.ledger a
  sender : t.sender a = s.sender a
  queue : t.queue a = s.queue a
  receiver : t.receiver a = s.receiver a

theorem Bridge.SameLane.received {s t : Bridge B} {a : Side} (h : s.SameLane t a) :
    t.received a = s.received a := by
  rw [Bridge.received, h.results, Bridge.received]

theorem Bridge.SameLane.fifo {s t : Bridge B} {a : Side} (h : s.SameLane t a) (hs : s.Fifo a) :
    t.Fifo a := by
  rw [Bridge.Fifo, h.received, h.ledger, h.sender, h.queue, h.receiver]
  exact hs

/-- A receiver touches its own lane, and of that neither the ledger nor the sender. -/
theorem ReceiverMove.lanes {s t : Bridge B} {a : Side} {answer : Answer B}
    (h : ReceiverMove s a answer t) :
    (∀ b, b ≠ a → s.SameLane t b) ∧ t.ledger = s.ledger ∧ t.sender = s.sender := by
  refine ⟨fun b hb => ?_, ?_, ?_⟩
  · cases h <;> constructor <;>
      simp [Bridge.goReceiver, Bridge.setFd, Bridge.note, Bridge.onSocket, Bridge.countIn,
        Function.update_of_ne hb]
  · cases h <;> rfl
  · cases h <;> rfl

/-- A sender touches its own lane, and of that neither the results nor the receiver. -/
theorem SenderMove.lanes {maxQueueSize : Side → Int} {s t : Bridge B} {a : Side}
    (h : SenderMove maxQueueSize s a t) :
    (∀ b, b ≠ a → s.SameLane t b) ∧ t.results = s.results ∧ t.receiver = s.receiver := by
  refine ⟨fun b hb => ?_, ?_, ?_⟩
  · cases h <;> constructor <;>
      simp [Bridge.goSender, Bridge.settle, Bridge.onSocket, Bridge.countIn,
        Function.update_of_ne hb]
  · cases h <;> rfl
  · cases h <;> rfl

theorem ReceiverMove.fifo {s t : Bridge B} {a : Side} {answer : Answer B}
    (h : ReceiverMove s a answer t) (hs : s.Fifo a) : t.Fifo a := by
  obtain ⟨-, hledger, hsender⟩ := h.lanes
  -- what is new with the receiver and what it puts into the queue
  have key (new queued : List (List B)) (hreceived : t.received a = s.received a ++ new)
      (hqueue : t.queue a = s.queue a ++ queued)
      (hpackets : (s.receiver a).packets ++ new = queued ++ (t.receiver a).packets) :
      t.Fifo a := by
    rw [Bridge.Fifo, hreceived, hledger, hsender, hqueue, show s.received a = _ from hs]
    simp only [List.append_assoc, hpackets]
  have stay (hresults : t.results = s.results) (hqueue : t.queue = s.queue)
      (hpackets : (s.receiver a).packets = (t.receiver a).packets) : t.Fifo a := by
    apply key [] []
    · rw [List.append_nil, Bridge.received, hresults, Bridge.received]
    · rw [List.append_nil, hqueue]
    · rw [List.append_nil, hpackets, List.nil_append]
  cases h with
  | testDown hat | testUp hat | noSocket hat | socket hat | connected hat | abandon hat
  | closeNone hat | close hat | forget hat | countPacket hat | countBytes hat =>
      refine stay rfl rfl ?_
      simp [Bridge.goReceiver, hat, ReceiverAt.packets, RecvResult.packets]
  | failed hat | ended hat =>
      refine key [] [] ?_ (List.append_nil _).symm ?_
      · simp [Bridge.received, Bridge.goReceiver, Bridge.note, RecvResult.packets]
      · simp [Bridge.goReceiver, hat, ReceiverAt.packets, RecvResult.packets]
  | @data packet place hat =>
      refine key [packet] [] ?_ (List.append_nil _).symm ?_
      · simp [Bridge.received, Bridge.goReceiver, Bridge.note, Bridge.onSocket, RecvResult.packets]
      · simp [Bridge.goReceiver, hat, ReceiverAt.packets, RecvResult.packets]
  | @push packet hat =>
      refine key [] [packet] (List.append_nil _).symm (Function.update_self ..) ?_
      simp [Bridge.goReceiver, hat, ReceiverAt.packets, RecvResult.packets]
  | drop hat hnone =>
      refine stay rfl rfl ?_
      simp [Bridge.goReceiver, hat, ReceiverAt.packets, hnone]

theorem SenderMove.fifo {maxQueueSize : Side → Int} {s t : Bridge B} {a : Side}
    (h : SenderMove maxQueueSize s a t) (hs : s.Fifo a) : t.Fifo a := by
  obtain ⟨-, hresults, hreceiver⟩ := h.lanes
  -- what is disposed of comes from the sender and then from the queue
  have key (disposed : List (List B))
      (hledger : (t.ledger a).map Handled.packet = (s.ledger a).map Handled.packet ++ disposed)
      (hpackets : (s.sender a).packets ++ s.queue a =
        disposed ++ (t.sender a).packets ++ t.queue a) : t.Fifo a := by
    have hreceived : t.received a = s.received a := by
      rw [Bridge.received, hresults, Bridge.received]
    rw [Bridge.Fifo, hreceived, hreceiver, hledger, show s.received a = _ from hs]
    simp only [List.append_assoc]
    rw [← List.append_assoc _ (s.queue a), hpackets]
    simp only [List.append_assoc]
  cases h with
  | take hat hqueue =>
      refine key [] (List.append_nil _).symm ?_
      simp [Bridge.goSender, hat, hqueue, SenderAt.packets]
  | @testDown packet hat | @refused packet hat | @send packet _ _ hat =>
      refine key [packet] ?_ ?_
      · simp [Bridge.goSender, Bridge.settle, Bridge.onSocket]
      · simp [Bridge.goSender, Bridge.settle, Bridge.onSocket, hat, SenderAt.packets]
  | testUp hat | countPacket hat | countBytes hat | keep hat =>
      refine key [] (List.append_nil _).symm ?_
      simp [Bridge.goSender, Bridge.countIn, hat, SenderAt.packets]
  | purge hat =>
      refine key (s.queue a) ?_ ?_
      · simp [Bridge.goSender, Bridge.settle, Function.comp_def]
      · simp [Bridge.goSender, hat, SenderAt.packets]

theorem flatMap_modify {α β : Type} {g : α → List β} {f : α → α} (h : ∀ x, g (f x) = g x)
    (xs : List α) (k : Nat) : (xs.modify k f).flatMap g = xs.flatMap g := by
  induction xs generalizing k with
  | nil => cases k <;> rfl
  | cons x xs ih =>
      cases k with
      | zero => simp [h]
      | succ k => simp [ih]

theorem flatMap_modify_last {α β : Type} {g : α → List β} {f : α → α} {extra : List β}
    (h : ∀ x, g (f x) = g x ++ extra) {xs : List α} {k : Nat} (hlast : k + 1 = xs.length) :
    (xs.modify k f).flatMap g = xs.flatMap g ++ extra := by
  induction xs generalizing k with
  | nil => cases hlast
  | cons x xs ih =>
      cases k with
      | zero =>
          have hnil : xs = [] := List.length_eq_zero_iff.mp (Nat.succ.inj hlast).symm
          simp [hnil, h]
      | succ k => simp [ih (Nat.succ.inj hlast)]

/-- A transfer on an own socket is on the newest one. -/
theorem Bridge.Files.behind {s : Bridge B} (hs : s.Files) {a : Side} {place : Side × Nat}
    (hstale : (s.receiver a).stale = false) (h : s.behind a = some place) :
    place.1 = a ∧ place.2 + 1 = (s.sockets a).length := by
  obtain ⟨d, hd, hplace⟩ := Option.bind_eq_some_iff.mp h
  obtain ⟨k, hk, hnewest⟩ := hs.own a d ((Bridge.current_of_fd hstale).trans hd)
  rw [hk, Option.some.injEq] at hplace
  subst hplace
  exact ⟨rfl, hnewest⟩

/-- What the sockets of an adapter carried together after a transfer on one of them. -/
theorem onSocket_flatMap {s : Bridge B} {place : Side × Nat} {f : Socket B → Socket B}
    {g : Socket B → List B} (h : ∀ x, g (f x) = g x) (b : Side) :
    ((s.onSocket place f).sockets b).flatMap g = (s.sockets b).flatMap g := by
  by_cases hb : b = place.1
  · subst hb
    simp [Bridge.onSocket, flatMap_modify h]
  · simp [Bridge.onSocket, Function.update_of_ne hb]

theorem onSocket_flatMap_newest {s : Bridge B} {a : Side} {place : Side × Nat}
    {f : Socket B → Socket B} {g : Socket B → List B} {extra : List B}
    (h : ∀ x, g (f x) = g x ++ extra)
    (hplace : place.1 = a ∧ place.2 + 1 = (s.sockets a).length) (b : Side) :
    ((s.onSocket place f).sockets b).flatMap g =
      (s.sockets b).flatMap g ++ if b = a then extra else [] := by
  obtain ⟨rfl, hnewest⟩ := hplace
  by_cases hb : b = place.1
  · subst hb
    simp [Bridge.onSocket, flatMap_modify_last h hnewest]
  · simp [Bridge.onSocket, hb]

/-- A receiver sends nothing. -/
theorem ReceiverMove.sockets_sent {s t : Bridge B} {a : Side} {answer : Answer B}
    (h : ReceiverMove s a answer t) (b : Side) :
    (t.sockets b).flatMap Socket.sent = (s.sockets b).flatMap Socket.sent := by
  cases h with
  | socket hat hfree =>
      by_cases hb : b = a
      · subst hb
        simp
      · simp [Function.update_of_ne hb]
  | @data packet place =>
      change ((s.onSocket place fun x => { x with got := x.got ++ packet }).sockets b).flatMap _ = _
      refine onSocket_flatMap ?_ b
      exact fun _ => rfl
  | testDown | testUp | noSocket | connected | abandon | failed | ended | closeNone | close
  | forget | countPacket | countBytes | push | drop => rfl

/-- A sender receives nothing. -/
theorem SenderMove.sockets_got {maxQueueSize : Side → Int} {s t : Bridge B} {a : Side}
    (h : SenderMove maxQueueSize s a t) (b : Side) :
    (t.sockets b).flatMap Socket.got = (s.sockets b).flatMap Socket.got := by
  cases h with
  | @send packet place len =>
      change ((s.onSocket place fun x =>
        { x with sent := x.sent ++ packet.take len }).sockets b).flatMap _ = _
      refine onSocket_flatMap ?_ b
      exact fun _ => rfl
  | take | testDown | testUp | refused | countPacket | countBytes | purge | keep => rfl

theorem ReceiverMove.sockets_got {s t : Bridge B} {a : Side} {answer : Answer B}
    (h : ReceiverMove s a answer t) (hfiles : s.Files) (b : Side) :
    ∃ new, (t.sockets b).flatMap Socket.got = (s.sockets b).flatMap Socket.got ++ new ∧
      (t.received b).flatten = (s.received b).flatten ++ new := by
  by_cases hba : b = a
  · subst hba
    cases h with
    | socket => exact ⟨[], by simp, by simp [Bridge.received, Bridge.goReceiver, Bridge.setFd]⟩
    | @data packet place hat hbehind =>
        have hplace := hfiles.behind (by rw [hat]; rfl) hbehind
        refine ⟨packet, ?_, ?_⟩
        · change ((s.onSocket place fun x =>
            { x with got := x.got ++ packet }).sockets b).flatMap _ = _
          rw [onSocket_flatMap_newest (fun _ => rfl) hplace b, if_pos rfl]
        · simp [Bridge.received, Bridge.note, Bridge.goReceiver, Bridge.onSocket,
            RecvResult.packets]
    | failed | ended =>
        exact ⟨[], by simp [Bridge.goReceiver, Bridge.note],
          by simp [Bridge.received, Bridge.note, Bridge.goReceiver, RecvResult.packets]⟩
    | testDown | testUp | noSocket | connected | abandon | closeNone | close | forget
    | countPacket | countBytes | push | drop =>
        exact ⟨[], (List.append_nil _).symm, (List.append_nil _).symm⟩
  · rw [(h.lanes.1 b hba).received]
    refine ⟨[], ?_, (List.append_nil _).symm⟩
    rw [List.append_nil]
    cases h with
    | socket => simp [Function.update_of_ne hba]
    | @data packet place hat hbehind =>
        have hplace := hfiles.behind (by rw [hat]; rfl) hbehind
        change ((s.onSocket place fun x =>
          { x with got := x.got ++ packet }).sockets b).flatMap _ = _
        rw [onSocket_flatMap_newest (fun _ => rfl) hplace b, if_neg hba, List.append_nil]
    | testDown | testUp | noSocket | connected | abandon | failed | ended | closeNone | close
    | forget | countPacket | countBytes | push | drop => rfl

theorem bridgeStep_relays {maxQueueSize : Side → Int} {s t : Bridge B} {label : BridgeLabel B}
    (hfiles : s.Files) (hs : s.Relays) (hstep : bridgeStep maxQueueSize s label = some t) :
    t.Relays := by
  cases label with
  | receiver a answer =>
      have hmove := receiverStep_moves hstep
      constructor
      · intro b
        obtain ⟨new, hsockets, hreceived⟩ := hmove.sockets_got hfiles b
        rw [hsockets, hreceived, hs.got b]
      · intro b
        by_cases hba : b = a
        · subst hba
          exact hmove.fifo (hs.fifo b)
        · exact (hmove.lanes.1 b hba).fifo (hs.fifo b)
  | sender a answer =>
      have hmove := senderStep_moves hstep
      constructor
      · intro b
        rw [hmove.sockets_got b, hs.got b, Bridge.received, Bridge.received, hmove.lanes.2.1]
      · intro b
        by_cases hba : b = a
        · subst hba
          exact hmove.fifo (hs.fifo b)
        · exact (hmove.lanes.1 b hba).fifo (hs.fifo b)
  | monitor =>
      cases hstep
      unfold monitorStep
      split <;> exact ⟨hs.got, hs.fifo⟩

/-- The sender of a tunnel does not call `send` while the receiver of its sink has closed the
descriptor and not yet stored -1. -/
def SendsOutsideWindow (s : Bridge B) : BridgeLabel B → Prop
  | .sender a _ => ∀ packet, s.sender a = .sending packet → (s.receiver a.other).stale = false
  | _ => True

/-- The sockets of every adapter took what its tunnel handed them. -/
def Bridge.Sent (s : Bridge B) : Prop :=
  ∀ a, (s.sockets a.other).flatMap Socket.sent = (s.ledger a).flatMap Handled.accepted

theorem SenderMove.sent {maxQueueSize : Side → Int} {s t : Bridge B} {a : Side}
    (h : SenderMove maxQueueSize s a t) (hfiles : s.Files)
    (hwindow : ∀ packet, s.sender a = .sending packet → (s.receiver a.other).stale = false)
    (hs : s.Sent) : t.Sent := by
  intro b
  by_cases hba : b = a
  · subst hba
    have hsb := hs b
    cases h with
    | @send packet place len hat hbehind hlen =>
        have hplace := hfiles.behind (hwindow packet hat) hbehind
        change ((s.onSocket place fun x =>
          { x with sent := x.sent ++ packet.take len }).sockets b.other).flatMap _ = _
        rw [onSocket_flatMap_newest (fun _ => rfl) hplace, if_pos rfl, hsb]
        simp [Bridge.goSender, Bridge.settle, Bridge.onSocket, Handled.accepted]
    | testDown | refused =>
        simpa [Bridge.goSender, Bridge.settle, Handled.accepted] using hsb
    | purge =>
        have hnone : ((s.queue b).map fun packet => (⟨packet, .purged⟩ : Handled B)).flatMap
            Handled.accepted = [] := by
          rw [List.flatMap_map]
          exact List.flatMap_eq_nil_iff.mpr fun _ _ => rfl
        simpa [Bridge.goSender, Bridge.settle, hnone] using hsb
    | take | testUp | countPacket | countBytes | keep => exact hsb
  · rw [(h.lanes.1 b hba).ledger, ← hs b]
    cases h with
    | @send packet place len hat hbehind hlen =>
        have hplace := hfiles.behind (hwindow packet hat) hbehind
        have hother : b.other ≠ a.other := by
          intro heq
          exact hba (by rw [← b.other_other, heq, a.other_other])
        change ((s.onSocket place fun x =>
          { x with sent := x.sent ++ packet.take len }).sockets b.other).flatMap _ = _
        rw [onSocket_flatMap_newest (fun _ => rfl) hplace, if_neg hother, List.append_nil]
    | take | testDown | testUp | refused | countPacket | countBytes | purge | keep => rfl

theorem bridgeStep_sent {maxQueueSize : Side → Int} {s t : Bridge B} {label : BridgeLabel B}
    (hfiles : s.Files) (hs : s.Sent) (hwindow : SendsOutsideWindow s label)
    (hstep : bridgeStep maxQueueSize s label = some t) : t.Sent := by
  cases label with
  | receiver a answer =>
      have hmove := receiverStep_moves hstep
      intro b
      rw [hmove.sockets_sent, hmove.lanes.2.1, hs b]
  | sender a answer => exact (senderStep_moves hstep).sent hfiles hwindow hs
  | monitor =>
      cases hstep
      unfold monitorStep
      split <;> exact hs

/-- A tunnel without a limit purges nothing. -/
theorem bridgeStep_unpurged {maxQueueSize : Side → Int} {s t : Bridge B}
    {label : BridgeLabel B} {a : Side} (hmax : maxQueueSize a ≤ 0)
    (hs : ∀ x ∈ s.ledger a, x.fate ≠ .purged)
    (hstep : bridgeStep maxQueueSize s label = some t) : ∀ x ∈ t.ledger a, x.fate ≠ .purged := by
  cases label with
  | receiver b answer =>
      rw [(receiverStep_moves hstep).lanes.2.1]
      exact hs
  | monitor =>
      cases hstep
      unfold monitorStep
      split <;> exact hs
  | sender b answer =>
      have hmove := senderStep_moves hstep
      by_cases hab : a = b
      · subst hab
        have hnext {h : Handled B} (hfate : h.fate ≠ .purged) :
            ∀ x ∈ s.ledger a ++ [h], x.fate ≠ .purged := by
          rw [List.forall_mem_append, List.forall_mem_singleton]
          exact ⟨hs, hfate⟩
        cases hmove with
        | testDown | refused | send =>
            simp only [Bridge.goSender, Bridge.settle, Bridge.onSocket, Function.update_self]
            exact hnext (by simp)
        | purge hat hover =>
            rw [Bridge.overflows, Bool.and_eq_true, decide_eq_true_iff] at hover
            exact absurd hover.1 (Int.not_lt.mpr hmax)
        | take | testUp | countPacket | countBytes | keep => exact hs
      · rw [(hmove.lanes.1 a hab).ledger]
        exact hs

/-- However the threads interleave, however often the adapters connect again and whatever the
kernel answers: the packets received from an adapter are those its sockets gave, and each of
them, in this order, was disposed of once, is with the sender, in the queue or with the
receiver. Unless a packet was sent while the receiver of its sink was between `close` and the
store of -1, the sockets of the sink, in the order they were opened, took what the tunnel
handed to them and nothing else. -/
theorem bridge_relays (maxQueueSize : Side → Int) {labels : List (BridgeLabel B)}
    {s : Bridge B} (h : run (bridgeStep maxQueueSize) .start labels = some s) (a : Side) :
    (s.sockets a).flatMap Socket.got = (s.received a).flatten ∧
    s.received a = (s.ledger a).map Handled.packet ++ (s.sender a).packets ++ s.queue a ++
      (s.receiver a).packets ∧
    (maxQueueSize a ≤ 0 → ∀ x ∈ s.ledger a, x.fate ≠ .purged) ∧
    (Along (bridgeStep maxQueueSize) SendsOutsideWindow .start labels →
      (s.sockets a.other).flatMap Socket.sent = (s.ledger a).flatMap Handled.accepted) := by
  obtain ⟨hfiles, hrelays⟩ : s.Files ∧ s.Relays :=
    run_invariant_of_mem _ (fun u : Bridge B => u.Files ∧ u.Relays)
      (fun _ _ _ _ hu hstep => ⟨bridgeStep_files hu.1 hstep, bridgeStep_relays hu.1 hu.2 hstep⟩)
      ⟨files_start, relays_start⟩ h
  refine ⟨hrelays.got a, hrelays.fifo a, ?_, ?_⟩
  · intro hmax
    exact run_invariant_of_mem _ (fun u : Bridge B => ∀ x ∈ u.ledger a, x.fate ≠ .purged)
      (fun _ _ _ _ hu hstep => bridgeStep_unpurged hmax hu hstep)
      (fun _ hx => absurd hx List.not_mem_nil) h
  · intro hwindow
    have hboth : s.Files ∧ s.Sent :=
      run_invariant_along _ (fun u : Bridge B => u.Files ∧ u.Sent)
        (fun _ _ _ _ hu hlabel hstep =>
          ⟨bridgeStep_files hu.1 hstep, bridgeStep_sent hu.1 hu.2 hlabel hstep⟩)
        ⟨files_start, fun _ => rfl⟩ hwindow h
    exact hboth.2 a

/-- Both adapters connect, and the uplink receives a byte. -/
def uplinkReceives : List (BridgeLabel UInt8) :=
  [.receiver .up .silent, .receiver .up (.socket (some 3)), .receiver .up (.connect true),
    .receiver .down .silent, .receiver .down (.socket (some 4)), .receiver .down (.connect true),
    .receiver .up .silent, .receiver .up (.recv (.data [65])), .receiver .up .silent,
    .receiver .up .silent, .receiver .up .silent]

/-- The uplink takes the byte from its queue, too. -/
def uplinkLabels : List (BridgeLabel UInt8) :=
  uplinkReceives ++ [.sender .up .silent, .sender .up .silent]

def uplinkBridge : Bridge UInt8 :=
  (run (bridgeStep fun _ => 0) .start (uplinkLabels ++ [.sender .up (.send (some 1))])).getD .start

theorem uplinkLabels_run :
    run (bridgeStep fun _ => 0) .start (uplinkLabels ++ [.sender .up (.send (some 1))]) =
      some uplinkBridge := rfl

theorem uplinkLabels_outsideWindow :
    Along (bridgeStep fun _ => 0) SendsOutsideWindow .start
      (uplinkLabels ++ [.sender .up (.send (some 1))]) := by
  rw [uplinkLabels, List.append_assoc, along_append_iff]
  refine ⟨?_, ?_⟩
  · have hreceivers : ∀ l ∈ uplinkReceives, ∃ a answer, l = .receiver a answer := by
      simp [uplinkReceives]
    apply along_of_forall
    intro l hl s
    obtain ⟨a, answer, rfl⟩ := hreceivers l hl
    trivial
  · -- the descriptor of the sink is open at each of the three steps
    intro s hs
    cases hs
    refine ⟨fun _ _ => rfl, ?_⟩
    intro s hs
    cases hs
    refine ⟨fun _ _ => rfl, ?_⟩
    intro s hs
    cases hs
    exact ⟨fun _ _ => rfl, fun _ _ => trivial⟩

/-- The byte is received, taken from the queue, not purged and sent on. -/
theorem bridge_relays_uplink :
    (uplinkBridge.sockets .up).flatMap Socket.got = (uplinkBridge.received .up).flatten ∧
      uplinkBridge.received .up = (uplinkBridge.ledger .up).map Handled.packet ∧
      (∀ x ∈ uplinkBridge.ledger .up, x.fate ≠ .purged) ∧
      (uplinkBridge.sockets .down).flatMap Socket.sent =
        (uplinkBridge.ledger .up).flatMap Handled.accepted ∧
      (uplinkBridge.ledger .up).flatMap Handled.accepted = [65] := by
  obtain ⟨hgot, hfifo, hunpurged, hsent⟩ := bridge_relays (fun _ => 0) uplinkLabels_run .up
  refine ⟨hgot, hfifo, hunpurged (Int.le_refl 0), hsent uplinkLabels_outsideWindow, rfl⟩

/-- Both connections end, the descriptor of the sink becomes that of the source, and the byte
goes back to where it came from. -/
example :
    (run (bridgeStep fun _ => 0) .start (uplinkLabels ++
      [.receiver .down .silent, .receiver .down (.recv .ended), .receiver .down .silent,
        .receiver .up .silent, .receiver .up (.recv .ended), .receiver .up .silent,
        .receiver .up .silent, .receiver .up .silent, .receiver .up .silent, .receiver .up .silent,
        .receiver .up .silent, .receiver .up (.socket (some 4)), .receiver .up (.connect true),
        .sender .up (.send (some 1))])).map
      (fun s => ((s.sockets .up).map Socket.sent, (s.sockets .down).map Socket.sent)) =
        some ([[], [65]], [[]]) := rfl

end SecureGateway
