import SecureGateway.Library.Framing
import SecureGateway.Library.Run

/-!
# The tunnel of the bridge

`receiver_thread` of `tcp_bridge.cc` queues what it receives, and `sender_thread` takes
one packet after the other and hands it to the sink once. What `send` returns is not
looked at, so the rest of a packet that was accepted in part is lost.

## Implementation notes

The threads never look at a byte: a stream of any type `B` gives the source's bytes by
position. The accesses to the queue under the lock are one step each, and the two ways the
overflow test ends are two labels. Both ends stay connected; the pauses of the sender are
left out. The ghost fields note the packets received and what the sink accepted of each.
-/

namespace SecureGateway

open Library

/-- `sizeof(packet_t::data)`. -/
def packetSize : Nat := 1024

/-- Where the sender stands: about to take a packet, about to hand it to the sink, or
about to test the length of the queue. -/
inductive TunnelSender (B : Type)
  | taking
  | sending (packet : List B)
  | testing

/-- The packet the sender has taken. -/
def TunnelSender.packets {B : Type} : TunnelSender B → List (List B)
  | sending packet => [packet]
  | _ => []

structure Tunnel (B : Type) where
  queue : List (List B)
  incoming : Option (List B)
  sender : TunnelSender B
  taken : Nat
  received : List (List B)
  accepted : List B
  writes : List (FrameWrite B)

def Tunnel.start {B : Type} : Tunnel B where
  queue := []
  incoming := none
  sender := .taking
  taken := 0
  received := []
  accepted := []
  writes := []

/-- The steps of the receiver, then those of the sender. -/
inductive TunnelLabel
  | recv (len : Nat)
  | recvNothing
  | push
  | pop
  | send (len : Nat)
  | keep
  | purge
deriving DecidableEq

variable {B : Type}

/-- `max_queue_size > 0 && queue.size() > max_queue_size`. -/
def Tunnel.overflows (maxQueueSize : Int) (s : Tunnel B) : Bool :=
  decide (0 < maxQueueSize) && decide (maxQueueSize < s.queue.length)

/-- The next `len` bytes of the source. -/
def nextBytes (stream : Nat → B) (taken len : Nat) : List B :=
  (List.range len).map fun k => stream (taken + k)

/-- One step of a thread. -/
def tunnelStep (maxQueueSize : Int) (stream : Nat → B) (s : Tunnel B) :
    TunnelLabel → Option (Tunnel B)
  | .recv len =>
      match s.incoming with
      | none =>
          if 0 < len ∧ len ≤ packetSize then
            some { s with
              incoming := some (nextBytes stream s.taken len)
              taken := s.taken + len
              received := s.received ++ [nextBytes stream s.taken len] }
          else none
      | some _ => none
  | .recvNothing =>
      match s.incoming with
      | none => some s
      | some _ => none
  | .push =>
      match s.incoming with
      | some packet => some { s with incoming := none, queue := s.queue ++ [packet] }
      | none => none
  | .pop =>
      match s.sender, s.queue with
      | .taking, packet :: rest => some { s with queue := rest, sender := .sending packet }
      | _, _ => none
  | .send len =>
      match s.sender with
      | .sending packet =>
          if len ≤ packet.length then
            some { s with
              sender := .testing
              accepted := s.accepted ++ packet.take len
              writes := s.writes ++ [⟨packet, packet.take len⟩] }
          else none
      | _ => none
  | .keep =>
      match s.sender with
      | .testing => if s.overflows maxQueueSize then none else some { s with sender := .taking }
      | _ => none
  | .purge =>
      match s.sender with
      | .testing =>
          if s.overflows maxQueueSize then some { s with sender := .taking, queue := [] }
          else none
      | _ => none

/-- What each step finds and what it leaves. -/
inductive TunnelMove (maxQueueSize : Int) (stream : Nat → B) (s : Tunnel B) :
    TunnelLabel → Tunnel B → Prop
  | recv {len : Nat} (hincoming : s.incoming = none) (hlen : 0 < len ∧ len ≤ packetSize) :
      TunnelMove maxQueueSize stream s (.recv len)
        { s with
          incoming := some (nextBytes stream s.taken len)
          taken := s.taken + len
          received := s.received ++ [nextBytes stream s.taken len] }
  | recvNothing (hincoming : s.incoming = none) :
      TunnelMove maxQueueSize stream s .recvNothing s
  | push {packet : List B} (hincoming : s.incoming = some packet) :
      TunnelMove maxQueueSize stream s .push
        { s with incoming := none, queue := s.queue ++ [packet] }
  | pop {packet : List B} {rest : List (List B)} (hsender : s.sender = .taking)
      (hqueue : s.queue = packet :: rest) :
      TunnelMove maxQueueSize stream s .pop { s with queue := rest, sender := .sending packet }
  | send {packet : List B} {len : Nat} (hsender : s.sender = .sending packet)
      (hlen : len ≤ packet.length) :
      TunnelMove maxQueueSize stream s (.send len)
        { s with
          sender := .testing
          accepted := s.accepted ++ packet.take len
          writes := s.writes ++ [⟨packet, packet.take len⟩] }
  | keep (hsender : s.sender = .testing) (hwithin : ¬ s.overflows maxQueueSize = true) :
      TunnelMove maxQueueSize stream s .keep { s with sender := .taking }
  | purge (hsender : s.sender = .testing) (hover : s.overflows maxQueueSize = true) :
      TunnelMove maxQueueSize stream s .purge { s with sender := .taking, queue := [] }

theorem tunnelStep_moves {maxQueueSize : Int} {stream : Nat → B} {s t : Tunnel B}
    {label : TunnelLabel} (hstep : tunnelStep maxQueueSize stream s label = some t) :
    TunnelMove maxQueueSize stream s label t := by
  cases label with
  | recv len =>
      simp only [tunnelStep] at hstep
      split at hstep
      · rename_i hincoming
        obtain ⟨hlen, hstep⟩ := Option.ite_none_right_eq_some.mp hstep
        cases hstep
        exact .recv hincoming hlen
      · cases hstep
  | recvNothing =>
      simp only [tunnelStep] at hstep
      split at hstep
      · rename_i hincoming
        cases hstep
        exact .recvNothing hincoming
      · cases hstep
  | push =>
      simp only [tunnelStep] at hstep
      split at hstep
      · rename_i packet hincoming
        cases hstep
        exact .push hincoming
      · cases hstep
  | pop =>
      simp only [tunnelStep] at hstep
      split at hstep
      · rename_i packet rest hsender hqueue
        cases hstep
        exact .pop hsender hqueue
      · cases hstep
  | send len =>
      simp only [tunnelStep] at hstep
      split at hstep
      · rename_i packet hsender
        obtain ⟨hlen, hstep⟩ := Option.ite_none_right_eq_some.mp hstep
        cases hstep
        exact .send hsender hlen
      · cases hstep
  | keep =>
      simp only [tunnelStep] at hstep
      split at hstep
      · rename_i hsender
        obtain ⟨hwithin, hstep⟩ := Option.ite_none_left_eq_some.mp hstep
        cases hstep
        exact .keep hsender hwithin
      · cases hstep
  | purge =>
      simp only [tunnelStep] at hstep
      split at hstep
      · rename_i hsender
        obtain ⟨hover, hstep⟩ := Option.ite_none_right_eq_some.mp hstep
        cases hstep
        exact .purge hsender hover
      · cases hstep

/-! ### Where the received packets are -/

/-- Every packet received was handed to the sink, is with the sender, waits in the queue or
is with the receiver, in this order. -/
structure TunnelInv (stream : Nat → B) (s : Tunnel B) : Prop where
  fifo : s.received =
    s.writes.map FrameWrite.frame ++ s.sender.packets ++ s.queue ++ s.incoming.toList
  accepted : s.accepted = Library.accepted s.writes
  begins : ∀ w ∈ s.writes, w.bytes <+: w.frame
  stream : s.received.flatten = (List.range s.taken).map stream

theorem tunnelInv_start (stream : Nat → B) : TunnelInv stream .start :=
  ⟨rfl, rfl, fun _ hw => absurd hw List.not_mem_nil, rfl⟩

theorem range_append_nextBytes (stream : Nat → B) (taken len : Nat) :
    (List.range taken).map stream ++ nextBytes stream taken len =
      (List.range (taken + len)).map stream := by
  rw [List.range_add, List.map_append, List.map_map]
  rfl

theorem tunnelStep_inv {maxQueueSize : Int} {stream : Nat → B} {s t : Tunnel B}
    {label : TunnelLabel} (hs : TunnelInv stream s) (hlabel : label ≠ .purge)
    (hstep : tunnelStep maxQueueSize stream s label = some t) : TunnelInv stream t := by
  obtain ⟨hfifo, haccepted, hbegins, hstream⟩ := hs
  cases tunnelStep_moves hstep with
  | @recv len hincoming hlen =>
      refine ⟨?_, haccepted, hbegins, ?_⟩
      · rw [hfifo, hincoming]
        simp
      · rw [List.flatten_append, hstream, ← range_append_nextBytes]
        simp
  | recvNothing => exact ⟨hfifo, haccepted, hbegins, hstream⟩
  | push hincoming =>
      refine ⟨?_, haccepted, hbegins, hstream⟩
      rw [hfifo, hincoming]
      simp
  | pop hsender hqueue =>
      refine ⟨?_, haccepted, hbegins, hstream⟩
      rw [hfifo, hsender, hqueue]
      simp [TunnelSender.packets]
  | @send packet len hsender hlen =>
      refine ⟨?_, ?_, ?_, hstream⟩
      · rw [hfifo, hsender]
        simp [TunnelSender.packets]
      · rw [haccepted]
        simp [Library.accepted]
      · intro w hw
        obtain hw | hw := List.mem_append.mp hw
        · exact hbegins w hw
        · rw [List.mem_singleton.mp hw]
          exact List.take_prefix len packet
  | keep hsender =>
      refine ⟨?_, haccepted, hbegins, hstream⟩
      rw [hfifo, hsender]
      rfl
  | purge => exact absurd rfl hlabel

theorem run_tunnelInv {maxQueueSize : Int} {stream : Nat → B} {t : Tunnel B}
    {labels : List TunnelLabel} (hpurge : .purge ∉ labels)
    (hrun : run (tunnelStep maxQueueSize stream) .start labels = some t) : TunnelInv stream t := by
  refine run_invariant_of_mem _ (TunnelInv stream) ?_ (tunnelInv_start stream) hrun
  intro s label hmem u hs hstep
  exact tunnelStep_inv hs (fun heq => hpurge (heq ▸ hmem)) hstep

/-- While the queue stays within its limit nothing is purged. -/
theorem purge_notMem_of_within {maxQueueSize : Int} {stream : Nat → B} {s t : Tunnel B}
    {labels : List TunnelLabel}
    (hwithin : Along (tunnelStep maxQueueSize stream)
      (fun s _ => s.overflows maxQueueSize = false) s labels)
    (hrun : run (tunnelStep maxQueueSize stream) s labels = some t) : .purge ∉ labels := by
  intro hmem
  obtain ⟨front, back, rfl⟩ := List.append_of_mem hmem
  obtain ⟨u, hfront, hback⟩ := (run_append_eq_some_iff _).mp hrun
  obtain ⟨v, hstep, -⟩ := (run_cons_eq_some_iff _).mp hback
  have hu := Along.at_step _ front .purge back hwithin hfront
  cases tunnelStep_moves hstep with
  | purge hsender hover => exact absurd (hu.symm.trans hover) (by decide)

/-! ### The packets and counts of a run -/

/-- The lengths of the packets received. -/
def chunkLengths (labels : List TunnelLabel) : List Nat :=
  labels.filterMap fun
    | .recv len => some len
    | _ => none

/-- How many bytes the sink accepted each time. -/
def sendCounts (labels : List TunnelLabel) : List Nat :=
  labels.filterMap fun
    | .send len => some len
    | _ => none

theorem nextBytes_length (stream : Nat → B) (taken len : Nat) :
    (nextBytes stream taken len).length = len := by
  simp [nextBytes]

/-- The ghost fields note what the label says. -/
theorem tunnelStep_notes {maxQueueSize : Int} {stream : Nat → B} {s t : Tunnel B}
    {label : TunnelLabel} (hstep : tunnelStep maxQueueSize stream s label = some t) :
    t.received.map List.length = s.received.map List.length ++ chunkLengths [label] ∧
      t.writes.map (fun w => w.bytes.length) =
        s.writes.map (fun w => w.bytes.length) ++ sendCounts [label] := by
  cases tunnelStep_moves hstep with
  | recv => simp [chunkLengths, sendCounts, nextBytes_length]
  | send hsender hlen => simp [chunkLengths, sendCounts, hlen]
  | recvNothing | push | pop | keep | purge => simp [chunkLengths, sendCounts]

theorem run_notes {maxQueueSize : Int} {stream : Nat → B} {s t : Tunnel B}
    {labels : List TunnelLabel} (hrun : run (tunnelStep maxQueueSize stream) s labels = some t) :
    t.received.map List.length = s.received.map List.length ++ chunkLengths labels ∧
      t.writes.map (fun w => w.bytes.length) =
        s.writes.map (fun w => w.bytes.length) ++ sendCounts labels := by
  induction labels generalizing s with
  | nil =>
      cases hrun
      simp [chunkLengths, sendCounts]
  | cons label labels ih =>
      obtain ⟨u, hstep, hrest⟩ := (run_cons_eq_some_iff _).mp hrun
      obtain ⟨hlengths, hcounts⟩ := tunnelStep_notes hstep
      obtain ⟨hlengths', hcounts'⟩ := ih hrest
      have hcons (f : TunnelLabel → Option Nat) :
          (label :: labels).filterMap f = [label].filterMap f ++ labels.filterMap f :=
        List.filterMap_append (l := [label])
      refine ⟨?_, ?_⟩
      · rw [hlengths', hlengths, List.append_assoc, chunkLengths, chunkLengths, chunkLengths, hcons]
      · rw [hcounts', hcounts, List.append_assoc, sendCounts, sendCounts, sendCounts, hcons]

/-- No send that accepts a byte comes after one that did not accept its whole packet. -/
def NoneAfterShort (labels : List TunnelLabel) : Prop :=
  ((chunkLengths labels).zip (sendCounts labels)).Pairwise fun w v => 0 < v.2 → w.2 = w.1

instance (labels : List TunnelLabel) : Decidable (NoneAfterShort labels) :=
  inferInstanceAs (Decidable (List.Pairwise _ _))

/-- Sends meet packets in the order they were received. -/
theorem TunnelInv.zip_eq {stream : Nat → B} {t : Tunnel B} (ht : TunnelInv stream t)
    {labels : List TunnelLabel} (hlengths : t.received.map List.length = chunkLengths labels)
    (hcounts : t.writes.map (fun w => w.bytes.length) = sendCounts labels) :
    (chunkLengths labels).zip (sendCounts labels) =
      t.writes.map fun w => (w.frame.length, w.bytes.length) := by
  have hfront : chunkLengths labels = t.writes.map (fun w => w.frame.length) ++
      (t.sender.packets ++ t.queue ++ t.incoming.toList).map List.length := by
    rw [← hlengths, ht.fifo]
    simp [Function.comp_def]
  have hsame : (t.writes.map fun w => w.frame.length).length =
      (t.writes.map fun w => w.bytes.length).length := by
    rw [List.length_map, List.length_map]
  rw [hfront, ← hcounts, ← List.append_nil (t.writes.map fun w => w.bytes.length),
    List.zip_append hsame, List.zip_nil_right, List.append_nil, List.zip_map']

theorem TunnelInv.noneAfterLoss_iff {stream : Nat → B} {t : Tunnel B} (ht : TunnelInv stream t)
    {labels : List TunnelLabel} (hlengths : t.received.map List.length = chunkLengths labels)
    (hcounts : t.writes.map (fun w => w.bytes.length) = sendCounts labels) :
    NoneAfterLoss t.writes ↔ NoneAfterShort labels := by
  rw [NoneAfterShort, ht.zip_eq hlengths hcounts, List.pairwise_map, NoneAfterLoss]
  apply List.Pairwise.iff_of_mem
  intro w v hw hv
  have hfull : w.bytes = w.frame ↔ w.bytes.length = w.frame.length :=
    ⟨congrArg List.length, (ht.begins w hw).eq_of_length⟩
  rw [List.length_pos_iff, hfull]

/-! ### The threads do not look at the bytes -/

def TunnelSender.mapBytes (f : Nat → B) : TunnelSender Nat → TunnelSender B
  | taking => .taking
  | sending packet => .sending (packet.map f)
  | testing => .testing

/-- The tunnel with every position replaced by the byte there. -/
def Tunnel.mapBytes (f : Nat → B) (s : Tunnel Nat) : Tunnel B where
  queue := s.queue.map (List.map f)
  incoming := s.incoming.map (List.map f)
  sender := s.sender.mapBytes f
  taken := s.taken
  received := s.received.map (List.map f)
  accepted := s.accepted.map f
  writes := s.writes.map fun w => ⟨w.frame.map f, w.bytes.map f⟩

theorem nextBytes_map (f : Nat → B) (taken len : Nat) :
    (nextBytes id taken len).map f = nextBytes f taken len := by
  rw [nextBytes, List.map_map]
  rfl

theorem overflows_mapBytes (maxQueueSize : Int) (f : Nat → B) (s : Tunnel Nat) :
    (s.mapBytes f).overflows maxQueueSize = s.overflows maxQueueSize := by
  simp [Tunnel.overflows, Tunnel.mapBytes]

/-- A step on the positions is a step on the bytes. -/
theorem tunnelStep_mapBytes (maxQueueSize : Int) (f : Nat → B) (s : Tunnel Nat)
    (label : TunnelLabel) :
    (tunnelStep maxQueueSize id s label).map (Tunnel.mapBytes f) =
      tunnelStep maxQueueSize f (s.mapBytes f) label := by
  have hoverflows := overflows_mapBytes maxQueueSize f s
  obtain ⟨queue, incoming, sender, taken, received, accepted, writes⟩ := s
  cases label with
  | recv len =>
      cases incoming with
      | some packet => rfl
      | none =>
          by_cases hlen : 0 < len ∧ len ≤ packetSize
          · simp [tunnelStep, Tunnel.mapBytes, hlen, nextBytes_map]
          · simp [tunnelStep, Tunnel.mapBytes, hlen]
  | recvNothing => cases incoming <;> rfl
  | push =>
      cases incoming with
      | none => rfl
      | some packet => simp [tunnelStep, Tunnel.mapBytes]
  | pop => cases sender <;> cases queue <;> rfl
  | send len =>
      cases sender with
      | taking => rfl
      | testing => rfl
      | sending packet =>
          by_cases hlen : len ≤ packet.length
          · simp [tunnelStep, Tunnel.mapBytes, TunnelSender.mapBytes, hlen]
          · simp [tunnelStep, Tunnel.mapBytes, TunnelSender.mapBytes, hlen]
  | keep =>
      cases sender with
      | taking => rfl
      | sending packet => rfl
      | testing =>
          change Option.map _ (if _ then none else some _) = if _ then none else some _
          rw [hoverflows]
          split <;> rfl
  | purge =>
      cases sender with
      | taking => rfl
      | sending packet => rfl
      | testing =>
          change Option.map _ (if _ then some _ else none) = if _ then some _ else none
          rw [hoverflows]
          split <;> rfl

/-- A run on bytes is the run on their positions. -/
theorem run_mapBytes (maxQueueSize : Int) (f : Nat → B) (labels : List TunnelLabel) :
    (run (tunnelStep maxQueueSize id) .start labels).map (Tunnel.mapBytes f) =
      run (tunnelStep maxQueueSize f) .start labels :=
  run_map _ (Tunnel.mapBytes f) (tunnelStep_mapBytes maxQueueSize f) .start labels

/-- Positions that read as a beginning of every stream are a beginning of the positions. -/
theorem isPrefix_of_forall_map {positions : List Nat} {n : Nat}
    (h : ∀ stream : Nat → UInt8, positions.map stream <+: (List.range n).map stream) :
    positions <+: List.range n := by
  rw [List.prefix_iff_getElem]
  have hle : positions.length ≤ (List.range n).length := by
    simpa using (h fun _ => 0).length_le
  refine ⟨hle, ?_⟩
  intro j hj
  rw [List.getElem_range]
  -- the stream that is set at `j` alone
  obtain ⟨_, hget⟩ := List.prefix_iff_getElem.mp (h fun i => if i = j then 1 else 0)
  have hbyte := hget j (by simpa using hj)
  simp only [List.getElem_map, List.getElem_range, if_true] at hbyte
  by_contra hne
  rw [if_neg hne] at hbyte
  exact absurd hbyte (by decide)

/-! ### When the tunnel relays the stream -/

/-- Whatever the source sends, the sink accepts a beginning of it. -/
def RelaysFaithfully (maxQueueSize : Int) (labels : List TunnelLabel) : Prop :=
  ∀ (stream : Nat → UInt8) t, run (tunnelStep maxQueueSize stream) .start labels = some t →
    t.accepted <+: t.received.flatten

/-- What was handed over is a beginning of what was received. -/
theorem TunnelInv.handed_isPrefix {stream : Nat → B} {t : Tunnel B} (ht : TunnelInv stream t) :
    handed t.writes <+: t.received.flatten := by
  rw [ht.fifo, List.append_assoc, List.append_assoc, List.flatten_append, handed,
    List.flatMap_def]
  exact List.prefix_append _ _

/-- On the positions, a beginning of the stream is accepted only without a loss. -/
theorem TunnelInv.noneAfterLoss {t : Tunnel Nat} (ht : TunnelInv id t)
    (h : t.accepted <+: t.received.flatten) : NoneAfterLoss t.writes := by
  have hhanded := ht.handed_isPrefix
  have hnodup : (handed t.writes).Nodup := by
    apply hhanded.sublist.nodup
    rw [ht.stream, List.map_id]
    exact List.nodup_range
  rw [ht.accepted] at h
  exact noneAfterLoss_of_isPrefix ht.begins hnodup
    (List.prefix_of_prefix_length_le h hhanded (accepted_length_le ht.begins))

/-- A run without overflow relays the stream exactly when no send that accepts a byte comes
after one that did not accept its whole packet. -/
theorem relaysFaithfully_iff {maxQueueSize : Int} {labels : List TunnelLabel}
    {stream : Nat → UInt8} {t : Tunnel UInt8}
    (hrun : run (tunnelStep maxQueueSize stream) .start labels = some t)
    (hpurge : .purge ∉ labels) :
    RelaysFaithfully maxQueueSize labels ↔ NoneAfterShort labels := by
  constructor
  · intro hrelays
    rw [← run_mapBytes, Option.map_eq_some_iff] at hrun
    obtain ⟨u, hpositions, -⟩ := hrun
    have hu := run_tunnelInv hpurge hpositions
    obtain ⟨hlengths, hcounts⟩ := run_notes hpositions
    apply (hu.noneAfterLoss_iff hlengths hcounts).mp
    apply hu.noneAfterLoss
    rw [hu.stream, List.map_id]
    apply isPrefix_of_forall_map
    intro bytes
    have hbytes : run (tunnelStep maxQueueSize bytes) .start labels = some (u.mapBytes bytes) := by
      rw [← run_mapBytes, hpositions]
      rfl
    have hprefix := hrelays bytes _ hbytes
    rw [(run_tunnelInv hpurge hbytes).stream] at hprefix
    exact hprefix
  · intro hshort bytes u hu
    have hinv := run_tunnelInv hpurge hu
    obtain ⟨hlengths, hcounts⟩ := run_notes hu
    have hloss := (hinv.noneAfterLoss_iff hlengths hcounts).mpr hshort
    rw [hinv.accepted]
    exact (hloss.accepted_isPrefix hinv.begins).trans hinv.handed_isPrefix

/-- One packet after the other, each accepted as a whole. -/
def fullSends : List TunnelLabel :=
  [.recv 2, .push, .pop, .recv 1, .push, .send 2, .keep, .pop, .send 1, .keep]

theorem relaysFaithfully_fullSends : RelaysFaithfully 8 fullSends := by
  have hrun : run (tunnelStep 8 UInt8.ofNat) .start fullSends = some _ := rfl
  exact (relaysFaithfully_iff hrun (by decide)).mpr (by decide)

/-- Of two packets the sink accepts one byte each: the first packet's second byte is lost. -/
def shortSend : List TunnelLabel :=
  [.recv 2, .push, .pop, .recv 1, .push, .send 1, .keep, .pop, .send 1, .keep]

theorem shortSend_loses_byte : ∃ t, run (tunnelStep 8 UInt8.ofNat) .start shortSend = some t ∧
    t.received = [[0, 1], [2]] ∧ t.accepted = [0, 2] ∧ .purge ∉ shortSend ∧
    ¬ RelaysFaithfully 8 shortSend := by
  refine ⟨_, rfl, rfl, rfl, by decide, ?_⟩
  intro hrelays
  exact absurd (hrelays UInt8.ofNat _ rfl) (by decide)

end SecureGateway
