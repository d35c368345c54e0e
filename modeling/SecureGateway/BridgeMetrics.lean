import Mathlib.Data.BitVec
import SecureGateway.BridgeRelay
import SecureGateway.Library.Lagging

/-!
# The counters of the bridge

`recv` and `send` of an adapter count after the call, in two steps, and the monitor prints
what the counters grew by since its last line.

## Implementation notes

All sums are modulo 2^64, as the counters are. `bytes_received` adds what `do_recv` returned,
-1 for an error, and `bytes_sent` adds the size that was asked for.
-/

namespace SecureGateway

open Library

variable {B : Type}

/-- The packets of a tunnel that were handed to the kernel. -/
def Bridge.attempts (s : Bridge B) (a : Side) : List (List B) :=
  ((s.ledger a).filter Handled.attempted).map Handled.packet

def onePacket {α : Type} (_ : α) : BitVec 64 := 1

def RecvResult.counted (result : RecvResult B) : BitVec 64 := BitVec.ofInt 64 result.rv

def packetBytes (packet : List B) : BitVec 64 := BitVec.ofNat 64 packet.length

/-- What an adapter counts for the calls of `recv`. -/
structure Bridge.CountsIn (s : Bridge B) (a : Side) : Prop where
  packets : Lags onePacket (s.results a) (s.receiver a).owesPacket (s.metrics a).packetsReceived
  bytes : Lags RecvResult.counted (s.results a) (s.receiver a).owesBytes
    (s.metrics a).bytesReceived

/-- What the sink of a tunnel counts for the calls of `send`. -/
structure Bridge.CountsOut (s : Bridge B) (a : Side) : Prop where
  packets : Lags onePacket (s.attempts a) (s.sender a).owesPacket
    (s.metrics a.other).packetsSent
  bytes : Lags packetBytes (s.attempts a) (s.sender a).owesBytes (s.metrics a.other).bytesSent

/-! ### One step -/

/-- A receiver counts for its own adapter, and not what is sent. -/
theorem ReceiverMove.metrics {s t : Bridge B} {a : Side} {answer : Answer B}
    (h : ReceiverMove s a answer t) :
    (∀ b, b ≠ a → t.metrics b = s.metrics b) ∧
      ∀ b, (t.metrics b).packetsSent = (s.metrics b).packetsSent ∧
        (t.metrics b).bytesSent = (s.metrics b).bytesSent := by
  refine ⟨fun b hb => ?_, fun b => ?_⟩
  · cases h <;> simp [Bridge.goReceiver, Bridge.setFd, Bridge.note, Bridge.onSocket,
      Bridge.countIn, Function.update_of_ne hb]
  · by_cases hb : b = a
    · subst hb
      cases h <;> simp [Bridge.goReceiver, Bridge.setFd, Bridge.note, Bridge.onSocket,
        Bridge.countIn]
    · cases h <;> simp [Bridge.goReceiver, Bridge.setFd, Bridge.note, Bridge.onSocket,
        Bridge.countIn, Function.update_of_ne hb]

/-- A sender counts for its sink, and not what is received. -/
theorem SenderMove.metrics {maxQueueSize : Side → Int} {s t : Bridge B} {a : Side}
    (h : SenderMove maxQueueSize s a t) :
    (∀ b, b ≠ a.other → t.metrics b = s.metrics b) ∧
      ∀ b, (t.metrics b).packetsReceived = (s.metrics b).packetsReceived ∧
        (t.metrics b).bytesReceived = (s.metrics b).bytesReceived := by
  refine ⟨fun b hb => ?_, fun b => ?_⟩
  · cases h <;> simp [Bridge.goSender, Bridge.settle, Bridge.onSocket, Bridge.countIn,
      Function.update_of_ne hb]
  · by_cases hb : b = a.other
    · subst hb
      cases h <;> simp [Bridge.goSender, Bridge.settle, Bridge.onSocket, Bridge.countIn]
    · cases h <;> simp [Bridge.goSender, Bridge.settle, Bridge.onSocket, Bridge.countIn,
        Function.update_of_ne hb]

theorem ReceiverMove.countsIn {s t : Bridge B} {a : Side} {answer : Answer B}
    (h : ReceiverMove s a answer t) (hs : s.CountsIn a) : t.CountsIn a := by
  obtain ⟨hpackets, hbytes⟩ := hs
  -- a call of `recv` is owed to both counters
  have call {result : RecvResult B} {x : ReceiverAt B} (hat : s.receiver a = .receiving)
      (hresults : t.results a = s.results a ++ [result]) (hreceiver : t.receiver a = x)
      (hmetrics : t.metrics a = s.metrics a)
      (howes : x.owesPacket = [result] ∧ x.owesBytes = [result]) : t.CountsIn a := by
    rw [hat] at hpackets hbytes
    constructor
    · rw [hresults, hreceiver, hmetrics, howes.1]
      exact hpackets.happen [result]
    · rw [hresults, hreceiver, hmetrics, howes.2]
      exact hbytes.happen [result]
  cases h with
  | testDown hat | testUp hat | noSocket hat | socket hat | connected hat | abandon hat
  | closeNone hat | close hat | forget hat | push hat | drop hat =>
      rw [hat] at hpackets hbytes
      constructor
      · simpa [Bridge.goReceiver, Bridge.setFd, ReceiverAt.owesPacket] using hpackets
      · simpa [Bridge.goReceiver, Bridge.setFd, ReceiverAt.owesBytes, ReceiverAt.owesPacket]
          using hbytes
  | failed hat =>
      exact call hat (Function.update_self ..) (Function.update_self ..) rfl ⟨rfl, rfl⟩
  | ended hat =>
      exact call hat (Function.update_self ..) (Function.update_self ..) rfl ⟨rfl, rfl⟩
  | data hat =>
      exact call hat (Function.update_self ..) (Function.update_self ..) rfl ⟨rfl, rfl⟩
  | countPacket hat =>
      rw [hat] at hpackets hbytes
      constructor
      · simpa [Bridge.goReceiver, Bridge.countIn, ReceiverAt.owesPacket, onePacket]
          using hpackets.count
      · simpa [Bridge.goReceiver, Bridge.countIn, ReceiverAt.owesBytes, ReceiverAt.owesPacket]
          using hbytes
  | countBytes hat =>
      rw [hat] at hpackets hbytes
      constructor
      · simpa [Bridge.goReceiver, Bridge.countIn, ReceiverAt.owesPacket] using hpackets
      · simpa [Bridge.goReceiver, Bridge.countIn, ReceiverAt.owesBytes, ReceiverAt.owesPacket,
          RecvResult.counted] using hbytes.count

theorem SenderMove.countsOut {maxQueueSize : Side → Int} {s t : Bridge B} {a : Side}
    (h : SenderMove maxQueueSize s a t) (hs : s.CountsOut a) : t.CountsOut a := by
  obtain ⟨hpackets, hbytes⟩ := hs
  -- a call of `send` is owed to both counters
  have call {packet : List B} {fate : Fate} (hat : s.sender a = .sending packet)
      (hfate : (⟨packet, fate⟩ : Handled B).attempted = true)
      (hledger : t.ledger a = s.ledger a ++ [⟨packet, fate⟩])
      (hsender : t.sender a = .countPacket packet) (hmetrics : t.metrics = s.metrics) :
      t.CountsOut a := by
    have hattempts : t.attempts a = s.attempts a ++ [packet] := by
      simp [Bridge.attempts, hledger, hfate]
    rw [hat] at hpackets hbytes
    constructor
    · rw [hattempts, hsender, hmetrics]
      exact hpackets.happen [packet]
    · rw [hattempts, hsender, hmetrics]
      exact hbytes.happen [packet]
  cases h with
  | take hat | testUp hat | keep hat =>
      rw [hat] at hpackets hbytes
      constructor
      · simpa [Bridge.attempts, Bridge.goSender, SenderAt.owesPacket] using hpackets
      · simpa [Bridge.attempts, Bridge.goSender, SenderAt.owesBytes] using hbytes
  | testDown hat | purge hat =>
      rw [hat] at hpackets hbytes
      constructor
      · simpa [Bridge.attempts, Bridge.goSender, Bridge.settle, SenderAt.owesPacket,
          Handled.attempted, List.filter_map, Function.comp_def] using hpackets
      · simpa [Bridge.attempts, Bridge.goSender, Bridge.settle, SenderAt.owesBytes,
          Handled.attempted, List.filter_map, Function.comp_def] using hbytes
  | refused hat => exact call hat rfl (Function.update_self ..) (Function.update_self ..) rfl
  | send hat => exact call hat rfl (Function.update_self ..) (Function.update_self ..) rfl
  | countPacket hat =>
      rw [hat] at hpackets hbytes
      constructor
      · simpa [Bridge.attempts, Bridge.goSender, Bridge.countIn, SenderAt.owesPacket, onePacket]
          using hpackets.count
      · simpa [Bridge.attempts, Bridge.goSender, Bridge.countIn, SenderAt.owesBytes] using hbytes
  | countBytes hat =>
      rw [hat] at hpackets hbytes
      constructor
      · simpa [Bridge.attempts, Bridge.goSender, Bridge.countIn, SenderAt.owesPacket]
          using hpackets
      · simpa [Bridge.attempts, Bridge.goSender, Bridge.countIn, SenderAt.owesBytes,
          packetBytes] using hbytes.count

/-- Every counter of the bridge lags behind what its thread has done. -/
structure Bridge.Counts (s : Bridge B) : Prop where
  received : ∀ a, s.CountsIn a
  sent : ∀ a, s.CountsOut a

theorem counts_start : (Bridge.start : Bridge B).Counts :=
  ⟨fun _ => ⟨lags_start, lags_start⟩, fun _ => ⟨lags_start, lags_start⟩⟩

theorem Bridge.CountsIn.congr {s t : Bridge B} {a : Side} (hs : s.CountsIn a)
    (hresults : t.results a = s.results a) (hreceiver : t.receiver a = s.receiver a)
    (hmetrics : (t.metrics a).packetsReceived = (s.metrics a).packetsReceived ∧
      (t.metrics a).bytesReceived = (s.metrics a).bytesReceived) : t.CountsIn a := by
  constructor
  · rw [hresults, hreceiver, hmetrics.1]
    exact hs.packets
  · rw [hresults, hreceiver, hmetrics.2]
    exact hs.bytes

theorem Bridge.CountsOut.congr {s t : Bridge B} {a : Side} (hs : s.CountsOut a)
    (hledger : t.ledger a = s.ledger a) (hsender : t.sender a = s.sender a)
    (hmetrics : (t.metrics a.other).packetsSent = (s.metrics a.other).packetsSent ∧
      (t.metrics a.other).bytesSent = (s.metrics a.other).bytesSent) : t.CountsOut a := by
  constructor
  · rw [Bridge.attempts, hledger, hsender, hmetrics.1]
    exact hs.packets
  · rw [Bridge.attempts, hledger, hsender, hmetrics.2]
    exact hs.bytes

theorem bridgeStep_counts {maxQueueSize : Side → Int} {s t : Bridge B} {label : BridgeLabel B}
    (hs : s.Counts) (hstep : bridgeStep maxQueueSize s label = some t) : t.Counts := by
  cases label with
  | receiver a answer =>
      have hmove := receiverStep_moves hstep
      obtain ⟨hlanes, hledger, hsender⟩ := hmove.lanes
      obtain ⟨hother, hsent⟩ := hmove.metrics
      constructor
      · intro b
        by_cases hba : b = a
        · subst hba
          exact hmove.countsIn (hs.received b)
        · have hlane := hlanes b hba
          refine (hs.received b).congr hlane.results hlane.receiver ?_
          rw [hother b hba]
          exact ⟨rfl, rfl⟩
      · intro b
        exact (hs.sent b).congr (congrFun hledger b) (congrFun hsender b) (hsent b.other)
  | sender a answer =>
      have hmove := senderStep_moves hstep
      obtain ⟨hlanes, hresults, hreceiver⟩ := hmove.lanes
      obtain ⟨hother, hreceived⟩ := hmove.metrics
      constructor
      · intro b
        exact (hs.received b).congr (congrFun hresults b) (congrFun hreceiver b) (hreceived b)
      · intro b
        by_cases hba : b = a
        · subst hba
          exact hmove.countsOut (hs.sent b)
        · have hlane := hlanes b hba
          have hne : b.other ≠ a.other := by
            intro heq
            exact hba (by rw [← b.other_other, heq, a.other_other])
          refine (hs.sent b).congr hlane.ledger hlane.sender ?_
          rw [hother _ hne]
          exact ⟨rfl, rfl⟩
  | monitor =>
      cases hstep
      unfold monitorStep
      split <;> exact ⟨fun a => ⟨(hs.received a).packets, (hs.received a).bytes⟩,
        fun a => ⟨(hs.sent a).packets, (hs.sent a).bytes⟩⟩

/-! ### The monitor -/

/-- A reading of the counters of an adapter, in this state or an earlier one. -/
structure Bridge.Shows (s : Bridge B) (a : Side) (m : AdapterMetrics) : Prop where
  packetsReceived : ∃ l, l <+: s.results a ∧ m.packetsReceived = total onePacket l
  bytesReceived : ∃ l, l <+: s.results a ∧ m.bytesReceived = total RecvResult.counted l
  packetsSent : ∃ l, l <+: s.attempts a.other ∧ m.packetsSent = total onePacket l
  bytesSent : ∃ l, l <+: s.attempts a.other ∧ m.bytesSent = total packetBytes l

theorem Bridge.Counts.shows {s : Bridge B} (hs : s.Counts) (a : Side) :
    s.Shows a (s.metrics a) := by
  have hpackets := (hs.sent a.other).packets.exists_prefix
  have hbytes := (hs.sent a.other).bytes.exists_prefix
  rw [Side.other_other] at hpackets hbytes
  exact ⟨(hs.received a).packets.exists_prefix, (hs.received a).bytes.exists_prefix,
    hpackets, hbytes⟩

/-- A reading stays one. -/
theorem Bridge.Shows.mono {s t : Bridge B} {a : Side} {m : AdapterMetrics} (h : s.Shows a m)
    (hresults : s.results a <+: t.results a)
    (hattempts : s.attempts a.other <+: t.attempts a.other) : t.Shows a m := by
  obtain ⟨⟨l₁, h₁, e₁⟩, ⟨l₂, h₂, e₂⟩, ⟨l₃, h₃, e₃⟩, ⟨l₄, h₄, e₄⟩⟩ := h
  exact ⟨⟨l₁, h₁.trans hresults, e₁⟩, ⟨l₂, h₂.trans hresults, e₂⟩,
    ⟨l₃, h₃.trans hattempts, e₃⟩, ⟨l₄, h₄.trans hattempts, e₄⟩⟩

theorem bridgeStep_grows {maxQueueSize : Side → Int} {s t : Bridge B} {label : BridgeLabel B}
    (hstep : bridgeStep maxQueueSize s label = some t) (a : Side) :
    s.results a <+: t.results a ∧ s.ledger a <+: t.ledger a := by
  cases label with
  | receiver b answer =>
      have hmove := receiverStep_moves hstep
      rw [hmove.lanes.2.1]
      refine ⟨?_, List.prefix_refl _⟩
      by_cases hab : a = b
      · subst hab
        cases hmove <;> simp [Bridge.goReceiver, Bridge.setFd, Bridge.note, Bridge.onSocket,
          Bridge.countIn]
      · rw [(hmove.lanes.1 a hab).results]
  | sender b answer =>
      have hmove := senderStep_moves hstep
      rw [hmove.lanes.2.1]
      refine ⟨List.prefix_refl _, ?_⟩
      by_cases hab : a = b
      · subst hab
        cases hmove <;> simp [Bridge.goSender, Bridge.settle, Bridge.onSocket, Bridge.countIn]
      · rw [(hmove.lanes.1 a hab).ledger]
  | monitor =>
      cases hstep
      unfold monitorStep
      split <;> exact ⟨List.prefix_refl _, List.prefix_refl _⟩

/-- What the monitor has printed for an adapter, added up. -/
def AdapterMetrics.printed (deltas : List AdapterMetrics) : AdapterMetrics :=
  deltas.foldl AdapterMetrics.add .zero

theorem AdapterMetrics.add_since (m n : AdapterMetrics) : m.add (n.since m) = n := by
  simp [AdapterMetrics.add, AdapterMetrics.since]

theorem AdapterMetrics.printed_append (deltas : List AdapterMetrics) (now : AdapterMetrics) :
    printed (deltas ++ [now.since (printed deltas)]) = now := by
  rw [printed, List.foldl_append]
  exact AdapterMetrics.add_since _ now

/-- What the monitor has in hand are readings, and its lines add up to the last ones. -/
structure Bridge.Monitored (s : Bridge B) : Prop where
  printedUp : AdapterMetrics.printed (s.lines.map MonitorLine.up) = s.previousUp
  printedDown : AdapterMetrics.printed (s.lines.map MonitorLine.down) = s.previousDown
  previousUp : s.Shows .up s.previousUp
  previousDown : s.Shows .down s.previousDown
  readDown : ∀ up, s.monitor = .readDown up → s.Shows .up up
  printing : ∀ up down, s.monitor = .printing up down → s.Shows .up up ∧ s.Shows .down down

theorem shows_zero (s : Bridge B) (a : Side) : s.Shows a .zero :=
  ⟨⟨[], List.nil_prefix, rfl⟩, ⟨[], List.nil_prefix, rfl⟩, ⟨[], List.nil_prefix, rfl⟩,
    ⟨[], List.nil_prefix, rfl⟩⟩

theorem monitored_start : (Bridge.start : Bridge B).Monitored :=
  ⟨rfl, rfl, shows_zero _ _, shows_zero _ _, nofun, nofun⟩

/-- The threads leave the monitor what it has. -/
theorem Bridge.Monitored.mono {s t : Bridge B} (hs : s.Monitored)
    (hshows : ∀ a m, s.Shows a m → t.Shows a m) (hmonitor : t.monitor = s.monitor)
    (hlines : t.lines = s.lines) (hup : t.previousUp = s.previousUp)
    (hdown : t.previousDown = s.previousDown) : t.Monitored where
  printedUp := by rw [hlines, hup, hs.printedUp]
  printedDown := by rw [hlines, hdown, hs.printedDown]
  previousUp := by
    rw [hup]
    exact hshows _ _ hs.previousUp
  previousDown := by
    rw [hdown]
    exact hshows _ _ hs.previousDown
  readDown up h := hshows _ _ (hs.readDown up (hmonitor ▸ h))
  printing up down h := (hs.printing up down (hmonitor ▸ h)).imp (hshows _ _) (hshows _ _)

theorem monitorStep_monitored {s : Bridge B} (hcounts : s.Counts) (hs : s.Monitored) :
    (monitorStep s).Monitored := by
  have hshows (a : Side) (m : AdapterMetrics) (h : s.Shows a m) : (monitorStep s).Shows a m := by
    obtain ⟨h₁, h₂, h₃, h₄⟩ := h
    unfold monitorStep
    split <;> exact ⟨h₁, h₂, h₃, h₄⟩
  have hup := hshows .up _ hs.previousUp
  have hdown := hshows .down _ hs.previousDown
  cases hmonitor : s.monitor with
  | readUp =>
      have hread := hshows .up _ (hcounts.shows .up)
      simp only [monitorStep, hmonitor] at hread hup hdown ⊢
      refine ⟨hs.printedUp, hs.printedDown, hup, hdown, ?_, nofun⟩
      rintro up ⟨⟩
      exact hread
  | readDown up =>
      have hfirst := hshows .up _ (hs.readDown up hmonitor)
      have hread := hshows .down _ (hcounts.shows .down)
      simp only [monitorStep, hmonitor] at hfirst hread hup hdown ⊢
      refine ⟨hs.printedUp, hs.printedDown, hup, hdown, nofun, ?_⟩
      rintro up' down ⟨⟩
      exact ⟨hfirst, hread⟩
  | printing up down =>
      have hfirst := hshows .up _ (hs.printing up down hmonitor).1
      have hread := hshows .down _ (hs.printing up down hmonitor).2
      simp only [monitorStep, hmonitor] at hfirst hread ⊢
      refine ⟨?_, ?_, hfirst, hread, nofun, nofun⟩
      · simp only [List.map_append, List.map_singleton, ← hs.printedUp]
        exact AdapterMetrics.printed_append _ up
      · simp only [List.map_append, List.map_singleton, ← hs.printedDown]
        exact AdapterMetrics.printed_append _ down

theorem bridgeStep_monitored {maxQueueSize : Side → Int} {s t : Bridge B}
    {label : BridgeLabel B} (hcounts : s.Counts) (hs : s.Monitored)
    (hstep : bridgeStep maxQueueSize s label = some t) : t.Monitored := by
  have hshows (a : Side) (m : AdapterMetrics) (h : s.Shows a m) : t.Shows a m := by
    refine h.mono (bridgeStep_grows hstep a).1 ?_
    exact ((bridgeStep_grows hstep a.other).2.filter _).map _
  cases label with
  | receiver a answer =>
      cases receiverStep_moves hstep <;> exact hs.mono hshows rfl rfl rfl rfl
  | sender a answer =>
      cases senderStep_moves hstep <;> exact hs.mono hshows rfl rfl rfl rfl
  | monitor =>
      cases hstep
      exact monitorStep_monitored hcounts hs

/-! ### Counts of a run -/

theorem total_onePacket {α : Type} (l : List α) :
    total onePacket l = BitVec.ofNat 64 l.length := by
  induction l with
  | nil => rfl
  | cons x l ih =>
      rw [← List.singleton_append, total_append, total_singleton, ih, List.length_append,
        List.length_singleton, BitVec.ofNat_add]
      rfl

theorem total_packetBytes (l : List (List B)) :
    total packetBytes l = BitVec.ofNat 64 l.flatten.length := by
  induction l with
  | nil => rfl
  | cons packet l ih =>
      rw [← List.singleton_append, total_append, total_singleton, ih, List.flatten_append,
        List.length_append, BitVec.ofNat_add, packetBytes]
      simp

def RecvResult.isFailed : RecvResult B → Bool
  | failed => true
  | _ => false

/-- What `do_recv` returned, added up: the bytes, less one for each error. -/
theorem total_counted (l : List (RecvResult B)) :
    total RecvResult.counted l =
      BitVec.ofInt 64 ((l.flatMap RecvResult.packets).flatten.length -
        l.countP RecvResult.isFailed) := by
  induction l with
  | nil => rfl
  | cons result l ih =>
      have hcons : total RecvResult.counted (result :: l) =
          BitVec.ofInt 64 result.rv + total RecvResult.counted l := by
        rw [← List.singleton_append, total_append, total_singleton, RecvResult.counted]
      rw [hcons, ih, ← BitVec.ofInt_add]
      congr 1
      cases result with
      | data packet =>
          simp [RecvResult.rv, RecvResult.packets, RecvResult.isFailed]
          omega
      | ended => simp [RecvResult.rv, RecvResult.packets, RecvResult.isFailed]
      | failed =>
          have hcount : (RecvResult.failed :: l).countP RecvResult.isFailed =
              l.countP RecvResult.isFailed + 1 := List.countP_cons_of_pos rfl
          rw [hcount]
          simp [RecvResult.rv, RecvResult.packets]
          omega

theorem Handled.accepted_of_not_attempted {x : Handled B} (h : x.attempted = false) :
    x.accepted = [] := by
  obtain ⟨packet, fate⟩ := x
  cases fate with
  | sent | refused => cases h
  | swallowed | purged => rfl

theorem Handled.accepted_isPrefix (x : Handled B) : x.accepted <+: x.packet := by
  obtain ⟨packet, fate⟩ := x
  cases fate with
  | sent len => exact List.take_prefix len packet
  | refused | swallowed | purged => exact List.nil_prefix

/-- What was asked for was accepted exactly when no packet was refused or cut short. -/
theorem accepted_eq_attempted_iff (ledger : List (Handled B)) :
    (ledger.flatMap Handled.accepted).length ≤
        ((ledger.filter Handled.attempted).map Handled.packet).flatten.length ∧
      ((ledger.flatMap Handled.accepted).length =
          ((ledger.filter Handled.attempted).map Handled.packet).flatten.length ↔
        ∀ x ∈ ledger, x.attempted = true → x.accepted = x.packet) := by
  induction ledger with
  | nil => simp
  | cons x ledger ih =>
      obtain ⟨hle, hiff⟩ := ih
      rw [List.forall_mem_cons, ← hiff]
      cases hx : x.attempted with
      | false =>
          rw [List.filter_cons_of_neg (by simp [hx]), List.flatMap_cons,
            Handled.accepted_of_not_attempted hx, List.nil_append]
          exact ⟨hle, by simp⟩
      | true =>
          have hprefix := x.accepted_isPrefix
          have hlen := hprefix.length_le
          have hfull : x.accepted = x.packet ↔ x.accepted.length = x.packet.length :=
            ⟨congrArg List.length, hprefix.eq_of_length⟩
          rw [List.filter_cons_of_pos hx, List.flatMap_cons, List.map_cons, List.flatten_cons,
            List.length_append, List.length_append, hfull]
          simp only [forall_const]
          omega

/-- In every run the counters of an adapter are those of the calls of `recv` and `send` made
so far, but for the one its thread has not counted yet, and what the monitor printed adds up
to a reading of them. `bytes_received` is one too low for each error; `bytes_sent`, when the
sender has counted, is the number of bytes the kernel accepted exactly when none of the
packets was refused or cut short. -/
theorem bridge_metrics (maxQueueSize : Side → Int) {labels : List (BridgeLabel B)}
    {s : Bridge B} (h : run (bridgeStep maxQueueSize) .start labels = some s) (a : Side) :
    (∃ l, s.results a = l ++ (s.receiver a).owesPacket ∧
      (s.metrics a).packetsReceived = BitVec.ofNat 64 l.length) ∧
    (∃ l, s.results a = l ++ (s.receiver a).owesBytes ∧
      (s.metrics a).bytesReceived = BitVec.ofInt 64
        ((l.flatMap RecvResult.packets).flatten.length - l.countP RecvResult.isFailed)) ∧
    (∃ l, s.attempts a = l ++ (s.sender a).owesPacket ∧
      (s.metrics a.other).packetsSent = BitVec.ofNat 64 l.length) ∧
    (∃ l, s.attempts a = l ++ (s.sender a).owesBytes ∧
      (s.metrics a.other).bytesSent = BitVec.ofNat 64 l.flatten.length) ∧
    ((s.sender a).owesBytes = [] → (s.attempts a).flatten.length < 2 ^ 64 →
      ((s.metrics a.other).bytesSent.toNat = ((s.ledger a).flatMap Handled.accepted).length ↔
        ∀ x ∈ s.ledger a, x.attempted = true → x.accepted = x.packet)) ∧
    s.Shows .up (AdapterMetrics.printed (s.lines.map MonitorLine.up)) ∧
    s.Shows .down (AdapterMetrics.printed (s.lines.map MonitorLine.down)) := by
  obtain ⟨hcounts, hmonitored⟩ : s.Counts ∧ s.Monitored :=
    run_invariant_of_mem _ (fun u : Bridge B => u.Counts ∧ u.Monitored)
      (fun _ _ _ _ hu hstep =>
        ⟨bridgeStep_counts hu.1 hstep, bridgeStep_monitored hu.1 hu.2 hstep⟩)
      ⟨counts_start, monitored_start⟩ h
  obtain ⟨l₁, hl₁, hin⟩ := (hcounts.received a).packets
  obtain ⟨l₂, hl₂, hinBytes⟩ := (hcounts.received a).bytes
  obtain ⟨l₃, hl₃, hout⟩ := (hcounts.sent a).packets
  obtain ⟨l₄, hl₄, houtBytes⟩ := (hcounts.sent a).bytes
  rw [total_packetBytes] at houtBytes
  refine ⟨⟨l₁, hl₁, hin.trans (total_onePacket l₁)⟩, ⟨l₂, hl₂, hinBytes.trans (total_counted l₂)⟩,
    ⟨l₃, hl₃, hout.trans (total_onePacket l₃)⟩, ⟨l₄, hl₄, houtBytes⟩, ?_, ?_, ?_⟩
  · intro howes hfits
    rw [howes, List.append_nil] at hl₄
    rw [houtBytes, ← hl₄, BitVec.toNat_ofNat, Nat.mod_eq_of_lt hfits, eq_comm]
    exact (accepted_eq_attempted_iff (s.ledger a)).2
  · rw [hmonitored.printedUp]
    exact hmonitored.previousUp
  · rw [hmonitored.printedDown]
    exact hmonitored.previousDown

/-- The kernel takes one byte of two, and the monitor reads in between. -/
def cutLabels : List (BridgeLabel UInt8) :=
  [.receiver .up .silent, .receiver .up (.socket (some 3)), .receiver .up (.connect true),
    .receiver .down .silent, .receiver .down (.socket (some 4)), .receiver .down (.connect true),
    .receiver .up .silent, .receiver .up (.recv (.data [65, 66])), .receiver .up .silent, .monitor,
    .receiver .up .silent, .monitor, .receiver .up .silent, .sender .up .silent,
    .sender .up .silent, .sender .up (.send (some 1)), .sender .up .silent, .sender .up .silent,
    .monitor]

def cutBridge : Bridge UInt8 := (run (bridgeStep fun _ => 0) .start cutLabels).getD .start

theorem cutLabels_run : run (bridgeStep fun _ => 0) .start cutLabels = some cutBridge := rfl

theorem bridge_metrics_cut :
    (cutBridge.metrics .down).bytesSent.toNat ≠
      ((cutBridge.ledger .up).flatMap Handled.accepted).length := by
  have hiff := (bridge_metrics (fun _ => 0) cutLabels_run .up).2.2.2.2.1 rfl (by decide)
  intro heq
  exact absurd (hiff.mp heq) (by decide)

end SecureGateway
