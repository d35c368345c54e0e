import SecureGateway.CertikosGateway
import SecureGateway.Drained

/-!
# The gateway on CertiKOS empties its adapters

An adapter takes bytes in only when it is polled, so that a round leaves none of them
behind, whatever the transports do during the round.
-/

namespace SecureGateway

open Library

namespace PolledLink

variable {B X : Type} {src : PollingSource B X UInt8} {Inv : B → Prop} {unread : B → List UInt8}
  {ready : B → X → List UInt8} {size : X → Nat} {N : Nat} {a : PolledLink B X}

/-- What is unread, and what the transport may give before its call `N`. -/
def ahead (unread : B → List UInt8) (size : X → Nat) (N : Nat) (a : PolledLink B X) : Nat :=
  (unread a.source).length + ∑ n ∈ Finset.Ico a.calls N, size (a.inputs n)

/-- The source is as its calls leave it; the transport gives nothing from its call `N` on. -/
structure QuietFrom (Inv : B → Prop) (size : X → Nat) (N : Nat) (a : PolledLink B X) : Prop where
  inv : Inv a.source
  quiet : ∀ n, N ≤ n → size (a.inputs n) = 0

/-- Nothing is unread, and the last poll gave nothing. -/
def Empty (unread : B → List UInt8) (a : PolledLink B X) : Prop :=
  unread a.source = [] ∧ a.polls.getLast? = some []

/-- A call that finds nothing leaves nothing unread, and it polled for nothing. -/
theorem hasMore_empties (laws : src.Lawful Inv unread ready) (ha : Inv a.source)
    (hnone : (a.hasMore src).1 = 0) : (a.hasMore src).2.Empty unread := by
  have hanswer : (src.hasMore a.source a.input).answer ≠ true :=
    fun hyes => hasMore_ne_zero_iff.mpr hyes hnone
  rcases laws.hasMore a.source a.input ha with hkept | hfetched
  · exact absurd hkept.answer hanswer
  · have hready : ready a.source a.input = [] :=
      not_not.mp fun hne => hanswer (hfetched.answer_iff.mpr hne)
    refine ⟨hfetched.unread_eq.trans hready, ?_⟩
    simp [PolledLink.hasMore, hfetched.chunk, hready]

theorem QuietFrom.hasMore (laws : src.Lawful Inv unread ready)
    (hsize : ∀ b x xs, (src.hasMore b x).chunk = some xs → xs.length ≤ size x)
    (ha : a.QuietFrom Inv size N) :
    (a.hasMore src).2.QuietFrom Inv size N ∧
      (a.hasMore src).2.ahead unread size N ≤ a.ahead unread size N := by
  refine ⟨⟨laws.inv_hasMore _ _ ha.inv, ha.quiet⟩, ?_⟩
  have hsum := sum_ahead_succ ha.quiet a.calls
  simp only [ahead, PolledLink.hasMore]
  rcases laws.hasMore a.source a.input ha.inv with hkept | hfetched
  · rw [hkept.unread_eq]
    omega
  · have hlength := hsize a.source a.input _ hfetched.chunk
    change _ ≤ size (a.inputs a.calls) at hlength
    rw [hfetched.unread_eq, hfetched.unread_nil, List.length_nil]
    omega

theorem QuietFrom.read (laws : src.Lawful Inv unread ready)
    (hsize : ∀ b x xs, (src.hasMore b x).chunk = some xs → xs.length ≤ size x)
    (ha : a.QuietFrom Inv size N) (hsome : (a.hasMore src).1 ≠ 0) :
    let r := (a.hasMore src).2.readByte src
    r.2.QuietFrom Inv size N ∧ r.2.ahead unread size N < a.ahead unread size N := by
  obtain ⟨hpolled, hless⟩ := ha.hasMore laws hsize
  have hne : unread (a.hasMore src).2.source ≠ [] :=
    (laws.answer_iff ha.inv a.input).mp (hasMore_ne_zero_iff.mp hsome)
  obtain ⟨b, rest, hunread⟩ := List.exists_cons_of_ne_nil hne
  obtain ⟨-, hrest⟩ := laws.readByte _ (a.hasMore src).2.input b rest hpolled.inv hunread
  refine ⟨⟨laws.inv_readByte _ _ hpolled.inv hne, ha.quiet⟩, lt_of_lt_of_le ?_ hless⟩
  have hsum := sum_ahead_succ hpolled.quiet (a.hasMore src).2.calls
  simp only [ahead, PolledLink.readByte, hrest, hunread, List.length_cons]
  omega

/-- What was given away is all there was once nothing is unread. -/
theorem Conserves.drained {bytes : List UInt8} (ha : a.Conserves Inv unread bytes)
    (hempty : unread a.source = []) : bytes = a.polls.flatten := by
  rw [← ha.conserved, hempty, List.append_nil]

end PolledLink

/-- The source of an adapter is as its calls leave it. -/
def CertikosLink.Ready : ∀ l, CertikosLink l → Prop
  | .uart => fun (a : CertikosUartLink) => CertikosUartSocket.Ready a.input.source
  | .partee => fun _ => True
  | .thinros => fun (a : ThinrosLink) => ThinrosSocket.Ready a.input.source

/-- Every byte an adapter has from its transport has been read, and the last poll gave none. -/
def CertikosLink.Empty : ∀ l, CertikosLink l → Prop
  | .uart => fun (a : CertikosUartLink) => a.input.Empty CertikosUartSocket.unread
  | .partee => fun (a : ParteeLink) => a.input.Empty ParteeSocket.unread
  | .thinros => fun (a : ThinrosLink) => a.input.Empty ThinrosSocket.unread

theorem certikosOps_empties (codec : MavlinkCodec) (l : CertikosAdapter) :
    (certikosOps codec l).Empties (CertikosLink.Ready l) (CertikosLink.Empty l) := by
  cases l with
  | uart =>
      refine ⟨?_, ?_, ?_⟩
      · intro (a : CertikosUartLink) ha hnone
        exact ⟨certikosUart_lawful.inv_hasMore _ _ ha,
          PolledLink.hasMore_empties certikosUart_lawful ha hnone⟩
      · intro (a : CertikosUartLink) ha hsome
        have hmore := (certikosUart_lawful.answer_iff ha a.input.input).mp
          (PolledLink.hasMore_ne_zero_iff.mp hsome)
        exact certikosUart_lawful.inv_readByte _ _
          (certikosUart_lawful.inv_hasMore _ a.input.input ha) hmore
      · intro (a : CertikosUartLink) msg ha
        obtain ⟨hinit, hunread⟩ := certikosUartReady_spec ha
        have hready := CertikosUartSocket.ready_of_initialized hinit
        simp only [certikosOps, certikosUartOps, certikosUartRouteTo]
        split
        · exact ⟨hready, fun hempty => ⟨hunread.trans hempty.1, hempty.2⟩⟩
        · exact ⟨hready, fun hempty => ⟨hunread.trans hempty.1, hempty.2⟩⟩
  | partee =>
      refine ⟨?_, ?_, ?_⟩
      · intro (a : ParteeLink) ha hnone
        exact ⟨trivial, PolledLink.hasMore_empties partee_lawful trivial hnone⟩
      · intro (a : ParteeLink) ha hsome
        trivial
      · intro (a : ParteeLink) msg ha
        refine ⟨trivial, ?_⟩
        simp only [certikosOps, parteeOps, parteeSocketRouteTo]
        split
        · exact id
        · split
          · exact id
          · exact id
  | thinros =>
      refine ⟨?_, ?_, ?_⟩
      · intro (a : ThinrosLink) ha hnone
        exact ⟨thinros_lawful.inv_hasMore _ _ ha,
          PolledLink.hasMore_empties thinros_lawful ha hnone⟩
      · intro (a : ThinrosLink) ha hsome
        have hmore := (thinros_lawful.answer_iff ha a.input.input).mp
          (PolledLink.hasMore_ne_zero_iff.mp hsome)
        exact thinros_lawful.inv_readByte _ _
          (thinros_lawful.inv_hasMore _ a.input.input ha) hmore
      · intro (a : ThinrosLink) msg ha
        obtain ⟨hready, hunread⟩ := thinrosReady_spec ha a.input.input.advertise
        simp only [certikosOps, thinrosOps, thinrosSocketRouteTo]
        split
        · exact ⟨hready, fun hempty => ⟨hunread.trans hempty.1, hempty.2⟩⟩
        · exact ⟨hready, fun hempty => ⟨hunread.trans hempty.1, hempty.2⟩⟩

/-- The length of the message a topic has ready. -/
def ThinrosInput.length (x : ThinrosInput) : Nat :=
  match x.message with
  | none => 0
  | some message => message.val.len

theorem certikosUart_size (uart : CertikosUartSocket) (x : Chunk certikosUartDataSize)
    (xs : List UInt8) (h : (certikosUart.hasMore uart x).chunk = some xs) :
    xs.length ≤ x.val.length := by
  simp only [certikosUart, certikosUartHasMore] at h
  split at h
  · cases h
  · cases h
    exact Nat.le_refl _

theorem partee_size (ros : ParteeSocket) (x : Chunk mavlinkMaxPacketLen) (xs : List UInt8)
    (h : (partee.hasMore ros x).chunk = some xs) : xs.length ≤ x.val.length := by
  simp only [partee, parteeSocketHasMore] at h
  split at h
  · cases h
  · split at h
    · cases h
      exact Nat.le_refl _
    · cases h
      exact Nat.le_refl _

/-- A message is lost to a spin before the subscription. -/
theorem length_rosChunk_le (ros : ThinrosSocket) (x : ThinrosInput) :
    (rosChunk ros (x.message.map Subtype.val)).length ≤ x.length := by
  unfold rosChunk rosDelivered ThinrosInput.length
  cases ros.subscribed with
  | false => exact Nat.zero_le _
  | true =>
      cases x.message with
      | none => exact Nat.le_refl _
      | some message => simp [MavlinkMsg.bytes]

theorem thinros_size (ros : ThinrosSocket) (x : ThinrosInput) (xs : List UInt8)
    (h : (thinros.hasMore ros x).chunk = some xs) : xs.length ≤ x.length := by
  simp only [thinros, thinrosSocketHasMore] at h
  split at h
  · cases h
  · split at h
    · cases h
      exact length_rosChunk_le _ x
    · cases h
      exact length_rosChunk_le _ x

/-- The transport of an adapter gives nothing from its call `N` on. -/
def CertikosLink.QuietFrom (N : Nat) : ∀ l, CertikosLink l → Prop
  | .uart => fun (a : CertikosUartLink) =>
      a.input.QuietFrom CertikosUartSocket.Ready (fun x => x.val.length) N
  | .partee => fun (a : ParteeLink) =>
      a.input.QuietFrom (fun _ => True) (fun x => x.val.length) N
  | .thinros => fun (a : ThinrosLink) =>
      a.input.QuietFrom ThinrosSocket.Ready ThinrosInput.length N

/-- What is unread, and what the transport may give before its call `N`. -/
def CertikosLink.ahead (N : Nat) : ∀ l, CertikosLink l → Nat
  | .uart => fun (a : CertikosUartLink) =>
      a.input.ahead CertikosUartSocket.unread (fun x => x.val.length) N
  | .partee => fun (a : ParteeLink) =>
      a.input.ahead ParteeSocket.unread (fun x => x.val.length) N
  | .thinros => fun (a : ThinrosLink) =>
      a.input.ahead ThinrosSocket.unread ThinrosInput.length N

theorem certikosOps_exhausts (codec : MavlinkCodec) (N : Nat) (l : CertikosAdapter) :
    (certikosOps codec l).Exhausts (CertikosLink.QuietFrom N l) (CertikosLink.ahead N l) := by
  cases l with
  | uart =>
      refine ⟨?_, ?_, ?_⟩
      · intro (a : CertikosUartLink) ha hnone
        exact PolledLink.QuietFrom.hasMore certikosUart_lawful certikosUart_size ha
      · intro (a : CertikosUartLink) ha hsome
        exact PolledLink.QuietFrom.read certikosUart_lawful certikosUart_size ha hsome
      · intro (a : CertikosUartLink) msg ha
        obtain ⟨hinit, hunread⟩ := certikosUartReady_spec ha.inv
        have hready := CertikosUartSocket.ready_of_initialized hinit
        have hlength := congrArg List.length hunread
        simp only [certikosOps, certikosUartOps, certikosUartRouteTo]
        split
        · exact ⟨⟨hready, ha.quiet⟩, Nat.add_le_add_right hlength.le _⟩
        · exact ⟨⟨hready, ha.quiet⟩, Nat.add_le_add_right hlength.le _⟩
  | partee =>
      refine ⟨?_, ?_, ?_⟩
      · intro (a : ParteeLink) ha hnone
        exact PolledLink.QuietFrom.hasMore partee_lawful partee_size ha
      · intro (a : ParteeLink) ha hsome
        exact PolledLink.QuietFrom.read partee_lawful partee_size ha hsome
      · intro (a : ParteeLink) msg ha
        simp only [certikosOps, parteeOps, parteeSocketRouteTo]
        split
        · exact ⟨ha, Nat.le_refl _⟩
        · split
          · exact ⟨ha, Nat.le_refl _⟩
          · exact ⟨ha, Nat.le_refl _⟩
  | thinros =>
      refine ⟨?_, ?_, ?_⟩
      · intro (a : ThinrosLink) ha hnone
        exact PolledLink.QuietFrom.hasMore thinros_lawful thinros_size ha
      · intro (a : ThinrosLink) ha hsome
        exact PolledLink.QuietFrom.read thinros_lawful thinros_size ha hsome
      · intro (a : ThinrosLink) msg ha
        obtain ⟨hready, hunread⟩ := thinrosReady_spec ha.inv a.input.input.advertise
        have hlength := congrArg List.length hunread
        have hsum := sum_ahead_succ ha.quiet a.input.calls
        have hahead (b : ThinrosSocket) (hb : b.unread.length = a.input.source.unread.length) :
            b.unread.length +
                ∑ n ∈ Finset.Ico (a.input.calls + 1) N, (a.input.inputs n).length ≤
              a.input.source.unread.length +
                ∑ n ∈ Finset.Ico a.input.calls N, (a.input.inputs n).length := by
          omega
        simp only [certikosOps, thinrosOps, thinrosSocketRouteTo]
        split
        · exact ⟨⟨hready, ha.quiet⟩, hahead _ hlength⟩
        · exact ⟨⟨hready, ha.quiet⟩, hahead _ hlength⟩

/-- The transports give nothing from their calls `N` on. -/
structure CertikosTransports.QuietFrom (t : CertikosTransports) (N : Nat) : Prop where
  reads : ∀ n, N ≤ n → (t.reads n).val = []
  topicReads : ∀ n, N ≤ n → (t.topicReads n).val = []
  ros : ∀ n, N ≤ n → (t.ros n).message = none

/-- The bytes an adapter may be given before its call `N`. -/
def CertikosTransports.total (t : CertikosTransports) (N : Nat) : CertikosAdapter → Nat
  | .uart => ∑ n ∈ Finset.range N, (t.reads n).val.length
  | .partee => ∑ n ∈ Finset.range N, (t.topicReads n).val.length
  | .thinros => ∑ n ∈ Finset.range N, (t.ros n).length

/-- What the last poll of an adapter gave. -/
def CertikosLink.lastPoll : ∀ l, CertikosLink l → Option (List UInt8)
  | .uart => fun (a : CertikosUartLink) => a.input.polls.getLast?
  | .partee => fun (a : ParteeLink) => a.input.polls.getLast?
  | .thinros => fun (a : ThinrosLink) => a.input.polls.getLast?

/-- The bytes the transport of an adapter gave. -/
def CertikosLink.given : ∀ l, CertikosLink l → List UInt8
  | .uart => fun (a : CertikosUartLink) => a.input.polls.flatten
  | .partee => fun (a : ParteeLink) => a.input.polls.flatten
  | .thinros => fun (a : ThinrosLink) => a.input.polls.flatten

/-- An empty adapter has been read to the last byte. -/
theorem CertikosLink.Kept.drained {codec : MavlinkCodec} {l : CertikosAdapter}
    {a : CertikosLink l} {bytes : List UInt8} {msgs : List MavlinkMessage}
    (ha : CertikosLink.Kept codec l a bytes msgs) (hempty : CertikosLink.Empty l a) :
    bytes = CertikosLink.given l a ∧ CertikosLink.lastPoll l a = some [] := by
  cases l with
  | uart => exact ⟨(CertikosUartLink.Kept.input ha).drained hempty.1, hempty.2⟩
  | partee => exact ⟨(ParteeLink.Kept.input ha).drained hempty.1, hempty.2⟩
  | thinros => exact ⟨(ThinrosLink.Kept.input ha).drained hempty.1, hempty.2⟩

/-- The gateway on CertiKOS empties its links: after a run that ends in a round everything the
transports of the connected adapters ever gave has been read, in order, up to a poll that gave
nothing, and its messages are handed to the sinks they are due to. If the transports give
finitely many bytes in all, a run with fuel for these returns. -/
theorem certikos_drains {G T : Type} (codec : MavlinkCodec)
    (hlen : ∀ msg, (codec.msgToSendBuffer msg).length ≤ mavlinkMaxPacketLen)
    {securityPolicyInit : SecurityPolicyMgmt → Except Fault SecurityPolicyMgmt}
    {prior initial p : Pipeline (Links CertikosLink T)} {setup : List (CertikosSetup T)}
    (hinit : pipelineInit securityPolicyInit prior = .ok initial)
    (hsetup : configure initial
      ((setup.flatMap CertikosSetup.links).map (LinkSetup.op (certikosOps codec))) = .ok p)
    (hops : p.OpsKeepRouting)
    (hverdict : ∀ policy ∈ p.policies.policies, policy.VerdictIgnoresAttr)
    {env : Env (Links CertikosLink T) G}
    (hclock : ∀ world, (env.timeUs world).2.link = world.link)
    (t : CertikosTransports) (rest : T) (parser : G) (actions : List Action) :
    let start : Machine (Links CertikosLink T) G := Machine.start p ⟨t.links, rest⟩ parser
    let w := wiring (setup.flatMap CertikosSetup.links)
    (∀ fuel m, runActions env start (actions ++ [.spin fuel]) = .ok m →
      (∀ turn ∈ m.log, turn.calls.map Prod.fst = turn.expected p) ∧
      ∀ i l, (p.sources i).isConnected → w.source i = some l →
        readFrom w l m.log = CertikosLink.given l (m.world.link l) ∧
          CertikosLink.lastPoll l (m.world.link l) = some []) ∧
    ∀ N, t.QuietFrom N → (∀ fuel, .spin fuel ∈ actions → ∀ l, t.total N l < fuel) →
      ∃ m, runActions env start actions = .ok m := by
  intro start w
  have hconf := configure_configured (pipelineInit_configured hinit) hsetup
  have hw := configure_wired (pipelineInit_wired hinit) hsetup
  have hledger : Ledger w (CertikosLink.Kept codec) p start :=
    ⟨mediated_start p ⟨t.links, rest⟩ parser, t.kept codec⟩
  refine ⟨?_, ?_⟩
  · intro fuel m hrun
    have hready : start.world.Each CertikosLink.Ready := by
      intro l
      cases l with
      | uart => exact fun _ => rfl
      | partee => trivial
      | thinros => exact fun _ => ⟨rfl, rfl⟩
    obtain ⟨hm, -, hempty⟩ := runActions_empties (certikosOps_lawful hlen) hw hconf hops hverdict
      hclock (certikosOps_empties codec) hledger hready hrun
    refine ⟨fun turn hturn => (hm.log turn hturn).calls, ?_⟩
    intro i l hconn hl
    exact CertikosLink.Kept.drained (hm.links l) (hempty i l hconn hl)
  · intro N hquiet hfuel
    have hwithin : start.world.Each
        (Within (CertikosLink.QuietFrom N) (CertikosLink.ahead N) (t.total N)) := by
      have hlength (x : ThinrosInput) (hx : x.message = none) : x.length = 0 := by
        simp [ThinrosInput.length, hx]
      intro l
      cases l with
      | uart =>
          refine ⟨⟨fun _ => rfl, ?_⟩, ?_⟩
          · intro n hn
            exact List.length_eq_zero_iff.mpr (hquiet.reads n hn)
          · change 0 + ∑ n ∈ Finset.Ico 0 N, _ ≤ _
            rw [Nat.zero_add, Nat.Ico_zero_eq_range]
            rfl
      | partee =>
          refine ⟨⟨trivial, ?_⟩, ?_⟩
          · intro n hn
            exact List.length_eq_zero_iff.mpr (hquiet.topicReads n hn)
          · change 0 + ∑ n ∈ Finset.Ico 0 N, _ ≤ _
            rw [Nat.zero_add, Nat.Ico_zero_eq_range]
            rfl
      | thinros =>
          refine ⟨⟨fun _ => ⟨rfl, rfl⟩, ?_⟩, ?_⟩
          · intro n hn
            exact hlength _ (hquiet.ros n hn)
          · change 0 + ∑ n ∈ Finset.Ico 0 N, _ ≤ _
            rw [Nat.zero_add, Nat.Ico_zero_eq_range]
            rfl
    obtain ⟨m, hrun, -⟩ := runActions_returns (certikosOps_lawful hlen) hw hconf hops hverdict
      hclock (certikosOps_exhausts codec N) hfuel hledger hwithin
    exact ⟨m, hrun⟩

/-- Two rounds return, with both heartbeats read. -/
theorem certikos_drains_heartbeats :
    let w := wiring (certikosSetup.flatMap CertikosSetup.links)
    ∃ m, runActions certikosEnv
        (Machine.start certikosPipeline ⟨certikosTransports.links, ()⟩ fun _ => [])
        [.spin 20, .spin 20] = .ok m ∧
      readFrom w .uart m.log = heartbeat ∧ readFrom w .thinros m.log = heartbeat := by
  intro w
  have hclock : ∀ world, (certikosEnv.timeUs world).2.link = world.link := fun _ => rfl
  have hquiet : certikosTransports.QuietFrom 2 := by
    refine ⟨?_, fun n _ => rfl, ?_⟩
    · intro n hn
      simp [certikosTransports, Nat.ne_of_gt (Nat.lt_of_lt_of_le Nat.zero_lt_two hn)]
    · intro n hn
      simp [certikosTransports, Nat.ne_of_gt (Nat.lt_of_lt_of_le Nat.one_lt_two hn)]
  have htotal (fuel : Nat) (hmem : Action.spin fuel ∈ [Action.spin 20, .spin 20])
      (l : CertikosAdapter) : certikosTransports.total 2 l < fuel := by
    obtain rfl : fuel = 20 := by simpa using hmem
    cases l with
    | uart => decide
    | partee => decide
    | thinros => decide
  obtain ⟨-, hreturns⟩ := certikos_drains wireCodec length_wireSendBuffer_le
    (pipelineInit_shipped wireCodec) certikos_setup certikosPipeline_opsKeepRouting
    (shippedPolicies_verdictIgnoresAttr wireCodec) hclock certikosTransports () (fun _ => [])
    [.spin 20, .spin 20]
  obtain ⟨m, hrun⟩ := hreturns 2 hquiet htotal
  obtain ⟨hempties, -⟩ := certikos_drains wireCodec length_wireSendBuffer_le
    (pipelineInit_shipped wireCodec) certikos_setup certikosPipeline_opsKeepRouting
    (shippedPolicies_verdictIgnoresAttr wireCodec) hclock certikosTransports () (fun _ => [])
    [.spin 20]
  obtain ⟨-, hread⟩ := hempties 20 m hrun
  have hfinal := congrArg finalMachine hrun
  rw [finalMachine_ok] at hfinal
  refine ⟨m, hrun, ?_, ?_⟩
  · rw [(hread ⟨SourceType.vmc.id, by decide⟩ .uart (by decide) (by decide)).1, ← hfinal]
    decide +kernel
  · rw [(hread ⟨SourceType.legacy.id, by decide⟩ .thinros (by decide) (by decide)).1, ← hfinal]
    decide +kernel

end SecureGateway
