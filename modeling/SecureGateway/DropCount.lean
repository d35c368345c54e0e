import SecureGateway.Library.Gaps
import SecureGateway.PerfReports

/-!
# Drop counting

The `drop_count` of a source port against the sequence numbers its sender really used.
The port keeps the last 8-bit number and starts from zero, as if a message numbered
zero had come before the first.

## Implementation notes

The true numbers are natural numbers whose low bytes are the sequence fields.
-/

namespace SecureGateway

open Library

variable {W G : Type}

/-! ### What a port keeps of the numbers it receives -/

/-- A call of `perf_port_unit_update`. -/
structure PortUpdate where
  unit : PerfPortUnitType
  id : Nat
  msg : Message

/-- Every update after `perf_init`, in order. -/
def perfUpdates (updates : List PortUpdate) : Except Fault Perf :=
  updates.foldlM (fun perf u => perfPortUnitUpdate perf u.unit u.id u.msg) perfInit

/-- The sequence field of an update counted on a source port. -/
def PortUpdate.seqAt (id : Fin maxPerfPortUnits) (u : PortUpdate) : Option UInt8 :=
  if u.unit = .source ∧ u.id = id.val ∧ u.msg.msg.compid = 1 then some u.msg.msg.seq else none

/-- The state drop counting works on. -/
def PerfPortUnit.drops (u : PerfPortUnit) : UInt8 × BitVec 64 := (u.prevSeq, u.dropCount)

/-- The messages missing between two 8-bit numbers. -/
def dropsBetween (prevSeq seq : UInt8) : Nat := (seq.toNat + 255 - prevSeq.toNat) % 256

/-- One message of the counted component. -/
def countDrop (drops : UInt8 × BitVec 64) (seq : UInt8) : UInt8 × BitVec 64 :=
  (seq, drops.2 + BitVec.ofNat 64 (dropsBetween drops.1 seq))

theorem perfDropCount_eq (msg : Message) (prevSeq : UInt8) :
    perfDropCount msg prevSeq =
      if msg.msg.compid = 1 then (dropsBetween prevSeq msg.msg.seq : Int) else 0 := by
  have hseq := msg.msg.seq.toNat_lt
  have hprev := prevSeq.toNat_lt
  unfold perfDropCount dropsBetween
  split
  · dsimp only
    split <;> omega
  · rfl

/-- An update counts the number it carries for the port, if any. -/
theorem perfPortUnitUpdate_drops {perf perf' : Perf} {u : PortUpdate}
    (h : perfPortUnitUpdate perf u.unit u.id u.msg = .ok perf') (id : Fin maxPerfPortUnits) :
    (perf'.portUnits .source id).drops =
      (u.seqAt id).elim (perf.portUnits .source id).drops
        (countDrop (perf.portUnits .source id).drops) := by
  obtain ⟨unit, uid, msg⟩ := u
  cases unit with
  | sink =>
      simp only [perfPortUnitUpdate] at h
      split at h
      · split at h
        · cases h
          simp [setPortUnit_portUnits, PortUpdate.seqAt]
        · cases h
      · cases h
  | source =>
      simp only [perfPortUnitUpdate] at h
      split at h
      · split at h
        · rename_i hlt
          cases h
          by_cases hid : uid = id.val
          · subst hid
            rw [setPortUnit_portUnits, if_pos ⟨rfl, rfl⟩, PortUpdate.seqAt, perfDropCount_eq]
            by_cases hcomp : msg.msg.compid = 1
            · simp [hcomp, PerfPortUnit.drops, countDrop]
            · simp [hcomp, PerfPortUnit.drops]
          · have hne : id ≠ ⟨uid, hlt⟩ := fun heq => hid (by rw [heq])
            simp [setPortUnit_portUnits, PortUpdate.seqAt, hid, hne]
        · cases h
      · cases h

/-- The port has counted the numbers it was sent, one after the other. -/
theorem perfUpdates_drops {updates : List PortUpdate} {perf : Perf}
    (h : perfUpdates updates = .ok perf) (id : Fin maxPerfPortUnits) :
    (perf.portUnits .source id).drops =
      (updates.filterMap (PortUpdate.seqAt id)).foldl countDrop (0, 0) := by
  have hfrom : ∀ {start perf : Perf},
      updates.foldlM (fun perf u => perfPortUnitUpdate perf u.unit u.id u.msg) start = .ok perf →
      (perf.portUnits .source id).drops =
        (updates.filterMap (PortUpdate.seqAt id)).foldl countDrop
          (start.portUnits .source id).drops := by
    clear h
    induction updates with
    | nil =>
        intro start perf h
        cases h
        rfl
    | cons u updates ih =>
        intro start perf h
        rw [List.foldlM_cons] at h
        obtain ⟨next, hstep, h⟩ := bind_eq_ok_iff.mp h
        rw [ih h, perfPortUnitUpdate_drops hstep id, List.filterMap_cons]
        cases u.seqAt id with
        | none => rfl
        | some seq => rfl
  exact hfrom h

/-! ### The true numbers behind the fields -/

theorem dropsBetween_ofNat {a b : Nat} (hlt : a < b) (hle : b ≤ a + 256) :
    dropsBetween (UInt8.ofNat a) (UInt8.ofNat b) = b - a - 1 := by
  simp only [dropsBetween, UInt8.toNat_ofNat']
  omega

theorem dropsBetween_zero_ofNat (a : Nat) :
    dropsBetween 0 (UInt8.ofNat a) = (a + 255) % 256 := by
  simp only [dropsBetween, UInt8.toNat_ofNat', UInt8.toNat_zero]
  omega

/-- From the first number on, what is counted is what is missing. -/
theorem foldl_countDrop {a : Nat} {rest : List Nat} (h : InSteps 256 (a :: rest))
    (count : BitVec 64) :
    ((rest.map UInt8.ofNat).foldl countDrop (UInt8.ofNat a, count)).2 =
      count + BitVec.ofNat 64 (skipped (a :: rest)) := by
  induction rest generalizing a count with
  | nil => simp [skipped_singleton]
  | cons b rest ih =>
      obtain ⟨hlt, hle⟩ := h.step
      have hstep : countDrop (UInt8.ofNat a, count) (UInt8.ofNat b) =
          (UInt8.ofNat b, count + BitVec.ofNat 64 (b - a - 1)) := by
        rw [countDrop, dropsBetween_ofNat hlt hle]
      rw [List.map_cons, List.foldl_cons, hstep, ih h.tail, h.skipped_cons_cons,
        BitVec.ofNat_add, BitVec.add_assoc]

/-- The whole count: the numbers below the first, back to one, come on top. -/
theorem foldl_countDrop_start {a : Nat} {rest : List Nat} (h : InSteps 256 (a :: rest)) :
    (((a :: rest).map UInt8.ofNat).foldl countDrop (0, 0)).2 =
      BitVec.ofNat 64 ((a + 255) % 256 + skipped (a :: rest)) := by
  have hstep : countDrop (0, 0) (UInt8.ofNat a) =
      (UInt8.ofNat a, BitVec.ofNat 64 ((a + 255) % 256)) := by
    rw [countDrop, dropsBetween_zero_ofNat]
    exact congrArg (Prod.mk _) (BitVec.zero_add _)
  rw [List.map_cons, List.foldl_cons, hstep, foldl_countDrop h, BitVec.ofNat_add]

/-- When the numbers on the wire are counted exactly. -/
theorem foldl_countDrop_eq_iff {seqs : List Nat} (h : InSteps 256 seqs) :
    ((seqs.map UInt8.ofNat).foldl countDrop (0, 0)).2.toNat = skipped seqs ↔
      (∀ first ∈ seqs.head?, first % 256 = 1) ∧ skipped seqs < 2 ^ 64 := by
  cases seqs with
  | nil => simp [skipped]
  | cons a rest =>
      rw [foldl_countDrop_start h, BitVec.toNat_ofNat]
      simp only [List.head?_cons, Option.mem_some_iff, forall_eq']
      omega

/-- After a run of updates the port has counted the skipped messages exactly when the first
number it received ends in a one and the count fits. -/
theorem dropCount_eq_skipped_iff {updates : List PortUpdate} {perf : Perf}
    (hrun : perfUpdates updates = .ok perf) {id : Fin maxPerfPortUnits} {seqs : List Nat}
    (hseqs : updates.filterMap (PortUpdate.seqAt id) = seqs.map UInt8.ofNat)
    (hsteps : InSteps 256 seqs) :
    (perf.portUnits .source id).dropCount.toNat = skipped seqs ↔
      (∀ first ∈ seqs.head?, first % 256 = 1) ∧ skipped seqs < 2 ^ 64 := by
  have hdrops := congrArg Prod.snd (perfUpdates_drops hrun id)
  rw [hseqs] at hdrops
  rw [← foldl_countDrop_eq_iff hsteps, ← hdrops]
  rfl

/-- A message of the counted component with the given sequence field. -/
def numbered (seq : UInt8) : Message :=
  { Message.zero with msg := { MavlinkMessage.zero with compid := 1, seq := seq } }

def vmcPort : Fin maxPerfPortUnits := ⟨SourceType.vmc.id, by decide⟩

/-- The messages 1 and 4 of the vehicle, another component's between them. -/
def twoMissing : List PortUpdate :=
  [⟨.source, vmcPort, numbered 1⟩, ⟨.source, vmcPort, .zero⟩, ⟨.source, vmcPort, numbered 4⟩]

theorem dropCount_eq_skipped_twoMissing : ∃ perf, perfUpdates twoMissing = .ok perf ∧
    (perf.portUnits .source vmcPort).dropCount.toNat = skipped [1, 4] := by
  have hseqs : twoMissing.filterMap (PortUpdate.seqAt vmcPort) = [1, 4].map UInt8.ofNat := rfl
  exact ⟨_, rfl, (dropCount_eq_skipped_iff rfl hseqs (by decide)).mpr (by decide)⟩

/-- The first message a port receives, numbered 5, counts as four dropped. -/
theorem dropCount_counts_before_first : ∃ perf,
    perfUpdates [⟨.source, vmcPort, numbered 5⟩] = .ok perf ∧
    [(⟨.source, vmcPort, numbered 5⟩ : PortUpdate)].filterMap (PortUpdate.seqAt vmcPort) =
      [5].map UInt8.ofNat ∧
    InSteps 256 [5] ∧ skipped [5] = 0 ∧ (perf.portUnits .source vmcPort).dropCount.toNat = 4 :=
  ⟨_, rfl, rfl, by decide, by decide, rfl⟩

/-! ### Drop counting within the rounds -/

/-- The sequence field of a message that a byte completed on a source slot. -/
def Turn.seqAt (id : Fin maxPerfPortUnits) (turn : Turn) : Option UInt8 :=
  turn.delivery.bind fun d =>
    if turn.slot.val = id.val ∧ d.parsed.msg.compid = 1 then some d.parsed.msg.seq else none

/-- The ports have counted what the log shows. -/
def DropsAsLogged (m : Machine W G) : Prop :=
  ∀ id, (m.perf.perf.portUnits .source id).drops =
    (m.log.filterMap (Turn.seqAt id)).foldl countDrop (0, 0)

/-- Counting what a sink is handed leaves the source ports alone. -/
theorem sinksKeep_drops (p : Pipeline W) (drops : Fin maxPerfPortUnits → UInt8 × BitVec 64) :
    p.SinksKeep fun _ perf => ∀ id, (perf.portUnits .source id).drops = drops id where
  route _ _ _ _ _ _ hperf := hperf
  count _ perf id msg perf' hperf hupdate id' := by
    have hdrops := perfPortUnitUpdate_drops (u := ⟨.sink, id, msg⟩) hupdate id'
    rw [hdrops]
    exact hperf id'

theorem dropsAsLogged_pollInvariant {env : Env W G} : PollInvariant env DropsAsLogged where
  hasMore _ _ _ hm _ := hm
  readByte _ _ _ hm _ := hm
  byte m i b m' hm _ hbyte := by
    rcases spinByte_cases hbyte with ⟨d, r, -, hdeliver, rfl⟩ | ⟨-, rfl⟩
    · obtain ⟨perf, hperf, hpush, hd⟩ := deliver_eq_ok_iff.mp hdeliver
      refine pipelinePush_keeps (sinksKeep_drops m.pipeline _) ?_ hpush
      intro id
      rw [perfPortUnitUpdate_drops (u := ⟨.source, i.val, _⟩) hperf id, hm id,
        List.filterMap_append, List.foldl_append]
      have hparsed : d.parsed = parsedRecord env i b m := by rw [hd]
      by_cases hcounted : i.val = id.val ∧ (parsedRecord env i b m).msg.compid = 1
      · simp [PortUpdate.seqAt, Turn.seqAt, hparsed, hcounted]
      · simp [PortUpdate.seqAt, Turn.seqAt, hparsed, hcounted]
    · intro id
      rw [List.filterMap_append]
      simpa [Turn.seqAt] using hm id

/-- A report does not touch what drop counting works on. -/
theorem perfShow_drops (now : BitVec 64) (state : PerfState) (id : Fin maxPerfPortUnits) :
    ((perfShow now state).perf.portUnits .source id).drops =
      (state.perf.portUnits .source id).drops := by
  rw [perfShow_eq]
  split
  · rfl
  · by_cases hmem : (PerfPortUnitType.source, id) ∈ perfSelected
    · exact (congrArg PerfPortUnit.drops (queryPorts_of_mem state.perf now hmem)).trans rfl
    · exact congrArg PerfPortUnit.drops (queryPorts_of_notMem state.perf now hmem)

theorem dropsAsLogged_pipelineSpin {env : Env W G} {fuel : Nat} {m m' : Machine W G}
    (hm : DropsAsLogged m) (hspin : pipelineSpin env fuel m = .ok m') : DropsAsLogged m' := by
  obtain ⟨polled, hloop, hend⟩ := bind_eq_ok_iff.mp hspin
  have hstart : DropsAsLogged { m with world := (env.timeUs m.world).2, hasLoad := false } := hm
  have hpolled := dropsAsLogged_pollInvariant.polled hstart hloop
  cases hend
  intro id
  rw [perfShow_drops]
  exact hpolled id

/-- In every run of the gateway the ports have counted what its log shows. -/
theorem dropsAsLogged_run {env : Env W G} {p : Pipeline W} {world : W} {parser : G}
    {actions : List Action} {m : Machine W G}
    (hrun : runActions env (Machine.start p world parser) actions = .ok m) : DropsAsLogged m := by
  refine foldlM_invariant ?_ (fun _ => rfl) hrun
  intro m action m' _ hm hact
  cases action with
  | spin fuel => exact dropsAsLogged_pipelineSpin hm hact
  | setPolicyEnabled enabled =>
      cases hact
      exact hm
  | setTransformEnabled enabled =>
      cases hact
      exact hm

/-- The same condition for the rounds of the gateway. -/
theorem run_dropCount_eq_skipped_iff {env : Env W G} {p : Pipeline W} {world : W} {parser : G}
    {actions : List Action} {m : Machine W G}
    (hrun : runActions env (Machine.start p world parser) actions = .ok m)
    {id : Fin maxPerfPortUnits} {seqs : List Nat}
    (hseqs : m.log.filterMap (Turn.seqAt id) = seqs.map UInt8.ofNat)
    (hsteps : InSteps 256 seqs) :
    (m.perf.perf.portUnits .source id).dropCount.toNat = skipped seqs ↔
      (∀ first ∈ seqs.head?, first % 256 = 1) ∧ skipped seqs < 2 ^ 64 := by
  have hdrops := congrArg Prod.snd (dropsAsLogged_run hrun id)
  rw [hseqs] at hdrops
  rw [← foldl_countDrop_eq_iff hsteps, ← hdrops]
  rfl

end SecureGateway
