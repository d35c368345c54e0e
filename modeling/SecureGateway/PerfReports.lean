import Mathlib.Algebra.Order.Ring.Nat
import Mathlib.Data.List.Nodup
import Mathlib.Order.Interval.Finset.Nat
import SecureGateway.Mediation
import SecureGateway.Policies

/-!
# Performance reports

Every report of `perf_show` covers the time since the one before, and what it counts
is what was counted since. The load of a window is made of intervals that do not overlap
and lie within it.

## Implementation notes

The clock is a view of the world that no callback turns back. Sums of reported counts are
natural numbers; the counters they are compared with are 64-bit.
-/

namespace SecureGateway

open Library

variable {W G : Type}

/-! ### One report -/

/-- What a query leaves of a port. -/
def PerfPortUnit.queried (u : PerfPortUnit) (now : BitVec 64) : PerfPortUnit :=
  { u with
    lastQuery := now
    lastSuccCount := u.succCount
    lastDropCount := u.dropCount
    lastSuccBytes := u.succBytes }

/-- The line a report has about a port. -/
def perfPortLine (perf : Perf) (now : BitVec 64)
    (port : PerfPortUnitType × Fin maxPerfPortUnits) : PerfPortLine where
  unit := port.1
  id := port.2
  window := (perfPortUnitQuery perf port.1 port.2 now).1
  totalSucc := (perf.portUnits port.1 port.2).succCount
  totalDrop := (perf.portUnits port.1 port.2).dropCount

/-- The ports after a report has queried some of them. -/
def Perf.queryPorts (perf : Perf) (now : BitVec 64)
    (ports : List (PerfPortUnitType × Fin maxPerfPortUnits)) : Perf :=
  { perf with portUnits := fun unit id =>
      if (unit, id) ∈ ports then (perf.portUnits unit id).queried now
      else perf.portUnits unit id }

theorem perfShowPort_eq (now : BitVec 64) (perf : Perf) (lines : List PerfPortLine)
    (port : PerfPortUnitType × Fin maxPerfPortUnits) :
    perfShowPort now (perf, lines) port =
      (perf.queryPorts now [port], lines ++ [perfPortLine perf now port]) := by
  have hports : perf.setPortUnit port.1 port.2 ((perf.portUnits port.1 port.2).queried now) =
      perf.queryPorts now [port] := by
    rw [Perf.setPortUnit, Perf.queryPorts, Perf.mk.injEq]
    refine ⟨?_, rfl⟩
    funext unit id
    by_cases h : (unit, id) = port
    · subst h
      simp
    · rw [if_neg (by simpa [Prod.ext_iff] using h), if_neg (by simpa using h)]
  rw [← hports]
  simp [perfShowPort, perfPortUnitQuery, perfPortLine, setPortUnit_portUnits,
    PerfPortUnit.queried]

theorem queryPorts_of_notMem (perf : Perf) (now : BitVec 64)
    {ports : List (PerfPortUnitType × Fin maxPerfPortUnits)}
    {port : PerfPortUnitType × Fin maxPerfPortUnits} (h : port ∉ ports) :
    (perf.queryPorts now ports).portUnits port.1 port.2 = perf.portUnits port.1 port.2 :=
  if_neg h

theorem queryPorts_of_mem (perf : Perf) (now : BitVec 64)
    {ports : List (PerfPortUnitType × Fin maxPerfPortUnits)}
    {port : PerfPortUnitType × Fin maxPerfPortUnits} (h : port ∈ ports) :
    (perf.queryPorts now ports).portUnits port.1 port.2 =
      (perf.portUnits port.1 port.2).queried now :=
  if_pos h

theorem queryPorts_cons (perf : Perf) (now : BitVec 64)
    {ports : List (PerfPortUnitType × Fin maxPerfPortUnits)}
    {port : PerfPortUnitType × Fin maxPerfPortUnits} (h : port ∉ ports) :
    (perf.queryPorts now [port]).queryPorts now ports = perf.queryPorts now (port :: ports) := by
  rw [Perf.queryPorts, Perf.queryPorts, Perf.queryPorts, Perf.mk.injEq]
  refine ⟨?_, rfl⟩
  funext unit id
  by_cases hport : (unit, id) = port
  · subst hport
    simp [h]
  · simp [hport]

/-- A pass over distinct ports shows each as it was before the pass. -/
theorem foldl_perfShowPort (now : BitVec 64)
    {ports : List (PerfPortUnitType × Fin maxPerfPortUnits)} (hnodup : ports.Nodup)
    (perf : Perf) (lines : List PerfPortLine) :
    ports.foldl (perfShowPort now) (perf, lines) =
      (perf.queryPorts now ports, lines ++ ports.map (perfPortLine perf now)) := by
  induction ports generalizing perf lines with
  | nil => simp [Perf.queryPorts]
  | cons port ports ih =>
      obtain ⟨hnot, hrest⟩ := List.nodup_cons.mp hnodup
      have hlines : ports.map (perfPortLine (perf.queryPorts now [port]) now) =
          ports.map (perfPortLine perf now) := by
        apply List.map_congr_left
        intro port' hmem
        have hne : port' ∉ [port] := by
          rw [List.mem_singleton]
          rintro rfl
          exact hnot hmem
        simp only [perfPortLine, perfPortUnitQuery, queryPorts_of_notMem perf now hne]
      rw [List.foldl_cons, perfShowPort_eq, ih hrest, hlines, queryPorts_cons perf now hnot]
      simp

theorem perfSelected_nodup : perfSelected.Nodup := by decide

/-- The report printed at `now`. -/
def perfReport (perf : Perf) (now : BitVec 64) : PerfReport where
  ports := perfSelected.map (perfPortLine perf now)
  exec := (perfExecUnitQuery perf now).1

/-- `perf_show` either waits or prints and starts new windows. -/
theorem perfShow_eq (now : BitVec 64) (state : PerfState) :
    perfShow now state =
      if now - state.last < 5000000#64 then state
      else
        { perf := (perfExecUnitQuery (state.perf.queryPorts now perfSelected) now).2
          last := now
          reports := state.reports ++ [perfReport state.perf now] } := by
  unfold perfShow
  rw [foldl_perfShowPort now perfSelected_nodup]
  rfl

/-! ### What the reports add up to -/

/-- The port a line is about. -/
def PerfPortLine.port (line : PerfPortLine) : PerfPortUnitType × Fin maxPerfPortUnits :=
  (line.unit, line.id)

/-- The deltas of one count reported so far about a port. -/
def reportedPort (count : PerfPortUnitResult → BitVec 64)
    (port : PerfPortUnitType × Fin maxPerfPortUnits) (reports : List PerfReport) : Nat :=
  (((reports.flatMap PerfReport.ports).filter fun line => line.port = port).map
    fun line => (count line.window).toNat).sum

/-- The deltas of one count reported so far about the execution unit. -/
def reportedExec (count : PerfExecUnitResult → BitVec 64) (reports : List PerfReport) : Nat :=
  (reports.map fun r => (count r.exec).toNat).sum

theorem filter_port_perfReport (perf : Perf) (now : BitVec 64)
    (port : PerfPortUnitType × Fin maxPerfPortUnits) :
    ((perfReport perf now).ports.filter fun line => line.port = port) =
      if port ∈ perfSelected then [perfPortLine perf now port] else [] := by
  have hfilter : (perfSelected.filter fun p => p = port) =
      if port ∈ perfSelected then [port] else [] := by
    rw [List.filter_eq]
    split
    · rename_i hmem
      rw [List.count_eq_one_of_mem perfSelected_nodup hmem]
      rfl
    · rename_i hnot
      rw [List.count_eq_zero_of_not_mem hnot]
      rfl
  have hport : ((fun line : PerfPortLine => decide (line.port = port)) ∘ perfPortLine perf now) =
      fun p => decide (p = port) := rfl
  rw [perfReport, List.filter_map, hport, hfilter]
  split <;> rfl

theorem reportedPort_append (count : PerfPortUnitResult → BitVec 64)
    (port : PerfPortUnitType × Fin maxPerfPortUnits) (reports : List PerfReport) (perf : Perf)
    (now : BitVec 64) :
    reportedPort count port (reports ++ [perfReport perf now]) =
      reportedPort count port reports +
        if port ∈ perfSelected then (count (perfPortLine perf now port).window).toNat else 0 := by
  simp only [reportedPort, List.flatMap_append, List.flatMap_singleton, List.filter_append,
    List.map_append, List.sum_append, filter_port_perfReport]
  split <;> simp

theorem reportedExec_append (count : PerfExecUnitResult → BitVec 64) (reports : List PerfReport)
    (r : PerfReport) :
    reportedExec count (reports ++ [r]) = reportedExec count reports + (count r.exec).toNat := by
  simp [reportedExec]

/-- A sum that has reached the last counter reaches the counter with the next delta. -/
theorem tally_mod {sum : Nat} {count last : BitVec 64} (h : sum % 2 ^ 64 = last.toNat) :
    (sum + (count - last).toNat) % 2 ^ 64 = count.toNat := by
  bv_omega

/-! ### What is true of the counters at any time -/

/-- A port's counters: what was reported is what had been counted at the last query, and of
the messages since then at most 255 were dropped for each received. -/
structure PortTally (port : PerfPortUnitType × Fin maxPerfPortUnits) (received : Nat)
    (reports : List PerfReport) (u : PerfPortUnit) : Prop where
  succ : reportedPort (·.succCount) port reports % 2 ^ 64 = u.lastSuccCount.toNat
  drop : reportedPort (·.dropCount) port reports % 2 ^ 64 = u.lastDropCount.toNat
  bytes : reportedPort (·.succBytes) port reports % 2 ^ 64 = u.lastSuccBytes.toNat
  window : ∃ n d, u.succCount = u.lastSuccCount + BitVec.ofNat 64 n ∧
    u.dropCount = u.lastDropCount + BitVec.ofNat 64 d ∧ d ≤ 255 * n ∧
    (port.1 = .source → n ≤ received) ∧ (port.1 = .sink → d = 0)

/-- The execution unit's counters at the time `t`: the load of a window fits into it. -/
structure ExecTally (t : BitVec 64) (reports : List PerfReport) (e : PerfExecUnit) : Prop where
  count : reportedExec (·.count) reports % 2 ^ 64 = e.lastTotal.toNat
  loadUs : reportedExec (·.loadUs) reports % 2 ^ 64 = e.lastLoadUs.toNat
  load_le : e.loadUs.toNat ≤ t.toNat
  lastLoad_le : e.lastLoadUs.toNat ≤ e.loadUs.toNat
  window : e.lastQuery.toNat + e.loadUs.toNat ≤ t.toNat + e.lastLoadUs.toNat

/-- The accounting at the time `t`, after `received` messages. -/
structure PerfState.Tallied (received : Nat) (t : BitVec 64) (state : PerfState) : Prop where
  last_le : state.last ≤ t
  portQuery : ∀ unit id, (state.perf.portUnits unit id).lastQuery ≤ state.last
  execQuery : state.perf.execUnit.lastQuery ≤ state.last
  ports : ∀ unit id, PortTally (unit, id) received state.reports (state.perf.portUnits unit id)
  exec : ExecTally t state.reports state.perf.execUnit

theorem PortTally.mono {port : PerfPortUnitType × Fin maxPerfPortUnits} {received received' : Nat}
    {reports : List PerfReport} {u : PerfPortUnit} (h : PortTally port received reports u)
    (hle : received ≤ received') : PortTally port received' reports u := by
  refine ⟨h.succ, h.drop, h.bytes, ?_⟩
  obtain ⟨n, d, hn, hd, hbound, hsource, hsink⟩ := h.window
  exact ⟨n, d, hn, hd, hbound, fun hunit => Nat.le_trans (hsource hunit) hle, hsink⟩

theorem perfDropCount_bounds (msg : Message) (prevSeq : UInt8) :
    0 ≤ perfDropCount msg prevSeq ∧ perfDropCount msg prevSeq ≤ 255 := by
  have hseq := msg.msg.seq.toNat_lt
  have hprev := prevSeq.toNat_lt
  unfold perfDropCount
  split
  · dsimp only
    split <;> omega
  · omega

/-- A fresh accounting, begun no earlier than the report before. -/
theorem tallied_perfInit {last t : BitVec 64} (h : last ≤ t) :
    PerfState.Tallied 0 t ⟨perfInit, last, []⟩ := by
  have hzero : (0 : BitVec 64) ≤ last := Nat.zero_le _
  refine ⟨h, fun _ _ => hzero, hzero, ?_, ?_⟩
  · intro unit id
    exact ⟨rfl, rfl, rfl, 0, 0, rfl, rfl, Nat.le_refl _, fun _ => Nat.le_refl _, fun _ => rfl⟩
  · exact ⟨rfl, rfl, Nat.zero_le _, Nat.le_refl _, Nat.zero_le _⟩

/-- Messages and time go on without a report. -/
theorem PerfState.Tallied.mono {received received' : Nat} {t t' : BitVec 64} {state : PerfState}
    (h : state.Tallied received t) (hle : received ≤ received') (ht : t ≤ t') :
    state.Tallied received' t' := by
  have ht : t.toNat ≤ t'.toNat := ht
  refine ⟨Nat.le_trans h.last_le ht, h.portQuery, h.execQuery,
    fun unit id => (h.ports unit id).mono hle, ?_⟩
  exact ⟨h.exec.count, h.exec.loadUs, Nat.le_trans h.exec.load_le ht, h.exec.lastLoad_le,
    Nat.le_trans h.exec.window (Nat.add_le_add_right ht _)⟩

/-- The counters of one port are replaced; its queries are not touched. -/
theorem PerfState.Tallied.setPortUnit {received : Nat} {t : BitVec 64} {state : PerfState}
    (h : state.Tallied received t) {unit : PerfPortUnitType} {id : Fin maxPerfPortUnits}
    {u : PerfPortUnit} (hquery : u.lastQuery = (state.perf.portUnits unit id).lastQuery)
    (hu : PortTally (unit, id) received state.reports u) :
    PerfState.Tallied received t { state with perf := state.perf.setPortUnit unit id u } := by
  refine ⟨h.last_le, ?_, h.execQuery, ?_, h.exec⟩
  · intro unit' id'
    rw [setPortUnit_portUnits]
    split
    · rw [hquery]
      exact h.portQuery unit id
    · exact h.portQuery unit' id'
  · intro unit' id'
    rw [setPortUnit_portUnits]
    split
    · rename_i heq
      obtain ⟨rfl, rfl⟩ := heq
      exact hu
    · exact h.ports unit' id'

/-- A message received on a source is counted. -/
theorem PerfState.Tallied.receive {received : Nat} {t : BitVec 64} {state : PerfState}
    (h : state.Tallied received t) {id : Nat} {msg : Message} {perf : Perf}
    (hupdate : perfPortUnitUpdate state.perf .source id msg = .ok perf) :
    PerfState.Tallied (received + 1) t { state with perf := perf } := by
  simp only [perfPortUnitUpdate] at hupdate
  split at hupdate
  · split at hupdate
    · rename_i hlt
      cases hupdate
      obtain ⟨hsucc, hdrop, hbytes, n, d, hn, hd, hbound, hsource, hsink⟩ :=
        h.ports .source ⟨id, hlt⟩
      obtain ⟨hnonneg, hle⟩ :=
        perfDropCount_bounds msg (state.perf.portUnits .source ⟨id, hlt⟩).prevSeq
      obtain ⟨k, hk⟩ := Int.eq_ofNat_of_zero_le hnonneg
      refine (h.mono (Nat.le_succ received) (Nat.le_refl _)).setPortUnit rfl
        ⟨hsucc, hdrop, hbytes, n + 1, d + k, ?_, ?_, ?_, ?_, ?_⟩
      · rw [hn, BitVec.ofNat_add, BitVec.add_assoc]
        rfl
      · rw [hd, hk, BitVec.ofNat_add, BitVec.add_assoc]
        rfl
      · omega
      · intro hunit
        exact Nat.succ_le_succ (hsource hunit)
      · intro hunit
        cases hunit
    · cases hupdate
  · cases hupdate

/-- A message handed to a sink is counted. -/
theorem PerfState.Tallied.handOver {received : Nat} {t : BitVec 64} {state : PerfState}
    (h : state.Tallied received t) {id : Nat} {msg : Message} {perf : Perf}
    (hupdate : perfPortUnitUpdate state.perf .sink id msg = .ok perf) :
    PerfState.Tallied received t { state with perf := perf } := by
  simp only [perfPortUnitUpdate] at hupdate
  split at hupdate
  · split at hupdate
    · rename_i hlt
      cases hupdate
      obtain ⟨hsucc, hdrop, hbytes, n, d, hn, hd, hbound, hsource, hsink⟩ := h.ports .sink ⟨id, hlt⟩
      refine h.setPortUnit rfl ⟨hsucc, hdrop, hbytes, n + 1, d, ?_, hd, ?_, ?_, hsink⟩
      · rw [hn, BitVec.ofNat_add, BitVec.add_assoc]
        rfl
      · omega
      · intro hunit
        cases hunit
    · cases hupdate
  · cases hupdate

/-- The time of a round is added to the load of the round's window. -/
theorem PerfState.Tallied.execUpdate {received : Nat} {tstart tend : BitVec 64}
    {state : PerfState} (h : state.Tallied received tstart) (hle : tstart ≤ tend)
    (hasLoad : Bool) :
    PerfState.Tallied received tend
      { state with perf := perfExecUnitUpdate state.perf (tend - tstart) hasLoad } := by
  refine ⟨Nat.le_trans h.last_le hle, h.portQuery, h.execQuery, h.ports, ?_⟩
  obtain ⟨hcount, hload, hloadle, hlast, hwindow⟩ := h.exec
  have hle : tstart.toNat ≤ tend.toNat := hle
  have hadd : (state.perf.execUnit.loadUs + (tend - tstart)).toNat =
      state.perf.execUnit.loadUs.toNat + (tend.toNat - tstart.toNat) := by
    bv_omega
  cases hasLoad with
  | false =>
      refine ⟨hcount, hload, ?_, hlast, ?_⟩
      · exact Nat.le_trans hloadle hle
      · exact Nat.le_trans hwindow (Nat.add_le_add_right hle _)
  | true =>
      refine ⟨hcount, hload, ?_, ?_, ?_⟩
      all_goals
        simp only [perfExecUnitUpdate, if_true, hadd]
        omega

/-! ### A report is sound -/

/-- The whole percents of the printed loss. -/
def perfLossPercent (window : PerfPortUnitResult) : BitVec 64 :=
  let totalCount := window.succCount + window.dropCount
  if totalCount = 0 then 0 else window.dropCount * 100 / totalCount

/-- The two digits printed behind the point. -/
def perfLossHundredths (window : PerfPortUnitResult) : BitVec 64 :=
  let totalCount := window.succCount + window.dropCount
  if totalCount = 0 then 0 else window.dropCount * 10000 / totalCount % 100

/-- What holds of the report `r` in the state it left, `received` messages after the
start. Sums are compared with 64-bit totals. -/
structure ReportSound (received : Nat) (state : PerfState) (r : PerfReport) : Prop where
  selected : r.ports.map PerfPortLine.port = perfSelected
  portDuration : ∀ line ∈ r.ports, 5000000#64 ≤ line.window.duration
  execDuration : 5000000#64 ≤ r.exec.duration
  load : r.exec.loadUs ≤ r.exec.duration
  loss : ∀ line ∈ r.ports, received < 2 ^ 64 →
    line.window.succCount.toNat + line.window.dropCount.toNat < 2 ^ 64 →
    100 * (perfLossPercent line.window).toNat + (perfLossHundredths line.window).toNat ≤ 10000
  totalSucc : ∀ line ∈ r.ports,
    line.totalSucc = (state.perf.portUnits line.unit line.id).succCount ∧
    reportedPort (·.succCount) line.port state.reports % 2 ^ 64 = line.totalSucc.toNat
  totalDrop : ∀ line ∈ r.ports,
    line.totalDrop = (state.perf.portUnits line.unit line.id).dropCount ∧
    reportedPort (·.dropCount) line.port state.reports % 2 ^ 64 = line.totalDrop.toNat
  totalBytes : ∀ line ∈ r.ports,
    reportedPort (·.succBytes) line.port state.reports % 2 ^ 64 =
      (state.perf.portUnits line.unit line.id).succBytes.toNat
  totalRounds :
    reportedExec (·.count) state.reports % 2 ^ 64 = state.perf.execUnit.total.toNat
  totalLoad :
    reportedExec (·.loadUs) state.reports % 2 ^ 64 = state.perf.execUnit.loadUs.toNat

/-- A window in which a drop comes with a reception loses less than everything. -/
theorem perfLoss_le {window : PerfPortUnitResult}
    (hreceived : window.dropCount ≠ 0 → window.succCount ≠ 0)
    (hlt : window.succCount.toNat + window.dropCount.toNat < 2 ^ 64) :
    100 * (perfLossPercent window).toNat + (perfLossHundredths window).toNat ≤ 10000 := by
  have hsum : (window.succCount + window.dropCount).toNat =
      window.succCount.toNat + window.dropCount.toNat := by
    rw [BitVec.toNat_add, Nat.mod_eq_of_lt hlt]
  by_cases hzero : window.succCount + window.dropCount = 0
  · simp [perfLossPercent, perfLossHundredths, hzero]
  · have hpercent : (perfLossPercent window).toNat ≤ 99 := by
      simp only [perfLossPercent, if_neg hzero, BitVec.toNat_udiv, BitVec.toNat_mul, hsum]
      apply Nat.lt_succ_iff.mp
      apply Nat.lt_of_le_of_lt (Nat.div_le_div_right (Nat.mod_le _ _))
      by_cases hdrop : window.dropCount = 0
      · simp [hdrop]
      · have hpos : 0 < window.succCount.toNat :=
          Nat.pos_of_ne_zero fun h => hreceived hdrop (BitVec.eq_of_toNat_eq h)
        have hfactor : (100 : BitVec 64).toNat = 100 := rfl
        rw [Nat.div_lt_iff_lt_mul (by omega), hfactor]
        omega
    have hhundredths : (perfLossHundredths window).toNat < 100 := by
      simp only [perfLossHundredths, if_neg hzero, BitVec.toNat_umod]
      exact Nat.mod_lt _ (by decide)
    omega

/-- A port whose messages did not wrap shows a drop only next to a reception. -/
theorem PortTally.succ_ne_zero {port : PerfPortUnitType × Fin maxPerfPortUnits} {received : Nat}
    {reports : List PerfReport} {u : PerfPortUnit} (h : PortTally port received reports u)
    (hlt : received < 2 ^ 64) (hdrop : u.dropCount - u.lastDropCount ≠ 0) :
    u.succCount - u.lastSuccCount ≠ 0 := by
  obtain ⟨n, d, hn, hd, hbound, hsource, hsink⟩ := h.window
  have hpos : d ≠ 0 := by
    rintro rfl
    simp [hd] at hdrop
  have hunit : port.1 = .source := by
    cases hport : port.1 with
    | source => rfl
    | sink => exact absurd (hsink hport) hpos
  have hle := hsource hunit
  intro hzero
  bv_omega

/-- With the report that shows what a counter has grown by, the sum reaches the counter. -/
theorem reportedPort_mod_of_mem {count : PerfPortUnitResult → BitVec 64}
    {port : PerfPortUnitType × Fin maxPerfPortUnits} {reports : List PerfReport} {perf : Perf}
    {now counter last : BitVec 64} (hmem : port ∈ perfSelected)
    (hdelta : count (perfPortLine perf now port).window = counter - last)
    (h : reportedPort count port reports % 2 ^ 64 = last.toNat) :
    reportedPort count port (reports ++ [perfReport perf now]) % 2 ^ 64 = counter.toNat := by
  rw [reportedPort_append, if_pos hmem, hdelta]
  exact tally_mod h

theorem reportedPort_of_notMem {port : PerfPortUnitType × Fin maxPerfPortUnits}
    (hnot : port ∉ perfSelected) (count : PerfPortUnitResult → BitVec 64)
    (reports : List PerfReport) (perf : Perf) (now : BitVec 64) :
    reportedPort count port (reports ++ [perfReport perf now]) =
      reportedPort count port reports := by
  rw [reportedPort_append, if_neg hnot, Nat.add_zero]

/-- Once queried, a port starts a new window. -/
theorem PortTally.queried {port : PerfPortUnitType × Fin maxPerfPortUnits} {received : Nat}
    {reports : List PerfReport} {perf : Perf} (now : BitVec 64)
    (h : PortTally port received reports (perf.portUnits port.1 port.2))
    (hmem : port ∈ perfSelected) :
    PortTally port received (reports ++ [perfReport perf now])
      ((perf.portUnits port.1 port.2).queried now) := by
  refine ⟨?_, ?_, ?_, 0, 0, ?_, ?_, Nat.le_refl _, fun _ => Nat.zero_le _, fun _ => rfl⟩
  · exact reportedPort_mod_of_mem hmem rfl h.succ
  · exact reportedPort_mod_of_mem hmem rfl h.drop
  · exact reportedPort_mod_of_mem hmem rfl h.bytes
  · exact (BitVec.add_zero _).symm
  · exact (BitVec.add_zero _).symm

theorem PortTally.notQueried {port : PerfPortUnitType × Fin maxPerfPortUnits} {received : Nat}
    {reports : List PerfReport} {u : PerfPortUnit} (perf : Perf) (now : BitVec 64)
    (h : PortTally port received reports u) (hnot : port ∉ perfSelected) :
    PortTally port received (reports ++ [perfReport perf now]) u := by
  refine ⟨?_, ?_, ?_, h.window⟩
  · rw [reportedPort_of_notMem hnot]
    exact h.succ
  · rw [reportedPort_of_notMem hnot]
    exact h.drop
  · rw [reportedPort_of_notMem hnot]
    exact h.bytes

theorem ExecTally.queried {perf : Perf} {reports : List PerfReport} {now : BitVec 64}
    (h : ExecTally now reports perf.execUnit) :
    ExecTally now (reports ++ [perfReport perf now]) (perfExecUnitQuery perf now).2.execUnit := by
  refine ⟨?_, ?_, h.load_le, Nat.le_refl _, Nat.le_refl _⟩
  · rw [reportedExec_append]
    exact tally_mod h.count
  · rw [reportedExec_append]
    exact tally_mod h.loadUs

/-- The state `perf_show` leaves when it prints. -/
def PerfState.printed (state : PerfState) (now : BitVec 64) : PerfState where
  perf := (perfExecUnitQuery (state.perf.queryPorts now perfSelected) now).2
  last := now
  reports := state.reports ++ [perfReport state.perf now]

theorem PerfState.printed_portUnits (state : PerfState) (now : BitVec 64)
    (unit : PerfPortUnitType) (id : Fin maxPerfPortUnits) :
    (state.printed now).perf.portUnits unit id =
      if (unit, id) ∈ perfSelected then (state.perf.portUnits unit id).queried now
      else state.perf.portUnits unit id := rfl

theorem PerfState.Tallied.printed {received : Nat} {now : BitVec 64} {state : PerfState}
    (h : state.Tallied received now) : (state.printed now).Tallied received now := by
  refine ⟨Nat.le_refl _, ?_, Nat.le_refl _, ?_, h.exec.queried⟩
  · intro unit id
    rw [PerfState.printed_portUnits]
    split
    · exact Nat.le_refl _
    · exact Nat.le_trans (h.portQuery unit id) h.last_le
  · intro unit id
    rw [PerfState.printed_portUnits]
    split
    · rename_i hmem
      exact PortTally.queried now (h.ports unit id) hmem
    · rename_i hnot
      exact PortTally.notQueried state.perf now (h.ports unit id) hnot

/-- A window that began no later than the last report lasts as long as `perf_show` waits. -/
theorem duration_ge {now last query : BitVec 64} (hlast : last ≤ now) (hquery : query ≤ last)
    (hwait : ¬ now - last < 5000000#64) : 5000000#64 ≤ now - query := by
  bv_omega

theorem PerfState.Tallied.reportSound {received : Nat} {now : BitVec 64} {state : PerfState}
    (h : state.Tallied received now) (hwait : ¬ now - state.last < 5000000#64) :
    ReportSound received (state.printed now) (perfReport state.perf now) := by
  have hline : ∀ line ∈ (perfReport state.perf now).ports,
      ∃ port ∈ perfSelected, perfPortLine state.perf now port = line := fun line hmem =>
    List.mem_map.mp hmem
  have hunit : ∀ port ∈ perfSelected, (state.printed now).perf.portUnits port.1 port.2 =
      (state.perf.portUnits port.1 port.2).queried now := fun port hmem =>
    (state.printed_portUnits now port.1 port.2).trans (if_pos hmem)
  have hprinted := h.printed
  refine ⟨?_, ?_, ?_, ?_, ?_, ?_, ?_, ?_, hprinted.exec.count, hprinted.exec.loadUs⟩
  · rw [perfReport, List.map_map]
    exact List.map_id _
  · intro line hmem
    obtain ⟨port, -, rfl⟩ := hline line hmem
    exact duration_ge h.last_le (h.portQuery port.1 port.2) hwait
  · exact duration_ge h.last_le h.execQuery hwait
  · have hexec := h.exec
    have hquery := h.execQuery
    have hlast := h.last_le
    obtain ⟨-, -, hload, hlastLoad, hwindow⟩ := hexec
    simp only [perfReport, perfExecUnitQuery]
    bv_omega
  · intro line hmem hreceived hlt
    obtain ⟨port, -, rfl⟩ := hline line hmem
    exact perfLoss_le ((h.ports port.1 port.2).succ_ne_zero hreceived) hlt
  · intro line hmem
    obtain ⟨port, hsel, rfl⟩ := hline line hmem
    refine ⟨(congrArg PerfPortUnit.succCount (hunit port hsel)).symm, ?_⟩
    exact reportedPort_mod_of_mem hsel rfl (h.ports port.1 port.2).succ
  · intro line hmem
    obtain ⟨port, hsel, rfl⟩ := hline line hmem
    refine ⟨(congrArg PerfPortUnit.dropCount (hunit port hsel)).symm, ?_⟩
    exact reportedPort_mod_of_mem hsel rfl (h.ports port.1 port.2).drop
  · intro line hmem
    obtain ⟨port, hsel, rfl⟩ := hline line hmem
    refine (reportedPort_mod_of_mem hsel rfl (h.ports port.1 port.2).bytes).trans ?_
    exact (congrArg (fun u : PerfPortUnit => u.succBytes.toNat) (hunit port hsel)).symm

/-- What a call of `perf_show` does to the reports. -/
theorem PerfState.Tallied.perfShow {received : Nat} {now : BitVec 64} {state : PerfState}
    (h : state.Tallied received now) :
    (perfShow now state).Tallied received now ∧
      ((perfShow now state).reports = state.reports ∨
        ∃ r, (perfShow now state).reports = state.reports ++ [r] ∧
          ReportSound received (perfShow now state) r) := by
  by_cases hwait : now - state.last < 5000000#64
  · rw [perfShow_eq, if_pos hwait]
    exact ⟨h, Or.inl rfl⟩
  · rw [perfShow_eq, if_neg hwait]
    exact ⟨h.printed, Or.inr ⟨_, rfl, h.reportSound hwait⟩⟩

/-! ### Rounds under a clock that does not go back -/

/-- `time` reads the clock off the world: no callback of the pipeline turns it back. -/
structure ClockRuns (env : Env W G) (p : Pipeline W) (time : W → BitVec 64) : Prop where
  reads : ∀ world, (env.timeUs world).1 = time (env.timeUs world).2
  timeUs : ∀ world, time world ≤ time (env.timeUs world).2
  hasMore : ∀ i f, (p.sources i).hasMore = some f → ∀ world, time world ≤ time (f world).2
  readByte : ∀ i f, (p.sources i).readByte = some f → ∀ world, time world ≤ time (f world).2
  route : ∀ k f, (p.sinks k).route = some f → ∀ msg world, time world ≤ time (f msg world).2

/-- The messages completed so far. -/
def completed (log : List Turn) : Nat := log.countP fun turn => turn.delivery.isSome

/-- What holds within a round that began at `tstart`. -/
structure InRound (p : Pipeline W) (time : W → BitVec 64) (tstart : BitVec 64)
    (reports : List PerfReport) (m : Machine W G) : Prop where
  setup : p.SameSetup m.pipeline
  clock : tstart ≤ time m.world
  tallied : m.perf.Tallied (completed m.log) tstart
  reports : m.perf.reports = reports

section Rounds

variable {env : Env W G} {p : Pipeline W} {time : W → BitVec 64} (hclock : ClockRuns env p time)

include hclock

theorem ClockRuns.sinksKeep {q : Pipeline W} (hsetup : p.SameSetup q) (received : Nat)
    (tstart : BitVec 64) (state : PerfState) :
    q.SinksKeep fun world perf => tstart ≤ time world ∧
      PerfState.Tallied received tstart { state with perf := perf } where
  route k r hr msg world perf := by
    rintro ⟨htime, htallied⟩
    rw [hsetup.sinks] at hr
    exact ⟨Nat.le_trans htime (hclock.route k r hr msg world), htallied⟩
  count world perf id msg perf' := by
    rintro ⟨htime, htallied⟩ hupdate
    exact ⟨htime, htallied.handOver hupdate⟩

theorem ClockRuns.inRound (tstart : BitVec 64) (reports : List PerfReport) :
    PollInvariant env (InRound (G := G) p time tstart reports) where
  hasMore m i f hm hf := by
    obtain ⟨cur, hcur⟩ := hm.setup.source i
    rw [hcur] at hf
    exact ⟨hm.setup, Nat.le_trans hm.clock (hclock.hasMore i f hf m.world), hm.tallied, hm.reports⟩
  readByte m i f hm hf := by
    obtain ⟨cur, hcur⟩ := hm.setup.source i
    rw [hcur] at hf
    exact ⟨hm.setup, Nat.le_trans hm.clock (hclock.readByte i f hf m.world), hm.tallied, hm.reports⟩
  byte m i b m' hm _ hbyte := by
    rcases spinByte_cases hbyte with ⟨d, r, -, hdeliver, rfl⟩ | ⟨-, rfl⟩
    · obtain ⟨perf, hperf, hpush, -⟩ := deliver_eq_ok_iff.mp hdeliver
      have hkeep := hclock.sinksKeep hm.setup (completed m.log + 1) tstart m.perf
      obtain ⟨htime, htallied⟩ := pipelinePush_keeps hkeep
        ⟨hm.clock, hm.tallied.receive hperf⟩ hpush
      refine ⟨hm.setup.setCur i r.msg, htime, ?_, hm.reports⟩
      rw [completed, List.countP_append]
      exact htallied
    · refine ⟨hm.setup.setCur i _, hm.clock, ?_, hm.reports⟩
      rw [completed, List.countP_append]
      exact hm.tallied

/-- What holds between rounds. -/
structure BetweenRounds (p : Pipeline W) (time : W → BitVec 64) (m : Machine W G) : Prop where
  setup : p.SameSetup m.pipeline
  tallied : m.perf.Tallied (completed m.log) (time m.world)

/-- A round prints at most one report, and a sound one. -/
theorem ClockRuns.pipelineSpin {fuel : Nat} {m m' : Machine W G} (hm : BetweenRounds p time m)
    (hspin : SecureGateway.pipelineSpin env fuel m = .ok m') :
    BetweenRounds p time m' ∧
      (m'.perf.reports = m.perf.reports ∨ ∃ r, m'.perf.reports = m.perf.reports ++ [r] ∧
        ReportSound (completed m'.log) m'.perf r) := by
  obtain ⟨polled, hloop, hend⟩ := bind_eq_ok_iff.mp hspin
  have hstart : InRound p time (time (env.timeUs m.world).2) m.perf.reports
      { m with world := (env.timeUs m.world).2, hasLoad := false } :=
    ⟨hm.setup, Nat.le_refl _, hm.tallied.mono (Nat.le_refl _) (hclock.timeUs m.world), rfl⟩
  have hpolled := (hclock.inRound _ m.perf.reports).polled hstart hloop
  -- the three readings of the clock, in order
  have hend₁ : (env.timeUs m.world).1 ≤ (env.timeUs polled.world).1 := by
    rw [hclock.reads, hclock.reads]
    exact Nat.le_trans hpolled.clock (hclock.timeUs polled.world)
  have hend₂ : (env.timeUs polled.world).1 ≤ (env.timeUs (env.timeUs polled.world).2).1 := by
    rw [hclock.reads, hclock.reads]
    exact hclock.timeUs _
  have htallied := hpolled.tallied
  rw [← hclock.reads] at htallied
  obtain ⟨hshown, hreports⟩ :=
    ((htallied.execUpdate hend₁ polled.hasLoad).mono (Nat.le_refl _) hend₂).perfShow
  rw [← hpolled.reports]
  cases hend
  refine ⟨⟨hpolled.setup, ?_⟩, hreports⟩
  exact hshown.mono (Nat.le_refl _) (Nat.le_of_eq (congrArg BitVec.toNat (hclock.reads _)))

theorem ClockRuns.action {action : Action} {m m' : Machine W G} (hm : BetweenRounds p time m)
    (hact : action.apply env m = .ok m') : BetweenRounds p time m' := by
  cases action with
  | spin fuel => exact (hclock.pipelineSpin hm hact).1
  | setPolicyEnabled enabled =>
      cases hact
      exact ⟨⟨hm.setup.source, hm.setup.sinks, hm.setup.routeTable, hm.setup.policies⟩, hm.tallied⟩
  | setTransformEnabled enabled =>
      cases hact
      exact ⟨⟨hm.setup.source, hm.setup.sinks, hm.setup.routeTable, hm.setup.policies⟩, hm.tallied⟩

/-- Under a clock that does not go back, every report of every run is sound. -/
theorem perfReports_sound {last : BitVec 64} {world : W} (hlast : last ≤ time world) {parser : G}
    {actions : List Action} {m m' : Machine W G} {fuel : Nat}
    (hrun : runActions env
      { Machine.start p world parser with perf := ⟨perfInit, last, []⟩ } actions = .ok m)
    (hspin : SecureGateway.pipelineSpin env fuel m = .ok m') :
    m'.perf.reports = m.perf.reports ∨
      ∃ r, m'.perf.reports = m.perf.reports ++ [r] ∧
        ReportSound (completed m'.log) m'.perf r := by
  have hstart : BetweenRounds p time
      { Machine.start p world parser with perf := ⟨perfInit, last, []⟩ } :=
    ⟨.refl p, tallied_perfInit hlast⟩
  have hm : BetweenRounds p time m :=
    foldlM_invariant (fun _ _ _ _ hb hact => hclock.action hb hact) hstart hrun
  exact (hclock.pipelineSpin hm hspin).2

end Rounds

/-- A clock that each reading moves on by a second, for the first minute. -/
def secondsRead (streams : Nat → List UInt8) : BitVec 64 :=
  BitVec.ofNat 64 (1000000 * min (streams maxSources).length 60)

def reportEnv : Env (Nat → List UInt8) (Nat → List UInt8) :=
  { relayEnv with
    timeUs := fun streams =>
      let streams := Function.update streams maxSources (0 :: streams maxSources)
      (secondsRead streams, streams) }

theorem relay_source (i : Fin maxSources) :
    (relay.sources i).hasMore = none ∧ (relay.sources i).readByte = none ∨
      ∃ slot, slot ≠ maxSources ∧ (relay.sources i).hasMore = some (linkOps slot).hasMore ∧
        (relay.sources i).readByte = some (linkOps slot).readByte := by
  match i with
  | ⟨0, _⟩ => exact Or.inl ⟨rfl, rfl⟩
  | ⟨1, _⟩ => exact Or.inl ⟨rfl, rfl⟩
  | ⟨2, _⟩ => exact Or.inr ⟨SourceType.legacy.id, by decide, rfl, rfl⟩
  | ⟨3, _⟩ => exact Or.inr ⟨SourceType.enclave.id, by decide, rfl, rfl⟩

theorem reportEnv_clockRuns : ClockRuns reportEnv relay secondsRead where
  reads _ := rfl
  timeUs streams := by
    change secondsRead streams ≤ secondsRead (Function.update streams maxSources _)
    unfold secondsRead
    rw [Function.update_self, List.length_cons, BitVec.le_def, BitVec.toNat_ofNat,
      BitVec.toNat_ofNat, Nat.mod_eq_of_lt (by omega), Nat.mod_eq_of_lt (by omega)]
    omega
  hasMore i f hf streams := by
    rcases relay_source i with ⟨hnone, -⟩ | ⟨slot, -, hsome, -⟩
    · rw [hnone] at hf
      cases hf
    · rw [hsome, Option.some.injEq] at hf
      subst hf
      exact Nat.le_refl _
  readByte i f hf streams := by
    rcases relay_source i with ⟨-, hnone⟩ | ⟨slot, hslot, -, hsome⟩
    · rw [hnone] at hf
      cases hf
    · rw [hsome, Option.some.injEq] at hf
      subst hf
      change secondsRead streams ≤ secondsRead (Function.update streams slot _)
      rw [secondsRead, secondsRead, Function.update_of_ne hslot.symm]
      exact Nat.le_refl _
  route k f hf msg streams := by
    obtain ⟨slot, rfl⟩ := relay_route hf
    exact Nat.le_refl _

/-- The round in which the heartbeat arrives. -/
def heartbeatRound : Except (Halt (Nat → List UInt8) (Nat → List UInt8))
    (Machine (Nat → List UInt8) (Nat → List UInt8)) :=
  runActions reportEnv (Machine.start relay (heartbeatBeside []) fun _ => []) [.spin 20]

/-- The round after it. -/
def reportRound : Except (Halt (Nat → List UInt8) (Nat → List UInt8))
    (Machine (Nat → List UInt8) (Nat → List UInt8)) :=
  pipelineSpin reportEnv 20 (finalMachine heartbeatRound)

theorem eq_ok_finalMachine {r : Except (Halt W G) (Machine W G)} (h : r.isOk = true) :
    r = .ok (finalMachine r) := by
  cases r with
  | error halt => cases h
  | ok m => rfl

/-- The second round prints the first report, of one message handed to the vehicle. -/
theorem perfReports_sound_firstReport :
    ∃ r, (finalMachine reportRound).perf.reports = [r] ∧
      ReportSound 1 (finalMachine reportRound).perf r ∧
      r.ports.map PerfPortLine.totalSucc = [0, 1] := by
  have hrun : heartbeatRound = .ok (finalMachine heartbeatRound) :=
    eq_ok_finalMachine (by decide +kernel)
  have hspin : reportRound = .ok (finalMachine reportRound) :=
    eq_ok_finalMachine (by decide +kernel)
  have hbefore : (finalMachine heartbeatRound).perf.reports.length = 0 := by decide +kernel
  have hafter : (finalMachine reportRound).perf.reports.length = 1 := by decide +kernel
  have hcompleted : completed (finalMachine reportRound).log = 1 := by decide +kernel
  have htotals : (finalMachine reportRound).perf.reports.flatMap
      (fun r => r.ports.map PerfPortLine.totalSucc) = [0, 1] := by
    decide +kernel
  rcases perfReports_sound reportEnv_clockRuns (Nat.zero_le _) hrun hspin with
    hnone | ⟨r, hreports, hsound⟩
  · rw [hnone, hbefore] at hafter
    cases hafter
  · rw [List.length_eq_zero_iff.mp hbefore, List.nil_append] at hreports
    rw [hreports, List.flatMap_singleton] at htotals
    rw [hcompleted] at hsound
    exact ⟨r, hreports, hsound, htotals⟩

end SecureGateway
