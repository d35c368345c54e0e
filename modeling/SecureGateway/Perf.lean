import SecureGateway.Gateway

/-!
# Performance accounting

Counters of `secure_gateway.c` kept per port and for the execution unit, and the
report printed at most every five seconds. The counters are 64-bit and wrap.

## Implementation notes

A report keeps the values the printing divides, not the printed text. The
function-local `last` of `perf_show` is a field of the state.
-/

namespace SecureGateway

/-- `enum perf_port_unit_type_t`. -/
inductive PerfPortUnitType
  | source
  | sink
deriving DecidableEq

def maxPerfPortUnits : Nat := 4

/-- `struct perf_port_unit_t`. -/
structure PerfPortUnit where
  prevSeq : UInt8
  succCount : BitVec 64
  dropCount : BitVec 64
  succBytes : BitVec 64
  lastSuccCount : BitVec 64
  lastDropCount : BitVec 64
  lastSuccBytes : BitVec 64
  lastQuery : BitVec 64

/-- `struct perf_port_unit_result_t`. -/
structure PerfPortUnitResult where
  duration : BitVec 64
  succCount : BitVec 64
  dropCount : BitVec 64
  succBytes : BitVec 64

/-- `struct perf_exec_unit_t`. -/
structure PerfExecUnit where
  total : BitVec 64
  loadUs : BitVec 64
  lastTotal : BitVec 64
  lastLoadUs : BitVec 64
  lastQuery : BitVec 64

/-- `struct perf_exec_unit_result_t`. -/
structure PerfExecUnitResult where
  duration : BitVec 64
  count : BitVec 64
  loadUs : BitVec 64

/-- `struct perf_t`. -/
structure Perf where
  portUnits : PerfPortUnitType → Fin maxPerfPortUnits → PerfPortUnit
  execUnit : PerfExecUnit

def perfInit : Perf where
  portUnits _ _ :=
    { prevSeq := 0
      succCount := 0
      dropCount := 0
      succBytes := 0
      lastSuccCount := 0
      lastDropCount := 0
      lastSuccBytes := 0
      lastQuery := 0 }
  execUnit :=
    { total := 0
      loadUs := 0
      lastTotal := 0
      lastLoadUs := 0
      lastQuery := 0 }

/-- Replace one port unit. -/
def Perf.setPortUnit (perf : Perf) (unit : PerfPortUnitType) (id : Fin maxPerfPortUnits)
    (u : PerfPortUnit) : Perf :=
  { perf with portUnits := fun unit' id' =>
      if unit' = unit ∧ id' = id then u else perf.portUnits unit' id' }

theorem setPortUnit_portUnits (perf : Perf) (unit unit' : PerfPortUnitType)
    (id id' : Fin maxPerfPortUnits) (u : PerfPortUnit) :
    (perf.setPortUnit unit id u).portUnits unit' id' =
      if unit' = unit ∧ id' = id then u else perf.portUnits unit' id' := rfl

/-- Bytes a message counts for: its payload and the fixed framing. -/
def perfMessageBytes (msg : Message) : BitVec 64 :=
  BitVec.ofNat 64 (msg.msg.len.toNat + mavlinkNumNonPayloadBytes)

/-- The `drop_count` of one received message, in `int` arithmetic. -/
def perfDropCount (msg : Message) (prevSeq : UInt8) : Int :=
  if msg.msg.compid = 1 then
    let dropCount : Int := (msg.msg.seq.toNat : Int) - prevSeq.toNat - 1
    if dropCount < 0 then 256 + dropCount else dropCount
  else 0

/-- The assertions admit the id just past the table; nothing else stops it. -/
def perfPortUnitUpdate (perf : Perf) (unit : PerfPortUnitType) (id : Nat) (msg : Message) :
    Except Fault Perf :=
  match unit with
  | .source =>
      if id ≤ maxSources then
        if h : id < maxPerfPortUnits then
          let u := perf.portUnits .source ⟨id, h⟩
          .ok (perf.setPortUnit .source ⟨id, h⟩
            { u with
              prevSeq := if msg.msg.compid = 1 then msg.msg.seq else u.prevSeq
              succCount := u.succCount + 1
              dropCount := u.dropCount + BitVec.ofInt 64 (perfDropCount msg u.prevSeq)
              succBytes := u.succBytes + perfMessageBytes msg })
        else .error .outOfBounds
      else .error .assertFailed
  | .sink =>
      if id ≤ maxSinks then
        if h : id < maxPerfPortUnits then
          let u := perf.portUnits .sink ⟨id, h⟩
          .ok (perf.setPortUnit .sink ⟨id, h⟩
            { u with
              succCount := u.succCount + 1
              succBytes := u.succBytes + perfMessageBytes msg })
        else .error .outOfBounds
      else .error .assertFailed

/-- An id inside the table is always accepted. -/
theorem exists_perfPortUnitUpdate (perf : Perf) (unit : PerfPortUnitType) (msg : Message)
    {id : Nat} (h : id < maxPerfPortUnits) :
    ∃ perf', perfPortUnitUpdate perf unit id msg = .ok perf' := by
  cases unit with
  | source =>
      have hle : id ≤ maxSources := Nat.le_of_lt h
      simp only [perfPortUnitUpdate, if_pos hle, dif_pos h]
      exact ⟨_, rfl⟩
  | sink =>
      have hle : id ≤ maxSinks := Nat.le_of_lt h
      simp only [perfPortUnitUpdate, if_pos hle, dif_pos h]
      exact ⟨_, rfl⟩

def perfPortUnitQuery (perf : Perf) (unit : PerfPortUnitType) (id : Fin maxPerfPortUnits)
    (now : BitVec 64) : PerfPortUnitResult × Perf :=
  let u := perf.portUnits unit id
  ({ duration := now - u.lastQuery
     succCount := u.succCount - u.lastSuccCount
     dropCount := u.dropCount - u.lastDropCount
     succBytes := u.succBytes - u.lastSuccBytes },
   perf.setPortUnit unit id
    { u with
      lastQuery := now
      lastSuccCount := u.succCount
      lastDropCount := u.dropCount
      lastSuccBytes := u.succBytes })

def perfExecUnitUpdate (perf : Perf) (duration : BitVec 64) (hasLoad : Bool) : Perf :=
  { perf with execUnit :=
    { perf.execUnit with
      total := perf.execUnit.total + 1
      loadUs := if hasLoad then perf.execUnit.loadUs + duration else perf.execUnit.loadUs } }

def perfExecUnitQuery (perf : Perf) (now : BitVec 64) : PerfExecUnitResult × Perf :=
  ({ duration := now - perf.execUnit.lastQuery
     count := perf.execUnit.total - perf.execUnit.lastTotal
     loadUs := perf.execUnit.loadUs - perf.execUnit.lastLoadUs },
   { perf with execUnit :=
    { perf.execUnit with
      lastQuery := now
      lastTotal := perf.execUnit.total
      lastLoadUs := perf.execUnit.loadUs } })

/-- The `select` table of `perf_results`. -/
def perfSelect (unit : PerfPortUnitType) (id : Fin maxPerfPortUnits) : Bool :=
  match unit with
  | .source => id.val == SourceType.vmc.id
  | .sink => id.val == SinkType.vmc.id

/-- The selected ports in the order both loops of `perf_show` visit them. -/
def perfSelected : List (PerfPortUnitType × Fin maxPerfPortUnits) :=
  (List.finRange maxPerfPortUnits).flatMap fun i =>
    ([.source, .sink].filter (perfSelect · i)).map fun j => (j, i)

/-- One printed line about a port: its window and its running totals. -/
structure PerfPortLine where
  unit : PerfPortUnitType
  id : Fin maxPerfPortUnits
  window : PerfPortUnitResult
  totalSucc : BitVec 64
  totalDrop : BitVec 64

/-- One printed report. -/
structure PerfReport where
  ports : List PerfPortLine
  exec : PerfExecUnitResult

/-- The accounting of the gateway, with the `last` of `perf_show` and what it printed. -/
structure PerfState where
  perf : Perf
  last : BitVec 64
  reports : List PerfReport

/-- Query one port and note its line. -/
def perfShowPort (now : BitVec 64) (acc : Perf × List PerfPortLine)
    (port : PerfPortUnitType × Fin maxPerfPortUnits) : Perf × List PerfPortLine :=
  let (window, perf) := perfPortUnitQuery acc.1 port.1 port.2 now
  let u := perf.portUnits port.1 port.2
  (perf, acc.2 ++ [⟨port.1, port.2, window, u.succCount, u.dropCount⟩])

/-- `perf_show` at the clock reading `now`. -/
def perfShow (now : BitVec 64) (state : PerfState) : PerfState :=
  if now - state.last < 5000000#64 then state
  else
    let (perf, ports) := perfSelected.foldl (perfShowPort now) (state.perf, [])
    let (exec, perf) := perfExecUnitQuery perf now
    { perf := perf, last := now, reports := state.reports ++ [⟨ports, exec⟩] }

end SecureGateway
