import SecureGateway.Library.Guarded
import SecureGateway.Perf

/-!
# Ids and table slots

The functions of `secure_gateway.c` that index a table by an id they are given, one address
and one assignment after the other. Each table access is either stopped by an assertion or
meets the slot of the id, except where the check is off by one or missing.

## Implementation notes

`enum sink_type_t` has no negative enumerator, so its values are natural numbers, and
`add_transformer` converts an id to it only up to the limit it has asserted. The policy
slots past `count` are never read and have no contents here.
-/

namespace SecureGateway

open Library

/-- The arrays that are indexed by an id; `port_units` has a row for each unit type. -/
inductive Table
  | sources
  | sinks
  | policies
  | portUnits (unit : PerfPortUnitType)
deriving DecidableEq

def tableSize : Table → Nat
  | .sources => maxSources
  | .sinks => maxSinks
  | .policies => maxPolicies
  | .portUnits _ => maxPerfPortUnits

variable {W : Type}

/-- The records the tables are in. -/
structure Tables (W : Type) where
  pipeline : Pipeline W
  perf : Perf

abbrev TableProgram (W α : Type) := Guarded (Tables W) Table Fault α

namespace Tables

/-! ### Assignments through a pointer -/

def setSource (s : Tables W) (i : Fin maxSources) (source : Source W) : Tables W :=
  { s with pipeline := { s.pipeline with sources := Function.update s.pipeline.sources i source } }

def setSink (s : Tables W) (k : Fin maxSinks) (sink : Sink W) : Tables W :=
  { s with pipeline := { s.pipeline with sinks := Function.update s.pipeline.sinks k sink } }

def setPort (s : Tables W) (unit : PerfPortUnitType) (id : Fin maxPerfPortUnits)
    (u : PerfPortUnit) : Tables W :=
  { s with perf := s.perf.setPortUnit unit id u }

/-- The slot at `count` is filled and `count` incremented. -/
def appendPolicy (s : Tables W) (policy : SecurityPolicy) : Tables W :=
  if h : s.pipeline.policies.policies.length < maxPolicies then
    { s with pipeline := { s.pipeline with
        policies := ⟨s.pipeline.policies.policies ++ [policy], by
          simpa [Nat.add_one_le_iff] using h⟩ } }
  else s

def assignSource (i : Fin maxSources) (f : Source W → Source W) : TableProgram W Unit :=
  change fun s => s.setSource i (f (s.pipeline.sources i))

def assignSink (k : Fin maxSinks) (f : Sink W → Sink W) : TableProgram W Unit :=
  change fun s => s.setSink k (f (s.pipeline.sinks k))

/-- An assignment to a field of `port_units[unit][id]`, with the indexing it begins with. -/
def assignPort (unit : PerfPortUnitType) (id : Nat) (f : PerfPortUnit → PerfPortUnit) :
    TableProgram W Unit := do
  let k ← address tableSize .outOfBounds (.portUnits unit) id
  change fun s => s.setPort unit k (f (s.perf.portUnits unit k))

/-! ### The functions -/

def sourceAllocate (sourceId : Nat) : TableProgram W (Fin maxSources) := do
  assert (sourceId < maxSources) .assertFailed
  let src ← address tableSize .outOfBounds .sources sourceId
  assignSource src fun source =>
    { source with
      sourceId := sourceId
      hasMore := none
      readByte := none
      transform := none
      isConnected := true }
  return src

def sinkAllocate (type : Nat) : TableProgram W (Fin maxSinks) := do
  let sink ← address tableSize .outOfBounds .sinks type
  assignSink sink fun _ =>
    { route := none
      transform := none
      isConnected := true }
  return sink

def sourceGet (sourceId : Nat) : TableProgram W (Fin maxSources) := do
  assert (sourceId < maxSources) .assertFailed
  address tableSize .outOfBounds .sources sourceId

def sinkGet (type : Nat) : TableProgram W (Fin maxSinks) := do
  assert (type < maxSinks) .assertFailed
  address tableSize .outOfBounds .sinks type

def policyRegister (policy : SecurityPolicy) : TableProgram W Unit := do
  let count ← look fun s => s.pipeline.policies.policies.length
  assert (count < maxPolicies) .assertFailed
  let _ ← address tableSize .outOfBounds .policies count
  change fun s => s.appendPolicy policy

def addTransformer (type : PortType) (id : Nat) (transform : Message → Message) :
    TableProgram W Unit :=
  match type with
  | .source => do
      assert (id ≤ maxSources) .assertFailed
      let src ← address tableSize .outOfBounds .sources id
      assignSource src fun source => { source with transform := some transform }
  | .sink => do
      assert (id ≤ maxSinks) .assertFailed
      let sink ← sinkGet id
      assignSink sink fun sink => { sink with transform := some transform }

/-- The drop count of a received message; it is the counted component's number that is kept. -/
def receiveSeq (id : Nat) (msg : Message) : TableProgram W Int :=
  if msg.msg.compid = 1 then do
    let k ← address tableSize .outOfBounds (.portUnits .source) id
    let prevSeq ← look fun s => (s.perf.portUnits .source k).prevSeq
    let dropCount : Int := (msg.msg.seq.toNat : Int) - prevSeq.toNat - 1
    assignPort .source id fun u => { u with prevSeq := msg.msg.seq }
    return if dropCount < 0 then 256 + dropCount else dropCount
  else return 0

def perfPortUnitUpdate (unit : PerfPortUnitType) (id : Nat) (msg : Message) :
    TableProgram W Unit :=
  match unit with
  | .source => do
      assert (id ≤ maxSources) .assertFailed
      let dropCount ← receiveSeq id msg
      assignPort .source id fun u => { u with succCount := u.succCount + 1 }
      assignPort .source id fun u => { u with dropCount := u.dropCount + BitVec.ofInt 64 dropCount }
      assignPort .source id fun u => { u with succBytes := u.succBytes + perfMessageBytes msg }
  | .sink => do
      assert (id ≤ maxSinks) .assertFailed
      assignPort .sink id fun u => { u with succCount := u.succCount + 1 }
      assignPort .sink id fun u => { u with succBytes := u.succBytes + perfMessageBytes msg }

end Tables

/-- A call of one of the functions. -/
inductive TableCall
  | sourceAllocate (sourceId : Nat)
  | sinkAllocate (type : Nat)
  | sourceGet (sourceId : Nat)
  | sinkGet (type : Nat)
  | policyRegister (policy : SecurityPolicy)
  | addTransformer (type : PortType) (id : Nat) (transform : Message → Message)
  | perfPortUnitUpdate (unit : PerfPortUnitType) (id : Nat) (msg : Message)

namespace TableCall

/-- The call, with the slot it returns a pointer to. -/
def program : TableCall → TableProgram W (Option (Slot Table))
  | sourceAllocate sourceId => do
      let i ← Tables.sourceAllocate sourceId
      return some ⟨.sources, i.val⟩
  | sinkAllocate type => do
      let k ← Tables.sinkAllocate type
      return some ⟨.sinks, k.val⟩
  | sourceGet sourceId => do
      let i ← Tables.sourceGet sourceId
      return some ⟨.sources, i.val⟩
  | sinkGet type => do
      let k ← Tables.sinkGet type
      return some ⟨.sinks, k.val⟩
  | policyRegister policy => do
      Tables.policyRegister policy
      return none
  | addTransformer type id transform => do
      Tables.addTransformer type id transform
      return none
  | perfPortUnitUpdate unit id msg => do
      Tables.perfPortUnitUpdate unit id msg
      return none

/-- The slot of the id. `policy_register` gives an id the slot at `count`. -/
def slot (s : Tables W) : TableCall → Slot Table
  | sourceAllocate sourceId => ⟨.sources, sourceId⟩
  | sinkAllocate type => ⟨.sinks, type⟩
  | sourceGet sourceId => ⟨.sources, sourceId⟩
  | sinkGet type => ⟨.sinks, type⟩
  | policyRegister _ => ⟨.policies, s.pipeline.policies.policies.length⟩
  | addTransformer .source id _ => ⟨.sources, id⟩
  | addTransformer .sink id _ => ⟨.sinks, id⟩
  | perfPortUnitUpdate unit id _ => ⟨.portUnits unit, id⟩

/-- No assertion stops the id: `sink_allocate` has none, and three limits admit the id just
past the table. -/
def PastEnd : TableCall → Prop
  | sinkAllocate type => maxSinks ≤ type
  | addTransformer .source id _ => id = maxSources
  | perfPortUnitUpdate _ id _ => id = maxPerfPortUnits
  | _ => False

/-- The call as the functions on the single records compute it. -/
def apply (s : Tables W) : TableCall → Except Fault (Tables W)
  | sourceAllocate sourceId => do
      let (_, sources) ← SecureGateway.sourceAllocate s.pipeline.sources sourceId
      return { s with pipeline := { s.pipeline with sources := sources } }
  | sinkAllocate type => do
      let (_, sinks) ← SecureGateway.sinkAllocate s.pipeline.sinks type
      return { s with pipeline := { s.pipeline with sinks := sinks } }
  | sourceGet sourceId => do
      let _ ← SecureGateway.sourceGet sourceId
      return s
  | sinkGet type => do
      let _ ← SecureGateway.sinkGet type
      return s
  | policyRegister policy => do
      let policies ← SecureGateway.policyRegister s.pipeline.policies policy
      return { s with pipeline := { s.pipeline with policies := policies } }
  | addTransformer type id transform => do
      let pipeline ← SecureGateway.addTransformer s.pipeline type id transform
      return { s with pipeline := pipeline }
  | perfPortUnitUpdate unit id msg => do
      let perf ← SecureGateway.perfPortUnitUpdate s.perf unit id msg
      return { s with perf := perf }

end TableCall

/-! ### What an assignment leaves alone -/

/-- What a slot holds. -/
inductive SlotContents (W : Type)
  | source (source : Source W)
  | sink (sink : Sink W)
  | policy (policy : SecurityPolicy)
  | port (unit : PerfPortUnit)

namespace Tables

def slot (s : Tables W) : Slot Table → Option (SlotContents W)
  | ⟨.sources, i⟩ => (tableAt s.pipeline.sources i).map .source
  | ⟨.sinks, k⟩ => (tableAt s.pipeline.sinks k).map .sink
  | ⟨.policies, j⟩ => s.pipeline.policies.policies[j]?.map .policy
  | ⟨.portUnits unit, id⟩ => (tableAt (s.perf.portUnits unit) id).map .port

/-- The states differ in the given slot at most, and in `count`. -/
structure SameElsewhere (slot : Slot Table) (s t : Tables W) : Prop where
  slots : ∀ other, other ≠ slot → t.slot other = s.slot other
  terminated : t.pipeline.terminated = s.pipeline.terminated
  policyEnabled : t.pipeline.policyEnabled = s.pipeline.policyEnabled
  transformEnabled : t.pipeline.transformEnabled = s.pipeline.transformEnabled
  routeTable : t.pipeline.routeTable = s.pipeline.routeTable
  execUnit : t.perf.execUnit = s.perf.execUnit

theorem SameElsewhere.refl (slot : Slot Table) (s : Tables W) : SameElsewhere slot s s :=
  ⟨fun _ _ => rfl, rfl, rfl, rfl, rfl, rfl⟩

theorem sameElsewhere_setSource (s : Tables W) (i : Fin maxSources) (source : Source W) :
    SameElsewhere ⟨.sources, i.val⟩ s (s.setSource i source) := by
  refine ⟨?_, rfl, rfl, rfl, rfl, rfl⟩
  rintro ⟨table, j⟩ hother
  cases table with
  | sources =>
      have hne : j ≠ i.val := fun heq => hother (by rw [heq])
      exact congrArg (Option.map _) (tableAt_update_of_ne s.pipeline.sources source hne)
  | sinks | policies | portUnits unit => rfl

theorem sameElsewhere_setSink (s : Tables W) (k : Fin maxSinks) (sink : Sink W) :
    SameElsewhere ⟨.sinks, k.val⟩ s (s.setSink k sink) := by
  refine ⟨?_, rfl, rfl, rfl, rfl, rfl⟩
  rintro ⟨table, j⟩ hother
  cases table with
  | sinks =>
      have hne : j ≠ k.val := fun heq => hother (by rw [heq])
      exact congrArg (Option.map _) (tableAt_update_of_ne s.pipeline.sinks sink hne)
  | sources | policies | portUnits unit => rfl

theorem sameElsewhere_setPort (s : Tables W) (unit : PerfPortUnitType)
    (id : Fin maxPerfPortUnits) (u : PerfPortUnit) :
    SameElsewhere ⟨.portUnits unit, id.val⟩ s (s.setPort unit id u) := by
  refine ⟨?_, rfl, rfl, rfl, rfl, rfl⟩
  rintro ⟨table, j⟩ hother
  cases table with
  | portUnits unit' =>
      refine congrArg (Option.map _) (tableAt_congr fun hlt => ?_)
      rw [setPort, setPortUnit_portUnits, if_neg]
      rintro ⟨rfl, rfl⟩
      exact hother rfl
  | sources | sinks | policies => rfl

theorem sameElsewhere_appendPolicy (s : Tables W) (policy : SecurityPolicy) :
    SameElsewhere ⟨.policies, s.pipeline.policies.policies.length⟩ s
      (s.appendPolicy policy) := by
  unfold appendPolicy
  split
  · refine ⟨?_, rfl, rfl, rfl, rfl, rfl⟩
    rintro ⟨table, j⟩ hother
    cases table with
    | policies =>
        have hne : j ≠ s.pipeline.policies.policies.length := fun heq => hother (by rw [heq])
        simp only [Tables.slot, List.getElem?_append]
        split
        · rfl
        · rename_i hge
          rw [List.getElem?_eq_none (by simp; omega), List.getElem?_eq_none (by omega)]
    | sources | sinks | portUnits unit => rfl
  · exact .refl _ s

theorem slot_appendPolicy (s : Tables W) (policy : SecurityPolicy)
    (h : s.pipeline.policies.policies.length < maxPolicies) :
    (s.appendPolicy policy).slot ⟨.policies, s.pipeline.policies.policies.length⟩ =
      some (.policy policy) := by
  simp [appendPolicy, h, Tables.slot]

theorem setPort_portUnits_self (s : Tables W) (unit : PerfPortUnitType)
    (id : Fin maxPerfPortUnits) (u : PerfPortUnit) :
    (s.setPort unit id u).perf.portUnits unit id = u :=
  if_pos ⟨rfl, rfl⟩

theorem setPort_setPort (s : Tables W) (unit : PerfPortUnitType)
    (id : Fin maxPerfPortUnits) (u v : PerfPortUnit) :
    (s.setPort unit id u).setPort unit id v = s.setPort unit id v := by
  simp only [setPort, Perf.setPortUnit, Tables.mk.injEq, Perf.mk.injEq, true_and, and_true]
  funext unit' id'
  split <;> rfl

theorem setPort_self (s : Tables W) (unit : PerfPortUnitType) (id : Fin maxPerfPortUnits) :
    s.setPort unit id (s.perf.portUnits unit id) = s := by
  have hperf : s.perf.setPortUnit unit id (s.perf.portUnits unit id) = s.perf := by
    rw [Perf.setPortUnit, Perf.mk.injEq]
    refine ⟨?_, rfl⟩
    funext unit' id'
    split
    · rename_i heq
      rw [heq.1, heq.2]
    · rfl
  rw [setPort, hperf]

/-! ### What each function does -/

section Functions

variable (s : Tables W)

theorem sourceAllocate_returns {sourceId : Nat} (h : sourceId < maxSources) :
    Returns (sourceAllocate sourceId) s ⟨sourceId, h⟩
      (s.setSource ⟨sourceId, h⟩
        { s.pipeline.sources ⟨sourceId, h⟩ with
          sourceId := sourceId
          hasMore := none
          readByte := none
          transform := none
          isConnected := true })
      [⟨.sources, sourceId⟩] :=
  (returns_assert h _ s).bind
    ((returns_address tableSize .sources h _ s).bind ((returns_change _ s).bind (returns_pure _ _)))

theorem sinkAllocate_returns {type : Nat} (h : type < maxSinks) :
    Returns (sinkAllocate type) s ⟨type, h⟩
      (s.setSink ⟨type, h⟩
        { route := none
          transform := none
          isConnected := true })
      [⟨.sinks, type⟩] :=
  (returns_address tableSize .sinks h _ s).bind ((returns_change _ s).bind (returns_pure _ _))

theorem sourceGet_returns {sourceId : Nat} (h : sourceId < maxSources) :
    Returns (sourceGet sourceId) s ⟨sourceId, h⟩ s [⟨.sources, sourceId⟩] :=
  (returns_assert h _ s).bind (returns_address tableSize .sources h _ s)

theorem sinkGet_returns {type : Nat} (h : type < maxSinks) :
    Returns (sinkGet type) s ⟨type, h⟩ s [⟨.sinks, type⟩] :=
  (returns_assert h _ s).bind (returns_address tableSize .sinks h _ s)

theorem sinkGet_throws {type : Nat} (h : ¬ type < maxSinks) :
    Throws (sinkGet type) s .assertFailed s [] :=
  (throws_assert h _ s).bind

theorem policyRegister_returns (policy : SecurityPolicy)
    (h : s.pipeline.policies.policies.length < maxPolicies) :
    Returns (policyRegister policy) s () (s.appendPolicy policy)
      [⟨.policies, s.pipeline.policies.policies.length⟩] :=
  (returns_look _ s).bind ((returns_assert h _ s).bind
    ((returns_address tableSize .policies h _ s).bind (returns_change _ s)))

theorem policyRegister_throws (policy : SecurityPolicy)
    (h : ¬ s.pipeline.policies.policies.length < maxPolicies) :
    Throws (policyRegister policy) s .assertFailed s [] :=
  (returns_look _ s).bind_throws (throws_assert h _ s).bind

theorem addTransformer_source_returns (transform : Message → Message) {id : Nat}
    (h : id < maxSources) :
    Returns (addTransformer .source id transform) s ()
      (s.setSource ⟨id, h⟩
        { s.pipeline.sources ⟨id, h⟩ with transform := some transform })
      [⟨.sources, id⟩] :=
  (returns_assert (Nat.le_of_lt h) _ s).bind
    ((returns_address tableSize .sources h _ s).bind (returns_change _ s))

theorem addTransformer_sink_returns (transform : Message → Message) {id : Nat}
    (h : id < maxSinks) :
    Returns (addTransformer .sink id transform) s ()
      (s.setSink ⟨id, h⟩ { s.pipeline.sinks ⟨id, h⟩ with transform := some transform })
      [⟨.sinks, id⟩] :=
  (returns_assert (Nat.le_of_lt h) _ s).bind ((sinkGet_returns s h).bind (returns_change _ s))

theorem assignPort_returns (unit : PerfPortUnitType) {id : Nat} (h : id < maxPerfPortUnits)
    (f : PerfPortUnit → PerfPortUnit) :
    Returns (assignPort unit id f) s ()
      (s.setPort unit ⟨id, h⟩ (f (s.perf.portUnits unit ⟨id, h⟩))) [⟨.portUnits unit, id⟩] :=
  (returns_address tableSize (.portUnits unit) h _ s).bind (returns_change _ s)

/-- The rule for an assignment after others to the same port. -/
theorem assignPort_returns_again (unit : PerfPortUnitType) {id : Nat}
    (h : id < maxPerfPortUnits) (u : PerfPortUnit) (f : PerfPortUnit → PerfPortUnit) :
    Returns (assignPort unit id f) (s.setPort unit ⟨id, h⟩ u) ()
      (s.setPort unit ⟨id, h⟩ (f u)) [⟨.portUnits unit, id⟩] := by
  have hassign := assignPort_returns (s.setPort unit ⟨id, h⟩ u) unit h f
  rwa [setPort_portUnits_self, setPort_setPort] at hassign

theorem assignPort_throws (unit : PerfPortUnitType) {id : Nat} (h : ¬ id < maxPerfPortUnits)
    (f : PerfPortUnit → PerfPortUnit) :
    Throws (assignPort unit id f) s .outOfBounds s [⟨.portUnits unit, id⟩] :=
  (throws_address tableSize (.portUnits unit) h _ s).bind

/-- The number of the counted component is kept, and the drop count computed from the last. -/
theorem receiveSeq_returns {id : Nat} (h : id < maxPerfPortUnits) (msg : Message) :
    ∃ slots, (∀ x ∈ slots, x = ⟨.portUnits .source, id⟩) ∧
      Returns (receiveSeq id msg) s
        (perfDropCount msg (s.perf.portUnits .source ⟨id, h⟩).prevSeq)
        (s.setPort .source ⟨id, h⟩
          { s.perf.portUnits .source ⟨id, h⟩ with
            prevSeq := if msg.msg.compid = 1 then msg.msg.seq
              else (s.perf.portUnits .source ⟨id, h⟩).prevSeq })
        slots := by
  by_cases hcomp : msg.msg.compid = 1
  · refine ⟨[⟨.portUnits .source, id⟩, ⟨.portUnits .source, id⟩], by simp, ?_⟩
    simp only [receiveSeq, perfDropCount, if_pos hcomp]
    exact (returns_address tableSize (.portUnits .source) h _ s).bind
      ((returns_look _ s).bind ((assignPort_returns s .source h _).bind (returns_pure _ _)))
  · refine ⟨[], by simp, ?_⟩
    simp only [receiveSeq, perfDropCount, if_neg hcomp]
    change Returns _ s 0 (s.setPort .source ⟨id, h⟩ (s.perf.portUnits .source ⟨id, h⟩)) []
    rw [setPort_self]
    exact returns_pure 0 s

theorem receiveSeq_throws_or_returns {id : Nat} (h : ¬ id < maxPerfPortUnits) (msg : Message) :
    Throws (receiveSeq id msg) s .outOfBounds s [⟨.portUnits .source, id⟩] ∨
      Returns (receiveSeq id msg) s 0 s [] := by
  by_cases hcomp : msg.msg.compid = 1
  · rw [receiveSeq, if_pos hcomp]
    exact Or.inl (throws_address tableSize (.portUnits .source) h _ s).bind
  · rw [receiveSeq, if_neg hcomp]
    exact Or.inr (returns_pure 0 s)

/-- On a port of the table every access is to that port, and the counters end as
`perfPortUnitUpdate` on the record leaves them. -/
theorem perfPortUnitUpdate_returns (unit : PerfPortUnitType) {id : Nat}
    (h : id < maxPerfPortUnits) (msg : Message) :
    ∃ u slots, slots ≠ [] ∧ (∀ x ∈ slots, x = ⟨.portUnits unit, id⟩) ∧
      SecureGateway.perfPortUnitUpdate s.perf unit id msg =
        .ok (s.perf.setPortUnit unit ⟨id, h⟩ u) ∧
      Returns (perfPortUnitUpdate unit id msg) s () (s.setPort unit ⟨id, h⟩ u) slots := by
  cases unit with
  | source =>
      have hle : id ≤ maxSources := Nat.le_of_lt h
      obtain ⟨slots, hslots, hseq⟩ := receiveSeq_returns s h msg
      refine ⟨_, _, ?_, ?_, ?_, (returns_assert hle _ s).bind (hseq.bind
        ((assignPort_returns_again s .source h _ _).bind
          ((assignPort_returns_again s .source h _ _).bind
            (assignPort_returns_again s .source h _ _))))⟩
      · simp
      · intro x hx
        simp only [List.nil_append, List.mem_append, List.mem_singleton] at hx
        obtain hx | hx | hx | hx := hx
        · exact hslots x hx
        · exact hx
        · exact hx
        · exact hx
      · rw [SecureGateway.perfPortUnitUpdate, if_pos hle, dif_pos h]
  | sink =>
      have hle : id ≤ maxSinks := Nat.le_of_lt h
      refine ⟨_, _, ?_, ?_, ?_, (returns_assert hle _ s).bind
        ((assignPort_returns s .sink h _).bind (assignPort_returns_again s .sink h _ _))⟩
      · simp
      · simp
      · rw [SecureGateway.perfPortUnitUpdate, if_pos hle, dif_pos h]

/-- Just past the table the limit is met and the row is not. -/
theorem perfPortUnitUpdate_throws (unit : PerfPortUnitType) {id : Nat}
    (h : id = maxPerfPortUnits) (msg : Message) :
    Throws (perfPortUnitUpdate unit id msg) s .outOfBounds s [⟨.portUnits unit, id⟩] := by
  have hpast : ¬ id < maxPerfPortUnits := Nat.not_lt_of_ge (Nat.le_of_eq h.symm)
  cases unit with
  | source =>
      have hle : id ≤ maxSources := Nat.le_of_eq h
      obtain hthrows | hreturns := receiveSeq_throws_or_returns s hpast msg
      · exact (returns_assert hle _ s).bind_throws hthrows.bind
      · exact (returns_assert hle _ s).bind_throws
          (hreturns.bind_throws (assignPort_throws s .source hpast _).bind)
  | sink =>
      have hle : id ≤ maxSinks := Nat.le_of_eq h
      exact (returns_assert hle _ s).bind_throws (assignPort_throws s .sink hpast _).bind

end Functions

end Tables

/-! ### The three ways a call ends -/

namespace TableCall

/-- The call returns no pointer but to the slot of its id and changes nothing outside the
slot, which is the one a registered policy is then in. -/
structure Accesses (call : TableCall) (s : Tables W) (pointer : Option (Slot Table))
    (t : Tables W) : Prop where
  pointer : ∀ x ∈ pointer, x = call.slot s
  elsewhere : Tables.SameElsewhere (call.slot s) s t
  registered : ∀ policy, call = policyRegister policy →
    t.slot (call.slot s) = some (.policy policy)

/-- How a call ends, and that it ends so on the single records too. -/
inductive Ends (call : TableCall) (s : Tables W) : Prop
  | asserted (hid : ¬ call.PastEnd) (happly : call.apply s = .error .assertFailed)
      (hthrows : Throws call.program s .assertFailed s [])
  | past (hid : call.PastEnd) (happly : call.apply s = .error .outOfBounds)
      (hthrows : Throws call.program s .outOfBounds s [call.slot s])
  | accessed (hid : ¬ call.PastEnd) {pointer : Option (Slot Table)} {t : Tables W}
      {slots : List (Slot Table)} (happly : call.apply s = .ok t)
      (hreturns : Returns call.program s pointer t slots) (hsome : slots ≠ [])
      (honly : ∀ x ∈ slots, x = call.slot s) (hwithin : (call.slot s).Within tableSize)
      (haccesses : call.Accesses s pointer t)

/-- The ending of a call that takes one address. -/
theorem Ends.of_access {call : TableCall} {s t : Tables W} {pointer : Option (Slot Table)}
    (hid : ¬ call.PastEnd) (happly : call.apply s = .ok t)
    (hreturns : Returns call.program s pointer t [call.slot s])
    (hwithin : (call.slot s).Within tableSize) (haccesses : call.Accesses s pointer t) :
    call.Ends s :=
  .accessed hid happly hreturns (List.cons_ne_nil _ _) (fun _ hx => List.mem_singleton.mp hx)
    hwithin haccesses

variable (s : Tables W)

theorem sourceAllocate_ends (sourceId : Nat) : (sourceAllocate sourceId).Ends s := by
  by_cases h : sourceId < maxSources
  · refine Ends.of_access id ?_ ((Tables.sourceAllocate_returns s h).bind (returns_pure _ _)) h ?_
    · simp only [apply, SecureGateway.sourceAllocate, dif_pos h]
      rfl
    · exact ⟨by simp [slot], Tables.sameElsewhere_setSource s ⟨_, h⟩ _, by simp⟩
  · refine .asserted id ?_ (throws_assert h _ s).bind.bind
    simp only [apply, SecureGateway.sourceAllocate, dif_neg h]
    rfl

theorem sinkAllocate_ends (type : Nat) : (sinkAllocate type).Ends s := by
  by_cases h : type < maxSinks
  · refine Ends.of_access (Nat.not_le_of_lt h) ?_
      ((Tables.sinkAllocate_returns s h).bind (returns_pure _ _)) h ?_
    · simp only [apply, SecureGateway.sinkAllocate, dif_pos h]
      rfl
    · exact ⟨by simp [slot], Tables.sameElsewhere_setSink s ⟨_, h⟩ _, by simp⟩
  · refine .past (Nat.le_of_not_lt h) ?_ (throws_address tableSize .sinks h _ s).bind.bind
    simp only [apply, SecureGateway.sinkAllocate, dif_neg h]
    rfl

theorem sourceGet_ends (sourceId : Nat) : (sourceGet sourceId).Ends s := by
  by_cases h : sourceId < maxSources
  · refine Ends.of_access id ?_ ((Tables.sourceGet_returns s h).bind (returns_pure _ _)) h ?_
    · simp only [apply, SecureGateway.sourceGet, dif_pos h]
      rfl
    · exact ⟨by simp [slot], .refl _ s, by simp⟩
  · refine .asserted id ?_ (throws_assert h _ s).bind.bind
    simp only [apply, SecureGateway.sourceGet, dif_neg h]
    rfl

theorem sinkGet_ends (type : Nat) : (sinkGet type).Ends s := by
  by_cases h : type < maxSinks
  · refine Ends.of_access id ?_ ((Tables.sinkGet_returns s h).bind (returns_pure _ _)) h ?_
    · simp only [apply, SecureGateway.sinkGet, dif_pos h]
      rfl
    · exact ⟨by simp [slot], .refl _ s, by simp⟩
  · refine .asserted id ?_ (Tables.sinkGet_throws s h).bind
    simp only [apply, SecureGateway.sinkGet, dif_neg h]
    rfl

theorem policyRegister_ends (policy : SecurityPolicy) : (policyRegister policy).Ends s := by
  by_cases h : s.pipeline.policies.policies.length < maxPolicies
  · refine Ends.of_access id ?_
      ((Tables.policyRegister_returns s policy h).bind (returns_pure _ _)) h ?_
    · simp only [apply, SecureGateway.policyRegister, dif_pos h, Tables.appendPolicy]
      rfl
    · refine ⟨by simp, Tables.sameElsewhere_appendPolicy s policy, ?_⟩
      intro policy' heq
      cases heq
      exact Tables.slot_appendPolicy s policy h
  · refine .asserted id ?_ (Tables.policyRegister_throws s policy h).bind
    simp only [apply, SecureGateway.policyRegister, dif_neg h]
    rfl

/-- The limit admits one source id too many. -/
theorem addTransformer_source_ends (index : Nat) (transform : Message → Message) :
    (addTransformer .source index transform).Ends s := by
  by_cases hle : index ≤ maxSources
  · by_cases h : index < maxSources
    · refine Ends.of_access (Nat.ne_of_lt h) ?_
        ((Tables.addTransformer_source_returns s transform h).bind (returns_pure _ _)) h ?_
      · simp only [apply, SecureGateway.addTransformer, if_pos hle, dif_pos h]
        rfl
      · exact ⟨by simp, Tables.sameElsewhere_setSource s ⟨_, h⟩ _, by simp⟩
    · have hend : index = maxSources := Nat.le_antisymm hle (Nat.le_of_not_lt h)
      refine .past hend ?_ ((returns_assert hle _ s).bind_throws
        (throws_address tableSize .sources h _ s).bind).bind
      simp only [apply, SecureGateway.addTransformer, if_pos hle, dif_neg h]
      rfl
  · refine .asserted (fun heq => hle (Nat.le_of_eq heq)) ?_ (throws_assert hle _ s).bind.bind
    simp only [apply, SecureGateway.addTransformer, if_neg hle]
    rfl

/-- What the limit admits too many, `sink_get` stops. -/
theorem addTransformer_sink_ends (index : Nat) (transform : Message → Message) :
    (addTransformer .sink index transform).Ends s := by
  by_cases hle : index ≤ maxSinks
  · by_cases h : index < maxSinks
    · refine Ends.of_access id ?_
        ((Tables.addTransformer_sink_returns s transform h).bind (returns_pure _ _)) h ?_
      · simp only [apply, SecureGateway.addTransformer, if_pos hle, SecureGateway.sinkGet,
          dif_pos h]
        rfl
      · exact ⟨by simp, Tables.sameElsewhere_setSink s ⟨_, h⟩ _, by simp⟩
    · refine .asserted id ?_ ((returns_assert hle _ s).bind_throws
        (Tables.sinkGet_throws s h).bind).bind
      simp only [apply, SecureGateway.addTransformer, if_pos hle, SecureGateway.sinkGet,
        dif_neg h]
      rfl
  · refine .asserted id ?_ (throws_assert hle _ s).bind.bind
    simp only [apply, SecureGateway.addTransformer, if_neg hle]
    rfl

theorem perfPortUnitUpdate_ends (unit : PerfPortUnitType) (index : Nat) (msg : Message) :
    (perfPortUnitUpdate unit index msg).Ends s := by
  obtain h | h | h := Nat.lt_trichotomy index maxPerfPortUnits
  · obtain ⟨u, slots, hsome, honly, hperf, hreturns⟩ :=
      Tables.perfPortUnitUpdate_returns s unit h msg
    refine .accessed (Nat.ne_of_lt h) ?_ (hreturns.bind (returns_pure _ _)) (by simp [hsome])
      ?_ h ⟨by simp, Tables.sameElsewhere_setPort s unit ⟨index, h⟩ u, by simp⟩
    · simp only [apply, hperf]
      rfl
    · rw [List.append_nil]
      exact honly
  · refine .past h ?_ (Tables.perfPortUnitUpdate_throws s unit h msg).bind
    cases unit with
    | source => rw [h]; rfl
    | sink => rw [h]; rfl
  · cases unit with
    | source =>
        have hgt : ¬ index ≤ maxSources := Nat.not_le_of_lt h
        refine .asserted (Nat.ne_of_gt h) ?_ (throws_assert hgt _ s).bind.bind
        simp only [apply, SecureGateway.perfPortUnitUpdate, if_neg hgt]
        rfl
    | sink =>
        have hgt : ¬ index ≤ maxSinks := Nat.not_le_of_lt h
        refine .asserted (Nat.ne_of_gt h) ?_ (throws_assert hgt _ s).bind.bind
        simp only [apply, SecureGateway.perfPortUnitUpdate, if_neg hgt]
        rfl

/-- The calls and the functions on the single records end alike, in one of three ways. -/
theorem ends (call : TableCall) : call.Ends s := by
  cases call with
  | sourceAllocate sourceId => exact sourceAllocate_ends s sourceId
  | sinkAllocate type => exact sinkAllocate_ends s type
  | sourceGet sourceId => exact sourceGet_ends s sourceId
  | sinkGet type => exact sinkGet_ends s type
  | policyRegister policy => exact policyRegister_ends s policy
  | addTransformer type index transform =>
      cases type with
      | source => exact addTransformer_source_ends s index transform
      | sink => exact addTransformer_sink_ends s index transform
  | perfPortUnitUpdate unit index msg => exact perfPortUnitUpdate_ends s unit index msg

end TableCall

/-- The programs compute what the functions on the single records do, and one that stops has
changed nothing. -/
theorem TableCall.program_refines_apply (call : TableCall) (s : Tables W) :
    (∃ pointer t slots, Returns call.program s pointer t slots ∧ call.apply s = .ok t) ∨
      ∃ fault slots, Throws call.program s fault s slots ∧ call.apply s = .error fault := by
  cases call.ends s with
  | asserted hid happly hthrows => exact Or.inr ⟨_, _, hthrows, happly⟩
  | past hid happly hthrows => exact Or.inr ⟨_, _, hthrows, happly⟩
  | accessed hid happly hreturns => exact Or.inl ⟨_, _, _, hreturns, happly⟩

/-! ### Which ids the assertions bound -/

/-- An assertion stops the call and nothing has changed, or the call accesses exactly the slot
of its id, which lies in its table. -/
def BoundsIndex (call : TableCall) (s : Tables W) : Prop :=
  KeepsTo tableSize .assertFailed (call.slot s) (call.Accesses s) call.program s

theorem boundsIndex_of_not_pastEnd {call : TableCall} (h : ¬ call.PastEnd) (s : Tables W) :
    BoundsIndex call s := by
  cases call.ends s with
  | asserted hid happly hthrows => exact Or.inl hthrows
  | past hid => exact absurd hid h
  | accessed hid happly hreturns hsome honly hwithin haccesses =>
      exact Or.inr ⟨_, _, _, hreturns, hsome, honly, hwithin, haccesses⟩

/-- A call bounds its index exactly when its id is not past the end of the table under a limit
that admits it. -/
theorem boundsIndex_iff (call : TableCall) (s : Tables W) :
    BoundsIndex call s ↔ ¬ call.PastEnd := by
  constructor
  · intro hbounds hpast
    cases call.ends s with
    | asserted hid => exact hid hpast
    | past hid happly hthrows => exact not_keepsTo_of_throws hthrows (by decide) hbounds
    | accessed hid => exact hid hpast
  · intro h
    exact boundsIndex_of_not_pastEnd h s

/-- The id just past the sources is admitted as that of a transformer. -/
theorem not_boundsIndex_addTransformer :
    let s : Tables Unit := ⟨.zero, perfInit⟩
    let call := TableCall.addTransformer .source maxSources id
    Throws call.program s .outOfBounds s [⟨.sources, maxSources⟩] ∧
      ¬ ∀ call : TableCall, BoundsIndex call s := by
  intro s call
  have hthrows : Throws call.program s .outOfBounds s [⟨.sources, maxSources⟩] := by
    apply Throws.bind
    apply (returns_assert (Nat.le_refl maxSources) Fault.assertFailed s).bind_throws
    exact (throws_address tableSize .sources (Nat.lt_irrefl maxSources) _ s).bind
  exact ⟨hthrows, fun hall => not_keepsTo_of_throws hthrows (by decide) (hall call)⟩

/-- Calls without such an id access slots of the tables only, one after the other. -/
theorem calls_inBounds {calls : List TableCall} (h : ∀ call ∈ calls, ¬ call.PastEnd)
    (s : Tables W) : InBounds tableSize .assertFailed (calls.mapM TableCall.program) s :=
  inBounds_mapM (fun call hmem s => (boundsIndex_of_not_pastEnd (h call hmem) s).inBounds) s

end SecureGateway
