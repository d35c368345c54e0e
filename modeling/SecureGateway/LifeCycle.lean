import SecureGateway.Gateway
import SecureGateway.InitAttempts
import Mathlib.Data.List.FinRange

/-!
# The life cycle of connection objects

A hook allocates a connection object and stores it in `opaque` of a source and of a
sink, together with the routines that initialize and clean it up. The routines take the
object, but `pipeline_connect` and `pipeline_disconnect` pass them the source or the sink.

## Implementation notes

The first member of a source, of a sink and of every connection object is a `bool`; a
routine that is given another record reads and writes that record's first member. What
else a routine does to a record that is not its object is not modelled: a cleanup routine
ends in `free`, which a slot of a static array does not survive, so that of the calls that
`pipeline_disconnect` logs here only the first is made before the process is aborted.
-/

namespace SecureGateway

open Library

/-- The connections that hooks with a source and a sink exist for. -/
inductive ConnectionKind
  | tcp
  | udp
  | tcpout
  | uart
deriving DecidableEq

/-- What a routine is called with. -/
inductive Pointer
  | source (i : Fin maxSources)
  | sink (k : Fin maxSinks)
  | object (n : Nat)
deriving DecidableEq

/-- The members of a source or a sink that the life cycle uses; a routine is named by the
kind of connection it is for. -/
structure LifeSlot where
  isConnected : Bool
  opaquePtr : Option Nat
  init : Option ConnectionKind
  cleanup : Option ConnectionKind

/-- A slot after `memset` to zero. -/
def LifeSlot.zero : LifeSlot := ⟨false, none, none, none⟩

structure ConnectionObject where
  kind : ConnectionKind
  initialized : Bool

/-- A call of an initialization routine with the code it returned. -/
structure InitCall where
  kind : ConnectionKind
  ptr : Pointer
  code : InitCode
deriving DecidableEq

/-- A call of a cleanup routine. -/
structure CleanupCall where
  kind : ConnectionKind
  ptr : Pointer
deriving DecidableEq

/-- The slots, the objects in the order of their allocation, and the calls made so far. -/
structure LifeCycle where
  sources : Fin maxSources → LifeSlot
  sinks : Fin maxSinks → LifeSlot
  objects : List ConnectionObject
  inits : List InitCall
  cleanups : List CleanupCall

/-- After `pipeline_init`. -/
def LifeCycle.start : LifeCycle := ⟨fun _ => .zero, fun _ => .zero, [], [], []⟩

/-- The first member of the record a pointer refers to. -/
def LifeCycle.flag (s : LifeCycle) : Pointer → Bool
  | .source i => (s.sources i).isConnected
  | .sink k => (s.sinks k).isConnected
  | .object n => s.objects[n]?.any ConnectionObject.initialized

def LifeCycle.setFlag (s : LifeCycle) (ptr : Pointer) (flag : Bool) : LifeCycle :=
  match ptr with
  | .source i =>
      { s with sources := Function.update s.sources i { s.sources i with isConnected := flag } }
  | .sink k => { s with sinks := Function.update s.sinks k { s.sinks k with isConnected := flag } }
  | .object n => { s with objects := s.objects.modify n fun o => { o with initialized := flag } }

/-! ### Registration -/

/-- A call of one of the hooks, with whether its allocation succeeds. -/
structure HookCall where
  kind : ConnectionKind
  sourceId : Fin maxSources
  sinkType : Fin maxSinks
  malloc : Bool

/-- What `source_allocate` and `sink_allocate` do to a slot, and what the hook stores in it. -/
def LifeSlot.hooked (slot : LifeSlot) (object : Nat) (kind : ConnectionKind) : LifeSlot :=
  { slot with
    isConnected := true
    opaquePtr := some object
    init := some kind
    cleanup := some kind }

/-- `hook_tcp`, `hook_udp`, `hook_tcpout` and `hook_uart`. -/
def hookConnection (s : LifeCycle) (call : HookCall) : LifeCycle :=
  if call.malloc then
    let object := s.objects.length
    { s with
      objects := s.objects ++ [⟨call.kind, false⟩]
      sources := Function.update s.sources call.sourceId
        ((s.sources call.sourceId).hooked object call.kind)
      sinks := Function.update s.sinks call.sinkType
        ((s.sinks call.sinkType).hooked object call.kind) }
  else s

def hookConnections (calls : List HookCall) : LifeCycle := calls.foldl hookConnection .start

/-! ### Connecting and disconnecting -/

/-- `tcp_init`, `udp_init` and `uart_init`: each returns at once if its argument says it is
initialized, else its calls come out as `outcome`. -/
def initRoutine (s : LifeCycle) (kind : ConnectionKind) (ptr : Pointer) (outcome : InitCode) :
    LifeCycle :=
  if s.flag ptr then { s with inits := s.inits ++ [⟨kind, ptr, .succ⟩] }
  else
    let s := if outcome = .succ then s.setFlag ptr true else s
    { s with inits := s.inits ++ [⟨kind, ptr, outcome⟩] }

/-- `tcp_cleanup`, `udp_cleanup` and `uart_cleanup`; only that for UDP asks first whether its
argument says it is initialized. The closing `free` of the argument is left out: it aborts on
a slot. -/
def cleanupRoutine (s : LifeCycle) (kind : ConnectionKind) (ptr : Pointer) : LifeCycle :=
  let s := { s with cleanups := s.cleanups ++ [⟨kind, ptr⟩] }
  if kind = .udp ∧ s.flag ptr = false then s else s.setFlag ptr false

section Loops

variable (outcomes : Nat → InitCode)

/-- One iteration of the first loop of `pipeline_connect`. -/
def connectSource (s : LifeCycle) (i : Fin maxSources) : LifeCycle :=
  if (s.sources i).isConnected then
    match (s.sources i).init with
    | none => s
    | some kind => initRoutine s kind (.source i) (outcomes s.inits.length)
  else s

/-- One iteration of the second loop of `pipeline_connect`. -/
def connectSink (s : LifeCycle) (k : Fin maxSinks) : LifeCycle :=
  if (s.sinks k).isConnected then
    match (s.sinks k).init with
    | none => s
    | some kind => initRoutine s kind (.sink k) (outcomes s.inits.length)
  else s

/-- `pipeline_connect`; `outcomes` is how an initialization that is carried out ends. -/
def pipelineConnect (s : LifeCycle) : LifeCycle :=
  (List.finRange maxSinks).foldl (connectSink outcomes)
    ((List.finRange maxSources).foldl (connectSource outcomes) s)

/-- One iteration of the first loop of `pipeline_disconnect`. -/
def disconnectSource (s : LifeCycle) (i : Fin maxSources) : LifeCycle :=
  if (s.sources i).isConnected then
    match (s.sources i).cleanup with
    | none => s
    | some kind => cleanupRoutine s kind (.source i)
  else s

/-- One iteration of the second loop of `pipeline_disconnect`. -/
def disconnectSink (s : LifeCycle) (k : Fin maxSinks) : LifeCycle :=
  if (s.sinks k).isConnected then
    match (s.sinks k).cleanup with
    | none => s
    | some kind => cleanupRoutine s kind (.sink k)
  else s

/-- The calls `pipeline_disconnect` sets out to make, as if each returned. -/
def pipelineDisconnect (s : LifeCycle) : LifeCycle :=
  (List.finRange maxSinks).foldl disconnectSink
    ((List.finRange maxSources).foldl disconnectSource s)

end Loops

/-! ### The life cycle that the hooks ask for -/

/-- The object is stored in a connected source or sink. -/
def LifeCycle.Stores (s : LifeCycle) (n : Nat) : Prop :=
  (∃ i, (s.sources i).isConnected = true ∧ (s.sources i).opaquePtr = some n) ∨
    ∃ k, (s.sinks k).isConnected = true ∧ (s.sinks k).opaquePtr = some n

/-- Every object stored is initialized, or its own routine reported an error for it. -/
def LifeCycle.AllInitialized (s : LifeCycle) : Prop :=
  ∀ n, s.Stores n → ∃ o, s.objects[n]? = some o ∧
    (o.initialized = true ∨ ∃ c ∈ s.inits, c.kind = o.kind ∧ c.ptr = .object n ∧ c.code ≠ .succ)

/-- Every object was cleaned up by its own routine exactly once. -/
def LifeCycle.AllCleanedOnce (s : LifeCycle) : Prop :=
  ∀ n o, s.objects[n]? = some o → s.cleanups.count ⟨o.kind, .object n⟩ = 1

/-- The hooks allocated no object. -/
def NoObject (calls : List HookCall) : Prop := ∀ call ∈ calls, call.malloc = false

/-! ### What the hooks leave -/

/-- No object is initialized yet, slots store only objects there are, and if there are objects
one is stored. -/
structure LifeCycle.Hooked (s : LifeCycle) : Prop where
  uninitialized : ∀ o ∈ s.objects, o.initialized = false
  stored : ∀ n, s.Stores n → n < s.objects.length
  stores : s.objects ≠ [] → ∃ n, s.Stores n
  inits : s.inits = []
  cleanups : s.cleanups = []

theorem stores_hookConnection {s : LifeCycle} {call : HookCall} {n : Nat}
    (h : (hookConnection s call).Stores n) : s.Stores n ∨ n = s.objects.length := by
  unfold hookConnection at h
  split at h
  · rcases h with ⟨i, hconnected, hopaque⟩ | ⟨k, hconnected, hopaque⟩
    · by_cases hi : i = call.sourceId
      · subst hi
        simp only [Function.update_self, LifeSlot.hooked, Option.some.injEq] at hopaque
        exact Or.inr hopaque.symm
      · simp only [Function.update_of_ne hi] at hconnected hopaque
        exact Or.inl (Or.inl ⟨i, hconnected, hopaque⟩)
    · by_cases hk : k = call.sinkType
      · subst hk
        simp only [Function.update_self, LifeSlot.hooked, Option.some.injEq] at hopaque
        exact Or.inr hopaque.symm
      · simp only [Function.update_of_ne hk] at hconnected hopaque
        exact Or.inl (Or.inr ⟨k, hconnected, hopaque⟩)
  · exact Or.inl h

theorem hookConnection_objects (s : LifeCycle) (call : HookCall) :
    (hookConnection s call).objects =
      if call.malloc then s.objects ++ [⟨call.kind, false⟩] else s.objects := by
  unfold hookConnection
  split <;> rfl

theorem hookConnection_hooked {s : LifeCycle} (h : s.Hooked) (call : HookCall) :
    (hookConnection s call).Hooked := by
  by_cases hmalloc : call.malloc = true
  · have hobjects : (hookConnection s call).objects = s.objects ++ [⟨call.kind, false⟩] := by
      rw [hookConnection_objects, if_pos hmalloc]
    constructor
    · rw [hobjects, List.forall_mem_append, List.forall_mem_singleton]
      exact ⟨h.uninitialized, rfl⟩
    · intro n hn
      rw [hobjects, List.length_append, List.length_singleton]
      rcases stores_hookConnection hn with hold | rfl
      · exact Nat.lt_succ_of_lt (h.stored n hold)
      · exact Nat.lt_succ_self _
    · intro _
      refine ⟨s.objects.length, Or.inl ⟨call.sourceId, ?_, ?_⟩⟩
      · simp [hookConnection, hmalloc, LifeSlot.hooked]
      · simp [hookConnection, hmalloc, LifeSlot.hooked]
    · simp [hookConnection, hmalloc, h.inits]
    · simp [hookConnection, hmalloc, h.cleanups]
  · rw [hookConnection, if_neg hmalloc]
    exact h

theorem hookConnections_append (calls : List HookCall) (call : HookCall) :
    hookConnections (calls ++ [call]) = hookConnection (hookConnections calls) call := by
  simp [hookConnections, List.foldl_append]

theorem hookConnections_hooked (calls : List HookCall) : (hookConnections calls).Hooked := by
  induction calls using List.reverseRecOn with
  | nil =>
      constructor
      · intro o ho
        cases ho
      · rintro n (⟨i, hconnected, -⟩ | ⟨k, hconnected, -⟩) <;> cases hconnected
      · intro h
        exact absurd rfl h
      · rfl
      · rfl
  | append_singleton calls call ih =>
      rw [hookConnections_append]
      exact hookConnection_hooked ih call

theorem hookConnections_objects_eq_nil_iff (calls : List HookCall) :
    (hookConnections calls).objects = [] ↔ NoObject calls := by
  induction calls using List.reverseRecOn with
  | nil => simp [hookConnections, LifeCycle.start, NoObject]
  | append_singleton calls call ih =>
      rw [hookConnections_append, hookConnection_objects]
      cases hmalloc : call.malloc with
      | true => simp [NoObject, hmalloc]
      | false => simpa [NoObject, hmalloc, or_imp, forall_and] using ih

/-! ### What the loops do -/

/-- The objects are as they were, and no call was given one. -/
structure LifeCycle.Untouched (before s : LifeCycle) : Prop where
  objects : s.objects = before.objects
  inits : ∀ c ∈ s.inits, ∀ n, c.ptr ≠ .object n
  cleanups : ∀ c ∈ s.cleanups, ∀ n, c.ptr ≠ .object n

/-- So are the slots. -/
structure LifeCycle.Connecting (before s : LifeCycle) : Prop extends before.Untouched s where
  sources : s.sources = before.sources
  sinks : s.sinks = before.sinks

/-- An initialization that is given a connected slot finds it initialized. -/
theorem initRoutine_connecting {before s : LifeCycle} (h : before.Connecting s)
    (kind : ConnectionKind) {ptr : Pointer} (hptr : ∀ n, ptr ≠ .object n)
    (hflag : s.flag ptr = true) (outcome : InitCode) :
    before.Connecting (initRoutine s kind ptr outcome) := by
  rw [initRoutine, if_pos hflag]
  exact { h with
    inits := by
      rw [List.forall_mem_append, List.forall_mem_singleton]
      exact ⟨h.inits, hptr⟩ }

theorem connectSource_connecting {before s : LifeCycle} (h : before.Connecting s)
    (outcomes : Nat → InitCode) (i : Fin maxSources) :
    before.Connecting (connectSource outcomes s i) := by
  unfold connectSource
  split
  · rename_i hconnected
    cases (s.sources i).init with
    | none => exact h
    | some kind =>
        have hptr (n : Nat) : Pointer.source i ≠ .object n := by simp
        exact initRoutine_connecting h kind hptr hconnected _
  · exact h

theorem connectSink_connecting {before s : LifeCycle} (h : before.Connecting s)
    (outcomes : Nat → InitCode) (k : Fin maxSinks) :
    before.Connecting (connectSink outcomes s k) := by
  unfold connectSink
  split
  · rename_i hconnected
    cases (s.sinks k).init with
    | none => exact h
    | some kind =>
        have hptr (n : Nat) : Pointer.sink k ≠ .object n := by simp
        exact initRoutine_connecting h kind hptr hconnected _
  · exact h

/-- Connecting initializes no object. -/
theorem pipelineConnect_connecting {before : LifeCycle} (h : before.Connecting before)
    (outcomes : Nat → InitCode) : before.Connecting (pipelineConnect outcomes before) := by
  have hsources : before.Connecting
      ((List.finRange maxSources).foldl (connectSource outcomes) before) :=
    List.foldlRecOn _ _ h fun s hs i _ => connectSource_connecting hs outcomes i
  exact List.foldlRecOn _ _ hsources fun s hs k _ => connectSink_connecting hs outcomes k

theorem cleanupRoutine_untouched {before s : LifeCycle} (h : before.Untouched s)
    (kind : ConnectionKind) {ptr : Pointer} (hptr : ∀ n, ptr ≠ .object n) :
    before.Untouched (cleanupRoutine s kind ptr) := by
  have hlogged : before.Untouched { s with cleanups := s.cleanups ++ [⟨kind, ptr⟩] } :=
    { h with
      cleanups := by
        rw [List.forall_mem_append, List.forall_mem_singleton]
        exact ⟨h.cleanups, hptr⟩ }
  simp only [cleanupRoutine]
  split
  · exact hlogged
  · cases ptr with
    | source i => exact ⟨hlogged.objects, hlogged.inits, hlogged.cleanups⟩
    | sink k => exact ⟨hlogged.objects, hlogged.inits, hlogged.cleanups⟩
    | object n => exact absurd rfl (hptr n)

theorem disconnectSource_untouched {before s : LifeCycle} (h : before.Untouched s)
    (i : Fin maxSources) : before.Untouched (disconnectSource s i) := by
  unfold disconnectSource
  split
  · cases (s.sources i).cleanup with
    | none => exact h
    | some kind => exact cleanupRoutine_untouched h kind (by simp)
  · exact h

theorem disconnectSink_untouched {before s : LifeCycle} (h : before.Untouched s)
    (k : Fin maxSinks) : before.Untouched (disconnectSink s k) := by
  unfold disconnectSink
  split
  · cases (s.sinks k).cleanup with
    | none => exact h
    | some kind => exact cleanupRoutine_untouched h kind (by simp)
  · exact h

/-- Disconnecting cleans up no object. -/
theorem pipelineDisconnect_untouched {before s : LifeCycle} (h : before.Untouched s) :
    before.Untouched (pipelineDisconnect s) := by
  have hsources : before.Untouched ((List.finRange maxSources).foldl disconnectSource s) :=
    List.foldlRecOn _ _ h fun s hs i _ => disconnectSource_untouched hs i
  exact List.foldlRecOn _ _ hsources fun s hs k _ => disconnectSink_untouched hs k

theorem hookConnections_connecting (calls : List HookCall) :
    (hookConnections calls).Connecting (hookConnections calls) := by
  have h := hookConnections_hooked calls
  refine ⟨⟨rfl, ?_, ?_⟩, rfl, rfl⟩
  · rw [h.inits]
    intro c hc
    cases hc
  · rw [h.cleanups]
    intro c hc
    cases hc

/-- Connecting initializes every object that is stored only where there is none. -/
theorem allInitialized_iff (calls : List HookCall) (outcomes : Nat → InitCode) :
    (pipelineConnect outcomes (hookConnections calls)).AllInitialized ↔ NoObject calls := by
  have hhooked := hookConnections_hooked calls
  have hafter := pipelineConnect_connecting (hookConnections_connecting calls) outcomes
  have hstores (n : Nat) : (pipelineConnect outcomes (hookConnections calls)).Stores n ↔
      (hookConnections calls).Stores n := by
    rw [LifeCycle.Stores, LifeCycle.Stores, hafter.sources, hafter.sinks]
  rw [← hookConnections_objects_eq_nil_iff]
  constructor
  · intro hall
    by_contra hne
    obtain ⟨n, hn⟩ := hhooked.stores hne
    obtain ⟨o, ho, hinit | ⟨c, hc, -, hptr, -⟩⟩ := hall n ((hstores n).mpr hn)
    · rw [hafter.objects] at ho
      rw [hhooked.uninitialized o (List.mem_of_getElem? ho)] at hinit
      cases hinit
    · exact hafter.inits c hc n hptr
  · intro hnil n hn
    have hlt := hhooked.stored n ((hstores n).mp hn)
    rw [hnil] at hlt
    exact absurd hlt (Nat.not_lt_zero n)

/-- Disconnecting cleans up every object once only where there is none. -/
theorem allCleanedOnce_iff (calls : List HookCall) (outcomes : Nat → InitCode) :
    (pipelineDisconnect (pipelineConnect outcomes (hookConnections calls))).AllCleanedOnce ↔
      NoObject calls := by
  have hconnected := pipelineConnect_connecting (hookConnections_connecting calls) outcomes
  have hafter := pipelineDisconnect_untouched hconnected.toUntouched
  rw [← hookConnections_objects_eq_nil_iff]
  constructor
  · intro hall
    cases hobjects : (hookConnections calls).objects with
    | nil => rfl
    | cons o os =>
        have hcount := hall 0 o (by rw [hafter.objects, hobjects]; rfl)
        have hmem : (⟨o.kind, .object 0⟩ : CleanupCall) ∈
            (pipelineDisconnect (pipelineConnect outcomes (hookConnections calls))).cleanups := by
          apply List.count_pos_iff.mp
          rw [hcount]
          exact Nat.one_pos
        exact absurd rfl (hafter.cleanups _ hmem 0)
  · intro hnil n o ho
    rw [hafter.objects, hnil] at ho
    cases ho

/-- Whatever hooks are called, connecting initializes every connection object it finds, and
disconnecting then cleans up every object exactly once, only if there is no object at all. -/
theorem lifeCycle_iff (calls : List HookCall) (outcomes : Nat → InitCode) :
    let connected := pipelineConnect outcomes (hookConnections calls)
    ((connected.AllInitialized ∧ (pipelineDisconnect connected).AllCleanedOnce) ↔
        NoObject calls) ∧
      (connected.AllInitialized ↔ NoObject calls) ∧
      ((pipelineDisconnect connected).AllCleanedOnce ↔ NoObject calls) := by
  intro connected
  have hinit := allInitialized_iff calls outcomes
  have hcleaned := allCleanedOnce_iff calls outcomes
  refine ⟨?_, hinit, hcleaned⟩
  exact (and_congr hinit hcleaned).trans (and_self_iff)

/-- A UDP connection for the autopilot: its object is not initialized and not cleaned up. -/
theorem lifeCycle_udp :
    ¬ ∀ (calls : List HookCall) (outcomes : Nat → InitCode),
      (calls.map HookCall.sourceId).Nodup → (calls.map HookCall.sinkType).Nodup →
      (pipelineConnect outcomes (hookConnections calls)).AllInitialized ∧
        (pipelineDisconnect
          (pipelineConnect outcomes (hookConnections calls))).AllCleanedOnce := by
  intro hall
  have hudp := hall [⟨.udp, ⟨1, by decide⟩, ⟨1, by decide⟩, true⟩] (fun _ => .succ)
    (by decide) (by decide)
  have hnone := (allInitialized_iff _ _).mp hudp.1
  exact absurd (hnone _ List.mem_cons_self) (by decide)

end SecureGateway
