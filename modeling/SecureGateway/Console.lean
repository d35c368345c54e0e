import Mathlib.Data.List.Forall2
import SecureGateway.Mediation

/-!
# The operator's console and the main loop

A build with the console polls the keyboard once a round, at most every 100 ms, and runs
the handler of the key it finds. `main` runs rounds until `terminated` is set.

## Implementation notes

Standard input is a terminal without line editing, read through the buffer of the C
library: `select` looks at the terminal, `getchar` at the buffer first. Whether `char` is
signed depends on the platform, so it is a parameter, as the size of the buffer is. What
was taken out of the buffer is noted and not read by the code.
-/

namespace SecureGateway

open Library

variable {W G : Type}

/-- Standard input: what was typed and not yet fetched, and what the C library has fetched. -/
structure Stdin where
  typed : List UInt8
  buffered : List UInt8
  closed : Bool
  taken : List UInt8

/-- The platform: whether `char` is signed, and one less than the bytes fetched at a time. -/
structure Tty where
  charSigned : Bool
  fetched : Nat

/-- A byte stored in a `char`. -/
def Tty.char (tty : Tty) (byte : UInt8) : Int :=
  if tty.charSigned ∧ 128 ≤ byte.toNat then byte.toNat - 256 else byte.toNat

/-- `getchar`, with nothing at the end of the file. -/
def getchar (tty : Tty) (stdin : Stdin) : Option UInt8 × Stdin :=
  match stdin.buffered, stdin.typed with
  | byte :: rest, _ => (some byte, { stdin with buffered := rest, taken := stdin.taken ++ [byte] })
  | [], byte :: rest =>
      (some byte, { stdin with buffered := rest.take tty.fetched
                               typed := rest.drop tty.fetched
                               taken := stdin.taken ++ [byte] })
  | [], [] => (none, stdin)

/-- `FD_ISSET` after `select`: the terminal has something, if only the end of the file. -/
def Stdin.ready (stdin : Stdin) : Bool := !stdin.typed.isEmpty || stdin.closed

/-- `EOF` is minus one, the `char` of the byte 255. -/
def readChar (tty : Tty) (stdin : Stdin) : Int × Stdin :=
  if stdin.ready then
    match getchar tty stdin with
    | (some byte, stdin) => (tty.char byte, stdin)
    | (none, stdin) => (tty.char 255, stdin)
  else (0, stdin)

def toEnableSecurityPolicy (p : Pipeline W) : Pipeline W := { p with policyEnabled := true }

def toDisableSecurityPolicy (p : Pipeline W) : Pipeline W := { p with policyEnabled := false }

def toEnableTransformer (p : Pipeline W) : Pipeline W := { p with transformEnabled := true }

def toDisableTransformer (p : Pipeline W) : Pipeline W := { p with transformEnabled := false }

/-- The table of 128 handlers; the entry that would terminate is commented out. -/
def consoleHandlers (c : Fin 128) : Option (Pipeline W → Pipeline W) :=
  if c.val = 'e'.toNat then some toEnableSecurityPolicy
  else if c.val = 'd'.toNat then some toDisableSecurityPolicy
  else if c.val = 't'.toNat then some toEnableTransformer
  else if c.val = 'f'.toNat then some toDisableTransformer
  else none

/-- The console with the time of its last poll. -/
structure Console where
  lastTime : BitVec 64
  stdin : Stdin

/-- What `console_spin` does with the character it was given. -/
def onChar (c : Int) (p : Pipeline W) : Except Fault (Pipeline W) :=
  if c = 0 then .ok p
  else if 0 ≤ c then
    if h : c.toNat < 128 then
      match consoleHandlers ⟨c.toNat, h⟩ with
      | some handler => .ok (handler p)
      | none => .ok p
    else .error .outOfBounds
  else .error .assertFailed

def consoleSpin (tty : Tty) (curTime : BitVec 64) (console : Console) (p : Pipeline W) :
    Except Fault (Console × Pipeline W) :=
  if curTime - console.lastTime < 100000 then .ok (console, p)
  else do
    let (c, stdin) := readChar tty console.stdin
    let p ← onChar c p
    return ({ lastTime := curTime, stdin := stdin }, p)

/-- A gateway with its console. -/
structure Gateway (W G : Type) where
  machine : Machine W G
  console : Console

/-- A fault and the gateway as it was. -/
structure GatewayHalt (W G : Type) where
  fault : Fault
  gateway : Gateway W G

/-- `pipeline_spin` of a build with the console. -/
def gatewaySpin (env : Env W G) (tty : Tty) (fuel : Nat) (g : Gateway W G) :
    Except (GatewayHalt W G) (Gateway W G) :=
  let (tstart, world) := env.timeUs g.machine.world
  match (List.finRange maxSources).foldlM (spinSource env fuel)
      { g.machine with world := world, hasLoad := false } with
  | .error halt => .error ⟨halt.fault, { g with machine := halt.machine }⟩
  | .ok m =>
      let (curTime, world) := env.timeUs m.world
      match consoleSpin tty curTime g.console m.pipeline with
      | .error fault => .error ⟨fault, { g with machine := { m with world := world } }⟩
      | .ok (console, pipeline) =>
          let (tend, world) := env.timeUs world
          let perf := perfExecUnitUpdate m.perf.perf (tend - tstart) m.hasLoad
          let (now, world) := env.timeUs world
          .ok { machine := { m with pipeline := pipeline, world := world
                                    perf := perfShow now { m.perf with perf := perf } }
                console := console }

/-- What happens to a running gateway: a round, keys typed, the terminal closed. -/
inductive MainEvent
  | spin (fuel : Nat)
  | type (keys : List UInt8)
  | close

/-- The loop of `main` makes no further round once `terminated` is set. -/
def mainStep (env : Env W G) (tty : Tty) (g : Gateway W G) :
    MainEvent → Except (GatewayHalt W G) (Gateway W G)
  | .spin fuel => if g.machine.pipeline.terminated then .ok g else gatewaySpin env tty fuel g
  | .type keys =>
      .ok { g with console := { g.console with
        stdin := { g.console.stdin with typed := g.console.stdin.typed ++ keys } } }
  | .close => .ok { g with console := { g.console with
      stdin := { g.console.stdin with closed := true } } }

def runMain (env : Env W G) (tty : Tty) (g : Gateway W G) (events : List MainEvent) :
    Except (GatewayHalt W G) (Gateway W G) :=
  events.foldlM (mainStep env tty) g

def Gateway.start (p : Pipeline W) (world : W) (parser : G) : Gateway W G where
  machine := .start p world parser
  console := { lastTime := 0, stdin := ⟨[], [], false, []⟩ }

/-- The gateway a run reached, whether or not it was cut short. -/
def finalGateway : Except (GatewayHalt W G) (Gateway W G) → Gateway W G
  | .ok g => g
  | .error halt => halt.gateway

/-! ### Keys -/

/-- A flag after a key, set by one key and cleared by another. -/
def keyFlag (on off : Char) (flag : Bool) (key : UInt8) : Bool :=
  if key.toNat = on.toNat then true else if key.toNat = off.toNat then false else flag

/-- A pipeline after the key. -/
def press (key : UInt8) (p : Pipeline W) : Pipeline W :=
  { p with policyEnabled := keyFlag 'e' 'd' p.policyEnabled key
           transformEnabled := keyFlag 't' 'f' p.transformEnabled key }

/-- A key below 128 is looked up; any other one ends the program. -/
theorem onChar_eq_ok_iff {tty : Tty} {key : UInt8} {p q : Pipeline W} :
    onChar (tty.char key) p = .ok q ↔ key.toNat < 128 ∧ q = press key p := by
  by_cases hkey : key.toNat < 128
  · have hchar : tty.char key = key.toNat := by
      rw [Tty.char, if_neg]
      omega
    rw [hchar]
    have hpress : onChar (key.toNat : Int) p = .ok (press key p) := by
      unfold onChar
      by_cases hzero : key.toNat = 0
      · rw [if_pos (by omega)]
        simp [press, keyFlag, hzero]
      · rw [if_neg (by omega), if_pos (by omega), dif_pos (by simpa using hkey)]
        simp only [consoleHandlers, Int.toNat_natCast, press, keyFlag]
        by_cases he : key.toNat = 'e'.toNat
        · simp [he, toEnableSecurityPolicy]
        · by_cases hd : key.toNat = 'd'.toNat
          · simp [hd, toDisableSecurityPolicy]
          · by_cases ht : key.toNat = 't'.toNat
            · simp [ht, toEnableTransformer]
            · by_cases hf : key.toNat = 'f'.toNat
              · simp [hf, toDisableTransformer]
              · simp only [if_neg he, if_neg hd, if_neg ht, if_neg hf]
    rw [hpress, Except.ok.injEq]
    exact ⟨fun h => ⟨hkey, h.symm⟩, fun h => h.2.symm⟩
  · have hlt : key.toNat < 256 := key.toNat_lt
    constructor
    · intro h
      unfold onChar Tty.char at h
      split at h
      · rw [if_neg (by omega), if_neg (by omega)] at h
        cases h
      · rw [if_neg (by omega), if_pos (by omega), dif_neg (by simpa using hkey)] at h
        cases h
    · rintro ⟨h, -⟩
      exact absurd h hkey

/-- The character of a poll: none, that of a key, or the end of the file. -/
theorem readChar_cases {tty : Tty} {stdin stdin' : Stdin} {c : Int}
    (h : readChar tty stdin = (c, stdin')) :
    (stdin.ready = false ∧ c = 0 ∧ stdin' = stdin) ∨
    (stdin.ready = true ∧
      ((∃ key, getchar tty stdin = (some key, stdin') ∧ c = tty.char key) ∨
        (getchar tty stdin = (none, stdin') ∧ c = tty.char 255))) := by
  unfold readChar at h
  cases hready : stdin.ready with
  | false =>
      rw [if_neg (by simp [hready])] at h
      cases h
      exact Or.inl ⟨rfl, rfl, rfl⟩
  | true =>
      rw [if_pos hready] at h
      refine Or.inr ⟨rfl, ?_⟩
      cases hget : getchar tty stdin with
      | mk key after =>
          rw [hget] at h
          cases key with
          | none =>
              cases h
              exact Or.inr ⟨rfl, rfl⟩
          | some key =>
              cases h
              exact Or.inl ⟨key, rfl, rfl⟩

/-- What a poll of the console can do: nothing, find nothing, or take one key. -/
theorem consoleSpin_cases {tty : Tty} {curTime : BitVec 64} {console console' : Console}
    {p q : Pipeline W} (h : consoleSpin tty curTime console p = .ok (console', q)) :
    (console'.stdin = console.stdin ∧ q = p) ∨
    (console.stdin.ready = true ∧ ∃ key, getchar tty console.stdin = (some key, console'.stdin) ∧
      key.toNat < 128 ∧ q = press key p) := by
  unfold consoleSpin at h
  split at h
  · cases h
    exact Or.inl ⟨rfl, rfl⟩
  · cases hread : readChar tty console.stdin with
    | mk c stdin =>
        rw [hread] at h
        obtain ⟨q', hchar, h⟩ := bind_eq_ok_iff.mp h
        cases h
        rcases readChar_cases hread with ⟨-, rfl, rfl⟩ | ⟨hready, ⟨key, hget, rfl⟩ | ⟨-, rfl⟩⟩
        · cases hchar
          exact Or.inl ⟨rfl, rfl⟩
        · obtain ⟨hlt, rfl⟩ := onChar_eq_ok_iff.mp hchar
          exact Or.inr ⟨hready, key, hget, hlt, rfl⟩
        · exact absurd (onChar_eq_ok_iff.mp hchar).1 (by decide)

/-- The keys of standard input in the order they were typed. -/
def Stdin.bytes (stdin : Stdin) : List UInt8 := stdin.taken ++ stdin.buffered ++ stdin.typed

/-- Taking a key moves it to those taken; none is lost or overtaken. -/
theorem getchar_spec {tty : Tty} {stdin stdin' : Stdin} {key : UInt8}
    (h : getchar tty stdin = (some key, stdin')) :
    stdin'.taken = stdin.taken ++ [key] ∧ stdin'.bytes = stdin.bytes ∧
      stdin'.closed = stdin.closed := by
  unfold getchar at h
  split at h
  · rename_i byte rest hbuffered
    cases h
    simp [Stdin.bytes, hbuffered]
  · rename_i byte rest hbuffered htyped
    cases h
    simp [Stdin.bytes, hbuffered, htyped]
  · cases h

/-! ### Rules for runs of the main loop -/

/-- A property of gateways that no byte, no bookkeeping and no poll of the console breaks. -/
structure RoundInvariant (env : Env W G) (tty : Tty) (Inv : Gateway W G → Prop) : Prop where
  bytes : ∀ console, ByteInvariant env fun m => Inv ⟨m, console⟩
  poll : ∀ m console console' curTime p, Inv ⟨m, console⟩ →
    consoleSpin tty curTime console m.pipeline = .ok (console', p) →
      Inv ⟨{ m with pipeline := p }, console'⟩

/-- A property of gateways that moreover nothing that happens to the terminal breaks. -/
structure GatewayInvariant (env : Env W G) (tty : Tty) (Inv : Gateway W G → Prop) : Prop
    extends RoundInvariant env tty Inv where
  typing : ∀ m console typed closed, Inv ⟨m, console⟩ →
    Inv ⟨m, { console with
      stdin := { console.stdin with typed := typed, closed := closed } }⟩

variable {env : Env W G} {tty : Tty} {Inv : Gateway W G → Prop}

theorem RoundInvariant.spin (hinv : RoundInvariant env tty Inv) (fuel : Nat)
    {g : Gateway W G} (hg : Inv g) :
    Inv (finalGateway (mainStep env tty g (.spin fuel))) := by
  have hbytes := hinv.bytes g.console
  have hloop : Inv ⟨finalMachine ((List.finRange maxSources).foldlM (spinSource env fuel)
      { g.machine with world := (env.timeUs g.machine.world).2, hasLoad := false }),
      g.console⟩ :=
    @foldlM_finalMachine W G (fun m => Inv ⟨m, g.console⟩) _ _
      (fun _ i hm => hbytes.pollInvariant.spinSource fuel i hm) _ _
      (hbytes.frame g.machine _ g.machine.perf false hg)
  simp only [mainStep, gatewaySpin]
  split
  · exact hg
  · split
    · rename_i halt hhalt
      rw [hhalt] at hloop
      exact hloop
    · rename_i m hm
      rw [hm] at hloop
      have hworld (world : W) : Inv ⟨{ m with world := world }, g.console⟩ :=
        hbytes.frame m world m.perf m.hasLoad hloop
      split
      · exact hworld _
      · rename_i console pipeline hpoll
        have hpolled := hinv.poll m g.console console _ pipeline hloop hpoll
        exact (hinv.bytes console).frame { m with pipeline := pipeline } _ _ m.hasLoad hpolled

theorem GatewayInvariant.mainStep (hinv : GatewayInvariant env tty Inv) (event : MainEvent)
    {g : Gateway W G} (hg : Inv g) : Inv (finalGateway (mainStep env tty g event)) := by
  cases event with
  | spin fuel => exact hinv.toRoundInvariant.spin fuel hg
  | type keys => exact hinv.typing g.machine g.console _ g.console.stdin.closed hg
  | close => exact hinv.typing g.machine g.console g.console.stdin.typed true hg

/-- What none of the steps breaks holds in the gateway a run reached. -/
theorem runMain_invariant {events : List MainEvent}
    (hstep : ∀ event ∈ events, ∀ g, Inv g → Inv (finalGateway (mainStep env tty g event)))
    {g : Gateway W G} (hg : Inv g) : Inv (finalGateway (runMain env tty g events)) := by
  unfold runMain
  induction events generalizing g with
  | nil => exact hg
  | cons event events ih =>
      have hfirst := hstep event List.mem_cons_self g hg
      rw [List.foldlM_cons]
      cases h : mainStep env tty g event with
      | error halt =>
          rw [h] at hfirst
          exact hfirst
      | ok g' =>
          rw [h] at hfirst
          exact ih (fun e he => hstep e (List.mem_cons_of_mem _ he)) hfirst

theorem GatewayInvariant.run (hinv : GatewayInvariant env tty Inv) (events : List MainEvent)
    {g : Gateway W G} (hg : Inv g) : Inv (finalGateway (runMain env tty g events)) :=
  runMain_invariant (fun event _ _ hg => hinv.mainStep event hg) hg

theorem RoundInvariant.run (hinv : RoundInvariant env tty Inv) (fuels : List Nat)
    {g : Gateway W G} (hg : Inv g) :
    Inv (finalGateway (runMain env tty g (fuels.map MainEvent.spin))) := by
  refine runMain_invariant ?_ hg
  intro event hevent g hg
  obtain ⟨fuel, -, rfl⟩ := List.mem_map.mp hevent
  exact hinv.spin fuel hg

/-- A property of machines for which the flags do not matter is kept by the main loop. -/
theorem ByteInvariant.gatewayInvariant {Inv : Machine W G → Prop}
    (hinv : ByteInvariant env Inv) (hflags : FlagInvariant Inv) (tty : Tty) :
    GatewayInvariant env tty fun g => Inv g.machine where
  bytes _ := hinv
  poll m console console' curTime p hm h := by
    rcases consoleSpin_cases h with ⟨-, rfl⟩ | ⟨-, key, -, -, rfl⟩
    · exact hm
    · exact hflags m _ _ hm
  typing _ _ _ _ hm := hm

/-! ### The flags -/

/-- The flags as the keys leave them. -/
def keyed (on off : Char) (flag : Bool) (keys : List UInt8) : Bool :=
  keys.foldl (keyFlag on off) flag

@[simp] theorem keyed_append_singleton (on off : Char) (flag : Bool) (keys : List UInt8)
    (key : UInt8) :
    keyed on off flag (keys ++ [key]) = keyFlag on off (keyed on off flag keys) key :=
  List.foldl_concat ..

/-- A delivery made when the first `n` keys had been taken. -/
def DeliveredAfter (start : Pipeline W) (taken : List UInt8) (t : Turn) (n : Nat) : Prop :=
  ∀ d, t.delivery = some d →
    d.policyEnabled = keyed 'e' 'd' start.policyEnabled (taken.take n) ∧
      d.transformEnabled = keyed 't' 'f' start.transformEnabled (taken.take n)

/-- The flags are those of the keys taken, and so they were for every message, the keys taking
effect in their order. -/
structure Gateway.Keyed (start : Pipeline W) (g : Gateway W G) : Prop where
  terminated : g.machine.pipeline.terminated = start.terminated
  policyEnabled : g.machine.pipeline.policyEnabled =
    keyed 'e' 'd' start.policyEnabled g.console.stdin.taken
  transformEnabled : g.machine.pipeline.transformEnabled =
    keyed 't' 'f' start.transformEnabled g.console.stdin.taken
  log : ∃ marks : List Nat, List.Forall₂ (DeliveredAfter start g.console.stdin.taken)
    g.machine.log marks ∧ marks.Pairwise (· ≤ ·) ∧ ∀ n ∈ marks, n ≤ g.console.stdin.taken.length

theorem keyed_start (p : Pipeline W) (world : W) (parser : G) :
    (Gateway.start p world parser).Keyed p where
  terminated := rfl
  policyEnabled := rfl
  transformEnabled := rfl
  log := ⟨[], List.Forall₂.nil, List.Pairwise.nil, fun _ h => absurd h List.not_mem_nil⟩

/-- One more turn, made under the present flags. -/
theorem Gateway.Keyed.turn {start : Pipeline W} {g : Gateway W G} (hg : g.Keyed start)
    {m : Machine W G} {t : Turn} (hlog : m.log = g.machine.log ++ [t])
    (hflags : m.pipeline.terminated = g.machine.pipeline.terminated ∧
      m.pipeline.policyEnabled = g.machine.pipeline.policyEnabled ∧
      m.pipeline.transformEnabled = g.machine.pipeline.transformEnabled)
    (hturn : ∀ d, t.delivery = some d → d.policyEnabled = g.machine.pipeline.policyEnabled ∧
      d.transformEnabled = g.machine.pipeline.transformEnabled) :
    Gateway.Keyed start ⟨m, g.console⟩ where
  terminated := hflags.1.trans hg.terminated
  policyEnabled := hflags.2.1.trans hg.policyEnabled
  transformEnabled := hflags.2.2.trans hg.transformEnabled
  log := by
    obtain ⟨marks, hmarks, hsorted, hbound⟩ := hg.log
    refine ⟨marks ++ [g.console.stdin.taken.length], ?_, ?_, ?_⟩
    · rw [hlog]
      refine List.rel_append hmarks (List.Forall₂.cons ?_ List.Forall₂.nil)
      intro d hd
      rw [List.take_length, ← hg.policyEnabled, ← hg.transformEnabled]
      exact hturn d hd
    · rw [List.pairwise_append]
      refine ⟨hsorted, List.pairwise_singleton _ _, ?_⟩
      intro n hn k hk
      rw [List.mem_singleton.mp hk]
      exact hbound n hn
    · rw [List.forall_mem_append, List.forall_mem_singleton]
      exact ⟨hbound, Nat.le_refl _⟩

/-- A key takes effect on what follows it only. -/
theorem Gateway.Keyed.key {start : Pipeline W} {g : Gateway W G} (hg : g.Keyed start)
    {console : Console} {key : UInt8}
    (htaken : console.stdin.taken = g.console.stdin.taken ++ [key]) :
    Gateway.Keyed start
      ⟨{ g.machine with pipeline := press key g.machine.pipeline }, console⟩ where
  terminated := hg.terminated
  policyEnabled := by
    rw [htaken, keyed_append_singleton, ← hg.policyEnabled]
    rfl
  transformEnabled := by
    rw [htaken, keyed_append_singleton, ← hg.transformEnabled]
    rfl
  log := by
    obtain ⟨marks, hmarks, hsorted, hbound⟩ := hg.log
    refine ⟨marks, ?_, hsorted, ?_⟩
    · refine List.forall₂_iff_zip.mpr ⟨hmarks.length_eq, ?_⟩
      intro t n hzip d hd
      have hle := hbound n (List.of_mem_zip hzip).2
      rw [htaken, List.take_append_of_le_length hle]
      exact List.forall₂_iff_zip.mp hmarks |>.2 hzip d hd
    · intro n hn
      rw [htaken, List.length_append]
      exact Nat.le_add_right_of_le (hbound n hn)

theorem keyed_invariant (env : Env W G) (tty : Tty) (start : Pipeline W) :
    GatewayInvariant env tty (Gateway.Keyed start) where
  bytes console :=
    { frame := fun _ _ _ _ hm => ⟨hm.terminated, hm.policyEnabled, hm.transformEnabled, hm.log⟩
      byte := by
        intro m i b m' hm _ h
        obtain ⟨cur, hcur⟩ := spinByte_pipeline h
        have hflags : m'.pipeline.terminated = m.pipeline.terminated ∧
            m'.pipeline.policyEnabled = m.pipeline.policyEnabled ∧
            m'.pipeline.transformEnabled = m.pipeline.transformEnabled := by
          rw [hcur]
          exact ⟨rfl, rfl, rfl⟩
        rcases spinByte_cases h with ⟨d, r, -, hdeliver, rfl⟩ | ⟨-, rfl⟩
        · obtain ⟨perf', -, -, rfl⟩ := deliver_eq_ok_iff.mp hdeliver
          refine Gateway.Keyed.turn hm rfl hflags ?_
          intro d hd
          cases hd
          exact ⟨rfl, rfl⟩
        · refine Gateway.Keyed.turn hm rfl hflags ?_
          intro d hd
          cases hd }
  poll m console console' curTime p hm h := by
    rcases consoleSpin_cases h with ⟨hstdin, rfl⟩ | ⟨-, key, hget, -, rfl⟩
    · have hlog := hm.log
      refine ⟨hm.terminated, ?_, ?_, ?_⟩
      · rw [hstdin]
        exact hm.policyEnabled
      · rw [hstdin]
        exact hm.transformEnabled
      · rw [hstdin]
        exact hlog
    · exact Gateway.Keyed.key hm (getchar_spec hget).1
  typing _ _ _ _ hm := ⟨hm.terminated, hm.policyEnabled, hm.transformEnabled, hm.log⟩

/-- What is typed at an event. -/
def MainEvent.keys : MainEvent → List UInt8
  | type keys => keys
  | _ => []

/-- A step of the main loop keeps every key in its place behind those typed before. -/
theorem mainStep_bytes (env : Env W G) (tty : Tty) (event : MainEvent) (g : Gateway W G) :
    (∀ g', mainStep env tty g event = .ok g' →
      g'.console.stdin.bytes = g.console.stdin.bytes ++ event.keys) ∧
    (∀ halt, mainStep env tty g event = .error halt →
      halt.gateway.console.stdin.bytes = g.console.stdin.bytes) := by
  have hpoll {curTime : BitVec 64} {p q : Pipeline W} {console' : Console}
      (h : consoleSpin tty curTime g.console p = .ok (console', q)) :
      console'.stdin.bytes = g.console.stdin.bytes := by
    rcases consoleSpin_cases h with ⟨hstdin, -⟩ | ⟨-, key, hget, -, -⟩
    · rw [hstdin]
    · exact (getchar_spec hget).2.1
  cases event with
  | spin fuel =>
      simp only [mainStep, MainEvent.keys, List.append_nil]
      split
      · constructor
        · intro g' h
          cases h
          rfl
        · intro halt h
          cases h
      · simp only [gatewaySpin]
        split
        · constructor
          · intro g' h
            cases h
          · intro halt h
            cases h
            rfl
        · split
          · constructor
            · intro g' h
              cases h
            · intro halt h
              cases h
              rfl
          · rename_i console pipeline hspin
            constructor
            · intro g' h
              cases h
              exact hpoll hspin
            · intro halt h
              cases h
  | type keys =>
      constructor
      · intro g' h
        cases h
        simp [Stdin.bytes, MainEvent.keys]
      · intro halt h
        cases h
  | close =>
      constructor
      · intro g' h
        cases h
        simp [Stdin.bytes, MainEvent.keys]
      · intro halt h
        cases h

theorem runMain_bytes (events : List MainEvent) (g : Gateway W G) :
    (finalGateway (runMain env tty g events)).console.stdin.bytes <+:
      g.console.stdin.bytes ++ events.flatMap MainEvent.keys := by
  unfold runMain
  induction events generalizing g with
  | nil => simp [finalGateway, pure, Except.pure]
  | cons event events ih =>
      obtain ⟨hok, herror⟩ := mainStep_bytes env tty event g
      rw [List.foldlM_cons]
      cases h : mainStep env tty g event with
      | error halt =>
          have hsame := herror halt h
          change halt.gateway.console.stdin.bytes <+: _
          rw [hsame]
          exact List.prefix_append _ _
      | ok g' =>
          have hnext := ih g'
          rw [hok g' h, List.append_assoc] at hnext
          exact hnext

theorem runMain_typed (env : Env W G) (tty : Tty) (p : Pipeline W) (world : W) (parser : G)
    (events : List MainEvent) :
    (finalGateway (runMain env tty (Gateway.start p world parser) events)).console.stdin.bytes <+:
      events.flatMap MainEvent.keys :=
  runMain_bytes events (Gateway.start p world parser)

/-- Whatever is typed and received, and when: the main loop never ends by itself, the keys
are taken in the order they were typed, and at every time the two flags are what the keys
taken make of them. Every message was judged under the flags of that time: its own number of
keys, which never goes down from one message to the next. -/
theorem console_keys (env : Env W G) (tty : Tty) (p : Pipeline W) (world : W) (parser : G)
    (events : List MainEvent) :
    let g := finalGateway (runMain env tty (Gateway.start p world parser) events)
    g.Keyed p ∧ g.console.stdin.bytes <+: events.flatMap MainEvent.keys := by
  intro g
  exact ⟨(keyed_invariant env tty p).run events (keyed_start p world parser),
    runMain_typed env tty p world parser events⟩

/-! ### The policies under the console -/

theorem setupOp_policyEnabled {p q : Pipeline W} {op : SetupOp W} (h : op.apply p = .ok q) :
    q.policyEnabled = p.policyEnabled := by
  cases op with
  | hook sourceId sinkType ops =>
      obtain ⟨⟨i, sources⟩, -, h⟩ := bind_eq_ok_iff.mp h
      obtain ⟨⟨k, sinks⟩, -, h⟩ := bind_eq_ok_iff.mp h
      cases h
      rfl
  | hookStdioSink sinkType route =>
      obtain ⟨_, -, h⟩ := bind_eq_ok_iff.mp h
      cases h
      rfl
  | addTransformer type id transform =>
      cases type with
      | source =>
          simp only [SetupOp.apply, addTransformer] at h
          split at h
          · split at h
            · cases h
              rfl
            · cases h
          · cases h
      | sink =>
          simp only [SetupOp.apply, addTransformer] at h
          split at h
          · obtain ⟨_, -, h⟩ := bind_eq_ok_iff.mp h
            cases h
            rfl
          · cases h
  | policyRegister policy =>
      obtain ⟨_, -, h⟩ := bind_eq_ok_iff.mp h
      cases h
      rfl

/-- After `pipeline_init` and any registrations the policies are enabled. -/
theorem configure_policyEnabled
    {securityPolicyInit : SecurityPolicyMgmt → Except Fault SecurityPolicyMgmt}
    {prior initial p : Pipeline W} {setup : List (SetupOp W)}
    (hinit : pipelineInit securityPolicyInit prior = .ok initial)
    (hsetup : configure initial setup = .ok p) : p.policyEnabled = true := by
  obtain ⟨policies, -, rfl⟩ := pipelineInit_eq_ok_iff.mp hinit
  have hstep : ∀ (q : Pipeline W), ∀ op ∈ setup, ∀ q',
      q.policyEnabled = true → op.apply q = .ok q' → q'.policyEnabled = true :=
    fun _ _ _ _ hq happly => (setupOp_policyEnabled happly).trans hq
  exact foldlM_invariant hstep rfl hsetup

/-- Without its clearing key a flag that is set stays set. -/
theorem keyed_true {on off : Char} {keys : List UInt8}
    (h : ∀ key ∈ keys, key.toNat ≠ off.toNat) : keyed on off true keys = true := by
  induction keys with
  | nil => rfl
  | cons key keys ih =>
      have hkey : keyFlag on off true key = true := by
        simp [keyFlag, h key List.mem_cons_self]
      rw [keyed, List.foldl_cons, hkey]
      exact ih fun key hmem => h key (List.mem_cons_of_mem _ hmem)

/-- What the console holds can be looked up, and the terminal is open. -/
structure Stdin.Ascii (stdin : Stdin) : Prop where
  keys : ∀ key ∈ stdin.buffered ++ stdin.typed, key.toNat < 128
  isOpen : stdin.closed = false

theorem getchar_ascii {stdin stdin' : Stdin} {key : UInt8} (hstdin : stdin.Ascii)
    (h : getchar tty stdin = (some key, stdin')) : key.toNat < 128 ∧ stdin'.Ascii := by
  obtain ⟨htaken, hbytes, hclosed⟩ := getchar_spec h
  have hrest : stdin.buffered ++ stdin.typed = key :: (stdin'.buffered ++ stdin'.typed) := by
    simp only [Stdin.bytes, htaken, List.append_assoc] at hbytes
    exact (List.append_cancel_left hbytes).symm
  have hkeys := hstdin.keys
  rw [hrest, List.forall_mem_cons] at hkeys
  exact ⟨hkeys.1, hkeys.2, hclosed.trans hstdin.isOpen⟩

/-- A poll that finds only keys below 128 does not fail. -/
theorem exists_consoleSpin (tty : Tty) (curTime : BitVec 64) {console : Console}
    (hstdin : console.stdin.Ascii) (p : Pipeline W) :
    ∃ console' q, consoleSpin tty curTime console p = .ok (console', q) ∧
      console'.stdin.Ascii := by
  unfold consoleSpin
  split
  · exact ⟨console, p, rfl, hstdin⟩
  · cases hread : readChar tty console.stdin with
    | mk c stdin =>
        rcases readChar_cases hread with ⟨-, rfl, rfl⟩ | ⟨hready, ⟨key, hget, rfl⟩ | ⟨hget, -⟩⟩
        · exact ⟨_, p, rfl, hstdin⟩
        · obtain ⟨hlt, hascii⟩ := getchar_ascii hstdin hget
          have hpress : onChar (tty.char key) p = .ok (press key p) :=
            onChar_eq_ok_iff.mpr ⟨hlt, rfl⟩
          simp only [hpress, ok_bind]
          exact ⟨_, _, rfl, hascii⟩
        · -- an open terminal that is ready has a key
          have hopen := hstdin.isOpen
          unfold getchar at hget
          split at hget
          · cases hget
          · cases hget
          · rename_i hbuffered htyped
            simp [Stdin.ready, htyped, hopen] at hready

/-- A run that stops short ran out of fuel. -/
def MainOnlyFuel (r : Except (GatewayHalt W G) (Gateway W G)) : Prop :=
  ∀ halt, r = .error halt → halt.fault = .outOfFuel

/-- Keys below 128 and an open terminal. -/
def MainEvent.IsAscii : MainEvent → Prop
  | spin _ => True
  | type keys => ∀ key ∈ keys, key.toNat < 128
  | close => False

theorem mainStep_onlyFuel (tty : Tty) {Inv : Machine W G → Prop} (hfree : FaultFree env Inv)
    {event : MainEvent} (hevent : event.IsAscii) {g : Gateway W G} (hg : Inv g.machine)
    (hstdin : g.console.stdin.Ascii) :
    MainOnlyFuel (mainStep env tty g event) ∧
      ∀ g', mainStep env tty g event = .ok g' → g'.console.stdin.Ascii := by
  cases event with
  | spin fuel =>
      simp only [mainStep]
      split
      · constructor
        · intro halt h
          cases h
        · intro g' h
          cases h
          exact hstdin
      · have hloop := foldlM_onlyFuel
          (fun m i hm => hfree.toByteInvariant.pollInvariant.spinSource fuel i hm)
          (fun m i hm => hfree.spinSource fuel i hm) (List.finRange maxSources)
          (hfree.frame g.machine (env.timeUs g.machine.world).2 g.machine.perf false hg)
        simp only [gatewaySpin]
        split
        · rename_i halt hhalt
          constructor
          · intro halt' h
            cases h
            exact hloop halt hhalt
          · intro g' h
            cases h
        · rename_i m hm
          obtain ⟨console, q, hspin, hascii⟩ := exists_consoleSpin tty
            (env.timeUs m.world).1 hstdin m.pipeline
          simp only [hspin]
          constructor
          · intro halt h
            cases h
          · intro g' h
            cases h
            exact hascii
  | type keys =>
      constructor
      · intro halt h
        cases h
      · intro g' h
        cases h
        refine ⟨?_, hstdin.isOpen⟩
        change ∀ key ∈ g.console.stdin.buffered ++ (g.console.stdin.typed ++ keys), _
        rw [← List.append_assoc, List.forall_mem_append]
        exact ⟨hstdin.keys, hevent⟩
  | close => exact absurd hevent id

theorem runMain_onlyFuel {Inv : Machine W G → Prop} (hfree : FaultFree env Inv)
    (hflags : FlagInvariant Inv) {events : List MainEvent} (hevents : ∀ e ∈ events, e.IsAscii)
    {g : Gateway W G} (hg : Inv g.machine) (hstdin : g.console.stdin.Ascii) :
    MainOnlyFuel (runMain env tty g events) := by
  unfold runMain
  induction events generalizing g with
  | nil =>
      intro halt h
      cases h
  | cons event events ih =>
      obtain ⟨honly, hascii⟩ := mainStep_onlyFuel tty hfree
        (hevents event List.mem_cons_self) hg hstdin
      have hnext := (hfree.toByteInvariant.gatewayInvariant hflags tty).mainStep event hg
      rw [List.foldlM_cons]
      cases h : mainStep env tty g event with
      | error halt =>
          rw [h] at honly
          exact honly
      | ok g' =>
          rw [h] at hnext
          exact ih (fun e he => hevents e (List.mem_cons_of_mem _ he)) hnext (hascii g' h)

/-- The gateway under its console: whatever is typed, the route calls are those the routes
and the policies call for under the flags of the time. As long as the key that disables the
policies is not typed, no message the shipped policies block is handed to a sink, whatever
else is typed; and typing keys below 128 on an open terminal never makes the gateway fail. -/
theorem console_guard
    {securityPolicyInit : SecurityPolicyMgmt → Except Fault SecurityPolicyMgmt}
    {prior initial p : Pipeline W} {setup : List (SetupOp W)}
    (hinit : pipelineInit securityPolicyInit prior = .ok initial)
    (hsetup : configure initial setup = .ok p) (hops : p.OpsKeepRouting)
    (hverdict : ∀ policy ∈ p.policies.policies, policy.VerdictIgnoresAttr)
    (env : Env W G) (tty : Tty) (world : W) (parser : G) (events : List MainEvent) :
    let r := runMain env tty (Gateway.start p world parser) events
    let log := (finalGateway r).machine.log
    (log.flatMap Turn.calls).map Prod.fst = log.flatMap (Turn.expected p) ∧
    ((∀ key ∈ events.flatMap MainEvent.keys, key.toNat ≠ 'd'.toNat) →
      ∀ codec, (∀ policy ∈ shippedPolicies codec, policy ∈ p.policies.policies) →
        ∀ t ∈ log, ∀ d, t.delivery = some d →
          (t.slot.val = SourceType.legacy.id ∨ t.slot.val = SourceType.enclave.id) →
          ShippedBlocks codec d.inspected.msg → t.calls = []) ∧
    ((∀ e ∈ events, e.IsAscii) → MainOnlyFuel r) := by
  intro r log
  have hconf := configure_configured (pipelineInit_configured hinit) hsetup
  have hfree := mediated_faultFree hconf hops hverdict env
  have hflags := mediated_flagInvariant (G := G) p
  have hmediated : Mediated p (finalGateway r).machine :=
    (hfree.toByteInvariant.gatewayInvariant hflags tty).run events (mediated_start p world parser)
  refine ⟨?_, ?_, ?_⟩
  · rw [List.map_flatMap]
    exact List.flatMap_congr fun t ht => (hmediated.log t ht).calls
  · intro hkeys codec hshipped t ht d hd hslot hblocks
    refine (hmediated.log t ht).blocked hshipped hslot hops hd ?_ hblocks
    have hkeyed := (keyed_invariant env tty p).run events (keyed_start p world parser)
    have hbytes := runMain_typed env tty p world parser events
    obtain ⟨marks, hmarks, -, -⟩ := hkeyed.log
    obtain ⟨i, hi, rfl⟩ := List.mem_iff_getElem.mp ht
    have hat := hmarks.get hi (hmarks.length_eq ▸ hi) d hd
    rw [hat.1, configure_policyEnabled hinit hsetup]
    apply keyed_true
    intro key hkey
    apply hkeys key
    apply hbytes.subset
    rw [Stdin.bytes, List.append_assoc]
    exact List.mem_append_left _ (List.mem_of_mem_take hkey)
  · intro hevents
    refine runMain_onlyFuel hfree hflags hevents (mediated_start p world parser) ?_
    exact ⟨fun key h => absurd h List.not_mem_nil, rfl⟩

/-- A heartbeat under an operator who enables what is enabled. -/
theorem console_guard_heartbeat :
    let r := runMain relayEnv ⟨true, 1023⟩ (Gateway.start relay (heartbeatBeside []) fun _ => [])
      [.type [101], .spin 20]
    ((finalGateway r).machine.log.flatMap Turn.calls).map Prod.fst =
      [⟨SinkType.vmc.id, by decide⟩] ∧ MainOnlyFuel r := by
  have hverdict : ∀ policy ∈ relay.policies.policies, policy.VerdictIgnoresAttr :=
    shippedPolicies_verdictIgnoresAttr wireCodec
  obtain ⟨hcalls, -, honly⟩ := console_guard (pipelineInit_shipped wireCodec) relay_setup
    relay_opsKeepRouting hverdict relayEnv ⟨true, 1023⟩ (heartbeatBeside []) (fun _ => [])
    [.type [101], .spin 20]
  refine ⟨hcalls.trans (by decide +kernel), honly ?_⟩
  simp [MainEvent.IsAscii]

/-! ### Keys left behind -/

/-- What the console can change of a pipeline: whether policies and transformers are on. -/
def Pipeline.flags (p : Pipeline W) : Bool × Bool := (p.policyEnabled, p.transformEnabled)

/-- No byte changes the flags. -/
theorem spinByte_flags {i : Fin maxSources} {byte : UInt8} {m m' : Machine W G}
    (h : spinByte env i byte m = .ok m') : m'.pipeline.flags = m.pipeline.flags := by
  obtain ⟨cur, hcur⟩ := spinByte_pipeline h
  rw [hcur]
  rfl

/-- What the console still holds when no more is typed. -/
structure Stdin.Waits (start stdin : Stdin) : Prop where
  isOpen : stdin.closed = false
  idle : stdin.typed = []
  buffered : stdin.buffered = start.buffered
  taken : stdin.taken = start.taken

theorem Stdin.Waits.not_ready {start stdin : Stdin} (h : start.Waits stdin) :
    stdin.ready = false := by
  simp [Stdin.ready, h.idle, h.isOpen]

/-- Without anything typed the rounds leave the console and the flags as they are. -/
theorem waits_invariant (env : Env W G) (tty : Tty) (start : Stdin) (flags : Bool × Bool) :
    RoundInvariant env tty fun g =>
      start.Waits g.console.stdin ∧ g.machine.pipeline.flags = flags where
  bytes _ :=
    ⟨fun _ _ _ _ hm => hm, fun _ _ _ _ hm _ h => ⟨hm.1, (spinByte_flags h).trans hm.2⟩⟩
  poll m console console' curTime p hm h := by
    rcases consoleSpin_cases h with ⟨hstdin, hp⟩ | ⟨hready, -⟩
    · rw [hstdin, hp]
      exact hm
    · exact absurd (hm.1.not_ready.symm.trans hready) (by decide)

/-- The keys of one burst: not looked at yet, or fetched with the first one handled. -/
def Gateway.AfterBurst (start g : Gateway W G) : Prop :=
  (g.console.stdin = start.console.stdin ∧
    g.machine.pipeline.flags = start.machine.pipeline.flags) ∨
  ∃ key rest, start.console.stdin.typed = key :: rest ∧
    Stdin.Waits { start.console.stdin with
      buffered := rest, taken := start.console.stdin.taken ++ [key] } g.console.stdin ∧
    g.machine.pipeline.flags = (press key start.machine.pipeline).flags

theorem press_flags {p q : Pipeline W} (h : p.flags = q.flags) (key : UInt8) :
    (press key p).flags = (press key q).flags := by
  obtain ⟨hpolicy, htransform⟩ := Prod.mk.inj h
  simp [Pipeline.flags, press, hpolicy, htransform]

theorem afterBurst_invariant (env : Env W G) (tty : Tty) {start : Gateway W G}
    (hopen : start.console.stdin.closed = false) (hbuffered : start.console.stdin.buffered = [])
    (hfits : start.console.stdin.typed.length ≤ tty.fetched + 1) :
    RoundInvariant env tty start.AfterBurst where
  bytes _ := by
    refine ⟨fun _ _ _ _ hm => hm, ?_⟩
    intro m i byte m' hm _ h
    have hflags := spinByte_flags h
    rcases hm with ⟨hsame, hm⟩ | ⟨key, rest, htyped, hwaits, hm⟩
    · exact Or.inl ⟨hsame, hflags.trans hm⟩
    · exact Or.inr ⟨key, rest, htyped, hwaits, hflags.trans hm⟩
  poll m console console' curTime p hm h := by
    rcases consoleSpin_cases h with ⟨hstdin, hp⟩ | ⟨hready, key, hget, -, hp⟩
    · rw [Gateway.AfterBurst, hstdin, hp]
      exact hm
    · rcases hm with ⟨hm, hflags⟩ | ⟨first, rest, -, hwaits, -⟩
      · -- the first poll that looks fetches the whole burst
        dsimp only at hm hflags
        rw [hm] at hget
        unfold getchar at hget
        rw [hbuffered] at hget
        cases htyped : start.console.stdin.typed with
        | nil =>
            rw [htyped] at hget
            cases hget
        | cons first rest =>
            rw [htyped] at hget hfits
            simp only [Prod.mk.injEq, Option.some.injEq] at hget
            obtain ⟨rfl, hafter⟩ := hget
            have hrest : rest.length ≤ tty.fetched := by simpa using hfits
            refine Or.inr ⟨first, rest, htyped, ?_, ?_⟩
            · rw [← hafter]
              exact ⟨hopen, List.drop_eq_nil_of_le hrest, List.take_of_length_le hrest, rfl⟩
            · rw [hp]
              exact press_flags hflags first
      · exact absurd (hwaits.not_ready.symm.trans hready) (by decide)

/-- Over any number of rounds in which nothing is typed, a key that was fetched with an
earlier one is not handled, and the flags stay as they are. Of keys typed in one burst that is
fetched at once at most the first is handled: then the flags are those it makes, and the others
stay in the buffer. -/
theorem console_waits (env : Env W G) (tty : Tty) (g : Gateway W G) (fuels : List Nat)
    (hopen : g.console.stdin.closed = false) :
    let g' := finalGateway (runMain env tty g (fuels.map MainEvent.spin))
    (g.console.stdin.typed = [] →
      g'.console.stdin.taken = g.console.stdin.taken ∧
        g'.console.stdin.buffered = g.console.stdin.buffered ∧
        g'.machine.pipeline.flags = g.machine.pipeline.flags) ∧
    (g.console.stdin.buffered = [] → g.console.stdin.typed.length ≤ tty.fetched + 1 →
      (g'.console.stdin.taken = g.console.stdin.taken ∧
        g'.machine.pipeline.flags = g.machine.pipeline.flags) ∨
      ∃ key rest, g.console.stdin.typed = key :: rest ∧
        g'.console.stdin.taken = g.console.stdin.taken ++ [key] ∧
        g'.console.stdin.buffered = rest ∧
        g'.machine.pipeline.flags = (press key g.machine.pipeline).flags) := by
  intro g'
  constructor
  · intro hidle
    have hwaits : g.console.stdin.Waits g'.console.stdin ∧
        g'.machine.pipeline.flags = g.machine.pipeline.flags :=
      (waits_invariant env tty g.console.stdin _).run fuels ⟨⟨hopen, hidle, rfl, rfl⟩, rfl⟩
    exact ⟨hwaits.1.taken, hwaits.1.buffered, hwaits.2⟩
  · intro hbuffered hfits
    have hburst : g.AfterBurst g' :=
      (afterBurst_invariant env tty hopen hbuffered hfits).run fuels (Or.inl ⟨rfl, rfl⟩)
    rcases hburst with ⟨hsame, hflags⟩ | ⟨key, rest, htyped, hwaits, hflags⟩
    · exact Or.inl ⟨by rw [hsame], hflags⟩
    · exact Or.inr ⟨key, rest, htyped, hwaits.taken, hwaits.buffered, hflags⟩

/-- A clock that each reading moves on by a tenth of a second. -/
def tickingEnv : Env (Nat → List UInt8) (Nat → List UInt8) :=
  { relayEnv with
    timeUs := fun streams =>
      (BitVec.ofNat 64 (100000 * (streams maxSources).length),
        Function.update streams maxSources (0 :: streams maxSources)) }

/-- The operator disables the policies and enables them again in one burst. -/
def burstOfKeys : Gateway (Nat → List UInt8) (Nat → List UInt8) :=
  let g := Gateway.start relay (heartbeatBeside []) fun _ => []
  { g with console := { g.console with stdin := ⟨[100, 101], [], false, []⟩ } }

/-- Two rounds later the policies are off, and the other key is still in the buffer. -/
theorem console_waits_burst :
    let g := finalGateway (runMain tickingEnv ⟨true, 1023⟩ burstOfKeys ([20, 20].map .spin))
    g.console.stdin.taken = [100] ∧ g.console.stdin.buffered = [101] ∧
      g.machine.pipeline.flags = (false, false) := by
  intro g
  have htaken : g.console.stdin.taken = [100] := by decide +kernel
  rcases (console_waits tickingEnv ⟨true, 1023⟩ burstOfKeys [20, 20] rfl).2 rfl (by decide) with
    ⟨hnone, -⟩ | ⟨key, rest, htyped, -, hbuffered, hflags⟩
  · exact absurd (htaken.symm.trans hnone) (by decide)
  · obtain ⟨rfl, rfl⟩ := List.cons.inj htyped
    exact ⟨htaken, hbuffered, hflags.trans (by decide)⟩

end SecureGateway
