import SecureGateway.Library.Attempts

/-!
# Initialization attempts

`has_more` and `route_to` initialize a connection on first use and try again on every
round until they succeed. The initializations store the descriptor they open in `fd`
and return at the first call that fails.

## Implementation notes

An attempt is given the outcome of each call it could make. Descriptors are numbers,
`none` is `-1`, and a call that opens one gives a number that is not open.
-/

namespace SecureGateway

open Library

/-- The codes the initializations return. -/
inductive InitCode
  | succ
  | invalidState
  | ioFault
  | threadError
deriving DecidableEq

/-- The open descriptors after a call that opens one or fails. -/
def openFd (opened : Finset Nat) : Option Nat → Finset Nat
  | none => opened
  | some fd => insert fd opened

/-- A call that opens a descriptor gives one that is not open. -/
def freshFd (opened : Finset Nat) : Option Nat → Bool
  | none => true
  | some fd => decide (fd ∉ opened)

theorem openFd_ne {opened : Finset Nat} {fd : Option Nat} (hfresh : freshFd opened fd = true)
    (hfd : fd ≠ none) : openFd opened fd ≠ opened := by
  obtain ⟨fd, rfl⟩ := Option.ne_none_iff_exists'.mp hfd
  intro heq
  have hmem : fd ∈ openFd opened (some fd) := Finset.mem_insert_self fd opened
  rw [heq] at hmem
  exact of_decide_eq_true hfresh hmem

/-- The descriptors a field records. -/
def fdSet (fd : Option Nat) : Finset Nat := openFd ∅ fd

/-! ### TCP -/

/-- The fields of `struct tcp_socket_t` the initialization sets. -/
structure TcpSocket where
  initialized : Bool
  fd : Option Nat
  connection : Option Nat

/-- How the calls of `tcp_listen_to` come out. -/
structure ListenCalls where
  socket : Option Nat
  setsockopt : Bool
  bind : Bool
  listen : Bool

def tcpStateInit (tcp : TcpSocket) : TcpSocket := { tcp with connection := none }

def tcpListenTo (tcp : TcpSocket) (opened : Finset Nat) (calls : ListenCalls) :
    InitCode × TcpSocket × Finset Nat :=
  let tcp := { tcp with fd := calls.socket }
  let opened := openFd opened calls.socket
  if tcp.fd = none then (.ioFault, tcp, opened)
  else if calls.setsockopt = false then (.ioFault, tcp, opened)
  else if calls.bind = false then (.ioFault, tcp, opened)
  else if calls.listen = false then (.ioFault, tcp, opened)
  else (.succ, tcp, opened)

def tcpAcceptClient (tcp : TcpSocket) (opened : Finset Nat) (accept : Option Nat) :
    InitCode × TcpSocket × Finset Nat :=
  let tcp := { tcp with connection := accept }
  let opened := openFd opened accept
  if tcp.connection = none then (.ioFault, tcp, opened) else (.succ, tcp, opened)

/-- How the calls of `tcp_init` come out. -/
structure TcpCalls extends ListenCalls where
  accept : Option Nat

/-- `tcp_init`, the initialization without threads. -/
def tcpInit (tcp : TcpSocket) (opened : Finset Nat) (calls : TcpCalls) :
    InitCode × TcpSocket × Finset Nat :=
  if tcp.initialized then (.succ, tcp, opened)
  else
    match tcpListenTo (tcpStateInit tcp) opened calls.toListenCalls with
    | (.succ, tcp, opened) =>
        match tcpAcceptClient tcp opened calls.accept with
        | (.succ, tcp, opened) => (.succ, { tcp with initialized := true }, opened)
        | failed => failed
    | failed => failed

/-- How the calls of `tcp_init_mt` come out. -/
structure TcpMtCalls extends ListenCalls where
  thrdCreate : Bool

def tcpInitMt (tcp : TcpSocket) (opened : Finset Nat) (calls : TcpMtCalls) :
    InitCode × TcpSocket × Finset Nat :=
  if tcp.initialized then (.succ, tcp, opened)
  else
    match tcpListenTo (tcpStateInit tcp) opened calls.toListenCalls with
    | (.succ, tcp, opened) =>
        if calls.thrdCreate = false then (.threadError, tcp, opened)
        else (.succ, { tcp with initialized := true }, opened)
    | failed => failed

/-! ### UDP -/

/-- The fields of `struct udp_socket_t` the initialization sets. -/
structure UdpSocket where
  initialized : Bool
  fd : Option Nat

/-- How the calls of `udp_init` come out. -/
structure UdpCalls where
  socket : Option Nat
  bind : Bool
  thrdCreate : Bool

def udpInit (udp : UdpSocket) (opened : Finset Nat) (calls : UdpCalls) :
    InitCode × UdpSocket × Finset Nat :=
  if udp.initialized then (.succ, udp, opened)
  else
    let udp := { udp with fd := calls.socket }
    let opened := openFd opened calls.socket
    if udp.fd = none then (.ioFault, udp, opened)
    else if calls.bind = false then (.ioFault, udp, opened)
    else if calls.thrdCreate = false then (.threadError, udp, opened)
    else (.succ, { udp with initialized := true }, opened)

/-! ### UART -/

/-- The fields of `struct uart_connection_t` the initialization sets. -/
structure UartDevice where
  initialized : Bool
  fd : Option Nat

/-- How the calls of `uart_init` come out. -/
structure UartCalls where
  openDevice : Option Nat
  tcgetattr : Bool
  tcsetattr : Bool
  thrdCreate : Bool

def uartDeviceInit (uart : UartDevice) (opened : Finset Nat) (calls : UartCalls) :
    InitCode × UartDevice × Finset Nat :=
  let uart := { uart with fd := calls.openDevice }
  let opened := openFd opened calls.openDevice
  if uart.fd = none then (.ioFault, uart, opened)
  else if calls.tcgetattr = false then (.ioFault, uart, opened)
  else if calls.tcsetattr = false then (.ioFault, uart, opened)
  else (.succ, uart, opened)

/-- The code of `uart_state_init`, which opens nothing. -/
def uartStateInitCode : InitCode := .succ

def uartInit (uart : UartDevice) (opened : Finset Nat) (calls : UartCalls) :
    InitCode × UartDevice × Finset Nat :=
  if uart.initialized then (.succ, uart, opened)
  else
    match uartDeviceInit uart opened calls with
    | (.succ, uart, opened) =>
        if uartStateInitCode ≠ .succ then (.invalidState, uart, opened)
        else if calls.thrdCreate = false then (.threadError, uart, opened)
        else (.succ, { uart with initialized := true }, opened)
    | (_, uart, opened) => (.ioFault, uart, opened)

/-! ### The transports as objects that are initialized -/

/-- Every call of `tcp_listen_to` succeeds. -/
def ListenCalls.Succeed (calls : ListenCalls) : Prop :=
  calls.socket ≠ none ∧ calls.setsockopt = true ∧ calls.bind = true ∧ calls.listen = true

/-- A socket records its own descriptor and that of its connection. -/
def TcpSocket.recorded (tcp : TcpSocket) : Finset Nat := openFd (fdSet tcp.fd) tcp.connection

def tcpInitializer : Initializer TcpSocket TcpCalls InitCode Nat where
  initialized := TcpSocket.initialized
  recorded := TcpSocket.recorded
  init := tcpInit
  ok := .succ
  fresh := fun opened calls =>
    freshFd opened calls.socket && freshFd (openFd opened calls.socket) calls.accept
  FirstFails := fun calls => calls.socket = none
  Succeeds := fun calls => calls.toListenCalls.Succeed ∧ calls.accept ≠ none

def tcpMtInitializer : Initializer TcpSocket TcpMtCalls InitCode Nat where
  initialized := TcpSocket.initialized
  recorded := TcpSocket.recorded
  init := tcpInitMt
  ok := .succ
  fresh := fun opened calls => freshFd opened calls.socket
  FirstFails := fun calls => calls.socket = none
  Succeeds := fun calls => calls.toListenCalls.Succeed ∧ calls.thrdCreate = true

def udpInitializer : Initializer UdpSocket UdpCalls InitCode Nat where
  initialized := UdpSocket.initialized
  recorded := fun udp => fdSet udp.fd
  init := udpInit
  ok := .succ
  fresh := fun opened calls => freshFd opened calls.socket
  FirstFails := fun calls => calls.socket = none
  Succeeds := fun calls => calls.socket ≠ none ∧ calls.bind = true ∧ calls.thrdCreate = true

def uartInitializer : Initializer UartDevice UartCalls InitCode Nat where
  initialized := UartDevice.initialized
  recorded := fun uart => fdSet uart.fd
  init := uartInit
  ok := .succ
  fresh := fun opened calls => freshFd opened calls.openDevice
  FirstFails := fun calls => calls.openDevice = none
  Succeeds := fun calls =>
    calls.openDevice ≠ none ∧ calls.tcgetattr = true ∧ calls.tcsetattr = true ∧
      calls.thrdCreate = true

/-! ### What an attempt does -/

theorem tcpListenTo_succeeds (tcp : TcpSocket) (opened : Finset Nat) {calls : ListenCalls}
    (h : calls.Succeed) :
    tcpListenTo tcp opened calls =
      (.succ, { tcp with fd := calls.socket }, openFd opened calls.socket) := by
  obtain ⟨hsocket, hsetsockopt, hbind, hlisten⟩ := h
  simp [tcpListenTo, hsocket, hsetsockopt, hbind, hlisten]

/-- A listener that fails has opened its socket if that call succeeded. -/
theorem tcpListenTo_fails (tcp : TcpSocket) (opened : Finset Nat) {calls : ListenCalls}
    (h : ¬ calls.Succeed) :
    tcpListenTo tcp opened calls =
      (.ioFault, { tcp with fd := calls.socket }, openFd opened calls.socket) := by
  simp only [tcpListenTo]
  split_ifs with hsocket hsetsockopt hbind hlisten
  · rfl
  · rfl
  · rfl
  · rfl
  · rw [Bool.not_eq_false] at hsetsockopt hbind hlisten
    exact absurd ⟨hsocket, hsetsockopt, hbind, hlisten⟩ h

theorem ListenCalls.not_succeed {calls : ListenCalls} (h : calls.socket = none) :
    ¬ calls.Succeed :=
  fun hsucceed => hsucceed.1 h

theorem uartDeviceInit_succeeds (uart : UartDevice) (opened : Finset Nat) {calls : UartCalls}
    (h : calls.openDevice ≠ none ∧ calls.tcgetattr = true ∧ calls.tcsetattr = true) :
    uartDeviceInit uart opened calls =
      (.succ, { uart with fd := calls.openDevice }, openFd opened calls.openDevice) := by
  obtain ⟨hopen, htcgetattr, htcsetattr⟩ := h
  simp [uartDeviceInit, hopen, htcgetattr, htcsetattr]

theorem uartDeviceInit_fails (uart : UartDevice) (opened : Finset Nat) {calls : UartCalls}
    (h : ¬ (calls.openDevice ≠ none ∧ calls.tcgetattr = true ∧ calls.tcsetattr = true)) :
    uartDeviceInit uart opened calls =
      (.ioFault, { uart with fd := calls.openDevice }, openFd opened calls.openDevice) := by
  simp only [uartDeviceInit]
  split_ifs with hopen htcgetattr htcsetattr
  · rfl
  · rfl
  · rfl
  · rw [Bool.not_eq_false] at htcgetattr htcsetattr
    exact absurd ⟨hopen, htcgetattr, htcsetattr⟩ h

theorem openFd_subset {opened : Finset Nat} (fd : Option Nat) : opened ⊆ openFd opened fd := by
  cases fd with
  | none => exact Finset.Subset.refl _
  | some fd => exact Finset.subset_insert fd opened

theorem tcpInitializer_lawful : tcpInitializer.Lawful := by
  constructor
  · intro tcp opened calls hinit
    exact if_pos hinit
  · intro tcp opened calls hinit hfirst
    change calls.socket = none at hfirst
    simp only [tcpInitializer] at hinit ⊢
    rw [tcpInit, if_neg (by simp [hinit]),
      tcpListenTo_fails _ _ (ListenCalls.not_succeed hfirst), hfirst]
    exact ⟨by simp, hinit, rfl⟩
  · intro tcp opened calls hinit hfresh hfirst hnot
    simp only [tcpInitializer, Bool.and_eq_true] at hinit hfresh hfirst hnot ⊢
    rw [tcpInit, if_neg (by simp [hinit])]
    by_cases hlisten : calls.toListenCalls.Succeed
    · have haccept : calls.accept = none := not_not.mp fun h => hnot ⟨hlisten, h⟩
      rw [tcpListenTo_succeeds _ _ hlisten]
      simp only [tcpAcceptClient, haccept, if_true]
      exact ⟨by simp, openFd_ne hfresh.1 hfirst⟩
    · rw [tcpListenTo_fails _ _ hlisten]
      exact ⟨by simp, openFd_ne hfresh.1 hfirst⟩
  · intro tcp calls hinit hsucceeds
    obtain ⟨hlisten, haccept⟩ := hsucceeds
    simp only [tcpInitializer] at hinit ⊢
    rw [tcpInit, if_neg (by simp [hinit]), tcpListenTo_succeeds _ _ hlisten]
    simp only [tcpAcceptClient, if_neg haccept]
    exact ⟨trivial, trivial, Finset.Subset.refl _⟩

theorem tcpMtInitializer_lawful : tcpMtInitializer.Lawful := by
  constructor
  · intro tcp opened calls hinit
    exact if_pos hinit
  · intro tcp opened calls hinit hfirst
    change calls.socket = none at hfirst
    simp only [tcpMtInitializer] at hinit ⊢
    rw [tcpInitMt, if_neg (by simp [hinit]),
      tcpListenTo_fails _ _ (ListenCalls.not_succeed hfirst), hfirst]
    exact ⟨by simp, hinit, rfl⟩
  · intro tcp opened calls hinit hfresh hfirst hnot
    simp only [tcpMtInitializer] at hinit hfresh hfirst hnot ⊢
    rw [tcpInitMt, if_neg (by simp [hinit])]
    by_cases hlisten : calls.toListenCalls.Succeed
    · have hthread : calls.thrdCreate = false := by
        rw [← Bool.not_eq_true]
        exact fun h => hnot ⟨hlisten, h⟩
      rw [tcpListenTo_succeeds _ _ hlisten]
      simp only [hthread, if_true]
      exact ⟨by simp, openFd_ne hfresh hfirst⟩
    · rw [tcpListenTo_fails _ _ hlisten]
      exact ⟨by simp, openFd_ne hfresh hfirst⟩
  · intro tcp calls hinit hsucceeds
    obtain ⟨hlisten, hthread⟩ := hsucceeds
    simp only [tcpMtInitializer] at hinit ⊢
    rw [tcpInitMt, if_neg (by simp [hinit]), tcpListenTo_succeeds _ _ hlisten]
    simp only [hthread, Bool.true_eq_false, if_false]
    exact ⟨trivial, trivial, openFd_subset _⟩

theorem udpInitializer_lawful : udpInitializer.Lawful := by
  constructor
  · intro udp opened calls hinit
    exact if_pos hinit
  · intro udp opened calls hinit hfirst
    simp only [udpInitializer] at hinit hfirst ⊢
    rw [udpInit, if_neg (by simp [hinit])]
    simp only [hfirst, if_true]
    exact ⟨by simp, hinit, rfl⟩
  · intro udp opened calls hinit hfresh hfirst hnot
    simp only [udpInitializer] at hinit hfresh hfirst hnot ⊢
    rw [udpInit, if_neg (by simp [hinit])]
    simp only [if_neg hfirst]
    split_ifs with hbind hthread
    · exact ⟨by simp, openFd_ne hfresh hfirst⟩
    · exact ⟨by simp, openFd_ne hfresh hfirst⟩
    · rw [Bool.not_eq_false] at hbind hthread
      exact absurd ⟨hfirst, hbind, hthread⟩ hnot
  · intro udp calls hinit hsucceeds
    obtain ⟨hsocket, hbind, hthread⟩ := hsucceeds
    simp only [udpInitializer] at hinit ⊢
    rw [udpInit, if_neg (by simp [hinit])]
    simp only [if_neg hsocket, hbind, hthread, Bool.true_eq_false, if_false]
    exact ⟨trivial, trivial, Finset.Subset.refl _⟩

theorem uartInitializer_lawful : uartInitializer.Lawful := by
  have hstate : ¬ uartStateInitCode ≠ .succ := fun h => h rfl
  constructor
  · intro uart opened calls hinit
    exact if_pos hinit
  · intro uart opened calls hinit hfirst
    simp only [uartInitializer] at hinit hfirst ⊢
    rw [uartInit, if_neg (by simp [hinit]), uartDeviceInit_fails _ _ fun h => h.1 hfirst, hfirst]
    exact ⟨by simp, hinit, rfl⟩
  · intro uart opened calls hinit hfresh hfirst hnot
    simp only [uartInitializer] at hinit hfresh hfirst hnot ⊢
    rw [uartInit, if_neg (by simp [hinit])]
    by_cases hdevice : calls.openDevice ≠ none ∧ calls.tcgetattr = true ∧ calls.tcsetattr = true
    · have hthread : calls.thrdCreate = false := by
        rw [← Bool.not_eq_true]
        exact fun h => hnot ⟨hdevice.1, hdevice.2.1, hdevice.2.2, h⟩
      rw [uartDeviceInit_succeeds _ _ hdevice]
      simp only [if_neg hstate, hthread, if_true]
      exact ⟨by simp, openFd_ne hfresh hfirst⟩
    · rw [uartDeviceInit_fails _ _ hdevice]
      exact ⟨by simp, openFd_ne hfresh hfirst⟩
  · intro uart calls hinit hsucceeds
    obtain ⟨hopen, htcgetattr, htcsetattr, hthread⟩ := hsucceeds
    simp only [uartInitializer] at hinit ⊢
    rw [uartInit, if_neg (by simp [hinit]),
      uartDeviceInit_succeeds _ _ ⟨hopen, htcgetattr, htcsetattr⟩]
    simp only [if_neg hstate, hthread, Bool.true_eq_false, if_false]
    exact ⟨trivial, trivial, Finset.Subset.refl _⟩

/-! ### Sequences of attempts -/

/-- Attempts on a fresh object leave nothing behind exactly when each that fails does so at
its first call. -/
def LeavesNothingIff {O X : Type} (M : Initializer O X InitCode Nat) (o : O) : Prop :=
  ∀ xs t, M.initialized o = false → run M.step ⟨o, ∅⟩ xs = some t →
    (Along M.step M.LeavesNothing ⟨o, ∅⟩ xs ↔ Along M.step M.FailsFirst ⟨o, ∅⟩ xs)

/-- For each transport, whatever the outcomes of the calls: the open descriptors are at most
those the object records, and a failed attempt restores them, exactly when no attempt fails
after its `socket` or `open` succeeded. -/
theorem initAttempts_leaveNothing_iff (tcp : TcpSocket) (udp : UdpSocket)
    (uart : UartDevice) :
    LeavesNothingIff tcpInitializer tcp ∧ LeavesNothingIff tcpMtInitializer tcp ∧
      LeavesNothingIff udpInitializer udp ∧ LeavesNothingIff uartInitializer uart :=
  ⟨fun _ _ ho hrun => tcpInitializer_lawful.leavesNothing_iff ho hrun,
    fun _ _ ho hrun => tcpMtInitializer_lawful.leavesNothing_iff ho hrun,
    fun _ _ ho hrun => udpInitializer_lawful.leavesNothing_iff ho hrun,
    fun _ _ ho hrun => uartInitializer_lawful.leavesNothing_iff ho hrun⟩

/-- Two attempts at a port that is taken leave the socket of the first one open, with the
object recording only the second. -/
theorem initAttempts_leave_socket :
    let o : TcpSocket := ⟨false, none, none⟩
    let calls (fd : Nat) : TcpMtCalls := ⟨⟨some fd, true, false, true⟩, true⟩
    (∃ t, run tcpMtInitializer.step ⟨o, ∅⟩ [calls 3, calls 4] = some t ∧
      t.opened = {3, 4} ∧ t.obj.recorded = {4}) ∧
    ¬ ∀ xs t, run tcpMtInitializer.step ⟨o, ∅⟩ xs = some t →
      Along tcpMtInitializer.step tcpMtInitializer.LeavesNothing ⟨o, ∅⟩ xs := by
  intro o calls
  constructor
  · exact ⟨_, rfl, by decide, by decide⟩
  · intro hall
    have hnothing := (hall [calls 3] _ rfl).1
    exact absurd (hnothing.2 (by decide)) (by decide)

end SecureGateway
