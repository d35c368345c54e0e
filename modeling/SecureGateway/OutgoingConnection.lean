import SecureGateway.Library.Run
import Mathlib.Logic.Function.Basic

/-!
# The outgoing TCP connection

The thread of `source_tcpout` connects, receives and reconnects; the sink sends where
`tcp->fd` is not `-1`. A connection attempt stores the new socket in `fd` before it is
connected, and a failed attempt leaves it there.

## Implementation notes

Every system call and every store to `fd` is a step of its own, and so is the test of
`fd` in `tcp_route_to`. Of the hand-over of received bytes only the waiting is modelled.
-/

namespace SecureGateway

open Library

/-- What a descriptor is: closed, a socket, or a socket whose last `connect` succeeded. -/
inductive FdStatus
  | closed
  | opened
  | connected
deriving DecidableEq

/-- Where `tcp_server` stands; from `connecting` to `connect` it is in `tcp_connect_to`. -/
inductive ClientPc
  | top
  | connecting
  | setsockopt
  | inetPton
  | connect
  | sleeping
  | receiving
  | holding
  | closing
  | clearing
  | done
deriving DecidableEq

/-- The thread, the field it shares with the sink, and the descriptors of the process. -/
structure TcpoutThread where
  fd : Option Nat
  status : Nat → FdStatus
  pc : ClientPc
  terminate : Bool

/-- Steps of the thread with the outcome of the call each makes, a request to terminate, and
the test of `fd` in `tcp_route_to`. -/
inductive TcpoutLabel
  | loop
  | socket (fd : Option Nat)
  | setsockopt (ok : Bool)
  | inetPton (ok : Bool)
  | connect (ok : Bool)
  | wake
  | recv (read : Int)
  | close
  | clear
  | consumed
  | terminate
  | route

/-- After `tcp_init`; the other descriptors of the process are as they are. -/
def TcpoutThread.start (status : Nat → FdStatus) : TcpoutThread := ⟨none, status, .top, false⟩

/-- What the call on `fd` leaves a descriptor to be; a call on `-1` changes nothing. -/
def TcpoutThread.setStatus (s : TcpoutThread) (status : FdStatus) : Nat → FdStatus :=
  match s.fd with
  | none => s.status
  | some fd => Function.update s.status fd status

def tcpoutStep (s : TcpoutThread) : TcpoutLabel → Option TcpoutThread
  | .loop =>
      if s.pc = .top then
        if s.terminate then some { s with pc := .done }
        else if s.fd = none then some { s with pc := .connecting }
        else some { s with pc := .receiving }
      else none
  | .socket none =>
      if s.pc = .connecting then some { s with fd := none, pc := .sleeping } else none
  | .socket (some fd) =>
      -- a new socket is a descriptor that was closed
      if s.pc = .connecting ∧ s.status fd = .closed then
        some { s with
               fd := some fd
               status := Function.update s.status fd .opened
               pc := .setsockopt }
      else none
  | .setsockopt ok =>
      if s.pc = .setsockopt then some { s with pc := if ok then .inetPton else .sleeping }
      else none
  | .inetPton ok =>
      if s.pc = .inetPton then some { s with pc := if ok then .connect else .sleeping } else none
  | .connect ok =>
      if s.pc = .connect then
        if ok then some { s with status := s.setStatus .connected, pc := .receiving }
        else some { s with pc := .sleeping }
      else none
  | .wake => if s.pc = .sleeping then some { s with pc := .top } else none
  | .recv read =>
      if s.pc = .receiving then
        if read = -1 ∨ read = 0 then some { s with pc := .closing }
        else some { s with pc := .holding }
      else none
  | .close =>
      if s.pc = .closing then some { s with status := s.setStatus .closed, pc := .clearing }
      else none
  | .clear => if s.pc = .clearing then some { s with fd := none, pc := .top } else none
  | .consumed => if s.pc = .holding then some { s with pc := .top } else none
  | .terminate => some { s with terminate := true }
  | .route => some s

/-- The label ends `tcp_connect_to` with an error. -/
def TcpoutLabel.FailsAttempt : TcpoutLabel → Prop
  | .socket fd => fd = none
  | .setsockopt ok | .inetPton ok | .connect ok => ok = false
  | _ => False

/-- Where the sink tests `fd` a descriptor in it is connected, and an attempt that fails
leaves `fd` at `-1`. -/
def TcpoutThread.SendsConnected (s : TcpoutThread) (l : TcpoutLabel) : Prop :=
  (l = .route → ∀ fd, s.fd = some fd → s.status fd = .connected) ∧
    (l.FailsAttempt → ∀ t, tcpoutStep s l = some t → t.fd = none)

/-- The thread is between `socket` and the success of `connect`, or between `close` and the
store of `-1`. -/
def ClientPc.InWindow : ClientPc → Prop
  | .setsockopt | .inetPton | .connect | .clearing => True
  | _ => False

/-- No attempt fails once it has a socket, and the sink does not test `fd` in a window. -/
def TcpoutThread.Undisturbed (s : TcpoutThread) (l : TcpoutLabel) : Prop :=
  (l = .route → ¬ s.pc.InWindow) ∧ (l.FailsAttempt → ∃ fd, l = .socket fd)

/-- What `fd` is at each point of the thread as long as no attempt leaves a socket behind. -/
def TcpoutThread.Consistent (s : TcpoutThread) : Prop :=
  match s.pc with
  | .connecting | .sleeping => s.fd = none
  | .setsockopt | .inetPton | .connect | .clearing =>
      ∃ fd, s.fd = some fd ∧ s.status fd ≠ .connected
  | .receiving | .holding | .closing => ∃ fd, s.fd = some fd ∧ s.status fd = .connected
  | .top | .done => ∀ fd, s.fd = some fd → s.status fd = .connected

/-! ### What a step can do -/

/-- The moves of the system, with where the thread stands before each. -/
inductive TcpoutMove (s : TcpoutThread) : TcpoutLabel → TcpoutThread → Prop
  | stop (hpc : s.pc = .top) : TcpoutMove s .loop { s with pc := .done }
  | attempt (hpc : s.pc = .top) (hfd : s.fd = none) :
      TcpoutMove s .loop { s with pc := .connecting }
  | receive (hpc : s.pc = .top) (hfd : s.fd ≠ none) :
      TcpoutMove s .loop { s with pc := .receiving }
  | noSocket (hpc : s.pc = .connecting) :
      TcpoutMove s (.socket none) { s with fd := none, pc := .sleeping }
  | socket (hpc : s.pc = .connecting) (fd : Nat) :
      TcpoutMove s (.socket (some fd))
        { s with fd := some fd, status := Function.update s.status fd .opened, pc := .setsockopt }
  | setsockopt (hpc : s.pc = .setsockopt) :
      TcpoutMove s (.setsockopt true) { s with pc := .inetPton }
  | noSetsockopt (hpc : s.pc = .setsockopt) :
      TcpoutMove s (.setsockopt false) { s with pc := .sleeping }
  | inetPton (hpc : s.pc = .inetPton) : TcpoutMove s (.inetPton true) { s with pc := .connect }
  | noInetPton (hpc : s.pc = .inetPton) :
      TcpoutMove s (.inetPton false) { s with pc := .sleeping }
  | connect (hpc : s.pc = .connect) :
      TcpoutMove s (.connect true) { s with status := s.setStatus .connected, pc := .receiving }
  | noConnect (hpc : s.pc = .connect) : TcpoutMove s (.connect false) { s with pc := .sleeping }
  | wake (hpc : s.pc = .sleeping) : TcpoutMove s .wake { s with pc := .top }
  | lost (hpc : s.pc = .receiving) (read : Int) :
      TcpoutMove s (.recv read) { s with pc := .closing }
  | received (hpc : s.pc = .receiving) (read : Int) :
      TcpoutMove s (.recv read) { s with pc := .holding }
  | close (hpc : s.pc = .closing) :
      TcpoutMove s .close { s with status := s.setStatus .closed, pc := .clearing }
  | clear (hpc : s.pc = .clearing) : TcpoutMove s .clear { s with fd := none, pc := .top }
  | consumed (hpc : s.pc = .holding) : TcpoutMove s .consumed { s with pc := .top }
  | terminate : TcpoutMove s .terminate { s with terminate := true }
  | route : TcpoutMove s .route s

theorem tcpoutStep_moves {s t : TcpoutThread} {l : TcpoutLabel}
    (hstep : tcpoutStep s l = some t) : TcpoutMove s l t := by
  cases l with
  | loop =>
      simp only [tcpoutStep] at hstep
      split_ifs at hstep with hpc hterminate hfd <;> cases hstep
      · exact .stop hpc
      · exact .attempt hpc hfd
      · exact .receive hpc hfd
  | socket fd =>
      cases fd <;> simp only [tcpoutStep] at hstep <;> split_ifs at hstep with hpc <;> cases hstep
      · exact .noSocket hpc
      · exact .socket hpc.1 _
  | setsockopt ok =>
      cases ok <;> simp only [tcpoutStep, Bool.false_eq_true, if_false, if_true] at hstep <;>
        split_ifs at hstep with hpc <;> cases hstep
      · exact .noSetsockopt hpc
      · exact .setsockopt hpc
  | inetPton ok =>
      cases ok <;> simp only [tcpoutStep, Bool.false_eq_true, if_false, if_true] at hstep <;>
        split_ifs at hstep with hpc <;> cases hstep
      · exact .noInetPton hpc
      · exact .inetPton hpc
  | connect ok =>
      simp only [tcpoutStep] at hstep
      split_ifs at hstep with hpc hok <;> cases hstep
      · rw [hok]
        exact .connect hpc
      · rw [Bool.not_eq_true] at hok
        rw [hok]
        exact .noConnect hpc
  | wake =>
      simp only [tcpoutStep] at hstep
      split_ifs at hstep with hpc
      cases hstep
      exact .wake hpc
  | recv read =>
      simp only [tcpoutStep] at hstep
      split_ifs at hstep with hpc hread <;> cases hstep
      · exact .lost hpc read
      · exact .received hpc read
  | close =>
      simp only [tcpoutStep] at hstep
      split_ifs at hstep with hpc
      cases hstep
      exact .close hpc
  | clear =>
      simp only [tcpoutStep] at hstep
      split_ifs at hstep with hpc
      cases hstep
      exact .clear hpc
  | consumed =>
      simp only [tcpoutStep] at hstep
      split_ifs at hstep with hpc
      cases hstep
      exact .consumed hpc
  | terminate =>
      cases hstep
      exact .terminate
  | route =>
      cases hstep
      exact .route

/-! ### The two conditions agree -/

theorem TcpoutThread.Consistent.connected_iff {s : TcpoutThread} (h : s.Consistent) :
    (∀ fd, s.fd = some fd → s.status fd = .connected) ↔ ¬ s.pc.InWindow := by
  unfold TcpoutThread.Consistent at h
  cases hpc : s.pc with
  | top | done => simpa [hpc, ClientPc.InWindow] using h
  | connecting | sleeping =>
      simp only [hpc] at h
      simp [h, ClientPc.InWindow]
  | setsockopt | inetPton | connect | clearing =>
      simp only [hpc] at h
      obtain ⟨fd, hfd, hstatus⟩ := h
      simp [hfd, hstatus, ClientPc.InWindow]
  | receiving | holding | closing =>
      simp only [hpc] at h
      obtain ⟨fd, hfd, hstatus⟩ := h
      simp [hfd, hstatus, ClientPc.InWindow]

/-- An attempt that fails at a later call than `socket` leaves a descriptor in `fd`. -/
theorem TcpoutMove.fd_eq_none_iff {s t : TcpoutThread} {l : TcpoutLabel} (h : s.Consistent)
    (hmove : TcpoutMove s l t) (hfails : l.FailsAttempt) :
    t.fd = none ↔ ∃ fd, l = .socket fd := by
  have hsome (hpc : s.pc.InWindow) : s.fd ≠ none := by
    intro hnone
    refine absurd hpc (h.connected_iff.mp ?_)
    intro fd hfd
    rw [hnone] at hfd
    cases hfd
  cases hmove with
  | noSocket hpc => simp
  | noSetsockopt hpc => simpa using hsome (hpc ▸ trivial)
  | noInetPton hpc => simpa using hsome (hpc ▸ trivial)
  | noConnect hpc => simpa using hsome (hpc ▸ trivial)
  | socket => cases hfails
  | setsockopt | inetPton | connect => cases hfails
  | stop | attempt | receive | wake | lost | received | close | clear | consumed | terminate
  | route => exact absurd hfails id

theorem sendsConnected_iff {s t : TcpoutThread} {l : TcpoutLabel} (h : s.Consistent)
    (hstep : tcpoutStep s l = some t) : s.SendsConnected l ↔ s.Undisturbed l := by
  apply and_congr
  · exact imp_congr_right fun _ => h.connected_iff
  · apply imp_congr_right
    intro hfails
    rw [← (tcpoutStep_moves hstep).fd_eq_none_iff h hfails]
    constructor
    · intro hall
      exact hall t hstep
    · intro hnone u hu
      rw [hstep, Option.some.injEq] at hu
      rw [← hu]
      exact hnone

/-- A step that leaves no socket behind keeps `fd` what the thread takes it for. -/
theorem TcpoutMove.consistent {s t : TcpoutThread} {l : TcpoutLabel} (h : s.Consistent)
    (hundisturbed : s.Undisturbed l) (hmove : TcpoutMove s l t) : t.Consistent := by
  unfold TcpoutThread.Consistent at h
  cases hmove with
  | stop hpc =>
      simp only [hpc] at h
      exact h
  | attempt hpc hfd => exact hfd
  | receive hpc hfd =>
      simp only [hpc] at h
      obtain ⟨fd, hfd⟩ := Option.ne_none_iff_exists'.mp hfd
      exact ⟨fd, hfd, h fd hfd⟩
  | noSocket hpc => rfl
  | socket hpc fd => exact ⟨fd, rfl, by simp⟩
  | setsockopt hpc | inetPton hpc =>
      simp only [hpc] at h
      exact h
  | noSetsockopt hpc | noInetPton hpc | noConnect hpc =>
      obtain ⟨fd, hfd⟩ := hundisturbed.2 rfl
      cases hfd
  | connect hpc =>
      simp only [hpc] at h
      obtain ⟨fd, hfd, -⟩ := h
      exact ⟨fd, hfd, by simp [TcpoutThread.setStatus, hfd]⟩
  | wake hpc =>
      simp only [hpc] at h
      intro fd hfd
      simp [h] at hfd
  | lost hpc read | received hpc read =>
      simp only [hpc] at h
      exact h
  | close hpc =>
      simp only [hpc] at h
      obtain ⟨fd, hfd, -⟩ := h
      exact ⟨fd, hfd, by simp [TcpoutThread.setStatus, hfd]⟩
  | clear hpc =>
      intro fd hfd
      cases hfd
  | consumed hpc =>
      simp only [hpc] at h
      obtain ⟨fd, hfd, hstatus⟩ := h
      intro fd' hfd'
      rw [hfd, Option.some.injEq] at hfd'
      rw [← hfd']
      exact hstatus
  | terminate | route => exact h

/-- In every run the sink sends only on a connected socket, and every failed attempt leaves
`fd` at `-1`, exactly when no attempt fails once it has a socket and the sink does not look
at `fd` in the windows of `tcp_connect_to` and of the loss of a connection. -/
theorem tcpout_sendsConnected_iff {status : Nat → FdStatus} {ls : List TcpoutLabel}
    {s : TcpoutThread} (hrun : run tcpoutStep (TcpoutThread.start status) ls = some s) :
    Along tcpoutStep TcpoutThread.SendsConnected (TcpoutThread.start status) ls ↔
      Along tcpoutStep TcpoutThread.Undisturbed (TcpoutThread.start status) ls := by
  apply along_iff_of_run tcpoutStep TcpoutThread.Consistent _ _ _ hrun
  · intro s l t hs hstep
    exact sendsConnected_iff hs hstep
  · intro s l t hs hsends hstep
    exact (tcpoutStep_moves hstep).consistent hs ((sendsConnected_iff hs hstep).mp hsends)
  · intro fd hfd
    cases hfd

/-- A first attempt that connects. -/
def connectLabels : List TcpoutLabel :=
  [.loop, .socket (some 3), .setsockopt true, .inetPton true, .connect true]

/-- No call of the attempt fails, and the sink looks at `fd` once it is connected. -/
theorem connectLabels_undisturbed :
    Along tcpoutStep TcpoutThread.Undisturbed (TcpoutThread.start fun _ => .closed)
      (connectLabels ++ [.route]) := by
  have hcalls : ∀ l ∈ connectLabels, l ≠ .route ∧ ¬ l.FailsAttempt := by
    simp [connectLabels, TcpoutLabel.FailsAttempt]
  refine (along_append_iff tcpoutStep).mpr ⟨?_, ?_⟩
  · apply along_of_forall
    intro l hl s
    obtain ⟨hroute, hfails⟩ := hcalls l hl
    exact ⟨fun heq => absurd heq hroute, fun hfail => absurd hfail hfails⟩
  · intro t ht
    cases ht
    refine ⟨⟨fun _ => id, False.elim⟩, ?_⟩
    intro u _
    trivial

theorem tcpout_sendsConnected_connect :
    Along tcpoutStep TcpoutThread.SendsConnected (TcpoutThread.start fun _ => .closed)
      (connectLabels ++ [.route]) :=
  (tcpout_sendsConnected_iff rfl).mpr connectLabels_undisturbed

/-- A refused connection leaves its socket in `fd`, where the sink finds it. -/
theorem tcpout_sends_unconnected :
    ¬ ∀ ls s, run tcpoutStep (TcpoutThread.start fun _ => .closed) ls = some s →
      Along tcpoutStep TcpoutThread.SendsConnected (TcpoutThread.start fun _ => .closed) ls := by
  intro hall
  let attempt : List TcpoutLabel :=
    [.loop, .socket (some 3), .setsockopt true, .inetPton true, .connect false]
  have halong := hall (attempt ++ [.route]) _ rfl
  have hsends := halong.at_step tcpoutStep attempt .route [] rfl
  exact absurd (hsends.1 rfl 3 rfl) (by decide)

end SecureGateway
