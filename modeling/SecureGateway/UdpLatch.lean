import SecureGateway.SocketSource

/-!
# The reply address of a UDP source

`udp_server` latches the sender of a datagram while it has no client, and `udp_route_to`
sends to the latched address. Both a failed `recvfrom` and an empty datagram clear the
latch.

## Implementation notes

The two threads share the latch without a lock, so setting `has_client` and storing the
address are two steps of the reader, and testing `has_client` and sending are two steps of
a route call. An address stands for `clt_addr` with its length. The ghost field notes how
each route call ended.
-/

namespace SecureGateway

open Library

/-- What `recvfrom` returns, for addresses `A`. -/
inductive RecvFrom (A : Type)
  | error
  | datagram (chunk : List UInt8) (sender : A)
deriving DecidableEq

/-- How a call of `udp_route_to` ended. -/
inductive UdpRouted (A : Type)
  | noClient
  | sentTo (addr : A)
deriving DecidableEq

/-- The latch with its two threads: `latching` is the address the reader is about to store,
`sending` is set once a route call has seen `has_client`. -/
structure UdpLatch (A : Type) where
  link : UdpLink A
  latching : Option A
  sending : Bool
  routed : List (UdpRouted A)

/-- The socket as `udp_init` leaves it; the address is whatever was there. -/
def UdpLatch.start {A : Type} (addr : A) : UdpLatch A where
  link := { hasClient := false, cltAddr := addr }
  latching := none
  sending := false
  routed := []

/-- The steps of the reader, then those of a route call. -/
inductive UdpLabel (A : Type)
  | recvfrom (result : RecvFrom A)
  | storeAddr
  | testClient
  | send
deriving DecidableEq

variable {A : Type}

/-- One step of `udp_server` or of `udp_route_to`. -/
def udpStep (s : UdpLatch A) : UdpLabel A → Option (UdpLatch A)
  | .recvfrom result =>
      match s.latching, result with
      | none, .error => some { s with link := { s.link with hasClient := false } }
      | none, .datagram [] _ => some { s with link := { s.link with hasClient := false } }
      | none, .datagram (_ :: _) sender =>
          if s.link.hasClient then some s
          else some { s with link := { s.link with hasClient := true }, latching := some sender }
      | some _, _ => none
  | .storeAddr =>
      match s.latching with
      | some addr => some { s with link := { s.link with cltAddr := addr }, latching := none }
      | none => none
  | .testClient =>
      if s.sending then none
      else if s.link.hasClient then some { s with sending := true }
      else some { s with routed := s.routed ++ [.noClient] }
  | .send =>
      if s.sending then
        some { s with sending := false, routed := s.routed ++ [.sentTo s.link.cltAddr] }
      else none

/-! ### The latch of the thread model -/

/-- The step of the shared reader loop a result of `recvfrom` leads to. -/
def RecvFrom.label : RecvFrom A → SocketLabel Empty A
  | .error => .recvFail
  | .datagram [] _ => .recvFail
  | .datagram (byte :: chunk) sender => .recv (byte :: chunk) sender

/-- The latch once the reader has stored the address it is at. -/
def UdpLatch.settled (s : UdpLatch A) : UdpLink A :=
  match s.latching with
  | some addr => { s.link with cltAddr := addr }
  | none => s.link

/-- The reader loop of `udp_server` moves the latch as these steps do. -/
theorem settled_recvfrom {source source' : SocketSource (UdpLink A)} {s s' : UdpLatch A}
    {result : RecvFrom A} (hlink : s.settled = source.link)
    (hsource : socketStep (udpTransport A) source result.label = some source')
    (hstep : udpStep s (.recvfrom result) = some s') : s'.settled = source'.link := by
  cases hlatching : s.latching with
  | some addr =>
      simp only [udpStep, hlatching] at hstep
      cases hstep
  | none =>
      simp only [UdpLatch.settled, hlatching] at hlink
      match result with
      | .error | .datagram [] sender =>
          obtain ⟨-, hsource⟩ := Option.ite_none_right_eq_some.mp hsource
          simp only [udpStep, hlatching, Option.some.injEq] at hstep
          cases hsource
          subst hstep
          simp [UdpLatch.settled, udpTransport, hlink]
      | .datagram (byte :: chunk) sender =>
          obtain ⟨-, hsource⟩ := Option.ite_none_right_eq_some.mp hsource
          cases hsource
          cases hclient : s.link.hasClient with
          | true =>
              simp only [udpStep, hlatching, hclient, if_true, Option.some.injEq] at hstep
              subst hstep
              simp [UdpLatch.settled, hlatching, udpTransport, ← hlink, hclient]
          | false =>
              simp only [udpStep, hlatching, hclient, Bool.false_eq_true, if_false,
                Option.some.injEq] at hstep
              subst hstep
              simp [UdpLatch.settled, udpTransport, ← hlink, hclient]

/-! ### Who the replies go to -/

/-- The client `c` is latched, and no other address is about to be stored. -/
structure UdpLatch.Latched (c : A) (s : UdpLatch A) : Prop where
  hasClient : s.link.hasClient = true
  cltAddr : s.link.cltAddr = c
  settled : s.latching = none

/-- Up to the first socket error the client stays latched and every reply goes to it. -/
def KeepsClient (c : A) (s : UdpLatch A) (labels : List (UdpLabel A)) : Prop :=
  ∀ before t, before <+: labels → .recvfrom .error ∉ before → run udpStep s before = some t →
    t.Latched c ∧ ∃ n, t.routed = s.routed ++ List.replicate n (.sentTo c)

/-- Any other step keeps the latch, and sends to the client only. -/
theorem udpStep_latched {c : A} {s t : UdpLatch A} {label : UdpLabel A}
    (herror : label ≠ .recvfrom .error)
    (hempty : ∀ sender, label ≠ .recvfrom (.datagram [] sender))
    (hs : s.Latched c) (hstep : udpStep s label = some t) :
    t.Latched c ∧ (t.routed = s.routed ∨ t.routed = s.routed ++ [.sentTo c]) := by
  obtain ⟨hclient, haddr, hsettled⟩ := hs
  cases label with
  | recvfrom result =>
      match result with
      | .error => exact absurd rfl herror
      | .datagram [] sender => exact absurd rfl (hempty sender)
      | .datagram (byte :: chunk) sender =>
          simp only [udpStep, hsettled, hclient, if_true, Option.some.injEq] at hstep
          subst hstep
          exact ⟨⟨hclient, haddr, hsettled⟩, Or.inl rfl⟩
  | storeAddr =>
      simp only [udpStep, hsettled] at hstep
      cases hstep
  | testClient =>
      simp only [udpStep, hclient, if_true] at hstep
      split at hstep
      · cases hstep
      · cases hstep
        exact ⟨⟨hclient, haddr, hsettled⟩, Or.inl rfl⟩
  | send =>
      simp only [udpStep] at hstep
      split at hstep
      · cases hstep
        refine ⟨⟨hclient, haddr, hsettled⟩, Or.inr ?_⟩
        rw [haddr]
      · cases hstep

/-- An empty datagram clears the latch, whoever sent it. -/
theorem udpStep_empty {s t : UdpLatch A} {sender : A}
    (hstep : udpStep s (.recvfrom (.datagram [] sender)) = some t) :
    t.link.hasClient = false := by
  cases hlatching : s.latching with
  | none =>
      simp only [udpStep, hlatching, Option.some.injEq] at hstep
      subst hstep
      rfl
  | some addr =>
      simp only [udpStep, hlatching] at hstep
      cases hstep

/-- Without empty datagrams the latch outlasts a run. -/
theorem run_latched {c : A} {s t : UdpLatch A} {labels : List (UdpLabel A)}
    (herror : .recvfrom .error ∉ labels)
    (hempty : ∀ sender, .recvfrom (.datagram [] sender) ∉ labels)
    (hs : s.Latched c) (hrun : run udpStep s labels = some t) :
    t.Latched c ∧ ∃ n, t.routed = s.routed ++ List.replicate n (.sentTo c) := by
  refine run_invariant_of_mem udpStep
    (fun u => u.Latched c ∧ ∃ n, u.routed = s.routed ++ List.replicate n (.sentTo c))
    ?_ ⟨hs, 0, (List.append_nil _).symm⟩ hrun
  rintro u label hmem v ⟨hu, n, hrouted⟩ hstep
  have hnot (other : UdpLabel A) (hother : other ∉ labels) : label ≠ other := by
    rintro rfl
    exact hother hmem
  obtain ⟨hv, hsame | hsent⟩ := udpStep_latched (hnot _ herror)
    (fun sender => hnot _ (hempty sender)) hu hstep
  · exact ⟨hv, n, hsame.trans hrouted⟩
  · refine ⟨hv, n + 1, ?_⟩
    rw [hsent, hrouted, List.replicate_succ', List.append_assoc]

/-- A latched client keeps the replies until the first socket error exactly when no empty
datagram comes in before it. -/
theorem keepsClient_iff {c : A} {s t : UdpLatch A} {labels : List (UdpLabel A)}
    (hs : s.Latched c) (hrun : run udpStep s labels = some t) :
    KeepsClient c s labels ↔
      ∀ before sender, before ++ [.recvfrom (.datagram [] sender)] <+: labels →
        .recvfrom .error ∈ before := by
  constructor
  · intro hkeeps before sender hbefore
    by_contra herror
    obtain ⟨after, rfl⟩ := hbefore
    obtain ⟨u, hu, -⟩ := (run_append_eq_some_iff udpStep).mp hrun
    have hnone : UdpLabel.recvfrom .error ∉ before ++ [.recvfrom (.datagram [] sender)] := by
      simp [herror]
    obtain ⟨hlatched, -⟩ := hkeeps _ u (List.prefix_append _ after) hnone hu
    obtain ⟨v, -, hlast⟩ := (run_append_eq_some_iff udpStep).mp hu
    obtain ⟨w, hstep, hnil⟩ := (run_cons_eq_some_iff udpStep).mp hlast
    cases hnil
    have hcleared := udpStep_empty hstep
    rw [hlatched.hasClient] at hcleared
    cases hcleared
  · intro hempty before u hbefore herror hu
    apply run_latched herror ?_ hs hu
    intro sender hmem
    obtain ⟨front, back, rfl⟩ := List.append_of_mem hmem
    have hfront : front ++ [.recvfrom (.datagram [] sender)] <+: labels := by
      refine List.IsPrefix.trans ⟨back, ?_⟩ hbefore
      simp
    have hearlier := hempty front sender hfront
    exact herror (List.mem_append_left _ hearlier)

/-- The client 1 latched, its datagram handed over. -/
def latchedToOne : UdpLatch Nat where
  link := { hasClient := true, cltAddr := 1 }
  latching := none
  sending := false
  routed := []

theorem latchedToOne_latched : latchedToOne.Latched 1 := ⟨rfl, rfl, rfl⟩

/-- A datagram from somebody else does not move the replies. -/
theorem keepsClient_stranger :
    KeepsClient 1 latchedToOne [.recvfrom (.datagram [7] 2), .testClient, .send] := by
  apply (keepsClient_iff latchedToOne_latched rfl).mpr
  intro before sender hbefore
  have hmem := hbefore.subset (List.mem_append_right before (List.mem_singleton_self _))
  simp at hmem

/-- A stranger's empty datagram and one more, and the replies go to the stranger. -/
theorem empty_datagram_takes_over :
    ∃ s t, run udpStep (UdpLatch.start 0)
        [.recvfrom (.datagram [7] 1), .storeAddr, .testClient, .send] = some s ∧
      s.Latched 1 ∧
      run udpStep s [.recvfrom (.datagram [] 2), .recvfrom (.datagram [7] 2), .storeAddr,
        .testClient, .send] = some t ∧
      t.routed = [.sentTo 1, .sentTo 2] ∧
      ¬ KeepsClient 1 s [.recvfrom (.datagram [] 2), .recvfrom (.datagram [7] 2), .storeAddr,
        .testClient, .send] := by
  refine ⟨_, _, rfl, ⟨rfl, rfl, rfl⟩, rfl, rfl, ?_⟩
  intro hkeeps
  obtain ⟨hlatched, -⟩ := hkeeps _ _ List.prefix_rfl (by decide) rfl
  exact absurd hlatched.cltAddr (by decide)

end SecureGateway
