import SecureGateway.InitAttempts
import SecureGateway.Library.Draining
import SecureGateway.Library.Stores
import SecureGateway.SocketSource
import SecureGateway.Spin

/-!
# The single-threaded TCP source

`tcp_has_more` receives a chunk when the last one has been read, and `tcp_read_byte`
hands out its bytes. Once the peer has closed, `recv` returns zero for ever, and so
does the loop of `pipeline_spin` that polls the source.

## Implementation notes

What `recv` has to return is a list of the socket: a chunk, or `none` for a failure.
Past its end the peer has closed.
-/

namespace SecureGateway

open Library

variable {W G A : Type}

/-- What one `recv` on an open connection can put into the buffer. -/
abbrev RecvChunk := {chunk : List UInt8 // chunk ≠ [] ∧ chunk.length ≤ socketBufferSize}

/-- `struct tcp_socket_t` without threads, with how its system calls will come out. -/
structure TcpSource extends TcpSocket where
  buffer : Nat → UInt8
  curRead : Nat
  bufferSize : Int
  opened : Finset Nat
  calls : TcpCalls
  recvs : List (Option RecvChunk)

/-- `tcp_init` on the whole socket: it resets the cursor unless it returns at once. -/
def tcpSourceInit (tcp : TcpSource) : InitCode × TcpSource :=
  let (rv, socket, opened) := tcpInit tcp.toTcpSocket tcp.opened tcp.calls
  (rv,
    { tcp with
      toTcpSocket := socket
      opened := opened
      curRead := if tcp.initialized then tcp.curRead else 0
      bufferSize := if tcp.initialized then tcp.bufferSize else 0 })

/-- `tcp->buffer_size = recv(...)`. -/
def tcpRecv (tcp : TcpSource) : TcpSource :=
  match tcp.recvs with
  | [] => { tcp with bufferSize := 0 }
  | none :: rest => { tcp with bufferSize := -1, recvs := rest }
  | some chunk :: rest =>
      { tcp with
        buffer := overwrite tcp.buffer chunk.val
        bufferSize := chunk.val.length
        recvs := rest }

def tcpHasMore (tcp : TcpSource) : Int × TcpSource :=
  let (rv, tcp) := if tcp.initialized then (.succ, tcp) else tcpSourceInit tcp
  if rv ≠ .succ then (0, tcp)
  else if 0 < tcp.bufferSize ∧ tcp.curRead < tcp.bufferSize then (1, tcp)
  else
    let tcp := tcpRecv tcp
    if tcp.bufferSize < 0 then (0, tcp)
    else (1, { tcp with curRead := 0 })

def tcpReadByte (tcp : TcpSource) : Int × TcpSource :=
  if tcp.bufferSize ≤ tcp.curRead then (0, { tcp with curRead := 0, bufferSize := 0 })
  else ((tcp.buffer tcp.curRead).toNat, { tcp with curRead := tcp.curRead + 1 })

/-- The two calls as the loop of `pipeline_spin` makes them. -/
def tcpDrainable : Drainable TcpSource UInt8 where
  hasMore tcp := (decide ((tcpHasMore tcp).1 ≠ 0), (tcpHasMore tcp).2)
  take tcp := (byteOfInt (tcpReadByte tcp).1, (tcpReadByte tcp).2)

/-- The bytes of the last chunk that have not been read. -/
def TcpSource.unread (tcp : TcpSource) : List UInt8 :=
  remaining tcp.buffer tcp.curRead tcp.bufferSize.toNat

/-- The bytes a `recv` gives. -/
def recvBytes : Option RecvChunk → List UInt8
  | some chunk => chunk.val
  | none => []

/-- Everything the peer sent before it closed that has not been read. -/
def TcpSource.pending (tcp : TcpSource) : List UInt8 :=
  (if tcp.initialized then tcp.unread else []) ++ tcp.recvs.flatMap recvBytes

/-- The connection is open or opens at the first call, and no `recv` fails on it. -/
structure TcpSource.Connected (tcp : TcpSource) : Prop where
  init : tcp.initialized = true ∨ (tcpSourceInit tcp).1 = .succ
  recv : none ∉ tcp.recvs

/-- The loop ends, and its bytes are those the peer sent. -/
def TcpSource.StopsAtEnd (tcp : TcpSource) : Prop :=
  ∃ fuel tcp', tcpDrainable.drain fuel tcp = some (tcp.pending, tcp')

theorem byteOfInt_toNat (b : UInt8) : byteOfInt (b.toNat : Int) = b := by
  apply UInt8.toBitVec_inj.mp
  simp [byteOfInt]

/-- An initialization that succeeds leaves the socket initialized. -/
theorem tcpInit_initialized {tcp tcp' : TcpSocket} {opened opened' : Finset Nat}
    {calls : TcpCalls} (h : tcpInit tcp opened calls = (.succ, tcp', opened')) :
    tcp'.initialized = true := by
  unfold tcpInit at h
  split at h
  · cases h
    assumption
  · split at h
    · split at h
      · cases h
        rfl
      · rename_i failed hno
        exact (hno _ _ h).elim
    · rename_i failed hno
      exact (hno _ _ h).elim

/-- A source that has just been initialized has read nothing. -/
theorem tcpSourceInit_spec {tcp : TcpSource} (hfirst : tcp.initialized = false)
    (h : (tcpSourceInit tcp).1 = .succ) :
    (tcpSourceInit tcp).2.initialized = true ∧ (tcpSourceInit tcp).2.unread = [] ∧
      (tcpSourceInit tcp).2.recvs = tcp.recvs := by
  refine ⟨?_, ?_, rfl⟩
  · exact tcpInit_initialized (Prod.ext h rfl)
  · simp [tcpSourceInit, TcpSource.unread, hfirst, remaining]

/-- What a call of `tcp_has_more` leaves on a connection that does not fail. -/
structure TcpPolled (tcp tcp' : TcpSource) : Prop where
  initialized : tcp'.initialized = true
  recv : none ∉ tcp'.recvs
  pending : tcp'.pending = tcp.pending
  loaded : tcp'.unread = [] → tcp.pending = []

theorem TcpSource.pending_of_initialized {tcp : TcpSource} (h : tcp.initialized = true) :
    tcp.pending = tcp.unread ++ tcp.recvs.flatMap recvBytes := by
  simp [TcpSource.pending, h]

theorem tcpRecv_spec {tcp : TcpSource} (hinit : tcp.initialized = true) (hrecv : none ∉ tcp.recvs)
    (hread : tcp.unread = []) :
    ¬ (tcpRecv tcp).bufferSize < 0 ∧ TcpPolled tcp { tcpRecv tcp with curRead := 0 } := by
  have hpending : tcp.pending = tcp.recvs.flatMap recvBytes := by
    rw [TcpSource.pending_of_initialized hinit, hread, List.nil_append]
  unfold tcpRecv
  cases hrecvs : tcp.recvs with
  | nil =>
      refine ⟨by simp, hinit, by simp, ?_, ?_⟩
      · rw [hpending]
        simp [TcpSource.pending, TcpSource.unread, hinit, hrecvs]
      · intro _
        rw [hpending, hrecvs, List.flatMap_nil]
  | cons first rest =>
      rw [hrecvs] at hrecv
      cases first with
      | none => exact (hrecv List.mem_cons_self).elim
      | some chunk =>
          have hbuffer : (List.range chunk.val.length).map (overwrite tcp.buffer chunk.val) =
              chunk.val := map_range_overwrite tcp.buffer chunk.val
          refine ⟨by simp, hinit, fun hmem => hrecv (List.mem_cons_of_mem _ hmem), ?_, ?_⟩
          · rw [hpending]
            simp [TcpSource.pending, TcpSource.unread, hinit, hrecvs, hbuffer, recvBytes]
          · intro hnone
            simp only [TcpSource.unread, Int.toNat_natCast, remaining_zero, hbuffer] at hnone
            exact absurd hnone chunk.property.1

/-- On a connection that does not fail the answer is always yes. -/
theorem tcpHasMore_connected {tcp : TcpSource} (h : tcp.Connected) :
    (tcpHasMore tcp).1 = 1 ∧ TcpPolled tcp (tcpHasMore tcp).2 := by
  -- On an initialized socket either a byte is unread, or one `recv` follows.
  have hpoll (tcp : TcpSource) (hinit : tcp.initialized = true) (hrecv : none ∉ tcp.recvs) :
      (tcpHasMore tcp).1 = 1 ∧ TcpPolled tcp (tcpHasMore tcp).2 := by
    simp only [tcpHasMore, hinit, if_true, ne_eq, not_true_eq_false, if_false]
    by_cases hleft : 0 < tcp.bufferSize ∧ (tcp.curRead : Int) < tcp.bufferSize
    · have hunread : tcp.unread ≠ [] := by
        rw [TcpSource.unread, ne_eq, remaining_eq_nil_iff]
        omega
      rw [if_pos hleft]
      exact ⟨rfl, hinit, hrecv, rfl, fun hnone => absurd hnone hunread⟩
    · have hread : tcp.unread = [] := by
        rw [TcpSource.unread, remaining_eq_nil_iff]
        omega
      obtain ⟨hnonneg, hpolled⟩ := tcpRecv_spec hinit hrecv hread
      rw [if_neg hleft, if_neg hnonneg]
      exact ⟨rfl, hpolled⟩
  cases hinit : tcp.initialized with
  | true => exact hpoll tcp hinit h.recv
  | false =>
      have hsucc := h.init.resolve_left (by simp [hinit])
      obtain ⟨hready, hread, hrecvs⟩ := tcpSourceInit_spec hinit hsucc
      have hcall : tcpHasMore tcp = tcpHasMore (tcpSourceInit tcp).2 := by
        simp [tcpHasMore, hinit, hready, hsucc]
      have hpending : (tcpSourceInit tcp).2.pending = tcp.pending := by
        simp [TcpSource.pending, hready, hread, hinit, hrecvs]
      obtain ⟨hanswer, hpolled⟩ := hpoll (tcpSourceInit tcp).2 hready (hrecvs ▸ h.recv)
      rw [hcall]
      refine ⟨hanswer, hpolled.initialized, hpolled.recv, ?_, ?_⟩
      · exact hpolled.pending.trans hpending
      · rw [← hpending]
        exact hpolled.loaded

/-- `tcp_read_byte` hands out the next unread byte, and zero when there is none. -/
theorem tcpReadByte_spec (tcp : TcpSource) :
    byteOfInt (tcpReadByte tcp).1 = tcp.unread.headD 0 ∧
      (tcpReadByte tcp).2.unread = tcp.unread.tail ∧
      (tcpReadByte tcp).2.recvs = tcp.recvs ∧
      (tcpReadByte tcp).2.initialized = tcp.initialized := by
  unfold tcpReadByte
  by_cases hdone : tcp.bufferSize ≤ tcp.curRead
  · have hunread : tcp.unread = [] := by
      rw [TcpSource.unread, remaining_eq_nil_iff]
      omega
    rw [if_pos hdone, hunread]
    exact ⟨rfl, rfl, rfl, rfl⟩
  · have hunread : tcp.unread = tcp.buffer tcp.curRead ::
        remaining tcp.buffer (tcp.curRead + 1) tcp.bufferSize.toNat :=
      remaining_eq_cons (by omega)
    rw [if_neg hdone, hunread]
    exact ⟨byteOfInt_toNat _, rfl, rfl, rfl⟩

/-- A round takes the first pending byte, and zero when the peer has sent no more. -/
theorem tcpDrainable_round {tcp : TcpSource} (h : tcp.Connected) :
    (tcpDrainable.hasMore tcp).1 = true ∧
      tcpDrainable.entry tcp = tcp.pending.headD 0 ∧
      (tcpDrainable.after tcp).pending = tcp.pending.tail ∧
      (tcpDrainable.after tcp).Connected := by
  obtain ⟨hanswer, hpolled⟩ := tcpHasMore_connected h
  obtain ⟨hbyte, hunread, hrecvs, hinit⟩ := tcpReadByte_spec (tcpHasMore tcp).2
  have hready := hinit.trans hpolled.initialized
  have hbefore := TcpSource.pending_of_initialized hpolled.initialized
  have hafter := TcpSource.pending_of_initialized hready
  rw [hunread, hrecvs] at hafter
  rw [hpolled.pending] at hbefore
  have hconnected : (tcpReadByte (tcpHasMore tcp).2).2.Connected :=
    ⟨Or.inl hready, hrecvs ▸ hpolled.recv⟩
  refine ⟨by simp [tcpDrainable, hanswer], ?_, ?_, hconnected⟩
  · refine hbyte.trans ?_
    cases hleft : (tcpHasMore tcp).2.unread with
    | nil => rw [hpolled.loaded hleft]
    | cons b rest => rw [hbefore, hleft, List.cons_append, List.headD_cons, List.headD_cons]
  · refine hafter.trans ?_
    cases hleft : (tcpHasMore tcp).2.unread with
    | nil =>
        rw [hleft, List.nil_append, hpolled.loaded hleft] at hbefore
        rw [List.tail_nil, List.nil_append, ← hbefore, hpolled.loaded hleft, List.tail_nil]
    | cons b rest => rw [hbefore, hleft, List.cons_append, List.tail_cons, List.tail_cons]

theorem tcpDrainable_goesOn : tcpDrainable.GoesOn TcpSource.Connected := by
  intro tcp h
  obtain ⟨hmore, -, -, hconnected⟩ := tcpDrainable_round h
  exact ⟨hmore, hconnected⟩

/-- What the loop takes: the bytes the peer sent, and zeros from then on. -/
theorem tcpDrainable_entries {tcp : TcpSource} (h : tcp.Connected) (n : Nat) :
    tcpDrainable.entries n tcp = (List.range n).map fun j => tcp.pending.getD j 0 := by
  apply tcpDrainable_goesOn.entries_eq
  · intro tcp h
    rw [(tcpDrainable_round h).2.1]
    cases tcp.pending <;> rfl
  · intro tcp h j
    rw [(tcpDrainable_round h).2.2.1]
    cases tcp.pending <;> simp
  · exact h

/-! ### The loop of `pipeline_spin` -/

/-- No route operation writes the part of the world a view shows. -/
def Pipeline.RoutesSpare (pipeline : Pipeline W) (view : W → A) : Prop :=
  ∀ k r, (pipeline.sinks k).route = some r → ∀ msg world, view (r msg world).2 = view world

theorem Pipeline.RoutesSpare.sinksKeep {p : Pipeline W} {view : W → A}
    (hroutes : p.RoutesSpare view) (a : A) : p.SinksKeep fun world _ => view world = a where
  route k r hr msg world _ h := (hroutes k r hr msg world).trans h
  count _ _ _ _ _ h _ := h

theorem spinByte_view {env : Env W G} {i : Fin maxSources} {byte : UInt8} {m m' : Machine W G}
    {view : W → A} (h : spinByte env i byte m = .ok m')
    (hroutes : m.pipeline.RoutesSpare view) :
    view m'.world = view m.world ∧ m'.pipeline.RoutesSpare view ∧
      m'.log.map Turn.byte = m.log.map Turn.byte ++ [byte] := by
  rcases spinByte_cases h with ⟨d, r, -, hdeliver, rfl⟩ | ⟨-, rfl⟩
  · obtain ⟨perf, -, hpush, -⟩ := deliver_eq_ok_iff.mp hdeliver
    exact ⟨pipelinePush_keeps (hroutes.sinksKeep _) rfl hpush, hroutes, by simp⟩
  · exact ⟨rfl, hroutes, by simp⟩

/-- When `pipeline_spin` is done with a source, the bytes it logged are those the loop on the
source alone takes. -/
theorem drain_refines (src : Drainable A UInt8) (view : W → A) {hasMore readByte : W → Int × W}
    (hmore : ∀ w, src.hasMore (view w) = (decide ((hasMore w).1 ≠ 0), view (hasMore w).2))
    (hread : ∀ w, src.take (view w) = (byteOfInt (readByte w).1, view (readByte w).2))
    (env : Env W G) (i : Fin maxSources) (fuel : Nat) {m m' : Machine W G}
    (hroutes : m.pipeline.RoutesSpare view) (h : drain env i hasMore readByte fuel m = .ok m') :
    ∃ bytes, src.drain fuel (view m.world) = some (bytes, view m'.world) ∧
      m'.log.map Turn.byte = m.log.map Turn.byte ++ bytes := by
  induction fuel generalizing m with
  | zero => cases h
  | succ fuel ih =>
      simp only [SecureGateway.drain] at h
      by_cases hno : (hasMore m.world).1 = 0
      · rw [if_pos hno] at h
        cases h
        exact ⟨[], by simp [Drainable.drain, hmore, hno], by simp⟩
      · rw [if_neg hno] at h
        split at h
        · rename_i n hbyte
          obtain ⟨hview, hspare, hlog⟩ := spinByte_view hbyte hroutes
          obtain ⟨bytes, hrest, hbytes⟩ := ih hspare h
          have hafter : src.after (view m.world) = view n.world := by
            rw [hview, Drainable.after, hmore, hread]
          have hentry : src.entry (view m.world) =
              byteOfInt (readByte (hasMore m.world).2).1 := by
            rw [Drainable.entry, hmore, hread]
          refine ⟨_ :: bytes, ?_, by rw [hbytes, hlog, List.append_assoc]; rfl⟩
          rw [Drainable.drain, if_pos (by simp [hmore, hno]), hafter, hrest, hentry]
          rfl
        · cases h

/-- A callback on the socket, in a world that has more to it. -/
def onSocket (f : TcpSource → Int × TcpSource) (w : TcpSource × A) : Int × (TcpSource × A) :=
  ((f w.1).1, (f w.1).2, w.2)

/-- Whatever the peer sends before it closes, the loop over `tcp_has_more` and `tcp_read_byte`
does not stop at the end of it, and `pipeline_spin` is never done with the source. -/
theorem tcpDrain_never_stops {tcp : TcpSource} (h : tcp.Connected) :
    ¬ tcp.StopsAtEnd ∧
      ∀ (env : Env (TcpSource × A) G) i fuel m m', m.world.1 = tcp →
        m.pipeline.RoutesSpare Prod.fst →
        drain env i (onSocket tcpHasMore) (onSocket tcpReadByte) fuel m ≠ .ok m' := by
  constructor
  · rintro ⟨fuel, tcp', hdrain⟩
    rw [tcpDrainable_goesOn.drain_eq_none fuel h] at hdrain
    cases hdrain
  · rintro env i fuel m m' rfl hroutes hdrain
    obtain ⟨bytes, hbytes, -⟩ := drain_refines tcpDrainable Prod.fst (fun _ => rfl) (fun _ => rfl)
      env i fuel hroutes hdrain
    rw [tcpDrainable_goesOn.drain_eq_none fuel h] at hbytes
    cases hbytes

theorem twoBytes_fit : ([7, 8] : List UInt8) ≠ [] ∧ [7, 8].length ≤ socketBufferSize := by
  decide

/-- An open connection on which the peer sends two bytes and closes. -/
def twoByteSource : TcpSource where
  initialized := true
  fd := some 3
  connection := some 4
  buffer := fun _ => 0
  curRead := 0
  bufferSize := 0
  opened := {3, 4}
  calls := { socket := none, setsockopt := false, bind := false, listen := false, accept := none }
  recvs := [some ⟨[7, 8], twoBytes_fit⟩]

theorem twoByteSource_connected : twoByteSource.Connected := ⟨Or.inl rfl, by simp [twoByteSource]⟩

theorem tcpDrain_never_stops_twoBytes : ¬ twoByteSource.StopsAtEnd :=
  (tcpDrain_never_stops (G := Unit) (A := Unit) twoByteSource_connected).1

/-- Behind the two bytes come zeros the peer did not send. -/
theorem tcpDrain_invents_bytes :
    tcpDrainable.entries 4 twoByteSource = [7, 8, 0, 0] ∧
      ¬ ∀ tcp : TcpSource, tcp.Connected → tcp.StopsAtEnd := by
  refine ⟨tcpDrainable_entries twoByteSource_connected 4, ?_⟩
  intro hall
  obtain ⟨fuel, tcp', hdrain⟩ := hall twoByteSource twoByteSource_connected
  rw [tcpDrainable_goesOn.drain_eq_none fuel twoByteSource_connected] at hdrain
  cases hdrain

end SecureGateway
