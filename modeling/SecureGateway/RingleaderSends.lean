import Mathlib.Algebra.Order.Group.Multiset
import Mathlib.Data.Multiset.Range
import SecureGateway.RingleaderLink

/-!
# What a ringleader connection sends and delivers

A routed message waits for an arena, is copied there and sent; its record is freed when the
send completes. Results about every run of the connection, over all orders in which the
kernel completes what is in flight.
-/

namespace SecureGateway

open Library

/-! ### Sends -/

/-- The record a send works on. -/
def Request.record? : Request → Option Nat
  | sendArena record => some record
  | send _ record => some record
  | _ => none

/-- The record whose arena was asked for. -/
def Request.waiting? : Request → Option Nat
  | sendArena record => some record
  | _ => none

namespace RlLink

/-- The records of the sends in flight. -/
def sending (s : RlLink) : Multiset Nat := held Request.record? s.inflight

/-- The records that wait for their arena. -/
def waiting (s : RlLink) : Multiset Nat := held Request.waiting? s.inflight

/-- The records whose send was refused. -/
def dropped (s : RlLink) : Multiset Nat := held Request.record? s.refused

/-- The records of what was sent. -/
def sentRecords (s : RlLink) : Multiset Nat := (s.sent.map Prod.fst : List Nat)

/-- A record is allocated exactly while it has a request, also a refused one, or once it is
lost. Of the records allocated so far each waits for its arena, was sent, or is lost or
dropped, and nothing else was sent than the buffer of a record, to the client. -/
structure Sends (s : RlLink) : Prop extends s.Receives where
  exclusive : Exclusive Request.record? s.requests
  allocated : ∀ r, (s.records r).isSome ↔ r ∈ held Request.record? s.requests ∨ r ∈ s.lost
  idle : ∀ r ∈ s.lost, r ∉ held Request.record? s.requests
  buffer : ∀ r data, s.records r = some data → s.routed[r]? = some data.buffer
  ledger : Multiset.range s.routed.length =
    s.waiting + (s.sentRecords + s.dropped) + (s.lost : List Nat)
  bytes : ∀ x ∈ s.sent, s.routed[x.1]? = some x.2.2 ∧ x.2.1 = s.clientfd
  connected : s.routed ≠ [] → 0 < s.clientfd

namespace Sends

variable {s t : RlLink} {cqe : Cqe}

/-- What leaves records and sends alone. -/
theorem frame (hs : s.Sends) (ht : t.Receives)
    (hrequests : held Request.record? t.requests = held Request.record? s.requests)
    (hwaiting : t.waiting = s.waiting) (hdropped : t.dropped = s.dropped)
    (hrecords : t.records = s.records) (hrouted : t.routed = s.routed) (hsent : t.sent = s.sent)
    (hlost : t.lost = s.lost) (hclientfd : s.routed ≠ [] → t.clientfd = s.clientfd) :
    t.Sends where
  toReceives := ht
  exclusive := by
    rw [Exclusive, hrequests]
    exact hs.exclusive
  allocated := by
    rw [hrecords, hrequests, hlost]
    exact hs.allocated
  idle := by
    rw [hlost, hrequests]
    exact hs.idle
  buffer := by
    rw [hrecords, hrouted]
    exact hs.buffer
  ledger := by
    rw [hrouted, hwaiting, sentRecords, hsent, hdropped, hlost]
    exact hs.ledger
  bytes := by
    rw [hsent, hrouted]
    intro x hx
    obtain ⟨hbytes, hfd⟩ := hs.bytes x hx
    refine ⟨hbytes, hfd.trans (hclientfd ?_).symm⟩
    intro hnil
    simp [hnil] at hbytes
  connected := by
    rw [hrouted]
    intro hne
    rw [hclientfd hne]
    exact hs.connected hne

/-- A request of a tick works on no record. -/
theorem asked (hs : s.Sends) {r : Request} (hrecord : r.record? = none)
    (hwaiting : r.waiting? = none) {flagArena flagSocket flagBindListen : Bool}
    (ht : { s.prep r with
            flagArena := flagArena
            flagSocket := flagSocket
            flagBindListen := flagBindListen : RlLink }.Receives) :
    { s.prep r with
      flagArena := flagArena
      flagSocket := flagSocket
      flagBindListen := flagBindListen : RlLink }.Sends := by
  obtain ⟨hrequests, -, hrefused⟩ := held_prep hrecord s
  obtain ⟨-, hinflight, -⟩ := held_prep hwaiting s
  exact hs.frame ht hrequests hinflight hrefused rfl rfl rfl rfl fun _ => rfl

theorem isSome_of_mem (hs : s.Sends) {r : Request} {record : Nat} (hmem : r ∈ s.inflight)
    (hrecord : r.record? = some record) : ∃ data, s.records record = some data :=
  Option.isSome_iff_exists.mp
    ((hs.allocated record).mpr (Or.inl (mem_held.mpr ⟨r, mem_requests hmem, hrecord⟩)))

/-- A send that is handed to the queue was sent or is dropped. -/
theorem sent_or_dropped (sent : List (Nat × Int × List UInt8)) (record : Nat) (fd : Int)
    (buffer : List UInt8)
    (hsent : t.sent = if s.queue s.preps then sent ++ [(record, fd, buffer)] else sent)
    (hrefused : t.refused = (s.prep (.send fd record)).refused) :
    t.sentRecords + t.dropped =
      record ::ₘ ((sent.map Prod.fst : List Nat) + held Request.record? s.refused) := by
  rw [sentRecords, dropped, hsent, hrefused]
  unfold RlLink.prep
  dsimp only
  split
  · rw [List.map_append, ← Multiset.coe_add, ← Multiset.singleton_add]
    change _ + {record} + _ = _
    ac_rfl
  · have hcons : held Request.record? (.send fd record ::ₘ s.refused) =
        record ::ₘ held Request.record? s.refused := held_cons_some rfl
    rw [hcons, Multiset.add_cons]

/-- A record that is changed or freed keeps its message. -/
theorem buffer_update (hs : s.Sends) {record : Nat} {new : Option PktSendData}
    (hnew : ∀ data, new = some data → s.routed[record]? = some data.buffer) (r : Nat)
    (data : PktSendData) (h : Function.update s.records record new r = some data) :
    s.routed[r]? = some data.buffer := by
  by_cases hr : r = record
  · rw [hr, Function.update_self] at h
    rw [hr]
    exact hnew data h
  · rw [Function.update_of_ne hr] at h
    exact hs.buffer r data h

/-- The arena is there: the record is sent, or its send is dropped. -/
theorem sendArenaCb_granted (hs : s.Sends) {record : Nat} {err : ErrT} {data : PktSendData}
    (hmem : Request.sendArena record ∈ s.inflight) (hdata : s.records record = some data)
    (ht : t.Receives)
    (h : t = { (s.complete (.sendArena record err)).prep (.send s.clientfd record) with
               records := Function.update s.records record (some { data with arena := true })
               sent := if s.queue s.preps then s.sent ++ [(record, s.clientfd, data.buffer)]
                 else s.sent }) : t.Sends := by
  have hrequests : t.requests =
      .send s.clientfd record ::ₘ s.requests.erase (.sendArena record) := by
    have hcompleted : (s.complete (.sendArena record err)).requests =
        s.requests.erase (.sendArena record) := requests_complete hmem
    rw [h, ← hcompleted]
    exact requests_prep _ _
  have hheld : held Request.record? t.requests = held Request.record? s.requests := by
    rw [hrequests]
    exact held_repost (mem_requests hmem) rfl
  have hwaiting : record ::ₘ t.waiting = s.waiting := by
    have hsame : t.waiting = held Request.waiting? (s.inflight.erase (.sendArena record)) := by
      rw [h]
      exact (held_prep (f := Request.waiting?) (r := .send s.clientfd record) rfl
        (s.complete (.sendArena record err))).2.1
    rw [hsame]
    exact held_erase_some hmem rfl
  have hout : t.sentRecords + t.dropped = record ::ₘ (s.sentRecords + s.dropped) :=
    sent_or_dropped (s := s.complete (.sendArena record err)) s.sent record s.clientfd
      data.buffer (by rw [h]; rfl) (by rw [h])
  have hledger := hs.ledger
  rw [← hwaiting] at hledger
  constructor
  · exact ht
  · rw [Exclusive, hheld]
    exact hs.exclusive
  · intro r
    rw [hheld, h]
    change (Function.update s.records record (some { data with arena := true }) r).isSome ↔
      r ∈ held Request.record? s.requests ∨ r ∈ s.lost
    rw [← hs.allocated r]
    by_cases hr : r = record
    · rw [hr, Function.update_self, hdata]
      exact Iff.rfl
    · rw [Function.update_of_ne hr]
  · rw [hheld, h]
    exact hs.idle
  · rw [h]
    refine hs.buffer_update ?_
    intro d hd
    cases hd
    exact hs.buffer record data hdata
  · rw [hout, h]
    rw [h] at hledger
    refine hledger.trans ?_
    rw [Multiset.cons_add, Multiset.cons_add, Multiset.add_cons, Multiset.cons_add]
    rfl
  · rw [h]
    intro x hx
    have hmember : x ∈ s.sent ∨ x = (record, s.clientfd, data.buffer) := by
      change x ∈ (if s.queue s.preps then s.sent ++ [(record, s.clientfd, data.buffer)]
        else s.sent) at hx
      split at hx
      · simpa using hx
      · exact Or.inl hx
    rcases hmember with hx | rfl
    · exact hs.bytes x hx
    · exact ⟨hs.buffer record data hdata, rfl⟩
  · rw [h]
    exact hs.connected

/-- The arena was refused: the record is lost. -/
theorem sendArenaCb_refused (hs : s.Sends) {record : Nat} {err : ErrT}
    (hmem : Request.sendArena record ∈ s.inflight) (ht : t.Receives)
    (h : t = { s.complete (.sendArena record err) with lost := s.lost ++ [record] }) :
    t.Sends := by
  have hrequests : t.requests = s.requests.erase (.sendArena record) := by
    rw [h]
    exact requests_complete hmem
  have hheld : record ::ₘ held Request.record? t.requests = held Request.record? s.requests := by
    rw [hrequests]
    exact held_erase_some (mem_requests hmem) rfl
  have hreleased : record ∉ held Request.record? t.requests := by
    rw [hrequests]
    exact hs.exclusive.released (mem_requests hmem) rfl
  have hwaiting : record ::ₘ t.waiting = s.waiting := by
    rw [h]
    exact held_erase_some hmem rfl
  have hlost : t.lost = s.lost ++ [record] := by rw [h]
  have hledger := hs.ledger
  rw [← hwaiting] at hledger
  constructor
  · exact ht
  · rw [hrequests]
    exact hs.exclusive.complete _
  · intro r
    have hrecords : t.records = s.records := by rw [h]; rfl
    rw [hlost, hrecords, hs.allocated r, ← hheld, Multiset.mem_cons, List.mem_append,
      List.mem_singleton]
    tauto
  · rw [hlost]
    intro r hr
    rcases List.mem_append.mp hr with hr | hr
    · intro hin
      apply hs.idle r hr
      rw [← hheld]
      exact Multiset.mem_cons_of_mem hin
    · rw [List.mem_singleton.mp hr]
      exact hreleased
  · rw [h]
    exact hs.buffer
  · have hsame : t.routed = s.routed ∧ t.sentRecords = s.sentRecords ∧ t.dropped = s.dropped := by
      rw [h]
      exact ⟨rfl, rfl, rfl⟩
    rw [hsame.1, hsame.2.1, hsame.2.2, hlost, hledger, ← Multiset.coe_add,
      ← Multiset.singleton_add]
    change _ = _ + _ + (_ + {record})
    ac_rfl
  · rw [h]
    exact hs.bytes
  · rw [h]
    exact hs.connected

theorem sendArenaCb (hs : s.Sends) {record : Nat} {err : ErrT}
    (hmem : Request.sendArena record ∈ s.inflight) (ht : t.Receives)
    (h : ringleaderTcpSendArenaCb (s.complete (.sendArena record err)) record err = .ok t) :
    t.Sends := by
  obtain ⟨data, hdata⟩ := hs.isSome_of_mem hmem rfl
  have hrecords : (s.complete (.sendArena record err)).records record = some data := hdata
  simp only [ringleaderTcpSendArenaCb, hrecords] at h
  split at h
  · exact hs.sendArenaCb_granted hmem hdata ht (Except.ok.inj h).symm
  · exact hs.sendArenaCb_refused hmem ht (Except.ok.inj h).symm

theorem sendCb (hs : s.Sends) {fd : Int} {record : Nat}
    (hmem : Request.send fd record ∈ s.inflight) (ht : t.Receives)
    (h : ringleaderTcpSendCb (s.complete (.send fd record)) record = .ok t) : t.Sends := by
  obtain ⟨data, hdata⟩ := hs.isSome_of_mem hmem rfl
  have hrecords : (s.complete (.send fd record)).records record = some data := hdata
  simp only [ringleaderTcpSendCb, hrecords] at h
  cases h
  have hcompleted : (s.complete (.send fd record)).requests = s.requests.erase (.send fd record) :=
    requests_complete hmem
  have hheld : record ::ₘ held Request.record? (s.requests.erase (.send fd record)) =
      held Request.record? s.requests := held_erase_some (mem_requests hmem) rfl
  have hreleased := hs.exclusive.released (mem_requests hmem) rfl
  rw [← hcompleted] at hheld hreleased
  have hnotLost : record ∉ s.lost := by
    intro hlost
    apply hs.idle record hlost
    rw [← hheld]
    exact Multiset.mem_cons_self _ _
  constructor
  · exact ht
  · change Exclusive _ (s.complete (.send fd record)).requests
    rw [hcompleted]
    exact hs.exclusive.complete _
  · intro r
    change (Function.update s.records record none r).isSome ↔
      r ∈ held Request.record? (s.complete (.send fd record)).requests ∨ r ∈ s.lost
    by_cases hr : r = record
    · rw [hr, Function.update_self]
      simp only [Option.isSome_none, Bool.false_eq_true, false_iff, not_or]
      exact ⟨hreleased, hnotLost⟩
    · rw [Function.update_of_ne hr, hs.allocated r, ← hheld, Multiset.mem_cons,
        or_iff_right hr]
  · intro r hr hin
    apply hs.idle r hr
    rw [← hheld]
    exact Multiset.mem_cons_of_mem hin
  · exact hs.buffer_update (by simp)
  · change _ = held Request.waiting? (s.inflight.erase (.send fd record)) + _ + _
    rw [held_erase_none hmem rfl]
    exact hs.ledger
  · exact hs.bytes
  · exact hs.connected

/-- A completion that concerns no record. -/
theorem held_complete (hmem : cqe.request ∈ s.inflight)
    (hrecord : cqe.request.record? = none) (hwaiting : cqe.request.waiting? = none) :
    held Request.record? (s.complete cqe).requests = held Request.record? s.requests ∧
      (s.complete cqe).waiting = s.waiting := by
  rw [requests_complete hmem, held_erase_none (mem_requests hmem) hrecord]
  exact ⟨rfl, held_erase_none hmem hwaiting⟩

theorem runCallback (hs : s.Sends) (hmem : cqe.request ∈ s.inflight)
    (h : runCallback (s.complete cqe) cqe = .ok t) : t.Sends := by
  have ht := hs.toReceives.runCallback hmem h
  cases cqe with
  | arena err =>
      obtain ⟨hheld, hwaiting⟩ := held_complete hmem rfl rfl
      simp only [SecureGateway.runCallback, ringleaderTcpRecvArenaCb] at h
      split at h
      · cases h
        exact hs.frame ht hheld hwaiting rfl rfl rfl rfl rfl fun _ => rfl
      · cases h
  | socket res =>
      obtain ⟨hheld, hwaiting⟩ := held_complete hmem rfl rfl
      cases h
      exact hs.frame ht hheld hwaiting rfl rfl rfl rfl rfl fun _ => rfl
  | accept fd res =>
      -- before there is a client nothing was routed
      have hnone : s.accepted = false := not_completed hs.once.2.2 hmem rfl
      have hclientfd := (hs.before hnone).2.2
      obtain ⟨hheld, hwaiting⟩ := held_complete hmem rfl rfl
      obtain ⟨preps, inflight, refused, heq, hsum, hothers⟩ :=
        acceptCb_spec (s.complete (.accept fd res)) res
      have hnew : held Request.record? (recvRequests res : Multiset Request) = 0 := rfl
      rw [SecureGateway.runCallback, heq] at h
      cases h
      refine hs.frame ht ?_ ((hothers Request.waiting? fun _ => rfl).1.trans hwaiting)
        (hothers Request.record? fun _ => rfl).2 rfl rfl rfl rfl ?_
      · change held _ (inflight + refused) = _
        rw [hsum, held_add, hnew, Multiset.zero_add, hheld]
      · intro hne
        have hpos := hs.connected hne
        rw [hclientfd] at hpos
        exact absurd hpos (by decide)
  | recv fd index packet =>
      obtain ⟨hheld, hwaiting⟩ := held_complete hmem rfl rfl
      cases h
      cases packet with
      | none => exact hs.frame ht hheld hwaiting rfl rfl rfl rfl rfl fun _ => rfl
      | some packet =>
          let u := (s.complete (.recv fd index (some packet))).onRing (.recv packet)
          obtain ⟨hrequests, -, hdropped⟩ :=
            held_prep (f := Request.record?) (r := .recv s.clientfd index) rfl u
          have hawait := (held_prep (f := Request.waiting?) (r := .recv s.clientfd index) rfl
            u).2.1
          exact hs.frame ht (hrequests.trans hheld) (hawait.trans hwaiting) hdropped rfl rfl rfl
            rfl fun _ => rfl
  | sendArena record err => exact hs.sendArenaCb hmem ht h
  | send fd record => exact hs.sendCb hmem ht h

theorem fresh (hs : s.Sends) :
    s.records s.routed.length = none ∧ s.routed.length ∉ held Request.record? s.requests ∧
      s.routed.length ∉ s.lost := by
  have hnone : s.records s.routed.length = none := by
    cases hrecord : s.records s.routed.length with
    | none => rfl
    | some data =>
        have hbuffer := hs.buffer _ data hrecord
        simp at hbuffer
  have hnot := mt (hs.allocated s.routed.length).mpr (by simp [hnone])
  exact ⟨hnone, not_or.mp hnot⟩

/-- A record for one more message. -/
theorem newRecord (hs : s.Sends) (hclientfd : 0 < s.clientfd) (buffer : List UInt8)
    (requested : ErrT) : (s.newRecord buffer requested).Sends := by
  have ht := hs.toReceives.newRecord buffer requested
  obtain ⟨hnone, hsending, hlost⟩ := hs.fresh
  have hrecord (r : Nat) (d : PktSendData)
      (hd : Function.update s.records s.routed.length (some ⟨buffer, false⟩) r = some d) :
      (s.routed ++ [buffer])[r]? = some d.buffer := by
    by_cases hr : r = s.routed.length
    · rw [hr, Function.update_self] at hd
      cases hd
      simp [hr]
    · rw [Function.update_of_ne hr] at hd
      have hold := hs.buffer r d hd
      rw [List.getElem?_append_left (List.getElem?_eq_some_iff.mp hold).1, hold]
  have hbytes (x : Nat × Int × List UInt8) (hx : x ∈ s.sent) :
      (s.routed ++ [buffer])[x.1]? = some x.2.2 ∧ x.2.1 = s.clientfd := by
    obtain ⟨hold, hfd⟩ := hs.bytes x hx
    rw [List.getElem?_append_left (List.getElem?_eq_some_iff.mp hold).1, hold]
    exact ⟨rfl, hfd⟩
  have hrange : Multiset.range (s.routed ++ [buffer]).length =
      s.routed.length ::ₘ Multiset.range s.routed.length := by
    rw [List.length_append, List.length_singleton, Multiset.range_succ]
  cases hok : decide (requested = .ok) with
  | true =>
      rw [RlLink.newRecord, if_pos (of_decide_eq_true hok)] at ht ⊢
      have hnew : held Request.record? (s.post (.sendArena s.routed.length)).requests =
          s.routed.length ::ₘ held Request.record? s.requests := by
        rw [requests_post]
        exact held_cons_some rfl
      have hawait : held Request.waiting? (.sendArena s.routed.length ::ₘ s.inflight) =
          s.routed.length ::ₘ s.waiting := held_cons_some rfl
      constructor
      · exact ht
      · change (held _ (s.post (.sendArena s.routed.length)).requests).Nodup
        rw [hnew]
        exact Multiset.nodup_cons.mpr ⟨hsending, hs.exclusive⟩
      · intro r
        change (Function.update s.records s.routed.length (some ⟨buffer, false⟩) r).isSome ↔
          r ∈ held Request.record? (s.post (.sendArena s.routed.length)).requests ∨ r ∈ s.lost
        rw [hnew, Multiset.mem_cons]
        by_cases hr : r = s.routed.length
        · rw [hr, Function.update_self]
          simp
        · rw [Function.update_of_ne hr, hs.allocated r, or_iff_right hr]
      · intro r hr
        change r ∉ held Request.record? (s.post (.sendArena s.routed.length)).requests
        rw [hnew, Multiset.mem_cons, not_or]
        exact ⟨fun heq => hlost (heq ▸ hr), hs.idle r hr⟩
      · exact hrecord
      · change Multiset.range (s.routed ++ [buffer]).length =
          held Request.waiting? (.sendArena s.routed.length ::ₘ s.inflight) +
            (s.sentRecords + s.dropped) + (s.lost : List Nat)
        rw [hrange, hs.ledger, hawait, Multiset.cons_add, Multiset.cons_add]
      · exact hbytes
      · exact fun _ => hclientfd
  | false =>
      rw [RlLink.newRecord, if_neg (of_decide_eq_false hok)] at ht ⊢
      constructor
      · exact ht
      · exact hs.exclusive
      · intro r
        change (Function.update s.records s.routed.length (some ⟨buffer, false⟩) r).isSome ↔
          r ∈ held Request.record? s.requests ∨ r ∈ s.lost ++ [s.routed.length]
        rw [List.mem_append, List.mem_singleton]
        by_cases hr : r = s.routed.length
        · rw [hr, Function.update_self]
          simp
        · rw [Function.update_of_ne hr, hs.allocated r, or_iff_left hr]
      · intro r hr
        rcases List.mem_append.mp hr with hr | hr
        · exact hs.idle r hr
        · rw [List.mem_singleton.mp hr]
          exact hsending
      · exact hrecord
      · change Multiset.range (s.routed ++ [buffer]).length =
          s.waiting + (s.sentRecords + s.dropped) +
            ((s.lost ++ [s.routed.length] : List Nat) : Multiset Nat)
        rw [hrange, hs.ledger, ← Multiset.coe_add, ← Multiset.singleton_add]
        change _ = _ + _ + (_ + {s.routed.length})
        ac_rfl
      · exact hbytes
      · exact fun _ => hclientfd

end Sends

end RlLink

theorem sends_invariant : LinkInvariant RlLink.Sends where
  consume _ _ _ hs hmem h := hs.runCallback hmem h
  askArena _ hs hflag := hs.asked (r := .arena) rfl rfl (hs.toReceives.askArena hflag)
  askSocket _ hs hflag := hs.asked (r := .socket) rfl rfl (hs.toReceives.askSocket hflag)
  askClient s hs harena hflag :=
    hs.asked (r := .accept s.sockfd) rfl rfl (hs.toReceives.askClient harena hflag)
  record _ buffer requested hs hclientfd := hs.newRecord hclientfd buffer requested
  poll _ hs :=
    ⟨hs.frame { hs.toReceives with } rfl rfl rfl rfl rfl rfl rfl fun _ => rfl,
      hs.frame { hs.toReceives with } rfl rfl rfl rfl rfl rfl rfl fun _ => rfl⟩

theorem sends_start (ready : Nat → UInt8) (queue : Nat → Bool) :
    (hookRingleaderTcp ready queue).Sends where
  toReceives := receives_start ready queue
  exclusive := Multiset.nodup_zero
  allocated r := by
    constructor
    · intro h
      cases h
    · rintro (h | h)
      · cases h
      · cases h
  idle _ h := by cases h
  buffer _ _ h := by cases h
  ledger := rfl
  bytes _ h := by cases h
  connected h := absurd rfl h

/-- A request in flight works on an allocated record. -/
theorem RlLink.Sends.safe {s : RlLink} (hs : s.Sends) (cqe : Cqe) :
    consumeCqe s cqe ≠ .error .useAfterFree := by
  unfold consumeCqe
  split
  · rename_i hmem
    cases cqe with
    | sendArena record err =>
        obtain ⟨data, hdata⟩ := hs.isSome_of_mem hmem rfl
        have hrecord : (s.complete (.sendArena record err)).records record = some data := hdata
        simp only [SecureGateway.runCallback, ringleaderTcpSendArenaCb, hrecord]
        split <;> simp
    | send fd record =>
        obtain ⟨data, hdata⟩ := hs.isSome_of_mem hmem rfl
        have hrecord : (s.complete (.send fd record)).records record = some data := hdata
        simp [SecureGateway.runCallback, ringleaderTcpSendCb, hrecord]
    | arena err =>
        simp only [SecureGateway.runCallback, ringleaderTcpRecvArenaCb]
        split <;> simp
    | socket res => simp [SecureGateway.runCallback]
    | accept fd res => simp [SecureGateway.runCallback]
    | recv fd index packet => simp [SecureGateway.runCallback]
  · simp

/-- The message a call routes. -/
def RlLinkCall.message? : RlLinkCall → Option MavlinkMessage
  | routeTo msg _ => some msg
  | _ => none

theorem routed_invariant (routed : List (List UInt8)) :
    TickInvariant fun s => s.routed = routed where
  consume _ _ _ hs hmem h := (runCallback_called hmem h).routed.trans hs
  askArena _ hs _ := hs
  askSocket _ hs _ := hs
  askClient _ hs _ _ := hs

/-- A call gets at most one record, for the message it routes. -/
theorem rlLinkStep_routed {codec : MavlinkCodec} {s t : RlLink} {call : RlLinkCall}
    (h : rlLinkStep codec s call = .ok t) :
    t.routed = s.routed ∨
      ∃ msg, call.message? = some msg ∧ t.routed = s.routed ++ [codec.msgToSendBuffer msg] := by
  have htick {u v : RlLink} {tick : Tick} (h : ringleaderTcpTick u tick = .ok v) :
      v.routed = u.routed := (routed_invariant u.routed).tick rfl h
  cases call with
  | init tick => exact Or.inl (htick h)
  | hasMore tick =>
      obtain ⟨u, hfirst, h⟩ := bind_eq_ok_iff.mp h
      cases h
      have hsame := htick hfirst
      exact Or.inl hsame
  | readByte =>
      cases h
      exact Or.inl rfl
  | routeTo msg o =>
      obtain ⟨⟨rv, v⟩, hroute, h⟩ := bind_eq_ok_iff.mp h
      cases h
      obtain ⟨u, hfirst, h⟩ := bind_eq_ok_iff.mp hroute
      split at h
      · split at h
        · obtain ⟨w, hafter, h⟩ := bind_eq_ok_iff.mp h
          cases h
          refine Or.inr ⟨msg, rfl, ?_⟩
          have hnew : (u.newRecord (codec.msgToSendBuffer msg) o.requested).routed =
              u.routed ++ [codec.msgToSendBuffer msg] := by
            unfold RlLink.newRecord
            dsimp only
            split <;> rfl
          rw [htick hafter, hnew, htick hfirst]
        · cases h
          exact Or.inl (htick hfirst)
      · cases h
        exact Or.inl (htick hfirst)

theorem runLink_routed {codec : MavlinkCodec} {calls : List RlLinkCall} {s t : RlLink}
    (h : runLink codec s calls = .ok t) :
    ∃ new, t.routed = s.routed ++ new ∧
      new.Sublist ((calls.filterMap RlLinkCall.message?).map codec.msgToSendBuffer) := by
  induction calls generalizing s with
  | nil =>
      cases h
      exact ⟨[], (List.append_nil _).symm, List.Sublist.refl _⟩
  | cons call calls ih =>
      rw [runLink, List.foldlM_cons] at h
      obtain ⟨u, hstep, hrest⟩ := bind_eq_ok_iff.mp h
      obtain ⟨new, hnew, hsub⟩ := ih hrest
      rcases rlLinkStep_routed hstep with hsame | ⟨msg, hmsg, happend⟩
      · refine ⟨new, hnew.trans (by rw [hsame]), ?_⟩
        cases hmsg : call.message? with
        | none => rwa [List.filterMap_cons_none hmsg]
        | some msg =>
            rw [List.filterMap_cons_some hmsg]
            exact hsub.cons _
      · refine ⟨codec.msgToSendBuffer msg :: new, ?_, ?_⟩
        · rw [hnew, happend, List.append_assoc, List.singleton_append]
        · rw [List.filterMap_cons_some hmsg]
          exact hsub.cons_cons _

theorem RlLink.Sends.to_client {s : RlLink} (hs : s.Sends) :
    ∀ x ∈ s.sent, s.routed[x.1]? = some x.2.2 ∧ x.2.1 = s.clientfd ∧ 0 < s.clientfd := by
  intro x hx
  obtain ⟨hbytes, hfd⟩ := hs.bytes x hx
  refine ⟨hbytes, hfd, hs.connected ?_⟩
  intro hnil
  simp [hnil] at hbytes

/-- Records are made for messages of routing calls, in the order of the calls. -/
theorem routed_sublist {codec : MavlinkCodec} {ready : Nat → UInt8} {queue : Nat → Bool}
    {calls : List RlLinkCall} {s : RlLink}
    (h : runLink codec (hookRingleaderTcp ready queue) calls = .ok s) :
    s.routed.Sublist ((calls.filterMap RlLinkCall.message?).map codec.msgToSendBuffer) := by
  obtain ⟨new, hnew, hsub⟩ := runLink_routed h
  rw [hnew]
  exact hsub

/-- No completion, in whatever order, makes a callback touch a freed record. A record is
allocated exactly while a request works on it or once its send or its arena was refused, after
which it is never freed. Every record of a routed message waits for its arena, was sent, was
dropped by the submission queue, or is lost, one of the four; what was sent is the encoding of
its message, to the one client, and no message is sent twice. -/
theorem ringleader_sends (codec : MavlinkCodec) (ready : Nat → UInt8) (queue : Nat → Bool)
    (calls : List RlLinkCall) :
    runLink codec (hookRingleaderTcp ready queue) calls ≠ .error .useAfterFree ∧
    ∀ s, runLink codec (hookRingleaderTcp ready queue) calls = .ok s →
      (s.sending + s.dropped).Nodup ∧
      (∀ r, (s.records r).isSome ↔ r ∈ s.sending ∨ r ∈ s.dropped ∨ r ∈ s.lost) ∧
      Multiset.range s.routed.length =
        s.waiting + (s.sentRecords + s.dropped) + (s.lost : List Nat) ∧
      (∀ x ∈ s.sent, s.routed[x.1]? = some x.2.2 ∧ x.2.1 = s.clientfd ∧ 0 < s.clientfd) ∧
      s.routed.Sublist ((calls.filterMap RlLinkCall.message?).map codec.msgToSendBuffer) := by
  constructor
  · exact sends_invariant.run_ne_error (fun _ _ _ cqe _ hu => hu.safe cqe)
      (sends_start ready queue)
  · intro s h
    have hs := sends_invariant.run (sends_start ready queue) h
    have hall : held Request.record? s.requests = s.sending + s.dropped := held_add _
    have hexclusive := hs.exclusive
    rw [Exclusive, hall] at hexclusive
    refine ⟨hexclusive, ?_, hs.ledger, hs.to_client, routed_sublist h⟩
    intro r
    rw [hs.allocated r, hall, Multiset.mem_add, or_assoc]

/-- The one message was sent to the client. -/
theorem ringleader_sends_client :
    clientLink.sent.length = 1 ∧
      ∀ x ∈ clientLink.sent, clientLink.routed[x.1]? = some x.2.2 ∧
        x.2.1 = clientLink.clientfd ∧ 0 < clientLink.clientfd := by
  obtain ⟨-, hall⟩ := ringleader_sends wireCodec (fun _ => 0) clientQueue clientCalls
  exact ⟨by decide +kernel, (hall clientLink clientCalls_run).2.2.2.1⟩

/-! ### The ring -/

def RlCall.packet? : RlCall → Option RlPacket
  | recv packet => some packet
  | _ => none

/-- The ring has seen the packets of the completions, in their order. -/
structure RlLink.Rings (ready : Nat → UInt8) (s : RlLink) : Prop where
  run : run rlStep (RlState.start ready) s.ringCalls = some s.ready
  packets : s.ringCalls.filterMap RlCall.packet? = s.cqes.filterMap Cqe.packet?

theorem run_onRing {ready : Nat → UInt8} {calls : List RlCall} {state : RlState}
    (hrun : run rlStep (RlState.start ready) calls = some state) (call : RlCall) :
    run rlStep (RlState.start ready) (calls ++ [call]) =
      some ((rlStep state call).getD state) := by
  rw [run_append_eq_some_iff]
  refine ⟨state, hrun, ?_⟩
  cases call <;> rfl

theorem rings_invariant (ready : Nat → UInt8) : LinkInvariant (RlLink.Rings ready) where
  consume s cqe t hs hmem h := by
    have hcalled := runCallback_called hmem h
    have hcqes : t.cqes.filterMap Cqe.packet? =
        s.cqes.filterMap Cqe.packet? ++ [cqe].filterMap Cqe.packet? := by
      rw [hcalled.cqes, List.filterMap_append]
    cases hpacket : cqe.packet? with
    | none =>
        obtain ⟨hready, hcalls⟩ := hcalled.silent hpacket
        refine ⟨?_, ?_⟩
        · rw [hready, hcalls]
          exact hs.run
        · rw [hcqes, hcalls, List.filterMap_cons_none hpacket, List.filterMap_nil,
            List.append_nil, hs.packets]
    | some packet =>
        obtain ⟨hready, hcalls⟩ := hcalled.received packet hpacket
        refine ⟨?_, ?_⟩
        · rw [hready, hcalls]
          exact run_onRing hs.run (.recv packet)
        · rw [hcqes, hcalls, List.filterMap_cons_some hpacket, List.filterMap_nil, ← hs.packets]
          exact List.filterMap_append
  askArena _ hs _ := ⟨hs.run, hs.packets⟩
  askSocket _ hs _ := ⟨hs.run, hs.packets⟩
  askClient _ hs _ _ := ⟨hs.run, hs.packets⟩
  record s buffer requested hs _ := by
    unfold RlLink.newRecord
    dsimp only
    split <;> exact ⟨hs.run, hs.packets⟩
  poll s hs := by
    have hpolled (call : RlCall) (hno : call.packet? = none) : (s.onRing call).Rings ready := by
      refine ⟨run_onRing hs.run call, ?_⟩
      change (s.ringCalls ++ [call]).filterMap RlCall.packet? = s.cqes.filterMap Cqe.packet?
      rw [List.filterMap_append, List.filterMap_cons_none hno, List.filterMap_nil,
        List.append_nil, hs.packets]
    exact ⟨hpolled .hasMore rfl, hpolled .readByte rfl⟩

theorem run_received {calls : List RlCall} {s t : RlState} (h : run rlStep s calls = some t) :
    t.received = s.received ++ (calls.filterMap RlCall.packet?).flatMap Subtype.val := by
  induction calls generalizing s with
  | nil =>
      cases h
      exact (List.append_nil _).symm
  | cons call calls ih =>
      obtain ⟨u, hstep, hrest⟩ := (run_cons_eq_some_iff rlStep).mp h
      rw [ih hrest]
      cases call with
      | recv packet =>
          cases hstep
          rw [List.filterMap_cons_some (f := RlCall.packet?) rfl, List.flatMap_cons,
            List.append_assoc]
      | hasMore =>
          cases hstep
          rfl
      | readByte =>
          cases hstep
          rfl

/-- The ring holds the queue its calls make, which drops its oldest bytes for new ones. -/
def RlState.Queues (s : RlState) (calls : List RlCall) : Prop :=
  ∃ t, run Traffic.step (Traffic.start UInt8 (readySize - 1)) (calls.flatMap rlTransfers) =
    some t ∧ s.Holds t

/-- A ring that follows the protocol is the queue that overwrites its oldest bytes: what was
read and what is unread are the packets, with only oldest bytes missing. -/
theorem RlLink.Rings.delivers {ready : Nat → UInt8} {s : RlLink} (hs : s.Rings ready) :
    s.ready.received = (s.cqes.filterMap Cqe.packet?).flatMap Subtype.val ∧
    (Along rlStep RlState.Follows (RlState.start ready) s.ringCalls →
      s.ready.Queues s.ringCalls ∧
      (s.ready.read ++ s.ready.ring.unread).Sublist s.ready.received ∧
      (Along Traffic.step Traffic.Fits (Traffic.start UInt8 (readySize - 1))
          (s.ringCalls.flatMap rlTransfers) →
        s.ready.read ++ s.ready.ring.unread = s.ready.received)) := by
  constructor
  · rw [run_received hs.run, hs.packets]
    rfl
  · intro halong
    obtain ⟨t, htraffic, hholds⟩ := run_simulates rlStep RlState.Holds rlTransfers
      rlStep_simulates (rlStart_holds ready) halong hs.run
    refine ⟨⟨t, htraffic, hholds⟩, ?_⟩
    rw [← hholds.taken, ← hholds.unread, ← hholds.offered]
    exact ⟨Traffic.sublist htraffic, fun hfits => Traffic.lossless hfits htraffic⟩

theorem rings_start (ready : Nat → UInt8) (queue : Nat → Bool) :
    (hookRingleaderTcp ready queue).Rings ready := ⟨rfl, rfl⟩

/-- The reader of a connection gets the packets of the completed receives in the order they
completed. Where each of them advances the ring and every byte is read after a positive
`has_more`, the ring is a queue that drops its oldest bytes for new ones and nothing else: what
was read and what is unread are the bytes of the packets without those dropped, and all of
them where every packet fits. -/
theorem ringleader_delivers (codec : MavlinkCodec) (ready : Nat → UInt8) (queue : Nat → Bool)
    {calls : List RlLinkCall} {s : RlLink}
    (h : runLink codec (hookRingleaderTcp ready queue) calls = .ok s) :
    s.ready.received = (s.cqes.filterMap Cqe.packet?).flatMap Subtype.val ∧
    run rlStep (RlState.start ready) s.ringCalls = some s.ready ∧
    (Along rlStep RlState.Follows (RlState.start ready) s.ringCalls →
      s.ready.Queues s.ringCalls ∧
      (s.ready.read ++ s.ready.ring.unread).Sublist s.ready.received ∧
      (Along Traffic.step Traffic.Fits (Traffic.start UInt8 (readySize - 1))
          (s.ringCalls.flatMap rlTransfers) →
        s.ready.read ++ s.ready.ring.unread = s.ready.received)) := by
  have hrings := (rings_invariant ready).run (rings_start ready queue) h
  obtain ⟨hreceived, hqueue⟩ := hrings.delivers
  exact ⟨hreceived, hrings.run, hqueue⟩

/-- The byte of the client is in the ring, and the queue has it. -/
theorem ringleader_delivers_client :
    clientLink.ready.Queues clientLink.ringCalls ∧
      (clientLink.ready.read ++ clientLink.ready.ring.unread).Sublist
        clientLink.ready.received := by
  obtain ⟨-, -, hall⟩ := ringleader_delivers wireCodec (fun _ => 0) clientQueue clientCalls_run
  have hfollows : Along rlStep RlState.Follows (RlState.start fun _ => 0)
      clientLink.ringCalls := by
    refine ⟨trivial, ?_⟩
    rintro s ⟨⟩
    refine ⟨Or.inl (by decide), ?_⟩
    rintro s ⟨⟩
    refine ⟨trivial, ?_⟩
    rintro s ⟨⟩
    refine ⟨trivial, ?_⟩
    rintro s ⟨⟩
    trivial
  obtain ⟨hqueue, hsublist, -⟩ := hall hfollows
  exact ⟨hqueue, hsublist⟩

end SecureGateway
