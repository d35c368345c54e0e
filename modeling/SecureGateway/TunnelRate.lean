import Mathlib.Tactic.Ring
import SecureGateway.Tunnel

/-!
# The bandwidth of a tunnel

`sender_thread` of `tcp_bridge.cc` reads the clock before and after a packet and sleeps for
what is left of the time the packet may take at the given bandwidth.

## Implementation notes

The readings of the clock are inputs. A reading is bounded so that microseconds fit a
`ssize_t`, as every computation with it needs. The clock is monotonic and `usleep` sleeps
at least as long as it is told.
-/

namespace SecureGateway

/-- `struct timespec` as `clock_gettime` fills it. -/
structure Timespec where
  sec : Int
  nsec : Int
  sec_range : 0 ≤ sec ∧ sec < 2 ^ 43
  nsec_range : 0 ≤ nsec ∧ nsec < 1000000000

def Timespec.ns (t : Timespec) : Int := t.sec * 1000000000 + t.nsec

/-- `elapsed` of `sender_thread`; the quotient of C truncates. -/
def elapsedUs (tstart tend : Timespec) : Int :=
  (tend.sec - tstart.sec) * 1000000 + (tend.nsec - tstart.nsec).tdiv 1000

/-- `rate_us` of `sender_thread`. -/
def rateUs (bandwidth : Int) (size : Nat) : BitVec 64 :=
  BitVec.ofNat 64 size * 1000000#64 / BitVec.ofInt 64 bandwidth

/-- How long `sender_thread` sleeps: the comparison is unsigned, and the argument of
`usleep` has 32 bits. -/
def senderPause (bandwidth : Int) (size : Nat) (tstart tend : Timespec) : Nat :=
  if bandwidth ≤ 0 then 0
  else
    let elapsed := BitVec.ofInt 64 (elapsedUs tstart tend)
    if elapsed < rateUs bandwidth size then
      ((rateUs bandwidth size - elapsed).setWidth 32).toNat
    else 0

/-- One iteration of `sender_thread`. -/
structure SenderRound where
  tstart : Timespec
  size : Nat
  tend : Timespec
  fits : size ≤ packetSize

/-- When the iterations begin, or the time after the last one. -/
def nextStart : List SenderRound → Timespec → Timespec
  | [], after => after
  | r :: _, _ => r.tstart

/-- The clock does not go back, and each iteration begins after the pause of the one before. -/
def Paced (bandwidth : Int) : List SenderRound → Timespec → Prop
  | [], _ => True
  | r :: rest, after =>
      r.tstart.ns ≤ r.tend.ns ∧
        r.tend.ns + 1000 * senderPause bandwidth r.size r.tstart r.tend ≤
          (nextStart rest after).ns ∧
        Paced bandwidth rest after

/-- Truncation gains less than a microsecond. -/
theorem elapsedUs_bounds {tstart tend : Timespec} (h : tstart.ns ≤ tend.ns) :
    0 ≤ elapsedUs tstart tend ∧ elapsedUs tstart tend < 2 ^ 63 ∧
      elapsedUs tstart tend * 1000 < tend.ns - tstart.ns + 1000 := by
  obtain ⟨s₀, n₀, hs₀, hn₀⟩ := tstart
  obtain ⟨s₁, n₁, hs₁, hn₁⟩ := tend
  simp only [Timespec.ns, elapsedUs] at h ⊢
  rcases Int.le_total 0 (n₁ - n₀) with hsign | hsign
  · rw [Int.tdiv_eq_ediv_of_nonneg hsign]
    omega
  · have hneg : (n₁ - n₀).tdiv 1000 = -((n₀ - n₁) / 1000) := by
      rw [← Int.neg_sub n₀ n₁, Int.neg_tdiv, Int.tdiv_eq_ediv_of_nonneg (by omega)]
    rw [hneg]
    omega

theorem rateUs_toNat {bandwidth : Int} (hpos : 0 < bandwidth) (hint : bandwidth < 2 ^ 31)
    {size : Nat} (hsize : size ≤ packetSize) :
    (rateUs bandwidth size).toNat = size * 1000000 / bandwidth.toNat := by
  have hband : (BitVec.ofInt 64 bandwidth).toNat = bandwidth.toNat := by
    rw [BitVec.toNat_ofInt]
    omega
  have hbytes : (BitVec.ofNat 64 size * 1000000#64).toNat = size * 1000000 := by
    unfold packetSize at hsize
    rw [BitVec.toNat_mul, BitVec.toNat_ofNat, BitVec.toNat_ofNat]
    omega
  rw [rateUs, BitVec.toNat_udiv, hband, hbytes]

/-- Together the packet and the pause last as long as the packet may take. -/
theorem rateUs_le {bandwidth : Int} (hpos : 0 < bandwidth) (hint : bandwidth < 2 ^ 31)
    {size : Nat} (hsize : size ≤ packetSize) {tstart tend : Timespec}
    (h : tstart.ns ≤ tend.ns) :
    ((rateUs bandwidth size).toNat : Int) ≤
      elapsedUs tstart tend + senderPause bandwidth size tstart tend := by
  obtain ⟨hnonneg, hfits, -⟩ := elapsedUs_bounds h
  have helapsed : ((BitVec.ofInt 64 (elapsedUs tstart tend)).toNat : Int) =
      elapsedUs tstart tend := by
    rw [BitVec.toNat_ofInt]
    omega
  have hrate : (rateUs bandwidth size).toNat ≤ packetSize * 1000000 := by
    rw [rateUs_toNat hpos hint hsize]
    exact (Nat.div_le_self _ _).trans (Nat.mul_le_mul_right _ hsize)
  simp only [senderPause, if_neg (Int.not_le.mpr hpos)]
  split
  · rename_i hlt
    rw [BitVec.lt_def] at hlt
    have hsub : (rateUs bandwidth size - BitVec.ofInt 64 (elapsedUs tstart tend)).toNat =
        (rateUs bandwidth size).toNat - (BitVec.ofInt 64 (elapsedUs tstart tend)).toNat :=
      BitVec.toNat_sub_of_le (BitVec.le_def.mpr hlt.le)
    unfold packetSize at hrate
    rw [BitVec.toNat_setWidth, hsub]
    omega
  · rename_i hge
    rw [BitVec.lt_def] at hge
    omega

/-- One packet takes its share of the time but for two microseconds. -/
theorem round_rate {bandwidth : Int} (hpos : 0 < bandwidth) (hint : bandwidth < 2 ^ 31)
    {r : SenderRound} {next : Timespec} (hclock : r.tstart.ns ≤ r.tend.ns)
    (hpause : r.tend.ns + 1000 * senderPause bandwidth r.size r.tstart r.tend ≤ next.ns) :
    (r.size : Int) * 1000000000 ≤ bandwidth * (next.ns - r.tstart.ns + 2000) := by
  have hrate := rateUs_le hpos hint r.fits hclock
  obtain ⟨-, -, helapsed⟩ := elapsedUs_bounds hclock
  have hdiv : (r.size : Int) * 1000000 < bandwidth * ((rateUs bandwidth r.size).toNat + 1) := by
    rw [rateUs_toNat hpos hint r.fits]
    have hlt := Nat.lt_mul_div_succ (r.size * 1000000) (show 0 < bandwidth.toNat by omega)
    have hcast : (bandwidth.toNat : Int) = bandwidth := Int.toNat_of_nonneg hpos.le
    have hlt' : ((r.size * 1000000 : Nat) : Int) <
        (bandwidth.toNat * (r.size * 1000000 / bandwidth.toNat + 1) : Nat) := Int.ofNat_lt.mpr hlt
    push_cast at hlt'
    rw [hcast] at hlt'
    push_cast
    rw [hcast]
    exact hlt'
  have hlasts : ((rateUs bandwidth r.size).toNat + 1) * 1000 ≤ next.ns - r.tstart.ns + 2000 := by
    omega
  calc (r.size : Int) * 1000000000 = r.size * 1000000 * 1000 := by ring
    _ ≤ bandwidth * ((rateUs bandwidth r.size).toNat + 1) * 1000 :=
        Int.mul_le_mul_of_nonneg_right hdiv.le (by decide)
    _ = bandwidth * (((rateUs bandwidth r.size).toNat + 1) * 1000) := by ring
    _ ≤ bandwidth * (next.ns - r.tstart.ns + 2000) := Int.mul_le_mul_of_nonneg_left hlasts hpos.le

theorem paced_rate {bandwidth : Int} (hpos : 0 < bandwidth) (hint : bandwidth < 2 ^ 31)
    {rounds : List SenderRound} {after : Timespec} (h : Paced bandwidth rounds after) :
    ((rounds.map SenderRound.size).sum : Int) * 1000000000 ≤
      bandwidth * (after.ns - (nextStart rounds after).ns + 2000 * rounds.length) := by
  induction rounds with
  | nil => simp [nextStart]
  | cons r rest ih =>
      obtain ⟨hclock, hpause, hrest⟩ := h
      have hfirst := round_rate hpos hint hclock hpause
      calc (((r :: rest).map SenderRound.size).sum : Int) * 1000000000
          = r.size * 1000000000 + ((rest.map SenderRound.size).sum : Int) * 1000000000 := by
            rw [List.map_cons, List.sum_cons]
            push_cast
            ring
        _ ≤ bandwidth * ((nextStart rest after).ns - r.tstart.ns + 2000) +
              bandwidth * (after.ns - (nextStart rest after).ns + 2000 * rest.length) :=
            Int.add_le_add hfirst (ih hrest)
        _ = bandwidth * (after.ns - r.tstart.ns + 2000 * (r :: rest).length) := by
            rw [List.length_cons]
            push_cast
            ring

theorem nextStart_append (rounds more : List SenderRound) (after : Timespec) :
    nextStart (rounds ++ more) after = nextStart rounds (nextStart more after) := by
  cases rounds <;> rfl

theorem paced_append {bandwidth : Int} {rounds more : List SenderRound} {after : Timespec} :
    Paced bandwidth (rounds ++ more) after ↔
      Paced bandwidth rounds (nextStart more after) ∧ Paced bandwidth more after := by
  induction rounds with
  | nil => simp [Paced]
  | cons r rounds ih => simp only [List.cons_append, Paced, nextStart_append, ih, and_assoc]

/-- Over any stretch of consecutive packets, and up to two microseconds for each of them, a
tunnel with a bandwidth sends no more bytes than the bandwidth allows in the time from the
first of them to the start of the next after them. -/
theorem tunnel_rate {bandwidth : Int} (hpos : 0 < bandwidth) (hint : bandwidth < 2 ^ 31)
    {before stretch rest : List SenderRound} {after : Timespec}
    (h : Paced bandwidth (before ++ (stretch ++ rest)) after) :
    ((stretch.map SenderRound.size).sum : Int) * 1000000000 ≤
      bandwidth * ((nextStart rest after).ns - (nextStart (stretch ++ rest) after).ns +
        2000 * stretch.length) := by
  obtain ⟨hstretch, -⟩ := paced_append.mp (paced_append.mp h).2
  rw [nextStart_append]
  exact paced_rate hpos hint hstretch

def clockAt (us : Fin 1000000) : Timespec := ⟨0, us.val * 1000, by decide, by omega⟩

/-- Two packets of 1000 bytes at 4000 bytes a second. -/
def slowRounds : List SenderRound :=
  [⟨clockAt 0, 1000, clockAt 100, by decide⟩, ⟨clockAt 250000, 1000, clockAt 250100, by decide⟩]

theorem tunnel_rate_two :
    ((slowRounds.map SenderRound.size).sum : Int) * 1000000000 ≤
      4000 * ((nextStart [] (clockAt 500000)).ns -
        (nextStart (slowRounds ++ []) (clockAt 500000)).ns + 2000 * slowRounds.length) := by
  have hpaced : Paced 4000 ([] ++ (slowRounds ++ [])) (clockAt 500000) :=
    ⟨by decide, by decide, by decide, by decide, trivial⟩
  exact tunnel_rate (by decide) (by decide) hpaced

end SecureGateway
