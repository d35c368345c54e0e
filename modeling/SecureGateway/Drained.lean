import Mathlib.Algebra.BigOperators.Intervals
import SecureGateway.Links

/-!
# Rounds that empty the links

Safety alone would let the gateway sit on what it received. If polls and route calls do
to a link what they should, a round that returns leaves the links behind the connected
slots empty, and a run with fuel for the bytes that are still to be read returns.

## Implementation notes

Of a link that two slots share only the later drain counts. Fuel bounds each drain loop
by itself, so it has to exceed what any one link still has, not the sum over the links.
-/

namespace SecureGateway

open Library

/-- A poll that finds nothing leaves a link empty, and a route call takes nothing in. -/
structure LinkOps.Empties {B : Type} (ops : LinkOps B) (Held Empty : B → Prop) : Prop where
  silent : ∀ a, Held a → (ops.hasMore a).1 = 0 →
    Held (ops.hasMore a).2 ∧ Empty (ops.hasMore a).2
  read : ∀ a, Held a → (ops.hasMore a).1 ≠ 0 → Held (ops.readByte (ops.hasMore a).2).2
  route : ∀ a msg, Held a → Held (ops.route msg a) ∧ (Empty a → Empty (ops.route msg a))

/-- No more than `ahead` bytes are still to be read from a link. -/
structure LinkOps.Exhausts {B : Type} (ops : LinkOps B) (Held : B → Prop) (ahead : B → Nat) :
    Prop where
  silent : ∀ a, Held a → (ops.hasMore a).1 = 0 →
    Held (ops.hasMore a).2 ∧ ahead (ops.hasMore a).2 ≤ ahead a
  read : ∀ a, Held a → (ops.hasMore a).1 ≠ 0 →
    let r := ops.readByte (ops.hasMore a).2
    Held r.2 ∧ ahead r.2 < ahead a
  route : ∀ a msg, Held a → Held (ops.route msg a) ∧ ahead (ops.route msg a) ≤ ahead a

variable {ι : Type} [DecidableEq ι] {A : ι → Type} {T G : Type}

/-- Every link has its property. -/
def Links.Each (P : ∀ l, A l → Prop) (world : Links A T) : Prop := ∀ l, P l (world.link l)

/-- A call on one link leaves the other links as they were. -/
theorem Links.Each.put {P Q : ∀ l, A l → Prop} {world : Links A T} (h : world.Each P) {l : ι}
    {a : A l} (hself : Q l a) (hothers : ∀ l', l' ≠ l → ∀ b, P l' b → Q l' b) :
    (world.put l a).Each Q := by
  intro l'
  by_cases hl : l' = l
  · subst l'
    rw [Links.put_self]
    exact hself
  · rw [Links.put_other _ _ hl]
    exact hothers l' hl _ (h l')

/-- What may come at each call from the present one on, once nothing comes from `N` on. -/
theorem sum_ahead_succ {f : Nat → Nat} {N : Nat} (hquiet : ∀ n, N ≤ n → f n = 0) (c : Nat) :
    f c + ∑ n ∈ Finset.Ico (c + 1) N, f n = ∑ n ∈ Finset.Ico c N, f n := by
  rcases Nat.lt_or_ge c N with hlt | hge
  · exact (Finset.sum_eq_sum_Ico_succ_bot hlt f).symm
  · rw [Finset.Ico_eq_empty_of_le hge, Finset.Ico_eq_empty_of_le (Nat.le_succ_of_le hge),
      hquiet c hge, Nat.zero_add]

section Rounds

variable {ops : ∀ l, LinkOps (A l)} {Inv : ∀ l, A l → List UInt8 → List MavlinkMessage → Prop}
  {Held Empty : ∀ l, A l → Prop} {ahead : ∀ l, A l → Nat} {w : Wiring ι}
  {start : Pipeline (Links A T)} {env : Env (Links A T) G}

/-- A poll and the read after it concern one link. -/
theorem Links.Each.polled {P Q : ∀ l, A l → Prop} {world : Links A T} (h : world.Each P) {l : ι}
    (hself : Q l ((ops l).readByte ((ops l).hasMore (world.link l)).2).2)
    (hothers : ∀ l', l' ≠ l → ∀ b, P l' b → Q l' b) :
    ((hookOps ops l).readByte ((hookOps ops l).hasMore world).2).2.Each Q := by
  intro l'
  by_cases hl : l' = l
  · subst l'
    simpa [hookOps] using hself
  · simpa [hookOps, hl] using hothers l' hl _ (h l')

/-- What every route operation keeps, the route calls a byte leads to keep. -/
theorem Links.Each.spinByte {P : ∀ l, A l → Prop}
    (hroute : ∀ l a msg, P l a → P l ((ops l).route msg a)) {m m' : Machine (Links A T) G}
    (hw : Wired ops w m.pipeline) (h : m.world.Each P) {i : Fin maxSources} {byte : UInt8}
    (hbyte : spinByte env i byte m = .ok m') : m'.world.Each P := by
  have hroutes (l : ι) (a : A l) (_ : List UInt8) (_ : List MavlinkMessage)
      (msg : MavlinkMessage) (ha : P l a) : P l ((ops l).route msg a) := hroute l a msg ha
  have htrack := @Wired.sinksTrack ι _ A T ops (fun l a _ _ => P l a) hroutes w m.pipeline hw
    (fun _ => []) fun _ => []
  obtain ⟨t, -, -, -, hlinks⟩ := spinByte_tracks htrack h hbyte
  exact hlinks

/-- The links of `done` have been emptied. -/
def Emptied (Held Empty : ∀ l, A l → Prop) (done : Set ι) (l : ι) (a : A l) : Prop :=
  Held l a ∧ (l ∈ done → Empty l a)

/-- No more than `n` bytes are still to be read. -/
def Within (Held : ∀ l, A l → Prop) (ahead : ∀ l, A l → Nat) (n : ι → Nat) (l : ι) (a : A l) :
    Prop :=
  Held l a ∧ ahead l a ≤ n l

/-- The flags of the pipeline are no part of the ledger. -/
theorem ledger_flagInvariant : FlagInvariant (Ledger (G := G) w Inv start) := by
  intro m policyEnabled transformEnabled hm
  exact ⟨mediated_flagInvariant start m policyEnabled transformEnabled hm.toMediated, hm.links⟩

variable (hlawful : ∀ l, (ops l).Lawful (Inv l)) (hw : Wired ops w start)
  (hconf : start.Configured) (hops : start.OpsKeepRouting)
  (hverdict : ∀ policy ∈ start.policies.policies, policy.VerdictIgnoresAttr)
  (hclock : ∀ world, (env.timeUs world).2.link = world.link)

include hlawful hw hconf hops hverdict hclock

/-- A drain loop that ends leaves the link of its slot empty, and no other link less empty
than it was. -/
theorem drain_empties (hempties : ∀ l, (ops l).Empties (Held l) (Empty l)) {i : Fin maxSources}
    {l : ι} (fuel : Nat) {done : Set ι} {m m' : Machine (Links A T) G}
    (hm : Ledger w Inv start m) (hconn : (m.pipeline.sources i).isConnected)
    (hl : w.source i = some l) (heach : m.world.Each (Emptied Held Empty (done \ {l})))
    (hdrain : drain env i (hookOps ops l).hasMore (hookOps ops l).readByte fuel m = .ok m') :
    m'.world.Each (Emptied Held Empty (insert l done)) := by
  have hinv := ledger_readInvariant hlawful hw hconf hops hverdict hclock
  induction fuel generalizing m with
  | zero => cases hdrain
  | succ fuel ih =>
      obtain ⟨l', hl', hmore, hread⟩ := (hw.sameSetup hm.setup).source i hconn
      obtain rfl : l' = l := Option.some.inj (hl'.symm.trans hl)
      have hheld := (heach l').1
      rw [drain] at hdrain
      by_cases hnone : ((hookOps ops l').hasMore m.world).1 = 0
      · simp only [hnone, if_true] at hdrain
        cases hdrain
        obtain ⟨hkept, hempty⟩ := (hempties l').silent _ hheld hnone
        refine heach.put ⟨hkept, fun _ => hempty⟩ ?_
        rintro l hne b ⟨hb, hdone⟩
        exact ⟨hb, fun hmem => hdone ⟨hmem.resolve_left hne, hne⟩⟩
      · obtain ⟨m₁, hbyte, hm₁⟩ := hinv.read m i _ _ hm hconn hmore hread hnone
        simp only [if_neg hnone, hbyte] at hdrain
        obtain ⟨cur, hcur⟩ := spinByte_pipeline hbyte
        have hconn₁ : (m₁.pipeline.sources i).isConnected := by
          rw [hcur, setCur_isConnected]
          exact hconn
        refine ih hm₁ hconn₁ ?_ hdrain
        -- the link does not count as empty while it is drained
        have htaken : ((hookOps ops l').readByte ((hookOps ops l').hasMore m.world).2).2.Each
            (Emptied Held Empty (done \ {l'})) :=
          heach.polled ⟨(hempties l').read _ hheld hnone, fun hmem => absurd rfl hmem.2⟩
            fun _ _ _ hb => hb
        let taken : Machine (Links A T) G :=
          { m with world := ((hookOps ops l').readByte ((hookOps ops l').hasMore m.world).2).2 }
        refine Links.Each.spinByte (m := taken) ?_ (hw.sameSetup hm.setup) htaken hbyte
        rintro l a msg ⟨ha, hdone⟩
        obtain ⟨hkept, hempty⟩ := (hempties l).route a msg ha
        exact ⟨hkept, fun hmem => hempty (hdone hmem)⟩

/-- A slot of a round, whether or not it is connected. -/
theorem source_empties (hempties : ∀ l, (ops l).Empties (Held l) (Empty l)) (fuel : Nat)
    {i : Fin maxSources} {done : Set ι} {m m' : Machine (Links A T) G}
    (hm : Ledger w Inv start m) (heach : m.world.Each (Emptied Held Empty done))
    (hspin : spinSource env fuel m i = .ok m') :
    m'.world.Each (Emptied Held Empty
      {l | l ∈ done ∨ (start.sources i).isConnected ∧ w.source i = some l}) := by
  obtain ⟨cur, hcur⟩ := hm.setup.source i
  have hsame : (m.pipeline.sources i).isConnected = (start.sources i).isConnected := by
    rw [hcur]
  rw [spinSource, hsame] at hspin
  cases hconn : (start.sources i).isConnected with
  | false =>
      simp only [hconn, Bool.not_false, if_true] at hspin
      cases hspin
      rintro l
      refine ⟨(heach l).1, ?_⟩
      rintro (hdone | ⟨hfalse, -⟩)
      · exact (heach l).2 hdone
      · cases hfalse
  | true =>
      have hmconn : (m.pipeline.sources i).isConnected := hsame.trans hconn
      obtain ⟨l, hl, hmore, hread⟩ := (hw.sameSetup hm.setup).source i hmconn
      simp only [hconn, hmore, hread, Bool.not_true, Bool.false_eq_true, if_false] at hspin
      have hbefore : m.world.Each (Emptied Held Empty (done \ {l})) := fun l' =>
        ⟨(heach l').1, fun hmem => (heach l').2 hmem.1⟩
      have hafter := drain_empties hlawful hw hconf hops hverdict hclock hempties fuel hm hmconn
        hl hbefore hspin
      intro l'
      refine ⟨(hafter l').1, ?_⟩
      rintro (hdone | ⟨-, hl'⟩)
      · exact (hafter l').2 (Or.inr hdone)
      · exact (hafter l').2 (Or.inl (Option.some.inj (hl'.symm.trans hl)))

/-- A round that returns leaves every link behind a connected slot empty. -/
theorem round_empties (hempties : ∀ l, (ops l).Empties (Held l) (Empty l)) {fuel : Nat}
    {m m' : Machine (Links A T) G} (hm : Ledger w Inv start m) (heach : m.world.Each Held)
    (hround : pipelineSpin env fuel m = .ok m') :
    Ledger w Inv start m' ∧ m'.world.Each Held ∧
      ∀ i l, (start.sources i).isConnected → w.source i = some l → Empty l (m'.world.link l) := by
  have hinv := ledger_readInvariant hlawful hw hconf hops hverdict hclock
  have hloop (is : List (Fin maxSources)) (done : Set ι) (m m' : Machine (Links A T) G)
      (hm : Ledger w Inv start m) (heach : m.world.Each (Emptied Held Empty done))
      (hfold : is.foldlM (spinSource env fuel) m = .ok m') :
      m'.world.Each (Emptied Held Empty {l | l ∈ done ∨
        ∃ i ∈ is, (start.sources i).isConnected ∧ w.source i = some l}) := by
    induction is generalizing m done with
    | nil =>
        cases hfold
        simpa using heach
    | cons i is ih =>
        rw [List.foldlM_cons] at hfold
        obtain ⟨m₁, hspin, hrest⟩ := bind_eq_ok_iff.mp hfold
        have hm₁ := (hinv.spinSource fuel i hm).inv
        rw [hspin, finalMachine_ok] at hm₁
        have hfirst := source_empties hlawful hw hconf hops hverdict hclock hempties fuel hm heach
          hspin
        have hall := ih _ m₁ hm₁ hfirst hrest
        simpa [or_assoc] using hall
  have hstart : (env.timeUs m.world).2.Each (Emptied Held Empty ∅) := by
    intro l
    rw [hclock]
    exact ⟨heach l, fun hmem => absurd hmem (Set.notMem_empty l)⟩
  have hkept := (hinv.pipelineSpin fuel hm).inv
  rw [hround, finalMachine_ok] at hkept
  obtain ⟨m₁, hfold, hend⟩ := bind_eq_ok_iff.mp hround
  have hall := hloop _ ∅ _ m₁ (hinv.clock m m.perf false hm) hstart hfold
  cases hend
  refine ⟨hkept, ?_, ?_⟩
  · intro l
    rw [hclock, hclock]
    exact (hall l).1
  · intro i l hconn hl
    rw [hclock, hclock]
    exact (hall l).2 (Or.inr ⟨i, List.mem_finRange i, hconn, hl⟩)

/-- A run that ends in a round leaves every link behind a connected slot empty. -/
theorem runActions_empties (hempties : ∀ l, (ops l).Empties (Held l) (Empty l)) {fuel : Nat}
    {actions : List Action} {m m' : Machine (Links A T) G} (hm : Ledger w Inv start m)
    (heach : m.world.Each Held)
    (hrun : runActions env m (actions ++ [.spin fuel]) = .ok m') :
    Ledger w Inv start m' ∧ m'.world.Each Held ∧
      ∀ i l, (start.sources i).isConnected → w.source i = some l → Empty l (m'.world.link l) := by
  rw [runActions, List.foldlM_append] at hrun
  obtain ⟨m₁, hfirst, hlast⟩ := bind_eq_ok_iff.mp hrun
  rw [List.foldlM_cons] at hlast
  obtain ⟨m₂, hround, hend⟩ := bind_eq_ok_iff.mp hlast
  cases hend
  have hstep (m : Machine (Links A T) G) (action : Action) (_ : action ∈ actions)
      (m' : Machine (Links A T) G) (hm : Ledger w Inv start m ∧ m.world.Each Held)
      (hstep : action.apply env m = .ok m') : Ledger w Inv start m' ∧ m'.world.Each Held := by
    obtain ⟨hm, heach⟩ := hm
    cases action with
    | spin fuel =>
        obtain ⟨hm', heach', -⟩ := round_empties hlawful hw hconf hops hverdict hclock hempties hm
          heach hstep
        exact ⟨hm', heach'⟩
    | setPolicyEnabled enabled =>
        cases hstep
        exact ⟨ledger_flagInvariant m enabled m.pipeline.transformEnabled hm, heach⟩
    | setTransformEnabled enabled =>
        cases hstep
        exact ⟨ledger_flagInvariant m m.pipeline.policyEnabled enabled hm, heach⟩
  obtain ⟨hm₁, heach₁⟩ := foldlM_invariant hstep ⟨hm, heach⟩ hfirst
  exact round_empties hlawful hw hconf hops hverdict hclock hempties hm₁ heach₁ hround

/-- A drain loop with fuel for the bytes ahead returns. -/
theorem drain_returns (hexhausts : ∀ l, (ops l).Exhausts (Held l) (ahead l))
    {i : Fin maxSources} {l : ι} (fuel : Nat) {n : ι → Nat} {m : Machine (Links A T) G}
    (hm : Ledger w Inv start m) (hconn : (m.pipeline.sources i).isConnected)
    (hl : w.source i = some l) (heach : m.world.Each (Within Held ahead n))
    (hfuel : n l < fuel) :
    ∃ m', drain env i (hookOps ops l).hasMore (hookOps ops l).readByte fuel m = .ok m' ∧
      m'.world.Each (Within Held ahead n) := by
  have hinv := ledger_readInvariant hlawful hw hconf hops hverdict hclock
  induction fuel generalizing n m with
  | zero => exact absurd hfuel (Nat.not_lt_zero _)
  | succ fuel ih =>
      obtain ⟨l', hl', hmore, hread⟩ := (hw.sameSetup hm.setup).source i hconn
      obtain rfl : l' = l := Option.some.inj (hl'.symm.trans hl)
      obtain ⟨hheld, hahead⟩ := heach l'
      rw [drain]
      by_cases hnone : ((hookOps ops l').hasMore m.world).1 = 0
      · obtain ⟨hkept, hless⟩ := (hexhausts l').silent _ hheld hnone
        simp only [hnone, if_true]
        exact ⟨_, rfl, heach.put ⟨hkept, hless.trans hahead⟩ fun _ _ _ hb => hb⟩
      · obtain ⟨m₁, hbyte, hm₁⟩ := hinv.read m i _ _ hm hconn hmore hread hnone
        obtain ⟨hkept, hless⟩ := (hexhausts l').read _ hheld hnone
        obtain ⟨cur, hcur⟩ := spinByte_pipeline hbyte
        have hconn₁ : (m₁.pipeline.sources i).isConnected := by
          rw [hcur, setCur_isConnected]
          exact hconn
        -- one byte fewer is left on this link
        let n' : ι → Nat := Function.update n l' (n l' - 1)
        have hn' : n' l' = n l' - 1 := Function.update_self ..
        have hother (l : ι) (hne : l ≠ l') : n' l = n l := Function.update_of_ne hne ..
        have htaken : ((hookOps ops l').readByte ((hookOps ops l').hasMore m.world).2).2.Each
            (Within Held ahead n') := by
          refine heach.polled ⟨hkept, ?_⟩ ?_
          · rw [hn']
            omega
          · rintro l hne b ⟨hb, hbound⟩
            exact ⟨hb, hbound.trans (hother l hne).ge⟩
        let taken : Machine (Links A T) G :=
          { m with world := ((hookOps ops l').readByte ((hookOps ops l').hasMore m.world).2).2 }
        have hrouted : m₁.world.Each (Within Held ahead n') := by
          refine Links.Each.spinByte (m := taken) ?_ (hw.sameSetup hm.setup) htaken hbyte
          rintro l a msg ⟨ha, hbound⟩
          obtain ⟨hkept, hless⟩ := (hexhausts l).route a msg ha
          exact ⟨hkept, hless.trans hbound⟩
        obtain ⟨m', hrest, hwithin⟩ := ih hm₁ hconn₁ hrouted (by rw [hn']; omega)
        simp only [if_neg hnone, hbyte]
        refine ⟨m', hrest, ?_⟩
        intro l
        refine ⟨(hwithin l).1, (hwithin l).2.trans ?_⟩
        by_cases hne : l = l'
        · subst l
          rw [hn']
          exact Nat.sub_le _ _
        · exact (hother l hne).le

/-- A round with fuel for the bytes ahead returns, with no more bytes ahead. -/
theorem round_returns (hexhausts : ∀ l, (ops l).Exhausts (Held l) (ahead l)) {fuel : Nat}
    {n : ι → Nat} {m : Machine (Links A T) G} (hm : Ledger w Inv start m)
    (heach : m.world.Each (Within Held ahead n)) (hfuel : ∀ l, n l < fuel) :
    ∃ m', pipelineSpin env fuel m = .ok m' ∧ m'.world.Each (Within Held ahead n) := by
  have hinv := ledger_readInvariant hlawful hw hconf hops hverdict hclock
  have hloop (is : List (Fin maxSources)) (m : Machine (Links A T) G)
      (hm : Ledger w Inv start m) (heach : m.world.Each (Within Held ahead n)) :
      ∃ m', is.foldlM (spinSource env fuel) m = .ok m' ∧
        m'.world.Each (Within Held ahead n) := by
    induction is generalizing m with
    | nil => exact ⟨m, rfl, heach⟩
    | cons i is ih =>
        have hstep : ∃ m₁, spinSource env fuel m i = .ok m₁ ∧
            m₁.world.Each (Within Held ahead n) := by
          cases hconn : (m.pipeline.sources i).isConnected with
          | false => exact ⟨m, by simp [spinSource, hconn], heach⟩
          | true =>
              obtain ⟨l, hl, hmore, hread⟩ := (hw.sameSetup hm.setup).source i hconn
              simp only [spinSource, hconn, hmore, hread, Bool.not_true, Bool.false_eq_true,
                if_false]
              exact drain_returns hlawful hw hconf hops hverdict hclock hexhausts fuel hm hconn hl
                heach (hfuel l)
        obtain ⟨m₁, hspin, heach₁⟩ := hstep
        have hm₁ := (hinv.spinSource fuel i hm).inv
        rw [hspin, finalMachine_ok] at hm₁
        rw [List.foldlM_cons, hspin, ok_bind]
        exact ih m₁ hm₁ heach₁
  have hstart : (env.timeUs m.world).2.Each (Within Held ahead n) := by
    intro l
    rw [hclock]
    exact heach l
  obtain ⟨m₁, hfold, heach₁⟩ :=
    hloop (List.finRange maxSources) _ (hinv.clock m m.perf false hm) hstart
  simp only [pipelineSpin, hfold, ok_bind]
  refine ⟨_, rfl, ?_⟩
  intro l
  rw [hclock, hclock]
  exact heach₁ l

/-- A run with fuel for the bytes ahead returns. -/
theorem runActions_returns (hexhausts : ∀ l, (ops l).Exhausts (Held l) (ahead l)) {n : ι → Nat}
    {actions : List Action} (hfuel : ∀ fuel, .spin fuel ∈ actions → ∀ l, n l < fuel)
    {m : Machine (Links A T) G} (hm : Ledger w Inv start m)
    (heach : m.world.Each (Within Held ahead n)) :
    ∃ m', runActions env m actions = .ok m' ∧ m'.world.Each (Within Held ahead n) := by
  have hinv := ledger_readInvariant hlawful hw hconf hops hverdict hclock
  induction actions generalizing m with
  | nil => exact ⟨m, rfl, heach⟩
  | cons action actions ih =>
      have hrest (fuel : Nat) (hmem : .spin fuel ∈ actions) : ∀ l, n l < fuel :=
        hfuel fuel (List.mem_cons_of_mem _ hmem)
      rw [runActions, List.foldlM_cons]
      cases action with
      | spin fuel =>
          obtain ⟨m₁, hround, heach₁⟩ := round_returns hlawful hw hconf hops hverdict hclock
            hexhausts hm heach (hfuel fuel List.mem_cons_self)
          have hm₁ := (hinv.pipelineSpin fuel hm).inv
          rw [hround, finalMachine_ok] at hm₁
          rw [Action.apply, hround, ok_bind]
          exact ih hrest hm₁ heach₁
      | setPolicyEnabled enabled =>
          exact ih hrest (ledger_flagInvariant m enabled m.pipeline.transformEnabled hm) heach
      | setTransformEnabled enabled =>
          exact ih hrest (ledger_flagInvariant m m.pipeline.policyEnabled enabled hm) heach

end Rounds

end SecureGateway
