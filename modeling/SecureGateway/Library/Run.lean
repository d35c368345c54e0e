import Mathlib.Data.List.Basic

/-!
# Runs of a partial step function

A system is a step function from a state and a label to at most one successor;
a label that is not enabled gives `none`. A run executes a list of labels. The
environment's choices are carried by the labels, so the runs of a system are
all its interleavings.
-/

namespace SecureGateway.Library

variable {S L : Type*} (step : S → L → Option S)

/-- Execute the labels in order; a label that is not enabled makes the run fail. -/
def run : S → List L → Option S
  | s, [] => some s
  | s, l :: ls => (step s l).bind fun t => run t ls

@[simp] theorem run_nil (s : S) : run step s [] = some s := rfl

theorem run_cons_eq_some_iff {s u : S} {l : L} {ls : List L} :
    run step s (l :: ls) = some u ↔ ∃ t, step s l = some t ∧ run step t ls = some u := by
  simp [run, Option.bind_eq_some_iff]

theorem run_append_eq_some_iff {s u : S} {ls ms : List L} :
    run step s (ls ++ ms) = some u ↔ ∃ t, run step s ls = some t ∧ run step t ms = some u := by
  induction ls generalizing s with
  | nil => simp
  | cons l ls ih =>
      simp only [List.cons_append, run_cons_eq_some_iff, ih]
      constructor
      · rintro ⟨a, hstep, b, hrun, hrest⟩
        exact ⟨b, ⟨a, hstep, hrun⟩, hrest⟩
      · rintro ⟨b, ⟨a, hstep, hrun⟩, hrest⟩
        exact ⟨a, hstep, b, hrun, hrest⟩

/-- Every step the run takes from `s` meets `P`, read at the state before the step. -/
def Along (P : S → L → Prop) : S → List L → Prop
  | _, [] => True
  | s, l :: ls => P s l ∧ ∀ t, step s l = some t → Along P t ls

/-- What the labels meet in any state holds along every run of them. -/
theorem along_of_forall {P : S → L → Prop} {ls : List L} (h : ∀ l ∈ ls, ∀ s, P s l) (s : S) :
    Along step P s ls := by
  induction ls generalizing s with
  | nil => trivial
  | cons l ls ih =>
      refine ⟨h l List.mem_cons_self s, ?_⟩
      intro t _
      exact ih (fun k hk => h k (List.mem_cons_of_mem l hk)) t

/-- What holds along a run holds at the step after any of its beginnings. -/
theorem Along.at_step {P : S → L → Prop} (xs : List L) (l : L) (ys : List L) {s t : S}
    (h : Along step P s (xs ++ l :: ys)) (hrun : run step s xs = some t) : P t l := by
  induction xs generalizing s with
  | nil =>
      cases hrun
      exact h.1
  | cons x xs ih =>
      obtain ⟨u, hstep, hrest⟩ := (run_cons_eq_some_iff step).mp hrun
      exact ih (h.2 u hstep) hrest

theorem along_append_iff {P : S → L → Prop} {s : S} {xs ys : List L} :
    Along step P s (xs ++ ys) ↔
      Along step P s xs ∧ ∀ t, run step s xs = some t → Along step P t ys := by
  induction xs generalizing s with
  | nil => simp [Along]
  | cons x xs ih =>
      simp only [List.cons_append, Along, run_cons_eq_some_iff, ih]
      constructor
      · rintro ⟨hfirst, hrest⟩
        refine ⟨⟨hfirst, fun t hstep => (hrest t hstep).1⟩, ?_⟩
        rintro u ⟨t, hstep, hrun⟩
        exact (hrest t hstep).2 u hrun
      · rintro ⟨⟨hfirst, hrest⟩, hlast⟩
        exact ⟨hfirst, fun t hstep => ⟨hrest t hstep, fun u hrun => hlast u ⟨t, hstep, hrun⟩⟩⟩

/-- Two conditions on steps hold along the same runs when they agree in the states the
first one leads to. -/
theorem along_iff {P Q : S → L → Prop} (Inv : S → Prop) {ls : List L}
    (agree : ∀ s, ∀ l ∈ ls, Inv s → (P s l ↔ Q s l))
    (preserve : ∀ s, ∀ l ∈ ls, ∀ t, Inv s → P s l → step s l = some t → Inv t)
    {s : S} (init : Inv s) : Along step P s ls ↔ Along step Q s ls := by
  induction ls generalizing s with
  | nil => exact Iff.rfl
  | cons l ls ih =>
      have hagree := agree s l List.mem_cons_self init
      have hrest (t : S) (hP : P s l) (hstep : step s l = some t) :
          Along step P t ls ↔ Along step Q t ls :=
        ih (fun u k hk => agree u k (List.mem_cons_of_mem l hk))
          (fun u k hk => preserve u k (List.mem_cons_of_mem l hk))
          (preserve s l List.mem_cons_self t init hP hstep)
      constructor
      · rintro ⟨hP, hnext⟩
        exact ⟨hagree.mp hP, fun t hstep => (hrest t hP hstep).mp (hnext t hstep)⟩
      · rintro ⟨hQ, hnext⟩
        have hP := hagree.mpr hQ
        exact ⟨hP, fun t hstep => (hrest t hP hstep).mpr (hnext t hstep)⟩

/-- The same for the steps of one run: only enabled labels need to agree. -/
theorem along_iff_of_run {P Q : S → L → Prop} (Inv : S → Prop)
    (agree : ∀ s l t, Inv s → step s l = some t → (P s l ↔ Q s l))
    (preserve : ∀ s l t, Inv s → P s l → step s l = some t → Inv t)
    {s t : S} {ls : List L} (init : Inv s) (hrun : run step s ls = some t) :
    Along step P s ls ↔ Along step Q s ls := by
  induction ls generalizing s with
  | nil => exact Iff.rfl
  | cons l ls ih =>
      obtain ⟨u, hstep, hrest⟩ := (run_cons_eq_some_iff step).mp hrun
      have hagree := agree s l u init hstep
      have hnext (hP : P s l) : Along step P u ls ↔ Along step Q u ls :=
        ih (preserve s l u init hP hstep) hrest
      constructor
      · rintro ⟨hP, hlater⟩
        refine ⟨hagree.mp hP, fun v hv => ?_⟩
        rw [hstep, Option.some.injEq] at hv
        subst hv
        exact (hnext hP).mp (hlater u hstep)
      · rintro ⟨hQ, hlater⟩
        have hP := hagree.mpr hQ
        refine ⟨hP, fun v hv => ?_⟩
        rw [hstep, Option.some.injEq] at hv
        subst hv
        exact (hnext hP).mpr (hlater u hstep)

/-- The rule of invariants for runs whose steps all meet a condition. -/
theorem run_invariant_along {P : S → L → Prop} (Inv : S → Prop) {ls : List L}
    (preserve : ∀ s, ∀ l ∈ ls, ∀ t, Inv s → P s l → step s l = some t → Inv t)
    {s t : S} (init : Inv s) (along : Along step P s ls)
    (hrun : run step s ls = some t) : Inv t := by
  induction ls generalizing s with
  | nil =>
      cases hrun
      exact init
  | cons l ls ih =>
      obtain ⟨u, hstep, hrest⟩ := (run_cons_eq_some_iff step).mp hrun
      exact ih (fun v k hk => preserve v k (List.mem_cons_of_mem l hk))
        (preserve s l List.mem_cons_self u init along.1 hstep) (along.2 u hstep) hrest

/-- The rule of invariants, asked of the labels of the run only. -/
theorem run_invariant_of_mem (Inv : S → Prop) {ls : List L}
    (preserve : ∀ s, ∀ l ∈ ls, ∀ t, Inv s → step s l = some t → Inv t)
    {s t : S} (init : Inv s) (hrun : run step s ls = some t) : Inv t := by
  induction ls generalizing s with
  | nil =>
      cases hrun
      exact init
  | cons l ls ih =>
      obtain ⟨u, hstep, hrest⟩ := (run_cons_eq_some_iff step).mp hrun
      exact ih (fun v k hk => preserve v k (List.mem_cons_of_mem l hk))
        (preserve s l List.mem_cons_self u init hstep) hrest

/-- The rule of invariants. -/
theorem run_invariant {Inv : S → Prop}
    (preserve : ∀ s l t, Inv s → step s l = some t → Inv t)
    {s t : S} {ls : List L} (init : Inv s) (hrun : run step s ls = some t) : Inv t :=
  run_invariant_of_mem step Inv (fun s l _ t hs hstep => preserve s l t hs hstep) init hrun

/-- The rule of simulation by a function of the state: where one system's step is the
other's on the view of its state, so are its runs. -/
theorem run_map {T : Type*} {stepT : T → L → Option T} (view : S → T)
    (simulate : ∀ s l, (step s l).map view = stepT (view s) l) (s : S) (ls : List L) :
    (run step s ls).map view = run stepT (view s) ls := by
  induction ls generalizing s with
  | nil => rfl
  | cons l ls ih =>
      have hstep := simulate s l
      cases h : step s l with
      | none =>
          rw [h, Option.map_none] at hstep
          simp [run, h, ← hstep]
      | some t =>
          rw [h, Option.map_some] at hstep
          simp [run, h, ← hstep, ih]

/-- The rule of forward simulation along runs whose steps all meet a condition: each step
is answered by a list of steps of the other system. -/
theorem run_simulates {T M : Type*} {stepT : T → M → Option T} {P : S → L → Prop}
    (Rel : S → T → Prop) (answer : L → List M)
    (simulate : ∀ s t l s', Rel s t → P s l → step s l = some s' →
      ∃ t', run stepT t (answer l) = some t' ∧ Rel s' t')
    {s s' : S} {t : T} {ls : List L} (init : Rel s t) (along : Along step P s ls)
    (hrun : run step s ls = some s') :
    ∃ t', run stepT t (ls.flatMap answer) = some t' ∧ Rel s' t' := by
  induction ls generalizing s t with
  | nil =>
      cases hrun
      exact ⟨t, rfl, init⟩
  | cons l ls ih =>
      obtain ⟨u, hstep, hrest⟩ := (run_cons_eq_some_iff step).mp hrun
      obtain ⟨v, hfirst, hrel⟩ := simulate s t l u init along.1 hstep
      obtain ⟨t', hlater, hrel'⟩ := ih hrel (along.2 u hstep) hrest
      refine ⟨t', ?_, hrel'⟩
      rw [List.flatMap_cons]
      exact (run_append_eq_some_iff stepT).mpr ⟨v, hfirst, hlater⟩

end SecureGateway.Library
