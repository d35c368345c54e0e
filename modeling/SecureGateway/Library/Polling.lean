import SecureGateway.Library.Run
import Mathlib.Data.List.Infix

/-!
# Sources that poll for chunks

A source answers whether it has more and hands out one entry at a time. When it has
nothing left it polls its transport, which gives the chunk it has ready, maybe an empty one.
A reader takes an entry only after a positive answer.
-/

namespace SecureGateway.Library

variable {A X α : Type*}

/-- What a call of `hasMore` did: its answer, the source it left, and the chunk the
transport gave if the call polled. -/
structure Polled (A α : Type*) where
  answer : Bool
  source : A
  chunk : Option (List α)

/-- The two calls of a source; `X` is what its environment may do during a call. -/
structure PollingSource (A X α : Type*) where
  hasMore : A → X → Polled A α
  readByte : A → X → α × A

/-- A call the reader makes. -/
inductive PollingCall (X : Type*)
  | hasMore (x : X)
  | readByte (x : X)

/-- A source with its reader: whether the last answer was positive and no entry was taken
since, the chunks the polls gave, and the entries handed out. -/
structure PollingState (A α : Type*) where
  source : A
  granted : Bool
  polls : List (List α)
  returned : List α

def PollingState.start (a : A) : PollingState A α := ⟨a, false, [], []⟩

namespace PollingSource

variable (src : PollingSource A X α)

def step (s : PollingState A α) : PollingCall X → Option (PollingState A α)
  | .hasMore x =>
      let p := src.hasMore s.source x
      some ⟨p.source, p.answer, s.polls ++ p.chunk.toList, s.returned⟩
  | .readByte x =>
      if s.granted then
        let r := src.readByte s.source x
        some ⟨r.2, false, s.polls, s.returned ++ [r.1]⟩
      else none

/-- Every entry is handed out once and in order. A call with unread entries answers and keeps
them; one with none polls, gets what the transport has ready, and answers if that is not
empty. -/
structure InOrder (unread : A → List α) (ready : A → X → List α) (s : PollingState A α) :
    Prop where
  returned_prefix : s.returned <+: s.polls.flatten
  conserved : s.returned ++ unread s.source = s.polls.flatten
  no_filler : s.granted = true → ∀ x, ∃ rest,
    unread s.source = (src.readByte s.source x).1 :: rest
  polls_late : ∀ x, (src.hasMore s.source x).chunk ≠ none → unread s.source = []
  polls_ready : unread s.source = [] → ∀ x,
    (src.hasMore s.source x).chunk = some (ready s.source x) ∧
      unread (src.hasMore s.source x).source = ready s.source x ∧
      ((src.hasMore s.source x).answer = true ↔ ready s.source x ≠ [])
  keeps_unread : unread s.source ≠ [] → ∀ x,
    (src.hasMore s.source x).answer = true ∧
      unread (src.hasMore s.source x).source = unread s.source
  answer_iff : ∀ x, (src.hasMore s.source x).answer = true ↔
    unread (src.hasMore s.source x).source ≠ []

/-- In every run that starts with `a` the entries are handed out in order. -/
def DeliversInOrder (unread : A → List α) (ready : A → X → List α) (a : A) : Prop :=
  ∀ ls s, run src.step (PollingState.start a) ls = some s → src.InOrder unread ready s

/-- A call that found unread entries and did not poll. -/
structure Kept (unread : A → List α) (a : A) (p : Polled A α) : Prop where
  answer : p.answer = true
  chunk : p.chunk = none
  unread_eq : unread p.source = unread a
  unread_ne : unread a ≠ []

/-- A call that found nothing unread and polled. -/
structure Fetched (unread : A → List α) (a : A) (p : Polled A α) (xs : List α) : Prop where
  answer_iff : p.answer = true ↔ xs ≠ []
  chunk : p.chunk = some xs
  unread_eq : unread p.source = xs
  unread_nil : unread a = []

/-- What the calls of a source do to its unread entries, as long as an invariant holds; `ready`
is what the transport has for a call that polls. -/
structure Lawful (Inv : A → Prop) (unread : A → List α) (ready : A → X → List α) : Prop where
  inv_hasMore : ∀ a x, Inv a → Inv (src.hasMore a x).source
  inv_readByte : ∀ a x, Inv a → unread a ≠ [] → Inv (src.readByte a x).2
  hasMore : ∀ a x, Inv a →
    Kept unread a (src.hasMore a x) ∨ Fetched unread a (src.hasMore a x) (ready a x)
  readByte : ∀ a x b rest, Inv a → unread a = b :: rest →
    (src.readByte a x).1 = b ∧ unread (src.readByte a x).2 = rest

variable {src} {Inv : A → Prop} {unread : A → List α} {ready : A → X → List α}

theorem Lawful.answer_iff (laws : src.Lawful Inv unread ready) {a : A} (ha : Inv a) (x : X) :
    (src.hasMore a x).answer = true ↔ unread (src.hasMore a x).source ≠ [] := by
  rcases laws.hasMore a x ha with hkept | hfetched
  · rw [hkept.unread_eq]
    exact ⟨fun _ => hkept.unread_ne, fun _ => hkept.answer⟩
  · rw [hfetched.unread_eq]
    exact hfetched.answer_iff

/-- What a run keeps of a lawful source and its reader. -/
structure Keeps (Inv : A → Prop) (unread : A → List α) (s : PollingState A α) : Prop where
  inv : Inv s.source
  conserved : s.returned ++ unread s.source = s.polls.flatten
  granted : s.granted = true → unread s.source ≠ []

theorem step_keeps (laws : src.Lawful Inv unread ready)
    (s : PollingState A α) (l : PollingCall X) (t : PollingState A α)
    (hs : Keeps Inv unread s) (hstep : src.step s l = some t) : Keeps Inv unread t := by
  cases l with
  | hasMore x =>
      simp only [step, Option.some.injEq] at hstep
      subst hstep
      constructor
      · exact laws.inv_hasMore s.source x hs.inv
      · rcases laws.hasMore s.source x hs.inv with hkept | hfetched
        · simp only [hkept.unread_eq, hkept.chunk, Option.toList_none, List.append_nil]
          exact hs.conserved
        · have hall := hs.conserved
          rw [hfetched.unread_nil, List.append_nil] at hall
          simp [hfetched.unread_eq, hfetched.chunk, hall]
      · exact (laws.answer_iff hs.inv x).mp
  | readByte x =>
      cases hgranted : s.granted with
      | false => simp [step, hgranted] at hstep
      | true =>
          obtain ⟨b, rest, hunread⟩ := List.exists_cons_of_ne_nil (hs.granted hgranted)
          obtain ⟨hbyte, hrest⟩ := laws.readByte s.source x b rest hs.inv hunread
          simp only [step, hgranted, if_true, Option.some.injEq] at hstep
          subst hstep
          constructor
          · exact laws.inv_readByte s.source x hs.inv (hs.granted hgranted)
          · have hall := hs.conserved
            rw [hunread] at hall
            simp only [hbyte, hrest, List.append_assoc, List.singleton_append]
            exact hall
          · intro h
            cases h

/-- A lawful source that starts with nothing unread delivers in order. -/
theorem Lawful.deliversInOrder (laws : src.Lawful Inv unread ready) {a : A} (hinv : Inv a)
    (hunread : unread a = []) : src.DeliversInOrder unread ready a := by
  intro ls s hrun
  have hstart : Keeps Inv unread (PollingState.start a : PollingState A α) := by
    constructor
    · exact hinv
    · simpa [PollingState.start] using hunread
    · intro h
      cases h
  have hs : Keeps Inv unread s := run_invariant src.step (step_keeps laws) hstart hrun
  constructor
  · exact ⟨unread s.source, hs.conserved⟩
  · exact hs.conserved
  · intro hgranted x
    obtain ⟨b, rest, hcons⟩ := List.exists_cons_of_ne_nil (hs.granted hgranted)
    refine ⟨rest, ?_⟩
    rw [(laws.readByte s.source x b rest hs.inv hcons).1]
    exact hcons
  · intro x hpolled
    rcases laws.hasMore s.source x hs.inv with hkept | hfetched
    · exact absurd hkept.chunk hpolled
    · exact hfetched.unread_nil
  · intro hnil x
    rcases laws.hasMore s.source x hs.inv with hkept | hfetched
    · exact absurd hnil hkept.unread_ne
    · exact ⟨hfetched.chunk, hfetched.unread_eq, hfetched.answer_iff⟩
  · intro hne x
    rcases laws.hasMore s.source x hs.inv with hkept | hfetched
    · exact ⟨hkept.answer, hkept.unread_eq⟩
    · exact absurd hfetched.unread_nil hne
  · exact laws.answer_iff hs.inv

end PollingSource

end SecureGateway.Library
