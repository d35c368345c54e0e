import Mathlib.Data.List.Flatten
import Mathlib.Data.List.Infix
import Mathlib.Data.List.Nodup

/-!
# Frames on a byte stream

A writer hands a stream one frame after the other, and the stream accepts some first
bytes of each. As long as no byte is accepted after a frame that was cut short, the
stream consists of whole frames and a beginning of one. As long as none is accepted after
a frame that was not accepted in full, the stream is a beginning of all frames joined.
-/

namespace SecureGateway.Library

variable {α : Type*}

/-- A frame that was handed over and the bytes of it that were accepted. -/
structure FrameWrite (α : Type*) where
  frame : List α
  bytes : List α

/-- The frame was accepted as a whole or not at all. -/
def FrameWrite.Whole (w : FrameWrite α) : Prop := w.bytes = [] ∨ w.bytes = w.frame

/-- No byte is accepted after a frame that was cut short. -/
def NoneAfterCut (ws : List (FrameWrite α)) : Prop :=
  ws.Pairwise fun w v => v.bytes ≠ [] → w.Whole

/-- What the stream accepted. -/
def accepted (ws : List (FrameWrite α)) : List α := ws.flatMap FrameWrite.bytes

@[simp] theorem accepted_cons (w : FrameWrite α) (ws : List (FrameWrite α)) :
    accepted (w :: ws) = w.bytes ++ accepted ws := rfl

/-- Whole frames in the order they were handed over, then the accepted beginning of one. -/
def WholeFrames (ws : List (FrameWrite α)) (stream : List α) : Prop :=
  ∃ (whole : List (List α)) (cut : List α),
    whole.Sublist (ws.map FrameWrite.frame) ∧ stream = whole.flatten ++ cut ∧
      (cut = [] ∨ ∃ w ∈ ws, cut <+: w.frame)

theorem accepted_eq_nil {ws : List (FrameWrite α)} (h : ∀ w ∈ ws, w.bytes = []) :
    accepted ws = [] :=
  List.flatMap_eq_nil_iff.mpr h

theorem NoneAfterCut.wholeFrames {ws : List (FrameWrite α)}
    (hbegins : ∀ w ∈ ws, w.bytes <+: w.frame) (h : NoneAfterCut ws) :
    WholeFrames ws (accepted ws) := by
  induction ws with
  | nil => exact ⟨[], [], List.Sublist.refl [], rfl, Or.inl rfl⟩
  | cons w ws ih =>
      obtain ⟨hfirst, hrest⟩ := List.pairwise_cons.mp h
      by_cases hwhole : w.Whole
      · obtain ⟨whole, cut, hsub, hstream, hcut⟩ :=
          ih (fun v hv => hbegins v (List.mem_cons_of_mem w hv)) hrest
        have hcut' : cut = [] ∨ ∃ v ∈ w :: ws, cut <+: v.frame := by
          refine hcut.imp_right ?_
          rintro ⟨v, hv, hprefix⟩
          exact ⟨v, List.mem_cons_of_mem w hv, hprefix⟩
        rcases hwhole with hnone | hall
        · refine ⟨whole, cut, ?_, ?_, hcut'⟩
          · exact hsub.cons _
          · rw [accepted_cons, hnone, List.nil_append, hstream]
        · refine ⟨w.frame :: whole, cut, ?_, ?_, hcut'⟩
          · exact hsub.cons_cons _
          · rw [accepted_cons, hall, hstream, List.flatten_cons, List.append_assoc]
      · -- nothing is accepted behind the frame that was cut short
        have hlater : accepted ws = [] := by
          apply accepted_eq_nil
          intro v hv
          by_contra hne
          exact hwhole (hfirst v hv hne)
        refine ⟨[], w.bytes, List.nil_sublist _, ?_, Or.inr ?_⟩
        · rw [accepted_cons, hlater, List.append_nil, List.flatten_nil, List.nil_append]
        · exact ⟨w, List.mem_cons_self, hbegins w List.mem_cons_self⟩

/-! ### Frames as a stream of their own -/

/-- No byte is accepted after a frame that was not accepted in full. -/
def NoneAfterLoss (ws : List (FrameWrite α)) : Prop :=
  ws.Pairwise fun w v => v.bytes ≠ [] → w.bytes = w.frame

/-- The frames as they were handed over. -/
def handed (ws : List (FrameWrite α)) : List α := ws.flatMap FrameWrite.frame

@[simp] theorem handed_cons (w : FrameWrite α) (ws : List (FrameWrite α)) :
    handed (w :: ws) = w.frame ++ handed ws := rfl

theorem accepted_length_le {ws : List (FrameWrite α)}
    (hbegins : ∀ w ∈ ws, w.bytes <+: w.frame) : (accepted ws).length ≤ (handed ws).length := by
  induction ws with
  | nil => exact Nat.le_refl 0
  | cons w ws ih =>
      have hfirst := (hbegins w List.mem_cons_self).length_le
      have hrest := ih fun v hv => hbegins v (List.mem_cons_of_mem w hv)
      rw [accepted_cons, handed_cons, List.length_append, List.length_append]
      exact Nat.add_le_add hfirst hrest

theorem NoneAfterLoss.accepted_isPrefix {ws : List (FrameWrite α)}
    (hbegins : ∀ w ∈ ws, w.bytes <+: w.frame) (h : NoneAfterLoss ws) :
    accepted ws <+: handed ws := by
  induction ws with
  | nil => exact List.prefix_rfl
  | cons w ws ih =>
      obtain ⟨hfirst, hrest⟩ := List.pairwise_cons.mp h
      rw [accepted_cons, handed_cons]
      by_cases hfull : w.bytes = w.frame
      · rw [hfull, List.prefix_append_right_inj]
        exact ih (fun v hv => hbegins v (List.mem_cons_of_mem w hv)) hrest
      · -- nothing is accepted behind the frame that was not accepted in full
        have hlater : accepted ws = [] := by
          apply accepted_eq_nil
          intro v hv
          by_contra hne
          exact hfull (hfirst v hv hne)
        rw [hlater, List.append_nil]
        exact (hbegins w List.mem_cons_self).trans (List.prefix_append _ _)

/-- The bytes of a later frame do not continue a frame that was cut, when all bytes are
distinct. -/
theorem accepted_eq_nil_of_continues {ws : List (FrameWrite α)} {tail : List α}
    (hbegins : ∀ w ∈ ws, w.bytes <+: w.frame) (hne : tail ≠ [])
    (hdisjoint : tail.Disjoint (handed ws)) (h : accepted ws <+: tail ++ handed ws) :
    accepted ws = [] := by
  by_contra haccepted
  obtain ⟨a, as, ha⟩ := List.exists_cons_of_ne_nil haccepted
  obtain ⟨b, bs, hb⟩ := List.exists_cons_of_ne_nil hne
  rw [ha, hb, List.cons_append, List.cons_prefix_cons] at h
  have hmem : a ∈ accepted ws := by
    rw [ha]
    exact List.mem_cons_self
  obtain ⟨w, hw, hbyte⟩ := List.mem_flatMap.mp hmem
  have hhanded : a ∈ handed ws := List.mem_flatMap.mpr ⟨w, hw, (hbegins w hw).subset hbyte⟩
  have htail : a ∈ tail := by
    rw [hb, h.1]
    exact List.mem_cons_self
  exact hdisjoint htail hhanded

theorem noneAfterLoss_of_isPrefix {ws : List (FrameWrite α)}
    (hbegins : ∀ w ∈ ws, w.bytes <+: w.frame) (hnodup : (handed ws).Nodup)
    (h : accepted ws <+: handed ws) : NoneAfterLoss ws := by
  induction ws with
  | nil => exact List.Pairwise.nil
  | cons w ws ih =>
      have hrest := fun v hv => hbegins v (List.mem_cons_of_mem w hv)
      rw [handed_cons] at hnodup
      rw [accepted_cons, handed_cons] at h
      obtain ⟨-, hlater, hdisjoint⟩ := List.nodup_append'.mp hnodup
      obtain ⟨tail, htail⟩ := hbegins w List.mem_cons_self
      rw [← htail, List.append_assoc, List.prefix_append_right_inj] at h
      cases htails : tail with
      | nil =>
          rw [htails, List.append_nil] at htail
          rw [htails, List.nil_append] at h
          exact List.pairwise_cons.mpr ⟨fun _ _ _ => htail, ih hrest hlater h⟩
      | cons b bs =>
          have hne : tail ≠ [] := by simp [htails]
          have hapart : tail.Disjoint (handed ws) := by
            intro a ha hlast
            apply hdisjoint ?_ hlast
            rw [← htail]
            exact List.mem_append_right _ ha
          have hnil := accepted_eq_nil_of_continues hrest hne hapart h
          refine List.pairwise_cons.mpr ⟨?_, ih hrest hlater ?_⟩
          · intro v hv hbytes
            exact absurd (List.flatMap_eq_nil_iff.mp hnil v hv) hbytes
          · rw [hnil]
            exact List.nil_prefix

end SecureGateway.Library
