import Mathlib.Data.List.Forall2

/-!
# Frames of a stream

A reader with a state takes one frame after the other from a stream, as long as there is a whole
one. Where a frame is read as its value whatever follows it, a stream of frames is read as the
values, and what is behind the last whole frame changes nothing.
-/

namespace Bruxo.Frames

variable {σ α β : Type*} (next : σ → List β → Option (α × σ × List β))

def unframe : Nat → σ → List β → List α
  | 0, _, _ => []
  | fuel + 1, s, stream =>
      match next s stream with
      | none => []
      | some (a, s', rest) => a :: unframe fuel s' rest

/-- Every reader reads the frame as `a`, and leaves what follows it. -/
def Reads (frame : List β) (a : α) : Prop :=
  ∀ s rest, ∃ s', next s (frame ++ rest) = some (a, s', rest)

/-- There is no whole frame. -/
def Partial (rest : List β) : Prop := ∀ s, next s rest = none

variable {next} {frames : List (List β)} {values : List α} {rest : List β}

theorem unframe_partial (hrest : Partial next rest) (fuel : Nat) (s : σ) :
    unframe next fuel s rest = [] := by
  cases fuel with
  | zero => rfl
  | succ fuel => rw [unframe, hrest s]

theorem unframe_flatten (hframes : List.Forall₂ (Reads next) frames values)
    (hrest : Partial next rest) {fuel : Nat} (hfuel : frames.length ≤ fuel) (s : σ) :
    unframe next fuel s (frames.flatten ++ rest) = values := by
  induction hframes generalizing fuel s with
  | nil => exact unframe_partial hrest fuel s
  | @cons frame a frames values hframe _ ih =>
      cases fuel with
      | zero => cases hfuel
      | succ fuel =>
          obtain ⟨s', hs'⟩ := hframe s (frames.flatten ++ rest)
          rw [List.flatten_cons, List.append_assoc, unframe, hs']
          exact congrArg (List.cons a) (ih (Nat.le_of_succ_le_succ hfuel) s')

theorem Reads.ne_nil {frame : List β} {a : α} (h : Reads next frame a) (hnil : Partial next [])
    (s : σ) : frame ≠ [] := by
  rintro rfl
  obtain ⟨s', hs'⟩ := h s []
  cases (hnil s).symm.trans hs'

theorem length_le_flatten (hframes : List.Forall₂ (Reads next) frames values)
    (hnil : Partial next []) (s : σ) : frames.length ≤ (frames.flatten ++ rest).length := by
  induction hframes with
  | nil => exact Nat.zero_le _
  | cons hframe _ ih =>
      have hpos := List.length_pos_iff.mpr (hframe.ne_nil hnil s)
      rw [List.length_append] at ih
      rw [List.flatten_cons, List.length_cons, List.length_append, List.length_append]
      omega

/-- The length of the stream is fuel enough. -/
theorem unframe_all (hframes : List.Forall₂ (Reads next) frames values) (hnil : Partial next [])
    (hrest : Partial next rest) (s : σ) :
    unframe next (frames.flatten ++ rest).length s (frames.flatten ++ rest) = values :=
  unframe_flatten hframes hrest (length_le_flatten hframes hnil s) s

end Bruxo.Frames
