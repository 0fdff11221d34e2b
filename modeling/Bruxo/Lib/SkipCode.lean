import Mathlib.Data.List.Basic

/-!
# Grids with runs of empty cells

A grid is sent cell by cell: a cell that is there by what describes it, a run of cells that
are not there by one marker with the length of the run. The marker of a run also ends the
description of the cell before it. The count that is not sent yet starts at -1, where no
description is open; a run is cut when the count of a marker would not fit a byte.

The reader takes the description of one cell and the marker behind it, and then goes over
as many cells as the marker says.
-/

namespace Bruxo.SkipCode

variable {β γ δ : Type*}

section Encode

variable (tile : δ → List β) (marker : UInt8 → List β)

/-- The marker of a run that is not sent yet. -/
def flush (skip : Int) : List β := if skip ≥ 0 then marker (UInt8.ofNat skip.toNat) else []

/-- What is sent for one cell, and the count after it. -/
def encodeCell (skip : Int) : Option δ → List β × Int
  | some d => (flush marker skip ++ tile d, 0)
  | none => if skip = 0xFE then (marker 0xFF, -1) else ([], skip + 1)

def encodeCells (skip : Int) : List (Option δ) → List β × Int
  | [] => ([], skip)
  | c :: cs =>
      let (sent, skip) := encodeCell tile marker skip c
      let (rest, skip) := encodeCells skip cs
      (sent ++ rest, skip)

/-- The grid as a whole: the last run is sent at the end. -/
def encode (skip : Int) (cs : List (Option δ)) : List β :=
  (encodeCells tile marker skip cs).1 ++ flush marker (encodeCells tile marker skip cs).2

variable {tile marker}

theorem encode_nil (skip : Int) : encode tile marker skip [] = flush marker skip := rfl

theorem encode_cons (skip : Int) (c : Option δ) (cs : List (Option δ)) :
    encode tile marker skip (c :: cs) =
      (encodeCell tile marker skip c).1 ++ encode tile marker (encodeCell tile marker skip c).2 cs := by
  simp only [encode, encodeCells, List.append_assoc]

theorem flush_natCast (n : Nat) : flush marker n = marker (UInt8.ofNat n) := by
  rw [flush, if_pos (Int.natCast_nonneg n), Int.toNat_natCast]

theorem flatMap_flush (f : β → List γ) (skip : Int) :
    (flush marker skip).flatMap f = flush (fun n => (marker n).flatMap f) skip := by
  unfold flush
  split <;> rfl

/-- What is sent may be spelled out piece by piece. -/
theorem flatMap_encode (f : β → List γ) (skip : Int) (cs : List (Option δ)) :
    (encode tile marker skip cs).flatMap f =
      encode (fun d => (tile d).flatMap f) (fun n => (marker n).flatMap f) skip cs := by
  induction cs generalizing skip with
  | nil => rw [encode_nil, encode_nil, flatMap_flush]
  | cons c cs ih =>
      rw [encode_cons, encode_cons, List.flatMap_append]
      cases c with
      | some d => simp only [encodeCell, List.flatMap_append, flatMap_flush, ih]
      | none =>
          simp only [encodeCell]
          split
          · rw [ih]
          · rw [ih, List.flatMap_nil]

theorem mem_flush {b : β} {skip : Int} (h : b ∈ flush marker skip) : ∃ n, b ∈ marker n := by
  unfold flush at h
  split at h
  · exact ⟨_, h⟩
  · cases h

/-- What is sent belongs to a cell or to a marker. -/
theorem mem_encode {b : β} {skip : Int} {cs : List (Option δ)}
    (h : b ∈ encode tile marker skip cs) :
    (∃ d, some d ∈ cs ∧ b ∈ tile d) ∨ ∃ n, b ∈ marker n := by
  induction cs generalizing skip with
  | nil => exact .inr (mem_flush h)
  | cons c cs ih =>
      rw [encode_cons, List.mem_append] at h
      rcases h with h | h
      · cases c with
        | some d =>
            rcases List.mem_append.mp h with h | h
            · exact .inr (mem_flush h)
            · exact .inl ⟨d, List.mem_cons_self .., h⟩
        | none =>
            simp only [encodeCell] at h
            split at h
            · exact .inr ⟨_, h⟩
            · cases h
      · rcases ih h with ⟨d, hd, hb⟩ | h
        · exact .inl ⟨d, List.mem_cons_of_mem _ hd, hb⟩
        · exact .inr h

end Encode

/-! ## Reading a grid -/

section Decode

variable (readTile : List β → Option (δ × UInt8 × List β)) (empty : δ)

/-- `cells` cells are read, the first `skip` of them being empty. -/
def decode : (cells skip : Nat) → List β → Option (List δ × Nat × List β)
  | 0, skip, bs => some ([], skip, bs)
  | cells + 1, skip + 1, bs =>
      (decode cells skip bs).map fun (ds, skip, bs) => (empty :: ds, skip, bs)
  | cells + 1, 0, bs =>
      match readTile bs with
      | none => none
      | some (d, count, bs) =>
          (decode cells count.toNat bs).map fun (ds, skip, bs) => (d :: ds, skip, bs)

variable {readTile empty} {tile : δ → List β} {marker : UInt8 → List β}

/-- The reader takes a description that has a marker behind it. -/
def Reads (readTile : List β → Option (δ × UInt8 × List β)) (tile : δ → List β)
    (marker : UInt8 → List β) (d : δ) : Prop :=
  ∀ n rest, readTile (tile d ++ marker n ++ rest) = some (d, n, rest)

theorem toNat_count {s : Nat} (hs : s < 0xFF) : (UInt8.ofNat s).toNat = s :=
  UInt8.toNat_ofNat_of_lt' (Nat.lt_succ_of_lt hs)

/-- What is left to read of a grid: with no description open, the grid; with one open and
`skip` empty cells behind it, a marker and the part of the grid that it does not cover. -/
theorem decode_pending {rest : List β} {cs : List (Option δ)}
    (hempty : tile empty = []) (hreads : Reads readTile tile marker empty)
    (hcells : ∀ d, some d ∈ cs → Reads readTile tile marker d) :
    decode readTile empty cs.length 0 (encode tile marker (-1) cs ++ rest) =
        some (cs.map (·.getD empty), 0, rest) ∧
      ∀ s : Nat, s < 0xFF → ∃ (n : UInt8) (bs : List β), s ≤ n.toNat ∧
        encode tile marker s cs ++ rest = marker n ++ bs ∧
        decode readTile empty cs.length (n.toNat - s) bs =
          some (cs.map (·.getD empty), 0, rest) := by
  induction cs with
  | nil =>
      refine ⟨rfl, fun s hs => ⟨UInt8.ofNat s, rest, ?_, ?_, ?_⟩⟩
      · exact Nat.le_of_eq (toNat_count hs).symm
      · rw [encode_nil, flush_natCast]
      · rw [toNat_count hs, Nat.sub_self]
        rfl
  | cons c cs ih =>
      obtain ⟨closed, opened⟩ := ih fun d hd => hcells d (List.mem_cons_of_mem _ hd)
      obtain ⟨n₀, bs₀, -, hbs₀, hdecode₀⟩ := opened 0 (by decide)
      rw [Nat.sub_zero] at hdecode₀
      have hbs₀ : encode tile marker 0 cs ++ rest = marker n₀ ++ bs₀ := hbs₀
      cases c with
      | some d =>
          have htile : decode readTile empty (cs.length + 1) 0
              (tile d ++ encode tile marker 0 cs ++ rest) =
                some (d :: cs.map (·.getD empty), 0, rest) := by
            rw [List.append_assoc, hbs₀, ← List.append_assoc, decode,
              hcells d (List.mem_cons_self ..) n₀ bs₀]
            simp only [hdecode₀, Option.map_some]
          refine ⟨?_, fun s hs => ⟨UInt8.ofNat s, tile d ++ encode tile marker 0 cs ++ rest,
            ?_, ?_, ?_⟩⟩
          · rw [encode_cons]
            exact htile
          · exact Nat.le_of_eq (toNat_count hs).symm
          · rw [encode_cons, encodeCell, flush_natCast]
            simp only [List.append_assoc]
          · rw [toNat_count hs, Nat.sub_self]
            exact htile
      | none =>
          refine ⟨?_, fun s hs => ?_⟩
          · have hfirst := hreads n₀ bs₀
            rw [hempty, List.nil_append] at hfirst
            rw [encode_cons, encodeCell, if_neg (by decide), List.nil_append]
            show decode readTile empty (cs.length + 1) 0 (encode tile marker 0 cs ++ rest) = _
            rw [hbs₀, decode, hfirst]
            simp only [hdecode₀, Option.map_some, List.map_cons, Option.getD_none]
          · by_cases hfull : s = 0xFE
            · subst hfull
              refine ⟨0xFF, encode tile marker (-1) cs ++ rest, by decide, ?_, ?_⟩
              · rw [encode_cons, encodeCell, if_pos (by decide), List.append_assoc]
              · show decode readTile empty (cs.length + 1) 1 _ = _
                rw [decode, closed]
                rfl
            · obtain ⟨n, bs, hle, hbs, hdecode⟩ := opened (s + 1) (by omega)
              refine ⟨n, bs, Nat.le_of_succ_le hle, ?_, ?_⟩
              · rw [encode_cons, encodeCell, if_neg (by omega)]
                exact hbs
              · obtain ⟨k, hk⟩ := Nat.exists_eq_add_of_le hle
                rw [hk, Nat.add_sub_cancel_left] at hdecode
                rw [List.length_cons, hk, Nat.add_right_comm, Nat.add_assoc, Nat.add_sub_cancel_left]
                simp only [decode, hdecode]
                rfl

/-- Reading undoes sending: every cell is there once and in its place, those that were not
there as empty ones. -/
theorem decode_encode (rest : List β) {cs : List (Option δ)}
    (hempty : tile empty = []) (hreads : Reads readTile tile marker empty)
    (hcells : ∀ d, some d ∈ cs → Reads readTile tile marker d) :
    decode readTile empty cs.length 0 (encode tile marker (-1) cs ++ rest) =
      some (cs.map (·.getD empty), 0, rest) :=
  (decode_pending hempty hreads hcells).1

end Decode

end Bruxo.SkipCode
