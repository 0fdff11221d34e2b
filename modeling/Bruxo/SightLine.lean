import Bruxo.Map
import Bruxo.Position

/-!
# Clear sight

`Map::isSightClear` and the lines that it traces (`map.cpp`). A line is traced from its western end
if it is slight and from its northern end if it is steep, whichever end is asked about first; so the
tiles that are tested are the same both ways, however the steps between them are rounded.
-/

namespace Bruxo.SightLine

/-- A tile by the types of its items. -/
structure Tile where
  ground : Option UInt16
  items : List UInt16

section Tiles

variable (blockProjectile : UInt16 → Bool)

/-- `hasProperty(CONST_PROP_BLOCKPROJECTILE)` -/
def Tile.hasProperty (tile : Tile) : Bool :=
  tile.ground.any blockProjectile || tile.items.any blockProjectile

variable (m : Map Tile)

def isTileClear (x y : UInt16) (z : UInt8) (blockFloor : Bool) : Bool :=
  match m.getTile x y z with
  | none => true
  | some tile =>
      if blockFloor && tile.ground.isSome then false else !tile.hasProperty blockProjectile

/-! ## Lines -/

/-- The steps of a line that are left, from `x` on. 0.1 is necessary to avoid loss of precision. -/
def traceLine (clear : UInt16 → UInt16 → Bool) (slope : Float32) : Nat → UInt16 → Float32 → Bool
  | 0, _, _ => true
  | n + 1, x, yi =>
      if clear x (yi.toFloat + 0.1).floor.toUInt16 then traceLine clear slope n (x + 1) (yi + slope)
      else false

/-- The tiles between two ends of which the first has the lower `x`. -/
def checkLine (clear : UInt16 → UInt16 → Bool) (x0 y0 x1 y1 : UInt16) : Bool :=
  let dx := Float32.ofInt (x1.toNat - x0.toNat)
  let slope := if dx == 0 then 1 else Float32.ofInt (y1.toNat - y0.toNat) / dx
  traceLine clear slope (x1.toNat - (x0.toNat + 1)) (x0 + 1) (Float32.ofNat y0.toNat + slope)

/-- `checkSteepLine`, called with the coordinates the other way around. -/
def checkSteepLine (x0 y0 x1 y1 : UInt16) (z : UInt8) : Bool :=
  checkLine (fun x y => isTileClear blockProjectile m y x z false) x0 y0 x1 y1

def checkSlightLine (x0 y0 x1 y1 : UInt16) (z : UInt8) : Bool :=
  checkLine (fun x y => isTileClear blockProjectile m x y z false) x0 y0 x1 y1

def checkSightLine (x0 y0 x1 y1 : UInt16) (z : UInt8) : Bool :=
  if x0 = x1 ∧ y0 = y1 then true
  else if ((x1.toNat : Int) - x0.toNat).natAbs < ((y1.toNat : Int) - y0.toNat).natAbs then
    if y0 < y1 then checkSteepLine blockProjectile m y0 x0 y1 x1 z
    else checkSteepLine blockProjectile m y1 x1 y0 x0 z
  else if x1 < x0 then checkSlightLine blockProjectile m x1 y1 x0 y0 z
  else checkSlightLine blockProjectile m x0 y0 x1 y1 z

/-! ## Sight -/

def getDistance (a b : UInt16) : Nat := ((a.toNat : Int) - b.toNat).natAbs

/-- The tiles on the floors from `z` on, above the target. -/
def clearAbove (toPos : Position) (z : Nat) : Nat → Bool
  | 0 => true
  | n + 1 =>
      isTileClear blockProjectile m toPos.x toPos.y (UInt8.ofNat z) true &&
        clearAbove toPos (z + 1) n

def isSightClear (fromPos toPos : Position) (sameFloor : Bool) : Bool :=
  -- target is on the same floor
  if fromPos.z = toPos.z then
    if getDistance fromPos.x toPos.x < 2 ∧ getDistance fromPos.y toPos.y < 2 then true
    else
      let sightClear :=
        checkSightLine blockProjectile m fromPos.x fromPos.y toPos.x toPos.y fromPos.z
      if sightClear || sameFloor then sightClear
      else if fromPos.z = 0 then true
      else
        let newZ := fromPos.z - 1
        isTileClear blockProjectile m fromPos.x fromPos.y newZ true &&
          isTileClear blockProjectile m toPos.x toPos.y newZ true &&
          checkSightLine blockProjectile m fromPos.x fromPos.y toPos.x toPos.y newZ
  else if sameFloor then false
  -- the ground floor is crossed
  else if fromPos.z < 8 ∧ 7 < toPos.z ∨ 7 < fromPos.z ∧ toPos.z < 8 then false
  -- target is above us
  else if toPos.z < fromPos.z then
    if 1 < fromPos.z.toNat - toPos.z.toNat then false
    else
      let newZ := fromPos.z - 1
      isTileClear blockProjectile m fromPos.x fromPos.y newZ true &&
        checkSightLine blockProjectile m fromPos.x fromPos.y toPos.x toPos.y newZ
  -- target is below us
  else
    clearAbove blockProjectile m toPos fromPos.z.toNat (toPos.z.toNat - fromPos.z.toNat) &&
      checkSightLine blockProjectile m fromPos.x fromPos.y toPos.x toPos.y fromPos.z

end Tiles

section Congr

variable {blockProjectile : UInt16 → Bool} {m m' : Map Tile}

/-- Sight depends on which tiles are clear only. -/
theorem isSightClear_congr (h : isTileClear blockProjectile m = isTileClear blockProjectile m')
    (fromPos toPos : Position) (sameFloor : Bool) :
    isSightClear blockProjectile m fromPos toPos sameFloor =
      isSightClear blockProjectile m' fromPos toPos sameFloor := by
  have hline : checkSightLine blockProjectile m = checkSightLine blockProjectile m' := by
    funext x0 y0 x1 y1 z
    unfold checkSightLine checkSteepLine checkSlightLine
    rw [h]
  have habove (z n : Nat) :
      clearAbove blockProjectile m toPos z n = clearAbove blockProjectile m' toPos z n := by
    induction n generalizing z with
    | zero => rfl
    | succ n ih => rw [clearAbove, clearAbove, h, ih]
  unfold isSightClear
  rw [h, hline, habove]

/-- Where all the tiles are clear a line is. -/
theorem traceLine_of_clear {clear : UInt16 → UInt16 → Bool} (h : ∀ x y, clear x y = true)
    (slope : Float32) (n : Nat) (x : UInt16) (yi : Float32) :
    traceLine clear slope n x yi = true := by
  induction n generalizing x yi with
  | zero => rfl
  | succ n ih =>
      rw [traceLine, if_pos (h _ _)]
      exact ih _ _

theorem checkSightLine_of_clear (h : ∀ x y z, isTileClear blockProjectile m x y z false = true)
    (x0 y0 x1 y1 : UInt16) (z : UInt8) :
    checkSightLine blockProjectile m x0 y0 x1 y1 z = true := by
  have hslight (a b c d : UInt16) : checkSlightLine blockProjectile m a b c d z = true :=
    traceLine_of_clear (fun x y => h x y z) _ _ _ _
  have hsteep (a b c d : UInt16) : checkSteepLine blockProjectile m a b c d z = true :=
    traceLine_of_clear (fun x y => h y x z) _ _ _ _
  unfold checkSightLine
  split_ifs
  · rfl
  · exact hsteep _ _ _ _
  · exact hsteep _ _ _ _
  · exact hslight _ _ _ _
  · exact hslight _ _ _ _

theorem isSightClear_of_clear (h : ∀ x y z, isTileClear blockProjectile m x y z false = true)
    {fromPos toPos : Position} (hz : fromPos.z = toPos.z) :
    isSightClear blockProjectile m fromPos toPos true = true := by
  unfold isSightClear
  dsimp only
  rw [if_pos hz, checkSightLine_of_clear h]
  split
  · rfl
  · rfl

end Congr

section Symmetry

variable (blockProjectile : UInt16 → Bool) (m : Map Tile)

theorem natAbs_sub_comm (a b : UInt16) :
    ((a.toNat : Int) - b.toNat).natAbs = ((b.toNat : Int) - a.toNat).natAbs := by
  omega

theorem getDistance_comm (a b : UInt16) : getDistance a b = getDistance b a :=
  natAbs_sub_comm a b

/-- Of a steep line the ends are on two rows, and of a slight one in two columns, so that one of
them is always the first. -/
theorem checkSightLine_comm (x0 y0 x1 y1 : UInt16) (z : UInt8) :
    checkSightLine blockProjectile m x0 y0 x1 y1 z =
      checkSightLine blockProjectile m x1 y1 x0 y0 z := by
  unfold checkSightLine
  rw [natAbs_sub_comm x0 x1, natAbs_sub_comm y0 y1]
  by_cases hsame : x0 = x1 ∧ y0 = y1
  · obtain ⟨rfl, rfl⟩ := hsame
    rfl
  have hsame' : ¬ (x1 = x0 ∧ y1 = y0) := fun h => hsame ⟨h.1.symm, h.2.symm⟩
  rw [if_neg hsame, if_neg hsame']
  by_cases hsteep : ((x1.toNat : Int) - x0.toNat).natAbs < ((y1.toNat : Int) - y0.toNat).natAbs
  · rw [if_pos hsteep, if_pos hsteep]
    rcases Nat.lt_trichotomy y0.toNat y1.toNat with hlt | heq | hlt
    · have hle : ¬ y1 < y0 := fun h => Nat.lt_asymm hlt (UInt16.lt_iff_toNat_lt.mp h)
      rw [if_pos (UInt16.lt_iff_toNat_lt.mpr hlt), if_neg hle]
    · rw [heq, Int.sub_self] at hsteep
      exact absurd hsteep (Nat.not_lt_zero _)
    · have hle : ¬ y0 < y1 := fun h => Nat.lt_asymm hlt (UInt16.lt_iff_toNat_lt.mp h)
      rw [if_neg hle, if_pos (UInt16.lt_iff_toNat_lt.mpr hlt)]
  · rw [if_neg hsteep, if_neg hsteep]
    rcases Nat.lt_trichotomy x0.toNat x1.toNat with hlt | heq | hlt
    · have hle : ¬ x1 < x0 := fun h => Nat.lt_asymm hlt (UInt16.lt_iff_toNat_lt.mp h)
      rw [if_neg hle, if_pos (UInt16.lt_iff_toNat_lt.mpr hlt)]
    · have hx : x0 = x1 := UInt16.toNat_inj.mp heq
      have hy : y0 = y1 := by
        rw [← UInt16.toNat_inj]
        omega
      exact absurd ⟨hx, hy⟩ hsame
    · have hle : ¬ x0 < x1 := fun h => Nat.lt_asymm hlt (UInt16.lt_iff_toNat_lt.mp h)
      rw [if_pos (UInt16.lt_iff_toNat_lt.mpr hlt), if_neg hle]

/-- On one floor sight is clear both ways or not at all. -/
theorem isSightClear_comm (fromPos toPos : Position) (sameFloor : Bool)
    (h : fromPos.z = toPos.z) :
    isSightClear blockProjectile m fromPos toPos sameFloor =
      isSightClear blockProjectile m toPos fromPos sameFloor := by
  have hline (z : UInt8) : checkSightLine blockProjectile m fromPos.x fromPos.y toPos.x toPos.y z =
      checkSightLine blockProjectile m toPos.x toPos.y fromPos.x fromPos.y z :=
    checkSightLine_comm _ _ _ _ _ _ _
  unfold isSightClear
  dsimp only
  rw [if_pos h, if_pos h.symm, getDistance_comm fromPos.x, getDistance_comm fromPos.y, hline, hline,
    h, Bool.and_comm (isTileClear blockProjectile m fromPos.x fromPos.y (toPos.z - 1) true)]

/-- Two ends of a line that is neither straight nor diagonal, on a map without tiles. -/
theorem isSightClear_comm_knight :
    isSightClear (fun _ => false) Map.empty ⟨100, 100, 7⟩ ⟨105, 102, 7⟩ true =
      isSightClear (fun _ => false) Map.empty ⟨105, 102, 7⟩ ⟨100, 100, 7⟩ true :=
  isSightClear_comm (fun _ => false) Map.empty ⟨100, 100, 7⟩ ⟨105, 102, 7⟩ true rfl

end Symmetry

end Bruxo.SightLine
