import Bruxo.KnownCreatures
import Bruxo.MapDescription
import Bruxo.PathSearch

/-!
# The view of a player that moves

What `ProtocolGame::sendMoveCreature` sends to a player that moves itself: the move, for a change of
the floor what `MoveUpCreature` and `MoveDownCreature` add, and then either the whole map around the
player or the strips that come into view, with the squares that are described by each part.
-/

namespace Bruxo.MoveView

open TileStack TileDescription NetworkMessage MapDescription
open KnownCreatures (View maxClientViewportX maxClientViewportY)
open PathSearch (Direction getNextPosition)
open WalkCache (toCoordinate)

/-! ## The parts of a message -/

/-- A part of a message: some fields, or descriptions of floors of one area, each with the offset of
its squares, that share the count of the squares without a tile. -/
inductive Part where
  | fields (fs : List Field)
  | floors (x y width height : Int) (fl : List (Int × Int))

namespace Part

variable {κ : Type} (o : Observer κ) (map : Map Tile)

def write (w : Writer κ) : Part → Writer κ
  | fields fs => { w with msg := w.msg.writeFields fs }
  | floors x y width height fl =>
      let w := fl.foldl (fun w floor =>
        getFloorDescription o map x y floor.1 width height floor.2 w) { w with skip := -1 }
      if w.skip ≥ 0 then
        { w with msg := (w.msg.addByte (UInt8.ofNat w.skip.toNat)).addByte 0xFF }
      else
        w

/-- The squares that a part describes, in their order. -/
def squares : Part → List Position
  | fields _ => []
  | floors x y width height fl =>
      fl.flatMap fun floor =>
        (List.range width.toNat).flatMap fun nx =>
          (List.range height.toNat).map fun ny => square x y floor.1 floor.2 nx ny

/-- A call of `GetMapDescription`. -/
def mapDescription (x y z width height : Int) : Part :=
  floors x y width height ((MapDescription.floors z).map fun nz => (nz, z - nz))

theorem write_mapDescription (w : Writer κ) (x y z width height : Int) :
    (mapDescription x y z width height).write o map w =
      getMapDescription o map x y z width height w := by
  rw [mapDescription, write, getMapDescription, List.foldl_map]

theorem squares_mapDescription (x y z width height : Int) :
    (mapDescription x y z width height).squares =
      MapDescription.squares x y z width height := by
  rw [mapDescription, squares, MapDescription.squares, List.flatMap_map]

/-- The squares of a part are described one after the other. -/
theorem write_floors (w : Writer κ) (x y width height : Int) (fl : List (Int × Int)) :
    (floors x y width height fl).write o map w =
      let w := (floors x y width height fl).squares.foldl (describeSquare o map) { w with skip := -1 }
      { w with msg := w.msg.writeFields (SkipCode.flush skipFields w.skip) } := by
  have hfold : fl.foldl (fun w floor =>
      getFloorDescription o map x y floor.1 width height floor.2 w) { w with skip := -1 } =
        (floors x y width height fl).squares.foldl (describeSquare o map) { w with skip := -1 } := by
    simp only [squares, getFloorDescription, List.foldl_flatMap, List.foldl_map]
  rw [write, hfold]
  dsimp only
  rw [← flush_eq]
  split <;> rfl

end Part

/-! ## What is sent -/

def viewWidth : Int := maxClientViewportX * 2 + 2

def viewHeight : Int := maxClientViewportY * 2 + 2

def positionFields (pos : Position) : List Field := [.uint16 pos.x, .uint16 pos.y, .byte pos.z]

def canSee (myPos pos : Position) : Bool := View.canSeePosition ⟨some myPos, fun _ => none⟩ pos

/-- A stack position as it is asked for without a sign. -/
def isDescribed (stackpos : Int) : Bool := 0 ≤ stackpos && stackpos < MAX_STACKPOS_THINGS

/-- `RemoveTileThing` -/
def removeTileThing (pos : Position) (stackpos : Int) : List Part :=
  if isDescribed stackpos then
    [.fields ([.byte 0x6C] ++ positionFields pos ++ [.byte (UInt8.ofNat stackpos.toNat)])]
  else
    []

/-- `sendMapDescription`, also as a part of another message -/
def wholeMap (playerPos pos : Position) : List Part :=
  [.fields ([.byte 0x64] ++ positionFields playerPos),
    .mapDescription (pos.x.toNat - maxClientViewportX) (pos.y.toNat - maxClientViewportY) pos.z.toNat
      viewWidth viewHeight]

/-- A byte that says what is described, and the description. -/
def area (opcode : UInt8) (x y z width height : Int) : List Part :=
  [.fields [.byte opcode], .mapDescription x y z width height]

def moveUpCreature (newPos oldPos : Position) : List Part :=
  let x : Int := oldPos.x.toNat
  let y : Int := oldPos.y.toNat
  let z : Int := newPos.z.toNat
  [.fields [.byte 0xBE]] ++
    (if z = 7 then
      -- floor 7 and 6 already set
      [.floors (x - maxClientViewportX) (y - maxClientViewportY) viewWidth viewHeight
        ([5, 4, 3, 2, 1, 0].map fun i => (i, 8 - i))]
    else if z > 7 then
      [.floors (x - maxClientViewportX) (y - maxClientViewportY) viewWidth viewHeight
        [(oldPos.z.toNat - 3, 3)]]
    else
      []) ++
    area 0x68 (x - maxClientViewportX) (y - (maxClientViewportY - 1)) z 1 viewHeight ++
    area 0x65 (x - maxClientViewportX) (y - maxClientViewportY) z viewWidth 1

def moveDownCreature (newPos oldPos : Position) : List Part :=
  let x : Int := oldPos.x.toNat
  let y : Int := oldPos.y.toNat
  let z : Int := newPos.z.toNat
  [.fields [.byte 0xBF]] ++
    (if z = 8 then
      [.floors (x - maxClientViewportX) (y - maxClientViewportY) viewWidth viewHeight
        ([0, 1, 2].map fun i => (z + i, -i - 1))]
    else if z > oldPos.z.toNat ∧ z > 8 ∧ z < 14 then
      [.floors (x - maxClientViewportX) (y - maxClientViewportY) viewWidth viewHeight [(z + 2, -3)]]
    else
      []) ++
    area 0x66 (x + (maxClientViewportX + 1)) (y - (maxClientViewportY + 1)) z 1 viewHeight ++
    area 0x67 (x - maxClientViewportX) (y + (maxClientViewportY + 1)) z viewWidth 1

/-- The strips that come into view. -/
def strips (newPos oldPos : Position) : List Part :=
  let oldX : Int := oldPos.x.toNat
  let newX : Int := newPos.x.toNat
  let newY : Int := newPos.y.toNat
  let z : Int := newPos.z.toNat
  (if newPos.y < oldPos.y then
    -- north, for old x
    area 0x65 (oldX - maxClientViewportX) (newY - maxClientViewportY) z viewWidth 1
  else if oldPos.y < newPos.y then
    -- south, for old x
    area 0x67 (oldX - maxClientViewportX) (newY + (maxClientViewportY + 1)) z viewWidth 1
  else
    []) ++
  (if oldPos.x < newPos.x then
    -- east, with new y
    area 0x66 (newX + (maxClientViewportX + 1)) (newY - maxClientViewportY) z 1 viewHeight
  else if newPos.x < oldPos.x then
    -- west, with new y
    area 0x68 (newX - maxClientViewportX) (newY - maxClientViewportY) z 1 viewHeight
  else
    [])

/-- `sendMoveCreature` for the player itself, which is at the new position: the parts of each
message. -/
def sendMoveCreature (isOTCv8 : Bool) (newPos : Position) (newStackPos : Int) (oldPos : Position)
    (oldStackPos : Int) (teleport : Bool) : List (List Part) :=
  if teleport ∨ MAX_STACKPOS_THINGS ≤ oldStackPos then
    (if canSee newPos oldPos then [removeTileThing oldPos oldStackPos] else []) ++
      [wholeMap newPos newPos]
  else
    [(if oldPos.z = 7 ∧ 8 ≤ newPos.z then
        removeTileThing oldPos oldStackPos
      else
        [.fields ([.byte 0x6D] ++ positionFields oldPos ++
          [.byte (UInt8.ofNat (oldStackPos % 256).toNat)] ++ positionFields newPos)]) ++
      (if oldPos.z < newPos.z then
        moveDownCreature newPos oldPos
      else if newPos.z < oldPos.z then
        moveUpCreature newPos oldPos
      else
        []) ++
      (if ¬ isOTCv8 ∧ MAX_STACKPOS_THINGS ≤ newStackPos then
        wholeMap newPos newPos
      else
        strips newPos oldPos)]

/-- The squares that the messages describe. -/
def described (messages : List (List Part)) : List Position :=
  messages.flatten.flatMap Part.squares

/-! ## The squares of an area -/

theorem mem_floors_iff {z nz : Int} :
    nz ∈ MapDescription.floors z ↔
      if z > 7 then z - 2 ≤ nz ∧ nz ≤ 15 ∧ nz ≤ z + 2 else 0 ≤ nz ∧ nz ≤ 7 := by
  have hrange : ∀ (n : Nat) (k : Int), k ∈ (List.range n : List Int) ↔ 0 ≤ k ∧ k < n := by
    intro n k
    simp only [List.bind_eq_flatMap, List.mem_flatMap, List.mem_range, List.pure_def,
      List.mem_singleton]
    constructor
    · rintro ⟨a, ha, rfl⟩
      omega
    · rintro ⟨hpos, hlt⟩
      exact ⟨k.toNat, by omega, by omega⟩
  rw [MapDescription.floors, MAP_MAX_LAYERS]
  by_cases hdeep : z > 7
  · rw [if_pos hdeep, if_pos hdeep, List.mem_map]
    constructor
    · rintro ⟨k, hk, rfl⟩
      rw [hrange] at hk
      omega
    · rintro ⟨hstart, hend⟩
      exact ⟨nz - (z - 2), (hrange _ _).mpr (by omega), by omega⟩
  · rw [if_neg hdeep, if_neg hdeep, List.mem_map]
    constructor
    · rintro ⟨k, hk, rfl⟩
      rw [hrange] at hk
      omega
    · rintro ⟨hstart, hend⟩
      exact ⟨7 - nz, (hrange _ _).mpr (by omega), by omega⟩

theorem toCoordinate_ofCoordinate (v : UInt16) : toCoordinate v.toNat = v := by
  have hlt : v.toNat < 65536 := UInt16.toNat_lt v
  have hmod : ((v.toNat : Int) % 65536).toNat = v.toNat := by omega
  rw [toCoordinate, hmod, UInt16.ofNat_toNat]

/-- A square of an area on one of its floors is described. -/
theorem mem_squares {x y z width height : Int} {q : Position}
    (hz : (q.z.toNat : Int) ∈ MapDescription.floors z)
    (hx : x + (z - q.z.toNat) ≤ q.x.toNat ∧ (q.x.toNat : Int) < x + (z - q.z.toNat) + width)
    (hy : y + (z - q.z.toNat) ≤ q.y.toNat ∧ (q.y.toNat : Int) < y + (z - q.z.toNat) + height) :
    q ∈ MapDescription.squares x y z width height := by
  obtain ⟨i, hi⟩ : ∃ i : Nat, (i : Int) = q.x.toNat - (x + (z - q.z.toNat)) :=
    ⟨_, Int.toNat_of_nonneg (by omega)⟩
  obtain ⟨j, hj⟩ : ∃ j : Nat, (j : Int) = q.y.toNat - (y + (z - q.z.toNat)) :=
    ⟨_, Int.toNat_of_nonneg (by omega)⟩
  refine List.mem_flatMap.mpr ⟨q.z.toNat, hz, List.mem_flatMap.mpr
    ⟨i, List.mem_range.mpr (by omega), List.mem_map.mpr ⟨j, List.mem_range.mpr (by omega), ?_⟩⟩⟩
  have hqx : x + i + (z - q.z.toNat) = q.x.toNat := by omega
  have hqy : y + j + (z - q.z.toNat) = q.y.toNat := by omega
  have hqz : ((q.z.toNat : Int) % 256).toNat = q.z.toNat := by
    have hlt : q.z.toNat < 256 := UInt8.toNat_lt q.z
    omega
  rw [square, hqx, hqy, hqz, toCoordinate_ofCoordinate, toCoordinate_ofCoordinate, UInt8.ofNat_toNat]

/-- A square that is described is one of the area, on one of its floors, but for the coordinates
that go round. -/
theorem of_mem_squares {x y z width height : Int} {q : Position}
    (h : q ∈ MapDescription.squares x y z width height) :
    (q.z.toNat : Int) ∈ MapDescription.floors z ∧
      ∃ i j : Int, (0 ≤ i ∧ i < width) ∧ (0 ≤ j ∧ j < height) ∧
        q.x = toCoordinate (x + i + (z - q.z.toNat)) ∧
        q.y = toCoordinate (y + j + (z - q.z.toNat)) := by
  obtain ⟨nz, hnz, h⟩ := List.mem_flatMap.mp h
  obtain ⟨i, hi, h⟩ := List.mem_flatMap.mp h
  obtain ⟨j, hj, rfl⟩ := List.mem_map.mp h
  rw [List.mem_range] at hi hj
  have hrange : 0 ≤ nz ∧ nz < 256 := by
    have hmem := mem_floors_iff.mp hnz
    split at hmem <;> omega
  have hq : ((UInt8.ofNat (nz % 256).toNat).toNat : Int) = nz := by
    rw [UInt8.toNat_ofNat']
    omega
  dsimp only [square]
  rw [hq]
  exact ⟨hnz, i, j, by omega, by omega, rfl, rfl⟩

/-! ## What is seen -/

/-- The view of a position on a floor lies inside the coordinates. -/
def InsideOn (pos : Position) (z : UInt8) : Prop :=
  let offset : Int := pos.z.toNat - z.toNat
  0 ≤ pos.x.toNat - maxClientViewportX + offset ∧
    pos.x.toNat + (maxClientViewportX + 1) + offset < 65536 ∧
    0 ≤ pos.y.toNat - maxClientViewportY + offset ∧
    pos.y.toNat + (maxClientViewportY + 1) + offset < 65536

/-- The floors that are seen from a position. -/
def SeesFloor (myPos : Position) (z : UInt8) : Prop :=
  if (myPos.z.toNat : Int) ≤ 7 then (z.toNat : Int) ≤ 7
  else ((myPos.z.toNat : Int) - z.toNat).natAbs ≤ 2

theorem canSee_iff (myPos q : Position) :
    canSee myPos q = true ↔ SeesFloor myPos q.z ∧
      ((myPos.x.toNat : Int) - 8 + (myPos.z.toNat - q.z.toNat) ≤ q.x.toNat ∧
        (q.x.toNat : Int) ≤ myPos.x.toNat + 9 + (myPos.z.toNat - q.z.toNat)) ∧
      (myPos.y.toNat : Int) - 6 + (myPos.z.toNat - q.z.toNat) ≤ q.y.toNat ∧
        (q.y.toNat : Int) ≤ myPos.y.toNat + 7 + (myPos.z.toNat - q.z.toNat) := by
  have hfloor : (if (myPos.z.toNat : Int) ≤ 7 then (q.z.toNat : Int) > 7
      else ((myPos.z.toNat : Int) - q.z.toNat).natAbs > 2) ↔ ¬ SeesFloor myPos q.z := by
    rw [SeesFloor]
    by_cases hsurface : (myPos.z.toNat : Int) ≤ 7
    · rw [if_pos hsurface, if_pos hsurface]
      omega
    · rw [if_neg hsurface, if_neg hsurface]
      omega
  rw [canSee, View.canSeePosition]
  dsimp only
  rw [maxClientViewportX, maxClientViewportY]
  by_cases hsees : SeesFloor myPos q.z
  · rw [if_neg fun h => hfloor.mp h hsees, and_iff_right hsees]
    simp only [ge_iff_le, Bool.and_eq_true, decide_eq_true_eq]
    omega
  · rw [if_pos (hfloor.mpr hsees)]
    exact iff_of_false Bool.false_ne_true fun h => hsees h.1

/-- The floors that are seen are those that are described, as far as they are on the map. -/
theorem mem_floors_iff_seesFloor {myPos : Position} {z : UInt8} (hmap : z.toNat < 16) :
    (z.toNat : Int) ∈ MapDescription.floors myPos.z.toNat ↔ SeesFloor myPos z := by
  rw [mem_floors_iff, SeesFloor]
  by_cases hdeep : (myPos.z.toNat : Int) > 7
  · rw [if_pos hdeep, if_neg (by omega)]
    omega
  · rw [if_neg hdeep, if_pos (by omega)]
    omega

section Step

variable {newPos oldPos q : Position}

/-- A step that stays inside the coordinates goes to the next square. -/
theorem getNextPosition_inside (dir : Direction) (h : InsideOn oldPos oldPos.z) :
    ((getNextPosition dir oldPos).x.toNat : Int) = oldPos.x.toNat + dir.offset.1 ∧
      ((getNextPosition dir oldPos).y.toNat : Int) = oldPos.y.toNat + dir.offset.2 ∧
      (getNextPosition dir oldPos).z = oldPos.z := by
  have hoffset : (-1 ≤ dir.offset.1 ∧ dir.offset.1 ≤ 1) ∧ -1 ≤ dir.offset.2 ∧ dir.offset.2 ≤ 1 := by
    cases dir <;> decide
  obtain ⟨hleft, hright, htop, hbottom⟩ := h
  rw [maxClientViewportX] at hleft hright
  rw [maxClientViewportY] at htop hbottom
  exact ⟨WalkCache.Walker.toCoordinate_toNat (by omega), WalkCache.Walker.toCoordinate_toNat (by omega), rfl⟩

theorem described_area (opcode : UInt8) (x y z width height : Int) :
    (area opcode x y z width height).flatMap Part.squares =
      MapDescription.squares x y z width height := by
  rw [area, List.flatMap_cons, List.flatMap_singleton, Part.squares,
    Part.squares_mapDescription, List.nil_append]

/-- Of a step on one floor the strips are described. -/
theorem described_step {isOTCv8 : Bool} {newStackPos oldStackPos : Int}
    (hfloor : newPos.z = oldPos.z) (hold : oldStackPos < MAX_STACKPOS_THINGS)
    (hnew : isOTCv8 = true ∨ newStackPos < MAX_STACKPOS_THINGS) :
    described (sendMoveCreature isOTCv8 newPos newStackPos oldPos oldStackPos false) =
      (strips newPos oldPos).flatMap Part.squares := by
  have hstay : ¬ (oldPos.z = 7 ∧ 8 ≤ newPos.z) := by
    rintro ⟨hseven, height⟩
    rw [hfloor, hseven] at height
    exact absurd height (by decide)
  have hnotDown : ¬ oldPos.z < newPos.z := by
    rw [hfloor]
    exact UInt8.lt_irrefl _
  have hnotUp : ¬ newPos.z < oldPos.z := by
    rw [hfloor]
    exact UInt8.lt_irrefl _
  have hstrips : ¬ (¬ isOTCv8 ∧ (MAX_STACKPOS_THINGS : Int) ≤ newStackPos) := by
    rintro ⟨hplain, hle⟩
    rcases hnew with hotc | hlt
    · exact hplain hotc
    · omega
  rw [sendMoveCreature, if_neg (by simpa using hold), if_neg hstay, if_neg hnotDown, if_neg hnotUp,
    if_neg hstrips, described, List.flatten_singleton, List.append_nil, List.flatMap_append,
    List.flatMap_singleton, Part.squares, List.nil_append]

/-- What comes into view by a step lies in one of the strips. -/
theorem mem_strips (hfloor : newPos.z = oldPos.z)
    (hx : ((newPos.x.toNat : Int) - oldPos.x.toNat).natAbs ≤ 1)
    (hy : ((newPos.y.toNat : Int) - oldPos.y.toNat).natAbs ≤ 1)
    (hmap : q.z.toNat < 16) (hsees : canSee newPos q = true) (hnew : canSee oldPos q = false) :
    q ∈ (strips newPos oldPos).flatMap Part.squares := by
  obtain ⟨hsees, hcolumn, hrow⟩ := (canSee_iff newPos q).mp hsees
  have hdescribed := (mem_floors_iff_seesFloor hmap).mpr hsees
  have hout : ¬ (((oldPos.x.toNat : Int) - 8 + (oldPos.z.toNat - q.z.toNat) ≤ q.x.toNat ∧
      (q.x.toNat : Int) ≤ oldPos.x.toNat + 9 + (oldPos.z.toNat - q.z.toNat)) ∧
      (oldPos.y.toNat : Int) - 6 + (oldPos.z.toNat - q.z.toNat) ≤ q.y.toNat ∧
        (q.y.toNat : Int) ≤ oldPos.y.toNat + 7 + (oldPos.z.toNat - q.z.toNat)) := by
    intro hin
    have hsame : SeesFloor oldPos q.z := by
      rw [SeesFloor, ← hfloor]
      exact hsees
    rw [(canSee_iff oldPos q).mpr ⟨hsame, hin⟩] at hnew
    cases hnew
  rw [← hfloor] at hout
  rw [strips, List.flatMap_append, maxClientViewportX, maxClientViewportY, viewWidth, viewHeight,
    maxClientViewportX, maxClientViewportY, List.mem_append]
  by_cases hcolumns : (oldPos.x.toNat : Int) - 8 + (newPos.z.toNat - q.z.toNat) ≤ q.x.toNat ∧
      (q.x.toNat : Int) ≤ oldPos.x.toNat + 9 + (newPos.z.toNat - q.z.toNat)
  · -- a new row
    left
    by_cases hnorth : newPos.y < oldPos.y
    · rw [if_pos hnorth, described_area]
      have hlt := UInt16.lt_iff_toNat_lt.mp hnorth
      exact mem_squares hdescribed (by omega) (by omega)
    · have hle := Nat.not_lt.mp fun h => hnorth (UInt16.lt_iff_toNat_lt.mpr h)
      have hlt : oldPos.y.toNat < newPos.y.toNat := by omega
      rw [if_neg hnorth, if_pos (UInt16.lt_iff_toNat_lt.mpr hlt), described_area]
      exact mem_squares hdescribed (by omega) (by omega)
  · -- a new column
    right
    by_cases heast : oldPos.x < newPos.x
    · rw [if_pos heast, described_area]
      have hlt := UInt16.lt_iff_toNat_lt.mp heast
      exact mem_squares hdescribed (by omega) (by omega)
    · have hle := Nat.not_lt.mp fun h => heast (UInt16.lt_iff_toNat_lt.mpr h)
      have hlt : newPos.x.toNat < oldPos.x.toNat := by omega
      rw [if_neg heast, if_pos (UInt16.lt_iff_toNat_lt.mpr hlt), described_area]
      exact mem_squares hdescribed (by omega) (by omega)

/-- The squares of an area that is a part of the view of a position, on a floor where the view lies
inside the coordinates, are seen from there. -/
theorem canSee_of_mem_squares {pos : Position} {x y width height : Int}
    (hleft : (pos.x.toNat : Int) - 8 ≤ x) (hright : x + width ≤ pos.x.toNat + 10)
    (htop : (pos.y.toNat : Int) - 6 ≤ y) (hbottom : y + height ≤ pos.y.toNat + 8)
    (hinside : InsideOn pos q.z)
    (h : q ∈ MapDescription.squares x y pos.z.toNat width height) : canSee pos q = true := by
  obtain ⟨hfloor, i, j, hi, hj, hqx, hqy⟩ := of_mem_squares h
  have hmap : q.z.toNat < 16 := by
    have hmem := mem_floors_iff.mp hfloor
    split at hmem <;> omega
  obtain ⟨hinLeft, hinRight, hinTop, hinBottom⟩ := hinside
  rw [maxClientViewportX] at hinLeft hinRight
  rw [maxClientViewportY] at hinTop hinBottom
  have hx := WalkCache.Walker.toCoordinate_toNat
    (show 0 ≤ x + i + ((pos.z.toNat : Int) - q.z.toNat) ∧
      x + i + ((pos.z.toNat : Int) - q.z.toNat) < 65536 by omega)
  have hy := WalkCache.Walker.toCoordinate_toNat
    (show 0 ≤ y + j + ((pos.z.toNat : Int) - q.z.toNat) ∧
      y + j + ((pos.z.toNat : Int) - q.z.toNat) < 65536 by omega)
  rw [← hqx] at hx
  rw [← hqy] at hy
  exact (canSee_iff pos q).mpr ⟨(mem_floors_iff_seesFloor hmap).mp hfloor, by omega, by omega⟩

/-- A strip is in the view of the new position, or of the one with the old x and the new y. -/
theorem canSee_of_mem_strips (hfloor : newPos.z = oldPos.z) (hold : InsideOn oldPos q.z)
    (hnew : InsideOn newPos q.z) (h : q ∈ (strips newPos oldPos).flatMap Part.squares) :
    canSee newPos q = true ∨ canSee ⟨oldPos.x, newPos.y, newPos.z⟩ q = true := by
  have hbetween : InsideOn ⟨oldPos.x, newPos.y, newPos.z⟩ q.z := by
    obtain ⟨hleft, hright, -, -⟩ := hold
    obtain ⟨-, -, htop, hbottom⟩ := hnew
    rw [← hfloor] at hleft hright
    exact ⟨hleft, hright, htop, hbottom⟩
  rw [strips, List.flatMap_append, maxClientViewportX, maxClientViewportY, viewWidth, viewHeight,
    maxClientViewportX, maxClientViewportY] at h
  rcases List.mem_append.mp h with hrow | hcolumn
  · right
    split at hrow
    · rw [described_area] at hrow
      exact canSee_of_mem_squares (by dsimp only; omega) (by dsimp only; omega) (by dsimp only; omega)
        (by dsimp only; omega) hbetween hrow
    · split at hrow
      · rw [described_area] at hrow
        exact canSee_of_mem_squares (by dsimp only; omega) (by dsimp only; omega)
          (by dsimp only; omega) (by dsimp only; omega) hbetween hrow
      · cases hrow
  · left
    split at hcolumn
    · rw [described_area] at hcolumn
      exact canSee_of_mem_squares (by omega) (by omega) (by omega) (by omega) hnew hcolumn
    · split at hcolumn
      · rw [described_area] at hcolumn
        exact canSee_of_mem_squares (by omega) (by omega) (by omega) (by omega) hnew hcolumn
      · cases hcolumn

/-- Of a step of a player whose view lies inside the coordinates, the squares that are described
and those that were seen before are all that is seen after it. On the floors where the view lies
inside the coordinates before and after the step, what is described is seen from the new position,
or from the one with the old x and the new y. -/
theorem sendMoveCreature_covers (dir : Direction) (hinside : InsideOn oldPos oldPos.z)
    {isOTCv8 : Bool} {newStackPos oldStackPos : Int} (hold : oldStackPos < MAX_STACKPOS_THINGS)
    (hnew : isOTCv8 = true ∨ newStackPos < MAX_STACKPOS_THINGS) :
    (∀ q : Position, q.z.toNat < 16 → canSee (getNextPosition dir oldPos) q = true →
      canSee oldPos q = true ∨
        q ∈ described (sendMoveCreature isOTCv8 (getNextPosition dir oldPos) newStackPos oldPos
          oldStackPos false)) ∧
      ∀ q ∈ described (sendMoveCreature isOTCv8 (getNextPosition dir oldPos) newStackPos oldPos
          oldStackPos false),
        InsideOn oldPos q.z → InsideOn (getNextPosition dir oldPos) q.z →
          canSee (getNextPosition dir oldPos) q = true ∨
            canSee ⟨oldPos.x, (getNextPosition dir oldPos).y, (getNextPosition dir oldPos).z⟩ q =
              true := by
  obtain ⟨hx, hy, hz⟩ := getNextPosition_inside dir hinside
  have hoffset : (-1 ≤ dir.offset.1 ∧ dir.offset.1 ≤ 1) ∧ -1 ≤ dir.offset.2 ∧ dir.offset.2 ≤ 1 := by
    cases dir <;> decide
  rw [described_step hz hold hnew]
  constructor
  · intro q hmap hsees
    cases hseen : canSee oldPos q with
    | true => exact Or.inl rfl
    | false => exact Or.inr (mem_strips hz (by omega) (by omega) hmap hsees hseen)
  · intro q hq hinOld hinNew
    exact canSee_of_mem_strips hz hinOld hinNew hq

end Step

/-- A player in the middle of the map steps to the north-east. -/
theorem sendMoveCreature_covers_northeast :
    (∀ q : Position, q.z.toNat < 16 →
      canSee (getNextPosition .northeast ⟨1000, 1000, 7⟩) q = true →
        canSee ⟨1000, 1000, 7⟩ q = true ∨
          q ∈ described (sendMoveCreature false (getNextPosition .northeast ⟨1000, 1000, 7⟩) 1
            ⟨1000, 1000, 7⟩ 1 false)) ∧
      ∀ q ∈ described (sendMoveCreature false (getNextPosition .northeast ⟨1000, 1000, 7⟩) 1
          ⟨1000, 1000, 7⟩ 1 false),
        InsideOn ⟨1000, 1000, 7⟩ q.z → InsideOn (getNextPosition .northeast ⟨1000, 1000, 7⟩) q.z →
          canSee (getNextPosition .northeast ⟨1000, 1000, 7⟩) q = true ∨
            canSee ⟨1000, (getNextPosition .northeast ⟨1000, 1000, 7⟩).y,
              (getNextPosition .northeast ⟨1000, 1000, 7⟩).z⟩ q = true :=
  sendMoveCreature_covers .northeast (by unfold InsideOn; decide) (by decide) (Or.inr (by decide))

/-- The view of a player may end at the edge of the map on all floors; when it steps towards the
edge, squares at the other edge are described, which it does not see. -/
theorem sendMoveCreature_edge :
    (∀ z : UInt8, z.toNat ≤ 7 → InsideOn ⟨8, 100, 7⟩ z) ∧
      (⟨65535, 94, 7⟩ : Position) ∈ described
        (sendMoveCreature false (getNextPosition .west ⟨8, 100, 7⟩) 1 ⟨8, 100, 7⟩ 1 false) ∧
      canSee (getNextPosition .west ⟨8, 100, 7⟩) ⟨65535, 94, 7⟩ = false ∧
      canSee ⟨8, (getNextPosition .west ⟨8, 100, 7⟩).y, 7⟩ ⟨65535, 94, 7⟩ = false := by
  refine ⟨fun z hz => ?_, by decide +kernel, by decide +kernel, by decide +kernel⟩
  have hseven : (7 : UInt8).toNat = 7 := rfl
  have hx : (8 : UInt16).toNat = 8 := rfl
  have hy : (100 : UInt16).toNat = 100 := rfl
  rw [InsideOn, maxClientViewportX, maxClientViewportY]
  dsimp only
  rw [hseven, hx, hy]
  omega

end Bruxo.MoveView
