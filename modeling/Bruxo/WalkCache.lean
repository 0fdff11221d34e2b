import Bruxo.Position
import Mathlib.Data.List.Basic
import Mathlib.Logic.Function.Basic

/-!
# The walk cache of a creature

`localMapCache` of `creature.cpp`: for every square around a creature whether it
could step there. When the creature makes a step, the cache is shifted and the
squares that come into sight are asked for; after a teleport or a change of floor
all squares are asked for.

What `Tile::queryAdd` answers is up to the tile alone (`queryAdd`): what lies on it and
the creatures that stand on it.
-/

namespace Bruxo

namespace WalkCache

/-- `mapWalkWidth` and `mapWalkHeight` -/
def mapWalkSize : Nat := 23

/-- `maxWalkCacheWidth` and `maxWalkCacheHeight` -/
def maxWalkCache : Int := 11

/-- `-maxWalkCacheWidth` to `maxWalkCacheWidth` -/
def offsets : List Int := (List.range mapWalkSize).map fun (i : Nat) => (i : Int) - maxWalkCache

/-- `localMapCache[y][x]` -/
abbrev Cache := Nat → Nat → Bool

structure WalkTile (τ : Type) where
  rest : τ
  creatures : List Nat

/-- A creature with a map cache, and the map it walks on. -/
structure Walker (τ : Type) where
  self : Nat
  tile : Position → Option (WalkTile τ)
  pos : Position
  localMapCache : Cache

/-- An `int32_t` as a `uint16_t`. -/
def toCoordinate (v : Int) : UInt16 := UInt16.ofNat (v % 65536).toNat

def getOffset (a b : UInt16) : Int := (a.toNat : Int) - b.toNat

def getDistance (a b : UInt16) : Int := (getOffset a b).natAbs

def setCell (c : Cache) (y x : Nat) (b : Bool) : Cache :=
  Function.update c y (Function.update (c y) x b)

/-! ## The loops -/

/-- `f[i] = f[i + 1]` for `i` from `0` up to `n - 1` -/
def copyUp {α : Type} (n : Nat) (f : Nat → α) : Nat → α :=
  (List.range n).foldl (fun f i => Function.update f i (f (i + 1))) f

/-- `f[i + 1] = f[i]` for `i` from `n - 1` down to `0` -/
def copyDown {α : Type} (n : Nat) (f : Nat → α) : Nat → α :=
  (List.range n).reverse.foldl (fun f i => Function.update f (i + 1) (f i)) f

/-- The rows from `starty` to `endy` are changed. -/
def shiftRows (shift : (Nat → Bool) → Nat → Bool) (starty endy : Int) (c : Cache) : Cache :=
  (List.range' starty.toNat (endy + 1 - starty).toNat).foldl
    (fun c y => Function.update c y (shift (c y))) c

namespace Walker

variable {τ : Type} (queryAdd : τ → List Nat → Bool) (w : Walker τ)

def canEnter (pos : Position) : Bool :=
  match w.tile pos with
  | none => false
  | some t => queryAdd t.rest t.creatures

/-- `getTile(myPos.getX() + x, myPos.getY() + y, myPos.z)` -/
def near (y x : Int) : Position :=
  ⟨toCoordinate (w.pos.x.toNat + x), toCoordinate (w.pos.y.toNat + y), w.pos.z⟩

/-- `updateTileCache(tile, dx, dy)` for the tile at `pos` -/
def updateTileCache (pos : Position) (dx dy : Int) (c : Cache) : Cache :=
  if (dx.natAbs : Int) ≤ maxWalkCache ∧ (dy.natAbs : Int) ≤ maxWalkCache then
    setCell c (maxWalkCache + dy).toNat (maxWalkCache + dx).toNat (w.canEnter queryAdd pos)
  else c

/-- `updateTileCache(tile, pos)` -/
def updateTileCacheAt (pos : Position) (c : Cache) : Cache :=
  if pos.z = w.pos.z then
    w.updateTileCache queryAdd pos (getOffset pos.x w.pos.x) (getOffset pos.y w.pos.y) c
  else c

/-- The squares in the order of the two loops of `updateMapCache`. -/
def squares : List (Int × Int) := offsets.flatMap fun y => offsets.map fun x => (y, x)

def updateMapCache : Walker τ :=
  { w with
    localMapCache := squares.foldl
      (fun c e => w.updateTileCacheAt queryAdd (w.near e.1 e.2) c) w.localMapCache }

/-- A row that comes into sight. -/
def updateRow (dy : Int) (c : Cache) : Cache :=
  offsets.foldl (fun c x => w.updateTileCache queryAdd (w.near dy x) x dy c) c

/-- A column that comes into sight. -/
def updateColumn (dx : Int) (c : Cache) : Cache :=
  offsets.foldl (fun c y => w.updateTileCache queryAdd (w.near y dx) dx y c) c

/-- A move to the north or to the south. -/
def moveRows (newPos oldPos : Position) (c : Cache) : Cache :=
  if newPos.y < oldPos.y then
    w.updateRow queryAdd (-maxWalkCache) (copyDown (mapWalkSize - 1) c)
  else if oldPos.y < newPos.y then
    w.updateRow queryAdd maxWalkCache (copyUp (mapWalkSize - 1) c)
  else c

/-- A move to the east or to the west. -/
def moveColumns (newPos oldPos : Position) (c : Cache) : Cache :=
  let dy := getDistance oldPos.y newPos.y
  let starty : Int := if dy < 0 then 0 else if 0 < dy then dy else 0
  let endy : Int := if dy < 0 then mapWalkSize - 1 + dy else mapWalkSize - 1
  if oldPos.x < newPos.x then
    w.updateColumn queryAdd maxWalkCache (shiftRows (copyUp (mapWalkSize - 1)) starty endy c)
  else if newPos.x < oldPos.x then
    w.updateColumn queryAdd (-maxWalkCache) (shiftRows (copyDown (mapWalkSize - 1)) starty endy c)
  else c

/-- The part of `onCreatureMove` for the creature itself that is about the cache. -/
def onCreatureMove (newPos oldPos : Position) (teleport : Bool) : Walker τ :=
  if teleport ∨ oldPos.z ≠ newPos.z then w.updateMapCache queryAdd
  else
    { w with
      localMapCache := w.updateTileCacheAt queryAdd oldPos
        (w.moveColumns queryAdd newPos oldPos (w.moveRows queryAdd newPos oldPos w.localMapCache)) }

/-- `getWalkCache` of a creature that uses the cache -/
def getWalkCache (pos : Position) : Int :=
  if w.pos.z ≠ pos.z then 0
  else if pos = w.pos then 1
  else
    let dx := getOffset pos.x w.pos.x
    let dy := getOffset pos.y w.pos.y
    if (dx.natAbs : Int) ≤ maxWalkCache ∧ (dy.natAbs : Int) ≤ maxWalkCache then
      if w.localMapCache (maxWalkCache + dy).toNat (maxWalkCache + dx).toNat then 1 else 0
    else 2

/-- The creature leaves its tile and stands on the one at `newPos`. -/
def changeTile (newPos : Position) : Walker τ :=
  let leave := Function.update w.tile w.pos
    ((w.tile w.pos).map fun t => { t with creatures := t.creatures.erase w.self })
  { w with
    tile := Function.update leave newPos
      ((leave newPos).map fun t => { t with creatures := w.self :: t.creatures })
    pos := newPos }

/-- `Map::moveCreature`, with what it calls `teleport`. -/
def moveCreature (newPos : Position) (teleport : Bool) : Walker τ :=
  (w.changeTile newPos).onCreatureMove queryAdd newPos w.pos teleport

end Walker

/-! ## What the loops do -/

theorem copyUp_apply {α : Type} (n : Nat) (f : Nat → α) (i : Nat) :
    copyUp n f i = if i < n then f (i + 1) else f i := by
  induction n generalizing i with
  | zero => rfl
  | succ n ih =>
      have hstep : copyUp (n + 1) f = Function.update (copyUp n f) n (copyUp n f (n + 1)) := by
        simp only [copyUp, List.range_succ, List.foldl_append, List.foldl_cons, List.foldl_nil]
      rw [hstep, Function.update_apply, ih, ih]
      by_cases hi : i = n
      · subst hi
        rw [if_pos rfl, if_neg (by omega), if_pos (by omega)]
      · rw [if_neg hi]
        by_cases hlt : i < n
        · rw [if_pos hlt, if_pos (by omega)]
        · rw [if_neg hlt, if_neg (by omega)]

theorem copyDown_apply {α : Type} (n : Nat) (f : Nat → α) (i : Nat) :
    copyDown n f i = if 1 ≤ i ∧ i ≤ n then f (i - 1) else f i := by
  induction n generalizing f with
  | zero =>
      rw [if_neg (by omega)]
      rfl
  | succ n ih =>
      have hstep : copyDown (n + 1) f = copyDown n (Function.update f (n + 1) (f n)) := by
        simp only [copyDown, List.range_succ, List.reverse_append, List.reverse_singleton,
          List.singleton_append, List.foldl_cons]
      rw [hstep, ih]
      by_cases hi : i = n + 1
      · subst hi
        rw [if_neg (by omega), if_pos (by omega), Function.update_self, Nat.add_sub_cancel]
      · rw [Function.update_of_ne hi]
        by_cases hle : 1 ≤ i ∧ i ≤ n
        · rw [if_pos hle, if_pos (by omega), Function.update_of_ne (by omega)]
        · rw [if_neg hle, if_neg (by omega)]

theorem shiftRows_apply (shift : (Nat → Bool) → Nat → Bool) {starty endy : Int}
    (h : 0 ≤ starty) (c : Cache) (y : Nat) :
    shiftRows shift starty endy c y = if starty ≤ y ∧ y ≤ endy then shift (c y) else c y := by
  have hrun : ∀ (n : Nat) (s : Nat) (c : Cache),
      (List.range' s n).foldl (fun c y => Function.update c y (shift (c y))) c y =
        if s ≤ y ∧ y < s + n then shift (c y) else c y := by
    intro n
    induction n with
    | zero =>
        intro s c
        rw [if_neg (by omega)]
        rfl
    | succ n ih =>
        intro s c
        rw [List.range'_succ, List.foldl_cons, ih]
        by_cases hy : y = s
        · subst hy
          rw [if_neg (by omega), if_pos (by omega), Function.update_self]
        · rw [Function.update_of_ne hy]
          by_cases hle : s + 1 ≤ y ∧ y < s + 1 + n
          · rw [if_pos hle, if_pos (by omega)]
          · rw [if_neg hle, if_neg (by omega)]
  rw [shiftRows, hrun]
  by_cases hle : starty ≤ y ∧ (y : Int) ≤ endy
  · rw [if_pos hle, if_pos (by omega)]
  · rw [if_neg hle, if_neg (by omega)]

theorem setCell_apply (c : Cache) (y x y' x' : Nat) (b : Bool) :
    setCell c y x b y' x' = if y' = y ∧ x' = x then b else c y' x' := by
  rw [setCell, Function.update_apply]
  by_cases hy : y' = y
  · subst hy
    simp only [if_true, Function.update_apply, true_and]
  · simp only [hy, if_false, false_and]

/-- A loop that sets cells, the value depending on the cell alone. -/
theorem foldl_setCell {ι : Type} (g : Nat → Nat → Bool) (f : Cache → ι → Cache) (p : ι → Prop)
    (row col : ι → Nat) (l : List ι)
    (hset : ∀ c e, e ∈ l → p e → f c e = setCell c (row e) (col e) (g (row e) (col e)))
    (hskip : ∀ c e, e ∈ l → ¬ p e → f c e = c) (c : Cache) (y x : Nat) :
    ((∃ e ∈ l, p e ∧ row e = y ∧ col e = x) → l.foldl f c y x = g y x) ∧
      ((∀ e ∈ l, p e → ¬ (row e = y ∧ col e = x)) → l.foldl f c y x = c y x) := by
  induction l generalizing c with
  | nil => exact ⟨fun ⟨_, h, _⟩ => (by cases h), fun _ => rfl⟩
  | cons e l ih =>
      obtain ⟨ihset, ihskip⟩ := ih (fun c e he => hset c e (List.mem_cons_of_mem _ he))
        (fun c e he => hskip c e (List.mem_cons_of_mem _ he)) (f c e)
      rw [List.foldl_cons]
      constructor
      · rintro ⟨e', he', hp, hrow, hcol⟩
        by_cases hl : ∃ e ∈ l, p e ∧ row e = y ∧ col e = x
        · exact ihset hl
        · have hnot : ∀ e ∈ l, p e → ¬ (row e = y ∧ col e = x) :=
            fun e he hp h => hl ⟨e, he, hp, h⟩
          rcases List.mem_cons.mp he' with rfl | he'
          · rw [ihskip hnot, hset c e' List.mem_cons_self hp, setCell_apply,
              if_pos ⟨hrow.symm, hcol.symm⟩, hrow, hcol]
          · exact absurd ⟨hrow, hcol⟩ (hnot e' he' hp)
      · intro hnot
        rw [ihskip fun e' he' => hnot e' (List.mem_cons_of_mem _ he')]
        by_cases hp : p e
        · rw [hset c e List.mem_cons_self hp, setCell_apply, if_neg]
          exact fun h => hnot e List.mem_cons_self hp ⟨h.1.symm, h.2.symm⟩
        · rw [hskip c e List.mem_cons_self hp]

theorem mem_offsets {d : Int} : d ∈ offsets ↔ -11 ≤ d ∧ d ≤ 11 := by
  simp only [offsets, List.mem_map, List.mem_range, mapWalkSize, maxWalkCache]
  constructor
  · rintro ⟨i, hi, rfl⟩
    omega
  · intro h
    exact ⟨(d + 11).toNat, by omega, by omega⟩

/-- A coordinate that is near another one, on the map or around its edge. -/
theorem getOffset_toCoordinate (a : UInt16) (d : Int) (hd : -11 ≤ d ∧ d ≤ 11) :
    (0 ≤ a.toNat + d ∧ a.toNat + d < 65536 ∧ getOffset (toCoordinate (a.toNat + d)) a = d) ∨
      (¬ (0 ≤ a.toNat + d ∧ a.toNat + d < 65536) ∧
        11 < (getOffset (toCoordinate (a.toNat + d)) a).natAbs) := by
  have ha : a.toNat < 65536 := UInt16.toNat_lt _
  have hval : ((toCoordinate (a.toNat + d)).toNat : Int) = (a.toNat + d) % 65536 := by
    rw [toCoordinate, UInt16.toNat_ofNat']
    omega
  rw [getOffset, hval]
  omega

namespace Walker

variable {τ : Type} {queryAdd : τ → List Nat → Bool} {w : Walker τ}

/-- The square at that offset is on the map. -/
def OnMap (w : Walker τ) (dy dx : Int) : Prop :=
  (0 ≤ w.pos.y.toNat + dy ∧ w.pos.y.toNat + dy < 65536) ∧
    (0 ≤ w.pos.x.toNat + dx ∧ w.pos.x.toNat + dx < 65536)

theorem toCoordinate_toNat {v : Int} (h : 0 ≤ v ∧ v < 65536) :
    ((toCoordinate v).toNat : Int) = v := by
  rw [toCoordinate, UInt16.toNat_ofNat']
  omega

theorem updateTileCache_apply {pos : Position} {dy dx : Int} (hy : -11 ≤ dy ∧ dy ≤ 11)
    (hx : -11 ≤ dx ∧ dx ≤ 11) (c : Cache) :
    w.updateTileCache queryAdd pos dx dy c =
      setCell c (11 + dy).toNat (11 + dx).toNat (w.canEnter queryAdd pos) :=
  if_pos (by simp only [maxWalkCache]; omega)

theorem updateTileCacheAt_near {dy dx : Int} (hy : -11 ≤ dy ∧ dy ≤ 11) (hx : -11 ≤ dx ∧ dx ≤ 11)
    (c : Cache) :
    (w.OnMap dy dx → w.updateTileCacheAt queryAdd (w.near dy dx) c =
      setCell c (11 + dy).toNat (11 + dx).toNat (w.canEnter queryAdd (w.near dy dx))) ∧
      (¬ w.OnMap dy dx → w.updateTileCacheAt queryAdd (w.near dy dx) c = c) := by
  have hey := getOffset_toCoordinate w.pos.y dy hy
  have hex := getOffset_toCoordinate w.pos.x dx hx
  have hat : w.updateTileCacheAt queryAdd (w.near dy dx) c =
      w.updateTileCache queryAdd (w.near dy dx)
        (getOffset (toCoordinate (w.pos.x.toNat + dx)) w.pos.x)
        (getOffset (toCoordinate (w.pos.y.toNat + dy)) w.pos.y) c := if_pos rfl
  rw [hat]
  constructor
  · rintro ⟨hmy, hmx⟩
    rcases hey with ⟨-, -, hey⟩ | ⟨hno, -⟩
    · rcases hex with ⟨-, -, hex⟩ | ⟨hno, -⟩
      · rw [hey, hex]
        exact updateTileCache_apply hy hx c
      · exact absurd hmx hno
    · exact absurd hmy hno
  · intro hno
    refine if_neg fun h => hno ?_
    simp only [maxWalkCache] at h
    rcases hey with ⟨hy0, hy1, -⟩ | ⟨-, hbig⟩
    · rcases hex with ⟨hx0, hx1, -⟩ | ⟨-, hbig⟩
      · exact ⟨⟨hy0, hy1⟩, ⟨hx0, hx1⟩⟩
      · omega
    · omega

theorem mem_squares (e : Int × Int) :
    e ∈ squares ↔ (-11 ≤ e.1 ∧ e.1 ≤ 11) ∧ (-11 ≤ e.2 ∧ e.2 ≤ 11) := by
  obtain ⟨y, x⟩ := e
  simp only [squares, List.mem_flatMap, List.mem_map, Prod.mk.injEq, mem_offsets]
  constructor
  · rintro ⟨y', hy', x', hx', rfl, rfl⟩
    exact ⟨hy', hx'⟩
  · rintro ⟨hy', hx'⟩
    exact ⟨y, hy', x, hx', rfl, rfl⟩

theorem toNat_sub {d : Int} (hd : -11 ≤ d ∧ d ≤ 11) : (((11 + d).toNat : Nat) : Int) - 11 = d := by
  omega

variable (queryAdd w) in
/-- What a full recomputation stores: an answer for every square on the map. -/
theorem updateMapCache_apply {dy dx : Int} (hy : -11 ≤ dy ∧ dy ≤ 11) (hx : -11 ≤ dx ∧ dx ≤ 11) :
    (w.OnMap dy dx → (w.updateMapCache queryAdd).localMapCache (11 + dy).toNat (11 + dx).toNat =
      w.canEnter queryAdd (w.near dy dx)) ∧
      (¬ w.OnMap dy dx → (w.updateMapCache queryAdd).localMapCache (11 + dy).toNat (11 + dx).toNat =
        w.localMapCache (11 + dy).toNat (11 + dx).toNat) := by
  have hloop := foldl_setCell
    (fun y x => w.canEnter queryAdd (w.near ((y : Int) - 11) ((x : Int) - 11)))
    (fun c e => w.updateTileCacheAt queryAdd (w.near e.1 e.2) c) (fun e => w.OnMap e.1 e.2)
    (fun e => (11 + e.1).toNat) (fun e => (11 + e.2).toNat)
    squares
    (fun c e he hp => by
      obtain ⟨hy, hx⟩ := (mem_squares e).mp he
      simp only [(updateTileCacheAt_near hy hx c).1 hp, toNat_sub hy, toNat_sub hx])
    (fun c e he hp => by
      obtain ⟨hy, hx⟩ := (mem_squares e).mp he
      exact (updateTileCacheAt_near hy hx c).2 hp)
    w.localMapCache (11 + dy).toNat (11 + dx).toNat
  simp only [updateMapCache]
  constructor
  · intro hon
    rw [hloop.1 ⟨(dy, dx), (mem_squares (dy, dx)).mpr ⟨hy, hx⟩, hon, rfl, rfl⟩,
      toNat_sub hy, toNat_sub hx]
  · intro hoff
    refine hloop.2 fun e he hon heq => hoff ?_
    obtain ⟨hey, hex⟩ := (mem_squares e).mp he
    have h1 : e.1 = dy := by omega
    have h2 : e.2 = dx := by omega
    rwa [h1, h2] at hon

theorem updateRow_apply {dy : Int} (hy : -11 ≤ dy ∧ dy ≤ 11) (c : Cache) (y : Nat) {dx : Int}
    (hx : -11 ≤ dx ∧ dx ≤ 11) :
    w.updateRow queryAdd dy c y (11 + dx).toNat =
      if y = (11 + dy).toNat then w.canEnter queryAdd (w.near dy dx) else c y (11 + dx).toNat := by
  have hloop := foldl_setCell (fun _ x => w.canEnter queryAdd (w.near dy ((x : Int) - 11)))
    (fun c x => w.updateTileCache queryAdd (w.near dy x) x dy c) (fun _ => True)
    (fun _ => (11 + dy).toNat) (fun x => (11 + x).toNat) offsets
    (fun c x hx _ => by
      have hx := mem_offsets.mp hx
      simp only [updateTileCache_apply hy hx, toNat_sub hx])
    (fun c x _ hp => absurd trivial hp) c y (11 + dx).toNat
  split
  · next heq =>
      rw [updateRow, hloop.1 ⟨dx, mem_offsets.mpr hx, trivial, heq.symm, rfl⟩, toNat_sub hx]
  · next hne => exact hloop.2 fun _ _ _ h => hne h.1.symm

theorem updateColumn_apply {dx : Int} (hx : -11 ≤ dx ∧ dx ≤ 11) (c : Cache) (x : Nat) {dy : Int}
    (hy : -11 ≤ dy ∧ dy ≤ 11) :
    w.updateColumn queryAdd dx c (11 + dy).toNat x =
      if x = (11 + dx).toNat then w.canEnter queryAdd (w.near dy dx) else c (11 + dy).toNat x := by
  have hloop := foldl_setCell (fun y _ => w.canEnter queryAdd (w.near ((y : Int) - 11) dx))
    (fun c y => w.updateTileCache queryAdd (w.near y dx) dx y c) (fun _ => True)
    (fun y => (11 + y).toNat) (fun _ => (11 + dx).toNat) offsets
    (fun c y hy _ => by
      have hy := mem_offsets.mp hy
      simp only [updateTileCache_apply hy hx, toNat_sub hy])
    (fun c y _ hp => absurd trivial hp) c (11 + dy).toNat x
  split
  · next heq =>
      rw [updateColumn, hloop.1 ⟨dy, mem_offsets.mpr hy, trivial, rfl, heq.symm⟩, toNat_sub hy]
  · next hne => exact hloop.2 fun _ _ _ h => hne h.2.symm

/-! ## One step -/

theorem moveRows_apply {o : Position} {ey : Int} (hey : -1 ≤ ey ∧ ey ≤ 1)
    (hy : (w.pos.y.toNat : Int) = o.y.toNat + ey) (c : Cache) {dy dx : Int}
    (hdy : -11 ≤ dy ∧ dy ≤ 11) (hdx : -11 ≤ dx ∧ dx ≤ 11) :
    w.moveRows queryAdd w.pos o c (11 + dy).toNat (11 + dx).toNat =
      if -11 ≤ dy + ey ∧ dy + ey ≤ 11 then c (11 + (dy + ey)).toNat (11 + dx).toNat
      else w.canEnter queryAdd (w.near dy dx) := by
  simp only [moveRows, UInt16.lt_iff_toNat_lt]
  have hfull : -11 ≤ maxWalkCache ∧ maxWalkCache ≤ 11 := by simp only [maxWalkCache]; omega
  have hfull' : -11 ≤ -maxWalkCache ∧ -maxWalkCache ≤ 11 := by simp only [maxWalkCache]; omega
  rcases (by omega : ey = -1 ∨ ey = 0 ∨ ey = 1) with rfl | rfl | rfl
  · -- to the north, row 0 comes into sight
    rw [if_pos (by omega), updateRow_apply hfull' _ _ hdx]
    by_cases hin : -11 ≤ dy + -1 ∧ dy + -1 ≤ 11
    · rw [if_neg (by simp only [maxWalkCache]; omega), if_pos hin, copyDown_apply,
        if_pos (by simp only [mapWalkSize]; omega)]
      congr 1
      omega
    · have hdy : dy = -maxWalkCache := by simp only [maxWalkCache]; omega
      rw [if_neg hin, if_pos (by rw [hdy]), hdy]
  · rw [if_neg (by omega), if_neg (by omega), if_pos (by omega), Int.add_zero]
  · -- to the south, the last row comes into sight
    rw [if_neg (by omega), if_pos (by omega), updateRow_apply hfull _ _ hdx]
    by_cases hin : -11 ≤ dy + 1 ∧ dy + 1 ≤ 11
    · rw [if_neg (by simp only [maxWalkCache]; omega), if_pos hin, copyUp_apply,
        if_pos (by simp only [mapWalkSize]; omega)]
      congr 1
      omega
    · have hdy : dy = maxWalkCache := by simp only [maxWalkCache]; omega
      rw [if_neg hin, if_pos (by rw [hdy]), hdy]

/-- After the rows, the columns are moved, but for the rows above `starty`. -/
theorem moveColumns_apply {o : Position} {ey ex : Int} (hey : -1 ≤ ey ∧ ey ≤ 1)
    (hex : -1 ≤ ex ∧ ex ≤ 1) (hy : (w.pos.y.toNat : Int) = o.y.toNat + ey)
    (hx : (w.pos.x.toNat : Int) = o.x.toNat + ex) (c : Cache) {dy dx : Int}
    (hdy : -11 ≤ dy ∧ dy ≤ 11) (hdx : -11 ≤ dx ∧ dx ≤ 11) :
    w.moveColumns queryAdd w.pos o c (11 + dy).toNat (11 + dx).toNat =
      if -11 ≤ dx + ex ∧ dx + ex ≤ 11 then
        c (11 + dy).toNat
          (if ey ≠ 0 ∧ dy = -11 then (11 + dx).toNat else (11 + (dx + ex)).toNat)
      else w.canEnter queryAdd (w.near dy dx) := by
  have hfull : -11 ≤ maxWalkCache ∧ maxWalkCache ≤ 11 := by simp only [maxWalkCache]; omega
  have hfull' : -11 ≤ -maxWalkCache ∧ -maxWalkCache ≤ 11 := by simp only [maxWalkCache]; omega
  have hdist : getDistance o.y w.pos.y = if ey = 0 then 0 else 1 := by
    simp only [getDistance, getOffset]
    split <;> omega
  have hstart : (if getDistance o.y w.pos.y < 0 then 0
      else if 0 < getDistance o.y w.pos.y then getDistance o.y w.pos.y else 0) =
        if ey = 0 then (0 : Int) else 1 := by
    rw [hdist]
    split <;> rfl
  have hend : (if getDistance o.y w.pos.y < 0 then (mapWalkSize : Int) - 1 + getDistance o.y w.pos.y
      else (mapWalkSize : Int) - 1) = 22 := by
    rw [hdist]
    split <;> rfl
  have hstart0 : (0 : Int) ≤ if ey = 0 then 0 else 1 := by split <;> omega
  simp only [moveColumns, hstart, hend, UInt16.lt_iff_toNat_lt]
  have hrow : ∀ shift, shiftRows shift (if ey = 0 then 0 else 1) 22 c (11 + dy).toNat =
      if ey ≠ 0 ∧ dy = -11 then c (11 + dy).toNat else shift (c (11 + dy).toNat) := by
    intro shift
    rw [shiftRows_apply shift hstart0]
    by_cases hr : ey ≠ 0 ∧ dy = -11
    · rw [if_pos hr, if_neg]
      rw [if_neg hr.1]
      omega
    · rw [if_neg hr, if_pos]
      split <;> omega
  rcases (by omega : ex = -1 ∨ ex = 0 ∨ ex = 1) with rfl | rfl | rfl
  · rw [if_neg (by omega), if_pos (by omega), updateColumn_apply hfull' _ _ hdy, hrow]
    by_cases hin : -11 ≤ dx + -1 ∧ dx + -1 ≤ 11
    · rw [if_neg (by simp only [maxWalkCache]; omega), if_pos hin]
      split
      · rfl
      · rw [copyDown_apply, if_pos (by simp only [mapWalkSize]; omega)]
        congr 1
        omega
    · have hdx : dx = -maxWalkCache := by simp only [maxWalkCache]; omega
      rw [if_neg hin, if_pos (by rw [hdx]), hdx]
  · rw [if_neg (by omega), if_neg (by omega), if_pos (by omega), Int.add_zero, ite_self]
  · rw [if_pos (by omega), updateColumn_apply hfull _ _ hdy, hrow]
    by_cases hin : -11 ≤ dx + 1 ∧ dx + 1 ≤ 11
    · rw [if_neg (by simp only [maxWalkCache]; omega), if_pos hin]
      split
      · rfl
      · rw [copyUp_apply, if_pos (by simp only [mapWalkSize]; omega)]
        congr 1
        omega
    · have hdx : dx = maxWalkCache := by simp only [maxWalkCache]; omega
      rw [if_neg hin, if_pos (by rw [hdx]), hdx]

/-- The cache is what a full recomputation would store, but for the square that the
creature stands on, which `getWalkCache` does not look up. -/
def Coherent (queryAdd : τ → List Nat → Bool) (w : Walker τ) : Prop :=
  ∀ y x, y < mapWalkSize → x < mapWalkSize → ¬ (y = 11 ∧ x = 11) →
    w.localMapCache y x = (w.updateMapCache queryAdd).localMapCache y x

theorem coherent_iff : w.Coherent queryAdd ↔ ∀ dy dx : Int, -11 ≤ dy ∧ dy ≤ 11 →
    -11 ≤ dx ∧ dx ≤ 11 → ¬ (dy = 0 ∧ dx = 0) → w.OnMap dy dx →
      w.localMapCache (11 + dy).toNat (11 + dx).toNat = w.canEnter queryAdd (w.near dy dx) := by
  constructor
  · intro h dy dx hdy hdx hne hon
    rw [← (updateMapCache_apply queryAdd w hdy hdx).1 hon]
    exact h _ _ (by simp only [mapWalkSize]; omega) (by simp only [mapWalkSize]; omega) (by omega)
  · intro h y x hy hx hne
    simp only [mapWalkSize] at hy hx
    have hdy : -11 ≤ (y : Int) - 11 ∧ (y : Int) - 11 ≤ 11 := by omega
    have hdx : -11 ≤ (x : Int) - 11 ∧ (x : Int) - 11 ≤ 11 := by omega
    have hcy : (11 + ((y : Int) - 11)).toNat = y := by omega
    have hcx : (11 + ((x : Int) - 11)).toNat = x := by omega
    obtain ⟨hset, hskip⟩ := updateMapCache_apply queryAdd w hdy hdx
    rw [hcy, hcx] at hset hskip
    by_cases hon : w.OnMap ((y : Int) - 11) ((x : Int) - 11)
    · have := h _ _ hdy hdx (by omega) hon
      rw [hcy, hcx] at this
      rw [hset hon, this]
    · exact (hskip hon).symm

theorem canEnter_updateMapCache (p : Position) :
    (w.updateMapCache queryAdd).canEnter queryAdd p = w.canEnter queryAdd p := by
  simp only [canEnter, updateMapCache]

theorem updateMapCache_coherent : (w.updateMapCache queryAdd).Coherent queryAdd := by
  rw [coherent_iff]
  intro dy dx hdy hdx _ hon
  have hnear : (w.updateMapCache queryAdd).near dy dx = w.near dy dx := by
    simp only [near, updateMapCache]
  have hon : w.OnMap dy dx := by simpa only [OnMap, updateMapCache] using hon
  rw [hnear, canEnter_updateMapCache]
  exact (updateMapCache_apply queryAdd _ hdy hdx).1 hon

theorem canEnter_changeTile {newPos p : Position} (hold : p ≠ w.pos) (hnew : p ≠ newPos) :
    (w.changeTile newPos).canEnter queryAdd p = w.canEnter queryAdd p := by
  simp only [canEnter, changeTile, Function.update_of_ne hnew, Function.update_of_ne hold]

/-- A square on the map at an offset is where its coordinates say. -/
theorem near_eq {dy dx : Int} (hon : w.OnMap dy dx) :
    (w.near dy dx).y.toNat = w.pos.y.toNat + dy ∧ (w.near dy dx).x.toNat = w.pos.x.toNat + dx ∧
      (w.near dy dx).z = w.pos.z :=
  ⟨toCoordinate_toNat hon.1, toCoordinate_toNat hon.2, rfl⟩

theorem position_ext {p q : Position} (hy : p.y.toNat = q.y.toNat) (hx : p.x.toNat = q.x.toNat)
    (hz : p.z = q.z) : p = q := by
  cases p
  cases q
  cases UInt16.toNat_inj.mp hy
  cases UInt16.toNat_inj.mp hx
  cases hz
  rfl

/-- A move by one square that is not to the south-east or the south-west. -/
theorem move_coherent (h : w.Coherent queryAdd) {newPos : Position} (hz : newPos.z = w.pos.z)
    {ey ex : Int} (hey : -1 ≤ ey ∧ ey ≤ 1) (hex : -1 ≤ ex ∧ ex ≤ 1)
    (hy : (newPos.y.toNat : Int) = w.pos.y.toNat + ey)
    (hx : (newPos.x.toNat : Int) = w.pos.x.toNat + ex) (hdiag : ey = 1 → ex = 0) :
    (w.moveCreature queryAdd newPos false).Coherent queryAdd := by
  rw [coherent_iff] at h ⊢
  intro dy dx hdy hdx hne hon
  obtain ⟨hmapy, hmapx⟩ := hon
  let v := w.changeTile newPos
  have hvpos : v.pos = newPos := rfl
  have hmove : w.moveCreature queryAdd newPos false =
      { v with
        localMapCache := v.updateTileCacheAt queryAdd w.pos
          (v.moveColumns queryAdd v.pos w.pos
            (v.moveRows queryAdd v.pos w.pos v.localMapCache)) } := by
    rw [moveCreature, onCreatureMove, if_neg]
    · rfl
    · simp only [Bool.false_eq_true, hz, ne_eq, not_true_eq_false, or_self, not_false_eq_true]
  rw [hmove] at hmapy hmapx ⊢
  have honv : v.OnMap dy dx := ⟨hmapy, hmapx⟩
  obtain ⟨hny, hnx, hnz⟩ := near_eq honv
  rw [hvpos] at hny hnx
  show v.updateTileCacheAt queryAdd w.pos _ _ _ = v.canEnter queryAdd (v.near dy dx)
  -- the square that was left is asked for last
  have hlast : ∀ c, v.updateTileCacheAt queryAdd w.pos c (11 + dy).toNat (11 + dx).toNat =
      if dy = -ey ∧ dx = -ex then v.canEnter queryAdd w.pos
      else c (11 + dy).toNat (11 + dx).toNat := by
    intro c
    have hoffy : getOffset w.pos.y v.pos.y = -ey := by rw [getOffset, hvpos]; omega
    have hoffx : getOffset w.pos.x v.pos.x = -ex := by rw [getOffset, hvpos]; omega
    rw [updateTileCacheAt, if_pos (by rw [hvpos, hz]), hoffy, hoffx,
      updateTileCache_apply (by omega) (by omega), setCell_apply]
    by_cases hd : dy = -ey ∧ dx = -ex
    · rw [if_pos hd, if_pos (by omega)]
    · rw [if_neg hd, if_neg (by omega)]
  rw [hlast]
  by_cases hd : dy = -ey ∧ dx = -ex
  · have hold : v.near dy dx = w.pos := position_ext (by omega) (by omega) hz
    rw [if_pos hd, hold]
  rw [if_neg hd, moveColumns_apply hey hex (hvpos ▸ hy) (hvpos ▸ hx) _ hdy hdx]
  by_cases hcol : -11 ≤ dx + ex ∧ dx + ex ≤ 11
  swap
  · rw [if_neg hcol]
  rw [if_pos hcol]
  by_cases hrow : -11 ≤ dy + ey ∧ dy + ey ≤ 11
  swap
  · -- a row that came into sight, which is not shifted sideways
    have hx' : (if ey ≠ 0 ∧ dy = -11 then (11 + dx).toNat else (11 + (dx + ex)).toNat) =
        (11 + dx).toNat := by
      by_cases hs : ey ≠ 0 ∧ dy = -11
      · rw [if_pos hs]
      · rw [if_neg hs]
        have := hdiag (by omega)
        omega
    rw [hx', moveRows_apply hey (hvpos ▸ hy) _ hdy hdx, if_neg hrow]
  · have hx' : (if ey ≠ 0 ∧ dy = -11 then (11 + dx).toNat else (11 + (dx + ex)).toNat) =
        (11 + (dx + ex)).toNat := by
      by_cases hs : ey ≠ 0 ∧ dy = -11
      · have := hdiag (by omega)
        rw [if_pos hs]
        omega
      · rw [if_neg hs]
    rw [hx', moveRows_apply hey (hvpos ▸ hy) _ hdy hcol, if_pos hrow]
    -- the cell was about the same square before
    have honw : w.OnMap (dy + ey) (dx + ex) := by
      rw [hvpos] at hmapy hmapx
      exact ⟨by omega, by omega⟩
    obtain ⟨hwy, hwx, hwz⟩ := near_eq honw
    have hsame : v.near dy dx = w.near (dy + ey) (dx + ex) :=
      position_ext (by omega) (by omega) hz
    have hne_old : w.near (dy + ey) (dx + ex) ≠ w.pos := fun heq => hd (by
      rw [heq] at hwy hwx
      omega)
    have hne_new : w.near (dy + ey) (dx + ex) ≠ newPos := fun heq => hne (by
      rw [heq] at hwy hwx
      omega)
    rw [hsame, canEnter_changeTile hne_old hne_new]
    exact h _ _ hrow hcol (by omega) honw

/-- What path finding is told is what it would be told after a full recomputation. -/
theorem Coherent.getWalkCache (h : w.Coherent queryAdd) (pos : Position) :
    w.getWalkCache pos = (w.updateMapCache queryAdd).getWalkCache pos := by
  have hpos : (w.updateMapCache queryAdd).pos = w.pos := by simp only [updateMapCache]
  rw [Walker.getWalkCache, Walker.getWalkCache, hpos]
  split
  · rfl
  split
  · rfl
  · next hz hne =>
      simp only
      split
      · next hin =>
          simp only [maxWalkCache] at hin
          have hoff : ¬ ((11 + getOffset pos.y w.pos.y).toNat = 11 ∧
              (11 + getOffset pos.x w.pos.x).toNat = 11) := by
            rintro ⟨hy, hx⟩
            have hy : getOffset pos.y w.pos.y = 0 := by omega
            have hx : getOffset pos.x w.pos.x = 0 := by omega
            rw [getOffset] at hy hx
            exact hne (position_ext (by omega) (by omega) (Decidable.not_not.mp hz).symm)
          have hcell := h _ _ (by simp only [mapWalkSize]; omega)
            (by simp only [mapWalkSize]; omega) hoff
          exact if_congr (Bool.eq_iff_iff.mp hcell) (Eq.refl 1) (Eq.refl 0)
      · exact Eq.refl 2

/-! ## Runs -/

/-- `Map::moveCreature` calls it a teleport when the tiles are not next to each other on
one floor. -/
def CanMove (w : Walker τ) (newPos : Position) (teleport : Bool) : Prop :=
  (w.tile newPos).isSome ∧ (teleport = false →
    getDistance w.pos.x newPos.x ≤ 1 ∧ getDistance w.pos.y newPos.y ≤ 1 ∧ newPos.z = w.pos.z)

def SouthDiagonal (w : Walker τ) (newPos : Position) : Prop :=
  w.pos.y < newPos.y ∧ w.pos.x ≠ newPos.x

/-- States of a creature that made no step to the south-east or south-west since all
squares were asked for. -/
inductive Run (queryAdd : τ → List Nat → Bool) : Walker τ → Prop where
  | load (w : Walker τ) : Run queryAdd (w.updateMapCache queryAdd)
  | recompute (w : Walker τ) (newPos : Position) (teleport : Bool)
      (hmove : w.CanMove newPos teleport) (hfar : teleport ∨ w.pos.z ≠ newPos.z) :
      Run queryAdd (w.moveCreature queryAdd newPos teleport)
  | move {w : Walker τ} (hrun : Run queryAdd w) (newPos : Position)
      (hmove : w.CanMove newPos false) (hdiag : ¬ w.SouthDiagonal newPos) :
      Run queryAdd (w.moveCreature queryAdd newPos false)

theorem walk_cache_coherent (h : Run queryAdd w) : w.Coherent queryAdd := by
  induction h with
  | load w => exact updateMapCache_coherent
  | recompute w newPos teleport hmove hfar =>
      rw [moveCreature, onCreatureMove, if_pos hfar]
      exact updateMapCache_coherent
  | @move w hrun newPos hmove hdiag ih =>
      obtain ⟨hdx, hdy, hz⟩ := hmove.2 rfl
      simp only [getDistance, getOffset] at hdx hdy
      obtain ⟨ey, hey⟩ : ∃ ey : Int, ey = newPos.y.toNat - w.pos.y.toNat := ⟨_, rfl⟩
      obtain ⟨ex, hex⟩ : ∃ ex : Int, ex = newPos.x.toNat - w.pos.x.toNat := ⟨_, rfl⟩
      have hstraight : ey = 1 → ex = 0 := by
        intro hsouth
        by_contra hne
        refine hdiag ⟨UInt16.lt_iff_toNat_lt.mpr (by omega), fun heq => hne ?_⟩
        rw [heq] at hex
        omega
      exact move_coherent ih hz (by omega) (by omega) (by omega) (by omega) hstraight

/-- A creature stands on the square at (100, 100), another one at (106, 112). -/
def twoCreatures : Walker Unit where
  self := 0
  tile := fun p => some ⟨(), if p = ⟨100, 100, 7⟩ then [0] else if p = ⟨106, 112, 7⟩ then [1] else []⟩
  pos := ⟨100, 100, 7⟩
  localMapCache := fun _ _ => false

/-- No creature may be there already. -/
def unoccupied (_ : Unit) (creatures : List Nat) : Bool := creatures.isEmpty

def stepTo (newPos : Position) : Walker Unit :=
  (twoCreatures.updateMapCache unoccupied).moveCreature unoccupied newPos false

/-- Teleported to (100, 101), the creature goes north-west. -/
theorem walk_cache_coherent_two_steps :
    (((twoCreatures.moveCreature unoccupied ⟨100, 101, 7⟩ true).moveCreature unoccupied
      ⟨99, 100, 7⟩ false).Coherent unoccupied) := by
  refine walk_cache_coherent (.move (.recompute _ _ _ ⟨rfl, fun h => by cases h⟩ (.inl rfl)) _
    ⟨rfl, fun _ => by decide +kernel⟩ fun h => absurd h.1 (by decide +kernel))

/-- After a step to the north the cell of the creature's own square still says that it
could go there, and after one to the south-east the last row is shifted once too often. -/
theorem walk_cache_differs :
    ((stepTo ⟨100, 99, 7⟩).localMapCache 11 11 = true ∧
      ((stepTo ⟨100, 99, 7⟩).updateMapCache unoccupied).localMapCache 11 11 = false) ∧
      (stepTo ⟨101, 101, 7⟩).localMapCache 22 16 = true ∧
        ((stepTo ⟨101, 101, 7⟩).updateMapCache unoccupied).localMapCache 22 16 = false := by
  decide +kernel

end Walker

end WalkCache

end Bruxo
