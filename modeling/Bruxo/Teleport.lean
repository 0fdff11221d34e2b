import Bruxo.ItemValue

/-!
# Teleports

`Teleport::addThing` (`teleport.cpp`), with what it goes round with: `Game::internalMoveItem`
(`game.cpp`) with its notifications and `Tile::postAddNotification` (`tile.cpp`). A teleport
gets what is put on its tile, and what it moves is put on another tile. The functions are given a
bound on how deep they call each other; they return `none` where it is not enough.

The tiles, their flags and their teleports are those of a map and stay as they are. Of a creature
only its tile is kept. Scripts are left out, and so are trash holders and mailboxes, which a
tile with a teleport does not ask.
-/

namespace Bruxo

structure TeleportTile where
  flags : TileFlags
  /-- where the teleport on the tile leads to, if there is one -/
  destPos : Option Position

/-- The tiles that there are. -/
structure TeleportMap where
  tiles : List (Position × TeleportTile)

/-- Why a thing is left where it is. -/
inductive Stop where
  | noTeleport
  /-- the teleport leads to no tile -/
  | noTile
  | possibleLoop
  /-- the item lies on top where it is to go -/
  | ignored
  /-- the move does not fit where it leads to -/
  | refused (ret : ReturnValue)
  /-- the item cannot be taken away -/
  | notRemoved (ret : ReturnValue)
  /-- a null pointer is followed -/
  | nullItem

/-- What a thing may come to rest for: its tile has no teleport, or one to a missing tile or to
a tile that refuses the thing. -/
def Stop.settled : Stop → Bool
  | .noTeleport | .noTile | .refused _ => true
  | .possibleLoop | .ignored | .notRemoved _ | .nullItem => false

/-- An item that has come to rest. -/
structure Rest where
  pos : Position
  item : ThingId
  why : Stop

/-- What is left of a call of `Teleport::addThing` for an item. -/
structure Passed where
  world : World
  /-- why the item was not moved, unless it was -/
  stop : Option Stop
  /-- what has been moved, where it is now -/
  rests : List Rest

/-- A `postAddNotification` of the tile at a position. -/
abbrev Notify := World → Position → ThingId → Option (World × List Rest)

namespace TeleportMap

/-! ## Moving an item -/

section Moving

variable (env : Env) (notify : Notify)

/-- `postAddNotification` for an item, if there is one and it is found. -/
def notified (w : World) (c : Cylinder) (item : Option ThingId) : Option (World × List Rest) :=
  match c, item with
  | .tile pos, some i =>
      if w.getThingIndex env (.tile pos) i ≠ -1 then notify w pos i else some (w, [])
  | _, _ => some (w, [])

/-- `internalMoveItem` from `queryMaxCount` on. -/
def moveToPlace (w : World) (fromCylinder : Cylinder) (item : ThingId) (count : Nat)
    (toCylinder : Cylinder) (index : Int) (toItem : Option ThingId) (flags : CylinderFlags) :
    Option Passed :=
  let (maxQueryCount, retMaxCount) := w.queryMaxCount env toCylinder index item count flags
  if retMaxCount ≠ .noError ∧ maxQueryCount = 0 then some ⟨w, some (.refused retMaxCount), []⟩
  else
    let stackable := (w.typeOf env item).stackable
    let m := if stackable then min count maxQueryCount else maxQueryCount
    let ret := w.queryRemove env fromCylinder item m flags false
    if ret ≠ .noError then some ⟨w, some (.notRemoved ret), []⟩
    else
      let (moved, moveItem) := w.transfer env fromCylinder toCylinder index item toItem m
      let updateItem :=
        if stackable ∧ (w.removeThing env fromCylinder item m).equals item toItem then toItem
        else none
      (notified env notify moved toCylinder moveItem).bind fun r =>
        (notified env notify r.1 toCylinder updateItem).map fun r' =>
          ⟨if stackable ∧ maxQueryCount < count then r'.1 else r'.1.startDecaying moveItem, none,
            r.2 ++ r'.2⟩

/-- `internalMoveItem` after `RETURNVALUE_NEEDEXCHANGE`. -/
def exchange (w : World) (fromCylinder : Cylinder) (item : ThingId) (count : Nat)
    (toCylinder : Cylinder) (index : Int) (toItem : ThingId) (flags : CylinderFlags) :
    Option Passed :=
  let toCount := w.count toItem
  let ret := w.queryAdd env fromCylinder (w.getThingIndex env fromCylinder item) toItem toCount {}
    false
  if ret ≠ .noError then some ⟨w, some (.refused ret), []⟩
  else
    let (maxExchangeQueryCount, retExchangeMaxCount) :=
      w.queryMaxCount env fromCylinder indexWhereever toItem toCount {}
    if retExchangeMaxCount ≠ .noError ∧ maxExchangeQueryCount = 0 then
      some ⟨w, some (.refused retExchangeMaxCount), []⟩
    else if w.queryRemove env toCylinder toItem toCount flags false = .noError then
      let exchanged :=
        (w.removeThing env toCylinder toItem toCount).addThingAnywhere env fromCylinder toItem
      (notified env notify exchanged fromCylinder (some toItem)).bind fun r =>
        let ret := r.1.queryAdd env toCylinder index item count flags false
        if ret ≠ .noError then some ⟨r.1, some (.refused ret), r.2⟩
        else
          (moveToPlace env notify r.1 fromCylinder item count toCylinder index none flags).map
            fun r' => { r' with rests := r.2 ++ r'.rests }
    else moveToPlace env notify w fromCylinder item count toCylinder index (some toItem) flags

def internalMoveItem (w : World) (fromCylinder toCylinder : Cylinder) (index : Int)
    (item : ThingId) (count : Nat) (flags : CylinderFlags) : Option Passed :=
  let d := w.redirect env item 16 ⟨toCylinder, index, none, flags⟩
  if d.destItem = some item then some ⟨w, some .ignored, []⟩
  else
    let ret := w.queryAdd env d.cylinder d.index item count d.flags false
    if ret = .needExchange then
      match d.destItem with
      | none => some ⟨w, some .nullItem, []⟩
      | some toItem =>
          exchange env notify w fromCylinder item count d.cylinder d.index toItem d.flags
    else if ret ≠ .noError then some ⟨w, some (.refused ret), []⟩
    else moveToPlace env notify w fromCylinder item count d.cylinder d.index d.destItem d.flags

end Moving

/-! ## Without notifications -/

section Quiet

variable {env : Env} {w : World} {c c' : Cylinder} {i : ThingId} {count : Nat} {index : Int}
  {o : Option ThingId} {flags : CylinderFlags}

/-- The tiles make nothing of what they get. -/
def quiet : Notify := fun w _ _ => some (w, [])

/-- What is left is the world that the function without notifications ends with. -/
inductive Agrees : World.MoveOutcome → Passed → Prop
  | done {ret : ReturnValue} {w : World} {stop : Option Stop} : Agrees (.done ret w) ⟨w, stop, []⟩
  | nullItem {w : World} : Agrees .nullItem ⟨w, some .nullItem, []⟩

theorem notified_quiet : notified env quiet w c o = some (w, []) := by
  cases c with
  | tile pos =>
      cases o with
      | none => rfl
      | some i => exact ite_self _
  | container k => rfl
  | player p => rfl

theorem moveToPlace_quiet (hquiet : ∀ v c, World.passesOn env v c = false) :
    ∃ r, moveToPlace env quiet w c i count c' index o flags = some r ∧
      Agrees (w.moveToPlace env c i count c' index o flags false none) r := by
  unfold moveToPlace World.moveToPlace
  generalize w.queryMaxCount env c' index i count flags = q
  obtain ⟨maxQueryCount, retMaxCount⟩ := q
  dsimp only
  generalize (if (w.typeOf env i).stackable = true then min count maxQueryCount
    else maxQueryCount) = k
  by_cases hfull : retMaxCount ≠ .noError ∧ maxQueryCount = 0
  · rw [if_pos hfull, if_pos hfull]
    exact ⟨_, rfl, .done⟩
  rw [if_neg hfull, if_neg hfull]
  by_cases hremove : w.queryRemove env c i k flags false ≠ .noError
  · rw [if_pos hremove, if_pos hremove]
    exact ⟨_, rfl, .done⟩
  rw [if_neg hremove, if_neg hremove]
  simp only [notified_quiet, Option.bind_some, Option.map_some, hquiet, Option.any_none,
    Bool.false_eq_true, if_false]
  refine ⟨_, rfl, ?_⟩
  split
  · exact .done
  · exact .done

/-- Where nothing is passed on, it is the function without notifications. -/
theorem internalMoveItem_quiet (hquiet : ∀ v c, World.passesOn env v c = false) :
    ∃ r, internalMoveItem env quiet w c c' index i count flags = some r ∧
      Agrees (w.internalMoveItem env c c' index i count flags false none) r := by
  unfold internalMoveItem World.internalMoveItem
  generalize w.redirect env i 16 ⟨c', index, none, flags⟩ = d
  dsimp only
  split
  · exact ⟨_, rfl, .done⟩
  split
  · cases hto : d.destItem with
    | none => exact ⟨_, rfl, .nullItem⟩
    | some toItem =>
        unfold exchange World.exchange
        dsimp only
        by_cases hadd :
            w.queryAdd env c (w.getThingIndex env c i) toItem (w.count toItem) {} false ≠ .noError
        · simp only [if_pos hadd, reduceCtorEq, false_and, if_false]
          exact ⟨_, rfl, .done⟩
        rw [if_neg hadd, if_neg hadd]
        generalize w.queryMaxCount env c indexWhereever toItem (w.count toItem) {} = q
        obtain ⟨maxExchangeQueryCount, retExchangeMaxCount⟩ := q
        dsimp only
        by_cases hfull : retExchangeMaxCount ≠ .noError ∧ maxExchangeQueryCount = 0
        · simp only [if_pos hfull, reduceCtorEq, false_and, if_false, if_pos hfull.1]
          exact ⟨_, rfl, .done⟩
        rw [if_neg hfull, if_neg hfull]
        by_cases hremove :
            w.queryRemove env d.cylinder toItem (w.count toItem) d.flags false = .noError
        · simp only [if_pos hremove, hquiet, Bool.false_eq_true, and_false, if_false,
            notified_quiet, Option.bind_some]
          generalize (w.removeThing env d.cylinder toItem (w.count toItem)).addThingAnywhere env c
            toItem = v
          by_cases hagain : v.queryAdd env d.cylinder d.index i count d.flags false ≠ .noError
          · rw [if_pos hagain, if_pos hagain]
            exact ⟨_, rfl, .done⟩
          · rw [if_neg hagain, if_neg hagain]
            obtain ⟨r, hr, hagrees⟩ : ∃ r, moveToPlace env quiet v c i count d.cylinder d.index none
                d.flags = some r ∧
                Agrees (v.moveToPlace env c i count d.cylinder d.index none d.flags false none) r :=
              moveToPlace_quiet hquiet
            rw [hr]
            refine ⟨_, rfl, ?_⟩
            generalize v.moveToPlace env c i count d.cylinder d.index none d.flags false none = out
              at hagrees ⊢
            cases hagrees with
            | done => exact .done
            | nullItem => exact .nullItem
        · simp only [if_neg hremove, reduceCtorEq, false_and, if_false, ne_eq, not_true_eq_false]
          exact moveToPlace_quiet hquiet
  split
  · exact ⟨_, rfl, .done⟩
  · exact moveToPlace_quiet hquiet

end Quiet

/-! ## The teleport -/

section Adding

variable (m : TeleportMap) (env : Env)

def getTile (pos : Position) : Option TeleportTile := m.tiles.lookup pos

def getTeleportItem (pos : Position) : Option Position := (m.getTile pos).bind (·.destPos)

/-- The `while (true)` of `Teleport::addThing` at a teleport to `nextPos`: whether it warns. -/
def warns : Nat → List Position → Position → Option Bool
  | 0, _, _ => none
  | n + 1, lastPositions, nextPos =>
      if nextPos ∈ lastPositions then some true
      else
        match m.getTile nextPos with
        | none => some false
        | some tile =>
            match tile.destPos with
            | none => some false
            | some destPos => warns n (lastPositions ++ [nextPos]) destPos

/-- Whether the teleport at `pos` lets nothing through because of a possible loop. -/
def possibleLoop (pos : Position) (destTile : TeleportTile) : Option Bool :=
  match destTile.destPos with
  | none => some false
  | some nextPos => m.warns (m.tiles.length + 1) [pos] nextPos

/-- `addThing` of the teleport at `pos`, for an item. -/
def addThing (notify : Notify) (w : World) (pos destPos : Position) (item : ThingId) :
    Option Passed :=
  match m.getTile destPos with
  | none => some ⟨w, some .noTile, []⟩
  | some destTile =>
      (m.possibleLoop pos destTile).bind fun loop =>
        if loop then some ⟨w, some .possibleLoop, []⟩
        else
          internalMoveItem env notify w (.tile pos) (.tile destPos) indexWhereever item
            (w.count item) { noLimit := true }

/-- An item that is still on its tile has come to rest there. -/
def resting (w : World) (pos : Position) (item : ThingId) (stop : Option Stop) : List Rest :=
  match stop with
  | none => []
  | some why => if w.isHolding env (.tile pos) item then [⟨pos, item, why⟩] else []

/-- `postAddNotification` of a tile, for an item. -/
def postAddNotification : Nat → Notify
  | 0, _, _, _ => none
  | n + 1, w, pos, item =>
      match m.getTeleportItem pos with
      | none => some (w, resting env w pos item (some .noTeleport))
      | some destPos =>
          (m.addThing env (postAddNotification n) w pos destPos item).map fun r =>
            (r.world, resting env r.world pos item r.stop ++ r.rests)

/-- Where a creature has come to rest. -/
structure Arrival where
  pos : Position
  why : Stop

/-- `addThing` of the teleport at `pos`, for a creature: why it was not moved, or where it is. -/
def addCreature (notify : Position → Option Arrival) (pos destPos : Position) :
    Option (Stop ⊕ Arrival) :=
  match m.getTile destPos with
  | none => some (.inl .noTile)
  | some destTile =>
      (m.possibleLoop pos destTile).bind fun loop =>
        if loop then some (.inl .possibleLoop) else (notify destPos).map .inr

/-- `postAddNotification` of a tile, for a creature. -/
def creatureNotification : Nat → Position → Option Arrival
  | 0, _ => none
  | n + 1, pos =>
      match m.getTeleportItem pos with
      | none => some ⟨pos, .noTeleport⟩
      | some destPos =>
          (m.addCreature (creatureNotification n) pos destPos).map fun r => r.elim (⟨pos, ·⟩) id

end Adding

/-! ## Enough depth is enough -/

section Depth

variable {m : TeleportMap} {env : Env} {f g : Notify} {w : World} {c c' : Cylinder} {i : ThingId}
  {count n k : Nat} {index : Int} {o : Option ThingId} {flags : CylinderFlags} {r : Passed}

/-- What `f` returns `g` returns as well. -/
def Below (f g : Notify) : Prop := ∀ w pos i r, f w pos i = some r → g w pos i = some r

theorem notified_below (h : Below f g) {r : World × List Rest}
    (hr : notified env f w c o = some r) : notified env g w c o = some r := by
  cases c with
  | tile pos =>
      cases o with
      | none => exact hr
      | some i =>
          simp only [notified] at hr ⊢
          split at hr
          · next hfound =>
              rw [if_pos hfound]
              exact h _ _ _ _ hr
          · next hfound =>
              rw [if_neg hfound]
              exact hr
  | container k => exact hr
  | player p => exact hr

theorem moveToPlace_below (h : Below f g)
    (hr : moveToPlace env f w c i count c' index o flags = some r) :
    moveToPlace env g w c i count c' index o flags = some r := by
  unfold moveToPlace at hr ⊢
  generalize w.queryMaxCount env c' index i count flags = q at hr ⊢
  obtain ⟨maxQueryCount, retMaxCount⟩ := q
  dsimp only at hr ⊢
  generalize (if (w.typeOf env i).stackable = true then min count maxQueryCount
    else maxQueryCount) = k at hr ⊢
  split at hr
  · next hfull =>
      rw [if_pos hfull]
      exact hr
  next hfull =>
  rw [if_neg hfull]
  split at hr
  · next hremove =>
      rw [if_pos hremove]
      exact hr
  next hremove =>
  rw [if_neg hremove]
  generalize w.transfer env c c' index i o k = t at hr ⊢
  obtain ⟨moved, moveItem⟩ := t
  obtain ⟨a, ha, hr⟩ := Option.bind_eq_some_iff.mp hr
  obtain ⟨b, hb, hr⟩ := Option.map_eq_some_iff.mp hr
  exact Option.bind_eq_some_iff.mpr
    ⟨a, notified_below h ha, Option.map_eq_some_iff.mpr ⟨b, notified_below h hb, hr⟩⟩

theorem exchange_below (h : Below f g) {toItem : ThingId}
    (hr : exchange env f w c i count c' index toItem flags = some r) :
    exchange env g w c i count c' index toItem flags = some r := by
  unfold exchange at hr ⊢
  dsimp only at hr ⊢
  split at hr
  · next hadd =>
      rw [if_pos hadd]
      exact hr
  next hadd =>
  rw [if_neg hadd]
  generalize w.queryMaxCount env c indexWhereever toItem (w.count toItem) {} = q at hr ⊢
  obtain ⟨maxExchangeQueryCount, retExchangeMaxCount⟩ := q
  dsimp only at hr ⊢
  split at hr
  · next hfull =>
      rw [if_pos hfull]
      exact hr
  next hfull =>
  rw [if_neg hfull]
  split at hr
  · next hremove =>
      rw [if_pos hremove]
      obtain ⟨a, ha, hr⟩ := Option.bind_eq_some_iff.mp hr
      refine Option.bind_eq_some_iff.mpr ⟨a, notified_below h ha, ?_⟩
      split at hr
      · next hagain =>
          rw [if_pos hagain]
          exact hr
      · next hagain =>
          rw [if_neg hagain]
          obtain ⟨b, hb, hr⟩ := Option.map_eq_some_iff.mp hr
          exact Option.map_eq_some_iff.mpr ⟨b, moveToPlace_below h hb, hr⟩
  · next hremove =>
      rw [if_neg hremove]
      exact moveToPlace_below h hr

theorem internalMoveItem_below (h : Below f g)
    (hr : internalMoveItem env f w c c' index i count flags = some r) :
    internalMoveItem env g w c c' index i count flags = some r := by
  unfold internalMoveItem at hr ⊢
  generalize w.redirect env i 16 ⟨c', index, none, flags⟩ = d at hr ⊢
  dsimp only at hr ⊢
  split at hr
  · next hself =>
      rw [if_pos hself]
      exact hr
  next hself =>
  rw [if_neg hself]
  split at hr
  · next hneed =>
      rw [if_pos hneed]
      cases hto : d.destItem with
      | none =>
          rw [hto] at hr
          exact hr
      | some toItem =>
          rw [hto] at hr
          exact exchange_below h hr
  next hneed =>
  rw [if_neg hneed]
  split at hr
  · next hadd =>
      rw [if_pos hadd]
      exact hr
  · next hadd =>
      rw [if_neg hadd]
      exact moveToPlace_below h hr

theorem addThing_below (h : Below f g) {pos destPos : Position}
    (hr : m.addThing env f w pos destPos i = some r) :
    m.addThing env g w pos destPos i = some r := by
  unfold addThing at hr ⊢
  cases hdest : m.getTile destPos with
  | none =>
      rw [hdest] at hr
      exact hr
  | some destTile =>
      rw [hdest] at hr
      obtain ⟨loop, hloop, hr⟩ := Option.bind_eq_some_iff.mp hr
      refine Option.bind_eq_some_iff.mpr ⟨loop, hloop, ?_⟩
      cases loop with
      | true => exact hr
      | false => exact internalMoveItem_below h hr

theorem postAddNotification_succ (n : Nat) :
    Below (m.postAddNotification env n) (m.postAddNotification env (n + 1)) := by
  induction n with
  | zero =>
      intro w pos i r hr
      cases hr
  | succ n ih =>
      intro w pos i r hr
      rw [postAddNotification] at hr ⊢
      cases hteleport : m.getTeleportItem pos with
      | none =>
          rw [hteleport] at hr
          exact hr
      | some destPos =>
          rw [hteleport] at hr
          obtain ⟨a, ha, hr⟩ := Option.map_eq_some_iff.mp hr
          exact Option.map_eq_some_iff.mpr ⟨a, addThing_below ih ha, hr⟩

theorem postAddNotification_below (hle : n ≤ k) :
    Below (m.postAddNotification env n) (m.postAddNotification env k) := by
  induction hle with
  | refl => exact fun _ _ _ _ hr => hr
  | step _ ih => exact fun w pos i r hr => postAddNotification_succ _ w pos i r (ih w pos i r hr)

end Depth

/-! ## The loop check -/

section Loop

variable {m : TeleportMap} {pos nextPos destPos : Position} {destTile : TeleportTile} {n k j : Nat}
  {l : List Position}

theorem mem_of_getTile (h : m.getTile pos = some destTile) : pos ∈ m.tiles.map Prod.fst := by
  obtain ⟨l₁, l₂, heq, -⟩ := List.lookup_eq_some_iff.mp h
  rw [heq]
  exact List.mem_map.mpr ⟨(pos, destTile), List.mem_append_right _ List.mem_cons_self, rfl⟩

/-- The loop ends, since it does not look at a tile twice. -/
theorem warns_isSome (hnodup : l.Nodup) (hsub : l ⊆ m.tiles.map Prod.fst)
    (hn : m.tiles.length < n + l.length) : (m.warns n (pos :: l) nextPos).isSome := by
  induction n generalizing l nextPos with
  | zero =>
      have hle := (hnodup.subperm hsub).length_le
      rw [List.length_map] at hle
      omega
  | succ n ih =>
      rw [warns]
      by_cases hseen : nextPos ∈ pos :: l
      · rw [if_pos hseen]
        rfl
      rw [if_neg hseen]
      cases htile : m.getTile nextPos with
      | none => rfl
      | some tile =>
          cases hdest : tile.destPos with
          | none =>
              simp only [hdest]
              rfl
          | some destPos =>
              simp only [hdest]
              have hnew : nextPos ∉ l := fun hmem => hseen (List.mem_cons_of_mem _ hmem)
              refine ih (l := l ++ [nextPos]) ?_ ?_ ?_
              · rw [← List.concat_eq_append]
                exact hnodup.concat hnew
              · exact List.append_subset.mpr
                  ⟨hsub, List.cons_subset.mpr ⟨mem_of_getTile htile, List.nil_subset _⟩⟩
              · rw [List.length_append, List.length_singleton]
                omega

theorem possibleLoop_isSome (m : TeleportMap) (pos : Position) (destTile : TeleportTile) :
    ∃ loop, m.possibleLoop pos destTile = some loop := by
  unfold possibleLoop
  cases destTile.destPos with
  | none => exact ⟨false, rfl⟩
  | some nextPos =>
      exact Option.isSome_iff_exists.mp
        (warns_isSome List.nodup_nil (List.nil_subset _) (Nat.lt_succ_self _))

/-- The teleports lead one to the next, as many times, and no further. -/
def Leads (m : TeleportMap) : Nat → Position → Prop
  | 0, pos => m.getTeleportItem pos = none
  | k + 1, pos => ∃ destPos, m.getTeleportItem pos = some destPos ∧ m.Leads k destPos

theorem Leads.unique (h : m.Leads k pos) (h' : m.Leads j pos) : k = j := by
  induction k generalizing j pos with
  | zero =>
      cases j with
      | zero => rfl
      | succ j =>
          obtain ⟨destPos, hdest, -⟩ := h'
          cases (show m.getTeleportItem pos = none from h).symm.trans hdest
  | succ k ih =>
      obtain ⟨destPos, hdest, hleads⟩ := h
      cases j with
      | zero => cases (show m.getTeleportItem pos = none from h').symm.trans hdest
      | succ j =>
          obtain ⟨destPos', hdest', hleads'⟩ := h'
          obtain rfl := Option.some.inj (hdest.symm.trans hdest')
          rw [ih hleads hleads']

theorem getTeleportItem_of_getTile (h : m.getTile pos = some destTile) :
    m.getTeleportItem pos = destTile.destPos := by
  rw [getTeleportItem, h, Option.bind_some]

theorem exists_leads_of_warns (h : m.warns n l nextPos = some false) : ∃ k, m.Leads k nextPos := by
  induction n generalizing l nextPos with
  | zero => cases h
  | succ n ih =>
      rw [warns] at h
      split at h
      · cases h
      cases htile : m.getTile nextPos with
      | none => exact ⟨0, by rw [Leads, getTeleportItem, htile, Option.bind_none]⟩
      | some tile =>
          cases hdest : tile.destPos with
          | none => exact ⟨0, by rw [Leads, getTeleportItem_of_getTile htile, hdest]⟩
          | some destPos =>
              simp only [htile, hdest] at h
              obtain ⟨k, hk⟩ := ih h
              exact ⟨k + 1, destPos, by rw [getTeleportItem_of_getTile htile, hdest], hk⟩

/-- From further up along the teleports there is nothing to warn of. -/
theorem warns_ne_true (hleads : m.Leads k nextPos)
    (hup : ∀ x ∈ l, ∃ j, k < j ∧ m.Leads j x) : m.warns n l nextPos ≠ some true := by
  induction n generalizing k l nextPos with
  | zero => rintro ⟨⟩
  | succ n ih =>
      have hnew : nextPos ∉ l := fun hmem => by
        obtain ⟨j, hj, hleads'⟩ := hup nextPos hmem
        exact absurd (hleads.unique hleads') (Nat.ne_of_lt hj)
      rw [warns, if_neg hnew]
      cases htile : m.getTile nextPos with
      | none => rintro ⟨⟩
      | some tile =>
          cases hdest : tile.destPos with
          | none =>
              simp only [hdest]
              rintro ⟨⟩
          | some destPos =>
              simp only [hdest]
              have hteleport : m.getTeleportItem nextPos = some destPos := by
                rw [getTeleportItem_of_getTile htile, hdest]
              cases k with
              | zero => cases hteleport.symm.trans hleads
              | succ k =>
                  obtain ⟨destPos', hdest', hnext⟩ := id hleads
                  obtain rfl := Option.some.inj (hteleport.symm.trans hdest')
                  refine ih hnext fun x hx => ?_
                  rcases List.mem_append.mp hx with hx | hx
                  · obtain ⟨j, hj, hleads'⟩ := hup x hx
                    exact ⟨j, Nat.lt_of_succ_lt hj, hleads'⟩
                  · obtain rfl := List.mem_singleton.mp hx
                    exact ⟨k + 1, Nat.lt_succ_self k, hleads⟩

theorem exists_leads_of_possibleLoop (hdest : m.getTile destPos = some destTile)
    (h : m.possibleLoop pos destTile = some false) : ∃ k, m.Leads k destPos := by
  unfold possibleLoop at h
  cases hnext : destTile.destPos with
  | none => exact ⟨0, by rw [Leads, getTeleportItem_of_getTile hdest, hnext]⟩
  | some nextPos =>
      simp only [hnext] at h
      obtain ⟨k, hk⟩ := exists_leads_of_warns h
      exact ⟨k + 1, nextPos, by rw [getTeleportItem_of_getTile hdest, hnext], hk⟩

theorem possibleLoop_of_leads (hteleport : m.getTeleportItem pos = some destPos)
    (hdest : m.getTile destPos = some destTile) (h : m.Leads k destPos) :
    m.possibleLoop pos destTile = some false := by
  obtain ⟨loop, hloop⟩ := possibleLoop_isSome m pos destTile
  cases loop with
  | false => exact hloop
  | true =>
      exfalso
      have hpos : m.Leads (k + 1) pos := ⟨destPos, hteleport, h⟩
      have hitem := getTeleportItem_of_getTile hdest
      unfold possibleLoop at hloop
      cases hnext : destTile.destPos with
      | none =>
          simp only [hnext] at hloop
          cases hloop
      | some nextPos =>
          simp only [hnext] at hloop
          cases k with
          | zero => cases (hitem.trans hnext).symm.trans h
          | succ k =>
              obtain ⟨nextPos', hnext', hleads⟩ := h
              obtain rfl := Option.some.inj ((hitem.trans hnext).symm.trans hnext')
              refine warns_ne_true hleads (fun x hx => ?_) hloop
              obtain rfl := List.mem_singleton.mp hx
              exact ⟨k + 2, by omega, hpos⟩

/-- What a creature comes to at the end of the teleports. -/
theorem creatureNotification_settled (h : m.Leads k pos) :
    ∃ a, m.creatureNotification (k + 1) pos = some a ∧ a.why.settled = true := by
  induction k generalizing pos with
  | zero =>
      have hnone : m.getTeleportItem pos = none := h
      exact ⟨⟨pos, .noTeleport⟩, by rw [creatureNotification, hnone], rfl⟩
  | succ k ih =>
      obtain ⟨destPos, hteleport, hleads⟩ := h
      rw [creatureNotification, hteleport]
      simp only [addCreature]
      cases hdest : m.getTile destPos with
      | none => exact ⟨⟨pos, .noTile⟩, rfl, rfl⟩
      | some destTile =>
          obtain ⟨a, ha, hsettled⟩ := ih hleads
          refine ⟨a, ?_, hsettled⟩
          simp only [possibleLoop_of_leads hteleport hdest hleads, ha]
          rfl

theorem addCreature_settled (m : TeleportMap) (pos destPos : Position) :
    ∃ n r, m.addCreature (m.creatureNotification n) pos destPos = some r ∧
      ∀ a, r = .inr a → a.why.settled = true := by
  simp only [addCreature]
  cases hdest : m.getTile destPos with
  | none => exact ⟨0, .inl .noTile, rfl, fun a ha => by cases ha⟩
  | some destTile =>
      obtain ⟨loop, hloop⟩ := possibleLoop_isSome m pos destTile
      simp only [hloop, Option.bind_some]
      cases loop with
      | true => exact ⟨0, .inl .possibleLoop, rfl, fun a ha => by cases ha⟩
      | false =>
          obtain ⟨k, hleads⟩ := exists_leads_of_possibleLoop hdest hloop
          obtain ⟨a, ha, hsettled⟩ := creatureNotification_settled hleads
          refine ⟨k + 1, .inr a, ?_, fun b hb => ?_⟩
          · rw [ha]
            rfl
          · cases hb
            exact hsettled

end Loop

end TeleportMap

end Bruxo
