import Bruxo.TeleportMoves

/-!
# Where the chains of teleports end

From a straight tile everything comes to rest, which goes back along the tiles that items are
brought to. From any other tile there is an item that does not: one that stays on top is carried
round for ever, or to the teleport with the possible loop.
-/

namespace Bruxo

namespace TeleportMap

open World Follow

variable {m : TeleportMap} {pos q destPos : Position}

/-! ## Straight tiles -/

theorem getTile_isSome_of_after {n : Nat} (hn : 0 < n) (h : after m.next n pos = some q) :
    (m.getTile q).isSome := by
  obtain ⟨k, rfl⟩ := Nat.exists_eq_succ_of_ne_zero (Nat.ne_of_gt hn)
  obtain ⟨p, -, hp⟩ := Option.bind_eq_some_iff.mp h
  obtain ⟨destPos, destTile, -, hdest, -, rfl⟩ := next_eq_some hp
  exact landing_isSome m 16 (by rw [hdest]; rfl)

theorem Straight.ends (h : m.Straight pos) : ∃ n, after m.next n pos = none := by
  have hfinite : (insert pos {p | p ∈ m.tiles.map Prod.fst}).Finite :=
    (List.finite_toSet (m.tiles.map Prod.fst)).insert pos
  refine ends_of_once hfinite h.once fun n p hp => ?_
  cases n with
  | zero =>
      cases hp
      exact Set.mem_insert pos _
  | succ n =>
      obtain ⟨tile, htile⟩ :=
        Option.isSome_iff_exists.mp (getTile_isSome_of_after (Nat.succ_pos n) hp)
      exact Set.mem_insert_of_mem pos (mem_of_getTile htile)

/-- Everything settles from the tiles that a straight tile leads to. -/
theorem Straight.settles {env : Env} (hfits : m.Fits env) (h : m.Straight pos) {n : Nat}
    (hq : after m.next n pos = some q) (hne : q ≠ pos) : m.Settles env q := by
  obtain ⟨k, hend⟩ := h.ends
  refine induction_back (P := fun p => p ≠ pos → m.Settles env p) hend (fun n p hp ih hne => ?_) hq
    hne
  have hlater : 0 < n := by
    refine Nat.pos_of_ne_zero fun hn => hne ?_
    subst hn
    exact (Option.some.inj hp).symm
  cases hnext : m.next p with
  | none =>
      exact settles_of_next_none hnext fun destPos destTile hteleport hdest =>
        h.passes n p destPos destTile hlater hp hteleport hdest
  | some c =>
      have hc : after m.next (n + 1) pos = some c := by rw [after_succ_of_eq hp, hnext]
      refine settles_of_next hfits hnext (fun heq => ?_) (ih c hnext fun heq => ?_)
      · exact h.once n (n + 1) p (Nat.lt_succ_self n) hp (heq ▸ hc)
      · exact h.once 0 (n + 1) pos (Nat.succ_pos n) rfl (heq ▸ hc)

theorem comesToRest_of_straight (h : m.Straight pos) : m.ComesToRest pos where
  creature destPos _ := addCreature_settled m pos destPos
  item env w item destPos hfits hw hitem hteleport := by
    cases hnext : m.next pos with
    | some q =>
        have hq : after m.next 1 pos = some q := hnext
        have hne : pos ≠ q := fun heq => h.once 0 1 pos Nat.one_pos rfl (heq ▸ hq)
        obtain ⟨n, r, hr, hsettled, -⟩ := addThing_settles hfits hteleport hnext hne
          (h.settles hfits hq hne.symm) hw hitem
        exact ⟨n, r, hr, hsettled.settled⟩
    | none =>
        cases hdest : m.getTile destPos with
        | none => exact ⟨0, ⟨w, some .noTile, []⟩, by simp only [addThing, hdest], by rintro _ ⟨⟩⟩
        | some destTile =>
            obtain ⟨loop, hloop⟩ := possibleLoop_isSome m pos destTile
            cases loop with
            | true =>
                refine ⟨0, ⟨w, some .possibleLoop, []⟩, ?_, by rintro _ ⟨⟩⟩
                simp only [addThing, hdest, hloop, Option.bind_some, if_true]
            | false =>
                simp only [next, hteleport, hdest, hloop, Option.bind_some, Option.some.injEq,
                  Bool.false_eq_true, if_false] at hnext
                cases hnext

/-! ## An item that stays on top -/

/-- Type 1 is a ground, type 2 can be moved and is always on top. -/
def types (id : UInt16) : ItemType :=
  { id := id
    group := if id = 1 then .ground else .none
    moveable := id = 2
    alwaysOnTop := id = 2 }

/-- Each tile has a ground, and item 0 lies on one of them, if it lies anywhere. -/
def carried (m : TeleportMap) (place : Option Position) : World where
  thing i :=
    { id := if i = 0 then 2 else 1
      data := Item.bare
      parent := if i = 0 then place.map .tile else ((m.tiles.map Prod.fst)[i - 1]?).map .tile
      isContainer := false
      itemlist := []
      maxSize := 1 }
  tile p := (m.getTile p).map fun _ =>
    { ground := some ((m.tiles.map Prod.fst).idxOf p + 1)
      topItems := if place = some p then [0] else []
      downItems := []
      creatures := [] }
  player := m.bare.player
  nextId := m.tiles.length + 1

theorem types_fits (m : TeleportMap) : m.Fits (m.env types) where
  sensible := ⟨fun _ hstack => (by cases hstack), fun _ hhangs => (by cases hhangs)⟩
  flags _ _ _ hp := congrArg (fun o => (o.map (·.flags)).getD {}) hp

section Carried

variable {place : Option Position} {c : Cylinder} {i : ThingId}

theorem carried_tile {tile : TeleportTile} (hp : m.getTile q = some tile)
    (place : Option Position) : (m.carried place).tile q = some
      { ground := some ((m.tiles.map Prod.fst).idxOf q + 1)
        topItems := if place = some q then [0] else []
        downItems := []
        creatures := [] } := by
  simp only [carried, hp, Option.map_some]

theorem carried_contents (hi : i ∈ (m.carried place).contents c) :
    ∃ p, c = .tile p ∧ p ∈ m.tiles.map Prod.fst ∧
      (i = (m.tiles.map Prod.fst).idxOf p + 1 ∨ i = 0 ∧ place = some p) := by
  cases c with
  | tile p =>
      simp only [contents] at hi
      cases hp : m.getTile p with
      | none =>
          simp only [carried, hp, Option.map_none, List.not_mem_nil] at hi
      | some tile =>
          refine ⟨p, rfl, mem_of_getTile hp, ?_⟩
          rw [carried_tile hp] at hi
          simp only [Option.toList_some, List.append_nil, List.mem_append, List.mem_singleton] at hi
          refine hi.imp_right fun htop => ?_
          split at htop
          · next hplace => exact ⟨List.mem_singleton.mp htop, hplace⟩
          · cases htop
  | container k => cases hi
  | player p =>
      obtain ⟨slot, -, hslot⟩ := List.mem_filterMap.mp hi
      cases hslot

theorem carried_typeOf (place : Option Position) (i : ThingId) :
    (m.carried place).typeOf (m.env types) i = types (if i = 0 then 2 else 1) := rfl

theorem carried_sound (m : TeleportMap) (place : Option Position) :
    m.Sound (m.env types) (m.carried place) where
  tile p := Option.isSome_map
  placed :=
    { parent := by
        intro c i hi
        obtain ⟨p, rfl, hp, rfl | ⟨rfl, hplace⟩⟩ := carried_contents hi
        · have hindex : (m.tiles.map Prod.fst)[(m.tiles.map Prod.fst).idxOf p]? = some p :=
            List.getElem?_idxOf hp
          simp only [carried, Nat.add_eq_zero_iff, Nat.one_ne_zero, and_false, if_false,
            Nat.add_sub_cancel, hindex, Option.map_some]
        · simp only [carried, if_true, hplace, Option.map_some]
      nodup := by
        intro c
        cases c with
        | tile p =>
            simp only [contents]
            cases hp : m.getTile p with
            | none => simp only [carried, hp, Option.map_none, List.nodup_nil]
            | some tile =>
                rw [carried_tile hp]
                simp only [Option.toList_some, List.append_nil]
                split
                · simp only [List.cons_append, List.nil_append, List.nodup_cons, List.mem_singleton,
                    Nat.add_eq_zero_iff, Nat.one_ne_zero, and_false, not_false_iff,
                    List.not_mem_nil, List.nodup_nil, and_self]
                · simp only [List.append_nil, List.nodup_singleton]
        | container k => exact List.nodup_nil
        | player p => exact List.nodup_nil
      fresh := by
        intro c i hi
        obtain ⟨p, rfl, hp, rfl | ⟨rfl, -⟩⟩ := carried_contents hi
        · have hlt := List.idxOf_lt_length_of_mem hp
          rw [List.length_map] at hlt
          exact Nat.succ_lt_succ hlt
        · exact Nat.succ_pos _
      blank := fun _ _ => rfl
      real := by
        intro i c hparent k hk
        subst hk
        simp only [carried] at hparent
        split at hparent
        · obtain ⟨p, -, hp⟩ := Option.map_eq_some_iff.mp hparent
          cases hp
        · obtain ⟨p, -, hp⟩ := Option.map_eq_some_iff.mp hparent
          cases hp
      sorted := by
        intro p t ht
        obtain ⟨tile, htile, rfl⟩ := Option.map_eq_some_iff.mp ht
        refine ⟨fun i hi => ?_, fun i hi => ?_, by rintro _ ⟨⟩⟩
        · cases hi
          rw [carried_typeOf, if_neg (Nat.succ_ne_zero _)]
          decide
        · dsimp only at hi
          split at hi
          · obtain rfl := List.mem_singleton.mp hi
            rfl
          · cases hi }
  sized _ _ _ hstack := by cases hstack

theorem world_ext {w w' : World} (hthing : w.thing = w'.thing) (htile : w.tile = w'.tile)
    (hplayer : w.player = w'.player) (hnext : w.nextId = w'.nextId) : w = w' := by
  cases w
  cases w'
  cases hthing
  cases htile
  cases hplayer
  cases hnext
  rfl

/-- Whatever the parent of item 0 is set to, it is the item that is on its way. -/
theorem carried_thing (place place' : Option Position) :
    Function.update (m.carried place).thing 0
      { (m.carried place).thing 0 with parent := place'.map .tile } = (m.carried place').thing := by
  funext i
  by_cases hi : i = 0
  · subst hi
    rw [Function.update_self]
    rfl
  · rw [Function.update_of_ne hi]
    simp only [carried, if_neg hi]

theorem carried_removeThing {tile : TeleportTile} (hpos : m.getTile pos = some tile) (n : Nat) :
    (m.carried (some pos)).removeThing (m.env types) (.tile pos) 0 n = m.carried none := by
  have htop : ((m.carried (some pos)).typeOf (m.env types) 0).alwaysOnTop = true := rfl
  have hground : some ((m.tiles.map Prod.fst).idxOf pos + 1) ≠ some 0 :=
    fun heq => Nat.succ_ne_zero _ (Option.some.inj heq)
  simp only [removeThing, tileRemoveThing, carried_tile hpos, if_neg hground, htop, if_true,
    List.mem_singleton]
  refine world_ext (carried_thing (some pos) none) (funext fun p => ?_) rfl rfl
  by_cases hp : p = pos
  · subst hp
    simp only [setTile, Function.update_self, carried_tile hpos, List.erase_cons_head, reduceCtorEq,
      if_false]
  · have hplace : some pos = some p ↔ False :=
      iff_false_intro fun heq => hp (Option.some.inj heq).symm
    simp only [setTile, Function.update_of_ne hp, setParent, setThing, carried, hplace,
      reduceCtorEq, if_false]

theorem carried_addThing {tile : TeleportTile} (hq : m.getTile q = some tile) (index : Int) :
    (m.carried none).addThing (m.env types) (.tile q) index 0 = m.carried (some q) := by
  have htop : ((m.carried none).typeOf (m.env types) 0).alwaysOnTop = true := rfl
  have hground : ((m.carried none).typeOf (m.env types) 0).isGroundTile = false := rfl
  have hsplash : ((m.carried none).typeOf (m.env types) 0).isSplash = false := rfl
  have hroom : ¬ 0xFFFF ≤ 0 := by decide
  simp only [World.addThing, tileAddThing, carried_tile hq, reduceCtorEq, if_false, List.append_nil,
    List.length_nil, hroom, typeOf_setParent, htop, hground, hsplash, if_true, tileInsert,
    Bool.false_eq_true, List.orderedInsert_nil]
  refine world_ext (carried_thing none (some q)) (funext fun p => ?_) rfl rfl
  by_cases hp : p = q
  · subst hp
    simp only [setTile, Function.update_self, carried_tile hq, if_true]
  · have hplace : some q = some p ↔ False :=
      iff_false_intro fun heq => hp (Option.some.inj heq).symm
    simp only [setTile, Function.update_of_ne hp, setParent, setThing, carried, hplace,
      reduceCtorEq, if_false]

theorem carried_queryAdd {tile : TeleportTile} (hq : m.getTile q = some tile)
    (place : Option Position) (flags : CylinderFlags) :
    (m.carried place).tileQueryAdd (m.env types) q 0 flags = .noError := by
  have hsolid (i : ThingId) : ((m.carried place).typeOf (m.env types) i).blockSolid = false := rfl
  have hhangs : ((m.carried place).typeOf (m.env types) 0).isHangable = false := rfl
  have hblocks (i : ThingId) : (m.carried place).blocks (m.env types) i 0 = false := by
    simp only [blocks, hsolid, Bool.false_and]
  have hany (l : List ThingId) :
      ¬ l.any (fun i => (m.carried place).blocks (m.env types) i 0) = true := by
    simp only [hblocks, List.any_eq_true, Bool.false_eq_true, and_false, exists_false,
      not_false_iff]
  have hroom : ¬ 0xFFFF ≤ ([] ++ if place = some q then [0] else [] : List ThingId).length := by
    split <;> decide
  simp only [tileQueryAdd, carried_tile hq, if_neg hroom, reduceCtorEq, false_and, if_false, hsolid,
    hhangs, if_neg (hany _), Bool.false_eq_true, ite_self]

theorem carried_holding {tile : TeleportTile} (hq : m.getTile q = some tile) :
    (m.carried (some q)).isHolding (m.env types) (.tile q) 0 = true := by
  have htop : ((m.carried (some q)).typeOf (m.env types) 0).alwaysOnTop = true := rfl
  simp only [isHolding, carried_tile hq, htop, if_true]
  exact Bool.or_eq_true_iff.mpr (.inr rfl)

theorem carried_getThingIndex {tile : TeleportTile} (hq : m.getTile q = some tile) :
    (m.carried (some q)).getThingIndex (m.env types) (.tile q) 0 ≠ -1 := by
  have htop : ((m.carried (some q)).typeOf (m.env types) 0).alwaysOnTop = true := rfl
  have hground : some ((m.tiles.map Prod.fst).idxOf q + 1) ≠ some 0 :=
    fun heq => Nat.succ_ne_zero _ (Option.some.inj heq)
  simp only [getThingIndex, carried_tile hq, if_neg hground, htop, if_true, List.mem_singleton]
  rintro ⟨⟩

/-- The teleport carries the item to the next tile, which is told. -/
theorem carried_moves {notify : Notify} {r : Passed}
    (hteleport : m.getTeleportItem pos = some destPos) (hnext : m.next pos = some q)
    (hr : m.addThing (m.env types) notify (m.carried (some pos)) pos destPos 0 = some r) :
    r.stop = none ∧ ∃ w', notify (m.carried (some q)) q 0 = some (w', r.rests) := by
  obtain ⟨destPos', destTile, hteleport', hdest, hloop, rfl⟩ := next_eq_some hnext
  obtain rfl := Option.some.inj (hteleport.symm.trans hteleport')
  have hpos : ∃ tile, m.getTile pos = some tile := by
    obtain ⟨tile, htile, -⟩ := Option.bind_eq_some_iff.mp hteleport
    exact ⟨tile, htile⟩
  have hsome : (m.getTile destPos).isSome := by
    rw [hdest]
    rfl
  obtain ⟨tile, hpos⟩ := hpos
  obtain ⟨tile', hq⟩ := Option.isSome_iff_exists.mp (landing_isSome m 16 hsome)
  have hnoLimit : ({ noLimit := true } : CylinderFlags).ignoreNotMoveable = false := rfl
  obtain ⟨flags, hflags, hredirect⟩ := redirect_landing 0 16 indexWhereever (o := none)
    (types_fits m) (carried_sound m (some pos)).tile hsome hnoLimit (by rintro ⟨⟩)
  have hhead : (((m.carried (some pos)).tile (m.landing 16 destPos)).bind fun t =>
      t.downItems.head?) = none := by rw [carried_tile hq, Option.bind_some, List.head?_nil]
  have hadd : (m.carried (some pos)).queryAdd (m.env types) (.tile (m.landing 16 destPos))
      indexWhereever 0 ((m.carried (some pos)).count 0) flags false = .noError :=
    carried_queryAdd hq _ _
  have hremove (k : Nat) (hk : 0 < k) : (m.carried (some pos)).queryRemove (m.env types) (.tile pos)
      0 k flags false = .noError :=
    queryRemove_tile_iff.mpr ⟨carried_holding hpos, hk, (by rintro ⟨⟩), .inl rfl⟩
  have hplain : ((m.carried (some pos)).typeOf (m.env types) 0).stackable = false := rfl
  have htransfer (k : Nat) : (m.carried (some pos)).transfer (m.env types) (.tile pos)
      (.tile (m.landing 16 destPos)) indexWhereever 0 none k =
      (m.carried (some (m.landing 16 destPos)), some 0) := by
    have hplain' : ((m.carried none).typeOf (m.env types) 0).stackable = false := rfl
    simp only [transfer, carried_removeThing hpos, hplain', Bool.false_eq_true, if_false,
      carried_addThing hq]
  have hone : 0 < max 1 ((m.carried (some pos)).count 0) := by omega
  simp only [addThing, hdest, hloop, Option.bind_some, Bool.false_eq_true, if_false,
    internalMoveItem, hredirect, hhead, reduceCtorEq, hadd, ne_eq, not_true_eq_false, moveToPlace,
    queryMaxCount, false_and, hplain, hremove _ hone, htransfer, notified,
    if_pos (carried_getThingIndex hq)] at hr
  obtain ⟨r', hr', hr⟩ := Option.bind_eq_some_iff.mp hr
  obtain rfl := Option.some.inj hr
  have hrests : r'.2 ++ [] = r'.2 := List.append_nil _
  exact ⟨rfl, r'.1, hr'.trans (congrArg (fun l => some (r'.1, l)) hrests.symm)⟩

end Carried

/-! ## Tiles that are not straight -/

/-- On tiles without an end the item is never put down. -/
theorem carried_endless (hall : ∀ n, (after m.next n pos).isSome) (n : Nat) {k : Nat}
    (hq : after m.next k pos = some q) :
    m.postAddNotification (m.env types) n (m.carried (some q)) q 0 = none := by
  induction n generalizing k q with
  | zero => rfl
  | succ n ih =>
      obtain ⟨c, hc⟩ := Option.isSome_iff_exists.mp (hall (k + 1))
      have hnext : m.next q = some c := by rw [← after_succ_of_eq hq, hc]
      obtain ⟨destPos, -, hteleport, -⟩ := next_eq_some hnext
      rw [postAddNotification, hteleport]
      dsimp only
      cases hr : m.addThing (m.env types) (m.postAddNotification (m.env types) n)
          (m.carried (some q)) q destPos 0 with
      | none => rfl
      | some r =>
          obtain ⟨-, w', hnotify⟩ := carried_moves hteleport hnext hr
          cases (ih hc).symm.trans hnotify

/-- On the way to a possible loop the item is put down there. -/
theorem carried_stopped {destTile : TeleportTile} (hteleport : m.getTeleportItem q = some destPos)
    (hdest : m.getTile destPos = some destTile) (hloop : m.possibleLoop q destTile = some true)
    {k d : Nat} {p : Position} (hp : after m.next k pos = some p)
    (hq : after m.next (k + d) pos = some q) {n : Nat} {r : World × List Rest}
    (hr : m.postAddNotification (m.env types) n (m.carried (some p)) p 0 = some r) :
    ∃ s ∈ r.2, s.why.settled = false := by
  induction d generalizing k p n r with
  | zero =>
      obtain rfl := Option.some.inj (hp.symm.trans hq)
      cases n with
      | zero => cases hr
      | succ n =>
          obtain ⟨tile, htile, -⟩ := Option.bind_eq_some_iff.mp hteleport
          simp only [postAddNotification, hteleport, addThing, hdest, hloop, Option.bind_some,
            if_true, Option.map_some, resting, carried_holding htile, Option.some.injEq] at hr
          subst hr
          exact ⟨⟨p, 0, .possibleLoop⟩, List.mem_cons_self, rfl⟩
  | succ d ih =>
      have hnot : after m.next (k + 1) pos ≠ none := fun hnone => by
        rw [after_none_of_le hnone (by omega)] at hq
        cases hq
      obtain ⟨c, hc⟩ := Option.ne_none_iff_exists'.mp hnot
      have hnext : m.next p = some c := by rw [← after_succ_of_eq hp, hc]
      obtain ⟨destPos', -, hteleport', -⟩ := next_eq_some hnext
      cases n with
      | zero => cases hr
      | succ n =>
          rw [postAddNotification, hteleport'] at hr
          obtain ⟨r', hr', rfl⟩ := Option.map_eq_some_iff.mp hr
          obtain ⟨-, w', hnotify⟩ := carried_moves hteleport' hnext hr'
          obtain ⟨s, hs, hsettled⟩ := ih hc (by rw [Nat.add_right_comm, Nat.add_assoc, hq]) hnotify
          exact ⟨s, List.mem_append_right _ hs, hsettled⟩

theorem straight_of_comesToRest (h : m.ComesToRest pos) : m.Straight pos := by
  have hcarried {c : Position} (hc : m.next pos = some c) :
      ∃ n r, m.postAddNotification (m.env types) n (m.carried (some c)) c 0 = some r ∧
        ∀ s ∈ r.2, s.why.settled = true := by
    obtain ⟨destPos, -, hteleport, -⟩ := next_eq_some hc
    obtain ⟨tile, htile, -⟩ := Option.bind_eq_some_iff.mp hteleport
    obtain ⟨n, r, hr, hsettled⟩ := h.item (m.env types) (m.carried (some pos)) 0 destPos
      (types_fits m) (carried_sound m _) (mem_of_isHolding (carried_holding htile)) hteleport
    obtain ⟨-, w', hnotify⟩ := carried_moves hteleport hc hr
    exact ⟨n, _, hnotify, hsettled⟩
  constructor
  · by_contra hnot
    have hall := isSome_of_not_once hnot
    obtain ⟨c, hc⟩ := Option.isSome_iff_exists.mp (hall 1)
    obtain ⟨n, r, hr, -⟩ := hcarried hc
    cases (carried_endless hall n hc).symm.trans hr
  · intro n q destPos destTile hn hq hteleport hdest hloop
    have hnot : after m.next 1 pos ≠ none := fun hnone => by
      rw [after_none_of_le hnone (by omega)] at hq
      cases hq
    obtain ⟨c, hc⟩ := Option.ne_none_iff_exists'.mp hnot
    obtain ⟨k, r, hr, hsettled⟩ := hcarried hc
    obtain ⟨s, hs, hbad⟩ := carried_stopped hteleport hdest hloop (k := 1) (d := n - 1) hc
      (by rw [Nat.add_sub_cancel' hn, hq]) hr
    cases (hsettled s hs).symm.trans hbad

/-- What is put on a tile comes to rest, whatever it is, exactly if the tile is straight. -/
theorem comesToRest_iff (m : TeleportMap) (pos : Position) : m.ComesToRest pos ↔ m.Straight pos :=
  ⟨straight_of_comesToRest, comesToRest_of_straight⟩

/-- A teleport leads to a hole, and another one, below it, back to the first. -/
def circle : TeleportMap where
  tiles := [
    (⟨100, 100, 7⟩, { flags := {}, destPos := some ⟨110, 100, 7⟩ }),
    (⟨110, 100, 7⟩, { flags := { floorChange := true, floorChangeDown := true }, destPos := none }),
    (⟨110, 100, 8⟩, { flags := {}, destPos := some ⟨100, 100, 7⟩ })]

theorem circle_goes_round : ¬ ∀ (m : TeleportMap) (pos : Position), m.ComesToRest pos := by
  intro h
  have hstraight := straight_of_comesToRest (h circle ⟨100, 100, 7⟩)
  exact hstraight.once 0 2 ⟨100, 100, 7⟩ (by decide) rfl (by decide +kernel)

end TeleportMap

end Bruxo
