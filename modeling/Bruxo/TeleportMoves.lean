import Bruxo.TeleportChain

/-!
# What a teleport does to the items

Each piece of `internalMoveItem` leaves a sound world behind, and so does a notification of a tile
that everything settles from. An exchange puts the item that is in the way on the tile with the
teleport, which sends it back: there is one item less in the way each time.
-/

namespace Bruxo

namespace TeleportMap

open World

variable {m : TeleportMap} {env : Env} {w w' v : World} {c : Cylinder} {pos q : Position}
  {i j : ThingId} {count n k : Nat} {index : Int} {o : Option ThingId} {flags : CylinderFlags}

/-- The tiles stay, and the items stay of their types. -/
structure Onward (w w' : World) : Prop where
  tile : ∀ pos, (w'.tile pos).isSome = (w.tile pos).isSome
  nextId : w.nextId ≤ w'.nextId
  id : ∀ j, j < w.nextId → (w'.thing j).id = (w.thing j).id

theorem Onward.refl : Onward w w := ⟨fun _ => rfl, Nat.le_refl _, fun _ _ => rfl⟩

theorem Onward.trans (h : Onward w v) (h' : Onward v w') : Onward w w' where
  tile p := (h'.tile p).trans (h.tile p)
  nextId := h.nextId.trans h'.nextId
  id j hj := (h'.id j (hj.trans_le h.nextId)).trans (h.id j hj)

theorem Onward.typeOf (h : Onward w w') (hj : j < w.nextId) : w'.typeOf env j = w.typeOf env j := by
  rw [World.typeOf, h.id j hj, World.typeOf]

theorem Sized.congr (hid : (w'.thing i).id = (w.thing i).id) (hcount : w'.count i = w.count i)
    (h : Sized env w i) : Sized env w' i := by
  unfold Sized stackSize World.typeOf
  rw [hid, hcount]
  exact h

theorem Sound.of_onward (hw : m.Sound env w) (h : Onward w w') (hplaced : Placed env w')
    (hsized : ∀ c, ∀ i ∈ w'.contents c, Sized env w' i) : m.Sound env w' where
  tile p := (h.tile p).trans (hw.tile p)
  placed := hplaced
  sized := hsized

/-! ## Taking away and putting down -/

theorem update_isSome {f : Position → Option Tile} {t t' : Tile} (ht : f pos = some t)
    (p : Position) : (Function.update f pos (some t') p).isSome = (f p).isSome := by
  by_cases hp : p = pos
  · subst hp
    rw [Function.update_self, ht]
    rfl
  · rw [Function.update_of_ne hp]

theorem removeThing_tile (env : Env) (w : World) (pos : Position) (i : ThingId) (n : Nat)
    (p : Position) :
    ((w.removeThing env (.tile pos) i n).tile p).isSome = (w.tile p).isSome := by
  simp only [removeThing, tileRemoveThing]
  cases ht : w.tile pos with
  | none => rfl
  | some t =>
      dsimp only
      split_ifs
      · exact update_isSome ht p
      · exact update_isSome ht p
      · rfl
      · rfl
      · exact update_isSome ht p
      · rfl

theorem tileInsert_tile {t t' : Tile} (ht : v.tile pos = some t) (p : Position) :
    ((v.tileInsert env pos t' i).tile p).isSome = (v.tile p).isSome := by
  unfold tileInsert
  split
  · exact update_isSome ht p
  · exact update_isSome ht p

theorem addThing_tile (env : Env) (w : World) (pos : Position) (index : Int) (i : ThingId)
    (p : Position) :
    ((w.addThing env (.tile pos) index i).tile p).isSome = (w.tile p).isSome := by
  simp only [World.addThing, tileAddThing]
  cases ht : w.tile pos with
  | none => rfl
  | some t =>
      dsimp only
      split
      · rfl
      split
      · split
        · exact update_isSome ht p
        · exact update_isSome ht p
      split
      · split
        · exact tileInsert_tile (v := w.setParent i _) ht p
        · exact tileInsert_tile (v := (w.setParent i _).setParent _ none) ht p
      split
      · exact tileInsert_tile (v := w.setParent i _) ht p
      split
      · exact tileInsert_tile (v := (w.setParent i _).setParent _ none) ht p
      · rfl

/-- What is found on a tile lies on it. -/
theorem mem_of_isHolding (h : w.isHolding env (.tile pos) i = true) :
    i ∈ w.contents (.tile pos) := by
  simp only [isHolding] at h
  simp only [contents]
  cases ht : w.tile pos with
  | none =>
      rw [ht] at h
      cases h
  | some t =>
      simp only [ht, Bool.or_eq_true, decide_eq_true_eq, List.contains_iff_mem] at h
      simp only [List.mem_append, Option.mem_toList]
      rcases h with h | h
      · exact .inl (.inl h)
      · split at h
        · exact .inl (.inr h)
        · exact .inr h

theorem mem_of_getThingIndex (h : w.getThingIndex env (.tile pos) i ≠ -1) :
    i ∈ w.contents (.tile pos) := by
  simp only [getThingIndex] at h
  simp only [contents]
  cases ht : w.tile pos with
  | none =>
      rw [ht] at h
      exact absurd rfl h
  | some t =>
      simp only [ht] at h
      simp only [List.mem_append, Option.mem_toList]
      split at h
      · next hground => exact .inl (.inl hground)
      split at h
      · split at h
        · next hmem => exact .inl (.inr hmem)
        · exact absurd rfl h
      · split at h
        · next hmem => exact .inr hmem
        · exact absurd rfl h

/-- A whole item is taken off a tile. -/
structure TakenOff (m : TeleportMap) (env : Env) (w w' : World) (pos : Position) (i : ThingId) :
    Prop where
  sound : m.Sound env w'
  onward : Onward w w'
  loose : Loose w' i
  sized : Sized env w' i
  takes : Takes env w w' (.tile pos) i

theorem removeThing_takenOff (hw : m.Sound env w) (hi : i ∈ w.contents (.tile pos))
    (hsplit : w.splits env i n = false) :
    TakenOff m env w (w.removeThing env (.tile pos) i n) pos i := by
  have hholding : w.isHolding env (.tile pos) i = true := holding_of_sorted hw.placed.sorted hi
  have htakes : Takes env w (w.removeThing env (.tile pos) i n) (.tile pos) i :=
    removeThing_takes hholding hsplit
  have htile := removeThing_tile env w pos i n
  generalize w.removeThing env (.tile pos) i n = w' at htakes htile ⊢
  have honward : Onward w w' := ⟨htile, htakes.nextId.ge, fun j _ => htakes.id j⟩
  have hcount (j : ThingId) : w'.count j = w.count j := by rw [count, htakes.data, count]
  refine ⟨hw.of_onward honward (htakes.placed hw.placed) fun c j hj => ?_, honward,
    ⟨?_, fun c => htakes.not_mem_of_placed hw.placed c⟩, ?_, htakes⟩
  · exact (hw.sized c j (htakes.subset hj)).congr (htakes.id j) (hcount j)
  · rw [htakes.nextId]
    exact hw.placed.fresh _ i hi
  · exact (hw.sized _ i hi).congr (htakes.id i) (hcount i)

theorem addThing_sound (pos : Position) (index : Int) (hw : m.Sound env w) (hloose : Loose w i)
    (hsized : Sized env w i) :
    m.Sound env (w.addThing env (.tile pos) index i) ∧
      Onward w (w.addThing env (.tile pos) index i) := by
  have hswaps : Swaps env w (w.addThing env (.tile pos) index i) (.tile pos) i _ _ :=
    addThing_swaps hloose.nowhere
  have htile := addThing_tile env w pos index i
  generalize w.addThing env (.tile pos) index i = w' at hswaps htile ⊢
  have honward : Onward w w' := ⟨htile, hswaps.nextId.ge, fun j _ => hswaps.id j⟩
  have hcount (j : ThingId) : w'.count j = w.count j := by rw [count, hswaps.data, count]
  refine ⟨hw.of_onward honward (hswaps.placed hw.placed hloose fun k hk => by cases hk)
    fun c j hj => ?_, honward⟩
  have hmem : j = i ∨ j ∈ w.contents c := by
    by_cases hc : c = .tile pos
    · subst hc
      obtain ⟨-, ⟨rfl, -⟩ | ⟨-, hin⟩⟩ :=
        (mem_of_swaps hswaps (hw.placed.nodup _) (hloose.nowhere _)).2 j hj
      · exact .inl rfl
      · exact .inr hin
    · rw [hswaps.contents_ne c hc] at hj
      exact .inr hj
  rcases hmem with rfl | hin
  · exact hsized.congr (hswaps.id j) (hcount j)
  · exact (hw.sized c j hin).congr (hswaps.id j) (hcount j)

/-! ## Stacks -/

theorem recounts_sound (hw : m.Sound env w) (h : Recounts w w' j n)
    (hsized : (w.typeOf env j).stackable = true → 0 < n ∧ n ≤ w.stackSize env j) :
    m.Sound env w' ∧ Onward w w' := by
  have honward : Onward w w' := ⟨fun p => by rw [h.tile], h.nextId.ge, fun x _ => h.id x⟩
  refine ⟨hw.of_onward honward (h.placed hw.placed) fun c x hx => ?_, honward⟩
  rw [h.contents] at hx
  by_cases hxj : x = j
  · subst hxj
    intro hstackable
    rw [typeOf_congr h.id] at hstackable
    rw [h.count, stackSize_congr h.id]
    exact hsized hstackable
  · exact (hw.sized c x hx).congr (h.id x) (h.count_ne hxj)

theorem id_of_equals (h : w.equals i (some j) = true) : (w.thing j).id = (w.thing i).id := by
  have hboth := (Bool.and_eq_true_iff.mp h).1
  exact (of_decide_eq_true (Bool.and_eq_true_iff.mp hboth).1).symm

theorem typeOf_of_equals (env : Env) (h : w.equals i (some j) = true) :
    w.typeOf env j = w.typeOf env i := by
  rw [World.typeOf, id_of_equals h, World.typeOf]

theorem stackSize_lt (i : ThingId) : w.stackSize env i < 256 := by
  unfold stackSize
  split
  · exact UInt8.toNat_lt _
  · decide

theorem mergeInto_sound (hfits : m.Fits env) (hw : m.Sound env w)
    (ho : ∀ j ∈ o, j ∈ w.contents (.tile q)) (hstack : (w.typeOf env i).stackable = true) :
    m.Sound env (w.mergeInto env (.tile q) i o (w.mergeCount env i o k)) ∧
      Onward w (w.mergeInto env (.tile q) i o (w.mergeCount env i o k)) := by
  cases o with
  | none => exact ⟨hw, .refl⟩
  | some j =>
      simp only [mergeInto, mergeCount]
      by_cases hequals : w.equals i (some j) = true
      · rw [if_pos hequals, if_pos hequals]
        have hj := ho j rfl
        have htype : w.typeOf env j = w.typeOf env i := typeOf_of_equals env hequals
        have hstack' : (w.typeOf env j).stackable = true := by rw [htype, hstack]
        obtain ⟨hpos, hle⟩ := hw.sized _ j hj hstack'
        have hbound : w.stackSize env j < 256 := stackSize_lt j
        have hfluid : (w.typeOf env j).fluid = false := (hfits.sensible.stackable _ hstack').2.2.1
        rw [if_neg (Nat.not_lt.mpr hle)]
        have hmin : min (w.stackSize env j - w.count j) k ≤ w.stackSize env j - w.count j :=
          Nat.min_le_left _ _
        have hcount : w.updatedCount env j (w.count j + min (w.stackSize env j - w.count j) k) =
            w.count j + min (w.stackSize env j - w.count j) k := by
          rw [updatedCount, hfluid, if_neg Bool.false_ne_true]
          exact Nat.mod_eq_of_lt (by omega)
        have hrecounts := updateThing_recounts_of_sorted hw.placed hj hstack'
          (w.count j + min (w.stackSize env j - w.count j) k)
        rw [hcount] at hrecounts
        exact recounts_sound hw hrecounts fun _ => ⟨by omega, by omega⟩
      · rw [if_neg hequals]
        exact ⟨hw, .refl⟩

theorem clone_sound (hw : m.Sound env w) (hpos : 0 < n)
    (hle : (w.typeOf env i).stackable = true → n ≤ w.stackSize env i) (hsmall : n < 256) :
    m.Sound env (w.clone i n) ∧ Onward w (w.clone i n) ∧ Loose (w.clone i n) w.nextId ∧
      Sized env (w.clone i n) w.nextId := by
  have hne (j : ThingId) (hj : j < w.nextId) : (w.clone i n).thing j = w.thing j :=
    clone_thing_ne (Nat.ne_of_lt hj)
  have honward : Onward w (w.clone i n) :=
    ⟨fun _ => rfl, Nat.le_succ _, fun j hj => by rw [hne j hj]⟩
  refine ⟨hw.of_onward honward (clone_placed hw.placed i n) fun c j hj => ?_, honward,
    clone_loose hw.placed i n, ?_⟩
  · rw [clone_eq, create_contents hw.placed ⟨rfl, rfl⟩] at hj
    have hthing := hne j (hw.placed.fresh c j hj)
    exact (hw.sized c j hj).congr (by rw [hthing]) (by rw [count, hthing, count])
  · intro hstackable
    unfold stackSize World.typeOf at *
    rw [clone_id] at hstackable ⊢
    rw [clone_count i hsmall]
    exact ⟨hpos, hle hstackable⟩

theorem startDecaying_sound (hw : m.Sound env w) :
    m.Sound env (w.startDecaying o) ∧ Onward w (w.startDecaying o) := by
  unfold startDecaying
  cases o with
  | none => exact ⟨hw, .refl⟩
  | some i =>
      dsimp only
      split
      · have hrecounts : Recounts w (w.setData i _) i (w.count i) :=
          setData_recounts i ((w.thing i).data.setIntAttr .decayState 1)
        -- an item that lies nowhere is not asked for its size
        have honward : Onward w (w.setData i ((w.thing i).data.setIntAttr .decayState 1)) :=
          ⟨fun p => by rw [hrecounts.tile], hrecounts.nextId.ge, fun x _ => hrecounts.id x⟩
        refine ⟨hw.of_onward honward (hrecounts.placed hw.placed) fun c x hx => ?_, honward⟩
        rw [hrecounts.contents] at hx
        refine (hw.sized c x hx).congr (hrecounts.id x) ?_
        by_cases hxi : x = i
        · rw [hxi, hrecounts.count]
        · exact hrecounts.count_ne hxi
      · exact ⟨hw, .refl⟩

/-! ## From one tile to another -/

theorem transfer_sound (index : Int) (hfits : m.Fits env) (hw : m.Sound env w) (hne : pos ≠ q)
    (hi : i ∈ w.contents (.tile pos)) (ho : ∀ j ∈ o, j ∈ w.contents (.tile q))
    (hsplit : w.splits env i k = false) :
    m.Sound env (w.transfer env (.tile pos) (.tile q) index i o k).1 ∧
      Onward w (w.transfer env (.tile pos) (.tile q) index i o k).1 ∧
      ∀ x ∈ (w.transfer env (.tile pos) (.tile q) index i o k).2,
        (w.transfer env (.tile pos) (.tile q) index i o k).1.typeOf env x = w.typeOf env i := by
  have htaken := removeThing_takenOff hw hi hsplit
  have hold : i < w.nextId := hw.placed.fresh _ i hi
  have hsize := hw.sized _ i hi
  unfold transfer
  generalize w.removeThing env (.tile pos) i k = v at htaken ⊢
  dsimp only
  have htype : v.typeOf env i = w.typeOf env i := htaken.onward.typeOf hold
  have hother : Cylinder.tile q ≠ .tile pos := fun heq => hne (Cylinder.tile.inj heq).symm
  have ho' : ∀ j ∈ o, j ∈ v.contents (.tile q) := by
    intro j hj
    rw [htaken.takes.contents_ne _ hother]
    exact ho j hj
  rw [htype]
  split
  · next hstack =>
      obtain ⟨hmerged, honward⟩ := mergeInto_sound (k := k) hfits htaken.sound ho'
        (by rw [htype]; exact hstack)
      have hle : v.mergeCount env i o k ≤ k := mergeCount_le
      generalize v.mergeInto env (.tile q) i o (v.mergeCount env i o k) = u at hmerged honward ⊢
      split
      · next hrest =>
          have hwhole : k = w.count i := by
            simp only [splits, hstack, Bool.true_and, decide_eq_false_iff_not, ne_eq,
              not_not] at hsplit
            exact hsplit
          have htype' : u.typeOf env i = w.typeOf env i := (htaken.onward.trans honward).typeOf hold
          have hsize' : u.stackSize env i = w.stackSize env i := by
            rw [stackSize, stackSize, htype']
          have hbound : w.stackSize env i < 256 := stackSize_lt i
          obtain ⟨-, hfits'⟩ := hsize hstack
          obtain ⟨hclone, hcloned, hloose, hsized⟩ := clone_sound (i := i) hmerged hrest
            (fun _ => by omega) (by omega)
          obtain ⟨hadded, honward'⟩ := addThing_sound q index hclone hloose hsized
          refine ⟨hadded, htaken.onward.trans (honward.trans (hcloned.trans honward')),
            fun x hx => ?_⟩
          cases hx
          rw [honward'.typeOf hloose.allocated, World.typeOf, clone_id, ← htype', World.typeOf]
      · exact ⟨hmerged, htaken.onward.trans honward, fun x hx => by cases hx⟩
  · obtain ⟨hadded, honward⟩ := addThing_sound q index htaken.sound htaken.loose
      htaken.sized
    refine ⟨hadded, htaken.onward.trans honward, fun x hx => ?_⟩
    cases hx
    exact (htaken.onward.trans honward).typeOf hold

theorem queryRemove_tile_iff : w.queryRemove env (.tile pos) i k flags false = .noError ↔
    w.isHolding env (.tile pos) i = true ∧ 0 < k ∧
      ((w.typeOf env i).stackable = true → k ≤ w.count i) ∧
      ((w.typeOf env i).moveable = true ∨ flags.ignoreNotMoveable = true) := by
  unfold queryRemove
  constructor
  · intro h
    split at h
    · cases h
    next hholding =>
    split at h
    · cases h
    next hcount =>
    split at h
    · cases h
    next hmoveable =>
    obtain ⟨hzero, hless⟩ := not_or.mp hcount
    refine ⟨not_not.mp hholding, Nat.pos_of_ne_zero hzero, fun hstack => ?_, ?_⟩
    · exact Nat.not_lt.mp fun hlt => hless ⟨hstack, hlt⟩
    · by_contra hfixed
      obtain ⟨hfixed, hflag⟩ := not_or.mp hfixed
      exact hmoveable ⟨hfixed, hflag⟩
  · rintro ⟨hholding, hpos, hless, hmoveable⟩
    have hcount : ¬ (k = 0 ∨ (w.typeOf env i).stackable = true ∧ w.count i < k) := by
      rintro (hzero | ⟨hstack, hlt⟩)
      · omega
      · exact absurd (hless hstack) (Nat.not_le.mpr hlt)
    have hmoves : ¬ (¬ (w.typeOf env i).moveable = true ∧ ¬ flags.ignoreNotMoveable = true) :=
      fun hfixed => hmoveable.elim hfixed.1 hfixed.2
    rw [if_neg (not_not.mpr hholding), if_neg hcount, if_neg hmoves]

/-! ## Notifications that everything settles from -/

/-- What came to rest has settled, in a world that is still sound. -/
structure Settled (m : TeleportMap) (env : Env) (w w' : World) (rests : List Rest) : Prop where
  sound : m.Sound env w'
  onward : Onward w w'
  settled : ∀ s ∈ rests, s.why.settled = true

/-- A moveable item that is put on the tile comes to rest. -/
def Settles (m : TeleportMap) (env : Env) (q : Position) : Prop :=
  ∀ w i, m.Sound env w → i ∈ w.contents (.tile q) → (w.typeOf env i).moveable = true →
    ∃ n r, m.postAddNotification env n w q i = some r ∧ m.Settled env w r.1 r.2

/-- An item that was not moved has settled as well, if it is still there. -/
def Stays (env : Env) (r : Passed) (pos : Position) (i : ThingId) : Prop :=
  ∀ why ∈ r.stop, why.settled = true ∨ r.world.isHolding env (.tile pos) i = false

theorem Settled.refl (hw : m.Sound env w) : m.Settled env w w [] := ⟨hw, .refl, by rintro _ ⟨⟩⟩

theorem Settled.trans {rests rests' : List Rest} (h : m.Settled env w v rests)
    (h' : m.Settled env v w' rests') : m.Settled env w w' (rests ++ rests') where
  sound := h'.sound
  onward := h.onward.trans h'.onward
  settled s hs := (List.mem_append.mp hs).elim (h.settled s) (h'.settled s)

theorem notified_settles (hq : m.Settles env q) (hw : m.Sound env w)
    (ho : ∀ x ∈ o, (w.typeOf env x).moveable = true) :
    ∃ n r, notified env (m.postAddNotification env n) w (.tile q) o = some r ∧
      m.Settled env w r.1 r.2 := by
  cases o with
  | none => exact ⟨0, (w, []), rfl, .refl hw⟩
  | some x =>
      by_cases hindex : w.getThingIndex env (.tile q) x ≠ -1
      · obtain ⟨n, r, hr, hsettled⟩ := hq w x hw (mem_of_getThingIndex hindex) (ho x rfl)
        exact ⟨n, r, by rw [notified, if_pos hindex, hr], hsettled⟩
      · exact ⟨0, (w, []), by rw [notified, if_neg hindex], .refl hw⟩

/-- The item that was put down is told of first, and then the one that it was put on. -/
theorem notified_twice {o' : Option ThingId} (hq : m.Settles env q) (hw : m.Sound env w)
    (ho : ∀ x ∈ o, (w.typeOf env x).moveable = true)
    (ho' : ∀ x ∈ o', x < w.nextId ∧ (w.typeOf env x).moveable = true) :
    ∃ n r r', notified env (m.postAddNotification env n) w (.tile q) o = some r ∧
      notified env (m.postAddNotification env n) r.1 (.tile q) o' = some r' ∧
      m.Settled env w r'.1 (r.2 ++ r'.2) := by
  obtain ⟨n, r, hr, hsettled⟩ := notified_settles hq hw ho
  obtain ⟨n', r', hr', hsettled'⟩ := notified_settles hq hsettled.sound fun x (hx : x ∈ o') => by
    obtain ⟨hold, hmoveable⟩ := ho' x hx
    rw [hsettled.onward.typeOf hold, hmoveable]
  refine ⟨max n n', r, r', ?_, ?_, hsettled.trans hsettled'⟩
  · exact notified_below (postAddNotification_below (Nat.le_max_left _ _)) hr
  · exact notified_below (postAddNotification_below (Nat.le_max_right _ _)) hr'

/-- What a taken item equals is of its type. -/
theorem typeOf_of_removed (hw : m.Sound env w) (hi : i ∈ w.contents (.tile pos))
    (hj : j ∈ w.contents (.tile q)) (hsplit : w.splits env i k = false)
    (h : (w.removeThing env (.tile pos) i k).equals i (some j) = true) :
    w.typeOf env j = w.typeOf env i := by
  have honward := (removeThing_takenOff hw hi hsplit).onward
  have htype := typeOf_of_equals env h
  rw [honward.typeOf (hw.placed.fresh _ j hj), honward.typeOf (hw.placed.fresh _ i hi)] at htype
  exact htype

theorem moveToPlace_settles (index : Int) (count : Nat) (hfits : m.Fits env)
    (hw : m.Sound env w) (hq : m.Settles env q) (hne : pos ≠ q)
    (ho : ∀ j ∈ o, j ∈ w.contents (.tile q))
    (hflags : flags.ignoreNotMoveable = false)
    (hcount : (w.typeOf env i).stackable = true → count = w.count i) :
    ∃ n r, moveToPlace env (m.postAddNotification env n) w (.tile pos) i count (.tile q) index o
        flags = some r ∧ m.Settled env w r.world r.rests ∧
      ((w.typeOf env i).moveable = true → Stays env r pos i) := by
  have hmax : w.queryMaxCount env (.tile q) index i count flags = (max 1 count, .noError) := rfl
  have hnot : ¬ (ReturnValue.noError ≠ .noError ∧ max 1 count = 0) := fun hand => hand.1 rfl
  unfold moveToPlace
  rw [hmax]
  simp only [if_neg hnot]
  generalize hk : (if (w.typeOf env i).stackable = true then min count (max 1 count)
    else max 1 count) = k
  have hwhole : (w.typeOf env i).stackable = true → k = w.count i := by
    intro hstack
    rw [if_pos hstack] at hk
    rw [← hk, ← hcount hstack]
    omega
  by_cases hremove : w.queryRemove env (.tile pos) i k flags false = .noError
  · simp only [if_neg (not_not.mpr hremove)]
    obtain ⟨hholding, -, -, hmoveable⟩ := queryRemove_tile_iff.mp hremove
    have hmoveable : (w.typeOf env i).moveable = true :=
      hmoveable.resolve_right (by rw [hflags]; exact Bool.false_ne_true)
    have hi := mem_of_isHolding hholding
    have hsplit : w.splits env i k = false := by
      by_cases hstack : (w.typeOf env i).stackable = true
      · rw [hwhole hstack]
        exact splits_whole
      · exact splits_of_one (Bool.eq_false_iff.mpr hstack)
    obtain ⟨hmoved, honward, htype⟩ := transfer_sound index hfits hw hne hi ho hsplit
    have hupdate : ∀ j ∈ (if (w.typeOf env i).stackable = true ∧
        (w.removeThing env (.tile pos) i k).equals i o = true then o else none),
        j < w.nextId ∧ w.typeOf env j = w.typeOf env i := by
      intro j hj
      split at hj
      · next hequals =>
          cases hj
          have hj := ho j rfl
          exact ⟨hw.placed.fresh _ j hj, typeOf_of_removed hw hi hj hsplit hequals.2⟩
      · cases hj
    generalize (if (w.typeOf env i).stackable = true ∧
      (w.removeThing env (.tile pos) i k).equals i o = true then o else none) = updateItem
      at hupdate ⊢
    generalize w.transfer env (.tile pos) (.tile q) index i o k = t at hmoved honward htype ⊢
    obtain ⟨moved, moveItem⟩ := t
    obtain ⟨n, r, r', hr, hr', hall⟩ := notified_twice hq hmoved
      (fun x (hx : x ∈ moveItem) => by rw [htype x hx, hmoveable])
      fun x (hx : x ∈ updateItem) => by
        obtain ⟨hold, hsame⟩ := hupdate x hx
        exact ⟨hold.trans_le honward.nextId, by rw [honward.typeOf hold, hsame, hmoveable]⟩
    have hdecaying := startDecaying_sound (o := moveItem) hall.sound
    refine ⟨n, _, Option.bind_eq_some_iff.mpr ⟨r, hr, Option.map_eq_some_iff.mpr ⟨r', hr', rfl⟩⟩,
      ⟨?_, ?_, hall.settled⟩, fun _ why hwhy => by cases hwhy⟩
    · dsimp only
      split
      · exact hall.sound
      · exact hdecaying.1
    · dsimp only
      split
      · exact honward.trans hall.onward
      · exact (honward.trans hall.onward).trans hdecaying.2
  · refine ⟨0, ⟨w, some (.notRemoved (w.queryRemove env (.tile pos) i k flags false)), []⟩, ?_,
      .refl hw, fun hmoveable why _ => .inr ?_⟩
    · exact if_pos hremove
    · by_contra hholding
      rw [Bool.not_eq_false] at hholding
      refine hremove (queryRemove_tile_iff.mpr ⟨hholding, ?_, fun hstack => ?_, .inl hmoveable⟩)
      · by_cases hstack : (w.typeOf env i).stackable = true
        · rw [hwhole hstack]
          exact (hw.sized _ i (mem_of_isHolding hholding) hstack).1
        · rw [if_neg hstack] at hk
          omega
      · exact (hwhole hstack).le

/-! ## Items in the way -/

/-- What has to be exchanged is hung up where something else hangs. -/
theorem hangable_of_needExchange (h : w.tileQueryAdd env q i flags = .needExchange) :
    (w.typeOf env i).isHangable = true ∧ ∃ t, w.tile q = some t ∧
      ∃ x ∈ t.downItems ++ t.topItems, (w.typeOf env x).isHangable = true := by
  unfold tileQueryAdd at h
  cases ht : w.tile q with
  | none =>
      rw [ht] at h
      cases h
  | some t =>
      simp only [ht] at h
      split at h
      · cases h
      split at h
      · cases h
      split at h
      · cases h
      split at h
      · cases h
      split at h
      · next hhangs =>
          split at h
          · next hany => exact ⟨hhangs.1, t, rfl, List.any_eq_true.mp hany⟩
          · cases h
      · split at h
        · cases h
        · cases h

/-- What hangs on a tile is not always on top. -/
theorem head?_ne_none_of_needExchange (hfits : m.Fits env) (hw : m.Sound env w)
    (h : w.tileQueryAdd env q i flags = .needExchange) :
    ((w.tile q).bind fun t => t.downItems.head?) ≠ none := by
  obtain ⟨-, t, ht, x, hx, hhangs⟩ := hangable_of_needExchange h
  have hdown : x ∈ t.downItems := by
    refine (List.mem_append.mp hx).resolve_right fun htop => ?_
    have hontop := (hw.placed.sorted q t ht).top x htop
    have hnot : (w.typeOf env x).alwaysOnTop = false := hfits.sensible.hangable _ hhangs
    rw [hnot] at hontop
    cases hontop
  rw [ht, Option.bind_some, ne_eq, List.head?_eq_none_iff]
  exact List.ne_nil_of_mem hdown

theorem mem_of_head? {x : ThingId} (h : ((w.tile q).bind fun t => t.downItems.head?) = some x) :
    x ∈ w.contents (.tile q) := by
  obtain ⟨t, ht, hhead⟩ := Option.bind_eq_some_iff.mp h
  simp only [contents, ht]
  exact List.mem_append_right _ (List.mem_of_mem_head? hhead)

/-- An item in the way that goes to the other tile is in the way no longer. -/
theorem swap_sound (hw : m.Sound env w) (hne : pos ≠ q) {x : ThingId}
    (hx : x ∈ w.contents (.tile q))
    (hv : v = (w.removeThing env (.tile q) x (w.count x)).addThing env (.tile pos) 0 x) :
    m.Sound env v ∧ Onward w v ∧
      (v.contents (.tile q)).length < (w.contents (.tile q)).length := by
  have htaken := removeThing_takenOff hw hx splits_whole
  obtain ⟨hadded, honward⟩ := addThing_sound pos 0 htaken.sound htaken.loose htaken.sized
  have hswaps : Swaps env _
      ((w.removeThing env (.tile q) x (w.count x)).addThing env (.tile pos) 0 x)
      (.tile pos) x _ _ := addThing_swaps htaken.loose.nowhere
  have hother : Cylinder.tile q ≠ .tile pos := fun heq => hne (Cylinder.tile.inj heq).symm
  subst hv
  refine ⟨hadded, htaken.onward.trans honward, ?_⟩
  rw [hswaps.contents_ne _ hother, htaken.takes.perm.length_eq, List.length_cons]
  exact Nat.lt_succ_self _

/-- The item in the way is put on the tile with the teleport, where there is one less in the way
of it. -/
theorem exchange_settles (hfits : m.Fits env) (hw : m.Sound env w) (hq : m.Settles env q)
    (hne : pos ≠ q) {x : ThingId} (hx : x ∈ w.contents (.tile q)) (hold : i < w.nextId)
    (hflags : flags.ignoreNotMoveable = false) (hplain : (w.typeOf env i).stackable = false)
    (ih : ∀ v, m.Sound env v → x ∈ v.contents (.tile pos) → (v.typeOf env x).moveable = true →
      (v.contents (.tile q)).length < (w.contents (.tile q)).length →
      ∃ n r, m.postAddNotification env n v pos x = some r ∧ m.Settled env v r.1 r.2) :
    ∃ n r, exchange env (m.postAddNotification env n) w (.tile pos) i count (.tile q) index x
        flags = some r ∧ m.Settled env w r.world r.rests ∧
      ((w.typeOf env i).moveable = true → Stays env r pos i) := by
  have hmax : w.queryMaxCount env (.tile pos) indexWhereever x (w.count x) {} =
      (max 1 (w.count x), .noError) := rfl
  have hnot : ¬ (ReturnValue.noError ≠ .noError ∧ max 1 (w.count x) = 0) := fun hand => hand.1 rfl
  unfold exchange
  dsimp only
  by_cases hadd : w.queryAdd env (.tile pos) (w.getThingIndex env (.tile pos) i) x (w.count x) {}
      false = .noError
  swap
  · exact ⟨0, _, if_pos hadd, .refl hw, fun _ why hwhy => .inl (Option.some.inj hwhy ▸ rfl)⟩
  simp only [if_neg (not_not.mpr hadd), hmax, if_neg hnot]
  by_cases hremove : w.queryRemove env (.tile q) x (w.count x) flags false = .noError
  swap
  · simp only [if_neg hremove]
    refine moveToPlace_settles index count hfits hw hq hne (fun j hj => ?_) hflags fun hstack => ?_
    · cases hj
      exact hx
    · cases hplain.symm.trans hstack
  simp only [if_pos hremove]
  obtain ⟨hholding, -, -, hmoveable⟩ := queryRemove_tile_iff.mp hremove
  have hmoveable : (w.typeOf env x).moveable = true :=
    hmoveable.resolve_right (by rw [hflags]; exact Bool.false_ne_true)
  have hanywhere : (w.removeThing env (.tile q) x (w.count x)).addThingAnywhere env (.tile pos) x =
      (w.removeThing env (.tile q) x (w.count x)).addThing env (.tile pos) 0 x := rfl
  rw [hanywhere]
  generalize hv : (w.removeThing env (.tile q) x (w.count x)).addThing env (.tile pos) 0 x = v
  obtain ⟨hadded, honward, hless⟩ := swap_sound hw hne hx hv.symm
  have hmoveable : (v.typeOf env x).moveable = true := by
    rw [honward.typeOf (hw.placed.fresh _ x hx), hmoveable]
  obtain ⟨n, r, hr, hsettled⟩ : ∃ n r, notified env (m.postAddNotification env n) v (.tile pos)
      (some x) = some r ∧ m.Settled env v r.1 r.2 := by
    by_cases hindex : v.getThingIndex env (.tile pos) x ≠ -1
    · obtain ⟨n, r, hr, hsettled⟩ := ih v hadded (mem_of_getThingIndex hindex) hmoveable hless
      exact ⟨n, r, by rw [notified, if_pos hindex, hr], hsettled⟩
    · exact ⟨0, (v, []), by rw [notified, if_neg hindex], .refl hadded⟩
  have hlater := honward.trans hsettled.onward
  have htype : r.1.typeOf env i = w.typeOf env i := hlater.typeOf hold
  by_cases hagain : r.1.queryAdd env (.tile q) index i count flags false = .noError
  · obtain ⟨n', r', hr', hsettled', hstays⟩ := moveToPlace_settles index count
      (i := i) (o := none) hfits hsettled.sound hq hne (by rintro _ ⟨⟩) hflags fun hstack => by
        rw [htype, hplain] at hstack
        cases hstack
    have hall := hsettled.trans hsettled'
    refine ⟨max n n', { r' with rests := r.2 ++ r'.rests },
      Option.bind_eq_some_iff.mpr ⟨r, ?_, ?_⟩,
      ⟨hall.sound, honward.trans hall.onward, hall.settled⟩, fun hmoveable => ?_⟩
    · exact notified_below (postAddNotification_below (Nat.le_max_left _ _)) hr
    · rw [if_neg (not_not.mpr hagain)]
      exact Option.map_eq_some_iff.mpr ⟨r',
        moveToPlace_below (postAddNotification_below (Nat.le_max_right _ _)) hr', rfl⟩
    · exact hstays (by rw [htype, hmoveable])
  · refine ⟨n, ⟨r.1, some (.refused _), r.2⟩, Option.bind_eq_some_iff.mpr ⟨r, hr, if_pos hagain⟩,
      ⟨hsettled.sound, hlater, hsettled.settled⟩, fun _ why hwhy => .inl ?_⟩
    exact Option.some.inj hwhy ▸ rfl

theorem internalMoveItem_settles (hfits : m.Fits env) (hw : m.Sound env w) {destPos : Position}
    (hdest : (m.getTile destPos).isSome) (hq : m.Settles env (m.landing 16 destPos))
    (hne : pos ≠ m.landing 16 destPos) (hi : i ∈ w.contents (.tile pos))
    (ih : ∀ v x, m.Sound env v → x ∈ v.contents (.tile pos) → (v.typeOf env x).moveable = true →
      (v.contents (.tile (m.landing 16 destPos))).length <
        (w.contents (.tile (m.landing 16 destPos))).length →
      ∃ n r, m.postAddNotification env n v pos x = some r ∧ m.Settled env v r.1 r.2) :
    ∃ n r, internalMoveItem env (m.postAddNotification env n) w (.tile pos) (.tile destPos)
        indexWhereever i (w.count i) { noLimit := true } = some r ∧
      m.Settled env w r.world r.rests ∧
      ((w.typeOf env i).moveable = true → Stays env r pos i) := by
  have hnoLimit : ({ noLimit := true } : CylinderFlags).ignoreNotMoveable = false := rfl
  obtain ⟨flags, hflags, hredirect⟩ := redirect_landing i 16 indexWhereever (o := none)
    hfits hw.tile hdest hnoLimit (by rintro ⟨⟩)
  have hhead (x : ThingId) := mem_of_head? (w := w) (q := m.landing 16 destPos) (x := x)
  have hsome : w.tileQueryAdd env (m.landing 16 destPos) i flags = .needExchange →
      ((w.tile (m.landing 16 destPos)).bind fun t => t.downItems.head?) ≠ none :=
    head?_ne_none_of_needExchange hfits hw
  unfold internalMoveItem
  rw [hredirect]
  dsimp only
  generalize m.landing 16 destPos = q at *
  generalize ((w.tile q).bind fun t => t.downItems.head?) = o at *
  have hself : o ≠ some i := by
    intro heq
    have hparent := hw.placed.parent _ i (hhead i heq)
    rw [hw.placed.parent _ i hi] at hparent
    exact hne (Cylinder.tile.inj (Option.some.inj hparent))
  simp only [if_neg hself]
  by_cases hneed : w.queryAdd env (.tile q) indexWhereever i (w.count i) flags false = .needExchange
  · simp only [if_pos hneed]
    cases o with
    | none => exact absurd rfl (hsome hneed)
    | some x =>
        have hplain : (w.typeOf env i).stackable = false := by
          obtain ⟨hhangs, -⟩ := hangable_of_needExchange hneed
          by_contra hstack
          rw [Bool.not_eq_false] at hstack
          have hnot : (w.typeOf env i).isHangable = false :=
            (hfits.sensible.stackable _ hstack).2.2.2.2
          cases hhangs.symm.trans hnot
        exact exchange_settles hfits hw hq hne (hhead x rfl) (hw.placed.fresh _ i hi) hflags hplain
          fun v => ih v x
  simp only [if_neg hneed]
  by_cases hadd : w.queryAdd env (.tile q) indexWhereever i (w.count i) flags false = .noError
  · simp only [if_neg (not_not.mpr hadd)]
    exact moveToPlace_settles indexWhereever (w.count i) hfits hw hq hne hhead hflags fun _ => rfl
  · exact ⟨0, _, if_pos hadd, .refl hw, fun _ why hwhy => .inl (Option.some.inj hwhy ▸ rfl)⟩

/-! ## The tile with the teleport -/

theorem exists_postAddNotification {destPos : Position} {r : Passed}
    (hteleport : m.getTeleportItem pos = some destPos)
    (hr : m.addThing env (m.postAddNotification env n) w pos destPos i = some r)
    (hsettled : m.Settled env w r.world r.rests) (hstays : Stays env r pos i) :
    ∃ n r, m.postAddNotification env n w pos i = some r ∧ m.Settled env w r.1 r.2 := by
  refine ⟨n + 1, (r.world, resting env r.world pos i r.stop ++ r.rests), ?_, hsettled.sound,
    hsettled.onward, fun s hs => ?_⟩
  · simp only [postAddNotification, hteleport, hr, Option.map_some]
  · refine (List.mem_append.mp hs).elim (fun hs => ?_) (hsettled.settled s)
    unfold resting at hs
    cases hstop : r.stop with
    | none =>
        rw [hstop] at hs
        cases hs
    | some why =>
        simp only [hstop] at hs
        split at hs
        · next hholding =>
            obtain rfl := List.mem_singleton.mp hs
            refine (hstays why hstop).resolve_right fun hnot => ?_
            cases hholding.symm.trans hnot
        · cases hs

/-- A tile with a teleport passes on what it gets to a tile that everything settles from. -/
theorem addThing_settles (hfits : m.Fits env) {destPos : Position}
    (hteleport : m.getTeleportItem pos = some destPos) (hnext : m.next pos = some q) (hne : pos ≠ q)
    (hq : m.Settles env q) (hw : m.Sound env w) (hi : i ∈ w.contents (.tile pos)) :
    ∃ n r, m.addThing env (m.postAddNotification env n) w pos destPos i = some r ∧
      m.Settled env w r.world r.rests ∧
      ((w.typeOf env i).moveable = true → Stays env r pos i) := by
  obtain ⟨destPos', destTile, hteleport', hdest, hloop, rfl⟩ := next_eq_some hnext
  obtain rfl := Option.some.inj (hteleport.symm.trans hteleport')
  -- on the number of items that may be in the way
  induction hlength : (w.contents (.tile (m.landing 16 destPos))).length
    using Nat.strong_induction_on generalizing w i with
  | _ l ih =>
      subst hlength
      have hsome : (m.getTile destPos).isSome := by
        rw [hdest]
        rfl
      obtain ⟨n, r, hr, hsettled, hstays⟩ := internalMoveItem_settles hfits hw hsome hq hne hi
        fun v x hv hx hmoveable hless => by
          obtain ⟨n, r, hr, hsettled, hstays⟩ := ih _ hless hv hx rfl
          exact exists_postAddNotification hteleport hr hsettled (hstays hmoveable)
      refine ⟨n, r, ?_, hsettled, hstays⟩
      simp only [addThing, hdest, hloop, Option.bind_some, Bool.false_eq_true, if_false]
      exact hr

/-- Everything settles from a tile that does not pass it on, unless for a possible loop. -/
theorem settles_of_next_none (hnext : m.next pos = none)
    (hpasses : ∀ destPos destTile, m.getTeleportItem pos = some destPos →
      m.getTile destPos = some destTile → m.possibleLoop pos destTile ≠ some true) :
    m.Settles env pos := by
  intro w i hw _ _
  cases hteleport : m.getTeleportItem pos with
  | none =>
      refine ⟨1, (w, resting env w pos i (some .noTeleport)), ?_, hw, .refl, fun s hs => ?_⟩
      · simp only [postAddNotification, hteleport]
      · unfold resting at hs
        dsimp only at hs
        split at hs
        · obtain rfl := List.mem_singleton.mp hs
          rfl
        · cases hs
  | some destPos =>
      cases hdest : m.getTile destPos with
      | none =>
          have hr : m.addThing env (m.postAddNotification env 0) w pos destPos i =
              some ⟨w, some .noTile, []⟩ := by simp only [addThing, hdest]
          refine exists_postAddNotification hteleport hr (.refl hw) fun why hwhy => .inl ?_
          exact Option.some.inj hwhy ▸ rfl
      | some destTile =>
          simp only [next, hteleport, hdest, Option.bind_some,
            if_neg (hpasses destPos destTile hteleport hdest)] at hnext
          cases hnext

theorem settles_of_next (hfits : m.Fits env) (hnext : m.next pos = some q) (hne : pos ≠ q)
    (hq : m.Settles env q) : m.Settles env pos := by
  intro w i hw hi hmoveable
  obtain ⟨destPos, destTile, hteleport, -⟩ := next_eq_some hnext
  obtain ⟨n, r, hr, hsettled, hstays⟩ := addThing_settles hfits hteleport hnext hne hq hw hi
  exact exists_postAddNotification hteleport hr hsettled (hstays hmoveable)

end TeleportMap

end Bruxo
