import Bruxo.KeptItems
import Bruxo.Money
import Bruxo.Lib.BreadthFirst

/-!
# Taking money away

`Game::removeMoney` (`game.cpp`). The coins of a cylinder and of the containers in it are gathered
by their worth, and taken from the smallest worth on until the amount is reached; of the last stack
as many are taken as are needed, and what they are worth too much is given back by `addMoney`,
before they are taken.

A stack counts for the low 32 bits of what it is worth, and the change may be lost, or may never
come to an end, as in `addMoney`.
-/

namespace Bruxo

namespace World

open Growth

/-! ## The function -/

section RemoveMoney

variable (env : Env) (passOn : PassOn) (currency : Currency) (canRemove : ThingId → Bool)
  (c : Cylinder) (flags : CylinderFlags) (w : World)

/-- `internalRemoveItem`; a bed in a house, for one, can not be removed. -/
def internalRemoveItem (item : ThingId) (count : Nat) : World :=
  match (w.thing item).parent with
  | none => w
  | some cylinder =>
      let ret := w.queryRemove env cylinder item count { ignoreNotMoveable := true } false
      if ret ≠ .noError then w
      else if ¬ canRemove item then w
      else w.removeThing env cylinder item count

/-- `Item::getWorth` -/
def getWorth (i : ThingId) : Nat := w.worth currency.worth i % 2 ^ 32

/-- An item of which a worth is known goes behind those of the same worth. -/
def emplace (moneyMap : List (Nat × ThingId)) (item : ThingId) : List (Nat × ThingId) :=
  if w.getWorth currency item = 0 then moneyMap
  else moneyMap.orderedInsert (fun a b => a.1 < b.1) (w.getWorth currency item, item)

/-- The items of one cylinder that are no containers. -/
def gatherItems (items : List ThingId) (moneyMap : List (Nat × ThingId)) : List (Nat × ThingId) :=
  (items.filter fun i => !(w.thing i).isContainer).foldl (w.emplace currency) moneyMap

/-- The loop over the containers, of which there are no more than the number. -/
def gather : Nat → List ThingId → List (Nat × ThingId) → Option (List (Nat × ThingId))
  | _, [], moneyMap => some moneyMap
  | 0, _ :: _, _ => none
  | n + 1, container :: containers, moneyMap =>
      let items := (w.thing container).itemlist
      gather n (containers ++ items.filter fun i => (w.thing i).isContainer)
        (w.gatherItems currency items moneyMap)

/-- `moneyMap` -/
def moneyMap (n : Nat) : Option (List (Nat × ThingId)) :=
  w.gather currency n ((w.contents c).filter fun i => (w.thing i).isContainer)
    (w.gatherItems currency (w.contents c) [])

/-- How many coins of a worth are needed. The quotient of the doubles is rounded to the same
number: both are below 2^32, and the quotient is below 512. -/
def removeCount (worth money : Nat) : Nat := (money + worth - 1) / worth

/-- What these coins are worth too much, in 32 and 64 bits. -/
def change (worth money : Nat) : Nat :=
  (worth * removeCount worth money % 2 ^ 32 + 2 ^ 64 - money) % 2 ^ 64

/-- The loop over the map, where a number bounds the turns of `addMoney`; a worth of zero of one
coin is a division by zero. -/
def spend (n : Nat) : World → List (Nat × ThingId) → Nat → Option World
  | w, [], _ => some w
  | w, (worth, item) :: rest, money =>
      if worth < money then
        spend n (w.internalRemoveItem env canRemove item (w.count item)) rest (money - worth)
      else if money < worth then
        let worth := worth / w.count item
        if worth = 0 then none
        else
          (addMoney env passOn currency c flags n w (change worth money)).map fun w =>
            w.internalRemoveItem env canRemove item (removeCount worth money)
      else some (w.internalRemoveItem env canRemove item (w.count item))

/-- `removeMoney`, where a number bounds the turns of the loops. -/
def removeMoney (n : Nat) (money : Nat) : Option (Bool × World) :=
  if money = 0 then some (true, w)
  else
    (w.moneyMap currency c n).bind fun moneyMap =>
      let moneyCount := (moneyMap.map Prod.fst).sum % 2 ^ 64
      if moneyCount < money then some (false, w)
      else (spend env passOn currency canRemove c flags n w moneyMap money).map (true, ·)

end RemoveMoney

/-! ## The coins that are gathered -/

/-- No container lies in itself. -/
def Nested (w : World) : Prop :=
  ∀ k, ¬ Relation.TransGen (fun k i => i ∈ (w.thing k).itemlist) k k

/-- Every entry is an item with what it counts for, and no item has two. -/
structure Coins (currency : Currency) (w : World) (m : List (Nat × ThingId)) : Prop where
  worth : ∀ e ∈ m, e.1 = w.getWorth currency e.2 ∧ e.1 ≠ 0
  held : ∀ e ∈ m, ∃ c, e.2 ∈ w.contents c
  nodup : (m.map Prod.snd).Nodup

section Gather

variable {env : Env} {currency : Currency} {w : World} {c : Cylinder} {n : Nat}
  {l l' : List ThingId} {m : List (Nat × ThingId)}

theorem emplace_perm (currency : Currency) (w : World) (m : List (Nat × ThingId)) (i : ThingId) :
    (w.emplace currency m i).Perm
      ((if w.getWorth currency i = 0 then [] else [(w.getWorth currency i, i)]) ++ m) := by
  unfold emplace
  split
  · exact List.Perm.refl _
  · exact List.perm_orderedInsert _ _ _

/-- The coins of a list, with what they count for. -/
def coinsOf (currency : Currency) (w : World) (l : List ThingId) : List (Nat × ThingId) :=
  (l.filter fun i => !(w.thing i).isContainer && w.getWorth currency i ≠ 0).map fun i =>
    (w.getWorth currency i, i)

theorem gatherItems_perm (currency : Currency) (w : World) (l : List ThingId)
    (m : List (Nat × ThingId)) :
    (w.gatherItems currency l m).Perm (coinsOf currency w l ++ m) := by
  unfold gatherItems
  induction l generalizing m with
  | nil => exact List.Perm.refl _
  | cons i l ih =>
      unfold coinsOf at ih ⊢
      by_cases hcontainer : (w.thing i).isContainer = true
      · simp only [List.filter_cons, hcontainer, Bool.not_true, Bool.false_and,
          Bool.false_eq_true, if_false]
        exact ih m
      have hfalse : (w.thing i).isContainer = false := Bool.eq_false_iff.mpr hcontainer
      by_cases hworth : w.getWorth currency i = 0
      · have hsame : w.emplace currency m i = m := if_pos hworth
        simp only [List.filter_cons, hfalse, Bool.not_false, Bool.true_and, if_true, hworth,
          ne_eq, not_true_eq_false, decide_false, Bool.false_eq_true, if_false, List.foldl_cons,
          hsame]
        exact ih m
      · simp only [List.filter_cons, hfalse, Bool.not_false, Bool.true_and, if_true, hworth,
          ne_eq, not_false_eq_true, decide_true, List.foldl_cons, List.map_cons,
          List.cons_append]
        have hplace := emplace_perm currency w m i
        rw [if_neg hworth] at hplace
        exact (ih _).trans ((hplace.append_left _).trans List.perm_middle)

/-- The containers in a container. -/
def subContainers (w : World) (k : ThingId) : List ThingId :=
  (w.thing k).itemlist.filter fun i => (w.thing i).isContainer

theorem gatherItems_append (l l' : List ThingId) (m : List (Nat × ThingId)) :
    w.gatherItems currency (l ++ l') m =
      w.gatherItems currency l' (w.gatherItems currency l m) := by
  unfold gatherItems
  rw [List.filter_append, List.foldl_append]

theorem gather_eq (queue : List ThingId) (m : List (Nat × ThingId)) :
    w.gather currency n queue m = (BreadthFirst.visit w.subContainers n queue).map fun l =>
      w.gatherItems currency (l.flatMap fun k => (w.thing k).itemlist) m := by
  induction n generalizing queue m with
  | zero => cases queue <;> rfl
  | succ n ih =>
      cases queue with
      | nil => rfl
      | cons k queue =>
          rw [gather, BreadthFirst.visit, Option.map_map]
          refine (ih _ _).trans (congrArg (fun f => Option.map f _) (funext fun l => ?_))
          rw [Function.comp_apply, List.flatMap_cons, gatherItems_append]

theorem moneyMap_eq : w.moneyMap currency c n =
    (BreadthFirst.visit w.subContainers n ((w.contents c).filter fun i =>
      (w.thing i).isContainer)).map fun l => w.gatherItems currency
        (w.contents c ++ l.flatMap fun k => (w.thing k).itemlist) [] := by
  unfold moneyMap
  rw [gather_eq]
  refine congrArg (fun f => Option.map f _) (funext fun l => ?_)
  rw [gatherItems_append]

theorem mem_of_child {k i : ThingId} (h : i ∈ w.subContainers k) : i ∈ (w.thing k).itemlist :=
  (List.mem_filter.mp h).1

/-- A container is not reached from what it holds itself. -/
theorem not_reached_self {k : ThingId} (hnested : w.Nested) (hc : c = .container k) :
    ¬ BreadthFirst.Reached w.subContainers
      ((w.contents c).filter fun i => (w.thing i).isContainer) k := by
  subst hc
  rintro ⟨r, hr, hpath⟩
  have hfirst : r ∈ (w.thing k).itemlist := (List.mem_filter.mp hr).1
  have hmono : Relation.ReflTransGen (fun k i => i ∈ (w.thing k).itemlist) r k :=
    Relation.ReflTransGen.mono (fun a b hab => mem_of_child hab) r k hpath
  exact hnested k (Relation.TransGen.head' hfirst hmono)

theorem parent_unique (hw : Placed env w) {c c' : Cylinder} {i : ThingId} (hi : i ∈ w.contents c)
    (hi' : i ∈ w.contents c') : c = c' := by
  have hparent := hw.parent c i hi
  rw [hw.parent c' i hi'] at hparent
  exact (Option.some.inj hparent).symm

theorem forest_of_placed (hw : Placed env w) (hnested : w.Nested) :
    BreadthFirst.Forest w.subContainers
      ((w.contents c).filter fun i => (w.thing i).isContainer) where
  children_nodup k := (hw.nodup (.container k)).filter _
  parent k k' i hi hi' := by
    have hsame : Cylinder.container k = .container k' :=
      parent_unique hw (mem_of_child hi) (mem_of_child hi')
    exact Cylinder.container.inj hsame
  roots_nodup := (hw.nodup c).filter _
  root k hk i hi hroot := by
    have hsame : c = .container k :=
      parent_unique hw (List.mem_filter.mp hroot).1 (mem_of_child hi)
    exact not_reached_self hnested hsame hk

theorem reached_lt (hw : Placed env w) {k : ThingId} (h : BreadthFirst.Reached w.subContainers
    ((w.contents c).filter fun i => (w.thing i).isContainer) k) : k ∈ Finset.range w.nextId := by
  rw [Finset.mem_range]
  obtain ⟨r, hr, hpath⟩ := h
  cases hpath with
  | refl => exact hw.fresh c _ (List.mem_filter.mp hr).1
  | @tail b _ _ hchild => exact hw.fresh (.container b) _ (mem_of_child hchild)

/-- All the items that are looked at lie somewhere, and each is looked at once. -/
theorem items_nodup (hw : Placed env w) (hnested : w.Nested) (hl : l.Nodup)
    (hreached : ∀ k ∈ l, BreadthFirst.Reached w.subContainers
      ((w.contents c).filter fun i => (w.thing i).isContainer) k) :
    (w.contents c ++ l.flatMap fun k => (w.thing k).itemlist).Nodup := by
  refine List.nodup_append.mpr ⟨hw.nodup c, List.nodup_flatMap.mpr ⟨fun k _ =>
    hw.nodup (.container k), hl.imp ?_⟩, ?_⟩
  · intro k k' hne i hi hi'
    have hsame : Cylinder.container k = .container k' := parent_unique hw hi hi'
    exact hne (Cylinder.container.inj hsame)
  · rintro i hi j hj rfl
    obtain ⟨k, hk, hmem⟩ := List.mem_flatMap.mp hj
    have hsame : c = .container k := parent_unique hw hi hmem
    exact not_reached_self hnested hsame (hreached k hk)

theorem coins_of_items (hl : l.Nodup) (hheld : ∀ i ∈ l, ∃ c, i ∈ w.contents c) :
    Coins currency w (w.gatherItems currency l []) := by
  have hperm := gatherItems_perm currency w l []
  rw [List.append_nil] at hperm
  have hitem : ∀ e ∈ w.gatherItems currency l [], ∃ i ∈ l,
      w.getWorth currency i ≠ 0 ∧ (w.getWorth currency i, i) = e := by
    intro e he
    obtain ⟨i, hi, rfl⟩ := List.mem_map.mp (hperm.subset he)
    obtain ⟨hmem, hcoin⟩ := List.mem_filter.mp hi
    exact ⟨i, hmem, of_decide_eq_true (Bool.and_eq_true_iff.mp hcoin).2, rfl⟩
  refine ⟨fun e he => ?_, fun e he => ?_, ?_⟩
  · obtain ⟨i, -, hworth, rfl⟩ := hitem e he
    exact ⟨rfl, hworth⟩
  · obtain ⟨i, hi, -, rfl⟩ := hitem e he
    exact hheld i hi
  · refine (hperm.map Prod.snd).nodup_iff.mpr ?_
    unfold coinsOf
    rw [List.map_map]
    have hid : (Prod.snd ∘ fun i => (w.getWorth currency i, i)) = id := rfl
    rw [hid, List.map_id]
    exact hl.filter _

/-- There are enough turns for the containers from the number of all things on, and what is
gathered then are coins. -/
theorem moneyMap_coins (currency : Currency) (c : Cylinder) (hw : Placed env w)
    (hnested : w.Nested) (hn : w.nextId ≤ n) :
    ∃ m, w.moneyMap currency c n = some m ∧ Coins currency w m := by
  have hcard : (Finset.range w.nextId).card ≤ n := by rwa [Finset.card_range]
  obtain ⟨l, hl, hnodup, hreached⟩ := BreadthFirst.visit_forest
    (forest_of_placed (c := c) hw hnested) (fun k hk => reached_lt hw hk) hcard
  refine ⟨_, moneyMap_eq.trans (by rw [hl]; rfl),
    coins_of_items (items_nodup hw hnested hnodup hreached) fun i hi => ?_⟩
  rcases List.mem_append.mp hi with hi | hi
  · exact ⟨c, hi⟩
  · obtain ⟨k, -, hmem⟩ := List.mem_flatMap.mp hi
    exact ⟨.container k, hmem⟩

/-- More turns do not gather anything else. -/
theorem moneyMap_unique {n' : Nat} {m' : List (Nat × ThingId)}
    (h : w.moneyMap currency c n = some m) (h' : w.moneyMap currency c n' = some m') : m = m' := by
  rw [moneyMap_eq] at h h'
  obtain ⟨l, hl, rfl⟩ := Option.map_eq_some_iff.mp h
  obtain ⟨l', hl', rfl⟩ := Option.map_eq_some_iff.mp h'
  rw [BreadthFirst.visit_unique hl hl']

end Gather

/-! ## Taking a stack away -/

/-- Whether a part of the item can be taken: a ground and what is always on top are taken off a
tile as a whole. -/
def divides (env : Env) (w : World) (i : ThingId) : Bool :=
  (w.typeOf env i).stackable &&
    match (w.thing i).parent with
    | some (.tile _) => !(w.typeOf env i).alwaysOnTop && !(w.typeOf env i).isGroundTile
    | _ => true

section Remove

variable {env : Env} {canRemove : ThingId → Bool} {w : World} {c : Cylinder} {i : ThingId}
  {count : Nat}

/-- Of what can not be divided all is taken, unless it is a ground that does not lie as one. -/
theorem removeThing_undivided (hp : (w.thing i).parent = some c)
    (hground : (w.typeOf env i).isGroundTile = false) (h : w.divides env i = false) :
    w.removeThing env c i count = w.removeThing env c i (w.count i) := by
  unfold divides at h
  rw [hp] at h
  cases c with
  | tile pos =>
      simp only [hground, Bool.not_false, Bool.and_true] at h
      simp only [removeThing, tileRemoveThing]
      split
      · rfl
      · by_cases htop : (w.typeOf env i).alwaysOnTop = true
        · simp only [htop, if_true]
        rw [Bool.eq_false_iff.mpr htop, Bool.not_false, Bool.and_true] at h
        simp only [splits_of_one h, Bool.false_eq_true, if_false]
  | container k =>
      rw [Bool.and_true] at h
      simp only [removeThing, containerRemoveThing, splits_of_one h, Bool.false_eq_true, if_false]
  | player p =>
      rw [Bool.and_true] at h
      simp only [removeThing, playerRemoveThing, splits_of_one h, Bool.false_eq_true, if_false]

/-- What can be divided counts less then. -/
theorem removeThing_divided (hw : Placed env w) (hi : i ∈ w.contents c)
    (h : w.divides env i = true) (hcount : count ≠ w.count i) :
    Recounts w (w.removeThing env c i count) i (w.count i - count) := by
  have hhold := holding_of_sorted hw.sorted hi
  unfold divides at h
  rw [hw.parent c i hi] at h
  obtain ⟨hstack, hplain⟩ := Bool.and_eq_true_iff.mp h
  have hsplit : w.splits env i count = true := by
    simp only [splits, hstack, Bool.true_and]
    exact decide_eq_true hcount
  cases c with
  | tile pos =>
      obtain ⟨htop, hground⟩ := Bool.and_eq_true_iff.mp hplain
      rw [Bool.not_eq_true'] at htop hground
      have hneg : ¬ (w.typeOf env i).alwaysOnTop = true := Bool.eq_false_iff.mp htop
      simp only [isHolding] at hhold
      cases ht : w.tile pos with
      | none =>
          rw [ht] at hhold
          cases hhold
      | some t =>
          have hng : t.ground ≠ some i := by
            intro heq
            have hlies := (hw.sorted pos t ht).ground i heq
            rw [hground] at hlies
            cases hlies
          simp only [ht, Bool.or_eq_true, decide_eq_true_eq, List.contains_iff_mem, hng, false_or,
            if_neg hneg] at hhold
          simp only [removeThing, tileRemoveThing, ht, if_neg hng, if_neg hneg, if_pos hhold,
            if_pos hsplit]
          exact reduce_recounts i count
  | container k =>
      simp only [removeThing, containerRemoveThing, if_pos (List.contains_iff_mem.mp hhold),
        if_pos hsplit]
      exact reduce_recounts i count
  | player p =>
      simp only [removeThing, playerRemoveThing]
      cases hfind : slots.find? fun slot => (w.player p).inventory slot = some i with
      | none =>
          obtain ⟨slot, hslot, hworn⟩ := List.any_eq_true.mp hhold
          exact absurd hworn (List.find?_eq_none.mp hfind slot hslot)
      | some slot =>
          simp only [if_pos hsplit]
          exact reduce_recounts i count

/-- An item that is there and can be removed is taken. -/
theorem internalRemoveItem_eq (hw : Placed env w) (hi : i ∈ w.contents c)
    (hcan : canRemove i = true) (hpos : 0 < count) (hle : count ≤ w.count i) :
    w.internalRemoveItem env canRemove i count = w.removeThing env c i count := by
  have hhold := holding_of_sorted hw.sorted hi
  have hanswer : w.queryRemove env c i count { ignoreNotMoveable := true } false = .noError := by
    unfold queryRemove
    rw [if_neg (not_not_intro hhold), if_neg (by omega), if_neg fun h => h.2 rfl]
    cases c <;> rfl
  unfold internalRemoveItem
  rw [hw.parent c i hi]
  dsimp only
  rw [if_neg (not_not_intro hanswer), if_neg (not_not_intro hcan)]

theorem internalRemoveItem_takes (hw : Placed env w) (hi : i ∈ w.contents c)
    (hcan : canRemove i = true) (hpos : 0 < w.count i) :
    Takes env w (w.internalRemoveItem env canRemove i (w.count i)) c i := by
  rw [internalRemoveItem_eq hw hi hcan hpos (Nat.le_refl _)]
  exact removeThing_takes (holding_of_sorted hw.sorted hi) splits_whole

/-- Of what can be divided the number is taken that is asked for, else all. -/
theorem internalRemoveItem_grows (hw : Placed env w) (hi : i ∈ w.contents c)
    (hcan : canRemove i = true) (hpos : 0 < count) (hle : count ≤ w.count i)
    (h : w.divides env i = true ∨ count = w.count i ∨ (w.typeOf env i).isGroundTile = false)
    (price : UInt16 → Nat) :
    Grows (w.valueAt price) ((w.internalRemoveItem env canRemove i count).valueAt price)
      (-(price (w.thing i).id * (if w.divides env i then count else w.count i) : Nat)) := by
  have hsome : 0 < w.count i := Nat.lt_of_lt_of_le hpos hle
  have htakes : Grows (w.valueAt price)
      ((w.internalRemoveItem env canRemove i (w.count i)).valueAt price)
      (-(price (w.thing i).id * w.count i : Nat)) :=
    (internalRemoveItem_takes hw hi hcan hsome).grows price
  by_cases hall : count = w.count i
  · subst hall
    rw [ite_self]
    exact htakes
  rw [internalRemoveItem_eq hw hi hcan hpos hle]
  by_cases hdivides : w.divides env i = true
  · rw [if_pos hdivides]
    have hgrows := (removeThing_divided hw hi hdivides hall).grows hw hi price
    have hsplit : price (w.thing i).id * (w.count i - count) +
        price (w.thing i).id * count = w.worth price i := by
      rw [← Nat.mul_add, Nat.sub_add_cancel hle]
      rfl
    have hdiff : ((price (w.thing i).id * (w.count i - count) : Nat) : Int) -
        (w.worth price i : Nat) = -(price (w.thing i).id * count : Nat) := by
      omega
    rwa [hdiff] at hgrows
  · have hground := (h.resolve_left hdivides).resolve_left hall
    rw [if_neg hdivides, removeThing_undivided (hw.parent c i hi) hground
      (Bool.eq_false_iff.mpr hdivides)]
    rwa [internalRemoveItem_eq hw hi hcan hsome (Nat.le_refl _)] at htakes

end Remove

/-! ## The change leaves the coins alone -/

/-- Neither the cylinder nor its tile drops a thing of worth for the stack, but for what is of its
type. -/
def Spared (env : Env) (currency : Currency) (c : Cylinder) (flags : CylinderFlags) (w : World)
    (stack : UInt16 × Nat) : Prop :=
  ∀ t, createItem env stack.1 (UInt16.ofNat stack.2) = some t →
    (newCall w t flags).Spares env c currency.worth 256 ∧
      ((newCall w t flags).answer env c ≠ .noError → ∀ pos, getTile env c (w.create t) = some pos →
        (newCall w t { noLimit := true }).Spares env (.tile pos) currency.worth 256)

section Leaves

variable {env : Env} {passOn : PassOn} {currency : Currency} {c : Cylinder} {flags : CylinderFlags}
  {w w' : World} {stack : UInt16 × Nat} {j : ThingId} {n money : Nat}

theorem spares_of_refused {call : AddCall} {price : UInt16 → Nat}
    (h : call.answer env c ≠ .noError) : call.Spares env c price n := by
  intro call' hcall' hanswer
  cases n with
  | zero => cases hcall'
  | succ n =>
      rw [calls_of_last (rest_of_refused h)] at hcall'
      obtain rfl := List.mem_singleton.mp hcall'
      exact absurd hanswer h

theorem spared_of_accepted (h : Accepted env currency c flags w stack) :
    Spared env currency c flags w stack := by
  obtain ⟨t, ht, -, haccepted⟩ := h
  intro t' ht'
  cases ht.symm.trans ht'
  rcases haccepted with hwhole | ⟨hrefused, pos, hpos, hwhole⟩
  · refine ⟨AddCall.Whole.spares hwhole, fun hrefused => absurd hwhole ?_⟩
    exact not_whole_of_refused 255 hrefused
  · refine ⟨spares_of_refused hrefused, fun _ pos' hpos' => ?_⟩
    cases hpos.symm.trans hpos'
    exact AddCall.Whole.spares hwhole

theorem spared_of_plain (hw : Placed env w) (hc : w.Real c) (hflags : flags.childIsOwner = false)
    (hplain : ∀ t, createItem env stack.1 (UInt16.ofNat stack.2) = some t →
      Plain (env.items t.id)) : Spared env currency c flags w stack := by
  intro t ht
  have hblank := createItem_blank ht
  have htype : (w.create t).typeOf env w.nextId = env.items t.id := by
    unfold typeOf
    rw [create_thing_self]
  have hit : Plain ((w.create t).typeOf env w.nextId) := htype ▸ hplain t ht
  have hplaced : Placed env (w.create t) := create_placed hw hblank
  refine ⟨spares_of_plain _ hplaced (real_create hc t) hit hflags, fun _ pos _ => ?_⟩
  exact spares_of_plain _ hplaced (fun k hk => by cases hk) hit rfl

theorem addStack_placed (passOn : PassOn) (hw : Placed env w) (hc : w.Real c)
    (hquiet : Quiet env c flags w stack) :
    Placed env (addStack env passOn c flags w stack) ∧
      (addStack env passOn c flags w stack).Real c := by
  cases ht : createItem env stack.1 (UInt16.ofNat stack.2) with
  | none =>
      unfold addStack
      rw [ht]
      exact ⟨hw, hc⟩
  | some t =>
      obtain ⟨hplaced, hreal, -⟩ := addStack_grows passOn (fun _ => 1) hw hc hquiet ht Nat.one_pos
      exact ⟨hplaced, hreal⟩

theorem addWith_keeps {item : ThingId} (hw : Placed env w) (hitem : Loose w item) (hc : w.Real c)
    (hstays : AddCall.AllStay env c ⟨w, item, indexWhereever, flags⟩ 256)
    (hspares : AddCall.Spares env c currency.worth ⟨w, item, indexWhereever, flags⟩ 256)
    (hj : j < w.nextId) (hworth : 0 < w.worth currency.worth j)
    (hid : (w.thing j).id ≠ (w.thing item).id) :
    Keeps w (addWith env passOn w c item flags).world j := by
  have hsome : (internalAddItemPassing env passOn 256 w c item indexWhereever flags).isSome =
      true :=
    internalAddItemPassing_isSome passOn ⟨w, item, indexWhereever, flags⟩ (w.count_lt item)
  obtain ⟨r, hr⟩ := Option.isSome_iff_exists.mp hsome
  have heq : addWith env passOn w c item flags = r := by
    unfold addWith
    rw [hr]
    rfl
  rw [heq]
  exact internalAddItemPassing_keeps passOn ⟨w, item, indexWhereever, flags⟩ hw hitem hc hstays
    hspares hj hworth hid hr

theorem addStack_keeps (hw : Placed env w) (hc : w.Real c) (hquiet : Quiet env c flags w stack)
    (hspared : Spared env currency c flags w stack)
    (hother : ∀ t, createItem env stack.1 (UInt16.ofNat stack.2) = some t →
      t.id ≠ (w.thing j).id) (hj : j < w.nextId) (hworth : 0 < w.worth currency.worth j) :
    Keeps w (addStack env passOn c flags w stack) j := by
  cases ht : createItem env stack.1 (UInt16.ofNat stack.2) with
  | none =>
      unfold addStack
      rw [ht]
      exact Keeps.refl
  | some t =>
      have hblank := createItem_blank ht
      have hplaced : Placed env (w.create t) := create_placed hw hblank
      have hloose : Loose (w.create t) w.nextId := create_loose hw hblank
      have hcreate : Keeps w (w.create t) j := create_keeps hw hblank hj
      have hj' : j < (w.create t).nextId := Nat.lt_succ_of_lt hj
      have hworth' : 0 < (w.create t).worth currency.worth j := by rwa [hcreate.worth]
      have hid : ((w.create t).thing j).id ≠ ((w.create t).thing w.nextId).id := by
        rw [hcreate.id, create_thing_self]
        exact (hother t ht).symm
      obtain ⟨hfirst, hsecond⟩ := hspared t ht
      obtain ⟨hstays, hstays'⟩ := hquiet t ht
      have hadds : Adds env c (fun _ => 1) (newCall w t flags) 256
          (addWith env passOn (w.create t) c w.nextId flags) :=
        addWith_adds Nat.one_pos hplaced hloose (real_create hc t) hstays
      unfold addStack
      rw [ht]
      dsimp only
      split
      · next hrefused =>
          rw [hadds.ret] at hrefused
          rw [hadds.refused hrefused]
          dsimp only
          split
          · exact hcreate
          · next pos hpos =>
              exact hcreate.trans (addWith_keeps hplaced hloose (fun k hk => by cases hk)
                (hstays' pos hpos) (hsecond hrefused pos hpos) hj' hworth' hid)
      · exact hcreate.trans (addWith_keeps hplaced hloose (real_create hc t) hstays hfirst hj'
          hworth' hid)

/-- Of another type than all the stacks, an item that they do not drop stays. -/
theorem addMoney_keeps (hw : Placed env w) (hc : w.Real c)
    (hquiet : Runs.Throughout (addStack env passOn c flags) (Quiet env c flags) w
      (allStacks currency.currencyItems money))
    (hspared : Runs.Throughout (addStack env passOn c flags) (Spared env currency c flags) w
      (allStacks currency.currencyItems money))
    (hother : ∀ stack ∈ allStacks currency.currencyItems money, ∀ t,
      createItem env stack.1 (UInt16.ofNat stack.2) = some t → t.id ≠ (w.thing j).id)
    {c' : Cylinder} (hj : j ∈ w.contents c') (hworth : 0 < w.worth currency.worth j)
    (h : addMoney env passOn currency c flags n w money = some w') :
    Placed env w' ∧ Keeps w w' j := by
  by_cases hmoney : money = 0
  · cases (if_pos hmoney).symm.trans h
    exact ⟨hw, Keeps.refl⟩
  obtain ⟨-, rfl⟩ := addCurrencies_eq_some ((if_neg hmoney).symm.trans h)
  let Inv (v : World) : Prop := Placed env v ∧ v.Real c ∧ Keeps w v j
  let C (v : World) (stack : UInt16 × Nat) : Prop :=
    Quiet env c flags v stack ∧ Spared env currency c flags v stack ∧
      ∀ t, createItem env stack.1 (UInt16.ofNat stack.2) = some t → t.id ≠ (w.thing j).id
  have hstep : ∀ v stack, Inv v → C v stack → Inv (addStack env passOn c flags v stack) := by
    rintro v stack ⟨hplaced, hreal, hkeeps⟩ ⟨hquiet, hspared, hother⟩
    obtain ⟨hplaced', hreal'⟩ := addStack_placed passOn hplaced hreal hquiet
    refine ⟨hplaced', hreal', hkeeps.trans (addStack_keeps hplaced hreal hquiet hspared ?_
      (hplaced.fresh c' j (hkeeps.held c' hj)) ?_)⟩
    · rwa [hkeeps.id]
    · rwa [hkeeps.worth]
  have hall : Runs.Throughout (addStack env passOn c flags) C w
      (allStacks currency.currencyItems money) := fun pre stack post heq =>
    ⟨hquiet pre stack post heq, hspared pre stack post heq, hother stack (heq ▸
      List.mem_append_right _ List.mem_cons_self)⟩
  obtain ⟨hplaced, -, hkeeps⟩ := Runs.run_inv hstep ⟨hw, hc, Keeps.refl⟩ hall
  exact ⟨hplaced, hkeeps⟩

/-- Where `addMoney` pays, nothing of worth is dropped. -/
theorem addMoney_keeps_of_pays (hw : Placed env w) (hc : w.Real c)
    (hquiet : Runs.Throughout (addStack env passOn c flags) (Quiet env c flags) w
      (allStacks currency.currencyItems money))
    (hpays : Pays env passOn currency c flags w money)
    (hother : ∀ stack ∈ allStacks currency.currencyItems money, ∀ t,
      createItem env stack.1 (UInt16.ofNat stack.2) = some t → t.id ≠ (w.thing j).id)
    {c' : Cylinder} (hj : j ∈ w.contents c') (hworth : 0 < w.worth currency.worth j)
    (h : addMoney env passOn currency c flags n w money = some w') :
    Placed env w' ∧ Keeps w w' j := by
  rcases hpays with hzero | ⟨-, -, haccepted⟩
  · cases (if_pos hzero).symm.trans h
    exact ⟨hw, Keeps.refl⟩
  · exact addMoney_keeps hw hc hquiet (fun pre stack post heq =>
      spared_of_accepted (haccepted pre stack post heq)) hother hj hworth h

/-- Nor are things of other types where the coins are plain. -/
theorem addMoney_keeps_of_plain (hw : Placed env w) (hc : w.Real c)
    (hquiet : Runs.Throughout (addStack env passOn c flags) (Quiet env c flags) w
      (allStacks currency.currencyItems money))
    (hplain : ∀ stack ∈ allStacks currency.currencyItems money, ∀ t,
      createItem env stack.1 (UInt16.ofNat stack.2) = some t → Plain (env.items t.id))
    (hflags : flags.childIsOwner = false)
    (hother : ∀ stack ∈ allStacks currency.currencyItems money, ∀ t,
      createItem env stack.1 (UInt16.ofNat stack.2) = some t → t.id ≠ (w.thing j).id)
    {c' : Cylinder} (hj : j ∈ w.contents c') (hworth : 0 < w.worth currency.worth j)
    (h : addMoney env passOn currency c flags n w money = some w') :
    Placed env w' ∧ Keeps w w' j := by
  let C (v : World) (stack : UInt16 × Nat) : Prop :=
    Quiet env c flags v stack ∧ ∀ t, createItem env stack.1 (UInt16.ofNat stack.2) = some t →
      Plain (env.items t.id)
  have hall : Runs.Throughout (addStack env passOn c flags) C w
      (allStacks currency.currencyItems money) := fun pre stack post heq =>
    ⟨hquiet pre stack post heq, hplain stack (heq ▸ List.mem_append_right _ List.mem_cons_self)⟩
  have hspared : Runs.Throughout (addStack env passOn c flags) (Spared env currency c flags) w
      (allStacks currency.currencyItems money) := by
    let Inv (v : World) : Prop := Placed env v ∧ v.Real c
    have hstep : ∀ v stack, Inv v → C v stack → Inv (addStack env passOn c flags v stack) := by
      rintro v stack ⟨hplaced, hreal⟩ ⟨hquiet, -⟩
      exact addStack_placed passOn hplaced hreal hquiet
    have hof : ∀ v stack, Inv v → C v stack → Spared env currency c flags v stack := by
      rintro v stack ⟨hplaced, hreal⟩ ⟨-, hplain⟩
      exact spared_of_plain hplaced hreal hflags hplain
    exact Runs.throughout_of_inv hstep hof ⟨hw, hc⟩ hall
  exact addMoney_keeps hw hc hquiet hspared hother hj hworth h

end Leaves

/-! ## The coins that are spent -/

/-- The entries that the loop comes to. -/
def spent : List (Nat × ThingId) → Nat → List (Nat × ThingId)
  | [], _ => []
  | e :: rest, money => if e.1 < money then e :: spent rest (money - e.1) else [e]

/-- The stack of which a part is taken, what one of it counts for, and the money that is left. -/
structure LastStack where
  world : World
  item : ThingId
  worth : Nat
  money : Nat

def lastStack (env : Env) (canRemove : ThingId → Bool) :
    World → List (Nat × ThingId) → Nat → Option LastStack
  | _, [], _ => none
  | w, (worth, item) :: rest, money =>
      if worth < money then
        lastStack env canRemove (w.internalRemoveItem env canRemove item (w.count item)) rest
          (money - worth)
      else if money < worth then some ⟨w, item, worth / w.count item, money⟩
      else none

/-- A part of the stack can be taken, or all of it is; what comes back for it is paid, and no part
of that is of the type of the stack. -/
structure Gives (env : Env) (passOn : PassOn) (currency : Currency) (c : Cylinder)
    (flags : CylinderFlags) (s : LastStack) : Prop where
  part : s.world.divides env s.item = true ∨
    removeCount s.worth s.money = s.world.count s.item
  other : ∀ stack ∈ allStacks currency.currencyItems (change s.worth s.money), ∀ t,
    createItem env stack.1 (UInt16.ofNat stack.2) = some t → t.id ≠ (s.world.thing s.item).id
  pays : Pays env passOn currency c flags s.world (change s.worth s.money)

/-- Every stack that the loop comes to counts for what it is worth and can be removed, and the last
one gives what it is worth too much. -/
structure Spends (env : Env) (passOn : PassOn) (currency : Currency) (canRemove : ThingId → Bool)
    (c : Cylinder) (flags : CylinderFlags) (w : World) (m : List (Nat × ThingId)) (money : Nat) :
    Prop where
  whole : ∀ e ∈ spent m money, w.worth currency.worth e.2 < 2 ^ 32 ∧ canRemove e.2 = true
  gives : ∀ s ∈ lastStack env canRemove w m money, Gives env passOn currency c flags s

/-- No teleport, trash holder or mailbox gets what comes back. -/
def QuietChange (env : Env) (passOn : PassOn) (currency : Currency) (canRemove : ThingId → Bool)
    (c : Cylinder) (flags : CylinderFlags) (w : World) (m : List (Nat × ThingId)) (money : Nat) :
    Prop :=
  ∀ s ∈ lastStack env canRemove w m money,
    Runs.Throughout (addStack env passOn c flags) (Quiet env c flags) s.world
      (allStacks currency.currencyItems (change s.worth s.money))

section Spend

variable {env : Env} {passOn : PassOn} {currency : Currency} {canRemove : ThingId → Bool}
  {c : Cylinder} {flags : CylinderFlags} {w w' : World} {m : List (Nat × ThingId)}
  {e : Nat × ThingId} {money n : Nat}

theorem removeCount_spec {worth : Nat} (hworth : 0 < worth) (hmoney : 0 < money) :
    0 < removeCount worth money ∧ money ≤ worth * removeCount worth money ∧
      worth * removeCount worth money < money + worth := by
  unfold removeCount
  have hdiv := Nat.div_add_mod (money + worth - 1) worth
  have hmod := Nat.mod_lt (money + worth - 1) hworth
  exact ⟨Nat.div_pos (by omega) hworth, by omega, by omega⟩

/-- What a stack counts for in all is enough of it. -/
theorem removeCount_le {worth count : Nat} (hworth : 0 < worth) (hmoney : 0 < money)
    (h : money ≤ worth * count) : removeCount worth money ≤ count := by
  obtain ⟨-, -, hlt⟩ := removeCount_spec hworth hmoney
  have hbound : worth * removeCount worth money < worth * (count + 1) := by
    rw [Nat.mul_succ]
    omega
  exact Nat.le_of_lt_succ (Nat.lt_of_mul_lt_mul_left hbound)

theorem change_eq {worth : Nat} (hworth : 0 < worth) (hmoney : 0 < money)
    (h : worth * removeCount worth money < 2 ^ 32) :
    change worth money + money = worth * removeCount worth money := by
  obtain ⟨-, hle, -⟩ := removeCount_spec hworth hmoney
  unfold change
  omega

theorem spent_head : e ∈ spent (e :: m) money := by
  unfold spent
  split
  · exact List.mem_cons_self
  · exact List.mem_singleton_self e

theorem Coins.tail {c' : Cylinder} (h : Coins currency w (e :: m))
    (htakes : Takes env w w' c' e.2) :
    Coins currency w' m ∧ ∀ e' ∈ m, Keeps w w' e'.2 := by
  have hnot : ∀ e' ∈ m, e'.2 ≠ e.2 := by
    intro e' he' heq
    exact (List.nodup_cons.mp h.nodup).1 (heq ▸ List.mem_map_of_mem he')
  have hkeeps : ∀ e' ∈ m, Keeps w w' e'.2 := fun e' he' => htakes.keeps (hnot e' he')
  refine ⟨⟨fun e' he' => ?_, fun e' he' => ?_, (List.nodup_cons.mp h.nodup).2⟩, hkeeps⟩
  · obtain ⟨hworth, hsome⟩ := h.worth e' (List.mem_cons_of_mem _ he')
    refine ⟨hworth.trans ?_, hsome⟩
    unfold getWorth
    rw [(hkeeps e' he').worth]
  · obtain ⟨c, hmem⟩ := h.held e' (List.mem_cons_of_mem _ he')
    exact ⟨c, (hkeeps e' he').held c hmem⟩

theorem spent_subset : ∀ e ∈ spent m money, e ∈ m := by
  induction m generalizing money with
  | nil => exact fun e he => he
  | cons e₀ m ih =>
      intro e he
      unfold spent at he
      split at he
      · rcases List.mem_cons.mp he with rfl | he
        · exact List.mem_cons_self
        · exact List.mem_cons_of_mem _ (ih e he)
      · obtain rfl := List.mem_singleton.mp he
        exact List.mem_cons_self

theorem getWorth_le (i : ThingId) : w.getWorth currency i ≤ w.worth currency.worth i :=
  Nat.mod_le _ _

/-- What counts for something has a worth and is not empty. -/
theorem count_pos_of_worth {i : ThingId} (h : 0 < w.worth currency.worth i) :
    0 < currency.worth (w.thing i).id ∧ 0 < w.count i :=
  ⟨Nat.pos_of_mul_pos_right h, Nat.pos_of_mul_pos_left h⟩

/-- The change is given, and then a part of the stack is taken, or all of it. -/
theorem last_grows (s : LastStack) {v : World} {c' : Cylinder} {d : Int}
    (hv : Placed env v) (hheld : s.item ∈ s.world.contents c')
    (hparent : (s.world.thing s.item).parent = some c')
    (hkeeps : Keeps s.world v s.item) (hcan : canRemove s.item = true)
    (hpos : 0 < removeCount s.worth s.money)
    (hle : removeCount s.worth s.money ≤ s.world.count s.item)
    (hpart : s.world.divides env s.item = true ∨
      removeCount s.worth s.money = s.world.count s.item ∨
        (s.world.typeOf env s.item).isGroundTile = false)
    (hd : Grows (s.world.valueAt currency.worth) (v.valueAt currency.worth) d) :
    Grows (s.world.valueAt currency.worth)
      ((v.internalRemoveItem env canRemove s.item
        (removeCount s.worth s.money)).valueAt currency.worth)
      (d - (currency.worth (s.world.thing s.item).id *
        (if s.world.divides env s.item then removeCount s.worth s.money
          else s.world.count s.item) : Nat)) := by
  have hheld' : s.item ∈ v.contents c' := hkeeps.held c' hheld
  have htype : v.typeOf env s.item = s.world.typeOf env s.item := by
    unfold typeOf
    rw [hkeeps.id]
  have hdivides : v.divides env s.item = s.world.divides env s.item := by
    unfold divides
    rw [htype, hv.parent c' s.item hheld', hparent]
  have hle' : removeCount s.worth s.money ≤ v.count s.item := by rwa [hkeeps.count]
  rw [← hdivides, ← hkeeps.count, ← htype] at hpart
  have hgrows := internalRemoveItem_grows hv hheld' hcan hpos hle' hpart currency.worth
  rw [hkeeps.id, hkeeps.count, hdivides] at hgrows
  exact hd.trans hgrows

/-- What `getWorth` says of a stack that spends is what its coins are worth. -/
theorem worth_of_whole {i : ThingId} (h : w.worth currency.worth i < 2 ^ 32) :
    w.getWorth currency i = w.worth currency.worth i :=
  Nat.mod_eq_of_lt h

/-- The last stack gives what is worth too much of it back. -/
theorem spend_last_of_gives (hw : Placed env w) (hc : w.Real c) {worth : Nat} {item : ThingId}
    {c' : Cylinder} (hheld : item ∈ w.contents c') (hcan : canRemove item = true)
    (hwhole : w.worth currency.worth item < 2 ^ 32)
    (hworth : worth = w.worth currency.worth item) (hmoney : 0 < money) (hmore : money < worth)
    (hquiet : QuietChange env passOn currency canRemove c flags w ((worth, item) :: m) money)
    (hspends : Spends env passOn currency canRemove c flags w ((worth, item) :: m) money)
    (hn : 2 ^ 16 ≤ n) :
    ∃ w', spend env passOn currency canRemove c flags n w ((worth, item) :: m) money = some w' ∧
      Grows (w.valueAt currency.worth) (w'.valueAt currency.worth) (-(money : Int)) := by
  have hless : ¬ worth < money := Nat.not_lt.mpr hmore.le
  have hpos : 0 < w.worth currency.worth item := hworth ▸ Nat.zero_lt_of_lt hmore
  obtain ⟨hprice, hcount⟩ := count_pos_of_worth hpos
  have hlast : lastStack env canRemove w ((worth, item) :: m) money =
      some ⟨w, item, worth / w.count item, money⟩ := (if_neg hless).trans (if_pos hmore)
  have heach : worth / w.count item = currency.worth (w.thing item).id := by
    rw [hworth]
    exact Nat.mul_div_cancel _ hcount
  have hgives := hspends.gives _ hlast
  have hquiet' := hquiet _ hlast
  rw [heach] at hgives hquiet'
  have henough : money ≤ currency.worth (w.thing item).id * w.count item := by
    have hall : w.worth currency.worth item =
        currency.worth (w.thing item).id * w.count item := rfl
    omega
  obtain ⟨hr, -, -⟩ := removeCount_spec hprice hmoney
  have hle := removeCount_le hprice hmoney henough
  have hfit : currency.worth (w.thing item).id *
      removeCount (currency.worth (w.thing item).id) money < 2 ^ 32 :=
    Nat.lt_of_le_of_lt (Nat.mul_le_mul_left _ hle) hwhole
  have hchange := change_eq hprice hmoney hfit
  obtain ⟨v, hv, hpaid⟩ := addMoney_of_pays hw hc hquiet' hgives.pays hn
  have hother := hgives.other
  obtain ⟨hplaced, hkeeps⟩ :=
    addMoney_keeps_of_pays hw hc hquiet' hgives.pays hother hheld hpos hv
  have hpart := hgives.part
  have hgrows := last_grows ⟨w, item, _, money⟩ hplaced hheld
    (hw.parent c' item hheld) hkeeps hcan hr hle (hpart.imp_right .inl) hpaid
  have htaken : (if w.divides env item then
      removeCount (currency.worth (w.thing item).id) money else w.count item) =
      removeCount (currency.worth (w.thing item).id) money := by
    split
    · rfl
    · next hdivides => exact (hpart.resolve_left hdivides).symm
  have hspend : spend env passOn currency canRemove c flags n w ((worth, item) :: m) money =
      some (v.internalRemoveItem env canRemove item
        (removeCount (currency.worth (w.thing item).id) money)) := by
    rw [spend, if_neg hless, if_pos hmore]
    simp only [heach]
    rw [if_neg (Nat.ne_of_gt hprice), hv]
    rfl
  refine ⟨_, hspend, ?_⟩
  have htotal : (change (currency.worth (w.thing item).id) money : Int) -
      (currency.worth (w.thing item).id *
        removeCount (currency.worth (w.thing item).id) money : Nat) = -(money : Int) := by
    omega
  dsimp only at hgrows
  rw [htaken, htotal] at hgrows
  exact hgrows

/-- The loop takes the amount where the coins spend. -/
theorem spend_of_spends (hw : Placed env w) (hc : w.Real c) (hcoins : Coins currency w m)
    (hmoney : 0 < money) (hsum : money ≤ (m.map Prod.fst).sum)
    (hquiet : QuietChange env passOn currency canRemove c flags w m money)
    (hspends : Spends env passOn currency canRemove c flags w m money) (hn : 2 ^ 16 ≤ n) :
    ∃ w', spend env passOn currency canRemove c flags n w m money = some w' ∧
      Grows (w.valueAt currency.worth) (w'.valueAt currency.worth) (-(money : Int)) := by
  induction m generalizing w money with
  | nil => exact absurd hsum (Nat.not_le.mpr hmoney)
  | cons e m ih =>
      obtain ⟨worth, item⟩ := e
      obtain ⟨hentry, hsome⟩ := hcoins.worth (worth, item) List.mem_cons_self
      obtain ⟨c', hheld⟩ := hcoins.held (worth, item) List.mem_cons_self
      obtain ⟨hwhole, hcan⟩ := hspends.whole (worth, item) spent_head
      have hworth : worth = w.worth currency.worth item := hentry.trans (worth_of_whole hwhole)
      have hpos : 0 < w.worth currency.worth item := hworth ▸ Nat.pos_of_ne_zero hsome
      obtain ⟨-, hcount⟩ := count_pos_of_worth hpos
      have htakes := internalRemoveItem_takes hw hheld hcan hcount
      have hgrows := htakes.grows currency.worth
      by_cases hless : worth < money
      · obtain ⟨hcoins', hkeeps⟩ := hcoins.tail htakes
        have hlast : lastStack env canRemove w ((worth, item) :: m) money =
            lastStack env canRemove (w.internalRemoveItem env canRemove item (w.count item)) m
              (money - worth) := if_pos hless
        have hspent : spent ((worth, item) :: m) money =
            (worth, item) :: spent m (money - worth) := if_pos hless
        have hreal : (w.internalRemoveItem env canRemove item (w.count item)).Real c := by
          intro k hk
          rw [htakes.nextId]
          exact hc k hk
        have hsum' : money - worth ≤ (m.map Prod.fst).sum := by
          rw [List.map_cons, List.sum_cons] at hsum
          omega
        have hspends' : Spends env passOn currency canRemove c flags
            (w.internalRemoveItem env canRemove item (w.count item)) m (money - worth) := by
          refine ⟨fun e he => ?_, fun s hs => hspends.gives s (hlast ▸ hs)⟩
          rw [(hkeeps e (spent_subset e he)).worth]
          exact hspends.whole e (hspent ▸ List.mem_cons_of_mem _ he)
        obtain ⟨w', hresult, hrest⟩ := ih (htakes.placed hw) hreal hcoins' (by omega) hsum'
          (fun s hs => hquiet s (hlast ▸ hs)) hspends'
        refine ⟨w', (if_pos hless).trans hresult, ?_⟩
        have htotal : -(w.worth currency.worth item : Int) + -((money - worth : Nat) : Int) =
            -(money : Int) := by omega
        exact htotal ▸ hgrows.trans hrest
      by_cases hmore : money < worth
      · exact spend_last_of_gives hw hc hheld hcan hwhole hworth hmoney hmore hquiet hspends hn
      · have heq : worth = money := by omega
        have hspend : spend env passOn currency canRemove c flags n w ((worth, item) :: m) money =
            some (w.internalRemoveItem env canRemove item (w.count item)) := by
          rw [spend, if_neg hless, if_neg hmore]
        refine ⟨_, hspend, ?_⟩
        rw [← heq, hworth]
        exact hgrows

/-- Coins are made as they are asked for and take the place of nothing, and those that are
gathered can be removed, count for the same each and are no grounds. -/
structure Regular (env : Env) (currency : Currency) (canRemove : ThingId → Bool)
    (flags : CylinderFlags) (w : World) (m : List (Nat × ThingId)) : Prop where
  makes : Makes env currency
  plain : ∀ e ∈ currency.currencyItems, Plain (env.items e.2)
  flags : flags.childIsOwner = false
  removable : ∀ e ∈ m, canRemove e.2 = true
  even : ∀ e ∈ m, w.count e.2 ∣ e.1
  ground : ∀ e ∈ m, (w.typeOf env e.2).isGroundTile = false

theorem Regular.tail (h : Regular env currency canRemove flags w (e :: m))
    (hkeeps : ∀ e' ∈ m, Keeps w w' e'.2) : Regular env currency canRemove flags w' m where
  makes := h.makes
  plain := h.plain
  flags := h.flags
  removable e he := h.removable e (List.mem_cons_of_mem _ he)
  even e he := by
    rw [(hkeeps e he).count]
    exact h.even e (List.mem_cons_of_mem _ he)
  ground e he := by
    unfold typeOf
    rw [(hkeeps e he).id]
    exact h.ground e (List.mem_cons_of_mem _ he)

/-- A stack of an amount is worth no more than the amount. -/
theorem worth_le_of_mem {stack : UInt16 × Nat}
    (h : stack ∈ allStacks currency.currencyItems money) : currency.worth stack.1 ≤ money := by
  have hsum := stacksWorth_allStacks currency currency.worth_eq money
  obtain ⟨hpos, -⟩ := mem_allStacks h
  have hmem : currency.worth stack.1 * stack.2 ≤
      stacksWorth currency (allStacks currency.currencyItems money) :=
    List.le_sum_of_mem (List.mem_map_of_mem h)
  have hone : currency.worth stack.1 ≤ currency.worth stack.1 * stack.2 :=
    Nat.le_mul_of_pos_right _ hpos
  omega

/-- Coins that are made as they are asked for are worth less than what is split for them. -/
theorem made_of_makes {worth : Nat} (hmakes : Makes env currency) (hmoney : money < worth)
    {stack : UInt16 × Nat} (h : stack ∈ allStacks currency.currencyItems money) {t : Thing}
    (ht : createItem env stack.1 (UInt16.ofNat stack.2) = some t) :
    t.id = stack.1 ∧ (∃ k, (k, t.id) ∈ currency.currencyItems) ∧ currency.worth t.id < worth := by
  obtain ⟨hpos, hle, k, hmem⟩ := mem_allStacks h
  have hsize : (100 : Nat) < UInt16.size := by decide
  have hcount : (UInt16.ofNat stack.2).toNat = stack.2 :=
    UInt16.toNat_ofNat_of_lt' (Nat.lt_of_le_of_lt hle hsize)
  have hn : 0 < (UInt16.ofNat stack.2).toNat := by
    rw [hcount]
    exact hpos
  obtain ⟨hid, -⟩ := hmakes _ hmem _ hn t ht
  have hid : t.id = stack.1 := hid
  refine ⟨hid, ⟨k, hid ▸ hmem⟩, ?_⟩
  rw [hid]
  exact Nat.lt_of_le_of_lt (worth_le_of_mem h) hmoney

/-- What the last stack costs is no less than what is missing, and as much only where it gives. -/
theorem last_of_spend (hw : Placed env w) (hc : w.Real c) {worth : Nat} {item : ThingId}
    (hcoins : Coins currency w ((worth, item) :: m)) (hmoney : 0 < money) (hmore : money < worth)
    (hquiet : QuietChange env passOn currency canRemove c flags w ((worth, item) :: m) money)
    (hregular : Regular env currency canRemove flags w ((worth, item) :: m))
    (h : spend env passOn currency canRemove c flags n w ((worth, item) :: m) money = some w') :
    ∃ d : Nat, Grows (w.valueAt currency.worth) (w'.valueAt currency.worth) (-(d : Int)) ∧
      money ≤ d ∧ (d = money → worth = w.worth currency.worth item ∧
        Gives env passOn currency c flags ⟨w, item, worth / w.count item, money⟩) := by
  have hless : ¬ worth < money := Nat.not_lt.mpr hmore.le
  obtain ⟨hentry, hsome⟩ := hcoins.worth (worth, item) List.mem_cons_self
  obtain ⟨c', hheld⟩ := hcoins.held (worth, item) List.mem_cons_self
  have hcan := hregular.removable (worth, item) List.mem_cons_self
  have hentry : worth = w.getWorth currency item := hentry
  have hle : worth ≤ w.worth currency.worth item := hentry ▸ getWorth_le item
  have hpos : 0 < w.worth currency.worth item :=
    Nat.lt_of_lt_of_le (Nat.pos_of_ne_zero hsome) hle
  obtain ⟨hprice, hcount⟩ := count_pos_of_worth hpos
  have hlast : lastStack env canRemove w ((worth, item) :: m) money =
      some ⟨w, item, worth / w.count item, money⟩ := (if_neg hless).trans (if_pos hmore)
  obtain ⟨each, heach⟩ : ∃ each, worth / w.count item = each := ⟨_, rfl⟩
  rw [heach] at hlast ⊢
  have hmul : each * w.count item = worth := by
    rw [← heach]
    exact Nat.div_mul_cancel (hregular.even (worth, item) List.mem_cons_self)
  have hone : 0 < each := Nat.pos_of_ne_zero fun hzero => by
    rw [hzero, Nat.zero_mul] at hmul
    exact hsome hmul.symm
  have hall : w.worth currency.worth item =
      currency.worth (w.thing item).id * w.count item := rfl
  have hunder : each ≤ currency.worth (w.thing item).id := by
    refine Nat.le_of_mul_le_mul_right ?_ hcount
    rw [hmul, ← hall]
    exact hle
  obtain ⟨hr, -, hround⟩ := removeCount_spec hone hmoney
  have hfew := removeCount_le hone hmoney (by omega : money ≤ each * w.count item)
  have hsmall : worth < 2 ^ 32 := hentry ▸ Nat.mod_lt _ (Nat.two_pow_pos 32)
  have hfit : each * removeCount each money < 2 ^ 32 := by
    have hbound := Nat.mul_le_mul_left each hfew
    omega
  have hchange := change_eq hone hmoney hfit
  have hquiet' := hquiet _ hlast
  dsimp only at hquiet'
  obtain ⟨v, hv, rfl⟩ : ∃ v, addMoney env passOn currency c flags n w (change each money) =
      some v ∧ v.internalRemoveItem env canRemove item (removeCount each money) = w' := by
    rw [spend, if_neg hless, if_pos hmore] at h
    simp only [heach] at h
    rw [if_neg (Nat.ne_of_gt hone)] at h
    exact Option.map_eq_some_iff.mp h
  obtain ⟨d, hd, hmost, hiff⟩ := pays_of_addMoney hw hc hquiet' hregular.makes hv
  have hunderEach : change each money < each := by omega
  have hother : ∀ stack ∈ allStacks currency.currencyItems (change each money), ∀ t,
      createItem env stack.1 (UInt16.ofNat stack.2) = some t → t.id ≠ (w.thing item).id := by
    intro stack hstack t ht hsame
    obtain ⟨-, -, hlt⟩ := made_of_makes hregular.makes hunderEach hstack ht
    rw [hsame] at hlt
    omega
  have hplain : ∀ stack ∈ allStacks currency.currencyItems (change each money), ∀ t,
      createItem env stack.1 (UInt16.ofNat stack.2) = some t → Plain (env.items t.id) := by
    intro stack hstack t ht
    obtain ⟨-, ⟨k, hmem⟩, -⟩ := made_of_makes hregular.makes hunderEach hstack ht
    exact hregular.plain _ hmem
  obtain ⟨hplaced, hkeeps⟩ := addMoney_keeps_of_plain hw hc hquiet' hplain hregular.flags
    hother hheld hpos hv
  have hground := hregular.ground (worth, item) List.mem_cons_self
  have htotal := last_grows ⟨w, item, each, money⟩ hplaced hheld
    (hw.parent c' item hheld) hkeeps hcan hr hfew (.inr (.inr hground)) hd
  dsimp only at htotal
  obtain ⟨taken, htaken⟩ : ∃ taken, (if w.divides env item then removeCount each money
      else w.count item) = taken := ⟨_, rfl⟩
  rw [htaken] at htotal
  have henough : removeCount each money ≤ taken := by
    rw [← htaken]
    split
    · exact Nat.le_refl _
    · exact hfew
  have hfirst : each * removeCount each money ≤
      currency.worth (w.thing item).id * removeCount each money :=
    Nat.mul_le_mul_right _ hunder
  have hsecond : currency.worth (w.thing item).id * removeCount each money ≤
      currency.worth (w.thing item).id * taken := Nat.mul_le_mul_left _ henough
  obtain ⟨value, hvalue⟩ : ∃ value, currency.worth (w.thing item).id * taken = value :=
    ⟨_, rfl⟩
  rw [hvalue] at htotal hsecond
  refine ⟨((value : Int) - d).toNat, ?_, by omega, fun heq => ?_⟩
  · have hneg : d - (value : Int) = -((((value : Int) - d).toNat : Nat) : Int) := by omega
    rwa [hneg] at htotal
  -- nothing is lost only if each of the bounds is met
  have hsame : each = currency.worth (w.thing item).id :=
    Nat.eq_of_mul_eq_mul_right hr (by omega)
  have htaken' : taken = removeCount each money := by
    have hprod : currency.worth (w.thing item).id * taken =
        currency.worth (w.thing item).id * removeCount each money := by omega
    exact Nat.eq_of_mul_eq_mul_left hprice hprod
  refine ⟨?_, ?_, hother, hiff (by omega)⟩
  · rw [hall, ← hsame, hmul]
  · by_cases hdivides : w.divides env item = true
    · exact .inl hdivides
    · rw [if_neg hdivides] at htaken
      exact .inr (htaken'.symm.trans htaken.symm)

/-- The loop never takes less than the amount, and the amount only where the coins spend. -/
theorem spends_of_spend (hw : Placed env w) (hc : w.Real c) (hcoins : Coins currency w m)
    (hmoney : 0 < money) (hsum : money ≤ (m.map Prod.fst).sum)
    (hquiet : QuietChange env passOn currency canRemove c flags w m money)
    (hregular : Regular env currency canRemove flags w m)
    (h : spend env passOn currency canRemove c flags n w m money = some w') :
    ∃ d : Nat, Grows (w.valueAt currency.worth) (w'.valueAt currency.worth) (-(d : Int)) ∧
      money ≤ d ∧ (d = money → Spends env passOn currency canRemove c flags w m money) := by
  induction m generalizing w money with
  | nil => exact absurd hsum (Nat.not_le.mpr hmoney)
  | cons e m ih =>
      obtain ⟨worth, item⟩ := e
      obtain ⟨hentry, hsome⟩ := hcoins.worth (worth, item) List.mem_cons_self
      obtain ⟨c', hheld⟩ := hcoins.held (worth, item) List.mem_cons_self
      have hcan := hregular.removable (worth, item) List.mem_cons_self
      have hentry : worth = w.getWorth currency item := hentry
      have hle : worth ≤ w.worth currency.worth item := hentry ▸ getWorth_le item
      have hpos : 0 < w.worth currency.worth item :=
        Nat.lt_of_lt_of_le (Nat.pos_of_ne_zero hsome) hle
      have hwhole : worth = w.worth currency.worth item → w.worth currency.worth item < 2 ^ 32 := by
        intro heq
        rw [← heq, hentry]
        exact Nat.mod_lt _ (Nat.two_pow_pos 32)
      obtain ⟨-, hcount⟩ := count_pos_of_worth hpos
      have htakes := internalRemoveItem_takes hw hheld hcan hcount
      have hgrows := htakes.grows currency.worth
      by_cases hless : worth < money
      · obtain ⟨hcoins', hkeeps⟩ := hcoins.tail htakes
        have hlast : lastStack env canRemove w ((worth, item) :: m) money =
            lastStack env canRemove (w.internalRemoveItem env canRemove item (w.count item)) m
              (money - worth) := if_pos hless
        have hspent : spent ((worth, item) :: m) money =
            (worth, item) :: spent m (money - worth) := if_pos hless
        have hreal : (w.internalRemoveItem env canRemove item (w.count item)).Real c := by
          intro k hk
          rw [htakes.nextId]
          exact hc k hk
        have hsum' : money - worth ≤ (m.map Prod.fst).sum := by
          rw [List.map_cons, List.sum_cons] at hsum
          omega
        obtain ⟨d, hd, hmost, hiff⟩ := ih (htakes.placed hw) hreal hcoins' (by omega) hsum'
          (fun s hs => hquiet s (hlast ▸ hs)) (hregular.tail hkeeps) ((if_pos hless).symm.trans h)
        refine ⟨w.worth currency.worth item + d, ?_, by omega, fun heq => ?_⟩
        · have htotal : -(w.worth currency.worth item : Int) + -(d : Int) =
              -((w.worth currency.worth item + d : Nat) : Int) := by omega
          exact htotal ▸ hgrows.trans hd
        · have hrest := hiff (by omega)
          refine ⟨fun e he => ?_, fun s hs => hrest.gives s (hlast ▸ hs)⟩
          rw [hspent] at he
          rcases List.mem_cons.mp he with rfl | he
          · exact ⟨hwhole (by omega), hcan⟩
          · have hbefore := hrest.whole e he
            rwa [(hkeeps e (spent_subset e he)).worth] at hbefore
      by_cases hmore : money < worth
      · have hlast : lastStack env canRemove w ((worth, item) :: m) money =
            some ⟨w, item, worth / w.count item, money⟩ := (if_neg hless).trans (if_pos hmore)
        obtain ⟨d, hd, hmost, hiff⟩ := last_of_spend hw hc hcoins hmoney hmore hquiet hregular h
        refine ⟨d, hd, hmost, fun heq => ?_⟩
        obtain ⟨hall, hgives⟩ := hiff heq
        refine ⟨fun e he => ?_, fun s hs => ?_⟩
        · have hspent : spent ((worth, item) :: m) money = [(worth, item)] := if_neg hless
          rw [hspent] at he
          obtain rfl := List.mem_singleton.mp he
          exact ⟨hwhole hall, hcan⟩
        · cases hlast.symm.trans hs
          exact hgives
      · have heq : worth = money := by omega
        have hspend : spend env passOn currency canRemove c flags n w ((worth, item) :: m) money =
            some (w.internalRemoveItem env canRemove item (w.count item)) := by
          rw [spend, if_neg hless, if_neg hmore]
        cases hspend.symm.trans h
        refine ⟨w.worth currency.worth item, hgrows, by omega, fun hall => ⟨fun e he => ?_, ?_⟩⟩
        · have hspent : spent ((worth, item) :: m) money = [(worth, item)] := if_neg hless
          rw [hspent] at he
          obtain rfl := List.mem_singleton.mp he
          exact ⟨hwhole (by omega), hcan⟩
        · have hlast : lastStack env canRemove w ((worth, item) :: m) money = none :=
            (if_neg hless).trans (if_neg hmore)
          intro s hs
          rw [hlast] at hs
          cases hs

end Spend

/-! ## All the money -/

/-- What is gathered from a cylinder. -/
def coins (currency : Currency) (w : World) (c : Cylinder) : List (Nat × ThingId) :=
  (w.moneyMap currency c w.nextId).getD []

/-- Nothing is to be taken, or there is not enough, or the coins spend. -/
def Covers (env : Env) (passOn : PassOn) (currency : Currency) (canRemove : ThingId → Bool)
    (c : Cylinder) (flags : CylinderFlags) (w : World) (money : Nat) : Prop :=
  money = 0 ∨ ((w.coins currency c).map Prod.fst).sum % 2 ^ 64 < money ∨
    Spends env passOn currency canRemove c flags w (w.coins currency c) money

/-- `removeMoney` comes to an end with the amount taken, or with nothing changed. -/
def Removes (env : Env) (passOn : PassOn) (currency : Currency) (canRemove : ThingId → Bool)
    (c : Cylinder) (flags : CylinderFlags) (w : World) (money : Nat) : Prop :=
  ∃ n b w', w.removeMoney env passOn currency canRemove c flags n money = some (b, w') ∧
    (b = true ∧ Grows (w.valueAt currency.worth) (w'.valueAt currency.worth) (-(money : Int)) ∨
      b = false ∧ w' = w)

section Removing

variable {env : Env} {passOn : PassOn} {currency : Currency} {canRemove : ThingId → Bool}
  {c : Cylinder} {flags : CylinderFlags} {w : World} {money : Nat}

theorem coins_spec (currency : Currency) (c : Cylinder) (hw : Placed env w) (hnested : w.Nested) :
    Coins currency w (w.coins currency c) ∧
      (∀ n, w.nextId ≤ n → w.moneyMap currency c n = some (w.coins currency c)) ∧
      ∀ n m, w.moneyMap currency c n = some m → m = w.coins currency c := by
  obtain ⟨m, hm, hcoins⟩ :=
    moneyMap_coins currency c hw hnested (Nat.le_refl _)
  have hdef : w.coins currency c = m := by
    unfold coins
    rw [hm]
    rfl
  rw [hdef]
  refine ⟨hcoins, fun n hn => ?_, fun n m' hm' => moneyMap_unique hm' hm⟩
  obtain ⟨m', hm', -⟩ := moneyMap_coins currency c hw hnested hn
  rw [hm', moneyMap_unique hm' hm]

/-- `removeMoney` takes the amount or leaves everything where it covers the amount, and for
regular coins only there. -/
theorem removeMoney_exact (hw : Placed env w) (hc : w.Real c) (hnested : w.Nested)
    (hquiet : QuietChange env passOn currency canRemove c flags w (w.coins currency c) money) :
    (Covers env passOn currency canRemove c flags w money →
        Removes env passOn currency canRemove c flags w money) ∧
      (Regular env currency canRemove flags w (w.coins currency c) →
        Removes env passOn currency canRemove c flags w money →
        Covers env passOn currency canRemove c flags w money) := by
  obtain ⟨hcoins, hall, hunique⟩ := coins_spec currency c hw hnested
  have hless : ((w.coins currency c).map Prod.fst).sum % 2 ^ 64 ≤
      ((w.coins currency c).map Prod.fst).sum := Nat.mod_le _ _
  by_cases hmoney : money = 0
  · subst hmoney
    exact ⟨fun _ => ⟨0, true, w, if_pos rfl, .inl ⟨rfl, Grows.refl _⟩⟩, fun _ _ => .inl rfl⟩
  by_cases hpoor : ((w.coins currency c).map Prod.fst).sum % 2 ^ 64 < money
  · refine ⟨fun _ => ⟨w.nextId, false, w, ?_, .inr ⟨rfl, rfl⟩⟩, fun _ _ => .inr (.inl hpoor)⟩
    unfold removeMoney
    rw [if_neg hmoney, hall _ (Nat.le_refl _), Option.bind_some]
    exact if_pos hpoor
  have hsum : money ≤ ((w.coins currency c).map Prod.fst).sum := by omega
  constructor
  · intro hcovers
    have hspends := (hcovers.resolve_left hmoney).resolve_left hpoor
    obtain ⟨w', hresult, hgrows⟩ := spend_of_spends hw hc hcoins (Nat.pos_of_ne_zero hmoney) hsum
      hquiet hspends (Nat.le_add_left (2 ^ 16) w.nextId)
    refine ⟨w.nextId + 2 ^ 16, true, w', ?_, .inl ⟨rfl, hgrows⟩⟩
    unfold removeMoney
    rw [if_neg hmoney, hall _ (Nat.le_add_right _ _), Option.bind_some]
    dsimp only
    rw [if_neg hpoor, hresult]
    rfl
  · rintro hregular ⟨n, b, w', hresult, hexact⟩
    unfold removeMoney at hresult
    rw [if_neg hmoney] at hresult
    obtain ⟨m, hm, hrest⟩ := Option.bind_eq_some_iff.mp hresult
    rw [hunique n m hm, if_neg hpoor] at hrest
    obtain ⟨v, hv, hpair⟩ := Option.map_eq_some_iff.mp hrest
    cases hpair
    obtain ⟨d, hd, -, hiff⟩ := spends_of_spend hw hc hcoins (Nat.pos_of_ne_zero hmoney) hsum hquiet
      hregular hv
    rcases hexact with ⟨-, hgrows⟩ | ⟨hfalse, -⟩
    · have heq : -(d : Int) = -(money : Int) := hd.unique hgrows
      exact .inr (.inr (hiff (by omega)))
    · cases hfalse

end Removing

/-! ## Coins of a meadow -/

theorem meadow_nested : meadow.Nested := by
  intro k hk
  obtain ⟨i, hi, -⟩ := Relation.TransGen.head'_iff.mp hk
  have hnil : (meadow.thing k).itemlist = [] := by
    rcases k with _ | _ | _ | _ | k <;> rfl
  rw [hnil] at hi
  cases hi

theorem meadow_coins : meadow.coins onlyGold (.tile meadowPos) = [(80, 1)] := by decide +kernel

/-- 30 of the 80 gold coins that lie on a meadow, for which nothing comes back. -/
theorem removeMoney_exact_meadow :
    Removes meadowEnv (fun w _ _ => w) onlyGold (fun _ => true) (.tile meadowPos) {} meadow 30 := by
  have hlast : lastStack meadowEnv (fun _ => true) meadow [(80, 1)] 30 =
      some ⟨meadow, 1, 1, 30⟩ := rfl
  have hnothing : change 1 30 = 0 := by decide
  refine (removeMoney_exact meadow_placed (fun k hk => by cases hk) meadow_nested ?_).1
    (.inr (.inr ?_))
  · intro s _ pre stack post _
    exact quiet_of_env (fun _ _ => rfl) _ _ _ _
  · rw [meadow_coins]
    refine ⟨fun e he => ?_, fun s hs => ?_⟩
    · obtain rfl := List.mem_singleton.mp he
      exact ⟨by decide, rfl⟩
    · cases hlast.symm.trans hs
      refine ⟨.inl rfl, fun stack hstack => ?_, .inl hnothing⟩
      rw [hnothing] at hstack
      cases hstack

/-- Type 2 is worth 65537, and type 3 is worth one. -/
def barsAndGold : Currency where
  worth id := if id = 2 then 65537 else if id = 3 then 1 else 0
  currencyItems := [(65537, 2), (1, 3)]
  sorted := by decide
  worth_eq := by decide

/-- For one gold coin out of a bar 65536 come back, and never all of them. -/
theorem removeMoney_exact_bars :
    ¬ ∀ (env : Env) (passOn : PassOn) (currency : Currency) (canRemove : ThingId → Bool)
      (c : Cylinder) (flags : CylinderFlags) (w : World) (money : Nat), money < 2 ^ 64 →
      Placed env w → w.Real c → w.Nested →
      QuietChange env passOn currency canRemove c flags w (w.coins currency c) money →
      Removes env passOn currency canRemove c flags w money := by
  intro h
  obtain ⟨n, b, w', hresult, -⟩ := h meadowEnv (fun w _ _ => w) barsAndGold (fun _ => true)
    (.tile meadowPos) {} meadow 1 (by omega) meadow_placed (fun k hk => by cases hk) meadow_nested
    fun _ _ _ _ _ _ => quiet_of_env (fun _ _ => rfl) _ _ _ _
  have hcoins : meadow.coins barsAndGold (.tile meadowPos) = [(5242960, 1)] := by decide +kernel
  obtain ⟨-, -, hunique⟩ := coins_spec barsAndGold (.tile meadowPos) meadow_placed
    meadow_nested
  unfold removeMoney at hresult
  rw [if_neg Nat.one_ne_zero] at hresult
  obtain ⟨m, hm, hrest⟩ := Option.bind_eq_some_iff.mp hresult
  rw [hunique n m hm, hcoins] at hrest
  have henough : ¬ ([(5242960, 1)].map Prod.fst).sum % 2 ^ 64 < 1 := by decide
  rw [if_neg henough] at hrest
  obtain ⟨v, hv, -⟩ := Option.map_eq_some_iff.mp hrest
  have heach : 5242960 / meadow.count 1 = 65537 := by decide
  have hchange : change 65537 1 = 65536 := by decide
  rw [spend, if_neg (by decide), if_pos (by decide)] at hv
  simp only [heach, hchange] at hv
  rw [if_neg (by decide)] at hv
  obtain ⟨v', hv', -⟩ := Option.map_eq_some_iff.mp hv
  obtain ⟨hterminates, -⟩ := addCurrencies_eq_some ((if_neg (by decide)).symm.trans hv')
  have hfew : currencyCoins 65536 1 < 2 ^ 16 := hterminates.2.2.2.1
  have hmany : currencyCoins 65536 1 = 65536 := by decide
  omega

end World

end Bruxo
