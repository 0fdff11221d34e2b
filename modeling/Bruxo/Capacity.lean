import Bruxo.MoveItem

/-!
# The capacity of containers

`Game::internalAddItem` (`game.cpp`), and what it and `internalMoveItem` leave in the
containers: none gets more items than its `capacity()`.

`queryDestination` picks the cylinder that takes an item, and it picks a full container in
three ways only: for a stack with room in it, because `Player::queryDestination` does not
count the item that its player trades, and where `FLAG_IGNOREAUTOSTACK` keeps it at the index
that it was given. What an exchange moves goes where no index says how much room there is.
-/

namespace Bruxo

namespace World

/-! ## Adding items -/

/-- What `internalAddItem` returns, with its reference parameter. -/
structure AddOutcome where
  ret : ReturnValue
  world : World
  remainderCount : Nat := 0

variable (env : Env) (w : World)

/-- The last lines of `internalAddItem`. -/
def startDecayingAdded (item : ThingId) : World :=
  let data := (w.thing item).data
  if 0 < castInt 4 false (data.getIntAttr .duration) then
    w.setData item (data.setIntAttr .decayState 1)
  else w

/-- `internalAddItem`; the number bounds how deep it calls itself. -/
def internalAddItem : Nat → World → Cylinder → ThingId → Int → CylinderFlags → Option AddOutcome
  | 0, _, _, _, _, _ => none
  | n + 1, w, destCylinder, item, index, flags =>
      let d := w.queryDestination env destCylinder index item none flags
      let itemCount := w.count item
      let ret := w.queryAdd env d.cylinder d.index item itemCount d.flags false
      if ret ≠ .noError then some ⟨ret, w, 0⟩
      else
        let (maxQueryCount, ret) :=
          w.queryMaxCount env destCylinder indexWhereever item itemCount d.flags
        if ret ≠ .noError then some ⟨ret, w, 0⟩
        else
          let added (w : World) : AddOutcome :=
            ⟨.noError, (w.addThing env d.cylinder d.index item).startDecayingAdded item, 0⟩
          if (w.typeOf env item).stackable ∧ w.equals item d.destItem then
            let m := min itemCount maxQueryCount
            let count := m - w.mergeCount env item d.destItem m
            let w' := w.mergeInto env d.cylinder item d.destItem
              (w.mergeCount env item d.destItem m)
            if 0 < count then
              if itemCount ≠ count then
                match internalAddItem n (w'.clone item count) destCylinder w'.nextId indexWhereever
                    d.flags with
                | none => none
                | some ⟨.noError, w, _⟩ => some ⟨.noError, w.startDecayingAdded item, 0⟩
                | some ⟨_, w, _⟩ => some ⟨.noError, w.startDecayingAdded item, count⟩
              else some (added w')
            else some ⟨.noError, w'.startDecayingAdded item, 0⟩
          else some (added w)

/-! ## What is in the containers -/

/-- No container has more items than its capacity. -/
def Fits (w : World) : Prop :=
  ∀ k, (w.thing k).isContainer = true → (w.thing k).itemlist.length ≤ (w.thing k).maxSize

def HasRoom (w : World) (k : ThingId) : Prop :=
  (w.thing k).isContainer = true → (w.thing k).itemlist.length < (w.thing k).maxSize

/-- What lies somewhere has an address. -/
def Allocated (w : World) : Prop := ∀ c, ∀ i ∈ w.contents c, i < w.nextId

/-- No container gets more items, and what lies somewhere lay there before or is new there. -/
structure Within (w w' : World) (new : List ThingId) : Prop where
  container : ∀ k, (w'.thing k).isContainer = true → (w.thing k).isContainer = true ∧
    (w'.thing k).itemlist.length ≤ (w.thing k).itemlist.length ∧
    (w'.thing k).maxSize = (w.thing k).maxSize
  contents : ∀ c, ∀ j ∈ w'.contents c, j ∈ w.contents c ∨ j ∈ new
  nextId : w.nextId ≤ w'.nextId

section Room

variable {env} {w} {w' : World} {c : Cylinder} {item k : ThingId} {new : List ThingId}

theorem Within.refl : Within w w new :=
  ⟨fun _ hk => ⟨hk, Nat.le_refl _, rfl⟩, fun _ _ hj => .inl hj, Nat.le_refl _⟩

theorem Within.trans {v : World} (h : Within w v new) (h' : Within v w' new) :
    Within w w' new where
  container k hk := by
    obtain ⟨hv, hle, hsize⟩ := h'.container k hk
    obtain ⟨hw, hle', hsize'⟩ := h.container k hv
    exact ⟨hw, Nat.le_trans hle hle', hsize.trans hsize'⟩
  contents c j hj := (h'.contents c j hj).elim (h.contents c j) .inr
  nextId := Nat.le_trans h.nextId h'.nextId

theorem Within.weaken (h : Within w w' []) : Within w w' new where
  container := h.container
  contents c j hj := (h.contents c j hj).elim .inl fun hj => nomatch hj
  nextId := h.nextId

theorem Within.fits (h : Within w w' new) (hw : w.Fits) : w'.Fits := by
  intro k hk
  obtain ⟨hcontainer, hle, hsize⟩ := h.container k hk
  rw [hsize]
  exact Nat.le_trans hle (hw k hcontainer)

theorem Within.allocated (h : Within w w' new) (hw : w.Allocated)
    (hnew : ∀ i ∈ new, i < w'.nextId) : w'.Allocated := by
  intro c i hi
  rcases h.contents c i hi with hi | hi
  · exact Nat.lt_of_lt_of_le (hw c i hi) h.nextId
  · exact hnew i hi

theorem Within.hasRoom (h : Within w w' new) (hk : w.HasRoom k) : w'.HasRoom k := by
  intro hcontainer
  obtain ⟨hw, hle, hsize⟩ := h.container k hcontainer
  rw [hsize]
  exact Nat.lt_of_le_of_lt hle (hk hw)

/-! ## What the operations leave -/

/-- A thing with the same items in it. -/
theorem setThing_within {i : ThingId} {t : Thing}
    (hcontainer : t.isContainer = (w.thing i).isContainer)
    (hitems : t.itemlist = (w.thing i).itemlist) (hsize : t.maxSize = (w.thing i).maxSize) :
    Within w (w.setThing i t) [] where
  container k hk := by
    rw [setThing_thing] at hk ⊢
    by_cases heq : k = i
    · rw [if_pos heq] at hk ⊢
      rw [heq, hitems, hsize, ← hcontainer]
      exact ⟨hk, Nat.le_refl _, rfl⟩
    · rw [if_neg heq] at hk ⊢
      exact ⟨hk, Nat.le_refl _, rfl⟩
  contents c j hj := .inl (by rwa [contents_setThing i t hitems] at hj)
  nextId := Nat.le_refl _

theorem setParent_within {i : ThingId} {parent : Option Cylinder} :
    Within w (w.setParent i parent) [] := setThing_within rfl rfl rfl

theorem setData_within {i : ThingId} {data : Item} : Within w (w.setData i data) [] :=
  setThing_within rfl rfl rfl

theorem setTile_within {pos : Position} {t t' : Tile} (ht : w.tile pos = some t)
    (hsub : ∀ j ∈ t'.ground.toList ++ t'.topItems ++ t'.downItems,
      j ∈ t.ground.toList ++ t.topItems ++ t.downItems ∨ j ∈ new) :
    Within w (w.setTile pos t') new where
  container k hk := ⟨hk, Nat.le_refl _, rfl⟩
  contents c j hj := by
    cases c with
    | tile pos' =>
        by_cases hpos : pos' = pos
        · subst hpos
          simp only [World.contents, setTile, Function.update_self] at hj
          simp only [World.contents, ht]
          exact hsub j hj
        · simp only [World.contents, setTile, Function.update_of_ne hpos] at hj
          exact .inl hj
    | container k => exact .inl hj
    | player p => exact .inl hj
  nextId := Nat.le_refl _

theorem setInventory_within {p slot : Nat} {o : Option ThingId} (ho : ∀ i ∈ o, i ∈ new) :
    Within w (w.setInventory p slot o) new where
  container k hk := ⟨hk, Nat.le_refl _, rfl⟩
  contents c j hj := by
    cases c with
    | tile pos => exact .inl hj
    | container k => exact .inl hj
    | player q =>
        obtain ⟨s, hs, hj⟩ := List.mem_filterMap.mp hj
        simp only [setInventory, Function.update_apply] at hj
        split at hj
        · next heq =>
            subst heq
            simp only [Function.update_apply] at hj
            split at hj
            · exact .inr (ho j hj)
            · exact .inl (List.mem_filterMap.mpr ⟨s, hs, hj⟩)
        · exact .inl (List.mem_filterMap.mpr ⟨s, hs, hj⟩)
  nextId := Nat.le_refl _

theorem setItems_within {l : List ThingId} (hsub : l.Subset (w.thing k).itemlist)
    (hle : l.length ≤ (w.thing k).itemlist.length) : Within w (w.setItems k l) [] where
  container j hj := by
    simp only [setItems, setThing_thing] at hj ⊢
    by_cases heq : j = k
    · rw [if_pos heq] at hj ⊢
      rw [heq]
      exact ⟨hj, hle, rfl⟩
    · rw [if_neg heq] at hj ⊢
      exact ⟨hj, Nat.le_refl _, rfl⟩
  contents c j hj := by
    cases c with
    | tile pos => exact .inl hj
    | container i =>
        simp only [World.contents, setItems, setThing_thing] at hj
        split at hj
        · next heq =>
            subst heq
            exact .inl (hsub hj)
        · exact .inl hj
    | player p => exact .inl hj
  nextId := Nat.le_refl _

theorem removeThing_within {count : Nat} : Within w (w.removeThing env c item count) [] := by
  cases c with
  | tile pos =>
      simp only [removeThing, tileRemoveThing]
      cases ht : w.tile pos with
      | none => exact .refl
      | some t =>
          have htile (i : ThingId) : (w.setParent i none).tile pos = some t := ht
          dsimp only
          split_ifs
          · refine setParent_within.trans (setTile_within (htile item) fun j hj => .inl ?_)
            simp only [Option.toList_none, List.nil_append, List.mem_append] at hj ⊢
            tauto
          · refine setParent_within.trans (setTile_within (htile item) fun j hj => .inl ?_)
            simp only [List.mem_append] at hj ⊢
            rcases hj with (hj | hj) | hj
            · exact .inl (.inl hj)
            · exact .inl (.inr (List.mem_of_mem_erase hj))
            · exact .inr hj
          · exact .refl
          · exact setData_within
          · refine setParent_within.trans (setTile_within (htile item) fun j hj => .inl ?_)
            simp only [List.mem_append] at hj ⊢
            exact hj.imp_right List.mem_of_mem_erase
          · exact .refl
  | container k =>
      simp only [removeThing, containerRemoveThing]
      split_ifs
      · exact setData_within
      · exact setParent_within.trans
          (setItems_within (List.erase_subset) (List.length_erase_le))
      · exact .refl
  | player p =>
      simp only [removeThing, playerRemoveThing]
      split
      · exact .refl
      · split
        · exact setData_within
        · refine setParent_within.trans (setInventory_within fun i hi => ?_)
          cases hi

theorem updateThing_within {count : Nat} : Within w (w.updateThing env c item count) [] := by
  unfold updateThing
  split
  · exact setData_within
  · exact .refl

theorem clone_within {count : Nat} : Within w (w.clone item count) [] where
  container k hk := by
    simp only [clone, setThing_thing] at hk ⊢
    by_cases heq : k = w.nextId
    · simp only [if_pos heq] at hk
      cases hk
    · rw [if_neg heq] at hk ⊢
      exact ⟨hk, Nat.le_refl _, rfl⟩
  contents c j hj := by
    cases c with
    | tile pos => exact .inl hj
    | container i =>
        simp only [World.contents, clone, setThing_thing] at hj
        split at hj
        · cases hj
        · exact .inl hj
    | player p => exact .inl hj
  nextId := Nat.le_succ _

theorem tileInsert_within {pos : Position} {t t' : Tile} (ht : w.tile pos = some t)
    (hground : t'.ground = t.ground) (htop : t'.topItems ⊆ t.topItems)
    (hdown : t'.downItems ⊆ t.downItems) :
    Within w (w.tileInsert env pos t' item) [item] := by
  unfold tileInsert
  split_ifs
  · refine setTile_within ht fun j hj => ?_
    simp only [List.mem_append, List.mem_orderedInsert, List.mem_singleton, hground] at hj ⊢
    rcases hj with (hj | hj | hj) | hj
    · exact .inl (.inl (.inl hj))
    · exact .inr hj
    · exact .inl (.inl (.inr (htop hj)))
    · exact .inl (.inr (hdown hj))
  · refine setTile_within ht fun j hj => ?_
    simp only [List.mem_append, List.mem_cons, hground] at hj ⊢
    rcases hj with (hj | hj) | hj | hj
    · exact .inl (.inl (.inl hj))
    · exact .inl (.inl (.inr (htop hj)))
    · exact .inr (.inl hj)
    · exact .inl (.inr (hdown hj))

theorem tileAddThing_within {pos : Position} :
    Within w (w.tileAddThing env pos item) [item] := by
  unfold tileAddThing
  cases ht : w.tile pos with
  | none => exact .refl
  | some t =>
      have htile (v : World) (i : ThingId) (o : Option Cylinder) (hv : v.tile pos = some t) :
          (v.setParent i o).tile pos = some t := hv
      have hparent : Within w (w.setParent item (some (.tile pos))) [item] :=
        setParent_within.weaken
      have hinsert (old : ThingId) (t' : Tile) (hground : t'.ground = t.ground)
          (htop : t'.topItems ⊆ t.topItems) (hdown : t'.downItems ⊆ t.downItems) :
          Within w (((w.setParent item (some (.tile pos))).setParent old none).tileInsert env pos
            t' item) [item] :=
        (hparent.trans setParent_within.weaken).trans
          (tileInsert_within (htile _ _ _ (htile w _ _ ht)) hground htop hdown)
      dsimp only
      split
      · exact .refl
      split
      · split
        · refine hparent.trans (setTile_within (htile w _ _ ht) fun j hj => ?_)
          simp only [Option.toList_some, List.mem_append, List.mem_singleton] at hj ⊢
          tauto
        · refine (hparent.trans setParent_within.weaken).trans
            (setTile_within (htile _ _ _ (htile w _ _ ht)) fun j hj => ?_)
          simp only [Option.toList_some, List.mem_append, List.mem_singleton] at hj ⊢
          tauto
      split
      · split
        · exact hparent.trans (tileInsert_within (htile w _ _ ht) rfl (fun _ => id) fun _ => id)
        · exact hinsert _ _ rfl List.erase_subset fun _ => id
      · split
        · exact hparent.trans (tileInsert_within (htile w _ _ ht) rfl (fun _ => id) fun _ => id)
        · split
          · exact hinsert _ _ rfl (fun _ => id) List.erase_subset
          · exact hparent.trans setParent_within.weaken

theorem playerAddThing_within {p : Nat} {index : Int} :
    Within w (w.playerAddThing p index item) [item] := by
  unfold playerAddThing
  split
  · exact .refl
  · refine setParent_within.weaken.trans (setInventory_within fun i hi => ?_)
    cases hi
    exact List.mem_singleton_self _

/-- What every reachable world keeps. -/
structure Fine (w : World) : Prop where
  fits : w.Fits
  allocated : w.Allocated

theorem Within.fine (h : Within w w' []) (hw : w.Fine) : w'.Fine :=
  ⟨h.fits hw.fits, h.allocated hw.allocated fun _ hi => nomatch hi⟩

theorem containerAddThing_fine {index : Int} (hw : w.Fine) (hi : item < w.nextId)
    (hroom : w.HasRoom k) : (w.containerAddThing k index item).Fine := by
  unfold containerAddThing
  split
  · exact hw
  have hparent : Within w (w.setParent item (some (.container k))) [] := setParent_within
  have hroom := hparent.hasRoom hroom
  have hw := hparent.fine hw
  have hi : item < (w.setParent item (some (.container k))).nextId := hi
  dsimp only
  generalize w.setParent item (some (.container k)) = v at *
  refine ⟨fun j hj => ?_, fun c j hj => ?_⟩
  · simp only [setItems, setThing_thing] at hj ⊢
    by_cases heq : j = k
    · rw [if_pos heq] at hj ⊢
      exact hroom hj
    · rw [if_neg heq] at hj ⊢
      exact hw.fits j hj
  · cases c with
    | tile pos => exact hw.allocated (.tile pos) j hj
    | container i =>
        simp only [World.contents, setItems, setThing_thing] at hj
        split at hj
        · rcases List.mem_cons.mp hj with rfl | hj
          · exact hi
          · exact hw.allocated (.container k) j hj
        · exact hw.allocated (.container i) j hj
    | player p => exact hw.allocated (.player p) j hj

theorem addThing_fine {index : Int} (hw : w.Fine) (hi : item < w.nextId)
    (hroom : ∀ k, c = .container k → w.HasRoom k) : (w.addThing env c index item).Fine := by
  cases c with
  | tile pos =>
      have h : Within w (w.tileAddThing env pos item) [item] := tileAddThing_within
      refine ⟨h.fits hw.fits, h.allocated hw.allocated fun j hj => ?_⟩
      rw [List.mem_singleton.mp hj]
      exact Nat.lt_of_lt_of_le hi h.nextId
  | container k => exact containerAddThing_fine hw hi (hroom k rfl)
  | player p =>
      have h : Within w (w.playerAddThing p index item) [item] := playerAddThing_within
      refine ⟨h.fits hw.fits, h.allocated hw.allocated fun j hj => ?_⟩
      rw [List.mem_singleton.mp hj]
      exact Nat.lt_of_lt_of_le hi h.nextId

/-! ## Stacks with room -/

/-- A stack that an item can be put on. -/
def OpenFor (env : Env) (w : World) (item i : ThingId) : Prop :=
  w.equals i (some item) = true ∧ w.count i < w.stackSize env i

theorem sameAttributes_comm (a b : Item) : a.sameAttributes b = b.sameAttributes a := by
  simp only [Item.sameAttributes, eq_comm (a := a.intAttrs _), eq_comm (a := a.strAttrs _),
    Bool.beq_comm (a := a.custom.isSome)]

theorem sameAttributes_refl (a : Item) : a.sameAttributes a = true := by
  simp [Item.sameAttributes]

theorem custom_of_sameAttributes {a b : Item} (h : a.sameAttributes b = true) :
    a.custom.isNone = b.custom.isNone := by
  simp only [Item.sameAttributes, Bool.and_eq_true, beq_iff_eq] at h
  rw [← Option.not_isSome, ← Option.not_isSome, h.2]

theorem equals_comm {i : ThingId} : w.equals i (some item) = w.equals item (some i) := by
  simp only [equals, sameAttributes_comm (w.thing i).data, eq_comm (a := (w.thing i).id)]
  cases hsame : (w.thing item).data.sameAttributes (w.thing i).data with
  | false => rw [Bool.and_false, Bool.false_and, Bool.false_and]
  | true => rw [custom_of_sameAttributes hsame, decide_eq_decide.mpr (eq_comm (a := i))]

theorem findStack_some {n : Nat} {l : List ThingId} {r : Nat × ThingId}
    (h : w.findStack env item n l = some r) :
    n ≤ r.1 ∧ l[r.1 - n]? = some r.2 ∧ r.2 ≠ item ∧ OpenFor env w item r.2 := by
  induction l generalizing n with
  | nil => cases h
  | cons i l ih =>
      rw [findStack] at h
      split at h
      · next hi =>
          cases h
          exact ⟨Nat.le_refl _, by simp, hi⟩
      · obtain ⟨hle, hget, hopen⟩ := ih h
        refine ⟨Nat.le_of_succ_le hle, ?_, hopen⟩
        have hsucc : r.1 - n = (r.1 - (n + 1)) + 1 := by omega
        rw [hsucc, List.getElem?_cons_succ]
        exact hget

theorem findStack_none {n : Nat} {l : List ThingId} (h : w.findStack env item n l = none) :
    ∀ i ∈ l, i ≠ item → ¬ OpenFor env w item i := by
  induction l generalizing n with
  | nil => exact fun i hi => nomatch hi
  | cons j l ih =>
      rw [findStack] at h
      split at h
      · cases h
      next hj =>
      intro i hi hne hopen
      rcases List.mem_cons.mp hi with rfl | hi
      · exact hj ⟨hne, hopen⟩
      · exact ih h i hi hne hopen

/-! ## Where a container puts an item -/

/-- The item at an index of a container, or else the one that was known before. -/
def itemAt (w : World) (k : ThingId) (index : Int) (destItem : Option ThingId) : Option ThingId :=
  if index < 0 then destItem else ((w.thing k).itemlist[index.toNat]?).or destItem

/-- What `Container::queryDestination` picks: any place, a stack with room, or the index that
it was given. -/
inductive Pick (env : Env) (w : World) (k : ThingId) (index : Int) (item : ThingId)
    (destItem : Option ThingId) (flags : CylinderFlags) : Destination → Prop where
  | wherever (k' : ThingId) (o : Option ThingId) (ho : ∀ i ∈ o, destItem = some i) :
      Pick env w k index item destItem flags ⟨.container k', indexWhereever, o, flags⟩
  | stack (n : Nat) (i : ThingId) (hget : (w.thing k).itemlist[n]? = some i)
      (hstackable : (w.typeOf env item).stackable = true) (hopen : OpenFor env w item i) :
      Pick env w k index item destItem flags ⟨.container k, n, some i, flags⟩
  | place (hindex : index ≠ 254 ∧ index ≠ 255 ∧ index < (w.thing k).maxSize)
      (hplain : ∀ i ∈ w.itemAt k index destItem, (w.thing i).isContainer = false)
      (hauto : flags.ignoreAutoStack = false → (w.typeOf env item).stackable = true →
        (w.thing item).parent ≠ some (.container k) →
        (∃ i ∈ w.itemAt k index destItem, OpenFor env w item i) ∨
          ∀ i ∈ (w.thing k).itemlist, i ≠ item → ¬ OpenFor env w item i) :
      Pick env w k index item destItem flags
        ⟨.container k, index, w.itemAt k index destItem, flags⟩

/-- The last part of `Container::queryDestination`, which looks for a stack. -/
theorem autoStack_cases {P : Destination → Prop} {here : Destination} {o : Option ThingId}
    {flags : CylinderFlags}
    (hhere : (flags.ignoreAutoStack = false → (w.typeOf env item).stackable = true →
      (w.thing item).parent ≠ some (.container k) →
      (∃ i ∈ o, OpenFor env w item i) ∨
        ∀ i ∈ (w.thing k).itemlist, i ≠ item → ¬ OpenFor env w item i) → P here)
    (hstack : ∀ n i, (w.thing k).itemlist[n]? = some i → (w.typeOf env item).stackable = true →
      OpenFor env w item i → P ⟨.container k, (n : Nat), some i, flags⟩) :
    P (if ¬ flags.ignoreAutoStack ∧ (w.typeOf env item).stackable ∧
          (w.thing item).parent ≠ some (.container k) then
        if o.any fun i => w.equals i (some item) ∧ w.count i < w.stackSize env i then here
        else
          match w.findStack env item 0 (w.thing k).itemlist with
          | some (n, stack) => ⟨.container k, n, some stack, flags⟩
          | none => here
      else here) := by
  split
  · next hauto =>
    split
    · next hany =>
        refine hhere fun _ _ _ => .inl ?_
        obtain ⟨i, hi, hopen⟩ := (Option.any_eq_true _ _).mp hany
        simp only [decide_eq_true_eq] at hopen
        exact ⟨i, hi, hopen⟩
    · split
      · next n i hfind =>
          obtain ⟨-, hget, -, hopen⟩ := findStack_some hfind
          exact hstack n i hget hauto.2.1 hopen
      · next hfind => exact hhere fun _ _ _ => .inr (findStack_none hfind)
  · next hauto =>
      refine hhere fun hignore hstackable hparent => absurd ⟨?_, hstackable, hparent⟩ hauto
      rw [hignore]
      exact Bool.false_ne_true

theorem containerQueryDestination_pick {index : Int} {destItem : Option ThingId}
    {flags : CylinderFlags} : Pick env w k index item destItem flags
      (w.containerQueryDestination env k index item destItem flags) := by
  unfold containerQueryDestination
  split
  · split <;> exact .wherever _ _ nofun
  next hup =>
  by_cases hreset : index = 255 ∨ (w.thing k).maxSize ≤ index
  · simp only [if_pos hreset, ne_eq, not_true_eq_false, if_false]
    exact autoStack_cases (fun _ => .wherever _ _ nofun) fun n i hget hstackable hopen =>
      .stack n i hget hstackable hopen
  · simp only [if_neg hreset]
    split
    · exact .wherever _ _ nofun
    next hsub =>
    refine autoStack_cases (fun hauto => ?_) fun n i hget hstackable hopen =>
      .stack n i hget hstackable hopen
    by_cases hindex : index = indexWhereever
    · rw [hindex]
      exact .wherever _ _ fun i hi => hi
    rw [if_pos hindex, Option.filter_eq_none_iff] at hsub
    rw [not_or, not_le] at hreset
    refine .place ⟨hup, hreset.1, hreset.2⟩ (fun i hi => ?_) hauto
    exact Bool.eq_false_iff.mpr (hsub i hi)

/-! ## Where a player puts an item -/

/-- What `Player::queryDestination` picks: a slot, a container in one, and of the containers
that it looks into one with a stack or one that it counts a free place in. It does not count
what is traded, nor the item itself. -/
inductive PlayerPick (env : Env) (w : World) (p : Nat) (item : ThingId)
    (destItem : Option ThingId) (flags : CylinderFlags) : Destination → Prop where
  | slot (index : Int) (o : Option ThingId)
      (ho : ∀ i ∈ o, i ∈ w.contents (.player p) ∨ destItem = some i) :
      PlayerPick env w p item destItem flags ⟨.player p, index, o, flags⟩
  | wherever (k : ThingId) :
      PlayerPick env w p item destItem flags ⟨.container k, indexWhereever, none, flags⟩
  | stack (k : ThingId) (n : Nat) (i : ThingId) (hi : i ∈ (w.thing k).itemlist)
      (hstackable : (w.typeOf env item).stackable = true) (hopen : OpenFor env w item i) :
      PlayerPick env w p item destItem flags ⟨.container k, n, some i, flags⟩
  | place (k : ThingId) (index : Int)
      (hroom : (flags.ignoreAutoStack = false → (w.typeOf env item).stackable = true →
          ∀ t ∈ (w.player p).tradeItem, t ∉ (w.thing k).itemlist) →
        item ∉ (w.thing k).itemlist → w.HasRoom k) :
      PlayerPick env w p item destItem flags ⟨.container k, index, none, flags⟩

section PlayerPick

variable {p : Nat} {flags : CylinderFlags} {destItem : Option ThingId} {d : Destination}

theorem mem_contents_player {slot : Nat} {i : ThingId} (hslot : slot ∈ slots)
    (hi : (w.player p).inventory slot = some i) : i ∈ w.contents (.player p) :=
  List.mem_filterMap.mpr ⟨slot, hslot, hi⟩

theorem searchSlots_pick {l : List Nat} (hl : ∀ slot ∈ l, slot ∈ slots) {found : List ThingId}
    (h : w.searchSlots env p item flags l found = .inl d) :
    PlayerPick env w p item destItem flags d := by
  induction l generalizing found with
  | nil => cases h
  | cons slot l ih =>
      have hslot := hl slot List.mem_cons_self
      have hl : ∀ slot ∈ l, slot ∈ slots := fun s hs => hl s (List.mem_cons_of_mem _ hs)
      rw [searchSlots] at h
      split at h
      · next i hi =>
          dsimp only at h
          split_ifs at h
          · exact ih hl h
          · cases h
            exact .slot _ _ fun j hj => .inl (Option.some.inj hj ▸ mem_contents_player hslot hi)
          all_goals exact ih hl h
      · split_ifs at h
        · cases h
          exact .slot _ _ nofun
        · exact ih hl h

theorem findFree_pos {n : Nat} {index : Int} (h : w.findFree env k item flags n = some index) :
    0 < n := by
  cases n with
  | zero => cases h
  | succ n => exact Nat.succ_pos n

theorem searchStack_inl {n m : Nat} {i : ThingId} {found l : List ThingId}
    (h : w.searchStack env p item n found l = .inl (m, i)) :
    i ∈ l ∧ OpenFor env w item i := by
  induction l generalizing n found with
  | nil => cases h
  | cons j l ih =>
      rw [searchStack] at h
      split at h
      · obtain ⟨hi, hopen⟩ := ih h
        exact ⟨List.mem_cons_of_mem _ hi, hopen⟩
      split at h
      · next hopen =>
          cases h
          exact ⟨List.mem_cons_self, hopen⟩
      · obtain ⟨hi, hopen⟩ := ih h
        exact ⟨List.mem_cons_of_mem _ hi, hopen⟩

/-- The count is right where nothing is left out. -/
theorem searchStack_inr {n m : Nat} {found found' l : List ThingId}
    (htrade : ∀ t ∈ (w.player p).tradeItem, t ∉ l) (hitem : item ∉ l)
    (h : w.searchStack env p item n found l = .inr (m, found')) : m = n + l.length := by
  induction l generalizing n found with
  | nil =>
      cases h
      rfl
  | cons j l ih =>
      rw [searchStack] at h
      have htrade' : ∀ t ∈ (w.player p).tradeItem, t ∉ l := fun t ht hmem =>
        htrade t ht (List.mem_cons_of_mem _ hmem)
      split at h
      · next hskip =>
          rcases hskip with hskip | rfl
          · exact absurd List.mem_cons_self (htrade j hskip)
          · exact absurd List.mem_cons_self hitem
      split at h
      · cases h
      · rw [ih htrade' (fun hmem => hitem (List.mem_cons_of_mem _ hmem)) h, List.length_cons]
        omega

theorem searchContainers_pick {fuel : Nat} {l : List ThingId}
    (h : w.searchContainers env p item flags fuel l = some d) :
    PlayerPick env w p item destItem flags d := by
  induction fuel generalizing l with
  | zero => cases l <;> cases h
  | succ fuel ih =>
      cases l with
      | nil => cases h
      | cons k l =>
          rw [searchContainers] at h
          split at h
          · split at h
            · next index hfree =>
                cases h
                have hpos := findFree_pos hfree
                exact .place k index fun _ _ _ => by omega
            · exact ih h
          next hauto =>
          have hignore : flags.ignoreAutoStack = false :=
            Bool.eq_false_iff.mpr fun hignore => hauto (.inl hignore)
          have hstackable : (w.typeOf env item).stackable = true := by
            by_contra hnot
            exact hauto (.inr hnot)
          split at h
          · next n i hfind =>
              cases h
              obtain ⟨hi, hopen⟩ := searchStack_inl hfind
              exact .stack k n i hi hstackable hopen
          · next n found hfind =>
              split at h
              · next hn =>
                  cases h
                  refine .place k n fun htrade hitem _ => ?_
                  have hlength := searchStack_inr (htrade hignore hstackable) hitem hfind
                  have hlt := hn.1
                  omega
              · exact ih h

theorem playerQueryDestination_pick {index : Int} :
    PlayerPick env w p item destItem flags
      (w.playerQueryDestination env p index item destItem flags) := by
  unfold playerQueryDestination
  split
  · split
    · next d hsearch => exact searchSlots_pick (fun _ => id) hsearch
    · next found _ =>
        cases hsearch : w.searchContainers env p item flags env.depth found with
        | none => exact .slot _ _ nofun
        | some d => exact searchContainers_pick hsearch
  · split
    · exact .slot _ _ fun i hi => .inr hi
    · next i hi =>
        split
        · exact .wherever _
        · refine .slot _ _ fun j hj => .inl ?_
          cases hj
          unfold inventoryItem at hi
          split at hi
          · next hindex => exact mem_contents_player (mem_slots.mpr (by omega)) hi
          · cases hi

end PlayerPick

/-! ## `internalAddItem` keeps to the capacity -/

section Adding

variable {index : Int} {flags : CylinderFlags}

/-- The containers with an item that a player trades have a free place. -/
def TradesFromRoom (w : World) (p : Nat) : Prop :=
  ∀ t ∈ (w.player p).tradeItem, ∀ k, t ∈ (w.thing k).itemlist → w.HasRoom k

/-- An index that leads to a stack with room, into another container, or nowhere. -/
def AimsAtRoom (env : Env) (w : World) (k : ThingId) (index : Int) (item : ThingId) : Prop :=
  index = indexWhereever ∨ index = 254 ∨ index = 255 ∨ (w.thing k).maxSize ≤ index ∨
    ∃ i ∈ w.itemAt k index none, (w.thing i).isContainer = true ∨ OpenFor env w item i

/-- What the callers of `internalAddItem` see to: the item lies nowhere, and a stack is not
empty. -/
structure AddCalled (env : Env) (w : World) (c : Cylinder) (item : ThingId)
    (flags : CylinderFlags) : Prop where
  target : ∀ pos, c ≠ .tile pos
  noLimit : flags.noLimit = false
  allocated : item < w.nextId
  nowhere : ∀ c', item ∉ w.contents c'
  parent : (w.thing item).parent = none
  count : (w.typeOf env item).stackable = true → 0 < w.count item

/-- The condition on a call of `internalAddItem`. -/
structure AddKeeps (env : Env) (w : World) (c : Cylinder) (index : Int) (item : ThingId)
    (flags : CylinderFlags) : Prop where
  childIsOwner : flags.childIsOwner = false
  player : ∀ p, c = .player p → (w.typeOf env item).stackable = true →
    flags.ignoreAutoStack = false → w.TradesFromRoom p
  container : ∀ k, c = .container k → (w.typeOf env item).stackable = true →
    flags.ignoreAutoStack = true → w.HasRoom k ∨ AimsAtRoom env w k index item

theorem containerQueryAdd_room {count : Nat} {actor : Bool} (hlimit : flags.noLimit = false)
    (hchild : flags.childIsOwner = false)
    (h : w.containerQueryAdd env k indexWhereever item count flags actor = .noError) :
    w.HasRoom k := by
  intro _
  by_contra hnot
  have hfull : ¬ flags.noLimit = true ∧ indexWhereever = indexWhereever ∧
      (w.thing k).maxSize ≤ (w.thing k).itemlist.length :=
    ⟨by rw [hlimit]; exact Bool.false_ne_true, rfl, Nat.not_lt.mp hnot⟩
  unfold containerQueryAdd at h
  split at h
  · cases h
  rw [hchild, if_neg Bool.false_ne_true] at h
  split at h
  · cases h
  split at h
  · cases h
  split at h <;> cases h

theorem exists_openFor_of_stackRoom {count : Nat} {l : List ThingId}
    (h : 0 < w.stackRoom env k item count flags l) :
    ∃ i ∈ l, i ≠ item ∧ OpenFor env w item i := by
  by_contra hnone
  refine Nat.ne_of_gt h (List.sum_eq_zero fun n hn => ?_)
  obtain ⟨i, hi, rfl⟩ := List.mem_map.mp hn
  exact if_neg fun hopen => hnone ⟨i, hi, hopen.1, hopen.2.1, hopen.2.2.1⟩

theorem containerQueryMaxCount_room {count : Nat} (hlimit : flags.noLimit = false)
    (hcount : (w.typeOf env item).stackable = true → 0 < count)
    (h : (w.containerQueryMaxCount env k indexWhereever item count flags).2 = .noError) :
    w.HasRoom k ∨ (w.typeOf env item).stackable = true ∧
      ∃ i ∈ (w.thing k).itemlist, i ≠ item ∧ OpenFor env w item i := by
  unfold containerQueryMaxCount at h
  rw [hlimit, if_neg Bool.false_ne_true] at h
  dsimp only at h
  by_cases hroom : (w.thing k).itemlist.length < (w.thing k).maxSize
  · exact .inl fun _ => hroom
  have hfull : (w.thing k).maxSize - (w.thing k).itemlist.length = 0 := by omega
  rw [hfull] at h
  split at h
  · next hstackable =>
      simp only [if_true, Nat.zero_mul, Nat.zero_add] at h
      split at h
      · cases h
      · next hle =>
          have hpos : 0 < w.stackRoom env k item count flags (w.thing k).itemlist :=
            Nat.lt_of_lt_of_le (hcount hstackable) (Nat.not_lt.mp hle)
          exact .inr ⟨hstackable, exists_openFor_of_stackRoom hpos⟩
  · simp at h

/-- `queryDestination` picks a container with a free place, or a stack with room. -/
theorem destination_room (hcalled : AddCalled env w c item flags)
    (hkeeps : AddKeeps env w c index item flags)
    (hadd : let d := w.queryDestination env c index item none flags
      w.queryAdd env d.cylinder d.index item (w.count item) d.flags false = .noError)
    (hmax : let d := w.queryDestination env c index item none flags
      (w.queryMaxCount env c indexWhereever item (w.count item) d.flags).2 = .noError) :
    let d := w.queryDestination env c index item none flags
    d.flags = flags ∧ ∀ k, d.cylinder = .container k → w.HasRoom k ∨
      (w.typeOf env item).stackable = true ∧ ∃ i, d.destItem = some i ∧ OpenFor env w item i := by
  cases c with
  | tile pos => exact absurd rfl (hcalled.target pos)
  | player p =>
      have hpick : PlayerPick env w p item none flags
          (w.queryDestination env (.player p) index item none flags) :=
        playerQueryDestination_pick
      generalize w.queryDestination env (.player p) index item none flags = d at *
      cases hpick with
      | slot index o ho => exact ⟨rfl, fun k hk => nomatch hk⟩
      | wherever k =>
          refine ⟨rfl, fun k' hk' => .inl ?_⟩
          cases hk'
          exact containerQueryAdd_room hcalled.noLimit hkeeps.childIsOwner hadd
      | stack k n i hi hstackable hopen =>
          exact ⟨rfl, fun _ _ => .inr ⟨hstackable, i, rfl, hopen⟩⟩
      | place k index hroom =>
          refine ⟨rfl, fun k' hk' => .inl ?_⟩
          cases hk'
          by_cases hfree : w.HasRoom k
          · exact hfree
          refine hroom (fun hignore hstackable t ht hmem => hfree ?_) (hcalled.nowhere (.container k))
          exact hkeeps.player p rfl hstackable hignore t ht k hmem
  | container k =>
      have hpick : Pick env w k index item none flags
          (w.queryDestination env (.container k) index item none flags) :=
        containerQueryDestination_pick
      generalize w.queryDestination env (.container k) index item none flags = d at *
      cases hpick with
      | wherever k' o ho =>
          refine ⟨rfl, fun j hj => .inl ?_⟩
          cases hj
          exact containerQueryAdd_room hcalled.noLimit hkeeps.childIsOwner hadd
      | stack n i hget hstackable hopen =>
          exact ⟨rfl, fun _ _ => .inr ⟨hstackable, i, rfl, hopen⟩⟩
      | place hindex hplain hauto =>
          refine ⟨rfl, fun k' hk' => ?_⟩
          cases hk'
          rcases containerQueryMaxCount_room hcalled.noLimit hcalled.count hmax with
            hroom | ⟨hstackable, i, hi, hne, hopen⟩
          · exact .inl hroom
          by_cases hignore : flags.ignoreAutoStack = true
          · rcases hkeeps.container k rfl hstackable hignore with hroom | haims
            · exact .inl hroom
            obtain ⟨hup, hany, hlt⟩ := hindex
            rcases haims with rfl | haims | haims | haims | ⟨j, hj, hcontainer | hopen⟩
            · exact .inl (containerQueryAdd_room hcalled.noLimit hkeeps.childIsOwner hadd)
            · exact absurd haims hup
            · exact absurd haims hany
            · exact absurd hlt (Int.not_lt.mpr haims)
            · rw [hplain j hj] at hcontainer
              cases hcontainer
            · exact .inr ⟨hstackable, j, hj, hopen⟩
          · have hparent : (w.thing item).parent ≠ some (.container k) := by
              rw [hcalled.parent]
              exact nofun
            rcases hauto (Bool.eq_false_iff.mpr hignore) hstackable hparent with
              ⟨j, hj, hopen⟩ | hnone
            · exact .inr ⟨hstackable, j, hj, hopen⟩
            · exact absurd hopen (hnone i hi hne)

theorem mergeCount_pos {m : Nat} {i : ThingId} (hopen : OpenFor env w item i) (hm : 0 < m) :
    0 < w.mergeCount env item (some i) m := by
  have hequals : w.equals item (some i) = true := equals_comm.symm.trans hopen.1
  have hlt := hopen.2
  simp only [mergeCount, hequals, if_true]
  split <;> omega

theorem mergeInto_within {toItem : Option ThingId} {n : Nat} :
    Within w (w.mergeInto env c item toItem n) [] := by
  unfold mergeInto
  split
  · exact .refl
  · split
    · exact updateThing_within
    · exact .refl

theorem mergeInto_player {toItem : Option ThingId} {n : Nat} :
    (w.mergeInto env c item toItem n).player = w.player := by
  unfold mergeInto updateThing
  split
  · rfl
  · split
    · split <;> rfl
    · rfl

theorem startDecayingAdded_within : Within w (w.startDecayingAdded item) [] := by
  unfold startDecayingAdded
  dsimp only
  split
  · exact setData_within
  · exact .refl

theorem TradesFromRoom.within {p : Nat} (h : w.TradesFromRoom p) (hw : Within w w' [])
    (hplayer : w'.player = w.player) : w'.TradesFromRoom p := by
  intro t ht k hmem
  rw [hplayer] at ht
  refine hw.hasRoom (h t ht k ?_)
  exact (hw.contents (.container k) t hmem).elim id fun hmem => nomatch hmem

/-- What `internalAddItem` splits off is called for as the item was. -/
theorem splitOff_called {v : World} {count : Nat} (hw : w.Fine) (hv : Within w v [])
    (hplayer : v.player = w.player)
    (hstackable : (w.typeOf env item).stackable = true) (hpos : 0 < count) (hlt : count < 256)
    (hcalled : AddCalled env w c item flags) (hkeeps : AddKeeps env w c index item flags) :
    AddCalled env (v.clone item count) c v.nextId flags ∧
      AddKeeps env (v.clone item count) c indexWhereever v.nextId flags := by
  have hclone : Within w (v.clone item count) [] := hv.trans clone_within
  refine ⟨⟨hcalled.target, hcalled.noLimit, Nat.lt_succ_self _, fun c' hmem => ?_, ?_,
    fun _ => ?_⟩, ⟨hkeeps.childIsOwner, fun p hp _ hignore => ?_, fun _ _ _ _ => .inr (.inl rfl)⟩⟩
  · have hv' := hv.fine hw
    rcases (clone_within (w := v)).contents c' _ hmem with hmem | hmem
    · exact Nat.lt_irrefl _ (hv'.allocated c' _ hmem)
    · cases hmem
  · simp only [clone, setThing_thing, if_true]
  · rw [clone_count item hlt]
    exact hpos
  · exact (hkeeps.player p hp hstackable hignore).within hclone hplayer

theorem internalAddItem_fine {n : Nat} {r : AddOutcome} (hw : w.Fine)
    (hcalled : AddCalled env w c item flags) (hkeeps : AddKeeps env w c index item flags)
    (h : internalAddItem env n w c item index flags = some r) : r.world.Fine := by
  induction n generalizing w item index r with
  | zero => cases h
  | succ n ih =>
  rw [internalAddItem] at h
  dsimp only at h
  split at h
  · cases h
    exact hw
  next hadd =>
  split at h
  · cases h
    exact hw
  next hmax =>
  obtain ⟨hflags, hroom⟩ := destination_room hcalled hkeeps (by simpa using hadd)
    (by simpa using hmax)
  generalize w.queryDestination env c index item none flags = d at *
  generalize (w.queryMaxCount env c indexWhereever item (w.count item) d.flags).1 =
    maxQueryCount at *
  have hadded (v : World) (hv : Within w v []) (hplace : ∀ k, d.cylinder = .container k →
      w.HasRoom k) : ((v.addThing env d.cylinder d.index item).startDecayingAdded item).Fine :=
    startDecayingAdded_within.fine (addThing_fine (hv.fine hw)
      (Nat.lt_of_lt_of_le hcalled.allocated hv.nextId) fun k hk => hv.hasRoom (hplace k hk))
  split at h
  swap
  · next hmerge =>
    cases h
    refine hadded w .refl fun k hk => ?_
    rcases hroom k hk with hroom | ⟨hstackable, i, hi, hopen⟩
    · exact hroom
    · refine absurd ⟨hstackable, ?_⟩ hmerge
      rw [hi]
      exact equals_comm.symm.trans hopen.1
  next hmerge =>
  have hpos := hcalled.count hmerge.1
  generalize hm : min (w.count item) maxQueryCount = m at *
  have hv : Within w (w.mergeInto env d.cylinder item d.destItem
    (w.mergeCount env item d.destItem m)) [] := mergeInto_within
  have hplayer : (w.mergeInto env d.cylinder item d.destItem
    (w.mergeCount env item d.destItem m)).player = w.player := mergeInto_player
  generalize w.mergeInto env d.cylinder item d.destItem
    (w.mergeCount env item d.destItem m) = v at *
  have hcount := count_lt (w := w) item
  split_ifs at h with hsome hpart
  · have hinner : ∀ r, internalAddItem env n (v.clone item
        (m - w.mergeCount env item d.destItem m)) c v.nextId indexWhereever d.flags = some r →
        r.world.Fine := by
      intro r hr
      obtain ⟨hcalled', hkeeps'⟩ := splitOff_called hw hv hplayer hmerge.1 hsome (by omega)
        hcalled hkeeps
      rw [hflags] at hr
      exact ih ((hv.trans clone_within).fine hw) hcalled' hkeeps' hr
    split at h
    · cases h
    · next u remainder hr =>
        cases h
        exact startDecayingAdded_within.fine (hinner _ hr)
    · next ret u remainder _ hr =>
        cases h
        exact startDecayingAdded_within.fine (hinner _ hr)
  · cases h
    refine hadded v hv fun k hk => ?_
    rcases hroom k hk with hroom | ⟨-, i, hi, hopen⟩
    · exact hroom
    · have hmerged := mergeCount_pos (m := m) hopen (by omega)
      rw [hi] at hpart hsome
      omega
  · cases h
    exact startDecayingAdded_within.fine (hv.fine hw)

end Adding

/-! ## `internalMoveItem` keeps to the capacity -/

section Moving

variable {index : Int} {flags : CylinderFlags} {d : Destination}

/-- A container is picked for the item at an index, if there is one. -/
def Settled (w : World) (d : Destination) : Prop :=
  ∀ k, d.cylinder = .container k →
    d.flags.noLimit = false ∧ d.flags.childIsOwner = false ∧
      (d.index = indexWhereever ∨
        ∀ i, 0 ≤ d.index → (w.thing k).itemlist[d.index.toNat]? = some i → d.destItem = some i)

theorem Pick.settled {destItem : Option ThingId} (hlimit : flags.noLimit = false)
    (hchild : flags.childIsOwner = false) (h : Pick env w k index item destItem flags d) :
    w.Settled d := by
  intro k' hk'
  cases h with
  | wherever k o ho => exact ⟨hlimit, hchild, .inl rfl⟩
  | stack n i hget hstackable hopen =>
      cases hk'
      refine ⟨hlimit, hchild, .inr fun j _ hj => ?_⟩
      rw [Int.toNat_natCast, hget] at hj
      exact hj
  | place hindex hplain hauto =>
      cases hk'
      refine ⟨hlimit, hchild, .inr fun j hpos hj => ?_⟩
      simp only at hpos hj
      rw [itemAt, if_neg (Int.not_lt.mpr hpos), hj]
      rfl

theorem redirect_settled_container {n : Nat} (hd : d.cylinder = .container k)
    (hlimit : d.flags.noLimit = false) (hchild : d.flags.childIsOwner = false)
    (hsettled : n = 0 → w.Settled d) : w.Settled (w.redirect env item n d) := by
  induction n generalizing d k with
  | zero => exact hsettled rfl
  | succ n ih =>
      obtain ⟨c, index, destItem, flags⟩ := d
      cases hd
      have hpick : Pick env w k index item destItem flags
          (w.queryDestination env (.container k) index item destItem flags) :=
        containerQueryDestination_pick
      have hnext := hpick.settled hlimit hchild
      rw [redirect]
      dsimp only
      generalize w.queryDestination env (.container k) index item destItem flags = d' at *
      split
      · exact hnext
      · have hreset : w.Settled { d' with flags := {} } := fun k' hk' =>
          ⟨rfl, rfl, (hnext k' hk').2.2⟩
        cases hpick with
        | wherever k' o ho => exact ih rfl rfl rfl fun _ => hreset
        | stack n i hget hstackable hopen => exact ih rfl rfl rfl fun _ => hreset
        | place hindex hplain hauto => exact ih rfl rfl rfl fun _ => hreset

theorem redirect_tile {n : Nat} {pos : Position} (hd : d.cylinder = .tile pos) :
    ∃ pos', (w.redirect env item n d).cylinder = .tile pos' := by
  induction n generalizing d pos with
  | zero => exact ⟨pos, hd⟩
  | succ n ih =>
      obtain ⟨c, index, destItem, flags⟩ := d
      cases hd
      rw [redirect]
      dsimp only
      split
      · exact ⟨_, rfl⟩
      · exact ih rfl

theorem redirect_settled {n : Nat} (hlimit : d.flags.noLimit = false)
    (hchild : d.flags.childIsOwner = false) : w.Settled (w.redirect env item (n + 2) d) := by
  obtain ⟨c, index, destItem, flags⟩ := d
  cases c with
  | tile pos =>
      intro k hk
      obtain ⟨pos', hpos⟩ : ∃ pos', (w.redirect env item (n + 2)
          ⟨.tile pos, index, destItem, flags⟩).cylinder = .tile pos' := redirect_tile rfl
      rw [hpos] at hk
      cases hk
  | container k => exact redirect_settled_container rfl hlimit hchild nofun
  | player p =>
      have hpick : PlayerPick env w p item destItem flags
          (w.queryDestination env (.player p) index item destItem flags) :=
        playerQueryDestination_pick
      rw [redirect]
      dsimp only
      generalize w.queryDestination env (.player p) index item destItem flags = d' at *
      cases hpick with
      | slot index' o ho =>
          rw [if_pos rfl]
          exact fun k hk => nomatch hk
      | wherever k => exact redirect_settled_container rfl rfl rfl nofun
      | stack k n i hi hstackable hopen => exact redirect_settled_container rfl rfl rfl nofun
      | place k index' hroom => exact redirect_settled_container rfl rfl rfl nofun

theorem queryDestination_allocated {destItem : Option ThingId} (hw : w.Allocated)
    (hd : ∀ i ∈ destItem, i < w.nextId) :
    ∀ i ∈ (w.queryDestination env c index item destItem flags).destItem, i < w.nextId := by
  cases c with
  | tile pos =>
      have hhead (dest : Position) (i : ThingId)
          (hi : (w.tile dest).bind (fun t => t.downItems.head?) = some i) : i < w.nextId := by
        obtain ⟨t, ht, hi⟩ := Option.bind_eq_some_iff.mp hi
        refine hw (.tile dest) i ?_
        simp only [World.contents, ht]
        exact List.mem_append_right _ (List.mem_of_mem_head? hi)
      exact fun i hi => hhead _ i hi
  | container k =>
      have hpick : Pick env w k index item destItem flags
          (w.queryDestination env (.container k) index item destItem flags) :=
        containerQueryDestination_pick
      generalize w.queryDestination env (.container k) index item destItem flags = d at *
      intro i hi
      cases hpick with
      | wherever k' o ho => exact hd i (ho i hi)
      | stack n j hget hstackable hopen =>
          cases hi
          exact hw (.container k) i (List.mem_of_getElem? hget)
      | place hindex hplain hauto =>
          have hi : i ∈ w.itemAt k index destItem := hi
          unfold itemAt at hi
          split at hi
          · exact hd i hi
          · rcases Option.or_eq_some_iff.mp hi with hi | ⟨-, hi⟩
            · exact hw (.container k) i (List.mem_of_getElem? hi)
            · exact hd i hi
  | player p =>
      have hpick : PlayerPick env w p item destItem flags
          (w.queryDestination env (.player p) index item destItem flags) :=
        playerQueryDestination_pick
      generalize w.queryDestination env (.player p) index item destItem flags = d at *
      intro i hi
      cases hpick with
      | slot index' o ho =>
          rcases ho i hi with hmem | hi
          · exact hw (.player p) i hmem
          · exact hd i hi
      | wherever k => cases hi
      | stack k n j hj hstackable hopen =>
          cases hi
          exact hw (.container k) i hj
      | place k index' hroom => cases hi

theorem redirect_allocated {n : Nat} (hw : w.Allocated) (hd : ∀ i ∈ d.destItem, i < w.nextId) :
    ∀ i ∈ (w.redirect env item n d).destItem, i < w.nextId := by
  induction n generalizing d with
  | zero => exact hd
  | succ n ih =>
      have hnext : ∀ i ∈ (w.queryDestination env d.cylinder d.index item d.destItem
          d.flags).destItem, i < w.nextId := queryDestination_allocated hw hd
      rw [redirect]
      split
      · exact hnext
      · exact ih hnext

/-- Of the things only the count of one changes, and parents. -/
structure Lessens (w w' : World) (item : ThingId) : Prop where
  id : ∀ j, (w'.thing j).id = (w.thing j).id
  data : ∀ j, j ≠ item → (w'.thing j).data = (w.thing j).data
  attributes : ∀ b, Item.sameAttributes b (w'.thing item).data =
    Item.sameAttributes b (w.thing item).data

theorem Lessens.custom (h : Lessens w w' item) :
    (w'.thing item).data.custom.isNone = (w.thing item).data.custom.isNone := by
  have hsame := h.attributes (w.thing item).data
  rw [sameAttributes_refl] at hsame
  exact (custom_of_sameAttributes hsame).symm

theorem Lessens.refl : Lessens w w item := ⟨fun _ => rfl, fun _ _ => rfl, fun _ => rfl⟩

theorem setThing_lessens {i : ThingId} {t : Thing} (hid : t.id = (w.thing i).id)
    (hdata : t.data = (w.thing i).data) : Lessens w (w.setThing i t) item := by
  have hthing (j : ThingId) : ((w.setThing i t).thing j).id = (w.thing j).id ∧
      ((w.setThing i t).thing j).data = (w.thing j).data := by
    rw [setThing_thing]
    split
    · next heq =>
        rw [heq]
        exact ⟨hid, hdata⟩
    · exact ⟨rfl, rfl⟩
  exact ⟨fun j => (hthing j).1, fun j _ => (hthing j).2, fun b => by rw [(hthing item).2]⟩

theorem Lessens.setItems {l : List ThingId} (h : Lessens w w' item) :
    Lessens w (w'.setItems k l) item := by
  have hset : Lessens w' (w'.setItems k l) item := setThing_lessens rfl rfl
  exact ⟨fun j => (hset.id j).trans (h.id j), fun j hj => (hset.data j hj).trans (h.data j hj),
    fun b => (hset.attributes b).trans (h.attributes b)⟩

theorem reduce_lessens {count : Nat} : Lessens w (w.reduce item count) item where
  id j := by
    simp only [reduce, setData, setThing_thing]
    split
    · next heq => rw [heq]
    · rfl
  data j hj := by simp only [reduce, setData, setThing_thing, if_neg hj]
  attributes b := by
    simp only [reduce, setData, setThing_thing, if_true]
    rfl

theorem removeThing_lessens {count : Nat} :
    Lessens w (w.removeThing env c item count) item := by
  have hparent : Lessens w (w.setParent item none) item := setThing_lessens rfl rfl
  cases c with
  | tile pos =>
      simp only [removeThing, tileRemoveThing]
      split
      · exact .refl
      · split_ifs
        · exact ⟨hparent.id, hparent.data, hparent.attributes⟩
        · exact ⟨hparent.id, hparent.data, hparent.attributes⟩
        · exact .refl
        · exact reduce_lessens
        · exact ⟨hparent.id, hparent.data, hparent.attributes⟩
        · exact .refl
  | container k =>
      simp only [removeThing, containerRemoveThing]
      split_ifs
      · exact reduce_lessens
      · exact hparent.setItems
      · exact .refl
  | player p =>
      simp only [removeThing, playerRemoveThing]
      split
      · exact .refl
      · split
        · exact reduce_lessens
        · exact ⟨hparent.id, hparent.data, hparent.attributes⟩

variable (env) in
theorem Lessens.openFor {i : ThingId} (h : Lessens w w' item) (hne : i ≠ item) :
    w'.equals i (some item) = w.equals i (some item) ∧ w'.count i = w.count i ∧
      w'.stackSize env i = w.stackSize env i := by
  refine ⟨?_, ?_, stackSize_congr h.id i⟩
  · simp only [equals, h.id, h.data i hne, h.attributes, h.custom]
  · simp only [count, h.data i hne]

/-- A stack that has room for all takes all. -/
theorem mergeCount_eq {m : Nat} {i : ThingId} (hopen : OpenFor env w item i)
    (hm : m ≤ w.stackSize env i - w.count i) : w.mergeCount env item (some i) m = m := by
  have hequals : w.equals item (some i) = true := equals_comm.symm.trans hopen.1
  simp only [mergeCount, hequals, if_true]
  split <;> omega

theorem transfer_fine {fromCylinder : Cylinder} {toItem : Option ThingId} {m : Nat} (hw : w.Fine)
    (hi : item < w.nextId)
    (hroom : ∀ k, c = .container k → w.HasRoom k ∨ (w.typeOf env item).stackable = true ∧
      ∃ i, toItem = some i ∧ i ≠ item ∧ OpenFor env w item i ∧
        m ≤ w.stackSize env i - w.count i) :
    (w.transfer env fromCylinder c index item toItem m).1.Fine := by
  unfold transfer
  have hremove : Within w (w.removeThing env fromCylinder item m) [] := removeThing_within
  have hless : Lessens w (w.removeThing env fromCylinder item m) item := removeThing_lessens
  generalize w.removeThing env fromCylinder item m = v at *
  have htype : v.typeOf env item = w.typeOf env item := typeOf_congr hless.id item
  dsimp only
  rw [htype]
  split
  · next hstackable =>
      have hmerge : Within v (v.mergeInto env c item toItem (v.mergeCount env item toItem m)) [] :=
        mergeInto_within
      split
      · next hpos =>
          have hclone : Within w ((v.mergeInto env c item toItem
              (v.mergeCount env item toItem m)).clone item (m - v.mergeCount env item toItem m))
              [] := (hremove.trans hmerge).trans clone_within
          refine addThing_fine (hclone.fine hw) (Nat.lt_succ_self _) fun k hk => ?_
          rcases hroom k hk with hroom | ⟨-, i, rfl, hne, hopen, hm⟩
          · exact hclone.hasRoom hroom
          · obtain ⟨hequals, hcount, hsize⟩ := hless.openFor env hne
            rw [mergeCount_eq ⟨by rw [hequals]; exact hopen.1, by rw [hcount, hsize]; exact hopen.2⟩
              (by rw [hcount, hsize]; exact hm)] at hpos
            omega
      · exact (hremove.trans hmerge).fine hw
  · next hplain =>
      refine addThing_fine (hremove.fine hw) (Nat.lt_of_lt_of_le hi hremove.nextId) fun k hk => ?_
      rcases hroom k hk with hroom | ⟨hstackable, -⟩
      · exact hremove.hasRoom hroom
      · exact absurd hstackable hplain

theorem startDecaying_within {o : Option ThingId} : Within w (w.startDecaying o) [] := by
  unfold startDecaying
  split
  · exact .refl
  · dsimp only
    split
    · exact setData_within
    · exact .refl

/-- The world that a move ends with, if it does not crash. -/
def MoveOutcome.world : MoveOutcome → Option World
  | .done _ w => some w
  | .passedOn w => some w
  | .nullItem => none

variable (env w item k) in
theorem containerQueryMaxCount_index (count : Nat) (hlimit : flags.noLimit = false)
    (hindex : index ≠ indexWhereever) :
    w.HasRoom k ∨ (w.containerQueryMaxCount env k index item count flags).1 = 0 ∨
      (w.typeOf env item).stackable = true ∧ 0 ≤ index ∧
        ∃ i, (w.thing k).itemlist[index.toNat]? = some i ∧ OpenFor env w item i ∧
          (w.containerQueryMaxCount env k index item count flags).1 =
            w.stackSize env i - w.count i := by
  by_cases hroom : (w.thing k).itemlist.length < (w.thing k).maxSize
  · exact .inl fun _ => hroom
  have hfull : (w.thing k).maxSize - (w.thing k).itemlist.length = 0 := by omega
  refine .inr ?_
  unfold containerQueryMaxCount
  rw [hlimit, if_neg Bool.false_ne_true, hfull]
  simp only [if_neg hindex, Nat.zero_mul, Nat.zero_add]
  split
  swap
  · exact .inl rfl
  next hstackable =>
  split
  · exact .inl rfl
  next hnonneg =>
  split
  · exact .inl rfl
  next i hget =>
  split
  · next hopen =>
      exact .inr ⟨hstackable, Int.not_lt.mp hnonneg, i, hget,
        ⟨equals_comm.trans hopen.1, hopen.2.1⟩, rfl⟩
  · exact .inl rfl

theorem queryRemove_pos {count : Nat} {actor : Bool}
    (h : w.queryRemove env c item count flags actor = .noError) : 0 < count := by
  unfold queryRemove at h
  split at h
  · cases h
  split at h
  · cases h
  next hcount =>
  exact Nat.pos_of_ne_zero fun hzero => hcount (.inl hzero)

theorem moveToPlace_fine {fromCylinder : Cylinder} {count : Nat} {toItem tradeItem : Option ThingId}
    {actor : Bool} (hw : w.Fine) (hi : item < w.nextId) (hne : toItem ≠ some item)
    (hplace : ∀ k, c = .container k → flags.noLimit = false ∧ (w.HasRoom k ∨
      index ≠ indexWhereever ∧ ∀ i, 0 ≤ index → (w.thing k).itemlist[index.toNat]? = some i →
        toItem = some i))
    (h : (w.moveToPlace env fromCylinder item count c index toItem flags actor tradeItem).world =
      some w') : w'.Fine := by
  unfold moveToPlace at h
  dsimp only at h
  generalize hmax : w.queryMaxCount env c index item count flags = r at h
  obtain ⟨maxQueryCount, retMaxCount⟩ := r
  dsimp only at h
  split at h
  · cases h
    exact hw
  generalize hm : (if (w.typeOf env item).stackable = true then min count maxQueryCount
    else maxQueryCount) = m at h
  split at h
  · cases h
    exact hw
  next hremove =>
  split at h
  · cases h
    exact hw
  have hpos : 0 < m := queryRemove_pos (not_not.mp hremove)
  have hle : m ≤ maxQueryCount := by
    rw [← hm]
    split
    · exact Nat.min_le_right _ _
    · exact Nat.le_refl _
  have htransfer : (w.transfer env fromCylinder c index item toItem m).1.Fine := by
    refine transfer_fine hw hi fun k hk => ?_
    subst hk
    obtain ⟨hlimit, hroom | ⟨hindex, hsettled⟩⟩ := hplace k rfl
    · exact .inl hroom
    have hmax : w.containerQueryMaxCount env k index item count flags =
        (maxQueryCount, retMaxCount) := hmax
    have hcases := containerQueryMaxCount_index env w item k count hlimit hindex
    rw [hmax] at hcases
    rcases hcases with hroom | hzero | ⟨hstackable, hnonneg, i, hget, hopen, hspace⟩
    · exact .inl hroom
    · dsimp only at hzero
      omega
    · have hto := hsettled i hnonneg hget
      dsimp only at hspace
      exact .inr ⟨hstackable, i, hto, fun heq => hne (by rw [hto, heq]), hopen, by omega⟩
  generalize w.transfer env fromCylinder c index item toItem m = t at h htransfer
  obtain ⟨v, moveItem⟩ := t
  dsimp only at h htransfer
  split_ifs at h
  · cases h
    exact htransfer
  · cases h
    exact htransfer
  · cases h
    exact startDecaying_within.fine htransfer

theorem le_nextId_addThing {i : Int} {j : ThingId} :
    w.nextId ≤ (w.addThing env c i j).nextId := by
  cases c with
  | tile pos =>
      have h : Within w (w.tileAddThing env pos j) [j] := tileAddThing_within
      exact h.nextId
  | container k =>
      simp only [addThing, containerAddThing]
      split <;> exact Nat.le_refl _
  | player p =>
      have h : Within w (w.playerAddThing p i j) [j] := playerAddThing_within
      exact h.nextId

theorem addThingAnywhere_fine {j : ThingId} (hw : w.Fine) (hj : j < w.nextId)
    (hroom : ∀ k, c = .container k → w.HasRoom k) :
    (w.addThingAnywhere env c j).Fine ∧ w.nextId ≤ (w.addThingAnywhere env c j).nextId := by
  cases c with
  | tile pos =>
      have hfine : (w.addThing env (.tile pos) 0 j).Fine := addThing_fine hw hj hroom
      exact ⟨hfine, le_nextId_addThing⟩
  | container k =>
      have hfine : (w.addThing env (.container k) 0 j).Fine := addThing_fine hw hj hroom
      exact ⟨hfine, le_nextId_addThing⟩
  | player p => exact ⟨hw, Nat.le_refl _⟩

/-- What an exchange puts into a container fits, if there is a free place for a stack. -/
theorem exchange_fine {fromCylinder : Cylinder} {count : Nat} {toItem : ThingId} {actor : Bool}
    (hw : w.Fine) (hto : toItem < w.nextId)
    (hroom : ∀ f, fromCylinder = .container f → (w.typeOf env toItem).stackable = true →
      w.HasRoom f) :
    (w.exchange env fromCylinder item count c index toItem flags actor).2.1.Fine ∧
      w.nextId ≤ (w.exchange env fromCylinder item count c index toItem flags actor).2.1.nextId := by
  unfold exchange
  dsimp only
  split
  · exact ⟨hw, Nat.le_refl _⟩
  generalize hmax : w.queryMaxCount env fromCylinder indexWhereever toItem (w.count toItem) {} = r
  obtain ⟨maxExchangeQueryCount, retExchangeMaxCount⟩ := r
  dsimp only
  split
  · exact ⟨hw, Nat.le_refl _⟩
  next hsome =>
  split
  swap
  · exact ⟨hw, Nat.le_refl _⟩
  have hremove : Within w (w.removeThing env c toItem (w.count toItem)) [] := removeThing_within
  suffices hplace : ∀ f, fromCylinder = .container f → w.HasRoom f by
    obtain ⟨hfine, hle⟩ : (((w.removeThing env c toItem (w.count toItem)).addThingAnywhere env
        fromCylinder toItem).Fine) ∧ (w.removeThing env c toItem (w.count toItem)).nextId ≤
        ((w.removeThing env c toItem (w.count toItem)).addThingAnywhere env
          fromCylinder toItem).nextId :=
      addThingAnywhere_fine (hremove.fine hw) (Nat.lt_of_lt_of_le hto hremove.nextId)
        fun f hf => hremove.hasRoom (hplace f hf)
    exact ⟨hfine, Nat.le_trans hremove.nextId hle⟩
  intro f hf
  by_cases hstackable : (w.typeOf env toItem).stackable = true
  · exact hroom f hf hstackable
  intro _
  subst hf
  have hmax : w.containerQueryMaxCount env f indexWhereever toItem (w.count toItem) {} =
      (maxExchangeQueryCount, retExchangeMaxCount) := hmax
  simp only [containerQueryMaxCount, Bool.false_eq_true, if_false, if_neg hstackable,
    Prod.mk.injEq] at hmax
  obtain ⟨hcount, hret⟩ := hmax
  by_contra hfull
  have hzero : (w.thing f).maxSize - (w.thing f).itemlist.length = 0 := by omega
  rw [if_pos hzero] at hret
  exact hsome ⟨by rw [← hret]; exact nofun, by omega⟩

theorem exchange_toItem {fromCylinder : Cylinder} {count : Nat} {toItem i : ThingId}
    {actor : Bool} (h : (w.exchange env fromCylinder item count c index toItem flags actor).2.2 =
      some i) : some toItem = some i := by
  unfold exchange at h
  dsimp only at h
  split at h
  · exact h
  split at h
  · exact h
  split at h
  · cases h
  · exact h

theorem containerQueryAdd_ne_needExchange {count : Nat} {actor : Bool} :
    w.containerQueryAdd env k index item count flags actor ≠ .needExchange := by
  have hplayer (p : Nat) : w.playerQueryAdd env p indexWhereever item count
      { flags with childIsOwner := true } ≠ .needExchange := by
    rw [playerQueryAdd, if_pos rfl]
    split <;> exact nofun
  unfold containerQueryAdd
  split
  · exact nofun
  split
  · exact nofun
  split
  · exact nofun
  split
  · exact nofun
  split
  · exact nofun
  split
  · exact nofun
  split
  · exact nofun
  split
  · exact nofun
  · split
    · exact hplayer _
    · split <;> exact nofun
    · exact nofun

/-- What the callers of `internalMoveItem` see to. -/
structure MoveCalled (w : World) (item : ThingId) (flags : CylinderFlags) : Prop where
  noLimit : flags.noLimit = false
  allocated : item < w.nextId

/-- The condition on a call of `internalMoveItem`: an exchange does not give a stack to a full
container. -/
structure MoveKeeps (env : Env) (w : World) (fromCylinder toCylinder : Cylinder) (index : Int)
    (item : ThingId) (count : Nat) (flags : CylinderFlags) (actor : Bool) : Prop where
  childIsOwner : flags.childIsOwner = false
  exchange : let d := w.redirect env item 16 ⟨toCylinder, index, none, flags⟩
    w.queryAdd env d.cylinder d.index item count d.flags actor = .needExchange →
      ∀ toItem ∈ d.destItem, (w.typeOf env toItem).stackable = true →
        ∀ f, fromCylinder = .container f → w.HasRoom f

theorem internalMoveItem_fine {fromCylinder toCylinder : Cylinder} {count : Nat} {actor : Bool}
    {tradeItem : Option ThingId} (hw : w.Fine) (hcalled : MoveCalled w item flags)
    (hkeeps : MoveKeeps env w fromCylinder toCylinder index item count flags actor)
    (h : (w.internalMoveItem env fromCylinder toCylinder index item count flags actor
      tradeItem).world = some w') : w'.Fine := by
  unfold internalMoveItem at h
  dsimp only at h
  have hsettled : w.Settled (w.redirect env item 16 ⟨toCylinder, index, none, flags⟩) :=
    redirect_settled hcalled.noLimit hkeeps.childIsOwner
  have hto : ∀ i ∈ (w.redirect env item 16 ⟨toCylinder, index, none, flags⟩).destItem,
      i < w.nextId := redirect_allocated hw.allocated nofun
  have hexchange := hkeeps.exchange
  generalize w.redirect env item 16 ⟨toCylinder, index, none, flags⟩ = d at *
  split at h
  · cases h
    exact hw
  next hne =>
  split at h
  · next hneed =>
      have hplain (k : ThingId) : d.cylinder ≠ .container k := fun hk => by
        rw [hk] at hneed
        exact containerQueryAdd_ne_needExchange hneed
      split at h
      · cases h
      next toItem hd =>
      have hfine : (w.exchange env fromCylinder item count d.cylinder d.index toItem d.flags
          actor).2.1.Fine ∧ w.nextId ≤ (w.exchange env fromCylinder item count d.cylinder d.index
            toItem d.flags actor).2.1.nextId :=
        exchange_fine hw (hto toItem hd)
          fun f hf hstackable => hexchange hneed toItem hd hstackable f hf
      have hleft : (w.exchange env fromCylinder item count d.cylinder d.index toItem d.flags
          actor).2.2 ≠ some item := fun heq => hne (hd.trans (exchange_toItem heq))
      generalize w.exchange env fromCylinder item count d.cylinder d.index toItem d.flags actor =
        r at *
      obtain ⟨ret, v, toItem'⟩ := r
      obtain ⟨hfine, hle⟩ := hfine
      dsimp only at h hfine hle hleft
      split at h
      · cases h
        exact hfine
      split at h
      · cases h
        exact hfine
      · exact moveToPlace_fine hfine (Nat.lt_of_lt_of_le hcalled.allocated hle) hleft
          (fun k hk => absurd hk (hplain k)) h
  · next hnoNeed =>
      split at h
      · cases h
        exact hw
      next hadd =>
      refine moveToPlace_fine hw hcalled.allocated hne (fun k hk => ?_) h
      obtain ⟨hlimit, hchild, hindex⟩ := hsettled k hk
      refine ⟨hlimit, ?_⟩
      by_cases hwhereever : d.index = indexWhereever
      · left
        rw [hk, hwhereever] at hadd
        exact containerQueryAdd_room hlimit hchild (not_not.mp hadd)
      · exact .inr ⟨hwhereever, hindex.resolve_left hwhereever⟩

end Moving

end Room

/-! ## Runs -/

inductive Call where
  | internalAddItem (n : Nat) (toCylinder : Cylinder) (item : ThingId) (index : Int)
      (flags : CylinderFlags)
  | internalMoveItem (fromCylinder toCylinder : Cylinder) (index : Int) (item : ThingId)
      (count : Nat) (flags : CylinderFlags) (actor : Bool) (tradeItem : Option ThingId)

def Call.run : Call → Option World
  | .internalAddItem n toCylinder item index flags =>
      (World.internalAddItem env n w toCylinder item index flags).map AddOutcome.world
  | .internalMoveItem fromCylinder toCylinder index item count flags actor tradeItem =>
      (w.internalMoveItem env fromCylinder toCylinder index item count flags actor tradeItem).world

def Call.Called : Call → Prop
  | .internalAddItem _ toCylinder item _ flags => AddCalled env w toCylinder item flags
  | .internalMoveItem _ _ _ item _ flags _ _ => MoveCalled w item flags

def Call.Keeps : Call → Prop
  | .internalAddItem _ toCylinder item index flags => AddKeeps env w toCylinder index item flags
  | .internalMoveItem fromCylinder toCylinder index item count flags actor _ =>
      MoveKeeps env w fromCylinder toCylinder index item count flags actor

/-- What calls with a property reach from the worlds where the containers have room for what is
in them. -/
inductive Reachable (env : Env) (P : World → Call → Prop) : World → Prop where
  | start (w : World) (hw : w.Fine) : Reachable env P w
  | call {w w' : World} (c : Call) (h : Reachable env P w) (hcalled : c.Called env w) (hp : P w c)
      (hrun : c.run env w = some w') : Reachable env P w'

variable {env} {w}

theorem Call.run_fine {c : Call} {w' : World} (hw : w.Fine) (hcalled : c.Called env w)
    (hkeeps : c.Keeps env w) (h : c.run env w = some w') : w'.Fine := by
  cases c with
  | internalAddItem n toCylinder item index flags =>
      obtain ⟨r, hr, rfl⟩ := Option.map_eq_some_iff.mp h
      exact internalAddItem_fine hw hcalled hkeeps hr
  | internalMoveItem fromCylinder toCylinder index item count flags actor tradeItem =>
      exact internalMoveItem_fine hw hcalled hkeeps h

theorem Reachable.fine (h : Reachable env (fun w c => c.Keeps env w) w) : w.Fine := by
  induction h with
  | start w hw => exact hw
  | call c _ hcalled hkeeps hrun ih => exact Call.run_fine ih hcalled hkeeps hrun

/-- Whatever is added and moved, no container has more items than its capacity. -/
theorem capacity_invariant (h : Reachable env (fun w c => c.Keeps env w) w) : w.Fits := h.fine.fits

/-! ## Two backpacks -/

/-- Types 1 to 3 are a backpack, a sword and a coin. -/
def backpackAndCoins (id : UInt16) : ItemType :=
  { id := id, pickupable := true, moveable := true, stackable := id = 3
    group := if id = 1 then .container else .none }

def quietEnv : Env where
  items := backpackAndCoins
  tileFlags _ _ := {}
  classicEquipmentSlots := false
  onPlayerEquip _ _ _ _ := .noError
  notInvited _ _ := false
  newDuration _ := 0
  depth := 4

/-- A sword in a small backpack that it fills, a large backpack, and a coin that lies nowhere. -/
def twoBackpacks (tradeItem : Option ThingId) : World where
  thing i :=
    match i with
    | 0 => ⟨1, Item.bare, some (.player 0), true, [1], 1, none⟩
    | 1 => ⟨2, Item.bare, some (.container 0), false, [], 0, none⟩
    | 2 => ⟨3, Item.bare, none, false, [], 0, none⟩
    | 3 => ⟨1, Item.bare, some (.player 0), true, [], 8, none⟩
    | _ => ⟨0, Item.bare, none, false, [], 0, none⟩
  tile _ := none
  player _ :=
    { inventory := fun slot => if slot = 3 then some 0 else if slot = 4 then some 3 else none
      tradeItem := tradeItem
      position := ⟨0, 0, 0⟩
      capacity := 0
      cannotPickupItem := false
      hasInfiniteCapacity := true }
  nextId := 4

def addCoin : Call := .internalAddItem 1 (.player 0) 2 indexWhereever {}

theorem twoBackpacks_fine (tradeItem : Option ThingId) : (twoBackpacks tradeItem).Fine where
  fits k hk := by
    rcases k with _ | _ | _ | _ | k
    · exact Nat.le_refl 1
    · cases hk
    · cases hk
    · exact Nat.zero_le 8
    · cases hk
  allocated c i hi := by
    cases c with
    | tile pos => cases hi
    | container k =>
        rcases k with _ | _ | _ | _ | k
        · rw [List.mem_singleton.mp hi]
          exact (by decide : 1 < 4)
        all_goals cases hi
    | player p =>
        obtain ⟨slot, -, hi⟩ := List.mem_filterMap.mp hi
        simp only [twoBackpacks] at hi
        split_ifs at hi
        · cases hi
          exact (by decide : 0 < 4)
        · cases hi
          exact (by decide : 3 < 4)

theorem addCoin_called (tradeItem : Option ThingId) :
    addCoin.Called quietEnv (twoBackpacks tradeItem) where
  target pos := nofun
  noLimit := rfl
  allocated := (by decide : 2 < 4)
  nowhere c hmem := by
    cases c with
    | tile pos => cases hmem
    | container k =>
        rcases k with _ | _ | _ | _ | k
        · cases List.mem_singleton.mp hmem
        all_goals cases hmem
    | player p =>
        obtain ⟨slot, -, hslot⟩ := List.mem_filterMap.mp hmem
        simp only [twoBackpacks] at hslot
        split_ifs at hslot
        · cases hslot
        · cases hslot
  parent := rfl
  count _ := (by decide : 0 < Item.bare.count.toNat)

/-- The coin goes into the large backpack. -/
theorem capacity_invariant_coin :
    ∃ w, Reachable quietEnv (fun w c => c.Keeps quietEnv w) w ∧ (w.thing 3).itemlist = [2] ∧
      w.Fits := by
  have hrun : (addCoin.run quietEnv (twoBackpacks none)).map (fun w => (w.thing 3).itemlist) =
      some [2] := by decide +kernel
  obtain ⟨w, hw, hlist⟩ := Option.map_eq_some_iff.mp hrun
  have hreach : Reachable quietEnv (fun w c => c.Keeps quietEnv w) w :=
    .call addCoin (.start _ (twoBackpacks_fine none)) (addCoin_called none)
      { childIsOwner := rfl
        player := fun p hp _ _ t ht => nomatch ht
        container := fun k hk => nomatch hk } hw
  exact ⟨w, hreach, hlist, capacity_invariant hreach⟩

/-- The player trades the sword, and the coin goes to it into the small backpack. -/
theorem capacity_invariant_trade :
    ¬ ∀ (env : Env) (w : World), Reachable env (fun _ _ => True) w → w.Fits := by
  intro h
  have hrun : (addCoin.run quietEnv (twoBackpacks (some 1))).map (fun w =>
      ((w.thing 0).isContainer, (w.thing 0).itemlist.length, (w.thing 0).maxSize)) =
      some (true, 2, 1) := by decide +kernel
  obtain ⟨w, hw, hthing⟩ := Option.map_eq_some_iff.mp hrun
  have hfits := h quietEnv w (.call addCoin (.start _ (twoBackpacks_fine (some 1)))
    (addCoin_called (some 1)) trivial hw) 0
  rw [Prod.mk.injEq, Prod.mk.injEq] at hthing
  obtain ⟨hcontainer, hlength, hsize⟩ := hthing
  rw [hlength, hsize] at hfits
  exact absurd (hfits hcontainer) (by decide)

end World

end Bruxo
