import Bruxo.Decay

/-!
# What the decay of an item leaves of another

`Apart i` holds between two states that differ in nothing about the item `i`: its record, how often
it is pending and how often each bucket has it. The functions of `Bruxo.Decay` that are given
another item keep it apart; so does an item that they make.
-/

namespace Bruxo.Decay.Game

structure Apart (i : ItemId) (s s' : Game) : Prop where
  item : s'.item i = s.item i
  pending : s'.toDecayItems.count i = s.toDecayItems.count i
  listed : ∀ bucket, (s'.decayItems bucket).count i = (s.decayItems bucket).count i
  lastBucket : s'.lastBucket = s.lastBucket
  nextId : s.nextId ≤ s'.nextId

variable {items : UInt16 → ItemType} {s s' : Game} {i k : ItemId}

namespace Apart

theorem refl : Apart i s s := ⟨rfl, rfl, fun _ => rfl, rfl, Nat.le_refl _⟩

theorem trans {t : Game} (h : Apart i s t) (h' : Apart i t s') : Apart i s s' where
  item := h'.item.trans h.item
  pending := h'.pending.trans h.pending
  listed bucket := (h'.listed bucket).trans (h.listed bucket)
  lastBucket := h'.lastBucket.trans h.lastBucket
  nextId := Nat.le_trans h.nextId h'.nextId

theorem lt (h : Apart i s s') (hi : i < s.nextId) : i < s'.nextId :=
  Nat.lt_of_lt_of_le hi h.nextId

end Apart

/-! ## Steps -/

theorem setItem_apart {t : DecayItem} (hk : k ≠ i) : Apart i s (s.setItem k t) where
  item := Function.update_of_ne hk.symm _ _
  pending := rfl
  listed _ := rfl
  lastBucket := rfl
  nextId := Nat.le_refl _

theorem nextAnswer_apart : Apart i s s.nextAnswer := ⟨rfl, rfl, fun _ => rfl, rfl, Nat.le_refl _⟩

theorem release_apart : Apart i s (s.release k) := ⟨rfl, rfl, fun _ => rfl, rfl, Nat.le_refl _⟩

theorem letGo_apart : Apart i s (s.letGo k) := ⟨rfl, rfl, fun _ => rfl, rfl, Nat.le_refl _⟩

theorem create_apart {t : DecayItem} (hi : i < s.nextId) : Apart i s (s.create t) where
  item := Function.update_of_ne (Nat.ne_of_lt hi) _ _
  pending := rfl
  listed _ := rfl
  lastBucket := rfl
  nextId := Nat.le_succ _

theorem register_apart (hk : k ≠ i) : Apart i s (s.register k) where
  item := (setItem_apart hk).item
  pending := List.count_cons_of_ne hk
  listed _ := rfl
  lastBucket := rfl
  nextId := Nat.le_refl _

theorem addThing_apart {a : AddThing} (hk : k ≠ i) : Apart i s (s.addThing k a) := by
  cases a with
  | kept removed => exact setItem_apart hk
  | refused => exact .refl
  | released => exact (setItem_apart hk).trans letGo_apart

theorem replaceThing_apart {j : ItemId} (hk : k ≠ i) (hj : j ≠ i) :
    Apart i s (s.replaceThing k j) :=
  ((setItem_apart hj).trans (setItem_apart hk)).trans letGo_apart

/-- The decay list of another item is filtered, or nothing of it. -/
theorem unlist_apart (hk : k ≠ i) :
    Apart i s { s with
      decayItems := Function.update s.decayItems 0 ((s.decayItems 0).filter (· ≠ k)) } where
  item := rfl
  pending := rfl
  listed bucket := by
    dsimp only
    rw [Function.update_apply]
    split
    · next hzero =>
        rw [hzero]
        exact List.count_filter (by simpa using hk.symm)
    · rfl
  lastBucket := rfl
  nextId := Nat.le_refl _

/-! ## Removing and transforming -/

theorem internalRemoveItem_apart {count : Nat} (hk : k ≠ i) :
    Apart i s (s.internalRemoveItem items k count) := by
  unfold internalRemoveItem
  dsimp only
  have hremoved : Apart i s (s.nextAnswer.removeThing items k count (s.answers 0).whole) := by
    unfold removeThing
    split
    · exact nextAnswer_apart.trans (setItem_apart hk)
    · exact nextAnswer_apart.trans (setItem_apart hk)
  split_ifs
  · exact nextAnswer_apart
  · exact nextAnswer_apart
  · exact nextAnswer_apart
  · exact (hremoved.trans (unlist_apart hk)).trans letGo_apart
  · exact hremoved.trans letGo_apart
  · exact hremoved

/-- What `transformItem` answers, if anything, is not the item either. -/
structure ApartResult (i : ItemId) (s : Game) (r : Game × Option ItemId) : Prop where
  apart : Apart i s r.1
  result : ∀ j, r.2 = some j → j ≠ i

theorem ApartResult.same (hk : k ≠ i) (h : Apart i s s') : ApartResult i s (s', some k) where
  apart := h
  result j hj := by
    cases hj
    exact hk

theorem ApartResult.none (h : Apart i s s') : ApartResult i s (s', Option.none) where
  apart := h
  result j hj := by cases hj

theorem ApartResult.trans {r : Game × Option ItemId} (h : Apart i s s') (hr : ApartResult i s' r) :
    ApartResult i s r where
  apart := h.trans hr.apart
  result := hr.result

theorem changeLayer_apart {newId : UInt16} {newCount : Int} {a : Answer} (hk : k ≠ i) :
    ApartResult i s (s.changeLayer items k newId newCount a) := by
  unfold changeLayer
  dsimp only
  generalize ht : (if newCount ≠ -1 then
    ((s.setParent k false false).setID items k newId a.duration).setSubType items k
      (castInt 2 false newCount)
    else (s.setParent k false false).setID items k newId a.duration) = t
  have happly : Apart i s t := by
    rw [← ht]
    split
    · exact ((setItem_apart hk).trans (setItem_apart hk)).trans (setItem_apart hk)
    · exact (setItem_apart hk).trans (setItem_apart hk)
  have hadded : Apart i s (t.addThing k a.backThing) := happly.trans (addThing_apart hk)
  split
  · exact .none (hadded.trans letGo_apart)
  · exact .same hk hadded

theorem replaceCreated_apart {new : DecayItem} (hk : k ≠ i) (hi : i < s.nextId) :
    Apart i s ((s.create new).replaceThing k s.nextId) :=
  (create_apart hi).trans (replaceThing_apart hk (Nat.ne_of_gt hi))

theorem transformEmpty_apart {again : Game → ItemId → UInt16 → Game × Option ItemId}
    {newId : UInt16} {a : Answer} (hagain : ApartResult i s (again s k newId)) (hk : k ≠ i)
    (hi : i < s.nextId) : ApartResult i s (s.transformEmpty items again k newId a) := by
  unfold transformEmpty
  dsimp only
  generalize (if (items (s.item k).id).id = (items newId).id then s.getDecayTo items k
    else (newId.toNat : Int)) = newItemId
  split_ifs
  · exact .none (internalRemoveItem_apart hk)
  · exact .none (internalRemoveItem_apart hk)
  · split
    · exact .none .refl
    · exact .same (Nat.ne_of_gt hi) (replaceCreated_apart hk hi)
  · exact hagain

theorem transformUpdate_apart {newId : UInt16} {newCount : Int} {a : Answer} (hk : k ≠ i) :
    Apart i s (s.transformUpdate items k newId newCount a) := by
  unfold transformUpdate
  dsimp only
  generalize ht : (if (items (s.item k).id).id ≠ (items newId).id ∧
    (items newId).group ≠ (items (s.item k).id).group then
      s.setData k (setDefaultSubtype (items (s.item k).id) (s.item k).data) else s) = t
  have happly : Apart i s t := by
    rw [← ht]
    split
    · exact setItem_apart hk
    · exact .refl
  exact (happly.trans (setItem_apart hk)).trans (setItem_apart hk)

theorem transformReplace_apart {newId : UInt16} {newCount : Int} {a : Answer} (hk : k ≠ i)
    (hi : i < s.nextId) : ApartResult i s (s.transformReplace items k newId newCount a) := by
  unfold transformReplace
  dsimp only
  split
  · exact .none .refl
  · have hreplaced (new : DecayItem) : Apart i s ((s.create new).replaceThing k s.nextId) :=
      replaceCreated_apart hk hi
    split
    · exact .same (Nat.ne_of_gt hi) ((hreplaced _).trans (register_apart (Nat.ne_of_gt hi)))
    · exact .same (Nat.ne_of_gt hi) (hreplaced _)

theorem transformStep_apart {again : Game → ItemId → UInt16 → Game × Option ItemId}
    {newId : UInt16} {newCount : Int} (hk : k ≠ i) (hi : i < s.nextId)
    (hagain : ApartResult i s.nextAnswer (again s.nextAnswer k newId)) :
    ApartResult i s (s.transformStep items again k newId newCount) := by
  have hsame : ApartResult i s (s.nextAnswer, some k) := .same hk nextAnswer_apart
  unfold transformStep
  dsimp only
  split_ifs
  · exact hsame
  · exact hsame
  · exact .none nextAnswer_apart
  · exact hsame
  · exact hsame
  · exact hsame
  · exact .trans nextAnswer_apart (changeLayer_apart hk)
  · exact .trans nextAnswer_apart (transformEmpty_apart hagain hk hi)
  · exact .trans nextAnswer_apart (.same hk (transformUpdate_apart hk))
  · exact .trans nextAnswer_apart (transformReplace_apart hk hi)

theorem transformItem_apart {newId : UInt16} {newCount : Int} (hk : k ≠ i) (hi : i < s.nextId) :
    ApartResult i s (s.transformItem items k newId newCount) :=
  transformStep_apart hk hi (transformStep_apart hk hi (.same hk .refl))

/-! ## Decay -/

theorem internalDecayItem_apart {start : Game → Option ItemId → Option Game} (hk : k ≠ i)
    (hi : i < s.nextId)
    (hstart : ∀ t r t', i < t.nextId → (∀ j, r = some j → j ≠ i) → start t r = some t' →
      Apart i t t')
    (h : s.internalDecayItem items start k = some s') : Apart i s s' := by
  unfold internalDecayItem at h
  dsimp only at h
  split at h
  · have htransformed : ApartResult i s (s.transformItem items k
        (UInt16.ofNat (castInt 2 false (s.getDecayTo items k)).toNat) (-1)) :=
      transformItem_apart hk hi
    exact htransformed.apart.trans (hstart _ _ _ (htransformed.apart.lt hi) htransformed.result h)
  · cases h
    exact internalRemoveItem_apart hk

theorem startDecay_apart {n : Nat} {r : Option ItemId} (hr : ∀ j, r = some j → j ≠ i)
    (hi : i < s.nextId) (h : s.startDecay items n r = some s') : Apart i s s' := by
  induction n generalizing s r s' with
  | zero => cases h
  | succ n ih =>
      cases r with
      | none =>
          cases h
          exact .refl
      | some k =>
          have hk : k ≠ i := hr k rfl
          rw [startDecay] at h
          split_ifs at h
          · cases h
            exact .refl
          · cases h
            exact .refl
          · cases h
            exact register_apart hk
          · exact internalDecayItem_apart hk hi (fun t r t' hi hr h => ih hr hi h) h

theorem decay_apart {n : Nat} (hk : k ≠ i) (hi : i < s.nextId)
    (h : s.internalDecayItem items (startDecay items n) k = some s') : Apart i s s' :=
  internalDecayItem_apart hk hi (fun _ _ _ hi hr h => startDecay_apart hr hi h) h

end Bruxo.Decay.Game
