import Bruxo.Decay

/-!
# What holds of the items that are listed for decay

`Fine` is the invariant: the reference counters add up and no item is listed twice. Each
function keeps it, given that an item it lists is not listed before.
-/

namespace Bruxo.Decay.Game

/-- How often an item is listed for decay. -/
def listings (s : Game) (i : ItemId) : Nat := s.toDecayItems.count i + ∑ b, (s.decayItems b).count i

/-- Every reference on an item is that of its owner, of a listing, of a release to come, or
one of those in hand. -/
structure Counted (s : Game) (inHand : List ItemId) : Prop where
  ledger : ∀ i, s.referenceCounter i =
    (if s.owned i then 1 else 0) + s.listings i + s.toReleaseItems.count i + inHand.count i
  parented : ∀ i, (s.item i).parent = true → s.owned i = true
  fresh : ∀ i, s.nextId ≤ i → s.owned i = false ∧ s.listings i = 0 ∧
    s.toReleaseItems.count i = 0 ∧ inHand.count i = 0

/-- The reference counters add up and no item is listed twice. -/
structure Fine (s : Game) (inHand : List ItemId) : Prop where
  counted : Counted s inHand
  once : ∀ i, s.listings i ≤ 1

/-! ## Items that change -/

/-- Items change, references do not. -/
structure Quiet (s s' : Game) : Prop where
  nextId : s'.nextId = s.nextId
  referenceCounter : s'.referenceCounter = s.referenceCounter
  owned : s'.owned = s.owned
  toDecayItems : s'.toDecayItems = s.toDecayItems
  decayItems : s'.decayItems = s.decayItems
  lastBucket : s'.lastBucket = s.lastBucket
  toReleaseItems : s'.toReleaseItems = s.toReleaseItems
  parent : ∀ i, (s'.item i).parent = true → (s.item i).parent = true ∨ s.owned i = true

variable {items : UInt16 → ItemType} {s s' : Game} {inHand : List ItemId} {i j : ItemId}

theorem Quiet.refl : Quiet s s := ⟨rfl, rfl, rfl, rfl, rfl, rfl, rfl, fun _ => .inl⟩

theorem Quiet.trans {t : Game} (h : Quiet s t) (h' : Quiet t s') : Quiet s s' where
  nextId := h'.nextId.trans h.nextId
  referenceCounter := h'.referenceCounter.trans h.referenceCounter
  owned := h'.owned.trans h.owned
  toDecayItems := h'.toDecayItems.trans h.toDecayItems
  decayItems := h'.decayItems.trans h.decayItems
  lastBucket := h'.lastBucket.trans h.lastBucket
  toReleaseItems := h'.toReleaseItems.trans h.toReleaseItems
  parent i hi := by
    rcases h'.parent i hi with hi | hi
    · exact h.parent i hi
    · rw [h.owned] at hi
      exact .inr hi

theorem Quiet.listings (h : Quiet s s') (i : ItemId) : s'.listings i = s.listings i := by
  rw [Game.listings, Game.listings, h.toDecayItems, h.decayItems]

theorem Quiet.counted (h : Quiet s s') (hc : Counted s inHand) : Counted s' inHand where
  ledger i := by
    rw [h.referenceCounter, h.owned, h.listings, h.toReleaseItems]
    exact hc.ledger i
  parented i hi := by
    rw [h.owned]
    exact (h.parent i hi).elim (hc.parented i) id
  fresh i hi := by
    rw [h.owned, h.listings, h.toReleaseItems]
    exact hc.fresh i (by rwa [← h.nextId])

theorem setItem_quiet {t : DecayItem}
    (ht : t.parent = true → (s.item i).parent = true ∨ s.owned i = true) :
    Quiet s (s.setItem i t) := by
  refine ⟨rfl, rfl, rfl, rfl, rfl, rfl, rfl, fun k hk => ?_⟩
  simp only [setItem, Function.update_apply] at hk
  split at hk
  · next heq =>
      rw [heq]
      exact ht hk
  · exact .inl hk

theorem setData_quiet {data : Item} : Quiet s (s.setData i data) := setItem_quiet .inl

theorem setDecaying_quiet {state : Int} : Quiet s (s.setDecaying i state) := setData_quiet

theorem setID_quiet {newId : UInt16} {duration : Nat} :
    Quiet s (s.setID items i newId duration) := setItem_quiet .inl

theorem setSubType_quiet {n : Int} : Quiet s (s.setSubType items i n) := setData_quiet

theorem nextAnswer_quiet : Quiet s s.nextAnswer := ⟨rfl, rfl, rfl, rfl, rfl, rfl, rfl, fun _ => .inl⟩

theorem unparent_quiet {removed : Bool} : Quiet s (s.setParent i false removed) :=
  setItem_quiet nofun

theorem setParent_quiet {parent removed : Bool} (hi : s.owned i = true) :
    Quiet s (s.setParent i parent removed) :=
  setItem_quiet fun _ => .inr hi

theorem Quiet.fine (h : Quiet s s') (hs : Fine s inHand) : Fine s' inHand where
  counted := h.counted hs.counted
  once i := by
    rw [h.listings]
    exact hs.once i

theorem Fine.owned_lt (hs : Fine s inHand) (hi : s.owned i = true) : i < s.nextId := by
  by_contra hlt
  have howned := (hs.counted.fresh i (Nat.not_lt.mp hlt)).1
  rw [hi] at howned
  cases howned

theorem Fine.parent_lt (hs : Fine s inHand) (hi : (s.item i).parent = true) : i < s.nextId :=
  hs.owned_lt (hs.counted.parented i hi)

/-! ## The steps of the ledger -/

theorem listings_register (k : ItemId) :
    (s.register i).listings k = s.listings k + if k = i then 1 else 0 := by
  simp only [Game.listings, register, List.count_cons, beq_iff_eq, eq_comm (a := i)]
  have hd : (s.setDecaying i 1).decayItems = s.decayItems := rfl
  have ht : (s.setDecaying i 1).toDecayItems = s.toDecayItems := rfl
  rw [hd]
  omega

theorem listings_setBucket (bucket : Fin decayBuckets) (l : List ItemId) (k : ItemId) :
    (s.setBucket bucket l).listings k + (s.decayItems bucket).count k =
      s.listings k + l.count k := by
  simp only [Game.listings, setBucket]
  have hs := Finset.sum_erase_add Finset.univ (fun b => (s.decayItems b).count k)
    (Finset.mem_univ bucket)
  have hs' := Finset.sum_erase_add Finset.univ
    (fun b => (Function.update s.decayItems bucket l b).count k) (Finset.mem_univ bucket)
  have hrest : ∑ b ∈ Finset.univ.erase bucket, (Function.update s.decayItems bucket l b).count k =
      ∑ b ∈ Finset.univ.erase bucket, (s.decayItems b).count k :=
    Finset.sum_congr rfl fun b hb => by
      rw [Function.update_of_ne (Finset.ne_of_mem_erase hb)]
  simp only [Function.update_self] at hs'
  omega

theorem Fine.create {t : DecayItem} (hs : Fine s inHand) (ht : t.parent = false) :
    Fine (s.create t) inHand := by
  have hl (k : ItemId) : (s.create t).listings k = s.listings k := rfl
  refine ⟨⟨fun k => ?_, fun k hk => ?_, fun k hk => ?_⟩, hs.once⟩
  · by_cases hk : k = s.nextId
    · obtain ⟨-, hlist, hrel, hhand⟩ := hs.counted.fresh k hk.ge
      have hcount : (s.create t).toReleaseItems.count k = 0 := hrel
      rw [hl, hlist, hcount, hhand]
      simp [Game.create, hk]
    · have hledger := hs.counted.ledger k
      rw [hl]
      simpa [Game.create, Function.update_of_ne hk, setItem] using hledger
  · by_cases heq : k = s.nextId
    · simp [Game.create, setItem, heq, ht] at hk
    · simp only [Game.create, setItem, Function.update_of_ne heq] at hk ⊢
      exact hs.counted.parented k hk
  · have hk' : s.nextId + 1 ≤ k := hk
    obtain ⟨howned, hrest⟩ := hs.counted.fresh k (Nat.le_of_succ_le hk')
    have hne : k ≠ s.nextId := Nat.ne_of_gt hk'
    refine ⟨?_, hrest⟩
    simpa [Game.create, Function.update_of_ne hne] using howned

theorem Fine.release (hs : Fine s (i :: inHand)) : Fine (s.release i) inHand := by
  have hl (k : ItemId) : (s.release i).listings k = s.listings k := rfl
  refine ⟨⟨fun k => ?_, hs.counted.parented, fun k hk => ?_⟩, hs.once⟩
  · have hledger := hs.counted.ledger k
    rw [hl]
    have hrel : (s.release i).toReleaseItems = s.toReleaseItems ++ [i] := rfl
    have hcounter : (s.release i).referenceCounter = s.referenceCounter := rfl
    have howned : (s.release i).owned = s.owned := rfl
    rw [hrel, hcounter, howned, hledger]
    simp only [List.count_append, List.count_cons, List.count_nil]
    push_cast
    omega
  · obtain ⟨howned, hlist, hrel, hhand⟩ := hs.counted.fresh k hk
    rw [List.count_cons] at hhand
    refine ⟨howned, hlist, ?_, by omega⟩
    simp only [Game.release, List.count_append, List.count_cons, List.count_nil]
    omega

theorem Fine.letGo (hs : Fine s inHand) (hi : s.owned i = true)
    (hparent : (s.item i).parent = false) : Fine (s.letGo i) inHand := by
  have hl (k : ItemId) : (s.letGo i).listings k = s.listings k := rfl
  have hrel (k : ItemId) : (s.letGo i).toReleaseItems.count k =
      s.toReleaseItems.count k + if k = i then 1 else 0 := by
    simp only [Game.letGo, Game.release, List.count_append, List.count_cons, List.count_nil,
      beq_iff_eq, eq_comm (a := i), Nat.zero_add]
  refine ⟨⟨fun k => ?_, fun k hk => ?_, fun k hk => ?_⟩, hs.once⟩
  · have hledger := hs.counted.ledger k
    have howned : (s.letGo i).owned k = if k = i then false else s.owned k :=
      Function.update_apply _ _ _ _
    have hcounter : (s.letGo i).referenceCounter = s.referenceCounter := rfl
    rw [hl, hrel, howned, hcounter, hledger]
    by_cases heq : k = i
    · rw [heq]
      simp [hi]
      omega
    · simp [heq]
  · have hk' : (s.item k).parent = true := hk
    have heq : k ≠ i := by
      rintro rfl
      rw [hparent] at hk'
      cases hk'
    simpa [Game.letGo, Function.update_of_ne heq] using hs.counted.parented k hk'
  · obtain ⟨howned, hlist, hcount, hhand⟩ := hs.counted.fresh k hk
    have heq : k ≠ i := by
      rintro rfl
      rw [hi] at howned
      cases howned
    refine ⟨?_, hlist, ?_, hhand⟩
    · simpa [Game.letGo, Function.update_of_ne heq] using howned
    · rw [hrel, hcount, if_neg heq]

theorem Fine.register (hs : Fine s inHand) (hi : i < s.nextId) (hlist : s.listings i = 0) :
    Fine (s.register i) inHand := by
  refine ⟨⟨fun k => ?_, fun k hk => ?_, fun k hk => ?_⟩, fun k => ?_⟩
  · have hledger := hs.counted.ledger k
    have howned : (s.register i).owned = s.owned := rfl
    have hrel : (s.register i).toReleaseItems = s.toReleaseItems := rfl
    have hcounter : (s.register i).referenceCounter k =
        s.referenceCounter k + if k = i then 1 else 0 := by
      simp only [Game.register, Function.update_apply]
      split
      · next heq => rw [heq]
      · omega
    rw [listings_register, howned, hrel, hcounter, hledger]
    push_cast
    omega
  · exact (setDecaying_quiet.counted hs.counted).parented k hk
  · obtain ⟨howned, hlist, hcount, hhand⟩ := hs.counted.fresh k hk
    have hk' : s.nextId ≤ k := hk
    refine ⟨howned, ?_, hcount, hhand⟩
    rw [listings_register, if_neg (Nat.ne_of_gt (Nat.lt_of_lt_of_le hi hk')), hlist]
  · have hk := hs.once k
    rw [listings_register]
    split
    · next heq => rw [heq, hlist]
    · omega

/-! ## Removing -/

/-- What a function that only lists pending items does to the rest. -/
structure Grows (s s' : Game) : Prop where
  nextId : s.nextId ≤ s'.nextId
  decayItems : s'.decayItems = s.decayItems
  lastBucket : s'.lastBucket = s.lastBucket
  answers : ∀ n, ∃ m, s'.answers n = s.answers m

theorem Grows.trans {t : Game} (h : Grows s t) (h' : Grows t s') : Grows s s' where
  nextId := Nat.le_trans h.nextId h'.nextId
  decayItems := h'.decayItems.trans h.decayItems
  lastBucket := h'.lastBucket.trans h.lastBucket
  answers n := by
    obtain ⟨m, hm⟩ := h'.answers n
    obtain ⟨k, hk⟩ := h.answers m
    exact ⟨k, hm.trans hk⟩

theorem Grows.refl : Grows s s := ⟨Nat.le_refl _, rfl, rfl, fun n => ⟨n, rfl⟩⟩

theorem nextAnswer_grows : Grows s s.nextAnswer := ⟨Nat.le_refl _, rfl, rfl, fun n => ⟨n + 1, rfl⟩⟩

theorem setItem_grows {t : DecayItem} : Grows s (s.setItem i t) :=
  ⟨Nat.le_refl _, rfl, rfl, fun n => ⟨n, rfl⟩⟩

theorem create_grows {t : DecayItem} : Grows s (s.create t) :=
  ⟨Nat.le_succ _, rfl, rfl, fun n => ⟨n, rfl⟩⟩

theorem letGo_grows : Grows s (s.letGo i) := ⟨Nat.le_refl _, rfl, rfl, fun n => ⟨n, rfl⟩⟩

theorem register_grows : Grows s (s.register i) := ⟨Nat.le_refl _, rfl, rfl, fun n => ⟨n, rfl⟩⟩

theorem canDecay_of_isRemoved (h : s.isRemoved i = true) : s.canDecay items i = false := by
  simp [canDecay, h]

theorem internalRemoveItem_fine {count : Nat} (hs : Fine s inHand)
    (hpart : s.takesPart items i count (s.answers 0).whole = true →
      (s.item i).parentRemoved = false) :
    Fine (s.internalRemoveItem items i count) inHand ∧
      Grows s (s.internalRemoveItem items i count) := by
  have hnext : Fine s.nextAnswer inHand := nextAnswer_quiet.fine hs
  unfold internalRemoveItem
  dsimp only
  split_ifs with hparent hquery hcan hremoved hdecay
  case pos | pos | pos => exact ⟨hnext, nextAnswer_grows⟩
  case pos =>
    rw [canDecay_of_isRemoved hremoved] at hdecay
    cases hdecay
  case neg =>
    have hparent : (s.item i).parent = true := by simpa using hparent
    unfold removeThing at hremoved ⊢
    split_ifs at hremoved ⊢ with htakes
    · simp [isRemoved, setData, DecayItem.put, hparent, hpart htakes] at hremoved
    · refine ⟨(unparent_quiet.fine hnext).letGo (hs.counted.parented i hparent) ?_,
        nextAnswer_grows.trans (setItem_grows.trans letGo_grows)⟩
      simp [setParent]
  case neg =>
    unfold removeThing
    split_ifs
    · exact ⟨setData_quiet.fine hnext, nextAnswer_grows.trans setItem_grows⟩
    · exact ⟨unparent_quiet.fine hnext, nextAnswer_grows.trans setItem_grows⟩

theorem internalRemoveItem_whole (hs : Fine s inHand) :
    Fine (s.internalRemoveItem items i (s.item i).data.count.toNat) inHand ∧
      Grows s (s.internalRemoveItem items i (s.item i).data.count.toNat) :=
  internalRemoveItem_fine hs fun h => by simp [takesPart] at h

/-! ## Transforming -/

theorem createItem_parent {type count : UInt16} {duration : Nat} {new : DecayItem}
    (h : createItem items type count duration = some new) : new.parent = false := by
  unfold createItem at h
  dsimp only at h
  split_ifs at h <;> cases h <;> rfl

/-- What `transformItem` answers is not listed unless it says so or was listed before. -/
structure Transformed (s : Game) (inHand : List ItemId) (i : ItemId)
    (r : Game × Option ItemId) : Prop where
  fine : Fine r.1 inHand
  grows : Grows s r.1
  lt : i < s.nextId → ∀ j, r.2 = some j → j < r.1.nextId
  unlisted : s.listings i = 0 → ∀ j, r.2 = some j → r.1.decaying j = false → r.1.listings j = 0

theorem Transformed.of_quiet (hs : Fine s inHand) (h : Quiet s s') (hg : Grows s s') :
    Transformed s inHand i (s', some i) where
  fine := h.fine hs
  grows := hg
  lt hi j hj := by
    cases hj
    exact Nat.lt_of_lt_of_le hi hg.nextId
  unlisted hi j hj _ := by
    cases hj
    rw [h.listings]
    exact hi

theorem Transformed.removed (h : Fine s' inHand ∧ Grows s s') :
    Transformed s inHand i (s', none) where
  fine := h.1
  grows := h.2
  lt _ _ hj := nomatch hj
  unlisted _ _ hj := nomatch hj

theorem Fine.replaceThing (hs : Fine s inHand) (hj : s.owned j = true)
    (hi : (s.item i).parent = true) : Fine (s.replaceThing i j) inHand := by
  have hparent : Fine (s.setParent j true (s.item i).parentRemoved) inHand :=
    (setParent_quiet hj).fine hs
  refine (unparent_quiet.fine hparent).letGo (hs.counted.parented i hi) ?_
  simp [setParent, setItem]

theorem owned_addThing {a : AddThing} (ha : a ≠ .released) : (s.addThing i a).owned = s.owned := by
  cases a with
  | kept removed => rfl
  | refused => rfl
  | released => exact absurd rfl ha

theorem Fine.addThing {a : AddThing} (hs : Fine s inHand) (hi : s.owned i = true) :
    Fine (s.addThing i a) inHand := by
  cases a with
  | kept removed => exact (setParent_quiet hi).fine hs
  | refused => exact hs
  | released => exact (unparent_quiet.fine hs).letGo hi (by simp [setParent])

theorem addThing_grows {a : AddThing} : Grows s (s.addThing i a) := by
  cases a with
  | kept removed => exact setItem_grows
  | refused => exact .refl
  | released => exact setItem_grows.trans letGo_grows

theorem listings_addThing {a : AddThing} (k : ItemId) :
    (s.addThing i a).listings k = s.listings k := by
  cases a <;> rfl

theorem Transformed.trans (hg : Grows s s') (hl : s'.listings i = s.listings i)
    {r : Game × Option ItemId} (h : Transformed s' inHand i r) : Transformed s inHand i r where
  fine := h.fine
  grows := hg.trans h.grows
  lt hi := h.lt (Nat.lt_of_lt_of_le hi hg.nextId)
  unlisted hi := h.unlisted (hl.trans hi)

theorem changeLayer_transformed {newId : UInt16} {newCount : Int} {a : Answer}
    (hback : a.backThing ≠ .released) (hs : Fine s inHand) (hi : s.owned i = true) :
    Transformed s inHand i (s.changeLayer items i newId newCount a) := by
  unfold changeLayer
  dsimp only
  generalize ht : (if newCount ≠ -1 then
    ((s.setParent i false false).setID items i newId a.duration).setSubType items i
      (castInt 2 false newCount)
    else (s.setParent i false false).setID items i newId a.duration) = t
  have hquiet : Quiet s t ∧ Grows s t := by
    rw [← ht]
    split
    · exact ⟨(unparent_quiet.trans setID_quiet).trans setSubType_quiet,
        (setItem_grows.trans setItem_grows).trans setItem_grows⟩
    · exact ⟨unparent_quiet.trans setID_quiet, setItem_grows.trans setItem_grows⟩
  have howned : t.owned i = true := by
    rw [hquiet.1.owned]
    exact hi
  have hadded : Fine (t.addThing i a.backThing) inHand := (hquiet.1.fine hs).addThing howned
  have hgrows : Grows s (t.addThing i a.backThing) := hquiet.2.trans addThing_grows
  split
  · next hparent =>
      refine .removed ⟨hadded.letGo ?_ (by simpa using hparent), hgrows.trans letGo_grows⟩
      rw [owned_addThing hback]
      exact howned
  · refine ⟨hadded, hgrows, fun hi j hj => ?_, fun hlist j hj _ => ?_⟩
    · cases hj
      exact Nat.lt_of_lt_of_le hi hgrows.nextId
    cases hj
    rw [listings_addThing, hquiet.1.listings]
    exact hlist

theorem Fine.fresh (hs : Fine s inHand) : s.listings s.nextId = 0 :=
  (hs.counted.fresh s.nextId (Nat.le_refl _)).2.1

theorem Fine.replaceCreated {type count : UInt16} {duration : Nat} {new : DecayItem}
    (hs : Fine s inHand) (hi : (s.item i).parent = true)
    (hnew : createItem items type count duration = some new) :
    Fine ((s.create new).replaceThing i s.nextId) inHand := by
  have hlt := hs.parent_lt hi
  refine (hs.create (createItem_parent hnew)).replaceThing (by simp [Game.create]) ?_
  simpa [Game.create, Function.update_of_ne (Nat.ne_of_lt hlt)] using hi

theorem replaceThing_grows : Grows s (s.replaceThing i j) :=
  setItem_grows.trans (setItem_grows.trans letGo_grows)

theorem transformEmpty_transformed
    {again : Game → ItemId → UInt16 → Game × Option ItemId} {newId : UInt16} {a : Answer}
    (hagain : Transformed s inHand i (again s i newId)) (hs : Fine s inHand)
    (hi : (s.item i).parent = true) :
    Transformed s inHand i (s.transformEmpty items again i newId a) := by
  have hremoved : Fine (s.internalRemoveItem items i (s.item i).data.count.toNat) inHand ∧
      Grows s (s.internalRemoveItem items i (s.item i).data.count.toNat) :=
    internalRemoveItem_whole hs
  unfold transformEmpty
  dsimp only
  generalize (if (items (s.item i).id).id = (items newId).id then s.getDecayTo items i
    else (newId.toNat : Int)) = newItemId
  split_ifs
  case pos | pos => exact .removed hremoved
  case neg => exact hagain
  case pos =>
    split
    · exact .removed ⟨hs, .refl⟩
    · next new hnew =>
        refine ⟨hs.replaceCreated hi hnew, create_grows.trans replaceThing_grows,
          fun _ j hj => ?_, fun _ j hj _ => ?_⟩
        · cases hj
          exact Nat.lt_succ_self _
        cases hj
        exact hs.fresh

theorem transformUpdate_quiet {newId : UInt16} {newCount : Int} {a : Answer} :
    Quiet s (s.transformUpdate items i newId newCount a) ∧
      Grows s (s.transformUpdate items i newId newCount a) := by
  unfold transformUpdate
  dsimp only
  generalize ht : (if (items (s.item i).id).id ≠ (items newId).id ∧
    (items newId).group ≠ (items (s.item i).id).group then
      s.setData i (setDefaultSubtype (items (s.item i).id) (s.item i).data) else s) = t
  have hquiet : Quiet s t ∧ Grows s t := by
    rw [← ht]
    split
    · exact ⟨setData_quiet, setItem_grows⟩
    · exact ⟨.refl, .refl⟩
  exact ⟨(hquiet.1.trans setID_quiet).trans setSubType_quiet,
    (hquiet.2.trans setItem_grows).trans setItem_grows⟩

theorem decaying_register : (s.register i).decaying i = true := by
  simp [decaying, register, setDecaying, setData, DecayItem.put, Item.getDecaying,
    Item.getIntAttr, Item.setIntAttr, castInt]

theorem transformReplace_transformed {newId : UInt16} {newCount : Int} {a : Answer}
    (hs : Fine s inHand) (hi : (s.item i).parent = true) :
    Transformed s inHand i (s.transformReplace items i newId newCount a) := by
  unfold transformReplace
  dsimp only
  split
  · exact .removed ⟨hs, .refl⟩
  next new hnew =>
  have hreplaced := hs.replaceCreated hi hnew
  have hgrows := create_grows.trans (replaceThing_grows (s := s.create new) (i := i) (j := s.nextId))
  have hfresh : ((s.create new).replaceThing i s.nextId).listings s.nextId = 0 := hs.fresh
  split_ifs
  · refine ⟨hreplaced.register (Nat.lt_succ_self _) hfresh, hgrows.trans register_grows,
      fun _ j hj => ?_, fun _ j hj hdecaying => ?_⟩
    · cases hj
      exact Nat.lt_succ_self _
    cases hj
    rw [decaying_register] at hdecaying
    cases hdecaying
  · refine ⟨hreplaced, hgrows, fun _ j hj => ?_, fun _ j hj _ => ?_⟩
    · cases hj
      exact Nat.lt_succ_self _
    cases hj
    exact hfresh

theorem transformStep_transformed
    {again : Game → ItemId → UInt16 → Game × Option ItemId} {newId : UInt16} {newCount : Int}
    (hagain : Transformed s.nextAnswer inHand i (again s.nextAnswer i newId))
    (hback : (s.answers 0).backThing ≠ .released) (hs : Fine s inHand) :
    Transformed s inHand i (s.transformStep items again i newId newCount) := by
  have hnext : Fine s.nextAnswer inHand := nextAnswer_quiet.fine hs
  have hsame : Transformed s inHand i (s.nextAnswer, some i) :=
    .of_quiet hs nextAnswer_quiet nextAnswer_grows
  unfold transformStep
  dsimp only
  split_ifs with _ hparent hvirtual
  case pos | pos => exact hsame
  case neg => exact .removed ⟨hnext, nextAnswer_grows⟩
  case pos | pos | pos => exact hsame
  all_goals have hparent : (s.item i).parent = true := by simpa using hparent
  all_goals refine .trans nextAnswer_grows (nextAnswer_quiet.listings i) ?_
  case pos => exact changeLayer_transformed hback hnext (hs.counted.parented i hparent)
  case pos => exact transformEmpty_transformed hagain hnext hparent
  case neg => exact .of_quiet hnext transformUpdate_quiet.1 transformUpdate_quiet.2
  case neg => exact transformReplace_transformed hnext hparent

theorem transformPlain_transformed {newId : UInt16}
    (hback : (s.answers 0).backThing ≠ .released) (hs : Fine s inHand) :
    Transformed s inHand i (s.transformPlain items i newId) :=
  transformStep_transformed (.of_quiet (nextAnswer_quiet.fine hs) .refl .refl) hback hs

theorem transformItem_transformed {newId : UInt16} {newCount : Int}
    (hback : ∀ n, (s.answers n).backThing ≠ .released) (hs : Fine s inHand) :
    Transformed s inHand i (s.transformItem items i newId newCount) :=
  transformStep_transformed
    (transformPlain_transformed (hback 1) (nextAnswer_quiet.fine hs)) (hback 0) hs

/-! ## Starting to decay -/

theorem internalDecayItem_fine {start : Game → Option ItemId → Option Game}
    (hback : ∀ n, (s.answers n).backThing ≠ .released) (hs : Fine s inHand)
    (hlt : i < s.nextId) (hi : s.listings i = 0)
    (hstart : ∀ t r t', Fine t inHand → (∀ n, (t.answers n).backThing ≠ .released) →
      (∀ j, r = some j → j < t.nextId) →
      (∀ j, r = some j → t.decaying j = false → t.listings j = 0) → start t r = some t' →
      Fine t' inHand ∧ Grows t t')
    (h : s.internalDecayItem items start i = some s') : Fine s' inHand ∧ Grows s s' := by
  unfold internalDecayItem at h
  dsimp only at h
  split at h
  · have htransformed : Transformed s inHand i (s.transformItem items i
        (UInt16.ofNat (castInt 2 false (s.getDecayTo items i)).toNat) (-1)) :=
      transformItem_transformed hback hs
    obtain ⟨hfine, hgrows⟩ := hstart _ _ _ htransformed.fine
      (fun n => by
        obtain ⟨m, hm⟩ := htransformed.grows.answers n
        rw [hm]
        exact hback m)
      (htransformed.lt hlt) (htransformed.unlisted hi) h
    exact ⟨hfine, htransformed.grows.trans hgrows⟩
  · cases h
    exact internalRemoveItem_whole hs

theorem startDecay_fine {n : Nat} {r : Option ItemId}
    (hback : ∀ n, (s.answers n).backThing ≠ .released) (hs : Fine s inHand)
    (hlt : ∀ j, r = some j → j < s.nextId)
    (hr : ∀ j, r = some j → s.canDecay items j = true → s.decaying j = false →
      s.listings j = 0)
    (h : s.startDecay items n r = some s') : Fine s' inHand ∧ Grows s s' := by
  induction n generalizing s r s' with
  | zero => cases h
  | succ n ih =>
      cases r with
      | none =>
          cases h
          exact ⟨hs, .refl⟩
      | some i =>
          rw [startDecay] at h
          split_ifs at h with hcan hdecaying hduration
          case pos | pos =>
            cases h
            exact ⟨hs, .refl⟩
          all_goals have hlist := hr i rfl (by simpa using hcan) (by simpa using hdecaying)
          case pos =>
            cases h
            exact ⟨hs.register (hlt i rfl) hlist, register_grows⟩
          case neg =>
            exact internalDecayItem_fine hback hs (hlt i rfl) hlist
              (fun t r t' ht hback hlt hr h => ih hback ht hlt (fun j hj _ => hr j hj) h) h

/-! ## Cloning -/

/-- A function that makes one new item and leaves the others. -/
structure Makes (s : Game) (inHand : List ItemId) (j : ItemId) (s' : Game) : Prop where
  id_eq : j = s.nextId
  fine : Fine s' inHand
  grows : Grows s s'
  lt : j < s'.nextId
  owned : s'.owned j = true
  parent : (s'.item j).parent = false
  item_eq : ∀ k, k < s.nextId → s'.item k = s.item k
  listings_eq : ∀ k, k < s.nextId → s'.listings k = s.listings k

theorem create_makes {t : DecayItem} (hs : Fine s inHand) (ht : t.parent = false) :
    Makes s inHand s.nextId (s.create t) where
  id_eq := rfl
  fine := hs.create ht
  grows := create_grows
  lt := Nat.lt_succ_self _
  owned := by simp [Game.create]
  parent := by simp [Game.create, ht]
  item_eq k hk := by simp [Game.create, Function.update_of_ne (Nat.ne_of_lt hk)]
  listings_eq k _ := rfl

/-- What is made may change still. -/
theorem Makes.setItem {t : DecayItem} (h : Makes s inHand j s') (ht : t.parent = false) :
    Makes s inHand j (s'.setItem j t) where
  id_eq := h.id_eq
  fine := (setItem_quiet fun hp => by rw [ht] at hp; cases hp).fine h.fine
  grows := h.grows.trans setItem_grows
  lt := h.lt
  owned := h.owned
  parent := by simp [ht]
  item_eq k hk := by
    have hne : k ≠ j := h.id_eq ▸ Nat.ne_of_lt hk
    simpa [Function.update_of_ne hne] using h.item_eq k hk
  listings_eq := h.listings_eq

theorem Makes.register (h : Makes s inHand j s') (hj : s'.listings j = 0) :
    Makes s inHand j (s'.register j) where
  id_eq := h.id_eq
  fine := h.fine.register h.lt hj
  grows := h.grows.trans register_grows
  lt := h.lt
  owned := h.owned
  parent := by
    have hp := h.parent
    simpa [Game.register, setDecaying, setData, DecayItem.put] using hp
  item_eq k hk := by
    have hne : k ≠ j := h.id_eq ▸ Nat.ne_of_lt hk
    simpa [Game.register, setDecaying, setData, Function.update_of_ne hne] using h.item_eq k hk
  listings_eq k hk := by
    rw [listings_register, if_neg (h.id_eq ▸ Nat.ne_of_lt hk)]
    exact h.listings_eq k hk

theorem Makes.nextAnswer (h : Makes s.nextAnswer inHand j s') : Makes s inHand j s' where
  id_eq := h.id_eq
  fine := h.fine
  grows := nextAnswer_grows.trans h.grows
  lt := h.lt
  owned := h.owned
  parent := h.parent
  item_eq := h.item_eq
  listings_eq := h.listings_eq

theorem clone_makes (hs : Fine s inHand) (h : s.clone items i = some (j, s')) :
    Makes s inHand j s' := by
  unfold clone at h
  dsimp only at h
  split at h
  · cases h
  next new hnew =>
  have hnext : Fine s.nextAnswer inHand := nextAnswer_quiet.fine hs
  have hnewParent := createItem_parent hnew
  have hcreate := create_makes hnext hnewParent
  split_ifs at h with hattributes hduration
  · cases h
    refine Makes.nextAnswer (Makes.register (Makes.setItem hcreate ?_) hnext.fresh)
    exact hnewParent
  · cases h
    refine Makes.nextAnswer (Makes.setItem hcreate ?_)
    exact hnewParent
  · cases h
    exact hcreate.nextAnswer

theorem splitOff_makes {count : Int} (hs : Fine s inHand)
    (h : s.splitOff items i count = some (j, s')) : Makes s inHand j s' := by
  unfold splitOff at h
  obtain ⟨⟨j', t⟩, hclone, heq⟩ := Option.map_eq_some_iff.mp h
  cases heq
  have hmakes := clone_makes hs hclone
  exact hmakes.setItem hmakes.parent

/-! ## Adding -/

/-- An item with a duration that `internalAddItem` is given is not listed, nor is what it
splits off and gives to itself. -/
def AddsOnce (items : UInt16 → ItemType) : Nat → Game → ItemId → Prop
  | 0, _, _ => True
  | n + 1, s, i =>
      (s.answers 0).queryAdd = true →
        (0 < s.getDuration i → s.listings i = 0) ∧
          ∀ t, (s.typeOf items i).stackable = true → (s.answers 0).toItem = some t →
            let merged := s.nextAnswer.mergeInto items i t (s.answers 0)
            0 < merged.2 → ((s.item i).data.count.toNat : Int) ≠ merged.2 →
              ∀ j s', merged.1.splitOff items i merged.2 = some (j, s') → AddsOnce items n s' j

/-- What a call to add `i` does to the others. -/
structure Adds (s : Game) (inHand : List ItemId) (i : ItemId) (s' : Game) : Prop where
  fine : Fine s' inHand
  grows : Grows s s'
  item_eq : ∀ k, k < s.nextId → k ≠ i → (s.item k).parent = false → s'.item k = s.item k
  listings_eq : ∀ k, k < s.nextId → k ≠ i → s'.listings k = s.listings k

theorem mergeInto_quiet {t : ItemId} {a : Answer} :
    Quiet s (s.mergeInto items i t a).1 ∧ Grows s (s.mergeInto items i t a).1 :=
  ⟨setID_quiet.trans setSubType_quiet, setItem_grows.trans setItem_grows⟩

theorem mergeInto_item {t k : ItemId} {a : Answer} (hk : k ≠ t) :
    (s.mergeInto items i t a).1.item k = s.item k := by
  simp [mergeInto, setSubType, setID, setData, Function.update_of_ne hk]

theorem mergeInto_parent {t k : ItemId} {a : Answer} :
    ((s.mergeInto items i t a).1.item k).parent = (s.item k).parent := by
  by_cases hk : k = t
  · simp [mergeInto, setSubType, setID, setData, DecayItem.put, hk]
  · rw [mergeInto_item hk]

theorem addThing_item {a : AddThing} {k : ItemId} (hk : k ≠ i) :
    (s.addThing i a).item k = s.item k := by
  cases a <;> simp [Game.addThing, setParent, Game.letGo, Game.release, Function.update_of_ne hk]

theorem addThing_data {a : AddThing} :
    ((s.addThing i a).item i).data = (s.item i).data := by
  cases a <;> simp [Game.addThing, setParent, Game.letGo, Game.release]

theorem registerAdded_fine (hs : Fine s inHand) (hi : i < s.nextId)
    (hlist : 0 < s.getDuration i → s.listings i = 0) : Fine (s.registerAdded i) inHand := by
  unfold registerAdded
  split
  · next hduration => exact hs.register hi (hlist hduration)
  · exact hs

theorem registerAdded_grows : Grows s (s.registerAdded i) := by
  unfold registerAdded
  split
  · exact register_grows
  · exact .refl

theorem registerAdded_item {k : ItemId} (hk : k ≠ i) : (s.registerAdded i).item k = s.item k := by
  unfold registerAdded
  split
  · simp [register, setDecaying, setData, Function.update_of_ne hk]
  · rfl

theorem listings_registerAdded {k : ItemId} (hk : k ≠ i) :
    (s.registerAdded i).listings k = s.listings k := by
  unfold registerAdded
  split
  · rw [listings_register, if_neg hk]
    rfl
  · rfl

/-- The last lines, after what has left the item as it was and not listed it. -/
theorem Adds.registerAdded (h : Adds s inHand i s') (hi : i < s.nextId)
    (hdata : (s'.item i).data = (s.item i).data) (hsame : s'.listings i = s.listings i)
    (hlist : 0 < s.getDuration i → s.listings i = 0) :
    Adds s inHand i (s'.registerAdded i) where
  fine := registerAdded_fine h.fine (Nat.lt_of_lt_of_le hi h.grows.nextId) fun hduration => by
    rw [getDuration, hdata] at hduration
    rw [hsame]
    exact hlist hduration
  grows := h.grows.trans registerAdded_grows
  item_eq k hk hne hparent := (registerAdded_item hne).trans (h.item_eq k hk hne hparent)
  listings_eq k hk hne := (listings_registerAdded hne).trans (h.listings_eq k hk hne)

theorem Adds.addThing {a : AddThing} (h : Adds s inHand i s') (hi : s'.owned i = true) :
    Adds s inHand i (s'.addThing i a) where
  fine := h.fine.addThing hi
  grows := h.grows.trans addThing_grows
  item_eq k hk hne hparent := (addThing_item hne).trans (h.item_eq k hk hne hparent)
  listings_eq k hk hne := (listings_addThing k).trans (h.listings_eq k hk hne)

theorem Adds.letGo (h : Adds s inHand i s') (hi : s'.owned i = true)
    (hparent : (s'.item i).parent = false) : Adds s inHand i (s'.letGo i) where
  fine := h.fine.letGo hi hparent
  grows := h.grows.trans letGo_grows
  item_eq := h.item_eq
  listings_eq := h.listings_eq

theorem nextAnswer_adds (hs : Fine s inHand) : Adds s inHand i s.nextAnswer where
  fine := nextAnswer_quiet.fine hs
  grows := nextAnswer_grows
  item_eq _ _ _ _ := rfl
  listings_eq _ _ _ := rfl

theorem mergeInto_adds {t : ItemId} {a : Answer} (hs : Fine s inHand)
    (ht : (s.item t).parent = true) :
    Adds s inHand i (s.nextAnswer.mergeInto items i t a).1 where
  fine := mergeInto_quiet.1.fine (nextAnswer_quiet.fine hs)
  grows := nextAnswer_grows.trans mergeInto_quiet.2
  item_eq k _ _ hparent := mergeInto_item fun heq => by
    rw [heq, ht] at hparent
    cases hparent
  listings_eq k _ _ := mergeInto_quiet.1.listings k

/-- What is split off and added is another item. -/
theorem Adds.splitOff {merged m m' : Game} (h : Adds s inHand i merged)
    (hmakes : Makes merged inHand j m) (hadds : Adds m inHand j m') (k : ItemId)
    (hk : k < s.nextId) :
    m'.listings k = merged.listings k ∧
      ((merged.item k).parent = false → m'.item k = merged.item k) := by
  have hmerged : k < merged.nextId := Nat.lt_of_lt_of_le hk h.grows.nextId
  have hm : k < m.nextId := Nat.lt_of_lt_of_le hmerged hmakes.grows.nextId
  have hne : k ≠ j := hmakes.id_eq ▸ Nat.ne_of_lt hmerged
  have hitem := hmakes.item_eq k hmerged
  refine ⟨(hadds.listings_eq k hm hne).trans (hmakes.listings_eq k hmerged), fun hparent => ?_⟩
  exact (hadds.item_eq k hm hne (by rwa [hitem])).trans hitem

theorem Adds.trans {merged m m' : Game} (h : Adds s inHand i merged)
    (hmakes : Makes merged inHand j m) (hadds : Adds m inHand j m') : Adds s inHand i m' where
  fine := hadds.fine
  grows := (h.grows.trans hmakes.grows).trans hadds.grows
  item_eq k hk hne hparent := by
    have hitem := h.item_eq k hk hne hparent
    rw [(h.splitOff hmakes hadds k hk).2 (by rwa [hitem]), hitem]
  listings_eq k hk hne := (h.splitOff hmakes hadds k hk).1.trans (h.listings_eq k hk hne)

theorem internalAddItem_adds {n : Nat} {ok : Bool} (hs : Fine s inHand)
    (howned : s.owned i = true) (hparent : (s.item i).parent = false)
    (hto : ∀ n t, (s.answers n).toItem = some t → (s.item t).parent = true)
    (hadds : AddsOnce items n s i) (h : internalAddItem items n s i = some (s', ok)) :
    Adds s inHand i s' ∧ (ok = false → s' = s.nextAnswer) := by
  induction n generalizing s s' i ok with
  | zero => cases h
  | succ n ih =>
  have hi := hs.owned_lt howned
  have hnext : Adds s inHand i s.nextAnswer := nextAnswer_adds hs
  rw [internalAddItem] at h
  dsimp only at h
  split at h
  · cases h
    exact ⟨hnext, fun _ => rfl⟩
  next hquery =>
  obtain ⟨hlist, hsplit⟩ := hadds (by simpa using hquery)
  split at h
  · cases h
    refine ⟨(hnext.addThing howned).registerAdded hi ?_ (listings_addThing i) hlist, nofun⟩
    rw [addThing_data]
    rfl
  next t ht =>
  obtain ⟨hstackable, htoItem⟩ :
      (s.typeOf items i).stackable = true ∧ (s.answers 0).toItem = some t := by
    split at ht
    · next hstackable => exact ⟨hstackable, ht⟩
    · cases ht
  have htparent := hto 0 t htoItem
  have hne : i ≠ t := by
    rintro rfl
    rw [hparent] at htparent
    cases htparent
  have hmerge : Adds s inHand i (s.nextAnswer.mergeInto items i t (s.answers 0)).1 :=
    mergeInto_adds hs htparent
  have hmergeItem : (s.nextAnswer.mergeInto items i t (s.answers 0)).1.item i = s.item i :=
    mergeInto_item hne
  have hmergeList : (s.nextAnswer.mergeInto items i t (s.answers 0)).1.listings i = s.listings i :=
    mergeInto_quiet.1.listings i
  have hmergeOwned : (s.nextAnswer.mergeInto items i t (s.answers 0)).1.owned i = true := by
    rw [mergeInto_quiet.1.owned]
    exact howned
  have hmergeParent (k : ItemId) :
      ((s.nextAnswer.mergeInto items i t (s.answers 0)).1.item k).parent = (s.item k).parent :=
    mergeInto_parent
  have hmergeNext : (s.nextAnswer.mergeInto items i t (s.answers 0)).1.nextId = s.nextId :=
    mergeInto_quiet.1.nextId
  have hmergeAnswers (k : Nat) :
      (s.nextAnswer.mergeInto items i t (s.answers 0)).1.answers k = s.answers (k + 1) := rfl
  have hsplit := hsplit t hstackable htoItem
  dsimp only at hsplit
  generalize s.nextAnswer.mergeInto items i t (s.answers 0) = merged at *
  split_ifs at h with hcount hwhole
  · split at h
    · cases h
      exact ⟨hmerge.registerAdded hi (by rw [hmergeItem]) hmergeList hlist, nofun⟩
    next j m hsplitOff =>
    have hmakes := splitOff_makes hmerge.fine hsplitOff
    have htoInner (n : Nat) (t : ItemId) (ht : (m.answers n).toItem = some t) :
        (m.item t).parent = true := by
      obtain ⟨l, hl⟩ := hmakes.grows.answers n
      rw [hl, hmergeAnswers] at ht
      have htparent := hto (l + 1) t ht
      rw [hmakes.item_eq t (hmergeNext ▸ hs.parent_lt htparent), hmergeParent]
      exact htparent
    have hinner (m' : Game) (ok : Bool) (h : internalAddItem items n m j = some (m', ok)) :=
      ih hmakes.fine hmakes.owned hmakes.parent htoInner
        (hsplit hcount hwhole j m hsplitOff) h
    have hlast (m' : Game) (hadds : Adds m inHand j m') :
        Adds s inHand i (m'.registerAdded i) := by
      obtain ⟨hlistings, hitem⟩ := hmerge.splitOff hmakes hadds i hi
      have hitem := (hitem (by rw [hmergeParent]; exact hparent)).trans hmergeItem
      exact (hmerge.trans hmakes hadds).registerAdded hi (congrArg DecayItem.data hitem)
        (hlistings.trans hmergeList) hlist
    split at h
    · cases h
    · next m' hm' =>
        cases h
        exact ⟨hlast m' (hinner m' true hm').1, nofun⟩
    · next m' hm' =>
        cases h
        -- an inner call that fails leaves the clone as it was made
        obtain ⟨hadds, hfailed⟩ := hinner m' false hm'
        cases hfailed rfl
        exact ⟨hlast _ (hadds.letGo hmakes.owned hmakes.parent), nofun⟩
  · cases h
    refine ⟨(hmerge.addThing hmergeOwned).registerAdded hi ?_ ?_ hlist, nofun⟩
    · rw [addThing_data, hmergeItem]
    · rw [listings_addThing, hmergeList]
  · cases h
    refine ⟨(hmerge.letGo hmergeOwned ?_).registerAdded hi ?_ hmergeList hlist, nofun⟩
    · rw [hmergeParent]
      exact hparent
    · exact congrArg DecayItem.data hmergeItem

/-! ## Cleaning up -/

theorem foldl_decrementReferenceCounter (l : List ItemId) :
    l.foldl decrementReferenceCounter s =
      { s with referenceCounter := fun k => s.referenceCounter k - l.count k } := by
  induction l generalizing s with
  | nil => simp
  | cons i l ih =>
      rw [List.foldl_cons, ih]
      simp only [decrementReferenceCounter, Game.mk.injEq, true_and, and_true]
      funext k
      rw [List.count_cons, Function.update_apply]
      by_cases hk : k = i
      · rw [if_pos hk, hk]
        simp only [beq_self_eq_true, if_true]
        push_cast
        ring
      · rw [if_neg hk, if_neg (by simpa using fun h => hk h.symm)]
        simp

theorem decrementReleased_eq : s.decrementReleased =
    { s with
      referenceCounter := fun k => s.referenceCounter k - s.toReleaseItems.count k
      toReleaseItems := [] } := by
  rw [decrementReleased, foldl_decrementReferenceCounter]

theorem decrementReleased_fine (hs : Fine s inHand) : Fine s.decrementReleased inHand := by
  rw [decrementReleased_eq]
  refine ⟨⟨fun k => ?_, hs.counted.parented, fun k hk => ?_⟩, hs.once⟩
  · have hledger := hs.counted.ledger k
    change s.referenceCounter k - s.toReleaseItems.count k =
      (if s.owned k then 1 else 0) + s.listings k + (0 : Nat) + inHand.count k
    omega
  · obtain ⟨howned, hlist, -, hhand⟩ := hs.counted.fresh k hk
    exact ⟨howned, hlist, rfl, hhand⟩

theorem listings_pushBack (bucket : Fin decayBuckets) (k : ItemId) :
    (s.pushBack bucket i).listings k = s.listings k + if k = i then 1 else 0 := by
  have h := listings_setBucket (s := s) bucket (s.decayItems bucket ++ [i]) k
  simp only [List.count_append, List.count_cons, List.count_nil, beq_iff_eq,
    eq_comm (a := i)] at h
  rw [pushBack]
  omega

theorem foldl_enqueue (l : List ItemId) :
    ∃ d, l.foldl enqueue s = { s with decayItems := d } ∧
      ∀ k, (l.foldl enqueue s).listings k = s.listings k + l.count k := by
  induction l generalizing s with
  | nil => exact ⟨s.decayItems, rfl, fun _ => rfl⟩
  | cons i l ih =>
      have hpush : ∃ bucket, s.enqueue i = s.pushBack bucket i := by
        unfold enqueue
        dsimp only
        split
        · exact ⟨_, rfl⟩
        · exact ⟨_, rfl⟩
      obtain ⟨bucket, hbucket⟩ := hpush
      rw [List.foldl_cons, hbucket]
      obtain ⟨d, heq, hlistings⟩ := ih (s := s.pushBack bucket i)
      refine ⟨d, heq, fun k => ?_⟩
      rw [hlistings, listings_pushBack, List.count_cons]
      simp only [beq_iff_eq, eq_comm (a := i)]
      omega

theorem listings_enqueuePending (k : ItemId) : s.enqueuePending.listings k = s.listings k := by
  obtain ⟨d, heq, hlistings⟩ := foldl_enqueue (s := s) s.toDecayItems
  have hk := hlistings k
  rw [enqueuePending, heq] at *
  simp only [Game.listings, List.count_nil] at *
  omega

theorem enqueuePending_fine (hs : Fine s inHand) : Fine s.enqueuePending inHand := by
  obtain ⟨d, heq, -⟩ := foldl_enqueue (s := s) s.toDecayItems
  have hsame : s.enqueuePending = { s with decayItems := d, toDecayItems := [] } := by
    rw [enqueuePending, heq]
  have hlistings := listings_enqueuePending (s := s)
  rw [hsame] at hlistings ⊢
  refine ⟨⟨fun k => ?_, hs.counted.parented, fun k hk => ?_⟩, fun k => ?_⟩
  · rw [hlistings]
    exact hs.counted.ledger k
  · rw [hlistings]
    exact hs.counted.fresh k hk
  · rw [hlistings]
    exact hs.once k

theorem cleanup_fine (hs : Fine s inHand) : Fine s.cleanup inHand :=
  enqueuePending_fine (decrementReleased_fine hs)

/-! ## The loop of `checkDecay` -/

theorem Fine.listed_lt {bucket : Fin decayBuckets} {passed rest : List ItemId} (hs : Fine s inHand)
    (hbucket : s.decayItems bucket = passed ++ i :: rest) : i < s.nextId := by
  by_contra hle
  have hfresh := (hs.counted.fresh i (Nat.not_lt.mp hle)).2.1
  have hl := listings_setBucket (s := s) bucket [] i
  rw [hbucket, hfresh] at hl
  simp at hl

theorem Fine.erase {bucket : Fin decayBuckets} {passed rest : List ItemId} (hs : Fine s inHand)
    (hbucket : s.decayItems bucket = passed ++ i :: rest) :
    Fine (s.setBucket bucket (passed ++ rest)) (i :: inHand) ∧
      (s.setBucket bucket (passed ++ rest)).listings i = 0 := by
  have hl (k : ItemId) : (s.setBucket bucket (passed ++ rest)).listings k +
      (if k = i then 1 else 0) = s.listings k := by
    have h := listings_setBucket (s := s) bucket (passed ++ rest) k
    rw [hbucket] at h
    simp only [List.count_append, List.count_cons, beq_iff_eq, eq_comm (a := i)] at h
    omega
  have hi : i < s.nextId := hs.listed_lt hbucket
  refine ⟨⟨⟨fun k => ?_, hs.counted.parented, fun k hk => ?_⟩, fun k => ?_⟩, ?_⟩
  · have hledger := hs.counted.ledger k
    change s.referenceCounter k = (if s.owned k then 1 else 0) +
      ((s.setBucket bucket (passed ++ rest)).listings k : Int) + s.toReleaseItems.count k +
      (i :: inHand).count k
    have hlk : (((s.setBucket bucket (passed ++ rest)).listings k +
        (if k = i then 1 else 0) : Nat) : Int) = s.listings k := by rw [hl]
    rw [hledger, List.count_cons, ← hlk]
    simp only [beq_iff_eq, eq_comm (a := i)]
    push_cast
    ring
  · have hk' : s.nextId ≤ k := hk
    obtain ⟨howned, hlist, hrel, hhand⟩ := hs.counted.fresh k hk'
    have hne : k ≠ i := Nat.ne_of_gt (Nat.lt_of_lt_of_le hi hk')
    have hlk := hl k
    refine ⟨howned, by omega, hrel, ?_⟩
    rw [List.count_cons, hhand, if_neg (by simpa using fun h => hne h.symm)]
  · have hlk := hl k
    have hk := hs.once k
    omega
  · have hli := hl i
    have honce := hs.once i
    rw [if_pos rfl] at hli
    omega

theorem Fine.pushBack {bucket : Fin decayBuckets} (hs : Fine s (i :: inHand)) (hi : s.listings i = 0) :
    Fine (s.pushBack bucket i) inHand := by
  refine ⟨⟨fun k => ?_, hs.counted.parented, fun k hk => ?_⟩, fun k => ?_⟩
  · have hledger := hs.counted.ledger k
    change s.referenceCounter k = (if s.owned k then 1 else 0) +
      ((s.pushBack bucket i).listings k : Int) + s.toReleaseItems.count k + inHand.count k
    rw [hledger, listings_pushBack, List.count_cons]
    simp only [beq_iff_eq, eq_comm (a := i)]
    push_cast
    omega
  · obtain ⟨howned, hlist, hrel, hhand⟩ := hs.counted.fresh k hk
    rw [List.count_cons] at hhand
    simp only [beq_iff_eq, eq_comm (a := i)] at hhand
    refine ⟨howned, ?_, hrel, by omega⟩
    rw [listings_pushBack]
    omega
  · have honce := hs.once k
    rw [listings_pushBack]
    split
    · next heq => rw [heq, hi]
    · omega

theorem setBucket_decayItems (bucket : Fin decayBuckets) (l : List ItemId) :
    (s.setBucket bucket l).decayItems bucket = l := Function.update_self _ _ _

theorem pushBack_decayItems {bucket newBucket : Fin decayBuckets} (hne : newBucket ≠ bucket) :
    (s.pushBack newBucket i).decayItems bucket = s.decayItems bucket :=
  Function.update_of_ne hne.symm _ _

/-- An item that is due leaves its bucket, decays and is released. -/
theorem decay_erased {n : Nat} {bucket : Fin decayBuckets} {passed rest : List ItemId}
    (hs : Fine s inHand) (hback : ∀ n, (s.answers n).backThing ≠ .released)
    (hbucket : s.decayItems bucket = passed ++ i :: rest)
    (h : (s.setBucket bucket (passed ++ rest)).internalDecayItem items (startDecay items n) i =
      some s') :
    Fine (s'.release i) inHand ∧ (s'.release i).decayItems bucket = passed ++ rest ∧
      ∀ n, ((s'.release i).answers n).backThing ≠ .released := by
  obtain ⟨herased, hlist⟩ := hs.erase hbucket
  have hlt : i < s.nextId := hs.listed_lt hbucket
  obtain ⟨hfine, hgrows⟩ := internalDecayItem_fine (s := s.setBucket bucket (passed ++ rest))
    hback herased hlt hlist
    (fun t r t' ht hback hlt hr h => startDecay_fine hback ht hlt (fun j hj _ => hr j hj) h) h
  refine ⟨hfine.release, ?_, fun n => ?_⟩
  · change s'.decayItems bucket = passed ++ rest
    rw [hgrows.decayItems, setBucket_decayItems]
  · obtain ⟨m, hm⟩ := hgrows.answers n
    change (s'.answers n).backThing ≠ .released
    rw [hm]
    exact hback m

theorem checkBucket_fine {n : Nat} {bucket : Fin decayBuckets} {rest passed : List ItemId}
    (hs : Fine s inHand) (hback : ∀ n, (s.answers n).backThing ≠ .released)
    (hbucket : s.decayItems bucket = passed ++ rest)
    (h : checkBucket items n bucket rest passed s = some s') : Fine s' inHand := by
  induction rest generalizing passed s with
  | nil =>
      cases h
      exact hs
  | cons i rest ih =>
      rw [checkBucket] at h
      dsimp only at h
      split_ifs at h with hcan hdue hsoon hsame
      · have hquiet : Fine (s.setDecaying i 0) inHand := setDecaying_quiet.fine hs
        exact ih (hquiet.erase hbucket).1.release hback (setBucket_decayItems _ _) h
      all_goals
        have hdata : Fine (s.setData i ((s.item i).data.setIntAttr .duration
            ((s.item i).data.getIntAttr .duration -
              min decayRound (castInt 4 true (s.getDuration i))))) inHand := setData_quiet.fine hs
      · split at h
        · cases h
        next t ht =>
        obtain ⟨hfine, hrest, hback⟩ := decay_erased hdata hback hbucket ht
        exact ih hfine hback hrest h
      · split at h
        · cases h
        next t ht =>
        obtain ⟨hfine, hrest, hback⟩ := decay_erased hdata hback hbucket ht
        exact ih hfine hback hrest h
      · obtain ⟨herased, hlist⟩ := hdata.erase hbucket
        refine ih (herased.pushBack hlist) hback ?_ h
        rw [pushBack_decayItems hsame]
        exact setBucket_decayItems _ _
      · refine ih hdata hback ?_ h
        rw [List.append_assoc]
        exact hbucket

theorem checkDecay_fine {n : Nat} (hback : ∀ n, (s.answers n).backThing ≠ .released)
    (hs : Fine s inHand) (h : s.checkDecay items n = some s') : Fine s' inHand := by
  unfold checkDecay at h
  dsimp only at h
  split at h
  · cases h
  next t ht =>
  cases h
  have hfine : Fine t inHand := checkBucket_fine hs hback rfl ht
  exact cleanup_fine ⟨⟨hfine.counted.ledger, hfine.counted.parented, hfine.counted.fresh⟩,
    hfine.once⟩

/-! ## Runs -/

/-- The condition on a step: `startDecay` and `internalAddItem` are not given an item that is
listed, but for one that says so to `startDecay`, a part is not taken of a stack in a removed
container, and no tile releases an item that `transformItem` puts back. -/
def Op.Keeps (items : UInt16 → ItemType) (s : Game) : Op → Prop
  | .startDecay _ i => (∀ n, (s.answers n).backThing ≠ .released) ∧
      (s.canDecay items i = true → s.decaying i = false → s.listings i = 0)
  | .internalAddItem n i => AddsOnce items n s i
  | .transformItem _ _ _ | .checkDecay _ => ∀ n, (s.answers n).backThing ≠ .released
  | .internalRemoveItem i count => s.takesPart items i count (s.answers 0).whole = true →
      (s.item i).parentRemoved = false
  | _ => True

theorem drop_fine (hs : Fine s inHand) (hi : s.owned i = true) : Fine (s.drop i) inHand := by
  have hunparent : Fine (s.setParent i false false) inHand := unparent_quiet.fine hs
  refine ⟨⟨fun k => ?_, fun k hk => ?_, fun k hk => ?_⟩, hs.once⟩
  · have hledger := hs.counted.ledger k
    have hl : (s.drop i).listings k = s.listings k := rfl
    have howned : (s.drop i).owned k = if k = i then false else s.owned k :=
      Function.update_apply _ _ _ _
    have hrel : (s.drop i).toReleaseItems = s.toReleaseItems := rfl
    have hcounter : (s.drop i).referenceCounter k =
        if k = i then s.referenceCounter i - 1 else s.referenceCounter k :=
      Function.update_apply _ _ _ _
    rw [hl, howned, hrel, hcounter]
    by_cases heq : k = i
    · rw [heq] at hledger ⊢
      simp only [hi, if_true] at hledger ⊢
      simp only [Bool.false_eq_true, if_false]
      omega
    · simpa [heq] using hledger
  · have hk' : ((s.setParent i false false).item k).parent = true := hk
    have heq : k ≠ i := by
      rintro rfl
      simp [setParent] at hk'
    have howned : s.owned k = true := hunparent.counted.parented k hk'
    simpa [drop, Function.update_of_ne heq] using howned
  · obtain ⟨howned, hrest⟩ := hs.counted.fresh k hk
    have heq : k ≠ i := by
      rintro rfl
      rw [hi] at howned
      cases howned
    exact ⟨by simpa [drop, Function.update_of_ne heq] using howned, hrest⟩

theorem Op.run_fine {op : Op} (hs : Fine s []) (hcalled : op.Called s) (hkeeps : op.Keeps items s)
    (h : op.run items s = some s') : Fine s' [] := by
  cases op with
  | createItem type count duration =>
      obtain ⟨t, ht, heq⟩ := Option.map_eq_some_iff.mp h
      cases heq
      exact hs.create (createItem_parent ht)
  | answers f =>
      cases h
      exact ⟨⟨hs.counted.ledger, hs.counted.parented, hs.counted.fresh⟩, hs.once⟩
  | change i t =>
      cases h
      exact (setItem_quiet fun ht => .inr (hcalled ht)).fine hs
  | letGo i =>
      cases h
      exact (unparent_quiet.fine hs).letGo hcalled (by simp [setParent])
  | drop i =>
      cases h
      exact drop_fine hs hcalled
  | clone i =>
      obtain ⟨⟨j, t⟩, ht, heq⟩ := Option.map_eq_some_iff.mp h
      cases heq
      exact (clone_makes hs ht).fine
  | startDecay n i =>
      refine (startDecay_fine hkeeps.1 hs (fun j hj => ?_) (fun j hj => ?_) h).1
      · cases hj
        exact hcalled
      · cases hj
        exact hkeeps.2
  | internalAddItem n i =>
      obtain ⟨⟨t, ok⟩, ht, heq⟩ := Option.map_eq_some_iff.mp h
      cases heq
      exact (internalAddItem_adds hs hcalled.1 hcalled.2.1 hcalled.2.2 hkeeps ht).1.fine
  | transformItem i newId newCount =>
      cases h
      exact (transformItem_transformed hkeeps hs).fine
  | internalRemoveItem i count =>
      cases h
      exact (internalRemoveItem_fine hs hkeeps).1
  | checkDecay n => exact checkDecay_fine hkeeps hs h
  | cleanup =>
      cases h
      exact cleanup_fine hs

theorem start_fine (item : ItemId → DecayItem) (hitem : ∀ i, (item i).parent = false) :
    Fine (start item) [] := by
  have hl (k : ItemId) : (start item).listings k = 0 := by simp [Game.listings, start]
  refine ⟨⟨fun k => ?_, fun k hk => ?_, fun k _ => ⟨rfl, hl k, rfl, rfl⟩⟩, fun k => ?_⟩
  · rw [hl]
    rfl
  · have hk : (item k).parent = true := hk
    rw [hitem] at hk
    cases hk
  · rw [hl]
    omega

theorem Reachable.fine (h : Reachable items (Op.Keeps items) s) : Fine s [] := by
  induction h with
  | start item hitem => exact start_fine item hitem
  | step op _ hcalled hkeeps hrun ih => exact Op.run_fine ih hcalled hkeeps hrun

/-- In a run whose steps list no item twice, every item is listed once at most, and there is a
reference for each listing beside one for each release to come. -/
theorem decay_registration (h : Reachable items (Op.Keeps items) s) (i : ItemId) :
    s.listings i ≤ 1 ∧
      (s.listings i + s.toReleaseItems.count i : Nat) ≤ s.referenceCounter i := by
  have hfine := h.fine
  refine ⟨hfine.once i, ?_⟩
  have hledger := hfine.counted.ledger i
  rw [hledger]
  push_cast
  split <;> simp

/-! ## One item, added and cloned -/

/-- Every type decays. -/
def torches (type : UInt16) : ItemType :=
  { id := type, decayTimeMin := 10, decayTimeMax := 10, decayTo := 0, moveable := true }

/-- A tile takes every item. -/
def onTile : Answer where
  duration := 10000
  hasIndex := true
  canTransform := true
  backThing := .kept false
  queryRemove := true
  canRemove := true
  whole := false
  queryAdd := true
  toItem := none
  maxQueryCount := 1
  addThing := .kept false

def noItems : Game := start fun _ => newItem torches 0 0 0

theorem decay_registration_added :
    ∃ s, Reachable torches (Op.Keeps torches) s ∧ s.listings 0 = 1 ∧ s.listings 0 ≤ 1 ∧
      (s.listings 0 + s.toReleaseItems.count 0 : Nat) ≤ s.referenceCounter 0 := by
  have hstart : Reachable torches (Op.Keeps torches) noItems := .start _ fun _ => rfl
  have hhear := hstart.step (.answers fun _ => onTile) trivial trivial rfl
  have hcreate := hhear.step (.createItem 1 1 10000) trivial trivial rfl
  have hadd := hcreate.step (.internalAddItem 1 0) ⟨rfl, rfl, nofun⟩
    (fun _ => ⟨fun _ => rfl, nofun⟩) rfl
  exact ⟨_, hadd, by decide +kernel, decay_registration hadd 0⟩

theorem decay_registration_cloned :
    ¬ ∀ (items : UInt16 → ItemType) (s : Game), Reachable items (fun _ _ => True) s →
      ∀ i, s.listings i ≤ 1 := by
  intro h
  have hstart : Reachable torches (fun _ _ => True) noItems := .start _ fun _ => rfl
  have hhear := hstart.step (.answers fun _ => onTile) trivial trivial rfl
  have hcreate := hhear.step (.createItem 1 1 10000) trivial trivial rfl
  have hclone := hcreate.step (.clone 0) trivial trivial rfl
  have hadd := hclone.step (.internalAddItem 1 1) ⟨rfl, rfl, nofun⟩ trivial rfl
  have htwice := h torches _ hadd 1
  revert htwice
  decide +kernel

end Bruxo.Decay.Game
