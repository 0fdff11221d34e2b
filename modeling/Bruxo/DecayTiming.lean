import Bruxo.DecayOthers
import Bruxo.DecayRuns

/-!
# When an item decays

An item that starts to decay is pending until the next `cleanup`, then looked at in every fourth
tick, and moves to the next bucket where less than a round is left but more than seven eighths of
it. `decayed` has the items that a tick lets decay. The bounds are for the ticks that an item waits
through, with other steps before and between them that leave it alone.
-/

namespace Bruxo.Decay.Game

variable (items : UInt16 → ItemType)

/-! ## The loop of `checkDecay`, item by item -/

/-- What a look at an item leaves of its duration. -/
def left (s : Game) (i : ItemId) : Int :=
  castInt 4 true (s.getDuration i) - min decayRound (castInt 4 true (s.getDuration i))

def look (s : Game) (i : ItemId) : Game :=
  s.setData i ((s.item i).data.setIntAttr .duration
    ((s.item i).data.getIntAttr .duration - min decayRound (castInt 4 true (s.getDuration i))))

def nextBucket (bucket : Fin decayBuckets) (left : Int) : Fin decayBuckets :=
  bucket + Fin.ofNat decayBuckets ((left + decayInterval / 2) / 1000).toNat

/-- A look at the item in the bucket lets it decay. -/
def isDue (s : Game) (bucket : Fin decayBuckets) (i : ItemId) : Prop :=
  s.canDecay items i = true ∧
    (s.left i ≤ 0 ∨ s.left i < decayRound ∧ nextBucket bucket (s.left i) = bucket)

instance (s : Game) (bucket : Fin decayBuckets) (i : ItemId) : Decidable (s.isDue items bucket i) :=
  inferInstanceAs (Decidable (_ ∧ _))

/-- The body of the loop. -/
def checkItem (n : Nat) (bucket : Fin decayBuckets) (i : ItemId) (rest passed : List ItemId)
    (s : Game) : Option (List ItemId × Game) :=
  if s.canDecay items i = false then
    some (passed, ((s.setDecaying i 0).release i).setBucket bucket (passed ++ rest))
  else if s.isDue items bucket i then
    (((s.look i).setBucket bucket (passed ++ rest)).internalDecayItem items (startDecay items n)
      i).map fun s => (passed, s.release i)
  else if s.left i < decayRound then
    some (passed, ((s.look i).setBucket bucket (passed ++ rest)).pushBack
      (nextBucket bucket (s.left i)) i)
  else some (passed ++ [i], s.look i)

theorem checkBucket_cons (n : Nat) (bucket : Fin decayBuckets) (i : ItemId)
    (rest passed : List ItemId) (s : Game) :
    checkBucket items n bucket (i :: rest) passed s =
      match checkItem items n bucket i rest passed s with
      | none => none
      | some (passed, s) => checkBucket items n bucket rest passed s := by
  rw [checkBucket]
  unfold checkItem
  by_cases hcan : s.canDecay items i = true
  · have hdue : s.isDue items bucket i ↔
        (s.left i ≤ 0 ∨ s.left i < decayRound ∧ nextBucket bucket (s.left i) = bucket) :=
      and_iff_right hcan
    have hable : ¬ (!s.canDecay items i) = true := by simp [hcan]
    have hable' : ¬ s.canDecay items i = false := by simp [hcan]
    rw [if_neg hable, if_neg hable']
    dsimp only
    change (if s.left i ≤ 0 then _ else if s.left i < decayRound then
      if nextBucket bucket (s.left i) = bucket then _ else _ else _) = _
    by_cases hzero : s.left i ≤ 0
    · rw [if_pos hzero, if_pos (hdue.mpr (.inl hzero))]
      unfold look
      cases internalDecayItem items _ (startDecay items n) i with
      | none => rfl
      | some s => rfl
    · rw [if_neg hzero]
      by_cases hround : s.left i < decayRound
      · rw [if_pos hround]
        by_cases hsame : nextBucket bucket (s.left i) = bucket
        · rw [if_pos hsame, if_pos (hdue.mpr (.inr ⟨hround, hsame⟩))]
          unfold look
          cases internalDecayItem items _ (startDecay items n) i with
          | none => rfl
          | some s => rfl
        · have hnot : ¬ s.isDue items bucket i := fun h =>
            (hdue.mp h).elim hzero fun h => hsame h.2
          rw [if_neg hsame, if_neg hnot, if_pos hround]
          rfl
      · have hnot : ¬ s.isDue items bucket i := fun h =>
          (hdue.mp h).elim hzero fun h => hround h.1
        rw [if_neg hround, if_neg hnot, if_neg hround]
        rfl
  · have hnone : s.canDecay items i = false := by simpa using hcan
    have hunable : (!s.canDecay items i) = true := by simp [hnone]
    rw [if_pos hunable, if_pos hnone]

/-- The items that the loop lets decay. -/
def decayedBucket (n : Nat) (bucket : Fin decayBuckets) :
    List ItemId → List ItemId → Game → List ItemId
  | [], _, _ => []
  | i :: rest, passed, s =>
      let later :=
        match checkItem items n bucket i rest passed s with
        | none => []
        | some (passed, s) => decayedBucket n bucket rest passed s
      if s.isDue items bucket i then i :: later else later

/-- The items that a tick lets decay. -/
def decayed (s : Game) (n : Nat) : List ItemId :=
  decayedBucket items n (s.lastBucket + 1) (s.decayItems (s.lastBucket + 1)) [] s

variable {items} {s s' : Game} {i k : ItemId} {n : Nat} {bucket : Fin decayBuckets}
  {rest passed : List ItemId}

/-! ## Other items in the loop -/

theorem setBucket_apart {l : List ItemId} (h : l.count i = (s.decayItems bucket).count i) :
    Apart i s (s.setBucket bucket l) where
  item := rfl
  pending := rfl
  listed bucket' := by
    unfold setBucket
    dsimp only
    rw [Function.update_apply]
    split
    · next heq => rw [heq, h]
    · rfl
  lastBucket := rfl
  nextId := Nat.le_refl _

theorem pushBack_apart (hk : k ≠ i) : Apart i s (s.pushBack bucket k) := by
  apply setBucket_apart
  rw [List.count_append, List.count_singleton, if_neg (by simpa using hk), Nat.add_zero]

theorem checkItem_apart {r : List ItemId × Game} (hk : k ≠ i) (hi : i < s.nextId)
    (hcount : (s.decayItems bucket).count i = (passed ++ rest).count i)
    (h : checkItem items n bucket k rest passed s = some r) :
    Apart i s r.2 ∧ r.1.count i = passed.count i := by
  have hlook : Apart i s (s.look k) := setItem_apart hk
  have herased : Apart i s ((s.look k).setBucket bucket (passed ++ rest)) :=
    hlook.trans (setBucket_apart (hcount.symm.trans (hlook.listed bucket).symm))
  unfold checkItem at h
  split_ifs at h
  · cases h
    refine ⟨?_, rfl⟩
    have hdropped : Apart i s ((s.setDecaying k 0).release k) :=
      (setItem_apart hk).trans release_apart
    exact hdropped.trans (setBucket_apart (hcount.symm.trans (hdropped.listed bucket).symm))
  · obtain ⟨t, ht, rfl⟩ := Option.map_eq_some_iff.mp h
    exact ⟨(herased.trans (decay_apart hk (herased.lt hi) ht)).trans release_apart, rfl⟩
  · cases h
    exact ⟨herased.trans (pushBack_apart hk), rfl⟩
  · cases h
    refine ⟨hlook, ?_⟩
    rw [List.count_append, List.count_singleton, if_neg (by simpa using hk), Nat.add_zero]

/-- The loop over other items comes to the rest of the bucket. -/
theorem checkBucket_apart (passed : List ItemId) {others : List ItemId} (hothers : i ∉ others)
    (hi : i < s.nextId)
    (hcount : (s.decayItems bucket).count i = (passed ++ (others ++ rest)).count i)
    (h : checkBucket items n bucket (others ++ rest) passed s = some s') :
    ∃ passed' t, Apart i s t ∧ passed'.count i = passed.count i ∧
      checkBucket items n bucket rest passed' t = some s' ∧
      (i ∈ decayedBucket items n bucket (others ++ rest) passed s ↔
        i ∈ decayedBucket items n bucket rest passed' t) := by
  induction others generalizing passed s with
  | nil => exact ⟨passed, s, .refl, rfl, h, Iff.rfl⟩
  | cons k others ih =>
      obtain ⟨hk, hothers⟩ := not_or.mp (mt List.mem_cons.mpr hothers)
      have hcount' : (s.decayItems bucket).count i = (passed ++ (others ++ rest)).count i := by
        simp only [hcount, List.cons_append, List.count_append,
          List.count_cons_of_ne (Ne.symm hk)]
      rw [List.cons_append, checkBucket_cons] at h
      cases hitem : checkItem items n bucket k (others ++ rest) passed s with
      | none =>
          rw [hitem] at h
          cases h
      | some r =>
          obtain ⟨passed₁, t₁⟩ := r
          rw [hitem] at h
          obtain ⟨hone, hpassed⟩ := checkItem_apart (Ne.symm hk) hi hcount' hitem
          dsimp only at h hone hpassed
          have hcount₁ : (t₁.decayItems bucket).count i =
              (passed₁ ++ (others ++ rest)).count i := by
            simp only [hone.listed, hcount', List.count_append, hpassed]
          obtain ⟨passed', t, happly, hpassed', hrest, hdecayed⟩ := ih _ hothers (hone.lt hi) hcount₁ h
          refine ⟨passed', t, hone.trans happly, hpassed'.trans hpassed, hrest, ?_⟩
          rw [List.cons_append, decayedBucket, hitem, ← hdecayed]
          dsimp only
          split
          · exact List.mem_cons.trans (or_iff_right hk)
          · exact Iff.rfl

/-! ## Where an item waits -/

/-- The item can decay, in `d` milliseconds by its duration. -/
structure Lasts (items : UInt16 → ItemType) (s : Game) (i : ItemId) (d : Int) : Prop where
  canDecay : s.canDecay items i = true
  duration : s.getDuration i = d
  pos : 0 < d
  lt : d < 2 ^ 31
  made : i < s.nextId

structure Pending (items : UInt16 → ItemType) (s : Game) (i : ItemId) (d : Int) : Prop
    extends Lasts items s i d where
  pending : s.toDecayItems.count i = 1
  unlisted : ∀ bucket, (s.decayItems bucket).count i = 0

structure InBucket (items : UInt16 → ItemType) (s : Game) (i : ItemId) (d : Int)
    (bucket : Fin decayBuckets) : Prop extends Lasts items s i d where
  pending : s.toDecayItems.count i = 0
  listed : ∀ bucket', (s.decayItems bucket').count i = if bucket' = bucket then 1 else 0

theorem decayRound_eq : decayRound = 1000 := rfl

section Waits

variable {d : Int}

theorem canDecay_congr (h : s'.item i = s.item i) : s'.canDecay items i = s.canDecay items i := by
  unfold canDecay isRemoved getDecayTo typeOf
  rw [h]

theorem getDuration_congr (h : s'.item i = s.item i) : s'.getDuration i = s.getDuration i := by
  unfold getDuration
  rw [h]

/-- Attributes that are not asked for. -/
theorem canDecay_setIntAttr {a : IntAttr} {v : Int} (hto : a ≠ .decayTo) (hunique : a ≠ .uniqueId) :
    (s.setData i ((s.item i).data.setIntAttr a v)).canDecay items i = s.canDecay items i := by
  have hattr : ∀ b, b ≠ a → ((s.item i).data.setIntAttr a v).intAttrs b =
      (s.item i).data.intAttrs b := fun b hb => Function.update_of_ne hb _ _
  unfold canDecay isRemoved getDecayTo typeOf setData DecayItem.put
  rw [setItem_item, Function.update_self]
  dsimp only
  rw [hattr _ (Ne.symm hto), hattr _ (Ne.symm hunique)]

theorem getDuration_setIntAttr {a : IntAttr} {v : Int} (ha : a ≠ .duration) :
    (s.setData i ((s.item i).data.setIntAttr a v)).getDuration i = s.getDuration i := by
  have hattr : ((s.item i).data.setIntAttr a v).intAttrs .duration =
      (s.item i).data.intAttrs .duration := Function.update_of_ne (Ne.symm ha) _ _
  unfold getDuration setData DecayItem.put Item.getIntAttr
  rw [setItem_item, Function.update_self]
  dsimp only
  rw [hattr]

theorem getDuration_setDuration {v : Int} :
    (s.setData i ((s.item i).data.setIntAttr .duration v)).getDuration i = castInt 4 false v := by
  unfold getDuration setData DecayItem.put Item.getIntAttr Item.setIntAttr
  rw [setItem_item, Function.update_self]
  dsimp only
  rw [Function.update_self, if_neg fun h => absurd h.1 (by decide)]
  rfl

theorem Lasts.apart (hs : Lasts items s i d) (h : Apart i s s') : Lasts items s' i d where
  canDecay := (canDecay_congr h.item).trans hs.canDecay
  duration := (getDuration_congr h.item).trans hs.duration
  pos := hs.pos
  lt := hs.lt
  made := h.lt hs.made

theorem Pending.apart (hs : Pending items s i d) (h : Apart i s s') : Pending items s' i d where
  toLasts := hs.toLasts.apart h
  pending := h.pending.trans hs.pending
  unlisted bucket := (h.listed bucket).trans (hs.unlisted bucket)

theorem InBucket.apart (hs : InBucket items s i d bucket) (h : Apart i s s') :
    InBucket items s' i d bucket where
  toLasts := hs.toLasts.apart h
  pending := h.pending.trans hs.pending
  listed bucket' := (h.listed bucket').trans (hs.listed bucket')

theorem Lasts.signed (hs : Lasts items s i d) : castInt 4 true d = d := by
  have hlt := hs.lt
  have hpos := hs.pos
  exact castInt_signed (by omega) (by omega)

theorem Lasts.left_eq (hs : Lasts items s i d) : s.left i = d - min 1000 d := by
  unfold left
  rw [hs.duration, hs.signed, decayRound_eq]

/-- A look takes a round, or what there is, of the duration. -/
theorem Lasts.look (hs : Lasts items s i d) :
    (s.look i).canDecay items i = true ∧ (s.look i).getDuration i = d - min 1000 d := by
  refine ⟨(canDecay_setIntAttr (by decide) (by decide)).trans hs.canDecay, ?_⟩
  have hd := hs.duration
  have hlt := hs.lt
  have hpos := hs.pos
  unfold Game.look
  rw [getDuration_setDuration, hd, hs.signed, decayRound_eq]
  unfold getDuration at hd
  unfold castInt at hd ⊢
  simp only [Bool.false_eq_true, false_and, if_false] at hd ⊢
  omega

/-! ## A look -/

/-- What is left after a look that is not the last one. -/
theorem Lasts.looked (hs : Lasts items s i d) (hmore : 1000 < d) :
    Lasts items (s.look i) i (d - 1000) where
  canDecay := hs.look.1
  duration := by
    have hd := hs.look.2
    omega
  pos := by omega
  lt := by
    have hlt := hs.lt
    omega
  made := hs.made

theorem Lasts.isDue_iff (hs : Lasts items s i d) : s.isDue items bucket i ↔ d < 1875 := by
  have hpos := hs.pos
  have hinterval : decayInterval = 250 := rfl
  unfold isDue nextBucket
  rw [and_iff_right hs.canDecay, hs.left_eq, decayRound_eq, hinterval]
  constructor
  · rintro (hzero | ⟨hround, hsame⟩)
    · omega
    · by_contra hmore
      have hnext : ((d - min 1000 d + 250 / 2) / 1000).toNat = 1 := by omega
      rw [hnext] at hsame
      revert hsame
      revert bucket
      decide
  · intro hlate
    by_cases hone : d ≤ 1000
    · exact .inl (by omega)
    · have hnext : ((d - min 1000 d + 250 / 2) / 1000).toNat = 0 := by omega
      rw [hnext]
      refine .inr ⟨by omega, ?_⟩
      revert bucket
      decide

theorem succ_ne (bucket : Fin decayBuckets) : bucket + 1 ≠ bucket := by
  revert bucket
  decide

/-- A look at an item in its bucket that is not due. -/
theorem InBucket.checkItem {r : List ItemId × Game} (hs : InBucket items s i d bucket)
    (hlate : 1875 ≤ d) (hpassed : (passed ++ rest).count i = 0)
    (h : checkItem items n bucket i rest passed s = some r) :
    (r.1 ++ rest).count i = (r.2.decayItems bucket).count i ∧ r.2.lastBucket = s.lastBucket ∧
      InBucket items r.2 i (d - 1000) (if d < 2000 then bucket + 1 else bucket) := by
  have hnot : ¬ s.isDue items bucket i := fun h => by
    have hless := hs.isDue_iff.mp h
    omega
  have hable : ¬ s.canDecay items i = false := by
    rw [hs.canDecay]
    decide
  have hlooked : Lasts items (s.look i) i (d - 1000) := hs.looked (by omega)
  have hleft := hs.left_eq
  unfold Game.checkItem at h
  rw [if_neg hable, if_neg hnot, decayRound_eq] at h
  by_cases hround : d < 2000
  · rw [if_pos (by omega)] at h
    cases h
    have hnext : nextBucket bucket (s.left i) = bucket + 1 := by
      have hinterval : decayInterval = 250 := rfl
      have hone : ((s.left i + 250 / 2) / 1000).toNat = 1 := by omega
      unfold nextBucket
      rw [hinterval, hone]
      rfl
    rw [if_pos hround, hnext]
    refine ⟨?_, rfl, ⟨hlooked.canDecay, hlooked.duration, hlooked.pos, hlooked.lt, hlooked.made⟩,
      hs.pending, fun bucket' => ?_⟩
    · rw [pushBack_decayItems (succ_ne bucket), setBucket_decayItems]
    · by_cases hnew : bucket' = bucket + 1
      · have hpushed : (((s.look i).setBucket bucket (passed ++ rest)).pushBack (bucket + 1)
            i).decayItems (bucket + 1) = s.decayItems (bucket + 1) ++ [i] := by
          unfold pushBack
          rw [setBucket_decayItems]
          exact congrArg (· ++ [i]) (Function.update_of_ne (succ_ne bucket) _ _)
        rw [hnew, hpushed, if_pos rfl, List.count_append, hs.listed, if_neg (succ_ne bucket),
          List.count_singleton_self]
      · rw [if_neg hnew, pushBack_decayItems (Ne.symm hnew)]
        by_cases hold : bucket' = bucket
        · rw [hold, setBucket_decayItems, hpassed]
        · have hkept : ((s.look i).setBucket bucket (passed ++ rest)).decayItems bucket' =
              s.decayItems bucket' := Function.update_of_ne hold _ _
          rw [hkept, hs.listed, if_neg hold]
  · rw [if_neg (by omega)] at h
    cases h
    rw [if_neg hround]
    refine ⟨?_, rfl, ⟨hlooked.canDecay, hlooked.duration, hlooked.pos, hlooked.lt, hlooked.made⟩,
      hs.pending, hs.listed⟩
    have hlisted : ((s.look i).decayItems bucket).count i = 1 :=
      (hs.listed bucket).trans (if_pos rfl)
    rw [hlisted]
    simp only [List.count_append, List.count_singleton_self] at hpassed ⊢
    omega

/-! ## The loop -/

/-- The loop over a bucket that the item is not in. -/
theorem checkBucket_other (hnone : (s.decayItems bucket).count i = 0) (hi : i < s.nextId)
    (h : checkBucket items n bucket (s.decayItems bucket) [] s = some s') :
    Apart i s s' ∧ i ∉ decayedBucket items n bucket (s.decayItems bucket) [] s := by
  have hothers : i ∉ s.decayItems bucket := List.count_eq_zero.mp hnone
  rw [← List.append_nil (s.decayItems bucket)] at h ⊢
  obtain ⟨passed', t, happly, -, hend, hdecayed⟩ := checkBucket_apart [] hothers hi
    (by rw [List.append_nil, List.nil_append]) h
  cases hend
  refine ⟨happly, fun hmem => ?_⟩
  cases hdecayed.mp hmem

/-- The loop over the bucket of the item. -/
theorem InBucket.checkBucket (hs : InBucket items s i d bucket)
    (h : checkBucket items n bucket (s.decayItems bucket) [] s = some s') :
    (d < 1875 → i ∈ decayedBucket items n bucket (s.decayItems bucket) [] s) ∧
    (1875 ≤ d → i ∉ decayedBucket items n bucket (s.decayItems bucket) [] s ∧
      s'.lastBucket = s.lastBucket ∧
      InBucket items s' i (d - 1000) (if d < 2000 then bucket + 1 else bucket)) := by
  have hone : (s.decayItems bucket).count i = 1 := (hs.listed bucket).trans (if_pos rfl)
  obtain ⟨before, later, hlist⟩ :=
    List.append_of_mem (List.count_pos_iff.mp (by omega : 0 < (s.decayItems bucket).count i))
  have hcounts := hone
  rw [hlist, List.count_append, List.count_cons_self] at hcounts
  have hbefore : i ∉ before := List.count_eq_zero.mp (by omega)
  have hlater : i ∉ later := List.count_eq_zero.mp (by omega)
  rw [hlist] at h ⊢
  obtain ⟨passed, t, happly, hpassed, hrest, hdecayed⟩ := checkBucket_apart [] hbefore
    hs.made (by rw [hlist, List.nil_append]) h
  rw [hdecayed]
  have ht : InBucket items t i d bucket := hs.apart happly
  constructor
  · intro hdue
    rw [decayedBucket, if_pos (ht.isDue_iff.mpr hdue)]
    exact List.mem_cons_self
  · intro hlate
    have hnot : ¬ t.isDue items bucket i := fun h => by
      have hless := ht.isDue_iff.mp h
      omega
    rw [checkBucket_cons] at hrest
    cases hitem : Game.checkItem items n bucket i later passed t with
    | none =>
        rw [hitem] at hrest
        cases hrest
    | some r =>
        obtain ⟨passed', t'⟩ := r
        rw [hitem] at hrest
        have hnone : (passed ++ later).count i = 0 := by
          rw [List.count_append, hpassed, List.count_nil, Nat.zero_add]
          exact List.count_eq_zero.mpr hlater
        obtain ⟨hcount, hbucket, ht'⟩ := ht.checkItem hlate hnone hitem
        dsimp only at hcount hbucket ht' hrest
        rw [← List.append_nil later] at hrest hcount
        obtain ⟨passed'', t'', happly', -, hend, hdecayed'⟩ := checkBucket_apart passed' hlater ht'.made
          hcount.symm hrest
        cases hend
        refine ⟨?_, happly'.lastBucket.trans (hbucket.trans happly.lastBucket), ht'.apart happly'⟩
        rw [decayedBucket, hitem]
        dsimp only
        rw [if_neg hnot]
        rw [List.append_nil] at hdecayed'
        rw [hdecayed']
        exact List.not_mem_nil

/-! ## Cleaning up -/

theorem decrementReleased_apart : Apart i s s.decrementReleased := by
  rw [decrementReleased_eq]
  exact ⟨rfl, rfl, fun _ => rfl, rfl, Nat.le_refl _⟩

theorem enqueue_apart (hk : k ≠ i) : Apart i s (s.enqueue k) := by
  unfold enqueue
  dsimp only
  split
  · exact pushBack_apart hk
  · exact pushBack_apart hk

theorem foldl_enqueue_apart {others : List ItemId} (hothers : i ∉ others) :
    Apart i s (others.foldl enqueue s) := by
  induction others generalizing s with
  | nil => exact .refl
  | cons k others ih =>
      obtain ⟨hk, hothers⟩ := not_or.mp (mt List.mem_cons.mpr hothers)
      exact (enqueue_apart (Ne.symm hk)).trans (ih hothers)

/-- The bucket that a pending item comes to. -/
def firstBucket (s : Game) (d : Int) : Fin decayBuckets :=
  if 1000 ≤ d then s.lastBucket else s.lastBucket + 1

theorem Pending.enqueue (hs : Pending items s i d) (hsame : s.firstBucket d = bucket) :
    s.enqueue i = s.pushBack bucket i := by
  have hpos := hs.pos
  unfold Game.enqueue
  dsimp only
  rw [hs.duration, decayRound_eq, ← hsame]
  unfold firstBucket
  split
  · rfl
  · have hzero : (d / 1000).toNat = 0 := by omega
    have hstay : s.lastBucket + 1 + Fin.ofNat decayBuckets 0 = s.lastBucket + 1 := add_zero _
    rw [hzero, hstay]

theorem InBucket.cleanup (hs : InBucket items s i d bucket) :
    InBucket items s.cleanup i d bucket ∧ s.cleanup.lastBucket = s.lastBucket := by
  have hreleased : Apart i s s.decrementReleased := decrementReleased_apart
  have hothers : i ∉ s.decrementReleased.toDecayItems := by
    refine List.count_eq_zero.mp ?_
    rw [hreleased.pending, hs.pending]
  have happly := hreleased.trans (foldl_enqueue_apart hothers)
  have hcleaned := hs.apart happly
  unfold Game.cleanup enqueuePending
  exact ⟨⟨⟨hcleaned.canDecay, hcleaned.duration, hcleaned.pos, hcleaned.lt, hcleaned.made⟩, rfl,
    hcleaned.listed⟩, happly.lastBucket⟩

theorem Pending.cleanup (hs : Pending items s i d) :
    InBucket items s.cleanup i d (s.firstBucket d) ∧ s.cleanup.lastBucket = s.lastBucket := by
  have hreleased : Apart i s s.decrementReleased := decrementReleased_apart
  have hone : s.decrementReleased.toDecayItems.count i = 1 := hreleased.pending.trans hs.pending
  obtain ⟨before, later, hlist⟩ := List.append_of_mem
    (List.count_pos_iff.mp (by omega : 0 < s.decrementReleased.toDecayItems.count i))
  rw [hlist, List.count_append, List.count_cons_self] at hone
  have hbefore : i ∉ before := List.count_eq_zero.mp (by omega)
  have hlater : i ∉ later := List.count_eq_zero.mp (by omega)
  have hcome : Apart i s (before.foldl Game.enqueue s.decrementReleased) :=
    hreleased.trans (foldl_enqueue_apart hbefore)
  generalize ht : before.foldl Game.enqueue s.decrementReleased = t at hcome
  have hpending := hs.apart hcome
  have hfirst : t.firstBucket d = s.firstBucket d := by
    unfold firstBucket
    rw [hcome.lastBucket]
  have hrest : Apart i (t.pushBack (s.firstBucket d) i)
      (later.foldl Game.enqueue (t.pushBack (s.firstBucket d) i)) := foldl_enqueue_apart hlater
  have hfold : s.decrementReleased.toDecayItems.foldl Game.enqueue s.decrementReleased =
      later.foldl Game.enqueue (t.pushBack (s.firstBucket d) i) := by
    rw [hlist, List.foldl_append, List.foldl_cons, ht, hpending.enqueue hfirst]
  have hpushed : Lasts items (t.pushBack (s.firstBucket d) i) i d :=
    ⟨hpending.canDecay, hpending.duration, hpending.pos, hpending.lt, hpending.made⟩
  have hlasts := hpushed.apart hrest
  unfold Game.cleanup enqueuePending
  rw [hfold]
  refine ⟨⟨⟨hlasts.canDecay, hlasts.duration, hlasts.pos, hlasts.lt, hlasts.made⟩, rfl,
    fun bucket' => (hrest.listed bucket').trans ?_⟩, hrest.lastBucket.trans hcome.lastBucket⟩
  by_cases hbucket : bucket' = s.firstBucket d
  · rw [if_pos hbucket, hbucket]
    unfold pushBack
    rw [setBucket_decayItems, List.count_append, hpending.unlisted, List.count_singleton_self]
  · rw [if_neg hbucket, pushBack_decayItems (Ne.symm hbucket)]
    exact hpending.unlisted bucket'

/-! ## Ticks -/

/-- How many ticks the look at the item is after the next one. -/
def distance (s : Game) (bucket : Fin decayBuckets) : Nat := (bucket - (s.lastBucket + 1)).val

/-- How many ticks after a look an item decays. -/
def ticksAfter (d : Int) : Int :=
  if d < 1000 then 0 else 4 * (d / 1000 - 1) + if 875 ≤ d % 1000 then 1 else 0

/-- The item decays in the tick of this number from now. -/
def Counts (items : UInt16 → ItemType) (s : Game) (i : ItemId) (ticks : Int) : Prop :=
  ∃ d bucket, InBucket items s i d bucket ∧ ticks = s.distance bucket + 1 + ticksAfter d

theorem ticksAfter_due (h : d < 1875) : ticksAfter d = 0 := by
  unfold ticksAfter
  split_ifs <;> omega

theorem ticksAfter_soon (hlow : 1875 ≤ d) (hhigh : d < 2000) : ticksAfter d = 1 := by
  unfold ticksAfter
  split_ifs <;> omega

theorem ticksAfter_round (h : 2000 ≤ d) : ticksAfter d = ticksAfter (d - 1000) + 4 := by
  unfold ticksAfter
  split_ifs <;> omega

theorem ticksAfter_nonneg : 0 ≤ ticksAfter d := by
  unfold ticksAfter
  split_ifs <;> omega

theorem distance_round (bucket : Fin decayBuckets) : (bucket - (bucket + 1)).val = 3 := by
  revert bucket
  decide

theorem distance_pred {last bucket : Fin decayBuckets} (hne : bucket ≠ last + 1) :
    (bucket - (last + 1)).val = (bucket - (last + 1 + 1)).val + 1 := by
  revert last bucket
  decide

theorem InBucket.atTick (hs : InBucket items s i d bucket) (last : Fin decayBuckets) :
    InBucket items ({ s with lastBucket := last } : Game) i d bucket :=
  ⟨⟨hs.canDecay, hs.duration, hs.pos, hs.lt, hs.made⟩, hs.pending, hs.listed⟩

theorem Pending.atTick (hs : Pending items s i d) (last : Fin decayBuckets) :
    Pending items ({ s with lastBucket := last } : Game) i d :=
  ⟨⟨hs.canDecay, hs.duration, hs.pos, hs.lt, hs.made⟩, hs.pending, hs.unlisted⟩

theorem checkDecay_eq (h : s.checkDecay items n = some s') :
    ∃ t, checkBucket items n (s.lastBucket + 1) (s.decayItems (s.lastBucket + 1)) [] s = some t ∧
      s' = ({ t with lastBucket := s.lastBucket + 1 } : Game).cleanup := by
  unfold checkDecay at h
  dsimp only at h
  split at h
  · cases h
  · next t ht =>
      cases h
      exact ⟨t, ht, rfl⟩

/-- An item that waits in a bucket decays in its tick and in none before. -/
theorem Counts.tick {ticks : Int} (hs : Counts items s i ticks)
    (h : s.checkDecay items n = some s') :
    1 ≤ ticks ∧ (i ∈ s.decayed items n → ticks = 1) ∧
      (i ∉ s.decayed items n → Counts items s' i (ticks - 1)) := by
  obtain ⟨d, bucket, hbucket, rfl⟩ := hs
  obtain ⟨t, ht, rfl⟩ := checkDecay_eq h
  have hafter : 0 ≤ ticksAfter d := ticksAfter_nonneg
  unfold decayed
  by_cases hlook : bucket = s.lastBucket + 1
  · subst hlook
    obtain ⟨hdue, hlate⟩ := hbucket.checkBucket ht
    have hzero : s.distance (s.lastBucket + 1) = 0 := by
      unfold distance
      rw [sub_self]
      rfl
    rw [hzero]
    refine ⟨by omega, fun hmem => ?_, fun hnot => ?_⟩
    · have hless : d < 1875 := by
        by_contra hmore
        exact (hlate (by omega)).1 hmem
      rw [ticksAfter_due hless]
      rfl
    · have hmore : 1875 ≤ d := by
        by_contra hless
        exact hnot (hdue (by omega))
      obtain ⟨-, -, hnext⟩ := hlate hmore
      obtain ⟨hcleaned, hlast⟩ := (hnext.atTick (s.lastBucket + 1)).cleanup
      refine ⟨_, _, hcleaned, ?_⟩
      unfold distance
      rw [hlast]
      dsimp only
      by_cases hsoon : d < 2000
      · rw [if_pos hsoon, sub_self, ticksAfter_soon hmore hsoon, ticksAfter_due (by omega)]
        rfl
      · rw [if_neg hsoon, distance_round, ticksAfter_round (by omega)]
        omega
  · have hnone : (s.decayItems (s.lastBucket + 1)).count i = 0 :=
      (hbucket.listed _).trans (if_neg (Ne.symm hlook))
    obtain ⟨happly, hnot⟩ := checkBucket_other hnone hbucket.made ht
    have hpred : s.distance bucket = (bucket - (s.lastBucket + 1 + 1)).val + 1 :=
      distance_pred hlook
    refine ⟨by omega, fun hmem => absurd hmem hnot, fun _ => ?_⟩
    obtain ⟨hcleaned, hlast⟩ := ((hbucket.apart happly).atTick (s.lastBucket + 1)).cleanup
    refine ⟨d, bucket, hcleaned, ?_⟩
    unfold distance at hpred ⊢
    rw [hlast, hpred]
    dsimp only
    omega

/-- How many ticks after the first `cleanup` a pending item decays. -/
def ticksTo (d : Int) : Int :=
  if d < 1000 then 1 else 4 * (d / 1000) + if 875 ≤ d % 1000 then 1 else 0

theorem ticksTo_eq : ticksTo d = (if 1000 ≤ d then 4 else 1) + ticksAfter d := by
  unfold ticksTo ticksAfter
  split_ifs <;> omega

theorem Pending.counts (hs : Pending items s i d) : Counts items s.cleanup i (ticksTo d) := by
  obtain ⟨hcleaned, hlast⟩ := hs.cleanup
  refine ⟨d, s.firstBucket d, hcleaned, ?_⟩
  unfold distance
  rw [hlast]
  unfold firstBucket
  rw [ticksTo_eq]
  by_cases hround : 1000 ≤ d
  · rw [if_pos hround, if_pos hround, distance_round]
    rfl
  · rw [if_neg hround, if_neg hround, sub_self]
    rfl

theorem Pending.tick (hs : Pending items s i d) (h : s.checkDecay items n = some s') :
    i ∉ s.decayed items n ∧ Counts items s' i (ticksTo d) := by
  obtain ⟨t, ht, rfl⟩ := checkDecay_eq h
  obtain ⟨happly, hnot⟩ := checkBucket_other (hs.unlisted _) hs.made ht
  exact ⟨hnot, ((hs.apart happly).atTick (s.lastBucket + 1)).counts⟩

theorem Counts.apart {ticks : Int} (hs : Counts items s i ticks) (h : Apart i s s') :
    Counts items s' i ticks := by
  obtain ⟨d, bucket, hbucket, rfl⟩ := hs
  refine ⟨d, bucket, hbucket.apart h, ?_⟩
  unfold distance
  rw [h.lastBucket]

theorem Counts.cleanup {ticks : Int} (hs : Counts items s i ticks) :
    Counts items s.cleanup i ticks := by
  obtain ⟨d, bucket, hbucket, rfl⟩ := hs
  obtain ⟨hcleaned, hlast⟩ := hbucket.cleanup
  refine ⟨d, bucket, hcleaned, ?_⟩
  unfold distance
  rw [hlast]

theorem register_pending (hcan : s.canDecay items i = true) (hd : s.getDuration i = d)
    (hpos : 0 < d) (hlt : d < 2 ^ 31) (hlist : s.listings i = 0) (hi : i < s.nextId) :
    Pending items (s.register i) i d := by
  obtain ⟨hpending, hbuckets⟩ := Nat.add_eq_zero_iff.mp hlist
  refine ⟨⟨?_, ?_, hpos, hlt, hi⟩, ?_, fun bucket => ?_⟩
  · exact (canDecay_setIntAttr (by decide) (by decide)).trans hcan
  · exact (getDuration_setIntAttr (by decide)).trans hd
  · exact List.count_cons_self.trans (congrArg (· + 1) hpending)
  · exact Finset.sum_eq_zero_iff.mp hbuckets bucket (Finset.mem_univ _)

end Waits

/-! ## Runs -/

/-- The states that an item comes to in steps that leave it alone and in ticks that do not let it
decay, with the number of these. -/
inductive Waits (items : UInt16 → ItemType) (i : ItemId) (start : Game) : Nat → Game → Prop where
  | start : Waits items i start 0 start
  | tick {k n : Nat} {s s' : Game} (h : Waits items i start k s)
      (hrun : s.checkDecay items n = some s') (hnot : i ∉ s.decayed items n) :
      Waits items i start (k + 1) s'
  | cleanup {k : Nat} {s : Game} (h : Waits items i start k s) : Waits items i start k s.cleanup
  | other {k : Nat} {s s' : Game} (h : Waits items i start k s) (happly : Apart i s s') :
      Waits items i start k s'

section Runs

variable {d : Int} {p : Int} {start : Game}

/-- The item is pending and there was no tick yet, or it counts down to a tick that is the same
throughout the run. -/
theorem Waits.counts {k : Nat} (hstart : Pending items start i d)
    (h : Waits items i start k s) :
    (k = 0 ∧ Pending items s i d) ∨
      ∃ ticks, Counts items s i ticks ∧ (k + ticks = ticksTo d ∨ k + ticks = ticksTo d + 1) := by
  induction h with
  | start => exact .inl ⟨rfl, hstart⟩
  | tick h hrun hnot ih =>
      rcases ih with ⟨rfl, hpending⟩ | ⟨ticks, hcounts, hsum⟩
      · exact .inr ⟨ticksTo d, (hpending.tick hrun).2, .inr (by push_cast; omega)⟩
      · exact .inr ⟨ticks - 1, (hcounts.tick hrun).2.2 hnot, by push_cast; omega⟩
  | cleanup h ih =>
      rcases ih with ⟨rfl, hpending⟩ | ⟨ticks, hcounts, hsum⟩
      · exact .inr ⟨ticksTo d, hpending.counts, .inl (by push_cast; omega)⟩
      · exact .inr ⟨ticks, hcounts.cleanup, hsum⟩
  | other h happly ih =>
      rcases ih with ⟨rfl, hpending⟩ | ⟨ticks, hcounts, hsum⟩
      · exact .inl ⟨rfl, hpending.apart happly⟩
      · exact .inr ⟨ticks, hcounts.apart happly, hsum⟩

theorem ticksTo_spec (hpos : 0 < d) :
    d - 875 < 250 * ticksTo d ∧ 250 * ticksTo d ≤ max d 250 := by
  unfold ticksTo
  split_ifs <;> omega

theorem Counts.pos {ticks : Int} (hs : Counts items s i ticks) : 1 ≤ ticks := by
  obtain ⟨d, bucket, -, rfl⟩ := hs
  have hafter : 0 ≤ ticksAfter d := ticksAfter_nonneg
  omega

/-- An item that starts to decay with `d` milliseconds left, `p` of them before the next tick, and
that has waited through `k` ticks: if the next one, `p + 250 * k` milliseconds after the start, lets
it decay, then this is less than 1125 milliseconds early, and no tick finds it waiting more than the
time between two of them late, where it lasts as long as that. -/
theorem decay_timing {k : Nat} (hi : i < s.nextId) (hlist : s.listings i = 0)
    (hcan : s.canDecay items i = true) (hd : s.getDuration i = d) (hpos : 0 < d)
    (hlt : d < 2 ^ 31) (hp : 0 ≤ p ∧ p ≤ 250) (h : Waits items i (s.register i) k s') :
    (∀ n t, s'.checkDecay items n = some t → i ∈ s'.decayed items n →
      d - 1125 < p + 250 * k) ∧
    p + 250 * k ≤ max d 250 + 250 ∧ (p < 250 → p < d → p + 250 * k < d + 250) := by
  obtain ⟨hlow, hhigh⟩ := ticksTo_spec hpos
  rcases h.counts (register_pending hcan hd hpos hlt hlist hi) with
    ⟨rfl, hpending⟩ | ⟨ticks, hcounts, hsum⟩
  · refine ⟨fun n t hrun hmem => absurd hmem (hpending.tick hrun).1, ?_, fun _ _ => ?_⟩
    · push_cast
      omega
    · push_cast
      omega
  · have hticks := hcounts.pos
    refine ⟨fun n t hrun hmem => ?_, by omega, fun hearly hlasts => by omega⟩
    have hlast := (hcounts.tick hrun).2.1 hmem
    omega

end Runs

/-! ## A torch -/

/-- A torch on a tile that burns for so long. -/
def torch (duration : Nat) : Game :=
  { (noItems.create (newItem torches 1 1 duration)).setParent 0 true false with
    answers := fun _ => onTile }

/-- It is pending in the first tick and decays in the second. -/
def secondTick (s : Game) : Bool :=
  decide (0 ∉ s.decayed torches 2) &&
    (s.checkDecay torches 2).any fun s' =>
      (s'.checkDecay torches 2).isSome && decide (0 ∈ s'.decayed torches 2)

theorem secondTick_spec {s : Game} (h : s.secondTick = true) :
    ∃ s' t, Waits torches 0 s 1 s' ∧ s'.checkDecay torches 2 = some t ∧
      0 ∈ s'.decayed torches 2 := by
  obtain ⟨hnot, hany⟩ := (Bool.and_eq_true _ _).mp h
  obtain ⟨s', hfirst, hboth⟩ := (Option.any_eq_true _ _).mp hany
  obtain ⟨hsome, hmem⟩ := (Bool.and_eq_true _ _).mp hboth
  obtain ⟨t, ht⟩ := Option.isSome_iff_exists.mp hsome
  exact ⟨s', t, Waits.start.tick hfirst (of_decide_eq_true hnot), ht, of_decide_eq_true hmem⟩

theorem decay_timing_torch :
    ∃ s' t, Waits torches 0 ((torch 300).register 0) 1 s' ∧ s'.checkDecay torches 2 = some t ∧
      0 ∈ s'.decayed torches 2 ∧ (300 : Int) - 1125 < 100 + 250 * (1 : Nat) ∧
      (100 : Int) + 250 * (1 : Nat) ≤ max 300 250 + 250 ∧
      (100 : Int) + 250 * (1 : Nat) < 300 + 250 := by
  obtain ⟨s', t, hwaits, hrun, hmem⟩ := secondTick_spec (s := (torch 300).register 0)
    (by decide +kernel)
  obtain ⟨hearly, hlate, hstrict⟩ := decay_timing (s := torch 300) (i := 0) (d := 300) (p := 100)
    (by decide) (by decide +kernel) (by decide +kernel) (by decide +kernel) (by decide) (by decide)
    (by decide) hwaits
  exact ⟨s', t, hwaits, hrun, hmem, hearly 2 t hrun hmem, hlate, hstrict (by decide) (by decide)⟩

/-- A torch that burns for one millisecond more, 200 milliseconds before a tick, burns until the
tick after that. -/
theorem decay_timing_late :
    ¬ ∀ (items : UInt16 → ItemType) (s s' t : Game) (i : ItemId) (d p : Int) (k n : Nat),
      i < s.nextId → s.listings i = 0 → s.canDecay items i = true → s.getDuration i = d → 0 < d →
      0 ≤ p ∧ p ≤ 250 → Waits items i (s.register i) k s' → s'.checkDecay items n = some t →
      i ∈ s'.decayed items n → d - 1125 < p + 250 * k ∧ p + 250 * k < d + 250 := by
  intro h
  obtain ⟨s', t, hwaits, hrun, hmem⟩ := secondTick_spec (s := (torch 1).register 0)
    (by decide +kernel)
  have hbounds := h torches (torch 1) s' t 0 1 200 1 2 (by decide) (by decide +kernel)
    (by decide +kernel) (by decide +kernel) (by decide) (by decide) hwaits hrun hmem
  exact absurd hbounds.2 (by decide)

end Bruxo.Decay.Game
