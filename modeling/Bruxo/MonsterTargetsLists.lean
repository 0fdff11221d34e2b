import Bruxo.MonsterTargets

/-!
# What a call does to the lists of a monster

Every function of `Monster` keeps an entry once and with one reference (`Held`). They only take in
who is in sight (`mem_targetList_found`), and whoever leaves is dropped as long as the monster
still counts it (`not_mem_targetList_leave`). Each ends with the idle state right (`Rested`).
-/

namespace Bruxo.Targets.Monster

open Spectators (CreatureId)

/-- Each entry is there once and holds one reference. -/
structure Held (monster : Monster) : Prop where
  targets : monster.targetList.Nodup
  friends : monster.friendList.Nodup
  references : ∀ c, monster.references c = monster.targetList.count c + monster.friendList.count c

/-- The lists have lost entries only. -/
structure Fewer (monster' monster : Monster) : Prop where
  targets : monster'.targetList ⊆ monster.targetList
  friends : monster'.friendList ⊆ monster.friendList

variable {w : World} {m c d : CreatureId} {self self' self'' : Monster}

theorem Fewer.refl (self : Monster) : Fewer self self := ⟨fun _ h => h, fun _ h => h⟩

theorem Fewer.trans (h : Fewer self'' self') (h' : Fewer self' self) : Fewer self'' self :=
  ⟨fun _ hc => h'.targets (h.targets hc), fun _ hc => h'.friends (h.friends hc)⟩

/-! ## References -/

theorem Held.empty : Held {} := ⟨.nil, .nil, fun _ => rfl⟩

theorem Held.setIdleFlag (h : self.Held) (idle : Bool) : Held { self with isIdle := idle } :=
  ⟨h.targets, h.friends, h.references⟩

theorem foldl_decrement (l : List CreatureId) (self : Monster) :
    l.foldl decrementReferenceCounter self =
      { self with references := fun c => self.references c - l.count c } := by
  induction l generalizing self with
  | nil => simp
  | cons d l ih =>
      rw [List.foldl_cons, ih, decrementReferenceCounter]
      congr 1
      funext c
      dsimp only
      rw [Function.update_apply, List.count_cons]
      rcases eq_or_ne c d with rfl | hne
      · simp
        omega
      · simp [hne, hne.symm]

theorem Held.addFriend (h : self.Held) (c : CreatureId) : (self.addFriend c).Held := by
  rw [Monster.addFriend]
  split
  · exact h
  · next hnot =>
      refine ⟨h.targets, List.nodup_cons.mpr ⟨hnot, h.friends⟩, fun d => ?_⟩
      rw [incrementReferenceCounter]
      dsimp only
      rw [Function.update_apply, List.count_cons]
      rcases eq_or_ne d c with rfl | hne
      · rw [if_pos rfl, h.references]
        simp
        omega
      · rw [if_neg hne, h.references]
        simp [hne.symm]

theorem Held.addTarget (h : self.Held) (c : CreatureId) (pushFront : Bool) :
    (self.addTarget c pushFront).Held := by
  rw [Monster.addTarget]
  split
  · exact h
  · next hnot =>
      -- Both ends of the list take the entry alike.
      have hperm : (if pushFront then c :: self.targetList else self.targetList ++ [c]).Perm
          (c :: self.targetList) := by
        split
        · exact .refl _
        · exact List.perm_append_singleton c self.targetList
      refine ⟨hperm.nodup_iff.mpr (List.nodup_cons.mpr ⟨hnot, h.targets⟩), h.friends, fun d => ?_⟩
      rw [incrementReferenceCounter]
      dsimp only
      rw [Function.update_apply, hperm.count_eq, List.count_cons]
      rcases eq_or_ne d c with rfl | hne
      · rw [if_pos rfl, h.references]
        simp
        omega
      · rw [if_neg hne, h.references]
        simp [hne.symm]

theorem Held.removeFriend (h : self.Held) (c : CreatureId) : (self.removeFriend c).Held := by
  rw [Monster.removeFriend]
  split
  · next hmem =>
      refine ⟨h.targets, h.friends.erase c, fun d => ?_⟩
      rw [decrementReferenceCounter]
      dsimp only
      rw [Function.update_apply, List.count_erase]
      have hpos := List.count_pos_iff.mpr hmem
      rcases eq_or_ne d c with rfl | hne
      · rw [if_pos rfl, h.references]
        simp
        omega
      · rw [if_neg hne, h.references]
        simp [hne.symm]
  · exact h

theorem Held.removeTarget (h : self.Held) (c : CreatureId) : (self.removeTarget c).Held := by
  rw [Monster.removeTarget]
  split
  · next hmem =>
      refine ⟨h.targets.erase c, h.friends, fun d => ?_⟩
      rw [decrementReferenceCounter]
      dsimp only
      rw [Function.update_apply, List.count_erase]
      have hpos := List.count_pos_iff.mpr hmem
      rcases eq_or_ne d c with rfl | hne
      · rw [if_pos rfl, h.references]
        simp
        omega
      · rw [if_neg hne, h.references]
        simp [hne.symm]
  · exact h

theorem Held.clearTargetList (h : self.Held) : self.clearTargetList.Held := by
  rw [Monster.clearTargetList, foldl_decrement]
  refine ⟨.nil, h.friends, fun c => ?_⟩
  have hcount := h.references c
  dsimp only
  rw [List.count_nil]
  omega

theorem Held.clearFriendList (h : self.Held) : self.clearFriendList.Held := by
  rw [Monster.clearFriendList, foldl_decrement]
  refine ⟨h.targets, .nil, fun c => ?_⟩
  have hcount := h.references c
  dsimp only
  rw [List.count_nil]
  omega

/-- What is dropped and what is kept of a list make up the list. -/
theorem count_filter_add (p : CreatureId → Bool) (l : List CreatureId) (c : CreatureId) :
    l.count c = (l.filter p).count c + (l.filter fun d => !p d).count c := by
  induction l with
  | nil => rfl
  | cons d l ih =>
      cases hp : p d <;> simp [hp, List.count_cons, ih] <;> omega

theorem Held.dropFriends (h : self.Held) (w : World) (m : CreatureId) :
    (self.dropFriends w m).Held := by
  rw [Monster.dropFriends, foldl_decrement]
  refine ⟨h.targets, h.friends.filter _, fun c => ?_⟩
  have hcount := h.references c
  have hsplit := count_filter_add (dropped w m) self.friendList c
  dsimp only
  omega

theorem Held.dropTargets (h : self.Held) (w : World) (m : CreatureId) :
    (self.dropTargets w m).Held := by
  rw [Monster.dropTargets, foldl_decrement]
  refine ⟨h.targets.filter _, h.friends, fun c => ?_⟩
  have hcount := h.references c
  have hsplit := count_filter_add (dropped w m) self.targetList c
  dsimp only
  omega

theorem Held.setIdle (h : self.Held) (w : World) (m : CreatureId) (idle : Bool) :
    (self.setIdle w m idle).Held := by
  rw [Monster.setIdle]
  split
  · exact h
  split
  · exact h.setIdleFlag idle
  · exact (h.setIdleFlag idle).clearTargetList.clearFriendList

theorem Held.updateIdleStatus (h : self.Held) (w : World) (m : CreatureId) :
    (self.updateIdleStatus w m).Held := h.setIdle w m _

theorem Held.onCreatureFound (h : self.Held) (w : World) (m c : CreatureId) (pushFront : Bool) :
    (self.onCreatureFound w m c pushFront).Held := by
  rw [Monster.onCreatureFound]
  split
  · exact h
  · refine Held.updateIdleStatus ?_ w m
    have hfriend : (if w.isFriend m c then self.addFriend c else self).Held := by
      split
      · exact h.addFriend c
      · exact h
    split
    · exact hfriend.addTarget c pushFront
    · exact hfriend

theorem Held.onCreatureLeave (h : self.Held) (w : World) (m c : CreatureId) :
    (self.onCreatureLeave w m c).Held := by
  rw [Monster.onCreatureLeave]
  have hfriend : (if w.isFriend m c then self.removeFriend c else self).Held := by
    split
    · exact h.removeFriend c
    · exact h
  split
  · exact (hfriend.removeTarget c).updateIdleStatus w m
  · exact hfriend

theorem Held.updateTargetList (h : self.Held) (w : World) (m : CreatureId)
    (spectators : List CreatureId) : (self.updateTargetList w m spectators).Held := by
  rw [Monster.updateTargetList]
  have hdrop := (h.dropFriends w m).dropTargets w m
  generalize (self.dropFriends w m).dropTargets w m = rest at hdrop
  induction spectators.erase m generalizing rest with
  | nil => exact hdrop
  | cons c l ih => exact ih _ (hdrop.onCreatureFound w m c false)

theorem Held.onOtherMove (h : self.Held) (w : World) (m c : CreatureId) (newPos oldPos : Position) :
    (self.onOtherMove w m c newPos oldPos).Held := by
  rw [Monster.onOtherMove]
  refine Held.updateIdleStatus ?_ w m
  split
  · exact h.onCreatureFound w m c true
  split
  · exact h.onCreatureLeave w m c
  · exact h

theorem Held.onFollowCreatureComplete (h : self.Held) (w : World) (m c : CreatureId)
    (hasFollowPath : Bool) : (self.onFollowCreatureComplete w m c hasFollowPath).Held := by
  rw [Monster.onFollowCreatureComplete]
  split
  · exact h
  · next hmem =>
      have hmem : c ∈ self.targetList := not_not.mp hmem
      have hperm : (c :: self.targetList.erase c).Perm self.targetList :=
        (List.perm_cons_erase hmem).symm
      split
      · exact ⟨hperm.nodup_iff.mpr h.targets, h.friends,
          fun d => (h.references d).trans (by rw [hperm.count_eq])⟩
      split
      · have hback : (self.targetList.erase c ++ [c]).Perm self.targetList :=
          (List.perm_append_singleton c _).trans hperm
        exact ⟨hback.nodup_iff.mpr h.targets, h.friends,
          fun d => (h.references d).trans (by rw [hback.count_eq])⟩
      · have hremove := h.removeTarget c
        rwa [Monster.removeTarget, if_pos hmem] at hremove

/-! ## Who is in the lists -/

theorem setIdle_fewer (w : World) (m : CreatureId) (self : Monster) (idle : Bool) :
    Fewer (self.setIdle w m idle) self := by
  rw [setIdle]
  split
  · exact .refl self
  split
  · exact ⟨fun _ h => h, fun _ h => h⟩
  · rw [clearFriendList, clearTargetList, foldl_decrement, foldl_decrement]
    exact ⟨List.nil_subset _, List.nil_subset _⟩

theorem updateIdleStatus_fewer (w : World) (m : CreatureId) (self : Monster) :
    Fewer (self.updateIdleStatus w m) self := setIdle_fewer w m self _

theorem removeFriend_fewer (self : Monster) (c : CreatureId) : Fewer (self.removeFriend c) self := by
  rw [removeFriend]
  split
  · exact ⟨fun _ h => h, List.erase_subset⟩
  · exact .refl self

theorem removeTarget_fewer (self : Monster) (c : CreatureId) : Fewer (self.removeTarget c) self := by
  rw [removeTarget]
  split
  · exact ⟨List.erase_subset, fun _ h => h⟩
  · exact .refl self

theorem onCreatureLeave_fewer (w : World) (m : CreatureId) (self : Monster) (c : CreatureId) :
    Fewer (self.onCreatureLeave w m c) self := by
  rw [onCreatureLeave]
  have hfriend : Fewer (if w.isFriend m c then self.removeFriend c else self) self := by
    split
    · exact removeFriend_fewer self c
    · exact .refl self
  split
  · exact ((updateIdleStatus_fewer w m _).trans (removeTarget_fewer _ c)).trans hfriend
  · exact hfriend

theorem onFollowCreatureComplete_fewer (w : World) (m : CreatureId) (self : Monster) (c : CreatureId)
    (hasFollowPath : Bool) : Fewer (self.onFollowCreatureComplete w m c hasFollowPath) self := by
  rw [onFollowCreatureComplete]
  split
  · exact .refl self
  · next hmem =>
      have hmem : c ∈ self.targetList := not_not.mp hmem
      split
      · exact ⟨List.cons_subset.mpr ⟨hmem, List.erase_subset⟩, fun _ h => h⟩
      split
      · exact ⟨List.append_subset.mpr
          ⟨List.erase_subset, fun _ hlast => List.mem_singleton.mp hlast ▸ hmem⟩, fun _ h => h⟩
      · exact ⟨List.erase_subset, fun _ h => h⟩

/-- A friend that leaves and still counts as one is dropped. -/
theorem not_mem_friendList_leave (h : self.Held)
    (hcounts : c ∈ self.friendList → w.isFriend m c = true) :
    c ∉ (self.onCreatureLeave w m c).friendList := by
  intro hmem
  have hold := (onCreatureLeave_fewer w m self c).friends hmem
  have hgone : c ∉ (self.removeFriend c).friendList := by
    rw [removeFriend, if_pos hold]
    exact h.friends.not_mem_erase
  rw [onCreatureLeave, if_pos (hcounts hold)] at hmem
  split at hmem
  · exact hgone ((removeTarget_fewer _ c).friends ((updateIdleStatus_fewer w m _).friends hmem))
  · exact hgone hmem

/-- A target that leaves and still counts as an opponent is dropped. -/
theorem not_mem_targetList_leave (h : self.Held)
    (hcounts : c ∈ self.targetList → w.isOpponent m c = true) :
    c ∉ (self.onCreatureLeave w m c).targetList := by
  intro hmem
  have hold := (onCreatureLeave_fewer w m self c).targets hmem
  have hheld : (if w.isFriend m c then self.removeFriend c else self).Held := by
    split
    · exact h.removeFriend c
    · exact h
  rw [onCreatureLeave, if_pos (hcounts hold)] at hmem
  generalize (if w.isFriend m c then self.removeFriend c else self) = rest at hmem hheld
  have hrest := (updateIdleStatus_fewer w m _).targets hmem
  have hlisted := (removeTarget_fewer rest c).targets hrest
  rw [removeTarget, if_pos hlisted] at hrest
  exact hheld.targets.not_mem_erase hrest

theorem addFriend_targetList (self : Monster) (c : CreatureId) :
    (self.addFriend c).targetList = self.targetList := by
  rw [addFriend]
  split <;> rfl

theorem addTarget_friendList (self : Monster) (c : CreatureId) (pushFront : Bool) :
    (self.addTarget c pushFront).friendList = self.friendList := by
  rw [addTarget]
  split <;> rfl

theorem mem_addTarget {pushFront : Bool} (h : d ∈ (self.addTarget c pushFront).targetList) :
    d ∈ self.targetList ∨ d = c := by
  rw [addTarget] at h
  split at h
  · exact .inl h
  · dsimp only at h
    split at h
    · exact (List.mem_cons.mp h).symm
    · exact (List.mem_append.mp h).imp_right List.mem_singleton.mp

theorem mem_addFriend (h : d ∈ (self.addFriend c).friendList) : d ∈ self.friendList ∨ d = c := by
  rw [addFriend] at h
  split at h
  · exact .inl h
  · exact (List.mem_cons.mp h).symm

/-- Only who is in sight and an opponent comes to the targets. -/
theorem mem_targetList_found {pushFront : Bool}
    (h : d ∈ (self.onCreatureFound w m c pushFront).targetList) :
    d ∈ self.targetList ∨ d = c ∧ w.canSee m c = true ∧ w.isOpponent m c = true := by
  rw [onCreatureFound] at h
  split at h
  · exact .inl h
  · next hsees =>
      have hsees : w.canSee m c = true := by simpa using hsees
      have hfriend : (if w.isFriend m c then self.addFriend c else self).targetList =
          self.targetList := by
        split
        · exact addFriend_targetList self c
        · rfl
      generalize (if w.isFriend m c then self.addFriend c else self) = befriended at h hfriend
      have hmem := (updateIdleStatus_fewer w m _).targets h
      split at hmem
      · next hopponent =>
          rcases mem_addTarget hmem with hmem | rfl
          · exact .inl (hfriend ▸ hmem)
          · exact .inr ⟨rfl, hsees, hopponent⟩
      · exact .inl (hfriend ▸ hmem)

theorem mem_friendList_found {pushFront : Bool}
    (h : d ∈ (self.onCreatureFound w m c pushFront).friendList) :
    d ∈ self.friendList ∨ d = c ∧ w.canSee m c = true := by
  rw [onCreatureFound] at h
  split at h
  · exact .inl h
  · next hsees =>
      have hsees : w.canSee m c = true := by simpa using hsees
      have hfriend : d ∈ (if w.isFriend m c then self.addFriend c else self).friendList →
          d ∈ self.friendList ∨ d = c := by
        split
        · exact mem_addFriend
        · exact .inl
      generalize (if w.isFriend m c then self.addFriend c else self) = befriended at h hfriend
      have hmem := (updateIdleStatus_fewer w m _).friends h
      have hmem : d ∈ befriended.friendList := by
        split at hmem
        · rwa [addTarget_friendList] at hmem
        · exact hmem
      exact (hfriend hmem).imp_right fun heq => ⟨heq, hsees⟩

/-- Behind `updateTargetList` the targets are old ones in sight and spectators that count. -/
theorem mem_targetList_update {spectators : List CreatureId}
    (h : d ∈ (self.updateTargetList w m spectators).targetList) :
    d ∈ self.targetList ∧ w.canSee m d = true ∨
      d ∈ spectators ∧ w.canSee m d = true ∧ w.isOpponent m d = true := by
  rw [updateTargetList] at h
  have hsub : ∀ c, c ∈ spectators.erase m → c ∈ spectators := fun _ hc => List.mem_of_mem_erase hc
  have hrest : ∀ d, d ∈ ((self.dropFriends w m).dropTargets w m).targetList →
      d ∈ self.targetList ∧ w.canSee m d = true ∨
        d ∈ spectators ∧ w.canSee m d = true ∧ w.isOpponent m d = true := by
    intro d hd
    rw [dropTargets, dropFriends, foldl_decrement, foldl_decrement] at hd
    obtain ⟨hold, hkept⟩ := List.mem_filter.mp hd
    rw [dropped, Bool.not_or, Bool.not_not, Bool.and_eq_true] at hkept
    exact .inl ⟨hold, hkept.2⟩
  generalize (self.dropFriends w m).dropTargets w m = rest at h hrest
  generalize spectators.erase m = l at h hsub
  induction l generalizing rest with
  | nil => exact hrest d h
  | cons c l ih =>
      refine ih _ (fun e he => ?_) h fun e he => hsub e (List.mem_cons_of_mem c he)
      rcases mem_targetList_found he with hold | ⟨rfl, hsees, hopponent⟩
      · exact hrest e hold
      · exact .inr ⟨hsub e List.mem_cons_self, hsees, hopponent⟩

theorem mem_friendList_update {spectators : List CreatureId}
    (h : d ∈ (self.updateTargetList w m spectators).friendList) :
    d ∈ self.friendList ∧ w.canSee m d = true ∨ d ∈ spectators ∧ w.canSee m d = true := by
  rw [updateTargetList] at h
  have hsub : ∀ c, c ∈ spectators.erase m → c ∈ spectators := fun _ hc => List.mem_of_mem_erase hc
  have hrest : ∀ d, d ∈ ((self.dropFriends w m).dropTargets w m).friendList →
      d ∈ self.friendList ∧ w.canSee m d = true ∨ d ∈ spectators ∧ w.canSee m d = true := by
    intro d hd
    rw [dropTargets, dropFriends, foldl_decrement, foldl_decrement] at hd
    obtain ⟨hold, hkept⟩ := List.mem_filter.mp hd
    rw [dropped, Bool.not_or, Bool.not_not, Bool.and_eq_true] at hkept
    exact .inl ⟨hold, hkept.2⟩
  generalize (self.dropFriends w m).dropTargets w m = rest at h hrest
  generalize spectators.erase m = l at h hsub
  induction l generalizing rest with
  | nil => exact hrest d h
  | cons c l ih =>
      refine ih _ (fun e he => ?_) h fun e he => hsub e (List.mem_cons_of_mem c he)
      rcases mem_friendList_found he with hold | ⟨rfl, hsees⟩
      · exact hrest e hold
      · exact .inr ⟨hsub e List.mem_cons_self, hsees⟩

/-! ## Another creature moves -/

def comesInSight (w : World) (m : CreatureId) (newPos oldPos : Position) : Bool :=
  World.canSeePosition (w.position m) newPos && !World.canSeePosition (w.position m) oldPos

def goesOutOfSight (w : World) (m : CreatureId) (newPos oldPos : Position) : Bool :=
  !World.canSeePosition (w.position m) newPos && World.canSeePosition (w.position m) oldPos

section OtherMove

variable {newPos oldPos : Position}

theorem onOtherMove_eq (w : World) (m : CreatureId) (self : Monster) (c : CreatureId)
    (newPos oldPos : Position) :
    self.onOtherMove w m c newPos oldPos =
      (if comesInSight w m newPos oldPos then self.onCreatureEnter w m c
        else if goesOutOfSight w m newPos oldPos then self.onCreatureLeave w m c
        else self).updateIdleStatus w m := rfl

theorem mem_targetList_otherMove (h : self.Held)
    (hcounts : goesOutOfSight w m newPos oldPos = true →
      c ∈ self.targetList → w.isOpponent m c = true)
    (hd : d ∈ (self.onOtherMove w m c newPos oldPos).targetList) :
    d ∈ self.targetList ∧ ¬ (d = c ∧ goesOutOfSight w m newPos oldPos = true) ∨
      d = c ∧ comesInSight w m newPos oldPos = true ∧ w.canSee m c = true ∧
        w.isOpponent m c = true := by
  rw [onOtherMove_eq] at hd
  have hmem := (updateIdleStatus_fewer w m _).targets hd
  split at hmem
  · next hcomes =>
      rcases mem_targetList_found hmem with hold | ⟨rfl, hsees, hopponent⟩
      · refine .inl ⟨hold, fun hgoes => ?_⟩
        have hgoes := hgoes.2
        simp only [comesInSight, goesOutOfSight, Bool.and_eq_true, Bool.not_eq_true'] at hcomes hgoes
        rw [hcomes.1] at hgoes
        cases hgoes.1
      · exact .inr ⟨rfl, hcomes, hsees, hopponent⟩
  split at hmem
  · next hgoes =>
      refine .inl ⟨(onCreatureLeave_fewer w m self c).targets hmem, ?_⟩
      rintro ⟨rfl, _⟩
      exact not_mem_targetList_leave h (hcounts hgoes) hmem
  · next hstays => exact .inl ⟨hmem, fun hgoes => hstays hgoes.2⟩

theorem mem_friendList_otherMove (h : self.Held)
    (hcounts : goesOutOfSight w m newPos oldPos = true →
      c ∈ self.friendList → w.isFriend m c = true)
    (hd : d ∈ (self.onOtherMove w m c newPos oldPos).friendList) :
    d ∈ self.friendList ∧ ¬ (d = c ∧ goesOutOfSight w m newPos oldPos = true) ∨
      d = c ∧ comesInSight w m newPos oldPos = true ∧ w.canSee m c = true := by
  rw [onOtherMove_eq] at hd
  have hmem := (updateIdleStatus_fewer w m _).friends hd
  split at hmem
  · next hcomes =>
      rcases mem_friendList_found hmem with hold | ⟨rfl, hsees⟩
      · refine .inl ⟨hold, fun hgoes => ?_⟩
        have hgoes := hgoes.2
        simp only [comesInSight, goesOutOfSight, Bool.and_eq_true, Bool.not_eq_true'] at hcomes hgoes
        rw [hcomes.1] at hgoes
        cases hgoes.1
      · exact .inr ⟨rfl, hcomes, hsees⟩
  split at hmem
  · next hgoes =>
      refine .inl ⟨(onCreatureLeave_fewer w m self c).friends hmem, ?_⟩
      rintro ⟨rfl, _⟩
      exact not_mem_friendList_leave h (hcounts hgoes) hmem
  · next hstays => exact .inl ⟨hmem, fun hgoes => hstays hgoes.2⟩

end OtherMove

/-! ## The idle state -/

/-- A monster without a target sleeps. -/
def Rested (self : Monster) (w : World) (m : CreatureId) : Prop :=
  w.isRemoved m = false → w.isDead m = false → w.isSummon m = false → w.aggressive m = false →
    self.isIdle = false → self.targetList ≠ []

theorem setIdle_isIdle (self : Monster) (hremoved : w.isRemoved m = false)
    (hdead : w.isDead m = false) : (self.setIdle w m true).isIdle = true := by
  rw [setIdle, hremoved, hdead, Bool.or_self, if_neg Bool.false_ne_true, Bool.not_true,
    if_neg Bool.false_ne_true, clearFriendList, clearTargetList, foldl_decrement, foldl_decrement]

theorem rested_setIdle (w : World) (m : CreatureId) (self : Monster) :
    (self.setIdle w m true).Rested w m := by
  intro hremoved hdead _ _ hidle
  rw [setIdle_isIdle self hremoved hdead] at hidle
  cases hidle

theorem setIdle_false (w : World) (m : CreatureId) (self : Monster) :
    self.setIdle w m false = self ∨ self.setIdle w m false = { self with isIdle := false } := by
  rw [setIdle]
  split
  · exact .inl rfl
  · exact .inr rfl

theorem rested_updateIdleStatus (w : World) (m : CreatureId) (self : Monster) :
    (self.updateIdleStatus w m).Rested w m := by
  intro hremoved hdead hsummon haggressive hidle
  rw [updateIdleStatus, hsummon, haggressive, Bool.not_false, Bool.true_and, Bool.and_true] at hidle ⊢
  cases hempty : self.targetList.isEmpty with
  | true =>
      rw [hempty, setIdle_isIdle self hremoved hdead] at hidle
      cases hidle
  | false =>
      have hne : self.targetList ≠ [] := by
        rintro hnil
        rw [hnil] at hempty
        cases hempty
      rcases setIdle_false w m self with heq | heq
      · rwa [heq]
      · rwa [heq]

theorem Rested.onCreatureFound (h : self.Rested w m) (c : CreatureId) (pushFront : Bool) :
    (self.onCreatureFound w m c pushFront).Rested w m := by
  rw [Monster.onCreatureFound]
  split
  · exact h
  · exact rested_updateIdleStatus w m _

theorem Rested.onCreatureLeave (h : self.Rested w m) (c : CreatureId) :
    (self.onCreatureLeave w m c).Rested w m := by
  rw [Monster.onCreatureLeave]
  split
  · exact rested_updateIdleStatus w m _
  · rw [removeFriend]
    split
    · split
      · exact h
      · exact h
    · exact h

theorem Rested.onFollowCreatureComplete (h : self.Rested w m) (c : CreatureId)
    (hasFollowPath : Bool) : (self.onFollowCreatureComplete w m c hasFollowPath).Rested w m := by
  intro hremoved hdead hsummon haggressive hidle
  rw [Monster.onFollowCreatureComplete, hsummon] at hidle ⊢
  split
  · next hnot =>
      rw [if_pos hnot] at hidle
      exact h hremoved hdead hsummon haggressive hidle
  · dsimp only
    split
    · exact List.cons_ne_nil _ _
    · exact List.append_ne_nil_of_right_ne_nil _ (List.cons_ne_nil _ _)

end Bruxo.Targets.Monster
