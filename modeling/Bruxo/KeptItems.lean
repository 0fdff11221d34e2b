import Bruxo.AddItem

/-!
# Items that stay where they are

What `removeThing` takes from the values of the cylinders, and what `internalAddItem` does to an
item that is there already: nothing, if the item is of another type than the new one and does not
have to make room for it.
-/

namespace Bruxo

namespace World

open Growth

variable {env : Env} {w w' v : World} {c : Cylinder} {i j : ThingId}

/-! ## Taking out -/

theorem Takes.not_mem_of_placed (h : Takes env w w' c i) (hw : Placed env w) (c' : Cylinder) :
    i ∉ w'.contents c' := by
  intro hi
  have hmem := h.mem
  by_cases hc : c' = c
  · subst hc
    exact (List.nodup_cons.mp (h.perm.nodup_iff.mp (hw.nodup c'))).1 hi
  · rw [h.contents_ne c' hc] at hi
    have hparent := hw.parent c' i hi
    rw [hw.parent c i hmem] at hparent
    exact hc (Option.some.inj hparent).symm

theorem Takes.placed (h : Takes env w w' c i) (hw : Placed env w) : Placed env w' where
  parent c' j hj := by
    have hne : j ≠ i := by
      rintro rfl
      exact h.not_mem_of_placed hw c' hj
    rw [h.parent_ne j hne]
    exact hw.parent c' j (h.subset hj)
  nodup c' := by
    by_cases hc : c' = c
    · subst hc
      exact (List.nodup_cons.mp (h.perm.nodup_iff.mp (hw.nodup c'))).2
    · rw [h.contents_ne c' hc]
      exact hw.nodup c'
  fresh c' j hj := by
    rw [h.nextId]
    exact hw.fresh c' j (h.subset hj)
  blank k hk := by
    rw [h.nextId] at hk
    refine List.eq_nil_iff_forall_not_mem.mpr fun j hj => ?_
    have hbefore := h.subset hj
    rw [hw.blank k hk] at hbefore
    cases hbefore
  real j c' hp := by
    by_cases hj : j = i
    · subst hj
      rw [h.parent_self] at hp
      cases hp
    · rw [h.parent_ne j hj] at hp
      intro k hk
      rw [h.nextId]
      exact hw.real j c' hp k hk
  sorted := h.sorted hw.sorted

/-- The value of the item is gone. -/
theorem Takes.grows (h : Takes env w w' c i) (price : UInt16 → Nat) :
    Grows (w.valueAt price) (w'.valueAt price) (-(w.worth price i : Nat)) := by
  have hworth : w'.worth price = w.worth price := by
    funext j
    unfold worth
    rw [h.id, count, h.data, count]
  have hsum := (h.perm.map (w.worth price)).sum_eq
  rw [List.map_cons, List.sum_cons] at hsum
  have hat : w'.valueAt price c = ((w'.contents c).map (w.worth price)).sum := by
    unfold valueAt
    rw [hworth]
  have hbefore : w.valueAt price c = ((w.contents c).map (w.worth price)).sum := rfl
  rw [← hat, ← hbefore] at hsum
  have hgrows := grows_at (f := w.valueAt price) (g := w'.valueAt price) c fun c' hc' => by
    unfold valueAt
    rw [h.contents_ne c' hc', hworth]
  have hdiff : (w'.valueAt price c : Int) - w.valueAt price c = -(w.worth price i : Nat) := by
    omega
  rwa [hdiff] at hgrows

/-! ## Staying -/

/-- `j` is as it was, and where it was. -/
structure Keeps (w w' : World) (j : ThingId) : Prop where
  id : (w'.thing j).id = (w.thing j).id
  count : w'.count j = w.count j
  held : ∀ c, j ∈ w.contents c → j ∈ w'.contents c

theorem Keeps.refl : Keeps w w j := ⟨rfl, rfl, fun _ hj => hj⟩

theorem Keeps.trans {u : World} (h : Keeps w u j) (h' : Keeps u v j) : Keeps w v j :=
  ⟨h'.id.trans h.id, h'.count.trans h.count, fun c hj => h'.held c (h.held c hj)⟩

theorem Keeps.worth (h : Keeps w w' j) (price : UInt16 → Nat) :
    w'.worth price j = w.worth price j := by
  unfold World.worth
  rw [h.id, h.count]

theorem Takes.keeps (h : Takes env w w' c i) (hj : j ≠ i) : Keeps w w' j where
  id := h.id j
  count := by rw [World.count, h.data, World.count]
  held c' hmem := by
    by_cases hc : c' = c
    · subst hc
      rcases List.mem_cons.mp (h.perm.subset hmem) with heq | hmem
      · exact absurd heq hj
      · exact hmem
    · rwa [h.contents_ne c' hc]

theorem Recounts.keeps {n : Nat} (h : Recounts w w' i n) (hj : j ≠ i) : Keeps w w' j where
  id := h.id j
  count := h.count_ne hj
  held c hmem := by rwa [h.contents]

theorem Swaps.keeps {lands : Bool} {out : Option ThingId} (h : Swaps env w w' c i lands out)
    (hout : out ≠ some j) : Keeps w w' j where
  id := h.id j
  count := by rw [World.count, h.data, World.count]
  held c' hmem := by
    by_cases hc : c' = c
    · subst hc
      have hin : j ∈ out.toList ++ w'.contents c' :=
        h.perm.symm.subset (List.mem_append_right _ hmem)
      rcases List.mem_append.mp hin with hin | hin
      · exact absurd (Option.mem_toList.mp hin) hout
      · exact hin
    · rwa [h.contents_ne c' hc]

theorem create_keeps (hw : Placed env w) {t : Thing} (ht : Blank t) (hj : j < w.nextId) :
    Keeps w (w.create t) j where
  id := by rw [create_thing_ne (Nat.ne_of_lt hj)]
  count := by rw [World.count, create_thing_ne (Nat.ne_of_lt hj), World.count]
  held c hmem := by rwa [create_contents hw ht]

/-! ## `internalAddItem` -/

section Calls

variable {call r : AddCall} {n : Nat}

/-- Of those that are answered without an error, every call drops nothing of a price, but for what
is of the type of the item. -/
def AddCall.Spares (env : Env) (c : Cylinder) (price : UInt16 → Nat) (call : AddCall) (n : Nat) :
    Prop :=
  ∀ call' ∈ AddCall.calls env c n call, call'.answer env c = .noError → call'.Settles env c →
    ∀ i ∈ call'.world.displaced env (call'.destination env c).cylinder
      (call'.destination env c).index call'.item,
      call'.world.worth price i = 0 ∨ (call'.world.thing i).id = (call'.world.thing call'.item).id

theorem AddCall.Whole.spares {price : UInt16 → Nat} (h : call.Whole env c price n) :
    call.Spares env c price n := by
  intro call' hcall' _ hsettles i hi
  exact .inl (((h call' hcall').2.place hsettles).2 i hi)

/-- A type of which no item takes the place of another type's. -/
def Plain (it : ItemType) : Prop :=
  it.isGroundTile = false ∧ it.isSplash = false ∧ it.isMagicField = false

theorem queryDestination_childIsOwner {item : ThingId} {index : Int} {flags : CylinderFlags} :
    (w.queryDestination env c index item none flags).flags.childIsOwner = flags.childIsOwner := by
  cases c with
  | tile pos =>
      simp only [queryDestination, tileQueryDestination]
      cases w.floorChangeTile env pos <;> rfl
  | container k =>
      have hpick : Pick env w k index item none flags
          (w.containerQueryDestination env k index item none flags) :=
        containerQueryDestination_pick
      simp only [queryDestination]
      generalize w.containerQueryDestination env k index item none flags = d at hpick
      cases hpick <;> rfl
  | player p =>
      have hpick : PlayerPick env w p item none flags
          (w.playerQueryDestination env p index item none flags) :=
        playerQueryDestination_pick
      simp only [queryDestination]
      generalize w.playerQueryDestination env p index item none flags = d at hpick
      cases hpick <;> rfl

/-- Nothing is put where another item is worn. -/
theorem worn_of_queryAdd {p count : Nat} {item : ThingId} {index : Int} {flags : CylinderFlags}
    (hflags : flags.childIsOwner = false)
    (h : w.playerQueryAdd env p index item count flags = .noError)
    (hi : w.inventoryItem p index = some i) :
    (w.thing i).id = (w.thing item).id := by
  unfold playerQueryAdd at h
  rw [hflags] at h
  simp only [Bool.false_eq_true, if_false, hi] at h
  split_ifs at h with _ hslot _ hequip hother
  · exact absurd h hslot.1
  · exact absurd h hequip
  · split at h
    · cases h
    · split at h <;> cases h
    · cases h
  · rw [not_or, not_not] at hother
    exact not_not.mp hother.2

theorem displaced_of_plain (hplain : Plain (call.world.typeOf env call.item))
    (hflags : call.flags.childIsOwner = false) (hanswer : call.answer env c = .noError)
    (hi : call.world.displaced env (call.destination env c).cylinder
      (call.destination env c).index call.item = some i) :
    (call.world.thing i).id = (call.world.thing call.item).id := by
  obtain ⟨hground, hsplash, hfield⟩ := hplain
  have hadd : call.world.queryAdd env (call.destination env c).cylinder
      (call.destination env c).index call.item call.itemCount (call.destination env c).flags
      false = .noError := by
    unfold AddCall.answer at hanswer
    dsimp only at hanswer
    by_contra hne
    rw [if_pos hne] at hanswer
    exact hne hanswer
  have hchild : (call.destination env c).flags.childIsOwner = false :=
    queryDestination_childIsOwner.trans hflags
  generalize call.destination env c = d at hadd hchild hi
  cases hd : d.cylinder with
  | tile pos =>
      rw [hd] at hi
      unfold displaced at hi
      dsimp only at hi
      split at hi
      · cases hi
      · simp only [hground, hsplash, hfield, Bool.false_eq_true, if_false] at hi
        split_ifs at hi
  | container k =>
      rw [hd] at hi
      cases hi
  | player p =>
      rw [hd] at hi hadd
      exact worn_of_queryAdd hchild hadd hi

/-- A plain item drops nothing of another type. -/
theorem spares_of_plain (price : UInt16 → Nat) (hw : Placed env call.world)
    (hc : call.world.Real c) (hplain : Plain (call.world.typeOf env call.item))
    (hflags : call.flags.childIsOwner = false) : call.Spares env c price n := by
  induction n generalizing call with
  | zero =>
      intro call' hcall'
      cases hcall'
  | succ n ih =>
      intro call' hcall' hanswer hsettles i hi
      rcases List.mem_cons.mp hcall' with rfl | hcall'
      · exact .inr (displaced_of_plain hplain hflags hanswer hi)
      · cases hrest : call.rest env c with
        | none =>
            rw [hrest] at hcall'
            cases hcall'
        | some r =>
            rw [hrest] at hcall'
            obtain ⟨-, -, -, hplaced, -, hreal, -, -, hid, -⟩ :=
              rest_called (fun _ => 0) hw hc hrest
            have htype : r.world.typeOf env r.item = call.world.typeOf env call.item := by
              unfold typeOf
              rw [hid]
            have hrflags : r.flags.childIsOwner = false := by
              unfold AddCall.rest at hrest
              split at hrest
              · cases hrest
                exact queryDestination_childIsOwner.trans hflags
              · cases hrest
            exact ih hplaced hreal (htype ▸ hplain) hrflags call' hcall' hanswer hsettles i hi

theorem merged_keeps (hw : Placed env call.world)
    (hid : (call.world.thing j).id ≠ (call.world.thing call.item).id) :
    Keeps call.world (call.merged env c) j := by
  by_cases hstacks : call.Stacks env c
  · obtain ⟨i, -, -, hi, hrecounts⟩ := merged_recounts hw hstacks
    refine hrecounts.keeps ?_
    rintro rfl
    exact hid hi
  · unfold AddCall.merged
    rw [if_neg hstacks]
    exact Keeps.refl

theorem decaying_keeps {item : ThingId} : Keeps w (w.startDecayingAdded item) j := by
  have hrecounts : Recounts w (w.startDecayingAdded item) item (w.count item) :=
    startDecayingAdded_recounts
  refine ⟨hrecounts.id j, ?_, fun c hmem => by rwa [hrecounts.contents]⟩
  by_cases hj : j = item
  · subst hj
    exact hrecounts.count
  · exact hrecounts.count_ne hj

theorem outcome_keeps {passOn : PassOn} (hw : Placed env call.world)
    (hitem : Loose call.world call.item) (hstays : call.Stays env c)
    (hrest : call.rest env c = none)
    (hid : (call.world.thing j).id ≠ (call.world.thing call.item).id)
    (hspared : call.Settles env c → call.world.displaced env
      (call.destination env c).cylinder (call.destination env c).index call.item ≠ some j) :
    Keeps call.world (call.outcome env c passOn).world j := by
  rw [outcome_of_stays hstays hrest]
  have hmerged : Keeps call.world (call.merged env c) j := merged_keeps hw hid
  refine Keeps.trans ?_ decaying_keeps
  split
  · next hsettles =>
      exact hmerged.trans ((settled_swaps hw hitem hsettles).2.keeps (hspared hsettles))
  · exact hmerged

/-- An item of another type that is spared stays as it is. -/
theorem internalAddItemPassing_keeps (passOn : PassOn) {price : UInt16 → Nat} (call : AddCall)
    {o : AddOutcome}
    (hw : Placed env call.world) (hitem : Loose call.world call.item) (hc : call.world.Real c)
    (hstays : call.AllStay env c n) (hspared : call.Spares env c price n)
    (hj : j < call.world.nextId) (hworth : 0 < call.world.worth price j)
    (hid : (call.world.thing j).id ≠ (call.world.thing call.item).id)
    (ho : internalAddItemPassing env passOn n call.world c call.item call.index call.flags =
      some o) : Keeps call.world o.world j := by
  induction n generalizing call o with
  | zero => cases ho
  | succ n ih =>
      rw [internalAddItemPassing_succ] at ho
      by_cases hanswer : call.answer env c = .noError
      swap
      · rw [if_pos hanswer] at ho
        cases ho
        exact Keeps.refl
      rw [if_neg (not_not_intro hanswer)] at ho
      have hself : call ∈ AddCall.calls env c (n + 1) call := List.mem_cons_self
      cases hrest : call.rest env c with
      | none =>
          rw [hrest] at ho
          cases ho
          refine outcome_keeps hw hitem (hstays call hself hanswer) hrest hid ?_
          intro hsettles hout
          rcases hspared call hself hanswer hsettles j hout with hnothing | hsame
          · omega
          · exact hid hsame
      | some r =>
          rw [hrest] at ho
          obtain ⟨o', ho', rfl⟩ := Option.map_eq_some_iff.mp ho
          obtain ⟨hstacks, -, -, hplaced, hloose, hreal, -, hnext, hrid, -⟩ :=
            rest_called (fun _ => 0) hw hc hrest
          have hbefore : Keeps call.world r.world j := by
            have hclone : r.world = (call.merged env c).clone call.item
                (call.itemCount - call.taken env c) := by
              unfold AddCall.rest at hrest
              split at hrest
              · cases hrest
                rfl
              · cases hrest
            rw [hclone, clone_eq]
            refine (merged_keeps hw hid).trans (create_keeps (merged_placed hw) ⟨rfl, rfl⟩ ?_)
            rw [merged_nextId hw]
            exact hj
          have hmore : ∀ call' ∈ AddCall.calls env c n r,
              call' ∈ AddCall.calls env c (n + 1) call := by
            intro call' hcall'
            rw [calls_of_rest hrest]
            exact List.mem_cons_of_mem _ hcall'
          have hafter := ih r hplaced hloose hreal
            (fun call' hcall' => hstays call' (hmore _ hcall'))
            (fun call' hcall' => hspared call' (hmore _ hcall')) (Nat.lt_of_lt_of_le hj hnext)
            (by rwa [hbefore.worth]) (by rwa [hbefore.id, hrid]) ho'
          exact (hbefore.trans hafter).trans decaying_keeps

end Calls

end World

end Bruxo
