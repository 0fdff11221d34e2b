import Bruxo.Capacity
import Bruxo.ItemValue

/-!
# What `internalAddItem` adds

An item that is added is put on a stack or into a place. What the stack does not take is an item
of its own then, and added by another call; the calls that one call makes in this way are
`AddCall.calls`. A call that is answered without an error adds the whole item, but for what the
call for the rest refuses, where every stack counts what it takes and every place takes the item
for nothing else of the kind (`AddCall.Kept`).
-/

namespace Bruxo

namespace World

open Growth

/-! ## Where the item goes -/

section Destination

variable {env : Env} {w : World} {c : Cylinder} {item k : ThingId} {index : Int}
  {flags : CylinderFlags}

/-- A container next to `k`. -/
def Near (w : World) (k : ThingId) (d : Destination) : Prop :=
  ∃ k', d.cylinder = .container k' ∧
    (k' = k ∨ (w.thing k).parent = some (.container k') ∨ k' ∈ (w.thing k).itemlist)

theorem containerQueryDestination_near :
    Near w k (w.containerQueryDestination env k index item none flags) := by
  unfold containerQueryDestination
  split
  · split
    · next parent hparent => exact ⟨parent, rfl, .inr (.inl hparent)⟩
    · exact ⟨k, rfl, .inl rfl⟩
  next hup =>
  by_cases hreset : index = 255 ∨ (w.thing k).maxSize ≤ index
  · simp only [if_pos hreset, ne_eq, not_true_eq_false, if_false]
    exact autoStack_cases (fun _ => ⟨k, rfl, .inl rfl⟩) fun n i _ _ _ => ⟨k, rfl, .inl rfl⟩
  · simp only [if_neg hreset]
    split
    · next sub hsub =>
        refine ⟨sub, rfl, .inr (.inr ?_)⟩
        split at hsub
        · have hfound := (Option.filter_eq_some_iff.mp hsub).1
          split at hfound
          · cases hfound
          · rw [Option.or_none] at hfound
            exact List.mem_of_getElem? hfound
        · cases hsub
    · exact autoStack_cases (fun _ => ⟨k, rfl, .inl rfl⟩) fun n i _ _ _ => ⟨k, rfl, .inl rfl⟩

theorem searchSlots_cylinder {p : Nat} {l : List Nat} {found : List ThingId} {d : Destination}
    (h : w.searchSlots env p item flags l found = .inl d) : d.cylinder = .player p := by
  induction l generalizing found with
  | nil => cases h
  | cons slot l ih =>
      rw [searchSlots] at h
      split at h
      · dsimp only at h
        split_ifs at h
        · exact ih h
        · cases h
          rfl
        all_goals exact ih h
      · split_ifs at h
        · cases h
          rfl
        · exact ih h

theorem searchSlots_found {p : Nat} {l : List Nat} {found containers : List ThingId}
    (hfound : ∀ i ∈ found, i < w.nextId) (hw : Placed env w) (hl : ∀ slot ∈ l, slot ∈ slots)
    (h : w.searchSlots env p item flags l found = .inr containers) :
    ∀ i ∈ containers, i < w.nextId := by
  induction l generalizing found with
  | nil =>
      cases h
      exact hfound
  | cons slot l ih =>
      have hslot := hl slot List.mem_cons_self
      have hl : ∀ slot ∈ l, slot ∈ slots := fun s hs => hl s (List.mem_cons_of_mem _ hs)
      rw [searchSlots] at h
      split at h
      · next i hi =>
          dsimp only at h
          have hmore : ∀ j ∈ (if (w.thing i).isContainer then found ++ [i] else found),
              j < w.nextId := by
            intro j hj
            split at hj
            · rcases List.mem_append.mp hj with hj | hj
              · exact hfound j hj
              · obtain rfl := List.mem_singleton.mp hj
                exact hw.fresh _ _ (mem_contents_player hslot hi)
            · exact hfound j hj
          split_ifs at h
          all_goals first
            | exact ih hfound hl h
            | (refine ih ?_ hl h; simpa only [*, if_true, if_false, Bool.false_eq_true] using hmore)
      · split_ifs at h
        exact ih hfound hl h

theorem searchStack_found {p n m : Nat} {found found' l : List ThingId}
    (hfound : ∀ i ∈ found, i < w.nextId) (hl : ∀ i ∈ l, i < w.nextId)
    (h : w.searchStack env p item n found l = .inr (m, found')) : ∀ i ∈ found', i < w.nextId := by
  induction l generalizing n found with
  | nil =>
      cases h
      exact hfound
  | cons j l ih =>
      have hl' : ∀ i ∈ l, i < w.nextId := fun i hi => hl i (List.mem_cons_of_mem _ hi)
      rw [searchStack] at h
      split_ifs at h with hskip hopen hsub
      · exact ih hfound hl' h
      · refine ih (fun i hi => ?_) hl' h
        rcases List.mem_append.mp hi with hi | hi
        · exact hfound i hi
        · obtain rfl := List.mem_singleton.mp hi
          exact hl i List.mem_cons_self
      · exact ih hfound hl' h

theorem searchContainers_cylinder {p fuel : Nat} {l : List ThingId} {d : Destination}
    (hl : ∀ i ∈ l, i < w.nextId) (hw : Placed env w)
    (h : w.searchContainers env p item flags fuel l = some d) :
    ∃ k, d.cylinder = .container k ∧ k < w.nextId := by
  induction fuel generalizing l with
  | zero => cases l <;> cases h
  | succ fuel ih =>
      cases l with
      | nil => cases h
      | cons k l =>
          have hk : k < w.nextId := hl k List.mem_cons_self
          have hitems : ∀ i ∈ (w.thing k).itemlist, i < w.nextId := hw.fresh (.container k)
          have hrest : ∀ found : List ThingId, (∀ i ∈ found, i < w.nextId) →
              ∀ i ∈ l ++ found, i < w.nextId := by
            intro found hfound i hi
            rcases List.mem_append.mp hi with hi | hi
            · exact hl i (List.mem_cons_of_mem _ hi)
            · exact hfound i hi
          rw [searchContainers] at h
          split at h
          · split at h
            · cases h
              exact ⟨k, rfl, hk⟩
            · exact ih (hrest _ fun i hi => hitems i (List.mem_of_mem_filter hi)) h
          · split at h
            · cases h
              exact ⟨k, rfl, hk⟩
            · next n found hfind =>
                split at h
                · cases h
                  exact ⟨k, rfl, hk⟩
                · have hnil : ∀ i ∈ ([] : List ThingId), i < w.nextId := by
                    intro i hi
                    cases hi
                  exact ih (hrest _ (searchStack_found hnil hitems hfind)) h

/-- The cylinder that is picked is there. -/
theorem queryDestination_real (hw : Placed env w) (hc : w.Real c) :
    w.Real (w.queryDestination env c index item none flags).cylinder := by
  intro k hk
  cases c with
  | tile pos => cases hk
  | container k₀ =>
      have hnear : Near w k₀ (w.containerQueryDestination env k₀ index item none flags) :=
        containerQueryDestination_near
      obtain ⟨k', hk', hfrom⟩ := hnear
      obtain rfl := Cylinder.container.inj (hk'.symm.trans hk)
      rcases hfrom with rfl | hparent | hmem
      · exact hc _ rfl
      · exact hw.real k₀ _ hparent k' rfl
      · exact hw.fresh (.container k₀) k' hmem
  | player p =>
      have hnil : ∀ i ∈ ([] : List ThingId), i < w.nextId := by
        intro i hi
        cases hi
      simp only [queryDestination, playerQueryDestination] at hk
      split at hk
      · split at hk
        · next d hsearch =>
            rw [searchSlots_cylinder hsearch] at hk
            cases hk
        · next found hsearch =>
            have hfound := searchSlots_found hnil hw (fun _ => id) hsearch
            cases hcont : w.searchContainers env p item flags env.depth found with
            | none =>
                rw [hcont] at hk
                cases hk
            | some d =>
                rw [hcont] at hk
                obtain ⟨k', hk', hlt⟩ := searchContainers_cylinder hfound hw hcont
                obtain rfl := Cylinder.container.inj (hk'.symm.trans hk)
                exact hlt
      · split at hk
        · cases hk
        · next i hi =>
            split at hk
            · obtain rfl := Cylinder.container.inj hk
              unfold inventoryItem at hi
              split at hi
              · next hslot =>
                  exact hw.fresh _ _ (mem_contents_player (mem_slots.mpr (by omega)) hi)
              · cases hi
            · cases hk

/-- The stack that is picked lies in the cylinder. -/
theorem queryDestination_destItem {i : ThingId}
    (hi : (w.queryDestination env c index item none flags).destItem = some i) :
    i ∈ w.contents (w.queryDestination env c index item none flags).cylinder := by
  cases c with
  | tile pos =>
      simp only [queryDestination, tileQueryDestination] at hi ⊢
      obtain ⟨t, ht, hhead⟩ := Option.bind_eq_some_iff.mp hi
      simp only [contents, ht]
      exact List.mem_append_right _ (List.mem_of_mem_head? hhead)
  | container k =>
      have hpick : Pick env w k index item none flags
          (w.containerQueryDestination env k index item none flags) :=
        containerQueryDestination_pick
      simp only [queryDestination] at hi ⊢
      generalize w.containerQueryDestination env k index item none flags = d at hpick hi
      cases hpick with
      | wherever k' o ho => cases ho i hi
      | stack n j hget _ _ =>
          cases hi
          exact List.mem_of_getElem? hget
      | place _ _ _ =>
          have hat : w.itemAt k index none = some i := hi
          unfold itemAt at hat
          split at hat
          · cases hat
          · rw [Option.or_none] at hat
            exact List.mem_of_getElem? hat
  | player p =>
      have hpick : PlayerPick env w p item none flags
          (w.playerQueryDestination env p index item none flags) :=
        playerQueryDestination_pick
      simp only [queryDestination] at hi ⊢
      generalize w.playerQueryDestination env p index item none flags = d at hpick hi
      cases hpick with
      | slot index o ho =>
          rcases ho i hi with hmem | hnone
          · exact hmem
          · cases hnone
      | wherever k => cases hi
      | stack k n j hj _ _ =>
          cases hi
          exact hj
      | place k index _ => cases hi

end Destination

/-! ## The function with its notifications -/

section Passing

variable (env : Env)

/-- What a tile that is a teleport, a trash holder or a mailbox makes of an item that it gets. -/
abbrev PassOn := World → Cylinder → ThingId → World

/-- `postAddNotification`, as far as it changes something. -/
def notified (passOn : PassOn) (w : World) (c : Cylinder) (item : Option ThingId) : World :=
  item.elim w fun i => if w.getThingIndex env c i ≠ -1 ∧ w.passesOn env c then passOn w c i else w

/-- `internalAddItem` with its notifications; the number bounds how deep it calls itself. -/
def internalAddItemPassing (passOn : PassOn) :
    Nat → World → Cylinder → ThingId → Int → CylinderFlags → Option AddOutcome
  | 0, _, _, _, _, _ => none
  | n + 1, w, destCylinder, item, index, flags =>
      let d := w.queryDestination env destCylinder index item none flags
      let itemCount := w.count item
      let ret := w.queryAdd env d.cylinder d.index item itemCount d.flags false
      if ret ≠ .noError then some ⟨ret, w, 0⟩
      else
        let (maxQueryCount, ret) :=
          w.queryMaxCount env destCylinder indexWhereever item itemCount d.flags
        if ret ≠ .noError then some ⟨ret, w, 0⟩
        else
          let added (w : World) : AddOutcome :=
            let w := (w.addThing env d.cylinder d.index item).notified env passOn d.cylinder item
            ⟨.noError, w.startDecayingAdded item, 0⟩
          if (w.typeOf env item).stackable ∧ w.equals item d.destItem then
            let m := min itemCount maxQueryCount
            let count := m - w.mergeCount env item d.destItem m
            let w' := w.mergeInto env d.cylinder item d.destItem
              (w.mergeCount env item d.destItem m)
            if 0 < count then
              if itemCount ≠ count then
                (internalAddItemPassing passOn n (w'.clone item count) destCylinder w'.nextId
                  indexWhereever d.flags).map fun r =>
                    ⟨.noError, r.world.startDecayingAdded item,
                      if r.ret = .noError then 0 else count⟩
              else some (added w')
            else
              let w' := w'.notified env passOn d.cylinder d.destItem
              some ⟨.noError, w'.startDecayingAdded item, 0⟩
          else some (added w)

theorem notified_id (w : World) (c : Cylinder) (item : Option ThingId) :
    w.notified env (fun w _ _ => w) c item = w := by
  cases item with
  | none => rfl
  | some i => exact ite_self _

/-- Where nothing is passed on, it is the function without them. -/
theorem internalAddItemPassing_id (n : Nat) :
    internalAddItemPassing env (fun w _ _ => w) n = internalAddItem env n := by
  induction n with
  | zero => rfl
  | succ n ih =>
      funext w destCylinder item index flags
      simp only [internalAddItemPassing, internalAddItem, notified_id, ih]
      split_ifs
      all_goals try rfl
      cases internalAddItem env n _ destCylinder _ indexWhereever _ with
      | none => rfl
      | some r =>
          obtain ⟨ret, v, remainderCount⟩ := r
          cases ret <;> rfl

end Passing

/-! ## One call -/

/-- A call of `internalAddItem`, but for the cylinder that it is for. -/
structure AddCall where
  world : World
  item : ThingId
  index : Int
  flags : CylinderFlags

namespace AddCall

variable (env : Env) (c : Cylinder) (call : AddCall)

def itemCount : Nat := call.world.count call.item

def destination : Destination :=
  call.world.queryDestination env c call.index call.item none call.flags

/-- What `internalAddItem` returns, as far as the queries decide it. -/
def answer : ReturnValue :=
  let d := call.destination env c
  let ret := call.world.queryAdd env d.cylinder d.index call.item call.itemCount d.flags false
  if ret ≠ .noError then ret
  else (call.world.queryMaxCount env c indexWhereever call.item call.itemCount d.flags).2

/-- The item is put on a stack. -/
def Stacks : Prop :=
  (call.world.typeOf env call.item).stackable = true ∧
    call.world.equals call.item (call.destination env c).destItem = true

instance : Decidable (call.Stacks env c) := inferInstanceAs (Decidable (_ ∧ _))

/-- How many of the item the stack is given. -/
def taken : Nat :=
  call.world.mergeCount env call.item (call.destination env c).destItem call.itemCount

/-- The world with the stack that was given its part. -/
def merged : World :=
  if call.Stacks env c then
    call.world.mergeInto env (call.destination env c).cylinder call.item
      (call.destination env c).destItem (call.taken env c)
  else call.world

/-- The item gets a place of its own. -/
def Settles : Prop := call.Stacks env c → call.taken env c = 0 ∧ 0 < call.itemCount

instance : Decidable (call.Settles env c) := inferInstanceAs (Decidable (_ → _))

/-- The call that adds what the stack does not take. -/
def rest : Option AddCall :=
  if call.answer env c = .noError ∧ call.Stacks env c ∧ 0 < call.taken env c ∧
      call.taken env c < call.itemCount then
    some ⟨(call.merged env c).clone call.item (call.itemCount - call.taken env c),
      (call.merged env c).nextId, indexWhereever, (call.destination env c).flags⟩
  else none

/-- The call and those it makes, as deep as the number says. -/
def calls : Nat → AddCall → List AddCall
  | 0, _ => []
  | n + 1, call => call :: ((call.rest env c).map (calls n)).getD []

/-- The stack counts what it is given, and the place takes the item and drops nothing of a price
for it. -/
structure Holds (price : UInt16 → Nat) : Prop where
  stack : call.Stacks env c → call.taken env c = 0 ∨
    (call.world.typeOf env call.item).fluid = false ∧
      ∀ i ∈ (call.destination env c).destItem, call.world.count i + call.taken env c < 256
  place : call.Settles env c →
    (call.world.lands env (call.destination env c).cylinder (call.destination env c).index
        call.item = true ∨ call.itemCount = 0) ∧
      ∀ i ∈ call.world.displaced env (call.destination env c).cylinder
        (call.destination env c).index call.item, call.world.worth price i = 0

/-- All of the calls are answered without an error, and hold. -/
def Whole (price : UInt16 → Nat) (n : Nat) : Prop :=
  ∀ call' ∈ calls env c n call, call'.answer env c = .noError ∧ call'.Holds env c price

/-- All of the calls that are answered without an error hold, and only the second one may be
answered with an error. -/
def Kept (price : UInt16 → Nat) (n : Nat) : Prop :=
  (∀ call' ∈ calls env c n call, call'.answer env c = .noError → call'.Holds env c price) ∧
    ∀ call' ∈ (calls env c n call).drop 2, call'.answer env c = .noError

/-- What a call returns when the call for the rest has returned. -/
def afterRest (r : AddOutcome) : AddOutcome :=
  ⟨.noError, r.world.startDecayingAdded call.item,
    if r.ret = .noError then 0 else call.itemCount - call.taken env c⟩

/-- The world with the item in its place. -/
def settled : World :=
  (call.merged env c).addThing env (call.destination env c).cylinder
    (call.destination env c).index call.item

/-- What a call returns that makes no other one. -/
def outcome (passOn : PassOn) : AddOutcome :=
  ⟨.noError, (if call.Settles env c then
      (call.settled env c).notified env passOn (call.destination env c).cylinder call.item
    else
      (call.merged env c).notified env passOn (call.destination env c).cylinder
        (call.destination env c).destItem).startDecayingAdded call.item, 0⟩

/-- The tile does not pass on what it has got. -/
def Stays : Prop :=
  (call.Settles env c →
      (call.settled env c).passesOn env (call.destination env c).cylinder = false) ∧
    (¬ call.Settles env c → call.rest env c = none →
      (call.merged env c).passesOn env (call.destination env c).cylinder = false)

/-- No tile passes on what it gets from the calls. -/
def AllStay (n : Nat) : Prop :=
  ∀ call' ∈ calls env c n call, call'.answer env c = .noError → call'.Stays env c

end AddCall

/-! ## The calls of `internalAddItem` -/

section Calls

variable {env : Env} {w w' : World} {c : Cylinder} {call r : AddCall} {item i : ThingId} {n : Nat}

theorem mergeCount_le {toItem : Option ThingId} {m : Nat} : w.mergeCount env item toItem m ≤ m := by
  unfold mergeCount
  split
  · exact Nat.zero_le _
  · split_ifs
    · exact Nat.le_refl _
    · exact Nat.min_le_right _ _
    · exact Nat.zero_le _

/-- There is room for all of a stack, or an error. -/
theorem le_queryMaxCount {count : Nat} {flags : CylinderFlags}
    (hstack : (w.typeOf env item).stackable = true)
    (h : (w.queryMaxCount env c indexWhereever item count flags).2 = .noError) :
    count ≤ (w.queryMaxCount env c indexWhereever item count flags).1 := by
  cases c with
  | tile pos => exact Nat.le_max_right _ _
  | container k =>
      simp only [queryMaxCount, containerQueryMaxCount, if_pos hstack] at h ⊢
      split_ifs at h ⊢
      · exact Nat.le_max_right _ _
      · omega
  | player p =>
      simp only [queryMaxCount, playerQueryMaxCount, if_true] at h ⊢
      split_ifs at h with hlt
      exact Nat.not_lt.mp hlt

/-- `internalAddItem` by what the queries answer, what the stack takes, and the call for the
rest. -/
theorem internalAddItemPassing_succ (passOn : PassOn) (n : Nat) (call : AddCall) :
    internalAddItemPassing env passOn (n + 1) call.world c call.item call.index call.flags =
      if call.answer env c ≠ .noError then some ⟨call.answer env c, call.world, 0⟩
      else
        (call.rest env c).elim (some (call.outcome env c passOn)) fun r =>
          (internalAddItemPassing env passOn n r.world c r.item r.index r.flags).map
            (call.afterRest env c) := by
  obtain ⟨w, item, index, flags⟩ := call
  simp only [internalAddItemPassing, AddCall.answer, AddCall.rest, AddCall.outcome,
    AddCall.settled, AddCall.Settles, AddCall.merged, AddCall.taken, AddCall.itemCount, AddCall.Stacks,
    AddCall.destination]
  obtain ⟨d, hd⟩ : ∃ d, w.queryDestination env c index item none flags = d := ⟨_, rfl⟩
  simp only [hd]
  by_cases hadd : w.queryAdd env d.cylinder d.index item (w.count item) d.flags false = .noError
  swap
  · simp only [ne_eq, hadd, not_false_eq_true, if_true]
  simp only [ne_eq, hadd, not_true_eq_false, if_false]
  by_cases hmax : (w.queryMaxCount env c indexWhereever item (w.count item) d.flags).2 = .noError
  swap
  · simp only [hmax, not_false_eq_true, if_true]
  simp only [hmax, not_true_eq_false, if_false, true_and]
  by_cases hstacks : (w.typeOf env item).stackable = true ∧ w.equals item d.destItem = true
  · have hm := Nat.min_eq_left (le_queryMaxCount hstacks.1 hmax)
    simp only [hstacks, and_self, if_true, hm, true_and, true_implies]
    obtain ⟨k, hk⟩ : ∃ k, w.mergeCount env item d.destItem (w.count item) = k := ⟨_, rfl⟩
    have hle : k ≤ w.count item := hk ▸ mergeCount_le
    simp only [hk]
    by_cases hsplit : 0 < k ∧ k < w.count item
    · have hleft : 0 < w.count item - k := by omega
      have hne : ¬ w.count item = w.count item - k := by omega
      simp only [hsplit, hleft, hne, and_self, if_true, not_false_eq_true, Option.elim_some]
      refine congrArg (fun f => Option.map f _) (funext fun r => ?_)
      simp only [AddCall.afterRest, AddCall.itemCount, AddCall.taken, AddCall.destination, hd, hk]
    · simp only [hsplit, if_false, Option.elim_none]
      by_cases hsettles : k = 0 ∧ 0 < w.count item
      · have hleft : 0 < w.count item - k := by omega
        have heq : w.count item = w.count item - k := by omega
        rw [if_pos hleft, if_neg (not_not_intro heq), if_pos hsettles]
      · have hleft : ¬ 0 < w.count item - k := by omega
        rw [if_neg hleft, if_neg hsettles]
  · simp only [hstacks, if_false, false_implies, if_true, false_and, Option.elim_none]

theorem rest_itemCount (hrest : call.rest env c = some r) :
    call.Stacks env c ∧ 0 < call.taken env c ∧ call.taken env c < call.itemCount ∧
      r.itemCount = call.itemCount - call.taken env c := by
  unfold AddCall.rest at hrest
  split at hrest
  · next h =>
      obtain ⟨-, hstacks, hpos, hlt⟩ := h
      have hsmall : call.itemCount - call.taken env c < 256 := by
        have := call.world.count_lt call.item
        unfold AddCall.itemCount
        omega
      cases hrest
      exact ⟨hstacks, hpos, hlt, clone_count _ hsmall⟩
  · cases hrest

/-- As many calls as the item counts, and one more, are enough. -/
theorem internalAddItemPassing_isSome (passOn : PassOn) (call : AddCall) (hn : call.itemCount < n) :
    (internalAddItemPassing env passOn n call.world c call.item call.index call.flags).isSome =
      true := by
  induction n generalizing call with
  | zero => cases hn
  | succ n ih =>
      rw [internalAddItemPassing_succ]
      by_cases hanswer : call.answer env c = .noError
      · rw [if_neg (not_not_intro hanswer)]
        cases hrest : call.rest env c with
        | none => rfl
        | some r =>
            obtain ⟨-, hpos, hlt, hcount⟩ := rest_itemCount hrest
            rw [Option.elim_some, Option.isSome_map]
            exact ih r (by omega)
      · rw [if_pos hanswer]
        rfl

/-! ## What a call does to the values -/

variable {price : UInt16 → Nat}

/-- What `k` more of something with `a` of it come to, where there is `b` of it then. -/
theorem scaled_le {p a k b : Nat} (hb : b ≤ a + k) (hp : 0 < p) :
    ((p * b : Nat) : Int) - (p * a : Nat) ≤ (p * k : Nat) ∧
      (((p * b : Nat) : Int) - (p * a : Nat) = (p * k : Nat) ↔ b = a + k) := by
  have hle : p * b ≤ p * (a + k) := Nat.mul_le_mul_left p hb
  have hadd : p * (a + k) = p * a + p * k := Nat.mul_add p a k
  refine ⟨by omega, fun heq => ?_, ?_⟩
  · exact Nat.eq_of_mul_eq_mul_left hp (by omega)
  · rintro rfl
    omega

theorem updatedCount_le (i : ThingId) (k : Nat) :
    w.updatedCount env i (w.count i + k) ≤ w.count i + k := by
  unfold updatedCount
  split
  · exact Nat.le_add_right _ _
  · exact Nat.mod_le _ _

theorem updatedCount_eq_iff (i : ThingId) (k : Nat) :
    w.updatedCount env i (w.count i + k) = w.count i + k ↔
      k = 0 ∨ (w.typeOf env i).fluid = false ∧ w.count i + k < 256 := by
  have hlt : w.count i < 256 := count_lt i
  unfold updatedCount
  by_cases hfluid : (w.typeOf env i).fluid = true
  · rw [if_pos hfluid]
    constructor
    · intro h
      exact .inl (by omega)
    · rintro (rfl | ⟨hnot, -⟩)
      · rfl
      · cases hfluid.symm.trans hnot
  · rw [if_neg hfluid]
    constructor
    · intro h
      exact .inr ⟨Bool.eq_false_iff.mpr hfluid, by omega⟩
    · rintro (rfl | ⟨-, hsmall⟩)
      · exact Nat.mod_eq_of_lt hlt
      · exact Nat.mod_eq_of_lt hsmall

/-- The stack lies where the item is to go, is of its kind, and counts what it is given. -/
theorem merged_recounts (hw : Placed env call.world) (hstacks : call.Stacks env c) :
    ∃ i, (call.destination env c).destItem = some i ∧
      i ∈ call.world.contents (call.destination env c).cylinder ∧
      (call.world.thing i).id = (call.world.thing call.item).id ∧
      Recounts call.world (call.merged env c) i
        (call.world.updatedCount env i (call.world.count i + call.taken env c)) := by
  have hequals := hstacks.2
  cases hdest : (call.destination env c).destItem with
  | none =>
      rw [hdest] at hequals
      cases hequals
  | some i =>
      have hmem := queryDestination_destItem hdest
      rw [hdest] at hequals
      have hid : (call.world.thing call.item).id = (call.world.thing i).id := by
        have hboth := (Bool.and_eq_true_iff.mp hequals).1
        exact of_decide_eq_true (Bool.and_eq_true_iff.mp hboth).1
      have hstack : (call.world.typeOf env i).stackable = true := by
        unfold typeOf
        rw [← hid]
        exact hstacks.1
      refine ⟨i, rfl, hmem, hid.symm, ?_⟩
      have hmerged : call.merged env c = call.world.updateThing env
          (call.destination env c).cylinder i (call.world.count i + call.taken env c) := by
        unfold AddCall.merged
        rw [if_pos hstacks, hdest]
        exact if_pos hequals
      rw [hmerged]
      exact updateThing_recounts_of_sorted hw hmem hstack _

theorem merged_placed (hw : Placed env call.world) : Placed env (call.merged env c) := by
  by_cases hstacks : call.Stacks env c
  · obtain ⟨i, -, -, -, hrecounts⟩ := merged_recounts hw hstacks
    exact hrecounts.placed hw
  · unfold AddCall.merged
    rw [if_neg hstacks]
    exact hw

/-- What a stack gains that is given its part. -/
theorem merged_grows (hw : Placed env call.world) (hstacks : call.Stacks env c)
    (hprice : 0 < price (call.world.thing call.item).id) :
    ∃ d : Int, Grows (call.world.valueAt price) ((call.merged env c).valueAt price) d ∧
      d ≤ (price (call.world.thing call.item).id * call.taken env c : Nat) ∧
      (d = (price (call.world.thing call.item).id * call.taken env c : Nat) ↔
        call.taken env c = 0 ∨ (call.world.typeOf env call.item).fluid = false ∧
          ∀ i ∈ (call.destination env c).destItem,
            call.world.count i + call.taken env c < 256) := by
  obtain ⟨i, hdest, hmem, hid, hrecounts⟩ := merged_recounts hw hstacks
  have hgrows := hrecounts.grows hw hmem price
  unfold worth at hgrows
  rw [hid] at hgrows
  have hle : call.world.updatedCount env i (call.world.count i + call.taken env c) ≤
      call.world.count i + call.taken env c := updatedCount_le i _
  obtain ⟨hbound, hiff⟩ := scaled_le hle hprice
  refine ⟨_, hgrows, hbound, hiff.trans ?_⟩
  rw [updatedCount_eq_iff, hdest]
  have htype : call.world.typeOf env i = call.world.typeOf env call.item := by
    unfold typeOf
    rw [hid]
  rw [htype]
  constructor
  · rintro (hzero | ⟨hfluid, hsmall⟩)
    · exact .inl hzero
    · refine .inr ⟨hfluid, fun j hj => ?_⟩
      cases hj
      exact hsmall
  · rintro (hzero | ⟨hfluid, hsmall⟩)
    · exact .inl hzero
    · exact .inr ⟨hfluid, hsmall i rfl⟩

theorem merged_nextId (hw : Placed env call.world) :
    (call.merged env c).nextId = call.world.nextId := by
  by_cases hstacks : call.Stacks env c
  · obtain ⟨i, -, -, -, hrecounts⟩ := merged_recounts hw hstacks
    exact hrecounts.nextId
  · unfold AddCall.merged
    rw [if_neg hstacks]

theorem merged_valueAt_ne (price : UInt16 → Nat) (hw : Placed env call.world) {c' : Cylinder}
    (hc' : c' ≠ (call.destination env c).cylinder) :
    (call.merged env c).valueAt price c' = call.world.valueAt price c' := by
  by_cases hstacks : call.Stacks env c
  · obtain ⟨i, -, hmem, -, hrecounts⟩ := merged_recounts hw hstacks
    exact hrecounts.valueAt_ne hw hmem price hc'
  · unfold AddCall.merged
    rw [if_neg hstacks]

/-- With nothing for the stack, no count is another one. -/
theorem merged_same (hw : Placed env call.world)
    (hzero : call.Stacks env c → call.taken env c = 0) :
    (∀ j, ((call.merged env c).thing j).id = (call.world.thing j).id) ∧
      (∀ j, (call.merged env c).count j = call.world.count j) ∧
      (∀ j, ((call.merged env c).thing j).maxSize = (call.world.thing j).maxSize) ∧
      (∀ c', (call.merged env c).contents c' = call.world.contents c') ∧
      (call.merged env c).nextId = call.world.nextId ∧
      (call.merged env c).tile = call.world.tile ∧
      (call.merged env c).player = call.world.player := by
  by_cases hstacks : call.Stacks env c
  · obtain ⟨i, hdest, hmem, hid, hrecounts⟩ := merged_recounts hw hstacks
    refine ⟨hrecounts.id, fun j => ?_, hrecounts.maxSize, hrecounts.contents, hrecounts.nextId,
      hrecounts.tile, hrecounts.player⟩
    by_cases hj : j = i
    · subst hj
      rw [hrecounts.count, hzero hstacks]
      exact (updatedCount_eq_iff j 0).mpr (.inl rfl)
    · exact hrecounts.count_ne hj
  · unfold AddCall.merged
    rw [if_neg hstacks]
    exact ⟨fun _ => rfl, fun _ => rfl, fun _ => rfl, fun _ => rfl, rfl, rfl, rfl⟩

theorem lands_congr {index : Int} (hid : ∀ j, (w'.thing j).id = (w.thing j).id)
    (hsize : ∀ j, (w'.thing j).maxSize = (w.thing j).maxSize) (htile : w'.tile = w.tile) :
    w'.lands env c index item = w.lands env c index item := by
  have htype : ∀ j, w'.typeOf env j = w.typeOf env j := typeOf_congr hid
  cases c with
  | tile pos => simp only [lands, htile, htype]
  | container k => simp only [lands, hsize]
  | player p => rfl

theorem displaced_congr {index : Int} (hid : ∀ j, (w'.thing j).id = (w.thing j).id)
    (htile : w'.tile = w.tile) (hplayer : w'.player = w.player) :
    w'.displaced env c index item = w.displaced env c index item := by
  have htype : ∀ j, w'.typeOf env j = w.typeOf env j := typeOf_congr hid
  cases c with
  | tile pos => simp only [displaced, htile, htype]
  | container k => rfl
  | player p => simp only [displaced, inventoryItem, hplayer]

theorem startDecayingAdded_recounts :
    Recounts w (w.startDecayingAdded item) item (w.count item) := by
  unfold startDecayingAdded
  dsimp only
  split
  · exact setData_recounts item _
  · exact ⟨fun _ => rfl, fun _ _ => rfl, fun _ => rfl, fun _ => rfl, fun _ => rfl, rfl,
      fun _ => rfl, rfl, rfl, rfl⟩

theorem startDecayingAdded_valueAt :
    (w.startDecayingAdded item).valueAt price = w.valueAt price := by
  have hrecounts : Recounts w (w.startDecayingAdded item) item (w.count item) :=
    startDecayingAdded_recounts
  funext c
  refine valueAt_congr (hrecounts.contents c) fun j _ => ⟨hrecounts.id j, ?_⟩
  by_cases hj : j = item
  · rw [hj, hrecounts.count]
  · exact hrecounts.count_ne hj

/-- An item that gets a place of its own. -/
theorem settled_swaps (hw : Placed env call.world) (hitem : Loose call.world call.item)
    (hsettles : call.Settles env c) :
    Loose (call.merged env c) call.item ∧
      Swaps env (call.merged env c) (call.settled env c) (call.destination env c).cylinder call.item
        (call.world.lands env (call.destination env c).cylinder (call.destination env c).index
          call.item)
        (call.world.displaced env (call.destination env c).cylinder
          (call.destination env c).index call.item) := by
  obtain ⟨hid, -, hsize, hcontents, hnext, htile, hplayer⟩ :=
    merged_same hw fun hstacks => (hsettles hstacks).1
  have hloose : ∀ c', call.item ∉ (call.merged env c).contents c' := by
    intro c'
    rw [hcontents]
    exact hitem.nowhere c'
  have hswaps : Swaps env (call.merged env c) (call.settled env c)
      (call.destination env c).cylinder call.item _ _ := addThing_swaps hloose
  rw [lands_congr hid hsize htile, displaced_congr hid htile hplayer] at hswaps
  exact ⟨⟨hnext ▸ hitem.allocated, hloose⟩, hswaps⟩

theorem settled_grows (hw : Placed env call.world) (hitem : Loose call.world call.item)
    (hprice : 0 < price (call.world.thing call.item).id) (hsettles : call.Settles env c) :
    ∃ d : Int, Grows (call.world.valueAt price)
        ((call.settled env c).valueAt price) d ∧
      d ≤ (call.world.worth price call.item : Nat) ∧
      (d = (call.world.worth price call.item : Nat) ↔ call.Holds env c price) := by
  obtain ⟨hid, hcount, -, hcontents, -⟩ := merged_same hw fun hstacks => (hsettles hstacks).1
  obtain ⟨-, hswaps⟩ := settled_swaps hw hitem hsettles
  have hworth : ∀ j, (call.merged env c).worth price j = call.world.worth price j := by
    intro j
    unfold worth
    rw [hid, hcount]
  have hvalue : (call.merged env c).valueAt price = call.world.valueAt price := by
    funext c'
    exact valueAt_congr (hcontents c') fun j _ => ⟨hid j, hcount j⟩
  have hgrows := hswaps.grows price
  rw [hvalue, hworth] at hgrows
  have hfun : (call.merged env c).worth price = call.world.worth price := funext hworth
  rw [hfun] at hgrows
  have hzero : call.world.worth price call.item = 0 ↔ call.itemCount = 0 := by
    unfold worth AddCall.itemCount
    rw [Nat.mul_eq_zero]
    omega
  refine ⟨_, hgrows, ?_, ?_⟩
  · split <;> omega
  constructor
  · intro heq
    refine ⟨fun hstacks => .inl (hsettles hstacks).1, fun _ => ⟨?_, fun i hi => ?_⟩⟩
    · by_cases hlands : call.world.lands env (call.destination env c).cylinder
          (call.destination env c).index call.item = true
      · exact .inl hlands
      · rw [if_neg hlands] at heq
        exact .inr (hzero.mp (by omega))
    · rw [Option.mem_def.mp hi, Option.elim_some] at heq
      split at heq <;> omega
  · intro hholds
    obtain ⟨hplace, hnothing⟩ := hholds.place hsettles
    have hdropped : (call.world.displaced env (call.destination env c).cylinder
        (call.destination env c).index call.item).elim 0 (call.world.worth price) = 0 := by
      cases hout : call.world.displaced env (call.destination env c).cylinder
          (call.destination env c).index call.item with
      | none => rfl
      | some i => exact hnothing i hout
    rw [hdropped]
    rcases hplace with hlands | hnone
    · rw [if_pos hlands]
      omega
    · rw [hzero.mpr hnone]
      split <;> rfl

/-! ## All the calls -/

/-- What `internalAddItem` does for a call. -/
structure Adds (env : Env) (c : Cylinder) (price : UInt16 → Nat) (call : AddCall) (n : Nat)
    (r : AddOutcome) : Prop where
  placed : Placed env r.world
  ret : r.ret = call.answer env c
  refused : call.answer env c ≠ .noError → r = ⟨call.answer env c, call.world, 0⟩
  grows : call.answer env c = .noError → ∃ d : Int,
    Grows (call.world.valueAt price) (r.world.valueAt price) d ∧
      d ≤ (call.world.worth price call.item : Nat) ∧
      (d = (call.world.worth price call.item : Nat) ↔ call.Whole env c price n) ∧
      d + (price (call.world.thing call.item).id * r.remainderCount : Nat) ≤
        (call.world.worth price call.item : Nat) ∧
      (d + (price (call.world.thing call.item).id * r.remainderCount : Nat) =
        (call.world.worth price call.item : Nat) ↔ call.Kept env c price n)
  elsewhere : ∀ c', (∀ call' ∈ AddCall.calls env c n call,
    (call'.destination env c).cylinder ≠ c') →
      r.world.valueAt price c' = call.world.valueAt price c'
  nextId : call.world.nextId ≤ r.world.nextId

/-- A call that is refused, or makes no other one. -/
theorem calls_of_last (hrest : call.rest env c = none) :
    AddCall.calls env c (n + 1) call = [call] := by
  rw [AddCall.calls, hrest]
  rfl

theorem whole_of_last (hrest : call.rest env c = none) (hanswer : call.answer env c = .noError) :
    call.Whole env c price (n + 1) ↔ call.Holds env c price := by
  unfold AddCall.Whole
  rw [calls_of_last hrest]
  constructor
  · intro h
    exact (h call List.mem_cons_self).2
  · intro h call' hcall'
    obtain rfl := List.mem_singleton.mp hcall'
    exact ⟨hanswer, h⟩

theorem kept_of_last (hrest : call.rest env c = none) (hanswer : call.answer env c = .noError) :
    call.Kept env c price (n + 1) ↔ call.Holds env c price := by
  unfold AddCall.Kept
  rw [calls_of_last hrest]
  constructor
  · intro h
    exact h.1 call List.mem_cons_self hanswer
  · intro h
    refine ⟨fun call' hcall' _ => ?_, fun call' hcall' => ?_⟩
    · obtain rfl := List.mem_singleton.mp hcall'
      exact h
    · cases hcall'

theorem rest_of_refused (hanswer : call.answer env c ≠ .noError) : call.rest env c = none :=
  if_neg fun h => hanswer h.1

theorem calls_of_rest (hrest : call.rest env c = some r) :
    AddCall.calls env c (n + 1) call = call :: AddCall.calls env c n r := by
  rw [AddCall.calls, hrest]
  rfl

theorem whole_of_rest (hrest : call.rest env c = some r) (hanswer : call.answer env c = .noError) :
    call.Whole env c price (n + 1) ↔ call.Holds env c price ∧ r.Whole env c price n := by
  unfold AddCall.Whole
  rw [calls_of_rest hrest, List.forall_mem_cons]
  exact and_congr_left fun _ => and_iff_right hanswer

theorem kept_of_rest (hrest : call.rest env c = some r) (hanswer : call.answer env c = .noError) :
    call.Kept env c price (n + 2) ↔
      call.Holds env c price ∧ (r.answer env c = .noError → r.Whole env c price (n + 1)) := by
  unfold AddCall.Kept AddCall.Whole
  rw [calls_of_rest hrest, List.forall_mem_cons]
  have hcalls : AddCall.calls env c (n + 1) r =
      r :: ((r.rest env c).map (AddCall.calls env c n)).getD [] := rfl
  by_cases hr : r.answer env c = .noError
  · simp only [hcalls, List.drop_succ_cons, List.drop_zero, List.forall_mem_cons, hanswer, hr,
      true_implies, true_and]
    constructor
    · rintro ⟨⟨hholds, hfirst, hmost⟩, hall⟩
      exact ⟨hholds, hfirst, fun call' hcall' => ⟨hall call' hcall',
        hmost call' hcall' (hall call' hcall')⟩⟩
    · rintro ⟨hholds, hfirst, hall⟩
      exact ⟨⟨hholds, hfirst, fun call' hcall' _ => (hall call' hcall').2⟩,
        fun call' hcall' => (hall call' hcall').1⟩
  · rw [calls_of_last (rest_of_refused hr)]
    simp only [List.drop_succ_cons, List.drop_nil, List.mem_singleton, forall_eq, hanswer,
      hr, true_implies, false_implies, and_true, List.not_mem_nil, implies_true]

theorem decaying_placed (hw : Placed env w) : Placed env (w.startDecayingAdded item) := by
  have hrecounts : Recounts w (w.startDecayingAdded item) item (w.count item) :=
    startDecayingAdded_recounts
  exact hrecounts.placed hw

theorem notified_of_stays {passOn : PassOn} {o : Option ThingId}
    (h : w.passesOn env c = false) : w.notified env passOn c o = w := by
  cases o with
  | none => rfl
  | some i =>
      refine if_neg fun hpass => ?_
      rw [h] at hpass
      cases hpass.2

/-- Nothing is passed on by a call that makes no other one. -/
theorem outcome_of_stays {passOn : PassOn} (hstays : call.Stays env c)
    (hrest : call.rest env c = none) :
    call.outcome env c passOn = ⟨.noError, (if call.Settles env c then call.settled env c
      else call.merged env c).startDecayingAdded call.item, 0⟩ := by
  unfold AddCall.outcome
  split
  · next hsettles => rw [notified_of_stays (hstays.1 hsettles)]
  · next hsettles => rw [notified_of_stays (hstays.2 hsettles hrest)]

theorem outcome_adds {passOn : PassOn} (hstays : call.Stays env c) (hprice : 0 < price (call.world.thing call.item).id)
    (hw : Placed env call.world) (hitem : Loose call.world call.item) (hc : call.world.Real c)
    (hanswer : call.answer env c = .noError) (hrest : call.rest env c = none) :
    Adds env c price call (n + 1) (call.outcome env c passOn) := by
  rw [outcome_of_stays hstays hrest]
  have hnext : (call.merged env c).nextId = call.world.nextId := merged_nextId hw
  have hreal : (call.merged env c).Real (call.destination env c).cylinder := by
    have h : call.world.Real (call.destination env c).cylinder := queryDestination_real hw hc
    intro k hk
    rw [hnext]
    exact h k hk
  refine ⟨?_, hanswer.symm, fun h => absurd hanswer h, fun _ => ?_, fun c' hc' => ?_, ?_⟩
  · refine decaying_placed ?_
    split
    · next hsettles =>
        obtain ⟨hloose, hswaps⟩ := settled_swaps hw hitem hsettles
        exact hswaps.placed (merged_placed hw) hloose hreal
    · exact merged_placed hw
  swap
  · dsimp only
    rw [startDecayingAdded_valueAt]
    have hne : c' ≠ (call.destination env c).cylinder := fun heq =>
      hc' call List.mem_cons_self heq.symm
    have hmerged := merged_valueAt_ne price hw hne
    split
    · next hsettles =>
        rw [(settled_swaps hw hitem hsettles).2.valueAt_ne price hne, hmerged]
    · exact hmerged
  swap
  · have hdecaying : ∀ v : World, (v.startDecayingAdded call.item).nextId = v.nextId := by
      intro v
      exact startDecayingAdded_recounts.nextId
    dsimp only
    rw [hdecaying]
    split
    · next hsettles => rw [(settled_swaps hw hitem hsettles).2.nextId, hnext]
    · rw [hnext]
  dsimp only
  rw [startDecayingAdded_valueAt]
  have hgrows : ∃ d : Int, Grows (call.world.valueAt price)
      ((if call.Settles env c then call.settled env c else call.merged env c).valueAt price) d ∧
        d ≤ (call.world.worth price call.item : Nat) ∧
        (d = (call.world.worth price call.item : Nat) ↔ call.Holds env c price) := by
    split
    · next hsettles => exact settled_grows hw hitem hprice hsettles
    · next hsettles =>
        have hstacks : call.Stacks env c := by
          by_contra hnot
          exact hsettles fun h => absurd h hnot
        have hall : call.taken env c = call.itemCount := by
          have hle : call.taken env c ≤ call.itemCount := mergeCount_le
          by_contra hne
          by_cases hzero : call.taken env c = 0
          · exact hsettles fun _ => ⟨hzero, by omega⟩
          · have hsome : (call.rest env c).isSome = true := by
              unfold AddCall.rest
              rw [if_pos ⟨hanswer, hstacks, by omega, by omega⟩]
              rfl
            rw [hrest] at hsome
            cases hsome
        obtain ⟨d, hd, hle, hiff⟩ := merged_grows hw hstacks hprice
        rw [hall] at hle hiff
        refine ⟨d, hd, hle, hiff.trans ⟨fun h => ⟨fun _ => ?_, fun h => absurd h hsettles⟩,
          fun h => ?_⟩⟩
        · rw [hall]
          exact h
        · rw [← hall]
          exact h.stack hstacks
  obtain ⟨d, hd, hle, hiff⟩ := hgrows
  rw [whole_of_last hrest hanswer, kept_of_last hrest hanswer]
  simp only [Nat.mul_zero, Nat.cast_zero, Int.add_zero]
  exact ⟨d, hd, hle, hiff, hle, hiff⟩

/-- The call for the rest finds its item and the cylinders in order. -/
theorem rest_called (price : UInt16 → Nat) (hw : Placed env call.world) (hc : call.world.Real c)
    (hrest : call.rest env c = some r) :
    call.Stacks env c ∧ 0 < call.taken env c ∧ call.taken env c < call.itemCount ∧
      Placed env r.world ∧ Loose r.world r.item ∧ r.world.Real c ∧
      r.itemCount = call.itemCount - call.taken env c ∧ call.world.nextId ≤ r.world.nextId ∧
      (r.world.thing r.item).id = (call.world.thing call.item).id ∧
      r.world.valueAt price = (call.merged env c).valueAt price := by
  obtain ⟨hstacks, hpos, hlt, hcount⟩ := rest_itemCount hrest
  obtain ⟨i, -, -, -, hrecounts⟩ := merged_recounts hw hstacks
  have hmerged : Placed env (call.merged env c) := merged_placed hw
  have hnext : (call.merged env c).nextId = call.world.nextId := merged_nextId hw
  unfold AddCall.rest at hrest
  split at hrest
  · cases hrest
    refine ⟨hstacks, hpos, hlt, clone_placed hmerged _ _, clone_loose hmerged _ _,
      fun k hk => ?_, hcount, ?_, ?_, clone_valueAt hmerged _ _ _⟩
    · show k < (call.merged env c).nextId + 1
      rw [hnext]
      exact Nat.lt_succ_of_lt (hc k hk)
    · show call.world.nextId ≤ (call.merged env c).nextId + 1
      rw [hnext]
      exact Nat.le_succ _
    · exact (clone_id _ _).trans (hrecounts.id _)
  · cases hrest

theorem afterRest_adds (hprice : 0 < price (call.world.thing call.item).id)
    (hw : Placed env call.world) (hc : call.world.Real c)
    (hanswer : call.answer env c = .noError) (hrest : call.rest env c = some r) {o : AddOutcome}
    (ho : Adds env c price r (n + 1) o) :
    Adds env c price call (n + 2) (call.afterRest env c o) := by
  obtain ⟨hstacks, hpos, hlt, -, -, -, hcount, hnext, hid, hvalue⟩ :=
    rest_called price hw hc hrest
  refine ⟨decaying_placed ho.placed, hanswer.symm, fun h => absurd hanswer h, fun _ => ?_,
    fun c' hc' => ?_, ?_⟩
  rotate_left
  · rw [calls_of_rest hrest] at hc'
    have hafter : (call.afterRest env c o).world.valueAt price = o.world.valueAt price :=
      startDecayingAdded_valueAt
    have hne : c' ≠ (call.destination env c).cylinder := fun heq =>
      hc' call List.mem_cons_self heq.symm
    have hrest' := ho.elsewhere c' fun call' hcall' => hc' call' (List.mem_cons_of_mem _ hcall')
    rw [hafter, hrest', hvalue, merged_valueAt_ne price hw hne]
  · have hdecaying : (call.afterRest env c o).world.nextId = o.world.nextId :=
      startDecayingAdded_recounts.nextId
    rw [hdecaying]
    exact Nat.le_trans hnext ho.nextId
  obtain ⟨d, hd, hle, hiff⟩ := merged_grows hw hstacks hprice
  have hholds : call.Holds env c price ↔ (call.taken env c = 0 ∨
      (call.world.typeOf env call.item).fluid = false ∧
        ∀ i ∈ (call.destination env c).destItem,
          call.world.count i + call.taken env c < 256) := by
    constructor
    · intro h
      exact h.stack hstacks
    · intro h
      exact ⟨fun _ => h, fun hsettles => absurd (hsettles hstacks).1 (by omega)⟩
  have hsplit : call.world.worth price call.item =
      price (call.world.thing call.item).id * call.taken env c + r.world.worth price r.item := by
    unfold worth
    have hr : r.world.count r.item = call.itemCount - call.taken env c := hcount
    rw [hr, hid, ← Nat.mul_add]
    congr 1
    unfold AddCall.itemCount at hlt ⊢
    omega
  have hafter : (call.afterRest env c o).world.valueAt price = o.world.valueAt price :=
    startDecayingAdded_valueAt
  rw [whole_of_rest hrest hanswer, kept_of_rest hrest hanswer, hafter]
  by_cases hr : r.answer env c = .noError
  · have hnone : (call.afterRest env c o).remainderCount = 0 := if_pos (ho.ret.trans hr)
    obtain ⟨e, he, hele, heiff, -⟩ := ho.grows hr
    rw [hvalue] at he
    simp only [hnone, Nat.mul_zero, Nat.cast_zero, Int.add_zero]
    have hwhole : d + e = (call.world.worth price call.item : Nat) ↔
        call.Holds env c price ∧ r.Whole env c price (n + 1) := by
      rw [hholds, ← hiff, ← heiff, hsplit]
      constructor
      · intro heq
        exact ⟨by omega, by omega⟩
      · rintro ⟨h, h'⟩
        omega
    refine ⟨d + e, hd.trans he, by omega, hwhole, by omega, hwhole.trans ?_⟩
    exact and_congr_right fun _ => ⟨fun h _ => h, fun h => h hr⟩
  · have hworld : o.world.valueAt price = (call.merged env c).valueAt price := by
      rw [ho.refused hr]
      exact hvalue
    have hret : o.ret ≠ .noError := by
      rw [ho.ret]
      exact hr
    have hrem : (call.afterRest env c o).remainderCount = call.itemCount - call.taken env c :=
      if_neg hret
    rw [hworld, hrem]
    have hleft : price (call.world.thing call.item).id * (call.itemCount - call.taken env c) =
        r.world.worth price r.item := by
      have hr' : r.world.count r.item = call.itemCount - call.taken env c := hcount
      unfold worth
      rw [hr', hid]
    have hmore : 0 < r.world.worth price r.item := by
      rw [← hleft]
      exact Nat.mul_pos hprice (by omega)
    refine ⟨d, hd, by omega, ⟨fun heq => ?_, ?_⟩, by omega, ?_⟩
    · omega
    · rintro ⟨-, hwhole⟩
      have hself : r ∈ AddCall.calls env c (n + 1) r := List.mem_cons_self
      exact absurd (hwhole r hself).1 hr
    · rw [hholds, ← hiff, hleft, hsplit]
      constructor
      · intro heq
        exact ⟨by omega, fun h => absurd h hr⟩
      · rintro ⟨heq, -⟩
        omega

/-- `internalAddItem` with enough calls. -/
theorem internalAddItemPassing_adds (passOn : PassOn) (call : AddCall)
    (hprice : 0 < price (call.world.thing call.item).id) (hw : Placed env call.world)
    (hitem : Loose call.world call.item) (hc : call.world.Real c) (hn : call.itemCount < n)
    (hstays : call.AllStay env c n) :
    ∃ r, internalAddItemPassing env passOn n call.world c call.item call.index call.flags =
      some r ∧ Adds env c price call n r := by
  induction n generalizing call with
  | zero => cases hn
  | succ n ih =>
      rw [internalAddItemPassing_succ]
      by_cases hanswer : call.answer env c = .noError
      swap
      · exact ⟨_, if_pos hanswer, hw, rfl, fun _ => rfl, fun h => absurd h hanswer,
          fun _ _ => rfl, Nat.le_refl _⟩
      rw [if_neg (not_not_intro hanswer)]
      have hself : call ∈ AddCall.calls env c (n + 1) call := List.mem_cons_self
      cases hrest : call.rest env c with
      | none =>
          exact ⟨call.outcome env c passOn, rfl,
            outcome_adds (hstays call hself hanswer) hprice hw hitem hc hanswer hrest⟩
      | some r =>
          obtain ⟨-, hpos, hlt, hplaced, hloose, hreal, hcount, -, hid, -⟩ :=
            rest_called price hw hc hrest
          have hr : r.itemCount < n := by omega
          have hstays' : r.AllStay env c n := by
            intro call' hcall'
            refine hstays call' ?_
            rw [calls_of_rest hrest]
            exact List.mem_cons_of_mem _ hcall'
          obtain ⟨o, ho, hadds⟩ := ih r (hid ▸ hprice) hplaced hloose hreal hr hstays'
          refine ⟨call.afterRest env c o, ?_, ?_⟩
          · rw [Option.elim_some, ho]
            rfl
          · cases n with
            | zero => cases hr
            | succ n => exact afterRest_adds hprice hw hc hanswer hrest hadds

/-- Without teleports, trash holders and mailboxes nothing is passed on. -/
theorem allStay_of_quiet (hquiet : ∀ w pos, (env.tileFlags w pos).passesOn = false) :
    call.AllStay env c n := by
  have hcylinder : ∀ (w : World) (c : Cylinder), w.passesOn env c = false := by
    intro w c
    cases c with
    | tile pos => exact hquiet w pos
    | container k => rfl
    | player p => rfl
  intro call' _ _
  exact ⟨fun _ => hcylinder _ _, fun _ _ => hcylinder _ _⟩

/-! ## The count of the type -/

end Calls

/-- Type 1 is a ground, type 2 a coin. -/
def grassAndCoins (id : UInt16) : ItemType :=
  { id := id, pickupable := id = 2, moveable := id = 2, stackable := id = 2
    group := if id = 1 then .ground else .none }

def meadowEnv : Env where
  items := grassAndCoins
  tileFlags _ _ := {}
  classicEquipmentSlots := false
  onPlayerEquip _ _ _ _ := .noError
  notInvited _ _ := false
  newDuration _ := 0
  depth := 4

def meadowPos : Position := ⟨100, 100, 7⟩

/-- A tile of grass with 80 coins on it; more grass and 50 coins lie nowhere. -/
def meadow : World where
  thing i :=
    match i with
    | 0 => ⟨1, Item.bare, some (.tile meadowPos), false, [], 1, none⟩
    | 1 => ⟨2, Item.bare.setItemCount 80, some (.tile meadowPos), false, [], 1, none⟩
    | 2 => ⟨1, Item.bare, none, false, [], 1, none⟩
    | 3 => ⟨2, Item.bare.setItemCount 50, none, false, [], 1, none⟩
    | _ => ⟨0, Item.bare, none, false, [], 1, none⟩
  tile pos := if pos = meadowPos then some ⟨some 0, [], [1], []⟩ else none
  player _ :=
    { inventory := fun _ => none
      tradeItem := none
      position := meadowPos
      capacity := 0
      cannotPickupItem := false
      hasInfiniteCapacity := true }
  nextId := 4

theorem meadow_contents {c : Cylinder} {i : ThingId} (hi : i ∈ meadow.contents c) :
    c = .tile meadowPos ∧ (i = 0 ∨ i = 1) := by
  cases c with
  | tile pos =>
      by_cases hpos : pos = meadowPos
      · subst hpos
        have hlist : meadow.contents (.tile meadowPos) = [0, 1] := rfl
        rw [hlist] at hi
        refine ⟨rfl, ?_⟩
        simpa using hi
      · simp only [contents, meadow, if_neg hpos, List.not_mem_nil] at hi
  | container k =>
      have hnil : (meadow.thing k).itemlist = [] := by
        rcases k with _ | _ | _ | _ | k <;> rfl
      simp only [contents, hnil, List.not_mem_nil] at hi
  | player p =>
      obtain ⟨slot, -, hslot⟩ := List.mem_filterMap.mp hi
      cases hslot

theorem meadow_placed : Placed meadowEnv meadow where
  parent c i hi := by
    obtain ⟨rfl, rfl | rfl⟩ := meadow_contents hi <;> rfl
  nodup c := by
    cases c with
    | tile pos =>
        by_cases hpos : pos = meadowPos
        · subst hpos
          exact (by decide : [0, 1].Nodup)
        · have hnil : meadow.contents (.tile pos) = [] := by
            simp only [contents, meadow, if_neg hpos]
          rw [hnil]
          exact List.nodup_nil
    | container k =>
        have hnil : meadow.contents (.container k) = [] := by
          rcases k with _ | _ | _ | _ | k <;> rfl
        rw [hnil]
        exact List.nodup_nil
    | player p => exact List.nodup_nil
  fresh c i hi := by
    obtain ⟨-, rfl | rfl⟩ := meadow_contents hi
    · exact (by decide : 0 < 4)
    · exact (by decide : 1 < 4)
  blank k hk := by
    rcases k with _ | _ | _ | _ | k <;> rfl
  real i c hp := by
    rcases i with _ | _ | _ | _ | i <;> cases hp <;> rintro k ⟨⟩
  sorted pos t ht := by
    by_cases hpos : pos = meadowPos
    · simp only [meadow, if_pos hpos, Option.some.injEq] at ht
      subst ht
      refine ⟨fun i hi => ?_, fun i hi => ?_, fun i hi => ?_⟩
      · cases hi
        rfl
      · cases hi
      · obtain rfl := List.mem_singleton.mp hi
        exact Bool.false_ne_true
    · simp only [meadow, if_neg hpos, reduceCtorEq] at ht

end World

end Bruxo
