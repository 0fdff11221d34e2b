import Bruxo.Mailbox

/-!
# Where the mail is

The mail is followed through `sendItem` by its identity: in all places together it is found once
before (`Posted`), and `Conserved` says that it is found once after, where it was or in the locker
of the receiver.

The save of an offline receiver decides (`mail_conserved_iff`). What a save writes is all or
nothing (`savePlayer_stored`), and a locker comes back from its rows as it was, if its number is
one of a locker for `loadPlayer` (`readTop_saveItems`).
-/

namespace Bruxo.Mail

open ItemForest

variable {ι ρ : Type}

/-! ## Occurrences -/

/-- The items of an identity, at the top or inside a container. -/
def occurrences (uid : Nat) : ItemList ι → List (Tree ι)
  | .nil => []
  | .item a rest =>
      if a.uid = some uid then .item a :: occurrences uid rest else occurrences uid rest
  | .container b itemlist rest =>
      (if b.uid = some uid then [.container b itemlist] else []) ++
        (occurrences uid itemlist ++ occurrences uid rest)

/-- The items inside. -/
def Tree.inside : Tree ι → ItemList ι
  | .item _ => .nil
  | .container _ itemlist => itemlist

section

variable {uid : Nat}

theorem occurrences_cons {t : Tree ι} (h : t.head.uid = some uid) (rest : ItemList ι) :
    occurrences uid (t.cons rest) =
      t :: (occurrences uid t.inside ++ occurrences uid rest) := by
  cases t with
  | item a => exact if_pos h
  | container b itemlist =>
      have hb : b.uid = some uid := h
      rw [Tree.cons, occurrences, if_pos hb]
      rfl

theorem occurrences_append (first second : ItemList ι) :
    occurrences uid (append first second) =
      occurrences uid first ++ occurrences uid second := by
  induction first with
  | nil => rfl
  | item a rest ih =>
      rw [append, occurrences, occurrences, ih]
      split <;> rfl
  | container b itemlist rest _ ih =>
      rw [append, occurrences, occurrences, ih, List.append_assoc, List.append_assoc]

theorem occurrences_chest : occurrences uid (chest : ItemList ι) = [] := rfl

theorem occurrences_withoutDepot {items : ItemList ι} (h : occurrences uid items = []) :
    occurrences uid (withoutDepot items) = [] := by
  induction items with
  | nil => rfl
  | item a rest ih =>
      rw [occurrences] at h
      rw [withoutDepot]
      by_cases ha : a.uid = some uid
      · rw [if_pos ha] at h
        cases h
      · rw [if_neg ha] at h
        split
        · rw [occurrences, if_neg ha, ih h]
        · exact ih h
  | container b itemlist rest _ ih =>
      rw [occurrences] at h
      obtain ⟨hb, hin⟩ := List.append_eq_nil_iff.mp h
      obtain ⟨hitems, hrest⟩ := List.append_eq_nil_iff.mp hin
      rw [withoutDepot]
      split
      · rw [occurrences, hb, hitems, ih hrest]
        rfl
      · exact ih hrest

theorem uid_reloadItem (f : Format (Attributes ι) (Attributes ι) ρ) (a : Item ι) :
    ((tagged f).reloadItem a).uid = a.uid := by
  obtain ⟨a', ha⟩ := f.item_back a.toAttributes
  simp only [Format.reloadItem, tagged, ha]
  rfl

theorem uid_reloadContainer (f : Format (Attributes ι) (Attributes ι) ρ) (b : Item ι) :
    ((tagged f).reloadContainer b).uid = b.uid := by
  obtain ⟨b', hb⟩ := f.container_back b.toAttributes
  simp only [Format.reloadContainer, tagged, hb]
  rfl

theorem occurrences_reload (f : Format (Attributes ι) (Attributes ι) ρ) (items : ItemList ι) :
    occurrences uid (items.reload (tagged f)) =
      (occurrences uid items).map (Tree.reload (tagged f)) := by
  induction items with
  | nil => rfl
  | item a rest ih =>
      rw [Items.reload, occurrences, occurrences, uid_reloadItem, ih]
      split <;> rfl
  | container b itemlist rest ihc ih =>
      rw [Items.reload, occurrences, occurrences, uid_reloadContainer, ihc, ih, List.map_append,
        List.map_append]
      split <;> rfl

theorem removeThing_append {first : ItemList ι} (hfirst : occurrences uid first = [])
    {t : Tree ι} (h : t.head.uid = some uid) (rest : ItemList ι) :
    removeThing (some uid) (append first (t.cons rest)) = append first rest := by
  induction first with
  | nil => cases t <;> exact if_pos h
  | item a first ih =>
      rw [occurrences] at hfirst
      by_cases ha : a.uid = some uid
      · rw [if_pos ha] at hfirst
        cases hfirst
      · rw [if_neg ha] at hfirst
        rw [append, removeThing, if_neg ha, ih hfirst]
        rfl
  | container b itemlist first _ ih =>
      rw [occurrences] at hfirst
      obtain ⟨hb, hin⟩ := List.append_eq_nil_iff.mp hfirst
      have hne : b.uid ≠ some uid := fun hb' => by simp [hb'] at hb
      rw [append, removeThing, if_neg hne, ih (List.append_eq_nil_iff.mp hin).2]
      rfl

theorem hasThing_append {t : Tree ι} (h : t.head.uid = some uid) (first rest : ItemList ι) :
    hasThing (some uid) (append first (t.cons rest)) = true := by
  induction first with
  | nil => cases t <;> simp_all [append, Tree.cons, hasThing, Tree.head]
  | item a first ih => rw [append, hasThing, ih, Bool.or_true]
  | container b itemlist first _ ih => rw [append, hasThing, ih, Bool.or_true]

theorem updateThing_cons (t : Tree ι) (newId : UInt16) (rest : ItemList ι) :
    updateThing t.head.uid newId (t.cons rest) = (t.setID newId).cons rest := by
  cases t <;> exact if_pos rfl

end

/-! ## Places -/

inductive Place where
  | tile
  /-- in the locker of an online player -/
  | memory (name : List UInt8) (depotId : Nat)
  /-- in the locker that the rows of a player make -/
  | stored (guid depotId : Nat)
  deriving DecidableEq

variable (f : Format (Attributes ι) (Attributes ι) ρ)

/-- What is in a locker, and nothing if there is none. -/
def itemsOf (lockers : Lockers ι) (depotId : Nat) : ItemList ι :=
  match AssocList.find depotId lockers with
  | some locker => locker.itemlist
  | none => .nil

def Game.at (game : Game ι ρ) : Place → ItemList ι
  | .tile => game.tile
  | .memory name depotId =>
      match game.mappedPlayerNames name with
      | some lockers => itemsOf lockers depotId
      | none => .nil
  | .stored guid depotId =>
      readTop (tagged f) .depot (game.record guid).lockerItems depotId

/-- The items of an identity are these, in this place, and no others anywhere. -/
def Game.Only (game : Game ι ρ) (uid : Nat) (place : Place) (image : Tree ι) : Prop :=
  ∀ p, occurrences uid (game.at f p) = if p = place then [image] else []

/-- Mail on the tile of the mailbox, which is nowhere else. -/
structure Game.Posted (game : Game ι ρ) where
  before : ItemList ι
  item : Tree ι
  after : ItemList ι
  uid : Nat
  head_uid : item.head.uid = some uid
  canSend : canSend item = true
  tile : game.tile = append before (item.cons after)
  only : game.Only f uid .tile item

/-- The mail as it is in a locker. -/
def Tree.stamped (item : Tree ι) : Tree ι := item.setID (item.head.id + 1)

/-- Where the mail is to arrive, and as what. -/
inductive Destination (game : Game ι ρ) (item : Tree ι) : Place → Tree ι → Prop where
  | online {receiver : List UInt8} {depotId : UInt32}
      (receives : getReceiver game.towns item = some (receiver, depotId))
      (isOnline : (game.mappedPlayerNames (receiver.map toLower)).isSome) :
      Destination game item (.memory (receiver.map toLower) depotId.toNat) item.stamped
  | offline {receiver : List UInt8} {depotId : UInt32} {guid : Nat}
      (receives : getReceiver game.towns item = some (receiver, depotId))
      (isOffline : game.mappedPlayerNames (receiver.map toLower) = none)
      (isKnown : game.guidByName receiver = some guid) :
      Destination game item (.stored guid depotId.toNat) (item.stamped.reload (tagged f))

/-- The mail is where it was, unchanged, or it arrived. -/
def Game.Conserved (game after : Game ι ρ) (uid : Nat) (item : Tree ι) : Prop :=
  after.Only f uid .tile item ∨
    ∃ place image, Destination f game item place image ∧ after.Only f uid place image

/-! ## The move -/

/-- What the type table says of mail: it may be moved, and there is a stamped kind of it. -/
theorem itemType_mail {item : Tree ι} (h : canSend item = true) :
    (itemType item.head.id).pickupable = true ∧ (itemType item.head.id).moveable = true ∧
      item.head.id ≠ item.head.id + 1 ∧ (itemType (item.head.id + 1)).id ≠ 0 := by
  rw [canSend, Bool.or_eq_true, decide_eq_true_eq, decide_eq_true_eq] at h
  rcases h with h | h
  · rw [h]
    exact ⟨rfl, rfl, by decide, by decide⟩
  · rw [h]
    exact ⟨rfl, rfl, by decide, by decide⟩

/-- Whether the locker of the depot takes another item. -/
def HasRoom (depotId : Nat) (lockers : Lockers ι) : Prop :=
  (getDepotLocker depotId lockers).1.itemlist.length < maxSize

/-- The lockers with the mail in one of them. -/
def withMail (depotId : Nat) (lockers : Lockers ι) (item : Tree ι) : Lockers ι :=
  AssocList.set depotId
    { itemlist := item.stamped.cons (getDepotLocker depotId lockers).1.itemlist, save := true }
    (getDepotLocker depotId lockers).2

section

variable {f} {game : Game ι ρ} (posted : game.Posted f)

namespace Game.Posted

/-- Nothing beside and nothing in the mail is the mail. -/
theorem alone : occurrences posted.uid posted.before = [] ∧
    occurrences posted.uid posted.item.inside = [] ∧
    occurrences posted.uid posted.after = [] := by
  have htile := posted.only .tile
  rw [if_pos rfl, Game.at, posted.tile, occurrences_append, occurrences_cons posted.head_uid]
    at htile
  have hlen := congrArg List.length htile
  simp only [List.length_append, List.length_cons, List.length_nil] at hlen
  refine ⟨List.eq_nil_of_length_eq_zero ?_, List.eq_nil_of_length_eq_zero ?_,
    List.eq_nil_of_length_eq_zero ?_⟩ <;> omega

theorem deliver_full {depotId : Nat} {lockers : Lockers ι} (h : ¬ HasRoom depotId lockers) :
    deliver depotId game.tile lockers posted.item =
      (false, game.tile, (getDepotLocker depotId lockers).2) := by
  obtain ⟨hpickupable, _⟩ := itemType_mail posted.canSend
  have hadd : queryAdd (getDepotLocker depotId lockers).1.itemlist posted.item =
      .containerNotEnoughRoom := by
    rw [queryAdd, hpickupable]
    exact if_pos (Nat.le_of_not_lt h)
  rw [deliver]
  simp only [internalMoveItem, hadd]

theorem deliver_room {depotId : Nat} {lockers : Lockers ι} (h : HasRoom depotId lockers) :
    deliver depotId game.tile lockers posted.item =
      (true, append posted.before posted.after, withMail depotId lockers posted.item) := by
  obtain ⟨hpickupable, hmoveable, hnew, htype⟩ := itemType_mail posted.canSend
  obtain ⟨hbefore, _, _⟩ := posted.alone
  have hroom : maxSize - (getDepotLocker depotId lockers).1.itemlist.length ≠ 0 :=
    Nat.sub_ne_zero_of_lt h
  have hadd : queryAdd (getDepotLocker depotId lockers).1.itemlist posted.item = .noError := by
    rw [queryAdd, hpickupable]
    exact if_neg (Nat.not_le_of_lt h)
  have hthing : hasThing posted.item.head.uid game.tile = true := by
    rw [posted.tile, posted.head_uid, hasThing_append posted.head_uid]
  have hremove : queryRemove game.tile posted.item
      (maxSize - (getDepotLocker depotId lockers).1.itemlist.length) = .noError := by
    rw [queryRemove, hthing, hmoveable]
    exact if_neg hroom
  have htile : removeThing posted.item.head.uid game.tile = append posted.before posted.after := by
    rw [posted.tile, posted.head_uid, removeThing_append hbefore posted.head_uid]
  have htransform : transformItem (posted.item.cons (getDepotLocker depotId lockers).1.itemlist)
      posted.item (posted.item.head.id + 1) =
        posted.item.stamped.cons (getDepotLocker depotId lockers).1.itemlist := by
    rw [transformItem, if_neg (not_or.mpr ⟨hnew, htype⟩), updateThing_cons]
    rfl
  rw [deliver]
  simp only [internalMoveItem, hadd, queryMaxCount, if_neg hroom, hremove, htile, htransform,
    ne_eq, not_true_eq_false, false_and, if_false]
  rfl

end Game.Posted

end

/-! ## The lockers -/

theorem itemsOf_set (depotId : Nat) (locker : DepotLocker ι) (lockers : Lockers ι) (id : Nat) :
    itemsOf (AssocList.set depotId locker lockers) id =
      if id = depotId then locker.itemlist else itemsOf lockers id := by
  rw [itemsOf, AssocList.find_set]
  by_cases h : id = depotId
  · rw [if_pos h, if_pos h]
  · rw [if_neg h, if_neg h]
    rfl

section

variable {uid depotId : Nat} {lockers : Lockers ι}

/-- A locker that is created for a request has nothing of an identity in it. -/
theorem occurrences_getDepotLocker (depotId : Nat)
    (h : ∀ id, occurrences uid (itemsOf lockers id) = []) :
    occurrences uid (getDepotLocker depotId lockers).1.itemlist = [] ∧
      ∀ id, occurrences uid (itemsOf (getDepotLocker depotId lockers).2 id) = [] := by
  rw [getDepotLocker]
  cases hfind : AssocList.find depotId lockers with
  | some locker =>
      have := h depotId
      rw [itemsOf, hfind] at this
      exact ⟨this, h⟩
  | none =>
      refine ⟨occurrences_chest, fun id => ?_⟩
      rw [itemsOf_set]
      split
      · exact occurrences_chest
      · exact h id

theorem sorted_getDepotLocker (h : AssocList.Sorted lockers) :
    AssocList.Sorted (getDepotLocker depotId lockers).2 := by
  rw [getDepotLocker]
  split
  · exact h
  · exact h.set depotId _

theorem mem_getDepotLocker {e : Nat × DepotLocker ι}
    (h : e ∈ (getDepotLocker depotId lockers).2) : e.1 = depotId ∨ e ∈ lockers := by
  rw [getDepotLocker] at h
  split at h
  · exact .inr h
  · exact (AssocList.mem_set h).imp_left (congrArg Prod.fst)

theorem itemsOf_withMail (item : Tree ι) (id : Nat) :
    itemsOf (withMail depotId lockers item) id =
      if id = depotId then item.stamped.cons (getDepotLocker depotId lockers).1.itemlist
      else itemsOf (getDepotLocker depotId lockers).2 id := itemsOf_set _ _ _ _

theorem occurrences_stamped {item : Tree ι} (huid : item.head.uid = some uid)
    (hinside : occurrences uid item.inside = []) {rest : ItemList ι}
    (hrest : occurrences uid rest = []) :
    occurrences uid (item.stamped.cons rest) = [item.stamped] := by
  have hstamped : item.stamped.head.uid = some uid := by cases item <;> exact huid
  have hin : item.stamped.inside = item.inside := by cases item <;> rfl
  rw [occurrences_cons hstamped, hin, hinside, hrest]
  rfl

theorem occurrences_withMail {item : Tree ι} (huid : item.head.uid = some uid)
    (hinside : occurrences uid item.inside = [])
    (h : ∀ id, occurrences uid (itemsOf lockers id) = []) (id : Nat) :
    occurrences uid (itemsOf (withMail depotId lockers item) id) =
      if id = depotId then [item.stamped] else [] := by
  obtain ⟨hlocker, hlockers⟩ := occurrences_getDepotLocker depotId h
  rw [itemsOf_withMail]
  split
  · exact occurrences_stamped huid hinside hlocker
  · exact hlockers id

theorem withoutDepot_cons {t : Tree ι} (h : t.head.id ≠ ITEM_DEPOT) (rest : ItemList ι) :
    withoutDepot (t.cons rest) = t.cons (withoutDepot rest) := by
  cases t <;> exact if_pos h

/-- Mail is no chest, and so it is written. -/
theorem occurrences_written {item : Tree ι} (hmail : canSend item = true)
    (huid : item.head.uid = some uid) (hinside : occurrences uid item.inside = [])
    (h : ∀ id, occurrences uid (itemsOf lockers id) = []) (id : Nat) :
    occurrences uid (withoutDepot (itemsOf (withMail depotId lockers item) id)) =
      if id = depotId then [item.stamped] else [] := by
  obtain ⟨hlocker, hlockers⟩ := occurrences_getDepotLocker depotId h
  rw [itemsOf_withMail]
  split
  · have hid : item.stamped.head.id ≠ ITEM_DEPOT := by
      have hhead : item.stamped.head.id = item.head.id + 1 := by cases item <;> rfl
      rw [canSend, Bool.or_eq_true, decide_eq_true_eq, decide_eq_true_eq] at hmail
      rw [hhead]
      rcases hmail with h | h <;> rw [h] <;> decide
    rw [withoutDepot_cons hid]
    exact occurrences_stamped huid hinside (occurrences_withoutDepot hlocker)
  · exact occurrences_withoutDepot (hlockers id)

theorem needsSave_withMail (item : Tree ι) : needsSave (withMail depotId lockers item) = true := by
  have hfind : AssocList.find depotId (withMail depotId lockers item) = some
      { itemlist := item.stamped.cons (getDepotLocker depotId lockers).1.itemlist
        save := true } := by
    rw [withMail, AssocList.find_set, if_pos rfl]
  exact List.any_eq_true.mpr ⟨_, AssocList.mem_of_find hfind, rfl⟩

theorem sorted_withMail (h : AssocList.Sorted lockers) (item : Tree ι) :
    AssocList.Sorted (withMail depotId lockers item) := (sorted_getDepotLocker h).set depotId _

theorem mem_withMail {item : Tree ι} {e : Nat × DepotLocker ι}
    (h : e ∈ withMail depotId lockers item) : e.1 = depotId ∨ e ∈ lockers := by
  rcases AssocList.mem_set h with rfl | h
  · exact .inl rfl
  · exact mem_getDepotLocker h

end

/-! ## The rows -/

theorem pidOf_eq {depotId : Nat} (h : depotId < 100) : pidOf depotId = depotId :=
  Int32.toInt_ofNat_of_lt (by omega)

theorem pidOf_inj {m n : Nat} (hm : m < 2 ^ 32) (hn : n < 2 ^ 32) (h : pidOf m = pidOf n) :
    m = n := by
  rw [pidOf, pidOf, Int32.toInt_ofNat', Int32.toInt_ofNat'] at h
  have := congrArg (· % ((Int32.size : Nat) : Int)) h
  simp only [Int.bmod_emod, Int32.size] at this
  omega

/-- What is written of lockers that are sorted by their numbers. -/
def blocks (lockers : Lockers ι) (hsorted : AssocList.Sorted lockers)
    (hbound : ∀ e ∈ lockers, e.1 < 2 ^ 32) : Blocks .depot (Item ι) (Item ι) where
  list := itemBlocks lockers
  nodup := by
    rw [itemBlocks, List.map_map, List.nodup_iff_pairwise_ne, List.pairwise_map]
    refine hsorted.imp_of_mem fun hx hy hlt heq => ?_
    exact absurd (pidOf_inj (hbound _ hx) (hbound _ hy) heq) (Nat.ne_of_lt hlt)
  slots h := nomatch h

section

variable {f}

theorem readTop_itemBlocks {lockers : Lockers ι} (hsorted : AssocList.Sorted lockers)
    (hkeys : ∀ e ∈ lockers, e.1 < 100) (id : Nat) :
    readTop (tagged f) .depot (saveItems (tagged f) (itemBlocks lockers)) id =
      (withoutDepot (itemsOf lockers id)).reload (tagged f) := by
  have hbound : ∀ e ∈ lockers, e.1 < 2 ^ 32 := fun e he => by have := hkeys e he; omega
  have htop : ∀ b ∈ (blocks lockers hsorted hbound).list, b.2 ≠ .nil →
      Table.isTop .depot b.1 := by
    intro b hb _
    obtain ⟨e, he, rfl⟩ := List.mem_map.mp hb
    have := hkeys e he
    simp only [Table.isTop, pidOf_eq this, Bool.and_eq_true, decide_eq_true_eq]
    omega
  cases hfind : AssocList.find id lockers with
  | some locker =>
      have hmem := AssocList.mem_of_find hfind
      have := readTop_saveItems (f := tagged f) (blocks lockers hsorted hbound) htop
        (List.mem_map_of_mem hmem)
      rw [pidOf_eq (hkeys _ hmem)] at this
      rw [itemsOf, hfind]
      exact this
  | none =>
      rw [itemsOf, hfind]
      refine readTop_saveItems_of_notMem (f := tagged f) (blocks lockers hsorted hbound) htop
        fun hmem => ?_
      obtain ⟨b, hb, hid⟩ := List.mem_map.mp hmem
      obtain ⟨e, he, rfl⟩ := List.mem_map.mp hb
      have hid : e.1 = id := by
        rw [pidOf_eq (hkeys e he)] at hid
        exact Int.ofNat.inj hid
      rw [← hid, hsorted.find_of_mem he] at hfind
      cases hfind

/-- The rows of a locker of a greater number are not read as those of a locker. -/
theorem readTop_itemBlocks_eq_nil {lockers : Lockers ι} (hsorted : AssocList.Sorted lockers)
    (hbound : ∀ e ∈ lockers, e.1 < 2 ^ 32) {id : Nat} (hid : 100 ≤ id) :
    readTop (tagged f) .depot (saveItems (tagged f) (itemBlocks lockers)) id = .nil := by
  have htop : Table.isTop .depot (id : Int) = false := by
    simp only [Table.isTop, Bool.and_eq_false_iff, decide_eq_false_iff_not]
    omega
  have hnil : (loadTable (tagged f) .depot (saveItems (tagged f) (itemBlocks lockers))).itemlist
      (.top id) = [] :=
    itemlist_top_of_not_isTop (blocks lockers hsorted hbound) (by simp) htop
  rw [readTop, hnil]
  rfl

end

/-! ## The receiver who is offline -/

section

variable {f} {rows : List (Row (Option Nat × ρ))}

theorem mem_loadLockers {e : Nat × DepotLocker ι} (h : e ∈ loadLockers f rows) :
    e.1 < 100 ∧ e.2.itemlist = append (readTop (tagged f) .depot rows e.1) chest := by
  obtain ⟨pid, hpid, he⟩ := List.mem_filterMap.mp h
  split at he
  · cases he
  · cases he
    exact ⟨List.mem_range.mp hpid, rfl⟩

theorem sorted_loadLockers : AssocList.Sorted (loadLockers f rows) := by
  refine List.pairwise_filterMap.mpr (List.pairwise_lt_range.imp fun hlt e he e' he' => ?_)
  split at he
  · cases he
  · split at he'
    · cases he'
    · cases he
      cases he'
      exact hlt

theorem occurrences_loadLockers {uid : Nat}
    (h : ∀ id : Nat, occurrences uid (readTop (tagged f) .depot rows id) = []) (id : Nat) :
    occurrences uid (itemsOf (loadLockers f rows) id) = [] := by
  rw [itemsOf]
  split
  · next locker hfind =>
      rw [(mem_loadLockers (AssocList.mem_of_find hfind)).2, occurrences_append, h,
        occurrences_chest]
      rfl
  · rfl

end

/-- The delivery to a receiver who is offline, up to the save of him. -/
structure OfflineDelivery (game : Game ι ρ) (outcomes : Outcomes ρ) (item : Tree ι) where
  receiver : List UInt8
  depotId : UInt32
  guid : Nat
  lockers : Lockers ι
  receives : getReceiver game.towns item = some (receiver, depotId)
  addressed : ¬ (receiver = [] ∨ depotId = 0)
  isOffline : game.mappedPlayerNames (receiver.map toLower) = none
  loaded : loadPlayerByName f game outcomes receiver = some (guid, lockers)
  room : HasRoom depotId.toNat lockers

namespace OfflineDelivery

variable {f} {game : Game ι ρ} {outcomes : Outcomes ρ} {item : Tree ι}
  (d : OfflineDelivery f game outcomes item)

/-- The lockers that are saved. -/
def delivered : Lockers ι := withMail d.depotId.toNat d.lockers item

/-- The locker is one that is read back, and the save writes it: it is not left out for the column
`save`, and no statement fails. -/
def Written : Prop :=
  d.depotId.toNat < 100 ∧ (game.record d.guid).save ≠ 0 ∧
    AllSucceed f outcomes.script d.delivered
      (outcomes.connection (game.record d.guid).lockerItems)

theorem guidByName : game.guidByName d.receiver = some d.guid ∧
    ∃ rows, d.lockers = loadLockers f rows ∧
      (rows = (game.record d.guid).lockerItems ∨ rows = []) := by
  have hloaded := d.loaded
  rw [loadPlayerByName] at hloaded
  split at hloaded
  · split at hloaded
    · next guid hguid =>
        split at hloaded
        · obtain ⟨rfl, hlockers⟩ := Prod.mk.inj (Option.some.inj hloaded)
          refine ⟨hguid, _, hlockers.symm, ?_⟩
          split
          · exact .inl rfl
          · exact .inr rfl
        · cases hloaded
    · cases hloaded
  · cases hloaded

/-- After the delivery. -/
def result (posted : game.Posted f) (d : OfflineDelivery f game outcomes posted.item) :
    Game ι ρ :=
  { game with
    tile := append posted.before posted.after
    record := Function.update game.record d.guid
      ((game.record d.guid).saved f outcomes d.delivered) }

theorem sendItem_eq (posted : game.Posted f) (d : OfflineDelivery f game outcomes posted.item) :
    sendItem f game outcomes posted.item = (true, d.result posted) := by
  rw [sendItem, d.receives]
  dsimp only
  rw [if_neg d.addressed, d.isOffline]
  dsimp only
  rw [d.loaded]
  dsimp only
  rw [posted.deliver_room d.room]
  rfl

theorem sorted_delivered : AssocList.Sorted d.delivered := by
  obtain ⟨_, rows, hlockers, _⟩ := d.guidByName
  rw [delivered, hlockers]
  exact sorted_withMail sorted_loadLockers item

theorem mem_delivered {e : Nat × DepotLocker ι} (h : e ∈ d.delivered) :
    e.1 = d.depotId.toNat ∨ e.1 < 100 := by
  obtain ⟨_, rows, hlockers, _⟩ := d.guidByName
  rw [delivered, hlockers] at h
  exact (mem_withMail h).imp_right fun h => (mem_loadLockers h).1

theorem occurrences_lockers (posted : game.Posted f)
    (d : OfflineDelivery f game outcomes posted.item) (id : Nat) :
    occurrences posted.uid (itemsOf d.lockers id) = [] := by
  obtain ⟨_, rows, hlockers, hrows⟩ := d.guidByName
  rw [hlockers]
  refine occurrences_loadLockers (fun id => ?_) id
  rcases hrows with rfl | rfl
  · exact posted.only (.stored d.guid id)
  · rfl

/-- In the places that a save does not reach nothing of the mail is left. -/
theorem occurrences_result (posted : game.Posted f)
    (d : OfflineDelivery f game outcomes posted.item) {p : Place}
    (hp : ∀ id, p ≠ .stored d.guid id) :
    occurrences posted.uid ((d.result posted).at f p) = [] := by
  cases p with
  | tile =>
      obtain ⟨hbefore, _, hafter⟩ := posted.alone
      rw [Game.at, result, occurrences_append, hbefore, hafter]
      rfl
  | memory name id => exact posted.only (.memory name id)
  | stored guid id =>
      have hguid : guid ≠ d.guid := fun heq => hp id (heq ▸ rfl)
      have hrecord : (d.result posted).record guid = game.record guid :=
        Function.update_of_ne hguid _ _
      rw [Game.at, hrecord]
      exact posted.only (.stored guid id)

theorem at_stored (posted : game.Posted f) (d : OfflineDelivery f game outcomes posted.item)
    (id : Nat) : (d.result posted).at f (.stored d.guid id) =
      readTop (tagged f) .depot ((game.record d.guid).saved f outcomes d.delivered).lockerItems
        id := by
  have hrecord : (d.result posted).record d.guid =
      (game.record d.guid).saved f outcomes d.delivered := Function.update_self _ _ _
  rw [Game.at, hrecord]

theorem lockerItems_saved (posted : game.Posted f)
    (d : OfflineDelivery f game outcomes posted.item) :
    ((game.record d.guid).save ≠ 0 ∧
        AllSucceed f outcomes.script d.delivered
          (outcomes.connection (game.record d.guid).lockerItems) ∧
        ((game.record d.guid).saved f outcomes d.delivered).lockerItems =
          saveItems (tagged f) (itemBlocks d.delivered)) ∨
      (¬ d.Written ∧ ((game.record d.guid).saved f outcomes d.delivered).lockerItems =
        (game.record d.guid).lockerItems) := by
  have hneeds : needsSave d.delivered = true := needsSave_withMail posted.item
  have hidle : (outcomes.connection (game.record d.guid).lockerItems).server.saved = none := rfl
  rcases savePlayer_stored f outcomes.script (game.record d.guid).save d.delivered hidle with
    ⟨hsave, hall, hrows⟩ | h
  · rw [written, if_pos hneeds] at hrows
    exact .inl ⟨hsave, hall, hrows⟩
  · exact .inr ⟨fun hw => h.1 hw.2, h.2⟩

/-- Where the rows are written and read back, the mail is in the locker. -/
theorem only_of_written (posted : game.Posted f)
    (d : OfflineDelivery f game outcomes posted.item) (h : d.Written) :
    (d.result posted).Only f posted.uid (.stored d.guid d.depotId.toNat)
      (posted.item.stamped.reload (tagged f)) := by
  intro p
  by_cases hp : ∃ id, p = .stored d.guid id
  · obtain ⟨id, rfl⟩ := hp
    have hkeys : ∀ e ∈ d.delivered, e.1 < 100 := fun e he =>
      (d.mem_delivered he).elim (fun heq => heq ▸ h.1) fun hlt => hlt
    have hrows := ((d.lockerItems_saved posted).resolve_right fun hnot => hnot.1 h).2.2
    rw [d.at_stored posted, hrows, readTop_itemBlocks d.sorted_delivered hkeys,
      occurrences_reload, delivered, occurrences_written posted.canSend posted.head_uid
        posted.alone.2.1 (d.occurrences_lockers posted)]
    by_cases hid : id = d.depotId.toNat
    · rw [if_pos hid, if_pos (congrArg (Place.stored d.guid) hid)]
      rfl
    · rw [if_neg hid, if_neg fun heq => hid (Place.stored.inj heq).2]
      rfl
  · have hp' : ∀ id, p ≠ .stored d.guid id := fun id h => hp ⟨id, h⟩
    rw [d.occurrences_result posted hp', if_neg (hp' _)]

/-- Otherwise the place where it is to arrive has nothing. -/
theorem missing_of_not_written (posted : game.Posted f)
    (d : OfflineDelivery f game outcomes posted.item) (h : ¬ d.Written) :
    occurrences posted.uid ((d.result posted).at f (.stored d.guid d.depotId.toNat)) = [] := by
  rw [d.at_stored posted]
  rcases d.lockerItems_saved posted with ⟨hsave, hall, hrows⟩ | ⟨_, hrows⟩
  · have hdepot : 100 ≤ d.depotId.toNat := Nat.le_of_not_lt fun hlt => h ⟨hlt, hsave, hall⟩
    have hbound : ∀ e ∈ d.delivered, e.1 < 2 ^ 32 := by
      intro e he
      have := d.depotId.toNat_lt
      rcases d.mem_delivered he with heq | hlt <;> omega
    rw [hrows, readTop_itemBlocks_eq_nil d.sorted_delivered hbound hdepot]
    rfl
  · rw [hrows]
    exact posted.only (.stored d.guid d.depotId.toNat)

theorem conserved_iff (posted : game.Posted f)
    (d : OfflineDelivery f game outcomes posted.item) :
    game.Conserved f (d.result posted) posted.uid posted.item ↔ d.Written := by
  constructor
  · intro hconserved
    by_contra hnot
    rcases hconserved with honly | ⟨place, image, hdest, honly⟩
    · have htile := honly .tile
      rw [if_pos rfl, d.occurrences_result posted fun id h => by cases h] at htile
      cases htile
    · have hplace := honly place
      rw [if_pos rfl] at hplace
      cases hdest with
      | online _ _ =>
          rw [d.occurrences_result posted fun id h => by cases h] at hplace
          cases hplace
      | offline hreceives _ hknown =>
          obtain ⟨rfl, rfl⟩ := Prod.mk.inj (Option.some.inj (hreceives.symm.trans d.receives))
          obtain rfl := Option.some.inj (hknown.symm.trans d.guidByName.1)
          rw [d.missing_of_not_written posted hnot] at hplace
          cases hplace
  · intro hwritten
    exact .inr ⟨_, _, .offline d.receives d.isOffline d.guidByName.1,
      d.only_of_written posted hwritten⟩

end OfflineDelivery

/-! ## Conservation -/

section

variable {f} {game : Game ι ρ}

theorem occurrences_memory (posted : game.Posted f) {name : List UInt8} {lockers : Lockers ι}
    (h : game.mappedPlayerNames name = some lockers) (id : Nat) :
    occurrences posted.uid (itemsOf lockers id) = [] := by
  have := posted.only (.memory name id)
  rw [Game.at, h] at this
  exact this

/-- The lockers of a player in memory are all that changes, and the tile. -/
def Game.withLockers (game : Game ι ρ) (tile : ItemList ι) (name : List UInt8)
    (lockers : Lockers ι) : Game ι ρ :=
  { game with
    tile := tile
    mappedPlayerNames := Function.update game.mappedPlayerNames name (some lockers) }

theorem at_withLockers (tile : ItemList ι) (name : List UInt8) (lockers : Lockers ι) (p : Place) :
    (game.withLockers tile name lockers).at f p =
      match p with
      | .tile => tile
      | .memory name' id => if name' = name then itemsOf lockers id else game.at f p
      | .stored _ _ => game.at f p := by
  cases p with
  | tile => rfl
  | stored guid id => rfl
  | memory name' id =>
      by_cases h : name' = name
      · subst h
        simp only [Game.at, Game.withLockers, Function.update_self, if_true]
      · simp only [Game.at, Game.withLockers, Function.update_of_ne h, if_neg h]

/-- In memory the mail arrives with the move. -/
theorem only_withMail (posted : game.Posted f) {name : List UInt8} {lockers : Lockers ι}
    (h : game.mappedPlayerNames name = some lockers) (depotId : Nat) :
    (game.withLockers (append posted.before posted.after) name
      (withMail depotId lockers posted.item)).Only f posted.uid (.memory name depotId)
        posted.item.stamped := by
  obtain ⟨hbefore, hinside, hafter⟩ := posted.alone
  intro p
  rw [at_withLockers]
  cases p with
  | tile =>
      dsimp only
      rw [occurrences_append, hbefore, hafter, if_neg fun heq => by cases heq]
      rfl
  | stored guid id =>
      rw [if_neg fun heq => by cases heq]
      exact posted.only (.stored guid id)
  | memory name' id =>
      dsimp only
      by_cases hname : name' = name
      · subst hname
        rw [if_pos rfl, occurrences_withMail posted.head_uid hinside (occurrences_memory posted h)]
        by_cases hid : id = depotId
        · rw [if_pos hid, if_pos (congrArg _ hid)]
        · rw [if_neg hid, if_neg fun heq => hid (Place.memory.inj heq).2]
      · rw [if_neg hname, if_neg fun heq => hname (Place.memory.inj heq).1]
        exact posted.only (.memory name' id)

/-- A locker that was created, and has no room, leaves the mail where it was. -/
theorem only_getDepotLocker (posted : game.Posted f) {name : List UInt8} {lockers : Lockers ι}
    (h : game.mappedPlayerNames name = some lockers) (depotId : Nat) :
    (game.withLockers game.tile name (getDepotLocker depotId lockers).2).Only f posted.uid .tile
      posted.item := by
  intro p
  rw [at_withLockers]
  cases p with
  | tile => exact posted.only .tile
  | stored guid id => exact posted.only (.stored guid id)
  | memory name' id =>
      dsimp only
      split
      · exact (occurrences_getDepotLocker depotId (occurrences_memory posted h)).2 id
      · exact posted.only (.memory name' id)

/-- All other ends of `sendItem`. -/
theorem conserved_of_not_offline (outcomes : Outcomes ρ) (posted : game.Posted f)
    (hno : OfflineDelivery f game outcomes posted.item → False) :
    game.Conserved f (sendItem f game outcomes posted.item).2 posted.uid posted.item := by
  rw [sendItem]
  cases hreceives : getReceiver game.towns posted.item with
  | none => exact .inl posted.only
  | some address =>
      obtain ⟨receiver, depotId⟩ := address
      dsimp only
      split
      · exact .inl posted.only
      · next haddressed =>
          cases honline : game.mappedPlayerNames (receiver.map toLower) with
          | some lockers =>
              dsimp only
              by_cases hroom : HasRoom depotId.toNat lockers
              · rw [posted.deliver_room hroom]
                exact .inr ⟨_, _, .online hreceives (by rw [honline]; rfl),
                  only_withMail posted honline depotId.toNat⟩
              · rw [posted.deliver_full hroom]
                exact .inl (only_getDepotLocker posted honline depotId.toNat)
          | none =>
              dsimp only
              cases hloaded : loadPlayerByName f game outcomes receiver with
              | none => exact .inl posted.only
              | some player =>
                  obtain ⟨guid, lockers⟩ := player
                  by_cases hroom : HasRoom depotId.toNat lockers
                  · exact (hno ⟨receiver, depotId, guid, lockers, hreceives, haddressed, honline,
                      hloaded, hroom⟩).elim
                  · dsimp only
                    rw [posted.deliver_full hroom]
                    exact .inl posted.only

end

/-- Mail is lost exactly where the receiver is offline and has room, and the rows of his lockers
are not written or not read back. -/
theorem mail_conserved_iff (game : Game ι ρ) (outcomes : Outcomes ρ) (posted : game.Posted f) :
    game.Conserved f (sendItem f game outcomes posted.item).2 posted.uid posted.item ↔
      ∀ d : OfflineDelivery f game outcomes posted.item, d.Written := by
  constructor
  · intro hconserved d
    rw [d.sendItem_eq posted] at hconserved
    exact (d.conserved_iff posted).mp hconserved
  · intro hwritten
    by_cases hd : Nonempty (OfflineDelivery f game outcomes posted.item)
    · obtain ⟨d⟩ := hd
      rw [d.sendItem_eq posted]
      exact (d.conserved_iff posted).mpr (hwritten d)
    · exact conserved_of_not_offline outcomes posted fun d => hd ⟨d⟩

/-! ## A letter to Ann in Thais, who is offline -/

def plain : Format (Attributes Unit) (Attributes Unit) (Attributes Unit ⊕ Attributes Unit) where
  saveItem := .inl
  saveContainer := .inr
  load := some
  item_back a := ⟨a, rfl⟩
  container_back b := ⟨b, rfl⟩

def ann : List UInt8 := [97, 110, 110]
def thais : List UInt8 := [116, 104, 97, 105, 115]

def letter : Tree Unit :=
  .item { id := ITEM_LETTER, text := ann ++ [newline] ++ thais, others := [], uid := some 1 }

def postOffice : Game Unit (Attributes Unit ⊕ Attributes Unit) where
  tile := letter.cons .nil
  towns := [{ id := 2, name := thais }]
  mappedPlayerNames _ := none
  guidByName _ := some 7
  record _ := { save := 1, loads := true, lockerItems := [] }

/-- The database answers until the letter is in the locker, and then as it is told. -/
def answering (ok : Bool) :
    Outcomes (Attributes Unit ⊕ Attributes Unit) where
  selectPlayer := true
  selectLockers := true
  statements _ := ok
  maxPacketSize := 1000
  script := { lastlogin := "", before := [], lockers := "", depots := [], after := [],
              text := fun _ => "" }

def postedLetter : postOffice.Posted plain where
  before := .nil
  item := letter
  after := .nil
  uid := 1
  head_uid := rfl
  canSend := by decide
  tile := rfl
  only p := by cases p <;> rfl

def toAnn (ok : Bool) : OfflineDelivery plain postOffice (answering ok) letter where
  receiver := ann
  depotId := 2
  guid := 7
  lockers := loadLockers plain []
  receives := by decide
  addressed := by decide
  isOffline := rfl
  loaded := rfl
  room := by
    have hnone : loadLockers plain ([] : List (Row (Option Nat × _))) = [] := rfl
    rw [HasRoom, hnone]
    decide

/-- The letter arrives if the database answers. -/
theorem mail_conserved_iff_answered :
    postOffice.Conserved plain (sendItem plain postOffice (answering true) letter).2 1 letter := by
  refine (mail_conserved_iff plain postOffice (answering true) postedLetter).mpr fun d => ?_
  have haddress := Option.some.inj (d.receives.symm.trans (toAnn true).receives)
  have hdepot : d.depotId = 2 := (Prod.mk.inj haddress).2
  have hsave : (postOffice.record d.guid).save = 1 := rfl
  exact ⟨by rw [hdepot]; decide, by rw [hsave]; decide, fun _ _ => rfl⟩

/-- If it does not, the letter is nowhere. -/
theorem letter_lost :
    ¬ postOffice.Conserved plain (sendItem plain postOffice (answering false) letter).2 1
      letter := by
  intro hconserved
  have hsend : sendItem plain postOffice (answering false) letter = _ :=
    (toAnn false).sendItem_eq postedLetter
  rw [hsend] at hconserved
  obtain ⟨_, _, hall⟩ := ((toAnn false).conserved_iff postedLetter).mp hconserved
  exact Bool.false_ne_true (hall 0 (Nat.zero_lt_succ _))

end Bruxo.Mail
