import Bruxo.Lib.Runs
import Mathlib.Data.List.Nodup
import Mathlib.Data.List.InsertIdx

/-!
# The login queue

The wait lists of `protocolgame.cpp`: players who find the server full get a slot, and an
entry with a timeout in one of two lists, the one for premium players being served first.
`clientLogin` looks for the entry of a player who tries again.

A `size_t` is a number without bound, the clock is read by `cleanupList` and `clientLogin`
each for itself.
-/

namespace Bruxo.LoginQueue

/-- (timeout, player guid) -/
abbrev WaitList := List (Int × UInt32)

inductive ListName where
  | priorityWaitList | waitList
  deriving DecidableEq, Repr

structure WaitLists where
  priorityWaitList : WaitList
  waitList : WaitList
  deriving DecidableEq, Repr

namespace WaitLists

def get (q : WaitLists) : ListName → WaitList
  | .priorityWaitList => q.priorityWaitList
  | .waitList => q.waitList

def set (q : WaitLists) (name : ListName) (l : WaitList) : WaitLists :=
  match name with
  | .priorityWaitList => { q with priorityWaitList := l }
  | .waitList => { q with waitList := l }

end WaitLists

/-! ## Logging in -/

/-- An attempt to log in: the player, the settings and the clock as `clientLogin` finds
them. -/
structure Attempt where
  guid : UInt32
  canAlwaysLogin : Bool
  accountType : Nat
  isPremium : Bool
  maxPlayers : UInt32
  playersOnline : Nat
  priorityCleanupTime : Int
  cleanupTime : Int
  time : Int

def ACCOUNT_TYPE_GAMEMASTER : Nat := 4

def getWaitTime (slot : Nat) : Int :=
  if slot < 5 then 5
  else if slot < 10 then 10
  else if slot < 20 then 20
  else if slot < 50 then 60
  else 120

def getTimeout (slot : Nat) : Int := getWaitTime slot + 15

def cleanupList (time : Int) (list : WaitList) : WaitList :=
  list.filter fun entry => ¬entry.1 ≤ time

/-- The entry that has the guid and the slot that goes with it. -/
def findClient (q : WaitLists) (guid : UInt32) : Option (ListName × Nat × Nat) :=
  match q.priorityWaitList.findIdx? fun it => it.2 = guid with
  | some k => some (.priorityWaitList, k, q.priorityWaitList.length - k + 1)
  | none =>
      match q.waitList.findIdx? fun it => it.2 = guid with
      | some k =>
          some (.waitList, k, q.priorityWaitList.length + (q.waitList.length - k) + 1)
      | none => none

/-- An `int64_t` as the `uint32_t` of an entry. -/
def toGuid (v : Int) : UInt32 := UInt32.ofNat (v % 4294967296).toNat

namespace Attempt

variable (a : Attempt) (q : WaitLists)

/-- The lists after `cleanupList`. -/
def cleanup : WaitLists where
  priorityWaitList := cleanupList a.priorityCleanupTime q.priorityWaitList
  waitList := cleanupList a.cleanupTime q.waitList

def isExempt : Bool := a.canAlwaysLogin || a.accountType ≥ ACCOUNT_TYPE_GAMEMASTER

/-- There is no limit, or nobody waits and there is room. -/
def isDirect : Bool :=
  a.maxPlayers = 0 || (q.priorityWaitList.isEmpty && q.waitList.isEmpty &&
    a.playersOnline < a.maxPlayers.toNat)

/-- The part of `clientLogin` for a player who has no entry. -/
def enqueue : Nat × WaitLists :=
  if a.isPremium then
    let currentSlot := q.priorityWaitList.length + 1
    (currentSlot,
      { q with
        priorityWaitList :=
          q.priorityWaitList ++ [(a.time + getTimeout currentSlot * 1000, a.guid)] })
  else
    let currentSlot := q.priorityWaitList.length + q.waitList.length + 1
    (currentSlot,
      { q with waitList := q.waitList ++ [(a.time + getTimeout currentSlot * 1000, a.guid)] })

/-- The part of `clientLogin` for a player who has an entry. It writes the timeout over the
guid of the entry. -/
def retry (name : ListName) (k currentSlot : Nat) : Nat × WaitLists :=
  if a.playersOnline + currentSlot ≤ a.maxPlayers.toNat then
    (0, q.set name ((q.get name).eraseIdx k))
  else
    (currentSlot,
      q.set name ((q.get name).modify k fun it =>
        (it.1, toGuid (a.time + getTimeout currentSlot * 1000))))

/-- The slot, 0 for direct access, and the lists after the attempt. -/
def clientLogin : Nat × WaitLists :=
  if a.isExempt then (0, q)
  else
    let q := a.cleanup q
    if a.isDirect q then (0, q)
    else
      match findClient q a.guid with
      | some (name, k, currentSlot) => a.retry q name k currentSlot
      | none => a.enqueue q

end Attempt

/-! ## The queue of players -/

namespace WaitLists

variable (q : WaitLists)

/-- The players that wait, in the order in which they are served. -/
def guids : List UInt32 := q.priorityWaitList.map Prod.snd ++ q.waitList.map Prod.snd

/-- The players ahead of all those of a list. -/
def ahead : ListName → Nat
  | .priorityWaitList => 0
  | .waitList => q.priorityWaitList.length

end WaitLists

/-- What an attempt owes to the players that wait; `cleanup` leaves those whose entries have
not timed out. -/
structure InOrder (q : WaitLists) (a : Attempt) : Prop where
  /-- The slot tells how many wait ahead of the player. -/
  slot : (a.clientLogin q).1 ≠ 0 →
    (a.clientLogin q).2.guids[(a.clientLogin q).1 - 1]? = some a.guid
  once : (a.clientLogin q).2.guids.Nodup
  /-- A player who tries again, and is not let in, waits where it did. -/
  keeps : a.guid ∈ (a.cleanup q).guids → (a.clientLogin q).1 ≠ 0 →
    (a.clientLogin q).2.guids = (a.cleanup q).guids
  /-- Nobody gets ahead of another one. -/
  order : ((a.clientLogin q).2.guids.filter fun g => g ∈ (a.cleanup q).guids).Sublist q.guids
  /-- Nobody is lost but by a timeout or by being let in. -/
  gone : ∀ g ∈ (a.cleanup q).guids, g ∉ (a.clientLogin q).2.guids →
    g = a.guid ∧ (a.clientLogin q).1 = 0

/-- Of a player who has an entry and is not let in: it stands in the middle of its list, and
the new timeout happens to read as the guid. -/
def Attempt.KeepsGuid (a : Attempt) (q : WaitLists) : Prop :=
  ∀ name k currentSlot, a.isExempt = false → a.maxPlayers ≠ 0 →
    findClient (a.cleanup q) a.guid = some (name, k, currentSlot) →
    a.maxPlayers.toNat < a.playersOnline + currentSlot →
    ((a.cleanup q).get name).length = 2 * k ∧
      toGuid (a.time + getTimeout currentSlot * 1000) = a.guid

namespace WaitLists

variable {q : WaitLists} {name : ListName} {k : Nat}

/-- One list with what is around it. -/
theorem exists_guids_set (q : WaitLists) (name : ListName) :
    ∃ pre post, pre.length = q.ahead name ∧ q.guids = pre ++ ((q.get name).map Prod.snd ++ post) ∧
      ∀ l, (q.set name l).guids = pre ++ (l.map Prod.snd ++ post) := by
  cases name with
  | priorityWaitList =>
      exact ⟨[], q.waitList.map Prod.snd, rfl, rfl, fun l => rfl⟩
  | waitList =>
      refine ⟨q.priorityWaitList.map Prod.snd, [], List.length_map _, ?_, fun l => ?_⟩
      · rw [List.append_nil]
        rfl
      · rw [List.append_nil]
        rfl

theorem getElem?_guids (hk : k < (q.get name).length) :
    q.guids[q.ahead name + k]? = (q.get name)[k]?.map Prod.snd := by
  obtain ⟨pre, post, hpre, hq, -⟩ := q.exists_guids_set name
  rw [hq, ← hpre, List.getElem?_append_right (Nat.le_add_right ..), Nat.add_sub_cancel_left,
    List.getElem?_append_left (by rw [List.length_map]; exact hk), List.getElem?_map]

theorem guids_eraseIdx (hk : k < (q.get name).length) :
    (q.set name ((q.get name).eraseIdx k)).guids = q.guids.eraseIdx (q.ahead name + k) := by
  obtain ⟨pre, post, hpre, hq, hset⟩ := q.exists_guids_set name
  rw [hset, hq, ← hpre, List.eraseIdx_append_of_length_le (Nat.le_add_right ..),
    Nat.add_sub_cancel_left,
    List.eraseIdx_append_of_lt_length (by rw [List.length_map]; exact hk), List.eraseIdx_map]

theorem map_snd_modify (l : WaitList) (k : Nat) (v : UInt32) :
    (l.modify k fun it => (it.1, v)).map Prod.snd = (l.map Prod.snd).set k v := by
  induction l generalizing k with
  | nil => cases k <;> rfl
  | cons it l ih =>
      cases k with
      | zero => rfl
      | succ k => exact congrArg (it.2 :: ·) (ih k)

theorem guids_modify (hk : k < (q.get name).length) (v : UInt32) :
    (q.set name ((q.get name).modify k fun it => (it.1, v))).guids =
      q.guids.set (q.ahead name + k) v := by
  obtain ⟨pre, post, hpre, hq, hset⟩ := q.exists_guids_set name
  rw [hset, hq, ← hpre, List.set_append_right _ _ (Nat.le_add_right ..),
    Nat.add_sub_cancel_left, List.set_append_left _ _ (by rw [List.length_map]; exact hk),
    map_snd_modify]

end WaitLists

/-! ## What `findClient` finds -/

variable {q : WaitLists} {guid : UInt32}

theorem findClient_eq_some {name : ListName} {k currentSlot : Nat}
    (h : findClient q guid = some (name, k, currentSlot)) :
    k < (q.get name).length ∧ q.guids[q.ahead name + k]? = some guid ∧
      currentSlot = q.ahead name + ((q.get name).length - k) + 1 := by
  have found : ∀ {l : WaitList}, (l.findIdx? fun it => it.2 = guid) = some k →
      k < l.length ∧ l[k]?.map Prod.snd = some guid := by
    intro l hl
    obtain ⟨hk, hguid, _⟩ := List.findIdx?_eq_some_iff_getElem.mp hl
    refine ⟨hk, ?_⟩
    rw [List.getElem?_eq_getElem hk]
    exact congrArg some (of_decide_eq_true hguid)
  rw [findClient] at h
  split at h
  · next hl =>
      obtain ⟨rfl, rfl, rfl⟩ := by simpa using h
      obtain ⟨hk, hguid⟩ := found hl
      exact ⟨hk, (WaitLists.getElem?_guids hk).trans hguid, by simp [WaitLists.ahead, WaitLists.get]⟩
  · split at h
    · next hl =>
        obtain ⟨rfl, rfl, rfl⟩ := by simpa using h
        obtain ⟨hk, hguid⟩ := found hl
        exact ⟨hk, (WaitLists.getElem?_guids hk).trans hguid, rfl⟩
    · cases h

theorem findClient_eq_none (h : findClient q guid = none) : guid ∉ q.guids := by
  have missing : ∀ {l : WaitList}, (l.findIdx? fun it => it.2 = guid) = none →
      guid ∉ l.map Prod.snd := by
    intro l hl hmem
    obtain ⟨it, hit, rfl⟩ := List.mem_map.mp hmem
    have := List.findIdx?_eq_none_iff.mp hl it hit
    simp at this
  rw [findClient] at h
  split at h
  · cases h
  · next hpriority =>
      split at h
      · cases h
      · next hwait =>
          rw [WaitLists.guids, List.mem_append]
          rintro (hmem | hmem)
          · exact missing hpriority hmem
          · exact missing hwait hmem

/-! ## One attempt -/

variable {a : Attempt}

theorem guids_of_isDirect (h : a.isDirect q = true) : a.maxPlayers = 0 ∨ q.guids = [] := by
  simp only [Attempt.isDirect, Bool.or_eq_true, Bool.and_eq_true, decide_eq_true_eq,
    List.isEmpty_iff] at h
  rcases h with hmax | ⟨⟨hpriority, hwait⟩, _⟩
  · exact .inl hmax
  · right
    rw [WaitLists.guids, hpriority, hwait]
    rfl

theorem isDirect_of_maxPlayers (h : a.maxPlayers = 0) : a.isDirect q = true := by
  rw [Attempt.isDirect, h]
  rfl

theorem clientLogin_cases (q : WaitLists) (a : Attempt) :
    a.isExempt = true ∧ a.clientLogin q = (0, q) ∨
    a.isDirect (a.cleanup q) = true ∧ a.clientLogin q = (0, a.cleanup q) ∨
    (a.isExempt = false ∧ a.maxPlayers ≠ 0 ∧ ∃ name k currentSlot,
      findClient (a.cleanup q) a.guid = some (name, k, currentSlot) ∧
      a.clientLogin q = a.retry (a.cleanup q) name k currentSlot) ∨
    findClient (a.cleanup q) a.guid = none ∧ a.clientLogin q = a.enqueue (a.cleanup q) := by
  cases hexempt : a.isExempt with
  | true => exact .inl ⟨rfl, if_pos hexempt⟩
  | false =>
      right
      cases hdirect : a.isDirect (a.cleanup q) with
      | true =>
          refine .inl ⟨rfl, ?_⟩
          simp only [Attempt.clientLogin, hexempt, hdirect]
          rfl
      | false =>
          have hmax : a.maxPlayers ≠ 0 := by
            intro hmax
            rw [isDirect_of_maxPlayers hmax] at hdirect
            cases hdirect
          right
          cases hfind : findClient (a.cleanup q) a.guid with
          | some found =>
              obtain ⟨name, k, currentSlot⟩ := found
              refine .inl ⟨rfl, hmax, name, k, currentSlot, rfl, ?_⟩
              simp only [Attempt.clientLogin, hexempt, hdirect, hfind]
              rfl
          | none =>
              refine .inr ⟨rfl, ?_⟩
              simp only [Attempt.clientLogin, hexempt, hdirect, hfind]
              rfl

theorem cleanup_sublist : (a.cleanup q).guids.Sublist q.guids :=
  (List.filter_sublist.map _).append (List.filter_sublist.map _)

/-- An attempt that gives no slot and leaves all the entries that have not timed out. -/
theorem InOrder.of_direct {q' : WaitLists} (hq : q.guids.Nodup)
    (heq : a.clientLogin q = (0, q')) (hsub : q'.guids.Sublist q.guids)
    (hkept : ∀ g ∈ (a.cleanup q).guids, g ∈ q'.guids ∨ g = a.guid) : InOrder q a where
  slot h := absurd (congrArg Prod.fst heq) h
  once := by
    rw [heq]
    exact hq.sublist hsub
  keeps _ h := absurd (congrArg Prod.fst heq) h
  order := by
    rw [heq]
    exact List.filter_sublist.trans hsub
  gone g hg hgone := by
    rw [heq] at hgone ⊢
    rcases hkept g hg with h | h
    · exact absurd h hgone
    · exact ⟨h, rfl⟩

theorem mem_eraseIdx_or {l : List UInt32} {i : Nat} {g h : UInt32} (hi : l[i]? = some h)
    (hg : g ∈ l) : g ∈ l.eraseIdx i ∨ g = h := by
  obtain ⟨j, hj⟩ := List.mem_iff_getElem?.mp hg
  by_cases hij : j = i
  · subst hij
    exact .inr (Option.some.inj (hj.symm.trans hi))
  · exact .inl (List.mem_eraseIdx_iff_getElem?.mpr ⟨j, hij, hj⟩)

/-- An attempt that gives a slot to a player who did not wait. -/
theorem InOrder.of_enqueue {pre post : List UInt32} (hq : q.guids.Nodup)
    (hnew : a.guid ∉ (a.cleanup q).guids) (hold : (a.cleanup q).guids = pre ++ post)
    (hslot : (a.clientLogin q).1 = pre.length + 1)
    (hq' : (a.clientLogin q).2.guids = pre ++ a.guid :: post) : InOrder q a where
  slot _ := by
    rw [hslot, hq', Nat.add_sub_cancel, List.getElem?_append_right (Nat.le_refl _), Nat.sub_self,
      List.getElem?_cons_zero]
  once := by
    rw [hq', List.nodup_middle, ← hold, List.nodup_cons]
    exact ⟨hnew, hq.sublist cleanup_sublist⟩
  keeps h := absurd h hnew
  order := by
    rw [hq', List.filter_append, List.filter_cons_of_neg (by simpa using hnew),
      ← List.filter_append, ← hold]
    exact List.filter_sublist.trans cleanup_sublist
  gone g hg hgone := by
    rw [hq'] at hgone
    rw [hold] at hg
    refine absurd ?_ hgone
    rw [List.mem_append, List.mem_cons]
    rcases List.mem_append.mp hg with hg | hg
    · exact .inl hg
    · exact .inr (.inr hg)

theorem exists_enqueue (a : Attempt) (q : WaitLists) :
    ∃ pre post, q.guids = pre ++ post ∧ (a.enqueue q).1 = pre.length + 1 ∧
      (a.enqueue q).2.guids = pre ++ a.guid :: post := by
  cases hpremium : a.isPremium with
  | true =>
      refine ⟨q.priorityWaitList.map Prod.snd, q.waitList.map Prod.snd, rfl, ?_, ?_⟩
      · rw [Attempt.enqueue, if_pos hpremium, List.length_map]
      · rw [Attempt.enqueue, if_pos hpremium]
        simp [WaitLists.guids]
  | false =>
      refine ⟨q.guids, [], (List.append_nil _).symm, ?_, ?_⟩
      · rw [Attempt.enqueue, hpremium, if_neg Bool.false_ne_true, WaitLists.guids,
          List.length_append, List.length_map, List.length_map]
      · rw [Attempt.enqueue, hpremium, if_neg Bool.false_ne_true]
        simp [WaitLists.guids]

/-- A player who waits and is not let in keeps its place if its guid is not overwritten. -/
theorem InOrder.of_vain {name : ListName} {k currentSlot : Nat} (hq : q.guids.Nodup)
    (hfind : findClient (a.cleanup q) a.guid = some (name, k, currentSlot))
    (heq : (a.clientLogin q).1 = currentSlot)
    (hsame : (a.clientLogin q).2.guids = (a.cleanup q).guids)
    (hmiddle : ((a.cleanup q).get name).length = 2 * k) : InOrder q a := by
  obtain ⟨hk, hguid, hslot⟩ := findClient_eq_some hfind
  exact
    { slot := fun _ => by
        rw [hsame, heq, ← hguid]
        congr 1
        omega
      once := hsame ▸ hq.sublist cleanup_sublist
      keeps := fun _ _ => hsame
      order := List.filter_sublist.trans (hsame ▸ cleanup_sublist)
      gone := fun g hg hgone => absurd (hsame ▸ hg) hgone }

theorem clientLogin_vain {name : ListName} {k currentSlot : Nat}
    (heq : a.clientLogin q = a.retry (a.cleanup q) name k currentSlot)
    (hfull : a.maxPlayers.toNat < a.playersOnline + currentSlot)
    (hk : k < ((a.cleanup q).get name).length) :
    (a.clientLogin q).1 = currentSlot ∧
      (a.clientLogin q).2.guids = (a.cleanup q).guids.set ((a.cleanup q).ahead name + k)
        (toGuid (a.time + getTimeout currentSlot * 1000)) := by
  rw [heq, Attempt.retry, if_neg (Nat.not_le.mpr hfull)]
  exact ⟨rfl, WaitLists.guids_modify hk _⟩

theorem InOrder.of_keepsGuid (hq : q.guids.Nodup) (h : a.KeepsGuid q) : InOrder q a := by
  rcases clientLogin_cases q a with ⟨_, heq⟩ | ⟨_, heq⟩ |
      ⟨hexempt, hmax, name, k, currentSlot, hfind, heq⟩ | ⟨hfind, heq⟩
  · exact .of_direct hq heq (List.Sublist.refl _) fun g hg => .inl (cleanup_sublist.subset hg)
  · exact .of_direct hq heq cleanup_sublist fun g hg => .inl hg
  · obtain ⟨hk, hguid, hslot⟩ := findClient_eq_some hfind
    by_cases hroom : a.playersOnline + currentSlot ≤ a.maxPlayers.toNat
    · rw [Attempt.retry, if_pos hroom] at heq
      refine .of_direct hq heq ?_ fun g hg => ?_
      · rw [WaitLists.guids_eraseIdx hk]
        exact (List.eraseIdx_sublist _ _).trans cleanup_sublist
      · rw [WaitLists.guids_eraseIdx hk]
        exact mem_eraseIdx_or hguid hg
    · have hfull := Nat.lt_of_not_le hroom
      obtain ⟨hmiddle, hkeeps⟩ := h name k currentSlot hexempt hmax hfind hfull
      obtain ⟨hfirst, hguids⟩ := clientLogin_vain heq hfull hk
      rw [hkeeps] at hguids
      refine .of_vain hq hfind hfirst (hguids.trans ?_) hmiddle
      obtain ⟨hi, hget⟩ := List.getElem?_eq_some_iff.mp hguid
      rw [← hget, List.set_getElem_self]
  · obtain ⟨pre, post, hold, hslot, hguids⟩ := exists_enqueue a (a.cleanup q)
    rw [← heq] at hslot hguids
    exact .of_enqueue hq (findClient_eq_none hfind) hold hslot hguids

theorem InOrder.keepsGuid (hq : q.guids.Nodup) (h : InOrder q a) : a.KeepsGuid q := by
  intro name k currentSlot hexempt hmax hfind hfull
  obtain ⟨hk, hguid, hslot⟩ := findClient_eq_some hfind
  have hmem : a.guid ∈ (a.cleanup q).guids := List.mem_of_getElem? hguid
  have heq : a.clientLogin q = a.retry (a.cleanup q) name k currentSlot := by
    rcases clientLogin_cases q a with ⟨hexempt', _⟩ | ⟨hdirect, _⟩ |
        ⟨_, _, name', k', currentSlot', hfind', heq⟩ | ⟨hfind', _⟩
    · rw [hexempt] at hexempt'
      cases hexempt'
    · rcases guids_of_isDirect hdirect with hmax' | hnone
      · exact absurd hmax' hmax
      · rw [hnone] at hmem
        cases hmem
    · obtain ⟨rfl, rfl, rfl⟩ := by simpa using hfind.symm.trans hfind'
      exact heq
    · rw [hfind] at hfind'
      cases hfind'
  obtain ⟨hfirst, hguids⟩ := clientLogin_vain heq hfull hk
  have hne : (a.clientLogin q).1 ≠ 0 := by
    rw [hfirst, hslot]
    exact Nat.succ_ne_zero _
  have hsame := h.keeps hmem hne
  obtain ⟨hi, hget⟩ := List.getElem?_eq_some_iff.mp hguid
  constructor
  · have hplace := h.slot hne
    rw [hsame, hfirst] at hplace
    have hnodup := hq.sublist (cleanup_sublist (a := a))
    have := (List.getElem?_inj hi hnodup).mp (hguid.trans hplace.symm)
    omega
  · have hread : (a.clientLogin q).2.guids[(a.cleanup q).ahead name + k]? = some a.guid :=
      hsame ▸ hguid
    rw [hguids, List.getElem?_set_self hi] at hread
    exact Option.some.inj hread

/-! ## Every run -/

def start : WaitLists := ⟨[], []⟩

def run (q : WaitLists) (as : List Attempt) : WaitLists :=
  Runs.run (fun q a => (a.clientLogin q).2) q as

/-- The queue is in order at every attempt of a run, if and only if no entry of a player who
waits is overwritten. -/
theorem login_queue_order (as : List Attempt) :
    (∀ pre a post, as = pre ++ a :: post → InOrder (run start pre) a) ↔
    ∀ pre a post, as = pre ++ a :: post → a.KeepsGuid (run start pre) := by
  have hiff : ∀ (q : WaitLists) (a : Attempt), q.guids.Nodup →
      (InOrder q a ↔ a.KeepsGuid q) :=
    fun q a hq => ⟨fun h => h.keepsGuid hq, fun h => .of_keepsGuid hq h⟩
  have hstart : start.guids.Nodup := List.nodup_nil
  exact Runs.throughout_iff (fun q a hq h => ((hiff q a hq).mpr h).once) hiff hstart as

/-- A player who tries at a time when the one place of the server is taken. -/
def latecomer (time : Int) : Attempt where
  guid := 7
  canAlwaysLogin := false
  accountType := 1
  isPremium := false
  maxPlayers := 1
  playersOnline := 1
  priorityCleanupTime := time
  cleanupTime := time
  time := time

/-- The player who waits alone is told the second slot when it tries again, and its entry is
gone. -/
theorem latecomer_loses_entry :
    ¬∀ (as pre : List Attempt) (a : Attempt) (post : List Attempt),
      as = pre ++ a :: post → InOrder (run start pre) a := by
  intro h
  have horder := h [latecomer 0, latecomer 5000] [latecomer 0] (latecomer 5000) [] rfl
  have honce : (run start [latecomer 0]).guids.Nodup := by decide
  have hmiddle := horder.keepsGuid honce .waitList 0 2 rfl (by decide) (by decide) (by decide)
  exact absurd hmiddle.1 (by decide)

end Bruxo.LoginQueue
