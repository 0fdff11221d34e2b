import Bruxo.AddItem
import Bruxo.Decay
import Bruxo.Lib.Runs

/-!
# Making money

`Game::addMoney` (`game.cpp`). Each kind of coin is given as often as it goes into what is left of
the amount, in stacks of a hundred at most; a stack that the cylinder refuses is put on its tile.

The number of the coins is a `uint32_t`, and that of a stack is taken from the low 16 bits of it:
from 65536 coins on the loop comes to a multiple of 65536, and takes stacks of none from then on.
-/

namespace Bruxo

namespace World

open Growth
open ContainerWeight (substitute)

/-! ## Coins -/

/-- `Items::currencyItems`, a map in descending order of the worths; a type whose worth the map
has is worth that. -/
structure Currency where
  worth : UInt16 → Nat
  currencyItems : List (Nat × UInt16)
  sorted : currencyItems.Pairwise fun a b => b.1 < a.1
  worth_eq : ∀ e ∈ currencyItems, worth e.2 = e.1

/-- `Item::CreateItem` -/
def createItem (env : Env) (type count : UInt16) : Option Thing :=
  let it := env.items type
  let item (id count : UInt16) : Thing :=
    { id := id, data := Decay.newData env.items id count (env.newDuration id), parent := none,
      isContainer := false, itemlist := [], maxSize := 0 }
  if it.group = .deprecated then none
  else
    let count := if it.stackable && count == 0 then 1 else count
    if it.id ≠ 0 then
      if it.isDepot then some { item type 0 with isContainer := true, maxSize := 30 }
      else if it.isContainer then
        some { item type 0 with isContainer := true, maxSize := it.maxItems }
      else if it.isTeleport || it.isMagicField || it.isDoor || it.isTrashHolder || it.isMailbox ||
          it.isBed then
        some (item type 0)
      else some (item (substitute it type) count)
    else none

section AddMoney

variable (env : Env) (passOn : PassOn) (currency : Currency) (c : Cylinder) (flags : CylinderFlags)

/-- `getTile` of the cylinder. -/
def getTile (w : World) : Option Position :=
  match c with
  | .tile pos => some pos
  | .player p => some (w.player p).position
  | .container k =>
      match w.getTopParent env k with
      | none => none
      | some top =>
          match (w.getParent top).getD top with
          | .tile pos => some pos
          | _ => none

/-- `internalAddItem`; the count is a byte, and 256 calls are enough. -/
def addWith (w : World) (c : Cylinder) (item : ThingId) (flags : CylinderFlags) : AddOutcome :=
  (internalAddItemPassing env passOn 256 w c item indexWhereever flags).getD ⟨.notPossible, w, 0⟩

/-- One stack of coins, of a type and a count. -/
def addStack (w : World) (stack : UInt16 × Nat) : World :=
  match createItem env stack.1 (UInt16.ofNat stack.2) with
  | none => w
  | some remaindItem =>
      let r := addWith env passOn (w.create remaindItem) c w.nextId flags
      if r.ret ≠ .noError then
        match getTile env c r.world with
        | none => r.world
        | some pos => (addWith env passOn r.world (.tile pos) w.nextId { noLimit := true }).world
      else r.world

/-- The `while` loop over the coins of a type, for at most that many turns. -/
def addCoins (id : UInt16) : Nat → Nat → World → Option World
  | _, 0, w => some w
  | 0, _ + 1, _ => none
  | n + 1, coins + 1, w =>
      let count := min 100 ((coins + 1) % 2 ^ 16)
      addCoins id n (coins + 1 - count) (addStack env passOn c flags w (id, count))

/-- `currencyCoins` -/
def currencyCoins (money worth : Nat) : Nat := money / worth % 2 ^ 32

/-- The loop over the types of coins; a worth of zero is a division by zero. -/
def addCurrencies (n : Nat) : List (Nat × UInt16) → Nat → World → Option World
  | [], _, w => some w
  | (worth, id) :: rest, money, w =>
      if worth = 0 then none
      else if currencyCoins money worth = 0 then addCurrencies n rest money w
      else
        (addCoins env passOn c flags id n (currencyCoins money worth) w).bind
          (addCurrencies n rest (money - currencyCoins money worth * worth))

/-- `addMoney`, for at most that many turns of a loop. -/
def addMoney (n : Nat) (w : World) (money : Nat) : Option World :=
  if money = 0 then some w
  else addCurrencies env passOn c flags n currency.currencyItems money w

end AddMoney

/-! ## The stacks -/

/-- The stacks that some coins make. -/
def coinStacks (coins : Nat) : List Nat :=
  List.replicate (coins / 100) 100 ++ if coins % 100 = 0 then [] else [coins % 100]

/-- The stacks that an amount makes. -/
def allStacks : List (Nat × UInt16) → Nat → List (UInt16 × Nat)
  | [], _ => []
  | (worth, id) :: rest, money =>
      (coinStacks (currencyCoins money worth)).map (id, ·) ++
        allStacks rest (money - currencyCoins money worth * worth)

/-- What is left of an amount when no coin goes into it. -/
def leftover : List (Nat × UInt16) → Nat → Nat
  | [], money => money
  | (worth, _) :: rest, money => leftover rest (money - currencyCoins money worth * worth)

/-- No type of coins is worth nothing, and there are fewer than 65536 of each. -/
def Terminates : List (Nat × UInt16) → Nat → Prop
  | [], _ => True
  | (worth, _) :: rest, money =>
      0 < worth ∧ currencyCoins money worth < 2 ^ 16 ∧
        Terminates rest (money - currencyCoins money worth * worth)

/-- What stacks are worth. -/
def stacksWorth (currency : Currency) (l : List (UInt16 × Nat)) : Nat :=
  (l.map fun stack => currency.worth stack.1 * stack.2).sum

theorem coinStacks_succ {coins : Nat} (h : 0 < coins) :
    coinStacks coins = min 100 coins :: coinStacks (coins - min 100 coins) := by
  unfold coinStacks
  by_cases hmany : 100 ≤ coins
  · rw [Nat.min_eq_left hmany]
    have hdiv : coins / 100 = (coins - 100) / 100 + 1 := by omega
    have hmod : coins % 100 = (coins - 100) % 100 := by omega
    rw [hdiv, hmod, List.replicate_succ, List.cons_append]
  · rw [Nat.min_eq_right (by omega), Nat.sub_self]
    have hdiv : coins / 100 = 0 := by omega
    have hmod : coins % 100 = coins := by omega
    rw [hdiv, hmod, if_neg (by omega)]
    rfl

theorem coinStacks_sum (coins : Nat) : (coinStacks coins).sum = coins := by
  unfold coinStacks
  rw [List.sum_append, List.sum_replicate_nat]
  split
  · rw [List.sum_nil]
    omega
  · rw [List.sum_singleton]
    omega

theorem mem_coinStacks {coins count : Nat} (h : count ∈ coinStacks coins) :
    0 < count ∧ count ≤ 100 := by
  unfold coinStacks at h
  rcases List.mem_append.mp h with h | h
  · obtain ⟨-, rfl⟩ := List.mem_replicate.mp h
    omega
  · split at h
    · cases h
    · obtain rfl := List.mem_singleton.mp h
      omega

theorem mul_currencyCoins_le (money worth : Nat) : currencyCoins money worth * worth ≤ money := by
  unfold currencyCoins
  have hle : money / worth % 2 ^ 32 ≤ money / worth := Nat.mod_le _ _
  exact Nat.le_trans (Nat.mul_le_mul_right worth hle) (Nat.div_mul_le_self money worth)

theorem stacksWorth_append (currency : Currency) (l l' : List (UInt16 × Nat)) :
    stacksWorth currency (l ++ l') = stacksWorth currency l + stacksWorth currency l' := by
  unfold stacksWorth
  rw [List.map_append, List.sum_append]

theorem stacksWorth_coins (currency : Currency) (id : UInt16) (l : List Nat) :
    stacksWorth currency (l.map (id, ·)) = currency.worth id * l.sum := by
  induction l with
  | nil => rfl
  | cons count l ih =>
      have hcons : stacksWorth currency ((count :: l).map (id, ·)) =
          currency.worth id * count + stacksWorth currency (l.map (id, ·)) := rfl
      rw [hcons, ih, List.sum_cons, Nat.mul_add]

/-- The stacks and the rest are worth the amount. -/
theorem stacksWorth_allStacks (currency : Currency) {l : List (Nat × UInt16)}
    (hl : ∀ e ∈ l, currency.worth e.2 = e.1) (money : Nat) :
    stacksWorth currency (allStacks l money) + leftover l money = money := by
  induction l generalizing money with
  | nil => exact Nat.zero_add money
  | cons e l ih =>
      obtain ⟨worth, id⟩ := e
      have hworth : currency.worth id = worth := hl (worth, id) List.mem_cons_self
      have hrest := ih (fun e he => hl e (List.mem_cons_of_mem _ he))
        (money - currencyCoins money worth * worth)
      have hle := mul_currencyCoins_le money worth
      unfold allStacks leftover
      rw [stacksWorth_append, stacksWorth_coins, coinStacks_sum, hworth,
        Nat.mul_comm worth (currencyCoins money worth)]
      omega

theorem mem_allStacks {l : List (Nat × UInt16)} {money : Nat} {stack : UInt16 × Nat}
    (h : stack ∈ allStacks l money) :
    0 < stack.2 ∧ stack.2 ≤ 100 ∧ ∃ worth, (worth, stack.1) ∈ l := by
  induction l generalizing money with
  | nil => cases h
  | cons e l ih =>
      obtain ⟨worth, id⟩ := e
      rcases List.mem_append.mp h with h | h
      · obtain ⟨count, hcount, rfl⟩ := List.mem_map.mp h
        obtain ⟨hpos, hle⟩ := mem_coinStacks hcount
        exact ⟨hpos, hle, worth, List.mem_cons_self⟩
      · obtain ⟨hpos, hle, worth', hmem⟩ := ih h
        exact ⟨hpos, hle, worth', List.mem_cons_of_mem _ hmem⟩

/-! ## The loops -/

section Loops

variable {env : Env} {passOn : PassOn} {c : Cylinder} {flags : CylinderFlags} {w w' : World}

/-- From 65536 coins on the loop does not come to an end. -/
theorem addCoins_of_many {id : UInt16} {n coins : Nat} (h : 2 ^ 16 ≤ coins) :
    addCoins env passOn c flags id n coins w = none := by
  induction n generalizing coins w with
  | zero =>
      cases coins with
      | zero => exact absurd h (by omega)
      | succ coins => rfl
  | succ n ih =>
      cases coins with
      | zero => exact absurd h (by omega)
      | succ coins =>
          rw [addCoins]
          refine ih ?_
          have hle : min 100 ((coins + 1) % 2 ^ 16) ≤ (coins + 1) % 2 ^ 16 := Nat.min_le_right _ _
          omega

/-- With fewer, each stack is added. -/
theorem addCoins_of_few {id : UInt16} {n coins : Nat} (h : coins < 2 ^ 16) (hn : coins ≤ n) :
    addCoins env passOn c flags id n coins w =
      some (Runs.run (addStack env passOn c flags) w ((coinStacks coins).map (id, ·))) := by
  induction n generalizing coins w with
  | zero =>
      obtain rfl : coins = 0 := by omega
      rfl
  | succ n ih =>
      cases coins with
      | zero => rfl
      | succ coins =>
          rw [addCoins, Nat.mod_eq_of_lt h, coinStacks_succ (Nat.succ_pos coins), List.map_cons,
            Runs.run_cons]
          exact ih (by omega) (by omega)

/-- Whatever the number of turns, a result is that of adding each stack. -/
theorem addCoins_eq_some {id : UInt16} {n coins : Nat}
    (h : addCoins env passOn c flags id n coins w = some w') :
    coins < 2 ^ 16 ∧
      w' = Runs.run (addStack env passOn c flags) w ((coinStacks coins).map (id, ·)) := by
  have hfew : coins < 2 ^ 16 := by
    by_contra hmany
    rw [addCoins_of_many (Nat.not_lt.mp hmany)] at h
    cases h
  refine ⟨hfew, ?_⟩
  induction n generalizing coins w with
  | zero =>
      cases coins with
      | zero =>
          cases h
          rfl
      | succ coins => cases h
  | succ n ih =>
      cases coins with
      | zero =>
          cases h
          rfl
      | succ coins =>
          rw [addCoins, Nat.mod_eq_of_lt hfew] at h
          rw [coinStacks_succ (Nat.succ_pos coins), List.map_cons, Runs.run_cons]
          exact ih h (by omega)

theorem coinStacks_zero : coinStacks 0 = [] := rfl

theorem addCurrencies_eq_some {n : Nat} {l : List (Nat × UInt16)} {money : Nat}
    (h : addCurrencies env passOn c flags n l money w = some w') :
    Terminates l money ∧
      w' = Runs.run (addStack env passOn c flags) w (allStacks l money) := by
  induction l generalizing money w with
  | nil =>
      cases h
      exact ⟨trivial, rfl⟩
  | cons e l ih =>
      obtain ⟨worth, id⟩ := e
      rw [addCurrencies] at h
      split_ifs at h with hworth hcoins
      · obtain ⟨hterminates, hrun⟩ := ih h
        have hmoney : money - currencyCoins money worth * worth = money := by
          rw [hcoins, Nat.zero_mul, Nat.sub_zero]
        unfold Terminates allStacks
        rw [hmoney, hcoins, coinStacks_zero]
        exact ⟨⟨Nat.pos_of_ne_zero hworth, by omega, hterminates⟩, hrun⟩
      · obtain ⟨v, hv, hrest⟩ := Option.bind_eq_some_iff.mp h
        obtain ⟨hfew, rfl⟩ := addCoins_eq_some hv
        obtain ⟨hterminates, hrun⟩ := ih hrest
        refine ⟨⟨Nat.pos_of_ne_zero hworth, hfew, hterminates⟩, ?_⟩
        rw [hrun, allStacks, Runs.run_append]

/-- With enough turns there is a result. -/
theorem addCurrencies_of_terminates {n : Nat} {l : List (Nat × UInt16)} {money : Nat}
    (h : Terminates l money) (hn : 2 ^ 16 ≤ n) :
    addCurrencies env passOn c flags n l money w =
      some (Runs.run (addStack env passOn c flags) w (allStacks l money)) := by
  induction l generalizing money w with
  | nil => rfl
  | cons e l ih =>
      obtain ⟨worth, id⟩ := e
      obtain ⟨hworth, hfew, hterminates⟩ := h
      rw [addCurrencies, if_neg (Nat.ne_of_gt hworth)]
      split
      · next hcoins =>
          have hmoney : money - currencyCoins money worth * worth = money := by
            rw [hcoins, Nat.zero_mul, Nat.sub_zero]
          rw [hmoney] at hterminates
          rw [ih hterminates, allStacks, hmoney, hcoins, coinStacks_zero]
          rfl
      · rw [addCoins_of_few hfew (Nat.le_trans (Nat.le_of_lt hfew) hn), Option.bind_some,
          ih hterminates, allStacks, Runs.run_append]

end Loops

/-! ## What one stack adds -/

section Stack

variable (env : Env) (currency : Currency) (c : Cylinder) (flags : CylinderFlags)

/-- The call for a new item. -/
def newCall (w : World) (t : Thing) (flags : CylinderFlags) : AddCall :=
  ⟨w.create t, w.nextId, indexWhereever, flags⟩

/-- The stack is made with its worth, and all of it gets into the cylinder, or onto the tile if
the cylinder refuses it. -/
def Accepted (w : World) (stack : UInt16 × Nat) : Prop :=
  ∃ t, createItem env stack.1 (UInt16.ofNat stack.2) = some t ∧
    currency.worth t.id * t.data.count.toNat = currency.worth stack.1 * stack.2 ∧
    ((newCall w t flags).Whole env c currency.worth 256 ∨
      (newCall w t flags).answer env c ≠ .noError ∧
        ∃ pos, getTile env c (w.create t) = some pos ∧
          (newCall w t { noLimit := true }).Whole env (.tile pos) currency.worth 256)

/-- No teleport, trash holder or mailbox gets the stack. -/
def Quiet (w : World) (stack : UInt16 × Nat) : Prop :=
  ∀ t, createItem env stack.1 (UInt16.ofNat stack.2) = some t →
    (newCall w t flags).AllStay env c 256 ∧
      ∀ pos, getTile env c (w.create t) = some pos →
        (newCall w t { noLimit := true }).AllStay env (.tile pos) 256

/-- Of a coin `CreateItem` makes the type itself, and no more than it is asked for. -/
def Makes : Prop :=
  ∀ e ∈ currency.currencyItems, ∀ count : UInt16, 0 < count.toNat → ∀ t,
    createItem env e.2 count = some t → t.id = e.2 ∧ t.data.count.toNat ≤ count.toNat

end Stack

section StackLemmas

variable {env : Env} {passOn : PassOn} {currency : Currency} {c : Cylinder}
  {flags : CylinderFlags} {w : World} {stack : UInt16 × Nat} {t : Thing}

theorem createItem_blank {type count : UInt16} (h : createItem env type count = some t) :
    Blank t := by
  unfold createItem at h
  dsimp only at h
  split_ifs at h <;> cases h <;> exact ⟨rfl, rfl⟩

theorem addWith_adds {price : UInt16 → Nat} {item : ThingId}
    (hprice : 0 < price (w.thing item).id) (hw : Placed env w) (hitem : Loose w item)
    (hc : w.Real c) (hstays : AddCall.AllStay env c ⟨w, item, indexWhereever, flags⟩ 256) :
    Adds env c price ⟨w, item, indexWhereever, flags⟩ 256 (addWith env passOn w c item flags) := by
  obtain ⟨r, hr, hadds⟩ := internalAddItemPassing_adds passOn ⟨w, item, indexWhereever, flags⟩
    hprice hw hitem hc (count_lt item) hstays
  have heq : addWith env passOn w c item flags = r := by
    unfold addWith
    rw [hr]
    rfl
  rw [heq]
  exact hadds

theorem real_create (hc : w.Real c) (t : Thing) : (w.create t).Real c :=
  fun k hk => Nat.lt_succ_of_lt (hc k hk)

theorem not_whole_of_refused {call : AddCall} {price : UInt16 → Nat} (n : Nat)
    (h : call.answer env c ≠ .noError) : ¬ call.Whole env c price (n + 1) := by
  intro hwhole
  exact h (hwhole call List.mem_cons_self).1

/-- What adding a stack leaves, and how much it adds of a price. -/
theorem addStack_grows (passOn : PassOn) (price : UInt16 → Nat) (hw : Placed env w) (hc : w.Real c)
    (hquiet : Quiet env c flags w stack)
    (ht : createItem env stack.1 (UInt16.ofNat stack.2) = some t) (hprice : 0 < price t.id) :
    Placed env (addStack env passOn c flags w stack) ∧
      (addStack env passOn c flags w stack).Real c ∧
      ∃ d : Int, Grows (w.valueAt price) ((addStack env passOn c flags w stack).valueAt price) d ∧
        d ≤ (price t.id * t.data.count.toNat : Nat) ∧
        (0 < t.data.count.toNat → (d = (price t.id * t.data.count.toNat : Nat) ↔
          (newCall w t flags).Whole env c price 256 ∨
            (newCall w t flags).answer env c ≠ .noError ∧
              ∃ pos, getTile env c (w.create t) = some pos ∧
                (newCall w t { noLimit := true }).Whole env (.tile pos) price 256)) := by
  have hblank := createItem_blank ht
  have hplaced := create_placed hw hblank
  have hloose := create_loose hw hblank
  have hreal := real_create hc t
  have hvalue := create_valueAt hw hblank price
  obtain ⟨hstays, hstays'⟩ := hquiet t ht
  have hself : (w.create t).thing w.nextId = t := create_thing_self t
  have hp : 0 < price ((w.create t).thing w.nextId).id := by
    rw [hself]
    exact hprice
  have hworth : (w.create t).worth price w.nextId = price t.id * t.data.count.toNat := by
    unfold worth count
    rw [hself]
  have hadds : Adds env c price (newCall w t flags) 256
      (addWith env passOn (w.create t) c w.nextId flags) :=
    addWith_adds hp hplaced hloose hreal hstays
  have hcall : (newCall w t flags).world.worth price (newCall w t flags).item =
      price t.id * t.data.count.toNat := hworth
  unfold addStack
  rw [ht]
  dsimp only
  rw [hadds.ret]
  by_cases hanswer : (newCall w t flags).answer env c = .noError
  · rw [if_neg (not_not_intro hanswer)]
    obtain ⟨d, hd, hle, hiff, -⟩ := hadds.grows hanswer
    rw [hcall] at hle hiff
    refine ⟨hadds.placed, fun k hk => Nat.lt_of_lt_of_le (hreal k hk) hadds.nextId, d, ?_, hle,
      fun _ => hiff.trans ⟨.inl, ?_⟩⟩
    · rw [← hvalue]
      exact hd
    · rintro (hwhole | ⟨hrefused, -⟩)
      · exact hwhole
      · exact absurd hanswer hrefused
  rw [if_pos hanswer, hadds.refused hanswer]
  have hnot : ¬ (newCall w t flags).Whole env c price 256 := not_whole_of_refused 255 hanswer
  have hnothing : Grows (w.valueAt price) ((newCall w t flags).world.valueAt price) 0 := by
    have hsame : (newCall w t flags).world.valueAt price = w.valueAt price := hvalue
    rw [hsame]
    exact Grows.refl _
  cases htile : getTile env c (w.create t) with
  | none =>
      have htile' : getTile env c (newCall w t flags).world = none := htile
      rw [htile']
      refine ⟨hplaced, hreal, 0, hnothing, Int.natCast_nonneg _, fun hmany => ⟨fun heq => ?_, ?_⟩⟩
      · have := Nat.mul_pos hprice hmany
        omega
      · rintro (hwhole | ⟨-, pos, hpos, -⟩)
        · exact absurd hwhole hnot
        · cases hpos
  | some pos =>
      have htile' : getTile env c (newCall w t flags).world = some pos := htile
      rw [htile']
      have hadds' : Adds env (.tile pos) price (newCall w t { noLimit := true }) 256
          (addWith env passOn (w.create t) (.tile pos) w.nextId { noLimit := true }) :=
        addWith_adds hp hplaced hloose (fun k hk => by cases hk) (hstays' pos htile)
      have hcall' : (newCall w t { noLimit := true }).world.worth price
          (newCall w t { noLimit := true }).item = price t.id * t.data.count.toNat := hworth
      have hsecond : ∃ d : Int, Grows (w.valueAt price)
          ((addWith env passOn (w.create t) (.tile pos) w.nextId
            { noLimit := true }).world.valueAt price) d ∧
            d ≤ (price t.id * t.data.count.toNat : Nat) ∧
            (0 < t.data.count.toNat → (d = (price t.id * t.data.count.toNat : Nat) ↔
              (newCall w t { noLimit := true }).Whole env (.tile pos) price 256)) := by
        by_cases hanswer' : (newCall w t { noLimit := true }).answer env (.tile pos) = .noError
        · obtain ⟨d, hd, hle, hiff, -⟩ := hadds'.grows hanswer'
          rw [hcall'] at hle hiff
          refine ⟨d, ?_, hle, fun _ => hiff⟩
          rw [← hvalue]
          exact hd
        · rw [hadds'.refused hanswer']
          refine ⟨0, hnothing, Int.natCast_nonneg _, fun hmany => ⟨fun heq => ?_, fun hwhole => ?_⟩⟩
          · have := Nat.mul_pos hprice hmany
            omega
          · exact absurd hwhole (not_whole_of_refused 255 hanswer')
      obtain ⟨d, hd, hle, hiff⟩ := hsecond
      refine ⟨hadds'.placed, fun k hk => Nat.lt_of_lt_of_le (hreal k hk) hadds'.nextId, d, hd, hle,
        fun hmany => (hiff hmany).trans ⟨fun hwhole => .inr ⟨hanswer, pos, rfl, hwhole⟩, ?_⟩⟩
      rintro (hwhole | ⟨-, pos', hpos, hwhole⟩)
      · exact absurd hwhole hnot
      · cases hpos
        exact hwhole

/-- What the stacks of an amount are, as far as it matters for one of them. -/
structure CoinStack (currency : Currency) (stack : UInt16 × Nat) : Prop where
  worth : 0 < currency.worth stack.1
  pos : 0 < stack.2
  le : stack.2 ≤ 100
  mem : (currency.worth stack.1, stack.1) ∈ currency.currencyItems

theorem CoinStack.ofNat (h : CoinStack currency stack) :
    (UInt16.ofNat stack.2).toNat = stack.2 := by
  have hsize : (100 : Nat) < UInt16.size := by decide
  exact UInt16.toNat_ofNat_of_lt' (Nat.lt_of_le_of_lt h.le hsize)

/-- One stack adds what it is worth exactly if it is accepted, and never more. -/
theorem addStack_step (passOn : PassOn) (hw : Placed env w) (hc : w.Real c)
    (hquiet : Quiet env c flags w stack) (hstack : CoinStack currency stack) :
    Placed env (addStack env passOn c flags w stack) ∧
      (addStack env passOn c flags w stack).Real c ∧
      (Accepted env currency c flags w stack →
        Grows (w.valueAt currency.worth)
          ((addStack env passOn c flags w stack).valueAt currency.worth)
          (currency.worth stack.1 * stack.2 : Nat)) ∧
      (Makes env currency → ∃ d : Int,
        Grows (w.valueAt currency.worth)
          ((addStack env passOn c flags w stack).valueAt currency.worth) d ∧
          d ≤ (currency.worth stack.1 * stack.2 : Nat) ∧
          (d = (currency.worth stack.1 * stack.2 : Nat) →
            Accepted env currency c flags w stack)) := by
  have hpos : 0 < currency.worth stack.1 * stack.2 := Nat.mul_pos hstack.worth hstack.pos
  cases ht : createItem env stack.1 (UInt16.ofNat stack.2) with
  | none =>
      have hnothing : addStack env passOn c flags w stack = w := by
        unfold addStack
        rw [ht]
      rw [hnothing]
      refine ⟨hw, hc, ?_, fun _ => ⟨0, Grows.refl _, Int.natCast_nonneg _, fun heq => ?_⟩⟩
      · rintro ⟨t, ht', -⟩
        cases ht.symm.trans ht'
      · omega
  | some t =>
      obtain ⟨hplaced, hreal, -⟩ := addStack_grows passOn (fun _ => 1) hw hc hquiet ht Nat.one_pos
      refine ⟨hplaced, hreal, ?_, fun hmakes => ?_⟩
      · rintro ⟨t', ht', hworth, haccepted⟩
        cases ht.symm.trans ht'
        have hboth : 0 < currency.worth t.id * t.data.count.toNat := hworth ▸ hpos
        have hprice := Nat.pos_of_mul_pos_right hboth
        have hcount := Nat.pos_of_mul_pos_left hboth
        obtain ⟨-, -, d, hd, -, hiff⟩ := addStack_grows passOn currency.worth hw hc hquiet ht hprice
        rw [(hiff hcount).mpr haccepted, hworth] at hd
        exact hd
      · have hn : 0 < (UInt16.ofNat stack.2).toNat := by
          rw [hstack.ofNat]
          exact hstack.pos
        obtain ⟨hid, hle⟩ := hmakes _ hstack.mem _ hn t ht
        rw [hstack.ofNat] at hle
        have hid : t.id = stack.1 := hid
        have hprice : 0 < currency.worth t.id := hid ▸ hstack.worth
        obtain ⟨-, -, d, hd, hbound, hiff⟩ :=
          addStack_grows passOn currency.worth hw hc hquiet ht hprice
        rw [hid] at hbound hiff
        have hmost : currency.worth stack.1 * t.data.count.toNat ≤
            currency.worth stack.1 * stack.2 := Nat.mul_le_mul_left _ hle
        refine ⟨d, hd, by omega, fun heq => ?_⟩
        have hworth : currency.worth stack.1 * t.data.count.toNat =
            currency.worth stack.1 * stack.2 := by omega
        have hcount : t.data.count.toNat = stack.2 :=
          Nat.eq_of_mul_eq_mul_left hstack.worth hworth
        refine ⟨t, ht, by rw [hid, hworth], (hiff (hcount ▸ hstack.pos)).mp ?_⟩
        omega

/-- The same of all the stacks, one after the other. -/
theorem addStacks_grows {l : List (UInt16 × Nat)} (hw : Placed env w) (hc : w.Real c)
    (hquiet : Runs.Throughout (addStack env passOn c flags) (Quiet env c flags) w l)
    (hl : ∀ stack ∈ l, CoinStack currency stack) :
    (Runs.Throughout (addStack env passOn c flags) (Accepted env currency c flags) w l →
        Grows (w.valueAt currency.worth)
          ((Runs.run (addStack env passOn c flags) w l).valueAt currency.worth)
          (stacksWorth currency l : Nat)) ∧
      (Makes env currency → ∃ d : Int,
        Grows (w.valueAt currency.worth)
          ((Runs.run (addStack env passOn c flags) w l).valueAt currency.worth) d ∧
          d ≤ (stacksWorth currency l : Nat) ∧
          (d = (stacksWorth currency l : Nat) →
            Runs.Throughout (addStack env passOn c flags) (Accepted env currency c flags) w l)) := by
  induction l generalizing w with
  | nil => exact ⟨fun _ => Grows.refl _, fun _ => ⟨0, Grows.refl _, Int.le_refl _,
      fun _ => Runs.throughout_nil⟩⟩
  | cons stack l ih =>
      obtain ⟨hfirst, hrest⟩ := Runs.throughout_cons.mp hquiet
      obtain ⟨hplaced, hreal, hall, hsome⟩ :=
        addStack_step passOn hw hc hfirst (hl stack List.mem_cons_self)
      obtain ⟨hall', hsome'⟩ := ih hplaced hreal hrest fun stack' hmem =>
        hl stack' (List.mem_cons_of_mem _ hmem)
      have hsum : stacksWorth currency (stack :: l) =
          currency.worth stack.1 * stack.2 + stacksWorth currency l := List.sum_cons
      rw [hsum, Nat.cast_add, Runs.run_cons]
      constructor
      · intro haccepted
        obtain ⟨haccept, haccept'⟩ := Runs.throughout_cons.mp haccepted
        exact (hall haccept).trans (hall' haccept')
      · intro hmakes
        obtain ⟨d, hd, hle, hiff⟩ := hsome hmakes
        obtain ⟨e, he, hle', hiff'⟩ := hsome' hmakes
        refine ⟨d + e, hd.trans he, by omega, fun heq => Runs.throughout_cons.mpr ⟨?_, ?_⟩⟩
        · exact hiff (by omega)
        · exact hiff' (by omega)

end StackLemmas

/-! ## All the money -/

/-- There is a coin for all of the amount and not too many of any, and each stack is accepted. -/
def Pays (env : Env) (passOn : PassOn) (currency : Currency) (c : Cylinder)
    (flags : CylinderFlags) (w : World) (money : Nat) : Prop :=
  money = 0 ∨ Terminates currency.currencyItems money ∧
    leftover currency.currencyItems money = 0 ∧
    Runs.Throughout (addStack env passOn c flags) (Accepted env currency c flags) w
      (allStacks currency.currencyItems money)

theorem coinStack_of_mem {currency : Currency} {money : Nat} {stack : UInt16 × Nat}
    (hterminates : Terminates currency.currencyItems money)
    (h : stack ∈ allStacks currency.currencyItems money) : CoinStack currency stack := by
  obtain ⟨hpos, hle, worth, hmem⟩ := mem_allStacks h
  have hworth : currency.worth stack.1 = worth := currency.worth_eq (worth, stack.1) hmem
  have hnonzero : ∀ {l : List (Nat × UInt16)} {money : Nat}, Terminates l money →
      ∀ e ∈ l, 0 < e.1 := by
    intro l
    induction l with
    | nil =>
        intro money _ e he
        cases he
    | cons e₀ l ih =>
        intro money hl e he
        rcases List.mem_cons.mp he with rfl | he
        · exact hl.1
        · exact ih hl.2.2 e he
  refine ⟨?_, hpos, hle, hworth ▸ hmem⟩
  rw [hworth]
  exact hnonzero hterminates (worth, stack.1) hmem

section Exact

variable {env : Env} {passOn : PassOn} {currency : Currency} {c : Cylinder} {flags : CylinderFlags}
  {w w' : World} {money n : Nat}

/-- Where `addMoney` pays, it puts in the stacks of the amount, and no less than that. -/
theorem addMoney_of_pays (hw : Placed env w) (hc : w.Real c)
    (hquiet : Runs.Throughout (addStack env passOn c flags) (Quiet env c flags) w
      (allStacks currency.currencyItems money))
    (hpays : Pays env passOn currency c flags w money) (hn : 2 ^ 16 ≤ n) :
    ∃ w', addMoney env passOn currency c flags n w money = some w' ∧
      Grows (w.valueAt currency.worth) (w'.valueAt currency.worth) money := by
  by_cases hmoney : money = 0
  · subst hmoney
    exact ⟨w, if_pos rfl, Grows.refl _⟩
  obtain ⟨hterminates, hleft, haccepted⟩ := hpays.resolve_left hmoney
  refine ⟨_, (if_neg hmoney).trans (addCurrencies_of_terminates hterminates hn), ?_⟩
  have hsum := stacksWorth_allStacks currency currency.worth_eq money
  rw [hleft, Nat.add_zero] at hsum
  have hgrows := (addStacks_grows hw hc hquiet fun stack hmem =>
    coinStack_of_mem hterminates hmem).1 haccepted
  rwa [hsum] at hgrows

/-- What it puts in is never more than the amount, and the amount only where it pays. -/
theorem pays_of_addMoney (hw : Placed env w) (hc : w.Real c)
    (hquiet : Runs.Throughout (addStack env passOn c flags) (Quiet env c flags) w
      (allStacks currency.currencyItems money))
    (hmakes : Makes env currency)
    (h : addMoney env passOn currency c flags n w money = some w') :
    ∃ d : Int, Grows (w.valueAt currency.worth) (w'.valueAt currency.worth) d ∧ d ≤ money ∧
      (d = money → Pays env passOn currency c flags w money) := by
  by_cases hmoney : money = 0
  · cases (if_pos hmoney).symm.trans h
    exact ⟨0, Grows.refl _, Int.natCast_nonneg _, fun _ => .inl hmoney⟩
  obtain ⟨hterminates, rfl⟩ := addCurrencies_eq_some ((if_neg hmoney).symm.trans h)
  have hsum := stacksWorth_allStacks currency currency.worth_eq money
  obtain ⟨d, hd, hle, hiff⟩ := (addStacks_grows hw hc hquiet fun stack hmem =>
    coinStack_of_mem hterminates hmem).2 hmakes
  refine ⟨d, hd, by omega, fun heq => .inr ⟨hterminates, by omega, hiff (by omega)⟩⟩

end Exact

/-- `addMoney` comes to an end with the amount where it pays, and where `CreateItem` makes no more
of a coin than it is asked for, only there. -/
theorem addMoney_exact {env : Env} {passOn : PassOn} {currency : Currency} {c : Cylinder}
    {flags : CylinderFlags} {w : World} {money : Nat} (hw : Placed env w) (hc : w.Real c)
    (hquiet : Runs.Throughout (addStack env passOn c flags) (Quiet env c flags) w
      (allStacks currency.currencyItems money)) :
    (Pays env passOn currency c flags w money →
        ∃ n w', addMoney env passOn currency c flags n w money = some w' ∧
          Grows (w.valueAt currency.worth) (w'.valueAt currency.worth) money) ∧
      (Makes env currency →
        (∃ n w', addMoney env passOn currency c flags n w money = some w' ∧
          Grows (w.valueAt currency.worth) (w'.valueAt currency.worth) money) →
        Pays env passOn currency c flags w money) := by
  constructor
  · intro hpays
    exact ⟨2 ^ 16, addMoney_of_pays hw hc hquiet hpays (Nat.le_refl _)⟩
  · rintro hmakes ⟨n, w', hresult, hgrows⟩
    obtain ⟨d, hd, -, hiff⟩ := pays_of_addMoney hw hc hquiet hmakes hresult
    exact hiff (hd.unique hgrows)

/-! ## Gold -/

/-- Type 2 is the only coin. -/
def onlyGold : Currency where
  worth id := if id = 2 then 1 else 0
  currencyItems := [(1, 2)]
  sorted := List.pairwise_singleton _ _
  worth_eq e he := by
    obtain rfl := List.mem_singleton.mp he
    rfl

theorem quiet_of_env {env : Env} (hquiet : ∀ w pos, (env.tileFlags w pos).passesOn = false)
    (c : Cylinder) (flags : CylinderFlags) (w : World) (stack : UInt16 × Nat) :
    Quiet env c flags w stack :=
  fun _ _ => ⟨allStay_of_quiet hquiet, fun _ _ => allStay_of_quiet hquiet⟩

/-- 15 gold coins that lie nowhere. -/
def fifteenGold : Thing :=
  ⟨2, Decay.newData grassAndCoins 2 15 0, none, false, [], 0, none⟩

theorem fifteenGold_accepted :
    Accepted meadowEnv onlyGold (.tile meadowPos) {} meadow (2, 15) := by
  let call := newCall meadow fifteenGold {}
  have hlast : call.rest meadowEnv (.tile meadowPos) = none := by decide +kernel
  have hanswer : call.answer meadowEnv (.tile meadowPos) = .noError := by decide +kernel
  have hdest : (call.destination meadowEnv (.tile meadowPos)).destItem = some 1 := by
    decide +kernel
  have hsmall : call.world.count 1 + call.taken meadowEnv (.tile meadowPos) < 256 := by
    decide +kernel
  have hnoPlace : ¬ call.Settles meadowEnv (.tile meadowPos) := by decide +kernel
  refine ⟨fifteenGold, rfl, rfl, .inl ((whole_of_last hlast hanswer).mpr ⟨fun _ => ?_, ?_⟩)⟩
  · refine .inr ⟨rfl, fun i hi => ?_⟩
    rw [hdest] at hi
    cases hi
    exact hsmall
  · intro hsettles
    exact absurd hsettles hnoPlace

/-- They get onto the coins of the meadow. -/
theorem addMoney_exact_meadow :
    ∃ n w', addMoney meadowEnv (fun w _ _ => w) onlyGold (.tile meadowPos) {} n meadow 15 =
      some w' ∧ Grows (meadow.valueAt onlyGold.worth) (w'.valueAt onlyGold.worth) (15 : Nat) := by
  refine (addMoney_exact meadow_placed (fun k hk => by cases hk) fun _ _ _ _ =>
    quiet_of_env (fun _ _ => rfl) _ _ _ _).1 (.inr ⟨?_, by decide, ?_⟩)
  · exact ⟨Nat.one_pos, by decide, trivial⟩
  · exact Runs.throughout_cons.mpr ⟨fifteenGold_accepted, Runs.throughout_nil⟩

/-- 65536 gold coins are never all there. -/
theorem addMoney_exact_endless :
    ¬ ∀ (env : Env) (passOn : PassOn) (currency : Currency) (c : Cylinder)
      (flags : CylinderFlags) (w : World) (money : Nat), money < 2 ^ 64 → Placed env w →
      w.Real c →
      Runs.Throughout (addStack env passOn c flags) (Quiet env c flags) w
        (allStacks currency.currencyItems money) →
      ∃ n w', addMoney env passOn currency c flags n w money = some w' ∧
        Grows (w.valueAt currency.worth) (w'.valueAt currency.worth) money := by
  intro h
  obtain ⟨n, w', hresult, -⟩ := h meadowEnv (fun w _ _ => w) onlyGold (.tile meadowPos) {} meadow
    (2 ^ 16) (by omega) meadow_placed (fun k hk => by cases hk) fun _ _ _ _ =>
      quiet_of_env (fun _ _ => rfl) _ _ _ _
  obtain ⟨⟨-, hfew, -⟩, -⟩ := addCurrencies_eq_some hresult
  have hcoins : currencyCoins (2 ^ 16) 1 = 2 ^ 16 := by decide
  omega

end World

end Bruxo
