import Mathlib.Logic.Function.Basic
import Mathlib.Data.List.Basic

/-!
# Trades between players

The trade data of the players and every operation on it: `playerRequestTrade`,
`internalStartTrade`, `playerAcceptTrade`, `playerLookInTrade`,
`playerCloseTrade`, `internalCloseTrade` (`game.cpp`), the notifications of
`Player` that close a trade when its item or its player moves, and
`Player::onRemoveCreature` (`player.cpp`).

What an operation asks the world for (distances, containers, scripts) is an
argument: every answer is possible. Moving the traded items is not described
here, only the notifications that it sends while both players are in
`TRADE_TRANSFER`.
-/

namespace Bruxo

namespace Trade

/-! ## State -/

abbrev PlayerId := Nat

abbrev ItemId := Nat

/-- `tradestate_t` -/
inductive TradeState where
  | none | initiated | accept | acknowledge | transfer
  deriving DecidableEq

/-- The trade data of a `Player`; `none` is a null pointer. -/
structure PlayerTrade where
  tradeState : TradeState
  tradePartner : Option PlayerId
  tradeItem : Option ItemId
  deriving DecidableEq

def PlayerTrade.idle : PlayerTrade := ⟨.none, none, none⟩

structure Game where
  online : PlayerId → Bool
  players : PlayerId → PlayerTrade
  tradeItems : List (ItemId × PlayerId)

namespace Game

def init : Game where
  online := fun _ => false
  players := fun _ => .idle
  tradeItems := []

def setPlayer (g : Game) (p : PlayerId) (t : PlayerTrade) : Game :=
  { g with players := Function.update g.players p t }

def setTradeState (g : Game) (p : PlayerId) (s : TradeState) : Game :=
  g.setPlayer p { g.players p with tradeState := s }

/-- `tradeItems.erase(tradeItems.find(item))` for a pointer that may be null. -/
def releaseTradeItem (g : Game) (item : Option ItemId) : Game :=
  { g with tradeItems := g.tradeItems.filter fun e => some e.1 ≠ item }

/-! ## Starting and closing -/

def internalStartTrade (g : Game) (player tradePartner : PlayerId) (tradeItem : ItemId) : Game :=
  if (g.players player).tradeState ≠ .none ∧
      ¬ ((g.players player).tradeState = .acknowledge ∧
        (g.players player).tradePartner = some tradePartner) then g
  else if (g.players tradePartner).tradeState ≠ .none ∧
      (g.players tradePartner).tradePartner ≠ some player then g
  else
    let g := g.setPlayer player ⟨.initiated, some tradePartner, some tradeItem⟩
    let g := g.releaseTradeItem (some tradeItem)
    let g := { g with tradeItems := (tradeItem, player) :: g.tradeItems }
    if (g.players tradePartner).tradeState = .none then
      g.setPlayer tradePartner
        { g.players tradePartner with tradeState := .acknowledge, tradePartner := some player }
    else g

/-- One half of `internalCloseTrade`. -/
def resetTrade (g : Game) (p : PlayerId) : Game :=
  (g.releaseTradeItem (g.players p).tradeItem).setPlayer p .idle

def internalCloseTrade (g : Game) (player : PlayerId) : Game :=
  match (g.players player).tradePartner with
  | none => if (g.players player).tradeState = .transfer then g else g.resetTrade player
  | some tradePartner =>
      if (g.players tradePartner).tradeState = .transfer ∨
          (g.players player).tradeState = .transfer then g
      else (g.resetTrade player).resetTrade tradePartner

/-! ## Requests -/

structure RequestWorld where
  /-- every check before the one for items that are traded already -/
  allowed : Bool
  /-- the first item is a container that holds the second -/
  isHolding : ItemId → ItemId → Bool
  holdingCount : Nat
  onTradeRequest : Bool

def playerRequestTrade (g : Game) (player tradePartner : PlayerId) (tradeItem : ItemId)
    (w : RequestWorld) : Game :=
  if ¬ g.online player then g
  else if ¬ g.online tradePartner ∨ tradePartner = player then g
  else if ¬ w.allowed then g
  else if g.tradeItems.any fun e =>
      tradeItem = e.1 || w.isHolding tradeItem e.1 || w.isHolding e.1 tradeItem then g
  else if 100 < w.holdingCount + 1 then g
  else if ¬ w.onTradeRequest then g
  else g.internalStartTrade player tradePartner tradeItem

/-- `house:startTrade`, for a script that has both players. -/
def houseStartTrade (g : Game) (player tradePartner : PlayerId) (transferItem : ItemId) : Game :=
  if g.online player ∧ g.online tradePartner then
    g.internalStartTrade player tradePartner transferItem
  else g

/-! ## Notifications -/

/-- `inside` tells of the trade item that it is a container around the item. -/
def checkTradeState (g : Game) (p : PlayerId) (item : ItemId) (inside : ItemId → Bool) : Game :=
  match (g.players p).tradeItem with
  | none => g
  | some tradeItem =>
      if (g.players p).tradeState = .transfer then g
      else if tradeItem = item ∨ inside tradeItem then g.internalCloseTrade p
      else g

/-- `onRemoveTileItem`, `onRemoveInventoryItem` and `onRemoveContainerItem`:
`isHolding` tells of the trade item that it was in what is removed. -/
def onRemoveItem (g : Game) (p : PlayerId) (item : ItemId) (inside isHolding : ItemId → Bool) :
    Game :=
  if (g.players p).tradeState = .transfer then g
  else
    let g := g.checkTradeState p item inside
    match (g.players p).tradeItem with
    | none => g
    | some tradeItem => if isHolding tradeItem then g.internalCloseTrade p else g

def onCreatureMove (g : Game) (p : PlayerId) (itemFar partnerFar : Bool) : Game :=
  if (g.players p).tradeState = .transfer then g
  else
    let g := if (g.players p).tradeItem.isSome ∧ itemFar then g.internalCloseTrade p else g
    if (g.players p).tradePartner.isSome ∧ partnerFar then g.internalCloseTrade p else g

inductive Notification where
  | checkItem (p : PlayerId) (item : ItemId) (inside : ItemId → Bool)
  | removeItem (p : PlayerId) (item : ItemId) (inside isHolding : ItemId → Bool)
  | creatureMove (p : PlayerId) (itemFar partnerFar : Bool)

def notify (g : Game) : Notification → Game
  | .checkItem p item inside => g.checkTradeState p item inside
  | .removeItem p item inside isHolding => g.onRemoveItem p item inside isHolding
  | .creatureMove p itemFar partnerFar => g.onCreatureMove p itemFar partnerFar

/-! ## Accepting -/

structure AcceptWorld where
  canThrow : Bool
  onTradeAccept : Bool
  backpack : PlayerId → Option ItemId
  /-- what moving the items tells the players of -/
  nested : List Notification

/-- One run of the transfer branch. -/
structure Transfer where
  playerTradeItem : Option ItemId
  partnerTradeItem : Option ItemId
  /-- a null pointer is dereferenced -/
  dereferencesMissing : Bool
  deriving DecidableEq

/-- The checks for traded backpacks: `Item::items[playerTradeItem->getID()]` is
evaluated if the partner's backpack is its trade item, and the other way round. -/
def transferOf (w : AcceptWorld) (player tradePartner : PlayerId)
    (playerTradeItem partnerTradeItem : Option ItemId) : Transfer where
  playerTradeItem := playerTradeItem
  partnerTradeItem := partnerTradeItem
  dereferencesMissing :=
    (w.backpack tradePartner = partnerTradeItem ∧ playerTradeItem = none) ∨
      (w.backpack player = playerTradeItem ∧ partnerTradeItem = none)

/-- The trade data through the transfer branch, from `setTradeState(TRADE_TRANSFER)` on. -/
def transferTrade (g : Game) (player tradePartner : PlayerId) (nested : List Notification) :
    Game :=
  let playerTradeItem := (g.players player).tradeItem
  let partnerTradeItem := (g.players tradePartner).tradeItem
  let g := (g.setTradeState player .transfer).setTradeState tradePartner .transfer
  let g := (g.releaseTradeItem playerTradeItem).releaseTradeItem partnerTradeItem
  let g := nested.foldl notify g
  (g.setPlayer player .idle).setPlayer tradePartner .idle

def playerAcceptTrade (g : Game) (player : PlayerId) (w : AcceptWorld) : Game × Option Transfer :=
  if ¬ g.online player then (g, none)
  else if ¬ ((g.players player).tradeState = .acknowledge ∨
      (g.players player).tradeState = .initiated) then (g, none)
  else
    match (g.players player).tradePartner with
    | none => (g, none)
    | some tradePartner =>
        let g := g.setTradeState player .accept
        if (g.players tradePartner).tradeState = .accept then
          if ¬ w.canThrow then (g.internalCloseTrade player, none)
          else if ¬ w.onTradeAccept then (g.internalCloseTrade player, none)
          else
            (g.transferTrade player tradePartner w.nested,
              some (transferOf w player tradePartner (g.players player).tradeItem
                (g.players tradePartner).tradeItem))
        else (g, none)

/-! ## The other packets -/

def playerCloseTrade (g : Game) (player : PlayerId) : Game :=
  if g.online player then g.internalCloseTrade player else g

/-- A new `Player` under an id that is not in use. -/
def login (g : Game) (p : PlayerId) : Game :=
  if g.online p then g
  else { g.setPlayer p .idle with online := Function.update g.online p true }

/-- `Player::onRemoveCreature` for the player itself, after which it is gone. -/
def onRemoveCreature (g : Game) (p : PlayerId) : Game :=
  let g := if (g.players p).tradePartner.isSome then g.internalCloseTrade p else g
  { g with online := Function.update g.online p false }

/-! ## Runs -/

inductive Action where
  | login (p : PlayerId)
  | logout (p : PlayerId)
  | request (p tradePartner : PlayerId) (tradeItem : ItemId) (w : RequestWorld)
  | houseTrade (p tradePartner : PlayerId) (transferItem : ItemId)
  | accept (p : PlayerId) (w : AcceptWorld)
  | lookIn (p : PlayerId) (lookAtCounterOffer : Bool)
  | close (p : PlayerId)
  | notify (n : Notification)

/-- The game afterwards and, if the transfer branch was reached, what it had. -/
def step (g : Game) : Action → Game × Option Transfer
  | .login p => (g.login p, none)
  | .logout p => (g.onRemoveCreature p, none)
  | .request p tradePartner tradeItem w => (g.playerRequestTrade p tradePartner tradeItem w, none)
  | .houseTrade p tradePartner transferItem =>
      (g.houseStartTrade p tradePartner transferItem, none)
  | .accept p w => g.playerAcceptTrade p w
  -- `playerLookInTrade` only reads the trade data
  | .lookIn _ _ => (g, none)
  | .close p => (g.playerCloseTrade p, none)
  | .notify n => (g.notify n, none)

def run (g : Game) : List Action → Game × List Transfer
  | [] => (g, [])
  | a :: actions =>
      let (g', transfer) := g.step a
      let (g'', transfers) := run g' actions
      (g'', transfer.toList ++ transfers)

/-! ## The invariant -/

/-- A partner that points back, in `TRADE_TRANSFER` together or not at all. -/
def Linked (g : Game) (p : PlayerId) : Prop :=
  ∃ q, (g.players p).tradePartner = some q ∧ (g.players q).tradePartner = some p ∧
    ((g.players p).tradeState = .transfer ↔ (g.players q).tradeState = .transfer)

def PlayerOk (g : Game) (p : PlayerId) : Prop :=
  match (g.players p).tradeState with
  | .none => (g.players p).tradePartner = none ∧ (g.players p).tradeItem = none
  | .acknowledge => (g.players p).tradeItem = none ∧ g.Linked p
  | .initiated => (g.players p).tradeItem.isSome ∧ g.Linked p
  | .accept | .transfer => g.Linked p

structure Inv (g : Game) : Prop where
  ok : ∀ p, g.PlayerOk p
  offline : ∀ p, g.online p = false → g.players p = .idle

/-- Between two steps nobody is in `TRADE_TRANSFER`. -/
def Settled (g : Game) : Prop := ∀ p, (g.players p).tradeState ≠ .transfer

/-- Who has accepted has an item. -/
def Armed (g : Game) : Prop :=
  ∀ p, (g.players p).tradeState = .accept → (g.players p).tradeItem.isSome

theorem PlayerOk.congr {g g' : Game} {p : PlayerId} (h : g.PlayerOk p)
    (hp : g'.players p = g.players p) (hlinked : g.Linked p → g'.Linked p) : g'.PlayerOk p := by
  unfold PlayerOk at h ⊢
  rw [hp]
  split at h
  · exact h
  · exact ⟨h.1, hlinked h.2⟩
  · exact ⟨h.1, hlinked h.2⟩
  · exact hlinked h
  · exact hlinked h

theorem PlayerOk.linked {g : Game} {p : PlayerId} (h : g.PlayerOk p)
    (hstate : (g.players p).tradeState ≠ .none) : g.Linked p := by
  unfold PlayerOk at h
  split at h
  · rename_i hnone
    exact absurd hnone hstate
  · exact h.2
  · exact h.2
  · exact h
  · exact h

theorem PlayerOk.linked_of_partner {g : Game} {p q : PlayerId} (h : g.PlayerOk p)
    (hq : (g.players p).tradePartner = some q) :
    (g.players q).tradePartner = some p ∧
      ((g.players p).tradeState = .transfer ↔ (g.players q).tradeState = .transfer) := by
  have hstate : (g.players p).tradeState ≠ .none := by
    intro hnone
    unfold PlayerOk at h
    rw [hnone] at h
    rw [h.1] at hq
    cases hq
  obtain ⟨q', hq', hback, htransfer⟩ := h.linked hstate
  rw [hq] at hq'
  cases hq'
  exact ⟨hback, htransfer⟩

theorem PlayerOk.of_idle {g : Game} {p : PlayerId} (h : g.players p = .idle) : g.PlayerOk p := by
  unfold PlayerOk
  rw [h]
  exact ⟨rfl, rfl⟩

theorem inv_init : init.Inv where
  ok _ := PlayerOk.of_idle rfl
  offline _ _ := rfl

theorem Inv.congr {g g' : Game} (h : g.Inv) (hplayers : g'.players = g.players)
    (honline : g'.online = g.online) : g'.Inv where
  ok p := by
    have hok := h.ok p
    unfold PlayerOk Linked at hok ⊢
    rwa [hplayers]
  offline p hp := by
    rw [hplayers]
    exact h.offline p (honline ▸ hp)

theorem Inv.eq_idle {g : Game} (h : g.Inv) {p : PlayerId}
    (hnone : (g.players p).tradeState = .none) : g.players p = .idle := by
  have hok := h.ok p
  unfold PlayerOk at hok
  rw [hnone] at hok
  obtain ⟨hpartner, hitem⟩ := hok
  cases hp : g.players p
  rw [hp] at hnone hpartner hitem
  cases hnone
  cases hpartner
  cases hitem
  rfl

theorem Inv.eq_idle_of_partner {g : Game} (h : g.Inv) {p : PlayerId}
    (hpartner : (g.players p).tradePartner = none) : g.players p = .idle := by
  refine h.eq_idle ?_
  by_contra hne
  obtain ⟨q, hq, -⟩ := (h.ok p).linked hne
  rw [hpartner] at hq
  cases hq

/-- Two partners leave their trade. -/
theorem Inv.retire {g g' : Game} {p q : PlayerId} (h : g.Inv) (honline : g'.online = g.online)
    (hq : (g.players p).tradePartner = some q)
    (hplayers : ∀ r, g'.players r = if r = p ∨ r = q then .idle else g.players r) : g'.Inv := by
  have hback := ((h.ok p).linked_of_partner hq).1
  refine ⟨fun r => ?_, fun r hr => ?_⟩
  · by_cases hr : r = p ∨ r = q
    · exact PlayerOk.of_idle (by rw [hplayers, if_pos hr])
    · refine (h.ok r).congr (by rw [hplayers, if_neg hr]) fun hlinked => ?_
      obtain ⟨s, hs, hsback, htransfer⟩ := hlinked
      -- the partner of a third player is neither of the two
      have hsne : ¬ (s = p ∨ s = q) := by
        rintro (rfl | rfl)
        · rw [hq] at hsback
          exact hr (.inr (Option.some.inj hsback).symm)
        · rw [hback] at hsback
          exact hr (.inl (Option.some.inj hsback).symm)
      refine ⟨s, ?_, ?_, ?_⟩
      · rw [hplayers, if_neg hr, hs]
      · rw [hplayers, if_neg hsne, hsback]
      · rw [hplayers, hplayers, if_neg hr, if_neg hsne, htransfer]
  · rw [hplayers]
    split
    · rfl
    · exact h.offline r (honline ▸ hr)

/-! ## Closing trades -/

/-- `g'` is `g` with some trades closed. -/
structure Closes (g g' : Game) : Prop where
  inv : g'.Inv
  online : g'.online = g.online
  players : ∀ r, g'.players r = g.players r ∨
    (g'.players r = .idle ∧ (g.players r).tradeState ≠ .transfer)

theorem Closes.refl {g : Game} (h : g.Inv) : Closes g g :=
  ⟨h, rfl, fun _ => .inl rfl⟩

theorem Closes.trans {g g' g'' : Game} (h : Closes g g') (h' : Closes g' g'') : Closes g g'' := by
  refine ⟨h'.inv, h'.online.trans h.online, fun r => ?_⟩
  rcases h'.players r with hr' | ⟨hr', hstate⟩
  · rw [hr']
    exact h.players r
  · rcases h.players r with hr | ⟨hr, hstate'⟩
    · exact .inr ⟨hr', hr ▸ hstate⟩
    · exact .inr ⟨hr', hstate'⟩

theorem Closes.settled {g g' : Game} (h : Closes g g') (hsettled : g.Settled) : g'.Settled := by
  intro r
  rcases h.players r with hr | ⟨hr, -⟩
  · rw [hr]
    exact hsettled r
  · rw [hr]
    exact nofun

theorem Closes.armed {g g' : Game} (h : Closes g g') (harmed : g.Armed) : g'.Armed := by
  intro r haccept
  rcases h.players r with hr | ⟨hr, -⟩
  · rw [hr] at haccept ⊢
    exact harmed r haccept
  · rw [hr] at haccept
    cases haccept

/-- A player whose trade is being carried out is left alone. -/
theorem Closes.players_transfer {g g' : Game} (h : Closes g g') {p : PlayerId}
    (hp : (g.players p).tradeState = .transfer) : g'.players p = g.players p := by
  rcases h.players p with hr | ⟨-, hstate⟩
  · exact hr
  · exact absurd hp hstate

theorem resetTrade_players (g : Game) (p : PlayerId) :
    (g.resetTrade p).players = Function.update g.players p .idle := rfl

theorem internalCloseTrade_closes {g : Game} (h : g.Inv) (p : PlayerId) :
    Closes g (g.internalCloseTrade p) := by
  unfold internalCloseTrade
  split
  · rename_i hpartner
    split
    · exact Closes.refl h
    · rename_i hstate
      have hidle := h.eq_idle_of_partner hpartner
      have hsame : (g.resetTrade p).players = g.players := by
        rw [resetTrade_players, ← hidle, Function.update_eq_self]
      exact ⟨h.congr hsame rfl, rfl, fun r => .inl (congrFun hsame r)⟩
  · rename_i q hq
    split
    · exact Closes.refl h
    · rename_i hstate
      obtain ⟨hqstate, hpstate⟩ := not_or.mp hstate
      have hplayers : ∀ r, ((g.resetTrade p).resetTrade q).players r
          = if r = p ∨ r = q then .idle else g.players r := by
        intro r
        rw [resetTrade_players, resetTrade_players]
        simp only [Function.update_apply]
        by_cases hr : r = q
        · rw [if_pos hr, if_pos (.inr hr)]
        · by_cases hr' : r = p
          · rw [if_neg hr, if_pos hr', if_pos (.inl hr')]
          · rw [if_neg hr, if_neg hr', if_neg (not_or.mpr ⟨hr', hr⟩)]
      refine ⟨h.retire rfl hq hplayers, rfl, fun r => ?_⟩
      rw [hplayers]
      split
      · rename_i hr
        refine .inr ⟨rfl, ?_⟩
        rcases hr with rfl | rfl
        · exact hpstate
        · exact hqstate
      · exact .inl rfl

theorem closeIf_closes {g : Game} (h : g.Inv) (p : PlayerId) (c : Prop) [Decidable c] :
    Closes g (if c then g.internalCloseTrade p else g) := by
  split
  · exact internalCloseTrade_closes h p
  · exact Closes.refl h

theorem checkTradeState_closes {g : Game} (h : g.Inv) (p : PlayerId) (item : ItemId)
    (inside : ItemId → Bool) : Closes g (g.checkTradeState p item inside) := by
  unfold checkTradeState
  split
  · exact Closes.refl h
  · split
    · exact Closes.refl h
    · exact closeIf_closes h p _

theorem onRemoveItem_closes {g : Game} (h : g.Inv) (p : PlayerId) (item : ItemId)
    (inside isHolding : ItemId → Bool) : Closes g (g.onRemoveItem p item inside isHolding) := by
  unfold onRemoveItem
  split
  · exact Closes.refl h
  · have hcheck := checkTradeState_closes h p item inside
    simp only
    split
    · exact hcheck
    · split
      · exact hcheck.trans (internalCloseTrade_closes hcheck.inv p)
      · exact hcheck

theorem onCreatureMove_closes {g : Game} (h : g.Inv) (p : PlayerId) (itemFar partnerFar : Bool) :
    Closes g (g.onCreatureMove p itemFar partnerFar) := by
  unfold onCreatureMove
  split
  · exact Closes.refl h
  · have hitem := closeIf_closes h p ((g.players p).tradeItem.isSome ∧ itemFar)
    exact hitem.trans (closeIf_closes hitem.inv p _)

theorem notify_closes {g : Game} (h : g.Inv) (n : Notification) : Closes g (g.notify n) := by
  cases n with
  | checkItem p item inside => exact checkTradeState_closes h p item inside
  | removeItem p item inside isHolding => exact onRemoveItem_closes h p item inside isHolding
  | creatureMove p itemFar partnerFar => exact onCreatureMove_closes h p itemFar partnerFar

theorem foldl_notify_closes {g : Game} (h : g.Inv) (ns : List Notification) :
    Closes g (ns.foldl notify g) := by
  induction ns generalizing g with
  | nil => exact Closes.refl h
  | cons n ns ih =>
      have hn := notify_closes h n
      exact hn.trans (ih hn.inv)

/-! ## Starting a trade -/

/-- What a start of a trade does: nothing, an offer to a player without a trade,
or an item for a trade that the partner has begun. -/
theorem internalStartTrade_cases {g : Game} (h : g.Inv) (p q : PlayerId) (item : ItemId) :
    let g' := g.internalStartTrade p q item
    g'.online = g.online ∧
      (g'.players = g.players ∨
        (p ≠ q ∧ g.players p = .idle ∧ g.players q = .idle ∧
          g'.players = Function.update (Function.update g.players p
            ⟨.initiated, some q, some item⟩) q ⟨.acknowledge, some p, none⟩) ∨
        ((g.players p = .idle ∧ p = q ∨ (g.players p).tradePartner = some q) ∧
          g'.players = Function.update g.players p ⟨.initiated, some q, some item⟩)) := by
  intro g'
  have hg' : g' = g.internalStartTrade p q item := rfl
  unfold internalStartTrade at hg'
  split at hg'
  · exact ⟨by rw [hg'], .inl (by rw [hg'])⟩
  · rename_i hplayer
    split at hg'
    · exact ⟨by rw [hg'], .inl (by rw [hg'])⟩
    · rename_i hpartner
      simp only [setPlayer, releaseTradeItem] at hg'
      have hp : g.players p = .idle ∨ (g.players p).tradePartner = some q := by
        by_cases hnone : (g.players p).tradeState = .none
        · exact .inl (h.eq_idle hnone)
        · exact .inr (not_not.mp fun hne => hplayer ⟨hnone, fun hack => hne hack.2⟩)
      by_cases hpq : p = q
      · subst hpq
        simp only [Function.update_self, reduceCtorEq, if_false] at hg'
        exact ⟨by rw [hg'], .inr (.inr ⟨hp.imp (⟨·, rfl⟩) id, by rw [hg']⟩)⟩
      · simp only [Function.update_of_ne (Ne.symm hpq)] at hg'
        rcases hp with hidle | hlinked
        · have hqidle : g.players q = .idle := by
            by_cases hnone : (g.players q).tradeState = .none
            · exact h.eq_idle hnone
            · have hback : (g.players q).tradePartner = some p :=
                not_not.mp fun hne => hpartner ⟨hnone, hne⟩
              have hlink := ((h.ok q).linked_of_partner hback).1
              rw [hidle] at hlink
              cases hlink
          simp only [hqidle, PlayerTrade.idle, if_true] at hg'
          exact ⟨by rw [hg'], .inr (.inl ⟨hpq, hidle, hqidle, by rw [hg']⟩)⟩
        · have hback := ((h.ok p).linked_of_partner hlinked).1
          have hstate : (g.players q).tradeState ≠ .none := by
            intro hnone
            rw [h.eq_idle hnone] at hback
            cases hback
          simp only [hstate, if_false] at hg'
          exact ⟨by rw [hg'], .inr (.inr ⟨.inr hlinked, by rw [hg']⟩)⟩

theorem Settled.linked {g : Game} (hsettled : g.Settled) {p q : PlayerId}
    (hq : (g.players p).tradePartner = some q) (hback : (g.players q).tradePartner = some p) :
    g.Linked p :=
  ⟨q, hq, hback, iff_of_false (hsettled p) (hsettled q)⟩

theorem inv_offer {g g' : Game} (h : g.Inv) (hsettled : g.Settled) {p q : PlayerId}
    (honline : g'.online = g.online) (hpq : p ≠ q) (hp : g.players p = .idle)
    (hq : g.players q = .idle) (hponline : g.online p) (hqonline : g.online q) {item : ItemId}
    (hplayers : g'.players = Function.update (Function.update g.players p
      ⟨.initiated, some q, some item⟩) q ⟨.acknowledge, some p, none⟩) :
    g'.Inv ∧ g'.Settled := by
  have hp' : g'.players p = ⟨.initiated, some q, some item⟩ := by
    rw [hplayers, Function.update_of_ne hpq, Function.update_self]
  have hq' : g'.players q = ⟨.acknowledge, some p, none⟩ := by
    rw [hplayers, Function.update_self]
  have hr' : ∀ r, r ≠ p → r ≠ q → g'.players r = g.players r := by
    intro r hrp hrq
    rw [hplayers, Function.update_of_ne hrq, Function.update_of_ne hrp]
  have hsettled' : g'.Settled := by
    intro r
    rcases eq_or_ne r p with rfl | hrp
    · rw [hp']
      exact nofun
    · rcases eq_or_ne r q with rfl | hrq
      · rw [hq']
        exact nofun
      · rw [hr' r hrp hrq]
        exact hsettled r
  refine ⟨⟨fun r => ?_, fun r hr => ?_⟩, hsettled'⟩
  · rcases eq_or_ne r p with rfl | hrp
    · unfold PlayerOk
      rw [hp']
      exact ⟨rfl, hsettled'.linked (by rw [hp']) (by rw [hq'])⟩
    · rcases eq_or_ne r q with rfl | hrq
      · unfold PlayerOk
        rw [hq']
        exact ⟨rfl, hsettled'.linked (by rw [hq']) (by rw [hp'])⟩
      · refine (h.ok r).congr (hr' r hrp hrq) fun hlinked => ?_
        obtain ⟨s, hs, hsback, -⟩ := hlinked
        have hsp : s ≠ p := by
          rintro rfl
          rw [hp] at hsback
          cases hsback
        have hsq : s ≠ q := by
          rintro rfl
          rw [hq] at hsback
          cases hsback
        exact hsettled'.linked (by rw [hr' r hrp hrq, hs]) (by rw [hr' s hsp hsq, hsback])
  · rw [honline] at hr
    have hrp : r ≠ p := by
      rintro rfl
      rw [hponline] at hr
      cases hr
    have hrq : r ≠ q := by
      rintro rfl
      rw [hqonline] at hr
      cases hr
    rw [hr' r hrp hrq]
    exact h.offline r hr

theorem inv_counterOffer {g g' : Game} (h : g.Inv) (hsettled : g.Settled) {p q : PlayerId}
    (honline : g'.online = g.online)
    (hkind : g.players p = .idle ∧ p = q ∨ (g.players p).tradePartner = some q)
    (hponline : g.online p) {item : ItemId}
    (hplayers : g'.players = Function.update g.players p ⟨.initiated, some q, some item⟩) :
    g'.Inv ∧ g'.Settled := by
  have hp' : g'.players p = ⟨.initiated, some q, some item⟩ := by
    rw [hplayers, Function.update_self]
  have hr' : ∀ r, r ≠ p → g'.players r = g.players r := by
    intro r hrp
    rw [hplayers, Function.update_of_ne hrp]
  have hsettled' : g'.Settled := by
    intro r
    rcases eq_or_ne r p with rfl | hrp
    · rw [hp']
      exact nofun
    · rw [hr' r hrp]
      exact hsettled r
  refine ⟨⟨fun r => ?_, fun r hr => ?_⟩, hsettled'⟩
  · rcases eq_or_ne r p with rfl | hrp
    · have hback : (g'.players q).tradePartner = some r := by
        rcases eq_or_ne q r with rfl | hqr
        · rw [hp']
        · rw [hr' q hqr]
          rcases hkind with ⟨-, rfl⟩ | hpartner
          · exact absurd rfl hqr
          · exact ((h.ok r).linked_of_partner hpartner).1
      unfold PlayerOk
      rw [hp']
      exact ⟨rfl, hsettled'.linked (by rw [hp']) hback⟩
    · refine (h.ok r).congr (hr' r hrp) fun hlinked => ?_
      obtain ⟨s, hs, hsback, -⟩ := hlinked
      have hsback' : (g'.players s).tradePartner = some r := by
        rcases eq_or_ne s p with rfl | hsp
        · rw [hp']
          rcases hkind with ⟨hidle, -⟩ | hpartner
          · rw [hidle] at hsback
            cases hsback
          · rw [← hpartner, hsback]
        · rw [hr' s hsp, hsback]
      exact hsettled'.linked (by rw [hr' r hrp, hs]) hsback'
  · rw [honline] at hr
    have hrp : r ≠ p := by
      rintro rfl
      rw [hponline] at hr
      cases hr
    rw [hr' r hrp]
    exact h.offline r hr

theorem internalStartTrade_inv {g : Game} (h : g.Inv) (hsettled : g.Settled) {p q : PlayerId}
    (hp : g.online p) (hq : g.online q) (item : ItemId) :
    (g.internalStartTrade p q item).Inv ∧ (g.internalStartTrade p q item).Settled := by
  obtain ⟨honline, hsame | ⟨hpq, hpidle, hqidle, hplayers⟩ | ⟨hkind, hplayers⟩⟩ :=
    internalStartTrade_cases h p q item
  · exact ⟨h.congr hsame honline, fun r => hsame ▸ hsettled r⟩
  · exact inv_offer h hsettled honline hpq hpidle hqidle hp hq hplayers
  · exact inv_counterOffer h hsettled honline hkind hp hplayers

/-- Nobody accepts by starting a trade. -/
theorem internalStartTrade_armed {g : Game} (h : g.Inv) (harmed : g.Armed) (p q : PlayerId)
    (item : ItemId) : (g.internalStartTrade p q item).Armed := by
  intro r haccept
  obtain ⟨-, hsame | ⟨hpq, -, -, hplayers⟩ | ⟨-, hplayers⟩⟩ := internalStartTrade_cases h p q item
  · rw [hsame] at haccept ⊢
    exact harmed r haccept
  · rw [hplayers] at haccept ⊢
    simp only [Function.update_apply] at haccept ⊢
    split at haccept
    · cases haccept
    · split at haccept
      · cases haccept
      · rename_i hrq hrp
        rw [if_neg hrq, if_neg hrp]
        exact harmed r haccept
  · rw [hplayers] at haccept ⊢
    simp only [Function.update_apply] at haccept ⊢
    split at haccept
    · cases haccept
    · rename_i hrp
      rw [if_neg hrp]
      exact harmed r haccept

/-! ## Accepting a trade -/

theorem setTradeState_players (g : Game) (p r : PlayerId) (s : TradeState) :
    (g.setTradeState p s).players r
      = if r = p then { g.players p with tradeState := s } else g.players r :=
  Function.update_apply _ _ _ _

/-- Players of trades go to `TRADE_ACCEPT` or `TRADE_TRANSFER`, to the latter
with their partners. -/
theorem Inv.restate {g g' : Game} (h : g.Inv) (honline : g'.online = g.online)
    (hpartner : ∀ r, (g'.players r).tradePartner = (g.players r).tradePartner)
    (hstate : ∀ r, g'.players r = g.players r ∨ (g.players r).tradePartner ≠ none ∧
      ((g'.players r).tradeState = .accept ∨ (g'.players r).tradeState = .transfer))
    (htransfer : ∀ r s, (g.players r).tradePartner = some s → (g.players s).tradePartner = some r →
      ((g'.players r).tradeState = .transfer ↔ (g'.players s).tradeState = .transfer)) :
    g'.Inv := by
  have hlinked : ∀ r s, (g.players r).tradePartner = some s → g'.Linked r := by
    intro r s hs
    have hsback := ((h.ok r).linked_of_partner hs).1
    exact ⟨s, by rw [hpartner, hs], by rw [hpartner, hsback], htransfer r s hs hsback⟩
  refine ⟨fun r => ?_, fun r hr => ?_⟩
  · rcases hstate r with hsame | ⟨hsome, hnew⟩
    · exact (h.ok r).congr hsame fun ⟨s, hs, _⟩ => hlinked r s hs
    · obtain ⟨s, hs⟩ := Option.ne_none_iff_exists'.mp hsome
      unfold PlayerOk
      rcases hnew with hnew | hnew
      · rw [hnew]
        exact hlinked r s hs
      · rw [hnew]
        exact hlinked r s hs
  · rw [honline] at hr
    rcases hstate r with hsame | ⟨hsome, -⟩
    · rw [hsame]
      exact h.offline r hr
    · rw [h.offline r hr] at hsome
      exact absurd rfl hsome

theorem accept_inv {g : Game} (h : g.Inv) (hsettled : g.Settled) {p q : PlayerId}
    (hq : (g.players p).tradePartner = some q) :
    (g.setTradeState p .accept).Inv ∧ (g.setTradeState p .accept).Settled := by
  have hsettled' : (g.setTradeState p .accept).Settled := by
    intro r
    rw [setTradeState_players]
    split
    · exact nofun
    · exact hsettled r
  refine ⟨h.restate rfl (fun r => ?_) (fun r => ?_) fun r s _ _ => ?_, hsettled'⟩
  · rw [setTradeState_players]
    split
    · rename_i hr
      rw [hr]
    · rfl
  · rw [setTradeState_players]
    split
    · rename_i hr
      refine .inr ⟨?_, .inl rfl⟩
      rw [hr, hq]
      exact nofun
    · exact .inl rfl
  · exact iff_of_false (hsettled' r) (hsettled' s)

theorem transfer_players (g : Game) (p q r : PlayerId) :
    ((g.setTradeState p .transfer).setTradeState q .transfer).players r
      = if r = p ∨ r = q then { g.players r with tradeState := .transfer } else g.players r := by
  simp only [setTradeState_players]
  by_cases hrq : r = q
  · subst hrq
    by_cases hrp : r = p
    · simp only [hrp, if_true, or_self]
    · simp only [hrp, if_false, if_true, or_true]
  · by_cases hrp : r = p
    · simp only [hrp, if_true, true_or]
      rw [if_neg (hrp ▸ hrq)]
    · simp only [hrq, hrp, if_false, or_self]

theorem transfer_inv {g : Game} (h : g.Inv) (hsettled : g.Settled) {p q : PlayerId}
    (hq : (g.players p).tradePartner = some q) :
    ((g.setTradeState p .transfer).setTradeState q .transfer).Inv := by
  have hback := ((h.ok p).linked_of_partner hq).1
  have hstate : ∀ r, (((g.setTradeState p .transfer).setTradeState q .transfer).players r).tradeState
      = .transfer ↔ r = p ∨ r = q := by
    intro r
    rw [transfer_players]
    split
    · rename_i hr
      exact iff_of_true rfl hr
    · rename_i hr
      exact iff_of_false (hsettled r) hr
  refine h.restate rfl (fun r => ?_) (fun r => ?_) fun r s hs hsback => ?_
  · rw [transfer_players]
    split <;> rfl
  · rw [transfer_players]
    split
    · rename_i hr
      refine .inr ⟨?_, .inr rfl⟩
      rcases hr with rfl | rfl
      · rw [hq]
        exact nofun
      · rw [hback]
        exact nofun
    · exact .inl rfl
  · rw [hstate, hstate]
    constructor
    · rintro (rfl | rfl)
      · rw [hq] at hs
        exact .inr (Option.some.inj hs).symm
      · rw [hback] at hs
        exact .inl (Option.some.inj hs).symm
    · rintro (rfl | rfl)
      · rw [hq] at hsback
        exact .inr (Option.some.inj hsback).symm
      · rw [hback] at hsback
        exact .inl (Option.some.inj hsback).symm

/-- The transfer branch, whatever moving the items tells the players of. -/
theorem transferTrade_spec {g : Game} (h : g.Inv) (hsettled : g.Settled) {p q : PlayerId}
    (hq : (g.players p).tradePartner = some q) (nested : List Notification) :
    (g.transferTrade p q nested).Inv ∧ (g.transferTrade p q nested).online = g.online ∧
      ∀ r, (g.transferTrade p q nested).players r = g.players r ∧ r ≠ p ∨
        (g.transferTrade p q nested).players r = .idle := by
  obtain ⟨moving, hmoving⟩ : ∃ moving, moving = (((g.setTradeState p .transfer).setTradeState q
    .transfer).releaseTradeItem (g.players p).tradeItem).releaseTradeItem (g.players q).tradeItem :=
    ⟨_, rfl⟩
  have hplayersMoving : ∀ r, moving.players r
      = if r = p ∨ r = q then { g.players r with tradeState := .transfer } else g.players r := by
    intro r
    rw [hmoving]
    exact transfer_players g p q r
  have hinv : moving.Inv := (transfer_inv h hsettled hq).congr (by rw [hmoving]; rfl)
    (by rw [hmoving]; rfl)
  have hcloses := foldl_notify_closes hinv nested
  have hpartner : ((nested.foldl notify moving).players p).tradePartner = some q := by
    rw [hcloses.players_transfer]
    · rw [hplayersMoving, if_pos (.inl rfl), hq]
    · rw [hplayersMoving, if_pos (.inl rfl)]
  have hplayers : ∀ r, (g.transferTrade p q nested).players r = if r = p ∨ r = q then .idle else
      (nested.foldl notify moving).players r := by
    intro r
    simp only [transferTrade, ← hmoving, setPlayer, Function.update_apply]
    by_cases hrq : r = q
    · simp only [hrq, if_true, or_true]
    · by_cases hrp : r = p
      · simp only [hrp, if_true, true_or, ite_self]
      · simp only [hrq, hrp, if_false, or_self]
  have honline : (g.transferTrade p q nested).online = (nested.foldl notify moving).online := by
    rw [hmoving]
    rfl
  refine ⟨hcloses.inv.retire honline hpartner hplayers, ?_, fun r => ?_⟩
  · rw [honline, hcloses.online, hmoving]
    rfl
  · rw [hplayers]
    split
    · exact .inr rfl
    · rename_i hr
      rcases hcloses.players r with hsame | ⟨hidle, -⟩
      · rw [hplayersMoving, if_neg hr] at hsame
        exact .inl ⟨hsame, (not_or.mp hr).1⟩
      · exact .inr hidle

/-- What an accept does: nothing, one player accepts, the trade is closed, or the
items change hands. -/
theorem playerAcceptTrade_cases (g : Game) (p : PlayerId) (w : AcceptWorld) :
    g.playerAcceptTrade p w = (g, none) ∨
      ∃ q accepted, (g.players p).tradePartner = some q ∧ accepted = g.setTradeState p .accept ∧
        ((g.players p).tradeState = .acknowledge ∨ (g.players p).tradeState = .initiated) ∧
        (g.playerAcceptTrade p w = (accepted, none) ∨
          g.playerAcceptTrade p w = (accepted.internalCloseTrade p, none) ∨
          ((accepted.players q).tradeState = .accept ∧
            g.playerAcceptTrade p w = (accepted.transferTrade p q w.nested,
              some (transferOf w p q (accepted.players p).tradeItem
                (accepted.players q).tradeItem)))) := by
  unfold playerAcceptTrade
  split
  · exact .inl rfl
  · split
    · exact .inl rfl
    · rename_i hstate
      split
      · exact .inl rfl
      · rename_i q hq
        refine .inr ⟨q, _, hq, rfl, not_not.mp hstate, ?_⟩
        simp only
        split
        · rename_i haccept
          split
          · exact .inr (.inl rfl)
          · split
            · exact .inr (.inl rfl)
            · exact .inr (.inr ⟨haccept, rfl⟩)
        · exact .inl rfl

theorem playerAcceptTrade_inv {g : Game} (h : g.Inv) (hsettled : g.Settled) (p : PlayerId)
    (w : AcceptWorld) :
    (g.playerAcceptTrade p w).1.Inv ∧ (g.playerAcceptTrade p w).1.Settled := by
  rcases playerAcceptTrade_cases g p w with hnothing | ⟨q, accepted, hq, haccepted, -, hcases⟩
  · rw [hnothing]
    exact ⟨h, hsettled⟩
  · obtain ⟨hinv, hsettled'⟩ := accept_inv h hsettled hq
    rw [← haccepted] at hinv hsettled'
    rcases hcases with hwait | hclose | ⟨-, htransfer⟩
    · rw [hwait]
      exact ⟨hinv, hsettled'⟩
    · rw [hclose]
      have hcloses := internalCloseTrade_closes hinv p
      exact ⟨hcloses.inv, hcloses.settled hsettled'⟩
    · rw [htransfer]
      have hq' : (accepted.players p).tradePartner = some q := by
        rw [haccepted, setTradeState_players, if_pos rfl, hq]
      obtain ⟨hinv', -, hplayers⟩ := transferTrade_spec hinv hsettled' hq' w.nested
      refine ⟨hinv', fun r => ?_⟩
      rcases hplayers r with ⟨hsame, -⟩ | hidle
      · rw [hsame]
        exact hsettled' r
      · rw [hidle]
        exact nofun

/-- If who accepts has made an offer, who has accepted has an item, and so do both
players of a transfer. -/
theorem playerAcceptTrade_armed {g : Game} (h : g.Inv) (hsettled : g.Settled) (harmed : g.Armed)
    (p : PlayerId) (w : AcceptWorld) (hguard : (g.players p).tradeState ≠ .acknowledge) :
    (g.playerAcceptTrade p w).1.Armed ∧ ∀ t, (g.playerAcceptTrade p w).2 = some t →
      t.playerTradeItem.isSome ∧ t.partnerTradeItem.isSome ∧ t.dereferencesMissing = false := by
  rcases playerAcceptTrade_cases g p w with hnothing | ⟨q, accepted, hq, haccepted, hstate, hcases⟩
  · rw [hnothing]
    exact ⟨harmed, nofun⟩
  · obtain ⟨hinv, hsettled'⟩ := accept_inv h hsettled hq
    have hitem : (g.players p).tradeItem.isSome := by
      have hok := h.ok p
      unfold PlayerOk at hok
      rw [hstate.resolve_left hguard] at hok
      exact hok.1
    have harmed' : accepted.Armed := by
      intro r haccept
      rw [haccepted, setTradeState_players] at haccept ⊢
      split at haccept
      · rename_i hr
        rw [if_pos hr]
        exact hitem
      · rename_i hr
        rw [if_neg hr]
        exact harmed r haccept
    rw [← haccepted] at hinv hsettled'
    rcases hcases with hwait | hclose | ⟨haccept, htransfer⟩
    · rw [hwait]
      exact ⟨harmed', nofun⟩
    · rw [hclose]
      exact ⟨(internalCloseTrade_closes hinv p).armed harmed', nofun⟩
    · rw [htransfer]
      have hq' : (accepted.players p).tradePartner = some q := by
        rw [haccepted, setTradeState_players, if_pos rfl, hq]
      obtain ⟨-, -, hplayers⟩ := transferTrade_spec hinv hsettled' hq' w.nested
      refine ⟨fun r haccept => ?_, fun t ht => ?_⟩
      · rcases hplayers r with ⟨hsame, -⟩ | hidle
        · rw [hsame] at haccept ⊢
          exact harmed' r haccept
        · rw [hidle] at haccept
          cases haccept
      · cases ht
        have hplayer : (accepted.players p).tradeItem.isSome := by
          rw [haccepted, setTradeState_players, if_pos rfl]
          exact hitem
        have hpartner := harmed' q haccept
        refine ⟨hplayer, hpartner, ?_⟩
        rw [transferOf, decide_eq_false_iff_not]
        rintro (⟨-, hnone⟩ | ⟨-, hnone⟩)
        · rw [hnone] at hplayer
          cases hplayer
        · rw [hnone] at hpartner
          cases hpartner

/-! ## Every step -/

theorem login_inv {g : Game} (h : g.Inv) (hsettled : g.Settled) (p : PlayerId) :
    (g.login p).Inv ∧ (g.login p).Settled ∧ (g.login p).players = g.players := by
  unfold login
  split
  · exact ⟨h, hsettled, rfl⟩
  · rename_i hoffline
    have hidle : g.players p = .idle := h.offline p (Bool.not_eq_true _ ▸ hoffline)
    have hsame : (g.setPlayer p .idle).players = g.players := by
      rw [setPlayer, ← hidle, Function.update_eq_self]
    refine ⟨⟨fun r => ?_, fun r hr => ?_⟩, fun r => hsame ▸ hsettled r, hsame⟩
    · have hinv : (g.setPlayer p .idle).Inv := h.congr hsame rfl
      exact hinv.ok r
    · rw [hsame]
      refine h.offline r ?_
      simp only [Function.update_apply] at hr
      split at hr
      · cases hr
      · exact hr

theorem internalCloseTrade_idle {g : Game} (hsettled : g.Settled) {p q : PlayerId}
    (hq : (g.players p).tradePartner = some q) : (g.internalCloseTrade p).players p = .idle := by
  rw [internalCloseTrade, hq]
  simp only [hsettled p, hsettled q, or_self, if_false, resetTrade_players, Function.update_apply,
    if_true, ite_self]

theorem onRemoveCreature_inv {g : Game} (h : g.Inv) (hsettled : g.Settled) (p : PlayerId) :
    (g.onRemoveCreature p).Inv ∧ (g.onRemoveCreature p).Settled ∧
      (g.Armed → (g.onRemoveCreature p).Armed) := by
  have hcloses := closeIf_closes h p (g.players p).tradePartner.isSome
  have hidle : (g.onRemoveCreature p).players p = .idle := by
    unfold onRemoveCreature
    cases hpartner : (g.players p).tradePartner with
    | none => exact h.eq_idle_of_partner hpartner
    | some q => exact internalCloseTrade_idle hsettled hpartner
  refine ⟨⟨fun r => hcloses.inv.ok r, fun r hr => ?_⟩, hcloses.settled hsettled, hcloses.armed⟩
  rcases eq_or_ne r p with rfl | hrp
  · exact hidle
  · refine hcloses.inv.offline r ?_
    simpa only [onRemoveCreature, Function.update_of_ne hrp] using hr

theorem playerRequestTrade_eq (g : Game) (p q : PlayerId) (item : ItemId) (w : RequestWorld) :
    g.playerRequestTrade p q item w = g ∨ g.online p ∧ g.online q ∧
      g.playerRequestTrade p q item w = g.internalStartTrade p q item := by
  unfold playerRequestTrade
  by_cases hp : g.online p
  · by_cases hq : ¬ g.online q ∨ q = p
    · exact .inl (by rw [if_neg (not_not_intro hp), if_pos hq])
    · rw [if_neg (not_not_intro hp), if_neg hq]
      split_ifs
      · exact .inl rfl
      · exact .inl rfl
      · exact .inr ⟨hp, not_not.mp (not_or.mp hq).1, rfl⟩
      · exact .inl rfl
      · exact .inl rfl
  · exact .inl (if_pos hp)

theorem step_inv {g : Game} (h : g.Inv) (hsettled : g.Settled) (a : Action) :
    (g.step a).1.Inv ∧ (g.step a).1.Settled := by
  cases a with
  | login p => exact ⟨(login_inv h hsettled p).1, (login_inv h hsettled p).2.1⟩
  | logout p => exact ⟨(onRemoveCreature_inv h hsettled p).1, (onRemoveCreature_inv h hsettled p).2.1⟩
  | request p q item w =>
      rw [step]
      rcases playerRequestTrade_eq g p q item w with hsame | ⟨hp, hq, hstart⟩
      · rw [hsame]
        exact ⟨h, hsettled⟩
      · rw [hstart]
        exact internalStartTrade_inv h hsettled hp hq item
  | houseTrade p q item =>
      rw [step, houseStartTrade]
      split
      · rename_i honline
        exact internalStartTrade_inv h hsettled honline.1 honline.2 item
      · exact ⟨h, hsettled⟩
  | accept p w => exact playerAcceptTrade_inv h hsettled p w
  | lookIn p counterOffer => exact ⟨h, hsettled⟩
  | close p =>
      have hcloses := closeIf_closes h p (g.online p)
      exact ⟨hcloses.inv, hcloses.settled hsettled⟩
  | notify n =>
      have hcloses := notify_closes h n
      exact ⟨hcloses.inv, hcloses.settled hsettled⟩

/-- Who accepts has made an offer of its own. -/
def Action.OfferMade (g : Game) : Action → Prop
  | .accept p _ => (g.players p).tradeState ≠ .acknowledge
  | _ => True

instance (g : Game) : (a : Action) → Decidable (a.OfferMade g)
  | .accept p _ => inferInstanceAs (Decidable ((g.players p).tradeState ≠ .acknowledge))
  | .login _ | .logout _ | .request .. | .houseTrade .. | .lookIn .. | .close _ | .notify _ =>
      isTrue trivial

theorem step_armed {g : Game} (h : g.Inv) (hsettled : g.Settled) (harmed : g.Armed) (a : Action)
    (hoffer : a.OfferMade g) :
    (g.step a).1.Armed ∧ ∀ t, (g.step a).2 = some t →
      t.playerTradeItem.isSome ∧ t.partnerTradeItem.isSome ∧ t.dereferencesMissing = false := by
  cases a with
  | login p =>
      refine ⟨fun r haccept => ?_, nofun⟩
      rw [step, (login_inv h hsettled p).2.2] at haccept ⊢
      exact harmed r haccept
  | logout p => exact ⟨(onRemoveCreature_inv h hsettled p).2.2 harmed, nofun⟩
  | request p q item w =>
      rw [step]
      rcases playerRequestTrade_eq g p q item w with hsame | ⟨-, -, hstart⟩
      · rw [hsame]
        exact ⟨harmed, nofun⟩
      · rw [hstart]
        exact ⟨internalStartTrade_armed h harmed p q item, nofun⟩
  | houseTrade p q item =>
      rw [step, houseStartTrade]
      split
      · exact ⟨internalStartTrade_armed h harmed p q item, nofun⟩
      · exact ⟨harmed, nofun⟩
  | accept p w => exact playerAcceptTrade_armed h hsettled harmed p w hoffer
  | lookIn p counterOffer => exact ⟨harmed, nofun⟩
  | close p => exact ⟨(closeIf_closes h p (g.online p)).armed harmed, nofun⟩
  | notify n => exact ⟨(notify_closes h n).armed harmed, nofun⟩

/-! ## Every run -/

/-- The state that the trade data prescribe between two steps. -/
def Consistent (g : Game) : Prop :=
  (∀ p q, (g.players p).tradePartner = some q → (g.players q).tradePartner = some p) ∧
    (∀ p, (g.players p).tradePartner = none ↔ (g.players p).tradeState = .none) ∧
    ∀ p, (g.players p).tradeState = .none → (g.players p).tradeItem = none

theorem Inv.consistent {g : Game} (h : g.Inv) : g.Consistent := by
  refine ⟨fun p q hq => ((h.ok p).linked_of_partner hq).1, fun p => ⟨fun hnone => ?_, fun hnone => ?_⟩,
    fun p hnone => ?_⟩
  · rw [h.eq_idle_of_partner hnone]
    rfl
  · rw [h.eq_idle hnone]
    rfl
  · rw [h.eq_idle hnone]
    rfl

theorem run_inv {g : Game} (h : g.Inv) (hsettled : g.Settled) (actions : List Action) :
    (g.run actions).1.Inv := by
  induction actions generalizing g with
  | nil => exact h
  | cons a actions ih =>
      obtain ⟨h', hsettled'⟩ := step_inv h hsettled a
      exact ih h' hsettled'

/-- With or without an offer, partners point to each other and who is in no trade
has neither partner nor item. -/
theorem run_consistent (actions : List Action) : (init.run actions).1.Consistent :=
  (run_inv inv_init (fun _ => nofun) actions).consistent

def OffersMade (g : Game) : List Action → Prop
  | [] => True
  | a :: actions => a.OfferMade g ∧ OffersMade (g.step a).1 actions

theorem run_transfers {g : Game} (h : g.Inv) (hsettled : g.Settled) (harmed : g.Armed)
    {actions : List Action} (hoffers : g.OffersMade actions) :
    ∀ t ∈ (g.run actions).2,
      t.playerTradeItem.isSome ∧ t.partnerTradeItem.isSome ∧ t.dereferencesMissing = false := by
  induction actions generalizing g with
  | nil => exact nofun
  | cons a actions ih =>
      obtain ⟨hoffer, hoffers⟩ := hoffers
      obtain ⟨h', hsettled'⟩ := step_inv h hsettled a
      obtain ⟨harmed', htransfer⟩ := step_armed h hsettled harmed a hoffer
      intro t ht
      rcases List.mem_append.mp ht with ht | ht
      · exact htransfer t (Option.mem_toList.mp ht)
      · exact ih h' hsettled' harmed' hoffers t ht

/-- In a run in which nobody accepts without an offer, the trade data are
consistent after every step, and every transfer has both items. -/
theorem trade_state_machine_safe (actions : List Action) (h : init.OffersMade actions) :
    (init.run actions).1.Consistent ∧ ∀ t ∈ (init.run actions).2,
      t.playerTradeItem.isSome ∧ t.partnerTradeItem.isSome ∧ t.dereferencesMissing = false :=
  ⟨(run_inv inv_init (fun _ => nofun) actions).consistent,
    run_transfers inv_init (fun _ => nofun) nofun h⟩

theorem trade_state_machine_safe_one_trade :
    let request : RequestWorld := ⟨true, fun _ _ => false, 0, true⟩
    let accept : AcceptWorld := ⟨true, true, fun _ => none, []⟩
    (init.run [.login 1, .login 2, .request 1 2 10 request, .request 2 1 20 request, .accept 1 accept,
        .accept 2 accept]).2 = [⟨some 20, some 10, false⟩] ∧
      (init.run [.login 1, .login 2, .request 1 2 10 request, .request 2 1 20 request,
        .accept 1 accept, .accept 2 accept]).1.Consistent := by
  intro request accept
  have hoffers : init.OffersMade [.login 1, .login 2, .request 1 2 10 request,
      .request 2 1 20 request, .accept 1 accept, .accept 2 accept] :=
    ⟨trivial, trivial, trivial, trivial, by decide, by decide, trivial⟩
  exact ⟨by decide, (trade_state_machine_safe _ hoffers).1⟩

/-- Player 1 offers its backpack and accepts; player 2, asked to trade, accepts
without an offer, and its null item is dereferenced. -/
theorem accept_without_offer :
    let request : RequestWorld := ⟨true, fun _ _ => false, 0, true⟩
    let accept : AcceptWorld := ⟨true, true, fun p => if p = 1 then some 10 else none, []⟩
    (init.run [.login 1, .login 2, .request 1 2 10 request, .accept 1 accept,
        .accept 2 accept]).2 = [⟨none, some 10, true⟩] := by
  decide

end Game

end Trade

end Bruxo
