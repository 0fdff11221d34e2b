import Bruxo.Lib.Bytes
import Bruxo.Xtea
import Bruxo.AccountStorage
import Bruxo.NetworkMessage
import Bruxo.OutputMessage
import Bruxo.FileLoader
import Bruxo.Lib.Trie
import Bruxo.Map
import Bruxo.ItemAttributes
import Bruxo.ItemSerialize
import Bruxo.ItemRoundTrip
import Bruxo.Trade
import Bruxo.World
import Bruxo.Cylinder
import Bruxo.Things
import Bruxo.MoveItem
import Bruxo.Lib.AssocList
import Bruxo.WildcardTree
import Bruxo.Party
import Bruxo.WalkCache
import Bruxo.ContainerWeight
import Bruxo.TileStack
import Bruxo.TileFlags
import Bruxo.SpectatorSearch
import Bruxo.SpectatorCache
import Bruxo.Decay
import Bruxo.DecayRuns
import Bruxo.Capacity
import Bruxo.KnownCreatures
import Bruxo.LoginQueue
import Bruxo.Lib.SkipCode
import Bruxo.TileDescription
import Bruxo.MapDescription
import Bruxo.Condition
import Bruxo.ConditionSerialize
import Bruxo.ConditionRoundTrip
import Bruxo.StoredConditions
import Bruxo.ConditionBalance
import Bruxo.ItemForest
import Bruxo.ItemForestSave
import Bruxo.ItemForestLoad
import Bruxo.PathSearch
import Bruxo.PathSearchSound
import Bruxo.PathSearchWalk
import Bruxo.HouseTile
import Bruxo.HouseTileRoundTrip
import Bruxo.HouseItemAttributes
import Bruxo.TransactionLock
import Bruxo.BatchedInsert
import Bruxo.SpeechMessage
import Bruxo.SaleList
import Bruxo.CountedLists
import Bruxo.SpectatorSight
import Bruxo.Spawn
import Bruxo.SpawnBookkeeping
import Bruxo.Lib.Decimal
import Bruxo.Lib.Entries
import Bruxo.PlayerRow
import Bruxo.Equipment
import Bruxo.Lib.Ledger
import Bruxo.EquipmentResidue
import Bruxo.ItemForestTree
import Bruxo.Mailbox
import Bruxo.MailDelivery
import Bruxo.Autosend
import Bruxo.DatabaseTasks
import Bruxo.CreatureCheck
import Bruxo.Raids
import Bruxo.Scheduler
import Bruxo.Chat
import Bruxo.Summons
import Bruxo.Beds
import Bruxo.HouseTransfer
import Bruxo.HouseTransferConserved
import Bruxo.MonsterTargets
import Bruxo.MonsterTargetsLists
import Bruxo.MonsterTargetsCalls
import Bruxo.MonsterTargetsFresh
import Bruxo.GameStorage
import Bruxo.PathPruning
import Bruxo.RemovedCreature
import Bruxo.ItemDeque
import Bruxo.ItemTypeRemoval
import Bruxo.NpcAudience
import Bruxo.ItemValue
import Bruxo.AddItem
import Bruxo.Money
import Bruxo.KeptItems
import Bruxo.Lib.BreadthFirst
import Bruxo.RemoveMoney
import Bruxo.LevelProgress
import Bruxo.ManaSpent
import Bruxo.SkillTries
import Bruxo.ItemEquals
import Bruxo.SightLine
import Bruxo.Lib.RowMajor
import Bruxo.MatrixArea
import Bruxo.Experience
import Bruxo.CombatDamage
import Bruxo.ExperienceSplit
import Bruxo.DamageList
import Bruxo.DecayOthers
import Bruxo.DecayTiming
import Bruxo.Adler
import Bruxo.Authenticator
import Bruxo.Lib.Ascii
import Bruxo.TalkActions
import Bruxo.Spells
import Bruxo.HouseAccess
import Bruxo.DistanceStep
import Bruxo.MoveView
import Bruxo.Lib.Sweep
import Bruxo.RemoveTile
import Bruxo.Lib.Follow
import Bruxo.Teleport
import Bruxo.TeleportChain
import Bruxo.TeleportMoves
import Bruxo.TeleportRest
import Bruxo.ExplodeString
import Bruxo.ContainerIterator
import Bruxo.AttributeStore
import Bruxo.Lib.Saturate
import Bruxo.PlayerStats
import Bruxo.CombatArea
import Bruxo.Connection
import Bruxo.Lib.Since
import Bruxo.Skulls
import Bruxo.SkullTicks
import Bruxo.SkullAttacks
