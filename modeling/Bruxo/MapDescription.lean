import Bruxo.Lib.SkipCode
import Bruxo.Map
import Bruxo.TileDescription
import Bruxo.WalkCache
import Mathlib.Data.List.Forall2

/-!
# Map descriptions

`ProtocolGame::GetMapDescription` goes over the floors of the map and over the squares of
each, and writes the descriptions of the tiles that are there; a run of squares without a
tile is one count. The client reads the things of a square up to the next count.

The floor `z` is one of the map, as that of any position: the loop over the floors would
not end for one below them.
-/

namespace Bruxo.MapDescription

open TileStack TileDescription NetworkMessage SkipCode

/-! ## Writing -/

structure Writer (κ : Type) where
  msg : NetworkMessage
  known : κ
  skip : Int

section Write

variable {κ : Type} (o : Observer κ)

/-- What `addItem` or `AddCreature` writes, and the known creatures after it. -/
def thingFields (s : Tile) (known : κ) : TileThing → List Field × κ
  | .item i => (o.addItem (s.thing i), known)
  | .creature c =>
      let ((isKnown, removedKnown), known) := o.isKnownCreature known (o.creature c).id
      (o.addCreature (o.creature c) isKnown removedKnown, known)

def sendThing (s : Tile) (w : Writer κ) (t : TileThing) : Writer κ :=
  let (fields, known) := thingFields o s w.known t
  { w with msg := w.msg.writeFields fields, known := known }

def getTileDescription (s : Tile) (pos : Position) (w : Writer κ) : Writer κ :=
  (o.described s pos).foldl (sendThing o s) w

variable (map : Map Tile)

/-- One turn of the loops of `GetFloorDescription`. -/
def describeSquare (w : Writer κ) (pos : Position) : Writer κ :=
  match map.getTile pos.x pos.y pos.z with
  | some tile =>
      let msg :=
        if w.skip ≥ 0 then (w.msg.addByte (UInt8.ofNat w.skip.toNat)).addByte 0xFF else w.msg
      getTileDescription o tile pos { w with msg := msg, skip := 0 }
  | none =>
      if w.skip = 0xFE then { w with msg := (w.msg.addByte 0xFF).addByte 0xFF, skip := -1 }
      else { w with skip := w.skip + 1 }

/-- The square of the `nx`-th column and the `ny`-th row. -/
def square (x y z offset : Int) (nx ny : Nat) : Position where
  x := WalkCache.toCoordinate (x + nx + offset)
  y := WalkCache.toCoordinate (y + ny + offset)
  z := UInt8.ofNat (z % 256).toNat

def getFloorDescription (x y z width height offset : Int) (w : Writer κ) : Writer κ :=
  (List.range width.toNat).foldl (fun w nx =>
    (List.range height.toNat).foldl (fun w ny =>
      describeSquare o map w (square x y z offset nx ny)) w) w

def MAP_MAX_LAYERS : Int := 16

/-- `nz` from `startz` to `endz` -/
def floors (z : Int) : List Int :=
  if z > 7 then
    let startz := z - 2
    let endz := min (MAP_MAX_LAYERS - 1) (z + 2)
    (List.range (endz + 1 - startz).toNat).map fun k => startz + k
  else (List.range 8).map fun k => 7 - k

def getMapDescription (x y z width height : Int) (w : Writer κ) : Writer κ :=
  let w := (floors z).foldl (fun w nz =>
    getFloorDescription o map x y nz width height (z - nz) w) { w with skip := -1 }
  if w.skip ≥ 0 then
    { w with msg := (w.msg.addByte (UInt8.ofNat w.skip.toNat)).addByte 0xFF }
  else w

/-! ## The grid -/

/-- The squares of a map description in their order. -/
def squares (x y z width height : Int) : List Position :=
  (floors z).flatMap fun nz =>
    (List.range width.toNat).flatMap fun nx =>
      (List.range height.toNat).map fun ny => square x y nz (z - nz) nx ny

def describeThings (s : Tile) : κ → List TileThing → List (List Field) × κ
  | known, [] => ([], known)
  | known, t :: ts =>
      let (fields, known) := thingFields o s known t
      let (rest, known) := describeThings s known ts
      (fields :: rest, known)

/-- The descriptions of the squares, `none` where there is no tile; the creatures become
known one after the other. -/
def grid : κ → List Position → List (Option (List (List Field)))
  | _, [] => []
  | known, pos :: rest =>
      match map.getTile pos.x pos.y pos.z with
      | some tile =>
          let (things, known) := describeThings o tile known (o.described tile pos)
          some things :: grid known rest
      | none => none :: grid known rest

def skipFields (count : UInt8) : List Field := [.byte count, .byte 0xFF]

/-- All that is written for a map description. -/
def mapFields (known : κ) (x y z width height : Int) : List Field :=
  encode List.flatten skipFields (-1) (grid o map known (squares x y z width height))

variable {o map}

theorem sendThings_eq (s : Tile) (w : Writer κ) (ts : List TileThing) :
    ts.foldl (sendThing o s) w =
      { w with
        msg := w.msg.writeFields (describeThings o s w.known ts).1.flatten
        known := (describeThings o s w.known ts).2 } := by
  induction ts generalizing w with
  | nil => rfl
  | cons t ts ih =>
      rw [List.foldl_cons, ih]
      simp only [sendThing, describeThings, List.flatten_cons, writeFields_append]

theorem addMarker_eq (m : NetworkMessage) (count : UInt8) :
    (m.addByte count).addByte 0xFF = m.writeFields (skipFields count) := rfl

theorem flush_eq (m : NetworkMessage) (skip : Int) :
    (if skip ≥ 0 then (m.addByte (UInt8.ofNat skip.toNat)).addByte 0xFF else m) =
      m.writeFields (flush skipFields skip) := by
  unfold flush
  split <;> rfl

variable (map) in
/-- The squares are sent as the cells of a grid. -/
theorem describeSquares_eq (w : Writer κ) (ps : List Position) :
    (ps.foldl (describeSquare o map) w).msg =
        w.msg.writeFields (encodeCells List.flatten skipFields w.skip (grid o map w.known ps)).1 ∧
      (ps.foldl (describeSquare o map) w).skip =
        (encodeCells List.flatten skipFields w.skip (grid o map w.known ps)).2 := by
  induction ps generalizing w with
  | nil => exact ⟨rfl, rfl⟩
  | cons pos ps ih =>
      obtain ⟨hmsg, hskip⟩ := ih (describeSquare o map w pos)
      rw [List.foldl_cons, hmsg, hskip, grid]
      cases htile : map.getTile pos.x pos.y pos.z with
      | some tile =>
          simp only [describeSquare, htile, getTileDescription, sendThings_eq, flush_eq,
            encodeCells, encodeCell, writeFields_append, and_true]
      | none =>
          simp only [describeSquare, htile, encodeCells, encodeCell]
          split
          · simp only [addMarker_eq, writeFields_append, and_true]
          · exact ⟨rfl, rfl⟩

theorem getMapDescription_eq (x y z width height : Int) (w : Writer κ) :
    (getMapDescription o map x y z width height w).msg =
      w.msg.writeFields (mapFields o map w.known x y z width height) := by
  have hfold : (floors z).foldl (fun w nz =>
      getFloorDescription o map x y nz width height (z - nz) w) { w with skip := -1 } =
        (squares x y z width height).foldl (describeSquare o map) { w with skip := -1 } := by
    simp only [squares, getFloorDescription, List.foldl_flatMap, List.foldl_map]
  obtain ⟨hmsg, hskip⟩ := describeSquares_eq (o := o) map { w with skip := -1 }
    (squares x y z width height)
  rw [getMapDescription, hfold, mapFields, encode, writeFields_append, ← hmsg, ← hskip,
    ← flush_eq]
  split <;> rfl

end Write

/-! ## Reading -/

/-- What the client has to read next. -/
inductive FieldKind where
  | byte | uint16 | uint32 | string

namespace FieldKind

/-- `n` bytes and what is behind them. -/
def take (n : Nat) (bs : List UInt8) : Option (List UInt8 × List UInt8) :=
  if n ≤ bs.length then some (bs.take n, bs.drop n) else none

def read (bs : List UInt8) : FieldKind → Option (Field × List UInt8)
  | byte => (take 1 bs).map fun (v, bs) => (.byte (UInt8.ofNat (Bytes.leNat v)), bs)
  | uint16 => (take 2 bs).map fun (v, bs) => (.uint16 (UInt16.ofNat (Bytes.leNat v)), bs)
  | uint32 => (take 4 bs).map fun (v, bs) => (.uint32 (UInt32.ofNat (Bytes.leNat v)), bs)
  | string =>
      match take 2 bs with
      | none => none
      | some (len, bs) => (take (Bytes.leNat len) bs).map fun (s, bs) => (.string s, bs)

def readAll : List FieldKind → List UInt8 → Option (List Field × List UInt8)
  | [], bs => some ([], bs)
  | k :: ks, bs =>
      match k.read bs with
      | none => none
      | some (f, bs) => (readAll ks bs).map fun (fs, bs) => (f :: fs, bs)

/-- The field is of the kind, and of a length that can be written. -/
def Reads : FieldKind → Field → Prop
  | byte, .byte _ => True
  | uint16, .uint16 _ => True
  | uint32, .uint32 _ => True
  | string, .string s => s.length ≤ 8192
  | _, _ => False

theorem take_append {n : Nat} {bs rest : List UInt8} (h : bs.length = n) :
    take n (bs ++ rest) = some (bs, rest) := by
  subst h
  rw [take, if_pos (by rw [List.length_append]; omega), List.take_left', List.drop_left'] <;> rfl

theorem read_encode {k : FieldKind} {f : Field} (h : k.Reads f) (rest : List UInt8) :
    k.read (f.encode ++ rest) = some (f, rest) := by
  cases k <;> cases f <;> try exact h.elim
  case byte.byte v => simp [read, Field.encode, take, Bytes.leNat]
  case uint16.uint16 v =>
    rw [read, Field.encode, take_append (Bytes.length_leBytes ..)]
    simp
  case uint32.uint32 v =>
    rw [read, Field.encode, take_append (Bytes.length_leBytes ..)]
    simp
  case string.string s =>
    have hlen : Bytes.leNat (Bytes.leBytes 2 s.length) = s.length :=
      Bytes.leNat_leBytes_of_lt (Nat.lt_of_le_of_lt h (show 8192 < 256 ^ 2 by decide))
    rw [read, Field.encode, List.append_assoc, take_append (Bytes.length_leBytes ..)]
    simp only [hlen, take_append rfl, Option.map_some]

theorem readAll_encode {ks : List FieldKind} {fs : List Field} (h : List.Forall₂ Reads ks fs)
    (rest : List UInt8) : readAll ks (fs.flatMap Field.encode ++ rest) = some (fs, rest) := by
  induction h with
  | nil => rfl
  | cons hf _ ih =>
      rw [List.flatMap_cons, List.append_assoc, readAll, read_encode hf]
      simp only [ih, Option.map_some]

theorem length_read {k : FieldKind} {bs rest : List UInt8} {f : Field}
    (h : k.read bs = some (f, rest)) : bs.length = f.encode.length + rest.length := by
  have htake : ∀ {n : Nat} {bs v rest : List UInt8}, take n bs = some (v, rest) →
      v.length = n ∧ bs.length = n + rest.length := by
    intro n bs v rest h
    rw [take] at h
    split at h
    · cases h
      rw [List.length_take, List.length_drop]
      omega
    · cases h
  cases k with
  | byte =>
      obtain ⟨⟨v, rest'⟩, hv, heq⟩ := Option.map_eq_some_iff.mp h
      cases heq
      exact (htake hv).2
  | uint16 =>
      obtain ⟨⟨v, rest'⟩, hv, heq⟩ := Option.map_eq_some_iff.mp h
      cases heq
      exact (htake hv).2
  | uint32 =>
      obtain ⟨⟨v, rest'⟩, hv, heq⟩ := Option.map_eq_some_iff.mp h
      cases heq
      exact (htake hv).2
  | string =>
      rw [read] at h
      split at h
      · cases h
      · next len bs' hlen =>
          obtain ⟨⟨v, rest'⟩, hv, heq⟩ := Option.map_eq_some_iff.mp h
          cases heq
          obtain ⟨hvlen, hbs'⟩ := htake hv
          have hbs := (htake hlen).2
          rw [Field.encode, List.length_append, Bytes.length_leBytes]
          omega

theorem length_readAll {ks : List FieldKind} {bs rest : List UInt8} {fs : List Field}
    (h : readAll ks bs = some (fs, rest)) :
    bs.length = (fs.flatMap Field.encode).length + rest.length := by
  induction ks generalizing bs fs with
  | nil =>
      cases h
      simp
  | cons k ks ih =>
      rw [readAll] at h
      split at h
      · cases h
      · next f bs' hread =>
          obtain ⟨⟨fs', rest'⟩, hrest, heq⟩ := Option.map_eq_some_iff.mp h
          cases heq
          have := length_read hread
          have := ih hrest
          rw [List.flatMap_cons, List.length_append]
          omega

theorem Reads.block_le {k : FieldKind} {f : Field} (h : k.Reads f) : f.blockLength ≤ 8192 := by
  cases k <;> cases f <;> first | exact h.elim | exact Nat.zero_le _ | exact h

theorem block_le_of_reads {ks : List FieldKind} {fs : List Field} (h : List.Forall₂ Reads ks fs) :
    ∀ f ∈ fs, f.blockLength ≤ 8192 := by
  induction h with
  | nil => exact fun _ hf => absurd hf List.not_mem_nil
  | cons hf _ ih =>
      intro g hg
      rcases List.mem_cons.mp hg with rfl | hg
      · exact hf.block_le
      · exact ih g hg

end FieldKind

/-- A client; `hasSubType` tells the items that it reads a byte for, by their client ids. -/
structure Client where
  isOTCv8 : Bool
  hasSubType : UInt16 → Bool

namespace Client

variable (c : Client)

def readUInt16 (bs : List UInt8) : Option (UInt16 × List UInt8) :=
  (FieldKind.take 2 bs).map fun (v, bs) => (UInt16.ofNat (Bytes.leNat v), bs)

/-- The ids, the name, the health and the direction. -/
def headKinds (full : Bool) : List FieldKind :=
  (if full then [.uint32, .uint32, .string] else [.uint32]) ++ [.byte, .byte]

def outfitKinds (lookType : UInt16) : List FieldKind :=
  (if lookType ≠ 0 then [.byte, .byte, .byte, .byte, .byte] else [.uint16]) ++
    if c.isOTCv8 then [.uint16] else []

/-- The light, the speed, the marks at the name and the walkthrough. -/
def tailKinds (full : Bool) : List FieldKind :=
  [.byte, .byte, .uint16, .byte, .byte] ++ (if full then [.byte] else []) ++ [.byte]

/-- The rest of a creature, in full or by its id alone. -/
def readCreature (full : Bool) (bs : List UInt8) : Option (List Field × List UInt8) := do
  let (head, bs) ← FieldKind.readAll (headKinds full) bs
  let (lookType, bs) ← readUInt16 bs
  let (outfit, bs) ← FieldKind.readAll (c.outfitKinds lookType) bs
  let (tail, bs) ← FieldKind.readAll (tailKinds full) bs
  some (head ++ [.uint16 lookType] ++ outfit ++ tail, bs)

def readThing (bs : List UInt8) : Option (List Field × List UInt8) := do
  let (id, bs) ← readUInt16 bs
  let (fields, bs) ←
    if id = 0x61 then c.readCreature true bs
    else if id = 0x62 then c.readCreature false bs
    else FieldKind.readAll (if c.hasSubType id then [.byte] else []) bs
  some (.uint16 id :: fields, bs)

/-- The things up to a count, and the count; `fuel` bounds the things. -/
def readThings : (fuel : Nat) → List UInt8 → Option (List (List Field) × UInt8 × List UInt8)
  | 0, _ => none
  | fuel + 1, bs =>
      if bs[1]? = some 0xFF then some ([], bs.headD 0, bs.drop 2)
      else do
        let (thing, bs) ← c.readThing bs
        let (things, count, bs) ← readThings fuel bs
        some (thing :: things, count, bs)

/-- A thing takes two bytes at least. -/
def readTile (bs : List UInt8) : Option (List (List Field) × UInt8 × List UInt8) :=
  c.readThings bs.length bs

/-- The things of as many squares as there are; nothing is left of the message, nor of the
last count. -/
def readMap (squares : Nat) (bs : List UInt8) : Option (List (List (List Field))) :=
  match decode c.readTile [] squares 0 bs with
  | some (tiles, 0, []) => some tiles
  | _ => none

end Client

/-! ## Things are read back -/

section Things

variable {κ : Type} {o : Observer κ} {c : Client}

theorem readUInt16_encode (v : UInt16) (rest : List UInt8) :
    Client.readUInt16 (Bytes.leBytes 2 v.toNat ++ rest) = some (v, rest) := by
  rw [Client.readUInt16, FieldKind.take_append (Bytes.length_leBytes ..)]
  simp

theorem readCreature_encode {full : Bool} {head outfit tail : List Field} {lookType : UInt16}
    (hhead : List.Forall₂ FieldKind.Reads (Client.headKinds full) head)
    (houtfit : List.Forall₂ FieldKind.Reads (c.outfitKinds lookType) outfit)
    (htail : List.Forall₂ FieldKind.Reads (Client.tailKinds full) tail) (rest : List UInt8) :
    c.readCreature full
        ((head ++ [Field.uint16 lookType] ++ outfit ++ tail).flatMap Field.encode ++ rest) =
      some (head ++ [Field.uint16 lookType] ++ outfit ++ tail, rest) := by
  simp only [List.flatMap_append, List.flatMap_singleton, List.append_assoc, Client.readCreature,
    FieldKind.readAll_encode hhead, Field.encode, readUInt16_encode,
    FieldKind.readAll_encode houtfit, FieldKind.readAll_encode htail, Option.bind_eq_bind,
    Option.bind_some]

/-- The client reads the thing back, and does not take it for a count. -/
structure ReadsBack (c : Client) (thing : List Field) : Prop where
  read : ∀ rest, c.readThing (thing.flatMap Field.encode ++ rest) = some (thing, rest)
  head : ∃ id fields, thing = .uint16 id :: fields ∧ id.toNat < 0xFF00
  block : ∀ f ∈ thing, f.blockLength ≤ 8192

/-- The item has a client id that stands for an item, and the client reads a byte for it if
one is sent. -/
structure Knows (c : Client) (o : Observer κ) (item : TileItem) : Prop where
  not_unknown : o.clientId item.id ≠ 0x61
  not_known : o.clientId item.id ≠ 0x62
  not_count : (o.clientId item.id).toNat < 0xFF00
  subType : c.hasSubType (o.clientId item.id) =
    ((o.items item.id).stackable || (o.items item.id).isSplash ||
      (o.items item.id).isFluidContainer)

theorem addItem_readsBack {item : TileItem} (h : Knows c o item) : ReadsBack c (o.addItem item) := by
  obtain ⟨fields, hfields, hkinds⟩ : ∃ fields,
      o.addItem item = .uint16 (o.clientId item.id) :: fields ∧
      List.Forall₂ FieldKind.Reads
        (if c.hasSubType (o.clientId item.id) then [.byte] else []) fields := by
    refine ⟨_, rfl, ?_⟩
    rw [h.subType]
    cases hstack : (o.items item.id).stackable with
    | true => simp [FieldKind.Reads]
    | false =>
        rw [Bool.false_or]
        cases hfluid : (o.items item.id).isSplash || (o.items item.id).isFluidContainer with
        | true => simp [FieldKind.Reads]
        | false => simp
  refine ⟨fun rest => ?_, ⟨_, fields, hfields, h.not_count⟩, fun f hf => ?_⟩
  · rw [hfields, List.flatMap_cons, List.append_assoc]
    simp only [Client.readThing, Field.encode, readUInt16_encode, h.not_unknown, h.not_known,
      FieldKind.readAll_encode hkinds, Option.bind_eq_bind, Option.bind_some, if_false]
  · rw [hfields] at hf
    rcases List.mem_cons.mp hf with rfl | hf
    · exact Nat.zero_le _
    · exact FieldKind.block_le_of_reads hkinds f hf

theorem addOutfit_eq (hclient : c.isOTCv8 = o.isOTCv8) (outfit : Outfit) :
    ∃ lookType fields, o.addOutfit outfit = Field.uint16 lookType :: fields ∧
      List.Forall₂ FieldKind.Reads (c.outfitKinds lookType) fields := by
  refine ⟨_, _, rfl, ?_⟩
  generalize (if !o.isOTCv8 && outfit.lookType ≥ 367 then 128 else outfit.lookType) = lookType
  rw [Client.outfitKinds, hclient]
  refine List.rel_append ?_ ?_
  · by_cases hlook : lookType = 0
    · simp [hlook, Observer.addItemId, FieldKind.Reads]
    · simp [hlook, FieldKind.Reads]
  · cases o.isOTCv8 <;> simp [FieldKind.Reads]

theorem addCreature_readsBack (hclient : c.isOTCv8 = o.isOTCv8) {v : CreatureView}
    (hname : v.name.length ≤ 8192) (known : Bool) (remove : UInt32) :
    ReadsBack c (o.addCreature v known remove) := by
  obtain ⟨lookType, outfit, houtfit, hkinds⟩ := addOutfit_eq hclient
    (if !v.isInGhostMode && !v.isInvisible then v.currentOutfit else {})
  obtain ⟨head, tail, heq, hhead, htail⟩ : ∃ head tail,
      o.addCreature v known remove = .uint16 (if known then 0x62 else 0x61) ::
        (head ++ [Field.uint16 lookType] ++ outfit ++ tail) ∧
      List.Forall₂ FieldKind.Reads (Client.headKinds !known) head ∧
      List.Forall₂ FieldKind.Reads (Client.tailKinds !known) tail := by
    rw [Observer.addCreature, houtfit]
    let life : List Field :=
      [.byte (if v.isHealthHidden then 0 else v.healthPercent), .byte v.direction]
    let marks : List Field :=
      [.byte (if o.isAccessPlayer then 0xFF else v.lightLevel), .byte v.lightColor,
        .uint16 v.stepSpeed, .byte v.skullClient, .byte v.partyShield]
    let walk : List Field := [.byte (if v.canWalkthroughEx then 0x00 else 0x01)]
    cases known with
    | true =>
        refine ⟨.uint32 v.id :: life, marks ++ walk, by simp [life, marks, walk], ?_, ?_⟩
        · simp [life, Client.headKinds, FieldKind.Reads]
        · simp [marks, walk, Client.tailKinds, FieldKind.Reads]
    | false =>
        refine ⟨.uint32 remove :: .uint32 v.id :: .string v.name :: life,
          marks ++ .byte v.guildEmblem :: walk, by simp [life, marks, walk], ?_, ?_⟩
        · simpa [life, Client.headKinds, FieldKind.Reads] using hname
        · simp [marks, walk, Client.tailKinds, FieldKind.Reads]
  have hread := readCreature_encode hhead hkinds htail
  have hblock : ∀ f ∈ head ++ [Field.uint16 lookType] ++ outfit ++ tail, f.blockLength ≤ 8192 := by
    simp only [List.mem_append, List.mem_singleton, or_imp, forall_and, forall_eq]
    exact ⟨⟨⟨FieldKind.block_le_of_reads hhead, Nat.zero_le _⟩, FieldKind.block_le_of_reads hkinds⟩,
      FieldKind.block_le_of_reads htail⟩
  generalize head ++ [Field.uint16 lookType] ++ outfit ++ tail = body at heq hread hblock
  refine ⟨fun rest => ?_, ⟨_, body, heq, ?_⟩, fun f hf => ?_⟩
  · rw [heq, List.flatMap_cons, List.append_assoc, Field.encode, Client.readThing,
      readUInt16_encode]
    cases known with
    | true => exact congrArg (Option.bind · _) (hread rest)
    | false => exact congrArg (Option.bind · _) (hread rest)
  · cases known <;> decide
  · rw [heq] at hf
    rcases List.mem_cons.mp hf with rfl | hf
    · exact Nat.zero_le _
    · exact hblock f hf

theorem ReadsBack.not_marker {thing : List Field} (h : ReadsBack c thing) (rest : List UInt8) :
    (thing.flatMap Field.encode ++ rest)[1]? ≠ some 0xFF := by
  obtain ⟨id, fields, rfl, hlt⟩ := h.head
  intro heq
  have hbyte : UInt8.ofNat (id.toNat / 256) = 0xFF := by
    simpa [Field.encode, Bytes.leBytes] using heq
  have hbyte := congrArg UInt8.toNat hbyte
  rw [UInt8.toNat_ofNat_of_lt' (show id.toNat / 256 < 2 ^ 8 by omega)] at hbyte
  have : id.toNat / 256 = 255 := hbyte
  omega

theorem ReadsBack.length_pos {thing : List Field} (h : ReadsBack c thing) :
    0 < (thing.flatMap Field.encode).length := by
  obtain ⟨id, fields, rfl, _⟩ := h.head
  simp [Field.encode, Bytes.leBytes]

theorem readThings_encode {things : List (List Field)} (h : ∀ t ∈ things, ReadsBack c t)
    (count : UInt8) (rest : List UInt8) {fuel : Nat} (hfuel : things.length < fuel) :
    c.readThings fuel
        (things.flatten.flatMap Field.encode ++ (skipFields count).flatMap Field.encode ++ rest) =
      some (things, count, rest) := by
  induction things generalizing fuel with
  | nil =>
      cases fuel with
      | zero => exact absurd hfuel (Nat.lt_irrefl 0)
      | succ fuel => exact if_pos rfl
  | cons t ts ih =>
      obtain ⟨fuel, rfl⟩ := Nat.exists_eq_add_of_lt hfuel
      have ht := h t (List.mem_cons_self ..)
      have hrest := ih (fun u hu => h u (List.mem_cons_of_mem _ hu))
        (show ts.length < ts.length + 1 + fuel by omega)
      rw [List.length_cons, Client.readThings, List.flatten_cons, List.flatMap_append,
        List.append_assoc, List.append_assoc, if_neg (ht.not_marker _), ht.read]
      rw [List.append_assoc] at hrest
      simp only [Option.bind_eq_bind, Option.bind_some, hrest]

theorem length_things {things : List (List Field)} (h : ∀ t ∈ things, ReadsBack c t) :
    things.length ≤ (things.flatten.flatMap Field.encode).length := by
  induction things with
  | nil => exact Nat.zero_le _
  | cons t ts ih =>
      have hpos := (h t (List.mem_cons_self ..)).length_pos
      have hle := ih fun u hu => h u (List.mem_cons_of_mem _ hu)
      rw [List.flatten_cons, List.flatMap_append, List.length_append, List.length_cons]
      omega

/-- The client takes the description of a square with the count behind it. -/
theorem reads_tile {things : List (List Field)} (h : ∀ t ∈ things, ReadsBack c t) :
    SkipCode.Reads c.readTile (fun d => d.flatten.flatMap Field.encode)
      (fun n => (skipFields n).flatMap Field.encode) things := by
  intro count rest
  refine readThings_encode h count rest ?_
  have hle : things.length ≤ ((fun d : List (List Field) => d.flatten.flatMap Field.encode) things).length :=
    length_things h
  have hcount : ((skipFields count).flatMap Field.encode).length = 2 := rfl
  rw [List.length_append, List.length_append, hcount]
  omega

end Things

/-! ## The whole map -/

section Grid

variable {κ : Type} {o : Observer κ} {c : Client} {map : Map Tile}

/-- The client knows the items of the map that are described, and no name is too long to be
sent. -/
structure Served (c : Client) (o : Observer κ) (map : Map Tile) : Prop where
  isOTCv8 : c.isOTCv8 = o.isOTCv8
  items : ∀ pos tile, map.getTile pos.x pos.y pos.z = some tile →
    ∀ i, TileThing.item i ∈ o.described tile pos → Knows c o (tile.thing i)
  names : ∀ creature, (o.creature creature).name.length ≤ 8192

theorem describeThings_readsBack (h : Served c o map) {pos : Position} {tile : Tile}
    (htile : map.getTile pos.x pos.y pos.z = some tile) (known : κ) {ts : List TileThing}
    (hts : ∀ t ∈ ts, t ∈ o.described tile pos) :
    ∀ fields ∈ (describeThings o tile known ts).1, ReadsBack c fields := by
  induction ts generalizing known with
  | nil => exact fun _ hfields => absurd hfields (List.not_mem_nil)
  | cons t ts ih =>
      intro fields hfields
      rcases List.mem_cons.mp hfields with rfl | hfields
      · cases t with
        | item i => exact addItem_readsBack (h.items pos tile htile i (hts _ (List.mem_cons_self ..)))
        | creature creature =>
            exact addCreature_readsBack h.isOTCv8
              (h.names creature) _ _
      · exact ih _ (fun u hu => hts u (List.mem_cons_of_mem _ hu)) fields hfields

theorem grid_readsBack (h : Served c o map) (known : κ) (ps : List Position) :
    ∀ d, some d ∈ grid o map known ps → ∀ fields ∈ d, ReadsBack c fields := by
  induction ps generalizing known with
  | nil => exact fun _ hd => absurd hd (List.not_mem_nil)
  | cons pos ps ih =>
      intro d hd
      rw [grid] at hd
      cases htile : map.getTile pos.x pos.y pos.z with
      | none =>
          simp only [htile, List.mem_cons, reduceCtorEq, false_or] at hd
          exact ih known d hd
      | some tile =>
          simp only [htile, List.mem_cons, Option.some.injEq] at hd
          rcases hd with rfl | hd
          · exact describeThings_readsBack h htile known fun _ ht => ht
          · exact ih _ d hd

theorem length_grid (known : κ) (ps : List Position) : (grid o map known ps).length = ps.length := by
  induction ps generalizing known with
  | nil => rfl
  | cons pos ps ih =>
      rw [grid]
      split
      · exact congrArg (· + 1) (ih _)
      · exact congrArg (· + 1) (ih _)

theorem mapFields_block (h : Served c o map) (known : κ) (x y z width height : Int) :
    ∀ f ∈ mapFields o map known x y z width height, f.blockLength ≤ 8192 := by
  intro f hf
  rcases mem_encode hf with ⟨d, hd, hfd⟩ | ⟨n, hn⟩
  · obtain ⟨fields, hfields, hf⟩ := List.mem_flatten.mp hfd
    exact (grid_readsBack h known _ d hd fields hfields).block f hf
  · simp only [skipFields, List.mem_cons, List.not_mem_nil, or_false] at hn
    rcases hn with rfl | rfl
    · exact Nat.zero_le _
    · exact Nat.zero_le _

/-- The bytes of a map description. -/
def mapBytes (o : Observer κ) (map : Map Tile) (known : κ) (x y z width height : Int) : List UInt8 :=
  (mapFields o map known x y z width height).flatMap Field.encode

theorem content_getMapDescription (h : Served c o map) {w : Writer κ} (hw : Writing w.msg)
    {x y z width height : Int}
    (hroom : w.msg.position + (mapBytes o map w.known x y z width height).length < maxBodyLength) :
    (getMapDescription o map x y z width height w).msg.content =
      w.msg.content ++ mapBytes o map w.known x y z width height := by
  rw [getMapDescription_eq, (writeFields_spec hw _).2.2,
    storedFrom_eq_self (mapFields_block h _ _ _ _ _ _) hroom]
  rfl

theorem readMap_mapBytes (h : Served c o map) (known : κ) (x y z width height : Int) :
    c.readMap (squares x y z width height).length (mapBytes o map known x y z width height) =
      some ((grid o map known (squares x y z width height)).map (·.getD [])) := by
  have hempty : SkipCode.Reads c.readTile
      (fun d : List (List Field) => d.flatten.flatMap Field.encode)
      (fun n => (skipFields n).flatMap Field.encode) [] :=
    reads_tile fun _ ht => absurd ht List.not_mem_nil
  have hdecode := decode_encode [] rfl hempty
    (fun d hd => reads_tile (grid_readsBack h known (squares x y z width height) d hd))
  rw [List.append_nil, length_grid] at hdecode
  rw [Client.readMap, mapBytes, mapFields, flatMap_encode, hdecode]
  rfl

/-- A client reads a map description as the descriptions of the squares, each of them once
and in its place, if all of it went into the message. -/
theorem map_description_decodes (h : Served c o map) {w : Writer κ} (hw : Writing w.msg)
    {x y z width height : Int}
    (hroom : w.msg.position + (mapBytes o map w.known x y z width height).length < maxBodyLength) :
    ∃ bs, (getMapDescription o map x y z width height w).msg.content = w.msg.content ++ bs ∧
      c.readMap (squares x y z width height).length bs =
        some ((grid o map w.known (squares x y z width height)).map (·.getD [])) :=
  ⟨_, content_getMapDescription h hw hroom, readMap_mapBytes h _ _ _ _ _ _⟩

end Grid

/-! ## Maps that are misread -/

/-- Type 5 has the client id. -/
def oneItem (clientId id : UInt16) : ItemType := { clientId := if id = 5 then clientId else 100 }

/-- A player far away from the map that is described. -/
def onlooker (clientId : UInt16) : Observer Unit :=
  { Observer.onlooker false with items := oneItem clientId }

def plainClient : Client := ⟨false, fun _ => false⟩

def oneItemTile : Tile where
  thing _ := Tile.plainItem 5
  ground := none
  items := [1]
  downItemCount := 1
  creatures := []
  floorChange := fun _ => false
  flags := fun _ => false

def oneTile : Map Tile := (Map.empty.setTile 100 100 7 oneItemTile).1

def emptyWriter : Writer Unit := ⟨new, (), -1⟩

theorem oneTile_served : Served plainClient (onlooker 100) oneTile where
  isOTCv8 := rfl
  items pos tile htile i hi := by
    have hthing : tile.thing i = Tile.plainItem 5 := by
      rw [oneTile, Map.linked_empty.getTile_setTile 100 100 oneItemTile (by decide)] at htile
      split at htile
      · obtain rfl := Option.some.inj htile
        rw [Map.getTile_empty]
        rfl
      · rw [Map.getTile_empty] at htile
        cases htile
    rw [hthing]
    exact
      { not_unknown := by decide +kernel
        not_known := by decide +kernel
        not_count := by decide +kernel
        subType := by decide +kernel }
  names _ := Nat.zero_le _

/-- A tile with one item, and the floors above it. -/
theorem map_description_decodes_one :
    ∃ bs, (getMapDescription (onlooker 100) oneTile 100 100 7 1 1 emptyWriter).msg.content =
        emptyWriter.msg.content ++ bs ∧
      plainClient.readMap 8 bs = some [[[.uint16 100]], [], [], [], [], [], [], []] := by
  have hroom : emptyWriter.msg.position +
      (mapBytes (onlooker 100) oneTile emptyWriter.known 100 100 7 1 1).length < maxBodyLength := by
    decide +kernel
  obtain ⟨bs, hcontent, hread⟩ := map_description_decodes oneTile_served writing_new hroom
  exact ⟨bs, hcontent, hread.trans (by decide +kernel)⟩

/-- A message that has bytes already. -/
def zeroWriter (n : Nat) : Writer Unit := ⟨new.writeFields (List.replicate n (.byte 0)), (), -1⟩

theorem zeroWriter_writing (n : Nat) : Writing (zeroWriter n).msg :=
  (writeFields_spec writing_new _).1

theorem zeroWriter_position {n : Nat} (h : 8 + n < maxBodyLength) :
    (zeroWriter n).msg.position = 8 + n := by
  have hbytes : ((List.replicate n (Field.byte 0)).flatMap Field.encode).length = n := by
    simp [Field.encode, List.length_flatMap]
  have hblock : ∀ f ∈ List.replicate n (Field.byte 0), f.blockLength ≤ 8192 := by
    intro f hf
    rw [List.eq_of_mem_replicate hf]
    exact Nat.zero_le _
  have hstored := storedFrom_eq_self hblock
    (show new.position + _ < maxBodyLength by rw [hbytes]; exact h)
  have hlength := (writeFields_spec writing_new (List.replicate n (Field.byte 0))).2.1
  rw [hstored, hbytes] at hlength
  rw [(zeroWriter_writing n).position_eq, zeroWriter, hlength]
  show 8 + (0 + n) = 8 + n
  omega

/-- When the message is full nothing more is stored. -/
theorem zeroWriter_content {n : Nat} (h : 8 + n + 1 = maxBodyLength) (fs : List Field) :
    ((zeroWriter n).msg.writeFields fs).content = (zeroWriter n).msg.content := by
  have hposition := zeroWriter_position (show 8 + n < maxBodyLength by omega)
  have hroom := storedFrom_length fs (show (zeroWriter n).msg.position < maxBodyLength by omega)
  have hnone : ((storedFrom (zeroWriter n).msg.position fs).flatMap Field.encode).length = 0 := by
    omega
  rw [(writeFields_spec (zeroWriter_writing n) fs).2.2, List.eq_nil_of_length_eq_zero hnone,
    List.append_nil]

/-- An item whose client id reads as a count is not read back, and what does not fit the
message is missing from it. -/
theorem map_description_misread :
    (¬ ∀ (c : Client) (o : Observer Unit) (map : Map Tile) (w : Writer Unit)
        (x y z width height : Int), Writing w.msg → c.isOTCv8 = o.isOTCv8 →
        (∀ item : TileItem, c.hasSubType (o.clientId item.id) =
          ((o.items item.id).stackable || (o.items item.id).isSplash ||
            (o.items item.id).isFluidContainer)) →
        (∀ creature, (o.creature creature).name.length ≤ 8192) →
        w.msg.position + (mapBytes o map w.known x y z width height).length < maxBodyLength →
        ∃ bs, (getMapDescription o map x y z width height w).msg.content = w.msg.content ++ bs ∧
          c.readMap (squares x y z width height).length bs =
            some ((grid o map w.known (squares x y z width height)).map (·.getD []))) ∧
    ¬ ∀ (c : Client) (o : Observer Unit) (map : Map Tile) (w : Writer Unit)
        (x y z width height : Int), Writing w.msg → Served c o map →
        ∃ bs, (getMapDescription o map x y z width height w).msg.content = w.msg.content ++ bs ∧
          c.readMap (squares x y z width height).length bs =
            some ((grid o map w.known (squares x y z width height)).map (·.getD [])) := by
  refine ⟨fun h => ?_, fun h => ?_⟩
  · have hitems (item : TileItem) : plainClient.hasSubType ((onlooker 0xFF05).clientId item.id) =
        (((onlooker 0xFF05).items item.id).stackable || ((onlooker 0xFF05).items item.id).isSplash ||
          ((onlooker 0xFF05).items item.id).isFluidContainer) := rfl
    obtain ⟨bs, hcontent, hread⟩ := h plainClient (onlooker 0xFF05) oneTile emptyWriter 100 100 7 1 1
      writing_new rfl hitems (fun _ => Nat.zero_le _) (by decide +kernel)
    have hfields : mapFields (onlooker 0xFF05) oneTile () 100 100 7 1 1 =
        [.uint16 0xFF05, .byte 7, .byte 0xFF] := by decide +kernel
    have hwriting : Writing emptyWriter.msg := writing_new
    rw [getMapDescription_eq, show emptyWriter.known = () from rfl, hfields,
      (writeFields_spec hwriting _).2.2] at hcontent
    rw [← List.append_cancel_left hcontent] at hread
    exact absurd hread (by decide +kernel)
  · have hserved : Served plainClient (onlooker 100) Map.empty :=
      { isOTCv8 := rfl
        items := fun pos tile htile => by
          rw [Map.getTile_empty] at htile
          cases htile
        names := fun _ => Nat.zero_le _ }
    obtain ⟨bs, hcontent, hread⟩ := h plainClient (onlooker 100) Map.empty (zeroWriter 24567) 100 100
      7 1 1 (zeroWriter_writing 24567) hserved
    rw [getMapDescription_eq, zeroWriter_content (by decide)] at hcontent
    obtain rfl := List.self_eq_append_right.mp hcontent
    have hnone : plainClient.readMap (squares 100 100 7 1 1).length [] = none := by decide +kernel
    rw [hnone] at hread
    cases hread

end Bruxo.MapDescription
