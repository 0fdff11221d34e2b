import Bruxo.PropStream

/-!
# OTB trees

`OTB::Loader` (`fileloader.cpp`): a file is an identifier and one tree of
nodes. `parseTree` walks over the bytes with a stack of open nodes and records
for each node where its properties begin and end; `getProps` strips the
escapes from that range later.

An iterator is its distance from the beginning of the file. Every `*it` goes
through `deref`, which tells a read beyond the file apart from the
`InvalidOTBFormat` the code throws; `load_safe` says that no byte string leads
to one. `Tree.serialize` is the format, and `parseTree_serialize` that the
parser finds every tree in it again.

The constructor refuses files of up to seven bytes. Seven bytes are what a
root without properties and children takes, so this one tree is not loaded
(`loader_round_trip_iff`).
-/

namespace Bruxo.OTB

/-! ## Nodes -/

/-- `OTB::Node::NodeChar` -/
def escapeChar : UInt8 := 0xFD

def startChar : UInt8 := 0xFE

def endChar : UInt8 := 0xFF

structure Node where
  children : List Node
  propsBegin : Nat
  propsEnd : Nat
  type : UInt8

abbrev Identifier := Vector UInt8 4

def wildcard : Identifier := Vector.replicate 4 0

inductive Fault where
  | invalidOTBFormat
  | outOfBounds
  deriving DecidableEq

/-- `*it` -/
def deref (contents : List UInt8) (it : Nat) : Except Fault UInt8 :=
  match contents[it]? with
  | some b => .ok b
  | none => .error .outOfBounds

/-! ## The parser

The stack holds the open nodes, the innermost first. The code keeps a child in
its parent's vector from the start and a pointer to it on the stack; here it
joins the vector when it is popped. While it is open the parent is not on top,
so nobody looks at that vector. -/

structure ParseState where
  stack : List Node
  root : Node

/-- `if (currentNode.children.empty()) currentNode.propsEnd = it;` -/
def Node.endProps (n : Node) (it : Nat) : Node :=
  if n.children.isEmpty then { n with propsEnd := it } else n

/-- A node whose type byte stands at `it`. -/
def newNode (it : Nat) (type : UInt8) : Node :=
  { children := [], propsBegin := it + 1, propsEnd := 0, type := type }

def parseStart (contents : List UInt8) (it : Nat) (s : ParseState) :
    Except Fault (Nat × ParseState) :=
  match s.stack with
  | [] => .error .invalidOTBFormat
  | currentNode :: below =>
      if it + 1 = contents.length then .error .invalidOTBFormat
      else do
        let type ← deref contents (it + 1)
        let child := newNode (it + 1) type
        return (it + 1, { s with stack := child :: currentNode.endProps it :: below })

def parseEnd (it : Nat) (s : ParseState) : Except Fault (Nat × ParseState) :=
  match s.stack with
  | [] => .error .invalidOTBFormat
  | [currentNode] => .ok (it, { stack := [], root := currentNode.endProps it })
  | currentNode :: parent :: below =>
      .ok (it, { s with
        stack := { parent with children := parent.children ++ [currentNode.endProps it] } :: below })

/-- The `switch` over the byte at the iterator; the result is the iterator
before the `++it` of the loop. -/
def parseByte (contents : List UInt8) (it : Nat) (s : ParseState) (b : UInt8) :
    Except Fault (Nat × ParseState) :=
  if b = startChar then parseStart contents it s
  else if b = endChar then parseEnd it s
  else if b = escapeChar then
    if it + 1 = contents.length then .error .invalidOTBFormat else .ok (it + 1, s)
  else .ok (it, s)

def parseStep (contents : List UInt8) (it : Nat) (s : ParseState) :
    Except Fault (Nat × ParseState) := do
  parseByte contents it s (← deref contents it)

theorem deref_lt {contents : List UInt8} {it : Nat} {b : UInt8} (h : deref contents it = .ok b) :
    it < contents.length := by
  rw [deref] at h
  split at h
  · rename_i hget
    exact (List.getElem?_eq_some_iff.mp hget).1
  · cases h

theorem deref_of_lt {contents : List UInt8} {it : Nat} (h : it < contents.length) :
    deref contents it = .ok contents[it] := by
  rw [deref, List.getElem?_eq_getElem h]

theorem parseStep_of_deref {contents : List UInt8} {it : Nat} {b : UInt8} {s : ParseState}
    (h : deref contents it = .ok b) : parseStep contents it s = parseByte contents it s b := by
  rw [parseStep, h]
  rfl

/-- What one turn of the loop can do. -/
theorem parseStep_cases {contents : List UInt8} {it it' : Nat} {s s' : ParseState}
    (h : parseStep contents it s = .ok (it', s')) :
    it < contents.length ∧
    ((∃ currentNode below type, s.stack = currentNode :: below ∧ it + 1 < contents.length
        ∧ it' = it + 1
        ∧ s' = { s with stack := newNode (it + 1) type :: currentNode.endProps it :: below })
      ∨ (∃ currentNode, s.stack = [currentNode] ∧ it' = it
        ∧ s' = { stack := [], root := currentNode.endProps it })
      ∨ (∃ currentNode parent below, s.stack = currentNode :: parent :: below ∧ it' = it
        ∧ s' = { s with stack :=
            { parent with children := parent.children ++ [currentNode.endProps it] } :: below })
      ∨ (it' < contents.length ∧ it ≤ it' ∧ s' = s)) := by
  cases hb : deref contents it with
  | error e =>
      rw [parseStep, hb] at h
      cases h
  | ok b =>
      have hlt := deref_lt hb
      refine ⟨hlt, ?_⟩
      rw [parseStep_of_deref hb, parseByte] at h
      split at h
      · left
        rw [parseStart] at h
        split at h
        · cases h
        · rename_i currentNode below hstack
          split at h
          · cases h
          · cases htype : deref contents (it + 1) with
            | error e => rw [htype] at h; cases h
            | ok type =>
                rw [htype] at h
                cases h
                exact ⟨currentNode, below, type, hstack, deref_lt htype, rfl, rfl⟩
      · split at h
        · rw [parseEnd] at h
          split at h
          · cases h
          · rename_i currentNode hstack
            cases h
            exact .inr (.inl ⟨currentNode, hstack, rfl, rfl⟩)
          · rename_i currentNode parent below hstack
            cases h
            exact .inr (.inr (.inl ⟨currentNode, parent, below, hstack, rfl, rfl⟩))
        · split at h
          · split at h
            · cases h
            · rename_i hnotLast
              cases h
              exact .inr (.inr (.inr ⟨by omega, by omega, rfl⟩))
          · cases h
            exact .inr (.inr (.inr ⟨hlt, Nat.le_refl _, rfl⟩))

/-- One turn of the loop stays inside the file. -/
theorem parseStep_bounds {contents : List UInt8} {it it' : Nat} {s s' : ParseState}
    (h : parseStep contents it s = .ok (it', s')) : it ≤ it' ∧ it' < contents.length := by
  obtain ⟨hlt, ⟨_, _, _, _, hnext, rfl, _⟩ | ⟨_, _, rfl, _⟩ | ⟨_, _, _, _, rfl, _⟩ | ⟨hnext, hle, _⟩⟩ :=
    parseStep_cases h
  · exact ⟨Nat.le_succ _, hnext⟩
  · exact ⟨Nat.le_refl _, hlt⟩
  · exact ⟨Nat.le_refl _, hlt⟩
  · exact ⟨hle, hnext⟩

theorem parseStep_ne_outOfBounds {contents : List UInt8} {it : Nat} (s : ParseState)
    (h : it < contents.length) : parseStep contents it s ≠ .error .outOfBounds := by
  intro heq
  rw [parseStep_of_deref (deref_of_lt h), parseByte] at heq
  split at heq
  · rw [parseStart] at heq
    split at heq
    · cases heq
    · split at heq
      · cases heq
      · rw [deref_of_lt (show it + 1 < contents.length by omega)] at heq
        cases heq
  · split at heq
    · rw [parseEnd] at heq
      split at heq <;> cases heq
    · split at heq
      · split at heq <;> cases heq
      · cases heq

/-- `for (; it != fileContents.end(); ++it)` -/
def parseLoop (contents : List UInt8) (it : Nat) (s : ParseState) : Except Fault ParseState :=
  if it = contents.length then .ok s
  else
    match h : parseStep contents it s with
    | .ok (it', s') => parseLoop contents (it' + 1) s'
    | .error e => .error e
termination_by contents.length - it
decreasing_by
  have := parseStep_bounds h
  omega

/-- The root, open, alone on the stack. -/
def openRoot (type : UInt8) : ParseState :=
  { stack := [newNode 5 type], root := newNode 5 type }

/-- The check after the loop. -/
def finish (s : ParseState) : Except Fault Node :=
  if s.stack.isEmpty then .ok s.root else .error .invalidOTBFormat

def parseTree (contents : List UInt8) : Except Fault Node := do
  let first ← deref contents 4
  if first = startChar then
    let type ← deref contents 5
    let s ← parseLoop contents 6 (openRoot type)
    finish s
  else .error .invalidOTBFormat

/-- The constructor: identifier and size. -/
def checkFile (acceptedIdentifier : Identifier) (contents : List UInt8) : Except Fault Unit :=
  let minimalSize := 4 + 1 + 1 + 1
  if contents.length ≤ minimalSize then .error .invalidOTBFormat
  else if contents.take 4 ≠ acceptedIdentifier.toList ∧ contents.take 4 ≠ wildcard.toList then
    .error .invalidOTBFormat
  else .ok ()

def load (acceptedIdentifier : Identifier) (contents : List UInt8) : Except Fault Node := do
  checkFile acceptedIdentifier contents
  parseTree contents

/-! ## Properties -/

/-- The `copy_if` of `getProps`; the flag is `lastEscaped`. -/
def unescape : (lastEscaped : Bool) → List UInt8 → List UInt8
  | _, [] => []
  | lastEscaped, byte :: rest =>
      if byte = escapeChar ∧ ¬ lastEscaped then unescape true rest
      else byte :: unescape false rest

/-- A node without property bytes leaves the stream alone. -/
def getProps (contents : List UInt8) (node : Node) (props : PropStream) :
    Except Fault (Bool × PropStream) :=
  let size := node.propsEnd - node.propsBegin
  if size = 0 then .ok (false, props)
  else if contents.length < node.propsEnd then .error .outOfBounds
  else .ok (true, PropStream.init (unescape false (Bytes.readAt contents node.propsBegin size)))

/-! ## Every byte string

The ranges recorded so far lie in front of the iterator, so that the finished
tree has ranges inside the file. -/

inductive Node.InRange (bound : Nat) : Node → Prop where
  | mk {n : Node} (begin_le : n.propsBegin ≤ n.propsEnd) (end_le : n.propsEnd ≤ bound)
      (children : ∀ c ∈ n.children, Node.InRange bound c) : Node.InRange bound n

/-- A node whose end is not reached yet; its properties have an end as soon as
it has a child. -/
structure Node.Open (bound it : Nat) (n : Node) : Prop where
  begin_le : n.propsBegin ≤ it
  ended : n.children ≠ [] → n.propsBegin ≤ n.propsEnd ∧ n.propsEnd ≤ it
  children : ∀ c ∈ n.children, c.InRange bound

theorem Node.Open.mono {bound it it' : Nat} {n : Node} (h : n.Open bound it) (hle : it ≤ it') :
    n.Open bound it' where
  begin_le := Nat.le_trans h.begin_le hle
  ended := fun hne => ⟨(h.ended hne).1, Nat.le_trans (h.ended hne).2 hle⟩
  children := h.children

theorem Node.Open.endProps {bound it : Nat} {n : Node} (h : n.Open bound it) :
    (n.endProps it).propsBegin ≤ (n.endProps it).propsEnd ∧ (n.endProps it).propsEnd ≤ it
      ∧ (n.endProps it).propsBegin = n.propsBegin ∧ (n.endProps it).children = n.children := by
  rw [Node.endProps]
  split
  · exact ⟨h.begin_le, Nat.le_refl _, rfl, rfl⟩
  · rename_i hne
    obtain ⟨hbegin, hend⟩ := h.ended (by simpa using hne)
    exact ⟨hbegin, hend, rfl, rfl⟩

theorem Node.Open.inRange {bound it : Nat} {n : Node} (h : n.Open bound it) (hle : it ≤ bound) :
    (n.endProps it).InRange bound := by
  obtain ⟨hbegin, hend, -, hchildren⟩ := h.endProps
  refine ⟨hbegin, Nat.le_trans hend hle, ?_⟩
  rw [hchildren]
  exact h.children

/-- The invariant of the loop, at its head. A node below the top has a child in
the making, so its properties are ended. -/
structure ParseState.Inv (bound it : Nat) (s : ParseState) : Prop where
  it_le : it ≤ bound
  opened : ∀ n ∈ s.stack, n.Open bound it
  below : ∀ n ∈ s.stack.tail, n.propsBegin ≤ n.propsEnd ∧ n.propsEnd ≤ it
  root : s.stack = [] → s.root.InRange bound

theorem parseStep_inv {contents : List UInt8} {it it' : Nat} {s s' : ParseState}
    (h : parseStep contents it s = .ok (it', s')) (hinv : s.Inv contents.length it) :
    s'.Inv contents.length (it' + 1) := by
  obtain ⟨hlt, hcases⟩ := parseStep_cases h
  have hopened := hinv.opened
  have hbelow := hinv.below
  rcases hcases with ⟨cur, below, type, hstack, hnext, rfl, rfl⟩ | ⟨cur, hstack, rfl, rfl⟩
    | ⟨cur, parent, below, hstack, rfl, rfl⟩ | ⟨hnext, hle, rfl⟩
  · rw [hstack] at hopened hbelow
    obtain ⟨hcur, hrest⟩ := List.forall_mem_cons.mp hopened
    obtain ⟨hbegin, hend, hsame, hchildren⟩ := hcur.endProps
    refine ⟨hnext, ?_, ?_, fun hnil => by cases hnil⟩
    · refine List.forall_mem_cons.mpr ⟨?_, List.forall_mem_cons.mpr ⟨?_, fun n hn => ?_⟩⟩
      · exact ⟨Nat.le_refl _, fun hne => absurd rfl hne, fun c hc => by cases hc⟩
      · refine ⟨?_, fun _ => ⟨hbegin, by omega⟩, ?_⟩
        · rw [hsame]
          exact Nat.le_trans hcur.begin_le (by omega)
        · rw [hchildren]
          exact hcur.children
      · exact (hrest n hn).mono (by omega)
    · refine List.forall_mem_cons.mpr ⟨⟨hbegin, by omega⟩, fun n hn => ?_⟩
      obtain ⟨hb, he⟩ := hbelow n hn
      exact ⟨hb, by omega⟩
  · rw [hstack] at hopened
    obtain ⟨hcur, -⟩ := List.forall_mem_cons.mp hopened
    exact ⟨hlt, fun n hn => by (cases hn), fun n hn => by (cases hn),
      fun _ => hcur.inRange hinv.it_le⟩
  · rw [hstack] at hopened hbelow
    obtain ⟨hcur, hparent, hrest⟩ :=
      (List.forall_mem_cons.mp hopened).imp_right List.forall_mem_cons.mp
    obtain ⟨⟨hb, he⟩, htail⟩ := List.forall_mem_cons.mp hbelow
    refine ⟨hlt, List.forall_mem_cons.mpr ⟨?_, fun n hn => ?_⟩, fun n hn => ?_,
      fun hnil => by cases hnil⟩
    · refine ⟨Nat.le_trans hparent.begin_le (Nat.le_succ _),
        fun _ => ⟨hb, Nat.le_trans he (Nat.le_succ _)⟩, ?_⟩
      intro c hc
      rcases List.mem_append.mp hc with hc | hc
      · exact hparent.children c hc
      · obtain rfl := List.mem_singleton.mp hc
        exact hcur.inRange hinv.it_le
    · exact (hrest n hn).mono (Nat.le_succ _)
    · obtain ⟨hb, he⟩ := htail n hn
      exact ⟨hb, by omega⟩
  · refine ⟨hnext, fun n hn => (hopened n hn).mono (by omega), fun n hn => ?_, hinv.root⟩
    obtain ⟨hb, he⟩ := hbelow n hn
    exact ⟨hb, by omega⟩

/-- From the invariant the loop runs to the end of the file or throws, and
keeps the invariant. -/
theorem parseLoop_safe {contents : List UInt8} {it : Nat} {s : ParseState}
    (hinv : s.Inv contents.length it) :
    parseLoop contents it s = .error .invalidOTBFormat
      ∨ ∃ s', parseLoop contents it s = .ok s' ∧ s'.Inv contents.length contents.length := by
  induction it, s using parseLoop.induct contents with
  | case1 s =>
      rw [parseLoop, if_pos rfl]
      exact .inr ⟨s, rfl, hinv⟩
  | case2 it s hne it' s' hstep ih =>
      rw [parseLoop, if_neg hne, hstep]
      exact ih (parseStep_inv hstep hinv)
  | case3 it s hne e hstep =>
      have hlt : it < contents.length := Nat.lt_of_le_of_ne hinv.it_le hne
      rw [parseLoop, if_neg hne, hstep]
      cases e with
      | invalidOTBFormat => exact .inl rfl
      | outOfBounds => exact absurd hstep (parseStep_ne_outOfBounds s hlt)

theorem parseTree_of_deref {contents : List UInt8} {type : UInt8}
    (hfirst : deref contents 4 = .ok startChar) (htype : deref contents 5 = .ok type) :
    parseTree contents = (parseLoop contents 6 (openRoot type)).bind finish := by
  simp only [parseTree, hfirst, htype]
  rfl

theorem openRoot_inv {bound : Nat} (type : UInt8) (h : 6 ≤ bound) :
    (openRoot type).Inv bound 6 where
  it_le := h
  opened := List.forall_mem_cons.mpr
    ⟨⟨Nat.le_refl _, fun hne => absurd rfl hne, fun c hc => by cases hc⟩, fun n hn => by cases hn⟩
  below := fun n hn => by cases hn
  root := fun hnil => by cases hnil

theorem parseTree_safe {contents : List UInt8} (h : 5 < contents.length) :
    parseTree contents = .error .invalidOTBFormat
      ∨ ∃ root, parseTree contents = .ok root ∧ root.InRange contents.length := by
  have hfirst := deref_of_lt (show 4 < contents.length by omega)
  by_cases hmarker : contents[4] = startChar
  · rw [hmarker] at hfirst
    rw [parseTree_of_deref hfirst (deref_of_lt h)]
    rcases parseLoop_safe (openRoot_inv contents[5] h) with hthrow | ⟨s, hok, hinv⟩
    · rw [hthrow]
      exact .inl rfl
    · rw [hok]
      show finish s = _ ∨ ∃ root, finish s = _ ∧ _
      rw [finish]
      split
      · rename_i hempty
        exact .inr ⟨s.root, rfl, hinv.root (List.isEmpty_iff.mp hempty)⟩
      · exact .inl rfl
  · rw [parseTree, hfirst]
    exact .inl (if_neg hmarker)

theorem checkFile_cases (acceptedIdentifier : Identifier) (contents : List UInt8) :
    checkFile acceptedIdentifier contents = .error .invalidOTBFormat
      ∨ checkFile acceptedIdentifier contents = .ok () ∧ 7 < contents.length := by
  simp only [checkFile]
  split
  · exact .inl rfl
  · split
    · exact .inl rfl
    · exact .inr ⟨rfl, by omega⟩

/-- Whatever the file holds, loading it throws `InvalidOTBFormat` or gives a
tree with all its ranges inside the file. -/
theorem load_safe (acceptedIdentifier : Identifier) (contents : List UInt8) :
    load acceptedIdentifier contents = .error .invalidOTBFormat
      ∨ ∃ root, load acceptedIdentifier contents = .ok root ∧ root.InRange contents.length := by
  rw [load]
  rcases checkFile_cases acceptedIdentifier contents with hthrow | ⟨hok, hlen⟩
  · rw [hthrow]
    exact .inl rfl
  · rw [hok]
    exact parseTree_safe (by omega)

/-! ## The format -/

/-- `e` before each byte that would be taken for a marker. -/
def escape : List UInt8 → List UInt8
  | [] => []
  | byte :: rest =>
      if byte = escapeChar ∨ byte = startChar ∨ byte = endChar then
        escapeChar :: byte :: escape rest
      else byte :: escape rest

inductive Tree where
  | node (type : UInt8) (props : List UInt8) (children : List Tree)

mutual

def Tree.serialize : Tree → List UInt8
  | .node type props children =>
      startChar :: type :: (escape props ++ (serializeAll children ++ [endChar]))

def serializeAll : List Tree → List UInt8
  | [] => []
  | t :: ts => t.serialize ++ serializeAll ts

end

/-- `node` stands for `t`: the types are the same, `getProps` yields the
properties, and the children correspond in order. -/
inductive Represents (contents : List UInt8) : Node → Tree → Prop where
  | mk {n : Node} {props : List UInt8} {children : List Tree}
      (props_eq : getProps contents n PropStream.empty
        = .ok (!props.isEmpty, PropStream.init props))
      (children_eq : List.Forall₂ (Represents contents) n.children children) :
      Represents contents n (.node n.type props children)

theorem unescape_escape (props : List UInt8) : unescape false (escape props) = props := by
  induction props with
  | nil => rfl
  | cons byte rest ih =>
      rw [escape]
      split
      · simp [unescape, ih]
      · rename_i hplain
        have hne : byte ≠ escapeChar := fun heq => hplain (.inl heq)
        simp [unescape, hne, ih]

theorem length_escape_eq_zero {props : List UInt8} : (escape props).length = 0 ↔ props = [] := by
  cases props with
  | nil => simp [escape]
  | cons byte rest =>
      rw [escape]
      split <;> simp

/-! ## Parsing what was serialized -/

mutual

/-- The node the parser makes of `t` when its first byte is at `it`. -/
def nodeAt (it : Nat) : Tree → Node
  | .node type props children =>
      { children := nodesAt (it + 2 + (escape props).length) children
        propsBegin := it + 2
        propsEnd := it + 2 + (escape props).length
        type := type }

def nodesAt (it : Nat) : List Tree → List Node
  | [] => []
  | t :: ts => nodeAt it t :: nodesAt (it + t.serialize.length) ts

end

theorem parseLoop_step {contents : List UInt8} {it it' : Nat} {s s' : ParseState}
    (h : parseStep contents it s = .ok (it', s')) :
    parseLoop contents it s = parseLoop contents (it' + 1) s' := by
  have hlt := (parseStep_cases h).1
  rw [parseLoop, if_neg (Nat.ne_of_lt hlt), h]

theorem deref_append (b : UInt8) (back front : List UInt8) :
    deref (front ++ b :: back) front.length = .ok b := by
  rw [deref, List.getElem?_append_right (Nat.le_refl _), Nat.sub_self]
  rfl

theorem parseStep_plain {front : List UInt8} {b : UInt8} (back : List UInt8) (s : ParseState)
    (h : ¬ (b = escapeChar ∨ b = startChar ∨ b = endChar)) :
    parseStep (front ++ b :: back) front.length s = .ok (front.length, s) := by
  have hesc : b ≠ escapeChar := fun heq => h (.inl heq)
  have hstart : b ≠ startChar := fun heq => h (.inr (.inl heq))
  have hend : b ≠ endChar := fun heq => h (.inr (.inr heq))
  rw [parseStep_of_deref (deref_append b back front), parseByte, if_neg hstart, if_neg hend,
    if_neg hesc]

theorem parseStep_escape (front : List UInt8) (b : UInt8) (back : List UInt8) (s : ParseState) :
    parseStep (front ++ escapeChar :: b :: back) front.length s = .ok (front.length + 1, s) := by
  have hlast : front.length + 1 ≠ (front ++ escapeChar :: b :: back).length := by
    simp
  rw [parseStep_of_deref (deref_append _ _ _), parseByte, if_neg (by decide), if_neg (by decide),
    if_pos rfl, if_neg hlast]

theorem parseStep_start (front : List UInt8) (type : UInt8) (back : List UInt8)
    (current : Node) (below : List Node) (root : Node) :
    parseStep (front ++ startChar :: type :: back) front.length ⟨current :: below, root⟩
      = .ok (front.length + 1,
        ⟨newNode (front.length + 1) type :: current.endProps front.length :: below, root⟩) := by
  have hlast : front.length + 1 ≠ (front ++ startChar :: type :: back).length := by
    simp
  have htype : deref (front ++ startChar :: type :: back) (front.length + 1) = .ok type := by
    have h := deref_append type back (front ++ [startChar])
    rwa [List.append_assoc, List.length_append] at h
  rw [parseStep_of_deref (deref_append _ _ _), parseByte, if_pos rfl]
  simp only [parseStart, if_neg hlast, htype]
  rfl

theorem parseStep_end (front back : List UInt8) (s : ParseState) :
    parseStep (front ++ endChar :: back) front.length s = parseEnd front.length s := by
  rw [parseStep_of_deref (deref_append _ _ _), parseByte, if_neg (by decide), if_pos rfl]

/-- The loop runs over escaped properties without touching the stack. -/
theorem parseLoop_props (props : List UInt8) {contents front back : List UInt8} (s : ParseState)
    (hc : contents = front ++ (escape props ++ back)) :
    parseLoop contents front.length s
      = parseLoop contents (front.length + (escape props).length) s := by
  induction props generalizing front with
  | nil => rfl
  | cons byte rest ih =>
      rw [escape] at hc ⊢
      split at hc
      · rename_i hmarker
        have hstep : parseStep contents front.length s = .ok (front.length + 1, s) := by
          rw [hc]
          exact parseStep_escape front byte _ s
        have hrest := ih (show contents = (front ++ [escapeChar, byte]) ++ (escape rest ++ back) by
          simpa using hc)
        rw [if_pos hmarker, parseLoop_step hstep]
        simp only [List.length_append, List.length_cons, List.length_nil] at hrest ⊢
        rw [hrest]
        congr 1
        omega
      · rename_i hplain
        have hstep : parseStep contents front.length s = .ok (front.length, s) := by
          rw [hc]
          exact parseStep_plain _ s hplain
        have hrest := ih (show contents = (front ++ [byte]) ++ (escape rest ++ back) by
          simpa using hc)
        rw [if_neg hplain, parseLoop_step hstep]
        simp only [List.length_append, List.length_cons, List.length_nil] at hrest ⊢
        rw [hrest]
        congr 1
        omega

/-- The parent on top after the nodes of `ts`, the first of them at `it`. -/
def adopt (parent : Node) (it : Nat) : List Tree → Node
  | [] => parent
  | t :: ts =>
      { parent.endProps it with children := parent.children ++ nodesAt it (t :: ts) }

theorem endProps_of_children {n : Node} (it : Nat) (h : n.children ≠ []) : n.endProps it = n := by
  rw [Node.endProps, if_neg (by simpa using h)]

theorem endProps_children (n : Node) (it : Nat) : (n.endProps it).children = n.children := by
  rw [Node.endProps]
  split <;> rfl

theorem adopt_cons (parent : Node) (it : Nat) (t : Tree) (ts : List Tree) :
    adopt (adopt parent it [t]) (it + t.serialize.length) ts = adopt parent it (t :: ts) := by
  cases ts with
  | nil => rfl
  | cons u us =>
      have hne : (adopt parent it [t]).children ≠ [] := by
        simp [adopt, nodesAt]
      rw [adopt, endProps_of_children _ hne]
      simp [adopt, nodesAt]

/-- Ending a childless node that adopted `ts`. -/
theorem endProps_adopt {n : Node} (h : n.children = []) (it : Nat) (ts : List Tree) :
    (adopt n it ts).endProps (it + (serializeAll ts).length)
      = { n with propsEnd := it, children := nodesAt it ts } := by
  cases ts with
  | nil => simp [adopt, Node.endProps, h, nodesAt, serializeAll]
  | cons t ts =>
      have hne : (adopt n it (t :: ts)).children ≠ [] := by
        simp [adopt, nodesAt]
      rw [endProps_of_children _ hne]
      simp [adopt, Node.endProps, h]

/-- From behind the type byte of a node to its end marker, given the same for
its children. -/
theorem parseLoop_body (props : List UInt8) {children : List Tree}
    {contents front back : List UInt8} (n : Node) (below : List Node) (root : Node)
    (hc : contents = front ++ (escape props ++ (serializeAll children ++ endChar :: back)))
    (hnodes : ∀ front' back', contents = front' ++ (serializeAll children ++ back') →
      parseLoop contents front'.length ⟨n :: below, root⟩
        = parseLoop contents (front'.length + (serializeAll children).length)
          ⟨adopt n front'.length children :: below, root⟩) :
    parseLoop contents front.length ⟨n :: below, root⟩
      = parseLoop contents (front.length + (escape props).length + (serializeAll children).length)
        ⟨adopt n (front.length + (escape props).length) children :: below, root⟩
      ∧ ∀ s, parseStep contents
          (front.length + (escape props).length + (serializeAll children).length) s
        = parseEnd (front.length + (escape props).length + (serializeAll children).length) s := by
  constructor
  · have hrest := hnodes (front ++ escape props) (endChar :: back) (by rw [hc]; simp)
    rw [parseLoop_props props _ hc]
    rwa [List.length_append] at hrest
  · intro s
    have hend := parseStep_end (front ++ escape props ++ serializeAll children) back s
    rw [List.length_append, List.length_append] at hend
    rw [← hend, hc]
    simp only [List.append_assoc]

theorem length_serialize (type : UInt8) (props : List UInt8) (children : List Tree) :
    (Tree.node type props children).serialize.length
      = 2 + (escape props).length + (serializeAll children).length + 1 := by
  simp only [Tree.serialize, List.length_cons, List.length_append, List.length_nil]
  omega

mutual

/-- From the first byte of a node to behind its last one: the parent has it as
a further child. -/
theorem parseLoop_node (t : Tree) (contents front back : List UInt8) (parent : Node)
    (below : List Node) (root : Node) (hc : contents = front ++ (t.serialize ++ back)) :
    parseLoop contents front.length ⟨parent :: below, root⟩
      = parseLoop contents (front.length + t.serialize.length)
        ⟨adopt parent front.length [t] :: below, root⟩ := by
  obtain ⟨type, props, children⟩ := t
  simp only [Tree.serialize, List.cons_append, List.append_assoc, List.nil_append] at hc
  have hstart := parseStep_start front type
    (escape props ++ (serializeAll children ++ endChar :: back)) parent below root
  rw [← hc] at hstart
  have hc' : contents = (front ++ [startChar, type])
      ++ (escape props ++ (serializeAll children ++ endChar :: back)) := by
    rw [hc]
    simp
  obtain ⟨hbody, hend⟩ := parseLoop_body props (newNode (front.length + 1) type)
    (parent.endProps front.length :: below) root hc'
    (fun front' back' h => parseLoop_nodes children contents front' back' _ _ root h)
  rw [List.length_append] at hbody hend
  rw [parseLoop_step hstart]
  refine hbody.trans ?_
  have hclose := (hend ⟨adopt (newNode (front.length + 1) type)
    (front.length + 2 + (escape props).length) children
      :: parent.endProps front.length :: below, root⟩).trans rfl
  refine (parseLoop_step hclose).trans ?_
  have hchild : (adopt (newNode (front.length + 1) type)
      (front.length + 2 + (escape props).length) children).endProps
        (front.length + 2 + (escape props).length + (serializeAll children).length)
      = nodeAt front.length (.node type props children) :=
    endProps_adopt rfl _ _
  have hpos : front.length + 2 + (escape props).length + (serializeAll children).length + 1
      = front.length + (Tree.node type props children).serialize.length := by
    rw [length_serialize]
    omega
  simp only [List.length_cons, List.length_nil, Nat.zero_add, Nat.reduceAdd] at hchild ⊢
  rw [hchild, hpos, endProps_children]
  rfl

theorem parseLoop_nodes (ts : List Tree) (contents front back : List UInt8) (parent : Node)
    (below : List Node) (root : Node) (hc : contents = front ++ (serializeAll ts ++ back)) :
    parseLoop contents front.length ⟨parent :: below, root⟩
      = parseLoop contents (front.length + (serializeAll ts).length)
        ⟨adopt parent front.length ts :: below, root⟩ := by
  cases ts with
  | nil => rfl
  | cons t ts =>
      have hhead := parseLoop_node t contents front (serializeAll ts ++ back) parent below root
        (by rw [hc, serializeAll, List.append_assoc])
      have htail := parseLoop_nodes ts contents (front ++ t.serialize) back
        (adopt parent front.length [t]) below root
        (by rw [hc, serializeAll]; simp only [List.append_assoc])
      rw [List.length_append, adopt_cons] at htail
      rw [hhead, htail, serializeAll, List.length_append, Nat.add_assoc]

end

/-- The parser finds a serialized tree behind the identifier. -/
theorem parseTree_serialize {identifier : List UInt8} (hid : identifier.length = 4) (t : Tree) :
    parseTree (identifier ++ t.serialize) = .ok (nodeAt 4 t) := by
  obtain ⟨type, props, children⟩ := t
  generalize hc : identifier ++ (Tree.node type props children).serialize = contents
  have hlen : contents.length
      = 6 + (escape props).length + (serializeAll children).length + 1 := by
    rw [← hc, List.length_append, hid, length_serialize]
    omega
  simp only [Tree.serialize] at hc
  have hfirst : deref contents 4 = .ok startChar := by
    rw [← hc, ← hid]
    exact deref_append _ _ _
  have htype : deref contents 5 = .ok type := by
    have h := deref_append type (escape props ++ (serializeAll children ++ [endChar]))
      (identifier ++ [startChar])
    rw [List.length_append, hid] at h
    rw [← hc]
    simpa using h
  have hc' : contents = (identifier ++ [startChar, type])
      ++ (escape props ++ (serializeAll children ++ endChar :: [])) := by
    rw [← hc]
    simp
  obtain ⟨hbody, hend⟩ := parseLoop_body props (newNode 5 type) [] (newNode 5 type) hc'
    (fun front' back' h => parseLoop_nodes children contents front' back' _ _ _ h)
  simp only [List.length_append, hid, List.length_cons, List.length_nil, Nat.zero_add,
    Nat.reduceAdd] at hbody hend
  have hclose := (hend ⟨[adopt (newNode 5 type) (6 + (escape props).length) children],
    newNode 5 type⟩).trans rfl
  have hroot : (adopt (newNode 5 type) (6 + (escape props).length) children).endProps
      (6 + (escape props).length + (serializeAll children).length)
      = nodeAt 4 (.node type props children) :=
    endProps_adopt rfl _ _
  have hloop : parseLoop contents 6 (openRoot type)
      = .ok ⟨[], nodeAt 4 (.node type props children)⟩ := by
    rw [openRoot, hbody, parseLoop_step hclose, hroot, ← hlen, parseLoop, if_pos rfl]
  rw [parseTree_of_deref hfirst htype, hloop]
  rfl

theorem getProps_escape {contents front back : List UInt8} {n : Node} (props : List UInt8)
    (hc : contents = front ++ (escape props ++ back)) (hbegin : n.propsBegin = front.length)
    (hend : n.propsEnd = front.length + (escape props).length) :
    getProps contents n PropStream.empty = .ok (!props.isEmpty, PropStream.init props) := by
  have hsize : n.propsEnd - n.propsBegin = (escape props).length := by
    omega
  simp only [getProps, hsize, length_escape_eq_zero]
  by_cases hnil : props = []
  · rw [if_pos hnil, hnil]
    rfl
  · have hin : ¬ contents.length < n.propsEnd := by
      rw [hend, hc]
      simp only [List.length_append]
      omega
    have hread : Bytes.readAt contents n.propsBegin (escape props).length = escape props := by
      rw [hbegin, hc, Bytes.readAt, List.drop_left, List.take_left]
    rw [if_neg hnil, if_neg hin, hread, unescape_escape]
    simp [hnil]

mutual

theorem represents_nodeAt (t : Tree) (contents front back : List UInt8)
    (hc : contents = front ++ (t.serialize ++ back)) :
    Represents contents (nodeAt front.length t) t := by
  obtain ⟨type, props, children⟩ := t
  simp only [Tree.serialize, List.cons_append, List.append_assoc] at hc
  have hchildren := represents_nodesAt children contents (front ++ [startChar, type] ++ escape props)
    ([endChar] ++ back) (by rw [hc]; simp)
  simp only [List.length_append] at hchildren
  have hprops : contents = (front ++ [startChar, type])
      ++ (escape props ++ (serializeAll children ++ ([endChar] ++ back))) := by
    rw [hc]
    simp
  refine Represents.mk (n := nodeAt front.length (.node type props children)) ?_ hchildren
  refine getProps_escape props hprops ?_ ?_
  · rw [List.length_append]
    rfl
  · rw [List.length_append]
    rfl

theorem represents_nodesAt (ts : List Tree) (contents front back : List UInt8)
    (hc : contents = front ++ (serializeAll ts ++ back)) :
    List.Forall₂ (Represents contents) (nodesAt front.length ts) ts := by
  cases ts with
  | nil => exact .nil
  | cons t ts =>
      rw [serializeAll, List.append_assoc] at hc
      have hhead := represents_nodeAt t contents front (serializeAll ts ++ back) hc
      have htail := represents_nodesAt ts contents (front ++ t.serialize) back (by rw [hc]; simp)
      rw [List.length_append] at htail
      exact .cons hhead htail

end

/-! ## Loading -/

/-- A node without properties and without children. -/
def Tree.Bare : Tree → Prop
  | .node _ props children => props = [] ∧ children = []

theorem serializeAll_pos {ts : List Tree} (h : ts ≠ []) : 0 < (serializeAll ts).length := by
  cases ts with
  | nil => exact absurd rfl h
  | cons t ts =>
      obtain ⟨type, props, children⟩ := t
      rw [serializeAll, List.length_append, length_serialize]
      omega

/-- Three bytes is the least a node takes, and a bare one takes no more. -/
theorem three_lt_length_serialize (t : Tree) : 3 < t.serialize.length ↔ ¬ t.Bare := by
  obtain ⟨type, props, children⟩ := t
  rw [length_serialize, Tree.Bare]
  constructor
  · rintro hlt ⟨rfl, rfl⟩
    simp [escape, serializeAll] at hlt
  · intro hbare
    by_cases hprops : props = []
    · have := serializeAll_pos fun hnil => hbare ⟨hprops, hnil⟩
      omega
    · have hpos : (escape props).length ≠ 0 := fun hzero => hprops (length_escape_eq_zero.mp hzero)
      omega

theorem parseTree_represents {identifier : List UInt8} (hid : identifier.length = 4) (t : Tree) :
    ∃ root, parseTree (identifier ++ t.serialize) = .ok root
      ∧ Represents (identifier ++ t.serialize) root t := by
  refine ⟨nodeAt 4 t, parseTree_serialize hid t, ?_⟩
  rw [← hid]
  exact represents_nodeAt t _ identifier [] (by rw [List.append_nil])

theorem checkFile_serialize {acceptedIdentifier fileIdentifier : Identifier}
    (hid : fileIdentifier = acceptedIdentifier ∨ fileIdentifier = wildcard) (t : Tree) :
    checkFile acceptedIdentifier (fileIdentifier.toList ++ t.serialize)
      = if 3 < t.serialize.length then .ok () else .error .invalidOTBFormat := by
  have hlen : fileIdentifier.toList.length = 4 := by simp
  have htake : (fileIdentifier.toList ++ t.serialize).take 4 = fileIdentifier.toList := by
    rw [List.take_left' hlen]
  simp only [checkFile, List.length_append, hlen, htake]
  by_cases hsize : 3 < t.serialize.length
  · rw [if_neg (by omega), if_pos hsize, if_neg]
    rintro ⟨haccepted, hwildcard⟩
    rcases hid with rfl | rfl
    · exact haccepted rfl
    · exact hwildcard rfl
  · rw [if_pos (by omega), if_neg hsize]

/-- A file with an accepted identifier and a serialized tree is loaded as that
tree unless the tree is a bare root; `parseTree` itself finds every tree; and
any other byte string is refused or loaded within its bounds. -/
theorem loader_round_trip_iff {acceptedIdentifier fileIdentifier : Identifier}
    (hid : fileIdentifier = acceptedIdentifier ∨ fileIdentifier = wildcard) (t : Tree) :
    ((∃ root, load acceptedIdentifier (fileIdentifier.toList ++ t.serialize) = .ok root
        ∧ Represents (fileIdentifier.toList ++ t.serialize) root t) ↔ ¬ t.Bare)
      ∧ (∃ root, parseTree (fileIdentifier.toList ++ t.serialize) = .ok root
        ∧ Represents (fileIdentifier.toList ++ t.serialize) root t)
      ∧ ∀ contents, load acceptedIdentifier contents = .error .invalidOTBFormat
        ∨ ∃ root, load acceptedIdentifier contents = .ok root ∧ root.InRange contents.length := by
  have hparse := parseTree_represents (show fileIdentifier.toList.length = 4 by simp) t
  refine ⟨?_, hparse, load_safe acceptedIdentifier⟩
  rw [← three_lt_length_serialize, load, checkFile_serialize hid]
  constructor
  · rintro ⟨root, hload, -⟩
    by_contra hsize
    rw [if_neg hsize] at hload
    cases hload
  · intro hsize
    rw [if_pos hsize]
    exact hparse

theorem loader_round_trip_one_child :
    ((∃ root, load wildcard (wildcard.toList ++ (Tree.node 0 [] [.node 1 [0xFF] []]).serialize)
          = .ok root
        ∧ Represents (wildcard.toList ++ (Tree.node 0 [] [.node 1 [0xFF] []]).serialize) root
          (.node 0 [] [.node 1 [0xFF] []])) ↔ ¬ (Tree.node 0 [] [.node 1 [0xFF] []]).Bare)
      ∧ ¬ (Tree.node 0 [] [.node 1 [0xFF] []]).Bare :=
  ⟨(loader_round_trip_iff (.inl rfl) (Tree.node 0 [] [.node 1 [0xFF] []])).1, by simp [Tree.Bare]⟩

/-- `OTBM`, then the start marker, a type and the end marker: seven bytes. -/
theorem bare_root_refused :
    ¬ ∀ (acceptedIdentifier : Identifier) (t : Tree),
      ∃ root, load acceptedIdentifier (acceptedIdentifier.toList ++ t.serialize) = .ok root
        ∧ Represents (acceptedIdentifier.toList ++ t.serialize) root t := by
  intro hclaim
  obtain ⟨root, hload, -⟩ := hclaim #v[0x4F, 0x54, 0x42, 0x4D] (.node 0 [] [])
  have hrefused : load #v[0x4F, 0x54, 0x42, 0x4D]
      ((#v[0x4F, 0x54, 0x42, 0x4D] : Identifier).toList ++ (Tree.node 0 [] []).serialize)
        = .error .invalidOTBFormat := by
    rw [load, checkFile_serialize (.inl rfl), if_neg (by decide)]
    rfl
  rw [hrefused] at hload
  cases hload

end Bruxo.OTB
