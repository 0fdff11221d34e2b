import Bruxo.Lib.Ascii

/-!
# Talk actions

`TalkActions` (`talkaction.cpp`): the actions by their words, in the order of the words, and the one
that is run for what a player says. An action may be registered for several words. The script that
is run is not modelled but for its answer.
-/

namespace Bruxo.Talk

open Ascii

structure TalkAction where
  separator : Text
  needAccess : Bool
  requiredAccountType : Nat
  deriving DecidableEq

/-- What is asked of a player. -/
structure Player where
  isAccessPlayer : Bool
  accountType : Nat

/-- `emplace` of a `std::map`: words that are there keep their action. -/
def emplaceEntry (word : Text) (action : TalkAction) : List (Text × TalkAction) →
    List (Text × TalkAction)
  | [] => [(word, action)]
  | entry :: entries =>
      if word < entry.1 then (word, action) :: entry :: entries
      else if entry.1 < word then entry :: emplaceEntry word action entries
      else entry :: entries

theorem mem_emplaceEntry {word : Text} {action : TalkAction} {entries : List (Text × TalkAction)}
    {entry : Text × TalkAction} (h : entry ∈ emplaceEntry word action entries) :
    entry = (word, action) ∨ entry ∈ entries := by
  induction entries with
  | nil => exact .inl (List.mem_singleton.mp h)
  | cons first entries ih =>
      rw [emplaceEntry] at h
      split at h
      · exact List.mem_cons.mp h
      · split at h
        · rcases List.mem_cons.mp h with rfl | h
          · exact .inr List.mem_cons_self
          · exact (ih h).imp_right (List.mem_cons_of_mem _)
        · exact .inr h

abbrev Sorted (entries : List (Text × TalkAction)) : Prop := entries.Pairwise fun a b => a.1 < b.1

theorem Sorted.emplaceEntry {entries : List (Text × TalkAction)} (h : Sorted entries) (word : Text)
    (action : TalkAction) : Sorted (emplaceEntry word action entries) := by
  induction entries with
  | nil => exact List.pairwise_singleton _ _
  | cons first entries ih =>
      obtain ⟨hfirst, hrest⟩ := List.pairwise_cons.mp h
      rw [Talk.emplaceEntry]
      split
      · next hlt =>
          refine List.pairwise_cons.mpr ⟨fun entry hentry => ?_, h⟩
          rcases List.mem_cons.mp hentry with rfl | hentry
          · exact hlt
          · exact List.lt_trans hlt (hfirst entry hentry)
      · split
        · next hlt =>
            refine List.pairwise_cons.mpr ⟨fun entry hentry => ?_, ih hrest⟩
            rcases mem_emplaceEntry hentry with rfl | hentry
            · exact hlt
            · exact hfirst entry hentry
        · exact h

/-- The registered actions in the order of their words. -/
structure TalkActions where
  talkActions : List (Text × TalkAction)
  sorted : Sorted talkActions

namespace TalkActions

def empty : TalkActions := ⟨[], .nil⟩

def emplace (s : TalkActions) (word : Text) (action : TalkAction) : TalkActions :=
  ⟨emplaceEntry word action s.talkActions, s.sorted.emplaceEntry word action⟩

/-- `registerEvent`, and `registerLuaEvent` of an action that has words. -/
def registerEvent (s : TalkActions) (words : List Text) (action : TalkAction) : TalkActions :=
  words.foldl (fun s word => s.emplace word action) s

end TalkActions

inductive TalkActionResult where
  | continue
  | break
  deriving DecidableEq

/-- What becomes of what a player says: the words and the action that are selected with the
parameter, whether its script is run, and the result. -/
structure Said where
  selected : Option (Text × TalkAction × Text)
  executed : Bool
  result : TalkActionResult
  deriving DecidableEq

/-- The parameter for an action whose words the text begins with, or nothing if the loop goes on to
the next one. -/
def parameter (words talkactionWords separator : Text) : Option Text :=
  if words.length ≠ talkactionWords.length then
    let param := words.drop talkactionWords.length
    if param.head? ≠ some space then none
    else
      let param := trimLeft param
      if separator ≠ [space] then
        if param ≠ [] then
          if param ≠ separator then none
          else some (param.drop 1)
        else some param
      else some param
  else some []

/-- What is done with the action that is selected. -/
def perform (executeSay : TalkAction → Text → Text → Bool) (player : Player) (words : Text)
    (entry : Text × TalkAction) (param : Text) : Said :=
  let selected := some (entry.1, entry.2, param)
  if entry.2.needAccess && !player.isAccessPlayer then ⟨selected, false, .continue⟩
  else if player.accountType < entry.2.requiredAccountType then ⟨selected, false, .continue⟩
  else if executeSay entry.2 words param then ⟨selected, true, .continue⟩
  else ⟨selected, true, .break⟩

/-- The loop of `playerSaySpell`. -/
def sayLoop (executeSay : TalkAction → Text → Text → Bool) (player : Player) (words : Text) :
    List (Text × TalkAction) → Said
  | [] => ⟨none, false, .continue⟩
  | entry :: entries =>
      if ¬ caseInsensitiveStartsWith words entry.1 then sayLoop executeSay player words entries
      else
        match parameter words entry.1 entry.2.separator with
        | none => sayLoop executeSay player words entries
        | some param => perform executeSay player words entry param

def playerSaySpell (s : TalkActions) (executeSay : TalkAction → Text → Text → Bool)
    (player : Player) (words : Text) : Said :=
  sayLoop executeSay player words s.talkActions

/-! ## The actions that are meant -/

/-- The parameter for an action that is meant by a text. The rest of the text after the words is
blank, or a space, more blanks, the separator and the parameter; of a separator that is a space the
blanks are enough. -/
def meantParameter (words : Text) (entry : Text × TalkAction) : Option Text :=
  let rest := words.drop entry.1.length
  if ¬ caseInsensitiveStartsWith words entry.1 then none
  else if rest.all isSpace then some []
  else if rest.head? ≠ some space then none
  else if entry.2.separator = [space] then some (trimLeft rest)
  else if entry.2.separator <+: trimLeft rest then
    some ((trimLeft rest).drop entry.2.separator.length)
  else none

/-- The first action that is meant, with its parameter. -/
def meant (words : Text) (entries : List (Text × TalkAction)) :
    Option ((Text × TalkAction) × Text) :=
  entries.findSome? fun entry => (meantParameter words entry).map fun param => (entry, param)

/-- What becomes of a text if the action that is meant is selected. -/
def meantSay (s : TalkActions) (executeSay : TalkAction → Text → Text → Bool) (player : Player)
    (words : Text) : Said :=
  match meant words s.talkActions with
  | none => ⟨none, false, .continue⟩
  | some (entry, param) => perform executeSay player words entry param

/-- The text has no parameter behind a separator other than a space: it ends after the words, with
blanks of which the first is a space, or with a separator of one character. -/
def Plain (words : Text) (entry : Text × TalkAction) : Prop :=
  let rest := words.drop entry.1.length
  rest = [] ∨ rest.head? = some space ∧
    (entry.2.separator = [space] ∨ trimLeft rest = [] ∨
      trimLeft rest = entry.2.separator ∧ entry.2.separator.length = 1)

section Selection

variable {words : Text} {entry : Text × TalkAction} {entries : List (Text × TalkAction)}
  {executeSay : TalkAction → Text → Text → Bool} {player : Player}

/-- The parameter for an action, if the loop selects it. -/
def selects (words : Text) (entry : Text × TalkAction) : Option Text :=
  if caseInsensitiveStartsWith words entry.1 then parameter words entry.1 entry.2.separator
  else none

def selected (words : Text) (entries : List (Text × TalkAction)) :
    Option ((Text × TalkAction) × Text) :=
  entries.findSome? fun entry => (selects words entry).map fun param => (entry, param)

theorem sayLoop_eq : sayLoop executeSay player words entries =
    match selected words entries with
    | none => ⟨none, false, .continue⟩
    | some (entry, param) => perform executeSay player words entry param := by
  induction entries with
  | nil => rfl
  | cons entry entries ih =>
      rw [sayLoop, selected, List.findSome?_cons]
      cases hstarts : caseInsensitiveStartsWith words entry.1 with
      | false =>
          have hnot : selects words entry = none := by
            rw [selects, hstarts]
            rfl
          rw [if_pos Bool.false_ne_true, hnot]
          exact ih
      | true =>
          have hselects : selects words entry = parameter words entry.1 entry.2.separator := by
            rw [selects, hstarts]
            rfl
          rw [if_neg (not_not_intro rfl), hselects]
          cases parameter words entry.1 entry.2.separator with
          | none => exact ih
          | some param => rfl

/-- The text is longer than the words that it begins with exactly if there is a rest. -/
theorem length_ne_iff (hstarts : caseInsensitiveStartsWith words entry.1 = true) :
    words.length ≠ entry.1.length ↔ words.drop entry.1.length ≠ [] := by
  have hprefix := (caseInsensitiveStartsWith_iff.mp hstarts).length_le
  rw [List.length_map, List.length_map] at hprefix
  rw [Ne, Ne, List.drop_eq_nil_iff]
  omega

/-- The parameter that is selected, by the rest of the text. -/
theorem selects_eq (hstarts : caseInsensitiveStartsWith words entry.1 = true) :
    selects words entry =
      let rest := words.drop entry.1.length
      if rest = [] then some []
      else if rest.head? ≠ some space then none
      else if entry.2.separator = [space] then some (trimLeft rest)
      else if trimLeft rest = [] then some []
      else if trimLeft rest = entry.2.separator then some ((trimLeft rest).drop 1)
      else none := by
  have hlength := length_ne_iff hstarts
  rw [selects, if_pos hstarts, parameter]
  dsimp only
  generalize words.drop entry.1.length = rest at hlength ⊢
  by_cases hrest : rest = []
  · rw [if_pos hrest, if_neg fun h => hlength.mp h hrest]
  · rw [if_neg hrest, if_pos (hlength.mpr hrest)]
    by_cases hspace : rest.head? = some space
    · rw [if_neg (not_not_intro hspace), if_neg (not_not_intro hspace)]
      by_cases hsep : entry.2.separator = [space]
      · rw [if_pos hsep, if_neg (not_not_intro hsep)]
      · rw [if_neg hsep, if_pos hsep]
        by_cases hnil : trimLeft rest = []
        · rw [if_pos hnil, if_neg (not_not_intro hnil), hnil]
        · rw [if_neg hnil, if_pos hnil]
          by_cases heq : trimLeft rest = entry.2.separator
          · rw [if_pos heq, if_neg (not_not_intro heq)]
          · rw [if_neg heq, if_pos heq]
    · rw [if_pos hspace, if_pos hspace]

/-- What is not meant is not selected. -/
theorem selects_none (hmeant : meantParameter words entry = none) :
    selects words entry = none := by
  by_cases hstarts : caseInsensitiveStartsWith words entry.1 = true
  · rw [selects_eq hstarts]
    rw [meantParameter, if_neg (not_not_intro hstarts)] at hmeant
    dsimp only at hmeant ⊢
    generalize words.drop entry.1.length = rest at hmeant ⊢
    by_cases hblank : rest.all isSpace = true
    · rw [if_pos hblank] at hmeant
      cases hmeant
    · rw [if_neg hblank] at hmeant
      have hrest : rest ≠ [] := fun hnil => hblank (hnil ▸ rfl)
      rw [if_neg hrest]
      by_cases hspace : rest.head? = some space
      · rw [if_neg (not_not_intro hspace)] at hmeant ⊢
        by_cases hsep : entry.2.separator = [space]
        · rw [if_pos hsep] at hmeant
          cases hmeant
        · have hnil : trimLeft rest ≠ [] := fun hnil => hblank (trimLeft_eq_nil.mp hnil)
          rw [if_neg hsep] at hmeant ⊢
          rw [if_neg hnil]
          have hnot : trimLeft rest ≠ entry.2.separator := by
            intro heq
            rw [if_pos (heq ▸ List.prefix_rfl)] at hmeant
            cases hmeant
          rw [if_neg hnot]
      · rw [if_pos hspace]
  · rw [selects, if_neg hstarts]

/-- What is meant is selected with its parameter exactly if the text is plain. -/
theorem selects_iff {param : Text} (hmeant : meantParameter words entry = some param) :
    selects words entry = some param ↔ Plain words entry := by
  have hstarts : caseInsensitiveStartsWith words entry.1 = true := by
    by_contra hnot
    rw [meantParameter, if_pos hnot] at hmeant
    cases hmeant
  rw [selects_eq hstarts, Plain]
  rw [meantParameter, if_neg (not_not_intro hstarts)] at hmeant
  dsimp only at hmeant ⊢
  generalize words.drop entry.1.length = rest at hmeant ⊢
  by_cases hrest : rest = []
  · rw [if_pos (hrest ▸ rfl)] at hmeant
    rw [if_pos hrest]
    exact iff_of_true hmeant (.inl hrest)
  · rw [if_neg hrest, or_iff_right hrest]
    by_cases hspace : rest.head? = some space
    · rw [if_neg (not_not_intro hspace), and_iff_right hspace]
      by_cases hblank : rest.all isSpace = true
      · have hnil : trimLeft rest = [] := trimLeft_eq_nil.mpr hblank
        rw [if_pos hblank] at hmeant
        rw [if_pos hnil, hnil, ite_self]
        exact iff_of_true hmeant (.inr (.inl rfl))
      · have hnil : trimLeft rest ≠ [] := fun hnil => hblank (trimLeft_eq_nil.mp hnil)
        rw [if_neg hblank, if_neg (not_not_intro hspace)] at hmeant
        rw [if_neg hnil, or_iff_right hnil]
        by_cases hsep : entry.2.separator = [space]
        · rw [if_pos hsep] at hmeant ⊢
          exact iff_of_true hmeant (.inl hsep)
        · rw [if_neg hsep] at hmeant ⊢
          rw [or_iff_right hsep]
          by_cases heq : trimLeft rest = entry.2.separator
          · rw [if_pos heq, and_iff_right heq]
            rw [if_pos (heq ▸ List.prefix_rfl), heq, List.drop_length] at hmeant
            obtain rfl := Option.some.inj hmeant
            rw [Option.some.injEq, heq, List.drop_eq_nil_iff]
            have hpos : entry.2.separator ≠ [] := heq ▸ hnil
            have hlength := List.length_pos_iff.mpr hpos
            omega
          · rw [if_neg heq]
            exact iff_of_false (fun h => by cases h) fun h => heq h.1
    · rw [if_pos hspace]
      exact iff_of_false (fun h => by cases h) fun h => hspace h.1

theorem perform_selected (entry : Text × TalkAction) (param : Text) :
    (perform executeSay player words entry param).selected =
      some (entry.1, entry.2, param) := by
  rw [perform]
  split
  · rfl
  · split
    · rfl
    · split <;> rfl

/-- Before the action that is meant none is selected. -/
theorem selected_append {front back : List (Text × TalkAction)}
    (hfront : ∀ e ∈ front, meantParameter words e = none) :
    selected words (front ++ entry :: back) =
      match selects words entry with
      | none => selected words back
      | some param => some (entry, param) := by
  have hnone : (front.findSome? fun e => (selects words e).map fun param => (e, param)) = none := by
    rw [List.findSome?_eq_none_iff]
    intro e he
    rw [selects_none (hfront e he)]
    rfl
  rw [selected, List.findSome?_append, hnone, List.findSome?_cons]
  cases selects words entry with
  | none => rfl
  | some param => rfl

theorem mem_of_selected {param : Text} (h : selected words entries = some (entry, param)) :
    entry ∈ entries := by
  obtain ⟨e, he, hselects⟩ := List.exists_of_findSome?_eq_some h
  obtain ⟨p, -, heq⟩ := Option.map_eq_some_iff.mp hselects
  obtain ⟨rfl, -⟩ := Prod.mk.inj heq
  exact he

end Selection

/-- What a player says runs the action that is meant, with the parameter that is meant, if and only
if it is plain for this action. -/
theorem playerSaySpell_iff (s : TalkActions) (executeSay : TalkAction → Text → Text → Bool)
    (player : Player) (words : Text) :
    playerSaySpell s executeSay player words = meantSay s executeSay player words ↔
      ∀ entry param, meant words s.talkActions = some (entry, param) → Plain words entry := by
  rw [playerSaySpell, meantSay, sayLoop_eq]
  cases hmeant : meant words s.talkActions with
  | none =>
      have hnone : selected words s.talkActions = none := by
        rw [selected, List.findSome?_eq_none_iff]
        intro e he
        have hnot := List.findSome?_eq_none_iff.mp hmeant e he
        rw [selects_none (Option.map_eq_none_iff.mp hnot)]
        rfl
      rw [hnone]
      exact iff_of_true rfl fun _ _ h => by cases h
  | some found =>
      obtain ⟨entry, param⟩ := found
      obtain ⟨front, e, back, hsplit, he, hfront⟩ := List.findSome?_eq_some_iff.mp hmeant
      obtain ⟨p, hparam, heq⟩ := Option.map_eq_some_iff.mp he
      obtain ⟨rfl, rfl⟩ := Prod.mk.inj heq
      have hplain : Plain words e ↔
          ∀ entry param, some (e, p) = some (entry, param) → Plain words entry := by
        refine ⟨fun h entry param heq => ?_, fun h => h e p rfl⟩
        obtain ⟨rfl, -⟩ := Prod.mk.inj (Option.some.inj heq)
        exact h
      have hbefore : ∀ x ∈ front, meantParameter words x = none := fun x hx =>
        Option.map_eq_none_iff.mp (hfront x hx)
      rw [← hplain, ← selects_iff hparam, hsplit, selected_append hbefore]
      cases hselects : selects words e with
      | none =>
          refine iff_of_false (fun h => ?_) fun h => by cases h
          have hselected := congrArg Said.selected h
          cases hback : selected words back with
          | none =>
              rw [hback, perform_selected] at hselected
              cases hselected
          | some next =>
              obtain ⟨entry, param⟩ := next
              rw [hback, perform_selected, perform_selected] at hselected
              have hwords : entry.1 = e.1 := (Prod.mk.inj (Option.some.inj hselected)).1
              have hsorted := s.sorted
              rw [hsplit] at hsorted
              have hlt := (List.pairwise_cons.mp (List.pairwise_append.mp hsorted).2.1).1 entry
                (mem_of_selected hback)
              rw [hwords] at hlt
              exact List.lt_irrefl _ hlt
      | some param =>
          dsimp only
          constructor
          · intro h
            have hselected := congrArg Said.selected h
            rw [perform_selected, perform_selected] at hselected
            exact congrArg some (Prod.mk.inj (Prod.mk.inj (Option.some.inj hselected)).2).2
          · intro h
            rw [Option.some.inj h]

/-- The words `!say` of an action with the separator that actions have by default. -/
def sayAction : TalkActions :=
  TalkActions.empty.registerEvent [[0x21, 0x73, 0x61, 0x79]] ⟨[0x22], false, 1⟩

/-- The text `!say "hi`. -/
def sayHi : Text := [0x21, 0x73, 0x61, 0x79, 0x20, 0x22, 0x68, 0x69]

/-- The parameter `hi` is meant, and no action is selected. -/
theorem playerSaySpell_parameter :
    playerSaySpell sayAction (fun _ _ _ => true) ⟨true, 6⟩ sayHi ≠
      meantSay sayAction (fun _ _ _ => true) ⟨true, 6⟩ sayHi := by
  decide

end Bruxo.Talk
