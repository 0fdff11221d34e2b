import Mathlib.Data.List.Nodup
import Mathlib.Data.List.Perm.Basic

/-!
# Unordered lists with keys

Entries that are found by a key that no two of them share. An entry is set in its place, and taken
out by putting the last one into its place; either way the others are the ones that were there.
-/

namespace SwapList

variable {α κ : Type} [DecidableEq κ] (key : α → κ)

/-- The first entry of the key gives way to another, where there is one. -/
def replace (k : κ) (b : α) : List α → Option (List α)
  | [] => none
  | a :: l => if key a = k then some (b :: l) else (replace k b l).map (a :: ·)

/-- The entry of the key, found from the end on, is taken out of the list. -/
def swapOut (k : κ) (l : List α) : List α :=
  match l.reverse with
  | [] => []
  | last :: before =>
      if key last = k then before.reverse
      else
        match replace key k last before with
        | none => l
        | some swapped => swapped.reverse

def lookup (k : κ) (l : List α) : Option α := l.find? fun a => key a = k

section Lemmas

variable {key} {k : κ} {a b : α} {l l' : List α}

theorem replace_eq_none : replace key k b l = none ↔ k ∉ l.map key := by
  induction l with
  | nil => exact iff_of_true rfl List.not_mem_nil
  | cons a l ih =>
      rw [replace, List.map_cons, List.mem_cons, not_or]
      split
      · next hkey => exact iff_of_false (fun h => by cases h) fun h => h.1 hkey.symm
      · next hkey => rw [Option.map_eq_none_iff, ih, and_iff_right (Ne.symm hkey)]

theorem replace_eq_some (h : replace key k b l = some l') :
    ∃ before a after, l = before ++ a :: after ∧ key a = k ∧ l' = before ++ b :: after := by
  induction l generalizing l' with
  | nil => cases h
  | cons a l ih =>
      rw [replace] at h
      split at h
      · next hkey => exact ⟨[], a, l, rfl, hkey, (Option.some.inj h).symm⟩
      · obtain ⟨l', hl', rfl⟩ := Option.map_eq_some_iff.mp h
        obtain ⟨before, a', after, rfl, hkey, rfl⟩ := ih hl'
        exact ⟨a :: before, a', after, rfl, hkey, rfl⟩

/-- Without the entry of a key are the ones around it. -/
theorem filter_around {before after : List α} (h : ((before ++ a :: after).map key).Nodup) :
    (before ++ a :: after).filter (fun b => key b ≠ key a) = before ++ after := by
  have hother : ∀ b ∈ before ++ after, key b ≠ key a := by
    rw [List.map_append, List.map_cons] at h
    have hcons := List.nodup_middle.mp h
    rw [List.nodup_cons, ← List.map_append] at hcons
    exact fun b hb heq => hcons.1 (heq ▸ List.mem_map_of_mem hb)
  rw [List.filter_append, List.filter_cons_of_neg (by simp), ← List.filter_append]
  exact List.filter_eq_self.mpr fun b hb => decide_eq_true (hother b hb)

theorem replace_perm (hnodup : (l.map key).Nodup) (h : replace key k b l = some l') :
    l'.Perm (b :: l.filter fun a => key a ≠ k) := by
  obtain ⟨before, a, after, rfl, rfl, rfl⟩ := replace_eq_some h
  rw [filter_around hnodup]
  exact List.perm_middle

theorem swapOut_perm (hnodup : (l.map key).Nodup) (hmem : k ∈ l.map key) :
    (swapOut key k l).Perm (l.filter fun a => key a ≠ k) := by
  rcases List.eq_nil_or_concat l with rfl | ⟨before, last, rfl⟩
  · cases hmem
  rw [List.concat_eq_append] at hnodup hmem ⊢
  rw [swapOut, List.reverse_append, List.reverse_singleton, List.singleton_append]
  dsimp only
  split
  · next hlast =>
      subst hlast
      have hall := filter_around hnodup
      rw [List.append_nil] at hall
      rw [hall, List.reverse_reverse]
  · next hlast =>
      rw [List.map_append, List.map_singleton] at hnodup hmem
      have hbefore : (before.reverse.map key).Nodup := by
        rw [List.map_reverse, List.nodup_reverse]
        exact (List.nodup_append.mp hnodup).1
      have hin : k ∈ before.reverse.map key := by
        rw [List.map_reverse, List.mem_reverse]
        refine (List.mem_append.mp hmem).resolve_right fun h => ?_
        exact hlast (List.mem_singleton.mp h).symm
      have hperm : (last :: before.reverse.filter fun a => key a ≠ k).Perm
          ((before ++ [last]).filter fun a => key a ≠ k) := by
        rw [List.filter_append, List.filter_cons_of_pos (by simpa using hlast), List.filter_nil]
        refine (List.Perm.cons last ?_).trans (List.perm_append_singleton last _).symm
        exact (List.reverse_perm before).filter _
      split
      · next hnone => exact absurd hin (replace_eq_none.mp hnone)
      · next swapped hswapped =>
          exact (List.reverse_perm swapped).trans ((replace_perm hbefore hswapped).trans hperm)

/-! ## Looking up -/

theorem lookup_iff (hnodup : (l.map key).Nodup) :
    lookup key k l = some a ↔ a ∈ l ∧ key a = k := by
  constructor
  · intro h
    have hkey := List.find?_some h
    exact ⟨List.mem_of_find?_eq_some h, of_decide_eq_true hkey⟩
  · rintro ⟨ha, rfl⟩
    cases hfind : lookup key (key a) l with
    | none =>
        have hnone := List.find?_eq_none.mp hfind a ha
        exact absurd (decide_eq_true rfl) hnone
    | some b =>
        have hb := List.mem_of_find?_eq_some hfind
        have hkey := List.find?_some hfind
        rw [List.inj_on_of_nodup_map hnodup hb ha (of_decide_eq_true hkey)]

theorem lookup_eq_none : lookup key k l = none ↔ k ∉ l.map key := by
  rw [lookup, List.find?_eq_none]
  constructor
  · intro h hmem
    obtain ⟨a, ha, hkey⟩ := List.mem_map.mp hmem
    exact h a ha (decide_eq_true hkey)
  · intro h a ha hkey
    exact h (of_decide_eq_true hkey ▸ List.mem_map_of_mem ha)

/-- The order does not matter. -/
theorem lookup_perm (hnodup : (l.map key).Nodup) (h : l.Perm l') (k : κ) :
    lookup key k l = lookup key k l' := by
  refine Option.ext fun a => ?_
  rw [lookup_iff hnodup, lookup_iff ((h.map key).nodup_iff.mp hnodup), h.mem_iff]

theorem lookup_filter (k k' : κ) (l : List α) :
    lookup key k' (l.filter fun a => key a ≠ k) = if k = k' then none else lookup key k' l := by
  split
  · next heq =>
      subst heq
      rw [lookup_eq_none]
      intro hmem
      obtain ⟨a, ha, hkey⟩ := List.mem_map.mp hmem
      exact of_decide_eq_true (List.mem_filter.mp ha).2 hkey
  · next hne =>
      rw [lookup, List.find?_filter]
      refine congrArg (fun p => l.find? p) (funext fun a => ?_)
      by_cases hkey : key a = k'
      · simp [hkey, Ne.symm hne]
      · simp [hkey]

theorem nodup_filter (hnodup : (l.map key).Nodup) (k : κ) :
    ((l.filter fun a => key a ≠ k).map key).Nodup :=
  hnodup.sublist (List.filter_sublist.map _)

theorem mem_keys_filter {k' : κ} :
    k' ∈ (l.filter fun a => key a ≠ k).map key ↔ k' ∈ l.map key ∧ k' ≠ k := by
  rw [List.mem_map, List.mem_map]
  constructor
  · rintro ⟨a, ha, rfl⟩
    obtain ⟨hmem, hne⟩ := List.mem_filter.mp ha
    exact ⟨⟨a, hmem, rfl⟩, of_decide_eq_true hne⟩
  · rintro ⟨⟨a, ha, rfl⟩, hne⟩
    exact ⟨a, List.mem_filter.mpr ⟨ha, decide_eq_true hne⟩, rfl⟩

end Lemmas

end SwapList
