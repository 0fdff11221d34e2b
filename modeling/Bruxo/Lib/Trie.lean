import Mathlib.Logic.Function.Basic

/-!
# Tries of fixed depth

A trie of depth `n` over an index type `ι` has a value at the end of every
path of `n` indices, or nothing. The depth is part of the type, so a leaf above
the bottom or an inner node at it cannot be built.

`findOrInsert` walks along a path, makes the nodes that are missing and returns
the value at its end: the one that was there, or the given one. It changes what
is found at that path only (`lookup_findOrInsert`).
-/

inductive Trie (ι α : Type) : Nat → Type where
  | null {n : Nat} : Trie ι α n
  | leaf (a : α) : Trie ι α 0
  | inner {n : Nat} (child : ι → Trie ι α n) : Trie ι α (n + 1)

namespace Trie

variable {ι α : Type}

def child {n : Nat} : Trie ι α (n + 1) → ι → Trie ι α n
  | .null, _ => .null
  | .inner c, i => c i

def lookup : {n : Nat} → Trie ι α n → List ι → Option α
  | _, .null, _ => none
  | _, .leaf a, _ => some a
  | _, .inner c, i :: path => (c i).lookup path
  | _, .inner _, [] => none

@[simp] theorem lookup_null {n : Nat} (path : List ι) : (null : Trie ι α n).lookup path = none := by
  cases n <;> rfl

theorem lookup_cons {n : Nat} (t : Trie ι α (n + 1)) (i : ι) (path : List ι) :
    t.lookup (i :: path) = (t.child i).lookup path := by
  cases t with
  | null => rw [child, lookup_null, lookup_null]
  | inner c => rfl

section Insert

variable [DecidableEq ι]

def findOrInsert (a : α) {n : Nat} (t : Trie ι α n) (path : List ι) : Trie ι α n × α :=
  match n, t, path with
  | 0, .leaf b, _ => (.leaf b, b)
  | 0, .null, _ => (.leaf a, a)
  | _ + 1, t, i :: path =>
      let r := findOrInsert a (t.child i) path
      (.inner (Function.update t.child i r.1), r.2)
  | _ + 1, t, [] => (t, a)
termination_by structural n

theorem findOrInsert_snd (a : α) {n : Nat} (t : Trie ι α n) {path : List ι}
    (h : path.length = n) : (t.findOrInsert a path).2 = (t.lookup path).getD a := by
  induction n generalizing path with
  | zero => cases t <;> rfl
  | succ n ih =>
      cases path with
      | nil => cases h
      | cons i path =>
          rw [lookup_cons]
          exact ih (t.child i) (Nat.succ.inj h)

/-- The value is found at the path itself, and no other path is changed. -/
theorem lookup_findOrInsert (a : α) {n : Nat} (t : Trie ι α n) {path other : List ι}
    (h : path.length = n) (h' : other.length = n) :
    (t.findOrInsert a path).1.lookup other
      = if other = path then some ((t.lookup path).getD a) else t.lookup other := by
  induction n generalizing path other with
  | zero =>
      obtain rfl := List.eq_nil_of_length_eq_zero h
      obtain rfl := List.eq_nil_of_length_eq_zero h'
      cases t <;> rfl
  | succ n ih =>
      cases path with
      | nil => cases h
      | cons i path =>
          cases other with
          | nil => cases h'
          | cons j other =>
              have hrec := ih (t.child i) (Nat.succ.inj h) (Nat.succ.inj h')
              show (Function.update t.child i _ j).lookup other = _
              by_cases hij : j = i
              · subst hij
                rw [Function.update_self, hrec, lookup_cons, lookup_cons]
                simp
              · rw [Function.update_of_ne hij, if_neg fun heq => hij (List.cons.inj heq).1,
                  lookup_cons]

end Insert

end Trie
