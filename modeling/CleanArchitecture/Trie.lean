import Mathlib.Logic.Function.Basic

/-!
# Tries

A trie maps lists of keys to values: every node may hold a value and has a child
for each key that leads on.  Looking a list up after an insertion finds the new
value under that list and the old one under every other list.
-/

namespace CleanArchitecture

inductive Trie (α β : Type) : Type
  | node (value : Option β) (children : α → Option (Trie α β))

namespace Trie

variable {α β : Type}

def empty : Trie α β :=
  .node none fun _ => none

def value : Trie α β → Option β
  | .node value _ => value

def children : Trie α β → α → Option (Trie α β)
  | .node _ children => children

/-- The child for a key, a new one if there is none. -/
def child (t : Trie α β) (key : α) : Trie α β :=
  (t.children key).getD empty

def setValue (t : Trie α β) (value : Option β) : Trie α β :=
  .node value t.children

def find? : List α → Trie α β → Option β
  | [], t => t.value
  | key :: keys, t => (t.children key).bind (find? keys)

variable [DecidableEq α]

def setChild (t : Trie α β) (key : α) (child : Trie α β) : Trie α β :=
  .node t.value (Function.update t.children key (some child))

/-- Nodes are added along the list, and the last one gets the value. -/
def insert : List α → Option β → Trie α β → Trie α β
  | [], value, t => t.setValue value
  | key :: keys, value, t => t.setChild key (insert keys value (t.child key))

omit [DecidableEq α] in
@[simp] theorem find?_empty (keys : List α) : find? keys (empty : Trie α β) = none := by
  cases keys <;> rfl

omit [DecidableEq α] in
theorem find?_cons (key : α) (keys : List α) (t : Trie α β) :
    find? (key :: keys) t = find? keys (t.child key) := by
  rw [find?, child]
  cases t.children key with
  | none => rw [Option.bind_none, Option.getD_none, find?_empty]
  | some next => rfl

omit [DecidableEq α] in
@[simp] theorem child_setValue (t : Trie α β) (value : Option β) (key : α) :
    (t.setValue value).child key = t.child key :=
  rfl

@[simp] theorem child_setChild_self (t next : Trie α β) (key : α) :
    (t.setChild key next).child key = next := by
  simp [child, setChild, children]

theorem child_setChild_of_ne (t next : Trie α β) {key other : α} (apart : other ≠ key) :
    (t.setChild key next).child other = t.child other := by
  simp [child, setChild, children, Function.update_of_ne apart]

theorem find?_insert (keys other : List α) (value : Option β) (t : Trie α β) :
    find? other (insert keys value t) = if other = keys then value else find? other t := by
  induction keys generalizing other t with
  | nil =>
      cases other with
      | nil => rfl
      | cons key other => rw [insert, find?_cons, find?_cons, child_setValue, if_neg (by simp)]
  | cons key keys ih =>
      cases other with
      | nil => rfl
      | cons first other =>
          rw [insert, find?_cons, find?_cons]
          by_cases same : first = key
          · subst same
            rw [child_setChild_self, ih]
            simp
          · rw [child_setChild_of_ne t _ same, if_neg (by simp [same])]

end Trie

end CleanArchitecture
