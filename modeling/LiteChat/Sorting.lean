/-!
# Stable sorting by a key, and searching by it

Descriptors keep their fields by id and their enum values by number, and two enum
values may share a number: then the one that stands first in the text stays first.
`sortOn` is insertion sort, and an element is inserted in front of those with an
equal key, so that of a list sorted from its end equal keys keep their order.

In a sorted list an element is found by its key without going through all of them:
`search` halves the part of the list in which the element can be.
-/

namespace LiteChat.Sorting

variable {α κ : Type} [LT κ] [DecidableLT κ]

/-- A list with an element put in front of the first one whose key is not smaller. -/
def insertOn (key : α → κ) (a : α) : List α → List α
  | [] => [a]
  | b :: rest => if key b < key a then b :: insertOn key a rest else a :: b :: rest

/-- A list in the order of the elements' keys, equal keys in their old order. -/
def sortOn (key : α → κ) : List α → List α
  | [] => []
  | a :: rest => insertOn key a (sortOn key rest)

/-- The place of an element with a key, looked for from the place `low` up to, but
not including, the place `high`. -/
def searchFrom (key : α → κ) (k : κ) (l : List α) (low high : Nat) : Option Nat :=
  if low < high then
    let middle := low + (high - low) / 2
    match l[middle]? with
    | none => none
    | some a =>
      if key a < k then searchFrom key k l (middle + 1) high
      else if k < key a then searchFrom key k l low middle
      else some middle
  else none
termination_by high - low

/-- The place of an element with a key in a list in the order of the keys. -/
def search (key : α → κ) (k : κ) (l : List α) : Option Nat := searchFrom key k l 0 l.length

theorem perm_insertOn (key : α → κ) (a : α) (l : List α) :
    (insertOn key a l).Perm (a :: l) := by
  induction l with
  | nil => exact .refl _
  | cons b rest ih =>
    unfold insertOn
    split
    · exact (ih.cons b).trans (.swap a b rest)
    · exact .refl _

/-- Sorting neither loses nor adds an element. -/
theorem perm_sortOn (key : α → κ) (l : List α) : (sortOn key l).Perm l := by
  induction l with
  | nil => exact .refl _
  | cons a rest ih => exact (perm_insertOn key a _).trans (ih.cons a)

end LiteChat.Sorting
