/-!
# Finite maps as key-sorted lists

A finite map is kept as the list of its pairs in strictly increasing key order,
so that listing it, comparing it and writing it all go by key.  The map's type is
written out as a list of pairs wherever it occurs, because a type that contains
itself through a map can only do so through a list.

`insert` replaces the value under a key that is already there, so of several
insertions under one key the last one wins (`get?_insert_self`), and leaves every
other key alone (`get?_insert_of_ne`).  `erase` and `modify` change one key in the
same sense.
-/

namespace LiteChat.Keyed

variable {κ α : Type} [DecidableEq κ]

/-- The value under a key. -/
def get? (k : κ) : List (κ × α) → Option α
  | [] => none
  | (j, a) :: rest => if j = k then some a else get? k rest

/-- The map with the value under one key replaced, or added in its place. -/
def insert [LT κ] [DecidableLT κ] (k : κ) (a : α) : List (κ × α) → List (κ × α)
  | [] => [(k, a)]
  | (j, b) :: rest =>
    if k < j then (k, a) :: (j, b) :: rest
    else if j = k then (k, a) :: rest
    else (j, b) :: insert k a rest

/-- The map without one key. -/
def erase (k : κ) (m : List (κ × α)) : List (κ × α) := m.filter fun p => decide (p.1 ≠ k)

/-- The map with the value under one key changed, if there is one. -/
def modify (k : κ) (f : α → α) (m : List (κ × α)) : List (κ × α) :=
  m.map fun p => if p.1 = k then (p.1, f p.2) else p

/-- The map of a list of pairs, in which the last pair of a key wins. -/
def ofList [LT κ] [DecidableLT κ] (pairs : List (κ × α)) : List (κ × α) :=
  pairs.foldl (fun m p => insert p.1 p.2 m) []

/-- The keys in strictly increasing order, which is what every map built by
`insert` keeps. -/
def Sorted [LT κ] (m : List (κ × α)) : Prop := m.Pairwise fun p q => p.1 < q.1

theorem get?_cons (k j : κ) (a : α) (rest : List (κ × α)) :
    get? k ((j, a) :: rest) = if j = k then some a else get? k rest := rfl

theorem insert_nil [LT κ] [DecidableLT κ] (k : κ) (a : α) : insert k a [] = [(k, a)] := rfl

theorem insert_cons [LT κ] [DecidableLT κ] (k j : κ) (a b : α) (rest : List (κ × α)) :
    insert k a ((j, b) :: rest) =
      if k < j then (k, a) :: (j, b) :: rest
      else if j = k then (k, a) :: rest
      else (j, b) :: insert k a rest := rfl

theorem get?_insert_self [LT κ] [DecidableLT κ] (k : κ) (a : α) (m : List (κ × α)) :
    get? k (insert k a m) = some a := by
  induction m with
  | nil => rw [insert_nil, get?_cons, if_pos rfl]
  | cons p rest ih =>
    obtain ⟨j, b⟩ := p
    rw [insert_cons]
    split
    · rw [get?_cons, if_pos rfl]
    · split
      · rw [get?_cons, if_pos rfl]
      · rename_i h
        rw [get?_cons, if_neg h, ih]

theorem get?_insert_of_ne [LT κ] [DecidableLT κ] {k j : κ} (h : j ≠ k) (a : α)
    (m : List (κ × α)) : get? j (insert k a m) = get? j m := by
  induction m with
  | nil => rw [insert_nil, get?_cons, if_neg (Ne.symm h)]
  | cons p rest ih =>
    obtain ⟨i, b⟩ := p
    rw [insert_cons]
    split
    · rw [get?_cons, if_neg (Ne.symm h)]
    · split
      · rename_i hi
        subst hi
        rw [get?_cons, get?_cons, if_neg (Ne.symm h), if_neg (Ne.symm h)]
      · rw [get?_cons, get?_cons, ih]

theorem get?_erase_self (k : κ) (m : List (κ × α)) : get? k (erase k m) = none := by
  induction m with
  | nil => rfl
  | cons p rest ih =>
    obtain ⟨j, b⟩ := p
    by_cases h : j = k
    · simpa [erase, h] using ih
    · simpa [erase, h, get?_cons] using ih

theorem get?_erase_of_ne {k j : κ} (h : j ≠ k) (m : List (κ × α)) :
    get? j (erase k m) = get? j m := by
  induction m with
  | nil => rfl
  | cons p rest ih =>
    obtain ⟨i, b⟩ := p
    by_cases hi : i = k
    · subst hi
      simpa [erase, get?_cons, Ne.symm h] using ih
    · by_cases hj : i = j
      · subst hj
        simp [erase, h, get?_cons]
      · simpa [erase, hi, get?_cons, hj] using ih

theorem get?_modify_self (k : κ) (f : α → α) (m : List (κ × α)) :
    get? k (modify k f m) = (get? k m).map f := by
  induction m with
  | nil => rfl
  | cons p rest ih =>
    obtain ⟨j, b⟩ := p
    by_cases h : j = k
    · simp [modify, h, get?_cons]
    · simpa [modify, h, get?_cons] using ih

theorem get?_modify_of_ne {k j : κ} (h : j ≠ k) (f : α → α) (m : List (κ × α)) :
    get? j (modify k f m) = get? j m := by
  induction m with
  | nil => rfl
  | cons p rest ih =>
    obtain ⟨i, b⟩ := p
    by_cases hi : i = k
    · subst hi
      simpa [modify, get?_cons, Ne.symm h] using ih
    · by_cases hj : i = j
      · subst hj
        simp [modify, h, get?_cons]
      · simpa [modify, hi, get?_cons, hj] using ih

end LiteChat.Keyed
