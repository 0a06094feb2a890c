import Mathlib.Order.Basic
import LiteChat.Proofs.Schema.WellFormed

/-!
# Stable sorting, and searching

A list is sorted stably when its keys come in order and the elements of each key come in
their old order (`StablySorted`).  That leaves no choice: `sortOn` sorts stably
(`stablySorted_sortOn`), and a list whose keys are in order already is left as it is
(`sortOn_of_pairwise`).  The first element of a key is then the one that was first before
(`StablySorted.find?_eq`).  Where every key occurs once, the place of an element is a matter of
its key: in front of it stand those of smaller keys (`mem_before_iff`), so the first element
of a kind is the one of least key (`find?_eq_some_iff_least`), and halving the list finds the
place of a key (`search_eq_some_iff`).
-/

namespace LiteChat.Sorting

variable {α κ : Type} [LinearOrder κ]

/-- A list with its elements in the order of their keys, those of one key in the order in
which another list has them. -/
structure StablySorted (key : α → κ) (old new : List α) : Prop where
  /-- The keys come in order. -/
  sorted : new.Pairwise fun a b => key a ≤ key b
  /-- The elements of one key come in their old order. -/
  stable : ∀ k, new.filter (fun a => decide (key a = k)) = old.filter fun a => decide (key a = k)

theorem filter_insertOn (key : α → κ) (a : α) (l : List α) (k : κ) :
    (insertOn key a l).filter (fun b => decide (key b = k)) =
      (a :: l).filter fun b => decide (key b = k) := by
  induction l with
  | nil => rfl
  | cons b rest ih =>
    unfold insertOn
    split
    · rename_i hlt
      rw [List.filter_cons, ih]
      -- the element moves past `b`, which has another key
      by_cases ha : key a = k
      · have hb : key b ≠ k := fun hb => (ha ▸ hb ▸ hlt).ne rfl
        simp [ha, hb]
      · simp [List.filter_cons, ha]
    · rfl

theorem stablySorted_sortOn (key : α → κ) (l : List α) : StablySorted key l (sortOn key l) where
  sorted := pairwise_sortOn key l
  stable k := by
    induction l with
    | nil => rfl
    | cons a rest ih =>
      rw [sortOn, filter_insertOn, List.filter_cons, List.filter_cons, ih]

/-- The first element of a key is the one that was first. -/
theorem StablySorted.find?_eq {key : α → κ} {old new : List α} (h : StablySorted key old new)
    (k : κ) :
    new.find? (fun a => decide (key a = k)) = old.find? fun a => decide (key a = k) := by
  rw [← List.head?_filter, ← List.head?_filter, h.stable k]

theorem sortOn_of_pairwise (key : α → κ) {l : List α}
    (h : l.Pairwise fun a b => key a ≤ key b) : sortOn key l = l := by
  induction l with
  | nil => rfl
  | cons a rest ih =>
    obtain ⟨hfirst, hrest⟩ := List.pairwise_cons.mp h
    rw [sortOn, ih hrest]
    cases rest with
    | nil => rfl
    | cons b rest => rw [insertOn, if_neg (not_lt.mpr (hfirst b (List.mem_cons_self ..)))]

section Increasing
variable {key : α → κ} {l : List α} {a b : α}

/-- In front of an element stand the elements of smaller keys. -/
theorem mem_before_iff (hl : l.Pairwise fun a b => key a < key b) {before after : List α}
    (hsplit : l = before ++ a :: after) : b ∈ before ↔ b ∈ l ∧ key b < key a := by
  subst hsplit
  obtain ⟨-, hback, hfront⟩ := List.pairwise_append.mp hl
  constructor
  · intro hb
    exact ⟨List.mem_append_left _ hb, hfront b hb a List.mem_cons_self⟩
  · rintro ⟨hb, hlt⟩
    rcases List.mem_append.mp hb with hb | hb
    · exact hb
    · rcases List.mem_cons.mp hb with rfl | hb
      · exact absurd hlt (lt_irrefl _)
      · exact absurd hlt ((List.pairwise_cons.mp hback).1 b hb).not_gt

/-- The first element of a kind is the one of least key. -/
theorem find?_eq_some_iff_least (hl : l.Pairwise fun a b => key a < key b) {p : α → Bool} :
    l.find? p = some a ↔ a ∈ l ∧ p a = true ∧ ∀ b ∈ l, key b < key a → p b = false := by
  rw [List.find?_eq_some_iff_append]
  constructor
  · rintro ⟨hp, before, after, hsplit, hbefore⟩
    refine ⟨by simp [hsplit], hp, fun b hb hlt => ?_⟩
    simpa using hbefore b ((mem_before_iff hl hsplit).mpr ⟨hb, hlt⟩)
  · rintro ⟨ha, hp, hleast⟩
    obtain ⟨before, after, hsplit⟩ := List.append_of_mem ha
    refine ⟨hp, before, after, hsplit, fun b hb => ?_⟩
    obtain ⟨hb, hlt⟩ := (mem_before_iff hl hsplit).mp hb
    simp [hleast b hb hlt]

/-- Further on in the list the keys are greater. -/
theorem key_lt_of_lt (hl : l.Pairwise fun a b => key a < key b) {i j : Nat} (hij : i < j)
    (ha : l[i]? = some a) (hb : l[j]? = some b) : key a < key b := by
  obtain ⟨hi, rfl⟩ := List.getElem?_eq_some_iff.mp ha
  obtain ⟨hj, rfl⟩ := List.getElem?_eq_some_iff.mp hb
  exact List.pairwise_iff_getElem.mp hl i j hi hj hij

/-- Between two places halving finds the element of a key, if there is one. -/
theorem searchFrom_eq_some_iff (hl : l.Pairwise fun a b => key a < key b) {k : κ}
    {low high i : Nat} (hhigh : high ≤ l.length) :
    searchFrom key k l low high = some i ↔
      low ≤ i ∧ i < high ∧ ∃ a, l[i]? = some a ∧ key a = k := by
  fun_induction searchFrom key k l low high with
  | case1 low high hlt middle hnone =>
    -- the middle lies in the list
    have hlength : l.length ≤ middle := List.getElem?_eq_none_iff.mp hnone
    have hmiddle : middle < high := by omega
    omega
  | case2 low high hlt middle b hb hless ih =>
    have hmiddle : low ≤ middle := by omega
    rw [ih hhigh]
    constructor
    · rintro ⟨hlow, hi, ha⟩
      exact ⟨by omega, hi, ha⟩
    · rintro ⟨hlow, hi, a, ha, rfl⟩
      refine ⟨?_, hi, a, ha, rfl⟩
      -- up to the middle the keys are too small
      by_contra hle
      rcases Nat.lt_or_eq_of_le (show i ≤ middle by omega) with h | rfl
      · exact lt_asymm (key_lt_of_lt hl h ha hb) hless
      · rw [ha] at hb
        cases hb
        exact lt_irrefl _ hless
  | case3 low high hlt middle b hb hless hgreater ih =>
    have hmiddle : middle < high := by omega
    rw [ih (by omega)]
    constructor
    · rintro ⟨hlow, hi, ha⟩
      exact ⟨hlow, by omega, ha⟩
    · rintro ⟨hlow, hi, a, ha, rfl⟩
      refine ⟨hlow, ?_, a, ha, rfl⟩
      -- from the middle on they are too great
      by_contra hle
      rcases Nat.lt_or_eq_of_le (show middle ≤ i by omega) with h | rfl
      · exact lt_asymm (key_lt_of_lt hl h hb ha) hgreater
      · rw [ha] at hb
        cases hb
        exact lt_irrefl _ hgreater
  | case4 low high hlt middle b hb hless hgreater =>
    have hkey : key b = k := le_antisymm (not_lt.mp hgreater) (not_lt.mp hless)
    constructor
    · intro h
      obtain rfl : i = middle := (Option.some.inj h).symm
      exact ⟨by omega, by omega, b, hb, hkey⟩
    · rintro ⟨-, -, a, ha, rfl⟩
      -- elsewhere the keys differ
      rcases Nat.lt_trichotomy middle i with h | rfl | h
      · exact absurd hkey (key_lt_of_lt hl h hb ha).ne
      · rfl
      · exact absurd hkey (key_lt_of_lt hl h ha hb).ne'
  | case5 low high hlt =>
    constructor
    · intro h
      cases h
    · rintro ⟨hlow, hi, -⟩
      omega

/-- **Halving finds the place of a key.** -/
theorem search_eq_some_iff (hl : l.Pairwise fun a b => key a < key b) {k : κ} {i : Nat} :
    search key k l = some i ↔ ∃ a, l[i]? = some a ∧ key a = k := by
  rw [search, searchFrom_eq_some_iff hl le_rfl]
  constructor
  · exact fun h => h.2.2
  · rintro ⟨a, ha, hk⟩
    exact ⟨Nat.zero_le i, (List.getElem?_eq_some_iff.mp ha).1, a, ha, hk⟩

/-- A key has one place. -/
theorem place_unique (hl : l.Pairwise fun a b => key a < key b) {i j : Nat} (ha : l[i]? = some a)
    (hb : l[j]? = some b) (hkey : key a = key b) : i = j := by
  have hi := (search_eq_some_iff hl).mpr ⟨a, ha, hkey⟩
  have hj := (search_eq_some_iff hl).mpr ⟨b, hb, rfl⟩
  exact Option.some.inj (hi.symm.trans hj)

end Increasing

end LiteChat.Sorting
