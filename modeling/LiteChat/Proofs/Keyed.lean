import Mathlib.Data.List.Induction
import Mathlib.Data.List.Sort
import LiteChat.Keyed

/-!
# Laws of finite maps

`get?` finds what is listed (`get?_eq_some_iff`), provided that no key is listed twice,
and every map built by `insert` lists its keys in strictly increasing order
(`sorted_insert`).  Two maps in that order are equal as soon as they list the same pairs
(`Sorted.ext`), and pairs that come in that order are listed as they come
(`insert_of_forall_lt`).  Of a list of pairs that a map is made of, the last pair of a key is
found (`get?_ofList_eq_some_iff`), and of two lists the later one is asked first
(`get?_ofList_append`), so that it does not matter which is the later one if they have no
key in common (`ofList_append_comm`).
-/

namespace LiteChat.Keyed

variable {κ α : Type}

section Lookup
variable [DecidableEq κ]

theorem mem_of_get?_eq_some {k : κ} {a : α} {m : List (κ × α)} (h : get? k m = some a) :
    (k, a) ∈ m := by
  induction m with
  | nil => cases h
  | cons p rest ih =>
    obtain ⟨j, b⟩ := p
    rw [get?_cons] at h
    split at h
    · rename_i hj
      rw [hj, Option.some.inj h]
      exact List.mem_cons_self ..
    · exact List.mem_cons_of_mem _ (ih h)

/-- An element is found by its key if no other has the key. -/
theorem find?_eq_some_iff {key : α → κ} {l : List α} (h : (l.map key).Nodup) {k : κ} {a : α} :
    (l.find? fun b => decide (key b = k)) = some a ↔ a ∈ l ∧ key a = k := by
  constructor
  · intro hfound
    exact ⟨List.mem_of_find?_eq_some hfound, by simpa using List.find?_some hfound⟩
  · rintro ⟨ha, rfl⟩
    cases hfound : l.find? fun b => decide (key b = key a) with
    | none => simpa using List.find?_eq_none.mp hfound a ha
    | some b =>
      have hb : key b = key a := by simpa using List.find?_some hfound
      rw [List.inj_on_of_nodup_map h (List.mem_of_find?_eq_some hfound) ha hb]

theorem mem_of_mem_insert [LT κ] [DecidableLT κ] {k : κ} {a : α} {p : κ × α}
    {m : List (κ × α)} (h : p ∈ insert k a m) : p = (k, a) ∨ p ∈ m := by
  induction m with
  | nil => exact Or.inl (List.mem_singleton.mp h)
  | cons q rest ih =>
    obtain ⟨j, b⟩ := q
    rw [insert_cons] at h
    split at h
    · exact List.mem_cons.mp h
    · split at h
      · rcases List.mem_cons.mp h with h | h
        · exact Or.inl h
        · exact Or.inr (List.mem_cons_of_mem _ h)
      · rcases List.mem_cons.mp h with h | h
        · exact Or.inr (h ▸ List.mem_cons_self ..)
        · exact (ih h).imp_right (List.mem_cons_of_mem _)

theorem mem_of_mem_ofList [LT κ] [DecidableLT κ] {p : κ × α} {pairs : List (κ × α)}
    (h : p ∈ ofList pairs) : p ∈ pairs := by
  have key : ∀ (pairs m : List (κ × α)),
      p ∈ pairs.foldl (fun m p => insert p.1 p.2 m) m → p ∈ m ∨ p ∈ pairs := by
    intro pairs
    induction pairs with
    | nil => exact fun m h => Or.inl h
    | cons q rest ih =>
      intro m h
      rcases ih _ h with h | h
      · rcases mem_of_mem_insert h with h | h
        · exact Or.inr (h ▸ List.mem_cons_self ..)
        · exact Or.inl h
      · exact Or.inr (List.mem_cons_of_mem _ h)
  exact (key pairs [] h).resolve_left (List.not_mem_nil)

theorem exists_mem_of_get?_ofList [LT κ] [DecidableLT κ] {k : κ} {pairs : List (κ × α)}
    (h : get? k (ofList pairs) ≠ none) : ∃ p ∈ pairs, p.1 = k := by
  obtain ⟨a, ha⟩ := Option.ne_none_iff_exists'.mp h
  exact ⟨(k, a), mem_of_mem_ofList (mem_of_get?_eq_some ha), rfl⟩

theorem ofList_concat [LT κ] [DecidableLT κ] (pairs : List (κ × α)) (k : κ) (a : α) :
    ofList (pairs ++ [(k, a)]) = insert k a (ofList pairs) := by
  simp [ofList]

/-- A key is looked up among the later pairs first. -/
theorem get?_ofList_append [LT κ] [DecidableLT κ] (k : κ) (front back : List (κ × α)) :
    get? k (ofList (front ++ back)) = (get? k (ofList back)).or (get? k (ofList front)) := by
  induction back using List.reverseRecOn with
  | nil => rw [List.append_nil]; rfl
  | append_singleton back p ih =>
    obtain ⟨j, a⟩ := p
    rw [← List.append_assoc, ofList_concat, ofList_concat]
    by_cases hj : k = j
    · subst hj
      rw [get?_insert_self, get?_insert_self]
      rfl
    · rw [get?_insert_of_ne hj, get?_insert_of_ne hj, ih]

/-- A pair is found if no other has its key. -/
theorem get?_ofList_of_mem [LT κ] [DecidableLT κ] {k : κ} {a : α} {pairs : List (κ × α)}
    (hkeys : (pairs.map Prod.fst).Nodup) (h : (k, a) ∈ pairs) :
    get? k (ofList pairs) = some a := by
  obtain ⟨front, back, rfl⟩ := List.append_of_mem h
  have hback : get? k (ofList back) = none := by
    by_contra hne
    obtain ⟨p, hp, rfl⟩ := exists_mem_of_get?_ofList hne
    rw [List.map_append, List.map_cons] at hkeys
    have hk := (List.nodup_cons.mp hkeys.of_append_right).1
    exact hk (List.mem_map.mpr ⟨p, hp, rfl⟩)
  rw [List.append_cons, get?_ofList_append, hback, Option.none_or, ofList_concat,
    get?_insert_self]

/-- In a list, an element is the last one of a key. -/
def LastOf (key : α → κ) (k : κ) (l : List α) (a : α) : Prop :=
  ∃ front back, l = front ++ a :: back ∧ key a = k ∧ ∀ b ∈ back, key b ≠ k

theorem lastOf_concat_iff {key : α → κ} {k : κ} {l : List α} {a last : α} :
    LastOf key k (l ++ [last]) a ↔ if key last = k then a = last else LastOf key k l a := by
  constructor
  · rintro ⟨front, back, hsplit, ha, hback⟩
    rcases List.eq_nil_or_concat' back with rfl | ⟨back, b, rfl⟩
    · obtain ⟨rfl, rfl⟩ := List.append_singleton_inj.mp hsplit
      rw [if_pos ha]
    · rw [← List.cons_append, ← List.append_assoc] at hsplit
      obtain ⟨rfl, rfl⟩ := List.append_singleton_inj.mp hsplit
      rw [if_neg (hback last (by simp))]
      exact ⟨front, back, rfl, ha, fun b hb => hback b (List.mem_append_left _ hb)⟩
  · by_cases hlast : key last = k
    · rw [if_pos hlast]
      rintro rfl
      exact ⟨l, [], rfl, hlast, fun b hb => absurd hb List.not_mem_nil⟩
    · rw [if_neg hlast]
      rintro ⟨front, back, rfl, ha, hback⟩
      refine ⟨front, back ++ [last], by simp, ha, fun b hb => ?_⟩
      rcases List.mem_append.mp hb with hb | hb
      · exact hback b hb
      · rwa [List.mem_singleton.mp hb]

/-- Of elements that are listed by a key, the last one of a key is found. -/
theorem get?_ofList_eq_some_iff [LT κ] [DecidableLT κ] {key : α → κ} {k : κ} {l : List α}
    {a : α} : get? k (ofList (l.map fun a => (key a, a))) = some a ↔ LastOf key k l a := by
  induction l using List.reverseRecOn with
  | nil =>
    constructor
    · intro h
      cases h
    · rintro ⟨front, back, h, -⟩
      simp at h
  | append_singleton l last ih =>
    rw [List.map_append, List.map_singleton, ofList_concat, lastOf_concat_iff]
    by_cases hk : key last = k
    · subst hk
      rw [get?_insert_self, if_pos rfl, Option.some_inj, eq_comm]
    · rw [get?_insert_of_ne (Ne.symm hk), if_neg hk, ih]

/-- A map of pairs of which every value is changed. -/
theorem get?_ofList_map [LT κ] [DecidableLT κ] {β : Type} (f : α → β) (k : κ)
    (pairs : List (κ × α)) :
    get? k (ofList (pairs.map fun p => (p.1, f p.2))) = (get? k (ofList pairs)).map f := by
  induction pairs using List.reverseRecOn with
  | nil => rfl
  | append_singleton pairs p ih =>
    obtain ⟨j, a⟩ := p
    rw [List.map_append, List.map_singleton, ofList_concat, ofList_concat]
    by_cases hj : k = j
    · subst hj
      rw [get?_insert_self, get?_insert_self]
      rfl
    · rw [get?_insert_of_ne hj, get?_insert_of_ne hj, ih]

/-- A map of which every value is changed. -/
theorem get?_map {β : Type} (f : α → β) (k : κ) (m : List (κ × α)) :
    get? k (m.map fun p => (p.1, f p.2)) = (get? k m).map f := by
  induction m with
  | nil => rfl
  | cons p rest ih =>
    obtain ⟨j, a⟩ := p
    rw [List.map_cons, get?_cons, get?_cons, ih]
    split <;> rfl

end Lookup

section Order
variable [LinearOrder κ]

theorem get?_eq_some_iff {k : κ} {a : α} {m : List (κ × α)} (hm : Sorted m) :
    get? k m = some a ↔ (k, a) ∈ m := by
  refine ⟨mem_of_get?_eq_some, fun h => ?_⟩
  induction m with
  | nil => cases h
  | cons p rest ih =>
    obtain ⟨j, b⟩ := p
    obtain ⟨hfirst, hrest⟩ := List.pairwise_cons.mp hm
    rcases List.mem_cons.mp h with h | h
    · cases h
      exact if_pos rfl
    · have hlt : j < k := hfirst _ h
      rw [get?_cons, if_neg hlt.ne]
      exact ih hrest h

theorem sorted_insert {m : List (κ × α)} (hm : Sorted m) (k : κ) (a : α) :
    Sorted (insert k a m) := by
  induction m with
  | nil => exact List.pairwise_singleton _ _
  | cons p rest ih =>
    obtain ⟨j, b⟩ := p
    obtain ⟨hfirst, hrest⟩ := List.pairwise_cons.mp hm
    rw [insert_cons]
    split
    · rename_i hk
      refine List.pairwise_cons.mpr ⟨fun q hq => ?_, hm⟩
      rcases List.mem_cons.mp hq with rfl | hq
      · exact hk
      · exact hk.trans (hfirst q hq)
    · rename_i hk
      split
      · rename_i hj
        exact List.pairwise_cons.mpr ⟨fun q hq => hj ▸ hfirst q hq, hrest⟩
      · rename_i hj
        refine List.pairwise_cons.mpr ⟨fun q hq => ?_, ih hrest⟩
        rcases mem_of_mem_insert hq with rfl | hq
        · exact lt_of_le_of_ne (not_lt.mp hk) hj
        · exact hfirst q hq

/-- A pair that comes after all others is listed after all others. -/
theorem insert_of_forall_lt {m : List (κ × α)} {k : κ} (h : ∀ p ∈ m, p.1 < k) (a : α) :
    insert k a m = m ++ [(k, a)] := by
  induction m with
  | nil => rfl
  | cons p rest ih =>
    obtain ⟨j, b⟩ := p
    have hj : j < k := h _ (List.mem_cons_self ..)
    rw [insert_cons, if_neg hj.le.not_gt, if_neg hj.ne,
      ih fun q hq => h q (List.mem_cons_of_mem _ hq)]
    rfl

theorem sorted_ofList (pairs : List (κ × α)) : Sorted (ofList pairs) := by
  have key : ∀ (pairs m : List (κ × α)), Sorted m →
      Sorted (pairs.foldl (fun m p => insert p.1 p.2 m) m) := by
    intro pairs
    induction pairs with
    | nil => exact fun m hm => hm
    | cons p rest ih => exact fun m hm => ih _ (sorted_insert hm p.1 p.2)
  exact key pairs [] .nil

/-- Pairs in strictly increasing order of their keys make up a map as they are. -/
theorem ofList_of_sorted {pairs : List (κ × α)} (h : Sorted pairs) : ofList pairs = pairs := by
  have key : ∀ pairs m : List (κ × α), Sorted (m ++ pairs) →
      pairs.foldl (fun m p => insert p.1 p.2 m) m = m ++ pairs := by
    intro pairs
    induction pairs with
    | nil => exact fun m _ => (List.append_nil m).symm
    | cons p rest ih =>
      intro m hm
      have hlast : ∀ q ∈ m, q.1 < p.1 := fun q hq =>
        (List.pairwise_append.mp hm).2.2 q hq p (List.mem_cons_self ..)
      have hshift : m ++ p :: rest = (m ++ [p]) ++ rest := by simp
      rw [List.foldl_cons, insert_of_forall_lt hlast, ih _ (hshift ▸ hm), hshift]
  exact key pairs [] h

/-- Two maps that list the same pairs are equal. -/
theorem Sorted.ext {m n : List (κ × α)} (hm : Sorted m) (hn : Sorted n)
    (h : ∀ p, p ∈ m ↔ p ∈ n) : m = n := by
  have : Std.Irrefl fun p q : κ × α => p.1 < q.1 := ⟨fun p => lt_irrefl p.1⟩
  have : Std.Asymm fun p q : κ × α => p.1 < q.1 := ⟨fun _ _ => lt_asymm⟩
  exact List.Pairwise.eq_of_mem_iff hm hn h

/-- Two maps in which every key has the same value are equal. -/
theorem Sorted.ext_get? {m n : List (κ × α)} (hm : Sorted m) (hn : Sorted n)
    (h : ∀ k, get? k m = get? k n) : m = n := by
  refine hm.ext hn fun p => ?_
  rw [← get?_eq_some_iff hm, ← get?_eq_some_iff hn, h]

/-- Lists of pairs that have no key in common may change places. -/
theorem ofList_append_comm {front back : List (κ × α)}
    (h : ∀ p ∈ front, ∀ q ∈ back, p.1 ≠ q.1) : ofList (front ++ back) = ofList (back ++ front) := by
  refine (sorted_ofList _).ext_get? (sorted_ofList _) fun k => ?_
  rw [get?_ofList_append, get?_ofList_append]
  by_cases hfront : get? k (ofList front) = none
  · rw [hfront, Option.or_none, Option.none_or]
  · have hback : get? k (ofList back) = none := by
      by_contra hback
      obtain ⟨p, hp, hpk⟩ := exists_mem_of_get?_ofList hfront
      obtain ⟨q, hq, hqk⟩ := exists_mem_of_get?_ofList hback
      exact h p hp q hq (hpk.trans hqk.symm)
    rw [hback, Option.or_none, Option.none_or]

/-- The map lists the new pair, and the old ones of other keys. -/
theorem mem_insert_iff {m : List (κ × α)} (hm : Sorted m) {k j : κ} {a b : α} :
    (j, b) ∈ insert k a m ↔ (j = k ∧ b = a) ∨ (j ≠ k ∧ (j, b) ∈ m) := by
  rw [← get?_eq_some_iff (sorted_insert hm k a)]
  by_cases hj : j = k
  · subst hj
    rw [get?_insert_self]
    simp [eq_comm]
  · rw [get?_insert_of_ne hj, get?_eq_some_iff hm]
    simp [hj]

theorem mem_erase_iff {m : List (κ × α)} {k j : κ} {b : α} :
    (j, b) ∈ erase k m ↔ j ≠ k ∧ (j, b) ∈ m := by
  simp [erase, and_comm]

theorem sorted_erase {m : List (κ × α)} (hm : Sorted m) (k : κ) : Sorted (erase k m) :=
  hm.filter _

end Order

end LiteChat.Keyed
