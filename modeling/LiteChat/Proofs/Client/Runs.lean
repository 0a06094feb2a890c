import LiteChat.Proofs.Client.Chronicle

/-!
# Runs under a rule

Which actions may come in a run differs from one law to the next.  A law says it by a rule,
which allows an action in a state or not, and is about the runs that follow the rule
(`Engine.Follows`).  What happens in a run is read off the states that it goes through, one
action after another (`Engine.readings`).
-/

namespace LiteChat

/-- What is listed under one key, in order. -/
def entriesOf {κ α : Type} [DecidableEq κ] (k : κ) (entries : List (κ × α)) : List α :=
  (entries.filter fun p => decide (p.1 = k)).map Prod.snd

section EntriesOf
variable {κ α : Type} [DecidableEq κ] {k : κ} {entries : List (κ × α)}

theorem entriesOf_append (k : κ) (entries later : List (κ × α)) :
    entriesOf k (entries ++ later) = entriesOf k entries ++ entriesOf k later := by
  rw [entriesOf, List.filter_append, List.map_append]
  rfl

theorem mem_entriesOf {a : α} : a ∈ entriesOf k entries ↔ (k, a) ∈ entries := by
  simp [entriesOf]

theorem entriesOf_self (k : κ) (as : List α) : entriesOf k (as.map fun a => (k, a)) = as := by
  simp [entriesOf, List.filter_map, Function.comp_def]

theorem entriesOf_of_ne {j : κ} (h : j ≠ k) (as : List α) :
    entriesOf k (as.map fun a => (j, a)) = [] := by
  simp [entriesOf, List.filter_map, Function.comp_def, h]

theorem entriesOf_filter_self (k : κ) (entries : List (κ × α)) :
    entriesOf k (entries.filter fun p => !decide (p.1 = k)) = [] := by
  rw [entriesOf, List.filter_filter, List.map_eq_nil_iff, List.filter_eq_nil_iff]
  simp

theorem entriesOf_filter_ne {j : κ} (h : k ≠ j) (entries : List (κ × α)) :
    entriesOf k (entries.filter fun p => !decide (p.1 = j)) = entriesOf k entries := by
  rw [entriesOf, List.filter_filter, entriesOf]
  congr 1
  refine List.filter_congr fun p _ => ?_
  by_cases hp : p.1 = k
  · simp [hp, h]
  · simp [hp]

/-- What is at most so often under each key is at most so often in all. -/
theorem countP_le_of_entriesOf {p q : α → Bool}
    (h : ∀ k, (entriesOf k entries).countP p ≤ (entriesOf k entries).countP q) :
    entries.countP (fun entry => p entry.2) ≤ entries.countP fun entry => q entry.2 := by
  induction hlength : entries.length using Nat.strongRecOn generalizing entries with
  | ind length ih =>
    cases hentries : entries with
    | nil => exact Nat.le_refl 0
    | cons first rest =>
      rw [← hentries]
      have hfirst : first ∈ entries := hentries ▸ List.mem_cons_self
      -- the entries under the first key, and the others, which are fewer
      have hunder : ∀ r : α → Bool,
          (entries.filter fun entry => decide (entry.1 = first.1)).countP (fun entry => r entry.2) =
            (entriesOf first.1 entries).countP r := by
        intro r
        rw [entriesOf, List.countP_map]
        rfl
      have hothers : ∀ k,
          (entriesOf k (entries.filter fun entry => !decide (entry.1 = first.1))).countP p ≤
            (entriesOf k (entries.filter fun entry => !decide (entry.1 = first.1))).countP q := by
        intro k
        by_cases hk : k = first.1
        · rw [hk, entriesOf_filter_self]
          exact Nat.le_refl 0
        · rw [entriesOf_filter_ne hk]
          exact h k
      have hfewer : (entries.filter fun entry => !decide (entry.1 = first.1)).length < length := by
        rw [← hlength]
        exact List.length_filter_lt_length_iff_exists.mpr ⟨first, hfirst, by simp⟩
      rw [List.countP_eq_countP_filter_add entries _ fun entry => decide (entry.1 = first.1),
        List.countP_eq_countP_filter_add entries (fun entry => q entry.2)
          fun entry => decide (entry.1 = first.1), hunder, hunder]
      exact Nat.add_le_add (h first.1) (ih _ hfewer hothers rfl)

end EntriesOf

namespace Engine

/-- The engines that runs lead to from one engine if every action is allowed in its turn. -/
inductive Follows (allowed : Engine → Action → Prop) (start : Engine) :
    List Action → Engine → Prop where
  | refl : Follows allowed start [] start
  | next {actions : List Action} {e : Engine} {a : Action}
    (h : Follows allowed start actions e) (ha : allowed e a) :
    Follows allowed start (actions ++ [a]) (e.step a)

/-- Whether every action of a run is allowed in its turn. -/
def allowsAll (allowed : Engine → Action → Prop) : Engine → List Action → Prop
  | _, [] => True
  | e, a :: rest => allowed e a ∧ (e.step a).allowsAll allowed rest

instance (allowed : Engine → Action → Prop) [∀ e a, Decidable (allowed e a)] :
    (e : Engine) → (actions : List Action) → Decidable (e.allowsAll allowed actions)
  | _, [] => .isTrue trivial
  | e, a :: rest =>
    have : Decidable ((e.step a).allowsAll allowed rest) := instDecidableAllowsAll allowed _ _
    inferInstanceAs (Decidable (allowed e a ∧ (e.step a).allowsAll allowed rest))

/-- What is read off the states of a run, one action after another. -/
def readings {α : Type} (read : Engine → Action → List α) : Engine → List Action → List α
  | _, [] => []
  | e, a :: rest => read e a ++ (e.step a).readings read rest

variable {allowed : Engine → Action → Prop} {start e : Engine} {actions : List Action}

theorem Follows.eq_run (h : start.Follows allowed actions e) : e = start.run actions := by
  induction h with
  | refl => rfl
  | next _ _ ih =>
    rw [run_append, ← ih]
    rfl

theorem Follows.cons {a : Action} (ha : allowed start a) {rest : List Action}
    (h : (start.step a).Follows allowed rest e) : start.Follows allowed (a :: rest) e := by
  induction h with
  | refl =>
    have hfirst : start.Follows allowed [a] (start.step a) := .next .refl ha
    exact hfirst
  | next _ ha' ih => exact ih.next ha'

theorem follows_run (h : e.allowsAll allowed actions) :
    e.Follows allowed actions (e.run actions) := by
  induction actions generalizing e with
  | nil => exact .refl
  | cons a rest ih => exact .cons h.1 (ih h.2)

section Readings
variable {α : Type} {read : Engine → Action → List α}

theorem readings_append (e : Engine) (actions actions' : List Action) :
    e.readings read (actions ++ actions') =
      e.readings read actions ++ (e.run actions).readings read actions' := by
  induction actions generalizing e with
  | nil => rfl
  | cons a rest ih =>
    rw [List.cons_append, readings, readings, ih, List.append_assoc]
    rfl

theorem Follows.readings_next (h : start.Follows allowed actions e) (a : Action) :
    start.readings read (actions ++ [a]) = start.readings read actions ++ read e a := by
  rw [readings_append, ← h.eq_run, readings, readings, List.append_nil]

end Readings

end Engine

end LiteChat
