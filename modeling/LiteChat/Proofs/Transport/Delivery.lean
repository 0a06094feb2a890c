import Mathlib.Data.List.Induction
import Mathlib.Data.List.Nodup
import Mathlib.Order.Nat
import LiteChat.Transport.Feed

/-!
# What a feed delivers

Events are pushed to a feed, somebody listens to it or closes it, and its receivers take events or
are dropped, in any order (`Feed.Action`).  What a receiver is *given* in a run is read off the
states of the run: the events that it takes, those that it is left with when it is dropped, and
those that it still holds in the end (`Feed.given`).

An action gives events to one receiver at most: a push to the current one, a listen to the new one
(`Feed.gives`).  Whatever else happens to a receiver, the events that it has been given stay the
same (`Feed.leaves_append_contents`).  So the receivers together are given every pushed event once
and in the order of the pushes, but for those that wait with the feed (`Feed.delivers`).
-/

namespace LiteChat

namespace Feed

variable {ε : Type}

/-! ## Runs -/

/-- What can happen to a feed. -/
inductive Action (ε : Type) where
  /-- An event is pushed. -/
  | push (event : ε)
  /-- Somebody listens. -/
  | listen
  /-- The feed is closed. -/
  | close
  /-- A receiver takes its first event, if it holds one. -/
  | take (r : Nat)
  /-- A receiver is dropped. -/
  | drop (r : Nat)

/-- The feed after an action. -/
def step (f : Feed ε) : Action ε → Feed ε
  | .push event => f.push event
  | .listen => f.listen
  | .close => f.close
  | .take r => f.take r
  | .drop r => f.drop r

/-- The feed after a run of actions. -/
def run (f : Feed ε) (actions : List (Action ε)) : Feed ε := actions.foldl step f

/-- The event that an action pushes. -/
def Action.events : Action ε → List ε
  | .push event => [event]
  | _ => []

/-- The events that are pushed in a run. -/
def pushed (actions : List (Action ε)) : List ε := actions.flatMap Action.events

/-- The receiver that an action opens. -/
def opens (f : Feed ε) : Action ε → List Nat
  | .listen => [f.next]
  | _ => []

/-- The receivers that are opened in a run, in the order in which they are. -/
def opened (f : Feed ε) : List (Action ε) → List Nat
  | [] => []
  | a :: rest => f.opens a ++ (f.step a).opened rest

/-- The events that a receiver holds; one that is gone holds none. -/
def contents (f : Feed ε) (r : Nat) : List ε := (f.held? r).getD []

/-- The events that a receiver takes in an action, or is left with when it is dropped. -/
def leaves (f : Feed ε) (r : Nat) : Action ε → List ε
  | .take q => if q = r then (f.first? r).toList else []
  | .drop q => if q = r then f.contents r else []
  | _ => []

/-- The events that a receiver is given in a run, with those that it held before. -/
def given (f : Feed ε) (r : Nat) : List (Action ε) → List ε
  | [] => f.contents r
  | a :: rest => f.leaves r a ++ (f.step a).given r rest

/-- The events that an action gives to a receiver. -/
def gives (f : Feed ε) (r : Nat) : Action ε → List ε
  | .push event => if f.taker? = some r then [event] else []
  | .listen => if r = f.next then f.pending else []
  | _ => []

theorem run_append (f : Feed ε) (actions actions' : List (Action ε)) :
    f.run (actions ++ actions') = (f.run actions).run actions' :=
  List.foldl_append

theorem run_snoc (f : Feed ε) (actions : List (Action ε)) (a : Action ε) :
    f.run (actions ++ [a]) = (f.run actions).step a :=
  f.run_append actions [a]

theorem pushed_append (actions actions' : List (Action ε)) :
    pushed (actions ++ actions') = pushed actions ++ pushed actions' :=
  List.flatMap_append

theorem pushed_snoc (actions : List (Action ε)) (a : Action ε) :
    pushed (actions ++ [a]) = pushed actions ++ a.events := by
  rw [pushed_append]
  simp [pushed]

theorem opened_snoc (f : Feed ε) (actions : List (Action ε)) (a : Action ε) :
    f.opened (actions ++ [a]) = f.opened actions ++ (f.run actions).opens a := by
  induction actions generalizing f with
  | nil => simp [opened, run]
  | cons b rest ih =>
    rw [List.cons_append, opened, opened, ih, List.append_assoc]
    rfl

/-! ## One action -/

section Step
variable {f : Feed ε} {r : Nat}

theorem taker?_eq_some_iff : f.taker? = some r ↔ f.current = some r ∧ f.held? r ≠ none := by
  rw [taker?, Option.filter_eq_some_iff, Option.isSome_iff_ne_none]

theorem push_of_taker {q : Nat} (h : f.taker? = some q) (event : ε) :
    f.push event = { f with receivers := Keyed.modify q (· ++ [event]) f.receivers } := by
  rw [push, h]

theorem push_of_none (h : f.taker? = none) (event : ε) :
    f.push event = { f with pending := f.pending ++ [event] } := by
  rw [push, h]

theorem held?_modify (q : Nat) (g : List ε → List ε) :
    Keyed.get? r (Keyed.modify q g f.receivers) =
      if r = q then (f.held? r).map g else f.held? r := by
  by_cases hr : r = q
  · subst hr
    rw [if_pos rfl, Keyed.get?_modify_self]
    rfl
  · rw [if_neg hr, Keyed.get?_modify_of_ne hr]
    rfl

theorem held?_listen : f.listen.held? r = if r = f.next then some f.pending else f.held? r := by
  by_cases hr : r = f.next
  · subst hr
    rw [if_pos rfl]
    exact Keyed.get?_insert_self ..
  · rw [if_neg hr]
    exact Keyed.get?_insert_of_ne hr ..

theorem held?_drop (q : Nat) : (f.drop q).held? r = if r = q then none else f.held? r := by
  by_cases hr : r = q
  · subst hr
    rw [if_pos rfl]
    exact Keyed.get?_erase_self ..
  · rw [if_neg hr]
    exact Keyed.get?_erase_of_ne hr ..

/-- A feed keeps order: its current receiver is the one that was opened last, and no event waits
that the current receiver could be given. -/
structure InOrder (f : Feed ε) : Prop where
  lt_next : ∀ r, f.held? r ≠ none → r < f.next
  last : ∀ r, f.current = some r → r + 1 = f.next
  pending_eq : f.taker? ≠ none → f.pending = []

theorem InOrder.lt_of_taker (h : f.InOrder) (hr : f.taker? = some r) : r + 1 = f.next :=
  h.last r (taker?_eq_some_iff.mp hr).1

theorem InOrder.contents_eq_nil (h : f.InOrder) (hr : f.next ≤ r) : f.contents r = [] := by
  have hnone : f.held? r = none := by
    by_contra hheld
    have hlt := h.lt_next r hheld
    omega
  rw [contents, hnone]
  rfl

theorem inOrder_empty : InOrder ({} : Feed ε) where
  lt_next := fun r h => absurd rfl h
  last := fun r h => absurd h (by simp)
  pending_eq := fun _ => rfl

/-- An action opens one receiver at most, and closes none for it. -/
theorem next_step (f : Feed ε) (a : Action ε) : (f.step a).next = f.next + (f.opens a).length := by
  cases a with
  | push event =>
    show (f.push event).next = f.next
    unfold push
    split <;> rfl
  | _ => rfl

theorem next_le_next_run (f : Feed ε) (actions : List (Action ε)) :
    f.next ≤ (f.run actions).next := by
  induction actions generalizing f with
  | nil => exact Nat.le_refl _
  | cons a rest ih =>
    have hstep := next_step f a
    have hrest : (f.step a).next ≤ ((f.step a).run rest).next := ih (f.step a)
    show f.next ≤ ((f.step a).run rest).next
    omega

/-- A receiver that is there after an action was there before, or is the new one. -/
theorem held?_of_step {a : Action ε} (h : (f.step a).held? r ≠ none) :
    f.held? r ≠ none ∨ f.opens a = [r] := by
  cases a with
  | push event =>
    left
    cases htaker : f.taker? with
    | none =>
      rw [step, push_of_none htaker] at h
      exact h
    | some q =>
      rw [step, push_of_taker htaker, held?, held?_modify] at h
      intro hnone
      rw [hnone, Option.map_none, ite_self] at h
      exact h rfl
  | listen =>
    rw [step, held?_listen] at h
    by_cases hr : r = f.next
    · right
      rw [hr, opens]
    · left
      rwa [if_neg hr] at h
  | close => exact Or.inl h
  | take q =>
    left
    rw [step, take, held?, held?_modify] at h
    intro hnone
    rw [hnone, Option.map_none, ite_self] at h
    exact h rfl
  | drop q =>
    left
    rw [step, held?_drop] at h
    intro hnone
    rw [hnone, ite_self] at h
    exact h rfl

/-- The current receiver after an action was current before, or is the new one. -/
theorem current_of_step {a : Action ε} (h : (f.step a).current = some r) :
    f.current = some r ∨ f.opens a = [r] := by
  cases a with
  | push event =>
    left
    rw [step, push] at h
    split at h <;> exact h
  | listen =>
    right
    rw [opens, Option.some.inj h]
  | close => cases h
  | take q => exact Or.inl h
  | drop q => exact Or.inl h

/-- Who is given pushed events after an action was before, or is the new receiver. -/
theorem taker?_of_step {a : Action ε} (h : (f.step a).taker? = some r) :
    f.taker? = some r ∨ f.opens a = [r] := by
  obtain ⟨hcurrent, hheld⟩ := taker?_eq_some_iff.mp h
  rcases current_of_step hcurrent with hcurrent | hopens
  · rcases held?_of_step hheld with hheld | hopens
    · exact Or.inl (taker?_eq_some_iff.mpr ⟨hcurrent, hheld⟩)
    · exact Or.inr hopens
  · exact Or.inr hopens

/-- What waits after an action. -/
theorem pending_step (f : Feed ε) (a : Action ε) :
    (f.step a).pending =
      match a with
      | .push event => if f.taker? = none then f.pending ++ [event] else f.pending
      | .listen => []
      | _ => f.pending := by
  cases a with
  | push event =>
    cases htaker : f.taker? with
    | none =>
      rw [step, push_of_none htaker]
      exact (if_pos rfl).symm
    | some q =>
      rw [step, push_of_taker htaker]
      exact (if_neg (by simp)).symm
  | _ => rfl

theorem InOrder.step (h : f.InOrder) (a : Action ε) : (f.step a).InOrder := by
  have hopens : ∀ r, f.opens a = [r] → r = f.next ∧ (f.step a).next = f.next + 1 := by
    intro r hr
    refine ⟨?_, by rw [next_step, hr]; rfl⟩
    cases a <;> cases hr
    rfl
  have hnext := next_step f a
  refine ⟨fun r hr => ?_, fun r hr => ?_, fun htaker => ?_⟩
  · rcases held?_of_step hr with hr | hr
    · have hlt := h.lt_next r hr
      omega
    · have hnew := hopens r hr
      omega
  · rcases current_of_step hr with hr' | hr'
    · cases a with
      | listen =>
        -- the current receiver after a listen is the new one
        cases hr
        rfl
      | _ =>
        have hlast := h.last r hr'
        rw [hnext]
        exact hlast
    · have hnew := hopens r hr'
      omega
  · obtain ⟨r, hr⟩ := Option.ne_none_iff_exists'.mp htaker
    rw [pending_step]
    cases a with
    | listen => rfl
    | push event =>
      have hbefore : f.taker? = some r := (taker?_of_step hr).resolve_right (by simp [opens])
      have hne : f.taker? ≠ none := by simp [hbefore]
      show (if f.taker? = none then f.pending ++ [event] else f.pending) = []
      rw [if_neg hne, h.pending_eq hne]
    | _ =>
      have hbefore : f.taker? = some r := (taker?_of_step hr).resolve_right (by simp [opens])
      exact h.pending_eq (by simp [hbefore])

/-- **What one action does to a receiver.**  The events that the receiver parts with in the action
and those that it holds afterwards are those that it held before and those that the action gives
to it. -/
theorem InOrder.leaves_append_contents (h : f.InOrder) (r : Nat) (a : Action ε) :
    f.leaves r a ++ (f.step a).contents r = f.contents r ++ f.gives r a := by
  cases a with
  | push event =>
    show (f.push event).contents r =
      f.contents r ++ if f.taker? = some r then [event] else []
    cases htaker : f.taker? with
    | none =>
      rw [push_of_none htaker, if_neg (by simp), List.append_nil]
      rfl
    | some q =>
      rw [push_of_taker htaker, contents, held?, held?_modify, contents]
      by_cases hr : r = q
      · subst hr
        obtain ⟨events, hevents⟩ :=
          Option.ne_none_iff_exists'.mp (taker?_eq_some_iff.mp htaker).2
        simp [hevents]
      · rw [if_neg hr, if_neg (fun he => hr (Option.some.inj he).symm), List.append_nil]
  | listen =>
    show (f.listen.held? r).getD [] = f.contents r ++ if r = f.next then f.pending else []
    rw [held?_listen]
    by_cases hr : r = f.next
    · rw [if_pos hr, if_pos hr, h.contents_eq_nil (Nat.le_of_eq hr.symm)]
      rfl
    · rw [if_neg hr, if_neg hr, List.append_nil]
      rfl
  | close =>
    show [] ++ f.contents r = f.contents r ++ []
    rw [List.nil_append, List.append_nil]
  | take q =>
    show (if q = r then (f.first? r).toList else []) ++
      (Keyed.get? r (Keyed.modify q List.tail f.receivers)).getD [] = f.contents r ++ []
    rw [held?_modify, List.append_nil]
    by_cases hr : r = q
    · subst hr
      rw [if_pos rfl, if_pos rfl, first?, contents]
      cases f.held? r with
      | none => rfl
      | some events => cases events <;> rfl
    · rw [if_neg hr, if_neg (Ne.symm hr)]
      rfl
  | drop q =>
    show (if q = r then f.contents r else []) ++ ((f.drop q).held? r).getD [] =
      f.contents r ++ []
    rw [held?_drop]
    by_cases hr : r = q
    · subst hr
      rw [if_pos rfl, if_pos rfl]
      rfl
    · rw [if_neg hr, if_neg (Ne.symm hr), List.append_nil]
      rfl

/-- A receiver that has not been opened yet is not given anything. -/
theorem InOrder.gives_eq_nil (h : f.InOrder) {a : Action ε} (hr : (f.step a).next ≤ r) :
    f.gives r a = [] := by
  have hnext := next_step f a
  cases a with
  | push event =>
    refine if_neg fun htaker => ?_
    have hlast := h.lt_of_taker htaker
    omega
  | listen =>
    have hone : (f.opens (.listen : Action ε)).length = 1 := rfl
    exact if_neg (by omega)
  | _ => rfl

/-- What an action gives to a receiver that has been opened is what it pushes, if the receiver is
the one to take it. -/
theorem gives_of_lt (hr : r < f.next) (a : Action ε) :
    f.gives r a = if f.taker? = some r then a.events else [] := by
  cases a with
  | push event => rfl
  | listen =>
    rw [gives, if_neg hr.ne]
    exact (ite_self _).symm
  | _ => exact (ite_self _).symm

/-- **What one action does to all receivers.**  Let the receivers have been given some events, and
the next one none.  After the action they have been given these and the events that waited, as far
as no event waits any longer, and then what the action pushes. -/
theorem InOrder.flatMap_gives (h : f.InOrder) (before : Nat → List ε) (hnew : before f.next = [])
    (a : Action ε) :
    (List.range (f.step a).next).flatMap (fun r => before r ++ f.gives r a) ++
        (f.step a).pending =
      (List.range f.next).flatMap before ++ f.pending ++ a.events := by
  have hsame : ∀ n, (∀ r < n, f.gives r a = []) →
      (List.range n).flatMap (fun r => before r ++ f.gives r a) =
        (List.range n).flatMap before := by
    intro n hn
    refine List.flatMap_congr fun r hr => ?_
    rw [hn r (List.mem_range.mp hr), List.append_nil]
  rw [pending_step, next_step]
  cases a with
  | push event =>
    show (List.range f.next).flatMap (fun r => before r ++ f.gives r (.push event)) ++
      (if f.taker? = none then f.pending ++ [event] else f.pending) = _
    cases htaker : f.taker? with
    | none =>
      rw [if_pos rfl, hsame f.next fun r _ => by rw [gives, htaker, if_neg (by simp)],
        List.append_assoc]
      rfl
    | some q =>
      -- the last receiver is given the event, and none of those before it
      have hlast := h.lt_of_taker htaker
      have hnone : ∀ r < q, f.gives r (.push event) = [] := by
        intro r hr
        rw [gives, htaker, if_neg (by simpa using hr.ne')]
      have hself : f.gives q (.push event) = [event] := by
        rw [gives, htaker, if_pos rfl]
      rw [if_neg (by simp), h.pending_eq (by simp [htaker]), ← hlast, List.range_succ,
        List.flatMap_append, List.flatMap_append, hsame q hnone, List.flatMap_singleton,
        List.flatMap_singleton, hself]
      simp [Action.events]
  | listen =>
    show (List.range (f.next + 1)).flatMap (fun r => before r ++ f.gives r .listen) ++ [] = _
    have hnone : ∀ r < f.next, f.gives r (.listen : Action ε) = [] := fun r hr => if_neg hr.ne
    have hself : f.gives f.next (.listen : Action ε) = f.pending := if_pos rfl
    rw [List.range_succ, List.flatMap_append, hsame f.next hnone, List.flatMap_singleton, hself,
      hnew]
    simp [Action.events]
  | _ =>
    show (List.range f.next).flatMap _ ++ f.pending = _
    rw [hsame f.next fun r _ => rfl]
    exact (List.append_nil _).symm

end Step

/-! ## A run -/

section Run
variable {f : Feed ε} {r : Nat} {actions : List (Action ε)}

theorem InOrder.run (h : f.InOrder) (actions : List (Action ε)) : (f.run actions).InOrder := by
  induction actions generalizing f with
  | nil => exact h
  | cons a rest ih => exact ih (h.step a)

theorem inOrder_run (actions : List (Action ε)) : (run {} actions).InOrder :=
  inOrder_empty.run actions

/-- What a receiver has been given grows by what the last action gives to it. -/
theorem InOrder.given_snoc (h : f.InOrder) (r : Nat) (actions : List (Action ε)) (a : Action ε) :
    f.given r (actions ++ [a]) = f.given r actions ++ (f.run actions).gives r a := by
  induction actions generalizing f with
  | nil => exact h.leaves_append_contents r a
  | cons b rest ih =>
    rw [List.cons_append, given, given, ih (h.step b), List.append_assoc]
    rfl

/-- A receiver that has not been opened has not been given anything. -/
theorem given_eq_nil (hr : (run {} actions).next ≤ r) :
    given ({} : Feed ε) r actions = [] := by
  induction actions using List.reverseRecOn with
  | nil => rfl
  | append_singleton actions a ih =>
    rw [run_snoc] at hr
    have hle : (run {} actions).next ≤ r := by
      rw [next_step] at hr
      omega
    rw [inOrder_empty.given_snoc, ih hle, (inOrder_run actions).gives_eq_nil hr]
    rfl

/-- The receivers are numbered in the order in which they are opened. -/
theorem opened_eq_range (actions : List (Action ε)) :
    opened {} actions = List.range (run {} actions).next := by
  induction actions using List.reverseRecOn with
  | nil => rfl
  | append_singleton actions a ih =>
    rw [opened_snoc, run_snoc, next_step, ih]
    cases a with
    | listen => exact List.range_succ.symm
    | _ => exact List.append_nil _

/-- The receivers together have been given what was pushed, but for what waits. -/
theorem flatMap_given (actions : List (Action ε)) :
    (opened {} actions).flatMap (given {} · actions) ++ (run {} actions).pending =
      pushed actions := by
  rw [opened_eq_range]
  induction actions using List.reverseRecOn with
  | nil => rfl
  | append_singleton actions a ih =>
    have hgiven : (given ({} : Feed ε) · (actions ++ [a])) =
        fun r => given {} r actions ++ (run {} actions).gives r a :=
      funext fun r => inOrder_empty.given_snoc r actions a
    rw [hgiven, run_snoc, (inOrder_run actions).flatMap_gives _ (given_eq_nil le_rfl), ih,
      pushed_snoc]

/-- While nobody listens to a feed without an open receiver, all that is pushed waits. -/
theorem waits_run (h : f.taker? = none) (hlisten : .listen ∉ actions) :
    (f.run actions).taker? = none ∧ (f.run actions).pending = f.pending ++ pushed actions := by
  induction actions generalizing f with
  | nil => exact ⟨h, (List.append_nil _).symm⟩
  | cons a rest ih =>
    obtain ⟨hne, hrest⟩ := not_or.mp (fun hmem => hlisten (List.mem_cons.mpr hmem))
    have htaker : (f.step a).taker? = none := by
      by_contra hsome
      obtain ⟨r, hr⟩ := Option.ne_none_iff_exists'.mp hsome
      rcases taker?_of_step hr with hr | hr
      · rw [h] at hr
        cases hr
      · cases a <;> first | exact hne rfl | cases hr
    have hpending : (f.step a).pending = f.pending ++ a.events := by
      rw [pending_step]
      cases a with
      | push event => exact if_pos h
      | listen => exact absurd rfl hne
      | _ => exact (List.append_nil _).symm
    obtain ⟨htaker', hpending'⟩ := ih htaker hrest
    refine ⟨htaker', ?_⟩
    show ((f.step a).run rest).pending = _
    rw [hpending', hpending, List.append_assoc]
    rfl

/-- Once it is open, a receiver is given what is pushed, up to some point.  It is the current one
up to that point, and never again after it. -/
theorem exists_given_append (hr : r < (run {} actions).next) (after : List (Action ε)) :
    ∃ later, given ({} : Feed ε) r (actions ++ after) = given {} r actions ++ later ∧
      later <+: pushed after ∧
      ((run {} (actions ++ after)).taker? = some r → later = pushed after) := by
  induction after using List.reverseRecOn with
  | nil => exact ⟨[], by simp, List.nil_prefix, fun _ => rfl⟩
  | append_singleton after a ih =>
    obtain ⟨later, hgiven, hprefix, htaking⟩ := ih
    have hlt : r < (run {} (actions ++ after)).next := by
      rw [run_append]
      exact Nat.lt_of_lt_of_le hr (next_le_next_run _ after)
    rw [← List.append_assoc, inOrder_empty.given_snoc, hgiven, run_snoc, pushed_snoc,
      gives_of_lt hlt]
    by_cases htaker : (run {} (actions ++ after)).taker? = some r
    · obtain rfl := htaking htaker
      refine ⟨pushed after ++ a.events, ?_, List.prefix_rfl, fun _ => rfl⟩
      rw [if_pos htaker, List.append_assoc]
    · refine ⟨later, ?_, hprefix.trans (List.prefix_append ..), fun hafter => ?_⟩
      · rw [if_neg htaker, List.append_nil]
      · rcases taker?_of_step hafter with hbefore | hopens
        · exact absurd hbefore htaker
        · cases a <;> cases hopens
          exact absurd hlt (lt_irrefl _)

/-- What waits is given to the receiver that is opened next, ahead of what is pushed later. -/
theorem exists_given_next (actions after : List (Action ε)) :
    ∃ later, given {} (run {} actions).next (actions ++ .listen :: after) =
      (run {} actions).pending ++ later ∧ later <+: pushed after := by
  have hr : (run {} actions).next < (run {} (actions ++ [.listen])).next := by
    rw [run_snoc]
    exact Nat.lt_succ_self _
  obtain ⟨later, hgiven, hprefix, -⟩ := exists_given_append hr after
  refine ⟨later, ?_, hprefix⟩
  rw [List.append_cons, hgiven, inOrder_empty.given_snoc, given_eq_nil le_rfl, gives, if_pos rfl]
  rfl

end Run

/-- What a run of a feed comes to. -/
structure Delivers (actions : List (Action ε)) : Prop where
  /-- The receivers, in the order in which they were opened, have been given all that was pushed,
  in the order of the pushes, but for the events that wait. -/
  complete : (opened {} actions).flatMap (given {} · actions) ++ (run {} actions).pending =
    pushed actions
  /-- No receiver has been opened twice. -/
  nodup_opened : (opened ({} : Feed ε) actions).Nodup
  /-- What is pushed while there is no open receiver is given to the one that is opened next:
  behind what waited before, and ahead of all that is pushed later. -/
  handed_over : ∀ before event between after,
    actions = before ++ .push event :: between ++ .listen :: after →
    (run {} before).taker? = none → .listen ∉ between →
    ∃ later, given {} (run {} (before ++ .push event :: between)).next actions =
        (run {} before).pending ++ event :: pushed between ++ later ∧
      later <+: pushed after
  /-- An event waits only if there is no open receiver. -/
  waits_only : (run {} actions).pending ≠ [] → (run {} actions).taker? = none

/-- **A feed neither loses nor doubles an event, and keeps their order.**  Whatever is done to a
feed, the receivers have been given what was pushed, one after another, and what they have not been
given waits for the next one. -/
theorem delivers (actions : List (Action ε)) : Delivers actions where
  complete := flatMap_given actions
  nodup_opened := by
    rw [opened_eq_range]
    exact List.nodup_range
  handed_over := by
    rintro before event between after rfl htaker hlisten
    obtain ⟨later, hgiven, hprefix⟩ :=
      exists_given_next (before ++ .push event :: between) after
    refine ⟨later, ?_, hprefix⟩
    have hnone : Action.listen ∉ Action.push event :: between := by simpa using hlisten
    rw [hgiven, run_append, (waits_run htaker hnone).2]
    rfl
  waits_only := by
    intro hpending
    by_contra htaker
    exact hpending ((inOrder_run actions).pending_eq htaker)

/-- A receiver is dropped with an event unread, and the next one is given what was pushed since. -/
example : given {} 1 [.listen, .push 'a', .drop 0, .push 'b', .listen, .push 'c', .take 1] =
    ['b', 'c'] := by
  decide

end Feed

end LiteChat
