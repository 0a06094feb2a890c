import LiteChat.Proofs.Client.Lanes

/-!
# When nobody holds the client

The client is held by a caller, by a listener or an outbox that is at work, and by an
errand that is under way (`Engine.unheld_iff`).  Once nobody holds it any more, nobody ever
takes it up again and nothing is sent any more (`Unheld.step`): what is left to do is to
refuse the messages that wait, and every move of an outbox refuses the first of its
messages (`Unheld.refuses`).
-/

namespace LiteChat

/-! ## What is not at work -/

/-- A listener that is not at work stays so, or ends. -/
theorem Listener.step_of_not_busy (c : Client) {l : Listener} (h : l.isBusy = false) :
    (l.step c false).1.transport.log = c.transport.log ∧
      ∀ l', (l.step c false).2 = some l' → l'.isBusy = false := by
  obtain ⟨receiver, hearing⟩ := l
  cases hearing with
  | waiting =>
    have hlast : ∀ l', some (mk receiver .waiting) = some l' → l'.isBusy = false := by
      intro l' hl'
      cases hl'
      rfl
    rw [step]
    dsimp only
    split
    · split
      · exact ⟨rfl, fun _ h => by cases h⟩
      · exact ⟨rfl, hlast⟩
    · exact ⟨rfl, fun _ h => by cases h⟩
  | _ => cases h

/-- An outbox that is not at work refuses the first of its messages. -/
theorem Outbox.step_of_idle (c : Client) {o : Outbox} (h : o.current = none) :
    (o.step c false).client = c ∧ (o.step c false).lane = ⟨none, o.queue.tail⟩ ∧
      o.event? c false = o.queue.head?.map .refused ∧
      ∀ o', (o.step c false).outbox = some o' → o'.current = none := by
  obtain ⟨conversation, queue, current, isOpen⟩ := o
  dsimp only at h
  subst h
  cases queue with
  | cons job rest =>
    refine ⟨rfl, rfl, rfl, fun o' ho' => ?_⟩
    cases ho'
    rfl
  | nil =>
    cases isOpen with
    | true =>
      refine ⟨rfl, rfl, rfl, fun o' ho' => ?_⟩
      cases ho'
      rfl
    | false => exact ⟨rfl, rfl, rfl, fun o' ho' => by cases ho'⟩

namespace Engine

/-- Nobody has the client, and nothing is at work on it. -/
structure Unheld (e : Engine) : Prop where
  hasCaller : e.hasCaller = false
  listener : ∀ l, e.listener = some l → l.isBusy = false
  outboxes : ∀ p ∈ e.outboxes, p.2.isBusy = false
  errands : ∀ p ∈ e.errands, p.2.isDone = true

variable {e e' : Engine} {actions : List Action}

theorem unheld_iff : e.Unheld ↔ e.isHeld = false := by
  have hlistener : e.listener.any Listener.isBusy = false ↔
      ∀ l, e.listener = some l → l.isBusy = false := by
    cases e.listener <;> simp
  rw [isHeld, Bool.or_eq_false_iff, Bool.or_eq_false_iff, Bool.or_eq_false_iff, hlistener]
  constructor
  · rintro ⟨hcaller, hlistener, houtboxes, herrands⟩
    exact ⟨⟨⟨hcaller, hlistener⟩, by simpa using houtboxes⟩, by simpa using herrands⟩
  · rintro ⟨⟨⟨hcaller, hlistener⟩, houtboxes⟩, herrands⟩
    exact ⟨hcaller, hlistener, by simpa using houtboxes, by simpa using herrands⟩

theorem Unheld.isIdle (h : e.Unheld) {n : Nat} {o : Outbox} (ho : (n, o) ∈ e.outboxes) :
    o.current = none := by
  simpa [Outbox.isBusy] using h.outboxes _ ho

/-! ## Steps -/

/-- An errand that has come to its end changes nothing. -/
theorem stepErrand_of_isDone {t : Errand} (h : t.isDone = true) : e.stepErrand t = (e, t) := by
  have hremaining : t.remaining = 0 := of_decide_eq_true h
  cases t with
  | exchange x =>
    cases x with
    | done outcome => rfl
    | _ => cases hremaining
  | claim x =>
    cases x with
    | done outcome => rfl
    | _ => cases hremaining
  | connect x =>
    cases x with
    | done outcome => rfl
    | _ => cases hremaining
  | upload x =>
    cases x with
    | done outcome => rfl
    | _ => cases hremaining

/-- A move of an outbox leaves its number to what has become of it, or to nobody. -/
theorem mem_moveOutbox {n : Nat} {o : Outbox} {p : Nat × Outbox}
    (hp : p ∈ (e.moveOutbox n o).outboxes) :
    (∃ o', (o.step e.client e.isHeld).outbox = some o' ∧ o'.conversation = o.conversation ∧
        p = (n, o')) ∨ p ∈ e.outboxes := by
  rcases o.step_outbox e.client e.isHeld with ⟨o', hnext, hconv, -⟩ | ⟨hnext, -⟩
  · rw [(moveOutbox_of_some (n := n) hnext).outboxes_eq] at hp
    rcases Keyed.mem_of_mem_insert hp with rfl | hp
    · exact Or.inl ⟨o', hnext, hconv, rfl⟩
    · exact Or.inr hp
  · rw [(moveOutbox_of_none (n := n) hnext).outboxes_eq] at hp
    exact Or.inr (Keyed.mem_erase_iff.mp hp).2

theorem Unheld.moveOutbox (h : e.Unheld) {n : Nat} {o : Outbox} (ho : (n, o) ∈ e.outboxes) :
    (e.moveOutbox n o).Unheld ∧ (e.moveOutbox n o).client = e.client := by
  obtain ⟨hstep, -, -, hnext⟩ := Outbox.step_of_idle e.client (h.isIdle ho)
  obtain ⟨hclient, hcaller, hlistener, herrands⟩ := e.moveOutbox_rest n o
  refine ⟨⟨hcaller.trans h.hasCaller, hlistener ▸ h.listener, ?_, herrands ▸ h.errands⟩, ?_⟩
  · intro p hp
    rcases mem_moveOutbox hp with ⟨o', ho', -, rfl⟩ | hp
    · rw [unheld_iff.mp h] at ho'
      simp [Outbox.isBusy, hnext o' ho']
    · exact h.outboxes p hp
  · rw [hclient, unheld_iff.mp h, hstep]

/-- Nobody holds another client either. -/
theorem Unheld.withClient (h : e.Unheld) {c : Client}
    (hlog : c.transport.log = e.client.transport.log) :
    (e.withClient c).Unheld ∧ (e.withClient c).client.transport.log = e.client.transport.log :=
  ⟨⟨h.hasCaller, h.listener, h.outboxes, h.errands⟩, hlog⟩

/-- Whatever moves while nobody holds the client sends nothing. -/
theorem Unheld.move (h : e.Unheld) (m : Mover) :
    (e.move m).Unheld ∧ (e.move m).client.transport.log = e.client.transport.log := by
  cases m with
  | outbox n =>
    rw [Engine.move]
    cases hn : Keyed.get? n e.outboxes with
    | some o =>
      obtain ⟨hunheld, hclient⟩ := h.moveOutbox (Keyed.mem_of_get?_eq_some hn)
      exact ⟨hunheld, by rw [hclient]⟩
    | none => exact ⟨h, rfl⟩
  | listener =>
    rw [Engine.move]
    cases hl : e.listener with
    | some l =>
      obtain ⟨hlog, hnext⟩ := Listener.step_of_not_busy e.client (h.listener l hl)
      dsimp only
      rw [unheld_iff.mp h]
      exact ⟨⟨h.hasCaller, hnext, h.outboxes, h.errands⟩, hlog⟩
    | none => exact ⟨h, rfl⟩
  | errand n =>
    rw [Engine.move]
    cases hn : Keyed.get? n e.errands with
    | some t =>
      -- an errand that is there has come to its end, or it would hold the client
      have hdone := h.errands _ (Keyed.mem_of_get?_eq_some hn)
      dsimp only
      rw [stepErrand_of_isDone hdone]
      refine ⟨⟨h.hasCaller, h.listener, h.outboxes, ?_⟩, rfl⟩
      intro p hp
      rcases Keyed.mem_of_mem_insert hp with rfl | hp
      · exact hdone
      · exact h.errands p hp
    | none => exact ⟨h, rfl⟩

/-- Once nobody holds the client, that stays so, and nothing is sent. -/
theorem Unheld.step (h : e.Unheld) {a : Action} (ha : e.permits a) :
    (e.step a).Unheld ∧ (e.step a).client.transport.log = e.client.transport.log := by
  have hcaller : e.hasCaller ≠ true := by simp [h.hasCaller]
  cases a with
  | post c message requestId => exact absurd ha hcaller
  | start errand => exact absurd ha.1 hcaller
  | disconnect => exact ha.elim
  | stop => exact ha.elim
  | release =>
    refine ⟨⟨rfl, h.listener, ?_, h.errands⟩, rfl⟩
    intro p hp
    obtain ⟨q, hq, rfl⟩ := List.mem_map.mp hp
    exact h.outboxes q hq
  | move m => exact h.move m
  | dropReceipt ticket => exact ⟨⟨h.hasCaller, h.listener, h.outboxes, h.errands⟩, rfl⟩
  | _ => exact h.withClient rfl

/-- Once nobody holds the client, nothing is sent in any run. -/
theorem Unheld.reaches (h : e.Unheld) (hr : e.Reaches actions e') :
    e'.Unheld ∧ e'.client.transport.log = e.client.transport.log := by
  induction hr with
  | refl => exact ⟨h, rfl⟩
  | next _ ha ih =>
    obtain ⟨hunheld, hlog⟩ := ih.1.step ha
    exact ⟨hunheld, hlog.trans ih.2⟩

/-! ## What is left in an outbox -/

/-- The messages that are left for a conversation, all of them in the outbox of a number. -/
structure Remnant (e : Engine) (n : Nat) (c : String) (queue : List Job) : Prop where
  wired : e.Wired
  quiet : e.Quiet
  unheld : e.Unheld
  number : ∀ p ∈ e.outboxes, p.2.conversation = c → p.1 = n
  lane_eq : e.lane c = ⟨none, queue⟩

section Remnant
variable {n : Nat} {c : String} {queue : List Job}

/-- A message that is left is in the outbox of the number. -/
theorem Remnant.get?_of_cons {job : Job} {rest : List Job} (h : e.Remnant n c (job :: rest)) :
    ∃ o, Keyed.get? n e.outboxes = some o ∧ o.conversation = c ∧ o.lane = ⟨none, job :: rest⟩ := by
  have hlane := h.lane_eq
  rcases e.lane_cases c with hempty | ⟨k, o, ho, rfl, heq⟩
  · rw [hempty] at hlane
    cases hlane
  · obtain rfl : k = n := h.number _ ho rfl
    exact ⟨o, (Keyed.get?_eq_some_iff h.wired.sorted).mpr ho, rfl, heq.symm.trans hlane⟩

theorem Remnant.of_sameDesk (h : e.Remnant n c queue) (hdesk : e.SameDesk e')
    (hquiet : e'.Quiet) (hunheld : e'.Unheld) : e'.Remnant n c queue where
  wired := h.wired.of_sameDesk hdesk
  quiet := hquiet
  unheld := hunheld
  number := hdesk.outboxes_eq ▸ h.number
  lane_eq := (hdesk.lane_eq c).trans h.lane_eq

theorem countP_move_self (n : Nat) :
    [Action.move (.outbox n)].countP (Action.movesOutbox n) = 1 := by
  simp [Action.movesOutbox]

theorem countP_of_not_moves {a : Action} (h : a.movesOutbox n = false) :
    [a].countP (Action.movesOutbox n) = 0 := by
  simp [h]

theorem eq_move_of_moves {a : Action} (h : a.movesOutbox n = true) : a = .move (.outbox n) := by
  cases a with
  | move m =>
    cases m with
    | outbox k => rw [of_decide_eq_true h]
    | _ => cases h
  | _ => cases h

/-- The move of an outbox refuses the first of the messages that are left in it. -/
theorem Remnant.step_outbox (h : e.Remnant n c queue) {k : Nat} {o : Outbox}
    (ho : Keyed.get? k e.outboxes = some o) :
    Chronicle.eventsOf c (e.event? (.move (.outbox k))).toList =
        (queue.take ([Action.move (.outbox k)].countP (Action.movesOutbox n))).map .refused ∧
      (e.moveOutbox k o).lane c =
        ⟨none, queue.drop ([Action.move (.outbox k)].countP (Action.movesOutbox n))⟩ := by
  have hmem := Keyed.mem_of_get?_eq_some ho
  obtain ⟨-, hlane, hevent, -⟩ := Outbox.step_of_idle e.client (h.unheld.isIdle hmem)
  have hlane' := (h.wired.moveOutbox hmem).2 c
  rw [unheld_iff.mp h.unheld, hlane] at hlane'
  rw [event?, ho, Option.bind_some, unheld_iff.mp h.unheld, hevent]
  by_cases hc : c = o.conversation
  · obtain rfl : k = n := h.number _ hmem hc.symm
    have hqueue : o.queue = queue := by
      have heq := h.lane_eq
      rw [hc, h.wired.lane_eq hmem] at heq
      exact congrArg Lane.queue heq
    rw [if_pos hc, hqueue] at hlane'
    rw [countP_move_self, hqueue]
    refine ⟨?_, by rw [hlane', List.drop_one]⟩
    rw [hc, Chronicle.eventsOf_self]
    cases queue <;> rfl
  · -- what moves is the outbox of another conversation
    rw [if_neg hc, h.lane_eq] at hlane'
    rw [Chronicle.eventsOf_of_ne (Ne.symm hc), hlane']
    cases queue with
    | nil => simp
    | cons job rest =>
      -- so it is not the one in which the messages are left
      obtain ⟨o', ho', hc', -⟩ := h.get?_of_cons
      have hk : k ≠ n := by
        rintro rfl
        rw [ho] at ho'
        cases ho'
        exact hc hc'.symm
      have hmoves : Action.movesOutbox n (.move (.outbox k)) = false := decide_eq_false hk
      rw [countP_of_not_moves hmoves]
      exact ⟨rfl, rfl⟩

/-- A step refuses the first message if it is a move of the outbox, and none otherwise. -/
theorem Remnant.step (h : e.Remnant n c queue) {a : Action} (ha : e.permits a) :
    Chronicle.eventsOf c (e.event? a).toList =
        (queue.take ([a].countP (Action.movesOutbox n))).map .refused ∧
      (e.step a).Remnant n c (queue.drop ([a].countP (Action.movesOutbox n))) := by
  have hunheld := (h.unheld.step ha).1
  have hchange := e.step_cases h.quiet ha
  generalize e.step a = e' at hunheld hchange
  cases hchange with
  | post hcaller => exact absurd (h.unheld.hasCaller.symm.trans hcaller) Bool.false_ne_true
  | dropReceipt ticket => exact ⟨rfl, h.of_sameDesk ⟨rfl, rfl, rfl, rfl⟩ h.quiet hunheld⟩
  | release =>
    refine ⟨rfl, h.wired.release, h.quiet, hunheld, ?_, (e.lane_release c).trans h.lane_eq⟩
    intro p hp hpc
    obtain ⟨q, hq, rfl⟩ := List.mem_map.mp hp
    exact h.number q hq hpc
  | @outbox k o ho =>
    obtain ⟨hevents, hlane⟩ := h.step_outbox ho
    have hmem := Keyed.mem_of_get?_eq_some ho
    refine ⟨hevents, (h.wired.moveOutbox hmem).1, ?_, hunheld, ?_, hlane⟩
    · rw [Quiet, (e.moveOutbox_rest k o).2.2.2]
      exact h.quiet
    · intro p hp hpc
      rcases mem_moveOutbox hp with ⟨o', -, hconv, rfl⟩ | hp
      · have hk : k = n := h.number _ hmem (hconv.symm.trans hpc)
        exact hk
      · exact h.number p hp hpc
  | aside haside hevent hposted =>
    have hremnant := h.of_sameDesk haside.desk (haside.quiet h.quiet) hunheld
    rw [hevent]
    cases hmoves : a.movesOutbox n with
    | false =>
      rw [countP_of_not_moves hmoves]
      exact ⟨rfl, hremnant⟩
    | true =>
      obtain rfl := eq_move_of_moves hmoves
      -- the outbox would not have come to nothing if a message had been left in it
      cases queue with
      | nil =>
        rw [List.take_nil, List.drop_nil]
        exact ⟨rfl, hremnant⟩
      | cons job rest =>
        obtain ⟨o, ho, hc, hlane⟩ := h.get?_of_cons
        have hidle := h.unheld.isIdle (Keyed.mem_of_get?_eq_some ho)
        obtain ⟨-, -, hsome, -⟩ := Outbox.step_of_idle e.client hidle
        have hqueue : o.queue = job :: rest := congrArg Lane.queue hlane
        rw [event?, ho, Option.bind_some, unheld_iff.mp h.unheld, hsome, hqueue] at hevent
        cases hevent

end Remnant

/-- Every move of an outbox refuses the first of the messages in it, until none is left. -/
theorem Unheld.refuses (h : e.Unheld) (hw : e.Wired) (hq : e.Quiet) {n : Nat} {o : Outbox}
    (ho : (n, o) ∈ e.outboxes) (hr : e.Reaches actions e') :
    Chronicle.eventsOf o.conversation (e.chronicle actions) =
      (o.queue.take (actions.countP (Action.movesOutbox n))).map .refused := by
  have hstart : e.Remnant n o.conversation o.queue := by
    refine ⟨hw, hq, h, fun p hp hpc => congrArg Prod.fst (hw.apart p hp _ ho hpc), ?_⟩
    rw [hw.lane_eq ho, Outbox.lane, h.isIdle ho]
  have hrun : Chronicle.eventsOf o.conversation (e.chronicle actions) =
        (o.queue.take (actions.countP (Action.movesOutbox n))).map .refused ∧
      e'.Remnant n o.conversation (o.queue.drop (actions.countP (Action.movesOutbox n))) := by
    induction hr with
    | refl => exact ⟨rfl, hstart⟩
    | @next actions e' a hr ha ih =>
      obtain ⟨hevents, hremnant⟩ := ih
      obtain ⟨hevents', hremnant'⟩ := hremnant.step ha
      rw [List.drop_drop] at hremnant'
      rw [List.countP_append]
      refine ⟨?_, hremnant'⟩
      rw [hr.chronicle_next, Chronicle.eventsOf_append, hevents, hevents', ← List.map_append,
        ← List.take_add]
  exact hrun.1

end Engine

end LiteChat
