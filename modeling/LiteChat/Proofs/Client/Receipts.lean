import LiteChat.Proofs.Client.Turns

/-!
# Receipts

Nothing that an engine does depends on what its receipts say.  Two engines that differ in
their receipts only (`Engine.Alike`) go on alike, and so a run leads to the client to
which the same run leads without the dropped receipts (`Engine.client_run_keeping`).
-/

namespace LiteChat

namespace Engine

/-- The engine with other postings. -/
def withPostings (e : Engine) (postings : List Posting) : Engine := { e with postings := postings }

/-- An engine has as many postings as another and differs from it in nothing else. -/
inductive Alike (e : Engine) : Engine → Prop where
  | mk {ps : List Posting} (h : ps.length = e.postings.length) : Alike e (e.withPostings ps)

section Alike
variable {e e' e'' : Engine}

theorem Alike.refl (e : Engine) : e.Alike e := .mk rfl

theorem Alike.trans (h : e.Alike e') (h' : e'.Alike e'') : e.Alike e'' := by
  obtain ⟨h⟩ := h
  obtain ⟨h'⟩ := h'
  exact .mk (h'.trans h)

theorem Alike.symm (h : e.Alike e') : e'.Alike e := by
  obtain @⟨ps, h⟩ := h
  have hback : (e.withPostings ps).Alike ((e.withPostings ps).withPostings e.postings) :=
    .mk h.symm
  exact hback

theorem Alike.client_eq (h : e.Alike e') : e'.client = e.client := by
  obtain ⟨-⟩ := h
  rfl

/-- What is made of the client has nothing to do with receipts. -/
theorem Alike.mapClient (h : e.Alike e') (f : Client → Client) :
    (e.withClient (f e.client)).Alike (e'.withClient (f e'.client)) := by
  obtain ⟨h⟩ := h
  exact .mk h

theorem alike_settlePosting (e : Engine) (ticket : Nat) (outcome : Except ClientError Message) :
    e.Alike (e.settlePosting ticket outcome) :=
  .mk (List.length_modify ..)

/-! ### Steps -/

variable {ps : List Posting}

theorem post_withPostings (h : ps.length = e.postings.length) (c : String)
    (message : OutgoingMessage) (requestId : Nat) :
    (e.withPostings ps).post c message requestId =
      (e.post c message requestId).withPostings (ps ++ [.new c message requestId]) := by
  have hbox : outboxOf? { e.withPostings ps with postings := ps ++ [.new c message requestId] } c =
      outboxOf? { e with postings := e.postings ++ [.new c message requestId] } c := rfl
  have hlength : (e.withPostings ps).postings.length = e.postings.length := h
  unfold post
  rw [hlength]
  dsimp only
  split
  · rename_i hsome
    have hsome' := hbox.symm.trans hsome
    simp only [hsome']
    rfl
  · rename_i hnone
    have hnone' := hbox.symm.trans hnone
    simp only [hnone']
    rfl

theorem Alike.settlePosting (h : e.Alike e') (ticket : Nat) (outcome : Except ClientError Message) :
    (e.settlePosting ticket outcome).Alike (e'.settlePosting ticket outcome) :=
  ((alike_settlePosting e ticket outcome).symm.trans h).trans (alike_settlePosting e' ticket outcome)

theorem alike_moveOutbox (h : ps.length = e.postings.length) (n : Nat) (o : Outbox) :
    (e.moveOutbox n o).Alike ((e.withPostings ps).moveOutbox n o) := by
  have hstep : o.step (e.withPostings ps).client (e.withPostings ps).isHeld =
      o.step e.client e.isHeld := rfl
  unfold moveOutbox
  rw [hstep]
  dsimp only
  cases (o.step e.client e.isHeld).settled with
  | some p =>
    obtain ⟨ticket, outcome⟩ := p
    apply Alike.settlePosting
    exact .mk h
  | none => exact .mk h

theorem alike_dropListener (h : ps.length = e.postings.length) :
    e.dropListener.Alike (e.withPostings ps).dropListener := by
  have hlistener : (e.withPostings ps).listener = e.listener := rfl
  unfold dropListener
  rw [hlistener]
  cases e.listener with
  | some l => exact .mk h
  | none => exact .mk h

/-- A connection goes on alike. -/
theorem alike_stepConnection (h : ps.length = e.postings.length) (x : Connection) :
    (e.stepConnection x).1.Alike ((e.withPostings ps).stepConnection x).1 ∧
      ((e.withPostings ps).stepConnection x).2 = (e.stepConnection x).2 := by
  cases x with
  | reset => exact ⟨.mk h, rfl⟩
  | listen =>
    have hlisten : (e.withPostings ps).client.transport.listen = e.client.transport.listen := rfl
    rw [stepConnection, stepConnection, hlisten]
    dsimp only
    cases e.client.transport.listen.2 with
    | ok r => exact ⟨.mk h, rfl⟩
    | error reason => exact ⟨.mk h, rfl⟩
  | install r =>
    have hdrop := alike_dropListener h
    rw [stepConnection, stepConnection]
    dsimp only
    generalize (e.withPostings ps).dropListener = d at hdrop
    obtain ⟨hps⟩ := hdrop
    exact ⟨.mk hps, rfl⟩
  | done outcome => exact ⟨.mk h, rfl⟩

theorem alike_stepErrand (h : ps.length = e.postings.length) (t : Errand) :
    (e.stepErrand t).1.Alike ((e.withPostings ps).stepErrand t).1 ∧
      ((e.withPostings ps).stepErrand t).2 = (e.stepErrand t).2 := by
  cases t with
  | exchange x => exact ⟨.mk h, rfl⟩
  | claim x => exact ⟨.mk h, rfl⟩
  | connect x =>
    obtain ⟨halike, heq⟩ := alike_stepConnection h x
    exact ⟨halike, congrArg Errand.connect heq⟩
  | upload x => exact ⟨.mk h, rfl⟩

theorem alike_stop (h : ps.length = e.postings.length) : e.stop.Alike (e.withPostings ps).stop := by
  have hsettle : ∀ (tickets : List Nat) (outcome : Except ClientError Message) (e e' : Engine),
      e.Alike e' → (tickets.foldl (fun e t => e.settlePosting t outcome) e).Alike
        (tickets.foldl (fun e t => e.settlePosting t outcome) e') := by
    intro tickets outcome
    induction tickets with
    | nil => exact fun e e' halike => halike
    | cons t rest ih => exact fun e e' halike => ih _ _ (halike.settlePosting t outcome)
  have hstop : ∀ (outboxes : List (Nat × Outbox)) (e e' : Engine), e.Alike e' →
      (outboxes.foldl (fun e o => e.stopOutbox o.2) e).Alike
        (outboxes.foldl (fun e o => e.stopOutbox o.2) e') := by
    intro outboxes
    induction outboxes with
    | nil => exact fun e e' halike => halike
    | cons o rest ih => exact fun e e' halike => ih _ _ (hsettle _ _ e e' halike)
  -- both settle what the same outboxes hold
  have hdrop := alike_dropListener h
  rw [stop, stop]
  generalize (e.withPostings ps).dropListener = d at hdrop
  have houtboxes : d.outboxes = e.dropListener.outboxes := by
    obtain ⟨-⟩ := hdrop
    rfl
  have hall := hstop e.dropListener.outboxes _ _ hdrop
  rw [houtboxes]
  generalize e.dropListener.outboxes.foldl (fun e o => e.stopOutbox o.2) d = d' at hall
  obtain ⟨hps⟩ := hall
  exact .mk hps

theorem alike_move (h : ps.length = e.postings.length) (m : Mover) :
    (e.move m).Alike ((e.withPostings ps).move m) := by
  cases m with
  | listener =>
    have hlistener : (e.withPostings ps).listener = e.listener := rfl
    rw [move, move, hlistener]
    cases e.listener with
    | some l => exact .mk h
    | none => exact .mk h
  | outbox n =>
    have houtboxes : (e.withPostings ps).outboxes = e.outboxes := rfl
    rw [move, move, houtboxes]
    cases Keyed.get? n e.outboxes with
    | some o => exact alike_moveOutbox h n o
    | none => exact .mk h
  | errand n =>
    have herrands : (e.withPostings ps).errands = e.errands := rfl
    rw [move, move, herrands]
    cases Keyed.get? n e.errands with
    | some t =>
      obtain ⟨halike, heq⟩ := alike_stepErrand h t
      dsimp only
      rw [heq]
      generalize ((e.withPostings ps).stepErrand t).1 = e' at halike
      obtain ⟨hps⟩ := halike
      exact .mk hps
    | none => exact .mk h

theorem alike_dropReceipt (e : Engine) (ticket : Nat) : e.Alike (e.step (.dropReceipt ticket)) :=
  .mk (List.length_modify ..)

/-- Engines that are alike go on alike. -/
theorem Alike.step (h : e.Alike e') (a : Action) : (e.step a).Alike (e'.step a) := by
  obtain @⟨ps, h⟩ := h
  cases a with
  | post c message requestId =>
    rw [Engine.step, Engine.step, post_withPostings h]
    refine .mk ?_
    rw [post_postings, List.length_append, List.length_append, h]
  | dropReceipt ticket =>
    exact ((alike_dropReceipt e ticket).symm.trans (.mk h)).trans (alike_dropReceipt _ ticket)
  | disconnect =>
    have hdrop := alike_dropListener h
    rw [Engine.step, Engine.step]
    generalize (e.withPostings ps).dropListener = d at hdrop
    obtain ⟨hps⟩ := hdrop
    exact .mk hps
  | stop => exact alike_stop h
  | move m => exact alike_move h m
  | wait span =>
    exact Alike.mapClient (.mk h) fun c => { c with clock := c.clock.advance span.micros }
  | _ => exact .mk h

/-- A run leads to the same client without the receipts that are dropped in it. -/
theorem client_run_keeping (e : Engine) (actions : List Action) :
    (e.run (actions.filter fun a => !a.isDrop)).client = (e.run actions).client := by
  have hrun : ∀ (actions : List Action) (e e' : Engine), e.Alike e' →
      (e.run actions).Alike (e'.run (actions.filter fun a => !a.isDrop)) := by
    intro actions
    induction actions with
    | nil => exact fun e e' halike => halike
    | cons a rest ih =>
      intro e e' halike
      cases hdrop : a.isDrop with
      | true =>
        rw [List.filter_cons_of_neg (by simp [hdrop])]
        refine ih _ _ ?_
        cases a with
        | dropReceipt ticket => exact (alike_dropReceipt e ticket).symm.trans halike
        | _ => cases hdrop
      | false =>
        rw [List.filter_cons_of_pos (by simp [hdrop])]
        exact ih _ _ (halike.step a)
  exact (hrun actions e e (.refl e)).client_eq


end Alike

end Engine

/-! ## What receipts tell -/

/-- What is on the receipt of a ticket, unless it was dropped. -/
def Chronicle.receiptOf (ch : Chronicle) (ticket : Nat) : Receipt :=
  match ch.outcomeOf? ticket with
  | some outcome => .settled outcome
  | none => .waiting

/-- Every receipt tells what has come of its message, unless it was dropped. -/
def Informed (ps : List Posting) (ch : Chronicle) : Prop :=
  ∀ (i : Nat) (p : Posting), ps[i]? = some p → p.receipt = .dropped ∨ p.receipt = ch.receiptOf i

section Informed
variable {ps : List Posting} {ch : Chronicle}

theorem Chronicle.receiptOf_snoc (ch : Chronicle) (c : String) (event : OutboxEvent) (i : Nat) :
    (ch ++ [(c, event)]).receiptOf i =
      match event.settled? c with
      | some (ticket, outcome) =>
        if ticket = i then (ch.receiptOf i).settle outcome else ch.receiptOf i
      | none => ch.receiptOf i := by
  have hlast : Chronicle.outcomeOf? [(c, event)] i = (event.settled? c).bind fun s =>
      if s.1 = i then some s.2 else none := by
    rw [outcomeOf?, List.findSome?_singleton]
  have happend : (ch ++ [(c, event)]).outcomeOf? i =
      (ch.outcomeOf? i).or (Chronicle.outcomeOf? [(c, event)] i) := List.findSome?_append
  rw [receiptOf, receiptOf, happend, hlast]
  cases event.settled? c with
  | none => simp
  | some s =>
    obtain ⟨ticket, outcome⟩ := s
    by_cases h : ticket = i
    · cases ch.outcomeOf? i <;> simp [h, Receipt.settle]
    · simp [h]

theorem Chronicle.receiptOf_eq_settled_iff {i : Nat} {outcome : Except ClientError Message} :
    ch.receiptOf i = .settled outcome ↔ ch.outcomeOf? i = some outcome := by
  rw [receiptOf]
  cases ch.outcomeOf? i <;> simp

theorem Chronicle.receiptOf_eq_waiting_iff {i : Nat} :
    ch.receiptOf i = .waiting ↔ ch.outcomeOf? i = none := by
  rw [receiptOf]
  cases ch.outcomeOf? i <;> simp

theorem Informed.receiptOf_eq (h : Informed ps ch) {i : Nat} {p : Posting} (hp : ps[i]? = some p)
    (hkept : p.receipt ≠ .dropped) : ch.receiptOf i = p.receipt :=
  ((h i p hp).resolve_left hkept).symm

/-- An event settles the receipt of its message. -/
theorem Informed.event (h : Informed ps ch) (c : String) (event : OutboxEvent) :
    Informed
      (match event.settled? c with
        | some (ticket, outcome) => ps.modify ticket (Posting.settle outcome)
        | none => ps)
      (ch ++ [(c, event)]) := by
  intro i p hp
  rw [Chronicle.receiptOf_snoc]
  cases hevent : event.settled? c with
  | none =>
    rw [hevent] at hp
    exact h i p hp
  | some s =>
    obtain ⟨ticket, outcome⟩ := s
    rw [hevent] at hp
    dsimp only at hp ⊢
    rw [List.getElem?_modify] at hp
    obtain ⟨q, hq, rfl⟩ := Option.map_eq_some_iff.mp hp
    by_cases hticket : ticket = i
    · rw [if_pos hticket, if_pos hticket]
      rcases h i q hq with hdropped | hreceipt
      · exact Or.inl (by rw [Posting.settle, hdropped]; rfl)
      · exact Or.inr (by rw [Posting.settle, hreceipt])
    · rw [if_neg hticket, if_neg hticket]
      exact h i q hq

/-- Nothing is known of a message that has just been posted. -/
theorem Informed.post (h : Informed ps ch) (hnew : ch.outcomeOf? ps.length = none) (c : String)
    (message : OutgoingMessage) (requestId : Nat) :
    Informed (ps ++ [.new c message requestId]) ch := by
  intro i p hp
  rcases Nat.lt_or_ge i ps.length with hi | hi
  · rw [List.getElem?_append_left hi] at hp
    exact h i p hp
  · rw [List.getElem?_append_right hi, List.getElem?_singleton] at hp
    split at hp
    · obtain rfl : i = ps.length := by omega
      cases hp
      exact Or.inr (Chronicle.receiptOf_eq_waiting_iff.mpr hnew).symm
    · cases hp

/-- A receipt that is dropped tells nothing. -/
theorem Informed.dropReceipt (h : Informed ps ch) (ticket : Nat) :
    Informed (ps.modify ticket fun p => { p with receipt := .dropped }) ch := by
  intro i p hp
  rw [List.getElem?_modify] at hp
  obtain ⟨q, hq, rfl⟩ := Option.map_eq_some_iff.mp hp
  by_cases hticket : ticket = i
  · rw [if_pos hticket]
    exact Or.inl rfl
  · rw [if_neg hticket]
    exact h i q hq

end Informed

end LiteChat
