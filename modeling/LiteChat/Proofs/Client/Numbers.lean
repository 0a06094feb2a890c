import LiteChat.Proofs.Client.Overlap
import LiteChat.Proofs.Client.Reception

/-!
# Numbers that are given out

Receivers and errands are told apart by numbers that the feed and the engine give out.  No number
is given out twice: whatever happens, the number of the next receiver does not go down
(`Engine.nextReceiver_le_step`), and no errand has a number that is yet to be given out
(`Engine.numbered_run`).  So an errand is at its number until it moves
(`Engine.get?_errands_step`).
-/

namespace LiteChat

/-! ## The numbers of receivers -/

section Feed
variable (c : Client) (isHeld : Bool)

theorem Exchange.feed_step (x : Exchange) : (x.step c).1.transport.feed = c.transport.feed := by
  cases x with
  | identify isActive timeout =>
    rw [step]
    split <;> rfl
  | _ => rfl

theorem Claim.feed_step (x : Claim) : (x.step c).1.transport.feed = c.transport.feed := by
  cases x with
  | decide =>
    rw [step]
    dsimp only
    split <;> rfl
  | lookUp e =>
    rw [step]
    split
    · rfl
    · exact e.feed_step c
  | announce e =>
    rw [step]
    split
    · rfl
    · exact e.feed_step c
  | _ => rfl

theorem Upload.feed_step (x : Upload) : (x.step c).1.transport.feed = c.transport.feed := by
  cases x with
  | readAddress data url reply =>
    rw [step]
    split <;> rfl
  | _ => rfl

theorem Outbox.feed_step (o : Outbox) :
    (o.step c isHeld).client.transport.feed = c.transport.feed := by
  unfold step
  split
  · rename_i x _
    have hstep := x.feed_step c
    dsimp only
    split <;> exact hstep
  · split
    · split <;> rfl
    · split <;> rfl

theorem Client.transport_deliver (push : Option PushEvent) :
    (c.deliver push).transport = c.transport := by
  cases push with
  | none => rfl
  | some event =>
    cases event with
    | ignored discriminator => rfl
    | batch updates =>
      rw [deliver_batch]

/-- All that a listener does to the transport is to take events, to drop its receiver, and to
send maps.  It opens no receiver. -/
theorem Listener.transport_step (l : Listener) :
    (∃ feed, (l.step c isHeld).1.transport = { c.transport with feed := feed } ∧
        feed.next = c.transport.feed.next) ∨
      ∃ maps, (l.step c isHeld).1.transport = c.transport.sendMaps maps := by
  obtain ⟨receiver, hearing⟩ := l
  cases hearing with
  | subscribing push => exact Or.inr ⟨_, rfl⟩
  | delivering push => exact Or.inl ⟨_, c.transport_deliver push, rfl⟩
  | observing envelope =>
    rw [step]
    dsimp only
    split
    · split <;> exact Or.inl ⟨_, rfl, rfl⟩
    · exact Or.inl ⟨_, rfl, rfl⟩
  | waiting =>
    rw [step]
    dsimp only
    split
    · split <;> exact Or.inl ⟨_, rfl, rfl⟩
    · split
      · rename_i event _ _
        cases event with
        | message raw =>
          rw [hear]
          cases Envelope.ofPush? raw <;> exact Or.inl ⟨_, rfl, rfl⟩
        | _ => exact Or.inl ⟨_, rfl, rfl⟩
      · exact Or.inl ⟨_, rfl, rfl⟩

theorem Listener.next_step (l : Listener) :
    (l.step c isHeld).1.transport.feed.next = c.transport.feed.next := by
  rcases l.transport_step c isHeld with ⟨feed, hstep, hnext⟩ | ⟨maps, hstep⟩
  · rw [hstep, hnext]
  · rw [hstep]
    rfl

end Feed

namespace Engine

/-- The number of the receiver that is opened next. -/
def nextReceiver (e : Engine) : Nat := e.client.transport.feed.next

theorem nextReceiver_dropListener (e : Engine) : e.dropListener.nextReceiver = e.nextReceiver := by
  unfold dropListener
  split <;> rfl

/-- What time it is makes no difference. -/
theorem nextReceiver_withClock (e : Engine) (clock : Clock) :
    (e.withClient { e.client with clock := clock }).nextReceiver = e.nextReceiver := rfl

/-- A connection gives its receiver the next number, unless the transport refuses. -/
theorem stepConnection_listen (e : Engine) :
    ((e.stepConnection .listen).2 = .install e.nextReceiver ∨
        ∃ reason, (e.stepConnection .listen).2 = .done (.error reason)) ∧
      e.nextReceiver ≤ (e.stepConnection .listen).1.nextReceiver := by
  rw [stepConnection, Transport.listen]
  cases e.client.transport.refusal with
  | none => exact ⟨Or.inl rfl, Nat.le_succ _⟩
  | some reason => exact ⟨Or.inr ⟨_, rfl⟩, Nat.le_refl _⟩

theorem nextReceiver_le_stepErrand (e : Engine) (t : Errand) :
    e.nextReceiver ≤ (e.stepErrand t).1.nextReceiver := by
  cases t with
  | exchange x => exact (congrArg Feed.next (x.feed_step e.client)).ge
  | claim x => exact (congrArg Feed.next (x.feed_step e.client)).ge
  | upload x => exact (congrArg Feed.next (x.feed_step e.client)).ge
  | connect x =>
    cases x with
    | listen => exact e.stepConnection_listen.2
    | install r => exact e.nextReceiver_dropListener.ge
    | _ => exact Nat.le_refl _

/-- A number is not given out again. -/
theorem nextReceiver_le_step (e : Engine) (a : Action) :
    e.nextReceiver ≤ (e.step a).nextReceiver := by
  cases a with
  | push event =>
    have hpush : (e.client.transport.feed.push event).next = e.nextReceiver := by
      unfold Feed.push
      split <;> rfl
    exact hpush.ge
  | post c message requestId =>
    have hclient := (e.post_rest c message requestId).1
    exact (congrArg (fun c => c.transport.feed.next) hclient).ge
  | wait span => exact (e.nextReceiver_withClock _).ge
  | disconnect => exact e.nextReceiver_dropListener.ge
  | stop =>
    have hclient := congrArg (fun c => c.transport.feed.next) e.stop_client
    exact (hclient.trans e.nextReceiver_dropListener).ge
  | move m =>
    cases m with
    | listener =>
      rw [step, move]
      split
      · rename_i l _
        exact (l.next_step e.client e.isHeld).ge
      · exact Nat.le_refl _
    | outbox n =>
      rw [step, move]
      split
      · rename_i o _
        have hclient := congrArg (fun c => c.transport.feed) (e.moveOutbox_rest n o).1
        exact (congrArg Feed.next (hclient.trans (o.feed_step e.client e.isHeld))).ge
      · exact Nat.le_refl _
    | errand n =>
      rw [step, move]
      split
      · rename_i t _
        exact e.nextReceiver_le_stepErrand t
      · exact Nat.le_refl _
  | _ => exact Nat.le_refl _

/-! ## The numbers of errands -/

/-- The numbers of errands that are yet to start are free. -/
def Numbered (e : Engine) : Prop := ∀ n, e.nextErrand ≤ n → Keyed.get? n e.errands = none

variable {e : Engine} {a : Action} {n : Nat}

theorem Numbered.lt_nextErrand (h : e.Numbered) {t : Errand}
    (ht : Keyed.get? n e.errands = some t) : n < e.nextErrand := by
  by_contra hn
  rw [h n (Nat.not_lt.mp hn)] at ht
  cases ht

/-- What an action does to the errands: it starts one, it moves one, or it leaves them alone. -/
theorem errands_step_cases (e : Engine) (a : Action) :
    (∃ t, a = .start t ∧ (e.step a).errands = Keyed.insert e.nextErrand t e.errands ∧
        (e.step a).nextErrand = e.nextErrand + 1) ∨
      (∃ k t, a = .move (.errand k) ∧ Keyed.get? k e.errands = some t ∧
        (e.step a).errands = Keyed.insert k (e.stepErrand t).2 e.errands ∧
        (e.step a).nextErrand = e.nextErrand) ∨
      (e.step a).errands = e.errands ∧ (e.step a).nextErrand = e.nextErrand := by
  by_cases hstart : ∃ t, a = .start t
  · obtain ⟨t, rfl⟩ := hstart
    exact Or.inl ⟨t, rfl, rfl, rfl⟩
  · by_cases hmove : ∃ k, a = .move (.errand k)
    · obtain ⟨k, rfl⟩ := hmove
      cases hk : Keyed.get? k e.errands with
      | none =>
        have hstay : e.step (.move (.errand k)) = e := by rw [step, move, hk]
        rw [hstay]
        exact Or.inr (Or.inr ⟨rfl, rfl⟩)
      | some t => exact Or.inr (Or.inl ⟨k, t, rfl, hk, e.errands_move hk⟩)
    · exact Or.inr (Or.inr
        (step_errands (fun t ht => hstart ⟨t, ht⟩) fun k hk => hmove ⟨k, hk⟩))

/-- Where an errand is after an action. -/
theorem get?_errands_step (h : e.Numbered) {t : Errand} (ht : Keyed.get? n e.errands = some t)
    (hmove : a ≠ .move (.errand n)) : Keyed.get? n (e.step a).errands = some t := by
  rcases e.errands_step_cases a with
    ⟨t', rfl, herrands, -⟩ | ⟨k, t', rfl, -, herrands, -⟩ | ⟨herrands, -⟩
  · rw [herrands, Keyed.get?_insert_of_ne (h.lt_nextErrand ht).ne, ht]
  · have hne : n ≠ k := by
      rintro rfl
      exact hmove rfl
    rw [herrands, Keyed.get?_insert_of_ne hne, ht]
  · rw [herrands, ht]

theorem Numbered.step (h : e.Numbered) (a : Action) : (e.step a).Numbered := by
  intro n hn
  rcases e.errands_step_cases a with
    ⟨t, -, herrands, hnext⟩ | ⟨k, t, -, hk, herrands, hnext⟩ | ⟨herrands, hnext⟩
  · rw [hnext] at hn
    have hlt : e.nextErrand < n := hn
    rw [herrands, Keyed.get?_insert_of_ne hlt.ne', h n hlt.le]
  · rw [hnext] at hn
    have hne : n ≠ k := ((h.lt_nextErrand hk).trans_le hn).ne'
    rw [herrands, Keyed.get?_insert_of_ne hne, h n hn]
  · rw [hnext] at hn
    rw [herrands, h n hn]

theorem numbered_run (config : ClientConfig) (clock : Clock) (actions : List Action) :
    ((Engine.new config clock).run actions).Numbered := by
  have key : ∀ {e : Engine}, e.Numbered → (e.run actions).Numbered := by
    induction actions with
    | nil => exact fun h => h
    | cons a rest ih => exact fun h => ih (h.step a)
  exact key fun _ _ => rfl

end Engine

end LiteChat
