import LiteChat.Proofs.Client.Claims

/-!
# Claims that overlap

Any number of claims may be under way at a time, each at its own point, while the listener takes
events, time passes and other errands go on.  This module reads off a run what each claim does
(`Engine.claimed`) and keeps the account of all of them (`Engine.Accounted`): every claim has
done what one has done that is so far, whatever happened in between.  A claim that was told to
announce needs an id for it, and finds one, since the session holds an id until the connection
starts over.
-/

namespace LiteChat

/-- Whether an errand is a claim that is past its beginning. -/
def Errand.isUnderway : Errand → Bool
  | .claim .decide => false
  | .claim _ => true
  | _ => false

/-- Whether the next step of an errand starts the connection over. -/
def Errand.startsOver : Errand → Bool
  | .connect .reset => true
  | _ => false

namespace Engine

/-! ## What claims do in a run -/

/-- What a claim does in an action, with its number. -/
def claimEvents (e : Engine) : Action → List (Nat × ClaimEvent)
  | .move (.errand n) =>
    match Keyed.get? n e.errands with
    | some (.claim x) => (x.events e.client).map fun event => (n, event)
    | _ => []
  | _ => []

/-- What claims do in a run, in order. -/
def claimed (e : Engine) (actions : List Action) : List (Nat × ClaimEvent) :=
  e.readings claimEvents actions

/-- Whether an action leaves the connection as it is, and starts no claim in the middle. -/
def admits (e : Engine) : Action → Prop
  | .start t => t.isUnderway = false
  | .move (.errand n) => (Keyed.get? n e.errands).any Errand.startsOver = false
  | _ => True

instance (e : Engine) : (a : Action) → Decidable (e.admits a)
  | .start t => inferInstanceAs (Decidable (t.isUnderway = false))
  | .move (.errand n) =>
    inferInstanceAs (Decidable ((Keyed.get? n e.errands).any Errand.startsOver = false))
  | .move .listener | .move (.outbox _) | .push _ | .close | .layDown .. | .refuse _ | .slow _
  | .wait _ | .post .. | .dropReceipt _ | .disconnect | .release | .stop => .isTrue trivial

variable {start e : Engine} {actions : List Action} {a : Action}

theorem isReset_of_admits (ha : e.admits a) : ∀ op ∈ e.operations a, op.isReset = false := by
  intro op hop
  cases a with
  | move m =>
    cases m with
    | outbox n => cases hop
    | listener =>
      obtain ⟨l, -, hop⟩ := List.mem_flatMap.mp hop
      rcases l.operations_cases hop with ⟨id, rfl⟩ | ⟨state, rfl⟩
      · rfl
      · rfl
    | errand n =>
      obtain ⟨t, ht, hop⟩ := List.mem_flatMap.mp hop
      rw [admits, Option.mem_toList.mp ht, Option.any_some] at ha
      cases t with
      | claim x =>
        cases x with
        | decide =>
          rw [List.mem_singleton.mp hop]
          rfl
        | store email =>
          rw [List.mem_singleton.mp hop]
          rfl
        | _ => cases hop
      | connect x =>
        cases x with
        | reset => cases ha
        | _ => cases hop
      | _ => cases hop
  | _ => cases hop

theorem claimEvents_eq_nil (hmove : ∀ n, a ≠ .move (.errand n)) : e.claimEvents a = [] := by
  cases a with
  | move m =>
    cases m with
    | errand n => exact absurd rfl (hmove n)
    | _ => rfl
  | _ => rfl

/-- The decisions of claims are the answers of the session. -/
theorem answers_step (e : Engine) (a : Action) :
    (e.claimEvents a).filterMap (fun p => p.2.answer?) =
      e.client.session.answers (e.operations a) := by
  cases a with
  | move m =>
    cases m with
    | outbox n => rfl
    | listener =>
      refine (Session.answers_eq_nil _ fun op hop s => ?_).symm
      obtain ⟨l, -, hop⟩ := List.mem_flatMap.mp hop
      rcases l.operations_cases hop with ⟨id, rfl⟩ | ⟨state, rfl⟩
      · rfl
      · rfl
    | errand n =>
      rw [claimEvents, operations]
      cases Keyed.get? n e.errands with
      | none => rfl
      | some t =>
        cases t with
        | claim x =>
          rw [Option.toList_some, List.flatMap_singleton, List.filterMap_map]
          exact x.filterMap_answer? e.client
        | connect x => cases x <;> rfl
        | _ => rfl
  | _ => rfl

/-- The decisions of a run are the answers of the session in it. -/
theorem answers_claimed (e : Engine) (actions : List Action) :
    (e.claimed actions).filterMap (fun p => p.2.answer?) =
      e.client.session.answers (e.lived actions) := by
  induction actions generalizing e with
  | nil => rfl
  | cons a rest ih =>
    have hrest := ih (e.step a)
    rw [session_step] at hrest
    rw [claimed, readings, lived, readings, List.filterMap_append, Session.answers_append,
      answers_step]
    exact congrArg (e.client.session.answers (e.operations a) ++ ·) hrest

/-! ## Errands -/

theorem withClient_errands (e : Engine) (c : Client) :
    (e.withClient c).errands = e.errands ∧ (e.withClient c).nextErrand = e.nextErrand := ⟨rfl, rfl⟩

theorem dropListener_errands (e : Engine) :
    e.dropListener.errands = e.errands ∧ e.dropListener.nextErrand = e.nextErrand := by
  unfold dropListener
  split <;> exact ⟨rfl, rfl⟩

theorem stepErrand_errands (e : Engine) (t : Errand) :
    (e.stepErrand t).1.errands = e.errands ∧ (e.stepErrand t).1.nextErrand = e.nextErrand := by
  cases t with
  | connect x =>
    cases x with
    | listen =>
      rw [stepErrand, stepConnection]
      dsimp only
      split <;> exact ⟨rfl, rfl⟩
    | install r => exact e.dropListener_errands
    | _ => exact ⟨rfl, rfl⟩
  | _ => exact ⟨rfl, rfl⟩

/-- No other errand turns into a claim. -/
theorem stepErrand_ne_claim (e : Engine) {t : Errand} (h : ∀ x, t ≠ .claim x) (x : Claim) :
    (e.stepErrand t).2 ≠ .claim x := by
  intro hx
  cases t with
  | claim y => exact h y rfl
  | _ => cases hx

/-- Errands are started and moved; nothing else is done to them. -/
theorem step_errands (hstart : ∀ t, a ≠ .start t) (hmove : ∀ n, a ≠ .move (.errand n)) :
    (e.step a).errands = e.errands ∧ (e.step a).nextErrand = e.nextErrand := by
  cases a with
  | start t => exact absurd rfl (hstart t)
  | wait span => exact e.withClient_errands _
  | disconnect => exact e.dropListener_errands
  | stop =>
    obtain ⟨postings, hstop⟩ := e.stop_eq
    rw [step, hstop]
    exact e.dropListener_errands
  | post c message requestId =>
    rw [step, post]
    dsimp only
    split <;> exact ⟨rfl, rfl⟩
  | move m =>
    cases m with
    | errand n => exact absurd rfl (hmove n)
    | listener =>
      rw [step, move]
      split <;> exact ⟨rfl, rfl⟩
    | outbox n =>
      rw [step, move]
      split
      · unfold moveOutbox
        dsimp only
        split <;> exact ⟨rfl, rfl⟩
      · exact ⟨rfl, rfl⟩
  | _ => exact ⟨rfl, rfl⟩

theorem errands_move (e : Engine) {n : Nat} {t : Errand} (ht : Keyed.get? n e.errands = some t) :
    (e.step (.move (.errand n))).errands = Keyed.insert n (e.stepErrand t).2 e.errands ∧
      (e.step (.move (.errand n))).nextErrand = e.nextErrand := by
  obtain ⟨herrands, hnext⟩ := e.stepErrand_errands t
  rw [step, move, ht]
  exact ⟨congrArg (Keyed.insert n (e.stepErrand t).2) herrands, hnext⟩

/-! ## The account of all claims -/

/-- What claims have done in a run, as far as each of them is. -/
structure Accounted (e : Engine) (record : List (Nat × ClaimEvent)) : Prop where
  told : ∀ n x, Keyed.get? n e.errands = some (.claim x) → Told x (entriesOf n record)
  silent : ∀ n, (∀ x, Keyed.get? n e.errands ≠ some (.claim x)) → entriesOf n record = []
  fresh : ∀ n, e.nextErrand ≤ n → Keyed.get? n e.errands = none
  identified : ∀ p ∈ record, p.2.announces = true → e.client.session.clientId.isSome = true

namespace Accounted

variable {record : List (Nat × ClaimEvent)}

/-- The id is there for the next step of a claim that was told to announce. -/
theorem isSome_clientId (h : e.Accounted record) {n : Nat}
    (hannounces : ∃ event ∈ entriesOf n record, event.announces = true) :
    e.client.session.clientId.isSome = true := by
  obtain ⟨event, hevent, hannounces⟩ := hannounces
  exact h.identified _ (mem_entriesOf.mp hevent) hannounces

/-- Nobody who is told to announce is without an id after it. -/
theorem identified_step (h : e.Accounted record) (ha : e.admits a) :
    ∀ p ∈ record ++ e.claimEvents a, p.2.announces = true →
      (e.step a).client.session.clientId.isSome = true := by
  intro p hp hannounces
  rw [session_step]
  rcases List.mem_append.mp hp with hp | hp
  · exact Session.isSome_clientId_foldl (h.identified p hp hannounces) (isReset_of_admits ha)
  · obtain ⟨answer, hanswer, hannounces⟩ := ClaimEvent.exists_answer hannounces
    refine Session.isSome_clientId_of_answer (isReset_of_admits ha) ?_ hannounces
    rw [← answers_step]
    exact List.mem_filterMap.mpr ⟨p, hp, hanswer⟩

/-- An errand starts, a claim from its beginning. -/
theorem of_start (h : e.Accounted record) {t : Errand} (ha : e.admits (.start t)) :
    (e.step (.start t)).Accounted record := by
  have hfree : entriesOf e.nextErrand record = [] := by
    refine h.silent _ fun x hx => ?_
    rw [h.fresh _ (Nat.le_refl _)] at hx
    cases hx
  have herrands : (e.step (.start t)).errands = Keyed.insert e.nextErrand t e.errands := rfl
  refine ⟨?_, ?_, ?_, h.identified⟩
  · intro n x hx
    rw [herrands] at hx
    by_cases hn : n = e.nextErrand
    · rw [hn, Keyed.get?_insert_self] at hx
      cases hx
      rw [hn, hfree]
      cases x with
      | decide => exact .undecided
      | _ => cases ha
    · rw [Keyed.get?_insert_of_ne hn] at hx
      exact h.told n x hx
  · intro n hno
    rw [herrands] at hno
    by_cases hn : n = e.nextErrand
    · rw [hn, hfree]
    · rw [Keyed.get?_insert_of_ne hn] at hno
      exact h.silent n hno
  · intro n hn
    have hlt : e.nextErrand < n := hn
    rw [herrands, Keyed.get?_insert_of_ne hlt.ne']
    exact h.fresh n hlt.le

/-- Another errand in the place of one, which has done something more. -/
theorem replace (h : e.Accounted record) {e' : Engine} {n : Nat} {t t' : Errand}
    {events : List ClaimEvent} (ht : Keyed.get? n e.errands = some t)
    (herrands : e'.errands = Keyed.insert n t' e.errands) (hnext : e'.nextErrand = e.nextErrand)
    (htold : ∀ x, t' = .claim x → Told x (entriesOf n record ++ events))
    (hsilent : (∀ x, t' ≠ .claim x) → entriesOf n record ++ events = [])
    (hidentified : ∀ p ∈ record ++ events.map fun event => (n, event), p.2.announces = true →
      e'.client.session.clientId.isSome = true) :
    e'.Accounted (record ++ events.map fun event => (n, event)) := by
  have hself : entriesOf n (record ++ events.map fun event => (n, event)) =
      entriesOf n record ++ events := by
    rw [entriesOf_append, entriesOf_self]
  have hothers : ∀ k, k ≠ n → entriesOf k (record ++ events.map fun event => (n, event)) =
      entriesOf k record := by
    intro k hk
    rw [entriesOf_append, entriesOf_of_ne hk.symm, List.append_nil]
  refine ⟨?_, ?_, ?_, hidentified⟩
  · intro k x hx
    rw [herrands] at hx
    by_cases hk : k = n
    · rw [hk, Keyed.get?_insert_self] at hx
      rw [hk, hself]
      exact htold x (Option.some.inj hx)
    · rw [Keyed.get?_insert_of_ne hk] at hx
      rw [hothers k hk]
      exact h.told k x hx
  · intro k hno
    rw [herrands] at hno
    by_cases hk : k = n
    · rw [hk, Keyed.get?_insert_self] at hno
      rw [hk, hself]
      exact hsilent fun x hx => hno x (congrArg some hx)
    · rw [Keyed.get?_insert_of_ne hk] at hno
      rw [hothers k hk]
      exact h.silent k hno
  · intro k hk
    rw [hnext] at hk
    have hne : k ≠ n := by
      rintro rfl
      rw [h.fresh k hk] at ht
      cases ht
    rw [herrands, Keyed.get?_insert_of_ne hne]
    exact h.fresh k hk

/-- An errand moves, and it stays the claim that it is, or the other errand. -/
theorem moveErrand (h : e.Accounted record) {n : Nat} (ha : e.admits (.move (.errand n))) :
    (e.step (.move (.errand n))).Accounted (record ++ e.claimEvents (.move (.errand n))) := by
  have hidentified := h.identified_step ha
  cases ht : Keyed.get? n e.errands with
  | none =>
    have hstep : e.step (.move (.errand n)) = e := by rw [Engine.step, move, ht]
    have hnothing : e.claimEvents (.move (.errand n)) = [] := by rw [claimEvents, ht]
    rw [hstep, hnothing, List.append_nil]
    exact h
  | some t =>
    obtain ⟨herrands, hnext⟩ := e.errands_move ht
    by_cases hclaim : ∃ x, t = .claim x
    · obtain ⟨x, rfl⟩ := hclaim
      have hevents : e.claimEvents (.move (.errand n)) =
          (x.events e.client).map fun event => (n, event) := by rw [claimEvents, ht]
      rw [hevents] at hidentified ⊢
      refine h.replace ht herrands hnext ?_ (fun hno => absurd rfl (hno _)) hidentified
      intro y hy
      cases hy
      exact (h.told n x ht).step fun hannounces => h.isSome_clientId hannounces
    · have hnothing : e.claimEvents (.move (.errand n)) = [].map fun event => (n, event) := by
        rw [claimEvents, ht]
        split
        · rename_i x hx
          exact absurd ⟨x, Option.some.inj hx⟩ hclaim
        · rfl
      have hother : ∀ x, (e.stepErrand t).2 ≠ .claim x :=
        e.stepErrand_ne_claim fun x hx => hclaim ⟨x, hx⟩
      rw [hnothing] at hidentified ⊢
      refine h.replace ht herrands hnext (fun x hx => absurd hx (hother x)) ?_ hidentified
      intro _
      rw [List.append_nil]
      refine h.silent n fun x hx => hclaim ⟨x, ?_⟩
      rw [ht] at hx
      exact Option.some.inj hx

theorem of_errands (h : e.Accounted record) (ha : e.admits a) (hnothing : e.claimEvents a = [])
    (herrands : (e.step a).errands = e.errands ∧ (e.step a).nextErrand = e.nextErrand) :
    (e.step a).Accounted (record ++ e.claimEvents a) := by
  have hidentified := h.identified_step ha
  rw [hnothing, List.append_nil] at hidentified ⊢
  refine ⟨?_, ?_, ?_, hidentified⟩
  · rw [herrands.1]
    exact h.told
  · rw [herrands.1]
    exact h.silent
  · rw [herrands.1, herrands.2]
    exact h.fresh

theorem step (h : e.Accounted record) (ha : e.admits a) :
    (e.step a).Accounted (record ++ e.claimEvents a) := by
  by_cases hstart : ∃ t, a = .start t
  · obtain ⟨t, rfl⟩ := hstart
    have hnothing : e.claimEvents (.start t) = [] := rfl
    rw [hnothing, List.append_nil]
    exact h.of_start ha
  · by_cases hmove : ∃ n, a = .move (.errand n)
    · obtain ⟨n, rfl⟩ := hmove
      exact h.moveErrand ha
    · exact h.of_errands ha (claimEvents_eq_nil fun n hn => hmove ⟨n, hn⟩)
        (step_errands (fun t ht => hstart ⟨t, ht⟩) fun n hn => hmove ⟨n, hn⟩)

/-- Every claim is somewhere, and has done what one has done that is so far. -/
theorem exists_told (h : e.Accounted record) (n : Nat) : ∃ x, Told x (entriesOf n record) := by
  by_cases hclaim : ∃ x, Keyed.get? n e.errands = some (.claim x)
  · obtain ⟨x, hx⟩ := hclaim
    exact ⟨x, h.told n x hx⟩
  · refine ⟨.decide, ?_⟩
    rw [h.silent n fun x hx => hclaim ⟨x, hx⟩]
    exact .undecided

end Accounted

/-! ## Any number of claims -/

/-- No claim is under way, and the numbers of errands that are yet to start are free. -/
structure Unclaimed (e : Engine) : Prop where
  none : ∀ n x, Keyed.get? n e.errands ≠ some (.claim x)
  fresh : ∀ n, e.nextErrand ≤ n → Keyed.get? n e.errands = .none

theorem Follows.accounted (hstart : start.Unclaimed) (h : start.Follows admits actions e) :
    e.Accounted (start.claimed actions) := by
  induction h with
  | refl =>
    exact ⟨fun n x hx => absurd hx (hstart.none n x), fun _ _ => rfl, hstart.fresh,
      fun _ hp => absurd hp List.not_mem_nil⟩
  | @next actions e a h ha ih =>
    rw [claimed, h.readings_next]
    exact ih.step ha

/-- What claims have sent in a run in which they may overlap. -/
structure Overlapped (start : Engine) (actions : List Action) (e : Engine) : Prop where
  /-- There are no more announcements than decisions to announce. -/
  atMost : (start.claimed actions).countP (fun p => p.2.requests .setActiveClient) ≤
    (start.claimed actions).countP fun p => p.2.announces
  /-- A claim that was told to announce and has come to its end has announced once. -/
  once : ∀ n outcome, Keyed.get? n e.errands = some (.claim (.done outcome)) →
    (∃ event ∈ entriesOf n (start.claimed actions), event.announces = true) →
      (entriesOf n (start.claimed actions)).countP (ClaimEvent.requests .setActiveClient) = 1
  /-- A claim that was told not to announce sends nothing. -/
  declined : ∀ n answer, (n, .decided answer) ∈ start.claimed actions →
    answer.isAnnouncement = false → entriesOf n (start.claimed actions) = [.decided answer]
  /-- A claim looks up the account only if the address was not known when it was told to
  announce. -/
  lookUps : ∀ n event, (n, event) ∈ start.claimed actions → event.requests .getSelfInfo = true →
    ∃ id, (n, .decided (.announce id none)) ∈ start.claimed actions
  /-- If nobody says that this client is not the active one, and the limit does not pass between
  any two questions, there is at most one announcement. -/
  withinLimit : (∀ op ∈ start.lived actions, op.keepsStanding = true) →
    (start.lived actions).Pairwise Session.Operation.Near →
      (start.claimed actions).countP (fun p => p.2.requests .setActiveClient) ≤ 1

theorem countP_announces (e : Engine) (actions : List Action) :
    (e.claimed actions).countP (fun p => p.2.announces) =
      (e.client.session.answers (e.lived actions)).countP Activation.isAnnouncement := by
  rw [← answers_claimed, List.countP_filterMap]
  congr 1
  funext p
  cases p.2 <;> rfl

/-- However claims overlap, and whatever happens in between, each of them announces once if it is
told to and not at all otherwise. -/
theorem overlapped (hstart : start.Unclaimed) (h : start.Follows admits actions e) :
    start.Overlapped actions e := by
  have haccount := h.accounted hstart
  have hatMost : (start.claimed actions).countP (fun p => p.2.requests .setActiveClient) ≤
      (start.claimed actions).countP fun p => p.2.announces := by
    refine countP_le_of_entriesOf fun n => ?_
    obtain ⟨x, htold⟩ := haccount.exists_told n
    exact htold.countP_requests_le
  refine ⟨hatMost, ?_, ?_, ?_, ?_⟩
  · intro n outcome hdone hannounces
    exact (haccount.told n _ hdone).countP_requests_of_done hannounces
  · intro n answer hmem hanswer
    obtain ⟨x, htold⟩ := haccount.exists_told n
    exact htold.eq_of_declined (mem_entriesOf.mpr hmem) hanswer
  · intro n event hmem hevent
    obtain ⟨x, htold⟩ := haccount.exists_told n
    obtain ⟨id, hid⟩ := htold.exists_of_lookUp (mem_entriesOf.mpr hmem) hevent
    exact ⟨id, mem_entriesOf.mp hid⟩
  · intro hlife hnear
    rw [countP_announces] at hatMost
    exact hatMost.trans (start.client.session.countP_isAnnouncement_le_one hlife hnear)

/-- An engine whose client has an id. -/
def identified : Engine :=
  { client := { Client.new .standard ⟨0⟩ with session := Session.fresh.observe "id" } }

/-- Two claims.  The second one asks while the first one is looking up the account, which fails. -/
def rivals : List Action :=
  [.layDown Endpoint.getSelfInfo.path (.failure "timed out"), .start (.claim .decide),
   .start (.claim .decide), .move (.errand 0), .move (.errand 0), .move (.errand 1),
   .move (.errand 0), .wait (.ofSeconds 30), .move (.errand 0), .move (.errand 0),
   .move (.errand 0), .move (.errand 0), .move (.errand 0), .move (.errand 0), .move (.errand 0)]

theorem overlapped_rivals :
    identified.Unclaimed ∧ identified.Follows admits rivals (identified.run rivals) ∧
      identified.Overlapped rivals (identified.run rivals) := by
  have hstart : identified.Unclaimed := ⟨nofun, fun _ _ => rfl⟩
  have hfollows : identified.Follows admits rivals (identified.run rivals) :=
    follows_run (by decide +kernel)
  exact ⟨hstart, hfollows, overlapped hstart hfollows⟩

example : (identified.claimed rivals).countP (fun p => p.2.requests .setActiveClient) = 1 := by
  decide +kernel

end Engine

end LiteChat
