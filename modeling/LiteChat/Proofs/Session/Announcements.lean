import Mathlib.Data.List.DropRight
import LiteChat.Session.State

/-!
# Announcements in the life of a session

What a session answers when it is asked whether to announce depends on what has been done to
it since the connection started over.  This module has a life as a list of operations
(`Session.Operation`), reads off it the id and the address that count (`lastObserved`,
`lastResolved`), and shows that the session knows just these (`clientId_after`, `email_after`).

An announcement stands (`Session.Standing`) until the connection starts over or the service
says that this client is not the active one; every other operation leaves it standing.  So two
announcements in a row, with nothing of that kind between them, are further apart than the
limit (`negotiated`).
-/

namespace LiteChat

open Floating (Double)

/-- Whether an answer is to announce. -/
def Activation.isAnnouncement : Activation → Bool
  | .announce .. => true
  | _ => false

namespace Session

/-! ## One decision -/

/-- All that can come of the question whether to announce. -/
inductive Decided (s : Session) (now : Double) (limit : TimeSpan) :
    Session × Activation → Prop where
  | noClientId (h : s.clientId = none) : Decided s now limit (s, .noClientId)
  | throttled {id : String} (hid : s.clientId = some id) (hactive : s.activity = .active)
    (hnot : s.hasElapsed now limit = false) : Decided s now limit (s, .throttled)
  | announce {id : String} (hid : s.clientId = some id)
    (hdue : s.activity = .active → s.hasElapsed now limit = true) :
    Decided s now limit ({ s with activity := .active, lastActive := now }, .announce id s.email)

theorem decided_activate (s : Session) (now : Double) (limit : TimeSpan) :
    s.Decided now limit (s.activate now limit) := by
  unfold activate
  split
  · rename_i hid
    exact .noClientId hid
  · rename_i id hid
    split
    · rename_i hthrottled
      exact .throttled hid hthrottled.1 hthrottled.2
    · rename_i hdue
      refine .announce hid fun hactive => ?_
      simpa [hactive] using hdue

/-- A session that is active announces just when the time of the limit has passed. -/
theorem isAnnouncement_activate {s : Session} (hid : s.clientId.isSome = true)
    (hactive : s.activity = .active) (now : Double) (limit : TimeSpan) :
    (s.activate now limit).2.isAnnouncement = s.hasElapsed now limit := by
  have hdecided := s.decided_activate now limit
  generalize s.activate now limit = r at hdecided ⊢
  cases hdecided with
  | noClientId hnone => simp [hnone] at hid
  | throttled _ _ hnot => exact hnot.symm
  | announce _ hdue => exact (hdue hactive).symm

/-! ## Lives -/

/-- What can be done to a session. -/
inductive Operation where
  /-- The service assigns an id. -/
  | observe (id : String)
  /-- The session is asked whether to announce, at a time and with a limit. -/
  | activate (now : Double) (limit : TimeSpan)
  /-- The service says which client is active. -/
  | heed (state : ActiveClientState)
  /-- The address of the account has been looked up. -/
  | resolveEmail (email : String)
  /-- The connection starts over. -/
  | reset

namespace Operation

/-- The session after an operation. -/
def apply (s : Session) : Operation → Session
  | .observe id => s.observe id
  | .activate now limit => (s.activate now limit).1
  | .heed state => s.heed state
  | .resolveEmail email => s.resolveEmail email
  | .reset => fresh

/-- The answer to an operation that is a question. -/
def answer? (s : Session) : Operation → Option Activation
  | .activate now limit => some (s.activate now limit).2
  | _ => none

/-- Whether an operation starts the connection over. -/
def isReset : Operation → Bool
  | .reset => true
  | _ => false

/-- The id that an operation brings. -/
def observed? : Operation → Option String
  | .observe id => some id
  | _ => none

/-- The address that an operation brings. -/
def resolved? : Operation → Option String
  | .resolveEmail email => some email
  | _ => none

/-- Whether an operation leaves an announcement standing: the connection does not start over,
and nobody says that this client is not the active one. -/
def keepsStanding : Operation → Bool
  | .reset => false
  | .heed .noActive => false
  | .heed .otherActive => false
  | _ => true

end Operation

/-- A fresh session after a life. -/
def after (life : List Operation) : Session := life.foldl Operation.apply fresh

/-- The answers that a session gives in a life, in order. -/
def answers : Session → List Operation → List Activation
  | _, [] => []
  | s, op :: rest => (op.answer? s).toList ++ (op.apply s).answers rest

/-- The operations since the connection last started over. -/
def sinceReset (life : List Operation) : List Operation := life.rtakeWhile fun op => !op.isReset

/-- The id that was assigned last since then. -/
def lastObserved (life : List Operation) : Option String :=
  ((sinceReset life).filterMap Operation.observed?).getLast?

/-- The address that was looked up last since then. -/
def lastResolved (life : List Operation) : Option String :=
  ((sinceReset life).filterMap Operation.resolved?).getLast?

theorem after_snoc (life : List Operation) (op : Operation) :
    after (life ++ [op]) = op.apply (after life) := by
  rw [after, after, List.foldl_append, List.foldl_cons, List.foldl_nil]

theorem after_append (life later : List Operation) :
    after (life ++ later) = later.foldl Operation.apply (after life) := by
  rw [after, after, List.foldl_append]

/-- What is brought last in a longer life. -/
theorem getLast?_sinceReset_snoc (brought? : Operation → Option String) (life : List Operation)
    (op : Operation) :
    ((sinceReset (life ++ [op])).filterMap brought?).getLast? =
      if op.isReset then none
      else (brought? op).or ((sinceReset life).filterMap brought?).getLast? := by
  rw [sinceReset, List.rtakeWhile_concat]
  cases hreset : op.isReset with
  | true => simp
  | false => cases hop : brought? op <;> simp [sinceReset, hop]

/-! ## What a session knows -/

theorem apply_clientId (s : Session) (op : Operation) :
    (op.apply s).clientId = if op.isReset then none else op.observed?.or s.clientId := by
  cases op with
  | activate now limit =>
    have hdecided := s.decided_activate now limit
    rw [Operation.apply]
    generalize s.activate now limit = r at hdecided ⊢
    cases hdecided <;> rfl
  | _ => rfl

theorem apply_email (s : Session) (op : Operation) :
    (op.apply s).email = if op.isReset then none else op.resolved?.or s.email := by
  cases op with
  | activate now limit =>
    have hdecided := s.decided_activate now limit
    rw [Operation.apply]
    generalize s.activate now limit = r at hdecided ⊢
    cases hdecided <;> rfl
  | _ => rfl

/-- A session has the id that was assigned last. -/
theorem clientId_after (life : List Operation) : (after life).clientId = lastObserved life := by
  induction life using List.reverseRec with
  | nil => rfl
  | append_singleton life op ih =>
    rw [after_snoc, apply_clientId, ih, lastObserved, lastObserved, getLast?_sinceReset_snoc]

/-- An id is held until the connection starts over. -/
theorem isSome_clientId_foldl {s : Session} (h : s.clientId.isSome = true) {life : List Operation}
    (hlife : ∀ op ∈ life, op.isReset = false) :
    (life.foldl Operation.apply s).clientId.isSome = true := by
  induction life generalizing s with
  | nil => exact h
  | cons op rest ih =>
    refine ih ?_ fun op' hop' => hlife op' (List.mem_cons_of_mem _ hop')
    rw [apply_clientId, hlife op List.mem_cons_self]
    cases hop : op.observed? <;> simp [h]

/-- A session has the address that was looked up last. -/
theorem email_after (life : List Operation) : (after life).email = lastResolved life := by
  induction life using List.reverseRec with
  | nil => rfl
  | append_singleton life op ih =>
    rw [after_snoc, apply_email, ih, lastResolved, lastResolved, getLast?_sinceReset_snoc]

/-- An id that a session has was assigned to it. -/
theorem mem_of_clientId_after {life : List Operation} {id : String}
    (h : (after life).clientId = some id) : .observe id ∈ life := by
  rw [clientId_after] at h
  obtain ⟨op, hop, hid⟩ := List.mem_filterMap.mp (List.mem_of_getLast? h)
  have hmem : op ∈ life := (List.rtakeWhile_suffix _ life).subset hop
  cases op with
  | observe assigned =>
    cases hid
    exact hmem
  | _ => cases hid

/-- The activity of a session is what was claimed or what the service has said, if it is
anything. -/
theorem activity_after (life : List Operation) :
    (after life).activity = .unknown ∨
      ((after life).activity = .active ∧ ∃ now limit, .activate now limit ∈ life) ∨
      ∃ state, .heed state ∈ life ∧ (after life).activity = .ofRemote state := by
  induction life using List.reverseRec with
  | nil => exact Or.inl rfl
  | append_singleton life op ih =>
    have hlast : op ∈ life ++ [op] := List.mem_append_right _ (List.mem_singleton_self op)
    -- what came before is still there, unless the operation changes the activity
    have hearlier : ∀ {s : Session}, s.activity = (after life).activity →
        s.activity = .unknown ∨
          (s.activity = .active ∧ ∃ now limit, .activate now limit ∈ life ++ [op]) ∨
          ∃ state, .heed state ∈ life ++ [op] ∧ s.activity = .ofRemote state := by
      intro s hs
      rw [hs]
      rcases ih with hunknown | ⟨hactive, now, limit, hmem⟩ | ⟨state, hmem, hstate⟩
      · exact Or.inl hunknown
      · exact Or.inr (Or.inl ⟨hactive, now, limit, List.mem_append_left _ hmem⟩)
      · exact Or.inr (Or.inr ⟨state, List.mem_append_left _ hmem, hstate⟩)
    rw [after_snoc]
    cases op with
    | observe id => exact hearlier rfl
    | resolveEmail email => exact hearlier rfl
    | reset => exact Or.inl rfl
    | heed state => exact Or.inr (Or.inr ⟨state, hlast, rfl⟩)
    | activate now limit =>
      have hdecided := (after life).decided_activate now limit
      rw [Operation.apply]
      generalize (after life).activate now limit = r at hdecided ⊢
      cases hdecided with
      | announce => exact Or.inr (Or.inl ⟨rfl, now, limit, hlast⟩)
      | _ => exact hearlier rfl

/-! ## What an announcement leaves behind -/

/-- An announcement of a time stands: nothing has come since then that takes it back. -/
structure Standing (time : Double) (s : Session) : Prop where
  clientId : s.clientId.isSome = true
  activity : s.activity = .active
  lastActive : s.lastActive = time

section Standing
variable {time : Double} {s : Session}

theorem standing_of_announcement {now : Double} {limit : TimeSpan}
    (h : (s.activate now limit).2.isAnnouncement = true) :
    Standing now (s.activate now limit).1 := by
  have hdecided := s.decided_activate now limit
  generalize s.activate now limit = r at h hdecided ⊢
  cases hdecided with
  | announce hid _ => exact ⟨by simp [hid], rfl, rfl⟩
  | _ => cases h

/-- An announcement stands until it is taken back or made anew. -/
theorem Standing.apply (h : Standing time s) {op : Operation} (hop : op.keepsStanding = true)
    (hanswer : ∀ a ∈ op.answer? s, a.isAnnouncement = false) : Standing time (op.apply s) := by
  cases op with
  | observe id => exact ⟨rfl, h.activity, h.lastActive⟩
  | resolveEmail email => exact ⟨h.clientId, h.activity, h.lastActive⟩
  | reset => cases hop
  | heed state =>
    cases state with
    | isActive => exact ⟨h.clientId, rfl, h.lastActive⟩
    | _ => cases hop
  | activate now limit =>
    have hnot := hanswer _ rfl
    have hdecided := s.decided_activate now limit
    rw [Operation.apply]
    generalize s.activate now limit = r at hnot hdecided ⊢
    cases hdecided with
    | announce _ _ => cases hnot
    | _ => exact h

theorem Standing.life (h : Standing time s) {life : List Operation}
    (hlife : ∀ op ∈ life, op.keepsStanding = true)
    (hanswers : ∀ a ∈ s.answers life, a.isAnnouncement = false) :
    Standing time (life.foldl Operation.apply s) := by
  induction life generalizing s with
  | nil => exact h
  | cons op rest ih =>
    rw [answers] at hanswers
    have hfirst := h.apply (hlife op List.mem_cons_self) fun a ha =>
      hanswers a (List.mem_append_left _ (Option.mem_toList.mpr ha))
    exact ih hfirst (fun op' hop' => hlife op' (List.mem_cons_of_mem _ hop'))
      fun a ha => hanswers a (List.mem_append_right _ ha)

/-- While an announcement stands, the next one has to wait until the limit has passed. -/
theorem Standing.isAnnouncement (h : Standing time s) (now : Double) (limit : TimeSpan) :
    (s.activate now limit).2.isAnnouncement = limit.inSeconds.below (now.sub time) := by
  rw [isAnnouncement_activate h.clientId h.activity, hasElapsed, h.lastActive]

end Standing

/-! ## Announcements within the limit -/

/-- If both of two operations are questions, the second one is asked before the limit has
passed. -/
def Operation.Near : Operation → Operation → Prop
  | .activate now₁ _, .activate now₂ limit₂ => limit₂.inSeconds.below (now₂.sub now₁) = false
  | _, _ => True

theorem answers_append (s : Session) (life later : List Operation) :
    s.answers (life ++ later) = s.answers life ++ (life.foldl Operation.apply s).answers later := by
  induction life generalizing s with
  | nil => rfl
  | cons op rest ih =>
    rw [List.cons_append, answers, answers, ih, List.append_assoc]
    rfl

/-- Where no question is asked, there is no answer. -/
theorem answers_eq_nil (s : Session) {life : List Operation}
    (h : ∀ op ∈ life, ∀ s, op.answer? s = none) : s.answers life = [] := by
  induction life generalizing s with
  | nil => rfl
  | cons op rest ih =>
    rw [answers, h op List.mem_cons_self]
    exact ih _ fun op' hop' => h op' (List.mem_cons_of_mem _ hop')

/-- Who was told to announce has an id after it, unless the connection starts over. -/
theorem isSome_clientId_of_answer {s : Session} {life : List Operation}
    (hlife : ∀ op ∈ life, op.isReset = false) {a : Activation} (ha : a ∈ s.answers life)
    (hannounce : a.isAnnouncement = true) :
    (life.foldl Operation.apply s).clientId.isSome = true := by
  induction life generalizing s with
  | nil => cases ha
  | cons op rest ih =>
    have hrest : ∀ op' ∈ rest, op'.isReset = false :=
      fun op' hop' => hlife op' (List.mem_cons_of_mem _ hop')
    rcases List.mem_append.mp ha with ha | ha
    · cases op with
      | activate now limit =>
        cases List.mem_singleton.mp ha
        exact isSome_clientId_foldl (standing_of_announcement hannounce).clientId hrest
      | _ => cases ha
    · exact ih hrest ha

/-- While an announcement stands, there is no other one before the limit has passed. -/
theorem Standing.answers {s : Session} {now₁ : Double} {limit₁ : TimeSpan} (h : Standing now₁ s)
    {life : List Operation} (hlife : ∀ op ∈ life, op.keepsStanding = true)
    (hnear : ∀ op ∈ life, (Operation.activate now₁ limit₁).Near op) :
    ∀ a ∈ s.answers life, a.isAnnouncement = false := by
  induction life generalizing s with
  | nil =>
    intro a ha
    cases ha
  | cons op rest ih =>
    have hanswer : ∀ a ∈ op.answer? s, a.isAnnouncement = false := by
      intro a ha
      cases op with
      | activate now₂ limit₂ =>
        cases ha
        rw [h.isAnnouncement]
        exact hnear _ List.mem_cons_self
      | _ => cases ha
    intro a ha
    rcases List.mem_append.mp ha with ha | ha
    · exact hanswer a (Option.mem_toList.mp ha)
    · refine ih (h.apply (hlife op List.mem_cons_self) hanswer) ?_ ?_ a ha
      · exact fun op' hop' => hlife op' (List.mem_cons_of_mem _ hop')
      · exact fun op' hop' => hnear op' (List.mem_cons_of_mem _ hop')

/-- If no announcement is taken back and the limit does not pass, there is at most one. -/
theorem countP_isAnnouncement_le_one (s : Session) {life : List Operation}
    (hlife : ∀ op ∈ life, op.keepsStanding = true) (hnear : life.Pairwise Operation.Near) :
    (s.answers life).countP Activation.isAnnouncement ≤ 1 := by
  induction life generalizing s with
  | nil => exact Nat.zero_le 1
  | cons op rest ih =>
    have hrest : ∀ op' ∈ rest, op'.keepsStanding = true :=
      fun op' hop' => hlife op' (List.mem_cons_of_mem _ hop')
    have hlater := ih (op.apply s) hrest (List.pairwise_cons.mp hnear).2
    rw [Session.answers, List.countP_append]
    cases op with
    | activate now limit =>
      cases hfirst : (s.activate now limit).2.isAnnouncement with
      | false => simpa [Operation.answer?, hfirst] using hlater
      | true =>
        have hnone := (standing_of_announcement hfirst).answers hrest
          (List.pairwise_cons.mp hnear).1
        have hzero : ((s.activate now limit).1.answers rest).countP Activation.isAnnouncement = 0 :=
          List.countP_eq_zero.mpr fun a ha => by simp [hnone a ha]
        simp [Operation.answer?, Operation.apply, hfirst, hzero]
    | _ => simpa [Operation.answer?] using hlater

/-! ## What a life comes to -/

/-- How a session answers at the end of a life. -/
structure Negotiated (life : List Operation) : Prop where
  /-- There is no id to announce just when none has been assigned since the connection started
  over. -/
  noClientId : ∀ now limit,
    ((after life).activate now limit).2 = .noClientId ↔ lastObserved life = none
  /-- Unless the answer is to announce, nothing at all changes. -/
  unchanged : ∀ now limit, ((after life).activate now limit).2.isAnnouncement = false →
    ((after life).activate now limit).1 = after life
  /-- What is announced is the id that was assigned last and the address that was looked up
  last, and the session is active from then on. -/
  announced : ∀ now limit id email, ((after life).activate now limit).2 = .announce id email →
    lastObserved life = some id ∧ lastResolved life = email ∧
      ((after life).activate now limit).1 =
        { after life with activity := .active, lastActive := now }
  /-- After an announcement, and unless it was taken back, the next one comes just when more than
  the limit has passed since then, whatever else happens in between. -/
  apart : ∀ before now₁ limit₁ between, life = before ++ .activate now₁ limit₁ :: between →
    ((after before).activate now₁ limit₁).2.isAnnouncement = true →
    (∀ op ∈ between, op.keepsStanding = true) →
    (∀ a ∈ ((after before).activate now₁ limit₁).1.answers between, a.isAnnouncement = false) →
    ∀ now₂ limit₂, ((after life).activate now₂ limit₂).2.isAnnouncement =
      limit₂.inSeconds.below (now₂.sub now₁)

/-- At the end of every life, a session announces what it was told last, and not again before
the limit has passed. -/
theorem negotiated (life : List Operation) : Negotiated life where
  noClientId := by
    intro now limit
    rw [← clientId_after]
    have hdecided := (after life).decided_activate now limit
    generalize (after life).activate now limit = r at hdecided ⊢
    cases hdecided with
    | noClientId hnone => simp [hnone]
    | throttled hid _ _ => simp [hid]
    | announce hid _ => simp [hid]
  unchanged := by
    intro now limit hnot
    have hdecided := (after life).decided_activate now limit
    generalize (after life).activate now limit = r at hnot hdecided ⊢
    cases hdecided with
    | announce _ _ => cases hnot
    | _ => rfl
  announced := by
    intro now limit id email hannounce
    rw [← clientId_after, ← email_after]
    have hdecided := (after life).decided_activate now limit
    generalize (after life).activate now limit = r at hannounce hdecided ⊢
    cases hdecided with
    | announce hid _ =>
      cases hannounce
      exact ⟨hid, rfl, rfl⟩
    | _ => cases hannounce
  apart := by
    rintro before now₁ limit₁ between rfl hfirst hbetween hanswers now₂ limit₂
    rw [after_append, List.foldl_cons]
    exact ((standing_of_announcement hfirst).life hbetween hanswers).isAnnouncement now₂ limit₂

example : answers fresh
    [.activate (.ofInt 990) (.ofSeconds 60), .observe "a", .activate (.ofInt 1000) (.ofSeconds 60),
     .observe "b", .heed .isActive, .activate (.ofInt 1060) (.ofSeconds 60),
     .activate (.ofInt 1061) (.ofSeconds 60)] =
    [.noClientId, .announce "a" none, .throttled, .announce "b" none] := by decide +kernel

end Session

end LiteChat
