import LiteChat.Proofs.Client.Aside

/-!
# The lane of a conversation

The chat messages of a conversation are in one outbox at most (`Engine.Wired`), so what is
under way for it is one message in hand and a row of messages that wait: its *lane*
(`Engine.lane`).  The directory, the numbers of the outboxes and the outboxes that have
come to their end need not be looked at any more after this module, which says what every
action makes of every lane: posting puts a message at the end of one lane (`Wired.post`), a
move of an outbox makes one step on one lane (`Wired.moveOutbox`), and nothing else changes
a lane at all.
-/

namespace LiteChat

/-- The message in hand, with how far it is, and the messages that wait. -/
structure Lane where
  current : Option (Job × Exchange)
  queue : List Job

/-- The lane on which nothing is. -/
def Lane.empty : Lane := ⟨none, []⟩

/-- The lane with one more message at its end. -/
def Lane.put (l : Lane) (job : Job) : Lane := { l with queue := l.queue ++ [job] }

/-- The lane in an outbox. -/
def Outbox.lane (o : Outbox) : Lane := ⟨o.current, o.queue⟩

/-- The lane that a step of an outbox leaves behind. -/
def Outbox.Result.lane (r : Outbox.Result) : Lane := (r.outbox.map Outbox.lane).getD .empty

/-- A step leaves an outbox of the same conversation, or none if there is nothing left to do
and nothing can be posted to it any more. -/
theorem Outbox.step_outbox (o : Outbox) (c : Client) (isHeld : Bool) :
    (∃ o', (o.step c isHeld).outbox = some o' ∧ o'.conversation = o.conversation ∧
        o'.isOpen = o.isOpen) ∨
      ((o.step c isHeld).outbox = none ∧ o.isOpen = false) := by
  unfold step
  split
  · dsimp only
    split
    all_goals exact Or.inl ⟨_, rfl, rfl, rfl⟩
  · split
    · split
      all_goals exact Or.inl ⟨_, rfl, rfl, rfl⟩
    · split
      · exact Or.inl ⟨_, rfl, rfl, rfl⟩
      · rename_i hopen
        exact Or.inr ⟨rfl, Bool.not_eq_true _ ▸ hopen⟩

namespace Engine

/-- The lane of a conversation. -/
def lane (e : Engine) (c : String) : Lane :=
  ((e.outboxes.find? fun p => decide (p.2.conversation = c)).map fun p => p.2.lane).getD .empty

/-- What the directory and the outboxes can be relied on for. -/
structure Wired (e : Engine) : Prop where
  sorted : Keyed.Sorted e.outboxes
  /-- The next number is free. -/
  fresh : ∀ p ∈ e.outboxes, p.1 < e.nextOutbox
  /-- A conversation has one outbox at most. -/
  apart : ∀ p ∈ e.outboxes, ∀ q ∈ e.outboxes, p.2.conversation = q.2.conversation → p = q
  /-- While there is a caller, the directory has every outbox. -/
  listed : e.hasCaller = true → ∀ c n,
    Keyed.get? c e.directory = some n ↔ ∃ o, (n, o) ∈ e.outboxes ∧ o.conversation = c
  /-- While there is a caller, every outbox takes more messages. -/
  isOpen : e.hasCaller = true → ∀ p ∈ e.outboxes, p.2.isOpen = true

section Lane
variable {e e' : Engine} {n : Nat} {o : Outbox} {c : String}

theorem lane_eq_empty (h : ∀ p ∈ e.outboxes, p.2.conversation ≠ c) : e.lane c = .empty := by
  have hnone : (e.outboxes.find? fun p => decide (p.2.conversation = c)) = none :=
    List.find?_eq_none.mpr fun p hp => by simpa using h p hp
  rw [lane, hnone]
  rfl

/-- What is on a lane is in an outbox. -/
theorem lane_cases (e : Engine) (c : String) : e.lane c = .empty ∨
    ∃ n o, (n, o) ∈ e.outboxes ∧ o.conversation = c ∧ e.lane c = o.lane := by
  rw [lane]
  cases hfind : e.outboxes.find? fun p => decide (p.2.conversation = c) with
  | none => exact Or.inl rfl
  | some p =>
    obtain ⟨n, o⟩ := p
    refine Or.inr ⟨n, o, List.mem_of_find?_eq_some hfind, ?_, rfl⟩
    simpa using List.find?_some hfind

theorem Wired.lane_eq (hw : e.Wired) (h : (n, o) ∈ e.outboxes) :
    e.lane o.conversation = o.lane := by
  cases hfind : e.outboxes.find? fun p => decide (p.2.conversation = o.conversation) with
  | none => simpa using List.find?_eq_none.mp hfind _ h
  | some q =>
    have hq : q.2.conversation = o.conversation := by simpa using List.find?_some hfind
    rw [lane, hfind, hw.apart q (List.mem_of_find?_eq_some hfind) _ h hq]
    rfl

/-- The lane of a conversation depends on its outboxes only. -/
theorem Wired.lane_congr (hw : e.Wired) (hw' : e'.Wired)
    (h : ∀ p : Nat × Outbox, p.2.conversation = c → (p ∈ e'.outboxes ↔ p ∈ e.outboxes)) :
    e'.lane c = e.lane c := by
  by_cases hc : ∃ p ∈ e.outboxes, p.2.conversation = c
  · obtain ⟨p, hp, rfl⟩ := hc
    rw [hw.lane_eq hp, hw'.lane_eq ((h p rfl).mpr hp)]
  · have hnone : ∀ p ∈ e.outboxes, p.2.conversation ≠ c := fun p hp hp' => hc ⟨p, hp, hp'⟩
    rw [lane_eq_empty hnone, lane_eq_empty fun p hp hp' => hnone p ((h p hp').mp hp) hp']

theorem Wired.of_sameDesk (hw : e.Wired) (h : e.SameDesk e') : e'.Wired where
  sorted := h.outboxes_eq ▸ hw.sorted
  fresh := by
    rw [h.outboxes_eq, h.nextOutbox_eq]
    exact hw.fresh
  apart := by
    rw [h.outboxes_eq]
    exact hw.apart
  listed := by
    rw [h.hasCaller_eq, h.outboxes_eq, h.directory_eq]
    exact hw.listed
  isOpen := by
    rw [h.hasCaller_eq, h.outboxes_eq]
    exact hw.isOpen

theorem SameDesk.lane_eq (h : e.SameDesk e') (c : String) : e'.lane c = e.lane c := by
  rw [lane, lane, h.outboxes_eq]

end Lane

/-! ## An outbox in place of another -/

section Replace
variable {e : Engine} {n : Nat} {o o' : Outbox}

/-- Another outbox in the place of the one of a number. -/
def replaceOutbox (e : Engine) (n : Nat) (o : Outbox) : Engine :=
  { e with outboxes := Keyed.insert n o e.outboxes }

theorem mem_replaceOutbox_iff (hw : e.Wired) {p : Nat × Outbox} :
    p ∈ (e.replaceOutbox n o').outboxes ↔ p = (n, o') ∨ (p.1 ≠ n ∧ p ∈ e.outboxes) := by
  obtain ⟨j, b⟩ := p
  rw [replaceOutbox, Keyed.mem_insert_iff hw.sorted, Prod.mk.injEq]

theorem Wired.eq_of_number (hw : e.Wired) (ho : (n, o) ∈ e.outboxes) {p : Nat × Outbox}
    (hp : p ∈ e.outboxes) (h : p.1 = n) : p = (n, o) := by
  obtain ⟨j, b⟩ := p
  subst h
  have hget := (Keyed.get?_eq_some_iff hw.sorted).mpr ho
  rw [(Keyed.get?_eq_some_iff hw.sorted).mpr hp] at hget
  rw [Option.some.inj hget]

theorem Wired.replaceOutbox (hw : e.Wired) (ho : (n, o) ∈ e.outboxes)
    (hc : o'.conversation = o.conversation) (hopen : e.hasCaller = true → o'.isOpen = true) :
    (e.replaceOutbox n o').Wired := by
  -- an outbox of this conversation is the one that was there
  have hother : ∀ p ∈ e.outboxes, p.1 ≠ n → p.2.conversation ≠ o'.conversation :=
    fun p hp hne heq => hne (congrArg Prod.fst (hw.apart p hp _ ho (heq.trans hc)))
  refine ⟨Keyed.sorted_insert hw.sorted n o', ?_, ?_, ?_, ?_⟩
  · intro p hp
    rcases (mem_replaceOutbox_iff hw).mp hp with rfl | ⟨-, hp⟩
    · have hlt : n < e.nextOutbox := hw.fresh _ ho
      exact hlt
    · exact hw.fresh p hp
  · intro p hp q hq hpq
    rcases (mem_replaceOutbox_iff hw).mp hp with rfl | ⟨hpn, hp⟩
    · rcases (mem_replaceOutbox_iff hw).mp hq with rfl | ⟨hqn, hq⟩
      · rfl
      · exact absurd hpq.symm (hother q hq hqn)
    · rcases (mem_replaceOutbox_iff hw).mp hq with rfl | ⟨-, hq⟩
      · exact absurd hpq (hother p hp hpn)
      · exact hw.apart p hp q hq hpq
  · intro hcaller c k
    refine (hw.listed hcaller c k).trans ?_
    constructor
    · rintro ⟨b, hb, rfl⟩
      by_cases hk : k = n
      · subst hk
        cases hw.eq_of_number ho hb rfl
        exact ⟨o', (mem_replaceOutbox_iff hw).mpr (Or.inl rfl), hc⟩
      · exact ⟨b, (mem_replaceOutbox_iff hw).mpr (Or.inr ⟨hk, hb⟩), rfl⟩
    · rintro ⟨b, hb, rfl⟩
      rcases (mem_replaceOutbox_iff hw).mp hb with hb | ⟨-, hb⟩
      · cases hb
        exact ⟨o, ho, hc.symm⟩
      · exact ⟨b, hb, rfl⟩
  · intro hcaller p hp
    rcases (mem_replaceOutbox_iff hw).mp hp with rfl | ⟨-, hp⟩
    · exact hopen hcaller
    · exact hw.isOpen hcaller p hp

theorem Wired.lane_replaceOutbox (hw : e.Wired) (ho : (n, o) ∈ e.outboxes)
    (hc : o'.conversation = o.conversation) (hopen : e.hasCaller = true → o'.isOpen = true)
    (c : String) :
    (e.replaceOutbox n o').lane c = if c = o.conversation then o'.lane else e.lane c := by
  have hw' := hw.replaceOutbox ho hc hopen
  split
  · rename_i h
    rw [h, ← hc]
    exact hw'.lane_eq ((mem_replaceOutbox_iff hw).mpr (Or.inl rfl))
  · rename_i h
    refine hw.lane_congr hw' fun p hp => ?_
    rw [mem_replaceOutbox_iff hw]
    constructor
    · rintro (rfl | ⟨-, hp⟩)
      · exact absurd (hp.symm.trans hc) h
      · exact hp
    · intro hmem
      refine Or.inr ⟨fun hn => ?_, hmem⟩
      rw [hw.eq_of_number ho hmem hn] at hp
      exact h hp.symm

/-- A new outbox of a number that is free. -/
def addOutbox (e : Engine) (o : Outbox) : Engine :=
  { e with
    outboxes := Keyed.insert e.nextOutbox o e.outboxes
    directory := Keyed.insert o.conversation e.nextOutbox e.directory
    nextOutbox := e.nextOutbox + 1 }

theorem mem_addOutbox_iff (hw : e.Wired) {p : Nat × Outbox} :
    p ∈ (e.addOutbox o).outboxes ↔ p = (e.nextOutbox, o) ∨ p ∈ e.outboxes := by
  have hmem : p ∈ (e.addOutbox o).outboxes ↔ p ∈ (e.replaceOutbox e.nextOutbox o).outboxes := .rfl
  rw [hmem, mem_replaceOutbox_iff hw]
  refine or_congr_right (and_iff_right_of_imp fun hp => ?_)
  exact (hw.fresh p hp).ne

theorem Wired.addOutbox (hw : e.Wired) (hnone : ∀ p ∈ e.outboxes, p.2.conversation ≠ o.conversation)
    (hopen : o.isOpen = true) : (e.addOutbox o).Wired := by
  refine ⟨Keyed.sorted_insert hw.sorted _ _, ?_, ?_, ?_, ?_⟩
  · intro p hp
    rcases (mem_addOutbox_iff hw).mp hp with rfl | hp
    · exact Nat.lt_succ_self e.nextOutbox
    · exact Nat.lt_succ_of_lt (hw.fresh p hp)
  · intro p hp q hq hpq
    rcases (mem_addOutbox_iff hw).mp hp with rfl | hp
    · rcases (mem_addOutbox_iff hw).mp hq with rfl | hq
      · rfl
      · exact absurd hpq.symm (hnone q hq)
    · rcases (mem_addOutbox_iff hw).mp hq with rfl | hq
      · exact absurd hpq (hnone p hp)
      · exact hw.apart p hp q hq hpq
  · intro hcaller c k
    rw [Engine.addOutbox]
    -- the directory has the new number for this conversation and the old ones for the others
    by_cases hc : c = o.conversation
    · subst hc
      rw [Keyed.get?_insert_self]
      constructor
      · intro hk
        cases hk
        exact ⟨o, (mem_addOutbox_iff hw).mpr (Or.inl rfl), rfl⟩
      · rintro ⟨b, hb, hbc⟩
        rcases (mem_addOutbox_iff hw).mp hb with hb | hb
        · rw [(Prod.mk.inj hb).1]
        · exact absurd hbc (hnone _ hb)
    · rw [Keyed.get?_insert_of_ne hc, hw.listed hcaller c k]
      constructor
      · rintro ⟨b, hb, hbc⟩
        exact ⟨b, (mem_addOutbox_iff hw).mpr (Or.inr hb), hbc⟩
      · rintro ⟨b, hb, hbc⟩
        rcases (mem_addOutbox_iff hw).mp hb with hb | hb
        · rw [(Prod.mk.inj hb).2] at hbc
          exact absurd hbc.symm hc
        · exact ⟨b, hb, hbc⟩
  · intro hcaller p hp
    rcases (mem_addOutbox_iff hw).mp hp with rfl | hp
    · exact hopen
    · exact hw.isOpen hcaller p hp

theorem Wired.lane_addOutbox (hw : e.Wired)
    (hnone : ∀ p ∈ e.outboxes, p.2.conversation ≠ o.conversation) (hopen : o.isOpen = true)
    (c : String) :
    (e.addOutbox o).lane c = if c = o.conversation then o.lane else e.lane c := by
  have hw' := hw.addOutbox hnone hopen
  split
  · rename_i h
    rw [h]
    exact hw'.lane_eq ((mem_addOutbox_iff hw).mpr (Or.inl rfl))
  · rename_i h
    refine hw.lane_congr hw' fun p hp => ?_
    rw [mem_addOutbox_iff hw]
    refine or_iff_right fun hp' => ?_
    subst hp'
    exact h hp.symm

/-- The engine without the outbox of a number. -/
def eraseOutbox (e : Engine) (n : Nat) : Engine :=
  { e with outboxes := Keyed.erase n e.outboxes }

/-- An outbox that has come to its end is taken away, when there is no caller any more. -/
theorem Wired.eraseOutbox (hw : e.Wired) (hcaller : e.hasCaller = false) :
    (e.eraseOutbox n).Wired where
  sorted := Keyed.sorted_erase hw.sorted n
  fresh := fun p hp => hw.fresh p (Keyed.mem_erase_iff.mp hp).2
  apart := fun p hp q hq =>
    hw.apart p (Keyed.mem_erase_iff.mp hp).2 q (Keyed.mem_erase_iff.mp hq).2
  listed := fun h => absurd (hcaller.symm.trans h) Bool.false_ne_true
  isOpen := fun h => absurd (hcaller.symm.trans h) Bool.false_ne_true

theorem Wired.lane_eraseOutbox (hw : e.Wired) (ho : (n, o) ∈ e.outboxes)
    (hcaller : e.hasCaller = false) (c : String) :
    (e.eraseOutbox n).lane c = if c = o.conversation then .empty else e.lane c := by
  split
  · rename_i h
    refine lane_eq_empty fun p hp hpc => ?_
    obtain ⟨hne, hp⟩ := Keyed.mem_erase_iff.mp hp
    exact hne (congrArg Prod.fst (hw.apart p hp _ ho (hpc.trans h)))
  · rename_i h
    refine hw.lane_congr (hw.eraseOutbox hcaller) fun p hp => ?_
    obtain ⟨j, b⟩ := p
    refine Keyed.mem_erase_iff.trans (and_iff_right_of_imp fun hmem hj => ?_)
    cases hw.eq_of_number ho hmem hj
    exact h hp.symm

end Replace

/-! ## What actions make of lanes -/

section Actions
variable {e : Engine}

theorem wired_new (config : ClientConfig) (clock : Clock) : (Engine.new config clock).Wired where
  sorted := List.Pairwise.nil
  fresh := fun p hp => absurd hp List.not_mem_nil
  apart := fun p hp => absurd hp List.not_mem_nil
  listed := by
    intro _ c n
    constructor
    · intro h
      cases h
    · rintro ⟨o, ho, -⟩
      cases ho
  isOpen := fun _ p hp => absurd hp List.not_mem_nil

theorem Wired.outboxOf?_eq_some_iff (hw : e.Wired) (hcaller : e.hasCaller = true) {c : String}
    {n : Nat} {o : Outbox} :
    e.outboxOf? c = some (n, o) ↔ (n, o) ∈ e.outboxes ∧ o.conversation = c := by
  constructor
  · intro h
    obtain ⟨k, hk, h⟩ := Option.bind_eq_some_iff.mp h
    obtain ⟨b, hb, h⟩ := Option.map_eq_some_iff.mp h
    cases h
    obtain ⟨b', hb', hc⟩ := (hw.listed hcaller c n).mp hk
    have hmem := Keyed.mem_of_get?_eq_some hb
    cases hw.eq_of_number hb' hmem rfl
    exact ⟨hmem, hc⟩
  · rintro ⟨ho, hc⟩
    rw [outboxOf?, (hw.listed hcaller c n).mpr ⟨o, ho, hc⟩, Option.bind_some,
      (Keyed.get?_eq_some_iff hw.sorted).mpr ho, Option.map_some]

section Post
variable {c : String} {message : OutgoingMessage} {requestId : Nat}

theorem post_of_some {n : Nat} {o : Outbox} (h : e.outboxOf? c = some (n, o)) :
    (e.replaceOutbox n (o.enqueue ⟨e.postings.length, message, requestId⟩)).SameDesk
      (e.post c message requestId) := by
  have h' : outboxOf? { e with postings := e.postings ++ [Posting.new c message requestId] } c =
      some (n, o) := h
  simp only [post, h']
  exact ⟨rfl, rfl, rfl, rfl⟩

theorem post_of_none (h : e.outboxOf? c = none) :
    (e.addOutbox (.new c ⟨e.postings.length, message, requestId⟩)).SameDesk
      (e.post c message requestId) := by
  have h' : outboxOf? { e with postings := e.postings ++ [Posting.new c message requestId] } c =
      none := h
  simp only [post, h']
  exact ⟨rfl, rfl, rfl, rfl⟩

theorem post_postings (e : Engine) (c : String) (message : OutgoingMessage) (requestId : Nat) :
    (e.post c message requestId).postings = e.postings ++ [.new c message requestId] := by
  unfold post
  dsimp only
  split <;> rfl

theorem post_rest (e : Engine) (c : String) (message : OutgoingMessage) (requestId : Nat) :
    (e.post c message requestId).client = e.client ∧
      (e.post c message requestId).errands = e.errands := by
  unfold post
  dsimp only
  split <;> exact ⟨rfl, rfl⟩

end Post

/-- A posted message comes to the end of the lane of its conversation. -/
theorem Wired.post (hw : e.Wired) (hcaller : e.hasCaller = true) (c : String)
    (message : OutgoingMessage) (requestId : Nat) :
    (e.post c message requestId).Wired ∧ ∀ c', (e.post c message requestId).lane c' =
      if c' = c then (e.lane c).put ⟨e.postings.length, message, requestId⟩ else e.lane c' := by
  cases hbox : e.outboxOf? c with
  | some p =>
    obtain ⟨n, o⟩ := p
    obtain ⟨ho, rfl⟩ := (hw.outboxOf?_eq_some_iff hcaller).mp hbox
    have hdesk : (e.replaceOutbox n (o.enqueue ⟨e.postings.length, message, requestId⟩)).SameDesk
        (e.post o.conversation message requestId) := post_of_some hbox
    have hconv : (o.enqueue ⟨e.postings.length, message, requestId⟩).conversation =
        o.conversation := rfl
    have hopen : e.hasCaller = true →
        (o.enqueue ⟨e.postings.length, message, requestId⟩).isOpen = true :=
      fun _ => hw.isOpen hcaller _ ho
    refine ⟨(hw.replaceOutbox ho hconv hopen).of_sameDesk hdesk, fun c' => ?_⟩
    rw [hdesk.lane_eq, hw.lane_replaceOutbox ho hconv hopen, hw.lane_eq ho]
    rfl
  | none =>
    have hnone : ∀ p ∈ e.outboxes, p.2.conversation ≠ c := by
      intro p hp hc
      have hsome := (hw.outboxOf?_eq_some_iff hcaller).mpr ⟨hp, hc⟩
      rw [hbox] at hsome
      cases hsome
    have hdesk : (e.addOutbox (.new c ⟨e.postings.length, message, requestId⟩)).SameDesk
        (e.post c message requestId) := post_of_none hbox
    refine ⟨(hw.addOutbox hnone rfl).of_sameDesk hdesk, fun c' => ?_⟩
    rw [hdesk.lane_eq, hw.lane_addOutbox hnone rfl, lane_eq_empty hnone]
    rfl

/-- When the client is released, the outboxes are closed and keep what they hold. -/
theorem Wired.release (hw : e.Wired) : Wired { e.closeOutboxes with hasCaller := false } where
  sorted := List.pairwise_map.mpr (hw.sorted.imp fun h => h)
  fresh := by
    intro p hp
    obtain ⟨q, hq, rfl⟩ := List.mem_map.mp hp
    exact hw.fresh q hq
  apart := by
    intro p hp q hq hpq
    obtain ⟨p', hp', rfl⟩ := List.mem_map.mp hp
    obtain ⟨q', hq', rfl⟩ := List.mem_map.mp hq
    rw [hw.apart p' hp' q' hq' hpq]
  listed := fun h => absurd h Bool.false_ne_true
  isOpen := fun h => absurd h Bool.false_ne_true

theorem lane_release (e : Engine) (c : String) :
    lane { e.closeOutboxes with hasCaller := false } c = e.lane c := by
  rw [lane, lane, closeOutboxes, List.find?_map]
  dsimp only [Function.comp_def]
  cases e.outboxes.find? fun p => decide (p.2.conversation = c) <;> rfl

theorem moveOutbox_of_some {n : Nat} {o o' : Outbox}
    (h : (o.step e.client e.isHeld).outbox = some o') :
    (e.replaceOutbox n o').SameDesk (e.moveOutbox n o) := by
  simp only [moveOutbox, h]
  split <;> exact ⟨rfl, rfl, rfl, rfl⟩

theorem moveOutbox_of_none {n : Nat} {o : Outbox}
    (h : (o.step e.client e.isHeld).outbox = none) :
    (e.eraseOutbox n).SameDesk (e.moveOutbox n o) := by
  simp only [moveOutbox, h]
  split <;> exact ⟨rfl, rfl, rfl, rfl⟩

/-- The parts that a move of an outbox does not touch, and the client it leaves behind. -/
theorem moveOutbox_rest (e : Engine) (n : Nat) (o : Outbox) :
    (e.moveOutbox n o).client = (o.step e.client e.isHeld).client ∧
      (e.moveOutbox n o).hasCaller = e.hasCaller ∧ (e.moveOutbox n o).listener = e.listener ∧
      (e.moveOutbox n o).errands = e.errands := by
  unfold moveOutbox
  dsimp only
  split <;> exact ⟨rfl, rfl, rfl, rfl⟩

theorem moveOutbox_postings (e : Engine) (n : Nat) (o : Outbox) :
    (e.moveOutbox n o).postings =
      match (o.step e.client e.isHeld).settled with
      | some (ticket, outcome) => e.postings.modify ticket (Posting.settle outcome)
      | none => e.postings := by
  unfold moveOutbox
  dsimp only
  cases (o.step e.client e.isHeld).settled <;> rfl

/-- A move of an outbox is a step on the lane of its conversation. -/
theorem Wired.moveOutbox (hw : e.Wired) {n : Nat} {o : Outbox} (ho : (n, o) ∈ e.outboxes) :
    (e.moveOutbox n o).Wired ∧ ∀ c, (e.moveOutbox n o).lane c =
      if c = o.conversation then (o.step e.client e.isHeld).lane else e.lane c := by
  rcases o.step_outbox e.client e.isHeld with ⟨o', hstep, hconv, hopen⟩ | ⟨hstep, hclosed⟩
  · have hdesk := moveOutbox_of_some (n := n) hstep
    have hopen' : e.hasCaller = true → o'.isOpen = true :=
      fun hcaller => hopen.trans (hw.isOpen hcaller _ ho)
    refine ⟨(hw.replaceOutbox ho hconv hopen').of_sameDesk hdesk, fun c => ?_⟩
    rw [hdesk.lane_eq, hw.lane_replaceOutbox ho hconv hopen', Outbox.Result.lane, hstep]
    rfl
  · have hcaller : e.hasCaller = false := by
      cases h : e.hasCaller with
      | false => rfl
      | true => exact absurd (hclosed.symm.trans (hw.isOpen h _ ho)) Bool.false_ne_true
    have hdesk := moveOutbox_of_none (n := n) hstep
    refine ⟨(hw.eraseOutbox hcaller).of_sameDesk hdesk, fun c => ?_⟩
    rw [hdesk.lane_eq, hw.lane_eraseOutbox ho hcaller, Outbox.Result.lane, hstep]
    rfl

end Actions

end Engine

end LiteChat
