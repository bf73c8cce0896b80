import AtriumPortal.Cast.Steps
import AtriumPortal.Lib.Runs
/-!
# Slots are released once, and only owned slots are published

A slot the cast owns is accounted for by the pending frame or by an in-flight
binding, never by both. As long as a transition to Streaming does not re-arm a
slot frame that was already published, every step keeps this, so a release or a
publication always finds the slot owned. Re-arming such a frame breaks it: the
slot may already be back with the compositor.
-/
open AtriumPortal.Ipc AtriumPortal.Lib.Ledger AtriumPortal.Lib.Runs

namespace AtriumPortal.Cast.StreamData

/-! ## The account -/

/-- What holds a slot owns it, and a slot has one holder. -/
structure Accounted (s : StreamData) : Prop where
  pending_owned : ∀ k d, s.pending = true → s.latest = some (.slot k d) → 0 < s.owned k
  inFlight_owned : ∀ k b, Bound s.transport.slotBindings k b true → 0 < s.owned k
  apart : ∀ k d b, s.pending = true → s.latest = some (.slot k d) → ¬ Bound s.transport.slotBindings k b true

/-- Every release and every publication was of an owned slot, and only a buffer
removal or the teardown released a slot the consumer was reading. -/
structure Lawful (log : List Event) : Prop where
  sound : Sound (entries log)
  early : ∀ id k c, Event.released id k true c ∈ log → c = .removed ∨ c = .teardown

theorem owned_cons_released {log : List Event} {id k j : Nat} {held : Bool} {c : Cause}
    (hne : j ≠ k) (h : 0 < balance (entries log) j) :
    0 < balance (entries (.released id k held c :: log)) j := by
  simpa [balance_take, hne.symm] using h

theorem Lawful.released {log : List Event} (h : Lawful log) (id : Nat) {k : Nat} (hk : 0 < balance (entries log) k)
    {held : Bool} {c : Cause} (hc : held = true → c = .removed ∨ c = .teardown) :
    Lawful (.released id k held c :: log) where
  sound := ⟨hk, h.sound⟩
  early := by
    intro id' k' c' hm
    rcases List.mem_cons.1 hm with he | hm
    · cases he; exact hc rfl
    · exact h.early id' k' c' hm

/-- An event that is no release and takes nothing that is not owned. -/
theorem Lawful.cons {log : List Event} (h : Lawful log) {e : Event} (hs : Sound (entries (e :: log)))
    (hne : ∀ id k held c, e ≠ .released id k held c) : Lawful (e :: log) where
  sound := hs
  early := by
    intro id k c hm
    rcases List.mem_cons.1 hm with he | hm
    · exact absurd he.symm (hne id k true c)
    · exact h.early id k c hm

theorem sound_delivered {log : List Event} (h : Sound (entries log)) (frame : StreamFrame) (accepted : Bool) :
    Sound (entries (.delivered frame accepted :: log)) := by
  cases hs : frame.slot with
  | none => rw [entries_delivered_none hs]; exact h
  | some k => rw [entries_delivered_some hs]; exact h

theorem owned_delivered {log : List Event} {j : Nat} (h : 0 < balance (entries log) j) (frame : StreamFrame)
    (accepted : Bool) : 0 < balance (entries (.delivered frame accepted :: log)) j := by
  cases hs : frame.slot with
  | none => rwa [entries_delivered_none hs]
  | some k =>
    rw [entries_delivered_some hs, balance_give]
    split <;> omega

/-! ## One operation at a time -/

/-- The account of a live cast, and the law of its log. -/
def Balanced (s : StreamData) : Prop := s.Accounted ∧ Lawful s.log

theorem Balanced.reclaimBuffer {s : StreamData} (hi : s.Tidy) (h : s.Balanced) {b : Buf} (hc : b ∉ s.consumer) :
    (s.reclaimBuffer b).Balanced := by
  obtain ⟨ha, hl⟩ := h
  rcases reclaimBuffer_cases hi hc with ⟨_, he⟩ | ⟨k, _, he⟩ | ⟨k, hb, he⟩ <;> rw [he]
  · exact ⟨⟨ha.pending_owned, ha.inFlight_owned, ha.apart⟩, hl⟩
  · exact ⟨ha, hl⟩
  · have hk := ha.inFlight_owned k b hb
    refine ⟨⟨?_, ?_, ?_⟩, hl.released _ hk (by simp)⟩
    · intro j d hp hlatest
      have hne : j ≠ k := by rintro rfl; exact ha.apart j d b hp hlatest hb
      exact owned_cons_released hne (ha.pending_owned j d hp hlatest)
    · intro j x hj
      rcases bound_setInFlight hj with ⟨_, hf, _⟩ | ⟨hne, hj⟩
      · cases hf
      · exact owned_cons_released hne (ha.inFlight_owned j x hj)
    · intro j d x hp hlatest hj
      rcases bound_setInFlight hj with ⟨_, hf, _⟩ | ⟨_, hj⟩
      · cases hf
      · exact ha.apart j d x hp hlatest hj

theorem Balanced.returnBuffer {s s' : StreamData} (h : s.Balanced) {b : Buf} (hr : s.returnBuffer b = some s') :
    s'.Balanced := by
  unfold StreamData.returnBuffer at hr
  split at hr
  · cases hr; exact ⟨⟨h.1.pending_owned, h.1.inFlight_owned, h.1.apart⟩, h.2⟩
  · cases hr

/-- What copying does to the log, and that it stores no frame. -/
theorem Copying.log_cases {s s' : StreamData} {source : Source} {file : File} {stride : Nat} {damage : List Rect}
    {r : Bool} (h : Copying s source file stride damage s' r) : s'.latest = s.latest ∧ s'.pending = s.pending ∧
      (s'.log = s.log ∨ ∃ b seq w hgt, s'.log = .queued b none seq damage :: .copied source b stride w hgt :: s.log) := by
  have same : ∀ {b : Buf} {s₁ : StreamData}, s.takeBuffer = some (b, s₁) →
      s₁.latest = s.latest ∧ s₁.pending = s.pending ∧ s₁.log = s.log := by
    intro b s₁ ht
    rcases takeBuffer_cases ht with ⟨rest, _, rfl⟩ | ⟨_, rest, _, rfl⟩ <;> exact ⟨rfl, rfl, rfl⟩
  cases h with
  | dropped => exact ⟨rfl, rfl, .inl rfl⟩
  | starved => exact ⟨rfl, rfl, .inl rfl⟩
  | diverted _ b s₁ ht => obtain ⟨h1, h2, h3⟩ := same ht; exact ⟨h1, h2, .inl h3⟩
  | queued _ b s₁ ht hb =>
    obtain ⟨h1, h2, h3⟩ := same ht
    exact ⟨h1, h2, .inr ⟨b, s₁.sequence, s.transport.width, s.transport.height, by simp [h3]⟩⟩

/-- Publishing an owned slot frame settles its account. -/
theorem Balanced.publishing {s s' : StreamData} (h : s.Balanced) {k : Nat} {damage : List Rect}
    (hk : 0 < s.owned k) (hp : Publishing s k damage s') : ({ s' with pending := false } : StreamData).Balanced := by
  obtain ⟨ha, hl⟩ := h
  cases hp with
  | inFlight b hb => exact ⟨⟨by simp, ha.inFlight_owned, by simp⟩, hl⟩
  | forwarded b hb he =>
    refine ⟨⟨by simp, ?_, by simp⟩, hl.cons ⟨hk, hl.sound⟩ (by simp)⟩
    intro j x hj
    rcases bound_setInFlight hj with ⟨rfl, _, _⟩ | ⟨_, hj⟩
    · exact hk
    · exact ha.inFlight_owned j x hj
  | unmappable hn =>
    refine ⟨⟨by simp, ?_, by simp⟩, hl.released _ hk (by simp)⟩
    intro j x hj
    have hne : j ≠ k := by rintro rfl; exact hn x hj
    exact owned_cons_released hne (ha.inFlight_owned j x hj)
  | copied hn slotFile _ s' r hc =>
    have hbal : ∀ j, balance (entries s'.log) j = balance (entries s.log) j := by
      intro j
      rcases hc.log_cases.2.2 with he | ⟨b, seq, w, hgt, he⟩ <;> simp [he]
    have hl' : Lawful s'.log := by
      rcases hc.log_cases.2.2 with he | ⟨b, seq, w, hgt, he⟩ <;> rw [he]
      · exact hl
      · have hcopied := hl.cons (e := .copied (.slot k) b slotFile.stride w hgt) ⟨hk, hl.sound⟩ (by simp)
        exact hcopied.cons hcopied.sound (by simp)
    refine ⟨⟨by simp, ?_, by simp⟩, hl'.released _ (by rw [hbal]; exact hk) (by simp)⟩
    intro j x hj
    have hb : Bound s.transport.slotBindings j x true := by simpa only [hc.keeps.1] using hj
    have hne : j ≠ k := by rintro rfl; exact hn x hb
    exact owned_cons_released hne (by rw [hbal]; exact ha.inFlight_owned j x hb)

theorem Balanced.publishPending {s : StreamData} (hi : s.Tidy) (h : s.Balanced) : s.publishPending.Balanced := by
  obtain ⟨ha, hl⟩ := h
  rcases publishPending_cases hi with ⟨_, he⟩ | ⟨_, _, he⟩ | ⟨_, stride, damage, s', r, _, hlatest, hc, he⟩ |
    ⟨k, damage, s', hp, hlatest, hpub, he⟩ <;> rw [he]
  · exact ⟨ha, hl⟩
  · exact ⟨⟨by simp, ha.inFlight_owned, by simp⟩, hl⟩
  · obtain ⟨hsame, _, hlog⟩ := hc.log_cases
    have hno : ∀ k d, s'.latest ≠ some (.slot k d) := by simp [hsame, hlatest]
    have hentries : entries s'.log = entries s.log := by
      rcases hlog with he | ⟨b, seq, w, hgt, he⟩ <;> simp [he]
    have hs' : s'.Balanced := by
      refine ⟨⟨fun k d _ h => absurd h (hno k d), ?_, fun k d b _ h => absurd h (hno k d)⟩, ?_⟩
      · intro k b hb
        have := ha.inFlight_owned k b (by simpa only [hc.keeps.1] using hb)
        simpa only [owned, hentries] using this
      · rcases hlog with he | ⟨b, seq, w, hgt, he⟩ <;> rw [he]
        · exact hl
        · have hcopied := hl.cons (e := .copied .descriptor b stride w hgt) hl.sound (by simp)
          exact hcopied.cons hcopied.sound (by simp)
    cases r
    · exact hs'
    · exact ⟨⟨by simp, hs'.1.inFlight_owned, by simp⟩, hs'.2⟩
  · exact Balanced.publishing ⟨ha, hl⟩ (ha.pending_owned k damage hp hlatest) hpub

theorem held_of_not_inFlight {s : StreamData} (hi : s.Tidy) {k : Nat}
    (hn : ∀ b, ¬ Bound s.transport.slotBindings k b true) : s.held k = false := by
  refine held_eq_false fun b f hb => ?_
  cases f with
  | true => exact absurd hb (hn b)
  | false => exact (hi.placed.away k b hb).1

/-- An accepted frame is owned and pending; the pending one it supersedes is released. -/
theorem Balanced.replaceLatest {s : StreamData} (hi : s.Tidy) (h : s.Balanced) {payload : FramePayload}
    (hp : ∀ k d, payload = .slot k d → 0 < s.owned k ∧ (∀ b, ¬ Bound s.transport.slotBindings k b true) ∧
      ∀ d', s.pending = true → s.latest ≠ some (.slot k d')) : (s.replaceLatest payload).Balanced := by
  obtain ⟨ha, hl⟩ := h
  rcases replaceLatest_cases hi payload with ⟨k, d, hpend, hlatest, he⟩ | ⟨_, he⟩ <;> rw [he]
  · have hk := ha.pending_owned k d hpend hlatest
    have hheld := held_of_not_inFlight hi fun b => ha.apart k d b hpend hlatest
    refine ⟨⟨?_, ?_, ?_⟩, hl.released _ hk (by simp [hheld])⟩
    · intro j d' _ hj
      obtain ⟨hown, _, hnp⟩ := hp j d' (Option.some.inj hj)
      have hne : j ≠ k := by rintro rfl; exact hnp d hpend hlatest
      exact owned_cons_released hne hown
    · intro j b hb
      have hne : j ≠ k := by rintro rfl; exact ha.apart j d b hpend hlatest hb
      exact owned_cons_released hne (ha.inFlight_owned j b hb)
    · exact fun j d' b _ hj => (hp j d' (Option.some.inj hj)).2.1 b
  · exact ⟨⟨fun j d' _ hj => (hp j d' (Option.some.inj hj)).1, ha.inFlight_owned,
      fun j d' b _ hj => (hp j d' (Option.some.inj hj)).2.1 b⟩, hl⟩

theorem Balanced.delivered {s : StreamData} (h : s.Balanced) (frame : StreamFrame) (accepted : Bool) :
    ({ s with log := .delivered frame accepted :: s.log } : StreamData).Balanced := by
  obtain ⟨ha, hl⟩ := h
  refine ⟨⟨?_, ?_, ha.apart⟩, hl.cons (sound_delivered hl.sound frame accepted) (by simp)⟩
  · exact fun k d hp hlatest => owned_delivered (ha.pending_owned k d hp hlatest) frame accepted
  · exact fun k b hb => owned_delivered (ha.inFlight_owned k b hb) frame accepted

theorem Balanced.ipcFrame {s : StreamData} (hi : s.Tidy) (h : s.Balanced) {frame : StreamFrame}
    (hm : s.MaySend frame) : (s.ipcFrame frame).Balanced := by
  unfold StreamData.ipcFrame
  split
  · exact h
  next hid =>
  split
  · next payload hv =>
    have htidy := hi.delivered hm (by simpa using hid) true
    refine (h.delivered frame true).replaceLatest htidy ?_
    rintro k d rfl
    -- The compositor delivers the slot only while nothing here holds it.
    have hs := (validateFrame_slot hv).1
    have hzero := hm (by simpa using hid) k hs
    refine ⟨?_, ?_, ?_⟩
    · simp only [owned, entries_delivered_some hs, balance_give_self]
      omega
    · intro b hb
      have := h.1.inFlight_owned k b hb
      omega
    · intro d' hp hlatest
      have := h.1.pending_owned k d' hp hlatest
      omega
  · exact h.delivered frame false

theorem Balanced.adding {s s' : StreamData} (hi : s.Tidy) (h : s.Balanced) {b : Buf} (ha : Adding s b s') :
    s'.Balanced := by
  obtain ⟨hacc, hl⟩ := h
  cases ha with
  | bound k f hk =>
    have still : ∀ j x, Bound (s.transport.slotBindings.modify k ({ · with pool := some b })) j x true →
        Bound s.transport.slotBindings j x true := by
      intro j x hj
      rcases Placed.bound_bind ⟨f, hk⟩ hj with ⟨rfl, rfl, hfree⟩ | ⟨_, hj⟩
      · exact absurd hfree (hi.placed.inFlight_bound j)
      · exact hj
    exact ⟨⟨hacc.pending_owned, fun j x hj => hacc.inFlight_owned j x (still j x hj),
      fun j d x hp hlatest hj => hacc.apart j d x hp hlatest (still j x hj)⟩, hl⟩
  | mapped n => exact ⟨⟨hacc.pending_owned, hacc.inFlight_owned, hacc.apart⟩, hl⟩
  | bare => exact ⟨⟨hacc.pending_owned, hacc.inFlight_owned, hacc.apart⟩, hl⟩

theorem Balanced.removing {s s' : StreamData} (h : s.Balanced) {b : Buf} (hr : Removing s b s') : s'.Balanced := by
  obtain ⟨ha, hl⟩ := h
  cases hr with
  | unbound hn => exact ⟨⟨ha.pending_owned, ha.inFlight_owned, ha.apart⟩, hl⟩
  | idle k hb =>
    exact ⟨⟨ha.pending_owned, fun j x hj => ha.inFlight_owned j x (Placed.bound_clear hj).2,
      fun j d x hp hlatest hj => ha.apart j d x hp hlatest (Placed.bound_clear hj).2⟩, hl⟩
  | released k held hb =>
    have hk := ha.inFlight_owned k b hb
    refine ⟨⟨?_, ?_, ?_⟩, hl.released _ hk (fun _ => .inl rfl)⟩
    · intro j d hp hlatest
      have hne : j ≠ k := by rintro rfl; exact ha.apart j d b hp hlatest hb
      exact owned_cons_released hne (ha.pending_owned j d hp hlatest)
    · intro j x hj
      obtain ⟨hne, hj⟩ := Placed.bound_clear hj
      exact owned_cons_released hne (ha.inFlight_owned j x hj)
    · exact fun j d x hp hlatest hj => ha.apart j d x hp hlatest (Placed.bound_clear hj).2

/-- The teardown releases each in-flight slot once. -/
theorem lawful_teardownReleases (s : StreamData) (bindings : List SlotBinding) :
    ∀ (i : Nat) (log : List Event), Lawful log →
      (∀ (j : Nat) binding, bindings[j]? = some binding → binding.inFlight = true → 0 < balance (entries log) (i + j)) →
      Lawful (s.teardownReleases bindings i ++ log) := by
  induction bindings with
  | nil => intro i log hl _; exact hl
  | cons binding rest ih =>
    intro i log hl ho
    have hrest : ∀ (j : Nat) c, rest[j]? = some c → c.inFlight = true → 0 < balance (entries log) (i + 1 + j) := by
      intro j c hj hc
      have := ho (j + 1) c (by simpa using hj) hc
      rwa [show i + 1 + j = i + (j + 1) by omega]
    unfold teardownReleases
    split
    · next hf =>
      have hi := ho 0 binding rfl hf
      rw [List.append_assoc]
      refine ih (i + 1) _ (hl.released _ (by simpa using hi) fun _ => .inr rfl) fun j c hj hc => ?_
      exact owned_cons_released (by omega) (hrest j c hj hc)
    · exact ih (i + 1) log hl hrest

theorem lawful_teardown {s : StreamData} (hi : s.Tidy) (h : s.Balanced) : Lawful s.teardown.log := by
  refine lawful_teardownReleases s s.transport.slotBindings 0 s.log h.2 fun j binding hj hf => ?_
  obtain ⟨pool, inFlight⟩ := binding
  cases pool with
  | none => exact absurd (by simpa [← hf] using hj) (hi.placed.inFlight_bound j)
  | some b =>
    have hb : Bound s.transport.slotBindings j b true := by rw [Bound, hj]; simp at hf; simp [hf]
    rw [Nat.zero_add]
    exact h.1.inFlight_owned j b hb

/-! ## Runs without re-arming -/

/-- The step re-arms a slot frame that was already published or dropped. -/
def rearms (s : StreamData) : Label → Bool
  | .stateChanged .streaming => !s.pending && s.latest.any fun payload => payload.slot?.isSome
  | _ => false

/-- The invariant of those runs; after the teardown only the log counts. -/
structure Owning (s : StreamData) : Prop where
  tidy : s.Tidy
  lawful : Lawful s.log
  accounted : s.ended = false → s.Accounted

theorem Owning.of_balanced {s : StreamData} (hi : s.Tidy) (h : s.Balanced) : s.Owning :=
  ⟨hi, h.2, fun _ => h.1⟩

theorem init_owning {s : StreamData} (h : Init s) : s.Owning := by
  have htidy := init_tidy h
  obtain ⟨started, target, cursor, h⟩ := h
  simp only [start, Option.bind_eq_some_iff, Option.map_eq_some_iff] at h
  obtain ⟨_, _, t, ht, rfl⟩ := h
  simp only [Transport.new, Option.map_eq_some_iff] at ht
  obtain ⟨announced, _, rfl⟩ := ht
  refine .of_balanced htidy ⟨⟨by simp, fun k b hb => absurd hb (not_bound_unbound _ k b true), by simp⟩, trivial, ?_⟩
  intro id k c hm
  cases hm

theorem step_owning {s s' : StreamData} {l : Label} (hi : s.Owning) (hg : s.rearms l = false)
    (h : s.step l = some s') : s'.Owning := by
  have htidy := step_tidy hi.tidy h
  obtain ⟨hend, hdoes⟩ := step_does hi.tidy h
  have hb : s.Balanced := ⟨hi.accounted hend, hi.lawful⟩
  cases hdoes with
  | frame frame answer hm => exact .of_balanced htidy (hb.ipcFrame hi.tidy hm)
  | kept _ n o q =>
    exact .of_balanced htidy ⟨⟨hb.1.pending_owned, hb.1.inFlight_owned, hb.1.apart⟩, hb.2⟩
  | restarted _ t ht n o q =>
    refine .of_balanced htidy ⟨⟨by simp [swapTransport], ?_, by simp [swapTransport]⟩, hb.2.cons hb.2.sound (by simp)⟩
    intro k b hk
    simp only [swapTransport, ht] at hk
    exact absurd hk (not_bound_unbound _ k b true)
  | process late _ h =>
    have hreclaim : ∀ (s : StreamData) b rest, s.Tidy → s.Balanced → s.returned = b :: rest →
        (StreamData.reclaimBuffer { s with returned := rest } b).Balanced := by
      intro s b rest hi hb hr
      have hdeq : ({ s with returned := rest } : StreamData).Balanced :=
        ⟨⟨hb.1.pending_owned, hb.1.inFlight_owned, hb.1.apart⟩, hb.2⟩
      exact hdeq.reclaimBuffer (hi.dequeued hr) (hr ▸ hi.placed).not_elsewhere.2.2
    obtain ⟨s₁, _, hi₁, _, hb₁, rfl⟩ :=
      processFrame_publishes hreclaim (fun _ _ _ _ hb h => hb.returnBuffer h) hi.tidy hb h
    exact .of_balanced htidy (hb₁.publishPending hi₁)
  | returned b _ h => exact .of_balanced htidy (hb.returnBuffer h)
  | rearmed payload hlatest =>
    -- The frame was still pending, or it carries its own descriptor.
    have hpend : ∀ k d, s.latest = some (.slot k d) → s.pending = true := by
      intro k d hk
      simpa [rearms, hk, FramePayload.slot?] using hg
    exact .of_balanced htidy ⟨⟨fun k d _ hk => hb.1.pending_owned k d (hpend k d hk) hk, hb.1.inFlight_owned,
      fun k d b _ hk => hb.1.apart k d b (hpend k d hk) hk⟩, hb.2⟩
  | added b hasData allocated hnew _ h => exact .of_balanced htidy (hb.adding hi.tidy h)
  | removed b _ h => exact .of_balanced htidy (hb.removing h)
  | tornDown => exact ⟨htidy, lawful_teardown hi.tidy hb, fun h => by cases h⟩

theorem reach_owning {s : StreamData} (h : Reach Init (Guarded (fun s l => s.rearms l = false) step) s) : s.Owning :=
  h.inv_guarded (fun _ => init_owning) fun _ _ _ => step_owning

/-! ## Releases -/

/-- A delivery of a frame in slot `k`. -/
def DeliveredIn (log : List Event) (k : Nat) : Prop :=
  ∃ frame accepted, Event.delivered frame accepted ∈ log ∧ frame.slot = some k

theorem deliveredIn_of_give {log : List Event} {k : Nat} (h : Entry.give k ∈ entries log) : DeliveredIn log k := by
  obtain ⟨e, he, hk⟩ := List.mem_filterMap.1 h
  cases e with
  | delivered frame accepted => exact ⟨frame, accepted, he, by simpa [Event.entry] using hk⟩
  | released id j held c => simp [Event.entry] at hk
  | copied source b stride w hgt => cases source <;> simp [Event.entry] at hk
  | queued b slot seq d => cases slot <;> simp [Event.entry] at hk
  | restarted => simp [Event.entry] at hk

/-- Slot release is exactly-once and never early: what a log says about every
release in it. -/
structure ReleasesSound (log : List Event) : Prop where
  /-- Between two releases of a slot the compositor delivered a frame in it. -/
  once : ∀ post mid pre id id' k held held' c c',
    log = post ++ .released id k held c :: (mid ++ .released id' k held' c' :: pre) → DeliveredIn mid k
  /-- A release names a slot the cast owns at that moment. -/
  owned : ∀ post pre id k held c, log = post ++ .released id k held c :: pre → 0 < balance (entries pre) k
  /-- A slot whose buffer is with the consumer is released only with that buffer. -/
  early : ∀ id k c, Event.released id k true c ∈ log → c = .removed ∨ c = .teardown

theorem releasesSound_of_lawful {log : List Event} (h : Lawful log) (he : Exclusive (entries log)) :
    ReleasesSound log where
  once := by
    rintro post mid pre id id' k held held' c c' rfl
    simp only [entries_append, entries_released] at he
    have hs := h.sound
    simp only [entries_append, entries_released] at hs
    exact deliveredIn_of_give (give_between_takes hs he)
  owned := by
    rintro post pre id k held c rfl
    have hs := h.sound
    simp only [entries_append, entries_released] at hs
    exact owned_of_take hs
  early := h.early

/-! ## Publications -/

/-- The event queues the buffer bound to slot `k` or copies the slot's pixels. -/
def Publishes (e : Event) (k : Nat) : Prop := e.entry = some (.use k)

/-- After a release of a slot nothing publishes it before its next delivery. -/
def OnlyOwnedPublished (log : List Event) : Prop :=
  ∀ post mid pre e id k held c, log = post ++ e :: (mid ++ .released id k held c :: pre) →
    Publishes e k → DeliveredIn mid k

theorem entries_cons_publishes {e : Event} {k : Nat} (h : Publishes e k) (log : List Event) :
    entries (e :: log) = .use k :: entries log := by
  unfold Publishes at h
  simp [entries, h]

theorem onlyOwnedPublished_of_lawful {log : List Event} (h : Lawful log) (he : Exclusive (entries log)) :
    OnlyOwnedPublished log := by
  rintro post mid pre e id k held c rfl huse
  have hs := h.sound
  simp only [entries_append, entries_cons_publishes huse, entries_released] at hs he
  exact deliveredIn_of_give (give_before_use hs he)

/-! ## A run that re-arms -/

def slotFile : File where
  fd := 5
  regular := false
  len := some 16
  sealed := false
  mappable := false

/-- A 2x2 tiled dmabuf stream with two slots. -/
def slotStream : StreamStarted where
  streamId := 1
  width := 2
  height := 2
  format := .dmabuf (fourcc 'X' 'R' '2' '4') 5
  slots := some [⟨slotFile, 8, 16⟩, ⟨slotFile, 8, 16⟩]

def slotFrame (slot : Nat) : StreamFrame where
  streamId := 1
  sequence := 1
  width := 2
  height := 2
  stride := 8
  format := .dmabuf (fourcc 'X' 'R' '2' '4') 5
  damage := []
  dropped := 0
  slot := some slot
  payload := .slot

/-- The consumer fixates the modifier and shows one slot frame. -/
def showFrame : List Label :=
  [.formatParam ⟨some .BGRx, 2, 2, some 5⟩ ⟨false, none⟩, .addBuffer 10 true true, .stateChanged .streaming,
   .ipc (.ok (.frame (slotFrame 0))) ⟨false, none⟩, .process [], .returnBuffer 10, .process []]

/-- Then it pauses, streams again, and returns what it was given. -/
def rearmFrame : List Label :=
  [.stateChanged .paused, .stateChanged .streaming, .process [], .returnBuffer 10, .process []]

def slotRun (ls : List Label) : Option StreamData :=
  (start slotStream (.output none) .hidden).bind (exec step · ls)

theorem reach_slotRun {ls : List Label} {s : StreamData} (h : slotRun ls = some s) : Reach Init step s := by
  obtain ⟨s₀, h₀, he⟩ := Option.bind_eq_some_iff.1 h
  exact (Reach.init ⟨_, _, _, h₀⟩).exec he

/-- Newest first: the slot was released, queued again and released again. -/
theorem rearm_log : (slotRun (showFrame ++ rearmFrame)).map (·.log) = some
    [.released 1 0 false .reclaimed, .queued 10 (some 0) 1 [], .released 1 0 false .reclaimed,
     .queued 10 (some 0) 0 [], .delivered (slotFrame 0) true] := by
  decide +kernel

/-- The state after the frame was shown, reached without re-arming. -/
def shown : StreamData := (slotRun showFrame).get (by decide +kernel)

theorem reach_shown : Reach Init (Guarded (fun s l => s.rearms l = false) step) shown := by
  have h₀ : ∃ s₀, start slotStream (.output none) .hidden = some s₀ ∧
      exec (Guarded (fun s l => s.rearms l = false) step) s₀ showFrame = some shown := ⟨_, rfl, by decide +kernel⟩
  obtain ⟨s₀, h₀, he⟩ := h₀
  exact (Reach.init ⟨_, _, _, h₀⟩).exec he

/-! ## The two laws -/

/-- In every run that re-arms no published slot frame, each delivery of a slot is
answered by at most one release, never while the consumer reads it, and no
release names a slot the cast does not own. -/
theorem releases_sound {s : StreamData} (h : Reach Init (Guarded (fun s l => s.rearms l = false) step) s) :
    ReleasesSound s.log :=
  have hi := reach_owning h
  releasesSound_of_lawful hi.lawful hi.tidy.exclusive

theorem releases_sound_shown : ReleasesSound shown.log := releases_sound reach_shown

/-- Re-arming a published slot frame releases its slot a second time. -/
theorem rearmed_released_twice : ∃ s, Reach Init step s ∧ ¬ ReleasesSound s.log := by
  obtain ⟨s, hs, hlog⟩ := Option.map_eq_some_iff.1 rearm_log
  refine ⟨s, reach_slotRun hs, fun h => ?_⟩
  obtain ⟨frame, accepted, hm, _⟩ := h.once [] [.queued 10 (some 0) 1 []] _ 1 1 0 _ _ _ _ hlog
  simp at hm

/-- In every run that re-arms no published slot frame, only owned slots are
queued or copied. -/
theorem only_owned_published {s : StreamData} (h : Reach Init (Guarded (fun s l => s.rearms l = false) step) s) :
    OnlyOwnedPublished s.log :=
  have hi := reach_owning h
  onlyOwnedPublished_of_lawful hi.lawful hi.tidy.exclusive

theorem only_owned_published_shown : OnlyOwnedPublished shown.log := only_owned_published reach_shown

/-- Re-arming a published slot frame queues its buffer after the slot's release. -/
theorem rearmed_published_unowned : ∃ s, Reach Init step s ∧ ¬ OnlyOwnedPublished s.log := by
  obtain ⟨s, hs, hlog⟩ := Option.map_eq_some_iff.1 rearm_log
  refine ⟨s, reach_slotRun hs, fun h => ?_⟩
  obtain ⟨frame, accepted, hm, _⟩ := h [_] [] _ _ 1 0 _ _ hlog rfl
  simp at hm

end AtriumPortal.Cast.StreamData
