import AtriumPortal.Cast.Returns
/-!
# No slot is leaked

An owned slot is the pending frame, or it is in flight with a buffer that
PipeWire has not handed back to the cast. Two branches lose a slot: a slot frame
that `validate_frame` rejects is dropped without a release, and the copy path's
own dequeue can take a bound buffer, whose return the reclaim loop then never
sees. In runs without these every owned slot stays tracked.
-/
open AtriumPortal.Ipc AtriumPortal.Lib.Ledger AtriumPortal.Lib.Runs

namespace AtriumPortal.Cast

/-- An accepted frame with a slot in its header is a slot frame. -/
theorem validateFrame_of_slot {frame : StreamFrame} {w h : Nat} {announced : AnnouncedFormat} {count k : Nat}
    {payload : FramePayload} (hv : validateFrame frame w h announced count = .ok payload)
    (hs : frame.slot = some k) : payload = .slot k frame.damage := by
  simp only [validateFrame, hs] at hv
  repeat' split at hv
  all_goals cases hv
  rfl

namespace StreamData

/-! ## The two branches that lose a slot -/

/-- The IPC source rejects a slot frame of the live stream. -/
def rejectsSlot (s : StreamData) : Label → Bool
  | .ipc (.ok (.frame frame)) _ =>
    frame.streamId == s.transport.streamId && frame.slot.isSome &&
      !(validateFrame frame s.transport.width s.transport.height s.transport.announced s.transport.slotCount).toBool
  | _ => false

/-- The step takes neither branch. -/
def Keeps (s : StreamData) (l : Label) : Prop := s.rejectsSlot l = false ∧ s.diverts l = false

instance (s : StreamData) (l : Label) : Decidable (s.Keeps l) := inferInstanceAs (Decidable (_ ∧ _))

/-! ## Tracked slots -/

/-- The slot is the pending frame, or in flight with a buffer that PipeWire has
not handed back. -/
def Holds (s : StreamData) (k : Nat) : Prop :=
  (s.pending = true ∧ ∃ d, s.latest = some (.slot k d)) ∨
    ∃ b, Bound s.transport.slotBindings k b true ∧ (b ∈ s.consumer ∨ b ∈ s.returned)

/-- The slot is the pending frame, or its binding is marked in flight. -/
def Carried (s : StreamData) (k : Nat) : Prop :=
  (s.pending = true ∧ ∃ d, s.latest = some (.slot k d)) ∨ ∃ b, Bound s.transport.slotBindings k b true

structure Tracked (s : StreamData) : Prop where
  held : ∀ k, 0 < s.owned k → s.Carried k
  flown : ∀ k b, Bound s.transport.slotBindings k b true → b ∈ s.consumer ∨ b ∈ s.returned
  undiverted : ∀ k b f, Bound s.transport.slotBindings k b f → b ∉ s.pool

theorem Tracked.holds {s : StreamData} (h : s.Tracked) {k : Nat} (hk : 0 < s.owned k) : s.Holds k := by
  rcases h.held k hk with hp | ⟨b, hb⟩
  · exact .inl hp
  · exact .inr ⟨b, hb, h.flown k b hb⟩

/-- A release settles its slot; the others stay owned as they were. -/
theorem owned_of_released {log : List Event} {id k j : Nat} {held : Bool} {c : Cause} (he : Exclusive (entries log))
    (h : 0 < balance (entries (.released id k held c :: log)) j) : j ≠ k ∧ 0 < balance (entries log) j := by
  simp only [entries_released, balance_take] at h
  split at h
  · have := balance_le_one he j
    omega
  · next hne => exact ⟨fun he => hne he.symm, h⟩

theorem Tracked.returnable {s : StreamData} (h : s.Tracked) : s.Returnable := ⟨h.flown, h.undiverted⟩

theorem Returnable.tracked {s : StreamData} (h : s.Returnable) (held : ∀ k, 0 < s.owned k → s.Carried k) : s.Tracked :=
  ⟨held, h.flown, h.undiverted⟩

theorem Tracked.reclaimBuffer {s : StreamData} (hi : s.Tidy) (h : s.Tracked) {b : Buf} {rest : List Buf}
    (hr : s.returned = b :: rest) : (StreamData.reclaimBuffer { s with returned := rest } b).Tracked := by
  refine (h.returnable.reclaimBuffer hi hr).tracked ?_
  have hc := (hr ▸ hi.placed).not_elsewhere.2.2
  rcases reclaimBuffer_cases (hi.dequeued hr) hc with ⟨hn, he⟩ | ⟨k, hb, he⟩ | ⟨k, hb, he⟩ <;> rw [he]
  · exact h.held
  · exact h.held
  · intro j hj
    obtain ⟨hne, hj⟩ := owned_of_released hi.exclusive hj
    rcases h.held j hj with hp | ⟨x, hx⟩
    · exact .inl hp
    · exact .inr ⟨x, by simpa [Bound, Transport.modifyBinding, List.getElem?_modify, hne.symm] using hx⟩

theorem Tracked.returnBuffer {s s' : StreamData} (h : s.Tracked) {b : Buf} (hr : s.returnBuffer b = some s') :
    s'.Tracked := by
  refine (h.returnable.returnBuffer hr).tracked ?_
  unfold StreamData.returnBuffer at hr
  split at hr
  · cases hr; exact h.held
  · cases hr

theorem owned_of_copying {s s' : StreamData} {source : Source} {file : File} {stride : Nat} {damage : List Rect}
    {r : Bool} (hc : Copying s source file stride damage s' r) (k : Nat) : s'.owned k = s.owned k := by
  unfold owned
  rcases hc.log_cases.2.2 with he | ⟨b, seq, w, hgt, he⟩ <;> rw [he]
  cases source <;> simp

/-- Publishing leaves a slot owned only when its binding is in flight. -/
theorem Tracked.publishing {s s' : StreamData} (hi : s.Tidy) (h : s.Tracked) {k : Nat} {damage : List Rect}
    (hlatest : s.latest = some (.slot k damage)) (hp : Publishing s k damage s') (j : Nat) (hj : 0 < s'.owned j) :
    ∃ b, Bound s'.transport.slotBindings j b true := by
  -- A slot other than the pending one is held by its binding.
  have bound : ∀ j, j ≠ k → 0 < s.owned j → ∃ b, Bound s.transport.slotBindings j b true := by
    intro j hne hj
    rcases h.held j hj with ⟨_, d, hd⟩ | hb
    · rw [hlatest] at hd
      cases hd
      exact absurd rfl hne
    · exact hb
  cases hp with
  | inFlight b hb =>
    by_cases hjk : j = k
    · exact ⟨b, hjk ▸ hb⟩
    · exact bound j hjk hj
  | forwarded b hb he =>
    by_cases hjk : j = k
    · subst hjk
      exact ⟨b, setInFlight_bound true hb⟩
    · obtain ⟨x, hx⟩ := bound j hjk hj
      exact ⟨x, by simpa [Bound, Transport.modifyBinding, List.getElem?_modify, Ne.symm hjk] using hx⟩
  | unmappable hn =>
    obtain ⟨hne, hj⟩ := owned_of_released hi.exclusive hj
    exact bound j hne hj
  | copied hn slotFile hpath s' r hc =>
    have hex : Exclusive (entries s'.log) := by
      rcases hc.log_cases.2.2 with he | ⟨b, seq, w, hgt, he⟩ <;> rw [he] <;> exact hi.exclusive
    obtain ⟨hne, hj⟩ := owned_of_released hex hj
    simp only [hc.keeps.1]
    exact bound j hne (by rw [← owned_of_copying hc]; exact hj)

theorem Tracked.publishPending {s : StreamData} (hi : s.Tidy) (h : s.Tracked) (hg : s.takesBound = false) :
    s.publishPending.Tracked := by
  refine (h.returnable.publishPending hi hg).tracked ?_
  rcases publishPending_cases hi with ⟨_, he⟩ | ⟨_, hlatest, he⟩ | ⟨file, stride, damage, s', r, hp, hlatest, hc, he⟩ |
    ⟨k, damage, s', hp, hlatest, hpub, he⟩ <;> rw [he]
  · exact h.held
  · intro k hk
    rcases h.held k hk with ⟨_, d, hd⟩ | hb
    · rw [hlatest] at hd; cases hd
    · exact .inr hb
  · have hheld : ∀ k, 0 < s'.owned k → ∃ b, Bound s'.transport.slotBindings k b true := by
      intro k hk
      rw [owned_of_copying hc] at hk
      rcases h.held k hk with ⟨_, d, hd⟩ | hb
      · rw [hlatest] at hd; cases hd
      · simpa only [hc.keeps.1] using hb
    cases r <;> exact fun k hk => .inr (hheld k hk)
  · exact fun k hk => .inr (h.publishing hi hlatest hpub k hk)

theorem Tracked.ipcFrame {s : StreamData} (hi : s.Tidy) (h : s.Tracked) {frame : StreamFrame} (hm : s.MaySend frame)
    {answer : RestartAnswer} (hg : s.rejectsSlot (.ipc (.ok (.frame frame)) answer) = false) :
    (s.ipcFrame frame).Tracked := by
  refine (h.returnable.ipcFrame frame).tracked ?_
  unfold StreamData.ipcFrame
  split
  · exact h.held
  next hid =>
  replace hid : frame.streamId = s.transport.streamId := by simpa using hid
  have htidy := hi.delivered hm hid true
  split
  · next payload hv =>
    have hown : ∀ j, 0 < balance (entries (.delivered frame true :: s.log)) j →
        (∃ d, payload = .slot j d) ∨ s.Carried j := by
      intro j hj
      cases hs : frame.slot with
      | none =>
        rw [entries_delivered_none hs] at hj
        exact .inr (h.held j hj)
      | some k =>
        rw [entries_delivered_some hs, balance_give] at hj
        split at hj
        · next he =>
          subst he
          exact .inl ⟨_, validateFrame_of_slot hv hs⟩
        · exact .inr (h.held j hj)
    rcases replaceLatest_cases htidy payload with ⟨k, d, _, hlatest, he⟩ | ⟨hno, he⟩ <;> rw [he]
    · intro j hj
      obtain ⟨hne, hj⟩ := owned_of_released htidy.exclusive hj
      rcases hown j hj with ⟨d', hd⟩ | ⟨_, d', hd⟩ | hb
      · exact .inl ⟨rfl, d', congrArg some hd⟩
      · cases hlatest.symm.trans hd
        exact absurd rfl hne
      · exact .inr hb
    · intro j hj
      rcases hown j hj with ⟨d', hd⟩ | ⟨hp, d', hd⟩ | hb
      · exact .inl ⟨rfl, d', congrArg some hd⟩
      · exact absurd hd (hno j d' hp)
      · exact .inr hb
  · next e hv =>
    -- The rejected frame names no slot, so nothing is lost with it.
    have hs : frame.slot = none := by simpa [rejectsSlot, hid, hv, Except.toBool] using hg
    refine fun j hj => h.held j ?_
    simpa only [owned, entries_delivered_none hs] using hj

theorem Tracked.adding {s s' : StreamData} (hi : s.Tidy) (h : s.Tracked) {b : Buf} (hb : b ∉ s.buffers)
    (ha : Adding s b s') : s'.Tracked := by
  refine (h.returnable.adding hi hb ha).tracked ?_
  cases ha with
  | bound k f hk =>
    have still : ∀ j x, Bound s.transport.slotBindings j x true →
        Bound (s.transport.slotBindings.modify k ({ · with pool := some b })) j x true := by
      intro j x hx
      have hne : k ≠ j := by
        rintro rfl
        simp [Bound, hk] at hx
      simpa [Bound, List.getElem?_modify, hne] using hx
    exact fun j hj => (h.held j hj).imp_right (Exists.imp (still j))
  | mapped n => exact h.held
  | bare => exact h.held

theorem Tracked.removing {s s' : StreamData} (hi : s.Tidy) (h : s.Tracked) {b : Buf} (hr : Removing s b s') :
    s'.Tracked := by
  refine (h.returnable.removing hi hr).tracked ?_
  have still : ∀ {k j}, j ≠ k → (∃ x, Bound s.transport.slotBindings j x true) →
      ∃ x, Bound (s.transport.slotBindings.modify k fun _ => ⟨none, false⟩) j x true := by
    rintro k j hne ⟨x, hx⟩
    exact ⟨x, by simpa [Bound, List.getElem?_modify, hne.symm] using hx⟩
  cases hr with
  | unbound hn => exact h.held
  | idle k hb =>
    refine fun j hj => (h.held j hj).imp_right ?_
    rintro ⟨x, hx⟩
    refine still ?_ ⟨x, hx⟩
    rintro rfl
    exact absurd (hb.congr hx).2 (by simp)
  | released k held hb =>
    intro j hj
    obtain ⟨hne, hj⟩ := owned_of_released hi.exclusive hj
    exact (h.held j hj).imp_right fun hx => still hne hx

/-! ## Runs that keep every slot -/

theorem init_tracked {s : StreamData} (h : Init s) : s.Tracked := by
  refine (init_returnable h).tracked ?_
  obtain ⟨started, target, cursor, h⟩ := h
  simp only [start, Option.bind_eq_some_iff, Option.map_eq_some_iff] at h
  obtain ⟨_, _, t, ht, rfl⟩ := h
  intro k hk
  exact absurd hk (by simp [owned])

theorem step_tracked {s s' : StreamData} {l : Label} (hi : s.Tidy) (h : s.Tracked) (hg : s.Keeps l)
    (hs : s.step l = some s') : s'.ended = false → s'.Tracked := by
  intro hend
  cases (step_does hi hs).2 with
  | frame frame answer hm => exact h.ipcFrame hi hm hg.1
  | kept _ n o q => exact ⟨h.held, h.flown, h.undiverted⟩
  | restarted _ t ht n o q =>
    have hr : (s.swapTransport t).Returnable := .restarted ht
    refine ⟨fun k hk => ?_, hr.flown, hr.undiverted⟩
    exact absurd hk (by simp [owned, swapTransport])
  | process late _ hp =>
    obtain ⟨s₁, h₁, hi₁, _, ht₁, rfl⟩ := processFrame_publishes (P := Tracked)
      (fun _ _ _ hi h hr => h.reclaimBuffer hi hr) (fun _ _ _ _ h hr => h.returnBuffer hr) hi h hp
    exact ht₁.publishPending hi₁ (by simpa [diverts, h₁] using hg.2)
  | returned b _ hr => exact h.returnBuffer hr
  | rearmed payload hlatest =>
    exact ⟨fun k hk => (h.held k hk).imp_left fun hp => ⟨rfl, hp.2⟩, h.flown, h.undiverted⟩
  | added b hasData allocated hb _ ha => exact h.adding hi hb ha
  | removed b _ hr => exact h.removing hi hr
  | tornDown => cases hend

theorem reach_tracked {s : StreamData} (h : Reach Init (Guarded Keeps step) s) :
    s.Tidy ∧ (s.ended = false → s.Tracked) := by
  refine h.inv_guarded (I := fun s => s.Tidy ∧ (s.ended = false → s.Tracked))
    (fun s hs => ⟨init_tidy hs, fun _ => init_tracked hs⟩) fun s l s' hi hg hs => ?_
  exact ⟨step_tidy hi.1 hs, step_tracked hi.1 (hi.2 (step_does hi.1 hs).1) hg hs⟩

/-- In every run that rejects no slot frame and diverts no bound buffer, a slot
that was delivered and not released is pending, or in flight with a buffer that
the next reclaim or removal finds. -/
theorem no_slot_leaked {s : StreamData} (h : Reach Init (Guarded Keeps step) s) (hend : s.ended = false) {k : Nat}
    (hk : 0 < s.owned k) : s.Holds k :=
  ((reach_tracked h).2 hend).holds hk

/-! ## A slot in flight, and the two ways to lose one -/

/-- The shown frame while the consumer still reads it. -/
def reading : StreamData := (slotRun (showFrame.take 5)).get (by decide +kernel)

theorem reach_reading : Reach Init (Guarded Keeps step) reading := by
  have h₀ : ∃ s₀, start slotStream (.output none) .hidden = some s₀ ∧
      exec (Guarded Keeps step) s₀ (showFrame.take 5) = some reading := ⟨_, rfl, by decide +kernel⟩
  obtain ⟨s₀, h₀, he⟩ := h₀
  exact (Reach.init ⟨_, _, _, h₀⟩).exec he

theorem no_slot_leaked_reading : reading.ended = false ∧ 0 < reading.owned 0 ∧ reading.Holds 0 :=
  ⟨by decide +kernel, by decide +kernel, no_slot_leaked reach_reading (by decide +kernel) (by decide +kernel)⟩

theorem not_holds {s : StreamData} {k : Nat} (hp : s.pending = false)
    (hb : ∀ b, Bound s.transport.slotBindings k b true → b ∉ s.consumer ∧ b ∉ s.returned) : ¬ s.Holds k := by
  rintro (⟨hp', _⟩ | ⟨b, hk, hc | hr⟩)
  · rw [hp] at hp'; cases hp'
  · exact (hb b hk).1 hc
  · exact (hb b hk).2 hr

/-- A slot frame whose stride is too small for a row. -/
def shortFrame : StreamFrame := { slotFrame 0 with stride := 4 }

/-- What a lost slot is: still owned, and nothing would release it on its return. -/
def Leaks (s : StreamData) (k : Nat) : Prop := s.ended = false ∧ 0 < s.owned k ∧ ¬ s.Holds k

/-- A rejected slot frame is dropped, and its slot is never given back. -/
theorem rejected_slot_leaks : ∃ s, Reach Init step s ∧ s.Leaks 0 := by
  obtain ⟨s, hs, hlook⟩ : ∃ s, slotRun [.ipc (.ok (.frame shortFrame)) ⟨false, none⟩] = some s ∧
      (s.pending = false ∧ s.consumer = [] ∧ s.returned = []) ∧ s.ended = false ∧ 0 < s.owned 0 := by
    refine ⟨(slotRun [.ipc (.ok (.frame shortFrame)) ⟨false, none⟩]).get (by decide +kernel), ?_, ?_⟩ <;> decide +kernel
  obtain ⟨⟨hp, hc, hr⟩, hend, hown⟩ := hlook
  exact ⟨s, reach_slotRun hs, hend, hown, not_holds hp fun b _ => by simp [hc, hr]⟩

/-- The copy path keeps the returned buffer of slot 0 for itself. -/
theorem diverted_slot_leaks : ∃ s, Reach Init step s ∧ s.Leaks 0 := by
  have hrun : ∃ s₀ s, start linearStream (.output none) .hidden = some s₀ ∧ exec step s₀ divertFrame = some s ∧
      (s.pending = false ∧ s.consumer = [] ∧ s.returned = []) ∧ s.ended = false ∧ 0 < s.owned 0 :=
    ⟨_, ((start linearStream (.output none) .hidden).bind (exec step · divertFrame)).get (by decide +kernel), rfl,
      by decide +kernel⟩
  obtain ⟨s₀, s, h₀, he, ⟨hp, hc, hr⟩, hend, hown⟩ := hrun
  exact ⟨s, (Reach.init ⟨_, _, _, h₀⟩).exec he, hend, hown, not_holds hp fun b _ => by simp [hc, hr]⟩

end StreamData

end AtriumPortal.Cast
