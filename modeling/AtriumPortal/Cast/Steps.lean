import AtriumPortal.Cast.Buffers
/-!
# What each callback does

One lemma per operation says which few things it can do to the state, for states
that are `Tidy`: the binding table has one entry per slot, a stored slot frame
names a slot of the table, the buffers are placed, and no slot was delivered
while it was owned. `step_tidy` shows that every step keeps this, in every run.
The ownership proofs then go by these cases and never look into a callback.
-/
open AtriumPortal.Ipc AtriumPortal.Lib.Ledger

namespace AtriumPortal.Cast

/-! ## Slot entries of a log -/

@[simp] theorem entries_nil : entries [] = [] := rfl

@[simp] theorem entries_released (id k : Nat) (held : Bool) (c : Cause) (log : List Event) :
    entries (.released id k held c :: log) = .take k :: entries log := rfl

@[simp] theorem entries_restarted (log : List Event) : entries (.restarted :: log) = .reset :: entries log := rfl

@[simp] theorem entries_copied_slot (k : Nat) (b : Buf) (stride w h : Nat) (log : List Event) :
    entries (.copied (.slot k) b stride w h :: log) = .use k :: entries log := rfl

@[simp] theorem entries_copied_descriptor (b : Buf) (stride w h : Nat) (log : List Event) :
    entries (.copied .descriptor b stride w h :: log) = entries log := rfl

@[simp] theorem entries_queued_slot (b : Buf) (k seq : Nat) (d : List Rect) (log : List Event) :
    entries (.queued b (some k) seq d :: log) = .use k :: entries log := rfl

@[simp] theorem entries_queued_none (b : Buf) (seq : Nat) (d : List Rect) (log : List Event) :
    entries (.queued b none seq d :: log) = entries log := rfl

theorem entries_delivered_some {frame : StreamFrame} {k : Nat} (h : frame.slot = some k) (accepted : Bool)
    (log : List Event) : entries (.delivered frame accepted :: log) = .give k :: entries log := by
  simp [entries, Event.entry, h]

theorem entries_delivered_none {frame : StreamFrame} (h : frame.slot = none) (accepted : Bool) (log : List Event) :
    entries (.delivered frame accepted :: log) = entries log := by
  simp [entries, Event.entry, h]

@[simp] theorem entries_append (log log' : List Event) : entries (log ++ log') = entries log ++ entries log' := by
  simp [entries]

/-! ## The slot of a buffer -/

theorem bound_of_boundSlot {t : Transport} {b : Buf} {k : Nat} (h : t.boundSlot b = some k) :
    ∃ f, Bound t.slotBindings k b f := by
  obtain ⟨hk, hb, _⟩ := List.findIdx?_eq_some_iff_getElem.1 h
  simp only [beq_iff_eq] at hb
  exact ⟨t.slotBindings[k].inFlight, by rw [Bound, List.getElem?_eq_getElem hk, ← hb]⟩

theorem not_bound_of_boundSlot {t : Transport} {b : Buf} (h : t.boundSlot b = none) (k : Nat) (f : Bool) :
    ¬ Bound t.slotBindings k b f := by
  intro hb
  have := List.findIdx?_eq_none_iff.1 h _ (List.mem_of_getElem? hb)
  simp at this

theorem boundSlot_of_bound {t : Transport} {k : Nat} {b : Buf} {f : Bool}
    (hinj : ∀ i j b f g, Bound t.slotBindings i b f → Bound t.slotBindings j b g → i = j)
    (h : Bound t.slotBindings k b f) : t.boundSlot b = some k := by
  cases hs : t.boundSlot b with
  | none => exact absurd h (not_bound_of_boundSlot hs k f)
  | some j =>
    obtain ⟨g, hg⟩ := bound_of_boundSlot hs
    rw [hinj _ _ _ _ _ hg h]

/-! ## A restarted stream -/

namespace Transport

/-- The restarted stream is what `sync_transport` requires: same size, same pixel format. -/
def Accepts (t : Transport) (started : StreamStarted) : Prop :=
  started.width = t.width ∧ started.height = t.height ∧
    (announcedFormat started.format).map (·.spaFormat) = some t.announced.spaFormat

instance (t : Transport) (started : StreamStarted) : Decidable (t.Accepts started) :=
  inferInstanceAs (Decidable (_ ∧ _ ∧ _))

theorem swapRestarted_eq_some {t t' : Transport} {started : StreamStarted} {dmabuf : Bool}
    (h : t.swapRestarted started dmabuf = some t') :
    announcedFormat started.format = some t'.announced ∧ t'.width = started.width ∧ t'.height = started.height ∧
      t'.slotFiles = started.slots.getD [] ∧ t'.offeredModifier = t.offeredModifier ∧
      t'.streamId = started.streamId := by
  obtain ⟨announced, ha, rfl⟩ := Option.map_eq_some_iff.1 h
  exact ⟨ha, rfl, rfl, rfl, rfl, rfl⟩

end Transport

namespace StreamData

theorem held_of_bound {s : StreamData} {k : Nat} {b : Buf} {f : Bool} (h : Bound s.transport.slotBindings k b f) :
    s.held k = s.consumer.contains b := by
  unfold Bound at h
  simp [held, binding, h]

theorem held_eq_true {s : StreamData} {k : Nat} (h : s.held k = true) :
    ∃ b f, Bound s.transport.slotBindings k b f ∧ b ∈ s.consumer := by
  unfold held at h
  split at h
  · next b f hb => exact ⟨b, f, hb, by simpa using h⟩
  · cases h

/-! ## Tidy states -/

structure Tidy (s : StreamData) : Prop where
  table : s.transport.slotBindings.length = s.transport.slotFiles.length
  latest_lt : ∀ k d, s.latest = some (.slot k d) → k < s.transport.slotFiles.length
  placed : Placed s.transport.slotBindings s.pool s.returned s.consumer s.buffers s.poolMem
  exclusive : Exclusive (entries s.log)

theorem Tidy.bound_lt {s : StreamData} (hi : s.Tidy) {k : Nat} {b : Buf} {f : Bool}
    (h : Bound s.transport.slotBindings k b f) : k < s.transport.slotFiles.length := by
  rw [← hi.table]
  exact (List.getElem?_eq_some_iff.1 h).1

theorem slotFiles_nonempty {s : StreamData} {k : Nat} (h : k < s.transport.slotFiles.length) :
    s.transport.slotFiles.isEmpty = false := by
  cases hf : s.transport.slotFiles with
  | nil => simp [hf] at h
  | cons => rfl

/-! ## Releases -/

theorem releaseSlot_eq {s : StreamData} {k : Nat} (hk : k < s.transport.slotFiles.length) (c : Cause) :
    s.releaseSlot k c = s.sendRelease k (s.held k) c := by
  simp [releaseSlot, slotFiles_nonempty hk]

/-- A pending slot frame that is superseded is released; nothing else happens. -/
theorem replaceLatest_cases {s : StreamData} (hi : s.Tidy) (payload : FramePayload) :
    (∃ k d, s.pending = true ∧ s.latest = some (.slot k d) ∧
      s.replaceLatest payload = { s with
        latest := some payload, pending := true,
        log := .released s.transport.streamId k (s.held k) .replaced :: s.log }) ∨
    ((∀ k d, s.pending = true → s.latest ≠ some (.slot k d)) ∧
      s.replaceLatest payload = { s with latest := some payload, pending := true }) := by
  unfold replaceLatest
  split
  · next k d hp hl =>
    refine .inl ⟨k, d, hp, hl, ?_⟩
    rw [releaseSlot_eq (hi.latest_lt k d hl)]
    rfl
  · next h => exact .inr ⟨fun k d hp hl => h k d hp hl, rfl⟩

/-! ## Reclaiming -/

/-- A returned buffer is stashed, ignored, or its slot is released. -/
theorem reclaimBuffer_cases {s : StreamData} (hi : s.Tidy) {b : Buf} (hc : b ∉ s.consumer) :
    ((∀ k f, ¬ Bound s.transport.slotBindings k b f) ∧ s.reclaimBuffer b = { s with pool := s.pool ++ [b] }) ∨
    (∃ k, Bound s.transport.slotBindings k b false ∧ s.reclaimBuffer b = s) ∨
    (∃ k, Bound s.transport.slotBindings k b true ∧ s.reclaimBuffer b = { s with
        transport := s.transport.modifyBinding k (setInFlight false)
        log := .released s.transport.streamId k false .reclaimed :: s.log }) := by
  unfold reclaimBuffer
  cases hs : s.transport.boundSlot b with
  | none => exact .inl ⟨not_bound_of_boundSlot hs, rfl⟩
  | some k =>
    obtain ⟨f, hb⟩ := bound_of_boundSlot hs
    have hbind : s.binding k = some ⟨some b, f⟩ := hb
    cases f with
    | false => exact .inr (.inl ⟨k, hb, by simp [hbind]⟩)
    | true =>
      have hheld : s.held k = false := by rw [held_of_bound hb]; simpa using hc
      refine .inr (.inr ⟨k, hb, ?_⟩)
      simp [hbind, slotFiles_nonempty (hi.bound_lt hb), hheld, sendRelease, Transport.modifyBinding]

/-! ## Copying -/

/-- The four outcomes of `copy_into_pool`: the state after it and its result. -/
inductive Copying (s : StreamData) (source : Source) (file : File) (stride : Nat) (damage : List Rect) :
    StreamData → Bool → Prop
  /-- The frame cannot be read. -/
  | dropped : Copying s source file stride damage s.dropFrame true
  | starved (ht : s.takeBuffer = none) : Copying s source file stride damage s false
  /-- The buffer taken has no room; it goes to the end of the pool. -/
  | diverted (hread : readable file stride s.transport.width s.transport.height = true) (b : Buf) (s₁ : StreamData)
      (ht : s.takeBuffer = some (b, s₁)) :
    Copying s source file stride damage { s₁ with
      pool := s₁.pool ++ [b], droppedFrames := s₁.droppedFrames + 1 } true
  | queued (hread : readable file stride s.transport.width s.transport.height = true) (b : Buf) (s₁ : StreamData)
      (ht : s.takeBuffer = some (b, s₁)) (hb : ∀ k f, ¬ Bound s.transport.slotBindings k b f) :
    Copying s source file stride damage { s₁ with
      sequence := s₁.sequence + 1
      consumer := b :: s₁.consumer
      log := .queued b none s₁.sequence damage ::
        .copied source b stride s.transport.width s.transport.height :: s₁.log } true

theorem mem_of_lookup {α β : Type} [BEq α] [LawfulBEq α] {l : List (α × β)} {a : α} {b : β}
    (h : l.lookup a = some b) : (a, b) ∈ l := by
  obtain ⟨l₁, l₂, rfl, -⟩ := List.lookup_eq_some_iff.1 h
  simp

theorem takeBuffer_cases {s s₁ : StreamData} {b : Buf} (h : s.takeBuffer = some (b, s₁)) :
    (∃ rest, s.pool = b :: rest ∧ s₁ = { s with pool := rest }) ∨
    (s.pool = [] ∧ ∃ rest, s.returned = b :: rest ∧ s₁ = { s with returned := rest }) := by
  unfold takeBuffer at h
  split at h
  · next c rest hp =>
    simp only [Option.some.injEq, Prod.mk.injEq] at h
    obtain ⟨rfl, rfl⟩ := h
    exact .inl ⟨rest, hp, rfl⟩
  · next c rest hp hr =>
    simp only [Option.some.injEq, Prod.mk.injEq] at h
    obtain ⟨rfl, rfl⟩ := h
    exact .inr ⟨hp, rest, hr, rfl⟩
  · cases h

theorem copyIntoPool_spec {s : StreamData} (hi : s.Tidy) (source : Source) (file : File) (stride : Nat)
    (damage : List Rect) : Copying s source file stride damage (s.copyIntoPool source file stride damage).1
      (s.copyIntoPool source file stride damage).2 := by
  unfold copyIntoPool
  by_cases hread : readable file stride s.transport.width s.transport.height = true
  · cases ht : s.takeBuffer with
    | none => simpa [hread] using Copying.starved ht
    | some p =>
      obtain ⟨b, s₁⟩ := p
      have hsame : s₁.transport = s.transport ∧ s₁.poolMem = s.poolMem := by
        rcases takeBuffer_cases ht with ⟨rest, _, rfl⟩ | ⟨_, rest, _, rfl⟩ <;> exact ⟨rfl, rfl⟩
      have hdiv := @Copying.diverted s source file stride damage hread b s₁ ht
      cases hl : s.poolMem.lookup b with
      | none => simpa [hread, hsame, hl, dropFrame] using hdiv
      | some n =>
        by_cases hcap : n < s.transport.height * (s.transport.width * 4)
        · simpa [hread, hsame, hl, hcap, dropFrame] using hdiv
        · -- A buffer with memory of the copy path is bound to no slot.
          have hnb : ∀ k f, ¬ Bound s.transport.slotBindings k b f := fun k f hb =>
            hi.placed.unmapped k b f n hb (mem_of_lookup hl)
          have hslot : s.transport.boundSlot b = none := by
            cases hs : s.transport.boundSlot b with
            | none => rfl
            | some k =>
              obtain ⟨f, hb⟩ := bound_of_boundSlot hs
              exact absurd hb (hnb k f)
          simpa [hread, hsame, hl, hcap, queueRawBuffer, hslot] using Copying.queued hread b s₁ ht hnb
  · simpa [hread] using Copying.dropped

/-! ## Publishing -/

/-- The slot whose pixels the copy path reads for a frame in slot `k`: none when the
slot is in flight, its bound buffer can be forwarded, or it cannot be mapped. -/
def copiedSlot (s : StreamData) (k : Nat) : Option StreamSlot :=
  match s.binding k with
  | some ⟨pool, false⟩ =>
    if s.negotiation.forwardingEligible && pool.isSome then none
    else if s.transport.cpuMappable then s.transport.slotFiles[k]? else none
  | _ => none

/-- What `publish_slot` does with a slot of the table. -/
inductive Publishing (s : StreamData) (k : Nat) (damage : List Rect) : StreamData → Prop
  | inFlight (b : Buf) (hb : Bound s.transport.slotBindings k b true) : Publishing s k damage s.dropFrame
  | forwarded (b : Buf) (hb : Bound s.transport.slotBindings k b false)
      (he : s.negotiation.forwardingEligible = true) :
    Publishing s k damage { s with
      transport := s.transport.modifyBinding k (setInFlight true)
      sequence := s.sequence + 1
      consumer := b :: s.consumer
      log := .queued b (some k) s.sequence damage :: s.log }
  | unmappable (hn : ∀ b, ¬ Bound s.transport.slotBindings k b true) :
    Publishing s k damage { s with
      droppedFrames := s.droppedFrames + 1
      log := .released s.transport.streamId k false .unmappable :: s.log }
  | copied (hn : ∀ b, ¬ Bound s.transport.slotBindings k b true) (slotFile : StreamSlot)
      (hpath : s.copiedSlot k = some slotFile) (s' : StreamData) (r : Bool)
      (hc : Copying s (.slot k) slotFile.file slotFile.stride damage s' r) :
    Publishing s k damage { s' with log := .released s.transport.streamId k false .copied :: s'.log }

theorem takeBuffer_consumer {s s₁ : StreamData} {b : Buf} (h : s.takeBuffer = some (b, s₁)) :
    s₁.transport = s.transport ∧ s₁.consumer = s.consumer ∧ s₁.log = s.log := by
  rcases takeBuffer_cases h with ⟨rest, _, rfl⟩ | ⟨_, rest, _, rfl⟩ <;> exact ⟨rfl, rfl, rfl⟩

/-- Copying leaves the transport alone, and hands no bound buffer to the consumer. -/
theorem Copying.keeps {s s' : StreamData} {source : Source} {file : File} {stride : Nat} {damage : List Rect}
    {r : Bool} (h : Copying s source file stride damage s' r) : s'.transport = s.transport ∧
      ∀ k b f, Bound s.transport.slotBindings k b f → b ∈ s'.consumer → b ∈ s.consumer := by
  cases h with
  | dropped => exact ⟨rfl, fun _ _ _ _ h => h⟩
  | starved => exact ⟨rfl, fun _ _ _ _ h => h⟩
  | diverted _ c s₁ ht => exact ⟨(takeBuffer_consumer ht).1, fun _ _ _ _ h => (takeBuffer_consumer ht).2.1 ▸ h⟩
  | queued _ c s₁ ht hnb =>
    refine ⟨(takeBuffer_consumer ht).1, fun k b f hb hmem => ?_⟩
    rcases List.mem_cons.1 hmem with rfl | hmem
    · exact absurd hb (hnb k f)
    · exact (takeBuffer_consumer ht).2.1 ▸ hmem

theorem held_eq_false {s : StreamData} {k : Nat}
    (h : ∀ b f, Bound s.transport.slotBindings k b f → b ∉ s.consumer) : s.held k = false := by
  cases hh : s.held k with
  | false => rfl
  | true =>
    obtain ⟨b, f, hb, hc⟩ := held_eq_true hh
    exact absurd hc (h b f hb)

theorem publishSlot_spec {s : StreamData} (hi : s.Tidy) {k : Nat} (hk : k < s.transport.slotFiles.length)
    (damage : List Rect) : Publishing s k damage (s.publishSlot k damage) := by
  have hk' : k < s.transport.slotBindings.length := hi.table ▸ hk
  obtain ⟨binding, hbind⟩ : ∃ binding, s.binding k = some binding := ⟨_, List.getElem?_eq_getElem hk'⟩
  obtain ⟨pool, inFlight⟩ := binding
  unfold publishSlot
  simp only [hbind]
  cases inFlight with
  | true =>
    cases pool with
    | none => exact absurd hbind (hi.placed.inFlight_bound k)
    | some b => exact .inFlight b hbind
  | false =>
    have hn : ∀ b, ¬ Bound s.transport.slotBindings k b true := by
      intro b hb
      exact absurd (hbind.symm.trans hb) (by simp)
    have haway : ∀ b f, Bound s.transport.slotBindings k b f → b ∉ s.consumer := by
      intro b f hb
      cases f with
      | true => exact absurd hb (hn b)
      | false => exact (hi.placed.away k b hb).1
    simp only [if_neg Bool.false_ne_true]
    split
    · next b he =>
      have hslot : (s.transport.modifyBinding k (setInFlight true)).boundSlot b = some k := by
        refine boundSlot_of_bound (fun i j x f g hi' hj => ?_) (setInFlight_bound true hbind)
        obtain ⟨f', hi'⟩ := bound_of_setInFlight hi'
        obtain ⟨g', hj⟩ := bound_of_setInFlight hj
        exact hi.placed.injective i j x f' g' hi' hj
      have := @Publishing.forwarded s k damage b hbind he
      simpa only [forwardSlot, queueRawBuffer, hslot] using this
    · next pool _ _ hnot =>
      have hpath : (s.negotiation.forwardingEligible && pool.isSome) = false := by
        cases he : s.negotiation.forwardingEligible with
        | false => rfl
        | true =>
          cases pool with
          | none => rfl
          | some b => exact absurd rfl (hnot b he)
      split
      · have hheld : s.dropFrame.held k = false := held_eq_false haway
        have hrel := releaseSlot_eq (s := s.dropFrame) hk .unmappable
        rw [hrel, hheld]
        exact .unmappable hn
      · next hmap =>
        split
        · next hnone => exact absurd hnone (by simp [List.getElem?_eq_getElem hk])
        · next slotFile hfile =>
          have hcopied : s.copiedSlot k = some slotFile := by
            have hmap : s.transport.cpuMappable = true := by simpa using hmap
            simp only [copiedSlot, hbind, hpath, hmap, hfile, if_true, if_neg Bool.false_ne_true]
          have hc := copyIntoPool_spec hi (.slot k) slotFile.file slotFile.stride damage
          obtain ⟨ht, hcons⟩ := hc.keeps
          have hheld : (s.copyIntoPool (.slot k) slotFile.file slotFile.stride damage).1.held k = false := by
            refine held_eq_false fun b f hb hmem => ?_
            rw [ht] at hb
            exact haway b f hb (hcons k b f hb hmem)
          have hstream : (s.copyIntoPool (.slot k) slotFile.file slotFile.stride damage).1.transport.streamId =
              s.transport.streamId := by rw [ht]
          rw [releaseSlot_eq (by rw [ht]; exact hk), hheld, sendRelease, hstream]
          exact .copied hn slotFile hcopied _ _ hc

/-! ## Every callback keeps the state tidy -/

theorem Tidy.replaceLatest {s : StreamData} (hi : s.Tidy) {payload : FramePayload}
    (hp : ∀ k d, payload = .slot k d → k < s.transport.slotFiles.length) : (s.replaceLatest payload).Tidy := by
  have hlt : ∀ k d, some payload = some (FramePayload.slot k d) → k < s.transport.slotFiles.length :=
    fun k d h => hp k d (Option.some.inj h)
  rcases replaceLatest_cases hi payload with ⟨k, d, _, _, he⟩ | ⟨_, he⟩ <;> rw [he]
  · exact ⟨hi.table, hlt, hi.placed, hi.exclusive⟩
  · exact ⟨hi.table, hlt, hi.placed, hi.exclusive⟩

theorem Tidy.delivered {s : StreamData} (hi : s.Tidy) {frame : StreamFrame} (hm : s.MaySend frame)
    (hid : frame.streamId = s.transport.streamId) (accepted : Bool) :
    ({ s with log := .delivered frame accepted :: s.log } : StreamData).Tidy := by
  refine ⟨hi.table, hi.latest_lt, hi.placed, ?_⟩
  cases hs : frame.slot with
  | none => simpa only [entries_delivered_none hs] using hi.exclusive
  | some k => simpa only [entries_delivered_some hs] using ⟨hm hid k hs, hi.exclusive⟩

theorem Tidy.ipcFrame {s : StreamData} (hi : s.Tidy) {frame : StreamFrame} (hm : s.MaySend frame) :
    (s.ipcFrame frame).Tidy := by
  unfold StreamData.ipcFrame
  split
  · exact hi
  next hid =>
  have hdelivered := hi.delivered hm (by simpa using hid)
  split
  · next payload hv =>
    refine (hdelivered true).replaceLatest fun k d he => ?_
    exact (validateFrame_slot (he ▸ hv)).2
  · exact hdelivered false

theorem Tidy.swapTransport {s : StreamData} (hi : s.Tidy) {t : Transport}
    (ht : t.slotBindings = Transport.unbound t.slotFiles.length) : (s.swapTransport t).Tidy where
  table := by simp [StreamData.swapTransport, ht, Transport.unbound]
  latest_lt := by intro k d h; cases h
  placed := by
    have := hi.placed.unbound t.slotFiles.length
    simpa only [StreamData.swapTransport, ht] using this
  exclusive := hi.exclusive

theorem swapRestarted_unbound {t t' : Transport} {started : StreamStarted} {dmabuf : Bool}
    (h : t.swapRestarted started dmabuf = some t') : t'.slotBindings = Transport.unbound t'.slotFiles.length := by
  simp only [Transport.swapRestarted, Option.map_eq_some_iff] at h
  obtain ⟨announced, _, rfl⟩ := h
  rfl

/-- A fixation leaves the state alone or swaps in an accepted restart. -/
theorem syncTransport_eq_some {s s' : StreamData} {fixated : Option Nat} {answer : RestartAnswer}
    (h : s.syncTransport fixated answer = some s') :
    (needsSwitch s.transport fixated = false ∧ s' = s) ∨
    ∃ started t, needsSwitch s.transport fixated = true ∧ answer.stopped = true ∧ answer.started = some started ∧
      s.transport.Accepts started ∧ s.transport.swapRestarted started (wantDmabuf s.transport fixated) = some t ∧
      s' = s.swapTransport t := by
  unfold syncTransport at h
  split at h
  · next hn => exact .inl ⟨by simpa using hn, (Option.some.inj h).symm⟩
  next hn =>
  split at h
  · cases h
  next hstop =>
  obtain ⟨started, hstart, h⟩ := Option.bind_eq_some_iff.1 h
  split at h
  · cases h
  next hsize =>
  obtain ⟨announced, ha, h⟩ := Option.bind_eq_some_iff.1 h
  split at h
  · cases h
  next hspa =>
  obtain ⟨t, ht, rfl⟩ := Option.map_eq_some_iff.1 h
  refine .inr ⟨started, t, by simpa using hn, by simpa using hstop, hstart, ⟨?_, ?_, ?_⟩, ht, rfl⟩
  · exact Decidable.not_not.1 fun hw => hsize (.inl hw)
  · exact Decidable.not_not.1 fun hh => hsize (.inr hh)
  · rw [ha]
    exact congrArg some (Decidable.not_not.1 hspa)

/-- A geometry restart that succeeds swaps in a stream of the new size. -/
theorem restartStreamGeometry_eq_some {s s' : StreamData} {id w h : Nat} {answer : RestartAnswer}
    (hr : s.restartStreamGeometry id w h answer = some s') :
    ∃ started t, answer.started = some started ∧ started.width = w ∧ started.height = h ∧
      (frameLen w h).isSome = true ∧ s.transport.swapRestarted started s.transport.dmabuf = some t ∧
      s' = s.swapTransport { t with offeredModifier := Transport.offerModifier t.announced t.slotCount } := by
  unfold restartStreamGeometry at hr
  split at hr
  · cases hr
  obtain ⟨n, hlen, hr⟩ := Option.bind_eq_some_iff.1 hr
  split at hr
  · cases hr
  obtain ⟨started, hstart, hr⟩ := Option.bind_eq_some_iff.1 hr
  split at hr
  · cases hr
  next hsize =>
  obtain ⟨t, ht, rfl⟩ := Option.map_eq_some_iff.1 hr
  refine ⟨started, t, hstart, ?_, ?_, by simp [hlen], ht, rfl⟩
  · exact Decidable.not_not.1 fun hw => hsize (.inl hw)
  · exact Decidable.not_not.1 fun hh => hsize (.inr hh)

theorem Tidy.dequeued {s : StreamData} (hi : s.Tidy) {b : Buf} {rest : List Buf} (hr : s.returned = b :: rest) :
    ({ s with returned := rest } : StreamData).Tidy :=
  ⟨hi.table, hi.latest_lt, (hr ▸ hi.placed).dequeue, hi.exclusive⟩

theorem Tidy.reclaimBuffer {s : StreamData} (hi : s.Tidy) {b : Buf} {rest : List Buf} (hr : s.returned = b :: rest) :
    (StreamData.reclaimBuffer { s with returned := rest } b).Tidy := by
  have hp := hr ▸ hi.placed
  rcases reclaimBuffer_cases (hi.dequeued hr) hp.not_elsewhere.2.2 with ⟨hn, he⟩ | ⟨k, hb, he⟩ | ⟨k, hb, he⟩ <;> rw [he]
  · exact ⟨hi.table, hi.latest_lt, hp.stash fun k => hn k false, hi.exclusive⟩
  · exact hi.dequeued hr
  · exact ⟨by simpa [Transport.modifyBinding] using hi.table, hi.latest_lt, hp.reclaim hb, hi.exclusive⟩

/-- The reclaim loop: what one turn keeps, the loop keeps, and nothing is left to dequeue. -/
theorem reclaimLoop_inv {P : StreamData → Prop}
    (hP : ∀ s b rest, s.Tidy → P s → s.returned = b :: rest → P (reclaimBuffer { s with returned := rest } b))
    (l : List Buf) : ∀ s : StreamData, s.Tidy → P s → s.returned = l →
      (reclaimLoop l s).Tidy ∧ P (reclaimLoop l s) ∧ (reclaimLoop l s).returned = [] := by
  induction l with
  | nil => intro s hi hp hr; exact ⟨hi, hp, hr⟩
  | cons b rest ih =>
    intro s hi hp hr
    refine ih _ (hi.reclaimBuffer hr) (hP s b rest hi hp hr) ?_
    unfold reclaimBuffer
    split
    · split
      · split <;> rfl
      · rfl
    · rfl

theorem Tidy.returnBuffer {s s' : StreamData} (hi : s.Tidy) {b : Buf} (h : s.returnBuffer b = some s') : s'.Tidy := by
  unfold StreamData.returnBuffer at h
  split at h
  · next hb => cases h; exact ⟨hi.table, hi.latest_lt, hi.placed.giveBack hb, hi.exclusive⟩
  · cases h

theorem returnBuffer_settled {s s' : StreamData} (hi : s.Tidy) (hs : Settled s.transport.slotBindings s.returned)
    {b : Buf} (h : s.returnBuffer b = some s') : Settled s'.transport.slotBindings s'.returned := by
  unfold returnBuffer at h
  split at h
  · next hb =>
    cases h
    intro k x hk hx
    rcases List.mem_append.1 hx with hx | hx
    · exact hs k x hk hx
    · rw [List.mem_singleton.1 hx] at hk
      exact (hi.placed.away k b hk).1 hb
  · cases h

/-- A process cycle publishes from a settled state, which has what a turn of the
reclaim loop and a late return keep. -/
theorem processFrame_publishes {P : StreamData → Prop}
    (hreclaim : ∀ s b rest, s.Tidy → P s → s.returned = b :: rest → P (reclaimBuffer { s with returned := rest } b))
    (hreturn : ∀ s b s', s.Tidy → P s → s.returnBuffer b = some s' → P s')
    {s s' : StreamData} {late : List Buf} (hi : s.Tidy) (hp : P s) (h : s.processFrame late = some s') :
    ∃ s₁, returnBuffers late s.reclaimReturnedBuffers = some s₁ ∧ s₁.Tidy ∧
      Settled s₁.transport.slotBindings s₁.returned ∧ P s₁ ∧ s' = s₁.publishPending := by
  obtain ⟨s₁, h₁, rfl⟩ := Option.map_eq_some_iff.1 h
  obtain ⟨ht, hp, hr⟩ := reclaimLoop_inv hreclaim s.returned s hi hp rfl
  have hs : Settled s.reclaimReturnedBuffers.transport.slotBindings s.reclaimReturnedBuffers.returned := by
    intro k b _ hb
    rw [reclaimReturnedBuffers, hr] at hb
    cases hb
  refine ⟨s₁, h₁, ?_⟩
  change P s.reclaimReturnedBuffers at hp
  change s.reclaimReturnedBuffers.Tidy at ht
  clear hr h
  generalize s.reclaimReturnedBuffers = s₀ at ht hp hs h₁
  induction late generalizing s₀ with
  | nil => cases h₁; exact ⟨ht, hs, hp, rfl⟩
  | cons b rest ih =>
    obtain ⟨s₂, h₂, h₁⟩ := Option.bind_eq_some_iff.1 h₁
    exact ih s₂ (ht.returnBuffer h₂) (hreturn s₀ b s₂ ht hp h₂) (returnBuffer_settled ht hs h₂) h₁

theorem Copying.tidy {s s' : StreamData} {source : Source} {file : File} {stride : Nat} {damage : List Rect}
    {r : Bool} (h : Copying s source file stride damage s' r) (hi : s.Tidy)
    (hs : Settled s.transport.slotBindings s.returned) : s'.Tidy := by
  cases h with
  | dropped => exact ⟨hi.table, hi.latest_lt, hi.placed, hi.exclusive⟩
  | starved => exact hi
  | diverted _ b s₁ ht =>
    rcases takeBuffer_cases ht with ⟨rest, hp, rfl⟩ | ⟨_, rest, hr, rfl⟩
    · exact ⟨hi.table, hi.latest_lt, (hp ▸ hi.placed).rotate, hi.exclusive⟩
    · exact ⟨hi.table, hi.latest_lt, (hr ▸ hi.placed).stash fun k hb => hs k b hb (by simp [hr]), hi.exclusive⟩
  | queued _ b s₁ ht hb =>
    have hex : Exclusive (entries (.queued b none s.sequence damage ::
        .copied source b stride s.transport.width s.transport.height :: s.log)) := by
      cases source with
      | descriptor => exact hi.exclusive
      | slot k => exact hi.exclusive
    rcases takeBuffer_cases ht with ⟨rest, hp, rfl⟩ | ⟨_, rest, hr, rfl⟩
    · have h := hp ▸ hi.placed
      obtain ⟨hpool, hret, hcons⟩ := h.not_elsewhere_pool
      exact ⟨hi.table, hi.latest_lt,
        h.pop.queue (h.known b (.inl (by simp))) hpool hret hcons fun k => hb k false, hex⟩
    · have h := hr ▸ hi.placed
      obtain ⟨hpool, hret, hcons⟩ := h.not_elsewhere
      exact ⟨hi.table, hi.latest_lt,
        h.dequeue.queue (h.known b (.inr (.inl (by simp)))) hpool hret hcons fun k => hb k false, hex⟩

theorem Publishing.tidy {s s' : StreamData} {k : Nat} {damage : List Rect} (h : Publishing s k damage s')
    (hi : s.Tidy) (hs : Settled s.transport.slotBindings s.returned) : s'.Tidy := by
  cases h with
  | inFlight b hb => exact ⟨hi.table, hi.latest_lt, hi.placed, hi.exclusive⟩
  | forwarded b hb he =>
    have hflag := hi.placed.flag true hb (by simp)
    obtain ⟨hcons, hpool⟩ := hi.placed.away k b hb
    refine ⟨by simpa [Transport.modifyBinding] using hi.table, hi.latest_lt, ?_, hi.exclusive⟩
    refine hflag.queue (hi.placed.bound_known k b _ hb) hpool (hs k b hb) hcons fun j hj => ?_
    rcases bound_setInFlight hj with ⟨_, hf, _⟩ | ⟨hne, hj⟩
    · cases hf
    · exact hne (hi.placed.injective j k b _ _ hj hb)
  | unmappable hn => exact ⟨hi.table, hi.latest_lt, hi.placed, hi.exclusive⟩
  | copied hn slotFile _ s' r hc =>
    have := hc.tidy hi hs
    exact ⟨this.table, this.latest_lt, this.placed, this.exclusive⟩

/-- Publishing the pending frame: nothing, a copied descriptor, or a slot frame. -/
theorem publishPending_cases {s : StreamData} (hi : s.Tidy) :
    (s.pending = false ∧ s.publishPending = s) ∨
    (s.pending = true ∧ s.latest = none ∧ s.publishPending = { s with pending := false }) ∨
    (∃ file stride damage s' r, s.pending = true ∧ s.latest = some (.descriptor file stride damage) ∧
      Copying s .descriptor file stride damage s' r ∧
      s.publishPending = if r then { s' with pending := false } else s') ∨
    (∃ k damage s', s.pending = true ∧ s.latest = some (.slot k damage) ∧ Publishing s k damage s' ∧
      s.publishPending = { s' with pending := false }) := by
  unfold publishPending
  cases hp : s.pending with
  | false => exact .inl ⟨rfl, by simp⟩
  | true =>
    cases hl : s.latest with
    | none => exact .inr (.inl ⟨rfl, rfl, by simp⟩)
    | some payload =>
      cases payload with
      | descriptor file stride damage =>
        have hc := copyIntoPool_spec hi .descriptor file stride damage
        rcases hcopy : s.copyIntoPool .descriptor file stride damage with ⟨s', r⟩
        rw [hcopy] at hc
        refine .inr (.inr (.inl ⟨file, stride, damage, s', r, rfl, rfl, hc, ?_⟩))
        cases r <;> simp [hcopy]
      | slot k damage =>
        exact .inr (.inr (.inr ⟨k, damage, _, rfl, rfl, publishSlot_spec hi (hi.latest_lt k damage hl) damage, by simp⟩))

theorem Tidy.publishPending {s : StreamData} (hi : s.Tidy) (hs : Settled s.transport.slotBindings s.returned) :
    s.publishPending.Tidy := by
  rcases publishPending_cases hi with ⟨_, he⟩ | ⟨_, _, he⟩ | ⟨_, _, _, s', r, _, _, hc, he⟩ |
    ⟨k, damage, s', _, _, hpub, he⟩ <;> rw [he]
  · exact hi
  · exact ⟨hi.table, hi.latest_lt, hi.placed, hi.exclusive⟩
  · have ht := hc.tidy hi hs
    cases r
    · exact ht
    · exact ⟨ht.table, ht.latest_lt, ht.placed, ht.exclusive⟩
  · have ht := hpub.tidy hi hs
    exact ⟨ht.table, ht.latest_lt, ht.placed, ht.exclusive⟩

/-! ## The buffer callbacks -/

/-- `add_buffer` binds the buffer to a free slot, backs it with memory, or does neither. -/
inductive Adding (s : StreamData) (b : Buf) : StreamData → Prop
  | bound (k : Nat) (f : Bool) (hk : s.transport.slotBindings[k]? = some ⟨none, f⟩) :
    Adding s b { s with
      buffers := b :: s.buffers
      returned := s.returned ++ [b]
      transport := s.transport.modifyBinding k ({ · with pool := some b }) }
  | mapped (n : Nat) : Adding s b { s with
      buffers := b :: s.buffers
      returned := s.returned ++ [b]
      poolMem := (b, n) :: s.poolMem }
  | bare : Adding s b { s with buffers := b :: s.buffers, returned := s.returned ++ [b] }

theorem addBuffer_spec (s : StreamData) (b : Buf) (hasData allocated : Bool) :
    Adding s b (s.addBuffer b hasData allocated) := by
  unfold addBuffer
  simp only
  split
  · next k hk =>
    split at hk
    · obtain ⟨hlt, hnone, _⟩ := List.findIdx?_eq_some_iff_getElem.1 hk
      refine .bound k s.transport.slotBindings[k].inFlight ?_
      rw [List.getElem?_eq_getElem hlt, ← Option.isNone_iff_eq_none.1 hnone]
    · cases hk
  · split
    · exact .mapped _
    · exact .bare

theorem Adding.tidy {s s' : StreamData} {b : Buf} (h : Adding s b s') (hi : s.Tidy) (hb : b ∉ s.buffers) : s'.Tidy := by
  have hadd := hi.placed.add hb
  have hn : ∀ k f, ¬ Bound s.transport.slotBindings k b f := fun k f hk => hb (hi.placed.bound_known k b f hk)
  cases h with
  | bound k f hk =>
    refine ⟨by simpa [Transport.modifyBinding] using hi.table, hi.latest_lt, ?_, hi.exclusive⟩
    exact hadd.bind List.mem_cons_self ⟨f, hk⟩ hn (fun h => hb (hi.placed.known b (.inr (.inr h))))
      (fun h => hb (hi.placed.known b (.inl h))) (fun n h => hb (hi.placed.mapped_known b n h))
  | mapped n => exact ⟨hi.table, hi.latest_lt, hadd.map n List.mem_cons_self hn, hi.exclusive⟩
  | bare => exact ⟨hi.table, hi.latest_lt, hadd, hi.exclusive⟩

/-- `remove_buffer` forgets the buffer, with its slot and a release if it was in flight. -/
inductive Removing (s : StreamData) (b : Buf) : StreamData → Prop
  | unbound (hn : ∀ k f, ¬ Bound s.transport.slotBindings k b f) : Removing s b (s.forget b)
  | idle (k : Nat) (hb : Bound s.transport.slotBindings k b false) :
    Removing s b { s.forget b with transport := s.transport.modifyBinding k fun _ => ⟨none, false⟩ }
  | released (k : Nat) (held : Bool) (hb : Bound s.transport.slotBindings k b true) :
    Removing s b { s.forget b with
      transport := s.transport.modifyBinding k fun _ => ⟨none, false⟩
      log := .released s.transport.streamId k held .removed :: s.log }

theorem removeBuffer_spec {s : StreamData} (hi : s.Tidy) (b : Buf) : Removing s b (s.removeBuffer b) := by
  unfold removeBuffer
  cases hs : s.transport.boundSlot b with
  | none => exact .unbound (not_bound_of_boundSlot hs)
  | some k =>
    obtain ⟨f, hb⟩ := bound_of_boundSlot hs
    have hbind : s.binding k = some ⟨some b, f⟩ := hb
    cases f with
    | false =>
      simp only [hbind]
      exact .idle k hb
    | true =>
      simp only [hbind, slotFiles_nonempty (hi.bound_lt hb), if_neg Bool.false_ne_true]
      exact .released k (s.held k) hb

theorem Removing.tidy {s s' : StreamData} {b : Buf} (h : Removing s b s') (hi : s.Tidy) : s'.Tidy := by
  have cleared : ∀ k f, Bound s.transport.slotBindings k b f → ∀ j g,
      ¬ Bound (s.transport.slotBindings.modify k fun _ => ⟨none, false⟩) j b g := by
    intro k f hk j g hj
    obtain ⟨hne, hj⟩ := Placed.bound_clear hj
    exact hne (hi.placed.injective j k b g f hj hk)
  cases h with
  | unbound hn => exact ⟨hi.table, hi.latest_lt, hi.placed.remove hn, hi.exclusive⟩
  | idle k hb =>
    exact ⟨by simpa [Transport.modifyBinding] using hi.table, hi.latest_lt,
      (hi.placed.clear k).remove (cleared k _ hb), hi.exclusive⟩
  | released k held hb =>
    exact ⟨by simpa [Transport.modifyBinding] using hi.table, hi.latest_lt,
      (hi.placed.clear k).remove (cleared k _ hb), hi.exclusive⟩

/-! ## Teardown -/

theorem exclusive_teardownReleases (s : StreamData) (bindings : List SlotBinding) (k : Nat) {log : List Event}
    (h : Exclusive (entries log)) : Exclusive (entries (s.teardownReleases bindings k ++ log)) := by
  induction bindings generalizing k log with
  | nil => exact h
  | cons binding rest ih =>
    unfold teardownReleases
    split
    · rw [List.append_assoc]
      exact ih (k + 1) h
    · exact ih (k + 1) h

theorem Tidy.teardown {s : StreamData} (hi : s.Tidy) : s.teardown.Tidy := by
  refine ⟨hi.table, hi.latest_lt, { hi.placed with unmapped := ?_, mapped_known := ?_ }, ?_⟩
  · intro k b f n _ hm; cases hm
  · intro b n hm; cases hm
  · exact exclusive_teardownReleases s s.transport.slotBindings 0 hi.exclusive

/-! ## Every step -/

/-- What a step can do. -/
inductive Does (s : StreamData) : Label → StreamData → Prop
  | frame (frame : StreamFrame) (answer : RestartAnswer) (hm : s.MaySend frame) :
    Does s (.ipc (.ok (.frame frame)) answer) (s.ipcFrame frame)
  /-- Nothing but the negotiation, the offer and the quit flag. -/
  | kept (l : Label) (n : Negotiation) (o : List FormatPod) (q : Bool) :
    Does s l { s with negotiation := n, offered := o, quit := q }
  | restarted (l : Label) (t : Transport) (ht : t.slotBindings = Transport.unbound t.slotFiles.length)
      (n : Negotiation) (o : List FormatPod) (q : Bool) :
    Does s l { s.swapTransport t with negotiation := n, offered := o, quit := q }
  | process (late : List Buf) (s' : StreamData) (h : s.processFrame late = some s') : Does s (.process late) s'
  | returned (b : Buf) (s' : StreamData) (h : s.returnBuffer b = some s') : Does s (.returnBuffer b) s'
  | rearmed (payload : FramePayload) (h : s.latest = some payload) :
    Does s (.stateChanged .streaming) { s with pending := true }
  | added (b : Buf) (hasData allocated : Bool) (hb : b ∉ s.buffers) (s' : StreamData) (h : Adding s b s') :
    Does s (.addBuffer b hasData allocated) s'
  | removed (b : Buf) (s' : StreamData) (h : Removing s b s') : Does s (.removeBuffer b) s'
  | tornDown : Does s .teardown s.teardown

theorem applyFixatedFormat_does (s : StreamData) (fixated : FixatedFormat) (answer : RestartAnswer) :
    Does s (.formatParam fixated answer) (s.applyFixatedFormat fixated answer) := by
  unfold applyFixatedFormat
  split
  · exact .kept _ s.negotiation s.offered true
  · next s' hs =>
    rcases syncTransport_eq_some hs with ⟨-, rfl⟩ | ⟨started, t, -, -, -, -, ht, rfl⟩
    · exact .kept _ _ s'.offered s'.quit
    · exact .restarted _ t (swapRestarted_unbound ht) _ s.offered s.quit

theorem ipcGeometryChanged_does (s : StreamData) (l : Label) (id w h : Nat) (answer : RestartAnswer) :
    Does s l (s.ipcGeometryChanged id w h answer) := by
  unfold ipcGeometryChanged
  split
  · exact .kept l s.negotiation s.offered s.quit
  split
  · next s' hs =>
    obtain ⟨started, t, -, -, -, -, ht, rfl⟩ := restartStreamGeometry_eq_some hs
    have hunbound := swapRestarted_unbound ht
    exact .restarted l { t with offeredModifier := Transport.offerModifier t.announced t.slotCount } hunbound
      s.negotiation _ s.quit
  · exact .kept l s.negotiation s.offered true

theorem step_does {s s' : StreamData} {l : Label} (hi : s.Tidy) (h : s.step l = some s') :
    s.ended = false ∧ Does s l s' := by
  cases hend : s.ended with
  | true => simp [step, hend] at h
  | false =>
    refine ⟨rfl, ?_⟩
    replace h : s.callback l = some s' := by simpa [step, hend] using h
    clear hend
    have quits : ∀ l, Does s l { s with quit := true } := fun l => .kept l s.negotiation s.offered true
    have keeps : ∀ l, Does s l s := fun l => .kept l s.negotiation s.offered s.quit
    cases l <;> simp only [callback] at h
    case ipc message answer =>
      rcases message with error | message
      · cases h; exact quits _
      · cases message with
        | frame frame =>
          by_cases hm : s.MaySend frame
          · simp only [hm, if_true] at h; cases h; exact .frame frame answer hm
          · simp [hm] at h
        | ended id reason => cases h; exact quits _
        | leaseRenewed => cases h; exact keeps _
        | geometryChanged id w hgt => cases h; exact ipcGeometryChanged_does s _ id w hgt answer
    case process late => exact .process late s' h
    case returnBuffer b => exact .returned b s' h
    case stateChanged new =>
      cases h
      cases new with
      | error message => exact quits _
      | streaming =>
        cases hl : s.latest with
        | none => simpa [stateChanged, hl] using keeps (.stateChanged .streaming)
        | some payload => simpa [stateChanged, hl] using Does.rearmed payload hl
      | _ => exact keeps _
    case formatParam fixated answer => cases h; exact applyFixatedFormat_does s fixated answer
    case buffersParam mask => cases h; exact .kept _ _ s.offered s.quit
    case addBuffer b hasData allocated =>
      by_cases hb : b ∈ s.buffers
      · simp [hb] at h
      · simp only [hb, if_false] at h
        cases h
        exact .added b hasData allocated hb _ (addBuffer_spec s b hasData allocated)
    case removeBuffer b =>
      by_cases hb : b ∈ s.buffers
      · simp only [hb, if_true] at h
        cases h
        exact .removed b _ (removeBuffer_spec hi b)
      · simp [hb] at h
    case stop => cases h; exact quits _
    case teardown =>
      by_cases hq : s.quit = true
      · simp only [hq, if_true] at h; cases h; exact .tornDown
      · simp [hq] at h

theorem step_tidy {s s' : StreamData} {l : Label} (hi : s.Tidy) (h : s.step l = some s') : s'.Tidy := by
  cases (step_does hi h).2 with
  | frame frame answer hm => exact hi.ipcFrame hm
  | kept _ n o q => exact ⟨hi.table, hi.latest_lt, hi.placed, hi.exclusive⟩
  | restarted _ t ht n o q =>
    have := hi.swapTransport ht
    exact ⟨this.table, this.latest_lt, this.placed, this.exclusive⟩
  | process late _ h =>
    obtain ⟨s₁, _, hi, hs, _, rfl⟩ := processFrame_publishes (P := Tidy) (fun _ _ _ hi _ hr => hi.reclaimBuffer hr)
      (fun _ _ _ hi _ h => hi.returnBuffer h) hi hi h
    exact hi.publishPending hs
  | returned b _ h => exact hi.returnBuffer h
  | rearmed payload hl => exact ⟨hi.table, hi.latest_lt, hi.placed, hi.exclusive⟩
  | added b hasData allocated hb _ h => exact h.tidy hi hb
  | removed b _ h => exact h.tidy hi
  | tornDown => exact hi.teardown

theorem init_tidy {s : StreamData} (h : Init s) : s.Tidy := by
  obtain ⟨started, target, cursor, h⟩ := h
  simp only [start, Option.bind_eq_some_iff, Option.map_eq_some_iff] at h
  obtain ⟨_, _, t, ht, rfl⟩ := h
  simp only [Transport.new, Option.map_eq_some_iff] at ht
  obtain ⟨announced, _, rfl⟩ := ht
  have empty : Placed [] [] [] [] [] [] := by constructor <;> simp [Bound]
  exact {
    table := by simp [Transport.unbound]
    latest_lt := fun k d h => by cases h
    placed := empty.unbound _
    exclusive := trivial }

end StreamData

end AtriumPortal.Cast
