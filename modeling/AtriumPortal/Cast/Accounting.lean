import AtriumPortal.Cast.CopyPath
/-!
# What becomes of a pending frame

A cycle queues a pending frame with the next sequence number, counts it as dropped, or
leaves it pending. `publish_slot` ignores that the copy path found no buffer, so a slot
frame can go neither way; `Starves` says of the state before the cycle exactly when.
-/
open AtriumPortal.Ipc AtriumPortal.Lib.Runs

namespace AtriumPortal.Cast

def Event.sequence? : Event → Option Nat
  | .queued _ _ sequence _ => some sequence
  | _ => none

namespace StreamData

/-- The sequence numbers of the queued buffers, newest first. -/
def sequences (s : StreamData) : List Nat := s.log.filterMap Event.sequence?

/-- No buffer is queued and nothing is counted. -/
structure Idles (s s' : StreamData) : Prop where
  sequences : s'.sequences = s.sequences
  sequence : s'.sequence = s.sequence
  dropped : s'.droppedFrames = s.droppedFrames

/-- One buffer is queued, with the next sequence number. -/
structure Queues (s s' : StreamData) : Prop where
  sequences : s'.sequences = s.sequence :: s.sequences
  sequence : s'.sequence = s.sequence + 1
  dropped : s'.droppedFrames = s.droppedFrames

/-- One frame is counted as dropped. -/
structure Drops (s s' : StreamData) : Prop where
  sequences : s'.sequences = s.sequences
  sequence : s'.sequence = s.sequence
  dropped : s'.droppedFrames = s.droppedFrames + 1

/-- A pending frame is queued, counted, or still pending. -/
def Settles (s s' : StreamData) : Prop :=
  (Queues s s' ∧ s'.pending = false) ∨ (Drops s s' ∧ s'.pending = false) ∨ (Idles s s' ∧ s'.pending = true)

/-- The buffers that are free once the reclaim loop is through. -/
def free (s : StreamData) : List Buf := s.pool ++ s.returned.filter fun b => (s.transport.boundSlot b).isNone

/-- The slot that the copy path reads for a frame in slot `k` once the reclaim loop is
through, where a returned buffer's slot is no longer in flight. -/
def readsSlot (s : StreamData) (k : Nat) : Option StreamSlot :=
  match s.binding k with
  | some ⟨pool, inFlight⟩ =>
    if inFlight && !pool.any (s.returned.contains ·) then none
    else if s.negotiation.forwardingEligible && pool.isSome then none
    else if s.transport.cpuMappable then s.transport.slotFiles[k]? else none
  | none => none

/-- A slot frame is to be copied and can be read, and there is no buffer to copy it to. -/
def Starves (s : StreamData) (late : List Buf) : Prop :=
  s.free = [] ∧ late = [] ∧ ∃ k damage slot, s.latest = some (.slot k damage) ∧ s.readsSlot k = some slot ∧
    readable slot.file slot.stride s.transport.width s.transport.height = true

theorem Idles.refl (s : StreamData) : Idles s s := ⟨rfl, rfl, rfl⟩

theorem Idles.trans {s s' s'' : StreamData} (h : Idles s s') (h' : Idles s' s'') : Idles s s'' :=
  ⟨h'.1.trans h.1, h'.2.trans h.2, h'.3.trans h.3⟩

theorem Idles.settles_iff {s s₁ s' : StreamData} (h : Idles s s₁) : Settles s s' ↔ Settles s₁ s' := by
  have hq : Queues s s' ↔ Queues s₁ s' := by
    constructor
    · rintro ⟨hs, hn, hd⟩
      exact ⟨by rw [hs, h.1, h.2], by rw [hn, h.2], by rw [hd, h.3]⟩
    · rintro ⟨hs, hn, hd⟩
      exact ⟨by rw [hs, h.1, h.2], by rw [hn, h.2], by rw [hd, h.3]⟩
  have hd : Drops s s' ↔ Drops s₁ s' := by
    constructor
    · rintro ⟨hs, hn, hd⟩
      exact ⟨by rw [hs, h.1], by rw [hn, h.2], by rw [hd, h.3]⟩
    · rintro ⟨hs, hn, hd⟩
      exact ⟨by rw [hs, h.1], by rw [hn, h.2], by rw [hd, h.3]⟩
  have hi : Idles s s' ↔ Idles s₁ s' := by
    constructor
    · rintro ⟨hs, hn, hd⟩
      exact ⟨by rw [hs, h.1], by rw [hn, h.2], by rw [hd, h.3]⟩
    · exact h.trans
  rw [Settles, Settles, hq, hd, hi]

/-! ## Publishing -/

/-- A copy is starved, queues its buffer, or is counted. -/
theorem copyIntoPool_counts (s : StreamData) (source : Source) (file : File) (stride : Nat) (damage : List Rect) :
    (readable file stride s.transport.width s.transport.height = true ∧ s.takeBuffer = none ∧
      s.copyIntoPool source file stride damage = (s, false)) ∨
    (¬(readable file stride s.transport.width s.transport.height = true ∧ s.takeBuffer = none) ∧
      (s.copyIntoPool source file stride damage).2 = true ∧
      (Queues s (s.copyIntoPool source file stride damage).1 ∨
        Drops s (s.copyIntoPool source file stride damage).1)) := by
  unfold copyIntoPool
  dsimp only
  cases hread : readable file stride s.transport.width s.transport.height with
  | false => exact .inr ⟨by simp, rfl, .inr ⟨rfl, rfl, rfl⟩⟩
  | true =>
    simp only [Bool.not_true, Bool.false_eq_true, if_false]
    cases ht : s.takeBuffer with
    | none => exact .inl ⟨trivial, rfl, rfl⟩
    | some t =>
      obtain ⟨b, s₁⟩ := t
      have hidle : Idles s s₁ := by
        rcases takeBuffer_cases ht with ⟨rest, -, rfl⟩ | ⟨-, rest, -, rfl⟩ <;> exact ⟨rfl, rfl, rfl⟩
      refine .inr ⟨by simp, ?_⟩
      dsimp only
      split
      · exact ⟨rfl, .inr ⟨hidle.1, hidle.2, congrArg (· + 1) hidle.3⟩⟩
      · split
        · exact ⟨rfl, .inr ⟨hidle.1, hidle.2, congrArg (· + 1) hidle.3⟩⟩
        · exact ⟨rfl, .inl ⟨congrArg₂ List.cons hidle.2 hidle.1, congrArg (· + 1) hidle.2, hidle.3⟩⟩

theorem idles_releaseSlot (s : StreamData) (k : Nat) (c : Cause) : Idles s (s.releaseSlot k c) := by
  unfold releaseSlot
  split <;> exact ⟨rfl, rfl, rfl⟩

theorem Queues.idles {s s' s'' : StreamData} (h : Queues s s') (h' : Idles s' s'') : Queues s s'' :=
  ⟨h'.1.trans h.1, h'.2.trans h.2, h'.3.trans h.3⟩

theorem Drops.idles {s s' s'' : StreamData} (h : Drops s s') (h' : Idles s' s'') : Drops s s'' :=
  ⟨h'.1.trans h.1, h'.2.trans h.2, h'.3.trans h.3⟩

/-- The copy path has the slot's pixels and no buffer. -/
def SlotStarved (s : StreamData) (k : Nat) : Prop :=
  s.takeBuffer = none ∧ ∃ slot, s.copiedSlot k = some slot ∧
    readable slot.file slot.stride s.transport.width s.transport.height = true

theorem publishSlot_of_copied {s : StreamData} {k : Nat} {slot : StreamSlot} (h : s.copiedSlot k = some slot)
    (damage : List Rect) : s.publishSlot k damage =
      (s.copyIntoPool (.slot k) slot.file slot.stride damage).1.releaseSlot k .copied := by
  unfold copiedSlot at h
  split at h
  · next pool hbind =>
    split at h
    · cases h
    next hpath =>
    split at h
    · next hmap =>
      simp only [publishSlot, hbind, hmap, h, Bool.false_eq_true, if_false, Bool.not_true]
      split
      · next b he => exact absurd (by simp [he]) hpath
      · rfl
    · cases h
  · cases h

/-- A slot frame that is not to be copied is forwarded or counted. -/
theorem publishSlot_of_not_copied {s : StreamData} (hi : s.Tidy) {k : Nat} (hk : k < s.transport.slotFiles.length)
    (h : s.copiedSlot k = none) (damage : List Rect) :
    Queues s (s.publishSlot k damage) ∨ Drops s (s.publishSlot k damage) := by
  have hspec := publishSlot_spec hi hk damage
  generalize s.publishSlot k damage = s' at hspec
  cases hspec with
  | inFlight => exact .inr ⟨rfl, rfl, rfl⟩
  | forwarded => exact .inl ⟨rfl, rfl, rfl⟩
  | unmappable => exact .inr ⟨rfl, rfl, rfl⟩
  | copied _ slot hpath => rw [hpath] at h; cases h

/-- A slot frame is queued or counted, but for a starved copy, which leaves no trace. -/
theorem publishSlot_counts {s : StreamData} (hi : s.Tidy) {k : Nat} (hk : k < s.transport.slotFiles.length)
    (damage : List Rect) :
    (s.SlotStarved k ∧ Idles s (s.publishSlot k damage)) ∨
    (¬s.SlotStarved k ∧ (Queues s (s.publishSlot k damage) ∨ Drops s (s.publishSlot k damage))) := by
  cases hc : s.copiedSlot k with
  | none =>
    refine .inr ⟨?_, publishSlot_of_not_copied hi hk hc damage⟩
    rintro ⟨-, slot, hs, -⟩
    rw [hc] at hs
    cases hs
  | some slot =>
    rw [publishSlot_of_copied hc]
    rcases s.copyIntoPool_counts (.slot k) slot.file slot.stride damage with ⟨hread, ht, he⟩ | ⟨hn, -, hcount⟩
    · exact .inl ⟨⟨ht, slot, hc, hread⟩, he ▸ idles_releaseSlot s k .copied⟩
    · refine .inr ⟨?_, hcount.imp (·.idles (idles_releaseSlot _ k .copied)) (·.idles (idles_releaseSlot _ k .copied))⟩
      rintro ⟨ht, slot', hs, hread⟩
      rw [hc] at hs
      cases hs
      exact hn ⟨hread, ht⟩

theorem publishPending_descriptor {s : StreamData} (hp : s.pending = true) {file : File} {stride : Nat}
    {damage : List Rect} (hl : s.latest = some (.descriptor file stride damage)) :
    s.publishPending =
      match s.copyIntoPool .descriptor file stride damage with
      | (s', true) => { s' with pending := false }
      | (s', false) => s' := by
  rcases hc : s.copyIntoPool .descriptor file stride damage with ⟨s', r⟩
  cases r <;> simp [publishPending, hp, hl, hc]

theorem publishPending_slot {s : StreamData} (hp : s.pending = true) {k : Nat} {damage : List Rect}
    (hl : s.latest = some (.slot k damage)) :
    s.publishPending = { s.publishSlot k damage with pending := false } := by
  simp [publishPending, hp, hl]

/-- A pending frame is settled, but for a slot frame that is starved. -/
theorem publishPending_settles {s : StreamData} (hi : s.Tidy) (hp : s.pending = true) {payload : FramePayload}
    (hl : s.latest = some payload) :
    Settles s s.publishPending ↔ ¬∃ k damage, payload = .slot k damage ∧ s.SlotStarved k := by
  cases payload with
  | descriptor file stride damage =>
    refine iff_of_true ?_ nofun
    rw [publishPending_descriptor hp hl]
    rcases s.copyIntoPool_counts .descriptor file stride damage with ⟨-, -, he⟩ | ⟨-, hdone, hcount⟩
    · rw [he]
      exact .inr (.inr ⟨.refl s, hp⟩)
    · rcases hc : s.copyIntoPool .descriptor file stride damage with ⟨s', r⟩
      rw [hc] at hdone hcount
      cases hdone
      rcases hcount with ⟨hs, hn, hd⟩ | ⟨hs, hn, hd⟩
      · exact .inl ⟨⟨hs, hn, hd⟩, rfl⟩
      · exact .inr (.inl ⟨⟨hs, hn, hd⟩, rfl⟩)
  | slot k damage =>
    rw [publishPending_slot hp hl]
    rcases publishSlot_counts hi (hi.latest_lt k damage hl) damage with ⟨hstarved, hidle⟩ | ⟨hfed, hcount⟩
    · refine iff_of_false ?_ fun h => h ⟨k, damage, rfl, hstarved⟩
      -- Nothing is queued or counted, and the frame is no longer pending.
      rintro (⟨hq, -⟩ | ⟨hd, -⟩ | ⟨-, hpending⟩)
      · exact absurd (hq.sequence.symm.trans hidle.sequence) (Nat.succ_ne_self _)
      · exact absurd (hd.dropped.symm.trans hidle.dropped) (Nat.succ_ne_self _)
      · cases hpending
    · refine iff_of_true ?_ ?_
      · rcases hcount with ⟨hs, hn, hd⟩ | ⟨hs, hn, hd⟩
        · exact .inl ⟨⟨hs, hn, hd⟩, rfl⟩
        · exact .inr (.inl ⟨⟨hs, hn, hd⟩, rfl⟩)
      · rintro ⟨_, _, he, hstarved⟩
        cases he
        exact hfed hstarved

/-! ## The cycle before it publishes -/

theorem boundSlot_modifyBinding (t : Transport) (k : Nat) (v : Bool) (b : Buf) :
    (t.modifyBinding k (setInFlight v)).boundSlot b = t.boundSlot b := by
  unfold Transport.boundSlot Transport.modifyBinding
  dsimp only
  induction t.slotBindings generalizing k with
  | nil => simp
  | cons binding rest ih =>
    cases k with
    | zero => simp [List.findIdx?_cons, setInFlight]
    | succ k => simp [List.findIdx?_cons, ih k]

/-- What the reclaim loop leaves as it was. -/
structure Reclaims (s s' : StreamData) : Prop where
  idles : Idles s s'
  pending : s'.pending = s.pending
  latest : s'.latest = s.latest
  stream : s'.transport.stream = s.transport.stream
  free : s'.free = s.free
  readsSlot : ∀ k, s'.readsSlot k = s.readsSlot k

theorem Reclaims.refl (s : StreamData) : Reclaims s s := ⟨.refl s, rfl, rfl, rfl, rfl, fun _ => rfl⟩

theorem Reclaims.trans {s s' s'' : StreamData} (h : Reclaims s s') (h' : Reclaims s' s'') : Reclaims s s'' :=
  ⟨h.idles.trans h'.idles, h'.pending.trans h.pending, h'.latest.trans h.latest, h'.stream.trans h.stream,
    h'.free.trans h.free, fun k => (h'.readsSlot k).trans (h.readsSlot k)⟩

/-- A dequeued buffer matters to a slot in flight only if it is bound to it. -/
theorem readsSlot_dequeue {s s' : StreamData} {b : Buf} {rest : List Buf} (hr : s.returned = b :: rest)
    (hr' : s'.returned = rest) (hn : s'.negotiation = s.negotiation) (hs : s'.transport.stream = s.transport.stream)
    {k : Nat} (hk : s'.binding k = s.binding k) (hb : ¬Bound s.transport.slotBindings k b true) :
    s'.readsSlot k = s.readsSlot k := by
  have hmap : s'.transport.cpuMappable = s.transport.cpuMappable := (congrArg Transport.cpuMappable hs :)
  have hfiles : s'.transport.slotFiles = s.transport.slotFiles := (congrArg Transport.slotFiles hs :)
  unfold readsSlot
  rw [hk, hn, hmap, hfiles, hr, hr']
  split
  · next pool inFlight hbind =>
    have hany : (inFlight && !pool.any (rest.contains ·)) = (inFlight && !pool.any ((b :: rest).contains ·)) := by
      cases inFlight with
      | false => rfl
      | true =>
        cases pool with
        | none => rfl
        | some x =>
          have hne : x ≠ b := by
            rintro rfl
            exact hb hbind
          simp [hne]
    rw [hany]
  · rfl

/-- A reclaimed slot is read as it would have been with its buffer still in the queue. -/
theorem readsSlot_reclaim {s s' : StreamData} {b : Buf} (hb : b ∈ s.returned) {k : Nat}
    (hn : s'.negotiation = s.negotiation) (hs : s'.transport.stream = s.transport.stream)
    (hk : s.binding k = some ⟨some b, true⟩) (hk' : s'.binding k = some ⟨some b, false⟩) :
    s'.readsSlot k = s.readsSlot k := by
  have hmap : s'.transport.cpuMappable = s.transport.cpuMappable := (congrArg Transport.cpuMappable hs :)
  have hfiles : s'.transport.slotFiles = s.transport.slotFiles := (congrArg Transport.slotFiles hs :)
  simp [readsSlot, hk, hk', hn, hmap, hfiles, hb]

theorem reclaims_reclaimBuffer {s : StreamData} (hi : s.Tidy) {b : Buf} {rest : List Buf}
    (hr : s.returned = b :: rest) :
    Reclaims s (reclaimBuffer { s with returned := rest } b) := by
  have hc := (hr ▸ hi.placed).not_elsewhere.2.2
  rcases reclaimBuffer_cases (hi.dequeued hr) hc with ⟨hn, he⟩ | ⟨k, hb, he⟩ | ⟨k, hb, he⟩ <;> rw [he]
  · have hnone : s.transport.boundSlot b = none := by
      cases hs : s.transport.boundSlot b with
      | none => rfl
      | some k =>
        obtain ⟨f, hb⟩ := bound_of_boundSlot hs
        exact absurd hb (hn k f)
    refine ⟨⟨rfl, rfl, rfl⟩, rfl, rfl, rfl, ?_, fun k => ?_⟩
    · simp [free, hr, hnone]
    · refine readsSlot_dequeue hr ?_ ?_ ?_ ?_ (hn k true) <;> rfl
  · have hsome : s.transport.boundSlot b = some k := boundSlot_of_bound hi.placed.injective hb
    have hflag : ∀ j, ¬Bound s.transport.slotBindings j b true := by
      intro j hj
      have hjk := hi.placed.injective j k b _ _ hj hb
      subst hjk
      exact absurd (hb.congr hj).2 (by decide)
    refine ⟨⟨rfl, rfl, rfl⟩, rfl, rfl, rfl, ?_, fun j => ?_⟩
    · simp [free, hr, hsome]
    · refine readsSlot_dequeue hr ?_ ?_ ?_ ?_ (hflag j) <;> rfl
  · have hsome : s.transport.boundSlot b = some k := boundSlot_of_bound hi.placed.injective hb
    refine ⟨⟨rfl, rfl, rfl⟩, rfl, rfl, rfl, ?_, fun j => ?_⟩
    · simp [free, hr, hsome, boundSlot_modifyBinding]
    · by_cases hjk : j = k
      · subst hjk
        refine readsSlot_reclaim (hr ▸ List.mem_cons_self) ?_ ?_ hb (setInFlight_bound false hb) <;> rfl
      · refine readsSlot_dequeue hr ?_ ?_ ?_ ?_ fun hj => hjk (hi.placed.injective j k b _ _ hj hb)
        · rfl
        · rfl
        · rfl
        · simp [binding, Transport.modifyBinding, Ne.symm hjk]

theorem reclaims_reclaimReturnedBuffers {s : StreamData} (hi : s.Tidy) :
    s.reclaimReturnedBuffers.Tidy ∧ Reclaims s s.reclaimReturnedBuffers ∧ s.reclaimReturnedBuffers.returned = [] :=
  reclaimLoop_inv (P := Reclaims s) (fun _ _ _ hi hs hr => hs.trans (reclaims_reclaimBuffer hi hr)) s.returned s hi
    (.refl s) rfl

/-- A late return fills the queue and touches nothing else that a publication reads. -/
theorem returnBuffers_eq_some {late : List Buf} : ∀ {s s' : StreamData}, returnBuffers late s = some s' →
    ∃ consumer, s' = { s with consumer := consumer, returned := s.returned ++ late } := by
  induction late with
  | nil => intro s s' h; cases h; exact ⟨s.consumer, by simp⟩
  | cons b rest ih =>
    intro s s' h
    obtain ⟨s₁, h₁, h⟩ := Option.bind_eq_some_iff.1 h
    unfold returnBuffer at h₁
    split at h₁
    · cases h₁
      obtain ⟨consumer, rfl⟩ := ih h
      exact ⟨consumer, by simp⟩
    · cases h₁

theorem takeBuffer_eq_none {s : StreamData} : s.takeBuffer = none ↔ s.pool = [] ∧ s.returned = [] := by
  unfold takeBuffer
  split <;> simp [*]

/-- With an empty queue, what the reclaim loop would leave is what there is. -/
theorem readsSlot_of_returned {s : StreamData} (hr : s.returned = []) (k : Nat) : s.readsSlot k = s.copiedSlot k := by
  unfold readsSlot copiedSlot
  cases s.binding k with
  | none => rfl
  | some binding =>
    obtain ⟨pool, inFlight⟩ := binding
    cases inFlight <;> simp [hr]

/-- What a cycle publishes from, and when a slot frame is starved there. -/
structure Prepares (s : StreamData) (late : List Buf) (s₁ : StreamData) : Prop where
  tidy : s₁.Tidy
  idles : Idles s s₁
  pending : s₁.pending = s.pending
  latest : s₁.latest = s.latest
  starved : ∀ k, s₁.SlotStarved k ↔ s.free = [] ∧ late = [] ∧ ∃ slot, s.readsSlot k = some slot ∧
    readable slot.file slot.stride s.transport.width s.transport.height = true

theorem processFrame_prepares {s s' : StreamData} {late : List Buf} (hi : s.Tidy) (h : s.processFrame late = some s') :
    ∃ s₁, Prepares s late s₁ ∧ s' = s₁.publishPending := by
  obtain ⟨s₁, h₁, hi₁, -, -, rfl⟩ := processFrame_publishes (P := fun _ => True) (fun _ _ _ _ _ _ => trivial)
    (fun _ _ _ _ _ _ => trivial) hi trivial h
  obtain ⟨-, hrec, hempty⟩ := reclaims_reclaimReturnedBuffers hi
  obtain ⟨consumer, he⟩ := returnBuffers_eq_some h₁
  have hstream : s₁.transport.stream = s.transport.stream := by rw [he]; exact hrec.stream
  have hw : s₁.transport.width = s.transport.width := (congrArg Transport.width hstream :)
  have hh : s₁.transport.height = s.transport.height := (congrArg Transport.height hstream :)
  have htake : s₁.takeBuffer = none ↔ s.free = [] ∧ late = [] := by
    rw [takeBuffer_eq_none, ← hrec.free, free, hempty, he]
    simp [hempty]
  have hreads : ∀ k, s₁.copiedSlot k = s.readsSlot k := by
    intro k
    rw [← hrec.readsSlot k, readsSlot_of_returned hempty, he]
    rfl
  refine ⟨s₁, ⟨hi₁, ?_, ?_, ?_, fun k => ?_⟩, rfl⟩
  · rw [he]; exact ⟨hrec.idles.1, hrec.idles.2, hrec.idles.3⟩
  · rw [he]; exact hrec.pending
  · rw [he]; exact hrec.latest
  · rw [SlotStarved, htake, hreads k, hw, hh, and_assoc]

/-- A cycle on a pending frame settles it, but for a starved slot frame. -/
theorem processFrame_settles {s s' : StreamData} {late : List Buf} (hi : s.Tidy) (hp : s.pending = true)
    {payload : FramePayload} (hl : s.latest = some payload) (h : s.processFrame late = some s') :
    Settles s s' ↔ ¬s.Starves late := by
  obtain ⟨s₁, hs₁, rfl⟩ := processFrame_prepares hi h
  rw [hs₁.idles.settles_iff, publishPending_settles hs₁.tidy (hs₁.pending.trans hp) (hs₁.latest.trans hl), not_iff_not]
  constructor
  · rintro ⟨k, damage, rfl, hs⟩
    obtain ⟨hfree, hlate, slot, hread⟩ := (hs₁.starved k).1 hs
    exact ⟨hfree, hlate, k, damage, slot, hl, hread⟩
  · rintro ⟨hfree, hlate, k, damage, slot, hk, hread⟩
    rw [hl] at hk
    cases hk
    exact ⟨k, damage, rfl, (hs₁.starved k).2 ⟨hfree, hlate, slot, hread⟩⟩

/-! ## Every run -/

/-- One buffer is queued, one frame is counted, or neither. -/
def Moves (s s' : StreamData) : Prop := Idles s s' ∨ Queues s s' ∨ Drops s s'

theorem Copying.moves {s s' : StreamData} {source : Source} {file : File} {stride : Nat} {damage : List Rect} {r : Bool}
    (h : Copying s source file stride damage s' r) : Moves s s' := by
  cases h with
  | dropped => exact .inr (.inr ⟨rfl, rfl, rfl⟩)
  | starved => exact .inl (.refl s)
  | diverted _ b s₁ ht =>
    rcases takeBuffer_cases ht with ⟨rest, -, rfl⟩ | ⟨-, rest, -, rfl⟩ <;> exact .inr (.inr ⟨rfl, rfl, rfl⟩)
  | queued _ b s₁ ht =>
    rcases takeBuffer_cases ht with ⟨rest, -, rfl⟩ | ⟨-, rest, -, rfl⟩ <;> exact .inr (.inl ⟨rfl, rfl, rfl⟩)

theorem Moves.idles {s s' s'' : StreamData} (h : Moves s s') (h' : Idles s' s'') : Moves s s'' := by
  rcases h with h | h | h
  · exact .inl (h.trans h')
  · exact .inr (.inl (h.idles h'))
  · exact .inr (.inr (h.idles h'))

theorem Publishing.moves {s s' : StreamData} {k : Nat} {damage : List Rect} (h : Publishing s k damage s') :
    Moves s s' := by
  cases h with
  | inFlight | unmappable => exact .inr (.inr ⟨rfl, rfl, rfl⟩)
  | forwarded => exact .inr (.inl ⟨rfl, rfl, rfl⟩)
  | copied _ slot _ s₁ r hc => exact hc.moves.idles ⟨rfl, rfl, rfl⟩

/-- Publishing keeps the stored frame, and makes none pending. -/
theorem publishPending_moves {s : StreamData} (hi : s.Tidy) : Moves s s.publishPending ∧
    s.publishPending.latest = s.latest ∧ (s.publishPending.pending = true → s.pending = true) := by
  rcases publishPending_cases hi with ⟨_, he⟩ | ⟨_, _, he⟩ | ⟨_, _, _, s', r, hp, _, hc, he⟩ |
    ⟨k, damage, s', hp, _, hpub, he⟩ <;> rw [he]
  · exact ⟨.inl (.refl s), rfl, id⟩
  · exact ⟨.inl ⟨rfl, rfl, rfl⟩, rfl, nofun⟩
  · have hlatest := hc.log_cases.1
    cases r with
    | true => exact ⟨hc.moves.idles ⟨rfl, rfl, rfl⟩, hlatest, nofun⟩
    | false => exact ⟨hc.moves, hlatest, fun _ => hp⟩
  · refine ⟨hpub.moves.idles ⟨rfl, rfl, rfl⟩, ?_, nofun⟩
    cases hpub with
    | inFlight | unmappable | forwarded => rfl
    | copied _ slot _ s₁ r hc => exact hc.log_cases.1

/-- The sequence numbers queued so far are the ones before the next, and a pending frame
is stored. -/
structure Numbered (s : StreamData) : Prop where
  sequences : s.sequences = (List.range s.sequence).reverse
  stored : s.pending = true → s.latest.isSome = true

theorem Numbered.moves {s s' : StreamData} (h : s.Numbered) (hm : Moves s s')
    (hs : s'.pending = true → s'.latest.isSome = true) : s'.Numbered := by
  refine ⟨?_, hs⟩
  rcases hm with ⟨hseq, hn, -⟩ | ⟨hseq, hn, -⟩ | ⟨hseq, hn, -⟩
  · rw [hseq, hn, h.sequences]
  · rw [hseq, hn, h.sequences, List.range_succ, List.reverse_append]
    rfl
  · rw [hseq, hn, h.sequences]

/-- The sequence numbers stay when only other events are logged. -/
theorem sequences_append {s s' : StreamData} {ev : List Event} (hlog : s'.log = ev ++ s.log)
    (hev : ∀ e ∈ ev, e.sequence? = none) : s'.sequences = s.sequences := by
  rw [sequences, hlog, List.filterMap_append, List.filterMap_eq_nil_iff.2 hev]
  rfl

theorem sequence?_of_isRelease (e : Event) (h : e.isRelease = true) : e.sequence? = none := by
  cases e <;> first | rfl | cases h

theorem idles_replaceLatest (s : StreamData) (payload : FramePayload) : Idles s (s.replaceLatest payload) := by
  unfold replaceLatest
  split
  · next k _ _ _ =>
    have h := idles_releaseSlot s k .replaced
    exact ⟨h.1, h.2, h.3⟩
  · exact ⟨rfl, rfl, rfl⟩

theorem Numbered.ipcFrame {s : StreamData} (h : s.Numbered) (frame : StreamFrame) : (s.ipcFrame frame).Numbered := by
  unfold StreamData.ipcFrame
  split
  · exact h
  split
  · next payload hv =>
    have hidle : Idles s { s with log := .delivered frame true :: s.log } := ⟨rfl, rfl, rfl⟩
    exact h.moves (.inl (hidle.trans (idles_replaceLatest _ payload))) fun _ => rfl
  · exact ⟨h.sequences, h.stored⟩

theorem step_numbered {s s' : StreamData} {l : Label} (hi : s.Tidy) (h : s.Numbered) (hs : s.step l = some s') :
    s'.Numbered := by
  cases (step_does hi hs).2 with
  | frame frame answer => exact h.ipcFrame frame
  | kept _ n o q => exact ⟨h.sequences, h.stored⟩
  | restarted => exact ⟨h.sequences, nofun⟩
  | process late _ hs =>
    obtain ⟨s₁, hs₁, rfl⟩ := processFrame_prepares hi hs
    obtain ⟨hmoves, hlatest, hpending⟩ := publishPending_moves hs₁.tidy
    have h₁ : s₁.Numbered := h.moves (.inl hs₁.idles) (by rw [hs₁.pending, hs₁.latest]; exact h.stored)
    exact h₁.moves hmoves fun hp => by rw [hlatest]; exact h₁.stored (hpending hp)
  | returned b _ hr =>
    unfold returnBuffer at hr
    split at hr
    · cases hr; exact ⟨h.sequences, h.stored⟩
    · cases hr
  | rearmed payload hl => exact ⟨h.sequences, fun _ => by rw [hl]; rfl⟩
  | added b hasData allocated hb _ ha => cases ha <;> exact ⟨h.sequences, h.stored⟩
  | removed b _ hr => cases hr <;> exact ⟨h.sequences, h.stored⟩
  | tornDown =>
    refine h.moves (.inl ⟨?_, rfl, rfl⟩) h.stored
    exact sequences_append rfl fun e he => sequence?_of_isRelease e (release_of_teardown s _ 0 e he)

theorem reach_numbered {s : StreamData} (h : Reach Init step s) : s.Tidy ∧ s.Numbered := by
  refine h.inv (I := fun s => s.Tidy ∧ s.Numbered) (fun s hs => ⟨init_tidy hs, ?_⟩)
    fun _ _ _ hi hs => ⟨step_tidy hi.1 hs, step_numbered hi.1 hi.2 hs⟩
  obtain ⟨started, target, cursor, hs⟩ := hs
  simp only [start, Option.bind_eq_some_iff, Option.map_eq_some_iff] at hs
  obtain ⟨_, _, t, _, rfl⟩ := hs
  exact ⟨rfl, fun hp => absurd hp Bool.false_ne_true⟩

/-- In every reachable state the buffers are queued with consecutive numbers, and a cycle
queues, counts or keeps the pending frame, unless it is a slot frame that is starved. -/
theorem frames_settle_iff {s : StreamData} (h : Reach Init step s) :
    s.sequences.reverse = List.range s.sequence ∧
      (s.pending = true → ∀ late s', s.processFrame late = some s' → (Settles s s' ↔ ¬s.Starves late)) := by
  obtain ⟨hi, hn⟩ := reach_numbered h
  refine ⟨by rw [hn.sequences, List.reverse_reverse], fun hp late s' hs => ?_⟩
  obtain ⟨payload, hl⟩ := Option.isSome_iff_exists.1 (hn.stored hp)
  exact processFrame_settles hi hp hl hs

/-! ## A frame without a buffer -/

/-- A frame in a linear slot, and a buffer of the copy path for it. -/
def arriveFed : List Label := [.addBuffer 10 true true, .ipc (.ok (.frame (slotFrame 0))) ⟨false, none⟩]

theorem frames_settle_fed : ∃ s₀ s s', start linearStream (.output none) .hidden = some s₀ ∧
    exec step s₀ arriveFed = some s ∧ s.processFrame [] = some s' ∧ s'.sequences = [0] ∧ Settles s s' := by
  have hrun : ∃ s₀ s s', start linearStream (.output none) .hidden = some s₀ ∧ exec step s₀ arriveFed = some s ∧
      s.processFrame [] = some s' ∧ s.pending = true ∧ s.free = [10] ∧ s'.sequences = [0] :=
    ⟨_, ((start linearStream (.output none) .hidden).bind (exec step · arriveFed)).get (by decide +kernel),
      (((start linearStream (.output none) .hidden).bind (exec step · arriveFed)).bind (processFrame · [])).get
        (by decide +kernel), rfl, by decide +kernel⟩
  obtain ⟨s₀, s, s', h₀, he, hs, hp, hfree, hseq⟩ := hrun
  refine ⟨s₀, s, s', h₀, he, hs, hseq, ((frames_settle_iff ((Reach.init ⟨_, _, _, h₀⟩).exec he)).2 hp [] s' hs).2 ?_⟩
  rintro ⟨hempty, -⟩
  rw [hfree] at hempty
  cases hempty

/-- The same frame without the buffer is neither queued nor counted, and no longer pending. -/
theorem slot_frame_lost :
    ∃ s s', Reach Init step s ∧ s.pending = true ∧ s.processFrame [] = some s' ∧ ¬Settles s s' := by
  have hrun : ∃ s₀ s s', start linearStream (.output none) .hidden = some s₀ ∧
      exec step s₀ [.ipc (.ok (.frame (slotFrame 0))) ⟨false, none⟩] = some s ∧ s.processFrame [] = some s' ∧
      s.pending = true ∧ s'.pending = false ∧ s'.sequence = s.sequence ∧ s'.droppedFrames = s.droppedFrames :=
    ⟨_, ((start linearStream (.output none) .hidden).bind (exec step · (arriveFed.drop 1))).get (by decide +kernel),
      (((start linearStream (.output none) .hidden).bind (exec step · (arriveFed.drop 1))).bind (processFrame · [])).get
        (by decide +kernel), rfl, by decide +kernel⟩
  obtain ⟨s₀, s, s', h₀, he, hs, hp, hp', hn, hd⟩ := hrun
  refine ⟨s, s', (Reach.init ⟨_, _, _, h₀⟩).exec he, hp, hs, ?_⟩
  rintro (⟨hq, -⟩ | ⟨hdrop, -⟩ | ⟨-, hpending⟩)
  · exact absurd (hq.sequence.symm.trans hn) (Nat.succ_ne_self _)
  · exact absurd (hdrop.dropped.symm.trans hd) (Nat.succ_ne_self _)
  · rw [hp'] at hpending
    cases hpending

end StreamData

end AtriumPortal.Cast
