import AtriumPortal.Cast.Events
/-!
# Where bound buffers come back

Two places dequeue buffers: the reclaim loop, which looks for the binding and
releases the slot, and `copy_into_pool`, which does not look. While the copy path
dequeues no bound buffer, none is ever pooled or copied into, and every buffer in
flight is with the consumer or where the next reclaim finds it. A consumer that
returns a bound buffer between the reclaim loop and the copy breaks all of this.
-/
open AtriumPortal.Ipc AtriumPortal.Lib.Runs

namespace AtriumPortal.Cast.StreamData

/-! ## The buffer a copy takes -/

/-- The descriptor the pending frame would be copied from. -/
def copiedFrom (s : StreamData) : Option (File × Nat) :=
  match s.latest with
  | some (.descriptor file stride _) => some (file, stride)
  | some (.slot k _) => (s.copiedSlot k).map fun slotFile => (slotFile.file, slotFile.stride)
  | none => none

/-- Publishing copies, and the buffer taken for it is bound to a slot. -/
def takesBound (s : StreamData) : Bool :=
  s.pending && s.copiedFrom.any (fun source => readable source.1 source.2 s.transport.width s.transport.height) &&
    s.takeBuffer.any fun taken => (s.transport.boundSlot taken.1).isSome

/-- The cycle diverts a bound buffer to the copy path. -/
def diverts (s : StreamData) : Label → Bool
  | .process late => (returnBuffers late s.reclaimReturnedBuffers).any takesBound
  | _ => false

/-- When the copy path would read the frame, the buffer it takes is not bound. -/
theorem not_bound_of_takes {s : StreamData} (hg : s.takesBound = false) (hp : s.pending = true) {file : File}
    {stride : Nat} (hfrom : s.copiedFrom = some (file, stride))
    (hread : readable file stride s.transport.width s.transport.height = true) {b : Buf} {s₁ : StreamData}
    (ht : s.takeBuffer = some (b, s₁)) (k : Nat) (f : Bool) : ¬ Bound s.transport.slotBindings k b f := by
  simp only [takesBound, hp, hfrom, ht, Option.any_some, hread, Bool.true_and, Option.isSome_eq_false_iff,
    Option.isNone_iff_eq_none] at hg
  exact not_bound_of_boundSlot hg k f

/-- A buffer in flight is with the consumer or back in the queue, and no bound
buffer is in the copy pool. -/
structure Returnable (s : StreamData) : Prop where
  flown : ∀ k b, Bound s.transport.slotBindings k b true → b ∈ s.consumer ∨ b ∈ s.returned
  undiverted : ∀ k b f, Bound s.transport.slotBindings k b f → b ∉ s.pool

namespace Returnable

theorem reclaimBuffer {s : StreamData} (hi : s.Tidy) (h : s.Returnable) {b : Buf} {rest : List Buf}
    (hr : s.returned = b :: rest) : (StreamData.reclaimBuffer { s with returned := rest } b).Returnable := by
  have still : ∀ k x, x ≠ b → Bound s.transport.slotBindings k x true → x ∈ s.consumer ∨ x ∈ rest := by
    intro k x hne hk
    simpa [hr, hne] using h.flown k x hk
  have hc := (hr ▸ hi.placed).not_elsewhere.2.2
  rcases reclaimBuffer_cases (hi.dequeued hr) hc with ⟨hn, he⟩ | ⟨k, hb, he⟩ | ⟨k, hb, he⟩ <;> rw [he]
  · refine ⟨fun j x hj => still j x ?_ hj, fun j x f hj hx => ?_⟩
    · rintro rfl; exact hn j true hj
    · rcases List.mem_append.1 hx with hx | hx
      · exact h.undiverted j x f hj hx
      · rw [List.mem_singleton.1 hx] at hj; exact hn j f hj
  · refine ⟨fun j x hj => still j x ?_ hj, h.undiverted⟩
    rintro rfl
    have hjk := hi.placed.injective j k x _ _ hj hb
    subst hjk
    exact absurd (hb.congr hj).2 (by simp)
  · refine ⟨fun j x hj => ?_, fun j x f hj => ?_⟩
    · rcases bound_setInFlight hj with ⟨_, hf, _⟩ | ⟨hne, hj⟩
      · cases hf
      · refine still j x ?_ hj
        rintro rfl
        exact hne (hi.placed.injective j k x _ _ hj hb)
    · obtain ⟨g, hj⟩ := bound_of_setInFlight hj
      exact h.undiverted j x g hj

theorem returnBuffer {s s' : StreamData} (h : s.Returnable) {b : Buf} (hr : s.returnBuffer b = some s') :
    s'.Returnable := by
  unfold StreamData.returnBuffer at hr
  split at hr
  · cases hr
    refine ⟨fun k x hk => ?_, h.undiverted⟩
    by_cases hxb : x = b
    · exact .inr (by simp [hxb])
    · rcases h.flown k x hk with hx | hx
      · exact .inl (by simpa [hxb] using hx)
      · exact .inr (by simp [hx])
  · cases hr

/-- Copying into an unbound buffer moves no bound one. -/
theorem copying {s s' : StreamData} (h : s.Returnable) {source : Source} {file : File} {stride : Nat}
    {damage : List Rect} {r : Bool} (hc : Copying s source file stride damage s' r)
    (hg : readable file stride s.transport.width s.transport.height = true → ∀ b s₁, s.takeBuffer = some (b, s₁) →
      ∀ k f, ¬ Bound s.transport.slotBindings k b f) : s'.Returnable := by
  cases hc with
  | dropped => exact ⟨h.flown, h.undiverted⟩
  | starved ht => exact ⟨h.flown, h.undiverted⟩
  | diverted hread b s₁ ht =>
    have hnb := hg hread b s₁ ht
    have hne : ∀ {k x f}, Bound s.transport.slotBindings k x f → x ≠ b := by
      rintro k x f hx rfl; exact hnb k f hx
    rcases takeBuffer_cases ht with ⟨rest, hpool, rfl⟩ | ⟨hpool, rest, hr, rfl⟩
    · refine ⟨h.flown, fun k x f hx => ?_⟩
      have := h.undiverted k x f hx
      simp_all
    · refine ⟨fun k x hx => ?_, fun k x f hx => ?_⟩
      · have := h.flown k x hx
        simpa [hr, hne hx] using this
      · simp [hpool, hne hx]
  | queued hread b s₁ ht hb =>
    have hne : ∀ {k x f}, Bound s.transport.slotBindings k x f → x ≠ b := by
      rintro k x f hx rfl; exact hb k f hx
    rcases takeBuffer_cases ht with ⟨rest, hpool, rfl⟩ | ⟨hpool, rest, hr, rfl⟩
    · refine ⟨fun k x hx => ?_, fun k x f hx => ?_⟩
      · rcases h.flown k x hx with hx | hx
        · exact .inl (List.mem_cons_of_mem _ hx)
        · exact .inr hx
      · have := h.undiverted k x f hx
        simp_all
    · refine ⟨fun k x hx => ?_, fun k x f hx => ?_⟩
      · have := h.flown k x hx
        simpa [hr, hne hx] using this
      · simp [hpool]

theorem publishing {s s' : StreamData} (h : s.Returnable) {k : Nat} {damage : List Rect}
    (hp : Publishing s k damage s')
    (hg : ∀ slotFile, s.copiedSlot k = some slotFile →
      readable slotFile.file slotFile.stride s.transport.width s.transport.height = true →
      ∀ b s₁, s.takeBuffer = some (b, s₁) → ∀ k f, ¬ Bound s.transport.slotBindings k b f) : s'.Returnable := by
  cases hp with
  | inFlight b hb => exact ⟨h.flown, h.undiverted⟩
  | unmappable hn => exact ⟨h.flown, h.undiverted⟩
  | forwarded b hb he =>
    refine ⟨fun j x hj => ?_, fun j x f hj => ?_⟩
    · rcases bound_setInFlight hj with ⟨rfl, _, g, hg⟩ | ⟨_, hj⟩
      · exact .inl (by simp [(hb.congr hg).1])
      · rcases h.flown j x hj with hx | hx
        · exact .inl (List.mem_cons_of_mem _ hx)
        · exact .inr hx
    · obtain ⟨g, hj⟩ := bound_of_setInFlight hj
      exact h.undiverted j x g hj
  | copied hn slotFile hpath s' r hc =>
    have hcopy := h.copying hc (hg slotFile hpath)
    exact ⟨hcopy.flown, hcopy.undiverted⟩

theorem publishPending {s : StreamData} (hi : s.Tidy) (h : s.Returnable) (hg : s.takesBound = false) :
    s.publishPending.Returnable := by
  have done : ∀ s' : StreamData, s'.Returnable → ({ s' with pending := false } : StreamData).Returnable :=
    fun s' h => ⟨h.flown, h.undiverted⟩
  rcases publishPending_cases hi with ⟨_, he⟩ | ⟨_, _, he⟩ | ⟨file, stride, damage, s', r, hp, hl, hc, he⟩ |
    ⟨k, damage, s', hp, hl, hpub, he⟩ <;> rw [he]
  · exact h
  · exact done s h
  · have hcopy := h.copying hc fun hread b s₁ ht => not_bound_of_takes hg hp (by simp [copiedFrom, hl]) hread ht
    cases r
    · exact hcopy
    · exact done s' hcopy
  · refine done s' (h.publishing hpub fun slotFile hpath hread b s₁ ht => ?_)
    exact not_bound_of_takes hg hp (by simp [copiedFrom, hl, hpath]) hread ht

theorem adding {s s' : StreamData} (hi : s.Tidy) (h : s.Returnable) {b : Buf} (hb : b ∉ s.buffers)
    (ha : Adding s b s') : s'.Returnable := by
  have flown : ∀ k x, Bound s.transport.slotBindings k x true → x ∈ s.consumer ∨ x ∈ s.returned ++ [b] :=
    fun k x hx => (h.flown k x hx).imp_right (List.mem_append_left _)
  cases ha with
  | bound k f hk =>
    refine ⟨fun j x hj => ?_, fun j x g hj => ?_⟩
    · rcases Placed.bound_bind ⟨f, hk⟩ hj with ⟨rfl, rfl, hfree⟩ | ⟨_, hj⟩
      · exact absurd hfree (hi.placed.inFlight_bound j)
      · exact flown j x hj
    · rcases Placed.bound_bind ⟨f, hk⟩ hj with ⟨_, rfl, _⟩ | ⟨_, hj⟩
      · exact fun hp => hb (hi.placed.known x (.inl hp))
      · exact h.undiverted j x g hj
  | mapped n => exact ⟨flown, h.undiverted⟩
  | bare => exact ⟨flown, h.undiverted⟩

/-- Clearing the slot of `b` leaves the bindings of other buffers. -/
theorem bound_cleared {s : StreamData} (hi : s.Tidy) {b : Buf} {k : Nat} {f : Bool}
    (hk : Bound s.transport.slotBindings k b f) {j : Nat} {x : Buf} {g : Bool}
    (hj : Bound (s.transport.slotBindings.modify k fun _ => ⟨none, false⟩) j x g) :
    x ≠ b ∧ Bound s.transport.slotBindings j x g := by
  obtain ⟨hne, hj⟩ := Placed.bound_clear hj
  refine ⟨?_, hj⟩
  rintro rfl
  exact hne (hi.placed.injective j k x g f hj hk)

theorem removing {s s' : StreamData} (hi : s.Tidy) (h : s.Returnable) {b : Buf} (hr : Removing s b s') :
    s'.Returnable := by
  have flown : ∀ k x, x ≠ b → Bound s.transport.slotBindings k x true →
      x ∈ s.consumer.filter (· != b) ∨ x ∈ s.returned.filter (· != b) := by
    intro k x hne hx
    simpa [hne] using h.flown k x hx
  have undiverted : ∀ k x f, Bound s.transport.slotBindings k x f → x ∉ s.pool.filter (· != b) :=
    fun k x f hx hp => h.undiverted k x f hx (List.mem_filter.1 hp).1
  cases hr with
  | unbound hn =>
    refine ⟨fun k x hx => flown k x ?_ hx, undiverted⟩
    rintro rfl
    exact hn k true hx
  | idle k hb | released k held hb =>
    refine ⟨fun j x hj => ?_, fun j x g hj => ?_⟩
    · obtain ⟨hne, hj⟩ := bound_cleared hi hb hj
      exact flown j x hne hj
    · exact undiverted j x g (bound_cleared hi hb hj).2

theorem restarted {s : StreamData} {t : Transport} (ht : t.slotBindings = Transport.unbound t.slotFiles.length) :
    (s.swapTransport t).Returnable := by
  have none : ∀ k b f, ¬ Bound t.slotBindings k b f := fun k b f => ht ▸ not_bound_unbound _ k b f
  exact ⟨fun k b hb => absurd hb (none k b true), fun k b f hb => absurd hb (none k b f)⟩

theorem ipcFrame {s : StreamData} (h : s.Returnable) (frame : StreamFrame) : (s.ipcFrame frame).Returnable := by
  unfold StreamData.ipcFrame replaceLatest releaseSlot
  split
  · exact h
  · split
    · split
      · split <;> exact ⟨h.flown, h.undiverted⟩
      · exact ⟨h.flown, h.undiverted⟩
    · exact ⟨h.flown, h.undiverted⟩

end Returnable

theorem init_returnable {s : StreamData} (h : Init s) : s.Returnable := by
  obtain ⟨started, target, cursor, h⟩ := h
  simp only [start, Option.bind_eq_some_iff, Option.map_eq_some_iff] at h
  obtain ⟨_, _, t, ht, rfl⟩ := h
  obtain ⟨announced, _, rfl⟩ := Option.map_eq_some_iff.1 ht
  exact ⟨fun k b hb => absurd hb (not_bound_unbound _ k b true), by simp⟩

theorem step_returnable {s s' : StreamData} {l : Label} (hi : s.Tidy) (h : s.Returnable) (hg : s.diverts l = false)
    (hs : s.step l = some s') : s'.Returnable := by
  cases (step_does hi hs).2 with
  | frame frame answer hm => exact h.ipcFrame frame
  | kept _ n o q => exact ⟨h.flown, h.undiverted⟩
  | restarted _ t ht n o q =>
    have hr : (s.swapTransport t).Returnable := .restarted ht
    exact ⟨hr.flown, hr.undiverted⟩
  | process late _ hp =>
    obtain ⟨s₁, h₁, hi₁, _, hret, rfl⟩ := processFrame_publishes (P := Returnable)
      (fun _ _ _ hi h hr => h.reclaimBuffer hi hr) (fun _ _ _ _ h hr => h.returnBuffer hr) hi h hp
    exact hret.publishPending hi₁ (by simpa [diverts, h₁] using hg)
  | returned b _ hr => exact h.returnBuffer hr
  | rearmed payload hlatest => exact ⟨h.flown, h.undiverted⟩
  | added b hasData allocated hb _ ha => exact h.adding hi hb ha
  | removed b _ hr => exact h.removing hi hr
  | tornDown => exact ⟨h.flown, h.undiverted⟩

/-! ## The copy path's own dequeue -/

/-- Publishing copies with an empty pool, and the first buffer in PipeWire's queue is
bound to a slot. -/
def dequeuesBound (s : StreamData) : Bool :=
  s.pending && s.copiedFrom.any (fun source => readable source.1 source.2 s.transport.width s.transport.height) &&
    s.pool.isEmpty && s.returned.head?.any fun b => (s.transport.boundSlot b).isSome

/-- No bound buffer comes back between the reclaim loop and a copy that finds the pool empty. -/
def NoLateReturn (s : StreamData) : Label → Prop
  | .process late => (returnBuffers late s.reclaimReturnedBuffers).any dequeuesBound = false
  | _ => True

instance (s : StreamData) (l : Label) : Decidable (s.NoLateReturn l) := by
  unfold NoLateReturn
  split <;> infer_instance

theorem Returnable.takesBound_eq_false {s : StreamData} (h : s.Returnable) (hg : s.dequeuesBound = false) :
    s.takesBound = false := by
  have pooled : ∀ b ∈ s.pool, s.transport.boundSlot b = none := by
    intro b hb
    cases hs : s.transport.boundSlot b with
    | none => rfl
    | some k =>
      obtain ⟨f, hk⟩ := bound_of_boundSlot hs
      exact absurd hb (h.undiverted k b f hk)
  unfold takesBound
  unfold dequeuesBound at hg
  cases hp : s.pool with
  | cons b rest => simp [takeBuffer, hp, pooled b (by simp [hp])]
  | nil =>
    cases hr : s.returned with
    | nil => simp [takeBuffer, hp, hr]
    | cons b rest => simpa [takeBuffer, hp, hr] using hg

theorem diverts_eq_false {s : StreamData} {l : Label} (hi : s.Tidy) (h : s.Returnable) (hg : s.NoLateReturn l) :
    s.diverts l = false := by
  cases l with
  | process late =>
    cases hret : returnBuffers late s.reclaimReturnedBuffers with
    | none => simp [diverts, hret]
    | some s₁ =>
      have hp : s.processFrame late = some s₁.publishPending := by simp [processFrame, hret]
      obtain ⟨s₂, h₂, -, -, hr, -⟩ := processFrame_publishes (P := Returnable)
        (fun _ _ _ hi h hr => h.reclaimBuffer hi hr) (fun _ _ _ _ h hr => h.returnBuffer hr) hi h hp
      cases hret.symm.trans h₂
      simpa [diverts, hret] using hr.takesBound_eq_false (by simpa [NoLateReturn, hret] using hg)
  | _ => rfl

/-! ## A returned buffer's slot is released -/

/-- The loop only adds to the log. -/
theorem reclaimLoop_log {s : StreamData} (hi : s.Tidy) {l : List Buf} (hr : s.returned = l) :
    s.log <:+ (reclaimLoop l s).log := by
  refine (reclaimLoop_inv (P := fun s' => s.log <:+ s'.log) (fun s₁ b rest _ hs _ => ?_) l s hi
    (List.suffix_refl _) hr).2.1
  obtain ⟨ev, hlog, -⟩ := (adds_reclaimBuffer { s₁ with returned := rest } b).log
  exact hs.trans ⟨ev, hlog.symm⟩

/-- The loop finds every bound buffer in flight, and releases its slot. -/
theorem reclaimLoop_releases {k : Nat} {b : Buf} (l : List Buf) : ∀ s : StreamData, s.Tidy → s.returned = l →
    Bound s.transport.slotBindings k b true → b ∈ l →
      ∃ ev, (reclaimLoop l s).log = ev ++ s.log ∧ .released s.transport.streamId k false .reclaimed ∈ ev := by
  induction l with
  | nil => intro s _ _ _ hb; cases hb
  | cons c rest ih =>
    intro s hi hr hk hb
    have hi₁ := hi.reclaimBuffer hr
    have hc := (hr ▸ hi.placed).not_elsewhere.2.2
    rcases reclaimBuffer_cases (hi.dequeued hr) hc with ⟨hn, he⟩ | ⟨j, hj, he⟩ | ⟨j, hj, he⟩ <;>
      simp only [reclaimLoop, he] at hi₁ ⊢
    · refine ih _ hi₁ rfl hk ((List.mem_cons.1 hb).resolve_left ?_)
      rintro rfl
      exact hn k true hk
    · refine ih _ hi₁ rfl hk ((List.mem_cons.1 hb).resolve_left ?_)
      rintro rfl
      cases hi.placed.injective j k b _ _ hj hk
      cases (hj.congr hk).2
    · by_cases hbc : b = c
      · subst hbc
        cases hi.placed.injective j k b _ _ hj hk
        obtain ⟨ev, hlog⟩ := reclaimLoop_log hi₁ rfl
        exact ⟨ev ++ [.released s.transport.streamId k false .reclaimed], by rw [← hlog]; simp, by simp⟩
      · have hjk : j ≠ k := by
          rintro rfl
          exact hbc (hk.congr hj).1
        obtain ⟨ev, hlog, hm⟩ := ih _ hi₁ rfl
          (by simpa [Bound, Transport.modifyBinding, List.getElem?_modify, hjk] using hk)
          ((List.mem_cons.1 hb).resolve_left hbc)
        exact ⟨ev ++ [.released s.transport.streamId j false .reclaimed], by rw [hlog]; simp,
          List.mem_append_left _ hm⟩

theorem returnBuffers_log (late : List Buf) : ∀ {s s₁ : StreamData}, returnBuffers late s = some s₁ → s₁.log = s.log := by
  induction late with
  | nil => intro s s₁ h; cases h; rfl
  | cons b rest ih =>
    intro s s₁ h
    obtain ⟨s₂, h₂, h⟩ := Option.bind_eq_some_iff.1 h
    rw [ih h]
    unfold returnBuffer at h₂
    split at h₂
    · cases h₂; rfl
    · cases h₂

theorem Copying.log_suffix {s s' : StreamData} {source : Source} {file : File} {stride : Nat} {damage : List Rect}
    {r : Bool} (h : Copying s source file stride damage s' r) : s.log <:+ s'.log := by
  rcases h.log_cases.2.2 with he | ⟨b, seq, w, hgt, he⟩
  · exact ⟨[], he.symm⟩
  · exact ⟨[_, _], he.symm⟩

theorem publishPending_log {s : StreamData} (hi : s.Tidy) : s.log <:+ s.publishPending.log := by
  rcases publishPending_cases hi with ⟨_, he⟩ | ⟨_, _, he⟩ | ⟨_, _, _, s', r, _, _, hc, he⟩ |
    ⟨k, damage, s', _, _, hpub, he⟩
  · exact ⟨[], (congrArg log he).symm⟩
  · exact ⟨[], (congrArg log he).symm⟩
  · rw [he]
    cases r <;> exact hc.log_suffix
  · rw [he]
    cases hpub with
    | inFlight => exact List.suffix_refl _
    | forwarded | unmappable => exact ⟨[_], rfl⟩
    | copied _ slotFile _ s' r hc => exact hc.log_suffix.trans ⟨[_], rfl⟩

/-- A cycle releases the slot of every bound buffer it finds returned. -/
theorem processFrame_releases {s s' : StreamData} {late : List Buf} (hi : s.Tidy) {k : Nat} {b : Buf}
    (hk : Bound s.transport.slotBindings k b true) (hb : b ∈ s.returned) (hp : s.processFrame late = some s') :
    ∃ ev, s'.log = ev ++ s.log ∧ .released s.transport.streamId k false .reclaimed ∈ ev := by
  obtain ⟨ev, hlog, hm⟩ := reclaimLoop_releases s.returned s hi rfl hk hb
  obtain ⟨s₁, h₁, hi₁, -, -, rfl⟩ := processFrame_publishes (P := fun _ => True) (fun _ _ _ _ _ _ => trivial)
    (fun _ _ _ _ _ _ => trivial) hi trivial hp
  obtain ⟨ev', hlog'⟩ := publishPending_log hi₁
  refine ⟨ev' ++ ev, ?_, List.mem_append_right _ hm⟩
  rw [← hlog', returnBuffers_log late h₁, reclaimReturnedBuffers, hlog, List.append_assoc]

/-! ## Runs without a late return -/

/-- No bound buffer is pooled, one in flight is with the consumer or back in the queue,
and the cycle that finds it there releases its slot. -/
structure ReturnsSeen (s : StreamData) : Prop where
  pooled : ∀ k b f, Bound s.transport.slotBindings k b f → b ∉ s.pool
  flown : ∀ k b, Bound s.transport.slotBindings k b true → b ∈ s.consumer ∨ b ∈ s.returned
  released : ∀ k b, Bound s.transport.slotBindings k b true → b ∈ s.returned → ∀ late s',
    s.step (.process late) = some s' →
      ∃ ev, s'.log = ev ++ s.log ∧ .released s.transport.streamId k false .reclaimed ∈ ev

theorem returnsSeen_of_returnable {s : StreamData} (hi : s.Tidy) (h : s.Returnable) : s.ReturnsSeen := by
  refine ⟨h.undiverted, h.flown, fun k b hk hb late s' hs => ?_⟩
  simp only [step] at hs
  split at hs
  · cases hs
  · exact processFrame_releases hi hk hb hs

theorem reach_returnable {s : StreamData} (h : Reach Init (Guarded NoLateReturn step) s) : s.Tidy ∧ s.Returnable :=
  h.inv_guarded (I := fun s => s.Tidy ∧ s.Returnable) (fun _ hs => ⟨init_tidy hs, init_returnable hs⟩)
    fun _ _ _ hi hg hs => ⟨step_tidy hi.1 hs, step_returnable hi.1 hi.2 (diverts_eq_false hi.1 hi.2 hg) hs⟩

/-- In every run without a late return no bound buffer is pooled or taken by the copy
path, and every bound buffer that comes back is seen by the next reclaim. -/
theorem bound_returns_seen {s : StreamData} (h : Reach Init (Guarded NoLateReturn step) s) :
    s.ReturnsSeen ∧ ∀ l, s.NoLateReturn l → s.diverts l = false :=
  have ⟨hi, hr⟩ := reach_returnable h
  ⟨returnsSeen_of_returnable hi hr, fun _ hg => diverts_eq_false hi hr hg⟩

/-! ## A late return -/

def linearFile : File := { slotFile with mappable := true }

/-- A 2x2 linear dmabuf stream with two slots. -/
def linearStream : StreamStarted where
  streamId := 1
  width := 2
  height := 2
  format := .dmabuf (fourcc 'X' 'R' '2' '4') drmFormatModLinear
  slots := some [⟨linearFile, 8, 16⟩, ⟨linearFile, 8, 16⟩]

/-- One buffer is bound to slot 0 and shown; it comes back while the frame in the
unbound slot 1 is published. -/
def divertFrame : List Label :=
  [.formatParam ⟨some .BGRx, 2, 2, some drmFormatModLinear⟩ ⟨false, none⟩, .addBuffer 10 true true,
   .ipc (.ok (.frame (slotFrame 0))) ⟨false, none⟩, .process [],
   .ipc (.ok (.frame (slotFrame 1))) ⟨false, none⟩, .process [10]]

/-- In the same run without the late return, the buffer waits with the consumer. -/
theorem bound_returns_seen_reading : ∃ s₀ s, start linearStream (.output none) .hidden = some s₀ ∧
    exec (Guarded NoLateReturn step) s₀ (divertFrame.take 5) = some s ∧ s.consumer = [10] ∧ s.ReturnsSeen ∧
      ∀ l, s.NoLateReturn l → s.diverts l = false := by
  have hrun : ∃ s₀ s, start linearStream (.output none) .hidden = some s₀ ∧
      exec (Guarded NoLateReturn step) s₀ (divertFrame.take 5) = some s ∧ s.consumer = [10] :=
    ⟨_, ((start linearStream (.output none) .hidden).bind
      (exec (Guarded NoLateReturn step) · (divertFrame.take 5))).get (by decide +kernel), rfl, by decide +kernel⟩
  obtain ⟨s₀, s, h₀, he, hc⟩ := hrun
  exact ⟨s₀, s, h₀, he, hc, bound_returns_seen ((Reach.init ⟨_, _, _, h₀⟩).exec he)⟩

/-- The copy path pools the buffer of slot 0, and no reclaim sees it again. -/
theorem late_return_pooled : ∃ s, Reach Init step s ∧ ¬ s.ReturnsSeen := by
  have hrun : ∃ s₀ s, start linearStream (.output none) .hidden = some s₀ ∧ exec step s₀ divertFrame = some s ∧
      Bound s.transport.slotBindings 0 10 true ∧ s.pool = [10] :=
    ⟨_, ((start linearStream (.output none) .hidden).bind (exec step · divertFrame)).get (by decide +kernel), rfl,
      by decide +kernel, by unfold Bound; decide +kernel, by decide +kernel⟩
  obtain ⟨s₀, s, h₀, he, hb, hp⟩ := hrun
  refine ⟨s, (Reach.init ⟨_, _, _, h₀⟩).exec he, fun h => ?_⟩
  exact h.pooled 0 10 true hb (by simp [hp])

end AtriumPortal.Cast.StreamData
