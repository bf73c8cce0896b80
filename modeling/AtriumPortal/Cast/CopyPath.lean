import AtriumPortal.Ipc.Client
import AtriumPortal.Cast.Returns
/-!
# What the copy path reads

A copy reads the latest accepted frame of the live stream, with linear pixels
and the geometry `validate_frame` checked. The stride is the exception: that of a
slot frame's header is checked and dropped, and `publish_slot` reads the slot
with the stride of the slot table, which nothing checks.
-/
open AtriumPortal.Ipc AtriumPortal.Lib.Runs

namespace AtriumPortal.Cast

/-! ## Streams the client starts -/

/-- A slot table comes with a dmabuf stream only. -/
def announceable (started : StreamStarted) : Bool :=
  started.slots.isNone || (wireModifier? started.format).isSome

theorem startedSlots_announceable {c c' : Client} {format : StreamPixelFormat} {slots stride bytes : Option Nat}
    {table : Option (List StreamSlot)} (h : c.startedSlots format slots stride bytes = (.ok table, c')) :
    table.isNone = true ∨ (wireModifier? format).isSome = true := by
  cases format with
  | dmabuf drm modifier => exact .inr rfl
  | bgra8 | rgba8 =>
    left
    cases slots <;> cases stride <;> cases bytes <;> simp [Client.startedSlots] at h
    simp [← h.1]

theorem startLoop_announceable (fuel : Nat) : ∀ {c c' : Client} {started : StreamStarted},
    c.startLoop fuel = (.ok started, c') → announceable started = true := by
  induction fuel with
  | zero => intro c c' started h; simp [Client.startLoop] at h
  | succ fuel ih =>
    intro c c' started h
    unfold Client.startLoop at h
    split at h
    · simp at h
    · split at h
      · simp at h
      · next hs =>
        simp only [Prod.mk.injEq, Except.ok.injEq] at h
        obtain ⟨rfl, -⟩ := h
        simpa [announceable] using startedSlots_announceable hs
    · split at h
      · simp at h
      · exact ih h

/-- `start_output_stream` returns no slot table for a shared-memory stream. -/
theorem startOutputStream_announceable {c c' : Client} {maxFps : Option Nat} {target : StreamTarget} {dmabuf : Bool}
    {cursor : Option StreamCursorMode} {started : StreamStarted}
    (h : c.startOutputStream maxFps target dmabuf cursor = (.ok started, c')) : announceable started = true := by
  unfold Client.startOutputStream at h
  simp only at h
  split at h
  · simp at h
  · split at h
    · simp at h
    · exact startLoop_announceable _ h

/-- The answer to a restart that the step takes. -/
def Label.answer? : Label → Option StreamData.RestartAnswer
  | .ipc _ answer => some answer
  | .formatParam _ answer => some answer
  | _ => none

/-- A stream started in the step is one the client can have returned. -/
def Label.announceable (l : Label) : Bool :=
  l.answer?.all fun answer => answer.started.all Cast.announceable

/-! ## The frame a copy is of -/

/-- The descriptor of an accepted frame is the frame's own, with its stride, and holds
linear pixels. -/
theorem validateFrame_descriptor {frame : StreamFrame} {w h : Nat} {announced : AnnouncedFormat} {count stride : Nat}
    {file : File} {damage : List Rect}
    (hv : validateFrame frame w h announced count = .ok (.descriptor file stride damage)) :
    frame.slot = none ∧ frame.stride = stride ∧ (frame.payload = .memfd file ∧ announced.modifier? = none ∨
      frame.payload = .dmabuf file ∧ announced.modifier? = some drmFormatModLinear) := by
  simp only [validateFrame] at hv
  split at hv
  · cases hv
  split at hv
  · cases hv
  split at hv
  · split at hv
    · cases hv
    split at hv
    · cases hv
    split at hv <;> cases hv
  next hslot =>
  split at hv
  · next hp =>
    split at hv
    · cases hv
    · cases hv; exact ⟨hslot, rfl, .inl ⟨hp, rfl⟩⟩
  · next hp =>
    split at hv
    · cases hv
    · cases hv; exact ⟨hslot, rfl, .inl ⟨hp, rfl⟩⟩
  · next drm modifier f _ _ _ _ hp =>
    split at hv
    · split at hv
      · cases hv
      next hlinear =>
      cases hv
      exact ⟨hslot, rfl, .inr ⟨hp, congrArg some (Decidable.not_not.1 hlinear)⟩⟩
    · cases hv
  · cases hv

/-- Where the payload's pixels are read. -/
def FramePayload.source : FramePayload → Source
  | .descriptor _ _ _ => .descriptor
  | .slot k _ => .slot k

/-- The frame's pixels are where the copy reads them, and linear. -/
def Linear (t : Transport) (frame : StreamFrame) : Source → Prop
  | .descriptor => frame.slot = none ∧ ∃ file, frame.payload = .memfd file ∧ t.announced.modifier? = none ∨
      frame.payload = .dmabuf file ∧ t.announced.modifier? = some drmFormatModLinear
  | .slot k => frame.slot = some k ∧ k < t.slotCount ∧ t.announced.modifier? = some drmFormatModLinear

/-- A copy of the frame, as it was validated on the stream. -/
structure CopyOf (t : Transport) (frame : StreamFrame) (source : Source) (stride width height : Nat) : Prop where
  live : frame.streamId = t.streamId
  valid : (validateFrame frame width height t.announced t.slotCount).toBool = true
  linear : Linear t frame source
  width : width = t.width
  height : height = t.height
  stride : stride = frame.stride

namespace StreamData

/-- The newest accepted frame of the live stream. -/
def lastAccepted : List Event → Option StreamFrame
  | [] => none
  | .restarted :: _ => none
  | .delivered frame true :: _ => some frame
  | .delivered _ false :: log => lastAccepted log
  | .released _ _ _ _ :: log => lastAccepted log
  | .copied _ _ _ _ _ :: log => lastAccepted log
  | .queued _ _ _ _ :: log => lastAccepted log

/-- Every copy on the live stream is one of the last accepted frame, and so is the
payload kept for the next. -/
structure CopiesValid (s : StreamData) : Prop where
  copies : ∀ post pre source b stride width height,
    s.log = post ++ .copied source b stride width height :: pre → .restarted ∉ post →
      ∃ frame, lastAccepted pre = some frame ∧ CopyOf s.transport.stream frame source stride width height
  latest : ∀ payload, s.latest = some payload → ∃ frame, lastAccepted s.log = some frame ∧
    frame.streamId = s.transport.streamId ∧
    validateFrame frame s.transport.width s.transport.height s.transport.announced s.transport.slotCount = .ok payload

/-- Publishing would read the latest frame with a stride other than its header's. -/
def misreads (s : StreamData) : Bool :=
  s.pending && s.copiedFrom.any fun source =>
    readable source.1 source.2 s.transport.width s.transport.height &&
      (lastAccepted s.log).any fun frame => frame.stride != source.2

/-- No cycle copies a slot whose stride in the slot table differs from the frame's. -/
def KeepsStride (s : StreamData) : Label → Prop
  | .process late => (returnBuffers late s.reclaimReturnedBuffers).any misreads = false
  | l => l.announceable = true

instance (s : StreamData) (l : Label) : Decidable (s.KeepsStride l) := by
  induction l using Label.casesOn <;> exact inferInstanceAs (Decidable (_ = _))

/-! ## The copies in the log -/

/-- `CopiesValid.copies`, event by event. -/
def Copies (t : Transport) : List Event → Prop
  | [] => True
  | .restarted :: _ => True
  | .copied source _ stride width height :: log =>
    (∃ frame, lastAccepted log = some frame ∧ CopyOf t frame source stride width height) ∧ Copies t log
  | .delivered _ _ :: log => Copies t log
  | .released _ _ _ _ :: log => Copies t log
  | .queued _ _ _ _ :: log => Copies t log

theorem Copies.of_append {t : Transport} {pre : List Event} {source : Source} {b : Buf} {stride w h : Nat}
    (post : List Event) (hc : Copies t (post ++ .copied source b stride w h :: pre))
    (hpost : .restarted ∉ post) :
    ∃ frame, lastAccepted pre = some frame ∧ CopyOf t frame source stride w h := by
  induction post with
  | nil => exact hc.1
  | cons e post ih =>
    have hrest : Event.restarted ∉ post := fun hm => hpost (List.mem_cons_of_mem _ hm)
    cases e with
    | restarted => exact absurd List.mem_cons_self hpost
    | copied => exact ih hc.2 hrest
    | delivered | released | queued => exact ih hc hrest

/-- Events that neither accept a frame nor copy one. -/
def idle : Event → Bool
  | .released _ _ _ _ | .queued _ _ _ _ | .delivered _ false => true
  | _ => false

theorem idle_append {ev : List Event} (log : List Event) (h : ∀ e ∈ ev, idle e = true) (t : Transport) :
    lastAccepted (ev ++ log) = lastAccepted log ∧ (Copies t log → Copies t (ev ++ log)) := by
  induction ev with
  | nil => exact ⟨rfl, id⟩
  | cons e ev ih =>
    obtain ⟨hl, hc⟩ := ih fun e he => h e (List.mem_cons_of_mem _ he)
    have he := h e List.mem_cons_self
    cases e with
    | restarted | copied => cases he
    | queued | released => exact ⟨hl, hc⟩
    | delivered frame accepted =>
      cases accepted with
      | false => exact ⟨hl, hc⟩
      | true => cases he

theorem idle_of_isRelease (e : Event) (h : e.isRelease = true) : idle e = true := by
  cases e <;> first | rfl | cases h

/-! ## The latest frame stays a valid one -/

/-- The stored payload is the last accepted frame's, on the live stream. -/
def Stored (t : Transport) (log : List Event) (payload : FramePayload) : Prop :=
  ∃ frame, lastAccepted log = some frame ∧ frame.streamId = t.streamId ∧
    validateFrame frame t.width t.height t.announced t.slotCount = .ok payload

structure Copied (s : StreamData) : Prop where
  latest : ∀ payload, s.latest = some payload → Stored s.transport.stream s.log payload
  copies : Copies s.transport.stream s.log

theorem Copied.adds {s s' : StreamData} (h : s.Copied) (hs : Adds idle s s') : s'.Copied := by
  obtain ⟨ev, hlog, hev⟩ := hs.log
  obtain ⟨hl, hc⟩ := idle_append s.log hev s.transport.stream
  refine ⟨fun payload hp => ?_, ?_⟩
  · rw [hs.latest] at hp
    obtain ⟨frame, hlast, hvalid⟩ := h.latest payload hp
    rw [hs.stream]
    exact ⟨frame, by rw [hlog, hl, hlast], hvalid⟩
  · rw [hs.stream, hlog]
    exact hc h.copies

theorem Copied.releases {s s' : StreamData} (h : s.Copied) (hs : Adds Event.isRelease s s') : s'.Copied :=
  h.adds (hs.mono idle_of_isRelease)

/-- A slot table is announced with a modifier. -/
def Typed (s : StreamData) : Prop := s.transport.slotFiles ≠ [] → s.transport.announced.modifier?.isSome = true

/-- What may be copied is a copy of the last accepted frame. -/
theorem copyOf_copiedFrom {s : StreamData} (ht : s.Typed) (h : s.Copied) {payload : FramePayload}
    (hl : s.latest = some payload) (hm : s.misreads = false) (hp : s.pending = true) {file : File} {stride : Nat}
    (hfrom : s.copiedFrom = some (file, stride))
    (hread : readable file stride s.transport.width s.transport.height = true) :
    ∃ frame, lastAccepted s.log = some frame ∧
      CopyOf s.transport.stream frame payload.source stride s.transport.width s.transport.height := by
  obtain ⟨frame, hlast, hid, hv⟩ := h.latest payload hl
  have hstride : frame.stride = stride := by
    simpa [misreads, hp, hfrom, hread, hlast] using hm
  refine ⟨frame, hlast, hid, ?_, ?_, rfl, rfl, hstride.symm⟩
  · have hv' : validateFrame frame s.transport.width s.transport.height s.transport.stream.announced
        s.transport.stream.slotCount = .ok payload := hv
    simp [hv', Except.toBool]
  · cases payload with
    | descriptor f st d =>
      obtain ⟨hslot, _, hfile⟩ := validateFrame_descriptor hv
      exact ⟨hslot, f, hfile⟩
    | slot k d =>
      obtain ⟨hslot, hk⟩ := validateFrame_slot hv
      refine ⟨hslot, hk, ?_⟩
      -- The slot is mapped, so its stream is linear.
      have hmap : s.transport.cpuMappable = true := by
        simp only [copiedFrom, hl, Option.map_eq_some_iff, copiedSlot] at hfrom
        obtain ⟨slotFile, hfrom, _⟩ := hfrom
        split at hfrom
        · split at hfrom
          · cases hfrom
          · split at hfrom
            · next hmap => exact hmap
            · cases hfrom
        · cases hfrom
      have hne : s.transport.slotFiles ≠ [] := by
        rintro hnil
        simp [Transport.slotCount, Transport.stream, hnil] at hk
      have htyped := ht hne
      change s.transport.announced.modifier? = _
      revert hmap htyped
      unfold Transport.cpuMappable AnnouncedFormat.modifier?
      cases s.transport.announced <;> simp

/-! ## Every step -/

theorem Copied.copying {s s' : StreamData} (h : s.Copied) {source : Source} {file : File} {stride : Nat}
    {damage : List Rect} {r : Bool} (hc : Copying s source file stride damage s' r)
    (hof : readable file stride s.transport.width s.transport.height = true → ∃ frame, lastAccepted s.log = some frame ∧
      CopyOf s.transport.stream frame source stride s.transport.width s.transport.height) : s'.Copied := by
  cases hc with
  | dropped => exact h.adds (.of_log_eq rfl rfl rfl)
  | starved => exact h
  | diverted _ b s₁ ht =>
    rcases takeBuffer_cases ht with ⟨rest, _, rfl⟩ | ⟨_, rest, _, rfl⟩ <;> exact h.adds (.of_log_eq rfl rfl rfl)
  | queued hread b s₁ ht =>
    have hcopied : ({ s with
        log := .copied source b stride s.transport.width s.transport.height :: s.log } : StreamData).Copied :=
      ⟨h.latest, hof hread, h.copies⟩
    rcases takeBuffer_cases ht with ⟨rest, _, rfl⟩ | ⟨_, rest, _, rfl⟩ <;> exact hcopied.adds (.one rfl rfl rfl rfl)

theorem Copied.publishing {s s' : StreamData} (ht : s.Typed) (h : s.Copied) {k : Nat} {damage : List Rect}
    (hl : s.latest = some (.slot k damage)) (hp : s.pending = true) (hm : s.misreads = false)
    (hpub : Publishing s k damage s') : s'.Copied := by
  cases hpub with
  | inFlight => exact h.adds (.of_log_eq rfl rfl rfl)
  | forwarded => exact h.adds (.one rfl rfl rfl rfl)
  | unmappable => exact h.adds (.one rfl rfl rfl rfl)
  | copied _ slotFile hpath s' r hc =>
    have hcopy := h.copying hc fun hread =>
      copyOf_copiedFrom ht h hl hm hp (by simp [copiedFrom, hl, hpath]) hread
    exact hcopy.adds (.one rfl rfl rfl rfl)

theorem Copied.publishPending {s : StreamData} (hi : s.Tidy) (ht : s.Typed) (h : s.Copied) (hm : s.misreads = false) :
    s.publishPending.Copied := by
  have done : ∀ s' : StreamData, s'.Copied → ({ s' with pending := false } : StreamData).Copied :=
    fun s' h => ⟨h.latest, h.copies⟩
  rcases publishPending_cases hi with ⟨_, he⟩ | ⟨_, _, he⟩ | ⟨_, _, damage, s', r, hp, hl, hc, he⟩ |
    ⟨k, damage, s', hp, hl, hpub, he⟩ <;> rw [he]
  · exact h
  · exact done s h
  · have hcopy := h.copying hc fun hread => copyOf_copiedFrom ht h hl hm hp (by simp [copiedFrom, hl]) hread
    cases r
    · exact hcopy
    · exact done s' hcopy
  · exact done s' (h.publishing ht hl hp hm hpub)

theorem Copied.ipcFrame {s : StreamData} (h : s.Copied) (frame : StreamFrame) : (s.ipcFrame frame).Copied := by
  rcases s.ipcFrame_cases frame with he | he | ⟨payload, hid, hv, hadds⟩
  · rw [he]; exact h
  · rw [he]; exact h.adds (.one rfl rfl rfl rfl)
  · refine Copied.releases (s := { s with latest := some payload, log := .delivered frame true :: s.log }) ?_ hadds
    exact ⟨fun p hp => ⟨frame, rfl, hid, by cases hp; exact hv⟩, h.copies⟩

theorem Typed.of_stream {s s' : StreamData} (ht : s.Typed) (hs : s'.transport.stream = s.transport.stream) :
    s'.Typed := by
  have hfiles : s'.transport.slotFiles = s.transport.slotFiles := (congrArg Transport.slotFiles hs :)
  have hann : s'.transport.announced = s.transport.announced := (congrArg Transport.announced hs :)
  intro hne
  rw [hann]
  exact ht (hfiles ▸ hne)

/-- A stream the client started has slots only with a modifier. -/
theorem typed_of_announceable {started : StreamStarted} {announced : AnnouncedFormat}
    (ha : announceable started = true) (hann : announcedFormat started.format = some announced)
    (hne : started.slots.getD [] ≠ []) : announced.modifier?.isSome = true := by
  rw [announcedFormat_modifier hann]
  cases hs : started.slots with
  | none => simp [hs] at hne
  | some table => simpa [announceable, hs] using ha

theorem typed_of_swapRestarted {t t' : Transport} {started : StreamStarted} {dmabuf : Bool}
    (ha : announceable started = true) (h : t.swapRestarted started dmabuf = some t') (hne : t'.slotFiles ≠ []) :
    t'.announced.modifier?.isSome = true := by
  obtain ⟨hann, _, _, hfiles, _⟩ := Transport.swapRestarted_eq_some h
  exact typed_of_announceable ha hann (hfiles ▸ hne)

theorem Renews.typed {s s' : StreamData} {l : Label} (h : Renews s l s') (ht : s.Typed) (ha : l.announceable = true) :
    s'.Typed := by
  cases h with
  | same _ _ h => exact ht.of_stream h.1
  | fixated fixated answer started t hstart _ hswap n =>
    exact typed_of_swapRestarted (by simpa [Label.announceable, Label.answer?, hstart] using ha) hswap
  | resized id answer started t hstart _ hswap =>
    have ht : t.slotFiles ≠ [] → t.announced.modifier?.isSome = true :=
      typed_of_swapRestarted (by simpa [Label.announceable, Label.answer?, hstart] using ha) hswap
    exact ht

theorem KeepsStride.announceable {s : StreamData} {l : Label} (h : s.KeepsStride l) : l.announceable = true := by
  cases l with
  | process late => rfl
  | _ => exact h

theorem step_copied {s s' : StreamData} {l : Label} (hi : s.Tidy) (ht : s.Typed) (h : s.Copied) (hg : s.KeepsStride l)
    (hs : s.step l = some s') : s'.Copied := by
  cases step_logs hi hs with
  | frame frame answer => exact h.ipcFrame frame
  | adds _ _ hadds => exact h.releases hadds
  | restarted _ _ hlatest hlog =>
    refine ⟨fun payload hp => ?_, by rw [hlog]; trivial⟩
    rw [hlatest] at hp
    cases hp
  | published late s₁ hlate hadds hi₁ =>
    have hm : s₁.misreads = false := by simpa [KeepsStride, hlate] using hg
    exact (h.releases hadds).publishPending hi₁ (ht.of_stream hadds.stream) hm

/-- The stream that `run_cast` starts with is one the client returned. -/
def ClientInit (s : StreamData) : Prop :=
  ∃ started target cursor, announceable started = true ∧ start started target cursor = some s

theorem ClientInit.init {s : StreamData} (h : ClientInit s) : Init s :=
  have ⟨started, target, cursor, _, h⟩ := h
  ⟨started, target, cursor, h⟩

theorem init_copied {s : StreamData} (h : ClientInit s) : s.Typed ∧ s.Copied := by
  obtain ⟨started, target, cursor, ha, h⟩ := h
  simp only [start, Option.bind_eq_some_iff, Option.map_eq_some_iff] at h
  obtain ⟨_, _, t, ht, rfl⟩ := h
  obtain ⟨announced, hann, rfl⟩ := Option.map_eq_some_iff.1 ht
  refine ⟨fun hne => typed_of_announceable ha hann hne, ?_, trivial⟩
  intro payload hp
  cases hp

/-- In every run in which no slot is copied with a stride other than its frame's,
a copy is one of the last accepted frame of the live stream, of linear pixels, with the
geometry that was validated. -/
theorem copies_valid {s : StreamData} (h : Reach ClientInit (Guarded KeepsStride step) s) : s.CopiesValid := by
  have hr : s.Tidy ∧ s.Typed ∧ s.Copied :=
    h.inv_guarded (I := fun s => s.Tidy ∧ s.Typed ∧ s.Copied)
      (fun _ hs => ⟨init_tidy hs.init, init_copied hs⟩) fun _ _ _ hi hg hs =>
        ⟨step_tidy hi.1 hs, (step_renews hi.1 hs).typed hi.2.1 hg.announceable,
          step_copied hi.1 hi.2.1 hi.2.2 hg hs⟩
  refine ⟨fun post pre source b stride w hgt hlog hpost => ?_, hr.2.2.latest⟩
  exact Copies.of_append post (hlog ▸ hr.2.2.copies) hpost

/-! ## A slot read with the table's stride -/

/-- The linear stream with slots whose rows overlap. -/
def narrowStream : StreamStarted := { linearStream with slots := some [⟨linearFile, 4, 16⟩, ⟨linearFile, 4, 16⟩] }

/-- A slot frame is copied for a consumer of shared memory. -/
def copySlot : List Label :=
  [.addBuffer 10 true true, .ipc (.ok (.frame (slotFrame 0))) ⟨false, none⟩, .process []]

theorem copies_valid_linear : ∃ s₀ s, start linearStream (.output none) .hidden = some s₀ ∧
    exec (Guarded KeepsStride step) s₀ copySlot = some s ∧ s.CopiesValid := by
  have hrun : ∃ s₀ s, start linearStream (.output none) .hidden = some s₀ ∧
      exec (Guarded KeepsStride step) s₀ copySlot = some s :=
    ⟨_, ((start linearStream (.output none) .hidden).bind (exec (Guarded KeepsStride step) · copySlot)).get
      (by decide +kernel), rfl, by decide +kernel⟩
  obtain ⟨s₀, s, h₀, he⟩ := hrun
  exact ⟨s₀, s, h₀, he, copies_valid ((Reach.init ⟨_, _, _, rfl, h₀⟩).exec he)⟩

/-- The frame is checked for rows of 8 bytes and copied with rows of 4. -/
theorem slot_stride_unchecked : ∃ s, Reach ClientInit step s ∧ ¬ s.CopiesValid := by
  have hrun : ∃ s₀ s, start narrowStream (.output none) .hidden = some s₀ ∧ exec step s₀ copySlot = some s ∧
      s.log = [.released 1 0 false .copied, .queued 10 none 0 [], .copied (.slot 0) 10 4 2 2,
        .delivered (slotFrame 0) true] :=
    ⟨_, ((start narrowStream (.output none) .hidden).bind (exec step · copySlot)).get (by decide +kernel), rfl,
      by decide +kernel⟩
  obtain ⟨s₀, s, h₀, he, hlog⟩ := hrun
  refine ⟨s, (Reach.init ⟨_, _, _, rfl, h₀⟩).exec he, fun hc => ?_⟩
  obtain ⟨frame, hlast, hcopy⟩ := hc.copies [.released 1 0 false .copied, .queued 10 none 0 []] _ _ _ _ _ _ hlog (by simp)
  cases hlast
  exact absurd hcopy.stride (by decide)

end StreamData

end AtriumPortal.Cast
