import AtriumPortal.Cast.Ownership
/-!
# Restarts of the compositor stream

A fixation that the transport cannot serve and a geometry change both stop the
compositor stream and start it again. What the restart may answer is the
compositor's choice: `Servable` says which streams a fixated modifier can be
delivered from, and `Transport.offer` what PipeWire must have been offered for a
transport.
-/
open AtriumPortal.Ipc AtriumPortal.Lib.Runs

namespace AtriumPortal.Cast

/-! ## Modifiers -/

/-- The modifier of a dmabuf stream. -/
def AnnouncedFormat.modifier? : AnnouncedFormat → Option Nat
  | .shm _ => none
  | .dmabuf _ modifier _ => some modifier

/-- The modifier of a dmabuf format on the wire. -/
def wireModifier? : StreamPixelFormat → Option Nat
  | .bgra8 | .rgba8 => none
  | .dmabuf _ modifier => some modifier

theorem announcedFormat_modifier {format : StreamPixelFormat} {announced : AnnouncedFormat}
    (h : announcedFormat format = some announced) : announced.modifier? = wireModifier? format := by
  cases format with
  | bgra8 => cases h; rfl
  | rgba8 => cases h; rfl
  | dmabuf drmFormat modifier =>
    obtain ⟨f, _, rfl⟩ := Option.map_eq_some_iff.1 h
    rfl

/-- A stream without tiles serves every consumer through the copy path; a tiled
one only a consumer of its own modifier, with slots to forward. -/
def Servable (modifier : Option Nat) (slots : List StreamSlot) (fixated : Option Nat) : Prop :=
  modifier = none ∨ modifier = some drmFormatModLinear ∨ modifier = fixated ∧ slots ≠ []

instance (modifier : Option Nat) (slots : List StreamSlot) (fixated : Option Nat) :
    Decidable (Servable modifier slots fixated) :=
  inferInstanceAs (Decidable (_ ∨ _ ∨ _ ∧ _))

namespace Transport

/-- Delivery in the mode works on the transport. -/
def Serves (t : Transport) (fixated : Option Nat) : DeliveryMode → Prop
  | .dmabuf => (∃ modifier, t.announced.modifier? = some modifier ∧ fixated = some modifier) ∧ t.slotFiles ≠ []
  | .shm => t.cpuMappable = true

/-- `deliveryMode` picks a mode that works whenever one does. -/
theorem serves_deliveryMode_iff (t : Transport) (fixated : Option Nat) :
    t.Serves fixated (StreamData.deliveryMode t fixated) ↔ Servable t.announced.modifier? t.slotFiles fixated := by
  cases ha : t.announced with
  | shm f => simp [StreamData.deliveryMode, Serves, cpuMappable, ha, Servable, AnnouncedFormat.modifier?]
  | dmabuf drm modifier f =>
    cases fixated with
    | none => simp [StreamData.deliveryMode, Serves, cpuMappable, ha, Servable, AnnouncedFormat.modifier?]
    | some m =>
      by_cases h : m = modifier ∧ t.slotFiles ≠ []
      · simp [StreamData.deliveryMode, Serves, ha, Servable, AnnouncedFormat.modifier?, h.1, h.2]
      · simp only [StreamData.deliveryMode, ha, if_neg h, Serves, cpuMappable, beq_iff_eq, AnnouncedFormat.modifier?,
          Servable, reduceCtorEq, Option.some.injEq, false_or]
        constructor
        · exact .inl
        · rintro (hm | ⟨rfl, hs⟩)
          · exact hm
          · exact absurd ⟨rfl, hs⟩ h

end Transport

namespace StreamData

/-! ## The fixation -/

/-- An accepted restart is swapped in. -/
theorem syncTransport_of_accepts {s : StreamData} {fixated : Option Nat} {answer : RestartAnswer} {started : StreamStarted}
    (hn : needsSwitch s.transport fixated = true) (hstop : answer.stopped = true) (hstart : answer.started = some started)
    (ha : s.transport.Accepts started) :
    ∃ t, s.transport.swapRestarted started (wantDmabuf s.transport fixated) = some t ∧
      s.syncTransport fixated answer = some (s.swapTransport t) := by
  obtain ⟨hw, hh, hf⟩ := ha
  obtain ⟨announced, hann, hspa⟩ := Option.map_eq_some_iff.1 hf
  simp [syncTransport, hn, hstop, hstart, hw, hh, hann, hspa, Transport.swapRestarted]

/-- The main loop is quit by this very call. -/
def quits (s : StreamData) (fixated : FixatedFormat) (answer : RestartAnswer) : Bool :=
  (applyFixatedFormat { s with quit := false } fixated answer).quit

/-- After the fixation the delivery mode works on the transport. -/
def ModeServed (s : StreamData) (fixated : FixatedFormat) (answer : RestartAnswer) : Prop :=
  (s.applyFixatedFormat fixated answer).transport.Serves fixated.modifier
    (s.applyFixatedFormat fixated answer).negotiation.mode

/-- The stream that is there after the fixation can serve it: the live one when it
stays, and whatever the compositor answers to the restart. -/
def HonoursFixation (t : Transport) (fixated : Option Nat) (answer : RestartAnswer) : Prop :=
  if needsSwitch t fixated then
    answer.stopped = true → ∀ started, answer.started = some started → t.Accepts started →
      Servable (wireModifier? started.format) (started.slots.getD []) fixated
  else Servable t.announced.modifier? t.slotFiles fixated

/-- What `apply_fixated_format` does when it does not quit. -/
theorem applyFixatedFormat_of_sync {s s' : StreamData} {fixated : FixatedFormat} {answer : RestartAnswer}
    (h : s.syncTransport fixated.modifier answer = some s') :
    s.applyFixatedFormat fixated answer =
      { s' with negotiation := { s'.negotiation with mode := deliveryMode s'.transport fixated.modifier } } := by
  simp only [applyFixatedFormat, h]

theorem syncTransport_quit (s : StreamData) (q : Bool) (fixated : Option Nat) (answer : RestartAnswer) :
    syncTransport { s with quit := q } fixated answer =
      (s.syncTransport fixated answer).map fun s' => { s' with quit := q } := by
  unfold syncTransport
  split
  · rfl
  split
  · rfl
  cases answer.started with
  | none => rfl
  | some started =>
    simp only [Option.bind_some]
    split
    · rfl
    cases announcedFormat started.format with
    | none => rfl
    | some announced =>
      simp only [Option.bind_some]
      split
      · rfl
      cases s.transport.swapRestarted started (wantDmabuf s.transport fixated) <;> rfl

theorem quits_eq_false {s : StreamData} {fixated : FixatedFormat} {answer : RestartAnswer} :
    s.quits fixated answer = false ↔ (s.syncTransport fixated.modifier answer).isSome = true := by
  unfold quits applyFixatedFormat
  rw [syncTransport_quit]
  cases h : s.syncTransport fixated.modifier answer with
  | none => simp
  | some s' => simp

/-- A fixation that returns without quitting leaves a delivery mode that works
exactly when the stream it ends up with can serve the fixated modifier. -/
theorem mode_served_iff (s : StreamData) (fixated : FixatedFormat) (answer : RestartAnswer) :
    (s.quits fixated answer = false → s.ModeServed fixated answer) ↔
      HonoursFixation s.transport fixated.modifier answer := by
  rw [quits_eq_false]
  unfold HonoursFixation ModeServed
  cases hn : needsSwitch s.transport fixated.modifier with
  | false =>
    have hsync : s.syncTransport fixated.modifier answer = some s := by simp [syncTransport, hn]
    simp only [applyFixatedFormat_of_sync hsync, hsync, Option.isSome_some, forall_const, Bool.false_eq_true, if_false]
    exact s.transport.serves_deliveryMode_iff fixated.modifier
  | true =>
    simp only [if_true]
    constructor
    · intro h hstop started hstart ha
      obtain ⟨t, ht, hsync⟩ := syncTransport_of_accepts hn hstop hstart ha
      have hserves := h (by simp [hsync])
      rw [applyFixatedFormat_of_sync hsync] at hserves
      obtain ⟨hann, -, -, hslots, -⟩ := Transport.swapRestarted_eq_some ht
      rw [← announcedFormat_modifier hann, ← hslots]
      exact (t.serves_deliveryMode_iff fixated.modifier).1 hserves
    · intro h hsome
      obtain ⟨s', hsync⟩ := Option.isSome_iff_exists.1 hsome
      rcases syncTransport_eq_some hsync with ⟨hn', -⟩ | ⟨started, t, -, hstop, hstart, ha, ht, rfl⟩
      · rw [hn] at hn'; cases hn'
      · rw [applyFixatedFormat_of_sync hsync]
        obtain ⟨hann, -, -, hslots, -⟩ := Transport.swapRestarted_eq_some ht
        refine (t.serves_deliveryMode_iff fixated.modifier).2 ?_
        rw [announcedFormat_modifier hann, hslots]
        exact h hstop started hstart ha

/-- The consumer takes shared memory, then the offered modifier again, and the
stream restarted for it has another one: frames of its tiles are all dropped. -/
def foreignModifier : List Label :=
  [.formatParam ⟨some .BGRx, 2, 2, none⟩ ⟨true, some ⟨2, 2, 2, .bgra8, none⟩⟩]

def foreignRestart : RestartAnswer :=
  ⟨true, some { slotStream with streamId := 3, format := .dmabuf (fourcc 'X' 'R' '2' '4') 6 }⟩

theorem foreign_modifier_unserved : ∃ s, Reach Init step s ∧
    s.quits ⟨some .BGRx, 2, 2, some 5⟩ foreignRestart = false ∧
    ¬ s.ModeServed ⟨some .BGRx, 2, 2, some 5⟩ foreignRestart := by
  obtain ⟨s, hs, hq, hmode, hmap⟩ : ∃ s, slotRun foreignModifier = some s ∧
      s.quits ⟨some .BGRx, 2, 2, some 5⟩ foreignRestart = false ∧
      (s.applyFixatedFormat ⟨some .BGRx, 2, 2, some 5⟩ foreignRestart).negotiation.mode = .shm ∧
      (s.applyFixatedFormat ⟨some .BGRx, 2, 2, some 5⟩ foreignRestart).transport.cpuMappable = false := by
    refine ⟨(slotRun foreignModifier).get (by decide +kernel), ?_, ?_, ?_, ?_⟩ <;> decide +kernel
  refine ⟨s, reach_slotRun hs, hq, ?_⟩
  unfold ModeServed
  rw [hmode]
  simp [Transport.Serves, hmap]

/-! ## What a step does to the stream -/

end StreamData

/-- The transport without the state of its slots. -/
def Transport.stream (t : Transport) : Transport := { t with slotBindings := [] }

@[simp] theorem Transport.stream_modifyBinding (t : Transport) (k : Nat) (f : SlotBinding → SlotBinding) :
    (t.modifyBinding k f).stream = t.stream := rfl

namespace StreamData

/-- The live stream and the offer stay as they are. -/
def SameStream (s s' : StreamData) : Prop :=
  s'.transport.stream = s.transport.stream ∧ s'.offered = s.offered

theorem SameStream.refl (s : StreamData) : SameStream s s := ⟨rfl, rfl⟩

theorem SameStream.trans {s₁ s₂ s₃ : StreamData} (h : SameStream s₁ s₂) (h' : SameStream s₂ s₃) : SameStream s₁ s₃ :=
  ⟨h'.1.trans h.1, h'.2.trans h.2⟩

theorem SameStream.width {s s' : StreamData} (h : SameStream s s') : s'.transport.width = s.transport.width :=
  (congrArg Transport.width h.1 :)

theorem SameStream.height {s s' : StreamData} (h : SameStream s s') : s'.transport.height = s.transport.height :=
  (congrArg Transport.height h.1 :)

/-- What a step does to the live stream and the offer. -/
inductive Renews (s : StreamData) : Label → StreamData → Prop
  | same (l : Label) (s' : StreamData) (h : SameStream s s') : Renews s l s'
  /-- A fixation restarts the stream; nothing is offered again. -/
  | fixated (fixated : FixatedFormat) (answer : RestartAnswer) (started : StreamStarted) (t : Transport)
      (hstart : answer.started = some started) (ha : s.transport.Accepts started)
      (ht : s.transport.swapRestarted started (wantDmabuf s.transport fixated.modifier) = some t) (n : Negotiation) :
    Renews s (.formatParam fixated answer) { s.swapTransport t with negotiation := n }
  /-- A geometry change restarts the stream, and it is offered. -/
  | resized (id : Nat) (answer : RestartAnswer) (started : StreamStarted) (t : Transport)
      (hstart : answer.started = some started) (hlen : (frameLen started.width started.height).isSome = true)
      (ht : s.transport.swapRestarted started s.transport.dmabuf = some t) :
    Renews s (.ipc (.ok (.geometryChanged id started.width started.height)) answer)
      { s.swapTransport { t with offeredModifier := Transport.offerModifier t.announced t.slotCount } with
        offered := formatPods started.width started.height t.announced (0 < t.slotCount) }

theorem sameStream_releaseSlot (s : StreamData) (k : Nat) (c : Cause) : SameStream s (s.releaseSlot k c) := by
  unfold releaseSlot
  split
  · exact .refl s
  · exact ⟨rfl, rfl⟩

theorem sameStream_replaceLatest (s : StreamData) (payload : FramePayload) : SameStream s (s.replaceLatest payload) := by
  unfold replaceLatest
  split
  · next k d _ _ => exact sameStream_releaseSlot s k .replaced
  · exact ⟨rfl, rfl⟩

theorem sameStream_ipcFrame (s : StreamData) (frame : StreamFrame) : SameStream s (s.ipcFrame frame) := by
  unfold ipcFrame
  split
  · exact .refl s
  split
  · exact sameStream_replaceLatest { s with log := _ } _
  · exact ⟨rfl, rfl⟩

theorem sameStream_reclaimBuffer (s : StreamData) (b : Buf) : SameStream s (s.reclaimBuffer b) := by
  unfold reclaimBuffer
  split
  · split
    · split <;> exact ⟨rfl, rfl⟩
    · exact .refl s
  · exact ⟨rfl, rfl⟩

theorem sameStream_returnBuffer {s s' : StreamData} {b : Buf} (h : s.returnBuffer b = some s') : SameStream s s' := by
  unfold returnBuffer at h
  split at h
  · cases h; exact ⟨rfl, rfl⟩
  · cases h

theorem Copying.sameStream {s s' : StreamData} {source : Source} {file : File} {stride : Nat} {damage : List Rect}
    {r : Bool} (h : Copying s source file stride damage s' r) : SameStream s s' := by
  cases h with
  | dropped => exact ⟨rfl, rfl⟩
  | starved => exact .refl s
  | diverted _ b s₁ ht | queued _ b s₁ ht =>
    rcases takeBuffer_cases ht with ⟨rest, _, rfl⟩ | ⟨_, rest, _, rfl⟩ <;> exact ⟨rfl, rfl⟩

theorem sameStream_publishPending {s : StreamData} (hi : s.Tidy) : SameStream s s.publishPending := by
  rcases publishPending_cases hi with ⟨_, he⟩ | ⟨_, _, he⟩ | ⟨_, _, _, s', r, _, _, hc, he⟩ |
    ⟨k, damage, s', _, _, hpub, he⟩ <;> rw [he]
  · exact .refl s
  · exact ⟨rfl, rfl⟩
  · cases r
    · exact hc.sameStream
    · exact hc.sameStream
  · cases hpub with
    | inFlight | forwarded | unmappable => exact ⟨rfl, rfl⟩
    | copied _ slotFile _ s' r hc => exact hc.sameStream

theorem sameStream_processFrame {s s' : StreamData} {late : List Buf} (hi : s.Tidy) (h : s.processFrame late = some s') :
    SameStream s s' := by
  obtain ⟨s₁, _, hi₁, _, hsame, rfl⟩ := processFrame_publishes (P := SameStream s)
    (fun s₁ b rest _ hs _ => hs.trans (sameStream_reclaimBuffer { s₁ with returned := rest } b))
    (fun _ _ _ _ hs hr => hs.trans (sameStream_returnBuffer hr)) hi (.refl s) h
  exact hsame.trans (sameStream_publishPending hi₁)

theorem step_renews {s s' : StreamData} {l : Label} (hi : s.Tidy) (h : s.step l = some s') : Renews s l s' := by
  simp only [step] at h
  split at h
  · cases h
  cases l <;> simp only [callback] at h
  case ipc message answer =>
    rcases message with error | message
    · cases h; exact .same _ _ ⟨rfl, rfl⟩
    · cases message with
      | frame frame =>
        simp only at h
        split at h
        · cases h; exact .same _ _ (sameStream_ipcFrame s frame)
        · cases h
      | ended id reason => cases h; exact .same _ _ ⟨rfl, rfl⟩
      | leaseRenewed => cases h; exact .same _ _ (.refl s)
      | geometryChanged id w hgt =>
        cases h
        simp only [ipcMessage, ipcGeometryChanged]
        split
        · exact .same _ _ (.refl s)
        split
        · next s₁ hr =>
          obtain ⟨started, t, hstart, rfl, rfl, hlen, ht, rfl⟩ := restartStreamGeometry_eq_some hr
          exact .resized id answer started t hstart hlen ht
        · exact .same _ _ ⟨rfl, rfl⟩
  case process late => exact .same _ _ (sameStream_processFrame hi h)
  case returnBuffer b => exact .same _ _ (sameStream_returnBuffer h)
  case stateChanged new =>
    cases h
    refine .same _ _ ?_
    cases new with
    | streaming => simp only [stateChanged]; split <;> exact ⟨rfl, rfl⟩
    | _ => exact ⟨rfl, rfl⟩
  case formatParam fixated answer =>
    cases h
    unfold applyFixatedFormat
    split
    · exact .same _ _ ⟨rfl, rfl⟩
    · next s₁ hs =>
      rcases syncTransport_eq_some hs with ⟨_, rfl⟩ | ⟨started, t, _, _, hstart, ha, ht, rfl⟩
      · exact .same _ _ ⟨rfl, rfl⟩
      · exact .fixated fixated answer started t hstart ha ht _
  case buffersParam mask => cases h; exact .same _ _ ⟨rfl, rfl⟩
  case addBuffer b hasData allocated =>
    split at h
    · cases h
    · cases h
      have := addBuffer_spec s b hasData allocated
      generalize s.addBuffer b hasData allocated = s' at this
      cases this <;> exact .same _ _ ⟨rfl, rfl⟩
  case removeBuffer b =>
    split at h
    · cases h
      have := removeBuffer_spec hi b
      generalize s.removeBuffer b = s' at this
      cases this <;> exact .same _ _ ⟨rfl, rfl⟩
    · cases h
  case stop => cases h; exact .same _ _ ⟨rfl, rfl⟩
  case teardown =>
    split at h
    · cases h; exact .same _ _ ⟨rfl, rfl⟩
    · cases h

/-! ## The offer follows the transport -/

end StreamData

/-- The format set that describes the transport: its pixel format and size, with
the offered modifier first when there is one. -/
def Transport.offer (t : Transport) : List FormatPod :=
  match t.offeredModifier with
  | some modifier => [⟨t.width, t.height, t.announced.spaFormat, some modifier⟩,
      ⟨t.width, t.height, t.announced.spaFormat, none⟩]
  | none => [⟨t.width, t.height, t.announced.spaFormat, none⟩]

theorem Transport.offer_congr {t t' : Transport} (hw : t'.width = t.width) (hh : t'.height = t.height)
    (hf : t'.announced.spaFormat = t.announced.spaFormat) (hm : t'.offeredModifier = t.offeredModifier) :
    t'.offer = t.offer := by
  simp only [offer, hw, hh, hf, hm]

theorem Transport.formatPods_eq_offer {t : Transport} (h : t.offeredModifier = offerModifier t.announced t.slotCount) :
    formatPods t.width t.height t.announced (0 < t.slotCount) = t.offer := by
  unfold offer formatPods
  rw [h]
  cases t.announced with
  | shm f => rfl
  | dmabuf drm modifier f =>
    by_cases hs : 0 < t.slotCount <;> simp [offerModifier, hs, AnnouncedFormat.spaFormat]

namespace StreamData

/-- Every geometry that is streamed fits a frame, and is what PipeWire was offered. -/
structure Offering (s : StreamData) : Prop where
  sized : (frameLen s.transport.width s.transport.height).isSome = true
  offered : s.offered = s.transport.offer

theorem init_offering {s : StreamData} (h : Init s) : s.Offering := by
  obtain ⟨started, target, cursor, h⟩ := h
  obtain ⟨n, hlen, h⟩ := Option.bind_eq_some_iff.1 h
  obtain ⟨t, ht, rfl⟩ := Option.map_eq_some_iff.1 h
  obtain ⟨announced, _, rfl⟩ := Option.map_eq_some_iff.1 ht
  exact ⟨by simp [hlen], Transport.formatPods_eq_offer rfl⟩

theorem Renews.offering {s s' : StreamData} {l : Label} (h : Renews s l s') (ho : s.Offering) : s'.Offering := by
  cases h with
  | same _ _ h =>
    refine ⟨by rw [h.width, h.height]; exact ho.sized, ?_⟩
    rw [h.2, ho.offered]
    exact (congrArg Transport.offer h.1).symm
  | fixated fixated answer started t hstart ha ht n =>
    obtain ⟨hann, hw, hh, -, hm, -⟩ := Transport.swapRestarted_eq_some ht
    have hwidth := hw.trans ha.1
    have hheight := hh.trans ha.2.1
    have hspa : t.announced.spaFormat = s.transport.announced.spaFormat := by
      have := ha.2.2
      rw [hann] at this
      exact Option.some.inj this
    refine ⟨?_, ?_⟩
    · simpa only [swapTransport, hwidth, hheight] using ho.sized
    · exact ho.offered.trans (Transport.offer_congr hwidth hheight hspa hm).symm
  | resized id answer started t hstart hlen ht =>
    obtain ⟨-, hw, hh, -⟩ := Transport.swapRestarted_eq_some ht
    refine ⟨by simpa only [swapTransport, hw, hh] using hlen, ?_⟩
    simp only [swapTransport]
    rw [← hw, ← hh]
    exact Transport.formatPods_eq_offer (t := { t with
      offeredModifier := Transport.offerModifier t.announced t.slotCount }) rfl

theorem reach_offering {s : StreamData} (h : Reach Init step s) : s.Tidy ∧ s.Offering :=
  h.inv (I := fun s => s.Tidy ∧ s.Offering) (fun _ hs => ⟨init_tidy hs, init_offering hs⟩)
    fun _ _ _ hi hs => ⟨step_tidy hi.1 hs, (step_renews hi.1 hs).offering hi.2⟩

/-- Between callbacks PipeWire was last offered what the transport is, and a
restart that fails leaves the transport as it was. -/
theorem offer_agrees {s : StreamData} (h : Reach Init step s) :
    s.offered = s.transport.offer ∧
    (∀ fixated answer, s.syncTransport fixated.modifier answer = none →
      (s.applyFixatedFormat fixated answer).transport = s.transport) ∧
    ∀ id width height answer, s.restartStreamGeometry id width height answer = none →
      (s.ipcGeometryChanged id width height answer).transport = s.transport := by
  refine ⟨(reach_offering h).2.offered, fun fixated answer hn => ?_, fun id width height answer hn => ?_⟩
  · simp only [applyFixatedFormat, hn]
  · unfold ipcGeometryChanged
    split
    · rfl
    · simp only [hn]

theorem offer_agrees_fixated : ∃ s, slotRun foreignModifier = some s ∧ s.offered = s.transport.offer := by
  have hrun : (slotRun foreignModifier).isSome = true := by decide +kernel
  obtain ⟨s, hs⟩ := Option.isSome_iff_exists.1 hrun
  exact ⟨s, hs, (offer_agrees (reach_slotRun hs)).1⟩

end StreamData

end AtriumPortal.Cast
