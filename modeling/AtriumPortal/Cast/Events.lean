import AtriumPortal.Cast.Restarts
/-!
# What a step logs

For properties of the log: apart from an arriving frame, a restart and the frame
that a cycle publishes, a step only gives slots back. `step_logs` sums this up.
-/
open AtriumPortal.Ipc

namespace AtriumPortal.Cast

def Event.isRelease : Event → Bool
  | .released _ _ _ _ => true
  | _ => false

namespace StreamData

/-- The live stream and the latest frame stay, and only events that meet `P` are logged. -/
structure Adds (P : Event → Bool) (s s' : StreamData) : Prop where
  stream : s'.transport.stream = s.transport.stream
  latest : s'.latest = s.latest
  log : ∃ ev, s'.log = ev ++ s.log ∧ ∀ e ∈ ev, P e = true

namespace Adds

variable {P : Event → Bool} {s s' : StreamData}

theorem refl (P : Event → Bool) (s : StreamData) : Adds P s s := ⟨rfl, rfl, [], rfl, by simp⟩

theorem trans {s'' : StreamData} (h : Adds P s s') (h' : Adds P s' s'') : Adds P s s'' := by
  obtain ⟨ev, hlog, hev⟩ := h.log
  obtain ⟨ev', hlog', hev'⟩ := h'.log
  refine ⟨h'.stream.trans h.stream, h'.latest.trans h.latest, ev' ++ ev, by rw [hlog', hlog, List.append_assoc], ?_⟩
  intro e he
  rcases List.mem_append.1 he with he | he
  · exact hev' e he
  · exact hev e he

theorem mono {Q : Event → Bool} (h : Adds P s s') (hPQ : ∀ e, P e = true → Q e = true) : Adds Q s s' := by
  obtain ⟨ev, hlog, hev⟩ := h.log
  exact ⟨h.stream, h.latest, ev, hlog, fun e he => hPQ e (hev e he)⟩

/-- Nothing is logged. -/
theorem of_log_eq (hs : s'.transport.stream = s.transport.stream) (hl : s'.latest = s.latest) (hlog : s'.log = s.log) :
    Adds P s s' := ⟨hs, hl, [], hlog, by simp⟩

theorem one {e : Event} (hs : s'.transport.stream = s.transport.stream) (hl : s'.latest = s.latest)
    (hlog : s'.log = e :: s.log) (he : P e = true) : Adds P s s' :=
  ⟨hs, hl, [e], hlog, by simpa using he⟩

theorem width (h : Adds P s s') : s'.transport.width = s.transport.width := (congrArg Transport.width h.stream :)

theorem height (h : Adds P s s') : s'.transport.height = s.transport.height := (congrArg Transport.height h.stream :)

end Adds

theorem adds_releaseSlot (s : StreamData) (k : Nat) (c : Cause) : Adds Event.isRelease s (s.releaseSlot k c) := by
  unfold releaseSlot
  split
  · exact .refl _ s
  · exact .one rfl rfl rfl rfl

theorem adds_reclaimBuffer (s : StreamData) (b : Buf) : Adds Event.isRelease s (s.reclaimBuffer b) := by
  unfold reclaimBuffer
  split
  · split
    · split
      · exact .of_log_eq rfl rfl rfl
      · exact .one rfl rfl rfl rfl
    · exact .refl _ s
  · exact .of_log_eq rfl rfl rfl

theorem adds_returnBuffer {s s' : StreamData} {b : Buf} (P : Event → Bool) (h : s.returnBuffer b = some s') :
    Adds P s s' := by
  unfold returnBuffer at h
  split at h
  · cases h; exact .of_log_eq rfl rfl rfl
  · cases h

theorem release_of_teardown (s : StreamData) (bindings : List SlotBinding) (k : Nat) :
    ∀ e ∈ s.teardownReleases bindings k, e.isRelease = true := by
  induction bindings generalizing k with
  | nil => intro e he; cases he
  | cons binding rest ih =>
    intro e he
    unfold teardownReleases at he
    split at he
    · rcases List.mem_append.1 he with he | he
      · exact ih (k + 1) e he
      · rw [List.mem_singleton.1 he]; rfl
    · exact ih (k + 1) e he

/-- What a step logs. -/
inductive Logs (s : StreamData) : Label → StreamData → Prop
  | frame (frame : StreamFrame) (answer : RestartAnswer) : Logs s (.ipc (.ok (.frame frame)) answer) (s.ipcFrame frame)
  | adds (l : Label) (s' : StreamData) (h : Adds Event.isRelease s s') : Logs s l s'
  | restarted (l : Label) (s' : StreamData) (hlatest : s'.latest = none) (hlog : s'.log = .restarted :: s.log) : Logs s l s'
  /-- A cycle, after the reclaim loop. -/
  | published (late : List Buf) (s₁ : StreamData) (hlate : returnBuffers late s.reclaimReturnedBuffers = some s₁)
      (h : Adds Event.isRelease s s₁) (hi : s₁.Tidy) : Logs s (.process late) s₁.publishPending

theorem step_logs {s s' : StreamData} {l : Label} (hi : s.Tidy) (h : s.step l = some s') : Logs s l s' := by
  cases (step_does hi h).2 with
  | frame frame answer => exact .frame frame answer
  | kept _ n o q => exact .adds _ _ (.of_log_eq rfl rfl rfl)
  | restarted _ t ht n o q => exact .restarted _ _ rfl rfl
  | process late _ h =>
    obtain ⟨s₁, hlate, hi₁, _, hadds, rfl⟩ := processFrame_publishes (P := Adds Event.isRelease s)
      (fun s₁ b rest _ hs _ =>
        have ht := adds_reclaimBuffer { s₁ with returned := rest } b
        hs.trans ⟨ht.stream, ht.latest, ht.log⟩)
      (fun _ _ _ _ hs hr => hs.trans (adds_returnBuffer _ hr)) hi (.refl _ s) h
    exact .published late s₁ hlate hadds hi₁
  | returned b _ h => exact .adds _ _ (adds_returnBuffer _ h)
  | rearmed payload hl => exact .adds _ _ (.of_log_eq rfl rfl rfl)
  | added b hasData allocated hb _ h => cases h <;> exact .adds _ _ (.of_log_eq rfl rfl rfl)
  | removed b _ h =>
    cases h with
    | unbound | idle => exact .adds _ _ (.of_log_eq rfl rfl rfl)
    | released => exact .adds _ _ (.one rfl rfl rfl rfl)
  | tornDown => exact .adds _ _ ⟨rfl, rfl, _, rfl, release_of_teardown s s.transport.slotBindings 0⟩

/-- An arriving frame is ignored, refused, or becomes the latest; then it may cost
the one before it its slot. -/
theorem ipcFrame_cases (s : StreamData) (frame : StreamFrame) :
    s.ipcFrame frame = s ∨
    s.ipcFrame frame = { s with log := .delivered frame false :: s.log } ∨
    ∃ payload, frame.streamId = s.transport.streamId ∧
      validateFrame frame s.transport.width s.transport.height s.transport.announced s.transport.slotCount = .ok payload ∧
      Adds Event.isRelease { s with latest := some payload, log := .delivered frame true :: s.log } (s.ipcFrame frame) := by
  unfold ipcFrame
  split
  · exact .inl rfl
  next hid =>
  split
  · next payload hv =>
    refine .inr (.inr ⟨payload, Decidable.not_not.1 hid, hv, ?_⟩)
    unfold replaceLatest
    split
    · next k d _ _ =>
      have h := adds_releaseSlot { s with log := .delivered frame true :: s.log } k .replaced
      exact ⟨h.stream, rfl, h.log⟩
    · exact .of_log_eq rfl rfl rfl
  · exact .inr (.inl rfl)

end StreamData

end AtriumPortal.Cast
