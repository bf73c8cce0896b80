import AtriumPortal.Screenshot.Asks
/-!
# Consent to a screenshot

Whatever the picker, the confirmation and the captures answer, and whenever the
request is closed: pixels are asked for with consent only, and of the picked region.
What a refused request leaves in the cache directory is another matter:
`screenshot_clean_iff` says exactly when it leaves nothing.
-/
open AtriumPortal.Lib.Interact AtriumPortal.Lib.Path AtriumPortal.Portal

namespace AtriumPortal.Screenshot

/-- The actions of a run, with their answers. -/
abbrev Acts : Type := List (Sigma Action.Answer)

/-- The region picker answered with `rect`. -/
def Picked (t : Acts) (rect : Ipc.Rect) : Prop :=
  ∃ before n who after, t = before ++
    ⟨.ipc (.write (.pickTarget .region)), .ok n⟩ :: ⟨.ipc .read, .reply who (.picked (.region rect))⟩ :: after

def confirmRequest (appId : String) : Ipc.Request :=
  .pickConfirm "Take a Screenshot" s!"Allow {appId} to capture the current monitor?" (some "Capture")

/-- The user confirmed the capture. -/
def Confirmed (appId : String) (t : Acts) : Prop :=
  ∃ before n who after, t = before ++
    ⟨.ipc (.write (confirmRequest appId)), .ok n⟩ :: ⟨.ipc .read, .reply who (.confirmPicked .confirmed)⟩ :: after

/-- Every request for pixels has consent before it, and is for the region that was picked. -/
def Consented (checked : Bool) (appId : String) (t : Acts) : Prop :=
  ∀ before region answer after, t = before ++ ⟨.ipc (.write (.captureOutput region)), answer⟩ :: after →
    (checked = true ∨ Confirmed appId before ∨ ∃ rect, Picked before rect) ∧
      ∀ rect, Picked before rect → region = some rect

/-! ## What the parts of the task ask for -/

/-- Neither a region pick nor a request for pixels. -/
def Harmless (a : Action) : Prop :=
  a ≠ .ipc (.write (.pickTarget .region)) ∧ ∀ region, a ≠ .ipc (.write (.captureOutput region))

theorem harmless_ipc {a : Ipc.Capture.Action} (h : Ipc.Capture.Preparing a) : Harmless (.ipc a) := by
  constructor
  · rintro ⟨⟩
    exact nomatch h
  · rintro region ⟨⟩
    exact nomatch h

/-- What is known of the region and of the trace once the picker is through. -/
structure Chosen (region : Option Ipc.Rect) (t : Acts) : Prop where
  free : ∀ x ∈ t, ∀ region, x.1 ≠ .ipc (.write (.captureOutput region))
  unpicked : region = none → ∀ x ∈ t, x.1 ≠ .ipc (.write (.pickTarget .region))
  picked : ∀ rect, region = some rect → ∃ before n who after, t = before ++
    ⟨.ipc (.write (.pickTarget .region)), .ok n⟩ :: ⟨.ipc .read, .reply who (.picked (.region rect))⟩ :: after ∧
      ∀ x ∈ before ++ after, x.1 ≠ .ipc (.write (.pickTarget .region))

theorem Chosen.append {region : Option Ipc.Rect} {t t' : Acts} (h : Chosen region t) (ht' : ∀ x ∈ t', Harmless x.1) :
    Chosen region (t ++ t') where
  free := fun x hx => (List.mem_append.1 hx).elim (h.free x) fun hx => (ht' x hx).2
  unpicked := fun hr x hx => (List.mem_append.1 hx).elim (h.unpicked hr x) fun hx => (ht' x hx).1
  picked := fun rect hr => by
    obtain ⟨before, n, who, after, rfl, hfree⟩ := h.picked rect hr
    refine ⟨before, n, who, after ++ t', by simp, fun x hx => ?_⟩
    rw [← List.append_assoc] at hx
    exact (List.mem_append.1 hx).elim (hfree x) fun hx => (ht' x hx).1

theorem Chosen.prepend {region : Option Ipc.Rect} {t t' : Acts} (h : Chosen region t') (ht : ∀ x ∈ t, Harmless x.1) :
    Chosen region (t ++ t') where
  free := fun x hx => (List.mem_append.1 hx).elim (fun hx => (ht x hx).2) (h.free x)
  unpicked := fun hr x hx => (List.mem_append.1 hx).elim (fun hx => (ht x hx).1) (h.unpicked hr x)
  picked := fun rect hr => by
    obtain ⟨before, n, who, after, rfl, hfree⟩ := h.picked rect hr
    refine ⟨t ++ before, n, who, after, by simp, fun x hx => ?_⟩
    rw [List.append_assoc] at hx
    exact (List.mem_append.1 hx).elim (fun hx => (ht x hx).1) (hfree x)

/-- The only pick of a trace is the one that chose the region. -/
theorem Chosen.region_eq {region : Option Ipc.Rect} {t t' : Acts} (h : Chosen region t)
    (ht' : ∀ x ∈ t', x.1 ≠ .ipc (.write (.pickTarget .region))) {rect : Ipc.Rect} (hp : Picked (t ++ t') rect) :
    region = some rect := by
  obtain ⟨before, n, who, after, hp⟩ := hp
  cases hr : region with
  | none =>
    have hin : (⟨.ipc (.write (.pickTarget .region)), .ok n⟩ : Sigma Action.Answer) ∈ t ++ t' :=
      hp ▸ List.mem_append_right before List.mem_cons_self
    exact (List.mem_append.1 hin).elim (fun hin => absurd rfl (h.unpicked hr _ hin)) fun hin => absurd rfl (ht' _ hin)
  | some r =>
    obtain ⟨b, m, who', a, rfl, hfree⟩ := h.picked r hr
    have hfree : ∀ x ∈ b ++ (a ++ t'), x.1 ≠ .ipc (.write (.pickTarget .region)) := by
      intro x hx
      rw [← List.append_assoc] at hx
      exact (List.mem_append.1 hx).elim (hfree x) (ht' x)
    simp only [List.append_assoc, List.cons_append] at hp
    rcases append_eq_mid_iff.1 hp with ⟨mid, rfl, hmid⟩ | ⟨mid, rfl, hmid⟩
    · -- The other pick would come before the one that is known.
      exact absurd rfl (hfree _ (List.mem_append_left _ (List.mem_append_right before List.mem_cons_self)))
    · cases mid with
      | nil =>
        cases hmid
        rfl
      | cons x mid =>
        cases mid with
        | nil => cases (List.cons.inj (List.cons.inj hmid).2).1
        | cons y mid =>
          have hrest : a ++ t' = mid ++ _ := (List.cons.inj (List.cons.inj hmid).2).2
          exact absurd rfl (hfree ⟨.ipc (.write (.pickTarget .region)), .ok n⟩
            (List.mem_append_right b (hrest ▸ List.mem_append_right mid List.mem_cons_self)))

/-- Not a request for pixels. -/
def PixelFree (a : Action) : Prop := ∀ region, a ≠ .ipc (.write (.captureOutput region))

open Ipc.Capture (PortalCapture Asking Preparing)

theorem capture_asks {op : Ipc.Capture.Op} {c : PortalCapture} {request : Ipc.Request} {P : Action → Prop}
    (h : (op.run c).Uses (Asking request)) (hprepare : ∀ a, Preparing a → P (.ipc a))
    (hrequest : P (.ipc (.write request))) :
    (capture c op).Uses P :=
  Prog.Uses.lift <| h.mono fun a ha => ha.elim (hprepare a) fun ha => ha ▸ hrequest

/-- The actions of the capture client as actions of the task. -/
def ipcActs (t : Ipc.Capture.Trace) : Acts := t.map fun x => ⟨.ipc x.1, x.2⟩

theorem capture_ends {op : Ipc.Capture.Op} {c : PortalCapture}
    {Q : Ipc.Capture.Trace → Ipc.Capture.Outcome Ipc.Capture.Returned → Prop} (h : (op.run c).Ends Q) :
    (capture c op).Ends fun t r => ∃ t₀, t = ipcActs t₀ ∧ Q t₀ r :=
  Prog.Ends.lift (e := Action.ipc) h

theorem harmless_ipcActs {t : Ipc.Capture.Trace} (h : ∀ x ∈ t, Preparing x.1) : ∀ x ∈ ipcActs t, Harmless x.1 := by
  intro x hx
  obtain ⟨y, hy, rfl⟩ := List.mem_map.1 hx
  exact harmless_ipc (h y hy)

/-- The picker is all that is asked for a region. -/
theorem pickRegion_uses {P : Action → Prop} {options : ScreenshotOptions} {c : PortalCapture}
    (h : (capture c (.pick .region)).Uses P) : (pickRegion options c).Uses P := by
  unfold pickRegion
  split
  · refine h.bind fun r => ?_
    rcases r with ⟨error | returned, c⟩
    · trivial
    · dsimp only
      split <;> trivial
  · trivial

theorem confirmCapture_uses {P : Action → Prop} {appId : String} {options : ScreenshotOptions} {c : PortalCapture}
    (h : ∀ title body acceptLabel, (capture c (.pickConfirm title body acceptLabel)).Uses P) :
    (confirmCapture appId options c).Uses P := by
  unfold confirmCapture
  split
  · refine (h _ _ _).bind fun r => ?_
    rcases r with ⟨error | returned, c⟩
    · trivial
    · dsimp only
      split <;> trivial
  · trivial

theorem pickRegion_pixelFree (options : ScreenshotOptions) (c : PortalCapture) :
    (pickRegion options c).Uses PixelFree :=
  pickRegion_uses <|
    capture_asks (Ipc.Capture.pick_uses .region c) (fun a ha => (harmless_ipc ha).2) (by simp [PixelFree])

/-- The picker is through: with a region that it answered, or without having been asked. -/
theorem pickRegion_chosen (options : ScreenshotOptions) (c : PortalCapture) :
    (pickRegion options c).Ends fun t r => ∀ region, r.1 = .ok region →
      Chosen region t ∧ (region = none → options.interactive = false ∧ options.target = none) := by
  unfold pickRegion
  split
  · refine Prog.Ends.bind ((capture_ends (Ipc.Capture.pick_ends _ _)).mono fun t r ht => ?_)
    obtain ⟨t₀, rfl, h⟩ := ht
    rcases r with ⟨error | returned, c⟩
    · exact nofun
    · obtain ⟨before, v, n, who, rfl, hbefore, rfl⟩ := h _ rfl
      cases v with
      | region rect =>
        rintro region ⟨⟩
        have hbefore := harmless_ipcActs hbefore
        refine ⟨⟨fun x hx => ?_, nofun, fun _ h => ?_⟩, nofun⟩
        · simp only [ipcActs, List.map_append, List.append_nil] at hx
          rcases List.mem_append.1 hx with hx | hx
          · exact (hbefore x hx).2
          · simp only [List.map_cons, List.map_nil, List.mem_cons, List.not_mem_nil, or_false] at hx
            rcases hx with rfl | rfl <;> exact nofun
        · cases h
          exact ⟨ipcActs before, n, who, [], by simp [ipcActs], by simpa using fun x hx => (hbefore x hx).1⟩
      | _ => exact nofun
  · next hpick =>
    rintro region ⟨⟩
    have hpick : options.interactive = false ∧ options.target ≠ some .area := by simpa using hpick
    refine ⟨⟨fun x hx => (nomatch hx), fun _ x hx => (nomatch hx), nofun⟩, fun _ => ⟨hpick.1, ?_⟩⟩
    rcases ht : options.target with _ | ⟨⟩
    · rfl
    · exact absurd ht hpick.2

theorem confirmCapture_ends (appId : String) (options : ScreenshotOptions) (c : PortalCapture) :
    (confirmCapture appId options c).Ends fun t r => (∀ x ∈ t, Harmless x.1) ∧
      (r.1 = .ok () → options.interactive = false → options.target = none → options.permissionStoreChecked = true ∨
        Confirmed appId t) := by
  have hharmless : (confirmCapture appId options c).Uses Harmless := confirmCapture_uses fun title body acceptLabel =>
    capture_asks (Ipc.Capture.pickConfirm_uses title body acceptLabel c) (fun a ha => harmless_ipc ha) (by simp [Harmless])
  refine hharmless.ends.and ?_
  unfold confirmCapture
  split
  · refine Prog.Ends.bind ((capture_ends (Ipc.Capture.pickConfirm_ends _ _ _ _)).mono fun t r ht => ?_)
    obtain ⟨t₀, rfl, h⟩ := ht
    rcases r with ⟨error | returned, c⟩
    · exact nofun
    · obtain ⟨before, v, n, who, rfl, rfl⟩ := h _ rfl
      cases v with
      | confirmed => exact fun _ _ _ => .inr ⟨ipcActs before, n, who, [], by simp [ipcActs, confirmRequest]⟩
      | cancelled => exact nofun
  · next hneeds =>
    intro _ hinteractive htarget
    refine .inl ?_
    simpa [hinteractive, htarget] using hneeds

/-- The capture itself asks for the pixels of one region, and for no pick. -/
def Capturing (region : Option Ipc.Rect) (a : Action) : Prop :=
  a ≠ .ipc (.write (.pickTarget .region)) ∧ ∀ r, a = .ipc (.write (.captureOutput r)) → r = region

theorem Harmless.capturing {a : Action} (h : Harmless a) (region : Option Ipc.Rect) : Capturing region a :=
  ⟨h.1, fun r hr => absurd hr (h.2 r)⟩

theorem captureAndWrite_capturing (c : PortalCapture) (token : String) (region : Option Ipc.Rect) :
    (captureAndWrite c token region).Uses (Capturing region) := by
  have hfree : ∀ a, Harmless a → Capturing region a := fun a h => h.capturing region
  refine ⟨hfree _ ⟨nofun, nofun⟩, fun cache => ⟨hfree _ ⟨nofun, nofun⟩, fun runtime => ?_⟩⟩
  dsimp only
  cases cacheDirFrom cache runtime with
  | none => trivial
  | some dir =>
    refine (capture_asks (Ipc.Capture.capture_uses region c) (fun a ha => (harmless_ipc ha).capturing region) ?_).bind
      fun r => ?_
    · exact ⟨nofun, by rintro r ⟨⟩; rfl⟩
    · rcases r with ⟨error | returned, c⟩
      · trivial
      · simp only
        split
        · refine Prog.Uses.bind ⟨hfree _ ⟨nofun, nofun⟩, fun millis => ⟨hfree _ ⟨nofun, nofun⟩, fun nonce => ?_⟩⟩ fun r => ?_
          · exact Prog.Uses.lift (e := Action.file) <| (Prog.uses_any _).mono fun a _ => hfree _ ⟨nofun, nofun⟩
          · cases r <;> trivial
        · trivial

/-- The requests for pixels behind a consent. -/
theorem Chosen.consented {region : Option Ipc.Rect} {t t' : Acts} {checked : Bool} {appId : String}
    (h : Chosen region t)
    (hconsent : checked = true ∨ Confirmed appId t ∨ region ≠ none) (ht' : ∀ x ∈ t', Capturing region x.1) :
    Consented checked appId (t ++ t') := by
  intro before r answer after heq
  rcases append_eq_mid_iff.1 heq with ⟨mid, rfl, -⟩ | ⟨mid, rfl, rfl⟩
  · exact absurd rfl (h.free _ (List.mem_append_right before List.mem_cons_self) r)
  · obtain rfl : r = region := (ht' _ (List.mem_append_right mid List.mem_cons_self)).2 r rfl
    have hmid : ∀ x ∈ mid, x.1 ≠ .ipc (.write (.pickTarget .region)) :=
      fun x hx => (ht' x (List.mem_append_left _ hx)).1
    constructor
    · rcases hconsent with hchecked | ⟨before, n, who, after, rfl⟩ | hregion
      · exact .inl hchecked
      · exact .inr (.inl ⟨before, n, who, after ++ mid, by simp⟩)
      · obtain ⟨rect, rfl⟩ := Option.ne_none_iff_exists'.1 hregion
        obtain ⟨before, n, who, after, rfl, -⟩ := h.picked rect rfl
        exact .inr (.inr ⟨rect, before, n, who, after ++ mid, by simp⟩)
    · exact fun rect hp => h.region_eq hmid hp

/-! ## The whole task -/

theorem consented_of_pixelFree {checked : Bool} {appId : String} {t : Acts} (h : ∀ x ∈ t, PixelFree x.1) :
    Consented checked appId t := by
  rintro before region answer after rfl
  exact absurd rfl (h _ (List.mem_append_right before List.mem_cons_self) region)

theorem Picked.cons {t : Acts} {rect : Ipc.Rect} {x : Sigma Action.Answer} (hx : Harmless x.1)
    (h : Picked (x :: t) rect) : Picked t rect := by
  obtain ⟨before, n, who, after, heq⟩ := h
  cases before with
  | nil =>
    cases heq
    exact absurd rfl hx.1
  | cons y before => exact ⟨before, n, who, after, (List.cons.inj heq).2⟩

theorem Consented.cons {checked : Bool} {appId : String} {t : Acts} (h : Consented checked appId t)
    {x : Sigma Action.Answer} (hx : Harmless x.1) : Consented checked appId (x :: t) := by
  intro before region answer after heq
  cases before with
  | nil =>
    cases heq
    exact absurd rfl (hx.2 region)
  | cons y before =>
    obtain ⟨hx', heq⟩ := List.cons.inj heq
    obtain ⟨hconsent, hsame⟩ := h before region answer after heq
    subst hx'
    refine ⟨?_, fun rect hp => hsame rect (hp.cons hx)⟩
    rcases hconsent with hchecked | ⟨b, n, who, a, rfl⟩ | ⟨rect, b, n, who, a, rfl⟩
    · exact .inl hchecked
    · exact .inr (.inl ⟨x :: b, n, who, a, rfl⟩)
    · exact .inr (.inr ⟨rect, x :: b, n, who, a, rfl⟩)

theorem Confirmed.within {appId : String} {t : Acts} (h : Confirmed appId t) (pre post : Acts) :
    Confirmed appId (pre ++ (t ++ post)) := by
  obtain ⟨before, n, who, after, rfl⟩ := h
  exact ⟨pre ++ before, n, who, after ++ post, by simp⟩

theorem Chosen.refused {region : Option Ipc.Rect} {t : Acts} (h : Chosen region t) (checked : Bool) (appId : String) :
    Consented checked appId t :=
  consented_of_pixelFree h.free

/-- Whatever is answered, a task asks for pixels with consent, and of the picked region. -/
theorem runJob_consented (handle token appId : String) (options : ScreenshotOptions) :
    (runJob (.screenshot handle token appId options)).Ends fun t _ => Consented options.permissionStoreChecked appId t := by
  have hlook : ∀ closed, ∀ x ∈ ([⟨.wasClosed, closed⟩] : Acts), Harmless x.1 := by
    intro closed x hx
    cases List.mem_singleton.1 hx
    exact ⟨nofun, nofun⟩
  intro closed
  cases closed with
  | true => exact consented_of_pixelFree (by simp [PixelFree])
  | false =>
    refine Prog.Ends.bind (((pickRegion_pixelFree options .new).ends.and (pickRegion_chosen options .new)).mono ?_)
    rintro t₁ ⟨code | region, c⟩ ⟨hfree, hchosen⟩
    · exact consented_of_pixelFree (by simpa [PixelFree] using hfree)
    · obtain ⟨hchosen, hnone⟩ := hchosen region rfl
      intro closed
      have hchosen := (hchosen.prepend (hlook false)).append (hlook closed)
      cases closed with
      | true => simpa [Prog.ends_ret] using hchosen.refused _ _
      | false =>
        refine Prog.Ends.bind ((confirmCapture_ends appId options c).mono ?_)
        rintro t₂ ⟨code | ⟨⟩, c⟩ ⟨hharmless, hconfirmed⟩
        · simpa [Prog.ends_ret] using (hchosen.append hharmless).refused _ _
        · intro closed
          have hchosen := (hchosen.append hharmless).append (hlook closed)
          cases closed with
          | true => simpa [Prog.ends_ret] using hchosen.refused _ _
          | false =>
            have hconsent : options.permissionStoreChecked = true ∨
                Confirmed appId ([⟨.wasClosed, false⟩] ++ t₁ ++ [⟨.wasClosed, false⟩] ++ t₂ ++ [⟨.wasClosed, false⟩]) ∨
                  region ≠ none := by
              by_cases hr : region = none
              · refine (hconfirmed rfl (hnone hr).1 (hnone hr).2).imp_right fun h => .inl ?_
                rw [List.append_assoc _ t₂]
                exact h.within ([⟨.wasClosed, false⟩] ++ t₁ ++ [⟨.wasClosed, false⟩]) [⟨.wasClosed, false⟩]
              · exact .inr (.inr hr)
            refine Prog.Ends.bind ((captureAndWrite_capturing c _ region).ends.mono fun t₃ r hcapturing => ?_)
            have hall := fun (t : Acts) (ht : ∀ x ∈ t, Capturing region x.1) =>
              hchosen.consented hconsent (show ∀ x ∈ t₃ ++ t, Capturing region x.1 from fun x hx =>
                (List.mem_append.1 hx).elim (hcapturing x) (ht x))
            cases r with
            | error error => simpa [Prog.ends_ret] using hall [] (by simp)
            | ok uri =>
              intro closed
              have := hall [⟨.wasClosed, closed⟩] fun x hx => (hlook closed x hx).capturing region
              cases closed <;> simpa [Prog.ends_ret] using this

end AtriumPortal.Screenshot
