import AtriumPortal.Screenshot.Consent
/-!
# What a screenshot leaves behind

The task runs next to the request's tracker, its connection and the cache directory.
`screenshot_clean_iff`: exactly when a request that is refused leaves none of its
files in the directory. `screenshot_leaves_file`: a `Close` during the capture.
-/
open AtriumPortal.Lib.Interact AtriumPortal.Lib.Path AtriumPortal.Portal

namespace AtriumPortal.Screenshot

/-- What the task runs on. Nobody else knows the random names of its files. -/
structure Desk where
  tracker : RequestTracker
  link : Ipc.Capture.Link
  disk : Files.Disk

/-- The tracker answers the looks at the request of `handle`, the connection and the disk what is
theirs; the rest is the environment's. -/
def serving (handle : String) : Machine Desk TrackerMove Action Action.Answer where
  move d m := { d with tracker := m.apply handle d.tracker }
  answer d a b :=
    match a, b with
    | .wasClosed, _ => (d.tracker.wasClosed handle, d)
    | .ipc a, b => ((Ipc.Capture.wire.answer d.link a b).1, { d with link := (Ipc.Capture.wire.answer d.link a b).2 })
    | .file a, b => ((Files.disk.answer d.disk a b).1, { d with disk := (Files.disk.answer d.disk a b).2 })
    | _, b => (b, d)

/-- The operations on files in a run. -/
def fileActs : Acts → Files.Trace
  | [] => []
  | ⟨.file a, b⟩ :: t => ⟨a, b⟩ :: fileActs t
  | _ :: t => fileActs t

theorem fileActs_append (t t' : Acts) : fileActs (t ++ t') = fileActs t ++ fileActs t' := by
  induction t with
  | nil => rfl
  | cons x t ih =>
    obtain ⟨a, b⟩ := x
    cases a <;> simp [fileActs, ih]

theorem fileActs_inject (t : Files.Trace) : fileActs (Prog.inject Action.file t) = t := by
  induction t with
  | nil => rfl
  | cons x t ih => exact congrArg (x :: ·) ih

/-- Not an operation on files. -/
def FileFree (a : Action) : Prop := ∀ f, a ≠ .file f

theorem fileActs_of_free {t : Acts} (h : ∀ x ∈ t, FileFree x.1) : fileActs t = [] := by
  induction t with
  | nil => rfl
  | cons x t ih =>
    obtain ⟨a, b⟩ := x
    have ht := ih fun x hx => h x (List.mem_cons_of_mem _ hx)
    cases a with
    | file f => exact absurd rfl (h ⟨.file f, b⟩ List.mem_cons_self f)
    | _ => exact ht

/-- Some file of the request is in the directory. -/
def Leaves (t : Acts) (d : Desk) : Prop := Files.Left (fileActs t) d.disk

/-- What makes a refused request leave a file: its directory is not synced, its temporary file not
removed, or it is seen to be closed when its file is in place. -/
def Spoiled (t : Acts) : Prop :=
  Files.Failed (fileActs t) .syncDirectory ∨ Files.Littered (fileActs t) ∨
    ∃ pre post, t = pre ++ ⟨.wasClosed, true⟩ :: post ∧ Files.Did (fileActs pre) .syncDirectory

/-- A request that is refused leaves a file exactly where it is spoiled; one that is served is not. -/
structure Ending (t : Acts) (d : Desk) (r : CaptureResponse) : Prop where
  refused : r.code ≠ 0 → (Leaves t d ↔ Spoiled t)
  served : r.code = 0 → ¬ Spoiled t

theorem spoiled_append {t t' : Acts} (h : ∀ x ∈ t, FileFree x.1) : Spoiled (t ++ t') ↔ Spoiled t' := by
  have hacts : ∀ t', fileActs (t ++ t') = fileActs t' := fun t' => by simp [fileActs_append, fileActs_of_free h]
  unfold Spoiled
  rw [hacts]
  refine or_congr_right (or_congr_right ⟨?_, ?_⟩)
  · rintro ⟨pre, post, heq, hkept⟩
    rcases append_eq_mid_iff.1 heq with ⟨mid, rfl, -⟩ | ⟨mid, rfl, rfl⟩
    · rw [fileActs_of_free fun x hx => h x (List.mem_append_left _ hx)] at hkept
      cases hkept
    · exact ⟨mid, post, rfl, by rwa [hacts] at hkept⟩
  · rintro ⟨pre, post, rfl, hkept⟩
    exact ⟨t ++ pre, post, by simp, by rwa [hacts]⟩

theorem Ending.prepend {t t' : Acts} {d : Desk} {r : CaptureResponse} (h : Ending t' d r) (ht : ∀ x ∈ t, FileFree x.1) :
    Ending (t ++ t') d r := by
  have hleaves : Leaves (t ++ t') d ↔ Leaves t' d := by simp [Leaves, fileActs_append, fileActs_of_free ht]
  refine ⟨fun hr => ?_, fun hr => ?_⟩
  · rw [hleaves, spoiled_append ht, h.refused hr]
  · rw [spoiled_append ht]
    exact h.served hr

/-- A task that is refused before it gets to its files. -/
theorem ending_nil {d : Desk} {code : Nat} (h : code ≠ 0) : Ending [] d ⟨code, []⟩ where
  refused := fun _ => by
    simp [Leaves, Spoiled, fileActs, Files.Left, Files.Created, Files.Did, Files.Failed, Files.Littered]
  served := fun h0 => absurd h0 h

/-! ## The parts of the task -/

variable {handle : String} {R : Type}

theorem must_fileFree {p : Work R} (h : p.Uses FileFree) (d : Desk) :
    (serving handle).Must p d fun t _ _ => ∀ x ∈ t, FileFree x.1 := by
  have hmove : ∀ d m, Desk.disk ((serving handle).move d m) = Desk.disk d := fun _ _ => rfl
  refine (Machine.Must.apart hmove (fun d a b ha => ?_) h d).mono fun _ _ _ h => h.2
  cases a with
  | file f => exact absurd rfl (ha f)
  | _ => rfl

theorem must_bind_fileFree {p : Work R} (h : p.Uses FileFree) {P : R → Prop} (hp : p.Ends fun _ r => P r)
    {k : R → Work CaptureResponse} (hk : ∀ r, P r → ∀ d, (serving handle).Must (k r) d Ending) (d : Desk) :
    (serving handle).Must (p.bind k) d Ending :=
  Machine.Must.bind <| ((must_fileFree h d).and_ends hp).mono fun _ d r ⟨ht, hr⟩ =>
    (hk r hr d).mono fun _ _ _ h => h.prepend ht

theorem must_look {k : Bool → Work R} {Q : Acts → Desk → R → Prop} {d : Desk}
    (h : ∀ (d' : Desk) (closed : Bool), d'.disk = d.disk →
      (serving handle).Must (k closed) d' fun t => Q (⟨.wasClosed, closed⟩ :: t)) :
    (serving handle).Must (.ask .wasClosed k) d Q := by
  intro ms b
  have hmove : ∀ d m, Desk.disk ((serving handle).move d m) = Desk.disk d := fun _ _ => rfl
  exact h _ _ (Machine.get_moves hmove ms d)

theorem fileFree_look (closed : Bool) : ∀ x ∈ ([⟨.wasClosed, closed⟩] : Acts), FileFree x.1 := by
  intro x hx
  cases List.mem_singleton.1 hx
  exact nofun

theorem must_unlessClosed {next : Work CaptureResponse} (h : ∀ d, (serving handle).Must next d Ending) (d : Desk) :
    (serving handle).Must (unlessClosed next) d Ending := by
  refine must_look fun d closed _ => ?_
  cases closed with
  | true => exact (ending_nil (by decide)).prepend (fileFree_look true)
  | false => exact (h d).mono fun _ _ _ h => h.prepend (fileFree_look false)

/-- What a capture comes to, as the write of its file. -/
def Came (t : Acts) (d : Desk) (r : Except CaptureError String) : Prop :=
  (∀ x ∈ t, x.1 ≠ .wasClosed) ∧ ∃ r' : Except String Bytes, Files.Tidy (fileActs t) d.disk r' ∧
    ((∃ uri, r = .ok uri) ↔ ∃ path, r' = .ok path)

/-- The file system is a part of what the task runs on. -/
theorem disk_part (handle : String) : Machine.Part (e := Action.file) Files.disk (serving handle) Desk.disk where
  move := fun _ _ => rfl
  answer := fun _ _ _ => ⟨rfl, rfl⟩

theorem writeCapture_must (dir : Bytes) (token : String) (png : List UInt8) (d : Desk) :
    (serving handle).Must (writeCapture dir token png) d fun t d r =>
      (∀ x ∈ t, x.1 ≠ .wasClosed) ∧ Files.Tidy (fileActs t) d.disk r := by
  intro ms millis ms' nonce
  have htidy := Files.writeAtomic_tidy dir (captureName millis token nonce) png
  refine (Machine.Must.lift (disk_part handle) (htidy _)).mono ?_
  rintro _ d r ⟨t, rfl, ht⟩
  constructor
  · intro x hx
    simp only [List.mem_cons, Prog.inject, List.mem_map] at hx
    rcases hx with rfl | rfl | ⟨y, -, rfl⟩ <;> exact nofun
  · have hidle : ∀ suffix, Files.Idle [⟨.randomSuffix, suffix⟩] := fun suffix op _ b hin => by
      cases List.mem_singleton.1 hin
    have hacts := fileActs_inject t
    simp only [fileActs, hacts]
    exact Files.Tidy.insert_idle (u := []) ht (hidle _)

/-- Neither a look nor an operation on files. -/
def Aside (a : Action) : Prop := FileFree a ∧ a ≠ .wasClosed

theorem came_nil {d : Desk} (error : CaptureError) : Came [] d (.error error) :=
  ⟨fun _ hx => (nomatch hx), .error "", Files.tidy_idle fun _ _ _ => List.not_mem_nil, by simp⟩

theorem Came.prepend {t t' : Acts} {d : Desk} {r : Except CaptureError String} (h : Came t' d r)
    (ht : ∀ x ∈ t, Aside x.1) : Came (t ++ t') d r := by
  obtain ⟨hlook, r', htidy, hr⟩ := h
  refine ⟨fun x hx => (List.mem_append.1 hx).elim (fun hx => (ht x hx).2) (hlook x), r', ?_, hr⟩
  rwa [fileActs_append, fileActs_of_free fun x hx => (ht x hx).1]

theorem must_came_bind {p : Work R} (hp : p.Uses Aside) {k : R → Work (Except CaptureError String)}
    (hk : ∀ r d, (serving handle).Must (k r) d Came) (d : Desk) : (serving handle).Must (p.bind k) d Came := by
  have hmove : ∀ d m, Desk.disk ((serving handle).move d m) = Desk.disk d := fun _ _ => rfl
  refine Machine.Must.bind ((Machine.Must.apart hmove (fun d a b ha => ?_) hp d).mono fun t d r h => ?_)
  · cases a with
    | file f => exact absurd rfl (ha.1 f)
    | _ => rfl
  · exact (hk r d).mono fun _ _ _ hc => hc.prepend h.2

theorem must_came_ask {a : Action} (ha : Aside a) {next : a.Answer → Work (Except CaptureError String)}
    (h : ∀ b d, (serving handle).Must (next b) d Came) (d : Desk) : (serving handle).Must (.ask a next) d Came :=
  must_came_bind (p := .ask a .ret) ⟨ha, fun _ => trivial⟩ h d

theorem captureAndWrite_must (c : Ipc.Capture.PortalCapture) (token : String) (region : Option Ipc.Rect) (d : Desk) :
    (serving handle).Must (captureAndWrite c token region) d Came := by
  have henv : ∀ name, Aside (.envVar name) := fun _ => ⟨nofun, nofun⟩
  refine must_came_ask (henv _) (fun cache => must_came_ask (henv _) fun runtime d => ?_) d
  cases cacheDirFrom cache runtime with
  | none => exact came_nil _
  | some dir =>
    have hcapture : (capture c (region.elim .capturePng .captureRegionPng)).Uses Aside :=
      Prog.Uses.lift (e := Action.ipc) <| (Prog.uses_any _).mono fun a _ => ⟨nofun, nofun⟩
    refine must_came_bind hcapture (fun r d => ?_) d
    rcases r with ⟨error | returned, c⟩
    · exact came_nil _
    · dsimp only
      split
      · refine Machine.Must.bind ((writeCapture_must dir token _ d).mono fun t d r ⟨hlook, htidy⟩ => ?_)
        cases r with
        | error error => exact ⟨by simpa using hlook, _, by simpa using htidy, by simp⟩
        | ok path => exact ⟨by simpa using hlook, _, by simpa using htidy, by simp⟩
      · exact came_nil _

/-- Where the picker or the confirmation refuses, the code is not 0. -/
theorem pickRegion_code (options : ScreenshotOptions) (c : Ipc.Capture.PortalCapture) :
    (pickRegion options c).Ends fun _ r => ∀ code, r.1 = .error code → code ≠ 0 := by
  unfold pickRegion
  split
  · refine Prog.Ends.bind_any fun t r => ?_
    rcases r with ⟨error | returned, c⟩
    · rintro code ⟨⟩
      decide
    · dsimp only
      split <;> rintro code ⟨⟩ <;> decide
  · exact nofun

theorem confirmCapture_code (appId : String) (options : ScreenshotOptions) (c : Ipc.Capture.PortalCapture) :
    (confirmCapture appId options c).Ends fun _ r => ∀ code, r.1 = .error code → code ≠ 0 := by
  unfold confirmCapture
  split
  · refine Prog.Ends.bind_any fun t r => ?_
    rcases r with ⟨error | returned, c⟩
    · rintro code ⟨⟩
      decide
    · dsimp only
      split <;> rintro code ⟨⟩ <;> decide
  · exact nofun

/-- The last look, behind a capture whose file is in place. -/
theorem Came.ending {t : Acts} {d : Desk} {uri : String} (h : Came t d (.ok uri)) (d' : Desk) (hd : d'.disk = d.disk)
    (closed : Bool) (results : List (String × CaptureValue)) :
    Ending (t ++ [⟨.wasClosed, closed⟩]) d' (if closed then ⟨1, []⟩ else ⟨0, results⟩) := by
  obtain ⟨hlook, r', htidy, hr⟩ := h
  obtain ⟨path, rfl⟩ := hr.1 ⟨uri, rfl⟩
  obtain ⟨hsynced, hleft, hsync, hlittered⟩ := htidy.written path rfl
  have hacts : fileActs (t ++ [⟨.wasClosed, closed⟩]) = fileActs t := by simp [fileActs_append, fileActs]
  cases closed with
  | true =>
    refine ⟨fun _ => iff_of_true ?_ (.inr (.inr ⟨t, [], rfl, hsynced⟩)), nofun⟩
    rw [Leaves, hacts, hd]
    exact hleft
  | false =>
    refine ⟨fun h0 => absurd rfl h0, fun _ => ?_⟩
    rintro (hfailed | hlitter | ⟨pre, post, heq, -⟩)
    · rw [hacts] at hfailed
      exact hsync hfailed
    · rw [hacts] at hlitter
      exact hlittered hlitter
    · have hin : (⟨.wasClosed, true⟩ : Sigma Action.Answer) ∈ t ++ [⟨.wasClosed, false⟩] :=
        heq ▸ List.mem_append_right pre List.mem_cons_self
      rcases List.mem_append.1 hin with hin | hin
      · exact hlook _ hin rfl
      · cases List.mem_singleton.1 hin

theorem Came.ending_failed {t : Acts} {d : Desk} {error : CaptureError} (h : Came t d (.error error)) :
    Ending t d ⟨2, []⟩ := by
  obtain ⟨hlook, r', htidy, hr⟩ := h
  cases r' with
  | ok path =>
    obtain ⟨uri, ⟨⟩⟩ := hr.2 ⟨path, rfl⟩
  | error error' =>
    obtain ⟨-, hleft⟩ := htidy.failed error' rfl
    refine ⟨fun _ => hleft.trans (or_congr_right ⟨.inl, ?_⟩), nofun⟩
    rintro (hlitter | ⟨pre, post, rfl, -⟩)
    · exact hlitter
    · exact absurd rfl (hlook _ (List.mem_append_right pre List.mem_cons_self))

/-- Whatever is answered and whenever the request is closed. -/
theorem runJob_ending (token appId : String) (options : ScreenshotOptions) (d : Desk) :
    (serving handle).Must (runJob (.screenshot handle token appId options)) d Ending := by
  have hfree : ∀ c op, (capture c op).Uses FileFree := fun _ _ => Prog.Uses.lift ((Prog.uses_any _).mono fun _ _ => nofun)
  refine must_unlessClosed (must_bind_fileFree (pickRegion_uses (hfree _ _)) (pickRegion_code _ _) fun r hr => ?_) d
  rcases r with ⟨code | region, c⟩
  · exact fun d => ending_nil (hr code rfl)
  · refine must_unlessClosed ?_
    refine must_bind_fileFree (confirmCapture_uses fun _ _ _ => hfree _ _) (confirmCapture_code _ _ _) fun r hr => ?_
    rcases r with ⟨code | ⟨⟩, c⟩
    · exact fun d => ending_nil (hr code rfl)
    · refine must_unlessClosed fun d => ?_
      refine Machine.Must.bind ((captureAndWrite_must c token region d).mono fun t d r hcame => ?_)
      cases r with
      | error error => simpa [Machine.Must] using hcame.ending_failed
      | ok uri =>
        refine must_look fun d' closed hd => ?_
        have hending := hcame.ending d' hd closed [("uri", .uri uri)]
        cases closed <;> exact hending

/-! ## When the request is closed -/

theorem active_apply {t : RequestTracker} (h : handle ∈ t.active) (m : TrackerMove) :
    handle ∈ (m.apply handle t).active := by
  cases m with
  | register path => simp [TrackerMove.apply, RequestTracker.activate, h]
  | close path =>
    simp only [TrackerMove.apply, RequestTracker.markClosed]
    split <;> exact h
  | finish path =>
    simp only [TrackerMove.apply]
    split
    · exact h
    · next hne => simp [RequestTracker.forget, h, Ne.symm hne]

theorem wasClosed_apply {t : RequestTracker} (h : handle ∈ t.active) (m : TrackerMove) :
    (m.apply handle t).wasClosed handle = true ↔ t.wasClosed handle = true ∨ m = .close handle := by
  cases m with
  | register path => simp [TrackerMove.apply]
  | close path =>
    simp only [TrackerMove.apply, RequestTracker.wasClosed_markClosed, Bool.or_eq_true, decide_eq_true_eq,
      TrackerMove.close.injEq]
    exact or_congr_right ⟨fun h => h.2, fun hp => ⟨hp ▸ h, hp⟩⟩
  | finish path =>
    simp only [TrackerMove.apply]
    split
    · simp
    · next hne => simp [Ne.symm hne]

theorem closed_moves (ms : List TrackerMove) {d : Desk} (h : handle ∈ d.tracker.active) :
    handle ∈ (ms.foldl (serving handle).move d).tracker.active ∧
      ((ms.foldl (serving handle).move d).tracker.wasClosed handle = true ↔
        d.tracker.wasClosed handle = true ∨ .close handle ∈ ms) := by
  induction ms generalizing d with
  | nil => simpa using h
  | cons m ms ih =>
    obtain ⟨hactive, hclosed⟩ := ih (d := (serving handle).move d m) (active_apply h m)
    refine ⟨hactive, hclosed.trans ?_⟩
    rw [show ((serving handle).move d m).tracker = m.apply handle d.tracker from rfl, wasClosed_apply h, or_assoc,
      List.mem_cons, eq_comm (a := m)]

theorem tracker_answer (handle : String) (d : Desk) (a : Action) (b : a.Answer) :
    ((serving handle).answer d a b).2.tracker = d.tracker := by
  cases a <;> rfl

/-- A look sees whether the request was closed before it. -/
theorem look_sees {env : Env TrackerMove Action Action.Answer} {i : Nat} {d : Desk} {p : Work R}
    {pre post : List (Event TrackerMove Action Action.Answer)} {closed : Bool} (hactive : handle ∈ d.tracker.active)
    (h : ((serving handle).exec env i d p).trace = pre ++ .did .wasClosed closed :: post) :
    closed = true ↔ d.tracker.wasClosed handle = true ∨ .move (.close handle) ∈ pre := by
  induction p generalizing i d pre with
  | ret r => simp [Machine.exec] at h
  | ask a k ih =>
    obtain ⟨hactive', hclosed⟩ := closed_moves (env.moves i) hactive
    rcases append_eq_mid_iff.1 h with ⟨mid, hmoves, -⟩ | ⟨mid, rfl, hrest⟩
    · have hin : (.did .wasClosed closed : Event TrackerMove Action Action.Answer) ∈ (env.moves i).map .move :=
        hmoves ▸ List.mem_append_right pre List.mem_cons_self
      simp at hin
    · have hmem : ∀ mid : List (Event TrackerMove Action Action.Answer), .move (.close handle) ∈ (env.moves i).map .move ++ mid ↔
          .close handle ∈ env.moves i ∨ .move (.close handle) ∈ mid := by simp
      rw [hmem]
      cases mid with
      | nil =>
        cases hrest
        show (List.foldl _ d (env.moves i)).tracker.wasClosed handle = true ↔ _
        simpa using hclosed
      | cons e mid =>
        obtain ⟨he, hrest⟩ := List.cons.inj hrest
        have hstill := tracker_answer handle ((env.moves i).foldl (serving handle).move d) a (env.answer i a)
        have htail := ih _ (by rwa [hstill]) hrest
        rw [htail, hstill, hclosed, ← he]
        simp [or_assoc]

/-! ## Every run -/

/-- The file is in place, and the request was closed by the time it is looked at again. -/
def LateClose (handle : String) (d : Desk) (t : List (Event TrackerMove Action Action.Answer)) : Prop :=
  ∃ pre post closed, t = pre ++ .did .wasClosed closed :: post ∧
    (d.tracker.wasClosed handle = true ∨ .move (.close handle) ∈ pre) ∧ Files.Did (fileActs (acts pre)) .syncDirectory

/-- Nothing keeps a refused request from cleaning up: the directory is synced, the temporary file
removed, and the request not closed while its file is written. -/
structure Undisturbed (handle : String) (d : Desk) (t : List (Event TrackerMove Action Action.Answer)) : Prop where
  synced : ¬ Files.Failed (fileActs (acts t)) .syncDirectory
  removed : ¬ Files.Littered (fileActs (acts t))
  open_ : ¬ LateClose handle d t

/-- Pixels with consent only and of the picked region, and no file of a request that is refused. -/
def Respectful (options : OptionsMap) (appId : String)
    (ran : Ran Desk TrackerMove Action Action.Answer CaptureResponse) :
    Prop :=
  Consented (options "permission_store_checked" = some (.bool true)) appId (acts ran.trace) ∧
    (ran.result.code ≠ 0 → ¬ Leaves (acts ran.trace) ran.state)

theorem permissionStoreChecked_of_parse {options : OptionsMap} {parsed : ScreenshotOptions}
    (h : parseOptions options = .ok parsed) :
    parsed.permissionStoreChecked = decide (options "permission_store_checked" = some (.bool true)) := by
  unfold parseOptions at h
  cases ht : parseTarget (options "target") with
  | error error =>
    rw [ht] at h
    cases h
  | ok target =>
    rw [ht] at h
    cases h
    show ((options "permission_store_checked").bind bool?).getD false = _
    rcases options "permission_store_checked" with _ | ⟨_ | _⟩ | _ | _ <;> rfl

/-- Whatever is answered, from the options to the reply. -/
theorem screenshot_consented (handle appId : String) (options : OptionsMap) :
    (screenshot handle appId options).Ends fun t _ =>
      Consented (options "permission_store_checked" = some (.bool true)) appId t := by
  unfold screenshot
  split
  · exact consented_of_pixelFree (by simp)
  · next parsed hparse =>
    intro admitted
    cases admitted with
    | false => exact consented_of_pixelFree (by simp [PixelFree])
    | true =>
      refine (runJob_consented handle (captureToken handle) appId parsed).mono fun t r h => ?_
      rw [permissionStoreChecked_of_parse hparse] at h
      exact h.cons (by constructor <;> simp)

/-- Whatever is answered, and whenever the request is closed. -/
theorem screenshot_ending (handle appId : String) (options : OptionsMap) (d : Desk) :
    (serving handle).Must (screenshot handle appId options) d Ending := by
  unfold screenshot
  split
  · exact ending_nil (by decide)
  · intro ms admitted
    have hadmitted : ∀ x ∈ ([⟨.admitted, admitted⟩] : Acts), FileFree x.1 := by
      intro x hx
      cases List.mem_singleton.1 hx
      exact nofun
    cases admitted with
    | false => exact (ending_nil (by decide)).prepend hadmitted
    | true => exact (runJob_ending _ _ _ _).mono fun _ _ _ h => h.prepend hadmitted

theorem lateClose_iff (env : Env TrackerMove Action Action.Answer) (i : Nat) {d : Desk} (p : Work R)
    (hactive : handle ∈ d.tracker.active) :
    LateClose handle d ((serving handle).exec env i d p).trace ↔
      ∃ pre post, acts ((serving handle).exec env i d p).trace = pre ++ ⟨.wasClosed, true⟩ :: post ∧
        Files.Did (fileActs pre) .syncDirectory := by
  constructor
  · rintro ⟨pre, post, closed, heq, hclosed, hdid⟩
    obtain rfl := (look_sees hactive heq).2 hclosed
    exact ⟨acts pre, acts post, by rw [heq, acts_append]; rfl, hdid⟩
  · rintro ⟨before, after, heq, hdid⟩
    obtain ⟨pre, post, htrace, rfl⟩ := acts_eq_mid heq
    exact ⟨pre, post, true, htrace, (look_sees hactive htrace).1 rfl, hdid⟩

/-- In every run: pixels come with consent and a refused request leaves no file, exactly where the
request is undisturbed. -/
theorem screenshot_clean_iff (handle appId : String) (options : OptionsMap) (env : Env TrackerMove Action Action.Answer)
    (i : Nat) (d : Desk) (hactive : handle ∈ d.tracker.active) :
    Respectful options appId ((serving handle).exec env i d (screenshot handle appId options)) ↔
      Undisturbed handle d ((serving handle).exec env i d (screenshot handle appId options)).trace := by
  have hending := (screenshot_ending handle appId options d).run env i
  have hconsented := (serving handle).exec_ends (screenshot_consented handle appId options) env i d
  have hlate := lateClose_iff env i (screenshot handle appId options) hactive
  constructor
  · rintro ⟨-, hclean⟩
    have hspoiled : ¬ Spoiled (acts ((serving handle).exec env i d (screenshot handle appId options)).trace) := by
      by_cases hcode : ((serving handle).exec env i d (screenshot handle appId options)).result.code = 0
      · exact hending.served hcode
      · exact fun h => hclean hcode ((hending.refused hcode).2 h)
    exact ⟨fun h => hspoiled (.inl h), fun h => hspoiled (.inr (.inl h)), fun h => hspoiled (.inr (.inr (hlate.1 h)))⟩
  · rintro ⟨hsynced, hremoved, hopen⟩
    refine ⟨hconsented, fun hcode hleaves => ?_⟩
    rcases (hending.refused hcode).1 hleaves with h | h | h
    · exact hsynced h
    · exact hremoved h
    · exact hopen (hlate.2 h)

/-! ## A late Close -/

def requestHandle : String := "/org/freedesktop/portal/desktop/request/1_5/t"

/-- The frontend has verified the stored consent. -/
def checkedOptions : OptionsMap := fun key => if key = "permission_store_checked" then some (.bool true) else none

/-- Everything goes well. -/
def calmAnswer : (a : Action) → a.Answer
  | .admitted => true
  | .wasClosed => false
  | .ipc (.greet _) => .ok (.hello Ipc.protocolVersion Ipc.Capture.portalCapabilities (some ⟨1, Ipc.leaseTtlMs, true⟩))
  | .ipc .setIoTimeout => .ok ()
  | .ipc .leaseAged => false
  | .ipc (.write _) => .ok 0
  | .ipc .read => .reply none (.captureOutput 1 1 3)
  | .ipc (.receiveBlob _) => .ok [1, 2, 3]
  | .envVar _ => some (bytes "/home/user/.cache")
  | .millis => 1700000000000
  | .file (.op _) => .ok ()
  | .file .metadata => .ok ⟨true, 1000, 0o700⟩
  | .file .getuid => 1000
  | .file .randomSuffix => bytes "5eed"
  | .file (.writeAll _ content) => ⟨content.length, .ok ()⟩

/-- The request is closed before the `n`-th action. -/
def closing (n : Nat) : Env TrackerMove Action Action.Answer :=
  ⟨fun i => if i = n then [.close requestHandle] else [], fun _ => calmAnswer⟩

/-- The request is registered. -/
def registered : Desk := ⟨⟨{requestHandle}, ∅⟩, ⟨[], false, false, 0⟩, ∅⟩

def closedRun (n : Nat) : Ran Desk TrackerMove Action Action.Answer CaptureResponse :=
  (serving requestHandle).exec (closing n) 0 registered (screenshot requestHandle "org.example.App" checkedOptions)

theorem screenshot_clean_iff_closedRun :
    Respectful checkedOptions "org.example.App" (closedRun 1) ↔
      Undisturbed requestHandle registered (closedRun 1).trace :=
  screenshot_clean_iff requestHandle "org.example.App" checkedOptions (closing 1) 0 registered
    (Finset.mem_singleton_self requestHandle)

/-- The files moved into place. -/
def renames : Files.Trace → List (Bytes × Bytes)
  | [] => []
  | ⟨.op (.rename source target), .ok ()⟩ :: t => (source, target) :: renames t
  | _ :: t => renames t

theorem did_of_renames {t : Files.Trace} {source target : Bytes} (h : (source, target) ∈ renames t) :
    Files.Did t (.rename source target) := by
  fun_induction renames t with
  | case1 => cases h
  | case2 s t rest ih =>
    rcases List.mem_cons.1 h with h | h
    · cases h
      exact List.mem_cons_self
    · exact List.mem_cons_of_mem _ (ih h)
  | case3 x rest _ ih => exact List.mem_cons_of_mem _ (ih h)

/-- A `Close` while the compositor captures: the reply is 1, and the pixels stay on the disk. -/
theorem screenshot_leaves_file : ¬ Respectful checkedOptions "org.example.App" (closedRun 10) := by
  have hcode : (closedRun 10).result.code = 1 := by decide +kernel
  have hplaced : ((renames (fileActs (acts (closedRun 10).trace))).any
      fun x => ((closedRun 10).state.disk.lookup x.2).isSome) = true := by decide +kernel
  rintro ⟨-, hclean⟩
  generalize closedRun 10 = ran at *
  obtain ⟨⟨source, target⟩, hin, htarget⟩ := List.any_eq_true.1 hplaced
  exact hclean (by simp [hcode]) ⟨target, .inr ⟨source, did_of_renames hin⟩, htarget⟩

end AtriumPortal.Screenshot
