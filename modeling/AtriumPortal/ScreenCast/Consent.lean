import AtriumPortal.ScreenCast.Select
import AtriumPortal.ScreenCast.Armed
/-!
# Screen-cast consent

A SelectSources call that replies 0 armed its session, as its last action, with
a source the user confirmed in the same call, or one stored for the same
application under the token the call presented. Every later cast of the session
streams that source.
-/
open AtriumPortal.Lib.Interact AtriumPortal.Lib.Runs AtriumPortal.Prompter

namespace AtriumPortal.ScreenCast

/-- What `validate` restores is in the store, for this application, and servable. -/
theorem RestoreStore.validate_eq_some {s : RestoreStore} {values : List (List StoredEntry)} (hv : s.Iterates values)
    {token appId : String} {servable : StoredSource → Bool} {mode : Nat} {stored : StoredSelection}
    (h : s.validate values token appId servable = some (mode, stored)) :
    (∃ owner, ⟨token, stored⟩ ∈ s.list owner) ∧ (mode = 1 ∨ mode = 2) ∧ stored.appId = appId ∧
      servable stored.source = true := by
  -- One entry of the store is granted, under its own shelf's mode.
  have hgrant : ∀ {entries : List StoredEntry} {entry : StoredEntry} {granted : Nat},
      entries.find? (·.token = token) = some entry → (entry ∈ entries → ∃ owner, entry ∈ s.list owner) →
      (granted = 1 ∨ granted = 2) →
      (if entry.selection.appId = appId ∧ servable entry.selection.source then some (granted, entry.selection) else none)
        = some (mode, stored) →
      (∃ owner, ⟨token, stored⟩ ∈ s.list owner) ∧ (mode = 1 ∨ mode = 2) ∧ stored.appId = appId ∧
        servable stored.source = true := by
    intro entries entry granted hf hmem hg hif
    have htoken : entry.token = token := by simpa using List.find?_some hf
    split at hif
    · next hcond =>
      cases hif
      obtain ⟨owner, hin⟩ := hmem (List.mem_of_find?_eq_some hf)
      exact ⟨⟨owner, htoken ▸ hin⟩, hg, hcond⟩
    · cases hif
  unfold RestoreStore.validate at h
  split at h
  · next entry hf =>
    refine hgrant hf (fun hin => ?_) (.inr rfl) h
    obtain ⟨owner, ho⟩ := (RestoreStore.mem_values hv).1 hin
    exact ⟨some owner, ho⟩
  · split at h
    · next entry hf => exact hgrant hf (fun hin => ⟨none, hin⟩) (.inl rfl) h
    · cases h

namespace SelectSources

/-! ## What a call must have seen -/

/-- The user answered Confirmed to a question that names the source. -/
def Confirmed (appId : String) (before : List (Sigma Action.Answer)) (source : CastSource) : Prop :=
  ⟨.pickConfirm "Share Your Screen" (confirmBody appId source) (some "Share"), .ok .confirmed⟩ ∈ before ∧
    ∀ id, source = .window id → ⟨.pick .window, .ok (.window id)⟩ ∈ before

/-- A validation of the token found the source. -/
def Validates (appId : String) (before : List (Sigma Action.Answer)) (source : CastSource) (token : String)
    (stored : StoredSelection) : Prop :=
  ∃ protocol outputs order mode, ⟨.validate token appId protocol outputs, ⟨order, some (mode, stored)⟩⟩ ∈ before ∧
    source = sourceOfStored stored.source

def Consented (appId : String) (options : SelectOptions) (before : List (Sigma Action.Answer)) (source : CastSource) :
    Prop :=
  Confirmed appId before source ∨
    ∃ token stored, options.restoreToken = some token ∧ Validates appId before source token stored

/-- The call armed the session with its last action, after it had consent. -/
def ArmsWithConsent (sessionPath appId : String) (options : SelectOptions) (t : List (Sigma Action.Answer)) : Prop :=
  ∃ before selection incarnation, t = before ++ [⟨.markSourcesSelected sessionPath appId selection, .ok incarnation⟩] ∧
    Consented appId options before selection.source

theorem Consented.mono {appId : String} {options : SelectOptions} {before before' : List (Sigma Action.Answer)}
    {source : CastSource} (h : Consented appId options before source) (hs : before ⊆ before') :
    Consented appId options before' source := by
  rcases h with ⟨hc, hp⟩ | ⟨token, stored, ht, protocol, outputs, order, mode, hin, hsource⟩
  · exact .inl ⟨hs hc, fun id hid => hs (hp id hid)⟩
  · exact .inr ⟨token, stored, ht, protocol, outputs, order, mode, hs hin, hsource⟩

theorem ArmsWithConsent.prepend {sessionPath appId : String} {options : SelectOptions} {t : List (Sigma Action.Answer)}
    (h : ArmsWithConsent sessionPath appId options t) (earlier : List (Sigma Action.Answer)) :
    ArmsWithConsent sessionPath appId options (earlier ++ t) := by
  obtain ⟨before, selection, incarnation, rfl, hc⟩ := h
  exact ⟨earlier ++ before, selection, incarnation, (List.append_assoc ..).symm, hc.mono (List.subset_append_right _ _)⟩

/-! ## One lemma for each part of the worker -/

/-- With consent before, `mark_selected` replies 0 only after it armed the session. -/
theorem markSelected_arms {sessionPath appId : String} {options : SelectOptions} {before : List (Sigma Action.Answer)}
    (selection : StartSelection) (hc : Consented appId options before selection.source) :
    (markSelected sessionPath appId selection).Ends fun t code =>
      code = 0 → ArmsWithConsent sessionPath appId options (before ++ t) := by
  intro closed
  cases closed with
  | true => exact fun h => absurd h (by decide)
  | false =>
    intro answer
    cases answer with
    | error error => exact fun h => absurd h (by decide)
    | ok incarnation =>
      intro _
      exact ⟨before ++ [⟨.wasClosed, false⟩], selection, incarnation, by simp, hc.mono (List.subset_append_left _ _)⟩

/-- A window comes from the pick, and an error is not a success. -/
def Picked (before : List (Sigma Action.Answer)) : Except Nat CastSource → Prop
  | .ok (.window id) => ⟨.pick .window, .ok (.window id)⟩ ∈ before
  | .ok (.monitor _) => True
  | .error code => code ≠ 0

theorem selectedSource_picked (options : SelectOptions) (protocol : Nat) (selected : String) :
    (selectedSource options protocol selected).Ends Picked := by
  unfold selectedSource
  split
  · trivial
  · split
    · refine Prog.Ends.bind fun answer => ?_
      rcases answer with _ | _ | _ | _ | _ | _
      all_goals simp [Prog.Ends, Picked]
    · split
      · trivial
      · exact fun h => absurd h (by decide)

/-- The chooser's error codes are failures. -/
theorem choose_refuses (appId : String) (options : SelectOptions) (protocol : Nat) :
    (choose appId options protocol).Ends fun _ chosen => ∀ code, chosen = .error code → code ≠ 0 := by
  refine Prog.Ends.bind_any fun _ outputs => ?_
  split
  · exact fun code h => nomatch h
  · unfold chooseSource
    split
    · rintro code ⟨⟩
      decide
    · intro answer
      rcases answer with (_ | message) | (_ | _ | _ | _ | response | _ | _)
      case ok.chooseSource =>
        intro closed
        cases closed with
        | true => rintro code ⟨⟩; decide
        | false =>
          simp only [Bool.false_eq_true, if_false]
          split
          · rintro code ⟨⟩; decide
          · split
            · intro code h; cases h
            · rintro code ⟨⟩; decide
      all_goals
        rintro code ⟨⟩
        decide

theorem confirm_arms {sessionPath appId : String} {options : SelectOptions} {sender : Option String} {remember : Bool}
    {source : CastSource} {before : List (Sigma Action.Answer)} (hp : Picked before (.ok source)) :
    (confirm sessionPath appId options sender remember source).Ends fun t code =>
      code = 0 → ArmsWithConsent sessionPath appId options (before ++ t) := by
  intro answer
  rcases answer with error | _ | _
  · exact fun h => absurd h (by decide)
  · -- Confirmed: what is armed is the source the question named.
    intro closed
    cases closed with
    | true => exact fun h => absurd h (by decide)
    | false =>
      refine Prog.Ends.bind_any fun granting grant => ?_
      let asked : Sigma Action.Answer :=
        ⟨.pickConfirm "Share Your Screen" (confirmBody appId source) (some "Share"), .ok .confirmed⟩
      have hc : Consented appId options (before ++ asked :: ⟨.wasClosed, false⟩ :: granting) source := by
        refine .inl ⟨by simp [asked], ?_⟩
        rintro id rfl
        exact List.mem_append_left _ hp
      have harms : (markSelected sessionPath appId ⟨source, options.cursorMode, options.persistMode, grant⟩).Ends
          fun t code => code = 0 → ArmsWithConsent sessionPath appId options
            ((before ++ asked :: ⟨.wasClosed, false⟩ :: granting) ++ t) :=
        markSelected_arms _ hc
      exact harms.mono fun t code h h0 => by simpa using h h0
  · exact fun h => absurd h (by decide)

theorem interactive_arms (sessionPath appId : String) (options : SelectOptions) (sender : Option String)
    (protocol : Nat) :
    (interactive sessionPath appId options sender protocol).Ends fun t code =>
      (code = 0 → ArmsWithConsent sessionPath appId options t) := by
  refine Prog.Ends.bind ?_
  refine (choose_refuses appId options protocol).mono fun choosing chosen hcode => ?_
  rcases chosen with code | ⟨selected, remember⟩
  · exact fun h => absurd h (hcode code rfl)
  · intro closed
    cases closed with
    | true => exact fun h => absurd h (by decide)
    | false =>
      refine Prog.Ends.bind ((selectedSource_picked options protocol selected).mono fun picking source hp => ?_)
      cases source with
      | error code => exact fun h => absurd h hp
      | ok source =>
        refine (confirm_arms hp).mono fun t code h h0 => ?_
        exact ((h h0).prepend [⟨.wasClosed, false⟩]).prepend choosing

/-- What is restored comes from a validation. -/
theorem restore_consented (appId : String) (options : SelectOptions) (protocol : Nat) :
    (restore appId options protocol).Ends fun t restored =>
      ∀ token mode stored, restored = some (token, mode, stored) →
        Consented appId options t (sourceOfStored stored.source) := by
  unfold restore
  split
  · intro token mode stored h
    cases h
  · next token htoken =>
    split
    · refine Prog.Ends.bind_any fun enumerating outputs validated written token' mode stored h => ?_
      obtain ⟨order, restored⟩ := validated
      obtain ⟨found, hfound, h⟩ := Option.map_eq_some_iff.1 h
      cases h
      obtain rfl : restored = some (mode, stored) := hfound
      exact .inr ⟨token, stored, htoken, protocol, outputs, order, mode, by simp, rfl⟩
    · intro token mode stored h
      cases h

theorem selectSources_arms (sessionPath appId : String) (options : SelectOptions) (sender : Option String) :
    (selectSources sessionPath appId options sender).Ends fun t code =>
      code = 0 → ArmsWithConsent sessionPath appId options t := by
  intro closed
  cases closed with
  | true => exact fun h => absurd h (by decide)
  | false =>
    intro version
    dsimp only
    split
    · exact fun h => absurd h (by decide)
    · refine Prog.Ends.bind ((restore_consented appId options _).mono fun restoring restored hv => ?_)
      rcases restored with _ | ⟨token, mode, stored⟩
      · refine (interactive_arms sessionPath appId options sender _).mono fun t code h h0 => ?_
        exact (h h0).prepend (⟨.wasClosed, false⟩ :: ⟨.protocolVersion, version⟩ :: restoring)
      · have hc := hv token mode stored rfl
        let selection : StartSelection := ⟨sourceOfStored stored.source, stored.cursorMode, mode, some (mode, token)⟩
        refine (markSelected_arms selection hc).mono fun t code h h0 => ?_
        exact (h h0).prepend [⟨.wasClosed, false⟩, ⟨.protocolVersion, version⟩]

/-- A call replies 0 only after it armed its session with consent. -/
theorem run_arms (sessionPath appId : String) (options : OptionsMap) (sender : Option String) :
    (run sessionPath appId options sender).Ends fun t reply =>
      reply = .response 0 → ArmsWithConsent sessionPath appId (parseSelectOptions options) t := by
  refine run_ends (fun t reply _ hreply h => absurd h hreply) fun start _ => ?_
  refine (selectSources_arms sessionPath appId _ sender).mono fun t code h h0 => ?_
  obtain rfl : code = 0 := by simpa using h0
  exact (h rfl).prepend start

/-! ## Runs -/

/-- Moves and answers take the sessions along a run of the cast system. -/
theorem desk_reach (json : Json) (path : String) {d : Desk} (hd : Reach (· = Casts.init) Casts.step d.casts)
    (env : Env Move Action Action.Answer) (i : Nat) {R : Type} (p : Work R) :
    Reach (· = Casts.init) Casts.step ((desk json path).exec env i d p).state.casts := by
  refine (desk json path).exec_keeps (I := fun d => Reach (· = Casts.init) Casts.step d.casts) ?_ ?_ env i hd p
  · intro d x hd
    cases x with
    | tracker x => exact hd
    | store op => exact hd
    | casts l =>
      show Reach _ _ ((d.casts.step l).getD d.casts)
      cases hl : d.casts.step l with
      | none => exact hd
      | some casts => exact hd.step hl
  · intro d a b hd
    cases a with
    | markSourcesSelected sessionPath appId selection =>
      dsimp only [desk]
      split
      · next casts hs => exact hd.step (l := .select sessionPath appId selection) (by simp [Casts.step, hs, Except.toOption])
      · exact hd
    | register => cases b <;> exact hd
    | _ => exact hd

theorem iterates_orderOf (s : RestoreStore) (proposed : List (List StoredEntry)) : s.Iterates (orderOf s proposed) := by
  unfold orderOf
  split
  · assumption
  · exact List.Perm.refl _

/-- The session a call armed, in the state it left. -/
structure Arms (d : Desk) (sessionPath appId : String) (selection : StartSelection) (incarnation : Nat) : Prop where
  session : ∃ session, d.casts.registry.sessions.lookup sessionPath = some session ∧ session.appId = appId ∧
    session.incarnation = incarnation ∧ session.sourcesSelected = true ∧ session.selection = selection
  logged : (incarnation, selection) ∈ d.casts.armed

theorem markSourcesSelected_arms {json : Json} {path sessionPath appId : String} {d : Desk} {selection : StartSelection}
    {incarnation : Nat} {b : Except String Nat}
    (h : .ok incarnation = ((desk json path).answer d (.markSourcesSelected sessionPath appId selection) b).1) :
    Arms ((desk json path).answer d (.markSourcesSelected sessionPath appId selection) b).2 sessionPath appId selection
      incarnation := by
  dsimp only [desk] at h ⊢
  split at h
  · next casts hs =>
    obtain ⟨session, hl, -, happ, hinc, rfl⟩ := Casts.select_eq_ok hs
    obtain rfl : incarnation = session.incarnation := by simpa [hinc] using h
    exact ⟨⟨_, AList.lookup_insert _, happ, rfl, rfl, rfl⟩, List.mem_append_right _ List.mem_cons_self⟩
  · cases h

/-- Consent, as a call that replied 0 left it behind. -/
structure ConsentGiven (ran : Ran Desk Move Action Action.Answer Reply) (passes : List Desk)
    (sessionPath appId : String) (options : SelectOptions) (selection : StartSelection) (incarnation : Nat) : Prop where
  armed : Arms ran.state sessionPath appId selection incarnation
  /-- The last action armed the session, and consent came before it. -/
  consent : ∃ before, acts ran.trace = before ++ [⟨.markSourcesSelected sessionPath appId selection, .ok incarnation⟩] ∧
    (Confirmed appId before selection.source ∨
      ∃ token stored, options.restoreToken = some token ∧ Validates appId before selection.source token stored ∧
        stored.appId = appId ∧ ∃ d ∈ passes, ∃ owner, ⟨token, stored⟩ ∈ d.store.list owner)
  later : ∀ steps casts, exec Casts.step ran.state.casts steps = some casts → casts.Streams incarnation selection

/-- SelectSources replies 0 only with consent, and what it armed is what every later Start streams. -/
theorem consent_given (json : Json) (path sessionPath appId : String) (options : OptionsMap) (sender : Option String)
    {d : Desk} (hd : Reach (· = Casts.init) Casts.step d.casts) (env : Env Move Action Action.Answer) (i : Nat)
    (h : ((desk json path).exec env i d (run sessionPath appId options sender)).result = .response 0) :
    ∃ selection incarnation, ConsentGiven ((desk json path).exec env i d (run sessionPath appId options sender))
      ((desk json path).passes env i d (run sessionPath appId options sender)) sessionPath appId
      (parseSelectOptions options) selection incarnation := by
  have hends := (desk json path).exec_ends (run_arms sessionPath appId options sender) env i d
  obtain ⟨before, selection, incarnation, ht, hc⟩ := hends h
  obtain ⟨last, -, b₀, hb, hstate⟩ := (desk json path).exec_last ht
  have harmed := markSourcesSelected_arms hb
  rw [← hstate] at harmed
  refine ⟨selection, incarnation, harmed, ⟨before, ht, ?_⟩, fun steps casts hsteps => ?_⟩
  · rcases hc with hc | ⟨token, stored, htoken, hv⟩
    · exact .inl hc
    · have hfound := hv
      obtain ⟨protocol, outputs, order, mode, hin, -⟩ := hfound
      -- The validation was answered by the store of a state the call passed.
      have hdid := mem_acts.1 (ht ▸ List.mem_append_left _ hin)
      obtain ⟨here, hpass, b₁, hb₁⟩ := (desk json path).exists_pass hdid
      obtain ⟨rfl, hrestored⟩ := Validated.mk.inj hb₁
      have hiter := iterates_orderOf here.store b₁.order
      obtain ⟨howner, -, happ, -⟩ := RestoreStore.validate_eq_some hiter hrestored.symm
      exact .inr ⟨token, stored, htoken, hv, happ, here, hpass, howner⟩
  · have hreach := desk_reach json path hd env i (run sessionPath appId options sender)
    exact Casts.streams_armed (Casts.traced_of_reach (hreach.exec hsteps)) (Casts.armed_exec hsteps harmed.logged)

/-! ## A window is picked and confirmed -/

def noJson : Json := ⟨fun _ => [], fun _ => none⟩

/-- A session of the application is open, and nothing else. -/
def opened (sessionPath appId : String) : Desk where
  tracker := ⟨∅, ∅⟩
  store := .empty none none
  casts := ((exec Casts.step .init [.create sessionPath appId, .export 0 false]).getD .init)

/-- The user chooses this option, picks window 7 if asked to, and confirms. -/
def userChooses (id : String) : Env Move Action Action.Answer where
  moves _ := []
  answer _
    | .contains _ => true
    | .register => .ok ()
    | .enqueue => .ok true
    | .countActive => 0
    | .spawnTask => .ok ()
    | .wasClosed => false
    | .protocolVersion => .ok 29
    | .enumerateOutputs => .ok []
    | .validate _ _ _ _ => ⟨[], none⟩
    | .prune _ _ => true
    | .invoke _ => .ok (.chooseSource (.selected id false))
    | .pick _ => .ok (.window 7)
    | .pickConfirm _ _ _ => .ok .confirmed
    | .issue _ _ _ => ⟨"", true, none⟩
    | .markSourcesSelected _ _ _ => .ok 0

/-- A client that accepts monitors and windows. -/
def bothTypes : OptionsMap := fun key => if key = "types" then some (.u32 3) else none

/-- The session of `opened`. -/
theorem exec_opened (sessionPath appId : String) :
    exec Casts.step .init [.create sessionPath appId, .export 0 false] = some { Casts.init with
      registry := ⟨(∅ : Lib.Table.Map String CastSession).insert sessionPath (.fresh appId 0), 1⟩
      exported := (∅ : Lib.Table.Map String Nat).insert sessionPath 0 } := by
  simp [exec, Casts.step, Casts.init, SessionRegistry.empty, SessionRegistry.insert, Casts.exportObject, maxSessions]

theorem opened_reach (sessionPath appId : String) :
    Reach (· = Casts.init) Casts.step (opened sessionPath appId).casts := by
  simp only [opened, exec_opened, Option.getD_some]
  exact Reach.exec (.init rfl) (exec_opened sessionPath appId)

/-- It waits for its sources. -/
theorem opened_select (sessionPath appId : String) (selection : StartSelection) :
    ∃ casts, (opened sessionPath appId).casts.select sessionPath appId selection = .ok casts := by
  simp only [opened, exec_opened, Option.getD_some, Casts.select, SessionRegistry.markSourcesSelected, AList.lookup_insert,
    CastSession.fresh, Bool.false_eq_true, if_false, ne_eq, not_true_eq_false]
  exact ⟨_, rfl⟩

theorem window_consent_given :
    ∃ selection incarnation, ConsentGiven
      ((desk noJson "/r").exec (userChooses "window") 0 (opened "/s" "app") (run "/s" "app" bothTypes none))
      ((desk noJson "/r").passes (userChooses "window") 0 (opened "/s" "app") (run "/s" "app" bothTypes none))
      "/s" "app" (parseSelectOptions bothTypes) selection incarnation :=
  consent_given noJson "/r" "/s" "app" bothTypes none (opened_reach "/s" "app") (userChooses "window") 0 (by decide +kernel)

end SelectSources

end AtriumPortal.ScreenCast
