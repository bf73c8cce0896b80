import AtriumPortal.ScreenCast.Requested
/-!
# Calls that arm what was not requested

The other half of `Requested.lean`: where its condition fails, some run replies 0
and armed a source of another type, or with a cursor mode the protocol lacks.
-/
open AtriumPortal.Lib.Interact AtriumPortal.Lib.Runs AtriumPortal.Prompter

namespace AtriumPortal.ScreenCast.SelectSources

variable {g : Given} {appId : String} {options : SelectOptions}

/-! ## A call that is given the wrong things -/

section
variable {json : Json} {path sessionPath : String}

/-- The request is not closed, and its session waits for its sources. -/
structure Ready (path sessionPath appId : String) (d : Desk) : Prop where
  pending : d.tracker.wasClosed path = false
  session : ∀ selection, ∃ casts, d.casts.select sessionPath appId selection = .ok casts

/-- The call arms something that does not serve the request. -/
def Misarms (g : Given) (sessionPath appId : String) (options : SelectOptions) (t : List (Sigma Action.Answer)) : Prop :=
  g.Met appId options t ∧ ∃ selection incarnation,
    ⟨.markSourcesSelected sessionPath appId selection, .ok incarnation⟩ ∈ t ∧ ¬ Serves options g.protocol selection

theorem Misarms.after {t t' : List (Sigma Action.Answer)} (h : Misarms g sessionPath appId options t')
    (ht : g.Met appId options t) : Misarms g sessionPath appId options (t ++ t') := by
  obtain ⟨hmet, selection, incarnation, hin, hbad⟩ := h
  refine ⟨fun x hx => ?_, selection, incarnation, List.mem_append_right _ hin, hbad⟩
  exact (List.mem_append.1 hx).elim (ht x) (hmet x)

/-- An action that the environment answers. -/
theorem echo_may {R : Type} {d : Desk} {a : Action} {b : a.Answer} {k : a.Answer → Work R}
    {Q : List (Sigma Action.Answer) → Desk → R → Prop} (ha : (desk json path).answer d a b = (b, d))
    (h : (desk json path).May (k b) d fun t => Q (⟨a, b⟩ :: t)) : (desk json path).May (.ask a k) d Q :=
  Machine.May.ask ha h

theorem wasClosed_may {R : Type} {d : Desk} (hd : Ready path sessionPath appId d) {k : Bool → Work R}
    {Q : List (Sigma Action.Answer) → Desk → R → Prop}
    (h : (desk json path).May (k false) d fun t => Q (⟨.wasClosed, false⟩ :: t)) :
    (desk json path).May (.ask .wasClosed k) d Q :=
  Machine.May.ask (b := false) (by simp only [desk, hd.pending]) h

theorem markSelected_may {d : Desk} (hd : Ready path sessionPath appId d) {selection : StartSelection}
    (hbad : ¬ Serves options g.protocol selection) :
    (desk json path).May (markSelected sessionPath appId selection) d fun t _ code =>
      code = 0 ∧ Misarms g sessionPath appId options t := by
  obtain ⟨casts, hsel⟩ := hd.session selection
  have harmed : (desk json path).answer d (.markSourcesSelected sessionPath appId selection) (.ok 0) =
      (.ok (d.casts.registry.incarnationAt sessionPath), { d with casts := casts }) := by
    simp only [desk, hsel]
  refine wasClosed_may hd (Machine.May.ask harmed (Machine.May.ret ⟨rfl, ?_⟩))
  exact ⟨by simp [Given.Met, Given.fits], selection, _, List.mem_cons_of_mem _ List.mem_cons_self, hbad⟩

/-- The outputs answered, where the protocol knows the question. -/
def listed (protocol : Nat) (outputs : List Ipc.OutputInfo) : List Ipc.OutputInfo :=
  if protocol < perSourceProtocol then [] else outputs

theorem enumerateOutputs_may (g : Given) (appId : String) (options : SelectOptions) (d : Desk)
    (outputs : List Ipc.OutputInfo) (protocol : Nat) :
    (desk json path).May (enumerateOutputs protocol) d fun t d' result =>
      g.Met appId options t ∧ d' = d ∧ result = listed protocol outputs := by
  unfold enumerateOutputs listed
  split
  · exact Machine.May.ret ⟨fun x hx => (nomatch hx), rfl, rfl⟩
  · exact echo_may (a := .enumerateOutputs) (b := .ok outputs) rfl (Machine.May.ret ⟨by simp [Given.Met, Given.fits], rfl, rfl⟩)

/-- A store from which the token restores the entry. -/
theorem exists_restoring (token : String) {protocol mode : Nat} {stored : StoredSelection}
    (h : Restorable appId protocol (mode, stored)) : ∃ (store : RestoreStore) (outputs : List Ipc.OutputInfo),
      store.validate (orderOf store []) token appId (servableSource · protocol (listed protocol outputs))
        = some (mode, stored) := by
  obtain ⟨hmode, happ, hstream⟩ := h
  have hservable : ∃ outputs, servableSource stored.source protocol (listed protocol outputs) = true := by
    cases hs : stored.source with
    | desktop => exact ⟨[], rfl⟩
    | output connector =>
      have hp : perSourceProtocol ≤ protocol := by simpa [sourceOfStored, hs, CastSource.streamable] using hstream
      exact ⟨[⟨connector, false, ⟨⟨0, 0⟩, ⟨0, 0⟩⟩⟩], by simp [servableSource, listed, hp, Nat.not_lt.2 hp]⟩
  obtain ⟨outputs, hservable⟩ := hservable
  rcases hmode with hmode | hmode
  · obtain rfl : mode = 1 := hmode
    refine ⟨⟨none, [⟨token, stored⟩], ∅, none⟩, outputs, ?_⟩
    have horder : orderOf ⟨none, [⟨token, stored⟩], ∅, none⟩ [] = [] := by simp [orderOf]
    rw [horder]
    simp [RestoreStore.validate, show stored.appId = appId from happ, hservable]
  · obtain rfl : mode = 2 := hmode
    refine ⟨⟨none, [], (∅ : AList fun _ : String => List StoredEntry).insert "" [⟨token, stored⟩], none⟩, outputs, ?_⟩
    have horder : orderOf ⟨none, [], (∅ : AList fun _ : String => List StoredEntry).insert "" [⟨token, stored⟩], none⟩ []
        = [[⟨token, stored⟩]] := by
      simp [orderOf, RestoreStore.Iterates]
    rw [horder]
    simp [RestoreStore.validate, show stored.appId = appId from happ, hservable]

/-- An option that is offered and is not the window is a monitor. -/
theorem selectedSource_monitor {protocol : Nat} {outputs : List Ipc.OutputInfo} (hp : perSourceProtocol ≤ protocol)
    {option : SourceChoice} (ho : option ∈ choices options protocol outputs) (hw : option.id ≠ "window") :
    ∃ source, selectedSource options protocol option.id = .ret (.ok source) ∧ source.typeBit = sourceTypeMonitor := by
  unfold selectedSource
  by_cases hd : option.id = "desktop"
  · exact ⟨.monitor none, if_pos hd, rfl⟩
  · have hout : ∃ output : Ipc.OutputInfo, option = outputChoice output := by
      simp only [choices, List.mem_cons, List.mem_append] at ho
      rcases ho with rfl | ho | ho
      · exact absurd rfl hd
      · split at ho
        · obtain ⟨output, -, rfl⟩ := List.mem_map.1 ho
          exact ⟨output, rfl⟩
        · cases ho
      · split at ho
        · obtain rfl := List.mem_singleton.1 ho
          exact absurd rfl hw
        · cases ho
    obtain ⟨output, rfl⟩ := hout
    have hid : isOutputId (outputChoice output).id = true := by
      simp [isOutputId, outputChoice, String.toList_append]
    refine ⟨_, (if_neg hd).trans ((if_neg fun h => hw h.1).trans (if_pos ⟨hid, hp⟩)), rfl⟩

theorem grant_may (g : Given) {d : Desk} (hd : Ready path sessionPath appId d) (source : CastSource) (sender : Option String)
    (remember : Bool) :
    (desk json path).May (grant appId options sender remember source) d fun t d' _ =>
      g.Met appId options t ∧ Ready path sessionPath appId d' := by
  unfold grant
  split
  · split
    · refine Machine.May.ask (b := ⟨"", true, none⟩) rfl (Machine.May.ret ⟨?_, hd.pending, hd.session⟩)
      simp [Given.Met, Given.fits]
    · exact Machine.May.ret ⟨fun x hx => (nomatch hx), hd⟩
  · exact Machine.May.ret ⟨fun x hx => (nomatch hx), hd⟩

theorem confirm_may (g : Given) {d : Desk} (hd : Ready path sessionPath appId d) {source : CastSource}
    (hno : options.sourceTypes &&& source.typeBit = 0) (sender : Option String) (remember : Bool) :
    (desk json path).May (confirm sessionPath appId options sender remember source) d fun t _ code =>
      code = 0 ∧ Misarms g sessionPath appId options t := by
  refine echo_may (a := .pickConfirm _ _ _) (b := .ok .confirmed) rfl (wasClosed_may hd (Machine.May.bind ?_))
  refine (grant_may g hd source sender remember).mono fun t d' granted ⟨hmet, hd'⟩ => ?_
  have hbad : ¬ Serves options g.protocol ⟨source, options.cursorMode, options.persistMode, granted⟩ :=
    fun h => h.requested hno
  refine (markSelected_may hd' hbad).mono fun t' _ code ⟨hcode, hmis⟩ => ⟨hcode, ?_⟩
  exact Misarms.after (t := [_, _]) (Misarms.after hmis hmet) (by simp [Given.Met, Given.fits])

/-- The chooser may give its answer. -/
theorem choose_may {d : Desk} (hd : Ready path sessionPath appId d) (hw : windowOffered options g.protocol = true)
    {id : String} {remember : Bool} (hchooser : (g.chooser appId options).validate = .ok ())
    (hanswer : g.answer = .ok (.chooseSource (.selected id remember)))
    (haccepted : (ChooseSourceResponse.selected id remember).validateFor (g.chooser appId options) = .ok ()) :
    (desk json path).May (choose appId options g.protocol) d fun t d' chosen =>
      g.Met appId options t ∧ Ready path sessionPath appId d' ∧ chosen = .ok (id, remember) := by
  have hp : perSourceProtocol ≤ g.protocol := by simpa [windowOffered] using (Bool.and_eq_true_iff.1 hw).1
  refine Machine.May.bind ((enumerateOutputs_may g appId options d g.outputs g.protocol).mono ?_)
  rintro listing _ _ ⟨hmet, rfl, rfl⟩
  rw [listed, if_neg (Nat.not_lt.2 hp), if_neg (length_choices_of_window hw g.outputs)]
  change (desk json path).May (chooseSource (g.chooser appId options)) _ _
  unfold chooseSource
  rw [hchooser]
  refine echo_may (a := .invoke _) (b := .ok (.chooseSource (.selected id remember))) rfl (wasClosed_may hd ?_)
  simp only [Bool.false_eq_true, if_false, haccepted]
  refine Machine.May.ret ⟨?_, hd, rfl⟩
  intro x hx
  rcases List.mem_append.1 hx with hx | hx
  · exact hmet x hx
  · rcases List.mem_cons.1 hx with rfl | hx
    · exact ⟨rfl, hanswer.symm⟩
    · obtain rfl := List.mem_singleton.1 hx
      trivial

theorem interactive_may {d : Desk} (hd : Ready path sessionPath appId d)
    (hvalid : validateSelect options g.protocol = .ok ()) (hno : options.sourceTypes &&& sourceTypeMonitor = 0)
    (hm : g.ChoosesMonitor appId options) (sender : Option String) :
    (desk json path).May (interactive sessionPath appId options sender g.protocol) d fun t _ code =>
      code = 0 ∧ Misarms g sessionPath appId options t := by
  have hw := windowOffered_of_no_monitor hvalid hno
  have hp : perSourceProtocol ≤ g.protocol := by simpa [windowOffered] using (Bool.and_eq_true_iff.1 hw).1
  obtain ⟨hchooser, id, remember, hanswer, haccepted, hid⟩ := hm
  obtain ⟨⟨option, hoption, rfl⟩, -⟩ := ChooseSourceResponse.validateFor_selected.1 haccepted
  obtain ⟨source, hsource, hbit⟩ := selectedSource_monitor hp hoption hid
  refine Machine.May.bind ((choose_may hd hw hchooser hanswer haccepted).mono ?_)
  rintro choosing d' _ ⟨hmet, hd', rfl⟩
  refine wasClosed_may hd' ?_
  simp only [Bool.false_eq_true, if_false, hsource, Prog.bind_ret]
  refine (confirm_may g hd' (hbit ▸ hno) sender remember).mono ?_
  rintro t _ code ⟨hcode, hmis⟩
  refine ⟨hcode, ?_⟩
  exact (Misarms.after (t := [_]) hmis (by simp [Given.Met, Given.fits])).after hmet

/-- What `validate` finds in the store is given. -/
theorem restore_may {d : Desk} (hd : Ready path sessionPath appId d) {outputs : List Ipc.OutputInfo}
    (hstore : ∀ token, options.restoreToken = some token → 0 < options.persistMode →
      d.store.validate (orderOf d.store []) token appId (servableSource · g.protocol (listed g.protocol outputs))
        = g.restored) :
    (desk json path).May (restore appId options g.protocol) d fun t d' restored =>
      g.Met appId options t ∧ Ready path sessionPath appId d' ∧
        restored = (g.presented options).bind fun x => options.restoreToken.map fun token => (token, x) := by
  unfold restore Given.presented
  split
  · next hno => exact Machine.May.ret ⟨fun x hx => (nomatch hx), hd, by simp [hno]⟩
  · next token htoken =>
    split
    · next hpersist =>
      refine Machine.May.bind ((enumerateOutputs_may g appId options d outputs g.protocol).mono ?_)
      rintro listing _ _ ⟨hmet, rfl, rfl⟩
      refine Machine.May.ask (b := ⟨[], none⟩) rfl (Machine.May.ask (b := true) rfl (Machine.May.ret ⟨?_, ?_, ?_⟩))
      · intro x hx
        rcases List.mem_append.1 hx with hx | hx
        · exact hmet x hx
        · rcases List.mem_cons.1 hx with rfl | hx
          · exact hstore token htoken hpersist
          · obtain rfl := List.mem_singleton.1 hx
            trivial
      · exact ⟨hd.pending, hd.session⟩
      · simp only [hstore token htoken hpersist, htoken, hpersist, Option.isSome_some, and_self, if_true]
        cases g.restored <;> rfl
    · next hpersist => exact Machine.May.ret ⟨fun x hx => (nomatch hx), hd, by simp [hpersist]⟩

/-- A stored entry that does not fit is restored, or a monitor that was not asked for is chosen. -/
theorem selectSources_may (json : Json) (path sessionPath : String) (hk : ¬ g.Keeps appId options)
    (sender : Option String) :
    ∃ store, ∀ d : Desk, d.store = store → Ready path sessionPath appId d →
      (desk json path).May (selectSources sessionPath appId options sender) d fun t _ code =>
        code = 0 ∧ Misarms g sessionPath appId options t := by
  unfold Given.Keeps at hk
  push Not at hk
  obtain ⟨hvalid, hk⟩ := hk
  cases hpresented : g.presented options with
  | some x =>
    obtain ⟨mode, stored⟩ := x
    simp only [hpresented] at hk
    push Not at hk
    obtain ⟨hrestorable, hbad⟩ := hk
    obtain ⟨hasks, hrestored⟩ : (options.restoreToken.isSome ∧ 0 < options.persistMode) ∧ g.restored = some (mode, stored) := by
      simpa [Given.presented] using hpresented
    obtain ⟨token, htoken⟩ := Option.isSome_iff_exists.1 hasks.1
    obtain ⟨store, outputs, hstore⟩ := exists_restoring token hrestorable
    refine ⟨store, ?_⟩
    rintro d rfl hd
    refine wasClosed_may hd (echo_may (a := .protocolVersion) (b := g.version) rfl ?_)
    simp only [show validateSelect options (negotiated g.version) = .ok () from hvalid]
    have hfound : ∀ token, options.restoreToken = some token → 0 < options.persistMode →
        d.store.validate (orderOf d.store []) token appId (servableSource · g.protocol (listed g.protocol outputs))
          = g.restored := by
      intro token' htoken' _
      obtain rfl : token = token' := by simpa [htoken] using htoken'
      exact hstore.trans hrestored.symm
    refine Machine.May.bind ((restore_may hd hfound).mono ?_)
    rintro restoring d' _ ⟨hmet, hd', rfl⟩
    simp only [hpresented, htoken, Option.bind_some, Option.map_some]
    have hno : ¬ Serves options g.protocol ⟨sourceOfStored stored.source, stored.cursorMode, mode, some (mode, token)⟩ := by
      intro h
      have hbit : (sourceOfStored stored.source).typeBit = sourceTypeMonitor := by cases stored.source <;> rfl
      exact hbad (hbit ▸ h.requested) h.cursor
    refine (markSelected_may hd' hno).mono fun t _ code ⟨hcode, hmis⟩ => ⟨hcode, ?_⟩
    exact Misarms.after (t := [_, _]) (hmis.after hmet) (by simp [Given.Met, Given.fits])
  | none =>
    simp only [hpresented] at hk
    push Not at hk
    obtain ⟨hno, hchooses⟩ := hk
    refine ⟨.empty none none, fun d hempty hd => ?_⟩
    refine wasClosed_may hd (echo_may (a := .protocolVersion) (b := g.version) rfl ?_)
    simp only [show validateSelect options (negotiated g.version) = .ok () from hvalid]
    have hnothing : ∀ token, options.restoreToken = some token → 0 < options.persistMode →
        d.store.validate (orderOf d.store []) token appId (servableSource · g.protocol (listed g.protocol []))
          = g.restored := by
      intro token htoken hpersist
      have hnone : g.restored = none := by simpa [Given.presented, htoken, hpersist] using hpresented
      have horder : orderOf (RestoreStore.empty none none) [] = [] := by simp [orderOf, RestoreStore.empty]
      rw [hempty, horder, hnone]
      rfl
    refine Machine.May.bind ((restore_may hd hnothing).mono ?_)
    rintro restoring d' _ ⟨hmet, hd', rfl⟩
    simp only [hpresented, Option.bind_none]
    refine (interactive_may hd' hvalid hno hchooses sender).mono fun t _ code ⟨hcode, hmis⟩ => ⟨hcode, ?_⟩
    exact Misarms.after (t := [_, _]) (hmis.after hmet) (by simp [Given.Met, Given.fits])

/-- The bus method gets to the worker. -/
theorem run_may {map : OptionsMap} (hshape : validateSelectShape (parseSelectOptions map) = .ok ())
    {sender : Option String} {d : Desk} (hd : Ready path sessionPath appId d)
    (h : ∀ d', d'.store = d.store → Ready path sessionPath appId d' →
      (desk json path).May (selectSources sessionPath appId (parseSelectOptions map) sender) d' fun t _ code =>
        code = 0 ∧ Misarms g sessionPath appId (parseSelectOptions map) t) :
    (desk json path).May (run sessionPath appId map sender) d fun t _ reply =>
      reply = .response 0 ∧ Misarms g sessionPath appId (parseSelectOptions map) t := by
  have hcontains : d.casts.registry.contains sessionPath = true := by
    obtain ⟨casts, hsel⟩ := hd.session ⟨.monitor none, 1, 0, none⟩
    obtain ⟨session, hl, -⟩ := Casts.select_eq_ok hsel
    simp [SessionRegistry.contains, hl]
  have hknown : (desk json path).answer d (.contains sessionPath) true = (true, d) := by simp only [desk, hcontains]
  refine Machine.May.ask hknown ?_
  simp only [Bool.not_true, Bool.false_eq_true, if_false, hshape]
  have hregister : (desk json path).answer d .register (.ok ()) = (.ok (), { d with tracker := d.tracker.activate path }) :=
    rfl
  refine Machine.May.ask hregister 
    (echo_may (a := .enqueue) (b := .ok true) rfl (echo_may (a := .countActive) (b := 0) rfl ?_))
  rw [if_neg (by decide)]
  have hactive : Ready path sessionPath appId { d with tracker := d.tracker.activate path } :=
    ⟨by simpa using hd.pending, hd.session⟩
  have hworker := h { d with tracker := d.tracker.activate path } rfl hactive
  refine echo_may (a := .spawnTask) (b := .ok ()) rfl (Machine.May.bind (hworker.mono ?_))
  rintro t d' code ⟨rfl, hmis⟩
  refine Machine.May.ret ⟨rfl, ?_⟩
  have hmis : Misarms g sessionPath appId (parseSelectOptions map) (t ++ []) := by simpa using hmis
  exact Misarms.after (t := [_, _, _, _, _]) hmis (by simp [Given.Met, Given.fits])

end

/-! ## Every run -/

/-- In every run that is given these answers, a call that replies 0 armed only what serves its request. -/
def Honours (g : Given) (appId : String) (map : OptionsMap) : Prop :=
  ∀ (json : Json) (path sessionPath : String) (sender : Option String) (d : Desk),
    Reach (· = Casts.init) Casts.step d.casts → ∀ (env : Env Move Action Action.Answer) (i : Nat),
      let ran := (desk json path).exec env i d (run sessionPath appId map sender)
      g.Met appId (parseSelectOptions map) (acts ran.trace) → ran.result = .response 0 →
        ∀ selection incarnation,
          ⟨.markSourcesSelected sessionPath appId selection, .ok incarnation⟩ ∈ acts ran.trace →
            Serves (parseSelectOptions map) g.protocol selection

/-- The store answers a validation soundly. -/
theorem sound_of_mem {json : Json} {path : String} {R : Type} {p : Work R} {env : Env Move Action Action.Answer} {i : Nat}
    {d : Desk} {x : Sigma Action.Answer} (hx : x ∈ acts ((desk json path).exec env i d p).trace) : sound x.1 x.2 := by
  obtain ⟨a, b⟩ := x
  obtain ⟨here, -, b₀, rfl⟩ := (desk json path).exists_pass (mem_acts.1 hx)
  cases a with
  | validate token appId protocol outputs =>
    rintro ⟨mode, stored⟩ hrestored
    have hfound : here.store.validate (orderOf here.store (Validated.order b₀)) token appId
        (servableSource · protocol outputs) = some (mode, stored) := hrestored
    obtain ⟨-, hmode, happ, hservable⟩ := RestoreStore.validate_eq_some (iterates_orderOf _ _) hfound
    refine ⟨hmode, happ, ?_⟩
    cases hs : stored.source with
    | desktop => rfl
    | output connector =>
      simp only [hs, servableSource, Bool.and_eq_true] at hservable
      exact hservable.1
  | _ => trivial

/-- A call arms what was requested exactly under the condition. -/
theorem honours_iff (g : Given) (appId : String) (map : OptionsMap) :
    Honours g appId map ↔ g.Keeps appId (parseSelectOptions map) := by
  constructor
  · intro h
    by_contra hk
    obtain ⟨store, hmay⟩ := selectSources_may noJson "/r" "/s" hk none
    have hvalid : validateSelect (parseSelectOptions map) g.protocol = .ok () := by
      by_contra hno
      exact hk fun hvalid => absurd hvalid hno
    let d : Desk := { opened "/s" appId with store := store }
    have hready : Ready "/r" "/s" appId d := ⟨rfl, opened_select "/s" appId⟩
    have hrun := run_may (validateSelect_eq_ok hvalid).1 hready fun d' hstore hd' => hmay d' hstore hd'
    obtain ⟨env, hreply, hmet, selection, incarnation, hin, hbad⟩ := hrun.exists_run (userChooses "desktop") 0
    exact hbad (h noJson "/r" "/s" none d (opened_reach "/s" appId) env 0 hmet hreply selection incarnation hin)
  · intro hk json path sessionPath sender d _ env i ran hmet _ selection incarnation hin
    have hserve := (desk json path).exec_ends (run_serves hk sessionPath sender) env i d
    exact hserve (fun x hx => ⟨hmet x hx, sound_of_mem hx⟩) _ hin

/-! ## A client that takes windows only -/

def windowsOnly : OptionsMap := fun key => if key = "types" then some (.u32 2) else none

/-- The user chooses the desktop that is offered next to the window, and the session is armed with it. -/
theorem desktop_for_window_client :
    let ran := (desk noJson "/r").exec (userChooses "desktop") 0 (opened "/s" "app") (run "/s" "app" windowsOnly none)
    ran.result = .response 0 ∧ ran.state.casts.armed = [(0, ⟨.monitor none, 1, 0, none⟩)] ∧
      (parseSelectOptions windowsOnly).sourceTypes &&& (CastSource.monitor none).typeBit = 0 := by
  decide +kernel

end AtriumPortal.ScreenCast.SelectSources
