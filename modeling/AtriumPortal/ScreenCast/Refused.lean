import AtriumPortal.ScreenCast.Consent
import AtriumPortal.ScreenCast.Durable
/-!
# A refused call and the stored grants

A SelectSources call issues its restore token before it arms the session, and arming
may still be refused: the request was closed, or the session is gone, belongs to
another application or has its sources. `unharmed_iff` says which calls leave the
grants as they were when they do not reply 0.
-/
open AtriumPortal.Lib.Interact AtriumPortal.Lib.Runs AtriumPortal.Lib.Shelves AtriumPortal.Prompter

namespace AtriumPortal.ScreenCast.SelectSources

/-- The action adds no token and evicts none, in memory and on disk. A prune may take out what cannot be
served any more. -/
structure LeavesGrants (x : Step Desk Action Action.Answer) : Prop where
  adds : ∀ k, ∀ entry ∈ x.after.store.list k, entry ∈ x.before.store.list k
  evicts : ∀ k, ∀ entry ∈ x.before.store.list k, entry ∈ x.after.store.list k ∨
    ∃ protocol outputs, x.act = .prune protocol outputs ∧ servableSource entry.selection.source protocol outputs = false
  file : x.after.store.file = x.before.store.file ∨ ∃ protocol outputs, x.act = .prune protocol outputs

/-- The action is an issue that can be honoured. -/
def Grants (x : Step Desk Action Action.Answer) : Prop :=
  ∃ mode owner selection, x.act = .issue mode owner selection ∧
    (mode = 1 ∧ x.before.store.dataDir.isSome ∨ mode = 2 ∧ owner ≠ "")

/-- The token of an issue is one that the store does not hold. -/
def DrawsFresh (x : Step Desk Action Action.Answer) : Prop :=
  ∀ mode owner selection issued, x.done = ⟨.issue mode owner selection, issued⟩ →
    ∀ k, ∀ entry ∈ x.before.store.list k, entry.token ≠ issued.drawn

/-- The session can be armed for the application. -/
def Armable (d : Desk) (sessionPath appId : String) : Prop :=
  ∃ session, d.casts.registry.sessions.lookup sessionPath = some session ∧ session.sourcesSelected = false ∧
    session.appId = appId

/-- What `mark_selected` looks at is as it should be. -/
def Admits (path : String) (x : Step Desk Action Action.Answer) : Prop :=
  (x.act = .wasClosed → x.before.tracker.wasClosed path = false) ∧
    ∀ sessionPath appId selection, x.act = .markSourcesSelected sessionPath appId selection →
      Armable x.before sessionPath appId

/-- After an issue that can be honoured, the request is not closed and the session can be armed. -/
def ArmsAfterIssue (path : String) (steps : List (Step Desk Action Action.Answer)) : Prop :=
  ∀ pre x post, steps = pre ++ x :: post → Grants x → ∀ y ∈ post, Admits path y

/-! ## What follows an issue -/

/-- What `mark_selected` does, by the code it returns. -/
inductive Marks (sessionPath appId : String) : List (Sigma Action.Answer) → Nat → Prop
  | closed : Marks sessionPath appId [⟨.wasClosed, true⟩] 1
  | armed (selection : StartSelection) (incarnation : Nat) :
    Marks sessionPath appId
      [⟨.wasClosed, false⟩, ⟨.markSourcesSelected sessionPath appId selection, .ok incarnation⟩] 0
  | refused (selection : StartSelection) (error : String) :
    Marks sessionPath appId
      [⟨.wasClosed, false⟩, ⟨.markSourcesSelected sessionPath appId selection, .error error⟩] 2

theorem markSelected_marks (sessionPath appId : String) (selection : StartSelection) :
    (markSelected sessionPath appId selection).Ends (Marks sessionPath appId) := by
  intro closed
  cases closed with
  | true => exact .closed
  | false =>
    intro answer
    cases answer with
    | error error => exact .refused selection error
    | ok incarnation => exact .armed selection incarnation

/-- Only `mark_selected` comes after an issue. -/
def IssuesLast (sessionPath appId : String) (t : List (Sigma Action.Answer)) (code : Nat) : Prop :=
  ∀ pre mode owner selection issued post, t = pre ++ ⟨.issue mode owner selection, issued⟩ :: post →
    Marks sessionPath appId post code

def NoIssue : Action → Prop
  | .issue .. => False
  | _ => True

variable {sessionPath appId : String}

theorem issuesLast_of_noIssue {t : List (Sigma Action.Answer)} {code : Nat} (h : ∀ x ∈ t, NoIssue x.1) :
    IssuesLast sessionPath appId t code := by
  rintro pre mode owner selection issued post rfl
  exact (h _ (List.mem_append_right _ List.mem_cons_self)).elim

/-- Actions without an issue may come first. -/
theorem IssuesLast.after {t t' : List (Sigma Action.Answer)} {code : Nat} (h : ∀ x ∈ t, NoIssue x.1)
    (h' : IssuesLast sessionPath appId t' code) : IssuesLast sessionPath appId (t ++ t') code := by
  intro pre mode owner selection issued post hsplit
  rcases append_eq_mid_iff.1 hsplit with ⟨mid, rfl, -⟩ | ⟨mid, -, hmid⟩
  · exact (h ⟨.issue mode owner selection, issued⟩ (by simp)).elim
  · exact h' mid mode owner selection issued post hmid

theorem Passive.noIssue {a : Action} (h : Passive a) : NoIssue a := by
  cases a <;> trivial

theorem Restoring.noIssue {a : Action} (h : Restoring a) : NoIssue a := by
  cases a <;> trivial

theorem markSelected_noIssue (sessionPath appId : String) (selection : StartSelection) :
    (markSelected sessionPath appId selection).Uses NoIssue := by
  refine ⟨trivial, fun closed => ?_⟩
  cases closed with
  | true => trivial
  | false => exact ⟨trivial, fun answer => by cases answer <;> trivial⟩

theorem grant_issues (appId : String) (options : SelectOptions) (sender : Option String) (remember : Bool)
    (source : CastSource) :
    (grant appId options sender remember source).Ends fun t _ =>
      t = [] ∨ ∃ mode owner selection issued, t = [⟨.issue mode owner selection, issued⟩] := by
  unfold grant
  split
  · split
    · exact fun issued => .inr ⟨_, _, _, issued, rfl⟩
    · exact .inl rfl
  · exact .inl rfl

/-- An issue right before `mark_selected`. -/
theorem issuesLast_cons {mode : Nat} {owner : String} {selection : StoredSelection} {issued : Issued}
    {t : List (Sigma Action.Answer)} {code : Nat} (hno : ∀ x ∈ t, NoIssue x.1) (hmarks : Marks sessionPath appId t code) :
    IssuesLast sessionPath appId (⟨.issue mode owner selection, issued⟩ :: t) code := by
  intro pre mode' owner' selection' issued' post hsplit
  cases pre with
  | nil =>
    obtain ⟨-, rfl⟩ := List.cons.inj hsplit
    exact hmarks
  | cons y pre =>
    obtain ⟨-, rfl⟩ := List.cons.inj hsplit
    exact (hno ⟨.issue mode' owner' selection', issued'⟩ (by simp)).elim

theorem confirm_issuesLast (options : SelectOptions) (sender : Option String) (remember : Bool) (source : CastSource) :
    (confirm sessionPath appId options sender remember source).Ends (IssuesLast sessionPath appId) := by
  intro answer
  rcases answer with error | _ | _
  · exact issuesLast_of_noIssue (by simp [NoIssue])
  · intro closed
    cases closed with
    | true => exact issuesLast_of_noIssue (by simp [NoIssue])
    | false =>
      refine Prog.Ends.bind ((grant_issues appId options sender remember source).mono fun granting grant hgrant => ?_)
      let selection : StartSelection := ⟨source, options.cursorMode, options.persistMode, grant⟩
      have hmark :=
        (markSelected_noIssue sessionPath appId selection).ends.and (markSelected_marks sessionPath appId selection)
      refine hmark.mono fun t code ⟨hno, hmarks⟩ => ?_
      have hlast : IssuesLast sessionPath appId (granting ++ t) code := by
        rcases hgrant with rfl | ⟨mode, owner, stored, issued, rfl⟩
        · exact issuesLast_of_noIssue hno
        · exact issuesLast_cons hno hmarks
      exact IssuesLast.after (t := [_, _]) (by simp [NoIssue]) hlast
  · exact issuesLast_of_noIssue (by simp [NoIssue])

theorem interactive_issuesLast (options : SelectOptions) (sender : Option String) (protocol : Nat) :
    (interactive sessionPath appId options sender protocol).Ends (IssuesLast sessionPath appId) := by
  refine Prog.Ends.bind ((choose_passive appId options protocol).ends.mono fun choosing chosen hchoosing => ?_)
  have hchoosing : ∀ x ∈ choosing, NoIssue x.1 := fun x hx => (hchoosing x hx).noIssue
  rcases chosen with code | ⟨selected, remember⟩
  · exact issuesLast_of_noIssue (by simpa using hchoosing)
  · intro closed
    cases closed with
    | true => exact IssuesLast.after hchoosing (issuesLast_of_noIssue (by simp [NoIssue]))
    | false =>
      refine Prog.Ends.bind ((selectedSource_passive options protocol selected).ends.mono fun picking source hpicking => ?_)
      have hbefore : ∀ x ∈ choosing ++ ⟨.wasClosed, false⟩ :: picking, NoIssue x.1 := by
        intro x hx
        rcases List.mem_append.1 hx with hx | hx
        · exact hchoosing x hx
        · rcases List.mem_cons.1 hx with rfl | hx
          · trivial
          · exact (hpicking x hx).noIssue
      cases source with
      | error code => exact issuesLast_of_noIssue (by simpa using hbefore)
      | ok source =>
        refine (confirm_issuesLast options sender remember source).mono fun t code h => ?_
        simpa using IssuesLast.after hbefore h

theorem selectSources_issuesLast (options : SelectOptions) (sender : Option String) :
    (selectSources sessionPath appId options sender).Ends (IssuesLast sessionPath appId) := by
  intro closed
  cases closed with
  | true => exact issuesLast_of_noIssue (by simp [NoIssue])
  | false =>
    intro version
    dsimp only
    split
    · exact issuesLast_of_noIssue (by simp [NoIssue])
    · refine Prog.Ends.bind ((restore_uses appId options _).ends.mono fun restoring restored huses => ?_)
      have hbefore : ∀ x ∈ ⟨.wasClosed, false⟩ :: ⟨.protocolVersion, version⟩ :: restoring, NoIssue x.1 := by
        intro x hx
        rcases List.mem_cons.1 hx with rfl | hx
        · trivial
        · rcases List.mem_cons.1 hx with rfl | hx
          · trivial
          · exact (huses x hx).noIssue
      rcases restored with _ | ⟨token, mode, stored⟩
      · exact (interactive_issuesLast options sender _).mono fun t code h => IssuesLast.after hbefore h
      · exact (markSelected_noIssue sessionPath appId _).ends.mono fun t code h =>
          IssuesLast.after hbefore (issuesLast_of_noIssue h)

/-- The same for the call, by the response it sends. -/
theorem run_issuesLast (sessionPath appId : String) (options : OptionsMap) (sender : Option String) :
    (run sessionPath appId options sender).Ends fun t reply =>
      ∀ pre mode owner selection issued post, t = pre ++ ⟨.issue mode owner selection, issued⟩ :: post →
        ∃ code, reply = .response code ∧ Marks sessionPath appId post code := by
  refine run_ends (fun t reply hopening _ => ?_) fun start hopening => ?_
  · rintro pre mode owner selection issued post rfl
    exact (hopening ⟨.issue mode owner selection, issued⟩ (by simp)).elim
  · refine (selectSources_issuesLast _ sender).mono fun t code h => ?_
    intro pre mode owner selection issued post hsplit
    have hno : ∀ x ∈ start, NoIssue x.1 := fun x hx => (hopening x hx).passive.noIssue
    exact ⟨code, rfl, IssuesLast.after hno h pre mode owner selection issued post hsplit⟩

/-! ## What an action does to the grants -/

variable {json : Json} {path : String}

/-- An action other than an honoured issue leaves the grants. -/
theorem leavesGrants_of_not_grants {x : Step Desk Action Action.Answer} {b : x.act.Answer}
    (hx : (desk json path).answer x.before x.act b = (x.answer, x.after)) (hno : ¬ Grants x) : LeavesGrants x := by
  obtain ⟨before, act, answer, after⟩ := x
  dsimp only at b hx
  obtain rfl : ((desk json path).answer before act b).2 = after := by rw [hx]
  by_cases hprune : ∃ protocol outputs, act = .prune protocol outputs
  · obtain ⟨protocol, outputs, rfl⟩ := hprune
    have hlist := RestoreStore.prune_list json before.store (servableSource · protocol outputs) b
    refine ⟨fun k entry he => ?_, fun k entry he => ?_, .inr ⟨protocol, outputs, rfl⟩⟩
    · have he : entry ∈ (before.store.prune json (servableSource · protocol outputs) b).list k := he
      rw [hlist] at he
      exact (List.mem_filter.1 he).1
    · by_cases hs : servableSource entry.selection.source protocol outputs = true
      · left
        show entry ∈ (before.store.prune json (servableSource · protocol outputs) b).list k
        rw [hlist]
        exact List.mem_filter.2 ⟨he, by simp [hs]⟩
      · exact .inr ⟨protocol, outputs, rfl, by simpa using hs⟩
  · push Not at hprune
    have hsame : ((desk json path).answer before act b).2.store = before.store := by
      by_cases hissue : ∃ mode owner selection, act = .issue mode owner selection
      · obtain ⟨mode, owner, selection, rfl⟩ := hissue
        -- Nothing is issued without a data directory, without a sender, or in another mode.
        have hcannot : ¬ (mode = 1 ∧ before.store.dataDir.isSome ∨ mode = 2 ∧ owner ≠ "") := fun h =>
          hno ⟨mode, owner, selection, rfl, h⟩
        show ((before.store.issue json _ mode owner selection _).1) = before.store
        unfold RestoreStore.issue
        split
        · cases hdir : before.store.dataDir with
          | none => rfl
          | some dir => simp [hdir] at hcannot
        · simp only [not_or, not_and, true_implies] at hcannot
          simp only [not_not.1 (hcannot.2), if_true]
        · rfl
      · push Not at hissue
        exact desk_store json path before b hprune hissue
    exact ⟨fun k entry he => by rw [hsame] at he; exact he, fun k entry he => .inl (by rw [hsame]; exact he),
      .inl (by rw [hsame])⟩

/-- An honoured issue adds its token, which is new. -/
theorem not_leavesGrants_of_grants {x : Step Desk Action Action.Answer} {b : x.act.Answer}
    (hx : (desk json path).answer x.before x.act b = (x.answer, x.after)) (hg : Grants x) (hfresh : DrawsFresh x) :
    ¬ LeavesGrants x := by
  obtain ⟨before, act, answer, after⟩ := x
  obtain ⟨mode, owner, selection, hact, hcan⟩ := hg
  dsimp only at b hx hact hcan
  subst hact
  obtain rfl : ((desk json path).answer before (.issue mode owner selection) b).2 = after := by rw [hx]
  intro h
  have hgrant : ∃ g, RestoreStore.grantOf before.store.dataDir (Issued.drawn b) mode owner selection = some g := by
    rcases hcan with ⟨rfl, hdir⟩ | ⟨rfl, howner⟩
    · simp [RestoreStore.grantOf, hdir]
    · simp [RestoreStore.grantOf, howner]
  obtain ⟨g, hgrant⟩ := hgrant
  have hin :
      g.entry ∈ ((before.store.issue json (Issued.drawn b) mode owner selection (Issued.written b)).1).list g.shelf := by
    rw [RestoreStore.issue_list, hgrant]
    simp only [if_true]
    exact RestoreStore.mem_drainOldest_last (cap_pos _) _ _
  have hold := h.adds g.shelf g.entry hin
  have hdrawn : answer.drawn = Issued.drawn b := congrArg (fun p => Issued.drawn p.1) hx.symm
  refine hfresh mode owner selection answer rfl g.shelf g.entry hold ?_
  rw [hdrawn]
  exact RestoreStore.grantOf_token hgrant

/-- A look that finds the request open, and an armed session, are answers of a state that admits them. -/
theorem admits_of_done {y : Step Desk Action Action.Answer} {b : y.act.Answer}
    (hy : (desk json path).answer y.before y.act b = (y.answer, y.after))
    (h : y.done = ⟨.wasClosed, false⟩ ∨
      ∃ selection incarnation, y.done = ⟨.markSourcesSelected sessionPath appId selection, .ok incarnation⟩) :
    Admits path y := by
  obtain ⟨before, act, answer, after⟩ := y
  rcases h with h | ⟨selection, incarnation, h⟩
  · obtain ⟨rfl, h⟩ := Sigma.mk.inj h
    obtain rfl := eq_of_heq h
    exact ⟨fun _ => congrArg Prod.fst hy, fun _ _ _ h => nomatch h⟩
  · obtain ⟨rfl, h⟩ := Sigma.mk.inj h
    obtain rfl := eq_of_heq h
    refine ⟨(fun h => nomatch h), fun session app selection' h => ?_⟩
    cases h
    have harms := congrArg Prod.fst hy
    dsimp only [desk] at harms
    split at harms
    · next casts hs =>
      obtain ⟨session, hl, hsel, happ, -⟩ := Casts.select_eq_ok hs
      exact ⟨session, hl, hsel, happ⟩
    · cases harms

/-- Such a state answers nothing else. -/
theorem done_of_admits {y : Step Desk Action Action.Answer} {b : y.act.Answer}
    (hy : (desk json path).answer y.before y.act b = (y.answer, y.after)) (h : Admits path y) :
    y.done ≠ ⟨.wasClosed, true⟩ ∧
      ∀ selection error, y.done ≠ ⟨.markSourcesSelected sessionPath appId selection, .error error⟩ := by
  obtain ⟨before, act, answer, after⟩ := y
  constructor
  · intro hdone
    obtain ⟨rfl, hdone⟩ := Sigma.mk.inj hdone
    obtain rfl := eq_of_heq hdone
    have hclosed : before.tracker.wasClosed path = true := congrArg Prod.fst hy
    have hopen : before.tracker.wasClosed path = false := h.1 rfl
    rw [hclosed] at hopen
    cases hopen
  · intro selection error hdone
    obtain ⟨rfl, hdone⟩ := Sigma.mk.inj hdone
    obtain rfl := eq_of_heq hdone
    obtain ⟨session, hl, hsel, happ⟩ := h.2 sessionPath appId selection rfl
    have harms := congrArg Prod.fst hy
    simp [desk, Casts.select, SessionRegistry.markSourcesSelected, hl, hsel, happ] at harms

/-- A call that does not reply 0 leaves the grants as they were exactly when nothing stops it between its issue
and the armed session. -/
theorem unharmed_iff (json : Json) (path sessionPath appId : String) (options : OptionsMap) (sender : Option String)
    (d : Desk) (env : Env Move Action Action.Answer) (i : Nat)
    (hfresh : ∀ x ∈ (desk json path).steps env i d (run sessionPath appId options sender), DrawsFresh x) :
    let call := run sessionPath appId options sender
    let steps := (desk json path).steps env i d call
    (((desk json path).exec env i d call).result ≠ .response 0 → ∀ x ∈ steps, LeavesGrants x) ↔
      ArmsAfterIssue path steps := by
  intro call steps
  have hlast := (desk json path).steps_ends (run_issuesLast sessionPath appId options sender) env i d
  have hanswered : ∀ x ∈ steps, ∃ b, (desk json path).answer x.before x.act b = (x.answer, x.after) := fun x hx =>
    (desk json path).steps_answered hx
  -- What the call replies after an issue, and what came in between.
  have hmarks : ∀ pre x post, steps = pre ++ x :: post → Grants x →
      ∃ code, ((desk json path).exec env i d call).result = .response code ∧
        Marks sessionPath appId (post.map Step.done) code := by
    rintro pre ⟨before, act, answer, after⟩ post hsplit ⟨mode, owner, selection, hact, -⟩
    dsimp only at hact
    subst hact
    refine hlast (pre.map Step.done) mode owner selection answer (post.map Step.done) ?_
    show steps.map Step.done = _
    rw [hsplit]
    simp [Step.done]
  constructor
  · intro h pre x post hsplit hg y hy
    have hx : x ∈ steps := by simp [hsplit]
    obtain ⟨b, hxb⟩ := hanswered x hx
    obtain ⟨c, hyc⟩ := hanswered y (by simp [hsplit, hy])
    have hharmed := not_leavesGrants_of_grants hxb hg (hfresh x hx)
    have hdone : y.done ∈ post.map Step.done := List.mem_map_of_mem hy
    obtain ⟨code, hreply, hmarked⟩ := hmarks pre x post hsplit hg
    -- The call replied 0, so the request was open and the session was armed.
    have hzero : code = 0 := by
      by_contra hne
      refine hharmed (h ?_ x hx)
      rw [hreply]
      simpa using hne
    generalize post.map Step.done = done at hmarked hdone
    cases hmarked with
    | closed => cases hzero
    | refused selection error => cases hzero
    | armed selection incarnation =>
      apply admits_of_done hyc
      rcases List.mem_cons.1 hdone with hdone | hdone
      · exact .inl hdone
      · exact .inr ⟨selection, incarnation, List.mem_singleton.1 hdone⟩
  · intro h hreply x hx
    obtain ⟨b, hxb⟩ := hanswered x hx
    by_cases hg : Grants x
    · obtain ⟨pre, post, hsplit⟩ := List.append_of_mem hx
      obtain ⟨code, hcode, hmarked⟩ := hmarks pre x post hsplit hg
      have hadmits : ∀ done ∈ post.map Step.done, done ≠ ⟨.wasClosed, true⟩ ∧
          ∀ selection error, done ≠ ⟨.markSourcesSelected sessionPath appId selection, .error error⟩ := by
        intro done hdone
        obtain ⟨y, hy, rfl⟩ := List.mem_map.1 hdone
        obtain ⟨c, hyc⟩ := hanswered y (by simp [hsplit, hy])
        exact done_of_admits hyc (h pre x post hsplit hg y hy)
      generalize post.map Step.done = done at hmarked hadmits
      cases hmarked with
      | closed => exact absurd rfl (hadmits _ List.mem_cons_self).1
      | armed selection incarnation => exact absurd hcode hreply
      | refused selection error => exact absurd rfl ((hadmits _ (by simp)).2 selection error)
    · exact leavesGrants_of_not_grants hxb hg

/-! ## A request that is closed too late -/

/-- A client that takes monitors and windows and asks for a token on disk. -/
def persists : OptionsMap := fun key =>
  if key = "types" then some (.u32 3) else if key = "persist_mode" then some (.u32 1) else none

/-- A session of the application, and a store without tokens. -/
def unused : Desk := { opened "/s" "app" with store := .empty (some "/data") none }

/-- The user shares the desktop for good; the request is closed before the worker's action `closed`. -/
def closedBefore (closed : Option Nat) : Env Move Action Action.Answer where
  moves i := if some i = closed then [.tracker (.close "/r")] else []
  answer i
    | .invoke _ => .ok (.chooseSource (.selected "desktop" true))
    | .issue _ _ _ => ⟨"t", true, some "t"⟩
    | a => (userChooses "desktop").answer i a

/-- Closed right after the issue: the call replies 1, and the token is in the store. -/
theorem refused_keeps_token :
    let call := run "/s" "app" persists (some ":1.7")
    let steps := (desk StoreFile.serdeJson "/r").steps (closedBefore (some 14)) 0 unused call
    ((desk StoreFile.serdeJson "/r").exec (closedBefore (some 14)) 0 unused call).result = .response 1 ∧
      ¬ ∀ x ∈ steps, LeavesGrants x := by
  intro call steps
  refine ⟨by decide +kernel, fun h => ?_⟩
  have hissue : steps[13]?.map (fun x => (x.before.store.disk, x.after.store.disk)) =
      some ([], [⟨"t", ⟨"app", .desktop, 1⟩⟩]) := by decide +kernel
  obtain ⟨x, hx, hissue⟩ := Option.map_eq_some_iff.1 hissue
  obtain ⟨hbefore, hafter⟩ := Prod.mk.inj hissue
  have hadded := (h x (List.mem_of_getElem? hx)).adds none
  simp [RestoreStore.list, hbefore, hafter] at hadded

/-- An issue that meets a store without tokens. -/
def issuesFirst (x : Step Desk Action Action.Answer) : Bool :=
  match x.act with
  | .issue _ _ _ => x.before.store.disk.isEmpty && x.before.store.memory.entries.isEmpty
  | _ => true

theorem drawsFresh_of_issuesFirst {x : Step Desk Action Action.Answer} (h : issuesFirst x = true) : DrawsFresh x := by
  obtain ⟨before, act, answer, after⟩ := x
  intro mode owner selection issued hdone k entry he
  obtain ⟨rfl, -⟩ := Sigma.mk.inj hdone
  simp only [issuesFirst, Bool.and_eq_true, List.isEmpty_iff] at h
  cases k with
  | none => simp [RestoreStore.list, h.1] at he
  | some o =>
    have hnone : before.store.memory.lookup o = none :=
      AList.lookup_eq_none.2 fun hin => by simp [AList.mem_keys, AList.keys, List.keys, h.2] at hin
    simp [RestoreStore.list, hnone] at he

theorem shared_for_good_fresh :
    ((desk StoreFile.serdeJson "/r").steps (closedBefore none) 0 unused
      (run "/s" "app" persists (some ":1.7"))).all issuesFirst = true := by decide +kernel

/-- Without a close the session is armed after the issue. -/
theorem shared_for_good_arms :
    ArmsAfterIssue "/r" ((desk StoreFile.serdeJson "/r").steps (closedBefore none) 0 unused
      (run "/s" "app" persists (some ":1.7"))) :=
  (unharmed_iff StoreFile.serdeJson "/r" "/s" "app" persists (some ":1.7") unused (closedBefore none) 0
    (fun _ hx => drawsFresh_of_issuesFirst (List.all_eq_true.1 shared_for_good_fresh _ hx))).1
    fun hne => absurd (by decide +kernel) hne

end AtriumPortal.ScreenCast.SelectSources
