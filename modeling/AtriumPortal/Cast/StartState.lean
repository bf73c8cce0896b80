import AtriumPortal.Cast.Loop
import AtriumPortal.Lib.Runs
import Mathlib.Logic.Function.Basic
/-!
# The outcome of Start

PipeWire tells a cast its node id through the stream's state and object serials
through the registry, and `StartState` joins the two by id. Ids are reused and the
map of serials only grows, so the join finds the serial of an earlier object when the
stream reaches `Paused` before the node is announced. `Start.Sure` is the condition on
one event under which it does not; the events that meet it are exactly those after which
the outcome is right.
-/
open AtriumPortal.Lib.Runs

namespace AtriumPortal.Cast

/-! ## `cast/mod.rs` -/

structure CastStarted where
  nodeId : Nat
  serial : Nat
  width : Nat
  height : Nat
  position : Int × Int
  deriving DecidableEq, Repr

/-- `started` says whether the sender is still there, `sent` is what went through it and
`quit` whether the main loop was told to end. -/
structure StartState where
  started : Bool
  paused : Option (Nat × Nat × Nat)
  serials : Nat → Option Nat
  position : Int × Int
  completed : Bool
  sent : List (Except String CastStarted)
  quit : Bool

namespace StartState

def new (position : Int × Int) : StartState where
  started := true
  paused := none
  serials := fun _ => none
  position := position
  completed := false
  sent := []
  quit := false

/-- `started.take()`, and what is sent through it. -/
def send (s : StartState) (outcome : Except String CastStarted) : StartState :=
  if s.started then { s with started := false, sent := s.sent ++ [outcome] } else s

def tryComplete (s : StartState) : StartState :=
  match s.paused with
  | none => s
  | some (nodeId, width, height) =>
    match s.serials nodeId with
    | none => s
    | some serial =>
      if s.started then
        { s with completed := true }.send (.ok ⟨nodeId, serial, width, height, s.position⟩)
      else s

def insert (s : StartState) (id serial : Nat) : StartState :=
  { s with serials := Function.update s.serials id (some serial) }

end StartState

/-- `str::parse::<u64>`. -/
def parseU64 (text : String) : Option Nat :=
  let digits := match text.toList with
    | '+' :: digits => digits
    | digits => digits
  if digits = [] ∨ digits.any (fun c => !c.isDigit) then none
  else
    let n := Nat.ofDigitChars 10 digits 0
    if n < 2 ^ 64 then some n else none

/-- What a listener reads of an `object.serial` property that may be absent. -/
def objectSerial (property : Option String) : Option Nat := property.bind parseU64

namespace StartState

/-- The registry listener. It listens to announcements only. -/
def global (s : StartState) (id : Nat) (property : Option String) : StartState :=
  match objectSerial property with
  | none => s
  | some serial => (s.insert id serial).tryComplete

/-- The part of the `state_changed` listener that is about Start. -/
def stateChanged (s : StartState) (new : StreamState) (nodeId : Nat) (property : Option String)
    (width height : Nat) : StartState :=
  match new with
  | .error message => { s.send (.error s!"PipeWire stream error: {message}") with quit := true }
  | .paused =>
    let s := match objectSerial property with
      | some serial => s.insert nodeId serial
      | none => s
    { s with paused := some (nodeId, width, height) }.tryComplete
  | _ => s

end StartState

/-! ## PipeWire around it -/

/-- PipeWire's globals as the cast's connection sees them, by id and serial. Serials
are counted up; an id is free again when its object is gone. -/
structure Start where
  objects : Nat → Option Nat
  nextSerial : Nat
  /-- The cast's node: its id and its serial. -/
  node : Option (Nat × Nat)
  state : StartState

inductive StartEvent where
  | created (id : Nat)
  | nodeCreated (id : Nat)
  | announced (id : Nat) (property : Option String)
  | removed (id : Nat)
  | changed (new : StreamState) (property : Option String) (width height : Nat)
  deriving DecidableEq, Repr

namespace Start

/-- A property that is the object's serial, or that tells none. -/
def Tells (property : Option String) (serial : Nat) : Prop :=
  objectSerial property = none ∨ objectSerial property = some serial

instance (property : Option String) (serial : Nat) : Decidable (Tells property serial) :=
  inferInstanceAs (Decidable (_ ∨ _))

def create (s : Start) (id : Nat) : Start :=
  { s with objects := Function.update s.objects id (some s.nextSerial), nextSerial := s.nextSerial + 1 }

/-- The registry announces what is there, at any time and any number of times; the
stream is paused at any time once it has a node. -/
def step (s : Start) : StartEvent → Option Start
  | .created id => if s.objects id = none then some (s.create id) else none
  | .nodeCreated id =>
    if s.objects id = none ∧ s.node = none then some { s.create id with node := some (id, s.nextSerial) } else none
  | .announced id property =>
    match s.objects id with
    | none => none
    | some serial => if Tells property serial then some { s with state := s.state.global id property } else none
  | .removed id =>
    if s.objects id = none then none else some { s with objects := Function.update s.objects id none }
  | .changed new property width height =>
    match s.node with
    | none =>
      if new = .paused then none
      else some { s with state := s.state.stateChanged new (2 ^ 32 - 1) property width height }
    | some (id, serial) =>
      if Tells property serial then some { s with state := s.state.stateChanged new id property width height }
      else none

/-- A cast before its stream is connected, among whatever objects there are. -/
def Init (s : Start) : Prop :=
  (∀ id serial, s.objects id = some serial → serial < s.nextSerial) ∧ s.node = none ∧
    ∃ position, s.state = .new position

/-- The outcome is sent at most once, and a success names the node with its own serial. -/
structure Right (s : Start) : Prop where
  once : s.state.sent.length ≤ 1
  node : ∀ c, .ok c ∈ s.state.sent → s.node = some (c.nodeId, c.serial)

/-- While Start waits, a serial that is joined with the node's id is the node's: where
the stream tells none, the last one announced under that id, and after `Paused` each
one announced under it. -/
def Sure (s : Start) : StartEvent → Prop
  | .changed .paused property _ _ =>
    s.state.started = true → objectSerial property = none →
      ∀ n ∈ s.node, s.state.serials n.1 = none ∨ s.state.serials n.1 = some n.2
  | .announced id property =>
    s.state.started = true → s.state.paused.map Prod.fst = some id →
      ∀ serial ∈ objectSerial property, s.node = some (id, serial)
  | _ => True

instance (s : Start) (e : StartEvent) : Decidable (s.Sure e) := by
  cases e with
  | changed new property width height =>
    cases new
    case paused => exact inferInstanceAs (Decidable (_ → _ → _))
    all_goals exact inferInstanceAs (Decidable True)
  | announced id property => exact inferInstanceAs (Decidable (_ → _ → _))
  | _ => exact inferInstanceAs (Decidable True)

end Start

namespace StartState

/-- Start completes exactly where the sender is there and the id of `Paused` has a serial. -/
theorem tryComplete_cases (s : StartState) :
    (s.tryComplete = s ∧ (s.started = true → ∀ n ∈ s.paused, s.serials n.1 = none)) ∨
    ∃ nodeId width height serial, s.started = true ∧ s.paused = some (nodeId, width, height) ∧
      s.serials nodeId = some serial ∧
      s.tryComplete = { s with
        started := false, completed := true, sent := s.sent ++ [.ok ⟨nodeId, serial, width, height, s.position⟩] } := by
  unfold tryComplete
  cases hp : s.paused with
  | none => exact .inl ⟨rfl, fun _ => nofun⟩
  | some n =>
    obtain ⟨nodeId, width, height⟩ := n
    dsimp only
    cases hs : s.serials nodeId with
    | none => exact .inl ⟨rfl, fun _ n hn => by cases hn; exact hs⟩
    | some serial =>
      dsimp only
      cases hst : s.started with
      | false => exact .inl ⟨rfl, nofun⟩
      | true => exact .inr ⟨nodeId, width, height, serial, rfl, rfl, hs, by simp [send]⟩

end StartState

namespace Start

/-- The sender is there until the one outcome is sent, and while it is there the id of
`Paused` is the node's and has no serial. -/
structure Joined (s : Start) : Prop where
  once : (s.state.started = true ∧ s.state.sent = []) ∨ (s.state.started = false ∧ ∃ o, s.state.sent = [o])
  waits : s.state.started = true → ∀ n ∈ s.state.paused, s.state.serials n.1 = none ∧ s.node.map Prod.fst = some n.1

theorem Right.of_eq {s s' : Start} (h : Right s) (hsent : s'.state.sent = s.state.sent) (hnode : s'.node = s.node) :
    Right s' :=
  ⟨hsent ▸ h.once, by rw [hsent, hnode]; exact h.node⟩

theorem right_ok {s : Start} {c : CastStarted} (h : s.state.sent = [.ok c]) :
    Right s ↔ s.node = some (c.nodeId, c.serial) := by
  constructor
  · intro hr
    exact hr.node c (by simp [h])
  · intro hn
    refine ⟨by simp [h], fun c' hc' => ?_⟩
    have hc : c' = c := by simpa [h] using hc'
    rw [hc, hn]

theorem right_error {s : Start} {message : String} (h : s.state.sent = [.error message]) : Right s :=
  ⟨by simp [h], fun c hc => by simp [h] at hc⟩

theorem Joined.sent_nil {s : Start} (h : Joined s) (hst : s.state.started = true) : s.state.sent = [] := by
  rcases h.once with ⟨-, hs⟩ | ⟨hno, -⟩
  · exact hs
  · rw [hst] at hno
    cases hno

/-- What a step of a joined state keeps, and when the outcome stays right. -/
def Keeps (s s' : Start) (e : StartEvent) : Prop := Joined s' ∧ (Right s → (Right s' ↔ Sure s e))

theorem keeps_idle {s s' : Start} {e : StartEvent} (hj : Joined s) (hstate : s'.state = s.state)
    (hnode : s'.node = s.node) (hsure : Sure s e) : Keeps s s' e :=
  ⟨⟨hstate ▸ hj.once, by rw [hstate, hnode]; exact hj.waits⟩,
    fun hr => iff_of_true (hr.of_eq (congrArg StartState.sent hstate) hnode) hsure⟩

/-- A listener's try to complete, in a state that differs from a joined one in what was told. -/
theorem keeps_tryComplete {s : Start} {e : StartEvent} {t : StartState} (hj : Joined s)
    (hstarted : t.started = s.state.started) (hsent : t.sent = s.state.sent)
    (hnode : t.started = true → ∀ n ∈ t.paused, s.node.map Prod.fst = some n.1)
    (hquiet : t.started = true → (∀ n ∈ t.paused, t.serials n.1 = none) → Sure s e)
    (hdone : t.started = false → Sure s e)
    (hjoins : t.started = true → ∀ n ∈ t.paused, ∀ serial, t.serials n.1 = some serial →
      (s.node = some (n.1, serial) ↔ Sure s e)) :
    Keeps s { s with state := t.tryComplete } e := by
  rcases t.tryComplete_cases with ⟨heq, hwaits⟩ | ⟨nodeId, width, height, serial, hst, hp, hserial, heq⟩
  · rw [heq]
    refine ⟨⟨?_, fun hst n hn => ⟨hwaits hst n hn, hnode hst n hn⟩⟩, fun hr => ?_⟩
    · dsimp only
      rw [hstarted, hsent]
      exact hj.once
    · refine iff_of_true (hr.of_eq hsent rfl) ?_
      cases hst : t.started with
      | false => exact hdone hst
      | true => exact hquiet hst (hwaits hst)
  · rw [heq]
    have hnil : t.sent = [] := hsent.trans (hj.sent_nil (hstarted.symm.trans hst))
    have hone : t.sent ++ [.ok ⟨nodeId, serial, width, height, t.position⟩] =
        [Except.ok ⟨nodeId, serial, width, height, t.position⟩] := by rw [hnil, List.nil_append]
    refine ⟨⟨.inr ⟨rfl, _, hone⟩, nofun⟩, fun _ => ?_⟩
    exact (right_ok hone).trans (hjoins hst _ hp serial hserial)

theorem keeps_announced {s : Start} {id : Nat} {property : Option String} (hj : Joined s) :
    Keeps s { s with state := s.state.global id property } (.announced id property) := by
  unfold StartState.global
  cases hserial : objectSerial property with
  | none =>
    refine keeps_idle hj rfl rfl fun _ _ serial hs => ?_
    rw [hserial] at hs
    cases hs
  | some serial =>
    refine keeps_tryComplete hj rfl rfl (fun hst n hn => (hj.waits hst n hn).2) ?_ ?_ ?_
    · intro hst hnone _ hpaused
      obtain ⟨n, hn, rfl⟩ := Option.map_eq_some_iff.mp hpaused
      have hsome := hnone n hn
      simp [StartState.insert] at hsome
    · intro hst hst'
      rw [StartState.insert] at hst
      rw [hst] at hst'
      cases hst'
    · intro hst n hn serial' hs'
      have hfree := (hj.waits hst n hn).1
      obtain rfl : n.1 = id := by
        by_contra hne
        simp [StartState.insert, Function.update_of_ne hne, hfree] at hs'
      obtain rfl : serial = serial' := by simpa [StartState.insert] using hs'
      refine ⟨fun h _ _ x hx => ?_, fun h => h hst (congrArg (Option.map Prod.fst) hn) serial hserial⟩
      rw [hserial] at hx
      cases hx
      exact h

theorem keeps_paused {s : Start} {id serial width height : Nat} {property : Option String} (hj : Joined s)
    (hnode : s.node = some (id, serial)) (htells : Tells property serial) :
    Keeps s { s with state := s.state.stateChanged .paused id property width height }
      (.changed .paused property width height) := by
  have hid : ∀ n : Nat × Nat × Nat, n ∈ some (id, width, height) → s.node.map Prod.fst = some n.1 := by
    intro n hn
    cases hn
    rw [hnode]
    rfl
  unfold StartState.stateChanged
  rcases htells with hnone | hsome
  · rw [hnone]
    refine keeps_tryComplete hj rfl rfl (fun _ => hid) ?_ ?_ ?_
    · intro _ hfree _ _ n hn
      rw [hnode] at hn
      cases hn
      exact .inl (hfree _ rfl)
    · intro hst hst'
      rw [hst'] at hst
      cases hst
    · intro hst n hn x hx
      cases hn
      rw [hnode]
      constructor
      · intro h _ _ m hm
        cases h
        cases hnode ▸ hm
        exact .inr hx
      · intro h
        rcases h hst hnone _ hnode with hfree | hown
        · rw [hx] at hfree
          cases hfree
        · rw [hx] at hown
          cases hown
          rfl
  · rw [hsome]
    have hsure : Sure s (.changed .paused property width height) := by
      intro _ hnone
      rw [hsome] at hnone
      cases hnone
    refine keeps_tryComplete hj rfl rfl (fun _ => hid) (fun _ _ => hsure) (fun _ => hsure) ?_
    intro _ n hn x hx
    cases hn
    obtain rfl : serial = x := by simpa [StartState.insert] using hx
    exact iff_of_true hnode hsure

theorem keeps_error {s : Start} {message : String} {property : Option String} {id width height : Nat} (hj : Joined s) :
    Keeps s { s with state := s.state.stateChanged (.error message) id property width height }
      (.changed (.error message) property width height) := by
  rw [StartState.stateChanged, StartState.send]
  split
  next hst =>
    have hone : s.state.sent ++ [.error s!"PipeWire stream error: {message}"] =
        [.error s!"PipeWire stream error: {message}"] := by rw [hj.sent_nil hst, List.nil_append]
    exact ⟨⟨.inr ⟨rfl, _, hone⟩, nofun⟩, fun _ => iff_of_true (right_error hone) trivial⟩
  next hst =>
    exact ⟨⟨hj.once, fun h => absurd h hst⟩, fun hr => iff_of_true (hr.of_eq rfl rfl) trivial⟩

theorem step_keeps {s s' : Start} {e : StartEvent} (hj : Joined s) (h : s.step e = some s') : Keeps s s' e := by
  cases e with
  | created id =>
    simp only [step] at h
    split at h
    · cases h
      exact keeps_idle hj rfl rfl trivial
    · cases h
  | nodeCreated id =>
    simp only [step] at h
    split at h
    next hfree =>
      cases h
      refine ⟨⟨hj.once, fun hst n hn => ?_⟩, fun hr => iff_of_true ⟨hr.once, fun c hc => ?_⟩ trivial⟩
      · have hnode := (hj.waits hst n hn).2
        rw [hfree.2] at hnode
        cases hnode
      · have hnode := hr.node c hc
        rw [hfree.2] at hnode
        cases hnode
    · cases h
  | announced id property =>
    simp only [step] at h
    split at h
    · cases h
    · split at h
      · cases h
        exact keeps_announced hj
      · cases h
  | removed id =>
    simp only [step] at h
    split at h
    · cases h
    · cases h
      exact keeps_idle hj rfl rfl trivial
  | changed new property width height =>
    simp only [step] at h
    split at h
    · split at h
      · cases h
      next hne =>
        cases h
        cases new with
        | error message => exact keeps_error hj
        | paused => exact absurd rfl hne
        | unconnected => exact keeps_idle hj rfl rfl trivial
        | connecting => exact keeps_idle hj rfl rfl trivial
        | streaming => exact keeps_idle hj rfl rfl trivial
    next hnode =>
      split at h
      next htells =>
        cases h
        cases new with
        | error message => exact keeps_error hj
        | paused => exact keeps_paused hj hnode htells
        | unconnected => exact keeps_idle hj rfl rfl trivial
        | connecting => exact keeps_idle hj rfl rfl trivial
        | streaming => exact keeps_idle hj rfl rfl trivial
      · cases h

theorem joined {s : Start} (h : Reach Init step s) : Joined s := by
  refine h.inv (fun s h0 => ?_) fun s e s' hj hstep => (step_keeps hj hstep).1
  obtain ⟨-, -, position, hs⟩ := h0
  exact ⟨.inl (by rw [hs]; exact ⟨rfl, rfl⟩), fun _ n hn => by rw [hs] at hn; cases hn⟩

theorem right_of_init {s : Start} (h : Init s) : Right s := by
  obtain ⟨-, -, position, hs⟩ := h
  exact ⟨by rw [hs]; exact Nat.zero_le 1, fun c hc => by rw [hs] at hc; cases hc⟩

/-- Every run of sure events gives the right outcome; behind any run that did, one more
event does exactly if it is sure; and no run sends two outcomes. -/
theorem start_right_iff_sure (s : Start) :
    (Reach Init (Guarded Sure step) s → Right s) ∧
    (Reach Init step s → s.state.sent.length ≤ 1 ∧
      (Right s → ∀ e s', s.step e = some s' → (Right s' ↔ Sure s e))) := by
  refine ⟨fun h => ?_, fun h => ⟨?_, fun hr e s' hstep => (step_keeps (joined h) hstep).2 hr⟩⟩
  · refine (h.inv_guarded (I := fun s => Joined s ∧ Right s)
      (fun s h0 => ⟨joined (.init h0), right_of_init h0⟩) fun s e s' hi hsure hstep => ?_).2
    obtain ⟨hj', hright⟩ := step_keeps hi.1 hstep
    exact ⟨hj', (hright hi.2).mpr hsure⟩
  · rcases (joined h).once with ⟨-, hs⟩ | ⟨-, o, hs⟩
    · rw [hs]
      exact Nat.zero_le 1
    · rw [hs]
      exact Nat.le_refl 1

/-! ## An id that is used twice -/

def beforeConnect : Start where
  objects := fun _ => none
  nextSerial := 100
  node := none
  state := .new (0, 0)

theorem beforeConnect_init : Init beforeConnect := ⟨nofun, rfl, _, rfl⟩

/-- The node is announced, then the stream is paused. -/
def announcedRun : List StartEvent :=
  [.nodeCreated 42, .announced 42 (some "100"), .changed .paused none 1920 1080]

theorem start_right_announcedRun : ∃ s, exec (Guarded Sure step) beforeConnect announcedRun = some s ∧
    s.state.sent.length = 1 ∧ Right s := by
  have hview : (exec (Guarded Sure step) beforeConnect announcedRun).map (·.state.sent.length) = some 1 := by
    decide +kernel
  obtain ⟨s, hs, hlen⟩ := Option.map_eq_some_iff.mp hview
  have hstart : Reach Init (Guarded Sure step) beforeConnect := .init beforeConnect_init
  exact ⟨s, hs, hlen, (start_right_iff_sure s).1 (hstart.exec hs)⟩

/-- The node gets the id of an object that was announced and is gone, and the stream is
paused before the node is announced. -/
def reusedRun : List StartEvent :=
  [.created 42, .announced 42 (some "100"), .removed 42, .nodeCreated 42, .changed .paused none 1920 1080]

theorem start_reports_earlier_serial : ∃ s, Reach Init step s ∧ s.node = some (42, 101) ∧
    s.state.sent = [.ok ⟨42, 100, 1920, 1080, (0, 0)⟩] ∧ ¬Right s := by
  have hview : (exec step beforeConnect reusedRun).map (fun s => (s.node, s.state.sent)) =
      some (some (42, 101), [.ok ⟨42, 100, 1920, 1080, (0, 0)⟩]) := by rfl
  obtain ⟨s, hs, hv⟩ := Option.map_eq_some_iff.mp hview
  obtain ⟨hnode, hsent⟩ := Prod.mk.inj hv
  have hstart : Reach Init step beforeConnect := .init beforeConnect_init
  refine ⟨s, hstart.exec hs, hnode, hsent, fun hr => ?_⟩
  have hown := (right_ok hsent).mp hr
  rw [hnode] at hown
  exact absurd hown (by decide)

end Start

end AtriumPortal.Cast
