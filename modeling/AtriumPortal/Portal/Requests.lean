import AtriumPortal.Portal.Tracker
import AtriumPortal.Lib.Table
import AtriumPortal.Lib.Entries
import AtriumPortal.Lib.Runs
/-!
# Request objects and their tracker

`register`, `finish` and `Close` of the runtime crate as the steps they are made
of: the object server and the tracker are two stores, and other tasks come in
between. `Request.closed` is not in the code: it says whether a `Close` that the
object server gave to this request's own object has run. A worker looks at the
tracker while its request is served, so `Observed` compares the two there.
-/
open AtriumPortal.Lib.Table AtriumPortal.Lib.Entries AtriumPortal.Lib.Runs

namespace AtriumPortal.Portal

inductive RequestPhase where
  /-- `register` exported the object and has not activated the path. -/
  | exported
  | served
  /-- `finish` removed the object and has not forgotten the path. -/
  | removed
  | finished
  deriving DecidableEq, Repr

structure Request where
  path : String
  phase : RequestPhase
  closed : Bool
  deriving DecidableEq, Repr

/-- The request's object is in the object server. -/
def Request.onBus (r : Request) : Prop := r.phase = .exported ∨ r.phase = .served

/-- The request's path is activated and not forgotten. -/
def Request.tracked (r : Request) : Prop := r.phase = .served ∨ r.phase = .removed

structure Requests where
  /-- The object server: which request's object is at a path. -/
  objects : Map String Nat
  tracker : RequestTracker
  requests : List Request
  /-- `Close` calls that an object was given and whose handler has not run. -/
  closing : List Nat

namespace Requests

def init : Requests := ⟨∅, ⟨∅, ∅⟩, [], []⟩

inductive Step where
  /-- `register`: `object_server().at`. -/
  | exportObject (path : String)
  | activate (k : Nat)
  /-- A `Close` call is given to the object at the path. -/
  | dispatch (path : String)
  /-- The handler of the `i`-th such call marks its path. -/
  | close (i : Nat)
  /-- `finish`: `object_server().remove`. -/
  | removeObject (k : Nat)
  | forget (k : Nat)
  deriving DecidableEq, Repr

def setPhase (s : Requests) (k : Nat) (r : Request) (phase : RequestPhase) : Requests :=
  { s with requests := s.requests.set k { r with phase := phase } }

/-- The handler of `Close` on the object of request `k`. -/
def markClosed (s : Requests) (k : Nat) (r : Request) : Requests :=
  { s with
    tracker := s.tracker.markClosed r.path
    requests := s.requests.set k { r with closed := true } }

/-- What the task of request `k` does next. -/
def requestStep (s : Requests) (k : Nat) (r : Request) : Step → Option Requests
  | .activate _ =>
    if r.phase = .exported then some { s.setPhase k r .served with tracker := s.tracker.activate r.path } else none
  | .removeObject _ =>
    if r.phase = .served then some { s.setPhase k r .removed with objects := s.objects.erase r.path } else none
  | .forget _ =>
    if r.phase = .removed then some { s.setPhase k r .finished with tracker := s.tracker.forget r.path } else none
  | _ => none

def step (s : Requests) (l : Step) : Option Requests :=
  match l with
  | .exportObject path =>
    match s.objects.lookup path with
    | some _ => none
    | none => some { s with
        objects := s.objects.insert path s.requests.length
        requests := s.requests ++ [⟨path, .exported, false⟩] }
  | .activate k => s.requests[k]?.bind fun r => s.requestStep k r l
  | .dispatch path => (s.objects.lookup path).map fun k => { s with closing := s.closing ++ [k] }
  | .close i =>
    s.closing[i]?.bind fun k =>
      s.requests[k]?.map fun r => { s.markClosed k r with closing := s.closing.eraseIdx i }
  | .removeObject k => s.requests[k]?.bind fun r => s.requestStep k r l
  | .forget k => s.requests[k]?.bind fun r => s.requestStep k r l

/-- What the worker of a served request sees is whether the request was closed. -/
def Observed (s : Requests) : Prop :=
  ∀ (k : Nat) (r : Request), s.requests[k]? = some r → r.phase = .served → s.tracker.wasClosed r.path = r.closed

/-! ## Which interleavings are harmless -/

/-- Another request at the path of request `k` is in the phase. -/
def Beside (s : Requests) (k : Nat) (phase : RequestPhase) : Prop :=
  ∃ j < s.requests.length, j ≠ k ∧
    s.requests[j]?.map (fun r => (r.path, r.phase)) = s.requests[k]?.map fun r => (r.path, phase)

instance (s : Requests) (k : Nat) (phase : RequestPhase) : Decidable (s.Beside k phase) :=
  inferInstanceAs (Decidable (∃ j < _, _))

/-- A path is activated only when no other request at it is still to forget it,
and the handler of a `Close` runs only when its own request was activated and no
other request is served at its path. -/
def Guard (s : Requests) : Step → Prop
  | .activate k => ¬ s.Beside k .removed
  | .close i => ∀ k ∈ s.closing[i]?, s.requests[k]?.map (·.phase) ≠ some .exported ∧ ¬ s.Beside k .served
  | _ => True

instance (s : Requests) (l : Step) : Decidable (s.Guard l) := by
  unfold Guard
  split <;> infer_instance

theorem beside {s : Requests} {k j : Nat} {r q : Request} (hk : s.requests[k]? = some r) (hj : s.requests[j]? = some q)
    (hne : j ≠ k) (hp : q.path = r.path) : s.Beside k q.phase :=
  ⟨j, (List.getElem?_eq_some_iff.1 hj).1, hne, by simp [hk, hj, hp]⟩

/-! ## The two stores agree -/

structure Coherent (s : Requests) : Prop where
  object : ∀ p k, s.objects.lookup p = some k ↔ ∃ r, s.requests[k]? = some r ∧ r.path = p ∧ r.onBus
  active : ∀ p, p ∈ s.tracker.active ↔ ∃ (k : Nat) (r : Request), s.requests[k]? = some r ∧ r.path = p ∧ r.tracked
  closed_active : ∀ p ∈ s.tracker.closed, p ∈ s.tracker.active
  alone : ∀ (k j : Nat) (r q : Request), s.requests[k]? = some r → s.requests[j]? = some q → r.tracked → q.tracked →
    q.path = r.path → j = k
  fresh : ∀ (k : Nat) (r : Request), s.requests[k]? = some r → r.phase = .exported → r.closed = false
  observed : s.Observed

/-- One object at a path. -/
theorem Coherent.unique {s : Requests} (h : s.Coherent) {k j : Nat} {r q : Request} (hk : s.requests[k]? = some r)
    (hj : s.requests[j]? = some q) (hr : r.onBus) (hq : q.onBus) (hp : q.path = r.path) : j = k := by
  have h₁ := (h.object r.path k).2 ⟨r, hk, rfl, hr⟩
  have h₂ := (h.object r.path j).2 ⟨q, hj, hp, hq⟩
  exact Option.some.inj (h₂.symm.trans h₁)

theorem init_coherent : Coherent init := by
  constructor <;> simp [init, Observed]

theorem Coherent.exportObject {s : Requests} (h : s.Coherent) {path : String} (hno : s.objects.lookup path = none) :
    Coherent { s with
      objects := s.objects.insert path s.requests.length
      requests := s.requests ++ [⟨path, .exported, false⟩] } := by
  refine ⟨fun p k => ?_, fun p => ?_, h.closed_active, fun k j r q hk hj hr hq hp => ?_, fun k r hk hr => ?_,
    fun k r hk hr => ?_⟩
  · by_cases hp : p = path
    · subst hp
      simp only [AList.lookup_insert, Option.some.injEq, append_eq_some]
      constructor
      · rintro rfl
        exact ⟨_, .inr ⟨rfl, rfl⟩, rfl, .inl rfl⟩
      · rintro ⟨r, hk | ⟨rfl, -⟩, hp, hbus⟩
        · have := (h.object p k).2 ⟨r, hk, hp, hbus⟩
          rw [hno] at this
          cases this
        · rfl
    · simp only [AList.lookup_insert_ne hp, append_eq_some, h.object]
      constructor
      · rintro ⟨r, hk, hr⟩
        exact ⟨r, .inl hk, hr⟩
      · rintro ⟨r, hk | ⟨-, rfl⟩, hr, hbus⟩
        · exact ⟨r, hk, hr, hbus⟩
        · exact absurd hr.symm hp
  · simp only [append_eq_some, h.active]
    constructor
    · rintro ⟨k, r, hk, hr⟩
      exact ⟨k, r, .inl hk, hr⟩
    · rintro ⟨k, r, hk | ⟨-, rfl⟩, hr, ht⟩
      · exact ⟨k, r, hk, hr, ht⟩
      · rcases ht with ht | ht <;> cases ht
  · rcases append_eq_some.1 hk with hk | ⟨-, rfl⟩
    · rcases append_eq_some.1 hj with hj | ⟨-, rfl⟩
      · exact h.alone k j r q hk hj hr hq hp
      · rcases hq with hq | hq <;> cases hq
    · rcases hr with hr | hr <;> cases hr
  · rcases append_eq_some.1 hk with hk | ⟨-, rfl⟩
    · exact h.fresh k r hk hr
    · rfl
  · rcases append_eq_some.1 hk with hk | ⟨-, rfl⟩
    · exact h.observed k r hk hr
    · cases hr

/-- Two tracked requests at one path are one, also when an entry is replaced. -/
theorem Coherent.alone_set {s : Requests} (h : s.Coherent) {k : Nat} {r r' : Request} (hk : s.requests[k]? = some r)
    (hp : r'.path = r.path)
    (hr' : r'.tracked → r.tracked ∨ ∀ (j : Nat) (q : Request), s.requests[j]? = some q → q.path = r.path → ¬ q.tracked)
    (i j : Nat) (q q' : Request) (hi : (s.requests.set k r')[i]? = some q) (hj : (s.requests.set k r')[j]? = some q')
    (hq : q.tracked) (hq' : q'.tracked) (he : q'.path = q.path) : j = i := by
  rcases (set_eq_some hk).1 hi with ⟨rfl, rfl⟩ | ⟨-, hi'⟩ <;> rcases (set_eq_some hk).1 hj with ⟨rfl, rfl⟩ | ⟨-, hj'⟩
  · rfl
  · rcases hr' hq with ht | hno
    · exact h.alone i j r q' hk hj' ht hq' (he.trans hp)
    · exact absurd hq' (hno j q' hj' (he.trans hp))
  · rcases hr' hq' with ht | hno
    · exact h.alone i j q r hi' hk hq ht (hp.symm.trans he)
    · exact absurd hq (hno i q hi' (he.symm.trans hp))
  · exact h.alone i j q q' hi' hj' hq hq' he

theorem Coherent.activate {s : Requests} (h : s.Coherent) {k : Nat} {r : Request} (hk : s.requests[k]? = some r)
    (hr : r.phase = .exported) (hg : ¬ s.Beside k .removed) :
    Coherent { s.setPhase k r .served with tracker := s.tracker.activate r.path } := by
  -- No request at the path is tracked: its object would be exported too, or it is still to forget the path.
  have untracked : ∀ (j : Nat) (q : Request), s.requests[j]? = some q → q.path = r.path → ¬ q.tracked := by
    rintro j q hj hp (hq | hq)
    · obtain rfl := h.unique hk hj (.inl hr) (.inr hq) hp
      cases hk.symm.trans hj
      rw [hr] at hq
      cases hq
    · refine hg (hq ▸ beside hk hj ?_ hp)
      rintro rfl
      cases hk.symm.trans hj
      rw [hr] at hq
      cases hq
  have hclosed : r.path ∉ s.tracker.closed := by
    intro hc
    obtain ⟨j, q, hj, hp, hq⟩ := (h.active r.path).1 (h.closed_active _ hc)
    exact untracked j q hj hp hq
  refine ⟨fun p j => ?_, fun p => ?_, fun p hp => ?_, h.alone_set hk rfl fun _ => .inr untracked, fun j q hj hq => ?_,
    fun j q hj hq => ?_⟩
  · exact (h.object p j).trans (exists_set hk (by simp [Request.onBus, hr])).symm
  · simp only [setPhase, RequestTracker.activate, Finset.mem_insert, h.active, set_eq_some hk]
    constructor
    · rintro (rfl | ⟨j, q, hj, hp, hq⟩)
      · exact ⟨k, _, .inl ⟨rfl, rfl⟩, rfl, .inl rfl⟩
      · refine ⟨j, q, .inr ⟨?_, hj⟩, hp, hq⟩
        rintro rfl
        cases hk.symm.trans hj
        exact untracked j r hk rfl hq
    · rintro ⟨j, q, ⟨rfl, rfl⟩ | ⟨-, hj⟩, hp, hq⟩
      · exact .inl hp.symm
      · exact .inr ⟨j, q, hj, hp, hq⟩
  · exact Finset.mem_insert_of_mem (h.closed_active p hp)
  · rcases (set_eq_some hk).1 hj with ⟨rfl, rfl⟩ | ⟨-, hj⟩
    · cases hq
    · exact h.fresh j q hj hq
  · rcases (set_eq_some hk).1 hj with ⟨rfl, rfl⟩ | ⟨-, hj⟩
    · simp [RequestTracker.wasClosed, RequestTracker.activate, h.fresh j r hk hr, hclosed]
    · exact h.observed j q hj hq

theorem Coherent.markClosed {s : Requests} (h : s.Coherent) {k : Nat} {r : Request} (hk : s.requests[k]? = some r)
    (hr : r.phase ≠ .exported) (hg : ¬ s.Beside k .served) : (s.markClosed k r).Coherent := by
  have hactive : (s.tracker.markClosed r.path).active = s.tracker.active := by
    unfold RequestTracker.markClosed
    split <;> rfl
  refine ⟨fun p j => ?_, fun p => ?_, fun p hp => ?_, h.alone_set hk rfl fun ht => .inl ht, fun j q hj hq => ?_,
    fun j q hj hq => ?_⟩
  · exact (h.object p j).trans (exists_set (b := { r with closed := true }) hk Iff.rfl).symm
  · simp only [Requests.markClosed, hactive, h.active]
    exact exists_congr fun j => (exists_set (b := { r with closed := true }) hk Iff.rfl).symm
  · simp only [Requests.markClosed, hactive] at hp ⊢
    unfold RequestTracker.markClosed at hp
    split at hp
    · next hact =>
      rcases Finset.mem_insert.1 hp with rfl | hp
      · exact hact
      · exact h.closed_active p hp
    · exact h.closed_active p hp
  · rcases (set_eq_some hk).1 hj with ⟨rfl, rfl⟩ | ⟨-, hj⟩
    · exact absurd hq hr
    · exact h.fresh j q hj hq
  · simp only [Requests.markClosed, RequestTracker.wasClosed_markClosed]
    rcases (set_eq_some hk).1 hj with ⟨rfl, rfl⟩ | ⟨hne, hj⟩
    · have hact : r.path ∈ s.tracker.active := (h.active r.path).2 ⟨j, r, hk, rfl, .inl hq⟩
      simp [hact]
    · -- The handler of another request's `Close` marks another path.
      have hpath : r.path ≠ q.path := fun hp => hg (hq ▸ beside hk hj hne hp.symm)
      simpa [hpath] using h.observed j q hj hq

theorem Coherent.removeObject {s : Requests} (h : s.Coherent) {k : Nat} {r : Request} (hk : s.requests[k]? = some r)
    (hr : r.phase = .served) :
    Coherent { s.setPhase k r .removed with objects := s.objects.erase r.path } := by
  refine ⟨fun p j => ?_, fun p => ?_, h.closed_active, h.alone_set hk rfl fun _ => .inl (.inl hr), fun j q hj hq => ?_,
    fun j q hj hq => ?_⟩
  · by_cases hp : p = r.path
    · subst hp
      simp only [AList.lookup_erase, setPhase, set_eq_some hk]
      constructor
      · exact fun h => nomatch h
      · rintro ⟨q, ⟨rfl, rfl⟩ | ⟨hne, hj⟩, hp, hbus⟩
        · rcases hbus with hbus | hbus <;> cases hbus
        · exact absurd (h.unique hk hj (.inr hr) hbus hp) hne
    · rw [AList.lookup_erase_ne hp, h.object]
      exact (exists_set hk (by simp [Ne.symm hp])).symm
  · exact (h.active p).trans (exists_congr fun j => (exists_set hk (by simp [Request.tracked, hr])).symm)
  · rcases (set_eq_some hk).1 hj with ⟨rfl, rfl⟩ | ⟨-, hj⟩
    · cases hq
    · exact h.fresh j q hj hq
  · rcases (set_eq_some hk).1 hj with ⟨rfl, rfl⟩ | ⟨-, hj⟩
    · cases hq
    · exact h.observed j q hj hq

theorem Coherent.forget {s : Requests} (h : s.Coherent) {k : Nat} {r : Request} (hk : s.requests[k]? = some r)
    (hr : r.phase = .removed) :
    Coherent { s.setPhase k r .finished with tracker := s.tracker.forget r.path } := by
  refine ⟨fun p j => ?_, fun p => ?_, fun p hp => ?_, h.alone_set hk rfl fun ht => ?_, fun j q hj hq => ?_,
    fun j q hj hq => ?_⟩
  · exact (h.object p j).trans (exists_set hk (by simp [Request.onBus, hr])).symm
  · simp only [setPhase, RequestTracker.forget, Finset.mem_erase, h.active, set_eq_some hk]
    constructor
    · rintro ⟨hp, j, q, hj, hq, ht⟩
      refine ⟨j, q, .inr ⟨?_, hj⟩, hq, ht⟩
      rintro rfl
      cases hk.symm.trans hj
      exact hp hq.symm
    · rintro ⟨j, q, ⟨rfl, rfl⟩ | ⟨hne, hj⟩, hq, ht⟩
      · rcases ht with ht | ht <;> cases ht
      · refine ⟨?_, j, q, hj, hq, ht⟩
        rintro rfl
        exact hne (h.alone k j r q hk hj (.inr hr) ht hq)
  · simp only [RequestTracker.forget, Finset.mem_erase] at hp ⊢
    exact ⟨hp.1, h.closed_active p hp.2⟩
  · rcases ht with ht | ht <;> cases ht
  · rcases (set_eq_some hk).1 hj with ⟨rfl, rfl⟩ | ⟨-, hj⟩
    · cases hq
    · exact h.fresh j q hj hq
  · rcases (set_eq_some hk).1 hj with ⟨rfl, rfl⟩ | ⟨hne, hj⟩
    · cases hq
    · -- A served request is alone at its path, so another path is forgotten.
      have hpath : q.path ≠ r.path := fun hp => hne (h.alone k j r q hk hj (.inr hr) (.inl hq) hp)
      simpa [setPhase, hpath] using h.observed j q hj hq

theorem step_coherent {s s' : Requests} {l : Step} (h : s.Coherent) (hg : s.Guard l) (hs : s.step l = some s') :
    s'.Coherent := by
  cases l with
  | exportObject path =>
    simp only [step] at hs
    split at hs
    · cases hs
    · next hno => cases hs; exact h.exportObject hno
  | activate k =>
    obtain ⟨r, hk, hs⟩ := Option.bind_eq_some_iff.1 hs
    simp only [requestStep] at hs
    split at hs
    · next hr => cases hs; exact h.activate hk hr hg
    · cases hs
  | dispatch path =>
    obtain ⟨k, _, rfl⟩ := Option.map_eq_some_iff.1 hs
    exact { h with }
  | close i =>
    obtain ⟨k, hi, hs⟩ := Option.bind_eq_some_iff.1 hs
    obtain ⟨r, hk, rfl⟩ := Option.map_eq_some_iff.1 hs
    obtain ⟨hr, hno⟩ := hg k hi
    exact { h.markClosed hk (by simpa [hk] using hr) hno with }
  | removeObject k =>
    obtain ⟨r, hk, hs⟩ := Option.bind_eq_some_iff.1 hs
    simp only [requestStep] at hs
    split at hs
    · next hr => cases hs; exact h.removeObject hk hr
    · cases hs
  | forget k =>
    obtain ⟨r, hk, hs⟩ := Option.bind_eq_some_iff.1 hs
    simp only [requestStep] at hs
    split at hs
    · next hr => cases hs; exact h.forget hk hr
    · cases hs

/-- In every run whose activations and `Close` handlers meet the guard, a worker
sees its request closed exactly when a `Close` of its own object has run. -/
theorem closes_observed {s : Requests} (h : Reach (· = init) (Guarded Guard step) s) : s.Observed := by
  have : s.Coherent := h.inv_guarded (by rintro s rfl; exact init_coherent) fun s l s' hi hg hs => step_coherent hi hg hs
  exact this.observed

/-! ## A handle used twice -/

def handle : String := "/org/freedesktop/portal/desktop/request/1_5/t"

/-- A request that is closed and finished, and its handle registered again. -/
def reusedHandle : List Step :=
  [.exportObject handle, .activate 0, .dispatch handle, .close 0, .removeObject 0, .forget 0, .exportObject handle,
   .activate 1]

theorem closes_observed_reused : ∃ s, exec (Guarded Guard step) init reusedHandle = some s ∧ s.Observed := by
  have hrun : (exec (Guarded Guard step) init reusedHandle).isSome = true := by decide +kernel
  obtain ⟨s, hs⟩ := Option.isSome_iff_exists.1 hrun
  exact ⟨s, hs, closes_observed (Reach.exec (.init rfl) hs)⟩

/-- What a worker of request `k` sees, and whether the request was closed. -/
def seen (s : Requests) (k : Nat) : Option (Bool × Bool) :=
  (s.requests[k]?.filter (·.phase == .served)).map fun r => (s.tracker.wasClosed r.path, r.closed)

theorem not_observed {s : Requests} {k : Nat} {b c : Bool} (h : s.seen k = some (b, c)) (hne : b ≠ c) : ¬ s.Observed := by
  intro ho
  simp only [seen, Option.map_eq_some_iff, Option.filter_eq_some_iff, Prod.mk.injEq, beq_iff_eq] at h
  obtain ⟨r, ⟨hk, hr⟩, rfl, rfl⟩ := h
  exact hne (ho k r hk hr)

/-- A `Close` whose handler runs before the path is activated is lost, and a
handle registered before the older request forgot it inherits that one's marker. -/
theorem closes_confused :
    (∃ s, Reach (· = init) step s ∧ s.seen 0 = some (false, true) ∧ ¬ s.Observed) ∧
    ∃ s, Reach (· = init) step s ∧ s.seen 1 = some (true, false) ∧ ¬ s.Observed := by
  have confused : ∀ (ls : List Step) (k : Nat) (b c : Bool), (exec step init ls).bind (seen · k) = some (b, c) → b ≠ c →
      ∃ s, Reach (· = init) step s ∧ s.seen k = some (b, c) ∧ ¬ s.Observed := by
    intro ls k b c h hne
    obtain ⟨s, hs, hseen⟩ := Option.bind_eq_some_iff.1 h
    exact ⟨s, Reach.exec (.init rfl) hs, hseen, not_observed hseen hne⟩
  exact ⟨confused [.exportObject handle, .dispatch handle, .close 0, .activate 0] 0 _ _ (by decide +kernel) (by decide),
    confused [.exportObject handle, .activate 0, .dispatch handle, .close 0, .removeObject 0, .exportObject handle,
      .activate 1] 1 _ _ (by decide +kernel) (by decide)⟩

end Requests

end AtriumPortal.Portal
