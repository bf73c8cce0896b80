import AtriumPortal.Lib.Table
import AtriumPortal.Ipc.Schema
/-!
# The cast-session registry

`session.rs`. A session's `stop` and `cast_thread` name the cast thread they
belong to. `incarnation` is not in the code: it counts the sessions ever made,
and tells a session from an earlier one at the same object path.
-/
open AtriumPortal.Lib.Table

namespace AtriumPortal.ScreenCast

def maxSessions : Nat := 128
def maxLiveCasts : Nat := 16

inductive CastSource where
  /-- An output stream; `none` captures the whole desktop. -/
  | monitor (output : Option String)
  | window (window : Nat)
  deriving DecidableEq, Repr

/-- What `run_cast` asks the compositor to stream. -/
def CastSource.target : CastSource → Ipc.StreamTarget
  | .monitor output => .output output
  | .window id => .window id

structure StartSelection where
  source : CastSource
  cursorMode : Nat
  requestedPersistMode : Nat
  persistGrant : Option (Nat × String)
  deriving DecidableEq, Repr

structure CastSession where
  appId : String
  sourcesSelected : Bool
  source : CastSource
  cursorMode : Nat
  requestedPersistMode : Nat
  persistGrant : Option (Nat × String)
  starting : Bool
  stop : Option Nat
  castThread : Option Nat
  incarnation : Nat
  deriving DecidableEq, Repr

namespace CastSession

def fresh (appId : String) (incarnation : Nat) : CastSession where
  appId := appId
  sourcesSelected := false
  source := .monitor none
  cursorMode := 1
  requestedPersistMode := 0
  persistGrant := none
  starting := false
  stop := none
  castThread := none
  incarnation := incarnation

def selection (s : CastSession) : StartSelection := ⟨s.source, s.cursorMode, s.requestedPersistMode, s.persistGrant⟩

/-- The session holds a negotiated cast. -/
def installed (s : CastSession) : Bool := s.castThread.isSome

def live (s : CastSession) : Bool := s.starting || s.installed

end CastSession

structure SessionRegistry where
  sessions : Map String CastSession
  /-- The incarnation of the next session. -/
  next : Nat

namespace SessionRegistry

def empty : SessionRegistry := ⟨∅, 0⟩

def insert (r : SessionRegistry) (path appId : String) : Except String SessionRegistry :=
  if (r.sessions.lookup path).isSome then .error s!"session {path} already exists"
  else if maxSessions ≤ r.sessions.entries.length then .error s!"session limit of {maxSessions} reached"
  else .ok ⟨r.sessions.insert path (.fresh appId r.next), r.next + 1⟩

def contains (r : SessionRegistry) (path : String) : Bool := (r.sessions.lookup path).isSome

def markSourcesSelected (r : SessionRegistry) (path appId : String) (selection : StartSelection) :
    Except String SessionRegistry :=
  match r.sessions.lookup path with
  | none => .error s!"unknown session {path}"
  | some session =>
    if session.sourcesSelected then .error s!"session {path} already selected sources"
    else if session.appId ≠ appId then .error s!"session {path} belongs to another application"
    else .ok { r with
      sessions := r.sessions.insert path { session with
        sourcesSelected := true
        source := selection.source
        cursorMode := selection.cursorMode
        requestedPersistMode := selection.requestedPersistMode
        persistGrant := selection.persistGrant } }

def liveCasts (r : SessionRegistry) : Nat := count CastSession.live r.sessions

def reserveStart (r : SessionRegistry) (path appId : String) : Except String (StartSelection × SessionRegistry) :=
  match r.sessions.lookup path with
  | none => .error s!"unknown session {path}"
  | some session =>
    if session.appId ≠ appId then .error s!"session {path} belongs to another application"
    else if ¬ session.sourcesSelected then .error s!"session {path} has not selected sources"
    else if session.live then .error s!"session {path} already started"
    else if maxLiveCasts ≤ r.liveCasts then .error s!"live cast limit of {maxLiveCasts} reached"
    else .ok (session.selection, { r with sessions := r.sessions.insert path { session with starting := true } })

def clearStart (r : SessionRegistry) (path : String) : SessionRegistry :=
  match r.sessions.lookup path with
  | none => r
  | some session => { r with sessions := r.sessions.insert path { session with starting := false } }

/-- `none` returns the cast to the caller. -/
def markStarted (r : SessionRegistry) (path : String) (thread : Nat) : Option SessionRegistry :=
  match r.sessions.lookup path with
  | none => none
  | some session =>
    some { r with
      sessions := r.sessions.insert path { session with
        starting := false
        stop := some thread
        castThread := some thread } }

def remove (r : SessionRegistry) (path : String) : Option CastSession × SessionRegistry :=
  (r.sessions.lookup path, { r with sessions := r.sessions.erase path })

/-- The incarnation of the session at a path. -/
def incarnationAt (r : SessionRegistry) (path : String) : Nat := ((r.sessions.lookup path).map (·.incarnation)).getD 0

/-! ## What an operation that succeeds does -/

variable {r r' : SessionRegistry} {path appId : String}

theorem insert_eq_ok (h : r.insert path appId = .ok r') :
    r.sessions.lookup path = none ∧ r' = ⟨r.sessions.insert path (.fresh appId r.next), r.next + 1⟩ := by
  unfold insert at h
  split at h
  · cases h
  · next hno =>
    split at h
    · cases h
    · cases h; exact ⟨by simpa using hno, rfl⟩

theorem markSourcesSelected_eq_ok {selection : StartSelection} (h : r.markSourcesSelected path appId selection = .ok r') :
    ∃ session, r.sessions.lookup path = some session ∧ session.sourcesSelected = false ∧ session.appId = appId ∧
      r' = { r with
        sessions := r.sessions.insert path { session with
          sourcesSelected := true
          source := selection.source
          cursorMode := selection.cursorMode
          requestedPersistMode := selection.requestedPersistMode
          persistGrant := selection.persistGrant } } := by
  unfold markSourcesSelected at h
  split at h
  · cases h
  · next session hl =>
    split at h
    · cases h
    · split at h
      · cases h
      · next hsel happ => cases h; exact ⟨session, hl, by simpa using hsel, by simpa using happ, rfl⟩

theorem reserveStart_eq_ok {selection : StartSelection} (h : r.reserveStart path appId = .ok (selection, r')) :
    ∃ session, r.sessions.lookup path = some session ∧ session.appId = appId ∧ session.sourcesSelected = true ∧
      session.live = false ∧ r.liveCasts < maxLiveCasts ∧ selection = session.selection ∧
      r' = { r with sessions := r.sessions.insert path { session with starting := true } } := by
  unfold reserveStart at h
  split at h
  · cases h
  · next session hl =>
    split at h
    · cases h
    · split at h
      · cases h
      · split at h
        · cases h
        · split at h
          · cases h
          · next happ hsel hlive hmax =>
            cases h
            exact ⟨session, hl, by simpa using happ, by simpa using hsel, by simpa using hlive, by omega, rfl, rfl⟩

theorem markStarted_eq_some {thread : Nat} (h : r.markStarted path thread = some r') :
    ∃ session, r.sessions.lookup path = some session ∧
      r' = { r with
        sessions := r.sessions.insert path { session with
          starting := false
          stop := some thread
          castThread := some thread } } := by
  unfold markStarted at h
  split at h
  · cases h
  · next session hl => cases h; exact ⟨session, hl, rfl⟩

end SessionRegistry

end AtriumPortal.ScreenCast
