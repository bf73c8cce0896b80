import Mathlib.Data.Finset.Basic
/-!
# Requests and their cancellation

`atrium-portal-runtime`: the tracker shared by every served `Request` object and
the workers, and what the other threads do to it while one request is served.
-/

namespace AtriumPortal.Portal

structure RequestTracker where
  /-- Request paths between `register` and `finish`. -/
  active : Finset String
  closed : Finset String
  deriving DecidableEq

namespace RequestTracker

def wasClosed (t : RequestTracker) (path : String) : Bool := decide (path ∈ t.closed)

def activate (t : RequestTracker) (path : String) : RequestTracker := { t with active := insert path t.active }

/-- Record a `Close`, unless the request already finished. -/
def markClosed (t : RequestTracker) (path : String) : RequestTracker :=
  if path ∈ t.active then { t with closed := insert path t.closed } else t

def forget (t : RequestTracker) (path : String) : RequestTracker := ⟨t.active.erase path, t.closed.erase path⟩

@[simp] theorem wasClosed_activate (t : RequestTracker) (p path : String) :
    (t.activate p).wasClosed path = t.wasClosed path := rfl

@[simp] theorem wasClosed_markClosed (t : RequestTracker) (p path : String) :
    (t.markClosed p).wasClosed path = (t.wasClosed path || decide (p ∈ t.active ∧ p = path)) := by
  unfold markClosed wasClosed
  by_cases hp : p ∈ t.active <;> simp [hp, eq_comm, Bool.or_comm]

@[simp] theorem wasClosed_forget (t : RequestTracker) (p path : String) :
    (t.forget p).wasClosed path = (t.wasClosed path && decide (path ≠ p)) := by
  simp [forget, wasClosed, Bool.and_comm]

end RequestTracker

/-- What another thread does to the tracker. -/
inductive TrackerMove where
  | register (path : String)
  | close (path : String)
  | finish (path : String)
  deriving DecidableEq, Repr

/-- The request at `served` is finished by its own method, after the reply; until
then its object is exported, and no other request is registered there. -/
def TrackerMove.apply (served : String) (t : RequestTracker) : TrackerMove → RequestTracker
  | .register path => t.activate path
  | .close path => t.markClosed path
  | .finish path => if path = served then t else t.forget path

/-- While a request is served, its `Close` stays recorded. -/
theorem TrackerMove.wasClosed_apply {served : String} {t : RequestTracker} (h : t.wasClosed served = true) (m : TrackerMove) :
    (m.apply served t).wasClosed served = true := by
  cases m with
  | register path => simpa [apply] using h
  | close path => simp [apply, h]
  | finish path =>
    simp only [apply]
    split
    · exact h
    · next hne => simp [h, Ne.symm hne]

/-- The response codes and results of the portal's methods. -/
inductive PortalValue where
  | bool (value : Bool)
  | str (value : String)
  | u32 (value : Nat)
  deriving DecidableEq, Repr

structure PortalResponse where
  code : Nat
  results : List (String × PortalValue)
  deriving DecidableEq, Repr

end AtriumPortal.Portal
