import AtriumPortal.Ipc.Capture
/-!
# Version negotiation

`connect_inner` offers one version after the other, from the newest on, until one is
accepted. An accepted reply is bounded by the offer and by nothing from below: the
client that comes out speaks a version of the range exactly when no server's `Hello`
is older than the range.
-/
open AtriumPortal.Lib.Interact

namespace AtriumPortal.Ipc.Capture

/-- One attempt: the `Hello` that was written, and what came back. -/
abbrev Attempt : Type := Sigma Action.Answer

/-- The version that an attempt offers. -/
def Attempt.offer : Attempt → Option Nat
  | ⟨.greet (.hello version _ _ _), _⟩ => some version
  | _ => none

/-- What a server's `Hello` makes of a client. -/
def Attempt.client : Attempt → Option Connected
  | ⟨.greet _, .ok (.hello replied caps lease)⟩ => some ⟨replied, caps, lease⟩
  | _ => none

/-- Whether a reply was read at all. -/
def Attempt.replied : Attempt → Bool
  | ⟨.greet _, .ok _⟩ => true
  | _ => false

/-- The version was offered, and a reply was read that is no `Hello` within it. -/
def Attempt.Refused (x : Attempt) (version : Nat) : Prop :=
  x.offer = some version ∧ x.replied = true ∧ ∀ client ∈ x.client, version < client.version

/-- The server's `Hello` is older than any version this client speaks. -/
def Attempt.TooOld (x : Attempt) : Prop := ∃ client ∈ x.client, client.version < minProtocolVersion

/-- How a client comes out of attempts from `newest` on: the last one offers a version
and is answered with a `Hello` within it, and each newer offer was refused before. -/
structure Accepted (newest : Nat) (t : List Attempt) (client : Connected) (version : Nat) : Prop where
  last : ∃ refused x, t = refused ++ [x] ∧ x.offer = some version ∧ x.client = some client ∧
    ∀ newer, version < newer → newer ≤ newest → ∃ y ∈ refused, y.Refused newer
  older : version ≤ newest
  within : client.version ≤ version

/-- What the attempts from the newest version on are to come to. -/
structure Negotiated (t : List Attempt) (result : Except IoError Connected) : Prop where
  attempts : t.length ≤ protocolVersion - minProtocolVersion + 1
  client : ∀ client, result = .ok client →
    minProtocolVersion ≤ client.version ∧ ∃ version, Accepted protocolVersion t client version

/-- The attempt of one handshake, by what comes of it. -/
def Attempted (version : Nat) (t : List Attempt) : Except IoError (Except IoError Connected) → Prop
  | .error _ => ∃ x : Attempt, t = [x] ∧ x.client = none
  | .ok (.error _) => ∃ x : Attempt, t = [x] ∧ x.Refused version
  | .ok (.ok client) =>
    ∃ x : Attempt, t = [x] ∧ x.offer = some version ∧ x.client = some client ∧ client.version ≤ version

theorem handshake_ends (requested : ConnectionCapabilities) (scope : Option String) (version : Nat) :
    (handshake requested scope version).Ends (Attempted version) := by
  intro answer
  rcases answer with error | response
  · exact ⟨_, rfl, rfl⟩
  · cases response with
    | hello replied caps lease =>
      dsimp only
      split
      next hle => exact ⟨_, rfl, rfl, rfl, hle⟩
      next hnew =>
        refine ⟨_, rfl, rfl, rfl, fun client hc => ?_⟩
        cases hc
        exact Nat.lt_of_not_le hnew
    | _ => exact ⟨_, rfl, rfl, rfl, nofun⟩

/-- What the attempts from `newest` on come to: at most one for each version, a client
only from the last one, and a `Hello` that is too old only where it makes the client. -/
structure Tried (newest : Nat) (t : List Attempt) (result : Except IoError Connected) : Prop where
  attempts : t.length ≤ newest - minProtocolVersion + 1
  client : ∀ client, result = .ok client → ∃ version, Accepted newest t client version
  old : ∀ x ∈ t, x.TooOld → ∃ client, result = .ok client ∧ client.version < minProtocolVersion

theorem Attempt.Refused.not_tooOld {x : Attempt} {version : Nat} (h : x.Refused version)
    (hv : minProtocolVersion ≤ version) : ¬x.TooOld := by
  rintro ⟨client, hc, hold⟩
  have hnew := h.2.2 client hc
  omega

theorem Attempt.not_tooOld {x : Attempt} (h : x.client = none) : ¬x.TooOld := by
  rintro ⟨client, hc, -⟩
  rw [h] at hc
  cases hc

theorem tried_error {newest : Nat} {x : Attempt} (error : IoError) (hx : ¬x.TooOld) :
    Tried newest [x] (.error error) where
  attempts := by simp
  client := nofun
  old y hy hold := by
    rw [List.mem_singleton.mp hy] at hold
    exact absurd hold hx

theorem tried_client {newest : Nat} {x : Attempt} {client : Connected} (ho : x.offer = some newest)
    (hc : x.client = some client) (hle : client.version ≤ newest) : Tried newest [x] (.ok client) where
  attempts := by simp
  client c h := by
    cases h
    exact ⟨newest, ⟨[], x, rfl, ho, hc, fun newer hlt hle => absurd hle (Nat.not_le.mpr hlt)⟩, Nat.le_refl _, hle⟩
  old y hy hold := by
    obtain ⟨c, hc', hlt⟩ := hold
    rw [List.mem_singleton.mp hy, hc] at hc'
    cases hc'
    exact ⟨client, rfl, hlt⟩

/-- One refusal, and the attempts from the next older version on. -/
theorem Tried.cons {newest : Nat} {x : Attempt} {t : List Attempt} {result : Except IoError Connected}
    (h : Tried newest t result) (hx : x.Refused (newest + 1)) (hmin : minProtocolVersion ≤ newest) :
    Tried (newest + 1) (x :: t) result where
  attempts := by
    have := h.attempts
    simp only [List.length_cons]
    omega
  client c hc := by
    obtain ⟨version, ⟨refused, last, rfl, ho, hlast, hnewer⟩, holder, hwithin⟩ := h.client c hc
    refine ⟨version, ⟨x :: refused, last, rfl, ho, hlast, fun newer hlt hle => ?_⟩, Nat.le_succ_of_le holder, hwithin⟩
    rcases Nat.lt_or_eq_of_le hle with hlt' | rfl
    · obtain ⟨y, hy, hyr⟩ := hnewer newer hlt (Nat.le_of_lt_succ hlt')
      exact ⟨y, List.mem_cons_of_mem _ hy, hyr⟩
    · exact ⟨x, List.mem_cons_self, hx⟩
  old y hy hold := by
    rcases List.mem_cons.mp hy with rfl | hy
    · exact absurd hold (hx.not_tooOld (Nat.le_succ_of_le hmin))
    · exact h.old y hy hold

theorem connectInner_ends (requested : ConnectionCapabilities) (scope : Option String) (older : Nat) :
    (connectInner requested scope older).Ends (Tried (minProtocolVersion + older)) := by
  induction older with
  | zero =>
    refine Prog.Ends.bind ((handshake_ends requested scope minProtocolVersion).mono fun t r ht => ?_)
    rcases r with error | error | client
    · obtain ⟨x, rfl, hx⟩ := ht
      exact tried_error error (Attempt.not_tooOld hx)
    · obtain ⟨x, rfl, hx⟩ := ht
      exact tried_error error (hx.not_tooOld (Nat.le_refl _))
    · obtain ⟨x, rfl, ho, hc, hle⟩ := ht
      exact tried_client ho hc hle
  | succ older ih =>
    refine Prog.Ends.bind ((handshake_ends requested scope _).mono fun t r ht => ?_)
    rcases r with error | error | client
    · obtain ⟨x, rfl, hx⟩ := ht
      exact tried_error error (Attempt.not_tooOld hx)
    · obtain ⟨x, rfl, hx⟩ := ht
      exact ih.mono fun t r h => h.cons hx (Nat.le_add_right _ _)
    · obtain ⟨x, rfl, ho, hc, hle⟩ := ht
      exact tried_client ho hc hle

theorem Tried.negotiated_iff {t : List Attempt} {result : Except IoError Connected}
    (h : Tried protocolVersion t result) : Negotiated t result ↔ ∀ x ∈ t, ¬x.TooOld := by
  constructor
  · intro hn x hx hold
    obtain ⟨client, hc, hlt⟩ := h.old x hx hold
    exact absurd (hn.client client hc).1 (Nat.not_le.mpr hlt)
  · intro hnone
    refine ⟨h.attempts, fun client hc => ?_⟩
    obtain ⟨version, hacc⟩ := h.client client hc
    refine ⟨Nat.le_of_not_lt fun hlt => ?_, version, hacc⟩
    obtain ⟨refused, x, ht, -, hx, -⟩ := hacc.last
    exact hnone x (by simp [ht]) ⟨client, hx, hlt⟩

/-- Whatever the server answers, the version is negotiated within the range exactly if no
attempt is answered with a `Hello` older than the range. -/
theorem connectInner_negotiates_iff (requested : ConnectionCapabilities) (scope : Option String) :
    (connectInner requested scope (protocolVersion - minProtocolVersion)).Ends fun t result =>
      Negotiated t result ↔ ∀ x ∈ t, ¬Attempt.TooOld x :=
  (connectInner_ends requested scope _).mono fun _ _ h => h.negotiated_iff

/-- A server that answers the first offer with version 7. -/
theorem connectInner_accepts_seven :
    ¬(connectInner portalCapabilities none (protocolVersion - minProtocolVersion)).Ends Negotiated := by
  intro h
  have hseven := h (.ok (.hello 7 portalCapabilities none))
  exact absurd (hseven.client _ rfl).1 (by decide)

end AtriumPortal.Ipc.Capture
