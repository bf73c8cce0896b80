import AtriumPortal.Screenshot.Jobs
/-!
# What the capture client asks the compositor

Before a request the client may connect or renew its lease; then it writes the
request and reads the reply, and a capture may do all of this once more. So a
picked region stands in the trace right behind its request, and only a capture
asks for pixels.
-/
open AtriumPortal.Lib.Interact

namespace AtriumPortal.Ipc.Capture

abbrev Trace : Type := List (Sigma Action.Answer)

/-- Not a request of the caller: connecting, renewing the lease, reading. -/
def Preparing : Action → Prop
  | .write request => ∃ ttlMs, request = .renewLease ttlMs
  | _ => True

/-- The trace prepares, and writes this request and no other. -/
def Asking (request : Request) (a : Action) : Prop := Preparing a ∨ a = .write request

theorem Preparing.asking {request : Request} {a : Action} (h : Preparing a) : Asking request a := .inl h

theorem roundTrip_uses {α : Type} (request : Request) (expected : String) (decode : Response → Option α)
    {P : Action → Prop}
    (hwrite : P (.write request)) (hread : P .read) : (roundTrip request expected decode).Uses P := by
  refine ⟨hwrite, fun number => ?_⟩
  cases number with
  | error error => trivial
  | ok number =>
    refine ⟨hread, fun read => ?_⟩
    cases read with
    | error error => trivial
    | reply answers response =>
      simp only
      split <;> trivial

/-- The value of a round trip stands in the reply right behind the request. -/
theorem roundTrip_ends {α : Type} (request : Request) (expected : String) (decode : Response → Option α) :
    (roundTrip request expected decode).Ends fun t r => ∀ a, r = .ok a →
      ∃ response, t = [⟨.write request, .ok a.request⟩, ⟨.read, .reply a.reply response⟩] ∧
        decode response = some a.value := by
  intro number
  cases number with
  | error error => exact nofun
  | ok number =>
    intro read
    cases read with
    | error error => exact nofun
    | reply answers response =>
      cases hd : decode response with
      | some value =>
        simp only [hd]
        rintro a ⟨⟩
        exact ⟨response, rfl, hd⟩
      | none =>
        simp only [hd]
        cases response <;> exact nofun

/-! ## Connecting -/

theorem connectInner_uses (requested : ConnectionCapabilities) (scope : Option String) (older : Nat) :
    (connectInner requested scope older).Uses Preparing := by
  have hhandshake : ∀ version, (handshake requested scope version).Uses Preparing := by
    refine fun version => ⟨trivial, fun greeted => ?_⟩
    rcases greeted with error | response
    · trivial
    · cases response <;> simp only <;> (try split) <;> trivial
  induction older with
  | zero =>
    refine (hhandshake _).bind fun r => ?_
    rcases r with error | error | client <;> trivial
  | succ older ih =>
    refine (hhandshake _).bind fun r => ?_
    rcases r with error | error | client
    · trivial
    · exact ih
    · trivial

theorem connectCompositor_uses : connectCompositor.Uses Preparing := by
  refine (connectInner_uses _ _ _).bind fun r => ?_
  rcases r with error | client
  · trivial
  · simp only
    split
    · trivial
    · refine ⟨trivial, fun answer => ?_⟩
      cases answer <;> trivial

namespace PortalCapture

theorem connected_uses (c : PortalCapture) : c.connected.Uses Preparing := by
  rcases c with ⟨client | client⟩
  · refine connectCompositor_uses.bind fun r => ?_
    cases r <;> trivial
  · trivial

theorem getClient_uses (c : PortalCapture) : c.getClient.Uses Preparing := by
  unfold getClient
  cases c.client with
  | none => exact connected_uses c
  | some client =>
    refine ⟨trivial, fun answer => ?_⟩
    cases answer with
    | error error => trivial
    | ok _ =>
      refine ⟨trivial, fun aged => ?_⟩
      cases aged with
      | false => exact connected_uses c
      | true =>
        refine Prog.Uses.bind (roundTrip_uses _ _ _ ⟨_, rfl⟩ trivial) fun r => ?_
        cases r <;> exact connected_uses _

variable {α : Type}

theorem withClient_uses (c : PortalCapture) {next : Connected → PortalCapture → Work (Outcome α)} {P : Action → Prop}
    (hprepare : ∀ a, Preparing a → P a) (h : ∀ client c, (next client c).Uses P) : (c.withClient next).Uses P := by
  refine ((getClient_uses c).mono hprepare).bind fun r => ?_
  rcases r with ⟨error | client, c⟩
  · trivial
  · exact h client c

theorem retried_uses (c : PortalCapture) {request : Work (Except IoError α)} {P : Action → Prop}
    (hprepare : ∀ a, Preparing a → P a) (h : request.Uses P) : (c.retried request).Uses P := by
  refine withClient_uses c hprepare fun client c => h.bind fun r => ?_
  cases r with
  | ok value => trivial
  | error error => exact withClient_uses _ hprepare fun client c => h.bind fun r => trivial

theorem interactive_uses (c : PortalCapture) {request : Work (Except IoError α)} {P : Action → Prop}
    (hprepare : ∀ a, Preparing a → P a) (h : request.Uses P) : (c.interactive request).Uses P := by
  refine withClient_uses c hprepare fun client c => ⟨hprepare _ trivial, fun answer => ?_⟩
  cases answer with
  | error error => trivial
  | ok _ => exact h.bind fun r => trivial

/-- An interactive request comes after the preparation, and its result is returned. -/
theorem interactive_ends (c : PortalCapture) {request : Work (Except IoError α)} {Q : Trace → Except IoError α → Prop}
    (h : request.Ends Q) :
    (c.interactive request).Ends fun t r => ∀ a, r.1 = .ok a → ∃ t₀ t₁, t = t₀ ++ t₁ ∧ (∀ x ∈ t₀, Preparing x.1) ∧
      Q t₁ (.ok a) := by
  refine Prog.Ends.bind ((getClient_uses c).ends.mono fun t₀ r ht₀ => ?_)
  rcases r with ⟨error | client, c⟩
  · exact nofun
  · intro answer
    cases answer with
    | error error => exact nofun
    | ok _ =>
      refine Prog.Ends.bind (h.mono fun t₁ r hq => ?_)
      rintro a ⟨⟩
      refine ⟨t₀ ++ [⟨.setIoTimeout, .ok ()⟩], t₁, by simp, fun x hx => ?_, hq⟩
      rcases List.mem_append.1 hx with hx | hx
      · exact ht₀ x hx
      · cases List.mem_singleton.1 hx
        trivial

end PortalCapture

/-! ## The operations of a screenshot -/

theorem replied_uses {α : Type} {f : α → Value} {work : Work (Outcome (Answered α))} {P : Action → Prop}
    (h : work.Uses P) :
    (replied f work).Uses P := by
  refine h.bind fun r => ?_
  rcases r with ⟨error | ⟨value, request, reply⟩, c⟩ <;> trivial

/-- The picked target is the reply to the pick, the last request of the operation. -/
theorem pick_ends (kind : PickKind) (c : PortalCapture) :
    (Op.run c (.pick kind)).Ends fun t r => ∀ returned, r.1 = .ok returned → ∃ t₀ v n who,
      returned = .replied ⟨.picked v, n, who⟩ ∧ (∀ x ∈ t₀, Preparing x.1) ∧
        t = t₀ ++ [⟨.write (.pickTarget kind), .ok n⟩, ⟨.read, .reply who (.picked v)⟩] := by
  refine Prog.Ends.bind ((PortalCapture.interactive_ends c (roundTrip_ends _ _ _)).mono fun t r h => ?_)
  rcases r with ⟨error | ⟨v, n, who⟩, c⟩
  · exact nofun
  · rintro _ ⟨⟩
    obtain ⟨t₀, t₁, rfl, ht₀, hq⟩ := h _ rfl
    obtain ⟨response, rfl, hd⟩ := hq _ rfl
    obtain rfl : response = .picked v := by cases response <;> cases hd; rfl
    exact ⟨t₀, v, n, who, rfl, ht₀, by simp⟩

/-- The confirmation is the reply to the request, the last one of the operation. -/
theorem pickConfirm_ends (title body : String) (acceptLabel : Option String) (c : PortalCapture) :
    (Op.run c (.pickConfirm title body acceptLabel)).Ends fun t r => ∀ returned, r.1 = .ok returned → ∃ t₀ v n who,
      returned = .replied ⟨.confirmPicked v, n, who⟩ ∧
        t = t₀ ++ [⟨.write (.pickConfirm title body acceptLabel), .ok n⟩, ⟨.read, .reply who (.confirmPicked v)⟩] := by
  refine Prog.Ends.bind ((PortalCapture.interactive_ends c (roundTrip_ends _ _ _)).mono fun t r h => ?_)
  rcases r with ⟨error | ⟨v, n, who⟩, c⟩
  · exact nofun
  · rintro _ ⟨⟩
    obtain ⟨t₀, t₁, rfl, ht₀, hq⟩ := h _ rfl
    obtain ⟨response, rfl, hd⟩ := hq _ rfl
    obtain rfl : response = .confirmPicked v := by cases response <;> cases hd; rfl
    exact ⟨t₀, v, n, who, rfl, by simp⟩

theorem pick_uses (kind : PickKind) (c : PortalCapture) : (Op.run c (.pick kind)).Uses (Asking (.pickTarget kind)) :=
  replied_uses <| PortalCapture.interactive_uses c (fun _ h => h.asking) <|
    roundTrip_uses _ _ _ (.inr rfl) (.inl trivial)

theorem pickConfirm_uses (title body : String) (acceptLabel : Option String) (c : PortalCapture) :
    (Op.run c (.pickConfirm title body acceptLabel)).Uses (Asking (.pickConfirm title body acceptLabel)) :=
  replied_uses <| PortalCapture.interactive_uses c (fun _ h => h.asking) <|
    roundTrip_uses _ _ _ (.inr rfl) (.inl trivial)

/-- The first try and the retry ask for the pixels of the same region. -/
theorem capture_uses (region : Option Rect) (c : PortalCapture) :
    (Op.run c (region.elim .capturePng .captureRegionPng)).Uses (Asking (.captureOutput region)) := by
  have hrequest : (captureOutputRegion region).Uses (Asking (.captureOutput region)) := by
    refine Prog.Uses.bind (roundTrip_uses _ _ _ (.inr rfl) (.inl trivial)) fun r => ?_
    rcases r with error | ⟨⟨width, height, pngBytes⟩, request, reply⟩
    · trivial
    · refine ⟨.inl trivial, fun png => ?_⟩
      cases png <;> trivial
  cases region with
  | none => exact replied_uses (PortalCapture.retried_uses c (fun _ h => h.asking) hrequest)
  | some region => exact replied_uses (PortalCapture.retried_uses c (fun _ h => h.asking) hrequest)

end AtriumPortal.Ipc.Capture
