import AtriumPortal.Ipc.Capture
import AtriumPortal.Lib.Runs
/-!
# Replies and requests

Whether what an operation of `PortalCapture` returns answers the operation's own
request. It does while no operation starts on a connection that an earlier one
left with a reply outstanding.
-/
open AtriumPortal.Lib.Interact AtriumPortal.Lib.Runs

namespace AtriumPortal.Ipc.Capture

/-- Nothing is outstanding on the connection. -/
structure Link.Clean (l : Link) : Prop where
  owed : l.owed = []
  torn : l.torn = false
  blob : l.blob = false

instance (l : Link) : Decidable l.Clean :=
  decidable_of_iff (l.owed = [] ∧ l.torn = false ∧ l.blob = false)
    ⟨fun ⟨ho, ht, hb⟩ => ⟨ho, ht, hb⟩, fun h => ⟨h.owed, h.torn, h.blob⟩⟩

/-- A reply answers the request of whoever returns it. -/
def Answered.Paired {α : Type} (a : Answered α) : Prop := a.reply = some a.request

/-! ## One request -/

/-- On a clean connection a request returns its own reply; with a capture reply
its pixels are still to come. -/
theorem roundTrip_paired {α : Type} (request : Request) (expected : String) (decode : Response → Option α) {l : Link}
    (hl : l.Clean) :
    wire.Must (roundTrip request expected decode) l fun _ l' result => ∀ a, result = .ok a →
      a.Paired ∧ l'.owed = [] ∧ l'.torn = false ∧
        ∃ response, decode response = some a.value ∧ l'.blob = isCapture response := by
  obtain ⟨owed, torn, blob, next⟩ := l
  obtain ⟨rfl, rfl, rfl⟩ : owed = [] ∧ torn = false ∧ blob = false := ⟨hl.owed, hl.torn, hl.blob⟩
  refine Machine.Must.ask_alone fun number => ?_
  cases number with
  | error error => exact fun a h => nomatch h
  | ok number =>
    refine Machine.Must.ask_alone fun read => ?_
    cases read with
    | error e =>
      cases e <;> exact fun a h => nomatch h
    | reply answers response =>
      simp only [wire, Bool.or_self, Bool.false_eq_true, if_false, List.nil_append]
      cases hd : decode response with
      | some value =>
        rintro a ⟨⟩
        exact ⟨rfl, rfl, rfl, response, hd, rfl⟩
      | none =>
        cases response <;> exact fun a h => nomatch h

/-- On a clean connection the request returns its own reply, and leaves the connection clean. -/
def Sound {α : Type} (request : Work (Except IoError (Answered α))) : Prop :=
  ∀ l : Link, l.Clean → wire.Must request l fun _ l' result => ∀ a, result = .ok a → a.Paired ∧ l'.Clean

theorem roundTrip_sound {α : Type} (request : Request) (expected : String) {decode : Response → Option α}
    (hd : ∀ response value, decode response = some value → isCapture response = false) :
    Sound (roundTrip request expected decode) := by
  intro l hl
  refine (roundTrip_paired request expected decode hl).mono fun _ l' result h a ha => ?_
  obtain ⟨hpaired, howed, htorn, response, hvalue, hblob⟩ := h a ha
  exact ⟨hpaired, howed, htorn, hblob.trans (hd response _ hvalue)⟩

theorem renewLease_sound (ttlMs : Nat) : Sound (renewLease ttlMs) :=
  roundTrip_sound _ _ fun response _ h => by cases response <;> first | rfl | cases h

theorem enumerateOutputs_sound : Sound enumerateOutputs :=
  roundTrip_sound _ _ fun response _ h => by cases response <;> first | rfl | cases h

theorem pickTarget_sound (kind : PickKind) : Sound (pickTarget kind) :=
  roundTrip_sound _ _ fun response _ h => by cases response <;> first | rfl | cases h

theorem pickConfirm_sound (title body : String) (acceptLabel : Option String) :
    Sound (pickConfirm title body acceptLabel) :=
  roundTrip_sound _ _ fun response _ h => by cases response <;> first | rfl | cases h

/-- The pixels are read off as well. -/
theorem captureOutputRegion_sound (region : Option Rect) : Sound (captureOutputRegion region) := by
  intro l hl
  refine Machine.Must.bind ((roundTrip_paired _ _ _ hl).mono fun _ l' result h => ?_)
  rcases result with error | ⟨⟨width, height, pngBytes⟩, request, reply⟩
  · exact fun a ha => nomatch ha
  · obtain ⟨hpaired, howed, htorn, -⟩ := h _ rfl
    refine Machine.Must.ask_alone fun png => ?_
    cases png with
    | error error => exact fun a ha => nomatch ha
    | ok png =>
      rintro a ⟨⟩
      exact ⟨hpaired, howed, htorn, rfl⟩

/-! ## Connecting -/

/-- A handshake leaves a connection clean that was not used before. -/
theorem handshake_clean (requested : ConnectionCapabilities) (scope : Option String) (version : Nat) (l : Link) :
    wire.Must (handshake requested scope version) l fun _ l' result => ∀ client, result = .ok (.ok client) → l'.Clean := by
  refine Machine.Must.ask_alone fun greeted => ?_
  rcases greeted with error | response
  · exact fun client h => nomatch h
  · cases response with
    | hello replied caps lease =>
      simp only [wire]
      split
      · exact fun client _ => ⟨rfl, rfl, rfl⟩
      · exact fun client h => nomatch h
    | _ => exact fun client h => nomatch h

theorem connectInner_clean (requested : ConnectionCapabilities) (scope : Option String) (older : Nat) (l : Link) :
    wire.Must (connectInner requested scope older) l fun _ l' result => ∀ client, result = .ok client → l'.Clean := by
  induction older generalizing l with
  | zero =>
    refine Machine.Must.bind ((handshake_clean requested scope _ l).mono fun _ l' result h => ?_)
    rcases result with error | error | client
    · exact fun client h => nomatch h
    · exact fun client h => nomatch h
    · exact fun _ _ => h client rfl
  | succ older ih =>
    refine Machine.Must.bind ((handshake_clean requested scope _ l).mono fun _ l' result h => ?_)
    rcases result with error | error | client
    · exact fun client h => nomatch h
    · exact ih l'
    · exact fun _ _ => h client rfl

theorem connectCompositor_clean (l : Link) :
    wire.Must connectCompositor l fun _ l' result => ∀ client, result = .ok client → l'.Clean := by
  refine Machine.Must.bind ((connectInner_clean _ _ _ l).mono fun _ l' result h => ?_)
  cases result with
  | error error => exact fun client h => nomatch h
  | ok client =>
    dsimp only
    split
    · exact fun client h => nomatch h
    · refine Machine.Must.ask_alone fun set => ?_
      cases set with
      | error error => exact fun client h => nomatch h
      | ok => exact fun _ _ => h client rfl

/-! ## Operations -/

/-- No client, or one whose connection is clean. -/
def Usable (c : PortalCapture) (l : Link) : Prop := c.client = none ∨ l.Clean

namespace PortalCapture

theorem connected_clean {c : PortalCapture} {l : Link} (h : Usable c l) :
    wire.Must (connected c) l fun _ l' result => ∀ client, result.1 = .ok client → l'.Clean := by
  obtain ⟨_ | client⟩ := c
  · refine Machine.Must.bind ((connectCompositor_clean l).mono fun _ l' result h => ?_)
    cases result with
    | error error => exact fun client h => nomatch h
    | ok client => exact fun _ _ => h client rfl
  · exact fun _ _ => h.resolve_left (by simp)

theorem getClient_clean {c : PortalCapture} {l : Link} (h : Usable c l) :
    wire.Must c.getClient l fun _ l' result => ∀ client, result.1 = .ok client → l'.Clean := by
  unfold getClient
  split
  · exact connected_clean h
  · next client hc =>
    have hl : l.Clean := h.resolve_left (by simp [hc])
    refine Machine.Must.ask_alone fun set => ?_
    cases set with
    | error error => exact fun client h => nomatch h
    | ok =>
      refine Machine.Must.ask_alone fun aged => ?_
      cases aged with
      | false => exact connected_clean h
      | true =>
        -- A renewal that fails drops the connection, and with it what it owes.
        refine Machine.Must.bind ((renewLease_sound _ l hl).mono fun _ l' result hr => ?_)
        cases result with
        | error error => exact connected_clean (.inl rfl)
        | ok lease => exact connected_clean (.inr (hr lease rfl).2)

/-- What the operation returns answers its own request. -/
def Pairs {α : Type} (result : Outcome (Answered α)) : Prop := ∀ a, result.1 = .ok a → a.Paired

theorem withClient_must {α : Type} {P : Outcome α → Prop} (herror : ∀ error c, P (.error error, c)) {c : PortalCapture}
    {l : Link} (h : Usable c l) {next : Connected → PortalCapture → Work (Outcome α)}
    (hnext : ∀ client c l, l.Clean → wire.Must (next client c) l fun _ _ result => P result) :
    wire.Must (c.withClient next) l fun _ _ result => P result := by
  refine Machine.Must.bind ((getClient_clean h).mono fun _ l' result hc => ?_)
  rcases result with ⟨error | client, c⟩
  · exact herror error c
  · exact hnext client c l' (hc client rfl)

theorem retried_pairs {α : Type} {request : Work (Except IoError (Answered α))} (hs : Sound request) {c : PortalCapture}
    {l : Link} (h : Usable c l) : wire.Must (c.retried request) l fun _ _ result => Pairs result := by
  refine withClient_must (fun _ _ _ h => nomatch h) h fun _ c l hl => ?_
  refine Machine.Must.bind ((hs l hl).mono fun _ l' result hr => ?_)
  cases result with
  | ok value => exact fun a ha => (hr a ha).1
  | error error =>
    refine withClient_must (fun _ _ _ h => nomatch h) (.inl rfl) fun _ c l hl => ?_
    exact Machine.Must.bind ((hs l hl).mono fun _ _ result hr a ha => (hr a ha).1)

theorem interactive_pairs {α : Type} {request : Work (Except IoError (Answered α))} (hs : Sound request)
    {c : PortalCapture} {l : Link} (h : Usable c l) :
    wire.Must (c.interactive request) l fun _ _ result => Pairs result := by
  refine withClient_must (fun _ _ _ h => nomatch h) h fun _ c l hl => ?_
  refine Machine.Must.ask_alone fun set => ?_
  cases set with
  | error error => exact fun _ h => nomatch h
  | ok => exact Machine.Must.bind ((hs l hl).mono fun _ _ result hr a ha => (hr a ha).1)

end PortalCapture

/-- What an operation returns is its own: it answers its own request, or comes from no reply. -/
def Own : Except IoError Returned → Prop
  | .ok (.replied answered) => answered.Paired
  | _ => True

theorem replied_own {α : Type} {f : α → Value} {work : Work (Outcome (Answered α))} {l : Link}
    (h : wire.Must work l fun _ _ result => PortalCapture.Pairs result) :
    wire.Must (replied f work) l fun _ _ result => Own result.1 := by
  refine Machine.Must.bind (h.mono fun _ _ result hr => ?_)
  rcases result with ⟨error | answered, c⟩
  · trivial
  · exact hr answered rfl

/-- An operation that starts on a usable connection returns its own reply. -/
theorem run_own {c : PortalCapture} {l : Link} (h : Usable c l) (op : Op) :
    wire.Must (op.run c) l fun _ _ result => Own result.1 := by
  cases op with
  | protocolVersion =>
    exact PortalCapture.withClient_must (P := fun result => Own result.1) (fun _ _ => trivial) h fun _ _ _ _ => trivial
  | enumerateOutputs => exact replied_own (PortalCapture.retried_pairs enumerateOutputs_sound h)
  | pick kind => exact replied_own (PortalCapture.interactive_pairs (pickTarget_sound kind) h)
  | pickConfirm title body acceptLabel =>
    exact replied_own (PortalCapture.interactive_pairs (pickConfirm_sound title body acceptLabel) h)
  | capturePng => exact replied_own (PortalCapture.retried_pairs (captureOutputRegion_sound none) h)
  | captureRegionPng region => exact replied_own (PortalCapture.retried_pairs (captureOutputRegion_sound (some region)) h)

/-! ## Runs -/

/-- One `PortalCapture`, its connection, and what its operations returned. -/
structure Session where
  capture : PortalCapture
  link : Link
  returned : List (Op × Except IoError Returned)
  deriving DecidableEq

namespace Session

def init : Session := ⟨.new, ⟨[], false, false, 0⟩, []⟩

/-- An operation, with everything that happens on the socket meanwhile. -/
abbrev Label : Type := Op × Env Empty Action Action.Answer

def step (s : Session) (l : Label) : Option Session :=
  let ran := wire.exec l.2 0 s.link (l.1.run s.capture)
  some ⟨ran.result.2, ran.state, s.returned ++ [(l.1, ran.result.1)]⟩

/-- The operation starts without a connection, or on one with nothing outstanding. -/
def Guard (s : Session) (_ : Label) : Prop := s.capture.client = none ∨ s.link.Clean

instance (s : Session) (l : Label) : Decidable (s.Guard l) :=
  inferInstanceAs (Decidable (_ ∨ _))

/-- While no operation starts on a connection with something outstanding, every
operation returns the reply to its own request. -/
theorem replies_paired {s : Session} (h : Reach (· = init) (Guarded Guard step) s) : ∀ x ∈ s.returned, Own x.2 := by
  refine h.inv_guarded (I := fun s => ∀ x ∈ s.returned, Own x.2) ?_ ?_
  · rintro s rfl x hx
    cases hx
  · intro s l s' hs hg hstep
    cases hstep
    intro x hx
    rcases List.mem_append.1 hx with hx | hx
    · exact hs x hx
    · obtain rfl := List.mem_singleton.1 hx
      exact (run_own hg l.1).run l.2 0

/-! ## Two questions on one connection -/

/-- A compositor that grants a lease; `read` is what the operation's reads meet. -/
def talks (read : Read) : Env Empty Action Action.Answer where
  moves _ := []
  answer _
    | .greet _ => .ok (.hello 29 portalCapabilities (some ⟨1, leaseTtlMs, true⟩))
    | .setIoTimeout => .ok ()
    | .leaseAged => false
    | .write _ => .ok 0
    | .read => read
    | .receiveBlob _ => .ok []

def first : Op := .pickConfirm "Share Your Screen" "Allow a to record output DP-1?" (some "Share")
def second : Op := .pickConfirm "Share Your Screen" "Allow b to record the entire desktop?" (some "Share")

/-- The first question times out, and the user's late consent to it is taken as consent to the second. -/
theorem late_confirm_returned :
    (exec step init [(first, talks (.error .timedOut)), (second, talks (.reply none (.confirmPicked .confirmed)))]).map
      (·.returned) =
      some [(first, .error .timedOut), (second, .ok (.replied ⟨.confirmPicked .confirmed, 1, some 0⟩))] := by
  decide +kernel

/-- Both questions answered in time. -/
def answeredInTime : Session :=
  (exec (Guarded Guard step) init [(first, talks (.reply none (.confirmPicked .cancelled))),
    (second, talks (.reply none (.confirmPicked .confirmed)))]).getD init

theorem answeredInTime_paired :
    (second, .ok (.replied ⟨.confirmPicked .confirmed, 1, some 1⟩)) ∈ answeredInTime.returned ∧
      Own (.ok (.replied ⟨.confirmPicked .confirmed, 1, some 1⟩)) := by
  have hrun : exec (Guarded Guard step) init [(first, talks (.reply none (.confirmPicked .cancelled))),
      (second, talks (.reply none (.confirmPicked .confirmed)))] = some answeredInTime := by decide +kernel
  have hmem : (second, .ok (.replied ⟨.confirmPicked .confirmed, 1, some 1⟩)) ∈ answeredInTime.returned := by
    decide +kernel
  exact ⟨hmem, replies_paired (Reach.exec (.init rfl) hrun) _ hmem⟩

end Session

end AtriumPortal.Ipc.Capture
