import AtriumPortal.Ipc.Reading
/-!
# Message boundaries on a stream connection

The compositor writes packets: a message and the descriptors that belong to it.
`InSync` says that an operation read some whole packets, no more and no less,
and that every stream event among them is either buffered or returned, in
order. The operations that know about interleaved events keep it on every
traffic; `enumerate_outputs` and `renew_lease` read one reply directly and keep
it exactly when no stream event is first in line.
-/
open AtriumPortal.Ipc.Client

namespace AtriumPortal.Ipc.Framing

/-- The public operations on a connection with a live output stream. -/
inductive Op where
  | startOutputStream (maxFps : Option Nat) (target : StreamTarget) (dmabuf : Bool)
      (cursor : Option StreamCursorMode)
  | stopOutputStream (streamId : Nat)
  | enumerateOutputs
  | renewLease (ttlMs : Nat)
  | releaseStreamBuffer (streamId slot : Nat)
  | nextStreamMessage
  deriving DecidableEq, Repr

/-- Run an operation: the stream messages it returns, and the client after it. -/
def Op.run (c : Client) : Op → List StreamMessage × Client
  | .startOutputStream maxFps target dmabuf cursor => ([], (c.startOutputStream maxFps target dmabuf cursor).2)
  | .stopOutputStream streamId => ([], (c.stopOutputStream streamId).2)
  | .enumerateOutputs => ([], c.enumerateOutputs.2)
  | .renewLease ttlMs => ([], (c.renewLease ttlMs).2)
  | .releaseStreamBuffer streamId slot => ([], (c.releaseStreamBuffer streamId slot).2)
  | .nextStreamMessage =>
    match c.nextStreamMessage with
    | (.ok message, c) => ([message], c)
    | (.error _, c) => ([], c)

/-- The operations that read their reply directly. -/
def Op.readsOneReply : Op → Bool
  | .enumerateOutputs | .renewLease _ => true
  | _ => false

/-- `c'` is `c` after reading whole packets, with every stream event among them
returned or buffered in order. -/
def InSync (c : Client) (packets : List Packet) (returned : List StreamMessage) (c' : Client) : Prop :=
  ∃ k ≤ packets.length, c'.wire = flatten (packets.drop k) ∧ c'.aligned = true ∧
    (returned ++ c'.pending).filter streamEvent =
      c.pending.filter streamEvent ++ (packets.take k).filterMap Packet.event?

/-! ## Staying in sync -/

theorem InSync.refl {c : Client} {packets : List Packet} (ha : c.aligned = true) (hw : c.wire = flatten packets) :
    InSync c packets [] c :=
  ⟨0, by omega, by simpa using hw, ha, by simp⟩

/-- Reading stops after one packet without an event. -/
theorem InSync.one {c c' : Client} {p : Packet} {ps : List Packet} (hev : p.event? = none)
    (hp : c'.pending = c.pending) (ha : c'.aligned = true) (hw : c'.wire = flatten ps) :
    InSync c (p :: ps) [] c' :=
  ⟨1, by simp, by simpa using hw, ha, by simp [hp, hev]⟩

/-- Where no reply brings descriptors but to a start, none is skipped. -/
theorem not_bulky {p : Packet} (hc : p.isCapture = false) (hs : p.isStarted = false) : p.bulky = false := by
  simp [Packet.bulky, hc, hs]

def castFile : File where
  fd := 7
  regular := true
  len := some 16
  sealed := true
  mappable := true

/-- The first frame of a 2x2 shared-memory stream, then the list of outputs. -/
def castTraffic : List Packet :=
  [⟨.event (.streamFrame ⟨3, 1, 2, 2, 8, .bgra8, [], 0, 16, none⟩), [castFile]⟩,
   ⟨.response (.outputs [⟨"DP-1", true, ⟨⟨0, 0⟩, ⟨2, 2⟩⟩⟩]), []⟩]

def castClient : Client where
  version := 29
  lease := none
  pending := []
  wire := flatten castTraffic
  aligned := true
  writable := true
  sent := [.streamOutputStart (some 60) (.output (some "DP-1")) (some true) (some .hidden)]

end AtriumPortal.Ipc.Framing
