import AtriumPortal.Lib.Pipe
import AtriumPortal.Lib.Runs
import AtriumPortal.Prompter.Answer
/-!
# Supervising a prompter

`invoke_raw` of `prompter.rs` from the spawn on: the request is written to the child, one thread
reads the output and one keeps the end of the diagnostics, and the wait polls for a Close and for
the exit. On the other side are the child and what it starts, which inherits its descriptors.
`invoked`: whatever the order, who returns has reaped the child, and passes on what was written.
`returns`: after a Close or the child's end the portal takes a bounded number of steps, and then
it has returned or waits for somebody to close a pipe.
-/
open AtriumPortal.Lib AtriumPortal.Lib.Runs
open AtriumPortal.Lib.Path (Bytes)

namespace AtriumPortal.Prompter.Supervision

inductive Fd where
  | stdin
  | stdout
  | stderr
  deriving DecidableEq

/-- Which of the standard descriptors a process has open. -/
abbrev Ends : Type := Fd → Bool

inductive Child where
  | running (ends : Ends)
  | exited (status : ExitStatus) (reaped : Bool)
  | killed (reaped : Bool)

namespace Child

def ends : Child → Option Ends
  | .running ends => some ends
  | _ => none

def reaped : Child → Bool
  | .running _ => false
  | .exited _ reaped => reaped
  | .killed reaped => reaped

/-- Nothing is done to a process that has ended. -/
def kill : Child → Child
  | .running _ => .killed false
  | child => child

/-- `wait` and `try_wait`: the status of a child that has ended, which reaps it. -/
def wait : Child → Option (ExitStatus × Child)
  | .running _ => none
  | .exited status _ => some (status, .exited status true)
  | .killed _ => some (⟨none, "signal: 9 (SIGKILL)"⟩, .killed true)

end Child

/-- The thread that reads the output. -/
inductive Reader where
  | unspawned
  | reading (bytes : Bytes)
  | ended (bytes : Bytes)
  | failed (error : String)
  | panicked

/-- What joining it returns, once it is over. -/
def Reader.join : Reader → Option (Option (Except String Bytes))
  | .ended bytes => some (some (.ok bytes))
  | .failed error => some (some (.error error))
  | .panicked => some none
  | .unspawned => none
  | .reading _ => none

/-- The thread of `spawn_stderr_tail`. -/
inductive Tailer where
  | reading (tail : Bytes)
  | ended (tail : Bytes)
  /-- A read error ends it too. -/
  | failed (tail : Bytes)
  | panicked

def Tailer.join : Tailer → Option (Option Bytes)
  | .ended tail => some (some tail)
  | .failed tail => some (some tail)
  | .panicked => some none
  | .reading _ => none

inductive Outcome where
  | aborted (error : InvokeError)
  | answered (status : ExitStatus) (tail : Option Bytes) (stdout : Option (Except String Bytes))

/-- What `invoke_raw` returns; `none` is a panic. -/
def Outcome.result (decode : Decode) (debug : List Char → String) :
    Outcome → Option (Except InvokeError PromptResult)
  | .aborted error => some (.error error)
  | .answered status tail stdout => Prompter.answered decode debug status tail stdout

/-- Where `invoke_raw` is. -/
inductive Phase where
  | sending (rest : Bytes)
  /-- `cancelled()`. -/
  | looking
  /-- `try_wait`. -/
  | waiting
  | napping
  /-- `terminate`. -/
  | killing (error : InvokeError)
  | reaping (error : InvokeError)
  | joiningReader (error : InvokeError)
  | joiningTail (error : InvokeError)
  /-- The child has ended, and its output is not joined yet. -/
  | exited (status : ExitStatus)
  | read (status : ExitStatus) (bytes : Bytes)
  | returned (outcome : Outcome)

structure State (capacity : Nat) where
  phase : Phase
  reader : Reader
  tailer : Tailer
  child : Child
  /-- The processes that the child started, with what they have open. -/
  helpers : List Ends
  stdin : Pipe UInt8 capacity
  stdout : Pipe UInt8 capacity
  stderr : Pipe UInt8 capacity
  /-- What the tracker answers. -/
  closed : Bool

inductive Label where
  /-- A step of `invoke_raw`, which writes `n` bytes of the request, or of one of its threads, which reads them. -/
  | main (n : Nat)
  | reader (n : Nat)
  | tailer (n : Nat)
  | sendFails (error : String)
  | waitFails (error : String)
  | readFails (error : String)
  | readerPanics
  | tailFails
  | tailerPanics
  | tracker (closed : Bool)
  /-- What the child does, or one of its helpers. -/
  | forks (who : Option Nat)
  | closes (who : Option Nat) (fd : Fd)
  | reads (who : Option Nat) (n : Nat)
  | writes (who : Option Nat) (fd : Fd) (bytes : Bytes)
  | exits (status : ExitStatus)

/-- `STDERR_TAIL_BYTES`. -/
def stderrTailBytes : Nat := 2048

/-- How `EPIPE` reads. -/
def brokenPipe : String := "Broken pipe (os error 32)"

variable {capacity : Nat}

namespace State

/-- Somebody on the other side has the descriptor open. -/
def holds (s : State capacity) (fd : Fd) : Bool := s.child.ends.any (· fd) || s.helpers.any (· fd)

/-! ## The portal's side -/

/-- `drop(stdin)`, and the reader is spawned. -/
def sent (s : State capacity) : State capacity := { s with phase := .looking, reader := .reading [] }

/-- A child that closed its input is left to the wait. -/
def unsent (s : State capacity) (error : String) : State capacity :=
  if isBrokenPipe error then s.sent
  else { s with phase := .killing (.failed s!"could not send prompter request: {error}") }

def send (s : State capacity) (rest : Bytes) (n : Nat) : Option (State capacity) :=
  if rest = [] then some s.sent
  else if !s.holds .stdin then some (s.unsent brokenPipe)
  else if n = 0 then none
  else (s.stdin.put (rest.take n)).map fun stdin => { s with stdin := stdin, phase := .sending (rest.drop n) }

def main (s : State capacity) (n : Nat) : Option (State capacity) :=
  match s.phase with
  | .sending rest => s.send rest n
  | .looking => some { s with phase := if s.closed then .killing .cancelled else .waiting }
  | .waiting =>
    match s.child.wait with
    | some (status, child) => some { s with child := child, phase := .exited status }
    | none => some { s with phase := .napping }
  | .napping => some { s with phase := .looking }
  | .killing error => some { s with child := s.child.kill, phase := .reaping error }
  | .reaping error =>
    s.child.wait.map fun (_, child) =>
      -- before the request was sent there is no reader
      { s with child := child, phase := match s.reader with | .unspawned => .joiningTail error | _ => .joiningReader error }
  | .joiningReader error => s.reader.join.map fun _ => { s with phase := .joiningTail error }
  | .joiningTail error => s.tailer.join.map fun _ => { s with phase := .returned (.aborted error) }
  | .exited status =>
    s.reader.join.map fun
      | some (.ok bytes) => { s with phase := .read status bytes }
      -- returns without joining the other thread
      | stdout => { s with phase := .returned (.answered status none stdout) }
  | .read status bytes =>
    s.tailer.join.map fun tail => { s with phase := .returned (.answered status tail (some (.ok bytes))) }
  | .returned _ => none

/-- `read_to_end` of one byte more than a response may have. -/
def readOutput (s : State capacity) (n : Nat) : Option (State capacity) :=
  match s.reader with
  | .reading bytes =>
    if bytes.length = maxMessageBytes + 1 then some { s with reader := .ended bytes }
    else if s.stdout.unread = [] then if s.holds .stdout then none else some { s with reader := .ended bytes }
    else if 0 < n ∧ n ≤ s.stdout.unread.length ∧ bytes.length + n ≤ maxMessageBytes + 1 then
      some { s with stdout := s.stdout.take n, reader := .reading (bytes ++ s.stdout.unread.take n) }
    else none
  | _ => none

/-- It reads 512 bytes at most and keeps the end of all it read. -/
def readDiagnostics (s : State capacity) (n : Nat) : Option (State capacity) :=
  match s.tailer with
  | .reading tail =>
    if s.stderr.unread = [] then if s.holds .stderr then none else some { s with tailer := .ended tail }
    else if 0 < n ∧ n ≤ s.stderr.unread.length ∧ n ≤ 512 then
      some { s with
        stderr := s.stderr.take n
        tailer := .reading (keepLast stderrTailBytes (tail ++ s.stderr.unread.take n)) }
    else none
  | _ => none

/-! ## What fails -/

def sendFails (s : State capacity) (error : String) : Option (State capacity) :=
  match s.phase with
  | .sending (_ :: _) => some (s.unsent error)
  | _ => none

def waitFails (s : State capacity) (error : String) : Option (State capacity) :=
  match s.phase with
  | .waiting => some { s with phase := .killing (.failed s!"could not wait for prompter: {error}") }
  | _ => none

/-- The reader ends without an output. -/
def readerEnds (s : State capacity) (reader : Reader) : Option (State capacity) :=
  match s.reader with
  | .reading _ => some { s with reader := reader }
  | _ => none

def tailerEnds (s : State capacity) (tailer : Bytes → Tailer) : Option (State capacity) :=
  match s.tailer with
  | .reading tail => some { s with tailer := tailer tail }
  | _ => none

/-! ## The other side -/

def ends (s : State capacity) : Option Nat → Option Ends
  | none => s.child.ends
  | some i => s.helpers[i]?

def setEnds (s : State capacity) (ends : Ends) : Option Nat → State capacity
  | none => { s with child := .running ends }
  | some i => { s with helpers := s.helpers.set i ends }

/-- The portal still has its end of the pipe. -/
def listens (s : State capacity) : Fd → Bool
  | .stdin => false
  | .stdout =>
    match s.reader, s.phase with
    | .unspawned, .returned _ => false
    | .unspawned, _ => true
    | .reading _, _ => true
    | _, _ => false
  | .stderr => match s.tailer with | .reading _ => true | _ => false

def write (s : State capacity) (fd : Fd) (bytes : Bytes) : Option (State capacity) :=
  match fd with
  | .stdin => none
  | .stdout => (s.stdout.put bytes).map fun stdout => { s with stdout := stdout }
  | .stderr => (s.stderr.put bytes).map fun stderr => { s with stderr := stderr }

def step (s : State capacity) : Label → Option (State capacity)
  | .main n => s.main n
  | .reader n => s.readOutput n
  | .tailer n => s.readDiagnostics n
  | .sendFails error => s.sendFails error
  | .waitFails error => s.waitFails error
  | .readFails error => s.readerEnds (.failed error)
  | .readerPanics => s.readerEnds .panicked
  | .tailFails => s.tailerEnds .failed
  | .tailerPanics => s.tailerEnds fun _ => .panicked
  | .tracker closed => some { s with closed := closed }
  | .forks who => (s.ends who).map fun ends => { s with helpers := s.helpers ++ [ends] }
  | .closes who fd => (s.ends who).map fun ends => s.setEnds (fun other => ends other && other ≠ fd) who
  | .reads who n => if (s.ends who).any (· .stdin) then some { s with stdin := s.stdin.take n } else none
  | .writes who fd bytes => if (s.ends who).any (· fd) && s.listens fd then s.write fd bytes else none
  | .exits status =>
    match s.child with
    | .running _ => some { s with child := .exited status false }
    | _ => none

end State

/-- The child was spawned with its three pipes, and the request is still to be written. -/
def start (capacity : Nat) (request : Bytes) (closed : Bool) : State capacity where
  phase := .sending request
  reader := .unspawned
  tailer := .reading []
  child := .running fun _ => true
  helpers := []
  stdin := .empty
  stdout := .empty
  stderr := .empty
  closed := closed

def Starts (request : Bytes) (s : State capacity) : Prop := ∃ closed, s = start capacity request closed

/-! ## What a step does -/

namespace State

variable {s s' : State capacity}

/-- What a step of the portal takes from its own side. -/
def portal : Label → Bool
  | .main _ => true
  | .reader _ => true
  | .tailer _ => true
  | _ => false

inductive Steps (s : State capacity) : Label → State capacity → Prop where
  | sent {l : Label} {rest : Bytes} (hphase : s.phase = .sending rest) : Steps s l s.sent
  | abandon {l : Label} {rest : Bytes} {message : String} (hphase : s.phase = .sending rest) :
    Steps s l { s with phase := .killing (.failed message) }
  | send {n : Nat} {rest : Bytes} {stdin : Pipe UInt8 capacity} (hphase : s.phase = .sending rest) (hrest : rest ≠ [])
      (hn : 0 < n) (hput : s.stdin.put (rest.take n) = some stdin) :
    Steps s (.main n) { s with stdin := stdin, phase := .sending (rest.drop n) }
  | look {n : Nat} (hphase : s.phase = .looking) :
    Steps s (.main n) { s with phase := if s.closed then .killing .cancelled else .waiting }
  | ended {n : Nat} {status : ExitStatus} {child : Child} (hphase : s.phase = .waiting)
      (hwait : s.child.wait = some (status, child)) : Steps s (.main n) { s with child := child, phase := .exited status }
  | running {n : Nat} (hphase : s.phase = .waiting) (hwait : s.child.wait = none) :
    Steps s (.main n) { s with phase := .napping }
  | wake {n : Nat} (hphase : s.phase = .napping) : Steps s (.main n) { s with phase := .looking }
  | waitFails {l : Label} {message : String} (hphase : s.phase = .waiting) :
    Steps s l { s with phase := .killing (.failed message) }
  | kill {n : Nat} {error : InvokeError} (hphase : s.phase = .killing error) :
    Steps s (.main n) { s with child := s.child.kill, phase := .reaping error }
  | reapBefore {n : Nat} {error : InvokeError} {status : ExitStatus} {child : Child} (hphase : s.phase = .reaping error)
      (hwait : s.child.wait = some (status, child)) (hreader : s.reader = .unspawned) :
    Steps s (.main n) { s with child := child, phase := .joiningTail error }
  | reap {n : Nat} {error : InvokeError} {status : ExitStatus} {child : Child} (hphase : s.phase = .reaping error)
      (hwait : s.child.wait = some (status, child)) (hreader : s.reader ≠ .unspawned) :
    Steps s (.main n) { s with child := child, phase := .joiningReader error }
  | joinReader {n : Nat} {error : InvokeError} {stdout : Option (Except String Bytes)}
      (hphase : s.phase = .joiningReader error) (hjoin : s.reader.join = some stdout) :
    Steps s (.main n) { s with phase := .joiningTail error }
  | joinTail {n : Nat} {error : InvokeError} {tail : Option Bytes} (hphase : s.phase = .joiningTail error)
      (hjoin : s.tailer.join = some tail) : Steps s (.main n) { s with phase := .returned (.aborted error) }
  | read {n : Nat} {status : ExitStatus} {bytes : Bytes} (hphase : s.phase = .exited status)
      (hjoin : s.reader.join = some (some (.ok bytes))) : Steps s (.main n) { s with phase := .read status bytes }
  | unread {n : Nat} {status : ExitStatus} {stdout : Option (Except String Bytes)} (hphase : s.phase = .exited status)
      (hjoin : s.reader.join = some stdout) (hfailed : ∀ bytes, stdout ≠ some (.ok bytes)) :
    Steps s (.main n) { s with phase := .returned (.answered status none stdout) }
  | answer {n : Nat} {status : ExitStatus} {bytes : Bytes} {tail : Option Bytes} (hphase : s.phase = .read status bytes)
      (hjoin : s.tailer.join = some tail) :
    Steps s (.main n) { s with phase := .returned (.answered status tail (some (.ok bytes))) }
  | readAll {n : Nat} {bytes : Bytes} (hreader : s.reader = .reading bytes)
      (hall : bytes.length = maxMessageBytes + 1 ∨ s.stdout.unread = []) :
    Steps s (.reader n) { s with reader := .ended bytes }
  | readSome {n : Nat} {bytes : Bytes} (hreader : s.reader = .reading bytes) (hn : 0 < n)
      (hunread : n ≤ s.stdout.unread.length) (hlimit : bytes.length + n ≤ maxMessageBytes + 1) :
    Steps s (.reader n) { s with stdout := s.stdout.take n, reader := .reading (bytes ++ s.stdout.unread.take n) }
  | readerEnds {l : Label} {bytes : Bytes} {reader : Reader} (hl : portal l = false) (hreader : s.reader = .reading bytes)
      (hover : reader = .panicked ∨ ∃ error, reader = .failed error) : Steps s l { s with reader := reader }
  | tailed {n : Nat} {tail : Bytes} (htailer : s.tailer = .reading tail) (hall : s.stderr.unread = []) :
    Steps s (.tailer n) { s with tailer := .ended tail }
  | tailSome {n : Nat} {tail : Bytes} (htailer : s.tailer = .reading tail) (hn : 0 < n)
      (hunread : n ≤ s.stderr.unread.length) :
    Steps s (.tailer n) { s with
      stderr := s.stderr.take n
      tailer := .reading (keepLast stderrTailBytes (tail ++ s.stderr.unread.take n)) }
  | tailerEnds {l : Label} {tail : Bytes} {tailer : Tailer} (hl : portal l = false) (htailer : s.tailer = .reading tail)
      (hover : tailer = .panicked ∨ tailer = .failed tail) : Steps s l { s with tailer := tailer }
  | tracker {closed : Bool} : Steps s (.tracker closed) { s with closed := closed }
  | helpers {l : Label} {helpers : List Ends} (hl : portal l = false) : Steps s l { s with helpers := helpers }
  | child {l : Label} {ends : Ends} {child : Child} (hl : portal l = false) (hchild : s.child = .running ends)
      (hnext : (∃ ends, child = .running ends) ∨ ∃ status, child = .exited status false) :
    Steps s l { s with child := child }
  | takes {l : Label} {n : Nat} (hl : portal l = false) : Steps s l { s with stdin := s.stdin.take n }
  | output {who : Option Nat} {bytes : Bytes} {stdout : Pipe UInt8 capacity} (hlistens : s.listens .stdout = true)
      (hput : s.stdout.put bytes = some stdout) : Steps s (.writes who .stdout bytes) { s with stdout := stdout }
  | diagnostics {who : Option Nat} {bytes : Bytes} {stderr : Pipe UInt8 capacity} (hlistens : s.listens .stderr = true)
      (hput : s.stderr.put bytes = some stderr) : Steps s (.writes who .stderr bytes) { s with stderr := stderr }

theorem unsent_steps {l : Label} {rest : Bytes} {error : String} (hphase : s.phase = .sending rest) :
    Steps s l (s.unsent error) := by
  unfold unsent
  split
  · exact .sent hphase
  · exact .abandon hphase

theorem main_steps {n : Nat} (hs : s.main n = some s') : Steps s (.main n) s' := by
  unfold main at hs
  split at hs
  · next rest hphase =>
    unfold send at hs
    split at hs
    · cases hs
      exact .sent hphase
    · next hrest =>
      split at hs
      · cases hs
        exact unsent_steps hphase
      · split at hs
        · cases hs
        · next hn =>
          obtain ⟨stdin, hput, rfl⟩ := Option.map_eq_some_iff.1 hs
          exact .send hphase hrest (Nat.pos_of_ne_zero hn) hput
  · next hphase =>
    cases hs
    exact .look hphase
  · next hphase =>
    split at hs
    · next hwait =>
      cases hs
      exact .ended hphase hwait
    · next hwait =>
      cases hs
      exact .running hphase hwait
  · next hphase =>
    cases hs
    exact .wake hphase
  · next hphase =>
    cases hs
    exact .kill hphase
  · next hphase =>
    obtain ⟨⟨status, child⟩, hwait, rfl⟩ := Option.map_eq_some_iff.1 hs
    dsimp only
    split
    · next hreader => exact .reapBefore hphase hwait hreader
    · next hreader => exact .reap hphase hwait hreader
  · next hphase =>
    obtain ⟨stdout, hjoin, rfl⟩ := Option.map_eq_some_iff.1 hs
    exact .joinReader hphase hjoin
  · next hphase =>
    obtain ⟨tail, hjoin, rfl⟩ := Option.map_eq_some_iff.1 hs
    exact .joinTail hphase hjoin
  · next hphase =>
    obtain ⟨stdout, hjoin, rfl⟩ := Option.map_eq_some_iff.1 hs
    split
    · exact .read hphase hjoin
    · next hfailed => exact .unread hphase hjoin hfailed
  · next hphase =>
    obtain ⟨tail, hjoin, rfl⟩ := Option.map_eq_some_iff.1 hs
    exact .answer hphase hjoin
  · cases hs

theorem readOutput_steps {n : Nat} (hs : s.readOutput n = some s') : Steps s (.reader n) s' := by
  unfold readOutput at hs
  split at hs
  · next bytes hreader =>
    split at hs
    · next hlimit =>
      cases hs
      exact .readAll hreader (.inl hlimit)
    · split at hs
      · next hunread =>
        split at hs
        · cases hs
        · cases hs
          exact .readAll hreader (.inr hunread)
      · split at hs
        · next hn =>
          cases hs
          exact .readSome hreader hn.1 hn.2.1 hn.2.2
        · cases hs
  · cases hs

theorem readDiagnostics_steps {n : Nat} (hs : s.readDiagnostics n = some s') : Steps s (.tailer n) s' := by
  unfold readDiagnostics at hs
  split at hs
  · next tail htailer =>
    split at hs
    · next hunread =>
      split at hs
      · cases hs
      · cases hs
        exact .tailed htailer hunread
    · split at hs
      · next hn =>
        cases hs
        exact .tailSome htailer hn.1 hn.2.1
      · cases hs
  · cases hs

theorem readerEnds_steps {l : Label} {reader : Reader} (hl : portal l = false)
    (hover : reader = .panicked ∨ ∃ error, reader = .failed error) (hs : s.readerEnds reader = some s') :
    Steps s l s' := by
  unfold readerEnds at hs
  split at hs <;> cases hs
  exact .readerEnds hl ‹_› hover

theorem tailerEnds_steps {l : Label} {tailer : Bytes → Tailer} (hl : portal l = false)
    (hover : ∀ tail, tailer tail = .panicked ∨ tailer tail = .failed tail) (hs : s.tailerEnds tailer = some s') :
    Steps s l s' := by
  unfold tailerEnds at hs
  split at hs <;> cases hs
  exact .tailerEnds hl ‹_› (hover _)

theorem step_steps {l : Label} (hs : s.step l = some s') : Steps s l s' := by
  cases l with
  | main n => exact main_steps hs
  | reader n => exact readOutput_steps hs
  | tailer n => exact readDiagnostics_steps hs
  | sendFails error =>
    simp only [step, sendFails] at hs
    split at hs <;> cases hs
    exact unsent_steps ‹_›
  | waitFails error =>
    simp only [step, waitFails] at hs
    split at hs <;> cases hs
    exact .waitFails ‹_›
  | readFails error => exact readerEnds_steps rfl (.inr ⟨error, rfl⟩) hs
  | readerPanics => exact readerEnds_steps rfl (.inl rfl) hs
  | tailFails => exact tailerEnds_steps rfl (fun _ => .inr rfl) hs
  | tailerPanics => exact tailerEnds_steps rfl (fun _ => .inl rfl) hs
  | tracker closed =>
    cases hs
    exact .tracker
  | forks who =>
    obtain ⟨ends, -, rfl⟩ := Option.map_eq_some_iff.1 hs
    exact .helpers rfl
  | closes who fd =>
    obtain ⟨ends, hends, rfl⟩ := Option.map_eq_some_iff.1 hs
    cases who with
    | none =>
      cases hchild : s.child with
      | running _ => exact .child rfl hchild (.inl ⟨_, rfl⟩)
      | exited _ _ | killed _ =>
        rw [State.ends, hchild] at hends
        cases hends
    | some i => exact .helpers rfl
  | reads who n =>
    simp only [step] at hs
    split at hs <;> cases hs
    exact .takes rfl
  | writes who fd bytes =>
    simp only [step] at hs
    split at hs
    · next hopen =>
      have hlistens := (Bool.and_eq_true_iff.1 hopen).2
      cases fd with
      | stdin => cases hs
      | stdout =>
        obtain ⟨stdout, hput, rfl⟩ := Option.map_eq_some_iff.1 hs
        exact .output hlistens hput
      | stderr =>
        obtain ⟨stderr, hput, rfl⟩ := Option.map_eq_some_iff.1 hs
        exact .diagnostics hlistens hput
    · cases hs
  | exits status =>
    simp only [step] at hs
    split at hs <;> cases hs
    exact .child rfl ‹_› (.inr ⟨status, rfl⟩)

/-! ## What holds in every run -/

/-- The input of the child is what was sent of the request. -/
def Sent (request : Bytes) (s : State capacity) : Prop :=
  ∃ rest, s.stdin.written ++ rest = request ∧ ∀ unsent, s.phase = .sending unsent → unsent = rest

/-- The reader has what it took, and in the end what may be had of all that was written. -/
def Output (s : State capacity) : Prop :=
  match s.reader with
  | .unspawned => s.stdout.taken = []
  | .reading bytes => bytes = s.stdout.taken ∧ bytes.length ≤ maxMessageBytes + 1
  | .ended bytes => bytes = readStdout s.stdout.written
  | _ => True

def Diagnostics (s : State capacity) : Prop :=
  match s.tailer with
  | .reading tail => tail = keepLast stderrTailBytes s.stderr.taken
  | .ended tail => tail = keepLast stderrTailBytes s.stderr.written
  | _ => True

end State

/-- Nobody has killed the child or waited for it. -/
def Child.Unwaited (child : Child) : Prop := (∃ ends, child = .running ends) ∨ ∃ status, child = .exited status false

/-- It is not spawned yet, or joining it returns. -/
def Reader.Over (reader : Reader) : Prop := ∀ bytes, reader ≠ .reading bytes

def Reader.left : Reader → Nat
  | .unspawned => 1
  | .reading _ => 1
  | _ => 0

def Tailer.left : Tailer → Nat
  | .reading _ => 1
  | _ => 0

theorem Child.wait_reaped {child child' : Child} {status : ExitStatus} (h : child.wait = some (status, child')) :
    child'.reaped = true := by
  cases child <;> cases h <;> rfl

theorem Reader.over_of_join {reader : Reader} {stdout : Option (Except String Bytes)} (h : reader.join = some stdout) :
    reader.Over := by
  rintro bytes rfl
  cases h

theorem Reader.ended_of_join {reader : Reader} {bytes : Bytes} (h : reader.join = some (some (.ok bytes))) :
    reader = .ended bytes := by
  cases reader <;> cases h
  rfl

/-- A result comes from an output within the limit that is a response. -/
theorem answered_ok {decode : Decode} {debug : List Char → String} {status : ExitStatus} {tail : Option Bytes}
    {stdout : Option (Except String Bytes)} {result : PromptResult}
    (h : Prompter.answered decode debug status tail stdout = some (.ok result)) : ∃ bytes response,
    stdout = some (.ok bytes) ∧ bytes.length ≤ maxMessageBytes ∧ decode bytes = .ok response ∧
      response.intoResult = .ok result := by
  unfold Prompter.answered at h
  split at h
  · cases h
  · cases h
  · next bytes =>
    split at h
    · cases h
    · next hlimit =>
      split at h
      · split at h <;> cases h
      · split at h
        · next hdecode =>
          obtain ⟨quoted, -, hquoted⟩ := Option.map_eq_some_iff.1 h
          cases hquoted
        · next response hdecode =>
          split at h
          · cases h
          · cases h
          · next hresult =>
            cases h
            exact ⟨bytes, response, rfl, Nat.not_lt.1 hlimit, hdecode, hresult⟩

/-- Output within the limit is all there is. -/
theorem readStdout_all {written : Bytes} (h : (readStdout written).length ≤ maxMessageBytes) :
    readStdout written = written ∧ written.length ≤ maxMessageBytes := by
  rcases Nat.lt_or_ge maxMessageBytes written.length with hover | hwithin
  · exact absurd (readStdout_over hover) (Nat.not_lt.2 h)
  · exact ⟨readStdout_within hwithin, hwithin⟩

namespace State

variable {s s' : State capacity}

/-- Where `invoke_raw` is, and where its child and its threads are. -/
def Fits (s : State capacity) : Prop :=
  match s.phase with
  | .sending _ => s.reader = .unspawned ∧ s.child.Unwaited
  | .looking | .waiting | .napping => s.reader ≠ .unspawned ∧ s.child.Unwaited
  | .killing _ => s.child.Unwaited
  | .reaping _ => s.child = .killed false ∨ ∃ status, s.child = .exited status false
  | .joiningReader _ => s.reader ≠ .unspawned ∧ s.child.reaped = true
  | .joiningTail _ => s.reader.Over ∧ s.child.reaped = true
  | .exited status => s.reader ≠ .unspawned ∧ s.child = .exited status true
  | .read status bytes => s.reader = .ended bytes ∧ s.child = .exited status true
  | .returned (.aborted _) => s.reader.Over ∧ s.tailer.join.isSome = true ∧ s.child.reaped = true
  | .returned (.answered status tail stdout) => s.reader.join = some stdout ∧
      (s.tailer.join = some tail ∨ ∀ bytes, stdout ≠ some (.ok bytes)) ∧ s.child = .exited status true

structure Supervised (request : Bytes) (s : State capacity) : Prop where
  sent : s.Sent request
  output : s.Output
  diagnostics : s.Diagnostics
  fits : s.Fits

theorem start_supervised {request : Bytes} (h : Starts request s) : s.Supervised request := by
  obtain ⟨closed, rfl⟩ := h
  have hkept : [] = keepLast stderrTailBytes ([] : Bytes) := List.drop_nil.symm
  exact ⟨⟨request, rfl, fun unsent hunsent => (Phase.sending.inj hunsent).symm⟩, rfl, hkept, rfl, .inl ⟨_, rfl⟩⟩

theorem Sent.goto {request : Bytes} (h : s.Sent request) {t : State capacity} (hstdin : t.stdin.written = s.stdin.written)
    (hphase : ∀ unsent, t.phase ≠ .sending unsent) : t.Sent request := by
  obtain ⟨rest, hrest, -⟩ := h
  exact ⟨rest, by rw [hstdin]; exact hrest, fun unsent hunsent => absurd hunsent (hphase unsent)⟩

theorem step_sent {request : Bytes} {l : Label} (h : s.Sent request) (hs : Steps s l s') : s'.Sent request := by
  cases hs with
  | @send n unsent stdin hphase hrest hn hput =>
    obtain ⟨rest, heq, hunsent⟩ := h
    obtain rfl := hunsent unsent hphase
    refine ⟨unsent.drop n, ?_, fun unsent hunsent => (Phase.sending.inj hunsent).symm⟩
    rw [Pipe.put_written hput, List.append_assoc, List.take_append_drop]
    exact heq
  | look =>
    refine h.goto rfl fun unsent => ?_
    dsimp only
    split <;> nofun
  | sent | abandon | ended | running | wake | waitFails | kill | reapBefore | reap | joinReader | joinTail | read | unread
  | answer => exact h.goto rfl nofun
  | takes =>
    obtain ⟨rest, heq, hunsent⟩ := h
    exact ⟨rest, by rw [Pipe.take_written]; exact heq, hunsent⟩
  | _ => exact h

theorem Fits.unspawned (h : s.Fits) {rest : Bytes} (hphase : s.phase = .sending rest) : s.reader = .unspawned := by
  rw [Fits, hphase] at h
  exact h.1

theorem step_output {l : Label} (h : s.Output) (hfits : s.Fits) (hs : Steps s l s') : s'.Output := by
  cases hs with
  | sent hphase =>
    rw [Output, hfits.unspawned hphase] at h
    exact ⟨h.symm, Nat.zero_le _⟩
  | readAll hreader hall =>
    rw [Output, hreader] at h
    obtain ⟨rfl, hlength⟩ := h
    show s.stdout.taken = readStdout (s.stdout.taken ++ s.stdout.unread)
    rcases hall with hlimit | hunread
    · rw [readStdout, List.take_append_of_le_length (Nat.le_of_eq hlimit.symm), ← hlimit, List.take_length]
    · rw [hunread, List.append_nil, readStdout, List.take_of_length_le hlength]
  | readSome hreader hn hunread hlimit =>
    rw [Output, hreader] at h
    obtain ⟨rfl, -⟩ := h
    refine ⟨rfl, ?_⟩
    rw [List.length_append, List.length_take]
    omega
  | readerEnds _ hreader hover =>
    rcases hover with rfl | ⟨error, rfl⟩ <;> trivial
  | output hlistens hput =>
    have htaken := (Pipe.put_some hput).1
    unfold listens at hlistens
    unfold Output at h ⊢
    cases hreader : s.reader with
    | unspawned | reading _ =>
      rw [hreader] at h
      simp only [htaken]
      exact h
    | ended _ | failed _ | panicked =>
      rw [hreader] at hlistens
      cases hlistens
  | _ => exact h

theorem Diagnostics.reading (h : s.Diagnostics) {tail : Bytes} (htailer : s.tailer = .reading tail) :
    tail = keepLast stderrTailBytes s.stderr.taken := by
  simpa only [Diagnostics, htailer] using h

theorem step_diagnostics {l : Label} (h : s.Diagnostics) (hs : Steps s l s') : s'.Diagnostics := by
  cases hs with
  | @tailed _ tail htailer hall =>
    have hwritten : s.stderr.written = s.stderr.taken := by rw [Pipe.written, hall, List.append_nil]
    exact (h.reading htailer).trans (congrArg (keepLast stderrTailBytes) hwritten.symm)
  | @tailSome n tail htailer =>
    have hkept := keepLast_append stderrTailBytes s.stderr.taken (s.stderr.unread.take n)
    rw [← h.reading htailer] at hkept
    exact hkept
  | tailerEnds _ htailer hover =>
    rcases hover with rfl | rfl <;> trivial
  | diagnostics hlistens hput =>
    have htaken := (Pipe.put_some hput).1
    unfold listens at hlistens
    unfold Diagnostics at h ⊢
    cases htailer : s.tailer with
    | reading _ =>
      rw [htailer] at h
      simp only [htaken]
      exact h
    | ended _ | failed _ | panicked =>
      rw [htailer] at hlistens
      cases hlistens
  | _ => exact h

/-- The reader is only looked at once it is over. -/
theorem Fits.withReader (h : s.Fits) {bytes : Bytes} (hreader : s.reader = .reading bytes) {stdout : Pipe UInt8 capacity}
    {reader : Reader} (hnext : reader ≠ .unspawned) : Fits { s with stdout := stdout, reader := reader } := by
  unfold Fits at h ⊢
  dsimp only
  split at h
  · rw [hreader] at h
    cases h.1
  · exact ⟨hnext, h.2⟩
  · exact ⟨hnext, h.2⟩
  · exact ⟨hnext, h.2⟩
  · exact h
  · exact h
  · exact ⟨hnext, h.2⟩
  · exact absurd hreader (h.1 bytes)
  · exact ⟨hnext, h.2⟩
  · rw [hreader] at h
    cases h.1
  · exact absurd hreader (h.1 bytes)
  · rw [hreader] at h
    cases h.1

theorem Fits.withTailer (h : s.Fits) {tail : Bytes} (htailer : s.tailer = .reading tail) {stderr : Pipe UInt8 capacity}
    {tailer : Tailer} : Fits { s with stderr := stderr, tailer := tailer } := by
  unfold Fits at h ⊢
  dsimp only
  split at h
  case h_11 =>
    rw [htailer] at h
    cases h.2.1
  case h_12 =>
    obtain ⟨hreader, hjoin | hfailed, hchild⟩ := h
    · rw [htailer] at hjoin
      cases hjoin
    · exact ⟨hreader, .inr hfailed, hchild⟩
  all_goals exact h

/-- Who has waited for the child has no child that runs. -/
theorem Fits.withChild (h : s.Fits) {ends : Ends} (hchild : s.child = .running ends) {child : Child}
    (hnext : child.Unwaited) : Fits { s with child := child } := by
  unfold Fits at h ⊢
  dsimp only
  split at h
  · exact ⟨h.1, hnext⟩
  · exact ⟨h.1, hnext⟩
  · exact ⟨h.1, hnext⟩
  · exact ⟨h.1, hnext⟩
  · exact hnext
  · rcases h with h | ⟨status, h⟩ <;> cases hchild.symm.trans h
  · rw [hchild] at h
    cases h.2
  · rw [hchild] at h
    cases h.2
  · cases hchild.symm.trans h.2
  · cases hchild.symm.trans h.2
  · rw [hchild] at h
    cases h.2.2
  · cases hchild.symm.trans h.2.2

theorem step_fits {l : Label} (h : s.Fits) (hs : Steps s l s') : s'.Fits := by
  cases hs with
  | sent hphase =>
    rw [Fits, hphase] at h
    exact ⟨nofun, h.2⟩
  | abandon hphase | waitFails hphase =>
    rw [Fits, hphase] at h
    exact h.2
  | send hphase =>
    rw [Fits, hphase] at h
    exact h
  | look hphase =>
    rw [Fits, hphase] at h
    cases hclosed : s.closed with
    | true => exact h.2
    | false => exact h
  | running hphase | wake hphase =>
    rw [Fits, hphase] at h
    exact h
  | ended hphase hwait =>
    rw [Fits, hphase] at h
    obtain ⟨hreader, ⟨ends, hchild⟩ | ⟨status, hchild⟩⟩ := h
    · rw [hchild] at hwait
      cases hwait
    · rw [hchild] at hwait
      cases hwait
      exact ⟨hreader, rfl⟩
  | kill hphase =>
    rw [Fits, hphase] at h
    rcases h with ⟨ends, hchild⟩ | ⟨status, hchild⟩
    · exact .inl (by rw [hchild]; rfl)
    · exact .inr ⟨status, by rw [hchild]; rfl⟩
  | reapBefore hphase hwait hreader => exact ⟨fun bytes => by rw [hreader]; nofun, Child.wait_reaped hwait⟩
  | reap hphase hwait hreader => exact ⟨hreader, Child.wait_reaped hwait⟩
  | joinReader hphase hjoin =>
    rw [Fits, hphase] at h
    exact ⟨Reader.over_of_join hjoin, h.2⟩
  | joinTail hphase hjoin =>
    rw [Fits, hphase] at h
    exact ⟨h.1, by rw [hjoin]; rfl, h.2⟩
  | read hphase hjoin =>
    rw [Fits, hphase] at h
    cases hreader : s.reader with
    | ended bytes =>
      rw [hreader] at hjoin
      cases hjoin
      exact ⟨rfl, h.2⟩
    | unspawned | reading _ | failed _ | panicked =>
      rw [hreader] at hjoin
      cases hjoin
  | unread hphase hjoin hfailed =>
    rw [Fits, hphase] at h
    exact ⟨hjoin, .inr hfailed, h.2⟩
  | answer hphase hjoin =>
    rw [Fits, hphase] at h
    exact ⟨by rw [h.1]; rfl, .inl hjoin, h.2⟩
  | readAll hreader | readSome hreader => exact h.withReader hreader nofun
  | readerEnds _ hreader hover => exact h.withReader hreader (by rcases hover with rfl | ⟨error, rfl⟩ <;> nofun)
  | tailed htailer | tailSome htailer | tailerEnds _ htailer => exact h.withTailer htailer
  | child _ hchild hnext => exact h.withChild hchild hnext
  | tracker | helpers | takes | output | diagnostics => exact h

theorem step_supervised {request : Bytes} {l : Label} (h : s.Supervised request) (hs : s.step l = some s') :
    s'.Supervised request :=
  have hsteps := step_steps hs
  ⟨step_sent h.sent hsteps, step_output h.output h.fits hsteps, step_diagnostics h.diagnostics hsteps,
    step_fits h.fits hsteps⟩

theorem reach_supervised {request : Bytes} (h : Reach (Starts request) step s) : s.Supervised request :=
  h.inv (fun _ => start_supervised) fun _ _ _ => step_supervised

/-! ## What it returns -/

/-- What is so when `invoke_raw` returns. -/
structure Returned (decode : Decode) (debug : List Char → String) (request : Bytes) (s : State capacity)
    (outcome : Outcome) : Prop where
  sent : s.stdin.written <+: request
  reaped : s.child.reaped = true
  reader : s.reader.Over
  /-- Only when there is no output to read the other thread is left behind. -/
  tailer : s.tailer.join.isSome = true ∨ ∀ bytes, s.reader ≠ .ended bytes
  /-- A child whose status is passed on was not killed, and what it wrote is passed on with it. -/
  answered : ∀ status tail stdout, outcome = .answered status tail stdout → s.child = .exited status true ∧
    ∀ bytes kept, s.reader = .ended bytes → s.tailer = .ended kept →
      stdout = some (.ok (readStdout s.stdout.written)) ∧ tail = some (keepLast stderrTailBytes s.stderr.written)
  /-- A result is decoded from all the child wrote. -/
  result : ∀ result, outcome.result decode debug = some (.ok result) → ∃ response, (∃ status, s.child = .exited status true) ∧
    s.stdout.written.length ≤ maxMessageBytes ∧ decode s.stdout.written = .ok response ∧ response.intoResult = .ok result

theorem Output.ended (h : s.Output) {bytes : Bytes} (hreader : s.reader = .ended bytes) :
    bytes = readStdout s.stdout.written := by
  simpa only [Output, hreader] using h

theorem Diagnostics.ended (h : s.Diagnostics) {tail : Bytes} (htailer : s.tailer = .ended tail) :
    tail = keepLast stderrTailBytes s.stderr.written := by
  simpa only [Diagnostics, htailer] using h

/-- Whatever the child, what it starts and the system do, and in whatever order: when `invoke_raw` has returned the child
is reaped and nothing reads its output any more; a status that is passed on comes from a child that nobody killed, with
its output and the end of its diagnostics; and a result is decoded from all that was written. -/
theorem invoked (decode : Decode) (debug : List Char → String) {request : Bytes} (h : Reach (Starts request) step s)
    {outcome : Outcome} (hphase : s.phase = .returned outcome) : Returned decode debug request s outcome := by
  obtain ⟨⟨rest, hsent, -⟩, houtput, hdiagnostics, hfits⟩ := reach_supervised h
  rw [Fits, hphase] at hfits
  have hbegins : s.stdin.written <+: request := ⟨rest, hsent⟩
  cases outcome with
  | aborted error =>
    obtain ⟨hreader, htailer, hreaped⟩ := hfits
    exact ⟨hbegins, hreaped, hreader, .inl htailer, nofun, nofun⟩
  | answered status tail stdout =>
    obtain ⟨hjoin, htailer, hchild⟩ := hfits
    have hreaped : s.child.reaped = true := by
      rw [hchild]
      rfl
    refine ⟨hbegins, hreaped, Reader.over_of_join hjoin, ?_, ?_, fun result hresult => ?_⟩
    · rcases htailer with htailer | hfailed
      · exact .inl (by rw [htailer]; rfl)
      · right
        rintro bytes hreader
        rw [hreader] at hjoin
        exact hfailed bytes (Option.some.inj hjoin).symm
    · rintro _ _ _ ⟨⟩
      refine ⟨hchild, fun bytes kept hreader hkept => ?_⟩
      rw [hreader] at hjoin
      obtain rfl := Option.some.inj hjoin
      rcases htailer with htailer | hfailed
      · rw [hkept] at htailer
        obtain rfl := Option.some.inj htailer
        rw [houtput.ended hreader, hdiagnostics.ended hkept]
        exact ⟨rfl, rfl⟩
      · exact absurd rfl (hfailed bytes)
    · obtain ⟨bytes, response, rfl, hlimit, hdecode, hinto⟩ := answered_ok hresult
      obtain rfl := houtput.ended (Reader.ended_of_join hjoin)
      obtain ⟨hall, hwithin⟩ := readStdout_all hlimit
      exact ⟨response, ⟨status, hchild⟩, hwithin, hall ▸ hdecode, hinto⟩

/-- The loader refuses the prompter. -/
def refused : List Label :=
  [.main 3, .main 0, .writes none .stderr [0x78], .main 0, .exits ⟨some 127, "exit status: 127"⟩, .main 0, .tailer 1,
    .reader 0, .tailer 0, .main 0, .main 0]

theorem invoked_refused : ∃ s outcome, exec step (start 4 [1, 2, 3] false) refused = some s ∧
    s.phase = .returned outcome ∧
    Returned (fun _ => .error "EOF while parsing a value") String.ofList [1, 2, 3] s outcome := by
  have hrun : (exec step (start 4 [1, 2, 3] false) refused).map (·.phase) =
      some (.returned (.answered ⟨some 127, "exit status: 127"⟩ (some [0x78]) (some (.ok [])))) := rfl
  obtain ⟨s, hs, hphase⟩ := Option.map_eq_some_iff.1 hrun
  exact ⟨s, _, hs, hphase, invoked _ _ ((Reach.init ⟨false, rfl⟩).exec hs) hphase⟩

/-! ## When it returns -/

/-- What the steps of `invoke_raw` still are, once there is nothing to nap for. A child that runs has to be killed. -/
def work (s : State capacity) : Nat :=
  match s.phase with
  | .sending rest => rest.length + 9
  | .napping => 7
  | .looking => 6
  | .waiting => if s.child.ends.isSome then 8 else 5
  | .killing _ => 4
  | .reaping _ => 3
  | .joiningReader _ | .exited _ => 2
  | .joiningTail _ | .read _ _ => 1
  | .returned _ => 0

def potential (s : State capacity) : Nat :=
  s.work + (s.stdout.unread.length + s.reader.left) + (s.stderr.unread.length + s.tailer.left)

/-- What is written to the portal. -/
def output : Label → Nat
  | .writes _ _ bytes => bytes.length
  | _ => 0

/-- A Close that was seen is not forgotten. -/
def keeps : Label → Bool
  | .tracker closed => closed
  | _ => true

/-- `invoke_raw` has a reason to return. -/
def Ending (s : State capacity) : Prop := s.closed = true ∨ s.child.ends = none

theorem step_ending {l : Label} (h : s.Ending) (hkeeps : keeps l = true) (hs : Steps s l s') : s'.Ending := by
  have hwaited : ∀ {status child}, s.child.wait = some (status, child) → s.closed = true ∨ child.ends = none := by
    intro status child hwait
    cases hchild : s.child <;> rw [hchild] at hwait <;> cases hwait <;> exact .inr rfl
  cases hs with
  | tracker => exact .inl hkeeps
  | ended _ hwait | reapBefore _ hwait | reap _ hwait => exact hwaited hwait
  | kill =>
    refine h.imp id fun hends => ?_
    cases hchild : s.child with
    | running ends =>
      rw [hchild] at hends
      cases hends
    | exited _ _ | killed _ => rfl
  | child _ hchild =>
    rcases h with h | hends
    · exact .inl h
    · rw [hchild] at hends
      cases hends
  | sent => exact h
  | _ => exact h

/-- A child that ends is not to be killed. -/
theorem child_work {ends : Ends} (hchild : s.child = .running ends) (child : Child) :
    work { s with child := child } ≤ s.work := by
  unfold work
  dsimp only
  split
  case h_4 =>
    rw [hchild]
    split
    · exact Nat.le_refl _
    · simp [Child.ends]
  all_goals exact Nat.le_refl _

theorem portal_le (l : Label) : (portal l).toNat ≤ 1 := by
  cases portal l <;> decide

/-- Every step of the portal is paid for. -/
theorem step_pays {l : Label} (hending : s.Ending) (hfits : s.Fits) (hs : Steps s l s') :
    s'.potential + (portal l).toNat ≤ s.potential + output l := by
  have hone := portal_le l
  cases hs with
  | sent hphase =>
    have hreader := hfits.unspawned hphase
    simp only [potential, sent, work, hphase, hreader, Reader.left]
    omega
  | abandon hphase | wake hphase | kill hphase | reapBefore hphase | reap hphase | joinReader hphase | joinTail hphase
  | read hphase | unread hphase | answer hphase =>
    simp only [potential, work, hphase]
    omega
  | @send n rest _ hphase hrest hn hput =>
    have hlength : 0 < rest.length := List.length_pos_iff.2 hrest
    simp only [potential, work, hphase, List.length_drop]
    omega
  | look hphase =>
    simp only [potential, work, hphase]
    rcases hending with hclosed | hends
    · simp only [hclosed, if_true]
      omega
    · cases s.closed <;> simp only [hends, if_true, Bool.false_eq_true, if_false, Option.isSome_none] <;> omega
  | ended hphase hwait =>
    simp only [potential, work, hphase]
    split <;> omega
  | running hphase hwait =>
    have hruns : s.child.ends.isSome = true := by
      cases hchild : s.child with
      | running ends => rfl
      | exited _ _ | killed _ =>
        rw [hchild] at hwait
        cases hwait
    simp only [potential, work, hphase, hruns, if_true]
    omega
  | waitFails hphase =>
    simp only [potential, work, hphase]
    split <;> omega
  | readAll hreader =>
    simp only [potential, work, hreader, Reader.left]
    omega
  | readSome hreader =>
    simp only [potential, work, hreader, Reader.left, Pipe.take_unread, List.length_drop]
    omega
  | readerEnds hl hreader hover =>
    rcases hover with rfl | ⟨error, rfl⟩ <;> (simp only [potential, work, hreader, Reader.left, hl, Bool.toNat_false]; omega)
  | tailed htailer =>
    simp only [potential, work, htailer, Tailer.left]
    omega
  | tailSome htailer =>
    simp only [potential, work, htailer, Tailer.left, Pipe.take_unread, List.length_drop]
    omega
  | tailerEnds hl htailer hover =>
    rcases hover with rfl | rfl <;> (simp only [potential, work, htailer, Tailer.left, hl, Bool.toNat_false]; omega)
  | tracker => exact Nat.le_refl _
  | helpers hl | takes hl =>
    rw [hl]
    exact Nat.le_add_right _ _
  | @child _ _ child hl hchild =>
    have hwork := child_work hchild child
    simp only [potential, hl, Bool.toNat_false]
    omega
  | output hlistens hput =>
    simp only [potential, work, portal, output, (Pipe.put_some hput).2, List.length_append, Bool.toNat_false]
    omega
  | diagnostics hlistens hput =>
    simp only [potential, work, portal, output, (Pipe.put_some hput).2, List.length_append, Bool.toNat_false]
    omega

theorem potential_le {request : Bytes} (h : s.Sent request) : s.potential ≤ request.length + 2 * capacity + 11 := by
  have hstdout := s.stdout.within
  have hstderr := s.stderr.within
  have hreader : s.reader.left ≤ 1 := by cases s.reader <;> simp [Reader.left]
  have htailer : s.tailer.left ≤ 1 := by cases s.tailer <;> simp [Tailer.left]
  have hwork : s.work ≤ request.length + 9 := by
    unfold work
    split
    · next rest hphase =>
      obtain ⟨rest', hrequest, hunsent⟩ := h
      obtain rfl := hunsent rest hphase
      rw [← hrequest, List.length_append]
      omega
    · omega
    · omega
    · split <;> omega
    all_goals omega
  unfold potential
  omega

/-- `invoke_raw` has returned, or waits for somebody on the other side: for room in the child's input, or for one of the
processes that the child started to close its output or its diagnostics. -/
def Rests (s : State capacity) : Prop :=
  match s.phase with
  | .returned _ => True
  | .sending rest => rest ≠ [] ∧ s.stdin.unread.length = capacity ∧ s.holds .stdin = true
  | .joiningReader _ | .exited _ => s.stdout.unread = [] ∧ ∃ ends ∈ s.helpers, ends .stdout = true
  | .joiningTail _ | .read _ _ => s.stderr.unread = [] ∧ ∃ ends ∈ s.helpers, ends .stderr = true
  | _ => False

/-- With the child reaped only the processes it started are left. -/
theorem helper_holds {fd : Fd} (hreaped : s.child.reaped = true) (h : s.holds fd = true) :
    ∃ ends ∈ s.helpers, ends fd = true := by
  have hends : s.child.ends = none := by
    cases hchild : s.child with
    | running ends =>
      rw [hchild] at hreaped
      cases hreaped
    | exited _ _ | killed _ => rfl
  rw [holds, hends, Option.any_none, Bool.false_or] at h
  exact List.any_eq_true.1 h

/-- A reader that cannot go on has read all there is, and there may come more. -/
theorem reader_stuck (houtput : s.Output) (hspawned : s.reader ≠ .unspawned) (hjoin : s.reader.join = none)
    (hstuck : ∀ n, s.readOutput n = none) : s.stdout.unread = [] ∧ s.holds .stdout = true := by
  cases hreader : s.reader with
  | unspawned => exact absurd hreader hspawned
  | ended _ | failed _ | panicked =>
    rw [hreader] at hjoin
    cases hjoin
  | reading bytes =>
    have hstuck := hstuck 1
    simp only [Output, hreader] at houtput
    simp only [readOutput, hreader] at hstuck
    split at hstuck
    · cases hstuck
    · next hlimit =>
      split at hstuck
      · next hunread =>
        split at hstuck
        · next hholds => exact ⟨hunread, hholds⟩
        · cases hstuck
      · next hunread =>
        have hlength : 0 < s.stdout.unread.length := List.length_pos_iff.2 hunread
        rw [if_pos ⟨Nat.one_pos, hlength, by omega⟩] at hstuck
        cases hstuck

theorem tailer_stuck (hjoin : s.tailer.join = none) (hstuck : ∀ n, s.readDiagnostics n = none) :
    s.stderr.unread = [] ∧ s.holds .stderr = true := by
  cases htailer : s.tailer with
  | ended _ | failed _ | panicked =>
    rw [htailer] at hjoin
    cases hjoin
  | reading tail =>
    have hstuck := hstuck 1
    simp only [readDiagnostics, htailer] at hstuck
    split at hstuck
    · next hunread =>
      split at hstuck
      · next hholds => exact ⟨hunread, hholds⟩
      · cases hstuck
    · next hunread =>
      have hlength : 0 < s.stderr.unread.length := List.length_pos_iff.2 hunread
      rw [if_pos ⟨Nat.one_pos, hlength, by decide⟩] at hstuck
      cases hstuck

/-- Who cannot write can only wait for the other side to read. -/
theorem send_stuck {rest : Bytes} (h : s.send rest 1 = none) :
    rest ≠ [] ∧ s.stdin.unread.length = capacity ∧ s.holds .stdin = true := by
  unfold send at h
  split at h
  · cases h
  · next hrest =>
    split at h
    · cases h
    · next hholds =>
      rw [if_neg Nat.one_ne_zero, Option.map_eq_none_iff] at h
      cases rest with
      | nil => exact absurd rfl hrest
      | cons b rest => exact ⟨hrest, Pipe.put_one_none.1 h, by simpa using hholds⟩

/-- Where the portal cannot take a step it has returned or waits for the other side. -/
theorem rests_of_stuck {request : Bytes} (h : s.Supervised request) (hstuck : ∀ l, portal l = true → s.step l = none) :
    s.Rests := by
  have hmain : s.main 1 = none := hstuck (.main 1) rfl
  have hfits := h.fits
  -- with the child reaped, a thread that cannot end waits for what the child started
  have hreader : s.reader ≠ .unspawned → s.child.reaped = true → s.reader.join = none →
      s.stdout.unread = [] ∧ ∃ ends ∈ s.helpers, ends .stdout = true := by
    intro hspawned hreaped hjoin
    obtain ⟨hunread, hholds⟩ := reader_stuck h.output hspawned hjoin fun n => hstuck (.reader n) rfl
    exact ⟨hunread, helper_holds hreaped hholds⟩
  have htailer : s.child.reaped = true → s.tailer.join = none →
      s.stderr.unread = [] ∧ ∃ ends ∈ s.helpers, ends .stderr = true := by
    intro hreaped hjoin
    obtain ⟨hunread, hholds⟩ := tailer_stuck hjoin fun n => hstuck (.tailer n) rfl
    exact ⟨hunread, helper_holds hreaped hholds⟩
  cases hphase : s.phase with
  | sending rest =>
    simp only [main, hphase] at hmain
    simp only [Rests, hphase]
    exact send_stuck hmain
  | looking | napping | killing _ =>
    simp only [main, hphase] at hmain
    cases hmain
  | waiting =>
    simp only [main, hphase] at hmain
    split at hmain <;> cases hmain
  | reaping _ =>
    simp only [main, hphase, Option.map_eq_none_iff] at hmain
    simp only [Fits, hphase] at hfits
    rcases hfits with hchild | ⟨status, hchild⟩ <;> rw [hchild] at hmain <;> cases hmain
  | joiningReader _ =>
    simp only [main, hphase, Option.map_eq_none_iff] at hmain
    simp only [Fits, hphase] at hfits
    simp only [Rests, hphase]
    exact hreader hfits.1 hfits.2 hmain
  | joiningTail _ =>
    simp only [main, hphase, Option.map_eq_none_iff] at hmain
    simp only [Fits, hphase] at hfits
    simp only [Rests, hphase]
    exact htailer hfits.2 hmain
  | exited status =>
    simp only [main, hphase, Option.map_eq_none_iff] at hmain
    simp only [Fits, hphase] at hfits
    simp only [Rests, hphase]
    exact hreader hfits.1 (by rw [hfits.2]; rfl) hmain
  | read status _ =>
    simp only [main, hphase, Option.map_eq_none_iff] at hmain
    simp only [Fits, hphase] at hfits
    simp only [Rests, hphase]
    exact htailer (by rw [hfits.2]; rfl) hmain
  | returned _ => simp only [Rests, hphase]

/-- Once a Close is to be seen or the child has ended, the portal takes a bounded number of steps, and a byte more for
each that is written to it; and where it can take none it has returned, or somebody on the other side keeps it from that. -/
theorem returns {request : Bytes} {ls : List Label} (h : Reach (Starts request) step s) (hending : s.Ending)
    (hkeeps : ∀ l ∈ ls, keeps l = true) (hrun : exec step s ls = some s') :
    ls.countP portal ≤ request.length + 2 * capacity + 11 + (ls.map output).sum ∧
    ((∀ l, portal l = true → s'.step l = none) → s'.Rests) := by
  have hsupervised := reach_supervised h
  constructor
  · have hguarded : exec (Guarded (fun _ l => keeps l = true) step) s ls = some s' := (exec_guarded hkeeps).trans hrun
    have hpays : s'.potential + ls.countP portal ≤ s.potential + (ls.map output).sum :=
      exec_pays_for (I := fun s => s.Supervised request ∧ s.Ending)
        (fun t l t' ⟨hsupervised, hending⟩ ht =>
          have ⟨hl, ht⟩ := guarded_eq_some.1 ht
          ⟨⟨step_supervised hsupervised ht, step_ending hending hl (step_steps ht)⟩,
            step_pays hending hsupervised.fits (step_steps ht)⟩)
        ⟨hsupervised, hending⟩ hguarded
    have hbound := potential_le hsupervised.sent
    omega
  · exact rests_of_stuck (exec_inv (fun _ _ _ => step_supervised) hsupervised hrun)

/-- A Close that was there before the child. -/
def closing : List Label :=
  [.main 3, .main 0, .main 0, .main 0, .main 0, .reader 0, .main 0, .tailer 0, .main 0]

theorem returns_closing : ∃ s, exec step (start 4 [1, 2, 3] true) closing = some s ∧
    closing.countP portal ≤ 3 + 2 * 4 + 11 + (closing.map output).sum ∧
    ((∀ l, portal l = true → s.step l = none) → s.Rests) := by
  have hrun : (exec step (start 4 [1, 2, 3] true) closing).map (·.phase) = some (.returned (.aborted .cancelled)) := rfl
  obtain ⟨s, hs, -⟩ := Option.map_eq_some_iff.1 hrun
  have hstart : Reach (Starts [1, 2, 3]) step (start 4 [1, 2, 3] true) := .init ⟨true, rfl⟩
  exact ⟨s, hs, returns hstart (.inl rfl) (by decide) hs⟩

/-- Nobody looks for a Close while the request does not fit into the pipe. -/
example : ((exec step (start 2 [1, 2, 3] true) [.main 2]).map fun s => (s.main 1).isNone) = some true := rfl

/-- A process that the child started keeps the portal from returning after the Close. -/
example : ((exec step (start 4 [1, 2, 3] true) (.forks none :: closing.take 5)).map fun s => (s.main 0).isNone) = some true := rfl

end State

end AtriumPortal.Prompter.Supervision
