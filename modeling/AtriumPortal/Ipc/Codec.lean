import AtriumPortal.Lib.Stream
/-!
# Message framing

`codec.rs`: a message is one frame, its JSON behind a length of four bytes. Frames
written in turn are read back in turn whatever the chunks they arrive in, and no
message comes out of a stream that does not hold its whole frame.
-/
open AtriumPortal.Lib.Path (Bytes)
open AtriumPortal.Lib.Stream

namespace AtriumPortal.Ipc.Codec

/-! ## `codec.rs` -/

abbrev maxFrame : Nat := 16 * 1024 * 1024

/-- What `serde_json` reports of a message it cannot write or read. -/
def jsonError (text : String) : Error := .invalidData text

def frameLength (length : Nat) : Error := .invalidData s!"frame length {length} exceeds {maxFrame}"

/-- `Zeroize` for a vector: its bytes are overwritten and it is cleared. -/
def zeroize (_ : Bytes) : Bytes := []

section
variable {T : Type} (encode : T → Except String Bytes) (decode : Bytes → Except String T)

def writeMsg (w : Writer) (message : T) : Except Error Unit × Writer :=
  match encode message with
  | .error text => (.error (jsonError text), w)
  | .ok bytes =>
    -- the length is reported of the vector that has just been cleared
    if maxFrame < bytes.length then (.error (frameLength (zeroize bytes).length), w)
    else
      match w.writeAll (toLe 4 (bytes.length % 2 ^ 32)) with
      | (.error e, w) => (.error e, w)
      | (.ok (), w) =>
        match w.writeAll bytes with
        | (.error e, w) => (.error e, w)
        | (.ok (), w) => (w.flushed, w)

def readMsg (r : Reader) : Except Error T × Reader :=
  match readExact 4 r with
  | (.error e, r) => (.error e, r)
  | (.ok length, r) =>
    if maxFrame < fromLe length then (.error (frameLength (fromLe length)), r)
    else
      match readExact (fromLe length) r with
      | (.error e, r) => (.error e, r)
      | (.ok bytes, r) => ((decode bytes).mapError jsonError, r)

/-- Messages written in turn, up to the first that fails. -/
def writeMsgs (w : Writer) : List T → Except Error Unit × Writer
  | [] => (.ok (), w)
  | message :: messages =>
    match writeMsg encode w message with
    | (.error e, w) => (.error e, w)
    | (.ok (), w) => writeMsgs w messages

/-- So many messages read in turn, up to the first that fails. -/
def readMsgs : Nat → Reader → Except Error (List T) × Reader
  | 0, r => (.ok [], r)
  | n + 1, r =>
    match readMsg decode r with
    | (.error e, r) => (.error e, r)
    | (.ok message, r) => ((readMsgs n r).1.map (message :: ·), (readMsgs n r).2)

/-! ## Frames -/

def frame (bytes : Bytes) : Bytes := toLe 4 bytes.length ++ bytes

/-- The stream of some messages. -/
def frames (messages : List T) : Bytes :=
  messages.flatMap fun m => match encode m with
    | .ok bytes => frame bytes
    | .error _ => []

/-- The encoding of the message fits a frame. -/
def Fits (message : T) : Prop := ∃ bytes, encode message = .ok bytes ∧ bytes.length ≤ maxFrame

/-- Decoding gives back what was encoded. -/
def Inverts : Prop := ∀ message bytes, encode message = .ok bytes → decode bytes = .ok message
end

variable {T : Type} {encode : T → Except String Bytes} {decode : Bytes → Except String T}

theorem fromLe_length {bytes : Bytes} (h : bytes.length ≤ maxFrame) : fromLe (toLe 4 bytes.length) = bytes.length :=
  fromLe_toLe (Nat.lt_of_le_of_lt h (by decide))

theorem frames_cons {m : T} {bytes : Bytes} (h : encode m = .ok bytes) (messages : List T) :
    frames encode (m :: messages) = frame bytes ++ frames encode messages := by
  simp [frames, h]

/-! ## Writing -/

theorem writeMsg_written {w w' : Writer} {m : T} (h : writeMsg encode w m = (.ok (), w')) :
    ∃ bytes, encode m = .ok bytes ∧ bytes.length ≤ maxFrame ∧ w'.written = w.written ++ frame bytes := by
  unfold writeMsg at h
  split at h
  · cases h
  next bytes henc =>
    split at h
    · cases h
    next hle =>
      have hle : bytes.length ≤ maxFrame := Nat.le_of_not_lt hle
      have hmod : bytes.length % 2 ^ 32 = bytes.length := Nat.mod_eq_of_lt (Nat.lt_of_le_of_lt hle (by decide))
      rw [hmod] at h
      split at h
      · cases h
      next w₁ hlength =>
        split at h
        · cases h
        next w₂ hbytes =>
          obtain ⟨-, rfl⟩ := Prod.mk.inj h
          refine ⟨bytes, henc, hle, ?_⟩
          rw [(Writer.writeAll_written hbytes).1, (Writer.writeAll_written hlength).1, frame, List.append_assoc]

theorem writeMsg_steady {w : Writer} {m : T} (hw : w.Steady) (hm : Fits encode m) :
    ∃ w', writeMsg encode w m = (.ok (), w') ∧ w'.Steady := by
  obtain ⟨bytes, henc, hle⟩ := hm
  obtain ⟨w₁, hlength, hst₁⟩ := hw.writeAll (toLe 4 (bytes.length % 2 ^ 32))
  obtain ⟨w₂, hbytes, hst₂⟩ := hst₁.writeAll bytes
  refine ⟨w₂, ?_, hst₂⟩
  simp only [writeMsg, henc, if_neg (Nat.not_lt.mpr hle), hlength, hbytes, hst₂.2]

theorem writeMsg_oversized (w : Writer) {m : T} {bytes : Bytes} (henc : encode m = .ok bytes)
    (hlong : maxFrame < bytes.length) : writeMsg encode w m = (.error (frameLength 0), w) := by
  simp [writeMsg, henc, hlong, zeroize]

theorem writeMsgs_written {messages : List T} {w w' : Writer} (h : writeMsgs encode w messages = (.ok (), w')) :
    w'.written = w.written ++ frames encode messages ∧ ∀ m ∈ messages, Fits encode m := by
  induction messages generalizing w with
  | nil =>
    cases h
    exact ⟨by simp [frames], nofun⟩
  | cons m messages ih =>
    unfold writeMsgs at h
    split at h
    · cases h
    next w₁ hm =>
      obtain ⟨bytes, henc, hle, hw₁⟩ := writeMsg_written hm
      obtain ⟨hwritten, hfit⟩ := ih h
      refine ⟨by rw [hwritten, hw₁, frames_cons henc, List.append_assoc], ?_⟩
      intro x hx
      rcases List.mem_cons.mp hx with rfl | hx
      · exact ⟨bytes, henc, hle⟩
      · exact hfit x hx

theorem writeMsgs_steady {messages : List T} {w : Writer} (hw : w.Steady) (hfit : ∀ m ∈ messages, Fits encode m) :
    (writeMsgs encode w messages).1 = .ok () := by
  induction messages generalizing w with
  | nil => rfl
  | cons m messages ih =>
    obtain ⟨w₁, hm, hw₁⟩ := writeMsg_steady hw (hfit m List.mem_cons_self)
    simp only [writeMsgs, hm]
    exact ih hw₁ fun x hx => hfit x (List.mem_cons_of_mem _ hx)

/-! ## Reading -/

/-- A message comes out of the first whole frame of the stream and nothing behind it. -/
theorem readMsg_takes {r r' : Reader} {m : T} (h : readMsg decode r = (.ok m, r')) :
    ∃ bytes, content r = frame bytes ++ content r' ∧ bytes.length ≤ maxFrame ∧ decode bytes = .ok m := by
  unfold readMsg at h
  split at h
  · cases h
  next length r₁ hlength =>
    split at h
    · cases h
    next hle =>
      split at h
      · cases h
      next bytes r₂ hbytes =>
        obtain ⟨hdec, rfl⟩ := Prod.mk.inj h
        obtain ⟨hfirst, hfour⟩ := readExact_takes hlength
        obtain ⟨hsecond, hsize⟩ := readExact_takes hbytes
        have hprefix : toLe 4 bytes.length = length := by rw [hsize, ← hfour, toLe_fromLe]
        refine ⟨bytes, ?_, hsize ▸ Nat.le_of_not_lt hle, ?_⟩
        · rw [hfirst, hsecond, frame, hprefix, List.append_assoc]
        · cases hd : decode bytes with
          | error text =>
            rw [hd] at hdec
            cases hdec
          | ok m' =>
            rw [hd] at hdec
            cases hdec
            rfl

/-- The length of a calm stream is read from its first four bytes. -/
theorem readExact_length {r : Reader} {n : Nat} {rest : Bytes} (hr : Calm r) (hc : content r = toLe 4 n ++ rest) :
    ∃ r₁, readExact 4 r = (.ok (toLe 4 n), r₁) ∧ Calm r₁ ∧ content r₁ = rest := by
  obtain ⟨r₁, hread, hcalm, hleft⟩ := readExact_calm 4 hr (by simp [hc])
  refine ⟨r₁, ?_, hcalm, ?_⟩
  · rw [hread, hc, List.take_left' (length_toLe 4 n)]
  · rw [hleft, hc, List.drop_left' (length_toLe 4 n)]

theorem readMsg_frame {r : Reader} {m : T} {bytes rest : Bytes} (hr : Calm r) (hc : content r = frame bytes ++ rest)
    (hle : bytes.length ≤ maxFrame) (hdec : decode bytes = .ok m) :
    ∃ r', readMsg decode r = (.ok m, r') ∧ Calm r' ∧ content r' = rest := by
  obtain ⟨r₁, hlength, hr₁, hc₁⟩ := readExact_length hr (hc.trans (List.append_assoc _ _ _))
  obtain ⟨r₂, hread, hr₂, hc₂⟩ := readExact_calm bytes.length hr₁ (by simp [hc₁])
  rw [hc₁, List.take_left' rfl] at hread
  refine ⟨r₂, ?_, hr₂, by rw [hc₂, hc₁, List.drop_left' rfl]⟩
  simp only [readMsg, hlength, fromLe_length hle, if_neg (Nat.not_lt.mpr hle), hread, hdec]
  rfl

/-- A length above the limit is refused with only the length read. -/
theorem readMsg_oversized {r : Reader} {n : Nat} {rest : Bytes} (hr : Calm r) (hc : content r = toLe 4 n ++ rest)
    (hn : n < 2 ^ 32) (hlong : maxFrame < n) :
    ∃ r', readMsg decode r = (.error (frameLength n), r') ∧ content r' = rest := by
  obtain ⟨r₁, hlength, -, hc₁⟩ := readExact_length hr hc
  have hval : fromLe (toLe 4 n) = n := fromLe_toLe (Nat.lt_of_lt_of_le hn (by decide))
  refine ⟨r₁, ?_, hc₁⟩
  simp only [readMsg, hlength, hval, if_pos hlong]

/-- A frame that breaks off, in its length or in its bytes. -/
theorem readMsg_short {r : Reader} {bytes rest : Bytes} (hr : Calm r) (hc : frame bytes = content r ++ rest)
    (hrest : rest ≠ []) (hle : bytes.length ≤ maxFrame) : (readMsg decode r).1 = .error .unexpectedEof := by
  have hlen : 4 + bytes.length = (content r).length + rest.length := by
    simpa [frame] using congrArg List.length hc
  have hpos : 0 < rest.length := List.length_pos_of_ne_nil hrest
  rcases Nat.lt_or_ge (content r).length 4 with hfew | henough
  · obtain ⟨r₁, hshort⟩ := readExact_short hr hfew
    simp only [readMsg, hshort]
  · obtain ⟨body, hbody⟩ : ∃ body, toLe 4 bytes.length ++ body = content r := by
      refine List.prefix_of_prefix_length_le ⟨bytes, rfl⟩ ⟨rest, hc.symm⟩ ?_
      simpa using henough
    obtain ⟨r₁, hlength, hr₁, hc₁⟩ := readExact_length hr hbody.symm
    have hmissing : (content r₁).length < bytes.length := by
      have : 4 + body.length = (content r).length := by simpa using congrArg List.length hbody
      rw [hc₁]
      omega
    obtain ⟨r₂, hshort⟩ := readExact_short hr₁ hmissing
    simp only [readMsg, hlength, fromLe_length hle, if_neg (Nat.not_lt.mpr hle), hshort]

/-! ## Streams of messages -/

theorem readMsgs_frames {messages : List T} {r : Reader} {rest : Bytes} (hinv : Inverts encode decode)
    (hfit : ∀ m ∈ messages, Fits encode m) (hr : Calm r) (hc : content r = frames encode messages ++ rest) :
    ∃ r', readMsgs decode messages.length r = (.ok messages, r') ∧ Calm r' ∧ content r' = rest := by
  induction messages generalizing r with
  | nil => exact ⟨r, rfl, hr, hc⟩
  | cons m messages ih =>
    obtain ⟨bytes, henc, hle⟩ := hfit m List.mem_cons_self
    rw [frames_cons henc, List.append_assoc] at hc
    obtain ⟨r₁, hread, hr₁, hc₁⟩ := readMsg_frame hr hc hle (hinv m bytes henc)
    obtain ⟨r', hrest, hr', hc'⟩ := ih (fun x hx => hfit x (List.mem_cons_of_mem _ hx)) hr₁ hc₁
    refine ⟨r', ?_, hr', hc'⟩
    simp only [List.length_cons, readMsgs, hread, hrest]
    rfl

/-- What is left of a stream breaks off behind its first frame or within it. -/
theorem breaks {first stream got rest : Bytes} (h : first ++ stream = got ++ rest) :
    (∃ left, got = first ++ left ∧ stream = left ++ rest) ∨ ∃ left, first = got ++ left ∧ left ≠ [] := by
  rcases List.append_eq_append_iff.mp h with hbehind | ⟨left, hfirst, hrest⟩
  · exact .inl hbehind
  · cases left with
    | nil => exact .inl ⟨[], by simpa using hfirst.symm, hrest.symm⟩
    | cons b left => exact .inr ⟨b :: left, hfirst, nofun⟩

/-- A stream of messages that breaks off gives the messages before the break, then an error. -/
theorem readMsgs_truncated {messages : List T} {r : Reader} {rest : Bytes} (hinv : Inverts encode decode)
    (hfit : ∀ m ∈ messages, Fits encode m) (hr : Calm r) (hc : frames encode messages = content r ++ rest)
    (hrest : rest ≠ []) :
    ∃ k r', k < messages.length ∧ readMsgs decode k r = (.ok (messages.take k), r') ∧
      (readMsg decode r').1 = .error .unexpectedEof := by
  induction messages generalizing r with
  | nil => exact absurd (List.append_eq_nil_iff.mp hc.symm).2 hrest
  | cons m messages ih =>
    obtain ⟨bytes, henc, hle⟩ := hfit m List.mem_cons_self
    rw [frames_cons henc] at hc
    rcases breaks hc with ⟨left, hleft, hframes⟩ | ⟨left, hframe, hne⟩
    · obtain ⟨r₁, hread, hr₁, hc₁⟩ := readMsg_frame hr hleft hle (hinv m bytes henc)
      obtain ⟨k, r', hk, hreads, heof⟩ := ih (fun x hx => hfit x (List.mem_cons_of_mem _ hx)) hr₁ (hc₁ ▸ hframes)
      refine ⟨k + 1, r', Nat.succ_lt_succ hk, ?_, heof⟩
      simp only [readMsgs, hread, hreads]
      rfl
    · exact ⟨0, r, Nat.succ_pos _, rfl, readMsg_short hr hframe hne hle⟩

/-- What the framing promises of a stream, whatever the chunks it is written and read in. -/
structure Framing (encode : T → Except String Bytes) (decode : Bytes → Except String T) : Prop where
  /-- Messages that fit are written where the writer takes bytes at all. -/
  writes : ∀ (messages : List T) (w : Writer), (∀ m ∈ messages, Fits encode m) → w.Steady →
    (writeMsgs encode w messages).1 = .ok ()
  /-- Messages written in turn are read in turn, from exactly the bytes written. -/
  reads : ∀ (messages : List T) (w w' : Writer), writeMsgs encode w messages = (.ok (), w') →
    ∃ stream, w'.written = w.written ++ stream ∧ ∀ r rest, Calm r → content r = stream ++ rest →
      ∃ r', readMsgs decode messages.length r = (.ok messages, r') ∧ content r' = rest
  /-- Where what was written breaks off, reading ends in an error behind the last whole message. -/
  truncated : ∀ (messages : List T) (w w' : Writer), writeMsgs encode w messages = (.ok (), w') →
    ∀ r rest, Calm r → w'.written = w.written ++ content r ++ rest → rest ≠ [] →
      ∃ k r', k < messages.length ∧ readMsgs decode k r = (.ok (messages.take k), r') ∧
        (readMsg decode r').1 = .error .unexpectedEof
  /-- A message over the limit is refused with nothing written. -/
  oversized : ∀ (m : T) (bytes : Bytes) (w : Writer), encode m = .ok bytes → maxFrame < bytes.length →
    writeMsg encode w m = (.error (frameLength 0), w)
  /-- A length over the limit is refused with nothing else read. -/
  overlong : ∀ r n rest, Calm r → content r = toLe 4 n ++ rest → n < 2 ^ 32 → maxFrame < n →
    ∃ r', readMsg decode r = (.error (frameLength n), r') ∧ content r' = rest
  /-- On any stream and any reader, a message is one whole frame within the limit. -/
  whole : ∀ r r' (m : T), readMsg decode r = (.ok m, r') →
    ∃ bytes, content r = frame bytes ++ content r' ∧ bytes.length ≤ maxFrame ∧ decode bytes = .ok m

theorem framing_round_trips (encode : T → Except String Bytes) (decode : Bytes → Except String T)
    (hinv : Inverts encode decode) : Framing encode decode where
  writes _ _ hfit hw := writeMsgs_steady hw hfit
  reads messages w w' h := by
    obtain ⟨hwritten, hfit⟩ := writeMsgs_written h
    refine ⟨frames encode messages, hwritten, fun r rest hr hc => ?_⟩
    obtain ⟨r', hread, -, hleft⟩ := readMsgs_frames hinv hfit hr hc
    exact ⟨r', hread, hleft⟩
  truncated messages w w' h r rest hr hc hrest := by
    obtain ⟨hwritten, hfit⟩ := writeMsgs_written h
    rw [hwritten, List.append_assoc] at hc
    exact readMsgs_truncated hinv hfit hr (List.append_cancel_left hc) hrest
  oversized _ _ w henc hlong := writeMsg_oversized w henc hlong
  overlong _ _ _ hr hc hn hlong := readMsg_oversized hr hc hn hlong
  whole _ _ _ h := readMsg_takes h

/-! ## Two flags on one stream -/

def encodeFlag (flag : Bool) : Except String Bytes :=
  .ok (if flag then [116, 114, 117, 101] else [102, 97, 108, 115, 101])

def decodeFlag (bytes : Bytes) : Except String Bool :=
  if bytes = [116, 114, 117, 101] then .ok true
  else if bytes = [102, 97, 108, 115, 101] then .ok false
  else .error "expected value at line 1 column 1"

def flagWriter : Writer where
  written := []
  answers := [.takes 3, .interrupted]
  flushed := .ok ()

/-- The stream of `true` and `false`, cut within the first length and within the second frame. -/
def flagReader : Reader :=
  [.data [4, 0], .interrupted, .data [0, 0, 116, 114, 117, 101, 5], .data [0, 0, 0, 102, 97, 108, 115], .data [101]]

theorem framing_round_trips_flags :
    ∃ r', readMsgs decodeFlag 2 flagReader = (.ok [true, false], r') ∧ content r' = [] := by
  have hinv : Inverts encodeFlag decodeFlag := by
    intro flag bytes h
    cases h
    cases flag <;> rfl
  have hframing := framing_round_trips encodeFlag decodeFlag hinv
  obtain ⟨stream, hstream, hreads⟩ := hframing.reads [true, false] flagWriter _ (Prod.ext rfl rfl)
  refine hreads flagReader [] ?_ ?_
  · intro a ha
    simp only [flagReader, List.mem_cons, List.not_mem_nil, or_false] at ha
    rcases ha with rfl | rfl | rfl | rfl | rfl
    · exact .inr ⟨_, _, rfl⟩
    · exact .inl rfl
    · exact .inr ⟨_, _, rfl⟩
    · exact .inr ⟨_, _, rfl⟩
    · exact .inr ⟨_, _, rfl⟩
  · rw [List.append_nil]
    exact Eq.trans rfl hstream

end AtriumPortal.Ipc.Codec
