import AtriumPortal.Ipc.Reading
/-!
# What a reading loop leaves behind

On any items, well formed or not: a loop buffers nothing when nothing on the socket
surfaces, and what is behind its reply, with the descriptors of the reply, is still
unread when it returns. It reports an error reply only when it reaches one before
its own reply.
-/
open AtriumPortal.Ipc.Client

namespace AtriumPortal.Ipc.Leftover

/-- `stream_message` makes a stream message of the item. -/
def surfaces : Item → Bool
  | .message (.event (.streamFrame _)) => true
  | .message (.event (.streamEnded _ _)) => true
  | .message (.event (.streamGeometryChanged _ _ _)) => true
  | .message (.response (.leaseRenewed _)) => true
  | _ => false

/-- The reply of `start_output_stream`, with how many descriptors its table has. -/
def startReply : Message → Option Nat
  | .response (.streamOutputStarted _ _ _ (.dmabuf _ _) (some slots) (some _) (some _)) => some slots
  | .response (.streamOutputStarted _ _ _ _ _ _ _) => some 0
  | _ => none

/-- The reply of `stop_output_stream`, which has no descriptors. -/
def stopReply : Message → Option Nat
  | .response (.streamOutputStopped _) => some 0
  | _ => none

/-- The items behind the first such reply and its descriptors. -/
def afterReply (reply : Message → Option Nat) : List Item → List Item
  | [] => []
  | .descriptor _ :: rest => afterReply reply rest
  | .message m :: rest =>
    match reply m with
    | some count => rest.drop count
    | none => afterReply reply rest

/-- The items behind the first one that surfaces. -/
def behindEvent : List Item → List Item
  | [] => []
  | item :: rest => if surfaces item then rest else behindEvent rest

theorem afterReply_suffix_tail (reply : Message → Option Nat) (item : Item) (rest : List Item) :
    afterReply reply (item :: rest) <:+ rest := by
  induction rest generalizing item with
  | nil =>
    cases item with
    | descriptor file => exact List.suffix_refl _
    | message m =>
      unfold afterReply
      split
      · exact List.drop_suffix _ _
      · exact List.suffix_refl _
  | cons next rest ih =>
    have hrest := (ih next).trans (List.suffix_cons next rest)
    cases item with
    | descriptor file => exact hrest
    | message m =>
      unfold afterReply
      split
      · exact List.drop_suffix _ _
      · exact hrest

theorem afterReply_suffix (reply : Message → Option Nat) (wire : List Item) : afterReply reply wire <:+ wire := by
  cases wire with
  | nil => exact List.suffix_refl _
  | cons item rest => exact (afterReply_suffix_tail reply item rest).trans (List.suffix_cons item rest)

theorem afterReply_descriptors (reply : Message → Option Nat) (files : List File) (rest : List Item) :
    afterReply reply (files.map .descriptor ++ rest) = afterReply reply rest := by
  induction files with
  | nil => rfl
  | cons file files ih => exact ih

/-- A suffix of something that is not empty. -/
theorem ne_nil_of_suffix {xs ys : List Item} (h : xs <:+ ys) (hx : xs ≠ []) : ys ≠ [] := by
  rintro rfl
  exact hx (List.suffix_nil.1 h)

/-! ## Taking descriptors -/

/-- The error that `stream_message` makes of an error reply. -/
def reported : IoError → Bool
  | .other _ => true
  | _ => false

def error? {α : Type} : Except IoError α → Option IoError
  | .error e => some e
  | .ok _ => none

/-- At most `count` items were taken. -/
structure Drops (count : Nat) (c c' : Client) : Prop where
  pending : c'.pending = c.pending
  writable : c'.writable = c.writable
  suffix : c'.wire <:+ c.wire
  leaves : c.wire.drop count <:+ c'.wire

/-- Exactly `count` descriptors were taken when all went well. -/
structure Takes (count : Nat) (error : Option IoError) (c c' : Client) : Prop extends Drops count c c' where
  all : error = none → ∃ files : List File, files.length = count ∧ c.wire = files.map .descriptor ++ c'.wire
  unreported : ∀ e, error = some e → reported e = false

theorem Drops.of_eq {c c' : Client} (count : Nat) (hw : c'.wire = c.wire) (hp : c'.pending = c.pending)
    (hwr : c'.writable = c.writable) : Drops count c c' :=
  ⟨hp, hwr, hw ▸ List.suffix_refl _, by rw [hw]; exact List.drop_suffix _ _⟩

theorem Drops.head {c c' : Client} {item : Item} {rest : List Item} (hw : c.wire = item :: rest) (hw' : c'.wire = rest)
    (hp : c'.pending = c.pending) (hwr : c'.writable = c.writable) : Drops 1 c c' :=
  ⟨hp, hwr, by rw [hw, hw']; exact List.suffix_cons _ _, by rw [hw, hw']; exact List.suffix_refl _⟩

namespace Takes

variable {c c' c'' : Client} {count more : Nat} {error : Option IoError}

/-- Nothing was taken, and nothing asked for. -/
theorem nothing (hw : c'.wire = c.wire) (hp : c'.pending = c.pending) (hwr : c'.writable = c.writable) :
    Takes 0 none c c' :=
  ⟨.of_eq 0 hw hp hwr, fun _ => ⟨[], rfl, hw.symm⟩, nofun⟩

/-- A check failed before anything was taken. -/
theorem refused (count : Nat) (c : Client) {e : IoError} (he : reported e = false) : Takes count (some e) c c :=
  ⟨.of_eq count rfl rfl rfl, nofun, fun _ h => by cases h; exact he⟩

/-- A check on what was taken failed. -/
theorem checked (h : Takes count error c c') {e : IoError} (he : reported e = false) : Takes count (some e) c c' :=
  ⟨h.toDrops, nofun, fun _ h => by cases h; exact he⟩

/-- It does not matter what more was asked for once something failed. -/
theorem failed {e : IoError} (h : Takes count (some e) c c') : Takes (count + more) (some e) c c' := by
  have hdrop : c.wire.drop (count + more) <:+ c.wire.drop count := by
    rw [← List.drop_drop]
    exact List.drop_suffix _ _
  exact ⟨⟨h.pending, h.writable, h.suffix, hdrop.trans h.leaves⟩, nofun, h.unreported⟩

theorem drop_eq (h : Takes count none c c') : c.wire.drop count = c'.wire := by
  obtain ⟨files, hlen, hw⟩ := h.all rfl
  rw [hw, List.drop_left' (by simpa using hlen)]

theorem trans (h : Takes count none c c') (h' : Takes more error c' c'') : Takes (count + more) error c c'' := by
  have hleaves : c.wire.drop (count + more) <:+ c''.wire := by
    rw [← List.drop_drop, h.drop_eq]
    exact h'.leaves
  refine ⟨⟨h'.pending.trans h.pending, h'.writable.trans h.writable, h'.suffix.trans h.suffix, hleaves⟩,
    fun herror => ?_, h'.unreported⟩
  obtain ⟨files, hlen, hw⟩ := h.all rfl
  obtain ⟨files', hlen', hw'⟩ := h'.all herror
  exact ⟨files ++ files', by simp [hlen, hlen'], by rw [hw, hw', List.map_append, List.append_assoc]⟩

theorem afterReply_eq (h : Takes count none c c') (reply : Message → Option Nat) :
    afterReply reply c.wire = afterReply reply c'.wire := by
  obtain ⟨files, -, hw⟩ := h.all rfl
  rw [hw, afterReply_descriptors]

end Takes

theorem Drops.afterReply_suffix {c c' : Client} {count : Nat} (h : Drops count c c') (hcount : count ≤ 1)
    (reply : Message → Option Nat) : afterReply reply c.wire <:+ c'.wire := by
  refine List.IsSuffix.trans ?_ h.leaves
  cases hw : c.wire with
  | nil => simp [afterReply]
  | cons item rest =>
    have htail := afterReply_suffix_tail reply item rest
    obtain rfl | rfl : count = 0 ∨ count = 1 := by omega
    · exact htail.trans (List.suffix_cons item rest)
    · exact htail

theorem receiveFd_takes (c : Client) : Takes 1 (error? c.receiveFd.1) c c.receiveFd.2 := by
  unfold receiveFd
  split
  · exact .refused 1 c rfl
  · split
    · exact .refused 1 c rfl
    · next file rest hw => exact ⟨.head hw rfl rfl rfl, fun _ => ⟨[file], rfl, hw⟩, nofun⟩
    · next m rest hw => exact ⟨.head hw rfl rfl rfl, nofun, fun _ h => by cases h; rfl⟩

theorem receiveMemfdFile_takes (c : Client) (bytes : Nat) :
    Takes 1 (error? (c.receiveMemfdFile bytes).1) c (c.receiveMemfdFile bytes).2 := by
  have h := receiveFd_takes c
  unfold receiveMemfdFile
  split
  · exact .refused 1 c rfl
  · rcases hr : c.receiveFd with ⟨_ | file, c'⟩ <;> rw [hr] at h
    · exact h
    · simp only
      split
      · exact h.checked rfl
      · split
        · exact h.checked rfl
        · exact h

theorem receiveDmabufFile_takes (c : Client) (bytes : Nat) :
    Takes 1 (error? (c.receiveDmabufFile bytes).1) c (c.receiveDmabufFile bytes).2 := by
  have h := receiveFd_takes c
  unfold receiveDmabufFile
  split
  · exact .refused 1 c rfl
  · rcases hr : c.receiveFd with ⟨_ | file, c'⟩ <;> rw [hr] at h
    · exact h
    · simp only
      split
      · exact h.checked rfl
      · split
        · exact h.checked rfl
        · exact h

theorem receiveSlots_takes (stride bytes count : Nat) : ∀ c : Client,
    Takes count (error? (c.receiveSlots stride bytes count).1) c (c.receiveSlots stride bytes count).2 := by
  induction count with
  | zero => exact fun c => .nothing rfl rfl rfl
  | succ count ih =>
    intro c
    have h := receiveDmabufFile_takes c bytes
    unfold receiveSlots
    rw [Nat.add_comm count 1]
    rcases hr : c.receiveDmabufFile bytes with ⟨_ | file, c'⟩ <;> rw [hr] at h
    · exact h.failed
    · have h' := Takes.trans h (ih c')
      simp only
      rcases hs : c'.receiveSlots stride bytes count with ⟨_ | table, c''⟩ <;> rw [hs] at h' <;> exact h'

theorem receivePayload_takes (c : Client) (header : FrameHeader) :
    ∃ count ≤ 1, Takes count (error? (c.receivePayload header).1) c (c.receivePayload header).2 := by
  unfold receivePayload
  split
  · exact ⟨0, by omega, .nothing rfl rfl rfl⟩
  · refine ⟨1, Nat.le_refl 1, ?_⟩
    split
    · have h := receiveMemfdFile_takes c header.byteLen
      rcases hr : c.receiveMemfdFile header.byteLen with ⟨_ | file, c'⟩ <;> rw [hr] at h <;> exact h
    · have h := receiveMemfdFile_takes c header.byteLen
      rcases hr : c.receiveMemfdFile header.byteLen with ⟨_ | file, c'⟩ <;> rw [hr] at h <;> exact h
    · have h := receiveDmabufFile_takes c header.byteLen
      rcases hr : c.receiveDmabufFile header.byteLen with ⟨_ | file, c'⟩ <;> rw [hr] at h <;> exact h

/-- A message is an error reply, or it is read with its descriptor. -/
theorem streamMessage_takes (c : Client) (m : Message) :
    (∃ text, m = .response (.error text) ∧ c.streamMessage m = (.error (.other text), c)) ∨
    ∃ count ≤ 1, Takes count (error? (c.streamMessage m).1) c (c.streamMessage m).2 := by
  unfold streamMessage
  split
  · next header =>
    obtain ⟨count, hcount, h⟩ := receivePayload_takes c header
    refine .inr ⟨count, hcount, ?_⟩
    rcases hr : c.receivePayload header with ⟨_ | payload, c'⟩ <;> rw [hr] at h <;> exact h
  · exact .inr ⟨0, by omega, .nothing rfl rfl rfl⟩
  · exact .inr ⟨0, by omega, .nothing rfl rfl rfl⟩
  · exact .inr ⟨0, by omega, .nothing rfl rfl rfl⟩
  · next text => exact .inl ⟨text, rfl, rfl⟩
  · exact .inr ⟨0, by omega, .refused 0 c rfl⟩
  · exact .inr ⟨0, by omega, .nothing rfl rfl rfl⟩

theorem streamMessage_drops (c : Client) (m : Message) : ∃ count ≤ 1, Drops count c (c.streamMessage m).2 := by
  rcases streamMessage_takes c m with ⟨text, -, hm⟩ | ⟨count, hcount, h⟩
  · rw [hm]
    exact ⟨0, by omega, .of_eq 0 rfl rfl rfl⟩
  · exact ⟨count, hcount, h.toDrops⟩

/-- Only an item that surfaces is made a stream message. -/
theorem streamMessage_skips {c c' : Client} {m : Message} {message : Option StreamMessage}
    (hs : surfaces (.message m) = false) (h : c.streamMessage m = (.ok message, c')) : message = none := by
  unfold streamMessage at h
  split at h
  · cases hs
  · cases hs
  · cases hs
  · cases hs
  · cases h
  · cases h
  · cases h; rfl

theorem streamMessage_none {c c' : Client} {m : Message} (h : c.streamMessage m = (.ok none, c')) :
    surfaces (.message m) = false ∧ c'.wire = c.wire := by
  unfold streamMessage at h
  split at h
  · next header => rcases hp : c.receivePayload header with ⟨_ | payload, c₁⟩ <;> rw [hp] at h <;> cases h
  · cases h
  · cases h
  · cases h
  · cases h
  · cases h
  · next hframe hended hgeometry hlease _ _ =>
    cases h
    refine ⟨?_, rfl⟩
    unfold surfaces
    split <;> simp_all

theorem streamMessage_geometry {c c' : Client} {m : Message} {id w h : Nat}
    (hm : c.streamMessage m = (.ok (some (.geometryChanged id w h)), c')) :
    m = .event (.streamGeometryChanged id w h) ∧ c' = c := by
  unfold streamMessage at hm
  split at hm
  · next header => rcases hp : c.receivePayload header with ⟨_ | payload, c₁⟩ <;> rw [hp] at hm <;> cases hm
  · cases hm
  · cases hm; exact ⟨rfl, rfl⟩
  · cases hm
  · cases hm
  · cases hm
  · cases hm

/-! ## Loops that buffer what races ahead of their reply -/

theorem readMsg_cases (c : Client) :
    (∃ e, reported e = false ∧ c.readMsg = (.error e, c)) ∨
    (∃ m rest, c.wire = .message m :: rest ∧ c.readMsg = (.ok m, { c with wire := rest })) ∨
    ∃ e file rest, reported e = false ∧ c.wire = .descriptor file :: rest ∧
      c.readMsg = (.error e, { c with wire := rest, aligned := false }) := by
  unfold readMsg
  cases ha : c.aligned with
  | false => exact .inl ⟨.misframed, rfl, by simp⟩
  | true =>
    cases hw : c.wire with
    | nil => exact .inl ⟨.timedOut, rfl, by simp⟩
    | cons item rest =>
      cases item with
      | message m => exact .inr (.inl ⟨m, rest, rfl, by simp⟩)
      | descriptor file => exact .inr (.inr ⟨.misframed, file, rest, rfl, rfl, by simp⟩)

/-- A loop that buffers stream messages until its reply. -/
structure Buffers {α : Type} (loop : Nat → Client → Outcome α) (reply : Message → Option Nat) : Prop where
  zero : ∀ c, loop 0 c = (.error .timedOut, c)
  fails : ∀ fuel c e c', c.readMsg = (.error e, c') → loop (fuel + 1) c = (.error e, c')
  skips : ∀ fuel c m c₁, c.readMsg = (.ok m, c₁) → reply m = none → loop (fuel + 1) c =
    match c₁.streamMessage m with
    | (.error e, c) => (.error e, c)
    | (.ok message, c) => loop fuel (c.buffer message)
  replies : ∀ fuel c m c₁ count, c.readMsg = (.ok m, c₁) → reply m = some count →
    Takes count (error? (loop (fuel + 1) c).1) c₁ (loop (fuel + 1) c).2

/-- Nothing is buffered, and nothing unread would be. -/
structure Quiet (c : Client) : Prop where
  pending : c.pending = []
  wire : ∀ item ∈ c.wire, surfaces item = false

theorem Drops.quiet {c c' : Client} {count : Nat} (h : Drops count c c') (hq : Quiet c) : Quiet c' :=
  ⟨h.pending.trans hq.pending, fun item hi => hq.wire item (h.suffix.subset hi)⟩

def isError : Item → Bool
  | .message (.response (.error _)) => true
  | _ => false

theorem streamMessage_not_error {c c' : Client} {m : Message} {message : Option StreamMessage}
    (h : c.streamMessage m = (.ok message, c')) : isError (.message m) = false := by
  unfold isError
  split
  · next hm => cases hm; simp [streamMessage] at h
  · rfl

/-- An error reply comes before the first item that ends the reading. -/
def reached (ends : Item → Bool) (wire : List Item) : Bool :=
  match wire.find? fun item => ends item || isError item with
  | some item => isError item
  | none => false

/-- The item is such a reply. -/
def isReply (reply : Message → Option Nat) : Item → Bool
  | .message m => (reply m).isSome
  | .descriptor _ => false

theorem reached_cons {ends : Item → Bool} {item : Item} (rest : List Item) (he : ends item = false)
    (hi : isError item = false) : reached ends (item :: rest) = reached ends rest := by
  simp [reached, he, hi]

theorem reached_descriptors (reply : Message → Option Nat) (files : List File) (rest : List Item) :
    reached (isReply reply) (files.map .descriptor ++ rest) = reached (isReply reply) rest := by
  induction files with
  | nil => rfl
  | cons file files ih => exact (reached_cons _ rfl rfl).trans ih

/-- What an operation that waits for a reply leaves unread: at least what is behind
the reply, and exactly that when it succeeds. -/
structure Leaves {α : Type} (reply : Message → Option Nat) (c : Client) (out : Outcome α) : Prop where
  quiet : Quiet c → Quiet out.2
  suffix : out.2.wire <:+ c.wire
  behind : afterReply reply c.wire <:+ out.2.wire
  all : error? out.1 = none → out.2.wire = afterReply reply c.wire
  reports : ∀ text, error? out.1 = some (.other text) → reached (isReply reply) c.wire = true

theorem Leaves.failed {α : Type} (reply : Message → Option Nat) (c : Client) {e : IoError} (he : reported e = false) :
    Leaves reply c ((.error e, c) : Outcome α) :=
  ⟨id, List.suffix_refl _, afterReply_suffix reply c.wire, nofun, fun text h => by cases h; cases he⟩

/-- The request was written first. -/
theorem Leaves.written {α : Type} {reply : Message → Option Nat} {c : Client} {sent : List Request} {out : Outcome α}
    (h : Leaves reply { c with sent := sent } out) : Leaves reply c out :=
  ⟨fun hq => h.quiet ⟨hq.pending, hq.wire⟩, h.suffix, h.behind, h.all, h.reports⟩

namespace Buffers

variable {α : Type} {loop : Nat → Client → Outcome α} {reply : Message → Option Nat}

theorem quiet (h : Buffers loop reply) (fuel : Nat) : ∀ c : Client, Quiet c → Quiet (loop fuel c).2 := by
  induction fuel with
  | zero => intro c hq; rw [h.zero c]; exact hq
  | succ fuel ih =>
    intro c hq
    rcases readMsg_cases c with ⟨e, -, hr⟩ | ⟨m, rest, hw, hr⟩ | ⟨e, file, rest, -, hw, hr⟩
    · rw [h.fails fuel c e c hr]; exact hq
    · have hrest : Quiet { c with wire := rest } := ⟨hq.pending, fun item hi => hq.wire item (by simp [hw, hi])⟩
      cases hreply : reply m with
      | some count => exact (h.replies fuel c m _ count hr hreply).quiet hrest
      | none =>
        obtain ⟨_, _, hdrops⟩ := streamMessage_drops { c with wire := rest } m
        rw [h.skips fuel c m _ hr hreply]
        rcases hm : streamMessage { c with wire := rest } m with ⟨_ | message, c'⟩ <;> rw [hm] at hdrops
        · exact hdrops.quiet hrest
        · rw [streamMessage_skips (hq.wire _ (by simp [hw])) hm]
          exact ih c' (hdrops.quiet hrest)
    · rw [h.fails fuel c e _ hr]
      exact ⟨hq.pending, fun item hi => hq.wire item (by simp [hw, hi])⟩

theorem suffix (h : Buffers loop reply) (fuel : Nat) : ∀ c : Client, (loop fuel c).2.wire <:+ c.wire := by
  induction fuel with
  | zero => exact fun c => ⟨[], by rw [h.zero c]; rfl⟩
  | succ fuel ih =>
    intro c
    rcases readMsg_cases c with ⟨e, -, hr⟩ | ⟨m, rest, hw, hr⟩ | ⟨e, file, rest, -, hw, hr⟩
    · exact ⟨[], by rw [h.fails fuel c e c hr]; rfl⟩
    · rw [hw]
      refine List.IsSuffix.trans ?_ (List.suffix_cons _ rest)
      cases hreply : reply m with
      | some count => exact (h.replies fuel c m _ count hr hreply).suffix
      | none =>
        obtain ⟨_, _, hdrops⟩ := streamMessage_drops { c with wire := rest } m
        rw [h.skips fuel c m _ hr hreply]
        rcases hm : streamMessage { c with wire := rest } m with ⟨_ | message, c'⟩ <;> rw [hm] at hdrops
        · exact hdrops.suffix
        · have hrest := ih (c'.buffer message)
          rw [show (c'.buffer message).wire = c'.wire by simp [Framing.buffer_eq]] at hrest
          exact hrest.trans hdrops.suffix
    · rw [h.fails fuel c e _ hr, hw]
      exact List.suffix_cons _ rest

theorem leaves (h : Buffers loop reply) (fuel : Nat) : ∀ c : Client, Leaves reply c (loop fuel c) := by
  suffices hbehind : ∀ c : Client, afterReply reply c.wire <:+ (loop fuel c).2.wire ∧
      (error? (loop fuel c).1 = none → (loop fuel c).2.wire = afterReply reply c.wire) ∧
      ∀ text, error? (loop fuel c).1 = some (.other text) → reached (isReply reply) c.wire = true from
    fun c => ⟨h.quiet fuel c, h.suffix fuel c, (hbehind c).1, (hbehind c).2.1, (hbehind c).2.2⟩
  induction fuel with
  | zero =>
    intro c
    rw [h.zero c]
    exact ⟨afterReply_suffix reply c.wire, nofun, nofun⟩
  | succ fuel ih =>
    intro c
    rcases readMsg_cases c with ⟨e, he, hr⟩ | ⟨m, rest, hw, hr⟩ | ⟨e, file, rest, he, hw, hr⟩
    · rw [h.fails fuel c e c hr]
      exact ⟨afterReply_suffix reply c.wire, nofun, fun text ht => by cases ht; cases he⟩
    · cases hreply : reply m with
      | some count =>
        have htakes := h.replies fuel c m _ count hr hreply
        rw [hw, show afterReply reply (.message m :: rest) = rest.drop count by simp [afterReply, hreply]]
        refine ⟨htakes.leaves, fun hwell => ?_, fun text ht => by cases htakes.unreported _ ht⟩
        rw [hwell] at htakes
        exact htakes.drop_eq.symm
      | none =>
        rw [h.skips fuel c m _ hr hreply, hw, show afterReply reply (.message m :: rest) = afterReply reply rest by
          simp [afterReply, hreply]]
        rcases streamMessage_takes { c with wire := rest } m with ⟨text, rfl, hm⟩ | ⟨count, hcount, htakes⟩
        · -- the loop reports the error reply
          rw [hm]
          exact ⟨afterReply_suffix reply rest, nofun, fun _ _ => by simp [reached, isReply, hreply, isError]⟩
        · rcases hm : streamMessage { c with wire := rest } m with ⟨e | message, c'⟩ <;> rw [hm] at htakes
          · exact ⟨htakes.afterReply_suffix hcount reply, nofun, fun text ht => by cases htakes.unreported _ ht⟩
          · obtain ⟨hsuffix, hall, hreports⟩ := ih (c'.buffer message)
            obtain ⟨files, -, hfiles⟩ := htakes.all rfl
            have hwire : (c'.buffer message).wire = c'.wire := by simp [Framing.buffer_eq]
            rw [hwire, ← htakes.afterReply_eq reply] at hsuffix hall
            refine ⟨hsuffix, hall, fun text ht => ?_⟩
            have hrest := hreports text ht
            rw [hwire] at hrest
            rw [← reached_descriptors reply files, ← hfiles] at hrest
            exact (reached_cons rest (by simp [isReply, hreply]) (streamMessage_not_error hm)).trans hrest
    · rw [h.fails fuel c e _ hr, hw]
      exact ⟨afterReply_suffix reply rest, nofun, fun text ht => by cases ht; cases he⟩

end Buffers

theorem startReply_isStarted {m : Message} (hm : (⟨m, []⟩ : Framing.Packet).isStarted = true) :
    ∃ count, startReply m = some count := by
  obtain ⟨id, w, h, f, s, t, b, rfl⟩ := (Framing.isStarted_iff ⟨m, []⟩).1 hm
  unfold startReply
  split
  · exact ⟨_, rfl⟩
  · exact ⟨_, rfl⟩
  · next hne => exact absurd rfl (hne id w h f s t b)

theorem startedSlots_takes (c : Client) {id w h : Nat} (f : StreamPixelFormat) (s t b : Option Nat) {count : Nat}
    (hreply : startReply (.response (.streamOutputStarted id w h f s t b)) = some count) :
    Takes count (error? (c.startedSlots f s t b).1) c (c.startedSlots f s t b).2 := by
  unfold startedSlots
  split
  · next slots stride bytes =>
    obtain rfl : slots = count := Option.some.inj hreply
    have h := receiveSlots_takes stride bytes slots c
    rcases hr : c.receiveSlots stride bytes slots with ⟨_ | table, c'⟩ <;> rw [hr] at h <;> exact h
  · obtain rfl : 0 = count := Option.some.inj hreply
    exact .nothing rfl rfl rfl
  · exact .refused count c rfl
  · next hne =>
    cases f with
    | dmabuf drmFormat modifier => exact absurd rfl (hne drmFormat modifier)
    | bgra8 | rgba8 => cases hreply; exact .nothing rfl rfl rfl
  · exact .refused count c rfl

theorem startLoop_buffers : Buffers (fun fuel c => c.startLoop fuel) startReply where
  zero := fun c => rfl
  fails := fun fuel c e c' hr => by rw [startLoop, hr]
  skips := fun fuel c m c₁ hr hs => by
    refine Framing.startLoop_other (p := ⟨m, []⟩) hr (Bool.eq_false_iff.2 fun h => ?_)
    obtain ⟨count, hc⟩ := startReply_isStarted h
    simp [hc] at hs
  replies := by
    intro fuel c m c₁ count hr hs
    have hstarted : ∃ id w h f s t b, m = .response (.streamOutputStarted id w h f s t b) := by
      unfold startReply at hs
      split at hs
      · exact ⟨_, _, _, _, _, _, _, rfl⟩
      · exact ⟨_, _, _, _, _, _, _, rfl⟩
      · cases hs
    obtain ⟨id, w, h, f, s, t, b, rfl⟩ := hstarted
    have htakes := startedSlots_takes c₁ f s t b hs
    rw [startLoop, hr]
    simp only
    rcases hss : c₁.startedSlots f s t b with ⟨_ | table, c'⟩ <;> rw [hss] at htakes <;> exact htakes

theorem stopLoop_buffers (streamId : Nat) : Buffers (fun fuel c => c.stopLoop streamId fuel) stopReply where
  zero := fun c => rfl
  fails := fun fuel c e c' hr => by rw [stopLoop, hr]
  skips := fun fuel c m c₁ hr hs => by
    refine Framing.stopLoop_other (p := ⟨m, []⟩) hr (Bool.eq_false_iff.2 fun hm => ?_)
    have hstopped : ∃ stopped, m = .response (.streamOutputStopped stopped) := by
      unfold Framing.Packet.isStopped at hm
      split at hm
      · next stopped hmessage => exact ⟨stopped, hmessage⟩
      · cases hm
    obtain ⟨stopped, rfl⟩ := hstopped
    cases hs
  replies := by
    intro fuel c m c₁ count hr hs
    unfold stopReply at hs
    split at hs
    · next stopped =>
      cases hs
      rw [stopLoop, hr]
      simp only
      split
      · exact .nothing rfl rfl rfl
      · exact .refused 0 c₁ rfl
    · cases hs

/-! ## The operations -/

theorem startOutputStream_leaves (c : Client) (maxFps : Option Nat) (target : StreamTarget) (dmabuf : Bool)
    (cursor : Option StreamCursorMode) : Leaves startReply c (c.startOutputStream maxFps target dmabuf cursor) := by
  unfold startOutputStream
  simp only
  split
  · exact .failed startReply c rfl
  · rcases Bool.eq_false_or_eq_true c.writable with hwr | hwr
    · rw [Framing.writeMsg_writable hwr]
      exact (startLoop_buffers.leaves (c.wire.length + 1) _).written
    · rw [Framing.writeMsg_not_writable hwr]
      exact .failed startReply c rfl

theorem stopOutputStream_leaves (c : Client) (streamId : Nat) : Leaves stopReply c (c.stopOutputStream streamId) := by
  unfold stopOutputStream
  rcases Bool.eq_false_or_eq_true c.writable with hwr | hwr
  · rw [Framing.writeMsg_writable hwr]
    exact ((stopLoop_buffers streamId).leaves (c.wire.length + 1) _).written
  · rw [Framing.writeMsg_not_writable hwr]
    exact .failed stopReply c rfl

theorem startOutputStream_unwritable {c : Client} (hwr : c.writable = false) (maxFps : Option Nat) (target : StreamTarget)
    (dmabuf : Bool) (cursor : Option StreamCursorMode) :
    ∃ e, reported e = false ∧ c.startOutputStream maxFps target dmabuf cursor = (.error e, c) := by
  unfold startOutputStream
  simp only [Framing.writeMsg_not_writable hwr]
  split <;> exact ⟨_, rfl, rfl⟩

theorem stopOutputStream_unwritable {c : Client} (hwr : c.writable = false) (streamId : Nat) :
    c.stopOutputStream streamId = (.error .write, c) := by
  unfold stopOutputStream
  rw [Framing.writeMsg_not_writable hwr]

/-- The lookup of the outputs reads one item at most and buffers nothing. -/
theorem enumerateOutputs_drops (c : Client) : Drops 1 c c.enumerateOutputs.2 := by
  have hread : ∀ c : Client, Drops 1 c c.readResponse.2 := by
    intro c
    unfold readResponse
    rcases readMsg_cases c with ⟨e, -, hr⟩ | ⟨m, rest, hw, hr⟩ | ⟨e, file, rest, -, hw, hr⟩ <;> rw [hr]
    · exact .of_eq 1 rfl rfl rfl
    · cases m <;> exact .head hw rfl rfl rfl
    · exact .head hw rfl rfl rfl
  unfold enumerateOutputs
  rcases Bool.eq_false_or_eq_true c.writable with hwr | hwr
  · rw [Framing.writeMsg_writable hwr]
    have h := hread { c with sent := c.sent ++ [.enumerateOutputs] }
    simp only
    rcases hr : readResponse { c with sent := c.sent ++ [.enumerateOutputs] } with ⟨_ | r, c'⟩ <;> rw [hr] at h
    · exact ⟨h.pending, h.writable, h.suffix, h.leaves⟩
    · cases r <;> exact ⟨h.pending, h.writable, h.suffix, h.leaves⟩
  · rw [Framing.writeMsg_not_writable hwr]
    exact .of_eq 1 rfl rfl rfl

/-! ## The stream reader buffers nothing -/

structure Keeps (c c' : Client) : Prop where
  pending : c'.pending = c.pending
  writable : c'.writable = c.writable
  suffix : c'.wire <:+ c.wire

theorem nextLoop_keeps (fuel : Nat) : ∀ c : Client, Keeps c (c.nextLoop fuel).2 := by
  induction fuel with
  | zero => exact fun c => ⟨rfl, rfl, List.suffix_refl _⟩
  | succ fuel ih =>
    intro c
    unfold nextLoop
    rcases readMsg_cases c with ⟨e, -, hr⟩ | ⟨m, rest, hw, hr⟩ | ⟨e, file, rest, -, hw, hr⟩ <;> rw [hr]
    · exact ⟨rfl, rfl, List.suffix_refl _⟩
    · obtain ⟨_, _, hdrops⟩ := streamMessage_drops { c with wire := rest } m
      have hkeeps : Keeps c (streamMessage { c with wire := rest } m).2 :=
        ⟨hdrops.pending, hdrops.writable, hw ▸ hdrops.suffix.trans (List.suffix_cons _ rest)⟩
      simp only
      rcases hm : streamMessage { c with wire := rest } m with ⟨_ | _ | message, c'⟩ <;> rw [hm] at hkeeps
      · exact hkeeps
      · have hrest := ih c'
        exact ⟨hrest.pending.trans hkeeps.pending, hrest.writable.trans hkeeps.writable,
          hrest.suffix.trans hkeeps.suffix⟩
      · exact hkeeps
    · exact ⟨rfl, rfl, hw ▸ List.suffix_cons _ rest⟩

/-- The item a stream message without a descriptor is made of. -/
def geometryOf : Item → Option StreamMessage
  | .message (.event (.streamGeometryChanged streamId width height)) => some (.geometryChanged streamId width height)
  | _ => none

/-- A geometry change that the stream reader returns is the first item that surfaces. -/
theorem nextLoop_geometry {id w h : Nat} {c' : Client} (fuel : Nat) : ∀ c : Client,
    c.nextLoop fuel = (.ok (.geometryChanged id w h), c') →
      (c.wire.find? surfaces).bind geometryOf = some (.geometryChanged id w h) ∧ c'.wire = behindEvent c.wire := by
  induction fuel with
  | zero => intro c h; cases h
  | succ fuel ih =>
    intro c hn
    unfold nextLoop at hn
    rcases readMsg_cases c with ⟨e, -, hr⟩ | ⟨m, rest, hw, hr⟩ | ⟨e, file, rest, -, hw, hr⟩ <;> rw [hr] at hn
    · cases hn
    · rcases hm : streamMessage { c with wire := rest } m with ⟨e | _ | message, c₁⟩ <;> simp only [hm] at hn
      · cases hn
      · obtain ⟨hs, hwire⟩ := streamMessage_none hm
        have hrest := ih c₁ hn
        rw [hwire] at hrest
        simpa [hw, behindEvent, hs] using hrest
      · cases hn
        obtain ⟨rfl, rfl⟩ := streamMessage_geometry hm
        rw [hw]
        exact ⟨rfl, rfl⟩
    · cases hn

/-- The stream reader reports an error reply only when nothing surfaces before it. -/
theorem nextLoop_reports {text : String} {c' : Client} (fuel : Nat) : ∀ c : Client,
    c.nextLoop fuel = (.error (.other text), c') → reached surfaces c.wire = true := by
  induction fuel with
  | zero => intro c h; cases h
  | succ fuel ih =>
    intro c hn
    unfold nextLoop at hn
    rcases readMsg_cases c with ⟨e, he, hr⟩ | ⟨m, rest, hw, hr⟩ | ⟨e, file, rest, he, hw, hr⟩ <;> rw [hr] at hn
    · cases hn; cases he
    · simp only at hn
      rcases streamMessage_takes { c with wire := rest } m with ⟨text, rfl, hm⟩ | ⟨count, hcount, htakes⟩
      · simp [hw, reached, surfaces, isError]
      · rcases hm : streamMessage { c with wire := rest } m with ⟨e | _ | message, c₁⟩ <;> rw [hm] at htakes <;>
          simp only [hm] at hn
        · cases hn; cases htakes.unreported _ rfl
        · obtain ⟨hs, hwire⟩ := streamMessage_none hm
          have hrest := ih c₁ hn
          rw [hwire] at hrest
          rw [hw]
          exact (reached_cons rest hs (streamMessage_not_error hm)).trans hrest
        · cases hn
    · cases hn; cases he

end AtriumPortal.Ipc.Leftover
