import AtriumPortal.Lib.Path
import Mathlib.Algebra.Group.Nat.Defs
/-!
# Byte streams

Reading exactly some bytes and writing all of some bytes, over a reader and a writer that
answer each call as they like: in chunks of any size, with an interruption, with an error.
What is read is what the reader had, in order; what is written is what was given, in order.
-/

namespace AtriumPortal.Lib.Stream

open AtriumPortal.Lib.Path (Bytes)

/-- An I/O error by its kind. `other` is one that the operating system reports. -/
inductive Error where
  | unexpectedEof
  | writeZero
  | invalidData (text : String)
  | other (code : Nat)
  deriving DecidableEq, Repr

/-! ## Reading -/

/-- What a reader has next. An empty chunk is an end of the stream. -/
inductive Arrival where
  | data (chunk : Bytes)
  | interrupted
  | failed (error : Error)
  deriving DecidableEq, Repr

/-- A reader, by what it has to come. Past the last arrival the stream has ended. -/
abbrev Reader : Type := List Arrival

def Arrival.content : Arrival → Bytes
  | .data chunk => chunk
  | .interrupted => []
  | .failed _ => []

/-- The bytes a reader still has. -/
def content (r : Reader) : Bytes := r.flatMap Arrival.content

/-- `Read::read_exact`: reads again after a short read and after an interruption. -/
def readExact : Nat → Reader → Except Error Bytes × Reader
  | 0, r => (.ok [], r)
  | _ + 1, [] => (.error .unexpectedEof, [])
  | n + 1, .interrupted :: r => readExact (n + 1) r
  | _ + 1, .failed e :: r => (.error e, r)
  | _ + 1, .data [] :: r => (.error .unexpectedEof, r)
  | n + 1, .data (b :: chunk) :: r =>
    if n < chunk.length then (.ok (b :: chunk.take n), .data (chunk.drop n) :: r)
    else match readExact (n - chunk.length) r with
      | (.ok bytes, r') => (.ok (b :: chunk ++ bytes), r')
      | (.error e, r') => (.error e, r')

@[simp] theorem content_nil : content [] = [] := rfl

@[simp] theorem content_cons (a : Arrival) (r : Reader) : content (a :: r) = a.content ++ content r := rfl

/-- A reader that only ever delivers: in chunks of any size, interrupted as often as it likes. -/
def Calm (r : Reader) : Prop := ∀ a ∈ r, a = .interrupted ∨ ∃ b chunk, a = .data (b :: chunk)

theorem Calm.tail {a : Arrival} {r : Reader} (h : Calm (a :: r)) : Calm r :=
  fun x hx => h x (List.mem_cons_of_mem _ hx)

theorem Calm.cons {b : UInt8} {chunk : Bytes} {r : Reader} (h : Calm r) : Calm (.data (b :: chunk) :: r) := by
  intro x hx
  cases hx with
  | head => exact .inr ⟨b, chunk, rfl⟩
  | tail _ hx => exact h x hx

/-- Whatever the reader does, bytes that are read are the next ones it had. -/
theorem readExact_takes {n : Nat} {r r' : Reader} {bytes : Bytes} (h : readExact n r = (.ok bytes, r')) :
    content r = bytes ++ content r' ∧ bytes.length = n := by
  fun_induction readExact n r generalizing bytes with
  | case1 r =>
    cases h
    exact ⟨rfl, rfl⟩
  | case2 n => cases h
  | case3 n r ih => exact ih h
  | case4 n e r => cases h
  | case5 n r => cases h
  | case6 n b chunk r hlt =>
    cases h
    have hlen : (chunk.take n).length = n := List.length_take_of_le (Nat.le_of_lt hlt)
    exact ⟨by simp [Arrival.content, ← List.append_assoc], by simp [hlen]⟩
  | case7 n b chunk r hlt rest r₁ hrest ih =>
    cases h
    obtain ⟨hcontent, hlen⟩ := ih hrest
    exact ⟨by simp [Arrival.content, hcontent], by simp [hlen]; omega⟩
  | case8 n b chunk r hlt e r₁ hrest ih => cases h

/-- A calm reader that has enough gives exactly what is asked for and keeps the rest. -/
theorem readExact_calm {r : Reader} (n : Nat) (hr : Calm r) (hn : n ≤ (content r).length) :
    ∃ r', readExact n r = (.ok ((content r).take n), r') ∧ Calm r' ∧ content r' = (content r).drop n := by
  fun_induction readExact n r with
  | case1 r => exact ⟨r, by simp, hr, rfl⟩
  | case2 n => simp at hn
  | case3 n r ih => exact ih hr.tail hn
  | case4 n e r =>
    rcases hr _ (List.mem_cons_self) with h | ⟨_, _, h⟩ <;> cases h
  | case5 n r =>
    rcases hr _ (List.mem_cons_self) with h | ⟨_, _, h⟩ <;> cases h
  | case6 n b chunk r hlt =>
    obtain ⟨c, left, hdrop⟩ : ∃ c left, chunk.drop n = c :: left :=
      List.exists_cons_of_length_pos (by simp; omega)
    refine ⟨.data (chunk.drop n) :: r, ?_, hdrop ▸ hr.tail.cons, ?_⟩
    · simp [Arrival.content, List.take_append_of_le_length (Nat.le_of_lt hlt)]
    · simp [Arrival.content, List.drop_append_of_le_length (Nat.le_of_lt hlt)]
  | case7 n b chunk r hlt rest r₁ hrest ih =>
    simp only [content_cons, Arrival.content, List.cons_append, List.length_cons, List.length_append] at hn
    obtain ⟨r', hread, hcalm, hleft⟩ := ih hr.tail (by omega)
    obtain ⟨rfl, rfl⟩ : rest = (content r).take (n - chunk.length) ∧ r₁ = r' := by
      simpa using hrest.symm.trans hread
    have hle : chunk.length ≤ n := Nat.le_of_not_lt hlt
    refine ⟨r₁, ?_, hcalm, ?_⟩
    · simp [Arrival.content, List.take_append, List.take_of_length_le hle]
    · simp [Arrival.content, List.drop_append, List.drop_eq_nil_of_le hle, hleft]
  | case8 n b chunk r hlt e r₁ hrest ih =>
    simp only [content_cons, Arrival.content, List.cons_append, List.length_cons, List.length_append] at hn
    obtain ⟨r', hread, _⟩ := ih hr.tail (by omega)
    rw [hread] at hrest
    cases hrest

/-- A calm reader that has too little ends in the middle. -/
theorem readExact_short {n : Nat} {r : Reader} (hr : Calm r) (hn : (content r).length < n) :
    ∃ r', readExact n r = (.error .unexpectedEof, r') := by
  fun_induction readExact n r with
  | case1 r => simp at hn
  | case2 n => exact ⟨_, rfl⟩
  | case3 n r ih => exact ih hr.tail hn
  | case4 n e r =>
    rcases hr _ (List.mem_cons_self) with h | ⟨_, _, h⟩ <;> cases h
  | case5 n r => exact ⟨_, rfl⟩
  | case6 n b chunk r hlt =>
    simp only [content_cons, Arrival.content, List.cons_append, List.length_cons, List.length_append] at hn
    omega
  | case7 n b chunk r hlt rest r₁ hrest ih =>
    simp only [content_cons, Arrival.content, List.cons_append, List.length_cons, List.length_append] at hn
    obtain ⟨r', hshort⟩ := ih hr.tail (by omega)
    rw [hrest] at hshort
    cases hshort
  | case8 n b chunk r hlt e r₁ hrest ih =>
    simp only [content_cons, Arrival.content, List.cons_append, List.length_cons, List.length_append] at hn
    obtain ⟨r', hshort⟩ := ih hr.tail (by omega)
    obtain ⟨rfl, -⟩ : e = .unexpectedEof ∧ r₁ = r' := by simpa using hrest.symm.trans hshort
    exact ⟨r₁, rfl⟩

/-! ## Reading up to a delimiter -/

/-- Up to and with the delimiter, but at most so many bytes; and what is left. -/
def scan (delimiter : UInt8) : Nat → Bytes → Bytes × Bytes
  | 0, bytes => ([], bytes)
  | _ + 1, [] => ([], [])
  | n + 1, b :: bytes =>
    if b = delimiter then ([b], bytes) else (b :: (scan delimiter n bytes).1, (scan delimiter n bytes).2)

/-- What is left of a chunk stays with the reader. -/
def putBack (chunk : Bytes) (r : Reader) : Reader := if chunk = [] then r else .data chunk :: r

/-- `BufRead::read_until` on a reader that `take` limits. -/
def readUntil (delimiter : UInt8) : Nat → Reader → Except Error Bytes × Reader
  | 0, r => (.ok [], r)
  | _ + 1, [] => (.ok [], [])
  | n + 1, .interrupted :: r => readUntil delimiter (n + 1) r
  | _ + 1, .failed e :: r => (.error e, r)
  | _ + 1, .data [] :: r => (.ok [], r)
  | n + 1, .data (b :: chunk) :: r =>
    if delimiter ∈ (scan delimiter (n + 1) (b :: chunk)).1 ∨ (scan delimiter (n + 1) (b :: chunk)).2 ≠ [] then
      (.ok (scan delimiter (n + 1) (b :: chunk)).1, putBack (scan delimiter (n + 1) (b :: chunk)).2 r)
    else match readUntil delimiter (n - chunk.length) r with
      | (.ok bytes, r') => (.ok (b :: chunk ++ bytes), r')
      | (.error e, r') => (.error e, r')

section

variable {delimiter : UInt8}

@[simp] theorem scan_nil (n : Nat) : scan delimiter n [] = ([], []) := by cases n <;> rfl

theorem scan_split (n : Nat) (bytes : Bytes) : (scan delimiter n bytes).1 ++ (scan delimiter n bytes).2 = bytes := by
  fun_induction scan delimiter n bytes with
  | case1 => rfl
  | case2 => rfl
  | case3 => rfl
  | case4 n b bytes hb ih => rw [List.cons_append, ih]

theorem scan_length (n : Nat) (bytes : Bytes) : (scan delimiter n bytes).1.length ≤ n := by
  fun_induction scan delimiter n bytes with
  | case1 => exact Nat.le_refl _
  | case2 => exact Nat.zero_le _
  | case3 => exact Nat.succ_le_succ (Nat.zero_le _)
  | case4 n b bytes hb ih => exact Nat.succ_le_succ ih

/-- Bytes without the delimiter that fit are read through. -/
theorem scan_through {a : Bytes} (h : delimiter ∉ a) {n : Nat} (hn : a.length ≤ n) (rest : Bytes) :
    scan delimiter n (a ++ rest) =
      (a ++ (scan delimiter (n - a.length) rest).1, (scan delimiter (n - a.length) rest).2) := by
  induction a generalizing n with
  | nil => rfl
  | cons b a ih =>
    rw [List.length_cons] at hn
    obtain ⟨n, rfl⟩ : ∃ m, n = m + 1 := ⟨n - 1, by omega⟩
    have hb : b ≠ delimiter := fun hb => h (hb ▸ List.mem_cons_self)
    rw [List.cons_append, scan, if_neg hb, ih (fun hin => h (List.mem_cons_of_mem _ hin)) (by omega), List.length_cons,
      Nat.add_sub_add_right]
    rfl

/-- A line that fits is read with its delimiter. -/
theorem scan_line {a : Bytes} (h : delimiter ∉ a) {n : Nat} (hn : a.length < n) (rest : Bytes) :
    scan delimiter n (a ++ delimiter :: rest) = (a ++ [delimiter], rest) := by
  obtain ⟨m, hm⟩ : ∃ m, n - a.length = m + 1 := ⟨n - a.length - 1, by omega⟩
  rw [scan_through h (Nat.le_of_lt hn), hm, scan, if_pos rfl]

/-- A longer line is read up to the limit. -/
theorem scan_limit {a : Bytes} (h : delimiter ∉ a) {n : Nat} (hn : n ≤ a.length) (rest : Bytes) :
    scan delimiter n (a ++ rest) = (a.take n, a.drop n ++ rest) := by
  induction a generalizing n with
  | nil =>
    obtain rfl := Nat.le_zero.1 hn
    rfl
  | cons b a ih =>
    cases n with
    | zero => rfl
    | succ n =>
      have hb : b ≠ delimiter := fun hb => h (hb ▸ List.mem_cons_self)
      rw [List.cons_append, scan, if_neg hb,
        ih (fun hin => h (List.mem_cons_of_mem _ hin)) (Nat.le_of_succ_le_succ hn)]
      rfl

/-- Without a delimiter everything is read that fits. -/
theorem scan_open {a : Bytes} (h : delimiter ∉ a) {n : Nat} (hn : a.length ≤ n) : scan delimiter n a = (a, []) := by
  have hall := scan_through h hn []
  rwa [List.append_nil, scan_nil, List.append_nil] at hall

/-- A scan that ends within the first part does not look at the second. -/
theorem scan_append_done {n : Nat} {a : Bytes}
    (h : delimiter ∈ (scan delimiter n a).1 ∨ (scan delimiter n a).2 ≠ []) (b : Bytes) :
    scan delimiter n (a ++ b) = ((scan delimiter n a).1, (scan delimiter n a).2 ++ b) := by
  fun_induction scan delimiter n a with
  | case1 => rfl
  | case2 => simp at h
  | case3 n bytes => simp [scan]
  | case4 n b' bytes hb ih =>
    have hrest : delimiter ∈ (scan delimiter n bytes).1 ∨ (scan delimiter n bytes).2 ≠ [] := by
      rcases h with h | h
      · exact .inl ((List.mem_cons.1 h).resolve_left fun heq => hb heq.symm)
      · exact .inr h
    rw [List.cons_append, scan, if_neg hb, ih hrest]

/-- Otherwise it goes on there with what is left of the limit. -/
theorem scan_append_more {n : Nat} {a : Bytes}
    (h : ¬ (delimiter ∈ (scan delimiter n a).1 ∨ (scan delimiter n a).2 ≠ [])) (b : Bytes) :
    scan delimiter n (a ++ b) =
      (a ++ (scan delimiter (n - a.length) b).1, (scan delimiter (n - a.length) b).2) := by
  have hnil : (scan delimiter n a).2 = [] := by
    by_contra hne
    exact h (.inr hne)
  have hall : (scan delimiter n a).1 = a := by
    have hsplit := @scan_split delimiter n a
    rwa [hnil, List.append_nil] at hsplit
  refine scan_through (fun hin => h (.inl (hall.symm ▸ hin))) ?_ b
  exact hall ▸ scan_length n a

theorem content_putBack (chunk : Bytes) (r : Reader) : content (putBack chunk r) = chunk ++ content r := by
  unfold putBack
  split
  · next h => rw [h, List.nil_append]
  · rfl

theorem Calm.putBack {chunk : Bytes} {r : Reader} (h : Calm r) : Calm (putBack chunk r) := by
  unfold Stream.putBack
  split
  · exact h
  · next hne =>
    obtain ⟨b, rest, rfl⟩ := List.exists_cons_of_ne_nil hne
    exact h.cons

/-- However a calm reader's bytes come in chunks, what is read is a scan of them. -/
theorem readUntil_calm (delimiter : UInt8) (n : Nat) {r : Reader} (hr : Calm r) : ∃ r',
    readUntil delimiter n r = (.ok (scan delimiter n (content r)).1, r') ∧ Calm r' ∧
      content r' = (scan delimiter n (content r)).2 := by
  fun_induction readUntil delimiter n r with
  | case1 r => exact ⟨r, rfl, hr, rfl⟩
  | case2 n => exact ⟨[], rfl, hr, rfl⟩
  | case3 n r ih => exact ih hr.tail
  | case4 n e r =>
    rcases hr _ (List.mem_cons_self) with h | ⟨_, _, h⟩ <;> cases h
  | case5 n r =>
    rcases hr _ (List.mem_cons_self) with h | ⟨_, _, h⟩ <;> cases h
  | case6 n b chunk r hdone =>
    have hscan := scan_append_done hdone (content r)
    refine ⟨Stream.putBack (scan delimiter (n + 1) (b :: chunk)).2 r, ?_, hr.tail.putBack, ?_⟩
    · rw [content_cons, Arrival.content, hscan]
    · rw [content_putBack, content_cons, Arrival.content, hscan]
  | case7 n b chunk r hmore bytes r' hread ih =>
    obtain ⟨r'', hr'', hcalm, hcontent⟩ := ih hr.tail
    obtain ⟨rfl, rfl⟩ : bytes = (scan delimiter (n - chunk.length) (content r)).1 ∧ r' = r'' := by
      simpa using hread.symm.trans hr''
    have hscan := scan_append_more hmore (content r)
    rw [List.length_cons, Nat.add_sub_add_right] at hscan
    refine ⟨r', ?_, hcalm, ?_⟩
    · rw [content_cons, Arrival.content, hscan]
    · rw [content_cons, Arrival.content, hscan, hcontent]
  | case8 n b chunk r hmore e r' hread ih =>
    obtain ⟨r'', hr'', -⟩ := ih hr.tail
    cases hread.symm.trans hr''

end

/-! ## Writing -/

/-- How a writer answers one call: it takes so many bytes at most, or none with an error. -/
inductive Answer where
  | takes (n : Nat)
  | interrupted
  | failed (error : Error)
  deriving DecidableEq, Repr

/-- A writer: what it was given, its answers to come and the answer to a flush. Past the
last answer it takes everything. -/
structure Writer where
  written : Bytes
  answers : List Answer
  flushed : Except Error Unit

/-- The loop of `Write::write_all`: what was taken of the buffer, and the answers left. -/
def writeLoop : Bytes → List Answer → Except Error Unit × Bytes × List Answer
  | [], answers => (.ok (), [], answers)
  | b :: buf, [] => (.ok (), b :: buf, [])
  | b :: buf, .interrupted :: answers => writeLoop (b :: buf) answers
  | _ :: _, .failed e :: answers => (.error e, [], answers)
  | _ :: _, .takes 0 :: answers => (.error .writeZero, [], answers)
  | b :: buf, .takes (n + 1) :: answers =>
    let (result, taken, answers') := writeLoop (buf.drop n) answers
    (result, b :: buf.take n ++ taken, answers')

/-- `Write::write_all`. -/
def Writer.writeAll (w : Writer) (buf : Bytes) : Except Error Unit × Writer :=
  let (result, taken, answers) := writeLoop buf w.answers
  (result, { w with written := w.written ++ taken, answers := answers })

/-- A writer that only ever takes: some bytes at a time, interrupted as often as it likes. -/
def Writer.Steady (w : Writer) : Prop :=
  (∀ a ∈ w.answers, a = .interrupted ∨ ∃ n, a = .takes (n + 1)) ∧ w.flushed = .ok ()

theorem writeLoop_takes (buf : Bytes) (answers : List Answer) :
    (writeLoop buf answers).1 = .ok () → (writeLoop buf answers).2.1 = buf := by
  intro h
  fun_induction writeLoop buf answers with
  | case1 => rfl
  | case2 => rfl
  | case3 b buf answers ih => exact ih h
  | case4 => cases h
  | case5 => cases h
  | case6 b buf n answers result taken answers' hloop ih =>
    rw [hloop] at ih
    have htaken : taken = buf.drop n := ih h
    simp [htaken]

/-- Whatever the writer answers, it takes a start of the buffer. -/
theorem writeLoop_prefix (buf : Bytes) (answers : List Answer) : (writeLoop buf answers).2.1 <+: buf := by
  fun_induction writeLoop buf answers with
  | case1 => exact List.nil_prefix
  | case2 => exact List.prefix_refl _
  | case3 b buf answers ih => exact ih
  | case4 => exact List.nil_prefix
  | case5 => exact List.nil_prefix
  | case6 b buf n answers result taken answers' hloop ih =>
    rw [hloop] at ih
    have htaken : taken <+: buf.drop n := ih
    obtain ⟨rest, hrest⟩ := htaken
    refine ⟨rest, ?_⟩
    show b :: buf.take n ++ taken ++ rest = b :: buf
    rw [List.cons_append, List.cons_append, List.append_assoc, hrest, List.take_append_drop]

theorem writeLoop_steady (buf : Bytes) {answers : List Answer}
    (h : ∀ a ∈ answers, a = .interrupted ∨ ∃ n, a = .takes (n + 1)) :
    (writeLoop buf answers).1 = .ok () ∧ ∀ a ∈ (writeLoop buf answers).2.2, a ∈ answers := by
  fun_induction writeLoop buf answers with
  | case1 => exact ⟨rfl, fun a ha => ha⟩
  | case2 => exact ⟨rfl, fun a ha => ha⟩
  | case3 b buf answers ih =>
    have hrest := ih (fun a ha => h a (List.mem_cons_of_mem _ ha))
    exact ⟨hrest.1, fun a ha => List.mem_cons_of_mem _ (hrest.2 a ha)⟩
  | case4 =>
    rcases h _ (List.mem_cons_self) with h | ⟨_, h⟩ <;> cases h
  | case5 =>
    rcases h _ (List.mem_cons_self) with h | ⟨_, h⟩ <;> cases h
  | case6 b buf n answers result taken answers' hloop ih =>
    have hrest := ih (fun a ha => h a (List.mem_cons_of_mem _ ha))
    rw [hloop] at hrest
    exact ⟨hrest.1, fun a ha => List.mem_cons_of_mem _ (hrest.2 a ha)⟩

/-- A write that succeeds has written the buffer behind what was there. -/
theorem Writer.writeAll_written {w w' : Writer} {buf : Bytes} (h : w.writeAll buf = (.ok (), w')) :
    w'.written = w.written ++ buf ∧ w'.flushed = w.flushed := by
  have hloop : (writeLoop buf w.answers).1 = .ok () := congrArg Prod.fst h
  have hw : w' = (w.writeAll buf).2 := (congrArg Prod.snd h).symm
  rw [hw]
  exact ⟨congrArg (w.written ++ ·) (writeLoop_takes _ _ hloop), rfl⟩

theorem Writer.Steady.writeAll {w : Writer} (h : w.Steady) (buf : Bytes) :
    ∃ w', w.writeAll buf = (.ok (), w') ∧ w'.Steady := by
  obtain ⟨hok, hanswers⟩ := writeLoop_steady buf h.1
  refine ⟨(w.writeAll buf).2, ?_, fun a ha => h.1 a (hanswers a ha), h.2⟩
  exact congrArg (Prod.mk · (w.writeAll buf).2) hok

/-! ## Little-endian numbers -/

/-- The lowest bytes of a number, the lowest first. -/
def toLe : Nat → Nat → Bytes
  | 0, _ => []
  | width + 1, n => UInt8.ofNat (n % 256) :: toLe width (n / 256)

def fromLe : Bytes → Nat
  | [] => 0
  | b :: bytes => b.toNat + 256 * fromLe bytes

@[simp] theorem length_toLe (width n : Nat) : (toLe width n).length = width := by
  induction width generalizing n with
  | zero => rfl
  | succ width ih => simp [toLe, ih]

theorem fromLe_toLe {width n : Nat} (h : n < 256 ^ width) : fromLe (toLe width n) = n := by
  induction width generalizing n with
  | zero =>
    have : n = 0 := by simpa using h
    exact this.symm
  | succ width ih =>
    have hdiv : n / 256 < 256 ^ width := Nat.div_lt_of_lt_mul (by rw [Nat.pow_succ] at h; omega)
    have hlow : (UInt8.ofNat (n % 256)).toNat = n % 256 := by
      simp
    simp only [toLe, fromLe, ih hdiv, hlow]
    omega

theorem toLe_fromLe (bytes : Bytes) : toLe bytes.length (fromLe bytes) = bytes := by
  induction bytes with
  | nil => rfl
  | cons b bytes ih =>
    have hb : b.toNat < 256 := b.toNat_lt
    have hlow : (b.toNat + 256 * fromLe bytes) % 256 = b.toNat := by omega
    have hhigh : (b.toNat + 256 * fromLe bytes) / 256 = fromLe bytes := by omega
    simp [toLe, fromLe, hlow, hhigh, ih]

end AtriumPortal.Lib.Stream
