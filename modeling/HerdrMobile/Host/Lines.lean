import HerdrMobile.Lib.Delimited
import HerdrMobile.Lib.Utf8
import HerdrMobile.Proto.Codes

/-!
# The lines of the Herdr socket

A buffered reader over the reads of a stream, and the line that is read from it up to a limit. The
limit is on what one call reads, not on a line: the next call goes on where it stopped.
-/
namespace HerdrMobile.Host.Lines

open HerdrMobile.Lib.Delimited HerdrMobile.Lib.Utf8
open HerdrMobile.Lib.Strings (Text)
open HerdrMobile.Proto.Codes (Bytes)

set_option autoImplicit false

def newline : UInt8 := 0x0A

/-- What one read of the socket gives before the end of the stream. -/
abbrev Chunk := {bytes : Bytes // bytes ≠ []}

/-- `BufReader`, with the reads that are still to come. -/
structure Reader where
  buffer : Bytes
  reads : List Chunk

namespace Reader

/-- All that is still to be read. -/
def stream (r : Reader) : Bytes := r.buffer ++ (r.reads.map Subtype.val).flatten

def fillBuf (r : Reader) : Reader :=
  match r.buffer, r.reads with
  | [], chunk :: reads => ⟨chunk.1, reads⟩
  | _, _ => r

def consume (r : Reader) (amount : Nat) : Reader := { r with buffer := r.buffer.drop amount }

theorem stream_fillBuf (r : Reader) : r.fillBuf.stream = r.stream := by
  obtain ⟨buffer, reads⟩ := r
  cases buffer with
  | cons b buffer => rfl
  | nil =>
    cases reads with
    | nil => rfl
    | cons chunk reads => simp [fillBuf, stream]

theorem stream_of_empty {r : Reader} (h : r.fillBuf.buffer = []) : r.stream = [] := by
  obtain ⟨buffer, reads⟩ := r
  cases buffer with
  | cons b buffer => cases h
  | nil =>
    cases reads with
    | nil => rfl
    | cons chunk reads => exact absurd h chunk.2

theorem stream_consume {r : Reader} {amount : Nat} (h : amount ≤ r.buffer.length) :
    (r.consume amount).stream = r.stream.drop amount := by
  rw [stream, stream, consume, List.drop_append_of_le_length h]

end Reader

/-- As much as `Take` lets through; without one, all. -/
def limited (limit : Option Nat) (bytes : Bytes) : Bytes :=
  match limit with
  | none => bytes
  | some n => bytes.take n

theorem length_limited_le (limit : Option Nat) (bytes : Bytes) :
    (limited limit bytes).length ≤ bytes.length := by
  cases limit with
  | none => exact Nat.le_refl _
  | some n => exact List.length_take_le' n bytes

/-- `read_until` for a newline. An empty buffer is the end of the stream. -/
def readUntil (limit : Option Nat) (r : Reader) : Bytes × Reader :=
  if limit = some 0 then ([], r)
  else if newline ∈ limited limit r.fillBuf.buffer then
    let line := through newline (limited limit r.fillBuf.buffer)
    (line, r.fillBuf.consume line.length)
  else if limited limit r.fillBuf.buffer = [] then ([], r.fillBuf)
  else
    let available := limited limit r.fillBuf.buffer
    let result := readUntil (limit.map (· - available.length)) (r.fillBuf.consume available.length)
    (available ++ result.1, result.2)
termination_by r.stream.length
decreasing_by
  rename_i hnonempty
  have hpos := List.length_pos_iff.mpr hnonempty
  have hle := length_limited_le limit r.fillBuf.buffer
  have hstream : r.fillBuf.buffer.length ≤ r.stream.length := by
    rw [← r.stream_fillBuf, Reader.stream, List.length_append]
    omega
  rw [Reader.stream_consume hle, Reader.stream_fillBuf, List.length_drop]
  omega

inductive ReadError where
  | invalidData
deriving DecidableEq, Repr

/-- `read_line` into an empty string, with the count of the bytes. They are gone also where they
are no text. -/
def readString (limit : Option Nat) (r : Reader) : Except ReadError (Nat × Text) × Reader :=
  let result := readUntil limit r
  match fromUtf8 result.1 with
  | none => (.error .invalidData, result.2)
  | some line => (.ok (result.1.length, line), result.2)

def readBoundedLine (r : Reader) (maxBytes : Nat) : Except ReadError (Nat × Text) × Reader :=
  readString (some maxBytes) r

structure SubscriptionConnection where
  reader : Reader
  maxResponseBytes : Nat

def readLine (c : SubscriptionConnection) :
    Except ReadError (Option Text) × SubscriptionConnection :=
  match readBoundedLine c.reader c.maxResponseBytes with
  | (.error error, reader) => (.error error, { c with reader })
  | (.ok (read, line), reader) =>
    (.ok (if read = 0 then none else some line), { c with reader })

/-- The reader thread, for so many turns: what it puts on the channel. -/
def spawnReader : Nat → SubscriptionConnection → List (Except ReadError Text)
  | 0, _ => []
  | turns + 1, c =>
    match readLine c with
    | (.ok (some line), c) => .ok line :: spawnReader turns c
    | (.ok none, _) => []
    | (.error error, _) => [.error error]

/-- `stream.take(max_bytes)` under the buffer. -/
def takeReads : Nat → List Chunk → List Chunk
  | _, [] => []
  | 0, _ => []
  | limit + 1, chunk :: reads =>
    ⟨chunk.1.take (limit + 1), by simp [chunk.2]⟩ :: takeReads (limit + 1 - chunk.1.length) reads

/-- The reply, when the request is written. -/
def exchange (reads : List Chunk) (maxBytes : Nat) : Except ReadError Text :=
  match (readString none ⟨[], takeReads maxBytes reads⟩).1 with
  | .error error => .error error
  | .ok (_, line) => .ok line

/-- The connection after so many calls. -/
def after : Nat → SubscriptionConnection → SubscriptionConnection
  | 0, c => c
  | calls + 1, c => after calls (readLine c).2

def callAt (call : Nat) (c : SubscriptionConnection) : Except ReadError (Option Text) :=
  (readLine (after call c)).1

/-- The calls return the lines, and never anything after the first line that is over the limit or
has no end. -/
structure Framed (c : SubscriptionConnection) : Prop where
  lines : ∀ (call : Nat) line,
    (leading newline c.maxResponseBytes c.reader.stream)[call]? = some line →
      ∃ text, callAt call c = .ok (some text) ∧ utf8 text = line
  ends : ∀ call, (leading newline c.maxResponseBytes c.reader.stream).length ≤ call →
    ∀ text, callAt call c ≠ .ok (some text)

/-- The reply is the first line; where there is none within the limit, it is at most empty. -/
def FramedReply (stream : Bytes) (maxBytes : Nat) (reply : Except ReadError Text) : Prop :=
  match leading newline maxBytes stream with
  | line :: _ => ∃ text, reply = .ok text ∧ utf8 text = line
  | [] => ∀ text, reply = .ok text → text = []

/-- Neither a text nor empty, or empty. -/
def Unread (bytes : Bytes) : Prop := bytes = [] ∨ fromUtf8 bytes = none

/-- The lines are texts, and of the pieces after them, through a newline or as long as the limit,
none is. -/
structure Readable (stream : Bytes) (maxBytes : Nat) : Prop where
  lines : ∀ line ∈ leading newline maxBytes stream, ∃ text, utf8 text = line
  ends : ∀ n, Unread (pieceAt newline maxBytes n (remaining newline maxBytes stream))

def ReadableReply (stream : Bytes) (maxBytes : Nat) : Prop :=
  match leading newline maxBytes stream with
  | line :: _ => ∃ text, utf8 text = line
  | [] => Unread (piece newline maxBytes stream)

variable {c : SubscriptionConnection} {r : Reader} {limit : Option Nat} {reads : List Chunk}

theorem limited_drop {bytes : Bytes} {k : Nat} (h : k ≤ (limited limit bytes).length) :
    limited limit bytes = bytes.take k ++ limited (limit.map (· - k)) (bytes.drop k) := by
  cases limit with
  | none => exact (List.take_append_drop k bytes).symm
  | some n =>
    have hk : k ≤ n := h.trans (List.length_take_le n bytes)
    calc bytes.take n = bytes.take (k + (n - k)) := by rw [Nat.add_sub_cancel' hk]
      _ = bytes.take k ++ (bytes.drop k).take (n - k) := List.take_add ..

theorem limited_append (limit : Option Nat) (a b : Bytes) :
    limited limit (a ++ b) = limited limit a ++ limited (limit.map (· - a.length)) b := by
  cases limit with
  | none => rfl
  | some n => exact List.take_append

theorem take_limited (limit : Option Nat) (bytes : Bytes) :
    bytes.take (limited limit bytes).length = limited limit bytes := by
  cases limit with
  | none => exact List.take_length
  | some n => simp [limited]

/-- What the buffer shows is where the stream begins. -/
theorem stream_limited (limit : Option Nat) (r : Reader) :
    ∃ rest, limited limit r.stream = limited limit r.fillBuf.buffer ++ rest := by
  rw [← r.stream_fillBuf, Reader.stream, limited_append]
  exact ⟨_, rfl⟩

/-- However the stream is cut into reads, a call reads the first piece of it. -/
theorem readUntil_spec (limit : Option Nat) (r : Reader) :
    (readUntil limit r).1 = through newline (limited limit r.stream) ∧
      (readUntil limit r).2.stream = r.stream.drop (readUntil limit r).1.length := by
  fun_induction readUntil limit r with
  | case1 r =>
    have hnone : limited (some 0) r.stream = [] := List.take_zero (l := r.stream)
    rw [hnone]
    exact ⟨rfl, rfl⟩
  | case2 limit r hzero hline line =>
    have hshort : line.length ≤ r.fillBuf.buffer.length :=
      (length_through_le newline _).trans (length_limited_le limit _)
    obtain ⟨rest, hrest⟩ := stream_limited limit r
    refine ⟨?_, ?_⟩
    · rw [hrest, through_append, if_pos hline]
    · rw [Reader.stream_consume hshort, Reader.stream_fillBuf]
  | case3 limit r hzero hline hempty =>
    have hbuffer : r.fillBuf.buffer = [] := by
      cases limit with
      | none => exact hempty
      | some n =>
        refine (List.take_eq_nil_iff.mp hempty).resolve_left ?_
        rintro rfl
        exact hzero rfl
    rw [Reader.stream_fillBuf, Reader.stream_of_empty hbuffer]
    refine ⟨?_, rfl⟩
    cases limit with
    | none => rfl
    | some n => rw [limited, List.take_nil, through]
  | case4 limit r hzero hline hnonempty available result ih =>
    have hle : available.length ≤ r.fillBuf.buffer.length := length_limited_le limit _
    have hstream : (r.fillBuf.consume available.length).stream =
        r.stream.drop available.length := by
      rw [Reader.stream_consume hle, Reader.stream_fillBuf]
    have htake : r.stream.take available.length = available := by
      rw [← r.stream_fillBuf, Reader.stream, List.take_append_of_le_length hle]
      exact take_limited limit _
    have hlimited : limited limit r.stream =
        available ++ limited (limit.map (· - available.length))
          (r.stream.drop available.length) := by
      obtain ⟨rest, hrest⟩ := stream_limited limit r
      have hshort : available.length ≤ (limited limit r.stream).length := by
        rw [hrest, List.length_append]
        exact Nat.le_add_right ..
      rw [limited_drop hshort, htake]
    obtain ⟨hresult, hafter⟩ := ih
    rw [hstream] at hresult hafter
    refine ⟨?_, ?_⟩
    · rw [hlimited, through_append, if_neg hline, hresult]
    · rw [hafter, List.drop_drop, List.length_append]

/-- What a call returns for the piece that it reads. -/
def returned (bytes : Bytes) : Except ReadError (Option Text) :=
  match fromUtf8 bytes with
  | none => .error .invalidData
  | some line => .ok (if bytes.length = 0 then none else some line)

theorem readLine_spec (c : SubscriptionConnection) :
    (readLine c).1 = returned (piece newline c.maxResponseBytes c.reader.stream) ∧
      (readLine c).2.maxResponseBytes = c.maxResponseBytes ∧
      (readLine c).2.reader.stream =
        c.reader.stream.drop (piece newline c.maxResponseBytes c.reader.stream).length := by
  obtain ⟨hbytes, hstream⟩ := readUntil_spec (some c.maxResponseBytes) c.reader
  have hpiece : (readUntil (some c.maxResponseBytes) c.reader).1 =
      piece newline c.maxResponseBytes c.reader.stream := hbytes
  rw [hpiece] at hstream
  unfold readLine readBoundedLine readString returned
  dsimp only
  rw [hpiece]
  cases fromUtf8 (piece newline c.maxResponseBytes c.reader.stream) with
  | none => exact ⟨rfl, rfl, hstream⟩
  | some line => exact ⟨rfl, rfl, hstream⟩

theorem after_spec (calls : Nat) (c : SubscriptionConnection) :
    (after calls c).maxResponseBytes = c.maxResponseBytes ∧
      (after calls c).reader.stream =
        dropPieces newline c.maxResponseBytes calls c.reader.stream := by
  induction calls generalizing c with
  | zero => exact ⟨rfl, rfl⟩
  | succ calls ih =>
    obtain ⟨-, hmax, hstream⟩ := readLine_spec c
    have hrest := ih (readLine c).2
    rw [hmax, hstream] at hrest
    exact hrest

theorem callAt_eq (call : Nat) (c : SubscriptionConnection) : callAt call c =
    returned (pieceAt newline c.maxResponseBytes call c.reader.stream) := by
  obtain ⟨hmax, hstream⟩ := after_spec call c
  rw [callAt, (readLine_spec _).1, hmax, hstream, pieceAt]

theorem returned_some {bytes : Bytes} {text : Text} :
    returned bytes = .ok (some text) ↔ utf8 text = bytes ∧ bytes ≠ [] := by
  rw [returned]
  cases hread : fromUtf8 bytes with
  | none =>
    refine iff_of_false (fun h => by cases h) ?_
    rintro ⟨htext, -⟩
    rw [fromUtf8_eq_some.mpr htext] at hread
    cases hread
  | some line =>
    have hline := fromUtf8_eq_some.mp hread
    rw [Except.ok.injEq, Option.ite_none_left_eq_some, List.length_eq_zero_iff, Option.some.injEq]
    constructor
    · rintro ⟨hne, rfl⟩
      exact ⟨hline, hne⟩
    · rintro ⟨htext, hne⟩
      rw [fromUtf8_eq_some.mpr htext] at hread
      exact ⟨hne, (Option.some.inj hread).symm⟩

theorem unread_iff {bytes : Bytes} :
    Unread bytes ↔ ∀ text, returned bytes ≠ .ok (some text) := by
  simp only [ne_eq, returned_some, not_and, not_not]
  constructor
  · rintro (rfl | hnone) text htext
    · rfl
    · rw [fromUtf8_eq_some.mpr htext] at hnone
      cases hnone
  · intro h
    cases hread : fromUtf8 bytes with
    | none => exact .inr hread
    | some text => exact .inl (h text (fromUtf8_eq_some.mp hread))

theorem framed_iff (c : SubscriptionConnection) :
    Framed c ↔ Readable c.reader.stream c.maxResponseBytes := by
  constructor
  · intro h
    refine ⟨fun line hline => ?_, fun n => ?_⟩
    · obtain ⟨call, hcall⟩ := List.mem_iff_getElem?.mp hline
      obtain ⟨text, -, htext⟩ := h.lines call line hcall
      exact ⟨text, htext⟩
    · have hends := h.ends _ (Nat.le_add_right _ n)
      simp only [callAt_eq, pieceAt_remaining] at hends
      exact (unread_iff).mpr hends
  · intro h
    refine ⟨fun call line hline => ?_, fun call hcall text htext => ?_⟩
    · have hmem := List.mem_of_getElem? hline
      obtain ⟨text, htext⟩ := h.lines line hmem
      refine ⟨text, ?_, htext⟩
      rw [callAt_eq, pieceAt_leading hline, returned_some]
      exact ⟨htext, leading_ne_nil hmem⟩
    · obtain ⟨n, rfl⟩ := Nat.exists_eq_add_of_le hcall
      rw [callAt_eq, pieceAt_remaining] at htext
      exact (unread_iff).mp (h.ends n) text htext

theorem takeReads_flatten (limit : Nat) (reads : List Chunk) :
    ((takeReads limit reads).map Subtype.val).flatten =
      (reads.map Subtype.val).flatten.take limit := by
  induction reads generalizing limit with
  | nil => cases limit <;> rfl
  | cons chunk reads ih =>
    cases limit with
    | zero => rw [List.take_zero]; rfl
    | succ limit =>
      rw [takeReads, List.map_cons, List.flatten_cons, ih, List.map_cons, List.flatten_cons,
        List.take_append]

theorem exchange_eq (reads : List Chunk) (maxBytes : Nat) : exchange reads maxBytes =
    match fromUtf8 (piece newline maxBytes (reads.map Subtype.val).flatten) with
    | none => .error .invalidData
    | some line => .ok line := by
  have hstream : Reader.stream ⟨[], takeReads maxBytes reads⟩ =
      (reads.map Subtype.val).flatten.take maxBytes := takeReads_flatten maxBytes reads
  have hbytes : (readUntil none ⟨[], takeReads maxBytes reads⟩).1 =
      piece newline maxBytes (reads.map Subtype.val).flatten := by
    rw [(readUntil_spec none _).1, hstream]
    rfl
  unfold exchange readString
  dsimp only
  rw [hbytes]
  cases fromUtf8 (piece newline maxBytes (reads.map Subtype.val).flatten) <;> rfl

theorem exchange_ok {maxBytes : Nat} {text : Text} : exchange reads maxBytes = .ok text ↔
    utf8 text = piece newline maxBytes (reads.map Subtype.val).flatten := by
  rw [exchange_eq, ← fromUtf8_eq_some]
  cases fromUtf8 (piece newline maxBytes (reads.map Subtype.val).flatten) with
  | none => exact iff_of_false (fun h => by cases h) (fun h => by cases h)
  | some line => rw [Except.ok.injEq, Option.some.injEq]

theorem framedReply_iff (reads : List Chunk) (maxBytes : Nat) :
    FramedReply (reads.map Subtype.val).flatten maxBytes (exchange reads maxBytes) ↔
      ReadableReply (reads.map Subtype.val).flatten maxBytes := by
  unfold FramedReply ReadableReply
  cases hlines : leading newline maxBytes (reads.map Subtype.val).flatten with
  | cons line lines =>
    obtain ⟨hpiece, -⟩ := leading_cons hlines
    simp only [exchange_ok, hpiece, and_self]
  | nil =>
    simp only [exchange_ok]
    rw [unread_iff]
    simp only [returned_some, ne_eq, not_and, not_not]
    refine forall_congr' fun text => imp_congr_right fun htext => ?_
    rw [← htext]
    cases text with
    | nil => exact iff_of_true rfl rfl
    | cons ch text => simp [String.utf8EncodeChar_ne_nil]

/-- A line on the channel is what the call of that turn returned. -/
theorem spawnReader_call {turns call : Nat} {text : Text}
    (h : (spawnReader turns c)[call]? = some (.ok text)) : callAt call c = .ok (some text) := by
  induction turns generalizing c call with
  | zero => cases h
  | succ turns ih =>
    rw [spawnReader] at h
    split at h
    · next line next hread =>
      cases call with
      | zero =>
        cases h
        exact congrArg Prod.fst hread
      | succ call =>
        rw [callAt, after, hread]
        exact ih h
    · cases h
    · next error next hread =>
      cases call <;> cases h

/-- However a stream is cut into reads and whatever the limit is: the calls return its lines and
nothing else if and only if the lines are texts and no piece of what remains is one. -/
theorem line_framing_iff (c : SubscriptionConnection) (reads : List Chunk) (maxBytes : Nat) :
    (Framed c ↔ Readable c.reader.stream c.maxResponseBytes) ∧
      (∀ (turns call : Nat) text, (spawnReader turns c)[call]? = some (.ok text) →
        callAt call c = .ok (some text)) ∧
      (FramedReply (reads.map Subtype.val).flatten maxBytes (exchange reads maxBytes) ↔
        ReadableReply (reads.map Subtype.val).flatten maxBytes) :=
  ⟨framed_iff c, fun _ _ _ => spawnReader_call, framedReply_iff reads maxBytes⟩

/-- A short line and a long one. -/
def shortLong : SubscriptionConnection where
  reader := ⟨[], [⟨utf8 "ab\ncdef\n".toList, by decide⟩]⟩
  maxResponseBytes := 3

/-- The second call returns the first three bytes of the second line as a line. -/
theorem long_line_in_parts : ¬Framed shortLong := by
  intro h
  refine h.ends 1 (by decide) "cde".toList ?_
  rw [callAt_eq, returned_some]
  decide

end HerdrMobile.Host.Lines
