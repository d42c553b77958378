import GoProbe.GPFile

/-!
# Block-file histories

What the writeout pipeline and the query side do to the file at one path: `WriteTimedBlock`
under any behaviour of the operating system, `ReadBlock`, `ReadTimedBlock`, and reopening
with `NewGPFile`. Every operation acts on the `GPFile` opened last, which is what a process
that crashed and restarted holds.

A `Store` is the file on disk and that `GPFile`, plus two ghost fields the code does not
keep: the payload last written under each timestamp the header did not already hold, and the
slots the current `GPFile` has read since it was opened. `Reach allowed` is the set of stores
reachable from a fresh path by a history of operations that `allowed` admits; the results
differ only in which writes they admit.
-/

namespace GoProbe

/-- One operation of a block-file history. -/
inductive Op where
  | write (env : WriteEnv) (timestamp : BitVec 64) (data : GoBytes)
  | read (block : Fin NumElements)
  | readTimed (timestamp : BitVec 64)
  | reopen

/-- The file on disk, the `GPFile` opened last, and the ghost fields. -/
structure Store where
  file : List UInt8
  gpf : GPFile
  /-- ghost: the payload last written under each timestamp not already in the header -/
  payload : BitVec 64 → List UInt8
  /-- ghost: the slots `gpf` has read (past the emptiness test) since it was opened -/
  readSlots : List (Fin NumElements)

/-- The header `NewGPFile` parses from a file of at least `3 * BufSize` bytes. -/
def openedHeader (p : String) (file : List UInt8) : GPFile :=
  ⟨parseSlots (file.take BufSize), parseSlots ((file.drop BufSize).take BufSize),
    parseSlots ((file.drop (2 * BufSize)).take BufSize), p, 3 * BufSize, 0⟩

/-- The store `NewGPFile` makes at a fresh path `p`. -/
def freshStore (p : String) : Store :=
  let zeros := List.replicate BufSize (0 : UInt8)
  ⟨zeros ++ zeros ++ zeros, ⟨parseSlots zeros, parseSlots zeros, parseSlots zeros, p, 3 * BufSize, 0⟩,
    fun _ => [], []⟩

section Steps

variable (enc : Encoder)

/-- `ReadBlock` on the store. -/
def Store.read (s : Store) (i : Fin NumElements) : Store :=
  { s with gpf := (readBlock enc s.gpf s.file i).1,
           readSlots := if s.gpf.isEmpty i then s.readSlots else i :: s.readSlots }

/-- One operation. A reopening finds the file the store holds; one that `NewGPFile` refuses
leaves the store as it was, as one whose `os.Open` or `Read` fails would. -/
def Store.step (s : Store) : Op → Store
  | .write env t d =>
    let r := writeTimedBlock enc env s.gpf s.file t d
    { s with file := r.2.1, gpf := r.1,
             payload := if (s.gpf.timedSlot t).isSome then s.payload
               else Function.update s.payload t d.bytes }
  | .read i => s.read enc i
  | .readTimed t =>
    match s.gpf.timedSlot t with
    | some i => s.read enc i
    | none => s
  | .reopen =>
    match newGPFile s.gpf.filename (.opened s.file none) with
    | .ok (g, file) => { s with file := file, gpf := g, readSlots := [] }
    | .error _ => s

/-- The stores a history `ops` reaches from a fresh path when every operation satisfies
`allowed` (judged in the store it starts from). -/
inductive Reach (allowed : Store → Op → Prop) : List Op → Store → Prop where
  | init {p : String} {g : GPFile} {file : List UInt8} :
      newGPFile p (.absent false) = .ok (g, file) → Reach allowed [] ⟨file, g, fun _ => [], []⟩
  | step {ops : List Op} {s : Store} {o : Op} :
      Reach allowed ops s → allowed s o → Reach allowed (ops ++ [o]) (s.step enc o)

end Steps

theorem Reach.fresh {enc : Encoder} {allowed : Store → Op → Prop} (p : String) :
    Reach enc allowed [] (freshStore p) := .init rfl

section Fresh

variable (p : String) (i : Fin NumElements)

@[simp] theorem freshStore_timestamps : (freshStore p).gpf.timestamps i = 0 := by
  simp [freshStore, parseSlots_zeros]
@[simp] theorem freshStore_blocks : (freshStore p).gpf.blocks i = 0 := by
  simp [freshStore, parseSlots_zeros]
@[simp] theorem freshStore_lengths : (freshStore p).gpf.lengths i = 0 := by
  simp [freshStore, parseSlots_zeros]
@[simp] theorem length_freshStore_file : (freshStore p).file.length = 3 * BufSize := by
  simp [freshStore]; omega

/-- On a fresh file the slot loop picks slot 0, right after the header. -/
theorem scanSlots_freshStore {t : BitVec 64} (ht : t ≠ 0) :
    scanSlots (freshStore p).gpf t = .free ⟨0, by decide⟩ headerEnd :=
  scanSlots_eq_free (freshStore_timestamps p _) ht fun j hj => absurd hj (Nat.not_lt_zero j)

end Fresh

/-! ## Step lemmas -/

section Lemmas

variable {enc : Encoder}

@[simp] theorem Store.read_file (s : Store) (i) : (s.read enc i).file = s.file := rfl
@[simp] theorem Store.read_payload (s : Store) (i) : (s.read enc i).payload = s.payload := rfl

/-- `ReadBlock` moves only the read handle: its position and `lastSeekPos`. -/
theorem readBlock_fst (f : GPFile) (file : List UInt8) (i : Fin NumElements) :
    ∃ pos L, (readBlock enc f file i).1 = { f with curFile := pos, lastSeekPos := L } := by
  unfold readBlock
  by_cases h0 : f.isEmpty i
  · exact ⟨f.curFile, f.lastSeekPos, by simp [h0]⟩
  rw [if_neg h0]
  obtain ⟨seekPos, readLen⟩ := blockSpan f i
  by_cases hs : seekPos = f.lastSeekPos
  · simp only [hs, ne_eq, not_true_eq_false, false_and, if_false]
    split_ifs <;> exact ⟨_, _, rfl⟩
  · simp only [hs, ne_eq, not_false_eq_true, true_and, if_true]
    split_ifs <;> exact ⟨_, _, rfl⟩

/-- Reading leaves the header and the file name alone. -/
theorem Store.read_gpf (s : Store) (i : Fin NumElements) :
    (s.read enc i).gpf.blocks = s.gpf.blocks ∧ (s.read enc i).gpf.timestamps = s.gpf.timestamps ∧
      (s.read enc i).gpf.lengths = s.gpf.lengths ∧
      (s.read enc i).gpf.filename = s.gpf.filename := by
  obtain ⟨pos, L, h⟩ := @readBlock_fst enc s.gpf s.file i
  simp [Store.read, h]

theorem except_bind_ok {α β : Type} (a : α) (k : α → Except GoError β) :
    (Except.ok a >>= k) = k a := rfl

theorem except_bind_error {α β : Type} (e : GoError) (k : α → Except GoError β) :
    (Except.error e >>= k) = Except.error e := rfl

/-- `NewGPFile` on a file holding a whole header opens it. -/
theorem newGPFile_some {p : String} {file : List UInt8} (h : 3 * BufSize ≤ file.length) :
    newGPFile p (.opened file none) = .ok (openedHeader p file, file) := by
  simp only [BufSize] at h
  have e1 : (file.take 4096).length = 4096 := by simp; omega
  have e2 : ((file.drop 4096).take 4096).length = 4096 := by simp; omega
  have e3 : ((file.drop 8192).take 4096).length = 4096 := by simp; omega
  simp [newGPFile, readHeaderBuf, readAt, openedHeader, except_bind_ok,
    show ¬ file.length ≤ 0 by omega, e1, show ¬ file.length ≤ 4096 by omega, e2,
    show ¬ file.length ≤ 4096 + 4096 by omega, e3]
  rfl

/-- `NewGPFile` on a regular file that `os.Open` and every `Read` serve, by its length. It
opens a file that holds a whole header. A file of at most `2 * BufSize` bytes fails with the
`io.EOF` of the read that starts at its end, since `Read` on a regular file stops short only
at the end; a longer one with a short third read fails with "Invalid header (block lengths)".
The checks for the blocks and the lookup table can never fail. -/
theorem newGPFile_opened_none (p : String) (file : List UInt8) :
    newGPFile p (.opened file none) =
      if 3 * BufSize ≤ file.length then .ok (openedHeader p file, file)
      else if file.length ≤ 2 * BufSize then .error (.error "EOF")
      else .error (.error "Invalid header (block lengths)") := by
  split_ifs with h3 h2
  · exact newGPFile_some h3
  · simp only [BufSize] at h2
    by_cases h1 : file.length ≤ 4096
    · have e1 : (file.take 4096).length = file.length := by simp; omega
      by_cases hnil : file = []
      · simp [newGPFile, readHeaderBuf, readAt, except_bind_error, hnil]
      · simp [newGPFile, readHeaderBuf, readAt, except_bind_ok, except_bind_error, hnil, BufSize,
          e1]
    · have e1 : (file.take 4096).length = 4096 := by simp; omega
      have e2 : ((file.drop 4096).take 4096).length = file.length - 4096 := by simp; omega
      simp [newGPFile, readHeaderBuf, readAt, except_bind_ok, except_bind_error, BufSize, e1, e2,
        List.ne_nil_of_length_pos (show 0 < file.length by omega),
        show ¬ file.length ≤ 4096 by omega, show 4096 + (file.length - 4096) = file.length by omega]
  · simp only [BufSize] at h3 h2
    have e1 : (file.take 4096).length = 4096 := by simp; omega
    have e2 : ((file.drop 4096).take 4096).length = 4096 := by simp; omega
    have e3 : ((file.drop 8192).take 4096).length = file.length - 8192 := by simp; omega
    simp [newGPFile, readHeaderBuf, readAt, except_bind_ok, except_bind_error, BufSize, e1, e2, e3,
      List.ne_nil_of_length_pos (show 0 < file.length by omega), show ¬ file.length ≤ 4096 by omega,
      show ¬ file.length ≤ 4096 + 4096 by omega, show ¬ file.length - 8192 = 4096 by omega]
    rfl

/-- **What `NewGPFile` makes of a path `os.Stat` finds.** An `os.Open` failure is returned as
it is. On an opened entry of `L` bytes, the header `Read` number `k` that fails with an
operating-system error (`EISDIR` on a directory) returns it when it is reached, that is when
the reads before it got bytes: `k * BufSize < L + BufSize`. With no such failure, `NewGPFile`
opens the file exactly when `L ≥ 3 * BufSize`; it fails with `io.EOF` when `L ≤ 2 * BufSize`
and with "Invalid header (block lengths)" in between. The checks for the blocks and the lookup
table can never fail. -/
theorem newGPFile_existing (p : String) (file : List UInt8) (readFails : Option (Fin 3)) :
    newGPFile p .unopenable = .error .os ∧
      newGPFile p (.opened file readFails) =
        if readFails.any (fun k => k.val * BufSize < file.length + BufSize) then .error .os
        else if 3 * BufSize ≤ file.length then .ok (openedHeader p file, file)
        else if file.length ≤ 2 * BufSize then .error (.error "EOF")
        else .error (.error "Invalid header (block lengths)") := by
  refine ⟨rfl, ?_⟩
  rcases readFails with _ | k
  · simpa using newGPFile_opened_none p file
  simp only [Option.any_some, decide_eq_true_eq, BufSize]
  fin_cases k
  · -- the first read fails
    simp [newGPFile, readHeaderBuf, except_bind_error]
  · -- the second read fails, unless the first met the end of an empty file
    rcases Nat.eq_zero_or_pos file.length with h0 | h0
    · simp [newGPFile, readHeaderBuf, readAt, h0, except_bind_error]
    · simp [newGPFile, readHeaderBuf, readAt, show ¬ file.length = 0 by omega, except_bind_error,
        except_bind_ok, h0]
  · -- the third read fails, unless one before it met the end of the file
    rcases Nat.lt_or_ge 4096 file.length with h1 | h1
    · simp [newGPFile, readHeaderBuf, readAt, show ¬ file.length = 0 by omega, except_bind_error,
        except_bind_ok, BufSize, show ¬ file.length ≤ 4096 by omega,
        show 8192 < file.length + 4096 by omega]
    rcases Nat.eq_zero_or_pos file.length with h0 | h0
    · simp [newGPFile, readHeaderBuf, readAt, h0, except_bind_error]
    · simp [newGPFile, readHeaderBuf, readAt, show ¬ file.length = 0 by omega, except_bind_error,
        except_bind_ok, BufSize, h1, show ¬ 8192 < file.length + 4096 by omega,
        show ¬ 12288 ≤ file.length by omega, show file.length ≤ 8192 by omega]

/-! ## The header on disk -/

/-- Appending after the header leaves the header `NewGPFile` reads alone. -/
theorem openedHeader_append {p : String} {file : List UInt8} (x : List UInt8)
    (h : 3 * BufSize ≤ file.length) : openedHeader p (file ++ x) = openedHeader p file := by
  simp only [openedHeader, BufSize] at h ⊢
  rw [List.take_append_of_le_length (by omega), List.drop_append_of_le_length (by omega),
    List.drop_append_of_le_length (by omega), List.take_append_of_le_length (by simp; omega),
    List.take_append_of_le_length (by simp; omega)]

@[simp] theorem length_wBuf (g : GPFile) : g.wBuf.length = 3 * BufSize := length_serializeHeader _ _ _

theorem length_overwrite {file buf : List UInt8} (h : buf.length ≤ file.length) :
    (overwrite file buf).length = file.length := by
  simp [overwrite]; omega

/-- Past the header, a header write leaves the file alone. -/
theorem drop_overwrite {file buf : List UInt8} {n : Nat} (h : buf.length ≤ n) :
    (overwrite file buf).drop n = file.drop n := by
  rw [overwrite, ← Nat.add_sub_cancel' h, ← List.drop_drop, List.drop_left, List.drop_drop,
    Nat.add_sub_cancel' h]

/-- **A whole header written over the old one is what the next `NewGPFile` reads.** -/
theorem openedHeader_overwrite_wBuf {p : String} {file : List UInt8} (g : GPFile) :
    (openedHeader p (overwrite file g.wBuf)).blocks = g.blocks ∧
      (openedHeader p (overwrite file g.wBuf)).timestamps = g.timestamps ∧
      (openedHeader p (overwrite file g.wBuf)).lengths = g.lengths := by
  have hb := length_serializeSlots g.blocks
  have ht := length_serializeSlots g.timestamps
  have hl := length_serializeSlots g.lengths
  have h2 : (serializeSlots g.blocks ++ serializeSlots g.timestamps).length = 2 * BufSize := by
    simp only [List.length_append, hb, ht]; omega
  simp only [openedHeader, overwrite, GPFile.wBuf, serializeHeader]
  refine ⟨?_, ?_, ?_⟩
  · rw [List.append_assoc, List.append_assoc, List.take_left' hb, parseSlots_serializeSlots]
  · rw [List.append_assoc, List.append_assoc, List.drop_left' hb, List.take_left' ht,
      parseSlots_serializeSlots]
  · rw [List.append_assoc, List.drop_left' h2, List.take_left' hl, parseSlots_serializeSlots]

/-- The header parsed from a file holding exactly a serialised header is that header. -/
theorem openedHeader_serializeHeader (p : String) (b t l : Slots) :
    openedHeader p (serializeHeader b t l) = ⟨b, t, l, p, 3 * BufSize, 0⟩ := by
  obtain ⟨hb, ht, hl⟩ := @openedHeader_overwrite_wBuf p [] ⟨b, t, l, p, 3 * BufSize, 0⟩
  simp only [overwrite, GPFile.wBuf, List.drop_nil, List.append_nil] at hb ht hl
  simp only [openedHeader] at hb ht hl ⊢
  rw [hb, ht, hl]

end Lemmas

/-! ## The header codec -/

/-- **The header codec round trip.** `WriteTimedBlock`'s loop writes the three header arrays
as the big-endian encodings of their slots, one after another, `3 * BufSize` bytes in all;
`NewGPFile` on a file holding exactly those bytes (opened and read without an error) parses the
three arrays back; and the arrays `NewGPFile` parses from any file of `3 * BufSize` bytes
serialise back to the file's bytes. -/
theorem header_codec_round_trip (p : String) (b t l : Slots) {buf : List UInt8}
    (hbuf : buf.length = 3 * BufSize) :
    serializeHeader b t l = encodeSlots b ++ encodeSlots t ++ encodeSlots l ∧
      (serializeHeader b t l).length = 3 * BufSize ∧
      newGPFile p (.opened (serializeHeader b t l) none) =
        .ok (⟨b, t, l, p, 3 * BufSize, 0⟩, serializeHeader b t l) ∧
      ∃ g, newGPFile p (.opened buf none) = .ok (g, buf) ∧ g.wBuf = buf :=
  ⟨by rw [serializeHeader, serializeSlots_eq, serializeSlots_eq, serializeSlots_eq],
    length_serializeHeader _ _ _,
    by rw [newGPFile_some (by rw [length_serializeHeader]), openedHeader_serializeHeader],
    ⟨_, newGPFile_some (by omega), serializeHeader_parse hbuf⟩⟩

/-- The round trip on slots that hold negative `int64`s, whose encodings start with the sign
bit: block offsets counting down from `-1`, every timestamp `math.MinInt64`, and a file of
`0xFF` bytes, each of whose slots reads `-1`. -/
theorem header_codec_round_trip_of_negative_slots :
    let b : Slots := fun i => -BitVec.ofNat 64 (i.val + 1)
    let t : Slots := fun _ => BitVec.ofInt 64 (-2 ^ 63)
    let l : Slots := fun i => BitVec.ofNat 64 i.val
    let buf : List UInt8 := List.replicate (3 * BufSize) 0xFF
    buf.length = 3 * BufSize ∧
      (serializeHeader b t l = encodeSlots b ++ encodeSlots t ++ encodeSlots l ∧
        (serializeHeader b t l).length = 3 * BufSize ∧
        newGPFile "p" (.opened (serializeHeader b t l) none) =
          .ok (⟨b, t, l, "p", 3 * BufSize, 0⟩, serializeHeader b t l) ∧
        ∃ g, newGPFile "p" (.opened buf none) = .ok (g, buf) ∧ g.wBuf = buf) :=
  ⟨List.length_replicate _ _, header_codec_round_trip "p" _ _ _ (List.length_replicate _ _)⟩

end GoProbe
