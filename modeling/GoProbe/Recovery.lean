import GoProbe.HeaderInvariant

/-!
# Failed writes and what the next open reads

`WriteTimedBlock` appends the block, records it in the header in memory, then rewrites the
whole header at offset 0. The three steps are not atomic:

* a header write cut after slot `newPos`'s end offset and before its timestamp leaves a slot
  that the next `NewGPFile` reads as unused but not all zero
  (`torn_header_write_reopen`, and `torn_header_write_breaks_prefix` on a fresh file);
* a header write that fails leaves the block recorded in memory, so retrying the timestamp is
  refused as a duplicate (`failed_header_write_keeps_record`).

Whatever fails, the bytes past the header are never rewritten: a call writes a prefix of the
new header over the old one and appends a prefix of its compressed block
(`writeTimedBlock_file`), so along every history the file only grows at its end
(`stored_bytes_never_rewritten`).
-/

namespace GoProbe

variable {enc : Encoder}

/-! ## What `NewGPFile` reads back -/

/-- `readInt64` reads eight bytes and nothing else. -/
theorem readInt64_congr {a b : List UInt8} {pa pb : Nat}
    (h : ∀ k, k < 8 → a.getD (pa + k) 0 = b.getD (pb + k) 0) : readInt64 a pa = readInt64 b pb := by
  have h0 := h 0 (by omega)
  simp only [Nat.add_zero] at h0
  simp only [readInt64, h0, h 1 (by omega), h 2 (by omega), h 3 (by omega), h 4 (by omega),
    h 5 (by omega), h 6 (by omega), h 7 (by omega)]

/-- Slot `i` of each array `NewGPFile` parses is the eight bytes at its place in the file. -/
theorem openedHeader_slots (p : String) (file : List UInt8) (i : Fin NumElements) :
    (openedHeader p file).blocks i = readInt64 file (8 * i) ∧
    (openedHeader p file).timestamps i = readInt64 file (BufSize + 8 * i) ∧
    (openedHeader p file).lengths i = readInt64 file (2 * BufSize + 8 * i) := by
  have hi : 8 * i.val + 8 ≤ BufSize := by
    have := i.isLt; simp only [NumElements, BufSize] at *; omega
  refine ⟨readInt64_congr fun k hk => ?_, readInt64_congr fun k hk => ?_,
    readInt64_congr fun k hk => ?_⟩ <;>
    simp only [openedHeader, List.getD_eq_getElem?_getD,
      List.getElem?_take_of_lt (show 8 * i.val + k < BufSize by omega), List.getElem?_drop,
      Nat.add_assoc]

/-- The bytes of a file after a write of `buf` at offset 0. -/
theorem getD_overwrite {file buf : List UInt8} {n : Nat} :
    (overwrite file buf).getD n 0 = if n < buf.length then buf.getD n 0 else file.getD n 0 := by
  split_ifs with h
  · simp [overwrite, List.getElem?_append_left h]
  · simp only [overwrite, List.getD_eq_getElem?_getD, List.getElem?_append_right (not_lt.mp h),
      List.getElem?_drop, Nat.add_sub_cancel' (not_lt.mp h)]

/-! ## A torn header write -/

/-- **A header write torn between slot `newPos`'s end offset and its timestamp.** After the
next `NewGPFile`, slot `newPos` has timestamp 0 and a nonzero end offset. -/
theorem torn_header_write_reopen {s : Store} (h : StoreInv enc s) {env : WriteEnv}
    {t nextFreeBlock : BitVec 64} {d : GoBytes} {newPos : Fin NumElements} {k : Nat}
    (hscan : scanSlots s.gpf t = .free newPos nextFreeBlock) (hnfb : nextFreeBlock ≠ -1)
    (hopen : env.appendOpens = true) (hcomp : env.compressStops = none)
    (hfit : s.file.length + (enc.compress d.bytes).length ≤ maxFileSize)
    (hheader : env.headerOpens = true) (hstop : env.headerStops = some k)
    (hk : 8 * newPos.val + 8 ≤ k) (hk' : k ≤ BufSize + 8 * newPos.val) :
    ((s.step enc (.write env t d)).step enc .reopen).gpf.timestamps newPos = 0 ∧
      ((s.step enc (.write env t d)).step enc .reopen).gpf.blocks newPos ≠ 0 := by
  set g := s.gpf.record newPos nextFreeBlock t (enc.compress d.bytes).length d.bytes.length
  have hw := writeTimedBlock_of_appended hscan hnfb hopen hcomp hfit
  simp only [hheader, hstop, Bool.not_true, Bool.false_eq_true, if_false] at hw
  have hB := h.header
  have hlen : (overwrite (s.file ++ enc.compress d.bytes) (g.wBuf.take k)).length =
      s.file.length + (enc.compress d.bytes).length := by
    rw [length_overwrite] <;> simp; omega
  rw [s.step_write hw, Store.step_reopen (by rw [hlen]; omega)]
  obtain ⟨hb, ht, -⟩ := openedHeader_slots g.filename
    (overwrite (s.file ++ enc.compress d.bytes) (g.wBuf.take k)) newPos
  have hnp : 8 * newPos.val + 8 ≤ BufSize := by
    have := newPos.isLt; simp only [NumElements, BufSize] at *; omega
  obtain ⟨h0, ht0, -, -⟩ := scanSlots_free hscan
  constructor
  · -- the timestamp bytes are still the old header's, whose slot `newPos` is unused
    have hold : s.diskHeader.timestamps newPos = 0 := by
      by_contra hne
      exact hne ((h.diskSub newPos hne).1.trans h0)
    show (openedHeader g.filename _).timestamps newPos = 0
    rw [ht, ← hold, Store.diskHeader, (openedHeader_slots _ _ _).2.1]
    refine readInt64_congr fun j hj => ?_
    rw [getD_overwrite, if_neg (by simp; omega), List.getD_append _ _ _ _ (by omega)]
  · -- the end-offset bytes are the new header's
    have hmem := h.mem.record hscan h.header h.ends hfit d.fits
    have hused : g.timestamps newPos ≠ 0 := by
      simp only [g, GPFile.record_timestamps, Function.update_same]; exact ht0
    have hpos := (hmem.start newPos hused).trans (hmem.start_le_stop hused)
    show (openedHeader g.filename _).blocks newPos ≠ 0
    rw [hb, readInt64_of_bytes (v := g.blocks newPos) fun j hj => ?_]
    · intro e; rw [e] at hpos; simp at hpos
    rw [getD_overwrite, if_pos (by simp; omega), List.getD_eq_getElem?_getD,
      List.getElem?_take_of_lt (by omega), ← List.getD_eq_getElem?_getD, GPFile.wBuf, serializeHeader,
      List.append_assoc, List.getD_append _ _ _ _ (by simp; omega), getD_serializeSlots _ _ hj]

theorem torn_header_write_breaks_prefix :
    let tornEnv : WriteEnv := ⟨true, none, true, some 8⟩
    let s := ((freshStore "p").step Encoder.raw (.write tornEnv 1 ⟨[7], by decide⟩)).step
      Encoder.raw .reopen
    Reach Encoder.raw (fun _ _ => True) [.write tornEnv 1 ⟨[7], by decide⟩, .reopen] s ∧
      s.gpf.timestamps ⟨0, by decide⟩ = 0 ∧ s.gpf.blocks ⟨0, by decide⟩ ≠ 0 :=
  ⟨.step (.step (.fresh "p") trivial) trivial,
    torn_header_write_reopen (storeInv_of_reach (Reach.fresh "p")) (scanSlots_freshStore "p" (by decide))
      (by decide) rfl rfl (by rw [length_freshStore_file]; decide) rfl rfl (by decide) (by decide)⟩

/-! ## A failed header write -/

/-- **A header write that fails keeps the block in memory.** The call returns an error, and
any retry of the same timestamp on that `GPFile` is refused as a duplicate. -/
theorem failed_header_write_keeps_record {f : GPFile} {file : List UInt8} {env : WriteEnv}
    {t nextFreeBlock : BitVec 64} {d : GoBytes} {newPos : Fin NumElements}
    (hscan : scanSlots f t = .free newPos nextFreeBlock) (hnfb : nextFreeBlock ≠ -1)
    (hopen : env.appendOpens = true) (hcomp : env.compressStops = none)
    (hfit : file.length + (enc.compress d.bytes).length ≤ maxFileSize)
    (hfail : env.headerOpens = false ∨ env.headerStops ≠ none) (env' : WriteEnv) (d' : GoBytes) :
    (writeTimedBlock enc env f file t d).2.2 = .error .os ∧
      (writeTimedBlock enc env' (writeTimedBlock enc env f file t d).1
        (writeTimedBlock enc env f file t d).2.1 t d').2.2 =
        .error (.error ("Timestamp" ++ toString t.toInt ++ " already exists in file " ++ f.filename)) := by
  have hdup := scanSlots_record hscan (enc.compress d.bytes).length d.bytes.length
  rw [writeTimedBlock_of_appended hscan hnfb hopen hcomp hfit]
  rcases hfail with hh | hs
  · simp only [hh, Bool.not_false, if_true, writeTimedBlock, hdup, GPFile.record_filename, and_self]
  · obtain ⟨k, hk⟩ := Option.ne_none_iff_exists'.mp hs
    cases hh : env.headerOpens <;>
      simp only [hh, hk, Bool.not_false, Bool.not_true, Bool.false_eq_true, if_true, if_false,
        writeTimedBlock, hdup, GPFile.record_filename, and_self]

theorem failed_header_write_on_fresh_file :
    let env : WriteEnv := ⟨true, none, false, none⟩
    let d : GoBytes := ⟨[7], by decide⟩
    let f := (freshStore "p").gpf
    let file := (freshStore "p").file
    (writeTimedBlock Encoder.raw env f file 1 d).2.2 = .error .os ∧
      (writeTimedBlock Encoder.raw .ok (writeTimedBlock Encoder.raw env f file 1 d).1
        (writeTimedBlock Encoder.raw env f file 1 d).2.1 1 d).2.2 =
        .error (.error ("Timestamp" ++ toString (1 : BitVec 64).toInt ++ " already exists in file " ++
          f.filename)) :=
  failed_header_write_keeps_record (scanSlots_freshStore "p" (by decide)) (by decide) rfl rfl
    (by rw [length_freshStore_file]; decide) (.inl rfl) .ok _

/-! ## An append cut short -/

theorem partial_append_misplaces_next_block :
    let env₁ : WriteEnv := ⟨true, some 1, true, none⟩
    let s₁ := (freshStore "p").step Encoder.raw (.write env₁ 1 ⟨[1, 2], by decide⟩)
    let s₂ := s₁.step Encoder.raw (.write .ok 2 ⟨[5, 6], by decide⟩)
    (writeTimedBlock Encoder.raw env₁ (freshStore "p").gpf (freshStore "p").file 1
        ⟨[1, 2], by decide⟩).2.2 = .error .os ∧
      (writeTimedBlock Encoder.raw .ok s₁.gpf s₁.file 2 ⟨[5, 6], by decide⟩).2.2 = .ok () ∧
      (readTimedBlock Encoder.raw s₂.gpf s₂.file 2).2 = .ok [1, 5] := by
  intro env₁ s₁ s₂
  have hfresh := length_freshStore_file "p"
  have hw₁ : writeTimedBlock Encoder.raw env₁ (freshStore "p").gpf (freshStore "p").file 1
      ⟨[1, 2], by decide⟩ = ((freshStore "p").gpf, (freshStore "p").file ++ [1], .error .os) := by
    rw [writeTimedBlock_of_append_stops (scanSlots_freshStore "p" (by decide)) (by decide) rfl rfl,
      hfresh]
    rfl
  have hs₁ : s₁.gpf = (freshStore "p").gpf ∧ s₁.file = (freshStore "p").file ++ [1] := by
    simp only [s₁, Store.step, hw₁, and_self]
  have hw₂ : writeTimedBlock Encoder.raw .ok s₁.gpf s₁.file 2 ⟨[5, 6], by decide⟩ =
      let g := (freshStore "p").gpf.record ⟨0, by decide⟩ headerEnd 2 2 2
      (g, overwrite ((freshStore "p").file ++ [1] ++ [5, 6]) g.wBuf, .ok ()) := by
    rw [hs₁.1, hs₁.2, writeTimedBlock_of_appended (scanSlots_freshStore "p" (by decide)) (by decide)
      rfl rfl (by rw [List.length_append, hfresh]; decide)]
    rfl
  have hs₂ : s₂.gpf = (freshStore "p").gpf.record ⟨0, by decide⟩ headerEnd 2 2 2 ∧
      s₂.file = overwrite ((freshStore "p").file ++ [1] ++ [5, 6])
        ((freshStore "p").gpf.record ⟨0, by decide⟩ headerEnd 2 2 2).wBuf := by
    simp only [s₂, Store.step, hw₂, and_self]
  refine ⟨by rw [hw₁], by rw [hw₂], ?_⟩
  rw [hs₂.1, hs₂.2]
  set g := (freshStore "p").gpf.record ⟨0, by decide⟩ headerEnd 2 2 2
  have hslot : g.timedSlot 2 = some ⟨0, by decide⟩ :=
    findSlot_eq_some_iff.mpr ⟨by simp [g], fun j hj => absurd hj (Nat.not_lt_zero _)⟩
  have hspan : blockSpan g ⟨0, by decide⟩ = (BitVec.ofNat 64 (3 * BufSize), BitVec.ofNat 64 2) := by
    simp [g, blockSpan, blockStart, headerEnd]
  simp only [readTimedBlock, hslot]
  rw [readBlock_of_span (by simp [g, GPFile.isEmpty]) hspan (by decide) (by decide)
    (by simp [g])]
  have hpos : BitVec.ofNat 64 (3 * BufSize) ≠ g.lastSeekPos := by simp [g, freshStore]; decide
  have hbytes : ((overwrite ((freshStore "p").file ++ [1] ++ [5, 6]) g.wBuf).drop (3 * BufSize)).take 2 =
      [1, 5] := by
    rw [drop_overwrite (by simp), List.append_assoc, ← hfresh, List.drop_left]; rfl
  simp only [hpos, if_false, hbytes]
  rfl

/-! ## Stored blocks survive every failure -/

/-- **What one `WriteTimedBlock` does to the file**, whatever the operating system does: it
appends a prefix of the compressed block, within the size limit, and writes a prefix of the new
header over the old one. -/
theorem writeTimedBlock_file (enc : Encoder) (env : WriteEnv) (f : GPFile) {file : List UInt8}
    (t : BitVec 64) (d : GoBytes) (hmax : file.length ≤ maxFileSize) :
    ∃ j k, (file ++ (enc.compress d.bytes).take k).length ≤ maxFileSize ∧
      (writeTimedBlock enc env f file t d).2.1 =
        overwrite (file ++ (enc.compress d.bytes).take k)
          ((writeTimedBlock enc env f file t d).1.wBuf.take j) := by
  rcases hw : writeTimedBlock enc env f file t d with ⟨g, file', r⟩
  rcases writeTimedBlock_cases hw hmax with
    ⟨-, ⟨k, hf⟩, hk, -⟩ | ⟨-, -, -, -, hfit, -, hres⟩ <;> clear hw
  · subst hf
    exact ⟨0, k, hk, by simp only [List.take_zero, overwrite, List.length_nil, List.drop_zero,
      List.nil_append]⟩
  · have hout := List.take_length (enc.compress d.bytes)
    rcases hres with ⟨-, -, hf⟩ | ⟨-, j, -, hf⟩ <;> rw [hf]
    · exact ⟨g.wBuf.length, _, by rw [hout, List.length_append]; exact hfit,
        by rw [hout, List.take_length]⟩
    · exact ⟨j, _, by rw [hout, List.length_append]; exact hfit, by rw [hout]⟩

/-- `s'` keeps every byte of `s`'s file past the header, and has bytes added only at its end. -/
def KeepsBlocks (s s' : Store) : Prop :=
  ∃ x, s'.file.drop (3 * BufSize) = s.file.drop (3 * BufSize) ++ x ∧
    s'.file.length = s.file.length + x.length

theorem KeepsBlocks.of_file {s s' : Store} (h : s'.file = s.file) : KeepsBlocks s s' :=
  ⟨[], by simp [h], by simp [h]⟩

theorem KeepsBlocks.trans {s₁ s₂ s₃ : Store} :
    KeepsBlocks s₁ s₂ → KeepsBlocks s₂ s₃ → KeepsBlocks s₁ s₃
  | ⟨x, h₁, l₁⟩, ⟨y, h₂, l₂⟩ =>
    ⟨x ++ y, by rw [h₂, h₁, List.append_assoc],
      by rw [l₂, l₁, List.length_append, Nat.add_assoc]⟩

theorem KeepsBlocks.le_length {s s' : Store} (h : KeepsBlocks s s') :
    s.file.length ≤ s'.file.length :=
  let ⟨_, _, l⟩ := h
  l ▸ Nat.le_add_right _ _

/-- **Step lemma.** On a file that holds a whole header, every operation keeps the bytes past the
header and stays within the size limit: reads and reopenings leave the file alone, and a write
does what `writeTimedBlock_file` says. -/
theorem Store.step_keepsBlocks (enc : Encoder) {s : Store} (o : Op)
    (h3 : 3 * BufSize ≤ s.file.length) (hmax : s.file.length ≤ maxFileSize) :
    KeepsBlocks s (s.step enc o) ∧ (s.step enc o).file.length ≤ maxFileSize := by
  cases o with
  | write env t d =>
    obtain ⟨j, k, hk, hw⟩ := writeTimedBlock_file enc env s.gpf t d hmax
    have hj : ((writeTimedBlock enc env s.gpf s.file t d).1.wBuf.take j).length ≤
        3 * BufSize := by simp
    simp only [Store.step, hw]
    refine ⟨⟨(enc.compress d.bytes).take k, ?_, ?_⟩, ?_⟩
    · rw [drop_overwrite hj, List.drop_append_of_le_length h3]
    · rw [length_overwrite (by simp only [List.length_append] at *; omega), List.length_append]
    · rwa [length_overwrite (by simp only [List.length_append] at *; omega)]
  | read i => exact ⟨.of_file rfl, hmax⟩
  | readTimed t =>
    have e : (s.step enc (.readTimed t)).file = s.file := by
      simp only [Store.step]; split <;> rfl
    exact ⟨.of_file e, e ▸ hmax⟩
  | reopen => rw [Store.step_reopen h3]; exact ⟨.of_file rfl, hmax⟩

/-- **Run lemma.** Every sequence of operations from a file that holds a whole header keeps its
bytes past the header. -/
theorem Store.foldl_keepsBlocks (enc : Encoder) :
    ∀ (ops : List Op) {s : Store}, 3 * BufSize ≤ s.file.length →
      s.file.length ≤ maxFileSize → KeepsBlocks s (ops.foldl (Store.step enc) s)
  | [], _, _, _ => .of_file rfl
  | o :: ops, s, h3, hmax =>
    let ⟨hk, hmax'⟩ := s.step_keepsBlocks enc o h3 hmax
    hk.trans (Store.foldl_keepsBlocks enc ops (h3.trans hk.le_length) hmax')

/-- Every store a history reaches holds a whole header, within the size limit. -/
theorem Reach.file_bounds {allowed : Store → Op → Prop} {ops : List Op}
    {s : Store} (hs : Reach enc allowed ops s) :
    3 * BufSize ≤ s.file.length ∧ s.file.length ≤ maxFileSize := by
  induction hs with
  | init h =>
    have hi : StoreInv enc _ := StoreInv.init h
    exact ⟨hi.header, hi.size⟩
  | step _ _ ih =>
    obtain ⟨hk, hmax⟩ := Store.step_keepsBlocks enc _ ih.1 ih.2
    exact ⟨ih.1.trans hk.le_length, hmax⟩

/-- **Stored bytes are never rewritten.** Along every history from a fresh path, with writes
under any behaviour of the operating system (an open that fails, an append or a header write
cut short), reads and reopenings, the file holds a whole header within the size limit, and
every later sequence of operations keeps each byte past the header where it is: the file only
grows at its end. A failed or torn write can damage the header, never a stored block. -/
theorem stored_bytes_never_rewritten {allowed : Store → Op → Prop}
    {ops : List Op} {s : Store} (hs : Reach enc allowed ops s) (later : List Op) :
    3 * BufSize ≤ s.file.length ∧ s.file.length ≤ maxFileSize ∧
      ∃ x, (later.foldl (Store.step enc) s).file.drop (3 * BufSize) =
          s.file.drop (3 * BufSize) ++ x ∧
        (later.foldl (Store.step enc) s).file.length = s.file.length + x.length :=
  let ⟨h3, hmax⟩ := hs.file_bounds
  ⟨h3, hmax, Store.foldl_keepsBlocks enc later h3 hmax⟩

/-- After a stored block and a torn header write, later failed writes and a reopening keep the
bytes past the header. -/
theorem stored_bytes_kept_by_failed_writes :
    let o₁ : Op := .write .ok 1 ⟨[7, 8], by decide⟩
    let o₂ : Op := .write ⟨true, none, true, some 8⟩ 2 ⟨[9], by decide⟩
    let s := ((freshStore "p").step Encoder.raw o₁).step Encoder.raw o₂
    let later : List Op := [.write ⟨true, some 1, true, none⟩ 5 ⟨[1, 2], by decide⟩,
      .reopen, .write ⟨true, none, true, some 100⟩ 6 ⟨[3], by decide⟩]
    Reach Encoder.raw (fun _ _ => True) [o₁, o₂] s ∧
      3 * BufSize ≤ s.file.length ∧ s.file.length ≤ maxFileSize ∧
      ∃ x, (later.foldl (Store.step Encoder.raw) s).file.drop (3 * BufSize) =
          s.file.drop (3 * BufSize) ++ x ∧
        (later.foldl (Store.step Encoder.raw) s).file.length = s.file.length + x.length := by
  intro o₁ o₂ s later
  have hs : Reach Encoder.raw (fun _ _ => True) [o₁, o₂] s := .step (.step (.fresh "p") trivial) trivial
  exact ⟨hs, stored_bytes_never_rewritten hs later⟩

end GoProbe
