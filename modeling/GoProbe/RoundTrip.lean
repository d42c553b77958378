import GoProbe.HeaderInvariant

/-!
# Reading back what was written

A history whose writes all return nil keeps more than `StoreInv` (`CleanInv`): the header on
disk is the one in memory, the file ends exactly where the next block will start, every used
block holds its compressed payload, and the read handle is where `ReadBlock`'s seek-skipping
test needs it for every slot not read since the last open. From it:

* **the round trip** (`first_read_returns_written`): the first `ReadTimedBlock` of a written
  timestamp on a `GPFile`, the writing one or one opened later, returns the written payload,
  whatever was read and reopened before;
* **the re-read** (`reread_starts_after_block`): `ReadBlock(i)` right after `ReadBlock(i)`
  skips the seek, because `lastSeekPos` holds where the first read started, and reads the
  bytes after block `i`.
-/

namespace GoProbe

/-- Every write of the history returns nil; reads and reopenings are unrestricted. -/
def writesSucceed (enc : Encoder) (s : Store) : Op → Prop
  | .write env t d => (writeTimedBlock enc env s.gpf s.file t d).2.2 = .ok ()
  | _ => True

/-- The invariant of a history whose writes all returned nil. -/
structure CleanInv (enc : Encoder) (s : Store) : Prop where
  store : StoreInv enc s
  /-- the header on disk is the one in memory -/
  synced : s.diskHeader.blocks = s.gpf.blocks ∧ s.diskHeader.timestamps = s.gpf.timestamps ∧
    s.diskHeader.lengths = s.gpf.lengths
  /-- the file ends where the first unused slot's block would start -/
  tail : ∀ i, s.gpf.timestamps i = 0 → (∀ j, j < i → s.gpf.timestamps j ≠ 0) →
    (blockStart s.gpf.blocks i).toNat = s.file.length
  /-- every used block holds its compressed payload -/
  data : ∀ i, s.gpf.timestamps i ≠ 0 →
    (s.file.drop (blockStart s.gpf.blocks i).toNat).take
      (enc.compress (s.payload (s.gpf.timestamps i))).length =
      enc.compress (s.payload (s.gpf.timestamps i))
  /-- only used slots were read -/
  readUsed : ∀ i ∈ s.readSlots, s.gpf.timestamps i ≠ 0
  /-- the read handle: never seeked, or at `lastSeekPos`, or past a block with a byte that was
  read since the last open and starts at `lastSeekPos` -/
  seek : s.gpf.lastSeekPos.toNat < 3 * BufSize ∨ s.gpf.curFile = s.gpf.lastSeekPos.toNat ∨
    ∃ b ∈ s.readSlots, blockStart s.gpf.blocks b = s.gpf.lastSeekPos ∧
      enc.compress (s.payload (s.gpf.timestamps b)) ≠ []

variable {enc : Encoder}

/-! ## Reads -/

theorem CleanInv.read {s : Store} (h : CleanInv enc s) (i : Fin NumElements) :
    CleanInv enc (s.read enc i) := by
  have hm := h.store.mem
  by_cases he : s.gpf.isEmpty i
  · have e : s.read enc i = s := by simp [Store.read, readBlock, he]
    rwa [e]
  have hi : s.gpf.timestamps i ≠ 0 := fun h0 => he ((hm.isEmpty_iff i).mpr h0)
  obtain ⟨hb, ht, hl, hn⟩ := @Store.read_gpf enc s i
  have hd : (s.read enc i).diskHeader = s.diskHeader := by
    simp only [Store.diskHeader, Store.read_file, hn]
  have hslots : (s.read enc i).readSlots = i :: s.readSlots := by simp [Store.read, he]
  have hr := hm.readBlock_eq hi s.file
  refine ⟨h.store.read i, ?_, ?_, ?_, ?_, ?_⟩ <;>
    simp only [hd, hb, ht, hl, hslots, Store.read_file, Store.read_payload]
  · exact h.synced
  · exact h.tail
  · exact h.data
  · exact fun j hj => (List.mem_cons.mp hj).elim (fun e => e ▸ hi) (h.readUsed j)
  · simp only [Store.read, hr]
    by_cases hc : enc.compress (s.payload (s.gpf.timestamps i)) = []
    · by_cases hL : blockStart s.gpf.blocks i = s.gpf.lastSeekPos
      · simp only [hL, hc, if_true, List.length_nil, List.take_zero, Nat.add_zero]
        rcases h.seek with h1 | h1 | ⟨b, hb', hb1, hb2⟩
        · exact .inl h1
        · exact .inr (.inl h1)
        · exact .inr (.inr ⟨b, List.mem_cons_of_mem _ hb', hb1, hb2⟩)
      · simp [hL, hc]
    · exact .inr (.inr ⟨i, List.mem_cons_self _ _, rfl, hc⟩)

/-! ## Writes -/

/-- The first unused slot after a write that took slot `newPos` is slot `newPos + 1`. -/
theorem HeaderInv.next_unused {payload : BitVec 64 → List UInt8} {f : GPFile}
    (h : HeaderInv enc payload f) {t nextFreeBlock : BitVec 64} {newPos i : Fin NumElements}
    {nWrite dataLen : Nat} (hscan : scanSlots f t = .free newPos nextFreeBlock)
    (hi : (f.record newPos nextFreeBlock t nWrite dataLen).timestamps i = 0)
    (hbefore : ∀ j, j < i → (f.record newPos nextFreeBlock t nWrite dataLen).timestamps j ≠ 0) :
    prevSlot i = newPos ∧ i.val ≠ 0 := by
  obtain ⟨h0, ht0, hb, -⟩ := scanSlots_free hscan
  have hne : i ≠ newPos := fun e => by subst e; simp at hi; exact ht0 hi
  simp only [GPFile.record_timestamps, Function.update_noteq hne] at hi
  have hgt : newPos < i := lt_of_le_of_ne (not_lt.mp fun hlt => (hb i hlt).2 hi) (Ne.symm hne)
  have hle : i.val ≤ newPos.val + 1 := by
    by_contra hlt
    have hj := hbefore ⟨newPos.val + 1, by omega⟩ (by rw [Fin.lt_def]; simp only; omega)
    rw [GPFile.record_timestamps, Function.update_noteq (by rw [ne_eq, Fin.ext_iff]; simp)] at hj
    exact hj (h.downClosed _ _ (by rw [Fin.le_def]; simp) hj |>.elim h0 |>.elim)
  rw [Fin.lt_def] at hgt
  exact ⟨Fin.ext (by simp [prevSlot]; omega), by omega⟩

theorem CleanInv.write {s : Store} (h : CleanInv enc s) {env : WriteEnv} {t : BitVec 64}
    {d : GoBytes} (hok : (writeTimedBlock enc env s.gpf s.file t d).2.2 = .ok ()) :
    CleanInv enc (s.step enc (.write env t d)) := by
  have hm := h.store.mem
  rcases hw : writeTimedBlock enc env s.gpf s.file t d with ⟨g, file', r⟩
  rw [hw] at hok
  subst hok
  have hres := writeTimedBlock_eq_ok hw h.store.size
  have hstore := h.store.write (show env.Untorn from fun k hk => by
    rw [hres.choose_spec.choose_spec.2.2.2.1] at hk; cases hk) t d
  rw [s.step_write hw] at hstore ⊢
  clear hw
  obtain ⟨newPos, nfb, hscan, hfit, rfl, -, hf⟩ := hres
  have hfree := hm.unheld_of_scan_free hscan
  have hnone : (s.gpf.timedSlot t).isSome = false := by
    simp only [GPFile.timedSlot, findSlot_eq_none_iff.mpr hfree, Option.isSome_none]
  obtain ⟨hs, hnew⟩ := scanSlots_free_start hscan h.store.header h.store.ends hfit
  obtain ⟨h0, ht0, hbefore, rfl⟩ := scanSlots_free hscan
  have htail := h.tail newPos h0 fun j hj => (hbefore j hj).2
  have hB := h.store.header
  have hold : ∀ i, s.gpf.timestamps i ≠ 0 → i ≠ newPos := fun i hi e => hi (e ▸ h0)
  have hdrop : ∀ n, 3 * BufSize ≤ n → file'.drop n = (s.file ++ enc.compress d.bytes).drop n :=
    fun n hn => by rw [hf, drop_overwrite (by simpa using hn)]
  have hlen : file'.length = s.file.length + (enc.compress d.bytes).length := by
    rw [hf, length_overwrite] <;> simp; omega
  set g := s.gpf.record newPos (blockStart s.gpf.blocks newPos) t (enc.compress d.bytes).length
    d.bytes.length with hg
  have hpay : ∀ i, i ≠ newPos → Function.update s.payload t d.bytes (g.timestamps i) =
      s.payload (s.gpf.timestamps i) := fun i hi => by
    rw [hg, GPFile.record_timestamps, Function.update_noteq hi, Function.update_noteq (hfree i)]
  have hstart : ∀ i, s.gpf.timestamps i ≠ 0 → blockStart g.blocks i = blockStart s.gpf.blocks i :=
    fun i hi => blockStart_update (le_of_lt (hm.lt_of_used hi h0))
  simp only [hnone, Bool.false_eq_true, if_false] at hstore ⊢
  refine ⟨hstore, ?_, fun i hi hbefore => ?_, fun i hi => ?_, fun b hb => ?_, ?_⟩ <;> dsimp only at *
  · -- the whole header was written
    simp only [Store.diskHeader, hf, hg, GPFile.record_filename]
    exact openedHeader_overwrite_wBuf _
  · -- the next block starts at the new end of the file
    obtain ⟨hp, hi0⟩ := hm.next_unused hscan hi hbefore
    rw [blockStart, if_pos hi0, hp, hg, GPFile.record_blocks, Function.update_same, hnew, htail, hlen]
  · -- the new block holds its bytes, the old ones are untouched
    by_cases hin : i = newPos
    · subst hin
      have e1 : g.timestamps i = t := by rw [hg, GPFile.record_timestamps, Function.update_same]
      have e2 : blockStart g.blocks i = blockStart s.gpf.blocks i := by
        rw [hg, GPFile.record_blocks, blockStart_update le_rfl]
      rw [e1, Function.update_same, e2, htail, hdrop _ hB, List.drop_left, List.take_length]
    · have hi' : s.gpf.timestamps i ≠ 0 := by
        rwa [hg, GPFile.record_timestamps, Function.update_noteq hin] at hi
      have hst := hm.start i hi'
      have hend := (hm.stop i hi').1
      have hin' := h.store.ends i hi'
      rw [hpay i hin, hstart i hi', hdrop _ hst, List.drop_append_of_le_length (by omega),
        List.take_append_of_le_length (by simp; omega), h.data i hi']
  · -- the slots read are still used
    have := h.readUsed b hb
    rwa [hg, GPFile.record_timestamps, Function.update_noteq (hold b this)]
  · -- the read handle has not moved
    simp only [hg, GPFile.record_curFile, GPFile.record_lastSeekPos]
    rcases h.seek with h1 | h1 | ⟨b, hb, hb1, hb2⟩
    · exact .inl h1
    · exact .inr (.inl h1)
    · have hb' := h.readUsed b hb
      refine .inr (.inr ⟨b, hb, ?_, ?_⟩)
      · rw [hstart b hb', hb1]
      · rw [hpay b (hold b hb')]; exact hb2

/-- A successful write stores its timestamp in a slot that was unused and its payload under
it; no slot held the timestamp before. -/
theorem StoreInv.step_write_ok {s : Store} (h : StoreInv enc s) {env : WriteEnv} {t : BitVec 64}
    {d : GoBytes} (hok : (writeTimedBlock enc env s.gpf s.file t d).2.2 = .ok ()) :
    ∃ newPos, s.gpf.timestamps newPos = 0 ∧ t ≠ 0 ∧ (∀ j, s.gpf.timestamps j ≠ t) ∧
      (s.step enc (.write env t d)).gpf.timestamps = Function.update s.gpf.timestamps newPos t ∧
      (s.step enc (.write env t d)).payload = Function.update s.payload t d.bytes := by
  rcases hw : writeTimedBlock enc env s.gpf s.file t d with ⟨g, file', r⟩
  rw [hw] at hok
  subst hok
  obtain ⟨newPos, nfb, hscan, -, hg, -⟩ := writeTimedBlock_eq_ok hw h.size
  have hfree := h.mem.unheld_of_scan_free hscan
  obtain ⟨h0, ht0, -⟩ := scanSlots_free hscan
  refine ⟨newPos, h0, ht0, hfree, ?_, ?_⟩ <;> rw [s.step_write hw]
  · rw [hg, GPFile.record_timestamps]
  · simp only [GPFile.timedSlot, findSlot_eq_none_iff.mpr hfree, Option.isSome_none,
      Bool.false_eq_true, if_false]

theorem CleanInv.reopen {s : Store} (h : CleanInv enc s) : CleanInv enc (s.step enc .reopen) := by
  obtain ⟨hb, ht, hl⟩ := h.synced
  have hstore := h.store.reopen
  rw [Store.step_reopen h.store.header] at hstore ⊢
  refine ⟨hstore, ⟨rfl, rfl, rfl⟩, ?_, ?_, fun _ hb => absurd hb (List.not_mem_nil _),
    .inl (by simp [Store.diskHeader, openedHeader])⟩ <;> dsimp only <;> rw [hb, ht]
  · exact h.tail
  · exact h.data

/-- The store a fresh `NewGPFile` makes satisfies the clean invariant. -/
theorem CleanInv.init {p : String} {g : GPFile} {file : List UInt8}
    (h : newGPFile p (.absent false) = .ok (g, file)) : CleanInv enc ⟨file, g, fun _ => [], []⟩ := by
  have hstore : StoreInv enc _ := StoreInv.init h
  simp only [newGPFile, Except.ok.injEq, Prod.mk.injEq] at h
  obtain ⟨rfl, rfl⟩ := h
  change CleanInv enc (freshStore p)
  change StoreInv enc (freshStore p) at hstore
  refine ⟨hstore, ⟨?_, ?_, ?_⟩, fun i _ hbefore => ?_, fun i hi => absurd (freshStore_timestamps p i) hi,
    fun _ hb => absurd hb (List.not_mem_nil _), .inl (by simp [freshStore])⟩
  · funext i; rw [freshStore_blocks]; exact (openedHeader_blank p i).2.1
  · funext i; rw [freshStore_timestamps]; exact (openedHeader_blank p i).1
  · funext i; rw [freshStore_lengths]; exact (openedHeader_blank p i).2.2
  · have hi0 : i.val = 0 := by
      by_contra hne
      exact hbefore ⟨0, by decide⟩ (by rw [Fin.lt_def]; simp only; omega) (freshStore_timestamps p _)
    simp [blockStart, hi0]

/-! ## Histories whose writes succeed -/

theorem CleanInv.step {s : Store} (h : CleanInv enc s) {o : Op} (ho : writesSucceed enc s o) :
    CleanInv enc (s.step enc o) := by
  cases o with
  | write env t d => exact h.write ho
  | read i => exact h.read i
  | readTimed t =>
    simp only [Store.step]
    split
    · exact h.read _
    · exact h
  | reopen => exact h.reopen

theorem cleanInv_of_reach {ops : List Op} {s : Store} (hs : Reach enc (writesSucceed enc) ops s) :
    CleanInv enc s := by
  induction hs with
  | init h => exact .init h
  | step _ ho ih => exact ih.step ho

/-- Every operation keeps each used timestamp in some slot, with its payload. -/
theorem CleanInv.step_keeps {s : Store} (h : CleanInv enc s) {o : Op} (ho : writesSucceed enc s o)
    {t : BitVec 64} (ht : t ≠ 0) (hheld : ∃ i, s.gpf.timestamps i = t) :
    (∃ i, (s.step enc o).gpf.timestamps i = t) ∧ (s.step enc o).payload t = s.payload t := by
  obtain ⟨i, hi⟩ := hheld
  have hread : ∀ j, (∃ i, (s.read enc j).gpf.timestamps i = t) ∧ (s.read enc j).payload t = s.payload t :=
    fun j => ⟨⟨i, by rw [(@Store.read_gpf enc s j).2.1, hi]⟩, rfl⟩
  cases o with
  | write env t' d =>
    obtain ⟨newPos, h0, -, hfree, hts, hpay⟩ := h.store.step_write_ok ho
    have hne : i ≠ newPos := fun e => ht (hi ▸ e ▸ h0)
    exact ⟨⟨i, by rw [hts, Function.update_noteq hne, hi]⟩,
      by rw [hpay, Function.update_noteq (hi ▸ hfree i)]⟩
  | read j => exact hread j
  | readTimed t' =>
    simp only [Store.step]
    split
    · exact hread _
    · exact ⟨⟨i, hi⟩, rfl⟩
  | reopen =>
    rw [Store.step_reopen h.store.header]
    exact ⟨⟨i, by rw [← hi]; exact congrFun h.synced.2.1 i⟩, rfl⟩

/-- Every write of a history whose writes succeed left its timestamp in a slot and its payload
under it. -/
theorem written_of_reach {ops : List Op} {s : Store} (hs : Reach enc (writesSucceed enc) ops s)
    {env : WriteEnv} {t : BitVec 64} {d : GoBytes} (hw : Op.write env t d ∈ ops) :
    t ≠ 0 ∧ (∃ i, s.gpf.timestamps i = t) ∧ s.payload t = d.bytes := by
  induction hs with
  | init _ => exact absurd hw (List.not_mem_nil _)
  | @step ops s o hs ho ih =>
    have h := cleanInv_of_reach hs
    rcases List.mem_append.mp hw with hw | hw
    · obtain ⟨ht, hheld, hpay⟩ := ih hw
      obtain ⟨hheld', hpay'⟩ := h.step_keeps ho ht hheld
      exact ⟨ht, hheld', hpay'.trans hpay⟩
    · rw [← List.mem_singleton.mp hw] at ho ⊢
      obtain ⟨newPos, -, ht0, -, hts, hpay⟩ := h.store.step_write_ok ho
      exact ⟨ht0, ⟨newPos, by rw [hts, Function.update_same]⟩, by rw [hpay, Function.update_same]⟩

/-! ## The round trip -/

/-- **One write on a fresh file**, with every system call succeeding: the block goes right
after the header, into slot 0. -/
theorem freshStore_write {p : String} {t : BitVec 64} (ht : t ≠ 0) (d : GoBytes)
    (hfit : 3 * BufSize + (enc.compress d.bytes).length ≤ maxFileSize) :
    let g := (freshStore p).gpf.record ⟨0, by decide⟩ headerEnd t (enc.compress d.bytes).length
      d.bytes.length
    writeTimedBlock enc .ok (freshStore p).gpf (freshStore p).file t d =
        (g, overwrite ((freshStore p).file ++ enc.compress d.bytes) g.wBuf, .ok ()) ∧
      (freshStore p).step enc (.write .ok t d) =
        ⟨overwrite ((freshStore p).file ++ enc.compress d.bytes) g.wBuf, g,
          Function.update (fun _ => []) t d.bytes, []⟩ := by
  have hw : writeTimedBlock enc .ok (freshStore p).gpf (freshStore p).file t d = _ :=
    writeTimedBlock_of_appended (scanSlots_freshStore p ht) (by decide) rfl rfl
      (by rwa [length_freshStore_file])
  refine ⟨hw, ?_⟩
  rw [Store.step_write _ hw]
  have hnone : ((freshStore p).gpf.timedSlot t).isSome = false := by
    rw [GPFile.timedSlot, findSlot_eq_none_iff.mpr fun j =>
      show (freshStore p).gpf.timestamps j ≠ t by rw [freshStore_timestamps]; exact Ne.symm ht]
    rfl
  simp only [hnone, Bool.false_eq_true, if_false]
  rfl


/-- **The seek-skipping test is safe on a slot's first read.** On the first read of a slot
whose block has a byte, `ReadBlock` reads from the block's start. -/
theorem CleanInv.first_read_pos {s : Store} (h : CleanInv enc s) {j : Fin NumElements}
    (hj : s.gpf.timestamps j ≠ 0) (hfirst : j ∉ s.readSlots)
    (hc : enc.compress (s.payload (s.gpf.timestamps j)) ≠ []) :
    (if blockStart s.gpf.blocks j = s.gpf.lastSeekPos then s.gpf.curFile
      else (blockStart s.gpf.blocks j).toNat) = (blockStart s.gpf.blocks j).toNat := by
  split_ifs with hL
  · rcases h.seek with h1 | h1 | ⟨b, hb, hb1, hb2⟩
    · have := h.store.mem.start j hj
      rw [← hL] at h1; omega
    · rw [h1, ← hL]
    · have := h.store.mem.start_inj (h.readUsed b hb) hj hb2 hc (hb1.trans hL.symm)
      exact absurd (this ▸ hb) hfirst
  · rfl

/-- On a slot's first read, `ReadBlock` reads the block's bytes. -/
theorem CleanInv.first_read_bytes {s : Store} (h : CleanInv enc s) {j : Fin NumElements}
    (hj : s.gpf.timestamps j ≠ 0) (hfirst : j ∉ s.readSlots) :
    (s.file.drop (if blockStart s.gpf.blocks j = s.gpf.lastSeekPos then s.gpf.curFile
        else (blockStart s.gpf.blocks j).toNat)).take
      (enc.compress (s.payload (s.gpf.timestamps j))).length =
      enc.compress (s.payload (s.gpf.timestamps j)) := by
  by_cases hc : enc.compress (s.payload (s.gpf.timestamps j)) = []
  · simp [hc]
  rw [h.first_read_pos hj hfirst hc, h.data j hj]

/-- **Block-file round trip.** In a history from a fresh path whose writes all return nil, with
any reads and reopenings between them, a `ReadTimedBlock` of a written timestamp that is the
first read of its slot on the current `GPFile` returns the payload that was written. -/
theorem first_read_returns_written (hlaw : enc.Lawful) {ops : List Op} {s : Store}
    (hs : Reach enc (writesSucceed enc) ops s) {env : WriteEnv} {t : BitVec 64} {d : GoBytes}
    (hw : Op.write env t d ∈ ops) (hfirst : ∀ i, s.gpf.timedSlot t = some i → i ∉ s.readSlots) :
    (readTimedBlock enc s.gpf s.file t).2 = .ok d.bytes := by
  have h := cleanInv_of_reach hs
  obtain ⟨ht0, ⟨i, hi⟩, hpay⟩ := written_of_reach hs hw
  obtain ⟨j, hj⟩ : ∃ j, s.gpf.timedSlot t = some j :=
    Option.ne_none_iff_exists'.mp fun hn => findSlot_eq_none_iff.mp hn i hi
  have hjt : s.gpf.timestamps j = t := (findSlot_eq_some_iff.mp hj).1
  have hj0 : s.gpf.timestamps j ≠ 0 := hjt ▸ ht0
  have hbytes := h.first_read_bytes hj0 (hfirst j hj)
  simp only [readTimedBlock, hj, h.store.mem.readBlock_eq hj0 s.file]
  rw [hbytes, if_pos rfl, hjt, hlaw, fillBuffer_length, hpay]

theorem first_read_of_one_block :
    let s := (freshStore "p").step Encoder.raw (.write .ok 1 ⟨[7], by decide⟩)
    Reach Encoder.raw (writesSucceed Encoder.raw) [.write .ok 1 ⟨[7], by decide⟩] s ∧
      (readTimedBlock Encoder.raw s.gpf s.file 1).2 = .ok [7] :=
  have hs : Reach Encoder.raw (writesSucceed Encoder.raw) [.write .ok 1 ⟨[7], by decide⟩]
      ((freshStore "p").step Encoder.raw (.write .ok 1 ⟨[7], by decide⟩)) :=
    .step (.fresh "p") (by
      show (writeTimedBlock _ _ _ _ _ _).2.2 = _
      rw [writeTimedBlock_of_appended (scanSlots_freshStore "p" (by decide)) (by decide) rfl rfl
        (by rw [length_freshStore_file]; decide)]
      rfl)
  ⟨hs, first_read_returns_written Encoder.raw_lawful hs (List.mem_singleton_self _)
    fun _ _ => List.not_mem_nil _⟩

/-! ## Reading a block twice -/

/-- **The re-read.** Right after the first read of a slot whose block has a byte, reading the
slot again skips the seek, since `lastSeekPos` holds the block's start, and reads from the
block's end. -/
theorem reread_starts_after_block {s : Store} (h : CleanInv enc s) {i : Fin NumElements}
    (hi : s.gpf.timestamps i ≠ 0) (hfirst : i ∉ s.readSlots)
    (hc : enc.compress (s.payload (s.gpf.timestamps i)) ≠ []) :
    (readBlock enc (readBlock enc s.gpf s.file i).1 s.file i).2 =
      let c := enc.compress (s.payload (s.gpf.timestamps i))
      let bufComp := (s.file.drop ((blockStart s.gpf.blocks i).toNat + c.length)).take c.length
      if bufComp.length = c.length then
        .ok (fillBuffer (s.payload (s.gpf.timestamps i)).length
          (enc.decompress bufComp (s.payload (s.gpf.timestamps i)).length))
      else .error (.error "Incorrect number of bytes read for decompression") := by
  have hm := h.store.mem
  obtain ⟨pos, L, e⟩ := @readBlock_fst enc s.gpf s.file i
  have hm₁ : HeaderInv enc s.payload (readBlock enc s.gpf s.file i).1 :=
    hm.congr (by rw [e]) (by rw [e]) (by rw [e])
  rw [hm₁.readBlock_eq (by rw [e]; exact hi)]
  simp only [hm.readBlock_eq hi s.file, h.first_read_pos hi hfirst hc, h.data i hi, if_true]

/-- **Re-reading the newest block fails.** When the slot after `i` is unused, the file ends where
block `i` ends: the first read of `i` returns its payload, and the read right after it gets no
bytes and fails. -/
theorem reread_newest_block_fails (hlaw : enc.Lawful) {s : Store} (h : CleanInv enc s)
    {i j : Fin NumElements} (hji : j.val = i.val + 1) (hi : s.gpf.timestamps i ≠ 0)
    (hj : s.gpf.timestamps j = 0) (hfirst : i ∉ s.readSlots)
    (hc : enc.compress (s.payload (s.gpf.timestamps i)) ≠ []) :
    (readBlock enc s.gpf s.file i).2 = .ok (s.payload (s.gpf.timestamps i)) ∧
      (readBlock enc (readBlock enc s.gpf s.file i).1 s.file i).2 =
        .error (.error "Incorrect number of bytes read for decompression") := by
  have hm := h.store.mem
  refine ⟨?_, ?_⟩
  · simp only [hm.readBlock_eq hi s.file, h.first_read_bytes hi hfirst, if_true]
    rw [hlaw, fillBuffer_length]
  · have hend : (blockStart s.gpf.blocks j).toNat = s.file.length :=
      h.tail j hj fun k hk => hm.downClosed k i (by rw [Fin.lt_def] at hk; rw [Fin.le_def]; omega) hi
    have hprev : prevSlot j = i := Fin.ext (by simp [prevSlot]; omega)
    have hj0 : j.val ≠ 0 := by omega
    have hstop := (hm.stop i hi).1
    rw [blockStart, if_pos hj0, hprev] at hend
    rw [reread_starts_after_block h hi hfirst hc]
    dsimp only
    rw [List.drop_eq_nil_of_le (by omega), List.take_nil, List.length_nil]
    exact if_neg fun e => hc (List.length_eq_zero.mp e.symm)

theorem reread_of_one_block :
    let s : Store := (freshStore "p").step Encoder.raw (.write .ok 1 ⟨[7], by decide⟩)
    (readBlock Encoder.raw s.gpf s.file ⟨0, by decide⟩).2 = .ok [7] ∧
      (readBlock Encoder.raw (readBlock Encoder.raw s.gpf s.file ⟨0, by decide⟩).1 s.file
        ⟨0, by decide⟩).2 = .error (.error "Incorrect number of bytes read for decompression") := by
  have hfit : 3 * BufSize + (Encoder.raw.compress [7]).length ≤ maxFileSize := by decide
  have hw := freshStore_write (p := "p") (by decide : (1 : BitVec 64) ≠ 0) ⟨[7], by decide⟩ hfit
  have hs : Reach Encoder.raw (writesSucceed Encoder.raw) [.write .ok 1 ⟨[7], by decide⟩]
      ((freshStore "p").step Encoder.raw (.write .ok 1 ⟨[7], by decide⟩)) :=
    .step (.fresh "p") (by show (writeTimedBlock _ _ _ _ _ _).2.2 = _; rw [hw.1])
  have h := cleanInv_of_reach hs
  rw [hw.2] at h ⊢
  have := reread_newest_block_fails Encoder.raw_lawful h (i := ⟨0, by decide⟩) (j := ⟨1, by decide⟩) rfl
    (by simp) (by simp) (List.not_mem_nil _) (by simp [Encoder.raw, Function.update_apply])
  simpa using this

end GoProbe
