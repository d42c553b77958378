import GoProbe.BlockStore

/-!
# The header representation invariant

`HeaderInv` is what a `GPFile` header means: the used slots (nonzero timestamp) are a prefix,
every other slot is all zero, the used timestamps are distinct, each used block starts where the
previous one ends (or at the end of the header) and ends `len(Compress(payload))` bytes later,
and each used length is its payload's length.

The step lemma `HeaderInv.record` says the header `WriteTimedBlock` builds keeps it, from
`scanSlots_free` alone. `StoreInv` adds the header on disk, which is always the in-memory
header restricted to some of its slots, and the file bounds. Every write whose header write is
not torn keeps `StoreInv` (`StoreInv.step`), hence every store reachable by such writes
satisfies it (`storeInv_of_reach`). A header write torn inside a slot does not: see
`torn_header_write_breaks_prefix` in `GoProbe.Recovery`.
-/

namespace GoProbe

/-- The representation invariant of a header, read against the payload each used timestamp
was written with. -/
structure HeaderInv (enc : Encoder) (payload : BitVec 64 → List UInt8) (f : GPFile) : Prop where
  /-- (a) the used slots are a prefix -/
  downClosed : ∀ i j : Fin NumElements, i ≤ j → f.timestamps j ≠ 0 → f.timestamps i ≠ 0
  /-- (a) an unused slot is the all-zero triple -/
  unused : ∀ i, f.timestamps i = 0 → f.blocks i = 0 ∧ f.lengths i = 0
  /-- (b) the used timestamps are pairwise distinct -/
  distinct : ∀ i j, f.timestamps i ≠ 0 → f.timestamps i = f.timestamps j → i = j
  /-- (c) a used block starts at or after the end of the header -/
  start : ∀ i, f.timestamps i ≠ 0 → 3 * BufSize ≤ (blockStart f.blocks i).toNat
  /-- (c) and ends `len(Compress(payload))` bytes later, inside a file the kernel allows -/
  stop : ∀ i, f.timestamps i ≠ 0 →
    (f.blocks i).toNat = (blockStart f.blocks i).toNat + (enc.compress (payload (f.timestamps i))).length ∧
      (f.blocks i).toNat ≤ maxFileSize
  /-- (d) a used length is its payload's length -/
  length : ∀ i, f.timestamps i ≠ 0 →
    f.lengths i = BitVec.ofNat 64 (payload (f.timestamps i)).length ∧ (payload (f.timestamps i)).length < 2 ^ 63

variable {enc : Encoder} {payload : BitVec 64 → List UInt8}

/-! ## Facts about headers -/

theorem blockStart_update {blocks : Slots} {i newPos : Fin NumElements} {v : BitVec 64}
    (h : i ≤ newPos) : blockStart (Function.update blocks newPos v) i = blockStart blocks i := by
  unfold blockStart
  split_ifs with hi
  · exact Function.update_noteq (fun e => by rw [Fin.ext_iff] at e; simp [prevSlot] at e; rw [Fin.le_def] at h; omega) _ _
  · rfl

@[simp] theorem toNat_headerEnd : headerEnd.toNat = 3 * BufSize := rfl

theorem HeaderInv.congr {f g : GPFile} (h : HeaderInv enc payload f) (hb : g.blocks = f.blocks)
    (ht : g.timestamps = f.timestamps) (hl : g.lengths = f.lengths) : HeaderInv enc payload g := by
  obtain ⟨h1, h2, h3, h4, h5, h6⟩ := h
  rw [← hb, ← ht, ← hl] at *
  exact ⟨h1, h2, h3, h4, h5, h6⟩

/-- A payload changed only under a timestamp no used slot holds leaves the invariant alone. -/
theorem HeaderInv.update_payload {f : GPFile} {t : BitVec 64} (d : List UInt8)
    (h : HeaderInv enc payload f) (ht : ∀ i, f.timestamps i ≠ 0 → f.timestamps i ≠ t) :
    HeaderInv enc (Function.update payload t d) f := by
  have e : ∀ i, f.timestamps i ≠ 0 →
      Function.update payload t d (f.timestamps i) = payload (f.timestamps i) :=
    fun i hi => Function.update_noteq (ht i hi) _ _
  exact ⟨h.downClosed, h.unused, h.distinct, h.start, fun i hi => by rw [e i hi]; exact h.stop i hi,
    fun i hi => by rw [e i hi]; exact h.length i hi⟩

/-- Under the invariant, a used slot comes before every unused one. -/
theorem HeaderInv.lt_of_used {f : GPFile} (h : HeaderInv enc payload f) {i j : Fin NumElements}
    (hi : f.timestamps i ≠ 0) (hj : f.timestamps j = 0) : i < j :=
  lt_of_not_le fun hle => h.downClosed j i hle hi hj |>.elim

/-- A used block ends at or after where it starts. -/
theorem HeaderInv.start_le_stop {f : GPFile} (h : HeaderInv enc payload f) {i : Fin NumElements}
    (hi : f.timestamps i ≠ 0) : (blockStart f.blocks i).toNat ≤ (f.blocks i).toNat := by
  have := (h.stop i hi).1; omega

/-- Where the next block would start: inside the file if every used block ends there. -/
theorem blockStart_le_of_ends {f : GPFile} {i : Fin NumElements}
    {L : Nat} (hL : 3 * BufSize ≤ L) (hends : ∀ j, f.timestamps j ≠ 0 → (f.blocks j).toNat ≤ L)
    (hprev : i.val ≠ 0 → f.timestamps (prevSlot i) ≠ 0) : (blockStart f.blocks i).toNat ≤ L := by
  unfold blockStart
  split_ifs with hi
  · exact hends _ (hprev hi)
  · simpa using hL

/-! ## The write step -/

/-- When the slot loop finds a free slot, no slot holds the timestamp. -/
theorem HeaderInv.unheld_of_scan_free {f : GPFile} {t nextFreeBlock : BitVec 64}
    {newPos : Fin NumElements} (h : HeaderInv enc payload f)
    (hscan : scanSlots f t = .free newPos nextFreeBlock) : ∀ j, f.timestamps j ≠ t := by
  obtain ⟨h0, ht0, hbefore, -⟩ := scanSlots_free hscan
  intro j hj
  rcases lt_or_le j newPos with hlt | hle
  · exact (hbefore j hlt).1 hj
  · exact h.downClosed newPos j hle (hj ▸ ht0) h0

/-- The block the slot loop makes room for starts inside the file, and its end offset does not
wrap around. -/
theorem scanSlots_free_start {f : GPFile} {t nextFreeBlock : BitVec 64} {newPos : Fin NumElements}
    {c L : Nat} (hscan : scanSlots f t = .free newPos nextFreeBlock) (hL : 3 * BufSize ≤ L)
    (hends : ∀ j, f.timestamps j ≠ 0 → (f.blocks j).toNat ≤ L) (hfit : L + c ≤ maxFileSize) :
    nextFreeBlock.toNat ≤ L ∧ (nextFreeBlock + BitVec.ofNat 64 c).toNat = nextFreeBlock.toNat + c := by
  obtain ⟨-, -, hbefore, rfl⟩ := scanSlots_free hscan
  have hs := blockStart_le_of_ends (i := newPos) hL hends fun hi => (hbefore _ (by
    rw [Fin.lt_def]; simp [prevSlot]; omega)).2
  unfold maxFileSize at hfit
  refine ⟨hs, ?_⟩
  rw [BitVec.toNat_add, toNat_ofNat64 (by omega), Nat.mod_eq_of_lt (by omega)]

/-- **`WriteTimedBlock`'s header keeps the invariant.** The slot the loop chose is the first
unused one, the new timestamp is held by no slot, and the new block starts where the file's
used blocks end. -/
theorem HeaderInv.record {f : GPFile} {t nextFreeBlock : BitVec 64} {newPos : Fin NumElements}
    {d : List UInt8} {L : Nat} (h : HeaderInv enc payload f)
    (hscan : scanSlots f t = .free newPos nextFreeBlock)
    (hL : 3 * BufSize ≤ L) (hends : ∀ j, f.timestamps j ≠ 0 → (f.blocks j).toNat ≤ L)
    (hfit : L + (enc.compress d).length ≤ maxFileSize) (hd : d.length < 2 ^ 63) :
    HeaderInv enc (Function.update payload t d)
      (f.record newPos nextFreeBlock t (enc.compress d).length d.length) := by
  have hfree := h.unheld_of_scan_free hscan
  obtain ⟨hs, hnew⟩ := scanSlots_free_start hscan hL hends hfit
  obtain ⟨h0, ht0, hbefore, rfl⟩ := scanSlots_free hscan
  have hused : ∀ j, f.timestamps j ≠ 0 → j < newPos := fun j hj => h.lt_of_used hj h0
  have hpay : ∀ j, j ≠ newPos → Function.update payload t d (f.timestamps j) = payload (f.timestamps j) :=
    fun j _ => Function.update_noteq (hfree j) _ _
  refine ⟨fun i j hij hj => ?_, fun i hi => ?_, fun i j hi hij => ?_, fun i hi => ?_, fun i hi => ?_,
    fun i hi => ?_⟩ <;>
    simp only [GPFile.record_timestamps, GPFile.record_blocks, GPFile.record_lengths] at *
  · -- (a) the used slots are downward closed
    by_cases hi : i = newPos
    · subst hi; rw [Function.update_same]; exact ht0
    rw [Function.update_noteq hi]
    by_cases hjn : j = newPos
    · subst hjn; exact (hbefore i (lt_of_le_of_ne hij hi)).2
    rw [Function.update_noteq hjn] at hj
    exact h.downClosed i j hij hj
  · -- (a) an unused slot is all zero
    have hin : i ≠ newPos := fun e => by subst e; rw [Function.update_same] at hi; exact ht0 hi
    rw [Function.update_noteq hin] at hi
    rw [Function.update_noteq hin, Function.update_noteq hin]
    exact h.unused i hi
  · -- (b) distinct
    by_cases hin : i = newPos <;> by_cases hjn : j = newPos
    · exact hin.trans hjn.symm
    · subst hin; rw [Function.update_same, Function.update_noteq hjn] at hij
      exact absurd hij.symm (hfree j)
    · subst hjn; rw [Function.update_same, Function.update_noteq hin] at hij
      exact absurd hij (hfree i)
    · rw [Function.update_noteq hin, Function.update_noteq hjn] at hij
      rw [Function.update_noteq hin] at hi
      exact h.distinct i j hi hij
  · -- (c) start
    by_cases hin : i = newPos
    · subst hin
      rw [blockStart_update le_rfl]
      unfold blockStart
      split_ifs with hi'
      · have hp := (hbefore (prevSlot i) (by rw [Fin.lt_def]; simp [prevSlot]; omega)).2
        have := h.start_le_stop hp
        have := h.start _ hp
        omega
      · simp
    · rw [Function.update_noteq hin] at hi
      rw [blockStart_update (le_of_lt (hused i hi))]
      exact h.start i hi
  · -- (c) stop
    by_cases hin : i = newPos
    · subst hin
      rw [blockStart_update le_rfl, Function.update_same, Function.update_same, Function.update_same, hnew]
      exact ⟨rfl, by omega⟩
    · rw [Function.update_noteq hin] at hi ⊢
      rw [blockStart_update (le_of_lt (hused i hi)), Function.update_noteq hin, hpay i hin]
      exact h.stop i hi
  · -- (d) length
    by_cases hin : i = newPos
    · subst hin
      rw [Function.update_same, Function.update_same, Function.update_same]
      exact ⟨rfl, hd⟩
    · rw [Function.update_noteq hin] at hi ⊢
      rw [Function.update_noteq hin, hpay i hin]
      exact h.length i hi

/-! ## Consequences -/

/-- (c) Used blocks end in slot order. -/
theorem HeaderInv.blocks_le {f : GPFile} (h : HeaderInv enc payload f) {i j : Fin NumElements}
    (hij : i ≤ j) (hj : f.timestamps j ≠ 0) : (f.blocks i).toNat ≤ (f.blocks j).toNat := by
  obtain ⟨j, hjlt⟩ := j
  induction j with
  | zero => rw [show i = ⟨0, hjlt⟩ from Fin.ext (Nat.le_zero.mp hij)]
  | succ m ih =>
    rcases eq_or_lt_of_le hij with rfl | hlt
    · exact le_rfl
    have hm : f.timestamps ⟨m, by omega⟩ ≠ 0 :=
      h.downClosed _ _ (by rw [Fin.le_def]; simp) hj
    have h1 := ih (by omega) (by rw [Fin.lt_def] at hlt; rw [Fin.le_def]; simp at hlt ⊢; omega) hm
    have h2 := h.start_le_stop hj
    simp only [blockStart, prevSlot, ne_eq, add_eq_zero, one_ne_zero, and_false, not_false_eq_true,
      if_true, Nat.add_sub_cancel] at h2
    omega

/-- (c) and strictly when the later block has a byte. -/
theorem HeaderInv.blocks_lt {f : GPFile} (h : HeaderInv enc payload f) {i j : Fin NumElements}
    (hij : i < j) (hj : f.timestamps j ≠ 0) (hc : enc.compress (payload (f.timestamps j)) ≠ []) :
    (f.blocks i).toNat < (f.blocks j).toNat := by
  have hj0 : j.val ≠ 0 := by rw [Fin.lt_def] at hij; omega
  have hprev : i ≤ prevSlot j := by rw [Fin.lt_def] at hij; rw [Fin.le_def]; simp [prevSlot]; omega
  have h1 := h.blocks_le hprev (h.downClosed _ _ (by rw [Fin.le_def]; simp [prevSlot]) hj)
  have h2 := (h.stop j hj).1
  have h3 := List.length_pos.mpr hc
  simp only [blockStart, hj0, ne_eq, not_false_eq_true, if_true] at h2
  omega

theorem toInt_nonneg_of_toNat_lt {x : BitVec 64} (h : x.toNat < 2 ^ 63) : 0 ≤ x.toInt := by
  rw [BitVec.toInt_eq_toNat_cond, if_pos (by omega)]; omega

/-- **`ReadBlock` never makes a negative buffer for a used slot.** -/
theorem HeaderInv.span_nonneg {f : GPFile} (h : HeaderInv enc payload f) {i : Fin NumElements}
    (hi : f.timestamps i ≠ 0) : 0 ≤ (blockSpan f i).2.toInt ∧ 0 ≤ (f.lengths i).toInt := by
  have hs := h.stop i hi
  have hle := h.start_le_stop hi
  refine ⟨toInt_nonneg_of_toNat_lt ?_, ?_⟩
  · simp only [blockSpan, BitVec.toNat_sub]
    unfold maxFileSize at hs; omega
  · rw [(h.length i hi).1, toInt_ofNat64 (h.length i hi).2]; omega

/-- Two used blocks with a byte each start at different offsets. -/
theorem HeaderInv.start_inj {f : GPFile} (h : HeaderInv enc payload f) {i j : Fin NumElements}
    (hi : f.timestamps i ≠ 0) (hj : f.timestamps j ≠ 0)
    (hci : enc.compress (payload (f.timestamps i)) ≠ [])
    (hcj : enc.compress (payload (f.timestamps j)) ≠ [])
    (he : blockStart f.blocks i = blockStart f.blocks j) : i = j := by
  by_contra hne
  wlog hlt : i < j generalizing i j
  · exact this hj hi hcj hci he.symm (Ne.symm hne) (lt_of_le_of_ne (not_lt.mp hlt) (Ne.symm hne))
  have hj0 : j.val ≠ 0 := by rw [Fin.lt_def] at hlt; omega
  have h1 := h.blocks_le (show i ≤ prevSlot j by rw [Fin.lt_def] at hlt; rw [Fin.le_def]; simp [prevSlot]; omega)
    (h.downClosed _ _ (by rw [Fin.le_def]; simp [prevSlot]) hj)
  have h2 := (h.stop i hi).1
  have h3 := List.length_pos.mpr hci
  have h4 : (blockStart f.blocks j).toNat = (f.blocks (prevSlot j)).toNat := by
    simp [blockStart, hj0]
  rw [he] at h2
  omega

/-- Under the invariant a slot is empty exactly when its timestamp is 0. -/
theorem HeaderInv.isEmpty_iff {f : GPFile} (h : HeaderInv enc payload f) (i : Fin NumElements) :
    f.isEmpty i ↔ f.timestamps i = 0 :=
  ⟨fun he => he.1, fun ht => ⟨ht, h.unused i ht⟩⟩

/-- The span `ReadBlock` computes for a used slot: the block's start and its compressed length. -/
theorem HeaderInv.blockSpan_eq {f : GPFile} (h : HeaderInv enc payload f) {i : Fin NumElements}
    (hi : f.timestamps i ≠ 0) :
    blockSpan f i = (BitVec.ofNat 64 (blockStart f.blocks i).toNat,
      BitVec.ofNat 64 (enc.compress (payload (f.timestamps i))).length) := by
  have hs := h.stop i hi
  unfold maxFileSize at hs
  rw [ofNat_toNat64, blockSpan, Prod.mk.injEq]
  refine ⟨rfl, BitVec.eq_of_toNat_eq ?_⟩
  rw [BitVec.toNat_sub, toNat_ofNat64 (by omega)]
  omega

/-- **`ReadBlock` on a used slot.** It seeks to the block's start unless `lastSeekPos` already
is that offset, reads up to the block's compressed length from where the handle is, and
decompresses into a buffer of the payload's length when it got every byte. -/
theorem HeaderInv.readBlock_eq {f : GPFile} (h : HeaderInv enc payload f) {i : Fin NumElements}
    (hi : f.timestamps i ≠ 0) (file : List UInt8) :
    readBlock enc f file i =
      let pos := if blockStart f.blocks i = f.lastSeekPos then f.curFile
        else (blockStart f.blocks i).toNat
      let bufComp := (file.drop pos).take (enc.compress (payload (f.timestamps i))).length
      ({ f with curFile := pos + bufComp.length, lastSeekPos := blockStart f.blocks i },
        if bufComp.length = (enc.compress (payload (f.timestamps i))).length
        then .ok (fillBuffer (payload (f.timestamps i)).length
          (enc.decompress bufComp (payload (f.timestamps i)).length))
        else .error (.error "Incorrect number of bytes read for decompression")) := by
  have hs := h.stop i hi
  have hl := h.length i hi
  unfold maxFileSize at hs
  rw [readBlock_of_span (fun he => hi he.1) (h.blockSpan_eq hi) (by omega) (by omega)
    (by rw [hl.1, toInt_ofNat64 hl.2]; omega), hl.1, toNat_ofNat64 (by omega), ofNat_toNat64]

/-- **The duplicate test of `WriteTimedBlock` is exact.** Under the invariant the loop rejects
a nonzero timestamp as already present exactly when a slot holds it. -/
theorem HeaderInv.scan_duplicate_iff {f : GPFile} (h : HeaderInv enc payload f) {t : BitVec 64}
    (ht : t ≠ 0) : (∃ c, scanSlots f t = .duplicate c) ↔ ∃ i, f.timestamps i = t := by
  refine ⟨fun ⟨c, hc⟩ => scanSlots_duplicate hc, fun ⟨i, hi⟩ => ?_⟩
  unfold scanSlots
  split
  · rename_i j hj
    obtain ⟨h1, h2⟩ := findSlot_eq_some_iff.mp hj
    rw [if_pos]
    · exact ⟨_, rfl⟩
    rcases h1 with h1 | h1
    · exact h1
    rcases lt_trichotomy i j with hlt | rfl | hgt
    · exact absurd (.inl hi) (h2 i hlt)
    · exact absurd (hi.symm.trans h1) ht
    · exact absurd h1 (h.downClosed j i (le_of_lt hgt) (hi ▸ ht))
  · rename_i hn
    exact absurd (Or.inl hi) (findSlot_eq_none_iff.mp hn i)

/-! ## Stores -/

/-- The header `NewGPFile` would read from the store's file. -/
def Store.diskHeader (s : Store) : GPFile := openedHeader s.gpf.filename s.file

/-- A header write that stops neither before its first byte nor after its last is torn. -/
def WriteEnv.Untorn (env : WriteEnv) : Prop :=
  ∀ k, env.headerStops = some k → k = 0 ∨ 3 * BufSize ≤ k

/-- Every operation but a write whose header write is torn. -/
def untorn (_ : Store) : Op → Prop
  | .write env _ _ => env.Untorn
  | _ => True

/-- The invariant of every store reachable without torn header writes: both headers satisfy
`HeaderInv`, the one on disk is the one in memory restricted to some of its slots, and the file
holds a whole header and every used block. -/
structure StoreInv (enc : Encoder) (s : Store) : Prop where
  mem : HeaderInv enc s.payload s.gpf
  disk : HeaderInv enc s.payload s.diskHeader
  diskSub : ∀ i, s.diskHeader.timestamps i ≠ 0 → s.diskHeader.timestamps i = s.gpf.timestamps i ∧
    s.diskHeader.blocks i = s.gpf.blocks i ∧ s.diskHeader.lengths i = s.gpf.lengths i
  header : 3 * BufSize ≤ s.file.length
  size : s.file.length ≤ maxFileSize
  ends : ∀ i, s.gpf.timestamps i ≠ 0 → (s.gpf.blocks i).toNat ≤ s.file.length

/-- A header with no used slot satisfies the invariant. -/
theorem HeaderInv.of_blank {f : GPFile}
    (h : ∀ i, f.timestamps i = 0 ∧ f.blocks i = 0 ∧ f.lengths i = 0) : HeaderInv enc payload f :=
  ⟨fun _ j _ hj => absurd (h j).1 hj, fun i _ => (h i).2, fun i _ hi => absurd (h i).1 hi,
    fun i hi => absurd (h i).1 hi, fun i hi => absurd (h i).1 hi, fun i hi => absurd (h i).1 hi⟩

/-- The header `NewGPFile` reads back from the file it created is blank. -/
theorem openedHeader_blank (p : String) (i : Fin NumElements) :
    let z := List.replicate BufSize (0 : UInt8)
    (openedHeader p (z ++ z ++ z)).timestamps i = 0 ∧ (openedHeader p (z ++ z ++ z)).blocks i = 0 ∧
      (openedHeader p (z ++ z ++ z)).lengths i = 0 := by
  have hz : (List.replicate BufSize (0 : UInt8)).length = BufSize := List.length_replicate _ _
  have h2 : (List.replicate BufSize (0 : UInt8) ++ List.replicate BufSize 0).length = 2 * BufSize := by
    simp only [List.length_append, hz]; omega
  simp only [openedHeader]
  rw [List.append_assoc, List.take_left' hz, List.drop_left' hz, List.take_left' hz,
    ← List.append_assoc, List.drop_left' h2, List.take_of_length_le (le_of_eq hz), parseSlots_zeros]
  exact ⟨rfl, rfl, rfl⟩

/-- The store a fresh `NewGPFile` makes satisfies the invariant. -/
theorem StoreInv.init {p : String} {g : GPFile} {file : List UInt8}
    (h : newGPFile p (.absent false) = .ok (g, file)) : StoreInv enc ⟨file, g, fun _ => [], []⟩ := by
  simp only [newGPFile, Bool.false_eq_true, if_false, Except.ok.injEq, Prod.mk.injEq] at h
  obtain ⟨rfl, rfl⟩ := h
  have hz : ∀ i, parseSlots (List.replicate BufSize 0) i = 0 := fun i => by rw [parseSlots_zeros]
  refine ⟨.of_blank fun i => ⟨hz i, hz i, hz i⟩, .of_blank (openedHeader_blank p),
    fun i hi => absurd (openedHeader_blank p i).1 hi, by simp; omega,
    by simp only [List.length_append, List.length_replicate]; decide,
    fun i hi => absurd (hz i) hi⟩

/-! ## The store steps -/

/-- The ghost payload after a write: changed only under a timestamp no slot of `f` holds. -/
theorem HeaderInv.update_unheld {f g : GPFile} {t : BitVec 64} (d : List UInt8)
    (h : HeaderInv enc payload g) (hsub : ∀ i, g.timestamps i ≠ 0 → ∃ j, f.timestamps j = g.timestamps i) :
    HeaderInv enc (if (f.timedSlot t).isSome then payload else Function.update payload t d) g := by
  split_ifs with hs
  · exact h
  · refine h.update_payload d fun i hi he => ?_
    obtain ⟨j, hj⟩ := hsub i hi
    exact findSlot_eq_none_iff.mp (Option.not_isSome_iff_eq_none.mp hs) j (hj.trans he)

theorem StoreInv.read {s : Store} (h : StoreInv enc s) (i : Fin NumElements) :
    StoreInv enc (s.read enc i) := by
  obtain ⟨hb, ht, hl, hn⟩ := @Store.read_gpf enc s i
  have hd : (s.read enc i).diskHeader = s.diskHeader := by
    simp only [Store.diskHeader, Store.read_file, hn]
  refine ⟨h.mem.congr hb ht hl, hd ▸ h.disk, ?_, h.header, h.size, ?_⟩ <;>
    simp only [hd, hb, ht, hl, Store.read_file]
  · exact h.diskSub
  · exact h.ends

/-- Reopening a file that holds a whole header reads the header on disk. -/
theorem Store.step_reopen {s : Store} (h : 3 * BufSize ≤ s.file.length) :
    s.step enc .reopen = { s with gpf := s.diskHeader, readSlots := [] } := by
  simp only [Store.step, newGPFile_some h]; rfl

theorem StoreInv.reopen {s : Store} (h : StoreInv enc s) : StoreInv enc (s.step enc .reopen) := by
  rw [Store.step_reopen h.header]
  refine ⟨h.disk, h.disk, fun _ _ => ⟨rfl, rfl, rfl⟩, h.header, h.size, fun i hi => ?_⟩
  obtain ⟨h1, h2, -⟩ := h.diskSub i hi
  exact h2 ▸ h.ends i (h1 ▸ hi)

/-- The store after a write, from what the call returned. -/
theorem Store.step_write (s : Store) {env : WriteEnv} {t : BitVec 64} {d : GoBytes} {g : GPFile}
    {file' : List UInt8} {r : Except GoError Unit}
    (hw : writeTimedBlock enc env s.gpf s.file t d = (g, file', r)) :
    s.step enc (.write env t d) = ⟨file', g,
      if (s.gpf.timedSlot t).isSome then s.payload else Function.update s.payload t d.bytes,
      s.readSlots⟩ := by
  simp only [Store.step, hw]

/-- An untorn header write leaves either the whole new header on disk or the old one. -/
theorem header_written_or_not {env : WriteEnv} (hu : env.Untorn) {x : List UInt8} {g : GPFile}
    {k : Nat} (hk : k = 0 ∨ env.headerStops = some k) :
    overwrite x (g.wBuf.take k) = overwrite x g.wBuf ∨ overwrite x (g.wBuf.take k) = x := by
  rcases hk with rfl | hk
  · exact .inr (by simp [overwrite])
  rcases hu k hk with rfl | hk
  · exact .inr (by simp [overwrite])
  · exact .inl (by rw [List.take_of_length_le (by simpa using hk)])

theorem StoreInv.write {s : Store} (h : StoreInv enc s) {env : WriteEnv} (hu : env.Untorn)
    (t : BitVec 64) (d : GoBytes) : StoreInv enc (s.step enc (.write env t d)) := by
  rcases hw : writeTimedBlock enc env s.gpf s.file t d with ⟨g, file', r⟩
  rw [s.step_write hw]
  rcases writeTimedBlock_cases hw h.size with
    ⟨rfl, ⟨k, rfl⟩, hsize, -⟩ | ⟨newPos, nfb, hscan, -, hfit, rfl, hres⟩
  · -- the call failed before touching the header
    have hd : openedHeader s.gpf.filename (s.file ++ (enc.compress d.bytes).take k) = s.diskHeader :=
      openedHeader_append _ h.header
    refine ⟨h.mem.update_unheld _ fun i _ => ⟨i, rfl⟩, ?_, ?_, ?_, hsize, ?_⟩ <;>
      simp only [Store.diskHeader, hd]
    · exact h.disk.update_unheld _ fun i hi => ⟨i, (h.diskSub i hi).1.symm⟩
    · exact h.diskSub
    · simp only [List.length_append]; have := h.header; omega
    · exact fun i hi => (h.ends i hi).trans (by simp)
  · -- the block was appended and the header records it
    have hfree := h.mem.unheld_of_scan_free hscan
    have hnone : (s.gpf.timedSlot t).isSome = false := by
      simp only [GPFile.timedSlot, findSlot_eq_none_iff.mpr hfree, Option.isSome_none]
    have hmem := h.mem.record hscan h.header h.ends hfit d.fits
    clear hw
    have hfile' : file' = overwrite (s.file ++ enc.compress d.bytes)
        (s.gpf.record newPos nfb t (enc.compress d.bytes).length d.bytes.length).wBuf ∨
        file' = s.file ++ enc.compress d.bytes := by
      rcases hres with ⟨-, -, hf⟩ | ⟨-, k, hk, hf⟩
      · exact .inl hf
      · rw [hf]; exact header_written_or_not hu hk
    have hlen : file'.length = s.file.length + (enc.compress d.bytes).length := by
      have := h.header
      rcases hfile' with hf | hf <;> rw [hf]
      · rw [length_overwrite] <;> simp; omega
      · simp
    obtain ⟨hs, hnew⟩ := scanSlots_free_start hscan h.header h.ends hfit
    obtain ⟨h0, -, -, rfl⟩ := scanSlots_free hscan
    set g := s.gpf.record newPos (blockStart s.gpf.blocks newPos) t (enc.compress d.bytes).length
      d.bytes.length with hg
    have hmem' : HeaderInv enc (if (s.gpf.timedSlot t).isSome then s.payload
        else Function.update s.payload t d.bytes) g := by simpa only [hnone] using hmem
    have hd : ((openedHeader s.gpf.filename file').blocks = g.blocks ∧
        (openedHeader s.gpf.filename file').timestamps = g.timestamps ∧
        (openedHeader s.gpf.filename file').lengths = g.lengths) ∨
        openedHeader s.gpf.filename file' = s.diskHeader := by
      rcases hfile' with hf | hf <;> rw [hf]
      · exact .inl (openedHeader_overwrite_wBuf g)
      · exact .inr (openedHeader_append _ h.header)
    refine ⟨hmem', ?_, ?_, by rw [hlen]; have := h.header; omega, by rw [hlen]; exact hfit,
      fun i hi => ?_⟩ <;> simp only [Store.diskHeader, hg, GPFile.record_filename]
    · -- the header on disk: the new one, or the old one
      rcases hd with ⟨hb, ht, hl⟩ | hd
      · exact hmem'.congr hb ht hl
      · rw [hd]
        exact h.disk.update_unheld _ fun i hi => ⟨i, (h.diskSub i hi).1.symm⟩
    · -- the header on disk is the one in memory restricted to some slots
      rcases hd with ⟨hb, ht, hl⟩ | hd
      · exact fun i _ => by rw [hb, ht, hl]; exact ⟨rfl, rfl, rfl⟩
      · rw [hd]
        intro i hi
        obtain ⟨h1, h2, h3⟩ := h.diskSub i hi
        have hne : i ≠ newPos := fun e => h1 ▸ hi <| e ▸ h0
        simp only [GPFile.record_blocks, GPFile.record_timestamps, GPFile.record_lengths,
          Function.update_noteq hne, h1, h2, h3, and_self]
    · -- every used block ends inside the file
      rw [hlen]
      by_cases hin : i = newPos
      · subst hin
        simp only [GPFile.record_blocks, Function.update_same, hnew]
        omega
      · simp only [hg, GPFile.record_blocks, GPFile.record_timestamps, Function.update_noteq hin] at hi ⊢
        have := h.ends i hi
        omega

/-- **Every operation but a torn header write keeps the store invariant.** -/
theorem StoreInv.step {s : Store} (h : StoreInv enc s) {o : Op} (ho : untorn s o) :
    StoreInv enc (s.step enc o) := by
  cases o with
  | write env t d => exact h.write ho t d
  | read i => exact h.read i
  | readTimed t =>
    simp only [Store.step]
    split
    · exact h.read _
    · exact h
  | reopen => exact h.reopen

theorem storeInv_of_reach {ops : List Op} {s : Store} (hs : Reach enc untorn ops s) :
    StoreInv enc s := by
  induction hs with
  | init h => exact .init h
  | step _ ho ih => exact ih.step ho

/-! ## Reachable headers -/

/-- **The header invariant holds along every history without a torn header write**, with its
consequences: the used blocks end in slot order after the header, strictly when a block has a
byte; the duplicate test is exact; `ReadBlock` never makes a negative buffer for a used slot. -/
theorem header_invariant_of_untorn_history {ops : List Op} {s : Store}
    (hs : Reach enc untorn ops s) :
    HeaderInv enc s.payload s.gpf ∧
    (∀ i j, i ≤ j → s.gpf.timestamps j ≠ 0 →
      3 * BufSize ≤ (s.gpf.blocks i).toNat ∧ (s.gpf.blocks i).toNat ≤ (s.gpf.blocks j).toNat ∧
      (i < j → enc.compress (s.payload (s.gpf.timestamps j)) ≠ [] →
        (s.gpf.blocks i).toNat < (s.gpf.blocks j).toNat)) ∧
    (∀ t, t ≠ 0 → ((∃ c, scanSlots s.gpf t = .duplicate c) ↔ ∃ i, s.gpf.timestamps i = t)) ∧
    (∀ i, s.gpf.timestamps i ≠ 0 → 0 ≤ (blockSpan s.gpf i).2.toInt ∧ 0 ≤ (s.gpf.lengths i).toInt) := by
  have h := (storeInv_of_reach hs).mem
  refine ⟨h, fun i j hij hj => ⟨?_, h.blocks_le hij hj, fun hlt hc => h.blocks_lt hlt hj hc⟩,
    fun t ht => h.scan_duplicate_iff ht, fun i hi => h.span_nonneg hi⟩
  have hi := h.downClosed i j hij hj
  exact (h.start i hi).trans (h.start_le_stop hi)

/-- The invariant after a successful write, an append cut short, a header that could not be
opened, a reopening, and a header write that failed before its first byte. -/
theorem header_invariant_after_failed_writes :
    let o₁ : Op := .write .ok 1 ⟨[7], by decide⟩
    let o₂ : Op := .write ⟨true, some 0, true, none⟩ 2 ⟨[8], by decide⟩
    let o₃ : Op := .write ⟨true, none, false, none⟩ 3 ⟨[9], by decide⟩
    let o₄ : Op := .write ⟨true, none, true, some 0⟩ 4 ⟨[5, 6], by decide⟩
    let s := (((((freshStore "p").step Encoder.raw o₁).step Encoder.raw o₂).step Encoder.raw o₃).step
      Encoder.raw .reopen).step Encoder.raw o₄
    Reach Encoder.raw untorn [o₁, o₂, o₃, .reopen, o₄] s ∧ HeaderInv Encoder.raw s.payload s.gpf := by
  intro o₁ o₂ o₃ o₄ s
  have hs : Reach Encoder.raw untorn [o₁, o₂, o₃, .reopen, o₄] s :=
    .step (.step (.step (.step (.step (.fresh "p") nofun) nofun) nofun) trivial)
      fun _ h => .inl (Option.some.inj h).symm
  exact ⟨hs, (header_invariant_of_untorn_history hs).1⟩

end GoProbe
