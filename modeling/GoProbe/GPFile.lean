import GoProbe.Header

/-!
# The block file: `GPFile`

`pkg/goDB/GPFile.go`, one file per (interface, attribute, day): a 12288-byte header of three
slot arrays, then the compressed blocks back to back. The model keeps what the code keeps:

* the `GPFile` value: the three header arrays, the file name, the read position of the
  handle `NewGPFile` leaves open in `curFile`, and `lastSeekPos`;
* the file on disk as its byte list. `curFile` and the write handles are descriptors of that
  one file, so every read sees what was appended before it.

The encoder (`lz4.New()`) is not in the source: it is a parameter `Encoder`, given by what
`Compress` writes and what `Decompress` leaves in its output buffer. `Decompress` reads its
input with one `Read` of `len(in)` bytes from the handle and returns how many it got.

The operating system is the environment. `NewGPFile` meets what `os.Stat`, `os.Open` and
`Read` report at its path (`Disk`): no file, one it may not open, or an open entry whose
reads may fail with an error other than `io.EOF`. Each system call of `WriteTimedBlock` may
fail, and a failing write may have written a prefix of its bytes first (`WriteEnv`); the kernel
also refuses to grow a file past `maxFileSize` (`EFBIG`). A crash inside `WriteTimedBlock`
leaves the disk as one of these failures does, so crash recovery is a failing write followed
by a reopening.
-/

namespace GoProbe

/-- A Go `error` as the block file meets it. -/
inductive GoError where
  /-- an error built by the code (`errors.New`), with its text -/
  | error (msg : String)
  /-- an error returned by the operating system -/
  | os
  /-- a run-time panic: `make` with a negative length -/
  | panic
  deriving DecidableEq, Repr

/-- A Go `[]byte`: its length fits Go's `int`. -/
structure GoBytes where
  bytes : List UInt8
  fits : bytes.length < 2 ^ 63

/-- The data encoder of a `GPFile` (not in the source). -/
structure Encoder where
  /-- the bytes `Compress(data, w)` writes to `w` -/
  compress : List UInt8 → List UInt8
  /-- the bytes `Decompress(in, out, src)` writes at the start of `out`, from the `in` bytes
  and `len(out)` -/
  decompress : List UInt8 → Nat → List UInt8

/-- The encoder law the round trip needs: decompressing exactly what `Compress` wrote for `d`
into a buffer of `len(d)` bytes gives `d` back. -/
def Encoder.Lawful (enc : Encoder) : Prop :=
  ∀ d : List UInt8, enc.decompress (enc.compress d) d.length = d

/-- The identity encoder: blocks are stored as they are. -/
def Encoder.raw : Encoder := ⟨id, fun b _ => b⟩

theorem Encoder.raw_lawful : Encoder.raw.Lawful := fun _ => rfl

/-- `GPFile`. `curFile` is the position of the read handle `NewGPFile` opens and keeps (so
`ReadBlock`'s `curFile == nil` branch never runs); `wBuf` is rewritten whole before each
use and is not state. -/
structure GPFile where
  blocks : Slots
  timestamps : Slots
  lengths : Slots
  filename : String
  curFile : Nat
  lastSeekPos : BitVec 64

/-- The largest file the kernel lets a write produce (`off_t` is signed 64-bit). -/
def maxFileSize : Nat := 2 ^ 63 - 1

/-- `BufSize*3`, where the first block starts. -/
def headerEnd : BitVec 64 := BitVec.ofNat 64 (3 * BufSize)

/-- Slot `i - 1`, for `i ≠ 0`. -/
def prevSlot (i : Fin NumElements) : Fin NumElements := ⟨i.val - 1, by omega⟩

/-- A slot whose three values are zero is unused. -/
def GPFile.isEmpty (f : GPFile) (i : Fin NumElements) : Prop :=
  f.timestamps i = 0 ∧ f.blocks i = 0 ∧ f.lengths i = 0

instance (f : GPFile) (i : Fin NumElements) : Decidable (f.isEmpty i) :=
  inferInstanceAs (Decidable (_ ∧ _ ∧ _))

/-! ## Offsets that are file positions

Every offset the header records is a position in a file of at most `maxFileSize` bytes, so it
is a nonnegative `int64` and the `int64` arithmetic on it is exact. -/

theorem toNat_ofNat64 {x : Nat} (h : x < 2 ^ 64) : (BitVec.ofNat 64 x).toNat = x := by
  rw [BitVec.toNat_ofNat, Nat.mod_eq_of_lt h]

theorem toInt_ofNat64 {x : Nat} (h : x < 2 ^ 63) : (BitVec.ofNat 64 x).toInt = x := by
  rw [BitVec.toInt_eq_toNat_cond, toNat_ofNat64 (by omega), if_pos (by omega)]

theorem ofNat64_inj {x y : Nat} (hx : x < 2 ^ 64) (hy : y < 2 ^ 64) :
    BitVec.ofNat 64 x = BitVec.ofNat 64 y ↔ x = y := by
  rw [BitVec.toNat_eq, toNat_ofNat64 hx, toNat_ofNat64 hy]

theorem ofNat_toNat64 (x : BitVec 64) : BitVec.ofNat 64 x.toNat = x :=
  BitVec.eq_of_toNat_eq (toNat_ofNat64 x.isLt)

/-! ## Opening -/

/-- What `NewGPFile` finds at its path, as `os.Stat`, `os.Open` and `Read` report it (the
operating system is not in the source). -/
inductive Disk where
  /-- `os.Stat` fails: nothing is there, and `os.Create` with its three header `Write`s makes
  the file, or one of them fails when `createFails` -/
  | absent (createFails : Bool)
  /-- `os.Stat` succeeds and `os.Open` fails, e.g. for want of permission -/
  | unopenable
  /-- `os.Open` opens an entry holding `file`. The header `Read` number `k` fails with an error
  other than `io.EOF` when `readFails = some k`, as the first one does on a directory
  (`EISDIR`). -/
  | opened (file : List UInt8) (readFails : Option (Fin 3))
  deriving DecidableEq, Repr

/-- `f.Read(buf)` at `pos` on a regular file: `io.EOF` at the end, else up to `n` bytes. -/
def readAt (file : List UInt8) (pos n : Nat) : Except GoError (List UInt8) :=
  if file.length ≤ pos then .error (.error "EOF") else .ok ((file.drop pos).take n)

/-- `NewGPFile`'s header `Read` number `k`, at `pos` of the entry it opened. -/
def readHeaderBuf (file : List UInt8) (readFails : Option (Fin 3)) (k : Fin 3) (pos : Nat) :
    Except GoError (List UInt8) :=
  if readFails = some k then .error .os else readAt file pos BufSize

/-- `NewGPFile(p)`: read the header of an existing file, or create the file with a zero
header. The file on disk afterwards is returned with the `GPFile`. -/
def newGPFile (p : String) (disk : Disk) : Except GoError (GPFile × List UInt8) :=
  match disk with
  | .absent createFails =>
    if createFails then .error .os else
    let zeros := List.replicate BufSize (0 : UInt8)
    .ok (⟨parseSlots zeros, parseSlots zeros, parseSlots zeros, p, 3 * BufSize, 0⟩,
      zeros ++ zeros ++ zeros)
  | .unopenable => .error .os
  | .opened file readFails => do
    let bufH ← readHeaderBuf file readFails 0 0
    let bufTS ← readHeaderBuf file readFails 1 bufH.length
    let bufLen ← readHeaderBuf file readFails 2 (bufH.length + bufTS.length)
    if bufH.length ≠ BufSize then throw (.error "Invalid header (blocks)")
    if bufTS.length ≠ BufSize then throw (.error "Invalid header (lookup table)")
    if bufLen.length ≠ BufSize then throw (.error "Invalid header (block lengths)")
    pure (⟨parseSlots bufH, parseSlots bufTS, parseSlots bufLen, p, 3 * BufSize, 0⟩, file)

/-! ## The slot loops -/

/-- The first slot from `i` on that satisfies `p`: the `for i < NumElements` loop that
`BlocksUsed`, `ReadTimedBlock` and `WriteTimedBlock` each run. -/
def findSlot (p : Fin NumElements → Prop) [DecidablePred p] (i : Nat) : Option (Fin NumElements) :=
  if h : i < NumElements then if p ⟨i, h⟩ then some ⟨i, h⟩ else findSlot p (i + 1) else none
termination_by NumElements - i

theorem findSlot_eq_some_iff_from (p : Fin NumElements → Prop) [DecidablePred p] (n : Nat)
    (i : Fin NumElements) :
    findSlot p n = some i ↔ n ≤ i.val ∧ p i ∧ ∀ j : Fin NumElements, n ≤ j.val → j < i → ¬ p j := by
  induction n using findSlot.induct p with
  | case1 n h hp =>
    rw [findSlot, dif_pos h, if_pos hp, Option.some.injEq, Fin.ext_iff]
    constructor
    · rintro rfl
      exact ⟨le_rfl, hp, fun j h1 h2 => absurd h2 (by rw [Fin.lt_def]; omega)⟩
    · rintro ⟨h1, h2, h3⟩
      by_contra hne
      exact h3 ⟨n, h⟩ le_rfl (by rw [Fin.lt_def]; simp only at hne ⊢; omega) hp
  | case2 n h hp ih =>
    rw [findSlot, dif_pos h, if_neg hp, ih]
    constructor
    · rintro ⟨h1, h2, h3⟩
      refine ⟨by omega, h2, fun j hj1 hj2 => ?_⟩
      rcases Nat.lt_or_ge n j with hl | hl
      · exact h3 j hl hj2
      · rwa [show j = ⟨n, h⟩ from Fin.ext (by simp only; omega)]
    · rintro ⟨h1, h2, h3⟩
      refine ⟨?_, h2, fun j hj1 hj2 => h3 j (by omega) hj2⟩
      by_contra hl
      rw [show i = ⟨n, h⟩ from Fin.ext (by simp only; omega)] at h2
      exact hp h2
  | case3 n h =>
    rw [findSlot, dif_neg h]
    simp only [reduceCtorEq, false_iff, not_and]
    exact fun h1 => absurd (lt_of_le_of_lt h1 i.isLt) h

/-- **The slot loop finds the first match.** -/
theorem findSlot_eq_some_iff {p : Fin NumElements → Prop} [DecidablePred p] {i : Fin NumElements} :
    findSlot p 0 = some i ↔ p i ∧ ∀ j, j < i → ¬ p j := by
  simp [findSlot_eq_some_iff_from]

theorem findSlot_eq_none_iff_from (p : Fin NumElements → Prop) [DecidablePred p] (n : Nat) :
    findSlot p n = none ↔ ∀ j : Fin NumElements, n ≤ j.val → ¬ p j := by
  induction n using findSlot.induct p with
  | case1 n h hp =>
    rw [findSlot, dif_pos h, if_pos hp]
    simp only [reduceCtorEq, false_iff, not_forall, not_not]
    exact ⟨⟨n, h⟩, le_rfl, hp⟩
  | case2 n h hp ih =>
    rw [findSlot, dif_pos h, if_neg hp, ih]
    refine ⟨fun h' j hj => ?_, fun h' j hj => h' j (by omega)⟩
    rcases Nat.lt_or_ge n j with hl | hl
    · exact h' j hl
    · rwa [show j = ⟨n, h⟩ from Fin.ext (by simp only; omega)]
  | case3 n h =>
    rw [findSlot, dif_neg h]
    simp only [true_iff]
    exact fun j hj => absurd (lt_of_le_of_lt hj j.isLt) h

/-- The slot loop finds nothing exactly when no slot matches. -/
theorem findSlot_eq_none_iff {p : Fin NumElements → Prop} [DecidablePred p] :
    findSlot p 0 = none ↔ ∀ j, ¬ p j := by
  simp [findSlot_eq_none_iff_from]

/-! ## Reading -/

/-- `BlocksUsed`: the first unused slot. -/
def blocksUsed (f : GPFile) : Except GoError Nat :=
  match findSlot f.isEmpty 0 with
  | some i => .ok i
  | none => .error (.error "Could not retrieve number of allocated blocks")

/-- Where block `i` starts: the end of block `i - 1`, or the end of the header. It is
`ReadBlock`'s `seekPos` and `WriteTimedBlock`'s `nextFreeBlock`. -/
def blockStart (blocks : Slots) (i : Fin NumElements) : BitVec 64 :=
  if i.val ≠ 0 then blocks (prevSlot i) else headerEnd

/-- Where `ReadBlock` starts reading block `block`, and how many bytes it reads. -/
def blockSpan (f : GPFile) (block : Fin NumElements) : BitVec 64 × BitVec 64 :=
  (blockStart f.blocks block, f.blocks block - blockStart f.blocks block)

/-- `buf := make([]byte, n)` once `Decompress` has written `out` at its start: the first `n`
bytes of `out`, then the zeros `make` left. -/
def fillBuffer (n : Nat) (out : List UInt8) : List UInt8 := (out ++ List.replicate n 0).take n

@[simp] theorem length_fillBuffer (n : Nat) (out : List UInt8) : (fillBuffer n out).length = n := by
  simp [fillBuffer]

/-- A buffer of `len(d)` bytes into which `d` was decompressed holds `d`. -/
@[simp] theorem fillBuffer_length (d : List UInt8) : fillBuffer d.length d = d := by
  simp [fillBuffer]

/-- `ReadBlock(block)`: the `GPFile` afterwards (read position, `lastSeekPos`) and the result,
the `lengths[block]` bytes of `buf`. The seek is skipped when `seekPos` equals `lastSeekPos`. -/
def readBlock (enc : Encoder) (f : GPFile) (file : List UInt8) (block : Fin NumElements) :
    GPFile × Except GoError (List UInt8) :=
  if f.isEmpty block then (f, .error (.error ("Block " ++ toString block.val ++ " is empty")))
  else
    let (seekPos, readLen) := blockSpan f block
    if seekPos ≠ f.lastSeekPos ∧ seekPos.toInt < 0 then (f, .error .os) else
    let f₁ := if seekPos ≠ f.lastSeekPos
      then { f with curFile := seekPos.toNat, lastSeekPos := seekPos } else f
    if readLen.toInt < 0 ∨ (f.lengths block).toInt < 0 then (f₁, .error .panic) else
    let bufComp := (file.drop f₁.curFile).take readLen.toNat
    let f₂ := { f₁ with curFile := f₁.curFile + bufComp.length }
    if BitVec.ofNat 64 bufComp.length ≠ readLen then
      (f₂, .error (.error "Incorrect number of bytes read for decompression"))
    else (f₂, .ok (fillBuffer (f.lengths block).toNat
      (enc.decompress bufComp (f.lengths block).toNat)))

/-- The slot `ReadTimedBlock` reads for `timestamp`: the first one holding it. -/
def GPFile.timedSlot (f : GPFile) (timestamp : BitVec 64) : Option (Fin NumElements) :=
  findSlot (fun i => f.timestamps i = timestamp) 0

/-- `ReadTimedBlock(timestamp)`. -/
def readTimedBlock (enc : Encoder) (f : GPFile) (file : List UInt8) (timestamp : BitVec 64) :
    GPFile × Except GoError (List UInt8) :=
  match f.timedSlot timestamp with
  | some i => readBlock enc f file i
  | none => (f, .error (.error ("Timestamp " ++ toString timestamp.toInt ++ " not found")))

/-! ## Writing -/

/-- What the operating system does with the system calls of one `WriteTimedBlock`. -/
structure WriteEnv where
  /-- `os.OpenFile(O_APPEND|O_WRONLY)` succeeds -/
  appendOpens : Bool
  /-- `some k`: `Compress` fails after the first `k` of its bytes reached the file -/
  compressStops : Option Nat
  /-- `os.OpenFile(O_WRONLY)` for the header succeeds -/
  headerOpens : Bool
  /-- `some k`: the header `Write` fails after its first `k` bytes reached the file -/
  headerStops : Option Nat
  deriving DecidableEq, Repr

/-- Every system call succeeds. -/
def WriteEnv.ok : WriteEnv := ⟨true, none, true, none⟩

/-- An `O_APPEND` write of `out`, cut after `stop` bytes by the environment or at
`maxFileSize` by the kernel: the file afterwards and whether the write succeeded. -/
def appendWrite (file out : List UInt8) (stop : Option Nat) : List UInt8 × Bool :=
  match stop with
  | some k => (file ++ out.take (min k (maxFileSize - file.length)), false)
  | none =>
    if file.length + out.length ≤ maxFileSize then (file ++ out, true)
    else (file ++ out.take (maxFileSize - file.length), false)

/-- A write of `buf` at offset 0 through a handle opened without `O_TRUNC`. -/
def overwrite (file buf : List UInt8) : List UInt8 := buf ++ file.drop buf.length

/-- Where `WriteTimedBlock`'s slot loop stops. -/
inductive SlotScan where
  /-- a slot already holds the timestamp -/
  | duplicate (curTstamp : BitVec 64)
  /-- the first slot with timestamp 0, and the offset the new block starts at -/
  | free (newPos : Fin NumElements) (nextFreeBlock : BitVec 64)
  /-- the loop ran to `NumElements` -/
  | exhausted

/-- The slot loop of `WriteTimedBlock`: it stops at the first slot whose timestamp is
`timestamp` or zero, and the equality test comes first. -/
def scanSlots (f : GPFile) (timestamp : BitVec 64) : SlotScan :=
  match findSlot (fun i => f.timestamps i = timestamp ∨ f.timestamps i = 0) 0 with
  | some newPos =>
    if f.timestamps newPos = timestamp then .duplicate (f.timestamps newPos)
    else .free newPos (blockStart f.blocks newPos)
  | none => .exhausted

/-- The header after `WriteTimedBlock` records a block of `nWrite` compressed bytes and
`len(data)` bytes of payload in slot `newPos`. -/
def GPFile.record (f : GPFile) (newPos : Fin NumElements)
    (nextFreeBlock timestamp : BitVec 64) (nWrite dataLen : Nat) : GPFile :=
  { f with
    blocks := Function.update f.blocks newPos (nextFreeBlock + BitVec.ofNat 64 nWrite)
    timestamps := Function.update f.timestamps newPos timestamp
    lengths := Function.update f.lengths newPos (BitVec.ofNat 64 dataLen) }

section RecordLemmas

variable (f : GPFile) (newPos : Fin NumElements) (nextFreeBlock timestamp : BitVec 64)
  (nWrite dataLen : Nat)

@[simp] theorem GPFile.record_blocks :
    (f.record newPos nextFreeBlock timestamp nWrite dataLen).blocks =
      Function.update f.blocks newPos (nextFreeBlock + BitVec.ofNat 64 nWrite) := rfl
@[simp] theorem GPFile.record_timestamps :
    (f.record newPos nextFreeBlock timestamp nWrite dataLen).timestamps =
      Function.update f.timestamps newPos timestamp := rfl
@[simp] theorem GPFile.record_lengths :
    (f.record newPos nextFreeBlock timestamp nWrite dataLen).lengths =
      Function.update f.lengths newPos (BitVec.ofNat 64 dataLen) := rfl
@[simp] theorem GPFile.record_filename :
    (f.record newPos nextFreeBlock timestamp nWrite dataLen).filename = f.filename := rfl
@[simp] theorem GPFile.record_curFile :
    (f.record newPos nextFreeBlock timestamp nWrite dataLen).curFile = f.curFile := rfl
@[simp] theorem GPFile.record_lastSeekPos :
    (f.record newPos nextFreeBlock timestamp nWrite dataLen).lastSeekPos = f.lastSeekPos := rfl

end RecordLemmas

/-- The header buffer `wBuf` of a `GPFile`. -/
def GPFile.wBuf (f : GPFile) : List UInt8 := serializeHeader f.blocks f.timestamps f.lengths

/-- `WriteTimedBlock(timestamp, data)` under the environment `env`: the `GPFile` and the
file afterwards, and the result. -/
def writeTimedBlock (enc : Encoder) (env : WriteEnv) (f : GPFile) (file : List UInt8)
    (timestamp : BitVec 64) (data : GoBytes) : GPFile × List UInt8 × Except GoError Unit :=
  match scanSlots f timestamp with
  | .duplicate curTstamp =>
    (f, file, .error (.error ("Timestamp" ++ toString curTstamp.toInt ++ " already exists in file "
      ++ f.filename)))
  | .exhausted => (f, file, .error (.error "File is full"))
  | .free newPos nextFreeBlock =>
    if nextFreeBlock = -1 then (f, file, .error (.error "File is full"))
    else if !env.appendOpens then (f, file, .error .os)
    else
      let out := enc.compress data.bytes
      match appendWrite file out env.compressStops with
      | (file₁, false) => (f, file₁, .error .os)
      | (file₁, true) =>
        let f₁ := f.record newPos nextFreeBlock timestamp out.length data.bytes.length
        if !env.headerOpens then (f₁, file₁, .error .os)
        else match env.headerStops with
          | some k => (f₁, overwrite file₁ (f₁.wBuf.take k), .error .os)
          | none => (f₁, overwrite file₁ f₁.wBuf, .ok ())

/-! ## What one call can do -/

/-- **`ReadBlock` on a used slot whose span is a pair of file positions.** It seeks to `s`
unless `lastSeekPos` already is `s`, reads up to `c` bytes from where the handle is, and
decompresses them into its buffer of `lengths[block]` bytes when it got all `c`. -/
theorem readBlock_of_span {enc : Encoder} {f : GPFile} {file : List UInt8}
    {block : Fin NumElements} {s c : Nat} (hne : ¬ f.isEmpty block)
    (hspan : blockSpan f block = (BitVec.ofNat 64 s, BitVec.ofNat 64 c))
    (hs : s < 2 ^ 63) (hc : c < 2 ^ 63) (hl : 0 ≤ (f.lengths block).toInt) :
    readBlock enc f file block =
      let pos := if BitVec.ofNat 64 s = f.lastSeekPos then f.curFile else s
      let bufComp := (file.drop pos).take c
      ({ f with curFile := pos + bufComp.length, lastSeekPos := BitVec.ofNat 64 s },
        if bufComp.length = c then
          .ok (fillBuffer (f.lengths block).toNat (enc.decompress bufComp (f.lengths block).toNat))
        else .error (.error "Incorrect number of bytes read for decompression")) := by
  have key : ∀ l : List UInt8,
      BitVec.ofNat 64 (l.take c).length = BitVec.ofNat 64 c ↔ (l.take c).length = c :=
    fun l => ofNat64_inj (by have := List.length_take_le c l; omega) (by omega)
  unfold readBlock
  rw [if_neg hne, hspan]
  dsimp only
  rw [if_neg (by rw [toInt_ofNat64 hs]; omega), if_neg (by rw [toInt_ofNat64 hc]; omega)]
  by_cases hL : BitVec.ofNat 64 s = f.lastSeekPos
  · simp only [hL, ne_eq, not_true_eq_false, if_false, if_true, toNat_ofNat64 (by omega : c < 2 ^ 64),
      key]
    split_ifs <;> rfl
  · simp only [hL, ne_eq, not_false_eq_true, if_true, if_false, toNat_ofNat64 (by omega : s < 2 ^ 64),
      toNat_ofNat64 (by omega : c < 2 ^ 64), key]
    split_ifs <;> rfl

theorem appendWrite_true {file out file₁ : List UInt8} {stop : Option Nat}
    (h : appendWrite file out stop = (file₁, true)) :
    file₁ = file ++ out ∧ file.length + out.length ≤ maxFileSize := by
  unfold appendWrite at h
  split at h
  · cases h
  · split at h <;> simp_all

theorem appendWrite_false {file out file₁ : List UInt8} {stop : Option Nat}
    (h : appendWrite file out stop = (file₁, false)) (hfile : file.length ≤ maxFileSize) :
    ∃ k, file₁ = file ++ out.take k ∧ file₁.length ≤ maxFileSize := by
  unfold appendWrite at h
  split at h
  · refine ⟨_, (Prod.mk.inj h).1.symm, ?_⟩
    rw [← (Prod.mk.inj h).1]; simp; omega
  · split at h
    · cases h
    · refine ⟨_, (Prod.mk.inj h).1.symm, ?_⟩
      rw [← (Prod.mk.inj h).1]; simp; omega

/-- **The slot loop on a prefix-shaped header.** If the slots before `i` hold timestamps other
than `t` and `0`, and slot `i` holds `0 ≠ t`, the loop picks slot `i`. -/
theorem scanSlots_eq_free {f : GPFile} {t : BitVec 64} {i : Fin NumElements}
    (hi : f.timestamps i = 0) (ht : t ≠ 0)
    (hbefore : ∀ j, j < i → f.timestamps j ≠ t ∧ f.timestamps j ≠ 0) :
    scanSlots f t = .free i (blockStart f.blocks i) := by
  have hfind : findSlot (fun j => f.timestamps j = t ∨ f.timestamps j = 0) 0 = some i :=
    findSlot_eq_some_iff.mpr ⟨.inr hi, fun j hj h => (hbefore j hj).elim
      (fun h1 h2 => h.elim h1 h2)⟩
  simp only [scanSlots, hfind, hi, Ne.symm ht, if_false]

/-- What the slot loop's `free` answer says about the slots it passed. -/
theorem scanSlots_free {f : GPFile} {t nextFreeBlock : BitVec 64} {newPos : Fin NumElements}
    (h : scanSlots f t = .free newPos nextFreeBlock) :
    f.timestamps newPos = 0 ∧ t ≠ 0 ∧ (∀ j, j < newPos → f.timestamps j ≠ t ∧ f.timestamps j ≠ 0) ∧
      nextFreeBlock = blockStart f.blocks newPos := by
  unfold scanSlots at h
  split at h
  · rename_i i hi
    obtain ⟨h1, h2⟩ := findSlot_eq_some_iff.mp hi
    split_ifs at h with h3
    cases h
    exact ⟨h1.resolve_left h3, fun ht => h3 ((h1.resolve_left h3).trans ht.symm),
      fun j hj => not_or.mp (h2 j hj), rfl⟩
  · cases h

/-- The slot loop reports a duplicate only for a timestamp some slot holds. -/
theorem scanSlots_duplicate {f : GPFile} {t c : BitVec 64} (h : scanSlots f t = .duplicate c) :
    ∃ i, f.timestamps i = t := by
  unfold scanSlots at h
  split at h
  · rename_i i _
    split_ifs at h with h3
    exact ⟨i, h3⟩
  · cases h

/-- Once a slot records the timestamp, the slot loop stops there and reports a duplicate. -/
theorem scanSlots_record {f : GPFile} {t nextFreeBlock : BitVec 64} {newPos : Fin NumElements}
    (hscan : scanSlots f t = .free newPos nextFreeBlock) (nWrite dataLen : Nat) :
    scanSlots (f.record newPos nextFreeBlock t nWrite dataLen) t = .duplicate t := by
  obtain ⟨-, -, hbefore, -⟩ := scanSlots_free hscan
  have hfind : findSlot (fun j => (f.record newPos nextFreeBlock t nWrite dataLen).timestamps j = t ∨
      (f.record newPos nextFreeBlock t nWrite dataLen).timestamps j = 0) 0 = some newPos :=
    findSlot_eq_some_iff.mpr ⟨.inl (by simp), fun j hj => by
      rw [GPFile.record_timestamps, Function.update_noteq (ne_of_lt hj)]
      exact not_or.mpr (hbefore j hj)⟩
  unfold scanSlots
  rw [hfind]
  simp

/-- **What `WriteTimedBlock` can do.** Either the header is unchanged and at most a prefix of
the compressed block was appended (and the call failed), or the block was appended whole, the
header records it in the slot the loop chose, and a prefix of the new header was written over
the old one: all of it exactly when the call succeeds. -/
theorem writeTimedBlock_cases {enc : Encoder} {env : WriteEnv} {f g : GPFile}
    {file file' : List UInt8} {t : BitVec 64} {d : GoBytes} {r : Except GoError Unit}
    (h : writeTimedBlock enc env f file t d = (g, file', r)) (hfile : file.length ≤ maxFileSize) :
    (g = f ∧ (∃ k, file' = file ++ (enc.compress d.bytes).take k) ∧ file'.length ≤ maxFileSize ∧
      r ≠ .ok ()) ∨
    (∃ newPos nextFreeBlock, scanSlots f t = .free newPos nextFreeBlock ∧ nextFreeBlock ≠ -1 ∧
      file.length + (enc.compress d.bytes).length ≤ maxFileSize ∧
      g = f.record newPos nextFreeBlock t (enc.compress d.bytes).length d.bytes.length ∧
      ((r = .ok () ∧ env.headerStops = none ∧ file' = overwrite (file ++ enc.compress d.bytes) g.wBuf) ∨
       (r = .error .os ∧ ∃ k, (k = 0 ∨ env.headerStops = some k) ∧
          file' = overwrite (file ++ enc.compress d.bytes) (g.wBuf.take k)))) := by
  have rejected : ∀ k e, (file ++ (enc.compress d.bytes).take k).length ≤ maxFileSize →
      (f, file ++ (enc.compress d.bytes).take k, Except.error e) = (g, file', r) →
      g = f ∧ (∃ k, file' = file ++ (enc.compress d.bytes).take k) ∧ file'.length ≤ maxFileSize ∧
        r ≠ .ok () := by
    intro k e hk he
    simp only [Prod.mk.injEq] at he
    obtain ⟨rfl, rfl, rfl⟩ := he
    exact ⟨rfl, ⟨k, rfl⟩, hk, by simp⟩
  have untouched : file = file ++ (enc.compress d.bytes).take 0 := by simp
  unfold writeTimedBlock at h
  split at h
  · exact .inl (rejected 0 _ (by simpa using hfile) (untouched ▸ h))
  · exact .inl (rejected 0 _ (by simpa using hfile) (untouched ▸ h))
  · rename_i newPos nfb hscan
    by_cases h1 : nfb = -1
    · rw [if_pos h1] at h
      exact .inl (rejected 0 _ (by simpa using hfile) (untouched ▸ h))
    by_cases h2 : env.appendOpens = false
    · rw [if_neg h1, if_pos (by simp [h2])] at h
      exact .inl (rejected 0 _ (by simpa using hfile) (untouched ▸ h))
    rw [if_neg h1, if_neg (by simpa using h2)] at h
    dsimp only at h
    rcases happ : appendWrite file (enc.compress d.bytes) env.compressStops with ⟨file₁, _ | _⟩ <;>
      rw [happ] at h
    · obtain ⟨k, rfl, hk⟩ := appendWrite_false happ hfile
      exact .inl (rejected k _ hk h)
    · obtain ⟨rfl, hfit⟩ := appendWrite_true happ
      dsimp only at h
      refine .inr ⟨newPos, nfb, hscan, h1, hfit, ?_⟩
      by_cases h3 : env.headerOpens = false
      · rw [if_pos (by simp [h3])] at h
        simp only [Prod.mk.injEq] at h
        obtain ⟨rfl, rfl, rfl⟩ := h
        exact ⟨rfl, .inr ⟨rfl, 0, .inl rfl, by simp [overwrite]⟩⟩
      rw [if_neg (by simpa using h3)] at h
      split at h <;> simp only [Prod.mk.injEq] at h <;> obtain ⟨rfl, rfl, rfl⟩ := h
      · exact ⟨rfl, .inr ⟨rfl, _, .inr ‹_›, rfl⟩⟩
      · exact ⟨rfl, .inl ⟨rfl, ‹_›, rfl⟩⟩

/-- **`WriteTimedBlock` past a whole append.** Once the block is appended, the header in memory
records it, and only the header write is left. -/
theorem writeTimedBlock_of_appended {enc : Encoder} {env : WriteEnv} {f : GPFile}
    {file : List UInt8} {t nextFreeBlock : BitVec 64} {d : GoBytes} {newPos : Fin NumElements}
    (hscan : scanSlots f t = .free newPos nextFreeBlock) (hnfb : nextFreeBlock ≠ -1)
    (hopen : env.appendOpens = true) (hcomp : env.compressStops = none)
    (hfit : file.length + (enc.compress d.bytes).length ≤ maxFileSize) :
    writeTimedBlock enc env f file t d =
      let g := f.record newPos nextFreeBlock t (enc.compress d.bytes).length d.bytes.length
      if !env.headerOpens then (g, file ++ enc.compress d.bytes, .error .os)
      else match env.headerStops with
        | some k => (g, overwrite (file ++ enc.compress d.bytes) (g.wBuf.take k), .error .os)
        | none => (g, overwrite (file ++ enc.compress d.bytes) g.wBuf, .ok ()) := by
  simp only [writeTimedBlock, hscan, if_neg hnfb, hopen, appendWrite, hcomp, if_pos hfit]
  rfl

/-- `WriteTimedBlock` whose append stops after `k` bytes: the header is left alone. -/
theorem writeTimedBlock_of_append_stops {enc : Encoder} {env : WriteEnv} {f : GPFile}
    {file : List UInt8} {t nextFreeBlock : BitVec 64} {d : GoBytes} {newPos : Fin NumElements}
    {k : Nat} (hscan : scanSlots f t = .free newPos nextFreeBlock) (hnfb : nextFreeBlock ≠ -1)
    (hopen : env.appendOpens = true) (hcomp : env.compressStops = some k) :
    writeTimedBlock enc env f file t d =
      (f, file ++ (enc.compress d.bytes).take (min k (maxFileSize - file.length)), .error .os) := by
  simp only [writeTimedBlock, hscan, if_neg hnfb, hopen, appendWrite, hcomp]
  rfl

/-- **When `WriteTimedBlock` returns nil**, the block was appended whole and the whole new
header was written. -/
theorem writeTimedBlock_eq_ok {enc : Encoder} {env : WriteEnv} {f g : GPFile}
    {file file' : List UInt8} {t : BitVec 64} {d : GoBytes}
    (h : writeTimedBlock enc env f file t d = (g, file', .ok ())) (hfile : file.length ≤ maxFileSize) :
    ∃ newPos nextFreeBlock, scanSlots f t = .free newPos nextFreeBlock ∧
      file.length + (enc.compress d.bytes).length ≤ maxFileSize ∧
      g = f.record newPos nextFreeBlock t (enc.compress d.bytes).length d.bytes.length ∧
      env.headerStops = none ∧ file' = overwrite (file ++ enc.compress d.bytes) g.wBuf := by
  rcases writeTimedBlock_cases h hfile with ⟨-, -, -, hr⟩ | ⟨newPos, nfb, hscan, -, hfit, hg, hres⟩
  · exact absurd rfl hr
  rcases hres with ⟨-, hs, hf⟩ | ⟨hr, -⟩
  · exact ⟨newPos, nfb, hscan, hfit, hg, hs, hf⟩
  · cases hr

end GoProbe
