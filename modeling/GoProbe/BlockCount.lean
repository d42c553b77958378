import GoProbe.RoundTrip

/-!
# Counting blocks: `BlocksUsed`

`BlocksUsed` runs the slot loop for the first all-zero triple and returns its index; on a
header with no such slot it returns `-1` and an error. `WriteTimedBlock` finds the slot it
writes with its own loop, which stops at the first timestamp `0`. Over every history from a
fresh path whose writes all return nil, with any reads and reopenings between them:

* **the used slots are the first `n`** (`usedPrefix_of_reach`), where `n` is the number of
  writes, so that `n ≤ NumElements`; every used slot holds a timestamp some write stored
  (`written_of_used`);
* **`BlocksUsed` counts the writes** (`blocksUsed_counts_writes`) while a slot is free, and its
  all-zero test picks the slot `WriteTimedBlock`'s `timestamp == 0` test picks;
* **a full file has no count** (`blocksUsed_of_full_file`): after 512 writes `BlocksUsed`
  returns the error "Could not retrieve number of allocated blocks".
-/

namespace GoProbe

/-- Whether an operation is a `WriteTimedBlock` call. -/
def Op.isWrite : Op → Bool
  | .write _ _ _ => true
  | _ => false

/-- The used slots of a header are exactly the first `n`. -/
def UsedPrefix (f : GPFile) (n : Nat) : Prop :=
  ∀ i : Fin NumElements, f.timestamps i ≠ 0 ↔ i.val < n

variable {enc : Encoder}

/-! ## What a step does to the timestamps -/

/-- In a history whose writes succeed, a write stores its timestamp in the first unused slot,
and no other operation changes a timestamp. -/
theorem CleanInv.step_timestamps {s : Store} (h : CleanInv enc s) {o : Op}
    (ho : writesSucceed enc s o) :
    (∃ env t d newPos, o = .write env t d ∧ t ≠ 0 ∧ s.gpf.timestamps newPos = 0 ∧
      (∀ j, j < newPos → s.gpf.timestamps j ≠ 0) ∧
      (s.step enc o).gpf.timestamps = Function.update s.gpf.timestamps newPos t) ∨
    (o.isWrite = false ∧ (s.step enc o).gpf.timestamps = s.gpf.timestamps) := by
  cases o with
  | write env t d =>
    rcases hw : writeTimedBlock enc env s.gpf s.file t d with ⟨g, file', r⟩
    have hr : r = .ok () := by simpa [writesSucceed, hw] using ho
    subst hr
    obtain ⟨newPos, nfb, hscan, -, hg, -⟩ := writeTimedBlock_eq_ok hw h.store.size
    obtain ⟨h0, ht0, hbefore, -⟩ := scanSlots_free hscan
    refine .inl ⟨env, t, d, newPos, rfl, ht0, h0, fun j hj => (hbefore j hj).2, ?_⟩
    rw [s.step_write hw, hg, GPFile.record_timestamps]
  | read i => exact .inr ⟨rfl, (@Store.read_gpf enc s i).2.1⟩
  | readTimed t =>
    refine .inr ⟨rfl, ?_⟩
    simp only [Store.step]
    split
    · exact (@Store.read_gpf enc s _).2.1
    · rfl
  | reopen =>
    refine .inr ⟨rfl, ?_⟩
    rw [Store.step_reopen h.store.header]
    exact h.synced.2.1

/-! ## The used prefix -/

/-- A write into the first unused slot of a header whose used slots are the first `n` takes
slot `n`, and the used slots are then the first `n + 1`. -/
theorem UsedPrefix.update {ts : Slots} {n : Nat} (h : ∀ i : Fin NumElements, ts i ≠ 0 ↔ i.val < n)
    {newPos : Fin NumElements} {t : BitVec 64} (ht : t ≠ 0) (h0 : ts newPos = 0)
    (hbefore : ∀ j, j < newPos → ts j ≠ 0) :
    newPos.val = n ∧ ∀ i : Fin NumElements, Function.update ts newPos t i ≠ 0 ↔ i.val < n + 1 := by
  have hge : n ≤ newPos.val := Nat.le_of_not_lt fun hlt => (h newPos).mpr hlt h0
  have hle : newPos.val ≤ n := Nat.le_of_not_lt fun hlt =>
    lt_irrefl n ((h ⟨n, by omega⟩).mp (hbefore ⟨n, by omega⟩ (Fin.lt_def.mpr hlt)))
  have hpos : newPos.val = n := le_antisymm hle hge
  refine ⟨hpos, fun i => ?_⟩
  by_cases hi : i = newPos
  · subst hi
    rw [Function.update_same]
    exact ⟨fun _ => by omega, fun _ => ht⟩
  · have : i.val ≠ n := fun e => hi (Fin.ext (e.trans hpos.symm))
    rw [Function.update_noteq hi, h i]
    omega

/-- The step lemma: a write adds one used slot, which a free slot must exist for; no other
operation changes the used slots. -/
theorem UsedPrefix.step {s : Store} (h : CleanInv enc s) {n : Nat} (hu : UsedPrefix s.gpf n)
    {o : Op} (ho : writesSucceed enc s o) :
    UsedPrefix (s.step enc o).gpf (n + if o.isWrite then 1 else 0) ∧
      (o.isWrite = true → n < NumElements) := by
  rcases h.step_timestamps ho with ⟨env, t, d, newPos, rfl, ht, h0, hbefore, hts⟩ | ⟨hw, hts⟩
  · obtain ⟨hpos, hu'⟩ := UsedPrefix.update hu ht h0 hbefore
    exact ⟨fun i => by rw [hts]; exact hu' i, fun _ => hpos ▸ newPos.isLt⟩
  · simp only [hw, Bool.false_eq_true, if_false, Nat.add_zero, UsedPrefix, hts]
    exact ⟨hu, nofun⟩

/-- **The used slots are the first `n`**, where `n` is the number of writes of the history. -/
theorem usedPrefix_of_reach {ops : List Op} {s : Store} (hs : Reach enc (writesSucceed enc) ops s) :
    UsedPrefix s.gpf (ops.countP Op.isWrite) ∧ ops.countP Op.isWrite ≤ NumElements := by
  induction hs with
  | @init p g file h =>
    simp only [newGPFile, Bool.false_eq_true, if_false, Except.ok.injEq, Prod.mk.injEq] at h
    obtain ⟨rfl, rfl⟩ := h
    refine ⟨fun i => ?_, Nat.zero_le _⟩
    simp [parseSlots_zeros]
  | @step ops s o hs ho ih =>
    obtain ⟨hu, hn⟩ := UsedPrefix.step (cleanInv_of_reach hs) ih.1 ho
    rw [List.countP_append, List.countP_singleton]
    refine ⟨hu, ?_⟩
    cases hw : o.isWrite
    · simpa using ih.2
    · simpa using hn hw

/-- Every used slot holds a timestamp that some write of the history stored. -/
theorem written_of_used {ops : List Op} {s : Store} (hs : Reach enc (writesSucceed enc) ops s)
    {i : Fin NumElements} (hi : s.gpf.timestamps i ≠ 0) :
    ∃ env d, Op.write env (s.gpf.timestamps i) d ∈ ops := by
  induction hs generalizing i with
  | @init p g file h =>
    simp only [newGPFile, Bool.false_eq_true, if_false, Except.ok.injEq, Prod.mk.injEq] at h
    obtain ⟨rfl, rfl⟩ := h
    simp [parseSlots_zeros] at hi
  | @step ops s o hs ho ih =>
    have hmem : ∀ {t}, (∃ env d, Op.write env t d ∈ ops) →
        ∃ env d, Op.write env t d ∈ ops ++ [o] :=
      fun ⟨env, d, hm⟩ => ⟨env, d, List.mem_append_left _ hm⟩
    rcases (cleanInv_of_reach hs).step_timestamps ho with
      ⟨env, t, d, newPos, rfl, -, -, -, hts⟩ | ⟨-, hts⟩ <;> rw [hts] at hi ⊢
    · by_cases e : i = newPos
      · subst e
        rw [Function.update_same]
        exact ⟨env, d, List.mem_append_right _ (List.mem_singleton_self _)⟩
      · rw [Function.update_noteq e] at hi ⊢
        exact hmem (ih hi)
    · exact hmem (ih hi)

/-! ## `BlocksUsed` -/

/-- `BlocksUsed` on a header whose used slots are the first `n`: `n`, or the error when no slot
is free. -/
theorem blocksUsed_of_usedPrefix {payload : BitVec 64 → List UInt8} {f : GPFile} {n : Nat}
    (hm : HeaderInv enc payload f) (hu : UsedPrefix f n) :
    blocksUsed f = if n < NumElements then .ok n
      else .error (.error "Could not retrieve number of allocated blocks") := by
  unfold blocksUsed
  split_ifs with hn
  · have : findSlot f.isEmpty 0 = some ⟨n, hn⟩ := findSlot_eq_some_iff.mpr
      ⟨(hm.isEmpty_iff _).mpr (not_not.mp fun h => lt_irrefl n ((hu _).mp h)),
        fun j hj he => ((hu j).mpr hj) ((hm.isEmpty_iff j).mp he)⟩
    rw [this]
  · have : findSlot f.isEmpty 0 = none := findSlot_eq_none_iff.mpr fun j he =>
      ((hu j).mpr (by omega)) ((hm.isEmpty_iff j).mp he)
    rw [this]

/-- When `BlocksUsed` returns `i`, `WriteTimedBlock` of a new nonzero timestamp writes slot `i`,
where the used blocks end. -/
theorem scanSlots_of_blocksUsed {payload : BitVec 64 → List UInt8} {f : GPFile}
    (hm : HeaderInv enc payload f) {i : Fin NumElements} (hb : blocksUsed f = .ok i.val)
    {t : BitVec 64} (ht : t ≠ 0) (hfree : ∀ j, f.timestamps j ≠ t) :
    scanSlots f t = .free i (blockStart f.blocks i) := by
  unfold blocksUsed at hb
  split at hb
  · rename_i i' hi'
    obtain rfl : i' = i := Fin.ext (by simpa using hb)
    obtain ⟨he, hbefore⟩ := findSlot_eq_some_iff.mp hi'
    exact scanSlots_eq_free ((hm.isEmpty_iff i').mp he) ht
      fun j hj => ⟨hfree j, fun h0 => hbefore j hj ((hm.isEmpty_iff j).mpr h0)⟩
  · cases hb

/-- **`BlocksUsed` counts the writes.** In a history from a fresh path whose `n` writes all
returned nil, with any reads and reopenings, `n ≤ NumElements`, and `BlocksUsed` returns `n`
while a slot is free, and the error once all are used. Each further successful write adds one
to the count, and the slot `BlocksUsed` names is the one `WriteTimedBlock` fills next. -/
theorem blocksUsed_counts_writes {ops : List Op} {s : Store}
    (hs : Reach enc (writesSucceed enc) ops s) :
    ops.countP Op.isWrite ≤ NumElements ∧
      (ops.countP Op.isWrite < NumElements → blocksUsed s.gpf = .ok (ops.countP Op.isWrite)) ∧
      (ops.countP Op.isWrite = NumElements →
        blocksUsed s.gpf = .error (.error "Could not retrieve number of allocated blocks")) ∧
      (∀ env t d, (writeTimedBlock enc env s.gpf s.file t d).2.2 = .ok () →
        ops.countP Op.isWrite + 1 < NumElements →
        blocksUsed (s.step enc (.write env t d)).gpf = .ok (ops.countP Op.isWrite + 1)) ∧
      (∀ t, t ≠ 0 → (∀ j, s.gpf.timestamps j ≠ t) → ∀ i : Fin NumElements,
        blocksUsed s.gpf = .ok i.val → scanSlots s.gpf t = .free i (blockStart s.gpf.blocks i)) := by
  have hm := (cleanInv_of_reach hs).store.mem
  obtain ⟨hu, hn⟩ := usedPrefix_of_reach hs
  have hb := blocksUsed_of_usedPrefix hm hu
  refine ⟨hn, fun h => by rw [hb, if_pos h], fun h => by rw [hb, if_neg (by omega)], ?_,
    fun t ht hfree i hi => scanSlots_of_blocksUsed hm hi ht hfree⟩
  intro env t d hok hlt
  have hs' := Reach.step hs (o := .write env t d) hok
  have hm' := (cleanInv_of_reach hs').store.mem
  rw [blocksUsed_of_usedPrefix hm' (usedPrefix_of_reach hs').1, List.countP_append,
    List.countP_singleton]
  simp [Op.isWrite, hlt]

theorem blocksUsed_after_one_write :
    Reach Encoder.raw (writesSucceed Encoder.raw) [.write .ok 1 ⟨[7], by decide⟩]
        ((freshStore "p").step Encoder.raw (.write .ok 1 ⟨[7], by decide⟩)) ∧
      blocksUsed ((freshStore "p").step Encoder.raw (.write .ok 1 ⟨[7], by decide⟩)).gpf = .ok 1 :=
  have hs : Reach Encoder.raw (writesSucceed Encoder.raw) [.write .ok 1 ⟨[7], by decide⟩]
      ((freshStore "p").step Encoder.raw (.write .ok 1 ⟨[7], by decide⟩)) :=
    .step (.fresh "p") (by
      show (writeTimedBlock _ _ _ _ _ _).2.2 = _
      rw [writeTimedBlock_of_appended (scanSlots_freshStore "p" (by decide)) (by decide) rfl rfl
        (by rw [length_freshStore_file]; decide)]
      rfl)
  ⟨hs, (blocksUsed_counts_writes hs).2.1 (by decide)⟩

/-! ## A full file -/

/-- A write of a new nonzero timestamp that fits the file succeeds while a slot is free. -/
theorem CleanInv.write_ok {s : Store} (h : CleanInv enc s) {n : Nat} (hu : UsedPrefix s.gpf n)
    (hn : n < NumElements) {t : BitVec 64} (ht : t ≠ 0) (hfree : ∀ j, s.gpf.timestamps j ≠ t)
    {d : GoBytes} (hfit : s.file.length + (enc.compress d.bytes).length ≤ maxFileSize) :
    (writeTimedBlock enc .ok s.gpf s.file t d).2.2 = .ok () := by
  have h0 : s.gpf.timestamps ⟨n, hn⟩ = 0 := not_not.mp fun h => lt_irrefl n ((hu _).mp h)
  have hbefore : ∀ j, j < (⟨n, hn⟩ : Fin NumElements) → s.gpf.timestamps j ≠ 0 :=
    fun j hj => (hu j).mpr hj
  have hscan := scanSlots_eq_free h0 ht fun j hj => ⟨hfree j, hbefore j hj⟩
  have hnfb : blockStart s.gpf.blocks ⟨n, hn⟩ ≠ -1 := fun e => by
    have hend := h.tail _ h0 hbefore
    have hsize := h.store.size
    rw [e] at hend
    simp only [maxFileSize] at hsize
    have : (-1 : BitVec 64).toNat = 2 ^ 64 - 1 := by decide
    omega
  rw [writeTimedBlock_of_appended hscan hnfb rfl rfl hfit]
  rfl

/-- The writes of timestamps `1, …, k` with empty payloads. -/
def fillOps (k : Nat) : List Op :=
  (List.range k).map fun j => .write .ok (BitVec.ofNat 64 (j + 1)) ⟨[], by decide⟩

theorem countP_fillOps (k : Nat) : (fillOps k).countP Op.isWrite = k := by
  simp [fillOps, List.countP_map, Function.comp_def, Op.isWrite]

/-- The history of `fillOps k` on a fresh path succeeds in every write while `k ≤ NumElements`. -/
theorem reach_fillOps {k : Nat} (hk : k ≤ NumElements) :
    Reach Encoder.raw (writesSucceed Encoder.raw) (fillOps k)
      ((fillOps k).foldl (Store.step Encoder.raw) (freshStore "p")) := by
  induction k with
  | zero => exact .fresh "p"
  | succ k ih =>
    have hk' : k + 1 ≤ 512 := hk
    have hs := ih (by omega)
    have h := cleanInv_of_reach hs
    have hu := (usedPrefix_of_reach hs).1
    rw [countP_fillOps] at hu
    have hops : fillOps (k + 1) = fillOps k ++
        [.write .ok (BitVec.ofNat 64 (k + 1)) ⟨[], by decide⟩] := by
      simp [fillOps, List.range_succ]
    have ht : BitVec.ofNat 64 (k + 1) ≠ 0 := fun e => by
      have := congrArg BitVec.toNat e
      simp at this
      omega
    rw [hops, List.foldl_append, List.foldl_cons, List.foldl_nil]
    refine .step hs (h.write_ok hu (by omega) ht (fun j hj => ?_) (by simpa using h.store.size))
    obtain ⟨env, d, hw⟩ := written_of_used hs (i := j) (by rw [hj]; exact ht)
    rw [hj] at hw
    simp only [fillOps, List.mem_map, List.mem_range, Op.write.injEq] at hw
    obtain ⟨j', hj', -, e, -⟩ := hw
    rw [ofNat64_inj (by omega) (by omega)] at e
    omega

/-- After 512 successful writes of timestamps `1, …, 512` on a fresh path, `BlocksUsed` finds
no all-zero slot and returns the error, not 512. -/
theorem blocksUsed_of_full_file :
    let ops : List Op := fillOps NumElements
    let s : Store := ops.foldl (Store.step Encoder.raw) (freshStore "p")
    Reach Encoder.raw (writesSucceed Encoder.raw) ops s ∧ ops.countP Op.isWrite = NumElements ∧
      blocksUsed s.gpf = .error (.error "Could not retrieve number of allocated blocks") := by
  intro ops s
  have hs : Reach Encoder.raw (writesSucceed Encoder.raw) ops s := reach_fillOps le_rfl
  have hn : ops.countP Op.isWrite = NumElements := countP_fillOps _
  have hm := (cleanInv_of_reach hs).store.mem
  refine ⟨hs, hn, ?_⟩
  rw [blocksUsed_of_usedPrefix hm (usedPrefix_of_reach hs).1, hn, if_neg (lt_irrefl _)]

end GoProbe
