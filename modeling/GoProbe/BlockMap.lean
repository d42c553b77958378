import GoProbe.BlockCount

/-!
# The block file as a map

What a `GPFile` is for: a map from timestamps to payloads with `NumElements` places, filled in
order and never overwritten (`BlockMap`). What the code returns for it, errors included, is
`BlockMap.writeResult`, `BlockMap.readResult` and `BlockMap.countResult`.

`Abstracts s m` says that the store `s` holds the map `m`: slot `i` holds the `i`-th stored
timestamp, the slots past the last one are unused, and the ghost payload of each stored
timestamp is its payload. Over every history whose system calls succeed:

* **writes simulate inserts** (`Abstracts.write`): `WriteTimedBlock` returns what the map owes,
  stores the payload exactly when the map accepts the timestamp, and otherwise changes neither
  the header nor the file;
* **the block file refines the map** (`blockFile_refines_blockMap`): the store a history
  reaches holds the map its writes build, and `WriteTimedBlock`, `BlocksUsed` and a slot's first
  `ReadTimedBlock` since the last open return what that map owes.

The map's results keep the code's quirks. Timestamp 0 marks an unused slot, so a write of it is
refused as already present while a slot is free, and a read of it reads the first unused slot,
which `ReadBlock` reports as empty. A full map has no count.
-/

namespace GoProbe

/-! ## The abstract map -/

/-- The block file as its users see it: the payloads stored under their timestamps, in the
order they were stored. A stored timestamp is nonzero and stored once, and at most
`NumElements` are stored. -/
structure BlockMap where
  entries : List (BitVec 64 × List UInt8)
  nonzero : ∀ e ∈ entries, e.1 ≠ 0
  nodup : (entries.map Prod.fst).Nodup
  bound : entries.length ≤ NumElements

namespace BlockMap

/-- The map of a new file. -/
def empty : BlockMap := ⟨[], fun _ h => absurd h (List.not_mem_nil _), List.nodup_nil, Nat.zero_le _⟩

/-- The stored timestamps, in the order they were stored. -/
def keys (m : BlockMap) : List (BitVec 64) := m.entries.map Prod.fst

/-- The payload stored under `t`. -/
def lookup (m : BlockMap) (t : BitVec 64) : Option (List UInt8) := m.entries.lookup t

/-- `t` can be stored: it is nonzero and new, and a place is free. -/
def Accepts (m : BlockMap) (t : BitVec 64) : Prop :=
  t ≠ 0 ∧ t ∉ m.keys ∧ m.entries.length < NumElements

instance (m : BlockMap) : DecidablePred m.Accepts :=
  fun _ => inferInstanceAs (Decidable (_ ∧ _ ∧ _))

/-- Storing `d` under an accepted `t`: it takes the next place. -/
def insert (m : BlockMap) (t : BitVec 64) (d : List UInt8) (h : m.Accepts t) : BlockMap where
  entries := m.entries ++ [(t, d)]
  nonzero e he := by
    rcases List.mem_append.mp he with he | he
    · exact m.nonzero e he
    · rw [List.mem_singleton.mp he]; exact h.1
  nodup := by
    rw [List.map_append, List.nodup_append]
    exact ⟨m.nodup, List.nodup_singleton _, by simpa [keys] using h.2.1⟩
  bound := by simpa using h.2.2

/-- A write: `d` stored under `t` when the map accepts `t`, nothing otherwise. -/
def store (m : BlockMap) (t : BitVec 64) (d : List UInt8) : BlockMap :=
  if h : m.Accepts t then m.insert t d h else m

/-- What an operation does to the map: a write stores, a read or a reopening does nothing. -/
def step (m : BlockMap) : Op → BlockMap
  | .write _ t d => m.store t d.bytes
  | _ => m

/-- The map a history builds from the empty one. -/
def replay (ops : List Op) : BlockMap := ops.foldl step empty

/-- The result `WriteTimedBlock(t, data)` owes a file named `p` that holds `m`, when every
system call succeeds. A stored timestamp is reported as present, and so is 0 while a place is
free, since the slot loop meets an unused slot's 0 first; any other timestamp is refused once
the map is full. -/
def writeResult (m : BlockMap) (p : String) (t : BitVec 64) : Except GoError Unit :=
  if t ∈ m.keys ∨ (t = 0 ∧ m.entries.length < NumElements) then
    .error (.error ("Timestamp" ++ toString t.toInt ++ " already exists in file " ++ p))
  else if m.entries.length < NumElements then .ok ()
  else .error (.error "File is full")

/-- The result the first `ReadTimedBlock(t)` of a slot since a file holding `m` was opened
owes: the stored payload; for 0 while a place is free, the emptiness error of the first
unused slot; otherwise that `t` was not found. -/
def readResult (m : BlockMap) (t : BitVec 64) : Except GoError (List UInt8) :=
  match m.lookup t with
  | some d => .ok d
  | none =>
    if t = 0 ∧ m.entries.length < NumElements then
      .error (.error ("Block " ++ toString m.entries.length ++ " is empty"))
    else .error (.error ("Timestamp " ++ toString t.toInt ++ " not found"))

/-- The result `BlocksUsed()` owes: the number of stored payloads, or an error once the map
is full. -/
def countResult (m : BlockMap) : Except GoError Nat :=
  if m.entries.length < NumElements then .ok m.entries.length
  else .error (.error "Could not retrieve number of allocated blocks")

theorem length_keys (m : BlockMap) : m.keys.length = m.entries.length := List.length_map _ _

theorem ne_zero_of_mem_keys {m : BlockMap} {t : BitVec 64} (h : t ∈ m.keys) : t ≠ 0 := by
  obtain ⟨e, he, rfl⟩ := List.mem_map.mp h
  exact m.nonzero e he

theorem mem_keys_of_lookup {m : BlockMap} {t : BitVec 64} {d : List UInt8}
    (h : m.lookup t = some d) : (t, d) ∈ m.entries := by
  obtain ⟨l₁, l₂, he, -⟩ := List.lookup_eq_some_iff.mp h
  rw [he]
  exact List.mem_append_right _ (List.mem_cons_self _ _)

theorem not_mem_keys_of_lookup {m : BlockMap} {t : BitVec 64} (h : m.lookup t = none) :
    t ∉ m.keys := fun hk => by
  obtain ⟨e, he, rfl⟩ := List.mem_map.mp hk
  simpa using List.lookup_eq_none_iff.mp h e he

/-- The map accepts exactly the writes it owes nil. -/
theorem writeResult_eq_ok_iff (m : BlockMap) (p : String) (t : BitVec 64) :
    m.writeResult p t = .ok () ↔ m.Accepts t := by
  unfold writeResult Accepts
  split_ifs with h1 h2 <;> simp only [reduceCtorEq, false_iff, true_iff] <;> tauto

theorem keys_insert (m : BlockMap) (t : BitVec 64) (d : List UInt8) (h : m.Accepts t) :
    (m.insert t d h).keys = m.keys ++ [t] := List.map_append _ _ _

theorem replay_append (ops : List Op) (o : Op) : replay (ops ++ [o]) = (replay ops).step o := by
  rw [replay, List.foldl_append, List.foldl_cons, List.foldl_nil, replay]

end BlockMap

theorem getD_append_singleton {α : Type} (l : List α) (a d : α) (i : Nat) :
    (l ++ [a]).getD i d = if i = l.length then a else l.getD i d := by
  rcases lt_trichotomy i l.length with hi | rfl | hi
  · rw [List.getD_append _ _ _ _ hi, if_neg (by omega)]
  · rw [List.getD_append_right _ _ _ _ le_rfl, Nat.sub_self, if_pos rfl]; rfl
  · rw [List.getD_eq_default _ _ (by simp; omega), List.getD_eq_default _ _ (by omega),
      if_neg (by omega)]

/-! ## Stores that hold a map -/

/-- Every system call succeeds and every block fits a file the kernel allows: a write fails
only for reasons of its own. -/
def callsSucceed (enc : Encoder) (s : Store) : Op → Prop
  | .write env _ d => env = .ok ∧ s.file.length + (enc.compress d.bytes).length ≤ maxFileSize
  | _ => True

/-- The store holds the map: slot `i` holds the `i`-th stored timestamp, or 0 past the last,
and each stored timestamp's ghost payload is its payload. -/
structure Abstracts (s : Store) (m : BlockMap) : Prop where
  timestamps : ∀ i : Fin NumElements, s.gpf.timestamps i = m.keys.getD i 0
  payload : ∀ e ∈ m.entries, s.payload e.1 = e.2

variable {enc : Encoder} {s : Store} {m : BlockMap}

/-- The used slots are the first `len(m)`. -/
theorem Abstracts.usedPrefix (ha : Abstracts s m) : UsedPrefix s.gpf m.entries.length := by
  intro i
  rw [ha.timestamps i]
  by_cases hi : i.val < m.entries.length
  · rw [List.getD_eq_getElem _ _ (by rwa [BlockMap.length_keys])]
    exact ⟨fun _ => hi, fun _ => BlockMap.ne_zero_of_mem_keys (List.getElem_mem _)⟩
  · rw [List.getD_eq_default _ _ (by rw [BlockMap.length_keys]; omega)]
    exact ⟨fun h => absurd rfl h, fun h => absurd h hi⟩

/-- A nonzero timestamp is in a slot exactly when the map stores it. -/
theorem Abstracts.held_iff (ha : Abstracts s m) {t : BitVec 64} (ht : t ≠ 0) :
    (∃ i, s.gpf.timestamps i = t) ↔ t ∈ m.keys := by
  constructor
  · rintro ⟨i, hi⟩
    rw [ha.timestamps i] at hi
    by_cases hl : i.val < m.keys.length
    · rw [List.getD_eq_getElem _ _ hl] at hi
      exact hi ▸ List.getElem_mem _
    · rw [List.getD_eq_default _ _ (by omega)] at hi
      exact absurd hi.symm ht
  · intro hk
    obtain ⟨j, hj, rfl⟩ := List.getElem_of_mem hk
    have hb : j < NumElements := lt_of_lt_of_le (m.length_keys ▸ hj) m.bound
    exact ⟨⟨j, hb⟩, by rw [ha.timestamps, List.getD_eq_getElem _ _ hj]⟩

/-! ## Refused writes -/

/-- A ghost payload changed under a timestamp no slot holds leaves the clean invariant alone. -/
theorem CleanInv.update_unheld (h : CleanInv enc s) {t : BitVec 64}
    (ht : ∀ i, s.gpf.timestamps i ≠ t) (d : List UInt8) :
    CleanInv enc { s with payload := Function.update s.payload t d } := by
  have e : ∀ i, Function.update s.payload t d (s.gpf.timestamps i) =
      s.payload (s.gpf.timestamps i) := fun i => Function.update_noteq (ht i) _ _
  obtain ⟨⟨hm, hd, hsub, hh, hs, hends⟩, hsync, htail, hdata, hread, hseek⟩ := h
  refine ⟨⟨hm.update_payload d fun i _ => ht i,
    hd.update_payload d fun i hi => (hsub i hi).1 ▸ ht i, hsub, hh, hs, hends⟩, hsync, htail,
    fun i hi => ?_, hread, ?_⟩ <;> dsimp only
  · rw [e]; exact hdata i hi
  · rcases hseek with h1 | h1 | ⟨b, hb, hb1, hb2⟩
    · exact .inl h1
    · exact .inr (.inl h1)
    · exact .inr (.inr ⟨b, hb, hb1, by rw [e]; exact hb2⟩)

/-- A write that changes neither the header nor the file keeps the clean invariant, and the
ghost payload of every timestamp a slot holds. -/
theorem CleanInv.refused (h : CleanInv enc s) {env : WriteEnv} {t : BitVec 64} {d : GoBytes}
    {r : Except GoError Unit} (hw : writeTimedBlock enc env s.gpf s.file t d = (s.gpf, s.file, r)) :
    CleanInv enc (s.step enc (.write env t d)) ∧
      (s.step enc (.write env t d)).gpf = s.gpf ∧ (s.step enc (.write env t d)).file = s.file ∧
      ∀ t', (∃ i, s.gpf.timestamps i = t') →
        (s.step enc (.write env t d)).payload t' = s.payload t' := by
  rw [s.step_write hw]
  refine ⟨?_, rfl, rfl, ?_⟩ <;> split_ifs with hs
  · exact h
  · exact h.update_unheld (findSlot_eq_none_iff.mp (Option.not_isSome_iff_eq_none.mp hs)) _
  · exact fun _ _ => rfl
  · rintro t' ⟨i, rfl⟩
    exact Function.update_noteq
      (findSlot_eq_none_iff.mp (Option.not_isSome_iff_eq_none.mp hs) i) _ _

/-- The slot loop's duplicate answer names the timestamp it was asked for. -/
theorem scanSlots_duplicate_self {f : GPFile} {t c : BitVec 64}
    (h : scanSlots f t = .duplicate c) : c = t := by
  unfold scanSlots at h
  split at h
  · split_ifs at h with h3
    cases h
    exact h3
  · cases h

/-- Timestamp 0 is a duplicate as soon as some slot is unused. -/
theorem scanSlots_zero {f : GPFile} {i : Fin NumElements} (hi : f.timestamps i = 0) :
    scanSlots f 0 = .duplicate 0 := by
  unfold scanSlots
  split
  · rename_i j hj
    have hj0 : f.timestamps j = 0 := (findSlot_eq_some_iff.mp hj).1.elim id id
    rw [if_pos hj0, hj0]
  · rename_i hn
    exact absurd (Or.inl hi) (findSlot_eq_none_iff.mp hn i)

/-- With every slot used by another timestamp, the slot loop runs to the end. -/
theorem scanSlots_exhausted {f : GPFile} {t : BitVec 64}
    (h : ∀ i, f.timestamps i ≠ t ∧ f.timestamps i ≠ 0) : scanSlots f t = .exhausted := by
  unfold scanSlots
  rw [findSlot_eq_none_iff.mpr fun i hi => hi.elim (h i).1 (h i).2]

/-- A write the map refuses returns the map's error and leaves the header and the file. -/
theorem Abstracts.write_refused (h : CleanInv enc s) (ha : Abstracts s m) {t : BitVec 64}
    (hacc : ¬ m.Accepts t) (env : WriteEnv) (d : GoBytes) :
    writeTimedBlock enc env s.gpf s.file t d = (s.gpf, s.file, m.writeResult s.gpf.filename t) := by
  have hu := ha.usedPrefix
  by_cases hk : t ∈ m.keys
  · have ht0 := BlockMap.ne_zero_of_mem_keys hk
    obtain ⟨c, hc⟩ := (h.store.mem.scan_duplicate_iff ht0).mpr ((ha.held_iff ht0).mpr hk)
    obtain rfl := scanSlots_duplicate_self hc
    simp only [writeTimedBlock, hc, BlockMap.writeResult, if_pos (Or.inl hk)]
  by_cases hz : t = 0 ∧ m.entries.length < NumElements
  · obtain ⟨rfl, hn⟩ := hz
    have h0 : s.gpf.timestamps ⟨m.entries.length, hn⟩ = 0 :=
      not_not.mp fun h' => lt_irrefl _ ((hu _).mp h')
    unfold writeTimedBlock
    rw [scanSlots_zero h0]
    simp [BlockMap.writeResult, hn]
  · have hfull : ¬ m.entries.length < NumElements := fun hn =>
      hacc ⟨fun h0 => hz ⟨h0, hn⟩, hk, hn⟩
    have hall : ∀ i, s.gpf.timestamps i ≠ t ∧ s.gpf.timestamps i ≠ 0 := fun i => by
      have hi : s.gpf.timestamps i ≠ 0 := (hu i).mpr (by omega)
      exact ⟨fun he => hk ((ha.held_iff (he ▸ hi)).mp ⟨i, he⟩), hi⟩
    simp only [writeTimedBlock, scanSlots_exhausted hall, BlockMap.writeResult,
      if_neg (not_or.mpr ⟨hk, hz⟩), if_neg hfull]

/-- A write the map accepts returns nil, and the store afterwards holds the map with the
payload in its next place. -/
theorem Abstracts.write_accepted (h : CleanInv enc s) (ha : Abstracts s m) {t : BitVec 64}
    (hacc : m.Accepts t) (d : GoBytes)
    (hfit : s.file.length + (enc.compress d.bytes).length ≤ maxFileSize) :
    (writeTimedBlock enc .ok s.gpf s.file t d).2.2 = .ok () ∧
      Abstracts (s.step enc (.write .ok t d)) (m.insert t d.bytes hacc) := by
  obtain ⟨ht0, hk, hn⟩ := hacc
  have hu := ha.usedPrefix
  have hok := h.write_ok hu hn ht0 (fun j he => hk ((ha.held_iff ht0).mp ⟨j, he⟩)) hfit
  refine ⟨hok, fun i => ?_, fun e he => ?_⟩
  · rcases h.step_timestamps (o := .write .ok t d) hok with
      ⟨env, t', d', newPos, he, -, h0, hbefore, hts⟩ | ⟨hw, -⟩
    · obtain ⟨-, rfl, rfl⟩ := Op.write.inj he
      have hpos := (UsedPrefix.update hu ht0 h0 hbefore).1
      rw [hts, BlockMap.keys_insert, getD_append_singleton, BlockMap.length_keys]
      by_cases hi : i = newPos
      · rw [hi, Function.update_same, if_pos hpos]
      · rw [Function.update_noteq hi, if_neg fun e => hi (Fin.ext (e.trans hpos.symm)),
          ha.timestamps i]
    · cases hw
  · obtain ⟨-, -, -, -, -, hpay⟩ := h.store.step_write_ok hok
    rw [hpay]
    rcases List.mem_append.mp he with he | he
    · have hne : e.1 ≠ t := fun e' => hk (by rw [← e']; exact List.mem_map_of_mem Prod.fst he)
      rw [Function.update_noteq hne, ha.payload e he]
    · rw [List.mem_singleton.mp he, Function.update_same]

/-- **Writes simulate inserts.** On a store holding `m`, `WriteTimedBlock(t, data)` with every
system call succeeding returns what `m` owes, the store afterwards holds `m.store t data`, and a
write the map refuses changes neither the header nor the file. -/
theorem Abstracts.write (h : CleanInv enc s) (ha : Abstracts s m) (t : BitVec 64) (d : GoBytes)
    (hfit : s.file.length + (enc.compress d.bytes).length ≤ maxFileSize) :
    (writeTimedBlock enc .ok s.gpf s.file t d).2.2 = m.writeResult s.gpf.filename t ∧
      (¬ m.Accepts t → (writeTimedBlock enc .ok s.gpf s.file t d).1 = s.gpf ∧
        (writeTimedBlock enc .ok s.gpf s.file t d).2.1 = s.file) ∧
      CleanInv enc (s.step enc (.write .ok t d)) ∧
      Abstracts (s.step enc (.write .ok t d)) (m.store t d.bytes) := by
  by_cases hacc : m.Accepts t
  · obtain ⟨hok, ha'⟩ := ha.write_accepted h hacc d hfit
    refine ⟨by rw [hok, (m.writeResult_eq_ok_iff _ _).mpr hacc], fun hn => absurd hacc hn,
      h.write hok, ?_⟩
    rw [BlockMap.store, dif_pos hacc]
    exact ha'
  · have hw := ha.write_refused h hacc .ok d
    obtain ⟨hc, hg, -, hp⟩ := h.refused hw
    refine ⟨by rw [hw], fun _ => by rw [hw]; exact ⟨rfl, rfl⟩, hc, ?_⟩
    rw [BlockMap.store, dif_neg hacc]
    refine ⟨fun i => by rw [hg]; exact ha.timestamps i, fun e he => ?_⟩
    rw [hp e.1 ((ha.held_iff (m.nonzero e he)).mpr (List.mem_map_of_mem Prod.fst he)),
      ha.payload e he]

/-! ## Reads, the count, and whole histories -/

/-- On a slot's first read since the last open, `ReadTimedBlock` of a timestamp the slot holds
returns the ghost payload, for a lawful encoder. -/
theorem CleanInv.first_readTimed (hlaw : enc.Lawful) (h : CleanInv enc s) {t : BitVec 64}
    (ht0 : t ≠ 0) {i : Fin NumElements} (hi : s.gpf.timestamps i = t)
    (hfirst : ∀ j, s.gpf.timedSlot t = some j → j ∉ s.readSlots) :
    (readTimedBlock enc s.gpf s.file t).2 = .ok (s.payload t) := by
  obtain ⟨j, hj⟩ : ∃ j, s.gpf.timedSlot t = some j :=
    Option.ne_none_iff_exists'.mp fun hn => findSlot_eq_none_iff.mp hn i hi
  have hjt : s.gpf.timestamps j = t := (findSlot_eq_some_iff.mp hj).1
  have hj0 : s.gpf.timestamps j ≠ 0 := hjt ▸ ht0
  simp only [readTimedBlock, hj, h.store.mem.readBlock_eq hj0 s.file]
  rw [h.first_read_bytes hj0 (hfirst j hj), if_pos rfl, hjt, hlaw, fillBuffer_length]

/-- **Reads refine lookups.** On a store holding `m`, the first `ReadTimedBlock(t)` of its slot
since the last open returns what `m` owes, for a lawful encoder. -/
theorem Abstracts.readTimed (hlaw : enc.Lawful) (h : CleanInv enc s) (ha : Abstracts s m)
    (t : BitVec 64) (hfirst : ∀ i, s.gpf.timedSlot t = some i → i ∉ s.readSlots) :
    (readTimedBlock enc s.gpf s.file t).2 = m.readResult t := by
  have hu := ha.usedPrefix
  unfold BlockMap.readResult
  split
  · rename_i d hl
    have hmem := BlockMap.mem_keys_of_lookup hl
    have ht0 : t ≠ 0 := m.nonzero _ hmem
    obtain ⟨i, hi⟩ := (ha.held_iff ht0).mpr (List.mem_map_of_mem Prod.fst hmem)
    rw [h.first_readTimed hlaw ht0 hi hfirst, ha.payload _ hmem]
  · rename_i hl
    have hk := BlockMap.not_mem_keys_of_lookup hl
    by_cases hz : t = 0 ∧ m.entries.length < NumElements
    · obtain ⟨rfl, hn⟩ := hz
      have hslot : s.gpf.timedSlot 0 = some ⟨m.entries.length, hn⟩ := findSlot_eq_some_iff.mpr
        ⟨not_not.mp fun h' => lt_irrefl _ ((hu _).mp h'), fun j hj => (hu j).mpr hj⟩
      have hemp : s.gpf.isEmpty ⟨m.entries.length, hn⟩ :=
        (h.store.mem.isEmpty_iff _).mpr (findSlot_eq_some_iff.mp hslot).1
      simp only [readTimedBlock, hslot, readBlock, if_pos hemp, true_and, if_pos hn]
    · have hnone : s.gpf.timedSlot t = none := findSlot_eq_none_iff.mpr fun i he => by
        by_cases ht0 : t = 0
        · have hfull : NumElements ≤ m.entries.length := not_lt.mp fun hn => hz ⟨ht0, hn⟩
          exact (hu i).mpr (lt_of_lt_of_le i.isLt hfull) (he.trans ht0)
        · exact hk ((ha.held_iff ht0).mp ⟨i, he⟩)
      simp only [readTimedBlock, hnone, if_neg hz]

/-- `BlocksUsed` on a store holding `m` returns what `m` owes. -/
theorem Abstracts.blocksUsed (h : CleanInv enc s) (ha : Abstracts s m) :
    blocksUsed s.gpf = m.countResult :=
  blocksUsed_of_usedPrefix h.store.mem ha.usedPrefix

/-- Operations other than writes leave the ghost payload alone. -/
theorem Store.payload_step_of_not_write (s : Store) {o : Op} (ho : o.isWrite = false) :
    (s.step enc o).payload = s.payload := by
  cases o with
  | write => cases ho
  | read i => rfl
  | readTimed t => simp only [Store.step]; split <;> rfl
  | reopen => simp only [Store.step]; split <;> rfl

/-- Reads and reopenings keep the map a store holds. -/
theorem Abstracts.step_of_not_write (h : CleanInv enc s) (ha : Abstracts s m) {o : Op}
    (ho : o.isWrite = false) : Abstracts (s.step enc o) m := by
  have hts : (s.step enc o).gpf.timestamps = s.gpf.timestamps := by
    rcases h.step_timestamps (o := o) (by cases o <;> trivial) with
      ⟨_, _, _, _, rfl, -⟩ | ⟨-, hts⟩
    · cases ho
    · exact hts
  exact ⟨fun i => by rw [hts]; exact ha.timestamps i,
    fun e he => by rw [s.payload_step_of_not_write ho]; exact ha.payload e he⟩

/-- The run lemma: along every history whose system calls succeed, the store keeps the clean
invariant and holds the map the history's writes build. -/
theorem abstracts_of_reach {ops : List Op} {s : Store} (hs : Reach enc (callsSucceed enc) ops s) :
    CleanInv enc s ∧ Abstracts s (BlockMap.replay ops) := by
  induction hs with
  | @init p g file h0 =>
    refine ⟨.init h0, ?_⟩
    simp only [newGPFile, Bool.false_eq_true, if_false, Except.ok.injEq, Prod.mk.injEq] at h0
    obtain ⟨rfl, rfl⟩ := h0
    exact ⟨fun i => by simp [parseSlots_zeros, BlockMap.replay, BlockMap.empty, BlockMap.keys],
      fun e he => absurd he (List.not_mem_nil _)⟩
  | @step ops s o hs ho ih =>
    obtain ⟨h, ha⟩ := ih
    rw [BlockMap.replay_append]
    cases o with
    | write env t d =>
      obtain ⟨rfl, hfit⟩ := ho
      exact (ha.write h t d hfit).2.2
    | _ => exact ⟨h.step trivial, ha.step_of_not_write h rfl⟩

/-- **The block file refines the map.** Along every history from a fresh path whose system
calls succeed, with any reads and reopenings, the store holds the map the history's writes
build. The next `WriteTimedBlock` returns what that map owes, stores the payload exactly when
the map accepts the timestamp, and otherwise leaves the header and the file as they were;
`BlocksUsed` and the first `ReadTimedBlock` of a slot since the last open return what the map
owes. -/
theorem blockFile_refines_blockMap (hlaw : enc.Lawful) {ops : List Op} {s : Store}
    (hs : Reach enc (callsSucceed enc) ops s) :
    let m : BlockMap := BlockMap.replay ops
    Abstracts s m ∧ blocksUsed s.gpf = m.countResult ∧
      (∀ t d, s.file.length + (enc.compress d.bytes).length ≤ maxFileSize →
        (writeTimedBlock enc .ok s.gpf s.file t d).2.2 = m.writeResult s.gpf.filename t ∧
        (¬ m.Accepts t → (writeTimedBlock enc .ok s.gpf s.file t d).1 = s.gpf ∧
          (writeTimedBlock enc .ok s.gpf s.file t d).2.1 = s.file) ∧
        Abstracts (s.step enc (.write .ok t d)) (m.store t d.bytes)) ∧
      (∀ t, (∀ i, s.gpf.timedSlot t = some i → i ∉ s.readSlots) →
        (readTimedBlock enc s.gpf s.file t).2 = m.readResult t) := by
  intro m
  obtain ⟨h, ha⟩ := abstracts_of_reach hs
  refine ⟨ha, ha.blocksUsed h, fun t d hfit => ?_, fun t hf => ha.readTimed hlaw h t hf⟩
  obtain ⟨hr, hu, -, ha'⟩ := ha.write h t d hfit
  exact ⟨hr, hu, ha'⟩

/-- The refinement after two stored blocks, a read and a reopening: `BlocksUsed` returns the
map's count. -/
theorem blockFile_refines_blockMap_after_two_writes :
    let o₁ : Op := .write .ok 1 ⟨[7], by decide⟩
    let o₂ : Op := .write .ok 2 ⟨[8, 9], by decide⟩
    let s := ((((freshStore "p").step Encoder.raw o₁).step Encoder.raw o₂).step Encoder.raw
      (.read ⟨1, by decide⟩)).step Encoder.raw .reopen
    Encoder.raw.Lawful ∧ Reach Encoder.raw (callsSucceed Encoder.raw) [o₁, o₂, .read ⟨1, by decide⟩, .reopen] s ∧
      blocksUsed s.gpf = (BlockMap.replay [o₁, o₂, .read ⟨1, by decide⟩, .reopen]).countResult := by
  intro o₁ o₂ s
  have hw := @freshStore_write Encoder.raw "p" _ (by decide : (1 : BitVec 64) ≠ 0)
    ⟨[7], by decide⟩ (by decide)
  have hlen : ((freshStore "p").step Encoder.raw o₁).file.length = 3 * BufSize + 1 := by
    rw [hw.2, length_overwrite (by simp)]; simp; rfl
  have hs : Reach Encoder.raw (callsSucceed Encoder.raw) [o₁, o₂, .read ⟨1, by decide⟩, .reopen] s :=
    .step (.step (.step (.step (.fresh "p") ⟨rfl, by rw [length_freshStore_file]; decide⟩)
      ⟨rfl, by rw [hlen]; decide⟩) trivial) trivial
  exact ⟨Encoder.raw_lawful, hs, (blockFile_refines_blockMap Encoder.raw_lawful hs).2.1⟩

end GoProbe
