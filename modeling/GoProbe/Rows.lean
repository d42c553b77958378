import Mathlib.Data.String.Basic
import Mathlib.Data.Prod.Lex
import Mathlib.Data.BitVec

/-!
# Result rows and their order

`pkg/results/result.go`: a query result is a list of `Row`s. A row carries the `Labels` the
database is partitioned by (timestamp, interface, host), the traffic `Attributes` it can be
grouped by (addresses, IP protocol, destination port), and its `Counters`. `ToRowsSorted`
sorts rows with `Row.Less`: attributes first, then labels.

Three types come from outside the source and are modelled as far as this code uses them:
Go's `time.Time` and `netip.Addr`, and goProbe's `types.Counters`.

* **Attributes are totally ordered** (`Attributes.less_iff`): `Attributes.Less` is the
  lexicographic order of a key, field by field as the code tests them.
* **Rows are partially ordered** (`Row.less_irrefl`, `Row.less_trans`): `Row.Less` is
  irreflexive, and transitive on rows whose timestamps all carry a monotonic clock reading or
  all carry none. `Before` compares the monotonic readings when both times have one and the
  instants otherwise, so with mixed readings three rows can sort in a cycle.
* **Incomparable rows** (`Row.incomparable_iff`): two rows whose timestamps are of one kind
  are incomparable exactly when their attributes are equal, `Before` finds neither timestamp
  first, and, when the timestamps are equal as Go values, so are hostname and interface.
  `Labels.Less` tests the timestamps with Go's `!=`, which compares the location as well, and
  then with `Before`, which does not. Two rows whose timestamps denote one instant in two
  locations are incomparable whatever their hostnames, and incomparability is not transitive:
  `Row.Less` is not a strict weak order.
-/

namespace GoProbe

/-! ## The types -/

/-- Modelled from the spec: Go's `time.Time` is not in src. A time is an instant (in
nanoseconds since the Unix epoch), the `*Location` it is shown in, and the monotonic clock
reading when it has one; Go's `==` compares all three. -/
structure Time where
  instant : Int
  loc : Nat
  mono : Option Int
  deriving DecidableEq, Repr, Inhabited

/-- `t.Before(u)`: the monotonic reading of `t` comes first when both times have one, and the
instant of `t` otherwise. -/
def Time.before (t u : Time) : Bool :=
  match t.mono, u.mono with
  | some m, some m' => decide (m < m')
  | _, _ => decide (t.instant < u.instant)

/-- The reading `Before` compares between times of one kind: the monotonic one when the time
has it. -/
def Time.clock (t : Time) : Int := t.mono.getD t.instant

/-- Both times carry a monotonic reading, or neither does. -/
def Time.sameClock (t u : Time) : Prop := t.mono.isSome = u.mono.isSome

instance : DecidableRel Time.sameClock := fun t u =>
  inferInstanceAs (Decidable (t.mono.isSome = u.mono.isSome))

theorem Time.sameClock.symm {t u : Time} (h : t.sameClock u) : u.sameClock t := Eq.symm h

theorem Time.sameClock.trans {t u v : Time} (h : t.sameClock u) (h' : u.sameClock v) :
    t.sameClock v := Eq.trans h h'

/-- Between times of one kind, `Before` orders the readings `clock` gives. -/
theorem Time.before_iff {t u : Time} (h : t.sameClock u) :
    t.before u = true ↔ t.clock < u.clock := by
  unfold Time.sameClock at h
  rcases t with ⟨i, l, _ | m⟩ <;> rcases u with ⟨i', l', _ | m'⟩ <;>
    simp_all [Time.before, Time.clock]

/-- Go's `netip.Addr` (standard library, not in src), as `Compare` orders it: the bit length
(0 for the zero `Addr`, 32 for IPv4, 128 for IPv6), the 128-bit address, and the IPv6 zone. -/
structure Addr where
  bitLen : Nat
  addr : BitVec 128
  zone : String
  deriving DecidableEq, Repr, Inhabited

/-- `ip.Less(ip2)`, that is `ip.Compare(ip2) == -1`: bit length, then address, then zone. Only
IPv6 addresses have a zone, so comparing it for every address is `Compare`'s IPv6 test. -/
def Addr.less (ip ip2 : Addr) : Bool :=
  if ip.bitLen ≠ ip2.bitLen then decide (ip.bitLen < ip2.bitLen)
  else if ip.addr ≠ ip2.addr then decide (ip.addr < ip2.addr)
  else decide (ip.zone < ip2.zone)

/-- `Labels`: the partition a row comes from. -/
structure Labels where
  timestamp : Time
  iface : String
  hostname : String
  hostID : String
  deriving DecidableEq, Repr, Inhabited

/-- `Attributes`: what a row is grouped by. -/
structure Attributes where
  srcIP : Addr
  dstIP : Addr
  ipProto : UInt8
  dstPort : UInt16
  deriving DecidableEq, Repr, Inhabited

/-- Modelled from the spec: goProbe's `types.Counters` is not in src. Its four `uint64`
counters, which `Add` adds componentwise with wrap-around. -/
@[ext] structure Counters where
  bytesRcvd : BitVec 64
  bytesSent : BitVec 64
  packetsRcvd : BitVec 64
  packetsSent : BitVec 64
  deriving DecidableEq, Repr, Inhabited

/-- `c.Add(c2)`. -/
def Counters.add (c c2 : Counters) : Counters :=
  ⟨c.bytesRcvd + c2.bytesRcvd, c.bytesSent + c2.bytesSent, c.packetsRcvd + c2.packetsRcvd,
    c.packetsSent + c2.packetsSent⟩

instance : Zero Counters := ⟨⟨0, 0, 0, 0⟩⟩

instance : Add Counters := ⟨Counters.add⟩

/-- `Add` makes the counters a commutative monoid, with all counters zero as its unit. -/
instance : AddCommMonoid Counters where
  add_assoc _ _ _ := Counters.ext (BitVec.add_assoc ..) (BitVec.add_assoc ..)
    (BitVec.add_assoc ..) (BitVec.add_assoc ..)
  zero_add _ := Counters.ext (BitVec.zero_add _) (BitVec.zero_add _) (BitVec.zero_add _)
    (BitVec.zero_add _)
  add_zero _ := Counters.ext (BitVec.add_zero _) (BitVec.add_zero _) (BitVec.add_zero _)
    (BitVec.add_zero _)
  add_comm _ _ := Counters.ext (BitVec.add_comm ..) (BitVec.add_comm ..) (BitVec.add_comm ..)
    (BitVec.add_comm ..)
  nsmul := nsmulRec

theorem Counters.add_eq (c c2 : Counters) : c.add c2 = c + c2 := rfl

/-- `Row`: one line of a result. -/
structure Row where
  labels : Labels
  attributes : Attributes
  counters : Counters
  deriving DecidableEq, Repr, Inhabited

/-! ## The `Less` methods -/

/-- `l.Less(l2)`: the timestamps under Go's `!=`, then `Before`; then the hostname; then the
interface. The host ID is not compared. -/
def Labels.less (l l2 : Labels) : Bool :=
  if l.timestamp ≠ l2.timestamp then l.timestamp.before l2.timestamp
  else if l.hostname ≠ l2.hostname then decide (l.hostname < l2.hostname)
  else decide (l.iface < l2.iface)

/-- `a.Less(a2)`: source address, destination address, protocol, destination port. -/
def Attributes.less (a a2 : Attributes) : Bool :=
  if a.srcIP ≠ a2.srcIP then a.srcIP.less a2.srcIP
  else if a.dstIP ≠ a2.dstIP then a.dstIP.less a2.dstIP
  else if a.ipProto ≠ a2.ipProto then decide (a.ipProto < a2.ipProto)
  else decide (a.dstPort < a2.dstPort)

/-- `r.Less(r2)`: the labels decide between rows with equal attributes. -/
def Row.less (r r2 : Row) : Bool :=
  if r.attributes = r2.attributes then r.labels.less r2.labels
  else r.attributes.less r2.attributes

/-! ## Addresses and attributes: a total order -/

/-- The key `Compare` orders addresses by. -/
def Addr.key (ip : Addr) : Lex (Nat × Lex (Nat × String)) :=
  toLex (ip.bitLen, toLex (ip.addr.toNat, ip.zone))

theorem Addr.key_injective : Function.Injective Addr.key := by
  rintro ⟨b, a, z⟩ ⟨b', a', z'⟩ h
  simp only [Addr.key, toLex_inj, Prod.mk.injEq] at h
  obtain ⟨rfl, ha, rfl⟩ := h
  rw [BitVec.toNat_eq.mpr ha]

theorem Addr.less_iff (ip ip2 : Addr) : ip.less ip2 = true ↔ ip.key < ip2.key := by
  have hne : ip.addr ≠ ip2.addr ↔ ip.addr.toNat ≠ ip2.addr.toNat := BitVec.toNat_eq.not
  unfold Addr.less Addr.key
  split_ifs with h1 h2 <;>
    simp_all [Prod.Lex.lt_iff, BitVec.lt_def]

/-- The key `Attributes.Less` orders attributes by. -/
def Attributes.key (a : Attributes) :
    Lex (Lex (Nat × Lex (Nat × String)) × Lex (Lex (Nat × Lex (Nat × String)) × Lex (Nat × Nat))) :=
  toLex (a.srcIP.key, toLex (a.dstIP.key, toLex (a.ipProto.toNat, a.dstPort.toNat)))

theorem Attributes.key_injective : Function.Injective Attributes.key := by
  rintro ⟨s, d, p, q⟩ ⟨s', d', p', q'⟩ h
  simp only [Attributes.key, toLex_inj, Prod.mk.injEq, Addr.key_injective.eq_iff] at h
  obtain ⟨rfl, rfl, hp, hq⟩ := h
  rw [UInt8.toNat.inj hp, UInt16.toNat.inj hq]

/-- **Attributes are totally ordered**: `Attributes.Less` is the lexicographic order of the
key. -/
theorem Attributes.less_iff (a a2 : Attributes) : a.less a2 = true ↔ a.key < a2.key := by
  have hs : a.srcIP ≠ a2.srcIP ↔ a.srcIP.key ≠ a2.srcIP.key := Addr.key_injective.ne_iff.symm
  have hd : a.dstIP ≠ a2.dstIP ↔ a.dstIP.key ≠ a2.dstIP.key := Addr.key_injective.ne_iff.symm
  have hp : a.ipProto ≠ a2.ipProto ↔ a.ipProto.toNat ≠ a2.ipProto.toNat :=
    ⟨fun h e => h (UInt8.toNat.inj e), fun h e => h (congrArg UInt8.toNat e)⟩
  have hlp : a.ipProto < a2.ipProto ↔ a.ipProto.toNat < a2.ipProto.toNat := Iff.rfl
  have hlq : a.dstPort < a2.dstPort ↔ a.dstPort.toNat < a2.dstPort.toNat := Iff.rfl
  unfold Attributes.less Attributes.key
  split_ifs with h1 h2 h3 <;> simp_all [Prod.Lex.lt_iff, Addr.less_iff]

/-! ## Labels and rows: a partial order -/

/-- `Labels.Less` with the timestamp test written out, for timestamps of one kind: `!=`
followed by `Before` is "an earlier reading", unless the timestamps are equal as Go values. -/
theorem Labels.less_iff {l l2 : Labels} (h : l.timestamp.sameClock l2.timestamp) :
    l.less l2 = true ↔ l.timestamp.clock < l2.timestamp.clock ∨
      l.timestamp = l2.timestamp ∧ toLex (l.hostname, l.iface) < toLex (l2.hostname, l2.iface) := by
  unfold Labels.less
  split_ifs with h1 h2 <;> simp_all [Time.before_iff h, Prod.Lex.lt_iff]

theorem Labels.less_trans {l₁ l₂ l₃ : Labels} (hc₁ : l₁.timestamp.sameClock l₂.timestamp)
    (hc₂ : l₂.timestamp.sameClock l₃.timestamp) (h₁ : l₁.less l₂ = true)
    (h₂ : l₂.less l₃ = true) : l₁.less l₃ = true := by
  rw [Labels.less_iff hc₁] at h₁
  rw [Labels.less_iff hc₂] at h₂
  rw [Labels.less_iff (hc₁.trans hc₂)]
  rcases h₁ with h₁ | ⟨e₁, h₁⟩ <;> rcases h₂ with h₂ | ⟨e₂, h₂⟩
  · exact .inl (h₁.trans h₂)
  · exact .inl (e₂ ▸ h₁)
  · exact .inl (e₁ ▸ h₂)
  · exact .inr ⟨e₁.trans e₂, h₁.trans h₂⟩

/-- `Row.Less` with its two tests written out. -/
theorem Row.less_iff (r r2 : Row) :
    r.less r2 = true ↔ r.attributes.key < r2.attributes.key ∨
      r.attributes = r2.attributes ∧ r.labels.less r2.labels = true := by
  unfold Row.less
  split_ifs with h
  · simp [h]
  · simp [h, Attributes.less_iff]

theorem Row.less_irrefl (r : Row) : r.less r = false := by
  rw [← Bool.not_eq_true, Row.less_iff, Labels.less_iff rfl]
  simp

theorem Row.less_trans {r₁ r₂ r₃ : Row}
    (hc₁ : r₁.labels.timestamp.sameClock r₂.labels.timestamp)
    (hc₂ : r₂.labels.timestamp.sameClock r₃.labels.timestamp) (h₁ : r₁.less r₂ = true)
    (h₂ : r₂.less r₃ = true) : r₁.less r₃ = true := by
  rw [Row.less_iff] at *
  rcases h₁ with h₁ | ⟨e₁, h₁⟩ <;> rcases h₂ with h₂ | ⟨e₂, h₂⟩
  · exact .inl (h₁.trans h₂)
  · exact .inl (e₂ ▸ h₁)
  · exact .inl (e₁ ▸ h₂)
  · exact .inr ⟨e₁.trans e₂, Labels.less_trans hc₁ hc₂ h₁ h₂⟩

/-- **Incomparable rows.** Of two rows whose timestamps are of one kind, neither sorts before
the other exactly when the attributes are equal, the timestamps have one reading, and, if the
timestamps are equal as Go values, hostname and interface are equal too. -/
theorem Row.incomparable_iff {r r2 : Row} (hc : r.labels.timestamp.sameClock r2.labels.timestamp) :
    (r.less r2 = false ∧ r2.less r = false) ↔ r.attributes = r2.attributes ∧
      r.labels.timestamp.clock = r2.labels.timestamp.clock ∧
      (r.labels.timestamp = r2.labels.timestamp →
        r.labels.hostname = r2.labels.hostname ∧ r.labels.iface = r2.labels.iface) := by
  simp only [← Bool.not_eq_true, Row.less_iff, Labels.less_iff hc, Labels.less_iff hc.symm,
    not_or, not_and]
  constructor
  · rintro ⟨⟨ha, hl⟩, ⟨ha', hl'⟩⟩
    have hattr : r.attributes = r2.attributes :=
      Attributes.key_injective (le_antisymm (not_lt.mp ha') (not_lt.mp ha))
    obtain ⟨hi, hs⟩ := hl hattr
    obtain ⟨hi', hs'⟩ := hl' hattr.symm
    refine ⟨hattr, le_antisymm (not_lt.mp hi') (not_lt.mp hi), fun ht => ?_⟩
    have e := le_antisymm (not_lt.mp (hs' ht.symm)) (not_lt.mp (hs ht))
    simpa using e
  · rintro ⟨hattr, hi, hs⟩
    refine ⟨⟨by rw [hattr]; exact lt_irrefl _, fun _ => ⟨by omega, fun ht => ?_⟩⟩,
      ⟨by rw [hattr]; exact lt_irrefl _, fun _ => ⟨by omega, fun ht => ?_⟩⟩⟩
    · rw [(hs ht).1, (hs ht).2]; exact lt_irrefl _
    · rw [(hs ht.symm).1, (hs ht.symm).2]; exact lt_irrefl _

/-- **`Row.Less` is a strict partial order on rows of one kind of timestamp.** It is
irreflexive, transitive on rows whose timestamps all carry a monotonic reading or all carry
none, with incomparable rows as `Row.incomparable_iff` says; on such rows whose timestamps of
one reading are equal as Go values, incomparability is transitive too, so `Row.Less` is a
strict weak order there. With mixed readings it is not transitive: `Before` compares the
monotonic readings of two times that both have one and the instants otherwise, and three rows
sort in a cycle. -/
theorem row_less_strict_partial_order :
    (∀ r : Row, r.less r = false) ∧
      (∀ r₁ r₂ r₃ : Row, r₁.labels.timestamp.sameClock r₂.labels.timestamp →
        r₂.labels.timestamp.sameClock r₃.labels.timestamp →
        r₁.less r₂ = true → r₂.less r₃ = true → r₁.less r₃ = true) ∧
      (∀ r r2 : Row, r.labels.timestamp.sameClock r2.labels.timestamp →
        ((r.less r2 = false ∧ r2.less r = false) ↔ r.attributes = r2.attributes ∧
          r.labels.timestamp.clock = r2.labels.timestamp.clock ∧
          (r.labels.timestamp = r2.labels.timestamp →
            r.labels.hostname = r2.labels.hostname ∧ r.labels.iface = r2.labels.iface))) ∧
      (∀ r₁ r₂ r₃ : Row, r₁.labels.timestamp.sameClock r₂.labels.timestamp →
        r₂.labels.timestamp.sameClock r₃.labels.timestamp →
        (∀ x ∈ [r₁, r₂, r₃], ∀ y ∈ [r₁, r₂, r₃],
          x.labels.timestamp.clock = y.labels.timestamp.clock →
            x.labels.timestamp = y.labels.timestamp) →
        (r₁.less r₂ = false ∧ r₂.less r₁ = false) → (r₂.less r₃ = false ∧ r₃.less r₂ = false) →
          r₁.less r₃ = false ∧ r₃.less r₁ = false) ∧
      ∃ r₁ r₂ r₃ : Row, r₁.less r₂ = true ∧ r₂.less r₃ = true ∧ r₃.less r₁ = true := by
  refine ⟨Row.less_irrefl, fun _ _ _ => Row.less_trans, fun _ _ => Row.incomparable_iff,
    fun r₁ r₂ r₃ hc₁ hc₂ htime h₁₂ h₂₃ => ?_, ?_⟩
  · obtain ⟨ha₁, hi₁, hs₁⟩ := (Row.incomparable_iff hc₁).mp h₁₂
    obtain ⟨ha₂, hi₂, hs₂⟩ := (Row.incomparable_iff hc₂).mp h₂₃
    have ht₁ := htime r₁ (by simp) r₂ (by simp) hi₁
    have ht₂ := htime r₂ (by simp) r₃ (by simp) hi₂
    refine (Row.incomparable_iff (hc₁.trans hc₂)).mpr ⟨ha₁.trans ha₂, hi₁.trans hi₂, fun _ => ?_⟩
    exact ⟨(hs₁ ht₁).1.trans (hs₂ ht₂).1, (hs₁ ht₁).2.trans (hs₂ ht₂).2⟩
  · -- a time with a monotonic reading of 2, a later instant with none, and a later instant still
    -- with a monotonic reading of 1
    let attrs : Attributes := ⟨⟨32, 0x0a000001, ""⟩, ⟨32, 0x0a000002, ""⟩, 6, 443⟩
    let row (t : Time) : Row := ⟨⟨t, "eth0", "alpha", ""⟩, attrs, 0⟩
    exact ⟨row ⟨0, 0, some 2⟩, row ⟨1, 0, none⟩, row ⟨2, 0, some 1⟩, by decide, by decide,
      by decide⟩

/-- Three rows with one timestamp instant: `a` and `b` differ only in the timestamp's location,
`a` and `c` only in the hostname. `a` sorts before `c`, while `b` is incomparable with both. -/
theorem incomparable_rows_not_transitive :
    let attrs : Attributes := ⟨⟨32, 0x0a000001, ""⟩, ⟨32, 0x0a000002, ""⟩, 6, 443⟩
    let t₁ : Time := ⟨1700000000000000000, 0, none⟩
    let t₂ : Time := ⟨1700000000000000000, 1, none⟩
    let a : Row := ⟨⟨t₁, "eth0", "alpha", ""⟩, attrs, 0⟩
    let b : Row := ⟨⟨t₂, "eth0", "alpha", ""⟩, attrs, 0⟩
    let c : Row := ⟨⟨t₁, "eth0", "beta", ""⟩, attrs, 0⟩
    a.less b = false ∧ b.less a = false ∧ b.less c = false ∧ c.less b = false ∧
      a.less c = true := by
  refine ⟨by decide, by decide, by decide, by decide, (Row.less_iff _ _).mpr (.inr ⟨rfl, ?_⟩)⟩
  refine (Labels.less_iff (by decide)).mpr (.inr ⟨rfl, (Prod.Lex.lt_iff _ _).mpr ?_⟩)
  exact .inl (String.lt_iff_toList_lt.mpr (by decide))

end GoProbe
