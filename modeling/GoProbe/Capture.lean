import Mathlib.Data.BitVec
import Mathlib.Data.List.Basic
import Mathlib.Data.String.Basic

/-!
# The capture state machine

`capture.go`: one `Capture` per network interface, driven by a worker that runs the state
functions `initializing`, `capturing`, `inError` and `closing` until one returns nil. Commands
from the public methods arrive on `cmdChan`; errors of the packet task on `captureErrors`.

The worker is a program counter (`WorkerPc`): about to call a state function, blocked in the
`select` of `capturing` or of `inError`'s loop, or returned from `Run`. `WorkerPc.receive` is
what it does with the one thing its `select` (or the source creation of `initializing`) gets,
followed by the steps it takes without waiting. `Capture.run` feeds it a sequence of such
inputs. The model keeps the fields of `Capture` that these functions read and write; logging
is left out.

Three types the file uses are not in the source: `config.CaptureConfig`, `CaptureStats` and
`sub`. They are modelled from the spec and from how the code uses them.

* **The loop stops on a command** (`run_returned`):
  `capturing` returns nil when a command's `execute` returns nil, so `Run` returns with the
  capture still open.
* **Rotation deltas after a failed read** (`rotate_after_failed_read`): a failed `Stats()`
  read makes `sub` wrap around and resets the baseline to zero, so the next rotation counts
  again what the previous ones reported.
-/

namespace GoProbe

/-! ## Data -/

/-- `ErrorThreshold`: the consecutive decoding failures tolerated before the packet task
gives up. -/
def ErrorThreshold : Nat := 10000

/-- `State`, the activity state of a capture. -/
inductive State where
  /-- the zero value `State(0)`, which `String` prints as `Unknown`: a new capture's state
  until `initializing` sets it -/
  | unset
  | initializing
  | capturing
  | closing
  | error
  deriving DecidableEq, Repr

/-- Modelled from the spec: `config.CaptureConfig` is not in the source. The model keeps the
fields `initializing` reads; `needReinitialization` compares whole values. -/
structure CaptureConfig where
  bufferSize : Int
  promisc : Bool
  deriving DecidableEq, Repr

/-- Modelled from the spec: `CaptureStats` is not in the source. The spec gives its two
counters; they are unsigned 64-bit. -/
structure CaptureStats where
  packetsReceived : BitVec 64
  packetsDropped : BitVec 64
  deriving DecidableEq, Repr

/-- The zero value `CaptureStats{}`. -/
def CaptureStats.zero : CaptureStats := ⟨0, 0⟩

/-- Modelled from the spec: `sub` is not in the source. `sub(s1, s2)` subtracts `s2` from
`s1` counter by counter, in unsigned 64-bit arithmetic. -/
def sub (s1 s2 : CaptureStats) : CaptureStats :=
  ⟨s1.packetsReceived - s2.packetsReceived, s1.packetsDropped - s2.packetsDropped⟩

/-- `Stats`: source counters and logged packets (Go `int`, kept unbounded). -/
structure Stats where
  captureStats : CaptureStats
  packetsLogged : Int
  deriving DecidableEq, Repr

/-- `Status`: what the `Status` command returns. -/
structure Status where
  state : State
  stats : Stats
  deriving DecidableEq, Repr

/-- `ErrorMap`, a Go `map[string]int`: its entries, whose keys are distinct. -/
structure ErrorMap where
  entries : List (String × Nat)
  nodup : (entries.map Prod.fst).Nodup
  deriving DecidableEq, Repr

/-- `make(map[string]int)`. -/
def ErrorMap.empty : ErrorMap := ⟨[], List.nodup_nil⟩

/-- `errMap[err]`: the count under `err`, or 0. -/
def ErrorMap.get (e : ErrorMap) (err : String) : Nat :=
  match e.entries.find? (fun p => p.1 == err) with
  | some p => p.2
  | none => 0

/-- One more `err` on an entry: the count of the entry for `err` grows by one. -/
def ErrorMap.bump (err : String) (p : String × Nat) : String × Nat :=
  if p.1 == err then (p.1, p.2 + 1) else p

theorem ErrorMap.fst_bump (err : String) (p : String × Nat) : (bump err p).1 = p.1 := by
  unfold bump; split <;> rfl

/-- `errMap[err]++`: bump the entry for `err`, or add one. -/
def ErrorMap.incr (e : ErrorMap) (err : String) : ErrorMap :=
  if h : e.entries.any (fun p => p.1 == err) then
    ⟨e.entries.map (bump err), by simpa [Function.comp_def, fst_bump] using e.nodup⟩
  else
    ⟨e.entries ++ [(err, 1)], by
      rw [List.map_append, List.nodup_append]
      exact ⟨e.nodup, List.nodup_singleton _, by simpa using h⟩⟩

/-- `ErrorMap.String`: the entries as `err (count)`, sorted, joined by `"; "`. -/
def ErrorMap.render (e : ErrorMap) : String :=
  String.intercalate "; " ((e.entries.map fun p => p.1 ++ " (" ++ toString p.2 ++ ")").mergeSort
    fun a b => decide (a ≤ b))

/-- The commands of the public methods (`Close` is the context's cancellation). -/
inductive Command where
  | status
  | errors
  | flows
  | update (config : CaptureConfig)
  | rotate
  deriving DecidableEq, Repr

/-- What a command sends back on its reply channel (`Flows`' flow log is left out). -/
inductive Reply where
  | status (s : Status)
  | errors (e : ErrorMap)
  | flows
  | done
  | rotate (stats : Stats)
  deriving DecidableEq, Repr

/-- The fields of a `Capture` the state machine reads and writes. The capture source is named
by the number of sources created before it; `cmdOpen` is false once `cmdChan` is closed. The
flow log is left out: a packet is added to it exactly when `packetsLogged` grows. -/
structure Capture where
  closed : Bool
  state : State
  config : CaptureConfig
  cmdOpen : Bool
  lastRotationStats : Stats
  packetsLogged : Nat
  captureHandle : Option Nat
  sources : Nat
  errMap : ErrorMap
  deriving DecidableEq, Repr

/-- `NewCapture`. -/
def newCapture (config : CaptureConfig) : Capture :=
  ⟨false, .unset, config, true, ⟨.zero, 0⟩, 0, none, 0, .empty⟩

/-! ## Commands -/

/-- `tryGetCaptureStats`, given what `Stats()` returns (`none`: an error). A failed read and
a missing source both give zeros. -/
def tryGetCaptureStats (c : Capture) (read : Option CaptureStats) : CaptureStats :=
  if c.captureHandle.isSome then read.getD .zero else .zero

/-- `reset`: close the source, zero the source part of `lastRotationStats`, clear `errMap`. -/
def Capture.reset (c : Capture) : Capture :=
  { c with lastRotationStats := { c.lastRotationStats with captureStats := .zero },
           captureHandle := none, errMap := .empty }

/-- `needReinitialization`. -/
def Capture.needReinitialization (c : Capture) (config : CaptureConfig) : Bool :=
  c.config != config

/-- The stats `Rotate` returns: its read of `Stats()` less the baseline, and the first read of
`packetsLogged` less the baseline's. -/
def rotateResult (c : Capture) (stats : CaptureStats) : Stats :=
  ⟨sub stats c.lastRotationStats.captureStats,
    (c.packetsLogged : Int) - c.lastRotationStats.packetsLogged⟩

/-- The baseline `Rotate` installs: its read of `Stats()` and a second read of
`packetsLogged`. -/
def rotateBaseline (c : Capture) (stats : CaptureStats) : Stats :=
  ⟨stats, c.packetsLogged⟩

/-- The state functions. -/
inductive StateFn where
  | initializing
  | capturing
  | inError
  | closing
  deriving DecidableEq, Repr

/-- `execute` of each command, given what `Stats()` returns: the capture afterwards, the next
state function (`none`: nil), and the reply. -/
def Command.execute (cmd : Command) (c : Capture) (read : Option CaptureStats) :
    Capture × Option StateFn × Reply :=
  match cmd with
  | .status =>
    (c, none, .status ⟨c.state, ⟨tryGetCaptureStats c read,
      (c.packetsLogged : Int) - c.lastRotationStats.packetsLogged⟩⟩)
  | .errors => (c, none, .errors c.errMap)
  | .flows => (c, none, .flows)
  | .update config =>
    if c.needReinitialization config then ({ c.reset with config := config }, some .initializing, .done)
    else (c, none, .done)
  | .rotate =>
    let stats := tryGetCaptureStats c read
    ({ c with lastRotationStats := rotateBaseline c stats }, none, .rotate (rotateResult c stats))

/-! ## The worker -/

/-- Where the worker is. -/
inductive WorkerPc where
  /-- about to call a state function -/
  | call (f : StateFn)
  /-- blocked in the `select` of `capturing`, or of `inError`'s loop -/
  | selecting (f : StateFn)
  /-- `Run` has returned -/
  | returned
  deriving DecidableEq, Repr

/-- What the worker receives. -/
inductive Input where
  /-- the source creation of `initializing` succeeds or fails -/
  | sourceCreated (ok : Bool)
  /-- the `select` takes `ctx.Done()` -/
  | cancelled
  /-- the `select` takes a command, and `Stats()` returns `read` if the command asks -/
  | command (cmd : Command) (read : Option CaptureStats)
  /-- the `select` of `capturing` takes an error of the packet task -/
  | captureError (err : String)
  deriving DecidableEq, Repr

/-- `closing`: reset, close `cmdChan`, mark the capture closed. -/
def Capture.closing (c : Capture) : Capture :=
  { c.reset with state := .closing, cmdOpen := false, closed := true }

/-- The steps the worker takes without waiting: `capturing` up to its `select` (the packet
task it starts is not part of this sequential model), `inError` up to its loop, `closing`. -/
def WorkerPc.settle (c : Capture) : WorkerPc → Capture × WorkerPc
  | .call .capturing => ({ c with state := .capturing }, .selecting .capturing)
  | .call .inError => ({ c with state := .error }, .selecting .inError)
  | .call .closing => (c.closing, .returned)
  | pc => (c, pc)

/-- Where a `select` leads after a command: its next state, or for nil, `inError`'s loop
again, or out of `capturing`. -/
def afterCommand (f : StateFn) : Option StateFn → WorkerPc
  | some g => .call g
  | none => if f = .inError then .selecting .inError else .returned

/-- `initializing`, given whether `NewRingBufSource` succeeds: the capture and the next state
function. On failure `captureHandle` is set to the nil source returned. -/
def Capture.initializing (c : Capture) (ok : Bool) : Capture × StateFn :=
  let c₁ := { c with state := .initializing }
  if ok then ({ c₁ with captureHandle := some c.sources, sources := c.sources + 1 }, .capturing)
  else ({ c₁ with captureHandle := none }, .inError)

/-- What the worker does with an input, then the steps it takes without waiting; `none` when
it is not waiting for that input. -/
def WorkerPc.receive (c : Capture) : WorkerPc → Input → Option (Capture × WorkerPc)
  | .call .initializing, .sourceCreated ok =>
    let r := c.initializing ok
    some (WorkerPc.settle r.1 (.call r.2))
  | .selecting _, .cancelled => some (WorkerPc.settle c (.call .closing))
  | .selecting f, .command cmd read =>
    let r := cmd.execute c read
    some (WorkerPc.settle r.1 (afterCommand f r.2.1))
  | .selecting .capturing, .captureError _ => some (WorkerPc.settle c (.call .inError))
  | _, _ => none

/-- The worker from `pc` over a sequence of inputs; `none` if one of them cannot be received
where the worker is. -/
def runFrom : Capture × WorkerPc → List Input → Option (Capture × WorkerPc)
  | s, [] => some s
  | (c, pc), i :: is => (pc.receive c i).bind fun s => runFrom s is

/-- `Run`: nothing on a closed capture, else the state functions from `initializing`. -/
def Capture.run (c : Capture) (inputs : List Input) : Option (Capture × WorkerPc) :=
  if c.closed then some (c, .returned) else runFrom (c, .call .initializing) inputs

/-! ## How `Run` returns -/

/-- What holds where the worker is: it has not closed the capture unless it went through
`closing`, it blocks only in the `select`s of `capturing` and `inError`, and in the first the
state is `StateCapturing`. -/
def WorkerInv : Capture × WorkerPc → Prop
  | (c, .returned) => (c.closed = true ∧ c.state = .closing ∧ c.cmdOpen = false) ∨
      (c.closed = false ∧ c.state = .capturing ∧ c.cmdOpen = true)
  | (c, .selecting .capturing) => c.closed = false ∧ c.cmdOpen = true ∧ c.state = .capturing
  | (c, .selecting .inError) => c.closed = false ∧ c.cmdOpen = true
  | (_, .selecting _) => False
  | (c, .call _) => c.closed = false ∧ c.cmdOpen = true

theorem closed_execute (cmd : Command) (c : Capture) (read : Option CaptureStats) :
    (cmd.execute c read).1.closed = c.closed ∧ (cmd.execute c read).1.cmdOpen = c.cmdOpen := by
  cases cmd
  case update config => simp only [Command.execute]; split <;> exact ⟨rfl, rfl⟩
  all_goals exact ⟨rfl, rfl⟩

/-- A command leaves the state alone unless it hands over to another state function. -/
theorem state_execute (cmd : Command) (c : Capture) (read : Option CaptureStats)
    (h : (cmd.execute c read).2.1 = none) : (cmd.execute c read).1.state = c.state := by
  cases cmd <;> simp only [Command.execute] at h ⊢
  split_ifs at h ⊢
  rfl

/-- Calling a state function on an open capture keeps the invariant. -/
theorem WorkerInv.settle_call {c : Capture} (h : c.closed = false ∧ c.cmdOpen = true) (g : StateFn) :
    WorkerInv ((WorkerPc.call g).settle c) := by
  cases g
  · exact h
  · exact ⟨h.1, h.2, rfl⟩
  · exact h
  · exact .inl ⟨rfl, rfl, rfl⟩

/-- The worker blocks only in the `select`s of `capturing` and `inError`, on an open capture. -/
theorem WorkerInv.selecting {c : Capture} {f : StateFn} (h : WorkerInv (c, .selecting f)) :
    c.closed = false ∧ c.cmdOpen = true ∧ (f = .capturing ∧ c.state = .capturing ∨ f = .inError) := by
  cases f
  · exact h.elim
  · exact ⟨h.1, h.2.1, .inl ⟨rfl, h.2.2⟩⟩
  · exact ⟨h.1, h.2, .inr rfl⟩
  · exact h.elim

theorem WorkerInv.receive {s s' : Capture × WorkerPc} {i : Input} (h : WorkerInv s)
    (hs : s.2.receive s.1 i = some s') : WorkerInv s' := by
  obtain ⟨c, pc⟩ := s
  dsimp only at hs
  unfold WorkerPc.receive at hs
  split at hs
  · -- `initializing` creates the source
    cases hs
    exact .settle_call (by unfold Capture.initializing; split <;> exact h) _
  · -- `ctx.Done()`
    cases hs
    exact .settle_call ⟨h.selecting.1, h.selecting.2.1⟩ _
  · -- a command
    rename_i f cmd read
    cases hs
    obtain ⟨hc, ho, hf⟩ := h.selecting
    have hex := closed_execute cmd c read
    cases hnext : (cmd.execute c read).2.1 with
    | some g => exact .settle_call ⟨hex.1.trans hc, hex.2.trans ho⟩ g
    | none =>
      rcases hf with ⟨rfl, hst⟩ | rfl
      · exact .inr ⟨hex.1.trans hc, (state_execute cmd c read hnext).trans hst, hex.2.trans ho⟩
      · exact ⟨hex.1.trans hc, hex.2.trans ho⟩
  · -- an error of the packet task
    cases hs
    exact .settle_call ⟨h.selecting.1, h.selecting.2.1⟩ _
  · cases hs

theorem WorkerInv.runFrom {s s' : Capture × WorkerPc} {inputs : List Input} (h : WorkerInv s)
    (hs : runFrom s inputs = some s') : WorkerInv s' := by
  induction inputs generalizing s with
  | nil => cases hs; exact h
  | cons i is ih =>
    obtain ⟨c, pc⟩ := s
    simp only [GoProbe.runFrom] at hs
    cases hr : pc.receive c i with
    | none => rw [hr] at hs; cases hs
    | some s₁ => rw [hr] at hs; exact ih (h.receive hr) hs

/-- **How `Run` returns.** On an open capture, whatever the inputs, `Run` returns either after
`closing` (closed, `StateClosing`, `cmdChan` closed) or straight out of `capturing`'s `select`
with the capture open and capturing. -/
theorem run_returned {c : Capture} (hc : c.closed = false) (ho : c.cmdOpen = true)
    {inputs : List Input} {c' : Capture} (h : c.run inputs = some (c', .returned)) :
    (c'.closed = true ∧ c'.state = .closing ∧ c'.cmdOpen = false) ∨
      (c'.closed = false ∧ c'.state = .capturing ∧ c'.cmdOpen = true) := by
  rw [Capture.run, if_neg (by simp [hc])] at h
  exact WorkerInv.runFrom (s := (c, .call .initializing)) ⟨hc, ho⟩ h

theorem run_returned_out_of_capturing :
    ∃ c', (newCapture ⟨0, false⟩).run [.sourceCreated true, .command .status none] =
        some (c', .returned) ∧
      ((c'.closed = true ∧ c'.state = .closing ∧ c'.cmdOpen = false) ∨
        (c'.closed = false ∧ c'.state = .capturing ∧ c'.cmdOpen = true)) := by
  obtain ⟨c', h⟩ : ∃ c', (newCapture ⟨0, false⟩).run [.sourceCreated true, .command .status none] =
      some (c', .returned) := ⟨_, rfl⟩
  exact ⟨c', h, run_returned rfl rfl h⟩

/-- `Run` returns after one `Status` taken by `capturing`, with the capture open. -/
theorem run_stops_after_status :
    (newCapture ⟨0, false⟩).run [.sourceCreated true, .command .status none] =
      some ({ newCapture ⟨0, false⟩ with state := .capturing, captureHandle := some 0, sources := 1 },
        .returned) := rfl

/-! ## Rotation deltas -/

/-- Three `Rotate`s in `inError`'s loop, reached by a capture error after the source was
created. `Stats()` reads 10 received packets, then fails, then reads 12: the deltas are 10,
`2^64 - 10`, and 12 for an increase of 2. -/
theorem rotate_after_failed_read :
    let c₀ : Capture :=
      { newCapture ⟨0, false⟩ with state := .error, captureHandle := some 0, sources := 1 }
    let r₁ := Command.rotate.execute c₀ (some ⟨10, 0⟩)
    let r₂ := Command.rotate.execute r₁.1 none
    let r₃ := Command.rotate.execute r₂.1 (some ⟨12, 0⟩)
    (newCapture ⟨0, false⟩).run [.sourceCreated true, .captureError "x"] =
        some (c₀, .selecting .inError) ∧
      runFrom (c₀, .selecting .inError) [.command .rotate (some ⟨10, 0⟩), .command .rotate none,
        .command .rotate (some ⟨12, 0⟩)] = some (r₃.1, .selecting .inError) ∧
      r₁.2.2 = .rotate ⟨⟨10, 0⟩, 0⟩ ∧ r₂.2.2 = .rotate ⟨⟨-10, 0⟩, 0⟩ ∧
      r₃.2.2 = .rotate ⟨⟨12, 0⟩, 0⟩ := by
  decide

end GoProbe
