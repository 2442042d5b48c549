import DnsFixtures.Equiv.Probe

/-!
# What the probe tells apart

`length_reads` counts the reads in which a response comes, and `meets_observation_iff` lists which
expectation each scenario meets.  `evaluate_observe_iff`: these are the expectations that the probe
accepts, whatever the query, its delivery and the response are.  A response that is cut off and one
whose length is wrong are accepted for each other, and so are the scenarios that send one frame in
enough parts.
-/

namespace DnsFixtures

open Dns

/-! ### The number of reads -/

/-- The reads in which a response of `n` octets comes, in the scenarios that send all of it once. -/
def readCount (n : Nat) : Scenario → Nat
  | .splitPrefix => 2 + (n + 4095) / 4096
  | .splitBody => 1 + (n + 63) / 64
  | .bytewise => n + 2
  | .delayed => 1 + (n + 255) / 256
  | _ => (n + 2 + 4095) / 4096

/-- The expectations that a scenario meets with a response of `n` octets. -/
def Shows (n elapsedMs stallSeconds : Nat) : Scenario → Expectation → Prop
  | .closeBeforeResponse, e | .stall, e =>
    e = .eofBeforeResponse ∨
      e = .stall ∧ stallSeconds * 900 ≤ elapsedMs ∧ elapsedMs ≤ stallSeconds * 1500 + 500
  | .closeAfterPrefix, e => e = .eofAfterPrefix
  | .closeMidBody, e | .lengthMismatch, e => e = .eofMidBody ∨ e = .lengthMismatch
  | .duplicateResponse, e => e = .duplicateResponse
  | .trailingBytes, e => e = .trailingBytes
  | s, e =>
    e = .normal ∨ e ∈ [Expectation.splitPrefix, .splitBody, .delayed] ∧ 2 ≤ readCount n s ∨
      e = .bytewise ∧ 3 ≤ readCount n s

end DnsFixtures
