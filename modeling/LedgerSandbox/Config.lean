/-!
# Configuration

The bounds that a sandbox puts on guests: memory, table, fuel, time, and the
sizes of what passes between guest and host. Time is checked in ticks, so a
deadline is rounded up to whole ticks (`Config.deadlineTicks`).
-/

namespace LedgerSandbox

/-- Nanoseconds in a second. -/
def nanosPerSecond : Nat := 1000000000

/-- A span of time: whole seconds and the nanoseconds of a last, incomplete one. -/
structure Duration where
  seconds : UInt64
  nanos : Nat
  nanos_lt : nanos < nanosPerSecond := by decide

namespace Duration

/-- The span in nanoseconds. -/
def toNanos (d : Duration) : Nat := d.seconds.toNat * nanosPerSecond + d.nanos

/-- A span of seconds and nanoseconds, of which any number is allowed. -/
def ofParts (seconds nanos : Nat) : Duration where
  seconds := UInt64.ofNat (seconds + nanos / nanosPerSecond)
  nanos := nanos % nanosPerSecond
  nanos_lt := Nat.mod_lt _ (by decide)

end Duration

/-- Bounds on the sizes that one host call may name. -/
structure HostLimits where
  /-- The longest key of a guest, in bytes. -/
  maxKeyLen : Nat := 256
  /-- The longest value that a guest may store. -/
  maxValueLen : Nat := 65536
  /-- The longest message that a guest may print; longer ones are dropped. -/
  maxPrintLen : Nat := 4096
  /-- The longest result that a guest may return. -/
  maxResultLen : Nat := 65536

/-- The size of a page of guest memory in bytes. -/
def pageSize : Nat := 65536

/-- The configuration of a sandbox. -/
structure Config where
  /-- The most pages that a guest's memory may have. -/
  memoryPages : Nat := 128
  /-- The most elements that a guest's table may have. -/
  tableSize : Nat := 65536
  /-- Whether guests may use floating-point types and instructions. -/
  allowFloats : Bool := true
  /-- How many instructions an invocation may run. -/
  fuel : Nat := 100000000
  /-- How long an invocation may take, if that is bounded. -/
  deadline : Option Duration := some ⟨5, 0, by decide⟩
  /-- How often the time is looked at. -/
  tick : Duration := ⟨0, 10000000, by decide⟩
  /-- Bounds on host calls. -/
  limits : HostLimits := {}
  /-- The entry function that an installation runs. -/
  initEntry : String := "init"

namespace Config

/-- The most bytes that a guest's memory may have. -/
def memoryBytes (config : Config) : Nat := config.memoryPages * pageSize

/-- The length of a tick in nanoseconds, at least one. -/
def tickNanos (config : Config) : Nat := max config.tick.toNanos 1

/-- The ticks that the deadline spans, rounded up and at least one, as a 64-bit
counter holds them. -/
def deadlineTicks (config : Config) : Option UInt64 :=
  config.deadline.map fun deadline =>
    UInt64.ofNat (max ((deadline.toNanos + config.tickNanos - 1) / config.tickNanos) 1)

end Config

end LedgerSandbox
