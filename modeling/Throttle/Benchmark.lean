import Throttle.Benchmark.Sending
import Throttle.Environment
import Throttle.Numeral.Decimal
import Throttle.Numeral.Integer
import Throttle.Text.Terminal
import Throttle.Time.Text

/-!
# Benchmarks

A benchmark sends requests to a gateway at an even pace and compares the number of those admitted
with the tokens that the bucket had to give: its burst, and what it earned in the meantime. This
module holds the settings, the report and whole courses. Main statement: `Course.counts_taken`, every
request of a course is counted once.
-/

set_option autoImplicit false

namespace Throttle.Benchmark

/-! ## Settings -/

structure Settings where
  url : String
  seconds : UInt64
  spacing : Duration
  /-- The tokens per second of the bucket, if they are known. -/
  rate : Option Binary64
  burst : UInt64

def variableNames : List String :=
  ["TG_BENCH_URL", "TG_BENCH_SECS", "TG_BENCH_SPACING_US", "TG_BENCH_RATE", "TG_BENCH_BURST"]

/-- The settings in the environment. What is unset or cannot be read has its default. -/
def Settings.ofEnvironment (env : Environment) : Settings :=
  { url := (env.text? "TG_BENCH_URL").getD "http://127.0.0.1:8080/bench"
    seconds := (env.read? "TG_BENCH_SECS" Numeral.unsigned64?).getD 5
    spacing := .ofMicros (max 1 ((env.read? "TG_BENCH_SPACING_US" Numeral.unsigned64?).getD 500))
    rate := env.read? "TG_BENCH_RATE" Numeral.binary64?
    burst := (env.read? "TG_BENCH_BURST" Numeral.unsigned64?).getD 0 }

/-- The end of the time in which requests are sent, unless the clock's range ends before. -/
def Settings.deadline? (s : Settings) (start : Instant) : Option Instant :=
  start.add? (.ofWholeSeconds s.seconds)

/-! ## Reports -/

/-- The tokens that a bucket has to give within a time: its burst and what it earns. -/
def idealAdmitted (rate : Binary64) (burst : UInt64) (elapsed : Duration) : Binary64 :=
  Binary64.ofNat burst.toNat + elapsed.toSeconds * rate

inductive Level where
  | info
  | warn
  deriving DecidableEq

structure LogLine where
  level : Level
  message : String

/-- A line as it is logged, without commands to the terminal it may be read on. -/
def LogLine.text (line : LogLine) : String :=
  let level := match line.level with
    | .info => "INFO"
    | .warn => "WARN"
  level ++ " " ++ Text.harmless line.message

def count (n : UInt64) : String := String.ofList (Nat.toDigits 10 n.toNat)

def opening (s : Settings) : LogLine :=
  ⟨.info, "benchmarking " ++ s.url ++ " for " ++ count s.seconds ++ "s, one request every " ++
    s.spacing.text⟩

def summary (t : Tally) (elapsed : Duration) : LogLine :=
  ⟨.info, "finished in " ++ Numeral.fixedText 2 elapsed.toSeconds ++ "s admitted=" ++
    count t.admitted ++ " limited=" ++ count t.limited ++ " failed=" ++ count t.failed⟩

/-- The counts against a known rate. More than one admission above the ideal is worth a warning. -/
def comparison (rate : Binary64) (burst : UInt64) (t : Tally) (elapsed : Duration) :
    List LogLine :=
  let one := Binary64.ofNat 1
  let ideal := idealAdmitted rate burst elapsed
  let ratio := Binary64.ofNat t.admitted.toNat / ideal
  let compared : LogLine :=
    ⟨.info, "ideal burst + T*rate = " ++ Numeral.fixedText 1 ideal ++ ", admitted/ideal = " ++
      Numeral.fixedText 4 ratio⟩
  let excess : LogLine := ⟨.warn, "limiter admitted more than the bucket allows"⟩
  if one + one / Binary64.max ideal one < ratio then [compared, excess] else [compared]

def closing (s : Settings) (t : Tally) (elapsed : Duration) : List LogLine :=
  let compared := match s.rate with
    | some rate => comparison rate s.burst t elapsed
    | none => []
  let failures : List LogLine :=
    if 0 < t.failed then [⟨.warn, count t.failed ++ " requests failed outright"⟩] else []
  summary t elapsed :: compared ++ failures

/-! ## Courses -/

/-- What a benchmark meets, from its start until the last of its requests has ended. -/
structure Course where
  start : Instant
  turns : List Turn
  finish : Instant

namespace Course

def tally? (c : Course) (s : Settings) : Option Tally :=
  (s.deadline? c.start).map fun deadline => (sendUntil deadline {} c.turns).drain Fate.status

/-- The lines that are logged, if the time in which requests are sent has an end. -/
def report? (c : Course) (s : Settings) : Option (List LogLine) :=
  (c.tally? s).map fun t => opening s :: closing s t (c.finish.since c.start)

/-- The turns that send a request. -/
def taken (c : Course) (deadline : Instant) : List Turn :=
  c.turns.takeWhile (·.now < deadline)

/-- Every request that was sent is counted once, by what became of it, no matter when it ended and how the
clock ran. -/
theorem counts_taken {c : Course} {s : Settings} {deadline : Instant} (h : s.deadline? c.start = some deadline) :
    ∃ t, c.tally? s = some t ∧ ∀ o, t.count o = UInt64.ofNat ((c.taken deadline).countP
      fun turn => Outcome.ofStatus turn.request.status = o) := by
  have ht : c.tally? s = some ((sendUntil deadline {} c.turns).drain Fate.status) := by
    unfold tally?
    rw [h, Option.map_some]
  refine ⟨_, ht, fun o => ?_⟩
  rw [Progress.count_drain, count_sendUntil, Progress.count_empty, UInt64.zero_add]
  rfl

/-- The first request ends after the second, and the third turn begins when the time is up. -/
example :
    let course : Course := {
      start := { nanos := 0 }
      turns := [
        ⟨{ nanos := 0 }, ⟨{ nanos := 3_000_000_000 }, some 200⟩, { nanos := 100 }⟩,
        ⟨{ nanos := 500_000_000 }, ⟨{ nanos := 600_000_000 }, some 429⟩, { nanos := 700_000_000 }⟩,
        ⟨{ nanos := 1_000_000_000 }, ⟨{ nanos := 1_000_000_000 }, some 200⟩, { nanos := 1_000_000_000 }⟩]
      finish := { nanos := 3_000_000_000 } }
    course.tally? { url := "", seconds := 1, spacing := .ofMicros 500, rate := none, burst := 0 } =
      some { admitted := 1, limited := 1 } := by decide

end Course

end Throttle.Benchmark
