import Throttle.Numeral.Decimal
import Throttle.Time

/-!
# Durations in text

A duration is written exactly, in the largest unit of which it holds at least one.
-/

set_option autoImplicit false

namespace Throttle.Duration

/-- Digits with a point before the last `places` of them, without zeros at the end of the
fraction. -/
def exactText (digits places : Nat) : String :=
  let text := (Numeral.pointed digits places).toList
  let fraction := ((text.dropWhile (· != '.')).reverse.dropWhile fun c => c = '0' || c = '.').reverse
  String.ofList (text.takeWhile (· != '.') ++ fraction)

def text (d : Duration) : String :=
  if 1_000_000_000 ≤ d.nanos then exactText d.nanos 9 ++ "s"
  else if 1_000_000 ≤ d.nanos then exactText d.nanos 6 ++ "ms"
  else if 1_000 ≤ d.nanos then exactText d.nanos 3 ++ "µs"
  else exactText d.nanos 0 ++ "ns"

end Throttle.Duration
