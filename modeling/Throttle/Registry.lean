import Throttle.Config
import Throttle.Limiter

/-!
# The registry of routes

Every configured route has a limiter and counters of its own, and so has the route of all paths that
no configured prefix owns. A path belongs to the longest prefix that ends at the end of one of its
segments. A new configuration retunes the routes that stay, adds and drops the others, and keeps the
balance of a route whose policy stays the same.
-/

set_option autoImplicit false

namespace Throttle

/-! ## Routes -/

/-- A route in service. Its counters wrap around after 2^64. -/
structure Route where
  name : String
  limiter : Limiter
  maxWaitMs : UInt64
  admitted : UInt64
  rejected : UInt64
  deriving DecidableEq

namespace Route

/-- A route that was never used. -/
def ofPolicy (name : String) (policy : Policy) : Route where
  name
  limiter := .new policy.limit policy.burst
  maxWaitMs := policy.maxWaitMs
  admitted := 0
  rejected := 0

/-- The longest wait that a request on this route is held for. -/
def maxWait (r : Route) : Duration := .ofMillis r.maxWaitMs

/-- The route under a new policy. Only what differs is replaced, the limit before the burst. -/
def retune (r : Route) (now : Instant) (policy : Policy) : Route :=
  let limiter :=
    if r.limiter.limit = policy.limit then r.limiter else r.limiter.setLimit now policy.limit
  let limiter :=
    if limiter.burst = policy.burst then limiter else limiter.setBurst now policy.burst
  { r with limiter, maxWaitMs := policy.maxWaitMs }

end Route

/-! ## Prefixes -/

/-- Whether a prefix owns a path: it is the whole path or ends where a segment of it ends. -/
def ownsPath (route path : String) : Bool :=
  let front := route.toList
  let rest := path.toList.drop front.length
  front.isPrefixOf path.toList &&
    (rest.isEmpty || front.getLast? = some '/' || rest.head? = some '/')

/-- Of two routes the one with the longer name, in bytes; of equally long ones the second. -/
def longer (r s : Route) : Route :=
  if s.name.utf8ByteSize < r.name.utf8ByteSize then r else s

/-! ## Registries -/

/-- The name of the route of all other paths. -/
def fallbackName : String := "*"

structure Registry where
  routes : List Route
  /-- The route of the paths that no other route owns. -/
  fallback : Route
  deriving DecidableEq

namespace Registry

def ofConfig (config : Config) : Registry where
  routes := config.routes.entries.map fun (name, policy) => .ofPolicy name policy
  fallback := .ofPolicy fallbackName config.defaultPolicy

/-- All routes, the fallback last. -/
def all (reg : Registry) : List Route := reg.routes ++ [reg.fallback]

/-- The configured route that owns a path, if there is one: the longest. -/
def owner? (routes : List Route) (path : String) : Option Route :=
  (routes.filter (ownsPath ·.name path)).foldl
    (fun best r => some (match best with
      | none => r
      | some b => longer b r))
    none

/-- The route of a path. -/
def resolve (reg : Registry) (path : String) : Route :=
  (owner? reg.routes path).getD reg.fallback

/-- Changes the route of a path, and no other. -/
def update (reg : Registry) (path : String) (change : Route → Route) : Registry :=
  match owner? reg.routes path with
  | some r =>
    { reg with routes := reg.routes.map fun s => if s.name = r.name then change s else s }
  | none => { reg with fallback := change reg.fallback }

/-- The registry under a new configuration. -/
def reconcile (reg : Registry) (now : Instant) (config : Config) : Registry where
  routes := config.routes.entries.map fun (name, policy) =>
    match reg.routes.find? (·.name = name) with
    | some r => r.retune now policy
    | none => .ofPolicy name policy
  fallback := reg.fallback.retune now config.defaultPolicy

end Registry

end Throttle
