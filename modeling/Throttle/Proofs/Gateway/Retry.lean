import Throttle.Proofs.Bucket.Retry
import Throttle.Proofs.Gateway.Hold
import Throttle.Proofs.Gateway.Isolation
import Throttle.Proofs.Gateway.Neutrality

/-!
# Requests that are sent again

A refusal tells its wait in whole milliseconds, the rest cut off. A client that waits a millisecond
more, and for long waits the roundings of double precision, is not refused again. Main statement:
`retry_admitted`; the three runs of `retry_refused_at_advertised_wait` show that none of this can be
left out.
-/

set_option autoImplicit false

namespace Throttle
open Http

theorem Duration.nanos_lt_of_wholeMillis (d : Duration) : d.nanos + 1 ≤ (d.wholeMillis + 1) * 1_000_000 := by
  unfold wholeMillis
  omega

/-- A wait that is told is that of an exhausted bucket; below the greatest number it is cut off to whole
milliseconds. -/
theorem Http.Response.wait_of_retryAfterMs? {answer : Response} {ms : ℕ} (h : answer.retryAfterMs? = some ms)
    (hms : ms < 2 ^ 64 - 1) :
    ∃ wait, answer = .refused .exhausted wait ∧ wait < .forever ∧ wait.nanos + 1 ≤ (ms + 1) * 1_000_000 := by
  cases answer with
  | refused reason wait =>
    obtain ⟨rfl, hwait, hcut⟩ := retryAfterMs?_eq_some_iff.1 h
    have hmillis : ms = wait.wholeMillis := by
      have hsize : UInt64.size = 2 ^ 64 := rfl
      omega
    exact ⟨wait, rfl, hwait, hmillis ▸ wait.nanos_lt_of_wholeMillis⟩
  | healthy => cases h
  | status report => cases h
  | headOnly => cases h
  | noSuchPath => cases h
  | wrongMethod => cases h
  | admitted path cost wait => cases h

theorem Service.admitted_again {s : Service} {now again due : Instant} {path : String} {cost : UInt64}
    {wait : Duration} (h : s.answer now path cost = .refused .exhausted wait) (hwait : wait < .forever)
    (hdue : now.nanos + wait.nanos + 1 + s.limiter.limit.roundingNanos cost ≤ due.nanos)
    (hagain : due.nanos ≤ again.nanos + (Duration.ofMillis s.maxWaitMs).nanos) :
    (s.answer again path cost).statusCode = 200 := by
  rcases s.answer_cases now path cost with ⟨_, _, _, _, hadmitted, _⟩ | ⟨reason, delay, _, hrefused, hfirst⟩
  · rw [hadmitted] at h
    cases h
  · rw [hrefused] at h
    cases h
    rcases s.answer_cases again path cost with ⟨_, _, _, _, hadmitted, _⟩ | ⟨_, _, _, _, hsecond⟩
    · rw [hadmitted]
      rfl
    · exact absurd hsecond (hfirst.not_again hwait hdue hagain)

namespace Gateway

/-- A refusal leaves the service of its path as it is. -/
theorem service_resolve_of_refused {g : Gateway} (hnodup : g.registry.names.Nodup) {now : Instant} {r : Request}
    {path : String} (h : (g.request now r).1.statusCode = 429) :
    ((g.request now r).2.registry.resolve path).service = (g.registry.resolve path).service := by
  have hagree : Agree (g.registry.keyOf path) (g.step now (.request r)).2 g := (agree_refl hnodup).skip (.inl h)
  have hsame := hagree.service
  rw [← hagree.keyOf path, service?_keyOf hagree.nodup, hagree.keyOf path, service?_keyOf hnodup] at hsame
  exact Option.some.inj hsame

/-- In every state that a run of requests and reloads reaches: if a request is refused and told to
wait `ms` milliseconds, and the same request is sent again, with nothing in between, when a millisecond
more and the roundings of double precision have passed, or will have passed within the longest wait of
its route, it is admitted. -/
theorem retry_admitted (config : Config) (events : List (Instant × Event)) (now again due : Instant) (r : Request)
    (path : String) (ms : ℕ) (hpath : admissionPath? r = some path) :
    let g := (ofConfig config).after events
    let route := g.registry.resolve path
    let first := g.request now r
    first.1.statusCode = 429 → first.1.retryAfterMs? = some ms → ms < 2 ^ 64 - 1 →
      now.nanos + (ms + 1) * 1_000_000 + route.limiter.limit.roundingNanos r.headers.cost ≤ due.nanos →
      due.nanos ≤ again.nanos + (Duration.ofMillis route.maxWaitMs).nanos →
        (first.2.request again r).1.statusCode = 200 := by
  intro g route first hrefused htold hms hdue hagain
  obtain ⟨wait, hanswer, hwait, hnanos⟩ := Response.wait_of_retryAfterMs? htold hms
  have hservice : (first.2.registry.resolve path).service = route.service :=
    service_resolve_of_refused (mirrors_after config events).nodup hrefused
  have hfirst : route.service.answer now path r.headers.cost = .refused .exhausted wait := by
    rw [← hanswer]
    show _ = (g.request now r).1
    rw [request_of_admission hpath, admission_answer]
  rw [request_of_admission hpath, admission_answer, hservice]
  refine Service.admitted_again hfirst hwait ?_ hagain
  rw [Route.limiter_service]
  omega

/-- At three tokens a second the wait of a third of a second is told as 333 ms, and is over 334 ms later, of
which the last five may be waited for on the route. -/
theorem retry_admitted_after_third :
    let policy : Policy := { ratePerSec := some (Binary64.ofNat 3), maxWaitMs := 5 }
    let config : Config := { listener := ⟨"127.0.0.1", 8080⟩, defaultPolicy := policy }
    let get : Request := ⟨.get, "/x", []⟩
    let now : Instant := { nanos := 0 }
    let again : Instant := { nanos := 329_000_000 }
    let due : Instant := { nanos := 334_000_000 }
    let g := (ofConfig config).after [(now, .request get)]
    let route := g.registry.resolve "/x"
    let first := g.request now get
    admissionPath? get = some "/x" ∧ first.1.statusCode = 429 ∧ first.1.retryAfterMs? = some 333 ∧
      now.nanos + (333 + 1) * 1_000_000 + route.limiter.limit.roundingNanos get.headers.cost ≤ due.nanos ∧
      due.nanos ≤ again.nanos + (Duration.ofMillis route.maxWaitMs).nanos ∧
        (first.2.request again get).1.statusCode = 200 := by
  intro policy config get now again due g route first
  have hpath : admissionPath? get = some "/x" := by decide +kernel
  have hrefused : first.1.statusCode = 429 := by decide +kernel
  have htold : first.1.retryAfterMs? = some 333 := by decide +kernel
  have hdue : now.nanos + (333 + 1) * 1_000_000 + route.limiter.limit.roundingNanos get.headers.cost ≤ due.nanos := by
    decide +kernel
  have hagain : due.nanos ≤ again.nanos + (Duration.ofMillis route.maxWaitMs).nanos := by decide +kernel
  exact ⟨hpath, hrefused, htold, hdue, hagain,
    retry_admitted config [(now, .request get)] now again due get "/x" 333 hpath hrefused htold (by decide) hdue hagain⟩

/-- Who waits just as long as told may be refused again: where the wait was cut off to whole milliseconds,
where it was cut off to 64 bits, and, after one more millisecond, where it is so long that double precision
misses it by more. -/
theorem retry_refused_at_advertised_wait :
    let told (rate : Binary64) (instants : List Instant) : List (ℕ × Option ℕ) :=
      let policy : Policy := { ratePerSec := some rate }
      let config : Config := { listener := ⟨"127.0.0.1", 8080⟩, defaultPolicy := policy }
      ((ofConfig config).answers (instants.map fun now => (now, .request ⟨.get, "/x", []⟩))).map
        fun answer => (answer.statusCode, answer.retryAfterMs?)
    told (Binary64.ofNat 3) [{ nanos := 0 }, { nanos := 0 }, { nanos := 333_000_000 }] =
        [(200, none), (429, some 333), (429, some 0)] ∧
      told (Binary64.ofRat (1 / 10 ^ 17)) [{ nanos := 0 }, { nanos := 0 }, { nanos := 18_446_744_073_709_551_616_000_000 }] =
        [(200, none), (429, some 18_446_744_073_709_551_615), (429, some 18_446_744_073_709_551_615)] ∧
      told (Binary64.ofRat (7 / 10 ^ 14))
          [{ nanos := 0 }, { nanos := 1_000_000_000 }, { nanos := 14_285_714_285_714_284_000_000 }] =
        [(200, none), (429, some 14_285_714_285_713_283), (429, some 1)] := by
  decide +kernel

end Gateway

end Throttle
