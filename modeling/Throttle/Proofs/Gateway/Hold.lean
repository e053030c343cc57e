import Throttle.Proofs.Bucket.Refusal
import Throttle.Proofs.Gateway.Run

/-!
# How long a request is held

A request needs a wait. It is admitted and held for that wait if its route allows so much, and the
reservation then has an instant to act at, however near the end of the clock. If the wait is too long
the request is refused, and the refusal tells the wait unless it is forever. Main statement:
`answer_tells_wait`.
-/

set_option autoImplicit false

namespace Throttle
open Http

/-! ## Waits -/

theorem Duration.ofMillis_lt_forever (ms : UInt64) : ofMillis ms < forever := by
  have hms := ms.toNat_lt
  have hforever := Duration.nanos_forever
  have hnanos : (ofMillis ms).nanos = ms.toNat * 1_000_000 := rfl
  rw [lt_iff]
  omega

/-- A wait that is longer than a number of milliseconds has at least as many whole ones. -/
theorem Duration.le_wholeMillis {ms : UInt64} {d : Duration} (h : ofMillis ms < d) : ms.toNat ≤ d.wholeMillis := by
  have hnanos : (ofMillis ms).nanos = ms.toNat * 1_000_000 := rfl
  rw [lt_iff] at h
  unfold wholeMillis
  omega

theorem Http.Response.retryAfterMs?_exhausted (wait : Duration) :
    (refused .exhausted wait).retryAfterMs? =
      if wait < .forever then some (min wait.wholeMillis (2 ^ 64 - 1)) else none := by
  unfold retryAfterMs?
  simp [Denial.isTransient, UInt64.size]

@[simp] theorem Route.limiter_service (r : Route) : r.service.limiter = r.limiter := rfl

namespace Service

variable (s : Service) (now : Instant) (path : String) (cost : UInt64)

/-- The wait that a request of this cost needs. -/
def waitFor : Duration := s.limiter.bucket.waitFor s.limiter.limit s.limiter.burst now cost

/-- A request is admitted with the wait of its grant, or refused with the wait of its refusal. -/
theorem answer_cases :
    (∃ delay actAt next, (s.reservation now cost).1 = .granted delay (some actAt) ∧
        s.answer now path cost = .admitted path cost delay ∧ actAt.nanos = now.nanos + delay.nanos ∧
        s.limiter.bucket.Grant s.limiter.limit s.limiter.burst now cost (.ofMillis s.maxWaitMs) delay next) ∨
      ∃ reason delay, (s.reservation now cost).1 = .denied reason delay ∧
        s.answer now path cost = .refused reason delay ∧
        s.limiter.bucket.Refusal s.limiter.limit s.limiter.burst now cost (.ofMillis s.maxWaitMs) reason delay := by
  have hreservation : (s.reservation now cost).1 = .ofProposal now (s.limiter.bucket.propose s.limiter.limit
    s.limiter.burst now cost (.ofMillis s.maxWaitMs)) := rfl
  unfold answer
  rcases s.limiter.bucket.propose_cases s.limiter.limit s.limiter.burst now cost (.ofMillis s.maxWaitMs) with
    ⟨delay, next, hgranted, hgrant⟩ | ⟨reason, delay, hdenied, hrefusal⟩
  · obtain ⟨actAt, hact⟩ := hgrant.acts
    have hgranted' : (s.reservation now cost).1 = .granted delay (some actAt) := by
      rw [hreservation, hgranted, ← hact]
      rfl
    refine .inl ⟨delay, actAt, next, hgranted', ?_, Instant.add?_eq_some_iff.1 hact, hgrant⟩
    -- the wait is computed anew from the instant to act at
    rw [hgranted']
    show Response.admitted path cost (actAt.since now) = _
    rw [Instant.since_of_add? hact]
  · have hdenied' : (s.reservation now cost).1 = .denied reason delay := by
      rw [hreservation, hdenied]
      rfl
    refine .inr ⟨reason, delay, hdenied', ?_, hrefusal⟩
    rw [hdenied']

/-! ## Answers -/

theorem admitted_in_time (h : (s.answer now path cost).statusCode = 200) :
    s.answer now path cost = .admitted path cost (s.waitFor now cost) ∧ s.waitFor now cost ≤ .ofMillis s.maxWaitMs ∧
      ∃ actAt, (s.reservation now cost).1.timeToAct? = some actAt ∧
        actAt.nanos = now.nanos + (s.waitFor now cost).nanos := by
  rcases s.answer_cases now path cost with
    ⟨delay, actAt, next, hreservation, hanswer, hact, hgrant⟩ | ⟨reason, delay, _, hanswer, _⟩
  · have hwait : delay = s.waitFor now cost := hgrant.delay_eq
    rw [hwait] at hreservation hanswer hact
    refine ⟨hanswer, hwait ▸ hgrant.delay_le, actAt, ?_, hact⟩
    rw [hreservation]
    rfl
  · rw [hanswer] at h
    cases h

theorem refused_with_reason (h : (s.answer now path cost).statusCode = 429) :
    (s.answer now path cost = .refused .exhausted (s.waitFor now cost) ∧
        (s.reservation now cost).1.delay = s.waitFor now cost ∧ .ofMillis s.maxWaitMs < s.waitFor now cost) ∨
      s.answer now path cost = .refused .exceedsBurst .forever := by
  rcases s.answer_cases now path cost with
    ⟨delay, actAt, next, _, hanswer, _⟩ | ⟨reason, delay, hreservation, hanswer, hrefusal⟩
  · rw [hanswer] at h
    cases h
  · cases reason with
    | exceedsBurst =>
      cases hrefusal
      exact .inr hanswer
    | exhausted =>
      have hwait : delay = s.waitFor now cost := hrefusal.delay_eq
      have hlong := hrefusal.maxWait_lt (Duration.ofMillis_lt_forever s.maxWaitMs)
      rw [hwait] at hreservation hanswer hlong
      refine .inl ⟨hanswer, ?_, hlong⟩
      rw [hreservation]
      rfl

theorem statusCode_answer : (s.answer now path cost).statusCode = 200 ∨ (s.answer now path cost).statusCode = 429 := by
  unfold answer
  split
  · exact .inl rfl
  · exact .inr rfl

end Service

namespace Gateway

/-- A request that comes to admission, in whatever state the gateway is, is answered with 200 or 429.
If it is admitted it is held for as long as it needs, which is no longer than its route allows, and its
reservation may be acted on at the very end of the hold. If it is refused as exhausted the wait that it
needs is longer than its route allows, and unless that is forever the refusal tells it in whole
milliseconds, as far as 64 bits go, and so at least what the route allows. If its cost exceeds the burst
no wait is told. -/
theorem answer_tells_wait (g : Gateway) (now : Instant) (r : Request) (path : String)
    (h : admissionPath? r = some path) :
    let route := g.registry.resolve path
    let reservation := (route.limiter.reserveWithin now r.headers.cost route.maxWait).1
    let needed := route.limiter.bucket.waitFor route.limiter.limit route.limiter.burst now r.headers.cost
    let answer := (g.request now r).1
    (answer.statusCode = 200 ∨ answer.statusCode = 429) ∧
      (answer.statusCode = 200 →
        answer = .admitted path r.headers.cost needed ∧ answer.held = needed ∧ needed ≤ .ofMillis route.maxWaitMs ∧
          ∃ actAt, reservation.timeToAct? = some actAt ∧ actAt.nanos = now.nanos + needed.nanos) ∧
      (answer.statusCode = 429 → ∃ reason, answer.body? = some (Response.refusalJson reason) ∧
        (reason = .exhausted →
          reservation.delay = needed ∧ .ofMillis route.maxWaitMs < needed ∧
            answer.retryAfterMs? = (if needed < .forever then some (min needed.wholeMillis (2 ^ 64 - 1)) else none) ∧
            ∀ ms, answer.retryAfterMs? = some ms → route.maxWaitMs.toNat ≤ ms) ∧
        (reason = .exceedsBurst → answer.retryAfterMs? = none)) := by
  intro route reservation needed answer
  have hanswer : answer = route.service.answer now path r.headers.cost := by
    show (g.request now r).1 = _
    rw [request_of_admission h, admission_answer]
  rw [hanswer]
  refine ⟨route.service.statusCode_answer now path _, fun hok => ?_, fun hrefused => ?_⟩
  · obtain ⟨hadmitted, hle, hact⟩ := route.service.admitted_in_time now path _ hok
    refine ⟨hadmitted, ?_, hle, hact⟩
    rw [hadmitted]
    rfl
  · rcases route.service.refused_with_reason now path _ hrefused with ⟨hexhausted, hdelay, hlong⟩ | hexceeds
    · rw [hexhausted, Response.retryAfterMs?_exhausted]
      refine ⟨.exhausted, rfl, fun _ => ⟨hdelay, hlong, rfl, ?_⟩, fun hreason => by cases hreason⟩
      intro ms hms
      split at hms
      · have hmillis := Duration.le_wholeMillis hlong
        have hword := route.maxWaitMs.toNat_lt
        rw [← Option.some.inj hms, Nat.le_min]
        exact ⟨hmillis, by omega⟩
      · cases hms
    · rw [hexceeds]
      exact ⟨.exceedsBurst, rfl, fun hreason => (by cases hreason), fun _ => rfl⟩

/-- A second and a half before the clock ends a request waits a second for its token, and the next one,
which would have to wait beyond the end, is told no wait. -/
theorem answer_tells_wait_of_last_second :
    let policy : Policy := { ratePerSec := some (Binary64.ofNat 1), maxWaitMs := 2000 }
    let now : Instant := { nanos := 9_223_372_036_854_775_806_500_000_000 }
    let second : Duration := { nanos := 1_000_000_000 }
    let get : Request := ⟨.get, "/x", []⟩
    let g := (ofConfig { listener := ⟨"127.0.0.1", 8080⟩, defaultPolicy := policy }).after [(now, .request get)]
    let later := g.after [(now, .request get)]
    let waiting := (g.request now get).1
    let refused := (later.request now get).1
    admissionPath? get = some "/x" ∧ waiting.statusCode = 200 ∧ refused.statusCode = 429 ∧
      waiting = .admitted "/x" 1 second ∧ waiting.held = second ∧ second ≤ .ofMillis (g.registry.resolve "/x").maxWaitMs ∧
      ∃ reason, refused.body? = some (Response.refusalJson reason) ∧
        (reason = .exhausted →
          Duration.ofMillis (later.registry.resolve "/x").maxWaitMs < .forever ∧ refused.retryAfterMs? = none) := by
  intro policy now second get g later waiting refused
  have hpath : admissionPath? get = some "/x" := by decide +kernel
  have hok : waiting.statusCode = 200 := by decide +kernel
  have hrefused : refused.statusCode = 429 := by decide +kernel
  have hsecond : (g.registry.resolve "/x").service.waitFor now get.headers.cost = second := by decide +kernel
  have hforever : (later.registry.resolve "/x").service.waitFor now get.headers.cost = .forever := by decide +kernel
  obtain ⟨hadmitted, hheld, hle, _⟩ := (answer_tells_wait g now get "/x" hpath).2.1 hok
  obtain ⟨reason, hbody, hexhausted, _⟩ := (answer_tells_wait later now get "/x" hpath).2.2 hrefused
  rw [Service.waitFor, Route.limiter_service] at hsecond hforever
  refine ⟨hpath, hok, hrefused, ?_, ?_, ?_, reason, hbody, fun hreason => ?_⟩
  · rw [← hsecond]
    exact hadmitted
  · rw [← hsecond]
    exact hheld
  · rw [← hsecond]
    exact hle
  · obtain ⟨_, hlong, htold, _⟩ := hexhausted hreason
    rw [← hforever]
    refine ⟨hlong, htold.trans (if_neg ?_)⟩
    rw [hforever]
    decide

/-- At one token in more than three hundred years the second request of an instant is held that long. -/
example :
    let policy : Policy := { ratePerSec := some (.ofRat (1 / 10_000_000_000)), maxWaitMs := 100_000_000_000_000 }
    let now : Instant := { nanos := 0 }
    let get : Request := ⟨.get, "/x", []⟩
    let g := (ofConfig { listener := ⟨"127.0.0.1", 8080⟩, defaultPolicy := policy }).after [(now, .request get)]
    (g.request now get).1.held = { nanos := 10_000_000_000_000_000_000 } := by decide +kernel

end Gateway

end Throttle
