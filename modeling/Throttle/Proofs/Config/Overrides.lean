import Mathlib
import Throttle.Config.Loading
import Throttle.Proofs.Numeral.Double

/-!
# What the environment overrides

Each variable has one field and one grammar. A field is what the text of its variable spells, and stays
as the file has it where the variable is not set, is no text or spells nothing. Everything else is as in
the file, and so is a failure. Main statement: `load_overrides`.
-/

set_option autoImplicit false

namespace Throttle
open Numeral (Unsigned Double)

namespace Environment

variable {α : Type} {env : Environment} {name : String}

/-! ## Variables -/

/-- The bytes of a variable are the encoding of a text. -/
def Sets (env : Environment) (name text : String) : Prop :=
  env.entries.lookup name = some text.toUTF8

theorem fromUTF8?_eq_some_iff {bytes : ByteArray} {text : String} :
    String.fromUTF8? bytes = some text ↔ bytes = text.toUTF8 := by
  unfold String.fromUTF8?
  constructor
  · intro h
    split at h
    · cases h
      rfl
    · cases h
  · rintro rfl
    exact dif_pos text.isValidUTF8

theorem text?_eq_some_iff {text : String} : env.text? name = some text ↔ env.Sets name text := by
  unfold text? Sets
  rw [Option.bind_eq_some_iff]
  simp only [fromUTF8?_eq_some_iff]
  exact ⟨fun ⟨bytes, h, hbytes⟩ => hbytes ▸ h, fun h => ⟨_, h, rfl⟩⟩

theorem read?_eq_some_iff {parse : List Char → Option α} {x : α} :
    env.read? name parse = some x ↔ ∃ text, env.Sets name text ∧ parse text.toList = some x := by
  unfold read?
  rw [Option.bind_eq_some_iff]
  simp only [text?_eq_some_iff]

theorem Sets.unique {s t : String} (hs : env.Sets name s) (ht : env.Sets name t) : s = t :=
  Option.some.inj ((text?_eq_some_iff.2 hs).symm.trans (text?_eq_some_iff.2 ht))

/-! ## Fields -/

/-- How a field of a file ends up: as the text of a variable spells it, if there is one that does. -/
inductive Amends (env : Environment) (name : String) (Spells : List Char → α → Prop) (read loaded : α) : Prop where
  | set {text : String} (h : env.Sets name text) (hspells : Spells text.toList loaded)
  | kept (h : ∀ text, env.Sets name text → ∀ x, ¬ Spells text.toList x) (hkept : loaded = read)

variable {Spells : List Char → α → Prop} {read loaded : α}

theorem amends_read? {parse : List Char → Option α} (hparse : ∀ cs x, parse cs = some x ↔ Spells cs x) (read : α) :
    env.Amends name Spells read ((env.read? name parse).getD read) := by
  cases hx : env.read? name parse with
  | some x =>
    obtain ⟨text, hset, hx⟩ := read?_eq_some_iff.1 hx
    exact .set hset ((hparse _ x).1 hx)
  | none =>
    refine .kept (fun text hset x hspells => ?_) rfl
    have hsome := read?_eq_some_iff.2 ⟨text, hset, (hparse _ x).2 hspells⟩
    rw [hx] at hsome
    cases hsome

theorem Amends.eq_of_spelled (h : env.Amends name Spells read loaded) {text : String} (hset : env.Sets name text)
    {x : α} (hx : Spells text.toList x) (hunique : ∀ y, Spells text.toList y → y = x) : loaded = x := by
  cases h with
  | set hset' hspells =>
    rw [hset'.unique hset] at hspells
    exact hunique _ hspells
  | kept h hkept => exact absurd hx (h text hset x)

theorem Amends.eq_of_read {parse : List Char → Option α} (hparse : ∀ cs x, parse cs = some x ↔ Spells cs x)
    (h : env.Amends name Spells read loaded) {text : String} (hset : env.Sets name text) {x : α}
    (hx : parse text.toList = some x) : loaded = x := by
  refine h.eq_of_spelled hset ((hparse _ x).1 hx) fun y hy => ?_
  rw [← hparse, hx] at hy
  exact (Option.some.inj hy).symm

theorem Amends.eq_of_unspelled (h : env.Amends name Spells read loaded)
    (hnone : ∀ text, env.Sets name text → ∀ x, ¬ Spells text.toList x) : loaded = read := by
  cases h with
  | set hset hspells => exact absurd hspells (hnone _ hset _)
  | kept h hkept => exact hkept

end Environment

namespace Config

/-! ## Configurations -/

/-- A configuration as loaded, against the one in the file. A whole number has to fit into the type of its
field. -/
structure Overridden (env : Environment) (read loaded : Config) : Prop where
  bindAddr : env.Amends "TG_HTTP_ADDR" (fun cs s => s.toList = cs) read.listener.bindAddr loaded.listener.bindAddr
  port : env.Amends "TG_HTTP_PORT" (fun cs n => Unsigned cs n.toNat) read.listener.port loaded.listener.port
  ratePerSec : env.Amends "TG_DEFAULT_RATE" (fun cs rate => ∃ x, Double cs x ∧ some x = rate)
    read.defaultPolicy.ratePerSec loaded.defaultPolicy.ratePerSec
  burst : env.Amends "TG_DEFAULT_BURST" (fun cs n => Unsigned cs n.toNat)
    read.defaultPolicy.burst loaded.defaultPolicy.burst
  maxWaitMs : env.Amends "TG_MAX_WAIT_MS" (fun cs n => Unsigned cs n.toNat)
    read.defaultPolicy.maxWaitMs loaded.defaultPolicy.maxWaitMs
  intervalMs : loaded.defaultPolicy.intervalMs = read.defaultPolicy.intervalMs
  routes : loaded.routes = read.routes

theorem overridden_override (env : Environment) (read : Config) : Overridden env read (read.override env) where
  bindAddr := by
    have h : (env.read? "TG_HTTP_ADDR" fun cs => some (String.ofList cs)) = env.text? "TG_HTTP_ADDR" := by
      simp [Environment.read?]
    show env.Amends _ _ _ ((env.text? "TG_HTTP_ADDR").getD _)
    rw [← h]
    refine Environment.amends_read? (fun cs s => ?_) _
    rw [Option.some.injEq, Numeral.ofList_eq_iff, eq_comm]
  port := Environment.amends_read? (fun _ _ => Numeral.unsigned16?_eq_some_iff) _
  ratePerSec := by
    have h : (env.read? "TG_DEFAULT_RATE" fun cs => (Numeral.binary64? cs).map some) =
        (env.read? "TG_DEFAULT_RATE" Numeral.binary64?).map some := by
      simp [Environment.read?, Option.map_bind]
    have hor : ∀ rate : Option Binary64, rate.or read.defaultPolicy.ratePerSec =
        (rate.map some).getD read.defaultPolicy.ratePerSec := by
      intro rate
      cases rate <;> rfl
    show env.Amends _ _ _ ((env.read? "TG_DEFAULT_RATE" Numeral.binary64?).or _)
    rw [hor, ← h]
    refine Environment.amends_read? (fun cs rate => ?_) _
    rw [Option.map_eq_some_iff]
    simp only [Numeral.binary64?_eq_some_iff]
  burst := Environment.amends_read? (fun _ _ => Numeral.unsigned64?_eq_some_iff) _
  maxWaitMs := Environment.amends_read? (fun _ _ => Numeral.unsigned64?_eq_some_iff) _
  intervalMs := rfl
  routes := rfl

/-- A file that can be loaded is loaded under every environment, with the fields that have a variable amended
by it and no other; a file that cannot fails with one error under every environment. -/
theorem load_overrides (file : Option ByteArray) (env : Environment) :
    (∀ read, ofFile file = .ok read → ∃ loaded, load file env = .ok loaded ∧ Overridden env read loaded ∧
      ∀ text rate, env.Sets "TG_DEFAULT_RATE" text → Double text.toList rate →
        loaded.defaultPolicy.limit = .ofRate rate) ∧
      ∀ e, load file env = .error e ↔ ofFile file = .error e := by
  refine ⟨fun read hread => ?_, fun e => load_eq_error_iff⟩
  have hoverridden := overridden_override env read
  refine ⟨read.override env, load_eq_ok_iff.2 ⟨read, hread, rfl⟩, hoverridden, ?_⟩
  intro text rate hset hrate
  refine Policy.limit_of_rate (hoverridden.ratePerSec.eq_of_spelled hset ⟨rate, hrate, rfl⟩ ?_)
  rintro _ ⟨x, hx, rfl⟩
  rw [hrate.unique hx]

/-- An address that is no text, a port with zeros before it, a rate in places and a power, a burst that is too
large by one and a span with a blank before it. -/
theorem load_overrides_of_mixed :
    let file : Option ByteArray := some "server:\n bind_addr: a\n port: 1".toUTF8
    let env : Environment := ⟨[("TG_HTTP_ADDR", ⟨#[49, 255]⟩), ("TG_HTTP_PORT", "+0065535".toUTF8),
      ("TG_DEFAULT_RATE", "-.5E1".toUTF8), ("TG_DEFAULT_BURST", "18446744073709551616".toUTF8),
      ("TG_MAX_WAIT_MS", " 7".toUTF8)]⟩
    ∃ read loaded, ofFile file = .ok read ∧ load file env = .ok loaded ∧
      loaded.listener.bindAddr = read.listener.bindAddr ∧ loaded.listener.port = 65535 ∧
      loaded.defaultPolicy.limit = .ofRate (.ofRat (-5)) ∧
      loaded.defaultPolicy.burst = read.defaultPolicy.burst ∧
      loaded.defaultPolicy.maxWaitMs = read.defaultPolicy.maxWaitMs ∧
      loaded.defaultPolicy.intervalMs = read.defaultPolicy.intervalMs ∧ loaded.routes = read.routes := by
  intro file env
  have hreads : (match ofFile file with | .ok _ => true | .error _ => false) = true := by cbv
  cases hread : ofFile file with
  | error e =>
    rw [hread] at hreads
    cases hreads
  | ok read =>
    obtain ⟨loaded, hload, hover, hlimit⟩ := (load_overrides file env).1 read hread
    have hport : env.Sets "TG_HTTP_PORT" "+0065535" := rfl
    have hrate : env.Sets "TG_DEFAULT_RATE" "-.5E1" := rfl
    have hburst : env.Sets "TG_DEFAULT_BURST" "18446744073709551616" := rfl
    have hspan : env.Sets "TG_MAX_WAIT_MS" " 7" := rfl
    refine ⟨read, loaded, rfl, hload, ?_, ?_, ?_, ?_, ?_, hover.intervalMs, hover.routes⟩
    · have hnone : env.text? "TG_HTTP_ADDR" = none := by decide +kernel
      refine hover.bindAddr.eq_of_unspelled fun text htext => ?_
      rw [← Environment.text?_eq_some_iff, hnone] at htext
      cases htext
    · exact hover.port.eq_of_read (fun _ _ => Numeral.unsigned16?_eq_some_iff) hport (by decide +kernel)
    · exact hlimit _ _ hrate (Numeral.binary64?_eq_some_iff.1 (by decide +kernel))
    · have hnone : Numeral.unsigned64? "18446744073709551616".toList = none := by decide +kernel
      refine hover.burst.eq_of_unspelled fun text htext n hn => ?_
      rw [htext.unique hburst, ← Numeral.unsigned64?_eq_some_iff, hnone] at hn
      cases hn
    · have hnone : Numeral.unsigned64? " 7".toList = none := by decide +kernel
      refine hover.maxWaitMs.eq_of_unspelled fun text htext n hn => ?_
      rw [htext.unique hspan, ← Numeral.unsigned64?_eq_some_iff, hnone] at hn
      cases hn

end Config

end Throttle
