import Mathlib
import Throttle.Proofs.Config.Overrides
import Throttle.Proofs.Gateway.Mirror
import Throttle.Server

/-!
# Reloads that fail

The configuration file may be replaced, damaged and removed at any time, and attempts to load it again
come at any time, too, whether or not they notice every change. An attempt that fails only counts
itself, so a run goes on without it as with it, and the configuration in force is what was read last.
Main statement: `failed_reload_leaves_no_trace`.
-/

set_option autoImplicit false

namespace Throttle
open Http

/-! ## Files that cannot be loaded -/

inductive Config.Unloadable : Option ByteArray → Prop where
  | missing : Unloadable none
  | notText {bytes : ByteArray} (h : String.fromUTF8? bytes = none) : Unloadable (some bytes)
  | malformed {bytes : ByteArray} {text : String} {why : Yaml.Malformed} (htext : String.fromUTF8? bytes = some text)
    (h : Yaml.Document.ofText text = .error why) : Unloadable (some bytes)
  /-- A well-formed document of another structure. -/
  | misfit {bytes : ByteArray} {text : String} {doc : Yaml.Document} {e : Config.DecodeError}
    (htext : String.fromUTF8? bytes = some text) (hdoc : Yaml.Document.ofText text = .ok doc)
    (h : Config.decode doc = .error e) : Unloadable (some bytes)

theorem Config.unloadable_iff {file : Option ByteArray} : Unloadable file ↔ ∃ e, ofFile file = .error e := by
  constructor
  · intro h
    cases h with
    | missing => exact ⟨_, rfl⟩
    | notText h => exact ⟨.fileNotText, by simp [ofFile, h, throw, throwThe, MonadExceptOf.throw]⟩
    | @malformed bytes text why htext h =>
      exact ⟨.malformed why, by simp [ofFile, ofText, htext, h, throw, throwThe, MonadExceptOf.throw]⟩
    | @misfit bytes text doc e htext hdoc h =>
      exact ⟨.misfit e, by simp [ofFile, ofText, htext, hdoc, h, throw, throwThe, MonadExceptOf.throw]⟩
  · rintro ⟨e, h⟩
    cases file with
    | none => exact .missing
    | some bytes =>
      cases htext : String.fromUTF8? bytes with
      | none => exact .notText htext
      | some text =>
        cases hdoc : Yaml.Document.ofText text with
        | error why => exact .malformed htext hdoc
        | ok doc =>
          cases hdecode : decode doc with
          | error e => exact .misfit htext hdoc hdecode
          | ok config => simp [ofFile, ofText, htext, hdoc, hdecode, pure, Except.pure] at h

namespace Server

/-! ## Moves -/

/-- What happens to a server. A change of the file and an attempt to load it are apart from each other. -/
inductive Move where
  | request (r : Request)
  /-- The file is replaced by other bytes, which need not be a configuration, or is removed. -/
  | write (contents : Option ByteArray)
  | attempt

def move (s : Server) (now : Instant) : Move → Option Response × Server
  | .request r => (some (s.request now r).1, (s.request now r).2)
  | .write contents => (none, { s with file := contents })
  | .attempt => (none, (s.reload now).2)

def play (s : Server) (moves : List (Instant × Move)) : Server :=
  moves.foldl (fun s m => (s.move m.1 m.2).2) s

/-- The answers to the requests of a run, in their order. -/
def answers (s : Server) : List (Instant × Move) → List Response
  | [] => []
  | (now, m) :: rest => (s.move now m).1.toList ++ (s.move now m).2.answers rest

@[simp] theorem play_cons (s : Server) (now : Instant) (m : Move) (rest : List (Instant × Move)) :
    s.play ((now, m) :: rest) = (s.move now m).2.play rest := rfl

@[simp] theorem answers_cons (s : Server) (now : Instant) (m : Move) (rest : List (Instant × Move)) :
    s.answers ((now, m) :: rest) = (s.move now m).1.toList ++ (s.move now m).2.answers rest := rfl

theorem play_append (s : Server) (earlier later : List (Instant × Move)) :
    s.play (earlier ++ later) = (s.play earlier).play later := List.foldl_append

theorem answers_append (earlier later : List (Instant × Move)) (s : Server) :
    s.answers (earlier ++ later) = s.answers earlier ++ (s.play earlier).answers later := by
  induction earlier generalizing s with
  | nil => rfl
  | cons first rest ih =>
    obtain ⟨now, m⟩ := first
    rw [List.cons_append, answers_cons, answers_cons, play_cons, ih, List.append_assoc]

/-- An event in the directory of the file is a change of the file and, if it is noticed, an attempt. -/
theorem fileEvent_eq_play (s : Server) (now : Instant) (event : FileEvent) :
    (s.fileEvent now event).2 =
      s.play ((now, .write (event.fileAfter s.file)) ::
        if s.watching && event.isChange then [(now, .attempt)] else []) := by
  unfold fileEvent
  dsimp only
  split <;> rfl

/-! ## The count of attempts -/

/-- How often the configuration was loaded again changes no answer and nothing else. -/
theorem move_of_reloads (s : Server) (n : Nat) (now : Instant) (m : Move) :
    (({ s with reloads := n } : Server).move now m).1 = (s.move now m).1 ∧
      ∃ k, (({ s with reloads := n } : Server).move now m).2 = { (s.move now m).2 with reloads := k } := by
  cases m with
  | request r => exact ⟨rfl, n, rfl⟩
  | write contents => exact ⟨rfl, n, rfl⟩
  | attempt =>
    refine ⟨rfl, n + 1, ?_⟩
    show (({ s with reloads := n } : Server).reload now).2 = { (s.reload now).2 with reloads := n + 1 }
    unfold reload
    dsimp only
    split <;> rfl

theorem play_of_reloads (moves : List (Instant × Move)) (s : Server) (n : Nat) :
    ({ s with reloads := n } : Server).answers moves = s.answers moves ∧
      ∃ k, ({ s with reloads := n } : Server).play moves = { s.play moves with reloads := k } := by
  induction moves generalizing s n with
  | nil => exact ⟨rfl, n, rfl⟩
  | cons first rest ih =>
    obtain ⟨now, m⟩ := first
    obtain ⟨hanswer, k, hnext⟩ := s.move_of_reloads n now m
    rw [answers_cons, answers_cons, play_cons, play_cons, hanswer, hnext]
    obtain ⟨hanswers, hplay⟩ := ih (s.move now m).2 k
    exact ⟨by rw [hanswers], hplay⟩

theorem reload_of_unloadable {s : Server} (h : Config.Unloadable s.file) (now : Instant) :
    s.reload now = (.failed, { s with reloads := s.reloads + 1 }) := by
  obtain ⟨e, he⟩ := Config.unloadable_iff.1 h
  unfold reload
  rw [Config.load_eq_error_iff.2 he]

/-! ## The configuration in force -/

/-- What was read at the last load that succeeded, of a file with these contents that was last read
with the others. -/
def lastRead (file read : Option ByteArray) : List (Instant × Move) → Option ByteArray
  | [] => read
  | (_, .request _) :: rest => lastRead file read rest
  | (_, .write contents) :: rest => lastRead contents read rest
  | (_, .attempt) :: rest =>
    match Config.ofFile file with
    | .ok _ => lastRead file file rest
    | .error _ => lastRead file read rest

/-- The configuration in force is the one in the contents that were last read. -/
theorem load_lastRead (moves : List (Instant × Move)) (s : Server) (read : Option ByteArray)
    (h : Config.load read s.env = .ok s.gateway.config) :
    Config.load (lastRead s.file read moves) s.env = .ok (s.play moves).gateway.config := by
  induction moves generalizing s read with
  | nil => exact h
  | cons first rest ih =>
    obtain ⟨now, m⟩ := first
    cases m with
    | request r =>
      apply ih (s.request now r).2 read
      show Config.load read s.env = .ok (s.gateway.request now r).2.config
      rw [Gateway.config_request]
      exact h
    | write contents => exact ih { s with file := contents } read h
    | attempt =>
      rw [play_cons]
      show Config.load _ s.env = .ok ((s.reload now).2.play rest).gateway.config
      unfold lastRead reload
      cases hload : Config.load s.file s.env with
      | error e =>
        rw [Config.load_eq_error_iff.1 hload]
        exact ih { s with reloads := s.reloads + 1 } read h
      | ok config =>
        obtain ⟨loaded, hloaded, _⟩ := Config.load_eq_ok_iff.1 hload
        rw [hloaded]
        exact ih { s with gateway := s.gateway.reload now config, reloads := s.reloads + 1 } s.file hload

theorem address_move (s : Server) (now : Instant) (m : Move) : (s.move now m).2.address = s.address := by
  cases m with
  | request r => rfl
  | write contents => rfl
  | attempt =>
    show (s.reload now).2.address = s.address
    unfold reload
    split <;> rfl

theorem address_play (moves : List (Instant × Move)) (s : Server) : (s.play moves).address = s.address := by
  induction moves generalizing s with
  | nil => rfl
  | cons first rest ih => exact (ih _).trans (s.address_move first.1 first.2)

/-- A server runs from its start, through requests, changes of its file and attempts to load it. At any
point an attempt fails if the file is missing, is not text, is not well formed or does not fit. It
leaves the gateway, with its configuration, its limiters, its counters and its refusals, as it is, and a
run that goes on without the attempt has the same answers and the same gateway at its end. The
configuration in force is always the one that was read at the last load that succeeded, with each field
that has a variable amended by what that variable spells, and the address is always that of the first. -/
theorem failed_reload_leaves_no_trace (file : Option ByteArray) (env : Environment) (watching : Bool) (s : Server)
    (hstart : start file env watching = .ok s) (earlier later : List (Instant × Move)) (now : Instant) :
    let before := s.play earlier
    (Config.Unloadable before.file →
        before.reload now = (.failed, { before with reloads := before.reloads + 1 }) ∧
          s.answers (earlier ++ (now, .attempt) :: later) = s.answers (earlier ++ later) ∧
          (s.play (earlier ++ (now, .attempt) :: later)).gateway = (s.play (earlier ++ later)).gateway) ∧
      (∃ config, Config.ofFile (lastRead file file earlier) = .ok config ∧
        before.gateway.config = config.override env ∧ Config.Overridden env config before.gateway.config) ∧
      before.address = s.address ∧
      ∃ first, Config.ofFile file = .ok first ∧ address? (first.override env).listener = some s.address := by
  intro before
  obtain ⟨config, address, hload, haddress, hs⟩ := start_eq_ok_iff.1 hstart
  obtain ⟨first, hfirst, hoverride⟩ := Config.load_eq_ok_iff.1 hload
  refine ⟨fun hfile => ?_, ?_, address_play earlier s, first, hfirst, ?_⟩
  · have hfailed := reload_of_unloadable hfile now
    have hmove : before.move now .attempt = (none, { before with reloads := before.reloads + 1 }) := by
      show (none, (before.reload now).2) = _
      rw [hfailed]
    obtain ⟨hanswers, k, hplay⟩ := play_of_reloads later before (before.reloads + 1)
    refine ⟨hfailed, ?_, ?_⟩
    · rw [answers_append, answers_append, answers_cons, hmove, hanswers]
      rfl
    · rw [play_append, play_append, play_cons, hmove, hplay]
  · have henv : s.env = env := by rw [hs]
    have hfile : s.file = file := by rw [hs]
    have hinforce := load_lastRead earlier s file (by rw [henv, hs]; exact hload)
    rw [henv, hfile] at hinforce
    obtain ⟨read, hread, hsame⟩ := Config.load_eq_ok_iff.1 hinforce
    refine ⟨read, hread, hsame.symm, ?_⟩
    rw [← hsame]
    exact Config.overridden_override env read
  · rw [hoverride, hs]
    exact haddress

/-- A file is damaged, which an attempt notices, and then removed, before another one is put in place. -/
theorem failed_reload_leaves_no_trace_of_removed_file :
    let file : Option ByteArray := some "server:\n bind_addr: 127.0.0.1\n port: 80".toUTF8
    let env : Environment := ⟨[("TG_DEFAULT_BURST", "7".toUTF8)]⟩
    let get : Request := ⟨.get, "/x", []⟩
    let earlier : List (Instant × Move) := [
      ({ nanos := 0 }, .request get),
      ({ nanos := 1 }, .write (some "[".toUTF8)),
      ({ nanos := 2 }, .attempt),
      ({ nanos := 3 }, .write none)]
    let later : List (Instant × Move) := [
      ({ nanos := 5 }, .write (some "server:\n bind_addr: 127.0.0.2\n port: 81".toUTF8)),
      ({ nanos := 5 }, .attempt),
      ({ nanos := 6 }, .request get)]
    ∃ s, start file env true = .ok s ∧ Config.Unloadable (s.play earlier).file ∧
      ((s.play earlier).reload { nanos := 4 }).1 = .failed ∧
      s.answers (earlier ++ ({ nanos := 4 }, .attempt) :: later) = s.answers (earlier ++ later) ∧
      lastRead file file earlier = file ∧
      ∃ config, Config.ofFile file = .ok config ∧ (s.play earlier).gateway.config = config.override env ∧
        (s.play earlier).gateway.config.defaultPolicy.burst = 7 := by
  intro file env get earlier later
  have hstarts : (match start file env true with | .ok _ => true | .error _ => false) = true := by cbv
  cases hstart : start file env true with
  | error e =>
    rw [hstart] at hstarts
    cases hstarts
  | ok s =>
    obtain ⟨hfailed, ⟨config, hconfig, hinforce, hamended⟩, _⟩ :=
      failed_reload_leaves_no_trace file env true s hstart earlier later { nanos := 4 }
    have hread : lastRead file file earlier = file := by decide +kernel
    have hfile : Config.Unloadable (s.play earlier).file := .missing
    obtain ⟨hreload, hanswers, _⟩ := hfailed hfile
    have hset : env.Sets "TG_DEFAULT_BURST" "7" := rfl
    have hburst := hamended.burst.eq_of_read (fun _ _ => Numeral.unsigned64?_eq_some_iff) hset
      (show Numeral.unsigned64? "7".toList = some 7 by decide +kernel)
    rw [hread] at hconfig
    exact ⟨s, rfl, hfile, by rw [hreload], hanswers, hread, config, hconfig, hinforce, hburst⟩

end Server

end Throttle
