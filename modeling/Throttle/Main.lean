import Std.Async
import Std.Http.Server
import Throttle.Benchmark
import Throttle.Server

/-!
# The program

Without arguments it serves the gateway until it is interrupted, and loads the configuration again
whenever the contents of its file change. With the argument `bench` it runs a benchmark and prints its
report.
-/

set_option autoImplicit false

namespace Throttle.Program

open Std.Async (Async)

/-! ## Surroundings -/

def environment (names : List String) : IO Environment := do
  let mut entries := []
  for name in names do
    if let some value ← IO.getEnv name then
      entries := (name, value.toUTF8) :: entries
  return ⟨entries⟩

/-- The bytes of a file, if it can be read. -/
def fileBytes? (path : String) : IO (Option ByteArray) := do
  try
    return some (← IO.FS.readBinFile path)
  catch _ => return none

def clock : IO Instant := do
  return (Instant.ofNanos? (← IO.monoNanosNow)).getD .earliest

/-! ## Requests -/

structure Front where
  server : IO.Ref Server

def requestOf (head : Std.Http.Request.Head) : Http.Request where
  method := .ofName (toString head.method)
  target := toString head.uri
  headers := head.headers.toList.map fun (name, value) => (name.value, value.value.toUTF8)

def statusOf (code : Nat) : Std.Http.Status :=
  match code with
  | 404 => .notFound
  | 405 => .methodNotAllowed
  | 429 => .tooManyRequests
  | _ => .ok

def send (r : Http.Response) : Async (Std.Http.Response Std.Http.Body.Any) := do
  unless r.held = .zero do
    Std.Async.sleep (.ofNat r.held.ceilMillis)
  let builder := Std.Http.Response.Builder.new.status (statusOf r.statusCode)
  let builder := match r.retryAfterMs? with
    | some ms => builder.header! "retry-after-ms" (toString ms)
    | none => builder
  match r.body? with
  | some body => return ↑(← builder.json body.render)
  | none => return ↑(← builder.empty)

instance : Std.Http.Server.Handler Front where
  ResponseBody := Std.Http.Body.Any
  onRequest front request := do
    let now ← clock
    let response ← front.server.modifyGet (·.request now (requestOf request.line))
    send response

/-! ## The configuration file -/

/-- What happened to a file whose contents were read before and now. -/
def event? (before now : Option ByteArray) : Option Server.FileEvent :=
  if now.map ByteArray.data = before.map ByteArray.data then none
  else match now with
    | some contents => some (.replaced contents)
    | none => some .removed

/-- Looks at the file from time to time, until it is told to stop. -/
partial def watch (front : Front) (path : String) : IO Unit := do
  IO.sleep 200
  if ← IO.checkCanceled then return
  if let some event := event? (← front.server.get).file (← fileBytes? path) then
    let now ← clock
    match ← front.server.modifyGet (·.fileEvent now event) with
    | some .applied => IO.println "applied new config (hot reload)"
    | some .failed => IO.eprintln "failed to reload config"
    | none => pure ()
  watch front path

/-! ## Benchmarks -/

/-- The status in the first line of an answer. -/
def statusOfLine? (line : String) : Option Nat :=
  match line.splitOn " " with
  | version :: code :: _ => if version.startsWith "HTTP/1." then code.toNat? else none
  | _ => none

/-- Reads an answer up to the end of its first line. -/
partial def firstLine? (socket : Std.Async.TCP.Socket.Client) (read : ByteArray) : Async (Option String) := do
  match read.findIdx? (· = 10) with
  | some i => return String.fromUTF8? (read.extract 0 i)
  | none =>
    match ← socket.recv? 4096 with
    | some more => firstLine? socket (read ++ more)
    | none => return none

def addressesOf (host : Std.Http.URI.Host) : Async (List Std.Net.IPAddr) :=
  match host with
  | .ipv4 address => return [.v4 address]
  | .ipv6 address => return [.v6 address]
  | .name name => return (← Std.Async.DNS.getAddrInfo name "").toList

def portOf : Std.Http.URI.Port → UInt16
  | .value port => port
  | _ => 80

/-- The status that a request is answered with, on a connection of its own. -/
def statusOf? (url : String) : Async (Option Nat) := do
  let some uri := Std.Http.URI.parse? url | return none
  let some authority := uri.authority | return none
  let address :: _ ← addressesOf authority.host | return none
  let port := portOf authority.port
  let socket ← Std.Async.TCP.Socket.Client.mk
  socket.connect (match address with | .v4 a => .v4 ⟨a, port⟩ | .v6 a => .v6 ⟨a, port⟩)
  let path := if uri.path.isEmpty then "/" else toString uri.path
  let head := "GET " ++ path ++ toString uri.query ++ " HTTP/1.1\r\nhost: " ++ toString authority.host ++
    ":" ++ toString port ++ "\r\nconnection: close\r\n\r\n"
  socket.send head.toUTF8
  return (← firstLine? socket .empty).bind statusOfLine?

/-- A request that fails, or is not answered within ten seconds, has no status. -/
def answerTo (url : String) : Async (Option Nat) := do
  try
    Async.race (statusOf? url) (do Std.Async.sleep 10_000; return none)
  catch _ => return none

/-- A request on its way, with what it has been answered as far as is known. -/
structure Pending where
  task : Std.Async.AsyncTask (Option Nat)
  answer? : Option (Option Nat) := none

namespace Pending

def await (request : Pending) : IO Pending := do
  return { request with answer? := some (← request.task.block) }

def look (request : Pending) : IO Pending := do
  if ← IO.hasFinished request.task then request.await else return request

end Pending

/-- Waits until a request is due, and tells when the next one is. Requests that are missed are left out. -/
def pause (spacing : Duration) (due : Instant) : IO Instant := do
  let rest := (due.since (← clock)).wholeMillis
  unless rest = 0 do
    (Std.Async.sleep (.ofNat rest)).block
  -- the timer has no parts of a millisecond
  while (← clock) < due do
    pure ()
  let missed := ((← clock).since due).nanos / spacing.nanos
  return (Instant.ofNanos? (due.nanos + (spacing.nanos * (missed + 1) : Nat))).getD due

/-! ## Commands -/

def socketAddressOf (address : SocketAddress) : Std.Net.SocketAddress :=
  match address.host with
  | .short octets => .v4 ⟨⟨octets⟩, address.port⟩
  | .long groups _ => .v6 ⟨⟨groups⟩, address.port⟩

def serve : IO UInt32 := do
  let path := (← IO.getEnv "TG_CONFIG_PATH").getD "tokengate.yaml"
  match Server.start (← fileBytes? path) (← environment Config.variableNames) true with
  | .error e =>
    IO.eprintln ("Error: " ++ e.message)
    return 1
  | .ok server =>
    let front : Front := ⟨← IO.mkRef server⟩
    let watcher ← IO.asTask (watch front path)
    Async.block do
      let interrupt ← Std.Async.Signal.Waiter.mk .sigint false
      let running ← Std.Http.Server.serve (socketAddressOf server.address) front
      IO.println ("listening on http://" ++ server.address.text)
      (← IO.getStdout).flush
      let _ ← Std.Async.await (← interrupt.wait)
      IO.println "shutting down"
      IO.cancel watcher
      running.shutdownAndWait
    return 0

/-- Sends requests until the deadline, and prints what became of them. -/
def bench : IO UInt32 := do
  let settings := Benchmark.Settings.ofEnvironment (← environment Benchmark.variableNames)
  IO.println (Benchmark.opening settings).text
  let start ← clock
  let some deadline := settings.deadline? start
    | IO.eprintln "overflow when adding duration to instant"
      return 101
  let mut due := start
  let mut progress : Benchmark.Progress Pending := {}
  while (← clock) < deadline do
    due ← pause settings.spacing due
    progress := progress.send { task := ← (answerTo settings.url).toIO }
    progress := { progress with inFlight := ← progress.inFlight.mapM Pending.look }
    progress := progress.reap Pending.answer?
  progress := { progress with inFlight := ← progress.inFlight.mapM Pending.await }
  let tally := progress.drain (·.answer?.join)
  for line in Benchmark.closing settings tally ((← clock).since start) do
    IO.println line.text
  return 0

end Throttle.Program

def main (args : List String) : IO UInt32 :=
  match args with
  | ["bench"] => Throttle.Program.bench
  | _ => Throttle.Program.serve
