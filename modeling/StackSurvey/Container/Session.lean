import StackSurvey.Container.Daemon
import StackSurvey.Container.Runtime
import StackSurvey.Stream.CappedBuffer

/-! # Running a container on a daemon

    A session with the daemon creates a container, attaches to it, starts it, follows its output
    until it ends, is stopped or runs out of time, waits for its exit status and removes it.
    Whatever goes wrong after the creation, the container is removed.  The session keeps a
    record of every request. -/

namespace StackSurvey.Container

/-- A daemon in its state, and what it has been asked so far. -/
structure Exchange (δ : Type) where
  daemon : δ
  requests : List Request := []

namespace Daemon

variable {δ τ : Type}

/-! ## Section 1: Single requests -/

/-- Sends a request and records it. -/
def ask (d : Daemon δ) (r : Request) (x : Exchange δ) : Except CallFailure String × Exchange δ :=
  let (reply, daemon) := d.answer r x.daemon
  (reply.result, { daemon, requests := x.requests ++ [r] })

def ping (d : Daemon δ) (x : Exchange δ) : Except RuntimeFailure Unit × Exchange δ :=
  match d.ask .ping x with
  | (.ok _, x) => (.ok (), x)
  | (.error f, x) => (.error (.connection ("ping failed: " ++ f.text)), x)

/-- A warning about a container that could not be made to do something. -/
def warning (message : String) (name : String) (f : CallFailure) : LogLine :=
  { level := .warn, message, fields := [("container", name), ("error", f.text)] }

/-- Sends a request whose failure is only worth a warning. -/
def attempt (d : Daemon δ) (w : Watcher τ) (r : Request) (message name : String) :
    Exchange δ × τ → Exchange δ × τ := fun (x, t) =>
  match d.ask r x with
  | (.ok _, x) => (x, t)
  | (.error f, x) => (x, w.log (warning message name f) t)

/-- Asks a container to end and gives it time to do so. -/
def stop (d : Daemon δ) (w : Watcher τ) (name : String) : Exchange δ × τ → Exchange δ × τ :=
  d.attempt w (.stop name) "failed to stop container" name

def kill (d : Daemon δ) (w : Watcher τ) (name : String) : Exchange δ × τ → Exchange δ × τ :=
  d.attempt w (.kill name) "failed to kill container" name

/-- Removes a container.  It does not matter if it is gone. -/
def remove (d : Daemon δ) (w : Watcher τ) (name : String) : Exchange δ × τ → Exchange δ × τ :=
  fun (x, t) =>
    match d.ask (.remove name) x with
    | (.ok _, x) => (x, t)
    | (.error f, x) =>
      if f.status = 404 then (x, t)
      else (x, w.log (warning "failed to remove container" name f) t)

/-- The exit status of a container that has ended; none if it is gone. -/
def wait (d : Daemon δ) (name : String) (x : Exchange δ) :
    Except String (Option Int) × Exchange δ :=
  match d.ask (.wait name) x with
  | (.ok body, x) => ((Reply.exitStatus body).mapError ("wait failed: " ++ ·), x)
  | (.error f, x) =>
    if f.status = 404 then (.ok none, x) else (.error ("wait failed: " ++ f.text), x)

/-- The most that the daemon can count, in bytes. -/
def memoryLimit : Nat := Nat.pow 2 63

def create (d : Daemon δ) (spec : Spec) (image : String) (x : Exchange δ) :
    Except RuntimeFailure Unit × Exchange δ :=
  if memoryLimit ≤ spec.memory then
    (.error (.api ("memory limit " ++ toString spec.memory ++ " out of range")), x)
  else if memoryLimit ≤ spec.memorySwap then
    (.error (.api ("memory swap limit " ++ toString spec.memorySwap ++ " out of range")), x)
  else
    match d.ask (.create spec image) x with
    | (.ok _, x) => (.ok (), x)
    | (.error f, x) =>
      if f.status = 404 then (.error (.imageRequired spec.name f.message), x)
      else (.error (.api ("create container failed: " ++ f.text)), x)

/-! ## Section 2: Following the output -/

/-- Why the output of a container is no longer followed. -/
inductive Leave where
  /-- The stream was closed. -/
  | closed
  /-- No more output is wanted. -/
  | declined
  | broken (reason : String)
  | deadline
deriving DecidableEq

/-- What has been gathered while following a container. -/
structure Gathered (τ : Type) where
  splitter : Splitter
  stderr : CappedBuffer
  watcher : τ

/-- How a stream without further frames ends for someone who waits until `deadline`. -/
def leaveAt (deadline : Duration) : Option (Duration × Ending) → Leave
  | none => .deadline
  | some (time, ending) =>
    if deadline.milliseconds < time.milliseconds then .deadline
    else
      match ending with
      | .closed => .closed
      | .broken reason => .broken reason

/-- Follows an attached stream until it ends, no more is wanted, or time is up. -/
def follow (w : Watcher τ) (who : Identity) (deadline : Duration)
    (ending : Option (Duration × Ending)) :
    List (Duration × Frame) → Gathered τ → Leave × Gathered τ
  | [], g => (leaveAt deadline ending, g)
  | (time, frame) :: rest, g =>
    -- Nothing that arrives after the deadline is looked at.
    if deadline.milliseconds < time.milliseconds then (.deadline, g)
    else
      match frame with
      | .stdout bytes =>
        match w.deliver who (g.splitter.push bytes) g.watcher with
        | (.stop, splitter, watcher) => (.declined, { g with splitter, watcher })
        | (.continue, splitter, watcher) =>
          follow w who deadline ending rest { g with splitter, watcher }
      | .stderr bytes =>
        follow w who deadline ending rest { g with stderr := g.stderr.push bytes }
      | .other _ => follow w who deadline ending rest g

/-- Makes a container end that has not ended by itself, and hands over what is left of the
    output of one that has.  The answer is whether no more output was wanted, and the error of
    the stream. -/
def settle (d : Daemon δ) (w : Watcher τ) (spec : Spec) (leave : Leave) (splitter : Splitter)
    (s : Exchange δ × τ) : Control × Option String × (Exchange δ × τ) :=
  match leave with
  | .closed =>
    -- The stream is over, but the answer to its last bytes still says whether it was stopped.
    let (control, _, t) := w.deliverRest spec.identity splitter s.2
    (control, none, (s.1, t))
  | .declined => (.stop, none, d.stop w spec.name s)
  | .broken reason =>
    (.continue, some ("output stream failed: " ++ reason), d.kill w spec.name s)
  | .deadline => (.continue, none, d.kill w spec.name s)

/-- Follows a container that was started until it has ended, and removes it. -/
def accompany (d : Daemon δ) (w : Watcher τ) (spec : Spec) (s : Exchange δ × τ) :
    Outcome × (Exchange δ × τ) :=
  let (x, t) := s
  let stream := d.attachment x.daemon
  let (leave, g) := follow w spec.identity spec.timeout stream.ending stream.frames
    { splitter := .ofDelimiter spec.delimiter
      stderr := .ofLimit spec.errorLimit
      watcher := w.notice (.started spec.identity) t }
  let (control, error, x, t) := d.settle w spec leave g.splitter (x, g.watcher)
  -- The status is asked for however the output was left, also of a container that was killed.
  let (exit, x) := d.wait spec.name x
  let (x, t) := if spec.autoRemove then d.remove w spec.name (x, t) else (x, t)
  let outcome : Outcome :=
    { exitStatus := exit.toOption.join
      stderr := g.stderr.text
      duration := d.elapsed x.daemon
      timedOut := leave = .deadline
      stopped := control = .stop
      -- Trouble with the stream is told rather than trouble with the status.
      error := error.or (match exit with | .ok _ => none | .error e => some e) }
  (outcome, (x, w.noticeOutcome spec.identity outcome t))

/-! ## Section 3: A whole session -/

/-- What the log says before a container is created. -/
def creationLine (spec : Spec) (image : String) : LogLine :=
  { level := .debug, message := "creating engine container",
    fields := [("container", spec.name), ("image", image),
      ("flags", String.intercalate " " spec.flags)] }

/-- Attaches to a container that was created and starts it; if either fails the container is
    removed. -/
def launch (d : Daemon δ) (w : Watcher τ) (spec : Spec) (s : Exchange δ × τ) :
    Except RuntimeFailure Outcome × (Exchange δ × τ) :=
  match d.ask (.attach spec.name) s.1 with
  | (.error f, x) =>
    (.error (.api ("attach container failed: " ++ f.text)), d.remove w spec.name (x, s.2))
  | (.ok _, x) =>
    match d.ask (.start spec.name) x with
    | (.error f, x) =>
      (.error (.api ("start container failed: " ++ f.text)), d.remove w spec.name (x, s.2))
    | (.ok _, x) =>
      let (outcome, s) := d.accompany w spec (x, s.2)
      (.ok outcome, s)

/-- Runs a container from its creation to its removal. -/
def run (d : Daemon δ) (spec : Spec) (w : Watcher τ) (s : Exchange δ × τ) :
    Except RuntimeFailure Outcome × (Exchange δ × τ) :=
  match spec.image with
  | none => (.error (.imageRequired spec.name "no image configured"), s)
  | some image =>
    let t := w.log (creationLine spec image) s.2
    match d.create spec image s.1 with
    -- Nothing was created, so nothing has to be removed.
    | (.error failure, x) => (.error failure, (x, t))
    | (.ok _, x) => d.launch w spec (x, t)

/-- The runtime that asks a daemon. -/
def runtime (d : Daemon δ) : Runtime (Exchange δ) where
  run _ spec w s := d.run spec w s

end Daemon
end StackSurvey.Container
