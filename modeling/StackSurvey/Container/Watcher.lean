import StackSurvey.Container.Outcome
import StackSurvey.Journal
import StackSurvey.Stream.Splitter

/-! # Following a container

    Whoever starts a container wants to know what becomes of it.  A watcher takes note of
    events and log lines and is asked about each chunk of output whether more is wanted;
    `deliver` hands chunks over until it is not.  Each chunk is an event first. -/

namespace StackSurvey.Container

/-- One who follows containers, in a state `τ`. -/
structure Watcher (τ : Type) where
  /-- Takes note of an event. -/
  notice : Event → τ → τ
  /-- Takes note of a log line. -/
  log : LogLine → τ → τ
  /-- Takes a chunk of output and says whether more is wanted. -/
  accept : Bytes → τ → Control × τ

namespace Watcher

variable {τ : Type}

/-- Hands over one chunk. -/
def hand (w : Watcher τ) (who : Identity) (chunk : Bytes) (t : τ) : Control × τ :=
  w.accept chunk (w.notice (.output who chunk) t)

/-- Hands over the chunks that are complete, as long as more is wanted. -/
def deliver (w : Watcher τ) (who : Identity) (s : Splitter) (t : τ) : Control × Splitter × τ :=
  match h : s.nextChunk with
  | (none, s') => (.continue, s', t)
  | (some chunk, s') =>
    have := Splitter.length_nextChunk h
    match w.hand who chunk t with
    -- Chunks that are complete but not wanted any more stay in the splitter.
    | (.stop, t) => (.stop, s', t)
    | (.continue, t) => w.deliver who s' t
termination_by s.buffer.length

/-- Hands over what is left at the end of the stream. -/
def deliverRest (w : Watcher τ) (who : Identity) (s : Splitter) (t : τ) :
    Control × Splitter × τ :=
  match s.finish with
  | (none, s) => (.continue, s, t)
  | (some chunk, s) =>
    let (control, t) := w.hand who chunk t
    (control, s, t)

/-- Tells how the container has ended. -/
def noticeOutcome (w : Watcher τ) (who : Identity) (o : Outcome) (t : τ) : τ :=
  w.notice (Event.ofOutcome who o) t

end Watcher
end StackSurvey.Container
