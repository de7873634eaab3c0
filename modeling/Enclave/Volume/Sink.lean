import Enclave.Text.Search
import Enclave.Volume.Event

namespace Enclave

/-- A sink that keeps every message, the latest first. -/
structure Recorder where
  latestFirst : List String
  deriving DecidableEq, Repr

namespace Recorder

def empty : Recorder :=
  ⟨[]⟩

def record (r : Recorder) (message : String) : Recorder :=
  ⟨message :: r.latestFirst⟩

def messages (r : Recorder) : List String :=
  r.latestFirst.reverse

def mentions (r : Recorder) (needle : String) : Bool :=
  r.latestFirst.any fun message => Text.occursIn needle.toList message.toList

end Recorder

inductive Sink where
  | silent
  | recording (recorder : Recorder)
  deriving DecidableEq, Repr

namespace Sink

def fresh : Sink :=
  recording .empty

def tell : Sink → Event → Sink
  | silent, _ => silent
  | recording r, event => recording (r.record event.text)

def deliver (s : Sink) (events : List Event) : Sink :=
  events.foldl tell s

def clear : Sink → Sink
  | silent => silent
  | recording _ => fresh

def messages : Sink → List String
  | silent => []
  | recording r => r.messages

end Sink

end Enclave
