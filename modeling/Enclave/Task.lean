import Enclave.Fault

namespace Enclave

structure TaskId where
  raw : UInt32
  deriving DecidableEq, Repr

structure ThreadId where
  raw : UInt32
  deriving DecidableEq, Repr

def ThreadId.main : ThreadId := ⟨1⟩

def ThreadId.current : ThreadId := main

inductive TaskFault where
  | unknownTask (id : TaskId)
  deriving DecidableEq, Repr

def TaskFault.message : TaskFault → String
  | unknownTask id => "Unknown task: " ++ toString id.raw.toNat

structure Job (σ ρ : Type) where
  name : String
  work : σ → ρ × σ

/-- Tasks that are spawned and neither joined nor discarded. A spawn captures work and runs nothing; a
join runs it, on the shared state as it is then. -/
structure Agenda (σ ρ : Type) where
  jobs : List (TaskId × Job σ ρ)
  next : UInt32

namespace Agenda

variable {α σ ρ : Type}

def empty : Agenda σ ρ :=
  ⟨[], 1⟩

def find? (a : Agenda σ ρ) (id : TaskId) : Option (Job σ ρ) :=
  a.jobs.lookup id

def drop (a : Agenda σ ρ) (id : TaskId) : Agenda σ ρ :=
  { a with jobs := a.jobs.filter (·.1 ≠ id) }

/-- The identifier after this one. Zero is passed over. -/
def successor (id : UInt32) : UInt32 :=
  if id + 1 = 0 then 1 else id + 1

def spawn (a : Agenda σ ρ) (name : String) (func : α → σ → ρ × σ) (arg : α) :
    TaskId × Agenda σ ρ :=
  let id : TaskId := ⟨a.next⟩
  (id, ⟨(id, ⟨name, func arg⟩) :: (a.drop id).jobs, successor a.next⟩)

def join (a : Agenda σ ρ) (id : TaskId) (state : σ) : Except TaskFault ρ × Agenda σ ρ × σ :=
  match a.find? id with
  | none => (.error (.unknownTask id), a, state)
  | some job =>
    match job.work state with
    | (result, state) => (.ok result, a.drop id, state)

def discard (a : Agenda σ ρ) (id : TaskId) : Except TaskFault Unit × Agenda σ ρ :=
  match a.find? id with
  | none => (.error (.unknownTask id), a)
  | some _ => (.ok (), a.drop id)

def name? (a : Agenda σ ρ) (id : TaskId) : Option String :=
  (a.find? id).map (·.name)

def isPending (a : Agenda σ ρ) (id : TaskId) : Bool :=
  (a.find? id).isSome

def pending (a : Agenda σ ρ) : Nat :=
  a.jobs.length

end Agenda

end Enclave
