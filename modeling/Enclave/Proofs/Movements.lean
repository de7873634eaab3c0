import Enclave.Proofs.Operations
import Enclave.Volume.Request

namespace Enclave

inductive Movement where
  | charge (n : Nat)
  | refund (n : Nat)
  deriving DecidableEq, Repr

namespace Budget

variable (b : Budget) (grant : Nat → Bool)

/-- A refund of more than is used does not settle. -/
def settle : Movement → Option Budget
  | .charge n =>
    match b.charge n with
    | ⟨.ok (), b'⟩ => some b'
    | ⟨.error _, _⟩ => none
  | .refund n => if n ≤ b.used then some (b.refund n) else none

def replay (b : Budget) : List Movement → Option Budget
  | [] => some b
  | m :: ms => (b.settle m).bind (·.replay ms)

/-- A charge that the budget refuses moves nothing; one whose region the allocator refuses is given
back. -/
def acquireMoves (charged length : Nat) : List Movement :=
  match b.charge charged with
  | ⟨.error _, _⟩ => []
  | ⟨.ok (), _⟩ =>
    if length = 0 ∨ grant length then [.charge charged] else [.charge charged, .refund charged]

def extendMoves (current target : Nat) : List Movement :=
  if target ≤ current then [] else b.acquireMoves grant (target - current) target

def copyMoves (data : Bytes) : List Movement :=
  b.acquireMoves grant data.length data.length

end Budget

def Buffer.writeMoves (b : Buffer) (grant : Nat → Bool) (offset : Nat) (data : Bytes)
    (budget : Budget) : List Movement :=
  let finish := offset + data.length
  if wordLimit ≤ finish then []
  else if b.capacity < finish then
    budget.extendMoves grant b.capacity (b.growth.capacityFor b.capacity finish)
  else []

def Archive.flushMoves (a : Archive) (grant : Allocator) (name : String) (data : Bytes)
    (budget : Budget) : List Movement :=
  match a.find? name with
  | some old =>
    match budget.copy (grant .entryData) data with
    | ⟨.error _, _⟩ => budget.copyMoves (grant .entryData) data
    | ⟨.ok _, _⟩ => budget.copyMoves (grant .entryData) data ++ [.refund old.length]
  | none =>
    if a.maxEntries ≤ a.entries.length then []
    else
      match copyName (grant .entryName) name with
      | .error _ => []
      | .ok _ => budget.copyMoves (grant .entryData) data

namespace Volume

variable (v : Volume) (grant : Allocator)

def startMoves (stored : Option Bytes) : List Movement :=
  match stored with
  | some data => v.budget.extendMoves (grant .openBuffer) 0 (max v.growth.least data.length)
  | none => v.budget.extendMoves (grant .openBuffer) 0 v.limits.initialCapacity

def openMoves (name : String) (mode : Mode) : List Movement :=
  match v.checkOpen name mode with
  | .error _ => []
  | .ok stored =>
    match copyName (grant .openName) name with
    | .error _ => []
    | .ok _ => v.startMoves grant stored

def closeMoves (h : Handle) : List Movement :=
  match v.files.find? h with
  | none => []
  | some file =>
    (if file.mode.canWrite then v.archive.flushMoves grant file.name file.contents v.budget
      else []) ++ [.refund file.buffer.capacity]

def discardMoves (h : Handle) : List Movement :=
  match v.files.find? h with
  | none => []
  | some file => [.refund file.buffer.capacity]

def writeMoves (h : Handle) (data : Bytes) (elementSize count : Nat) : List Movement :=
  match v.checkAccess h .write elementSize count data.length .dataTooShort with
  | .error _ => []
  | .ok (file, length) =>
    if length = 0 then []
    else file.buffer.writeMoves (grant .growth) file.position (data.take length) v.budget

def saveMoves (name : String) (data : Bytes) : List Movement :=
  v.openMoves grant name .write ++
    match v.openAs grant name .write with
    | ⟨.error _, _, _⟩ => []
    | ⟨.ok h, v', _⟩ =>
      v'.writeMoves grant h data 1 data.length ++
        match v'.write grant h data 1 data.length with
        | ⟨.error _, v'', _⟩ => v''.discardMoves h
        | ⟨.ok _, v'', _⟩ => v''.closeMoves grant h

def loadMoves (name : String) : List Movement :=
  v.openMoves grant name .read ++
    match v.openAs grant name .read with
    | ⟨.error _, _, _⟩ => []
    | ⟨.ok h, v', _⟩ => (v'.readRest grant h).volume.closeMoves grant h

def serveMoves : Request → List Movement
  | .openText name text =>
    match Mode.parse text with
    | .error _ => []
    | .ok mode => v.openMoves grant name mode
  | .openAs name mode => v.openMoves grant name mode
  | .close h => v.closeMoves grant h
  | .discard h => v.discardMoves h
  | .write h data elementSize count => v.writeMoves grant h data elementSize count
  | .save name data => v.saveMoves grant name data
  | .load name => v.loadMoves grant name
  | _ => []

def moves (v : Volume) : List (Allocator × Request) → List Movement
  | [] => []
  | (grant, request) :: rest =>
    v.serveMoves grant request ++ (v.serve grant request).volume.moves rest

end Volume

namespace Budget

variable (b : Budget) (grant : Nat → Bool)

theorem replay_append (ms ns : List Movement) :
    b.replay (ms ++ ns) = (b.replay ms).bind (·.replay ns) := by
  induction ms generalizing b with
  | nil => rfl
  | cons m ms ih =>
    rw [List.cons_append, replay, replay]
    cases b.settle m with
    | none => rfl
    | some b' => exact ih b'

theorem replay_append_of_eq {ms ns : List Movement} {b' : Budget} (h : b.replay ms = some b') :
    b.replay (ms ++ ns) = b'.replay ns := by
  rw [replay_append, h]
  rfl

theorem replay_refund {n : Nat} (h : n ≤ b.used) : b.replay [.refund n] = some (b.refund n) := by
  simp [replay, settle, h]

theorem acquire_replay (charged length : Nat) :
    b.replay (b.acquireMoves grant charged length) =
      some (b.acquire grant charged length).state := by
  rw [acquire_eq, acquireMoves, charge_eq]
  by_cases ha : b.Admits charged
  · by_cases hg : length = 0 ∨ grant length
    · simp [ha, hg, replay, settle, charge_eq]
    · simp [ha, hg, replay, settle, charge_eq]
  · simp [ha, replay]

theorem extend_replay (current target : Nat) :
    b.replay (b.extendMoves grant current target) =
      some (b.extend grant current target).state := by
  rw [extend, extendMoves]
  by_cases h : target ≤ current
  · rw [if_pos h, if_pos h]
    rfl
  · rw [if_neg h, if_neg h]
    exact b.acquire_replay grant _ _

theorem lengthen_replay (data : Bytes) (length : Nat) :
    b.replay (b.extendMoves grant data.length length) =
      some (b.lengthen grant data length).state.2 := by
  rw [extend_replay, lengthen]
  generalize b.extend grant data.length length = extended
  obtain ⟨_ | _, _⟩ := extended <;> rfl

theorem allocate_replay (length : Nat) :
    b.replay (b.extendMoves grant 0 length) = some (b.allocate grant length).state := by
  have hlengthen := b.lengthen_replay grant [] length
  rw [List.length_nil] at hlengthen
  rw [hlengthen, allocate]
  generalize b.lengthen grant [] length = lengthened
  obtain ⟨_ | _, _, _⟩ := lengthened <;> rfl

theorem copy_replay (data : Bytes) :
    b.replay (b.copyMoves grant data) = some (b.copy grant data).state := by
  rw [copyMoves, acquire_replay, copy, acquire_eq]
  split <;> rfl

end Budget

end Enclave
