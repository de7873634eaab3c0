import Enclave.Handle
import Enclave.Volume.OpenFile

namespace Enclave

def slotLimit : Nat := 65536

def lastGeneration : UInt16 := 65535

structure Slot where
  generation : UInt16
  file : Option OpenFile
  deriving DecidableEq, Repr

/-- The slots issued so far, those of them that can be taken again, the latest first, and the number
of open files. A slot is taken again in its next generation, and is retired after the last. -/
structure FileTable where
  slots : Array Slot
  free : List UInt16
  maxOpen : Nat
  opened : Nat
  deriving DecidableEq, Repr

namespace FileTable

def empty (maxOpen : Nat) : FileTable :=
  ⟨#[], [], min maxOpen mostOpen, 0⟩

def ensureRoom (t : FileTable) : Except Fault Unit :=
  if t.maxOpen ≤ t.opened then .error (.capacityExhausted .openFiles t.maxOpen) else .ok ()

def find? (t : FileTable) (h : Handle) : Option OpenFile :=
  match t.slots[h.slot.toNat]? with
  | some slot => if slot.generation = h.generation then slot.file else none
  | none => none

def contains (t : FileTable) (h : Handle) : Bool :=
  (t.find? h).isSome

def get (t : FileTable) (h : Handle) : Except Fault OpenFile :=
  match t.find? h with
  | some file => .ok file
  | none => .error .invalidHandle

def generationAt (slots : Array Slot) (index : UInt16) : UInt16 :=
  match slots[index.toNat]? with
  | some slot => slot.generation
  | none => 0

/-- Place a file in the slot freed last or, when none is free, in one never used. Fails when too many
files are open, or when every slot has been issued. -/
def insert (t : FileTable) (file : OpenFile) : Outcome FileTable Handle :=
  match t.ensureRoom, t with
  | .error e, t => ⟨.error e, t⟩
  | .ok (), ⟨slots, index :: free, maxOpen, opened⟩ =>
    let generation := generationAt slots index
    ⟨.ok ⟨index, generation⟩,
      ⟨slots.setIfInBounds index.toNat ⟨generation, some file⟩, free, maxOpen, opened + 1⟩⟩
  | .ok (), ⟨slots, [], maxOpen, opened⟩ =>
    if slots.size < slotLimit then
      ⟨.ok ⟨UInt16.ofNat slots.size, 1⟩, ⟨slots.push ⟨1, some file⟩, [], maxOpen, opened + 1⟩⟩
    else ⟨.error (.capacityExhausted .openFiles maxOpen), ⟨slots, [], maxOpen, opened⟩⟩

def replace (t : FileTable) (h : Handle) (file : OpenFile) : FileTable :=
  { t with slots := t.slots.setIfInBounds h.slot.toNat ⟨h.generation, some file⟩ }

def vacate (t : FileTable) (h : Handle) : FileTable :=
  if h.generation = lastGeneration then
    { t with
      slots := t.slots.setIfInBounds h.slot.toNat ⟨h.generation, none⟩
      opened := t.opened - 1 }
  else
    { t with
      slots := t.slots.setIfInBounds h.slot.toNat ⟨h.generation + 1, none⟩
      free := h.slot :: t.free
      opened := t.opened - 1 }

def remove (t : FileTable) (h : Handle) : Outcome FileTable OpenFile :=
  match t.find? h with
  | some file => ⟨.ok file, t.vacate h⟩
  | none => ⟨.error .invalidHandle, t⟩

end FileTable

end Enclave
