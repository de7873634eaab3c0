import Enclave.Json.Parser
import Enclave.Json.Record
import Enclave.Limits

namespace Enclave.Limits

def wireFields : List String :=
  ["max_open", "max_entries", "max_name_len", "initial_capacity", "memory_limit"]

def toJson (l : Limits) : Json :=
  .object [(some "max_open", .ofNat l.maxOpen), (some "max_entries", .ofNat l.maxEntries),
    (some "max_name_len", .ofNat l.maxNameLength),
    (some "initial_capacity", .ofNat l.initialCapacity),
    (some "memory_limit", (l.memoryLimit.map Json.ofNat).getD .null)]

def fieldOr {α : Type} (default : α) (decode : Json → Option α) : Option Json → Option α
  | none => some default
  | some j => decode j

def ofJson? (j : Json) : Option Limits :=
  match j.fields? wireFields with
  | some [maxOpen, maxEntries, maxNameLength, initialCapacity, memoryLimit] => do
    let maxOpen ← fieldOr usual.maxOpen Json.toWord? maxOpen
    let maxEntries ← fieldOr usual.maxEntries Json.toWord? maxEntries
    let maxNameLength ← fieldOr usual.maxNameLength Json.toWord? maxNameLength
    let initialCapacity ← fieldOr usual.initialCapacity Json.toWord? initialCapacity
    let memoryLimit ← fieldOr usual.memoryLimit (Json.toOptional? Json.toWord?) memoryLimit
    return ⟨maxOpen, maxEntries, maxNameLength, initialCapacity, memoryLimit⟩
  | _ => none

def parse (text : String) : Option Limits :=
  (Json.parse text).bind ofJson?

end Enclave.Limits
