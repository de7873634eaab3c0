import Enclave.Wire.Basic

namespace Enclave.Fault

def wireName : Fault → String
  | invalidHandle => "InvalidHandle"
  | capacityExhausted _ _ => "CapacityExhausted"
  | modeViolation _ _ => "ModeViolation"
  | notFound => "NotFound"
  | outOfMemory _ => "OutOfMemory"
  | invalidSeek _ => "InvalidSeek"
  | nameTooLong _ _ => "NameTooLong"
  | invalidMode _ => "InvalidMode"
  | invalidArgument _ => "InvalidArgument"
  | invalidConfig _ => "InvalidConfig"

def toJson (f : Fault) : Json :=
  match f with
  | invalidHandle | notFound => .ofString f.wireName
  | capacityExhausted resource limit =>
    .single f.wireName (.object [(some "resource", resource.toJson), (some "limit", .ofNat limit)])
  | modeViolation mode required =>
    .single f.wireName (.object [(some "mode", mode.toJson), (some "required", required.toJson)])
  | outOfMemory requested => .single f.wireName (.object [(some "requested", .ofNat requested)])
  | invalidSeek target => .single f.wireName (.object [(some "target", .ofInt target)])
  | nameTooLong length limit =>
    .single f.wireName (.object [(some "len", .ofNat length), (some "max", .ofNat limit)])
  | invalidMode text => .single f.wireName (.ofString text)
  | invalidArgument reason => .single f.wireName (.ofString reason)
  | invalidConfig reason => .single f.wireName (.ofString reason)

def ofMember? (name : String) (body : Json) : Option Fault :=
  match name with
  | "InvalidHandle" => match body with
    | .null => some invalidHandle
    | _ => none
  | "NotFound" => match body with
    | .null => some notFound
    | _ => none
  | "CapacityExhausted" => match body.fields? ["resource", "limit"] with
    | some [some resource, some limit] => do
      return capacityExhausted (← Resource.ofJson? resource) (← limit.toWord?)
    | _ => none
  | "ModeViolation" => match body.fields? ["mode", "required"] with
    | some [some mode, some required] => do
      return modeViolation (← Mode.ofJson? mode) (← Access.ofJson? required)
    | _ => none
  | "OutOfMemory" => match body.fields? ["requested"] with
    | some [some requested] => requested.toWord?.map outOfMemory
    | _ => none
  | "InvalidSeek" => match body.fields? ["target"] with
    | some [some target] => target.toOffset?.map invalidSeek
    | _ => none
  | "NameTooLong" => match body.fields? ["len", "max"] with
    | some [some length, some limit] => do
      return nameTooLong (← length.toWord?) (← limit.toWord?)
    | _ => none
  | "InvalidMode" => body.toString?.map invalidMode
  | "InvalidArgument" => body.toString?.map invalidArgument
  | "InvalidConfig" => body.toString?.map invalidConfig
  | _ => none

def ofJson? : Json → Option Fault
  | .text (some "InvalidHandle") => some invalidHandle
  | .text (some "NotFound") => some notFound
  | .object [(some name, body)] => ofMember? name body
  | _ => none

end Enclave.Fault
