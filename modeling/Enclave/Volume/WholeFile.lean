import Enclave.Volume.Basic

namespace Enclave.Volume

/-- Write all of `data` to a handle. When that fails the handle is discarded, so that the entry stays
as it was. -/
def fill (v : Volume) (grant : Allocator) (h : Handle) (data : Bytes) : Reply Unit :=
  match v.write grant h data 1 data.length with
  | ⟨.ok _, v', events⟩ => ⟨.ok (), v', events⟩
  | ⟨.error e, v', events⟩ =>
    match v'.discard h with
    | ⟨.error e', v'', events'⟩ => ⟨.error e', v'', events ++ events'⟩
    | ⟨.ok (), v'', events'⟩ => ⟨.error e, v'', events ++ events'⟩

def save (v : Volume) (grant : Allocator) (name : String) (data : Bytes) : Reply Unit :=
  (v.openAs grant name .write).andThen fun h v' =>
    (v'.fill grant h data).andThen fun _ v'' => v''.close grant h

/-- The bytes from the cursor to the end. The region that they are copied to is not charged. -/
def readRest (v : Volume) (grant : Allocator) (h : Handle) : Reply Bytes :=
  match v.fileLength h with
  | .error e => ⟨.error e, v, []⟩
  | .ok length =>
    (v.tell h).andThen fun position v' =>
      match Budget.unlimited.allocate (grant .output) (length - position) with
      | ⟨.error e, _⟩ => ⟨.error e, v', []⟩
      | ⟨.ok out, _⟩ =>
        match v'.read h out 1 (length - position) with
        | (reply, out) => reply.andThen fun count v'' => ⟨.ok (out.take count), v'', []⟩

def load (v : Volume) (grant : Allocator) (name : String) : Reply Bytes :=
  (v.openAs grant name .read).andThen fun h v' =>
    match v'.readRest grant h with
    | ⟨result, v'', events⟩ =>
      match v''.close grant h with
      | ⟨.error e, v''', events'⟩ => ⟨.error e, v''', events ++ events'⟩
      | ⟨.ok (), v''', events'⟩ => ⟨result, v''', events ++ events'⟩

end Enclave.Volume
