import Enclave.Proofs.Fit
import Enclave.Proofs.Openings

namespace Enclave

inductive Act where
  | read (requested : Nat)
  | write (data : Bytes)
  | seek (position : Nat)
  deriving DecidableEq, Repr

namespace Request

def handle? : Request → Option Handle
  | .close h | .discard h | .read h _ _ _ | .write h _ _ _ | .seek h _ _ | .tell h | .isOpen h
  | .mode h | .fileLength h => some h
  | _ => none

/-- What a request with this result has done to the file under its handle, if it has done anything
but end it. -/
def act? : Request → Except Fault Answer → Option Act
  | .read _ _ elementSize count, .ok _ => some (.read (elementSize * count))
  | .write _ data elementSize count, .ok _ => some (.write (data.take (elementSize * count)))
  | .seek _ _ _, .ok (.number position) => some (.seek position)
  | _, _ => none

def actOn? (h : Handle) (request : Request) (result : Except Fault Answer) : Option Act :=
  if request.handle? = some h then request.act? result else none

theorem actOn?_self {h : Handle} {request : Request} (hh : request.handle? = some h)
    (result : Except Fault Answer) : request.actOn? h result = request.act? result :=
  if_pos hh

theorem actOn?_of_ne {h : Handle} {request : Request} (hh : request.handle? ≠ some h)
    (result : Except Fault Answer) : request.actOn? h result = none :=
  if_neg hh

end Request

namespace OpenFile

def perform (f : OpenFile) : Act → OpenFile
  | .read n => f.advance (f.ahead n).length
  | .write data => f.written data
  | .seek position => { f with position }

theorem size_le_perform (f : OpenFile) (act : Act) : f.size ≤ (f.perform act).size := by
  cases act with
  | write data =>
    rw [perform, size_written]
    exact Nat.le_max_left _ _
  | read n | seek position => exact Nat.le_refl _

theorem capacity_le_perform (f : OpenFile) (act : Act) :
    f.buffer.capacity ≤ (f.perform act).buffer.capacity := by
  cases act with
  | write data => exact f.buffer.le_capacityAfter f.position data
  | read n | seek position => exact Nat.le_refl _

variable {f : OpenFile} {l : Limits}

theorem Fit.written_nil (h : f.Fit l) : f.written [] = f := by
  obtain ⟨name, ⟨content, capacity, growth⟩, position, mode⟩ := f
  have hp : position ≤ content.length := h.position_le
  have hs : content.length ≤ capacity := h.size_le
  have hcap : growth.capacityFor capacity position = capacity :=
    growth.capacityFor_of_le (Nat.le_trans hp hs)
  simp [OpenFile.written, Buffer.written, Buffer.capacityAfter, overlay_of_le hp, hcap]

end OpenFile

namespace Volume

variable {v v' : Volume} {g h : Handle} {file : OpenFile} (grant : Allocator)

theorem openAs_find?_of_some (hv : v.Sound) (hf : v.files.find? g = some file) (name : String)
    (mode : Mode) : (v.openAs grant name mode).volume.files.find? g = some file := by
  obtain ⟨h, placed, -, hn, hfiles⟩ | ⟨-, hfiles⟩ := openAs_find? grant hv name mode
  · have hne : g ≠ h := by
      rintro rfl
      rw [hn] at hf
      cases hf
    rw [hfiles, if_neg hne, hf]
  · rw [hfiles, hf]

theorem serve_find?_of_ne (hv : v.Sound) (hf : v.files.find? g = some file) {request : Request}
    (hne : request.handle? ≠ some g) :
    (v.serve grant request).volume.files.find? g = some file := by
  have named {h : Handle} (hh : some h ≠ some g) : h ≠ g := fun he => hh (congrArg some he)
  cases request with
  | openText name text =>
    simp only [serve, openText, respond_volume, Mode.parse]
    cases Mode.ofText? text with
    | none => exact hf
    | some mode => exact openAs_find?_of_some grant hv hf name mode
  | openAs name mode => exact openAs_find?_of_some grant hv hf name mode
  | close h => exact (close_find? grant h g).trans ((if_neg (named hne)).trans hf)
  | discard h => exact (discard_find? h g).trans ((if_neg (named hne)).trans hf)
  | read h out elementSize count =>
    exact ((v.read_edits h out elementSize count).find?_of_ne (named hne).symm).trans hf
  | write h data elementSize count =>
    exact ((v.write_edits grant h data elementSize count).find?_of_ne (named hne).symm).trans hf
  | seek h offset origin =>
    exact ((v.seek_edits h offset origin).find?_of_ne (named hne).symm).trans hf
  | save name data => exact (save_find? grant hv name data g).trans hf
  | load name => exact (load_find? grant hv name g).trans hf
  | tell h =>
    rw [serve, respond_volume, tell_volume]
    exact hf
  | stat _ | isOpen _ | mode _ | fileLength _ | list | used => exact hf

theorem read_find? (hf : v.files.find? h = some file) (out : Bytes) (elementSize count : Nat) :
    (v.serve grant (.read h out elementSize count)).volume.files.find? h =
      some (((Request.read h out elementSize count).act?
        (v.serve grant (.read h out elementSize count)).result).elim file file.perform) := by
  simp only [serve, read_of_some hf]
  cases file.refusal .read elementSize count out.length .outputTooShort with
  | some e => simpa [Request.act?, Reply.respond, Except.map] using hf
  | none =>
    by_cases hz : elementSize * count = 0
    · simp [Request.act?, Reply.respond, Except.map, hz, hf, OpenFile.perform, OpenFile.ahead,
        OpenFile.advance]
    · simp [Request.act?, Reply.respond, Except.map, hz, FileTable.replace_find? hf,
        OpenFile.perform]

theorem write_find? (hf : v.files.find? h = some file) (hfit : file.Fit v.limits) (data : Bytes)
    (elementSize count : Nat) :
    (v.serve grant (.write h data elementSize count)).volume.files.find? h =
      some (((Request.write h data elementSize count).act?
        (v.serve grant (.write h data elementSize count)).result).elim file file.perform) := by
  simp only [serve, write_of_some grant hf]
  cases file.refusal .write elementSize count data.length .dataTooShort with
  | some e => simpa [Request.act?, Reply.respond, Except.map] using hf
  | none =>
    by_cases hz : elementSize * count = 0
    · simp [Request.act?, Reply.respond, Except.map, hz, hf, OpenFile.perform, hfit.written_nil]
    · by_cases hroom : file.buffer.Fits (grant .growth) file.position
          (data.take (elementSize * count)) v.budget
      · simp [Request.act?, Reply.respond, Except.map, hz, hroom, FileTable.replace_find? hf,
          OpenFile.perform]
      · simp [Request.act?, Reply.respond, Except.map, hz, hroom, hf]

theorem seek_find? (hf : v.files.find? h = some file) (offset : Int) (origin : Origin) :
    (v.serve grant (.seek h offset origin)).volume.files.find? h =
      some (((Request.seek h offset origin).act?
        (v.serve grant (.seek h offset origin)).result).elim file file.perform) := by
  simp only [serve, seek_of_some hf]
  cases hs : file.seek offset origin with
  | error e => simpa [Request.act?, Reply.respond, Except.map] using hf
  | ok moved =>
    obtain ⟨position, file'⟩ := moved
    obtain ⟨rfl, -⟩ := OpenFile.seek_ok hs
    simp [Request.act?, Reply.respond, Except.map, FileTable.replace_find? hf, OpenFile.perform]

theorem ends_of_ne {request : Request} (hne : request.handle? ≠ some g) :
    ends g request = false := by
  cases request with
  | close h | discard h => exact decide_eq_false fun he => hne (congrArg some he)
  | _ => rfl

/-- A request ends the file under its handle, or acts on it, and leaves every other file. -/
theorem serve_find? (hv : v.Sound) (hfit : v.Fit) (hf : v.files.find? g = some file)
    (request : Request) :
    (v.serve grant request).volume.files.find? g =
      if ends g request then none
      else some ((request.actOn? g (v.serve grant request).result).elim file file.perform) := by
  by_cases hh : request.handle? = some g
  · rw [Request.actOn?_self hh]
    cases request with
    | close h =>
      obtain rfl : h = g := Option.some.inj hh
      rw [ends, decide_eq_true rfl, if_pos rfl]
      exact (close_find? grant h h).trans (if_pos rfl)
    | discard h =>
      obtain rfl : h = g := Option.some.inj hh
      rw [ends, decide_eq_true rfl, if_pos rfl]
      exact (discard_find? h h).trans (if_pos rfl)
    | read h out elementSize count =>
      obtain rfl : h = g := Option.some.inj hh
      exact read_find? grant hf out elementSize count
    | write h data elementSize count =>
      obtain rfl : h = g := Option.some.inj hh
      exact write_find? grant hf (hfit.files h file hf) data elementSize count
    | seek h offset origin =>
      obtain rfl : h = g := Option.some.inj hh
      exact seek_find? grant hf offset origin
    | tell h =>
      rw [serve, respond_volume, tell_volume]
      exact hf
    | isOpen _ | mode _ | fileLength _ => exact hf
    | openText _ _ | openAs _ _ | stat _ | save _ _ | load _ | list | used => cases hh
  · rw [ends_of_ne hh, Request.actOn?_of_ne hh]
    exact serve_find?_of_ne grant hv hf hh

end Volume

end Enclave
