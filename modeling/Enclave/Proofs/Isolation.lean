import Enclave.Proofs.Acts

namespace Enclave

/-- An open file as its holder knows it, without the room that its bytes are kept in. -/
structure Copy where
  name : String
  mode : Mode
  content : Bytes
  cursor : Nat
  deriving DecidableEq, Repr

namespace Copy

def start (a : Archive) (o : Opening) : Copy :=
  match o.mode with
  | .read | .readWrite => ⟨o.name, o.mode, (a.find? o.name).getD [], 0⟩
  | .write | .append => ⟨o.name, o.mode, [], 0⟩

def perform (c : Copy) : Act → Copy
  | .read n => { c with cursor := c.cursor + min n (c.content.length - c.cursor) }
  | .write data =>
    { c with
      content := c.content.take c.cursor ++ data ++ c.content.drop (c.cursor + data.length)
      cursor := c.cursor + data.length }
  | .seek position => { c with cursor := position }

end Copy

namespace OpenFile

def copy (f : OpenFile) : Copy :=
  ⟨f.name, f.mode, f.contents, f.position⟩

theorem copy_perform {f : OpenFile} (h : f.position ≤ f.size) (act : Act) :
    (f.perform act).copy = f.copy.perform act := by
  cases act with
  | read n =>
    simp [perform, copy, Copy.perform, advance, ahead, contents]
  | write data =>
    have hlen : f.position ≤ f.buffer.content.length := h
    have ho := overlay_of_le hlen data
    simp only [perform, copy, Copy.perform, written, Buffer.written, contents, ho]
  | seek position => rfl

end OpenFile

namespace Volume

variable {v : Volume} {h : Handle} {file : OpenFile} {o : Opening}

def Opens (v : Volume) (step : Allocator × Request) (o : Opening) : Prop :=
  opening? step.2 (v.serve step.1 step.2).result = some o

/-- What the requests of a run do to the file under `h`. -/
def acts (h : Handle) (v : Volume) : List (Allocator × Request) → List Act
  | [] => []
  | (grant, request) :: rest =>
    let response := v.serve grant request
    (request.actOn? h response.result).toList ++ response.volume.acts h rest

theorem openAs_copy (grant : Allocator) (hv : v.Sound) {name : String} {mode : Mode}
    (ho : (v.openAs grant name mode).result = .ok h) :
    ∃ file, (v.openAs grant name mode).volume.files.find? h = some file ∧
      file.copy = Copy.start v.archive ⟨h, name, mode⟩ := by
  obtain ⟨h', stored, v', he, hc, hm, -⟩ | ⟨e, he, -⟩ | ⟨n, v', he, -⟩ :=
    openAs_cases grant hv name mode
  · rw [he] at ho ⊢
    obtain rfl : h' = h := Except.ok.inj ho
    obtain ⟨-, -, rfl⟩ := checkOpen_ok hc
    refine ⟨_, hm.find?_placed, ?_⟩
    cases mode <;> rfl
  · rw [he] at ho
    cases ho
  · rw [he] at ho
    cases ho

theorem Opens.copy {step : Allocator × Request} (hv : v.Sound) (ho : v.Opens step o) :
    ∃ file, (v.serve step.1 step.2).volume.files.find? o.handle = some file ∧
      file.copy = Copy.start v.archive o := by
  obtain ⟨grant, request⟩ := step
  rw [Opens] at ho
  cases request with
  | openText name text =>
    simp only [serve, openText, Mode.parse] at ho ⊢
    cases ht : Mode.ofText? text with
    | none =>
      rw [ht] at ho
      cases ho
    | some mode =>
      rw [ht] at ho
      dsimp only at ho ⊢
      cases hr : (v.openAs grant name mode).result with
      | error e => simp [Reply.respond, hr, Except.map, opening?] at ho
      | ok h =>
        simp only [Reply.respond, hr, Except.map, opening?, ht, Option.map_some,
          Option.some.injEq] at ho
        subst ho
        exact openAs_copy grant hv hr
  | openAs name mode =>
    simp only [serve] at ho ⊢
    cases hr : (v.openAs grant name mode).result with
    | error e => simp [Reply.respond, hr, Except.map, opening?] at ho
    | ok h =>
      simp only [Reply.respond, hr, Except.map, opening?, Option.some.injEq] at ho
      subst ho
      exact openAs_copy grant hv hr
  | _ => cases ho

theorem roster_stays_none (hv : v.Sound) (hi : v.files.Issued h) (hr : v.roster h = none)
    (steps : List (Allocator × Request)) : (v.after steps).roster h = none := by
  induction steps generalizing v with
  | nil => exact hr
  | cons step rest ih =>
    obtain ⟨grant, request⟩ := step
    refine ih (serve_sound grant hv request) (serve_issued grant hv request hi) ?_
    obtain ⟨o, -, hn, -, hs⟩ | ⟨-, hs⟩ := serve_roster grant hv request
    · have hne : h ≠ o.handle := by
        rintro rfl
        exact hn hi
      rw [hs, if_neg hne, hr]
    · rw [hs, hr, ite_self]

theorem copy_after (hv : v.Sound) (hfit : v.Fit) (hf : v.files.find? h = some file)
    {steps : List (Allocator × Request)} {file' : OpenFile}
    (hf' : (v.after steps).files.find? h = some file') :
    file'.copy = (v.acts h steps).foldl Copy.perform file.copy := by
  -- The induction is on the rest of the run, the file being what the run before has left.
  induction steps generalizing v file with
  | nil =>
    obtain rfl := Option.some.inj (hf.symm.trans hf')
    rfl
  | cons step rest ih =>
    obtain ⟨grant, request⟩ := step
    have hv' := serve_sound grant hv request
    have hserve := serve_find? grant hv hfit hf request
    rw [after_cons] at hf'
    by_cases he : ends h request
    · -- A handle that was given out and ended is not given out again.
      rw [if_pos he] at hserve
      have hi := serve_issued grant hv request (hv.files.issued_of_find? hf)
      have hgone : (v.serve grant request).volume.roster h = none := by
        rw [roster, hserve]
        rfl
      have hnone := roster_stays_none hv' hi hgone rest
      rw [roster_of_find? hf'] at hnone
      cases hnone
    · rw [if_neg he] at hserve
      rw [ih hv' (serve_fit grant hv hfit request) hserve hf', acts, List.foldl_append]
      cases ha : request.actOn? h (v.serve grant request).result with
      | none => rfl
      | some act =>
        simp only [Option.elim, OpenFile.copy_perform (hfit.files h file hf).position_le,
          Option.toList_some, List.foldl_cons, List.foldl_nil]

theorem opens_of_live {steps : List (Allocator × Request)} (ho : o ∈ v.live steps) :
    ∃ before step later, steps = before ++ step :: later ∧ (v.after before).Opens step o := by
  induction steps generalizing v with
  | nil => cases ho
  | cons step rest ih =>
    obtain ⟨grant, request⟩ := step
    rw [live] at ho
    obtain hm | hm := List.mem_append.mp ho
    · obtain ⟨hopen, -⟩ := List.mem_filter.mp hm
      exact ⟨[], _, rest, rfl, Option.mem_toList.mp hopen⟩
    · obtain ⟨before, later, more, rfl, hopens⟩ := ih hm
      exact ⟨(grant, request) :: before, later, more, rfl, hopens⟩

/-- After every run of a fresh volume an open file was opened by a step of the run, and it is what the
acts on its handle since then make of the copy that it was opened on. A request that has not acted on
it, because it names another handle or has failed, leaves it as it was unless it ends it. -/
theorem files_follow_own_acts (l : Limits) (steps : List (Allocator × Request)) :
    let start := ofLimits l
    let v := start.after steps
    (∀ h file, v.files.find? h = some file →
      ∃ before step later o, steps = before ++ step :: later ∧
        (start.after before).Opens step o ∧ o.handle = h) ∧
    (∀ before step later o, steps = before ++ step :: later → (start.after before).Opens step o →
      ∀ file, v.files.find? o.handle = some file →
        file.copy =
          (((start.after before).serve step.1 step.2).volume.acts o.handle later).foldl
            Copy.perform (Copy.start (start.after before).archive o)) ∧
    (∀ h file grant request, v.files.find? h = some file → ends h request = false →
      request.actOn? h (v.serve grant request).result = none →
        (v.serve grant request).volume.files.find? h = some file) := by
  intro start v
  have hstart : start.Sound := ofLimits_sound l
  refine ⟨?_, ?_, ?_⟩
  · intro h file hf
    have hopen : h ∈ v.accepted := mem_accepted.mpr ⟨_, roster_of_find? hf⟩
    obtain ⟨o, ho, rfl⟩ := (mem_accepted_after l steps h).mp hopen
    obtain ⟨before, step, later, hsplit, hopens⟩ := opens_of_live ho
    exact ⟨before, step, later, o, hsplit, hopens, rfl⟩
  · intro before step later o hsplit hopens file hf
    have hbefore : (start.after before).Sound := after_sound hstart before
    have hfit : (start.after before).Fit := after_fit hstart (ofLimits_fit l) before
    have hv : v = ((start.after before).serve step.1 step.2).volume.after later := by
      rw [← after_cons, ← after_append, ← hsplit]
    obtain ⟨file₀, hfile₀, hcopy⟩ := hopens.copy hbefore
    rw [hv] at hf
    rw [copy_after (serve_sound step.1 hbefore step.2) (serve_fit step.1 hbefore hfit step.2)
      hfile₀ hf, hcopy]
  · intro h file grant request hf hend hact
    have hv : v.Sound := after_sound hstart steps
    have hfit : v.Fit := after_fit hstart (ofLimits_fit l) steps
    rw [serve_find? grant hv hfit hf request, hend, hact]
    rfl

end Volume

end Enclave
