import Enclave.Proofs.Admission

namespace Enclave

namespace OpenFile

variable (f : OpenFile)

theorem ahead_add (m n : Nat) :
    f.ahead (m + n) = f.ahead m ++ (f.advance (f.ahead m).length).ahead n := by
  have hskip : f.contents.drop (f.position + (f.ahead m).length) =
      (f.contents.drop f.position).drop m := by
    have hsize : f.contents.length = f.size := rfl
    rw [List.drop_drop, List.drop_eq_drop_iff, length_ahead]
    omega
  rw [ahead, List.take_add, ← hskip]
  rfl

theorem advance_advance (m n : Nat) : (f.advance m).advance n = f.advance (m + n) := by
  rw [advance, advance, advance, Nat.add_assoc]

def element (f : OpenFile) (elementSize k : Nat) : Bytes :=
  (f.contents.drop (f.position + k * elementSize)).take elementSize

theorem element_zero (elementSize : Nat) : f.element elementSize 0 = f.ahead elementSize := by
  rw [element, Nat.zero_mul]
  rfl

theorem element_advance (elementSize k : Nat) :
    (f.advance elementSize).element elementSize k = f.element elementSize (k + 1) := by
  have hskip : f.position + elementSize + k * elementSize =
      f.position + (k + 1) * elementSize := by
    rw [Nat.add_mul, Nat.one_mul]
    omega
  rw [element, element, ← hskip]
  rfl

end OpenFile

namespace Volume

variable {v : Volume} {h : Handle} {file : OpenFile} {out : Bytes} {elementSize : Nat}

def left (v : Volume) (h : Handle) : Nat :=
  match v.files.find? h with
  | none => 0
  | some file => file.size - file.position

theorem left_lt_of_read (hr : (v.read h out elementSize 1).1.result = .ok 1) :
    (v.read h out elementSize 1).1.volume.left h < v.left h := by
  cases hf : v.files.find? h with
  | none =>
    rw [read_of_none hf] at hr
    cases hr
  | some file =>
    cases hrefusal : file.refusal .read elementSize 1 out.length .outputTooShort with
    | some e =>
      rw [read_of_some hf, hrefusal] at hr
      cases hr
    | none =>
      rw [read_of_not_refused hf hrefusal] at hr ⊢
      have hwhole : (file.ahead (elementSize * 1)).length / elementSize = 1 := Except.ok.inj hr
      have hpos : (file.ahead (elementSize * 1)).length ≠ 0 := by
        intro hz
        rw [hz, Nat.zero_div] at hwhole
        cases hwhole
      have hle := file.length_ahead (elementSize * 1)
      simp only [left, hf, FileTable.replace_find?_self hf]
      change file.size - (file.position + (file.ahead (elementSize * 1)).length) < _
      omega

/-- What a loop of reads has come to: the region after each read that got an element, the reply to
the read that got none, and the region after that. -/
structure Drained where
  rounds : List Bytes
  reply : Reply Nat
  out : Bytes

def drain (v : Volume) (h : Handle) (out : Bytes) (elementSize : Nat) : Drained :=
  let read := v.read h out elementSize 1
  if read.1.result = .ok 1 then
    let rest := read.1.volume.drain h read.2 elementSize
    { rest with rounds := read.2 :: rest.rounds }
  else ⟨[], read.1, read.2⟩
termination_by v.left h
decreasing_by exact left_lt_of_read ‹_›

theorem read_outcome (v : Volume) (h : Handle) (out : Bytes) (elementSize count : Nat) :
    (∃ e events, v.read h out elementSize count = (⟨.error e, v, events⟩, out)) ∨
    ∃ file, v.files.find? h = some file ∧
      let part := file.ahead (elementSize * count)
      part.length ≤ out.length ∧
        v.read h out elementSize count =
          (⟨.ok (part.length / elementSize),
              { v with files := v.files.replace h (file.advance part.length) }, []⟩,
            part ++ out.drop part.length) := by
  cases hf : v.files.find? h with
  | none => exact .inl ⟨_, _, read_of_none hf out elementSize count⟩
  | some file =>
    cases hr : file.refusal .read elementSize count out.length .outputTooShort with
    | some e =>
      have hread := read_of_some hf out elementSize count
      rw [hr] at hread
      exact .inl ⟨e, _, hread⟩
    | none =>
      obtain ⟨-, -, hroom⟩ := OpenFile.refusal_eq_none_iff.mp hr
      have hpart := Nat.le_trans (List.length_take_le _ (file.contents.drop file.position)) hroom
      exact .inr ⟨file, rfl, hpart, read_of_not_refused hf hr⟩

section Readable

variable (hf : v.files.find? h = some file) (hmode : file.mode.canRead)
include hf hmode

theorem read_of_readable (out : Bytes) (elementSize count : Nat)
    (hroom : elementSize * count ≤ out.length) (hword : elementSize * count < wordLimit) :
    let part := file.ahead (elementSize * count)
    v.read h out elementSize count =
      (⟨.ok (part.length / elementSize),
          { v with files := v.files.replace h (file.advance part.length) }, []⟩,
        part ++ out.drop part.length) :=
  read_of_not_refused hf (OpenFile.refusal_eq_none_iff.mpr ⟨hmode, hword, hroom⟩)

theorem read_bytes {n : Nat} (hroom : n ≤ out.length) (hword : n < wordLimit) :
    v.read h out 1 n =
      (⟨.ok (file.ahead n).length,
          { v with files := v.files.replace h (file.advance (file.ahead n).length) }, []⟩,
        file.ahead n ++ out.drop (file.ahead n).length) := by
  have hread := read_of_readable hf hmode out 1 n
  simp only [Nat.one_mul, Nat.div_one] at hread
  exact hread hroom hword

theorem read_bytes_add {m n : Nat} {whole first second : Bytes} (hwhole : m + n ≤ whole.length)
    (hfirst : m ≤ first.length) (hsecond : n ≤ second.length) (hword : m + n < wordLimit) :
    let once := v.read h whole 1 (m + n)
    let before := v.read h first 1 m
    let after := before.1.volume.read h second 1 n
    ∃ i j, before.1.result = .ok i ∧ after.1.result = .ok j ∧ once.1.result = .ok (i + j) ∧
      once.2.take (i + j) = before.2.take i ++ after.2.take j ∧
      once.1.volume = after.1.volume := by
  intro once before after
  have hm : m < wordLimit := Nat.lt_of_le_of_lt (Nat.le_add_right _ _) hword
  have hn : n < wordLimit := Nat.lt_of_le_of_lt (Nat.le_add_left _ _) hword
  have honce := read_bytes hf hmode hwhole hword
  have hbefore := read_bytes hf hmode hfirst hm
  have hmoved : before.1.volume.files.find? h = some (file.advance (file.ahead m).length) := by
    simp only [before, hbefore, FileTable.replace_find?_self hf]
  have hafter := read_bytes hmoved hmode hsecond hn
  simp only [file.ahead_add, List.length_append] at honce
  refine ⟨_, _, congrArg (·.1.result) hbefore, congrArg (·.1.result) hafter,
    congrArg (·.1.result) honce, ?_, ?_⟩
  · simp only [once, after, before, honce, hbefore, hafter]
    rw [List.take_left' List.length_append, List.take_left' rfl, List.take_left' rfl]
  · simp only [once, after, before, honce, hbefore, hafter, FileTable.replace_replace,
      OpenFile.advance_advance]

theorem drain_of_lt (hroom : elementSize ≤ out.length) (hword : elementSize < wordLimit)
    (hlt : file.size - file.position < elementSize) :
    let part := file.contents.drop file.position
    v.drain h out elementSize =
      ⟨[], ⟨.ok 0, { v with files := v.files.replace h (file.advance part.length) }, []⟩,
        part ++ out.drop part.length⟩ := by
  intro part
  have hlength : part.length < elementSize := by
    rw [List.length_drop]
    exact hlt
  have hpart : file.ahead elementSize = part := List.take_of_length_le (Nat.le_of_lt hlength)
  have hread := read_of_readable hf hmode out elementSize 1
  simp only [Nat.mul_one, hpart, Nat.div_eq_of_lt hlength] at hread
  rw [drain, hread hroom hword]
  rfl

theorem drain_of_le (hpos : 0 < elementSize) (hroom : elementSize ≤ out.length)
    (hword : elementSize < wordLimit) (hle : elementSize ≤ file.size - file.position) :
    let v' := { v with files := v.files.replace h (file.advance elementSize) }
    let out' := file.ahead elementSize ++ out.drop elementSize
    let rest := v'.drain h out' elementSize
    v.drain h out elementSize = { rest with rounds := out' :: rest.rounds } := by
  intro v' out' rest
  have hlength := OpenFile.length_ahead_of_le hle
  have hread := read_of_readable hf hmode out elementSize 1
  simp only [Nat.mul_one, hlength, Nat.div_self hpos] at hread
  rw [drain, hread hroom hword]
  rfl

end Readable

/-- A loop has read all that was ahead of the cursor of `file`: every whole element once and in
order, and then the bytes behind the last of them. What it has not read to is as it was before. -/
structure Drained.Exhausts (d : Drained) (v : Volume) (h : Handle) (file : OpenFile) (out : Bytes)
    (elementSize : Nat) : Prop where
  rounds_eq : d.rounds = (List.range ((file.size - file.position) / elementSize)).map
    fun k => file.element elementSize k ++ out.drop elementSize
  reply_eq : d.reply =
    ⟨.ok 0, { v with files := v.files.replace h { file with position := file.size } }, []⟩
  out_eq : d.out =
    let rest := (file.size - file.position) % elementSize
    file.contents.drop (file.size - rest) ++ (d.rounds.getLast?.getD out).drop rest

theorem Drained.Exhausts.of_lt (hp : file.position ≤ file.size)
    (hlt : file.size - file.position < elementSize) :
    let part := file.contents.drop file.position
    Exhausts
      ⟨[], ⟨.ok 0, { v with files := v.files.replace h (file.advance part.length) }, []⟩,
        part ++ out.drop part.length⟩ v h file out elementSize := by
  intro part
  have hlength : part.length = file.size - file.position := List.length_drop
  have hend : file.advance (file.size - file.position) = { file with position := file.size } := by
    rw [OpenFile.advance, Nat.add_sub_cancel' hp]
  rw [hlength, hend]
  refine ⟨?_, rfl, ?_⟩
  · rw [Nat.div_eq_of_lt hlt]
    rfl
  · simp only [Nat.mod_eq_of_lt hlt, Nat.sub_sub_self hp]
    rfl

theorem Drained.Exhausts.cons (hpos : 0 < elementSize)
    (hle : elementSize ≤ file.size - file.position) {rest : Drained} :
    let v' := { v with files := v.files.replace h (file.advance elementSize) }
    let out' := file.ahead elementSize ++ out.drop elementSize
    rest.Exhausts v' h (file.advance elementSize) out' elementSize →
      Exhausts { rest with rounds := out' :: rest.rounds } v h file out elementSize := by
  intro v' out' hrest
  -- A round takes one element off what is ahead, and leaves the region behind the element as it was.
  have hahead : (file.advance elementSize).size - (file.advance elementSize).position =
      file.size - file.position - elementSize :=
    (Nat.sub_sub _ _ _).symm
  have hlength := OpenFile.length_ahead_of_le hle
  have hdrop : out'.drop elementSize = out.drop elementSize := List.drop_left' hlength
  have hrounds := hrest.rounds_eq
  have hout := hrest.out_eq
  rw [hahead] at hrounds hout
  rw [hdrop] at hrounds
  refine ⟨?_, ?_, ?_⟩
  · rw [Nat.div_eq_sub_div hpos hle, List.range_succ_eq_map, List.map_cons, List.map_map,
      file.element_zero, hrounds]
    simp only [file.element_advance]
    rfl
  · rw [hrest.reply_eq]
    simp only [v', FileTable.replace_replace]
    rfl
  · rw [Nat.mod_eq_sub_mod hle, List.getLast?_cons]
    exact hout

theorem drain_exhausts (hf : v.files.find? h = some file) (hmode : file.mode.canRead)
    (hp : file.position ≤ file.size) (hpos : 0 < elementSize) (hroom : elementSize ≤ out.length)
    (hword : elementSize < wordLimit) :
    (v.drain h out elementSize).Exhausts v h file out elementSize := by
  generalize hn : (file.size - file.position) / elementSize = n
  -- The induction is on the elements that are still ahead.
  induction n generalizing v file out with
  | zero =>
    have hlt := (Nat.div_eq_zero_iff_lt hpos).mp hn
    rw [drain_of_lt hf hmode hroom hword hlt]
    exact .of_lt hp hlt
  | succ n ih =>
    have hle : elementSize ≤ file.size - file.position := by
      apply Nat.le_of_not_lt
      intro hlt
      rw [Nat.div_eq_of_lt hlt] at hn
      cases hn
    rw [drain_of_le hf hmode hpos hroom hword hle]
    refine .cons hpos hle (ih ?_ hmode ?_ ?_ ?_)
    · exact FileTable.replace_find?_self hf _
    · change file.position + elementSize ≤ file.size
      omega
    · rw [List.length_append, OpenFile.length_ahead_of_le hle]
      exact Nat.le_add_right _ _
    · have hsucc := Nat.div_eq_sub_div hpos hle
      rw [hn, Nat.sub_sub] at hsucc
      exact (Nat.succ.inj hsucc).symm

/-- How a file that can be read is read in pieces, in every reachable volume. Bytes that are read in
two parts are those that are read at once. A loop over its elements ends, gets every whole element
once, and leaves the cursor at the end. Whatever a read does not copy to is left of its region, and
a read that fails leaves all. -/
theorem reads_in_pieces (l : Limits) (steps : List (Allocator × Request)) {h : Handle}
    {file : OpenFile} (hf : ((ofLimits l).after steps).files.find? h = some file)
    (hmode : file.mode.canRead) :
    let v := (ofLimits l).after steps
    (∀ m n whole first second, m + n ≤ whole.length → m ≤ first.length → n ≤ second.length →
      m + n < wordLimit →
      let once := v.read h whole 1 (m + n)
      let before := v.read h first 1 m
      let after := before.1.volume.read h second 1 n
      ∃ i j, before.1.result = .ok i ∧ after.1.result = .ok j ∧ once.1.result = .ok (i + j) ∧
        once.2.take (i + j) = before.2.take i ++ after.2.take j ∧
        once.1.volume = after.1.volume) ∧
    (∀ elementSize out, 0 < elementSize → elementSize ≤ out.length → elementSize < wordLimit →
      let d := v.drain h out elementSize
      d.Exhausts v h file out elementSize ∧
        d.rounds.length = (file.size - file.position) / elementSize ∧
        d.reply.volume.files.find? h = some { file with position := file.size }) ∧
    ∀ g out elementSize count,
      let reply := (v.read g out elementSize count).1
      let out' := (v.read g out elementSize count).2
      (∀ e, reply.result = .error e → out' = out ∧ reply.volume = v) ∧
        ∀ n, reply.result = .ok n → ∃ f, v.files.find? g = some f ∧
          let part := f.ahead (elementSize * count)
          part.length ≤ out.length ∧ out' = part ++ out.drop part.length ∧
            n = part.length / elementSize ∧
            reply.volume.files.find? g = some (f.advance part.length) := by
  intro v
  have hfit : file.Fit v.limits := (after_obeys l steps).safe.fit.files h file hf
  refine ⟨?_, ?_, ?_⟩
  · intro m n whole first second hwhole hfirst hsecond hword
    exact read_bytes_add hf hmode hwhole hfirst hsecond hword
  · intro elementSize out hpos hroom hword d
    have hd : d.Exhausts v h file out elementSize :=
      drain_exhausts hf hmode hfit.position_le hpos hroom hword
    refine ⟨hd, ?_, ?_⟩
    · rw [hd.rounds_eq, List.length_map, List.length_range]
    · rw [hd.reply_eq]
      exact FileTable.replace_find?_self hf _
  · intro g out elementSize count
    obtain ⟨e, events, hread⟩ | ⟨f, hg, hpart, hread⟩ := read_outcome v g out elementSize count
    · rw [hread]
      exact ⟨fun _ _ => ⟨rfl, rfl⟩, fun _ hn => nomatch hn⟩
    · rw [hread]
      refine ⟨(fun _ he => nomatch he), fun n hn => ?_⟩
      exact ⟨f, hg, hpart, rfl, (Except.ok.inj hn).symm,
        FileTable.replace_find?_self hg _⟩

/-- Five bytes are read two at a time from the first of them: two rounds get two bytes each, and the
last byte comes after them. -/
theorem reads_in_pieces_of_pairs :
    let grant : Allocator := fun _ _ => true
    let v := (ofLimits .usual).after
      [(grant, .save "a" [1, 2, 3, 4, 5]), (grant, .openAs "a" .read)]
    let d := v.drain ⟨0, 2⟩ [7, 7, 7] 2
    d.rounds = [[1, 2, 7], [3, 4, 7]] ∧ d.reply.result = .ok 0 ∧ d.out = [5, 4, 7] ∧
      ∃ file, d.reply.volume.files.find? ⟨0, 2⟩ = some file ∧ file.position = 5 := by
  intro grant v d
  have hf : v.files.find? ⟨0, 2⟩ = some ⟨"a", ⟨[1, 2, 3, 4, 5], 1024, {}⟩, 0, .read⟩ := by
    decide +kernel
  obtain ⟨-, hloop, -⟩ := reads_in_pieces .usual
    [(grant, .save "a" [1, 2, 3, 4, 5]), (grant, .openAs "a" .read)] hf rfl
  obtain ⟨⟨hrounds, hreply, hout⟩, -, hend⟩ :=
    hloop 2 [7, 7, 7] (by decide) (by decide) (by decide)
  have hrounds' : d.rounds = [[1, 2, 7], [3, 4, 7]] := hrounds.trans (by decide)
  rw [hrounds'] at hout
  exact ⟨hrounds', congrArg (·.result) hreply, hout.trans (by decide), _, hend, rfl⟩

end Volume

end Enclave
