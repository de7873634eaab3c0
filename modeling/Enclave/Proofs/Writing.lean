import Enclave.Proofs.Saving

namespace Enclave

theorem Mode.canWrite_eq_false_iff {m : Mode} : m.canWrite = false ↔ m = .read := by
  cases m <;> decide

theorem OpenFile.refusal_write (f : OpenFile) (elementSize count available : Nat) (short : Fault) :
    f.refusal .write elementSize count available short =
      if f.mode = .read then some (.modeViolation .read .write)
      else if wordLimit ≤ elementSize * count then some .productOverflow
      else if available < elementSize * count then some short
      else none := by
  rw [refusal]
  by_cases hm : f.mode = .read
  · rw [if_pos hm, hm]
    rfl
  · have hallows : f.mode.allows .write := by
      rw [← Mode.canWrite_eq_false_iff, Bool.not_eq_false] at hm
      exact hm
    rw [if_neg hm, if_neg (not_not.mpr hallows)]

namespace Volume

variable {v v' v₁ v₂ : Volume} {l : Limits} {h : Handle} {file : OpenFile} {data : Bytes}
  {elementSize count : Nat}

def GrowsAlike (v : Volume) : Prop :=
  ∀ h file, v.files.find? h = some file → file.buffer.growth = v.growth

theorem Makes.growsAlike {c : Change} (hm : Makes v c v') (hv : v.GrowsAlike) :
    v'.GrowsAlike := by
  have hsame : v'.growth = v.growth := by rw [growth, growth, hm.limits.1]
  intro g file hg
  rw [hsame]
  exact hm.files_keep (fun _ _ _ _ => rfl) (fun _ _ hf _ => hf) (fun _ _ hf => hf) hv g file hg

theorem Leads.growsAlike {cs : List Change} (hl : Leads v cs v') (hv : v.GrowsAlike) :
    v'.GrowsAlike := by
  induction hl with
  | refl => exact hv
  | step hm _ ih => exact ih (hm.growsAlike hv)

theorem ofLimits_growsAlike (l : Limits) : (ofLimits l).GrowsAlike := by
  intro h file hf
  rw [FileTable.find?_eq_some] at hf
  cases hf

theorem after_growsAlike (l : Limits) (steps : List (Allocator × Request)) :
    ((ofLimits l).after steps).GrowsAlike := by
  have hstart : (ofLimits l).Sound ∧ (ofLimits l).GrowsAlike :=
    ⟨ofLimits_sound l, ofLimits_growsAlike l⟩
  refine (after_keeps (fun w => w.Sound ∧ w.GrowsAlike) ?_ hstart steps).2
  rintro w grant request ⟨hsound, halike⟩
  obtain ⟨cs, hl, -⟩ := serve_leads grant hsound request
  exact ⟨hl.sound hsound, hl.growsAlike halike⟩

variable (grant : Allocator)

theorem Obeys.capacityAfter_eq (hv : v.Obeys l) (halike : v.GrowsAlike)
    (hf : v.files.find? h = some file) (data : Bytes) :
    file.buffer.capacityAfter file.position data =
      (Growth.mk l.initialCapacity).capacityFor file.buffer.capacity
        (file.position + data.length) := by
  rw [Buffer.capacityAfter, halike h file hf, growth, hv.limits_eq]

theorem write_of_error {e : Fault}
    (he : (v.write grant h data elementSize count).result = .error e) :
    (v.write grant h data elementSize count).volume = v := by
  cases hf : v.files.find? h with
  | none => rw [write_of_none grant hf]
  | some file =>
    obtain ⟨-, -, hsame⟩ | ⟨n, hok, -⟩ := write_cases grant hf data elementSize count
    · exact hsame
    · rw [hok] at he
      cases he

theorem write_nothing (hz : elementSize * count = 0) :
    (v.write grant h data elementSize count).volume = v := by
  cases hf : v.files.find? h with
  | none => rw [write_of_none grant hf]
  | some file =>
    rw [write_of_some grant hf]
    cases file.refusal .write elementSize count data.length .dataTooShort with
    | some e => rfl
    | none => simp only [if_pos hz]

theorem le_of_write_ok (hf : v.files.find? h = some file) {m : Nat}
    (hok : (v.write grant h data elementSize count).result = .ok m) :
    elementSize * count ≤ data.length := by
  rw [write_of_some grant hf] at hok
  cases hr : file.refusal .write elementSize count data.length .dataTooShort with
  | none => exact (OpenFile.refusal_eq_none_iff.mp hr).2.2
  | some e =>
    rw [hr] at hok
    cases hok

/-- Why a write of `n` bytes is refused where `available` are given: the first reason that there is. -/
def writeRefusal (v : Volume) (l : Limits) (h : Handle) (available n : Nat) : Option Fault :=
  match v.files.find? h with
  | none => some .invalidHandle
  | some file =>
    let capacity := file.buffer.capacity
    let target := (Growth.mk l.initialCapacity).capacityFor capacity (file.position + n)
    if file.mode = .read then some (.modeViolation .read .write)
    else if wordLimit ≤ n then some .productOverflow
    else if 0 < n ∧ available < n then some .dataTooShort
    else if n = 0 then none
    else if wordLimit ≤ file.position + n then some (.outOfMemory largestWord)
    else if l.Covers (v.used + (target - capacity)) ∧ (capacity < target → grant .growth target) then
      none
    else some (.outOfMemory (target - capacity))

theorem Obeys.write_result (hv : v.Obeys l) (halike : v.GrowsAlike) (h : Handle) (data : Bytes)
    (elementSize count : Nat) :
    (v.write grant h data elementSize count).result =
      match v.writeRefusal grant l h data.length (elementSize * count) with
      | some e => .error e
      | none => .ok (if elementSize * count = 0 then 0 else count) := by
  cases hf : v.files.find? h with
  | none => simp only [write_of_none grant hf, writeRefusal, hf]
  | some file =>
    rw [write_of_some grant hf]
    simp only [writeRefusal, hf, OpenFile.refusal_write]
    by_cases hm : file.mode = .read
    · simp only [if_pos hm]
    by_cases hw : wordLimit ≤ elementSize * count
    · simp only [if_neg hm, if_pos hw]
    by_cases ha : data.length < elementSize * count
    · simp only [if_neg hm, if_neg hw, if_pos ha, Nat.zero_lt_of_lt ha, true_and]
    have hlen : (data.take (elementSize * count)).length = elementSize * count :=
      List.length_take_of_le (Nat.le_of_not_lt ha)
    have htarget := hv.capacityAfter_eq halike hf (data.take (elementSize * count))
    have hfits := hv.fits_iff grant file.buffer file.position (data.take (elementSize * count))
    rw [htarget, hlen] at hfits
    simp only [if_neg hm, if_neg hw, ha, and_false, if_false, Buffer.shortage, htarget, hlen]
    by_cases hz : elementSize * count = 0
    · simp only [if_pos hz]
    have hcount : elementSize * count / elementSize = count :=
      Nat.mul_div_cancel_left _ (Nat.pos_of_ne_zero (left_ne_zero_of_mul hz))
    -- What would end past the word does not fit, whatever the limits are.
    by_cases hend : wordLimit ≤ file.position + elementSize * count
    · have hroom : ¬ file.buffer.Fits (grant .growth) file.position
          (data.take (elementSize * count)) v.budget :=
        fun hroom => Nat.not_lt_of_le hend (hfits.mp hroom).1
      simp only [if_neg hz, if_pos hend, if_neg hroom]
    · have hlt := Nat.lt_of_not_le hend
      simp only [if_neg hz, if_neg hend]
      by_cases hroom : file.buffer.Fits (grant .growth) file.position
          (data.take (elementSize * count)) v.budget
      · simp only [if_pos hroom, if_pos (hfits.mp hroom).2, hcount]
      · have hnot := fun hall => hroom (hfits.mpr ⟨hlt, hall⟩)
        simp only [if_neg hroom, if_neg hnot]

namespace Makes

theorem eq_of_wrote (hm : Makes v (.wrote h file data) v') :
    v' = { v with
      files := v.files.replace h (file.written data)
      budget := v.budget.raise
        (file.buffer.capacityAfter file.position data - file.buffer.capacity) } := by
  cases hm with
  | wrote _ _ _ _ _ _ _ => rfl

theorem budget_of_wrote (hm : Makes v (.wrote h file data) v') :
    v'.budget = v.budget.raise
      (file.buffer.capacityAfter file.position data - file.buffer.capacity) :=
  congrArg budget hm.eq_of_wrote

theorem unique_of_wrote (hm : Makes v (.wrote h file data) v₁)
    (hm' : Makes v (.wrote h file data) v₂) : v₁ = v₂ :=
  hm.eq_of_wrote.trans hm'.eq_of_wrote.symm

end Makes

theorem Obeys.effect_of_wrote (hv : v.Obeys l) (halike : v.GrowsAlike)
    (hf : v.files.find? h = some file) (hm : Makes v (.wrote h file data) v') :
    let finish := file.position + data.length
    let capacity := file.buffer.capacity
    let target := (Growth.mk l.initialCapacity).capacityFor capacity finish
    (∃ file', v'.files.find? h = some file' ∧ file'.name = file.name ∧ file'.mode = file.mode ∧
      file'.contents =
        file.contents.take file.position ++ data ++ file.contents.drop finish ∧
      file'.size = max file.size finish ∧ file'.position = finish ∧
      file'.buffer.capacity = target) ∧
    v'.used = v.used + (target - capacity) := by
  intro finish capacity target
  have hfit : file.Fit v.limits := hv.safe.fit.files h file hf
  have htarget : (file.written data).buffer.capacity = target := hv.capacityAfter_eq halike hf data
  have hused : v'.used + capacity = v.used + target := htarget ▸ hm.used_of_wrote
  have hle : capacity ≤ target := Growth.le_capacityFor _ _ _
  refine ⟨⟨file.written data, hm.find?_wrote, rfl, rfl, ?_, ?_, rfl, htarget⟩, by omega⟩
  · exact overlay_of_le hfit.position_le data
  · exact file.size_written data

/-- What a write of `n` bytes does to every reachable volume. It is refused for the first reason that
there is, and then nothing has changed. Otherwise its bytes take the place of those at the cursor, the
cursor moves past them, and the file grows to the capacity that its growth has for them, for which the
volume is charged. -/
theorem write_exact (l : Limits) (steps : List (Allocator × Request)) (h : Handle) (data : Bytes)
    (elementSize count : Nat) :
    let v := (ofLimits l).after steps
    let n := elementSize * count
    let result := (v.write grant h data elementSize count).result
    let v' := (v.write grant h data elementSize count).volume
    result = (match v.writeRefusal grant l h data.length n with
      | some e => .error e
      | none => .ok (if n = 0 then 0 else count)) ∧
    (∀ e, result = .error e → v' = v) ∧ (n = 0 → v' = v) ∧
    ∀ file, v.files.find? h = some file → n ≠ 0 → result = .ok count →
      let capacity := file.buffer.capacity
      let target := (Growth.mk l.initialCapacity).capacityFor capacity (file.position + n)
      (∃ file', v'.files.find? h = some file' ∧ file'.name = file.name ∧ file'.mode = file.mode ∧
        file'.contents = file.contents.take file.position ++ data.take n ++
          file.contents.drop (file.position + n) ∧
        file'.size = max file.size (file.position + n) ∧
        file'.position = file.position + n ∧ file'.buffer.capacity = target) ∧
      v'.used = v.used + (target - capacity) ∧ v'.archive = v.archive ∧ v'.opened = v.opened ∧
      ∀ g, g ≠ h → v'.files.find? g = v.files.find? g := by
  intro v n result v'
  have hv : v.Obeys l := after_obeys l steps
  have halike : v.GrowsAlike := after_growsAlike l steps
  have hresult := hv.write_result grant halike h data elementSize count
  refine ⟨hresult, fun e he => write_of_error grant he, fun hz => write_nothing grant hz, ?_⟩
  intro file hf hz hok capacity target
  have hlen : (data.take n).length = n := List.length_take_of_le (le_of_write_ok grant hf hok)
  obtain ⟨e, herror, -⟩ | ⟨m, -, ⟨hnothing, -⟩ | hwrote⟩ :=
    write_cases grant hf data elementSize count
  · cases hok.symm.trans herror
  · exact absurd hnothing hz
  have heffect := hv.effect_of_wrote halike hf hwrote
  rw [hlen] at heffect
  have hedits := v.write_edits grant h data elementSize count
  exact ⟨heffect.1, heffect.2, hwrote.archive, hedits.opened, fun g hg => hedits.find?_of_ne hg⟩

def writes (h : Handle) (parts : List Bytes) : List (Allocator × Request) :=
  parts.map fun part => (grant, .write h part 1 part.length)

theorem Makes.wrote_append {d₁ d₂ : Bytes} (hm₁ : Makes v (.wrote h file d₁) v₁)
    (hm₂ : Makes v₁ (.wrote h (file.written d₁) d₂) v₂)
    (hfits : file.buffer.Fits (grant .growth) file.position (d₁ ++ d₂) v.budget) :
    Makes v (.wrote h file (d₁ ++ d₂)) v₂ := by
  have hwritten : file.written (d₁ ++ d₂) = (file.written d₁).written d₂ := by
    simp only [OpenFile.written, Buffer.written_append, List.length_append, Nat.add_assoc]
  have hgrown := file.buffer.grown_append file.position d₁ d₂
  rw [hm₂.eq_of_wrote, hm₁.eq_of_wrote]
  cases hm₁ with
  | wrote _ _ _ _ hf hm _ =>
    have hm := Makes.wrote h file (d₁ ++ d₂) (grant .growth) hf hm hfits
    rw [hwritten, hgrown, ← Budget.raise_raise] at hm
    simp only [FileTable.replace_replace]
    exact hm

theorem Safe.write_parts (hgrant : ∀ m n, m ≤ n → grant .growth n → grant .growth m)
    (hv : v.Safe) (hf : v.files.find? h = some file) (hm : file.mode.canWrite)
    (parts : List Bytes) :
    (file.buffer.Fits (grant .growth) file.position parts.flatten v.budget ∧
      (v.run (writes grant h parts)).map (·.result) =
        parts.map (fun part => .ok (.number part.length)) ∧
      Makes v (.wrote h file parts.flatten) (v.after (writes grant h parts))) ∨
    ¬ file.buffer.Fits (grant .growth) file.position parts.flatten v.budget ∧
      ∃ r ∈ v.run (writes grant h parts), ∃ e, r.result = .error e := by
  induction parts generalizing v file with
  | nil =>
    obtain ⟨hfits, hwrote⟩ := wrote_nil grant hv hf hm
    exact .inl ⟨hfits, rfl, hwrote⟩
  | cons part rest ih =>
    -- All fits if the part does and then the rest, which goes on where the part ends.
    have happend := Buffer.fits_append hgrant file.buffer file.position part rest.flatten v.budget
    simp only [List.flatten_cons, writes, List.map_cons, run, after_cons]
    obtain ⟨hfirst, hok, hwrote⟩ | ⟨hfirst, e, herror, -⟩ := write_whole grant hv hf hm part
    · have hbudget := hwrote.budget_of_wrote
      have hresponse : (v.serve grant (.write h part 1 part.length)).result =
          .ok (.number part.length) :=
        congrArg (·.map Answer.number) hok
      obtain ⟨hsecond, hresults, hwrotes⟩ | ⟨hsecond, r, hr, hfail⟩ :=
        ih (hwrote.leads.safe hv) hwrote.find?_wrote hm
      · have hfits := happend.mpr ⟨hfirst, hbudget ▸ hsecond⟩
        exact .inl ⟨hfits, congrArg₂ List.cons hresponse hresults,
          hwrote.wrote_append grant hwrotes hfits⟩
      · refine .inr ⟨fun hfits => hsecond (hbudget ▸ (happend.mp hfits).2), r, ?_, hfail⟩
        exact List.mem_cons_of_mem _ hr
    · have hresponse : (v.serve grant (.write h part 1 part.length)).result = .error e :=
        congrArg (·.map Answer.number) herror
      exact .inr ⟨fun hfits => hfirst (happend.mp hfits).1, _, List.mem_cons_self, e, hresponse⟩

/-- It cannot be told whether data was written at once or in parts. The write of all of it succeeds
exactly if the writes of its parts all do, and then both leave the same volume. The allocator refuses
no region of which it grants a longer one. -/
theorem write_in_parts (hgrant : ∀ m n, m ≤ n → grant .growth n → grant .growth m) (l : Limits)
    (steps : List (Allocator × Request)) {h : Handle} {file : OpenFile}
    (hf : ((ofLimits l).after steps).files.find? h = some file) (hm : file.mode.canWrite)
    (parts : List Bytes) :
    let v := (ofLimits l).after steps
    let whole := v.serve grant (.write h parts.flatten 1 parts.flatten.length)
    let responses := v.run (writes grant h parts)
    ((∃ a, whole.result = .ok a) ↔ ∀ r ∈ responses, ∃ a, r.result = .ok a) ∧
    ∀ a, whole.result = .ok a →
      v.after (writes grant h parts) = whole.volume ∧
      responses.map (·.result) = parts.map (fun part => .ok (.number part.length)) ∧
      a = .number parts.flatten.length := by
  intro v whole responses
  have hv : v.Safe := (after_obeys l steps).safe
  have hwhole := write_whole grant hv hf hm parts.flatten
  have hparts := hv.write_parts grant hgrant hf hm parts
  obtain ⟨hfits, hresults, hwrotes⟩ | ⟨hfits, r, hr, e, hfail⟩ := hparts
  · have hwrote := hwhole.resolve_right fun hfail => hfail.1 hfits
    have hok : whole.result = .ok (.number parts.flatten.length) :=
      congrArg (·.map Answer.number) hwrote.2.1
    refine ⟨iff_of_true ⟨_, hok⟩ fun r hr => ?_, fun a ha => ⟨?_, hresults, ?_⟩⟩
    · obtain ⟨part, -, hpart⟩ := List.mem_map.mp (hresults ▸ List.mem_map_of_mem hr)
      exact ⟨_, hpart.symm⟩
    · exact hwrotes.unique_of_wrote hwrote.2.2
    · exact Except.ok.inj (ha.symm.trans hok)
  · obtain ⟨-, e', herror, -⟩ := hwhole.resolve_left fun hok => hfits hok.1
    have hwhole : whole.result = .error e' := congrArg (·.map Answer.number) herror
    refine ⟨iff_of_false ?_ ?_, fun a ha => ?_⟩
    · rintro ⟨a, ha⟩
      cases hwhole.symm.trans ha
    · intro hall
      obtain ⟨a, ha⟩ := hall r hr
      cases hfail.symm.trans ha
    · cases hwhole.symm.trans ha

/-- Six bytes take a file of four to a capacity of eight, written at once or in three parts of which
one is empty. -/
theorem write_in_parts_growing :
    let grant : Allocator := fun _ n => decide (n ≤ 16)
    let l : Limits := ⟨1, 1, 8, 4, some 32⟩
    let steps : List (Allocator × Request) := [(grant, .openAs "a" .write)]
    let h : Handle := ⟨0, 1⟩
    let v := (ofLimits l).after steps
    let whole := v.serve grant (.write h [1, 2, 3, 4, 5, 6] 1 6)
    whole.result = .ok (.number 6) ∧ whole.volume.used = 8 ∧
      v.after (writes grant h [[1, 2, 3], [], [4, 5, 6]]) = whole.volume := by
  intro grant l steps h v whole
  have hgrant : ∀ m n, m ≤ n → grant .growth n → grant .growth m := by
    intro m n hle hn
    exact decide_eq_true (Nat.le_trans hle (of_decide_eq_true hn))
  have hf : v.files.find? h = some ⟨"a", ⟨[], 4, ⟨4⟩⟩, 0, .write⟩ := by decide
  have hok : whole.result = .ok (.number 6) := by decide +kernel
  have hused : whole.volume.used = 8 := by decide +kernel
  obtain ⟨-, hsame⟩ := write_in_parts grant hgrant l steps hf rfl [[1, 2, 3], [], [4, 5, 6]]
  exact ⟨hok, hused, (hsame _ hok).1⟩

end Volume

end Enclave
