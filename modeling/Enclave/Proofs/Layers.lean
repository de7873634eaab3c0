import Enclave.Proofs.Storage
import Mathlib.Data.List.GetD

namespace Enclave

theorem getD_append_zeros (data : Bytes) (n i : Nat) :
    (data ++ List.replicate n 0).getD i 0 = data.getD i 0 := by
  by_cases h : i < data.length
  · rw [List.getD_append _ _ _ _ h]
  · rw [List.getD_append_right _ _ _ _ (Nat.le_of_not_lt h),
      List.getD_eq_default _ _ (Nat.le_of_not_lt h), List.getD_eq_getElem?_getD,
      List.getElem?_getD_replicate_default_eq]

theorem getD_overlay (content data : Bytes) (offset i : Nat) :
    (overlay content data offset).getD i 0 =
      if offset ≤ i ∧ i < offset + data.length then data.getD (i - offset) 0
      else content.getD i 0 := by
  have hfront := length_front content offset
  -- Before the data there is the content and then the gap, which reads as what is past the content.
  by_cases hbefore : i < offset
  · rw [if_neg (by omega), overlay, List.append_assoc, List.getD_append _ _ _ _ (by omega),
      getD_append_zeros, List.getD_eq_getElem?_getD, List.getElem?_take_of_lt hbefore,
      List.getD_eq_getElem?_getD]
  · rw [overlay, List.append_assoc, List.getD_append_right _ _ _ _ (by omega), hfront]
    by_cases hdata : i < offset + data.length
    · rw [if_pos (by omega), List.getD_append _ _ _ _ (by omega)]
    · rw [if_neg (by omega), List.getD_append_right _ _ _ _ (by omega)]
      simp only [List.getD_eq_getElem?_getD, List.getElem?_drop]
      congr 2
      omega

namespace Buffer

inductive Call where
  | write (offset : Nat) (data : Bytes)
  | reserve (required : Nat)
  deriving DecidableEq, Repr

namespace Call

def finish : Call → Nat
  | .write offset data => offset + data.length
  | .reserve required => required

def extent : Call → Nat
  | .write offset data => offset + data.length
  | .reserve _ => 0

def byte? (i : Nat) : Call → Option UInt8
  | .write offset data => if offset ≤ i then data[i - offset]? else none
  | .reserve _ => none

def onto (b : Buffer) : Call → Buffer
  | .write offset data => b.written offset data
  | .reserve required => { b with capacity := b.growth.capacityFor b.capacity required }

theorem extent_le_finish (call : Call) : call.extent ≤ call.finish := by
  cases call with
  | write offset data => exact Nat.le_refl _
  | reserve required => exact Nat.zero_le _

variable (b : Buffer) (call : Call)

theorem growth_onto : (call.onto b).growth = b.growth := by
  cases call <;> rfl

theorem capacity_onto :
    (call.onto b).capacity = b.growth.capacityFor b.capacity call.finish := by
  cases call <;> rfl

theorem le_capacity_onto : b.capacity ≤ (call.onto b).capacity := by
  rw [capacity_onto]
  exact b.growth.le_capacityFor _ _

theorem size_onto : (call.onto b).size = max b.size call.extent := by
  cases call with
  | write offset data => exact length_overlay _ _ _
  | reserve required => exact (Nat.max_zero _).symm

theorem getD_onto (i : Nat) :
    (call.onto b).content.getD i 0 = (call.byte? i).getD (b.content.getD i 0) := by
  cases call with
  | write offset data =>
    simp only [onto, written, getD_overlay, byte?]
    by_cases hbefore : offset ≤ i
    · by_cases hdata : i < offset + data.length
      · rw [if_pos ⟨hbefore, hdata⟩, if_pos hbefore, List.getD_eq_getElem?_getD,
          List.getElem?_eq_getElem (by omega)]
        rfl
      · rw [if_neg (fun h => hdata h.2), if_pos hbefore, List.getElem?_eq_none (by omega)]
        rfl
    · rw [if_neg (fun h => hbefore h.1), if_neg hbefore]
      rfl
  | reserve required => rfl

end Call

def layered (b : Buffer) (calls : List Call) : Buffer :=
  calls.foldl Call.onto b

theorem size_layered (b : Buffer) (calls : List Call) :
    (b.layered calls).size = max b.size ((calls.map Call.extent).foldr max 0) := by
  induction calls generalizing b with
  | nil => exact (Nat.max_zero _).symm
  | cons call rest ih =>
    have hrest := ih (call.onto b)
    rw [call.size_onto, Nat.max_assoc] at hrest
    exact hrest

/-- However often a buffer has grown on the way, it is as if it had grown once. -/
theorem capacity_layered (b : Buffer) (calls : List Call) :
    (b.layered calls).capacity =
      b.growth.capacityFor b.capacity ((calls.map Call.finish).foldr max 0) := by
  induction calls generalizing b with
  | nil => exact (b.growth.capacityFor_of_le (Nat.zero_le _)).symm
  | cons call rest ih =>
    have hrest := ih (call.onto b)
    rw [call.growth_onto, call.capacity_onto, Growth.capacityFor_capacityFor] at hrest
    exact hrest

theorem getD_layered (b : Buffer) (calls : List Call) (i : Nat) :
    (b.layered calls).content.getD i 0 =
      (calls.filterMap (Call.byte? i)).getLast?.getD (b.content.getD i 0) := by
  induction calls generalizing b with
  | nil => rfl
  | cons call rest ih =>
    have hrest := ih (call.onto b)
    rw [call.getD_onto] at hrest
    refine Eq.trans hrest ?_
    cases hbyte : call.byte? i with
    | none => rw [List.filterMap_cons_none hbyte]; rfl
    | some byte =>
      rw [List.filterMap_cons_some hbyte, List.getLast?_cons]
      rfl

def perform (s : Buffer × Budget) (step : (Nat → Bool) × Call) : Outcome (Buffer × Budget) Unit :=
  match step with
  | (grant, .write offset data) =>
    match s.1.write grant offset data s.2 with
    | ⟨result, s'⟩ => ⟨result.map fun _ => (), s'⟩
  | (grant, .reserve required) => s.1.makeRoom grant required s.2

def after (s : Buffer × Budget) (steps : List ((Nat → Bool) × Call)) : Buffer × Budget :=
  steps.foldl (fun s step => (perform s step).state) s

def succeeded (s : Buffer × Budget) : List ((Nat → Bool) × Call) → List Call
  | [] => []
  | step :: rest =>
    match perform s step with
    | ⟨.ok (), s'⟩ => step.2 :: succeeded s' rest
    | ⟨.error _, s'⟩ => succeeded s' rest

/-- A call succeeds and is charged for what the buffer grows by, or changes nothing. -/
theorem perform_cases (s : Buffer × Budget) (step : (Nat → Bool) × Call) :
    (perform s step = ⟨.ok (), step.2.onto s.1,
        s.2.raise ((step.2.onto s.1).capacity - s.1.capacity)⟩ ∧
      ((step.2.onto s.1).capacity ≤ s.1.capacity ∨
        s.2.Admits ((step.2.onto s.1).capacity - s.1.capacity))) ∨
    ∃ e, perform s step = ⟨.error e, s⟩ := by
  obtain ⟨grant, call⟩ := step
  cases call with
  | write offset data =>
    rw [perform, write_eq]
    by_cases h : s.1.Fits grant offset data s.2
    · rw [if_pos h]
      exact .inl ⟨rfl, h.2.imp_right And.left⟩
    · rw [if_neg h]
      exact .inr ⟨_, rfl⟩
  | reserve required =>
    rw [perform, makeRoom_eq]
    by_cases h : s.1.growth.capacityFor s.1.capacity required ≤ s.1.capacity ∨
        s.2.Admits (s.1.growth.capacityFor s.1.capacity required - s.1.capacity) ∧
          grant (s.1.growth.capacityFor s.1.capacity required)
    · simp only [if_pos h]
      exact .inl ⟨rfl, h.imp_right And.left⟩
    · simp only [if_neg h]
      exact .inr ⟨_, rfl⟩

theorem after_fst (s : Buffer × Budget) (steps : List ((Nat → Bool) × Call)) :
    (after s steps).1 = s.1.layered (succeeded s steps) := by
  induction steps generalizing s with
  | nil => rfl
  | cons step rest ih =>
    have hafter : after s (step :: rest) = after (perform s step).state rest := rfl
    obtain ⟨hok, -⟩ | ⟨e, herror⟩ := perform_cases s step
    · have hdone : succeeded s (step :: rest) =
          step.2 :: succeeded (perform s step).state rest := by
        simp only [succeeded, hok]
      rw [hafter, ih, hdone, hok]
      rfl
    · have hdone : succeeded s (step :: rest) = succeeded (perform s step).state rest := by
        simp only [succeeded, herror]
      rw [hafter, ih, hdone, herror]

/-- The content is within the capacity, the capacity is a word, and the budget counts it besides what
it counted before. -/
structure PaidBy (s : Buffer × Budget) (before : Budget) : Prop where
  size_le : s.1.size ≤ s.1.capacity
  capacity_lt : s.1.capacity < wordLimit
  budget_eq : s.2 = before.raise s.1.capacity

theorem PaidBy.perform {s : Buffer × Budget} {before : Budget} (hs : PaidBy s before)
    (step : (Nat → Bool) × Call) : PaidBy (perform s step).state before := by
  obtain ⟨hok, hroom⟩ | ⟨e, herror⟩ := perform_cases s step
  · have hle := step.2.le_capacity_onto s.1
    have htotal : s.1.capacity + ((step.2.onto s.1).capacity - s.1.capacity) =
        (step.2.onto s.1).capacity :=
      Nat.add_sub_cancel' hle
    rw [hok]
    refine ⟨?_, ?_, ?_⟩
    · have hreach := s.1.growth.required_le_capacityFor s.1.capacity step.2.finish
      rw [← step.2.capacity_onto] at hreach
      rw [step.2.size_onto]
      exact Nat.max_le.mpr ⟨Nat.le_trans hs.size_le hle, Nat.le_trans step.2.extent_le_finish hreach⟩
    · -- What the budget counts is a word, and the capacity is part of it.
      obtain hsame | hadmits := hroom
      · exact Nat.lt_of_le_of_lt hsame hs.capacity_lt
      · rw [hs.budget_eq, Budget.raise_admits, htotal] at hadmits
        exact Nat.lt_of_le_of_lt (Nat.le_add_left _ _) hadmits.1
    · rw [hs.budget_eq, Budget.raise_raise, htotal]
  · rw [herror]
    exact hs

theorem PaidBy.after {s : Buffer × Budget} {before : Budget} (hs : PaidBy s before)
    (steps : List ((Nat → Bool) × Call)) : PaidBy (after s steps) before := by
  induction steps generalizing s with
  | nil => exact hs
  | cons step rest ih => exact ih (hs.perform step)

inductive Start where
  | room (capacity : Nat)
  | zeroed (size : Nat)
  | seeded (seed : Bytes)

namespace Start

def seed : Start → Bytes
  | .room _ | .zeroed _ => []
  | .seeded seed => seed

def size : Start → Nat
  | .room _ => 0
  | .zeroed size => size
  | .seeded seed => seed.length

def capacity (growth : Growth) : Start → Nat
  | .room capacity => capacity
  | .zeroed size => size
  | .seeded seed => max growth.least seed.length

variable (grant : Nat → Bool) (growth : Growth) (budget : Budget)

def make : Start → Outcome Budget Buffer
  | .room capacity => empty grant capacity growth budget
  | .zeroed size => zeros grant size growth budget
  | .seeded seed => ofBytes grant seed growth budget

def store? : Start → Option (Outcome Budget Storage)
  | .room capacity => some (Storage.empty grant capacity growth budget)
  | .zeroed size => some (Storage.zeros grant size growth budget)
  | .seeded seed => Storage.ofBytes? grant seed growth budget

theorem store?_eq (start : Start) :
    start.store? grant growth budget =
      some ⟨(start.make grant growth budget).result.map stored,
        (start.make grant growth budget).state⟩ := by
  cases start with
  | room capacity => exact congrArg some (empty_stored grant capacity growth budget)
  | zeroed size => exact congrArg some (zeros_stored grant size growth budget)
  | seeded seed => exact ofBytes_stored grant seed growth budget

def content : Start → Bytes
  | .room _ => []
  | .zeroed size => List.replicate size 0
  | .seeded seed => seed

theorem make_eq (start : Start) :
    start.make grant growth budget =
      if start.capacity growth = 0 ∨
          budget.Admits (start.capacity growth) ∧ grant (start.capacity growth) then
        ⟨.ok ⟨start.content, start.capacity growth, growth⟩,
          budget.raise (start.capacity growth)⟩
      else ⟨.error (.outOfMemory (start.capacity growth)), budget⟩ := by
  cases start with
  | room capacity => exact empty_eq grant capacity growth budget
  | zeroed size => exact zeros_eq grant size growth budget
  | seeded seed => exact ofBytes_eq grant seed growth budget

theorem length_content (start : Start) : start.content.length = start.size := by
  cases start with
  | room capacity => rfl
  | zeroed size => exact List.length_replicate
  | seeded seed => rfl

theorem getD_content (start : Start) (i : Nat) : start.content.getD i 0 = start.seed.getD i 0 := by
  cases start with
  | room capacity => rfl
  | zeroed size => exact getD_append_zeros [] size i
  | seeded seed => rfl

theorem size_le_capacity (start : Start) : start.size ≤ start.capacity growth := by
  cases start with
  | room capacity => exact Nat.zero_le _
  | zeroed size => exact Nat.le_refl _
  | seeded seed => exact Nat.le_max_right _ _

variable {grant growth budget}

theorem make_ok {start : Start} {b : Buffer} {budget' : Budget}
    (h : start.make grant growth budget = ⟨.ok b, budget'⟩) :
    b = ⟨start.content, start.capacity growth, growth⟩ ∧ PaidBy (b, budget') budget := by
  rw [make_eq] at h
  by_cases hroom : start.capacity growth = 0 ∨
      budget.Admits (start.capacity growth) ∧ grant (start.capacity growth)
  · rw [if_pos hroom] at h
    cases h
    refine ⟨rfl, ?_, ?_, rfl⟩
    · rw [Buffer.size, length_content]
      exact start.size_le_capacity growth
    · obtain hzero | ⟨hadmits, -⟩ := hroom
      · exact Nat.lt_of_le_of_lt (Nat.le_of_eq hzero) (by decide)
      · exact Nat.lt_of_le_of_lt (Nat.le_add_left _ _) hadmits.1
  · rw [if_neg hroom] at h
    cases h

end Start

end Buffer

namespace Storage

def perform? (s : Storage × Budget) (step : (Nat → Bool) × Buffer.Call) :
    Option (Outcome (Storage × Budget) Unit) :=
  match step with
  | (grant, .write offset data) => do
    let ⟨result, s'⟩ ← s.1.write? grant offset data s.2
    return ⟨result.map fun _ => (), s'⟩
  | (grant, .reserve required) => some (s.1.makeRoom grant required s.2)

def after? (s : Storage × Budget) (steps : List ((Nat → Bool) × Buffer.Call)) :
    Option (Storage × Budget) :=
  steps.foldlM (fun s step => (perform? s step).map (·.state)) s

theorem perform?_stored {s : Buffer × Budget} (hsize : s.1.size ≤ s.1.capacity)
    (step : (Nat → Bool) × Buffer.Call) :
    perform? (s.1.stored, s.2) step =
      some ⟨(Buffer.perform s step).result, (Buffer.perform s step).state.1.stored,
        (Buffer.perform s step).state.2⟩ := by
  obtain ⟨grant, call⟩ := step
  cases call with
  | write offset data =>
    simp only [perform?, Buffer.write?_stored grant hsize, Buffer.perform]
    rfl
  | reserve required =>
    exact congrArg some (Buffer.makeRoom_stored grant hsize required s.2)

theorem after?_stored {s : Buffer × Budget} {before : Budget} (hs : Buffer.PaidBy s before)
    (steps : List ((Nat → Bool) × Buffer.Call)) :
    after? (s.1.stored, s.2) steps =
      some ((Buffer.after s steps).1.stored, (Buffer.after s steps).2) := by
  induction steps generalizing s with
  | nil => rfl
  | cons step rest ih =>
    simp only [after?, List.foldlM_cons, perform?_stored hs.size_le step]
    exact ih (hs.perform step)

end Storage

namespace Buffer

/-- The byte of the last call that puts one at a place, else the one that was given there, else
zero. -/
def latestByte (seed : Bytes) (done : List Call) (i : Nat) : UInt8 :=
  ((done.filterMap (Call.byte? i)).getLast?.or seed[i]?).getD 0

/-- A buffer and its budget are what the calls `done` have made of a start. The budget has grown by
the capacity. -/
structure Layers (start : Start) (growth : Growth) (before : Budget) (done : List Call)
    (s : Buffer × Budget) : Prop where
  bytes : ∀ i, i < s.1.size → s.1.content[i]? = some (latestByte start.seed done i)
  size_eq : s.1.size = max start.size ((done.map Call.extent).foldr max 0)
  capacity_eq : s.1.capacity =
    growth.capacityFor (start.capacity growth) ((done.map Call.finish).foldr max 0)
  budget_eq : s.2 = before.raise s.1.capacity

variable {grant : Nat → Bool} {growth : Growth} {before budget : Budget} {start : Start}
  {b : Buffer}

theorem layers_after (hmake : start.make grant growth before = ⟨.ok b, budget⟩)
    (steps : List ((Nat → Bool) × Call)) :
    Layers start growth before (succeeded (b, budget) steps) (after (b, budget) steps) := by
  obtain ⟨rfl, hpaid⟩ := Start.make_ok hmake
  have hbuffer := after_fst (⟨start.content, start.capacity growth, growth⟩, budget) steps
  refine ⟨fun i hi => ?_, ?_, ?_, (hpaid.after steps).budget_eq⟩
  · rw [List.getElem?_eq_getElem hi, ← List.getD_eq_getElem _ 0 hi, hbuffer, getD_layered,
      start.getD_content, latestByte, Option.getD_or, List.getD_eq_getElem?_getD]
  · rw [hbuffer, size_layered, size, start.length_content]
  · rw [hbuffer, capacity_layered]

theorem read_eq (b : Buffer) (offset : Nat) (out : Bytes) :
    b.read offset out =
      let n := min out.length (b.size - offset)
      (n, (b.content.drop offset).take n ++ out.drop n) := by
  have hlength : ((b.content.drop offset).take out.length).length =
      min out.length (b.size - offset) := by
    rw [List.length_take, List.length_drop, size]
  have hpart : (b.content.drop offset).take out.length =
      (b.content.drop offset).take (min out.length (b.size - offset)) := by
    rw [List.take_eq_take_min, List.length_drop, size]
  simp only [read, hlength]
  rw [hpart]

/-- Whatever calls are made of a buffer, and whichever of them fail, its content is that of the last
successful write at each place, the seed where there is none, and zero in the gaps. Its size is the
largest that it was given, and its capacity the one to which a start grows at once for the largest
length asked for. A call that fails changes nothing. A region that is kept as a machine keeps it goes
through the same run without a trap, and its front is the content. -/
theorem last_write_wins (hmake : start.make grant growth before = ⟨.ok b, budget⟩)
    (steps : List ((Nat → Bool) × Call)) :
    let s := after (b, budget) steps
    Layers start growth before (succeeded (b, budget) steps) s ∧
    (∀ step, s.1.capacity ≤ (perform s step).state.1.capacity ∧
      ∀ e, (perform s step).result = .error e → (perform s step).state = s) ∧
    (∀ offset out,
      let n := min out.length (s.1.size - offset)
      s.1.read offset out = (n, (s.1.content.drop offset).take n ++ out.drop n)) ∧
    ∃ stored stored', start.store? grant growth before = some ⟨.ok stored, budget⟩ ∧
      Storage.after? (stored, budget) steps = some (stored', s.2) ∧
      stored'.content? = some s.1.content ∧ stored'.capacity = s.1.capacity ∧
      ∀ offset out, stored'.read? offset out = some (s.1.read offset out) := by
  intro s
  obtain ⟨-, hpaid⟩ := Start.make_ok hmake
  have hs : PaidBy s before := hpaid.after steps
  refine ⟨layers_after hmake steps, fun step => ?_, s.1.read_eq, b.stored, s.1.stored, ?_, ?_, ?_,
    ?_, ?_⟩
  · obtain ⟨hok, -⟩ | ⟨e, herror⟩ := perform_cases s step
    · rw [hok]
      exact ⟨step.2.le_capacity_onto s.1, fun e he => nomatch he⟩
    · rw [herror]
      exact ⟨Nat.le_refl _, fun _ _ => rfl⟩
  · rw [start.store?_eq, hmake]
    rfl
  · exact Storage.after?_stored hpaid steps
  · exact content?_stored hs.size_le
  · exact length_region hs.size_le
  · exact read?_stored hs.size_le hs.capacity_lt

/-- Three bytes are overwritten in part, a write after a gap and an empty one make the buffer grow, and
two calls that it cannot grow for fail. -/
theorem last_write_wins_with_gap :
    let grant : Nat → Bool := fun n => decide (n ≤ 16)
    let start : Start := .seeded [1, 2, 3]
    let b : Buffer := ⟨[1, 2, 3], 4, ⟨4⟩⟩
    let done : List Call := [.write 1 [8, 9], .write 6 [7], .write 12 []]
    let steps := [Call.write 1 [8, 9], .reserve 17, .write 6 [7], .write 100 [6], .write 12 []].map
      fun call => (grant, call)
    let s := after (b, ⟨some 20, 5⟩) steps
    start.make grant ⟨4⟩ ⟨some 20, 1⟩ = ⟨.ok b, ⟨some 20, 5⟩⟩ ∧
      succeeded (b, ⟨some 20, 5⟩) steps = done ∧
      s.1.content[0]? = some 1 ∧ s.1.content[2]? = some 9 ∧ s.1.content[5]? = some 0 ∧
      s.1.size = 12 ∧ s.1.capacity = 16 ∧ s.2 = ⟨some 20, 17⟩ := by
  intro grant start b done steps s
  have hmake : start.make grant ⟨4⟩ ⟨some 20, 1⟩ = ⟨.ok b, ⟨some 20, 5⟩⟩ := rfl
  have hdone : succeeded (b, ⟨some 20, 5⟩) steps = done := by decide +kernel
  have hextent : max start.size ((done.map Call.extent).foldr max 0) = 12 := by decide
  have hreach : (Growth.mk 4).capacityFor (start.capacity ⟨4⟩)
      ((done.map Call.finish).foldr max 0) = 16 := by decide +kernel
  have hlatest : [0, 2, 5].map (latestByte start.seed done) = [1, 9, 0] := by decide +kernel
  simp only [List.map_cons, List.map_nil, List.cons.injEq, and_true] at hlatest
  obtain ⟨hfirst, hsecond, hgap⟩ := hlatest
  obtain ⟨⟨hbytes, hsize, hcapacity, hbudget⟩, -⟩ := last_write_wins hmake steps
  rw [hdone] at hbytes hsize hcapacity
  rw [hextent] at hsize
  rw [hreach] at hcapacity
  rw [hcapacity] at hbudget
  rw [hsize] at hbytes
  simp only [s]
  refine ⟨hmake, hdone, ?_, ?_, ?_, hsize, hcapacity, hbudget⟩
  · rw [hbytes 0 (by decide), hfirst]
  · rw [hbytes 2 (by decide), hsecond]
  · rw [hbytes 5 (by decide), hgap]

end Buffer

end Enclave
