import Enclave.Host.Payload
import Enclave.Proofs.Layers

namespace Enclave.Payload

inductive Call where
  | write (offset : Nat) (data : Bytes)
  | store (offset : UInt32) (data : Bytes)
  deriving DecidableEq, Repr

def Call.onBuffer : Call → Buffer.Call
  | .write offset data => .write offset data
  | .store offset data => .write offset.toNat data

def perform (p : Payload) (step : (Nat → Bool) × Call) : Payload :=
  match step with
  | (grant, .write offset data) => (p.write grant offset data).state
  | (grant, .store offset data) => (p.store grant offset data).2

def after (p : Payload) (steps : List ((Nat → Bool) × Call)) : Payload :=
  steps.foldl perform p

def onBuffer (steps : List ((Nat → Bool) × Call)) : List ((Nat → Bool) × Buffer.Call) :=
  steps.map fun step => (step.1, step.2.onBuffer)

variable (grant : Nat → Bool) {p : Payload}

theorem store_state (p : Payload) (offset : UInt32) (data : Bytes) :
    (p.store grant offset data).2 = (p.write grant offset.toNat data).state := by
  rw [store]
  generalize p.write grant offset.toNat data = written
  obtain ⟨_ | n, p'⟩ := written
  · rfl
  · rfl

theorem perform_eq (p : Payload) (step : (Nat → Bool) × Call) :
    let s := (Buffer.perform (p.buffer, p.budget) (step.1, step.2.onBuffer)).state
    perform p step = ⟨s.1, s.2⟩ := by
  obtain ⟨grant, call⟩ := step
  cases call with
  | write offset data => rfl
  | store offset data => exact store_state grant p offset data

theorem after_eq (p : Payload) (steps : List ((Nat → Bool) × Call)) :
    let s := Buffer.after (p.buffer, p.budget) (onBuffer steps)
    p.after steps = ⟨s.1, s.2⟩ := by
  induction steps generalizing p with
  | nil => rfl
  | cons step rest ih =>
    rw [after, List.foldl_cons, perform_eq]
    exact ih _

/-- The content is within the capacity, the capacity within the limit, and the budget of the payload
counts the capacity and nothing else. -/
structure Within (p : Payload) (limit : Nat) : Prop where
  paid : Buffer.PaidBy (p.buffer, p.budget) (.ofLimit (some limit))
  capacity_le : p.capacity ≤ limit
  growth_eq : p.buffer.growth = {}

variable {limit : Nat}

namespace Within

theorem budget_eq (hp : p.Within limit) :
    p.budget = (Budget.ofLimit (some limit)).raise p.capacity :=
  hp.paid.budget_eq

theorem used_eq (hp : p.Within limit) : p.budget.used = p.capacity := by
  rw [hp.budget_eq]
  exact Nat.zero_add _

theorem admits_iff (hp : p.Within limit) {target : Nat} (hle : p.capacity ≤ target) :
    p.budget.Admits (target - p.capacity) ↔ target < wordLimit ∧ target ≤ limit := by
  rw [hp.budget_eq, Budget.raise_admits, Nat.add_sub_cancel' hle, Budget.ofLimit_admits]

theorem perform (hp : p.Within limit) (step : (Nat → Bool) × Call) :
    (perform p step).Within limit := by
  have hpaid := hp.paid.perform (step.1, step.2.onBuffer)
  rw [perform_eq]
  obtain ⟨hok, hroom⟩ | ⟨e, herror⟩ :=
    Buffer.perform_cases (p.buffer, p.budget) (step.1, step.2.onBuffer)
  · rw [hok] at hpaid ⊢
    refine ⟨hpaid, ?_, ?_⟩
    · obtain hsame | hadmits := hroom
      · exact Nat.le_trans hsame hp.capacity_le
      · exact ((hp.admits_iff (step.2.onBuffer.le_capacity_onto p.buffer)).mp hadmits).2
    · exact (step.2.onBuffer.growth_onto p.buffer).trans hp.growth_eq
  · rw [herror]
    exact hp

theorem after (hp : p.Within limit) (steps : List ((Nat → Bool) × Call)) :
    (p.after steps).Within limit := by
  induction steps generalizing p with
  | nil => exact hp
  | cons step rest ih => exact ih (hp.perform step)

end Within

theorem create_eq (size : Nat) :
    create grant size (some limit) =
      if size = 0 ∨ (size < wordLimit ∧ size ≤ limit) ∧ grant size then
        .ok ⟨⟨List.replicate size 0, size, {}⟩, (Budget.ofLimit (some limit)).raise size⟩
      else .error (.outOfMemory size) := by
  rw [create, Buffer.zeros_eq]
  simp only [Budget.ofLimit_admits]
  by_cases h : size = 0 ∨ (size < wordLimit ∧ size ≤ limit) ∧ grant size
  · simp only [if_pos h]
  · simp only [if_neg h]

theorem create_ok_iff (size : Nat) :
    (∃ p, create grant size (some limit) = .ok p) ↔
      size < wordLimit ∧ size ≤ limit ∧ (size = 0 ∨ grant size) := by
  have hword : 0 < wordLimit := by decide
  rw [create_eq]
  by_cases h : size = 0 ∨ (size < wordLimit ∧ size ≤ limit) ∧ grant size
  · rw [if_pos h]
    refine iff_of_true ⟨_, rfl⟩ ?_
    obtain rfl | ⟨⟨hw, hl⟩, hg⟩ := h
    · exact ⟨hword, Nat.zero_le _, .inl rfl⟩
    · exact ⟨hw, hl, .inr hg⟩
  · rw [if_neg h]
    refine iff_of_false (fun ⟨p, hp⟩ => nomatch hp) ?_
    rintro ⟨hw, hl, hzero | hg⟩
    · exact h (.inl hzero)
    · exact h (.inr ⟨⟨hw, hl⟩, hg⟩)

variable {grant} {size : Nat}

theorem make_of_create (hc : create grant size (some limit) = .ok p) :
    Buffer.Start.make grant {} (.ofLimit (some limit)) (.zeroed size) =
      ⟨.ok p.buffer, p.budget⟩ := by
  rw [create] at hc
  rw [Buffer.Start.make]
  generalize Buffer.zeros grant size {} (.ofLimit (some limit)) = zeros at hc ⊢
  obtain ⟨_ | b, budget⟩ := zeros
  · cases hc
  · cases hc
    rfl

theorem within_of_create (hc : create grant size (some limit) = .ok p) : p.Within limit := by
  obtain ⟨hbuffer, hpaid⟩ := Buffer.Start.make_ok (make_of_create hc)
  obtain ⟨-, hle, -⟩ := (create_ok_iff grant size).mp ⟨p, hc⟩
  refine ⟨hpaid, ?_, ?_⟩
  · rw [capacity, hbuffer]
    exact hle
  · rw [hbuffer]

variable (grant)

def target (p : Payload) (offset : Nat) (data : Bytes) : Nat :=
  Growth.capacityFor {} p.capacity (offset + data.length)

/-- A write that passes the word, or one for which the payload would have to grow and cannot: past
the limit, or to a region that is not granted. -/
def Lacks (p : Payload) (limit offset : Nat) (data : Bytes) : Prop :=
  wordLimit ≤ offset + data.length ∨
    p.capacity < offset + data.length ∧
      (limit < p.target offset data ∨ ¬ grant (p.target offset data))

instance (p : Payload) (limit offset : Nat) (data : Bytes) :
    Decidable (p.Lacks grant limit offset data) :=
  inferInstanceAs (Decidable (_ ∨ _))

def written (p : Payload) (offset : Nat) (data : Bytes) : Payload :=
  ⟨⟨overlay p.toBytes data offset, p.target offset data, {}⟩,
    p.budget.raise (p.target offset data - p.capacity)⟩

theorem Within.fits_iff (hp : p.Within limit) (offset : Nat) (data : Bytes) :
    p.buffer.Fits grant offset data p.budget ↔ ¬ p.Lacks grant limit offset data := by
  have htarget : p.buffer.capacityAfter offset data = p.target offset data := by
    rw [Buffer.capacityAfter, hp.growth_eq]
    rfl
  have hle : p.capacity ≤ p.target offset data := Growth.le_capacityFor _ _ _
  have hreach : offset + data.length ≤ p.target offset data := Growth.required_le_capacityFor _ _ _
  -- The budget counts the capacity and nothing else, so the limit is on the target alone.
  have hadmits : p.budget.Admits (p.target offset data - p.buffer.capacity) ↔
      p.target offset data < wordLimit ∧ p.target offset data ≤ limit :=
    hp.admits_iff hle
  rw [Buffer.Fits, htarget, hadmits, Lacks]
  by_cases hword : offset + data.length < wordLimit
  · have hfits : p.target offset data < wordLimit :=
      Growth.capacityFor_lt (by decide) hp.paid.capacity_lt hword
    by_cases hroom : offset + data.length ≤ p.capacity
    · have hsame : p.target offset data = p.capacity := Growth.capacityFor_of_le _ hroom
      refine iff_of_true ⟨hword, .inl (Nat.le_of_eq hsame)⟩ ?_
      omega
    · have hgrows : ¬ p.target offset data ≤ p.buffer.capacity :=
        Nat.not_le_of_lt (Nat.lt_of_lt_of_le (Nat.lt_of_not_le hroom) hreach)
      have hlimit : p.target offset data ≤ limit ↔ ¬ limit < p.target offset data := Nat.not_lt.symm
      simp only [hword, hgrows, hfits, hlimit, Nat.lt_of_not_le hroom, Nat.not_le_of_lt hword,
        true_and, false_or, not_or, not_not]
  · exact iff_of_false (fun h => hword h.1) (fun h => h (.inl (Nat.le_of_not_lt hword)))

theorem Within.write_eq (hp : p.Within limit) (offset : Nat) (data : Bytes) :
    p.write grant offset data =
      if p.Lacks grant limit offset data then
        ⟨.error (.outOfMemory (p.buffer.shortage offset data)), p⟩
      else ⟨.ok data.length, p.written offset data⟩ := by
  rw [write, Buffer.write_eq]
  by_cases h : p.Lacks grant limit offset data
  · have hfits : ¬ p.buffer.Fits grant offset data p.budget :=
      fun hf => (hp.fits_iff grant offset data).mp hf h
    simp only [if_pos h, if_neg hfits]
  · simp only [if_neg h, if_pos ((hp.fits_iff grant offset data).mpr h), Buffer.written,
      Buffer.capacityAfter, hp.growth_eq]
    rfl

theorem Within.store_eq (hp : p.Within limit) (offset : UInt32) (data : Bytes) :
    p.store grant offset data =
      if p.Lacks grant limit offset.toNat data then (0, p)
      else (UInt32.ofNat data.length, p.written offset.toNat data) := by
  rw [store, hp.write_eq]
  by_cases h : p.Lacks grant limit offset.toNat data
  · simp only [if_pos h]
  · simp only [if_neg h]

theorem Within.fails_iff (hp : p.Within limit) (offset : Nat) (data : Bytes) :
    (∃ e, (p.write grant offset data).result = .error e) ↔ p.Lacks grant limit offset data := by
  rw [hp.write_eq]
  by_cases h : p.Lacks grant limit offset data
  · rw [if_pos h]
    exact iff_of_true ⟨_, rfl⟩ h
  · rw [if_neg h]
    exact iff_of_false (fun ⟨e, he⟩ => nomatch he) h

theorem Within.le_limit (hp : p.Within limit) {offset : Nat} {data : Bytes}
    (h : ¬ p.Lacks grant limit offset data) : offset + data.length ≤ limit := by
  have hcapacity := hp.capacity_le
  have hreach : offset + data.length ≤ p.target offset data := Growth.required_le_capacityFor _ _ _
  rw [Lacks] at h
  omega

theorem taken_of_read (p : Payload) (offset : Nat) (out : Bytes) :
    (p.read offset out).2.take (p.read offset out).1 = (p.toBytes.drop offset).take out.length :=
  List.take_left

theorem fetch_eq (p : Payload) (offset length : UInt32) :
    p.fetch offset length = (p.toBytes.drop offset.toNat).take length.toNat := by
  have htaken : p.fetch offset length = _ :=
    p.taken_of_read offset.toNat (List.replicate (min (p.size - offset.toNat) length.toNat) 0)
  rw [htaken, List.length_replicate]
  exact take_min_of_drop p.toBytes offset.toNat length.toNat

theorem fetch_extract (p : Payload) (offset length : UInt32) :
    p.fetch offset length =
      p.toBytes.extract offset.toNat (min (offset.toNat + length.toNat) p.size) := by
  have hstop : min (offset.toNat + length.toNat) p.size - offset.toNat =
      min (p.size - offset.toNat) length.toNat := by
    omega
  rw [fetch_eq, List.extract, hstop]
  exact (take_min_of_drop p.toBytes offset.toNat length.toNat).symm

theorem store_lossless (hp : p.Within limit) (hcount : limit ≤ greatestCount) {offset : UInt32}
    {data : Bytes} (h : ¬ p.Lacks grant limit offset.toNat data) :
    (p.store grant offset data).1.toNat = data.length := by
  have hle := hp.le_limit grant h
  have hmax : greatestCount < UInt32.size := by decide
  rw [hp.store_eq, if_neg h]
  exact UInt32.toNat_ofNat_of_lt' (by omega)

/-- However it is written, and whichever of the writes fail, a payload that is made under a limit
stays under it, and its budget counts its capacity. A write fails exactly if the payload lacks the
room for it, and then changes nothing. Both ways of reading give the content from an offset on, as
far as it goes. A region that is kept as a machine keeps it goes through the same run without a
trap, and its front is the content. -/
theorem stays_within_limit (size limit : Nat) :
    ((∃ p, create grant size (some limit) = .ok p) ↔
      size < wordLimit ∧ size ≤ limit ∧ (size = 0 ∨ grant size)) ∧
    ∀ start, create grant size (some limit) = .ok start → ∀ steps,
      let p := start.after steps
      (p.size ≤ p.capacity ∧ p.capacity ≤ limit ∧ p.budget.used = p.capacity) ∧
      (∀ grant offset data,
        ((∃ e, (p.write grant offset data).result = .error e) ↔ p.Lacks grant limit offset data) ∧
        p.write grant offset data =
          if p.Lacks grant limit offset data then
            ⟨.error (.outOfMemory (p.buffer.shortage offset data)), p⟩
          else ⟨.ok data.length, p.written offset data⟩) ∧
      (∀ grant (offset : UInt32) data,
        (p.store grant offset data =
          if p.Lacks grant limit offset.toNat data then (0, p)
          else (UInt32.ofNat data.length, p.written offset.toNat data)) ∧
        (limit ≤ greatestCount → ¬ p.Lacks grant limit offset.toNat data →
          (p.store grant offset data).1.toNat = data.length)) ∧
      (∀ offset length : UInt32,
        p.fetch offset length =
          p.toBytes.extract offset.toNat (min (offset.toNat + length.toNat) p.size) ∧
        ∀ out : Bytes, out.length = length.toNat →
          (p.read offset.toNat out).2.take (p.read offset.toNat out).1 = p.fetch offset length) ∧
      ∃ stored stored',
        Storage.zeros grant size {} (.ofLimit (some limit)) = ⟨.ok stored, start.budget⟩ ∧
        Storage.after? (stored, start.budget) (onBuffer steps) = some (stored', p.budget) ∧
        stored'.size = p.size ∧ stored'.capacity = p.capacity ∧
        stored'.region.take stored'.size = p.toBytes ∧
        ∀ offset out, stored'.read? offset out = some (p.read offset out) := by
  refine ⟨create_ok_iff grant size, fun start hc steps => ?_⟩
  intro p
  have hstart : start.Within limit := within_of_create hc
  have hp : p.Within limit := hstart.after steps
  -- A run of a payload is one of its buffer, and the storage of a buffer goes through the same run.
  have hrun : p = ⟨(Buffer.after (start.buffer, start.budget) (onBuffer steps)).1,
      (Buffer.after (start.buffer, start.budget) (onBuffer steps)).2⟩ :=
    after_eq start steps
  refine ⟨⟨hp.paid.size_le, hp.capacity_le, hp.used_eq⟩,
    fun grant offset data => ⟨hp.fails_iff grant offset data, hp.write_eq grant offset data⟩,
    fun grant offset data =>
      ⟨hp.store_eq grant offset data, fun hcount h => store_lossless grant hp hcount h⟩,
    fun offset length => ⟨p.fetch_extract offset length, fun out hout => ?_⟩,
    start.buffer.stored, p.buffer.stored, ?_, ?_, rfl, ?_, ?_, ?_⟩
  · rw [taken_of_read, fetch_eq, hout]
  · have hstored := Buffer.Start.store?_eq grant {} (.ofLimit (some limit)) (.zeroed size)
    rw [make_of_create hc] at hstored
    exact Option.some.inj hstored
  · rw [hrun]
    exact Storage.after?_stored hstart.paid (onBuffer steps)
  · exact Buffer.length_region hp.paid.size_le
  · have hregion := Buffer.region_of_le hp.paid.size_le
    exact (congrArg (List.take p.size) hregion).trans List.take_left
  · exact Buffer.read?_stored hp.paid.size_le hp.paid.capacity_lt

/-- Two zeros under a limit of 1500 bytes. A write after a gap makes the payload grow to 1024 bytes;
one more byte past them would make it grow to 2048, and fails. -/
theorem stays_within_limit_of_1500 :
    let grant : Nat → Bool := fun _ => true
    let start : Payload := ⟨⟨[0, 0], 2, {}⟩, ⟨some 1500, 2⟩⟩
    let p := start.after [(grant, .store 5 [7, 8]), (grant, .write 1024 [9])]
    create grant 2 (some 1500) = .ok start ∧
      p.size = 7 ∧ p.capacity = 1024 ∧ p.budget.used = 1024 ∧
      (∃ e, (p.write grant 1024 [9]).result = .error e) ∧
      p.store grant 1024 [9] = (0, p) ∧ p.fetch 4 100 = [0, 7, 8] := by
  intro grant start p
  have hcreate : create grant 2 (some 1500) = .ok start := rfl
  have hp : p = ⟨⟨[0, 0, 0, 0, 0, 7, 8], 1024, {}⟩, ⟨some 1500, 1024⟩⟩ := by decide +kernel
  have hlacks : p.Lacks grant 1500 1024 [9] := by
    rw [hp]
    decide +kernel
  obtain ⟨-, hruns⟩ := stays_within_limit grant 2 1500
  obtain ⟨⟨-, -, hused⟩, hwrites, hstores, hfetches, -⟩ :=
    hruns start hcreate [(grant, .store 5 [7, 8]), (grant, .write 1024 [9])]
  have hcapacity : p.capacity = 1024 := congrArg capacity hp
  refine ⟨hcreate, congrArg size hp, hcapacity, hused.trans hcapacity, ?_, ?_, ?_⟩
  · exact (hwrites grant 1024 [9]).1.mpr hlacks
  · exact (hstores grant 1024 [9]).1.trans (if_pos hlacks)
  · have hfetch : p.fetch 4 100 = p.toBytes.extract 4 (min (4 + 100) p.size) := (hfetches 4 100).1
    rw [hfetch, hp]
    rfl

end Enclave.Payload
