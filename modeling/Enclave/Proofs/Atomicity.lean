import Enclave.Proofs.Movements

namespace Enclave.Budget

inductive Call where
  | charge (n : Nat)
  | refund (n : Nat)
  | allocate (length : Nat)
  | lengthen (length : Nat)
  | copy (data : Bytes)
  deriving DecidableEq, Repr

namespace Call

def asked (region : Bytes) : Call → Nat
  | .charge n => n
  | .refund _ => 0
  | .allocate length => length
  | .lengthen length => length - region.length
  | .copy data => data.length

def wanted (region : Bytes) : Call → Nat
  | .charge _ | .refund _ => 0
  | .allocate length => length
  | .lengthen length => if length ≤ region.length then 0 else length
  | .copy data => data.length

def answer : Call → Option Bytes
  | .charge _ | .refund _ | .lengthen _ => none
  | .allocate length => some (List.replicate length 0)
  | .copy data => some data

def extent : Call → Nat
  | .lengthen length => length
  | .charge _ | .refund _ | .allocate _ | .copy _ => 0

def onto (s : Bytes × Budget) : Call → Bytes × Budget
  | .charge n => (s.1, s.2.raise n)
  | .refund n => (s.1, s.2.refund n)
  | .allocate length => (s.1, s.2.raise length)
  | .lengthen length =>
    (s.1 ++ List.replicate (length - s.1.length) 0, s.2.raise (length - s.1.length))
  | .copy data => (s.1, s.2.raise data.length)

/-- The charges and refunds of a call. A refund that asks for more than is used gives back what is
used. -/
def moves (s : Bytes × Budget) (grant : Nat → Bool) : Call → List Movement
  | .charge n => s.2.acquireMoves grant n 0
  | .refund n => [.refund (min n s.2.used)]
  | .allocate length => s.2.extendMoves grant 0 length
  | .lengthen length => s.2.extendMoves grant s.1.length length
  | .copy data => s.2.copyMoves grant data

theorem onto_fst (s : Bytes × Budget) (call : Call) :
    (call.onto s).1 = s.1 ++ List.replicate (call.extent - s.1.length) 0 := by
  cases call with
  | lengthen length => rfl
  | charge _ | refund _ | allocate _ | copy _ =>
    simp only [onto, extent, Nat.zero_sub, List.replicate_zero, List.append_nil]

theorem onto_admits {s : Bytes × Budget} {call : Call} (h : s.2.Admits (call.asked s.1)) :
    (call.onto s).2.Admits 0 := by
  cases call with
  | refund n => exact Admits.refund n h
  | charge _ | allocate _ | lengthen _ | copy _ => exact Admits.raise h

end Call

def perform (s : Bytes × Budget) (step : (Nat → Bool) × Call) :
    Outcome (Bytes × Budget) (Option Bytes) :=
  match step with
  | (_, .charge n) =>
    match s.2.charge n with
    | ⟨result, b⟩ => ⟨result.map fun _ => none, s.1, b⟩
  | (_, .refund n) => ⟨.ok none, s.1, s.2.refund n⟩
  | (grant, .allocate length) =>
    match s.2.allocate grant length with
    | ⟨result, b⟩ => ⟨result.map some, s.1, b⟩
  | (grant, .lengthen length) =>
    match s.2.lengthen grant s.1 length with
    | ⟨result, s'⟩ => ⟨result.map fun _ => none, s'⟩
  | (grant, .copy data) =>
    match s.2.copy grant data with
    | ⟨result, b⟩ => ⟨result.map some, s.1, b⟩

def after (s : Bytes × Budget) (steps : List ((Nat → Bool) × Call)) : Bytes × Budget :=
  steps.foldl (fun s step => (perform s step).state) s

def succeeded (s : Bytes × Budget) : List ((Nat → Bool) × Call) → List Call
  | [] => []
  | step :: rest =>
    match perform s step with
    | ⟨.ok _, s'⟩ => step.2 :: succeeded s' rest
    | ⟨.error _, s'⟩ => succeeded s' rest

def moves (s : Bytes × Budget) : List ((Nat → Bool) × Call) → List Movement
  | [] => []
  | step :: rest => step.2.moves s step.1 ++ moves (perform s step).state rest

/-- The budget admits the bytes that a call adds, and the allocator grants the region that it
needs. -/
def Granted (s : Bytes × Budget) (step : (Nat → Bool) × Call) : Prop :=
  s.2.Admits (step.2.asked s.1) ∧ (step.2.wanted s.1 = 0 ∨ step.1 (step.2.wanted s.1))

instance (s : Bytes × Budget) (step : (Nat → Bool) × Call) : Decidable (Granted s step) :=
  inferInstanceAs (Decidable (_ ∧ _))

variable {s : Bytes × Budget}

-- A budget that admits zero bytes is within its limit and the word. Every run keeps this, and with
-- it one condition tells of every call whether it succeeds.

theorem extends_iff {b : Budget} (grant : Nat → Bool) (hb : b.Admits 0) (current target : Nat) :
    (target ≤ current ∨ b.Admits (target - current) ∧ grant target) ↔
      b.Admits (target - current) ∧ ((if target ≤ current then 0 else target) = 0 ∨
        grant (if target ≤ current then 0 else target)) := by
  by_cases h : target ≤ current
  · refine iff_of_true (.inl h) ⟨?_, .inl (if_pos h)⟩
    rwa [Nat.sub_eq_zero_of_le h]
  · have hpos : target ≠ 0 := by omega
    simp only [h, hpos, if_false, false_or]

/-- A call is granted whole or changes nothing. -/
theorem perform_eq (hs : s.2.Admits 0) (step : (Nat → Bool) × Call) :
    perform s step =
      if Granted s step then ⟨.ok step.2.answer, step.2.onto s⟩
      else ⟨.error (.outOfMemory (step.2.asked s.1)), s⟩ := by
  obtain ⟨grant, call⟩ := step
  cases call with
  | charge n =>
    have hiff : s.2.Admits n ↔ Granted s (grant, .charge n) := (and_iff_left (.inl rfl)).symm
    simp only [perform, charge_eq, hiff]
    split <;> rfl
  | refund n =>
    have hgranted : Granted s (grant, .refund n) := ⟨hs, .inl rfl⟩
    rw [if_pos hgranted]
    rfl
  | allocate length =>
    -- A fresh region is one that is lengthened from nothing.
    have hwanted : (if length ≤ 0 then 0 else length) = length := by
      split <;> omega
    have hiff := extends_iff grant hs 0 length
    rw [hwanted, Nat.le_zero_eq, Nat.sub_zero] at hiff
    change _ ↔ Granted s (grant, .allocate length) at hiff
    simp only [perform, allocate_eq, hiff]
    split <;> rfl
  | lengthen length =>
    have hiff := extends_iff grant hs s.1.length length
    change _ ↔ Granted s (grant, .lengthen length) at hiff
    simp only [perform, lengthen_eq, hiff]
    split <;> rfl
  | copy data =>
    have hiff : (s.2.Admits data.length ∧ (data.length = 0 ∨ grant data.length)) ↔
        Granted s (grant, .copy data) := Iff.rfl
    simp only [perform, copy_eq, hiff]
    split <;> rfl

variable {step : (Nat → Bool) × Call}

theorem perform_ok_iff (hs : s.2.Admits 0) :
    (∃ answer, (perform s step).result = .ok answer) ↔ Granted s step := by
  rw [perform_eq hs]
  by_cases h : Granted s step
  · rw [if_pos h]
    exact iff_of_true ⟨_, rfl⟩ h
  · rw [if_neg h]
    exact iff_of_false (fun ⟨_, ha⟩ => nomatch ha) h

theorem perform_ok (hs : s.2.Admits 0) {answer : Option Bytes}
    (h : (perform s step).result = .ok answer) :
    perform s step = ⟨.ok step.2.answer, step.2.onto s⟩ := by
  have hgranted : Granted s step := (perform_ok_iff hs).mp ⟨answer, h⟩
  rw [perform_eq hs, if_pos hgranted]

theorem perform_error (hs : s.2.Admits 0) {e : Fault} (h : (perform s step).result = .error e) :
    perform s step = ⟨.error (.outOfMemory (step.2.asked s.1)), s⟩ := by
  have hrefused : ¬ Granted s step := by
    intro hgranted
    rw [perform_eq hs, if_pos hgranted] at h
    cases h
  rw [perform_eq hs, if_neg hrefused]

theorem perform_admits (hs : s.2.Admits 0) (step : (Nat → Bool) × Call) :
    (perform s step).state.2.Admits 0 := by
  rw [perform_eq hs]
  by_cases h : Granted s step
  · rw [if_pos h]
    exact Call.onto_admits h.1
  · rw [if_neg h]
    exact hs

theorem acquireMoves_of_refused {b : Budget} {grant : Nat → Bool} {charged length : Nat}
    (hadmits : b.Admits charged) (hlength : length ≠ 0) (hgrant : ¬ grant length) :
    b.acquireMoves grant charged length = [.charge charged, .refund charged] := by
  rw [acquireMoves, charge_eq, if_pos hadmits]
  exact if_neg (not_or.mpr ⟨hlength, hgrant⟩)

theorem Call.moves_of_refused {grant : Nat → Bool} {call : Call}
    (hadmits : s.2.Admits (call.asked s.1)) (hwanted : call.wanted s.1 ≠ 0)
    (hgrant : ¬ grant (call.wanted s.1)) :
    call.moves s grant = [.charge (call.asked s.1), .refund (call.asked s.1)] := by
  cases call with
  | charge n => exact absurd rfl hwanted
  | refund n => exact absurd rfl hwanted
  | allocate length =>
    have hlong : ¬ length ≤ 0 := fun h => hwanted (Nat.le_zero.mp h)
    rw [Call.moves, extendMoves, if_neg hlong]
    exact acquireMoves_of_refused hadmits hwanted hgrant
  | lengthen length =>
    have hlong : ¬ length ≤ s.1.length := fun h => hwanted (if_pos h)
    rw [Call.wanted, if_neg hlong] at hwanted hgrant
    rw [Call.moves, extendMoves, if_neg hlong]
    exact acquireMoves_of_refused hadmits hwanted hgrant
  | copy data => exact acquireMoves_of_refused hadmits hwanted hgrant

theorem Call.moves_replay (s : Bytes × Budget) (step : (Nat → Bool) × Call) :
    s.2.replay (step.2.moves s step.1) = some (perform s step).state.2 := by
  obtain ⟨grant, call⟩ := step
  cases call with
  | charge n =>
    rw [Call.moves, acquire_replay, acquire_eq, perform, charge_eq]
    simp only [true_or, and_true]
  | refund n =>
    have hused : s.2.used - min n s.2.used = s.2.used - n := by omega
    have hrefund : s.2.refund (min n s.2.used) = s.2.refund n := by
      rw [Budget.refund, Budget.refund, hused]
    exact (s.2.replay_refund (Nat.min_le_right _ _)).trans (congrArg some hrefund)
  | allocate length => exact s.2.allocate_replay grant length
  | lengthen length => exact s.2.lengthen_replay grant s.1 length
  | copy data => exact s.2.copy_replay grant data

theorem moves_replay (s : Bytes × Budget) (steps : List ((Nat → Bool) × Call)) :
    s.2.replay (moves s steps) = some (after s steps).2 := by
  induction steps generalizing s with
  | nil => rfl
  | cons step rest ih =>
    rw [moves, replay_append_of_eq _ (Call.moves_replay s step)]
    exact ih (perform s step).state

theorem replay_of_prefix {b b' : Budget} {ms ms' : List Movement} (hp : ms <+: ms')
    (h : b.replay ms' = some b') : ∃ b'', b.replay ms = some b'' := by
  obtain ⟨rest, rfl⟩ := hp
  rw [replay_append] at h
  obtain ⟨b'', hms, -⟩ := Option.bind_eq_some_iff.mp h
  exact ⟨b'', hms⟩

/-- What a machine makes of a movement: it adds to a word or takes from it, without a check. -/
def inWord (word : UInt64) : Movement → UInt64
  | .charge n => word + UInt64.ofNat n
  | .refund n => word - UInt64.ofNat n

/-- What a budget uses stays within its limit, and a machine keeps it in a word. -/
structure KeptIn (b : Budget) (limit : Option Nat) (word : UInt64) : Prop where
  limit_eq : b.limit = limit
  used_le : ∀ n, limit = some n → b.used ≤ n
  word_eq : word.toNat = b.used

namespace KeptIn

variable {b b' : Budget} {limit : Option Nat} {word : UInt64}

theorem raise (hb : b.KeptIn limit word) {n : Nat} (h : b.Admits n) :
    (b.raise n).KeptIn limit (word + UInt64.ofNat n) := by
  obtain ⟨rfl, -, hword⟩ := hb
  obtain ⟨hfits, hlimit⟩ := (b.admits_iff n).mp h
  have hn : (UInt64.ofNat n).toNat = n :=
    UInt64.toNat_ofNat_of_lt' (Nat.lt_of_le_of_lt (Nat.le_add_left n b.used) hfits)
  refine ⟨rfl, hlimit, ?_⟩
  rw [UInt64.toNat_add, hn, hword]
  exact Nat.mod_eq_of_lt hfits

theorem refund (hb : b.KeptIn limit word) {n : Nat} (h : n ≤ b.used) :
    (b.refund n).KeptIn limit (word - UInt64.ofNat n) := by
  obtain ⟨rfl, hle, hword⟩ := hb
  rw [← hword] at h
  have hn : (UInt64.ofNat n).toNat = n :=
    UInt64.toNat_ofNat_of_lt' (Nat.lt_of_le_of_lt h word.toNat_lt)
  have hsub : UInt64.ofNat n ≤ word := by
    rwa [UInt64.le_iff_toNat_le, hn]
  refine ⟨rfl, fun limit hl => Nat.le_trans (Nat.sub_le _ _) (hle limit hl), ?_⟩
  rw [UInt64.toNat_sub_of_le _ _ hsub, hn, hword, refund_used]

theorem settle (hb : b.KeptIn limit word) {m : Movement} (h : b.settle m = some b') :
    b'.KeptIn limit (inWord word m) := by
  cases m with
  | charge n =>
    rw [Budget.settle, charge_eq] at h
    by_cases hadmits : b.Admits n
    · rw [if_pos hadmits] at h
      cases h
      exact hb.raise hadmits
    · rw [if_neg hadmits] at h
      cases h
  | refund n =>
    rw [Budget.settle] at h
    by_cases hused : n ≤ b.used
    · rw [if_pos hused] at h
      cases h
      exact hb.refund hused
    · rw [if_neg hused] at h
      cases h

theorem replay (hb : b.KeptIn limit word) {ms : List Movement} (h : b.replay ms = some b') :
    b'.KeptIn limit (ms.foldl inWord word) := by
  induction ms generalizing b word with
  | nil =>
    obtain rfl : b = b' := Option.some.inj h
    exact hb
  | cons m rest ih =>
    rw [Budget.replay] at h
    obtain ⟨middle, hm, hrest⟩ := Option.bind_eq_some_iff.mp h
    exact ih (hb.settle hm) hrest

theorem admits (hb : b.KeptIn limit word) : b.Admits 0 := by
  obtain ⟨rfl, hle, hword⟩ := hb
  rw [admits_iff]
  exact ⟨hword ▸ word.toNat_lt, hle⟩

end KeptIn

theorem ofLimit_keptIn (limit : Option Nat) : (ofLimit limit).KeptIn limit 0 where
  limit_eq := rfl
  used_le n _ := Nat.zero_le n
  word_eq := rfl

def longest (calls : List Call) : Nat :=
  (calls.map Call.extent).foldr max 0

theorem append_zeros_append_zeros (region : Bytes) (m n : Nat) :
    let middle := region ++ List.replicate (m - region.length) 0
    middle ++ List.replicate (n - middle.length) 0 =
      region ++ List.replicate (max m n - region.length) 0 := by
  intro middle
  have hmiddle : middle.length = max region.length m := by
    rw [List.length_append, List.length_replicate]
    omega
  have htotal : m - region.length + (n - max region.length m) = max m n - region.length := by omega
  rw [hmiddle, List.append_assoc, List.replicate_append_replicate, htotal]

theorem foldl_onto_fst (s : Bytes × Budget) (calls : List Call) :
    (calls.foldl Call.onto s).1 =
      s.1 ++ List.replicate (longest calls - s.1.length) 0 := by
  induction calls generalizing s with
  | nil => simp [longest]
  | cons call rest ih =>
    have hrest := ih (call.onto s)
    rw [call.onto_fst] at hrest
    exact hrest.trans (append_zeros_append_zeros s.1 call.extent (longest rest))

/-- A run leaves what its successful calls leave. The others might as well not have been made. -/
theorem after_eq (hs : s.2.Admits 0) (steps : List ((Nat → Bool) × Call)) :
    after s steps = (succeeded s steps).foldl Call.onto s := by
  induction steps generalizing s with
  | nil => rfl
  | cons step rest ih =>
    have hafter : after s (step :: rest) = after (perform s step).state rest := rfl
    rw [hafter, ih (perform_admits hs step), succeeded]
    by_cases h : Granted s step
    · rw [perform_eq hs, if_pos h]
      rfl
    · rw [perform_eq hs, if_neg h]

theorem lengthen_ok (hs : s.2.Admits 0) {grant : Nat → Bool} {length : Nat}
    {answer : Option Bytes}
    (h : (perform s (grant, .lengthen length)).result = .ok answer) :
    let s' := (perform s (grant, .lengthen length)).state
    s'.1 = s.1 ++ List.replicate (max s.1.length length - s.1.length) 0 ∧
      s'.1.length = max s.1.length length ∧
      s'.2 = s.2.raise (s'.1.length - s.1.length) := by
  intro s'
  have hs' : s' = Call.onto s (.lengthen length) := congrArg Outcome.state (perform_ok hs h)
  have hgrowth : max s.1.length length - s.1.length = length - s.1.length := by omega
  have hregion : s'.1 = s.1 ++ List.replicate (max s.1.length length - s.1.length) 0 := by
    rw [hs', hgrowth]
    rfl
  have hlength : s'.1.length = max s.1.length length := by
    rw [hregion, List.length_append, List.length_replicate]
    omega
  refine ⟨hregion, hlength, ?_⟩
  rw [hlength, hgrowth, hs']
  rfl

/-- Whatever is asked of a budget that starts with nothing used, and whoever refuses it, a call that
fails tells how many bytes it could not add and leaves the budget and the region as they were, so
that a run leaves what its successful calls leave. At every moment of the run, also between a charge
and its undoing, what is used is within the limit, a machine that adds and takes without a check
keeps it in a word, and nothing is given back that is not used. A region that is lengthened keeps
its bytes and is filled up with zeros, and what it grows by is charged; for a copy its length is
charged. -/
theorem calls_whole_or_undone (limit : Option Nat) (region : Bytes)
    (steps : List ((Nat → Bool) × Call)) :
    let start := (region, ofLimit limit)
    let s := after start steps
    let done := succeeded start steps
    (s = done.foldl Call.onto start ∧
      s.1 = region ++ List.replicate (longest done - region.length) 0) ∧
    (s.2.KeptIn limit ((moves start steps).foldl inWord 0) ∧
      (ofLimit limit).replay (moves start steps) = some s.2 ∧
      ∀ ms, ms <+: moves start steps →
        ∃ b, (ofLimit limit).replay ms = some b ∧ b.KeptIn limit (ms.foldl inWord 0)) ∧
    (∀ held step,
      let outcome := perform (held, s.2) step
      let asked := step.2.asked held
      let wanted := step.2.wanted held
      ((∃ answer, outcome.result = .ok answer) ↔
        s.2.Admits asked ∧ (wanted = 0 ∨ step.1 wanted)) ∧
      (∀ e, outcome.result = .error e →
        outcome = ⟨.error (.outOfMemory asked), held, s.2⟩) ∧
      (s.2.Admits asked → wanted ≠ 0 → ¬ step.1 wanted →
        step.2.moves (held, s.2) step.1 = [.charge asked, .refund asked] ∧
        outcome = ⟨.error (.outOfMemory asked), held, s.2⟩) ∧
      ∀ answer, outcome.result = .ok answer →
        outcome = ⟨.ok step.2.answer, step.2.onto (held, s.2)⟩) ∧
    (∀ held grant length answer,
      let outcome := perform (held, s.2) (grant, .lengthen length)
      outcome.result = .ok answer →
        let s' := outcome.state
        s'.1 = held ++ List.replicate (max held.length length - held.length) 0 ∧
        s'.1.length = max held.length length ∧
        s'.2 = s.2.raise (s'.1.length - held.length)) ∧
    ∀ held grant data answer,
      let outcome := perform (held, s.2) (grant, .copy data)
      outcome.result = .ok answer →
        answer = some data ∧ outcome.state = (held, s.2.raise data.length) := by
  intro start s done
  have hstart : start.2.KeptIn limit 0 := ofLimit_keptIn limit
  have hmoves : start.2.replay (moves start steps) = some s.2 := moves_replay start steps
  have hkept : s.2.KeptIn limit ((moves start steps).foldl inWord 0) := hstart.replay hmoves
  have hs (held : Bytes) : (held, s.2).2.Admits 0 := hkept.admits
  have hafter : s = done.foldl Call.onto start := after_eq hstart.admits steps
  refine ⟨⟨hafter, ?_⟩, ⟨hkept, hmoves, ?_⟩, ?_, ?_, ?_⟩
  · rw [hafter]
    exact foldl_onto_fst start done
  · intro ms hprefix
    -- Movements that settle have settled at every moment before.
    obtain ⟨b, hb⟩ := replay_of_prefix hprefix hmoves
    exact ⟨b, hb, hstart.replay hb⟩
  · intro held step outcome asked wanted
    refine ⟨perform_ok_iff (hs held), fun e he => perform_error (hs held) he, ?_,
      fun answer ha => perform_ok (hs held) ha⟩
    intro hadmits hwanted hgrant
    refine ⟨Call.moves_of_refused hadmits hwanted hgrant, ?_⟩
    have hrefused : ¬ Granted (held, s.2) step := fun h => h.2.elim hwanted hgrant
    exact (perform_eq (hs held) step).trans (if_neg hrefused)
  · intro held grant length answer outcome ha
    exact lengthen_ok (hs held) ha
  · intro held grant data answer outcome ha
    have houtcome : outcome = ⟨.ok (some data), held, s.2.raise data.length⟩ :=
      perform_ok (hs held) ha
    rw [houtcome] at ha ⊢
    cases ha
    exact ⟨rfl, rfl⟩

/-- Under a limit of ten bytes, a region of one byte is lengthened to six once the allocator grants
it; a charge past the limit fails, and a refund of more than is used leaves nothing used. Between
the charge for the refused region and its undoing, eight bytes are used. -/
theorem calls_whole_or_undone_past_refusals :
    let all : Nat → Bool := fun _ => true
    let none : Nat → Bool := fun _ => false
    let steps : List ((Nat → Bool) × Call) :=
      [(all, .copy [1, 2, 3]), (none, .lengthen 6), (all, .lengthen 6), (all, .charge 3),
        (all, .refund 20), (all, .allocate 9)]
    let start := ([7], ofLimit (some 10))
    let s := ([7, 0, 0, 0, 0, 0], ⟨some 10, 9⟩)
    after start steps = s ∧
      moves start steps =
        [.charge 3, .charge 5, .refund 5, .charge 5, .refund 8, .charge 9] ∧
      (∃ b, (ofLimit (some 10)).replay [.charge 3, .charge 5] = some b ∧ b.KeptIn (some 10) 8) ∧
      perform s (none, .lengthen 7) = ⟨.error (.outOfMemory 1), s⟩ ∧
      ¬ ∃ answer, (perform s (all, .copy [1, 2])).result = .ok answer := by
  intro all none steps start s
  have hdone : succeeded start steps =
      [.copy [1, 2, 3], .lengthen 6, .refund 20, .allocate 9] := by decide +kernel
  have hmoves : moves start steps =
      [.charge 3, .charge 5, .refund 5, .charge 5, .refund 8, .charge 9] := by decide +kernel
  obtain ⟨⟨hrun, -⟩, ⟨-, -, hmoments⟩, hcalls, -⟩ := calls_whole_or_undone (some 10) [7] steps
  have hs : after start steps = s := by
    refine hrun.trans ?_
    rw [hdone]
    rfl
  rw [hs] at hcalls
  refine ⟨hs, hmoves, ?_, ?_, ?_⟩
  · exact hmoments [.charge 3, .charge 5] (hmoves ▸ ⟨_, rfl⟩)
  · obtain ⟨-, -, hundone, -⟩ := hcalls s.1 (none, .lengthen 7)
    exact (hundone (by decide) (by decide) Bool.false_ne_true).2
  · obtain ⟨hiff, -⟩ := hcalls s.1 (all, .copy [1, 2])
    have hpast : ¬ s.2.Admits 2 := by decide
    exact fun hok => hpast (hiff.mp hok).1

end Enclave.Budget
