import Enclave.Proofs.Agenda

namespace Enclave

structure Desk (σ ρ : Type) where
  agenda : Agenda σ ρ
  state : σ

inductive Errand (σ ρ : Type) : Type 1 where
  | spawn {α : Type} (name : String) (func : α → σ → ρ × σ) (arg : α)
  | join (id : TaskId)
  | discard (id : TaskId)
  | name (id : TaskId)
  | isPending (id : TaskId)
  | pending
  | change (f : σ → σ)

/-- What an errand has done. An errand that fails or only asks does nothing. -/
inductive Deed (σ ρ : Type) where
  | spawned (id : TaskId) (job : Job σ ρ)
  | joined (id : TaskId)
  | discarded (id : TaskId)
  | changed (f : σ → σ)

namespace Desk

variable {σ ρ : Type}

def run (d : Desk σ ρ) : Errand σ ρ → Desk σ ρ
  | .spawn name func arg => { d with agenda := (d.agenda.spawn name func arg).2 }
  | .join id =>
    match d.agenda.join id d.state with
    | (_, agenda, state) => ⟨agenda, state⟩
  | .discard id => { d with agenda := (d.agenda.discard id).2 }
  | .name _ | .isPending _ | .pending => d
  | .change f => { d with state := f d.state }

def deed? (d : Desk σ ρ) : Errand σ ρ → Option (Deed σ ρ)
  | .spawn name func arg => some (.spawned (d.agenda.spawn name func arg).1 ⟨name, func arg⟩)
  | .join id =>
    match (d.agenda.join id d.state).1 with
    | .ok _ => some (.joined id)
    | .error _ => none
  | .discard id =>
    match (d.agenda.discard id).1 with
    | .ok () => some (.discarded id)
    | .error _ => none
  | .name _ | .isPending _ | .pending => none
  | .change f => some (.changed f)

def after (start : σ) : List (Errand σ ρ) → Desk σ ρ
  | [] => ⟨.empty, start⟩
  | errand :: earlier => (after start earlier).run errand

/-- The deeds of a run. Runs and deeds are told backwards, the latest first. -/
def past (start : σ) : List (Errand σ ρ) → List (Deed σ ρ)
  | [] => []
  | errand :: earlier => ((after start earlier).deed? errand).toList ++ past start earlier

end Desk

namespace Deed

variable {σ ρ : Type}

def spawns : List (Deed σ ρ) → Nat
  | [] => 0
  | .spawned _ _ :: earlier => spawns earlier + 1
  | _ :: earlier => spawns earlier

/-- The last spawn under `id` and its number, unless `id` has been joined or discarded since. -/
def held (id : TaskId) : List (Deed σ ρ) → Option (Nat × Job σ ρ)
  | [] => none
  | .spawned other job :: earlier =>
    if id = other then some (spawns earlier, job) else held id earlier
  | .joined other :: earlier | .discarded other :: earlier =>
    if id = other then none else held id earlier
  | .changed _ :: earlier => held id earlier

/-- The works that have run, each with the number of its spawn. -/
def works : List (Deed σ ρ) → List (Nat × Job σ ρ)
  | [] => []
  | .joined id :: earlier => (held id earlier).toList ++ works earlier
  | _ :: earlier => works earlier

def changes : List (Deed σ ρ) → List (σ → σ)
  | [] => []
  | .joined id :: earlier =>
    (held id earlier).toList.map (fun task state => (task.2.work state).2) ++ changes earlier
  | .changed f :: earlier => f :: changes earlier
  | _ :: earlier => changes earlier

end Deed

namespace Desk

open Deed

variable {σ ρ : Type} {start : σ} {d : Desk σ ρ} {past : List (Deed σ ρ)}

structure Follows (start : σ) (d : Desk σ ρ) (past : List (Deed σ ρ)) : Prop where
  nodup : d.agenda.ids.Nodup
  next : d.agenda.next = (Agenda.idAfter (spawns past)).raw
  find? : ∀ id, d.agenda.find? id = (held id past).map Prod.snd
  state : d.state = (changes past).foldr (fun f state => f state) start

theorem Follows.next_id (h : d.Follows start past) :
    (⟨d.agenda.next⟩ : TaskId) = Agenda.idAfter (spawns past) :=
  congrArg TaskId.mk h.next

theorem Follows.spawn {α : Type} (h : d.Follows start past) (name : String)
    (func : α → σ → ρ × σ) (arg : α) :
    Follows start (d.run (.spawn name func arg))
      (.spawned (Agenda.idAfter (spawns past)) ⟨name, func arg⟩ :: past) where
  nodup := Agenda.nodup_spawn h.nodup name func arg
  next := by
    rw [spawns, ← Agenda.successor_idAfter, ← h.next]
    rfl
  find? id := by
    refine (d.agenda.spawn_find? name func arg id).trans ?_
    rw [h.next_id, held, h.find?]
    split <;> rfl
  state := h.state

theorem Follows.join (h : d.Follows start past) {id : TaskId} {k : Nat} {job : Job σ ρ}
    (hj : held id past = some (k, job)) :
    Follows start ⟨d.agenda.drop id, (job.work d.state).2⟩ (.joined id :: past) where
  nodup := Agenda.nodup_drop h.nodup id
  next := h.next
  find? other := by
    rw [Agenda.drop_find?, held, h.find?]
    split <;> rfl
  state := by
    rw [changes, hj, h.state]
    rfl

theorem Follows.discard (h : d.Follows start past) (id : TaskId) :
    Follows start { d with agenda := d.agenda.drop id } (.discarded id :: past) where
  nodup := Agenda.nodup_drop h.nodup id
  next := h.next
  find? other := by
    rw [Agenda.drop_find?, held, h.find?]
    split <;> rfl
  state := h.state

theorem Follows.change (h : d.Follows start past) (f : σ → σ) :
    Follows start { d with state := f d.state } (.changed f :: past) where
  nodup := h.nodup
  next := h.next
  find? := h.find?
  state := by
    rw [changes, h.state]
    rfl

theorem Follows.find?_of_held (h : d.Follows start past) {id : TaskId} {k : Nat} {job : Job σ ρ}
    (hj : held id past = some (k, job)) : d.agenda.find? id = some job := by
  rw [h.find?, hj]
  rfl

theorem Follows.find?_of_not_held (h : d.Follows start past) {id : TaskId}
    (hj : held id past = none) : d.agenda.find? id = none := by
  rw [h.find?, hj]
  rfl

theorem Follows.cases (h : d.Follows start past) (errand : Errand σ ρ) :
    (d.deed? errand = none ∧ d.run errand = d) ∨
    ∃ deed, d.deed? errand = some deed ∧ Follows start (d.run errand) (deed :: past) ∧
      (∀ id job, deed = .spawned id job → id = Agenda.idAfter (spawns past)) := by
  cases errand with
  | spawn name func arg =>
    refine .inr ⟨.spawned (Agenda.idAfter (spawns past)) ⟨name, func arg⟩, ?_,
      h.spawn name func arg, ?_⟩
    · exact congrArg (fun id => some (Deed.spawned id _)) h.next_id
    · intro id job hd
      cases hd
      rfl
  | join id =>
    cases hj : held id past with
    | none =>
      have hjoin := Agenda.join_of_none (h.find?_of_not_held hj) d.state
      exact .inl ⟨by rw [deed?, hjoin], by rw [run, hjoin]⟩
    | some task =>
      have hjoin := Agenda.join_of_some (h.find?_of_held hj) d.state
      refine .inr ⟨.joined id, by rw [deed?, hjoin], ?_, fun _ _ hd => by cases hd⟩
      rw [run, hjoin]
      exact h.join hj
  | discard id =>
    cases hj : held id past with
    | none =>
      have hdiscard := Agenda.discard_of_none (h.find?_of_not_held hj)
      exact .inl ⟨by rw [deed?, hdiscard], by rw [run, hdiscard]⟩
    | some task =>
      have hdiscard := Agenda.discard_of_some (h.find?_of_held hj)
      refine .inr ⟨.discarded id, by rw [deed?, hdiscard], ?_, fun _ _ hd => by cases hd⟩
      rw [run, hdiscard]
      exact h.discard id
  | name id | isPending id | pending => exact .inl ⟨rfl, rfl⟩
  | change f => exact .inr ⟨.changed f, rfl, h.change f, fun _ _ hd => by cases hd⟩

theorem after_follows (start : σ) (errands : List (Errand σ ρ)) :
    Follows start (after start errands) (Desk.past start errands) := by
  induction errands with
  | nil => exact ⟨List.nodup_nil, rfl, fun _ => rfl, rfl⟩
  | cons errand earlier ih =>
    rw [after, Desk.past]
    obtain ⟨hd, hr⟩ | ⟨deed, hd, hr, -⟩ := ih.cases errand
    · rw [hd, hr]
      exact ih
    · rw [hd]
      exact hr

end Desk

namespace Deed

variable {σ ρ : Type} {past : List (Deed σ ρ)}

/-- A spawn is told by its number: the tasks that are held are each the last under their identifier,
none of them has run, and no work has run twice. -/
structure Numbered (past : List (Deed σ ρ)) : Prop where
  held_lt : ∀ {id k job}, held id past = some (k, job) → k < spawns past
  held_id : ∀ {id k job}, held id past = some (k, job) → id = Agenda.idAfter k
  held_last : ∀ {id k job}, held id past = some (k, job) →
    ∀ m, k < m → m < spawns past → Agenda.idAfter m ≠ id
  held_not_run : ∀ {id k job}, held id past = some (k, job) → k ∉ (works past).map Prod.fst
  run_lt : ∀ k ∈ (works past).map Prod.fst, k < spawns past
  nodup : ((works past).map Prod.fst).Nodup

theorem numbered_nil : Numbered ([] : List (Deed σ ρ)) where
  held_lt hj := by cases hj
  held_id hj := by cases hj
  held_last hj := by cases hj
  held_not_run hj := by cases hj
  run_lt k hk := by cases hk
  nodup := List.nodup_nil

theorem Numbered.spawned (h : Numbered past) (job : Job σ ρ) :
    Numbered (.spawned (Agenda.idAfter (spawns past)) job :: past) := by
  -- The new task is held under its identifier, and what was held under any other still is.
  have cases {id k job'} (hj : held id (.spawned (Agenda.idAfter (spawns past)) job :: past) =
      some (k, job')) : id = Agenda.idAfter (spawns past) ∧ k = spawns past ∨
        id ≠ Agenda.idAfter (spawns past) ∧ held id past = some (k, job') := by
    rw [held] at hj
    by_cases hid : id = Agenda.idAfter (spawns past)
    · rw [if_pos hid] at hj
      cases hj
      exact .inl ⟨hid, rfl⟩
    · rw [if_neg hid] at hj
      exact .inr ⟨hid, hj⟩
  refine ⟨?_, ?_, ?_, ?_, ?_, h.nodup⟩
  · intro id k job' hj
    obtain ⟨-, rfl⟩ | ⟨-, hj⟩ := cases hj
    · exact Nat.lt_succ_self _
    · exact Nat.lt_succ_of_lt (h.held_lt hj)
  · intro id k job' hj
    obtain ⟨hid, rfl⟩ | ⟨-, hj⟩ := cases hj
    · exact hid
    · exact h.held_id hj
  · intro id k job' hj m hlt hm
    rw [spawns] at hm
    obtain ⟨-, rfl⟩ | ⟨hid, hj⟩ := cases hj
    · omega
    · -- Of the later spawns only the new one was not there before, and its identifier is another.
      obtain rfl | hm := Nat.eq_or_lt_of_le (Nat.le_of_lt_succ hm)
      · exact hid.symm
      · exact h.held_last hj m hlt hm
  · intro id k job' hj hrun
    obtain ⟨-, rfl⟩ | ⟨-, hj⟩ := cases hj
    · exact Nat.lt_irrefl _ (h.run_lt _ hrun)
    · exact h.held_not_run hj hrun
  · exact fun k hk => Nat.lt_succ_of_lt (h.run_lt k hk)

theorem Numbered.passed (h : Numbered past) {deed : Deed σ ρ} (ran : Option (Nat × Job σ ρ))
    (hspawns : spawns (deed :: past) = spawns past)
    (hheld : ∀ {id task}, held id (deed :: past) = some task → held id past = some task)
    (hworks : works (deed :: past) = ran.toList ++ works past)
    (hends : ∀ task, ran = some task → ∃ id, held id past = some task ∧
      held id (deed :: past) = none) :
    Numbered (deed :: past) where
  held_lt hj := hspawns ▸ h.held_lt (hheld hj)
  held_id hj := h.held_id (hheld hj)
  held_last hj m hlt hm := h.held_last (hheld hj) m hlt (hspawns ▸ hm)
  held_not_run {id k job} hj hrun := by
    have hold := h.held_not_run (hheld hj)
    rw [hworks] at hrun
    cases ran with
    | none => exact hold hrun
    | some task =>
      obtain ⟨other, hother, hnone⟩ := hends task rfl
      obtain rfl | hrun := List.mem_cons.mp hrun
      · -- The task that ran would still be held, under the one identifier that its number has.
        rw [h.held_id (hheld hj), ← h.held_id hother] at hj
        rw [hnone] at hj
        cases hj
      · exact hold hrun
  run_lt k hk := by
    rw [hspawns]
    rw [hworks] at hk
    cases ran with
    | none => exact h.run_lt k hk
    | some task =>
      obtain ⟨other, hother, -⟩ := hends task rfl
      obtain rfl | hk := List.mem_cons.mp hk
      · exact h.held_lt hother
      · exact h.run_lt k hk
  nodup := by
    rw [hworks]
    cases ran with
    | none => exact h.nodup
    | some task =>
      obtain ⟨other, hother, -⟩ := hends task rfl
      exact List.nodup_cons.mpr ⟨h.held_not_run hother, h.nodup⟩

theorem held_of_ended {id other : TaskId} {task : Nat × Job σ ρ}
    (h : (if id = other then none else held id past) = some task) : held id past = some task := by
  split at h
  · cases h
  · exact h

theorem Numbered.of_deed (h : Numbered past) (deed : Deed σ ρ)
    (hid : ∀ id job, deed = .spawned id job → id = Agenda.idAfter (spawns past)) :
    Numbered (deed :: past) := by
  cases deed with
  | spawned id job => exact hid id job rfl ▸ h.spawned job
  | joined id =>
    refine h.passed (held id past) rfl held_of_ended rfl fun task htask => ?_
    exact ⟨id, htask, if_pos rfl⟩
  | discarded id => exact h.passed none rfl held_of_ended rfl fun _ hn => by cases hn
  | changed f => exact h.passed none rfl id rfl fun _ hn => by cases hn

end Deed

namespace Desk

open Deed

variable {σ ρ : Type}

theorem past_numbered (start : σ) (errands : List (Errand σ ρ)) :
    Numbered (past start errands) := by
  induction errands with
  | nil => exact numbered_nil
  | cons errand earlier ih =>
    rw [past]
    obtain ⟨hd, -⟩ | ⟨deed, hd, -, hid⟩ := (after_follows start earlier).cases errand
    · rw [hd]
      exact ih
    · rw [hd]
      exact ih.of_deed deed hid

/-- After every run of an agenda over a shared state, the next spawn is given the identifier that its
number tells. A task that is held can be joined, which runs its work in the state as it is and ends
it, or discarded, which only ends it; every other identifier is unknown and nothing happens. The
shared state is what the works of the joins and the other changes have made of it, in their order; no
work has run twice; and as many tasks are pending as there are identifiers of which this is told. -/
theorem work_waits_for_join (start : σ) (errands : List (Errand σ ρ)) :
    let d := after start errands
    let past := past start errands
    (∀ (α : Type) (name : String) (func : α → σ → ρ × σ) (arg : α),
      (d.agenda.spawn name func arg).1.raw.toNat = spawns past % (2 ^ 32 - 1) + 1) ∧
    (∀ id k job, held id past = some (k, job) →
      d.agenda.join id d.state =
        (.ok (job.work d.state).1, d.agenda.drop id, (job.work d.state).2) ∧
      d.agenda.discard id = (.ok (), d.agenda.drop id)) ∧
    (∀ id, held id past = none →
      d.agenda.join id d.state = (.error (.unknownTask id), d.agenda, d.state) ∧
      d.agenda.discard id = (.error (.unknownTask id), d.agenda)) ∧
    (∀ id, d.agenda.name? id = (held id past).map (·.2.name) ∧
      d.agenda.isPending id = (held id past).isSome) ∧
    (∀ id other, (d.agenda.drop id).find? other =
      if other = id then none else d.agenda.find? other) ∧
    d.state = (changes past).foldr (fun f state => f state) start ∧
    ((works past).map Prod.fst).Nodup ∧
    d.agenda.pending = {id | d.agenda.isPending id = true}.ncard := by
  intro d past
  have h : d.Follows start past := after_follows start errands
  refine ⟨?_, ?_, ?_, ?_, d.agenda.drop_find?, h.state, (past_numbered start errands).nodup,
    Agenda.pending_eq_ncard h.nodup⟩
  · intro α name func arg
    exact (congrArg UInt32.toNat h.next).trans (Agenda.toNat_idAfter _)
  · intro id k job hj
    have hf := h.find?_of_held hj
    exact ⟨Agenda.join_of_some hf d.state, Agenda.discard_of_some hf⟩
  · intro id hj
    have hf := h.find?_of_not_held hj
    exact ⟨Agenda.join_of_none hf d.state, Agenda.discard_of_none hf⟩
  · intro id
    rw [Agenda.name?, Agenda.isPending, h.find?, Option.map_map, Option.isSome_map]
    exact ⟨rfl, rfl⟩

def sumOfSquares (n : Nat) (state : List Nat) : Nat × List Nat :=
  let square (n : Nat) (state : List Nat) := (n * n, n :: state)
  let (first, a) := (Agenda.empty : Agenda (List Nat) Nat).spawn "first" square n
  let (second, a) := a.spawn "second" square (n + 1)
  let (left, a, state) := a.join second state
  let (right, _, state) := a.join first state
  (left.toOption.getD 0 + right.toOption.getD 0, state)

/-- Work that has an agenda of its own waits like any other. -/
example :
    let d := after [] [.change (7 :: ·), .spawn "sum" sumOfSquares 2]
    (d.agenda.join ⟨1⟩ d.state).1.toOption = some 13 ∧
      (d.agenda.join ⟨1⟩ d.state).2.2 = [2, 3, 7] := by
  decide

end Desk

end Enclave
