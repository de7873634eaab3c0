import Enclave.Proofs.Deferral

namespace Enclave.Desk

open Deed

variable {σ ρ : Type} {start : σ} {d : Desk σ ρ} {past : List (Deed σ ρ)}

theorem idAfter_ne {j k : Nat} (hlt : j < k) (hle : k < j + Agenda.idCount) :
    Agenda.idAfter j ≠ Agenda.idAfter k := by
  intro h
  have hmod := Agenda.idAfter_eq_iff.mp h
  unfold Agenda.idCount at *
  omega

theorem Follows.next_pending (h : d.Follows start past) (hn : Numbered past) :
    d.agenda.isPending (Agenda.idAfter (spawns past)) = true ↔
      Agenda.idCount ≤ spawns past ∧ ∃ job,
        held (Agenda.idAfter (spawns past)) past = some (spawns past - Agenda.idCount, job) := by
  rw [Agenda.isPending, h.find?, Option.isSome_map]
  constructor
  · intro hs
    obtain ⟨⟨k, job⟩, hj⟩ := Option.isSome_iff_exists.mp hs
    have hlt := hn.held_lt hj
    have hcycle : Agenda.idCount ≤ spawns past - k := by
      by_contra hless
      exact idAfter_ne hlt (by omega) (hn.held_id hj).symm
    -- A later number with the same identifier would be the one that is held.
    have hk : k = spawns past - Agenda.idCount := by
      by_contra hne
      refine hn.held_last hj (spawns past - Agenda.idCount) (by omega) ?_ ?_
      · unfold Agenda.idCount at *
        omega
      · rw [Agenda.idAfter_eq_iff]
        unfold Agenda.idCount at *
        omega
    exact ⟨by omega, job, hk ▸ hj⟩
  · rintro ⟨-, job, hj⟩
    rw [hj]
    rfl

theorem run_find? {id : TaskId} {errand : Errand σ ρ} (hjoin : errand ≠ .join id)
    (hdiscard : errand ≠ .discard id)
    (hspawn : ∀ (α : Type) (name : String) (func : α → σ → ρ × σ) (arg : α),
      errand = .spawn name func arg → id ≠ ⟨d.agenda.next⟩) :
    (d.run errand).agenda.find? id = d.agenda.find? id := by
  cases errand with
  | spawn name func arg =>
    exact (d.agenda.spawn_find? name func arg id).trans (if_neg (hspawn _ name func arg rfl))
  | join other =>
    have hne : id ≠ other := fun he => hjoin (he ▸ rfl)
    cases hf : d.agenda.find? other with
    | none => rw [run, Agenda.join_of_none hf]
    | some job =>
      rw [run, Agenda.join_of_some hf]
      exact (d.agenda.drop_find? other id).trans (if_neg hne)
  | discard other =>
    have hne : id ≠ other := fun he => hdiscard (he ▸ rfl)
    cases hf : d.agenda.find? other with
    | none => rw [run, Agenda.discard_of_none hf]
    | some job =>
      rw [run, Agenda.discard_of_some hf]
      exact (d.agenda.drop_find? other id).trans (if_neg hne)
  | name _ | isPending _ | pending | change f => rfl

theorem spawns_le_cons (start : σ) (errand : Errand σ ρ) (earlier : List (Errand σ ρ)) :
    spawns (Desk.past start earlier) ≤ spawns (Desk.past start (errand :: earlier)) := by
  rw [Desk.past]
  cases (after start earlier).deed? errand with
  | none => exact Nat.le_refl _
  | some deed =>
    cases deed with
    | spawned id job => exact Nat.le_succ _
    | joined id | discarded id | changed f => exact Nat.le_refl _

theorem spawns_le_append (start : σ) (later earlier : List (Errand σ ρ)) :
    spawns (Desk.past start earlier) ≤ spawns (Desk.past start (later ++ earlier)) := by
  induction later with
  | nil => exact Nat.le_refl _
  | cons errand later ih => exact Nat.le_trans ih (spawns_le_cons start errand _)

theorem find?_stays {α : Type} (start : σ) (errands : List (Errand σ ρ)) (name : String)
    (func : α → σ → ρ × σ) (arg : α) (later : List (Errand σ ρ)) :
    let id := Agenda.idAfter (spawns (Desk.past start errands))
    .join id ∉ later → .discard id ∉ later →
      spawns (Desk.past start (later ++ .spawn name func arg :: errands)) ≤
        spawns (Desk.past start errands) + Agenda.idCount →
      (after start (later ++ .spawn name func arg :: errands)).agenda.find? id =
        some ⟨name, func arg⟩ := by
  intro id
  have hid : id = ⟨(after start errands).agenda.next⟩ := (after_follows start errands).next_id.symm
  induction later with
  | nil =>
    intro _ _ _
    exact ((after start errands).agenda.spawn_find? name func arg id).trans (if_pos hid)
  | cons errand later ih =>
    intro hjoin hdiscard hcount
    rw [List.mem_cons, not_or] at hjoin hdiscard
    obtain ⟨hj, hjoin⟩ := hjoin
    obtain ⟨hd, hdiscard⟩ := hdiscard
    have hstep := spawns_le_cons start errand (later ++ .spawn name func arg :: errands)
    refine (run_find? (Ne.symm hj) (Ne.symm hd) ?_).trans
      (ih hjoin hdiscard (Nat.le_trans hstep hcount))
    rintro β name' func' arg' rfl
    -- A later spawn is less than a cycle after this one, so it is given another identifier.
    have hnext := (after_follows start (later ++ .spawn name func arg :: errands)).next_id
    have hfirst := spawns_le_append start later (.spawn name func arg :: errands)
    exact fun he => idAfter_ne hfirst hcount (he.trans hnext)

/-- After every run, a spawn makes its task pending under the next identifier and leaves every other
identifier alone. One more task is then pending, unless one was pending under that identifier: the one
that was spawned exactly a cycle before, if it has not been ended. The new task stays in its turn until
it is joined or discarded, or another cycle of spawns has followed. -/
theorem spawn_displaces_at_most_one {α : Type} (start : σ) (errands : List (Errand σ ρ))
    (name : String) (func : α → σ → ρ × σ) (arg : α) :
    let d := after start errands
    let past := Desk.past start errands
    let id := (d.agenda.spawn name func arg).1
    let agenda := (d.agenda.spawn name func arg).2
    agenda.find? id = some ⟨name, func arg⟩ ∧
    (∀ other, other ≠ id → agenda.find? other = d.agenda.find? other) ∧
    agenda.pending = (if d.agenda.isPending id then d.agenda.pending else d.agenda.pending + 1) ∧
    (d.agenda.isPending id = true ↔ 2 ^ 32 - 1 ≤ spawns past ∧
      ∃ job, held id past = some (spawns past - (2 ^ 32 - 1), job)) ∧
    (∀ later, .join id ∉ later → .discard id ∉ later →
      spawns (Desk.past start (later ++ .spawn name func arg :: errands)) ≤
        spawns past + (2 ^ 32 - 1) →
      (after start (later ++ .spawn name func arg :: errands)).agenda.find? id =
        some ⟨name, func arg⟩) := by
  intro d past id agenda
  have h : d.Follows start past := after_follows start errands
  have hid : id = Agenda.idAfter (spawns past) := h.next_id
  refine ⟨?_, ?_, Agenda.pending_spawn h.nodup name func arg, ?_, ?_⟩
  · exact (d.agenda.spawn_find? name func arg id).trans (if_pos rfl)
  · exact fun other hne => (d.agenda.spawn_find? name func arg other).trans (if_neg hne)
  · rw [hid]
    exact h.next_pending (past_numbered start errands)
  · rw [hid]
    exact find?_stays start errands name func arg

/-- A task that is spawned first and kept, and `n` others that are spawned and discarded. -/
def passing : Nat → List (Errand Unit Nat)
  | 0 => [.spawn "kept" Prod.mk 0]
  | n + 1 => .discard (Agenda.idAfter (n + 1)) :: .spawn "passing" Prod.mk (n + 1) :: passing n

theorem passing_agenda (n : Nat) (h : n < Agenda.idCount) :
    (after () (passing n)).agenda =
      ⟨[(⟨1⟩, ⟨"kept", Prod.mk 0⟩)], (Agenda.idAfter (n + 1)).raw⟩ := by
  induction n with
  | zero => rfl
  | succ n ih =>
    have hlt : n < Agenda.idCount := Nat.lt_of_succ_lt h
    have hne : (⟨1⟩ : TaskId) ≠ Agenda.idAfter (n + 1) :=
      idAfter_ne (Nat.succ_pos n) (by omega)
    simp [passing, after, run, ih hlt, Agenda.spawn, Agenda.discard, Agenda.find?, Agenda.drop,
      Agenda.successor_idAfter, hne]

/-- A whole cycle of spawns after the first, the task that was spawned then is gone without having
been joined or discarded. -/
theorem kept_task_is_displaced :
    let d := after () (passing 4294967294)
    let id := (d.agenda.spawn "late" Prod.mk 1).1
    let agenda := (d.agenda.spawn "late" Prod.mk 1).2
    d.agenda.isPending id = true ∧ agenda.pending = d.agenda.pending ∧
      d.agenda.name? ⟨1⟩ = some "kept" ∧ agenda.name? ⟨1⟩ = some "late" := by
  intro d id agenda
  have hd : d.agenda = ⟨[(⟨1⟩, ⟨"kept", Prod.mk 0⟩)], 1⟩ :=
    passing_agenda 4294967294 (by decide)
  have hid : id = ⟨1⟩ := congrArg (fun a => (⟨a.next⟩ : TaskId)) hd
  have hagenda : agenda = ⟨[(⟨1⟩, ⟨"late", Prod.mk 1⟩)], 2⟩ :=
    congrArg (fun a => (a.spawn "late" Prod.mk 1).2) hd
  rw [hid, hagenda, hd]
  exact ⟨rfl, rfl, rfl, rfl⟩

end Enclave.Desk
