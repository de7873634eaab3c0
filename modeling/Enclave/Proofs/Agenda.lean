import Enclave.Proofs.Lookup
import Enclave.Task
import Mathlib.Data.Set.Card

namespace Enclave.Agenda

variable {α σ ρ : Type}

theorem drop_find? (a : Agenda σ ρ) (id other : TaskId) :
    (a.drop id).find? other = if other = id then none else a.find? other :=
  lookup_filter_ne a.jobs id other

theorem spawn_find? (a : Agenda σ ρ) (name : String) (func : α → σ → ρ × σ) (arg : α)
    (other : TaskId) :
    (a.spawn name func arg).2.find? other =
      if other = ⟨a.next⟩ then some ⟨name, func arg⟩ else a.find? other := by
  rw [find?, spawn]
  by_cases ho : other = ⟨a.next⟩
  · rw [if_pos ho, ho, List.lookup_cons_self]
  · rw [if_neg ho, lookup_cons_of_ne ho]
    exact (a.drop_find? _ other).trans (if_neg ho)

theorem join_of_some {a : Agenda σ ρ} {id : TaskId} {job : Job σ ρ} (hf : a.find? id = some job)
    (state : σ) :
    a.join id state = (.ok (job.work state).1, a.drop id, (job.work state).2) := by
  rw [join, hf]

theorem join_of_none {a : Agenda σ ρ} {id : TaskId} (hf : a.find? id = none) (state : σ) :
    a.join id state = (.error (.unknownTask id), a, state) := by
  rw [join, hf]

theorem discard_of_some {a : Agenda σ ρ} {id : TaskId} {job : Job σ ρ}
    (hf : a.find? id = some job) : a.discard id = (.ok (), a.drop id) := by
  rw [discard, hf]

theorem discard_of_none {a : Agenda σ ρ} {id : TaskId} (hf : a.find? id = none) :
    a.discard id = (.error (.unknownTask id), a) := by
  rw [discard, hf]

def ids (a : Agenda σ ρ) : List TaskId :=
  a.jobs.map Prod.fst

theorem mem_ids (a : Agenda σ ρ) (id : TaskId) : id ∈ a.ids ↔ a.isPending id = true := by
  rw [ids, isPending, find?, isSome_lookup_iff]

theorem drop_ids (a : Agenda σ ρ) (id : TaskId) : (a.drop id).ids = a.ids.filter (· ≠ id) := by
  rw [ids, ids, List.filter_map]
  rfl

theorem nodup_drop {a : Agenda σ ρ} (h : a.ids.Nodup) (id : TaskId) : (a.drop id).ids.Nodup := by
  rw [drop_ids]
  exact h.filter _

theorem nodup_spawn {a : Agenda σ ρ} (h : a.ids.Nodup) (name : String) (func : α → σ → ρ × σ)
    (arg : α) : (a.spawn name func arg).2.ids.Nodup := by
  refine List.nodup_cons.mpr ⟨?_, nodup_drop h ⟨a.next⟩⟩
  have hd := a.drop_ids ⟨a.next⟩
  rw [ids] at hd
  rw [hd, List.mem_filter]
  simp

theorem pending_eq_ncard {a : Agenda σ ρ} (h : a.ids.Nodup) :
    a.pending = {id | a.isPending id = true}.ncard := by
  have hset : {id | a.isPending id = true} = (a.ids.toFinset : Set TaskId) := by
    ext id
    rw [Set.mem_ofPred_eq, ← mem_ids, List.coe_toFinset, Set.mem_ofPred_eq]
  rw [hset, Set.ncard_coe_finset, List.toFinset_card_of_nodup h]
  exact (List.length_map _).symm

theorem pending_spawn {a : Agenda σ ρ} (h : a.ids.Nodup) (name : String) (func : α → σ → ρ × σ)
    (arg : α) :
    (a.spawn name func arg).2.pending =
      if a.isPending ⟨a.next⟩ then a.pending else a.pending + 1 := by
  have hset : {id | (a.spawn name func arg).2.isPending id = true} =
      insert ⟨a.next⟩ {id | a.isPending id = true} := by
    ext id
    simp only [Set.mem_ofPred_eq, Set.mem_insert_iff, isPending, spawn_find?]
    by_cases hid : id = ⟨a.next⟩
    · simp [hid]
    · simp [hid]
  have hfin : {id | a.isPending id = true}.Finite := by
    refine a.ids.toFinset.finite_toSet.subset fun id hid => ?_
    exact List.mem_toFinset.mpr ((a.mem_ids id).mpr hid)
  rw [pending_eq_ncard (nodup_spawn h name func arg), pending_eq_ncard h, hset]
  by_cases hp : a.isPending ⟨a.next⟩
  · rw [if_pos hp, Set.insert_eq_of_mem (by exact hp)]
  · rw [if_neg hp, Set.ncard_insert_of_notMem (by exact hp) hfin]

/-- The number of spawns after which identifiers come again. -/
def idCount : Nat := 4294967295

def idAfter (k : Nat) : TaskId :=
  ⟨UInt32.ofNat (k % idCount + 1)⟩

theorem toNat_idAfter (k : Nat) : (idAfter k).raw.toNat = k % idCount + 1 := by
  have hlt : k % idCount + 1 < 4294967296 :=
    Nat.succ_lt_succ (Nat.mod_lt k (by decide))
  rw [idAfter, UInt32.toNat_ofNat']
  exact Nat.mod_eq_of_lt hlt

theorem idAfter_eq_iff {j k : Nat} : idAfter j = idAfter k ↔ j % idCount = k % idCount := by
  constructor
  · intro h
    have hn := congrArg (·.raw.toNat) h
    simp only [toNat_idAfter] at hn
    omega
  · intro h
    rw [idAfter, idAfter, h]

theorem successor_idAfter (k : Nat) : successor (idAfter k).raw = (idAfter (k + 1)).raw := by
  have hk := toNat_idAfter k
  have hsum : ((idAfter k).raw + 1).toNat = (k % idCount + 2) % 4294967296 := by
    rw [UInt32.toNat_add, hk]
    rfl
  apply UInt32.toNat_inj.mp
  rw [toNat_idAfter, successor]
  have hz : (idAfter k).raw + 1 = 0 ↔ (k % idCount + 2) % 4294967296 = 0 := by
    rw [← hsum, ← UInt32.toNat_inj]
    rfl
  simp only [hz]
  unfold idCount at *
  split
  · change 1 = _
    omega
  · rw [hsum]
    omega

end Enclave.Agenda
