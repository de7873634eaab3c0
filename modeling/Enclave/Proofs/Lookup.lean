namespace Enclave

variable {κ β : Type} [DecidableEq κ]

theorem lookup_cons_of_ne {key first : κ} (h : key ≠ first) (value : β)
    (entries : List (κ × β)) : ((first, value) :: entries).lookup key = entries.lookup key := by
  rw [List.lookup_cons, beq_false_of_ne h]

theorem isSome_lookup_iff (entries : List (κ × β)) (key : κ) :
    (entries.lookup key).isSome = true ↔ key ∈ entries.map Prod.fst := by
  rw [List.lookup_isSome_iff, List.mem_map]
  constructor
  · rintro ⟨entry, hm, he⟩
    exact ⟨entry, hm, (eq_of_beq he).symm⟩
  · rintro ⟨entry, hm, rfl⟩
    exact ⟨entry, hm, beq_self_eq_true _⟩

theorem lookup_filter_ne (entries : List (κ × β)) (key other : κ) :
    (entries.filter (·.1 ≠ key)).lookup other =
      if other = key then none else entries.lookup other := by
  induction entries with
  | nil => simp
  | cons entry rest ih =>
    obtain ⟨first, value⟩ := entry
    by_cases hf : first = key
    · rw [List.filter_cons_of_neg (by simp [hf]), ih, hf]
      by_cases ho : other = key
      · rw [if_pos ho, if_pos ho]
      · rw [if_neg ho, if_neg ho, lookup_cons_of_ne ho]
    · rw [List.filter_cons_of_pos (by simp [hf])]
      by_cases ho : other = first
      · subst ho
        rw [List.lookup_cons_self, List.lookup_cons_self, if_neg hf]
      · rw [lookup_cons_of_ne ho, lookup_cons_of_ne ho, ih]

end Enclave
