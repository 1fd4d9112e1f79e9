set_option autoImplicit false

/-! # Tables

Accounts, storage slots, preimages, directory entries and JSON fields are all small tables whose
order is part of what they show. A table is a list of pairs: a key that is written again keeps its
place, a new one goes to the end. -/

namespace StepReplay

/-- Values by key, in the order in which the keys came. -/
abbrev Table (κ α : Type) := List (κ × α)

namespace Table

variable {κ α : Type} [DecidableEq κ]

/-- The value of a key. -/
def find? (key : κ) : Table κ α → Option α
  | [] => none
  | (k, v) :: rest => if k = key then some v else find? key rest

/-- The table with a value for a key. -/
def put (key : κ) (value : α) : Table κ α → Table κ α
  | [] => [(key, value)]
  | (k, v) :: rest => if k = key then (k, value) :: rest else (k, v) :: put key value rest

@[simp] theorem find?_put_self (key : κ) (value : α) (t : Table κ α) :
    find? key (put key value t) = some value := by
  induction t with
  | nil => simp [put, find?]
  | cons entry rest ih =>
    obtain ⟨k, v⟩ := entry
    by_cases h : k = key <;> simp [put, find?, h, ih]

theorem find?_put_of_ne {key other : κ} (h : other ≠ key) (value : α) (t : Table κ α) :
    find? other (put key value t) = find? other t := by
  induction t with
  | nil => simp [put, find?, Ne.symm h]
  | cons entry rest ih =>
    obtain ⟨k, v⟩ := entry
    by_cases hk : k = key
    · subst hk
      simp [put, find?, Ne.symm h]
    · simp [put, find?, hk, ih]

theorem mem_keys_put {key k : κ} {value : α} {t : Table κ α} :
    k ∈ (put key value t).map Prod.fst ↔ k = key ∨ k ∈ t.map Prod.fst := by
  induction t with
  | nil => simp [put]
  | cons entry rest ih =>
    obtain ⟨here, v⟩ := entry
    by_cases h : here = key
    · subst h
      simp [put]
    · rw [put, if_neg h, List.map_cons, List.mem_cons, ih, List.map_cons, List.mem_cons]
      exact or_left_comm

theorem nodup_keys_put {t : Table κ α} (h : (t.map Prod.fst).Nodup) (key : κ) (value : α) :
    ((put key value t).map Prod.fst).Nodup := by
  induction t with
  | nil => simp [put]
  | cons entry rest ih =>
    obtain ⟨here, v⟩ := entry
    rw [List.map_cons, List.nodup_cons] at h
    unfold put
    split
    · exact List.nodup_cons.2 h
    · rename_i other
      refine List.nodup_cons.2 ⟨fun member => ?_, ih h.2⟩
      rcases mem_keys_put.1 member with same | member
      · exact other same
      · exact h.1 member

theorem length_put (key : κ) (value : α) (t : Table κ α) :
    (put key value t).length = if key ∈ t.map Prod.fst then t.length else t.length + 1 := by
  induction t with
  | nil => simp [put]
  | cons entry rest ih =>
    obtain ⟨here, v⟩ := entry
    unfold put
    split
    · rename_i same
      simp [same]
    · rename_i other
      have different : key ≠ here := Ne.symm other
      simp only [List.length_cons, ih, List.map_cons, List.mem_cons, different, false_or]
      split <;> rfl

end Table

end StepReplay
