import Mathlib.Data.List.Induction
import StepReplay.Table

set_option autoImplicit false

/-! # Tables that are filled

What a table holds after some entries were put in one after another: for each key the value that
came last. Where no key repeats, the order of a table says nothing about what is found in it. -/

namespace StepReplay

namespace Table

variable {κ α : Type} [DecidableEq κ]

theorem put_of_not_mem {t : Table κ α} {key : κ} (h : key ∉ t.map Prod.fst) (value : α) :
    put key value t = t ++ [(key, value)] := by
  induction t with
  | nil => rfl
  | cons entry rest ih =>
    rw [List.map_cons, List.mem_cons, not_or] at h
    rw [put, if_neg (Ne.symm h.1), ih h.2]
    rfl

theorem put_put_self (key : κ) (value before : α) (t : Table κ α) :
    put key value (put key before t) = put key value t := by
  induction t with
  | nil => simp only [put, ↓reduceIte]
  | cons entry rest ih =>
    obtain ⟨k, v⟩ := entry
    by_cases same : k = key <;> simp only [put, same, ↓reduceIte, ih]

/-- A key that is there keeps its place, so it may be written before another one or after it. -/
theorem put_comm_of_mem {t : Table κ α} {key other : κ} (different : other ≠ key)
    (present : key ∈ t.map Prod.fst) (value value' : α) :
    put other value' (put key value t) = put key value (put other value' t) := by
  induction t with
  | nil => cases present
  | cons entry rest ih =>
    obtain ⟨k, v⟩ := entry
    by_cases same : k = key
    · subst same
      simp only [put, ↓reduceIte, Ne.symm different]
    · have later : key ∈ rest.map Prod.fst := by
        rw [List.map_cons, List.mem_cons] at present
        exact present.resolve_left (Ne.symm same)
      by_cases same' : k = other <;> simp only [put, same, same', different, ↓reduceIte, ih later]

theorem put_map {β : Type} (f : α → β) (key : κ) (value : α) (t : Table κ α) :
    put key (f value) (t.map fun entry => (entry.1, f entry.2)) =
      (put key value t).map fun entry => (entry.1, f entry.2) := by
  induction t with
  | nil => rfl
  | cons entry rest ih =>
    rw [List.map_cons, put, put, ih]
    split <;> rfl

theorem find?_eq_none_iff {t : Table κ α} {key : κ} :
    find? key t = none ↔ key ∉ t.map Prod.fst := by
  induction t with
  | nil => simp [find?]
  | cons entry rest ih =>
    rw [find?, List.map_cons, List.mem_cons, not_or]
    split
    · rename_i same
      simp [same]
    · rename_i other
      rw [ih]
      exact ⟨fun absent => ⟨Ne.symm other, absent⟩, And.right⟩

theorem mem_of_find? {t : Table κ α} {key : κ} {value : α} (h : find? key t = some value) :
    (key, value) ∈ t := by
  induction t with
  | nil => cases h
  | cons entry rest ih =>
    rw [find?] at h
    split at h
    · rename_i same
      cases h
      rw [← same]
      exact List.mem_cons_self ..
    · exact List.mem_cons_of_mem _ (ih h)

/-- Where no key repeats, what is found is what is there. -/
theorem find?_eq_some_iff {t : Table κ α} (distinct : (t.map Prod.fst).Nodup) {key : κ}
    {value : α} :
    find? key t = some value ↔ (key, value) ∈ t := by
  induction t with
  | nil => simp [find?]
  | cons entry rest ih =>
    obtain ⟨k, v⟩ := entry
    rw [List.map_cons, List.nodup_cons] at distinct
    rw [find?, List.mem_cons]
    split
    · rename_i same
      subst same
      constructor
      · rintro ⟨⟩
        exact .inl rfl
      · rintro (first | later)
        · cases first
          rfl
        · exact absurd (List.mem_map_of_mem later) distinct.1
    · rename_i other
      rw [ih distinct.2]
      constructor
      · exact .inr
      · rintro (first | later)
        · cases first
          exact absurd rfl other
        · exact later

/-- The order of entries does not matter where no key repeats. -/
theorem find?_of_perm {s t : Table κ α} (perm : s.Perm t) (distinct : (t.map Prod.fst).Nodup)
    (key : κ) : find? key s = find? key t := by
  refine Option.ext fun value => ?_
  rw [find?_eq_some_iff distinct, find?_eq_some_iff ((perm.map Prod.fst).nodup_iff.2 distinct),
    perm.mem_iff]

theorem find?_map {β : Type} (f : α → β) (key : κ) (t : Table κ α) :
    find? key (t.map fun entry => (entry.1, f entry.2)) = (find? key t).map f := by
  induction t with
  | nil => rfl
  | cons entry rest ih =>
    rw [List.map_cons, find?, find?, ih]
    split <;> rfl

/-- The table after some entries were put in, one after another. -/
def putAll (entries : List (κ × α)) (t : Table κ α) : Table κ α :=
  entries.foldl (fun t entry => put entry.1 entry.2 t) t

theorem putAll_cons (entry : κ × α) (entries : List (κ × α)) (t : Table κ α) :
    putAll (entry :: entries) t = putAll entries (put entry.1 entry.2 t) := rfl

/-- What was put in last for a key counts. -/
theorem find?_putAll {entries : List (κ × α)} {t : Table κ α} {key : κ} {value : α} :
    find? key (putAll entries t) = some value ↔
      (∃ before after, entries = before ++ (key, value) :: after ∧ key ∉ after.map Prod.fst) ∨
        key ∉ entries.map Prod.fst ∧ find? key t = some value := by
  induction entries generalizing t with
  | nil => simp [putAll]
  | cons entry rest ih =>
    obtain ⟨k, v⟩ := entry
    rw [putAll_cons, ih]
    constructor
    · rintro (⟨before, after, rfl, last⟩ | ⟨absent, found⟩)
      · exact .inl ⟨(k, v) :: before, after, rfl, last⟩
      · by_cases same : key = k
        · subst same
          rw [find?_put_self] at found
          cases found
          exact .inl ⟨[], rest, rfl, absent⟩
        · rw [find?_put_of_ne same] at found
          exact .inr ⟨by simp [same, absent], found⟩
    · rintro (⟨before, after, split, last⟩ | ⟨absent, found⟩)
      · cases before with
        | nil =>
          cases split
          exact .inr ⟨last, find?_put_self ..⟩
        | cons first before =>
          cases split
          exact .inl ⟨before, after, rfl, last⟩
      · rw [List.map_cons, List.mem_cons, not_or] at absent
        exact .inr ⟨absent.2, by rw [find?_put_of_ne absent.1, found]⟩

theorem putAll_concat (entries : List (κ × α)) (entry : κ × α) (t : Table κ α) :
    putAll (entries ++ [entry]) t = put entry.1 entry.2 (putAll entries t) := by
  rw [putAll, List.foldl_append]
  rfl

theorem mem_keys_putAll {entries : List (κ × α)} {t : Table κ α} {key : κ} :
    key ∈ (putAll entries t).map Prod.fst ↔ key ∈ entries.map Prod.fst ∨ key ∈ t.map Prod.fst := by
  induction entries using List.reverseRecOn with
  | nil => simp [putAll]
  | append_singleton entries entry ih =>
    rw [putAll_concat, mem_keys_put, ih, List.map_append, List.mem_append, List.map_singleton,
      List.mem_singleton, ← or_assoc, or_comm (a := key = entry.1)]

/-- A value that is overwritten in the end need not have been written in the beginning. -/
theorem put_putAll_put {entries : List (κ × α)} {t : Table κ α}
    (present : ∀ key ∈ entries.map Prod.fst, key ∈ t.map Prod.fst) (key : κ) (value before : α) :
    put key value (putAll entries (put key before t)) = put key value (putAll entries t) := by
  induction entries generalizing t with
  | nil => exact put_put_self ..
  | cons entry rest ih =>
    rw [List.map_cons, List.forall_mem_cons] at present
    rw [putAll_cons, putAll_cons]
    by_cases same : key = entry.1
    · rw [same, put_put_self]
    · rw [← put_comm_of_mem same present.1]
      exact ih fun k member => mem_keys_put.2 (.inr (present.2 k member))

/-- Entries that have been put in change nothing when they are put in again. -/
theorem putAll_putAll (entries : List (κ × α)) (t : Table κ α) :
    putAll entries (putAll entries t) = putAll entries t := by
  induction entries using List.reverseRecOn with
  | nil => rfl
  | append_singleton entries entry ih =>
    have present : ∀ key ∈ entries.map Prod.fst, key ∈ (putAll entries t).map Prod.fst :=
      fun _ member => mem_keys_putAll.2 (.inl member)
    rw [putAll_concat, putAll_concat, put_putAll_put present, ih]

theorem nodup_keys_putAll (entries : List (κ × α)) :
    ((putAll entries []).map Prod.fst).Nodup := by
  induction entries using List.reverseRecOn with
  | nil => exact List.nodup_nil
  | append_singleton entries entry ih =>
    rw [putAll_concat]
    exact nodup_keys_put ih entry.1 entry.2

theorem length_putAll (entries : List (κ × α)) :
    (putAll entries []).length ≤ entries.length ∧
      ((putAll entries []).length = entries.length ↔ (entries.map Prod.fst).Nodup) := by
  induction entries using List.reverseRecOn with
  | nil => exact ⟨Nat.le_refl 0, by simp [putAll]⟩
  | append_singleton entries entry ih =>
    obtain ⟨few, own⟩ := ih
    rw [putAll_concat, length_put, List.length_append, List.length_singleton, List.map_append,
      List.map_singleton]
    have grown : (entries.map Prod.fst ++ [entry.1]).Nodup ↔
        (entries.map Prod.fst).Nodup ∧ entry.1 ∉ entries.map Prod.fst := by
      rw [List.nodup_append]
      constructor
      · exact fun h => ⟨h.1, fun member => h.2.2 _ member _ (List.mem_singleton_self _) rfl⟩
      · rintro ⟨distinct, absent⟩
        refine ⟨distinct, by simp, ?_⟩
        rintro k member _ last rfl
        exact absent (List.mem_singleton.1 last ▸ member)
    rw [grown, ← own]
    by_cases repeated : entry.1 ∈ entries.map Prod.fst
    · rw [if_pos (mem_keys_putAll.2 (.inl repeated))]
      exact ⟨by omega, fun _ => by omega, fun h => absurd repeated h.2⟩
    · have absent : entry.1 ∉ (putAll entries []).map Prod.fst := fun present =>
        (mem_keys_putAll.1 present).elim repeated (List.not_mem_nil ·)
      rw [if_neg absent]
      exact ⟨by omega, fun _ => ⟨by omega, repeated⟩, fun _ => by omega⟩

end Table

end StepReplay
