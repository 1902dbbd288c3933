/-!
Lists of keys with values, read by their first entry for a key.
-/

namespace StumpCompiler.Association

variable {κ α : Type} [BEq κ]

/-- `value` under `key`, in the place of the entry that was there or else at the end. -/
def put (key : κ) (value : α) : List (κ × α) → List (κ × α)
  | [] => [(key, value)]
  | (k, old) :: rest => if k == key then (k, value) :: rest else (k, old) :: put key value rest

variable [LawfulBEq κ]

theorem lookup_put (key k : κ) (value : α) (entries : List (κ × α)) :
    (put key value entries).lookup k = if k == key then some value else entries.lookup k := by
  induction entries with
  | nil => cases h : k == key <;> simp [put, List.lookup_cons, h]
  | cons e rest ih =>
    obtain ⟨l, old⟩ := e
    cases hl : l == key with
    | true =>
      obtain rfl := eq_of_beq hl
      cases h : k == l <;> simp [put, List.lookup_cons, h]
    | false =>
      cases h : k == l with
      | true =>
        obtain rfl := eq_of_beq h
        simp [put, hl]
      | false => simp [put, List.lookup_cons, hl, h, ih]

theorem put_eq_self {key : κ} {value : α} {entries : List (κ × α)}
    (present : entries.lookup key = some value) : put key value entries = entries := by
  induction entries with
  | nil => simp at present
  | cons e rest ih =>
    obtain ⟨l, old⟩ := e
    cases hl : l == key with
    | true =>
      obtain rfl := eq_of_beq hl
      simp at present
      simp [put, present]
    | false =>
      have hk : (key == l) = false := by
        cases h : key == l with
        | false => rfl
        | true => rw [eq_of_beq h, beq_self_eq_true] at hl; exact hl
      simp [List.lookup_cons, hk] at present
      simp [put, hl, ih present]

theorem lookup_eq_none {key : κ} {entries : List (κ × α)} (absent : key ∉ entries.map Prod.fst) :
    entries.lookup key = none := by
  rw [List.lookup_eq_none_iff]
  intro e mem
  rw [bne_iff_ne]
  rintro rfl
  exact absent (List.mem_map.mpr ⟨e, mem, rfl⟩)

theorem lookup_eq_some_iff {key : κ} {value : α} {entries : List (κ × α)}
    (distinct : (entries.map Prod.fst).Nodup) :
    entries.lookup key = some value ↔ (key, value) ∈ entries := by
  induction entries with
  | nil => simp
  | cons e entries ih =>
    obtain ⟨k, other⟩ := e
    rw [List.map_cons, List.nodup_cons] at distinct
    rw [List.mem_cons, List.lookup_cons, ← ih distinct.2]
    cases h : key == k with
    | true =>
      obtain rfl := eq_of_beq h
      simp [lookup_eq_none distinct.1, eq_comm]
    | false => simp [ne_of_beq_false h]

end StumpCompiler.Association
