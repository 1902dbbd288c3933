import Mathlib
import StumpCompiler.Model

/-! The spellings of features: a column has two for each feature, and it tells which one is meant. -/

namespace StumpCompiler

theorem Feature.ofColumn?_eq_some_iff {column : String} {f : Feature} :
    ofColumn? column = some f ↔ column = f.columnName ∨ column = f.variableName := by
  constructor
  · intro h
    have spelled := List.find?_some h
    simp only [Bool.or_eq_true, beq_iff_eq] at spelled
    exact spelled.imp Eq.symm Eq.symm
  · rintro (rfl | rfl) <;> cases f <;> decide

namespace FeatureRef

/-- The reference is the one that its column resolves to. -/
def IsResolved (r : FeatureRef) : Prop :=
  resolve? r.column = some r

instance (r : FeatureRef) : Decidable r.IsResolved :=
  inferInstanceAs (Decidable (_ = _))

theorem resolve?_eq_some_iff {column : String} {r : FeatureRef} :
    resolve? column = some r ↔
      r.column = column ∧ (column = r.feature.columnName ∨ column = r.feature.variableName) := by
  rw [← Feature.ofColumn?_eq_some_iff, resolve?, Option.map_eq_some_iff]
  constructor
  · rintro ⟨f, found, rfl⟩
    exact ⟨rfl, found⟩
  · rintro ⟨rfl, found⟩
    exact ⟨r.feature, found, rfl⟩

theorem isResolved_iff {r : FeatureRef} :
    r.IsResolved ↔ r.column = r.feature.columnName ∨ r.column = r.feature.variableName := by
  simp [IsResolved, resolve?_eq_some_iff]

theorem IsResolved.eq_of_column_eq {r s : FeatureRef} (hr : r.IsResolved) (hs : s.IsResolved)
    (same : r.column = s.column) : r = s := by
  rw [IsResolved, same] at hr
  exact Option.some.inj (hr.symm.trans hs)

/-- A reference that is not spelled by the column name is spelled by the variable name. -/
theorem IsResolved.column_eq_variableName {r : FeatureRef} (h : r.IsResolved)
    (not_canonical : r.isCanonical = false) : r.column = r.feature.variableName := by
  rcases isResolved_iff.mp h with canonical | spelled
  · simp [isCanonical, canonical] at not_canonical
  · exact spelled

/-- Spellings are made of letters. -/
theorem IsResolved.isAlpha_of_mem_column {r : FeatureRef} (h : r.IsResolved) :
    ∀ c ∈ r.column.toList, c.isAlpha := by
  rw [← List.all_eq_true]
  obtain ⟨f, column⟩ := r
  cases f <;> rcases isResolved_iff.mp h with spelled | spelled <;>
    (simp only at spelled; subst spelled; rfl)

end FeatureRef

namespace Model

/-- Every hypothesis names its feature by one of its spellings. -/
def IsResolved (m : Model) : Prop :=
  ∀ h ∈ m.hypotheses, h.feature.IsResolved

instance (m : Model) : Decidable m.IsResolved :=
  inferInstanceAs (Decidable (∀ h ∈ m.hypotheses, _))

/-! What `spellings` keeps of a list of references. -/

variable {seen : List String} {rs : List FeatureRef} {r : FeatureRef}

theorem mem_of_mem_spellings (h : r ∈ spellings seen rs) :
    r ∈ rs ∧ r.isCanonical = false ∧ r.column ∉ seen := by
  induction rs generalizing seen with
  | nil => simp [spellings] at h
  | cons s rs ih =>
    rw [spellings] at h
    split at h
    · obtain ⟨mem, rest⟩ := ih h
      exact ⟨by simp [mem], rest⟩
    · next kept =>
      simp only [Bool.or_eq_true, List.contains_eq_mem, decide_eq_true_eq, not_or,
        Bool.not_eq_true] at kept
      rcases List.mem_cons.mp h with rfl | later
      · exact ⟨by simp, kept⟩
      · obtain ⟨mem, not_canonical, new⟩ := ih later
        exact ⟨by simp [mem], not_canonical, fun old => new (by simp [old])⟩

theorem exists_mem_spellings (mem : r ∈ rs) (not_canonical : r.isCanonical = false)
    (new : r.column ∉ seen) : ∃ s ∈ spellings seen rs, s.column = r.column := by
  induction rs generalizing seen with
  | nil => simp at mem
  | cons s rs ih =>
    rw [spellings]
    split
    · next dropped =>
      refine ih ?_ new
      rcases List.mem_cons.mp mem with rfl | later
      · simp [not_canonical, new] at dropped
      · exact later
    · by_cases same : r.column = s.column
      · exact ⟨s, by simp, same.symm⟩
      · have later : r ∈ rs := by
          rcases List.mem_cons.mp mem with rfl | later
          · exact absurd rfl same
          · exact later
        have new : r.column ∉ s.column :: seen := by simp [same, new]
        obtain ⟨t, ht, eq⟩ := ih later new
        exact ⟨t, by simp [ht], eq⟩

/-- No spelling is kept twice. -/
theorem nodup_spellings : ((spellings seen rs).map FeatureRef.column).Nodup := by
  induction rs generalizing seen with
  | nil => simp [spellings]
  | cons s rs ih =>
    rw [spellings]
    split
    · exact ih
    · rw [List.map_cons, List.nodup_cons]
      refine ⟨fun h => ?_, ih⟩
      obtain ⟨t, ht, eq⟩ := List.mem_map.mp h
      exact (mem_of_mem_spellings ht).2.2 (by simp [eq])

theorem isResolved_of_mem_aliases {m : Model} (resolved : m.IsResolved) (h : r ∈ m.aliases) :
    r.IsResolved := by
  obtain ⟨g, hg, rfl⟩ := List.mem_map.mp (mem_of_mem_spellings h).1
  exact resolved g hg

end Model

end StumpCompiler
