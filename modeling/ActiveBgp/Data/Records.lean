import Mathlib.Data.List.Basic

namespace ActiveBgp.Data

variable {α : Type} {sep : α} {records : List (List α)}

def terminated (sep : α) (records : List (List α)) : List α := records.flatMap fun record => record ++ [sep]

@[simp] theorem terminated_nil : terminated sep [] = [] := rfl

theorem terminated_cons (record : List α) (rest : List (List α)) :
    terminated sep (record :: rest) = record ++ sep :: terminated sep rest := by
  simp [terminated]

/-- What comes before the first separator is put in front of the first part. -/
theorem splitOn_append_of_not_mem [DecidableEq α] {front rest back : List α} {later : List (List α)} (free : sep ∉ front)
    (parts : rest.splitOn sep = back :: later) : (front ++ rest).splitOn sep = (front ++ back) :: later := by
  induction front with
  | nil => exact parts
  | cons value more ih =>
      obtain ⟨other, others⟩ := List.ne_and_not_mem_of_not_mem_cons free
      rw [List.cons_append, List.splitOn_cons_eq_if_modifyHead, if_neg (by simpa using other.symm), ih others]
      rfl

theorem not_mem_of_mem_splitOn [DecidableEq α] {values part : List α} (member : part ∈ values.splitOn sep) : sep ∉ part := by
  induction values generalizing part with
  | nil =>
      rw [List.splitOn_nil, List.mem_singleton] at member
      exact member ▸ List.not_mem_nil
  | cons value rest ih =>
      obtain ⟨back, later, parts⟩ := List.exists_cons_of_ne_nil (List.splitOn_ne_nil sep rest)
      rw [List.splitOn_cons_eq_if_modifyHead, parts] at member
      rw [parts] at ih
      split at member
      · rcases List.mem_cons.mp member with rfl | old
        · exact List.not_mem_nil
        · exact ih old
      · rename_i other
        rcases List.mem_cons.mp member with rfl | old
        · exact List.not_mem_cons_of_ne_of_not_mem (fun same => other (by simp [same])) (ih List.mem_cons_self)
        · exact ih (List.mem_cons_of_mem back old)

theorem splitOn_terminated [DecidableEq α] (free : ∀ record ∈ records, sep ∉ record) (more : List α) :
    (terminated sep records ++ more).splitOn sep = records ++ more.splitOn sep := by
  induction records with
  | nil => rfl
  | cons record rest ih =>
      obtain ⟨first, later⟩ := List.forall_mem_cons.mp free
      rw [terminated_cons, List.append_assoc, List.cons_append, List.splitOn_append_cons_self_of_not_mem first, ih later,
        List.cons_append]

theorem cut_within {opened later record rest : List α} (free : sep ∉ opened) (cut : opened ++ later = record ++ sep :: rest) :
    ∃ more, record = opened ++ more ∧ later = more ++ sep :: rest := by
  rw [List.append_eq_append_iff] at cut
  rcases cut with ⟨more, whole, beyond⟩ | ⟨more, whole, beyond⟩
  · exact ⟨more, whole, beyond⟩
  · cases more with
    | nil => exact ⟨[], by simpa using whole.symm, by simpa using beyond.symm⟩
    | cons value others =>
        obtain ⟨rfl, _⟩ := List.cons.inj beyond
        exact absurd (whole ▸ List.mem_append_right _ List.mem_cons_self) free

theorem terminated_cut (free : ∀ record ∈ records, sep ∉ record) {data later : List α}
    (cut : data ++ later = terminated sep records) :
    ∃ whole rest opened, records = whole ++ rest ∧ data = terminated sep whole ++ opened ∧ sep ∉ opened ∧
      opened ++ later = terminated sep rest := by
  induction records generalizing data with
  | nil =>
      obtain ⟨rfl, rfl⟩ := List.append_eq_nil_iff.mp cut
      exact ⟨[], [], [], rfl, rfl, List.not_mem_nil, rfl⟩
  | cons record rest ih =>
      obtain ⟨first, others⟩ := List.forall_mem_cons.mp free
      have whole : terminated sep (record :: rest) = (record ++ [sep]) ++ terminated sep rest := by
        simp [terminated_cons]
      rw [whole, List.append_eq_append_iff] at cut
      rcases cut with ⟨missing, ended, rfl⟩ | ⟨beyond, rfl, split⟩
      · rcases List.eq_nil_or_concat missing with rfl | ⟨middle, last, rfl⟩
        · refine ⟨[record], rest, [], rfl, ?_, List.not_mem_nil, rfl⟩
          simpa [terminated] using ended.symm
        · have parts : data ++ middle = record ∧ last = sep := by
            rw [List.concat_eq_append, ← List.append_assoc] at ended
            simpa using (List.append_inj' ended rfl).imp Eq.symm fun same => (List.singleton_inj.mp same).symm
          obtain ⟨rfl, rfl⟩ := parts
          refine ⟨[], (data ++ middle) :: rest, data, rfl, rfl, ?_, ?_⟩
          · exact fun member => first (List.mem_append_left middle member)
          · simp [terminated_cons]
      · obtain ⟨front, back, opened, rfl, rfl, apart, same⟩ := ih others split.symm
        exact ⟨record :: front, back, opened, rfl, by simp [terminated_cons], apart, same⟩

end ActiveBgp.Data
