import Mathlib

/-!
# Field splitting

A shell splits the result of an expansion at its blanks into fields, none of which is empty.  Runs of
blanks and blanks at the ends count as one separator, so that the fields of texts that are joined by a
blank are the fields of each (`fields_intercalate`).
-/

namespace Shell

variable {α : Type} {blank : α → Bool}

/-- The fields of a text. -/
def fields (blank : α → Bool) (s : List α) : List (List α) :=
  (s.splitOnP blank).filter fun field => !field.isEmpty

@[simp] theorem fields_nil : fields blank [] = [] := rfl

theorem fields_append_cons {c : α} (hc : blank c = true) (s t : List α) :
    fields blank (s ++ c :: t) = fields blank s ++ fields blank t := by
  rw [fields, List.splitOnP_append_cons s t hc, List.filter_append]
  rfl

theorem fields_cons_of_blank {c : α} (hc : blank c = true) (s : List α) :
    fields blank (c :: s) = fields blank s := fields_append_cons hc [] s

/-- A text that starts with another character starts with a field. -/
theorem fields_cons_ne_nil {c : α} (hc : blank c = false) (s : List α) :
    fields blank (c :: s) ≠ [] := by
  obtain ⟨head, tail, hsplit⟩ := List.exists_cons_of_ne_nil (List.splitOnP_ne_nil blank s)
  rw [fields, List.splitOnP_cons_eq_if_modifyHead, hc, hsplit]
  simp

/-- Only blanks have no field. -/
theorem fields_eq_nil_iff {s : List α} : fields blank s = [] ↔ ∀ c ∈ s, blank c = true := by
  induction s with
  | nil => simp
  | cons c s ih =>
    cases hc : blank c with
    | true => rw [fields_cons_of_blank hc, ih, List.forall_mem_cons, and_iff_right hc]
    | false =>
      refine iff_of_false (fields_cons_ne_nil hc s) fun h => ?_
      rw [h c List.mem_cons_self] at hc
      cases hc

/-- Blanks at the end do not matter. -/
theorem fields_append_of_blank (s : List α) {t : List α} (ht : ∀ c ∈ t, blank c = true) :
    fields blank (s ++ t) = fields blank s := by
  cases t with
  | nil => rw [List.append_nil]
  | cons c t =>
    obtain ⟨hc, ht⟩ := List.forall_mem_cons.mp ht
    rw [fields_append_cons hc, fields_eq_nil_iff.mpr ht, List.append_nil]

/-- **Texts joined by a blank** have the fields of each. -/
theorem fields_intercalate {c : α} (hc : blank c = true) (texts : List (List α)) :
    fields blank ([c].intercalate texts) = texts.flatMap (fields blank) := by
  induction texts with
  | nil => rfl
  | cons s texts ih =>
    cases texts with
    | nil => simp
    | cons t texts =>
      rw [List.intercalate_cons_cons, List.append_assoc, List.singleton_append,
        fields_append_cons hc, ih]
      rfl

/-- Splitting only cuts: the first part comes first, and the others are parts too. -/
theorem splitOnP_infix (p : α → Bool) (s : List α) :
    ∃ head tail, s.splitOnP p = head :: tail ∧ head <+: s ∧ ∀ part ∈ tail, part <:+: s := by
  induction s with
  | nil => exact ⟨[], [], rfl, List.prefix_refl _, by simp⟩
  | cons c s ih =>
    obtain ⟨head, tail, hsplit, hhead, htail⟩ := ih
    have hinfix : ∀ part, part <:+: s → part <:+: c :: s := fun part h =>
      h.trans (List.suffix_cons c s).isInfix
    rw [List.splitOnP_cons_eq_if_modifyHead, hsplit]
    split_ifs with hc
    · refine ⟨[], head :: tail, rfl, List.nil_prefix, fun part hpart => hinfix part ?_⟩
      rcases List.mem_cons.mp hpart with rfl | hpart
      · exact hhead.isInfix
      · exact htail part hpart
    · exact ⟨c :: head, tail, rfl, (List.prefix_cons_inj c).mpr hhead,
        fun part hpart => hinfix part (htail part hpart)⟩

/-- A field is a part of the text, and not empty. -/
theorem mem_fields {s field : List α} (h : field ∈ fields blank s) : field ≠ [] ∧ field <:+: s := by
  obtain ⟨hmem, hne⟩ := List.mem_filter.mp h
  obtain ⟨head, tail, hsplit, hhead, htail⟩ := splitOnP_infix blank s
  rw [hsplit] at hmem
  refine ⟨by simpa using hne, ?_⟩
  rcases List.mem_cons.mp hmem with rfl | hmem
  · exact hhead.isInfix
  · exact htail field hmem

/-- A text without blanks is one field. -/
theorem fields_of_not_blank {s : List α} (hs : ∀ c ∈ s, blank c = false) (hne : s ≠ []) :
    fields blank s = [s] := by
  rw [fields, List.splitOnP_eq_singleton hs, List.filter_singleton, List.isEmpty_eq_false_iff.mpr hne]
  rfl

/-- No blank is in a field. -/
theorem not_blank_of_mem_fields {s field : List α} (h : field ∈ fields blank s) {c : α}
    (hc : c ∈ field) : blank c = false := by
  have hmem := (List.mem_filter.mp h).1
  clear h
  induction s generalizing field with
  | nil =>
    rw [List.splitOnP_nil, List.mem_singleton] at hmem
    rw [hmem] at hc
    cases hc
  | cons b s ih =>
    rw [List.splitOnP_cons_eq_if_modifyHead] at hmem
    split_ifs at hmem with hb
    · rcases List.mem_cons.mp hmem with rfl | hmem
      · cases hc
      · exact ih hc hmem
    · obtain ⟨head, tail, hsplit⟩ := List.exists_cons_of_ne_nil (List.splitOnP_ne_nil blank s)
      rw [hsplit] at hmem ih
      rcases List.mem_cons.mp hmem with rfl | hmem
      · rcases List.mem_cons.mp hc with rfl | hc
        · exact Bool.not_eq_true _ ▸ hb
        · exact ih hc List.mem_cons_self
      · exact ih hc (List.mem_cons_of_mem _ hmem)

end Shell
