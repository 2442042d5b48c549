import Mathlib

/-!
# Lines, assignments and sorted output

What filters and loops of a shell script do with text: `lines` is what `read` sees of it, with or
without a newline at the end, and `cut` is `${line%%=*}` and `${line#*=}`.  Lines that are written are
the lines that are read (`lines_unlines`), and where none of them is empty, this is so behind a command
substitution too (`lines_chomp_unlines`).

`assignAll_apply`: in a list of assignments, each of which is made only to a variable that has no value
yet, the first one to a variable counts.  `mergeSort_eq_iff`: the order of what is sorted is lost, and
nothing else.
-/

namespace Shell

variable {α : Type} [DecidableEq α]

/-! ### Lines -/

/-- The lines of a text. -/
def lines (newline : α) : List α → List (List α)
  | [] => []
  | c :: text =>
    if c = newline then [] :: lines newline text
    else
      match lines newline text with
      | [] => [[c]]
      | line :: rest => (c :: line) :: rest

/-- The text of the lines. -/
def unlines (newline : α) (ls : List (List α)) : List α := ls.flatMap fun line => line ++ [newline]

variable {newline : α}

/-- A line ends at the first newline. -/
theorem lines_append_cons {line : List α} (h : newline ∉ line) (text : List α) :
    lines newline (line ++ newline :: text) = line :: lines newline text := by
  induction line with
  | nil => rw [List.nil_append, lines, if_pos rfl]
  | cons c line ih =>
    obtain ⟨hc, hline⟩ := List.ne_and_not_mem_of_not_mem_cons h
    rw [List.cons_append, lines, if_neg (Ne.symm hc), ih hline]

/-- The last line need not end. -/
theorem lines_of_not_mem {line : List α} (h : newline ∉ line) (hne : line ≠ []) :
    lines newline line = [line] := by
  induction line with
  | nil => exact absurd rfl hne
  | cons c line ih =>
    obtain ⟨hc, hline⟩ := List.ne_and_not_mem_of_not_mem_cons h
    rw [lines, if_neg (Ne.symm hc)]
    by_cases hnil : line = []
    · rw [hnil, lines]
    · rw [ih hline hnil]

theorem lines_unlines_append {ls : List (List α)} (h : ∀ line ∈ ls, newline ∉ line) (text : List α) :
    lines newline (unlines newline ls ++ text) = ls ++ lines newline text := by
  induction ls with
  | nil => rfl
  | cons line ls ih =>
    obtain ⟨hline, hls⟩ := List.forall_mem_cons.mp h
    rw [unlines, List.flatMap_cons, List.append_assoc, List.append_assoc, List.singleton_append,
      lines_append_cons hline]
    exact congrArg (line :: ·) (ih hls)

/-- **Lines that are written are read.** -/
theorem lines_unlines {ls : List (List α)} (h : ∀ line ∈ ls, newline ∉ line) :
    lines newline (unlines newline ls) = ls := by
  have hread := lines_unlines_append h []
  rwa [List.append_nil, lines, List.append_nil] at hread

/-- What is in a line is in the text. -/
theorem mem_of_mem_lines {text line : List α} (h : line ∈ lines newline text) {c : α} (hc : c ∈ line) :
    c ∈ text := by
  induction text generalizing line with
  | nil => cases h
  | cons b text ih =>
    rw [lines] at h
    split_ifs at h with hb
    · rcases List.mem_cons.mp h with rfl | h
      · cases hc
      · exact List.mem_cons_of_mem _ (ih h hc)
    · cases hlines : lines newline text with
      | nil =>
        rw [hlines] at h
        rw [List.mem_singleton.mp h] at hc
        rw [List.mem_singleton.mp hc]
        exact List.mem_cons_self
      | cons first rest =>
        rw [hlines] at h ih
        rcases List.mem_cons.mp h with rfl | h
        · rcases List.mem_cons.mp hc with rfl | hc
          · exact List.mem_cons_self
          · exact List.mem_cons_of_mem _ (ih List.mem_cons_self hc)
        · exact List.mem_cons_of_mem _ (ih (List.mem_cons_of_mem _ h) hc)

/-! ### The newlines at the end -/

/-- The text without the newlines at its end. -/
def chomp (newline : α) (text : List α) : List α := (text.reverse.dropWhile (· = newline)).reverse

theorem chomp_append_singleton {text : List α} {c : α} (hc : c ≠ newline) :
    chomp newline (text ++ [c, newline]) = text ++ [c] := by
  have hdrop : (text ++ [c, newline]).reverse.dropWhile (· = newline) = (text ++ [c]).reverse := by
    simp [hc]
  rw [chomp, hdrop, List.reverse_reverse]

/-- Lines of which none is empty survive. -/
theorem lines_chomp_unlines {ls : List (List α)} (h : ∀ line ∈ ls, newline ∉ line)
    (hne : ∀ line ∈ ls, line ≠ []) : lines newline (chomp newline (unlines newline ls)) = ls := by
  rcases List.eq_nil_or_concat ls with rfl | ⟨init, line, rfl⟩
  · rfl
  rw [List.concat_eq_append] at h hne ⊢
  have hlast : line ∈ init ++ [line] := List.mem_append_right _ List.mem_cons_self
  have hline := h line hlast
  have hline' := hne line hlast
  rcases List.eq_nil_or_concat line with hnil | ⟨front, c, rfl⟩
  · exact absurd hnil hline'
  rw [List.concat_eq_append] at hline hline' ⊢
  have hc : c ≠ newline := fun hc => hline (by simp [hc])
  have htext : unlines newline (init ++ [front ++ [c]])
      = (unlines newline init ++ front) ++ [c, newline] := by simp [unlines]
  rw [htext, chomp_append_singleton hc, List.append_assoc,
    lines_unlines_append fun line hl => h line (List.mem_append_left _ hl),
    lines_of_not_mem hline hline']

/-! ### Assignments -/

/-- What stands before the first separator, and what stands behind it. -/
def cut (separator : α) : List α → Option (List α × List α)
  | [] => none
  | c :: line =>
    if c = separator then some ([], line)
    else (cut separator line).map fun (key, value) => (c :: key, value)

theorem cut_append_cons {separator : α} {key : List α} (h : separator ∉ key) (value : List α) :
    cut separator (key ++ separator :: value) = some (key, value) := by
  induction key with
  | nil => rw [List.nil_append, cut, if_pos rfl]
  | cons c key ih =>
    obtain ⟨hc, hkey⟩ := List.ne_and_not_mem_of_not_mem_cons h
    rw [List.cons_append, cut, if_neg (Ne.symm hc), ih hkey, Option.map_some]

section

variable {κ ν : Type} [DecidableEq κ] (allowed : κ → Prop) [DecidablePred allowed]

/-- The variable gets the value, if it may and has none yet. -/
def assign (env : κ → Option ν) (a : κ × ν) : κ → Option ν :=
  if allowed a.1 ∧ env a.1 = none then Function.update env a.1 (some a.2) else env

/-- **The first assignment counts**, and none to a variable with a value. -/
theorem assignAll_apply [BEq κ] [LawfulBEq κ] (as : List (κ × ν)) (env : κ → Option ν) (key : κ) :
    as.foldl (assign allowed) env key
      = if allowed key ∧ env key = none then as.lookup key else env key := by
  induction as generalizing env with
  | nil =>
    rw [List.foldl_nil, List.lookup_nil]
    split_ifs with h
    · exact h.2
    · rfl
  | cons a as ih =>
    obtain ⟨k, v⟩ := a
    rw [List.foldl_cons, ih, assign]
    by_cases hk : key = k
    · subst hk
      by_cases hset : allowed key ∧ env key = none
      · -- the assignment is made, and no later one
        rw [if_pos hset, if_pos hset, Function.update_self, if_neg (by simp), List.lookup_cons_self]
      · rw [if_neg hset, if_neg hset, if_neg hset]
    · have hother : (if allowed (k, v).1 ∧ env (k, v).1 = none
          then Function.update env (k, v).1 (some (k, v).2) else env) key = env key := by
        split_ifs
        · exact Function.update_of_ne hk _ _
        · rfl
      rw [hother, List.lookup_cons, beq_false_of_ne hk]

end

/-! ### Sorting -/

/-- An order that `sort` may use. -/
structure IsSortOrder {β : Type} (le : β → β → Bool) : Prop where
  trans : ∀ a b c, le a b = true → le b c = true → le a c = true
  total : ∀ a b, (le a b || le b a) = true
  antisymm : ∀ a b, le a b = true → le b a = true → a = b

/-- **Sorting forgets the order**, and nothing else. -/
theorem mergeSort_eq_iff {β : Type} {le : β → β → Bool} (hle : IsSortOrder le) {l l' : List β} :
    l.mergeSort le = l'.mergeSort le ↔ l.Perm l' := by
  constructor
  · intro h
    exact (List.mergeSort_perm l le).symm.trans (h ▸ List.mergeSort_perm l' le)
  · intro h
    have hperm := (List.mergeSort_perm l le).trans (h.trans (List.mergeSort_perm l' le).symm)
    exact hperm.eq_of_pairwise (fun a b _ _ => hle.antisymm a b)
      (List.pairwise_mergeSort hle.trans hle.total l)
      (List.pairwise_mergeSort hle.trans hle.total l')

end Shell
