import DnsFixtures.Dns.Message

/-!
# Truncation at a size limit

A renderer with a size limit writes RRsets one after another and stops at the first one behind which
the message, its OPT record included, would be too long.  `written fits n` is how many of `n` items
such a writer keeps, and `truncate render m limit` is the message it leaves: the RRsets written, with
TC set exactly when it stopped before the additional section.

* `truncate_isPrefix`: the sections are prefixes of those of `m`;
* `length_truncate_le`: the limit is kept;
* `truncate_of_not_tc`: without TC, answer and authority are complete;
* `truncate_incomplete`: with TC, one of the two is not.
-/

namespace Dns

/-! ### The greedy writer -/

/-- How many of `n` items are written when the `k`-th is written only if `fits k` holds and all
before it were. -/
def written (fits : Nat → Prop) [DecidablePred fits] : Nat → Nat
  | 0 => 0
  | n + 1 => if written fits n = n ∧ fits (n + 1) then n + 1 else written fits n

section

variable (fits : Nat → Prop) [DecidablePred fits]

theorem written_le : ∀ n, written fits n ≤ n
  | 0 => Nat.le_refl 0
  | n + 1 => by
    rw [written]
    split_ifs
    · exact Nat.le_refl _
    · exact Nat.le_succ_of_le (written_le n)

/-- Every prefix written fits, the empty one apart. -/
theorem fits_of_le_written {n k : Nat} (hk : 0 < k) (h : k ≤ written fits n) : fits k := by
  induction n with
  | zero => exact absurd h (Nat.not_le.mpr hk)
  | succ n ih =>
    rw [written] at h
    split_ifs at h with hw
    · rcases Nat.lt_or_eq_of_le h with hlt | rfl
      · exact ih (by omega)
      · exact hw.2
    · exact ih h

theorem not_fits_written {n : Nat} (h : written fits n < n) : ¬ fits (written fits n + 1) := by
  induction n with
  | zero => exact absurd h (Nat.lt_irrefl 0)
  | succ n ih =>
    have hle := written_le fits n
    rw [written] at h ⊢
    split_ifs at h ⊢ with hw
    · omega
    · by_cases hn : written fits n = n
      · exact fun hf => hw ⟨hn, by rwa [hn] at hf⟩
      · exact ih (by omega)

theorem written_eq_of_forall {n : Nat} (h : ∀ k, 0 < k → k ≤ n → fits k) : written fits n = n := by
  by_contra hne
  have hlt := Nat.lt_of_le_of_ne (written_le fits n) hne
  exact not_fits_written fits hlt (h _ (Nat.succ_pos _) hlt)

end

/-! ### The truncated message -/

section

variable (render : Message → Octets)

/-- How many RRsets of `m` are written within `limit`. -/
def fitting (m : Message) (limit : Nat) : Nat :=
  written (fun k => (render (m.keep k)).length ≤ limit) m.rrsetCount

def truncate (m : Message) (limit : Nat) : Message :=
  let k := fitting render m limit
  if k < m.answer.length + m.authority.length then
    { m.keep k with flags := m.flags ||| Flag.TC }
  else m.keep k

theorem truncate_id (m : Message) (limit : Nat) : (truncate render m limit).id = m.id := by
  unfold truncate
  dsimp only
  split_ifs <;> rfl

theorem truncate_question (m : Message) (limit : Nat) :
    (truncate render m limit).question = m.question := by
  unfold truncate
  dsimp only
  split_ifs <;> rfl

theorem truncate_opt (m : Message) (limit : Nat) : (truncate render m limit).opt = m.opt := by
  unfold truncate
  dsimp only
  split_ifs <;> rfl

theorem truncate_flags (m : Message) (limit : Nat) :
    (truncate render m limit).flags = m.flags ∨
      (truncate render m limit).flags = m.flags ||| Flag.TC := by
  unfold truncate
  dsimp only
  split_ifs
  · exact Or.inr rfl
  · exact Or.inl rfl

/-- The sections of the truncated message are those of `m.keep k`. -/
theorem truncate_sections (m : Message) (limit : Nat) :
    (truncate render m limit).answer = (m.keep (fitting render m limit)).answer ∧
      (truncate render m limit).authority = (m.keep (fitting render m limit)).authority ∧
      (truncate render m limit).additional = (m.keep (fitting render m limit)).additional := by
  unfold truncate
  dsimp only
  split_ifs <;> exact ⟨rfl, rfl, rfl⟩

theorem truncate_isPrefix (m : Message) (limit : Nat) :
    (truncate render m limit).answer <+: m.answer ∧
      (truncate render m limit).authority <+: m.authority ∧
      (truncate render m limit).additional <+: m.additional := by
  obtain ⟨h1, h2, h3⟩ := truncate_sections render m limit
  rw [h1, h2, h3]
  exact ⟨List.take_prefix .., List.take_prefix .., List.take_prefix ..⟩

/-- A writer that stopped nowhere leaves the message as it is. -/
theorem truncate_eq_self {m : Message} {limit : Nat} (h : fitting render m limit = m.rrsetCount) :
    truncate render m limit = m := by
  have hk : ¬ m.rrsetCount < m.answer.length + m.authority.length := by
    unfold Message.rrsetCount
    omega
  unfold truncate
  rw [h]
  dsimp only
  rw [if_neg hk, Message.keep_rrsetCount]

/-- The truncated message keeps the limit, where its header, question and OPT record do and the
flags word does not change the length. -/
theorem length_truncate_le {m : Message} {limit : Nat}
    (hflags : ∀ (m : Message) (f : UInt16), (render { m with flags := f }).length = (render m).length)
    (hbase : (render (m.keep 0)).length ≤ limit) :
    (render (truncate render m limit)).length ≤ limit := by
  have hkeep : (render (m.keep (fitting render m limit))).length ≤ limit := by
    rcases Nat.eq_zero_or_pos (fitting render m limit) with h0 | hpos
    · rw [h0]
      exact hbase
    · exact fits_of_le_written (fun k => (render (m.keep k)).length ≤ limit) hpos (Nat.le_refl _)
  unfold truncate
  dsimp only
  split_ifs
  · rw [hflags]
    exact hkeep
  · exact hkeep

theorem flags_truncate_of_stop {m : Message} {limit : Nat}
    (h : fitting render m limit < m.answer.length + m.authority.length) :
    (truncate render m limit).flags = m.flags ||| Flag.TC := by
  unfold truncate
  dsimp only
  rw [if_pos h]

theorem flags_truncate_of_pass {m : Message} {limit : Nat}
    (h : m.answer.length + m.authority.length ≤ fitting render m limit) :
    truncate render m limit = m.keep (fitting render m limit) := by
  unfold truncate
  dsimp only
  rw [if_neg (Nat.not_lt.mpr h)]

/-- Where the flags word did not change for want of TC, answer and authority are complete. -/
theorem truncate_of_not_tc {m : Message} {limit : Nat}
    (h : ¬ hasFlag (truncate render m limit).flags Flag.TC) :
    (truncate render m limit).flags = m.flags ∧
      (truncate render m limit).answer = m.answer ∧
      (truncate render m limit).authority = m.authority := by
  rcases Nat.lt_or_ge (fitting render m limit) (m.answer.length + m.authority.length) with hlt | hge
  · rw [flags_truncate_of_stop render hlt] at h
    exact absurd (hasFlag_or_right (by decide) m.flags) h
  · rw [flags_truncate_of_pass render hge]
    exact ⟨rfl, Message.keep_answer_of_le hge⟩

/-- Where TC was set, the answer or the authority section lost an RRset. -/
theorem truncate_incomplete {m : Message} {limit : Nat} (hm : ¬ hasFlag m.flags Flag.TC)
    (h : hasFlag (truncate render m limit).flags Flag.TC) :
    (truncate render m limit).answer.length < m.answer.length ∨
      (truncate render m limit).authority.length < m.authority.length := by
  rcases Nat.lt_or_ge (fitting render m limit) (m.answer.length + m.authority.length) with hlt | hge
  · obtain ⟨h1, h2, -⟩ := truncate_sections render m limit
    rw [h1, h2]
    simp only [Message.keep, List.length_take]
    omega
  · rw [flags_truncate_of_pass render hge] at h
    exact absurd h hm

end

end Dns
