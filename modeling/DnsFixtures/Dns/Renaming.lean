import DnsFixtures.Dns.Message

/-!
# Messages up to a relation between their names

`RRset.Rel R` and `Message.Rel R`: the same but for the names, which `R` relates place by place.  With
`R` a renaming of labels this says that one message is the other one renamed; with `R` the equality of
names without regard to case, that they differ in case only.
-/

namespace Dns

/-- The first elements of related lists that pass related tests. -/
theorem forall₂_find? {α β : Type*} {R : α → β → Prop} {p : α → Bool} {q : β → Bool} {as : List α}
    {bs : List β} (h : List.Forall₂ R as bs) (hpq : ∀ a b, R a b → p a = q b) :
    Option.Rel R (as.find? p) (bs.find? q) := by
  induction h with
  | nil => exact .none
  | @cons a b _ _ hab _ ih =>
    rw [List.find?_cons, List.find?_cons, ← hpq a b hab]
    cases p a with
    | false => exact ih
    | true => exact .some hab

/-! ### Records -/

def Field.Rel (R : Name → Name → Prop) : Field → Field → Prop
  | .octets a, .octets b => a = b
  | .name a, .name b => R a b
  | _, _ => False

/-- The same type, class, time to live and data in the same order, the names related. -/
structure RRset.Rel (R : Name → Name → Prop) (a b : RRset) : Prop where
  name : R a.name b.name
  rdtype : a.rdtype = b.rdtype
  rdclass : a.rdclass = b.rdclass
  ttl : a.ttl = b.ttl
  rdatas : List.Forall₂ (List.Forall₂ (Field.Rel R)) a.rdatas b.rdatas

/-- The names of an RRset: its owner and those in the data. -/
def RRset.names (r : RRset) : List Name :=
  r.name :: r.rdatas.flatMap (List.filterMap fun
    | .name n => some n
    | .octets _ => none)

section

variable {R S : Name → Name → Prop}

theorem Field.Rel.mono (h : ∀ a b, R a b → S a b) : ∀ {f g : Field}, f.Rel R g → f.Rel S g
  | .octets _, .octets _, hfg => hfg
  | .name a, .name b, hfg => h a b hfg

theorem RRset.Rel.mono (h : ∀ a b, R a b → S a b) {r s : RRset} (hrs : r.Rel R s) : r.Rel S s :=
  ⟨h _ _ hrs.name, hrs.rdtype, hrs.rdclass, hrs.ttl,
    hrs.rdatas.imp fun _ _ hx => hx.imp fun _ _ => Field.Rel.mono h⟩

/-- What every name of an RRset satisfies that is related to itself. -/
theorem RRset.Rel.forall_names {r : RRset} (h : r.Rel R r) : ∀ n ∈ r.names, R n n := by
  intro n hn
  rcases List.mem_cons.mp hn with rfl | hn
  · exact h.name
  · obtain ⟨x, hx, hn⟩ := List.mem_flatMap.mp hn
    obtain ⟨f, hf, hfn⟩ := List.mem_filterMap.mp hn
    have hrel : f.Rel R f := List.forall₂_same.mp (List.forall₂_same.mp h.rdatas x hx) f hf
    cases f with
    | octets bs => cases hfn
    | name n' =>
      cases hfn
      exact hrel

end

/-! ### Messages -/

structure Question.Rel (R : Name → Name → Prop) (a b : Question) : Prop where
  name : R a.name b.name
  rdtype : a.rdtype = b.rdtype
  rdclass : a.rdclass = b.rdclass

structure Message.Rel (R : Name → Name → Prop) (a b : Message) : Prop where
  id : a.id = b.id
  flags : a.flags = b.flags
  question : List.Forall₂ (Question.Rel R) a.question b.question
  answer : List.Forall₂ (RRset.Rel R) a.answer b.answer
  authority : List.Forall₂ (RRset.Rel R) a.authority b.authority
  additional : List.Forall₂ (RRset.Rel R) a.additional b.additional
  opt : a.opt = b.opt

namespace Message

variable {R S : Name → Name → Prop} {a b : Message}

theorem Rel.rrsets (h : a.Rel R b) : List.Forall₂ (RRset.Rel R) a.rrsets b.rrsets :=
  List.rel_append (List.rel_append h.answer h.authority) h.additional

/-- The response code lies in flags and OPT, which are the same. -/
theorem Rel.setRcode (h : a.Rel R b) (rcode : UInt16) :
    (a.setRcode rcode).Rel R (b.setRcode rcode) := by
  have hopt : (a.setRcode rcode).opt = (b.setRcode rcode).opt := by
    unfold Message.setRcode Message.setEdnsflags Message.ednsflags
    rw [h.opt]
    cases b.opt with
    | none =>
      dsimp only
      split_ifs <;> rfl
    | some o => rfl
  refine ⟨?_, ?_, ?_, ?_, ?_, ?_, hopt⟩
  · rw [setRcode_id, setRcode_id, h.id]
  · rw [setRcode_flags, setRcode_flags, h.flags]
  · rw [setRcode_question, setRcode_question]
    exact h.question
  · rw [setRcode_answer, setRcode_answer]
    exact h.answer
  · rw [setRcode_authority, setRcode_authority]
    exact h.authority
  · rw [setRcode_additional, setRcode_additional]
    exact h.additional

end Message

end Dns
