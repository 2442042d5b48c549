import DnsFixtures.Equiv.Parity
import DnsFixtures.Equiv.Renaming

/-!
# Where a reply leads, and what it depends on

`answerFresh_confined`: whatever a request holds, the records of its reply have owners in the zone of
the question, lead to no name outside it, and last no longer than the key of their owner says
(`Confined`).

`answerFresh_determined`: for one question there is one answer.  Neither the header of the request, nor
its EDNS options, nor the records that it carries itself have a part in it (`SameContent`).
-/

namespace DnsFixtures

open Dns

/-- The name is in the zone, or it is the root. -/
inductive Within (z : Nonce) : Name → Prop
  | root : Within z Name.root
  | zone {n : Name} {front : List Label} : InZone z n front → Within z n

/-- How long records below a key may be kept. -/
def ttlOf (key : String) : UInt32 :=
  if key = "ttl-normal" then 60 else if key = "ttl-high" then 86400 else 0

/-- The RRset is data of the zone. -/
structure Lasts (z : Nonce) (r : RRset) : Prop where
  rdclass : r.rdclass = RRClass.IN
  ttl : ∃ front key, InZone z r.name front ∧ keyOf front = some key ∧ r.ttl = ttlOf key

/-- The RRset is data of the zone, and no name in it is outside. -/
structure Confined (z : Nonce) (r : RRset) : Prop extends Lasts z r where
  names : ∀ n ∈ r.names, Within z n

/-! ### Times to live -/

theorem ttl_fixture (key : String) : ∀ ts ∈ fixture key, ∀ t ∈ ts, t.ttl = ttlOf key := by
  intro ts hts
  have hkeys : ∀ key ∈ fixtureKeys, ∀ ts ∈ fixture key, ∀ t ∈ ts, t.ttl = ttlOf key := by
    decide +kernel
  exact hkeys key (mem_fixtureKeys hts) ts hts

section

variable {d : Dnspython} {z : Nonce} {kind : UInt16} {owner : Name}

theorem lasts_apex {t : Template} (ht : t.ttl = 0) : Lasts z (t.fill d z z.zone) :=
  ⟨rfl, [], "apex", z.inZone_zone, keyOf_nil, ht⟩

theorem lasts_host {h : Host} {t : Template} (ht : t.ttl = ttlOf h.text) :
    Lasts z (t.fill d z (z.host h)) :=
  ⟨rfl, _, _, z.inZone_host h, keyOf_host [] h, ht⟩

theorem lasts_node {front : List Label} {key : String} (hz : InZone z owner front)
    (hkey : keyOf front = some key) {ps : List Placed}
    (hps : Zone.node z owner key front.length = some ps) {p : Placed} (hp : p ∈ ps) :
    Lasts z (Zone.rrset d z p) := by
  unfold Zone.node at hps
  split_ifs at hps with hdepth hnone
  · -- the apex, in its own spelling or in that of the question
    obtain rfl := List.length_eq_zero_iff.mp hdepth
    obtain rfl := Option.some.inj hkey
    cases hps
    rcases List.mem_cons.mp hp with rfl | hp
    · exact lasts_apex rfl
    · obtain rfl := List.mem_singleton.mp hp
      exact ⟨rfl, [], "apex", hz, keyOf_nil, rfl⟩
  · obtain ⟨ts, hts, rfl⟩ := Option.map_eq_some_iff.mp hps
    obtain ⟨t, ht, rfl⟩ := List.mem_map.mp hp
    exact ⟨rfl, front, key, hz, hkey, ttl_fixture key ts hts t ht⟩

theorem lasts_dname {h : Host} (hmem : h ∈ dnameHosts) : Lasts z (Zone.dname d z h) :=
  lasts_host ((by decide : ∀ h ∈ dnameHosts, (0 : UInt32) = ttlOf h.text) h hmem)

theorem lasts_synthesised {front : List Label} {next : Name} {h : Host} (hz : InZone z owner front)
    (hkey : keyOf front = some h.text) (hmem : h ∈ dnameHosts) :
    Lasts z (Zone.synthesised owner next) :=
  ⟨rfl, front, h.text, hz, hkey,
    (by decide : ∀ h ∈ dnameHosts, (0 : UInt32) = ttlOf h.text) h hmem⟩

theorem lasts_negativeSoa (key : String) (depth : Nat) :
    Lasts z (Zone.negativeSoa d z kind key depth) := by
  unfold Zone.negativeSoa
  cases hapex : Zone.apexOf kind key depth with
  | none => exact lasts_apex rfl
  | some h =>
    obtain ⟨hmem, -⟩ := hostIn_eq_some (Option.filter_eq_some_iff.mp hapex).1
    have httl := (by decide : ∀ h ∈ childApexes, (0 : UInt32) = ttlOf h.text) h hmem
    dsimp only
    split_ifs
    · exact lasts_host httl
    · exact lasts_host httl

theorem lasts_delegation {h : Host} (hmem : h ∈ referralHosts) {r : RRset}
    (hr : r ∈ (Zone.delegation d z h).authority ++ (Zone.delegation d z h).additional) :
    Lasts z r := by
  have httl := (by decide : ∀ h ∈ referralHosts, (0 : UInt32) = ttlOf h.text) h hmem
  have hbelow : InZone z (z.below ⟨"ns", by decide⟩ h) ([textOctets "ns"] ++ [h.label]) :=
    ⟨z.labels, rfl, z.foldCase_labels⟩
  rcases List.mem_cons.mp hr with rfl | hr
  · exact ⟨rfl, _, _, z.inZone_host h, keyOf_host [] h, httl⟩
  · rcases List.mem_cons.mp hr with rfl | hr
    · exact ⟨rfl, _, _, hbelow, keyOf_host _ h, httl⟩
    · split_ifs at hr
      · obtain rfl := List.mem_singleton.mp hr
        exact ⟨rfl, _, _, hbelow, keyOf_host _ h, httl⟩
      · cases hr

theorem lasts_additionalOf {p : Placed} {r : RRset} (hr : r ∈ Zone.additionalOf d z [p]) :
    Lasts z r := by
  rw [additionalOf_singleton] at hr
  obtain ⟨h, -, hr⟩ := List.mem_flatMap.mp hr
  obtain ⟨t, ht, rfl⟩ := List.mem_map.mp hr
  cases hts : fixture h.text with
  | none =>
    rw [hts] at ht
    cases ht
  | some ts =>
    rw [hts] at ht
    exact lasts_host (ttl_fixture h.text ts hts t (List.mem_of_mem_filter ht))

theorem StepCase.lasts {front : List Label} {key : String} {c : Conclusion}
    (h : StepCase d z kind owner front key (.stop c)) (hz : InZone z owner front)
    (hkey : keyOf front = some key) :
    ∀ r ∈ c.answer ++ c.authority ++ c.additional, Lasts z r := by
  intro r hr
  cases h with
  | cut =>
    rw [List.mem_singleton.mp hr]
    exact lasts_apex rfl
  | delegation hmem => exact lasts_delegation hmem hr
  | refused => cases hr
  | tooLong hmem =>
    rw [List.mem_singleton.mp hr]
    exact lasts_dname hmem
  | dnameEnd hmem hh =>
    subst hh
    rcases List.mem_cons.mp hr with rfl | hr
    · exact lasts_dname hmem
    · rw [List.mem_singleton.mp hr]
      exact lasts_synthesised hz hkey hmem
  | absent =>
    rw [List.mem_singleton.mp hr]
    exact lasts_negativeSoa _ _
  | cnameEnd _ hps =>
    rw [List.mem_singleton.mp hr]
    exact lasts_node hz hkey hps List.mem_cons_self
  | noData =>
    rw [List.mem_singleton.mp hr]
    exact lasts_negativeSoa _ _
  | data _ hps _ hp =>
    rcases List.mem_cons.mp hr with rfl | hr
    · exact lasts_node hz hkey hps hp
    · exact lasts_additionalOf hr

theorem ChainCase.lasts {chain : List RRset} {last : Name}
    (h : ChainCase d z kind owner chain last) : ∀ r ∈ chain, Lasts z r := by
  intro r hr
  cases h with
  | here => cases hr
  | cname _ _ _ hwhere =>
    obtain ⟨front, key, hz, hkey, -, hps⟩ := hwhere
    rw [List.mem_singleton.mp hr]
    exact lasts_node hz hkey hps List.mem_cons_self
  | hop _ _ _ hwhere =>
    obtain ⟨front, key, hz, hkey, -, hps⟩ := hwhere
    rcases List.mem_cons.mp hr with rfl | hr
    · exact lasts_node hz hkey hps List.mem_cons_self
    · rw [List.mem_singleton.mp hr]
      exact lasts_host rfl
  | dname hmem hz hkey =>
    rcases List.mem_cons.mp hr with rfl | hr
    · exact lasts_dname hmem
    · rw [List.mem_singleton.mp hr]
      exact lasts_synthesised hz hkey hmem

theorem Resolves.lasts {n : Nat} {chain : List RRset} {c : Conclusion}
    (h : Resolves d z kind n owner chain c) :
    ∀ r ∈ chain ++ c.answer ++ c.authority ++ c.additional, Lasts z r := by
  obtain ⟨last, front, key, hz, hkey, hstep, hchain, -⟩ := h.chain_cases
  intro r hr
  rw [List.append_assoc, List.append_assoc, ← List.append_assoc c.answer] at hr
  rcases List.mem_append.mp hr with hr | hr
  · exact hchain.lasts r hr
  · exact (StepCase.of_step hstep).lasts hz hkey r hr

/-! ### Names -/

theorem Resolves.within {n : Nat} {chain : List RRset} {c : Conclusion} {front : List Label}
    (h : Resolves d z kind n owner chain c) (hz : InZone z owner front) :
    ∀ r ∈ chain ++ c.answer ++ c.authority ++ c.additional, ∀ n ∈ r.names, Within z n := by
  -- the run beside itself
  obtain ⟨front', hpar⟩ := parallel_of_sameAs hz (Name.SameAs.refl owner)
  obtain ⟨chain', c', hres, hchain, hc⟩ := h.alike d kind (alongside_self z) hpar
  obtain ⟨-, rfl, rfl⟩ := h.unique hres
  have hsections := List.rel_append (List.rel_append (List.rel_append hchain hc.answer) hc.authority)
    hc.additional
  intro r hr n hn
  have htwin := (List.forall₂_same.mp hsections r hr).forall_names n hn
  cases htwin with
  | root => exact .root
  | zone htwin => exact .zone (htwin.inZone_left (alongside_self z))

theorem Resolves.confined {n : Nat} {chain : List RRset} {c : Conclusion} {front : List Label}
    (h : Resolves d z kind n owner chain c) (hz : InZone z owner front) :
    ∀ r ∈ chain ++ c.answer ++ c.authority ++ c.additional, Confined z r :=
  fun r hr => ⟨h.lasts r hr, h.within hz r hr⟩

end

/-! ### On the wire -/

section

variable {z : Nonce}

theorem InZone.of_sameAs {n n' : Name} {front : List Label} (hz : InZone z n front)
    (h : n.SameAs n') : ∃ front', InZone z n' front' ∧ keyOf front' = keyOf front := by
  obtain ⟨front', hpar⟩ := parallel_of_sameAs hz h
  exact ⟨front', hpar.inZone_right (alongside_self z), (hpar.keyOf_eq (alongside_self z)).symm⟩

theorem Within.of_sameAs {n n' : Name} (hn : Within z n) (h : n.SameAs n') : Within z n' := by
  cases hn with
  | root =>
    have hnil : n'.labels = [] := List.map_eq_nil_iff.mp (Eq.symm h)
    obtain rfl : n' = Name.root := Name.ext hnil
    exact .root
  | zone hz =>
    obtain ⟨front', hz', -⟩ := hz.of_sameAs h
    exact .zone hz'

theorem exists_name_of_sameAs {r r' : RRset} (h : r.SameAs r') {n : Name} (hn : n ∈ r'.names) :
    ∃ m ∈ r.names, m.SameAs n := by
  rcases List.mem_cons.mp hn with rfl | hn
  · exact ⟨_, List.mem_cons_self, h.name⟩
  · obtain ⟨data, hdata, hn⟩ := List.mem_flatMap.mp hn
    obtain ⟨f, hf, hname⟩ := List.mem_filterMap.mp hn
    obtain ⟨l, hperm, hl⟩ := h.rdatas
    obtain ⟨data', hdata', hsame⟩ := forall₂_exists_of_mem (List.Forall₂.flip hl) hdata
    obtain ⟨f', hf', hff'⟩ := forall₂_exists_of_mem (List.Forall₂.flip hsame) hf
    cases f with
    | octets bs => cases hname
    | name n' =>
      cases hname
      cases f' with
      | octets bs => cases hff'
      | name m =>
        exact ⟨m, List.mem_cons_of_mem _ (List.mem_flatMap.mpr
          ⟨data', hperm.mem_iff.mpr hdata', List.mem_filterMap.mpr ⟨_, hf', rfl⟩⟩), hff'⟩

/-- What reads like a record of the zone is one. -/
theorem Confined.of_sameAs {r r' : RRset} (hr : Confined z r) (h : r.SameAs r') : Confined z r' := by
  obtain ⟨front, key, hz, hkey, httl⟩ := hr.ttl
  obtain ⟨front', hz', hkey'⟩ := hz.of_sameAs h.name
  refine ⟨⟨h.rdclass.symm.trans hr.rdclass, front', key, hz', hkey'.trans hkey,
    h.ttl.symm.trans httl⟩, fun n hn => ?_⟩
  obtain ⟨m, hm, hmn⟩ := exists_name_of_sameAs h hn
  exact (hr.names m hm).of_sameAs hmn

end

theorem Skeleton.rrsets_eq_nil {query s : Message} (hs : Skeleton query s) : s.rrsets = [] := by
  rw [Message.rrsets, hs.answer, hs.authority, hs.additional]
  rfl

theorem rrsets_setRcode (m : Message) (rcode : UInt16) : (m.setRcode rcode).rrsets = m.rrsets := by
  simp [Message.rrsets]

/-- The message has no records, or all of them are confined to the zone of its question. -/
def StaysInZone (m : Message) : Prop :=
  m.rrsets = [] ∨ ∃ q z front, m.question = [q] ∧ InZone z q.name front ∧ ∀ r ∈ m.rrsets, Confined z r

section

variable {d : Dnspython} {query s response : Message}

theorem ResponseCase.staysInZone (hs : Skeleton query s)
    (h : ResponseCase d query s (.ok response)) : StaysInZone response := by
  have hnil := hs.rrsets_eq_nil
  generalize hx : Except.ok (ε := Raised) response = x at h
  cases h with
  | badVersion =>
    cases hx
    exact Or.inl (by rw [rrsets_setRcode, hnil])
  | formErr =>
    cases hx
    exact Or.inl (by rw [rrsets_setRcode]; exact hnil)
  | @question q _ hq _ hcase =>
    subst hx
    cases hcase with
    | refused => exact Or.inl (by rw [rrsets_setRcode, hnil])
    | @resolved z front key cut n chain c _ hz _ _ hres =>
      obtain ⟨-, hanswer, hauthority, hadditional⟩ := hres.concluded_parts hs
      refine Or.inr ⟨q, z, front, ?_, hz, ?_⟩
      · rw [concluded_question, hs.question, hq]
      · rw [Message.rrsets, hanswer, hauthority, hadditional]
        exact hres.confined hz

theorem rrsets_limited_subset (m : Message) (size : Nat) : (limited d m size).rrsets ⊆ m.rrsets := by
  obtain ⟨h1, h2, h3⟩ := limited_isPrefix (d := d) m size
  intro r hr
  rw [Message.rrsets, List.mem_append, List.mem_append] at hr ⊢
  exact hr.imp (Or.imp (fun h => h1.subset h) fun h => h2.subset h) fun h => h3.subset h

theorem StaysInZone.limited (h : StaysInZone response) (size : Nat) :
    StaysInZone (limited d response size) := by
  have hsubset := rrsets_limited_subset (d := d) response size
  rcases h with hnil | ⟨q, z, front, hq, hz, hconfined⟩
  · rw [hnil] at hsubset
    exact Or.inl (List.subset_nil.mp hsubset)
  · exact Or.inr ⟨q, z, front, by rw [limited_question, hq], hz, fun r hr => hconfined r (hsubset hr)⟩

theorem StaysInZone.of_sameAs {m m' : Message} (h : StaysInZone m) (hsame : m'.SameAs m) :
    StaysInZone m' := by
  rcases h with hnil | ⟨q, z, front, hq, hz, hconfined⟩
  · have hrrsets := hsame.rrsets
    rw [hnil] at hrrsets
    exact Or.inl (List.forall₂_nil_right_iff.mp hrrsets)
  · have hquestion := hsame.question
    rw [hq] at hquestion
    obtain ⟨q', qs, hqq', hqs, hm'⟩ := List.forall₂_cons_right_iff.mp hquestion
    rw [List.forall₂_nil_right_iff.mp hqs] at hm'
    obtain ⟨front', hz', -⟩ := hz.of_sameAs hqq'.1.symm
    refine Or.inr ⟨q', z, front', hm', hz', fun r hr => ?_⟩
    obtain ⟨r', hr', hsame'⟩ := forall₂_exists_of_mem hsame.rrsets hr
    exact (hconfined r' hr').of_sameAs hsame'.symm

variable (hd : d.Documented)
include hd

/-- **Confinement**: whatever a request holds, the records of its reply are data of the zone of its
question and lead to no name outside it. -/
theorem answerFresh_confined {w r : Octets} {tcp : Bool} (h : answerFresh d w tcp = .ok r)
    (hne : r ≠ []) : ∃ m, d.messageFromWire r = .ok m ∧ StaysInZone m := by
  have hreads : ∀ {m : Message}, d.Renderable m → (d.render m).length ≤ 65535 → StaysInZone m →
      ∃ m', d.messageFromWire (d.render m) = .ok m' ∧ StaysInZone m' := by
    intro m hrend hlen hm
    obtain ⟨m', hparse, hsame⟩ := hd.render_decodes m hrend hlen
    exact ⟨m', hparse, hm.of_sameAs hsame⟩
  have hrecovered : ∀ {hdr : Header} {m : Message} {rcode : UInt16}, Recovered d w hdr rcode m →
      ∃ m', d.messageFromWire (d.render m) = .ok m' ∧ StaysInZone m' := by
    intro hdr m rcode hm
    have hsend := hm.sendable
    refine hreads hsend.renderable
      (Nat.le_trans (hd.render_length _ hsend.renderable) hsend.size) (Or.inl ?_)
    rw [Message.rrsets, hm.answer, hm.authority, hm.additional]
    rfl
  have hcase := answerFresh_cases hd w
  revert h hcase
  generalize answerFresh d w = f
  intro h hcase
  cases hcase with
  | ignored =>
    cases h
    exact absurd rfl hne
  | notImplemented _ _ _ hm =>
    cases h
    exact hrecovered hm
  | malformed _ _ _ _ hm =>
    cases h
    exact hrecovered hm
  | @answered query s response hparse _ hop hs hresponse =>
    cases h
    have hsend := hresponse.sendable hd hs hop rfl
    obtain ⟨hlow, hhigh⟩ := replySize_bounds query tcp
    exact hreads (renderable_limited hsend.renderable _)
      (Nat.le_trans (length_render_limited_le hd hsend.renderable hlow) hhigh)
      ((hresponse.staysInZone hs).limited _)
  | raised => cases h

end

/-- A chain of aliases. -/
theorem answerFresh_confined_chain : ∃ r m,
    answerFresh Reference.dnspython (Reference.askKey "cname-chain" RRType.A) false = .ok r ∧
      Reference.dnspython.messageFromWire r = .ok m ∧ StaysInZone m := by
  have hne : answerFresh Reference.dnspython (Reference.askKey "cname-chain" RRType.A) false
      ≠ .ok [] := by decide +kernel
  obtain ⟨r, hr⟩ := Reference.exists_of_isOk (x := answerFresh Reference.dnspython
    (Reference.askKey "cname-chain" RRType.A) false) (by decide +kernel)
  obtain ⟨m, hm, hleads⟩ := answerFresh_confined Reference.documented hr
    fun hnil => hne (by rw [hr, hnil])
  exact ⟨r, m, hr, hm, hleads⟩

/-! ### One answer to one question -/

/-- The messages have the same response code, the same bit AA and the same records. -/
structure SameContent (m m' : Message) : Prop where
  rcode : m.rcode = m'.rcode
  aa : hasFlag m.flags Flag.AA ↔ hasFlag m'.flags Flag.AA
  answer : List.Forall₂ RRset.SameAs m.answer m'.answer
  authority : List.Forall₂ RRset.SameAs m.authority m'.authority
  additional : List.Forall₂ RRset.SameAs m.additional m'.additional

section

variable {d : Dnspython} {query query' s s' m m' : Message}

/-- Readers of both messages see the same content. -/
theorem SameContent.of_sameAs {t t' : Message} (h : SameContent m m') (ht : t.SameAs m)
    (ht' : t'.SameAs m') : SameContent t t' where
  rcode := by
    rw [Message.rcode, Message.rcode, Message.ednsflags, Message.ednsflags, ht.flags, ht'.flags,
      ht.opt, ht'.opt]
    exact h.rcode
  aa := by
    rw [ht.flags, ht'.flags]
    exact h.aa
  answer := rrsets_of_common (forall₂_trans (r := RRset.SameAs) (fun _ _ _ => RRset.SameAs.trans)
    ht.answer h.answer) ht'.answer
  authority := rrsets_of_common (forall₂_trans (r := RRset.SameAs)
    (fun _ _ _ => RRset.SameAs.trans) ht.authority h.authority) ht'.authority
  additional := rrsets_of_common (forall₂_trans (r := RRset.SameAs)
    (fun _ _ _ => RRset.SameAs.trans) ht.additional h.additional) ht'.additional

theorem forall₂_sameAs_refl (rs : List RRset) : List.Forall₂ RRset.SameAs rs rs :=
  List.forall₂_same.mpr fun r _ => RRset.SameAs.refl r

theorem sameContent_refused (hs : Skeleton query s) (hs' : Skeleton query' s') :
    SameContent (s.setRcode Rcode.REFUSED) (s'.setRcode Rcode.REFUSED) := by
  have hrcode : ∀ {q t : Message}, Skeleton q t → (t.setRcode Rcode.REFUSED).rcode = Rcode.REFUSED :=
    fun h => h.isReplyOpt.rcode_setRcode (by decide) (by decide)
  have haa : ∀ {q t : Message}, Skeleton q t →
      ¬ hasFlag (t.setRcode Rcode.REFUSED).flags Flag.AA := by
    intro q t h
    rw [hasFlag, Message.setRcode_flags_and t Rcode.REFUSED (by decide) (by decide)]
    exact h.not_aa
  refine ⟨by rw [hrcode hs, hrcode hs'], iff_of_false (haa hs) (haa hs'), ?_, ?_, ?_⟩
  · rw [Message.setRcode_answer, Message.setRcode_answer, hs.answer, hs'.answer]
    exact .nil
  · rw [Message.setRcode_authority, Message.setRcode_authority, hs.authority, hs'.authority]
    exact .nil
  · rw [Message.setRcode_additional, Message.setRcode_additional, hs.additional, hs'.additional]
    exact .nil

theorem Resolves.sameContent {z : Nonce} {kind : UInt16} {n : Nat} {owner : Name}
    {chain : List RRset} {c : Conclusion} (h : Resolves d z kind n owner chain c)
    (hs : Skeleton query s) (hs' : Skeleton query' s') :
    SameContent (concluded s chain c) (concluded s' chain c) := by
  obtain ⟨hrcode, hanswer, hauthority, hadditional⟩ := h.concluded_parts hs
  obtain ⟨hrcode', hanswer', hauthority', hadditional'⟩ := h.concluded_parts hs'
  refine ⟨by rw [hrcode, hrcode'], by rw [concluded_aa, concluded_aa], ?_, ?_, ?_⟩
  · rw [hanswer, hanswer']
    exact forall₂_sameAs_refl _
  · rw [hauthority, hauthority']
    exact forall₂_sameAs_refl _
  · rw [hadditional, hadditional']
    exact forall₂_sameAs_refl _

/-- Two runs for one question come to the same end. -/
theorem QuestionCase.determined {q : Question} {x x' : Except Raised Message}
    (h : QuestionCase d q s x) (h' : QuestionCase d q s' x') (hs : Skeleton query s)
    (hs' : Skeleton query' s') : (∃ e, x = .error e ∧ x' = .error e) ∨
      ∃ m m', x = .ok m ∧ x' = .ok m' ∧ SameContent m m' := by
  cases h with
  | refused hrefused =>
    cases h' with
    | refused => exact Or.inr ⟨_, _, rfl, rfl, sameContent_refused hs hs'⟩
    | resolved hno => exact absurd hrefused hno
    | unreadable hno => exact absurd hrefused hno
  | resolved hno hz hkey hcut hres =>
    cases h' with
    | refused hrefused => exact absurd hrefused hno
    | resolved _ hz' hkey' hcut' hres' =>
      obtain ⟨rfl, rfl⟩ := hz.unique hz'
      obtain ⟨-, rfl, rfl⟩ := hres.unique hres'
      exact Or.inr ⟨_, _, rfl, rfl, hres.sameContent hs hs'⟩
    | unreadable _ hz' hkey' hcut' =>
      obtain ⟨rfl, rfl⟩ := hz.unique hz'
      obtain ⟨-, rfl⟩ := hz.key_unique hkey hz' hkey'
      rw [hcut] at hcut'
      cases hcut'
  | unreadable hno hz hkey hcut =>
    cases h' with
    | refused hrefused => exact absurd hrefused hno
    | resolved _ hz' hkey' hcut' =>
      obtain ⟨rfl, rfl⟩ := hz.unique hz'
      obtain ⟨-, rfl⟩ := hz.key_unique hkey hz' hkey'
      rw [hcut] at hcut'
      cases hcut'
    | unreadable _ hz' hkey' hcut' =>
      obtain ⟨rfl, rfl⟩ := hz.unique hz'
      obtain ⟨-, rfl⟩ := hz.key_unique hkey hz' hkey'
      rw [hcut] at hcut'
      cases hcut'
      exact Or.inl ⟨_, rfl, rfl⟩

/-- A query with one question, of EDNS version 0 if any, is answered by its question. -/
theorem ResponseCase.question_of {q : Question} {x : Except Raised Message}
    (h : ResponseCase d query s x) (hq : query.question = [q]) (hedns : ¬ 0 < query.edns) :
    QuestionCase d q s x := by
  cases h with
  | badVersion _ hv => exact absurd hv hedns
  | formErr hlen =>
    rw [hq] at hlen
    exact absurd rfl hlen
  | question hq' _ hcase =>
    rw [hq] at hq'
    cases hq'
    exact hcase

/-- The octets are a query with this single question, of EDNS version 0 if any. -/
structure AsksOnce (d : Dnspython) (w : Octets) (q : Question) (query : Message) : Prop where
  parse : d.messageFromWire w = .ok query
  not_qr : ¬ hasFlag query.flags Flag.QR
  opcode : opcodeOf query.flags = 0
  question : query.question = [q]
  edns : ¬ 0 < query.edns

variable (hd : d.Documented)
include hd

/-- The reply over TCP is the whole response. -/
theorem answerFresh_whole {w : Octets} {q : Question} (h : AsksOnce d w q query) : ∃ s x,
    Skeleton query s ∧ QuestionCase d q s x ∧ answerFresh d w true = x.map d.render ∧
      ∀ m, x = .ok m → Sendable d query.flags m := by
  obtain ⟨s, x, hs, hcase, hanswer⟩ := answerFresh_of_parse hd h.parse h.not_qr h.opcode
  have hsend : ∀ m, x = .ok m → Sendable d query.flags m := fun m => hcase.sendable hd hs h.opcode
  refine ⟨s, x, hs, hcase.question_of h.question h.edns, ?_, hsend⟩
  rw [hanswer]
  cases x with
  | error e => rfl
  | ok m =>
    have hm := hsend m rfl
    have hwhole : limited d m (replySize query true) = m := limited_of_size hd hm.renderable hm.size
    show Except.ok (d.render (limited d m (replySize query true))) = Except.ok (d.render m)
    rw [hwhole]

/-- **One answer to one question**: two requests that ask it are answered over TCP with the same
content, or with none by the same exception, whatever else they hold. -/
theorem answerFresh_determined {w w' : Octets} {q : Question} (h : AsksOnce d w q query)
    (h' : AsksOnce d w' q query') :
    (∃ e, answerFresh d w true = .error e ∧ answerFresh d w' true = .error e) ∨
      ∃ r r' m m', answerFresh d w true = .ok r ∧ answerFresh d w' true = .ok r' ∧
        d.messageFromWire r = .ok m ∧ d.messageFromWire r' = .ok m' ∧ SameContent m m' := by
  obtain ⟨s, x, hs, hcase, hanswer, hsend⟩ := answerFresh_whole hd h
  obtain ⟨s', x', hs', hcase', hanswer', hsend'⟩ := answerFresh_whole hd h'
  have hreads : ∀ {f : UInt16} {m : Message}, Sendable d f m →
      ∃ t, d.messageFromWire (d.render m) = .ok t ∧ t.SameAs m := fun hm =>
    hd.render_decodes _ hm.renderable (Nat.le_trans (hd.render_length _ hm.renderable) hm.size)
  rw [hanswer, hanswer']
  rcases hcase.determined hcase' hs hs' with ⟨e, rfl, rfl⟩ | ⟨m, m', rfl, rfl, hsame⟩
  · exact Or.inl ⟨e, rfl, rfl⟩
  · obtain ⟨t, ht, htm⟩ := hreads (hsend m rfl)
    obtain ⟨t', ht', htm'⟩ := hreads (hsend' m' rfl)
    exact Or.inr ⟨_, _, t, t', rfl, rfl, ht, ht', hsame.of_sameAs htm htm'⟩

end

/-- The query `Reference.query` with another identifier, RD clear, and an OPT record with DO. -/
def dnssecQuery (n : Name) (kind : UInt16) : Message :=
  { Reference.query n kind with id := 7, flags := 0, opt := some ⟨4096, Flag.DO, []⟩ }

theorem messageFromWire_dnssecQuery (n : Name) (kind : UInt16) :
    Reference.dnspython.messageFromWire (writeMessage (dnssecQuery n kind))
      = .ok (dnssecQuery n kind) := by
  have hnil : WritableSection Dnspython.layout [] := Reference.writableSection ⟨by simp, by simp⟩
  have hlen : (writeMessage (dnssecQuery n kind)).length ≤ 65535 := by
    have hname := n.legal.total_le
    rw [length_writeMessage, Message.size]
    simp only [dnssecQuery, Reference.query, List.map_cons, List.map_nil, List.sum_cons,
      List.sum_nil, List.append_nil, List.length_nil]
    omega
  rw [Reference.messageFromWire_eq, Reference.messageFromWire_eq_ok_iff]
  exact readMessage_writeMessage hnil hnil hnil hlen

/-- The addresses of `a`, asked for with and without EDNS. -/
theorem answerFresh_determined_dnssec :
    let n := Nonce.zeros.host ⟨"a", by decide⟩
    let w := Reference.ask n.labels RRType.A
    let w' := writeMessage (dnssecQuery n RRType.A)
    (∃ e, answerFresh Reference.dnspython w true = .error e ∧
      answerFresh Reference.dnspython w' true = .error e) ∨
    ∃ r r' m m', answerFresh Reference.dnspython w true = .ok r ∧
      answerFresh Reference.dnspython w' true = .ok r' ∧
      Reference.dnspython.messageFromWire r = .ok m ∧
      Reference.dnspython.messageFromWire r' = .ok m' ∧ SameContent m m' :=
  answerFresh_determined Reference.documented
    ⟨Reference.messageFromWire_ask _ _, by decide, by decide, rfl, by decide⟩
    ⟨messageFromWire_dnssecQuery _ _, by decide, by decide, rfl, by decide⟩

end DnsFixtures
