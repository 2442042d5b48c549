import DnsFixtures.ClientAccess

/-!
# The access decision

`Admits` says which clients an allowlist is meant to admit: an IPv4-mapped address is an IPv4 address,
in the client and in the list.  `verifyRequest_eq_true_iff` says which clients the proxy admits: it
looks up an IPv4-mapped client as an IPv4 address, but a network in `::ffff:0:0/96` stays an IPv6
network, in which it never finds one.  `decides_iff`: the two differ for the IPv4 clients that only such
a network lists.
-/

namespace DnsFixtures

open Cidr

/-! ### IPv4-mapped addresses -/

/-- `::ffff:a.b.c.d` -/
def mapped (ip : BitVec 32) : BitVec 128 := (0xFFFF : BitVec 96) ++ ip

theorem toNat_mapped (ip : BitVec 32) : (mapped ip).toNat = 0xFFFF * 2 ^ 32 + ip.toNat := by
  have hlt := ip.isLt
  rw [mapped, BitVec.toNat_append, Nat.shiftLeft_eq, Nat.mul_comm, ← Nat.two_pow_add_eq_or_of_lt hlt,
    Nat.mul_comm]
  rfl

theorem ipv4Mapped_eq_some_iff {ip : BitVec 128} {a : BitVec 32} :
    ipv4Mapped ip = some a ↔ ip = mapped a := by
  have hshift : ip >>> 32 = 0xFFFF ↔ ip.toNat / 2 ^ 32 = 0xFFFF := by
    rw [← BitVec.toNat_inj, BitVec.toNat_ushiftRight, Nat.shiftRight_eq_div_pow]
    rfl
  have hlt := a.isLt
  rw [← BitVec.toNat_inj, toNat_mapped, ipv4Mapped]
  split_ifs with h
  · rw [ne_eq, hshift] at h
    exact iff_of_false (fun h => by cases h) fun heq => by omega
  · rw [ne_eq, not_not, hshift] at h
    rw [Option.some.injEq, ← BitVec.toNat_inj, BitVec.toNat_setWidth]
    omega

@[simp] theorem ipv4Mapped_mapped (ip : BitVec 32) : ipv4Mapped (mapped ip) = some ip :=
  ipv4Mapped_eq_some_iff.mpr rfl

@[simp] theorem unmapped_mapped (ip : BitVec 32) : (IPAddress.v6 (mapped ip)).unmapped = .v4 ip := by
  simp [IPAddress.unmapped]

/-- The network lies in `::ffff:0:0/96`. -/
def IsMapped (i : Interface 128) : Prop := 96 ≤ i.prefixlen ∧ (ipv4Mapped i.address).isSome

instance (i : Interface 128) : Decidable (IsMapped i) := inferInstanceAs (Decidable (_ ∧ _))

theorem inBlock_mapped_iff {a : BitVec 128} :
    InBlock (mapped 0) 96 a ↔ (ipv4Mapped a).isSome := by
  rw [inBlock_iff_shift, ipv4Mapped]
  have hzero : mapped 0 >>> (128 - 96) = 0xFFFF := by decide
  rw [hzero]
  split_ifs with h
  · exact iff_of_false h (by simp)
  · exact iff_of_true (not_not.mp h) rfl

/-- All addresses of the network are IPv4-mapped. -/
theorem isMapped_iff {i : Interface 128} :
    IsMapped i ↔ ∀ a, InBlock i.address i.prefixlen a → InBlock (mapped 0) 96 a := by
  rw [forall_inBlock_iff i.le (by decide), inBlock_mapped_iff]
  rfl

/-! ### What an allowlist means -/

theorem prefixlen_sub_le (i : Interface 128) : i.prefixlen - 96 ≤ 32 := by
  have := i.le
  omega

/-- The interface that is meant: in `::ffff:0:0/96` it is an IPv4 interface. -/
def IPInterface.unmapped : IPInterface → IPInterface
  | .v4 i => .v4 i
  | .v6 i =>
    match ipv4Mapped i.address with
    | some ip =>
      if 96 ≤ i.prefixlen then .v4 ⟨ip, i.prefixlen - 96, prefixlen_sub_le i⟩ else .v6 i
    | none => .v6 i

/-- The address lies in the network of the interface, which is of its family. -/
def IPInterface.Covers : IPInterface → IPAddress → Prop
  | .v4 i, .v4 ip => InBlock i.address i.prefixlen ip
  | .v6 i, .v6 ip => InBlock i.address i.prefixlen ip
  | _, _ => False

/-- An element of `DNS_ALLOWED_CLIENTS` reads as this interface. -/
def Listed (value : String) (i : IPInterface) : Prop :=
  ∃ item ∈ clientItems value, ipInterface item = some i

/-- The client is the loopback of its family or lies in a listed network, IPv4-mapped addresses taken
for IPv4 addresses on both sides. -/
def Admits (value : String) (address : IPAddress) : Prop :=
  address.unmapped = .v4 loopback4 ∨ address.unmapped = .v6 loopback6 ∨
    ∃ i, Listed value i ∧ i.unmapped.Covers address.unmapped

/-- An interface outside `::ffff:0:0/96` is the one that is meant. -/
theorem unmapped_eq_self {i : Interface 128} (h : ¬ IsMapped i) :
    (IPInterface.v6 i).unmapped = .v6 i := by
  cases hip : ipv4Mapped i.address with
  | none => simp only [IPInterface.unmapped, hip]
  | some ip =>
    have hshort : ¬ 96 ≤ i.prefixlen := fun hle => h ⟨hle, by rw [hip]; rfl⟩
    simp only [IPInterface.unmapped, hip, if_neg hshort]

/-- Inside it, the IPv4 network has the addresses that the IPv6 network has in their mapped form. -/
theorem covers_unmapped_iff {i : Interface 128} (h : IsMapped i) {a : IPAddress} :
    (IPInterface.v6 i).unmapped.Covers a ↔
      ∃ ip, a = .v4 ip ∧ InBlock i.address i.prefixlen (mapped ip) := by
  obtain ⟨hle, hsome⟩ := h
  obtain ⟨base, hbase⟩ := Option.isSome_iff_exists.mp hsome
  have haddress := ipv4Mapped_eq_some_iff.mp hbase
  have hprefix : i.prefixlen = 96 + (i.prefixlen - 96) := by omega
  -- behind the 96 bits that all mapped addresses share, the block is the IPv4 block
  have hblock : ∀ ip, InBlock i.address i.prefixlen (mapped ip) ↔
      InBlock base (i.prefixlen - 96) ip := by
    intro ip
    have hpl := i.le
    rw [haddress, hprefix]
    simpa [mapped] using
      @inBlock_append 96 32 0xFFFF base ip (i.prefixlen - 96) (by omega)
  simp only [IPInterface.unmapped, hbase, if_pos hle]
  cases a with
  | v4 ip => simp [IPInterface.Covers, hblock]
  | v6 ip => simp [IPInterface.Covers]

/-! ### What the proxy decides -/

theorem contains_network (i : IPInterface) (a : IPAddress) :
    i.network.contains a = true ↔ i.Covers a := by
  cases i with
  | v4 i =>
    cases a with
    | v4 ip => exact i.contains_network ip
    | v6 ip => exact iff_of_false Bool.false_ne_true id
  | v6 i =>
    cases a with
    | v4 ip => exact iff_of_false Bool.false_ne_true id
    | v6 ip => exact i.contains_network ip

/-- A loop over a list that returns has gone over every element. -/
theorem mem_of_mapM {α β : Type} {f : α → Option β} {as : List α} {bs : List β}
    (h : as.mapM f = some bs) (b : β) : b ∈ bs ↔ ∃ a ∈ as, f a = some b := by
  induction as generalizing bs with
  | nil =>
    rw [List.mapM_nil] at h
    cases h
    simp
  | cons a as ih =>
    rw [List.mapM_cons] at h
    obtain ⟨b', hb', h⟩ := Option.bind_eq_some_iff.mp h
    obtain ⟨bs', hbs', h⟩ := Option.bind_eq_some_iff.mp h
    cases h
    -- one element more on both sides
    rw [List.mem_cons, ih hbs']
    simp only [List.mem_cons, exists_eq_or_imp, hb', Option.some.injEq]
    exact or_congr_left eq_comm

theorem mem_allowedClients {value : String} {networks : List IPNetwork}
    (h : allowedClients value = .ok networks) (n : IPNetwork) :
    n ∈ networks ↔ n ∈ LOOPBACK_CLIENTS ∨ ∃ i, Listed value i ∧ i.network = n := by
  unfold allowedClients at h
  dsimp only at h
  cases hread : (clientItems value).mapM ipNetwork with
  | none =>
    rw [hread] at h
    cases h
  | some listed =>
    rw [hread] at h
    dsimp only at h
    split_ifs at h
    cases h
    rw [List.mem_append, mem_of_mapM hread]
    refine or_congr_right ⟨?_, ?_⟩
    · rintro ⟨item, hitem, hn⟩
      obtain ⟨i, hi, rfl⟩ := Option.map_eq_some_iff.mp hn
      exact ⟨i, ⟨item, hitem, hi⟩, rfl⟩
    · rintro ⟨i, ⟨item, hitem, hi⟩, rfl⟩
      exact ⟨item, hitem, by rw [ipNetwork, hi]; rfl⟩

theorem exists_loopback_contains_iff (a : IPAddress) :
    (∃ n ∈ LOOPBACK_CLIENTS, n.contains a = true) ↔ a = .v4 loopback4 ∨ a = .v6 loopback6 := by
  have h4 := contains_network (.v4 ⟨loopback4, 32, Nat.le_refl 32⟩) a
  have h6 := contains_network (.v6 ⟨loopback6, 128, Nat.le_refl 128⟩) a
  dsimp only [IPInterface.network] at h4 h6
  simp only [LOOPBACK_CLIENTS, List.mem_cons, List.not_mem_nil, or_false, exists_eq_or_imp,
    exists_eq_left, h4, h6]
  cases a with
  | v4 ip => simp [IPInterface.Covers, inBlock_width]
  | v6 ip => simp [IPInterface.Covers, inBlock_width]

/-- **What `verify_request` decides**: an IPv4-mapped client is an IPv4 client, a listed network is of
the family it is written in. -/
theorem verifyRequest_eq_true_iff {value : String} {networks : List IPNetwork}
    (h : allowedClients value = .ok networks) {client : String} {address : IPAddress}
    (hclient : ipAddress client.toList = some address) :
    verifyRequest networks client = some true ↔
      address.unmapped = .v4 loopback4 ∨ address.unmapped = .v6 loopback6 ∨
        ∃ i, Listed value i ∧ i.Covers address.unmapped := by
  have hany : verifyRequest networks client = some true ↔
      ∃ n ∈ networks, n.contains address.unmapped = true := by
    rw [verifyRequest, hclient]
    show some _ = some true ↔ _
    rw [Option.some.injEq, List.any_eq_true]
  rw [hany, ← or_assoc, ← exists_loopback_contains_iff]
  simp only [mem_allowedClients h, or_and_right, exists_or]
  refine or_congr_right ⟨?_, ?_⟩
  · rintro ⟨n, ⟨i, hi, rfl⟩, hn⟩
    exact ⟨i, hi, (contains_network i _).mp hn⟩
  · rintro ⟨i, hi, hcovers⟩
    exact ⟨i.network, ⟨i, hi, rfl⟩, (contains_network i _).mpr hcovers⟩

/-! ### The difference -/

/-- The decision on this client is the one that the allowlist means, and for an IPv4 client the one on
its IPv4-mapped address, which a dual-stack listener sees. -/
structure Decides (value : String) (networks : List IPNetwork) (client : String)
    (address : IPAddress) : Prop where
  permits : verifyRequest networks client = some true ↔ Admits value address
  dualStack : ∀ ip client', address = .v4 ip → ipAddress client'.toList = some (.v6 (mapped ip)) →
    verifyRequest networks client' = verifyRequest networks client

/-- An IPv4 client that a network in `::ffff:0:0/96` lists and nothing else admits. -/
def OnlyMapped (value : String) (address : IPAddress) : Prop :=
  ∃ ip, address.unmapped = .v4 ip ∧ ip ≠ loopback4 ∧
    (∃ i, Listed value (.v6 i) ∧ IsMapped i ∧ InBlock i.address i.prefixlen (mapped ip)) ∧
    ∀ i, Listed value (.v4 i) → ¬ InBlock i.address i.prefixlen ip

theorem verifyRequest_mapped {networks : List IPNetwork} {client client' : String} {ip : BitVec 32}
    (h : ipAddress client.toList = some (.v4 ip))
    (h' : ipAddress client'.toList = some (.v6 (mapped ip))) :
    verifyRequest networks client' = verifyRequest networks client := by
  rw [verifyRequest, verifyRequest, h, h']
  show some _ = some _
  rw [unmapped_mapped]
  rfl

/-- What covers an unmapped client, as the allowlist means it. -/
theorem covers_of_unmapped {i : IPInterface} {a : IPAddress} (h : i.Covers a.unmapped) :
    i.unmapped.Covers a.unmapped := by
  cases i with
  | v4 i => exact h
  | v6 i =>
    by_cases hmapped : IsMapped i
    · -- an IPv6 client in `::ffff:0:0/96` would have been unmapped
      cases hu : a.unmapped with
      | v4 ip =>
        rw [hu] at h
        exact h.elim
      | v6 ip =>
        rw [hu] at h
        have hsome := inBlock_mapped_iff.mp (isMapped_iff.mp hmapped ip h)
        obtain ⟨ip', hip'⟩ := Option.isSome_iff_exists.mp hsome
        cases a with
        | v4 b => cases hu
        | v6 b =>
          rw [IPAddress.unmapped] at hu
          cases hb : ipv4Mapped b with
          | some c =>
            rw [hb] at hu
            cases hu
          | none =>
            rw [hb] at hu
            cases hu
            rw [hb] at hip'
            cases hip'
    · rwa [unmapped_eq_self hmapped]

/-- **When the access decision is the one that is meant**: for every client but an IPv4 client that is
listed in IPv4-mapped form only. -/
theorem decides_iff {value : String} {networks : List IPNetwork}
    (h : allowedClients value = .ok networks) {client : String} {address : IPAddress}
    (hclient : ipAddress client.toList = some address) :
    Decides value networks client address ↔ ¬ OnlyMapped value address := by
  have hverify := verifyRequest_eq_true_iff h hclient
  constructor
  · rintro ⟨hpermits, -⟩ ⟨ip, hip, hloop, ⟨i, hlisted, hmapped, hblock⟩, hnone⟩
    have hadmits : Admits value address :=
      Or.inr (Or.inr ⟨.v6 i, hlisted, (covers_unmapped_iff hmapped).mpr ⟨ip, hip, hblock⟩⟩)
    -- no IPv4 entry covers the client, and an IPv6 entry covers no IPv4 client
    rw [hip] at hverify
    rcases hverify.mp (hpermits.mpr hadmits) with heq | heq | ⟨j, hj, hcovers⟩
    · cases heq
      exact hloop rfl
    · cases heq
    · cases j with
      | v4 j => exact hnone j hj hcovers
      | v6 j => exact hcovers
  · intro hnot
    refine ⟨?_, ?_⟩
    · rw [hverify]
      constructor
      · rintro (heq | heq | ⟨i, hi, hcovers⟩)
        · exact Or.inl heq
        · exact Or.inr (Or.inl heq)
        · exact Or.inr (Or.inr ⟨i, hi, covers_of_unmapped hcovers⟩)
      · rintro (heq | heq | ⟨i, hi, hcovers⟩)
        · exact Or.inl heq
        · exact Or.inr (Or.inl heq)
        · -- what is meant and not decided is the excepted client
          by_contra hrejected
          obtain ⟨hloop, -, hnone⟩ := by simpa only [not_or, not_exists, not_and] using hrejected
          cases i with
          | v4 i => exact hnone _ hi hcovers
          | v6 i =>
            by_cases hmapped : IsMapped i
            · obtain ⟨ip, hip, hblock⟩ := (covers_unmapped_iff hmapped).mp hcovers
              rw [hip] at hloop hnone
              exact hnot ⟨ip, hip, fun heq => hloop (congrArg IPAddress.v4 heq),
                ⟨i, hi, hmapped, hblock⟩, fun j hj => hnone (.v4 j) hj⟩
            · rw [unmapped_eq_self hmapped] at hcovers
              exact hnone _ hi hcovers
    · rintro ip client' rfl hclient'
      exact verifyRequest_mapped hclient hclient'

/-- 192.0.2.10 in its IPv4-mapped form, which is listed with host bits set. -/
theorem decides_iff_dualStack : ∃ networks,
    allowedClients "192.0.2.5/24" = .ok networks ∧
    Decides "192.0.2.5/24" networks "::ffff:192.0.2.10" (.v6 (mapped 0xC000020A)) := by
  let listed : Interface 32 := ⟨0xC0000205, 24, by decide⟩
  have hallowed : allowedClients "192.0.2.5/24"
      = .ok (LOOPBACK_CLIENTS ++ [.v4 listed.network]) := by decide +kernel
  have hclient : ipAddress "::ffff:192.0.2.10".toList = some (.v6 (mapped 0xC000020A)) := by
    decide +kernel
  refine ⟨_, hallowed, (decides_iff hallowed hclient).mpr ?_⟩
  rintro ⟨ip, hip, -, -, hnone⟩
  rw [unmapped_mapped] at hip
  cases hip
  exact hnone listed ⟨"192.0.2.5/24".toList, by decide, by decide +kernel⟩ (by decide)

/-- The same client with its network listed in IPv4-mapped form. -/
theorem not_decides_mapped : ∃ networks,
    allowedClients "::ffff:192.0.2.0/120" = .ok networks ∧
    ipAddress "::ffff:192.0.2.10".toList = some (.v6 (mapped 0xC000020A)) ∧
    ¬ Decides "::ffff:192.0.2.0/120" networks "::ffff:192.0.2.10" (.v6 (mapped 0xC000020A)) := by
  let listed : Interface 128 := ⟨mapped 0xC0000200, 120, by decide⟩
  have hallowed : allowedClients "::ffff:192.0.2.0/120"
      = .ok (LOOPBACK_CLIENTS ++ [.v6 listed.network]) := by decide +kernel
  have hrejected : verifyRequest (LOOPBACK_CLIENTS ++ [.v6 listed.network]) "::ffff:192.0.2.10"
      = some false := by decide +kernel
  refine ⟨_, hallowed, by decide +kernel, fun h => ?_⟩
  have hlisted : Listed "::ffff:192.0.2.0/120" (.v6 listed) :=
    ⟨"::ffff:192.0.2.0/120".toList, by decide, by decide +kernel⟩
  have hcovers := (@covers_unmapped_iff listed (by decide) (.v4 0xC000020A)).mpr
    ⟨0xC000020A, rfl, by decide⟩
  have hpermitted := h.permits.mpr (Or.inr (Or.inr ⟨_, hlisted, by rwa [unmapped_mapped]⟩))
  rw [hrejected] at hpermitted
  cases hpermitted

end DnsFixtures
