import IronCrew.Proof.Utils.Network

/-!
# IPv4 addresses inside IPv6 addresses

A transition format puts an IPv4 address at a fixed place behind a fixed prefix. Two prefixes that differ
within the shorter one have no address in common, so that an address is judged by the branch of its own
format. The check unwraps two of the formats and blocks three others as a whole; 6to4 is in neither list,
so such an address passes whatever it carries.
-/

namespace IronCrew

open Net Outcome

/-! ### Prefixes -/

theorem ipv6InPrefix_iff {address network : Ipv6Addr} {bits : Nat} :
    ipv6InPrefix address network bits ↔ address >>> (128 - bits) = network >>> (128 - bits) := by
  have hmask : (if bits = 0 then (0 : BitVec 128) else BitVec.allOnes 128 <<< (128 - bits)) =
      BitVec.allOnes 128 <<< (128 - bits) := by
    split
    next hzero => simp [hzero]
    next => rfl
  simp only [ipv6InPrefix, hmask, beq_iff_eq]
  constructor
  · intro hmasked
    apply BitVec.eq_of_getLsbD_eq
    intro i hi
    rw [BitVec.getLsbD_ushiftRight, BitVec.getLsbD_ushiftRight]
    by_cases hin : 128 - bits + i < 128
    · have hbit := congrArg (fun value : Ipv6Addr => value.getLsbD (128 - bits + i)) hmasked
      have hnot : ¬ 128 - bits + i < 128 - bits := Nat.not_lt.mpr (Nat.le_add_right ..)
      have hone : 128 - bits + i - (128 - bits) < 128 := by omega
      simpa only [BitVec.getLsbD_and, BitVec.getLsbD_shiftLeft, BitVec.getLsbD_allOnes, hin, hnot, hone,
        decide_true, decide_false, Bool.not_false, Bool.true_and, Bool.and_true] using hbit
    · rw [BitVec.getLsbD_of_ge _ _ (Nat.le_of_not_lt hin), BitVec.getLsbD_of_ge _ _ (Nat.le_of_not_lt hin)]
  · intro hshifted
    apply BitVec.eq_of_getLsbD_eq
    intro i hi
    by_cases hlow : i < 128 - bits
    · simp [hlow]
    · have hbit := congrArg (fun value : Ipv6Addr => value.getLsbD (i - (128 - bits))) hshifted
      have hplace : 128 - bits + (i - (128 - bits)) = i := by omega
      simp only [BitVec.getLsbD_ushiftRight, hplace] at hbit
      simp [hbit]

theorem ipv6InPrefix_of_le {address network : Ipv6Addr} {bits fewer : Nat} (hle : fewer ≤ bits)
    (hin : ipv6InPrefix address network bits) : ipv6InPrefix address network fewer := by
  rw [ipv6InPrefix_iff] at hin ⊢
  have hsplit : 128 - fewer = (128 - bits) + (128 - fewer - (128 - bits)) := by omega
  rw [hsplit, BitVec.shiftRight_add, BitVec.shiftRight_add, hin]

theorem not_ipv6InPrefix {address network other : Ipv6Addr} {bits otherBits : Nat}
    (hdiffer : ipv6InPrefix network other (min bits otherBits) = false)
    (hin : ipv6InPrefix address network bits) : ipv6InPrefix address other otherBits = false := by
  by_contra hboth
  rw [Bool.not_eq_false] at hboth
  have hfirst := ipv6InPrefix_iff.mp (ipv6InPrefix_of_le (Nat.min_le_left bits otherBits) hin)
  have hsecond := ipv6InPrefix_iff.mp (ipv6InPrefix_of_le (Nat.min_le_right bits otherBits) hboth)
  have hsame := ipv6InPrefix_iff.mpr (hfirst.symm.trans hsecond)
  rw [hdiffer] at hsame
  cases hsame

/-! ### Formats -/

/-- The standard formats of an IPv6 address that carries an IPv4 address. -/
inductive Embedding where
  | mapped
  | compatible
  | nat64
  | localNat64
  | sixToFour
  | teredo
  deriving DecidableEq

namespace Embedding

def network : Embedding → Ipv6Addr × Nat
  | mapped => (ipv6 [0, 0, 0, 0, 0, 0xffff, 0, 0], 96)
  | compatible => (0, 96)
  | nat64 => (ipv6 [0x64, 0xff9b, 0, 0, 0, 0, 0, 0], 96)
  | localNat64 => (ipv6 [0x64, 0xff9b, 1, 0, 0, 0, 0, 0], 48)
  | sixToFour => (ipv6 [0x2002, 0, 0, 0, 0, 0, 0, 0], 16)
  | teredo => (ipv6 [0x2001, 0, 0, 0, 0, 0, 0, 0], 32)

def Carries (embedding : Embedding) (address : Ipv6Addr) : Prop :=
  ipv6InPrefix address embedding.network.1 embedding.network.2

instance (embedding : Embedding) (address : Ipv6Addr) : Decidable (embedding.Carries address) :=
  inferInstanceAs (Decidable (_ = true))

def address (embedding : Embedding) (address : Ipv6Addr) : Ipv4Addr :=
  match embedding with
  | mapped | compatible | nat64 => address.setWidth 32
  -- the halves stand around the octet that is reserved
  | localNat64 => (address >>> 64).setWidth 16 ++ (address >>> 40).setWidth 16
  | sixToFour => (address >>> 80).setWidth 32
  -- the client's address with every bit inverted
  | teredo => ~~~ address.setWidth 32

theorem not_carries {embedding other : Embedding} {address : Ipv6Addr}
    (hcarries : embedding.Carries address) (hne : embedding ≠ other) : ¬ other.Carries address := by
  have hdiffer : ∀ embedding other : Embedding, embedding ≠ other →
      ipv6InPrefix embedding.network.1 other.network.1 (min embedding.network.2 other.network.2) =
        false := by
    intro embedding other
    cases embedding <;> cases other <;> decide
  rw [Carries, Bool.not_eq_true]
  exact not_ipv6InPrefix (hdiffer _ _ hne) hcarries

theorem toIpv4Mapped_eq_some_iff {address : Ipv6Addr} {inner : Ipv4Addr} :
    toIpv4Mapped address = some inner ↔ mapped.Carries address ∧ inner = mapped.address address := by
  have hcarries : mapped.Carries address ↔ address.toNat / 2 ^ 32 = 0xffff := by
    rw [Carries, ipv6InPrefix_iff, ← BitVec.toNat_inj, BitVec.toNat_ushiftRight,
      Nat.shiftRight_eq_div_pow]
    rfl
  rw [hcarries, toIpv4Mapped]
  split
  next hmapped =>
      rw [Option.some.injEq]
      exact ⟨fun hinner => ⟨hmapped, hinner.symm⟩, fun hboth => hboth.2.symm⟩
  next hmapped => exact ⟨nofun, fun hboth => absurd hboth.1 hmapped⟩

end Embedding

/-! ### The check -/

variable {address : Ipv6Addr}

theorem checkIp_v6_publicOnly (address : Ipv6Addr) :
    checkIp (.v6 address) .publicOnly =
      if Embedding.mapped.Carries address then
        checkIp (.v4 (Embedding.mapped.address address)) .publicOnly
      else if Embedding.nat64.Carries address then
        checkIp (.v4 (Embedding.nat64.address address)) .publicOnly
      else
        ensure (¬ blockedIpv6Prefixes.any fun (network, bits) => ipv6InPrefix address network bits)
          (blockedIp (.v6 address)) := by
  unfold checkIp
  simp only
  rw [if_neg (by simp)]
  have hnat64 : ipv6Prefix "64:ff9b::" = Embedding.nat64.network.1 := by decide +kernel
  rw [hnat64]
  cases hmapped : toIpv4Mapped address with
  | some inner =>
    obtain ⟨hcarries, rfl⟩ := Embedding.toIpv4Mapped_eq_some_iff.mp hmapped
    rw [if_pos hcarries]
  | none =>
    have hcarries : ¬ Embedding.mapped.Carries address := fun hcarries => by
      rw [Embedding.toIpv4Mapped_eq_some_iff.mpr ⟨hcarries, rfl⟩] at hmapped
      cases hmapped
    rw [if_neg hcarries]
    rfl

theorem checkIp_of_blocked {embedding : Embedding} (hcarries : embedding.Carries address)
    (hmapped : embedding ≠ .mapped) (hnat64 : embedding ≠ .nat64)
    (hlisted : embedding.network ∈ blockedIpv6Prefixes) :
    checkIp (.v6 address) .publicOnly ≠ .ok () := by
  rw [checkIp_v6_publicOnly, if_neg (Embedding.not_carries hcarries hmapped),
    if_neg (Embedding.not_carries hcarries hnat64)]
  intro hadmitted
  exact ensure_ok_iff.mp hadmitted (List.any_eq_true.mpr ⟨_, hlisted, hcarries⟩)

theorem checkIp_sixToFour (hcarries : Embedding.sixToFour.Carries address) :
    checkIp (.v6 address) .publicOnly = .ok () := by
  rw [checkIp_v6_publicOnly, if_neg (Embedding.not_carries hcarries (by decide)),
    if_neg (Embedding.not_carries hcarries (by decide))]
  refine ensure_ok_iff.mpr fun hblocked => ?_
  obtain ⟨⟨network, bits⟩, hlisted, hin⟩ := List.any_eq_true.mp hblocked
  have hdiffer : ∀ entry ∈ blockedIpv6Prefixes,
      ipv6InPrefix Embedding.sixToFour.network.1 entry.1 (min 16 entry.2) = false := by
    decide +kernel
  have hout : ipv6InPrefix address network bits = false := not_ipv6InPrefix (hdiffer _ hlisted) hcarries
  exact Bool.false_ne_true (hout.symm.trans hin)

theorem checkIp_v4_publicOnly {inner : Ipv4Addr} :
    checkIp (.v4 inner) .publicOnly = .ok () ↔
      ¬ blockedIpv4Prefixes.any fun (network, bits) => ipv4InPrefix inner network bits := by
  rw [checkIp, checkIpv4, if_neg (by simp), ensure_ok_iff]

def AdmitsInside (address : Ipv6Addr) : Prop :=
  ∀ embedding : Embedding, embedding.Carries address → checkIp (.v6 address) .publicOnly = .ok () →
    checkIp (.v4 (embedding.address address)) .publicOnly = .ok ()

theorem admitsInside_iff (address : Ipv6Addr) :
    AdmitsInside address ↔ ¬ (Embedding.sixToFour.Carries address ∧
      blockedIpv4Prefixes.any fun (network, bits) =>
        ipv4InPrefix (Embedding.sixToFour.address address) network bits) := by
  constructor
  · rintro hinside ⟨hcarries, hblocked⟩
    exact checkIp_v4_publicOnly.mp (hinside _ hcarries (checkIp_sixToFour hcarries)) hblocked
  · intro hpublic embedding hcarries hadmitted
    cases embedding with
    | mapped => rwa [checkIp_v6_publicOnly, if_pos hcarries] at hadmitted
    | nat64 =>
      rwa [checkIp_v6_publicOnly, if_neg (Embedding.not_carries hcarries (by decide)),
        if_pos hcarries] at hadmitted
    | sixToFour => exact checkIp_v4_publicOnly.mpr fun hblocked => hpublic ⟨hcarries, hblocked⟩
    | compatible =>
      exact absurd hadmitted (checkIp_of_blocked hcarries (by decide) (by decide) (by decide +kernel))
    | localNat64 =>
      exact absurd hadmitted (checkIp_of_blocked hcarries (by decide) (by decide) (by decide +kernel))
    | teredo =>
      exact absurd hadmitted (checkIp_of_blocked hcarries (by decide) (by decide) (by decide +kernel))

/-! ### Loopback -/

theorem checkIpv4_allowLoopback {inner : Ipv4Addr} (hadmitted : checkIpv4 inner .allowLoopback = .ok ()) :
    checkIpv4 inner .publicOnly = .ok () ∨ (IpAddr.v4 inner).isLoopback := by
  by_cases hloopback : (IpAddr.v4 inner).isLoopback = true
  · exact .inr hloopback
  · rw [checkIpv4, if_neg fun hboth => hloopback hboth.2] at hadmitted
    rw [checkIpv4, if_neg fun hboth => hloopback hboth.2]
    exact .inl hadmitted

def ReachesLoopback (ip : IpAddr) : Prop :=
  ip.isLoopback ∨ ∃ embedding address, ip = .v6 address ∧ embedding.Carries address ∧
    (IpAddr.v4 (Embedding.address embedding address)).isLoopback

theorem checkIp_allowLoopback {ip : IpAddr} (hadmitted : checkIp ip .allowLoopback = .ok ()) :
    checkIp ip .publicOnly = .ok () ∨ ReachesLoopback ip := by
  by_cases hloopback : ip.isLoopback = true
  · exact .inr (.inl hloopback)
  cases ip with
  | v4 inner => exact (checkIpv4_allowLoopback hadmitted).imp_right .inl
  | v6 address =>
    unfold checkIp at hadmitted ⊢
    simp only at hadmitted ⊢
    rw [if_neg fun hboth => hloopback hboth.2] at hadmitted ⊢
    cases hmapped : toIpv4Mapped address with
    | some inner =>
      rw [hmapped] at hadmitted
      obtain ⟨hcarries, rfl⟩ := Embedding.toIpv4Mapped_eq_some_iff.mp hmapped
      exact (checkIpv4_allowLoopback hadmitted).imp_right fun hinner =>
        .inr ⟨.mapped, address, rfl, hcarries, hinner⟩
    | none =>
      rw [hmapped] at hadmitted
      simp only at hadmitted ⊢
      split at hadmitted
      next hin =>
        rw [if_pos hin]
        have hnat64 : ipv6Prefix "64:ff9b::" = Embedding.nat64.network.1 := by decide +kernel
        rw [hnat64] at hin
        exact (checkIpv4_allowLoopback hadmitted).imp_right fun hinner =>
          .inr ⟨.nat64, address, rfl, hin, hinner⟩
      next hin =>
        rw [if_neg hin]
        exact .inl hadmitted

/-- What an IPv6 address carries is judged with it unless it is a 6to4 address, which passes with any
address inside; loopback is all that the second policy adds. -/
theorem embeddedAddress_admitted_iff (address : Ipv6Addr) (ip : IpAddr) :
    (AdmitsInside address ↔ ¬ (Embedding.sixToFour.Carries address ∧
      blockedIpv4Prefixes.any fun (network, bits) =>
        ipv4InPrefix (Embedding.sixToFour.address address) network bits)) ∧
      (checkIp ip .allowLoopback = .ok () → checkIp ip .publicOnly = .ok () ∨ ReachesLoopback ip) :=
  ⟨admitsInside_iff address, checkIp_allowLoopback⟩

/-- `2002:a00:1::` is the 6to4 network of `10.0.0.1`. -/
theorem sixToFour_private_admitted :
    ¬ AdmitsInside (ipv6 [0x2002, 0x0a00, 1, 0, 0, 0, 0, 0]) := by
  have hcarries : Embedding.sixToFour.Carries (ipv6 [0x2002, 0x0a00, 1, 0, 0, 0, 0, 0]) := by decide
  have hprivate : Embedding.sixToFour.address (ipv6 [0x2002, 0x0a00, 1, 0, 0, 0, 0, 0]) =
      ipv4 10 0 0 1 := by decide
  intro hinside
  have hadmitted := hinside _ hcarries (checkIp_sixToFour hcarries)
  rw [hprivate, checkIp_v4_publicOnly] at hadmitted
  exact hadmitted (by decide)

end IronCrew
