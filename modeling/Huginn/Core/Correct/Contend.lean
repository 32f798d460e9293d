import Huginn.Core.Correct.Listeners
import Mathlib.Data.Set.Basic

/-!
# Which addresses a socket serves

Two sockets on one port contend when there is an address that both would serve. `addressesContend`
decides that, except that it takes an IPv4-mapped IPv6 address for one of IPv6, when what it serves
is IPv4 (`addressesContend_exact_iff`).
-/

namespace Huginn

/-! ### The addresses served -/

/-- A socket on an IPv4 address: every one of IPv4 when it is the unspecified one. -/
def servesIpv4 (ip : Ipv4Addr) : Set IpAddr :=
  {x | ∃ y, x = .v4 y ∧ (ip.isUnspecified = true ∨ ip = y)}

/-- The addresses that a socket serves. One on the unspecified IPv6 address is dual-stack, and one
on an IPv4-mapped address is one on the IPv4 address. -/
def serves : IpAddr → Set IpAddr
  | .v4 ip => servesIpv4 ip
  | .v6 ip =>
    match ip.toIpv4Mapped with
    | some ip => servesIpv4 ip
    | none => if ip.isUnspecified then Set.univ else {.v6 ip}

/-- The IPv4 address that an address stands for. -/
def IpAddr.asIpv4 : IpAddr → Option Ipv4Addr
  | .v4 ip => some ip
  | .v6 ip => ip.toIpv4Mapped

/-- Both stand for an IPv4 address, one of them as an IPv4-mapped one, and serve a common one. -/
def MappedClash (a b : IpAddr) : Prop :=
  (a.isIpv6 = true ∨ b.isIpv6 = true) ∧ a ≠ b ∧ ∃ x ∈ a.asIpv4, ∃ y ∈ b.asIpv4,
    x = y ∨ x.isUnspecified = true ∨ y.isUnspecified = true

/-! ### Three kinds of addresses -/

theorem serves_of_asIpv4 {a : IpAddr} {x : Ipv4Addr} (h : a.asIpv4 = some x) :
    serves a = servesIpv4 x := by
  cases a with
  | v4 ip =>
    obtain rfl := Option.some.inj h
    rfl
  | v6 ip =>
    have hmapped : ip.toIpv4Mapped = some x := h
    simp only [serves, hmapped]

/-- An address that stands for none of IPv4 is the unspecified one, or serves only itself. -/
theorem serves_of_asIpv4_eq_none {a : IpAddr} (h : a.asIpv4 = none) :
    a.isIpv6 = true ∧ serves a = if a.isUnspecified then Set.univ else {a} := by
  cases a with
  | v4 ip => cases h
  | v6 ip =>
    have hmapped : ip.toIpv4Mapped = none := h
    refine ⟨rfl, ?_⟩
    simp only [serves, hmapped]
    rfl

theorem servesIpv4_inter_nonempty_iff (x y : Ipv4Addr) :
    (servesIpv4 x ∩ servesIpv4 y).Nonempty ↔
      x = y ∨ x.isUnspecified = true ∨ y.isUnspecified = true := by
  constructor
  · rintro ⟨-, ⟨z, rfl, hx⟩, ⟨w, hw, hy⟩⟩
    obtain rfl := IpAddr.v4.inj hw
    rcases hx with hx | rfl
    · exact .inr (.inl hx)
    · rcases hy with hy | rfl
      · exact .inr (.inr hy)
      · exact .inl rfl
  · rintro (rfl | hx | hy)
    · exact ⟨.v4 x, ⟨x, rfl, .inr rfl⟩, ⟨x, rfl, .inr rfl⟩⟩
    · exact ⟨.v4 y, ⟨y, rfl, .inl hx⟩, ⟨y, rfl, .inr rfl⟩⟩
    · exact ⟨.v4 x, ⟨x, rfl, .inr rfl⟩, ⟨x, rfl, .inl hy⟩⟩

theorem serves_nonempty (a : IpAddr) : (serves a).Nonempty := by
  cases h : a.asIpv4 with
  | some x =>
    rw [serves_of_asIpv4 h]
    exact ⟨.v4 x, x, rfl, .inr rfl⟩
  | none =>
    rw [(serves_of_asIpv4_eq_none h).2]
    split_ifs
    · exact ⟨a, trivial⟩
    · exact ⟨a, rfl⟩

theorem addressesContend_iff (a b : IpAddr) : addressesContend a b = true ↔
    a = b ∨ (a.isUnspecified = true ∧ (a.isIpv6 = true ∨ b.isIpv4 = true)) ∨
      (b.isUnspecified = true ∧ (b.isIpv6 = true ∨ a.isIpv4 = true)) := by
  simp only [addressesContend, Bool.or_eq_true, Bool.and_eq_true, decide_eq_true_eq, or_assoc]

theorem asIpv4_of_unspecified {a : IpAddr} (h : a.isUnspecified = true) (hv6 : a.isIpv6 = true) :
    a.asIpv4 = none := by
  cases a with
  | v4 ip => cases hv6
  | v6 ip =>
    have hsegments : ip.segments = [0, 0, 0, 0, 0, 0, 0, 0] := of_decide_eq_true h
    show ip.toIpv4Mapped = none
    rw [Ipv6Addr.toIpv4Mapped, hsegments]
    rfl

theorem isIpv4_eq_false {a : IpAddr} (h : a.isIpv6 = true) : a.isIpv4 = false := by
  cases a with
  | v4 ip => cases h
  | v6 ip => rfl

/-! ### The verdict -/

/-- An address that stands for none of IPv4 is judged rightly, whatever the other is. -/
theorem addressesContend_iff_of_none {a b : IpAddr} (h : a.asIpv4 = none) :
    addressesContend a b = true ↔ (serves a ∩ serves b).Nonempty := by
  obtain ⟨hv6, hserves⟩ := serves_of_asIpv4_eq_none h
  rw [addressesContend_iff, hserves]
  split_ifs with hu
  · rw [Set.univ_inter]
    exact iff_of_true (.inr (.inl ⟨hu, .inl hv6⟩)) (serves_nonempty b)
  · rw [Set.singleton_inter_nonempty]
    have hself : a.isIpv4 = false := isIpv4_eq_false hv6
    cases hb : b.asIpv4 with
    | none =>
      obtain ⟨hbv6, hbserves⟩ := serves_of_asIpv4_eq_none hb
      rw [hbserves]
      split_ifs with hbu
      · exact iff_of_true (.inr (.inr ⟨hbu, .inl hbv6⟩)) trivial
      · simp [hu, hbu]
    | some y =>
      have hne : a ≠ b := by
        rintro rfl
        rw [h] at hb
        cases hb
      have hbu : ¬ (b.isUnspecified = true ∧ b.isIpv6 = true) := by
        rintro ⟨hbu, hbv6⟩
        rw [asIpv4_of_unspecified hbu hbv6] at hb
        cases hb
      rw [serves_of_asIpv4 hb]
      refine iff_of_false ?_ ?_
      · rintro (heq | ⟨hau, -⟩ | ⟨hbu', hbv6 | hav4⟩)
        · exact hne heq
        · exact hu hau
        · exact hbu ⟨hbu', hbv6⟩
        · rw [hself] at hav4
          cases hav4
      · rintro ⟨z, rfl, -⟩
        cases hv6

/-- Two addresses that stand for one of IPv4: equal ones contend, and a wildcard with any other if
both are written as IPv4. -/
theorem addressesContend_iff_of_some {a b : IpAddr} {x y : Ipv4Addr} (ha : a.asIpv4 = some x)
    (hb : b.asIpv4 = some y) : addressesContend a b = true ↔
      a = b ∨ ((a.isIpv6 = false ∧ b.isIpv6 = false) ∧
        (x.isUnspecified = true ∨ y.isUnspecified = true)) := by
  have hmapped : ∀ {ip : Ipv6Addr} {z : Ipv4Addr}, (IpAddr.v6 ip).asIpv4 = some z →
      ¬ (IpAddr.v6 ip).isUnspecified = true := by
    intro ip z hz hu
    rw [asIpv4_of_unspecified hu rfl] at hz
    cases hz
  rw [addressesContend_iff]
  cases a with
  | v4 p =>
    obtain rfl := Option.some.inj ha
    cases b with
    | v4 q =>
      obtain rfl := Option.some.inj hb
      simp [IpAddr.isUnspecified, IpAddr.isIpv4, IpAddr.isIpv6]
    | v6 q => simp [IpAddr.isIpv4, IpAddr.isIpv6, hmapped hb]
  | v6 p =>
    cases b with
    | v4 q => simp [IpAddr.isIpv4, IpAddr.isIpv6, hmapped ha]
    | v6 q => simp [IpAddr.isIpv4, IpAddr.isIpv6, hmapped ha, hmapped hb]

/-! ### The clashes that are missed -/

theorem not_mappedClash_left {a b : IpAddr} (h : a.asIpv4 = none) : ¬ MappedClash a b := by
  rintro ⟨-, -, x, hx, -⟩
  rw [h] at hx
  cases hx

theorem not_mappedClash_right {a b : IpAddr} (h : b.asIpv4 = none) : ¬ MappedClash a b := by
  rintro ⟨-, -, x, -, y, hy, -⟩
  rw [h] at hy
  cases hy

theorem mappedClash_iff_of_some {a b : IpAddr} {x y : Ipv4Addr} (ha : a.asIpv4 = some x)
    (hb : b.asIpv4 = some y) : MappedClash a b ↔ ¬ (a.isIpv6 = false ∧ b.isIpv6 = false) ∧ a ≠ b ∧
      (x = y ∨ x.isUnspecified = true ∨ y.isUnspecified = true) := by
  simp only [MappedClash, ha, hb, Option.mem_some_iff, exists_eq_left', not_and_or,
    Bool.not_eq_false]

/-- Two addresses that are written as IPv4 are equal when they stand for the same one. -/
theorem eq_of_asIpv4_eq {a b : IpAddr} (ha : a.isIpv6 = false) (hb : b.isIpv6 = false)
    (h : a.asIpv4 = b.asIpv4) : a = b := by
  cases a with
  | v6 p => cases ha
  | v4 p =>
    cases b with
    | v6 q => cases hb
    | v4 q => rw [Option.some.inj h]

/-- Two addresses that stand for one of IPv4 are judged rightly, unless the clash is missed. -/
theorem addressesContend_iff_of_some_iff {a b : IpAddr} {x y : Ipv4Addr} (ha : a.asIpv4 = some x)
    (hb : b.asIpv4 = some y) : (addressesContend a b = true ↔ (serves a ∩ serves b).Nonempty) ↔
      ¬ MappedClash a b := by
  rw [addressesContend_iff_of_some ha hb, serves_of_asIpv4 ha, serves_of_asIpv4 hb,
    servesIpv4_inter_nonempty_iff, mappedClash_iff_of_some ha hb]
  constructor
  · rintro hiff ⟨hmapped, hne, hcommon⟩
    rcases hiff.mpr hcommon with heq | ⟨hv4, -⟩
    · exact hne heq
    · exact hmapped hv4
  · intro hno
    constructor
    · rintro (rfl | ⟨-, hwild⟩)
      · exact .inl (Option.some.inj (ha.symm.trans hb))
      · exact .inr hwild
    · intro hcommon
      by_cases hv4 : a.isIpv6 = false ∧ b.isIpv6 = false
      · rcases hcommon with rfl | hwild
        · exact .inl (eq_of_asIpv4_eq hv4.1 hv4.2 (ha.trans hb.symm))
        · exact .inr ⟨hv4, hwild⟩
      · exact .inl (by_contra fun hne => hno ⟨hv4, hne, hcommon⟩)

/-- When the verdict is right. -/
theorem contend_iff_common_iff (a b : IpAddr) :
    (addressesContend a b = true ↔ (serves a ∩ serves b).Nonempty) ↔ ¬ MappedClash a b := by
  cases ha : a.asIpv4 with
  | none => exact iff_of_true (addressesContend_iff_of_none ha) (not_mappedClash_left ha)
  | some x =>
    cases hb : b.asIpv4 with
    | none =>
      refine iff_of_true ?_ (not_mappedClash_right hb)
      rw [addressesContend_comm, Set.inter_comm]
      exact addressesContend_iff_of_none hb
    | some y => exact addressesContend_iff_of_some_iff ha hb

/-- **Contention is a common address, unless a mapped address is involved.** The verdict is wrong
for exactly the pairs of a mapped address and another that stands for IPv4, which differ but serve a
common address; they are told not to contend. The order of the two never matters. -/
theorem addressesContend_exact_iff (a b : IpAddr) :
    ((addressesContend a b = true ↔ (serves a ∩ serves b).Nonempty) ↔ ¬ MappedClash a b) ∧
      addressesContend a b = addressesContend b a :=
  ⟨contend_iff_common_iff a b, addressesContend_comm a b⟩

/-- The loopback address of IPv4, mapped to IPv6. -/
def mappedLocalhost : IpAddr := .v6 ⟨[0, 0, 0, 0, 0, 0xFFFF, 0x7F00, 1], rfl⟩

/-- It and the address itself. -/
theorem mapped_loopback_missed :
    addressesContend mappedLocalhost (.v4 .LOCALHOST) = false ∧
    (serves mappedLocalhost ∩ serves (.v4 .LOCALHOST)).Nonempty := by
  refine ⟨by decide, .v4 .LOCALHOST, ?_, ?_⟩
  · exact ⟨_, rfl, .inr (by decide)⟩
  · exact ⟨_, rfl, .inr rfl⟩

end Huginn
