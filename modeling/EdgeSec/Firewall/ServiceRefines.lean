import EdgeSec.Firewall.Service
import EdgeSec.Firewall.Rules
import EdgeSec.Lib.Machine

/-!
# The firewall service keeps the rules it is asked for

`Firewall/Rules` says what the firewall is for: a set of addresses with NAT and a set of
bridged pairs of addresses (`FwContext`).  Here the service of `Firewall/Service`, running
over the iptables backend, is shown to hold in its two chains exactly the rules those sets
call for, along every run of commands in which each listing of a chain reaches the backend in
one read (the runs of `Utils/IptablesOneRead`; `Utils/IptablesBridge` shows what goes wrong
otherwise), whatever text `iptables -L` prints as long as it reads back (`Listing`).
`specStep` is the abstract machine: the two sets, with a command that names an address outside
the configured subnets refused, and an add that names an address `validate_ipv4_string`
refuses refused too, since the backend inserts no rule for it.

`Abstracts` relates the two machines: `FORWARD` holds the start-up rules and, once each, the
`ACCEPT` rules of every bridge direction and of every NAT address (`AcceptOf`), each before
the base rule of its input interface; `POSTROUTING` holds the `MASQUERADE` rule of every NAT
address.  Along a run the abstract sets name only addresses the backend can write into a rule
(`AddrsOk`).  What the chains then do to a packet is the subject of `Firewall/Verdict`.

## Main results

* `abstracts_fwInitContext`: start-up relates the service to the empty firewall;
* `abstracts_fwStep`: one command, whose listings fit in one read, keeps the relation and
  gives the reply of the abstract machine;
* `abstracts_run`: so does every such run.
-/

namespace EdgeSec.FirewallService

open Os Iptables IfaceMapper ListEdit Machine

/-! ## Addresses that resolve -/

/-- The address resolves among the configured subnets: `get_ifname_from_ip` returns `0`. -/
def Resolvable (arr : List Ifinfo) (x : List Char) : Prop := (getIfnameFromIp arr x).1 = 0

instance (arr : List Ifinfo) (x : List Char) : Decidable (Resolvable arr x) :=
  inferInstanceAs (Decidable (_ = _))

/-- The interface `get_ifname_from_ip` gives an address. -/
def ifnameOf (arr : List Ifinfo) (x : List Char) : List Char := (getIfnameFromIp arr x).2.getD []

section Resolvable

variable {arr : List Ifinfo} {x : List Char} (h : Resolvable arr x)
include h

/-- A resolving address has the entry `find_ifinfo` found for it. -/
theorem Resolvable.findIfinfo : ∃ p, findIfinfo arr x = (0, some p) := by
  refine findIfinfo_fst_eq_zero ?_
  by_contra hne
  have hneg : getIfnameFromIp arr x = (-1, none) := getNameFromIp_of_ne hne
  rw [Resolvable, hneg] at h
  exact absurd h (by decide)

theorem Resolvable.getIfnameFromIp : getIfnameFromIp arr x = (0, some (ifnameOf arr x)) := by
  obtain ⟨p, hp⟩ := h.findIfinfo
  rw [ifnameOf, IfaceMapper.getIfnameFromIp, getNameFromIp_of_findIfinfo hp, Option.getD_some]

/-- The interface of a resolving address is that of a configured entry. -/
theorem Resolvable.entry : ∃ p ∈ arr, ifnameOf arr x = p.ifname := by
  obtain ⟨p, hp⟩ := h.findIfinfo
  refine ⟨p, (findIfinfo_eq_some hp).1, ?_⟩
  rw [ifnameOf, IfaceMapper.getIfnameFromIp, getNameFromIp_of_findIfinfo hp, Option.getD_some]

/-- A resolving address converts: `inet_network` does not return `INADDR_NONE` for it. -/
theorem Resolvable.inetNetwork_ne : Net.inetNetwork x ≠ Net.inaddrNone := by
  obtain ⟨p, hp⟩ := h.findIfinfo
  obtain ⟨a, ha⟩ := Option.isSome_iff_exists.1 (findIfinfo_eq_some hp).2.1.2
  unfold ip2Nbo at ha
  dsimp only at ha
  split_ifs at ha with hmask haddr
  exact haddr

/-- So it is neither of the two address columns with a netmask: `inet_network` stops at the
`/`. -/
theorem Resolvable.ne_any : x ≠ "0.0.0.0/0".toList := by
  rintro rfl
  exact h.inetNetwork_ne (by decide)

theorem Resolvable.ne_multicast : x ≠ "224.0.0.0/4".toList := by
  rintro rfl
  exact h.inetNetwork_ne (by decide)

end Resolvable

/-! ## Addresses the backend writes into rules -/

/-- An address `validate_ipv4_string` accepts and that, as a C string, holds no NUL. -/
def IsAddr (x : List Char) : Prop := Net.validateIpv4String x = true ∧ '\x00' ∉ x

instance (x : List Char) : Decidable (IsAddr x) := instDecidableAnd

/-- Such an address is a column that reads back whole: at most eighteen characters, none of
them a blank. -/
theorem IsAddr.fitsColumn {x : List Char} (h : IsAddr x) : FitsColumn Net.osInetAddrstrlen x := by
  have hlen := Net.length_le_of_validateIpv4String h.1 h.2
  have hchar : ∀ c, ¬ (c.isDigit = true ∨ c = '.' ∨ c = '/' ∨ c = '+' ∨ c = '-') → c ∉ x :=
    fun c hc hx => hc (Net.mem_of_validateIpv4String h.1 h.2 hx)
  refine ⟨?_, hchar ' ' (by decide), hchar '\n' (by decide), h.2, ?_⟩
  · rintro rfl
    exact absurd h.1 (by rw [Net.validateIpv4String_nil]; decide)
  · unfold Net.osInetAddrstrlen
    omega

/-! ## The rules the abstract firewall calls for -/

theorem accept_ne_reject : "ACCEPT".toList ≠ "REJECT".toList := by decide

theorem any_ne_multicast : "0.0.0.0/0".toList ≠ "224.0.0.0/4".toList := by decide

theorem fitsColumn_accept : FitsColumn 20 "ACCEPT".toList := by decide

theorem fitsColumn_any : FitsColumn Net.osInetAddrstrlen "0.0.0.0/0".toList := by decide

theorem validateIpv4String_any : Net.validateIpv4String "0.0.0.0/0".toList = true := by decide

theorem multicastRule_fits : multicastRule.Fits := by
  simp only [multicastRule]
  decide

theorem fitsColumn_reject : FitsColumn 20 "REJECT".toList := by decide

theorem fitsColumn_masquerade : FitsColumn 20 "MASQUERADE".toList := by decide

theorem fitsColumn_star : FitsColumn ifNamesize "*".toList := by decide

theorem baseRule_fits {ifname : List Char} (h : FitsColumn ifNamesize ifname) :
    (baseRule ifname).Fits :=
  ⟨fitsColumn_reject, h, fitsColumn_star, fitsColumn_any, fitsColumn_any⟩

theorem masqueradeRule_fits {x nif : List Char} (hx : FitsColumn Net.osInetAddrstrlen x)
    (hnif : FitsColumn ifNamesize nif) : (masqueradeRule x nif).Fits :=
  ⟨fitsColumn_masquerade, fitsColumn_star, hnif, hx, fitsColumn_any⟩

section Rules

variable (arr : List Ifinfo) (nif : List Char)

/-- The rule `iptables_add_bridge` inserts for traffic from `x` to `y`. -/
def acceptRule (x y : List Char) : Rule :=
  bridgeRule x (ifnameOf arr x) y (ifnameOf arr y) "ACCEPT".toList

/-- The rule `iptables_add_nat` inserts for traffic from `x` out of the NAT interface. -/
def natOutRule (x : List Char) : Rule :=
  bridgeRule x (ifnameOf arr x) "0.0.0.0/0".toList nif "ACCEPT".toList

/-- The rule `iptables_add_nat` inserts for traffic from the NAT interface to `x`. -/
def natInRule (x : List Char) : Rule :=
  bridgeRule "0.0.0.0/0".toList nif x (ifnameOf arr x) "ACCEPT".toList

/-- The rules start-up leaves in `FORWARD`. -/
def setupRules : List Rule := (setupChains arr).forward

/-- The `ACCEPT` rules the abstract firewall `A` calls for: both directions of every bridge,
and the two rules of every NAT address.  A rule names its pair, or its NAT address, by its own
address columns. -/
def AcceptOf (A : Firewall.FwContext (List Char)) (r : Rule) : Prop :=
  (s(r.source, r.destination) ∈ A.bridges ∧ r = acceptRule arr r.source r.destination) ∨
    (r.source ∈ A.natIps ∧ r = natOutRule arr nif r.source) ∨
    (r.destination ∈ A.natIps ∧ r = natInRule arr nif r.destination)

instance (A : Firewall.FwContext (List Char)) : DecidablePred (AcceptOf arr nif A) :=
  fun _ => instDecidableOr

/-- The `MASQUERADE` rules the abstract firewall `A` calls for. -/
def MasqOf (A : Firewall.FwContext (List Char)) (r : Rule) : Prop :=
  r.source ∈ A.natIps ∧ r = masqueradeRule r.source nif

instance (A : Firewall.FwContext (List Char)) : DecidablePred (MasqOf nif A) :=
  fun _ => instDecidableAnd

/-- What the configuration gives the rules: every interface name, the NAT one too, is a column
that reads back whole, and none is `*`. -/
structure ConfigOk : Prop where
  ifname_fits : ∀ p ∈ arr, FitsColumn ifNamesize p.ifname
  ifname_ne_star : ∀ p ∈ arr, p.ifname ≠ "*".toList
  nif_fits : FitsColumn ifNamesize nif
  nif_ne_star : nif ≠ "*".toList

instance : Decidable (ConfigOk arr nif) :=
  decidable_of_iff ((∀ p ∈ arr, FitsColumn ifNamesize p.ifname) ∧
      (∀ p ∈ arr, p.ifname ≠ "*".toList) ∧ FitsColumn ifNamesize nif ∧ nif ≠ "*".toList)
    ⟨fun ⟨h₁, h₂, h₃, h₄⟩ => ⟨h₁, h₂, h₃, h₄⟩,
      fun h => ⟨h.ifname_fits, h.ifname_ne_star, h.nif_fits, h.nif_ne_star⟩⟩

/-- The abstract firewall names only addresses that resolve. -/
abbrev Resolves (A : Firewall.FwContext (List Char)) : Prop := A.Names (Resolvable arr)

end Rules

/-- The abstract firewall names only addresses the backend can write into a rule. -/
abbrev AddrsOk (A : Firewall.FwContext (List Char)) : Prop := A.Names IsAddr

section Distinct

variable {arr : List Ifinfo} {nif : List Char}

@[simp] theorem acceptRule_source (x y : List Char) : (acceptRule arr x y).source = x := rfl
@[simp] theorem acceptRule_destination (x y : List Char) : (acceptRule arr x y).destination = y :=
  rfl
@[simp] theorem acceptRule_target (x y : List Char) :
    (acceptRule arr x y).target = "ACCEPT".toList := rfl
@[simp] theorem natOutRule_source (x : List Char) : (natOutRule arr nif x).source = x := rfl
@[simp] theorem natOutRule_destination (x : List Char) :
    (natOutRule arr nif x).destination = "0.0.0.0/0".toList := rfl
@[simp] theorem natInRule_source (x : List Char) :
    (natInRule arr nif x).source = "0.0.0.0/0".toList := rfl
@[simp] theorem natInRule_destination (x : List Char) : (natInRule arr nif x).destination = x :=
  rfl

theorem acceptRule_inj {x y x' y' : List Char} (h : acceptRule arr x y = acceptRule arr x' y') :
    x = x' ∧ y = y' :=
  ⟨congrArg Rule.source h, congrArg Rule.destination h⟩

/-- The rules of one abstract firewall, by how they are told apart: a bridge rule has two
resolving addresses, a NAT rule the address `0.0.0.0/0` on one side. -/
theorem acceptRule_ne_natOutRule {x y z : List Char} (hy : Resolvable arr y) :
    acceptRule arr x y ≠ natOutRule arr nif z :=
  fun h => hy.ne_any (congrArg Rule.destination h)

theorem acceptRule_ne_natInRule {x y z : List Char} (hx : Resolvable arr x) :
    acceptRule arr x y ≠ natInRule arr nif z :=
  fun h => hx.ne_any (congrArg Rule.source h)

theorem natOutRule_ne_natInRule {x z : List Char} (hx : Resolvable arr x) :
    natOutRule arr nif x ≠ natInRule arr nif z :=
  fun h => hx.ne_any (congrArg Rule.source h)

/-- No `ACCEPT` rule the abstract firewall calls for is a start-up rule. -/
theorem count_setupRules_eq_zero {r : Rule} (ht : r.target = "ACCEPT".toList)
    (hs : r.source ≠ "224.0.0.0/4".toList) : (setupRules arr).count r = 0 := by
  rw [List.count_eq_zero, setupRules, setupChains]
  intro hr
  rcases List.mem_cons.1 hr with rfl | hr
  · exact hs rfl
  · obtain ⟨p, -, rfl⟩ := List.mem_map.1 hr
    exact accept_ne_reject ht.symm

theorem count_setupRules_acceptRule {x : List Char} (hx : Resolvable arr x) (y : List Char) :
    (setupRules arr).count (acceptRule arr x y) = 0 :=
  count_setupRules_eq_zero rfl hx.ne_multicast

theorem count_setupRules_natOutRule {x : List Char} (hx : Resolvable arr x) :
    (setupRules arr).count (natOutRule arr nif x) = 0 :=
  count_setupRules_eq_zero rfl hx.ne_multicast

theorem count_setupRules_natInRule (x : List Char) :
    (setupRules arr).count (natInRule arr nif x) = 0 :=
  count_setupRules_eq_zero rfl any_ne_multicast

end Distinct

/-! ## How the abstract firewall's rules move -/

section Updates

variable {arr : List Ifinfo} {nif : List Char} {A : Firewall.FwContext (List Char)}

theorem acceptOf_fwAddBridge (x y : List Char) (r : Rule) :
    AcceptOf arr nif (Firewall.fwAddBridge A x y) r ↔
      AcceptOf arr nif A r ∨ r = acceptRule arr x y ∨ r = acceptRule arr y x := by
  unfold AcceptOf
  rw [Firewall.fwAddBridge_bridges, Firewall.fwAddBridge_natIps, Finset.mem_insert]
  constructor
  · rintro (⟨hb | hb, hr⟩ | hnat)
    · -- the new pair: `r` is the rule of one of its directions
      rcases Sym2.eq_iff.1 hb with ⟨h1, h2⟩ | ⟨h1, h2⟩
      · exact .inr (.inl (by rw [hr, h1, h2]))
      · exact .inr (.inr (by rw [hr, h1, h2]))
    · exact .inl (.inl ⟨hb, hr⟩)
    · exact .inl (.inr hnat)
  · rintro ((⟨hb, hr⟩ | hnat) | rfl | rfl)
    · exact .inl ⟨.inr hb, hr⟩
    · exact .inr hnat
    · exact .inl ⟨.inl rfl, rfl⟩
    · exact .inl ⟨.inl Sym2.eq_swap, rfl⟩

theorem acceptOf_fwRemoveBridge {x y : List Char} (hx : Resolvable arr x) (hy : Resolvable arr y)
    (r : Rule) :
    AcceptOf arr nif (Firewall.fwRemoveBridge A x y) r ↔
      AcceptOf arr nif A r ∧ r ≠ acceptRule arr x y ∧ r ≠ acceptRule arr y x := by
  unfold AcceptOf
  rw [Firewall.fwRemoveBridge_bridges, Firewall.fwRemoveBridge_natIps, Finset.mem_erase]
  constructor
  · rintro (⟨⟨hne, hb⟩, hr⟩ | ⟨hn, hr⟩ | ⟨hn, hr⟩)
    · refine ⟨.inl ⟨hb, hr⟩, fun he => hne ?_, fun he => hne ?_⟩
      · rw [he]
        rfl
      · rw [he]
        exact Sym2.eq_swap
    · -- a NAT rule is no bridge rule
      exact ⟨.inr (.inl ⟨hn, hr⟩), fun he => acceptRule_ne_natOutRule hy (he.symm.trans hr),
        fun he => acceptRule_ne_natOutRule hx (he.symm.trans hr)⟩
    · exact ⟨.inr (.inr ⟨hn, hr⟩), fun he => acceptRule_ne_natInRule hx (he.symm.trans hr),
        fun he => acceptRule_ne_natInRule hy (he.symm.trans hr)⟩
  · rintro ⟨⟨hb, hr⟩ | hnat, hne₁, hne₂⟩
    · refine .inl ⟨⟨fun he => ?_, hb⟩, hr⟩
      rcases Sym2.eq_iff.1 he with ⟨h1, h2⟩ | ⟨h1, h2⟩
      · exact hne₁ (by rw [hr, h1, h2])
      · exact hne₂ (by rw [hr, h1, h2])
    · exact .inr hnat

theorem acceptOf_fwAddNat (x : List Char) (r : Rule) :
    AcceptOf arr nif (Firewall.fwAddNat A x) r ↔
      AcceptOf arr nif A r ∨ r = natOutRule arr nif x ∨ r = natInRule arr nif x := by
  unfold AcceptOf
  rw [Firewall.fwAddNat_bridges, Firewall.fwAddNat_natIps, Finset.mem_insert, Finset.mem_insert]
  constructor
  · rintro (hb | ⟨hn | hn, hr⟩ | ⟨hn | hn, hr⟩)
    · exact .inl (.inl hb)
    · exact .inr (.inl (by rw [hr, hn]))
    · exact .inl (.inr (.inl ⟨hn, hr⟩))
    · exact .inr (.inr (by rw [hr, hn]))
    · exact .inl (.inr (.inr ⟨hn, hr⟩))
  · rintro ((hb | ⟨hn, hr⟩ | ⟨hn, hr⟩) | rfl | rfl)
    · exact .inl hb
    · exact .inr (.inl ⟨.inr hn, hr⟩)
    · exact .inr (.inr ⟨.inr hn, hr⟩)
    · exact .inr (.inl ⟨.inl rfl, rfl⟩)
    · exact .inr (.inr ⟨.inl rfl, rfl⟩)

theorem acceptOf_fwRemoveNat (hres : Resolves arr A) {x : List Char} (hx : Resolvable arr x)
    (r : Rule) :
    AcceptOf arr nif (Firewall.fwRemoveNat A x) r ↔
      AcceptOf arr nif A r ∧ r ≠ natOutRule arr nif x ∧ r ≠ natInRule arr nif x := by
  unfold AcceptOf
  rw [Firewall.fwRemoveNat_bridges, Firewall.fwRemoveNat_natIps, Finset.mem_erase,
    Finset.mem_erase]
  constructor
  · rintro (⟨hb, hr⟩ | ⟨⟨hne, hn⟩, hr⟩ | ⟨⟨hne, hn⟩, hr⟩)
    · -- a bridge rule is no NAT rule
      have hs := hres.bridge _ _ hb
      have hd := hres.bridge_right hb
      exact ⟨.inl ⟨hb, hr⟩, fun he => acceptRule_ne_natOutRule hd (hr.symm.trans he),
        fun he => acceptRule_ne_natInRule hs (hr.symm.trans he)⟩
    · refine ⟨.inr (.inl ⟨hn, hr⟩), fun he => hne ?_, fun he => ?_⟩
      · rw [he]
        rfl
      · exact natOutRule_ne_natInRule (hres.nat _ hn) (hr.symm.trans he)
    · refine ⟨.inr (.inr ⟨hn, hr⟩), fun he => ?_, fun he => hne ?_⟩
      · exact natOutRule_ne_natInRule hx (he.symm.trans hr)
      · rw [he]
        rfl
  · rintro ⟨hb | ⟨hn, hr⟩ | ⟨hn, hr⟩, hne₁, hne₂⟩
    · exact .inl hb
    · exact .inr (.inl ⟨⟨fun he => hne₁ (by rw [hr, he]), hn⟩, hr⟩)
    · exact .inr (.inr ⟨⟨fun he => hne₂ (by rw [hr, he]), hn⟩, hr⟩)

theorem masqOf_fwAddNat (x : List Char) (r : Rule) :
    MasqOf nif (Firewall.fwAddNat A x) r ↔ MasqOf nif A r ∨ r = masqueradeRule x nif := by
  unfold MasqOf
  rw [Firewall.fwAddNat_natIps, Finset.mem_insert]
  constructor
  · rintro ⟨hn | hn, hr⟩
    · exact .inr (by rw [hr, hn])
    · exact .inl ⟨hn, hr⟩
  · rintro (⟨hn, hr⟩ | rfl)
    · exact ⟨.inr hn, hr⟩
    · exact ⟨.inl rfl, rfl⟩

theorem masqOf_fwRemoveNat (x : List Char) (r : Rule) :
    MasqOf nif (Firewall.fwRemoveNat A x) r ↔ MasqOf nif A r ∧ r ≠ masqueradeRule x nif := by
  unfold MasqOf
  rw [Firewall.fwRemoveNat_natIps, Finset.mem_erase]
  constructor
  · rintro ⟨⟨hne, hn⟩, hr⟩
    refine ⟨⟨hn, hr⟩, fun he => hne ?_⟩
    rw [he]
    rfl
  · rintro ⟨⟨hn, hr⟩, hne⟩
    exact ⟨⟨fun he => hne (by rw [hr, he]), hn⟩, hr⟩

/-- The rule of a direction of two resolving addresses is called for exactly by their bridge:
a NAT rule has `0.0.0.0/0` on one side. -/
theorem acceptOf_acceptRule_iff {x y : List Char} (hx : Resolvable arr x)
    (hy : Resolvable arr y) : AcceptOf arr nif A (acceptRule arr x y) ↔ s(x, y) ∈ A.bridges := by
  constructor
  · rintro (⟨hb, -⟩ | ⟨-, he⟩ | ⟨-, he⟩)
    · exact hb
    · exact absurd he (acceptRule_ne_natOutRule hy)
    · exact absurd he (acceptRule_ne_natInRule hx)
  · intro hb
    exact .inl ⟨hb, rfl⟩

/-- The two rules of a resolving NAT address are called for exactly by its NAT: a bridge or a
NAT of `0.0.0.0/0` would name an address that does not resolve. -/
theorem acceptOf_natOutRule_iff (hres : Resolves arr A) {x : List Char} (hx : Resolvable arr x) :
    AcceptOf arr nif A (natOutRule arr nif x) ↔ x ∈ A.natIps := by
  constructor
  · rintro (⟨hb, -⟩ | ⟨hn, -⟩ | ⟨-, he⟩)
    · exact ((hres.bridge_right hb).ne_any rfl).elim
    · exact hn
    · exact absurd he (natOutRule_ne_natInRule hx)
  · intro hn
    exact .inr (.inl ⟨hn, rfl⟩)

theorem acceptOf_natInRule_iff (hres : Resolves arr A) (x : List Char) :
    AcceptOf arr nif A (natInRule arr nif x) ↔ x ∈ A.natIps := by
  constructor
  · rintro (⟨hb, -⟩ | ⟨hn, -⟩ | ⟨hn, -⟩)
    · exact ((hres.bridge _ _ hb).ne_any rfl).elim
    · exact ((hres.nat _ hn).ne_any rfl).elim
    · exact hn
  · intro hn
    exact .inr (.inr ⟨hn, rfl⟩)

theorem masqOf_masqueradeRule_iff (x : List Char) :
    MasqOf nif A (masqueradeRule x nif) ↔ x ∈ A.natIps :=
  ⟨fun h => h.1, fun h => ⟨h, rfl⟩⟩

end Updates

/-! ## Rules that read back, and their order -/

section Order

variable {arr : List Ifinfo} {nif : List Char} {A : Firewall.FwContext (List Char)}

theorem fitsColumn_ifnameOf (hcfg : ConfigOk arr nif) {x : List Char} (hx : Resolvable arr x) :
    FitsColumn ifNamesize (ifnameOf arr x) := by
  obtain ⟨p, hp, hname⟩ := hx.entry
  rw [hname]
  exact hcfg.ifname_fits p hp

theorem acceptRule_fits (hcfg : ConfigOk arr nif) {x y : List Char} (hx : Resolvable arr x)
    (hy : Resolvable arr y) (hx' : IsAddr x) (hy' : IsAddr y) : (acceptRule arr x y).Fits :=
  ⟨fitsColumn_accept, fitsColumn_ifnameOf hcfg hx, fitsColumn_ifnameOf hcfg hy, hx'.fitsColumn,
    hy'.fitsColumn⟩

theorem natOutRule_fits (hcfg : ConfigOk arr nif) {x : List Char} (hx : Resolvable arr x)
    (hx' : IsAddr x) : (natOutRule arr nif x).Fits :=
  ⟨fitsColumn_accept, fitsColumn_ifnameOf hcfg hx, hcfg.nif_fits, hx'.fitsColumn, fitsColumn_any⟩

theorem natInRule_fits (hcfg : ConfigOk arr nif) {x : List Char} (hx : Resolvable arr x)
    (hx' : IsAddr x) : (natInRule arr nif x).Fits :=
  ⟨fitsColumn_accept, hcfg.nif_fits, fitsColumn_ifnameOf hcfg hx, fitsColumn_any, hx'.fitsColumn⟩

theorem fits_of_acceptOf (hcfg : ConfigOk arr nif) (hres : Resolves arr A) (hok : AddrsOk A)
    {r : Rule} (hr : AcceptOf arr nif A r) : r.Fits := by
  rcases hr with ⟨hb, hr⟩ | ⟨hn, hr⟩ | ⟨hn, hr⟩
  · rw [hr]
    exact acceptRule_fits hcfg (hres.bridge _ _ hb) (hres.bridge_right hb) (hok.bridge _ _ hb)
      (hok.bridge_right hb)
  · rw [hr]
    exact natOutRule_fits hcfg (hres.nat _ hn) (hok.nat _ hn)
  · rw [hr]
    exact natInRule_fits hcfg (hres.nat _ hn) (hok.nat _ hn)

theorem fits_of_mem_setupRules (hcfg : ConfigOk arr nif) {r : Rule} (hr : r ∈ setupRules arr) :
    r.Fits := by
  rw [setupRules, setupChains] at hr
  rcases List.mem_cons.1 hr with rfl | hr
  · exact multicastRule_fits
  · obtain ⟨p, hp, rfl⟩ := List.mem_map.1 hr
    have hfit := hcfg.ifname_fits p hp
    rw [cStr_of_not_mem hfit.2.2.2.1]
    exact baseRule_fits hfit

theorem not_isBase_of_accept {q : Rule} (hq : q.target = "ACCEPT".toList) (ifname : List Char) :
    ¬ q.IsBase ifname :=
  fun h => accept_ne_reject (hq.symm.trans h.2.2)

/-- `r` comes before the first base rule of its input interface. -/
def Precedes (rules : List Rule) (r : Rule) : Prop :=
  r ∈ rules.takeWhile fun q => !decide (q.IsBase r.inIf)

theorem Precedes.erase {rules : List Rule} {r : Rule} (h : Precedes rules r) {a : Rule}
    (hne : r ≠ a) : Precedes (rules.erase a) r :=
  (takeWhile_erase_sublist _ a rules).subset ((List.mem_erase_of_ne hne).2 h)

/-- Inserting an `ACCEPT` rule anywhere keeps every rule before its base rule. -/
theorem Precedes.insertIdx {rules : List Rule} {r : Rule} (h : Precedes rules r) {a : Rule}
    (ha : a.target = "ACCEPT".toList) (i : ℕ) : Precedes (rules.insertIdx i a) r :=
  (takeWhile_sublist_insertIdx (by simp [not_isBase_of_accept ha]) rules i).subset h

theorem Precedes.cons {rules : List Rule} {r : Rule} (h : Precedes rules r) {a : Rule}
    (ha : a.target = "ACCEPT".toList) : Precedes (a :: rules) r := by
  have := h.insertIdx ha 0
  rwa [List.insertIdx_zero] at this

theorem Precedes.insertAccept {rules : List Rule} {r : Rule} (h : Precedes rules r)
    (sip sif dip dif : List Char) : Precedes (insertAccept rules sip sif dip dif) r :=
  h.insertIdx rfl _

/-- The rule `add_bridge_rule` inserts goes before the base rule of its input interface. -/
theorem precedes_insertAccept (rules : List Rule) (sip sif dip dif : List Char) :
    Precedes (insertAccept rules sip sif dip dif) (bridgeRule sip sif dip dif "ACCEPT".toList) :=
  mem_takeWhile_insertIdx_firstIdx _
    (by rw [decide_eq_false_iff_not]; exact not_isBase_of_accept rfl _) rules

theorem precedes_cons_self {a : Rule} (ha : a.target = "ACCEPT".toList) (rules : List Rule) :
    Precedes (a :: rules) a := by
  rw [Precedes, List.takeWhile_cons_of_pos (by simp [not_isBase_of_accept ha])]
  exact List.mem_cons_self

end Order

/-! ## The refinement relation -/

/-- The context holds the chains the abstract firewall `A` calls for: `FORWARD` has the start-up
rules and, once each, the `ACCEPT` rules of `A`, each before the base rule of its input
interface; `POSTROUTING` has, once each, the `MASQUERADE` rules of `A`. -/
structure Abstracts (arr : List Ifinfo) (nif : List Char) (A : Firewall.FwContext (List Char))
    (context : FwCtx) : Prop where
  config : context.configIfinfoArray = arr
  natInterface : context.natInterface = nif
  exec : context.fw.ctx.execIptables = true
  resolves : Resolves arr A
  forward : CountsAs context.fw.chains.forward (fun r => (setupRules arr).count r)
    (AcceptOf arr nif A)
  postrouting : CountsAs context.fw.chains.postrouting (fun _ => 0) (MasqOf nif A)
  precedes : ∀ r, AcceptOf arr nif A r → Precedes context.fw.chains.forward r

section Relation

variable {arr : List Ifinfo} {nif : List Char} {A : Firewall.FwContext (List Char)}
  {context : FwCtx} {L : Listing}

theorem Abstracts.fits (hcfg : ConfigOk arr nif) (hok : AddrsOk A)
    (h : Abstracts arr nif A context) {r : Rule} (hr : r ∈ context.fw.chains.forward) : r.Fits := by
  rcases (h.forward.mem_iff r).1 hr with hs | ha
  · exact fits_of_mem_setupRules hcfg (List.count_pos_iff.1 hs)
  · exact fits_of_acceptOf hcfg h.resolves hok ha

theorem Abstracts.fits_postrouting (hcfg : ConfigOk arr nif) (hok : AddrsOk A)
    (h : Abstracts arr nif A context) : ∀ r ∈ context.fw.chains.postrouting, r.Fits := by
  intro r hr
  obtain ⟨hn, hr⟩ := ((h.postrouting.mem_iff r).1 hr).resolve_left (lt_irrefl 0)
  rw [hr]
  exact masqueradeRule_fits (hok.nat _ hn).fitsColumn hcfg.nif_fits

theorem multicastRule_mem_of_countsAs {l : List Rule} {P : Rule → Prop} [DecidablePred P]
    (h : CountsAs l (fun r => (setupRules arr).count r) P) : multicastRule ∈ l :=
  (h.mem_iff _).2 (.inl (List.count_pos_iff.2 List.mem_cons_self))

/-- The multicast rule never leaves `FORWARD`, so taking another rule out leaves it not empty. -/
theorem Abstracts.erase_ne_nil (h : Abstracts arr nif A context) (a : Rule)
    (ha : a.source ≠ "224.0.0.0/4".toList) : context.fw.chains.forward.erase a ≠ [] := by
  refine List.ne_nil_of_mem ((List.mem_erase_of_ne fun he => ha ?_).2
    (multicastRule_mem_of_countsAs h.forward))
  rw [← he]
  rfl

theorem Abstracts.readsAtOnce (hcfg : ConfigOk arr nif) (hok : AddrsOk A)
    (h : Abstracts arr nif A context)
    (hlen : (L.text .forward context.fw.chains.forward).length ≤ pipeBuf) :
    ReadsAtOnce L .forward context.fw.chains.forward :=
  ⟨fun _ hr => h.fits hcfg hok hr, List.ne_nil_of_mem (multicastRule_mem_of_countsAs h.forward),
    hlen⟩

/-- `FORWARD` reads at once when it does with two rules added. -/
theorem Abstracts.readsAtOnce_of_cons_cons (hcfg : ConfigOk arr nif) (hok : AddrsOk A)
    (h : Abstracts arr nif A context) {a b : Rule}
    (hlen : (L.text .forward (a :: b :: context.fw.chains.forward)).length ≤ pipeBuf) :
    ReadsAtOnce L .forward context.fw.chains.forward :=
  h.readsAtOnce hcfg hok ((L.length_le_of_subperm .forward
    ((List.sublist_cons_self _ _).trans (List.sublist_cons_self _ _)).subperm).trans hlen)

/-- The two deletes an add command starts with leave a `FORWARD` chain that reads at once, also
with both rules of the pair put back: what the backend's inserts need. -/
theorem Abstracts.pairFits_erase (h : Abstracts arr nif A context)
    (hread : ReadsAtOnce L .forward context.fw.chains.forward) {sip sif dip dif : List Char}
    (hsip : Net.validateIpv4String sip = true) (hdip : Net.validateIpv4String dip = true)
    (hfits : (bridgeRule sip sif dip dif "ACCEPT".toList).Fits)
    (hout : (setupRules arr).count (bridgeRule sip sif dip dif "ACCEPT".toList) = 0)
    (hback : (setupRules arr).count (bridgeRule dip dif sip sif "ACCEPT".toList) = 0)
    (hlen : (L.text .forward (bridgeRule sip sif dip dif "ACCEPT".toList ::
      bridgeRule dip dif sip sif "ACCEPT".toList :: context.fw.chains.forward)).length ≤
        pipeBuf) :
    PairFits L ((context.fw.chains.forward.erase
      (bridgeRule sip sif dip dif "ACCEPT".toList)).erase
        (bridgeRule dip dif sip sif "ACCEPT".toList)) sip sif dip dif := by
  have hsub : ((context.fw.chains.forward.erase (bridgeRule sip sif dip dif "ACCEPT".toList)).erase
      (bridgeRule dip dif sip sif "ACCEPT".toList)).Sublist
        context.fw.chains.forward :=
    List.erase_sublist.trans List.erase_sublist
  -- the rules left are the start-up rules and the abstract ones other than the pair
  have hfwd : CountsAs ((context.fw.chains.forward.erase
      (bridgeRule sip sif dip dif "ACCEPT".toList)).erase
        (bridgeRule dip dif sip sif "ACCEPT".toList)) (fun r => (setupRules arr).count r)
      (fun r => AcceptOf arr nif A r ∧ r ≠ bridgeRule sip sif dip dif "ACCEPT".toList ∧
        r ≠ bridgeRule dip dif sip sif "ACCEPT".toList) :=
    h.forward.erase_erase hout hback fun _ => Iff.rfl
  exact
    { sip_valid := hsip
      dip_valid := hdip
      fits := hfits
      reads := hread.of_sublist hsub (List.ne_nil_of_mem (multicastRule_mem_of_countsAs hfwd))
      length_le := (L.length_le_of_subperm .forward
        ((hsub.cons_cons _).cons_cons _).subperm).trans hlen }

/-- Taking two rules out of `FORWARD` keeps every other rule before its base rule. -/
theorem precedes_erase_erase {F : List Rule} {P P' : Rule → Prop} {a b : Rule}
    (hold : ∀ r, P r → Precedes F r) (hP' : ∀ r, P' r ↔ P r ∧ r ≠ a ∧ r ≠ b) :
    ∀ r, P' r → Precedes ((F.erase a).erase b) r := by
  intro r hr
  obtain ⟨hr, ha, hb⟩ := (hP' r).1 hr
  exact ((hold r hr).erase ha).erase hb

/-- Replacing two rules of `FORWARD` by copies that go before their base rules, where the other
rules stay before theirs, keeps every rule before its base rule. -/
theorem precedes_replace {F F' : List Rule} {P P' : Rule → Prop} {a b : Rule}
    (hold : ∀ r, P r → Precedes F r) (hP' : ∀ r, P' r ↔ P r ∨ r = a ∨ r = b)
    (hrest : ∀ r, Precedes ((F.erase a).erase b) r → Precedes F' r)
    (ha : Precedes F' a) (hb : Precedes F' b) : ∀ r, P' r → Precedes F' r := by
  intro r hr
  by_cases hra : r = a
  · rw [hra]
    exact ha
  by_cases hrb : r = b
  · rw [hrb]
    exact hb
  have hr : P r := ((hP' r).1 hr).resolve_right fun h => h.elim hra hrb
  exact hrest r (((hold r hr).erase hra).erase hrb)

/-- A command that leaves the chains as they were, with `iptables` still run, keeps the
relation. -/
theorem Abstracts.of_chains {fw : Firewall} (h : Abstracts arr nif A ⟨arr, nif, fw⟩)
    {ctx : IptablesContext} (hexec : ctx.execIptables = true) :
    Abstracts arr nif A ⟨arr, nif, ⟨ctx, fw.chains⟩⟩ :=
  ⟨rfl, rfl, hexec, h.resolves, h.forward, h.postrouting, h.precedes⟩

end Relation

/-- Start-up relates the service to the empty firewall. -/
theorem abstracts_setup (arr : List Ifinfo) (nif : List Char) {ctx : IptablesContext}
    (hexec : ctx.execIptables = true) :
    Abstracts arr nif Firewall.FwContext.empty ⟨arr, nif, ⟨ctx, setupChains arr⟩⟩ where
  config := rfl
  natInterface := rfl
  exec := hexec
  resolves := Firewall.FwContext.names_empty _
  forward r := by
    have hnot : ¬ AcceptOf arr nif Firewall.FwContext.empty r := by
      rintro (⟨h, -⟩ | ⟨h, -⟩ | ⟨h, -⟩) <;> exact Finset.notMem_empty _ h
    rw [if_neg hnot]
    rfl
  postrouting r := by
    have hnot : ¬ MasqOf nif Firewall.FwContext.empty r := fun h => Finset.notMem_empty _ h.1
    rw [if_neg hnot]
    rfl
  precedes r h := by
    rcases h with ⟨h, -⟩ | ⟨h, -⟩ | ⟨h, -⟩ <;> exact absurd h (Finset.notMem_empty _)

/-- `fw_init_context`, with `iptables` found and there, starts the service related to the empty
firewall. -/
theorem abstracts_fwInitContext {hmapBinPaths : List (List Char × List Char)}
    {iptablesPath : List Char} (hbin : hmapBinPaths.lookup "iptables".toList = some iptablesPath)
    (hpath : (cStr iptablesPath).length ≠ 0) (arr : List Ifinfo) (nif : List Char)
    (chains : Chains) :
    ∃ context, fwInitContext drainedPipe hmapBinPaths arr nif true chains = some context ∧
      Abstracts arr nif Firewall.FwContext.empty context :=
  ⟨_, fwInitContext_of_present drainedPipe_present hbin hpath arr nif chains,
    abstracts_setup arr nif rfl⟩

/-- Start-up with `iptables` at `/sbin/iptables`. -/
theorem abstracts_fwInitContext_sbin :
    ([("iptables".toList, "/sbin/iptables".toList)] : List (List Char × List Char)).lookup
        "iptables".toList = some "/sbin/iptables".toList ∧
      (cStr "/sbin/iptables".toList).length ≠ 0 ∧
      ∃ context, fwInitContext drainedPipe [("iptables".toList, "/sbin/iptables".toList)]
          [] "eth0".toList true ⟨[], []⟩ = some context ∧
        Abstracts [] "eth0".toList Firewall.FwContext.empty context := by
  have hbin : ([("iptables".toList, "/sbin/iptables".toList)] :
      List (List Char × List Char)).lookup "iptables".toList = some "/sbin/iptables".toList := by
    decide
  have hpath : (cStr "/sbin/iptables".toList).length ≠ 0 := by decide
  exact ⟨hbin, hpath, abstracts_fwInitContext hbin hpath _ _ _⟩

/-! ## The abstract machine -/

/-- The abstract machine: a command naming an address no configured subnet holds is refused
with `-1`, and so is an add naming an address `validate_ipv4_string` refuses, for which the
backend inserts no rule; any other changes the sets and returns `0`. -/
def specStep (arr : List Ifinfo) (A : Firewall.FwContext (List Char)) :
    FwCommand → Firewall.FwContext (List Char) × ℤ
  | .addNat x =>
      if Resolvable arr x ∧ Net.validateIpv4String x = true then (Firewall.fwAddNat A x, 0)
      else (A, -1)
  | .removeNat x => if Resolvable arr x then (Firewall.fwRemoveNat A x, 0) else (A, -1)
  | .addBridge x y =>
      if Resolvable arr x ∧ Resolvable arr y ∧ Net.validateIpv4String x = true ∧
          Net.validateIpv4String y = true then (Firewall.fwAddBridge A x y, 0)
      else (A, -1)
  | .removeBridge x y =>
      if Resolvable arr x ∧ Resolvable arr y then (Firewall.fwRemoveBridge A x y, 0) else (A, -1)

/-- The addresses an add names are C strings, with no NUL inside, and a bridge joins two
different addresses: a bridge of an address to itself puts its one rule into `FORWARD`
twice. -/
def FwCommand.Proper : FwCommand → Prop
  | .addNat x => '\x00' ∉ x
  | .removeNat _ => True
  | .addBridge x y => '\x00' ∉ x ∧ '\x00' ∉ y ∧ x ≠ y
  | .removeBridge _ _ => True

instance : ∀ cmd : FwCommand, Decidable cmd.Proper
  | .addNat x => inferInstanceAs (Decidable ('\x00' ∉ x))
  | .removeNat _ => instDecidableTrue
  | .addBridge x y => inferInstanceAs (Decidable ('\x00' ∉ x ∧ '\x00' ∉ y ∧ x ≠ y))
  | .removeBridge _ _ => instDecidableTrue

/-- Every listing the command makes reaches the backend in one read: `FORWARD`, with the two
rules it may add, and `POSTROUTING` for a NAT command. -/
def ReadsOnce (L : Listing) (context : FwCtx) : FwCommand → Prop
  | .addNat x =>
      (L.text .forward (natOutRule context.configIfinfoArray context.natInterface x ::
        natInRule context.configIfinfoArray context.natInterface x ::
          context.fw.chains.forward)).length ≤ pipeBuf ∧
      (L.text .postrouting context.fw.chains.postrouting).length ≤ pipeBuf
  | .removeNat _ =>
      (L.text .forward context.fw.chains.forward).length ≤ pipeBuf ∧
      (L.text .postrouting context.fw.chains.postrouting).length ≤ pipeBuf
  | .addBridge x y =>
      (L.text .forward (acceptRule context.configIfinfoArray x y ::
        acceptRule context.configIfinfoArray y x :: context.fw.chains.forward)).length ≤ pipeBuf
  | .removeBridge _ _ => (L.text .forward context.fw.chains.forward).length ≤ pipeBuf

instance (L : Listing) (context : FwCtx) : ∀ cmd : FwCommand, Decidable (ReadsOnce L context cmd)
  | .addNat _ => instDecidableAnd
  | .removeNat _ => instDecidableAnd
  | .addBridge _ _ => Nat.decLe _ _
  | .removeBridge _ _ => Nat.decLe _ _

/-- A step of the abstract machine on a proper command keeps its sets naming only addresses the
backend can write: what it adds passed `validate_ipv4_string`. -/
theorem addrsOk_specStep {arr : List Ifinfo} {A : Firewall.FwContext (List Char)}
    (hok : AddrsOk A) : ∀ {cmd : FwCommand}, cmd.Proper → AddrsOk (specStep arr A cmd).1
  | .addNat x, hcmd => by
      dsimp only [specStep]
      split_ifs with hg
      · exact hok.fwAddNat ⟨hg.2, hcmd⟩
      · exact hok
  | .removeNat x, _ => by
      dsimp only [specStep]
      split_ifs
      · exact hok.fwRemoveNat x
      · exact hok
  | .addBridge x y, hcmd => by
      dsimp only [specStep]
      split_ifs with hg
      · exact hok.fwAddBridge ⟨hg.2.2.1, hcmd.1⟩ ⟨hg.2.2.2, hcmd.2.1⟩
      · exact hok
  | .removeBridge x y, _ => by
      dsimp only [specStep]
      split_ifs
      · exact hok.fwRemoveBridge x y
      · exact hok

/-! ## The service's commands, by what the backend returns -/

section Backend

variable {arr : List Ifinfo} (nif : List Char) {fw fw' : Firewall}

/-- A NAT command whose address resolves returns what its backend call returns, with the
backend's firewall. -/
theorem natCommand_of_backend
    {backend : Firewall → List Char → List Char → List Char → ℤ × Firewall}
    {x : List Char} (hx : Resolvable arr x) {c : ℤ}
    (hb : backend fw x (ifnameOf arr x) nif = (c, fw')) :
    natCommand backend ⟨arr, nif, fw⟩ x = (if c < 0 then -1 else 0, ⟨arr, nif, fw'⟩) := by
  rw [natCommand_of_resolved backend ⟨arr, nif, fw⟩ hx]
  simp only [hx.getIfnameFromIp, Option.getD_some, hb]

theorem bridgeCommand_of_backend
    {backend₂ :
      Firewall → List Char → List Char → List Char → List Char → ℤ × Firewall}
    {x y : List Char} (hx : Resolvable arr x) (hy : Resolvable arr y) {c : ℤ}
    (hb : backend₂ fw x (ifnameOf arr x) y (ifnameOf arr y) = (c, fw')) :
    bridgeCommand backend₂ ⟨arr, nif, fw⟩ x y = (if c < 0 then -1 else 0, ⟨arr, nif, fw'⟩) := by
  rw [bridgeCommand_of_resolved backend₂ ⟨arr, nif, fw⟩ hx hy]
  simp only [hx.getIfnameFromIp, hy.getIfnameFromIp, Option.getD_some, hb]

/-- A backend result is its reply and its chains, with the context it left. -/
theorem eq_of_fst_of_chains {res : ℤ × Firewall} {chains : Chains} (h₁ : res.1 = 0)
    (h₂ : res.2.chains = chains) : res = (0, ⟨res.2.ctx, chains⟩) := by
  obtain ⟨c, ctx, chains'⟩ := res
  dsimp only at h₁ h₂
  rw [h₁, h₂]

end Backend

/-! ## One command keeps the relation -/

section Steps

variable {arr : List Ifinfo} {nif : List Char} {A : Firewall.FwContext (List Char)} {fw : Firewall}
  {L : Listing} (hcfg : ConfigOk arr nif) (hok : AddrsOk A)
  (h : Abstracts arr nif A ⟨arr, nif, fw⟩)
include hcfg hok h

/-- `fw_remove_bridge` of two resolving addresses over a `FORWARD` chain read at once: the first
copy of each direction's rule goes. -/
theorem abstracts_fwRemoveBridge {x y : List Char} (hx : Resolvable arr x) (hy : Resolvable arr y)
    (hlen : (L.text .forward fw.chains.forward).length ≤ pipeBuf) :
    ∃ context, fwRemoveBridge (drainedPipeWith L.text) ⟨arr, nif, fw⟩ x y = (0, context) ∧
      Abstracts arr nif (Firewall.fwRemoveBridge A x y) context := by
  have hdel := iptablesDeleteBridge_of_readsAtOnce fw h.exec (h.readsAtOnce hcfg hok hlen)
    (h.erase_ne_nil (acceptRule arr x y) hx.ne_multicast)
  have hcmd := bridgeCommand_of_backend nif hx hy hdel
  rw [if_neg (lt_irrefl 0)] at hcmd
  refine ⟨_, hcmd, ?_⟩
  exact
    { config := rfl
      natInterface := rfl
      exec := h.exec
      resolves := h.resolves.fwRemoveBridge x y
      forward := h.forward.erase_erase (count_setupRules_acceptRule hx y)
        (count_setupRules_acceptRule hy x) (acceptOf_fwRemoveBridge hx hy)
      postrouting := h.postrouting
      precedes := precedes_erase_erase h.precedes (acceptOf_fwRemoveBridge hx hy) }

/-- `fw_add_bridge` of two different resolving addresses that `validate_ipv4_string` accepts,
over a `FORWARD` chain that reads at once with both rules added: the old copies go, and the
rule of each direction goes in before the base rule of its input interface. -/
theorem abstracts_fwAddBridge {x y : List Char} (hx : Resolvable arr x) (hy : Resolvable arr y)
    (hx' : IsAddr x) (hy' : IsAddr y) (hxy : x ≠ y)
    (hlen : (L.text .forward (acceptRule arr x y :: acceptRule arr y x ::
      fw.chains.forward)).length ≤ pipeBuf) :
    ∃ context, fwAddBridge (drainedPipeWith L.text) ⟨arr, nif, fw⟩ x y = (0, context) ∧
      Abstracts arr nif (Firewall.fwAddBridge A x y) context := by
  have hread := h.readsAtOnce_of_cons_cons hcfg hok hlen
  have hpair := h.pairFits_erase hread hx'.1 hy'.1 (acceptRule_fits hcfg hx hy hx' hy')
    (count_setupRules_acceptRule hx y) (count_setupRules_acceptRule hy x) hlen
  obtain ⟨hcode, hexec, hchains⟩ := iptablesAddBridge_of_readsAtOnce_erase h.exec hread
    (h.erase_ne_nil (acceptRule arr x y) hx.ne_multicast) hpair
  have hcmd := bridgeCommand_of_backend nif hx hy (eq_of_fst_of_chains hcode hchains)
  rw [if_neg (lt_irrefl 0)] at hcmd
  refine ⟨_, hcmd, ?_⟩
  have hab : acceptRule arr x y ≠ acceptRule arr y x := fun he => hxy (acceptRule_inj he).1
  exact
    { config := rfl
      natInterface := rfl
      exec := hexec
      resolves := h.resolves.fwAddBridge hx hy
      forward := (h.forward.erase_erase_cons_cons (count_setupRules_acceptRule hx y)
        (count_setupRules_acceptRule hy x) hab (acceptOf_fwAddBridge x y)).perm
          (perm_insertPair _ _ _ _ _).symm
      postrouting := h.postrouting
      precedes := precedes_replace h.precedes (acceptOf_fwAddBridge x y)
        (fun r hr => (hr.insertAccept _ _ _ _).insertAccept _ _ _ _)
        ((precedes_insertAccept _ _ _ _ _).insertAccept _ _ _ _)
        (precedes_insertAccept _ _ _ _ _) }

/-- `fw_add_bridge` of two resolving addresses one of which `validate_ipv4_string` refuses:
the abstract firewall has no bridge of them, so the deletes find nothing, and the insert is
refused: `-1`, with the chains as they were. -/
theorem abstracts_fwAddBridge_of_invalid {x y : List Char} (hx : Resolvable arr x)
    (hy : Resolvable arr y)
    (hinv : ¬ (Net.validateIpv4String x = true ∧ Net.validateIpv4String y = true))
    (hlen : (L.text .forward (acceptRule arr x y :: acceptRule arr y x ::
      fw.chains.forward)).length ≤ pipeBuf) :
    ∃ context, fwAddBridge (drainedPipeWith L.text) ⟨arr, nif, fw⟩ x y = (-1, context) ∧
      Abstracts arr nif A context := by
  -- a bridge of the two would name two addresses the backend can write
  have hnot : s(x, y) ∉ A.bridges := fun hb => hinv ⟨(hok.bridge _ _ hb).1, (hok.bridge_right hb).1⟩
  have hout : acceptRule arr x y ∉ fw.chains.forward :=
    h.forward.not_mem (count_setupRules_acceptRule hx y)
      fun ha => hnot ((acceptOf_acceptRule_iff hx hy).1 ha)
  have hback : acceptRule arr y x ∉ fw.chains.forward :=
    h.forward.not_mem (count_setupRules_acceptRule hy x)
      fun ha => hnot (Sym2.eq_swap ▸ (acceptOf_acceptRule_iff hy hx).1 ha)
  have hinv' : Net.validateIpv4String x = false ∨ Net.validateIpv4String y = false := by
    by_cases hvx : Net.validateIpv4String x = true
    · exact .inr (Bool.eq_false_iff.2 fun hvy => hinv ⟨hvx, hvy⟩)
    · exact .inl (Bool.eq_false_iff.2 hvx)
  have hcmd := bridgeCommand_of_backend nif hx hy (iptablesAddBridge_of_invalid fw h.exec
    (h.readsAtOnce_of_cons_cons hcfg hok hlen) hout hback hinv')
  rw [if_pos (by decide)] at hcmd
  exact ⟨_, hcmd, h.of_chains h.exec⟩

/-- `fw_remove_nat` of a resolving address over chains read at once: the first copies of its
two `FORWARD` rules and of its `MASQUERADE` rule go. -/
theorem abstracts_fwRemoveNat {x : List Char} (hx : Resolvable arr x)
    (hlen : (L.text .forward fw.chains.forward).length ≤ pipeBuf)
    (hlenP : (L.text .postrouting fw.chains.postrouting).length ≤ pipeBuf) :
    ∃ context, fwRemoveNat (drainedPipeWith L.text) ⟨arr, nif, fw⟩ x = (0, context) ∧
      Abstracts arr nif (Firewall.fwRemoveNat A x) context := by
  obtain ⟨ctx, hexec, hdel⟩ := iptablesDeleteNat_of_readsAtOnce_erase fw h.exec
    (h.readsAtOnce hcfg hok hlen) (h.erase_ne_nil (natOutRule arr nif x) hx.ne_multicast)
    (h.fits_postrouting hcfg hok) hlenP
  have hcmd := natCommand_of_backend nif hx hdel
  rw [if_neg (lt_irrefl 0)] at hcmd
  refine ⟨_, hcmd, ?_⟩
  exact
    { config := rfl
      natInterface := rfl
      exec := hexec
      resolves := h.resolves.fwRemoveNat x
      forward := h.forward.erase_erase (count_setupRules_natOutRule hx)
        (count_setupRules_natInRule x) (acceptOf_fwRemoveNat h.resolves hx)
      postrouting := h.postrouting.erase rfl (masqOf_fwRemoveNat x)
      precedes := precedes_erase_erase h.precedes (acceptOf_fwRemoveNat h.resolves hx) }

/-- `fw_add_nat` of a resolving address that `validate_ipv4_string` accepts, over chains that
read at once with its two `FORWARD` rules added: the old copies go, the outgoing rule goes in
before the base rule of the address's interface, the incoming one and the `MASQUERADE` rule
first. -/
theorem abstracts_fwAddNat {x : List Char} (hx : Resolvable arr x) (hx' : IsAddr x)
    (hlen : (L.text .forward (natOutRule arr nif x :: natInRule arr nif x ::
      fw.chains.forward)).length ≤ pipeBuf)
    (hlenP : (L.text .postrouting fw.chains.postrouting).length ≤ pipeBuf) :
    ∃ context, fwAddNat (drainedPipeWith L.text) ⟨arr, nif, fw⟩ x = (0, context) ∧
      Abstracts arr nif (Firewall.fwAddNat A x) context := by
  have hread := h.readsAtOnce_of_cons_cons hcfg hok hlen
  obtain ⟨ctx, hexec, hdel⟩ := iptablesDeleteNat_of_readsAtOnce_erase fw h.exec hread
    (h.erase_ne_nil (natOutRule arr nif x) hx.ne_multicast) (h.fits_postrouting hcfg hok) hlenP
  have hpair := h.pairFits_erase hread hx'.1 validateIpv4String_any
    (natOutRule_fits hcfg hx hx') (count_setupRules_natOutRule hx) (count_setupRules_natInRule x)
    hlen
  have hadd := iptablesAddNat_of_deleted hdel hexec hpair
    (masqueradeRule_fits hx'.fitsColumn hcfg.nif_fits)
  have hcmd := natCommand_of_backend nif hx hadd
  rw [if_neg (lt_irrefl 0)] at hcmd
  refine ⟨_, hcmd, ?_⟩
  exact
    { config := rfl
      natInterface := rfl
      exec := hexec
      resolves := h.resolves.fwAddNat hx
      forward := (h.forward.erase_erase_cons_cons (count_setupRules_natOutRule hx)
        (count_setupRules_natInRule x) (natOutRule_ne_natInRule hx) (acceptOf_fwAddNat x)).perm
          ((perm_insertAccept _ _ _ _ _).cons _).symm
      postrouting := h.postrouting.erase_cons rfl (masqOf_fwAddNat x)
      precedes := precedes_replace h.precedes (acceptOf_fwAddNat x)
        (fun r hr => (hr.insertAccept _ _ _ _).cons rfl)
        ((precedes_insertAccept _ _ _ _ _).cons rfl) (precedes_cons_self rfl _) }

/-- `fw_add_nat` of a resolving address that `validate_ipv4_string` refuses: the abstract
firewall has no NAT of it, so the deletes find nothing, and the insert is refused: `-1`, with
the chains as they were. -/
theorem abstracts_fwAddNat_of_invalid {x : List Char} (hx : Resolvable arr x)
    (hinv : Net.validateIpv4String x = false)
    (hlen : (L.text .forward (natOutRule arr nif x :: natInRule arr nif x ::
      fw.chains.forward)).length ≤ pipeBuf)
    (hlenP : (L.text .postrouting fw.chains.postrouting).length ≤ pipeBuf) :
    ∃ context, fwAddNat (drainedPipeWith L.text) ⟨arr, nif, fw⟩ x = (-1, context) ∧
      Abstracts arr nif A context := by
  have hnot : x ∉ A.natIps := fun hn => absurd (hok.nat x hn).1 (by rw [hinv]; decide)
  have hout : natOutRule arr nif x ∉ fw.chains.forward :=
    h.forward.not_mem (count_setupRules_natOutRule hx)
      fun ha => hnot ((acceptOf_natOutRule_iff h.resolves hx).1 ha)
  have hback : natInRule arr nif x ∉ fw.chains.forward :=
    h.forward.not_mem (count_setupRules_natInRule x)
      fun ha => hnot ((acceptOf_natInRule_iff h.resolves x).1 ha)
  have hm : masqueradeRule x nif ∉ fw.chains.postrouting :=
    h.postrouting.not_mem rfl fun hm => hnot ((masqOf_masqueradeRule_iff x).1 hm)
  obtain ⟨ctx, hexec, hadd⟩ := iptablesAddNat_of_invalid h.exec
    (h.readsAtOnce_of_cons_cons hcfg hok hlen) hout hback hm (h.fits_postrouting hcfg hok) hlenP
    hinv
  have hcmd := natCommand_of_backend nif hx hadd
  rw [if_pos (by decide)] at hcmd
  exact ⟨_, hcmd, h.of_chains hexec⟩

end Steps

/-! ## Runs -/

section Runs

variable {arr : List Ifinfo} {nif : List Char} {A : Firewall.FwContext (List Char)}

/-- One command that is proper and whose listings reach the backend in one read keeps the
relation, and the service replies as the abstract machine does. -/
theorem abstracts_fwStep (L : Listing) (hcfg : ConfigOk arr nif) {context : FwCtx}
    (h : Abstracts arr nif A context) (hok : AddrsOk A) {cmd : FwCommand} (hcmd : cmd.Proper)
    (hread : ReadsOnce L context cmd) :
    Abstracts arr nif (specStep arr A cmd).1 (fwStep (drainedPipeWith L.text) context cmd).1 ∧
      (fwStep (drainedPipeWith L.text) context cmd).2 = (specStep arr A cmd).2 := by
  obtain ⟨arr', nif', fw⟩ := context
  obtain ⟨rfl, rfl⟩ : arr' = arr ∧ nif' = nif := ⟨h.config, h.natInterface⟩
  -- each command runs, is refused by the backend's check of its addresses, or is refused for an
  -- address no subnet holds, on both sides alike
  cases cmd with
  | addNat x =>
      by_cases hg : Resolvable arr' x ∧ Net.validateIpv4String x = true
      · obtain ⟨c, hc, hA⟩ := abstracts_fwAddNat hcfg hok h hg.1 ⟨hg.2, hcmd⟩ hread.1 hread.2
        rw [fwStep, specStep, if_pos hg, hc]
        exact ⟨hA, rfl⟩
      by_cases hx : Resolvable arr' x
      · obtain ⟨c, hc, hA⟩ := abstracts_fwAddNat_of_invalid hcfg hok h hx
          (Bool.eq_false_iff.2 fun hv => hg ⟨hx, hv⟩) hread.1 hread.2
        rw [fwStep, specStep, if_neg hg, hc]
        exact ⟨hA, rfl⟩
      · rw [fwStep, specStep, if_neg hg, fwAddNat,
          natCommand_of_unresolved _ ⟨arr', nif', fw⟩ hx]
        exact ⟨h, rfl⟩
  | removeNat x =>
      by_cases hx : Resolvable arr' x
      · obtain ⟨c, hc, hA⟩ := abstracts_fwRemoveNat hcfg hok h hx hread.1 hread.2
        rw [fwStep, specStep, if_pos hx, hc]
        exact ⟨hA, rfl⟩
      · rw [fwStep, specStep, if_neg hx, fwRemoveNat,
          natCommand_of_unresolved _ ⟨arr', nif', fw⟩ hx]
        exact ⟨h, rfl⟩
  | addBridge x y =>
      by_cases hg : Resolvable arr' x ∧ Resolvable arr' y ∧ Net.validateIpv4String x = true ∧
          Net.validateIpv4String y = true
      · obtain ⟨c, hc, hA⟩ := abstracts_fwAddBridge hcfg hok h hg.1 hg.2.1 ⟨hg.2.2.1, hcmd.1⟩
          ⟨hg.2.2.2, hcmd.2.1⟩ hcmd.2.2 hread
        rw [fwStep, specStep, if_pos hg, hc]
        exact ⟨hA, rfl⟩
      by_cases hxy : Resolvable arr' x ∧ Resolvable arr' y
      · obtain ⟨c, hc, hA⟩ := abstracts_fwAddBridge_of_invalid hcfg hok h hxy.1 hxy.2
          (fun hv => hg ⟨hxy.1, hxy.2, hv⟩) hread
        rw [fwStep, specStep, if_neg hg, hc]
        exact ⟨hA, rfl⟩
      · rw [fwStep, specStep, if_neg hg, fwAddBridge,
          bridgeCommand_of_unresolved _ ⟨arr', nif', fw⟩ hxy]
        exact ⟨h, rfl⟩
  | removeBridge x y =>
      by_cases hxy : Resolvable arr' x ∧ Resolvable arr' y
      · obtain ⟨c, hc, hA⟩ := abstracts_fwRemoveBridge hcfg hok h hxy.1 hxy.2 hread
        rw [fwStep, specStep, if_pos hxy, hc]
        exact ⟨hA, rfl⟩
      · rw [fwStep, specStep, if_neg hxy, fwRemoveBridge,
          bridgeCommand_of_unresolved _ ⟨arr', nif', fw⟩ hxy]
        exact ⟨h, rfl⟩

/-- So does every run whose commands are proper and read at once where they are made, whatever
text `iptables -L` prints for a chain as long as it reads back: the service ends related to
the abstract machine's sets, which name only addresses the backend can write, with the same
replies. -/
theorem abstracts_run (L : Listing) (hcfg : ConfigOk arr nif) {context : FwCtx}
    (h : Abstracts arr nif A context) (hok : AddrsOk A) {cmds : List FwCommand}
    (hguard : ∀ t ∈ transitions (fwStep (drainedPipeWith L.text)) context cmds,
      t.cmd.Proper ∧ ReadsOnce L t.before t.cmd) :
    (Abstracts arr nif (run (specStep arr) A cmds).1
        (run (fwStep (drainedPipeWith L.text)) context cmds).1 ∧
      AddrsOk (run (specStep arr) A cmds).1) ∧
      (run (fwStep (drainedPipeWith L.text)) context cmds).2 = (run (specStep arr) A cmds).2 := by
  refine run_sim_guarded (fun context B => Abstracts arr nif B context ∧ AddrsOk B)
    (fun context cmd => cmd.Proper ∧ ReadsOnce L context cmd) ?_ ⟨h, hok⟩ hguard
  intro context' B cmd hR hG
  obtain ⟨hA, hreply⟩ := abstracts_fwStep L hcfg hR.1 hR.2 hG.1 hG.2
  exact ⟨⟨hA, addrsOk_specStep hR.2 hG.1⟩, hreply⟩

end Runs

/-- The service as start-up leaves it over `sampleIfinfoArray`, with NAT out of `eth0`. -/
def sampleContext : FwCtx :=
  ⟨sampleIfinfoArray, "eth0".toList, ⟨⟨[], true⟩, setupChains sampleIfinfoArray⟩⟩

/-- The bridge between `10.0.0.2` on `br0` and `10.0.1.2` on `br1`. -/
def sampleBridge : FwCommand := .addBridge "10.0.0.2".toList "10.0.1.2".toList

/-- Bridging `10.0.0.2` and `10.0.1.2` after start-up keeps the relation. -/
theorem abstracts_run_sample_bridge :
    (Abstracts sampleIfinfoArray "eth0".toList
        (run (specStep sampleIfinfoArray) Firewall.FwContext.empty [sampleBridge]).1
        (run (fwStep (drainedPipeWith compactListing.text)) sampleContext [sampleBridge]).1 ∧
      AddrsOk (run (specStep sampleIfinfoArray) Firewall.FwContext.empty [sampleBridge]).1) ∧
      (run (fwStep (drainedPipeWith compactListing.text)) sampleContext [sampleBridge]).2 =
        (run (specStep sampleIfinfoArray) Firewall.FwContext.empty [sampleBridge]).2 :=
  abstracts_run compactListing (by decide) (abstracts_setup _ _ rfl)
    (Firewall.FwContext.names_empty _) fun t ht => by
      rw [transitions, transitions, List.mem_singleton] at ht
      subst ht
      exact ⟨by decide, by decide +kernel⟩

end EdgeSec.FirewallService
