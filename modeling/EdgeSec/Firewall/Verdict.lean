import EdgeSec.Firewall.ServiceRefines
import EdgeSec.Lib.FirstMatch

/-!
# What the chains do to a packet

`iptables` gives a packet in `FORWARD` the target of the first rule that matches it, or the
chain's policy, which `BASIC_FLUSH_COMMANDS` sets to `ACCEPT` (`verdict`).  A rule matches a
packet when each interface column is the packet's interface or `*` and each address column
holds the packet's address; what an address column holds, a host or a network with its mask,
is left to `addrIn`.

Over chains that `Abstracts` relates to an abstract firewall:

* `verdict_of_acceptOf`: a packet an `ACCEPT` rule of the abstract firewall matches is
  accepted, since that rule comes before every base rule that could reject the packet;
* `acceptOf_of_verdict`: a packet that comes in on a configured interface and is accepted
  matches the multicast rule or an `ACCEPT` rule of the abstract firewall, when `0.0.0.0/0`
  holds every address: the base rule of its interface rejects everything else.
-/

namespace EdgeSec.FirewallService

open Os Iptables IfaceMapper ListEdit FirstMatch

/-- A packet as `FORWARD` sees it: the interfaces it comes in and goes out on, and its
addresses. -/
structure Packet where
  inIf : List Char
  outIf : List Char
  source : List Char
  destination : List Char
  deriving Repr, DecidableEq

/-- An interface column matches its own interface, and `*` every interface. -/
def ifMatches (column ifname : List Char) : Bool :=
  column == ifname || column == "*".toList

section Semantics

variable (addrIn : List Char → List Char → Bool)

/-- A rule matches a packet when its interface columns match the packet's interfaces and its
address columns hold the packet's addresses. -/
def ruleMatches (pkt : Packet) (r : Rule) : Bool :=
  ifMatches r.inIf pkt.inIf && ifMatches r.outIf pkt.outIf && addrIn pkt.source r.source &&
    addrIn pkt.destination r.destination

/-- The target `FORWARD` gives a packet: that of its first matching rule, or the policy
`ACCEPT`. -/
def verdict (rules : List Rule) (pkt : Packet) : List Char :=
  firstMatch (ruleMatches addrIn pkt) Rule.target "ACCEPT".toList rules

theorem ruleMatches_eq_true {pkt : Packet} {r : Rule} :
    ruleMatches addrIn pkt r = true ↔
      ifMatches r.inIf pkt.inIf = true ∧ ifMatches r.outIf pkt.outIf = true ∧
        addrIn pkt.source r.source = true ∧ addrIn pkt.destination r.destination = true := by
  simp only [ruleMatches, Bool.and_eq_true, and_assoc]

end Semantics

theorem ifMatches_self (ifname : List Char) : ifMatches ifname ifname = true := by
  simp [ifMatches]

theorem ifMatches_star (ifname : List Char) : ifMatches "*".toList ifname = true := by
  simp [ifMatches]

/-- A column other than `*` matches its own interface only. -/
theorem eq_of_ifMatches {column ifname : List Char} (hne : column ≠ "*".toList)
    (h : ifMatches column ifname = true) : column = ifname := by
  simp only [ifMatches, Bool.or_eq_true, beq_iff_eq] at h
  exact h.resolve_right hne

/-! ## The `ACCEPT` rules of the abstract firewall -/

section Accept

variable {arr : List Ifinfo} {nif : List Char} {A : Firewall.FwContext (List Char)}

theorem target_of_acceptOf {r : Rule} (hr : AcceptOf arr nif A r) :
    r.target = "ACCEPT".toList := by
  rcases hr with ⟨-, hr⟩ | ⟨-, hr⟩ | ⟨-, hr⟩ <;> rw [hr] <;> rfl

theorem ifnameOf_ne_star (hcfg : ConfigOk arr nif) {x : List Char} (hx : Resolvable arr x) :
    ifnameOf arr x ≠ "*".toList := by
  obtain ⟨p, hp, hname⟩ := hx.entry
  rw [hname]
  exact hcfg.ifname_ne_star p hp

/-- Every `ACCEPT` rule names the interface a packet comes in on: a configured one or the NAT
one. -/
theorem inIf_ne_star_of_acceptOf (hcfg : ConfigOk arr nif) (hres : Resolves arr A) {r : Rule}
    (hr : AcceptOf arr nif A r) : r.inIf ≠ "*".toList := by
  rcases hr with ⟨hb, hr⟩ | ⟨hn, hr⟩ | ⟨-, hr⟩
  · rw [hr]
    exact ifnameOf_ne_star hcfg (hres.bridge _ _ hb)
  · rw [hr]
    exact ifnameOf_ne_star hcfg (hres.nat _ hn)
  · rw [hr]
    exact hcfg.nif_ne_star

end Accept

/-! ## The start-up rules -/

section Setup

variable {arr : List Ifinfo} {nif : List Char}

/-- A start-up rule is the multicast rule or the base rule of a configured interface. -/
theorem mem_setupRules {r : Rule} (hcfg : ConfigOk arr nif) (hr : r ∈ setupRules arr) :
    r = multicastRule ∨ ∃ p ∈ arr, r = baseRule p.ifname := by
  rw [setupRules, setupChains] at hr
  rcases List.mem_cons.1 hr with rfl | hr
  · exact .inl rfl
  · obtain ⟨p, hp, rfl⟩ := List.mem_map.1 hr
    rw [cStr_of_not_mem (hcfg.ifname_fits p hp).2.2.2.1]
    exact .inr ⟨p, hp, rfl⟩

theorem baseRule_mem_setupRules (hcfg : ConfigOk arr nif) {p : Ifinfo} (hp : p ∈ arr) :
    baseRule p.ifname ∈ setupRules arr := by
  rw [setupRules, setupChains]
  refine List.mem_cons_of_mem _ (List.mem_map.2 ⟨p, hp, ?_⟩)
  rw [cStr_of_not_mem (hcfg.ifname_fits p hp).2.2.2.1]

theorem baseRule_isBase (ifname : List Char) : (baseRule ifname).IsBase ifname :=
  ⟨rfl, rfl, rfl⟩

end Setup

/-! ## Verdicts over related chains -/

section Verdict

variable (addrIn : List Char → List Char → Bool) {arr : List Ifinfo} {nif : List Char}
  {A : Firewall.FwContext (List Char)} {context : FwCtx}

/-- A rule of `FORWARD` before the first base rule of an interface that matches a packet coming
in on that interface accepts it: it is the multicast rule, an `ACCEPT` rule, or the base rule
of another interface, which does not match. -/
theorem accept_of_before_base (hcfg : ConfigOk arr nif) (h : Abstracts arr nif A context)
    {pkt : Packet} {q : Rule}
    (hq : q ∈ context.fw.chains.forward.takeWhile fun q => !decide (q.IsBase pkt.inIf))
    (hm : ruleMatches addrIn pkt q = true) : q.target = "ACCEPT".toList := by
  have hnb : ¬ q.IsBase pkt.inIf := by simpa using List.mem_takeWhile_imp hq
  rcases (h.forward.mem_iff q).1 ((List.takeWhile_sublist _).subset hq) with hs | ha
  · rcases mem_setupRules hcfg (List.count_pos_iff.1 hs) with rfl | ⟨p, hp, rfl⟩
    · rfl
    · -- the base rule matches only packets of its own interface, and it is not that one's
      have hin := eq_of_ifMatches (hcfg.ifname_ne_star p hp)
        ((ruleMatches_eq_true addrIn).1 hm).1
      exact absurd (hin ▸ baseRule_isBase p.ifname) hnb
  · exact target_of_acceptOf ha

/-- A packet an `ACCEPT` rule of the abstract firewall matches is accepted. -/
theorem verdict_of_acceptOf (hcfg : ConfigOk arr nif) (h : Abstracts arr nif A context)
    {pkt : Packet} {r : Rule} (hr : AcceptOf arr nif A r) (hm : ruleMatches addrIn pkt r = true) :
    verdict addrIn context.fw.chains.forward pkt = "ACCEPT".toList := by
  -- the rule names the packet's input interface, so it comes before that interface's base rules
  have hin : r.inIf = pkt.inIf := eq_of_ifMatches (inIf_ne_star_of_acceptOf hcfg h.resolves hr)
    ((ruleMatches_eq_true addrIn).1 hm).1
  have hpre : r ∈ context.fw.chains.forward.takeWhile fun q => !decide (q.IsBase pkt.inIf) :=
    hin ▸ h.precedes r hr
  rw [verdict, ← target_of_acceptOf hr]
  refine firstMatch_of_mem_takeWhile _ _ _ hpre hm fun q hq hmq => ?_
  rw [accept_of_before_base addrIn hcfg h hq hmq, target_of_acceptOf hr]

/-- A packet that comes in on a configured interface and is accepted matches the multicast rule
or an `ACCEPT` rule of the abstract firewall, when `0.0.0.0/0` holds every address. -/
theorem acceptOf_of_verdict (hcfg : ConfigOk arr nif) (h : Abstracts arr nif A context)
    (hany : ∀ a, addrIn a "0.0.0.0/0".toList = true) {pkt : Packet} {p : Ifinfo} (hp : p ∈ arr)
    (hin : pkt.inIf = p.ifname)
    (hv : verdict addrIn context.fw.chains.forward pkt = "ACCEPT".toList) :
    ∃ r ∈ context.fw.chains.forward, ruleMatches addrIn pkt r = true ∧
      (r = multicastRule ∨ AcceptOf arr nif A r) := by
  rcases firstMatch_cases (ruleMatches addrIn pkt) Rule.target "ACCEPT".toList
      context.fw.chains.forward with ⟨hnone, -⟩ | ⟨r, hr, hm, hvr⟩
  · -- the base rule of the packet's interface is in `FORWARD` and matches it
    have hbase : baseRule p.ifname ∈ context.fw.chains.forward :=
      (h.forward.mem_iff _).2 (.inl (List.count_pos_iff.2 (baseRule_mem_setupRules hcfg hp)))
    have hmatch : ruleMatches addrIn pkt (baseRule p.ifname) = true :=
      (ruleMatches_eq_true addrIn).2
        ⟨hin ▸ ifMatches_self _, ifMatches_star _, hany _, hany _⟩
    exact absurd hmatch (by rw [hnone _ hbase]; decide)
  · refine ⟨r, hr, hm, ?_⟩
    rcases (h.forward.mem_iff r).1 hr with hs | ha
    · -- an accepting start-up rule is the multicast rule: a base rule rejects
      rcases mem_setupRules hcfg (List.count_pos_iff.1 hs) with rfl | ⟨q, -, rfl⟩
      · exact .inl rfl
      · rw [verdict, hvr] at hv
        exact absurd hv.symm accept_ne_reject
    · exact .inr ha

end Verdict

/-- An address column holds its own address, and `0.0.0.0/0` every address. -/
def sampleAddrIn (a column : List Char) : Bool := column == a || column == "0.0.0.0/0".toList

/-- A packet from `10.0.0.2` on `br0` to `10.0.1.2` on `br1`. -/
def samplePacket : Packet := ⟨"br0".toList, "br1".toList, "10.0.0.2".toList, "10.0.1.2".toList⟩

/-- Once the two stations are bridged, the packet is accepted by the bridge's rule. -/
theorem verdict_of_acceptOf_sample_bridge :
    AcceptOf sampleIfinfoArray "eth0".toList
        (specStep sampleIfinfoArray Firewall.FwContext.empty sampleBridge).1
        (acceptRule sampleIfinfoArray "10.0.0.2".toList "10.0.1.2".toList) ∧
      ruleMatches sampleAddrIn samplePacket
        (acceptRule sampleIfinfoArray "10.0.0.2".toList "10.0.1.2".toList) = true ∧
      verdict sampleAddrIn (fwStep drainedPipe sampleContext sampleBridge).1.fw.chains.forward
        samplePacket = "ACCEPT".toList := by
  have hcfg : ConfigOk sampleIfinfoArray "eth0".toList := by decide
  have h₀ : Abstracts sampleIfinfoArray "eth0".toList Firewall.FwContext.empty sampleContext :=
    abstracts_setup _ _ rfl
  have hread : ReadsOnce compactListing sampleContext sampleBridge := by decide +kernel
  have h : Abstracts sampleIfinfoArray "eth0".toList
      (specStep sampleIfinfoArray Firewall.FwContext.empty sampleBridge).1
      (fwStep drainedPipe sampleContext sampleBridge).1 :=
    (abstracts_fwStep compactListing hcfg h₀ (Firewall.FwContext.names_empty _) (by decide)
      hread).1
  have hr : AcceptOf sampleIfinfoArray "eth0".toList
      (specStep sampleIfinfoArray Firewall.FwContext.empty sampleBridge).1
      (acceptRule sampleIfinfoArray "10.0.0.2".toList "10.0.1.2".toList) := by decide +kernel
  have hm : ruleMatches sampleAddrIn samplePacket
      (acceptRule sampleIfinfoArray "10.0.0.2".toList "10.0.1.2".toList) = true := by decide +kernel
  exact ⟨hr, hm, verdict_of_acceptOf sampleAddrIn hcfg h hr hm⟩

/-- Once the two stations are bridged, the accepted packet matches the bridge's rule. -/
theorem acceptOf_of_verdict_sample_bridge :
    (∀ a, sampleAddrIn a "0.0.0.0/0".toList = true) ∧
      verdict sampleAddrIn (fwStep drainedPipe sampleContext sampleBridge).1.fw.chains.forward
        samplePacket = "ACCEPT".toList ∧
      ∃ r ∈ (fwStep drainedPipe sampleContext sampleBridge).1.fw.chains.forward,
        ruleMatches sampleAddrIn samplePacket r = true ∧
          (r = multicastRule ∨ AcceptOf sampleIfinfoArray "eth0".toList
            (specStep sampleIfinfoArray Firewall.FwContext.empty sampleBridge).1 r) := by
  have hcfg : ConfigOk sampleIfinfoArray "eth0".toList := by decide
  have h₀ : Abstracts sampleIfinfoArray "eth0".toList Firewall.FwContext.empty sampleContext :=
    abstracts_setup _ _ rfl
  have hread : ReadsOnce compactListing sampleContext sampleBridge := by decide +kernel
  have h : Abstracts sampleIfinfoArray "eth0".toList
      (specStep sampleIfinfoArray Firewall.FwContext.empty sampleBridge).1
      (fwStep drainedPipe sampleContext sampleBridge).1 :=
    (abstracts_fwStep compactListing hcfg h₀ (Firewall.FwContext.names_empty _) (by decide)
      hread).1
  have hany : ∀ a, sampleAddrIn a "0.0.0.0/0".toList = true := fun a => by
    simp [sampleAddrIn]
  have hv : verdict sampleAddrIn (fwStep drainedPipe sampleContext sampleBridge).1.fw.chains.forward
      samplePacket = "ACCEPT".toList := by decide +kernel
  -- the packet comes in on `br0`
  have hp : br0Ifinfo ∈ sampleIfinfoArray := List.mem_cons_self
  exact ⟨hany, hv, acceptOf_of_verdict sampleAddrIn hcfg h hany hp rfl hv⟩

end EdgeSec.FirewallService
