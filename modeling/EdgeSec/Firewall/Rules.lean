import Mathlib

/-!
# The rules a firewall should hold, and how they move

The supervisor's firewall (`src/firewall/firewall_service.c`) holds two kinds of rules: NAT
for some addresses, and bridges between pairs of addresses, each pair installed in both
directions.  What they should be is a function of three stored facts: which device holds
which address, which of those holdings have NAT on, and which devices are bridged.
`AddrView` is these facts over arbitrary types of devices and addresses, and `natRules` and
`bridgeRules` are the rules they call for.

The supervisor never recomputes the rules: each command changes the stored facts a little and
patches the rules to match.  The lemmas here say, for each kind of change, how the rules it
calls for move:

* `natRules_of_assign`, `bridgeRules_of_assign`: a device takes a new address;
* `natRules_of_release`, `bridgeRules_of_release`: the holder of an address gives it up;
* `natRules_of_natOn`, `natRules_of_natOff`: NAT is turned on or off for a device;
* `bridgeRules_of_link`, `bridgeRules_of_unlink`: two devices are bridged or unbridged.

A command makes some of these changes only under a condition (a valid address, NAT on); the
lemmas carry it as a proposition `p` or `n`.  Giving up an address, turning NAT off and
unbridging remove rules, and need each address to have one holder at most (`UniqueHolder`):
a second holder would lose its rules with them.

`FwContext` is the firewall itself as the two backends (iptables and uci) are used: a finite
set of NAT addresses and a finite set of unordered pairs, with `fw_add_nat`,
`fw_remove_nat`, `fw_add_bridge` and `fw_remove_bridge` as insertion and deletion;
`FwContext.Names P` says that every address it names has the property `P`, which the four
commands keep when the addresses they add have it.
-/

namespace EdgeSec.Firewall

variable {α ι : Type*}

/-- What the rules are derived from: `holds a x` when device `a` holds address `x`, `nat a x`
when it holds it with NAT on, `link a b` when `a` is bridged to `b`. -/
structure AddrView (α ι : Type*) where
  holds : α → ι → Prop
  nat : α → ι → Prop
  link : α → α → Prop

namespace AddrView

variable (V : AddrView α ι)

/-- The addresses that should have a NAT rule. -/
def natRules : Set ι := {x | ∃ a, V.nat a x}

/-- The address pairs that should have a bridge rule. -/
def bridgeRules : Set (Sym2 ι) :=
  {e | ∃ a b x y, V.link a b ∧ V.holds a x ∧ V.holds b y ∧ e = s(x, y)}

/-- The pairs of an address of `a` with an address of `b`. -/
def pairRules (a b : α) : Set (Sym2 ι) := {e | ∃ x y, V.holds a x ∧ V.holds b y ∧ e = s(x, y)}

/-- The pairs of the address `x` with an address of a device bridged to `a`. -/
def partnerRules (a : α) (x : ι) : Set (Sym2 ι) :=
  {e | ∃ b y, V.link a b ∧ V.holds b y ∧ e = s(x, y)}

/-- No address has two holders. -/
def UniqueHolder : Prop := ∀ a b x, V.holds a x → V.holds b x → a = b

/-- Bridges go both ways. -/
def LinkSymm : Prop := ∀ a b, V.link a b → V.link b a

/-- No device is bridged to itself. -/
def LinkIrrefl : Prop := ∀ a, ¬ V.link a a

variable {V} {W : AddrView α ι}

/-! ## Changes that keep the rules -/

theorem natRules_congr (hnat : ∀ b y, W.nat b y ↔ V.nat b y) : W.natRules = V.natRules := by
  ext y
  simp only [natRules, Set.mem_ofPred_eq, hnat]

theorem bridgeRules_congr (hholds : ∀ b y, W.holds b y ↔ V.holds b y)
    (hlink : ∀ b c, W.link b c ↔ V.link b c) : W.bridgeRules = V.bridgeRules := by
  ext e
  simp only [bridgeRules, Set.mem_ofPred_eq, hholds, hlink]

/-! ## A device takes an address -/

/-- A new holding of `x` by `a`, with NAT on when `n`, adds `x` to the NAT rules when `n`. -/
theorem natRules_of_assign {a : α} {x : ι} {n : Prop}
    (hnat : ∀ b y, W.nat b y ↔ V.nat b y ∨ (b = a ∧ y = x ∧ n)) :
    W.natRules = V.natRules ∪ {y | y = x ∧ n} := by
  ext y
  simp only [natRules, Set.mem_union, Set.mem_ofPred_eq, hnat]
  constructor
  · rintro ⟨b, hb | ⟨-, rfl, hn⟩⟩
    · exact Or.inl ⟨b, hb⟩
    · exact Or.inr ⟨rfl, hn⟩
  · rintro (⟨b, hb⟩ | ⟨rfl, hn⟩)
    · exact ⟨b, Or.inl hb⟩
    · exact ⟨a, Or.inr ⟨rfl, rfl, hn⟩⟩

/-- A new holding of `x` by `a`, made when `p`, adds the pairs of `x` with the addresses of
`a`'s partners. -/
theorem bridgeRules_of_assign {a : α} {x : ι} {p : Prop} (hsymm : V.LinkSymm) (hirr : V.LinkIrrefl)
    (hlink : ∀ b c, W.link b c ↔ V.link b c)
    (hholds : ∀ b y, W.holds b y ↔ V.holds b y ∨ (b = a ∧ y = x ∧ p)) :
    W.bridgeRules = V.bridgeRules ∪ {e | p ∧ e ∈ V.partnerRules a x} := by
  ext e
  simp only [bridgeRules, partnerRules, Set.mem_union, Set.mem_ofPred_eq, hlink, hholds]
  constructor
  · rintro ⟨b, c, u, v, hbc, hu | ⟨rfl, rfl, hp⟩, hv | ⟨rfl, rfl, hp⟩, rfl⟩
    · exact Or.inl ⟨b, c, u, v, hbc, hu, hv, rfl⟩
    · -- the new address is the second end: read the bridge the other way round
      exact Or.inr ⟨hp, b, u, hsymm _ _ hbc, hu, Sym2.eq_swap⟩
    · exact Or.inr ⟨hp, c, v, hbc, hv, rfl⟩
    · exact absurd hbc (hirr _)
  · rintro (⟨b, c, u, v, hbc, hu, hv, rfl⟩ | ⟨hp, b, y, hab, hy, rfl⟩)
    · exact ⟨b, c, u, v, hbc, Or.inl hu, Or.inl hv, rfl⟩
    · exact ⟨a, b, x, y, hab, Or.inr ⟨rfl, rfl, hp⟩, Or.inl hy, rfl⟩

/-- The partner pairs of `x` depend only on `a`'s bridges and on its partners' addresses. -/
theorem partnerRules_congr {a : α} {x : ι} (hlink : ∀ b c, W.link b c ↔ V.link b c)
    (hholds : ∀ b, V.link a b → ∀ y, W.holds b y ↔ V.holds b y) :
    W.partnerRules a x = V.partnerRules a x := by
  ext e
  simp only [partnerRules, Set.mem_ofPred_eq, hlink]
  constructor
  · rintro ⟨b, y, hab, hy, rfl⟩
    exact ⟨b, y, hab, (hholds b hab y).1 hy, rfl⟩
  · rintro ⟨b, y, hab, hy, rfl⟩
    exact ⟨b, y, hab, (hholds b hab y).2 hy, rfl⟩

/-! ## The holder of an address gives it up -/

/-- Giving up `x`, done when `p`, removes it from the NAT rules. -/
theorem natRules_of_release {x : ι} {p : Prop} (hnat : ∀ b y, W.nat b y ↔ V.nat b y ∧ ¬ (y = x ∧ p)) :
    W.natRules = V.natRules \ {y | y = x ∧ p} := by
  ext y
  simp only [natRules, Set.mem_sdiff, Set.mem_ofPred_eq, hnat]
  constructor
  · rintro ⟨b, hb, hne⟩
    exact ⟨⟨b, hb⟩, hne⟩
  · rintro ⟨⟨b, hb⟩, hne⟩
    exact ⟨b, hb, hne⟩

/-- When `a` is the only holder of `x`, giving `x` up (done when `p`) removes exactly the pairs
of `x` with the addresses of `a`'s partners. -/
theorem bridgeRules_of_release {a : α} {x : ι} {p : Prop} (hsymm : V.LinkSymm)
    (hsole : p → ∀ b, V.holds b x → b = a) (hlink : ∀ b c, W.link b c ↔ V.link b c)
    (hholds : ∀ b y, W.holds b y ↔ V.holds b y ∧ ¬ (y = x ∧ p)) :
    W.bridgeRules = V.bridgeRules \ {e | p ∧ e ∈ V.partnerRules a x} := by
  ext e
  simp only [bridgeRules, partnerRules, Set.mem_sdiff, Set.mem_ofPred_eq, hlink, hholds]
  constructor
  · rintro ⟨b, c, u, v, hbc, ⟨hu, hux⟩, ⟨hv, hvx⟩, rfl⟩
    refine ⟨⟨b, c, u, v, hbc, hu, hv, rfl⟩, ?_⟩
    rintro ⟨hp, d, y, -, -, heq⟩
    rcases Sym2.eq_iff.1 heq with ⟨h1, -⟩ | ⟨-, h2⟩
    · exact hux ⟨h1, hp⟩
    · exact hvx ⟨h2, hp⟩
  · rintro ⟨⟨b, c, u, v, hbc, hu, hv, rfl⟩, hnot⟩
    -- an end equal to `x` would make the pair one of the removed ones
    have hux : ¬ (u = x ∧ p) := by
      rintro ⟨rfl, hp⟩
      obtain rfl := hsole hp b hu
      exact hnot ⟨hp, c, v, hbc, hv, rfl⟩
    have hvx : ¬ (v = x ∧ p) := by
      rintro ⟨rfl, hp⟩
      obtain rfl := hsole hp c hv
      exact hnot ⟨hp, b, u, hsymm _ _ hbc, hu, Sym2.eq_swap⟩
    exact ⟨b, c, u, v, hbc, ⟨hu, hux⟩, ⟨hv, hvx⟩, rfl⟩

/-! ## NAT turned on or off for a device -/

/-- Turning NAT on for `a` adds the addresses it holds. -/
theorem natRules_of_natOn {a : α} (hnat : ∀ b y, W.nat b y ↔ V.nat b y ∨ (b = a ∧ V.holds a y)) :
    W.natRules = V.natRules ∪ {y | V.holds a y} := by
  ext y
  simp only [natRules, Set.mem_union, Set.mem_ofPred_eq, hnat]
  constructor
  · rintro ⟨b, hb | ⟨-, hy⟩⟩
    · exact Or.inl ⟨b, hb⟩
    · exact Or.inr hy
  · rintro (⟨b, hb⟩ | hy)
    · exact ⟨b, Or.inl hb⟩
    · exact ⟨a, Or.inr ⟨rfl, hy⟩⟩

/-- Turning NAT off for `a` removes the addresses it holds, when no other device holds them. -/
theorem natRules_of_natOff {a : α} (huniq : V.UniqueHolder) (hsub : ∀ b y, V.nat b y → V.holds b y)
    (hnat : ∀ b y, W.nat b y ↔ V.nat b y ∧ b ≠ a) :
    W.natRules = V.natRules \ {y | V.holds a y} := by
  ext y
  simp only [natRules, Set.mem_sdiff, Set.mem_ofPred_eq, hnat]
  constructor
  · rintro ⟨b, hb, hba⟩
    exact ⟨⟨b, hb⟩, fun hay => hba (huniq _ _ _ (hsub _ _ hb) hay)⟩
  · rintro ⟨⟨b, hb⟩, hay⟩
    refine ⟨b, hb, ?_⟩
    rintro rfl
    exact hay (hsub _ _ hb)

/-! ## Two devices bridged or unbridged -/

/-- Bridging `a` and `b` adds the pairs of their addresses. -/
theorem bridgeRules_of_link {a b : α} (hholds : ∀ c y, W.holds c y ↔ V.holds c y)
    (hlink : ∀ c d, W.link c d ↔ V.link c d ∨ (c = a ∧ d = b) ∨ (c = b ∧ d = a)) :
    W.bridgeRules = V.bridgeRules ∪ V.pairRules a b := by
  ext e
  simp only [bridgeRules, pairRules, Set.mem_union, Set.mem_ofPred_eq, hholds, hlink]
  constructor
  · rintro ⟨c, d, u, v, hcd | ⟨rfl, rfl⟩ | ⟨rfl, rfl⟩, hu, hv, rfl⟩
    · exact Or.inl ⟨c, d, u, v, hcd, hu, hv, rfl⟩
    · exact Or.inr ⟨u, v, hu, hv, rfl⟩
    · exact Or.inr ⟨v, u, hv, hu, Sym2.eq_swap⟩
  · rintro (⟨c, d, u, v, hcd, hu, hv, rfl⟩ | ⟨u, v, hu, hv, rfl⟩)
    · exact ⟨c, d, u, v, Or.inl hcd, hu, hv, rfl⟩
    · exact ⟨a, b, u, v, Or.inr (Or.inl ⟨rfl, rfl⟩), hu, hv, rfl⟩

/-- Unbridging `a` and `b` removes the pairs of their addresses, when every address has one
holder at most. -/
theorem bridgeRules_of_unlink {a b : α} (huniq : V.UniqueHolder)
    (hholds : ∀ c y, W.holds c y ↔ V.holds c y)
    (hlink : ∀ c d, W.link c d ↔ V.link c d ∧ ¬ ((c = a ∧ d = b) ∨ (c = b ∧ d = a))) :
    W.bridgeRules = V.bridgeRules \ V.pairRules a b := by
  ext e
  simp only [bridgeRules, pairRules, Set.mem_sdiff, Set.mem_ofPred_eq, hholds, hlink]
  constructor
  · rintro ⟨c, d, u, v, ⟨hcd, hne⟩, hu, hv, rfl⟩
    refine ⟨⟨c, d, u, v, hcd, hu, hv, rfl⟩, ?_⟩
    -- a removed pair has its ends held by `a` and `b`, which then are `c` and `d`
    rintro ⟨x, y, hx, hy, heq⟩
    rcases Sym2.eq_iff.1 heq with ⟨rfl, rfl⟩ | ⟨rfl, rfl⟩
    · exact hne (Or.inl ⟨huniq _ _ _ hu hx, huniq _ _ _ hv hy⟩)
    · exact hne (Or.inr ⟨huniq _ _ _ hu hy, huniq _ _ _ hv hx⟩)
  · rintro ⟨⟨c, d, u, v, hcd, hu, hv, rfl⟩, hnot⟩
    refine ⟨c, d, u, v, ⟨hcd, ?_⟩, hu, hv, rfl⟩
    rintro (⟨rfl, rfl⟩ | ⟨rfl, rfl⟩)
    · exact hnot ⟨u, v, hu, hv, rfl⟩
    · exact hnot ⟨v, u, hv, hu, Sym2.eq_swap⟩

end AddrView

/-! ## The firewall as sets of rules -/

variable [DecidableEq ι]

/-- The firewall context: the addresses with a NAT rule and the address pairs with a bridge
rule.  Both backends install and delete the two directions of a bridge together, so a
bridge is an unordered pair. -/
structure FwContext (ι : Type*) where
  natIps : Finset ι
  bridges : Finset (Sym2 ι)
  deriving DecidableEq

/-- A firewall without rules. -/
def FwContext.empty : FwContext ι := ⟨∅, ∅⟩

/-- `fw_add_nat`. -/
def fwAddNat (context : FwContext ι) (ipAddr : ι) : FwContext ι :=
  { context with natIps := insert ipAddr context.natIps }

/-- `fw_remove_nat`. -/
def fwRemoveNat (context : FwContext ι) (ipAddr : ι) : FwContext ι :=
  { context with natIps := context.natIps.erase ipAddr }

/-- `fw_add_bridge`. -/
def fwAddBridge (context : FwContext ι) (ipAddrLeft ipAddrRight : ι) : FwContext ι :=
  { context with bridges := insert s(ipAddrLeft, ipAddrRight) context.bridges }

/-- `fw_remove_bridge`. -/
def fwRemoveBridge (context : FwContext ι) (ipAddrLeft ipAddrRight : ι) : FwContext ι :=
  { context with bridges := context.bridges.erase s(ipAddrLeft, ipAddrRight) }

variable (context : FwContext ι) (x y : ι)

@[simp] theorem fwAddNat_natIps : (fwAddNat context x).natIps = insert x context.natIps := rfl
@[simp] theorem fwAddNat_bridges : (fwAddNat context x).bridges = context.bridges := rfl
@[simp] theorem fwRemoveNat_natIps : (fwRemoveNat context x).natIps = context.natIps.erase x := rfl
@[simp] theorem fwRemoveNat_bridges : (fwRemoveNat context x).bridges = context.bridges := rfl
@[simp] theorem fwAddBridge_natIps : (fwAddBridge context x y).natIps = context.natIps := rfl
@[simp] theorem fwAddBridge_bridges :
    (fwAddBridge context x y).bridges = insert s(x, y) context.bridges := rfl
@[simp] theorem fwRemoveBridge_natIps : (fwRemoveBridge context x y).natIps = context.natIps := rfl
@[simp] theorem fwRemoveBridge_bridges :
    (fwRemoveBridge context x y).bridges = context.bridges.erase s(x, y) := rfl

/-! ## Properties of the addresses a firewall names -/

/-- Every address the firewall names, with NAT or in a bridge, has the property `P`. -/
structure FwContext.Names (P : ι → Prop) (context : FwContext ι) : Prop where
  nat : ∀ x ∈ context.natIps, P x
  bridge : ∀ x y, s(x, y) ∈ context.bridges → P x

omit [DecidableEq ι] in
theorem FwContext.names_empty (P : ι → Prop) : (FwContext.empty : FwContext ι).Names P :=
  ⟨fun _ h => absurd h (Finset.notMem_empty _), fun _ _ h => absurd h (Finset.notMem_empty _)⟩

namespace FwContext.Names

variable {P : ι → Prop} {context : FwContext ι} (h : context.Names P)
include h

omit [DecidableEq ι] in
theorem bridge_right {x y : ι} (hxy : s(x, y) ∈ context.bridges) : P y :=
  h.bridge y x (Sym2.eq_swap ▸ hxy)

theorem fwAddNat {x : ι} (hx : P x) : (fwAddNat context x).Names P where
  nat u hu := by
    rw [fwAddNat_natIps, Finset.mem_insert] at hu
    rcases hu with rfl | hu
    · exact hx
    · exact h.nat u hu
  bridge := h.bridge

theorem fwRemoveNat (x : ι) : (fwRemoveNat context x).Names P where
  nat u hu := h.nat u (Finset.mem_of_mem_erase hu)
  bridge := h.bridge

theorem fwAddBridge {x y : ι} (hx : P x) (hy : P y) : (fwAddBridge context x y).Names P where
  nat := h.nat
  bridge u v huv := by
    rw [fwAddBridge_bridges, Finset.mem_insert] at huv
    rcases huv with huv | huv
    · rcases Sym2.eq_iff.1 huv with ⟨rfl, -⟩ | ⟨rfl, -⟩
      · exact hx
      · exact hy
    · exact h.bridge u v huv

theorem fwRemoveBridge (x y : ι) : (fwRemoveBridge context x y).Names P where
  nat := h.nat
  bridge u v huv := h.bridge u v (Finset.mem_of_mem_erase huv)

end FwContext.Names

end EdgeSec.Firewall
