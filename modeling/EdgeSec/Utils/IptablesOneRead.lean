import EdgeSec.Lib.ListEdit
import EdgeSec.Utils.IptablesBridge

/-!
# The bridge commands when every listing is read at once

`Utils/IptablesBridge` shows that `iptables_delete_bridge` misses the rules
`iptables_add_bridge` inserted once the listing of `FORWARD` takes two reads of the pipe.  Here
every chain the two commands list fits in one read of `PIPE_BUF` bytes, and the commands do
what they are for.

What `iptables -L chain --line-numbers -n -v` prints is not fixed here: `Listing` is any text
that has a header, that gives back the rows of its rules when it fits in one read, and that is
no longer for fewer rules.  That is all the backend relies on; how wide `iptables` pads its
columns and what its headers say do not matter.  `compactListing` is the text of `listing`, one
space between columns.  The conditions are stated on the chains and on the text of the listing
as the system prints it.

* `iptablesAddBridge_of_readsAtOnce`: the rule of each direction goes in before the base rule
  of its input interface, or first when the interface has none;
* `accept_precedes_base`: so, whatever `FORWARD` held, each comes before every base rule of its
  input interface;
* `iptablesDeleteBridge_iptablesAddBridge`: deleting the pair after adding it gives back the
  chains;
* `iptablesAddBridge_iptablesAddBridge`: adding the pair twice leaves the chains as adding it
  once;
* `iptablesDeleteNat_iptablesAddNat`: deleting the NAT of a station after adding it gives back
  `FORWARD` and `POSTROUTING`.
-/

namespace EdgeSec

namespace Iptables

open Os ListEdit

/-! ## Listings -/

/-- What the backend needs of the text `iptables -L chain --line-numbers -n -v` prints for the
rules of a chain: it is never empty, one that fits in one read gives back the rows of rules
that read back, and fewer rules, in any order, print no longer a text. -/
structure Listing where
  text : ChainName → List Rule → List Char
  ne_nil : ∀ chain rules, text chain rules ≠ []
  reads_back : ∀ chain rules, (∀ r ∈ rules, r.Fits) → (text chain rules).length ≤ pipeBuf →
    listRuleCb [] (text chain rules) = ruleRows 1 rules
  length_le_of_subperm : ∀ chain {rules rules' : List Rule}, rules.Subperm rules' →
    (text chain rules).length ≤ (text chain rules').length

/-- Every rule adds at least one digit to the listing. -/
theorem length_le_length_listing (chain : ChainName) (rules : List Rule) :
    rules.length ≤ (listing chain rules).length := by
  have hdigits := List.length_le_sum_of_one_le
    ((List.range rules.length).map fun i => (Nat.toDigits 10 (1 + i)).length) (by
      intro d hd
      obtain ⟨i, -, rfl⟩ := List.mem_map.1 hd
      exact List.length_pos_iff.2 Nat.toDigits_ne_nil)
  rw [List.length_map, List.length_range] at hdigits
  rw [length_listing]
  omega

/-- The listing of some of the rules, in any order, is no longer than the listing of all. -/
theorem length_listing_le_of_subperm (chain : ChainName) {rules rules' : List Rule}
    (h : rules.Subperm rules') : (listing chain rules).length ≤ (listing chain rules').length := by
  have hdigits : ((List.range rules.length).map fun i => (Nat.toDigits 10 (1 + i)).length).sum ≤
      ((List.range rules'.length).map fun i => (Nat.toDigits 10 (1 + i)).length).sum :=
    ((List.range_sublist.2 h.length_le).map _).sum_le_sum fun _ _ => Nat.zero_le _
  have hwidths := sum_map_le_of_subperm (fun rule => rule.width + 17) h
  rw [length_listing, length_listing chain rules']
  omega

theorem listing_ne_nil (chain : ChainName) (rules : List Rule) : listing chain rules ≠ [] := by
  -- the first line of the header ends with a newline
  rw [listing, listingHeader, List.cons_append, List.flatMap_cons]
  exact List.append_ne_nil_of_left_ne_nil
    (List.append_ne_nil_of_right_ne_nil _ (List.cons_ne_nil _ _)) _

/-- A listing that fits in one read gives back the rows of its rules: a rule count that fits
in `PIPE_BUF` bytes is far below `LONG_MAX`. -/
theorem listRuleCb_listing_of_le (chain : ChainName) (rules : List Rule)
    (hfit : ∀ r ∈ rules, r.Fits) (hlen : (listing chain rules).length ≤ pipeBuf) :
    listRuleCb [] (listing chain rules) = ruleRows 1 rules := by
  refine listRuleCb_listing chain hfit ?_
  have hnum := (length_le_length_listing chain rules).trans hlen
  rw [pipeBuf] at hnum
  rw [longMax]
  omega

/-- The text of `listing` is a listing. -/
def compactListing : Listing where
  text := listing
  ne_nil := listing_ne_nil
  reads_back := listRuleCb_listing_of_le
  length_le_of_subperm chain _ _ h := length_listing_le_of_subperm chain h

section OneRead

variable (L : Listing)

/-- A chain that `get_filter_rules` reads back whole: every rule reads back, there is one,
and the listing fits in one read. -/
structure ReadsAtOnce (chain : ChainName) (rules : List Rule) : Prop where
  fits : ∀ r ∈ rules, r.Fits
  ne_nil : rules ≠ []
  length_le : (L.text chain rules).length ≤ pipeBuf

instance (chain : ChainName) (rules : List Rule) : Decidable (ReadsAtOnce L chain rules) :=
  decidable_of_iff ((∀ r ∈ rules, r.Fits) ∧ rules ≠ [] ∧ (L.text chain rules).length ≤ pipeBuf)
    ⟨fun ⟨hf, hn, hl⟩ => ⟨hf, hn, hl⟩, fun h => ⟨h.fits, h.ne_nil, h.length_le⟩⟩

variable {L}

/-- `get_filter_rules` over a chain read at once leaves the rows of the whole chain. -/
theorem getChainRules_of_readsAtOnce {fw : Firewall} (hexec : fw.ctx.execIptables = true)
    {chain : ChainName} {rules : List Rule} (h : ReadsAtOnce L chain rules)
    (hchain : fw.chains.get chain = rules) :
    getChainRules (drainedPipeWith L.text) fw chain =
      (0, { fw with ctx := { fw.ctx with ruleList := ruleRows 1 rules } }) := by
  subst hchain
  exact getChainRules_drainedPipeWith hexec
    (show _ = [] ++ [_] from drainedReads_of_le (L.ne_nil _ _) h.length_le)
    (L.reads_back _ _ h.fits h.length_le) (ruleRows_ne_nil h.ne_nil)

/-- A part of a chain read at once is read at once, when it is not empty. -/
theorem ReadsAtOnce.of_sublist {chain : ChainName} {rules rules' : List Rule}
    (h : ReadsAtOnce L chain rules') (hsub : rules.Sublist rules') (hne : rules ≠ []) :
    ReadsAtOnce L chain rules :=
  ⟨fun r hr => h.fits r (hsub.subset hr), hne,
    (L.length_le_of_subperm chain hsub.subperm).trans h.length_le⟩

/-- `get_filter_rules` over an empty chain whose listing fits in one read reads back no row
and returns `-1`. -/
theorem getChainRules_of_nil {fw : Firewall} (hexec : fw.ctx.execIptables = true)
    (chain : ChainName) (hchain : fw.chains.get chain = [])
    (hlen : (L.text chain []).length ≤ pipeBuf) :
    getChainRules (drainedPipeWith L.text) fw chain =
      (-1, { fw with ctx := { fw.ctx with ruleList := [] } }) := by
  have hreads : drainedReads (L.text chain []) = [] ++ [L.text chain []] :=
    drainedReads_of_le (L.ne_nil _ _) hlen
  have hrows : listRuleCb [] (L.text chain []) = [] :=
    L.reads_back chain [] (fun _ h => absurd h List.not_mem_nil) hlen
  simp only [getChainRules, getFilterRules, runIptables, listRun, drainedPipeWith, hexec, if_true,
    hchain, hreads, readCommandOutput_listRuleCb, hrows, Bool.not_true, Bool.false_eq_true,
    if_false, ne_eq, not_true_eq_false]

end OneRead

/-! ## Where the commands insert and delete -/

/-- Where `add_bridge_rule` puts the rule of `ifname`: at the first base rule of `ifname`, or
first when there is none. -/
def basePos (rules : List Rule) (ifname : List Char) : ℕ :=
  firstIdx (fun rule => decide (rule.IsBase ifname)) rules

theorem basePos_le_length (rules : List Rule) (ifname : List Char) :
    basePos rules ifname ≤ rules.length :=
  firstIdx_le_length _ rules

/-- The number `add_bridge_rule` passes to `iptables -I`, from the rows of a whole chain. -/
theorem insertNum_ruleRows (rules : List Rule) (ifname : List Char) :
    (if findBaseifRulenum (ruleRows 1 rules) ifname = 0 then 1
      else findBaseifRulenum (ruleRows 1 rules) ifname) = ((1 + basePos rules ifname : ℕ) : ℤ) := by
  rw [findBaseifRulenum_ruleRows, basePos, firstIdx]
  cases rules.findIdx? (fun rule => decide (rule.IsBase ifname)) with
  | none => rfl
  | some i => rw [Option.map_some, Option.getD_some, Option.getD_some, if_neg (by omega)]

theorem findRule_ruleRows_of_not_mem {rules : List Rule} {sip sif dip dif target : List Char}
    (h : bridgeRule sip sif dip dif target ∉ rules) :
    findRule (ruleRows 1 rules) sip sif dip dif target = 0 := by
  rw [findRule_ruleRows, if_neg h]

theorem findRule_ruleRows_ne_zero {rules : List Rule} {sip sif dip dif target : List Char}
    (h : bridgeRule sip sif dip dif target ∈ rules) :
    findRule (ruleRows 1 rules) sip sif dip dif target ≠ 0 := by
  rw [findRule_ruleRows, if_pos h]
  omega

/-- `iptables -D` at the number `find_rule` read from the rows of a whole chain takes out the
first copy of the rule. -/
theorem deleteRule_findRule {rules : List Rule} {sip sif dip dif target : List Char}
    (h : bridgeRule sip sif dip dif target ∈ rules) :
    deleteRule rules (findRule (ruleRows 1 rules) sip sif dip dif target) =
      rules.erase (bridgeRule sip sif dip dif target) := by
  rw [findRule_ruleRows, if_pos h, deleteRule_of_lt (List.idxOf_lt_length_iff.2 h),
    List.eraseIdx_idxOf_eq_erase]

/-- `FORWARD` after `add_bridge_rule` of one direction read the whole chain. -/
def insertAccept (rules : List Rule) (sip sif dip dif : List Char) : List Rule :=
  rules.insertIdx (basePos rules sif) (bridgeRule sip sif dip dif "ACCEPT".toList)

theorem sublist_insertAccept (rules : List Rule) (sip sif dip dif : List Char) :
    rules.Sublist (insertAccept rules sip sif dip dif) :=
  List.sublist_insertIdx _ _ _

theorem perm_insertAccept (rules : List Rule) (sip sif dip dif : List Char) :
    (insertAccept rules sip sif dip dif).Perm
      (bridgeRule sip sif dip dif "ACCEPT".toList :: rules) :=
  List.perm_insertIdx _ _ (basePos_le_length rules sif)

/-- The inserted rule comes before every base rule of its input interface. -/
theorem accept_sublist_insertAccept {rules : List Rule} {sif : List Char} {b : Rule}
    (hb : b ∈ rules) (hbase : b.IsBase sif) (sip dip dif : List Char) :
    [bridgeRule sip sif dip dif "ACCEPT".toList, b].Sublist (insertAccept rules sip sif dip dif) :=
  sublist_insertIdx_firstIdx _ _ hb (decide_eq_true hbase)

/-- The rule of the other direction reads back when the rule of one does. -/
theorem bridgeRule_fits_swap {sip sif dip dif target : List Char}
    (h : (bridgeRule sip sif dip dif target).Fits) : (bridgeRule dip dif sip sif target).Fits :=
  ⟨h.target, h.outIf, h.inIf, h.destination, h.source⟩

/-- A base rule rejects, so it is no `ACCEPT` rule the commands delete. -/
theorem ne_of_isBase {b : Rule} {ifname : List Char} (hb : b.IsBase ifname)
    (sip sif dip dif : List Char) : b ≠ bridgeRule sip sif dip dif "ACCEPT".toList := by
  intro he
  have htarget : b.target = "ACCEPT".toList := by rw [he]; rfl
  exact absurd (hb.2.2.symm.trans htarget) (by decide)

/-! ## One command over a chain read at once -/

section Commands

variable {L : Listing}

/-- `delete_bridge_rule` over a `FORWARD` chain read at once deletes the first copy of the
rule, if there is one. -/
theorem deleteBridgeRule_of_readsAtOnce (fw : Firewall) (hexec : fw.ctx.execIptables = true)
    (hread : ReadsAtOnce L .forward fw.chains.forward) (sip sif dip dif : List Char) :
    deleteBridgeRule (drainedPipeWith L.text) fw sip sif dip dif =
      (0, ⟨{ fw.ctx with ruleList := ruleRows 1 fw.chains.forward }, fw.chains.set .forward
        (fw.chains.forward.erase (bridgeRule sip sif dip dif "ACCEPT".toList))⟩) := by
  rw [deleteBridgeRule_of_getChainRules rfl (getChainRules_of_readsAtOnce hexec hread rfl) hexec]
  dsimp only
  by_cases hmem : bridgeRule sip sif dip dif "ACCEPT".toList ∈ fw.chains.forward
  · rw [if_neg (findRule_ruleRows_ne_zero hmem), applyEdit, Chains.get_forward,
      deleteRule_findRule hmem]
  · rw [findRule_ruleRows_of_not_mem hmem, if_pos rfl, List.erase_of_not_mem hmem,
      Chains.set_forward_self]

/-- `add_bridge_rule` over a `FORWARD` chain read at once inserts at `basePos`. -/
theorem addBridgeRule_of_readsAtOnce (fw : Firewall) (hexec : fw.ctx.execIptables = true)
    {sip dip : List Char} (hsip : Net.validateIpv4String sip = true)
    (hdip : Net.validateIpv4String dip = true) (hread : ReadsAtOnce L .forward fw.chains.forward)
    (sif dif : List Char) (hfit : (bridgeRule sip sif dip dif "ACCEPT".toList).Fits) :
    addBridgeRule (drainedPipeWith L.text) fw sip sif dip dif =
      (0, ⟨{ fw.ctx with ruleList := ruleRows 1 fw.chains.forward },
        fw.chains.set .forward (insertAccept fw.chains.forward sip sif dip dif)⟩) := by
  rw [addBridgeRule_of_getChainRules rfl hsip hdip (getChainRules_of_readsAtOnce hexec hread rfl)
    hexec]
  dsimp only
  rw [insertNum_ruleRows, applyEdit, Chains.get_forward, Rule.ofArgs_of_fits hfit,
    insertRule_of_le (basePos_le_length _ _)]
  rfl

end Commands

/-- `add_bridge_rule` refuses an address that fails `validate_ipv4_string` before it lists
anything. -/
theorem addBridgeRule_of_invalid (env : IptablesEnv) (fw : Firewall) {sip dip : List Char}
    (h : Net.validateIpv4String sip = false ∨ Net.validateIpv4String dip = false)
    (sif dif : List Char) : addBridgeRule env fw sip sif dip dif = (-1, fw) := by
  rcases h with h | h
  · rw [addBridgeRule, h]
    rfl
  · -- `sip` is checked first, so either its check or that of `dip` refuses
    by_cases hs : Net.validateIpv4String sip = true
    · rw [addBridgeRule, hs, h]
      rfl
    · rw [addBridgeRule, Bool.eq_false_iff.2 hs]
      rfl

/-! ## The pair of rules -/

/-- `FORWARD` after `iptables_add_bridge` inserted the rules of both directions. -/
def insertPair (rules : List Rule) (sip sif dip dif : List Char) : List Rule :=
  insertAccept (insertAccept rules sip sif dip dif) dip dif sip sif

section PairConditions

variable (L : Listing)

/-- What the inserts of a pair need: both addresses pass `validate_ipv4_string`, the rule of
each direction reads back, and `FORWARD` reads at once, also with both rules added. -/
structure PairFits (rules : List Rule) (sip sif dip dif : List Char) : Prop where
  sip_valid : Net.validateIpv4String sip = true
  dip_valid : Net.validateIpv4String dip = true
  fits : (bridgeRule sip sif dip dif "ACCEPT".toList).Fits
  reads : ReadsAtOnce L .forward rules
  length_le : (L.text .forward (bridgeRule sip sif dip dif "ACCEPT".toList ::
    bridgeRule dip dif sip sif "ACCEPT".toList :: rules)).length ≤ pipeBuf

/-- ... and neither rule of the pair is in `FORWARD` yet. -/
structure PairReadsAtOnce (rules : List Rule) (sip sif dip dif : List Char) : Prop
    extends PairFits L rules sip sif dip dif where
  out_not_mem : bridgeRule sip sif dip dif "ACCEPT".toList ∉ rules
  back_not_mem : bridgeRule dip dif sip sif "ACCEPT".toList ∉ rules

instance (rules : List Rule) (sip sif dip dif : List Char) :
    Decidable (PairFits L rules sip sif dip dif) :=
  decidable_of_iff (Net.validateIpv4String sip = true ∧ Net.validateIpv4String dip = true ∧
      (bridgeRule sip sif dip dif "ACCEPT".toList).Fits ∧ ReadsAtOnce L .forward rules ∧
      (L.text .forward (bridgeRule sip sif dip dif "ACCEPT".toList ::
        bridgeRule dip dif sip sif "ACCEPT".toList :: rules)).length ≤ pipeBuf)
    ⟨fun ⟨h₁, h₂, h₃, h₄, h₅⟩ => ⟨h₁, h₂, h₃, h₄, h₅⟩,
      fun h => ⟨h.sip_valid, h.dip_valid, h.fits, h.reads, h.length_le⟩⟩

instance (rules : List Rule) (sip sif dip dif : List Char) :
    Decidable (PairReadsAtOnce L rules sip sif dip dif) :=
  decidable_of_iff (PairFits L rules sip sif dip dif ∧
      bridgeRule sip sif dip dif "ACCEPT".toList ∉ rules ∧
      bridgeRule dip dif sip sif "ACCEPT".toList ∉ rules)
    ⟨fun ⟨h, h₁, h₂⟩ => ⟨h, h₁, h₂⟩, fun h => ⟨h.toPairFits, h.out_not_mem, h.back_not_mem⟩⟩

end PairConditions

/-- The bridge between `10.0.0.2` on `br0` and `10.0.1.2` on `br1`, next to the base rule of
`br0`. -/
example : PairReadsAtOnce compactListing [rejectBr0] "10.0.0.2".toList "br0".toList
    "10.0.1.2".toList "br1".toList := by
  decide +kernel

/-- `iptables` there, the base rule of `br0` alone in `FORWARD`, and `POSTROUTING` empty. -/
def br0Firewall : Firewall := ⟨⟨[], true⟩, ⟨[rejectBr0], []⟩⟩

theorem perm_insertPair (rules : List Rule) (sip sif dip dif : List Char) :
    (insertPair rules sip sif dip dif).Perm (bridgeRule dip dif sip sif "ACCEPT".toList ::
      bridgeRule sip sif dip dif "ACCEPT".toList :: rules) :=
  (perm_insertAccept _ dip dif sip sif).trans ((perm_insertAccept rules sip sif dip dif).cons _)

theorem sublist_insertPair (rules : List Rule) (sip sif dip dif : List Char) :
    rules.Sublist (insertPair rules sip sif dip dif) :=
  (sublist_insertAccept rules sip sif dip dif).trans (sublist_insertAccept _ dip dif sip sif)

namespace PairFits

variable {L : Listing} {rules : List Rule} {sip sif dip dif : List Char}
  (h : PairFits L rules sip sif dip dif)
include h

/-- Every chain the pair's commands list holds `FORWARD` and at most the two rules. -/
theorem readsAtOnce {l : List Rule} (hsub : rules.Sublist l)
    (hperm : l.Subperm (bridgeRule sip sif dip dif "ACCEPT".toList ::
      bridgeRule dip dif sip sif "ACCEPT".toList :: rules)) : ReadsAtOnce L .forward l where
  fits r hr := by
    rcases List.mem_cons.1 (hperm.subset hr) with rfl | hr
    · exact h.fits
    rcases List.mem_cons.1 hr with rfl | hr
    · exact bridgeRule_fits_swap h.fits
    · exact h.reads.fits r hr
  ne_nil hl := h.reads.ne_nil (List.eq_nil_of_sublist_nil (hl ▸ hsub))
  length_le := (L.length_le_of_subperm .forward hperm).trans h.length_le

theorem readsAtOnce_insertAccept : ReadsAtOnce L .forward (insertAccept rules sip sif dip dif) :=
  h.readsAtOnce (sublist_insertAccept rules sip sif dip dif)
    ((perm_insertAccept rules sip sif dip dif).subperm.trans
      (((List.sublist_cons_self _ rules).cons_cons _).subperm))

/-- A chain with both rules added anywhere reads at once. -/
theorem readsAtOnce_of_added {l : List Rule} (hsub : rules.Sublist l)
    (hperm : l.Perm (bridgeRule dip dif sip sif "ACCEPT".toList ::
      bridgeRule sip sif dip dif "ACCEPT".toList :: rules)) : ReadsAtOnce L .forward l :=
  h.readsAtOnce hsub (hperm.trans (List.Perm.swap _ _ rules)).subperm

end PairFits

/-- ... and so does it once the first copy of the rule of `sip` is gone, when `FORWARD` did not
hold it. -/
theorem PairReadsAtOnce.readsAtOnce_erase_of_added {L : Listing} {rules : List Rule}
    {sip sif dip dif : List Char} (h : PairReadsAtOnce L rules sip sif dip dif) {l : List Rule}
    (hsub : rules.Sublist l)
    (hperm : l.Perm (bridgeRule dip dif sip sif "ACCEPT".toList ::
      bridgeRule sip sif dip dif "ACCEPT".toList :: rules)) :
    ReadsAtOnce L .forward (l.erase (bridgeRule sip sif dip dif "ACCEPT".toList)) := by
  have hsub' := hsub.erase (bridgeRule sip sif dip dif "ACCEPT".toList)
  rw [List.erase_of_not_mem h.out_not_mem] at hsub'
  exact h.readsAtOnce hsub'
    (List.erase_sublist.subperm.trans (hperm.trans (List.Perm.swap _ _ rules)).subperm)

/-! ## `iptables_add_bridge` and `iptables_delete_bridge` over chains read at once -/

section Pair

variable {L : Listing} {sip sif dip dif : List Char}

/-- `iptables_delete_bridge` over `FORWARD` read at once before each of its two deletes: the
first copy of the rule of each direction goes. -/
theorem iptablesDeleteBridge_eq_erase_erase (fw : Firewall) (hexec : fw.ctx.execIptables = true)
    (hread : ReadsAtOnce L .forward fw.chains.forward)
    (hread₁ : ReadsAtOnce L .forward
      (fw.chains.forward.erase (bridgeRule sip sif dip dif "ACCEPT".toList))) :
    iptablesDeleteBridge (drainedPipeWith L.text) fw sip sif dip dif =
      (0, ⟨{ fw.ctx with
          ruleList :=
            ruleRows 1 (fw.chains.forward.erase (bridgeRule sip sif dip dif "ACCEPT".toList)) },
        fw.chains.set .forward ((fw.chains.forward.erase
          (bridgeRule sip sif dip dif "ACCEPT".toList)).erase
            (bridgeRule dip dif sip sif "ACCEPT".toList))⟩) := by
  have h₁ := deleteBridgeRule_of_readsAtOnce fw hexec hread sip sif dip dif
  have h₂ := deleteBridgeRule_of_readsAtOnce
    ⟨{ fw.ctx with ruleList := ruleRows 1 fw.chains.forward }, fw.chains.set .forward
      (fw.chains.forward.erase (bridgeRule sip sif dip dif "ACCEPT".toList))⟩ hexec hread₁
    dip dif sip sif
  rw [Chains.forward_set_forward, Chains.set_set] at h₂
  rw [iptablesDeleteBridge, h₁]
  exact h₂

/-- `iptables_delete_bridge` over a `FORWARD` chain with neither rule of the pair changes no
chain. -/
theorem iptablesDeleteBridge_of_not_mem (fw : Firewall) (hexec : fw.ctx.execIptables = true)
    (hread : ReadsAtOnce L .forward fw.chains.forward)
    (hout : bridgeRule sip sif dip dif "ACCEPT".toList ∉ fw.chains.forward)
    (hback : bridgeRule dip dif sip sif "ACCEPT".toList ∉ fw.chains.forward) :
    iptablesDeleteBridge (drainedPipeWith L.text) fw sip sif dip dif =
      (0, ⟨{ fw.ctx with ruleList := ruleRows 1 fw.chains.forward }, fw.chains⟩) := by
  have h := iptablesDeleteBridge_eq_erase_erase fw hexec hread
    (by rwa [List.erase_of_not_mem hout])
  rwa [List.erase_of_not_mem hout, List.erase_of_not_mem hback, Chains.set_forward_self] at h

/-- `iptables_delete_bridge` over a `FORWARD` chain with both rules of the pair added anywhere
takes them out again. -/
theorem iptablesDeleteBridge_of_added (fw : Firewall) (hexec : fw.ctx.execIptables = true)
    {rules : List Rule} (h : PairReadsAtOnce L rules sip sif dip dif)
    (hsub : rules.Sublist fw.chains.forward)
    (hperm : fw.chains.forward.Perm (bridgeRule dip dif sip sif "ACCEPT".toList ::
      bridgeRule sip sif dip dif "ACCEPT".toList :: rules)) :
    iptablesDeleteBridge (drainedPipeWith L.text) fw sip sif dip dif =
      (0, ⟨{ fw.ctx with ruleList := ruleRows 1 (fw.chains.forward.erase
        (bridgeRule sip sif dip dif "ACCEPT".toList)) }, fw.chains.set .forward rules⟩) := by
  have h₂ := iptablesDeleteBridge_eq_erase_erase fw hexec (h.readsAtOnce_of_added hsub hperm)
    (h.readsAtOnce_erase_of_added hsub hperm)
  -- the two deletes take out the first copies, which leaves `rules`
  rwa [erase_erase_of_perm h.out_not_mem h.back_not_mem hsub hperm] at h₂

/-- `iptables_add_bridge` once its deletes left a `FORWARD` chain the pair's inserts read at
once: the rule of `sip` goes in first, then that of `dip` into the chain that holds it. -/
theorem iptablesAddBridge_of_deleted {fw fw₀ : Firewall}
    (hdel : (iptablesDeleteBridge (drainedPipeWith L.text) fw sip sif dip dif).2 = fw₀)
    (hexec : fw₀.ctx.execIptables = true) (h : PairFits L fw₀.chains.forward sip sif dip dif) :
    iptablesAddBridge (drainedPipeWith L.text) fw sip sif dip dif =
      (0, ⟨{ fw₀.ctx with
          ruleList := ruleRows 1 (insertAccept fw₀.chains.forward sip sif dip dif) },
        fw₀.chains.set .forward (insertPair fw₀.chains.forward sip sif dip dif)⟩) := by
  have hs := addBridgeRule_of_readsAtOnce fw₀ hexec h.sip_valid h.dip_valid h.reads sif dif h.fits
  have hd := addBridgeRule_of_readsAtOnce
    ⟨{ fw₀.ctx with ruleList := ruleRows 1 fw₀.chains.forward },
      fw₀.chains.set .forward (insertAccept fw₀.chains.forward sip sif dip dif)⟩ hexec
    h.dip_valid h.sip_valid h.readsAtOnce_insertAccept dif sif (bridgeRule_fits_swap h.fits)
  rw [Chains.forward_set_forward, Chains.set_set] at hd
  rw [iptablesAddBridge_of_addBridgeRule hdel hs hd]
  rfl

/-- `iptables_add_bridge` over `FORWARD` read at once, when the pair has no rule in it yet:
the rule of each direction goes in before the base rule of its input interface. -/
theorem iptablesAddBridge_of_readsAtOnce {fw : Firewall} (hexec : fw.ctx.execIptables = true)
    (h : PairReadsAtOnce L fw.chains.forward sip sif dip dif) :
    iptablesAddBridge (drainedPipeWith L.text) fw sip sif dip dif =
      (0, ⟨{ fw.ctx with ruleList := ruleRows 1 (insertAccept fw.chains.forward sip sif dip dif) },
        fw.chains.set .forward (insertPair fw.chains.forward sip sif dip dif)⟩) := by
  -- the deletes find nothing and change no chain
  have hdel : (iptablesDeleteBridge (drainedPipeWith L.text) fw sip sif dip dif).2 =
      ⟨{ fw.ctx with ruleList := ruleRows 1 fw.chains.forward }, fw.chains⟩ := by
    rw [iptablesDeleteBridge_of_not_mem fw hexec h.reads h.out_not_mem h.back_not_mem]
  rw [iptablesAddBridge_of_deleted hdel hexec h.toPairFits]

/-- `iptables_add_bridge` of a pair with an address `validate_ipv4_string` refuses, over a
`FORWARD` chain read at once without the pair's rules: the deletes find nothing, the first
insert is refused, and the command returns `-1` with the chains as they were. -/
theorem iptablesAddBridge_of_invalid (fw : Firewall) (hexec : fw.ctx.execIptables = true)
    (hread : ReadsAtOnce L .forward fw.chains.forward)
    (hout : bridgeRule sip sif dip dif "ACCEPT".toList ∉ fw.chains.forward)
    (hback : bridgeRule dip dif sip sif "ACCEPT".toList ∉ fw.chains.forward)
    (hinv : Net.validateIpv4String sip = false ∨ Net.validateIpv4String dip = false) :
    iptablesAddBridge (drainedPipeWith L.text) fw sip sif dip dif =
      (-1, ⟨{ fw.ctx with ruleList := ruleRows 1 fw.chains.forward }, fw.chains⟩) := by
  simp only [iptablesAddBridge, iptablesDeleteBridge_of_not_mem fw hexec hread hout hback,
    addBridgeRule_of_invalid _ _ hinv, Int.reduceLT, if_true]

/-- `iptables_delete_bridge` over a `FORWARD` chain read at once, whatever it holds: the first
copy of the rule of each direction goes. -/
theorem iptablesDeleteBridge_of_readsAtOnce (fw : Firewall) (hexec : fw.ctx.execIptables = true)
    (hread : ReadsAtOnce L .forward fw.chains.forward)
    (hne : fw.chains.forward.erase (bridgeRule sip sif dip dif "ACCEPT".toList) ≠ []) :
    iptablesDeleteBridge (drainedPipeWith L.text) fw sip sif dip dif =
      (0, ⟨⟨ruleRows 1 (fw.chains.forward.erase (bridgeRule sip sif dip dif "ACCEPT".toList)),
          fw.ctx.execIptables⟩,
        fw.chains.set .forward ((fw.chains.forward.erase
          (bridgeRule sip sif dip dif "ACCEPT".toList)).erase
            (bridgeRule dip dif sip sif "ACCEPT".toList))⟩) := by
  -- the second listing is the first chain less one rule, which still reads at once
  exact iptablesDeleteBridge_eq_erase_erase fw hexec hread
    (hread.of_sublist List.erase_sublist hne)

/-- `iptables_add_bridge` over a `FORWARD` chain read at once, whatever it holds: the first
copies of the pair's rules go, then the rule of each direction goes in before the base rule
of its input interface. -/
theorem iptablesAddBridge_of_readsAtOnce_erase {fw : Firewall} (hexec : fw.ctx.execIptables = true)
    (hread : ReadsAtOnce L .forward fw.chains.forward)
    (hne : fw.chains.forward.erase (bridgeRule sip sif dip dif "ACCEPT".toList) ≠ [])
    (h : PairFits L ((fw.chains.forward.erase (bridgeRule sip sif dip dif "ACCEPT".toList)).erase
      (bridgeRule dip dif sip sif "ACCEPT".toList)) sip sif dip dif) :
    (iptablesAddBridge (drainedPipeWith L.text) fw sip sif dip dif).1 = 0 ∧
      (iptablesAddBridge (drainedPipeWith L.text) fw sip sif dip dif).2.ctx.execIptables = true ∧
      (iptablesAddBridge (drainedPipeWith L.text) fw sip sif dip dif).2.chains =
        fw.chains.set .forward (insertPair ((fw.chains.forward.erase
          (bridgeRule sip sif dip dif "ACCEPT".toList)).erase
            (bridgeRule dip dif sip sif "ACCEPT".toList)) sip sif dip dif) := by
  have hdel := congrArg Prod.snd (iptablesDeleteBridge_of_readsAtOnce fw hexec hread hne)
  rw [iptablesAddBridge_of_deleted hdel hexec h]
  refine ⟨rfl, hexec, ?_⟩
  dsimp only
  exact Chains.set_set _ _ _ _

/-- After `iptables_add_bridge`, whatever `FORWARD` held before, the rule of each direction
comes before every base rule of its input interface, so no base rule rejects what the pair
lets through.  What it needs: both addresses are valid, the pair's rules and those of
`FORWARD` read back, and `FORWARD` with the pair's rules added fits in one read. -/
theorem accept_precedes_base {fw : Firewall} (hexec : fw.ctx.execIptables = true)
    (hsip : Net.validateIpv4String sip = true) (hdip : Net.validateIpv4String dip = true)
    (hfit : (bridgeRule sip sif dip dif "ACCEPT".toList).Fits)
    (hfits : ∀ r ∈ fw.chains.forward, r.Fits)
    (hlen : (L.text .forward (bridgeRule sip sif dip dif "ACCEPT".toList ::
      bridgeRule dip dif sip sif "ACCEPT".toList :: fw.chains.forward)).length ≤ pipeBuf)
    {b : Rule} (hb : b ∈ fw.chains.forward) :
    (b.IsBase sif → [bridgeRule sip sif dip dif "ACCEPT".toList, b].Sublist
      (iptablesAddBridge (drainedPipeWith L.text) fw sip sif dip dif).2.chains.forward) ∧
    (b.IsBase dif → [bridgeRule dip dif sip sif "ACCEPT".toList, b].Sublist
      (iptablesAddBridge (drainedPipeWith L.text) fw sip sif dip dif).2.chains.forward) := by
  -- a base rule survives the two deletes, so the chain they leave is not empty
  have hkeep : ∀ {ifname : List Char}, b.IsBase ifname →
      b ∈ (fw.chains.forward.erase (bridgeRule sip sif dip dif "ACCEPT".toList)).erase
        (bridgeRule dip dif sip sif "ACCEPT".toList) := fun hbase =>
    (List.mem_erase_of_ne (ne_of_isBase hbase _ _ _ _)).2
      ((List.mem_erase_of_ne (ne_of_isBase hbase _ _ _ _)).2 hb)
  have hsub : ((fw.chains.forward.erase (bridgeRule sip sif dip dif "ACCEPT".toList)).erase
      (bridgeRule dip dif sip sif "ACCEPT".toList)).Sublist fw.chains.forward :=
    List.erase_sublist.trans List.erase_sublist
  have hread : ReadsAtOnce L .forward fw.chains.forward :=
    ⟨hfits, List.ne_nil_of_mem hb, (L.length_le_of_subperm .forward
      ((List.sublist_cons_self _ _).trans (List.sublist_cons_self _ _)).subperm).trans hlen⟩
  have hadd : ∀ {ifname : List Char}, b.IsBase ifname →
      (iptablesAddBridge (drainedPipeWith L.text) fw sip sif dip dif).2.chains.forward =
        insertPair ((fw.chains.forward.erase (bridgeRule sip sif dip dif "ACCEPT".toList)).erase
          (bridgeRule dip dif sip sif "ACCEPT".toList)) sip sif dip dif := by
    intro ifname hbase
    have hpair : PairFits L ((fw.chains.forward.erase
        (bridgeRule sip sif dip dif "ACCEPT".toList)).erase
          (bridgeRule dip dif sip sif "ACCEPT".toList)) sip sif dip dif :=
      ⟨hsip, hdip, hfit, hread.of_sublist hsub (List.ne_nil_of_mem (hkeep hbase)),
        (L.length_le_of_subperm .forward ((hsub.cons_cons _).cons_cons _).subperm).trans hlen⟩
    have hne := List.ne_nil_of_mem (List.mem_of_mem_erase (hkeep hbase))
    rw [(iptablesAddBridge_of_readsAtOnce_erase hexec hread hne hpair).2.2]
    rfl
  refine ⟨fun hbase => ?_, fun hbase => ?_⟩
  · -- the second insert keeps the order the first one made
    rw [hadd hbase]
    exact (accept_sublist_insertAccept (hkeep hbase) hbase sip dip dif).trans
      (sublist_insertAccept _ dip dif sip sif)
  · rw [hadd hbase]
    exact accept_sublist_insertAccept ((sublist_insertAccept _ sip sif dip dif).subset
      (hkeep hbase)) hbase dip sip sif

/-- The bridge of `10.0.0.2` on `br0` and `10.0.1.2` on `br1` goes before the base rule of
`br0`. -/
theorem accept_precedes_base_br0 :
    Net.validateIpv4String "10.0.0.2".toList = true ∧
    Net.validateIpv4String "10.0.1.2".toList = true ∧
    (bridgeRule "10.0.0.2".toList "br0".toList "10.0.1.2".toList "br1".toList
      "ACCEPT".toList).Fits ∧
    (∀ r ∈ br0Firewall.chains.forward, r.Fits) ∧
    (compactListing.text .forward (bridgeRule "10.0.0.2".toList "br0".toList "10.0.1.2".toList
      "br1".toList "ACCEPT".toList :: bridgeRule "10.0.1.2".toList "br1".toList
        "10.0.0.2".toList "br0".toList "ACCEPT".toList :: br0Firewall.chains.forward)).length ≤
      pipeBuf ∧
    (rejectBr0.IsBase "br0".toList → [bridgeRule "10.0.0.2".toList "br0".toList
      "10.0.1.2".toList "br1".toList "ACCEPT".toList, rejectBr0].Sublist
        (iptablesAddBridge (drainedPipeWith compactListing.text) br0Firewall "10.0.0.2".toList
          "br0".toList "10.0.1.2".toList "br1".toList).2.chains.forward) ∧
    (rejectBr0.IsBase "br1".toList → [bridgeRule "10.0.1.2".toList "br1".toList
      "10.0.0.2".toList "br0".toList "ACCEPT".toList, rejectBr0].Sublist
        (iptablesAddBridge (drainedPipeWith compactListing.text) br0Firewall "10.0.0.2".toList
          "br0".toList "10.0.1.2".toList "br1".toList).2.chains.forward) := by
  have hsip : Net.validateIpv4String "10.0.0.2".toList = true := by decide
  have hdip : Net.validateIpv4String "10.0.1.2".toList = true := by decide
  have hfit : (bridgeRule "10.0.0.2".toList "br0".toList "10.0.1.2".toList "br1".toList
      "ACCEPT".toList).Fits := by decide
  have hfits : ∀ r ∈ br0Firewall.chains.forward, r.Fits := by decide
  have hlen : (compactListing.text .forward (bridgeRule "10.0.0.2".toList "br0".toList
      "10.0.1.2".toList "br1".toList "ACCEPT".toList :: bridgeRule "10.0.1.2".toList
        "br1".toList "10.0.0.2".toList "br0".toList "ACCEPT".toList ::
          br0Firewall.chains.forward)).length ≤ pipeBuf := by
    decide +kernel
  exact ⟨hsip, hdip, hfit, hfits, hlen,
    accept_precedes_base rfl hsip hdip hfit hfits hlen List.mem_cons_self⟩

/-- `iptables_delete_bridge` after `iptables_add_bridge` of the same pair takes out the two
rules the add inserted. -/
theorem iptablesDeleteBridge_of_iptablesAddBridge {fw : Firewall}
    (hexec : fw.ctx.execIptables = true)
    (h : PairReadsAtOnce L fw.chains.forward sip sif dip dif) :
    iptablesDeleteBridge (drainedPipeWith L.text)
      (iptablesAddBridge (drainedPipeWith L.text) fw sip sif dip dif).2 sip sif dip dif =
      (0, ⟨{ (iptablesAddBridge (drainedPipeWith L.text) fw sip sif dip dif).2.ctx with
          ruleList := ruleRows 1
            ((iptablesAddBridge (drainedPipeWith L.text) fw sip sif dip dif).2.chains.forward.erase
              (bridgeRule sip sif dip dif "ACCEPT".toList)) },
        (iptablesAddBridge (drainedPipeWith L.text) fw sip sif dip dif).2.chains.set .forward
          fw.chains.forward⟩) := by
  have hadd := iptablesAddBridge_of_readsAtOnce hexec h
  exact iptablesDeleteBridge_of_added _ (by rw [hadd]; exact hexec) h
    (by rw [hadd]; exact sublist_insertPair _ _ _ _ _)
    (by rw [hadd]; exact perm_insertPair _ _ _ _ _)

/-- Deleting a pair after adding it gives back the chains, when `FORWARD` held neither of its
rules, they and those of `FORWARD` read back, and `FORWARD` with both added fits in one
read. -/
theorem iptablesDeleteBridge_iptablesAddBridge {fw : Firewall} (hexec : fw.ctx.execIptables = true)
    (h : PairReadsAtOnce L fw.chains.forward sip sif dip dif) :
    (iptablesDeleteBridge (drainedPipeWith L.text)
      (iptablesAddBridge (drainedPipeWith L.text) fw sip sif dip dif).2
        sip sif dip dif).2.chains = fw.chains := by
  rw [iptablesDeleteBridge_of_iptablesAddBridge hexec h, iptablesAddBridge_of_readsAtOnce hexec h]
  exact (Chains.set_set _ _ _ _).trans (Chains.set_forward_self _)

/-- Adding, then deleting, the bridge of `10.0.0.2` and `10.0.1.2` gives back the chains. -/
theorem iptablesDeleteBridge_iptablesAddBridge_br0 :
    PairReadsAtOnce compactListing br0Firewall.chains.forward "10.0.0.2".toList "br0".toList
      "10.0.1.2".toList "br1".toList ∧
    (iptablesDeleteBridge (drainedPipeWith compactListing.text)
      (iptablesAddBridge (drainedPipeWith compactListing.text) br0Firewall
        "10.0.0.2".toList "br0".toList "10.0.1.2".toList "br1".toList).2 "10.0.0.2".toList
          "br0".toList "10.0.1.2".toList "br1".toList).2.chains = br0Firewall.chains := by
  have h : PairReadsAtOnce compactListing br0Firewall.chains.forward "10.0.0.2".toList
      "br0".toList "10.0.1.2".toList "br1".toList := by
    decide +kernel
  exact ⟨h, iptablesDeleteBridge_iptablesAddBridge rfl h⟩

/-- Adding a pair twice leaves the chains as adding it once, under the conditions of
`iptablesDeleteBridge_iptablesAddBridge`: the second add deletes the rules the first inserted
and inserts them again at the same places. -/
theorem iptablesAddBridge_iptablesAddBridge {fw : Firewall} (hexec : fw.ctx.execIptables = true)
    (h : PairReadsAtOnce L fw.chains.forward sip sif dip dif) :
    (iptablesAddBridge (drainedPipeWith L.text)
      (iptablesAddBridge (drainedPipeWith L.text) fw sip sif dip dif).2
        sip sif dip dif).2.chains =
      (iptablesAddBridge (drainedPipeWith L.text) fw sip sif dip dif).2.chains := by
  have hadd := iptablesAddBridge_of_readsAtOnce hexec h
  have hexec₁ :
      (iptablesAddBridge (drainedPipeWith L.text) fw sip sif dip dif).2.ctx.execIptables =
        true := by
    rw [hadd]
    exact hexec
  -- the second add first deletes both rules, which leaves the old chain
  rw [iptablesAddBridge_of_deleted
    (congrArg Prod.snd (iptablesDeleteBridge_of_iptablesAddBridge hexec h)) hexec₁
    h.toPairFits, hadd]
  simp only [Chains.set_set, Chains.set_forward_self]

/-- Adding the bridge of `10.0.0.2` and `10.0.1.2` twice leaves the chains of one add. -/
theorem iptablesAddBridge_iptablesAddBridge_br0 :
    PairReadsAtOnce compactListing br0Firewall.chains.forward "10.0.0.2".toList "br0".toList
      "10.0.1.2".toList "br1".toList ∧
    (iptablesAddBridge (drainedPipeWith compactListing.text)
      (iptablesAddBridge (drainedPipeWith compactListing.text) br0Firewall
        "10.0.0.2".toList "br0".toList "10.0.1.2".toList "br1".toList).2 "10.0.0.2".toList
          "br0".toList "10.0.1.2".toList "br1".toList).2.chains =
      (iptablesAddBridge (drainedPipeWith compactListing.text) br0Firewall "10.0.0.2".toList
        "br0".toList "10.0.1.2".toList "br1".toList).2.chains := by
  have h : PairReadsAtOnce compactListing br0Firewall.chains.forward "10.0.0.2".toList
      "br0".toList "10.0.1.2".toList "br1".toList := by
    decide +kernel
  exact ⟨h, iptablesAddBridge_iptablesAddBridge rfl h⟩

end Pair

/-! ## `iptables_add_nat` and `iptables_delete_nat` over chains read at once -/

/-- The `MASQUERADE` rule of `sip` out of `nif`, as `iptables -L` shows it. -/
def masqueradeRule (sip nif : List Char) : Rule :=
  bridgeRule sip "*".toList "0.0.0.0/0".toList nif "MASQUERADE".toList

/-- The station `10.0.0.2` on `br0` behind `eth0`, next to the base rule of `br0` and with an
empty `POSTROUTING`. -/
example : PairReadsAtOnce compactListing [rejectBr0] "10.0.0.2".toList "br0".toList
      "0.0.0.0/0".toList "eth0".toList ∧
    ReadsAtOnce compactListing .postrouting [masqueradeRule "10.0.0.2".toList "eth0".toList] := by
  decide +kernel

section Nat

variable {L : Listing} {sip sif nif : List Char}

/-- `iptables_delete_nat` over an empty `POSTROUTING`, once its bridge deletes went through:
`get_nat_rules` reads back no row, and nothing more is deleted. -/
theorem iptablesDeleteNat_of_nil {fw fw₁ : Firewall}
    (hdel : iptablesDeleteBridge (drainedPipeWith L.text) fw sip sif "0.0.0.0/0".toList nif =
      (0, fw₁))
    (hexec : fw₁.ctx.execIptables = true) (hpost : fw₁.chains.postrouting = [])
    (hlen : (L.text .postrouting []).length ≤ pipeBuf) :
    iptablesDeleteNat (drainedPipeWith L.text) fw sip sif nif =
      (0, ⟨{ fw₁.ctx with ruleList := [] }, fw₁.chains⟩) := by
  simp only [iptablesDeleteNat, hdel, lt_self_iff_false, if_false,
    getChainRules_of_nil hexec .postrouting hpost hlen, hexec, Int.reduceLT, and_self, if_true]

/-- `iptables_delete_nat` over a `POSTROUTING` chain read at once, once its bridge deletes
went through: the first copy of the `MASQUERADE` rule goes. -/
theorem iptablesDeleteNat_of_readsAtOnce {fw fw₁ : Firewall}
    (hdel : iptablesDeleteBridge (drainedPipeWith L.text) fw sip sif "0.0.0.0/0".toList nif =
      (0, fw₁))
    (hexec : fw₁.ctx.execIptables = true)
    (hpost : ReadsAtOnce L .postrouting fw₁.chains.postrouting) :
    iptablesDeleteNat (drainedPipeWith L.text) fw sip sif nif =
      (0, ⟨{ fw₁.ctx with ruleList := ruleRows 1 fw₁.chains.postrouting },
        fw₁.chains.set .postrouting (fw₁.chains.postrouting.erase (masqueradeRule sip nif))⟩) := by
  simp only [iptablesDeleteNat, hdel, lt_self_iff_false, if_false,
    getChainRules_of_readsAtOnce hexec hpost rfl, hexec, and_true]
  rw [masqueradeRule]
  by_cases hmem : bridgeRule sip "*".toList "0.0.0.0/0".toList nif "MASQUERADE".toList ∈
    fw₁.chains.postrouting
  · rw [if_neg (findRule_ruleRows_ne_zero hmem)]
    simp only [runEdit, drainedPipeWith_present, if_true, applyEdit, Chains.get_postrouting,
      deleteRule_findRule hmem]
  · rw [findRule_ruleRows_of_not_mem hmem, if_pos rfl, List.erase_of_not_mem hmem,
      Chains.set_postrouting_self]

/-- `iptables_delete_nat` over a `POSTROUTING` chain whose rules read back and whose listing
fits in one read, empty or not: the first copy of the `MASQUERADE` rule goes. -/
theorem iptablesDeleteNat_of_fits {fw fw₁ : Firewall}
    (hdel : iptablesDeleteBridge (drainedPipeWith L.text) fw sip sif "0.0.0.0/0".toList nif =
      (0, fw₁))
    (hexec : fw₁.ctx.execIptables = true) (hfits : ∀ r ∈ fw₁.chains.postrouting, r.Fits)
    (hlen : (L.text .postrouting fw₁.chains.postrouting).length ≤ pipeBuf) :
    ∃ ctx : IptablesContext, ctx.execIptables = true ∧
      iptablesDeleteNat (drainedPipeWith L.text) fw sip sif nif = (0, ⟨ctx,
        fw₁.chains.set .postrouting (fw₁.chains.postrouting.erase (masqueradeRule sip nif))⟩) := by
  -- over an empty `POSTROUTING` `get_nat_rules` fails, over another it reads the chain
  by_cases hnil : fw₁.chains.postrouting = []
  · have hnat := iptablesDeleteNat_of_nil hdel hexec hnil (hnil ▸ hlen)
    rw [hnil, List.erase_nil, ← hnil, Chains.set_postrouting_self]
    exact ⟨_, by exact hexec, hnat⟩
  · exact ⟨_, by exact hexec, iptablesDeleteNat_of_readsAtOnce hdel hexec ⟨hfits, hnil, hlen⟩⟩

/-- `iptables_add_nat` once its deletes left `FORWARD` ready for the station's two rules: the
outgoing rule goes before the base rule of `sif`, the incoming one first, and the
`MASQUERADE` rule first in `POSTROUTING`. -/
theorem iptablesAddNat_of_deleted {fw fw₀ : Firewall}
    (hdel : iptablesDeleteNat (drainedPipeWith L.text) fw sip sif nif = (0, fw₀))
    (hexec : fw₀.ctx.execIptables = true)
    (h : PairFits L fw₀.chains.forward sip sif "0.0.0.0/0".toList nif)
    (hm : (masqueradeRule sip nif).Fits) :
    iptablesAddNat (drainedPipeWith L.text) fw sip sif nif =
      (0, ⟨{ fw₀.ctx with ruleList := ruleRows 1 fw₀.chains.forward },
        ⟨bridgeRule "0.0.0.0/0".toList nif sip sif "ACCEPT".toList ::
            insertAccept fw₀.chains.forward sip sif "0.0.0.0/0".toList nif,
          masqueradeRule sip nif :: fw₀.chains.postrouting⟩⟩) := by
  have hs := addBridgeRule_of_readsAtOnce fw₀ hexec h.sip_valid h.dip_valid h.reads sif nif h.fits
  -- the two inserts at `1`, with the rules `execve` passes whole
  have hin : ∀ chains : Chains, applyEdit chains
      (.insert .forward 1 ⟨"ACCEPT".toList, nif, sif, "0.0.0.0/0".toList, sip⟩) =
      chains.set .forward (bridgeRule "0.0.0.0/0".toList nif sip sif "ACCEPT".toList ::
        chains.forward) :=
    fun chains => applyEdit_insert_one chains .forward (bridgeRule_fits_swap h.fits)
  have hmasq : ∀ chains : Chains, applyEdit chains
      (.insert .postrouting 1 ⟨"MASQUERADE".toList, "*".toList, nif, sip, "0.0.0.0/0".toList⟩) =
      chains.set .postrouting (masqueradeRule sip nif :: chains.postrouting) :=
    fun chains => applyEdit_insert_one chains .postrouting hm
  simp only [iptablesAddNat, hdel, lt_self_iff_false, if_false, hs, runEdit,
    drainedPipeWith_present, hexec, if_true, Bool.not_true, Bool.false_eq_true, hin, hmasq,
    Chains.forward_set_forward, Chains.set_set, Chains.postrouting_set_forward]
  rfl

/-- `iptables_delete_nat` over a `FORWARD` chain read at once and a `POSTROUTING` chain that
reads back in one read, whatever they hold: the first copies of the station's two `FORWARD`
rules go, and the first copy of its `MASQUERADE` rule. -/
theorem iptablesDeleteNat_of_readsAtOnce_erase (fw : Firewall)
    (hexec : fw.ctx.execIptables = true) (hread : ReadsAtOnce L .forward fw.chains.forward)
    (hne : fw.chains.forward.erase
      (bridgeRule sip sif "0.0.0.0/0".toList nif "ACCEPT".toList) ≠ [])
    (hfits : ∀ r ∈ fw.chains.postrouting, r.Fits)
    (hlen : (L.text .postrouting fw.chains.postrouting).length ≤ pipeBuf) :
    ∃ ctx : IptablesContext, ctx.execIptables = true ∧
      iptablesDeleteNat (drainedPipeWith L.text) fw sip sif nif = (0, ⟨ctx,
        ⟨(fw.chains.forward.erase
            (bridgeRule sip sif "0.0.0.0/0".toList nif "ACCEPT".toList)).erase
              (bridgeRule "0.0.0.0/0".toList nif sip sif "ACCEPT".toList),
          fw.chains.postrouting.erase (masqueradeRule sip nif)⟩⟩) :=
  iptablesDeleteNat_of_fits (iptablesDeleteBridge_of_readsAtOnce fw hexec hread hne) hexec
    hfits hlen

/-- `iptables_delete_nat` of a station none of whose three rules is in the chains changes
neither chain. -/
theorem iptablesDeleteNat_of_absent {fw : Firewall} (hexec : fw.ctx.execIptables = true)
    (hread : ReadsAtOnce L .forward fw.chains.forward)
    (hout : bridgeRule sip sif "0.0.0.0/0".toList nif "ACCEPT".toList ∉ fw.chains.forward)
    (hback : bridgeRule "0.0.0.0/0".toList nif sip sif "ACCEPT".toList ∉ fw.chains.forward)
    (hm : masqueradeRule sip nif ∉ fw.chains.postrouting)
    (hfits : ∀ r ∈ fw.chains.postrouting, r.Fits)
    (hlen : (L.text .postrouting fw.chains.postrouting).length ≤ pipeBuf) :
    ∃ ctx : IptablesContext, ctx.execIptables = true ∧
      iptablesDeleteNat (drainedPipeWith L.text) fw sip sif nif = (0, ⟨ctx, fw.chains⟩) := by
  have hnat := iptablesDeleteNat_of_fits (iptablesDeleteBridge_of_not_mem fw hexec hread hout hback)
    hexec hfits hlen
  rwa [List.erase_of_not_mem hm, Chains.set_postrouting_self] at hnat

/-- `iptables_add_nat` of an address `validate_ipv4_string` refuses, over chains that hold none
of its rules: the deletes find nothing, the first insert is refused, and the command returns
`-1` with the chains as they were. -/
theorem iptablesAddNat_of_invalid {fw : Firewall} (hexec : fw.ctx.execIptables = true)
    (hread : ReadsAtOnce L .forward fw.chains.forward)
    (hout : bridgeRule sip sif "0.0.0.0/0".toList nif "ACCEPT".toList ∉ fw.chains.forward)
    (hback : bridgeRule "0.0.0.0/0".toList nif sip sif "ACCEPT".toList ∉ fw.chains.forward)
    (hm : masqueradeRule sip nif ∉ fw.chains.postrouting)
    (hfits : ∀ r ∈ fw.chains.postrouting, r.Fits)
    (hlen : (L.text .postrouting fw.chains.postrouting).length ≤ pipeBuf)
    (hinv : Net.validateIpv4String sip = false) :
    ∃ ctx : IptablesContext, ctx.execIptables = true ∧
      iptablesAddNat (drainedPipeWith L.text) fw sip sif nif = (-1, ⟨ctx, fw.chains⟩) := by
  obtain ⟨ctx, hexec₀, hdel⟩ := iptablesDeleteNat_of_absent hexec hread hout hback hm hfits hlen
  refine ⟨ctx, hexec₀, ?_⟩
  simp only [iptablesAddNat, hdel, lt_self_iff_false, if_false,
    addBridgeRule_of_invalid _ _ (.inl hinv), Int.reduceLT, if_true]

/-- Deleting the NAT of a station after adding it gives back both chains, when `FORWARD` held
neither of its two `ACCEPT` rules and `POSTROUTING` not its `MASQUERADE` rule, the rules read
back, and `FORWARD` with the two rules added and `POSTROUTING` with the third fit in one read:
the deletes of `iptables_add_nat` find nothing, and those of `iptables_delete_nat` take out the
three rules it inserted. -/
theorem iptablesDeleteNat_iptablesAddNat {fw : Firewall} (hexec : fw.ctx.execIptables = true)
    (h : PairReadsAtOnce L fw.chains.forward sip sif "0.0.0.0/0".toList nif)
    (hm : masqueradeRule sip nif ∉ fw.chains.postrouting)
    (hpost : ReadsAtOnce L .postrouting (masqueradeRule sip nif :: fw.chains.postrouting)) :
    (iptablesDeleteNat (drainedPipeWith L.text)
      (iptablesAddNat (drainedPipeWith L.text) fw sip sif nif).2 sip sif nif).2.chains =
        fw.chains := by
  have hfits₀ : ∀ r ∈ fw.chains.postrouting, r.Fits :=
    fun r hr => hpost.fits r (List.mem_cons_of_mem _ hr)
  have hlen₀ : (L.text .postrouting fw.chains.postrouting).length ≤ pipeBuf :=
    (L.length_le_of_subperm .postrouting (List.sublist_cons_self _ _).subperm).trans
      hpost.length_le
  obtain ⟨ctx₀, hexec₀, hnat₀⟩ :=
    iptablesDeleteNat_of_absent hexec h.reads h.out_not_mem h.back_not_mem hm hfits₀ hlen₀
  have hadd := iptablesAddNat_of_deleted hnat₀ hexec₀ h.toPairFits
    (hpost.fits _ List.mem_cons_self)
  have hexec₁ : (iptablesAddNat (drainedPipeWith L.text) fw sip sif nif).2.ctx.execIptables =
      true := by
    rw [hadd]
    exact hexec₀
  -- the incoming rule is first, the outgoing one before the base rule of `sif`
  have hdel₁ := iptablesDeleteBridge_of_added _ hexec₁ h
    (by
      rw [hadd]
      exact (sublist_insertAccept _ sip sif _ nif).trans (List.sublist_cons_self _ _))
    (by
      rw [hadd]
      exact (perm_insertAccept _ sip sif _ nif).cons _)
  rw [iptablesDeleteNat_of_readsAtOnce hdel₁ hexec₁
      (by rw [Chains.postrouting_set_forward, hadd]; exact hpost), hadd]
  simp only [Chains.postrouting_set_forward, List.erase_cons_head]
  rfl

/-- Adding, then deleting, the NAT of `10.0.0.2` on `br0` out of `eth0` gives back the
chains. -/
theorem iptablesDeleteNat_iptablesAddNat_br0 :
    PairReadsAtOnce compactListing br0Firewall.chains.forward "10.0.0.2".toList "br0".toList
      "0.0.0.0/0".toList "eth0".toList ∧
    masqueradeRule "10.0.0.2".toList "eth0".toList ∉ br0Firewall.chains.postrouting ∧
    ReadsAtOnce compactListing .postrouting (masqueradeRule "10.0.0.2".toList "eth0".toList ::
      br0Firewall.chains.postrouting) ∧
    (iptablesDeleteNat (drainedPipeWith compactListing.text)
      (iptablesAddNat (drainedPipeWith compactListing.text) br0Firewall "10.0.0.2".toList
        "br0".toList "eth0".toList).2 "10.0.0.2".toList "br0".toList "eth0".toList).2.chains =
          br0Firewall.chains := by
  have h : PairReadsAtOnce compactListing br0Firewall.chains.forward "10.0.0.2".toList
      "br0".toList "0.0.0.0/0".toList "eth0".toList := by
    decide +kernel
  have hm : masqueradeRule "10.0.0.2".toList "eth0".toList ∉ br0Firewall.chains.postrouting :=
    List.not_mem_nil
  have hpost : ReadsAtOnce compactListing .postrouting
      (masqueradeRule "10.0.0.2".toList "eth0".toList :: br0Firewall.chains.postrouting) := by
    decide +kernel
  exact ⟨h, hm, hpost, iptablesDeleteNat_iptablesAddNat rfl h hm hpost⟩

end Nat

end Iptables

end EdgeSec
