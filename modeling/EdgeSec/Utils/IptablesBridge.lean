import EdgeSec.Lib.Terminated
import EdgeSec.Utils.Iptables
import EdgeSec.Utils.Net

/-!
# Bridge and NAT rules through `iptables`

The firewall's iptables backend (`src/utils/iptables.c`) lets two stations talk with two
`ACCEPT` rules in the `FORWARD` chain, one for each direction, each inserted just before the
`REJECT` rule of its input interface (`iptables_add_bridge`), and gives a station the uplink
with two `ACCEPT` rules and a `MASQUERADE` rule in `POSTROUTING` (`iptables_add_nat`).  It
never keeps rule numbers: before each insert and each delete it lists the chain again
(`get_filter_rules`, `get_nat_rules`) and looks the number up in what it read back
(`find_baseif_rulenum`, `find_rule`).

`iptables` itself is modelled by what the backend relies on: a chain is an
ordered list of rules, `-I chain n` inserts a rule at position `n`, `-D chain n` deletes the
rule at position `n`, and `-L` lists the rules in order, their interfaces and addresses shown
as they were given.  The text of the listing, how the pipe the backend reads it through cuts
it into `read`s (`read_command_output`), and whether the program is there at all belong to
the system and are the environment (`IptablesEnv`); `run_argv_command` returns `-1` only when
the program is not there, and the exit status of a command that ran is never negative, so the
backend never sees `iptables` fail.  `listing` is one text of that form, its columns one space
apart; `Utils/IptablesOneRead` takes any text that reads back.

## Main results

* `listRuleCb_listing`: a listing read whole gives the rows of every rule, as they were given;
* `listRuleCb_drop_listing`: a read that starts inside a row gives only the rows after the
  next one;
* `findRule_ruleRows`, `findBaseifRulenum_ruleRows`: what the lookups find over such rows;
* `bridge_rules_outlive_their_deletion`: when a listing reaches the backend in more than one
  read, a bridge added and then deleted leaves both `ACCEPT` rules in the chain.

`Utils/IptablesOneRead` shows that the split into reads is all that goes wrong: when every
listing fits in one read, deleting a bridge after adding it gives back the chains.
-/

namespace EdgeSec

namespace Iptables

open Os

/-! ## The chains, as `iptables` keeps them -/

/-- A rule as `iptables -L -n -v` shows it: the target, the interfaces (`*` for any) and the
addresses, as they were given. -/
structure Rule where
  target : List Char
  inIf : List Char
  outIf : List Char
  source : List Char
  destination : List Char
  deriving Repr, DecidableEq

/-- The two chains the backend changes: `FORWARD` of the `filter` table and `POSTROUTING` of
the `nat` table. -/
inductive ChainName
  | forward
  | postrouting
  deriving Repr, DecidableEq

/-- The name `iptables` prints for a chain. -/
def ChainName.text : ChainName → List Char
  | .forward => "FORWARD".toList
  | .postrouting => "POSTROUTING".toList

/-- The rules of the two chains, in order. -/
structure Chains where
  forward : List Rule
  postrouting : List Rule
  deriving Repr, DecidableEq

namespace Chains

/-- The rules of one chain. -/
def get (chains : Chains) : ChainName → List Rule
  | .forward => chains.forward
  | .postrouting => chains.postrouting

/-- The chains with one of them replaced. -/
def set (chains : Chains) : ChainName → List Rule → Chains
  | .forward, rules => { chains with forward := rules }
  | .postrouting, rules => { chains with postrouting := rules }

@[simp] theorem get_forward (chains : Chains) : chains.get .forward = chains.forward := rfl

@[simp] theorem forward_set_forward (chains : Chains) (rules : List Rule) :
    (chains.set .forward rules).forward = rules := rfl

@[simp] theorem set_set (chains : Chains) (chain : ChainName) (rules rules' : List Rule) :
    (chains.set chain rules).set chain rules' = chains.set chain rules' := by
  cases chain <;> rfl

@[simp] theorem set_forward_self (chains : Chains) : chains.set .forward chains.forward = chains :=
  rfl

@[simp] theorem get_postrouting (chains : Chains) : chains.get .postrouting = chains.postrouting :=
  rfl

@[simp] theorem postrouting_set_postrouting (chains : Chains) (rules : List Rule) :
    (chains.set .postrouting rules).postrouting = rules := rfl

@[simp] theorem set_postrouting_self (chains : Chains) :
    chains.set .postrouting chains.postrouting = chains := rfl

@[simp] theorem postrouting_set_forward (chains : Chains) (rules : List Rule) :
    (chains.set .forward rules).postrouting = chains.postrouting := rfl

end Chains

/-- `iptables -I chain num`: the rule becomes rule `num` of the chain, for
`1 ≤ num ≤ length + 1`; any other number is refused and the chain is left as it was. -/
def insertRule (rules : List Rule) (num : ℤ) (rule : Rule) : List Rule :=
  if 1 ≤ num ∧ num ≤ rules.length + 1 then rules.insertIdx (num.toNat - 1) rule else rules

/-- `iptables -D chain num`: rule `num` is removed, for `1 ≤ num ≤ length`; any other number
is refused. -/
def deleteRule (rules : List Rule) (num : ℤ) : List Rule :=
  if 1 ≤ num ∧ num ≤ rules.length then rules.eraseIdx (num.toNat - 1) else rules

theorem insertRule_one (rules : List Rule) (rule : Rule) :
    insertRule rules 1 rule = rule :: rules := by
  simp [insertRule]

/-- An insert at rule `1 + k` of a chain with at least `k` rules puts the rule at index `k`. -/
theorem insertRule_of_le {rules : List Rule} {k : ℕ} (hk : k ≤ rules.length) (rule : Rule) :
    insertRule rules ((1 + k : ℕ) : ℤ) rule = rules.insertIdx k rule := by
  rw [insertRule, if_pos ⟨by omega, by omega⟩, Int.toNat_natCast, Nat.add_sub_cancel_left]

/-- A delete of rule `1 + k` of a chain with more than `k` rules takes out index `k`. -/
theorem deleteRule_of_lt {rules : List Rule} {k : ℕ} (hk : k < rules.length) :
    deleteRule rules ((1 + k : ℕ) : ℤ) = rules.eraseIdx k := by
  rw [deleteRule, if_pos ⟨by omega, by omega⟩, Int.toNat_natCast, Nat.add_sub_cancel_left]

/-- The columns of a row of `iptables -L --line-numbers -n -v`: the number, the packet and
byte counters, the target, protocol and options, the interfaces and the addresses. -/
def ruleColumns (num : ℕ) (rule : Rule) : List (List Char) :=
  [Nat.toDigits 10 num, ['0'], ['0'], rule.target, "all".toList, "--".toList, rule.inIf,
    rule.outIf, rule.source, rule.destination]

/-- A row of the listing: its columns one space apart. -/
def ruleLine (num : ℕ) (rule : Rule) : List Char := [' '].intercalate (ruleColumns num rule)

/-- The characters of a rule's own five columns. -/
def Rule.width (rule : Rule) : ℕ :=
  rule.target.length + rule.inIf.length + rule.outIf.length + rule.source.length +
    rule.destination.length

/-- The rows of rules numbered from `start` on. -/
def ruleLines : ℕ → List Rule → List (List Char)
  | _, [] => []
  | start, rule :: rules => ruleLine start rule :: ruleLines (start + 1) rules

/-- The two header lines of a listing. -/
def listingHeader (chain : ChainName) : List (List Char) :=
  ["Chain ".toList ++ chain.text ++ " (policy ACCEPT)".toList,
    "num pkts bytes target prot opt in out source destination".toList]

/-- What `iptables -L chain --line-numbers -n -v` prints: the header, then one line for each
rule in order, numbered from `1`, every line ended by a newline. -/
def listing (chain : ChainName) (rules : List Rule) : List Char :=
  (listingHeader chain ++ ruleLines 1 rules).flatMap (· ++ ['\n'])

/-! ## A listing read back -/

/-- A column that `process_rule_column` reads back whole: not empty, without space, newline
or NUL, and shorter than the buffer it is copied into. -/
def FitsColumn (size : ℕ) (col : List Char) : Prop :=
  col ≠ [] ∧ ' ' ∉ col ∧ '\n' ∉ col ∧ '\x00' ∉ col ∧ col.length < size

instance (size : ℕ) (col : List Char) : Decidable (FitsColumn size col) := instDecidableAnd

/-- A rule whose every column reads back whole. -/
structure Rule.Fits (rule : Rule) : Prop where
  target : FitsColumn 20 rule.target
  inIf : FitsColumn ifNamesize rule.inIf
  outIf : FitsColumn ifNamesize rule.outIf
  source : FitsColumn osInetAddrstrlen rule.source
  destination : FitsColumn osInetAddrstrlen rule.destination

instance (rule : Rule) : Decidable rule.Fits :=
  decidable_of_iff (FitsColumn 20 rule.target ∧ FitsColumn ifNamesize rule.inIf ∧
      FitsColumn ifNamesize rule.outIf ∧ FitsColumn osInetAddrstrlen rule.source ∧
      FitsColumn osInetAddrstrlen rule.destination)
    ⟨fun ⟨ht, hi, ho, hs, hd⟩ => ⟨ht, hi, ho, hs, hd⟩,
      fun h => ⟨h.target, h.inIf, h.outIf, h.source, h.destination⟩⟩

/-- The row of `rule_list` for a rule of the listing. -/
def Rule.row (num : ℕ) (rule : Rule) : IptablesColumns :=
  ⟨num, rule.target, rule.inIf, rule.outIf, rule.source, rule.destination⟩

/-- The rows of rules numbered from `start` on. -/
def ruleRows : ℕ → List Rule → List IptablesColumns
  | _, [] => []
  | start, rule :: rules => rule.row start :: ruleRows (start + 1) rules

theorem osStrlcpy_of_fitsColumn {size : ℕ} {col : List Char} (h : FitsColumn size col) :
    osStrlcpy col size = col := by
  rw [osStrlcpy, cStr_of_not_mem h.2.2.2.1, List.take_of_length_le (by have := h.2.2.2.2; omega)]

theorem decimalValue_append_digit (ds : List Char) (c : Char) :
    decimalValue (ds ++ [c]) = decimalValue ds * 10 + (c.toNat - '0'.toNat) := by
  simp only [decimalValue, List.foldl_append, List.foldl_cons, List.foldl_nil]

theorem decimalValue_toDigits (n : ℕ) : decimalValue (Nat.toDigits 10 n) = n := by
  induction n using Nat.strong_induction_on with
  | _ n ih =>
      have h48 : '0'.toNat = 48 := rfl
      by_cases hsmall : n < 10
      · rw [Nat.toDigits_of_lt_base hsmall, ← List.nil_append [_], decimalValue_append_digit, h48,
          Nat.toNat_digitChar_sub_48_of_lt_ten hsmall]
        simp [decimalValue]
      · -- the leading digits make `n / 10`, the last one `n % 10`
        rw [Nat.toDigits_of_base_le (by omega) (by omega), decimalValue_append_digit,
          ih (n / 10) (by omega), h48,
          Nat.toNat_digitChar_sub_48_of_lt_ten (Nat.mod_lt _ (by omega))]
        omega

/-- `strtol` reads a rule number back. -/
theorem strtol_toDigits {n : ℕ} (hn : (n : ℤ) ≤ longMax) :
    strtol (Nat.toDigits 10 n) = ⟨n, true, false⟩ := by
  have hdig : ∀ c ∈ Nat.toDigits 10 n, c.isDigit = true :=
    fun c hc => Nat.isDigit_of_mem_toDigits (by decide) (by decide) hc
  obtain ⟨d, ds, hdds⟩ := List.exists_cons_of_ne_nil (Nat.toDigits_ne_nil (n := n) (b := 10))
  have hd : d.isDigit = true := hdig d (hdds ▸ List.mem_cons_self)
  -- a digit is no white space and no sign
  have hsp : isSpace d = false := by
    revert hd
    unfold isSpace Char.isDigit
    intro hd
    simp only [Bool.and_eq_true, decide_eq_true_eq] at hd
    simp only [Bool.or_eq_false_iff, decide_eq_false_iff_not]
    refine ⟨⟨⟨⟨⟨?_, ?_⟩, ?_⟩, ?_⟩, ?_⟩, ?_⟩ <;> rintro rfl <;> simp at hd
  have hminus : d ≠ '-' := by
    rintro rfl
    simp [Char.isDigit] at hd
  have hplus : d ≠ '+' := by
    rintro rfl
    simp [Char.isDigit] at hd
  have htake : (d :: ds).takeWhile Char.isDigit = d :: ds :=
    List.takeWhile_eq_self_iff.2 (hdds ▸ hdig)
  have hval : decimalValue (d :: ds) = n := hdds ▸ decimalValue_toDigits n
  rw [strtol, cStr_of_not_mem (Net.nul_not_mem_toDigits n), hdds,
    List.dropWhile_cons_of_neg (by rw [hsp]; exact Bool.false_ne_true)]
  split
  · rename_i r heq
    exact absurd (List.cons.inj heq).1 hminus
  · rename_i r heq
    exact absurd (List.cons.inj heq).1 hplus
  · simp only [htake, hval, Bool.false_eq_true, if_false, List.isEmpty_cons, Bool.not_false]
    have hmin : min longMax (n : ℤ) = n := min_eq_right hn
    have hlow : longMin ≤ (n : ℤ) := le_trans (by unfold longMin; norm_num) (Int.natCast_nonneg n)
    rw [hmin, max_eq_right hlow]
    congr
    simp only [decide_eq_false_iff_not, not_or, not_lt]
    exact ⟨hlow, hn⟩

/-- Every column of a fitting rule's row is non-empty and holds no space, newline or NUL. -/
theorem ruleColumns_fit {num : ℕ} {rule : Rule} (hr : rule.Fits) :
    ∀ col ∈ ruleColumns num rule, col ≠ [] ∧ ' ' ∉ col ∧ '\n' ∉ col ∧ '\x00' ∉ col := by
  have hdigits : ∀ c ∈ Nat.toDigits 10 num, c.isDigit = true :=
    fun c hc => Nat.isDigit_of_mem_toDigits (by decide) (by decide) hc
  intro col hcol
  simp only [ruleColumns, List.mem_cons, List.not_mem_nil, or_false] at hcol
  rcases hcol with rfl | rfl | rfl | rfl | rfl | rfl | rfl | rfl | rfl | rfl
  · refine ⟨Nat.toDigits_ne_nil, fun h => ?_, fun h => ?_, fun h => ?_⟩ <;>
      simpa using hdigits _ h
  · decide
  · decide
  · exact ⟨hr.target.1, hr.target.2.1, hr.target.2.2.1, hr.target.2.2.2.1⟩
  · decide
  · decide
  · exact ⟨hr.inIf.1, hr.inIf.2.1, hr.inIf.2.2.1, hr.inIf.2.2.2.1⟩
  · exact ⟨hr.outIf.1, hr.outIf.2.1, hr.outIf.2.2.1, hr.outIf.2.2.2.1⟩
  · exact ⟨hr.source.1, hr.source.2.1, hr.source.2.2.1, hr.source.2.2.2.1⟩
  · exact ⟨hr.destination.1, hr.destination.2.1, hr.destination.2.2.1,
      hr.destination.2.2.2.1⟩

theorem newline_not_mem_ruleLine {num : ℕ} {rule : Rule} (hr : rule.Fits) :
    '\n' ∉ ruleLine num rule :=
  Terminated.not_mem_intercalate_singleton (by decide) fun col hcol =>
    (ruleColumns_fit hr col hcol).2.2.1

theorem nul_not_mem_ruleLine {num : ℕ} {rule : Rule} (hr : rule.Fits) :
    '\x00' ∉ ruleLine num rule :=
  Terminated.not_mem_intercalate_singleton (by decide) fun col hcol =>
    (ruleColumns_fit hr col hcol).2.2.2

/-- `split_string` at spaces gives the columns back. -/
theorem splitString_ruleLine {num : ℕ} {rule : Rule} (hr : rule.Fits) :
    splitString (ruleLine num rule) ' ' = ruleColumns num rule := by
  rw [splitString, cStr_of_not_mem (nul_not_mem_ruleLine hr), ruleLine,
    List.splitOn_intercalate ' ' (fun col hcol => (ruleColumns_fit hr col hcol).2.1)
      (by simp [ruleColumns])]

/-- Empty pieces are the only ones `process_rule_column` skips. -/
theorem foldl_ruleColumnStep_of_ne_nil (cols : List (List Char)) (hcols : ∀ col ∈ cols, col ≠ [])
    (acc : ℕ × IptablesColumns) :
    cols.foldl (fun acc col => if col.length ≠ 0 then ruleColumnStep acc col else acc) acc =
      cols.foldl ruleColumnStep acc := by
  induction cols generalizing acc with
  | nil => rfl
  | cons col cols ih =>
      have hne : col.length ≠ 0 := by
        simpa using hcols col List.mem_cons_self
      rw [List.foldl_cons, List.foldl_cons, if_pos hne,
        ih (fun c hc => hcols c (List.mem_cons_of_mem _ hc))]

/-- A fitting rule's line is read back as its row. -/
theorem processRuleColumn_ruleLine {num : ℕ} (hnum : (num : ℤ) ≤ longMax) {rule : Rule}
    (hr : rule.Fits) : processRuleColumn (ruleLine num rule) = rule.row num := by
  rw [processRuleColumn, splitString_ruleLine hr,
    foldl_ruleColumnStep_of_ne_nil _ fun col hcol => (ruleColumns_fit hr col hcol).1]
  -- the number column leads the state machine from `0` to `1`
  have hfirst : ruleColumnStep (0, {}) (Nat.toDigits 10 num) = (1, { num := num }) := by
    simp [ruleColumnStep, strtol_toDigits hnum]
  simp only [ruleColumns, List.foldl_cons, List.foldl_nil, hfirst]
  simp only [ruleColumnStep, osStrlcpy_of_fitsColumn hr.target, osStrlcpy_of_fitsColumn hr.inIf,
    osStrlcpy_of_fitsColumn hr.outIf, osStrlcpy_of_fitsColumn hr.source,
    osStrlcpy_of_fitsColumn hr.destination]
  rfl

theorem length_ruleLine (num : ℕ) (rule : Rule) :
    (ruleLine num rule).length = (Nat.toDigits 10 num).length + rule.width + 16 := by
  simp [ruleLine, ruleColumns, Rule.width]
  omega

theorem ruleLines_append (start : ℕ) (pre post : List Rule) :
    ruleLines start (pre ++ post) = ruleLines start pre ++ ruleLines (start + pre.length) post := by
  induction pre generalizing start with
  | nil => rfl
  | cons rule pre ih =>
      simp only [List.cons_append, ruleLines, ih, List.length_cons]
      rw [Nat.add_assoc, Nat.add_comm 1 pre.length]

theorem mem_ruleLines {l : List Char} :
    ∀ {start : ℕ} {rules : List Rule}, l ∈ ruleLines start rules →
      ∃ num rule, rule ∈ rules ∧ l = ruleLine num rule
  | _, [], h => by simp [ruleLines] at h
  | start, rule :: rules, h => by
      rw [ruleLines, List.mem_cons] at h
      rcases h with rfl | h
      · exact ⟨start, rule, List.mem_cons_self, rfl⟩
      · obtain ⟨num, r, hr, rfl⟩ := mem_ruleLines h
        exact ⟨num, r, List.mem_cons_of_mem _ hr, rfl⟩

/-- The rows after the headers, each of them a fitting rule numbered from `start ≥ 1`, and the
empty piece after the last newline. -/
theorem processRuleRows_ruleLines (acc : List IptablesColumns) {start : ℕ} (h1 : 1 ≤ start)
    {rules : List Rule} (hfit : ∀ r ∈ rules, r.Fits)
    (hmax : ((start + rules.length : ℕ) : ℤ) ≤ longMax + 1) :
    processRuleRows acc (ruleLines start rules ++ [[]]) = (true, acc ++ ruleRows start rules) := by
  induction rules generalizing start acc with
  | nil => simp [ruleLines, ruleRows, processRuleRows]
  | cons rule rules ih =>
      have hr := hfit rule List.mem_cons_self
      have hnum : (start : ℤ) ≤ longMax := by
        simp only [List.length_cons] at hmax
        omega
      have hlong : 1 < (ruleLine start rule).length := by
        rw [length_ruleLine]
        omega
      have hrow : (processRuleColumn (ruleLine start rule)).num ≠ 0 := by
        rw [processRuleColumn_ruleLine hnum hr, Rule.row]
        simp only [ne_eq, Nat.cast_eq_zero]
        omega
      rw [ruleLines, List.cons_append, processRuleRows, if_pos hlong, if_pos hrow,
        ih (acc ++ [processRuleColumn (ruleLine start rule)]) (by omega)
          (fun r hr => hfit r (List.mem_cons_of_mem _ hr)) (by simp at hmax ⊢; omega),
        processRuleColumn_ruleLine hnum hr, ruleRows, List.append_assoc, List.singleton_append]

/-- A read of two lines the parse skips and then whole rows of fitting rules gives the rows. -/
theorem listRuleCb_lines {x y : List Char} (hx : '\n' ∉ x ∧ '\x00' ∉ x)
    (hy : '\n' ∉ y ∧ '\x00' ∉ y) {start : ℕ} (h1 : 1 ≤ start) {rules : List Rule}
    (hfit : ∀ r ∈ rules, r.Fits) (hmax : ((start + rules.length : ℕ) : ℤ) ≤ longMax + 1) :
    listRuleCb [] ((x :: y :: ruleLines start rules).flatMap (· ++ ['\n'])) =
      ruleRows start rules := by
  have hline : ∀ l ∈ x :: y :: ruleLines start rules, '\n' ∉ l ∧ '\x00' ∉ l := by
    intro l hl
    simp only [List.mem_cons] at hl
    rcases hl with rfl | rfl | hl
    · exact hx
    · exact hy
    · obtain ⟨i, r, hr, rfl⟩ := mem_ruleLines hl
      exact ⟨newline_not_mem_ruleLine (hfit r hr), nul_not_mem_ruleLine (hfit r hr)⟩
  have hsplit : splitString ((x :: y :: ruleLines start rules).flatMap (· ++ ['\n'])) '\n' =
      x :: y :: (ruleLines start rules ++ [[]]) := by
    rw [splitString, cStr_of_not_mem (Terminated.not_mem_flatMap_append_singleton (by decide)
      fun l hl => (hline l hl).2),
      Terminated.splitOn_flatMap_append_singleton fun l hl => (hline l hl).1]
    rfl
  simp only [listRuleCb, processRuleLines, hsplit, List.length_cons, List.length_append,
    List.drop_succ_cons, List.drop_zero, processRuleRows_ruleLines [] h1 hfit hmax]
  simp

/-- A listing read whole gives the rows of every rule. -/
theorem listRuleCb_listing (chain : ChainName) {rules : List Rule} (hfit : ∀ r ∈ rules, r.Fits)
    (hmax : ((1 + rules.length : ℕ) : ℤ) ≤ longMax + 1) :
    listRuleCb [] (listing chain rules) = ruleRows 1 rules := by
  rw [listing, listingHeader, List.cons_append, List.cons_append, List.nil_append]
  have hx : '\n' ∉ "Chain ".toList ++ chain.text ++ " (policy ACCEPT)".toList ∧
      '\x00' ∉ "Chain ".toList ++ chain.text ++ " (policy ACCEPT)".toList := by
    cases chain <;> decide
  have hy : '\n' ∉ "num pkts bytes target prot opt in out source destination".toList ∧
      '\x00' ∉ "num pkts bytes target prot opt in out source destination".toList := by
    decide
  exact listRuleCb_lines hx hy le_rfl hfit hmax

/-- A read that starts inside the row of rule `pre.length + 1` gives the rows from rule
`pre.length + 3` on: the rest of that row and the next one are taken for the headers. -/
theorem listRuleCb_drop_listing (chain : ChainName) (pre : List Rule) (r q : Rule)
    (post : List Rule) (hfit : ∀ x ∈ r :: q :: post, x.Fits) {n : ℕ}
    (hn : n ≤ (ruleLine (1 + pre.length) r).length)
    (hmax : ((pre.length + 3 + post.length : ℕ) : ℤ) ≤ longMax + 1) :
    listRuleCb [] ((listing chain (pre ++ r :: q :: post)).drop
      ((listing chain pre).length + n)) = ruleRows (pre.length + 3) post := by
  have hr := hfit r List.mem_cons_self
  have hq := hfit q (List.mem_cons_of_mem _ List.mem_cons_self)
  have hpart : '\n' ∉ (ruleLine (1 + pre.length) r).drop n ∧
      '\x00' ∉ (ruleLine (1 + pre.length) r).drop n :=
    ⟨fun h => newline_not_mem_ruleLine hr (List.mem_of_mem_drop h),
      fun h => nul_not_mem_ruleLine hr (List.mem_of_mem_drop h)⟩
  rw [listing, listing, ruleLines_append, ← List.append_assoc, ruleLines,
    Terminated.drop_flatMap_append_singleton _ _ _ _ hn, ruleLines,
    show 1 + pre.length + 1 + 1 = pre.length + 3 by omega]
  exact listRuleCb_lines hpart ⟨newline_not_mem_ruleLine hq, nul_not_mem_ruleLine hq⟩
    (by omega) (fun x hx => hfit x (List.mem_cons_of_mem _ (List.mem_cons_of_mem _ hx))) hmax

/-! ## The lookups over rows read back -/

/-- The rule `find_rule` looks for: its row has exactly these interfaces, addresses and
target. -/
def bridgeRule (sip sif dip dif target : List Char) : Rule := ⟨target, sif, dif, sip, dip⟩

/-- The `REJECT` rule of an interface that `add_baseif_rules` appends, as
`find_baseif_rulenum` recognises it. -/
def Rule.IsBase (ifname : List Char) (rule : Rule) : Prop :=
  rule.inIf = ifname ∧ rule.outIf = "*".toList ∧ rule.target = "REJECT".toList

instance (ifname : List Char) : DecidablePred (Rule.IsBase ifname) :=
  fun _ => instDecidableAnd

theorem row_matches_iff (num : ℕ) (rule : Rule) (sip sif dip dif target : List Char) :
    ((rule.row num).inIf = sif ∧ (rule.row num).outIf = dif ∧ (rule.row num).source = sip ∧
      (rule.row num).destination = dip ∧ (rule.row num).target = target) ↔
      rule = bridgeRule sip sif dip dif target := by
  cases rule
  simp only [Rule.row, bridgeRule, Rule.mk.injEq]
  tauto

theorem findRule_cons (el : IptablesColumns) (rlist : List IptablesColumns)
    (sip sif dip dif target : List Char) :
    findRule (el :: rlist) sip sif dip dif target =
      if el.inIf = sif ∧ el.outIf = dif ∧ el.source = sip ∧ el.destination = dip ∧
        el.target = target then el.num
      else findRule rlist sip sif dip dif target := by
  by_cases h : el.inIf = sif ∧ el.outIf = dif ∧ el.source = sip ∧ el.destination = dip ∧
      el.target = target
  · rw [if_pos h, findRule, List.find?_cons, decide_eq_true h]
  · rw [if_neg h, findRule, findRule, List.find?_cons, decide_eq_false h]

theorem findBaseifRulenum_cons (el : IptablesColumns) (rlist : List IptablesColumns)
    (ifname : List Char) :
    findBaseifRulenum (el :: rlist) ifname =
      if el.inIf = ifname ∧ el.outIf = "*".toList ∧ el.target = "REJECT".toList then el.num
      else findBaseifRulenum rlist ifname := by
  by_cases h : el.inIf = ifname ∧ el.outIf = "*".toList ∧ el.target = "REJECT".toList
  · rw [if_pos h, findBaseifRulenum, List.find?_cons, decide_eq_true h]
  · rw [if_neg h, findBaseifRulenum, findBaseifRulenum, List.find?_cons, decide_eq_false h]

/-- `find_rule` over the rows of a chain finds the first rule equal to the one it looks for,
by its number. -/
theorem findRule_ruleRows (start : ℕ) (rules : List Rule) (sip sif dip dif target : List Char) :
    findRule (ruleRows start rules) sip sif dip dif target =
      if bridgeRule sip sif dip dif target ∈ rules then
        ((start + rules.idxOf (bridgeRule sip sif dip dif target) : ℕ) : ℤ)
      else 0 := by
  induction rules generalizing start with
  | nil => rfl
  | cons rule rules ih =>
      rw [ruleRows, findRule_cons, ih]
      simp only [row_matches_iff]
      by_cases hr : rule = bridgeRule sip sif dip dif target
      · subst hr
        simp [Rule.row]
      · have hne : (rule == bridgeRule sip sif dip dif target) = false := by simpa using hr
        simp only [hr, if_false, List.mem_cons, Ne.symm hr, false_or, List.idxOf_cons, hne,
          cond_false]
        split_ifs
        · simp only [Nat.cast_inj]
          omega
        · rfl

/-- `find_baseif_rulenum` over the rows of a chain gives the number of its first base rule of
the interface, `0` when there is none. -/
theorem findBaseifRulenum_ruleRows (start : ℕ) (rules : List Rule) (ifname : List Char) :
    findBaseifRulenum (ruleRows start rules) ifname =
      ((rules.findIdx? (Rule.IsBase ifname ·)).map fun i => ((start + i : ℕ) : ℤ)).getD 0 := by
  induction rules generalizing start with
  | nil => rfl
  | cons rule rules ih =>
      rw [ruleRows, findBaseifRulenum_cons, ih, List.findIdx?_cons]
      by_cases hr : rule.IsBase ifname
      · have hrow : (rule.row start).inIf = ifname ∧ (rule.row start).outIf = "*".toList ∧
            (rule.row start).target = "REJECT".toList := hr
        rw [if_pos hrow, if_pos (decide_eq_true hr)]
        simp [Rule.row]
      · have hrow : ¬ ((rule.row start).inIf = ifname ∧ (rule.row start).outIf = "*".toList ∧
            (rule.row start).target = "REJECT".toList) := hr
        rw [if_neg hrow, if_neg (by simpa using hr), Option.map_map]
        congr 2
        funext i
        rw [Function.comp_apply, Nat.add_assoc, Nat.add_comm 1 i]

/-! ## Running `iptables` -/

/-- The two commands that change a chain, as the backend builds their `argv`:
`{"-D", chain, num, "-t", table}` and
`{"-I", chain, num, "-t", table, "--src", s, "--dst", d, ["-i", in,] "-o", out, "-j", target}`
(a rule without `-i` is shown with the input interface `*`). -/
inductive ChainEdit
  | delete (chain : ChainName) (num : ℤ)
  | insert (chain : ChainName) (num : ℤ) (rule : Rule)

/-- What `execve` hands `iptables` of a rule: each argument up to its first NUL. -/
def Rule.ofArgs (rule : Rule) : Rule :=
  ⟨cStr rule.target, cStr rule.inIf, cStr rule.outIf, cStr rule.source, cStr rule.destination⟩

theorem Rule.ofArgs_of_fits {rule : Rule} (hr : rule.Fits) : rule.ofArgs = rule := by
  rw [Rule.ofArgs, cStr_of_not_mem hr.target.2.2.2.1, cStr_of_not_mem hr.inIf.2.2.2.1,
    cStr_of_not_mem hr.outIf.2.2.2.1, cStr_of_not_mem hr.source.2.2.2.1,
    cStr_of_not_mem hr.destination.2.2.2.1]

/-- The chains after `iptables` ran an edit. -/
def applyEdit (chains : Chains) : ChainEdit → Chains
  | .delete chain num => chains.set chain (deleteRule (chains.get chain) num)
  | .insert chain num rule => chains.set chain (insertRule (chains.get chain) num rule.ofArgs)

/-- An insert at `1` of a rule that `execve` passes whole puts it first. -/
theorem applyEdit_insert_one (chains : Chains) (chain : ChainName) {rule : Rule} (hr : rule.Fits) :
    applyEdit chains (.insert chain 1 rule) = chains.set chain (rule :: chains.get chain) := by
  rw [applyEdit, Rule.ofArgs_of_fits hr, insertRule_one]

/-- What the system does when the backend runs `iptables`: whether the program is there, how
the pipe cuts an output into the reads of `read_command_output`, and the text `iptables -L
chain --line-numbers -n -v` prints for the rules of a chain. -/
structure IptablesEnv where
  present : Bool
  reads : List Char → List (List Char)
  listing : ChainName → List Rule → List Char

/-- The pipe of an honest system: the reads of an output are the output, in order, each of
at most `PIPE_BUF` bytes and none empty. -/
def IptablesEnv.Valid (env : IptablesEnv) : Prop :=
  ∀ out, (env.reads out).flatten = out ∧ ∀ c ∈ env.reads out, 0 < c.length ∧ c.length ≤ pipeBuf

/-- The reads of an output that is all in the pipe before the backend reads it: `PIPE_BUF`
bytes each, and what is left last. -/
def drainedReads (out : List Char) : List (List Char) :=
  if out = [] then [] else out.take pipeBuf :: drainedReads (out.drop pipeBuf)
termination_by out.length
decreasing_by
  have : 0 < out.length := List.length_pos_iff.2 ‹_›
  simp only [List.length_drop, pipeBuf]
  omega

/-- A system where `iptables` is installed, prints its listings as `text`, and its whole output
waits in the pipe. -/
def drainedPipeWith (text : ChainName → List Rule → List Char) : IptablesEnv :=
  ⟨true, drainedReads, text⟩

/-- The same, with the listing of `listing`. -/
def drainedPipe : IptablesEnv := drainedPipeWith listing

@[simp] theorem drainedPipeWith_present (text : ChainName → List Rule → List Char) :
    (drainedPipeWith text).present = true := rfl

@[simp] theorem drainedPipe_present : drainedPipe.present = true := rfl

/-- An output of at most `PIPE_BUF` bytes is read at once. -/
theorem drainedReads_of_le {out : List Char} (h0 : out ≠ []) (h : out.length ≤ pipeBuf) :
    drainedReads out = [out] := by
  rw [drainedReads, if_neg h0, List.take_of_length_le h, List.drop_eq_nil_of_le h,
    drainedReads, if_pos rfl]

/-- An output of more than `PIPE_BUF` and at most twice as many bytes is read in two parts. -/
theorem drainedReads_of_le_two {out : List Char} (h1 : pipeBuf < out.length)
    (h2 : out.length ≤ 2 * pipeBuf) :
    drainedReads out = [out.take pipeBuf, out.drop pipeBuf] := by
  have hne : out ≠ [] := List.ne_nil_of_length_pos (by omega)
  have hrest : out.drop pipeBuf ≠ [] := by
    simp only [ne_eq, List.drop_eq_nil_iff, not_le]
    exact h1
  rw [drainedReads, if_neg hne, drainedReads_of_le hrest (by simp only [List.length_drop]; omega)]

/-- The backend's context and the chains: the state the bridge and NAT commands change. -/
structure Firewall where
  ctx : IptablesContext
  chains : Chains

/-- The run of `iptables -L chain` as `run_iptables` sees it: the reads of the listing, none
when the program is not there. -/
def listRun (env : IptablesEnv) (chains : Chains) (chain : ChainName) : CommandRun :=
  ⟨if env.present then env.reads (env.listing chain (chains.get chain)) else [], env.present⟩

/-- `get_filter_rules` (`chain = FORWARD`) and `get_nat_rules` (`chain = POSTROUTING`). -/
def getChainRules (env : IptablesEnv) (fw : Firewall) (chain : ChainName) : ℤ × Firewall :=
  let r := getFilterRules fw.ctx (listRun env fw.chains chain)
  (r.1, { fw with ctx := r.2 })

/-- `run_iptables` of an edit, with no callback: `false` for its `-1`. -/
def runEdit (env : IptablesEnv) (fw : Firewall) (edit : ChainEdit) : Bool × Firewall :=
  if fw.ctx.execIptables then
    (env.present, if env.present then { fw with chains := applyEdit fw.chains edit } else fw)
  else (true, fw)

theorem listing_append (chain : ChainName) (pre post : List Rule) :
    listing chain (pre ++ post) =
      listing chain pre ++ (ruleLines (1 + pre.length) post).flatMap (· ++ ['\n']) := by
  rw [listing, listing, ruleLines_append, ← List.append_assoc, List.flatMap_append]

/-- The text of the rows numbered from `start`: the digits of the numbers, and for every rule
its columns, nine spaces, the counters, protocol and options and the newline. -/
theorem length_ruleLines_text (start : ℕ) (rules : List Rule) :
    ((ruleLines start rules).flatMap (· ++ ['\n'])).length =
      ((List.range rules.length).map fun i => (Nat.toDigits 10 (start + i)).length).sum +
        (rules.map fun rule => rule.width + 17).sum := by
  induction rules generalizing start with
  | nil => rfl
  | cons rule rules ih =>
      rw [ruleLines, List.flatMap_cons, List.length_append, ih, List.length_cons,
        List.range_succ_eq_map, List.map_cons, List.map_map, List.sum_cons, List.map_cons,
        List.sum_cons, List.length_append, length_ruleLine, List.length_singleton]
      have hshift : ((fun i => (Nat.toDigits 10 (start + i)).length) ∘ Nat.succ) =
          fun i => (Nat.toDigits 10 (start + 1 + i)).length := by
        funext i
        rw [Function.comp_apply, Nat.succ_eq_add_one, Nat.add_assoc, Nat.add_comm i 1]
      rw [hshift]
      simp only [Nat.add_zero]
      omega

/-- A listing's length: its header, the digits of the rule numbers and the rules' rows. -/
theorem length_listing (chain : ChainName) (rules : List Rule) :
    (listing chain rules).length = (listing chain []).length +
      ((List.range rules.length).map fun i => (Nat.toDigits 10 (1 + i)).length).sum +
        (rules.map fun rule => rule.width + 17).sum := by
  rw [← List.nil_append rules, listing_append, List.length_append, List.nil_append,
    length_ruleLines_text, List.length_nil, Nat.add_zero, Nat.add_assoc]

theorem ruleRows_ne_nil {start : ℕ} {rules : List Rule} (h : rules ≠ []) :
    ruleRows start rules ≠ [] := by
  cases rules with
  | nil => exact absurd rfl h
  | cons rule rules => simp [ruleRows]

/-- `get_filter_rules` leaves in the rule list the parse of the last read of the listing. -/
theorem getChainRules_drainedPipeWith {text : ChainName → List Rule → List Char}
    {fw : Firewall} (hexec : fw.ctx.execIptables = true)
    {chain : ChainName} {last : List Char} {chunks : List (List Char)}
    (hreads : drainedReads (text chain (fw.chains.get chain)) = chunks ++ [last])
    {rows : List IptablesColumns} (hrows : listRuleCb [] last = rows) (hne : rows ≠ []) :
    getChainRules (drainedPipeWith text) fw chain =
      (0, { fw with ctx := { fw.ctx with ruleList := rows } }) := by
  simp only [getChainRules, getFilterRules, runIptables, listRun, drainedPipeWith, hexec, if_true,
    hreads, readCommandOutput_listRuleCb, hrows, Bool.not_true, Bool.false_eq_true, ne_eq, hne,
    not_false_eq_true, if_false]

/-- A listing cut by the second read inside the row of rule `pre.length + 1` gives the rows
from rule `pre.length + 3` on. -/
theorem getChainRules_drainedPipe_of_cut {fw : Firewall} (hexec : fw.ctx.execIptables = true)
    {chain : ChainName} {pre : List Rule} {r q : Rule} {post : List Rule}
    (hchain : fw.chains.get chain = pre ++ r :: q :: post) (hfit : ∀ x ∈ r :: q :: post, x.Fits)
    (hpost : post ≠ []) (hcut₁ : (listing chain pre).length ≤ pipeBuf)
    (hcut₂ : pipeBuf ≤ (listing chain pre).length + (ruleLine (1 + pre.length) r).length)
    (hlen : (listing chain (fw.chains.get chain)).length ≤ 2 * pipeBuf)
    (hmax : ((pre.length + 3 + post.length : ℕ) : ℤ) ≤ longMax + 1) :
    getChainRules drainedPipe fw chain =
      (0, { fw with ctx := { fw.ctx with ruleList := ruleRows (pre.length + 3) post } }) := by
  -- the listing runs past the cut: the row of `r` and its newline come after `pre`
  have hlong : pipeBuf < (listing chain (fw.chains.get chain)).length := by
    rw [hchain, listing_append, ruleLines]
    simp only [List.flatMap_cons, List.length_append, List.length_singleton]
    omega
  have hpos : pipeBuf = (listing chain pre).length + (pipeBuf - (listing chain pre).length) := by
    omega
  refine getChainRules_drainedPipeWith hexec
    (show _ = [_] ++ [_] from drainedReads_of_le_two hlong hlen) ?_
    (ruleRows_ne_nil hpost)
  rw [hchain, hpos]
  exact listRuleCb_drop_listing chain pre r q post hfit (by omega) hmax

/-! ## The bridge and NAT commands -/

section Commands

variable (env : IptablesEnv)

/-- `delete_bridge_rule`: the first `ACCEPT` rule from `sip` on `sif` to `dip` on `dif` in
the listing, deleted by its number. -/
def deleteBridgeRule (fw : Firewall) (sip sif dip dif : List Char) : ℤ × Firewall :=
  let r := getChainRules env fw .forward
  let fw := r.2
  if r.1 < 0 ∧ fw.ctx.execIptables then (-1, fw)
  else
    let num := findRule fw.ctx.ruleList sip sif dip dif "ACCEPT".toList
    if num = 0 ∧ fw.ctx.execIptables then (0, fw)
    else
      let r := runEdit env fw (.delete .forward num)
      (if r.1 then 0 else -1, r.2)

/-- `iptables_delete_bridge`: the rules of the two directions. -/
def iptablesDeleteBridge (fw : Firewall) (sip sif dip dif : List Char) : ℤ × Firewall :=
  let r := deleteBridgeRule env fw sip sif dip dif
  if r.1 < 0 then (-1, r.2) else deleteBridgeRule env r.2 dip dif sip sif

/-- `add_bridge_rule`: an `ACCEPT` rule from `sip` on `sif` to `dip` on `dif`, inserted at the
number of the `REJECT` rule of `sif` in the listing, or first when there is none. -/
def addBridgeRule (fw : Firewall) (sip sif dip dif : List Char) : ℤ × Firewall :=
  if !Net.validateIpv4String sip then (-1, fw)
  else if !Net.validateIpv4String dip then (-1, fw)
  else
    let r := getChainRules env fw .forward
    let fw := r.2
    if r.1 < 0 ∧ fw.ctx.execIptables then (-1, fw)
    else
      let num := findBaseifRulenum fw.ctx.ruleList sif
      let num := if num = 0 ∧ fw.ctx.execIptables then num + 1 else num
      let r := runEdit env fw (.insert .forward num ⟨"ACCEPT".toList, sif, dif, sip, dip⟩)
      (if r.1 then 0 else -1, r.2)

/-- `iptables_add_bridge`: the old rules of the pair deleted (whatever that returns), then one
rule for each direction; when the second fails the first is deleted again. -/
def iptablesAddBridge (fw : Firewall) (sip sif dip dif : List Char) : ℤ × Firewall :=
  let fw := (iptablesDeleteBridge env fw sip sif dip dif).2
  let r := addBridgeRule env fw sip sif dip dif
  if r.1 < 0 then (-1, r.2)
  else
    let r := addBridgeRule env r.2 dip dif sip sif
    if r.1 < 0 then (-1, (deleteBridgeRule env r.2 sip sif dip dif).2) else (0, r.2)

/-- `iptables_delete_nat`: the two `ACCEPT` rules between `sip` on `sif` and any address on
`nif`, then the first `MASQUERADE` rule of `sip` out of `nif`. -/
def iptablesDeleteNat (fw : Firewall) (sip sif nif : List Char) : ℤ × Firewall :=
  let r := iptablesDeleteBridge env fw sip sif "0.0.0.0/0".toList nif
  if r.1 < 0 then (-1, r.2)
  else
    let g := getChainRules env r.2 .postrouting
    let fw := g.2
    if g.1 < 0 ∧ fw.ctx.execIptables then (0, fw)
    else
      let num := findRule fw.ctx.ruleList sip "*".toList "0.0.0.0/0".toList nif
        "MASQUERADE".toList
      if num = 0 ∧ fw.ctx.execIptables then (0, fw)
      else
        let r := runEdit env fw (.delete .postrouting num)
        (if r.1 then 0 else -1, r.2)

/-- `iptables_add_nat`: the old rules deleted, the outgoing `ACCEPT` rule before the `REJECT`
rule of `sif`, the incoming one first in `FORWARD`, and the `MASQUERADE` rule first in
`POSTROUTING`. -/
def iptablesAddNat (fw : Firewall) (sip sif nif : List Char) : ℤ × Firewall :=
  let r := iptablesDeleteNat env fw sip sif nif
  if r.1 < 0 then (-1, r.2)
  else
    let r := addBridgeRule env r.2 sip sif "0.0.0.0/0".toList nif
    if r.1 < 0 then (-1, r.2)
    else
      let r := runEdit env r.2
        (.insert .forward 1 ⟨"ACCEPT".toList, nif, sif, "0.0.0.0/0".toList, sip⟩)
      if !r.1 then (-1, (iptablesDeleteBridge env r.2 sip sif "0.0.0.0/0".toList nif).2)
      else
        let r := runEdit env r.2
          (.insert .postrouting 1 ⟨"MASQUERADE".toList, "*".toList, nif, sip, "0.0.0.0/0".toList⟩)
        if !r.1 then (-1, (iptablesDeleteBridge env r.2 sip sif "0.0.0.0/0".toList nif).2)
        else (0, r.2)

end Commands

/-! ## What each command does once its listings are read -/

section Specs

variable {env : IptablesEnv} (hpresent : env.present = true)
include hpresent

/-- An edit that `iptables` runs always succeeds: the backend never sees its exit status. -/
theorem runEdit_of_exec {fw : Firewall} (hexec : fw.ctx.execIptables = true) (edit : ChainEdit) :
    runEdit env fw edit = (true, { fw with chains := applyEdit fw.chains edit }) := by
  simp [runEdit, hexec, hpresent]

/-- `delete_bridge_rule` after a listing that read back: the rule found is deleted, and it
returns `0` whether there was one or not. -/
theorem deleteBridgeRule_of_getChainRules {fw fw' : Firewall}
    (hget : getChainRules env fw .forward = (0, fw')) (hexec : fw'.ctx.execIptables = true)
    (sip sif dip dif : List Char) :
    deleteBridgeRule env fw sip sif dip dif =
      (0, if findRule fw'.ctx.ruleList sip sif dip dif "ACCEPT".toList = 0 then fw'
        else { fw' with chains := (applyEdit fw'.chains
          (.delete .forward (findRule fw'.ctx.ruleList sip sif dip dif "ACCEPT".toList))) }) := by
  by_cases hnum : findRule fw'.ctx.ruleList sip sif dip dif "ACCEPT".toList = 0
  · simp only [deleteBridgeRule, hget, hexec, hnum, lt_self_iff_false, false_and, and_self,
      if_false, if_true]
  · simp only [deleteBridgeRule, hget, hexec, hnum, lt_self_iff_false, and_true, if_false,
      runEdit_of_exec hpresent hexec, if_true]

/-- `add_bridge_rule` after a listing that read back: the rule is inserted at the number of
the base rule of `sif`, or first. -/
theorem addBridgeRule_of_getChainRules {fw fw' : Firewall} {sip dip : List Char}
    (hsip : Net.validateIpv4String sip = true) (hdip : Net.validateIpv4String dip = true)
    (hget : getChainRules env fw .forward = (0, fw')) (hexec : fw'.ctx.execIptables = true)
    (sif dif : List Char) :
    addBridgeRule env fw sip sif dip dif =
      (0, { fw' with chains := (applyEdit fw'.chains (.insert .forward
        (if findBaseifRulenum fw'.ctx.ruleList sif = 0 then 1
          else findBaseifRulenum fw'.ctx.ruleList sif)
        (bridgeRule sip sif dip dif "ACCEPT".toList))) }) := by
  simp only [addBridgeRule, hsip, hdip, Bool.not_true, Bool.false_eq_true, if_false, hget,
    hexec, lt_self_iff_false, and_true, runEdit_of_exec hpresent hexec, if_true, bridgeRule]
  -- `num++` when no base rule was found
  split_ifs with hnum
  · rw [hnum, zero_add]
  · rfl

/-- `iptables_delete_bridge` when neither direction has a rule to delete. -/
theorem iptablesDeleteBridge_of_absent {fw fw' : Firewall} {sip sif dip dif : List Char}
    (hget : getChainRules env fw .forward = (0, fw'))
    (hget' : getChainRules env fw' .forward = (0, fw')) (hexec : fw'.ctx.execIptables = true)
    (hs : findRule fw'.ctx.ruleList sip sif dip dif "ACCEPT".toList = 0)
    (hd : findRule fw'.ctx.ruleList dip dif sip sif "ACCEPT".toList = 0) :
    iptablesDeleteBridge env fw sip sif dip dif = (0, fw') := by
  have h₁ := deleteBridgeRule_of_getChainRules hpresent hget hexec sip sif dip dif
  have h₂ := deleteBridgeRule_of_getChainRules hpresent hget' hexec dip dif sip sif
  rw [if_pos hs] at h₁
  rw [if_pos hd] at h₂
  rw [iptablesDeleteBridge, h₁]
  exact h₂

omit hpresent in
/-- `iptables_add_bridge` when both inserts go through. -/
theorem iptablesAddBridge_of_addBridgeRule {fw fw₀ fw₁ fw₂ : Firewall} {sip sif dip dif : List Char}
    (hdel : (iptablesDeleteBridge env fw sip sif dip dif).2 = fw₀)
    (hs : addBridgeRule env fw₀ sip sif dip dif = (0, fw₁))
    (hd : addBridgeRule env fw₁ dip dif sip sif = (0, fw₂)) :
    iptablesAddBridge env fw sip sif dip dif = (0, fw₂) := by
  simp only [iptablesAddBridge, hdel, hs, hd, lt_self_iff_false, if_false]

end Specs

/-! ## A chain too long for one read -/

/-- The base rule of `br0`. -/
def rejectBr0 : Rule :=
  ⟨"REJECT".toList, "br0".toList, "*".toList, "0.0.0.0/0".toList, "0.0.0.0/0".toList⟩

/-- A rule between two other bridges; enough of them make the listing longer than a read. -/
def dockerDrop : Rule :=
  ⟨"DROP".toList, "br-5c0ffee5c0ff".toList, "br-6c0ffee6c0ff".toList, "192.168.105.101".toList,
    "192.168.106.101".toList⟩

/-- `FORWARD` with the base rule of `br0` and fifty-two rules after it. -/
def longForward : List Rule := rejectBr0 :: List.replicate 52 dockerDrop

/-- The rule from `10.0.0.2` on `br0` to `10.0.1.2` on `br1`. -/
def acceptOut : Rule :=
  bridgeRule "10.0.0.2".toList "br0".toList "10.0.1.2".toList "br1".toList "ACCEPT".toList

/-- The rule back from `10.0.1.2` on `br1` to `10.0.0.2` on `br0`. -/
def acceptBack : Rule :=
  bridgeRule "10.0.1.2".toList "br1".toList "10.0.0.2".toList "br0".toList "ACCEPT".toList

theorem dockerDrop_fits : dockerDrop.Fits := by decide

theorem acceptOut_fits : acceptOut.Fits := by decide

theorem acceptBack_fits : acceptBack.Fits := by decide

theorem length_listing_forward (rules : List Rule) :
    (listing .forward rules).length = 87 +
      ((List.range rules.length).map fun i => (Nat.toDigits 10 (1 + i)).length).sum +
        (rules.map fun rule => rule.width + 17).sum := by
  rw [length_listing, show (listing .forward []).length = 87 by decide]

theorem width_rejectBr0 : rejectBr0.width = 28 := by decide
theorem width_dockerDrop : dockerDrop.width = 64 := by decide
theorem width_acceptOut : acceptOut.width = 28 := by decide
theorem width_acceptBack : acceptBack.width = 28 := by decide

/-- `get_filter_rules` over a `FORWARD` chain whose second read starts inside the row of a
rule between the other bridges that has more than two of them after it. -/
theorem getChainRules_dockerDrop_cut {fw : Firewall} (hexec : fw.ctx.execIptables = true)
    {pre : List Rule} {k : ℕ}
    (hchain : fw.chains.forward =
      pre ++ dockerDrop :: dockerDrop :: List.replicate (k + 1) dockerDrop)
    (hcut₁ : (listing .forward pre).length ≤ pipeBuf)
    (hcut₂ : pipeBuf ≤
      (listing .forward pre).length + (ruleLine (1 + pre.length) dockerDrop).length)
    (hlen : (listing .forward fw.chains.forward).length ≤ 2 * pipeBuf)
    (hmax : pre.length + k ≤ 1000) :
    getChainRules drainedPipe fw .forward = (0, { fw with ctx := { fw.ctx with
      ruleList := ruleRows (pre.length + 3) (List.replicate (k + 1) dockerDrop) } }) := by
  have hfit : ∀ x ∈ dockerDrop :: dockerDrop :: List.replicate (k + 1) dockerDrop, x.Fits := by
    intro x hx
    simp only [List.mem_cons, List.mem_replicate] at hx
    rcases hx with rfl | rfl | ⟨-, rfl⟩ <;> exact dockerDrop_fits
  exact getChainRules_drainedPipe_of_cut hexec hchain hfit (by simp) hcut₁ hcut₂ hlen
    (by simp only [List.length_replicate, longMax]; omega)

/-- The rows of the rules between the other bridges hold no `ACCEPT` rule. -/
theorem findRule_dockerDrop (start k : ℕ) (sip sif dip dif : List Char) :
    findRule (ruleRows start (List.replicate k dockerDrop)) sip sif dip dif "ACCEPT".toList =
      0 := by
  have hne : bridgeRule sip sif dip dif "ACCEPT".toList ≠ dockerDrop := by
    intro h
    have := congrArg Rule.target h
    simp [bridgeRule, dockerDrop] at this
  rw [findRule_ruleRows, if_neg]
  simp only [List.mem_replicate, not_and]
  exact fun _ => hne

theorem not_isBase_dockerDrop (ifname : List Char) : ¬ dockerDrop.IsBase ifname := by
  rintro ⟨-, -, h⟩
  simp [dockerDrop] at h

/-- ... and no base rule. -/
theorem findBaseifRulenum_dockerDrop (start k : ℕ) (ifname : List Char) :
    findBaseifRulenum (ruleRows start (List.replicate k dockerDrop)) ifname = 0 := by
  rw [findBaseifRulenum_ruleRows, List.findIdx?_eq_none_iff.2]
  · rfl
  · intro x hx
    rw [List.eq_of_mem_replicate hx]
    simpa using not_isBase_dockerDrop ifname

theorem length_listing_dockerDrop (front : List Rule) (m : ℕ) :
    (listing .forward (front ++ List.replicate m dockerDrop)).length = 87 +
      ((List.range (front.length + m)).map fun i => (Nat.toDigits 10 (1 + i)).length).sum +
        (front.map fun rule => rule.width + 17).sum + m * 81 := by
  rw [length_listing_forward, List.length_append, List.length_replicate, List.map_append,
    List.sum_append, List.map_replicate, List.sum_replicate, width_dockerDrop, smul_eq_mul]
  omega

theorem getChainRules_longForward {fw : Firewall} (hexec : fw.ctx.execIptables = true)
    (hchain : fw.chains.forward = longForward) :
    getChainRules drainedPipe fw .forward = (0, { fw with ctx := { fw.ctx with
      ruleList := ruleRows 51 (List.replicate 3 dockerDrop) } }) := by
  have hpre : (listing .forward ([rejectBr0] ++ List.replicate 47 dockerDrop)).length = 4026 := by
    rw [length_listing_dockerDrop]
    simp only [List.map_cons, List.map_nil, List.sum_cons, List.sum_nil, width_rejectBr0]
    decide
  have hall : (listing .forward longForward).length = 4441 := by
    rw [show longForward = [rejectBr0] ++ List.replicate 52 dockerDrop from rfl,
      length_listing_dockerDrop]
    simp only [List.map_cons, List.map_nil, List.sum_cons, List.sum_nil, width_rejectBr0]
    decide
  have hsplit : longForward = ([rejectBr0] ++ List.replicate 47 dockerDrop) ++
      dockerDrop :: dockerDrop :: List.replicate (2 + 1) dockerDrop := rfl
  exact getChainRules_dockerDrop_cut hexec (hchain.trans hsplit) (by rw [hpre]; decide)
    (by rw [hpre, length_ruleLine, width_dockerDrop]; decide) (by rw [hchain, hall]; decide)
    (by decide)

theorem getChainRules_acceptOut_longForward {fw : Firewall} (hexec : fw.ctx.execIptables = true)
    (hchain : fw.chains.forward = acceptOut :: longForward) :
    getChainRules drainedPipe fw .forward = (0, { fw with ctx := { fw.ctx with
      ruleList := ruleRows 52 (List.replicate 3 dockerDrop) } }) := by
  have hpre : (listing .forward ([acceptOut, rejectBr0] ++ List.replicate 47 dockerDrop)).length =
      4073 := by
    rw [length_listing_dockerDrop]
    simp only [List.map_cons, List.map_nil, List.sum_cons, List.sum_nil, width_rejectBr0,
      width_acceptOut]
    decide
  have hall : (listing .forward (acceptOut :: longForward)).length = 4488 := by
    rw [show acceptOut :: longForward = [acceptOut, rejectBr0] ++ List.replicate 52 dockerDrop
      from rfl, length_listing_dockerDrop]
    simp only [List.map_cons, List.map_nil, List.sum_cons, List.sum_nil, width_rejectBr0,
      width_acceptOut]
    decide
  have hsplit : acceptOut :: longForward =
      ([acceptOut, rejectBr0] ++ List.replicate 47 dockerDrop) ++
        dockerDrop :: dockerDrop :: List.replicate (2 + 1) dockerDrop := rfl
  exact getChainRules_dockerDrop_cut hexec (hchain.trans hsplit) (by rw [hpre]; decide)
    (by rw [hpre, length_ruleLine, width_dockerDrop]; decide) (by rw [hchain, hall]; decide)
    (by decide)

theorem getChainRules_acceptBack_acceptOut_longForward {fw : Firewall}
    (hexec : fw.ctx.execIptables = true)
    (hchain : fw.chains.forward = acceptBack :: acceptOut :: longForward) :
    getChainRules drainedPipe fw .forward = (0, { fw with ctx := { fw.ctx with
      ruleList := ruleRows 52 (List.replicate 4 dockerDrop) } }) := by
  have hpre : (listing .forward
      ([acceptBack, acceptOut, rejectBr0] ++ List.replicate 46 dockerDrop)).length = 4037 := by
    rw [length_listing_dockerDrop]
    simp only [List.map_cons, List.map_nil, List.sum_cons, List.sum_nil, width_rejectBr0,
      width_acceptOut, width_acceptBack]
    decide
  have hall : (listing .forward (acceptBack :: acceptOut :: longForward)).length = 4535 := by
    rw [show acceptBack :: acceptOut :: longForward =
      [acceptBack, acceptOut, rejectBr0] ++ List.replicate 52 dockerDrop from rfl,
      length_listing_dockerDrop]
    simp only [List.map_cons, List.map_nil, List.sum_cons, List.sum_nil, width_rejectBr0,
      width_acceptOut, width_acceptBack]
    decide
  have hsplit : acceptBack :: acceptOut :: longForward =
      ([acceptBack, acceptOut, rejectBr0] ++ List.replicate 46 dockerDrop) ++
        dockerDrop :: dockerDrop :: List.replicate (3 + 1) dockerDrop := rfl
  exact getChainRules_dockerDrop_cut hexec (hchain.trans hsplit) (by rw [hpre]; decide)
    (by rw [hpre, length_ruleLine, width_dockerDrop]; decide) (by rw [hchain, hall]; decide)
    (by decide)

/-- With `FORWARD` longer than one read, a bridge between `10.0.0.2` on `br0` and `10.0.1.2` on
`br1` that is added and then deleted leaves both its rules in the chain, though the chain
had one base rule per interface and no rule between the two stations: every listing reaches
`list_rule_cb` in two reads, and only the rows of the second, all of them rules between the
other bridges, stay in the rule list, so `find_baseif_rulenum` does not see the base rule of
`br0`, both rules go first, and `find_rule` never sees them again. -/
theorem bridge_rules_outlive_their_deletion :
    (∀ ifname, (longForward.filter (·.IsBase ifname)).length ≤ 1) ∧
      (∀ rule ∈ longForward, rule.target ≠ "ACCEPT".toList) ∧
      (iptablesDeleteBridge drainedPipe
        (iptablesAddBridge drainedPipe ⟨⟨[], true⟩, ⟨longForward, []⟩⟩ "10.0.0.2".toList
          "br0".toList "10.0.1.2".toList "br1".toList).2
        "10.0.0.2".toList "br0".toList "10.0.1.2".toList "br1".toList).2.chains =
        ⟨acceptBack :: acceptOut :: longForward, []⟩ := by
  refine ⟨fun ifname => ?_, fun rule hrule => ?_, ?_⟩
  · -- only the first rule is a base rule
    simp only [longForward, List.filter_cons, List.filter_replicate,
      decide_eq_false (not_isBase_dockerDrop ifname), Bool.false_eq_true, if_false]
    split_ifs <;> simp
  · simp only [longForward, List.mem_cons, List.mem_replicate] at hrule
    rcases hrule with rfl | ⟨-, rfl⟩ <;> decide
  -- the states the firewall goes through, each with the rows its last listing left
  have hsip : Net.validateIpv4String "10.0.0.2".toList = true := by decide
  have hdip : Net.validateIpv4String "10.0.1.2".toList = true := by decide
  have hget₀ : getChainRules drainedPipe ⟨⟨[], true⟩, ⟨longForward, []⟩⟩ .forward =
      (0, ⟨⟨ruleRows 51 (List.replicate 3 dockerDrop), true⟩, ⟨longForward, []⟩⟩) :=
    getChainRules_longForward rfl rfl
  have hget₀' : getChainRules drainedPipe
      ⟨⟨ruleRows 51 (List.replicate 3 dockerDrop), true⟩, ⟨longForward, []⟩⟩ .forward =
      (0, ⟨⟨ruleRows 51 (List.replicate 3 dockerDrop), true⟩, ⟨longForward, []⟩⟩) :=
    getChainRules_longForward rfl rfl
  have hget₁ : getChainRules drainedPipe
      ⟨⟨ruleRows 51 (List.replicate 3 dockerDrop), true⟩, ⟨acceptOut :: longForward, []⟩⟩ .forward =
      (0, ⟨⟨ruleRows 52 (List.replicate 3 dockerDrop), true⟩, ⟨acceptOut :: longForward, []⟩⟩) :=
    getChainRules_acceptOut_longForward rfl rfl
  have hget₂ : getChainRules drainedPipe
      ⟨⟨ruleRows 52 (List.replicate 3 dockerDrop), true⟩,
        ⟨acceptBack :: acceptOut :: longForward, []⟩⟩ .forward =
      (0, ⟨⟨ruleRows 52 (List.replicate 4 dockerDrop), true⟩,
        ⟨acceptBack :: acceptOut :: longForward, []⟩⟩) :=
    getChainRules_acceptBack_acceptOut_longForward rfl rfl
  have hget₂' : getChainRules drainedPipe
      ⟨⟨ruleRows 52 (List.replicate 4 dockerDrop), true⟩,
        ⟨acceptBack :: acceptOut :: longForward, []⟩⟩ .forward =
      (0, ⟨⟨ruleRows 52 (List.replicate 4 dockerDrop), true⟩,
        ⟨acceptBack :: acceptOut :: longForward, []⟩⟩) :=
    getChainRules_acceptBack_acceptOut_longForward rfl rfl
  -- `iptables_add_bridge`: nothing to delete, then both rules inserted first
  have hadd₁ : addBridgeRule drainedPipe
      ⟨⟨ruleRows 51 (List.replicate 3 dockerDrop), true⟩, ⟨longForward, []⟩⟩
      "10.0.0.2".toList "br0".toList "10.0.1.2".toList "br1".toList =
      (0, ⟨⟨ruleRows 51 (List.replicate 3 dockerDrop), true⟩, ⟨acceptOut :: longForward, []⟩⟩) := by
    rw [addBridgeRule_of_getChainRules rfl hsip hdip hget₀' rfl, findBaseifRulenum_dockerDrop,
      if_pos rfl, show bridgeRule "10.0.0.2".toList "br0".toList "10.0.1.2".toList "br1".toList
        "ACCEPT".toList = acceptOut from rfl, applyEdit_insert_one _ _ acceptOut_fits]
    rfl
  have hadd₂ : addBridgeRule drainedPipe
      ⟨⟨ruleRows 51 (List.replicate 3 dockerDrop), true⟩, ⟨acceptOut :: longForward, []⟩⟩
      "10.0.1.2".toList "br1".toList "10.0.0.2".toList "br0".toList =
      (0, ⟨⟨ruleRows 52 (List.replicate 3 dockerDrop), true⟩,
        ⟨acceptBack :: acceptOut :: longForward, []⟩⟩) := by
    rw [addBridgeRule_of_getChainRules rfl hdip hsip hget₁ rfl, findBaseifRulenum_dockerDrop,
      if_pos rfl, show bridgeRule "10.0.1.2".toList "br1".toList "10.0.0.2".toList "br0".toList
        "ACCEPT".toList = acceptBack from rfl, applyEdit_insert_one _ _ acceptBack_fits]
    rfl
  have hadd := iptablesAddBridge_of_addBridgeRule
    (by rw [iptablesDeleteBridge_of_absent rfl hget₀ hget₀' rfl (findRule_dockerDrop ..)
      (findRule_dockerDrop ..)]) hadd₁ hadd₂
  rw [hadd, iptablesDeleteBridge_of_absent rfl hget₂ hget₂' rfl (findRule_dockerDrop ..)
    (findRule_dockerDrop ..)]

end Iptables

end EdgeSec
