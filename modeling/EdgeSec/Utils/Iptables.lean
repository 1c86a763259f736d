import EdgeSec.Utils.Os

/-!
# The rule list read back from `iptables`

Before it inserts or deletes a bridge rule, the iptables backend of the firewall
(`src/utils/iptables.c`) reads the current chain with
`iptables -L <chain> -t <table> --line-numbers -n -v`: `run_iptables` runs the command and
`read_command_output` hands its output to `list_rule_cb` one `read` of the pipe at a time.
Each call of `list_rule_cb` clears `rule_list` and parses its chunk with
`process_rule_lines`, which drops the chunk's first two lines as the two header lines of
the listing and turns every other line into a row with `process_rule_column`.  `find_rule`
and `find_baseif_rulenum` then look up rule numbers in `rule_list`.

## Main results

* `readCommandOutput_listRuleCb`: after the whole output, the rule list is the parse of the
  last chunk alone;
* `iptables_rule_list_chunked`: a two-rule listing delivered in one read gives both rows,
  delivered in two reads gives none, so that `get_filter_rules` fails and `find_rule` and
  `find_baseif_rulenum` miss rules of the chain.
-/

namespace EdgeSec

namespace Iptables

open Os

/-- `IF_NAMESIZE`. -/
def ifNamesize : ℕ := 16

/-- `OS_INET_ADDRSTRLEN`. -/
def osInetAddrstrlen : ℕ := 22

/-- `struct iptables_columns`: the rule number and the columns the backend reads. -/
structure IptablesColumns where
  num : ℤ := 0
  target : List Char := []
  inIf : List Char := []
  outIf : List Char := []
  source : List Char := []
  destination : List Char := []
  deriving Repr, DecidableEq

/-- One non-empty column of the `switch (state)` of `process_rule_column`: the number, three
columns skipped or kept in turn, then the interfaces and the addresses; state `10` reads
nothing more. -/
def ruleColumnStep (acc : ℕ × IptablesColumns) (col : List Char) : ℕ × IptablesColumns :=
  let (state, row) := acc
  match state with
  | 0 =>
      let r := strtol col
      let row := { row with num := r.value }
      -- `errno` is set exactly when the value overflowed
      if (r.overflow ∧ (r.value = longMax ∨ r.value = longMin)) ∨ (r.overflow ∧ r.value = 0) then
        (10, row)
      else if !r.parsed then (10, row)
      else (1, row)
  | 1 => (2, row)
  | 2 => (3, row)
  | 3 => (4, { row with target := osStrlcpy col 20 })
  | 4 => (5, row)
  | 5 => (6, row)
  | 6 => (7, { row with inIf := osStrlcpy col ifNamesize })
  | 7 => (8, { row with outIf := osStrlcpy col ifNamesize })
  | 8 => (9, { row with source := osStrlcpy col osInetAddrstrlen })
  | 9 => (10, { row with destination := osStrlcpy col osInetAddrstrlen })
  | _ => (state, row)

/-- `process_rule_column`: the line cut at every space, the empty pieces skipped. -/
def processRuleColumn (column : List Char) : IptablesColumns :=
  ((splitString column ' ').foldl
    (fun acc col => if col.length ≠ 0 then ruleColumnStep acc col else acc) (0, {})).2

/-- The `while` loop of `process_rule_lines` over the lines after the headers: every line of
more than one character is a row, and a row numbered `0` is the error `-1` (the rows pushed
before it stay). -/
def processRuleRows : List IptablesColumns → List (List Char) → Bool × List IptablesColumns
  | rules, [] => (true, rules)
  | rules, line :: lines =>
      if 1 < line.length then
        let row := processRuleColumn line
        if row.num ≠ 0 then processRuleRows (rules ++ [row]) lines else (false, rules)
      else processRuleRows rules lines

/-- `process_rule_lines`: with more than two lines, the first two are skipped as headers. -/
def processRuleLines (rules : List IptablesColumns) (ruleStr : List Char) :
    Bool × List IptablesColumns :=
  let lines := splitString ruleStr '\n'
  if 2 < lines.length then processRuleRows rules (lines.drop 2) else (true, rules)

/-- `list_rule_cb` on one chunk: the list cleared, the chunk parsed, and the list cleared
again when the parse fails. -/
def listRuleCb (_ruleList : List IptablesColumns) (buf : List Char) : List IptablesColumns :=
  let r := processRuleLines [] buf
  if r.1 then r.2 else []

/-- `struct iptables_context`, the parts the rule lookups use. -/
structure IptablesContext where
  ruleList : List IptablesColumns
  execIptables : Bool
  deriving Repr, DecidableEq

/-- What running `iptables` produced: the chunks its output was read in, and whether it
exited with status `0`. -/
structure CommandRun where
  chunks : List (List Char)
  exitOk : Bool
  deriving Repr, DecidableEq

/-- `run_iptables` with `list_rule_cb`: without `exec_iptables` nothing runs and it returns
`0`. -/
def runIptables (ctx : IptablesContext) (run : CommandRun) : Bool × IptablesContext :=
  if ctx.execIptables then
    (run.exitOk, { ctx with ruleList := readCommandOutput listRuleCb ctx.ruleList run.chunks })
  else (true, ctx)

/-- `get_filter_rules` (and `get_nat_rules`, which lists another chain the same way): `0`
when the command ran and the rule list is not empty. -/
def getFilterRules (ctx : IptablesContext) (run : CommandRun) : ℤ × IptablesContext :=
  let r := runIptables ctx run
  if !r.1 then (-1, r.2) else (if r.2.ruleList ≠ [] then 0 else -1, r.2)

/-- `find_rule`: the number of the first row with these interfaces, addresses and target,
else `0`. -/
def findRule (rlist : List IptablesColumns) (sip sif dip dif target : List Char) : ℤ :=
  match rlist.find? fun el => el.inIf = sif ∧ el.outIf = dif ∧ el.source = sip ∧
      el.destination = dip ∧ el.target = target with
  | some el => el.num
  | none => 0

/-- `find_baseif_rulenum`: the number of the first `REJECT` row from `ifname` to any
interface, else `0`. -/
def findBaseifRulenum (rlist : List IptablesColumns) (ifname : List Char) : ℤ :=
  match rlist.find? fun el => el.inIf = ifname ∧ el.outIf = "*".toList ∧
      el.target = "REJECT".toList with
  | some el => el.num
  | none => 0

/-! ## One chunk at a time -/

/-- `list_rule_cb` clears the list before it parses: what the list held does not matter. -/
theorem listRuleCb_eq (ruleList : List IptablesColumns) (buf : List Char) :
    listRuleCb ruleList buf = listRuleCb [] buf := rfl

/-- After the whole output has been read, the rule list is the parse of the last chunk: the
rules in every earlier chunk are lost. -/
theorem readCommandOutput_listRuleCb (ruleList : List IptablesColumns) (chunks : List (List Char))
    (last : List Char) :
    readCommandOutput listRuleCb ruleList (chunks ++ [last]) = listRuleCb [] last := by
  rw [readCommandOutput, List.foldl_append, List.foldl_cons, List.foldl_nil, listRuleCb_eq]

/-! ## A listing read in two parts -/

/-- Two header lines and two rules: a bridge rule and the `REJECT` rule of `br1`. -/
def sampleListing : List Char :=
  ("Chain FORWARD (policy ACCEPT)\n" ++
    "num pkts bytes target prot opt in out source destination\n" ++
    "1 0 0 ACCEPT all -- br1 br2 10.0.1.2 10.0.2.2\n" ++
    "2 0 0 REJECT all -- br1 * 0.0.0.0/0 0.0.0.0/0\n").toList

/-- The first read of the listing: it stops after the first rule. -/
def sampleFirstRead : List Char :=
  ("Chain FORWARD (policy ACCEPT)\n" ++
    "num pkts bytes target prot opt in out source destination\n" ++
    "1 0 0 ACCEPT all -- br1 br2 10.0.1.2 10.0.2.2\n").toList

/-- The second read of the listing: the second rule. -/
def sampleSecondRead : List Char := "2 0 0 REJECT all -- br1 * 0.0.0.0/0 0.0.0.0/0\n".toList

/-- The listing read in two parts, as the reads of a pipe may return it. -/
def sampleChunks : List (List Char) := [sampleFirstRead, sampleSecondRead]

/-- The rows of the two rules. -/
def sampleRows : List IptablesColumns :=
  [{ num := 1, target := "ACCEPT".toList, inIf := "br1".toList, outIf := "br2".toList,
      source := "10.0.1.2".toList, destination := "10.0.2.2".toList },
    { num := 2, target := "REJECT".toList, inIf := "br1".toList, outIf := "*".toList,
      source := "0.0.0.0/0".toList, destination := "0.0.0.0/0".toList }]

theorem iptables_rule_list_chunked (ruleList : List IptablesColumns) :
    sampleChunks.flatten = sampleListing ∧ (∀ c ∈ sampleChunks, 0 < c.length ∧ c.length ≤ pipeBuf) ∧
      getFilterRules ⟨ruleList, true⟩ ⟨[sampleListing], true⟩ = (0, ⟨sampleRows, true⟩) ∧
      getFilterRules ⟨ruleList, true⟩ ⟨sampleChunks, true⟩ = (-1, ⟨[], true⟩) ∧
      findRule sampleRows "10.0.1.2".toList "br1".toList "10.0.2.2".toList "br2".toList
        "ACCEPT".toList = 1 ∧
      findRule [] "10.0.1.2".toList "br1".toList "10.0.2.2".toList "br2".toList "ACCEPT".toList = 0 ∧
      findBaseifRulenum sampleRows "br1".toList = 2 ∧ findBaseifRulenum [] "br1".toList = 0 := by
  have hone : readCommandOutput listRuleCb ruleList [sampleListing] = sampleRows := by
    rw [← List.nil_append [sampleListing], readCommandOutput_listRuleCb]
    decide +kernel
  have htwo : readCommandOutput listRuleCb ruleList sampleChunks = [] := by
    rw [show sampleChunks = [sampleFirstRead] ++ [sampleSecondRead] from rfl,
      readCommandOutput_listRuleCb]
    decide +kernel
  refine ⟨by decide +kernel, by decide +kernel, ?_, ?_, by decide +kernel, by decide +kernel,
    by decide +kernel, by decide +kernel⟩
  · simp only [getFilterRules, runIptables, if_true, hone]
    decide +kernel
  · simp only [getFilterRules, runIptables, if_true, htwo]
    decide +kernel

end Iptables

end EdgeSec
