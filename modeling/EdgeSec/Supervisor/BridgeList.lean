import EdgeSec.Lib.Machine
import EdgeSec.Supervisor.MacMapper

/-!
# The bridge list of `src/supervisor/bridge_list.c`

The supervisor records which pairs of devices may talk to each other as a `dl_list` of
directed `(src, dst)` tuples.  `add_bridge_mac(l, r)` inserts both directions at the head
of the list unless both are already there, and `remove_bridge_mac(l, r)` frees whatever
nodes `get_bridge_mac` found for the two directions: the last node matching `(l, r)` and
the last matching `(r, l)`.  Nodes are identified by their position in the list; freeing
the same node twice (both searches landing on one node, which happens only for a stored
self-loop `(l, l)`) is undefined behaviour in C and is modelled by `removeBridgeMac`
returning `none`.

What is proved:

* `bridgeInv_run`: from `init_bridge_list`, every sequence of adds and removes keeps the
  stored tuples symmetric, irreflexive and duplicate-free (`BridgeInv`);
* on such a list `addBridgeMac_spec` and `removeBridgeMac_spec` say what one call does:
  which tuples it adds or removes, that `check_bridge_exist` then reports both directions
  present (absent), that every other tuple is untouched, that `add` returns `0` exactly
  when the edge was there, and that `remove` never frees a node twice.
-/

namespace EdgeSec.BridgeList

/-- `struct bridge_mac_tuple`. -/
structure BridgeMacTuple where
  srcAddr : MacAddr
  dstAddr : MacAddr
  deriving Repr, DecidableEq

/-- `struct bridge_mac_list`: the tuples of the list nodes, from the head. -/
abbrev BridgeMacList := List BridgeMacTuple

/-- `init_bridge_list`. -/
def initBridgeList : BridgeMacList := []

/-- `compare_edge`. -/
def compareEdge (e : BridgeMacTuple) (macAddrLeft macAddrRight : MacAddr) : Bool :=
  decide (e.srcAddr = macAddrLeft) && decide (e.dstAddr = macAddrRight)

/-- `struct bridge_mac_list_tuple`: the positions of the nodes found, `NULL` as `none`. -/
structure BridgeMacListTuple where
  leftEdge : Option ℕ
  rightEdge : Option ℕ
  deriving Repr, DecidableEq

/-- The `dl_list_for_each` loop of `get_bridge_mac`; `k` is the position of the node. -/
def getBridgeMacLoop (macAddrLeft macAddrRight : MacAddr) :
    ℕ → BridgeMacListTuple → BridgeMacList → BridgeMacListTuple
  | _, ret, [] => ret
  | k, ret, e :: rest =>
      let ret := if compareEdge e macAddrLeft macAddrRight then { ret with leftEdge := some k }
        else ret
      let ret := if compareEdge e macAddrRight macAddrLeft then { ret with rightEdge := some k }
        else ret
      getBridgeMacLoop macAddrLeft macAddrRight (k + 1) ret rest

/-- `get_bridge_mac`: the last node of each direction. -/
def getBridgeMac (ml : BridgeMacList) (macAddrLeft macAddrRight : MacAddr) : BridgeMacListTuple :=
  getBridgeMacLoop macAddrLeft macAddrRight 0 ⟨none, none⟩ ml

/-- `check_bridge_exist`. -/
def checkBridgeExist (ml : BridgeMacList) (macAddrLeft macAddrRight : MacAddr) : Int :=
  let ret := getBridgeMac ml macAddrLeft macAddrRight
  if ret.leftEdge.isSome ∧ ret.rightEdge.isSome then 1 else 0

/-- `add_bridge_mac`: `-1` for equal addresses, `0` if both directions exist, else both
tuples are added at the head (`dl_list_add` of `src_el`, then of `dst_el`) and `1`. -/
def addBridgeMac (ml : BridgeMacList) (macAddrLeft macAddrRight : MacAddr) :
    Int × BridgeMacList :=
  if macAddrLeft = macAddrRight then (-1, ml)
  else
    let ret := getBridgeMac ml macAddrLeft macAddrRight
    if ret.leftEdge.isSome ∧ ret.rightEdge.isSome then (0, ml)
    else (1, ⟨macAddrRight, macAddrLeft⟩ :: ⟨macAddrLeft, macAddrRight⟩ :: ml)

/-- Free the nodes at the positions `ps`, counting positions from `k`. -/
def freeNodesLoop (ps : List ℕ) : ℕ → BridgeMacList → BridgeMacList
  | _, [] => []
  | k, e :: rest => if k ∈ ps then freeNodesLoop ps (k + 1) rest else e :: freeNodesLoop ps (k + 1) rest

/-- `bridge_mac_list_free` of the nodes at the positions `ps`. -/
def freeNodes (ml : BridgeMacList) (ps : List ℕ) : BridgeMacList := freeNodesLoop ps 0 ml

/-- `remove_bridge_mac`: free the two nodes found (a missing edge is only logged, and the
call returns `0`); `none` when both are one node, which C would free twice. -/
def removeBridgeMac (ml : BridgeMacList) (macAddrLeft macAddrRight : MacAddr) :
    Option (Int × BridgeMacList) :=
  let e := getBridgeMac ml macAddrLeft macAddrRight
  if e.leftEdge.isSome ∧ e.leftEdge = e.rightEdge then none
  else some (0, freeNodes ml (e.leftEdge.toList ++ e.rightEdge.toList))

/-- `get_src_mac_list`: the destinations of the tuples whose source is `srcAddr`. -/
def getSrcMacList (ml : BridgeMacList) (srcAddr : MacAddr) : List MacAddr :=
  (ml.filter fun e => e.srcAddr = srcAddr).map BridgeMacTuple.dstAddr

/-! ## What the searches find -/

/-- The last position (from `k`) of an element satisfying `p`, else `acc`. -/
def lastIdx {α : Type*} (p : α → Bool) : ℕ → Option ℕ → List α → Option ℕ
  | _, acc, [] => acc
  | k, acc, x :: xs => lastIdx p (k + 1) (if p x then some k else acc) xs

theorem lastIdx_isSome {α : Type*} (p : α → Bool) (k : ℕ) (acc : Option ℕ) (xs : List α) :
    (lastIdx p k acc xs).isSome ↔ acc.isSome ∨ ∃ x ∈ xs, p x = true := by
  induction xs generalizing k acc with
  | nil => simp [lastIdx]
  | cons x xs ih =>
      rw [lastIdx, ih]
      by_cases hx : p x <;> simp [hx]

theorem lastIdx_spec {α : Type*} (p : α → Bool) {k : ℕ} {acc : Option ℕ} {xs : List α} {i : ℕ}
    (h : lastIdx p k acc xs = some i) :
    acc = some i ∨ ∃ j, ∃ hj : j < xs.length, i = k + j ∧ p xs[j] = true := by
  induction xs generalizing k acc with
  | nil => exact Or.inl h
  | cons x xs ih =>
      rcases ih h with hacc | ⟨j, hj, rfl, hp⟩
      · by_cases hx : p x
        · rw [if_pos hx] at hacc
          cases hacc
          exact Or.inr ⟨0, by simp, by simp, hx⟩
        · rw [if_neg hx] at hacc
          exact Or.inl hacc
      · exact Or.inr ⟨j + 1, by simpa using hj, by omega, hp⟩

theorem getBridgeMacLoop_eq (l r : MacAddr) (k : ℕ) (ret : BridgeMacListTuple) (ml : BridgeMacList) :
    getBridgeMacLoop l r k ret ml =
      ⟨lastIdx (compareEdge · l r) k ret.leftEdge ml,
        lastIdx (compareEdge · r l) k ret.rightEdge ml⟩ := by
  induction ml generalizing k ret with
  | nil => rfl
  | cons e rest ih =>
      rw [getBridgeMacLoop, ih]
      by_cases h1 : compareEdge e l r <;> by_cases h2 : compareEdge e r l <;> simp [lastIdx, h1, h2]

theorem compareEdge_eq (e : BridgeMacTuple) (l r : MacAddr) :
    compareEdge e l r = decide (e = ⟨l, r⟩) := by
  obtain ⟨s, d⟩ := e
  simp [compareEdge]

/-- `get_bridge_mac` finds the last position of `(l, r)` and the last of `(r, l)`. -/
theorem getBridgeMac_eq (ml : BridgeMacList) (l r : MacAddr) :
    getBridgeMac ml l r =
      ⟨lastIdx (fun e => decide (e = ⟨l, r⟩)) 0 none ml,
        lastIdx (fun e => decide (e = ⟨r, l⟩)) 0 none ml⟩ := by
  rw [getBridgeMac, getBridgeMacLoop_eq]
  simp only [compareEdge_eq]

/-- On a duplicate-free list, the last position found for a tuple is its only position. -/
theorem mem_toList_lastIdx_iff {ml : BridgeMacList} (hnd : ml.Nodup) (x : BridgeMacTuple)
    {idx : ℕ} (hidx : idx < ml.length) :
    idx ∈ (lastIdx (fun e => decide (e = x)) 0 none ml).toList ↔ ml[idx] = x := by
  rw [Option.mem_toList]
  constructor
  · intro h
    rcases lastIdx_spec _ h with h0 | ⟨j, hj, hij, hp⟩
    · cases h0
    · subst hij
      simpa using hp
  · intro h
    obtain ⟨i, hi⟩ := Option.isSome_iff_exists.1
      ((lastIdx_isSome (fun e => decide (e = x)) 0 none ml).2
        (Or.inr ⟨x, h ▸ List.getElem_mem hidx, by simp⟩))
    rcases lastIdx_spec _ hi with h0 | ⟨j, hj, hij, hp⟩
    · cases h0
    · subst hij
      have hxj : ml[j] = x := by simpa using hp
      have : j = idx := (List.Nodup.getElem_inj_iff hnd).1 (hxj.trans h.symm)
      rw [hi, Nat.zero_add, this]

/-- Freeing the positions of exactly the elements satisfying `S` filters them out. -/
theorem freeNodesLoop_eq_filter (S : BridgeMacTuple → Prop) [DecidablePred S] (ps : List ℕ) :
    ∀ (k : ℕ) (ml : BridgeMacList), (∀ i (hi : i < ml.length), k + i ∈ ps ↔ S ml[i]) →
      freeNodesLoop ps k ml = ml.filter fun e => ¬ S e := by
  intro k ml
  induction ml generalizing k with
  | nil => intro _; rfl
  | cons e rest ih =>
      intro h
      have h0 := h 0 (by simp)
      rw [Nat.add_zero, List.getElem_cons_zero] at h0
      have hrest : ∀ i (hi : i < rest.length), k + 1 + i ∈ ps ↔ S rest[i] := by
        intro i hi
        have := h (i + 1) (by simpa using hi)
        rwa [show k + (i + 1) = k + 1 + i by omega] at this
      by_cases he : S e
      · simp [freeNodesLoop, h0.2 he, he, ih (k + 1) hrest]
      · simp [freeNodesLoop, show k ∉ ps from fun hk => he (h0.1 hk), he, ih (k + 1) hrest]

/-! ## The invariant -/

/-- The stored tuples are symmetric, irreflexive and duplicate-free. -/
structure BridgeInv (ml : BridgeMacList) : Prop where
  symm : ∀ e ∈ ml, (⟨e.dstAddr, e.srcAddr⟩ : BridgeMacTuple) ∈ ml
  irrefl : ∀ e ∈ ml, e.srcAddr ≠ e.dstAddr
  nodup : ml.Nodup

theorem bridgeInv_init : BridgeInv initBridgeList := ⟨by simp [initBridgeList],
  by simp [initBridgeList], List.nodup_nil⟩

variable {ml : BridgeMacList}

theorem BridgeInv.mem_swap (h : BridgeInv ml) {l r : MacAddr} :
    (⟨r, l⟩ : BridgeMacTuple) ∈ ml ↔ ⟨l, r⟩ ∈ ml :=
  ⟨fun hm => h.symm _ hm, fun hm => h.symm _ hm⟩

theorem getBridgeMac_left_isSome (l r : MacAddr) :
    (getBridgeMac ml l r).leftEdge.isSome ↔ (⟨l, r⟩ : BridgeMacTuple) ∈ ml := by
  rw [getBridgeMac_eq, lastIdx_isSome]
  simp

theorem getBridgeMac_right_isSome (l r : MacAddr) :
    (getBridgeMac ml l r).rightEdge.isSome ↔ (⟨r, l⟩ : BridgeMacTuple) ∈ ml := by
  rw [getBridgeMac_eq, lastIdx_isSome]
  simp

/-- `check_bridge_exist` reports `1` exactly when both directions are stored. -/
theorem checkBridgeExist_eq_one_iff (l r : MacAddr) :
    checkBridgeExist ml l r = 1 ↔ (⟨l, r⟩ : BridgeMacTuple) ∈ ml ∧ ⟨r, l⟩ ∈ ml := by
  rw [checkBridgeExist, ← getBridgeMac_left_isSome, ← getBridgeMac_right_isSome]
  split <;> simp_all

theorem checkBridgeExist_eq_zero_iff (l r : MacAddr) :
    checkBridgeExist ml l r = 0 ↔ ¬ ((⟨l, r⟩ : BridgeMacTuple) ∈ ml ∧ ⟨r, l⟩ ∈ ml) := by
  rw [← checkBridgeExist_eq_one_iff, checkBridgeExist]
  split <;> simp

/-- On an invariant list, `add_bridge_mac` of two distinct addresses returns `0` and
changes nothing when the edge is stored, and otherwise adds both directions. -/
theorem addBridgeMac_eq (h : BridgeInv ml) {l r : MacAddr} (hne : l ≠ r) :
    addBridgeMac ml l r =
      if (⟨l, r⟩ : BridgeMacTuple) ∈ ml then (0, ml) else (1, ⟨r, l⟩ :: ⟨l, r⟩ :: ml) := by
  rw [addBridgeMac, if_neg hne]
  simp only [getBridgeMac_left_isSome, getBridgeMac_right_isSome, h.mem_swap, and_self]

/-- On an invariant list, `remove_bridge_mac` frees one node per stored direction and no
node twice: it filters out exactly the two tuples of the edge. -/
theorem removeBridgeMac_eq (h : BridgeInv ml) (l r : MacAddr) :
    removeBridgeMac ml l r =
      some (0, ml.filter fun e => ¬ (e = ⟨l, r⟩ ∨ e = ⟨r, l⟩)) := by
  have hfind := getBridgeMac_eq ml l r
  -- both searches land on distinct nodes: a shared node would be a stored self-loop
  have hdistinct : ¬ ((getBridgeMac ml l r).leftEdge.isSome ∧
      (getBridgeMac ml l r).leftEdge = (getBridgeMac ml l r).rightEdge) := by
    rintro ⟨hsome, heq⟩
    obtain ⟨i, hi⟩ := Option.isSome_iff_exists.1 hsome
    have hl := hi
    have hr := heq ▸ hi
    rw [hfind] at hl hr
    rcases lastIdx_spec _ hl with h0 | ⟨j, hj, rfl, hpj⟩
    · cases h0
    rcases lastIdx_spec _ hr with h0 | ⟨j', hj', hjj, hpj'⟩
    · cases h0
    obtain rfl : j = j' := by omega
    have hlr : (⟨l, r⟩ : BridgeMacTuple) = ⟨r, l⟩ := by
      simp only [decide_eq_true_eq] at hpj hpj'
      exact hpj.symm.trans hpj'
    simp only [BridgeMacTuple.mk.injEq] at hlr
    exact h.irrefl _ (List.getElem_mem hj) (by simp only [decide_eq_true_eq] at hpj; rw [hpj, hlr.1])
  rw [removeBridgeMac, if_neg hdistinct, freeNodes, hfind]
  congr 2
  apply freeNodesLoop_eq_filter
  intro i hi
  rw [Nat.zero_add, List.mem_append, mem_toList_lastIdx_iff h.nodup _ hi,
    mem_toList_lastIdx_iff h.nodup _ hi]

/-! ## One call on an invariant list -/

/-- Adding a missing edge between distinct addresses keeps the invariant. -/
theorem BridgeInv.add (h : BridgeInv ml) {l r : MacAddr} (hne : l ≠ r)
    (hnot : (⟨l, r⟩ : BridgeMacTuple) ∉ ml) : BridgeInv (⟨r, l⟩ :: ⟨l, r⟩ :: ml) where
  symm := by
    intro e he
    simp only [List.mem_cons] at he ⊢
    rcases he with rfl | rfl | he
    · exact Or.inr (Or.inl rfl)
    · exact Or.inl rfl
    · exact Or.inr (Or.inr (h.symm e he))
  irrefl := by
    intro e he
    simp only [List.mem_cons] at he
    rcases he with rfl | rfl | he
    · exact Ne.symm hne
    · exact hne
    · exact h.irrefl e he
  nodup := by
    have hnot' : (⟨r, l⟩ : BridgeMacTuple) ∉ ml := fun hm => hnot (h.symm _ hm)
    refine List.nodup_cons.2 ⟨?_, List.nodup_cons.2 ⟨hnot, h.nodup⟩⟩
    simp only [List.mem_cons, not_or, BridgeMacTuple.mk.injEq]
    exact ⟨fun heq => hne heq.2, hnot'⟩

/-- Filtering out both directions of an edge keeps the invariant. -/
theorem BridgeInv.remove (h : BridgeInv ml) (l r : MacAddr) :
    BridgeInv (ml.filter fun e => ¬ (e = ⟨l, r⟩ ∨ e = ⟨r, l⟩)) where
  symm := by
    intro e he
    rw [List.mem_filter] at he ⊢
    obtain ⟨hem, hkeep⟩ := he
    refine ⟨h.symm e hem, ?_⟩
    -- the swap of a kept tuple is not one of the two removed tuples either
    obtain ⟨s, d⟩ := e
    simp only [decide_eq_true_eq, BridgeMacTuple.mk.injEq, not_or] at hkeep ⊢
    exact ⟨fun h' => hkeep.2 ⟨h'.2, h'.1⟩, fun h' => hkeep.1 ⟨h'.2, h'.1⟩⟩
  irrefl := fun e he => h.irrefl e (List.mem_of_mem_filter he)
  nodup := h.nodup.filter _

/-- `add_bridge_mac(l, r)` for `l ≠ r` on an invariant list: it returns `0` exactly when
the edge is stored, `1` otherwise; afterwards both directions are reported present, and no
other tuple has come or gone. -/
theorem addBridgeMac_spec (h : BridgeInv ml) {l r : MacAddr} (hne : l ≠ r) :
    0 ≤ (addBridgeMac ml l r).1 ∧
      ((addBridgeMac ml l r).1 = 0 ↔ (⟨l, r⟩ : BridgeMacTuple) ∈ ml) ∧
      checkBridgeExist (addBridgeMac ml l r).2 l r = 1 ∧
      checkBridgeExist (addBridgeMac ml l r).2 r l = 1 ∧
      ∀ e : BridgeMacTuple, e ≠ ⟨l, r⟩ → e ≠ ⟨r, l⟩ → (e ∈ (addBridgeMac ml l r).2 ↔ e ∈ ml) := by
  rw [addBridgeMac_eq h hne]
  by_cases hm : (⟨l, r⟩ : BridgeMacTuple) ∈ ml
  · have hm' : (⟨r, l⟩ : BridgeMacTuple) ∈ ml := h.mem_swap.2 hm
    rw [if_pos hm]
    refine ⟨le_rfl, ⟨fun _ => hm, fun _ => rfl⟩, ?_, ?_, fun _ _ _ => Iff.rfl⟩
    · exact (checkBridgeExist_eq_one_iff l r).2 ⟨hm, hm'⟩
    · exact (checkBridgeExist_eq_one_iff r l).2 ⟨hm', hm⟩
  · rw [if_neg hm]
    refine ⟨by norm_num, ⟨fun h0 => absurd h0 (by norm_num), fun h' => absurd h' hm⟩, ?_, ?_, ?_⟩
    · rw [checkBridgeExist_eq_one_iff]
      simp
    · rw [checkBridgeExist_eq_one_iff]
      simp
    · intro e h1 h2
      simp [h1, h2]

/-- `remove_bridge_mac(l, r)` on an invariant list: it frees no node twice, returns `0`,
both directions are then reported absent, and no other tuple has come or gone. -/
theorem removeBridgeMac_spec (h : BridgeInv ml) (l r : MacAddr) :
    ∃ ml', removeBridgeMac ml l r = some (0, ml') ∧
      checkBridgeExist ml' l r = 0 ∧ checkBridgeExist ml' r l = 0 ∧
      ∀ e : BridgeMacTuple, e ≠ ⟨l, r⟩ → e ≠ ⟨r, l⟩ → (e ∈ ml' ↔ e ∈ ml) := by
  refine ⟨_, removeBridgeMac_eq h l r, ?_, ?_, fun e h1 h2 => ?_⟩
  · rw [checkBridgeExist_eq_zero_iff]
    simp
  · rw [checkBridgeExist_eq_zero_iff]
    simp
  · simp [h1, h2]

/-! ## Every run -/

/-- A call of the bridge-list API. -/
inductive BridgeOp
  | add (macAddrLeft macAddrRight : MacAddr)
  | remove (macAddrLeft macAddrRight : MacAddr)
  deriving Repr, DecidableEq

/-- One call and its return value; `none` marks a node freed twice. -/
def bridgeStep (ml : BridgeMacList) : BridgeOp → BridgeMacList × Option Int
  | .add l r => ((addBridgeMac ml l r).2, some (addBridgeMac ml l r).1)
  | .remove l r =>
      match removeBridgeMac ml l r with
      | some res => (res.2, some res.1)
      | none => (ml, none)

theorem bridgeInv_step (h : BridgeInv ml) (op : BridgeOp) : BridgeInv (bridgeStep ml op).1 := by
  cases op with
  | add l r =>
      by_cases hne : l = r
      · simpa [bridgeStep, addBridgeMac, hne] using h
      · simp only [bridgeStep, addBridgeMac_eq h hne]
        split
        · exact h
        · exact h.add hne ‹_›
  | remove l r =>
      simp only [bridgeStep, removeBridgeMac_eq h l r]
      exact h.remove l r

/-- The invariant holds after every sequence of calls from `init_bridge_list`. -/
theorem bridgeInv_run (ops : List BridgeOp) :
    BridgeInv (Machine.run bridgeStep initBridgeList ops).1 :=
  (Machine.Reachable.of_run ops).invariant BridgeInv bridgeInv_init fun _ op h => bridgeInv_step h op

/-- **The bridge list stays a symmetric, irreflexive, duplicate-free edge set.**  After
every sequence of `add_bridge_mac` and `remove_bridge_mac` calls on a list from
`init_bridge_list`, `(a, b)` is stored iff `(b, a)` is, no `(a, a)` is stored and no tuple
twice; and at that point a further `add_bridge_mac(l, r)` with `l ≠ r` returns `0` exactly
when the edge is there (else `1`) and leaves both `check_bridge_exist` directions `1`, a
further `remove_bridge_mac(l, r)` frees no node twice and leaves both `0`, and neither
call touches any other tuple. -/
theorem bridge_list_edge_set (ops : List BridgeOp) (l r : MacAddr) :
    let ml := (Machine.run bridgeStep initBridgeList ops).1
    ((∀ a b : MacAddr, (⟨a, b⟩ : BridgeMacTuple) ∈ ml ↔ ⟨b, a⟩ ∈ ml) ∧
      (∀ a : MacAddr, (⟨a, a⟩ : BridgeMacTuple) ∉ ml) ∧ ml.Nodup) ∧
    (l ≠ r → 0 ≤ (addBridgeMac ml l r).1 ∧
      ((addBridgeMac ml l r).1 = 0 ↔ (⟨l, r⟩ : BridgeMacTuple) ∈ ml) ∧
      checkBridgeExist (addBridgeMac ml l r).2 l r = 1 ∧
      checkBridgeExist (addBridgeMac ml l r).2 r l = 1 ∧
      ∀ e : BridgeMacTuple, e ≠ ⟨l, r⟩ → e ≠ ⟨r, l⟩ → (e ∈ (addBridgeMac ml l r).2 ↔ e ∈ ml)) ∧
    (∃ ml', removeBridgeMac ml l r = some (0, ml') ∧
      checkBridgeExist ml' l r = 0 ∧ checkBridgeExist ml' r l = 0 ∧
      ∀ e : BridgeMacTuple, e ≠ ⟨l, r⟩ → e ≠ ⟨r, l⟩ → (e ∈ ml' ↔ e ∈ ml)) := by
  intro ml
  have h : BridgeInv ml := bridgeInv_run ops
  refine ⟨⟨fun a b => h.mem_swap.symm, fun a ha => h.irrefl _ ha rfl, h.nodup⟩,
    fun hne => addBridgeMac_spec h hne, removeBridgeMac_spec h l r⟩

/-! ## What the calls store -/

/-- On an invariant list, `add_bridge_mac(l, r)` for `l ≠ r` stores the old tuples and the
two directions of the edge. -/
theorem mem_addBridgeMac (h : BridgeInv ml) {l r : MacAddr} (hne : l ≠ r) (e : BridgeMacTuple) :
    e ∈ (addBridgeMac ml l r).2 ↔ e ∈ ml ∨ e = ⟨l, r⟩ ∨ e = ⟨r, l⟩ := by
  rw [addBridgeMac_eq h hne]
  by_cases hm : (⟨l, r⟩ : BridgeMacTuple) ∈ ml
  · -- the edge is there already: both directions are among the old tuples
    rw [if_pos hm]
    constructor
    · exact Or.inl
    · rintro (he | rfl | rfl)
      · exact he
      · exact hm
      · exact h.mem_swap.2 hm
  · rw [if_neg hm]
    simp only [List.mem_cons]
    constructor
    · rintro (rfl | rfl | he)
      · exact Or.inr (Or.inr rfl)
      · exact Or.inr (Or.inl rfl)
      · exact Or.inl he
    · rintro (he | rfl | rfl)
      · exact Or.inr (Or.inr he)
      · exact Or.inr (Or.inl rfl)
      · exact Or.inl rfl

/-- `get_src_mac_list` lists exactly the destinations of the tuples from `srcAddr`. -/
theorem mem_getSrcMacList (ml : BridgeMacList) (srcAddr dstAddr : MacAddr) :
    dstAddr ∈ getSrcMacList ml srcAddr ↔ (⟨srcAddr, dstAddr⟩ : BridgeMacTuple) ∈ ml := by
  simp only [getSrcMacList, List.mem_map, List.mem_filter, decide_eq_true_eq]
  constructor
  · rintro ⟨⟨s, d⟩, ⟨he, rfl⟩, rfl⟩
    exact he
  · intro he
    exact ⟨_, ⟨he, rfl⟩, rfl⟩

end EdgeSec.BridgeList
