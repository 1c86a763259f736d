import EdgeSec.Lib.Loop

/-!
# The capture cleaner of `src/capture/middlewares/cleaner_middleware`

The capture service writes a pcap file per capture and a row `(timestamp, name, caplen)` for it
in the pcap table of its database (`sqlite_pcap.c`; `name` is the primary key).  Every five
seconds `eloop_tout_cleaner_handler` sums the capture lengths, a group of
`CLEANER_GROUP_INTERVAL` rows at a time, from `low_timestamp` up to `next_timestamp`; once the
sum reaches the store size it calls `clean_capture`, which walks the table from
`low_timestamp` in groups: it fetches up to 1024 rows from `timestamp` on in ascending order
(`PCAP_SELECT_GROUP`), removes their files, sets `timestamp` to the last one's, and deletes the
rows from the group's start to `timestamp` (`PCAP_DELETE_GROUP`), for as long as
`timestamp <= next_timestamp`.

The SQL statements are modelled as their text says, on a table of rows; rows of one timestamp
come in table order.  Their failures, and the file system apart from the names `remove` is
called on, are not modelled; timestamps are natural numbers, as the `uint64_t` values are
only compared.

The loop leaves only when a fetched row is later than `next_timestamp`: once the rows up to it
are gone and no later row exists, each iteration fetches nothing, `timestamp` stays where it
is and the loop goes on for ever.

## Main results

* `cleanCapture_eq_none`: when no row is later than `next_timestamp`, `clean_capture` does not
  return, whatever the fuel.
* `cleanCapture_spec`: when one is, it returns `0` within one iteration more than the table
  has rows, with every row from `low_timestamp` to `next_timestamp` deleted, and, when the
  timestamps are distinct, the file of every deleted row removed.
* `cleanCapture_returns_iff`: hence `clean_capture` returns exactly when a row is later than
  `next_timestamp`.
* `cleanCapture_leaves_tied_file`: when more rows share `low_timestamp` than a group holds, one
  of them is deleted without its file being removed.
* `clean_capture_hangs_or_leaves_files`: two captures that fill the store make the first run of
  the handler call `clean_capture` with no later row, and it never returns; and 1025 captures
  of one second leave a file behind.
-/

namespace EdgeSec

namespace Cleaner

open Loop

/-- `CLEANER_GROUP_INTERVAL`: the number of rows fetched or summed at a time. -/
def cleanerGroupInterval : ℕ := 1024

/-- `CLEANER_STORE_SIZE` in bytes, the `store_size` of `init_cleaner_middleware`. -/
def cleanerStoreSize : ℕ := 1000 * 1024

/-- A row of the pcap table: the columns the cleaner reads (`length` is never read). -/
structure PcapRow where
  timestamp : ℕ
  name : String
  caplen : ℕ
  deriving Repr, DecidableEq

/-- The pcap table, whose primary key is `name`. -/
structure PcapTable where
  rows : List PcapRow
  names_nodup : (rows.map PcapRow.name).Nodup

/-- The order of `ORDER BY timestamp ASC`. -/
def TsLe (a b : PcapRow) : Prop := a.timestamp ≤ b.timestamp

instance : DecidableRel TsLe := fun a b => inferInstanceAs (Decidable (a.timestamp ≤ b.timestamp))

instance : Std.Total TsLe := ⟨fun a b => le_total a.timestamp b.timestamp⟩

instance : IsTrans PcapRow TsLe := ⟨fun _ _ _ => le_trans⟩

/-- The `SELECT` of the cleaner's statements: the rows meeting `p` in ascending timestamp
order, at most `lim` of them. -/
def selectAsc (rows : List PcapRow) (p : PcapRow → Bool) (lim : ℕ) : List PcapRow :=
  ((rows.filter p).insertionSort TsLe).take lim

/-- `get_first_pcap_entry` (`PCAP_SELECT_FIRST_ENTRY`): `1` and zeros for an empty table, else
`0` with the first row's timestamp and caplen. -/
def getFirstPcapEntry (table : PcapTable) : Int × ℕ × ℕ :=
  match selectAsc table.rows (fun _ => true) 1 with
  | [] => (1, 0, 0)
  | r :: _ => (0, r.timestamp, r.caplen)

/-- The row loops of `sum_pcap_group` and `clean_capture`: a timestamp variable set to each
fetched row's timestamp in turn, and `f` folded over the rows. -/
def rowLoop {β : Type} (f : β → PcapRow → β) : List PcapRow → β → ℕ → β × ℕ
  | [], acc, ts => (acc, ts)
  | r :: rs, acc, _ => rowLoop f rs (f acc r) r.timestamp

/-- `sum_pcap_group` (`PCAP_SUM_GROUP`, the rows after `lt`): the new `*ht` and `*sum`. -/
def sumPcapGroup (table : PcapTable) (lt lim ht : ℕ) : ℕ × ℕ :=
  let r := rowLoop (fun sum p => sum + p.caplen) (selectAsc table.rows (lt < ·.timestamp) lim) 0 ht
  (r.2, r.1)

/-- `get_pcap_meta_array` (`PCAP_SELECT_GROUP`, the rows from `lt` on). -/
def getPcapMetaArray (table : PcapTable) (lt lim : ℕ) : List PcapRow :=
  selectAsc table.rows (lt ≤ ·.timestamp) lim

/-- `delete_pcap_entries` (`PCAP_DELETE_GROUP`): the rows from `lt` to `ht` go. -/
def deletePcapEntries (table : PcapTable) (lt ht : ℕ) : PcapTable where
  rows := table.rows.filter fun r => !(lt ≤ r.timestamp && r.timestamp ≤ ht)
  names_nodup := table.names_nodup.sublist (List.filter_sublist.map _)

/-- What the cleaner acts on: the pcap table, and the capture files it called `remove` on, by
name, in order. -/
structure PcapStore where
  table : PcapTable
  removed : List String

/-- The locals of the loop of `clean_capture`: the store as it has become, and `timestamp`. -/
structure CleanState where
  store : PcapStore
  timestamp : ℕ

/-- One iteration of the loop of `clean_capture`, from `lt = timestamp`. -/
def cleanIteration (s : CleanState) : CleanState :=
  let lt := s.timestamp
  let arr := getPcapMetaArray s.store.table lt cleanerGroupInterval
  let r := rowLoop (fun removed p => removed ++ [p.name]) arr s.store.removed lt
  ⟨⟨deletePcapEntries s.store.table lt r.2, r.1⟩, r.2⟩

/-- The test `while (timestamp <= next_timestamp)` and the iteration it guards. -/
def cleanBody (nextTimestamp : ℕ) (s : CleanState) : Bool × CleanState :=
  if s.timestamp ≤ nextTimestamp then (true, cleanIteration s) else (false, s)

/-- `struct cleaner_middleware_context`: the fields the handler and `clean_capture` use
(`pcap_path`, which only makes the paths of the files, is left out). -/
structure CleanerContext where
  storeSize : ℕ
  lowTimestamp : ℕ
  storeSum : ℕ
  nextTimestamp : ℕ
  deriving Repr, DecidableEq

/-- `clean_capture`, with at most `fuel` iterations of its loop: `none` when they run out. -/
def cleanCapture (fuel : ℕ) (ctx : CleanerContext) (store : PcapStore) :
    Option (Int × PcapStore) :=
  (loop (cleanBody ctx.nextTimestamp) fuel ⟨store, ctx.lowTimestamp⟩).map fun s => (0, s.store)

/-- The context `init_cleaner_middleware` makes: zeroed, with the store size in bytes. -/
def initCleanerContext : CleanerContext := ⟨cleanerStoreSize, 0, 0, 0⟩

/-- The accounting of `eloop_tout_cleaner_handler`: on a first run (`next_timestamp` zero) the
first row gives `lt` and `low_timestamp` and starts the sum; then the group of rows after `lt`
adds to the sum, and its last row gives `next_timestamp`. -/
def cleanerAccount (table : PcapTable) (ctx : CleanerContext) : CleanerContext :=
  let first := getFirstPcapEntry table
  let lt := if ctx.nextTimestamp = 0 then first.2.1 else ctx.nextTimestamp
  let ctx := if ctx.nextTimestamp = 0 then { ctx with lowTimestamp := lt, storeSum := first.2.2 }
    else ctx
  if lt = 0 then ctx
  else
    let g := sumPcapGroup table lt cleanerGroupInterval lt
    if g.1 ≠ lt then { ctx with storeSum := ctx.storeSum + g.2, nextTimestamp := g.1 } else ctx

/-- `eloop_tout_cleaner_handler`, with the fuel of the `clean_capture` it may call; what that
returns is not looked at, and the context is zeroed after it. -/
def eloopToutCleanerHandler (fuel : ℕ) (ctx : CleanerContext) (store : PcapStore) :
    Option (CleanerContext × PcapStore) :=
  let ctx := cleanerAccount store.table ctx
  if ctx.storeSize ≤ ctx.storeSum then
    (cleanCapture fuel ctx store).map fun r =>
      ({ ctx with lowTimestamp := 0, storeSum := 0, nextTimestamp := 0 }, r.2)
  else some (ctx, store)

/-! ## The statements -/

theorem mem_selectAsc {rows : List PcapRow} {p : PcapRow → Bool} {lim : ℕ} {r : PcapRow}
    (h : r ∈ selectAsc rows p lim) : r ∈ rows ∧ p r = true := by
  have hsorted : r ∈ (rows.filter p).insertionSort TsLe := List.mem_of_mem_take h
  rw [List.mem_insertionSort, List.mem_filter] at hsorted
  exact hsorted

/-- A row that meets the condition makes the selection non-empty. -/
theorem selectAsc_ne_nil {rows : List PcapRow} {p : PcapRow → Bool} {lim : ℕ} (hlim : 0 < lim)
    {r : PcapRow} (hr : r ∈ rows) (hp : p r = true) : selectAsc rows p lim ≠ [] := by
  unfold selectAsc
  rw [Ne, List.take_eq_nil_iff, not_or]
  refine ⟨by omega, fun hnil => ?_⟩
  have hmem : r ∈ (rows.filter p).insertionSort TsLe := by
    rw [List.mem_insertionSort, List.mem_filter]
    exact ⟨hr, hp⟩
  rw [hnil] at hmem
  exact List.not_mem_nil hmem

/-- The selection is a first part of the sorted rows: a row that meets the condition and is
earlier than the last one selected is selected. -/
theorem mem_selectAsc_of_lt {rows : List PcapRow} {p : PcapRow → Bool} {lim : ℕ}
    {r last : PcapRow} (hr : r ∈ rows) (hp : p r = true)
    (hlast : (selectAsc rows p lim).getLast? = some last) (hlt : r.timestamp < last.timestamp) :
    r ∈ selectAsc rows p lim := by
  set sorted := (rows.filter p).insertionSort TsLe
  have hpair : (sorted.take lim ++ sorted.drop lim).Pairwise TsLe := by
    rw [List.take_append_drop]
    exact List.pairwise_insertionSort TsLe _
  have hmem : r ∈ sorted.take lim ++ sorted.drop lim := by
    rw [List.take_append_drop, List.mem_insertionSort, List.mem_filter]
    exact ⟨hr, hp⟩
  rcases List.mem_append.1 hmem with htake | hdrop
  · exact htake
  · -- a row after the selection is no earlier than every selected row
    have hle : TsLe last r :=
      (List.pairwise_append.1 hpair).2.2 last (List.mem_of_getLast? hlast) r hdrop
    exact absurd hle (Nat.not_le.2 hlt)

theorem rowLoop_eq {β : Type} (f : β → PcapRow → β) (rows : List PcapRow) (acc : β) (ts : ℕ) :
    rowLoop f rows acc ts = (rows.foldl f acc, (rows.getLast?.map PcapRow.timestamp).getD ts) := by
  induction rows generalizing acc ts with
  | nil => rfl
  | cons r rs ih =>
      rw [rowLoop, ih, List.foldl_cons]
      cases rs with
      | nil => rfl
      | cons r' rs' =>
          rw [List.getLast?_cons_cons, List.getLast?_eq_some_getLast (List.cons_ne_nil r' rs'),
            Option.map_some, Option.getD_some, Option.getD_some]

theorem foldl_append_name (arr : List PcapRow) (removed : List String) :
    arr.foldl (fun removed p => removed ++ [p.name]) removed = removed ++ arr.map PcapRow.name := by
  induction arr generalizing removed with
  | nil => simp
  | cons p ps ih => simp [ih]

@[simp] theorem mem_deletePcapEntries {table : PcapTable} {lt ht : ℕ} {r : PcapRow} :
    r ∈ (deletePcapEntries table lt ht).rows ↔
      r ∈ table.rows ∧ ¬ (lt ≤ r.timestamp ∧ r.timestamp ≤ ht) := by
  simp only [deletePcapEntries, List.mem_filter, Bool.not_eq_true', Bool.and_eq_false_iff,
    decide_eq_false_iff_not, not_and_or]

/-! ## One iteration -/

section Iteration

variable (s : CleanState)

/-- The rows one iteration fetches. -/
abbrev fetched : List PcapRow := getPcapMetaArray s.store.table s.timestamp cleanerGroupInterval

/-- One iteration deletes from `lt` to the last fetched row's timestamp, or to `lt` when it
fetched nothing, and removes the files of the fetched rows. -/
theorem cleanIteration_eq :
    cleanIteration s =
      ⟨⟨deletePcapEntries s.store.table s.timestamp
          (((fetched s).getLast?.map PcapRow.timestamp).getD s.timestamp),
        s.store.removed ++ (fetched s).map PcapRow.name⟩,
        ((fetched s).getLast?.map PcapRow.timestamp).getD s.timestamp⟩ := by
  rw [cleanIteration, rowLoop_eq, foldl_append_name]

theorem cleanIteration_timestamp :
    (cleanIteration s).timestamp =
      ((fetched s).getLast?.map PcapRow.timestamp).getD s.timestamp := by
  rw [cleanIteration_eq]

/-- An iteration deletes the rows from `lt` to the new `timestamp`. -/
theorem mem_cleanIteration_rows {r : PcapRow} :
    r ∈ (cleanIteration s).store.table.rows ↔
      r ∈ s.store.table.rows ∧ ¬ (s.timestamp ≤ r.timestamp ∧ r.timestamp ≤ (cleanIteration s).timestamp) := by
  rw [cleanIteration_timestamp, cleanIteration_eq, mem_deletePcapEntries]

theorem cleanIteration_rows_sublist :
    (cleanIteration s).store.table.rows.Sublist s.store.table.rows := by
  rw [cleanIteration_eq]
  exact List.filter_sublist

theorem cleanIteration_removed :
    (cleanIteration s).store.removed = s.store.removed ++ (fetched s).map PcapRow.name := by
  rw [cleanIteration_eq]

/-- What the new `timestamp` can be: `lt` when nothing was fetched, else the timestamp of the
last row fetched, a row of the table from `lt` on. -/
theorem cleanIteration_timestamp_cases :
    (fetched s = [] ∧ (cleanIteration s).timestamp = s.timestamp) ∨
      ∃ last, (fetched s).getLast? = some last ∧ last ∈ s.store.table.rows ∧
        s.timestamp ≤ last.timestamp ∧ (cleanIteration s).timestamp = last.timestamp := by
  rw [cleanIteration_timestamp]
  cases hlast : (fetched s).getLast? with
  | none => exact .inl ⟨List.getLast?_eq_none_iff.1 hlast, rfl⟩
  | some last =>
      have hsel := mem_selectAsc (List.mem_of_getLast? hlast)
      exact .inr ⟨last, rfl, hsel.1, of_decide_eq_true hsel.2, rfl⟩

/-- The loop variable does not go back. -/
theorem le_cleanIteration_timestamp : s.timestamp ≤ (cleanIteration s).timestamp := by
  rcases cleanIteration_timestamp_cases s with ⟨-, hts⟩ | ⟨last, -, -, hle, hts⟩
  · exact hts.ge
  · exact hts ▸ hle

/-- Nor does it pass a bound on every row, from below it. -/
theorem cleanIteration_timestamp_le {bound : ℕ} (hs : s.timestamp ≤ bound)
    (hrows : ∀ r ∈ s.store.table.rows, r.timestamp ≤ bound) :
    (cleanIteration s).timestamp ≤ bound := by
  rcases cleanIteration_timestamp_cases s with ⟨-, hts⟩ | ⟨last, -, hmem, -, hts⟩
  · exact hts ▸ hs
  · exact hts ▸ hrows last hmem

/-- A row from `lt` on makes the group non-empty. -/
theorem fetched_ne_nil {r : PcapRow} (hr : r ∈ s.store.table.rows)
    (hts : s.timestamp ≤ r.timestamp) : fetched s ≠ [] :=
  selectAsc_ne_nil (by decide) hr (decide_eq_true hts)

/-- When a row is from `lt` on, a row is fetched, and the last one fetched is deleted: the table
gets shorter. -/
theorem length_cleanIteration_rows_lt {r : PcapRow} (hr : r ∈ s.store.table.rows)
    (hts : s.timestamp ≤ r.timestamp) :
    (cleanIteration s).store.table.rows.length < s.store.table.rows.length := by
  rcases cleanIteration_timestamp_cases s with ⟨hnil, -⟩ | ⟨last, -, hmem, hle, hlast⟩
  · exact absurd hnil (fetched_ne_nil s hr hts)
  · have hgone : last ∉ (cleanIteration s).store.table.rows := fun hkept =>
      ((mem_cleanIteration_rows s).1 hkept).2 ⟨hle, hlast.ge⟩
    have hsub := cleanIteration_rows_sublist s
    exact lt_of_le_of_ne hsub.length_le fun hlen => hgone ((hsub.eq_of_length hlen).symm ▸ hmem)

/-- With distinct timestamps, every row an iteration deletes was fetched. -/
theorem mem_fetched_of_deleted (hdistinct : (s.store.table.rows.map PcapRow.timestamp).Nodup)
    {r : PcapRow} (hr : r ∈ s.store.table.rows) (hdel : r ∉ (cleanIteration s).store.table.rows) :
    r ∈ fetched s := by
  have hin : s.timestamp ≤ r.timestamp ∧ r.timestamp ≤ (cleanIteration s).timestamp := by
    by_contra hout
    exact hdel ((mem_cleanIteration_rows s).2 ⟨hr, hout⟩)
  obtain ⟨hlo, hhi⟩ := hin
  rcases cleanIteration_timestamp_cases s with ⟨hnil, -⟩ | ⟨last, hlast, hmem, -, hts⟩
  · -- nothing fetched, yet `r` is from `lt` on
    exact absurd hnil (fetched_ne_nil s hr hlo)
  · rw [hts] at hhi
    rcases Nat.lt_or_ge r.timestamp last.timestamp with hlt | hge
    · exact mem_selectAsc_of_lt hr (decide_eq_true hlo) hlast hlt
    · -- the timestamp of the last row fetched: with distinct timestamps, that row
      have heq : r = last := List.inj_on_of_nodup_map hdistinct hr hmem (le_antisymm hhi hge)
      rw [heq]
      exact List.mem_of_getLast? hlast

/-- More rows at `lt` than a group holds: one of them is deleted and was not fetched. -/
theorem exists_deleted_unfetched
    (hties : cleanerGroupInterval <
      (s.store.table.rows.filter (·.timestamp = s.timestamp)).length) :
    ∃ r ∈ s.store.table.rows, r.timestamp = s.timestamp ∧
      r ∉ (cleanIteration s).store.table.rows ∧ r ∉ fetched s := by
  have hnodup : (s.store.table.rows.filter (·.timestamp = s.timestamp)).Nodup :=
    (s.store.table.names_nodup.of_map _).filter _
  by_contra hall
  simp only [not_exists, not_and, not_not] at hall
  -- otherwise every row at `lt`, all of them deleted, would be among the at most 1024 fetched
  have hsub : s.store.table.rows.filter (·.timestamp = s.timestamp) ⊆ fetched s := by
    intro r hr
    rw [List.mem_filter, decide_eq_true_iff] at hr
    refine hall r hr.1 hr.2 fun hkept => ?_
    exact ((mem_cleanIteration_rows s).1 hkept).2
      ⟨hr.2.ge, hr.2.le.trans (le_cleanIteration_timestamp s)⟩
  have hle := (hnodup.subperm hsub).length_le
  have hfetched : (fetched s).length ≤ cleanerGroupInterval := List.length_take_le _ _
  omega

end Iteration

/-! ## Runs of the loop -/

theorem cleanBody_go {next : ℕ} {s : CleanState} (h : (cleanBody next s).1 = true) :
    s.timestamp ≤ next ∧ (cleanBody next s).2 = cleanIteration s := by
  unfold cleanBody at h ⊢
  split
  · rename_i hle
    exact ⟨hle, rfl⟩
  · rename_i hle
    rw [if_neg hle] at h
    simp at h

theorem cleanBody_stop {next : ℕ} {s : CleanState} (h : (cleanBody next s).1 = false) :
    next < s.timestamp ∧ (cleanBody next s).2 = s := by
  unfold cleanBody at h ⊢
  split
  · rename_i hle
    rw [if_pos hle] at h
    simp at h
  · rename_i hle
    exact ⟨Nat.lt_of_not_le hle, rfl⟩

/-- From `low_timestamp` to just before the loop variable, no row is left. -/
def Cleared (low : ℕ) (s : CleanState) : Prop :=
  low ≤ s.timestamp ∧
    ∀ r ∈ s.store.table.rows, ¬ (low ≤ r.timestamp ∧ r.timestamp < s.timestamp)

theorem cleared_start (low : ℕ) (store : PcapStore) : Cleared low ⟨store, low⟩ :=
  ⟨le_refl low, fun _ _ h => absurd h.2 (Nat.not_lt.2 h.1)⟩

/-- An iteration clears on to its new `timestamp`. -/
theorem cleared_cleanIteration {low : ℕ} {s : CleanState} (h : Cleared low s) :
    Cleared low (cleanIteration s) := by
  refine ⟨h.1.trans (le_cleanIteration_timestamp s), fun r hr hin => ?_⟩
  obtain ⟨hold, hkept⟩ := (mem_cleanIteration_rows s).1 hr
  -- a row kept is before the group's start, where the earlier iterations cleared, or after it
  rcases Nat.lt_or_ge r.timestamp s.timestamp with hlt | hge
  · exact h.2 r hold ⟨hin.1, hlt⟩
  · exact hkept ⟨hge, hin.2.le⟩

section Run

variable {ctx : CleanerContext} {store : PcapStore}

/-- When no row is later than `next_timestamp`, `clean_capture` does not return: the loop
variable and every row left stay at or below `next_timestamp`, so every iteration goes on. -/
theorem cleanCapture_eq_none (hle : ctx.lowTimestamp ≤ ctx.nextTimestamp)
    (hrows : ∀ r ∈ store.table.rows, r.timestamp ≤ ctx.nextTimestamp) (fuel : ℕ) :
    cleanCapture fuel ctx store = none := by
  let P : CleanState → Prop := fun s => s.timestamp ≤ ctx.nextTimestamp ∧
    ∀ r ∈ s.store.table.rows, r.timestamp ≤ ctx.nextTimestamp
  have hgo : ∀ s, P s →
      (cleanBody ctx.nextTimestamp s).1 = true ∧ P (cleanBody ctx.nextTimestamp s).2 := by
    rintro s ⟨hs, hrs⟩
    rw [cleanBody, if_pos hs]
    exact ⟨rfl, cleanIteration_timestamp_le s hs hrs,
      fun r hr => hrs r ((mem_cleanIteration_rows s).1 hr).1⟩
  rw [cleanCapture, loop_eq_none_of_forever P hgo fuel _ ⟨hle, hrows⟩]
  rfl

/-- What holds along the loop when `later` is a row after `next_timestamp`: it is still there
while the loop goes on, the loop has cleared up to its variable, the table has only lost
rows, and with distinct timestamps each lost row's file was removed. -/
structure CleanInv (low next : ℕ) (store : PcapStore) (later : PcapRow) (s : CleanState) :
    Prop where
  later_mem : s.timestamp ≤ next → later ∈ s.store.table.rows
  cleared : Cleared low s
  sublist : s.store.table.rows.Sublist store.table.rows
  removed : (store.table.rows.map PcapRow.timestamp).Nodup →
    ∀ r ∈ store.table.rows, r ∉ s.store.table.rows → r.name ∈ s.store.removed

/-- One iteration that goes on keeps the invariant and shortens the table. -/
theorem cleanInv_step {low next : ℕ} {later : PcapRow} (hlater : next < later.timestamp)
    {s : CleanState} (h : CleanInv low next store later s) (hs : s.timestamp ≤ next) :
    CleanInv low next store later (cleanIteration s) ∧
      (cleanIteration s).store.table.rows.length < s.store.table.rows.length := by
  have hmem : later ∈ s.store.table.rows := h.later_mem hs
  refine ⟨⟨fun hs' => ?_, cleared_cleanIteration h.cleared,
    (cleanIteration_rows_sublist s).trans h.sublist, fun hnd r hr hgone => ?_⟩,
    length_cleanIteration_rows_lt s hmem (hs.trans hlater.le)⟩
  · -- `later` is past the new `timestamp`, so this group did not delete it
    refine (mem_cleanIteration_rows s).2 ⟨hmem, fun hin => ?_⟩
    exact absurd (hin.2.trans hs') (Nat.not_le.2 hlater)
  · rw [cleanIteration_removed]
    by_cases hold : r ∈ s.store.table.rows
    · -- deleted by this iteration: fetched, so its file was removed now
      have hnd' : (s.store.table.rows.map PcapRow.timestamp).Nodup :=
        hnd.sublist (h.sublist.map _)
      exact List.mem_append_right _ (List.mem_map_of_mem (mem_fetched_of_deleted s hnd' hold hgone))
    · exact List.mem_append_left _ (h.removed hnd r hr hold)

/-- The loop with a row `later` past `next_timestamp` ends: for every fuel past the number of
rows it stops, past `next_timestamp`, in a state with the invariant and with any property the
iterations keep. -/
theorem cleanLoop_exit (low : ℕ) {next : ℕ} {later : PcapRow} (hlaterMem : later ∈ store.table.rows)
    (hlaterTs : next < later.timestamp) (Q : CleanState → Prop) (hQ0 : Q ⟨store, low⟩)
    (hQ : ∀ s, CleanInv low next store later s → Q s → s.timestamp ≤ next →
      Q (cleanIteration s)) :
    ∃ t : CleanState,
      (∀ fuel, store.table.rows.length + 1 ≤ fuel →
        loop (cleanBody next) fuel ⟨store, low⟩ = some t) ∧
      next < t.timestamp ∧ CleanInv low next store later t ∧ Q t := by
  have h0 : CleanInv low next store later ⟨store, low⟩ :=
    ⟨fun _ => hlaterMem, cleared_start _ _, List.Sublist.refl _,
      fun _ r hr hgone => absurd hr hgone⟩
  -- the measure is the number of rows left
  have hstep : ∀ s, (CleanInv low next store later s ∧ Q s) → (cleanBody next s).1 = true →
      (CleanInv low next store later (cleanBody next s).2 ∧ Q (cleanBody next s).2) ∧
        (cleanBody next s).2.store.table.rows.length < s.store.table.rows.length := by
    rintro s ⟨hs, hq⟩ hgo
    obtain ⟨hle, hbody⟩ := cleanBody_go hgo
    rw [hbody]
    obtain ⟨hinv, hlt⟩ := cleanInv_step hlaterTs hs hle
    exact ⟨⟨hinv, hQ s hs hq hle⟩, hlt⟩
  obtain ⟨n, t, hit, hexit, hn, ht, hqt⟩ :=
    exists_iterates_exit (fun s => CleanInv low next store later s ∧ Q s)
      (fun s : CleanState => s.store.table.rows.length) hstep _ ⟨h0, hQ0⟩
  have hn : n ≤ store.table.rows.length := hn
  obtain ⟨hpast, hstay⟩ := cleanBody_stop hexit
  refine ⟨t, fun fuel hfuel => ?_, hpast, ht, hqt⟩
  rw [loop_eq_of_iterates_exit hit hexit fuel (by omega), hstay]

theorem cleanCapture_of_loop {fuel : ℕ} {t : CleanState}
    (h : loop (cleanBody ctx.nextTimestamp) fuel ⟨store, ctx.lowTimestamp⟩ = some t) :
    cleanCapture fuel ctx store = some (0, t.store) := by
  rw [cleanCapture, h]
  rfl

/-- When a row is later than `next_timestamp`, `clean_capture` returns `0` within one iteration
more than the table has rows; every row from `low_timestamp` to `next_timestamp` is deleted, the
table has only lost rows, and with distinct timestamps the file of every row deleted was
removed. -/
theorem cleanCapture_spec (hlater : ∃ r ∈ store.table.rows, ctx.nextTimestamp < r.timestamp) :
    ∃ store' : PcapStore,
      (∀ fuel, store.table.rows.length + 1 ≤ fuel → cleanCapture fuel ctx store = some (0, store')) ∧
      store'.table.rows.Sublist store.table.rows ∧
      (∀ r ∈ store'.table.rows,
        ¬ (ctx.lowTimestamp ≤ r.timestamp ∧ r.timestamp ≤ ctx.nextTimestamp)) ∧
      ((store.table.rows.map PcapRow.timestamp).Nodup →
        ∀ r ∈ store.table.rows, r ∉ store'.table.rows → r.name ∈ store'.removed) := by
  obtain ⟨later, hlaterMem, hlaterTs⟩ := hlater
  obtain ⟨t, hrun, hpast, ht, -⟩ := cleanLoop_exit ctx.lowTimestamp hlaterMem hlaterTs
    (fun _ => True) trivial (fun _ _ _ _ => trivial)
  refine ⟨t.store, fun fuel hfuel => cleanCapture_of_loop (hrun fuel hfuel), ht.sublist,
    fun r hr hin => ?_, ht.removed⟩
  exact ht.cleared.2 r hr ⟨hin.1, Nat.lt_of_le_of_lt hin.2 hpast⟩

/-- The loop also goes past `next_timestamp`: the group that ends it, here the row at `3`, is
deleted with its file. -/
example : (cleanCapture 4 ⟨cleanerStoreSize, 1, 0, 2⟩
    ⟨⟨[⟨1, "a", 0⟩, ⟨2, "b", 0⟩, ⟨3, "c", 0⟩], by decide⟩, []⟩).map
      (fun r => (r.1, r.2.table.rows, r.2.removed)) = some (0, [], ["a", "b", "c"]) := by
  decide

/-- `clean_capture` returns, with enough fuel, exactly when a row is later than
`next_timestamp`. -/
theorem cleanCapture_returns_iff (hle : ctx.lowTimestamp ≤ ctx.nextTimestamp) :
    (∃ fuel r, cleanCapture fuel ctx store = some r) ↔
      ∃ r ∈ store.table.rows, ctx.nextTimestamp < r.timestamp := by
  constructor
  · rintro ⟨fuel, r, h⟩
    by_contra hno
    simp only [not_exists, not_and, Nat.not_lt] at hno
    rw [cleanCapture_eq_none hle hno fuel] at h
    exact absurd h (by simp)
  · intro hlater
    obtain ⟨store', hrun, -⟩ := cleanCapture_spec hlater
    exact ⟨_, _, hrun _ le_rfl⟩

/-- A store with one row after `next_timestamp`, from the start-up context. -/
theorem cleanCapture_returns_iff_one_row :
    initCleanerContext.lowTimestamp ≤ initCleanerContext.nextTimestamp ∧
      ((∃ fuel r, cleanCapture fuel initCleanerContext ⟨⟨[⟨1, "a", 0⟩], by decide⟩, []⟩ = some r) ↔
        ∃ r ∈ [(⟨1, "a", 0⟩ : PcapRow)], initCleanerContext.nextTimestamp < r.timestamp) :=
  ⟨by decide, cleanCapture_returns_iff (by decide)⟩

/-- When more rows are at `low_timestamp` than a group holds, `clean_capture` deletes one of
them without removing its file, even when it returns: its first group stops at 1024 rows, and
the deletion of that group takes every row of its last timestamp. -/
theorem cleanCapture_leaves_tied_file (hle : ctx.lowTimestamp ≤ ctx.nextTimestamp)
    (hlater : ∃ r ∈ store.table.rows, ctx.nextTimestamp < r.timestamp)
    (hties : cleanerGroupInterval <
      (store.table.rows.filter (·.timestamp = ctx.lowTimestamp)).length)
    (hfresh : ∀ r ∈ store.table.rows, r.name ∉ store.removed) :
    ∃ store' : PcapStore,
      (∀ fuel, store.table.rows.length + 1 ≤ fuel → cleanCapture fuel ctx store = some (0, store')) ∧
      ∃ r ∈ store.table.rows, r.timestamp = ctx.lowTimestamp ∧ r ∉ store'.table.rows ∧
        r.name ∉ store'.removed := by
  obtain ⟨later, hlaterMem, hlaterTs⟩ := hlater
  obtain ⟨u, hu, huts, hugone, hunf⟩ := exists_deleted_unfetched ⟨store, ctx.lowTimestamp⟩ hties
  -- a fetched row never has `u`'s name: it is a row of the table, and names are a key
  have hname : ∀ s : CleanState, s.store.table.rows.Sublist store.table.rows → u ∉ fetched s →
      u.name ∉ (fetched s).map PcapRow.name := by
    intro s hsub hnot hmem
    obtain ⟨f, hf, hfname⟩ := List.mem_map.1 hmem
    have hfu : f = u := List.inj_on_of_nodup_map store.table.names_nodup
      (hsub.subset (mem_selectAsc hf).1) hu hfname
    exact hnot (hfu ▸ hf)
  -- from the first iteration on, `u` is gone and its name was never removed
  obtain ⟨t, hrun, hpast, -, hqt⟩ := cleanLoop_exit ctx.lowTimestamp hlaterMem hlaterTs
    (fun s => s = ⟨store, ctx.lowTimestamp⟩ ∨ (u ∉ s.store.table.rows ∧ u.name ∉ s.store.removed))
    (Or.inl rfl) (by
      rintro s hs (rfl | ⟨hgone, hnamegone⟩) _
      · refine .inr ⟨hugone, ?_⟩
        rw [cleanIteration_removed, List.mem_append, not_or]
        exact ⟨hfresh u hu, hname _ (List.Sublist.refl _) hunf⟩
      · refine .inr ⟨fun h => hgone ((mem_cleanIteration_rows s).1 h).1, ?_⟩
        rw [cleanIteration_removed, List.mem_append, not_or]
        refine ⟨hnamegone, hname s hs.sublist fun hf => hgone ?_⟩
        exact (mem_selectAsc hf).1)
  refine ⟨t.store, fun fuel hfuel => cleanCapture_of_loop (hrun fuel hfuel), u, hu, huts, ?_⟩
  -- the loop ended past `next_timestamp`, so not where it started
  rcases hqt with rfl | hgone
  · exact absurd hpast (Nat.not_lt.2 hle)
  · exact hgone

end Run

/-- Two captures of 600 KiB each, a second apart. -/
def twoCaptures : PcapStore :=
  ⟨⟨[⟨1, "capture1.pcap", 600 * 1024⟩, ⟨2, "capture2.pcap", 600 * 1024⟩], by decide⟩, []⟩

/-- The name of the `i`-th of many captures. -/
def captureName (i : ℕ) : String := String.ofList (List.replicate i 'c')

theorem captureName_injective : Function.Injective captureName := by
  intro i j h
  have hlen := congrArg List.length (String.ofList_inj.1 h)
  rwa [List.length_replicate, List.length_replicate] at hlen

/-- 1025 captures in the same second, then one a second later. -/
def tiedRows : List PcapRow :=
  (List.range 1025).map (fun i => ⟨1, captureName i, 0⟩) ++ [⟨2, captureName 1025, 0⟩]

theorem tiedRows_names : tiedRows.map PcapRow.name = (List.range 1026).map captureName := by
  have hrange : List.range 1026 = List.range 1025 ++ [1025] := List.range_succ
  rw [tiedRows, List.map_append, List.map_map, hrange, List.map_append]
  simp only [List.map_cons, List.map_nil, Function.comp_def]

theorem tiedRows_filter_length :
    (tiedRows.filter (·.timestamp = 1)).length = 1025 := by
  rw [tiedRows, List.filter_append, List.filter_eq_self.2 (fun r hr => ?_)]
  · simp
  · obtain ⟨i, -, rfl⟩ := List.mem_map.1 hr
    rfl

/-- The store of `tiedRows`, no file removed yet. -/
def tiedCaptures : PcapStore :=
  ⟨⟨tiedRows, by rw [tiedRows_names]; exact List.nodup_range.map captureName_injective⟩, []⟩

theorem clean_capture_hangs_or_leaves_files :
    (cleanerAccount twoCaptures.table initCleanerContext = ⟨cleanerStoreSize, 1, 1200 * 1024, 2⟩ ∧
      ∀ fuel, eloopToutCleanerHandler fuel initCleanerContext twoCaptures = none) ∧
    ∃ store' : PcapStore,
      (∀ fuel, tiedCaptures.table.rows.length + 1 ≤ fuel →
        cleanCapture fuel ⟨cleanerStoreSize, 1, 0, 1⟩ tiedCaptures = some (0, store')) ∧
      ∃ r ∈ tiedCaptures.table.rows, r.timestamp = 1 ∧ r ∉ store'.table.rows ∧
        r.name ∉ store'.removed := by
  have haccount : cleanerAccount twoCaptures.table initCleanerContext =
      ⟨cleanerStoreSize, 1, 1200 * 1024, 2⟩ := by decide
  refine ⟨⟨haccount, fun fuel => ?_⟩, ?_⟩
  · -- the sum reaches the store size, and no row is later than `next_timestamp = 2`
    simp only [eloopToutCleanerHandler, haccount]
    rw [if_pos (by decide), cleanCapture_eq_none (by decide) (by decide) fuel]
    rfl
  · -- the first group takes 1024 of the 1025 rows of the first second, the deletion all of them
    refine cleanCapture_leaves_tied_file (le_refl 1) ⟨⟨2, captureName 1025, 0⟩, ?_, by decide⟩
      (by rw [tiedCaptures, tiedRows_filter_length]; decide) (fun _ _ h => absurd h (by simp [tiedCaptures]))
    simp [tiedCaptures, tiedRows]

end Cleaner

end EdgeSec
