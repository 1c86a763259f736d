import EdgeSec.Lib.Machine
import EdgeSec.Lib.Fifo

/-!
# The string queue of `src/utils/squeue.c`

`struct string_queue` is a header node holding `max_length` and a `dl_list` of element
nodes, each holding one `os_strdup`-ed string.  The doubly linked list (from hostap's
`list.h`, outside this repository) is modelled by the list of its strings, head first;
`dl_list_add_tail`, `dl_list_first` and `dl_list_del` of its first node are `++ [_]`,
`head?` and `tail`.  A C string is a Lean `String`: the queue only copies, measures and
concatenates its strings (`os_strdup`, `strlen`, `strcat`), so none of them looks inside.
Allocation (`os_zalloc`, `os_realloc`) is taken to succeed, and the `NULL` checks on the
arguments are omitted: every caller passes a live queue and a string.

The loops of `empty_string_queue` and `concat_string_queue` are written as the C writes
them, with the signed counter `num` and the signed `count`; `emptyStringQueueLoop_eq` and
`concatStringQueueLoop_eq` say what they compute.

The main result, `string_queue_refines_fifo`, is that the queue refines the bounded FIFO of
`EdgeSec.Lib.Fifo`: for every `max_length` and every sequence of operations the queue and
the FIFO give the same replies and hold the same strings, so the length never exceeds a
nonnegative `max_length`.
-/

namespace EdgeSec.Squeue

/-- `struct string_queue`: the bound `max_length` (`-1` for unlimited) and the strings of
the element nodes, oldest first. -/
structure StringQueue where
  maxLength : Int
  strs : List String
  deriving Repr, DecidableEq

/-- `init_string_queue`. -/
def initStringQueue (maxLength : Int) : StringQueue := ⟨maxLength, []⟩

/-- `get_string_queue_length`: `dl_list_len` of the element list. -/
def getStringQueueLength (queue : StringQueue) : Int := queue.strs.length

/-- `push_string_queue`: append a copy of `str` at the tail, then, if the queue has grown
past a nonnegative `max_length`, free its first element. -/
def pushStringQueue (queue : StringQueue) (str : String) : StringQueue :=
  let maxLength := queue.maxLength
  let queue := { queue with strs := queue.strs ++ [str] }
  if getStringQueueLength queue > maxLength ∧ maxLength ≥ 0 then
    { queue with strs := queue.strs.tail }
  else queue

@[simp] theorem pushStringQueue_maxLength (queue : StringQueue) (str : String) :
    (pushStringQueue queue str).maxLength = queue.maxLength := by
  simp only [pushStringQueue]
  split <;> rfl

/-- `peek_string_queue`: a copy of the first string, `NULL` on the empty queue. -/
def peekStringQueue (queue : StringQueue) : Option String := queue.strs.head?

/-- `pop_string_queue`: peek, then free the first element (`free_string_queue_el` of
`NULL` does nothing). -/
def popStringQueue (queue : StringQueue) : Option String × StringQueue :=
  (peekStringQueue queue, { queue with strs := queue.strs.tail })

/-- The loop of `empty_string_queue`: while there is a first element and `num < count` for
a positive `count`, or for ever when `count < 0`, free it and count it. -/
def emptyStringQueueLoop (count : Int) : Int → List String → List String
  | _, [] => []
  | num, str :: rest =>
      if (num < count ∧ count > 0) ∨ count < 0 then emptyStringQueueLoop count (num + 1) rest
      else str :: rest

/-- `empty_string_queue`. -/
def emptyStringQueue (queue : StringQueue) (count : Int) : StringQueue :=
  { queue with strs := emptyStringQueueLoop count 0 queue.strs }

/-- The loop of `concat_string_queue` over `dl_list_for_each`: the element numbered `num`
is appended when `num < count` for a positive `count`, or always when `count < 0`; the
buffer is allocated (as `""`) by the first append, so it stays `NULL` if nothing is. -/
def concatStringQueueLoop (count : Int) : Int → Option String → List String → Option String
  | _, concatStr, [] => concatStr
  | num, concatStr, str :: rest =>
      concatStringQueueLoop count (num + 1)
        (if (num < count ∧ count > 0) ∨ count < 0 then some (concatStr.getD "" ++ str)
          else concatStr) rest

/-- `concat_string_queue`. -/
def concatStringQueue (queue : StringQueue) (count : Int) : Option String :=
  concatStringQueueLoop count 0 none queue.strs

example : concatStringQueue ⟨-1, ["local", ".", "lan"]⟩ (-1) = some "local.lan" := by decide
example : concatStringQueue ⟨-1, ["a", "b"]⟩ 0 = none := by decide

/-! ## What the loops compute -/

/-- Append every string of a list to an optional buffer, allocating it at the first one. -/
def appendAll : Option String → List String → Option String
  | acc, [] => acc
  | acc, str :: rest => appendAll (some (acc.getD "" ++ str)) rest

theorem appendAll_some (acc : String) (l : List String) :
    appendAll (some acc) l = some (l.foldl (· ++ ·) acc) := by
  induction l generalizing acc with
  | nil => rfl
  | cons str rest ih => exact ih _

/-- Appending to nothing gives the concatenation of the strings, and `NULL` for none. -/
theorem appendAll_none (l : List String) :
    appendAll none l = if l = [] then none else some (String.join l) := by
  cases l with
  | nil => rfl
  | cons str rest =>
      rw [appendAll, appendAll_some, if_neg (List.cons_ne_nil _ _)]
      rfl

/-- `empty_string_queue` frees all elements for `count < 0` and the first
`count - num` otherwise. -/
theorem emptyStringQueueLoop_eq (count : Int) {num : Int} (hnum : 0 ≤ num) (l : List String) :
    emptyStringQueueLoop count num l = if count < 0 then [] else l.drop (count - num).toNat := by
  induction l generalizing num with
  | nil => simp [emptyStringQueueLoop]
  | cons str rest ih =>
      rw [emptyStringQueueLoop, ih (by omega)]
      by_cases hc : count < 0
      · simp [hc]
      · by_cases hn : num < count
        · have hk : (count - num).toNat = (count - (num + 1)).toNat + 1 := by omega
          simp [hc, hn, hk, show count > 0 by omega]
        · have hk : (count - num).toNat = 0 := by omega
          simp [hc, hn, hk]

/-- `concat_string_queue` appends the strings it selects: all of them for `count < 0`,
the first `count - num` otherwise. -/
theorem concatStringQueueLoop_eq (count : Int) {num : Int} (hnum : 0 ≤ num)
    (acc : Option String) (l : List String) :
    concatStringQueueLoop count num acc l =
      appendAll acc (if count < 0 then l else l.take (count - num).toNat) := by
  induction l generalizing num acc with
  | nil => simp [concatStringQueueLoop, appendAll]
  | cons str rest ih =>
      rw [concatStringQueueLoop, ih (by omega)]
      by_cases hc : count < 0
      · simp [hc, appendAll]
      · by_cases hn : num < count
        · have hk : (count - num).toNat = (count - (num + 1)).toNat + 1 := by omega
          simp [hc, hn, hk, show count > 0 by omega, appendAll]
        · have hk : (count - num).toNat = 0 := by omega
          have hk' : (count - (num + 1)).toNat = 0 := by omega
          simp [hc, hn, hk, hk', appendAll]

/-! ## The queue as a command-driven machine -/

/-- An operation of the string-queue API. -/
inductive QueueOp
  | push (str : String)
  | pop
  | peek
  | empty (count : Int)
  | concat (count : Int)
  deriving Repr, DecidableEq

/-- What an operation hands back: nothing, or a string pointer (`NULL` as `none`). -/
inductive QueueReply
  | done
  | str (s : Option String)
  deriving Repr, DecidableEq

/-- One operation on the queue. -/
def queueStep (queue : StringQueue) : QueueOp → StringQueue × QueueReply
  | .push str => (pushStringQueue queue str, .done)
  | .pop => ((popStringQueue queue).2, .str (popStringQueue queue).1)
  | .peek => (queue, .str (peekStringQueue queue))
  | .empty count => (emptyStringQueue queue count, .done)
  | .concat count => (queue, .str (concatStringQueue queue count))

/-- No operation changes the bound. -/
theorem queueStep_maxLength (queue : StringQueue) (op : QueueOp) :
    (queueStep queue op).1.maxLength = queue.maxLength := by
  cases op with
  | push str => exact pushStringQueue_maxLength queue str
  | pop | peek | empty _ | concat _ => rfl

/-! ## The abstract queue -/

/-- The bound a `max_length` stands for: none when negative. -/
def capacity (maxLength : Int) : Option ℕ := if maxLength < 0 then none else some maxLength.toNat

/-- The elements a signed `count` selects: all of them when negative, else the first
`count`. -/
def selection (count : Int) : Option ℕ := if count < 0 then none else some count.toNat

/-- The concatenation of the selected strings, `NULL` when none is selected. -/
def joinSelected (l : List String) : Option String := if l = [] then none else some (String.join l)

/-- The bounded FIFO read of each operation: push enqueues (keeping the newest
`max_length`), pop and peek return the oldest element, empty forgets the selected oldest
elements and concat joins them. -/
def fifoStep (q : BoundedFifo String) : QueueOp → BoundedFifo String × QueueReply
  | .push str => (q.enqueue str, .done)
  | .pop => (q.dequeue, .str q.front)
  | .peek => (q, .str q.front)
  | .empty count => (q.discard (selection count), .done)
  | .concat count => (q, .str (joinSelected (q.oldest (selection count))))

/-- The queue `queue` stands for the FIFO `q`: same bound, same strings in the same order. -/
def Refines (queue : StringQueue) (q : BoundedFifo String) : Prop :=
  q.cap = capacity queue.maxLength ∧ q.items = queue.strs

theorem refines_init (maxLength : Int) :
    Refines (initStringQueue maxLength) (BoundedFifo.empty (capacity maxLength)) :=
  ⟨rfl, rfl⟩

section Simulation

variable {queue : StringQueue} {q : BoundedFifo String}

theorem refines_push (h : Refines queue q) (str : String) :
    Refines (pushStringQueue queue str) (q.enqueue str) := by
  obtain ⟨hcap, hitems⟩ := h
  refine ⟨by rw [BoundedFifo.enqueue_cap, pushStringQueue_maxLength, hcap], ?_⟩
  by_cases hneg : queue.maxLength < 0
  · -- unbounded: the insertion is never undone
    have hnone : q.cap = none := by rw [hcap, capacity, if_pos hneg]
    rw [BoundedFifo.enqueue_items_of_none hnone, hitems, pushStringQueue, if_neg (by omega)]
  · -- bounded by `m`: both drop the oldest element exactly when the queue overflows
    have hsome : q.cap = some queue.maxLength.toNat := by rw [hcap, capacity, if_neg hneg]
    rw [BoundedFifo.enqueue_items_of_some hsome, hitems]
    simp only [pushStringQueue, getStringQueueLength, List.length_append, List.length_singleton]
    by_cases hover : queue.maxLength.toNat < queue.strs.length + 1
    · rw [if_pos hover, if_pos ⟨by push_cast; omega, by omega⟩]
    · rw [if_neg hover, if_neg (by push_cast; omega)]

theorem refines_pop (h : Refines queue q) :
    Refines (popStringQueue queue).2 q.dequeue ∧ (popStringQueue queue).1 = q.front := by
  obtain ⟨hcap, hitems⟩ := h
  exact ⟨⟨hcap, by simp [popStringQueue, hitems]⟩, by simp [popStringQueue, peekStringQueue,
    BoundedFifo.front, hitems]⟩

theorem refines_empty (h : Refines queue q) (count : Int) :
    Refines (emptyStringQueue queue count) (q.discard (selection count)) := by
  obtain ⟨hcap, hitems⟩ := h
  refine ⟨hcap, ?_⟩
  rw [emptyStringQueue, emptyStringQueueLoop_eq count le_rfl, selection]
  by_cases hc : count < 0
  · simp [hc]
  · simp [hc, hitems]

theorem concatStringQueue_eq (h : Refines queue q) (count : Int) :
    concatStringQueue queue count = joinSelected (q.oldest (selection count)) := by
  rw [concatStringQueue, concatStringQueueLoop_eq count le_rfl, appendAll_none, joinSelected,
    selection]
  by_cases hc : count < 0
  · simp [hc, BoundedFifo.oldest, h.2]
  · simp [hc, BoundedFifo.oldest, h.2]

/-- One operation of the queue is one operation of the FIFO. -/
theorem refines_step (h : Refines queue q) (op : QueueOp) :
    Refines (queueStep queue op).1 (fifoStep q op).1 ∧ (queueStep queue op).2 = (fifoStep q op).2 := by
  cases op with
  | push str => exact ⟨refines_push h str, rfl⟩
  | pop =>
      obtain ⟨hr, hfront⟩ := refines_pop h
      exact ⟨hr, by simp only [queueStep, fifoStep, hfront]⟩
  | peek => exact ⟨h, by simp [queueStep, fifoStep, peekStringQueue, BoundedFifo.front, h.2]⟩
  | empty count => exact ⟨refines_empty h count, rfl⟩
  | concat count => exact ⟨h, by simp only [queueStep, fifoStep, concatStringQueue_eq h count]⟩

end Simulation

/-- The queue after running `ops` from `init_string_queue(max_length)`, with the replies. -/
def runQueue (maxLength : Int) (ops : List QueueOp) : StringQueue × List QueueReply :=
  Machine.run queueStep (initStringQueue maxLength) ops

/-- The bounded FIFO after running `ops` from the empty queue of the same bound. -/
def runFifo (maxLength : Int) (ops : List QueueOp) : BoundedFifo String × List QueueReply :=
  Machine.run fifoStep (BoundedFifo.empty (capacity maxLength)) ops

/-- **The string queue refines the bounded FIFO.**  For every `max_length` and every
sequence of `push`, `pop`, `peek`, `empty` and `concat` operations from
`init_string_queue(max_length)`, the queue gives the replies the FIFO gives and holds the
strings it holds; in particular a nonnegative `max_length` bounds its length. -/
theorem string_queue_refines_fifo (maxLength : Int) (ops : List QueueOp) :
    Refines (runQueue maxLength ops).1 (runFifo maxLength ops).1 ∧
      (runQueue maxLength ops).2 = (runFifo maxLength ops).2 ∧
      (0 ≤ maxLength → getStringQueueLength (runQueue maxLength ops).1 ≤ maxLength) := by
  obtain ⟨hR, hreplies⟩ :=
    Machine.run_sim Refines (fun _ _ op h => refines_step h op) (refines_init maxLength) ops
  refine ⟨hR, hreplies, fun hm => ?_⟩
  -- no operation changes the bound, and the FIFO carries it as a field
  have hmax : (runQueue maxLength ops).1.maxLength = maxLength :=
    (Machine.Reachable.of_run ops).invariant (fun s => s.maxLength = maxLength) rfl
      (fun s op h => (queueStep_maxLength s op).trans h)
  have hcap : (runFifo maxLength ops).1.cap = some maxLength.toNat := by
    rw [runFifo, hR.1, ← runQueue, hmax, capacity, if_neg (by omega)]
  have hle : (runQueue maxLength ops).1.strs.length ≤ maxLength.toNat := by
    rw [← runQueue, ← runFifo] at hR
    rw [← hR.2]
    exact BoundedFifo.length_le hcap
  rw [getStringQueueLength]
  omega

end EdgeSec.Squeue
