import EdgeSec.Lib.Terminated
import EdgeSec.Capture.PacketDecoder

/-!
# The question name of a DNS packet, store by store

`decode_dns_questions` (`src/capture/middlewares/header_middleware/dns_decoder.c`) copies the
labels of the first question into `cpac->dnss.qname`, a `char[MAX_QUESTION_LEN]`: for every
label it checks `j + payload[i] >= MAX_QUESTION_LEN - 1`, copies the label to `&qname[j]`
with `os_memcpy`, moves `j` past it and one more byte and writes `.` at `qname[j - 1]`; at the
end it moves `j` back over the last `.` and writes the terminating NUL at `qname[j]`.

`PacketDecoder` models the loop by the content of the buffer (`dnsQuestionLoop`,
`decodeDnsQuestions`).  This file models it by its stores: `qname` is a buffer of
`MAX_QUESTION_LEN` bytes, a store is checked against that size, and a store past it stops
the run with `QnameStop.write`, as a read past the captured bytes stops it with
`QnameStop.read`.

## Main results

* `dnsQuestionStoreLoop_refines`, `decodeDnsQuestionsStore_refines`: the run by stores
  stops at a read exactly where the run by content does, and otherwise leaves in the buffer
  the content the other computes, the NUL after it;
* `dnsQuestionLoop_ok_of_le`: when the captured bytes reach `255` bytes past the wire length,
  no read stops the loop;
* `dnsQuestionLoop_wireName`: a name whose labels lie within the wire length is copied whole,
  each label followed by a `.`, as long as it fits;
* `dns_question_name_fits_and_reads_back`: every store of `decode_dns_questions` is within
  `qname`, the name is NUL-terminated below `MAX_QUESTION_LEN - 1`, and a well-formed name
  that fits is read back as its labels joined by `.`.
-/

namespace EdgeSec

namespace Capture

open Checked

/-! ## The buffer and its stores -/

/-- Why the run by stores stopped before its end. -/
inductive QnameStop
  /-- A read of the frame past the captured bytes. -/
  | read (f : Fault)
  /-- A store at `index` of `qname`, past its `MAX_QUESTION_LEN` bytes. -/
  | write (index : ℕ)
  deriving Repr, DecidableEq

/-- `qname` of `struct dns_schema`: `MAX_QUESTION_LEN` bytes. -/
abbrev QnameBuf := Vector UInt8 maxQuestionLen

/-- `qname[k] = v`. -/
def storeQname (buf : QnameBuf) (k : ℕ) (v : UInt8) : Except QnameStop QnameBuf :=
  if h : k < maxQuestionLen then .ok (buf.set k v h) else .error (.write k)

/-- `os_memcpy(&qname[j], src, n)`: the bytes of `src` stored from `j` on, in order. -/
def storeQnameBytes (buf : QnameBuf) : ℕ → List UInt8 → Except QnameStop QnameBuf
  | _, [] => .ok buf
  | j, v :: vs =>
      match storeQname buf j v with
      | .error e => .error e
      | .ok buf => storeQnameBytes buf (j + 1) vs

/-- The `while` loop of `decode_dns_questions` with its two indices: `i` into the payload
(a `uint16_t`), `j` into `qname`.  A label is copied to `&qname[j]`, then `j` moves past it
and one more byte and `.` is stored at `qname[j - 1]`. -/
def dnsQuestionStoreLoop (packet : List UInt8) (base length : ℕ) (i j : ℕ) (buf : QnameBuf) :
    Except QnameStop (ℕ × QnameBuf) :=
  if base + i < length then
    match byteAt packet (base + i) with
    | .error e => .error (.read e)
    | .ok b =>
        if h : b = 0 ∨ maxQuestionLen - 1 ≤ j + b.toNat then .ok (j, buf)
        else
          match bytesAt packet (base + i + 1) b.toNat with
          | .error e => .error (.read e)
          | .ok label =>
              match storeQnameBytes buf j label with
              | .error e => .error e
              | .ok buf =>
                  match storeQname buf (j + b.toNat + 1 - 1) 46 with
                  | .error e => .error e
                  | .ok buf =>
                      dnsQuestionStoreLoop packet base length ((i + b.toNat + 1) % 65536)
                        (j + b.toNat + 1) buf
  else .ok (j, buf)
termination_by maxQuestionLen - j
decreasing_by
  -- the label and its `.` fit below `MAX_QUESTION_LEN - 1`
  have := Nat.lt_of_not_le (not_or.1 h).2
  omega

/-- `decode_dns_questions` by its stores: the loop from the start of the payload, then
`j = (j) ? j - 1 : j` and `qname[j] = '\0'`. -/
def decodeDnsQuestionsStore (packet : List UInt8) (base length : ℕ) (buf : QnameBuf) :
    Except QnameStop QnameBuf :=
  match dnsQuestionStoreLoop packet base length 0 0 buf with
  | .error e => .error e
  | .ok (j, buf) => storeQname buf (if j ≠ 0 then j - 1 else j) 0

/-! ## What the stores leave in the buffer -/

theorem storeQname_of_lt (buf : QnameBuf) {k : ℕ} (hk : k < maxQuestionLen) (v : UInt8) :
    storeQname buf k v = .ok (buf.set k v hk) := dif_pos hk

/-- Storing `v` at `k` leaves the bytes below `k` and puts `v` after them. -/
theorem take_set_succ (l : List UInt8) {k : ℕ} (hk : k < l.length) (v : UInt8) :
    (l.set k v).take (k + 1) = l.take k ++ [v] := by
  rw [List.take_set, List.take_add_one, List.getElem?_eq_getElem hk, Option.toList_some,
    List.set_append_right _ _ (by rw [List.length_take]; omega)]
  simp only [List.length_take, Nat.min_eq_left hk.le, Nat.sub_self, List.set_cons_zero]

/-- A `memcpy` of `vs` to `&qname[j]` that fits leaves the bytes below `j` and puts `vs`
after them. -/
theorem storeQnameBytes_of_le (vs : List UInt8) :
    ∀ (buf : QnameBuf) (j : ℕ), j + vs.length ≤ maxQuestionLen →
      ∃ buf', storeQnameBytes buf j vs = .ok buf' ∧
        buf'.toList.take (j + vs.length) = buf.toList.take j ++ vs := by
  induction vs with
  | nil =>
      intro buf j _
      exact ⟨buf, rfl, by simp⟩
  | cons v vs ih =>
      intro buf j hfit
      have hj : j < maxQuestionLen := by
        simp only [List.length_cons] at hfit
        omega
      obtain ⟨buf', hstore, htake⟩ := ih (buf.set j v hj) (j + 1) (by simp at hfit; omega)
      refine ⟨buf', ?_, ?_⟩
      · rw [storeQnameBytes, storeQname_of_lt buf hj]
        exact hstore
      · have hset : (buf.set j v hj).toList.take (j + 1) = buf.toList.take j ++ [v] := by
          rw [Vector.toList_set, take_set_succ _ (by simpa using hj)]
        rw [List.length_cons, show j + (vs.length + 1) = j + 1 + vs.length by omega, htake,
          hset, List.append_assoc, List.singleton_append]

/-- The run by stores agrees with the run by content: a read past the captured bytes stops
both, and otherwise the buffer holds below the final `j` the content the other computes. -/
def StoreAgrees (r : Except QnameStop (ℕ × QnameBuf)) : Except Fault (List UInt8) → Prop
  | .error e => r = .error (.read e)
  | .ok q => ∃ buf, r = .ok (q.length, buf) ∧ buf.toList.take q.length = q

/-- The loop by stores refines the loop by content, from any state in which the buffer
holds the content below `j`. -/
theorem dnsQuestionStoreLoop_refines (packet : List UInt8) (base length i : ℕ)
    (qname : List UInt8) (buf : QnameBuf) (hlen : qname.length ≤ maxQuestionLen - 1)
    (htake : buf.toList.take qname.length = qname) :
    StoreAgrees (dnsQuestionStoreLoop packet base length i qname.length buf)
      (dnsQuestionLoop packet base length i qname) := by
  fun_induction dnsQuestionLoop packet base length i qname generalizing buf with
  | case1 i qname hlt e hbyte =>
      rw [dnsQuestionStoreLoop, if_pos hlt, hbyte]
      rfl
  | case2 i qname hlt b hbyte hstop =>
      rw [dnsQuestionStoreLoop, if_pos hlt, hbyte]
      dsimp only
      rw [dif_pos hstop]
      exact ⟨buf, rfl, htake⟩
  | case3 i qname hlt b hbyte hgo e hl =>
      rw [dnsQuestionStoreLoop, if_pos hlt, hbyte]
      dsimp only
      rw [dif_neg hgo, hl]
      rfl
  | case4 i qname hlt b hbyte hgo label hl ih =>
      have hlabel : label.length = b.toNat := readBytes_length_of_ok hl
      have hfit : qname.length + b.toNat < maxQuestionLen - 1 := Nat.lt_of_not_le (not_or.1 hgo).2
      -- the `memcpy` of the label, then the `.` after it
      obtain ⟨buf₁, hcopy, htake₁⟩ :=
        storeQnameBytes_of_le label buf qname.length (by rw [hlabel]; omega)
      have hdot : qname.length + b.toNat < maxQuestionLen := by omega
      have htake₂ : ((buf₁.set (qname.length + b.toNat) 46 hdot).toList).take
          (qname.length + b.toNat + 1) = qname ++ label ++ [46] := by
        rw [Vector.toList_set, take_set_succ _ (by simpa using hdot), ← hlabel, htake₁, htake]
      have hnew : (qname ++ label ++ [46]).length = qname.length + b.toNat + 1 := by
        simp only [List.length_append, List.length_singleton, hlabel]
      have hnext := ih (buf₁.set (qname.length + b.toNat) 46 hdot) (by omega)
        (by rw [hnew]; exact htake₂)
      rw [hnew] at hnext
      rw [dnsQuestionStoreLoop, if_pos hlt, hbyte]
      dsimp only
      rw [dif_neg hgo, hl]
      dsimp only
      rw [hcopy]
      dsimp only
      rw [Nat.add_sub_cancel, storeQname_of_lt buf₁ hdot]
      exact hnext
  | case5 i qname hge =>
      rw [dnsQuestionStoreLoop, if_neg hge]
      exact ⟨buf, rfl, htake⟩

/-- The whole of `decode_dns_questions` by stores agrees with it by content: the same read
stops both, and otherwise `qname` holds the name and the NUL after it. -/
def NameAgrees (r : Except QnameStop QnameBuf) : Except Fault (List UInt8) → Prop
  | .error e => r = .error (.read e)
  | .ok q => ∃ buf, r = .ok buf ∧ buf.toList.take (q.length + 1) = q ++ [0]

theorem decodeDnsQuestionsStore_refines (packet : List UInt8) (base length : ℕ) (buf : QnameBuf) :
    NameAgrees (decodeDnsQuestionsStore packet base length buf)
      (decodeDnsQuestions packet base length) := by
  have hloop := dnsQuestionStoreLoop_refines packet base length 0 [] buf (by decide) rfl
  rw [List.length_nil] at hloop
  unfold decodeDnsQuestions decodeDnsQuestionsStore
  cases hl : dnsQuestionLoop packet base length 0 [] with
  | error e =>
      rw [hl] at hloop
      rw [hloop]
      rfl
  | ok qname =>
      rw [hl] at hloop
      obtain ⟨buf₁, hrun, htake⟩ := hloop
      have hlen := dnsQuestionLoop_length_le packet base length 0 [] (Nat.zero_le _) hl
      -- `j` moved back over the last `.` is the length of the name without it
      have hj : (if qname.length ≠ 0 then qname.length - 1 else qname.length) =
          qname.dropLast.length := by
        rw [List.length_dropLast]
        split_ifs <;> omega
      have hnul : qname.dropLast.length < maxQuestionLen := by
        rw [List.length_dropLast]
        unfold maxQuestionLen at hlen ⊢
        omega
      refine ⟨buf₁.set qname.dropLast.length 0 hnul, ?_, ?_⟩
      · rw [hrun]
        dsimp only
        rw [hj, storeQname_of_lt buf₁ hnul]
      · have hle : qname.dropLast.length ≤ qname.length := by
          rw [List.length_dropLast]
          exact Nat.sub_le _ _
        have hprefix : buf₁.toList.take qname.dropLast.length = qname.dropLast :=
          calc buf₁.toList.take qname.dropLast.length
              = (buf₁.toList.take qname.length).take qname.dropLast.length := by
                rw [List.take_take, Nat.min_eq_left hle]
            _ = qname.take qname.dropLast.length := by rw [htake]
            _ = qname.dropLast := by rw [List.length_dropLast, List.dropLast_eq_take]
        rw [Vector.toList_set, take_set_succ _ (by simpa using hnul), hprefix]

/-! ## Reads that stay within the captured bytes -/

/-- When the captured bytes reach `255` bytes past the wire length, no read of the loop is
past them: a length byte is read before the wire length, and a label after it has at most
`255` bytes. -/
theorem dnsQuestionLoop_ok_of_le {packet : List UInt8} {length : ℕ} (base : ℕ)
    (hcap : length + 255 ≤ packet.length) (i : ℕ) (qname : List UInt8) :
    ∃ q, dnsQuestionLoop packet base length i qname = .ok q := by
  fun_induction dnsQuestionLoop packet base length i qname with
  | case1 i qname hlt e hbyte =>
      rw [byteAt_of_lt (by omega)] at hbyte
      cases hbyte
  | case2 => exact ⟨_, rfl⟩
  | case3 i qname hlt b hbyte hgo e hl =>
      have hb : b.toNat < 256 := b.toNat_lt
      rw [bytesAt_of_le (by omega)] at hl
      cases hl
  | case4 i qname hlt b hbyte hgo label hl ih => exact ih
  | case5 => exact ⟨_, rfl⟩

/-! ## A well-formed name -/

/-- A name as the question section holds it: every label after its length byte, then the
zero length of the root label. -/
def wireName (labels : List (List UInt8)) : List UInt8 :=
  labels.flatMap (fun l => UInt8.ofNat l.length :: l) ++ [0]

/-- The name as `qname` should hold it: its labels joined by `.`. -/
def dottedName (labels : List (List UInt8)) : List UInt8 := [46].intercalate labels

theorem byteAt_of_drop {packet : List UInt8} {k : ℕ} {b : UInt8} {rest : List UInt8}
    (h : packet.drop k = b :: rest) : byteAt packet k = .ok b := by
  have hk : k < packet.length := by
    by_contra hle
    rw [List.drop_eq_nil_of_le (Nat.le_of_not_lt hle)] at h
    cases h
  rw [byteAt_of_lt hk, List.getD_eq_getElem _ _ hk]
  have := congrArg List.head? h
  rw [List.head?_drop, List.getElem?_eq_getElem hk, List.head?_cons] at this
  rw [Option.some.inj this]

theorem bytesAt_of_drop {packet : List UInt8} {k : ℕ} {l rest : List UInt8}
    (h : packet.drop k = l ++ rest) : bytesAt packet k l.length = .ok l := by
  cases l with
  | nil => rfl
  | cons a l =>
      -- a label that is there lies below the captured length
      have hk : k + (a :: l).length ≤ packet.length := by
        have := congrArg List.length h
        simp only [List.length_drop, List.length_append, List.length_cons] at this
        simp only [List.length_cons]
        omega
      rw [bytesAt_of_le hk]
      congr 1
      apply List.ext_getElem (by simp)
      intro n _ hn
      have hget := congrArg (·[n]?) h
      simp only [List.getElem?_drop, List.getElem?_append_left hn] at hget
      simp only [List.getElem_ofFn, List.getD_eq_getElem?_getD, hget, List.getElem?_eq_getElem hn,
        Option.getD_some]

/-- The text of the labels each with its length byte is one byte longer per label than the
labels each followed by a `.`. -/
theorem length_flatMap_label (labels : List (List UInt8)) :
    (labels.flatMap fun l => UInt8.ofNat l.length :: l).length =
      (labels.flatMap (· ++ [46])).length := by
  simp only [List.length_flatMap, List.length_cons, List.length_append, List.length_nil,
    Nat.zero_add]

/-- A name whose length bytes lie before the wire length is copied label by label, every
label followed by a `.`, as long as it fits below `MAX_QUESTION_LEN - 1`. -/
theorem dnsQuestionLoop_wireName (packet : List UInt8) (base length : ℕ) :
    ∀ (labels : List (List UInt8)) (i : ℕ) (qname rest : List UInt8),
      (∀ l ∈ labels, 0 < l.length) → packet.drop (base + i) = wireName labels ++ rest →
      qname.length + (labels.flatMap (· ++ [46])).length ≤ maxQuestionLen - 1 →
      base + i + (labels.flatMap (· ++ [46])).length ≤ length →
      i + (labels.flatMap (· ++ [46])).length < 65536 →
      dnsQuestionLoop packet base length i qname = .ok (qname ++ labels.flatMap (· ++ [46])) := by
  intro labels
  induction labels with
  | nil =>
      intro i qname rest _ hdrop _ _ _
      -- the root label: a zero length, or the wire length reached
      rw [dnsQuestionLoop, List.flatMap_nil, List.append_nil]
      split_ifs with hlt
      · rw [byteAt_of_drop hdrop]
        dsimp only
        rw [dif_pos (.inl rfl)]
        rfl
      · rfl
  | cons l ls ih =>
      intro i qname rest hpos hdrop hfit hwire hwrap
      have hl := hpos l List.mem_cons_self
      have hlen : (List.flatMap (· ++ [46]) (l :: ls)).length =
          l.length + 1 + (ls.flatMap (· ++ [46])).length := by
        simp only [List.flatMap_cons, List.length_append, List.length_singleton]
      have hbyte : (UInt8.ofNat l.length).toNat = l.length := by
        rw [UInt8.toNat_ofNat', Nat.mod_eq_of_lt]
        unfold maxQuestionLen at hfit
        omega
      have hdrop' : packet.drop (base + i) =
          UInt8.ofNat l.length :: (l ++ (wireName ls ++ rest)) := by
        rw [hdrop, wireName, wireName, List.flatMap_cons]
        simp only [List.cons_append, List.append_assoc]
      have hlabel : packet.drop (base + i + 1) = l ++ (wireName ls ++ rest) := by
        rw [← List.drop_drop, hdrop', List.drop_one, List.tail_cons]
      have hnext : packet.drop (base + ((i + l.length + 1) % 65536)) = wireName ls ++ rest := by
        rw [Nat.mod_eq_of_lt (by omega), show base + (i + l.length + 1) = base + i + 1 + l.length
          by omega, ← List.drop_drop, hlabel, List.drop_left]
      have hgo : ¬(UInt8.ofNat l.length = 0 ∨
          maxQuestionLen - 1 ≤ qname.length + (UInt8.ofNat l.length).toNat) := by
        rintro (h0 | hge)
        · have := congrArg UInt8.toNat h0
          rw [hbyte] at this
          simp only [UInt8.toNat_zero] at this
          omega
        · omega
      have hrec := ih ((i + l.length + 1) % 65536) (qname ++ l ++ [46]) rest
        (fun l' hl' => hpos l' (List.mem_cons_of_mem _ hl')) hnext
        (by simp only [List.length_append, List.length_singleton]; omega)
        (by rw [Nat.mod_eq_of_lt (by omega)]; omega)
        (by rw [Nat.mod_eq_of_lt (by omega)]; omega)
      rw [dnsQuestionLoop, if_pos (by omega), byteAt_of_drop hdrop']
      dsimp only
      rw [dif_neg hgo]
      split
      · rename_i e he
        rw [hbyte, bytesAt_of_drop hlabel] at he
        cases he
      · rename_i label he
        rw [hbyte, bytesAt_of_drop hlabel] at he
        cases he
        rw [hbyte, hrec, List.flatMap_cons]
        simp only [List.append_assoc]

/-- `decode_dns_questions` on a name whose labels lie within the wire length and that fits
below `MAX_QUESTION_LEN - 1`: the labels joined by `.`, with no `.` after the last one. -/
theorem decodeDnsQuestions_wireName {packet : List UInt8} {base length : ℕ}
    {labels : List (List UInt8)} {rest : List UInt8} (hpos : ∀ l ∈ labels, 0 < l.length)
    (hdrop : packet.drop base = wireName labels ++ rest)
    (hwire : base + (labels.flatMap fun l => UInt8.ofNat l.length :: l).length ≤ length)
    (hfit : (dottedName labels).length < maxQuestionLen - 1) :
    decodeDnsQuestions packet base length = .ok (dottedName labels) := by
  -- the labels each followed by a `.` are one byte longer than the dotted name
  have hdotted : (labels.flatMap (· ++ [46])).length ≤ (dottedName labels).length + 1 := by
    rw [dottedName, ← Terminated.dropLast_flatMap_append_singleton, List.length_dropLast]
    omega
  rw [length_flatMap_label] at hwire
  unfold decodeDnsQuestions
  rw [dnsQuestionLoop_wireName packet base length labels 0 [] rest hpos hdrop
      (by unfold maxQuestionLen at hfit ⊢; simp only [List.length_nil]; omega) hwire
      (by unfold maxQuestionLen at hfit; omega),
    ok_bind, pure_eq_ok, List.nil_append, Terminated.dropLast_flatMap_append_singleton]
  rfl

/-- A buffer that holds a name without NUL bytes and a NUL after it reads back, as a C
string, as the name. -/
theorem takeWhile_ne_zero_of_take {l q : List UInt8} (htake : l.take (q.length + 1) = q ++ [0])
    (hq : (0 : UInt8) ∉ q) : l.takeWhile (· ≠ 0) = q := by
  have hpos : ∀ a ∈ q, decide (a ≠ 0) = true := by
    intro a ha
    rw [decide_eq_true_eq]
    rintro rfl
    exact hq ha
  rw [← List.take_append_drop (q.length + 1) l, htake, List.append_assoc,
    List.takeWhile_append_of_pos hpos, List.singleton_append,
    List.takeWhile_cons_of_neg (by simp), List.append_nil]

/-- `decode_dns_questions`, store by store, on every frame and wire length: no store falls
outside the `MAX_QUESTION_LEN` bytes of `qname`; when no read falls past the captured bytes
(which never happens while they reach `255` bytes past the wire length), `qname` holds the
name the content model computes, shorter than `MAX_QUESTION_LEN - 1`, and a NUL after it; and
a well-formed name whose labels lie within the wire length and whose dotted form is shorter
than `MAX_QUESTION_LEN - 1` reads back as its labels joined by `.`. -/
theorem dns_question_name_fits_and_reads_back :
    (∀ (packet : List UInt8) (base length : ℕ) (buf : QnameBuf) (k : ℕ),
      decodeDnsQuestionsStore packet base length buf ≠ .error (.write k)) ∧
    (∀ (packet : List UInt8) (base length : ℕ) (buf buf' : QnameBuf),
      decodeDnsQuestionsStore packet base length buf = .ok buf' →
        ∃ q, decodeDnsQuestions packet base length = .ok q ∧ q.length < maxQuestionLen - 1 ∧
          buf'.toList.take (q.length + 1) = q ++ [0]) ∧
    (∀ (packet : List UInt8) (base length : ℕ) (buf : QnameBuf), length + 255 ≤ packet.length →
      ∃ buf', decodeDnsQuestionsStore packet base length buf = .ok buf') ∧
    (∀ (packet : List UInt8) (base length : ℕ) (buf : QnameBuf) (labels : List (List UInt8))
      (rest : List UInt8), (∀ l ∈ labels, 0 < l.length ∧ (0 : UInt8) ∉ l) →
      packet.drop base = wireName labels ++ rest →
      base + (labels.flatMap fun l => UInt8.ofNat l.length :: l).length ≤ length →
      (dottedName labels).length < maxQuestionLen - 1 →
      ∃ buf', decodeDnsQuestionsStore packet base length buf = .ok buf' ∧
        buf'.toList.takeWhile (· ≠ 0) = dottedName labels) := by
  refine ⟨?_, ?_, ?_, ?_⟩
  · -- a run stops only at a read
    intro packet base length buf k hstop
    have href := decodeDnsQuestionsStore_refines packet base length buf
    cases hq : decodeDnsQuestions packet base length with
    | error e =>
        rw [hq, NameAgrees, hstop] at href
        cases href
    | ok q =>
        rw [hq, NameAgrees, hstop] at href
        obtain ⟨_, hr, -⟩ := href
        cases hr
  · intro packet base length buf buf' hrun
    have href := decodeDnsQuestionsStore_refines packet base length buf
    cases hq : decodeDnsQuestions packet base length with
    | error e =>
        rw [hq, NameAgrees, hrun] at href
        cases href
    | ok q =>
        rw [hq, NameAgrees, hrun] at href
        obtain ⟨_, hr, htake⟩ := href
        cases hr
        have hfits := decodeDnsQuestions_fits packet base length hq
        exact ⟨q, rfl, by omega, htake⟩
  · intro packet base length buf hcap
    obtain ⟨qname, hloop⟩ := dnsQuestionLoop_ok_of_le base hcap 0 []
    have href := decodeDnsQuestionsStore_refines packet base length buf
    rw [decodeDnsQuestions, hloop, ok_bind, pure_eq_ok, NameAgrees] at href
    obtain ⟨buf', hr, -⟩ := href
    exact ⟨buf', hr⟩
  · intro packet base length buf labels rest hlabels hdrop hwire hfit
    have href := decodeDnsQuestionsStore_refines packet base length buf
    rw [decodeDnsQuestions_wireName (fun l hl => (hlabels l hl).1) hdrop hwire hfit,
      NameAgrees] at href
    obtain ⟨buf', hr, htake⟩ := href
    -- the dotted name holds no NUL: neither its labels nor its dots do
    have hnul : (0 : UInt8) ∉ dottedName labels :=
      Terminated.not_mem_intercalate_singleton (by decide) fun l hl => (hlabels l hl).2
    exact ⟨buf', hr, takeWhile_ne_zero_of_take htake hnul⟩

/-- The question of a query for `www.example`, type `A`, class `IN`. -/
def wwwExampleQuestion : List UInt8 :=
  [3, 119, 119, 119, 7, 101, 120, 97, 109, 112, 108, 101, 0, 0, 1, 0, 1]

theorem dns_question_name_www_example :
    ∃ buf', decodeDnsQuestionsStore wwwExampleQuestion 0 wwwExampleQuestion.length
        (Vector.replicate maxQuestionLen 65) = .ok buf' ∧
      buf'.toList.takeWhile (· ≠ 0) =
        dottedName [[119, 119, 119], [101, 120, 97, 109, 112, 108, 101]] :=
  dns_question_name_fits_and_reads_back.2.2.2 wwwExampleQuestion 0 _ _ _ [0, 1, 0, 1]
    (by decide) (by decide) (by decide) (by decide)

end Capture

end EdgeSec
