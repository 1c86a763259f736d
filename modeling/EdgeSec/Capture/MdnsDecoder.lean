import EdgeSec.Lib.Checked
import EdgeSec.Utils.Squeue

/-!
# The mDNS record decoder

`decode_mdns_queries` and `decode_mdns_answers`
(`src/capture/middlewares/header_middleware/mdns_decoder.c`) read the question and answer
sections of an mDNS packet that the reflector (`eloop_reflector_handler`,
`src/dns/mdns_service.c`) has just received from the network.  Both decode a name with
`decode_mdns_query_name`, which walks the labels of the name, copies each with
`copy_mdns_query_name`, and follows a compression pointer by calling itself on the offset
the pointer holds; the labels are collected in a string queue and joined.

Every read of the packet is a checked read (`EdgeSec.Lib.Checked`): past the `len` bytes
received it is the fault `outOfBounds`.  The recursion through compression pointers has no
bound in C; here it is given a depth `fuel`, and exceeding it is the fault `noFuel`, so a
name whose decoding faults with `noFuel` for every fuel is one on which the C recursion does
not end.  Allocation is taken to succeed, so the `-1` returns of the C functions (allocation
failures) do not arise.  A decoded name is copied with `strcpy` into the `qname` or `rrname`
array of the entry, `MAX_WEB_PATH_LEN` bytes long; a name that does not fit with its NUL is the
fault `overflow` (`Checked.strcpyInto`).

## Main results

* `decodeMdnsQueryName_self_pointer`: a compression pointer that points to itself makes
  the name decoder recurse for ever.
* `mdns_decoder_unbounded`: on the two-byte question `c0 00` the decoder never ends, and on
  the one-byte question `c0` it reads the byte after the packet.
* `reflector_self_pointer_packet`: the same holds of a whole packet received by the
  reflector, a header announcing one question followed by a pointer to itself.
* `NameAt`: a well-formed name (labels of `1` to `0xBF` non-NUL bytes, ended by a zero byte
  or by a pointer to a well-formed name); `decodeMdnsQueryName_of_nameAt`: with more nested
  calls allowed than it has pointers, the decoder returns its labels, each with a dot, and
  stops at its zero byte or at the second byte of its pointer;
  `decodeMdnsQueriesLoop_of_questionsAt`: each well-formed question whose name fits in
  `qname` then takes its name, the byte after the name's end and a four-byte meta.
* `decodeMdnsQueries_of_long_name`: a well-formed first question whose name has
  `MAX_WEB_PATH_LEN` characters or more overflows `qname`; `longNamePacket_nameAt`: eleven
  labels of `191` bytes make such a name in a packet of `2117` bytes.
-/

namespace EdgeSec

namespace Mdns

open Checked Squeue

/-- `COMPRESSION_FLAG`. -/
def compressionFlag : UInt8 := 0xC0

/-- `COMPRESSION_FLAG_BIT7`. -/
def compressionFlagBit7 : UInt8 := 0x80

/-- `COMPRESSION_FLAG_BIT6`. -/
def compressionFlagBit6 : UInt8 := 0x40

/-- `sizeof(struct mdns_header)`. -/
def mdnsHeaderSize : ℕ := 12

/-- `sizeof(struct mdns_query_meta)`. -/
def mdnsQueryMetaSize : ℕ := 4

/-- `sizeof(struct mdns_answer_meta)`. -/
def mdnsAnswerMetaSize : ℕ := 10

/-- `IP_ALEN`. -/
def ipAlen : ℕ := 4

/-- `MAX_WEB_PATH_LEN` (`src/utils/os.h`), the size of `qname` in `struct mdns_query_entry`
and of `rrname` in `struct mdns_answer_entry`. -/
def maxWebPathLen : ℕ := 2048

/-- `struct mdns_query_entry`. -/
structure MdnsQueryEntry where
  qtype : UInt16
  qname : String
  deriving Repr, DecidableEq

/-- `struct mdns_answer_entry`. -/
structure MdnsAnswerEntry where
  ttl : UInt32
  rrtype : UInt16
  rrname : String
  ip : List UInt8
  deriving Repr, DecidableEq

/-- A C string as a Lean string, one character per byte. -/
def cString (bs : List UInt8) : String := String.ofList (bs.map fun b => Char.ofNat b.toNat)

/-- What `strncpy(dst, src, n)` reads: up to `n` bytes from `src` on, stopping at the first
NUL, which it reads but does not copy. -/
def strncpyRead (buf : List UInt8) (len : ℕ) : ℕ → ℕ → Except Fault (List UInt8)
  | 0, _ => pure []
  | n + 1, src => do
      let b ← readByte buf len src
      if b = 0 then pure []
      else do
        let rest ← strncpyRead buf len n (src + 1)
        pure (b :: rest)

/-- `copy_mdns_query_name`: the label at `start` with a `.` after it, `NULL` for the empty
label.  The `.` is written at `qname[start[0]]`, so it ends the C string only when the
label holds no NUL. -/
def copyMdnsQueryName (buf : List UInt8) (len : ℕ) (start : ℕ) : Except Fault (Option String) := do
  let l ← readByte buf len start
  if l = 0 then pure none
  else do
    let chars ← strncpyRead buf len l.toNat (start + 1)
    pure (some (cString chars ++ if chars.length = l.toNat then "." else ""))

/-- `get_mdns_query_offset`. -/
def getMdnsQueryOffset (low high : UInt8) : UInt16 :=
  (low.toUInt16 <<< 8) ||| high.toUInt16

/-- `if (qname != NULL) push_string_queue(squeue, qname)`. -/
def pushName (squeue : StringQueue) : Option String → StringQueue
  | some qname => pushStringQueue squeue qname
  | none => squeue

/-- Whether a label byte starts a compression pointer: both top bits set. -/
def isPointer (b : UInt8) : Prop :=
  b &&& compressionFlagBit7 ≠ 0 ∧ b &&& compressionFlagBit6 ≠ 0

instance (b : UInt8) : Decidable (isPointer b) := inferInstanceAs (Decidable (_ ∧ _))

/-- The `while (i < len)` loop of `decode_mdns_query_name` from offset `i`, with the labels
so far in `squeue`; `decodePtr` is the recursive call on a pointer's offset.  Returns the
offset the loop stopped at (the terminating zero, or the second byte of the pointer) and the
queue. -/
def decodeNameLoop (decodePtr : ℕ → Except Fault (Option String)) (buf : List UInt8)
    (len : ℕ) (i : ℕ) (squeue : StringQueue) : Except Fault (ℕ × StringQueue) :=
  if i < len then
    match readByte buf len i with
    | .error e => .error e
    | .ok b =>
        if b = 0 then .ok (i, squeue)
        else if isPointer b then do
          let high ← readByte buf len (i + 1)
          let qname ← decodePtr (getMdnsQueryOffset (b &&& ~~~compressionFlag) high).toNat
          pure (i + 1, pushName squeue qname)
        else do
          let qname ← copyMdnsQueryName buf len i
          decodeNameLoop decodePtr buf len (i + b.toNat + 1) (pushName squeue qname)
  else .ok (i, squeue)
termination_by len - i

/-- `decode_mdns_query_name` from offset `first`, with at most `fuel` nested calls: the
offset it leaves in `*first`, and the name (`NULL` when it has no label). -/
def decodeMdnsQueryName : ℕ → List UInt8 → ℕ → ℕ → Except Fault (ℕ × Option String)
  | 0, _, _, _ => .error .noFuel
  | fuel + 1, buf, len, first => do
      let r ← decodeNameLoop (fun off => do
          let r ← decodeMdnsQueryName fuel buf len off
          pure r.2)
        buf len first (initStringQueue (-1))
      pure (r.1, concatStringQueue r.2 (-1))

/-- The loop of `decode_mdns_queries` over the `n` questions still to read, from offset
`i`. -/
def decodeMdnsQueriesLoop (fuel : ℕ) (buf : List UInt8) (len : ℕ) :
    ℕ → ℕ → List MdnsQueryEntry → Except Fault (ℕ × List MdnsQueryEntry)
  | 0, i, queries => .ok (i, queries)
  | n + 1, i, queries => do
      let r ← decodeMdnsQueryName fuel buf len i
      let metaOff := r.1 + 1
      let i := metaOff + mdnsQueryMetaSize
      match r.2 with
      | some qname => do
          let qtype ← readBe16 buf len metaOff
          let qname ← strcpyInto maxWebPathLen qname
          decodeMdnsQueriesLoop fuel buf len n i (queries ++ [⟨qtype, qname⟩])
      | none => decodeMdnsQueriesLoop fuel buf len n i queries

/-- `decode_mdns_queries`: the offset after the questions, and the questions with a name. -/
def decodeMdnsQueries (fuel : ℕ) (buf : List UInt8) (len : ℕ) (first : ℕ) (nqueries : UInt16) :
    Except Fault (ℕ × List MdnsQueryEntry) :=
  decodeMdnsQueriesLoop fuel buf len nqueries.toNat first []

/-- The entry of one answer with a name: its TTL and type, the name copied into `rrname`,
and the address of an `A` record whose data is four bytes long. -/
def readAnswerEntry (buf : List UInt8) (len : ℕ) (metaOff i : ℕ) (rrname : String) :
    Except Fault MdnsAnswerEntry := do
  let ttl ← readBe32 buf len (metaOff + 4)
  let rrtype ← readBe16 buf len metaOff
  let rrname ← strcpyInto maxWebPathLen rrname
  let isA ← if rrtype = 1 then do
      let rdlength ← readBe16 buf len (metaOff + 8)
      pure (decide (rdlength.toNat = ipAlen))
    else pure false
  let ip ← if isA then readBytes buf len i ipAlen else pure (List.replicate ipAlen 0)
  pure ⟨ttl, rrtype, rrname, ip⟩

/-- The loop of `decode_mdns_answers` over the `n` answers still to read, from offset `i`. -/
def decodeMdnsAnswersLoop (fuel : ℕ) (buf : List UInt8) (len : ℕ) :
    ℕ → ℕ → List MdnsAnswerEntry → Except Fault (ℕ × List MdnsAnswerEntry)
  | 0, i, answers => .ok (i, answers)
  | n + 1, i, answers => do
      let r ← decodeMdnsQueryName fuel buf len i
      let metaOff := r.1 + 1
      let i := metaOff + mdnsAnswerMetaSize
      let answers ← match r.2 with
        | some rrname => do
            let entry ← readAnswerEntry buf len metaOff i rrname
            pure (answers ++ [entry])
        | none => pure answers
      let rdlength ← readBe16 buf len (metaOff + 8)
      decodeMdnsAnswersLoop fuel buf len n (i + rdlength.toNat) answers

/-- `decode_mdns_answers`: the offset after the answers, and the answers with a name. -/
def decodeMdnsAnswers (fuel : ℕ) (buf : List UInt8) (len : ℕ) (first : ℕ) (nanswers : UInt16) :
    Except Fault (ℕ × List MdnsAnswerEntry) :=
  decodeMdnsAnswersLoop fuel buf len nanswers.toNat first []

/-- `decode_mdns_queries` followed by `decode_mdns_answers` from where it stopped, as
`eloop_reflector_handler` calls them. -/
def decodeMdnsRecords (fuel : ℕ) (buf : List UInt8) (len : ℕ) (first : ℕ)
    (nqueries nanswers : UInt16) :
    Except Fault (List MdnsQueryEntry × ℕ × List MdnsAnswerEntry) := do
  let q ← decodeMdnsQueries fuel buf len first nqueries
  let a ← decodeMdnsAnswers fuel buf len q.1 nanswers
  pure (q.2, a.1, a.2)

/-- `decode_mdns_header`: the six counters of the header, read in place. -/
structure MdnsHeader where
  tid : UInt16
  flags : UInt16
  nqueries : UInt16
  nanswers : UInt16
  nauth : UInt16
  nother : UInt16
  deriving Repr, DecidableEq

/-- `decode_mdns_header` on the header that starts at offset `pos` of the buffer. -/
def decodeMdnsHeader (buf : List UInt8) (len : ℕ) (pos : ℕ) : Except Fault MdnsHeader := do
  let tid ← readBe16 buf len pos
  let flags ← readBe16 buf len (pos + 2)
  let nqueries ← readBe16 buf len (pos + 4)
  let nanswers ← readBe16 buf len (pos + 6)
  let nauth ← readBe16 buf len (pos + 8)
  let nother ← readBe16 buf len (pos + 10)
  pure ⟨tid, flags, nqueries, nanswers, nauth, nother⟩

/-- The decoding part of `eloop_reflector_handler` on the `numBytes` bytes received: the
header, the length check (made after the header is read), then the questions and the
answers after the header.  `none` is the "Not enough bytes" rejection. -/
def reflectorDecode (fuel : ℕ) (buf : List UInt8) (numBytes : ℕ) :
    Except Fault (Option (List MdnsQueryEntry × List MdnsAnswerEntry)) := do
  let header ← decodeMdnsHeader buf numBytes 0
  if numBytes < mdnsHeaderSize then pure none
  else do
    let r ← decodeMdnsRecords fuel buf numBytes mdnsHeaderSize header.nqueries header.nanswers
    pure (some (r.1, r.2.2))

/-! ## Compression pointers -/

theorem isPointer_ne_zero {b : UInt8} (h : isPointer b) : b ≠ 0 := by
  rintro rfl
  exact h.1 rfl

/-- A compression pointer at `p` that holds the offset `p` itself: every nested call
decodes the same pointer again, so no depth bound is ever enough. -/
theorem decodeMdnsQueryName_self_pointer (buf : List UInt8) (len p : ℕ) (hp : p + 1 < len)
    (hptr : isPointer (buf.getD p 0))
    (hoff : (getMdnsQueryOffset (buf.getD p 0 &&& ~~~compressionFlag) (buf.getD (p + 1) 0)).toNat = p)
    (fuel : ℕ) : decodeMdnsQueryName fuel buf len p = .error .noFuel := by
  induction fuel with
  | zero => rfl
  | succ fuel ih =>
      -- the loop reads the pointer and makes the nested call, which faults by induction
      have hloop : ∀ squeue, decodeNameLoop (fun off => do
          let r ← decodeMdnsQueryName fuel buf len off
          pure r.2) buf len p squeue = .error .noFuel := by
        intro squeue
        rw [decodeNameLoop, if_pos (by omega), readByte_of_lt (by omega)]
        simp only [if_neg (isPointer_ne_zero hptr), if_pos hptr, readByte_of_lt hp, ok_bind, hoff,
          ih, error_bind]
      simp only [decodeMdnsQueryName, hloop, error_bind]

/-! ## The decoder on two short questions -/

/-- The first question of a record section is a name that faults: so do the records. -/
theorem decodeMdnsRecords_of_name_fault (fuel : ℕ) (buf : List UInt8) (len first : ℕ)
    (nqueries nanswers : UInt16) (hq : 0 < nqueries.toNat) (f : Fault)
    (hname : decodeMdnsQueryName fuel buf len first = .error f) :
    decodeMdnsRecords fuel buf len first nqueries nanswers = .error f := by
  obtain ⟨n, hn⟩ : ∃ n, nqueries.toNat = n + 1 := ⟨nqueries.toNat - 1, by omega⟩
  simp only [decodeMdnsRecords, decodeMdnsQueries, hn, decodeMdnsQueriesLoop, hname, error_bind]

theorem mdns_decoder_unbounded :
    (∀ fuel, decodeMdnsRecords fuel [0xC0, 0x00] 2 0 1 0 = .error .noFuel) ∧
      (∀ fuel, 0 < fuel → decodeMdnsRecords fuel [0xC0] 1 0 1 0 = .error (.outOfBounds 1)) := by
  refine ⟨fun fuel => ?_, fun fuel hfuel => ?_⟩
  · -- `c0 00` is a pointer to offset `0`, where it stands
    exact decodeMdnsRecords_of_name_fault fuel _ 2 0 1 0 (by decide) _
      (decodeMdnsQueryName_self_pointer _ 2 0 (by decide) (by decide) (by decide) fuel)
  · -- `c0` is the first byte of a pointer whose second byte is past the packet
    obtain ⟨fuel, rfl⟩ : ∃ f, fuel = f + 1 := ⟨fuel - 1, by omega⟩
    refine decodeMdnsRecords_of_name_fault _ _ 1 0 1 0 (by decide) _ ?_
    have hloop : ∀ (decodePtr : ℕ → Except Fault (Option String)) squeue,
        decodeNameLoop decodePtr [0xC0] 1 0 squeue = .error (.outOfBounds 1) := by
      intro decodePtr squeue
      rw [decodeNameLoop, if_pos (by decide), readByte_of_lt (by decide)]
      simp only [if_neg (by decide : ([0xC0] : List UInt8).getD 0 0 ≠ 0),
        if_pos (by decide : isPointer (([0xC0] : List UInt8).getD 0 0)), readByte_of_le le_rfl,
        error_bind]
    simp only [decodeMdnsQueryName, hloop, error_bind]

/-! ## A whole packet at the reflector -/

/-- A header whose twelve bytes are all in the buffer decodes, and its question count is
the big-endian number in its bytes `4` and `5`. -/
theorem decodeMdnsHeader_nqueries (buf : List UInt8) (len pos : ℕ)
    (h : pos + mdnsHeaderSize ≤ len) :
    ∃ header, decodeMdnsHeader buf len pos = .ok header ∧
      header.nqueries.toNat = (buf.getD (pos + 4) 0).toNat * 256 + (buf.getD (pos + 5) 0).toNat := by
  unfold mdnsHeaderSize at h
  rw [decodeMdnsHeader, readBe16_of_lt (by omega), ok_bind, readBe16_of_lt (by omega), ok_bind,
    readBe16_of_lt (by omega), ok_bind, readBe16_of_lt (by omega), ok_bind,
    readBe16_of_lt (by omega), ok_bind, readBe16_of_lt (by omega), ok_bind, pure_eq_ok]
  refine ⟨_, rfl, ?_⟩
  have h4 := (buf.getD (pos + 4) 0).toNat_lt
  have h5 := (buf.getD (pos + 4 + 1) 0).toNat_lt
  simp only [UInt16.toNat_ofNat', Nat.reducePow, Nat.add_assoc, Nat.reduceAdd] at h5 ⊢
  omega

/-- Every packet of at least fourteen bytes whose header announces a question and whose
first question is the pointer `c0 0c` (to offset `12`, where it stands) keeps the reflector
in `decode_mdns_queries` for ever. -/
theorem reflector_self_pointer_packet (buf : List UInt8) (numBytes : ℕ)
    (hlen : mdnsHeaderSize + 2 ≤ numBytes) (hq : buf.getD 4 0 ≠ 0 ∨ buf.getD 5 0 ≠ 0)
    (hptr : buf.getD 12 0 = 0xC0) (hoff : buf.getD 13 0 = 0x0C) (fuel : ℕ) :
    reflectorDecode fuel buf numBytes = .error .noFuel := by
  obtain ⟨header, hheader, hn⟩ := decodeMdnsHeader_nqueries buf numBytes 0 (by omega)
  have hpos : 0 < header.nqueries.toNat := by
    rw [hn, Nat.zero_add, Nat.zero_add]
    rcases hq with h4 | h5
    · have : (buf.getD 4 0).toNat ≠ 0 := fun h0 => h4 (UInt8.toNat_inj.1 h0)
      omega
    · have : (buf.getD 5 0).toNat ≠ 0 := fun h0 => h5 (UInt8.toNat_inj.1 h0)
      omega
  have hname : decodeMdnsQueryName fuel buf numBytes mdnsHeaderSize = .error .noFuel := by
    refine decodeMdnsQueryName_self_pointer buf numBytes 12 (by unfold mdnsHeaderSize at hlen; omega)
      ?_ ?_ fuel
    · rw [hptr]
      decide
    · rw [hptr, hoff]
      decide
  unfold reflectorDecode
  rw [hheader, ok_bind, if_neg (by omega),
    decodeMdnsRecords_of_name_fault fuel buf numBytes _ _ _ hpos _ hname, error_bind]

/-- One question, no answers: the header and the pointer `c0 0c`. -/
def selfPointerPacket : List UInt8 := [0, 0, 0, 0, 0, 1, 0, 0, 0, 0, 0, 0, 0xC0, 0x0C]

theorem reflector_loops_on_self_pointer_packet :
    mdnsHeaderSize + 2 ≤ 14 ∧ selfPointerPacket.getD 5 0 ≠ 0 ∧
      ∀ fuel, reflectorDecode fuel selfPointerPacket 14 = .error .noFuel :=
  ⟨by decide, by decide,
    reflector_self_pointer_packet selfPointerPacket 14 (by decide) (.inr (by decide)) rfl rfl⟩

/-! ## Well-formed names -/

/-- The label whose length byte is at `p`: the bytes after it. -/
def labelAt (buf : List UInt8) (p : ℕ) : List UInt8 :=
  List.ofFn fun k : Fin (buf.getD p 0).toNat => buf.getD (p + 1 + k) 0

/-- The offset a compression pointer at `p` holds. -/
def pointerTarget (buf : List UInt8) (p : ℕ) : ℕ :=
  (getMdnsQueryOffset (buf.getD p 0 &&& ~~~compressionFlag) (buf.getD (p + 1) 0)).toNat

/-- What a label contributes to a decoded name: its bytes and a dot. -/
def labelText (label : List UInt8) : String := cString label ++ "."

/-- A decoded name: the labels with a dot after each, `NULL` when there is none. -/
def nameText (labels : List (List UInt8)) : Option String :=
  if labels = [] then none else some (String.join (labels.map labelText))

/-- A well-formed name at offset `p` of the `len` bytes of `buf`, with its labels, the
labels of the names its pointers lead to included, and the offset `stop` where its decoding
stops: its terminating zero, or the second byte of its pointer.  `depth` counts the pointers
followed; a pointer chain that leads back to itself has no derivation. -/
inductive NameAt (buf : List UInt8) (len : ℕ) : ℕ → ℕ → List (List UInt8) → ℕ → Prop
  /-- The zero byte that ends the name. -/
  | terminator {depth p : ℕ} (inside : p < len) (zero : buf.getD p 0 = 0) :
      NameAt buf len depth p [] p
  /-- A length byte `L` with `1 ≤ L < 0xC0`, then `L` bytes that are not NUL. -/
  | label {depth p stop : ℕ} {labels : List (List UInt8)} (pos : 0 < (buf.getD p 0).toNat)
      (short : buf.getD p 0 < 0xC0) (inside : p + (buf.getD p 0).toNat < len)
      (noNul : ∀ k < (buf.getD p 0).toNat, buf.getD (p + 1 + k) 0 ≠ 0)
      (rest : NameAt buf len depth (p + (buf.getD p 0).toNat + 1) labels stop) :
      NameAt buf len depth p (labelAt buf p :: labels) stop
  /-- The two bytes `0xC0 | hi`, `lo` of a pointer to a well-formed name. -/
  | pointer {depth p stop : ℕ} {labels : List (List UInt8)} (flag : 0xC0 ≤ buf.getD p 0)
      (inside : p + 1 < len) (target : NameAt buf len depth (pointerTarget buf p) labels stop) :
      NameAt buf len (depth + 1) p labels (p + 1)

/-- Where the decoding of a well-formed name stops: at a zero byte, or just after the first
byte of a pointer. -/
theorem NameAt.stop_spec {buf : List UInt8} {len depth p stop : ℕ} {labels : List (List UInt8)}
    (h : NameAt buf len depth p labels stop) :
    (stop < len ∧ buf.getD stop 0 = 0) ∨ (0 < stop ∧ stop < len ∧ 0xC0 ≤ buf.getD (stop - 1) 0) := by
  induction h with
  | terminator inside zero => exact .inl ⟨inside, zero⟩
  | label _ _ _ _ _ ih => exact ih
  | pointer flag inside _ _ => exact .inr ⟨by omega, inside, flag⟩

/-- Both top bits set is a byte of at least `0xC0`. -/
theorem isPointer_iff (b : UInt8) : isPointer b ↔ 0xC0 ≤ b := by
  obtain ⟨⟨x⟩⟩ := b
  revert x
  decide +kernel

/-! ## Decoding well-formed names -/

/-- `strncpy` of `n` bytes that are not NUL copies all of them. -/
theorem strncpyRead_of_ne_zero (buf : List UInt8) (len n src : ℕ) (h : src + n ≤ len)
    (hnul : ∀ k < n, buf.getD (src + k) 0 ≠ 0) :
    strncpyRead buf len n src = .ok (List.ofFn fun k : Fin n => buf.getD (src + k) 0) := by
  induction n generalizing src with
  | zero => rfl
  | succ n ih =>
      have hhead : buf.getD src 0 ≠ 0 := by simpa using hnul 0 (by omega)
      have htail := ih (src + 1) (by omega) fun k hk => by
        rw [Nat.add_right_comm, Nat.add_assoc]
        exact hnul (k + 1) (by omega)
      rw [strncpyRead, readByte_of_lt (by omega), ok_bind, if_neg hhead, htail, ok_bind,
        pure_eq_ok, List.ofFn_succ]
      simp only [Fin.val_zero, Nat.add_zero, Fin.val_succ, Nat.add_assoc, Nat.add_comm 1]

/-- A label of a well-formed name is copied whole, with its dot. -/
theorem copyMdnsQueryName_of_label (buf : List UInt8) (len p : ℕ) (hpos : 0 < (buf.getD p 0).toNat)
    (hin : p + (buf.getD p 0).toNat < len)
    (hnul : ∀ k < (buf.getD p 0).toNat, buf.getD (p + 1 + k) 0 ≠ 0) :
    copyMdnsQueryName buf len p = .ok (some (labelText (labelAt buf p))) := by
  have hne : buf.getD p 0 ≠ 0 := fun h0 => by rw [h0] at hpos; exact absurd hpos (by decide)
  rw [copyMdnsQueryName, readByte_of_lt (by omega), ok_bind, if_neg hne,
    strncpyRead_of_ne_zero buf len _ (p + 1) (by omega) hnul, ok_bind, pure_eq_ok]
  simp only [List.length_ofFn, if_true, labelText, labelAt]

/-- Pushing onto the unbounded queue of `decode_mdns_query_name` appends. -/
theorem pushName_unbounded (strs : List String) (qname : Option String) :
    pushName ⟨-1, strs⟩ qname = ⟨-1, strs ++ qname.toList⟩ := by
  cases qname with
  | none => simp [pushName]
  | some str =>
      rw [pushName, pushStringQueue, if_neg fun h => absurd h.2 (by simp)]
      rfl

theorem joinSelected_cons (str : String) (l : List String) :
    joinSelected (str :: l) = some (str ++ (joinSelected l).getD "") := by
  cases l with
  | nil => simp [joinSelected]
  | cons s l => simp [joinSelected, String.join_cons]

theorem joinSelected_toList (qname : Option String) : joinSelected qname.toList = qname := by
  cases qname with
  | none => rfl
  | some str => simp [joinSelected]

theorem nameText_cons (label : List UInt8) (labels : List (List UInt8)) :
    nameText (label :: labels) = some (labelText label ++ (nameText labels).getD "") := by
  cases labels with
  | nil => simp [nameText]
  | cons l labels => simp [nameText, String.join_cons]

/-- Joining the unbounded queue is `joinSelected` of its strings. -/
theorem concatStringQueue_unbounded (strs : List String) :
    concatStringQueue ⟨-1, strs⟩ (-1) = joinSelected strs := by
  rw [concatStringQueue, concatStringQueueLoop_eq (-1) le_rfl, if_pos (by decide), appendAll_none]
  rfl

/-- The label loop over a well-formed name, when every name of smaller depth decodes through
`decodePtr`: it stops where the name says and queues strings that join to the name. -/
theorem decodeNameLoop_of_nameAt {buf : List UInt8} {len depth p stop : ℕ}
    {labels : List (List UInt8)} (h : NameAt buf len depth p labels stop)
    (decodePtr : ℕ → Except Fault (Option String))
    (hptr : ∀ d q labels' stop', d < depth → NameAt buf len d q labels' stop' →
      decodePtr q = .ok (nameText labels'))
    (strs : List String) :
    ∃ segs, decodeNameLoop decodePtr buf len p ⟨-1, strs⟩ = .ok (stop, ⟨-1, strs ++ segs⟩) ∧
      joinSelected segs = nameText labels := by
  induction h generalizing strs with
  | terminator inside zero =>
      refine ⟨[], ?_, rfl⟩
      rw [decodeNameLoop, if_pos inside, readByte_of_lt inside]
      simp only [zero, if_true, List.append_nil]
  | @label depth p stop labels hpos hshort hin hnul _ ih =>
      -- the label is copied, then the loop goes on after it
      have hne : buf.getD p 0 ≠ 0 := fun h0 => by rw [h0] at hpos; exact absurd hpos (by decide)
      have hnotPtr : ¬ isPointer (buf.getD p 0) := by
        rw [isPointer_iff]
        exact UInt8.not_le.2 hshort
      obtain ⟨segs, hloop, hjoin⟩ := ih hptr (strs ++ [labelText (labelAt buf p)])
      refine ⟨labelText (labelAt buf p) :: segs, ?_, ?_⟩
      · rw [decodeNameLoop, if_pos (by omega), readByte_of_lt (by omega)]
        simp only [if_neg hne, if_neg hnotPtr, copyMdnsQueryName_of_label buf len p hpos hin hnul,
          ok_bind, pushName_unbounded, Option.toList_some, hloop, List.append_assoc,
          List.singleton_append]
      · rw [joinSelected_cons, hjoin, nameText_cons]
  | @pointer depth p stop labels hflag hin htarget _ =>
      -- the pointer's name is decoded by `decodePtr`, and the loop stops on its second byte
      have hne : buf.getD p 0 ≠ 0 := fun h0 => by rw [h0] at hflag; exact absurd hflag (by decide)
      have hisPtr : isPointer (buf.getD p 0) := (isPointer_iff _).2 hflag
      refine ⟨(nameText labels).toList, ?_, joinSelected_toList _⟩
      have hdec := hptr depth (pointerTarget buf p) labels stop (Nat.lt_succ_self _) htarget
      rw [decodeNameLoop, if_pos (by omega), readByte_of_lt (by omega)]
      simp only [if_neg hne, if_pos hisPtr, readByte_of_lt hin, ok_bind]
      rw [show (getMdnsQueryOffset (buf.getD p 0 &&& ~~~compressionFlag) (buf.getD (p + 1) 0)).toNat =
          pointerTarget buf p from rfl, hdec, ok_bind, pure_eq_ok, pushName_unbounded]

/-- `decode_mdns_query_name` on a well-formed name, with more nested calls allowed than
the name has pointers: the name's labels with their dots, and the offset of its end. -/
theorem decodeMdnsQueryName_of_nameAt {buf : List UInt8} {len depth p stop : ℕ}
    {labels : List (List UInt8)} (h : NameAt buf len depth p labels stop) (fuel : ℕ)
    (hfuel : depth < fuel) :
    decodeMdnsQueryName fuel buf len p = .ok (stop, nameText labels) := by
  -- induction on the fuel: a pointer's name has a smaller depth, decoded with one call less
  induction fuel generalizing depth p stop labels with
  | zero => omega
  | succ fuel ih =>
      have hptr : ∀ d q labels' stop', d < depth → NameAt buf len d q labels' stop' →
          (do let r ← decodeMdnsQueryName fuel buf len q; pure r.2) =
            (Except.ok (nameText labels') : Except Fault (Option String)) := by
        intro d q labels' stop' hd hq
        rw [ih hq (by omega), ok_bind, pure_eq_ok]
      obtain ⟨segs, hloop, hjoin⟩ := decodeNameLoop_of_nameAt h _ hptr []
      rw [decodeMdnsQueryName, initStringQueue, hloop, ok_bind, pure_eq_ok, List.nil_append,
        concatStringQueue_unbounded, hjoin]

/-! ## Well-formed questions -/

/-- The entry `decode_mdns_queries` keeps for a question whose name is `qname` and whose
meta starts at `metaOff`: none for a name without labels. -/
def questionEntry (buf : List UInt8) (metaOff : ℕ) (qname : Option String) :
    List MdnsQueryEntry :=
  (qname.map fun qname =>
    ⟨UInt16.ofNat ((buf.getD metaOff 0).toNat * 256 + (buf.getD (metaOff + 1) 0).toNat),
      qname⟩).toList

/-- `n` well-formed questions from offset `p`, each a name of at most `depth` pointers that
fits in `qname` and a four-byte `struct mdns_query_meta`, ending at `q`, with the entries they
give. -/
inductive QuestionsAt (buf : List UInt8) (len depth : ℕ) :
    ℕ → ℕ → List MdnsQueryEntry → ℕ → Prop
  /-- No question left. -/
  | nil (p : ℕ) : QuestionsAt buf len depth 0 p [] p
  /-- A name, its meta, then the other questions. -/
  | cons {d n p stop q : ℕ} {labels : List (List UInt8)} {entries : List MdnsQueryEntry}
      (name : NameAt buf len d p labels stop) (shallow : d ≤ depth)
      (fits : ((nameText labels).getD "").length < maxWebPathLen)
      (metaInside : stop + mdnsQueryMetaSize < len)
      (rest : QuestionsAt buf len depth n (stop + 1 + mdnsQueryMetaSize) entries q) :
      QuestionsAt buf len depth (n + 1) p
        (questionEntry buf (stop + 1) (nameText labels) ++ entries) q

/-- The loop of `decode_mdns_queries` over well-formed questions: every question takes its
name, the byte after the name's end and the four bytes of its meta, and its name is copied
whole. -/
theorem decodeMdnsQueriesLoop_of_questionsAt {buf : List UInt8} {len depth n p q : ℕ}
    {entries : List MdnsQueryEntry} (h : QuestionsAt buf len depth n p entries q) (fuel : ℕ)
    (hfuel : depth < fuel) (acc : List MdnsQueryEntry) :
    decodeMdnsQueriesLoop fuel buf len n p acc = .ok (q, acc ++ entries) := by
  induction h generalizing acc with
  | nil => simp [decodeMdnsQueriesLoop]
  | @cons d n p stop q labels entries hname hd hfits hmeta _ ih =>
      have hdec := decodeMdnsQueryName_of_nameAt hname fuel (by omega)
      unfold mdnsQueryMetaSize at hmeta
      rw [decodeMdnsQueriesLoop, hdec, ok_bind]
      dsimp only
      cases hqname : nameText labels with
      | none => simp [questionEntry, ih]
      | some qname =>
          -- a name with labels: its type is read from the meta, the name fits in `qname`,
          -- and the entry is kept
          rw [hqname, Option.getD_some] at hfits
          dsimp only
          rw [readBe16_of_lt (by omega), ok_bind, strcpyInto_of_lt hfits, ok_bind, ih]
          simp [questionEntry]

/-- A first question that is well formed but whose name has `MAX_WEB_PATH_LEN` characters or
more: `strcpy` writes past `qname`. -/
theorem decodeMdnsQueries_of_long_name {buf : List UInt8} {len depth first stop : ℕ}
    {labels : List (List UInt8)} (h : NameAt buf len depth first labels stop)
    (hlong : maxWebPathLen ≤ ((nameText labels).getD "").length)
    (hmeta : stop + mdnsQueryMetaSize < len) {nqueries : UInt16} (hq : 0 < nqueries.toNat)
    (fuel : ℕ) (hfuel : depth < fuel) :
    decodeMdnsQueries fuel buf len first nqueries =
      .error (.overflow (((nameText labels).getD "").length + 1)) := by
  obtain ⟨n, hn⟩ : ∃ n, nqueries.toNat = n + 1 := ⟨nqueries.toNat - 1, by omega⟩
  -- a name of that length has labels, so it is not `NULL`
  obtain ⟨qname, hqname⟩ : ∃ qname, nameText labels = some qname := by
    cases hname : nameText labels with
    | none => rw [hname, Option.getD_none] at hlong; exact absurd hlong (by decide)
    | some qname => exact ⟨qname, rfl⟩
  rw [hqname, Option.getD_some] at hlong ⊢
  unfold mdnsQueryMetaSize at hmeta
  rw [decodeMdnsQueries, hn, decodeMdnsQueriesLoop, decodeMdnsQueryName_of_nameAt h fuel hfuel,
    ok_bind]
  dsimp only
  rw [hqname]
  dsimp only
  rw [readBe16_of_lt (by omega), ok_bind, strcpyInto_of_le hlong, error_bind]

/-! ## A name longer than `qname` -/

/-- A label whose length byte is `L` and whose bytes are all `c`. -/
theorem labelAt_eq_replicate {buf : List UInt8} {p L : ℕ} {c : UInt8}
    (hlen : (buf.getD p 0).toNat = L) (hc : ∀ k < L, buf.getD (p + 1 + k) 0 = c) :
    labelAt buf p = List.replicate L c := by
  apply List.ext_getElem
  · rw [labelAt, List.length_ofFn, List.length_replicate, hlen]
  · intro k hk _
    rw [labelAt, List.length_ofFn, hlen] at hk
    simp only [labelAt, List.getElem_ofFn, List.getElem_replicate]
    exact hc k hk

/-- The length of a decoded name: each label's bytes and its dot. -/
theorem length_nameText (labels : List (List UInt8)) :
    ((nameText labels).getD "").length = (labels.map fun l => l.length + 1).sum := by
  have hdot : ".".length = 1 := by decide
  unfold nameText
  split_ifs with h
  · simp [h]
  · simp [String.length_join, labelText, cString, Function.comp_def, hdot]

/-- Byte `i` of `longNamePacket`: eleven labels of `191` bytes `a` from offset `0`, the zero
that ends the name at `2112`, then the meta of an `A` question of class `1`. -/
def longNameByte (i : ℕ) : UInt8 :=
  if i < 2112 then (if i % 192 = 0 then 191 else 0x61)
  else if i = 2114 ∨ i = 2116 then 1 else 0

/-- A question whose name is eleven labels of `191` bytes `a`. -/
def longNamePacket : List UInt8 := List.ofFn fun i : Fin 2117 => longNameByte i

theorem longNamePacket_getD {i : ℕ} (h : i < 2117) :
    longNamePacket.getD i 0 = longNameByte i := by
  have hlen : i < longNamePacket.length := by rw [longNamePacket, List.length_ofFn]; exact h
  rw [List.getD_eq_getElem _ _ hlen]
  simp only [longNamePacket, List.getElem_ofFn]

/-- The labels of `longNamePacket` from the one at offset `192 * (11 - m)` on: a well-formed
name without pointers, ended by the zero at `2112`.  The induction adds one label in front. -/
theorem longNamePacket_nameAt (m : ℕ) (hm : m ≤ 11) :
    NameAt longNamePacket 2117 0 (192 * (11 - m)) (List.replicate m (List.replicate 191 0x61))
      2112 := by
  induction m with
  | zero =>
      refine .terminator (by decide) ?_
      rw [longNamePacket_getD (by decide)]
      decide
  | succ m ih =>
      generalize hp : 192 * (11 - (m + 1)) = p
      have h191 : (191 : UInt8).toNat = 191 := rfl
      have hlenByte : longNamePacket.getD p 0 = 191 := by
        rw [longNamePacket_getD (by omega), longNameByte, if_pos (by omega), if_pos (by omega)]
      have hbody : ∀ k < 191, longNamePacket.getD (p + 1 + k) 0 = 0x61 := by
        intro k hk
        rw [longNamePacket_getD (by omega), longNameByte, if_pos (by omega), if_neg (by omega)]
      have hlab : labelAt longNamePacket p = List.replicate 191 0x61 :=
        labelAt_eq_replicate (by rw [hlenByte, h191]) hbody
      have hrest : NameAt longNamePacket 2117 0 (p + (longNamePacket.getD p 0).toNat + 1)
          (List.replicate m (List.replicate 191 0x61)) 2112 := by
        rw [hlenByte, h191, show p + 191 + 1 = 192 * (11 - m) by omega]
        exact ih (by omega)
      have hname : NameAt longNamePacket 2117 0 p
          (labelAt longNamePacket p :: List.replicate m (List.replicate 191 0x61)) 2112 := by
        refine .label ?_ ?_ ?_ ?_ hrest
        · rw [hlenByte]; decide
        · rw [hlenByte]; decide
        · rw [hlenByte, h191]; omega
        · intro k hk
          rw [hlenByte, h191] at hk
          rw [hbody k hk]
          decide
      rwa [hlab, ← List.replicate_succ] at hname

theorem decode_mdns_names_read_and_qname_overflows :
    (∀ (buf : List UInt8) (len depth p stop : ℕ) (labels : List (List UInt8)),
      NameAt buf len depth p labels stop →
        ((stop < len ∧ buf.getD stop 0 = 0) ∨
            (0 < stop ∧ stop < len ∧ 0xC0 ≤ buf.getD (stop - 1) 0)) ∧
          ∀ fuel, depth < fuel → decodeMdnsQueryName fuel buf len p = .ok (stop, nameText labels)) ∧
    (∀ (buf : List UInt8) (len depth first q : ℕ) (nqueries : UInt16)
        (entries : List MdnsQueryEntry),
        QuestionsAt buf len depth nqueries.toNat first entries q →
          ∀ fuel, depth < fuel → decodeMdnsQueries fuel buf len first nqueries = .ok (q, entries)) ∧
    (∀ (buf : List UInt8) (len depth first stop : ℕ) (labels : List (List UInt8))
        (nqueries : UInt16), NameAt buf len depth first labels stop →
        maxWebPathLen ≤ ((nameText labels).getD "").length → stop + mdnsQueryMetaSize < len →
        0 < nqueries.toNat → ∀ fuel, depth < fuel →
          decodeMdnsQueries fuel buf len first nqueries =
            .error (.overflow (((nameText labels).getD "").length + 1))) ∧
    decodeMdnsQueries 1 longNamePacket 2117 0 1 = .error (.overflow 2113) := by
  refine ⟨fun _ _ _ _ _ _ h => ⟨h.stop_spec, decodeMdnsQueryName_of_nameAt h⟩,
    fun _ _ _ _ _ _ _ h fuel hfuel => decodeMdnsQueriesLoop_of_questionsAt h fuel hfuel [],
    fun _ _ _ _ _ _ _ h hlong hmeta hq => decodeMdnsQueries_of_long_name h hlong hmeta hq, ?_⟩
  -- the eleven labels of `longNamePacket` are a name of `2112` characters
  have hname := longNamePacket_nameAt 11 le_rfl
  have hlen : ((nameText (List.replicate 11 (List.replicate 191 (0x61 : UInt8)))).getD "").length =
      2112 := by
    rw [length_nameText, List.map_replicate, List.sum_replicate, List.length_replicate,
      smul_eq_mul]
  have hq : 0 < (1 : UInt16).toNat := by decide
  have hfault := decodeMdnsQueries_of_long_name hname (by rw [hlen]; decide) (by decide) hq 1
    (by decide)
  rwa [hlen] at hfault

/-- The name `local` at offset `0`, then a question at offset `7`: the label `foo`, a pointer
to offset `0`, and a meta of type `1` (`A`), class `1`. -/
def fooLocalPacket : List UInt8 :=
  [5, 0x6c, 0x6f, 0x63, 0x61, 0x6c, 0, 3, 0x66, 0x6f, 0x6f, 0xC0, 0x00, 0, 1, 0, 1]

example : decodeMdnsQueries 2 fooLocalPacket 17 7 1 = .ok (17, [⟨1, "foo.local."⟩]) := by
  decide +kernel

end Mdns

end EdgeSec
