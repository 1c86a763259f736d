import EdgeSec.Lib.Bytes
import EdgeSec.Lib.Loop

/-!
# `edgesec-recap`: framing a pcap stream

`edgesec-recap` (`src/edgesec-recap.c`) reads a pcap file, or a pcap stream on standard
input, and hands every captured packet to `save_raw_packet`, which decodes it and stores it.
The reading is a state machine over `struct recap_context`: `process_file_stream` calls
`process_file_stream_state` until it stops, and each call handles one state of
`enum PCAP_FILE_STATE`.  The three reading states accumulate bytes in `pcap_data` until the
file header (24 bytes), a record header (16 bytes) or the record's `caplen` bytes are there,
asking `fread` each time only for what is missing; a read that returns nothing ends the
stream (`PCAP_FILE_STATE_FIN`).

`fread` may return fewer bytes than asked for.  How the stream is cut into reads is the
environment's `cuts`: the `i`-th read returns at most `cuts i + 1` bytes, and at least one
while bytes remain and some are asked for; every way of cutting the stream is some `cuts`.
What `save_raw_packet` does with a packet (`extract_packets`, then the SQLite or pipe
writer) is outside this file; `saveOk` is its outcome, and `saved` records its calls.
`os_malloc` and `os_realloc` are taken to succeed (`malloc(0)` returns a pointer, as glibc's
does).

## Main results

* `accumulate_fills`, `accumulate_eof`: the reading pattern the three states share gathers
  exactly the missing bytes, however the reads are cut, or reaches the end state.
* `recap_saves_every_record`: on a pcap file header with the pcap magic followed by
  well-formed records and a truncated tail, the machine stops in `PCAP_FILE_STATE_FIN` for
  every large enough fuel, having called `save_raw_packet` once per record, in order, with the
  record's header and data.
* `processFileStream_of_failed_step`: a step that fails still ends the loop with the result
  `0`, since `ret` holds the comparison with `0` and not the step's `-1`; `badMagic_phase`: a
  file header without the pcap magic, a pcapng file's for one, makes such a step happen in
  `PCAP_FILE_STATE_READ_PCAP_HEADER`, however the reads are cut.
-/

namespace EdgeSec

namespace Recap

open Bytes Loop

/-- `PCAP_MAGIC_VALUE`. -/
def pcapMagicValue : UInt32 := 0xa1b2c3d4

/-- `sizeof(struct pcap_file_header)`. -/
def pcapFileHeaderSize : ℕ := 24

/-- `sizeof(struct pcap_pkthdr32)`. -/
def pcapPkthdr32Size : ℕ := 16

/-- `enum PCAP_FILE_STATE`. -/
inductive PcapFileState
  | init
  | readPcapHeader
  | readPktHeader
  | readPacket
  | fin
  deriving Repr, DecidableEq

/-- The fields of `struct pcap_file_header` that are read: the magic, and the link type
`save_raw_packet` names. -/
structure PcapFileHeader where
  magic : UInt32
  linktype : UInt32
  deriving Repr, DecidableEq

/-- `struct pcap_pkthdr32`. -/
structure PcapPkthdr32 where
  tsSec : UInt32
  tsUsec : UInt32
  caplen : UInt32
  len : UInt32
  deriving Repr, DecidableEq

/-- A record as `save_raw_packet` passes it on: its header and its captured bytes. -/
structure PcapRecord where
  header : PcapPkthdr32
  data : List UInt8
  deriving Repr, DecidableEq

/-- The stream behind `pctx->pcap_fd`: the bytes not read yet, and how many reads were
made. -/
structure PcapStream where
  rest : List UInt8
  reads : ℕ
  deriving Repr, DecidableEq

/-- The fields of `struct recap_context` that the reading uses; `pcapData` holds the first
`data_size` bytes of `pcap_data`, so `data_size` is its length. -/
structure RecapContext where
  pcapFd : PcapStream
  pcapData : List UInt8
  totalSize : ℕ
  state : PcapFileState
  pcapHeader : PcapFileHeader
  pktHeader : PcapPkthdr32
  saved : List PcapRecord
  deriving Repr

/-- How `fread` cuts the stream, and what `save_raw_packet` returns. -/
structure RecapEnv where
  cuts : ℕ → ℕ
  saveOk : PcapRecord → Bool

/-- The context `main` starts from, on the bytes of `stream`. -/
def recapStart (stream : List UInt8) : RecapContext where
  pcapFd := ⟨stream, 0⟩
  pcapData := []
  totalSize := 0
  state := .init
  pcapHeader := ⟨0, 0⟩
  pktHeader := ⟨0, 0, 0, 0⟩
  saved := []

/-! ## The reading states -/

/-- `memcpy(&pctx->pcap_header, pctx->pcap_data, ...)`. -/
def parseFileHeader (bs : List UInt8) : PcapFileHeader :=
  ⟨readLe32 bs 0, readLe32 bs 20⟩

/-- `memcpy(&pctx->pkt_header, pctx->pcap_data, ...)`. -/
def parsePkthdr (bs : List UInt8) : PcapPkthdr32 :=
  ⟨readLe32 bs 0, readLe32 bs 4, readLe32 bs 8, readLe32 bs 12⟩

/-- How many bytes `fread` of `len` bytes returns: at most `len`, at most what is left, and
at most the cut of this read. -/
def freadCount (env : RecapEnv) (fd : PcapStream) (len : ℕ) : ℕ :=
  min len (min fd.rest.length (env.cuts fd.reads + 1))

/-- `read_pcap_stream_fd`: `fread` of up to `len` bytes. -/
def readPcapStreamFd (env : RecapEnv) (fd : PcapStream) (len : ℕ) : List UInt8 × PcapStream :=
  let n := freadCount env fd len
  (fd.rest.take n, ⟨fd.rest.drop n, fd.reads + 1⟩)

/-- `read_pcap`: read up to `len` bytes and append them to `pcap_data`; returns the number
read. -/
def readPcap (env : RecapEnv) (pctx : RecapContext) (len : ℕ) : ℕ × RecapContext :=
  let r := readPcapStreamFd env pctx.pcapFd len
  (r.1.length,
    { pctx with
      pcapFd := r.2
      totalSize := pctx.totalSize + r.1.length
      pcapData := pctx.pcapData ++ r.1 })

/-- The pattern of the three reading states: ask for the `size - data_size` bytes that are
missing; when `size` bytes are there, `complete`; when the read returned nothing, go to
`PCAP_FILE_STATE_FIN`. -/
def accumulate (env : RecapEnv) (size : ℕ) (complete : RecapContext → Int × RecapContext)
    (pctx : RecapContext) : Int × RecapContext :=
  let r := readPcap env pctx (size - pctx.pcapData.length)
  if size ≤ r.2.pcapData.length then complete r.2
  else if r.1 = 0 then (0, { r.2 with state := .fin })
  else (0, r.2)

/-- The end of `process_file_header_state`: take the header, reset `data_size`, check the
magic. -/
def completeFileHeader (pctx : RecapContext) : Int × RecapContext :=
  let pctx := { pctx with pcapHeader := parseFileHeader pctx.pcapData, pcapData := [] }
  if pctx.pcapHeader.magic ≠ pcapMagicValue then (-1, pctx)
  else (0, { pctx with state := .readPktHeader })

/-- `process_file_header_state`. -/
def processFileHeaderState (env : RecapEnv) (pctx : RecapContext) : Int × RecapContext :=
  accumulate env pcapFileHeaderSize completeFileHeader pctx

/-- The end of `process_pkt_header_state`: take the header, refuse `caplen > len`. -/
def completePktHeader (pctx : RecapContext) : Int × RecapContext :=
  let pctx := { pctx with pktHeader := parsePkthdr pctx.pcapData }
  if pctx.pktHeader.caplen > pctx.pktHeader.len then (-1, pctx)
  else (0, { pctx with pcapData := [], state := .readPacket })

/-- `process_pkt_header_state`. -/
def processPktHeaderState (env : RecapEnv) (pctx : RecapContext) : Int × RecapContext :=
  accumulate env pcapPkthdr32Size completePktHeader pctx

/-- `save_raw_packet`: pass on the header and the first `caplen` bytes of `pcap_data`. -/
def saveRawPacket (env : RecapEnv) (pctx : RecapContext) : Int × RecapContext :=
  let p : PcapRecord := ⟨pctx.pktHeader, pctx.pcapData.take pctx.pktHeader.caplen.toNat⟩
  let pctx := { pctx with saved := pctx.saved ++ [p] }
  if env.saveOk p then (0, pctx) else (-1, pctx)

/-- The end of `process_pkt_read_state`: save the packet, reset `data_size`. -/
def completePktRead (env : RecapEnv) (pctx : RecapContext) : Int × RecapContext :=
  let r := saveRawPacket env pctx
  if r.1 < 0 then (-1, r.2)
  else (0, { r.2 with pcapData := [], state := .readPktHeader })

/-- `process_pkt_read_state`. -/
def processPktReadState (env : RecapEnv) (pctx : RecapContext) : Int × RecapContext :=
  accumulate env pctx.pktHeader.caplen.toNat (completePktRead env) pctx

/-- `process_file_stream_state`: `1` to go on, `0` at the end, `-1` on an error. -/
def processFileStreamState (env : RecapEnv) (pctx : RecapContext) : Int × RecapContext :=
  match pctx.state with
  | .init => (1, { pctx with pcapData := [], totalSize := 0, state := .readPcapHeader })
  | .readPcapHeader =>
      let r := processFileHeaderState env pctx
      (if r.1 < 0 then -1 else 1, r.2)
  | .readPktHeader =>
      let r := processPktHeaderState env pctx
      (if r.1 < 0 then -1 else 1, r.2)
  | .readPacket =>
      let r := processPktReadState env pctx
      (if r.1 < 0 then -1 else 1, r.2)
  | .fin => (0, pctx)

/-- One iteration of the loop of `process_file_stream`,
`while ((ret = process_file_stream_state(pctx) > 0))`: the comparison binds tighter than the
assignment, so `ret` is `1` or `0`. -/
def fileStreamIter (env : RecapEnv) (pctx : RecapContext) : Bool × RecapContext :=
  let r := processFileStreamState env pctx
  (decide (0 < r.1), r.2)

/-- `process_file_stream`, with at most `fuel` iterations of its loop.  When the loop stops
`ret` is `0`, so the `ret < 0` test after it never holds and the result is `0`. -/
def processFileStream (fuel : ℕ) (env : RecapEnv) (pctx : RecapContext) :
    Option (Int × RecapContext) :=
  (loop (fileStreamIter env) fuel pctx).map fun pctx => (0, pctx)

/-! ## Well-formed pcap streams -/

/-- The 16 bytes of a record header, as a little-endian host writes them. -/
def PcapPkthdr32.encode (h : PcapPkthdr32) : List UInt8 :=
  encodeLe32 h.tsSec ++ encodeLe32 h.tsUsec ++ encodeLe32 h.caplen ++ encodeLe32 h.len

/-- A record on the wire: its header, then its captured bytes. -/
def PcapRecord.encode (r : PcapRecord) : List UInt8 := r.header.encode ++ r.data

/-- A record holds `caplen` bytes, and `caplen` is at most the length on the wire. -/
def PcapRecord.WellFormed (r : PcapRecord) : Prop :=
  r.data.length = r.header.caplen.toNat ∧ r.header.caplen ≤ r.header.len

instance (r : PcapRecord) : Decidable r.WellFormed :=
  inferInstanceAs (Decidable (_ ∧ _))

@[simp] theorem PcapPkthdr32.length_encode (h : PcapPkthdr32) :
    h.encode.length = pcapPkthdr32Size := rfl

/-- The header parsed from its own bytes is the header. -/
theorem parsePkthdr_encode_append (h : PcapPkthdr32) (rest : List UInt8) :
    parsePkthdr (h.encode ++ rest) = h := by
  simp only [parsePkthdr, PcapPkthdr32.encode, List.append_assoc]
  rw [readLe32_encodeLe32_append, readLe32_append_of_length (length_encodeLe32 _),
    readLe32_encodeLe32_append, ← List.append_assoc,
    readLe32_append_of_length (by simp : (encodeLe32 h.tsSec ++ encodeLe32 h.tsUsec).length = 8),
    readLe32_encodeLe32_append, ← List.append_assoc,
    readLe32_append_of_length (by simp : (encodeLe32 h.tsSec ++ encodeLe32 h.tsUsec ++
      encodeLe32 h.caplen).length = 12),
    readLe32_encodeLe32_append]

/-! ## One read -/

theorem freadCount_le (env : RecapEnv) (fd : PcapStream) (len : ℕ) :
    freadCount env fd len ≤ len ∧ freadCount env fd len ≤ fd.rest.length := by
  unfold freadCount
  omega

theorem readPcap_eq (env : RecapEnv) (pctx : RecapContext) (len : ℕ) :
    readPcap env pctx len =
      (freadCount env pctx.pcapFd len,
        { pctx with
          pcapFd := ⟨pctx.pcapFd.rest.drop (freadCount env pctx.pcapFd len), pctx.pcapFd.reads + 1⟩
          totalSize := pctx.totalSize + freadCount env pctx.pcapFd len
          pcapData := pctx.pcapData ++ pctx.pcapFd.rest.take (freadCount env pctx.pcapFd len) }) := by
  have hlen : (pctx.pcapFd.rest.take (freadCount env pctx.pcapFd len)).length =
      freadCount env pctx.pcapFd len :=
    List.length_take_of_le (freadCount_le env pctx.pcapFd len).2
  simp only [readPcap, readPcapStreamFd, hlen]

/-- A read that asks for something while bytes remain returns something. -/
theorem freadCount_pos (env : RecapEnv) (fd : PcapStream) {len : ℕ} (hlen : 0 < len)
    (hrest : fd.rest ≠ []) : 0 < freadCount env fd len := by
  have := List.length_pos_iff.2 hrest
  unfold freadCount
  omega

/-! ## The reading pattern -/

/-- One iteration of the loop in a state that reads `size` bytes and then `complete`s. -/
def accIter (env : RecapEnv) (size : ℕ) (complete : RecapContext → Int × RecapContext)
    (pctx : RecapContext) : Bool × RecapContext :=
  let r := accumulate env size complete pctx
  (!decide (r.1 < 0), r.2)

theorem iter_ite_neg (x : Int) : decide (0 < if x < 0 then (-1 : Int) else 1) = !decide (x < 0) := by
  by_cases hx : x < 0 <;> simp [hx]

theorem fileStreamIter_readPcapHeader (env : RecapEnv) {pctx : RecapContext}
    (h : pctx.state = .readPcapHeader) :
    fileStreamIter env pctx = accIter env pcapFileHeaderSize completeFileHeader pctx := by
  simp only [fileStreamIter, processFileStreamState, h, iter_ite_neg]
  rfl

theorem fileStreamIter_readPktHeader (env : RecapEnv) {pctx : RecapContext}
    (h : pctx.state = .readPktHeader) :
    fileStreamIter env pctx = accIter env pcapPkthdr32Size completePktHeader pctx := by
  simp only [fileStreamIter, processFileStreamState, h, iter_ite_neg]
  rfl

theorem fileStreamIter_readPacket (env : RecapEnv) {pctx : RecapContext}
    (h : pctx.state = .readPacket) :
    fileStreamIter env pctx =
      accIter env pctx.pktHeader.caplen.toNat (completePktRead env) pctx := by
  simp only [fileStreamIter, processFileStreamState, h, iter_ite_neg]
  rfl

theorem fileStreamIter_fin (env : RecapEnv) {pctx : RecapContext} (h : pctx.state = .fin) :
    fileStreamIter env pctx = (false, pctx) := by
  simp [fileStreamIter, processFileStreamState, h]

section Accumulate

variable (env : RecapEnv) (size : ℕ) (complete : RecapContext → Int × RecapContext)

/-- The states whose iterations follow the reading pattern for `size` and `complete`, from
`pctx` on: the state and the record header a read leaves as they are. -/
def Reads (pctx : RecapContext) : Prop :=
  ∀ c, c.state = pctx.state → c.pktHeader = pctx.pktHeader →
    fileStreamIter env c = accIter env size complete c

/-- However the reads are cut, the reading pattern gathers the bytes `xs` that are missing:
it reaches, in the same state, an iteration whose read brings the last of them, with the
stream left at `ys`, and which hands all of them to `complete`. -/
theorem accumulate_completes (pctx : RecapContext) (hreads : Reads env size complete pctx)
    (xs ys : List UInt8) (hrest : pctx.pcapFd.rest = xs ++ ys)
    (hlen : pctx.pcapData.length + xs.length = size) :
    ∃ n reads t c, Iterates (fileStreamIter env) n pctx c ∧ c.state = pctx.state ∧
      c.pktHeader = pctx.pktHeader ∧
      accumulate env size complete c = complete
        { pctx with pcapFd := ⟨ys, reads⟩, totalSize := t, pcapData := pctx.pcapData ++ xs } := by
  -- induction on the number of bytes still missing
  induction hn : xs.length using Nat.strong_induction_on generalizing pctx xs with
  | _ k ih =>
  subst hn
  have hask : size - pctx.pcapData.length = xs.length := by omega
  obtain ⟨hm_len, hm_rest⟩ := freadCount_le env pctx.pcapFd xs.length
  set m := freadCount env pctx.pcapFd xs.length with hm
  have htake : pctx.pcapFd.rest.take m = xs.take m := by
    rw [hrest, List.take_append_of_le_length hm_len]
  have hdrop : pctx.pcapFd.rest.drop m = xs.drop m ++ ys := by
    rw [hrest, List.drop_append_of_le_length hm_len]
  have hacc : accumulate env size complete pctx =
      let c := { pctx with
        pcapFd := ⟨xs.drop m ++ ys, pctx.pcapFd.reads + 1⟩
        totalSize := pctx.totalSize + m
        pcapData := pctx.pcapData ++ xs.take m }
      if size ≤ c.pcapData.length then complete c
      else if m = 0 then (0, { c with state := .fin }) else (0, c) := by
    rw [accumulate, hask, readPcap_eq, ← hm, htake, hdrop]
  by_cases hfull : m = xs.length
  · -- the read brings every missing byte: this iteration completes
    have hxs : xs.take m = xs := by rw [hfull, List.take_length]
    have hys : xs.drop m = [] := by rw [hfull, List.drop_length]
    rw [hxs, hys, List.nil_append] at hacc
    have hsize : size ≤ (pctx.pcapData ++ xs).length := by rw [List.length_append]; omega
    exact ⟨0, _, _, pctx, .refl _, rfl, rfl, by rw [hacc]; exact if_pos hsize⟩
  · -- a short read: the state stays, fewer bytes are missing
    have hlt : m < xs.length := lt_of_le_of_ne hm_len hfull
    have hpos : 0 < m := by
      have hne : xs ≠ [] := by
        intro h; simp [h] at hlt
      exact freadCount_pos env pctx.pcapFd (List.length_pos_iff.2 hne) (by rw [hrest]; simp [hne])
    have hshort : ¬ size ≤ (pctx.pcapData ++ xs.take m).length := by
      rw [List.length_append, List.length_take]; omega
    simp only [hshort, if_false, Nat.pos_iff_ne_zero.1 hpos] at hacc
    set c1 : RecapContext := { pctx with
      pcapFd := ⟨xs.drop m ++ ys, pctx.pcapFd.reads + 1⟩
      totalSize := pctx.totalSize + m
      pcapData := pctx.pcapData ++ xs.take m } with hc1
    have hstep : fileStreamIter env pctx = (true, c1) := by
      rw [hreads pctx rfl rfl, accIter]
      simp only [hacc]
      rfl
    have hjoin : c1.pcapData ++ xs.drop m = pctx.pcapData ++ xs := by
      rw [hc1, List.append_assoc, List.take_append_drop]
    obtain ⟨n, reads, t, c, hit, hstate, hheader, hcomplete⟩ := ih (xs.drop m).length
      (by rw [List.length_drop]; omega) c1 (fun c hs hh => hreads c hs hh) (xs.drop m) rfl
      (by rw [List.length_drop, hc1, List.length_append, List.length_take]; omega) rfl
    refine ⟨n + 1, reads, t, c, .step (by rw [hstep]) ?_, hstate, hheader, ?_⟩
    · rw [hstep]
      exact hit
    · rw [hcomplete, hjoin]

/-- However the reads are cut, the reading pattern gathers the bytes `xs` that are missing
and then completes, with the stream left at `ys`; `after` is what the completion leaves. -/
theorem accumulate_fills (pctx : RecapContext) (hreads : Reads env size complete pctx)
    (xs ys : List UInt8) (hrest : pctx.pcapFd.rest = xs ++ ys)
    (hlen : pctx.pcapData.length + xs.length = size) (after : PcapStream → ℕ → RecapContext)
    (hcomplete : ∀ fd t, complete
      { pctx with pcapFd := fd, totalSize := t, pcapData := pctx.pcapData ++ xs } =
        (0, after fd t)) :
    ∃ n reads t, Iterates (fileStreamIter env) n pctx (after ⟨ys, reads⟩ t) := by
  obtain ⟨n, reads, t, c, hit, hstate, hheader, hacc⟩ :=
    accumulate_completes env size complete pctx hreads xs ys hrest hlen
  -- the completing iteration goes on, since the completion returned `0`
  have hstep : fileStreamIter env c = (true, after ⟨ys, reads⟩ t) := by
    rw [hreads c hstate hheader, accIter, hacc, hcomplete]
    rfl
  have hlast := Iterates.single (show (fileStreamIter env c).1 = true by rw [hstep])
  rw [hstep] at hlast
  exact ⟨n + 1, reads, t, hit.trans hlast⟩

/-- When the stream ends before the missing bytes, the reading pattern reaches
`PCAP_FILE_STATE_FIN` without completing. -/
theorem accumulate_eof (pctx : RecapContext) (hreads : Reads env size complete pctx)
    (hlen : pctx.pcapData.length + pctx.pcapFd.rest.length < size) :
    ∃ n c, Iterates (fileStreamIter env) n pctx c ∧ c.state = .fin ∧ c.saved = pctx.saved := by
  -- induction on the bytes left in the stream
  induction hn : pctx.pcapFd.rest.length using Nat.strong_induction_on generalizing pctx with
  | _ k ih =>
  subst hn
  obtain ⟨hm_len, hm_rest⟩ := freadCount_le env pctx.pcapFd (size - pctx.pcapData.length)
  set m := freadCount env pctx.pcapFd (size - pctx.pcapData.length) with hm
  have hshort : ¬ size ≤ (pctx.pcapData ++ pctx.pcapFd.rest.take m).length := by
    rw [List.length_append, List.length_take]; omega
  set c1 : RecapContext := { pctx with
    pcapFd := ⟨pctx.pcapFd.rest.drop m, pctx.pcapFd.reads + 1⟩
    totalSize := pctx.totalSize + m
    pcapData := pctx.pcapData ++ pctx.pcapFd.rest.take m } with hc1
  have hacc : accumulate env size complete pctx =
      if m = 0 then (0, { c1 with state := .fin }) else (0, c1) := by
    rw [accumulate, readPcap_eq, ← hm]
    simp only [hshort, if_false]
    rfl
  have hiter := hreads pctx rfl rfl
  by_cases hm0 : m = 0
  · -- nothing came back: the end state
    rw [if_pos hm0] at hacc
    refine ⟨1, { c1 with state := .fin }, ?_, rfl, rfl⟩
    have hstep : fileStreamIter env pctx = (true, { c1 with state := .fin }) := by
      rw [hiter, accIter, hacc]
      rfl
    have hone := Iterates.single (show (fileStreamIter env pctx).1 = true by rw [hstep])
    rwa [hstep] at hone
  · rw [if_neg hm0] at hacc
    have hstep : fileStreamIter env pctx = (true, c1) := by
      rw [hiter, accIter, hacc]
      rfl
    obtain ⟨n, c, hit, hfin, hsaved⟩ := ih c1.pcapFd.rest.length
      (by rw [hc1, List.length_drop]; omega) c1 (fun c hs hh => hreads c hs hh)
      (by rw [hc1, List.length_append, List.length_take, List.length_drop]; omega) rfl
    refine ⟨n + 1, c, .step (by rw [hstep]) ?_, hfin, hsaved⟩
    rw [hstep]
    exact hit

end Accumulate

/-! ## The phases of a well-formed stream -/

section Phases

variable (env : RecapEnv)

theorem reads_readPcapHeader {pctx : RecapContext} (h : pctx.state = .readPcapHeader) :
    Reads env pcapFileHeaderSize completeFileHeader pctx :=
  fun _ hs _ => fileStreamIter_readPcapHeader env (hs.trans h)

theorem reads_readPktHeader {pctx : RecapContext} (h : pctx.state = .readPktHeader) :
    Reads env pcapPkthdr32Size completePktHeader pctx :=
  fun _ hs _ => fileStreamIter_readPktHeader env (hs.trans h)

theorem reads_readPacket {pctx : RecapContext} (h : pctx.state = .readPacket) :
    Reads env pctx.pktHeader.caplen.toNat (completePktRead env) pctx := by
  intro c hs hh
  rw [fileStreamIter_readPacket env (hs.trans h), hh]

theorem completeFileHeader_of {pctx : RecapContext}
    (hmagic : readLe32 pctx.pcapData 0 = pcapMagicValue) :
    completeFileHeader pctx = (0, { pctx with
      pcapHeader := parseFileHeader pctx.pcapData, pcapData := [], state := .readPktHeader }) := by
  unfold completeFileHeader
  simp only [parseFileHeader, hmagic, ne_eq, not_true_eq_false, if_false]

theorem completeFileHeader_of_ne {pctx : RecapContext}
    (hmagic : readLe32 pctx.pcapData 0 ≠ pcapMagicValue) :
    completeFileHeader pctx =
      (-1, { pctx with pcapHeader := parseFileHeader pctx.pcapData, pcapData := [] }) := by
  unfold completeFileHeader
  simp only [parseFileHeader, ne_eq, hmagic, not_false_eq_true, if_true]

theorem completePktHeader_of {pctx : RecapContext} {h : PcapPkthdr32}
    (hparse : parsePkthdr pctx.pcapData = h) (hle : h.caplen ≤ h.len) :
    completePktHeader pctx =
      (0, { pctx with pktHeader := h, pcapData := [], state := .readPacket }) := by
  unfold completePktHeader
  simp only [hparse]
  rw [if_neg (UInt32.not_lt.2 hle)]

theorem completePktRead_of {pctx : RecapContext} {r : PcapRecord}
    (hr : (⟨pctx.pktHeader, pctx.pcapData.take pctx.pktHeader.caplen.toNat⟩ : PcapRecord) = r)
    (hok : env.saveOk r = true) :
    completePktRead env pctx =
      (0, { pctx with saved := pctx.saved ++ [r], pcapData := [], state := .readPktHeader }) := by
  unfold completePktRead saveRawPacket
  simp only [hr, hok, if_true]
  rfl

/-- A well-formed record's captured bytes are all of its data. -/
theorem PcapRecord.mk_take_caplen {r : PcapRecord} (hwf : r.WellFormed) :
    (⟨r.header, r.data.take r.header.caplen.toNat⟩ : PcapRecord) = r := by
  rw [← hwf.1, List.take_length]

/-- The record header of `r` is read, then its data, and `save_raw_packet` is called with
it. -/
theorem record_phase (pctx : RecapContext) (hstate : pctx.state = .readPktHeader)
    (hdata : pctx.pcapData = []) (r : PcapRecord) (hwf : r.WellFormed)
    (hsave : env.saveOk r = true) (rest : List UInt8) (hrest : pctx.pcapFd.rest = r.encode ++ rest) :
    ∃ n c, Iterates (fileStreamIter env) n pctx c ∧ c.state = .readPktHeader ∧
      c.pcapData = [] ∧ c.pcapFd.rest = rest ∧ c.saved = pctx.saved ++ [r] := by
  have hparse : parsePkthdr (pctx.pcapData ++ r.header.encode) = r.header := by
    simpa [hdata] using parsePkthdr_encode_append r.header []
  -- the record header
  obtain ⟨n₁, reads₁, t₁, hit₁⟩ := accumulate_fills env pcapPkthdr32Size completePktHeader pctx
    (reads_readPktHeader env hstate) r.header.encode (r.data ++ rest)
    (by rw [hrest, PcapRecord.encode, List.append_assoc]) (by rw [hdata]; rfl) _
    (fun _ _ => completePktHeader_of hparse hwf.2)
  -- the record's data, then the save
  set c₁ : RecapContext := { pctx with
    pcapFd := ⟨r.data ++ rest, reads₁⟩
    totalSize := t₁
    pktHeader := r.header
    pcapData := []
    state := .readPacket } with hc₁
  have hrec : (⟨c₁.pktHeader, (c₁.pcapData ++ r.data).take c₁.pktHeader.caplen.toNat⟩ :
      PcapRecord) = r := by
    simpa [hc₁] using PcapRecord.mk_take_caplen hwf
  obtain ⟨n₂, reads₂, t₂, hit₂⟩ := accumulate_fills env c₁.pktHeader.caplen.toNat
    (completePktRead env) c₁ (reads_readPacket env rfl) r.data rest rfl (by simp [hc₁, hwf.1]) _
    (fun _ _ => completePktRead_of env hrec hsave)
  exact ⟨n₁ + n₂, _, hit₁.trans hit₂, rfl, rfl, rfl, rfl⟩

/-- A truncated last record ends the stream without a save. -/
theorem tail_phase (pctx : RecapContext) (hstate : pctx.state = .readPktHeader)
    (hdata : pctx.pcapData = []) (last : PcapRecord) (hwf : last.WellFormed) (m : ℕ)
    (hm : m < last.encode.length) (hrest : pctx.pcapFd.rest = last.encode.take m) :
    ∃ n c, Iterates (fileStreamIter env) n pctx c ∧ c.state = .fin ∧ c.saved = pctx.saved := by
  by_cases hhead : m < pcapPkthdr32Size
  · -- the stream ends inside the record header
    refine accumulate_eof env pcapPkthdr32Size completePktHeader pctx
      (reads_readPktHeader env hstate) ?_
    rw [hdata, hrest, List.length_take]
    simp only [List.length_nil, zero_add]
    omega
  · -- the header is complete, the stream ends inside the data
    have hsplit : last.encode.take m =
        last.header.encode ++ last.data.take (m - pcapPkthdr32Size) := by
      rw [PcapRecord.encode, List.take_append, PcapPkthdr32.length_encode,
        List.take_of_length_le (by rw [PcapPkthdr32.length_encode]; omega)]
    have hparse : parsePkthdr (pctx.pcapData ++ last.header.encode) = last.header := by
      simpa [hdata] using parsePkthdr_encode_append last.header []
    obtain ⟨n₁, reads₁, t₁, hit₁⟩ := accumulate_fills env pcapPkthdr32Size completePktHeader pctx
      (reads_readPktHeader env hstate) last.header.encode (last.data.take (m - pcapPkthdr32Size))
      (by rw [hrest, hsplit]) (by rw [hdata]; rfl) _
      (fun _ _ => completePktHeader_of hparse hwf.2)
    have hlen : m - pcapPkthdr32Size < last.data.length := by
      have : last.encode.length = pcapPkthdr32Size + last.data.length := by
        simp [PcapRecord.encode]
      omega
    set c₁ : RecapContext := { pctx with
      pcapFd := ⟨last.data.take (m - pcapPkthdr32Size), reads₁⟩
      totalSize := t₁
      pktHeader := last.header
      pcapData := []
      state := .readPacket } with hc₁
    obtain ⟨n₂, c, hit₂, hfin, hsaved⟩ := accumulate_eof env c₁.pktHeader.caplen.toNat
      (completePktRead env) c₁ (reads_readPacket env rfl)
      (by simp only [hc₁, List.length_nil, zero_add, List.length_take, ← hwf.1]; omega)
    exact ⟨n₁ + n₂, c, hit₁.trans hit₂, hfin, hsaved⟩

/-- The records of the stream are saved one by one, then the tail ends it. -/
theorem records_phase (records : List PcapRecord) (hrecords : ∀ r ∈ records, r.WellFormed)
    (hsave : ∀ r ∈ records, env.saveOk r = true) (last : PcapRecord) (hlast : last.WellFormed)
    (m : ℕ) (hm : m < last.encode.length) (pctx : RecapContext)
    (hstate : pctx.state = .readPktHeader) (hdata : pctx.pcapData = [])
    (hrest : pctx.pcapFd.rest = records.flatMap PcapRecord.encode ++ last.encode.take m) :
    ∃ n c, Iterates (fileStreamIter env) n pctx c ∧ c.state = .fin ∧
      c.saved = pctx.saved ++ records := by
  induction records generalizing pctx with
  | nil =>
      obtain ⟨n, c, hit, hfin, hsaved⟩ := tail_phase env pctx hstate hdata last hlast m hm
        (by simpa using hrest)
      exact ⟨n, c, hit, hfin, by simpa using hsaved⟩
  | cons r rs ih =>
      obtain ⟨n₁, c₁, hit₁, hstate₁, hdata₁, hrest₁, hsaved₁⟩ :=
        record_phase env pctx hstate hdata r (hrecords r (List.mem_cons_self ..))
          (hsave r (List.mem_cons_self ..)) _ (by rw [hrest, List.flatMap_cons, List.append_assoc])
      obtain ⟨n₂, c, hit₂, hfin, hsaved⟩ := ih (fun r hr => hrecords r (List.mem_cons_of_mem _ hr))
        (fun r hr => hsave r (List.mem_cons_of_mem _ hr)) c₁ hstate₁ hdata₁ hrest₁
      refine ⟨n₁ + n₂, c, hit₁.trans hit₂, hfin, ?_⟩
      rw [hsaved, hsaved₁, List.append_assoc, List.singleton_append]

/-- `PCAP_FILE_STATE_INIT`, then the file header. -/
theorem fileHeader_phase (fileHeader rest : List UInt8)
    (hheader : fileHeader.length = pcapFileHeaderSize)
    (hmagic : readLe32 fileHeader 0 = pcapMagicValue) :
    ∃ n c, Iterates (fileStreamIter env) n (recapStart (fileHeader ++ rest)) c ∧
      c.state = .readPktHeader ∧ c.pcapData = [] ∧ c.pcapFd.rest = rest ∧ c.saved = [] := by
  set c₀ : RecapContext := { recapStart (fileHeader ++ rest) with state := .readPcapHeader }
    with hc₀
  have hinit : fileStreamIter env (recapStart (fileHeader ++ rest)) = (true, c₀) := rfl
  have hmagic' : readLe32 (c₀.pcapData ++ fileHeader) 0 = pcapMagicValue := by
    simpa [hc₀, recapStart] using hmagic
  obtain ⟨n, reads, t, hit⟩ := accumulate_fills env pcapFileHeaderSize completeFileHeader c₀
    (reads_readPcapHeader env rfl) fileHeader rest rfl (by simp [hc₀, recapStart, hheader]) _
    (fun _ _ => completeFileHeader_of hmagic')
  have hfirst := Iterates.single
    (show (fileStreamIter env (recapStart (fileHeader ++ rest))).1 = true by rw [hinit])
  rw [hinit] at hfirst
  exact ⟨1 + n, _, hfirst.trans hit, rfl, rfl, rfl, rfl⟩

end Phases

/-! ## The whole stream -/

theorem recap_saves_every_record (env : RecapEnv) (fileHeader : List UInt8)
    (records : List PcapRecord) (last : PcapRecord) (m : ℕ)
    (hheader : fileHeader.length = pcapFileHeaderSize)
    (hmagic : readLe32 fileHeader 0 = pcapMagicValue)
    (hrecords : ∀ r ∈ records, r.WellFormed) (hlast : last.WellFormed)
    (hm : m < last.encode.length) (hsave : ∀ r ∈ records, env.saveOk r = true) :
    ∃ pctx : RecapContext, pctx.state = .fin ∧ pctx.saved = records ∧
      ∃ N, ∀ fuel, N ≤ fuel →
        processFileStream fuel env
          (recapStart (fileHeader ++ records.flatMap PcapRecord.encode ++ last.encode.take m)) =
          some (0, pctx) := by
  obtain ⟨n₁, c₁, hit₁, hstate₁, hdata₁, hrest₁, hsaved₁⟩ := fileHeader_phase env fileHeader
    (records.flatMap PcapRecord.encode ++ last.encode.take m) hheader hmagic
  obtain ⟨n₂, c, hit₂, hfin, hsaved⟩ := records_phase env records hrecords hsave last hlast m hm
    c₁ hstate₁ hdata₁ hrest₁
  refine ⟨c, hfin, by rw [hsaved, hsaved₁, List.nil_append], n₁ + n₂ + 1, fun fuel hfuel => ?_⟩
  -- the loop stops at the first iteration in `PCAP_FILE_STATE_FIN`
  have hstop : (fileStreamIter env c).1 = false := by rw [fileStreamIter_fin env hfin]
  unfold processFileStream
  rw [List.append_assoc, loop_eq_of_iterates_exit (hit₁.trans hit₂) hstop fuel hfuel,
    fileStreamIter_fin env hfin]
  rfl

/-- `fread` returning one byte at a time, and a writer that never fails. -/
def oneByteReads : RecapEnv := ⟨fun _ => 0, fun _ => true⟩

/-- A file header carrying the pcap magic. -/
def sampleFileHeader : List UInt8 := encodeLe32 pcapMagicValue ++ List.replicate 20 0

/-- A record of three captured bytes out of sixty on the wire. -/
def sampleRecord : PcapRecord := ⟨⟨1, 2, 3, 60⟩, [7, 8, 9]⟩

theorem recap_saves_sample_record :
    sampleFileHeader.length = pcapFileHeaderSize ∧
      readLe32 sampleFileHeader 0 = pcapMagicValue ∧
      (∀ r ∈ [sampleRecord], r.WellFormed) ∧ sampleRecord.WellFormed ∧
      5 < sampleRecord.encode.length ∧ (∀ r ∈ [sampleRecord], oneByteReads.saveOk r = true) ∧
      ∃ pctx : RecapContext, pctx.state = .fin ∧ pctx.saved = [sampleRecord] ∧
        ∃ N, ∀ fuel, N ≤ fuel →
          processFileStream fuel oneByteReads (recapStart (sampleFileHeader ++
            [sampleRecord].flatMap PcapRecord.encode ++ sampleRecord.encode.take 5)) =
            some (0, pctx) :=
  have hheader : sampleFileHeader.length = pcapFileHeaderSize := rfl
  have hmagic : readLe32 sampleFileHeader 0 = pcapMagicValue := readLe32_encodeLe32_append _ _
  have hwf : sampleRecord.WellFormed := by decide
  have hrecords : ∀ r ∈ [sampleRecord], r.WellFormed := by decide
  have hm : 5 < sampleRecord.encode.length := by decide
  have hsave : ∀ r ∈ [sampleRecord], oneByteReads.saveOk r = true := fun _ _ => rfl
  ⟨hheader, hmagic, hrecords, hwf, hm, hsave,
    recap_saves_every_record oneByteReads sampleFileHeader [sampleRecord] sampleRecord 5
      hheader hmagic hrecords hwf hm hsave⟩

/-! ## A failed step -/

theorem processFileStreamState_readPcapHeader (env : RecapEnv) {pctx : RecapContext}
    (h : pctx.state = .readPcapHeader) :
    processFileStreamState env pctx =
      (if (processFileHeaderState env pctx).1 < 0 then -1 else 1,
        (processFileHeaderState env pctx).2) := by
  rw [processFileStreamState, h]

/-- A step of the machine that fails ends the loop of `process_file_stream`, and what it
returns is still `0`: `ret` holds the comparison `process_file_stream_state(pctx) > 0`, never
the `-1`.  Iterations that go on from `pctx` to a state whose step fails give that result for
every fuel past them. -/
theorem processFileStream_of_failed_step (env : RecapEnv) {n : ℕ} {pctx c : RecapContext}
    (hit : Iterates (fileStreamIter env) n pctx c) (hfail : (processFileStreamState env c).1 < 0)
    (fuel : ℕ) (hfuel : n + 1 ≤ fuel) :
    processFileStream fuel env pctx = some (0, (processFileStreamState env c).2) := by
  have hstop : (fileStreamIter env c).1 = false := by
    simp only [fileStreamIter, decide_eq_false_iff_not, not_lt]
    exact hfail.le
  unfold processFileStream
  rw [loop_eq_of_iterates_exit hit hstop fuel hfuel]
  rfl

/-- On a file header without the pcap magic, the machine gathers the header, however the
reads are cut, and its next step fails in `PCAP_FILE_STATE_READ_PCAP_HEADER`. -/
theorem badMagic_phase (env : RecapEnv) (fileHeader rest : List UInt8)
    (hheader : fileHeader.length = pcapFileHeaderSize)
    (hmagic : readLe32 fileHeader 0 ≠ pcapMagicValue) :
    ∃ n c, Iterates (fileStreamIter env) n (recapStart (fileHeader ++ rest)) c ∧
      (processFileStreamState env c).1 = -1 ∧
      (processFileStreamState env c).2.state = .readPcapHeader := by
  set c₀ : RecapContext := { recapStart (fileHeader ++ rest) with state := .readPcapHeader }
    with hc₀
  have hinit : fileStreamIter env (recapStart (fileHeader ++ rest)) = (true, c₀) := rfl
  have hmagic' : readLe32 (c₀.pcapData ++ fileHeader) 0 ≠ pcapMagicValue := by
    simpa [hc₀, recapStart] using hmagic
  obtain ⟨n, reads, t, c, hit, hstate, -, hacc⟩ := accumulate_completes env pcapFileHeaderSize
    completeFileHeader c₀ (reads_readPcapHeader env rfl) fileHeader rest rfl
    (by simp [hc₀, recapStart, hheader])
  -- the completing step reads the header and refuses its magic
  have hhdr : processFileHeaderState env c = _ := hacc
  rw [completeFileHeader_of_ne (by exact hmagic')] at hhdr
  have hfirst := Iterates.single
    (show (fileStreamIter env (recapStart (fileHeader ++ rest))).1 = true by rw [hinit])
  rw [hinit] at hfirst
  refine ⟨1 + n, c, hfirst.trans hit, ?_, ?_⟩
  · rw [processFileStreamState_readPcapHeader env hstate, hhdr]
    show (if (-1 : Int) < 0 then (-1 : Int) else 1) = -1
    decide
  · rw [processFileStreamState_readPcapHeader env hstate, hhdr]

/-- The first twenty-four bytes of a pcapng file: its Section Header Block's type
`0x0A0D0D0A`, length 28, byte-order magic `0x1A2B3C4D`, version 1.0 and unknown section
length. -/
def pcapngHeader : List UInt8 :=
  [0x0a, 0x0d, 0x0d, 0x0a, 0x1c, 0, 0, 0, 0x4d, 0x3c, 0x2b, 0x1a, 1, 0, 0, 0,
    0xff, 0xff, 0xff, 0xff, 0xff, 0xff, 0xff, 0xff]

theorem process_file_stream_hides_pcapng_error (env : RecapEnv) (rest : List UInt8) :
    ∃ n c, Iterates (fileStreamIter env) n (recapStart (pcapngHeader ++ rest)) c ∧
      (processFileStreamState env c).1 = -1 ∧ (processFileStreamState env c).2.state ≠ .fin ∧
      ∀ fuel, processFileStream (n + 1 + fuel) env (recapStart (pcapngHeader ++ rest)) =
        some (0, (processFileStreamState env c).2) := by
  obtain ⟨n, c, hit, hfail, hstate⟩ :=
    badMagic_phase env pcapngHeader rest rfl (by decide)
  refine ⟨n, c, hit, hfail, by rw [hstate]; decide, fun fuel => ?_⟩
  exact processFileStream_of_failed_step env hit (by rw [hfail]; decide) _ (by omega)

end Recap

end EdgeSec
