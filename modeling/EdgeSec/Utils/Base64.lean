import Mathlib

/-!
# Base64

`base64_gen_encode` and `base64_gen_decode` (`src/utils/base64.c`) are the encoder and the
decoder behind `base64_encode`, `base64_url_encode`, `base64_decode` and
`base64_url_decode`; the crypt service stores its keys, salts and IVs with them
(`prepare_secret_entry`, `extract_secret_entry` in `src/crypt/crypt_service.c`).

The encoder writes four characters of its table for every three bytes, then the last one or
two bytes as two or three characters; with `add_pad` it adds the `=` padding, a line feed
after every 72 characters and one at the end of a last, unfinished line.  The decoder skips
every character outside its table and `=`, counts the others, appends the `=` that make the
count a multiple of four, and trims one or two bytes from the block that carries padding.

Buffers are lists of bytes.  `SIZE_MAX` is that of the 64-bit targets; the encoder refuses
inputs of `SIZE_MAX / 4` bytes or more.  Allocation is taken to succeed.

## Main results

* `Alphabet`: a table whose decode table gives back every index and skips the line feed, and
  that holds neither `=` nor NUL; `base64Alphabet` and `base64UrlAlphabet` are the two tables
  of the source.
* `base64GenDecode_base64GenEncode`: over any such table, with or without padding, decoding
  an encoding gives back every non-empty input below the encoder's bound.
* `extractSecretEntry_prepareSecretEntry`: so the crypt service reads back the key, salt and
  IV it stored, each non-empty.
-/

namespace EdgeSec

namespace Base64

/-- `SIZE_MAX`. -/
def sizeMax : ℕ := 2 ^ 64 - 1

/-- A byte string as its ASCII characters. -/
def asciiBytes (s : String) : List UInt8 := s.toList.map fun c => c.toNat.toUInt8

/-- `base64_table`. -/
def base64Table : List UInt8 :=
  asciiBytes "ABCDEFGHIJKLMNOPQRSTUVWXYZabcdefghijklmnopqrstuvwxyz0123456789+/"

/-- `base64_url_table`. -/
def base64UrlTable : List UInt8 :=
  asciiBytes "ABCDEFGHIJKLMNOPQRSTUVWXYZabcdefghijklmnopqrstuvwxyz0123456789-_"

/-! ## The encoder -/

/-- The four characters of the three bytes `in[0..2]`. -/
def encodeBlock (table : List UInt8) (a b c : UInt8) : List UInt8 :=
  [table.getD ((a >>> 2) &&& 0x3f).toNat 0,
    table.getD ((((a &&& 0x03) <<< 4) ||| (b >>> 4)) &&& 0x3f).toNat 0,
    table.getD ((((b &&& 0x0f) <<< 2) ||| (c >>> 6)) &&& 0x3f).toNat 0,
    table.getD (c &&& 0x3f).toNat 0]

/-- The `while (end - in >= 3)` loop from `in`, with `line_len`: the characters written,
`line_len` after the loop, and the bytes left. -/
def encodeLoop (table : List UInt8) (addPad : Bool) : List UInt8 → ℕ → List UInt8 × ℕ × List UInt8
  | a :: b :: c :: rest, lineLen =>
      let lineLen := lineLen + 4
      let nl := addPad && 72 ≤ lineLen
      let r := encodeLoop table addPad rest (if nl then 0 else lineLen)
      (encodeBlock table a b c ++ (if nl then [10] else []) ++ r.1, r.2)
  | rest, lineLen => ([], lineLen, rest)

/-- The `if (end - in)` block: the characters of the last one or two bytes, with their
padding. -/
def tailChars (table : List UInt8) (addPad : Bool) : List UInt8 → List UInt8
  | [a] =>
      [table.getD ((a >>> 2) &&& 0x3f).toNat 0, table.getD (((a &&& 0x03) <<< 4) &&& 0x3f).toNat 0] ++
        (if addPad then [61] else []) ++ (if addPad then [61] else [])
  | [a, b] =>
      [table.getD ((a >>> 2) &&& 0x3f).toNat 0,
        table.getD ((((a &&& 0x03) <<< 4) ||| (b >>> 4)) &&& 0x3f).toNat 0,
        table.getD (((b &&& 0x0f) <<< 2) &&& 0x3f).toNat 0] ++
        (if addPad then [61] else [])
  | _ => []

/-- What the encoder writes after its loop: the last bytes, then the line feed that ends an
unfinished line. -/
def encodeTail (table : List UInt8) (addPad : Bool) (rest : List UInt8) (lineLen : ℕ) :
    List UInt8 :=
  let lineLen := if rest = [] then lineLen else lineLen + 4
  tailChars table addPad rest ++ if addPad && lineLen ≠ 0 then [10] else []

/-- `base64_gen_encode`: the `out_len` characters written, `NULL` for an input of
`SIZE_MAX / 4` bytes or more.  Below that bound `olen` does not wrap, so the overflow test
`olen < len` never holds. -/
def base64GenEncode (src : List UInt8) (table : List UInt8) (addPad : Bool) :
    Option (List UInt8) :=
  if sizeMax / 4 ≤ src.length then none
  else
    let olen := src.length * 4 / 3 + 4
    let olen := if addPad then olen + olen / 72 else olen
    let olen := olen + 1
    if olen < src.length then none
    else
      let r := encodeLoop table addPad src 0
      some (r.1 ++ encodeTail table addPad r.2.2 r.2.1)

/-- `base64_encode`. -/
def base64Encode (src : List UInt8) : Option (List UInt8) := base64GenEncode src base64Table false

/-- `base64_url_encode`. -/
def base64UrlEncode (src : List UInt8) (addPad : Bool) : Option (List UInt8) :=
  base64GenEncode src base64UrlTable addPad

/-! ## The decoder -/

/-- `dtable[c]`: `0x80` from the `memset`, overwritten by the index of every table entry
equal to `c` (the last one wins), and `0` for `=`. -/
def dtableOf (table : List UInt8) (c : UInt8) : UInt8 :=
  if c = 61 then 0
  else (List.range 64).foldl (fun d i => if table.getD i 0 = c then i.toUInt8 else d) 0x80

/-- The three bytes of a block of four values. -/
def decodeBlock (block : List UInt8) : List UInt8 :=
  [(block.getD 0 0 <<< 2) ||| (block.getD 1 0 >>> 4),
    (block.getD 1 0 <<< 4) ||| (block.getD 2 0 >>> 2),
    (block.getD 2 0 <<< 6) ||| block.getD 3 0]

/-- The second loop of `base64_gen_decode` over the characters left, with the values of the
block so far, the `=` seen and the bytes written: a full block writes three bytes, and one
that carries padding ends the loop after dropping one byte per `=`, or fails for more than
two. -/
def decodeLoop (dtable : UInt8 → UInt8) :
    List UInt8 → List UInt8 → ℕ → List UInt8 → Option (List UInt8)
  | [], _, _, out => some out
  | val :: rest, block, pad, out =>
      let tmp := dtable val
      if tmp = 0x80 then decodeLoop dtable rest block pad out
      else
        let pad := if val = 61 then pad + 1 else pad
        let block := block ++ [tmp]
        if block.length = 4 then
          let out := out ++ decodeBlock block
          if pad ≠ 0 then
            if pad = 1 then some out.dropLast
            else if pad = 2 then some out.dropLast.dropLast
            else none
          else decodeLoop dtable rest [] pad out
        else decodeLoop dtable rest block pad out

/-- `base64_gen_decode`: count the characters the table knows, fail on none, and decode the
input followed by the `extra_pad` characters `=` that complete the last block. -/
def base64GenDecode (src : List UInt8) (table : List UInt8) : Option (List UInt8) :=
  let dtable := dtableOf table
  let count := (src.filter fun c => dtable c ≠ 0x80).length
  if count = 0 then none
  else
    let extraPad := (4 - count % 4) % 4
    decodeLoop dtable (src ++ List.replicate extraPad 61) [] 0 []

/-- `base64_decode`. -/
def base64Decode (src : List UInt8) : Option (List UInt8) := base64GenDecode src base64Table

/-- `base64_url_decode`. -/
def base64UrlDecode (src : List UInt8) : Option (List UInt8) := base64GenDecode src base64UrlTable

example : base64Encode (asciiBytes "hello") = some (asciiBytes "aGVsbG8") := by decide +kernel

example : base64UrlEncode (asciiBytes "hello") true = some (asciiBytes "aGVsbG8=\n") := by
  decide +kernel


/-! ## The decoder's steps -/

section Steps

variable {dtable : UInt8 → UInt8} {val : UInt8} {rest block out : List UInt8} {pad : ℕ}

theorem decodeLoop_skip (h : dtable val = 0x80) :
    decodeLoop dtable (val :: rest) block pad out = decodeLoop dtable rest block pad out := by
  rw [decodeLoop, if_pos h]

theorem decodeLoop_push (h : dtable val ≠ 0x80) (hlen : block.length ≠ 3) :
    decodeLoop dtable (val :: rest) block pad out =
      decodeLoop dtable rest (block ++ [dtable val]) (if val = 61 then pad + 1 else pad) out := by
  have hne : (block ++ [dtable val]).length ≠ 4 := by
    rw [List.length_append, List.length_singleton]
    omega
  rw [decodeLoop, if_neg h]
  dsimp only
  rw [if_neg hne]

theorem decodeLoop_full (h : dtable val ≠ 0x80) (hlen : block.length = 3) :
    decodeLoop dtable (val :: rest) block pad out =
      let pad := if val = 61 then pad + 1 else pad
      let out := out ++ decodeBlock (block ++ [dtable val])
      if pad ≠ 0 then
        if pad = 1 then some out.dropLast
        else if pad = 2 then some out.dropLast.dropLast
        else none
      else decodeLoop dtable rest [] pad out := by
  have h4 : (block ++ [dtable val]).length = 4 := by
    rw [List.length_append, List.length_singleton, hlen]
  rw [decodeLoop, if_neg h]
  dsimp only
  rw [if_pos h4]

/-- The characters the decode table skips can be left out beforehand. -/
theorem decodeLoop_filter (xs : List UInt8) (block : List UInt8) (pad : ℕ) (out : List UInt8) :
    decodeLoop dtable xs block pad out =
      decodeLoop dtable (xs.filter fun c => dtable c ≠ 0x80) block pad out := by
  induction xs generalizing block pad out with
  | nil => rfl
  | cons x xs ih =>
      by_cases hx : dtable x = 0x80
      · rw [decodeLoop_skip hx, ih, List.filter_cons_of_neg (by simpa using hx)]
      · -- a kept character is decoded alike on both sides, and so is the rest
        rw [List.filter_cons_of_pos (by simpa using hx), decodeLoop, decodeLoop, if_neg hx,
          if_neg hx]
        dsimp only
        split
        · split
          · rfl
          · rw [ih]
        · rw [ih]

end Steps

/-! ## Alphabets -/

/-- A table the decoder can invert: the decode table gives back the index of every entry,
skips the line feed, and no entry is `=` or NUL. -/
structure Alphabet where
  table : List UInt8
  dtable_table : ∀ i < 64, dtableOf table (table.getD i 0) = i.toUInt8
  table_ne_pad : ∀ i < 64, table.getD i 0 ≠ 61
  table_ne_nul : ∀ i < 64, table.getD i 0 ≠ 0
  dtable_newline : dtableOf table 10 = 0x80

/-- `base64_table` is an alphabet. -/
def base64Alphabet : Alphabet where
  table := base64Table
  dtable_table := by decide +kernel
  table_ne_pad := by decide +kernel
  table_ne_nul := by decide +kernel
  dtable_newline := by decide +kernel

/-- `base64_url_table` is an alphabet. -/
def base64UrlAlphabet : Alphabet where
  table := base64UrlTable
  dtable_table := by decide +kernel
  table_ne_pad := by decide +kernel
  table_ne_nul := by decide +kernel
  dtable_newline := by decide +kernel

-- by the equation of the alphabet: `rfl` would unfold the table down to its UTF-8 bytes
theorem base64Alphabet_table : base64Alphabet.table = base64Table := by
  simp only [base64Alphabet]

theorem base64UrlAlphabet_table : base64UrlAlphabet.table = base64UrlTable := by
  simp only [base64UrlAlphabet]

/-! ## The bits of a block -/

theorem sextet_toNat_lt (x : UInt8) : (x &&& 0x3f).toNat < 64 := by
  rw [UInt8.toNat_and]
  exact lt_of_le_of_lt Nat.and_le_right (by decide)

/-- The first byte comes back from the first two characters. -/
theorem decode_first (a b : UInt8) :
    (((a >>> 2) &&& 0x3f) <<< 2) ||| (((((a &&& 0x03) <<< 4) ||| (b >>> 4)) &&& 0x3f) >>> 4) = a := by
  apply UInt8.eq_of_toBitVec_eq
  simp only [UInt8.toBitVec_or, UInt8.toBitVec_shiftLeft, UInt8.toBitVec_shiftRight,
    UInt8.toBitVec_and]
  ext i hi
  simp [BitVec.getElem_or, BitVec.getElem_shiftLeft, BitVec.getElem_ushiftRight,
    BitVec.getElem_and]
  interval_cases i <;> simp [BitVec.getLsbD_eq_getElem]

/-- The second byte comes back from the second and third characters. -/
theorem decode_second (a b c : UInt8) :
    ((((((a &&& 0x03) <<< 4) ||| (b >>> 4)) &&& 0x3f) <<< 4) |||
      (((((b &&& 0x0f) <<< 2) ||| (c >>> 6)) &&& 0x3f) >>> 2)) = b := by
  apply UInt8.eq_of_toBitVec_eq
  simp only [UInt8.toBitVec_or, UInt8.toBitVec_shiftLeft, UInt8.toBitVec_shiftRight,
    UInt8.toBitVec_and]
  ext i hi
  simp [BitVec.getElem_or, BitVec.getElem_shiftLeft, BitVec.getElem_ushiftRight,
    BitVec.getElem_and]
  interval_cases i <;> simp [BitVec.getLsbD_eq_getElem]

/-- The third byte comes back from the third and fourth characters. -/
theorem decode_third (b c : UInt8) :
    ((((((b &&& 0x0f) <<< 2) ||| (c >>> 6)) &&& 0x3f) <<< 6) ||| (c &&& 0x3f)) = c := by
  apply UInt8.eq_of_toBitVec_eq
  simp only [UInt8.toBitVec_or, UInt8.toBitVec_shiftLeft, UInt8.toBitVec_shiftRight,
    UInt8.toBitVec_and]
  ext i hi
  simp [BitVec.getElem_or, BitVec.getElem_shiftLeft, BitVec.getElem_ushiftRight,
    BitVec.getElem_and]
  interval_cases i <;> simp [BitVec.getLsbD_eq_getElem]

/-- The text the encoder writes with its line feeds left out: four characters per three
bytes, then the last bytes with their padding. -/
def cleanText (table : List UInt8) (addPad : Bool) : List UInt8 → List UInt8
  | a :: b :: c :: rest => encodeBlock table a b c ++ cleanText table addPad rest
  | rest => tailChars table addPad rest

theorem decode_first_of_last (a : UInt8) :
    (((a >>> 2) &&& 0x3f) <<< 2) ||| ((((a &&& 0x03) <<< 4) &&& 0x3f) >>> 4) = a := by
  simpa using decode_first a 0

theorem decode_second_of_last (a b : UInt8) :
    ((((((a &&& 0x03) <<< 4) ||| (b >>> 4)) &&& 0x3f) <<< 4) |||
      ((((b &&& 0x0f) <<< 2) &&& 0x3f) >>> 2)) = b := by
  simpa using decode_second a b 0

/-- The last characters are `=` and table entries of six-bit values. -/
theorem mem_tailChars {table : List UInt8} {addPad : Bool} {rest : List UInt8} {c : UInt8}
    (hc : c ∈ tailChars table addPad rest) :
    c = 61 ∨ ∃ x : UInt8, c = table.getD (x &&& 0x3f).toNat 0 := by
  match rest with
  | [] => simp [tailChars] at hc
  | [a] =>
      cases addPad <;>
        simp only [tailChars, if_true, if_false, List.cons_append, List.nil_append,
          List.mem_cons, List.not_mem_nil, or_false, Bool.false_eq_true] at hc <;>
        rcases hc with rfl | rfl | rfl | rfl <;>
        first | exact .inl rfl | exact .inr ⟨_, rfl⟩
  | [a, b] =>
      cases addPad <;>
        simp only [tailChars, if_true, if_false, List.cons_append, List.nil_append,
          List.mem_cons, List.not_mem_nil, or_false, Bool.false_eq_true] at hc <;>
        rcases hc with rfl | rfl | rfl | rfl <;>
        first | exact .inl rfl | exact .inr ⟨_, rfl⟩
  | _ :: _ :: _ :: _ => simp [tailChars] at hc

section Alphabet

variable (A : Alphabet)

/-- The table entry of a six-bit value decodes back to it. -/
theorem dtable_sextet (x : UInt8) :
    dtableOf A.table (A.table.getD (x &&& 0x3f).toNat 0) = x &&& 0x3f := by
  rw [A.dtable_table _ (sextet_toNat_lt x)]
  exact UInt8.ofNat_toNat

theorem sextet_ne_skip (x : UInt8) : dtableOf A.table (A.table.getD (x &&& 0x3f).toNat 0) ≠ 0x80 := by
  rw [dtable_sextet]
  intro h
  have := sextet_toNat_lt x
  rw [h] at this
  exact absurd this (by decide)

theorem dtable_pad : dtableOf A.table 61 = 0 := rfl

theorem sextet_ne_pad (x : UInt8) : A.table.getD (x &&& 0x3f).toNat 0 ≠ 61 :=
  A.table_ne_pad _ (sextet_toNat_lt x)

/-- Every character of a block is kept by the decoder. -/
theorem filter_encodeBlock (a b c : UInt8) :
    (encodeBlock A.table a b c).filter (fun c => dtableOf A.table c ≠ 0x80) =
      encodeBlock A.table a b c := by
  refine List.filter_eq_self.2 fun c hc => ?_
  simp only [encodeBlock, List.mem_cons, List.not_mem_nil, or_false] at hc
  rcases hc with rfl | rfl | rfl | rfl <;> exact decide_eq_true (sextet_ne_skip A _)

theorem filter_tailChars (addPad : Bool) (rest : List UInt8) :
    (tailChars A.table addPad rest).filter (fun c => dtableOf A.table c ≠ 0x80) =
      tailChars A.table addPad rest := by
  refine List.filter_eq_self.2 fun c hc => decide_eq_true ?_
  rcases mem_tailChars hc with rfl | ⟨x, rfl⟩
  · rw [dtable_pad]
    decide
  · exact sextet_ne_skip A x

/-- A line feed is left out. -/
theorem filter_newline (nl : Bool) :
    ((if nl then [10] else []) : List UInt8).filter (fun c => dtableOf A.table c ≠ 0x80) = [] := by
  cases nl
  · rfl
  · simp [A.dtable_newline]

theorem filter_encodeTail (addPad : Bool) (rest : List UInt8) (lineLen : ℕ) :
    (encodeTail A.table addPad rest lineLen).filter (fun c => dtableOf A.table c ≠ 0x80) =
      tailChars A.table addPad rest := by
  rw [encodeTail, List.filter_append, filter_tailChars, filter_newline, List.append_nil]

/-- Leaving out the line feeds of the encoder's output leaves the clean text. -/
theorem filter_encodeLoop (addPad : Bool) (src : List UInt8) (lineLen : ℕ) :
    ((encodeLoop A.table addPad src lineLen).1 ++
        encodeTail A.table addPad (encodeLoop A.table addPad src lineLen).2.2
          (encodeLoop A.table addPad src lineLen).2.1).filter
        (fun c => dtableOf A.table c ≠ 0x80) =
      cleanText A.table addPad src := by
  fun_induction encodeLoop A.table addPad src lineLen with
  | case1 a b c rest lineLen lineLen' nl r ih =>
      -- the block is kept and the line feed after it, if any, is left out
      simp only [r] at ih ⊢
      rw [cleanText, ← ih, List.append_assoc, List.append_assoc, List.filter_append,
        filter_encodeBlock, List.filter_append, filter_newline, List.nil_append]
  | case2 rest lineLen hrest =>
      -- fewer than three bytes are left: only the tail is written
      dsimp only
      rw [List.nil_append, filter_encodeTail]
      match rest, hrest with
      | [], _ => rfl
      | [_], _ => rfl
      | [_, _], _ => rfl
      | a :: b :: c :: rest, hrest => exact (hrest a b c rest rfl).elim

/-- A block of four characters decodes to its three bytes. -/
theorem decodeLoop_encodeBlock (a b c : UInt8) (rest out : List UInt8) :
    decodeLoop (dtableOf A.table) (encodeBlock A.table a b c ++ rest) [] 0 out =
      decodeLoop (dtableOf A.table) rest [] 0 (out ++ [a, b, c]) := by
  simp only [encodeBlock, List.cons_append, List.nil_append]
  rw [decodeLoop_push (sextet_ne_skip A _) (by simp), decodeLoop_push (sextet_ne_skip A _) (by simp),
    decodeLoop_push (sextet_ne_skip A _) (by simp), decodeLoop_full (sextet_ne_skip A _) (by simp)]
  simp only [sextet_ne_pad, if_false, dtable_sextet, List.nil_append, List.cons_append,
    decodeBlock, ne_eq, not_true_eq_false, List.getD_cons_zero, List.getD_cons_succ]
  rw [decode_first, decode_second, decode_third]

/-- The last byte, with its two characters of padding, given or added by the decoder. -/
theorem decodeLoop_tail_one (a : UInt8) (out : List UInt8) :
    decodeLoop (dtableOf A.table)
        [A.table.getD ((a >>> 2) &&& 0x3f).toNat 0,
          A.table.getD (((a &&& 0x03) <<< 4) &&& 0x3f).toNat 0, 61, 61] [] 0 out =
      some (out ++ [a]) := by
  rw [decodeLoop_push (sextet_ne_skip A _) (by simp), decodeLoop_push (sextet_ne_skip A _) (by simp),
    decodeLoop_push (by rw [dtable_pad]; decide) (by simp),
    decodeLoop_full (by rw [dtable_pad]; decide) (by simp)]
  simp only [sextet_ne_pad, if_false, if_true, dtable_sextet, dtable_pad, List.nil_append,
    List.cons_append, decodeBlock]
  simp [decode_first_of_last]

/-- The last two bytes, with their character of padding, given or added by the decoder. -/
theorem decodeLoop_tail_two (a b : UInt8) (out : List UInt8) :
    decodeLoop (dtableOf A.table)
        [A.table.getD ((a >>> 2) &&& 0x3f).toNat 0,
          A.table.getD ((((a &&& 0x03) <<< 4) ||| (b >>> 4)) &&& 0x3f).toNat 0,
          A.table.getD (((b &&& 0x0f) <<< 2) &&& 0x3f).toNat 0, 61] [] 0 out =
      some (out ++ [a, b]) := by
  rw [decodeLoop_push (sextet_ne_skip A _) (by simp), decodeLoop_push (sextet_ne_skip A _) (by simp),
    decodeLoop_push (sextet_ne_skip A _) (by simp),
    decodeLoop_full (by rw [dtable_pad]; decide) (by simp)]
  simp only [sextet_ne_pad, if_false, if_true, dtable_sextet, dtable_pad, List.nil_append,
    List.cons_append, decodeBlock]
  simp [decode_first, decode_second_of_last]

/-- With or without its padding, the last byte reaches the decoder's loop as two characters
and two `=`. -/
theorem padded_tail_one (addPad : Bool) (a : UInt8) :
    tailChars A.table addPad [a] ++
        List.replicate ((4 - (tailChars A.table addPad [a]).length % 4) % 4) (61 : UInt8) =
      [A.table.getD ((a >>> 2) &&& 0x3f).toNat 0,
        A.table.getD (((a &&& 0x03) <<< 4) &&& 0x3f).toNat 0, 61, 61] := by
  cases addPad <;> simp [tailChars]

/-- With or without its padding, the last two bytes reach the decoder's loop as three
characters and one `=`. -/
theorem padded_tail_two (addPad : Bool) (a b : UInt8) :
    tailChars A.table addPad [a, b] ++
        List.replicate ((4 - (tailChars A.table addPad [a, b]).length % 4) % 4) (61 : UInt8) =
      [A.table.getD ((a >>> 2) &&& 0x3f).toNat 0,
        A.table.getD ((((a &&& 0x03) <<< 4) ||| (b >>> 4)) &&& 0x3f).toNat 0,
        A.table.getD (((b &&& 0x0f) <<< 2) &&& 0x3f).toNat 0, 61] := by
  cases addPad <;> simp [tailChars]

/-- The decoder, run on the clean text with the `=` it appends, writes the bytes encoded. -/
theorem decodeLoop_cleanText (addPad : Bool) (src out : List UInt8) :
    decodeLoop (dtableOf A.table)
        (cleanText A.table addPad src ++
          List.replicate ((4 - (cleanText A.table addPad src).length % 4) % 4) 61) [] 0 out =
      some (out ++ src) := by
  fun_induction cleanText A.table addPad src generalizing out with
  | case1 a b c rest ih =>
      -- a block of four characters leaves the count modulo four as it is
      have hlen : (encodeBlock A.table a b c ++ cleanText A.table addPad rest).length % 4 =
          (cleanText A.table addPad rest).length % 4 := by
        simp only [encodeBlock, List.length_append, List.length_cons, List.length_nil]
        omega
      rw [hlen, List.append_assoc, decodeLoop_encodeBlock, ih, List.append_assoc]
      rfl
  | case2 rest hrest =>
      match rest, hrest with
      | [], _ => simp [tailChars, decodeLoop]
      | [a], _ => rw [padded_tail_one, decodeLoop_tail_one]
      | [a, b], _ => rw [padded_tail_two, decodeLoop_tail_two]
      | a :: b :: c :: rest, hrest => exact (hrest a b c rest rfl).elim

theorem cleanText_ne_nil (addPad : Bool) {src : List UInt8} (h : src ≠ []) :
    cleanText A.table addPad src ≠ [] := by
  match src, h with
  | [_], _ => cases addPad <;> simp [cleanText, tailChars]
  | [_, _], _ => cases addPad <;> simp [cleanText, tailChars]
  | _ :: _ :: _ :: _, _ => simp [cleanText, encodeBlock]

/-- The clean text holds no NUL: its characters are table entries and `=`. -/
theorem ne_nul_of_mem_cleanText (addPad : Bool) (src : List UInt8) :
    ∀ c ∈ cleanText A.table addPad src, c ≠ 0 := by
  have hentry : ∀ x : UInt8, A.table.getD (x &&& 0x3f).toNat 0 ≠ 0 := fun x =>
    A.table_ne_nul _ (sextet_toNat_lt x)
  fun_induction cleanText A.table addPad src with
  | case1 a b c rest ih =>
      intro d hd
      rcases List.mem_append.1 hd with hd | hd
      · simp only [encodeBlock, List.mem_cons, List.not_mem_nil, or_false] at hd
        rcases hd with rfl | rfl | rfl | rfl <;> exact hentry _
      · exact ih d hd
  | case2 rest _ =>
      intro d hd
      rcases mem_tailChars hd with rfl | ⟨x, rfl⟩
      · decide
      · exact hentry x

theorem eq_of_mem_newline (nl : Bool) {d : UInt8} (h : d ∈ (if nl then [10] else [])) :
    d = 10 := by
  cases nl <;> simp_all

/-- Every character the encoder writes is one of the clean text or a line feed. -/
theorem mem_encodeLoop (addPad : Bool) (src : List UInt8) (lineLen : ℕ) :
    ∀ c ∈ (encodeLoop A.table addPad src lineLen).1 ++
        encodeTail A.table addPad (encodeLoop A.table addPad src lineLen).2.2
          (encodeLoop A.table addPad src lineLen).2.1,
      c ∈ cleanText A.table addPad src ∨ c = 10 := by
  fun_induction encodeLoop A.table addPad src lineLen with
  | case1 a b c rest lineLen lineLen' nl r ih =>
      simp only [r] at ih ⊢
      intro d hd
      rw [cleanText]
      simp only [List.append_assoc, List.mem_append] at hd
      rcases hd with hd | hd | hd
      · exact .inl (List.mem_append_left _ hd)
      · exact .inr (eq_of_mem_newline _ hd)
      · rcases ih d (List.mem_append.2 hd) with hd | hd
        · exact .inl (List.mem_append_right _ hd)
        · exact .inr hd
  | case2 rest lineLen hrest =>
      intro d hd
      simp only [List.nil_append, encodeTail, List.mem_append] at hd
      rcases hd with hd | hd
      · left
        match rest, hrest with
        | [], _ => exact hd
        | [_], _ => exact hd
        | [_, _], _ => exact hd
        | a :: b :: c :: rest, hrest => exact (hrest a b c rest rfl).elim
      · exact .inr (eq_of_mem_newline _ hd)

/-- Over an alphabet, with or without padding, decoding the encoding of a non-empty input
below the encoder's bound gives the input back. -/
theorem base64GenDecode_base64GenEncode (addPad : Bool) (src : List UInt8) (hne : src ≠ [])
    (hlen : src.length < sizeMax / 4) :
    ∃ text, base64GenEncode src A.table addPad = some text ∧ (∀ c ∈ text, c ≠ 0) ∧
      base64GenDecode text A.table = some src := by
  have holen : ¬ (if addPad then src.length * 4 / 3 + 4 + (src.length * 4 / 3 + 4) / 72
      else src.length * 4 / 3 + 4) + 1 < src.length := by
    split <;> omega
  refine ⟨(encodeLoop A.table addPad src 0).1 ++
    encodeTail A.table addPad (encodeLoop A.table addPad src 0).2.2
      (encodeLoop A.table addPad src 0).2.1, ?_, ?_, ?_⟩
  · rw [base64GenEncode, if_neg (by omega)]
    dsimp only
    rw [if_neg holen]
  · -- the encoder writes table entries, `=` and line feeds, none of them NUL
    intro c hc
    rcases mem_encodeLoop A addPad src 0 c hc with hc | rfl
    · exact ne_nul_of_mem_cleanText A addPad src c hc
    · decide
  · have hclean := filter_encodeLoop A addPad src 0
    have hpad : ∀ n, (List.replicate n (61 : UInt8)).filter (fun c => dtableOf A.table c ≠ 0x80) =
        List.replicate n 61 := fun n =>
      List.filter_eq_self.2 fun c hc => by
        rw [List.eq_of_mem_replicate hc, dtable_pad]
        decide
    unfold base64GenDecode
    dsimp only
    rw [hclean, if_neg (by simpa using cleanText_ne_nil A addPad hne), decodeLoop_filter,
      List.filter_append, hclean, hpad, decodeLoop_cleanText, List.nil_append]

end Alphabet

/-! ## Secrets of the crypt service -/

/-- The fields of `struct secrets_row`, the texts `NULL` as `none`. -/
structure SecretsRow where
  id : Option String
  value : Option (List UInt8)
  salt : Option (List UInt8)
  iv : Option (List UInt8)
  deriving Repr, DecidableEq

/-- `prepare_secret_entry`: each buffer with its size as one list, `NULL` as `none`, and each
given one stored as `base64_encode` of it. -/
def prepareSecretEntry (keyId : Option String) (key salt iv : Option (List UInt8)) :
    SecretsRow where
  id := keyId
  value := key.bind base64Encode
  salt := salt.bind base64Encode
  iv := iv.bind base64Encode

/-- One field of `extract_secret_entry`, with its output buffers given: size `0` for a `NULL`
text, else `base64_decode` of the text up to its NUL (`strlen`); `none` is the `-1`. -/
def extractField : Option (List UInt8) → Option (List UInt8)
  | none => some []
  | some text => base64Decode (text.takeWhile (· ≠ 0))

/-- `extract_secret_entry`: the key, salt and IV it copies out, their sizes being their
lengths, or `none` for the `-1` of a failed decoding. -/
def extractSecretEntry (row : SecretsRow) : Option (List UInt8 × List UInt8 × List UInt8) := do
  let key ← extractField row.value
  let salt ← extractField row.salt
  let iv ← extractField row.iv
  pure (key, salt, iv)

/-- A non-empty buffer below the encoder's bound is read back from its stored text. -/
theorem extractField_base64Encode (x : List UInt8) (hne : x ≠ []) (hlen : x.length < sizeMax / 4) :
    extractField ((some x).bind base64Encode) = some x := by
  obtain ⟨text, henc, hnul, hdec⟩ :=
    base64GenDecode_base64GenEncode base64Alphabet false x hne hlen
  have htake : text.takeWhile (· ≠ 0) = text :=
    List.takeWhile_eq_self_iff.2 fun c hc => by simpa using hnul c hc
  rw [Option.bind_some, base64Encode, ← base64Alphabet_table, henc,
    extractField, htake, base64Decode]
  exact hdec

theorem extractSecretEntry_prepareSecretEntry (keyId : Option String) (key salt iv : List UInt8)
    (hkey : key ≠ []) (hsalt : salt ≠ []) (hiv : iv ≠ []) (hkeyLen : key.length < sizeMax / 4)
    (hsaltLen : salt.length < sizeMax / 4) (hivLen : iv.length < sizeMax / 4) :
    extractSecretEntry (prepareSecretEntry keyId (some key) (some salt) (some iv)) =
      some (key, salt, iv) := by
  simp only [extractSecretEntry, prepareSecretEntry, extractField_base64Encode key hkey hkeyLen,
    extractField_base64Encode salt hsalt hsaltLen, extractField_base64Encode iv hiv hivLen]
  rfl

theorem base64_round_trip :
    (∀ x : List UInt8, x ≠ [] → x.length < sizeMax / 4 →
      (base64Encode x).bind base64Decode = some x) ∧
    (∀ (x : List UInt8) (addPad : Bool), x ≠ [] → x.length < sizeMax / 4 →
      (base64UrlEncode x addPad).bind base64UrlDecode = some x) ∧
    (∀ (keyId : Option String) (key salt iv : List UInt8), key ≠ [] → salt ≠ [] → iv ≠ [] →
      key.length < sizeMax / 4 → salt.length < sizeMax / 4 → iv.length < sizeMax / 4 →
      extractSecretEntry (prepareSecretEntry keyId (some key) (some salt) (some iv)) =
        some (key, salt, iv)) := by
  refine ⟨fun x hne hlen => ?_, fun x addPad hne hlen => ?_,
    fun keyId key salt iv => extractSecretEntry_prepareSecretEntry keyId key salt iv⟩
  · obtain ⟨text, henc, -, hdec⟩ := base64GenDecode_base64GenEncode base64Alphabet false x hne hlen
    rw [base64Encode, ← base64Alphabet_table, henc, Option.bind_some]
    exact hdec
  · obtain ⟨text, henc, -, hdec⟩ :=
      base64GenDecode_base64GenEncode base64UrlAlphabet addPad x hne hlen
    rw [base64UrlEncode, ← base64UrlAlphabet_table, henc,
      Option.bind_some]
    exact hdec

/-- The bytes of `hello`, and a line of eighty bytes, over which the padded encoder puts a
line feed after seventy-two characters. -/
theorem base64_round_trip_on_samples :
    (base64Encode (asciiBytes "hello")).bind base64Decode = some (asciiBytes "hello") ∧
      (base64UrlEncode (List.replicate 80 0xfb) true).bind base64UrlDecode =
        some (List.replicate 80 0xfb) :=
  ⟨base64_round_trip.1 _ (by decide) (by decide),
    base64_round_trip.2.1 _ true (by simp) (by simp [sizeMax])⟩

end Base64

end EdgeSec
