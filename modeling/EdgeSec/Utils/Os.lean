import Mathlib

/-!
# String and process helpers of the OS layer

The helpers of `src/utils/os.c` that the supervisor's parsers rest on: `split_string` with
`fn_split_string_array` (a C string cut at a separator), `is_number`, `hex2num`, the C library's
`strtol` as the parsers use it, `os_strlcpy`, and `read_command_output`, which hands the
output of a child process to a callback one `read` of the pipe at a time.

A C string is a list of characters read up to its first NUL.  The reads of the pipe are
given as the list of chunks `read` returned, each of at most `PIPE_BUF` bytes; allocation is
taken to succeed.

## Main results

* `splitStringArray_eq`: the loop of `split_string` with `fn_split_string_array`, as the
  source writes it with `start` and `stop`, appends exactly those pieces and returns their
  number; `split_string_array_pieces` spells this out: one piece more than separators, none
  holding the separator, and the pieces joined by it give the string back.
* `isNumber_eq_numberSyntax`: `is_number` decides `[+-]?[0-9]+` on the first
  `MAX_64BIT_DIGITS` characters only, so it accepts nineteen digits followed by anything
  (`isNumber_digits_append`, `is_number_accepts_digits_then_letter`).
-/

namespace EdgeSec

namespace Os

/-- `PIPE_BUF` on Linux. -/
def pipeBuf : ℕ := 4096

/-- `MAX_64BIT_DIGITS`. -/
def max64bitDigits : ℕ := 19

/-- `LONG_MAX` and `LONG_MIN` of a 64-bit `long`. -/
def longMax : ℤ := 2 ^ 63 - 1
def longMin : ℤ := -2 ^ 63

/-- The characters of a C string: those before the first NUL. -/
def cStr (s : List Char) : List Char := s.takeWhile (· ≠ '\x00')

/-- `split_string` with `fn_split_string_array`: the pieces between the separators, the last
one after the final separator (empty when the string ends with it); their number is what
`split_string_array` returns. -/
def splitString (str : List Char) (sep : Char) : List (List Char) :=
  (cStr str).splitOn sep

/-- `isspace` of the C locale. -/
def isSpace (c : Char) : Bool :=
  c = ' ' || c = '\t' || c = '\n' || c = '\x0B' || c = '\x0C' || c = '\r'

/-- What `strtol(s, &endptr, 10)` reports: the value, clamped to `long`; whether a digit was
read (`endptr != s`); and whether the value overflowed (`errno == ERANGE`). -/
structure StrtolResult where
  value : ℤ
  parsed : Bool
  overflow : Bool
  deriving Repr, DecidableEq

/-- The value of a run of decimal digits. -/
def decimalValue (digits : List Char) : ℕ :=
  digits.foldl (fun n c => n * 10 + (c.toNat - '0'.toNat)) 0

/-- `strtol(s, &endptr, 10)`: leading white space, an optional sign, then the longest run of
decimal digits. -/
def strtol (s : List Char) : StrtolResult :=
  let s := (cStr s).dropWhile isSpace
  let signed : Bool × List Char := match s with
    | '-' :: r => (true, r)
    | '+' :: r => (false, r)
    | r => (false, r)
  let digits := signed.2.takeWhile Char.isDigit
  let v : ℤ := if signed.1 then -(decimalValue digits : ℤ) else decimalValue digits
  { value := max longMin (min longMax v)
    parsed := !digits.isEmpty
    overflow := decide (v < longMin ∨ longMax < v) }

/-- `is_number`: an optional sign that is not the whole string, then digits (the loop looks at
the first `MAX_64BIT_DIGITS` characters), and not empty. -/
def isNumber (ptr : List Char) : Bool :=
  let ptr := cStr ptr
  let offset := if ptr.head? = some '-' ∨ ptr.head? = some '+' then 1 else 0
  if ptr ≠ [] ∧ offset = 1 ∧ ptr.length = 1 then false
  else if ((ptr.take max64bitDigits).drop offset).all Char.isDigit then ptr ≠ []
  else false

/-- `os_strlcpy(dst, src, siz)` as the destination reads afterwards: at most `siz - 1`
characters of the string. -/
def osStrlcpy (src : List Char) (siz : ℕ) : List Char := (cStr src).take (siz - 1)

/-- `read_command_output`: the callback `fn` on every chunk the pipe gave, in order. -/
def readCommandOutput {σ : Type*} (fn : σ → List Char → σ) (ctx : σ) (chunks : List (List Char)) :
    σ :=
  chunks.foldl fn ctx

theorem cStr_of_not_mem {s : List Char} (h : '\x00' ∉ s) : cStr s = s := by
  unfold cStr
  rw [List.takeWhile_eq_self_iff]
  intro c hc
  have hne : c ≠ '\x00' := by
    rintro rfl
    exact h hc
  simpa using hne

/-! ## `split_string` as the source computes it -/

section SplitString

variable {σ : Type*}

/-- `fn_split_string_array`: the `len` characters at `str` copied (`strncpy` into a zeroed
buffer of `len + 1` bytes) and pushed onto the array.  Allocation is taken to succeed, so the
callback never returns `-1`. -/
def fnSplitStringArray (str : List Char) (len : ℕ) (strs : List (List Char)) :
    Option (List (List Char)) :=
  some (strs ++ [cStr (str.take len)])

/-- The `for (stop = 0; str[stop]; stop++)` loop of `split_string`, over the characters `rest`
from index `stop` on, carrying `start`, `count` and the callback's data: at a separator the
piece from `start` to `stop` goes to `fun`, whose result the loop does not check, and `start`
moves past the separator. -/
def splitStringLoop (fn : List Char → ℕ → σ → Option σ) (str : List Char) (sep : Char) :
    List Char → ℕ → ℕ × ℕ × σ → ℕ × ℕ × σ
  | [], _, acc => acc
  | c :: rest, stop, (start, count, data) =>
      if c = sep then
        splitStringLoop fn str sep rest (stop + 1)
          (stop + 1, count + 1, (fn (str.drop start) (stop - start) data).getD data)
      else splitStringLoop fn str sep rest (stop + 1) (start, count, data)

/-- `split_string(str, sep, fun, data)`: the loop, then the piece after the last separator;
`-1` when `fun` fails on that one, else `count + 1`. -/
def splitStringWith (fn : List Char → ℕ → σ → Option σ) (str : List Char) (sep : Char)
    (data : σ) : ℤ × σ :=
  let str := cStr str
  let r := splitStringLoop fn str sep str 0 (0, 0, data)
  let stop := str.length
  let len := if (stop : ℤ) - r.1 < 0 then 0 else stop - r.1
  match fn (str.drop r.1) len r.2.2 with
  | none => (-1, r.2.2)
  | some data => (r.2.1 + 1, data)

/-- `split_string_array(str, sep, arr)`. -/
def splitStringArray (str : List Char) (sep : Char) (arr : List (List Char)) :
    ℤ × List (List Char) :=
  splitStringWith fnSplitStringArray str sep arr

end SplitString

/-- Characters without a NUL, then a C string: the C string of the whole. -/
theorem cStr_append_of_not_mem {s : List Char} (h : '\x00' ∉ s) (t : List Char) :
    cStr (s ++ t) = s ++ cStr t := by
  unfold cStr
  rw [List.takeWhile_append_of_pos]
  intro c hc
  have hne : c ≠ '\x00' := fun hc0 => h (hc0 ▸ hc)
  simpa using hne

theorem not_mem_cStr (s : List Char) : '\x00' ∉ cStr s := by
  intro h
  have := List.mem_takeWhile_imp h
  simp at this

/-- The loop of `split_string` pushes the pieces before the last separator of the unread
part; the piece from `start` to the end is the last one.  The induction is on the unread
characters, with the string cut as the part before `start`, the current piece, and the rest. -/
theorem splitStringLoop_spec {s : List Char} (hnul : '\x00' ∉ s) (sep : Char) :
    ∀ (rest pre cur : List Char) (count : ℕ) (data : List (List Char)),
      s = pre ++ cur ++ rest → sep ∉ cur →
      let r := splitStringLoop fnSplitStringArray s sep rest (pre.length + cur.length)
        (pre.length, count, data)
      r.2.2 ++ [s.drop r.1] = data ++ (cur ++ rest).splitOn sep ∧
        r.2.1 = count + rest.count sep ∧ r.1 ≤ s.length := by
  intro rest
  induction rest with
  | nil =>
      intro pre cur count data hs hcur
      subst hs
      simp only [splitStringLoop, List.append_nil, List.drop_left, List.count_nil, Nat.add_zero,
        List.length_append, Nat.le_add_right, and_true]
      rw [List.splitOn_eq_singleton hcur]
  | cons c rest ih =>
      intro pre cur count data hs hcur
      -- the piece the callback gets is `cur`, as a C string
      have hpiece : cStr ((s.drop pre.length).take (pre.length + cur.length - pre.length)) = cur := by
        have hcur0 : '\x00' ∉ cur := fun h => hnul (by rw [hs]; simp [h])
        rw [hs, List.append_assoc, List.drop_left, Nat.add_sub_cancel_left, List.take_left,
          cStr_of_not_mem hcur0]
      by_cases hc : c = sep
      · subst hc
        have hs' : s = (pre ++ cur ++ [c]) ++ [] ++ rest := by simp [hs]
        obtain ⟨h1, h2, h3⟩ := ih (pre ++ cur ++ [c]) [] (count + 1)
          (data ++ [cur]) hs' List.not_mem_nil
        simp only [List.length_append, List.length_singleton, List.length_nil,
          Nat.add_zero] at h1 h2 h3
        simp only [splitStringLoop, if_true, fnSplitStringArray, Option.getD_some, hpiece]
        refine ⟨?_, ?_, h3⟩
        · rw [h1, List.nil_append, List.splitOn_append_cons_self, List.splitOn_eq_singleton hcur,
            List.append_assoc, List.singleton_append]
        · rw [h2, List.count_cons_self]
          omega
      · have hs' : s = pre ++ (cur ++ [c]) ++ rest := by simp [hs]
        have hcur' : sep ∉ cur ++ [c] := by
          simp only [List.mem_append, List.mem_singleton, not_or]
          exact ⟨hcur, Ne.symm hc⟩
        obtain ⟨h1, h2, h3⟩ := ih pre (cur ++ [c]) count data hs' hcur'
        simp only [List.length_append, List.length_singleton, ← Nat.add_assoc] at h1 h2 h3
        simp only [splitStringLoop, if_neg hc]
        refine ⟨?_, ?_, h3⟩
        · rw [h1, List.append_assoc, List.singleton_append]
        · rw [h2, List.count_cons_of_ne hc]

/-- `split_string_array` appends the pieces of the C string between its separators, one more
than there are separators, and returns their number. -/
theorem splitStringArray_eq (str : List Char) (sep : Char) (arr : List (List Char)) :
    splitStringArray str sep arr = (((cStr str).count sep : ℤ) + 1, arr ++ splitString str sep) := by
  obtain ⟨h1, h2, h3⟩ := splitStringLoop_spec (not_mem_cStr str) sep (cStr str) [] [] 0 arr
    (by simp) List.not_mem_nil
  simp only [List.length_nil, Nat.add_zero, List.nil_append, Nat.zero_add] at h1 h2 h3
  have hlen : ¬ ((cStr str).length : ℤ) -
      ((splitStringLoop fnSplitStringArray (cStr str) sep (cStr str) 0 (0, 0, arr)).1 : ℤ) < 0 := by
    omega
  simp only [splitStringArray, splitStringWith, hlen, if_false, fnSplitStringArray]
  rw [List.take_of_length_le (by simp), cStr_of_not_mem (fun h => not_mem_cStr str
    (List.mem_of_mem_drop h)), h1, h2, splitString]

/-- Empty pieces before, between and after separators are kept. -/
example : splitStringArray [',', 'a', ',', ',', 'b', ','] ',' [['x']] =
    (5, [['x'], [], ['a'], [], ['b'], []]) := by decide

/-! ## The pieces of `List.splitOn` -/

section SplitOn

variable {α : Type*} [DecidableEq α] (a : α)

theorem length_splitOn (xs : List α) : (xs.splitOn a).length = xs.count a + 1 := by
  induction xs with
  | nil => simp
  | cons x xs ih =>
      rw [List.splitOn_cons_eq_if_modifyHead]
      by_cases hx : x = a
      · subst hx
        simp [ih]
      · rw [if_neg (by simpa using hx), List.length_modifyHead, ih, List.count_cons_of_ne hx]

theorem not_mem_of_mem_splitOn {xs p : List α} (hp : p ∈ xs.splitOn a) : a ∉ p := by
  induction xs generalizing p with
  | nil =>
      rw [List.splitOn_nil, List.mem_singleton] at hp
      subst hp
      exact List.not_mem_nil
  | cons x xs ih =>
      rw [List.splitOn_cons_eq_if_modifyHead] at hp
      by_cases hx : x = a
      · rw [if_pos (by simpa using hx), List.mem_cons] at hp
        rcases hp with rfl | hp
        · exact List.not_mem_nil
        · exact ih hp
      · rw [if_neg (by simpa using hx)] at hp
        -- the first piece gets `x` in front, the others are pieces of `xs`
        obtain ⟨hd, tl, htl⟩ := List.exists_cons_of_ne_nil (List.splitOn_ne_nil a xs)
        rw [htl, List.modifyHead_cons, List.mem_cons] at hp
        rcases hp with rfl | hp
        · rw [List.mem_cons, not_or]
          exact ⟨Ne.symm hx, ih (by rw [htl]; exact List.mem_cons_self)⟩
        · exact ih (by rw [htl]; exact List.mem_cons_of_mem hd hp)

end SplitOn

theorem split_string_array_pieces (str : List Char) (sep : Char) (arr : List (List Char)) :
    ∃ pieces, (splitStringArray str sep arr).2 = arr ++ pieces ∧
      pieces.length = (cStr str).count sep + 1 ∧
      (splitStringArray str sep arr).1 = (cStr str).count sep + 1 ∧
      (∀ p ∈ pieces, sep ∉ p) ∧ [sep].intercalate pieces = cStr str := by
  refine ⟨splitString str sep, ?_, ?_, ?_, ?_, ?_⟩
  · rw [splitStringArray_eq]
  · rw [splitString, length_splitOn]
  · rw [splitStringArray_eq]
  · intro p hp
    exact not_mem_of_mem_splitOn sep hp
  · rw [splitString, List.intercalate_splitOn]

/-! ## `is_number` against its grammar -/

/-- The grammar `[+-]?[0-9]+`: an optional sign, then at least one decimal digit. -/
def numberSyntax : List Char → Bool
  | [] => false
  | c :: ds =>
      if c = '+' ∨ c = '-' then !ds.isEmpty && ds.all Char.isDigit
      else (c :: ds).all Char.isDigit

/-- `is_number` decides the grammar on the first `MAX_64BIT_DIGITS` characters of the string
only. -/
theorem isNumber_eq_numberSyntax (ptr : List Char) :
    isNumber ptr = numberSyntax ((cStr ptr).take max64bitDigits) := by
  unfold isNumber
  generalize cStr ptr = p
  cases p with
  | nil => rfl
  | cons c ds =>
      dsimp only
      rw [max64bitDigits, List.take_succ_cons, List.head?_cons]
      by_cases hs : c = '+' ∨ c = '-'
      · have hoff : (some c = some '-' ∨ some c = some '+') := by
          rcases hs with rfl | rfl <;> simp
        rw [if_pos hoff, List.drop_succ_cons, List.drop_zero]
        -- a lone sign is refused before the loop
        cases ds with
        | nil => simp [numberSyntax, hs]
        | cons d ds => simp [numberSyntax, hs, List.all_eq]
      · have hoff : ¬ (some c = some '-' ∨ some c = some '+') := by
          simp only [Option.some.injEq]
          tauto
        rw [if_neg hoff, List.drop_zero]
        simp [numberSyntax, hs, List.all_eq]

/-- A number of the grammar holds digits and signs only. -/
theorem mem_of_numberSyntax : ∀ {s : List Char}, numberSyntax s = true → ∀ c ∈ s,
    c.isDigit = true ∨ c = '+' ∨ c = '-'
  | [], h, _, _ => absurd h (by decide)
  | d :: ds, h, c, hc => by
      rw [numberSyntax] at h
      split_ifs at h with hs
      · -- a sign, then digits
        rcases List.mem_cons.1 hc with rfl | hc
        · exact .inr hs
        · rw [Bool.and_eq_true] at h
          exact .inl (List.all_eq_true.1 h.2 c hc)
      · exact .inl (List.all_eq_true.1 h c hc)

/-- Whatever follows `MAX_64BIT_DIGITS` digits, `is_number` accepts the string. -/
theorem isNumber_digits_append {ds : List Char} (hlen : ds.length = max64bitDigits)
    (hdig : ∀ c ∈ ds, c.isDigit = true) (tail : List Char) : isNumber (ds ++ tail) = true := by
  have hnul : '\x00' ∉ ds := fun h => by simpa using hdig _ h
  rw [isNumber_eq_numberSyntax, cStr_append_of_not_mem hnul, List.take_left' hlen]
  cases ds with
  | nil => simp [max64bitDigits] at hlen
  | cons c ds =>
      have hc : c.isDigit = true := hdig c List.mem_cons_self
      -- a digit is no sign, so the whole run is read as digits
      have hsign : ¬ (c = '+' ∨ c = '-') := by
        rintro (rfl | rfl) <;> simp at hc
      simp only [numberSyntax, if_neg hsign, List.all_eq_true]
      exact hdig

theorem is_number_accepts_digits_then_letter :
    isNumber "1234567890123456789a".toList = true ∧
      numberSyntax "1234567890123456789a".toList = false := by
  refine ⟨?_, by decide⟩
  -- nineteen digits, then a letter the loop never reaches
  have hsplit : "1234567890123456789a".toList = "1234567890123456789".toList ++ ['a'] := by
    decide
  rw [hsplit]
  exact isNumber_digits_append (by decide) (List.all_eq_true.1 (by decide)) ['a']

/-! ## `hex2num` -/

/-- `hex2num`: the value of a hexadecimal digit of either case, `-1` for any other
character. -/
def hex2num (c : Char) : ℤ :=
  if c ≥ '0' ∧ c ≤ '9' then c.toNat - '0'.toNat
  else if c ≥ 'a' ∧ c ≤ 'f' then c.toNat - 'a'.toNat + 10
  else if c ≥ 'A' ∧ c ≤ 'F' then c.toNat - 'A'.toNat + 10
  else -1

/-- The sixteen lowercase digits `%x` writes. -/
def hexDigitsLower : List Char := "0123456789abcdef".toList

/-- The sixteen uppercase digits `%X` writes. -/
def hexDigitsUpper : List Char := "0123456789ABCDEF".toList

/-- Each digit either case writes reads back as its value. -/
theorem hex2num_hexDigits (upper : Bool) (v : Fin 16) :
    hex2num ((if upper then hexDigitsUpper else hexDigitsLower).getD v '0') = v := by
  cases upper <;> revert v <;> decide

end Os

end EdgeSec
