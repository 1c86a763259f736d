import EdgeSec.Utils.Os

/-!
# IPv4 address strings

`validate_ipv4_string` and `ip4_2_buf` (`src/utils/net.c`) check and convert the dotted IPv4
strings that reach the supervisor and the firewall.  Both rest on the C library's
`inet_pton(AF_INET, ...)`, modelled by `inetPton4` as the GNU C library's `inet_pton4`
computes it: a character loop that accepts four decimal octets, each at most `255` and
without a leading zero, separated by single dots.

`ip4_2_buf` validates the string and then converts the whole of it, netmask included; when
the conversion fails (a string with a netmask) its `struct in_addr` stays as the stack left
it, and the bytes it then returns are given here as the argument `stale`.

## Main results

* `inetPton4_dotted`: a dotted quad written from four octets converts back to them;
* `validateIpv4String_dotted`, `ip4ToBuf_dotted`: such a string is valid, and `ip4_2_buf`
  gives its octets;
* `length_le_of_validateIpv4String`: a valid string has at most eighteen characters, so
  `os_strlcpy` into an `OS_INET_ADDRSTRLEN` buffer keeps it whole
  (`osStrlcpy_of_validateIpv4String`) and never turns an invalid string into a valid one
  (`validateIpv4String_osStrlcpy`).
* `edgeHwaddrAton2_groups`: `edge_hwaddr_aton2` reads six groups of two hex digits, in
  either case and each after any run of `:`, `.` or `-`, as their bytes, and returns how many
  characters it read; `edgeHwaddrAton2_bad_digit`: a group that is not two hex digits makes
  it return `-1`; `edgeHwaddrAton2_macStr`: it reads back every `MACSTR` text;
* `inetNetwork_dotted`: `inet_network`, which also reads octal and hexadecimal parts and
  fewer than four of them, reads every dotted quad as its octets;
* `getShortSubnet_maskOctets`: `get_short_subnet` gives the prefix length of every netmask
  `/0` to `/31`, and `255` for `255.255.255.255`, which `inet_network` cannot tell from its
  error value `INADDR_NONE`.
-/

namespace EdgeSec

namespace Net

/-- `OS_INET_ADDRSTRLEN`. -/
def osInetAddrstrlen : ℕ := 22

/-! ## `inet_pton4` -/

/-- The state of `inet_pton4` between two characters: whether the current octet has a digit,
how many octets were started, the octets before the current one, and the current one
(`*tp`). -/
structure Pton4State where
  sawDigit : Bool
  octets : ℕ
  done : List ℕ
  cur : ℕ
  deriving Repr, DecidableEq

/-- `saw_digit = 0; octets = 0; *(tp = tmp) = 0`. -/
def pton4Start : Pton4State := ⟨false, 0, [], 0⟩

/-- One character of the `inet_pton4` loop; `none` is its `return 0`. -/
def pton4Step (st : Pton4State) (ch : Char) : Option Pton4State :=
  if ch.isDigit then
    let new := st.cur * 10 + (ch.toNat - '0'.toNat)
    if st.sawDigit ∧ st.cur = 0 then none
    else if 255 < new then none
    else if st.sawDigit then some { st with cur := new }
    else if 4 < st.octets + 1 then none
    else some { st with cur := new, octets := st.octets + 1, sawDigit := true }
  else if ch = '.' ∧ st.sawDigit then
    if st.octets = 4 then none
    else some { st with done := st.done ++ [st.cur], cur := 0, sawDigit := false }
  else none

/-- `inet_pton(AF_INET, src, dst)`: the four octets, or `none` for its `0` (it does not
return `-1` for `AF_INET`).  Four octets started means three dots seen, so the final match
has four entries. -/
def inetPton4 (src : List Char) : Option (Vector UInt8 4) := do
  let st ← src.foldlM pton4Step pton4Start
  if st.octets < 4 then none
  else
    match st.done ++ [st.cur] with
    | [a, b, c, d] => some #v[a.toUInt8, b.toUInt8, c.toUInt8, d.toUInt8]
    | _ => none

/-! ## `validate_ipv4_string` and `ip4_2_buf` -/

/-- `validate_ipv4_string`: with a `/`, a netmask of one or two characters that is a number at
most `32` and an address before it; without, the address (as `os_strlcpy` cuts it to the
buffer).  The address part is copied with a bound of its own length plus one, which for an
address part longer than the buffer writes past it; the model takes the part whole. -/
def validateIpv4String (ip : List Char) : Bool :=
  match ip.idxOf? '/' with
  | some ipLen =>
      let netmask := ip.drop (ipLen + 1)
      if 2 < netmask.length ∨ netmask.length < 1 then false
      else if !Os.isNumber netmask then false
      else if 32 < (Os.strtol netmask).value then false
      else (inetPton4 (Os.osStrlcpy ip (ipLen + 1))).isSome
  | none => (inetPton4 (Os.osStrlcpy ip osInetAddrstrlen)).isSome

/-- `ip4_2_buf`: `none` is its `-1`.  A valid string is converted whole; when that fails the
stale bytes of the uninitialised address are returned. -/
def ip4ToBuf (ip : List Char) (stale : Vector UInt8 4) : Option (Vector UInt8 4) :=
  if validateIpv4String ip then some ((inetPton4 ip).getD stale) else none

/-! ## Dotted quads -/

/-- `IPSTR` ("%d.%d.%d.%d") applied to four octets. -/
def dotted (buf : Vector UInt8 4) : String :=
  toString buf[0].toNat ++ "." ++ toString buf[1].toNat ++ "." ++ toString buf[2].toNat ++ "." ++
    toString buf[3].toNat

/-! ## Octets written in decimal convert back -/

/-- The digits of an octet, read from a state between two octets, make it the current one. -/
theorem foldlM_pton4Step_toDigits (n : ℕ) (hn : n < 256) (st : Pton4State)
    (hsaw : st.sawDigit = false) (hcur : st.cur = 0) (hoct : st.octets < 4) :
    (Nat.toDigits 10 n).foldlM pton4Step st =
      some { st with cur := n, octets := st.octets + 1, sawDigit := true } := by
  induction n using Nat.strong_induction_on with
  | _ n ih =>
      by_cases hsmall : n < 10
      · -- one digit: it starts the octet
        rw [Nat.toDigits_of_lt_base hsmall]
        simp only [List.foldlM_cons, List.foldlM_nil, bind_pure]
        have hdig : (Nat.digitChar n).isDigit = true := by
          rw [Nat.isDigit_digitChar]
          exact decide_eq_true hsmall
        have hval : (Nat.digitChar n).toNat - '0'.toNat = n :=
          Nat.toNat_digitChar_sub_48_of_lt_ten hsmall
        simp only [pton4Step, hdig, if_true, hval, hcur, hsaw, Nat.zero_mul, Nat.zero_add]
        rw [if_neg (by simp), if_neg (by omega), if_neg (by simp), if_neg (by omega)]
      · -- more digits: the leading ones make `n / 10`, the last one extends it
        rw [Nat.toDigits_of_base_le (by omega) (by omega), List.foldlM_append,
          ih (n / 10) (by omega) (by omega), Option.bind_eq_bind, Option.bind_some]
        simp only [List.foldlM_cons, List.foldlM_nil, bind_pure]
        have hdig : (Nat.digitChar (n % 10)).isDigit = true := by
          rw [Nat.isDigit_digitChar]
          exact decide_eq_true (Nat.mod_lt _ (by omega))
        have hval : (Nat.digitChar (n % 10)).toNat - '0'.toNat = n % 10 :=
          Nat.toNat_digitChar_sub_48_of_lt_ten (Nat.mod_lt _ (by omega))
        have hne : n / 10 ≠ 0 := by omega
        simp only [pton4Step, hdig, if_true, hval]
        rw [if_neg (by simp [hne]), if_neg (by omega), Nat.div_add_mod' n 10]

/-- An octet and the dot after it: the octet is done, and the next one starts fresh. -/
theorem foldlM_pton4Step_octet_dot (n : ℕ) (hn : n < 256) (st : Pton4State)
    (hsaw : st.sawDigit = false) (hcur : st.cur = 0) (hoct : st.octets < 3) (rest : List Char) :
    (Nat.toDigits 10 n ++ '.' :: rest).foldlM pton4Step st =
      rest.foldlM pton4Step { st with done := st.done ++ [n], octets := st.octets + 1 } := by
  rw [List.foldlM_append, foldlM_pton4Step_toDigits n hn st hsaw hcur (by omega),
    Option.bind_eq_bind, Option.bind_some, List.foldlM_cons]
  have hdot : pton4Step { st with cur := n, octets := st.octets + 1, sawDigit := true } '.' =
      some { st with done := st.done ++ [n], octets := st.octets + 1 } := by
    obtain ⟨saw, oct, done, cur⟩ := st
    simp only at hsaw hcur hoct ⊢
    subst hsaw hcur
    rw [pton4Step, if_neg (by decide), if_pos ⟨rfl, rfl⟩]
    dsimp only
    rw [if_neg (by omega)]
  rw [hdot, Option.bind_eq_bind, Option.bind_some]

/-- The characters of a dotted quad: the four numerals and the dots between them. -/
theorem toList_dotted (buf : Vector UInt8 4) : (dotted buf).toList = Nat.toDigits 10 buf[0].toNat ++
    '.' :: (Nat.toDigits 10 buf[1].toNat ++ '.' :: (Nat.toDigits 10 buf[2].toNat ++ '.' ::
      Nat.toDigits 10 buf[3].toNat)) := by
  simp [dotted, String.toList_append]

/-- The dotted quad of four octets converts back to them. -/
theorem inetPton4_dotted (buf : Vector UInt8 4) : inetPton4 (dotted buf).toList = some buf := by
  have hlist := toList_dotted buf
  have hfold : (dotted buf).toList.foldlM pton4Step pton4Start =
      some ⟨true, 4, [buf[0].toNat, buf[1].toNat, buf[2].toNat], buf[3].toNat⟩ := by
    rw [hlist, foldlM_pton4Step_octet_dot _ buf[0].toNat_lt _ rfl rfl (by simp [pton4Start]),
      foldlM_pton4Step_octet_dot _ buf[1].toNat_lt _ rfl rfl (by simp [pton4Start]),
      foldlM_pton4Step_octet_dot _ buf[2].toNat_lt _ rfl rfl (by simp [pton4Start]),
      foldlM_pton4Step_toDigits _ buf[3].toNat_lt _ rfl rfl (by simp [pton4Start])]
    rfl
  rw [inetPton4, hfold, Option.bind_eq_bind, Option.bind_some, if_neg (Nat.lt_irrefl 4)]
  simp only [List.cons_append, List.nil_append]
  refine congrArg some ?_
  apply Vector.ext
  intro i hi
  interval_cases i <;> simp

theorem slash_not_mem_toDigits (n : ℕ) : '/' ∉ Nat.toDigits 10 n := by
  intro h
  simpa using Nat.isDigit_of_mem_toDigits (by decide) (by decide) h

theorem nul_not_mem_toDigits (n : ℕ) : '\x00' ∉ Nat.toDigits 10 n := by
  intro h
  simpa using Nat.isDigit_of_mem_toDigits (by decide) (by decide) h

/-- An octet has at most three decimal digits. -/
theorem length_toDigits_octet (x : UInt8) : (Nat.toDigits 10 x.toNat).length ≤ 3 :=
  (Nat.length_toDigits_le_iff (by decide) (by decide)).2 (by have := x.toNat_lt; omega)

theorem nul_not_mem_dotted (buf : Vector UInt8 4) : '\x00' ∉ (dotted buf).toList := by
  rw [toList_dotted]
  simp [nul_not_mem_toDigits]

/-- A dotted quad is a valid IPv4 string: it has no netmask and fits the buffer. -/
theorem validateIpv4String_dotted (buf : Vector UInt8 4) :
    validateIpv4String (dotted buf).toList = true := by
  have hslash : '/' ∉ (dotted buf).toList := by
    rw [toList_dotted]
    simp [slash_not_mem_toDigits]
  have hnul := nul_not_mem_dotted buf
  have hlen : (dotted buf).toList.length ≤ osInetAddrstrlen - 1 := by
    have h0 := length_toDigits_octet buf[0]
    have h1 := length_toDigits_octet buf[1]
    have h2 := length_toDigits_octet buf[2]
    have h3 := length_toDigits_octet buf[3]
    rw [toList_dotted]
    simp only [List.length_append, List.length_cons]
    unfold osInetAddrstrlen
    omega
  rw [validateIpv4String, List.idxOf?_eq_none_iff.2 hslash]
  dsimp only
  rw [Os.osStrlcpy, Os.cStr_of_not_mem hnul, List.take_of_length_le hlen, inetPton4_dotted]
  rfl

/-- `ip4_2_buf` on a dotted quad gives its octets. -/
theorem ip4ToBuf_dotted (buf stale : Vector UInt8 4) :
    ip4ToBuf (dotted buf).toList stale = some buf := by
  rw [ip4ToBuf, if_pos (validateIpv4String_dotted buf), inetPton4_dotted]
  rfl

/-! ## A valid address string is short -/

/-- How many characters the octets seen so far account for at most: four for each finished
octet with its dot, and the digits of the current one (a value below `256` without a leading
zero has at most three). -/
def pton4Width (st : Pton4State) : ℕ :=
  4 * st.done.length +
    if st.sawDigit then (if st.cur < 10 then 1 else if st.cur < 100 then 2 else 3) else 0

/-- Every character `inet_pton4` accepts raises the width by at least one. -/
theorem pton4Width_step {st st' : Pton4State} {ch : Char} (h : pton4Step st ch = some st') :
    pton4Width st + 1 ≤ pton4Width st' := by
  unfold pton4Step at h
  dsimp only at h
  split_ifs at h with hdig hzero hbig hsaw hoct hdot hfull <;> cases h
  · -- a further digit of the current octet: that octet is not `0`, so it gains a digit
    have hcur : st.cur ≠ 0 := fun h0 => hzero ⟨hsaw, h0⟩
    simp only [pton4Width, hsaw, if_true]
    split_ifs <;> omega
  · simp only [pton4Width, hsaw, Bool.false_eq_true, if_false, if_true]
    split_ifs <;> omega
  · -- a dot closes the octet
    simp only [pton4Width, List.length_append, List.length_singleton, hdot.2, if_true,
      Bool.false_eq_true, if_false]
    split_ifs <;> omega

/-- The characters of an accepted run are bounded by the width they reach. -/
theorem pton4Width_foldlM (s : List Char) {st st' : Pton4State}
    (h : s.foldlM pton4Step st = some st') : pton4Width st + s.length ≤ pton4Width st' := by
  induction s generalizing st with
  | nil =>
      cases h
      simp
  | cons ch s ih =>
      rw [List.foldlM_cons] at h
      obtain ⟨mid, hmid, hrest⟩ := Option.bind_eq_some_iff.1 h
      have h1 := pton4Width_step hmid
      have h2 := ih hrest
      simp only [List.length_cons]
      omega

/-- An address `inet_pton` accepts has at most fifteen characters. -/
theorem length_le_of_inetPton4 {src : List Char} {v : Vector UInt8 4} (h : inetPton4 src = some v) :
    src.length ≤ 15 := by
  unfold inetPton4 at h
  obtain ⟨st, hfold, hst⟩ := Option.bind_eq_some_iff.1 h
  have hw := pton4Width_foldlM src hfold
  split_ifs at hst
  -- the final match has four entries: three octets done and the current one
  have hdone : st.done.length = 3 := by
    split at hst
    · rename_i a b c d heq
      have := congrArg List.length heq
      simp at this
      omega
    · cases hst
  have hstart : pton4Width pton4Start = 0 := rfl
  have hcur : pton4Width st ≤ 15 := by
    unfold pton4Width
    rw [hdone]
    split_ifs <;> omega
  omega

/-- A valid address string has at most eighteen characters: an address of at most fifteen,
and a netmask of at most two after its `/`. -/
theorem length_le_of_validateIpv4String {ip : List Char} (h : validateIpv4String ip = true)
    (hnul : '\x00' ∉ ip) : ip.length ≤ 18 := by
  unfold validateIpv4String at h
  split at h
  · rename_i ipLen hidx
    obtain ⟨hlt, hslash, -⟩ := List.idxOf?_eq_some_iff.1 hidx
    dsimp only at h
    split_ifs at h with hmask
    obtain ⟨v, hv⟩ := Option.isSome_iff_exists.1 h
    rw [Os.osStrlcpy, Os.cStr_of_not_mem hnul, Nat.add_sub_cancel] at hv
    have haddr := length_le_of_inetPton4 hv
    rw [List.length_take, Nat.min_eq_left hlt.le] at haddr
    have hnet : (ip.drop (ipLen + 1)).length ≤ 2 := by omega
    rw [List.length_drop] at hnet
    omega
  · obtain ⟨v, hv⟩ := Option.isSome_iff_exists.1 h
    rw [Os.osStrlcpy, Os.cStr_of_not_mem hnul] at hv
    have haddr := length_le_of_inetPton4 hv
    rw [List.length_take] at haddr
    unfold osInetAddrstrlen at haddr
    omega

/-- Every character `inet_pton4` accepts is a digit or a dot. -/
theorem isDigit_or_dot_of_foldlM {st st' : Pton4State} :
    ∀ {s : List Char}, s.foldlM pton4Step st = some st' → ∀ c ∈ s, c.isDigit ∨ c = '.'
  | [], _, c, hc => absurd hc List.not_mem_nil
  | ch :: s, h, c, hc => by
      rw [List.foldlM_cons] at h
      obtain ⟨mid, hmid, hrest⟩ := Option.bind_eq_some_iff.1 h
      rcases List.mem_cons.1 hc with rfl | hc
      · unfold pton4Step at hmid
        by_cases hd : c.isDigit
        · exact .inl hd
        · rw [if_neg hd] at hmid
          split_ifs at hmid with hdot
          · exact .inr hdot.1
      · exact isDigit_or_dot_of_foldlM hrest c hc

theorem isDigit_or_dot_of_inetPton4 {s : List Char} {b : Vector UInt8 4}
    (h : inetPton4 s = some b) : ∀ c ∈ s, c.isDigit ∨ c = '.' := by
  unfold inetPton4 at h
  obtain ⟨st, hfold, -⟩ := Option.bind_eq_some_iff.1 h
  exact isDigit_or_dot_of_foldlM hfold

/-- Every character of a valid address string is a digit, a dot, the `/` before its netmask,
or a sign that `is_number` lets through in the netmask. -/
theorem mem_of_validateIpv4String {ip : List Char} (h : validateIpv4String ip = true)
    (hnul : '\x00' ∉ ip) {c : Char} (hc : c ∈ ip) :
    c.isDigit = true ∨ c = '.' ∨ c = '/' ∨ c = '+' ∨ c = '-' := by
  have hlen := length_le_of_validateIpv4String h hnul
  unfold validateIpv4String at h
  split at h
  · rename_i ipLen hidx
    obtain ⟨hlt, hslash, -⟩ := List.idxOf?_eq_some_iff.1 hidx
    dsimp only at h
    split_ifs at h with hmask hnum
    obtain ⟨v, hv⟩ := Option.isSome_iff_exists.1 h
    rw [Os.osStrlcpy, Os.cStr_of_not_mem hnul, Nat.add_sub_cancel] at hv
    -- the netmask is a number of the grammar: `is_number` reads it whole
    have hnet : Os.numberSyntax (ip.drop (ipLen + 1)) = true := by
      have hnum' : Os.isNumber (ip.drop (ipLen + 1)) = true := by simpa using hnum
      rwa [Os.isNumber_eq_numberSyntax,
        Os.cStr_of_not_mem fun hm => hnul (List.mem_of_mem_drop hm),
        List.take_of_length_le (by rw [Os.max64bitDigits]; omega)] at hnum'
    -- the address before the `/`, the `/`, and the netmask after it
    rw [← List.take_append_drop (ipLen + 1) ip, List.take_add_one,
      List.getElem?_eq_getElem hlt, hslash] at hc
    simp only [List.mem_append, Option.toList_some, List.mem_singleton] at hc
    rcases hc with (hc | rfl) | hc
    · rcases isDigit_or_dot_of_inetPton4 hv c hc with hd | hd
      · exact .inl hd
      · exact .inr (.inl hd)
    · exact .inr (.inr (.inl rfl))
    · rcases Os.mem_of_numberSyntax hnet c hc with hd | hd | hd
      · exact .inl hd
      · exact .inr (.inr (.inr (.inl hd)))
      · exact .inr (.inr (.inr (.inr hd)))
  · obtain ⟨v, hv⟩ := Option.isSome_iff_exists.1 h
    rw [Os.osStrlcpy, Os.cStr_of_not_mem hnul,
      List.take_of_length_le (by rw [osInetAddrstrlen]; omega)] at hv
    rcases isDigit_or_dot_of_inetPton4 hv c hc with hd | hd
    · exact .inl hd
    · exact .inr (.inl hd)

/-- `os_strlcpy` into an `OS_INET_ADDRSTRLEN` buffer keeps a valid address whole. -/
theorem osStrlcpy_of_validateIpv4String {ip : List Char} (h : validateIpv4String ip = true)
    (hnul : '\x00' ∉ ip) : Os.osStrlcpy ip osInetAddrstrlen = ip := by
  have hlen := length_le_of_validateIpv4String h hnul
  rw [Os.osStrlcpy, Os.cStr_of_not_mem hnul, List.take_of_length_le]
  unfold osInetAddrstrlen
  omega

/-- The copy `os_strlcpy` makes into an `OS_INET_ADDRSTRLEN` buffer is valid exactly when the
string is: what it cuts off is cut from a string too long to be valid. -/
theorem validateIpv4String_osStrlcpy {ip : List Char} (hnul : '\x00' ∉ ip) :
    validateIpv4String (Os.osStrlcpy ip osInetAddrstrlen) = validateIpv4String ip := by
  by_cases hlen : ip.length ≤ osInetAddrstrlen - 1
  · rw [Os.osStrlcpy, Os.cStr_of_not_mem hnul, List.take_of_length_le hlen]
  · -- the copy is the first 21 characters: neither it nor the string can be valid
    have hcopy : Os.osStrlcpy ip osInetAddrstrlen = ip.take (osInetAddrstrlen - 1) := by
      rw [Os.osStrlcpy, Os.cStr_of_not_mem hnul]
    have hnul' : '\x00' ∉ ip.take (osInetAddrstrlen - 1) :=
      fun hm => hnul (List.mem_of_mem_take hm)
    have hcopyLen : (ip.take (osInetAddrstrlen - 1)).length = osInetAddrstrlen - 1 := by
      rw [List.length_take]
      omega
    rw [hcopy, Bool.eq_iff_iff]
    constructor
    · intro hv
      have := length_le_of_validateIpv4String hv hnul'
      rw [hcopyLen] at this
      unfold osInetAddrstrlen at this
      omega
    · intro hv
      have := length_le_of_validateIpv4String hv hnul
      unfold osInetAddrstrlen at hlen
      omega

/-- The empty string, the value of a cleared slot, is not a valid address. -/
@[simp] theorem validateIpv4String_nil : validateIpv4String [] = false := by decide

/-! ## `edge_hwaddr_aton2` -/

/-- The separators `edge_hwaddr_aton2` skips before a group. -/
def isHwaddrSep (c : Char) : Bool := c = ':' || c = '.' || c = '-'

/-- The character at `pos` of a C string: its terminating NUL at and past its end. -/
def charAt (txt : List Char) (pos : ℕ) : Char := (Os.cStr txt).getD pos '\x00'

/-- `while (*pos == ':' || *pos == '.' || *pos == '-') pos++`, over the characters `rest`
from `pos` on. -/
def skipHwaddrSeps : List Char → ℕ → ℕ
  | c :: rest, pos => if isHwaddrSep c then skipHwaddrSeps rest (pos + 1) else pos
  | [], pos => pos

/-- The `for (i = 0; i < 6; i++)` loop of `edge_hwaddr_aton2`, with `n` groups still to read
from `pos` and the bytes written so far: skip separators, then two hex digits make a byte. -/
def hwaddrAton2Loop (txt : List Char) : ℕ → ℕ → List UInt8 → ℤ × List UInt8
  | 0, pos, addr => (pos, addr)
  | n + 1, pos, addr =>
      let pos := skipHwaddrSeps ((Os.cStr txt).drop pos) pos
      let a := Os.hex2num (charAt txt pos)
      if a < 0 then (-1, addr)
      else
        let b := Os.hex2num (charAt txt (pos + 1))
        if b < 0 then (-1, addr)
        else hwaddrAton2Loop txt n (pos + 2) (addr ++ [(a.toNat <<< 4 ||| b.toNat).toUInt8])

/-- `edge_hwaddr_aton2(txt, addr)`: the number of characters read (`pos - txt`), or `-1`, and
the bytes written to `addr`. -/
def edgeHwaddrAton2 (txt : List Char) : ℤ × List UInt8 := hwaddrAton2Loop txt 6 0 []

/-- One group of the text `edge_hwaddr_aton2` reads: a run of separators, then two hex
digits, each given by its value and its case. -/
structure HwaddrGroup where
  seps : List Char
  hi : Fin 16
  hiUpper : Bool
  lo : Fin 16
  loUpper : Bool
  deriving Repr, DecidableEq

/-- A hex digit of `%x` or `%X`. -/
def hexDigit (upper : Bool) (v : ℕ) : Char :=
  (if upper then Os.hexDigitsUpper else Os.hexDigitsLower).getD v '0'

namespace HwaddrGroup

/-- The characters of a group. -/
def text (g : HwaddrGroup) : List Char :=
  g.seps ++ [hexDigit g.hiUpper g.hi.val, hexDigit g.loUpper g.lo.val]

/-- The byte a group denotes. -/
def byte (g : HwaddrGroup) : UInt8 := (g.hi.val * 16 + g.lo.val).toUInt8

/-- Its separators are separators. -/
def SepsOk (g : HwaddrGroup) : Prop := ∀ c ∈ g.seps, isHwaddrSep c = true

end HwaddrGroup

/-- The text of a sequence of groups. -/
def hwaddrText (gs : List HwaddrGroup) : List Char := gs.flatMap HwaddrGroup.text

theorem hex2num_hexDigit (upper : Bool) (v : Fin 16) : Os.hex2num (hexDigit upper v.val) = v :=
  Os.hex2num_hexDigits upper v

theorem isHwaddrSep_hexDigit (upper : Bool) (v : Fin 16) :
    isHwaddrSep (hexDigit upper v.val) = false := by
  cases upper <;> revert v <;> decide

theorem hexDigit_ne_nul (upper : Bool) (v : Fin 16) : hexDigit upper v.val ≠ '\x00' := by
  cases upper <;> revert v <;> decide

/-- The run of separators is skipped up to the first character that is not one. -/
theorem skipHwaddrSeps_append {seps : List Char} (hseps : ∀ c ∈ seps, isHwaddrSep c = true)
    (rest : List Char) (hrest : ∀ c ∈ rest.head?, isHwaddrSep c = false) (pos : ℕ) :
    skipHwaddrSeps (seps ++ rest) pos = pos + seps.length := by
  induction seps generalizing pos with
  | nil =>
      cases rest with
      | nil => rfl
      | cons c rest => simp [skipHwaddrSeps, hrest c rfl]
  | cons c seps ih =>
      rw [List.cons_append, skipHwaddrSeps, if_pos (hseps c List.mem_cons_self),
        ih (fun d hd => hseps d (List.mem_cons_of_mem c hd))]
      simp only [List.length_cons]
      omega

/-- Two hex digits make the byte of the group. -/
theorem hexPair_byte (hi lo : Fin 16) :
    ((hi.val : ℤ).toNat <<< 4 ||| (lo.val : ℤ).toNat).toUInt8 = (hi.val * 16 + lo.val).toUInt8 := by
  rw [Int.toNat_natCast, Int.toNat_natCast, ← Nat.shiftLeft_add_eq_or_of_lt (by omega),
    Nat.shiftLeft_eq]

theorem charAt_of_drop {txt : List Char} {pos : ℕ} {l : List Char}
    (h : (Os.cStr txt).drop pos = l) (k : ℕ) : charAt txt (pos + k) = l.getD k '\x00' := by
  rw [charAt, List.getD_eq_getElem?_getD, List.getD_eq_getElem?_getD, ← h, List.getElem?_drop]

/-- Groups are read one after the other: each gives its byte, and the loop goes on after
it. -/
theorem hwaddrAton2Loop_append {txt : List Char} (gs : List HwaddrGroup)
    (hgs : ∀ g ∈ gs, g.SepsOk) (m pos : ℕ) (addr : List UInt8) (rest : List Char)
    (htxt : (Os.cStr txt).drop pos = hwaddrText gs ++ rest) :
    hwaddrAton2Loop txt (gs.length + m) pos addr =
      hwaddrAton2Loop txt m (pos + (hwaddrText gs).length) (addr ++ gs.map HwaddrGroup.byte) := by
  induction gs generalizing pos addr with
  | nil => simp [hwaddrText]
  | cons g gs ih =>
      have hg := hgs g List.mem_cons_self
      have hdrop : (Os.cStr txt).drop pos = g.seps ++ (hexDigit g.hiUpper g.hi.val ::
          hexDigit g.loUpper g.lo.val :: (hwaddrText gs ++ rest)) := by
        rw [htxt]
        simp [hwaddrText, HwaddrGroup.text]
      have hskip : skipHwaddrSeps ((Os.cStr txt).drop pos) pos = pos + g.seps.length := by
        rw [hdrop]
        exact skipHwaddrSeps_append hg _ (by simp [isHwaddrSep_hexDigit]) pos
      have hhi : charAt txt (pos + g.seps.length) = hexDigit g.hiUpper g.hi.val := by
        rw [charAt_of_drop hdrop]
        simp
      have hlo : charAt txt (pos + g.seps.length + 1) = hexDigit g.loUpper g.lo.val := by
        rw [Nat.add_assoc, charAt_of_drop hdrop]
        simp
      have hnext : (Os.cStr txt).drop (pos + g.seps.length + 2) = hwaddrText gs ++ rest := by
        rw [show pos + g.seps.length + 2 = pos + (g.seps.length + 2) by omega,
          ← List.drop_drop, hdrop]
        simp
      rw [List.length_cons, Nat.add_right_comm, hwaddrAton2Loop]
      simp only [hskip, hhi, hlo, hex2num_hexDigit, Int.natCast_nonneg, not_lt.2, if_false,
        hexPair_byte]
      rw [ih (fun g' hg' => hgs g' (List.mem_cons_of_mem g hg')) _ _ hnext]
      congr 1
      · simp [hwaddrText, HwaddrGroup.text]
        omega
      · simp [HwaddrGroup.byte]

theorem not_mem_hwaddrText (gs : List HwaddrGroup) (hgs : ∀ g ∈ gs, g.SepsOk) :
    '\x00' ∉ hwaddrText gs := by
  simp only [hwaddrText, List.mem_flatMap, HwaddrGroup.text, List.mem_append, List.mem_cons,
    List.not_mem_nil, or_false, not_exists, not_and]
  intro g hg hc
  rcases hc with hc | hc | hc
  · have := hgs g hg _ hc
    simp [isHwaddrSep] at this
  · exact hexDigit_ne_nul g.hiUpper g.hi hc.symm
  · exact hexDigit_ne_nul g.loUpper g.lo hc.symm

/-- Six groups, whatever follows them, are read as the six bytes they denote, and
`edge_hwaddr_aton2` returns the number of characters they take. -/
theorem edgeHwaddrAton2_groups (gs : List HwaddrGroup) (hlen : gs.length = 6)
    (hgs : ∀ g ∈ gs, g.SepsOk) (rest : List Char) :
    edgeHwaddrAton2 (hwaddrText gs ++ rest) =
      (((hwaddrText gs).length : ℤ), gs.map HwaddrGroup.byte) := by
  have htxt : (Os.cStr (hwaddrText gs ++ rest)).drop 0 = hwaddrText gs ++ Os.cStr rest := by
    rw [List.drop_zero, Os.cStr_append_of_not_mem (not_mem_hwaddrText gs hgs)]
  have h := hwaddrAton2Loop_append gs hgs 0 0 [] _ htxt
  rw [Nat.add_zero, hlen] at h
  unfold edgeHwaddrAton2
  rw [h, hwaddrAton2Loop, Nat.zero_add, List.nil_append]

/-- After complete groups and a run of separators, a character that is no hex digit where the
first or the second digit of the next group must stand makes `edge_hwaddr_aton2` return `-1`;
the end of the string reads as its NUL. -/
theorem edgeHwaddrAton2_bad_digit (gs : List HwaddrGroup) (hlen : gs.length < 6)
    (hgs : ∀ g ∈ gs, g.SepsOk) {seps : List Char} (hseps : ∀ c ∈ seps, isHwaddrSep c = true)
    (bad : List Char) (hsep : isHwaddrSep (charAt bad 0) = false)
    (hbad : Os.hex2num (charAt bad 0) < 0 ∨ Os.hex2num (charAt bad 1) < 0) :
    (edgeHwaddrAton2 (hwaddrText gs ++ seps ++ bad)).1 = -1 := by
  have hnul : '\x00' ∉ hwaddrText gs ++ seps := by
    simp only [List.mem_append, not_or]
    refine ⟨not_mem_hwaddrText gs hgs, fun h => ?_⟩
    simpa [isHwaddrSep] using hseps _ h
  have hcs : Os.cStr (hwaddrText gs ++ seps ++ bad) = hwaddrText gs ++ (seps ++ Os.cStr bad) := by
    rw [Os.cStr_append_of_not_mem hnul, List.append_assoc]
  have htxt : (Os.cStr (hwaddrText gs ++ seps ++ bad)).drop 0 =
      hwaddrText gs ++ (seps ++ Os.cStr bad) := by
    rw [List.drop_zero, hcs]
  obtain ⟨m, hm⟩ : ∃ m, 6 = gs.length + (m + 1) := ⟨5 - gs.length, by omega⟩
  unfold edgeHwaddrAton2
  rw [hm, hwaddrAton2Loop_append gs hgs _ 0 [] _ htxt, hwaddrAton2Loop]
  -- the separators after the groups are skipped, then the two digits are read from `bad`
  have hrest : (Os.cStr (hwaddrText gs ++ seps ++ bad)).drop (0 + (hwaddrText gs).length) =
      seps ++ Os.cStr bad := by
    rw [Nat.zero_add, hcs, List.drop_left]
  have hhead : ∀ c ∈ (Os.cStr bad).head?, isHwaddrSep c = false := by
    intro c hc
    rw [← hsep, charAt, List.getD_eq_getElem?_getD, ← List.head?_eq_getElem?,
      Option.mem_def.1 hc, Option.getD_some]
  have hskip := skipHwaddrSeps_append hseps _ hhead (0 + (hwaddrText gs).length)
  have hd0 : charAt (hwaddrText gs ++ seps ++ bad) (0 + (hwaddrText gs).length + seps.length) =
      charAt bad 0 := by
    rw [charAt_of_drop hrest, charAt, List.getD_eq_getElem?_getD, List.getD_eq_getElem?_getD,
      List.getElem?_append_right (le_refl _), Nat.sub_self]
  have hd1 : charAt (hwaddrText gs ++ seps ++ bad) (0 + (hwaddrText gs).length + seps.length + 1) =
      charAt bad 1 := by
    rw [Nat.add_assoc _ seps.length, charAt_of_drop hrest, charAt, List.getD_eq_getElem?_getD,
      List.getD_eq_getElem?_getD, List.getElem?_append_right (by omega), Nat.add_sub_cancel_left]
  simp only [hrest, hskip, hd0, hd1]
  rcases hbad with h0 | h1
  · rw [if_pos h0]
  · by_cases h0 : Os.hex2num (charAt bad 0) < 0
    · rw [if_pos h0]
    · rw [if_neg h0, if_pos h1]

/-! ## `MACSTR` -/

/-- Two hex digits of a byte, as `%02x` (or `%02X`) writes it. -/
def hex02 (upper : Bool) (b : UInt8) : List Char :=
  [hexDigit upper (b.toNat / 16), hexDigit upper (b.toNat % 16)]

/-- `MACSTR` with `MAC2STR(a)`: the six bytes in two hex digits each, `:` between them, in
lowercase (`%02x`) or uppercase (`%02X`). -/
def macStr (upper : Bool) (a : Vector UInt8 6) : List Char :=
  [':'].intercalate (a.toList.map (hex02 upper))

/-- The group a printed byte is read as, after the separators `seps`. -/
def byteGroup (upper : Bool) (seps : List Char) (b : UInt8) : HwaddrGroup :=
  ⟨seps, ⟨b.toNat / 16, Nat.div_lt_of_lt_mul (by simpa using b.toNat_lt)⟩, upper,
    ⟨b.toNat % 16, Nat.mod_lt _ (by decide)⟩, upper⟩

/-- The groups of a printed address: the first byte with no separator before it, each other
one after its `:`. -/
def macGroups (upper : Bool) : List UInt8 → List HwaddrGroup
  | [] => []
  | b :: bs => byteGroup upper [] b :: bs.map (byteGroup upper [':'])

theorem byte_byteGroup (upper : Bool) (seps : List Char) (b : UInt8) :
    (byteGroup upper seps b).byte = b := by
  simp [HwaddrGroup.byte, byteGroup, Nat.div_add_mod']

theorem intercalate_cons_eq_flatMap {α : Type*} (sep : α) (x : List α) (xs : List (List α)) :
    [sep].intercalate (x :: xs) = x ++ xs.flatMap (sep :: ·) := by
  induction xs generalizing x with
  | nil => simp
  | cons y ys ih =>
      rw [List.intercalate_cons_cons, ih]
      simp

/-- The printed address is the text of its groups. -/
theorem macStr_eq_hwaddrText (upper : Bool) (a : Vector UInt8 6) :
    macStr upper a = hwaddrText (macGroups upper a.toList) := by
  unfold macStr
  cases a.toList with
  | nil => rfl
  | cons b bs =>
      rw [List.map_cons, intercalate_cons_eq_flatMap, macGroups, hwaddrText, List.flatMap_cons]
      simp [List.flatMap_map, HwaddrGroup.text, byteGroup, hex02]

/-- What `MACSTR` prints, `edge_hwaddr_aton2` reads back: seventeen characters and the six
bytes. -/
theorem edgeHwaddrAton2_macStr (upper : Bool) (a : Vector UInt8 6) :
    edgeHwaddrAton2 (macStr upper a) = (17, a.toList) := by
  have hlen : (macGroups upper a.toList).length = 6 := by
    obtain ⟨⟨l⟩, hl⟩ := a
    match l, hl with
    | [_, _, _, _, _, _], _ => rfl
  have hseps : ∀ g ∈ macGroups upper a.toList, g.SepsOk := by
    intro g hg
    cases hbs : a.toList with
    | nil => simp [hbs, macGroups] at hg
    | cons b bs =>
        rw [hbs, macGroups, List.mem_cons, List.mem_map] at hg
        rcases hg with rfl | ⟨b', -, rfl⟩
        · intro c hc
          simp [byteGroup] at hc
        · intro c hc
          simp only [byteGroup, List.mem_singleton] at hc
          subst hc
          rfl
  have htext : (hwaddrText (macGroups upper a.toList)).length = 17 := by
    obtain ⟨⟨l⟩, hl⟩ := a
    match l, hl with
    | [_, _, _, _, _, _], _ => rfl
  have hbytes : (macGroups upper a.toList).map HwaddrGroup.byte = a.toList := by
    cases a.toList with
    | nil => rfl
    | cons b bs => simp [macGroups, byte_byteGroup, Function.comp_def]
  rw [macStr_eq_hwaddrText, ← List.append_nil (hwaddrText _),
    edgeHwaddrAton2_groups _ hlen hseps, htext, hbytes]
  rfl

theorem hwaddr_aton2_reads_groups :
    (∀ (upper : Bool) (a : Vector UInt8 6), edgeHwaddrAton2 (macStr upper a) = (17, a.toList)) ∧
      (∀ gs : List HwaddrGroup, gs.length = 6 → (∀ g ∈ gs, g.SepsOk) → ∀ rest : List Char,
        edgeHwaddrAton2 (hwaddrText gs ++ rest) =
          (((hwaddrText gs).length : ℤ), gs.map HwaddrGroup.byte)) ∧
      (∀ gs : List HwaddrGroup, gs.length < 6 → (∀ g ∈ gs, g.SepsOk) →
        ∀ seps : List Char, (∀ c ∈ seps, isHwaddrSep c = true) → ∀ bad : List Char,
        isHwaddrSep (charAt bad 0) = false →
        (Os.hex2num (charAt bad 0) < 0 ∨ Os.hex2num (charAt bad 1) < 0) →
        (edgeHwaddrAton2 (hwaddrText gs ++ seps ++ bad)).1 = -1) :=
  ⟨edgeHwaddrAton2_macStr, fun gs hlen hgs rest => edgeHwaddrAton2_groups gs hlen hgs rest,
    fun gs hlen hgs _ hseps bad hsep hbad =>
      edgeHwaddrAton2_bad_digit gs hlen hgs hseps bad hsep hbad⟩

/-- `00-1A.2b::3C-4d:5E`: groups after no separator, one, or two, with digits of both cases. -/
def mixedGroups : List HwaddrGroup :=
  [⟨[], 0, false, 0, false⟩, ⟨['-'], 1, true, 10, true⟩, ⟨['.'], 2, false, 11, false⟩,
    ⟨[':', ':'], 3, true, 12, true⟩, ⟨['-'], 4, false, 13, false⟩, ⟨[':'], 5, true, 14, true⟩]

theorem hwaddr_aton2_reads_mixed_groups :
    edgeHwaddrAton2 (hwaddrText mixedGroups ++ []) =
        (((hwaddrText mixedGroups).length : ℤ), mixedGroups.map HwaddrGroup.byte) ∧
      (edgeHwaddrAton2 (hwaddrText (mixedGroups.take 5) ++ [':'] ++ ['5', 'g'])).1 = -1 :=
  ⟨hwaddr_aton2_reads_groups.2.1 mixedGroups rfl
      (by simp [mixedGroups, HwaddrGroup.SepsOk, isHwaddrSep]) [],
    hwaddr_aton2_reads_groups.2.2 (mixedGroups.take 5) (by decide)
      (by simp [mixedGroups, HwaddrGroup.SepsOk, isHwaddrSep]) [':'] (by simp [isHwaddrSep])
      ['5', 'g'] (by decide) (Or.inr (by decide))⟩

/-! ## `get_short_subnet` -/

/-- `INADDR_NONE`. -/
def inaddrNone : UInt32 := 0xffffffff

/-- The four octets of an address as one host-order number. -/
def hostOrder (b : Vector UInt8 4) : UInt32 :=
  b.toList.foldl (fun acc x => (acc <<< 8) ||| x.toUInt32) 0

/-! ### `inet_network`

The GNU C library's `inet_network` (`inet/inet_net.c`) reads up to four parts separated by
dots, each in decimal, in octal after a leading `0` or in hexadecimal after `0x`, into a
`u_int32_t` that wraps; a part above `0xff`, a part without digits, a fifth part or a character
other than trailing white space gives `INADDR_NONE`.  The parts are then packed, the last one in
the low byte: `10.1` is `0x0a01`. -/

/-- `isspace` in the C locale. -/
def isCSpace (c : Char) : Bool :=
  c = ' ' || c = '\t' || c = '\n' || c = '\x0b' || c = '\x0c' || c = '\r'

/-- `isxdigit`. -/
def isXdigit (c : Char) : Bool :=
  c.isDigit || ('a' ≤ c && c ≤ 'f') || ('A' ≤ c && c ≤ 'F')

/-- The prefix of a part, from the label `again:`: a `0` sets `digit` and makes the part
octal, then an `x` or `X` clears `digit` and makes it hexadecimal.  The base, `digit`, and
the characters after the prefix. -/
def networkBase (cp : List Char) : UInt32 × Bool × List Char :=
  let (base, digit, cp) : UInt32 × Bool × List Char :=
    if cp.head? = some '0' then (8, true, cp.tail) else (10, false, cp)
  if cp.head? = some 'x' ∨ cp.head? = some 'X' then (16, false, cp.tail) else (base, digit, cp)

/-- The `while ((c = *cp) != 0)` loop of a part in base `base`: the value, whether a digit was
read, and the characters from the one that stopped it; `none` is the `INADDR_NONE` of an `8`
or a `9` in an octal part. -/
def networkDigits (base : UInt32) : List Char → UInt32 → Bool → Option (UInt32 × Bool × List Char)
  | [], val, digit => some (val, digit, [])
  | c :: cs, val, digit =>
      if c.isDigit then
        if base = 8 ∧ (c = '8' ∨ c = '9') then none
        else networkDigits base cs (val * base + (c.toNat - '0'.toNat).toUInt32) true
      else if base = 16 ∧ isXdigit c then
        networkDigits base cs ((val <<< 4) + (c.toLower.toNat + 10 - 'a'.toNat).toUInt32) true
      else some (val, digit, c :: cs)

/-- One part of `inet_network`: its prefix, then its digits. -/
def networkPart (cp : List Char) : Option (UInt32 × Bool × List Char) :=
  let (base, digit, cp) := networkBase cp
  networkDigits base cp 0 digit

/-- `for (val = 0, i = 0; i < n; i++) { val <<= 8; val |= parts[i] & 0xff; }`. -/
def combineParts (parts : List UInt32) : UInt32 :=
  parts.foldl (fun val part => (val <<< 8) ||| (part &&& 0xff)) 0

/-- `inet_network` from the label `again:`, with room for `room` more parts in `parts[4]` and
the parts stored so far.  With no room left every path of the part ends in `INADDR_NONE`: an
`8` or `9` in an octal part, no digit, or the `pp >= parts + 4` test.  The same test and
`val > 0xff` are made again after the trailing white space; they pass there as they passed
before it. -/
def inetNetworkParts : ℕ → List UInt32 → List Char → UInt32
  | 0, _, _ => inaddrNone
  | room + 1, parts, cp =>
      match networkPart cp with
      | none => inaddrNone
      | some (val, digit, cp) =>
          if !digit || 0xff < val then inaddrNone
          else if cp.head? = some '.' then inetNetworkParts room (parts ++ [val]) cp.tail
          else if (cp.dropWhile isCSpace).isEmpty then combineParts (parts ++ [val])
          else inaddrNone

/-- `inet_network(cp)`, on the C string `cp`. -/
def inetNetwork (cp : List Char) : UInt32 := inetNetworkParts 4 [] (Os.cStr cp)

/-! ### Dotted quads through `inet_network` -/

/-- A run of decimal digits in a decimal part: the loop reads all of them into the value. -/
theorem networkDigits_append_digits {ds : List Char} (hds : ∀ c ∈ ds, c.isDigit = true)
    (rest : List Char) (val : UInt32) (digit : Bool) :
    networkDigits 10 (ds ++ rest) val digit =
      networkDigits 10 rest (ds.foldl (fun v c => v * 10 + (c.toNat - '0'.toNat).toUInt32) val)
        (digit || !ds.isEmpty) := by
  induction ds generalizing val digit with
  | nil => simp
  | cons c ds ih =>
      have hc : c.isDigit = true := hds c List.mem_cons_self
      rw [List.cons_append, networkDigits, if_pos hc, if_neg fun h => absurd h.1 (by decide),
        ih fun d hd => hds d (List.mem_cons_of_mem _ hd)]
      simp

/-- Outside base sixteen the loop stops at the first character that is not a digit. -/
theorem networkDigits_of_not_digit {base : UInt32} (hbase : base ≠ 16) {c : Char}
    (hc : c.isDigit = false) (cs : List Char) (val : UInt32) (digit : Bool) :
    networkDigits base (c :: cs) val digit = some (val, digit, c :: cs) := by
  rw [networkDigits, if_neg (by simp [hc]), if_neg fun h => hbase h.1]

/-- The decimal digits of a number below `2 ^ 32` fold to it; the induction takes off the
last digit, as `Nat.toDigits` puts it on. -/
theorem foldl_toDigits (n : ℕ) (hn : n < 2 ^ 32) :
    (Nat.toDigits 10 n).foldl (fun v c => v * 10 + (c.toNat - '0'.toNat).toUInt32) 0 =
      n.toUInt32 := by
  induction n using Nat.strong_induction_on with
  | _ n ih =>
      have h48 : ('0' : Char).toNat = 48 := rfl
      by_cases hsmall : n < 10
      · rw [Nat.toDigits_of_lt_base hsmall, List.foldl_cons, List.foldl_nil, h48,
          Nat.toNat_digitChar_sub_48_of_lt_ten hsmall, zero_mul, zero_add]
      · rw [Nat.toDigits_of_base_le (by omega) (by omega), List.foldl_append,
          ih (n / 10) (by omega) (by omega), List.foldl_cons, List.foldl_nil, h48,
          Nat.toNat_digitChar_sub_48_of_lt_ten (Nat.mod_lt _ (by omega))]
        apply UInt32.toNat_inj.1
        simp only [UInt32.toNat_add, UInt32.toNat_mul, Nat.toUInt32_eq, UInt32.toNat_ofNat',
          UInt32.toNat_ofNat]
        omega

/-- The numeral of a positive number does not start with `0`. -/
theorem toDigits_head_ne_zero {n : ℕ} (hn : n ≠ 0) :
    ∃ c cs, Nat.toDigits 10 n = c :: cs ∧ c ≠ '0' := by
  induction n using Nat.strong_induction_on with
  | _ n ih =>
      by_cases hsmall : n < 10
      · refine ⟨Nat.digitChar n, [], Nat.toDigits_of_lt_base hsmall, fun h => hn ?_⟩
        have hval := Nat.toNat_digitChar_sub_48_of_lt_ten hsmall
        rw [h] at hval
        have h0 : ('0' : Char).toNat - 48 = 0 := rfl
        omega
      · obtain ⟨c, cs, hds, hc⟩ := ih (n / 10) (by omega) (by omega)
        refine ⟨c, cs ++ [Nat.digitChar (n % 10)], ?_, hc⟩
        rw [Nat.toDigits_of_base_le (by omega) (by omega), hds, List.cons_append]

/-- A part that starts with a digit other than `0` is decimal. -/
theorem networkBase_of_digit {c : Char} (hc : c.isDigit = true) (h0 : c ≠ '0') (cs : List Char) :
    networkBase (c :: cs) = (10, false, c :: cs) := by
  have hx : ¬ (c = 'x' ∨ c = 'X') := by
    rintro (rfl | rfl) <;> simp at hc
  simp [networkBase, h0, hx]

/-- A part `0` not followed by an `x` is octal, its `0` counted as a digit. -/
theorem networkBase_zero {cs : List Char} (hx : ∀ c ∈ cs.head?, c ≠ 'x' ∧ c ≠ 'X') :
    networkBase ('0' :: cs) = (8, true, cs) := by
  cases cs with
  | nil => rfl
  | cons c cs =>
      have hc := hx c rfl
      simp [networkBase, hc.1, hc.2]

theorem toNat_toUInt32_of_uint8 (x : UInt8) : x.toNat.toUInt32 = x.toUInt32 :=
  UInt32.toNat_inj.1 (by simp)

/-- One part of a dotted quad: the numeral of an octet, before a character that is neither a
digit nor an `x`. -/
theorem networkPart_octet (x : UInt8) {rest : List Char}
    (hrest : ∀ c ∈ rest.head?, c.isDigit = false ∧ c ≠ 'x' ∧ c ≠ 'X') :
    networkPart (Nat.toDigits 10 x.toNat ++ rest) = some (x.toUInt32, true, rest) := by
  have hstop : ∀ (base val : UInt32) (digit : Bool), base ≠ 16 →
      networkDigits base rest val digit = some (val, digit, rest) := by
    intro base val digit hbase
    cases rest with
    | nil => rfl
    | cons c cs => exact networkDigits_of_not_digit hbase (hrest c rfl).1 cs val digit
  by_cases hx : x.toNat = 0
  · -- `0` is an octal part with no digit after its prefix
    have hx0 : x.toUInt32 = 0 := by rw [← toNat_toUInt32_of_uint8, hx]; rfl
    rw [hx, show Nat.toDigits 10 0 = ['0'] from rfl, List.singleton_append, networkPart,
      networkBase_zero fun c hc => (hrest c hc).2, hx0]
    exact hstop 8 0 true (by decide)
  · -- any other octet is a decimal part read to its end
    obtain ⟨c, cs, hds, hc⟩ := toDigits_head_ne_zero hx
    have hdig : ∀ d ∈ Nat.toDigits 10 x.toNat, d.isDigit = true :=
      fun d hd => Nat.isDigit_of_mem_toDigits (by decide) (by decide) hd
    have hcdig : c.isDigit = true := hdig c (by rw [hds]; exact List.mem_cons_self)
    rw [networkPart, hds, List.cons_append, networkBase_of_digit hcdig hc]
    dsimp only
    rw [← List.cons_append, ← hds, networkDigits_append_digits hdig,
      foldl_toDigits _ (by have := x.toNat_lt; omega), toNat_toUInt32_of_uint8, hds]
    exact hstop 10 _ _ (by decide)

/-- No digit is above `0xff` once it is a `u_int32_t`. -/
theorem not_ff_lt_toUInt32 (x : UInt8) : ¬ (0xff : UInt32) < x.toUInt32 := by
  rw [UInt32.lt_iff_toNat_lt, UInt8.toNat_toUInt32]
  have := x.toNat_lt
  simp only [UInt32.reduceToNat]
  omega

/-- An octet and the dot after it: the part is stored and the next one read. -/
theorem inetNetworkParts_octet_dot (room : ℕ) (parts : List UInt32) (x : UInt8)
    (rest : List Char) :
    inetNetworkParts (room + 1) parts (Nat.toDigits 10 x.toNat ++ '.' :: rest) =
      inetNetworkParts room (parts ++ [x.toUInt32]) rest := by
  rw [inetNetworkParts, networkPart_octet x fun c hc => by
    rw [List.head?_cons, Option.mem_some_iff] at hc
    subst hc
    decide]
  simp [not_ff_lt_toUInt32]

/-- The last octet of the string: the parts are packed. -/
theorem inetNetworkParts_octet_last (room : ℕ) (parts : List UInt32) (x : UInt8) :
    inetNetworkParts (room + 1) parts (Nat.toDigits 10 x.toNat) =
      combineParts (parts ++ [x.toUInt32]) := by
  have hnil : ∀ c ∈ ([] : List Char).head?, c.isDigit = false ∧ c ≠ 'x' ∧ c ≠ 'X' :=
    fun c hc => by simp at hc
  have hpart := networkPart_octet x hnil
  rw [List.append_nil] at hpart
  rw [inetNetworkParts, hpart]
  simp [not_ff_lt_toUInt32]

theorem toUInt32_and_ff (x : UInt8) : x.toUInt32 &&& 0xff = x.toUInt32 := by
  apply UInt32.toNat_inj.1
  rw [UInt32.toNat_and, UInt8.toNat_toUInt32, show (0xff : UInt32).toNat = 2 ^ 8 - 1 from rfl,
    Nat.and_two_pow_sub_one_eq_mod, Nat.mod_eq_of_lt x.toNat_lt]

/-- `inet_network` reads a dotted quad as its octets, most significant first. -/
theorem inetNetwork_dotted (b : Vector UInt8 4) : inetNetwork (dotted b).toList = hostOrder b := by
  rw [inetNetwork, Os.cStr_of_not_mem (nul_not_mem_dotted b), toList_dotted,
    inetNetworkParts_octet_dot, inetNetworkParts_octet_dot, inetNetworkParts_octet_dot,
    inetNetworkParts_octet_last, hostOrder]
  obtain ⟨⟨l⟩, hl⟩ := b
  match l, hl with
  | [b0, b1, b2, b3], _ => simp [combineParts, toUInt32_and_ff]

/-- A leading `0` makes a part octal: `012` is ten. -/
example : inetNetwork "012.0.0.2".toList = 0x0a000002 := by decide

/-- The `for (int i = 0; i < 31; i++)` loop of `get_short_subnet`, with `n` iterations left:
count the bit of `addr` under `shift`, then move `shift` one bit down. -/
def shortSubnetLoop (addr : UInt32) : ℕ → UInt32 → UInt8 → UInt8
  | 0, _, shortMask => shortMask
  | n + 1, shift, shortMask =>
      shortSubnetLoop addr n (shift >>> 1)
        (if addr &&& shift ≠ 0 then shortMask + 1 else shortMask)

/-- `get_short_subnet`: thirty-one turns of the loop from the top bit down; the `-1` it
returns for a string `inet_network` refuses is `255` as a `uint8_t`. -/
def getShortSubnet (subnetMask : List Char) : UInt8 :=
  let addr := inetNetwork subnetMask
  if addr = inaddrNone then 255 else shortSubnetLoop addr 31 0x80000000 0

/-- The `"%s/%d"` address `ipgen_set_interface_ip` hands to `ip addr add`, as `snprintf`
leaves it in its `OS_INET_ADDRSTRLEN` buffer. -/
def ipgenLongip (ipAddr subnetMask : List Char) : List Char :=
  (ipAddr ++ '/' :: (toString (getShortSubnet subnetMask).toNat).toList).take
    (osInetAddrstrlen - 1)

/-- The subnet mask of prefix length `n`, as a number. -/
def prefixMask (n : ℕ) : ℕ := 2 ^ 32 - 2 ^ (32 - n)

/-- The four octets of the mask of prefix length `n`, most significant first. -/
def maskOctets (n : ℕ) : Vector UInt8 4 :=
  Vector.ofFn fun i : Fin 4 => (prefixMask n / 2 ^ (8 * (3 - i.val)) % 256).toUInt8

/-- On the dotted quad of a contiguous mask, `get_short_subnet` returns its prefix length up
to `/31`; the `/32` mask is `255.255.255.255`, which `inet_network` returns as
`INADDR_NONE`. -/
theorem getShortSubnet_maskOctets {n : ℕ} (hn : n ≤ 32) :
    getShortSubnet (dotted (maskOctets n)).toList = if n = 32 then 255 else n.toUInt8 := by
  have hmask : ∀ n < 33, (if hostOrder (maskOctets n) = inaddrNone then (255 : UInt8)
      else shortSubnetLoop (hostOrder (maskOctets n)) 31 0x80000000 0) =
        if n = 32 then 255 else n.toUInt8 := by
    decide
  rw [getShortSubnet, inetNetwork_dotted]
  exact hmask n (by omega)

/-- The mask `255.255.255.0` gives `24`. -/
theorem getShortSubnet_maskOctets_24 :
    24 ≤ 32 ∧
      getShortSubnet (dotted (maskOctets 24)).toList = if 24 = 32 then 255 else (24 : ℕ).toUInt8 :=
  ⟨by decide, getShortSubnet_maskOctets (by decide)⟩

theorem get_short_subnet_host_mask :
    getShortSubnet "255.255.255.255".toList = 255 ∧
      ipgenLongip "10.0.0.1".toList "255.255.255.255".toList = "10.0.0.1/255".toList ∧
      shortSubnetLoop 0xffffffff 31 0x80000000 0 = 31 := by
  decide

end Net

end EdgeSec
