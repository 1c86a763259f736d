import EdgeSec.Utils.Os

/-!
# Removing a lease from the dnsmasq lease file

`clear_dhcp_lease_entry` of `src/dhcp/dnsmasq.c` reads the lease file with `read_file_string`
(the whole file, with a NUL after it), finds the MAC address with `strstr`, walks back to the
start of its line and forward past the line's newline, and writes back what comes before the
line followed by what comes after it (`fprintf(fp, "%s%s", out, finish)`).

The function is modelled on the file content: `clearDhcpLeaseEntry mac content` is what it
writes back, `none` when it returns before opening the file for writing, which leaves the file
as it was.  Every string function reads the buffer only up to its first NUL, so a content that
holds one is cut there.

## Main results

* `strstrFrom_of_isInfix`, `strstrFrom_of_not_isInfix`: `strstr` finds the first occurrence.
* `lineStart_append`, `lineFinish_append_of_not_mem`: the two pointer walks stop at the
  line's ends.
* `clearDhcpLeaseEntry_of_line`: for a line holding the first occurrence, the content written
  back is the content without that line.
* `exists_line_split_left`, `exists_line_split_right`: every occurrence sits on one line.
-/

namespace EdgeSec.Dhcp

open Os

/-- `strstr` from the `i`-th character of the haystack on: the index where the needle first
starts; an empty needle is found at once. -/
def strstrFrom (needle : List Char) : List Char → ℕ → Option ℕ
  | [], i => if needle = [] then some i else none
  | c :: rest, i => if needle.isPrefixOf (c :: rest) then some i else strstrFrom needle rest (i + 1)

/-- `strstr(haystack, needle)` on two C strings, `none` for `NULL`. -/
def strstr (haystack needle : List Char) : Option ℕ :=
  strstrFrom (cStr needle) (cStr haystack) 0

/-- The loop `while (start > out)`: back from `start` until the character before it is a
newline or the buffer begins. -/
def lineStart (out : List Char) : ℕ → ℕ
  | 0 => 0
  | start + 1 => if out.getD start '\x00' = '\n' then start + 1 else lineStart out start

/-- The loop `while (finish < end)`, over the characters from `finish` to `end`: past the
first newline, or up to `end`. -/
def lineFinish : List Char → ℕ → ℕ
  | [], finish => finish
  | c :: rest, finish => if c = '\n' then finish + 1 else lineFinish rest (finish + 1)

/-- `clear_dhcp_lease_entry(mac_addr, dhcp_leasefile_path)` as a function of the lease file's
content: what `fprintf(fp, "%s%s", out, finish)` writes back, `none` when the entry is not
found and nothing is written. -/
def clearDhcpLeaseEntry (macAddr content : List Char) : Option (List Char) :=
  -- `out` as `read_file_string` leaves it, read up to its first NUL
  let out := cStr content
  match strstr out macAddr with
  | none => none
  | some start =>
      if (cStr macAddr).length = 0 then none
      else
        -- `*start = '\0'` ends `out` at the line start; `finish` is past the line's newline
        some (out.take (lineStart out start) ++ out.drop (lineFinish (out.drop (start + 1)) (start + 1)))

/-! ## `strstr` finds the first occurrence -/

theorem strstrFrom_of_not_isInfix {needle hay : List Char} (h : ¬ needle <:+: hay) (i : ℕ) :
    strstrFrom needle hay i = none := by
  induction hay generalizing i with
  | nil =>
      have hne : needle ≠ [] := by
        rintro rfl
        exact h List.nil_infix
      simp [strstrFrom, hne]
  | cons c rest ih =>
      rw [List.infix_cons_iff, not_or] at h
      rw [strstrFrom, if_neg (by rw [List.isPrefixOf_iff_prefix]; exact h.1), ih h.2]

theorem strstrFrom_of_isInfix {needle hay : List Char} (h : needle <:+: hay) (i : ℕ) :
    ∃ k, strstrFrom needle hay i = some (i + k) ∧ needle <+: hay.drop k ∧
      ∀ e < k, ¬ needle <+: hay.drop e := by
  induction hay generalizing i with
  | nil =>
      have hnil : needle = [] := List.eq_nil_of_infix_nil h
      refine ⟨0, by simp [strstrFrom, hnil], by simp [hnil], ?_⟩
      intro e he
      omega
  | cons c rest ih =>
      by_cases hp : needle <+: c :: rest
      · refine ⟨0, by simp [strstrFrom, List.isPrefixOf_iff_prefix.2 hp], hp, ?_⟩
        intro e he
        omega
      · -- the needle is not at the front, so it is in the tail, one index further
        have hr : needle <:+: rest := (List.infix_cons_iff.1 h).resolve_left hp
        obtain ⟨k, hk, hpre, hmin⟩ := ih hr (i + 1)
        refine ⟨k + 1, ?_, hpre, ?_⟩
        · rw [strstrFrom, if_neg (by rw [List.isPrefixOf_iff_prefix]; exact hp), hk]
          congr 1
          omega
        · intro e he
          cases e with
          | zero => exact hp
          | succ e => exact hmin e (by omega)

/-- The needle's first occurrence, named by the decomposition that puts it earliest. -/
theorem strstrFrom_of_first {needle hay p s : List Char} (hc : hay = p ++ needle ++ s)
    (hfirst : ∀ p' s', hay = p' ++ needle ++ s' → p.length ≤ p'.length) (i : ℕ) :
    strstrFrom needle hay i = some (i + p.length) := by
  have hpre : needle <+: hay.drop p.length := ⟨s, by simp [hc]⟩
  obtain ⟨k, hk, hkpre, hmin⟩ := strstrFrom_of_isInfix ⟨p, s, hc.symm⟩ i
  obtain ⟨t, ht⟩ := hkpre
  -- `p` is a decomposition, so the search stops no later than it
  have hle : k ≤ p.length := by
    by_contra hlt
    exact hmin p.length (by omega) hpre
  have hk_le : k ≤ hay.length := by
    have : p.length ≤ hay.length := by
      rw [hc]
      simp only [List.length_append]
      omega
    omega
  -- and the occurrence found at `k` is one, so it is not earlier than `p`
  have hge : p.length ≤ k := by
    have := hfirst (hay.take k) t (by rw [List.append_assoc, ht, List.take_append_drop])
    rwa [List.length_take, Nat.min_eq_left hk_le] at this
  rw [hk, Nat.le_antisymm hle hge]

/-! ## The two walks stop at the line's ends -/

/-- Walking back from inside a line without newline stops where the line begins: at the
buffer's start or after the newline that ends `before`. -/
theorem lineStart_append {before lp : List Char} (rest : List Char)
    (hb : before = [] ∨ before.getLast? = some '\n') (hlp : '\n' ∉ lp) :
    ∀ j ≤ lp.length, lineStart (before ++ lp ++ rest) (before.length + j) = before.length := by
  intro j
  induction j with
  | zero =>
      intro _
      rcases hb with rfl | hlast
      · rfl
      · -- the character before the line is the last one of `before`
        obtain ⟨b, hb'⟩ : ∃ b, before = b ++ ['\n'] := by
          rw [List.getLast?_eq_some_iff] at hlast
          exact hlast
        subst hb'
        simp [lineStart]
  | succ j ih =>
      intro hj
      have hget : (before ++ lp ++ rest).getD (before.length + j) '\x00' = lp[j] := by
        rw [List.getD_eq_getElem _ _ (by simp; omega)]
        simp [List.getElem_append_right, List.getElem_append_left (by omega : j < lp.length)]
      have hne : lp[j] ≠ '\n' := fun e => hlp (e ▸ List.getElem_mem (by omega))
      rw [← Nat.add_assoc, lineStart, hget, if_neg hne, ih (by omega)]

@[simp] theorem lineFinish_nil (finish : ℕ) : lineFinish [] finish = finish := rfl

@[simp] theorem lineFinish_newline (rest : List Char) (finish : ℕ) :
    lineFinish ('\n' :: rest) finish = finish + 1 := rfl

/-- The forward walk passes over characters that are no newline. -/
theorem lineFinish_append_of_not_mem {xs : List Char} (ys : List Char) (hxs : '\n' ∉ xs)
    (finish : ℕ) : lineFinish (xs ++ ys) finish = lineFinish ys (finish + xs.length) := by
  induction xs generalizing finish with
  | nil => rfl
  | cons x xs ih =>
      rw [List.mem_cons, not_or] at hxs
      rw [List.cons_append, lineFinish, if_neg (Ne.symm hxs.1), ih hxs.2, List.length_cons]
      congr 1
      omega

/-! ## The content written back -/

section Lease

variable {m c before lp ls nl after : List Char}

/-- A lease line: `before` ends at a line break, the line is `lp ++ m ++ ls` with its newline
`nl` (none on a last line without one), and `m` occurs nowhere earlier in `c`. -/
structure FirstLine (m c before lp ls nl after : List Char) : Prop where
  content : c = before ++ lp ++ m ++ ls ++ nl ++ after
  before_end : before = [] ∨ before.getLast? = some '\n'
  left : '\n' ∉ lp
  right : '\n' ∉ ls
  newline : nl = ['\n'] ∨ nl = [] ∧ after = []
  first : ∀ p s, c = p ++ m ++ s → (before ++ lp).length ≤ p.length

/-- The line holding the first occurrence of a MAC address is removed with its newline. -/
theorem clearDhcpLeaseEntry_of_line (hm : m ≠ []) (hmnl : '\n' ∉ m) (hm0 : '\x00' ∉ m)
    (hc0 : '\x00' ∉ c) (hl : FirstLine m c before lp ls nl after) :
    clearDhcpLeaseEntry m c = some (before ++ after) := by
  have hc : c = (before ++ lp) ++ m ++ (ls ++ nl ++ after) := by
    simp [hl.content]
  have hfind : strstr c m = some (before ++ lp).length := by
    rw [strstr, cStr_of_not_mem hc0, cStr_of_not_mem hm0, strstrFrom_of_first hc hl.first,
      Nat.zero_add]
  have hstart : lineStart c (before ++ lp).length = before.length := by
    rw [hc, List.length_append]
    simpa only [List.append_assoc] using
      lineStart_append (m ++ (ls ++ nl ++ after)) hl.before_end hl.left lp.length le_rfl
  obtain ⟨a, mt, rfl⟩ := List.exists_cons_of_ne_nil hm
  have hmt : '\n' ∉ mt := fun h => hmnl (List.mem_cons_of_mem a h)
  -- after the first character of the address, the walk passes the rest of the line
  have hfinish : lineFinish (c.drop ((before ++ lp).length + 1)) ((before ++ lp).length + 1) =
      (before ++ lp ++ a :: mt ++ ls ++ nl).length := by
    have hsplit : c = (before ++ lp ++ [a]) ++ (mt ++ (ls ++ (nl ++ after))) := by
      rw [hc]
      simp
    have hdrop : c.drop ((before ++ lp).length + 1) = mt ++ (ls ++ (nl ++ after)) := by
      rw [hsplit, List.drop_left' (by simp only [List.length_append, List.length_singleton])]
    rw [hdrop, lineFinish_append_of_not_mem _ hmt, lineFinish_append_of_not_mem _ hl.right]
    rcases hl.newline with rfl | ⟨rfl, rfl⟩
    · simp only [List.singleton_append, lineFinish_newline, List.length_append,
        List.length_cons, List.length_nil]
      omega
    · simp only [List.append_nil, lineFinish_nil, List.length_append, List.length_cons]
      omega
  have hlen : (cStr (a :: mt)).length ≠ 0 := by
    rw [cStr_of_not_mem hm0]
    simp
  rw [clearDhcpLeaseEntry]
  simp only [cStr_of_not_mem hc0]
  rw [hfind]
  dsimp only
  rw [if_neg hlen, hstart, hfinish]
  have htake : c.take before.length = before := by
    rw [hl.content]
    simp
  have hdrop : c.drop (before ++ lp ++ a :: mt ++ ls ++ nl).length = after := by
    rw [hl.content]
    simp
  rw [htake, hdrop]

end Lease

/-! ## Every occurrence sits on one line -/

/-- Everything before an occurrence splits at its last newline. -/
theorem exists_line_split_left (p : List Char) :
    ∃ before lp, p = before ++ lp ∧ (before = [] ∨ before.getLast? = some '\n') ∧ '\n' ∉ lp := by
  induction p with
  | nil => exact ⟨[], [], rfl, .inl rfl, List.not_mem_nil⟩
  | cons x p ih =>
      obtain ⟨before, lp, rfl, hb, hlp⟩ := ih
      rcases hb with rfl | hlast
      · by_cases hx : x = '\n'
        · exact ⟨[x], lp, rfl, .inr (by simp [hx]), hlp⟩
        · refine ⟨[], x :: lp, rfl, .inl rfl, ?_⟩
          rw [List.mem_cons, not_or]
          exact ⟨Ne.symm hx, hlp⟩
      · have hne : before ≠ [] := by
          rintro rfl
          cases hlast
        refine ⟨x :: before, lp, rfl, .inr ?_, hlp⟩
        rw [List.getLast?_cons, hlast]
        rfl

/-- Everything after an occurrence splits at its first newline. -/
theorem exists_line_split_right (s : List Char) :
    ∃ ls nl after, s = ls ++ nl ++ after ∧ '\n' ∉ ls ∧ (nl = ['\n'] ∨ nl = [] ∧ after = []) := by
  induction s with
  | nil => exact ⟨[], [], [], rfl, List.not_mem_nil, .inr ⟨rfl, rfl⟩⟩
  | cons x s ih =>
      by_cases hx : x = '\n'
      · exact ⟨[], ['\n'], s, by simp [hx], List.not_mem_nil, .inl rfl⟩
      · obtain ⟨ls, nl, after, rfl, hls, hnl⟩ := ih
        refine ⟨x :: ls, nl, after, rfl, ?_, hnl⟩
        rw [List.mem_cons, not_or]
        exact ⟨Ne.symm hx, hls⟩

/-! ## The lease entry a MAC address names -/

/-- On a lease file without NUL, `clear_dhcp_lease_entry` with an address that holds neither a
newline nor a NUL writes back the file without the line of the address's first occurrence,
newline included, and leaves the file alone when the address does not occur. -/
theorem clear_dhcp_lease_entry_removes_first_line (m c : List Char) (hm : m ≠ [])
    (hmnl : '\n' ∉ m) (hm0 : '\x00' ∉ m) (hc0 : '\x00' ∉ c) :
    (¬ m <:+: c → clearDhcpLeaseEntry m c = none) ∧
    (m <:+: c → ∃ before lp ls nl after, FirstLine m c before lp ls nl after ∧
      clearDhcpLeaseEntry m c = some (before ++ after)) := by
  constructor
  · intro h
    have hnone : strstr c m = none := by
      rw [strstr, cStr_of_not_mem hc0, cStr_of_not_mem hm0, strstrFrom_of_not_isInfix h]
    rw [clearDhcpLeaseEntry]
    simp only [cStr_of_not_mem hc0]
    rw [hnone]
  · intro h
    -- the first occurrence, at `k`, cuts `c` into the text before it and `m ++ t`
    obtain ⟨k, -, ⟨t, ht⟩, hmin⟩ := strstrFrom_of_isInfix h 0
    have hk_le : k ≤ c.length := by
      by_contra hlt
      rw [List.drop_eq_nil_of_le (by omega)] at ht
      exact hm (List.append_eq_nil_iff.1 ht).1
    obtain ⟨before, lp, hp, hb, hlp⟩ := exists_line_split_left (c.take k)
    obtain ⟨ls, nl, after, hs, hls, hnl⟩ := exists_line_split_right t
    have hk : (before ++ lp).length = k := by
      rw [← hp, List.length_take, Nat.min_eq_left hk_le]
    have hline : FirstLine m c before lp ls nl after := by
      refine ⟨?_, hb, hlp, hls, hnl, ?_⟩
      · conv_lhs => rw [← List.take_append_drop k c]
        rw [← ht, hp, hs]
        simp only [List.append_assoc]
      · intro p s hps
        by_contra hlt
        exact hmin p.length (by omega) ⟨s, by rw [hps, List.append_assoc, List.drop_left]⟩
    exact ⟨before, lp, ls, nl, after, hline, clearDhcpLeaseEntry_of_line hm hmnl hm0 hc0 hline⟩

theorem clear_dhcp_lease_entry_removes_first_line_two_leases :
    "11:22:33:44:55:66".toList ≠ [] ∧ '\n' ∉ "11:22:33:44:55:66".toList ∧
    '\x00' ∉ "11:22:33:44:55:66".toList ∧ '\x00' ∉ "1 11:22:33:44:55:66\n2 aa\n".toList ∧
    ("11:22:33:44:55:66".toList <:+: "1 11:22:33:44:55:66\n2 aa\n".toList →
      ∃ before lp ls nl after,
        FirstLine "11:22:33:44:55:66".toList "1 11:22:33:44:55:66\n2 aa\n".toList
          before lp ls nl after ∧
        clearDhcpLeaseEntry "11:22:33:44:55:66".toList "1 11:22:33:44:55:66\n2 aa\n".toList =
          some (before ++ after)) :=
  ⟨by decide, by decide, by decide, by decide,
    (clear_dhcp_lease_entry_removes_first_line _ _ (by decide) (by decide) (by decide)
      (by decide)).2⟩

/-- A NUL in the lease file ends what `strstr` and `fprintf` read of it: with the address on
the line before the NUL, the content written back loses everything from the NUL on. -/
theorem clear_dhcp_lease_entry_drops_after_nul :
    clearDhcpLeaseEntry "11:22:33:44:55:66".toList "11:22:33:44:55:66\n\x00b".toList =
      some [] := by
  decide +kernel

end EdgeSec.Dhcp
