import EdgeSec.Lib.Memory
import EdgeSec.Utils.Net
import EdgeSec.Utils.Iptables

/-!
# The interfaces section of the configuration

`load_interface_list` (`src/config.c`) reads the `[interfaces]` section of the configuration
file: the bridge and interface prefixes, then every key that starts with `if`, whose value
`get_config_ifinfo` cuts at its commas (`split_string_array`, `Utils/Os`) into the VLAN, the IP
address, the broadcast address and the subnet mask.  Each field is reached by
`p = utarray_next(info_arr, p)` and tested by `*p != NULL`: past the last element
`utarray_next` returns `NULL`, which the test dereferences.

minIni is not part of the source: `IniInterfaces` takes what its two calls return as given, the
keys `ini_getkey` returns for `idx = 0, 1, ...` and the text `ini_gets` leaves in the buffer for
a key, with the laws of its lookup as fields (keys match ignoring case; an absent key reads as
the default `""`).  The fault results use neither law, so they hold for every such reading.
`strtol` is that of `Utils/Os`, and glibc sets `errno` to `EINVAL` only for a base it does not
know, so the check after it never fails.

## Main results

* `getConfigIfinfo_of_short`: a value of fewer than four fields makes `get_config_ifinfo`
  dereference `NULL`;
* `getConfigIfinfo_of_three_le`: with four fields or more it returns the first four, the
  addresses cut to `OS_INET_ADDRSTRLEN - 1` characters;
* `faults_loadInterfaceList_iff`: `load_interface_list` faults exactly when both prefixes are
  set and the value of an `if` key has fewer than four fields.
* `loadInterfaceList_of_bridgePrefix_absent`: without a `bridgePrefix` key it returns `false`.
-/

namespace EdgeSec.Config

open Memory Os

/-- `(int)` of a `long`, as gcc narrows it: modulo `2 ^ 32` into `[-2 ^ 31, 2 ^ 31)`. -/
def toCInt (v : ℤ) : ℤ := (v + 2 ^ 31) % 2 ^ 32 - 2 ^ 31

/-- The fields of `config_ifinfo_t` that `get_config_ifinfo` sets. -/
structure ConfigIfinfo where
  vlanid : ℤ
  ipAddr : List Char
  brdAddr : List Char
  subnetMask : List Char
  deriving Repr, DecidableEq

/-- `utarray_next(a, e)` over `len` elements, an element pointer as its index: the first
element after `NULL` (`utarray_front`, `NULL` for an empty array), the next one after an
element, `NULL` after the last. -/
def utarrayNext (len : ℕ) : Option ℕ → Option ℕ
  | none => if len = 0 then none else some 0
  | some i => if len ≠ i + 1 then some (i + 1) else none

/-- `p = utarray_next(info_arr, p)` and the `*p` that the test `*p != NULL` reads; the strings
`split_string_array` pushed are never `NULL`, so the test itself always passes. -/
def nextField (arr : List (List Char)) (p : Option ℕ) : Except Stop (Option ℕ × List Char) := do
  let p := utarrayNext arr.length p
  let field ← deref (p.bind (arr[·]?))
  pure (p, field)

/-- `get_config_ifinfo(info, el)`: what it sets in `el`, or `none` for `false`. -/
def getConfigIfinfo (info : List Char) : Except Stop (Option ConfigIfinfo) := do
  let r := splitStringArray info ',' []
  if r.1 < 0 then return none
  let infoArr := r.2
  if infoArr.length = 0 then return none
  let (p, field) ← nextField infoArr none
  let vlanid := toCInt (strtol field).value
  let (p, field) ← nextField infoArr p
  let ipAddr := osStrlcpy field Net.osInetAddrstrlen
  let (p, field) ← nextField infoArr p
  let brdAddr := osStrlcpy field Net.osInetAddrstrlen
  let (_, field) ← nextField infoArr p
  let subnetMask := osStrlcpy field Net.osInetAddrstrlen
  return some ⟨vlanid, ipAddr, brdAddr, subnetMask⟩

/-- What minIni returns for the `[interfaces]` section of the file, with the two facts of its
key lookup that `load_interface_list` relies on.  `ini_gets` returns the length of the text it
leaves in the buffer. -/
structure IniInterfaces where
  /-- the keys `ini_getkey("interfaces", idx, key, ...)` copies for `idx = 0, 1, ...`, the list
  ending where it returns `0` -/
  keys : List (List Char)
  /-- the text `ini_gets("interfaces", key, "", buf, ...)` leaves in `buf` -/
  gets : List Char → List Char
  /-- minIni compares keys with `ini_strnicmp`, ignoring ASCII case -/
  gets_caseless : ∀ k k', k.map Char.toLower = k'.map Char.toLower → gets k = gets k'
  /-- a key the section lacks gives the default `""` -/
  gets_of_absent : ∀ k, (∀ k' ∈ keys, k'.map Char.toLower ≠ k.map Char.toLower) → gets k = []

/-- The `while (ini_getkey("interfaces", idx++, key, ...) > 0)` loop over the keys from `idx`
on: the value of every key that starts with `if` (`strstr(key, "if") == key`) goes to
`get_config_ifinfo`, whose `false` makes the load `false`; an empty key ends the loop as the end
of the section does.  The result is the array of the decoded entries. -/
def loadIfinfoLoop (ini : IniInterfaces) :
    List (List Char) → List ConfigIfinfo → Except Stop (Option (List ConfigIfinfo))
  | [], acc => pure (some acc)
  | key :: rest, acc =>
      if key = [] then pure (some acc)
      else if "if".toList.isPrefixOf key then do
        match ← getConfigIfinfo (ini.gets key) with
        | none => pure none
        | some el => loadIfinfoLoop ini rest (acc ++ [el])
      else loadIfinfoLoop ini rest acc

/-- What `load_interface_list` stores in `struct app_config`. -/
structure InterfaceConfig where
  bridgePrefix : List Char
  interfacePrefix : List Char
  configIfinfoArray : List ConfigIfinfo
  deriving Repr, DecidableEq

/-- `load_interface_list(filename, config)` on the `[interfaces]` section of the file: the
configuration it fills, `none` for `false`; `ini_gets` returns the length of what it read. -/
def loadInterfaceList (ini : IniInterfaces) : Except Stop (Option InterfaceConfig) := do
  let bridgePrefix := ini.gets "bridgePrefix".toList
  if bridgePrefix.length = 0 then return none
  let interfacePrefix := ini.gets "interfacePrefix".toList
  if interfacePrefix.length = 0 then return none
  match ← loadIfinfoLoop ini ini.keys [] with
  | none => return none
  | some arr =>
      return some ⟨osStrlcpy bridgePrefix Iptables.ifNamesize,
        osStrlcpy interfacePrefix Iptables.ifNamesize, arr⟩

/-! ## Reading the fields -/

theorem nextField_none {arr : List (List Char)} (h : 0 < arr.length) :
    nextField arr none = .ok (some 0, arr.getD 0 []) := by
  have hne : arr.length ≠ 0 := by omega
  simp only [nextField, utarrayNext, if_neg hne, Option.bind_some, List.getElem?_eq_getElem h,
    deref_some, Checked.ok_bind, Checked.pure_eq_ok, List.getD_eq_getElem _ _ h]

theorem nextField_some {arr : List (List Char)} {i : ℕ} (h : i + 1 < arr.length) :
    nextField arr (some i) = .ok (some (i + 1), arr.getD (i + 1) []) := by
  have hne : arr.length ≠ i + 1 := by omega
  simp only [nextField, utarrayNext, if_pos hne, Option.bind_some, List.getElem?_eq_getElem h,
    deref_some, Checked.ok_bind, Checked.pure_eq_ok, List.getD_eq_getElem _ _ h]

/-- After the last element `utarray_next` gives `NULL`, and `*p` dereferences it. -/
theorem nextField_last {arr : List (List Char)} {i : ℕ} (h : arr.length = i + 1) :
    nextField arr (some i) = .error (.fault .nullDeref) := by
  simp only [nextField, utarrayNext, h, ne_eq, not_true_eq_false, if_false, Option.bind_none,
    deref_none, Checked.error_bind]

theorem length_splitString (info : List Char) :
    (splitString info ',').length = (cStr info).count ',' + 1 := by
  rw [splitString, length_splitOn]

theorem getConfigIfinfo_of_short {info : List Char} (h : (cStr info).count ',' < 3) :
    getConfigIfinfo info = .error (.fault .nullDeref) := by
  have hlen := length_splitString info
  simp only [getConfigIfinfo, splitStringArray_eq, List.nil_append]
  rw [if_neg (by omega), if_neg (by omega), nextField_none (by omega), Checked.ok_bind]
  dsimp only
  -- one, two or three fields: the test after the last one dereferences `NULL`
  obtain h0 | h1 | h2 : (cStr info).count ',' = 0 ∨ (cStr info).count ',' = 1 ∨
      (cStr info).count ',' = 2 := by omega
  · rw [nextField_last (by omega), Checked.error_bind]
  · rw [nextField_some (by omega), Checked.ok_bind]
    dsimp only
    rw [nextField_last (by omega), Checked.error_bind]
  · rw [nextField_some (by omega), Checked.ok_bind]
    dsimp only
    rw [nextField_some (by omega), Checked.ok_bind]
    dsimp only
    rw [nextField_last (by omega), Checked.error_bind]

/-- With four fields or more `get_config_ifinfo` returns `true` and sets the first four. -/
theorem getConfigIfinfo_of_three_le {info : List Char} (h : 3 ≤ (cStr info).count ',') :
    getConfigIfinfo info = .ok (some
      ⟨toCInt (strtol ((splitString info ',').getD 0 [])).value,
        osStrlcpy ((splitString info ',').getD 1 []) Net.osInetAddrstrlen,
        osStrlcpy ((splitString info ',').getD 2 []) Net.osInetAddrstrlen,
        osStrlcpy ((splitString info ',').getD 3 []) Net.osInetAddrstrlen⟩) := by
  have hlen := length_splitString info
  simp only [getConfigIfinfo, splitStringArray_eq, List.nil_append]
  rw [if_neg (by omega), if_neg (by omega), nextField_none (by omega), Checked.ok_bind]
  dsimp only
  rw [nextField_some (by omega), Checked.ok_bind]
  dsimp only
  rw [nextField_some (by omega), Checked.ok_bind]
  dsimp only
  rw [nextField_some (by omega), Checked.ok_bind]
  rfl

/-! ## The interfaces section -/

/-- The loop faults exactly at an `if` key, before the first empty key, whose value has fewer
than four fields; the induction is on the keys left, each of the three kinds of key a step. -/
theorem faults_loadIfinfoLoop_iff (ini : IniInterfaces) (keys : List (List Char))
    (acc : List ConfigIfinfo) :
    Faults (loadIfinfoLoop ini keys acc) ↔
      ∃ key ∈ keys.takeWhile (· ≠ []), "if".toList.isPrefixOf key ∧
        (cStr (ini.gets key)).count ',' < 3 := by
  induction keys generalizing acc with
  | nil => simp [loadIfinfoLoop, not_faults_ok]
  | cons key rest ih =>
      by_cases hkey : key = []
      · subst hkey
        simp [loadIfinfoLoop, not_faults_ok]
      rw [List.takeWhile_cons_of_pos (by simpa using hkey)]
      simp only [List.mem_cons, exists_eq_or_imp]
      by_cases hif : "if".toList.isPrefixOf key
      · by_cases hshort : (cStr (ini.gets key)).count ',' < 3
        · -- the `NULL` dereference of `get_config_ifinfo` ends the load
          have hrun : loadIfinfoLoop ini (key :: rest) acc = .error (.fault .nullDeref) := by
            simp only [loadIfinfoLoop, if_neg hkey, if_pos hif, getConfigIfinfo_of_short hshort,
              Checked.error_bind]
          rw [hrun]
          exact ⟨fun _ => .inl ⟨hif, hshort⟩, fun _ => faults_of_fault _⟩
        · obtain ⟨el, hel⟩ : ∃ el, getConfigIfinfo (ini.gets key) = .ok (some el) :=
            ⟨_, getConfigIfinfo_of_three_le (Nat.le_of_not_lt hshort)⟩
          have hrun :
              loadIfinfoLoop ini (key :: rest) acc = loadIfinfoLoop ini rest (acc ++ [el]) := by
            simp only [loadIfinfoLoop, if_neg hkey, if_pos hif, hel, Checked.ok_bind]
          rw [hrun, ih]
          simp only [hshort, and_false, false_or]
      · have hrun : loadIfinfoLoop ini (key :: rest) acc = loadIfinfoLoop ini rest acc := by
          simp only [loadIfinfoLoop, if_neg hkey, if_neg hif]
        rw [hrun, ih]
        simp only [hif, Bool.false_eq_true, false_and, false_or]

/-- `load_interface_list` faults exactly when both prefixes are set and an `if` key of the
section, before its first empty key, has a value of fewer than four fields. -/
theorem faults_loadInterfaceList_iff (ini : IniInterfaces) :
    Faults (loadInterfaceList ini) ↔
      ini.gets "bridgePrefix".toList ≠ [] ∧ ini.gets "interfacePrefix".toList ≠ [] ∧
        ∃ key ∈ ini.keys.takeWhile (· ≠ []), "if".toList.isPrefixOf key ∧
          (cStr (ini.gets key)).count ',' < 3 := by
  -- without a prefix the load returns `false` before the loop
  by_cases hb : ini.gets "bridgePrefix".toList = []
  · have hrun : loadInterfaceList ini = .ok none := by
      simp only [loadInterfaceList, hb, List.length_nil, if_true]
      rfl
    rw [hrun]
    exact ⟨fun h => absurd h (not_faults_ok _), fun h => absurd hb h.1⟩
  by_cases hi : ini.gets "interfacePrefix".toList = []
  · have hrun : loadInterfaceList ini = .ok none := by
      simp only [loadInterfaceList, List.length_eq_zero_iff, if_neg hb, hi, List.length_nil,
        if_true]
      rfl
    rw [hrun]
    exact ⟨fun h => absurd h (not_faults_ok _), fun h => absurd hi h.2.1⟩
  rw [and_iff_right hb, and_iff_right hi, ← faults_loadIfinfoLoop_iff ini ini.keys []]
  simp only [loadInterfaceList, List.length_eq_zero_iff, if_neg hb, if_neg hi]
  -- after the loop both branches only return
  rw [faults_bind_iff, or_iff_left]
  rintro ⟨r, -, hr⟩
  cases r with
  | none => exact not_faults_ok _ hr
  | some arr => exact not_faults_ok _ hr

/-- A section without a `bridgePrefix` key, in any case, makes the load return `false` ("bridge
prefix was not specified"): minIni gives the default `""`, of length `0`. -/
theorem loadInterfaceList_of_bridgePrefix_absent (ini : IniInterfaces)
    (h : ∀ k ∈ ini.keys, k.map Char.toLower ≠ "bridgeprefix".toList) :
    loadInterfaceList ini = .ok none := by
  have hlower : "bridgePrefix".toList.map Char.toLower = "bridgeprefix".toList := by decide
  have hb : ini.gets "bridgePrefix".toList = [] :=
    ini.gets_of_absent _ (by rw [hlower]; exact h)
  simp only [loadInterfaceList, hb, List.length_nil, if_true]
  rfl

example : getConfigIfinfo ['1', '0', ',', '1'] = .error (.fault .nullDeref) := by rfl

example : getConfigIfinfo "2,10.0.2.1,10.0.2.255,255.255.255.0".toList =
    .ok (some ⟨2, "10.0.2.1".toList, "10.0.2.255".toList, "255.255.255.0".toList⟩) := by
  decide +kernel

/-- `get_config_ifinfo` never returns `false`: a value of fewer than four comma-separated
fields makes it dereference the `NULL` that `utarray_next` returns past the last field, and a
longer one gives the first four fields, the addresses cut to their buffers; so
`load_interface_list`, rather than refusing the section, faults exactly when both prefixes are
set and an `if` key has a short value. -/
theorem config_ifinfo_dereferences_missing_field :
    (∀ info : List Char, (cStr info).count ',' < 3 →
      getConfigIfinfo info = .error (.fault .nullDeref)) ∧
    (∀ info : List Char, 3 ≤ (cStr info).count ',' →
      getConfigIfinfo info = .ok (some
        ⟨toCInt (strtol ((splitString info ',').getD 0 [])).value,
          osStrlcpy ((splitString info ',').getD 1 []) Net.osInetAddrstrlen,
          osStrlcpy ((splitString info ',').getD 2 []) Net.osInetAddrstrlen,
          osStrlcpy ((splitString info ',').getD 3 []) Net.osInetAddrstrlen⟩)) ∧
    (∀ ini : IniInterfaces, Faults (loadInterfaceList ini) ↔
      ini.gets "bridgePrefix".toList ≠ [] ∧ ini.gets "interfacePrefix".toList ≠ [] ∧
        ∃ key ∈ ini.keys.takeWhile (· ≠ []), "if".toList.isPrefixOf key ∧
          (cStr (ini.gets key)).count ',' < 3) := by
  refine ⟨fun info h => ?_, fun info h => ?_, faults_loadInterfaceList_iff⟩
  · exact getConfigIfinfo_of_short h
  · exact getConfigIfinfo_of_three_le h

end EdgeSec.Config
