import EdgeSec.Lib.FirstMatch
import EdgeSec.Config

/-!
# The interface mapper of `src/utils/iface_mapper.c`

Every subnet of the configuration is served by one interface and one bridge, for one VLAN:
`init_ifbridge_names` names them from the two prefixes of the configuration and the VLAN ID,
and the rest of the file answers, for an address, which entry serves it.  `find_ifinfo` goes
through the entries in order and stops at the first whose address, under its mask, is the
given address under the same mask (`ip_2_nbo` of `src/utils/net.c`, over `inet_network` of
`Utils/Net`); `get_ifname_from_ip` and `get_brname_from_ip` copy out a name of that entry.
Two `uthash` tables are built from the same array at start-up, the subnet table
(`create_if_mapper`, keyed by the masked address) and the VLAN table (`create_vlan_mapper`,
keyed by the VLAN ID); both are association lists in insertion order (`Lib/FirstMatch`).

The `NULL` checks on pointer arguments (`-1` or `false`) and the failures of `os_malloc` are
not modelled, and `snprintf` of `"%s%d"` into memory does not fail.

## Main results

* `findIfinfo_of_resolves`: when the address and every entry convert, `find_ifinfo` returns
  the first entry whose subnet holds the address, and `1` when there is none;
* `findIfinfo_eq_neg_one_iff`: it returns `-1` exactly when an entry it reaches does not
  convert, which an entry with the host mask `255.255.255.255` never does;
* `getNameFromIp_spec`: so `get_ifname_from_ip` and `get_brname_from_ip` give the name of that
  first entry, and `-1` for every address past which such an entry stands;
* `getIfMapper_createIfMapper`: the subnet table answers a subnet with the interface of the
  last entry of that subnet;
* `getIfMapper_of_findIfinfo`: when the configured subnets are distinct, the subnet table
  gives the interface of the entry `find_ifinfo` finds, under that entry's subnet;
* `getVlanMapper_createVlanMapper_initIfbridgeNames`: after start-up the VLAN table holds
  exactly the configured VLANs, each with the interface its prefix and ID name;
* `copyVlanMapper_nil`: copying the VLAN table entry by entry gives it back.
-/

namespace EdgeSec.IfaceMapper

open Config Os Net FirstMatch

/-- `config_ifinfo_t` once `init_ifbridge_names` has named its interface and bridge. -/
structure Ifinfo extends ConfigIfinfo where
  ifname : List Char
  brname : List Char
  deriving Repr, DecidableEq

/-! ## Naming the interfaces -/

/-- `snprintf(buf, IF_NAMESIZE, "%s%d", name, vlanid)`: the name and the VLAN ID in decimal,
cut to `IF_NAMESIZE - 1` characters. -/
def ifbridgeName (name : List Char) (vlanid : ℤ) : List Char :=
  (cStr name ++ (toString vlanid).toList).take (Iptables.ifNamesize - 1)

/-- `init_ifbridge_names(config_ifinfo_array, ifname, brname)`: every entry named after the
interface and bridge prefixes and its VLAN ID. -/
def initIfbridgeNames (arr : List ConfigIfinfo) (ifname brname : List Char) : List Ifinfo :=
  arr.map fun p =>
    { toConfigIfinfo := p, ifname := ifbridgeName ifname p.vlanid,
      brname := ifbridgeName brname p.vlanid }

/-! ## Finding the entry of an address -/

/-- `ip_2_nbo(ip, subnet_mask, &addr)`: the address under the mask, or `none` for the `-1` of a
string `inet_network` refuses. -/
def ip2Nbo (ip subnetMask : List Char) : Option UInt32 :=
  let subnet := inetNetwork subnetMask
  if subnet = inaddrNone then none
  else
    let addr := inetNetwork ip
    if addr = inaddrNone then none else some (addr &&& subnet)

/-- `find_ifinfo(config_ifinfo_array, ip, &ifinfo)`: `0` and the first entry whose subnet holds
`ip`, `1` when none does, and `-1` as soon as an entry, or `ip` under its mask, does not
convert. -/
def findIfinfo : List Ifinfo → List Char → ℤ × Option Ifinfo
  | [], _ => (1, none)
  | p :: rest, ip =>
      match ip2Nbo p.ipAddr p.subnetMask with
      | none => (-1, none)
      | some addrSubnet =>
          match ip2Nbo ip p.subnetMask with
          | none => (-1, none)
          | some addrIp => if addrIp = addrSubnet then (0, some p) else findIfinfo rest ip

/-- `get_ifname_from_ip` and `get_brname_from_ip`, which differ only in the name they copy out
of the entry `find_ifinfo` returns: `-1` when it returns anything but `0`. -/
def getNameFromIp (name : Ifinfo → List Char) (arr : List Ifinfo) (ipAddr : List Char) :
    ℤ × Option (List Char) :=
  let r := findIfinfo arr ipAddr
  if r.1 ≠ 0 then (-1, none) else (0, r.2.map name)

/-- `get_brname_from_ip(config_ifinfo_array, ip_addr, brname)`. -/
def getBrnameFromIp (arr : List Ifinfo) (ipAddr : List Char) : ℤ × Option (List Char) :=
  getNameFromIp Ifinfo.brname arr ipAddr

/-- `get_ifname_from_ip(config_ifinfo_array, ip_addr, ifname)`. -/
def getIfnameFromIp (arr : List Ifinfo) (ipAddr : List Char) : ℤ × Option (List Char) :=
  getNameFromIp Ifinfo.ifname arr ipAddr

/-! ## The two tables -/

/-- `hmap_if_conn`: subnets and their interfaces, in insertion order. -/
abbrev HmapIfConn := List (UInt32 × List Char)

/-- `get_if_mapper(&hmap, subnet, ifname)`: `1` and the interface of the subnet, `0` when the
table has no entry for it. -/
def getIfMapper (hmap : HmapIfConn) (subnet : UInt32) : ℤ × Option (List Char) :=
  match hmap.lookup subnet with
  | some value => (1, some (osStrlcpy value Iptables.ifNamesize))
  | none => (0, none)

/-- `put_if_mapper(&hmap, subnet, ifname)`: the interface of the subnet overwritten, or a new
entry. -/
def putIfMapper (hmap : HmapIfConn) (subnet : UInt32) (ifname : List Char) : HmapIfConn :=
  put hmap subnet (osStrlcpy ifname Iptables.ifNamesize)

/-- `create_if_mapper(config_ifinfo_array, &hmap)`: the subnet of every entry put with its
interface; when one does not convert, the table is freed (`free_if_mapper`) and the result is
`false`. -/
def createIfMapper : List Ifinfo → HmapIfConn → Bool × HmapIfConn
  | [], hmap => (true, hmap)
  | p :: rest, hmap =>
      match ip2Nbo p.ipAddr p.subnetMask with
      | none => (false, [])
      | some addr => createIfMapper rest (putIfMapper hmap addr p.ifname)

/-- `struct vlan_conn`. -/
structure VlanConn where
  vlanid : ℤ
  ifname : List Char
  capturePid : ℕ
  deriving Repr, DecidableEq

/-- `hmap_vlan_conn`: VLAN IDs and their connections, in insertion order. -/
abbrev HmapVlanConn := List (ℤ × VlanConn)

/-- `get_vlan_mapper(&hmap, vlanid, &conn)`: `1` and the connection of the VLAN, `0` when the
table has no entry for it. -/
def getVlanMapper (hmap : HmapVlanConn) (vlanid : ℤ) : ℤ × Option VlanConn :=
  match hmap.lookup vlanid with
  | some conn => (1, some conn)
  | none => (0, none)

/-- `put_vlan_mapper(&hmap, &conn)`: the connection stored under its own VLAN ID. -/
def putVlanMapper (hmap : HmapVlanConn) (conn : VlanConn) : HmapVlanConn :=
  put hmap conn.vlanid conn

/-- `copy_vlan_mapper(&hmap, &copy)`: every connection of `hmap`, in order, put into `copy`. -/
def copyVlanMapper (hmap copy : HmapVlanConn) : HmapVlanConn :=
  hmap.foldl (fun c e => putVlanMapper c e.2) copy

/-- `create_vlan_mapper(config_ifinfo_array, &hmap)`: every entry's VLAN with its interface and
no capture thread yet. -/
def createVlanMapper (arr : List Ifinfo) (hmap : HmapVlanConn) : HmapVlanConn :=
  arr.foldl (fun h p => putVlanMapper h ⟨p.vlanid, p.ifname, 0⟩) hmap

/-! ## `find_ifinfo` -/

/-- The entry and the address both convert under the entry's mask. -/
def Resolves (ip : List Char) (p : Ifinfo) : Prop :=
  (ip2Nbo p.ipAddr p.subnetMask).isSome ∧ (ip2Nbo ip p.subnetMask).isSome

instance (ip : List Char) (p : Ifinfo) : Decidable (Resolves ip p) := instDecidableAnd

/-- The subnet of the entry holds the address: both are the same under its mask. -/
def inSubnet (ip : List Char) (p : Ifinfo) : Bool :=
  decide (ip2Nbo ip p.subnetMask = ip2Nbo p.ipAddr p.subnetMask)

theorem findIfinfo_cons_of_resolves {ip : List Char} {p : Ifinfo} (hr : Resolves ip p)
    (rest : List Ifinfo) :
    findIfinfo (p :: rest) ip = if inSubnet ip p then (0, some p) else findIfinfo rest ip := by
  obtain ⟨a, ha⟩ := Option.isSome_iff_exists.1 hr.1
  obtain ⟨b, hb⟩ := Option.isSome_iff_exists.1 hr.2
  simp only [findIfinfo, ha, hb, inSubnet, Option.some.injEq, decide_eq_true_eq]

theorem findIfinfo_cons_of_not_resolves {ip : List Char} {p : Ifinfo} (hr : ¬ Resolves ip p)
    (rest : List Ifinfo) : findIfinfo (p :: rest) ip = (-1, none) := by
  unfold Resolves at hr
  cases ha : ip2Nbo p.ipAddr p.subnetMask with
  | none => simp only [findIfinfo, ha]
  | some a =>
      cases hb : ip2Nbo ip p.subnetMask with
      | none => simp only [findIfinfo, ha, hb]
      | some b => simp [ha, hb] at hr

/-- When the address and every entry convert, `find_ifinfo` returns the first entry whose subnet
holds the address, and `1` when there is none. -/
theorem findIfinfo_of_resolves {ip : List Char} :
    ∀ {arr : List Ifinfo}, (∀ p ∈ arr, Resolves ip p) →
      findIfinfo arr ip = ((arr.find? (inSubnet ip)).map fun p => (0, some p)).getD (1, none)
  | [], _ => rfl
  | p :: rest, h => by
      rw [findIfinfo_cons_of_resolves (h p List.mem_cons_self), List.find?_cons]
      cases inSubnet ip p with
      | true => rfl
      | false => exact findIfinfo_of_resolves fun q hq => h q (List.mem_cons_of_mem _ hq)

/-- A split of `a :: l` at an entry where `Q` holds, past entries where `P` holds, is at `a`
or one of `l`. -/
theorem exists_split_cons_iff {α : Type*} {P Q : α → Prop} {a : α} {l : List α} :
    (∃ pre q post, a :: l = pre ++ q :: post ∧ (∀ x ∈ pre, P x) ∧ Q q) ↔
      Q a ∨ P a ∧ ∃ pre q post, l = pre ++ q :: post ∧ (∀ x ∈ pre, P x) ∧ Q q := by
  constructor
  · rintro ⟨pre, q, post, heq, hpre, hq⟩
    cases pre with
    | nil =>
        obtain ⟨rfl, -⟩ := List.cons.inj heq
        exact .inl hq
    | cons x pre =>
        obtain ⟨rfl, rfl⟩ := List.cons.inj heq
        exact .inr ⟨hpre _ List.mem_cons_self, pre, q, post, rfl,
          fun y hy => hpre y (List.mem_cons_of_mem _ hy), hq⟩
  · rintro (hq | ⟨ha, pre, q, post, rfl, hpre, hq⟩)
    · exact ⟨[], a, l, rfl, fun _ h => absurd h List.not_mem_nil, hq⟩
    · refine ⟨a :: pre, q, post, rfl, fun x hx => ?_, hq⟩
      rcases List.mem_cons.1 hx with rfl | hx
      · exact ha
      · exact hpre x hx

/-- `find_ifinfo` returns `-1` exactly when an entry it reaches, past entries that convert and
miss, does not convert. -/
theorem findIfinfo_eq_neg_one_iff {ip : List Char} :
    ∀ {arr : List Ifinfo}, (findIfinfo arr ip).1 = -1 ↔
      ∃ pre p post, arr = pre ++ p :: post ∧
        (∀ q ∈ pre, Resolves ip q ∧ inSubnet ip q = false) ∧ ¬ Resolves ip p
  | [] => by simp [findIfinfo]
  | p :: rest => by
      rw [exists_split_cons_iff]
      by_cases hr : Resolves ip p
      · rw [findIfinfo_cons_of_resolves hr]
        cases hin : inSubnet ip p with
        | true =>
            -- a hit at `p`, which converts: neither side holds
            simp [hr]
        | false =>
            -- a miss at `p`: the failing entry is further on
            rw [if_neg (by simp), findIfinfo_eq_neg_one_iff]
            simp [hr]
      · rw [findIfinfo_cons_of_not_resolves hr]
        simp [hr]

/-- `inet_network` refuses the host mask `255.255.255.255`: it is `INADDR_NONE`. -/
theorem ip2Nbo_host_mask (ip : List Char) : ip2Nbo ip "255.255.255.255".toList = none := by
  have hnone : inetNetwork "255.255.255.255".toList = inaddrNone := by decide
  rw [ip2Nbo, if_pos hnone]

/-- `find_ifinfo` returns `0` only with the entry it found. -/
theorem findIfinfo_fst_eq_zero {ip : List Char} :
    ∀ {arr : List Ifinfo}, (findIfinfo arr ip).1 = 0 → ∃ p, findIfinfo arr ip = (0, some p)
  | [], h => by simp [findIfinfo] at h
  | q :: rest, h => by
      by_cases hr : Resolves ip q
      · rw [findIfinfo_cons_of_resolves hr] at h ⊢
        cases hin : inSubnet ip q with
        | true => exact ⟨q, rfl⟩
        | false =>
            rw [hin] at h
            exact findIfinfo_fst_eq_zero h
      · rw [findIfinfo_cons_of_not_resolves hr] at h
        simp at h

theorem getNameFromIp_of_findIfinfo {name : Ifinfo → List Char} {arr : List Ifinfo}
    {ipAddr : List Char} {p : Ifinfo} (h : findIfinfo arr ipAddr = (0, some p)) :
    getNameFromIp name arr ipAddr = (0, some (name p)) := by
  simp only [getNameFromIp, h, ne_eq, not_true_eq_false, if_false, Option.map_some]

theorem getNameFromIp_of_ne {name : Ifinfo → List Char} {arr : List Ifinfo} {ipAddr : List Char}
    (h : (findIfinfo arr ipAddr).1 ≠ 0) : getNameFromIp name arr ipAddr = (-1, none) := by
  simp only [getNameFromIp, if_pos h]

/-- `get_ifname_from_ip` and `get_brname_from_ip`, when the address and every entry convert:
the name of the first entry whose subnet holds the address, and `-1` when there is none. -/
theorem getNameFromIp_of_resolves (name : Ifinfo → List Char) {arr : List Ifinfo}
    {ipAddr : List Char} (h : ∀ p ∈ arr, Resolves ipAddr p) :
    getNameFromIp name arr ipAddr =
      ((arr.find? (inSubnet ipAddr)).map fun p => (0, some (name p))).getD (-1, none) := by
  have hfind := findIfinfo_of_resolves h
  cases hp : arr.find? (inSubnet ipAddr) with
  | none =>
      rw [hp] at hfind
      exact getNameFromIp_of_ne (by rw [hfind]; decide)
  | some p =>
      rw [hp] at hfind
      exact getNameFromIp_of_findIfinfo hfind

/-- What `get_ifname_from_ip` and `get_brname_from_ip` answer: when the address and every entry
convert, the name of the first entry whose subnet holds the address, `-1` when none does; and
`-1` for every address once `find_ifinfo` reaches an entry configured with the host mask
`255.255.255.255` past entries that miss it. -/
theorem getNameFromIp_spec (name : Ifinfo → List Char) (arr : List Ifinfo) (ip : List Char) :
    ((∀ p ∈ arr, Resolves ip p) →
      getNameFromIp name arr ip =
        ((arr.find? (inSubnet ip)).map fun p => (0, some (name p))).getD (-1, none)) ∧
    (∀ pre p post, arr = pre ++ p :: post → (∀ q ∈ pre, Resolves ip q ∧ inSubnet ip q = false) →
      p.subnetMask = "255.255.255.255".toList → getNameFromIp name arr ip = (-1, none)) := by
  refine ⟨getNameFromIp_of_resolves name, fun pre p post harr hpre hmask => ?_⟩
  -- the entry with the host mask does not convert, so `find_ifinfo` stops there with `-1`
  have hnot : ¬ Resolves ip p := fun hr => by
    have hsome := hr.2
    rw [hmask, ip2Nbo_host_mask] at hsome
    exact absurd hsome (by decide)
  have hfind : (findIfinfo arr ip).1 = -1 :=
    findIfinfo_eq_neg_one_iff.2 ⟨pre, p, post, harr, hpre, hnot⟩
  exact getNameFromIp_of_ne (by rw [hfind]; decide)

/-- The entry `find_ifinfo` returns is in the array, converts, and its subnet holds the
address. -/
theorem findIfinfo_eq_some {ip : List Char} {c : ℤ} {p : Ifinfo} :
    ∀ {arr : List Ifinfo}, findIfinfo arr ip = (c, some p) →
      p ∈ arr ∧ Resolves ip p ∧ inSubnet ip p = true
  | [], h => by simp [findIfinfo] at h
  | q :: rest, h => by
      by_cases hr : Resolves ip q
      · rw [findIfinfo_cons_of_resolves hr] at h
        cases hin : inSubnet ip q with
        | true =>
            rw [hin, if_pos rfl, Prod.mk.injEq, Option.some.injEq] at h
            obtain ⟨-, rfl⟩ := h
            exact ⟨List.mem_cons_self, hr, hin⟩
        | false =>
            rw [hin] at h
            obtain ⟨hmem, hp⟩ := findIfinfo_eq_some h
            exact ⟨List.mem_cons_of_mem _ hmem, hp⟩
      · rw [findIfinfo_cons_of_not_resolves hr] at h
        simp at h

/-! ## The subnet table -/

/-- `os_strlcpy` into a buffer of the same size copies what a copy left whole. -/
theorem osStrlcpy_osStrlcpy (s : List Char) (siz : ℕ) :
    osStrlcpy (osStrlcpy s siz) siz = osStrlcpy s siz := by
  have hnul : '\x00' ∉ (cStr s).take (siz - 1) := fun h => not_mem_cStr s (List.mem_of_mem_take h)
  rw [osStrlcpy, osStrlcpy, cStr_of_not_mem hnul, List.take_take, Nat.min_self]

/-- The key `create_if_mapper` stores an entry under, with the interface it stores. -/
def ifMapperEntry (p : Ifinfo) : Option (UInt32 × List Char) :=
  (ip2Nbo p.ipAddr p.subnetMask).map fun addr => (addr, osStrlcpy p.ifname Iptables.ifNamesize)

/-- `create_if_mapper` over entries that all convert: the puts of their subnets, in order. -/
theorem createIfMapper_of_convert :
    ∀ {arr : List Ifinfo}, (∀ p ∈ arr, (ip2Nbo p.ipAddr p.subnetMask).isSome) →
      ∀ hmap, createIfMapper arr hmap =
        (true, (arr.filterMap ifMapperEntry).foldl (fun t e => put t e.1 e.2) hmap)
  | [], _, _ => rfl
  | p :: rest, h, hmap => by
      obtain ⟨addr, haddr⟩ := Option.isSome_iff_exists.1 (h p List.mem_cons_self)
      have hentry : ifMapperEntry p = some (addr, osStrlcpy p.ifname Iptables.ifNamesize) := by
        rw [ifMapperEntry, haddr, Option.map_some]
      rw [createIfMapper, haddr, List.filterMap_cons, hentry, List.foldl_cons]
      exact createIfMapper_of_convert (fun q hq => h q (List.mem_cons_of_mem _ hq)) _

/-- The subnet table built at start-up answers a subnet with the interface of the last entry
of that subnet, and `0` for a subnet no entry has. -/
theorem getIfMapper_createIfMapper {arr : List Ifinfo}
    (h : ∀ p ∈ arr, (ip2Nbo p.ipAddr p.subnetMask).isSome) (subnet : UInt32) :
    getIfMapper (createIfMapper arr []).2 subnet =
      ((arr.reverse.find? fun p => ip2Nbo p.ipAddr p.subnetMask = some subnet).map
        fun p => (1, some (osStrlcpy p.ifname Iptables.ifNamesize))).getD (0, none) := by
  have hlookup : ((arr.filterMap ifMapperEntry).foldl (fun t e => put t e.1 e.2) []).lookup
      subnet = (arr.reverse.find? fun p => ip2Nbo p.ipAddr p.subnetMask = some subnet).map
        fun p => osStrlcpy p.ifname Iptables.ifNamesize := by
    rw [lookup_foldl_put, List.lookup_nil, Option.or_none, ← List.filterMap_reverse]
    exact lookup_filterMap _ _ _ _
  rw [createIfMapper_of_convert h, getIfMapper, hlookup]
  cases arr.reverse.find? fun p => ip2Nbo p.ipAddr p.subnetMask = some subnet with
  | none => rfl
  | some p => simp only [Option.map_some, Option.getD_some, osStrlcpy_osStrlcpy]

/-- When the configured subnets are distinct, the subnet table and `find_ifinfo` agree: under
the subnet of the entry `find_ifinfo` finds for an address, the table holds that entry's
interface. -/
theorem getIfMapper_of_findIfinfo {arr : List Ifinfo}
    (hconv : ∀ q ∈ arr, (ip2Nbo q.ipAddr q.subnetMask).isSome)
    (hnodup : (arr.map fun q => ip2Nbo q.ipAddr q.subnetMask).Nodup) {ip : List Char}
    {p : Ifinfo} (hfind : findIfinfo arr ip = (0, some p)) :
    ∃ subnet, ip2Nbo ip p.subnetMask = some subnet ∧
      getIfMapper (createIfMapper arr []).2 subnet =
        (1, some (osStrlcpy p.ifname Iptables.ifNamesize)) := by
  obtain ⟨hmem, hres, hin⟩ := findIfinfo_eq_some hfind
  obtain ⟨subnet, hsub⟩ := Option.isSome_iff_exists.1 hres.1
  have hip : ip2Nbo ip p.subnetMask = some subnet := by
    rw [inSubnet, decide_eq_true_eq] at hin
    rw [hin, hsub]
  refine ⟨subnet, hip, ?_⟩
  -- the last entry of the subnet is `p` itself, the subnets being distinct
  have hlast : (arr.reverse.find? fun q => ip2Nbo q.ipAddr q.subnetMask = some subnet) =
      some p := by
    cases hq : arr.reverse.find? fun q => ip2Nbo q.ipAddr q.subnetMask = some subnet with
    | none =>
        have := List.find?_eq_none.1 hq p (List.mem_reverse.2 hmem)
        simp [hsub] at this
    | some q =>
        have hqmem := List.mem_reverse.1 (List.mem_of_find?_eq_some hq)
        have hqkey : ip2Nbo q.ipAddr q.subnetMask = some subnet := by
          simpa using List.find?_some hq
        rw [List.inj_on_of_nodup_map hnodup hqmem hmem (hqkey.trans hsub.symm)]
  rw [getIfMapper_createIfMapper hconv, hlast, Option.map_some, Option.getD_some]

/-- The entry of `br0`: VLAN 1 on `10.0.0.0/24`. -/
def br0Ifinfo : Ifinfo :=
  ⟨⟨1, "10.0.0.1".toList, "10.0.0.255".toList, "255.255.255.0".toList⟩, "br0".toList,
    "br0".toList⟩

/-- The entry of `br1`: VLAN 2 on `10.0.1.0/24`. -/
def br1Ifinfo : Ifinfo :=
  ⟨⟨2, "10.0.1.1".toList, "10.0.1.255".toList, "255.255.255.0".toList⟩, "br1".toList,
    "br1".toList⟩

/-- Two subnets, `10.0.0.0/24` on `br0` and `10.0.1.0/24` on `br1`. -/
def sampleIfinfoArray : List Ifinfo := [br0Ifinfo, br1Ifinfo]

/-- `10.0.1.2` is found in the subnet of `br1`, which the subnet table holds. -/
theorem getIfMapper_of_findIfinfo_br1 :
    (∀ q ∈ sampleIfinfoArray, (ip2Nbo q.ipAddr q.subnetMask).isSome) ∧
      (sampleIfinfoArray.map fun q => ip2Nbo q.ipAddr q.subnetMask).Nodup ∧
      findIfinfo sampleIfinfoArray "10.0.1.2".toList = (0, some br1Ifinfo) ∧
      ∃ subnet, ip2Nbo "10.0.1.2".toList br1Ifinfo.subnetMask = some subnet ∧
        getIfMapper (createIfMapper sampleIfinfoArray []).2 subnet =
          (1, some (osStrlcpy br1Ifinfo.ifname Iptables.ifNamesize)) := by
  have hconv : ∀ q ∈ sampleIfinfoArray, (ip2Nbo q.ipAddr q.subnetMask).isSome := by
    decide +kernel
  have hnodup : (sampleIfinfoArray.map fun q => ip2Nbo q.ipAddr q.subnetMask).Nodup := by
    decide +kernel
  have hfind : findIfinfo sampleIfinfoArray "10.0.1.2".toList = (0, some br1Ifinfo) := by
    decide +kernel
  exact ⟨hconv, hnodup, hfind, getIfMapper_of_findIfinfo hconv hnodup hfind⟩

/-! ## The VLAN table -/

/-- After start-up the VLAN table answers a VLAN with the interface of its last entry, and no
capture thread. -/
theorem getVlanMapper_createVlanMapper (arr : List Ifinfo) (vlanid : ℤ) :
    getVlanMapper (createVlanMapper arr []) vlanid =
      ((arr.reverse.find? fun p => p.vlanid = vlanid).map
        fun p => (1, some ⟨vlanid, p.ifname, 0⟩)).getD (0, none) := by
  have hfold : createVlanMapper arr [] =
      (arr.filterMap fun p => some (p.vlanid, (⟨p.vlanid, p.ifname, 0⟩ : VlanConn))).foldl
        (fun t e => put t e.1 e.2) [] := by
    rw [createVlanMapper, List.filterMap_eq_map', List.foldl_map]
    rfl
  have hlookup := lookup_filterMap (fun p : Ifinfo => some p.vlanid)
    (fun p => (⟨p.vlanid, p.ifname, 0⟩ : VlanConn)) arr.reverse vlanid
  simp only [Option.map_some, Option.some.injEq] at hlookup
  rw [getVlanMapper, hfold, lookup_foldl_put, List.lookup_nil, Option.or_none,
    ← List.filterMap_reverse, hlookup]
  cases hp : arr.reverse.find? fun p => p.vlanid = vlanid with
  | none => rfl
  | some p =>
      have hv : p.vlanid = vlanid := by simpa using List.find?_some hp
      rw [Option.map_some, Option.map_some, Option.getD_some, hv]

/-- After `init_ifbridge_names` and `create_vlan_mapper`, the VLAN table holds exactly the
configured VLANs, each with the interface its prefix and ID name. -/
theorem getVlanMapper_createVlanMapper_initIfbridgeNames (arr : List ConfigIfinfo)
    (ifname brname : List Char) (vlanid : ℤ) :
    getVlanMapper (createVlanMapper (initIfbridgeNames arr ifname brname) []) vlanid =
      if vlanid ∈ arr.map (·.vlanid) then (1, some ⟨vlanid, ifbridgeName ifname vlanid, 0⟩)
      else (0, none) := by
  rw [getVlanMapper_createVlanMapper, initIfbridgeNames, ← List.map_reverse, List.find?_map]
  cases hp : arr.reverse.find? ((fun p : Ifinfo => decide (p.vlanid = vlanid)) ∘ fun p =>
      { toConfigIfinfo := p, ifname := ifbridgeName ifname p.vlanid,
        brname := ifbridgeName brname p.vlanid }) with
  | none =>
      have hnot : vlanid ∉ arr.map (·.vlanid) := by
        intro hv
        obtain ⟨q, hq, rfl⟩ := List.mem_map.1 hv
        have := List.find?_eq_none.1 hp q (List.mem_reverse.2 hq)
        simp at this
      rw [if_neg hnot]
      rfl
  | some q =>
      have hv : q.vlanid = vlanid := by simpa using List.find?_some hp
      have hmem : vlanid ∈ arr.map (·.vlanid) :=
        List.mem_map.2 ⟨q, List.mem_reverse.1 (List.mem_of_find?_eq_some hp), hv⟩
      rw [if_pos hmem, Option.map_some, Option.map_some, Option.getD_some]
      simp only [hv]

/-- The keys of a VLAN table are distinct, and each is the VLAN ID of its connection. -/
structure VlanKeyed (hmap : HmapVlanConn) : Prop where
  nodup : (hmap.map Prod.fst).Nodup
  key_eq : ∀ e ∈ hmap, e.1 = e.2.vlanid

theorem VlanKeyed.putVlanMapper {hmap : HmapVlanConn} (h : VlanKeyed hmap) (conn : VlanConn) :
    VlanKeyed (putVlanMapper hmap conn) where
  nodup := nodup_map_fst_put h.nodup _ _
  key_eq e he := by
    rcases mem_put he with he | rfl
    · exact h.key_eq e he
    · rfl

theorem vlanKeyed_createVlanMapper (arr : List Ifinfo) {hmap : HmapVlanConn}
    (h : VlanKeyed hmap) : VlanKeyed (createVlanMapper arr hmap) := by
  induction arr generalizing hmap with
  | nil => exact h
  | cons p rest ih => exact ih (h.putVlanMapper _)

/-- Copying a VLAN table entry by entry into an empty one gives it back: the keys being new and
distinct, every put appends. -/
theorem copyVlanMapper_nil {hmap : HmapVlanConn} (h : VlanKeyed hmap) :
    copyVlanMapper hmap [] = hmap := by
  have hput : ∀ (c : HmapVlanConn) (e : ℤ × VlanConn), e ∈ hmap →
      putVlanMapper c e.2 = put c e.1 e.2 := by
    intro c e he
    rw [putVlanMapper, h.key_eq e he]
  rw [copyVlanMapper, List.foldl_ext _ _ _ fun c e he => hput c e he]
  exact foldl_put_of_nodup hmap [] h.nodup

/-- The VLAN table of the two sample entries copies back whole. -/
theorem copyVlanMapper_nil_sample :
    VlanKeyed (createVlanMapper sampleIfinfoArray []) ∧
      copyVlanMapper (createVlanMapper sampleIfinfoArray []) [] =
        createVlanMapper sampleIfinfoArray [] := by
  have hnil : VlanKeyed [] := ⟨List.nodup_nil, fun _ he => absurd he List.not_mem_nil⟩
  have h := vlanKeyed_createVlanMapper sampleIfinfoArray hnil
  exact ⟨h, copyVlanMapper_nil h⟩

end EdgeSec.IfaceMapper
