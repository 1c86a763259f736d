import EdgeSec.Lib.Machine
import EdgeSec.Lib.FirstOccurrence
import EdgeSec.Utils.Os
import EdgeSec.Capture.MdnsDecoder

/-!
# The mDNS mapper of `src/dns/mdns_mapper.c`

The mDNS service remembers, for every IPv4 address it has seen mDNS traffic for, which names
were asked for (queries) and announced (answers): a uthash table `hmap_mdns_conn` keyed by the
four address bytes, whose value is a `struct mdns_list` of `(request, name)` entries
(`src/dns/mdns_list.c`).  `put_mdns_info` makes the list of a new address first and adds the
address to the table only once the first push into it has succeeded; `push_mdns_list` leaves
the list as it is when it already holds the same request type and name (`strcmp`), and
otherwise adds a copy (`os_strdup`) at its tail.  `send_bridge_command` asks the table whether
either end of a packet has given an answer.

The table is an association list in insertion order, as for the MAC mapper.  Every allocation
of a put may fail: which ones do is part of the command (`MapperAlloc`), so what is proved
holds for every pattern of failures.  A name is a C string: what a put stores and compares is
its text up to the first NUL.  The fields `ttl`, `rrtype` and `qtype` of
`struct mdns_list_info` are copied but never read, and are left out; so are the `NULL` checks
on the pointer arguments, which every caller passes valid.

## Main results

* `pushMdnsList_eq`: on a list of stored entries, a push keeps the list when it holds the
  entry, and otherwise appends it, or fails and keeps the list.
* `putMdnsMapper_cases`: a put fails with the table unchanged, or succeeds and appends the
  entry to its address's list (an empty one for a new address) unless it is there.
* `mapperInv_run`: after any run of puts from the empty table the keys are distinct, an
  address has an entry exactly when a put for it succeeded, and its list is the first
  occurrences of the entries successfully put for it.
* `mdns_mapper_tracks_successful_puts`: hence `check_mdns_mapper_req` answers `1` exactly when
  a successful put for the address had the request type, and the lists have no repeats.
* `bridgeCommandCheck_run`: `send_bridge_command` goes on to build a domain command exactly
  when a successful answer put was made for one of the packet's two addresses.
-/

namespace EdgeSec

namespace Mdns

open Machine FirstOccurrence

/-- `enum MDNS_REQUEST_TYPE`. -/
inductive MdnsRequestType
  | none
  | query
  | answer
  deriving Repr, DecidableEq

/-- `struct mdns_list_info`: the request type and the name, the fields the mapper reads. -/
structure MdnsListInfo where
  request : MdnsRequestType
  name : String
  deriving Repr, DecidableEq

/-- An IPv4 address, `uint8_t ip[IP_ALEN]`. -/
abbrev IpAddr4 := Vector UInt8 4

/-- `hmap_mdns_conn`: the table's entries in insertion order, each address with the entries
of its `struct mdns_list` in list order. -/
abbrev HmapMdnsConn := List (IpAddr4 × List MdnsListInfo)

/-- `os_strdup`: a copy of the C string `s` holds. -/
def strdup (s : String) : String := String.ofList (Os.cStr s.toList)

/-- `strcmp (a, b) == 0`. -/
def strcmpEq (a b : String) : Bool := Os.cStr a.toList == Os.cStr b.toList

/-- The element `push_mdns_list` adds for `info`: `el->info = *info` with the name copied. -/
def storedInfo (info : MdnsListInfo) : MdnsListInfo := { info with name := strdup info.name }

/-- `push_mdns_list`; `elemOk` says whether the new element and the copy of its name can be
allocated (`init_mdns_list`, `os_strdup`), asked only when the entry is new. -/
def pushMdnsList (elemOk : Bool) (mlist : List MdnsListInfo) (info : MdnsListInfo) :
    List MdnsListInfo × Int :=
  if mlist.any (fun el => el.request == info.request && strcmpEq el.name info.name) then
    (mlist, 0)
  else if elemOk then (mlist ++ [storedInfo info], 0)
  else (mlist, -1)

/-- `check_mdns_list_req`. -/
def checkMdnsListReq (mlist : List MdnsListInfo) (request : MdnsRequestType) : Int :=
  if mlist.any (·.request == request) then 1 else 0

/-- `HASH_FIND` on an address: the list of its entry. -/
def hashFind : HmapMdnsConn → IpAddr4 → Option (List MdnsListInfo)
  | [], _ => none
  | e :: rest, ip => if e.1 = ip then some e.2 else hashFind rest ip

/-- The table after the list of the entry `HASH_FIND` returns has been changed in place. -/
def hashUpdate : HmapMdnsConn → IpAddr4 → List MdnsListInfo → HmapMdnsConn
  | [], _, _ => []
  | e :: rest, ip, l => if e.1 = ip then (e.1, l) :: rest else e :: hashUpdate rest ip l

/-- Whether the allocations of one put succeed: `entryOk` for the table entry of a new address
and its list head (`os_malloc`, `init_mdns_list` in `put_mdns_info`), `elemOk` for the list
element of a new entry (`push_mdns_list`). -/
structure MapperAlloc where
  entryOk : Bool
  elemOk : Bool
  deriving Repr, DecidableEq

/-- `put_mdns_info`. -/
def putMdnsInfo (alloc : MapperAlloc) (imap : HmapMdnsConn) (ip : IpAddr4)
    (info : MdnsListInfo) : HmapMdnsConn × Int :=
  match hashFind imap ip with
  | none =>
      if alloc.entryOk then
        -- the new list is filled before the entry joins the table (`HASH_ADD` last)
        let r := pushMdnsList alloc.elemOk [] info
        if r.2 < 0 then (imap, -1) else (imap ++ [(ip, r.1)], 0)
      else (imap, -1)
  | some mlist =>
      -- a failed push has changed nothing of the list it was given
      let r := pushMdnsList alloc.elemOk mlist info
      if r.2 < 0 then (imap, -1) else (hashUpdate imap ip r.1, 0)

/-- The body `put_mdns_query_mapper` and `put_mdns_answer_mapper` share: `put_mdns_info` of the
info they built, with its failure passed on as `-1`. -/
def putMdnsMapper (alloc : MapperAlloc) (imap : HmapMdnsConn) (ip : IpAddr4)
    (info : MdnsListInfo) : HmapMdnsConn × Int :=
  let r := putMdnsInfo alloc imap ip info
  (r.1, if r.2 < 0 then -1 else 0)

/-- The info `put_mdns_query_mapper` builds. -/
def queryInfo (query : MdnsQueryEntry) : MdnsListInfo := ⟨.query, query.qname⟩

/-- The info `put_mdns_answer_mapper` builds. -/
def answerInfo (answer : MdnsAnswerEntry) : MdnsListInfo := ⟨.answer, answer.rrname⟩

/-- `put_mdns_query_mapper`. -/
def putMdnsQueryMapper (alloc : MapperAlloc) (imap : HmapMdnsConn) (ip : IpAddr4)
    (query : MdnsQueryEntry) : HmapMdnsConn × Int :=
  putMdnsMapper alloc imap ip (queryInfo query)

/-- `put_mdns_answer_mapper`. -/
def putMdnsAnswerMapper (alloc : MapperAlloc) (imap : HmapMdnsConn) (ip : IpAddr4)
    (answer : MdnsAnswerEntry) : HmapMdnsConn × Int :=
  putMdnsMapper alloc imap ip (answerInfo answer)

/-- `check_mdns_mapper_req`. -/
def checkMdnsMapperReq (imap : HmapMdnsConn) (ip : IpAddr4) (request : MdnsRequestType) : Int :=
  match hashFind imap ip with
  | none => 0
  | some mlist =>
      let ret := checkMdnsListReq mlist request
      if ret < 0 then -1 else ret

/-- The test `send_bridge_command` makes on the table for an IPv4 packet from `sip` to `dip`:
`none` for the `-1` of a failed check, `some false` for the early `return 0` when neither
address has an answer, `some true` when it goes on to build the domain command. -/
def bridgeCommandCheck (imap : HmapMdnsConn) (sip dip : IpAddr4) : Option Bool :=
  let ret := checkMdnsMapperReq imap sip .answer
  let retd := checkMdnsMapperReq imap dip .answer
  if ret < 0 then none
  else if retd < 0 then none
  else some !(ret == 0 && retd == 0)

/-- The puts the mDNS service makes (`mdns_service.c`), each with whether its allocations
succeed. -/
inductive MapperCmd
  | putQuery (alloc : MapperAlloc) (ip : IpAddr4) (query : MdnsQueryEntry)
  | putAnswer (alloc : MapperAlloc) (ip : IpAddr4) (answer : MdnsAnswerEntry)

namespace MapperCmd

/-- The address a put is for. -/
def ip : MapperCmd → IpAddr4
  | .putQuery _ ip _ => ip
  | .putAnswer _ ip _ => ip

/-- The info a put builds. -/
def info : MapperCmd → MdnsListInfo
  | .putQuery _ _ query => queryInfo query
  | .putAnswer _ _ answer => answerInfo answer

/-- The allocations of a put. -/
def alloc : MapperCmd → MapperAlloc
  | .putQuery alloc _ _ => alloc
  | .putAnswer alloc _ _ => alloc

end MapperCmd

/-- One put on the table, with its return value. -/
def mapperStep (imap : HmapMdnsConn) : MapperCmd → HmapMdnsConn × Int
  | .putQuery alloc ip query => putMdnsQueryMapper alloc imap ip query
  | .putAnswer alloc ip answer => putMdnsAnswerMapper alloc imap ip answer

/-- The entries successfully put for `ip` along the steps `ts`, as they were stored. -/
def putsFor (ts : List (Transition HmapMdnsConn MapperCmd Int)) (ip : IpAddr4) :
    List MdnsListInfo :=
  (ts.filter fun t => t.reply = 0 ∧ t.cmd.ip = ip).map fun t => storedInfo t.cmd.info

/-! ## C strings -/

@[simp] theorem strdup_strdup (s : String) : strdup (strdup s) = strdup s := by
  rw [strdup, strdup, String.toList_ofList, Os.cStr_of_not_mem (Os.not_mem_cStr _)]

theorem strcmpEq_iff (a b : String) : strcmpEq a b = true ↔ strdup a = strdup b := by
  rw [strcmpEq, beq_iff_eq, strdup, strdup, String.ofList_inj]

/-- An element `push_mdns_list` added: its name is a copy, so a copy of it is itself. -/
def IsStored (el : MdnsListInfo) : Prop := strdup el.name = el.name

theorem isStored_storedInfo (info : MdnsListInfo) : IsStored (storedInfo info) :=
  strdup_strdup info.name

/-- On a stored element, the test of `push_mdns_list` is equality with the element it would
add. -/
theorem push_test_iff {el : MdnsListInfo} (hel : IsStored el) (info : MdnsListInfo) :
    (el.request == info.request && strcmpEq el.name info.name) = true ↔ el = storedInfo info := by
  rw [Bool.and_eq_true, beq_iff_eq, strcmpEq_iff, hel]
  constructor
  · rintro ⟨hreq, hname⟩
    cases el
    simp only [storedInfo] at hreq hname ⊢
    rw [hreq, hname]
  · rintro rfl
    exact ⟨rfl, rfl⟩

/-! ## The list -/

/-- A push into a list of stored elements: the list is kept when it holds the element the
push would add, else that element is appended, or the allocation fails. -/
theorem pushMdnsList_eq {mlist : List MdnsListInfo} (hstored : ∀ el ∈ mlist, IsStored el)
    (elemOk : Bool) (info : MdnsListInfo) :
    pushMdnsList elemOk mlist info =
      if storedInfo info ∈ mlist then (mlist, 0)
      else if elemOk then (mlist ++ [storedInfo info], 0)
      else (mlist, -1) := by
  have hany : mlist.any (fun el => el.request == info.request && strcmpEq el.name info.name) =
      decide (storedInfo info ∈ mlist) := by
    rw [Bool.eq_iff_iff, List.any_eq_true, decide_eq_true_iff]
    constructor
    · rintro ⟨el, hmem, htest⟩
      rwa [← (push_test_iff (hstored el hmem) info).1 htest]
    · intro hmem
      exact ⟨_, hmem, (push_test_iff (isStored_storedInfo info) info).2 rfl⟩
  unfold pushMdnsList
  rw [hany]
  by_cases hmem : storedInfo info ∈ mlist <;> simp [hmem]

theorem checkMdnsListReq_eq (mlist : List MdnsListInfo) (request : MdnsRequestType) :
    checkMdnsListReq mlist request = if ∃ el ∈ mlist, el.request = request then 1 else 0 := by
  simp [checkMdnsListReq, List.any_eq_true]

/-- A missing address reads as an empty list. -/
theorem checkMdnsMapperReq_eq (imap : HmapMdnsConn) (ip : IpAddr4) (request : MdnsRequestType) :
    checkMdnsMapperReq imap ip request = checkMdnsListReq ((hashFind imap ip).getD []) request := by
  unfold checkMdnsMapperReq
  split
  · rename_i hfind
    rw [hfind]
    rfl
  · rename_i mlist hfind
    rw [hfind, Option.getD_some, checkMdnsListReq_eq]
    split <;> simp

/-! ## The table -/

theorem hashFind_eq_none_iff (imap : HmapMdnsConn) (ip : IpAddr4) :
    hashFind imap ip = none ↔ ip ∉ imap.map Prod.fst := by
  induction imap with
  | nil => simp [hashFind]
  | cons e rest ih =>
      by_cases he : e.1 = ip
      · simp [hashFind, he]
      · simp [hashFind, he, ih, Ne.symm he]

/-- `HASH_ADD` of an address that has no entry. -/
theorem hashFind_append_of_none {imap : HmapMdnsConn} {ip : IpAddr4}
    (hnone : hashFind imap ip = none) (l : List MdnsListInfo) (x : IpAddr4) :
    hashFind (imap ++ [(ip, l)]) x = if x = ip then some l else hashFind imap x := by
  induction imap with
  | nil => by_cases hx : x = ip <;> simp [hashFind, hx, Ne.symm]
  | cons e rest ih =>
      have he : e.1 ≠ ip := by
        intro he
        simp [hashFind, he] at hnone
      have hrest : hashFind rest ip = none := by simpa [hashFind, he] using hnone
      by_cases hex : e.1 = x
      · subst hex
        simp [hashFind, he]
      · simp only [List.cons_append, hashFind, hex, if_false, ih hrest]

theorem hashFind_hashUpdate (imap : HmapMdnsConn) (ip : IpAddr4) (l : List MdnsListInfo)
    (x : IpAddr4) :
    hashFind (hashUpdate imap ip l) x =
      if x = ip then (hashFind imap ip).map fun _ => l else hashFind imap x := by
  induction imap with
  | nil => simp [hashUpdate, hashFind]
  | cons e rest ih =>
      by_cases he : e.1 = ip
      · by_cases hx : x = ip
        · simp [hashUpdate, hashFind, he, hx]
        · have hex : e.1 ≠ x := by
            rw [he]
            exact Ne.symm hx
          rw [hashUpdate, if_pos he]
          simp [hashFind, hex, hx]
      · simp only [hashUpdate, hashFind, he, if_false, ih]
        by_cases hex : e.1 = x
        · subst hex
          simp [he]
        · simp [hex]

theorem map_fst_hashUpdate (imap : HmapMdnsConn) (ip : IpAddr4) (l : List MdnsListInfo) :
    (hashUpdate imap ip l).map Prod.fst = imap.map Prod.fst := by
  induction imap with
  | nil => rfl
  | cons e rest ih =>
      by_cases he : e.1 = ip
      · simp [hashUpdate, he]
      · simp [hashUpdate, he, ih]

/-- A put keeps the keys of the table distinct. -/
theorem keysNodup_putMdnsInfo {imap : HmapMdnsConn} (hkeys : (imap.map Prod.fst).Nodup)
    (alloc : MapperAlloc) (ip : IpAddr4) (info : MdnsListInfo) :
    ((putMdnsInfo alloc imap ip info).1.map Prod.fst).Nodup := by
  unfold putMdnsInfo
  split
  · rename_i hnone
    have hnew : ip ∉ imap.map Prod.fst := (hashFind_eq_none_iff imap ip).1 hnone
    dsimp only
    split
    · split
      · exact hkeys
      · rw [List.map_append, List.map_singleton]
        exact hkeys.append (List.nodup_singleton ip) (by simpa using hnew)
    · exact hkeys
  · dsimp only
    split
    · exact hkeys
    · rwa [map_fst_hashUpdate]

/-- What a put does to a table whose lists hold stored elements: it fails and leaves the
table as it was, or it succeeds, and the list of its address (empty for a new address) gains
the element the push adds unless it holds it already. -/
theorem putMdnsInfo_cases {imap : HmapMdnsConn} {ip : IpAddr4}
    (hstored : ∀ el ∈ (hashFind imap ip).getD [], IsStored el)
    (alloc : MapperAlloc) (info : MdnsListInfo) :
    putMdnsInfo alloc imap ip info = (imap, -1) ∨
      ((putMdnsInfo alloc imap ip info).2 = 0 ∧
        ∀ x, hashFind (putMdnsInfo alloc imap ip info).1 x =
          if x = ip then some (appendIfNew ((hashFind imap ip).getD []) (storedInfo info))
          else hashFind imap x) := by
  unfold putMdnsInfo
  split
  · -- a new address: the push goes into an empty list
    rename_i hnone
    rw [pushMdnsList_eq (by simp)]
    by_cases hentry : alloc.entryOk
    · by_cases helem : alloc.elemOk
      · refine .inr ⟨by simp [hentry, helem], fun x => ?_⟩
        simp only [hentry, helem, List.not_mem_nil, if_false, if_true, lt_self_iff_false,
          List.nil_append, hashFind_append_of_none hnone, hnone]
        rfl
      · exact .inl (by simp [hentry, helem])
    · exact .inl (by simp [hentry])
  · -- a known address: the push goes into its list, changed in place
    rename_i mlist hfind
    rw [hfind, Option.getD_some] at hstored ⊢
    rw [pushMdnsList_eq hstored]
    by_cases hmem : storedInfo info ∈ mlist
    · refine .inr ⟨by simp [hmem], fun x => ?_⟩
      simp only [hmem, if_true, lt_self_iff_false, if_false, hashFind_hashUpdate, hfind,
        Option.map_some, appendIfNew]
    · by_cases helem : alloc.elemOk
      · refine .inr ⟨by simp [hmem, helem], fun x => ?_⟩
        simp only [hmem, helem, if_false, if_true, lt_self_iff_false, hashFind_hashUpdate, hfind,
          Option.map_some, appendIfNew]
      · exact .inl (by simp [hmem, helem])

theorem mapperStep_eq (imap : HmapMdnsConn) (c : MapperCmd) :
    mapperStep imap c = putMdnsMapper c.alloc imap c.ip c.info := by
  cases c <;> rfl

/-- A put returns `0` or `-1`, and `-1` only with the table unchanged. -/
theorem putMdnsMapper_cases {imap : HmapMdnsConn} {ip : IpAddr4}
    (hstored : ∀ el ∈ (hashFind imap ip).getD [], IsStored el)
    (alloc : MapperAlloc) (info : MdnsListInfo) :
    putMdnsMapper alloc imap ip info = (imap, -1) ∨
      ((putMdnsMapper alloc imap ip info).2 = 0 ∧
        ∀ x, hashFind (putMdnsMapper alloc imap ip info).1 x =
          if x = ip then some (appendIfNew ((hashFind imap ip).getD []) (storedInfo info))
          else hashFind imap x) := by
  unfold putMdnsMapper
  rcases putMdnsInfo_cases hstored alloc info with hfail | ⟨hok, hfind⟩
  · rw [hfail]
    exact .inl rfl
  · refine .inr ⟨by simp [hok], hfind⟩

/-! ## Runs -/

theorem putsFor_append_singleton (ts : List (Transition HmapMdnsConn MapperCmd Int))
    (t : Transition HmapMdnsConn MapperCmd Int) (ip : IpAddr4) :
    putsFor (ts ++ [t]) ip =
      putsFor ts ip ++ if t.reply = 0 ∧ t.cmd.ip = ip then [storedInfo t.cmd.info] else [] := by
  unfold putsFor
  rw [List.filter_append, List.map_append]
  by_cases ht : t.reply = 0 ∧ t.cmd.ip = ip <;> simp [ht]

/-- The table after the steps `ts`: its keys are distinct, an address has an entry exactly when
a put for it succeeded, and its list is the first occurrences of what was put for it. -/
structure MapperInv (imap : HmapMdnsConn) (ts : List (Transition HmapMdnsConn MapperCmd Int)) :
    Prop where
  keys_nodup : (imap.map Prod.fst).Nodup
  hashFind_eq : ∀ ip, hashFind imap ip =
    if putsFor ts ip = [] then none else some (firstOccurrences (putsFor ts ip))

theorem MapperInv.getD_hashFind {imap : HmapMdnsConn} {ts} (h : MapperInv imap ts)
    (ip : IpAddr4) : (hashFind imap ip).getD [] = firstOccurrences (putsFor ts ip) := by
  rw [h.hashFind_eq ip]
  split
  · rename_i hnil
    rw [hnil]
    rfl
  · rfl

theorem MapperInv.stored {imap : HmapMdnsConn} {ts} (h : MapperInv imap ts) (ip : IpAddr4) :
    ∀ el ∈ (hashFind imap ip).getD [], IsStored el := by
  intro el hel
  rw [h.getD_hashFind, mem_firstOccurrences, putsFor, List.mem_map] at hel
  obtain ⟨t, -, rfl⟩ := hel
  exact isStored_storedInfo _

theorem mapperInv_nil : MapperInv [] [] :=
  ⟨List.nodup_nil, fun ip => by simp [hashFind, putsFor]⟩

/-- One put keeps the invariant, with the put recorded among the steps. -/
theorem mapperInv_step {imap : HmapMdnsConn} {ts} (h : MapperInv imap ts) (c : MapperCmd) :
    MapperInv (mapperStep imap c).1
      (ts ++ [⟨imap, c, (mapperStep imap c).1, (mapperStep imap c).2⟩]) := by
  rw [mapperStep_eq]
  constructor
  · exact keysNodup_putMdnsInfo h.keys_nodup c.alloc c.ip c.info
  · intro x
    rw [putsFor_append_singleton]
    rcases putMdnsMapper_cases (h.stored c.ip) c.alloc c.info with hfail | ⟨hok, hfind⟩
    · -- a failed put changes neither the table nor what was put
      simp only [hfail, show (-1 : Int) ≠ 0 by decide, false_and, if_false, List.append_nil]
      exact h.hashFind_eq x
    · rw [hfind x, hok]
      by_cases hx : x = c.ip
      · subst hx
        simp only [and_self, List.append_eq_nil_iff, List.cons_ne_nil, and_false, ↓reduceIte,
          h.getD_hashFind, firstOccurrences_append_singleton]
      · simp only [Ne.symm hx, hx, and_false, if_false, List.append_nil]
        exact h.hashFind_eq x

/-- The invariant holds after every run of puts from the empty table. -/
theorem mapperInv_run (cmds : List MapperCmd) :
    MapperInv (run mapperStep [] cmds).1 (transitions mapperStep [] cmds) :=
  transitions_invariant (fun imap ts => MapperInv imap ts) mapperInv_nil
    (fun _ _ c h => mapperInv_step h c) cmds

theorem mdns_mapper_tracks_successful_puts (cmds : List MapperCmd) (ip : IpAddr4)
    (request : MdnsRequestType) :
    checkMdnsMapperReq (run mapperStep [] cmds).1 ip request =
        (if ∃ el ∈ putsFor (transitions mapperStep [] cmds) ip, el.request = request then 1
          else 0) ∧
      ((hashFind (run mapperStep [] cmds).1 ip).getD []).Nodup ∧
      (hashFind (run mapperStep [] cmds).1 ip).getD [] =
        firstOccurrences (putsFor (transitions mapperStep [] cmds) ip) := by
  have hinv := mapperInv_run cmds
  refine ⟨?_, ?_, hinv.getD_hashFind ip⟩
  · rw [checkMdnsMapperReq_eq, checkMdnsListReq_eq, hinv.getD_hashFind]
    simp only [mem_firstOccurrences]
  · rw [hinv.getD_hashFind]
    exact nodup_firstOccurrences _

/-- The test of `send_bridge_command` reads the two addresses' lists: it never fails, and goes
on exactly when one of them holds an answer. -/
theorem bridgeCommandCheck_eq (imap : HmapMdnsConn) (sip dip : IpAddr4) :
    bridgeCommandCheck imap sip dip =
      some (decide ((∃ el ∈ (hashFind imap sip).getD [], el.request = .answer) ∨
        ∃ el ∈ (hashFind imap dip).getD [], el.request = .answer)) := by
  unfold bridgeCommandCheck
  rw [checkMdnsMapperReq_eq, checkMdnsMapperReq_eq, checkMdnsListReq_eq, checkMdnsListReq_eq]
  by_cases hs : ∃ el ∈ (hashFind imap sip).getD [], el.request = .answer <;>
    by_cases hd : ∃ el ∈ (hashFind imap dip).getD [], el.request = .answer <;>
    simp [hs, hd]

/-- After any run of puts, `send_bridge_command` goes on to build a domain command exactly when
a put of an answer for the source or the destination succeeded. -/
theorem bridgeCommandCheck_run (cmds : List MapperCmd) (sip dip : IpAddr4) :
    bridgeCommandCheck (run mapperStep [] cmds).1 sip dip =
      some (decide ((∃ el ∈ putsFor (transitions mapperStep [] cmds) sip, el.request = .answer) ∨
        ∃ el ∈ putsFor (transitions mapperStep [] cmds) dip, el.request = .answer)) := by
  have hinv := mapperInv_run cmds
  rw [bridgeCommandCheck_eq, hinv.getD_hashFind, hinv.getD_hashFind]
  simp only [mem_firstOccurrences]

end Mdns

end EdgeSec
