import EdgeSec.Lib.SortSearch
import EdgeSec.Lib.Machine

/-!
# The events subscribers array

`add_events_subscriber` (`src/supervisor/subscriber_events.c`) keeps the clients that asked for
events in `subscribers_array`: `utarray_find` (`bsearch`) looks the address up under
`sort_subscribers_array`, and a new one is pushed and the array sorted again
(`utarray_sort`, `qsort`).  `send_events` writes each event to every element of the array.
`sort_subscribers_array` orders by `len`, then by `compare_client_addresses`, which returns
`-1` for two addresses of different types whichever comes first.

`qsort` and `bsearch` are those of `Lib/SortSearch`: glibc's merge sort and binary search.
An address is the bytes of its `caddr` union, `len` as `recvfrom` wrote it, and its type;
`os_memcmp` is taken by its sign, and reads bytes past an address's list as zero.

## Main results

* `sortSubscribersArray_udp_domain`: a UDP and a domain-socket address of one `len` are each
  before the other, so the comparator is not lawful (`not_lawfulCmp_sortSubscribersArray`);
* `count_sendEvents`: `send_events` writes an event once per entry of the array;
* `resubscribed_client_gets_events_twice`: so a domain-socket client that subscribes twice
  after two UDP clients of its `len` is in the array twice (`run_subscribe_twice`) and is
  written every event twice.
-/

namespace EdgeSec

namespace Supervisor

open SortSearch Machine

/-- `enum SOCKET_TYPE`. -/
inductive SocketType
  | none
  | domain
  | udp
  deriving Repr, DecidableEq

/-- `struct client_address`: the bytes of its `caddr` union (`sockaddr_un` or `sockaddr_in`),
the length `recvfrom` gave for it, and its type. -/
structure ClientAddress where
  caddr : List UInt8
  len : ℕ
  type : SocketType
  deriving Repr, DecidableEq

/-- `os_memcmp(a, b, n)` by its sign: the first of the `n` bytes where the two differ decides. -/
def osMemcmp : List UInt8 → List UInt8 → ℕ → ℤ
  | _, _, 0 => 0
  | as, bs, n + 1 =>
      if as.headD 0 = bs.headD 0 then osMemcmp as.tail bs.tail n
      else if as.headD 0 < bs.headD 0 then -1
      else 1

/-- `caddr.addr_un.sun_path`, after the two bytes of `sun_family`. -/
def sunPath (a : ClientAddress) : List UInt8 := a.caddr.drop 2

/-- `caddr.addr_in.sin_port` as the `uint16_t` the comparison reads, in the little-endian order
of the host. -/
def sinPort (a : ClientAddress) : ℕ := (a.caddr.getD 2 0).toNat + 256 * (a.caddr.getD 3 0).toNat

/-- The four bytes of `caddr.addr_in.sin_addr`. -/
def sinAddr (a : ClientAddress) : List UInt8 := (a.caddr.drop 4).take 4

/-- `compare_client_addresses(a, b)`. -/
def compareClientAddresses (a b : ClientAddress) : ℤ :=
  if a.type ≠ b.type then -1
  else if a.type = .domain then osMemcmp (sunPath a) (sunPath b) a.len
  else if a.type = .udp then
    if sinPort a ≠ sinPort b then (if sinPort a < sinPort b then -1 else 1)
    else osMemcmp (sinAddr a) (sinAddr b) 4
  else -1

/-- `sort_subscribers_array(a, b)`: the shorter address first, then `compare_client_addresses`. -/
def sortSubscribersArray (a b : ClientAddress) : ℤ :=
  if a.len ≠ b.len then (if a.len < b.len then -1 else if a.len > b.len then 1 else 0)
  else compareClientAddresses a b

/-- `add_events_subscriber(context, addr)` on `subscribers_array`: nothing when `utarray_find`
finds the address, else `utarray_push_back` and `utarray_sort`. -/
def addEventsSubscriber (subscribers : List ClientAddress) (addr : ClientAddress) :
    List ClientAddress :=
  match bsearch sortSubscribersArray addr subscribers with
  | some _ => subscribers
  | none => msort sortSubscribersArray (subscribers ++ [addr])

/-- `MAX_SEND_EVENTS_BUF_SIZE`. -/
def maxSendEventsBufSize : ℕ := 4096

/-- The socket `send_events` writes on: `domain_sock` for a domain-socket address, `udp_sock`
for any other. -/
inductive EventSocket
  | domainSock
  | udpSock
  deriving Repr, DecidableEq

/-- `send_events(context, name, format, args)`, with `args` the text `vsnprintf` formats: the
`write_socket_data` calls of its loop over the array, each with its socket, address and
buffer `"%s %s\n"`. -/
def sendEvents (subscribers : List ClientAddress) (name args : List Char) :
    List (EventSocket × ClientAddress × List Char) :=
  let sendBuf := name ++ [' '] ++ args.take (maxSendEventsBufSize - 1) ++ ['\n']
  subscribers.map fun p => (if p.type = .domain then .domainSock else .udpSock, p, sendBuf)

/-- What the supervisor does with its subscribers: a `SUBSCRIBE_EVENTS` from a client, or an
event sent. -/
inductive SubscriberCmd
  | subscribe (addr : ClientAddress)
  | send (name args : List Char)

/-- One command on `subscribers_array`, with the writes it makes. -/
def subscriberStep (subscribers : List ClientAddress) :
    SubscriberCmd → List ClientAddress × List (EventSocket × ClientAddress × List Char)
  | .subscribe addr => (addEventsSubscriber subscribers addr, [])
  | .send name args => (subscribers, sendEvents subscribers name args)

/-! ## The array as a sorted set -/

/-- A UDP and a domain-socket address of one `len` are each before the other. -/
theorem sortSubscribersArray_udp_domain {u d : ClientAddress} (hu : u.type = .udp)
    (hd : d.type = .domain) (hlen : u.len = d.len) :
    sortSubscribersArray u d = -1 ∧ sortSubscribersArray d u = -1 := by
  have hne : u.type ≠ d.type := by
    rw [hu, hd]
    decide
  constructor
  · simp only [sortSubscribersArray, compareClientAddresses, hlen, ne_eq, not_true_eq_false,
      if_false, if_pos hne]
  · simp only [sortSubscribersArray, compareClientAddresses, hlen, ne_eq, not_true_eq_false,
      if_false, if_pos (Ne.symm hne)]

/-- So `sort_subscribers_array` is not a comparator `qsort` and `bsearch` can rely on. -/
theorem not_lawfulCmp_sortSubscribersArray : ¬ LawfulCmp sortSubscribersArray := by
  intro hlaw
  let u : ClientAddress := ⟨[], 16, .udp⟩
  let d : ClientAddress := ⟨[], 16, .domain⟩
  obtain ⟨hud, hdu⟩ := @sortSubscribersArray_udp_domain u d rfl rfl rfl
  have h := hlaw.neg_iff_pos u d
  omega

/-- `send_events` writes an event to an address once for each entry of the array that holds
it. -/
theorem count_sendEvents (subscribers : List ClientAddress) (name args : List Char)
    (addr : ClientAddress) :
    (sendEvents subscribers name args).countP (fun w => w.2.1 = addr) = subscribers.count addr := by
  simp only [sendEvents, List.countP_map, List.count_eq_countP]
  rfl

theorem osMemcmp_self (a : List UInt8) (n : ℕ) : osMemcmp a a n = 0 := by
  induction n generalizing a with
  | zero => rfl
  | succ n ih => rw [osMemcmp, if_pos rfl, ih]

/-- An address of a known type is equal to itself. -/
theorem sortSubscribersArray_self {a : ClientAddress} (h : a.type ≠ .none) :
    sortSubscribersArray a a = 0 := by
  unfold sortSubscribersArray compareClientAddresses
  cases ht : a.type with
  | none => exact absurd ht h
  | domain => simp [osMemcmp_self]
  | udp => simp [osMemcmp_self]

/-- Two UDP addresses of one `len` are ordered by their ports. -/
theorem sortSubscribersArray_udp_port {u₁ u₂ : ClientAddress} (h₁ : u₁.type = .udp)
    (h₂ : u₂.type = .udp) (hlen : u₁.len = u₂.len) (hport : sinPort u₁ < sinPort u₂) :
    sortSubscribersArray u₁ u₂ = -1 ∧ sortSubscribersArray u₂ u₁ = 1 := by
  have hne : sinPort u₁ ≠ sinPort u₂ := by omega
  constructor
  · simp [sortSubscribersArray, compareClientAddresses, hlen, h₁, h₂, hne, hport]
  · simp [sortSubscribersArray, compareClientAddresses, hlen, h₁, h₂, Ne.symm hne,
      not_lt.2 hport.le]

/-! ## A client subscribed twice -/

section Resubscribe

variable {u₁ u₂ d : ClientAddress} (h₁ : u₁.type = .udp) (h₂ : u₂.type = .udp)
  (hd : d.type = .domain) (hlen₁ : u₁.len = d.len) (hlen₂ : u₂.len = d.len)
  (hport : sinPort u₁ < sinPort u₂)
include h₁ h₂ hd hlen₁ hlen₂ hport

/-- Two UDP clients, then a domain-socket client with an address of their `len`, subscribe,
and the domain-socket client again: it is in the array twice.  The second `bsearch` in
`[u₁, u₂, d]` compares `d` with `u₂`, then `u₁`, which `sort_subscribers_array` both puts
after it, and gives up. -/
theorem run_subscribe_twice :
    (run subscriberStep [] [.subscribe u₁, .subscribe u₂, .subscribe d, .subscribe d]).1 =
      [u₁, u₂, d, d] := by
  obtain ⟨h12, -⟩ := sortSubscribersArray_udp_port h₁ h₂ (hlen₁.trans hlen₂.symm) hport
  have h21 := (sortSubscribersArray_udp_port h₁ h₂ (hlen₁.trans hlen₂.symm) hport).2
  obtain ⟨h1d, hd1⟩ := sortSubscribersArray_udp_domain h₁ hd hlen₁
  obtain ⟨h2d, hd2⟩ := sortSubscribersArray_udp_domain h₂ hd hlen₂
  have hdd : sortSubscribersArray d d = 0 := sortSubscribersArray_self (by rw [hd]; decide)
  -- each subscription, with the probes of its `bsearch`
  have s1 : addEventsSubscriber [] u₁ = [u₁] := by
    have hb : bsearch sortSubscribersArray u₁ [] = none := bsearchFrom_of_le _ le_rfl
    rw [addEventsSubscriber, hb, List.nil_append,
      msort_of_pairwise _ (List.pairwise_singleton _ u₁)]
  have s2 : addEventsSubscriber [u₁] u₂ = [u₁, u₂] := by
    have hb : bsearch sortSubscribersArray u₂ [u₁] = none := by
      rw [bsearch, bsearchFrom_of_pos _ (by simp) (p := u₁) (by simp) (by omega)]
      exact bsearchFrom_of_le _ (by simp)
    have hs : Sorted sortSubscribersArray ([u₁] ++ [u₂]) := by simp [Sorted, h12]
    rw [addEventsSubscriber, hb]
    exact msort_of_pairwise _ hs
  have s3 : addEventsSubscriber [u₁, u₂] d = [u₁, u₂, d] := by
    have hb : bsearch sortSubscribersArray d [u₁, u₂] = none := by
      rw [bsearch, bsearchFrom_of_neg _ (by simp) (p := u₂) (by simp) (by omega),
        bsearchFrom_of_neg _ (by simp) (p := u₁) (by simp) (by omega)]
      exact bsearchFrom_of_le _ (by simp)
    have hs : Sorted sortSubscribersArray ([u₁, u₂] ++ [d]) := by simp [Sorted, h12, h1d, h2d]
    rw [addEventsSubscriber, hb]
    exact msort_of_pairwise _ hs
  have s4 : addEventsSubscriber [u₁, u₂, d] d = [u₁, u₂, d, d] := by
    have hb : bsearch sortSubscribersArray d [u₁, u₂, d] = none := by
      rw [bsearch, bsearchFrom_of_neg _ (by simp) (p := u₂) (by simp) (by omega),
        bsearchFrom_of_neg _ (by simp) (p := u₁) (by simp) (by omega)]
      exact bsearchFrom_of_le _ (by simp)
    have hs : Sorted sortSubscribersArray ([u₁, u₂, d] ++ [d]) := by
      simp [Sorted, h12, h1d, h2d, hdd]
    rw [addEventsSubscriber, hb]
    exact msort_of_pairwise _ hs
  simp only [run_cons, run_nil, subscriberStep, s1, s2, s3, s4]

end Resubscribe

/-- `sort_subscribers_array` is not a total preorder, and re-subscribing does add a second
entry: after two UDP clients, a domain-socket client with an address of their `len`
subscribes twice, and every event is then written to it twice. -/
theorem resubscribed_client_gets_events_twice :
    ¬ LawfulCmp sortSubscribersArray ∧
    ∀ u₁ u₂ d : ClientAddress, u₁.type = .udp → u₂.type = .udp → d.type = .domain →
      u₁.len = d.len → u₂.len = d.len → sinPort u₁ < sinPort u₂ → ∀ name args : List Char,
      ((run subscriberStep [] [.subscribe u₁, .subscribe u₂, .subscribe d, .subscribe d,
        .send name args]).2.getLast?.map fun writes => writes.countP fun w => w.2.1 = d) =
        some 2 := by
  refine ⟨not_lawfulCmp_sortSubscribersArray, ?_⟩
  intro u₁ u₂ d h₁ h₂ hd hlen₁ hlen₂ hport name args
  have hsplit : [SubscriberCmd.subscribe u₁, .subscribe u₂, .subscribe d, .subscribe d,
      .send name args] = [.subscribe u₁, .subscribe u₂, .subscribe d, .subscribe d] ++
      [.send name args] := rfl
  have hd₁ : u₁ ≠ d := fun h => by rw [h, hd] at h₁; cases h₁
  have hd₂ : u₂ ≠ d := fun h => by rw [h, hd] at h₂; cases h₂
  rw [hsplit, run_append, run_subscribe_twice h₁ h₂ hd hlen₁ hlen₂ hport]
  simp only [run_cons, run_nil, subscriberStep, List.getLast?_append, List.getLast?_singleton,
    Option.some_or, Option.map_some, count_sendEvents]
  simp [hd₁, hd₂]

/-- Two UDP clients on ports `0x1f90` and `0x1f91` of `127.0.0.1`, as `sockaddr_in` in network
order. -/
def udpClient (portLow : UInt8) : ClientAddress :=
  ⟨[2, 0, 0x1f, portLow, 127, 0, 0, 1, 0, 0, 0, 0, 0, 0, 0, 0], 16, .udp⟩

/-- A domain-socket client at `/tmp/events.s`, whose address has the sixteen bytes of a
`sockaddr_in`. -/
def domainClient : ClientAddress :=
  ⟨[1, 0] ++ "/tmp/events.s".toList.map (fun c => c.toNat.toUInt8) ++ [0], 16, .domain⟩

example : (run subscriberStep [] [.subscribe (udpClient 0x90), .subscribe (udpClient 0x91),
    .subscribe domainClient, .subscribe domainClient]).1.count domainClient = 2 := by
  decide +kernel

end Supervisor

end EdgeSec
