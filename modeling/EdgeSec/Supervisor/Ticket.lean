import EdgeSec.Lib.Machine
import EdgeSec.Supervisor.Connection

/-!
# The authentication ticket: registration, timeout and use

`REGISTER_TICKET` (`register_ticket_cmd`, `src/supervisor/network_commands.c`) lets an
operator admit one unknown device: it allocates a ticket holding a VLAN, a label and a fresh
16-digit passphrase, returns the passphrase, and arms a 60 s timeout whose handler
(`eloop_ticket_timeout_handler`) frees the ticket.  The ticket branch of `get_mac_conn_cmd`
hands the ticket's VLAN and passphrase to the first unknown station that asks, and frees it.

The three are one state machine over the supervisor context (`ticketStep`).  Timeouts are
events that may come at any point: the handler of an earlier ticket is never cancelled when
that ticket is used, so it can fire while a later ticket is active.

## Main results

* `ticket_single_use`: along every run from a context without a ticket, no ticket object is
  handed out twice, a registration succeeds only when no ticket is held, and after a use or a
  timeout `context->ticket` is `NULL`.
-/

namespace EdgeSec

namespace Supervisor

open MacMapper Machine

/-- `TICKET_PASSPHRASE_SIZE`. -/
def ticketPassphraseSize : ℕ := 16

/-- The outcomes of what `register_ticket_cmd` calls outside the modelled state: whether
`os_zalloc` succeeds, the bytes `os_get_random` reads (`none` when it fails), and whether
`edge_eloop_register_timeout` succeeds. -/
structure TicketEnv where
  zallocOk : Bool
  random : Option (Vector UInt8 ticketPassphraseSize)
  timeoutOk : Bool
  deriving Repr, DecidableEq

/-- `os_get_random_number_s` (`src/utils/os.c`): the random bytes as decimal digits. -/
def osGetRandomNumberS {n : ℕ} (raw : Option (Vector UInt8 n)) : Option (Vector UInt8 n) :=
  raw.map (Vector.map fun b => b % 10 + 48)

/-- `register_ticket_cmd`: the passphrase it returns (`NULL` as `none`) and the context.
On the two failures after the allocation the object is freed while `context->ticket` still
points to it; what `os_get_random` wrote before it failed is not modelled (the zeroed buffer
of `os_zalloc` stands for it). -/
def registerTicketCmd (env : TicketEnv) (context : SupervisorContext) (label : String)
    (vlanid : Int) : Option (List UInt8) × SupervisorContext :=
  match context.ticket with
  | some _ => (none, context)
  | none =>
      if ¬ env.zallocOk then (none, context)
      else
        let serial := context.allocs
        let context := { context with allocs := context.allocs + 1 }
        let ticket : AuthTicket :=
          ⟨List.replicate ticketPassphraseSize 0, ticketPassphraseSize, label, vlanid⟩
        match osGetRandomNumberS env.random with
        | none => (none, { context with ticket := some ⟨serial, true, ticket⟩ })
        | some pass =>
            let ticket := { ticket with passphrase := pass.toList }
            if ¬ env.timeoutOk then (none, { context with ticket := some ⟨serial, true, ticket⟩ })
            else (some pass.toList, { context with ticket := some ⟨serial, false, ticket⟩ })

/-- `eloop_ticket_timeout_handler`. -/
def eloopTicketTimeoutHandler (context : SupervisorContext) : SupervisorContext :=
  freeTicket context

/-- The ticket the ticket branch of `get_mac_conn_cmd` reads, if the call takes it. -/
def ticketHandout (context : SupervisorContext) (macAddr : MacAddr) : Option TicketObj :=
  if connBranch context.allowAllConnections (findMacCode context.macMapper macAddr)
      (lookupInfo context macAddr) = .unassigned then context.ticket
  else none

/-- The events of the ticket's life. -/
inductive TicketEvent
  | registerTicket (label : String) (vlanid : Int) (env : TicketEnv)
  | ticketTimeout
  | connect (macAddr : MacAddr) (env : SaveEnv)

/-- What each event answers: the passphrase of a registration, and the `info` of a
connection with the ticket its ticket branch handed out. -/
inductive TicketReply
  | registered (pass : Option (List UInt8))
  | timedOut
  | connected (info : MacConnInfo) (handout : Option TicketObj)

/-- The ticket a reply hands out. -/
def TicketReply.handout? : TicketReply → Option TicketObj
  | .connected _ h => h
  | _ => none

/-- One event of the supervisor, on the context. -/
def ticketStep : SupervisorContext → TicketEvent → SupervisorContext × TicketReply
  | context, .registerTicket label vlanid env =>
      let r := registerTicketCmd env context label vlanid
      (r.2, .registered r.1)
  | context, .ticketTimeout => (eloopTicketTimeoutHandler context, .timedOut)
  | context, .connect macAddr env =>
      let r := getMacConnCmd env context macAddr
      (r.2, .connected r.1 (ticketHandout context macAddr))

/-- The allocation serials of the tickets a history handed out, in order. -/
def handoutSerials (tr : List TicketReply) : List ℕ :=
  (tr.filterMap TicketReply.handout?).map TicketObj.serial

/-! ## `register_ticket_cmd` -/

section Register

variable (env : TicketEnv) (context : SupervisorContext) (label : String) (vlanid : Int)

/-- What a registration can do: nothing, or allocate the next serial into the empty ticket
slot, returning the passphrase exactly when the object is still live. -/
theorem registerTicketCmd_cases :
    registerTicketCmd env context label vlanid = (none, context) ∨
      ∃ t : TicketObj, context.ticket = none ∧ t.serial = context.allocs ∧
        t.val.vlanid = vlanid ∧ t.val.deviceLabel = label ∧
        (registerTicketCmd env context label vlanid).2 =
          { context with allocs := context.allocs + 1, ticket := some t } ∧
        ((registerTicketCmd env context label vlanid).1 = some t.val.passphrase ∧
            t.freed = false ∨
          (registerTicketCmd env context label vlanid).1 = none ∧ t.freed = true) := by
  unfold registerTicketCmd
  split
  · exact Or.inl rfl
  · rename_i hticket
    split
    · exact Or.inl rfl
    · -- the allocation succeeded: the random draw, then the timeout registration
      right
      split
      · exact ⟨_, hticket, rfl, rfl, rfl, rfl, Or.inr ⟨rfl, rfl⟩⟩
      · split
        · exact ⟨_, hticket, rfl, rfl, rfl, rfl, Or.inr ⟨rfl, rfl⟩⟩
        · exact ⟨_, hticket, rfl, rfl, rfl, rfl, Or.inl ⟨rfl, rfl⟩⟩

/-- A registration succeeds only when no ticket is held. -/
theorem registerTicketCmd_ticket_of_isSome
    (h : (registerTicketCmd env context label vlanid).1.isSome) : context.ticket = none := by
  rcases registerTicketCmd_cases env context label vlanid with hnone | ⟨t, hfree, -⟩
  · rw [hnone] at h
    exact absurd h (by simp)
  · exact hfree

end Register

/-! ## The ticket branch of `get_mac_conn_cmd` -/

@[simp] theorem getMacConnCmd_allocs (env : SaveEnv) (context : SupervisorContext)
    (macAddr : MacAddr) : (getMacConnCmd env context macAddr).2.allocs = context.allocs := by
  rw [getMacConnCmd_context]

/-- After a connection request that was handed a ticket, no ticket is held. -/
theorem getMacConnCmd_ticket_of_handout (env : SaveEnv) (context : SupervisorContext)
    (macAddr : MacAddr) (h : (ticketHandout context macAddr).isSome) :
    (getMacConnCmd env context macAddr).2.ticket = none := by
  unfold ticketHandout at h
  split_ifs at h with hb
  · rw [getMacConnCmd_ticket, if_pos hb]
  · exact absurd h (by simp)

/-- After a connection request that was handed nothing, the slot is kept or cleared. -/
theorem getMacConnCmd_ticket_of_no_handout (env : SaveEnv) (context : SupervisorContext)
    (macAddr : MacAddr) :
    (getMacConnCmd env context macAddr).2.ticket = context.ticket ∨
      (getMacConnCmd env context macAddr).2.ticket = none := by
  rw [getMacConnCmd_ticket]
  split_ifs
  · exact Or.inr rfl
  · exact Or.inl rfl

/-! ## One step of the ticket machine -/

theorem handoutSerials_append (tr : List TicketReply) (r : TicketReply) :
    handoutSerials (tr ++ [r]) = handoutSerials tr ++ (r.handout?.map TicketObj.serial).toList := by
  unfold handoutSerials
  rcases h : r.handout? with _ | t <;> simp [List.filterMap_append, h]

theorem ticketHandout_live {context : SupervisorContext} {macAddr : MacAddr} {t : TicketObj}
    (h : ticketHandout context macAddr = some t) : context.ticket = some t := by
  unfold ticketHandout at h
  split_ifs at h
  exact h

/-- The invariant of the ticket slot against the serials handed out so far: the live
ticket, if any, has a serial already allocated and not yet handed out, and the serials
handed out are allocated and distinct. -/
structure TicketSlotInv (s : SupervisorContext) (handed : List ℕ) : Prop where
  live_lt : ∀ t, s.ticket = some t → t.serial < s.allocs
  live_fresh : ∀ t, s.ticket = some t → t.serial ∉ handed
  handed_lt : ∀ k ∈ handed, k < s.allocs
  nodup : handed.Nodup

theorem ticketSlotInv_start {s : SupervisorContext} (h : s.ticket = none) :
    TicketSlotInv s [] where
  live_lt := by simp [h]
  live_fresh := by simp [h]
  handed_lt := by simp
  nodup := List.nodup_nil

variable {s s' : SupervisorContext} {handed : List ℕ}

/-- A step that keeps or clears the slot and allocates nothing. -/
theorem TicketSlotInv.of_keep (hi : TicketSlotInv s handed)
    (hticket : s'.ticket = s.ticket ∨ s'.ticket = none) (hallocs : s'.allocs = s.allocs) :
    TicketSlotInv s' handed := by
  rcases hticket with hticket | hticket
  · exact ⟨by rw [hticket, hallocs]; exact hi.live_lt, by rw [hticket]; exact hi.live_fresh,
      by rw [hallocs]; exact hi.handed_lt, hi.nodup⟩
  · exact ⟨by simp [hticket], by simp [hticket], by rw [hallocs]; exact hi.handed_lt, hi.nodup⟩

/-- A step that allocates the next serial into the slot. -/
theorem TicketSlotInv.alloc (hi : TicketSlotInv s handed) {t : TicketObj}
    (hallocs : s'.allocs = s.allocs + 1) (hticket : s'.ticket = some t)
    (hser : t.serial = s.allocs) : TicketSlotInv s' handed := by
  -- the new serial is the old count, above every serial handed out
  refine ⟨?_, ?_, ?_, hi.nodup⟩
  · intro t' ht'
    rw [hticket, Option.some_inj] at ht'
    subst ht'
    omega
  · intro t' ht' hmem
    rw [hticket, Option.some_inj] at ht'
    subst ht'
    have := hi.handed_lt _ hmem
    omega
  · intro k hk
    have := hi.handed_lt k hk
    omega

/-- A step that hands out the live ticket and clears the slot. -/
theorem TicketSlotInv.handout (hi : TicketSlotInv s handed) {t : TicketObj}
    (hlive : s.ticket = some t) (hticket : s'.ticket = none) (hallocs : s'.allocs = s.allocs) :
    TicketSlotInv s' (handed ++ [t.serial]) := by
  refine ⟨by simp [hticket], by simp [hticket], ?_, ?_⟩
  · intro k hk
    rw [hallocs]
    rcases List.mem_append.1 hk with hk | hk
    · exact hi.handed_lt k hk
    · rw [List.mem_singleton.1 hk]
      exact hi.live_lt t hlive
  · refine List.nodup_append.2 ⟨hi.nodup, List.nodup_singleton _, ?_⟩
    intro a ha b hb hab
    rw [List.mem_singleton.1 hb] at hab
    exact hi.live_fresh t hlive (hab ▸ ha)

/-- One step keeps the invariant against the serials handed out, whatever the event. -/
theorem ticketSlotInv_step (s : SupervisorContext) (tr : List TicketReply) (e : TicketEvent)
    (hi : TicketSlotInv s (handoutSerials tr)) :
    TicketSlotInv (ticketStep s e).1 (handoutSerials (tr ++ [(ticketStep s e).2])) := by
  rw [handoutSerials_append]
  cases e with
  | registerTicket label vlanid env =>
      simp only [ticketStep, TicketReply.handout?, Option.map_none, Option.toList_none,
        List.append_nil]
      rcases registerTicketCmd_cases env s label vlanid with hnone | ⟨t, -, hser, -, -, hctx, -⟩
      · rw [hnone]
        exact hi.of_keep (Or.inl rfl) rfl
      · exact hi.alloc (by rw [hctx]) (by rw [hctx]) hser
  | ticketTimeout =>
      simp only [ticketStep, TicketReply.handout?, Option.map_none, Option.toList_none,
        List.append_nil]
      exact hi.of_keep (Or.inr rfl) rfl
  | connect macAddr env =>
      simp only [ticketStep, TicketReply.handout?]
      rcases hh : ticketHandout s macAddr with _ | t
      · simp only [Option.map_none, Option.toList_none, List.append_nil]
        exact hi.of_keep (getMacConnCmd_ticket_of_no_handout env s macAddr)
          (getMacConnCmd_allocs env s macAddr)
      · simp only [Option.map_some, Option.toList_some]
        exact hi.handout (ticketHandout_live hh)
          (getMacConnCmd_ticket_of_handout env s macAddr (by rw [hh]; rfl))
          (getMacConnCmd_allocs env s macAddr)

/-- A step that succeeds in registering starts from an empty slot. -/
theorem ticketStep_registered {s : SupervisorContext} {e : TicketEvent} {pass : List UInt8}
    (h : (ticketStep s e).2 = .registered (some pass)) : s.ticket = none := by
  cases e with
  | registerTicket label vlanid env =>
      simp only [ticketStep, TicketReply.registered.injEq] at h
      exact registerTicketCmd_ticket_of_isSome env s label vlanid (by rw [h]; rfl)
  | ticketTimeout => simp [ticketStep] at h
  | connect macAddr env => simp [ticketStep] at h

/-- After a timeout, or a connection request that was handed the ticket, no ticket is
held. -/
theorem ticketStep_cleared {s : SupervisorContext} {e : TicketEvent}
    (h : e = .ticketTimeout ∨ ((ticketStep s e).2.handout?).isSome) :
    (ticketStep s e).1.ticket = none := by
  cases e with
  | registerTicket label vlanid env => simp [ticketStep, TicketReply.handout?] at h
  | ticketTimeout => rfl
  | connect macAddr env =>
      simp only [ticketStep, TicketReply.handout?, reduceCtorEq, false_or] at h ⊢
      exact getMacConnCmd_ticket_of_handout env s macAddr h

/-! ## Single use over every run -/

theorem ticket_single_use (context : SupervisorContext) (hfree : context.ticket = none)
    (evs : List TicketEvent) :
    (handoutSerials (run ticketStep context evs).2).Nodup ∧
      (∀ x ∈ transitions ticketStep context evs, ∀ pass : List UInt8,
        x.reply = .registered (some pass) → x.before.ticket = none) ∧
      (∀ x ∈ transitions ticketStep context evs,
        x.cmd = .ticketTimeout ∨ (x.reply.handout?).isSome → x.after.ticket = none) := by
  refine ⟨?_, ?_, ?_⟩
  · exact (run_trace_invariant (fun s tr => TicketSlotInv s (handoutSerials tr))
      (ticketSlotInv_start hfree) ticketSlotInv_step evs).nodup
  · intro x hx pass hreg
    obtain ⟨-, hreply⟩ := mem_transitions hx
    exact ticketStep_registered (hreply ▸ hreg)
  · intro x hx hused
    obtain ⟨hafter, hreply⟩ := mem_transitions hx
    rw [hafter]
    rw [hreply] at hused
    exact ticketStep_cleared hused

/-- A registration of a guest ticket, then a request from an unknown station. -/
def guestRun : List TicketEvent :=
  [.registerTicket "guest" 7 ⟨true, some (Vector.replicate ticketPassphraseSize 5), true⟩,
    .connect #v[2, 0, 0, 0, 0, 2] ⟨true, some 0, "", true⟩]

theorem ticket_single_use_on_guest_run :
    ({ deniedStationContext with ticket := none } : SupervisorContext).ticket = none ∧
      ((handoutSerials (run ticketStep { deniedStationContext with ticket := none }
          guestRun).2).Nodup ∧
        (∀ x ∈ transitions ticketStep { deniedStationContext with ticket := none } guestRun,
          ∀ pass : List UInt8, x.reply = .registered (some pass) → x.before.ticket = none) ∧
        (∀ x ∈ transitions ticketStep { deniedStationContext with ticket := none } guestRun,
          x.cmd = .ticketTimeout ∨ (x.reply.handout?).isSome → x.after.ticket = none)) :=
  ⟨rfl, ticket_single_use _ rfl guestRun⟩

end Supervisor

end EdgeSec
