import LoopCharger.Cmos.Transfer
import LoopCharger.Ups.Gateway

/-!
# Orders of an operator

What becomes of the numbers that an operator sends from the HMI: each is published as a decimal
number in a message for one of the commands, and goes through the connections of the subscriber, its
handlers, the queue of the unit and the wire.

## Main definitions

* `Order`, `Order.message`: a command with a number, and the message for it.

## Main results

* `writes_of_orders`: the handlers that are called ask for the writes that were ordered.
* `orders_to_wire`: what is written to a device was ordered.
-/

namespace LoopCharger.Ups

open Lib Cmos Modbus

/-! ### Orders -/

/-- A command of the operator. -/
structure Order where
  cmd : HmiCommand
  value : UInt16
  deriving DecidableEq

/-- The topic of the HMI. -/
def hmiTopic : CStr 64 := CStr.copy 63 (ascii "hmi_ups")

/-- The key of the messages for a command. -/
def HmiCommand.key : HmiCommand → String
  | .test => "ups_test"
  | .shutdown => "ups_shutdown"
  | .time => "on_time"
  | .offTime => "off_time"
  | .trigger => "trigger"

/-- The subscription to a command, as its index. -/
def HmiCommand.slot : HmiCommand → ℕ
  | .test => 0
  | .shutdown => 1
  | .time => 2
  | .offTime => 3
  | .trigger => 4

theorem hmiSlots_slot (cmd : HmiCommand) : hmiSlots[cmd.slot]? = some (hmiSlot cmd.key cmd) := by
  cases cmd <;> rfl

theorem HmiCommand.slot_inj {cmd cmd' : HmiCommand} : cmd.slot = cmd'.slot ↔ cmd = cmd' := by
  cases cmd <;> cases cmd' <;> decide

/-- Every subscription is for a command. -/
theorem exists_slot {s : ℕ} {slot : SubSlot HmiCommand} (h : hmiSlots[s]? = some slot) :
    ∃ cmd : HmiCommand, cmd.slot = s := by
  obtain ⟨hs, -⟩ := List.getElem?_eq_some_iff.mp h
  have hs : s < 5 := hs
  interval_cases s
  · exact ⟨.test, rfl⟩
  · exact ⟨.shutdown, rfl⟩
  · exact ⟨.time, rfl⟩
  · exact ⟨.offTime, rfl⟩
  · exact ⟨.trigger, rfl⟩

/-- The write that is ordered. -/
def Order.write (o : Order) : UInt16 × UInt16 := (o.cmd.register, o.value)

theorem isField_command : ∀ x ∈ some (ascii "command"), IsField x := by decide

theorem Order.isField_key (o : Order) : IsField (ascii o.cmd.key) := by
  cases o.cmd <;> decide

theorem Order.isField_value (o : Order) : IsField (decimal o.value.toNat) :=
  isField_decimal o.value.toNat

/-- The message for an order is not cut. -/
theorem Order.length_message_le (o : Order) :
    5 + hmiTopic.val.length + (messageText none (some (ascii "command")) (ascii o.cmd.key)
      (decimal o.value.toNat)).length ≤ 511 := by
  have htopic : hmiTopic.val.length = 7 := by decide
  have hheader : (header none (some (ascii "command")) (ascii o.cmd.key)).length ≤ 29 := by
    cases o.cmd <;> decide
  have hvalue := length_decimal_toNat o.value
  rw [length_messageText, htopic]
  omega

/-- The message for an order. -/
def Order.message (o : Order) : Message hmiTopic where
  state := none
  type := some (ascii "command")
  key := ascii o.cmd.key
  value := decimal o.value.toNat
  isField_state := isField_none
  isField_type := isField_command
  isField_key := o.isField_key
  isField_value := o.isField_value
  fits := o.length_message_le

/-- A subscription gets the number of an order for its command, and nothing else. -/
theorem gets_message (cmd : HmiCommand) (o : Order) :
    (hmiSlot cmd.key cmd).gets o.message =
      if o.cmd = cmd then some (decimal o.value.toNat) else none := by
  have hkey : passes (hmiSlot cmd.key cmd).filterKey (some (ascii o.cmd.key)) = true ↔
      o.cmd = cmd := by
    cases cmd <;> cases o.cmd <;> decide
  have hne : (hmiSlot cmd.key cmd).filterKey.val ≠ [] := by cases cmd <;> decide
  have hstate : passes (hmiSlot cmd.key cmd).filterState none = true := by cases cmd <;> decide
  have htype : passes (hmiSlot cmd.key cmd).filterType (some (ascii "command")) = true := by
    cases cmd <;> decide
  rw [SubSlot.gets, if_neg hne]
  simp only [Order.message, hstate, htype, hkey, true_and]

/-- What is read of the number of an order is the number. -/
theorem ofNat_strtoul_decimal (w : UInt16) : UInt16.ofNat (strtoul (decimal w.toNat)) = w := by
  have hlt := w.toNat_lt
  rw [strtoul_decimal (by rw [ULONG_MAX]; omega), UInt16.ofNat_toNat]

/-! ### From orders to calls -/

/-- The lines of the messages for some orders, one after the other. -/
def orderLines (orders : List Order) : Bytes := (orders.map fun o => o.message.line).flatten

/-- The write that a callback asks for. -/
def callbackWrite (c : HmiCommand × Bytes × Bytes) : UInt16 × UInt16 :=
  (c.1.register, UInt16.ofNat (strtoul c.2.2))

/-- The callbacks of a subscription ask for the writes that are ordered with its command. -/
theorem map_callbackWrite_calls (cmd : HmiCommand) (orders : List Order) :
    ((hmiSlot cmd.key cmd).calls cmd (orders.map Order.message)).map callbackWrite =
      (orders.filter fun o => o.cmd = cmd).map Order.write := by
  induction orders with
  | nil => rfl
  | cons o orders ih =>
    rw [SubSlot.calls] at ih ⊢
    rw [List.map_cons, List.filterMap_cons, List.filter_cons, gets_message]
    by_cases hcmd : o.cmd = cmd
    · simp only [hcmd, if_true, Option.map_some, List.map_cons, ih, decide_true]
      rw [callbackWrite, ofNat_strtoul_decimal, Order.write, hcmd]
    · simp only [hcmd, if_false, Option.map_none, ih, decide_false, Bool.false_eq_true]

/-- **The writes that a stream of orders asks for**: those with the command of the slot, as far as
the stream has come. -/
theorem writes_of_orders (s : Option ℕ) {orders : List Order} {stream : Bytes}
    (h : stream <+: orderLines orders) :
    (streamCalls hmiSlots s stream).map callbackWrite <+:
      (orders.filter fun o => s = some o.cmd.slot).map Order.write := by
  by_cases hslot : ∃ cmd : HmiCommand, s = some cmd.slot
  · obtain ⟨cmd, rfl⟩ := hslot
    have htopic : (hmiSlot cmd.key cmd).topic = hmiTopic := rfl
    have hlines := streamCalls_lines (show IsWord hmiTopic.val by decide) (hmiSlots_slot cmd) rfl
      rfl htopic (orders.map Order.message)
    rw [List.map_map] at hlines
    have hall : (streamCalls hmiSlots (some cmd.slot) (orderLines orders)).map callbackWrite =
        (orders.filter fun o => some cmd.slot = some o.cmd.slot).map Order.write := by
      have hline : (fun o : Order => o.message.line) = Message.line ∘ Order.message := rfl
      rw [orderLines, hline, hlines, map_callbackWrite_calls]
      simp only [Option.some.injEq, HmiCommand.slot_inj, eq_comm]
    rw [← hall]
    exact (streamCalls_part hmiSlots _ h).map callbackWrite
  · -- A connection of no subscription leads to no callback.
    have hnone : streamCalls hmiSlots s stream = [] := by
      refine List.filterMap_eq_nil_iff.mpr fun line _ => ?_
      have hno : ∀ slot, s.bind (hmiSlots[·]?) ≠ some slot := by
        intro slot heq
        obtain ⟨i, rfl, hi⟩ := Option.bind_eq_some_iff.mp heq
        obtain ⟨cmd, rfl⟩ := exists_slot hi
        exact hslot ⟨cmd, rfl⟩
      cases s with
      | none => simp [ctxHandleLine]
      | some i =>
        have hi : hmiSlots[i]? = none := Option.eq_none_iff_forall_ne_some.mpr hno
        simp [ctxHandleLine, hi]
    rw [hnone]
    exact List.nil_prefix

/-! ### From orders to the wire -/

section Wire

variable {σ : Type*} (N : Network σ) (stack : ℕ → ResponseBuffer) (created : ℕ → Bool)
  (conns : ℕ → Conn σ × ℕ) (ups : List ModuleConfig) (actions : List GatewayAction)

/-- The writes that the handlers due for a connection ask for. -/
theorem map_write_hmiCalls (sock : ℕ) :
    let heard := Gateway.heard N stack created conns ups actions
    ((hmiCalls heard).filter fun c => c.sock = sock).map HmiCall.write =
      (streamCalls hmiSlots (slotOf sock heard) (streamOf sock heard)).map callbackWrite := by
  intro heard
  rw [← callsOn_heard, callsOn, List.map_map]
  rfl

/-- **From the operator to the device.** On each connection of the subscriber a first part of the
messages for some orders has arrived, in chunks of any size. Then the handlers due for it ask for
the writes that were ordered with the command of its subscription, the first of them and in their
order; and what a unit has written to its device are such writes, each for an order of its own. -/
theorem orders_to_wire (orders : ℕ → List Order)
    (harrived : ∀ sock, streamOf sock (Gateway.heard N stack created conns ups actions) <+:
      orderLines (orders sock)) :
    let heard := Gateway.heard N stack created conns ups actions
    (∀ sock, ((hmiCalls heard).filter fun c => c.sock = sock).map HmiCall.write <+:
        ((orders sock).filter fun o => slotOf sock heard = some o.cmd.slot).map Order.write) ∧
      ∀ (k : ℕ) (t : UnitThread (Client (σ × List Bytes) × ℕ)),
        (Gateway.units N stack created conns ups actions)[k]? = some t →
        ∃ calls : List HmiCall, calls.Sublist (hmiCalls heard) ∧
          t.written.map decodeWriteRequest = calls.map (fun c => some (t.request c.write)) ∧
          ∀ c ∈ calls, ∃ o ∈ orders c.sock, c.write = o.write := by
  intro heard
  have hfirst : ∀ sock, ((hmiCalls heard).filter fun c => c.sock = sock).map HmiCall.write <+:
      ((orders sock).filter fun o => slotOf sock heard = some o.cmd.slot).map Order.write := by
    intro sock
    rw [map_write_hmiCalls]
    exact writes_of_orders _ (harrived sock)
  refine ⟨hfirst, fun k t hget => ?_⟩
  obtain ⟨calls, hran, hdecode, -⟩ := written_sublist_ran N stack created conns ups actions hget
  have hcalls := hran.trans (ran_prefix_hmiCalls N stack created conns ups actions).sublist
  refine ⟨calls, hcalls, hdecode, fun c hc => ?_⟩
  have hmem : c.write ∈ ((hmiCalls heard).filter fun d => d.sock = c.sock).map HmiCall.write :=
    List.mem_map_of_mem (List.mem_filter.mpr ⟨hcalls.subset hc, decide_eq_true rfl⟩)
  obtain ⟨o, ho, heq⟩ := List.mem_map.mp ((hfirst c.sock).subset hmem)
  exact ⟨o, (List.mem_filter.mp ho).1, heq.symm⟩

/-- A self test that is ordered with the number 1, up to the write of its register. -/
theorem orders_to_wire_test :
    let orders : List Order := [⟨.test, 1⟩]
    let actions : List GatewayAction := [.sub (.addPub 0 (ascii "hmi") true),
      .sub (.ready 0 (orderLines orders)), .call, .thread 0, .thread 0, .thread 0, .thread 0]
    let ups : List ModuleConfig := [⟨true, 1, "192.168.1.10", 502⟩]
    let units := Gateway.units silentNetwork (fun _ => Vector.replicate _ 0) (fun _ => true)
      (fun _ => (⟨.other 0, ()⟩, 0)) ups actions
    ∃ t, units[0]? = some t ∧ t.written.length = 1 ∧
      ∀ r ∈ t.written.map decodeWriteRequest, ∃ o ∈ orders, r = some (t.request o.write) := by
  intro orders actions ups units
  let heard := Gateway.heard silentNetwork (fun _ => Vector.replicate _ 0) (fun _ => true)
    (fun _ => (⟨.other 0, ()⟩, 0)) ups actions
  let subActions : List SubAction := [.addPub 0 (ascii "hmi") true, .ready 0 (orderLines orders)]
  have hheard : heard = subMachine.trace (.init hmiSlots) subActions := by decide +kernel
  obtain ⟨hstream, -⟩ := streamOf_delivery hmiSlots 0 (ascii "hmi") (orderLines orders)
    (by decide +kernel) (by decide +kernel)
  have hopened : (subMachine.state (.init hmiSlots) subActions).opened = 1 := by decide +kernel
  have harrived : ∀ sock, streamOf sock heard <+: orderLines orders := by
    intro sock
    rw [hheard]
    by_cases hsock : sock = 0
    · rw [hsock, show streamOf 0 _ = _ from hstream]
    · have hnone : ofSock sock (subMachine.trace (.init hmiSlots) subActions) = [] := by
        refine ofSock_eq_nil fun e he heq => ?_
        have hbound := (serves hmiSlots subActions).bound e he
        omega
      rw [streamOf, hnone]
      exact List.nil_prefix
  obtain ⟨t, ht⟩ : ∃ t, units[0]? = some t := Option.isSome_iff_exists.mp (by decide +kernel)
  have hlen : units[0]?.map (fun t => t.written.length) = some 1 := by decide +kernel
  rw [ht] at hlen
  refine ⟨t, ht, Option.some.inj hlen, fun r hr => ?_⟩
  obtain ⟨-, hunits⟩ := orders_to_wire silentNetwork (fun _ => Vector.replicate _ 0) (fun _ => true)
    (fun _ => (⟨.other 0, ()⟩, 0)) ups actions (fun _ => orders) harrived
  obtain ⟨calls, -, hdecode, hcalls⟩ := hunits 0 t ht
  rw [hdecode] at hr
  obtain ⟨c, hc, rfl⟩ := List.mem_map.mp hr
  obtain ⟨o, ho, heq⟩ := hcalls c hc
  exact ⟨o, ho, by rw [heq]⟩

end Wire

end LoopCharger.Ups
