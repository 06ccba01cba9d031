import Mathlib.Data.List.Induction
import NorFlash.Event

/-!
# One report for each wait

All handles of a completion event refer to the same latch, so what several parties do with their
handles is one list of calls, in the order in which they reach the latch. `Event.done_after_iff`
says what the latch remembers of such a list: a report of the newest operation that neither a later
operation nor a wait has used up. `Event.number_after` says that a token counts the operations
issued, as far as 64 bits can, so `Event.token_eq_iff` tells which tokens agree. `waits_for_newest`
puts the two together.
-/

namespace NorFlash

/-- A call on an event. A wait looks at the latch, and a wait that others come between is a call for
each time it looks: it ends when it finds the latch set, or with the last time it does not. -/
inductive EventCall where
  | arm
  | token
  | signal
  | signalFor (token : Token)
  | wait
  deriving DecidableEq

/-- What a call answers. -/
inductive EventAnswer where
  | nothing
  | token (token : Token)
  /-- The operation waited for is complete, or not. -/
  | arrived (value : Bool)
  deriving DecidableEq

namespace Event

/-- Answers a call. -/
def take (event : Event) : EventCall → EventAnswer × Event
  | .arm => (.token event.arm.token, event.arm)
  | .token => (.token event.token, event)
  | .signal => (.nothing, event.signal)
  | .signalFor token => (.nothing, event.signalFor token)
  | .wait => (.arrived event.wait.1, event.wait.2)

/-- The event after calls. -/
def after (event : Event) (calls : List EventCall) : Event :=
  calls.foldl (fun event call => (event.take call).2) event

/-- The call reports the newest operation complete: without a token, or with the one that the event
would answer if it were asked. -/
def Heeds (event : Event) (call : EventCall) : Prop :=
  call = .signal ∨ ∃ token, call = .signalFor token ∧ (event.take .token).1 = .token token

/-- The call uses up what was reported: it issues another operation, or it is a wait that ends. -/
def UsesUp (event : Event) (call : EventCall) : Prop :=
  call = .arm ∨ call = .wait ∧ (event.take .wait).1 = .arrived true

/-- Among the calls is a report of the newest operation that no later one of them has used up. -/
def Reported (event : Event) (calls : List EventCall) : Prop :=
  ∃ before report rest, calls = before ++ report :: rest ∧ (event.after before).Heeds report ∧
    ∀ between call last, rest = between ++ call :: last →
      ¬(event.after (before ++ report :: between)).UsesUp call

variable (event : Event)

/-- Calls in two parts are made one part after the other. -/
theorem after_append (first second : List EventCall) :
    event.after (first ++ second) = (event.after first).after second :=
  List.foldl_append

/-- The last call is taken by the event after those before it. -/
theorem after_concat (calls : List EventCall) (call : EventCall) :
    event.after (calls ++ [call]) = ((event.after calls).take call).2 :=
  event.after_append calls [call]

/-! ## The latch -/

/-- What one call makes of the latch. -/
theorem done_take_iff (call : EventCall) :
    (event.take call).2.done = true ↔
      event.Heeds call ∨ event.done = true ∧ ¬event.UsesUp call := by
  cases call with
  | arm => simp [take, Heeds, UsesUp, arm]
  | token => simp [take, Heeds, UsesUp]
  | signal => simp [take, Heeds, UsesUp, signal]
  | signalFor token =>
      by_cases htoken : event.token = token
      · simp [take, Heeds, htoken, signalFor, signal]
      · simp [take, Heeds, UsesUp, htoken, signalFor]
  | wait => simp [take, Heeds, UsesUp, wait]

/-- One more call reports, or it leaves the report that there was before. -/
theorem reported_concat_iff (calls : List EventCall) (call : EventCall) :
    event.Reported (calls ++ [call]) ↔
      (event.after calls).Heeds call ∨
        event.Reported calls ∧ ¬(event.after calls).UsesUp call := by
  constructor
  · rintro ⟨before, report, rest, hcalls, hreport, hrest⟩
    obtain rfl | ⟨front, last, rfl⟩ := rest.eq_nil_or_concat
    · obtain ⟨rfl, hlast⟩ := List.append_inj' hcalls rfl
      exact .inl ((List.singleton_inj.mp hlast) ▸ hreport)
    · rw [List.concat_eq_append, ← List.cons_append, ← List.append_assoc] at hcalls
      obtain ⟨rfl, hlast⟩ := List.append_inj' hcalls rfl
      obtain rfl := List.singleton_inj.mp hlast
      refine .inr ⟨⟨before, report, front, rfl, hreport, fun between other last hfront => ?_⟩, ?_⟩
      · exact hrest between other (last ++ [call]) (by simp [hfront])
      · exact hrest front call [] (by simp)
  · rintro (hreport | ⟨⟨before, report, rest, rfl, hreport, hrest⟩, hcall⟩)
    · exact ⟨calls, call, [], rfl, hreport, fun between other last h => by simp at h⟩
    · refine ⟨before, report, rest ++ [call], by simp, hreport, fun between other last h => ?_⟩
      obtain rfl | ⟨front, final, rfl⟩ := last.eq_nil_or_concat
      · obtain ⟨rfl, hlast⟩ := List.append_inj' h rfl
        exact (List.singleton_inj.mp hlast) ▸ hcall
      · rw [List.concat_eq_append, ← List.cons_append, ← List.append_assoc] at h
        exact hrest between other front (List.append_inj' h rfl).1

/-- The latch of an event that was clear remembers a report until it is used up. -/
theorem done_after_iff {event : Event} (hclear : event.done = false) (calls : List EventCall) :
    (event.after calls).done = true ↔ event.Reported calls := by
  induction calls using List.reverseRecOn with
  | nil => simp [after, hclear, Reported]
  | append_singleton calls call ih =>
      rw [after_concat, done_take_iff, reported_concat_iff, ih]

/-! ## Tokens -/

/-- Only the issue of an operation moves the number of the token, by one. -/
theorem number_take (call : EventCall) :
    (event.take call).2.token.number =
      event.token.number + UInt64.ofNat (if call = .arm then 1 else 0) := by
  cases call with
  | signalFor token =>
      by_cases htoken : event.token = token <;> simp [take, signalFor, signal, htoken]
  | _ => simp [take, arm, signal, wait]

/-- The token counts the operations issued. -/
theorem number_after (calls : List EventCall) :
    (event.after calls).token.number =
      event.token.number + UInt64.ofNat (calls.count .arm) := by
  induction calls using List.reverseRecOn with
  | nil => simp [after]
  | append_singleton calls call ih =>
      rw [after_concat, number_take, ih, UInt64.add_assoc, ← UInt64.ofNat_add, List.count_append,
        List.count_singleton]
      simp

/-- As a word a count is zero just if it is a multiple of the number of words. -/
theorem ofNat_eq_zero_iff (count : Nat) : UInt64.ofNat count = 0 ↔ UInt64.size ∣ count := by
  rw [← UInt64.toNat_inj, UInt64.toNat_ofNat', Nat.dvd_iff_mod_eq_zero]
  rfl

/-- The token is the same again exactly if the number of operations issued since is a multiple of
the number of tokens. -/
theorem token_eq_iff (calls : List EventCall) :
    event.token = (event.after calls).token ↔ UInt64.size ∣ calls.count .arm := by
  have hnumber : event.token = (event.after calls).token ↔
      event.token.number = (event.after calls).token.number :=
    ⟨congrArg Token.number, congrArg Token.mk⟩
  rw [hnumber, number_after, UInt64.left_eq_add, ofNat_eq_zero_iff]

/-- A token that fewer other operations were issued after than there are tokens is not the newest
any more. -/
theorem token_ne_of_arm_mem {calls : List EventCall} (harm : .arm ∈ calls)
    (hfew : calls.count .arm < UInt64.size) : event.token ≠ (event.after calls).token := by
  intro htoken
  have hle := Nat.le_of_dvd (List.count_pos_iff.mpr harm) ((event.token_eq_iff calls).mp htoken)
  exact absurd hle (Nat.not_le.mpr hfew)

/-- After any calls on a fresh event, a wait ends exactly if the newest operation was reported
complete and nothing has used that up since: no other operation was issued, and no wait has ended. A
report for any other token changes nothing. Two operations have the same token exactly if the
number of operations from the first to the second is a multiple of the number of tokens. So while
fewer operations than that are issued, a report for one that is no longer the newest changes
nothing. -/
theorem waits_for_newest (calls : List EventCall) :
    let event := fresh.after calls
    ((event.take .wait).1 = .arrived true ↔ fresh.Reported calls) ∧
    (∀ token, (event.take .token).1 ≠ .token token →
      (event.take (.signalFor token)).2 = event) ∧
    (∀ between, (event.take .arm).1 = ((event.after (.arm :: between)).take .arm).1 ↔
      UInt64.size ∣ (between ++ [EventCall.arm]).count .arm) ∧
    ∀ token later, (event.take .token).1 = .token token → .arm ∈ later →
      (calls ++ later).count .arm < UInt64.size →
      ((event.after later).take (.signalFor token)).2 = event.after later := by
  intro event
  refine ⟨?_, fun token htoken => ?_, fun between => ?_, fun token later htoken harm hfew => ?_⟩
  · rw [← done_after_iff rfl]
    exact ⟨EventAnswer.arrived.inj, congrArg EventAnswer.arrived⟩
  · exact signalFor_of_ne fun h => htoken (congrArg EventAnswer.token h)
  · have hsecond : ((event.after (.arm :: between)).take .arm).1 =
        .token (event.arm.after (between ++ [.arm])).token := by
      rw [after_concat]
      rfl
    rw [hsecond, ← token_eq_iff]
    exact ⟨EventAnswer.token.inj, congrArg EventAnswer.token⟩
  · obtain rfl : event.token = token := EventAnswer.token.inj htoken
    rw [List.count_append] at hfew
    exact signalFor_of_ne (event.token_ne_of_arm_mem harm (by omega)).symm

/-- The first of two operations is reported complete after the second was issued. That does not end
a wait, and a report of the second operation does. -/
theorem waits_for_newest_of_late_report :
    let event := fresh.after [.arm, .arm]
    (event.take (.signalFor ⟨1⟩)).2 = event ∧ (event.take .wait).1 = .arrived false ∧
      ((fresh.after [.arm, .arm, .signalFor ⟨1⟩, .signalFor ⟨2⟩]).take .wait).1 =
        .arrived true := by
  intro event
  obtain ⟨-, -, -, hlate⟩ := waits_for_newest [.arm]
  obtain ⟨hends, -⟩ := waits_for_newest [.arm, .arm, .signalFor ⟨1⟩, .signalFor ⟨2⟩]
  refine ⟨hlate ⟨1⟩ [.arm] rfl (by decide) (by decide), rfl, hends.mpr ?_⟩
  exact ⟨[.arm, .arm, .signalFor ⟨1⟩], .signalFor ⟨2⟩, [], rfl, .inr ⟨⟨2⟩, rfl, rfl⟩, by simp⟩

end Event

end NorFlash
